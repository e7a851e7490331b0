import GoIdiom.Construct.Declaration
import GoIdiom.Proofs.Printing.Runs
import Mathlib.Data.List.Basic

/-!
# Declared names

Parameters and struct fields are written as names before a type that they share. A name is told from an unnamed type
by what follows it: brackets that are empty, hold one number or begin with an ellipsis are read as the length of an
array or slice type, all others as type arguments. So the names of a list are recovered exactly when no array length
is written otherwise. A field with more than one name is told by its comma.
-/

namespace GoIdiom

open Token

/-! ## Separated items -/

/-- Items with commas behind them, but maybe for the last one. -/
inductive Separated : List (List Token) → List Token → Prop
  | nil : Separated [] []
  | last (item : List Token) : Separated [item] item
  | cons {comma : Token} {items : List (List Token)} {ts : List Token} (item : List Token)
      (hcomma : comma.isOp "," = true) (h : Separated items ts) : Separated (item :: items) (item ++ comma :: ts)

section Split

variable {separates : Token → Bool} {item ts : List Token}

/-- The first part of a list is what stands before its first separator. -/
theorem endedParts_cons (hitem : Free separates item) {t : Token} (ht : separates t = true) (rest : List Token) :
    endedParts separates (item ++ t :: rest) = (item, some t) :: endedParts separates rest := by
  rw [endedParts.eq_def]
  split
  · next h =>
    rw [hitem.spanTop_append_cons ht] at h
    cases h
  · next h =>
    rw [hitem.spanTop_append_cons ht] at h
    cases h
    rfl

/-- A list without separators is its only part. -/
theorem endedParts_last (hitem : Free separates item) : endedParts separates item = [(item, none)] := by
  have hspan : spanTop separates item = (item, []) := by
    have h := hitem.spanTop_append []
    rw [List.append_nil, spanTop, List.append_nil] at h
    exact h
  rw [endedParts.eq_def]
  split
  · next h =>
    rw [hspan] at h
    cases h
    rfl
  · next h =>
    rw [hspan] at h
    cases h

/-- The first non-empty part of a list is what stands before its first separator. -/
theorem splitParts_cons (hitem : Free separates item) (hnil : item ≠ []) {t : Token} (ht : separates t = true)
    (rest : List Token) : splitParts separates (item ++ t :: rest) = item :: splitParts separates rest := by
  rw [splitParts, endedParts_cons hitem ht, List.map_cons, List.filter_cons, if_pos (by simpa using hnil)]
  rfl

/-- A list without separators has one non-empty part at most. -/
theorem splitParts_last (hitem : Free separates item) :
    splitParts separates item = [item].filter (!·.isEmpty) := by
  rw [splitParts, endedParts_last hitem, List.map_singleton]

/-- Separated items are split into the items. -/
theorem Separated.splitParts {items : List (List Token)} (h : Separated items ts)
    (hitems : ∀ item ∈ items, item ≠ [] ∧ Free (·.isOp ",") item) :
    Token.splitParts (·.isOp ",") ts = items := by
  induction h with
  | nil => exact splitParts_last .nil
  | last item =>
    obtain ⟨hnil, hfree⟩ := hitems item List.mem_cons_self
    rw [splitParts_last hfree, List.filter_cons, if_pos (by simpa using hnil), List.filter_nil]
  | cons item hcomma _ ih =>
    obtain ⟨⟨hnil, hfree⟩, hitems⟩ := List.forall_mem_cons.mp hitems
    rw [splitParts_cons hfree hnil hcomma, ih hitems]

end Split

/-! ## Names and types -/

/-- A name is no comma. -/
theorem free_cons_ident {name : Token} {ts : List Token} (hname : name.isIdent = true)
    (hts : Free (·.isOp ",") ts) : Free (·.isOp ",") (name :: ts) := by
  refine .plain (isPlain_of_isIdent hname) ?_ hts
  rw [isOp, beq_iff_eq.mp hname]
  rfl

/-- What is asked of the tokens of a type: some tokens, no commas outside brackets, and no dots at their head. -/
structure IsType (ts : List Token) : Prop where
  ne_nil : ts ≠ []
  free : Free (·.isOp ",") ts
  dots : ∀ t ∈ ts.head?, t.isOp "..." = false
  dot : ∀ t ∈ ts.head?, t.isOp "." = false

/-- What an array length may be to be told from type arguments: left out, one number, or an ellipsis. -/
def PlainLength (inner : List Token) : Prop :=
  inner = [] ∨ (∃ n, inner = [n] ∧ n.kind = .number) ∨ ∃ t rest, inner = t :: rest ∧ t.isOp "..." = true

/-- What follows a name and does not look like type arguments of it. -/
inductive ShowsLength : List Token → Prop
  | other {t : Token} {ts : List Token} (ht : t.isOp "[" = false) : ShowsLength (t :: ts)
  | array {opener closer : Token} {inner ts : List Token} (hcloses : Closes opener closer) (hinner : Balanced inner)
      (hlength : PlainLength inner) : ShowsLength (opener :: (inner ++ closer :: ts))

section Name

variable {name : Token} {ts : List Token}

/-- A name before a token that is no point is declared, unless a bracket follows that holds no length. -/
theorem declaresName_cons {t : Token} (hname : name.isIdent = true) (hdot : t.isOp "." = false) :
    Signature.declaresName (name :: t :: ts) =
      (!t.isOp "[" || (closeGroup ts).any (Signature.isArrayLength ·.inner)) := by
  rw [Signature.declaresName, hname, hdot, Bool.not_false, Bool.and_self, Bool.true_and]

/-- Brackets hold an array's length when they hold nothing, a number or dots. -/
theorem isArrayLength_iff {inner : List Token} : Signature.isArrayLength inner = true ↔ PlainLength inner := by
  match inner with
  | [] => exact ⟨fun _ => .inl rfl, fun _ => rfl⟩
  | [t] =>
    rw [Signature.isArrayLength, Bool.or_eq_true, beq_iff_eq]
    constructor
    · exact fun h => .inr (h.imp (fun hn => ⟨t, rfl, hn⟩) fun ht => ⟨t, [], rfl, ht⟩)
    · rintro (h | ⟨_, ⟨⟩, hn⟩ | ⟨_, _, ⟨⟩, ht⟩)
      · cases h
      · exact .inl hn
      · exact .inr ht
  | t :: u :: rest =>
    rw [Signature.isArrayLength.eq_3 t (u :: rest) (List.cons_ne_nil u rest)]
    constructor
    · exact fun h => .inr (.inr ⟨t, u :: rest, rfl, h⟩)
    · rintro (h | ⟨_, h, -⟩ | ⟨_, _, ⟨⟩, ht⟩)
      · cases h
      · cases h
      · exact ht

/-- A name is told when its type shows its length. -/
theorem declaresName_iff (hname : name.isIdent = true) (hts : Balanced ts)
    (hdot : ∀ t ∈ ts.head?, t.isOp "." = false) :
    Signature.declaresName (name :: ts) = true ↔ ShowsLength ts := by
  constructor
  · intro h
    cases ts with
    | nil => cases h
    | cons t ts =>
      rw [declaresName_cons hname (hdot t rfl), Bool.or_eq_true, Bool.not_eq_true'] at h
      rcases h with ht | h
      · exact .other ht
      · cases hopen : t.isOp "[" with
        | false => exact .other hopen
        | true =>
          obtain ⟨g, hg, hlength⟩ := (Option.any_eq_true _ _).mp h
          obtain ⟨hcloses, hinner, -⟩ := hts.of_closeGroup (isOpener_of_isOp hopen (by decide)) hg
          rw [← splitGroup_eq_append hg]
          exact .array hcloses hinner (isArrayLength_iff.mp hlength)
  · intro h
    cases h with
    | other ht => rw [declaresName_cons hname (hdot _ rfl), ht, Bool.not_false, Bool.true_or]
    | array hcloses hinner hlength =>
      rw [declaresName_cons hname (hdot _ rfl), hinner.closeGroup_append hcloses.2.1, Option.any_some,
        isArrayLength_iff.mpr hlength, Bool.or_true]

end Name

/-! ## Parameters -/

/-- Parameters that share a type: the names before the last one, the last name, an ellipsis of the last parameter
and the type. -/
structure NamedGroup where
  shared : List Token
  name : Token
  dots : Option Token
  type : List Token
  shared_isIdent : ∀ n ∈ shared, n.isIdent = true
  name_isIdent : name.isIdent = true
  dots_isOp : ∀ t ∈ dots, t.isOp "..." = true
  type_isType : IsType type

namespace NamedGroup

/-- What stands behind the last name. -/
def typeTokens (g : NamedGroup) : List Token := g.dots.toList ++ g.type

/-- The entries that the parameters are written with. -/
def items (g : NamedGroup) : List (List Token) := g.shared.map ([·]) ++ [g.name :: g.typeTokens]

/-- One parameter for each name. -/
def params (g : NamedGroup) : List Param :=
  (g.shared ++ [g.name]).map fun n => ⟨some n.text, render g.type, g.dots.isSome, n.pos⟩

/-- The entries of a group before its type is shared. -/
def entries (g : NamedGroup) : List ParamEntry :=
  g.shared.map (fun n => ⟨none, [n], n⟩) ++ [⟨some g.name.text, g.typeTokens, g.name⟩]

/-- The entries of a group that share its type. -/
def resolved (g : NamedGroup) : List ParamEntry :=
  (g.shared ++ [g.name]).map fun n => ⟨some n.text, g.typeTokens, n⟩

variable (g : NamedGroup)

/-- A type is written with one token at least. -/
theorem typeTokens_ne_nil : g.typeTokens ≠ [] := List.append_ne_nil_of_right_ne_nil _ g.type_isType.ne_nil

/-- The dots of a variadic entry are no comma. -/
theorem free_dots : Free (·.isOp ",") g.dots.toList := by
  cases hdots : g.dots with
  | none => exact .nil
  | some d =>
    have hd := g.dots_isOp d hdots
    exact .plain (isPlain_of_isOp hd (by decide)) (not_isOp_of_isOp hd (by decide)) .nil

/-- A type has no comma outside brackets. -/
theorem free_typeTokens : Free (·.isOp ",") g.typeTokens := g.free_dots.append g.type_isType.free

/-- A type does not begin with a point. -/
theorem dot_typeTokens : ∀ t ∈ g.typeTokens.head?, t.isOp "." = false := by
  rw [typeTokens]
  cases hdots : g.dots with
  | none => exact g.type_isType.dot
  | some d =>
    intro t ht
    obtain rfl := Option.some.inj ht
    exact not_isOp_of_isOp (g.dots_isOp d hdots) (by decide)

/-- The last name of a group is told exactly when its type shows its length. -/
theorem declaresName_iff : Signature.declaresName (g.name :: g.typeTokens) = true ↔ ShowsLength g.typeTokens :=
  GoIdiom.declaresName_iff g.name_isIdent g.free_typeTokens.balanced g.dot_typeTokens

/-- The items of a group are not empty and have no comma outside brackets. -/
theorem free_items : ∀ item ∈ g.items, item ≠ [] ∧ Free (·.isOp ",") item := by
  intro item hitem
  rcases List.mem_append.mp hitem with hitem | hitem
  · obtain ⟨n, hn, rfl⟩ := List.mem_map.mp hitem
    exact ⟨List.cons_ne_nil _ _, free_cons_ident (g.shared_isIdent n hn) .nil⟩
  · obtain rfl := List.mem_singleton.mp hitem
    exact ⟨List.cons_ne_nil _ _, free_cons_ident g.name_isIdent g.free_typeTokens⟩

/-- The items of a group whose type shows its length are read as its names. -/
theorem filterMap_items (h : ShowsLength g.typeTokens) : g.items.filterMap Signature.entryOf = g.entries := by
  have hname : Signature.entryOf (g.name :: g.typeTokens) = some ⟨some g.name.text, g.typeTokens, g.name⟩ := by
    rw [Signature.entryOf, if_pos (g.declaresName_iff.mpr h)]
  have hshared : (g.shared.map ([·])).filterMap Signature.entryOf = g.shared.map fun n => ⟨none, [n], n⟩ := by
    rw [List.filterMap_map, ← List.filterMap_eq_map]
    rfl
  rw [items, List.filterMap_append, hshared, List.filterMap_cons, hname]
  rfl

end NamedGroup

section Params

variable {g : NamedGroup} {gs : List NamedGroup} {inner : List Token} {e : ParamEntry} {es : List ParamEntry}

open Signature

/-- Names without a type take the type of the name that follows them. -/
theorem shareTypes_append {shared type : List Token} (hshared : ∀ n ∈ shared, n.isIdent = true) (name : Token) :
    shareTypes (shared.map (fun n => ⟨none, [n], n⟩) ++ ⟨some name.text, type, name⟩ :: es) =
      (type, (shared ++ [name]).map (fun n => ⟨some n.text, type, n⟩) ++ (shareTypes es).2) := by
  induction shared with
  | nil => rfl
  | cons n shared ih =>
    obtain ⟨hn, hshared⟩ := List.forall_mem_cons.mp hshared
    rw [List.map_cons, List.cons_append, shareTypes, ih hshared]
    dsimp only
    rw [if_pos hn]
    rfl

/-- Sharing types group by group gives every name of a group the group's type. -/
theorem shareTypes_flatMap (gs : List NamedGroup) :
    (shareTypes (gs.flatMap NamedGroup.entries)).2 = gs.flatMap NamedGroup.resolved := by
  induction gs with
  | nil => rfl
  | cons g gs ih =>
    rw [List.flatMap_cons, NamedGroup.entries, List.append_assoc, List.singleton_append,
      shareTypes_append g.shared_isIdent, ih]
    rfl

/-- An entry that is more than one word stays as it is. -/
theorem mem_shareTypes (he : e ∈ es) (hlength : 2 ≤ e.typeTokens.length) : e ∈ (shareTypes es).2 := by
  induction es with
  | nil => cases he
  | cons e' es ih =>
    have htail : ∃ first, (shareTypes (e' :: es)).2 = first :: (shareTypes es).2 ∧
        (2 ≤ e'.typeTokens.length → first = e') := by
      rw [shareTypes]
      dsimp only
      split
      · next hname htype =>
        rw [htype]
        split
        · exact ⟨_, rfl, fun h => absurd h (Nat.not_le_of_lt (Nat.lt_succ_self 1))⟩
        · exact ⟨_, rfl, fun _ => rfl⟩
      · exact ⟨_, rfl, fun _ => rfl⟩
    obtain ⟨first, hshare, hfirst⟩ := htail
    rw [hshare]
    rcases List.mem_cons.mp he with rfl | he
    · exact hfirst hlength ▸ List.mem_cons_self
    · exact List.mem_cons_of_mem first (ih he)

/-- A parameter has the name of its entry. -/
theorem paramOf_name (e : ParamEntry) : (paramOf e).name = e.name := by
  rw [paramOf]
  split
  · split <;> rfl
  · rfl

/-- The parameter of a name with a type. -/
theorem paramOf_typeTokens (g : NamedGroup) (n : Token) :
    paramOf ⟨some n.text, g.typeTokens, n⟩ = ⟨some n.text, render g.type, g.dots.isSome, n.pos⟩ := by
  rw [NamedGroup.typeTokens]
  cases hdots : g.dots with
  | some d =>
    rw [Option.toList_some, List.singleton_append, paramOf]
    dsimp only
    rw [if_pos (g.dots_isOp d hdots)]
    rfl
  | none =>
    obtain ⟨t, rest, htype⟩ := List.exists_cons_of_ne_nil g.type_isType.ne_nil
    have ht : t.isOp "..." = false := g.type_isType.dots t (by rw [htype]; rfl)
    rw [Option.toList_none, List.nil_append, htype, paramOf]
    dsimp only
    rw [ht, if_neg Bool.false_ne_true]
    rfl

/-- The parameters of a list are those of its groups exactly when every type shows its length. -/
theorem params_eq_iff (h : Separated (gs.flatMap NamedGroup.items) inner) :
    Signature.params inner = gs.flatMap NamedGroup.params ↔ ∀ g ∈ gs, ShowsLength g.typeTokens := by
  have hsplit : Token.splitParts (·.isOp ",") inner = gs.flatMap NamedGroup.items := by
    refine h.splitParts fun item hitem => ?_
    obtain ⟨g, -, hitem⟩ := List.mem_flatMap.mp hitem
    exact g.free_items item hitem
  constructor
  · intro hparams g hg
    refine Classical.byContradiction fun hlength => ?_
    let e : ParamEntry := ⟨none, g.name :: g.typeTokens, g.name⟩
    have hentry : e ∈ (gs.flatMap NamedGroup.items).filterMap entryOf := by
      refine List.mem_filterMap.mpr ⟨g.name :: g.typeTokens, List.mem_flatMap.mpr ⟨g, hg, ?_⟩, ?_⟩
      · exact List.mem_append_right _ List.mem_cons_self
      · rw [entryOf, if_neg fun hname => hlength (g.declaresName_iff.mp hname)]
    have hlong : 2 ≤ e.typeTokens.length := by
      have := List.length_pos_iff.mpr g.typeTokens_ne_nil
      simp only [e, List.length_cons]
      omega
    have hmem : paramOf e ∈ Signature.params inner := by
      rw [Signature.params, hsplit]
      split
      · exact List.mem_map_of_mem (mem_shareTypes hentry hlong)
      · exact List.mem_map_of_mem hentry
    rw [hparams] at hmem
    obtain ⟨g', -, hmem⟩ := List.mem_flatMap.mp hmem
    obtain ⟨n, -, hn⟩ := List.mem_map.mp hmem
    have hname := congrArg Param.name hn
    rw [paramOf_name] at hname
    cases hname
  · intro hshows
    have hentries : (gs.flatMap NamedGroup.items).filterMap entryOf = gs.flatMap NamedGroup.entries := by
      rw [List.filterMap_flatMap]
      exact List.flatMap_congr fun g hg => g.filterMap_items (hshows g hg)
    have hresolved : (gs.flatMap NamedGroup.resolved).map paramOf = gs.flatMap NamedGroup.params := by
      rw [List.map_flatMap]
      refine List.flatMap_congr fun g _ => ?_
      rw [NamedGroup.resolved, List.map_map, NamedGroup.params]
      exact List.map_congr_left fun n _ => paramOf_typeTokens g n
    rw [Signature.params, hsplit, hentries, ← hresolved, ← shareTypes_flatMap gs]
    cases gs with
    | nil => rfl
    | cons g gs =>
      have hany : ((g :: gs).flatMap NamedGroup.entries).any (·.name.isSome) = true := by
        refine List.any_eq_true.mpr ⟨⟨some g.name.text, g.typeTokens, g.name⟩, ?_, rfl⟩
        exact List.mem_flatMap.mpr ⟨g, List.mem_cons_self, List.mem_append_right _ List.mem_cons_self⟩
      rw [if_pos hany]

end Params

/-! ## Fields -/

/-- A line of a struct: the first name, each other name with the comma before it, the type and a tag. -/
structure FieldLine where
  name : Token
  more : List (Token × Token)
  type : List Token
  tag : Option Token
  name_isIdent : name.isIdent = true
  more_isOp : ∀ m ∈ more, m.1.isOp "," = true
  more_isIdent : ∀ m ∈ more, m.2.isIdent = true
  type_isType : IsType type
  type_last : ∀ t ∈ type.getLast?, t.kind ≠ .string
  tag_kind : ∀ t ∈ tag, t.kind = .string

namespace FieldLine

variable (l : FieldLine)

/-- The names after the first one, with their commas. -/
def moreTokens : List Token := l.more.flatMap fun m => [m.1, m.2]

/-- The tokens of the line. -/
def tokens : List Token := l.name :: (l.moreTokens ++ l.type) ++ l.tag.toList

/-- The field with all names of the line. -/
def field : Field := ⟨l.name.text :: l.more.map (·.2.text), render l.type, l.name.pos⟩

open Declaration

/-- The names of a line are taken up to its type. -/
theorem moreNames_append {more : List (Token × Token)} {type : List Token}
    (hmore : ∀ m ∈ more, m.1.isOp "," = true) (hident : ∀ m ∈ more, m.2.isIdent = true)
    (htype : Free (·.isOp ",") type) :
    moreNames ((more.flatMap fun m => [m.1, m.2]) ++ type) = (more.map (·.2.text), type) := by
  induction more with
  | nil =>
    rw [List.flatMap_nil, List.nil_append]
    match type with
    | [] => rfl
    | [t] => rfl
    | t :: u :: rest =>
      have ht : t.isOp "," = false := htype.head
      rw [moreNames, ht, Bool.false_and, if_neg Bool.false_ne_true]
      rfl
  | cons m more ih =>
    obtain ⟨hcomma, hmore⟩ := List.forall_mem_cons.mp hmore
    obtain ⟨hname, hident⟩ := List.forall_mem_cons.mp hident
    rw [List.flatMap_cons, List.append_assoc, List.cons_append, List.cons_append, List.nil_append,
      moreNames, hcomma, hname, Bool.and_self, if_pos rfl, ih hmore hident]
    rfl

/-- A tag is not part of the field. -/
theorem fieldOf_tokens : fieldOf l.tokens =
    if Signature.declaresName (l.name :: (l.moreTokens ++ l.type)) then some l.field
    else some ⟨[], render (l.name :: (l.moreTokens ++ l.type)), l.name.pos⟩ := by
  have hstrip : (if l.tokens.length > 1 && l.tokens.getLast?.any (·.kind == .string) then l.tokens.dropLast
      else l.tokens) = l.name :: (l.moreTokens ++ l.type) := by
    rw [tokens]
    cases htag : l.tag with
    | none =>
      have hlast : (l.name :: (l.moreTokens ++ l.type)).getLast? = l.type.getLast? := by
        rw [← List.cons_append, List.getLast?_append_of_ne_nil _ l.type_isType.ne_nil]
      have hkind : l.type.getLast?.any (·.kind == .string) = false := by
        rw [Option.any_eq_false]
        exact fun t ht => beq_eq_false_iff_ne.mpr (l.type_last t ht)
      rw [Option.toList_none, List.append_nil, hlast, hkind, Bool.and_false, if_neg Bool.false_ne_true]
    | some t =>
      have hlong : (l.name :: (l.moreTokens ++ l.type) ++ [t]).length > 1 := by
        simp only [List.length_append, List.length_cons, List.length_nil]
        omega
      rw [Option.toList_some, List.getLast?_concat, Option.any_some, l.tag_kind t htag, decide_eq_true hlong,
        beq_self_eq_true, Bool.and_self, if_pos rfl, List.dropLast_concat]
  have hnames : moreNames (l.moreTokens ++ l.type) = (l.more.map (·.2.text), l.type) :=
    moreNames_append l.more_isOp l.more_isIdent l.type_isType.free
  rw [fieldOf, hstrip]
  dsimp only
  rw [hnames]
  rfl

/-- A field line is read with its names exactly when it has several or its type shows its length. -/
theorem fieldOf_eq_iff : fieldOf l.tokens = some l.field ↔ l.more ≠ [] ∨ ShowsLength l.type := by
  rw [fieldOf_tokens]
  have hdeclares : Signature.declaresName (l.name :: (l.moreTokens ++ l.type)) = true ↔
      l.more ≠ [] ∨ ShowsLength l.type := by
    rw [moreTokens]
    cases hmore : l.more with
    | nil =>
      rw [List.flatMap_nil, List.nil_append,
        declaresName_iff l.name_isIdent l.type_isType.free.balanced l.type_isType.dot]
      exact (or_iff_right fun h => h rfl).symm
    | cons m more =>
      have hcomma := l.more_isOp m (hmore ▸ List.mem_cons_self)
      rw [List.flatMap_cons, List.append_assoc, List.cons_append,
        declaresName_cons l.name_isIdent (not_isOp_of_isOp hcomma (by decide)),
        not_isOp_of_isOp hcomma (by decide : "," ≠ "[")]
      exact ⟨fun _ => .inl (List.cons_ne_nil _ _), fun _ => rfl⟩
  rw [← hdeclares]
  split
  · next h => exact iff_of_true rfl h
  · next h =>
    refine iff_of_false (fun hfield => ?_) h
    cases congrArg Field.names (Option.some.inj hfield)

end FieldLine

/-! ## Lists and lines -/

/-- The parameters of a list in its named form are the declared names in their order, each with the rendering of its
type, exactly when every type shows its length. A line of a struct is the field with its names and the rendering of
its type exactly when it has more than one name or its type shows its length. -/
theorem names_recovered (gs : List NamedGroup) (inner : List Token) (l : FieldLine)
    (h : Separated (gs.flatMap NamedGroup.items) inner) :
    (Signature.params inner = gs.flatMap NamedGroup.params ↔ ∀ g ∈ gs, ShowsLength g.typeTokens) ∧
      (Declaration.fieldOf l.tokens = some l.field ↔ l.more ≠ [] ∨ ShowsLength l.type) :=
  ⟨params_eq_iff h, l.fieldOf_eq_iff⟩

/-- The tokens of an array type `[length]byte`. -/
def byteArray (length : Token) : List Token :=
  [⟨.op, "[", ⟨1, 5⟩⟩, length, ⟨.op, "]", ⟨1, 7⟩⟩, ⟨.ident, "byte", ⟨1, 8⟩⟩]

/-- An array type is a type, whatever single token its length is. -/
theorem isType_byteArray {length : Token} (h : length.kind ≠ .op) : IsType (byteArray length) where
  ne_nil := List.cons_ne_nil _ _
  free := by
    have hlength : Balanced [length] := .single (isPlain_of_kind h)
    exact .group (by decide) rfl hlength (.plain rfl rfl .nil)
  dots _ ht := Option.some.inj ht ▸ rfl
  dot _ ht := Option.some.inj ht ▸ rfl

/-- The parameters `a,b [4]byte`. -/
def arrayParams : NamedGroup where
  shared := [⟨.ident, "a", ⟨1, 1⟩⟩]
  name := ⟨.ident, "b", ⟨1, 3⟩⟩
  dots := none
  type := byteArray ⟨.number, "4", ⟨1, 6⟩⟩
  shared_isIdent := List.forall_mem_singleton.mpr rfl
  name_isIdent := rfl
  dots_isOp _ ht := nomatch ht
  type_isType := isType_byteArray (by decide)

/-- The parameter `rest ...int`. -/
def restParam : NamedGroup where
  shared := []
  name := ⟨.ident, "rest", ⟨1, 14⟩⟩
  dots := some ⟨.op, "...", ⟨1, 19⟩⟩
  type := [⟨.ident, "int", ⟨1, 22⟩⟩]
  shared_isIdent _ hn := absurd hn List.not_mem_nil
  name_isIdent := rfl
  dots_isOp _ ht := Option.some.inj ht ▸ rfl
  type_isType := ⟨List.cons_ne_nil _ _, .plain rfl rfl .nil, fun _ ht => Option.some.inj ht ▸ rfl,
    fun _ ht => Option.some.inj ht ▸ rfl⟩

/-- The line `a,b [4]byte "tag"` of a struct. -/
def arrayFields : FieldLine where
  name := ⟨.ident, "a", ⟨1, 1⟩⟩
  more := [(⟨.op, ",", ⟨1, 2⟩⟩, ⟨.ident, "b", ⟨1, 3⟩⟩)]
  type := byteArray ⟨.number, "4", ⟨1, 6⟩⟩
  tag := some ⟨.string, "\"tag\"", ⟨1, 13⟩⟩
  name_isIdent := rfl
  more_isOp := List.forall_mem_singleton.mpr rfl
  more_isIdent := List.forall_mem_singleton.mpr rfl
  type_isType := isType_byteArray (by decide)
  type_last _ ht := Option.some.inj ht ▸ TokenKind.noConfusion
  tag_kind _ ht := Option.some.inj ht ▸ rfl

/-- Two names that share an array type before a variadic last parameter, and the same names and type as a field with
a tag. -/
theorem names_recovered_shared :
    Signature.params ([⟨.ident, "a", ⟨1, 1⟩⟩, ⟨.op, ",", ⟨1, 2⟩⟩, ⟨.ident, "b", ⟨1, 3⟩⟩] ++
          byteArray ⟨.number, "4", ⟨1, 6⟩⟩ ++
          [⟨.op, ",", ⟨1, 12⟩⟩, ⟨.ident, "rest", ⟨1, 14⟩⟩, ⟨.op, "...", ⟨1, 19⟩⟩,
            ⟨.ident, "int", ⟨1, 22⟩⟩]) =
        [⟨some "a", "[4]byte", false, ⟨1, 1⟩⟩, ⟨some "b", "[4]byte", false, ⟨1, 3⟩⟩,
          ⟨some "rest", "int", true, ⟨1, 14⟩⟩] ∧
      Declaration.fieldOf
          ([⟨.ident, "a", ⟨1, 1⟩⟩, ⟨.op, ",", ⟨1, 2⟩⟩, ⟨.ident, "b", ⟨1, 3⟩⟩] ++
            byteArray ⟨.number, "4", ⟨1, 6⟩⟩ ++ [⟨.string, "\"tag\"", ⟨1, 13⟩⟩]) =
        some ⟨["a", "b"], "[4]byte", ⟨1, 1⟩⟩ := by
  let four : Token := ⟨.number, "4", ⟨1, 6⟩⟩
  have hfour : Balanced [four] := .single (isPlain_of_kind (by decide))
  have harray : ShowsLength (byteArray four) := .array (by decide) hfour (.inr (.inl ⟨four, rfl, rfl⟩))
  have hfirst : Token.isOp ⟨.op, ",", ⟨1, 2⟩⟩ "," = true := rfl
  have hsecond : Token.isOp ⟨.op, ",", ⟨1, 12⟩⟩ "," = true := rfl
  obtain ⟨hparams, hfield⟩ := names_recovered [arrayParams, restParam] _ arrayFields
    (.cons _ hfirst (.cons _ hsecond (.last _)))
  constructor
  · refine hparams.mpr (List.forall_mem_cons.mpr ⟨harray, List.forall_mem_singleton.mpr ?_⟩)
    exact .other rfl
  · exact hfield.mpr (.inl (List.cons_ne_nil _ _))

/-- A length that is a constant name is read as a type argument, and the name as part of the type. -/
theorem names_lost_constant :
    Signature.params (⟨.ident, "buf", ⟨1, 1⟩⟩ :: byteArray ⟨.ident, "N", ⟨1, 6⟩⟩) =
        [⟨none, "buf[N]byte", false, ⟨1, 1⟩⟩] ∧
      Declaration.fieldOf (⟨.ident, "buf", ⟨1, 1⟩⟩ :: byteArray ⟨.ident, "N", ⟨1, 6⟩⟩) =
        some ⟨[], "buf[N]byte", ⟨1, 1⟩⟩ := by
  decide +kernel

end GoIdiom
