import GoIdiom.Proofs.Assignments.Order
import GoIdiom.Proofs.Assignments.Parts
import GoIdiom.Proofs.Enclosures.Returns
import GoIdiom.Proofs.NamedLists

/-!
# What a scope knows

A body gives values to names in its simple statements, in its declarations of variables, in the parts of its headers
and in the communications of its select statements. A name is known afterwards that gets a value in a simple
statement, in a declaration of variables by itself, in the first part of a header or in a header of one part. A
returned variable of this name is then told from an error that is declared elsewhere. Variables that are declared in
a group, the tag of a switch behind a first part, the last part of the header of a loop and what is received in a
select statement are passed over.
-/

namespace GoIdiom

open Token

/-! ## Giving values to names -/

/-- A token run assigns to a name, one of its targets, with one value for each target or one for all of them. -/
inductive Token.Assigns : List Token → String → Prop
  | mk {left right : List Token} {op target : Token} {targets values : List (List Token)}
      (hleft : Free isSign left) (hop : op.isSign = true) (hvar : ∀ t ∈ left.head?, t.isKeyword "var" = false)
      (htargets : Parted (·.isOp ",") targets left) (hvalues : Parted (·.isOp ",") values right)
      (hgiven : [] ∉ values) (hfit : values.length = targets.length ∨ values.length = 1)
      (htarget : [target] ∈ targets) (hident : target.isIdent = true) (hblank : target.text ≠ "_") :
      Assigns (left ++ op :: right) target.text

/-- A specification declares a name, one of some names before a type and a sign, with one value for each name or one
for all of them. -/
inductive Token.Declares : List Token → String → Prop
  | mk {list type right : List Token} {op name : Token} {names : List Token} {values : List (List Token)}
      (hlist : Parted (·.isOp ",") (names.map fun t => [t]) list) (hidents : ∀ t ∈ names, t.isIdent = true)
      (htype : Free isSign type) (hcomma : ∀ t ∈ type.head?, t.isOp "," = false) (hop : op.isOp "=" = true)
      (hvalues : Parted (·.isOp ",") values right) (hgiven : [] ∉ values)
      (hfit : values.length = names.length ∨ values.length = 1) (hname : name ∈ names)
      (hblank : name.text ≠ "_") :
      Declares (list ++ (type ++ op :: right)) name.text

namespace Assigned

variable {targets values : List (List Token)}

/-- Every target is paired with a value when there are as many values as targets, or a single one. -/
theorem exists_mem_pairs {target : List Token} (htarget : target ∈ targets)
    (hfit : values.length = targets.length ∨ values.length = 1) :
    ∃ value, (target, value) ∈ pairs targets values := by
  unfold pairs
  split
  · next hlength =>
    rw [← List.map_fst_zip hlength.ge] at htarget
    obtain ⟨pair, hpair, rfl⟩ := List.mem_map.mp htarget
    exact ⟨pair.2, hpair⟩
  · next hlength =>
    obtain ⟨value, rfl⟩ := List.length_eq_one_iff.mp (hfit.resolve_left hlength)
    exact ⟨value, List.mem_map_of_mem htarget⟩

/-- A target that is a name is assigned to when the values fit. -/
theorem exists_mem_ofTargets {t : Token} (htarget : [t] ∈ targets) (hident : t.isIdent = true)
    (hblank : t.text ≠ "_") (hfit : values.length = targets.length ∨ values.length = 1) :
    ∃ a ∈ ofTargets targets values, a.name = t.text := by
  obtain ⟨value, hpair⟩ := exists_mem_pairs htarget hfit
  have hboth : (t.isIdent && t.text != "_") = true := by rw [hident, bne_iff_ne.mpr hblank]; rfl
  have ha : ofPair ([t], value) = some ⟨t.text, t.pos, .ofExpression value⟩ := by rw [ofPair, if_pos hboth]
  exact ⟨_, ofTargets_eq targets values ▸ List.mem_filterMap.mpr ⟨_, hpair, ha⟩, rfl⟩

/-- Values between commas, none of them missing. -/
theorem commaItems_of_parted {right : List Token} (h : Parted (·.isOp ",") values right) (hgiven : [] ∉ values) :
    commaItems right = values := by
  rw [commaItems, splitCommas, h.splitTopFrom_eq, List.filter_eq_self]
  rintro (_ | ⟨t, more⟩) hvalue
  · exact absurd hvalue hgiven
  · rfl

/-- What does not begin with `var` is cut at its first sign. -/
theorem ofTokens_of_cutAssignment {run : List Token} {a : Assignment}
    (hvar : ∀ t ∈ run.head?, t.isKeyword "var" = false) (hcut : cutAssignment run = some a) :
    ofTokens run = ofTargets (splitCommas a.left) (commaItems a.right) := by
  cases run with
  | nil => cases hcut
  | cons first rest =>
    rw [ofTokens, hvar first rfl, if_neg Bool.false_ne_true, hcut]

/-- A `var` specification assigns its names. -/
theorem ofTokens_var {keyword : Token} (hkeyword : keyword.isKeyword "var" = true) {spec : List Token}
    {a : Assignment} (hcut : cutAssignment spec = some a) :
    ofTokens (keyword :: spec) = ofTargets ((declaredNames spec).map fun t => [t]) (commaItems a.right) := by
  rw [ofTokens, if_pos hkeyword]
  dsimp only
  rw [hcut]

/-- A name that a run assigns is recorded. -/
theorem exists_mem_of_assigns {run : List Token} {name : String} (h : Assigns run name) :
    ∃ a ∈ ofTokens run, a.name = name := by
  obtain @⟨left, right, op, target, targets, values, hleft, hop, hvar, htargets, hvalues, hgiven, hfit,
    htarget, hident, hblank⟩ := h
  have hhead : ∀ t ∈ (left ++ op :: right).head?, t.isKeyword "var" = false := by
    cases left with
    | nil =>
      intro t ht
      obtain rfl := Option.some.inj ht
      rw [isKeyword, beq_iff_eq.mp (Bool.and_eq_true_iff.mp hop).1]
      rfl
    | cons first rest => exact hvar
  rw [ofTokens_of_cutAssignment hhead (hleft.cutAssignment_append hop right), splitCommas, htargets.splitTopFrom_eq,
    commaItems_of_parted hvalues hgiven]
  exact exists_mem_ofTargets htarget hident hblank hfit

/-- The names of a declaration up to its type or sign. -/
theorem declaredNames_append {names list rest : List Token} (h : Parted (·.isOp ",") (names.map fun t => [t]) list)
    (hidents : ∀ t ∈ names, t.isIdent = true) (hcomma : ∀ t ∈ rest.head?, t.isOp "," = false) :
    declaredNames (list ++ rest) = names := by
  induction names generalizing list with
  | nil => cases h
  | cons name more ih =>
    obtain ⟨hname, hmore⟩ := List.forall_mem_cons.mp hidents
    generalize hparts : (name :: more).map (fun t => [t]) = parts at h
    cases h with
    | last _ =>
      obtain ⟨hone, hnone⟩ := List.cons.inj hparts
      obtain rfl := List.map_eq_nil_iff.mp hnone
      rw [← hone]
      cases rest with
      | nil => rw [List.append_nil, declaredNames, if_pos hname]
      | cons t after =>
        rw [List.singleton_append, declaredNames, if_pos hname, hcomma t rfl, if_neg Bool.false_ne_true]
    | @cons part after others comma _ hcommaSign hrest =>
      obtain ⟨hone, hothers⟩ := List.cons.inj hparts
      rw [← hone, List.singleton_append, List.cons_append, List.cons_append, declaredNames, if_pos hname,
        if_pos hcommaSign, ih (hothers ▸ hrest) hmore]

/-- No sign stands between the names of a declaration. -/
theorem free_names {names list : List Token} (h : Parted (·.isOp ",") (names.map fun t => [t]) list)
    (hidents : ∀ t ∈ names, t.isIdent = true) : Free isSign list := by
  generalize hparts : names.map (fun t => [t]) = parts at h
  have hnames : ∀ part ∈ parts, Free isSign part := by
    rw [← hparts]
    exact List.forall_mem_map.mpr fun t ht => free_ident (hidents t ht)
  clear hparts
  induction h with
  | last => exact hnames _ List.mem_cons_self
  | @cons part rest others comma _ hcomma _ ih =>
    obtain ⟨hpart, hothers⟩ := List.forall_mem_cons.mp hnames
    refine hpart.append (.plain (isPlain_of_isOp hcomma (by decide)) ?_ (ih hothers))
    obtain ⟨hkind, htext⟩ := Bool.and_eq_true_iff.mp hcomma
    rw [isSign, isOpIn, hkind, beq_iff_eq.mp htext]
    rfl

/-- A name that a specification declares is recorded. -/
theorem exists_mem_of_declares {spec : List Token} {name : String} (h : Declares spec name) {keyword : Token}
    (hkeyword : keyword.isKeyword "var" = true) : ∃ a ∈ ofTokens (keyword :: spec), a.name = name := by
  obtain @⟨list, type, right, op, name, names, values, hlist, hidents, htype, hcomma, hop, hvalues,
    hgiven, hfit, hname, hblank⟩ := h
  have hbehind : ∀ t ∈ (type ++ op :: right).head?, t.isOp "," = false := by
    cases type with
    | nil =>
      intro t ht
      obtain rfl := Option.some.inj ht
      rw [isOp, beq_iff_eq.mp (Bool.and_eq_true_iff.mp hop).2]
      exact Bool.and_false _
    | cons first rest => exact hcomma
  have hcut := ((free_names hlist hidents).append htype).cutAssignment_append (isSign_of_isOp hop (by decide)) right
  rw [List.append_assoc] at hcut
  rw [ofTokens_var hkeyword hcut, declaredNames_append hlist hidents hbehind, commaItems_of_parted hvalues hgiven]
  refine exists_mem_ofTargets (List.mem_map_of_mem hname) (hidents name hname) hblank ?_
  rwa [List.length_map]

end Assigned

/-! ## Places -/

/-- Where a statement gives values to names: as a whole, in a declaration of variables by itself or in a group, in
the first part of a header, in a header of one part, in the tag behind the first part, in the last part of the
header of a loop, and in the communication of a select statement. -/
inductive Role where
  | statement
  | single
  | grouped
  | init
  | sole
  | tag
  | post
  | receive
deriving DecidableEq, Repr

namespace Role

/-- Whether names that get values in a place are recorded. -/
def isRecorded : Role → Bool
  | statement | single | init | sole => true
  | grouped | tag | post | receive => false

/-- What it means for a token run in a place to give a value to a name. -/
def Binds : Role → List Token → String → Prop
  | single | grouped => Declares
  | _ => Assigns

end Role

namespace Statement

/-- The token runs of a statement in which it may give values to names itself. -/
inductive PartOf : Role → Statement → List Token → Prop
  | statement (place : Place) (run : List Token) (literals : List FuncLiteral) :
      PartOf .statement (.plain place .simple run literals) run
  | single {keyword : Token} (hkeyword : keyword.isKeyword "var" = true) (place : Place) (spec : List Token)
      (literals : List FuncLiteral) : PartOf .single (.plain place .declaration (keyword :: spec) literals) spec
  | grouped {keyword opener closer : Token} {inner spec : List Token} {specs : List (List Token)}
      (hkeyword : keyword.isKeyword "var" = true) (hopener : opener.isOp "(" = true)
      (hcloses : Closes opener closer) (hinner : Parted (·.isSemi) specs inner) (hspec : spec ∈ specs)
      (place : Place) (literals : List FuncLiteral) :
      PartOf .grouped (.plain place .declaration (keyword :: opener :: (inner ++ [closer])) literals) spec
  | branchInit {header init condition : List Token} (h : Parted (·.isSemi) [init, condition] header)
      (place : Place) (literals : List FuncLiteral) (body : List Statement) (otherwise : Option (List Statement)) :
      PartOf .init (.branch place header literals body otherwise) init
  | switchInit {header init tag : List Token} (h : Parted (·.isSemi) [init, tag] header) (place : Place)
      (literals : List FuncLiteral) (clauses : List Clause) :
      PartOf .init (.switch place header literals clauses) init
  | loopInit {header init condition post : List Token} (h : Parted (·.isSemi) [init, condition, post] header)
      (place : Place) (literals : List FuncLiteral) (body : List Statement) :
      PartOf .init (.loop place header literals body) init
  | switchSole {header : List Token} (h : Free (·.isSemi) header) (place : Place) (literals : List FuncLiteral)
      (clauses : List Clause) : PartOf .sole (.switch place header literals clauses) header
  | loopSole {header : List Token} (h : Free (·.isSemi) header) (place : Place) (literals : List FuncLiteral)
      (body : List Statement) : PartOf .sole (.loop place header literals body) header
  | tag {header init tag : List Token} (h : Parted (·.isSemi) [init, tag] header) (place : Place)
      (literals : List FuncLiteral) (clauses : List Clause) :
      PartOf .tag (.switch place header literals clauses) tag
  | post {header init condition post : List Token} (h : Parted (·.isSemi) [init, condition, post] header)
      (place : Place) (literals : List FuncLiteral) (body : List Statement) :
      PartOf .post (.loop place header literals body) post
  | receive {clauses : List Clause} {clause : Clause} (hclause : clause ∈ clauses) (place : Place)
      (header : List Token) (literals : List FuncLiteral) :
      PartOf .receive (.select place header literals clauses) clause.header

variable {role : Role} {s : Statement} {run : List Token} {name : String} {body : List Statement}
  {path : List Enclosure}

/-- A name that gets a value in a recorded place is among the assignments of the statement. -/
theorem exists_mem_of_part (hpart : PartOf role s run) (hrole : role.isRecorded = true)
    (hbinds : role.Binds run name) : ∃ a ∈ Assigned.ofStatement s, a.name = name := by
  have hsplit {parts : List (List Token)} {header : List Token} (h : Parted (·.isSemi) parts header) :
      splitSemis header = parts := h.splitTopFrom_eq
  cases hpart with
  | statement => exact Assigned.exists_mem_of_assigns hbinds
  | single hkeyword => exact Assigned.exists_mem_of_declares hbinds hkeyword
  | branchInit h | switchInit h | loopInit h =>
    rw [Assigned.ofStatement, hsplit h]
    exact Assigned.exists_mem_of_assigns hbinds
  | switchSole h | loopSole h =>
    rw [Assigned.ofStatement, hsplit (.last h)]
    exact Assigned.exists_mem_of_assigns hbinds
  | grouped | tag | post | receive => cases hrole

/-- A frame knows the names that its body gives values to in recorded places, outside function literals. -/
theorem knows_of_binds (hs : Within body path s) (hopen : ∀ e ∈ path, e.isLiteral = false)
    (hpart : PartOf role s run) (hrole : role.isRecorded = true) (hbinds : role.Binds run name)
    (params results : List Param) : (Frame.ofBody params results body).knows name = true := by
  obtain ⟨a, ha, hname⟩ := exists_mem_of_part hpart hrole hbinds
  have hassigned : a ∈ (Frame.ofBody params results body).assignments :=
    List.mem_flatMap.mpr ⟨s, mem_flattenList_of_within hs hopen, ha⟩
  have hany : (Frame.ofBody params results body).assignments.any (·.name == name) = true :=
    List.any_eq_true.mpr ⟨a, hassigned, beq_iff_eq.mpr hname⟩
  rw [Frame.knows, hany, Bool.true_or, Bool.true_or]

end Statement

/-- A name is rendered as it is. -/
theorem Token.render_ident {t : Token} (hident : t.isIdent = true) : render [t] = t.text := by
  have hsemi : t.isSemi = false := by rw [isSemi, beq_iff_eq.mp hident]; rfl
  rw [render, renderPieces, hsemi, if_neg Bool.false_ne_true, Option.any_none, if_neg Bool.false_ne_true,
    renderPieces]
  simp [String.join]

/-- A name that is returned by itself is told to be a variable when it is in scope. -/
theorem Handling.ofExpression_ident {t : Token} (hident : t.isIdent = true) (hnil : t.text ≠ "nil")
    (known : String → Bool) :
    ofExpression known [t] = if t.text == "err" || known t.text then .bare else .sentinel := by
  have hother : (Token.render [t] == "nil") = false := by
    rw [render_ident hident]
    exact beq_eq_false_iff_ne.mpr hnil
  rw [ofExpression, hother, if_neg Bool.false_ne_true, hident, List.isEmpty_nil, Bool.and_self, if_pos rfl]

namespace SourceFile

open Statement

variable {source path : String} {file : SourceFile} {lexed : Lexed} {ctx : Context} {body : List Statement}
  {role : Role} {s : Statement} {run : List Token} {name : String} {way : List Enclosure}

/-- In every function of an accepted file, a name that the body gives a value to in a recorded place is known, and
an error variable of that name that is returned there, or in a function literal inside, is told to be a variable. -/
theorem bare_of_binds (hlexed : tokenize source = .ok lexed) (h : read source path = .ok file)
    (hbody : FunctionBody lexed.tokens ctx body) (hs : Within body way s)
    (hopen : ∀ e ∈ way, e.isLiteral = false) (hpart : PartOf role s run) (hrole : role.isRecorded = true)
    (hbinds : role.Binds run name) :
    ctx.scope.knows name = true ∧ ∀ more t, ReturnsError ctx body more [t] → t.isIdent = true →
      t.text = name → name ≠ "nil" → file.HandledAs t.pos .bare := by
  obtain ⟨params, results, outer, hframes⟩ := hbody.frames
  have hframe := knows_of_binds hs hopen hpart hrole hbinds params results
  have hknown (more : List Enclosure) : (ctx.along more).scope.knows name = true := by
    refine List.any_eq_true.mpr ⟨Frame.ofBody params results body, ?_, hframe⟩
    rw [Context.scope_along, Scope.along, hframes]
    exact List.mem_append_right _ List.mem_cons_self
  refine ⟨hknown [], fun more t hreturn hident hname hnil => ?_⟩
  have hhandled := handledAs_of_returnsError hlexed h hbody hreturn
  rwa [Handling.ofExpression_ident hident (hname ▸ hnil), hname, hknown more, Bool.or_true,
    if_pos rfl] at hhandled

end SourceFile

/-! ## Cutting statements into parts -/

/-- The parts of a statement, as they are cut out of its tokens. -/
def Statement.parts : Statement → List (Role × List Token)
  | .plain _ .simple run _ => [(.statement, run)]
  | .plain _ .declaration (keyword :: spec) _ =>
    if keyword.isKeyword "var" then
      match Declaration.groupAt? "(" spec with
      | some ⟨inner, _, []⟩ => (splitSemis inner).map fun spec => (.grouped, spec)
      | _ => [(.single, spec)]
    else []
  | .branch _ header .. =>
    match splitSemis header with
    | [init, _] => [(.init, init)]
    | _ => []
  | .switch _ header .. =>
    match splitSemis header with
    | [sole] => [(.sole, sole)]
    | [init, tag] => [(.init, init), (.tag, tag)]
    | _ => []
  | .loop _ header .. =>
    match splitSemis header with
    | [sole] => [(.sole, sole)]
    | [init, _, post] => [(.init, init), (.post, post)]
    | _ => []
  | .select _ _ _ clauses => clauses.map fun clause => (.receive, clause.header)
  | _ => []

/-- A group that a well bracketed run consists of. -/
theorem Token.exists_of_groupAt? {keyword closer : Token} {spec inner : List Token}
    (hkeyword : keyword.isPlain = true) (hbalanced : Balanced (keyword :: spec))
    (h : Declaration.groupAt? "(" spec = some ⟨inner, closer, []⟩) :
    ∃ opener, opener.isOp "(" = true ∧ Closes opener closer ∧ Balanced inner ∧
      spec = opener :: (inner ++ [closer]) := by
  cases spec with
  | nil => cases h
  | cons opener rest =>
    obtain ⟨hopener, hgroup⟩ := Option.ite_none_right_eq_some.mp h
    have hopen := isOpener_of_isOp hopener List.mem_cons_self
    obtain ⟨g, hg, hcloses, hinner, -⟩ := (hbalanced.tail (isPlain_iff.mp hkeyword).1).2.exists_closeGroup hopen
    cases hg.symm.trans hgroup
    exact ⟨opener, hopener, hcloses, hinner, by rw [← splitGroup_eq_append hgroup]⟩

/-- What is cut out of well bracketed tokens are parts. -/
theorem Statement.part_of_mem_parts {s : Statement} {role : Role} {run : List Token} (hbalanced : Balanced s.tokens)
    (h : (role, run) ∈ s.parts) : PartOf role s run := by
  have hparted {header : List Token} {parts : List (List Token)} (hheader : Balanced header)
      (hparts : splitSemis header = parts) : Parted (·.isSemi) parts header :=
    hparts ▸ hheader.parted fun _ => isPlain_of_isSemi
  unfold parts at h
  split at h
  · cases List.mem_singleton.mp h
    exact .statement _ _ _
  · next place keyword spec literals =>
    split at h
    · next hkeyword =>
      split at h
      · next inner closer hgroup =>
        obtain ⟨one, hone, hpair⟩ := List.mem_map.mp h
        cases hpair
        obtain ⟨opener, hopener, hcloses, hinner, rfl⟩ :=
          exists_of_groupAt? (isPlain_of_isKeyword hkeyword) hbalanced hgroup
        exact .grouped hkeyword hopener hcloses (hparted hinner rfl) hone _ _
      · cases List.mem_singleton.mp h
        exact .single hkeyword _ _ _
    · cases h
  · split at h
    · next hparts =>
      cases List.mem_singleton.mp h
      exact .branchInit (hparted hbalanced hparts) _ _ _ _
    · cases h
  · split at h
    · next hparts =>
      cases List.mem_singleton.mp h
      obtain ⟨rfl, hfree⟩ := (hparted hbalanced hparts).sole
      exact .switchSole hfree _ _ _
    · next hparts =>
      rcases List.mem_cons.mp h with h | h
      · cases h
        exact .switchInit (hparted hbalanced hparts) _ _ _
      · cases List.mem_singleton.mp h
        exact .tag (hparted hbalanced hparts) _ _ _
    · cases h
  · split at h
    · next hparts =>
      cases List.mem_singleton.mp h
      obtain ⟨rfl, hfree⟩ := (hparted hbalanced hparts).sole
      exact .loopSole hfree _ _ _
    · next hparts =>
      rcases List.mem_cons.mp h with h | h
      · cases h
        exact .loopInit (hparted hbalanced hparts) _ _ _
      · cases List.mem_singleton.mp h
        exact .post (hparted hbalanced hparts) _ _ _
    · cases h
  · obtain ⟨clause, hclause, hpair⟩ := List.mem_map.mp h
    cases hpair
    exact .receive hclause _ _ _
  · cases h

/-- Whether a run gives one value to a name alone. -/
def Role.givesOne (role : Role) (name : String) : List Token → Bool
  | t :: op :: right =>
    t.isIdent && t.text == name && name != "_" &&
      (op.isOp "=" || op.isOp ":=" && role != .single && role != .grouped) && !right.isEmpty &&
        (matchBrackets right).toOption.isSome && right.all (!·.isOp ",")
  | _ => false

/-- A run checked to give a name in one of its forms binds it. -/
theorem Role.binds_of_givesOne {role : Role} {name : String} {run : List Token}
    (h : role.givesOne name run = true) : role.Binds run name := by
  unfold givesOne at h
  split at h
  · next t op right =>
    simp only [Bool.and_eq_true, Bool.or_eq_true, bne_iff_ne, beq_iff_eq, Bool.not_eq_true', List.all_eq_true] at h
    obtain ⟨⟨⟨⟨⟨⟨hident, rfl⟩, hblank⟩, hop⟩, hright⟩, hclosed⟩, hcommas⟩ := h
    have hbalanced : Balanced right := exists_matchBrackets_iff.mp (Except.isSome_toOption_iff.mp hclosed)
    have hvalue : Parted (·.isOp ",") [right] right := .last (hbalanced.free_of_forall hcommas)
    have hgiven : [] ∉ [right] := fun hmem => by
      rw [← List.mem_singleton.mp hmem] at hright
      cases hright
    have hlist : Parted (·.isOp ",") [[t]] [t] := .last (free_cons_ident hident .nil)
    have hassigns (hop : op.isSign = true) : Assigns ([t] ++ op :: right) t.text := by
      refine .mk (free_ident hident) hop (fun u hu => ?_) hlist hvalue hgiven (.inl rfl) List.mem_cons_self hident
        hblank
      obtain rfl := Option.some.inj hu
      rw [isKeyword, beq_iff_eq.mp hident]
      rfl
    have hdeclares (hop : op.isOp "=" = true) : Declares ([t] ++ ([] ++ op :: right)) t.text := by
      have hnames : Parted (·.isOp ",") ([t].map fun t => [t]) [t] := hlist
      exact .mk hnames (List.forall_mem_singleton.mpr hident) .nil nofun hop hvalue hgiven (.inl rfl)
        List.mem_cons_self hblank
    have hsign : op.isSign = true := by
      rcases hop with hop | ⟨⟨hop, -⟩, -⟩
      · exact isSign_of_isOp hop (by decide)
      · exact isSign_of_isOp hop (by decide)
    cases role with
    | single => exact hdeclares (hop.resolve_right fun h => h.1.2 rfl)
    | grouped => exact hdeclares (hop.resolve_right fun h => h.2 rfl)
    | _ => exact hassigns hsign
  · cases h

/-- Whether a statement gives one value to a name alone in a place. -/
def Statement.givesIn (role : Role) (name : String) (s : Statement) : Bool :=
  (matchBrackets s.tokens).toOption.isSome && s.parts.any fun (r, run) => r == role && r.givesOne name run

/-- A statement checked to give a name has a part that binds it. -/
theorem Statement.exists_part_of_givesIn {role : Role} {name : String} {s : Statement}
    (h : s.givesIn role name = true) : ∃ run, PartOf role s run ∧ role.Binds run name := by
  obtain ⟨hclosed, hparts⟩ := Bool.and_eq_true_iff.mp h
  have hbalanced : Balanced s.tokens := exists_matchBrackets_iff.mp (Except.isSome_toOption_iff.mp hclosed)
  obtain ⟨⟨r, run⟩, hmem, hboth⟩ := List.any_eq_true.mp hparts
  obtain ⟨hrole, hgives⟩ := Bool.and_eq_true_iff.mp hboth
  obtain rfl := beq_iff_eq.mp hrole
  exact ⟨run, part_of_mem_parts hbalanced hmem, r.binds_of_givesOne hgives⟩

/-- The name that a statement returns by itself from a function whose only result is an error. -/
def Statement.soleName? (scope : Scope) (s : Statement) : Option Token :=
  match s.soleError? scope with
  | some [t] => if t.isIdent then some t else none
  | _ => none

/-- A return of a single name checked to be an error returns it as an error. -/
theorem Statement.returnsError_of_soleName? {ctx : Context} {body : List Statement} {way : List Enclosure}
    {s : Statement} {t : Token} (hs : Within body way s) (h : s.soleName? (ctx.along way).scope = some t) :
    t.isIdent = true ∧ ReturnsError ctx body way [t] := by
  unfold soleName? at h
  split at h
  · next u hvalue =>
    obtain ⟨hident, hsame⟩ := Option.ite_none_right_eq_some.mp h
    obtain rfl := Option.some.inj hsame
    exact ⟨hident, returnsError_of_soleError? hs hvalue⟩
  · cases h

namespace SourceFile

open Statement

/-- A variable that is declared in the header of a branch. -/
def checkedFailure : String :=
  "package p\n\nfunc f() error \x7b\n\tif failure := g(); failure != nil \x7b\n\t\treturn failure\n\t\x7d\n" ++
    "\treturn nil\n\x7d\n"

/-- A failure named in the statement before a condition is handed on bare. -/
theorem bare_checkedFailure : ∃ lexed file ctx body s run, tokenize checkedFailure = .ok lexed ∧
    read checkedFailure "p.go" = .ok file ∧ FunctionBody lexed.tokens ctx body ∧ s ∈ body ∧
      PartOf .init s run ∧ Role.init.Binds run "failure" ∧ ctx.scope.knows "failure" = true ∧
        ∃ e t, ReturnsError ctx body [e] [t] ∧ file.HandledAs t.pos .bare := by
  have hbegins : beginsWith checkedFailure "p.go" (fun ctx body => body.any fun s =>
      s.givesIn .init "failure" && s.enclosed.any fun (e, inner) =>
        inner.any fun r => (r.soleName? (ctx.along [e]).scope).any (·.text == "failure")) = true := by
    decide +kernel
  obtain ⟨lexed, file, ctx, body, hlexed, hread, hholds, htest⟩ := exists_of_beginsWith hbegins
  have hbody : FunctionBody lexed.tokens ctx body := .outer hholds
  obtain ⟨s, hs, hboth⟩ := List.any_eq_true.mp htest
  obtain ⟨hgives, hreturns⟩ := Bool.and_eq_true_iff.mp hboth
  obtain ⟨run, hpart, hbinds⟩ := exists_part_of_givesIn hgives
  obtain ⟨⟨e, inner⟩, he, hreturns⟩ := List.any_eq_true.mp hreturns
  obtain ⟨r, hr, hreturns⟩ := List.any_eq_true.mp hreturns
  obtain ⟨t, ht, htext⟩ := (Option.any_eq_true _ _).mp hreturns
  obtain ⟨hident, hreturn⟩ :=
    returnsError_of_soleName? (within_cons.mpr ⟨s, hs, inner, he, within_nil.mpr hr⟩) ht
  obtain ⟨hknows, hbare⟩ := bare_of_binds hlexed hread hbody (within_nil.mpr hs) nofun hpart rfl hbinds
  exact ⟨lexed, file, ctx, body, s, run, hlexed, hread, hbody, hs, hpart, hbinds, hknows, e, t, hreturn,
    hbare [e] t hreturn hident (beq_iff_eq.mp htext) (by decide)⟩

/-- Variables that get their values in the places that are not recorded. -/
def passedOver : String :=
  "package p\n\nfunc f() error \x7b\n\tvar (\n\t\ta = g()\n\t)\n\tfor ; ; b = g() \x7b\n\t\x7d\n" ++
    "\tswitch x := g(); c := x.(type) \x7b\n\t\x7d\n\tselect \x7b\n\tcase d := <-x:\n\t\x7d\n\treturn a\n\x7d\n"

/-- The names in `passedOver`. -/
def passedOverNames : List (Role × String) := [(.grouped, "a"), (.post, "b"), (.tag, "c"), (.receive, "d")]

/-- None of the names is known, and a variable among them that is returned is told to be declared elsewhere. -/
theorem unknown_passedOver : ∃ lexed file ctx body, tokenize passedOver = .ok lexed ∧
    read passedOver "p.go" = .ok file ∧ FunctionBody lexed.tokens ctx body ∧
      (∀ pair ∈ passedOverNames, ctx.scope.knows pair.2 = false ∧
        ∃ s ∈ body, ∃ run, PartOf pair.1 s run ∧ pair.1.Binds run pair.2) ∧
      ∃ t, ReturnsError ctx body [] [t] ∧ t.text = "a" ∧ file.HandledAs t.pos .sentinel := by
  have hbegins : beginsWith passedOver "p.go" (fun ctx body =>
      passedOverNames.all (fun pair => !ctx.scope.knows pair.2 && body.any (·.givesIn pair.1 pair.2)) &&
        body.any fun r => (r.soleName? (ctx.along []).scope).any (·.text == "a")) = true := by
    decide +kernel
  obtain ⟨lexed, file, ctx, body, hlexed, hread, hholds, htest⟩ := exists_of_beginsWith hbegins
  have hbody : FunctionBody lexed.tokens ctx body := .outer hholds
  obtain ⟨hnames, hreturns⟩ := Bool.and_eq_true_iff.mp htest
  have hall (pair : Role × String) (hpair : pair ∈ passedOverNames) : ctx.scope.knows pair.2 = false ∧
      ∃ s ∈ body, ∃ run, PartOf pair.1 s run ∧ pair.1.Binds run pair.2 := by
    obtain ⟨hknows, hgives⟩ := Bool.and_eq_true_iff.mp (List.all_eq_true.mp hnames pair hpair)
    obtain ⟨s, hs, hgives⟩ := List.any_eq_true.mp hgives
    exact ⟨(Bool.not_eq_true' _).mp hknows, s, hs, exists_part_of_givesIn hgives⟩
  obtain ⟨r, hr, hreturns⟩ := List.any_eq_true.mp hreturns
  obtain ⟨t, ht, htext⟩ := (Option.any_eq_true _ _).mp hreturns
  obtain ⟨hident, hreturn⟩ := returnsError_of_soleName? (within_nil.mpr hr) ht
  have htext : t.text = "a" := beq_iff_eq.mp htext
  have hhandled := handledAs_of_returnsError hlexed hread hbody hreturn
  have hunknown : (ctx.along []).scope.knows "a" = false := (hall (.grouped, "a") (by decide)).1
  rw [Handling.ofExpression_ident hident (htext ▸ by decide), htext, hunknown] at hhandled
  exact ⟨lexed, file, ctx, body, hlexed, hread, hbody, hall, t, hreturn, htext, hhandled⟩

end SourceFile

end GoIdiom
