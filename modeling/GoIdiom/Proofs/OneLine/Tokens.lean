import GoIdiom.Proofs.Lexing.Comment
import GoIdiom.Proofs.Lexing.Strings
import GoIdiom.Proofs.OneLine.Texts
import GoIdiom.Proofs.ReadingFaults
import GoIdiom.Proofs.Sites.Tokens

/-!
# Names in one line

An identifier is a word, and a name that tells of an error is made of plain letters and digits. So the names that a
token run declares, and those it calls by, are in one line, whatever the strings beside them hold.
-/

namespace GoIdiom

open Text

/-! ## Tokens -/

namespace Name

/-- A name of an error has characters of a name only. -/
theorem isPlain_of_isErrorChars {cs : List Char} (h : isErrorChars cs = true) : ∀ c ∈ cs, isPlain c = true := by
  rcases Bool.or_eq_true_iff.mp h with h | h
  · rw [beq_iff_eq.mp h]
    exact List.all_eq_true.mp rfl
  · exact List.all_eq_true.mp (Bool.and_eq_true_iff.mp h).1

/-- A name of an error that no line feed ends is in one line. -/
theorem oneLine_of_isError {name : String} (h : isError name = true) (hlast : name.toList.getLast? ≠ some '\n') :
    OneLine name := by
  have hchars : isErrorChars name.toList = true := by
    rw [isError] at h
    split at h
    · next rest hrest =>
      refine absurd ?_ hlast
      rw [← List.head?_reverse, hrest, List.head?_cons]
    · exact h
  exact oneLine_of_all (by decide) (isPlain_of_isErrorChars hchars)

end Name

/-- An identifier is a word. -/
theorem Lexeme.isWord_of_classify {c : Char} {rest : List Char} {n : Nat}
    (h : classify c rest = .ok (.token .ident, n)) : ∀ d ∈ c :: rest.take n, isWord d = true := by
  have hkind {kind : TokenKind} {m : Nat} (hne : kind ≠ .ident)
      (h : (.ok (.token kind, m) : Except SourceCause (LexemeKind × Nat)) = .ok (.token .ident, n)) : False :=
    hne (LexemeKind.token.inj (Prod.mk.inj (Except.ok.inj h)).1)
  unfold classify at h
  split at h
  · cases h
  split at h
  · cases h
  split at h
  · cases h
  split at h
  · split at h <;> cases h
  split at h
  · split at h <;> cases h
  split at h
  · split at h <;> cases h
  split at h
  · split at h <;> cases h
  split at h
  · cases h
  split at h
  · next hstart =>
    obtain rfl := (Prod.mk.inj (Except.ok.inj h)).2
    exact List.forall_mem_cons.mpr ⟨(Bool.and_eq_true_iff.mp hstart).1, forall_mem_runLength isWord rest⟩
  split at h
  · exact (hkind (by split <;> decide) h).elim
  · cases h

/-- Whether a token that is a name, or is taken for one, is in one line. -/
def Token.NamesInLine (t : Token) : Prop := t.isIdent = true ∨ Name.isError t.text = true → OneLine t.text

/-- The names among the tokens of a source are in one line. -/
theorem namesInLine_of_tokenize {source : String} {lexed : Lexed} (h : tokenize source = .ok lexed) :
    ∀ t ∈ lexed.tokens, t.NamesInLine := by
  intro t ht hname
  cases hwritten : t.isInserted with
  | true =>
    obtain ⟨hkind, htext⟩ := Bool.and_eq_true_iff.mp hwritten
    rcases hname with hident | herror
    · cases (beq_iff_eq.mp hkind).symm.trans (beq_iff_eq.mp hident)
    · rw [beq_iff_eq.mp htext] at herror
      exact absurd herror (by decide)
  | false =>
    obtain ⟨pieces, hscan, rfl⟩ := place_of_tokenize h
    obtain ⟨l, hl, hkind, htext⟩ := Lexed.exists_of_mem_place ht hwritten
    obtain ⟨c, rest, n, hclass, hchars⟩ := Lexeme.exists_classify_of_mem hscan hl
    have hall : t.text.toList = c :: rest.take n := by rw [htext, Lexeme.text, String.toList_ofList, hchars]
    rw [hkind] at hclass
    rcases hname with hident | herror
    · rw [beq_iff_eq.mp hident] at hclass
      exact oneLine_of_isWord (hall ▸ Lexeme.isWord_of_classify hclass)
    · exact Name.oneLine_of_isError herror (hall ▸ Lexeme.getLast?_of_classify hclass)

namespace Token

variable {ts : List Token}

/-- An identifier that is in one line. -/
theorem NamesInLine.ident {t : Token} (h : t.NamesInLine) (hident : t.isIdent = true) : OneLine t.text :=
  h (.inl hident)

/-- Tokens are written in one line when their texts are; semicolons are written as marks. -/
theorem oneLine_render (h : ∀ t ∈ ts, t.isSemi = true ∨ OneLine t.text) : OneLine (render ts) := by
  have hpieces (previous : Option Token) : ∀ s ∈ renderPieces previous ts, OneLine s := by
    induction ts generalizing previous with
    | nil => exact List.forall_mem_nil _
    | cons t rest ih =>
      obtain ⟨ht, hrest⟩ := List.forall_mem_cons.mp h
      have hmore := ih hrest (some t)
      rw [renderPieces]
      split
      · exact List.forall_mem_cons.mpr ⟨by decide, hmore⟩
      · next hsemi =>
        have htext := List.forall_mem_cons.mpr ⟨ht.resolve_left hsemi, hmore⟩
        split
        · exact List.forall_mem_cons.mpr ⟨by decide, htext⟩
        · exact htext
  exact oneLine_join (hpieces none)

/-- The tokens of the items between commas are those of the run. -/
theorem mem_of_mem_commaItems {item : List Token} (hitem : item ∈ commaItems ts) {t : Token} (ht : t ∈ item) :
    t ∈ ts :=
  mem_of_mem_splitTopFrom (List.mem_filter.mp hitem).1 ht

end Token

/-! ## Calls -/

namespace Call

open Token

/-- A chain of selectors consists of names and points. -/
theorem of_mem_chainBack {before : List Token} (h : before.head?.any (·.isIdent) = true) :
    ∀ t ∈ (chainBack before).1, t ∈ before ∧ t.isIdent = true ∨ t.isOp "." = true := by
  fun_induction chainBack before with
  | case1 name dot selected rest hcond chain outside hchain ih =>
    obtain ⟨hdot, hselected⟩ := Bool.and_eq_true_iff.mp hcond
    rw [hchain] at ih
    refine List.forall_mem_append.mpr ⟨fun t ht => ?_, List.forall_mem_cons.mpr ⟨.inr hdot, ?_⟩⟩
    · refine (ih hselected t ht).imp_left (And.imp_left fun hmem => ?_)
      exact List.mem_cons_of_mem _ (List.mem_cons_of_mem _ hmem)
    · exact List.forall_mem_singleton.mpr (.inl ⟨List.mem_cons_self, h⟩)
  | case2 name dot selected rest => exact List.forall_mem_singleton.mpr (.inl ⟨List.mem_cons_self, h⟩)
  | case3 name rest => exact List.forall_mem_singleton.mpr (.inl ⟨List.mem_cons_self, h⟩)
  | case4 => cases h

/-- Every call listed from some tokens has a callee of one line. -/
theorem oneLine_of_mem_listFrom {before ts : List Token} (hbefore : ∀ t ∈ before, t.NamesInLine)
    (hts : ∀ t ∈ ts, t.NamesInLine) {c : Call} (hc : c ∈ listFrom before ts) : OneLine c.name := by
  induction ts generalizing before with
  | nil => cases hc
  | cons t rest ih =>
    obtain ⟨ht, hrest⟩ := List.forall_mem_cons.mp hts
    rw [listFrom] at hc
    rcases List.mem_append.mp hc with hc | hc
    · split at hc
      · next hcond =>
        split at hc
        · obtain rfl := List.mem_singleton.mp hc
          refine Token.oneLine_render fun u hu => .inr ?_
          rcases of_mem_chainBack (Bool.and_eq_true_iff.mp hcond).2 u hu with ⟨hmem, hident⟩ | hpoint
          · exact (hbefore u hmem).ident hident
          · rw [beq_iff_eq.mp (Bool.and_eq_true_iff.mp hpoint).2]
            decide
        · cases hc
      · cases hc
    · exact ih (List.forall_mem_cons.mpr ⟨ht, hbefore⟩) hrest hc

/-- What is called is in one line. -/
theorem oneLine_name {ts : List Token} (hts : ∀ t ∈ ts, t.NamesInLine) {c : Call} (hc : c ∈ list ts) :
    OneLine c.name := oneLine_of_mem_listFrom (List.forall_mem_nil _) hts hc

end Call

/-! ## Parameters -/

/-- Whether a parameter has no name, or one in one line. -/
def Param.NameInLine (p : Param) : Prop := ∀ name ∈ p.name, OneLine name

namespace Signature

/-- An entry of a parameter list whose names are in one line, also the one that a type without a name may turn out
to be. -/
structure EntryInLine (e : ParamEntry) : Prop where
  name : ∀ name ∈ e.name, OneLine name
  type : ∀ t ∈ e.typeTokens, t.NamesInLine

/-- What declares a name begins with an identifier. -/
theorem isIdent_of_declaresName {first : Token} {rest : List Token} (h : declaresName (first :: rest) = true) :
    first.isIdent = true := by
  cases rest with
  | nil => cases h
  | cons second more => exact (Bool.and_eq_true_iff.mp (Bool.and_eq_true_iff.mp h).1).1

/-- An entry of a parameter list read from tokens has a name of one line. -/
theorem entryInLine_of_entryOf {part : List Token} (hpart : ∀ t ∈ part, t.NamesInLine) {e : ParamEntry}
    (h : entryOf part = some e) : EntryInLine e := by
  cases part with
  | nil => cases h
  | cons first rest =>
    rw [entryOf] at h
    obtain ⟨hfirst, hrest⟩ := List.forall_mem_cons.mp hpart
    split at h
    · next hdeclares =>
      obtain rfl := Option.some.inj h
      refine ⟨fun name hname => ?_, hrest⟩
      obtain rfl := Option.some.inj hname
      exact hfirst.ident (isIdent_of_declaresName hdeclares)
    · obtain rfl := Option.some.inj h
      refine ⟨fun name hname => ?_, hpart⟩
      cases hname

/-- Sharing the types among the names of a list makes no new names. -/
theorem oneLine_of_shareTypes {entries : List ParamEntry} (h : ∀ e ∈ entries, EntryInLine e) :
    ∀ e ∈ (shareTypes entries).2, ∀ name ∈ e.name, OneLine name := by
  induction entries with
  | nil => exact List.forall_mem_nil _
  | cons e rest ih =>
    obtain ⟨he, hrest⟩ := List.forall_mem_cons.mp h
    have hdone := ih hrest
    rw [shareTypes]
    dsimp only
    split
    · next t hname htype =>
      split
      · next hident =>
        refine List.forall_mem_cons.mpr ⟨fun name hname => ?_, hdone⟩
        obtain rfl := Option.some.inj hname
        exact (he.type t (htype ▸ List.mem_singleton_self t)).ident hident
      · exact List.forall_mem_cons.mpr ⟨he.name, hdone⟩
    · exact List.forall_mem_cons.mpr ⟨he.name, hdone⟩

/-- A parameter keeps the name of its entry. -/
theorem name_paramOf (e : ParamEntry) : (paramOf e).name = e.name := by
  unfold paramOf
  repeat' split
  all_goals rfl

/-- The names of parameters are in one line. -/
theorem nameInLine_of_mem_params {inner : List Token} (h : ∀ t ∈ inner, t.NamesInLine) :
    ∀ p ∈ params inner, p.NameInLine := by
  intro p hp
  have hentries : ∀ e ∈ (Token.splitParts (·.isOp ",") inner).filterMap entryOf, EntryInLine e := by
    intro e he
    obtain ⟨part, hpart, he⟩ := List.mem_filterMap.mp he
    refine entryInLine_of_entryOf (fun t ht => h t ?_) he
    exact (Token.flatten_splitParts_sublist _ inner).subset (List.mem_flatten.mpr ⟨part, hpart, ht⟩)
  rw [params] at hp
  obtain ⟨e, he, rfl⟩ := List.mem_map.mp hp
  rw [Param.NameInLine, name_paramOf]
  split at he
  · exact oneLine_of_shareTypes hentries e he
  · exact (hentries e he).name

end Signature

end GoIdiom
