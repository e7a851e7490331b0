import GoIdiom.Linter
import GoIdiom.Proofs.Lexing.File
import GoIdiom.Proofs.Runs.Declarations

/-!
# Why a source cannot be read

Brackets that match, runs that stay well bracketed and parts that are looked for before they are used keep
every reader from failing in its own way: what is wrong with a source is a fault of the source. The one
exception is the size of a channel. A text of digits is taken for a number, though digits need not be
decimal, and numbers may be too long to be read.
-/

namespace GoIdiom

open Token

/-- A text of digits that is read as a number and is none, or is one that is too long. -/
def Token.IsBadSize (t : Token) : Prop :=
  t.text.toList ≠ [] ∧ t.text.toList.all Text.isDigit = true ∧
    (t.text.toList.all Char.isDigit = false ∨ SizeFault.digitLimit < t.text.toList.length)

/-- A size cannot be read exactly when its digits are not decimal or too many. -/
theorem Expression.exists_size?_eq_error_iff (t : Token) : (∃ f, size? t = .error f) ↔ t.IsBadSize := by
  rw [size?, Token.IsBadSize]
  constructor
  · rintro ⟨f, h⟩
    split at h
    · cases h
    · next hdigits =>
      rw [Bool.or_eq_true, not_or, Bool.not_eq_true', Bool.not_eq_false, List.isEmpty_iff] at hdigits
      split at h
      · next hdecimal => exact ⟨hdigits.1, hdigits.2, Or.inl (Bool.not_eq_true' _ ▸ hdecimal)⟩
      · split at h
        · next hlong => exact ⟨hdigits.1, hdigits.2, Or.inr hlong⟩
        · cases h
  · rintro ⟨hne, hdigits, hbad⟩
    have hempty : t.text.toList.isEmpty = false := List.isEmpty_eq_false_iff.mpr hne
    rw [hempty, hdigits]
    rcases hbad with hdecimal | hlong
    · exact ⟨_, by rw [hdecimal]; rfl⟩
    · cases hdecimal : t.text.toList.all Char.isDigit with
      | false => exact ⟨_, rfl⟩
      | true => exact ⟨_, if_pos hlong⟩

/-- The tokens of the groups between separators are those of the run. -/
theorem Token.mem_of_mem_splitTopFrom {separates : Token → Bool} {depth : Int} {ts group : List Token}
    (hgroup : group ∈ splitTopFrom separates depth ts) {t : Token} (ht : t ∈ group) : t ∈ ts := by
  induction ts generalizing depth group with
  | nil =>
    rw [splitTopFrom, List.mem_singleton] at hgroup
    rwa [hgroup] at ht
  | cons u rest ih =>
    rw [splitTopFrom] at hgroup
    split at hgroup
    · rcases List.mem_cons.mp hgroup with rfl | hgroup
      · cases ht
      · exact List.mem_cons_of_mem _ (ih hgroup ht)
    · cases hparts : splitTopFrom separates (depth + u.depthStep) rest with
      | nil =>
        rw [hparts, consFirst, List.mem_singleton] at hgroup
        rw [hgroup, List.mem_singleton] at ht
        exact ht ▸ List.mem_cons_self
      | cons first more =>
        rw [hparts, consFirst] at hgroup
        rcases List.mem_cons.mp hgroup with rfl | hgroup
        · rcases List.mem_cons.mp ht with rfl | ht
          · exact List.mem_cons_self
          · exact List.mem_cons_of_mem _ (ih (hparts ▸ List.mem_cons_self) ht)
        · exact List.mem_cons_of_mem _ (ih (hparts ▸ List.mem_cons_of_mem _ hgroup) ht)

/-- The tokens of the arguments of a call are those of its run. -/
theorem Call.mem_of_mem_listFrom {before ts : List Token} {c : Call} (hc : c ∈ Call.listFrom before ts)
    {argument : List Token} (hargument : argument ∈ c.arguments) {t : Token} (ht : t ∈ argument) :
    t ∈ ts := by
  induction ts generalizing before with
  | nil => cases hc
  | cons u rest ih =>
    rw [listFrom] at hc
    rcases List.mem_append.mp hc with hc | hc
    · split at hc
      · split at hc
        · next g hg =>
          rw [List.mem_singleton.mp hc] at hargument
          have hinner : t ∈ g.inner := Token.mem_of_mem_splitTopFrom (List.mem_filter.mp hargument).1 ht
          rw [← Token.splitGroup_eq_append hg]
          exact List.mem_cons_of_mem _ (List.mem_append_left _ hinner)
        · cases hc
      · cases hc
    · exact List.mem_cons_of_mem _ (ih hc)

/-- What follows the semicolons at the head of a run. -/
theorem Token.Run.dropWhile_isSemi {all ts : List Token} (h : Run all ts) : Run all (ts.dropWhile (·.isSemi)) := by
  induction ts with
  | nil => exact h
  | cons t rest ih =>
    rw [List.dropWhile_cons]
    split
    · next hsemi => exact ih (h.tail (isPlain_of_isSemi hsemi))
    · exact h

namespace SourceFile

variable {source path : String}

/-- What a package is read as: its clause, and the constructs of its declarations. -/
inductive EmitsPackage (path : String) (all : List Token) : String × List Construct → Prop
  | mk (name : Token) (hname : name.isIdent = true) {found : List Construct}
      (h : ∀ c ∈ found, Declaration.Emits ⟨path, isTestPath path, name.text⟩ all c) :
      EmitsPackage path all
        (name.text, ⟨path, name.pos, name.line, .package name.text (isTestPath path)⟩ :: found)

/-- Tokens are read as a package. They fail to be on a fault of the source, or on a size of a channel. -/
theorem emitsPackage_readTokens (path : String) (ts : List Token) :
    Outcome (EmitsPackage path ts) (fun f => ∀ s, f = .size s → Body.Refuses ts s) (readTokens path ts) := by
  have hsource {α : Type} {P : α → Prop} (cause : SourceCause) (pos : Position) :
      Outcome P (fun f => ∀ s, f = FileFault.size s → Body.Refuses ts s) (Declaration.fail cause pos) :=
    .error fun s hs => nomatch hs
  unfold readTokens
  cases hbrackets : matchBrackets ts with
  | error e => exact .error fun s hs => nomatch hs
  | ok pairs =>
    have hrun : Run ts ts := ⟨List.Sublist.refl _, exists_matchBrackets_iff.mp ⟨pairs, hbrackets⟩⟩
    have hstart := hrun.dropWhile_isSemi
    dsimp only [Declaration.ofSource, Except.mapError, bind, Except.bind]
    split
    · exact hsource _ _
    · next keyword rest hkeyword =>
      rw [hkeyword] at hstart
      split
      · exact hsource _ _
      · next hpackage =>
        rw [Bool.not_eq_true', Bool.not_eq_false] at hpackage
        have hafter := hstart.tail (isPlain_of_isKeyword hpackage)
        split
        · exact hsource _ _
        · next name rest =>
          split
          · exact hsource _ _
          · next hname =>
            rw [Bool.not_eq_true', Bool.not_eq_false] at hname
            have hlist := Declaration.emits_list ⟨path, isTestPath path, name.text⟩ rest
              (hafter.tail (isPlain_of_isIdent hname))
            refine (hlist.mono_error fun f hf s hs => ?_).bind fun found hfound => .ok (.mk name hname hfound)
            subst hs
            exact hf

/-- A source whose reading fails on a size writes one that cannot be read. -/
theorem refuses_of_read {f : SizeFault} (h : read source path = .error (.size f)) :
    ∃ lexed, tokenize source = .ok lexed ∧ Body.Refuses lexed.tokens f := by
  unfold read at h
  cases hlexed : tokenize source with
  | error e =>
    rw [hlexed] at h
    cases h
  | ok lexed =>
    rw [hlexed] at h
    refine ⟨lexed, rfl, ?_⟩
    rcases Except.bind_eq_error.mp h with h | ⟨_, ⟨⟩, h⟩
    · cases h
    · rcases Except.bind_eq_error.mp h with h | ⟨_, -, h⟩
      · exact (h ▸ emitsPackage_readTokens path lexed.tokens).of_error f rfl
      · cases h

end SourceFile

/-! ## What is looked up while reading -/

namespace Lexed

/-- Placed tokens are not empty when the pieces are not. -/
theorem text_ne_empty_of_mem_place {ls : List Lexeme} (h : ∀ l ∈ ls, l.chars ≠ []) {pos : Position}
    {last : Option Token} {t : Token} (ht : t ∈ (place pos last ls).tokens) : t.text ≠ "" := by
  have hfeed : "\n" ≠ "" := by decide
  have hbreak {pos : Position} {last : Option Token} (ht : t ∈ lineBreak last pos) : t.text ≠ "" := by
    unfold lineBreak at ht
    split at ht
    · split at ht
      · obtain rfl := List.mem_singleton.mp ht
        exact hfeed
      · cases ht
    · cases ht
  induction ls generalizing pos last with
  | nil => exact hbreak ht
  | cons l rest ih =>
    obtain ⟨hl, hrest⟩ := List.forall_mem_cons.mp h
    rw [place_cons] at ht
    rcases List.mem_append.mp ht with ht | ht
    · rw [step] at ht
      split at ht
      · exact hbreak ht
      · cases ht
      · cases ht
      · split at ht
        · exact hbreak ht
        · cases ht
      · rw [List.mem_singleton.mp ht]
        intro htext
        have hchars := congrArg String.toList htext
        rw [Lexeme.text, String.toList_ofList] at hchars
        exact hl hchars
    · exact ih hrest ht

end Lexed

/-- No token of a source is empty. -/
theorem text_ne_empty_of_tokenize {source : String} {lexed : Lexed} (h : tokenize source = .ok lexed) {t : Token}
    (ht : t ∈ lexed.tokens) : t.text ≠ "" := by
  rw [tokenize] at h
  split at h
  · next pieces hscan =>
    obtain rfl := Except.ok.inj h
    refine Lexed.text_ne_empty_of_mem_place (fun l hl => ?_) ht
    obtain ⟨c, rest, n, -, hchars⟩ := Lexeme.exists_classify_of_mem hscan hl
    rw [hchars]
    exact List.cons_ne_nil _ _
  · cases h

/-- Whether no look-up of a reader can fail in a source whose brackets match: every token has a first
character, and every opening bracket is paired with a later token. -/
def SourceFile.Navigable (source : String) : Prop :=
  ∀ lexed pairs, tokenize source = .ok lexed → matchBrackets lexed.tokens = .ok pairs →
    (∀ t ∈ lexed.tokens, t.text ≠ "") ∧
      ∀ i t, lexed.tokens[i]? = some t → t.isOpener = true →
        ∃ j, (i, j) ∈ pairs ∧ i < j ∧ j < lexed.tokens.length

/-- No look-up of a reader fails in a source whose brackets match. -/
theorem SourceFile.navigable (source : String) : Navigable source := by
  intro lexed pairs hlexed hpairs
  refine ⟨fun t ht => text_ne_empty_of_tokenize hlexed ht, fun i t ht hopen => ?_⟩
  obtain ⟨j, hj⟩ := (exists_pair_of_matchBracketsFrom hpairs).2 i t ht hopen
  rw [Nat.zero_add, Nat.zero_add] at hj
  exact ⟨j, hj⟩

/-! ## The decomposition of a source -/

/-- No look-up fails while a source is read. It is decomposed, or it has a fault that is reported as one of
the source, or it makes a channel with a size that is written in digits and cannot be read. Only then does
the decomposition give the tool a fault. -/
theorem Linter.decomposition_cases (l : Linter) (source path : String) : SourceFile.Navigable source ∧
    ((∃ file, SourceFile.read source path = .ok file) ∨
      (∃ f, SourceFile.read source path = .error (.source f) ∧
        (l.analyzeSource source path).fault = some (.ofSource path f)) ∨
      ∃ f lexed run, ∃ c ∈ Call.list run, ∃ type size more,
        SourceFile.read source path = .error (.size f) ∧
        (l.analyzeSource source path).fault = some (.ofTool path ("ValueError: " ++ f.message)) ∧
        tokenize source = .ok lexed ∧ Run lexed.tokens run ∧ c.name = "make" ∧
        c.arguments = type :: [size] :: more ∧ type.head?.any (·.isKeyword "chan") = true ∧
        size ∈ lexed.tokens ∧ size.IsBadSize) := by
  refine ⟨SourceFile.navigable source, ?_⟩
  cases hread : SourceFile.read source path with
  | ok file => exact Or.inl ⟨file, rfl⟩
  | error f =>
    have hfault : (l.analyzeSource source path).fault = some (AnalysisFault.record path (.file f)) := by
      simp only [analyzeSource, analyze, hread]
      rfl
    cases f with
    | source f => exact Or.inr (Or.inl ⟨f, rfl, hfault⟩)
    | size f =>
      obtain ⟨lexed, hlexed, run, hrun, c, hc, type, size, more, hname, harguments, hchan, hsize⟩ :=
        SourceFile.refuses_of_read hread
      have hargument : [size] ∈ c.arguments := harguments ▸ List.mem_cons_of_mem _ List.mem_cons_self
      have hmem : size ∈ run := Call.mem_of_mem_listFrom hc hargument List.mem_cons_self
      exact Or.inr (Or.inr ⟨f, lexed, run, c, hc, type, size, more, rfl, hfault, hlexed, hrun, hname, harguments,
        hchan, hrun.mem hmem, (Expression.exists_size?_eq_error_iff size).mp ⟨f, hsize⟩⟩)

/-- The tokens of `= make(chan int, ²)`, in which the size is an identifier that consists of a digit. -/
def superscriptSize : List Token :=
  [⟨.op, "=", ⟨3, 7⟩⟩, ⟨.ident, "make", ⟨3, 9⟩⟩, ⟨.op, "(", ⟨3, 13⟩⟩,
    ⟨.keyword, "chan", ⟨3, 14⟩⟩, ⟨.ident, "int", ⟨3, 19⟩⟩, ⟨.op, ",", ⟨3, 22⟩⟩,
    ⟨.ident, "²", ⟨3, 24⟩⟩, ⟨.op, ")", ⟨3, 25⟩⟩]

/-- A size that is an identifier is read as a number all the same, and the source has no fault of its own. -/
theorem SourceFile.read_superscriptSize :
    SourceFile.read "package p\n\nvar c = make(chan int, ²)\n" "p.go" = .error (.size (.notDecimal "²")) := by
  have htokens : tokenize "package p\n\nvar c = make(chan int, ²)\n" =
      .ok ⟨⟨.keyword, "package", ⟨1, 1⟩⟩ ::
      ⟨.ident, "p", ⟨1, 9⟩⟩ :: ⟨.semi, "\n", ⟨1, 10⟩⟩ :: ⟨.keyword, "var", ⟨3, 1⟩⟩ ::
        ⟨.ident, "c", ⟨3, 5⟩⟩ ::
      (superscriptSize ++ [⟨.semi, "\n", ⟨3, 26⟩⟩]), []⟩ := by
    decide +kernel
  have hvalue : Statement.cutLiterals (superscriptSize.drop 1) = .ok ([], superscriptSize.drop 1) :=
    Statement.cutLiterals_eq_self (by decide)
  have hequals : Token.spanTop (·.isOp "=") superscriptSize = ([], superscriptSize) := by decide +kernel
  have hspec (file : FileInfo) :
      Declaration.variableSpec file ⟨.keyword, "var", ⟨3, 1⟩⟩ ⟨.ident, "c", ⟨3, 5⟩⟩
      superscriptSize = .error (.size (.notDecimal "²")) := by
    have hnames : Declaration.variableNames (⟨.ident, "c", ⟨3, 5⟩⟩ :: superscriptSize) =
        ([⟨.ident, "c", ⟨3, 5⟩⟩], superscriptSize) := rfl
    rw [Declaration.variableSpec_eq, hnames]
    simp only [hequals, hvalue]
    rfl
  have hdeclared (file : FileInfo) : Declaration.declared file ⟨.keyword, "var", ⟨3, 1⟩⟩
      (⟨.ident, "c", ⟨3, 5⟩⟩ :: (superscriptSize ++ [⟨.semi, "\n", ⟨3, 26⟩⟩])) =
        .error (.size (.notDecimal "²")) := by
    have hrun : Token.spanTop (·.isSemi)
        (⟨.ident, "c", ⟨3, 5⟩⟩ :: (superscriptSize ++ [⟨.semi, "\n", ⟨3, 26⟩⟩])) =
        (⟨.ident, "c", ⟨3, 5⟩⟩ :: superscriptSize, [⟨.semi, "\n", ⟨3, 26⟩⟩]) := by
      decide +kernel
    have hnone : Declaration.groupAt? "("
        (⟨.ident, "c", ⟨3, 5⟩⟩ :: (superscriptSize ++ [⟨.semi, "\n", ⟨3, 26⟩⟩])) = none := rfl
    rw [Declaration.declared_eq, hnone]
    simp only [hrun]
    exact Except.bind_eq_error.mpr (Or.inl (hspec file))
  rw [read, htokens]
  refine Except.bind_eq_error.mpr (Or.inr ⟨_, rfl, Except.bind_eq_error.mpr (Or.inl ?_)⟩)
  refine Except.bind_eq_error.mpr (Or.inr ⟨_, rfl, ?_⟩)
  refine Except.bind_eq_error.mpr (Or.inl ?_)
  have hsemi : Token.isSemi ⟨.semi, "\n", ⟨1, 10⟩⟩ = true := rfl
  have hvar : ¬Token.isSemi ⟨.keyword, "var", ⟨3, 1⟩⟩ = true := Bool.false_ne_true
  have hkeyword :
      Token.isKeywordIn ⟨.keyword, "var", ⟨3, 1⟩⟩ ["import", "type", "var", "const"] = true := rfl
  rw [Declaration.list_cons, if_pos hsemi, Declaration.list_cons, if_neg hvar, if_pos hkeyword]
  exact Except.bind_eq_error.mpr (Or.inl (hdeclared _))

end GoIdiom
