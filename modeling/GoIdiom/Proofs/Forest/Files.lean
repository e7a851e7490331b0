import GoIdiom.Proofs.Forest.Declarations
import GoIdiom.Proofs.Sites.Files
import Mathlib.Data.List.Perm.Subperm

/-!
# No statement is lost between trees and constructs

The forest of a file holds the statements that are read from its functions and from the function literals in
its statements, headers and initial values. Every go, defer, for and select statement of the forest is a
construct of the file, and these are all. So there are as many constructs of a kind as keywords exactly when
every keyword of the source begins a statement of the forest.
-/

namespace GoIdiom

/-- The sites in the layer of a kind are where the constructs of the kind begin. -/
theorem Layer.flatMap_sites_kind (kind : ConstructKind) (cs : List Construct) :
    cs.flatMap (Layer.kind kind).sites = (cs.filter (·.kind = kind)).map (·.pos) := by
  induction cs with
  | nil => rfl
  | cons c rest ih =>
    rw [List.flatMap_cons, ih, sites_kind, List.filter_cons]
    by_cases h : c.kind = kind
    · rw [if_pos h.symm, if_pos (decide_eq_true h)]
      rfl
    · rw [if_neg (Ne.symm h), if_neg (by simpa using h)]
      rfl

namespace SourceFile

open Token Statement

variable {source path : String} {file : SourceFile} {lexed : Lexed}

/-- The statements of a file at every depth: those of the declarations after its package clause. -/
def forest (tokens : List Token) : List Statement := Declaration.forest ((tokens.dropWhile (·.isSemi)).drop 2)

/-- The constructs of a package account for the forest. -/
theorem covers_readTokens (path : String) (ts : List Token) :
    Outcome (fun r => Declaration.Covers ts (forest ts) r.2) (fun _ => True) (readTokens path ts) := by
  unfold readTokens forest
  cases hbrackets : matchBrackets ts with
  | error e => exact .error trivial
  | ok pairs =>
    have hrun : Run ts ts := ⟨List.Sublist.refl _, exists_matchBrackets_iff.mp ⟨pairs, hbrackets⟩⟩
    have hstart := hrun.dropWhile_isSemi
    dsimp only [Declaration.ofSource, Except.mapError, bind, Except.bind]
    split
    · exact .error trivial
    · next keyword rest hkeyword =>
      rw [hkeyword] at hstart ⊢
      split
      · exact .error trivial
      · next hpackage =>
        rw [Bool.not_eq_true', Bool.not_eq_false] at hpackage
        have hafter := hstart.tail (isPlain_of_isKeyword hpackage)
        split
        · exact .error trivial
        · next name rest =>
          split
          · exact .error trivial
          · next hname =>
            rw [Bool.not_eq_true', Bool.not_eq_false] at hname
            have hlist := Declaration.reports_list ⟨path, isTestPath path, name.text⟩ rest
              (hafter.tail (isPlain_of_isIdent hname))
            exact hlist.bind fun found hfound => .ok (hfound.cons rfl (Or.inl rfl))

/-- The constructs of a file, the file itself apart, account for its forest. -/
theorem covers_read (hlexed : tokenize source = .ok lexed) (h : read source path = .ok file) :
    ∃ lineCount package constructs, file.constructs =
        ⟨path, .start, max lineCount 1, .file lineCount (isTestPath path) package⟩ :: constructs ∧
      Declaration.Covers lexed.tokens (forest lexed.tokens) constructs := by
  obtain ⟨same, package, constructs, hsame, hread, rfl⟩ := read_eq_ok_iff.mp h
  obtain rfl := Except.ok.inj (hlexed.symm.trans hsame)
  exact ⟨_, package, constructs, rfl, (hread ▸ covers_readTokens path lexed.tokens).of_ok⟩

/-- Lists without repetition, of which one holds the other, are of one length when they hold the same. -/
theorem length_eq_iff_subset {α : Type} {as bs : List α} (has : as.Nodup) (hsub : as ⊆ bs) :
    as.length ≤ bs.length ∧ (bs.Nodup → (as.length = bs.length ↔ bs ⊆ as)) := by
  have hle : as.Subperm bs := has.subperm hsub
  refine ⟨hle.length_le, fun hbs => ⟨fun hlength => ?_, fun hsup => ?_⟩⟩
  · exact (hle.perm_of_length_le (Nat.le_of_eq hlength.symm)).symm.subset
  · exact Nat.le_antisymm hle.length_le (hbs.subperm hsup).length_le

/-- The constructs of a kind with a keyword are the statements of the forest with that keyword, one for each. No
more of them are found than the source has keywords, and as many exactly when every keyword begins a statement of
the forest. -/
theorem statements_kept (hlexed : tokenize source = .ok lexed) (h : read source path = .ok file)
    {kind : ConstructKind} {word : String} (hword : kind.keyword? = some word) :
    let found := file.constructs.filter (·.kind = kind)
    let keywords := lexed.tokens.filter (·.isKeyword word)
    (found.map (·.pos)).Perm (((forest lexed.tokens).filter (·.keyword? = some word)).map (·.pos)) ∧
      found.length ≤ keywords.length ∧
      (found.length = keywords.length ↔
        ∀ t ∈ keywords, ∃ s ∈ forest lexed.tokens, s.keyword? = some word ∧ s.pos = t.pos) := by
  intro found keywords
  obtain ⟨lineCount, package, constructs, hconstructs, hcovers⟩ := covers_read hlexed h
  have hfound : found = constructs.filter (·.kind = kind) := by
    have hfile : ¬ ConstructKind.file = kind := by
      rintro rfl
      cases hword
    change file.constructs.filter (·.kind = kind) = _
    rw [hconstructs]
    exact List.filter_cons_of_neg fun hkind => hfile (of_decide_eq_true hkind)
  have hperm : (found.map (·.pos)).Perm (((forest lexed.tokens).filter (·.keyword? = some word)).map (·.pos)) :=
    hfound ▸ hcovers.kept kind word hword
  -- What begins at a place, and the keyword there.
  have hbegins (p : Position) : p ∈ found.map (·.pos) ↔
      ∃ s ∈ forest lexed.tokens, s.keyword? = some word ∧ s.pos = p := by
    rw [hperm.mem_iff, List.mem_map]
    constructor
    · rintro ⟨s, hs, rfl⟩
      obtain ⟨hmem, hkeyword⟩ := List.mem_filter.mp hs
      exact ⟨s, hmem, of_decide_eq_true hkeyword, rfl⟩
    · rintro ⟨s, hmem, hkeyword, rfl⟩
      exact ⟨s, List.mem_filter.mpr ⟨hmem, decide_eq_true hkeyword⟩, rfl⟩
  have hsub : found.map (·.pos) ⊆ keywords.map (·.pos) := by
    intro p hp
    obtain ⟨s, hs, hkeyword, rfl⟩ := (hbegins p).mp hp
    obtain ⟨first, more, hsub, hfirst⟩ := hcovers.stands s hs
    exact List.mem_map.mpr ⟨first,
      List.mem_filter.mpr ⟨hsub.subset List.mem_cons_self, hfirst.keyword word hkeyword⟩,
      hfirst.pos.symm⟩
  have hnodup : (found.map (·.pos)).Nodup := by
    have hsites := sites_nodup h (.kind kind)
    rwa [Layer.flatMap_sites_kind] at hsites
  have hkeywords : (keywords.map (·.pos)).Nodup :=
    (tokens_nodup hlexed).sublist (List.filter_sublist.map _)
  obtain ⟨hle, hiff⟩ := length_eq_iff_subset hnodup hsub
  simp only [List.length_map] at hle hiff
  refine ⟨hperm, hle, (hiff hkeywords).trans ?_⟩
  constructor
  · intro hsup t ht
    exact (hbegins t.pos).mp (hsup (List.mem_map_of_mem ht))
  · intro hall p hp
    obtain ⟨t, ht, rfl⟩ := List.mem_map.mp hp
    exact (hbegins t.pos).mpr (hall t ht)

/-- A goroutine that is started in the initial value of a variable. -/
def initialLoop : String := "package p\n\nvar f = func() \x7b for \x7b go g() \x7d \x7d\n"

/-- A loop that starts a goroutine keeps it: one `go` in the source, one construct for it. -/
theorem statements_kept_initialLoop : ∃ lexed file, tokenize initialLoop = .ok lexed ∧
    read initialLoop "p.go" = .ok file ∧ ConstructKind.keyword? .go = some "go" ∧
      (file.constructs.filter (·.kind = .go)).length = 1 ∧
      ((file.constructs.filter (·.kind = .go)).map (·.pos)).Perm
        (((forest lexed.tokens).filter (·.keyword? = some "go")).map (·.pos)) := by
  have hcount : (read initialLoop "p.go").toOption.map
      (fun file => (file.constructs.filter (·.kind = .go)).length) = some 1 := by decide +kernel
  have htokens : (tokenize initialLoop).isOk = true := by decide +kernel
  cases hlexed : tokenize initialLoop with
  | error f =>
    rw [hlexed] at htokens
    cases htokens
  | ok lexed =>
    cases hread : read initialLoop "p.go" with
    | error f =>
      rw [hread] at hcount
      cases hcount
    | ok file =>
      rw [hread] at hcount
      exact ⟨lexed, file, rfl, rfl, rfl, Option.some.inj hcount, (statements_kept hlexed hread rfl).1⟩

/-- A goroutine that is started by a function literal in a case expression. -/
def caseExpression : String :=
  "package p\n\nfunc f() \x7b\n\tswitch x \x7b\n\tcase func() int \x7b go g(); return 1 \x7d():\n\t\x7d\n\x7d\n"

/-- The function literals of a clause header are not read: the only statement with a keyword is the first one of the
body of a function literal, and no construct stands for it. -/
theorem statement_lost_caseExpression : ∃ lexed file, tokenize caseExpression = .ok lexed ∧
    read caseExpression "p.go" = .ok file ∧
      (lexed.tokens.filter (·.isKeywordIn ["go", "defer", "for", "select"])).map (·.text) = ["go"] ∧
      (∃ keyword rest c, keyword :: rest <:+ lexed.tokens ∧ LiteralCut.ofKeyword? keyword rest = some c ∧
        c.body.inner.head?.any (·.isKeyword "go") = true) ∧
      file.constructs.filter (·.kind = .go) = [] := by
  have hfound : (read caseExpression "p.go").toOption.map (fun file => file.constructs.filter (·.kind = .go)) =
      some [] := by decide +kernel
  have hkeywords : (tokenize caseExpression).toOption.map
      (fun lexed => (lexed.tokens.filter (·.isKeywordIn ["go", "defer", "for", "select"])).map (·.text)) =
        some ["go"] := by decide +kernel
  have hliteral : (tokenize caseExpression).toOption.map (fun lexed => (lexed.tokens[12]?.bind fun keyword =>
      LiteralCut.ofKeyword? keyword (lexed.tokens.drop 13)).any fun c =>
        c.body.inner.head?.any (·.isKeyword "go")) = some true := by decide +kernel
  cases hlexed : tokenize caseExpression with
  | error f =>
    rw [hlexed] at hkeywords
    cases hkeywords
  | ok lexed =>
    cases hread : read caseExpression "p.go" with
    | error f =>
      rw [hread] at hfound
      cases hfound
    | ok file =>
      rw [hlexed] at hkeywords hliteral
      rw [hread] at hfound
      obtain ⟨c, hc, hgo⟩ := (Option.any_eq_true _ _).mp (Option.some.inj hliteral)
      obtain ⟨keyword, hkeyword, hcut⟩ := Option.bind_eq_some_iff.mp hc
      have hsuffix : keyword :: lexed.tokens.drop 13 <:+ lexed.tokens := by
        obtain ⟨hlength, rfl⟩ := List.getElem?_eq_some_iff.mp hkeyword
        rw [← List.drop_eq_getElem_cons hlength]
        exact List.drop_suffix 12 lexed.tokens
      exact ⟨lexed, file, rfl, rfl, Option.some.inj hkeywords, ⟨keyword, _, c, hsuffix, hcut, hgo⟩,
        Option.some.inj hfound⟩

end SourceFile

end GoIdiom
