import GoIdiom.Proofs.Derivation
import GoIdiom.Proofs.Headers.Search
import GoIdiom.Proofs.Printing.Statements

/-!
# Statements with a header

A branch, loop or switch is written with its keyword, a header, the braces of its block and, behind a branch,
another branch. It is read as one statement with the whole header and with what stands in that block exactly when
the search for the block passes over the header and the header keeps its function types. A wrong block shows in the
tokens of the statement: a brace of the header is missing there, or the brace of the block stands among them.
-/

namespace GoIdiom

open Token

/-! ## What stays of a run -/

/-- A run with what stands between some of its brackets left out. -/
inductive Emptied : List Token → List Token → Prop
  | nil : Emptied [] []
  | keep {ts own : List Token} (t : Token) (h : Emptied ts own) : Emptied (t :: ts) (t :: own)
  | group {opener closer : Token} {inner ts own : List Token} (hcloses : Closes opener closer)
      (hinner : Balanced inner) (h : Emptied ts own) :
      Emptied (opener :: (inner ++ closer :: ts)) (opener :: closer :: own)

namespace Emptied

variable {ts own front before after : List Token} {t : Token}

/-- What is left of an emptied run stands in it in order. -/
theorem sublist (h : Emptied ts own) : own.Sublist ts := by
  induction h with
  | nil => exact .slnil
  | keep t _ ih => exact ih.cons_cons t
  | group _ _ _ ih => exact ((ih.cons_cons _).trans (List.sublist_append_right ..)).cons_cons _

/-- A run may be emptied at its end only. -/
theorem append_left (front : List Token) (h : Emptied ts own) : Emptied (front ++ ts) (front ++ own) := by
  induction front with
  | nil => exact h
  | cons t front ih => exact ih.keep t

/-- What a bracket of a well bracketed run opens is closed behind everything that stands inside. -/
theorem not_balanced_open {opener : Token} {inside : List Token} (hopen : opener.isOpener = true)
    (hinner : Balanced (before ++ inside)) : ¬Balanced (front ++ opener :: before) := by
  intro h
  obtain ⟨g, hg, -⟩ := h.exists_closeGroup_append hopen
  have hgroup := splitGroup_append_right hg inside
  rw [show splitGroup isOpener isCloser 0 (before ++ inside) = closeGroup (before ++ inside) from rfl,
    hinner.closeGroup_eq_none] at hgroup
  cases hgroup

/-- A token outside brackets stays. -/
theorem mem (h : Emptied ts own) (hts : ts = before ++ t :: after) (hbefore : Balanced (front ++ before)) :
    t ∈ own := by
  induction h generalizing front before with
  | nil => cases (List.append_eq_nil_iff.mp hts.symm).2
  | @keep ts own u _ ih =>
    rcases List.cons_eq_append_iff.mp hts with ⟨-, hhead⟩ | ⟨before, rfl, htail⟩
    · rw [(List.cons.inj hhead).1]
      exact List.mem_cons_self
    · refine List.mem_cons_of_mem u (ih htail (?_ : Balanced ((front ++ [u]) ++ before)))
      rwa [List.append_assoc, List.singleton_append]
  | @group opener closer inner ts own hcloses hinner _ ih =>
    rcases List.cons_eq_append_iff.mp hts with ⟨-, hhead⟩ | ⟨before, rfl, htail⟩
    · rw [(List.cons.inj hhead).1]
      exact List.mem_cons_self
    · rcases List.append_eq_append_iff.mp htail with ⟨between, rfl, hrest⟩ | ⟨between, rfl, hrest⟩
      · rcases List.cons_eq_append_iff.mp hrest with ⟨-, hhead⟩ | ⟨between, rfl, hafter⟩
        · rw [(List.cons.inj hhead).1]
          exact List.mem_cons_of_mem _ List.mem_cons_self
        · refine List.mem_cons_of_mem _ (List.mem_cons_of_mem _ (ih hafter
            (?_ : Balanced ((front ++ opener :: (inner ++ [closer])) ++ between))))
          simpa only [List.append_assoc, List.cons_append, List.nil_append] using hbefore
      · exact absurd hbefore (not_balanced_open hcloses.1 hinner)

end Emptied

/-- The bodies of its literals are what is left out of a run that is written with parts. -/
theorem Part.emptied_shells (ps : List Part) : Emptied (run ps) (shells ps) := by
  induction ps with
  | nil => exact .nil
  | cons p ps ih =>
    rw [run_cons, shells, List.flatMap_cons]
    cases p with
    | plain t => exact ih.keep t
    | functionType keyword opener => exact (ih.keep opener).keep keyword
    | literal c hc =>
      rw [tokens, shell, LiteralCut.all, LiteralCut.shell, List.append_assoc, List.append_assoc, List.cons_append,
        List.append_assoc]
      exact (ih.group hc.body hc.inner).append_left c.signature

namespace Statement

/-- The bodies of its literals are what is left out of a run that literals are cut out of. -/
theorem DerivesCut.emptied {ts own front : List Token} {literals : List FuncLiteral} :
    DerivesCut ts literals own → Balanced (front ++ ts) → Emptied ts own
  | .nil, _ => .nil
  | .keep (t := t) _ hrest, hts => by
    refine (hrest.emptied (?_ : Balanced ((front ++ [t]) ++ _))).keep t
    rwa [List.append_assoc, List.singleton_append]
  | .literal (c := c) hc _ hrest, hts => by
    obtain ⟨hcloses, hinner, -⟩ := LiteralCut.balanced_body hc hts
    have hall := LiteralCut.all_append_rest hc
    have hafter : Balanced ((front ++ c.all) ++ c.body.rest) := by rwa [List.append_assoc, hall]
    rw [← hall, LiteralCut.all, LiteralCut.shell, List.append_assoc, List.append_assoc, List.cons_append,
      List.append_assoc]
    exact ((hrest.emptied hafter).group hcloses hinner).append_left c.signature

/-! ## Headers and their blocks -/

/-- What stands behind the block of a statement: nothing, a block or another branch, and then semicolons only. -/
inductive Otherwise (follow : Option Token) : List Token → Option (List Statement) → Prop
  | nothing {after : List Token} (hafter : ∀ t ∈ after, t.isSemi = true) : Otherwise follow after none
  | block {word opener closer : Token} {inner after : List Token} {body : List Statement}
      (hword : word.isKeyword "else" = true) (hbrace : opener.isOp "\x7b" = true) (hcloses : Closes opener closer)
      (hinner : Balanced inner) (hbody : readList (some closer) none inner = .ok body)
      (hafter : ∀ t ∈ after, t.isSemi = true) :
      Otherwise follow (word :: opener :: (inner ++ closer :: after)) (some body)
  | branch {word keyword : Token} {ts after : List Token} {s : Statement} (hword : word.isKeyword "else" = true)
      (hkeyword : keyword.isKeyword "if" = true) (hs : compound follow keyword ts = .ok (s, after))
      (hafter : ∀ t ∈ after, t.isSemi = true) : Otherwise follow (word :: keyword :: ts) (some [s])

/-- A statement as it is written with its keyword, a header, a block and what stands behind the block. -/
structure Headed (follow : Option Token) where
  keyword : Token
  header : List Part
  opener : Token
  inner : List Token
  closer : Token
  after : List Token
  otherwise : Option (List Statement)
  keyword_isKeywordIn : keyword.isKeywordIn ["if", "for", "switch"] = true
  header_balanced : Balanced (Part.run header)
  opener_isOp : opener.isOp "\x7b" = true
  inner_balanced : Balanced inner
  closer_closes : Closes opener closer
  after_balanced : Balanced after
  after_otherwise : Otherwise follow after otherwise
  otherwise_isKeyword : otherwise ≠ none → keyword.isKeyword "if" = true
  pos_nodup : ((Part.run header ++ [opener]).map (·.pos)).Nodup

namespace Headed

variable {follow : Option Token}

/-- The tokens of the statement. -/
def tokens (h : Headed follow) : List Token :=
  h.keyword :: (Part.run h.header ++ h.opener :: (h.inner ++ h.closer :: h.after))

/-- The statement with the whole header, its literals, and what stands in the block and behind it. -/
inductive Reads (h : Headed follow) : Statement → Prop
  | branch {endLine : Nat} {literals : List FuncLiteral} {body : List Statement}
      (hkeyword : h.keyword.isKeyword "if" = true)
      (hliterals : List.Forall₂ LiteralCut.Reads (Part.literals h.header) literals)
      (hbody : readList (some h.closer) none h.inner = .ok body) :
      Reads h (.branch ⟨none, h.keyword.pos, endLine⟩ (Part.shells h.header) literals body h.otherwise)
  | loop {endLine : Nat} {literals : List FuncLiteral} {body : List Statement}
      (hkeyword : h.keyword.isKeyword "for" = true)
      (hliterals : List.Forall₂ LiteralCut.Reads (Part.literals h.header) literals)
      (hbody : readList (some h.closer) none h.inner = .ok body) :
      Reads h (.loop ⟨none, h.keyword.pos, endLine⟩ (Part.shells h.header) literals body)
  | switch {endLine : Nat} {literals : List FuncLiteral} {clauses : List Clause}
      (hkeyword : h.keyword.isKeyword "switch" = true)
      (hliterals : List.Forall₂ LiteralCut.Reads (Part.literals h.header) literals)
      (hclauses : readClauses h.closer h.inner = .ok clauses) :
      Reads h (.switch ⟨none, h.keyword.pos, endLine⟩ (Part.shells h.header) literals clauses)

/-- Whether what stands in the block is read. -/
def Readable (h : Headed follow) : Prop :=
  if h.keyword.isKeyword "switch" then ∃ clauses, readClauses h.closer h.inner = .ok clauses
  else ∃ body, readList (some h.closer) none h.inner = .ok body

end Headed

/-! ## The statement that is read -/

section Rest

variable {follow : Option Token} {after : List Token} {otherwise : Option (List Statement)}

/-- Semicolons are no statements. -/
theorem readList_semis (label : Option String) (h : ∀ t ∈ after, t.isSemi = true) :
    readList follow label after = .ok [] := by
  induction after with
  | nil => rw [readList]
  | cons t after ih =>
    obtain ⟨ht, hafter⟩ := List.forall_mem_cons.mp h
    rw [readList_cons, if_pos ht, ih hafter]

/-- Without another branch a statement ends right behind its block. -/
theorem Otherwise.isSemi (h : Otherwise follow after none) : ∀ t ∈ after, t.isSemi = true := by
  cases h with
  | nothing hafter => exact hafter

/-- A statement ends behind its last block. -/
theorem Otherwise.endsStatement (h : Otherwise follow after otherwise) : Block.endsStatement after = true := by
  cases h with
  | nothing hafter =>
    cases after with
    | nil => rfl
    | cons t after => rw [Block.endsStatement, hafter t List.mem_cons_self, Bool.true_or, Bool.true_or]
  | block hword => rw [Block.endsStatement, hword, Bool.or_true, Bool.true_or]
  | branch hword => rw [Block.endsStatement, hword, Bool.or_true, Bool.true_or]

/-- A compound statement is read with the statements behind it. -/
theorem readList_keyword {keyword : Token} {rest : List Token}
    (hkeyword : keyword.isKeywordIn ["if", "for", "switch", "select"] = true) (label : Option String) :
    readList follow label (keyword :: rest) = compound follow keyword rest >>= fun r =>
      readList follow none r.2 >>= fun more => pure (r.1.withLabel label :: more) := by
  have hkind := beq_iff_eq.mp (Bool.and_eq_true_iff.mp hkeyword).1
  have hsemi : keyword.isSemi = false := by rw [isSemi, hkind]; rfl
  have hident : keyword.isIdent = false := by rw [isIdent, hkind]; rfl
  rw [readList_cons, hsemi, if_neg Bool.false_ne_true, hident, Bool.false_and, if_neg Bool.false_ne_true,
    if_pos hkeyword]

/-- What stands behind the block of a branch is read as its other branch. -/
theorem Otherwise.afterBranch (h : Otherwise follow after otherwise) (pos : Position) (line : Nat)
    (header : List Token) (literals : List FuncLiteral) (body : List Statement) : ∃ endLine left,
    Statement.afterBranch follow pos line header literals body after =
        .ok (.branch ⟨none, pos, endLine⟩ header literals body otherwise, left) ∧
      ∀ t ∈ left, t.isSemi = true := by
  cases h with
  | nothing hafter =>
    refine ⟨line, after, ?_, hafter⟩
    cases after with
    | nil => rfl
    | cons t after =>
      have hword : t.isKeyword "else" = false := by
        rw [isKeyword, beq_iff_eq.mp (hafter t List.mem_cons_self)]
        rfl
      rw [Statement.afterBranch.eq_def]
      dsimp only
      rw [hword, if_neg Bool.false_ne_true]
  | @block word opener closer inner after body' hword hbrace hcloses hinner hbody hafter =>
    refine ⟨closer.line, after, ?_, hafter⟩
    have hif : opener.isKeyword "if" = false := not_isKeyword_of_isOpener hcloses.1
    rw [Statement.afterBranch.eq_def]
    dsimp only
    rw [if_pos hword, hif, if_neg Bool.false_ne_true, if_pos hbrace,
      hinner.closeGroup_append hcloses.2.1]
    dsimp only
    rw [hbody]
    rfl
  | @branch word keyword ts after s hword hkeyword hs hafter =>
    refine ⟨s.endLine, after, ?_, hafter⟩
    rw [Statement.afterBranch.eq_def]
    dsimp only
    rw [if_pos hword, if_pos hkeyword, hs]
    rfl

end Rest

/-- A compound statement has the tokens and literals that the run before its block is cut into. -/
theorem exists_of_compound {follow : Option Token} {keyword : Token} {ts after : List Token} {s : Statement}
    (h : compound follow keyword ts = .ok (s, after)) : ∃ b, Block.afterHeader? keyword ts = some b ∧
      cutLiterals b.before = .ok (s.literals, s.tokens) := by
  rw [compound_eq] at h
  cases hb : Block.afterHeader? keyword ts with
  | none =>
    rw [hb] at h
    cases h
  | some b =>
    rw [hb] at h
    obtain ⟨cut, hcut, h⟩ := Except.bind_eq_ok.mp h
    refine ⟨b, rfl, ?_⟩
    dsimp only at h
    split at h
    · obtain ⟨clauses, -, h⟩ := Except.bind_eq_ok.mp h
      obtain ⟨rfl, -⟩ := Prod.mk.inj (Except.ok.inj h)
      split <;> exact hcut
    · obtain ⟨body, -, h⟩ := Except.bind_eq_ok.mp h
      split at h
      · obtain ⟨rfl, -⟩ := Prod.mk.inj (Except.ok.inj h)
        exact hcut
      · obtain ⟨other, endLine, rfl, -⟩ :=
          (h ▸ derives_afterBranch follow keyword.pos b.closer.line cut.2 cut.1 body
          b.rest).of_ok
        exact hcut

namespace Headed

variable {follow : Option Token} (h : Headed follow)

/-- The block of the statement in what follows the keyword. -/
def block : Block := ⟨Part.run h.header, h.opener, h.inner, h.closer, h.after⟩

/-- The run from a block's brace on is well bracketed. -/
theorem balanced_run : Balanced h.block.run :=
  h.header_balanced.append (.group h.closer_closes h.inner_balanced h.after_balanced)

/-- The search for the block finds it when the statement has the tokens of the header: another block that is found
leaves a brace of the header out, or the brace of the block in. -/
theorem eq_block {b : Block} {literals : List FuncLiteral}
    (hb : Block.afterHeader? h.keyword h.block.run = some b)
    (hcut : cutLiterals b.before = .ok (literals, Part.shells h.header)) : b = h.block := by
  have hrun := Block.run_afterHeader? hb
  obtain ⟨hbefore, hinner, -, hcloses⟩ := Block.balanced_afterHeader? h.balanced_run hb
  have hderives : DerivesCut b.before literals (Part.shells h.header) :=
    (hcut ▸ derives_cutLiterals b.before).of_ok
  have hown : Emptied b.before (Part.shells h.header) :=
    hderives.emptied (show Balanced ([] ++ b.before) from hbefore)
  have hshells := Part.emptied_shells h.header
  obtain ⟨hnodup, -, hopener⟩ := List.nodup_append.mp (List.map_append ▸ h.pos_nodup)
  have hsame (hsplit : b.opener :: (b.inner ++ b.closer :: b.rest) = h.opener :: (h.inner ++ h.closer :: h.after))
      (hheader : b.before = Part.run h.header) : b = h.block := by
    obtain ⟨hfirst, htail⟩ := List.cons.inj hsplit
    have hgroup := hinner.closeGroup_append hcloses.2.1 b.rest
    rw [htail, h.inner_balanced.closeGroup_append h.closer_closes.2.1] at hgroup
    obtain ⟨hinner, hcloser, hrest⟩ := Group.mk.inj (Option.some.inj hgroup)
    cases b
    simp only at *
    subst hheader hfirst hinner hcloser hrest
    rfl
  rcases List.append_eq_append_iff.mp hrun with ⟨between, hheader, hrest⟩ | ⟨between, hheader, hrest⟩
  · rcases List.cons_eq_append_iff.mp hrest with ⟨rfl, -⟩ | ⟨between, rfl, -⟩
    · exact hsame hrest (by rw [List.append_nil] at hheader; exact hheader.symm)
    · -- The block begins in the header: its brace stays in the header, and is left out of the tokens before it.
      have hmem := hown.sublist.subset (hshells.mem hheader (show Balanced ([] ++ b.before) from hbefore))
      rw [show Part.run h.header = _ from hheader, List.map_append] at hnodup
      exact absurd rfl ((List.nodup_append.mp hnodup).2.2 _ (List.mem_map_of_mem hmem) _
        (List.mem_map_of_mem List.mem_cons_self))
  · rcases List.cons_eq_append_iff.mp hrest with ⟨rfl, -⟩ | ⟨between, rfl, -⟩
    · exact hsame hrest.symm (by rw [List.append_nil] at hheader; exact hheader)
    · -- The brace of the block stands in the tokens before another one.
      have hheader_balanced : Balanced ([] ++ Part.run h.header) := h.header_balanced
      have hmem := hshells.sublist.subset (hown.mem hheader hheader_balanced)
      exact absurd rfl (hopener _ (List.mem_map_of_mem hmem) _ (List.mem_map_of_mem List.mem_cons_self))

/-- The statement that is read when its block is found and the literals of its header are. -/
theorem exists_compound {found : List FuncLiteral} (hb : Block.afterHeader? h.keyword h.block.run = some h.block)
    (hcut : cutLiterals (Part.run h.header) = .ok (found, Part.shells h.header))
    (hliterals : List.Forall₂ LiteralCut.Reads (Part.literals h.header) found) (hreadable : h.Readable) :
    ∃ s left, compound follow h.keyword h.block.run = .ok (s, left) ∧ h.Reads s ∧
    ∀ t ∈ left, t.isSemi = true := by
  obtain ⟨word, hmem, hword⟩ := isKeywordIn_iff.mp h.keyword_isKeywordIn
  have hsame (other : String) : (h.keyword.isKeyword other = true) = (word = other) := by
    rw [isKeyword_iff, (isKeyword_iff.mp hword).1, (isKeyword_iff.mp hword).2]
    exact propext (and_iff_right rfl)
  have hnothing (hif : word ≠ "if") : ∀ t ∈ h.after, t.isSemi = true := by
    have hotherwise : h.otherwise = none := Classical.byContradiction fun hsome =>
      hif (hsame "if" ▸ h.otherwise_isKeyword hsome)
    exact (hotherwise ▸ h.after_otherwise).isSemi
  rw [compound_eq, hb]
  dsimp only [block]
  rw [hcut, isKeywordIn_of_isKeyword hword]
  rw [Readable] at hreadable
  simp only [hsame] at hreadable ⊢
  simp only [List.mem_cons, List.not_mem_nil, or_false] at hmem
  rcases hmem with rfl | rfl | rfl
  · rw [if_neg (by decide)] at hreadable
    obtain ⟨body, hbody⟩ := hreadable
    obtain ⟨endLine, left, hrest, hleft⟩ :=
      h.after_otherwise.afterBranch h.keyword.pos h.closer.line (Part.shells h.header) found body
    refine ⟨.branch ⟨none, h.keyword.pos, endLine⟩ (Part.shells h.header) found body h.otherwise, left, ?_,
      .branch hword hliterals hbody, hleft⟩
    rw [hbody]
    exact hrest
  · rw [if_neg (by decide)] at hreadable
    obtain ⟨body, hbody⟩ := hreadable
    refine ⟨.loop ⟨none, h.keyword.pos, h.closer.line⟩ (Part.shells h.header) found body, h.after, ?_,
      .loop hword hliterals hbody, hnothing (by decide)⟩
    rw [hbody]
    rfl
  · rw [if_pos rfl] at hreadable
    obtain ⟨clauses, hclauses⟩ := hreadable
    refine ⟨.switch ⟨none, h.keyword.pos, h.closer.line⟩ (Part.shells h.header) found clauses, h.after, ?_,
      .switch hword hliterals hclauses, hnothing (by decide)⟩
    rw [hclauses]
    rfl

variable {h} {s : Statement}

/-- A statement that is read from a header has the header's tokens, with the literals' bodies left out. -/
theorem Reads.tokens (hs : h.Reads s) : s.tokens = Part.shells h.header := by
  cases hs <;> rfl

/-- A statement that is read from a header has the header's literals. -/
theorem Reads.literals (hs : h.Reads s) : List.Forall₂ LiteralCut.Reads (Part.literals h.header) s.literals := by
  cases hs <;> assumption

/-- A statement that is read from a header has no label. -/
theorem Reads.withLabel_none (hs : h.Reads s) : s.withLabel none = s := by
  cases hs <;> rfl

/-- What a statement is read from can be read. -/
theorem Reads.readable (hs : h.Reads s) : h.Readable := by
  have hother {word : String} (hword : h.keyword.isKeyword word = true) (hdiffer : word ≠ "switch") :
      ¬h.keyword.isKeyword "switch" = true := fun hswitch =>
    hdiffer ((isKeyword_iff.mp hword).2.symm.trans (isKeyword_iff.mp hswitch).2)
  rw [Readable]
  cases hs with
  | branch hkeyword hliterals hbody =>
    rw [if_neg (hother hkeyword (by decide))]
    exact ⟨_, hbody⟩
  | loop hkeyword hliterals hbody =>
    rw [if_neg (hother hkeyword (by decide))]
    exact ⟨_, hbody⟩
  | switch hkeyword hliterals hclauses =>
    rw [if_pos hkeyword]
    exact ⟨_, hclauses⟩

/-- A statement with a header is read as one statement with the whole header, and with what stands in its block and
behind it, exactly when the search for the block passes over the header, the header keeps its function types, and
the bodies of its literals and the block are read. -/
theorem readList_headed {follow : Option Token} (h : Headed follow) :
    (∃ s, readList follow none h.tokens = .ok [s] ∧ h.Reads s) ↔
      Block.Passed false h.keyword (Part.run h.header) ∧ Part.TypesStay h.header ∧
        (∀ c ∈ Part.literals h.header, c.Readable) ∧ h.Readable := by
  have hkeyword : h.keyword.isKeywordIn ["if", "for", "switch", "select"] = true := by
    obtain ⟨word, hmem, hword⟩ := isKeywordIn_iff.mp h.keyword_isKeywordIn
    exact isKeywordIn_iff.mpr ⟨word, List.mem_append_left ["select"] hmem, hword⟩
  have hheader : Balanced ([] ++ Part.run h.header) := h.header_balanced
  rw [show h.tokens = h.keyword :: h.block.run from rfl, readList_keyword hkeyword]
  constructor
  · rintro ⟨s, hs, hreads⟩
    obtain ⟨⟨s', left⟩, hcompound, hs⟩ := Except.bind_eq_ok.mp hs
    obtain ⟨more, -, hs⟩ := Except.bind_eq_ok.mp hs
    obtain ⟨rfl, -⟩ := List.cons.inj (Except.ok.inj hs)
    obtain ⟨b, hb, hcut⟩ := exists_of_compound hcompound
    have htokens : s'.tokens = Part.shells h.header := by rw [← hreads.tokens]; cases s' <;> rfl
    have hliterals : (s'.withLabel none).literals = s'.literals := by cases s' <;> rfl
    rw [htokens] at hcut
    obtain rfl := h.eq_block hb hcut
    have hpos := h.pos_nodup
    rw [List.map_append] at hpos
    obtain ⟨hread, hstay⟩ := Part.typesStay_of_cutLiterals hheader (List.nodup_append.mp hpos).1 hcut
      (hliterals ▸ hreads.literals)
    exact ⟨Block.passed_of_find? h.opener_isOp h.inner_balanced h.closer_closes h.after_balanced
      h.header_balanced hb, hstay, hread, hreads.readable⟩
  · rintro ⟨hpassed, hstay, hread, hreadable⟩
    have hb := Block.find?_of_passed h.opener_isOp h.inner_balanced h.closer_closes h.after_balanced
      h.after_otherwise.endsStatement hpassed
    obtain ⟨found, hcut, hliterals⟩ := Part.exists_cutLiterals hheader hread hstay
    obtain ⟨s, left, hcompound, hreads, hleft⟩ := h.exists_compound hb hcut hliterals hreadable
    refine ⟨s, ?_, hreads⟩
    rw [hcompound]
    dsimp only [bind, Except.bind]
    rw [readList_semis none hleft, hreads.withLabel_none]
    rfl

/-- `for range []int{1} { f() }`: a composite literal before the block. -/
def literalBeforeBlock : Headed none where
  keyword := ⟨.keyword, "for", ⟨1, 1⟩⟩
  header := [.plain ⟨.keyword, "range", ⟨1, 5⟩⟩ rfl, .plain ⟨.op, "[", ⟨1, 11⟩⟩ rfl,
    .plain ⟨.op, "]", ⟨1, 12⟩⟩ rfl, .plain ⟨.ident, "int", ⟨1, 13⟩⟩ rfl,
    .plain ⟨.op, "\x7b", ⟨1, 16⟩⟩ rfl, .plain ⟨.number, "1", ⟨1, 17⟩⟩ rfl,
    .plain ⟨.op, "\x7d", ⟨1, 18⟩⟩ rfl]
  opener := ⟨.op, "\x7b", ⟨1, 20⟩⟩
  inner := [⟨.ident, "f", ⟨1, 22⟩⟩, ⟨.op, "(", ⟨1, 23⟩⟩, ⟨.op, ")", ⟨1, 24⟩⟩]
  closer := ⟨.op, "\x7d", ⟨1, 26⟩⟩
  after := [⟨.semi, "\n", ⟨1, 27⟩⟩]
  otherwise := none
  keyword_isKeywordIn := rfl
  header_balanced := exists_matchBrackets_iff.mp ⟨_, rfl⟩
  opener_isOp := rfl
  inner_balanced := exists_matchBrackets_iff.mp ⟨_, rfl⟩
  closer_closes := by decide
  after_balanced := .single rfl
  after_otherwise := .nothing fun _ ht => List.mem_singleton.mp ht ▸ rfl
  otherwise_isKeyword := fun h => absurd rfl h
  pos_nodup := by decide

/-- The statement with a composite literal in its header is read as it is written. -/
theorem readList_headed_literalBeforeBlock :
    ∃ s, readList none none literalBeforeBlock.tokens = .ok [s] ∧ literalBeforeBlock.Reads s := by
  have hfound : Block.find? false literalBeforeBlock.keyword literalBeforeBlock.block.run =
      some literalBeforeBlock.block := by decide +kernel
  refine (readList_headed literalBeforeBlock).mpr ⟨?_, ⟨id, id, id, id, id, id, id, trivial⟩, ?_, ?_⟩
  · exact Block.passed_of_find? literalBeforeBlock.opener_isOp literalBeforeBlock.inner_balanced
      literalBeforeBlock.closer_closes literalBeforeBlock.after_balanced literalBeforeBlock.header_balanced hfound
  · exact fun c hc => absurd hc List.not_mem_nil
  · rw [Readable, if_neg (by decide)]
    exact Except.isSome_toOption_iff.mp (by decide +kernel)

/-- `if x := []int{1}; x != nil { f() }`: a composite literal before the semicolon of the header. -/
def literalBeforeSemicolon : Headed none where
  keyword := ⟨.keyword, "if", ⟨2, 1⟩⟩
  header := [.plain ⟨.ident, "x", ⟨2, 4⟩⟩ rfl, .plain ⟨.op, ":=", ⟨2, 6⟩⟩ rfl,
    .plain ⟨.op, "[", ⟨2, 9⟩⟩ rfl, .plain ⟨.op, "]", ⟨2, 10⟩⟩ rfl,
    .plain ⟨.ident, "int", ⟨2, 11⟩⟩ rfl, .plain ⟨.op, "\x7b", ⟨2, 14⟩⟩ rfl,
    .plain ⟨.number, "1", ⟨2, 15⟩⟩ rfl, .plain ⟨.op, "\x7d", ⟨2, 16⟩⟩ rfl,
    .plain ⟨.semi, ";", ⟨2, 17⟩⟩ rfl, .plain ⟨.ident, "x", ⟨2, 19⟩⟩ rfl,
    .plain ⟨.op, "!=", ⟨2, 21⟩⟩ rfl, .plain ⟨.ident, "nil", ⟨2, 24⟩⟩ rfl]
  opener := ⟨.op, "\x7b", ⟨2, 28⟩⟩
  inner := [⟨.ident, "f", ⟨2, 30⟩⟩, ⟨.op, "(", ⟨2, 31⟩⟩, ⟨.op, ")", ⟨2, 32⟩⟩]
  closer := ⟨.op, "\x7d", ⟨2, 34⟩⟩
  after := []
  otherwise := none
  keyword_isKeywordIn := rfl
  header_balanced := exists_matchBrackets_iff.mp ⟨_, rfl⟩
  opener_isOp := rfl
  inner_balanced := exists_matchBrackets_iff.mp ⟨_, rfl⟩
  closer_closes := by decide
  after_balanced := .nil
  after_otherwise := .nothing fun _ ht => absurd ht List.not_mem_nil
  otherwise_isKeyword := fun h => absurd rfl h
  pos_nodup := by decide

/-- The literal is taken for the block, and the block is read as part of a second statement. -/
theorem readList_literalBeforeSemicolon : ∃ first second,
    readList none none literalBeforeSemicolon.tokens = .ok [first, second] ∧
      first.tokens.map (·.text) = ["x", ":=", "[", "]", "int"] ∧
        second.tokens.map (·.text) = ["x", "!=", "nil", "\x7b", "f", "(", ")", "\x7d"] := by
  have hread : (readList none none literalBeforeSemicolon.tokens).toOption.map
      (·.map fun s => s.tokens.map (·.text)) = some [["x", ":=", "[", "]", "int"],
        ["x", "!=", "nil", "\x7b", "f", "(", ")", "\x7d"]] := by decide +kernel
  cases hlist : readList none none literalBeforeSemicolon.tokens with
  | error e =>
    rw [hlist] at hread
    cases hread
  | ok ss =>
    rw [hlist] at hread
    obtain ⟨first, rest, rfl, hfirst, hrest⟩ := List.map_eq_cons_iff.mp (Option.some.inj hread)
    obtain ⟨second, rest, rfl, hsecond, hrest⟩ := List.map_eq_cons_iff.mp hrest
    obtain rfl := List.map_eq_nil_iff.mp hrest
    exact ⟨first, second, rfl, hfirst, hsecond⟩

end Headed

end Statement

end GoIdiom
