import GoIdiom.Proofs.Outcome
import GoIdiom.Proofs.Printing.Clauses

/-!
# One printed statement

How each form of printed statement is read when a semicolon and more tokens follow it, how an other branch
is read behind the block of its branch, and how a clause is read when other clauses follow it. What the
parts are read as is left open.
-/

namespace GoIdiom.Statement

open Piece Token

/-! ## Labels and places -/

/-- Forgetting places and labelling are the same in either order. -/
theorem unplaced_withLabel (label : Option String) (s : Statement) :
    unplaced (s.withLabel label) = (unplaced s).withLabel label := by
  cases s <;> rfl

/-- The outer label is the one that stays. -/
theorem withLabel_withLabel (label label' : Option String) (s : Statement) :
    (s.withLabel label').withLabel label = s.withLabel label := by
  cases s <;> rfl

/-- There are as many clauses without places. -/
theorem length_unplacedClauses (cs : List Clause) : (unplacedClauses cs).length = cs.length := by
  induction cs with
  | nil => rfl
  | cons c rest ih =>
    obtain ⟨pos, isDefault, header, body⟩ := c
    rw [unplacedClauses, List.length_cons, List.length_cons, ih]

/-- Statements that are the same with one label are so with another. -/
theorem unplaced_withLabel_congr {label : Option String} {s s' : Statement}
    (h : unplaced (s.withLabel label) = unplaced (s'.withLabel label)) (label' : Option String) :
    unplaced (s.withLabel label') = unplaced (s'.withLabel label') := by
  have h := congrArg (withLabel label') h
  rwa [← unplaced_withLabel, ← unplaced_withLabel, withLabel_withLabel, withLabel_withLabel] at h

/-- A statement keeps its own label. -/
theorem withLabel_label (s : Statement) : s.withLabel s.place.label = s := by
  cases s <;> rfl

/-! ## One statement and what follows it -/

section Steps

variable {follow : Option Token} {semi : Token} {more : List Token}

/-- A semicolon before statements is passed over, and a label stays for the next one. -/
theorem readList_semi (hsemi : semi.isSemi = true) (label : Option String) :
    readList follow label (semi :: more) = readList follow label more := by
  rw [readList_cons, if_pos hsemi]

/-- A printed label goes to the statement that follows it. -/
theorem readList_label {label : Option String} {ts : List Token} (h : Written (Piece.label label) ts)
    (us : List Token) : readList follow none (ts ++ us) = readList follow label us := by
  cases label with
  | none =>
    obtain rfl := written_nil.mp h
    rfl
  | some name =>
    simp only [Piece.label, written_cons, written_nil] at h
    obtain ⟨t, _, ht, ⟨colon, _, hcolon, rfl, rfl⟩, rfl⟩ := h
    obtain ⟨hident, hname⟩ := Bool.and_eq_true_iff.mp ht
    have hcolon : colon.isOp ":" = true := hcolon
    have hident : t.isIdent = true := hident
    have hsemi : t.isSemi = false := by
      rw [isSemi, beq_iff_eq.mp hident]
      rfl
    rw [List.cons_append, readList_cons, hsemi, if_neg Bool.false_ne_true, hident, List.cons_append,
      List.head?_cons, Option.any_some, hcolon, Bool.and_self, if_pos rfl, beq_iff_eq.mp hname]
    rfl

/-- A plain statement is read up to the semicolon. -/
theorem readList_plain {kind : PlainKind} {run : List Token} (hrun : isPlainRun kind run = true)
    (hsemi : semi.isSemi = true) (label : Option String) : ∃ pos line,
      readList follow label (run ++ semi :: more) = (do
        let s ← .ok (.plain ⟨label, pos, line⟩ kind run [])
        let rest ← readList follow none more
        pure (s :: rest)) := by
  obtain ⟨t, rest, rfl, rfl, hbegins, hfunc, hfree⟩ := exists_of_isPlainRun hrun
  have hfree : Free (·.isSemi) (t :: rest) := hfree.mono fun u hu => (Bool.or_eq_false_iff.mp hu).1
  have hnot : t.isSemi = false := hfree.head
  simp only [beginsPlain, Bool.and_eq_true, Bool.not_eq_true'] at hbegins
  obtain ⟨⟨hwords, hbrace⟩, hlabel⟩ := hbegins
  have htake : takeRun t (rest ++ semi :: more) = (t :: rest, semi :: more) := by
    rw [takeRun_eq_spanTop hnot, ← List.cons_append, hfree.spanTop_append_cons hsemi]
  have hnolabel : (t.isIdent && (rest ++ semi :: more).head?.any (·.isOp ":")) = false := by
    cases rest with
    | nil =>
      rw [List.nil_append, List.head?_cons, Option.any_some, isOp, beq_iff_eq.mp hsemi]
      exact Bool.and_false _
    | cons => exact hlabel
  rw [compoundWords] at hwords
  rw [List.cons_append, readList_cons, hnot, if_neg Bool.false_ne_true, hnolabel, if_neg Bool.false_ne_true, hwords,
    if_neg Bool.false_ne_true, hbrace, if_neg Bool.false_ne_true, htake, cutLiterals_eq_self hfunc]
  dsimp only
  rw [readList_semi hsemi]
  exact ⟨_, _, rfl⟩

/-- A block is read up to its closing brace. -/
theorem readList_block {opener closer : Token} {inner : List Token} (hopen : opener.isOp "\x7b" = true)
    (hinner : Balanced inner) (hclose : closer.isOp "\x7d" = true) (hsemi : semi.isSemi = true)
    (label : Option String) : ∃ pos line,
      readList follow label (opener :: (inner ++ [closer]) ++ semi :: more) = (do
        let s ← (readList (some closer) none inner).map (.block ⟨label, pos, line⟩)
        let rest ← readList follow none more
        pure (s :: rest)) := by
  have hkind := (isOp_iff.mp hopen).1
  have hnot : opener.isSemi = false := by rw [isSemi, hkind]; rfl
  have hident : opener.isIdent = false := by rw [isIdent, hkind]; rfl
  have hwords : opener.isKeywordIn ["if", "for", "switch", "select"] = false := by rw [isKeywordIn, hkind]; rfl
  rw [List.cons_append, List.append_assoc, List.singleton_append, readList_cons, hnot, if_neg Bool.false_ne_true,
    hident, Bool.false_and, if_neg Bool.false_ne_true, hwords, if_neg Bool.false_ne_true, hopen, if_pos rfl,
    hinner.closeGroup_append (closes_of_isOp hopen hclose).2.1]
  dsimp only
  refine ⟨opener.pos, closer.line, ?_⟩
  rw [readList_semi hsemi]
  cases readList (some closer) none inner <;> rfl

/-- A compound statement gets the label that was read before it. -/
theorem readList_compound {keyword : Token} {word : String} {rest : List Token} {x : Except SourceFault Statement}
    (hkeyword : keyword.isKeyword word = true) (hword : word ∈ compoundWords)
    (hread : compound follow keyword rest = x.map fun s => (s.withLabel none, semi :: more))
    (hsemi : semi.isSemi = true)
    (label : Option String) : readList follow label (keyword :: rest) = (do
      let s ← x.map (·.withLabel label)
      let rest ← readList follow none more
      pure (s :: rest)) := by
  have hkind := (isKeyword_iff.mp hkeyword).1
  have hnot : keyword.isSemi = false := by rw [isSemi, hkind]; rfl
  have hident : keyword.isIdent = false := by rw [isIdent, hkind]; rfl
  have hwords : keyword.isKeywordIn ["if", "for", "switch", "select"] = true := by
    rw [isKeywordIn_of_isKeyword hkeyword]
    exact List.contains_iff_mem.mpr hword
  rw [readList_cons, hnot, if_neg Bool.false_ne_true, hident, Bool.false_and, if_neg Bool.false_ne_true, hwords,
    if_pos rfl, hread]
  cases x with
  | error e => rfl
  | ok s =>
    dsimp only [Except.map, bind, Except.bind]
    rw [readList_semi hsemi, withLabel_withLabel]

/-- The block after a header is found, and the header holds no function literal. -/
theorem compound_headed (follow : Option Token) {keyword opener closer : Token} {word : String}
    {header inner after : List Token} (hkeyword : keyword.isKeyword word = true) (hword : word ∈ compoundWords)
    (hheader : isHeader header = true) (hopen : opener.isOp "\x7b" = true) (hinner : Balanced inner)
    (hclose : closer.isOp "\x7d" = true) (hend : Block.endsStatement after = true) :
    compound follow keyword (header ++ opener :: (inner ++ [closer]) ++ after) =
      (if ["switch", "select"].contains word then do
        let clauses ← readClauses closer inner
        let place : Place := ⟨none, keyword.pos, closer.line⟩
        pure (if word = "switch" then .switch place header [] clauses else .select place header [] clauses, after)
      else do
        let body ← readList (some closer) none inner
        if word = "for" then pure (.loop ⟨none, keyword.pos, closer.line⟩ header [] body, after)
        else afterBranch follow keyword.pos closer.line header [] body after) := by
  obtain ⟨hfunc, htypes, hfree⟩ := of_isHeader hheader
  have hcloser := (closes_of_isOp hopen hclose).2.1
  have hprevious : Block.opensType keyword = false := by
    rw [Block.opensType, isKeywordIn_of_isKeyword hkeyword]
    revert hword
    simp only [compoundWords, List.mem_cons, List.not_mem_nil, or_false]
    rintro (rfl | rfl | rfl | rfl) <;> decide
  have hsame (other : String) : (keyword.isKeyword other = true) = (word = other) := by
    rw [isKeyword_iff, (isKeyword_iff.mp hkeyword).1, (isKeyword_iff.mp hkeyword).2]
    exact propext (and_iff_right rfl)
  rw [List.append_assoc, List.cons_append, List.append_assoc, List.singleton_append, compound_eq,
    Block.afterHeader?_append hfree hfunc htypes hprevious hopen hinner hcloser hend]
  dsimp only
  rw [cutLiterals_eq_self hfunc, isKeywordIn_of_isKeyword hkeyword]
  simp only [hsame]
  rfl

/-- A clause is read up to the keyword of the next one when no such keyword stands in its header or its statements.
-/
theorem readClauses_free {keyword colon next : Token} {header inner clauses : List Token}
    (hstarts : startsClause keyword = true) (hheader : Free startsClause header) (hfree : Free (·.isOp ":") header)
    (hcolon : colon.isOp ":" = true) (hinner : Free startsClause inner)
    (hclauses : spanTop startsClause clauses = ([], clauses)) :
    readClauses next (keyword :: (header ++ colon :: (inner ++ clauses))) = (do
      let body ← readList (some (clauses.headD next)) none inner
      let more ← readClauses next clauses
      pure (.mk keyword.pos (keyword.text == "default") header body :: more)) := by
  have hclause : Free startsClause (header ++ colon :: inner) :=
    hheader.append (.plain (isPlain_of_isOp hcolon (by decide)) (startsClause_of_isOp hcolon) hinner)
  have hspan : spanTop startsClause (header ++ colon :: (inner ++ clauses)) =
      (header ++ colon :: inner, clauses) := by
    rw [← List.cons_append, ← List.append_assoc, hclause.spanTop_append, hclauses, List.append_nil]
  have hbegin : spanTop startsClause (keyword :: (header ++ colon :: (inner ++ clauses))) =
      ([], keyword :: (header ++ colon :: (inner ++ clauses))) := by
    rw [spanTop, if_pos hstarts]
  rw [readClauses_eq, hbegin]
  dsimp only
  rw [hspan]
  dsimp only
  rw [hfree.spanTop_append_cons hcolon]

/-- A clause is read up to the keyword of the next one. -/
theorem readClauses_cons {keyword colon next : Token} {word : String} {header inner clauses : List Token}
    (hkeyword : keyword.isKeyword word = true) (hword : word ∈ ["case", "default"])
    (hheader : isClauseHeader header = true) (hcolon : colon.isOp ":" = true) (hinner : Free startsClause inner)
    (hclauses : spanTop startsClause clauses = ([], clauses)) :
    readClauses next (keyword :: (header ++ colon :: (inner ++ clauses))) = (do
      let body ← readList (some (clauses.headD next)) none inner
      let more ← readClauses next clauses
      pure (.mk keyword.pos (word == "default") header body :: more)) := by
  obtain ⟨hnone, hfree⟩ := of_isClauseHeader hheader
  have hstarts : startsClause keyword = true := by
    rw [startsClause, isKeywordIn_of_isKeyword hkeyword, List.contains_iff_mem.mpr hword]
  rw [readClauses_free hstarts (hfree.balanced.free_of_forall hnone) hfree hcolon hinner hclauses,
    (isKeyword_iff.mp hkeyword).2]

/-- The clauses that follow a clause are found at once. -/
theorem spanTop_printClauses {clauses : List Clause} {ts : List Token} (h : Written (printClauses clauses) ts) :
    spanTop startsClause ts = ([], ts) := by
  cases clauses with
  | nil =>
    obtain rfl := written_nil.mp h
    rw [spanTop]
  | cons clause rest =>
    obtain ⟨pos, isDefault, header, body⟩ := clause
    obtain ⟨keyword, colon, inner, more, hkeyword, -, -, -, rfl⟩ := exists_of_written_clause h
    have hstarts : startsClause keyword = true := by
      rw [startsClause, isKeywordIn_of_isKeyword hkeyword]
      cases isDefault <;> rfl
    rw [spanTop, if_pos hstarts]

/-- A semicolon ends a statement. -/
theorem endsStatement_semi (hsemi : semi.isSemi = true) (more : List Token) :
    Block.endsStatement (semi :: more) = true := by
  rw [Block.endsStatement, hsemi, Bool.true_or, Bool.true_or]

/-- A statement ends before an other branch and the semicolon after it. -/
theorem endsStatement_printElse {otherwise : Option (List Statement)} {ts : List Token}
    (h : Written (printElse otherwise) ts) (hsemi : semi.isSemi = true) (more : List Token) :
    Block.endsStatement (ts ++ semi :: more) = true := by
  cases otherwise with
  | none =>
    obtain rfl := written_nil.mp h
    exact endsStatement_semi hsemi more
  | some body =>
    rw [printElse, written_cons] at h
    obtain ⟨keyword, ts, hkeyword, -, rfl⟩ := h
    have hkeyword : keyword.isKeyword "else" = true := hkeyword
    rw [List.cons_append, Block.endsStatement, hkeyword, Bool.or_true, Bool.true_or]

/-- An other branch in braces. -/
theorem afterBranch_braced {keyword opener closer : Token} {inner : List Token} {literals : List FuncLiteral}
    (hkeyword : keyword.isKeyword "else" = true) (hopen : opener.isOp "\x7b" = true) (hinner : Balanced inner)
    (hclose : closer.isOp "\x7d" = true) (pos : Position) (line : Nat) (header : List Token)
    (body : List Statement) :
    afterBranch follow pos line header literals body (keyword :: (opener :: (inner ++ [closer])) ++ more) =
      (readList (some closer) none inner).map fun otherwise =>
        (.branch ⟨none, pos, closer.line⟩ header literals body (some otherwise), more) := by
  have hif : opener.isKeyword "if" = false := by rw [isKeyword, (isOp_iff.mp hopen).1]; rfl
  rw [List.cons_append, List.cons_append, List.append_assoc, List.singleton_append, afterBranch.eq_def]
  dsimp only
  rw [if_pos hkeyword, hif, if_neg Bool.false_ne_true, if_pos hopen,
    hinner.closeGroup_append (closes_of_isOp hopen hclose).2.1]
  dsimp only
  cases readList (some closer) none inner <;> rfl

/-- An other branch that is one `if`. -/
theorem afterBranch_if {keyword keyword' : Token} {rest after : List Token} {literals : List FuncLiteral}
    {x : Except SourceFault Statement}
    (hkeyword : keyword.isKeyword "else" = true) (hkeyword' : keyword'.isKeyword "if" = true)
    (hread : compound follow keyword' (rest ++ more) = x.map fun s => (s.withLabel none, after)) (pos : Position)
    (line : Nat) (header : List Token) (body : List Statement) :
    afterBranch follow pos line header literals body (keyword :: keyword' :: rest ++ more) = x.map fun s =>
      (.branch ⟨none, pos, (s.withLabel none).endLine⟩ header literals body (some [s.withLabel none]),
        after) := by
  rw [List.cons_append, List.cons_append, afterBranch.eq_def]
  dsimp only
  rw [if_pos hkeyword, if_pos hkeyword', hread]
  cases x <;> rfl

end Steps

end GoIdiom.Statement
