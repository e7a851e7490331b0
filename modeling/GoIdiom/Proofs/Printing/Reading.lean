import GoIdiom.Proofs.Printing.Statements

/-!
# Reading undoes printing

The tokens of a printed canonical tree are read as that tree, except for the places of its parts, exactly
when the headers that stand directly in its clauses are clear of the keywords that begin clauses. Three
facts carry the induction over the tree. The block after a header is found because the header has no brace
outside brackets and the printed statement ends behind the block. A plain statement ends at the printed
semicolon because its run has none. Clauses are cut where they begin, and nowhere else if their headers
are clear; else more clauses are read than were printed.
-/

namespace GoIdiom.Statement

open Piece Token

/-! ## Whole trees

The induction is on the tree. Lists and clauses are read to their end. A compound statement and an other
branch are read up to the semicolon behind them, which an `if` after `else` shares with the whole branch.
-/

mutual

/-- A printed compound statement is read up to the semicolon. -/
theorem compound_print (semi : Token) (more : List Token) (hsemi : semi.isSemi = true) : ∀ (s : Statement)
    (ts : List Token) (follow : Option Token), s.kindName ∈ compoundWords → canonical s = true →
      Written (print s) ts → ∃ (keyword : Token) (rest : List Token) (x : Except SourceFault Statement),
        ts = keyword :: rest ∧ keyword.isKeyword s.kindName = true ∧
          compound follow keyword (rest ++ semi :: more) = x.map (fun s' => (s'.withLabel none, semi :: more)) ∧
            (Yields (fun s' => unplaced (s'.withLabel none) = unplaced (s.withLabel none)) x ↔
              clausesClear s = true)
  | .plain _ kind _ _, _, _, hword, _, _ =>
    absurd (show kind.name ∈ compoundWords from hword) (by cases kind <;> decide)
  | .block _ _, _, _, hword, _, _ => absurd (show "block" ∈ compoundWords from hword) (by decide)
  | .branch p header literals body otherwise, ts, follow, hword, hcanonical, hwritten => by
    simp only [canonical, Bool.and_eq_true, List.isEmpty_iff] at hcanonical
    obtain ⟨⟨⟨hheader, rfl⟩, hbody⟩, hother⟩ := hcanonical
    obtain ⟨_, other, hhead, hotherw, rfl⟩ := written_append.mp hwritten
    obtain ⟨keyword, opener, inner, closer, hkeyword, hopen, hinner, hclose, rfl⟩ :=
      exists_of_written_headed hhead
    obtain ⟨x, hafter, hyields⟩ :=
      afterBranch_print semi more hsemi otherwise other follow keyword.pos closer.line
      header hother hotherw
    have hcompound :=
      compound_headed follow hkeyword hword hheader hopen (balanced_printList body inner hbody hinner)
      hclose (endsStatement_printElse hotherw hsemi more)
    refine ⟨keyword, header ++ opener :: (inner ++ [closer]) ++ other, do
      let body ← readList (some closer) none inner
      let r ← x
      pure (.branch ⟨none, keyword.pos, r.1⟩ header [] body r.2), rfl, hkeyword, ?_, ?_⟩
    · rw [List.append_assoc _ other, hcompound]
      cases readList (some closer) none inner with
      | error e => rfl
      | ok body' =>
        refine (hafter body').trans ?_
        cases x <;> rfl
    · rw [clausesClear, Bool.and_eq_true, ← readList_print body inner (some closer) hbody hinner, ← hyields]
      refine Yields.both_iff fun body' r => ?_
      simp [unplaced, withLabel, withPlace]
  | .loop p header literals body, ts, follow, hword, hcanonical, hwritten => by
    simp only [canonical, Bool.and_eq_true, List.isEmpty_iff] at hcanonical
    obtain ⟨⟨hheader, rfl⟩, hbody⟩ := hcanonical
    obtain ⟨keyword, opener, inner, closer, hkeyword, hopen, hinner, hclose, rfl⟩ :=
      exists_of_written_headed hwritten
    have hcompound :=
      compound_headed follow hkeyword hword hheader hopen (balanced_printList body inner hbody hinner)
      hclose (endsStatement_semi hsemi more)
    refine ⟨keyword, header ++ opener :: (inner ++ [closer]), (readList (some closer) none inner).map
      (.loop ⟨none, keyword.pos, closer.line⟩ header []), rfl, hkeyword, ?_, ?_⟩
    · rw [hcompound]
      cases readList (some closer) none inner <;> rfl
    · rw [clausesClear, ← readList_print body inner (some closer) hbody hinner]
      refine Yields.map_iff fun body' => ?_
      simp [unplaced, withLabel, withPlace]
  | .switch p header literals clauses, ts, follow, hword, hcanonical, hwritten => by
    simp only [canonical, Bool.and_eq_true, List.isEmpty_iff] at hcanonical
    obtain ⟨⟨hheader, rfl⟩, hclauses⟩ := hcanonical
    obtain ⟨keyword, opener, inner, closer, hkeyword, hopen, hinner, hclose, rfl⟩ :=
      exists_of_written_headed hwritten
    have hcompound := compound_headed follow hkeyword hword hheader hopen
      (balanced_printClauses clauses inner hclauses hinner) hclose (endsStatement_semi hsemi more)
    refine ⟨keyword, header ++ opener :: (inner ++ [closer]), (readClauses closer inner).map
      (.switch ⟨none, keyword.pos, closer.line⟩ header []), rfl, hkeyword, ?_, ?_⟩
    · rw [hcompound]
      cases readClauses closer inner <;> rfl
    · rw [clausesClear, ← readClauses_print clauses inner closer hclauses hinner]
      refine Yields.map_iff fun clauses' => ?_
      simp [unplaced, withLabel, withPlace]
  | .select p header literals clauses, ts, follow, hword, hcanonical, hwritten => by
    simp only [canonical, Bool.and_eq_true, List.isEmpty_iff] at hcanonical
    obtain ⟨⟨hheader, rfl⟩, hclauses⟩ := hcanonical
    obtain ⟨keyword, opener, inner, closer, hkeyword, hopen, hinner, hclose, rfl⟩ :=
      exists_of_written_headed hwritten
    have hcompound := compound_headed follow hkeyword hword hheader hopen
      (balanced_printClauses clauses inner hclauses hinner) hclose (endsStatement_semi hsemi more)
    refine ⟨keyword, header ++ opener :: (inner ++ [closer]), (readClauses closer inner).map
      (.select ⟨none, keyword.pos, closer.line⟩ header []), rfl, hkeyword, ?_, ?_⟩
    · rw [hcompound]
      cases readClauses closer inner <;> rfl
    · rw [clausesClear, ← readClauses_print clauses inner closer hclauses hinner]
      refine Yields.map_iff fun clauses' => ?_
      simp [unplaced, withLabel, withPlace]

/-- Printed statements are read as they are when the headers in their clauses are clear. -/
theorem readList_print : ∀ (ss : List Statement) (ts : List Token) (follow : Option Token),
    canonicalList ss = true → Written (printList ss) ts →
      (Yields (unplacedList · = unplacedList ss) (readList follow none ts) ↔ clausesClearList ss = true)
  | [], ts, follow, _, hwritten => by
    obtain rfl := written_nil.mp hwritten
    rw [readList]
    exact Yields.ok_iff.trans ⟨fun _ => rfl, fun _ => rfl⟩
  | s :: rest, ts, follow, hcanonical, hwritten => by
    simp only [canonicalList, Bool.and_eq_true] at hcanonical
    obtain ⟨label, core, semi, more, hlabel, hcore, hsemi, hmore, rfl⟩ := exists_of_written_statement hwritten
    -- The statement itself; its label has been read before it.
    have hfirst : ∃ x, readList follow s.place.label (core ++ semi :: more) =
        (do let s' ← x; let rest' ← readList follow none more; pure (s' :: rest')) ∧
          (Yields (unplaced · = unplaced s) x ↔ clausesClear s = true) := by
      cases s with
      | plain p kind run literals =>
        simp only [canonical, Bool.and_eq_true, List.isEmpty_iff] at hcanonical
        obtain ⟨⟨hrun, rfl⟩, -⟩ := hcanonical
        obtain rfl := written_own.mp hcore
        obtain ⟨pos, line, hplain⟩ := readList_plain hrun hsemi p.label
        exact ⟨_, hplain, Yields.ok_iff.trans ⟨fun _ => rfl, fun _ => rfl⟩⟩
      | block p body =>
        obtain ⟨opener, inner, closer, hopen, hinner, hclose, rfl⟩ := exists_of_written_braced hcore
        obtain ⟨pos, line, hblock⟩ :=
          readList_block hopen (balanced_printList body inner hcanonical.1 hinner) hclose hsemi p.label
        refine ⟨_, hblock, ?_⟩
        rw [clausesClear, ← readList_print body inner (some closer) hcanonical.1 hinner]
        refine Yields.map_iff fun body' => ?_
        simp [unplaced]
      | _ =>
        have hword {word : String} (h : compoundWords.contains word = true) := List.contains_iff_mem.mp h
        obtain ⟨keyword, rest, x, rfl, hkeyword, hcompound, hyields⟩ :=
          compound_print semi more hsemi _ core follow (hword rfl) hcanonical.1 hcore
        refine ⟨_, readList_compound hkeyword (hword rfl) hcompound hsemi _, ?_⟩
        rw [← hyields]
        refine Yields.map_iff fun s' => ⟨fun h => ?_, fun h => ?_⟩
        · exact unplaced_withLabel_congr (h.trans (congrArg unplaced (withLabel_label _).symm)) none
        · exact (unplaced_withLabel_congr h _).trans (congrArg unplaced (withLabel_label _))
    obtain ⟨x, hread, hyields⟩ := hfirst
    rw [readList_label hlabel, hread, clausesClearList, Bool.and_eq_true, ← hyields,
      ← readList_print rest more follow hcanonical.2 hmore]
    refine Yields.both_iff fun s' rest' => ?_
    rw [unplacedList, unplacedList, List.cons.injEq]

/-- A printed other branch is read up to the semicolon. -/
theorem afterBranch_print (semi : Token) (more : List Token) (hsemi : semi.isSemi = true) :
    ∀ (otherwise : Option (List Statement)) (ts : List Token) (follow : Option Token)
    (pos : Position) (line : Nat)
      (header : List Token), canonicalElse otherwise = true → Written (printElse otherwise) ts →
        ∃ x : Except SourceFault (Nat × Option (List Statement)),
          (∀ body, afterBranch follow pos line header [] body (ts ++ semi :: more) =
            x.map fun r => (.branch ⟨none, pos, r.1⟩ header [] body r.2, semi :: more)) ∧
              (Yields (unplacedElse ·.2 = unplacedElse otherwise) x ↔ clausesClearElse otherwise = true)
  | none, ts, follow, pos, line, header, _, hwritten => by
    obtain rfl := written_nil.mp hwritten
    have helse : semi.isKeyword "else" = false := by rw [isKeyword, beq_iff_eq.mp hsemi]; rfl
    refine ⟨.ok (line, none), fun body => ?_, Yields.ok_iff.trans ⟨fun _ => rfl, fun _ => rfl⟩⟩
    rw [List.nil_append, afterBranch.eq_def]
    dsimp only
    rw [helse, if_neg Bool.false_ne_true]
    rfl
  | some otherwise, ts, follow, pos, line, header, hcanonical, hwritten => by
    rw [canonicalElse] at hcanonical
    obtain ⟨keyword, branch, hkeyword, rfl, hbranch⟩ := exists_of_written_else hwritten
    rw [clausesClearElse]
    rcases hbranch with ⟨-, hbranch⟩ | ⟨s, hs, helse, hbranch⟩
    · obtain ⟨opener, inner, closer, hopen, hinner, hclose, rfl⟩ := exists_of_written_braced hbranch
      have hbalanced := balanced_printList otherwise inner hcanonical hinner
      refine ⟨(readList (some closer) none inner).map fun read => (closer.line, some read), fun body => ?_, ?_⟩
      · rw [afterBranch_braced hkeyword hopen hbalanced hclose]
        cases readList (some closer) none inner <;> rfl
      · rw [← readList_print otherwise inner (some closer) hcanonical hinner]
        refine Yields.map_iff fun read => ?_
        simp [unplacedElse]
    · cases otherwise with
      | nil => cases hs
      | cons s' rest =>
        obtain ⟨rfl, rfl⟩ := List.cons.inj hs
        obtain ⟨-, hlabel, hif⟩ := of_isElseIf helse
        rw [canonicalList, Bool.and_eq_true] at hcanonical
        obtain ⟨keyword', rest, x, rfl, hkeyword', hread, hyields⟩ :=
          compound_print semi more hsemi s' branch follow (hif ▸ List.mem_cons_self) hcanonical.1 hbranch
        refine ⟨x.map fun r => ((r.withLabel none).endLine, some [r.withLabel none]), fun body => ?_, ?_⟩
        · refine (afterBranch_if hkeyword (hif ▸ hkeyword') hread pos line header body).trans ?_
          cases x <;> rfl
        · rw [clausesClearList, clausesClearList, Bool.and_true, ← hyields]
          refine Yields.map_iff fun r => ?_
          rw [← hlabel, withLabel_label s']
          simp [unplacedElse, unplacedList]

/-- Printed clauses are read as they are when the headers in them are clear. -/
theorem readClauses_print : ∀ (cs : List Clause) (ts : List Token) (next : Token), canonicalClauses cs = true →
    Written (printClauses cs) ts →
      (Yields (unplacedClauses · = unplacedClauses cs) (readClauses next ts) ↔ clausesClearClauses cs = true)
  | [], ts, next, _, hwritten => by
    obtain rfl := written_nil.mp hwritten
    rw [readClauses_eq, spanTop]
    exact Yields.ok_iff.trans ⟨fun _ => rfl, fun _ => rfl⟩
  | .mk pos isDefault header body :: rest, ts, next, hcanonical, hwritten => by
    have hbalanced := balanced_printClauses _ ts hcanonical hwritten
    simp only [canonicalClauses, Bool.and_eq_true] at hcanonical
    obtain ⟨⟨hheader, hbody⟩, hrest⟩ := hcanonical
    obtain ⟨keyword, colon, inner, more, hkeyword, hcolon, hinner, hmore, rfl⟩ :=
      exists_of_written_clause hwritten
    have hword : (if isDefault then "default" else "case") ∈ ["case", "default"] := by cases isDefault <;> decide
    have hinside := balanced_printList body inner hbody hinner
    have hcount := countTop_printList body inner hbody hinner
    rw [clausesClearClauses, Bool.and_eq_true, Bool.and_eq_true, ← hcount,
      ← readList_print body inner (some (more.headD next)) hbody hinner,
      ← readClauses_print rest more next hrest hmore]
    by_cases hclear : countTop startsClause 0 inner = 0
    · rw [readClauses_cons hkeyword hword hheader hcolon (hinside.free hclear) (spanTop_printClauses hmore),
        eq_true hclear, true_and]
      refine Yields.both_iff fun body' rest' => ?_
      cases isDefault <;> simp [unplacedClauses]
    · -- More clauses are read than were printed.
      refine iff_of_false ?_ fun h => hclear h.1.1
      rintro ⟨read, hread, hsame⟩
      have hlength := congrArg List.length hsame
      have hrest := length_le_countTop_printClauses rest hrest hmore
      rw [length_unplacedClauses, length_unplacedClauses, length_of_readClauses next _ hbalanced hread,
        countTop_clause hkeyword hword hheader hcolon hinside, List.length_cons] at hlength
      omega

end

/-- However a canonical tree is printed, reading the tokens gives the tree back, except for the places of its
parts, exactly when the headers of the statements in its clauses have no keyword of a clause outside
brackets. -/
theorem ofTokens_of_written {ss : List Statement} {ts : List Token} (hcanonical : canonicalList ss = true)
    (hwritten : Written (printList ss) ts) :
    (∃ read, ofTokens ts = .ok read ∧ unplacedList read = unplacedList ss) ↔ clausesClearList ss = true := by
  obtain ⟨pairs, hpairs⟩ := exists_matchBrackets_iff.mpr (balanced_printList ss ts hcanonical hwritten)
  have hread : ofTokens ts = readList none none ts := by
    rw [ofTokens, hpairs]
    rfl
  rw [hread]
  exact readList_print ss ts none hcanonical hwritten

section Samples

/-- `L: for n { if a { f; } else if b { { g; }; } else { }; switch v { case 1: h; default: break L; }; };` -/
def labelledLoop : List Statement :=
  let ident (text : String) : Token := ⟨.ident, text, .start⟩
  let plain (kind : PlainKind) (run : List Token) : Statement := .plain ⟨none, .start, 1⟩ kind run []
  let place : Place := ⟨none, .start, 1⟩
  [.loop ⟨some "L", .start, 1⟩ [ident "n"] []
    [.branch place [ident "a"] [] [plain .simple [ident "f"]]
      (some [.branch place [ident "b"] [] [.block place [plain .simple [ident "g"]]] (some [])]),
    .switch place [ident "v"] []
      [.mk .start false [⟨.number, "1", .start⟩] [plain .simple [ident "h"]],
      .mk .start true [] [plain .break [⟨.keyword, "break", .start⟩, ident "L"]]]]]

/-- A labelled loop is read back from its printed form, places left aside. -/
theorem ofTokens_of_written_labelledLoop :
    canonicalList labelledLoop = true ∧ Written (printList labelledLoop) ((printList labelledLoop).map token) ∧
      ∃ read, ofTokens ((printList labelledLoop).map token) = .ok read ∧
        unplacedList read = unplacedList labelledLoop := by
  have hcanonical : canonicalList labelledLoop = true := by decide +kernel
  have hclear : clausesClearList labelledLoop = true := by decide +kernel
  exact ⟨hcanonical, written_token _, (ofTokens_of_written hcanonical (written_token _)).mpr hclear⟩

/-- `switch { case x: if case y { }; };` -/
def caseInHeader : List Statement :=
  let place : Place := ⟨none, .start, 1⟩
  [.switch place [] []
    [.mk .start false [⟨.ident, "x", .start⟩]
      [.branch place [⟨.keyword, "case", .start⟩, ⟨.ident, "y", .start⟩] [] [] none]]]

/-- The header of a statement in a clause is cut at the keyword of a clause. -/
theorem ofTokens_caseInHeader : canonicalList caseInHeader = true ∧
    Written (printList caseInHeader) ((printList caseInHeader).map token) ∧
      ofTokens ((printList caseInHeader).map token) = .error ⟨.missingBlock, .start⟩ := by
  refine ⟨by decide +kernel, written_token _, ?_⟩
  let word (text : String) : Token := ⟨.keyword, text, .start⟩
  let op (text : String) : Token := ⟨.op, text, .start⟩
  let ident (text : String) : Token := ⟨.ident, text, .start⟩
  let semi : Token := ⟨.semi, ";", .start⟩
  -- What the second clause seems to be.
  let cut := [word "case", ident "y", op "\x7b", op "\x7d", semi]
  let inner := word "case" :: ([ident "x"] ++ op ":" :: ([word "if"] ++ cut))
  have htokens : (printList caseInHeader).map token =
      word "switch" :: ([] ++ op "\x7b" :: (inner ++ [op "\x7d"]) ++ [semi]) := rfl
  have hinner : Balanced inner := exists_matchBrackets_iff.mp ⟨_, rfl⟩
  have hif : Free startsClause [word "if"] := .plain rfl rfl .nil
  have hcut : spanTop startsClause cut = ([], cut) := by rw [spanTop, if_pos (by decide)]
  have hbody : readList (some (cut.headD (op "\x7d"))) none [word "if"] = .error ⟨.missingBlock, .start⟩ := by
    rw [readList_cons, if_neg (by decide), if_neg (by decide), if_pos (by decide), compound_eq, Block.afterHeader?]
    rfl
  have hclauses : readClauses (op "\x7d") inner = .error ⟨.missingBlock, .start⟩ := by
    have hcase : (word "case").isKeyword "case" = true := rfl
    rw [readClauses_cons hcase (by decide) (by decide +kernel) rfl hif hcut, hbody]
    rfl
  obtain ⟨pairs, hpairs⟩ : ∃ pairs, matchBrackets ((printList caseInHeader).map token) = .ok pairs :=
    ⟨_, rfl⟩
  have hswitch : (word "switch").isKeyword "switch" = true := rfl
  rw [ofTokens, hpairs, htokens, readList_cons, if_neg (by decide), if_neg (by decide), if_pos (by decide),
    compound_headed none hswitch (by decide) (by decide +kernel) rfl hinner rfl rfl, hclauses]
  rfl

end Samples

end GoIdiom.Statement
