import GoIdiom.Proofs.Printing.Canonical
import GoIdiom.Proofs.Reading

/-!
# Where clauses are cut

The clauses that are read are as many as there are keywords of clauses outside brackets. A printed clause
has its own keyword, and those in the headers of its statements that are not clear.
-/

namespace GoIdiom.Statement

open Piece Token

section Pieces

variable {t : Token} {ts : List Token}

/-- Only keywords start clauses. -/
theorem startsClause_of_kind (h : t.kind ≠ .keyword) : startsClause t = false := by
  rw [startsClause, isKeywordIn, beq_eq_false_iff_ne.mpr h, Bool.false_and]

/-- An operator starts no clause. -/
theorem startsClause_of_isOp {text : String} (h : t.isOp text = true) : startsClause t = false := by
  apply startsClause_of_kind
  rw [(isOp_iff.mp h).1]
  decide

/-- A semicolon starts no clause. -/
theorem startsClause_of_isSemi (h : t.isSemi = true) : startsClause t = false := by
  apply startsClause_of_kind
  rw [beq_iff_eq.mp h]
  decide

/-- What stands in braces starts no clause outside them. -/
theorem countTop_braced {opener closer : Token} (hopen : opener.isOp "\x7b" = true) (hinner : Balanced ts)
    (hclose : closer.isOp "\x7d" = true) : countTop startsClause 0 (opener :: (ts ++ [closer])) = 0 := by
  rw [countTop_group (closes_of_isOp hopen hclose) hinner, startsClause_of_isOp hopen]
  rfl

/-- A statement with a block starts a clause exactly where its header does. -/
theorem countTop_headed {keyword opener closer : Token} {word : String} {header : List Token}
    (hkeyword : keyword.isKeyword word = true) (hword : word ∉ ["case", "default"])
    (hheader : isHeader header = true) (hopen : opener.isOp "\x7b" = true) (hinner : Balanced ts)
    (hclose : closer.isOp "\x7d" = true) :
    countTop startsClause 0 (keyword :: (header ++ opener :: (ts ++ [closer]))) =
      countTop startsClause 0 header := by
  have hstarts : startsClause keyword = false := by
    rw [startsClause, isKeywordIn_of_isKeyword hkeyword, List.contains_eq_mem, decide_eq_false hword]
  rw [countTop_plain (isPlain_of_isKeyword hkeyword), hstarts, (of_isHeader hheader).2.2.balanced.countTop_append,
    countTop_braced hopen hinner hclose]
  exact Nat.zero_add _

/-- A label starts no clause. -/
theorem countTop_label {name : Option String} (h : Written (label name) ts) : countTop startsClause 0 ts = 0 := by
  cases name with
  | none =>
    obtain rfl := written_nil.mp h
    rfl
  | some name =>
    simp only [label, written_cons, written_nil] at h
    obtain ⟨t, _, ht, ⟨colon, _, hcolon, rfl, rfl⟩, rfl⟩ := h
    have hident : t.isIdent = true := (Bool.and_eq_true_iff.mp ht).1
    have hcolon : colon.isOp ":" = true := hcolon
    have hstarts : startsClause t = false := by
      apply startsClause_of_kind
      rw [beq_iff_eq.mp hident]
      decide
    rw [countTop_plain (isPlain_of_isIdent hident), hstarts, countTop_plain (isPlain_of_isOp hcolon (by decide)),
      startsClause_of_isOp hcolon]
    rfl

end Pieces

mutual

/-- A printed statement has the keyword of a clause outside brackets unless its headers are clear. -/
theorem countTop_print : ∀ (s : Statement) (ts : List Token), canonical s = true → Written (print s) ts →
    (countTop startsClause 0 ts = 0 ↔ headersClear s = true)
  | .plain _ kind tokens literals, ts, hcanonical, hwritten => by
    rw [print, written_own] at hwritten
    rw [canonical, Bool.and_eq_true] at hcanonical
    obtain ⟨t, rest, -, -, -, -, hfree⟩ := exists_of_isPlainRun hcanonical.1
    have hfree : Free startsClause tokens := hfree.mono fun u hu => (Bool.or_eq_false_iff.mp hu).2
    rw [hwritten, hfree.countTop_eq_zero]
    exact ⟨fun _ => rfl, fun _ => rfl⟩
  | .block _ body, ts, hcanonical, hwritten => by
    obtain ⟨opener, inner, closer, hopen, hinner, hclose, rfl⟩ := exists_of_written_braced hwritten
    simp only [headersClear, countTop_braced hopen (balanced_printList body inner hcanonical hinner) hclose]
  | .branch _ header literals body otherwise, ts, hcanonical, hwritten => by
    simp only [canonical, Bool.and_eq_true] at hcanonical
    obtain ⟨⟨⟨hheader, -⟩, hbody⟩, hother⟩ := hcanonical
    obtain ⟨_, other, hhead, hotherw, rfl⟩ := written_append.mp hwritten
    obtain ⟨keyword, opener, inner, closer, hkeyword, hopen, hinner, hclose, rfl⟩ :=
      exists_of_written_headed hhead
    have hinner := balanced_printList body inner hbody hinner
    rw [(balanced_headed hkeyword hheader hopen hinner hclose).countTop_append,
      countTop_headed hkeyword (by decide) hheader hopen hinner hclose, Nat.add_eq_zero_iff,
      countTop_printElse otherwise other hother hotherw, headersClear, isClear, Bool.and_eq_true, beq_iff_eq]
  | .loop _ header literals body, ts, hcanonical, hwritten => by
    simp only [canonical, Bool.and_eq_true] at hcanonical
    obtain ⟨keyword, opener, inner, closer, hkeyword, hopen, hinner, hclose, rfl⟩ :=
      exists_of_written_headed hwritten
    have hinner := balanced_printList body inner hcanonical.2 hinner
    rw [countTop_headed hkeyword (by decide) hcanonical.1.1 hopen hinner hclose, headersClear, isClear, beq_iff_eq]
  | .switch _ header literals clauses, ts, hcanonical, hwritten
  | .select _ header literals clauses, ts, hcanonical, hwritten => by
    simp only [canonical, Bool.and_eq_true] at hcanonical
    obtain ⟨keyword, opener, inner, closer, hkeyword, hopen, hinner, hclose, rfl⟩ :=
      exists_of_written_headed hwritten
    have hinner := balanced_printClauses clauses inner hcanonical.2 hinner
    rw [countTop_headed hkeyword (by decide) hcanonical.1.1 hopen hinner hclose, headersClear, isClear, beq_iff_eq]

/-- A printed body starts no clause exactly when its headers start none. -/
theorem countTop_printList : ∀ (ss : List Statement) (ts : List Token), canonicalList ss = true →
    Written (printList ss) ts → (countTop startsClause 0 ts = 0 ↔ headersClearList ss = true)
  | [], ts, _, hwritten => by
    obtain rfl := written_nil.mp hwritten
    exact ⟨fun _ => rfl, fun _ => rfl⟩
  | s :: rest, ts, hcanonical, hwritten => by
    simp only [canonicalList, Bool.and_eq_true] at hcanonical
    obtain ⟨label, core, semi, more, hlabel, hcore, hsemi, hmore, rfl⟩ := exists_of_written_statement hwritten
    rw [(balanced_label hlabel).countTop_append, countTop_label hlabel, Nat.zero_add,
      (balanced_print s core hcanonical.1 hcore).countTop_append, countTop_plain (isPlain_of_isSemi hsemi),
      startsClause_of_isSemi hsemi, if_neg Bool.false_ne_true, Nat.zero_add, Nat.add_eq_zero_iff,
      countTop_print s core hcanonical.1 hcore, countTop_printList rest more hcanonical.2 hmore, headersClearList,
      Bool.and_eq_true]

/-- A printed other branch starts no clause exactly when its headers start none. -/
theorem countTop_printElse : ∀ (otherwise : Option (List Statement)) (ts : List Token),
    canonicalElse otherwise = true → Written (printElse otherwise) ts →
      (countTop startsClause 0 ts = 0 ↔ headersClearElse otherwise = true)
  | none, ts, _, hwritten => by
    obtain rfl := written_nil.mp hwritten
    exact ⟨fun _ => rfl, fun _ => rfl⟩
  | some body, ts, hcanonical, hwritten => by
    rw [canonicalElse] at hcanonical
    obtain ⟨keyword, more, hkeyword, rfl, hmore⟩ := exists_of_written_else hwritten
    have hstarts : startsClause keyword = false := by
      rw [startsClause, isKeywordIn_of_isKeyword hkeyword]
      rfl
    rw [countTop_plain (isPlain_of_isKeyword hkeyword), hstarts, if_neg Bool.false_ne_true, Nat.zero_add,
      headersClearElse]
    rcases hmore with ⟨helse, hmore⟩ | ⟨s, rfl, helse, hmore⟩
    · obtain ⟨opener, inner, closer, hopen, hinner, hclose, rfl⟩ := exists_of_written_braced hmore
      rw [countTop_braced hopen (balanced_printList body inner hcanonical hinner) hclose, helse]
      exact ⟨fun _ => rfl, fun _ => rfl⟩
    · rw [canonicalList, Bool.and_eq_true] at hcanonical
      rw [countTop_print s more hcanonical.1 hmore, if_pos helse, headersClearList, headersClearList, Bool.and_true]

end

/-- The clauses that are read are as many as there are keywords of clauses outside brackets. -/
theorem length_of_readClauses (next : Token) (ts : List Token) (h : Balanced ts) {cs : List Clause}
    (hread : readClauses next ts = .ok cs) : cs.length = countTop startsClause 0 ts := by
  have hcut := h.spanTop startsClause
  have hlength := spanTop_length startsClause ts
  rw [← h.countTop_spanTop_rest]
  rw [readClauses_eq] at hread
  split at hread
  · next hnil =>
    obtain rfl := Except.ok.inj hread
    rw [hnil]
    rfl
  · next keyword rest hrest =>
    have hstarts := spanTop_stops hrest
    have hplain := isPlain_of_isKeywordIn hstarts
    rw [hrest] at hcut hlength
    have hbalanced := (hcut.2.tail (isPlain_iff.mp hplain).1).2
    have hshorter : (spanTop startsClause rest).2.length < ts.length := by
      have hrest := spanTop_length startsClause rest
      rw [List.length_cons] at hlength
      omega
    split at hread
    · cases hread
    · obtain ⟨body, -, hread⟩ := Except.bind_eq_ok.mp hread
      obtain ⟨more, hmore, hread⟩ := Except.bind_eq_ok.mp hread
      obtain rfl := Except.ok.inj hread
      have hrec := length_of_readClauses next _ (hbalanced.spanTop startsClause).2 hmore
      rw [hrest, countTop_plain hplain, if_pos hstarts, List.length_cons, hrec, hbalanced.countTop_spanTop_rest,
        Nat.add_comm]
termination_by ts.length
decreasing_by exact hshorter

/-- A printed clause counts once, and for every header in it that is not clear. -/
theorem countTop_clause {keyword colon : Token} {word : String} {header inner : List Token}
    (hkeyword : keyword.isKeyword word = true) (hword : word ∈ ["case", "default"])
    (hheader : isClauseHeader header = true) (hcolon : colon.isOp ":" = true) (hinner : Balanced inner)
    (more : List Token) : countTop startsClause 0 (keyword :: (header ++ colon :: (inner ++ more))) =
      1 + (countTop startsClause 0 inner + countTop startsClause 0 more) := by
  obtain ⟨hnone, hfree⟩ := of_isClauseHeader hheader
  have hstarts : startsClause keyword = true := by
    rw [startsClause, isKeywordIn_of_isKeyword hkeyword, List.contains_iff_mem.mpr hword]
  rw [countTop_plain (isPlain_of_isKeyword hkeyword), if_pos hstarts, hfree.balanced.countTop_append,
    (hfree.balanced.free_of_forall hnone).countTop_eq_zero, Nat.zero_add,
    countTop_plain (isPlain_of_isOp hcolon (by decide)), startsClause_of_isOp hcolon, if_neg Bool.false_ne_true,
    Nat.zero_add, hinner.countTop_append]

/-- No printed clause is lost. -/
theorem length_le_countTop_printClauses (cs : List Clause) {ts : List Token}
    (hcanonical : canonicalClauses cs = true) (hwritten : Written (printClauses cs) ts) :
    cs.length ≤ countTop startsClause 0 ts := by
  induction cs generalizing ts with
  | nil => exact Nat.zero_le _
  | cons clause rest ih =>
    obtain ⟨pos, isDefault, header, body⟩ := clause
    simp only [canonicalClauses, Bool.and_eq_true] at hcanonical
    obtain ⟨⟨hheader, hbody⟩, hrest⟩ := hcanonical
    obtain ⟨keyword, colon, inner, more, hkeyword, hcolon, hinner, hmore, rfl⟩ :=
      exists_of_written_clause hwritten
    have hword : (if isDefault then "default" else "case") ∈ ["case", "default"] := by cases isDefault <;> decide
    have hmore := ih hrest hmore
    rw [countTop_clause hkeyword hword hheader hcolon (balanced_printList body inner hbody hinner),
      List.length_cons]
    omega

end GoIdiom.Statement
