import GoIdiom.Proofs.Printing.Trees

/-!
# The runs of printed canonical trees

What a canonical tree says of its runs: where they begin, which tokens do not stand in them, and that they
are well bracketed. So is everything that is printed of the tree.
-/

namespace GoIdiom

namespace Token

variable {t : Token} {text : String} {texts : List String}

/-- A token is a keyword by its kind and its text. -/
theorem isKeyword_iff : t.isKeyword text = true ↔ t.kind = .keyword ∧ t.text = text := by
  rw [isKeyword, Bool.and_eq_true, beq_iff_eq, beq_iff_eq]

/-- A token is an operator by its kind and its text. -/
theorem isOp_iff : t.isOp text = true ↔ t.kind = .op ∧ t.text = text := by
  rw [isOp, Bool.and_eq_true, beq_iff_eq, beq_iff_eq]

/-- A keyword is one of some keywords when its text is. -/
theorem isKeywordIn_of_isKeyword (h : t.isKeyword text = true) : t.isKeywordIn texts = texts.contains text := by
  obtain ⟨hkind, htext⟩ := isKeyword_iff.mp h
  rw [isKeywordIn, hkind, htext]
  rfl

/-- A keyword is no other one. -/
theorem isKeyword_of_isKeyword (h : t.isKeyword text = true) (other : String) :
    t.isKeyword other = (text == other) := by
  rw [isKeyword, (isKeyword_iff.mp h).1, (isKeyword_iff.mp h).2]
  rfl

/-- None of some keywords is none of fewer. -/
theorem isKeywordIn_of_subset {fewer : List String} (h : t.isKeywordIn texts = false) (hsub : fewer ⊆ texts) :
    t.isKeywordIn fewer = false := by
  rw [isKeywordIn, Bool.and_eq_false_iff] at h ⊢
  refine h.imp_right fun h => ?_
  rw [List.contains_eq_mem, decide_eq_false_iff_not] at h ⊢
  exact fun hmem => h (hsub hmem)

/-- None of some keywords is not a certain one of them. -/
theorem isKeyword_of_mem (h : t.isKeywordIn texts = false) (hmem : text ∈ texts) : t.isKeyword text = false := by
  cases hkeyword : t.isKeyword text with
  | false => rfl
  | true =>
    rw [isKeywordIn_of_isKeyword hkeyword, List.contains_iff_mem.mpr hmem] at h
    cases h

/-- Braces match each other. -/
theorem closes_of_isOp {opener closer : Token} (hopen : opener.isOp "\x7b" = true)
    (hclose : closer.isOp "\x7d" = true) : Closes opener closer := by
  obtain ⟨hokind, hotext⟩ := isOp_iff.mp hopen
  obtain ⟨hckind, hctext⟩ := isOp_iff.mp hclose
  rw [Closes, isOpener, isCloser, isOpIn, isOpIn, hokind, hckind, hotext, hctext]
  decide

/-- A run checked to be free of some tokens is well bracketed and has none of them outside brackets. -/
theorem free_of_isFree {p : Token → Bool} {ts : List Token} (h : isFree p ts = true) : Free p ts := by
  rw [isFree, Bool.and_eq_true, beq_iff_eq] at h
  obtain ⟨hpairs, hnone⟩ := h
  cases hmatch : matchBrackets ts with
  | error e =>
    rw [hmatch] at hpairs
    cases hpairs
  | ok pairs => exact (exists_matchBrackets_iff.mp ⟨pairs, hmatch⟩).free hnone

end Token

namespace Statement

open Piece Token

/-! ## Runs of canonical trees -/

section Runs

variable {ts : List Token}

/-- A run checked to be a statement without blocks begins with the token that tells its kind, and ends
nowhere within. -/
theorem exists_of_isPlainRun {kind : PlainKind} (h : isPlainRun kind ts = true) : ∃ t rest, ts = t :: rest ∧
    kind = plainKind t ∧ beginsPlain t rest = true ∧ (∀ u ∈ ts, u.isKeyword "func" = false) ∧
      Free (fun u => u.isSemi || startsClause u) ts := by
  cases ts with
  | nil => cases h
  | cons t rest =>
    simp only [isPlainRun, Bool.and_eq_true, beq_iff_eq, List.all_eq_true, Bool.not_eq_true'] at h
    obtain ⟨⟨⟨hkind, hbegins⟩, hfunc⟩, hfree⟩ := h
    exact ⟨t, rest, rfl, hkind, hbegins, hfunc, free_of_isFree hfree⟩

/-- A header checked to be one has no literal, no type and no brace outside brackets. -/
theorem of_isHeader (h : isHeader ts = true) : (∀ t ∈ ts, t.isKeyword "func" = false) ∧
    (∀ t ∈ ts, Block.opensType t = false) ∧ Free (·.isOp "\x7b") ts := by
  simp only [isHeader, Bool.and_eq_true, List.all_eq_true, Bool.not_eq_true'] at h
  exact ⟨fun t ht => isKeyword_of_mem (h.1 t ht) (by decide),
    fun t ht => isKeywordIn_of_subset (h.1 t ht) (by decide), free_of_isFree h.2⟩

/-- A header of a clause checked to be one starts no clause and has no colon outside brackets. -/
theorem of_isClauseHeader (h : isClauseHeader ts = true) : (∀ t ∈ ts, startsClause t = false) ∧
    Free (·.isOp ":") ts := by
  simp only [isClauseHeader, Bool.and_eq_true, List.all_eq_true, Bool.not_eq_true'] at h
  exact ⟨fun t ht => isKeywordIn_of_subset (h.1 t ht) (by decide), free_of_isFree h.2⟩

end Runs

/-! ## Printings are well bracketed -/

section Pieces

variable {ts : List Token}

/-- What is well bracketed stays so in braces. -/
theorem balanced_braced {opener closer : Token} (hopen : opener.isOp "\x7b" = true) (hinner : Balanced ts)
    (hclose : closer.isOp "\x7d" = true) : Balanced (opener :: (ts ++ [closer])) :=
  .enclosed (closes_of_isOp hopen hclose) hinner

/-- A keyword, a header and a block in braces are well bracketed. -/
theorem balanced_headed {keyword opener closer : Token} {word : String} {header : List Token}
    (hkeyword : keyword.isKeyword word = true) (hheader : isHeader header = true)
    (hopen : opener.isOp "\x7b" = true) (hinner : Balanced ts) (hclose : closer.isOp "\x7d" = true) :
    Balanced (keyword :: (header ++ opener :: (ts ++ [closer]))) :=
  .plain (isPlain_of_isKeyword hkeyword)
    ((of_isHeader hheader).2.2.balanced.append (balanced_braced hopen hinner hclose))

/-- A label is well bracketed. -/
theorem balanced_label {name : Option String} (h : Written (label name) ts) : Balanced ts := by
  cases name with
  | none =>
    obtain rfl := written_nil.mp h
    exact .nil
  | some name =>
    simp only [label, written_cons, written_nil] at h
    obtain ⟨t, _, ht, ⟨colon, _, hcolon, rfl, rfl⟩, rfl⟩ := h
    have hident : t.isIdent = true := (Bool.and_eq_true_iff.mp ht).1
    have hcolon : colon.isOp ":" = true := hcolon
    exact .plain (isPlain_of_isIdent hident) (.single (isPlain_of_isOp hcolon (by decide)))

end Pieces

mutual

/-- A printed statement is well bracketed. -/
theorem balanced_print : ∀ (s : Statement) (ts : List Token), canonical s = true →
    Written (print s) ts → Balanced ts
  | .plain _ kind tokens literals, ts, hcanonical, hwritten => by
    rw [print, written_own] at hwritten
    rw [canonical, Bool.and_eq_true] at hcanonical
    obtain ⟨t, rest, -, -, -, -, hfree⟩ := exists_of_isPlainRun hcanonical.1
    exact hwritten ▸ hfree.balanced
  | .block _ body, ts, hcanonical, hwritten => by
    obtain ⟨opener, inner, closer, hopen, hinner, hclose, rfl⟩ := exists_of_written_braced hwritten
    exact balanced_braced hopen (balanced_printList body inner hcanonical hinner) hclose
  | .branch _ header literals body otherwise, ts, hcanonical, hwritten => by
    simp only [canonical, Bool.and_eq_true] at hcanonical
    obtain ⟨⟨⟨hheader, -⟩, hbody⟩, hother⟩ := hcanonical
    obtain ⟨_, other, hhead, hotherw, rfl⟩ := written_append.mp hwritten
    obtain ⟨keyword, opener, inner, closer, hkeyword, hopen, hinner, hclose, rfl⟩ :=
      exists_of_written_headed hhead
    exact (balanced_headed hkeyword hheader hopen (balanced_printList body inner hbody hinner) hclose).append
      (balanced_printElse otherwise other hother hotherw)
  | .loop _ header literals body, ts, hcanonical, hwritten => by
    simp only [canonical, Bool.and_eq_true] at hcanonical
    obtain ⟨keyword, opener, inner, closer, hkeyword, hopen, hinner, hclose, rfl⟩ :=
      exists_of_written_headed hwritten
    exact balanced_headed hkeyword hcanonical.1.1 hopen (balanced_printList body inner hcanonical.2 hinner) hclose
  | .switch _ header literals clauses, ts, hcanonical, hwritten
  | .select _ header literals clauses, ts, hcanonical, hwritten => by
    simp only [canonical, Bool.and_eq_true] at hcanonical
    obtain ⟨keyword, opener, inner, closer, hkeyword, hopen, hinner, hclose, rfl⟩ :=
      exists_of_written_headed hwritten
    exact balanced_headed hkeyword hcanonical.1.1 hopen
      (balanced_printClauses clauses inner hcanonical.2 hinner) hclose

/-- A printed body is well bracketed. -/
theorem balanced_printList : ∀ (ss : List Statement) (ts : List Token), canonicalList ss = true →
    Written (printList ss) ts → Balanced ts
  | [], ts, _, hwritten => by
    obtain rfl := written_nil.mp hwritten
    exact .nil
  | s :: rest, ts, hcanonical, hwritten => by
    simp only [canonicalList, Bool.and_eq_true] at hcanonical
    obtain ⟨label, core, semi, more, hlabel, hcore, hsemi, hmore, rfl⟩ := exists_of_written_statement hwritten
    have hmore := balanced_printList rest more hcanonical.2 hmore
    exact (balanced_label hlabel).append
      ((balanced_print s core hcanonical.1 hcore).append (.plain (isPlain_of_isSemi hsemi) hmore))

/-- A printed other branch is well bracketed. -/
theorem balanced_printElse : ∀ (otherwise : Option (List Statement)) (ts : List Token),
    canonicalElse otherwise = true → Written (printElse otherwise) ts → Balanced ts
  | none, ts, _, hwritten => by
    obtain rfl := written_nil.mp hwritten
    exact .nil
  | some body, ts, hcanonical, hwritten => by
    rw [canonicalElse] at hcanonical
    obtain ⟨keyword, more, hkeyword, rfl, hmore⟩ := exists_of_written_else hwritten
    refine .plain (isPlain_of_isKeyword hkeyword) ?_
    rcases hmore with ⟨-, hmore⟩ | ⟨s, rfl, -, hmore⟩
    · obtain ⟨opener, inner, closer, hopen, hinner, hclose, rfl⟩ := exists_of_written_braced hmore
      exact balanced_braced hopen (balanced_printList body inner hcanonical hinner) hclose
    · rw [canonicalList, Bool.and_eq_true] at hcanonical
      exact balanced_print s more hcanonical.1 hmore

/-- Printed clauses are well bracketed. -/
theorem balanced_printClauses : ∀ (cs : List Clause) (ts : List Token), canonicalClauses cs = true →
    Written (printClauses cs) ts → Balanced ts
  | [], ts, _, hwritten => by
    obtain rfl := written_nil.mp hwritten
    exact .nil
  | .mk _ isDefault header body :: rest, ts, hcanonical, hwritten => by
    simp only [canonicalClauses, Bool.and_eq_true] at hcanonical
    obtain ⟨⟨hheader, hbody⟩, hrest⟩ := hcanonical
    obtain ⟨keyword, colon, inner, more, hkeyword, hcolon, hinner, hmore, rfl⟩ :=
      exists_of_written_clause hwritten
    have hinner := balanced_printList body inner hbody hinner
    have hmore := balanced_printClauses rest more hrest hmore
    exact .plain (isPlain_of_isKeyword hkeyword) ((of_isClauseHeader hheader).2.balanced.append
      (.plain (isPlain_of_isOp hcolon (by decide)) (hinner.append hmore)))

end

end Statement

end GoIdiom
