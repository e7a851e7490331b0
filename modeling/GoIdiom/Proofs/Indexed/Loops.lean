import GoIdiom.Proofs.Indexed.Spans

/-!
# Loops and searches over a run

Over a run that spans a range the loops find what the list readers cut off: where a run ends outside brackets, the
parts between separators, the tokens that begin something, the brace of a body and the brace of a block. Every
look-up on the way succeeds, and every loop goes on with a later index.
-/

namespace GoIdiom

open Token

namespace Except

variable {ε ε' α β : Type}

/-- A step after a success takes its result. -/
@[simp] theorem ok_bind (a : α) (f : α → Except ε β) : (Except.ok a >>= f) = f a := rfl

/-- A change of the fault leaves a result as it is. -/
@[simp] theorem mapError_ok (a : α) (g : ε → ε') : (Except.ok a).mapError g = .ok a := rfl

/-- The faults of two steps are changed step by step. -/
theorem mapError_bind (x : Except ε α) (f : α → Except ε β) (g : ε → ε') :
    (x >>= f).mapError g = x.mapError g >>= fun a => (f a).mapError g := by
  cases x <;> rfl

end Except

/-- A loop goes on with a later index. -/
theorem Stop.advance_eq {index next : Nat} (h : index < next) : advance index next = .ok ⟨next, h⟩ := dif_pos h

open Stop (advance advance_eq)

namespace Pairing

variable {p : Pairing} {index stop : Nat} {t previous : Token} {run rest : List Token}

namespace Spans

/-- A run spans as many indices as it has tokens. -/
theorem lt_stop (hstop : index + (t :: rest).length = stop) : index < stop := by
  rw [List.length_cons] at hstop
  omega

/-- After the first piece the rest of a run still ends at the same index. -/
theorem PieceAt.stop_eq (hstop : index + (t :: rest).length = stop) :
    index + (takePiece t rest).1.length + (takePiece t rest).2.length = stop := by
  have hlength := congrArg List.length (takePiece_append t rest)
  rw [List.length_append] at hlength
  omega

/-- A loop ends where the run ends outside brackets. -/
theorem scan_eq (h : p.Spans index run) (hstop : index + run.length = stop) (stops : Token → Bool) :
    p.scan stops index stop = .ok (index + (spanTop stops run).1.length) := by
  fun_induction Token.spanTop stops run generalizing index with
  | case1 =>
    rw [scan, if_neg (by simp at hstop; omega)]
    rfl
  | case2 t rest ht =>
    rw [scan, if_pos (lt_stop hstop), h.token_head, Except.ok_bind, if_pos ht]
    rfl
  | case3 t rest ht piece more =>
    rename_i ih
    have hpiece := h.pieceAt
    rw [scan, if_pos (lt_stop hstop), h.token_head, Except.ok_bind, if_neg ht, hpiece.skip, advance_eq hpiece.lt,
      Except.ok_bind]
    dsimp only
    rw [ih hpiece.after (PieceAt.stop_eq hstop), List.length_append, Nat.add_assoc]

/-- The statement at an index ends where its run does. -/
theorem statementEnd_eq (h : p.Spans index run) (hstop : index + run.length = stop) :
    p.statementEnd index stop = .ok (index + (spanTop (·.isSemi) run).1.length) := by
  have hlength := congrArg List.length (spanTop_append (·.isSemi) run)
  rw [List.length_append] at hlength
  rw [statementEnd, h.scan_eq hstop, Except.ok_bind, Nat.min_eq_left (by omega)]
  rfl

end Spans

/-! ## Tokens that begin something -/

/-- The indices of the tokens outside brackets that begin something, in a run at an index. -/
def startsOf (begins : Token → Bool) (index : Nat) : List Token → List Nat
  | [] => []
  | t :: rest =>
    if begins t then index :: startsOf begins (index + 1) rest
    else startsOf begins (index + (takePiece t rest).1.length) (takePiece t rest).2
termination_by run => run.length
decreasing_by
  · simp
  · have := takePiece_length t rest
    simp only [List.length_cons]
    omega

/-- Nothing begins before the first token that begins something. -/
theorem startsOf_spanTop (begins : Token → Bool) (index : Nat) (run : List Token) : startsOf begins index run =
    startsOf begins (index + (spanTop begins run).1.length) (spanTop begins run).2 := by
  fun_induction Token.spanTop begins run generalizing index with
  | case1 => rfl
  | case2 => rfl
  | case3 t rest ht piece more ih =>
    rw [startsOf, if_neg ht, ih, List.length_append, Nat.add_assoc]

/-- The first token that begins something is where the tokens before it end, and so is the end if there is none. -/
theorem headD_startsOf (begins : Token → Bool) (hstop : index + run.length = stop) :
    (startsOf begins index run).headD stop = index + (spanTop begins run).1.length := by
  have hlength := congrArg List.length (spanTop_append begins run)
  rw [List.length_append] at hlength
  rw [startsOf_spanTop]
  cases hfound : (spanTop begins run).2 with
  | nil =>
    rw [hfound, List.length_nil] at hlength
    rw [startsOf, List.headD_nil]
    omega
  | cons t rest =>
    rw [startsOf, if_pos (spanTop_stops hfound)]
    rfl

namespace Spans

/-- The tokens of a run that begin something are found at their indices. -/
theorem starts_eq (h : p.Spans index run) (hstop : index + run.length = stop) (begins : Token → Bool) :
    p.starts begins index stop = .ok (startsOf begins index run) := by
  fun_induction startsOf begins index run with
  | case1 =>
    rw [starts, if_neg (by simp at hstop; omega)]
    rfl
  | case2 index t rest ht ih =>
    rw [starts, if_pos (lt_stop hstop), h.token_head, Except.ok_bind, if_pos ht, advance_eq (Nat.lt_succ_self _),
      Except.ok_bind]
    dsimp only
    rw [ih h.tail (by rw [List.length_cons] at hstop; omega)]
    rfl
  | case3 index t rest ht ih =>
    have hpiece := h.pieceAt
    rw [starts, if_pos (lt_stop hstop), h.token_head, Except.ok_bind, if_neg ht, hpiece.skip, advance_eq hpiece.lt,
      Except.ok_bind]
    exact ih hpiece.after (PieceAt.stop_eq hstop)

end Spans

/-! ## Parts between separators -/

/-- The ranges of parts that begin at an index, each with one token behind it. The first part has begun earlier. -/
def rangesOf (first index : Nat) : List (List Token × Option Token) → List Range
  | [] => []
  | (part, _) :: rest =>
    ⟨first, index + part.length⟩ :: rangesOf (index + part.length + 1) (index + part.length + 1) rest

/-- A run without tokens is one empty part. -/
theorem endedParts_nil (separates : Token → Bool) : endedParts separates [] = [([], none)] := by
  have hspan : spanTop separates [] = ([], []) := by rw [spanTop]
  rw [endedParts]
  split
  · next h =>
    rw [hspan] at h
    cases h
    rfl
  · next h =>
    rw [hspan] at h
    cases h

/-- A separator ends an empty part. -/
theorem endedParts_of_separates {separates : Token → Bool} (ht : separates t = true) (rest : List Token) :
    endedParts separates (t :: rest) = ([], some t) :: endedParts separates rest := by
  have hspan : spanTop separates (t :: rest) = ([], t :: rest) := by rw [spanTop, if_pos ht]
  rw [endedParts]
  split
  · next h => rw [hspan] at h; cases h
  · next h =>
    rw [hspan] at h
    cases h
    rfl

/-- A piece that is no separator belongs to the first part. -/
theorem rangesOf_piece {separates : Token → Bool} (ht : ¬separates t = true) (rest : List Token)
    (first index : Nat) : rangesOf first index (endedParts separates (t :: rest)) =
      rangesOf first (index + (takePiece t rest).1.length) (endedParts separates (takePiece t rest).2) := by
  have hspan : spanTop separates (t :: rest) = ((takePiece t rest).1 ++ (spanTop separates (takePiece t rest).2).1,
      (spanTop separates (takePiece t rest).2).2) := by rw [spanTop, if_neg ht]
  rw [endedParts, endedParts.eq_def separates (takePiece t rest).2]
  split
  · next h =>
    rw [hspan] at h
    split
    · next h' =>
      rw [h'] at h
      cases h
      simp only [rangesOf, List.length_append, Nat.add_assoc]
    · next h' =>
      rw [h'] at h
      cases h
  · next h =>
    rw [hspan] at h
    split
    · next h' =>
      rw [h'] at h
      cases h
    · next h' =>
      rw [h'] at h
      cases h
      simp only [rangesOf, List.length_append, Nat.add_assoc]

namespace Spans

/-- The ranges between separators are those of the parts. -/
theorem ranges_eq (h : p.Spans index run) (hstop : index + run.length = stop) (separates : Token → Bool)
    (first : Nat) :
    p.ranges separates first index stop = .ok (rangesOf first index (endedParts separates run)) := by
  -- The loop takes the same steps as the one that collects the separators.
  fun_induction startsOf separates index run generalizing first with
  | case1 =>
    rw [ranges, if_neg (by simp at hstop; omega), endedParts_nil, ← hstop]
    rfl
  | case2 index t rest ht ih =>
    rw [ranges, if_pos (lt_stop hstop), h.token_head, Except.ok_bind, if_pos ht, advance_eq (Nat.lt_succ_self _),
      Except.ok_bind, endedParts_of_separates ht]
    dsimp only
    rw [ih h.tail (by rw [List.length_cons] at hstop; omega)]
    rfl
  | case3 index t rest ht ih =>
    have hpiece := h.pieceAt
    rw [ranges, if_pos (lt_stop hstop), h.token_head, Except.ok_bind, if_neg ht, hpiece.skip, advance_eq hpiece.lt,
      Except.ok_bind, rangesOf_piece ht]
    exact ih hpiece.after (PieceAt.stop_eq hstop) first

end Spans

end Pairing

end GoIdiom
