import GoIdiom.Proofs.Runs

/-!
# Runs without certain tokens outside brackets

Printed statements are told apart by tokens that stand outside brackets: a semicolon ends a statement, a
brace opens a block, a colon ends the header of a clause and a keyword begins the next one. A run that
has no such token outside brackets is passed over whole by every reader that looks for one.
-/

namespace GoIdiom

namespace Token

/-- How many such tokens stand outside brackets, given how many brackets are open. -/
def countTop (p : Token → Bool) (depth : Int) : List Token → Nat
  | [] => 0
  | t :: rest => (if depth == 0 && p t then 1 else 0) + countTop p (depth + t.depthStep) rest

/-- A well bracketed run without such a token outside brackets. -/
inductive Free (p : Token → Bool) : List Token → Prop
  | nil : Free p []
  | plain {t : Token} {ts : List Token} (ht : t.isPlain = true) (hp : p t = false) (hts : Free p ts) :
      Free p (t :: ts)
  | group {opener closer : Token} {inner ts : List Token} (h : Closes opener closer) (hp : p opener = false)
      (hinner : Balanced inner) (hts : Free p ts) : Free p (opener :: (inner ++ closer :: ts))

section Depth

variable {t : Token}

/-- A plain token does not change the depth of brackets. -/
theorem depthStep_of_isPlain (h : t.isPlain = true) : t.depthStep = 0 := by
  obtain ⟨hopen, hclose⟩ := isPlain_iff.mp h
  rw [depthStep, hopen, hclose, if_neg Bool.false_ne_true, if_neg Bool.false_ne_true]

/-- An opening bracket goes one deeper. -/
theorem depthStep_of_isOpener (h : t.isOpener = true) : t.depthStep = 1 := by
  rw [depthStep, if_pos h]

/-- The closing bracket goes back. -/
theorem depthStep_of_closes {opener : Token} (h : Closes opener t) : t.depthStep = -1 := by
  rw [depthStep, h.isOpener_closer, if_neg Bool.false_ne_true, if_pos h.2.1]

end Depth

section Count

variable {p : Token → Bool} {t : Token} {ts : List Token}

/-- Inside brackets no token counts. -/
theorem Balanced.countTop_append_of_pos (h : Balanced ts) {depth : Int} (hdepth : 0 < depth) (us : List Token) :
    countTop p depth (ts ++ us) = countTop p depth us := by
  have hinside {d : Int} (hd : 0 < d) : (d == 0) = false := beq_eq_false_iff_ne.mpr (by omega)
  induction h generalizing depth us with
  | nil => rfl
  | plain ht _ ih =>
    rw [List.cons_append, countTop, hinside hdepth, depthStep_of_isPlain ht, Int.add_zero, ih hdepth]
    exact Nat.zero_add _
  | @group opener closer inner ts h _ _ ihinner ih =>
    rw [List.cons_append, List.append_assoc, List.cons_append, countTop, hinside hdepth, depthStep_of_isOpener h.1,
      ihinner (by omega), countTop, hinside (by omega), depthStep_of_closes h, Int.add_neg_cancel_right, ih hdepth]
    simp only [Bool.false_and, Bool.false_eq_true, if_false, Nat.zero_add]

/-- Outside brackets a plain token is counted if it is one of those sought. -/
theorem countTop_plain (ht : t.isPlain = true) (ts : List Token) :
    countTop p 0 (t :: ts) = (if p t then 1 else 0) + countTop p 0 ts := by
  rw [countTop, depthStep_of_isPlain ht, Int.add_zero]
  rfl

/-- Of a group only the opener stands outside brackets. -/
theorem countTop_group {closer : Token} {inner : List Token} (h : Closes t closer) (hinner : Balanced inner)
    (ts : List Token) : countTop p 0 (t :: (inner ++ closer :: ts)) = (if p t then 1 else 0) + countTop p 0 ts := by
  rw [countTop, depthStep_of_isOpener h.1, Int.zero_add, hinner.countTop_append_of_pos Int.one_pos, countTop,
    depthStep_of_closes h, Int.add_right_neg]
  exact congrArg _ (Nat.zero_add _)

end Count

namespace Balanced

variable {p : Token → Bool} {ts : List Token}

/-- Behind a well bracketed run the count goes on outside brackets. -/
theorem countTop_append (h : Balanced ts) (us : List Token) :
    countTop p 0 (ts ++ us) = countTop p 0 ts + countTop p 0 us := by
  induction h with
  | nil => exact (Nat.zero_add _).symm
  | plain ht _ ih => rw [List.cons_append, countTop_plain ht, countTop_plain ht, ih, Nat.add_assoc]
  | group h hinner _ _ ih =>
    rw [List.cons_append, List.append_assoc, List.cons_append, countTop_group h hinner, countTop_group h hinner, ih,
      Nat.add_assoc]

/-- Of a piece only the first token stands outside brackets. -/
theorem countTop_takePiece {t : Token} (h : Balanced (t :: ts)) :
    countTop p 0 (Token.takePiece t ts).1 = if p t then 1 else 0 := by
  cases h with
  | plain ht =>
    rw [Token.takePiece, if_neg (Bool.eq_false_iff.mp (isPlain_iff.mp ht).1), countTop_plain ht]
    rfl
  | group h hinner =>
    rw [Token.takePiece, if_pos h.1, hinner.closeGroup_append h.2.1, countTop_group h hinner]
    rfl

/-- No such token comes before the first cut. -/
theorem countTop_spanTop (h : Balanced ts) : countTop p 0 (Token.spanTop p ts).1 = 0 := by
  fun_induction Token.spanTop p ts with
  | case1 => rfl
  | case2 => rfl
  | case3 t rest ht piece more ih =>
    obtain ⟨hpiece, hrest⟩ := h.takePiece
    rw [hpiece.countTop_append, h.countTop_takePiece, if_neg ht, ih hrest]

/-- All such tokens come behind the first cut. -/
theorem countTop_spanTop_rest (h : Balanced ts) : countTop p 0 (Token.spanTop p ts).2 = countTop p 0 ts := by
  conv => rhs; rw [← spanTop_append p ts]
  rw [(h.spanTop p).1.countTop_append, h.countTop_spanTop, Nat.zero_add]

/-- Counting finds the tokens outside brackets. -/
theorem free (h : Balanced ts) (hnone : countTop p 0 ts = 0) : Free p ts := by
  induction h with
  | nil => exact .nil
  | plain ht _ ih =>
    rw [countTop_plain ht, Nat.add_eq_zero_iff] at hnone
    refine .plain ht ?_ (ih hnone.2)
    simpa using hnone.1
  | group h hinner _ _ ih =>
    rw [countTop_group h hinner, Nat.add_eq_zero_iff] at hnone
    refine .group h ?_ hinner (ih hnone.2)
    simpa using hnone.1

/-- A run that has no such token at all. -/
theorem free_of_forall (h : Balanced ts) (hp : ∀ t ∈ ts, p t = false) : Free p ts := by
  induction h with
  | nil => exact .nil
  | plain ht _ ih =>
    obtain ⟨hhead, htail⟩ := List.forall_mem_cons.mp hp
    exact .plain ht hhead (ih htail)
  | group h hinner _ _ ih =>
    obtain ⟨hhead, htail⟩ := List.forall_mem_cons.mp hp
    exact .group h hhead hinner (ih (List.forall_mem_cons.mp (List.forall_mem_append.mp htail).2).2)

end Balanced

namespace Free

variable {p : Token → Bool} {ts us : List Token}

/-- A run free of some tokens is well bracketed. -/
theorem balanced (h : Free p ts) : Balanced ts := by
  induction h with
  | nil => exact .nil
  | plain ht _ _ ih => exact .plain ht ih
  | group h _ hinner _ ih => exact .group h hinner ih

/-- A run free of some tokens does not begin with one. -/
theorem head {t : Token} (h : Free p (t :: ts)) : p t = false := by
  cases h with
  | plain _ hp _ => exact hp
  | group _ hp _ _ => exact hp

/-- Two runs free of some tokens make one that is. -/
theorem append (hts : Free p ts) (hus : Free p us) : Free p (ts ++ us) := by
  induction hts with
  | nil => exact hus
  | plain ht hp _ ih => exact .plain ht hp ih
  | group h hp hinner _ ih =>
    rw [List.cons_append, List.append_assoc, List.cons_append]
    exact .group h hp hinner ih

/-- In a run free of some tokens none is counted outside brackets. -/
theorem countTop_eq_zero (h : Free p ts) : countTop p 0 ts = 0 := by
  induction h with
  | nil => rfl
  | plain ht hp _ ih => rw [countTop_plain ht, hp, ih]; rfl
  | group h hp hinner _ ih => rw [countTop_group h hinner, hp, ih]; rfl

/-- Fewer tokens are kept out. -/
theorem mono {q : Token → Bool} (h : Free p ts) (hq : ∀ t, p t = false → q t = false) : Free q ts := by
  induction h with
  | nil => exact .nil
  | plain ht hp _ ih => exact .plain ht (hq _ hp) ih
  | group h hp hinner _ ih => exact .group h (hq _ hp) hinner ih

/-- The search for such a token passes over the run. -/
theorem spanTop_append (h : Free p ts) (us : List Token) :
    spanTop p (ts ++ us) = (ts ++ (spanTop p us).1, (spanTop p us).2) := by
  induction h with
  | nil => rfl
  | @plain t ts ht hp _ ih =>
    rw [List.cons_append, spanTop, hp, if_neg Bool.false_ne_true, takePiece, (isPlain_iff.mp ht).1,
      if_neg Bool.false_ne_true]
    dsimp only
    rw [ih]
    rfl
  | @group opener closer inner ts h hp hinner _ ih =>
    rw [List.cons_append, List.append_assoc, List.cons_append, spanTop, hp, if_neg Bool.false_ne_true, takePiece,
      if_pos h.1, hinner.closeGroup_append h.2.1]
    dsimp only
    rw [ih]
    simp only [List.cons_append, List.append_assoc, List.nil_append]

/-- The search ends behind the run at such a token. -/
theorem spanTop_append_cons (h : Free p ts) {t : Token} (ht : p t = true) (us : List Token) :
    spanTop p (ts ++ t :: us) = (ts, t :: us) := by
  rw [h.spanTop_append, spanTop, if_pos ht, List.append_nil]

end Free

end Token

/-- A plain statement ends at the first semicolon outside brackets. -/
theorem Statement.takeRun_eq_spanTop {t : Token} (h : t.isSemi = false) (rest : List Token) :
    takeRun t rest = Token.spanTop (·.isSemi) (t :: rest) := by
  rw [Token.spanTop, h, if_neg Bool.false_ne_true]
  rfl

/-- The block after a header without braces outside brackets is the group of the next brace. -/
theorem Block.afterHeader?_append {previous opener closer : Token} {header inner rest : List Token}
    (hheader : Token.Free (·.isOp "\x7b") header) (hfunc : ∀ t ∈ header, t.isKeyword "func" = false)
    (htypes : ∀ t ∈ header, opensType t = false) (hprevious : opensType previous = false)
    (hopen : opener.isOp "\x7b" = true) (hinner : Token.Balanced inner) (hclose : closer.isCloser = true)
    (hend : endsStatement rest = true) :
    afterHeader? previous (header ++ opener :: (inner ++ closer :: rest)) =
      some ⟨header, opener, inner, closer, rest⟩ := by
  induction hheader generalizing previous with
  | nil =>
    have hgroup := hinner.closeGroup_append hclose rest
    have hnofunc : opener.isKeyword "func" = false := by
      rw [Token.isKeyword, beq_iff_eq.mp (Bool.and_eq_true_iff.mp hopen).1]
      rfl
    rw [List.nil_append, afterHeader?_cons hnofunc, hopen, hprevious, hgroup, Option.any_some, hend,
      ofOpener?, hgroup]
    rfl
  | @plain t ts ht hp _ ih =>
    obtain ⟨htfunc, hfunc⟩ := List.forall_mem_cons.mp hfunc
    obtain ⟨httype, htypes⟩ := List.forall_mem_cons.mp htypes
    rw [List.cons_append, afterHeader?_cons htfunc, hp, Bool.false_and, Bool.false_and, if_neg Bool.false_ne_true,
      Token.takePiece, if_neg (Bool.eq_false_iff.mp (Token.isPlain_iff.mp ht).1), List.getLastD_cons,
      List.getLastD_nil, ih hfunc htypes httype]
    rfl
  | @group opener' closer' inner' ts h hp hinner' _ ih =>
    obtain ⟨htfunc, hfunc⟩ := List.forall_mem_cons.mp hfunc
    obtain ⟨-, htypes⟩ := List.forall_mem_cons.mp htypes
    obtain ⟨hctype, htypes⟩ := List.forall_mem_cons.mp (List.forall_mem_append.mp htypes).2
    have hfunc := (List.forall_mem_cons.mp (List.forall_mem_append.mp hfunc).2).2
    have hlast : (opener' :: (inner' ++ [closer'])).getLastD opener' = closer' := by
      rw [← List.cons_append, List.getLastD_concat]
    rw [List.cons_append, List.append_assoc, List.cons_append, afterHeader?_cons htfunc, hp, Bool.false_and,
      Bool.false_and, if_neg Bool.false_ne_true, Token.takePiece, if_pos h.1, hinner'.closeGroup_append h.2.1]
    dsimp only
    rw [hlast, ih hfunc htypes hctype, Option.map_some, prepend, List.cons_append, List.append_assoc]
    rfl

end GoIdiom
