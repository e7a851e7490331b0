import GoIdiom.Proofs.Brackets
import GoIdiom.Proofs.Cancellation.Divergence

/-!
# Loops without a condition

A loop whose header has an init and a post statement and nothing between their semicolons goes on until it is
left, as one without a header does. Its flow is never safe, since a header with tokens in it counts as a
condition. So both loops have one flow, and goroutines that consist of them are accepted alike, exactly when the
loop without a header is not safe and not accepted either.
-/

namespace GoIdiom.Cancellation

open Token

section Operands

variable {ts : List Token} {t : Token}

/-- A closing bracket is round or square when the one that it closes is. -/
theorem isOpIn_of_closes {opener closer : Token} (h : Closes opener closer) :
    closer.isOpIn [")", "]"] = opener.isOpIn ["(", "["] := by
  obtain ⟨hopen, hclose, htext⟩ := h
  rw [isOpener, isOpIn, Bool.and_eq_true] at hopen
  rw [isCloser, isOpIn, Bool.and_eq_true] at hclose
  have hmem : opener.text ∈ ["(", "[", "\x7b"] := List.contains_iff_mem.mp hopen.2
  rw [isOpIn, isOpIn, hopen.1, hclose.1, ← htext]
  revert hmem
  simp only [List.mem_cons, List.not_mem_nil, or_false]
  rintro (h | h | h) <;> rw [h] <;> decide

/-- A token that is none of some operators is none of fewer. -/
theorem isOpIn_subset {texts more : List String} (hsub : texts ⊆ more) (h : t.isOpIn more = false) :
    t.isOpIn texts = false := by
  rw [isOpIn, Bool.and_eq_false_iff] at h ⊢
  refine h.imp_right fun h => ?_
  rw [← Bool.not_eq_true, List.contains_iff_mem] at h ⊢
  exact fun hmem => h (hsub hmem)

/-- A token that is one of some operators is no other one. -/
theorem isOp_of_isOpIn {texts : List String} {text : String} (h : t.isOpIn texts = true) (htext : text ∉ texts) :
    t.isOp text = false := by
  rw [isOpIn, Bool.and_eq_true, List.contains_iff_mem] at h
  rw [isOp, Bool.and_eq_false_iff]
  exact .inr (beq_false_of_ne fun heq => htext (heq ▸ h.2))

/-- An operator is no name. -/
theorem isIdent_of_isOpIn {texts : List String} (h : t.isOpIn texts = true) : t.isIdent = false := by
  rw [isOpIn, Bool.and_eq_true, beq_iff_eq] at h
  rw [isIdent, h.1]
  rfl

/-- Inside brackets every token goes into the operand. -/
theorem operandFrom_succ_cons (depth : Nat) : operandFrom (depth + 1) (t :: ts) =
    t :: operandFrom (if t.isOpIn ["(", "["] then depth + 2 else if t.isOpIn [")", "]"] then depth else depth + 1)
      ts := by
  rw [operandFrom]
  split <;> rfl

/-- Outside brackets an operand goes on at names, points and groups. -/
theorem operand_cons : operand (t :: ts) =
    if t.isOpIn ["(", "["] then t :: operandFrom 1 ts
    else if t.isIdent || t.isOp "." then t :: operand ts else [] := by
  rw [operand, operandFrom]
  rfl

/-- A bracket that does not open a group of an operand ends it. -/
theorem operand_bracket {texts : List String} (h : t.isOpIn texts = true) (hpoint : "." ∉ texts)
    (hround : t.isOpIn ["(", "["] = false) : operand (t :: ts) = [] := by
  rw [operand_cons, hround, isIdent_of_isOpIn h, isOp_of_isOpIn h hpoint]
  rfl

/-- Inside brackets an operand takes a well bracketed run whole. -/
theorem operandFrom_append (h : Balanced ts) (depth : Nat) (us : List Token) :
    operandFrom (depth + 1) (ts ++ us) = ts ++ operandFrom (depth + 1) us := by
  induction h generalizing depth us with
  | nil => rfl
  | @plain t ts ht _ ih =>
    obtain ⟨hopen, hclose⟩ := isPlain_iff.mp ht
    have hround : t.isOpIn ["(", "["] = false := isOpIn_subset (by decide) hopen
    have hends : t.isOpIn [")", "]"] = false := isOpIn_subset (by decide) hclose
    rw [List.cons_append, operandFrom_succ_cons, hround, hends, if_neg Bool.false_ne_true,
      if_neg Bool.false_ne_true, ih, List.cons_append]
  | @group opener closer inner ts h _ _ ihinner ih =>
    have hopens : closer.isOpIn ["(", "["] = false := isOpIn_subset (by decide) h.isOpener_closer
    have hends : opener.isOpIn [")", "]"] = false := isOpIn_subset (by decide) (isCloser_of_isOpener h.1)
    rw [List.cons_append, List.append_assoc, List.cons_append, operandFrom_succ_cons, hends,
      if_neg Bool.false_ne_true, List.cons_append, List.append_assoc, List.cons_append]
    -- A group in braces opens no level of its own, so the one around it goes on through it.
    cases hround : opener.isOpIn ["(", "["] with
    | true =>
      rw [if_pos rfl, ihinner, operandFrom_succ_cons, hopens, isOpIn_of_closes h, hround, if_neg Bool.false_ne_true,
        if_pos rfl, ih]
    | false =>
      rw [if_neg Bool.false_ne_true, ihinner, operandFrom_succ_cons, hopens, isOpIn_of_closes h, hround,
        if_neg Bool.false_ne_true, if_neg Bool.false_ne_true, ih]

/-- An operand ends with a well bracketed run when what follows does not go on with it. -/
theorem operand_append (h : Balanced ts) {us : List Token} (hus : operand us = []) :
    operand (ts ++ us) = operand ts := by
  induction h with
  | nil => exact hus
  | @plain t ts ht _ ih =>
    have hround : t.isOpIn ["(", "["] = false := isOpIn_subset (by decide) (isPlain_iff.mp ht).1
    rw [List.cons_append, operand_cons, operand_cons, hround, if_neg Bool.false_ne_true, if_neg Bool.false_ne_true,
      ih]
  | @group opener closer inner ts h hinner _ _ ih =>
    have hopens : closer.isOpIn ["(", "["] = false := isOpIn_subset (by decide) h.isOpener_closer
    rw [List.cons_append, List.append_assoc, List.cons_append]
    cases hround : opener.isOpIn ["(", "["] with
    | false => rw [operand_bracket h.1 (by decide) hround, operand_bracket h.1 (by decide) hround]
    | true =>
      rw [operand_cons, operand_cons, hround, if_pos rfl, if_pos rfl, operandFrom_append hinner,
        operandFrom_append hinner, operandFrom_succ_cons, operandFrom_succ_cons, hopens, isOpIn_of_closes h, hround,
        if_neg Bool.false_ne_true, if_pos rfl]
      exact congrArg (fun rest => opener :: (inner ++ closer :: rest)) ih

/-- No bracket is an arrow. -/
theorem receivesAfter_bracket {texts : List String} (h : t.isOpIn texts = true) (harrow : "<-" ∉ texts)
    (previous : Option Token) : receivesAfter previous (t :: ts) = receivesAfter (some t) ts := by
  rw [receivesAfter, isOp_of_isOpIn h harrow]
  rfl

/-- A run receives from a signal when a well bracketed run at its head does, or what follows and does not go on
with an operand. -/
theorem receivesAfter_append (h : Balanced ts) (previous : Option Token) {us : List Token} (hus : operand us = []) :
    receivesAfter previous (ts ++ us) =
      (receivesAfter previous ts || receivesAfter (ts.getLast?.or previous) us) := by
  induction h generalizing previous us with
  | nil => rfl
  | @plain t ts ht hts ih =>
    rw [List.cons_append, receivesAfter, receivesAfter, operand_append hts hus, ih (some t) hus, ← Bool.or_assoc,
      List.getLast?_cons, Option.or_some, Option.some_or]
  | @group opener closer inner ts h hinner hts ihinner ih =>
    have hround : closer.isOpIn ["(", "["] = false := isOpIn_subset (by decide) h.isOpener_closer
    have inside (us : List Token) : receivesAfter previous (opener :: (inner ++ closer :: us)) =
        (receivesAfter (some opener) inner || receivesAfter (some closer) us) := by
      rw [receivesAfter_bracket h.1 (by decide), ihinner _ (operand_bracket h.2.1 (by decide) hround),
        receivesAfter_bracket h.2.1 (by decide)]
    rw [List.cons_append, List.append_assoc, List.cons_append, inside, inside, ih (some closer) hus, Bool.or_assoc,
      List.getLast?_cons, List.getLast?_append, List.getLast?_cons, Option.or_some]
    rfl

end Operands

/-- A token in front of a run that precludes no receive is as good as none. -/
theorem receivesAfter_of_not_precludes {previous : Token} (h : precludesReceive previous = false)
    (ts : List Token) : receivesAfter (some previous) ts = receives ts := by
  cases ts with
  | nil => rfl
  | cons t rest => rw [receives, receivesAfter, receivesAfter, Option.any_some, h, Option.any_none]

/-- A run without the keyword ranges over nothing. -/
theorem ranges_of_forall {ts : List Token} (h : ∀ t ∈ ts, t.isKeyword "range" = false) : ranges ts = false := by
  induction ts with
  | nil => rfl
  | cons t rest ih =>
    obtain ⟨ht, hrest⟩ := List.forall_mem_cons.mp h
    rw [ranges, ht, if_neg Bool.false_ne_true, ih hrest]

/-- A header of two tokens or more counts as a condition. -/
theorem isInfinite_of_two_le {ts : List Token} (h : 2 ≤ ts.length) : isInfinite ts = false := by
  match ts with
  | [] | [_] => exact absurd h (by simp)
  | _ :: _ :: _ => rfl

section Semicolons

variable {t : Token} (h : t.isSemi = true)

include h

/-- No semicolon is an operator. -/
theorem isOpIn_of_isSemi (texts : List String) : t.isOpIn texts = false := by
  rw [isOpIn, beq_iff_eq.mp h]
  rfl

/-- No semicolon is a keyword. -/
theorem isKeyword_of_isSemi (text : String) : t.isKeyword text = false := by
  rw [isKeyword, beq_iff_eq.mp h]
  rfl

/-- An operand ends in front of a semicolon. -/
theorem operand_semi (ts : List Token) : operand (t :: ts) = [] := by
  rw [operand_cons, isOpIn_of_isSemi h, isIdent, isOp, beq_iff_eq.mp h]
  rfl

/-- A receive may stand behind a semicolon. -/
theorem receivesAfter_semi (previous : Option Token) (ts : List Token) :
    receivesAfter previous (t :: ts) = receives ts := by
  have hprecludes : precludesReceive t = false := by rw [precludesReceive, beq_iff_eq.mp h]
  rw [receivesAfter, isOp, beq_iff_eq.mp h, receivesAfter_of_not_precludes hprecludes]
  rfl

end Semicolons

section Headers

variable {init post : List Token} {first second : Token} (hinit : Balanced init) (hfirst : first.isSemi = true)
  (hsecond : second.isSemi = true) (hinitWait : receives init = false) (hpostWait : receives post = false)
  (hrange : ∀ t ∈ init ++ post, t.isKeyword "range" = false)

include hinit hfirst hsecond hinitWait hpostWait hrange

/-- A loop without a condition whose init and post statement do not wait is passed by, whatever its body does. -/
theorem flow_of_conditionless (place : Place) (literals : List FuncLiteral) (body : List Statement) :
    statementFlow (.loop place (init ++ first :: second :: post) literals body) = .open' := by
  have hreceives : receives (init ++ first :: second :: post) = false := by
    rw [receives, receivesAfter_append hinit _ (operand_semi hfirst _), receivesAfter_semi hfirst, receives,
      receivesAfter_semi hsecond, hpostWait, Bool.or_false]
    exact hinitWait
  have hranges : ranges (init ++ first :: second :: post) = false := by
    obtain ⟨hleft, hright⟩ := List.forall_mem_append.mp hrange
    refine ranges_of_forall (List.forall_mem_append.mpr ⟨hleft, ?_⟩)
    exact List.forall_mem_cons.mpr ⟨isKeyword_of_isSemi hfirst _,
      List.forall_mem_cons.mpr ⟨isKeyword_of_isSemi hsecond _, hright⟩⟩
  have hbounded : isInfinite (init ++ first :: second :: post) = false :=
    isInfinite_of_two_le (by simp only [List.length_append, List.length_cons]; omega)
  rw [statementFlow_loop, hreceives, hranges, hbounded]
  rfl

/-- A loop with an init and a post statement that do not wait, and without a condition, has the flow of the loop
without a header exactly when that loop is not safe; and goroutines that consist of the one and of the other are
accepted alike exactly when neither is. -/
theorem conditionless_flow_iff (place bare : Place) (literals : List FuncLiteral) (body : List Statement) :
    let counting : Statement := .loop place (init ++ first :: second :: post) literals body
    let endless : Statement := .loop bare [] [] body
    (statementFlow counting = statementFlow endless ↔ (statementFlow endless).safe = false) ∧
      (waitsForCancellation [counting] = waitsForCancellation [endless] ↔
        waitsForCancellation [endless] = false) := by
  intro counting endless
  have hflow : statementFlow counting = .open' :=
    flow_of_conditionless hinit hfirst hsecond hinitWait hpostWait hrange place literals body
  have hcounting : waitsForCancellation [counting] = false := by
    rw [waitsForCancellation, safe_singleton rfl, hflow]
    exact Bool.and_false _
  have hbreaks : (statementFlow endless).breaks = false := rfl
  constructor
  · rw [hflow]
    refine ⟨fun h => h ▸ rfl, fun hsafe => ?_⟩
    change Flow.open' = ⟨(statementFlow endless).safe, (statementFlow endless).breaks⟩
    rw [hsafe, hbreaks]
    rfl
  · rw [hcounting]
    exact eq_comm

end Headers

/-- The statement `i := 0`. -/
def countFromZero : List Token := [⟨.ident, "i", 1, 5⟩, ⟨.op, ":=", 1, 7⟩, ⟨.number, "0", 1, 10⟩]

/-- The statement `i++`. -/
def countOn : List Token := [⟨.ident, "i", 1, 15⟩, ⟨.op, "++", 1, 16⟩]

/-- A semicolon as written. -/
def semicolon (col : Nat) : Token := ⟨.semi, ";", 1, col⟩

/-- The loops `for i := 0; ; i++ { if idle { break }; <-done }` and `for { if idle { break }; <-done }` are both
left by the break, so they have one flow and neither is accepted. -/
theorem conditionless_flow_iff_idleBreak :
    let body : List Statement :=
      [.branch ⟨none, ⟨2, 1⟩, 4⟩ [⟨.ident, "idle", 2, 4⟩] []
        [.plain ⟨none, ⟨3, 1⟩, 3⟩ .break [⟨.keyword, "break", 3, 1⟩] []] none,
       waitOnDone 5]
    let counting : Statement :=
      .loop ⟨none, ⟨1, 1⟩, 6⟩ (countFromZero ++ semicolon 11 :: semicolon 13 :: countOn) [] body
    let endless : Statement := .loop ⟨none, ⟨1, 1⟩, 6⟩ [] [] body
    Balanced countFromZero ∧ receives countFromZero = false ∧ receives countOn = false ∧
      (∀ t ∈ countFromZero ++ countOn, t.isKeyword "range" = false) ∧
      statementFlow counting = statementFlow endless ∧
      waitsForCancellation [counting] = waitsForCancellation [endless] := by
  intro body counting endless
  have hinit : Balanced countFromZero := .plain (by decide) (.plain (by decide) (.plain (by decide) .nil))
  have hinitWait : receives countFromZero = false := by decide
  have hpostWait : receives countOn = false := by decide
  have hrange : ∀ t ∈ countFromZero ++ countOn, t.isKeyword "range" = false := by decide
  have hfirst : (semicolon 11).isSemi = true := rfl
  have hsecond : (semicolon 13).isSemi = true := rfl
  obtain ⟨hflow, haccepted⟩ := conditionless_flow_iff hinit hfirst hsecond hinitWait hpostWait hrange
    ⟨none, ⟨1, 1⟩, 6⟩ ⟨none, ⟨1, 1⟩, 6⟩ [] body
  exact ⟨hinit, hinitWait, hpostWait, hrange, hflow.mpr (by decide +kernel), haccepted.mpr (by decide +kernel)⟩

/-- The loops `for ;; { <-done }` and `for i := 0; ; i++ { <-done }` wait in each round as `for { <-done }` does,
but are not safe and not accepted. -/
theorem conditionless_flow_differs :
    let endless : Statement := .loop ⟨none, ⟨1, 1⟩, 3⟩ [] [] [waitOnDone 2]
    let bare : Statement := .loop ⟨none, ⟨1, 1⟩, 3⟩ [semicolon 5, semicolon 6] [] [waitOnDone 2]
    let counting : Statement :=
      .loop ⟨none, ⟨1, 1⟩, 3⟩ (countFromZero ++ semicolon 11 :: semicolon 13 :: countOn) [] [waitOnDone 2]
    statementFlow endless = ⟨true, false⟩ ∧ waitsForCancellation [endless] = true ∧
      statementFlow bare = ⟨false, false⟩ ∧ waitsForCancellation [bare] = false ∧
      receives countFromZero = false ∧ receives countOn = false ∧
      statementFlow counting = ⟨false, false⟩ ∧ waitsForCancellation [counting] = false := by
  decide +kernel

end GoIdiom.Cancellation
