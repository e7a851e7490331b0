import GoIdiom.ErrorValue
import GoIdiom.Proofs.Relocation.Flow

/-!
# Calls and error values in moved tokens

The calls and comparisons of a run move along with it, and what they say does not change.
-/

namespace GoIdiom.Relocation

variable (m : Relocation)

/-- A call at its new place. -/
def call (c : Call) : Call :=
  ⟨c.callee.map m.token, c.arguments.map (List.map m.token), c.tokens.map m.token, c.isWholeRun⟩

/-- A comparison at its new place. -/
def comparison (c : Comparison) : Comparison := ⟨c.before.map m.token, m.token c.op, c.right.map m.token⟩

section Calls

/-- The selector chain before a bracket moves with its tokens. -/
@[simp] theorem chainBack_map (ts : List Token) :
    Call.chainBack (ts.map m.token) = m.cut (Call.chainBack ts) := by
  fun_induction Call.chainBack ts with
  | case1 name dot selected rest h chain before hrest ih =>
    simp only [List.map_cons, Call.chainBack, isOp_token, isIdent_token] at ih ⊢
    rw [if_pos h, ih, hrest]
    simp [cut]
  | case2 name dot selected rest h =>
    simp only [List.map_cons, Call.chainBack, isOp_token, isIdent_token]
    rw [if_neg h]
    rfl
  | case3 name rest h =>
    cases rest with
    | nil => rfl
    | cons dot more =>
      cases more with
      | nil => rfl
      | cons selected rest => exact absurd rfl (h dot selected rest)
  | case4 => rfl

/-- The callee of a call begins with a name. -/
theorem chainBack_eq_cons {name : Token} (rest : List Token) (h : name.isIdent = true) :
    ∃ first more, (Call.chainBack (name :: rest)).1 = first :: more ∧ first.isIdent = true := by
  match rest with
  | [] => exact ⟨name, [], rfl, h⟩
  | [_] => exact ⟨name, [], rfl, h⟩
  | dot :: selected :: rest =>
    rw [Call.chainBack]
    split
    · next hcond =>
      obtain ⟨first, more, heq, hfirst⟩ := chainBack_eq_cons rest (Bool.and_eq_true_iff.mp hcond).2
      exact ⟨first, more ++ [dot, name], by simp [heq], hfirst⟩
    · exact ⟨name, [], rfl, h⟩

/-- The calls listed from some tokens on move with them. -/
theorem listFrom_map (before ts : List Token) : Call.listFrom (before.map m.token) (ts.map m.token) =
    (Call.listFrom before ts).map m.call := by
  induction ts generalizing before with
  | nil => rfl
  | cons t rest ih =>
    have ih := ih (t :: before)
    rw [List.map_cons] at ih
    simp only [List.map_cons, Call.listFrom, ih, isOp_token, List.head?_map, Option.any_map, isIdent_token,
      closeGroup_map, chainBack_map, cut, List.map_append]
    congr 1
    split
    · cases Token.closeGroup rest with
      | none => rfl
      | some g => simp [group, call]
    · rfl

/-- The calls of some tokens move with them. -/
@[simp] theorem calls_map (ts : List Token) : Call.list (ts.map m.token) = (Call.list ts).map m.call :=
  m.listFrom_map [] ts

/-- The callee of a listed call begins with an identifier. -/
theorem isIdent_first_of_mem_listFrom {before ts : List Token} {c : Call} (h : c ∈ Call.listFrom before ts) :
    ∃ first more, c.callee = first :: more ∧ first.isIdent = true := by
  induction ts generalizing before with
  | nil => exact absurd h List.not_mem_nil
  | cons t rest ih =>
    rw [Call.listFrom, List.mem_append] at h
    refine h.elim (fun h => ?_) ih
    split at h
    · next hcond =>
      split at h
      · rw [List.mem_singleton.mp h]
        match before with
        | [] => exact absurd (Bool.and_eq_true_iff.mp hcond).2 Bool.false_ne_true
        | name :: before => exact chainBack_eq_cons before (Bool.and_eq_true_iff.mp hcond).2
      · exact absurd h List.not_mem_nil
    · exact absurd h List.not_mem_nil

/-- A call begins with a name. -/
theorem isIdent_first_of_mem {ts : List Token} {c : Call} (h : c ∈ Call.list ts) :
    ∃ first more, c.callee = first :: more ∧ first.isIdent = true :=
  isIdent_first_of_mem_listFrom h

section Call

variable (c : Call)

/-- A moved call has the same name. -/
@[simp] theorem name_call : (m.call c).name = c.name := m.render_map c.callee

/-- A moved call has the same last name. -/
@[simp] theorem lastName_call : (m.call c).lastName = c.lastName := by
  rw [Call.lastName, name_call, Call.lastName]

/-- A moved call has the same receiver. -/
@[simp] theorem receiver_call : (m.call c).receiver = c.receiver := by
  rw [Call.receiver, name_call, Call.receiver]

/-- Where a call begins moves along. -/
theorem first_call {ts : List Token} {c : Call} (h : c ∈ Call.list ts) :
    (m.call c).first.pos = m.written c.first.pos ∧ (m.call c).first.line = c.first.line + m.shift := by
  obtain ⟨first, more, heq, hfirst⟩ := isIdent_first_of_mem h
  rw [Call.first, Call.first, call, heq]
  exact ⟨m.pos_token_of_isIdent hfirst, m.line_token first⟩

end Call

/-- A list is one whole call after the move exactly when it is before, with the same parts moved. -/
@[simp] theorem whole?_map (ts : List Token) : Call.whole? (ts.map m.token) =
    (Call.whole? ts).map m.cut := by
  simp only [Call.whole?, List.getLast?_map, Option.any_map, isOp_token, lastGroup?_map]
  split
  · cases Token.lastGroup? ts with
    | none => rfl
    | some parts =>
      simp only [Option.map_some, List.getLast?_map, Option.any_map, isIdent_token, isOpIn_token]
      split <;> rfl
  · rfl

/-- Moved tokens are a type assertion exactly when the tokens are. -/
@[simp] theorem isTypeAssertion_map (ts : List Token) :
    Call.isTypeAssertion (ts.map m.token) = Call.isTypeAssertion ts := by
  simp only [Call.isTypeAssertion, List.getLast?_map, Option.any_map, isOp_token, lastGroup?_map]

end Calls

section Comparisons

/-- The comparisons listed from some tokens on move with them. -/
theorem comparisonsFrom_map (before ts : List Token) :
    Comparison.listFrom (before.map m.token) (ts.map m.token) =
      (Comparison.listFrom before ts).map m.comparison := by
  induction ts generalizing before with
  | nil => rfl
  | cons t rest ih =>
    have ih := ih (t :: before)
    rw [List.map_cons] at ih
    simp only [List.map_cons, Comparison.listFrom, isOpIn_token, List.isEmpty_map, operand_map, ih]
    split <;> rfl

/-- The comparisons of some tokens move with them. -/
@[simp] theorem comparisons_map (ts : List Token) :
    Comparison.list (ts.map m.token) = (Comparison.list ts).map m.comparison :=
  m.comparisonsFrom_map [] ts

section Comparison

variable (c : Comparison)

/-- The right side of a moved comparison is the same text. -/
@[simp] theorem rightText_comparison : (m.comparison c).rightText = c.rightText := m.render_map c.right

/-- The right side of a moved comparison is an error exactly when the right side is. -/
@[simp] theorem rightIsError_comparison : (m.comparison c).rightIsError = c.rightIsError := by
  obtain ⟨before, op, right⟩ := c
  match right with
  | [] => rfl
  | [_] => rfl
  | _ :: _ :: _ => rfl

/-- The left side of a moved comparison is the same text. -/
@[simp] theorem text_left_comparison : (m.comparison c).left.text = c.left.text := by
  obtain ⟨before, op, right⟩ := c
  cases before <;> rfl

/-- The left side of a moved comparison is an error exactly when the left side is. -/
@[simp] theorem leftIsError_comparison : (m.comparison c).leftIsError = c.leftIsError := by
  obtain ⟨before, op, right⟩ := c
  cases before <;> rfl

/-- A moved comparison guards as the comparison does. -/
@[simp] theorem guard_comparison : (m.comparison c).guard = c.guard := by
  simp only [Comparison.guard, leftIsError_comparison, rightText_comparison, rightIsError_comparison,
    text_left_comparison]

end Comparison

/-- A moved condition guards as the condition does. -/
@[simp] theorem ofCondition_map (ts : List Token) : Guard.ofCondition (ts.map m.token) = Guard.ofCondition ts := by
  simp only [Guard.ofCondition, render_map, comparisons_map, List.foldl_map, guard_comparison]

/-- A moved statement before a condition guards as the statement does. -/
@[simp] theorem ofInit_map (ts : List Token) : Guard.ofInit (ts.map m.token) = Guard.ofInit ts := by
  rw [Guard.ofInit, cutAssignment_map, Guard.ofInit]
  cases Token.cutAssignment ts with
  | none => rfl
  | some a =>
    simp only [Option.map_some, assignment, render_map, isTypeAssertion_map, List.head?_map, Option.any_map,
      isIdent_token, text_token]

mutual

/-- A name comes next after the move exactly when it does before. -/
theorem isNameNext_map : ∀ ts : List Token, Handling.isNameNext (ts.map m.token) = Handling.isNameNext ts
  | [] => rfl
  | t :: rest => by simp only [List.map_cons, Handling.isNameNext, isIdent_token, isPointNext_map rest]

/-- A point comes next after the move exactly when it does before. -/
theorem isPointNext_map : ∀ ts : List Token, Handling.isPointNext (ts.map m.token) = Handling.isPointNext ts
  | [] => rfl
  | t :: rest => by simp only [List.map_cons, Handling.isPointNext, isOp_token, isNameNext_map rest]

end

/-- A moved call handles an error as the call does. -/
@[simp] theorem ofCall_map (callee : String) (inner : List Token) :
    Handling.ofCall callee (inner.map m.token) = Handling.ofCall callee inner := by
  simp only [Handling.ofCall, List.head?_map, Option.any_map, kind_token, text_token]

/-- A moved expression handles an error as the expression does. -/
@[simp] theorem ofExpression_map (known : String → Bool) (ts : List Token) :
    Handling.ofExpression known (ts.map m.token) = Handling.ofExpression known ts := by
  cases ts with
  | nil => rfl
  | cons first rest =>
    have hrender := m.render_map (first :: rest)
    have hnames := m.isNameNext_map (first :: rest)
    have hassert := m.isTypeAssertion_map (first :: rest)
    have hwhole := m.whole?_map (first :: rest)
    have hlast := List.getLast?_map (f := m.token) (l := first :: rest)
    rw [List.map_cons] at hrender hnames hassert hwhole hlast
    simp only [List.map_cons, Handling.ofExpression, hrender, hnames, hassert, hwhole, hlast, Option.any_map,
      List.isEmpty_map, isIdent_token, text_token, isOp_token]
    cases Call.whole? (first :: rest) with
    | none => rfl
    | some parts => simp only [Option.map_some, cut, render_map, ofCall_map]

end Comparisons

end GoIdiom.Relocation
