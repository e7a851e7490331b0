import GoIdiom.Cancellation
import GoIdiom.Proofs.Relocation.Statements

/-!
# Waits in moved statements

Whether tokens receive from a signal, whether they end the goroutine, and the flow of statements do not
change when the tokens are moved.
-/

namespace GoIdiom.Relocation

open Cancellation

variable (m : Relocation)

/-- The operand read from any depth of brackets moves with its tokens. -/
theorem operandFrom_map (depth : Nat) (ts : List Token) :
    operandFrom depth (ts.map m.token) = (operandFrom depth ts).map m.token := by
  induction ts generalizing depth with
  | nil => rfl
  | cons t rest ih =>
    unfold operandFrom
    simp only [List.map_cons, isOpIn_token, isIdent_token, isOp_token, ih]
    split
    · rfl
    · split
      · split <;> rfl
      · rfl

/-- The operand at the start of moved tokens is the moved operand. -/
@[simp] theorem operand_map (ts : List Token) : operand (ts.map m.token) = (operand ts).map m.token :=
  m.operandFrom_map 0 ts

/-- Moved tokens are a signal exactly when the tokens are. -/
@[simp] theorem isSignal_map (ts : List Token) : isSignal (ts.map m.token) = isSignal ts := by
  have hname : ((ts.map m.token).filter (·.isIdent)).getLast? =
      ((ts.filter (·.isIdent)).getLast?).map m.token := by
    rw [List.filter_map, List.getLast?_map]
    rfl
  simp only [isSignal, render_map, List.isEmpty_map, hname]
  cases (ts.filter (·.isIdent)).getLast? <;> rfl

/-- A moved token precludes a receive exactly when the token does. -/
@[simp] theorem precludesReceive_token (t : Token) : precludesReceive (m.token t) = precludesReceive t := rfl

/-- Moved tokens receive after a moved token exactly when they do before. -/
theorem receivesAfter_map (previous : Option Token) (ts : List Token) :
    receivesAfter (previous.map m.token) (ts.map m.token) = receivesAfter previous ts := by
  induction ts generalizing previous with
  | nil => rfl
  | cons t rest ih =>
    have ih := ih (some t)
    rw [Option.map_some] at ih
    simp only [List.map_cons, receivesAfter, isOp_token, Option.any_map, operand_map, isSignal_map, ih,
      precludesReceive_token]

/-- Moved tokens receive exactly when the tokens do. -/
@[simp] theorem receives_map (ts : List Token) : receives (ts.map m.token) = receives ts :=
  m.receivesAfter_map none ts

/-- Moved tokens range over a channel exactly when the tokens do. -/
@[simp] theorem ranges_map (ts : List Token) : ranges (ts.map m.token) = ranges ts := by
  induction ts with
  | nil => rfl
  | cons t rest ih => simp only [List.map_cons, ranges, isKeyword_token, operand_map, isSignal_map, ih]

/-- Moved tokens terminate exactly when the tokens do. -/
@[simp] theorem terminates_map (ts : List Token) : terminates (ts.map m.token) = terminates ts := by
  rw [terminates, render_map, terminates]

/-- The wanted names found in moved tokens are the same. -/
theorem namesFrom_map (wanted : List String) (previous : Option Token) (found : List String)
    (ts : List Token) : namesFrom wanted (previous.map m.token) found (ts.map m.token) =
      namesFrom wanted previous found ts := by
  induction ts generalizing previous found with
  | nil => rfl
  | cons t rest ih =>
    have ih (found : List String) := ih (some t) found
    simp only [Option.map_some] at ih
    simp only [List.map_cons, namesFrom, isIdent_token, Option.any_map, isOp_token, text_token, ih]

/-- A moved body references the same names. -/
@[simp] theorem references_statements (body : List Statement) (wanted : List String) :
    references (m.statements body) wanted = references body wanted := by
  rw [references, listTokens_statements, references]
  exact m.namesFrom_map wanted none [] _

/-- A moved loop header is infinite exactly when the header is. -/
@[simp] theorem isInfinite_map (ts : List Token) : isInfinite (ts.map m.token) = isInfinite ts := by
  match ts with
  | [] => rfl
  | [_] => rfl
  | _ :: _ :: _ => rfl

/-- Moved clauses have a default exactly when the clauses do. -/
@[simp] theorem any_isDefault_clauses (cs : List Clause) :
    (m.clauses cs).any (·.isDefault) = cs.any (·.isDefault) := by
  rw [clauses_eq_map, List.any_map]
  rfl

/-- Moved clauses receive exactly when the clauses do. -/
@[simp] theorem any_clauseReceives_clauses (cs : List Clause) :
    (m.clauses cs).any clauseReceives = cs.any clauseReceives := by
  rw [clauses_eq_map, List.any_map]
  congr 1
  funext c
  exact congrArg (!c.isDefault && ·) (m.receives_map c.header)

mutual

/-- A moved statement has the flow of the statement. -/
@[simp] theorem statementFlow_statement : ∀ s : Statement, statementFlow (m.statement s) = statementFlow s
  | .plain _ kind _ _ => by cases kind <;> simp only [statement, statementFlow, receives_map, terminates_map]
  | .block _ body => by simp only [statement, statementFlow, steps_statements body]
  | .branch _ _ _ body otherwise => by
    simp only [statement, statementFlow, receives_map, steps_statements body, otherFlow_otherwise otherwise]
  | .loop _ _ _ body => by
    simp only [statement, statementFlow, receives_map, ranges_map, isInfinite_map, steps_statements body]
  | .switch _ _ _ clauses => by
    simp only [statement, statementFlow, receives_map, any_isDefault_clauses, clauseSteps_clauses clauses]
  | .select _ _ _ clauses => by
    simp only [statement, statementFlow, receives_map, any_clauseReceives_clauses, clauseSteps_clauses clauses]

/-- A moved body has the steps of the body. -/
@[simp] theorem steps_statements : ∀ body : List Statement, steps (m.statements body) = steps body
  | [] => rfl
  | s :: rest => by
    simp only [statements, steps, statementFlow_statement s, isPlain_statement, steps_statements rest]

/-- A moved other branch has the flow of the branch. -/
@[simp] theorem otherFlow_otherwise : ∀ body : Option (List Statement),
    otherFlow (m.otherwise body) = otherFlow body
  | none => rfl
  | some body => by simp only [otherwise, otherFlow, steps_statements body]

/-- Moved clauses have the steps of the clauses. -/
@[simp] theorem clauseSteps_clauses : ∀ cs : List Clause, clauseSteps (m.clauses cs) = clauseSteps cs
  | [] => rfl
  | .mk _ _ _ body :: rest => by
    simp only [clauses, clauseSteps, steps_statements body, clauseSteps_clauses rest]

end

mutual

/-- A moved statement waits exactly when the statement does. -/
@[simp] theorem statementWaits_statement : ∀ s : Statement, statementWaits (m.statement s) = statementWaits s
  | .plain .. => by simp only [statement, statementWaits, receives_map]
  | .block _ body => by simp only [statement, statementWaits, containsWait_statements body]
  | .branch _ _ _ body otherwise => by
    simp only [statement, statementWaits, receives_map, containsWait_statements body,
      otherWaits_otherwise otherwise]
  | .loop _ _ _ body => by
    simp only [statement, statementWaits, receives_map, ranges_map, containsWait_statements body]
  | .switch _ _ _ clauses | .select _ _ _ clauses => by
    simp only [statement, statementWaits, receives_map, clausesWait_clauses clauses]

/-- A moved body contains a wait exactly when the body does. -/
@[simp] theorem containsWait_statements : ∀ body : List Statement,
    containsWait (m.statements body) = containsWait body
  | [] => rfl
  | s :: rest => by
    simp only [statements, containsWait, statementWaits_statement s, containsWait_statements rest]

/-- A moved other branch waits exactly when the branch does. -/
@[simp] theorem otherWaits_otherwise : ∀ body : Option (List Statement),
    otherWaits (m.otherwise body) = otherWaits body
  | none => rfl
  | some body => by simp only [otherwise, otherWaits, containsWait_statements body]

/-- Moved clauses wait exactly when the clauses do. -/
@[simp] theorem clausesWait_clauses : ∀ cs : List Clause, clausesWait (m.clauses cs) = clausesWait cs
  | [] => rfl
  | .mk _ _ _ body :: rest => by
    simp only [clauses, clausesWait, receives_map, containsWait_statements body, clausesWait_clauses rest]

end

/-- Whether a body can be stopped does not change. -/
@[simp] theorem waitsForCancellation_statements (body : List Statement) :
    waitsForCancellation (m.statements body) = waitsForCancellation body := by
  rw [waitsForCancellation, containsWait_statements, sequenceFlow, steps_statements, waitsForCancellation,
    sequenceFlow]

end GoIdiom.Relocation
