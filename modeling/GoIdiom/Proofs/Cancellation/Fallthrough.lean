import GoIdiom.Proofs.Cancellation.Soundness

/-!
# Falling into the next clause

A clause that ends in `fallthrough` runs on into the body of the next one, so its flow should be that of both
bodies in a row. What is computed is the flow of the clause in which the falling ends: what the clauses before it
do is kept only where it cannot be seen there. A break in them is lost, and so is a `continue`.
-/

namespace GoIdiom.Cancellation

/-- Whether a clause ends in `fallthrough`. -/
def fallsThrough (c : Clause) : Bool := c.body.getLast?.any (·.isPlain .fallthrough)

/-- The bodies of clauses, with the next body in the place of each `fallthrough` that has one behind it. -/
def expanded : List Clause → List (List Statement)
  | [] => []
  | c :: rest =>
    let more := expanded rest
    match more with
    | [] => c.body :: more
    | next :: _ => (if fallsThrough c then c.body.dropLast ++ next else c.body) :: more

/-- Falling from a clause on: the statements that are passed on the way, and those in which it ends. -/
structure Descent where
  passed : List Statement
  landing : List Statement

/-- How falling from the first clause on goes: it ends in front of a `fallthrough` that safe statements precede,
and in a clause without one or without a clause behind it. -/
def descent : List Clause → Descent
  | [] => ⟨[], []⟩
  | [c] => ⟨[], c.body⟩
  | c :: next :: rest =>
    if fallsThrough c then
      if (sequenceFlow c.body.dropLast).safe then ⟨[], c.body.dropLast⟩
      else ⟨c.body.dropLast ++ (descent (next :: rest)).passed, (descent (next :: rest)).landing⟩
    else ⟨[], c.body⟩

/-- How falling from a clause that has one behind it goes. -/
theorem descent_cons (c next : Clause) (rest : List Clause) : descent (c :: next :: rest) =
    if fallsThrough c then
      if (sequenceFlow c.body.dropLast).safe then ⟨[], c.body.dropLast⟩
      else ⟨c.body.dropLast ++ (descent (next :: rest)).passed, (descent (next :: rest)).landing⟩
    else ⟨[], c.body⟩ := rfl

namespace Flow

variable (a b c : Flow)

/-- Flows in a row are taken together in any order. -/
theorem andThen_assoc : (a.andThen b).andThen c = a.andThen (b.andThen c) := by
  cases ha : a.safe <;> cases hb : b.safe <;> simp [andThen, ha, hb, Bool.or_assoc]

/-- Nothing is reached behind what is safe. -/
theorem andThen_of_safe (h : a.safe = true) : a.andThen b = a := by
  rw [andThen, if_pos h, ← h]

/-- What follows has the flow of both when it breaks as the first does. -/
theorem eq_andThen_iff (h : a.safe = false) : b = a.andThen b ↔ (a.breaks = true → b.breaks = true) := by
  obtain ⟨safe, breaks⟩ := b
  rw [andThen, h, if_neg Bool.false_ne_true, mk.injEq]
  cases a.breaks <;> cases breaks <;> simp

end Flow

/-- The flow of two lists in a row: a `continue` in the first keeps runs from the second. -/
theorem sequenceFlow_append (xs ys : List Statement) : sequenceFlow (xs ++ ys) =
    if xs.any (·.isPlain .continue) then sequenceFlow xs else (sequenceFlow xs).andThen (sequenceFlow ys) := by
  induction xs with
  | nil => rfl
  | cons s rest ih =>
    rw [List.cons_append, sequenceFlow_cons, sequenceFlow_cons, List.any_cons, ih]
    cases s.isPlain .continue with
    | true => rfl
    | false =>
      rw [Bool.false_or, if_neg Bool.false_ne_true, if_neg Bool.false_ne_true, Flow.andThen_assoc]
      exact apply_ite _ _ _ _

/-- The flow of the first clause, from those of the others. -/
theorem clauseFlows_cons (c : Clause) (rest : List Clause) : clauseFlows (c :: rest) =
    (if fallsThrough c then
      match clauseFlows rest with
      | next :: _ => if (sequenceFlow c.body.dropLast).safe then sequenceFlow c.body.dropLast else next
      | [] => sequenceFlow c.body
    else sequenceFlow c.body) :: clauseFlows rest := by
  obtain ⟨pos, isDefault, header, body⟩ := c
  have hlast : (steps body).dropLast = steps body.dropLast := by
    rw [steps_eq_map, steps_eq_map, List.map_dropLast]
  rw [clauseFlows, clauseSteps, Flow.clauses, fallsThrough_steps, hlast]
  rfl

/-- A clause is given the flow of the statements in which falling from it ends. -/
theorem clauseFlows_eq_landing (c : Clause) (rest : List Clause) :
    clauseFlows (c :: rest) = sequenceFlow (descent (c :: rest)).landing :: clauseFlows rest := by
  induction rest generalizing c with
  | nil =>
    rw [clauseFlows_cons]
    exact congrArg (· :: _) (ite_self _)
  | cons next more ih =>
    rw [clauseFlows_cons, ih next, descent_cons c]
    cases fallsThrough c with
    | false => rfl
    | true => cases (sequenceFlow c.body.dropLast).safe <;> rfl

/-- The body of a clause written out has the flow of what is passed and of what the falling ends in. -/
theorem exists_expanded (c : Clause) (rest : List Clause) :
    ∃ body, expanded (c :: rest) = body :: expanded rest ∧
    sequenceFlow body = sequenceFlow ((descent (c :: rest)).passed ++ (descent (c :: rest)).landing) := by
  induction rest generalizing c with
  | nil => exact ⟨c.body, rfl, rfl⟩
  | cons next more ih =>
    obtain ⟨body, hbody, hflow⟩ := ih next
    refine ⟨if fallsThrough c then c.body.dropLast ++ body else c.body, by rw [expanded, hbody], ?_⟩
    rw [descent_cons c]
    cases fallsThrough c with
    | false => rfl
    | true =>
      simp only [if_true]
      cases hsafe : (sequenceFlow c.body.dropLast).safe with
      | true =>
        rw [sequenceFlow_append, Flow.andThen_of_safe _ _ hsafe, ite_self]
        rfl
      | false =>
        simp only [Bool.false_eq_true, if_false, List.append_assoc]
        rw [sequenceFlow_append, hflow, sequenceFlow_append c.body.dropLast]

/-- What is passed is not safe. -/
theorem safe_passed (clauses : List Clause) : (sequenceFlow (descent clauses).passed).safe = false := by
  fun_induction descent clauses with
  | case1 | case2 | case3 | case5 => rfl
  | case4 c next rest hfalls hsafe ih =>
    rw [Bool.not_eq_true] at hsafe
    rw [sequenceFlow_append, Flow.andThen, if_neg (Bool.eq_false_iff.mp hsafe)]
    split
    · exact hsafe
    · exact ih

section Suffix

variable (clauses : List Clause) (i : Nat)

/-- The flow of a clause depends on the clauses behind it only. -/
theorem clauseFlows_drop : clauseFlows (clauses.drop i) = (clauseFlows clauses).drop i := by
  induction i generalizing clauses with
  | zero => rfl
  | succ i ih =>
    cases clauses with
    | nil => rfl
    | cons c rest => rw [clauseFlows_eq_landing, List.drop_succ_cons, List.drop_succ_cons, ih]

/-- What a clause is written out as depends on the clauses behind it only. -/
theorem expanded_drop : expanded (clauses.drop i) = (expanded clauses).drop i := by
  induction i generalizing clauses with
  | zero => rfl
  | succ i ih =>
    cases clauses with
    | nil => rfl
    | cons c rest =>
      obtain ⟨body, hbody, -⟩ := exists_expanded c rest
      rw [hbody, List.drop_succ_cons, List.drop_succ_cons, ih]

/-- A clause is given the flow of its body with every `fallthrough` written out exactly when the falling loses
nothing: a break in the statements that are passed is one of those in which it ends too; and where a `continue`
stands among the statements that are passed, their flow is that of the statements in which it ends. -/
theorem clauseFlows_eq_iff : (clauseFlows clauses)[i]? = (expanded clauses)[i]?.map sequenceFlow ↔
    let d := descent (clauses.drop i)
    if d.passed.any (·.isPlain .continue) then sequenceFlow d.landing = sequenceFlow d.passed
    else (sequenceFlow d.passed).breaks = true → (sequenceFlow d.landing).breaks = true := by
  rw [← List.head?_drop, ← List.head?_drop, ← clauseFlows_drop, ← expanded_drop]
  cases clauses.drop i with
  | nil => simp [descent, clauseFlows, clauseSteps, Flow.clauses, expanded]
  | cons c rest =>
    obtain ⟨body, hbody, hflow⟩ := exists_expanded c rest
    have hsafe := safe_passed (c :: rest)
    rw [clauseFlows_eq_landing, hbody, List.head?_cons, List.head?_cons, Option.map_some, Option.some_inj, hflow,
      sequenceFlow_append]
    dsimp only
    split
    · exact Iff.rfl
    · exact Flow.eq_andThen_iff _ _ hsafe

end Suffix

/-- The clause `default: <-done`. -/
def waitByDefault : Clause :=
  .mk ⟨7, 1⟩ true []
    [.plain ⟨none, ⟨8, 1⟩, 8⟩ .simple [⟨.op, "<-", 8, 1⟩, ⟨.ident, "done", 8, 3⟩] []]

/-- The statement `fallthrough`. -/
def fallOn : Statement := .plain ⟨none, ⟨6, 1⟩, 6⟩ .fallthrough [⟨.keyword, "fallthrough", 6, 1⟩] []

/-- The clauses `case 1: if stale { break }; fallthrough` and `default: <-done`. -/
def breakBeforeWait : List Clause :=
  [.mk ⟨2, 1⟩ false [⟨.number, "1", 2, 6⟩]
    [.branch ⟨none, ⟨3, 1⟩, 5⟩ [⟨.ident, "stale", 3, 4⟩] []
      [.plain ⟨none, ⟨4, 1⟩, 4⟩ .break [⟨.keyword, "break", 4, 1⟩] []] none, fallOn],
   waitByDefault]

/-- The clauses `case 1: continue; fallthrough` and `default: <-done`. -/
def continueBeforeWait : List Clause :=
  [.mk ⟨2, 1⟩ false [⟨.number, "1", 2, 6⟩]
    [.plain ⟨none, ⟨3, 1⟩, 3⟩ .continue [⟨.keyword, "continue", 3, 1⟩] [], fallOn],
   waitByDefault]

/-- A break and a `continue` in front of a `fallthrough` are lost: the first clause has the flow of the second, and
a switch that may be left by the break without a wait is accepted. -/
theorem clauseFlows_lost :
    (breakBeforeWait.map fallsThrough = [true, false] ∧
      clauseFlows breakBeforeWait = [⟨true, false⟩, ⟨true, false⟩] ∧
      (expanded breakBeforeWait).map sequenceFlow = [⟨true, true⟩, ⟨true, false⟩] ∧
      waitsForCancellation [.switch ⟨none, ⟨1, 1⟩, 9⟩ [⟨.ident, "x", 1, 8⟩] [] breakBeforeWait] =
        true) ∧
    (continueBeforeWait.map fallsThrough = [true, false] ∧
      clauseFlows continueBeforeWait = [⟨true, false⟩, ⟨true, false⟩] ∧
      (expanded continueBeforeWait).map sequenceFlow = [⟨false, false⟩, ⟨true, false⟩]) := by
  decide +kernel

end GoIdiom.Cancellation
