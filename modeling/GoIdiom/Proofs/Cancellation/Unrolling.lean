import GoIdiom.Proofs.Cancellation.Exactness

/-!
# One round of every loop

The flow knows neither rounds nor labels. It takes a loop without a condition for one round of its body, passes
by every other loop, lets a `continue` end its list, and lets a break leave the nearest loop, switch or select
whatever its label says. Written out, this makes a statement list loop-free, and on loop-free code the flow is
exact: so the runs of the list written out are all that the flow of a list without `fallthrough` tells of.
-/

namespace GoIdiom.Cancellation

mutual

/-- The loop-free statement that the flow takes a statement for. A loop or select that waits where it is reached
lets no run go on. -/
def unrolledStatement : Statement → Statement
  | .plain place kind tokens literals =>
    match kind with
    | .break => .plain place .break [] literals
    | .goto => .plain place .return [] literals
    | kind => .plain place kind tokens literals
  | .block place body => .block place (unrolled body)
  | .branch place header literals body otherwise =>
    .branch place header literals (unrolled body) (unrolledOther otherwise)
  | .loop place header literals body =>
    if receives header || ranges header then .plain place .return [] literals
    else if isInfinite header then .switch place [] literals [.mk place.pos true [] (unrolled body)]
    else .block place []
  | .switch place header literals clauses => .switch place header literals (unrolledClauses clauses)
  | .select place header literals clauses =>
    if receives header || clauses.any clauseReceives then .plain place .return [] literals
    else if clauses.isEmpty then .block place []
    else .select place header literals (unrolledClauses clauses)

/-- The loop-free list that the flow takes a statement list for. -/
def unrolled : List Statement → List Statement
  | [] => []
  | s :: rest => if s.isPlain .continue then [] else unrolledStatement s :: unrolled rest

/-- The other branch, if there is one. -/
def unrolledOther : Option (List Statement) → Option (List Statement)
  | none => none
  | some body => some (unrolled body)

/-- The clauses with their bodies written out. -/
def unrolledClauses : List Clause → List Clause
  | [] => []
  | .mk pos isDefault header body :: rest => .mk pos isDefault header (unrolled body) :: unrolledClauses rest

end

/-- Clauses are unrolled one by one. -/
theorem unrolledClauses_eq_map (clauses : List Clause) :
    unrolledClauses clauses = clauses.map fun c => .mk c.pos c.isDefault c.header (unrolled c.body) := by
  induction clauses with
  | nil => rfl
  | cons c rest ih =>
    obtain ⟨pos, isDefault, header, body⟩ := c
    rw [unrolledClauses, ih]
    rfl

mutual

/-- A statement without `continue` and `fallthrough` is written out without loops and jumps. -/
theorem loopFree_unrolledStatement : ∀ s : Statement, s.isPlain .continue = false →
    (∀ x ∈ Statement.flatten s, x.isPlain .fallthrough = false) →
    ∀ x ∈ Statement.flatten (unrolledStatement s), isLoopFree x = true
  | .plain place kind tokens literals, hs, h => by
    have hself := h _ List.mem_cons_self
    cases kind with
    | «continue» => exact absurd hs Bool.true_eq_false.mp
    | fallthrough => exact absurd hself Bool.true_eq_false.mp
    | simple | declaration | go | defer | «return» | «break» | goto => exact List.forall_mem_singleton.mpr rfl
  | .block place body, _, h =>
    List.forall_mem_cons.mpr ⟨rfl, loopFree_unrolled body (List.forall_mem_cons.mp h).2⟩
  | .branch place header literals body otherwise, _, h => by
    obtain ⟨hbody, hother⟩ := List.forall_mem_append.mp h
    refine List.forall_mem_append.mpr
      ⟨List.forall_mem_cons.mpr ⟨rfl, loopFree_unrolled body (List.forall_mem_cons.mp hbody).2⟩, ?_⟩
    match otherwise with
    | none => exact fun x hx => absurd hx List.not_mem_nil
    | some other => exact loopFree_unrolled other hother
  | .loop place header literals body, _, h => by
    rw [unrolledStatement]
    split
    · exact List.forall_mem_singleton.mpr rfl
    · split
      · rw [Statement.flatten, Statement.flattenClauses, Statement.flattenClauses, List.append_nil]
        exact List.forall_mem_cons.mpr ⟨rfl, loopFree_unrolled body (List.forall_mem_cons.mp h).2⟩
      · exact List.forall_mem_singleton.mpr rfl
  | .switch place header literals clauses, _, h =>
    List.forall_mem_cons.mpr ⟨rfl, loopFree_unrolledClauses clauses (List.forall_mem_cons.mp h).2⟩
  | .select place header literals clauses, _, h => by
    rw [unrolledStatement]
    split
    · exact List.forall_mem_singleton.mpr rfl
    · split
      · exact List.forall_mem_singleton.mpr rfl
      · next hclauses =>
        refine List.forall_mem_cons.mpr ⟨?_, loopFree_unrolledClauses clauses (List.forall_mem_cons.mp h).2⟩
        rw [isLoopFree, unrolledClauses_eq_map, List.isEmpty_map, Bool.not_eq_true _ |>.mp hclauses]
        rfl

/-- A list without `fallthrough` is written out without loops and jumps. -/
theorem loopFree_unrolled : ∀ body : List Statement, WithoutFallthrough body → LoopFree (unrolled body)
  | [], _ => fun x hx => absurd hx List.not_mem_nil
  | s :: rest, h => by
    obtain ⟨hs, hrest⟩ := List.forall_mem_append.mp h
    rw [unrolled]
    split
    · exact fun x hx => absurd hx List.not_mem_nil
    · next hcontinue =>
      exact LoopFree.cons_iff.mpr
        ⟨loopFree_unrolledStatement s (Bool.not_eq_true _ |>.mp hcontinue) hs, loopFree_unrolled rest hrest⟩

/-- Clauses without `fallthrough` are written out without loops and jumps. -/
theorem loopFree_unrolledClauses : ∀ clauses : List Clause,
    (∀ x ∈ Statement.flattenClauses clauses, x.isPlain .fallthrough = false) →
    ∀ x ∈ Statement.flattenClauses (unrolledClauses clauses), isLoopFree x = true
  | [], _ => fun x hx => absurd hx List.not_mem_nil
  | .mk _ _ _ body :: rest, h => by
    obtain ⟨hbody, hrest⟩ := List.forall_mem_append.mp h
    exact List.forall_mem_append.mpr ⟨loopFree_unrolled body hbody, loopFree_unrolledClauses rest hrest⟩

end

/-- Clauses have the flows of what they are written out as when their bodies have. -/
theorem clauseFlows_unrolledClauses {clauses : List Clause}
    (h : ∀ x ∈ Statement.flattenClauses clauses, x.isPlain .fallthrough = false)
    (hbodies : ∀ c ∈ clauses, sequenceFlow (unrolled c.body) = sequenceFlow c.body) :
    clauseFlows (unrolledClauses clauses) = clauseFlows clauses := by
  have hfree {c : Clause} (hc : c ∈ unrolledClauses clauses) : LoopFree c.body :=
    LoopFree.of_clauses (loopFree_unrolledClauses clauses h) hc
  rw [clauseFlows_eq_map fun c hc => (hfree hc).structured.withoutFallthrough,
    clauseFlows_eq_map fun c hc => WithoutFallthrough.of_clauses h hc, unrolledClauses_eq_map, List.map_map]
  exact List.map_congr_left hbodies

/-- Clauses wait in their headers as before. -/
theorem any_clauseReceives_unrolledClauses (clauses : List Clause) :
    (unrolledClauses clauses).any clauseReceives = clauses.any clauseReceives := by
  rw [unrolledClauses_eq_map, List.any_map]
  rfl

/-- The default clause stays the default clause. -/
theorem any_isDefault_unrolledClauses (clauses : List Clause) :
    (unrolledClauses clauses).any (·.isDefault) = clauses.any (·.isDefault) := by
  rw [unrolledClauses_eq_map, List.any_map]
  rfl

mutual

/-- A statement has the flow of what it is written out as. -/
theorem statementFlow_unrolled : ∀ s : Statement, s.isPlain .continue = false →
    (∀ x ∈ Statement.flatten s, x.isPlain .fallthrough = false) →
    statementFlow (unrolledStatement s) = statementFlow s
  | .plain _ kind _ _, _, _ => by cases kind <;> rfl
  | .block place body, _, h => sequenceFlow_unrolled body (List.forall_mem_cons.mp h).2
  | .branch place header literals body otherwise, _, h => by
    obtain ⟨hbody, hother⟩ := List.forall_mem_append.mp h
    have hflow := sequenceFlow_unrolled body (List.forall_mem_cons.mp hbody).2
    match otherwise with
    | none =>
      rw [unrolledStatement, unrolledOther, statementFlow_branch_none, statementFlow_branch_none, hflow]
    | some other =>
      have hflow' := sequenceFlow_unrolled other hother
      rw [unrolledStatement, unrolledOther, statementFlow_branch_some, statementFlow_branch_some, hflow, hflow']
  | .loop place header literals body, _, h => by
    have hbody : WithoutFallthrough body := (List.forall_mem_cons.mp h).2
    have hflow := sequenceFlow_unrolled body hbody
    have hround : clauseFlows [.mk place.pos true [] (unrolled body)] = [sequenceFlow body] := by
      rw [← hflow]
      exact clauseFlows_eq_map (List.forall_mem_singleton.mpr
        (loopFree_unrolled body hbody).structured.withoutFallthrough)
    rw [unrolledStatement, statementFlow_loop]
    cases receives header || ranges header with
    | true => rfl
    | false =>
      cases isInfinite header with
      | false => rfl
      | true =>
        simp only [Bool.false_eq_true, if_false, if_true, Bool.not_true]
        rw [statementFlow_switch, hround]
        simp [receives, receivesAfter, Flow.allClosed, Clause.isDefault]
  | .switch place header literals clauses, _, h => by
    have hclauses := (List.forall_mem_cons.mp h).2
    have hflows := clauseFlows_unrolledClauses hclauses (sequenceFlow_unrolledClauses clauses hclauses)
    rw [unrolledStatement, statementFlow_switch, statementFlow_switch, hflows, any_isDefault_unrolledClauses]
  | .select place header literals clauses, _, h => by
    have hclauses := (List.forall_mem_cons.mp h).2
    have hflows := clauseFlows_unrolledClauses hclauses (sequenceFlow_unrolledClauses clauses hclauses)
    rw [unrolledStatement, statementFlow_select]
    cases hwaits : receives header || clauses.any clauseReceives with
    | true => rfl
    | false =>
      match clauses with
      | [] => rfl
      | c :: rest =>
        simp only [Bool.false_eq_true, if_false, List.isEmpty_cons]
        rw [statementFlow_select, any_clauseReceives_unrolledClauses, hwaits, if_neg Bool.false_ne_true, hflows]

/-- A list has the flow of what it is written out as. -/
theorem sequenceFlow_unrolled : ∀ body : List Statement, WithoutFallthrough body →
    sequenceFlow (unrolled body) = sequenceFlow body
  | [], _ => rfl
  | s :: rest, h => by
    obtain ⟨hs, hrest⟩ := List.forall_mem_append.mp h
    rw [unrolled, sequenceFlow_cons]
    cases hcontinue : s.isPlain .continue with
    | true => rfl
    | false =>
      have hfree := LoopFree.not_continues (loopFree_unrolledStatement s hcontinue hs)
      rw [if_neg Bool.false_ne_true, if_neg Bool.false_ne_true, sequenceFlow_cons, hfree, if_neg Bool.false_ne_true,
        statementFlow_unrolled s hcontinue hs, sequenceFlow_unrolled rest hrest]

/-- The bodies of clauses have the flows of what they are written out as. -/
theorem sequenceFlow_unrolledClauses : ∀ clauses : List Clause,
    (∀ x ∈ Statement.flattenClauses clauses, x.isPlain .fallthrough = false) →
    ∀ c ∈ clauses, sequenceFlow (unrolled c.body) = sequenceFlow c.body
  | .mk _ _ _ body :: rest, h, c, hc => by
    obtain ⟨hbody, hrest⟩ := List.forall_mem_append.mp h
    rcases List.mem_cons.mp hc with rfl | hc
    · exact sequenceFlow_unrolled body hbody
    · exact sequenceFlow_unrolledClauses rest hrest c hc

end

section Exact

variable {body : List Statement} (hbody : WithoutFallthrough body)

include hbody

/-- The flow of a list is that of its runs written out: it is not safe exactly when one falls off the end without
a wait, and breaks exactly when one leaves by a break without a wait. -/
theorem unrolled_exact :
    (Run (.running (unrolled body) []) false (.left .falls) ↔ (sequenceFlow body).safe = false) ∧
      (Run (.running (unrolled body) []) false (.left .breaks) ↔ (sequenceFlow body).breaks = true) := by
  have hflow := sequenceFlow_unrolled body hbody
  have hloopFree := loopFree_unrolled body hbody
  exact ⟨hflow ▸ hloopFree.falls_iff, hflow ▸ hloopFree.breaks_iff⟩

end Exact

end GoIdiom.Cancellation
