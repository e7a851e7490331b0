import GoIdiom.Proofs.Cancellation.Divergence

/-!
# The flow is exact on loop-free code

Runs of a statement list without loops leave it in exactly the ways that its flow tells of. That no others
exist is soundness. For the converse the flow is compared with the outlook of the list, along which runs are
known to go: a break behind statements that are safe is not counted, and one inside a switch or select stays
inside.
-/

namespace GoIdiom.Cancellation

/-- Whether a statement neither loops nor jumps, a break without a label apart, and is no select without
clauses. -/
def isLoopFree : Statement → Bool
  | .plain _ kind tokens _ =>
    match kind with
    | .continue | .goto | .fallthrough => false
    | .break => decide (tokens.length ≤ 1)
    | _ => true
  | .loop .. => false
  | .select _ _ _ clauses => !clauses.isEmpty
  | _ => true

/-- A statement list without loops, jumps other than breaks without a label, and selects without clauses,
function literals left out. -/
def LoopFree (body : List Statement) : Prop := ∀ s ∈ Statement.flattenList body, isLoopFree s = true

instance (body : List Statement) : Decidable (LoopFree body) :=
  inferInstanceAs (Decidable (∀ s ∈ Statement.flattenList body, isLoopFree s = true))

namespace LoopFree

variable {s : Statement} {body : List Statement}

/-- Loop-free code has no labelled jumps, `goto` and `fallthrough`. -/
theorem structured (h : LoopFree body) : Structured body := by
  intro s hs
  have hfree := h s hs
  cases s with
  | plain place kind tokens literals =>
    cases kind <;> first | rfl | exact hfree | exact absurd hfree Bool.false_ne_true
  | block | branch | loop | switch | select => rfl

/-- A list is loop-free when its first statement and the others are. -/
theorem cons_iff : LoopFree (s :: body) ↔
    (∀ x ∈ Statement.flatten s, isLoopFree x = true) ∧ LoopFree body := by
  simp only [LoopFree, Statement.flattenList, List.forall_mem_append]

/-- Loop-free code has no `continue`. -/
theorem not_continues (h : ∀ x ∈ Statement.flatten s, isLoopFree x = true) : s.isPlain .continue = false := by
  have hself := h s (mem_flatten_self s)
  cases s with
  | plain place kind tokens literals => cases kind <;> first | rfl | exact absurd hself Bool.false_ne_true
  | block | branch | loop | switch | select => rfl

/-- The bodies of loop-free clauses are loop-free. -/
theorem of_clauses {clauses : List Clause} (h : ∀ x ∈ Statement.flattenClauses clauses, isLoopFree x = true)
    {c : Clause} (hc : c ∈ clauses) : LoopFree c.body :=
  fun x hx => h x (flattenList_subset_flattenClauses hc hx)

end LoopFree

/-- The outlook of runs that leave a list as its flow tells, and only so. -/
def Flow.outlook (f : Flow) : Outlook := ⟨!f.safe, f.breaks, false, false⟩

/-- Runs go on where the first flow is not safe. -/
theorem Flow.outlook_andThen (f g : Flow) : (f.andThen g).outlook = f.outlook.andThen g.outlook := by
  obtain ⟨safe, breaks⟩ := f
  cases safe <;> rfl

/-- A choice is passed where one more clause is not safe or is left by a break. -/
theorem Flow.outlook_or_choice {f : Flow} {o : Outlook} {skips safe : Bool}
    (h : o.choice skips = outlook ⟨safe, false⟩) :
    (f.outlook.or o).choice skips = outlook ⟨f.safe && !f.breaks && safe, false⟩ := by
  simp only [Outlook.choice, outlook, Outlook.mk.injEq] at h
  obtain ⟨hfalls, -, hcontinues, hspins⟩ := h
  simp only [Outlook.choice, Outlook.or, outlook, hcontinues, hspins, Outlook.mk.injEq, Bool.or_false, and_true]
  rw [Bool.not_and, ← hfalls]
  grind

/-- A run of at most one token receives nothing. -/
theorem receives_of_length_le {tokens : List Token} (h : tokens.length ≤ 1) : receives tokens = false := by
  match tokens with
  | [] => rfl
  | [t] => exact Bool.or_false _ |>.trans (Bool.and_false _)
  | _ :: _ :: _ => exact absurd h (by simp)

mutual

/-- The outlook of a loop-free statement is that of its flow. -/
theorem statementOutlook_eq : ∀ s : Statement, (∀ x ∈ Statement.flatten s, isLoopFree x = true) →
    statementOutlook s = (statementFlow s).outlook
  | .plain place kind tokens literals, h => by
    have hself : isLoopFree (.plain place kind tokens literals) = true := h _ List.mem_cons_self
    rw [statementOutlook]
    cases kind with
    | simple | declaration =>
      rw [statementFlow, Outlook.ofPlain]
      cases receives tokens <;> cases terminates tokens <;> rfl
    | go | defer =>
      rw [statementFlow, Outlook.ofPlain]
      cases receives tokens <;> rfl
    | «return» => exact ite_self _
    | «break» =>
      rw [receives_of_length_le (of_decide_eq_true hself)]
      rfl
    | «continue» | goto | fallthrough => exact absurd hself Bool.false_ne_true
  | .block place body, h => outlook_eq body fun x hx => h x (List.mem_cons_of_mem _ hx)
  | .branch place header literals body otherwise, h => by
    have hbody := outlook_eq body fun x hx => h x (List.mem_append_left _ (List.mem_cons_of_mem _ hx))
    match otherwise with
    | none =>
      rw [statementOutlook, statementFlow_branch_none, hbody]
      cases receives header with
      | true => rfl
      | false => simp [otherOutlook, Flow.outlook, Outlook.or, Outlook.passes]
    | some other =>
      have hother := outlook_eq other fun x hx => h x (List.mem_append_right _ hx)
      rw [statementOutlook, statementFlow_branch_some, hbody]
      cases receives header with
      | true => rfl
      | false => simp [otherOutlook, hother, Flow.outlook, Outlook.or]
  | .loop .., h => absurd (h _ List.mem_cons_self) Bool.false_ne_true
  | .switch place header literals clauses, h => by
    have hclauses : ∀ x ∈ Statement.flattenClauses clauses, isLoopFree x = true :=
      fun x hx => h x (List.mem_cons_of_mem _ hx)
    have hflows := clauseFlows_eq_map fun c hc => (LoopFree.of_clauses hclauses hc).structured.withoutFallthrough
    rw [statementOutlook, statementFlow_switch, clausesOutlook_choice clauses _ hclauses, Bool.not_not, ← hflows]
    cases receives header <;> rfl
  | .select place header literals clauses, h => by
    have hclauses : ∀ x ∈ Statement.flattenClauses clauses, isLoopFree x = true :=
      fun x hx => h x (List.mem_cons_of_mem _ hx)
    have hflows := clauseFlows_eq_map fun c hc => (LoopFree.of_clauses hclauses hc).structured.withoutFallthrough
    have hself : (!clauses.isEmpty) = true := h _ List.mem_cons_self
    rw [statementOutlook, statementFlow_select, clausesOutlook_choice clauses _ hclauses, hflows, List.isEmpty_map,
      hself]
    cases receives header || clauses.any clauseReceives <;> rfl

/-- The outlook of a loop-free list is that of its flow. -/
theorem outlook_eq : ∀ body : List Statement, LoopFree body → outlook body = (sequenceFlow body).outlook
  | [], _ => rfl
  | s :: rest, h => by
    obtain ⟨hs, hrest⟩ := LoopFree.cons_iff.mp h
    rw [outlook, statementOutlook_eq s hs, outlook_eq rest hrest, sequenceFlow_cons, LoopFree.not_continues hs,
      if_neg Bool.false_ne_true, Flow.outlook_andThen]

/-- A choice of loop-free clauses is passed where the flow of a clause is not closed, or where it skips them. -/
theorem clausesOutlook_choice : ∀ (clauses : List Clause) (skips : Bool),
    (∀ x ∈ Statement.flattenClauses clauses, isLoopFree x = true) →
    (clausesOutlook clauses).choice skips =
      Flow.outlook ⟨!skips && Flow.allClosed (clauses.map fun c => sequenceFlow c.body), false⟩
  | [], skips, _ => by cases skips <;> rfl
  | .mk _ _ _ body :: rest, skips, h => by
    obtain ⟨hbody, hrest⟩ := List.forall_mem_append.mp h
    rw [clausesOutlook, outlook_eq body hbody, Flow.outlook_or_choice (clausesOutlook_choice rest skips hrest),
      Bool.and_left_comm]
    rfl

end

/-- Steps without a wait are a run without a wait. -/
theorem Run.of_transGen {s t : State} (h : Relation.TransGen Quiet s t) : Run s false t := by
  induction h using Relation.TransGen.head_induction_on with
  | single h => exact .step h (.done t)
  | head h _ ih => exact .step h ih

section Exact

variable {body : List Statement} (hbody : LoopFree body)

include hbody

/-- Some run falls off a loop-free list without a wait exactly when the list is not safe. -/
theorem LoopFree.falls_iff : Run (.running body []) false (.left .falls) ↔ (sequenceFlow body).safe = false := by
  constructor
  · intro hrun
    by_contra hsafe
    exact not_falls_of_safe hbody.structured (Bool.not_eq_false _ ▸ hsafe) hrun
  · intro hsafe
    refine .of_transGen ((reaching_list body []).falls ?_)
    rw [outlook_eq body hbody, Flow.outlook, hsafe]
    rfl

/-- Some run leaves a loop-free list by a break without a wait exactly when the flow of the list breaks. -/
theorem LoopFree.breaks_iff : Run (.running body []) false (.left .breaks) ↔
    (sequenceFlow body).breaks = true := by
  constructor
  · intro hrun
    by_contra hbreaks
    exact not_breaks_of_breaks hbody.structured (Bool.not_eq_true _ ▸ hbreaks) hrun
  · intro hbreaks
    refine .of_transGen ((reaching_list body []).breaks ?_)
    rwa [outlook_eq body hbody]

/-- A loop-free list is safe exactly when no run falls off its end without having waited, and its flow breaks
exactly when some run leaves it by a break without having waited. -/
theorem sequenceFlow_exact :
    ((sequenceFlow body).safe = true ↔ ¬ Run (.running body []) false (.left .falls)) ∧
      ((sequenceFlow body).breaks = true ↔ Run (.running body []) false (.left .breaks)) :=
  ⟨by rw [hbody.falls_iff, Bool.not_eq_false], hbody.breaks_iff.symm⟩

end Exact

/-- The statements `switch mode { case 1: if urgent { return }; break; default: <-done }`, `if stale { break }`,
`select { case <-quit: default: }` and `break`. -/
def breakBeforePoll : List Statement :=
  [.switch ⟨none, ⟨1, 1⟩, 9⟩ [⟨.ident, "mode", 1, 8⟩] []
    [.mk ⟨2, 1⟩ false [⟨.number, "1", 2, 6⟩]
      [.branch ⟨none, ⟨3, 1⟩, 5⟩ [⟨.ident, "urgent", 3, 4⟩] []
        [.plain ⟨none, ⟨4, 1⟩, 4⟩ .return [⟨.keyword, "return", 4, 1⟩] []] none,
       .plain ⟨none, ⟨6, 1⟩, 6⟩ .break [⟨.keyword, "break", 6, 1⟩] []],
     .mk ⟨7, 1⟩ true [] [waitOnDone 8]],
   .branch ⟨none, ⟨10, 1⟩, 12⟩ [⟨.ident, "stale", 10, 4⟩] []
    [.plain ⟨none, ⟨11, 1⟩, 11⟩ .break [⟨.keyword, "break", 11, 1⟩] []] none,
   .select ⟨none, ⟨13, 1⟩, 16⟩ [] []
    [.mk ⟨14, 1⟩ false [⟨.op, "<-", 14, 6⟩, ⟨.ident, "quit", 14, 8⟩] [],
     .mk ⟨15, 1⟩ true [] []],
   .plain ⟨none, ⟨17, 1⟩, 17⟩ .break [⟨.keyword, "break", 17, 1⟩] []]

/-- The break of the switch stays inside, that of the branch is counted, and the last statement is not
reached: no run falls off the end without a wait, and one leaves by the break of the branch. -/
theorem sequenceFlow_exact_breakBeforePoll :
    LoopFree breakBeforePoll ∧ sequenceFlow breakBeforePoll = ⟨true, true⟩ ∧
      ¬ Run (.running breakBeforePoll []) false (.left .falls) ∧
      Run (.running breakBeforePoll []) false (.left .breaks) := by
  have hbody : LoopFree breakBeforePoll := by decide +kernel
  have hflow : sequenceFlow breakBeforePoll = ⟨true, true⟩ := by decide +kernel
  obtain ⟨hsafe, hbreaks⟩ := sequenceFlow_exact hbody
  rw [hflow] at hsafe hbreaks
  exact ⟨hbody, hflow, hsafe.mp rfl, hbreaks.mp rfl⟩

end GoIdiom.Cancellation
