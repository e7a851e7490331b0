import GoIdiom.Proofs.Cancellation.Runs

/-!
# The flow is sound on finite runs

A run that has executed no wait can reach an exit only where the flow of the statements still to
execute admits it. What is admitted around a statement list is computed from the frames; each step
without a wait leads from admitting states only, so the flow of the whole body decides which exits a
finite run reaches without a wait.
-/

namespace GoIdiom.Cancellation

namespace Flow

/-- The flow of a statement, which is no `continue`, and the statements after it. -/
def andThen (first more : Flow) : Flow :=
  if first.safe then ⟨true, first.breaks⟩ else ⟨more.safe, first.breaks || more.breaks⟩

end Flow

/-- The flow of a list from those of its first statement and the others. -/
theorem sequenceFlow_cons (s : Statement) (rest : List Statement) :
    sequenceFlow (s :: rest) =
      if s.isPlain .continue then .open' else (statementFlow s).andThen (sequenceFlow rest) := rfl

section Equations

variable (place : Place) (header : List Token) (literals : List FuncLiteral) (body other : List Statement)
  (clauses : List Clause)

/-- A branch that does not wait may be passed by. -/
theorem statementFlow_branch_none : statementFlow (.branch place header literals body none) =
    if receives header then .closed else ⟨false, (sequenceFlow body).breaks⟩ := rfl

/-- A branch with another one is safe when both are, and breaks when one does. -/
theorem statementFlow_branch_some : statementFlow (.branch place header literals body (some other)) =
    if receives header then .closed
    else ⟨(sequenceFlow body).safe && (sequenceFlow other).safe,
      (sequenceFlow body).breaks || (sequenceFlow other).breaks⟩ := rfl

/-- A loop is left in its header or by a break. -/
theorem statementFlow_loop : statementFlow (.loop place header literals body) =
    if receives header || ranges header then .closed
    else if !isInfinite header then .open'
    else ⟨(sequenceFlow body).safe && !(sequenceFlow body).breaks, false⟩ := rfl

/-- A switch without a default clause may be passed by. -/
theorem statementFlow_switch : statementFlow (.switch place header literals clauses) =
    if receives header then .closed
    else ⟨clauses.any (·.isDefault) && Flow.allClosed (clauseFlows clauses), false⟩ := rfl

/-- A select takes one of its clauses. -/
theorem statementFlow_select : statementFlow (.select place header literals clauses) =
    if receives header || clauses.any clauseReceives then .closed
    else ⟨!(clauseFlows clauses).isEmpty && Flow.allClosed (clauseFlows clauses), false⟩ := rfl

end Equations

/-- A list of one statement, which is no `continue`, is safe when the statement is. -/
theorem safe_singleton {s : Statement} (hs : s.isPlain .continue = false) :
    (sequenceFlow [s]).safe = (statementFlow s).safe := by
  rw [sequenceFlow_cons, hs, if_neg Bool.false_ne_true, Flow.andThen]
  cases (statementFlow s).safe <;> rfl

/-- Each statement is one step of its list. -/
theorem steps_eq_map (body : List Statement) : steps body = body.map fun s =>
    ⟨statementFlow s, s.isPlain .continue, s.isPlain .fallthrough⟩ := by
  induction body with
  | nil => rfl
  | cons s rest ih => rw [steps, ih, List.map_cons]

/-- A list falls through when its last statement is `fallthrough`. -/
theorem fallsThrough_steps (body : List Statement) :
    (steps body).getLast?.any (·.fallsThrough) = body.getLast?.any (·.isPlain .fallthrough) := by
  rw [steps_eq_map, List.getLast?_map, Option.any_map]

/-- A statement list without `fallthrough`, function literals left out. -/
def WithoutFallthrough (body : List Statement) : Prop :=
  ∀ s ∈ Statement.flattenList body, s.isPlain .fallthrough = false

instance (body : List Statement) : Decidable (WithoutFallthrough body) :=
  inferInstanceAs (Decidable (∀ s ∈ Statement.flattenList body, s.isPlain .fallthrough = false))

/-- A list without `fallthrough` does not fall through. -/
theorem WithoutFallthrough.getLast {body : List Statement} (h : WithoutFallthrough body) :
    body.getLast?.any (·.isPlain .fallthrough) = false := by
  cases hlast : body.getLast? with
  | none => rfl
  | some s => exact h s (mem_flattenList.mpr ⟨s, List.mem_of_getLast? hlast, mem_flatten_self s⟩)

/-- The bodies of clauses without `fallthrough` have none. -/
theorem WithoutFallthrough.of_clauses {clauses : List Clause}
    (h : ∀ x ∈ Statement.flattenClauses clauses, x.isPlain .fallthrough = false) {c : Clause}
    (hc : c ∈ clauses) :
    WithoutFallthrough c.body := fun x hx => h x (flattenList_subset_flattenClauses hc hx)

/-- A structured list has no `fallthrough`. -/
theorem Structured.withoutFallthrough {body : List Statement} (h : Structured body) : WithoutFallthrough body := by
  intro s hs
  have hself := h s hs
  cases s with
  | plain place kind tokens literals => cases kind <;> first | rfl | exact absurd hself Bool.false_ne_true
  | block | branch | loop | switch | select => rfl

/-- Without `fallthrough`, each clause has the flow of its body. -/
theorem clauseFlows_eq_map {clauses : List Clause} (h : ∀ c ∈ clauses, WithoutFallthrough c.body) :
    clauseFlows clauses = clauses.map fun c => sequenceFlow c.body := by
  induction clauses with
  | nil => rfl
  | cons c rest ih =>
    obtain ⟨pos, isDefault, header, body⟩ := c
    have hbody : WithoutFallthrough body := h _ List.mem_cons_self
    have hrest := ih fun c hc => h c (List.mem_cons_of_mem _ hc)
    rw [clauseFlows] at hrest ⊢
    rw [clauseSteps, Flow.clauses, fallsThrough_steps, hbody.getLast, hrest]
    rfl

/-- For each way to leave a list, whether it leads on to the exits in question without a wait. -/
structure Ways where
  falls : Bool
  breaks : Bool
  continues : Bool
deriving DecidableEq, Repr

/-- Whether an exit of the outermost list is in question. -/
def Ways.holds (w : Ways) : Exit → Bool
  | .falls => w.falls
  | .breaks => w.breaks
  | .continues => w.continues
  | .ends => false

/-- Whether a list with this flow may lead on without a wait. The flow knows nothing of a nested
`continue`, so that way is always admitted. -/
def Flow.admits (f : Flow) (w : Ways) : Bool := !f.safe && w.falls || f.breaks && w.breaks || w.continues

/-- The ways out of a list inside the frames. A loop without a condition is left by a break only, so
its next round leads on when its body breaks before a wait. -/
def Ways.through (w : Ways) : List Frame → Ways
  | [] => w
  | .inside after :: frames =>
    let outer := w.through frames
    ⟨(sequenceFlow after).admits outer, outer.breaks, outer.continues⟩
  | .choice after :: frames =>
    let outer := w.through frames
    let out := (sequenceFlow after).admits outer
    ⟨out, out, outer.continues⟩
  | .rounds _ _ after :: frames =>
    let out := (sequenceFlow after).admits (w.through frames)
    ⟨out, out, out⟩
  | .endless body after :: frames =>
    let out := (sequenceFlow after).admits (w.through frames)
    let again := (sequenceFlow body).breaks && out
    ⟨again, out, again⟩

/-- Whether a state may lead on to the exits in question without a wait. -/
def State.admits (w : Ways) : State → Bool
  | .running todo frames => (sequenceFlow todo).admits (w.through frames)
  | .left exit => w.holds exit

namespace Flow

variable {f g : Flow} {w : Ways}

/-- What is admitted leads on in some way. -/
theorem some_of_admits (h : f.admits w = true) : (w.falls || w.breaks || w.continues) = true := by
  grind [admits]

/-- A flow that may fall off leads on where falling off does. -/
theorem admits_of_falls (hsafe : f.safe = false) (h : w.falls = true) : f.admits w = true := by
  grind [admits]

/-- A flow that waits no more and breaks no less admits more. -/
theorem admits_mono (hsafe : g.safe = true → f.safe = true) (hbreaks : f.breaks = true → g.breaks = true)
    (h : f.admits w = true) : g.admits w = true := by
  grind [admits]

/-- A list after another is admitted where the first leads on to it. -/
theorem admits_andThen : (f.andThen g).admits w = f.admits ⟨g.admits w, w.breaks, w.continues⟩ := by
  grind [admits, andThen]

end Flow

section Frames

variable (w : Ways) (frames : List Frame)

/-- The end of a list leads on where falling off it does. -/
theorem admits_afterList (h : (afterList frames).admits w = true) : (w.through frames).falls = true := by
  rcases frames with _ | ⟨after | after | ⟨_ | more, body, after⟩ | ⟨body, after⟩, frames⟩
  · exact h
  · exact h
  · exact h
  · exact h
  · have := Flow.some_of_admits h
    simpa [Ways.through] using this
  · have : ((sequenceFlow body).admits ((w.through (.endless body after :: frames)))) = true := h
    grind [Ways.through, Flow.admits]

/-- A break leads on where its way does. -/
theorem admits_afterBreak (h : (afterBreak frames).admits w = true) :
    (w.through frames).breaks = true := by
  induction frames with
  | nil => exact h
  | cons frame frames ih =>
    cases frame with
    | inside after => exact ih h
    | choice | rounds | endless => exact h

/-- A `continue` leads on where its way does. -/
theorem admits_afterContinue (h : (afterContinue frames).admits w = true) :
    (w.through frames).continues = true := by
  induction frames with
  | nil => exact h
  | cons frame frames ih =>
    cases frame with
    | inside | choice => exact ih h
    | rounds | endless => exact admits_afterList w (_ :: frames) h

end Frames

section Statements

variable {w : Ways} {rest : List Statement} {frames : List Frame} {s : Statement}

/-- A statement whose flow is open leads on where the statements after it do. -/
theorem admits_of_rest (hs : s.isPlain .continue = false) (hflow : statementFlow s = .open')
    (h : (State.running rest frames).admits w = true) :
    (State.running (s :: rest) frames).admits w = true := by
  rw [State.admits, sequenceFlow_cons, hs, hflow]
  exact h

/-- A statement that is no `continue` leads on when its own flow does, with the rest after it. -/
theorem admits_of_flow (hs : s.isPlain .continue = false)
    (h : (statementFlow s).admits ((w.through (.inside rest :: frames))) = true) :
    (State.running (s :: rest) frames).admits w = true := by
  rw [State.admits, sequenceFlow_cons, hs, if_neg Bool.false_ne_true, Flow.admits_andThen]
  exact h

/-- The body of a clause leads on when a choice that contains it is not safe, or by a `continue`. -/
theorem admits_of_choice {flow : Flow} {safe : Bool}
    (hsafe : safe = true → flow.safe = true ∧ flow.breaks = false)
    (h : flow.admits (w.through (.choice rest :: frames)) = true) :
    Flow.admits ⟨safe, false⟩ (w.through (.inside rest :: frames)) = true := by
  cases safe with
  | true => grind [Ways.through, Flow.admits]
  | false => grind [Ways.through, Flow.admits]

/-- A clause of closed clauses is safe and not left by a break. -/
theorem closed_of_allClosed {clauses : List Clause} {c : Clause} (hc : c ∈ clauses)
    (hclauses : ∀ c ∈ clauses, Structured c.body)
    (h : Flow.allClosed (clauseFlows clauses) = true) :
    (sequenceFlow c.body).safe = true ∧ (sequenceFlow c.body).breaks = false := by
  rw [clauseFlows_eq_map fun c hc => (hclauses c hc).withoutFallthrough, Flow.allClosed, List.all_map,
    List.all_eq_true] at h
  simpa using h c hc

/-- A statement that executes no wait leads from an admitting state to what is admitted. -/
theorem Leads.admits {t : State} (h : Leads s rest frames t) (hwait : waitsAt s = false)
    (hs : State.Sound (.running (s :: rest) frames)) (ht : t.admits w = true) :
    (State.running (s :: rest) frames).admits w = true := by
  have nested {inner : List Statement} (hsub : Statement.flattenList inner ⊆ Statement.flatten s) :
      Structured inner := Structured.of_nested hs hsub
  cases h with
  | @proceeds place kind tokens literals _ _ hkind hend =>
    have hreceives : receives tokens = false := hwait
    refine admits_of_rest ?_ ?_ ht
    · rcases hkind with rfl | rfl <;> rfl
    · rcases hkind with rfl | rfl <;> simp only [statementFlow, hreceives, hend] <;> rfl
  | terminates => exact absurd ht Bool.false_ne_true
  | @launches place kind tokens literals _ _ hkind =>
    have hreceives : receives tokens = false := hwait
    refine admits_of_rest ?_ ?_ ht
    · rcases hkind with rfl | rfl <;> rfl
    · rcases hkind with rfl | rfl <;> simp only [statementFlow, hreceives] <;> rfl
  | returns => exact absurd ht Bool.false_ne_true
  | breaks =>
    have hbreaks := admits_afterBreak w frames ht
    refine admits_of_flow rfl ?_
    simp [statementFlow, Flow.admits, Ways.through, hbreaks]
  | continues =>
    have hcontinues := admits_afterContinue w frames ht
    simp [State.admits, Flow.admits, hcontinues]
  | block => exact admits_of_flow rfl ht
  | @branches place header literals body otherwise =>
    have hreceives : receives header = false := hwait
    refine admits_of_flow rfl (Flow.admits_mono ?_ ?_ ht)
    all_goals
      cases otherwise <;>
        simp +contextual [statementFlow_branch_none, statementFlow_branch_some, hreceives]
  | @otherwise place header literals body other =>
    have hreceives : receives header = false := hwait
    refine admits_of_flow rfl (Flow.admits_mono ?_ ?_ ht)
    all_goals
      rw [statementFlow_branch_some, hreceives, if_neg Bool.false_ne_true]
      simp +contextual
  | @skips place header literals body =>
    have hreceives : receives header = false := hwait
    refine admits_of_flow rfl (Flow.admits_of_falls ?_ ht)
    rw [statementFlow_branch_none, hreceives, if_neg Bool.false_ne_true]
  | @endless place header literals body _ _ hheader =>
    have hwaits : (receives header || ranges header) = false := hwait
    obtain ⟨hbreaks, hout⟩ := Bool.and_eq_true_iff.mp (admits_afterList w _ ht)
    refine admits_of_flow rfl (Flow.admits_of_falls ?_ hout)
    simp [statementFlow_loop, hwaits, hheader, hbreaks]
  | @rounds place header literals body _ _ hheader more =>
    have hwaits : (receives header || ranges header) = false := hwait
    have hout := admits_afterList w _ ht
    refine admits_of_rest rfl ?_ hout
    rw [statementFlow_loop, hwaits, hheader]
    rfl
  | @switches place header literals clauses _ _ c hc =>
    have hreceives : receives header = false := hwait
    refine admits_of_flow rfl ?_
    rw [statementFlow_switch, hreceives, if_neg Bool.false_ne_true]
    refine admits_of_choice (fun hsafe => ?_) ht
    exact closed_of_allClosed hc (fun d hd => nested (List.subset_cons_of_subset _
      (flattenList_subset_flattenClauses hd))) (Bool.and_eq_true_iff.mp hsafe).2
  | @passes place header literals clauses _ _ hdefault =>
    have hreceives : receives header = false := hwait
    refine admits_of_rest rfl ?_ ht
    rw [statementFlow_switch, hreceives, hdefault]
    rfl
  | @selects place header literals clauses _ _ c hc =>
    have hwaits : (receives header || clauses.any clauseReceives) = false := hwait
    refine admits_of_flow rfl ?_
    rw [statementFlow_select, hwaits, if_neg Bool.false_ne_true]
    refine admits_of_choice (fun hsafe => ?_) ht
    exact closed_of_allClosed hc (fun d hd => nested (List.subset_cons_of_subset _
      (flattenList_subset_flattenClauses hd))) (Bool.and_eq_true_iff.mp hsafe).2

end Statements

/-- A step without a wait leads from an admitting state to what is admitted. -/
theorem Move.admits {w : Ways} {s t : State} (h : Move s false t) (hs : s.Sound)
    (ht : t.admits w = true) : s.admits w = true := by
  generalize hwait : false = wait at h
  cases h with
  | list frames =>
    exact Flow.admits_of_falls rfl (admits_afterList w frames ht)
  | statement h => exact h.admits hwait.symm hs ht

/-- A run without a wait leads from an admitting state to what is admitted. -/
theorem Run.admits {w : Ways} {s t : State} (h : Run s false t) (hs : s.Sound)
    (ht : t.admits w = true) : s.admits w = true := by
  generalize hwait : false = wait at h
  induction h with
  | done s => exact ht
  | @step s t u v rest hmove more ih =>
    obtain ⟨rfl, rfl⟩ := Bool.or_eq_false_iff.mp hwait.symm
    exact hmove.admits hs (ih (hmove.sound hs) ht rfl)

/-- The exits that a run of a body reaches without a wait are admitted by the flow of the body. -/
theorem admits_of_run {body : List Statement} (hbody : Structured body) {exit : Exit}
    (h : Run (.running body []) false (.left exit)) (w : Ways) (hexit : w.holds exit = true) :
    (sequenceFlow body).admits w = true :=
  h.admits (Structured.mono hbody (by simp [State.statements])) hexit

/-- A list that is safe is not left at its end by a run without a wait. -/
theorem not_falls_of_safe {body : List Statement} (hbody : Structured body)
    (hsafe : (sequenceFlow body).safe = true) : ¬ Run (.running body []) false (.left .falls) := by
  intro hrun
  have hadmits := admits_of_run hbody hrun ⟨true, false, false⟩ rfl
  simp [Flow.admits, hsafe] at hadmits

/-- A list without breaks is not left by a break of a run without a wait. -/
theorem not_breaks_of_breaks {body : List Statement} (hbody : Structured body)
    (hbreaks : (sequenceFlow body).breaks = false) : ¬ Run (.running body []) false (.left .breaks) := by
  intro hrun
  have hadmits := admits_of_run hbody hrun ⟨false, true, false⟩ rfl
  simp [Flow.admits, hbreaks] at hadmits

/-- A list that is safe is not left at its end by a run without a wait, and a list without breaks not by
a break. In particular no goroutine whose body is accepted falls off its end without having waited. -/
theorem sequenceFlow_sound {body : List Statement} (hbody : Structured body) :
    ((sequenceFlow body).safe = true → ¬ Run (.running body []) false (.left .falls)) ∧
      ((sequenceFlow body).breaks = false → ¬ Run (.running body []) false (.left .breaks)) ∧
      (waitsForCancellation body = true → ¬ Run (.running body []) false (.left .falls)) :=
  ⟨not_falls_of_safe hbody, not_breaks_of_breaks hbody,
    fun haccepted => not_falls_of_safe hbody (Bool.and_eq_true_iff.mp haccepted).2⟩

/-- The statements `if idle { return }` and `<-done`. -/
def returnOrWait : List Statement :=
  [.branch ⟨none, ⟨1, 1⟩, 3⟩ [⟨.ident, "idle", 1, 4⟩] []
    [.plain ⟨none, ⟨2, 1⟩, 2⟩ .return [⟨.keyword, "return", 2, 1⟩] []] none,
   .plain ⟨none, ⟨4, 1⟩, 4⟩ .simple [⟨.op, "<-", 4, 1⟩, ⟨.ident, "done", 4, 3⟩] []]

/-- A body that returns or waits is accepted and has a run that waits and falls off its end, but none
that does so without the wait. -/
theorem sequenceFlow_sound_returnOrWait :
    Structured returnOrWait ∧ waitsForCancellation returnOrWait = true ∧
      Run (.running returnOrWait []) true (.left .falls) ∧
      ¬ Run (.running returnOrWait []) false (.left .falls) ∧
      ¬ Run (.running returnOrWait []) false (.left .breaks) := by
  have hbody : Structured returnOrWait := by decide +kernel
  have haccepted : waitsForCancellation returnOrWait = true := by decide +kernel
  have hbreaks : (sequenceFlow returnOrWait).breaks = false := by decide +kernel
  obtain ⟨-, hleft, hfalls⟩ := sequenceFlow_sound hbody
  refine ⟨hbody, haccepted, ?_, hfalls haccepted, hleft hbreaks⟩
  have hproceeds : terminates returnOrWait[1].tokens = false := by decide +kernel
  have hwaits : (waitsAt returnOrWait[0] || (waitsAt returnOrWait[1] || (false || false))) = true := by
    decide +kernel
  rw [← hwaits]
  exact .step (.statement .skips) (.step (.statement (.proceeds (.inl rfl) hproceeds))
    (.step (.list []) (.done (.left .falls))))

end GoIdiom.Cancellation
