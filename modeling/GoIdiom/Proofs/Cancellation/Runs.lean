import GoIdiom.Cancellation

/-!
# Runs of a goroutine body

The branching semantics of statement lists without labelled jumps, `goto` and `fallthrough`. A branch
goes either way, a switch takes any clause, or none when it has no default, and a select takes any
clause. A loop without a condition goes on until it is left; every other loop ends after finitely many
rounds, as many as the run chooses when it enters the loop. A wait is executed by reaching a statement.
-/

namespace GoIdiom.Cancellation

/-- How a run leaves a statement list. -/
inductive Exit where
  | falls
  | breaks
  | continues
  | ends
deriving DecidableEq, Repr

/-- What stands around the statements in execution, with the statements after it. -/
inductive Frame where
  | inside (after : List Statement)
  | choice (after : List Statement)
  | rounds (more : Nat) (body after : List Statement)
  | endless (body after : List Statement)

/-- A state of a run: the statements still to execute and what stands around them, innermost first. -/
inductive State where
  | running (todo : List Statement) (frames : List Frame)
  | left (exit : Exit)

/-- Where a run goes on at the end of the statements inside the frames. -/
def afterList : List Frame → State
  | [] => .left .falls
  | .inside after :: frames | .choice after :: frames | .rounds 0 _ after :: frames => .running after frames
  | .rounds (more + 1) body after :: frames => .running body (.rounds more body after :: frames)
  | .endless body after :: frames => .running body (.endless body after :: frames)

/-- Where a run goes on after a break: behind the nearest loop, switch or select. -/
def afterBreak : List Frame → State
  | [] => .left .breaks
  | .inside _ :: frames => afterBreak frames
  | .choice after :: frames | .rounds _ _ after :: frames | .endless _ after :: frames =>
    .running after frames

/-- Where a run goes on after a `continue`: in the next round of the nearest loop. -/
def afterContinue : List Frame → State
  | [] => .left .continues
  | .inside _ :: frames | .choice _ :: frames => afterContinue frames
  | .rounds more body after :: frames => afterList (.rounds more body after :: frames)
  | .endless body after :: frames => afterList (.endless body after :: frames)

/-- Whether reaching a statement executes a wait on a cancellation signal. -/
def waitsAt : Statement → Bool
  | .loop _ header _ _ => receives header || ranges header
  | .select _ header _ clauses => receives header || clauses.any clauseReceives
  | s => receives s.tokens

/-- Where a statement leads, given the statements after it and the frames around it. -/
inductive Leads : Statement → List Statement → List Frame → State → Prop where
  | proceeds {place kind tokens literals rest frames} (hkind : kind = .simple ∨ kind = .declaration)
      (hend : terminates tokens = false) :
      Leads (.plain place kind tokens literals) rest frames (.running rest frames)
  | terminates {place kind tokens literals rest frames} (hkind : kind = .simple ∨ kind = .declaration)
      (hend : terminates tokens = true) :
      Leads (.plain place kind tokens literals) rest frames (.left .ends)
  | launches {place kind tokens literals rest frames} (hkind : kind = .go ∨ kind = .defer) :
      Leads (.plain place kind tokens literals) rest frames (.running rest frames)
  | returns {place tokens literals rest frames} :
      Leads (.plain place .return tokens literals) rest frames (.left .ends)
  | breaks {place tokens literals rest frames} :
      Leads (.plain place .break tokens literals) rest frames (afterBreak frames)
  | continues {place tokens literals rest frames} :
      Leads (.plain place .continue tokens literals) rest frames (afterContinue frames)
  | block {place body rest frames} :
      Leads (.block place body) rest frames (.running body (.inside rest :: frames))
  | branches {place header literals body otherwise rest frames} :
      Leads (.branch place header literals body otherwise) rest frames (.running body (.inside rest :: frames))
  | otherwise {place header literals body other rest frames} :
      Leads (.branch place header literals body (some other)) rest frames
        (.running other (.inside rest :: frames))
  | skips {place header literals body rest frames} :
      Leads (.branch place header literals body none) rest frames (.running rest frames)
  | endless {place header literals body rest frames} (hheader : isInfinite header = true) :
      Leads (.loop place header literals body) rest frames (afterList (.endless body rest :: frames))
  | rounds {place header literals body rest frames} (hheader : isInfinite header = false) (more : Nat) :
      Leads (.loop place header literals body) rest frames (afterList (.rounds more body rest :: frames))
  | switches {place header literals clauses rest frames c} (hclause : c ∈ clauses) :
      Leads (.switch place header literals clauses) rest frames (.running c.body (.choice rest :: frames))
  | passes {place header literals clauses rest frames}
      (hdefault : clauses.any (·.isDefault) = false) :
      Leads (.switch place header literals clauses) rest frames (.running rest frames)
  | selects {place header literals clauses rest frames c} (hclause : c ∈ clauses) :
      Leads (.select place header literals clauses) rest frames (.running c.body (.choice rest :: frames))

/-- One step of a run, and whether it executes a wait. -/
inductive Move : State → Bool → State → Prop where
  | list (frames : List Frame) : Move (.running [] frames) false (afterList frames)
  | statement {s rest frames t} (h : Leads s rest frames t) :
      Move (.running (s :: rest) frames) (waitsAt s) t

/-- A step at a statement waits where the statement does, and goes where it leads. -/
theorem Move.of_statement {s : Statement} {rest : List Statement} {frames : List Frame} {wait : Bool}
    {t : State} (h : Move (.running (s :: rest) frames) wait t) :
    wait = waitsAt s ∧ Leads s rest frames t := by
  cases h with
  | statement h => exact ⟨rfl, h⟩

/-- A finite run, and whether it executes a wait. -/
inductive Run : State → Bool → State → Prop where
  | done (s : State) : Run s false s
  | step {s t u v w} (h : Move s v t) (more : Run t w u) : Run s (v || w) u

/-- An infinite run, with what each of its steps executes. -/
structure InfiniteRun (start : State) where
  states : Nat → State
  waits : Nat → Bool
  starts : states 0 = start
  moves : ∀ n, Move (states n) (waits n) (states (n + 1))

/-- Whether a statement is neither a labelled break or `continue`, nor `goto`, nor `fallthrough`. -/
def isUnlabelled : Statement → Bool
  | .plain _ kind tokens _ =>
    match kind with
    | .goto | .fallthrough => false
    | .break | .continue => decide (tokens.length ≤ 1)
    | _ => true
  | _ => true

/-- A statement list without labelled jumps, `goto` and `fallthrough`, function literals left out. -/
def Structured (body : List Statement) : Prop := ∀ s ∈ Statement.flattenList body, isUnlabelled s = true

instance (body : List Statement) : Decidable (Structured body) :=
  inferInstanceAs (Decidable (∀ s ∈ Statement.flattenList body, isUnlabelled s = true))

/-- The statements that a frame may still execute. -/
def Frame.statements : Frame → List Statement
  | .inside after | .choice after => after
  | .rounds _ body after | .endless body after => body ++ after

/-- The statements that a run may still execute in a state. -/
def State.statements : State → List Statement
  | .running todo frames => todo ++ frames.flatMap Frame.statements
  | .left _ => []

/-- The statements of a list are those of its members. -/
theorem mem_flattenList {s : Statement} {body : List Statement} :
    s ∈ Statement.flattenList body ↔ ∃ member ∈ body, s ∈ Statement.flatten member := by
  induction body with
  | nil => simp [Statement.flattenList]
  | cons first rest ih => simp only [Statement.flattenList, List.mem_append, ih, List.mem_cons, exists_eq_or_imp]

/-- A statement is among those that it consists of. -/
theorem mem_flatten_self (s : Statement) : s ∈ Statement.flatten s := by
  cases s <;> exact List.mem_cons_self

/-- The statements of a clause are among those of the clauses. -/
theorem flattenList_subset_flattenClauses {c : Clause} {clauses : List Clause} (h : c ∈ clauses) :
    Statement.flattenList c.body ⊆ Statement.flattenClauses clauses := by
  induction clauses with
  | nil => exact absurd h List.not_mem_nil
  | cons d rest ih =>
    obtain ⟨pos, isDefault, header, body⟩ := d
    rw [Statement.flattenClauses]
    rcases List.mem_cons.mp h with rfl | h
    · exact List.subset_append_left _ _
    · exact List.subset_append_of_subset_right _ (ih h)

namespace Structured

variable {s : Statement} {body other : List Statement}

/-- A list is structured when its members are. -/
theorem iff_flatten : Structured body ↔ ∀ s ∈ body, ∀ x ∈ Statement.flatten s, isUnlabelled x = true := by
  simp only [Structured, mem_flattenList]
  exact ⟨fun h s hs x hx => h x ⟨s, hs, hx⟩, fun h x ⟨s, hs, hx⟩ => h s hs x hx⟩

/-- A list of members of a structured list is structured. -/
theorem mono (h : Structured body) (hsub : other ⊆ body) : Structured other :=
  iff_flatten.mpr fun s hs => iff_flatten.mp h s (hsub hs)

/-- The parts of a structured list are structured. -/
theorem append_iff : Structured (body ++ other) ↔ Structured body ∧ Structured other := by
  simp only [iff_flatten, List.forall_mem_append]

/-- A list is structured when its first statement and the others are. -/
theorem cons_iff : Structured (s :: body) ↔
    (∀ x ∈ Statement.flatten s, isUnlabelled x = true) ∧ Structured body := by
  simp only [iff_flatten, List.forall_mem_cons]

/-- A list nested in a structured statement is structured. -/
theorem of_nested (h : Structured (s :: body)) (hsub : Statement.flattenList other ⊆ Statement.flatten s) :
    Structured other := fun x hx => (cons_iff.mp h).1 x (hsub hx)

end Structured

/-- The end of a list leads to statements of its frames. -/
theorem afterList_statements (frames : List Frame) :
    (afterList frames).statements ⊆ frames.flatMap Frame.statements := by
  rcases frames with _ | ⟨after | after | ⟨_ | more, body, after⟩ | ⟨body, after⟩, frames⟩ <;>
    simp only [afterList, State.statements, Frame.statements, List.flatMap_cons, List.append_assoc] <;>
    grind

/-- A break leads to statements of the frames. -/
theorem afterBreak_statements (frames : List Frame) :
    (afterBreak frames).statements ⊆ frames.flatMap Frame.statements := by
  induction frames with
  | nil => exact List.nil_subset _
  | cons frame frames ih =>
    rw [List.flatMap_cons]
    cases frame with
    | inside after => exact List.subset_append_of_subset_right _ ih
    | choice after => exact List.Subset.refl _
    | rounds more body after | endless body after =>
      rw [Frame.statements, List.append_assoc]
      exact List.subset_append_right _ _

/-- A `continue` leads to statements of the frames. -/
theorem afterContinue_statements (frames : List Frame) :
    (afterContinue frames).statements ⊆ frames.flatMap Frame.statements := by
  induction frames with
  | nil => exact List.nil_subset _
  | cons frame frames ih =>
    cases frame with
    | inside after | choice after => exact List.subset_append_of_subset_right _ ih
    | rounds more body after => exact afterList_statements (.rounds more body after :: frames)
    | endless body after => exact afterList_statements (.endless body after :: frames)

/-- A state with structured statements. -/
def State.Sound (s : State) : Prop := Structured s.statements

/-- A statement of a sound state leads to sound states. -/
theorem Leads.sound {s : Statement} {rest : List Statement} {frames : List Frame} {t : State}
    (h : Leads s rest frames t) (hs : State.Sound (.running (s :: rest) frames)) : t.Sound := by
  have hrest : Structured (rest ++ frames.flatMap Frame.statements) := (Structured.cons_iff.mp hs).2
  have hframes : Structured (frames.flatMap Frame.statements) := (Structured.append_iff.mp hrest).2
  have enters (inner : List Statement) (hsub : Statement.flattenList inner ⊆ Statement.flatten s) :
      Structured (inner ++ (rest ++ frames.flatMap Frame.statements)) :=
    Structured.append_iff.mpr ⟨Structured.of_nested hs hsub, hrest⟩
  cases h with
  | proceeds | launches | skips | passes => exact hrest
  | terminates | returns => exact fun x hx => absurd hx List.not_mem_nil
  | breaks => exact hframes.mono (afterBreak_statements frames)
  | continues => exact hframes.mono (afterContinue_statements frames)
  | block => exact enters _ (List.subset_cons_self _ _)
  | branches => exact enters _ fun x hx => List.mem_append_left _ (List.mem_cons_of_mem _ hx)
  | otherwise => exact enters _ fun x hx => List.mem_append_right _ hx
  | @endless _ header literals body =>
    have hparts := enters body (List.subset_cons_self _ _)
    rw [← List.append_assoc] at hparts
    exact hparts.mono (afterList_statements (.endless body rest :: frames))
  | @rounds _ header literals body _ _ _ more =>
    have hparts := enters body (List.subset_cons_self _ _)
    rw [← List.append_assoc] at hparts
    exact hparts.mono (afterList_statements (.rounds more body rest :: frames))
  | switches hclause | selects hclause =>
    exact enters _ (List.subset_cons_of_subset _ (flattenList_subset_flattenClauses hclause))

/-- A step of a run keeps the state sound. -/
theorem Move.sound {s t : State} {w : Bool} (h : Move s w t) (hs : s.Sound) : t.Sound := by
  cases h with
  | list frames => exact hs.mono (afterList_statements frames)
  | statement h => exact h.sound hs

end GoIdiom.Cancellation
