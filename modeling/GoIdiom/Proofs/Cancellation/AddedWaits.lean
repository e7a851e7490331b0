import GoIdiom.Proofs.Cancellation.Divergence

/-!
# Waits that are added

Flows are ordered: the greater one waits on more paths and lets fewer of them break out. Each construct passes on
what it gains from the lists inside it, the early end of a list behind a safe statement and the breaks that loops
and choices take in included, so a wait that is put anywhere into a statement list can only raise its flow, and a
goroutine that was accepted stays so. With `fallthrough` this fails: a wait in front of it brings a break to light
that had been lost.
-/

namespace GoIdiom.Cancellation

namespace Flow

/-- A flow is below another when that one is safe wherever it is, and breaks nowhere else. -/
instance : LE Flow := ⟨fun f g => (f.safe = true → g.safe = true) ∧ (g.breaks = true → f.breaks = true)⟩

variable {f f' g g' : Flow}

/-- A flow is above another when it is safe where that is and breaks only where that does. -/
theorem le_iff : f ≤ g ↔ (f.safe = true → g.safe = true) ∧ (g.breaks = true → f.breaks = true) := Iff.rfl

/-- Every flow is above itself. -/
theorem le_refl (f : Flow) : f ≤ f := ⟨id, id⟩

/-- No flow is above one that is closed. -/
theorem le_closed (f : Flow) : f ≤ closed := ⟨fun _ => rfl, fun h => absurd h Bool.false_ne_true⟩

/-- A list gains what its statements gain. -/
theorem andThen_mono (hf : f ≤ f') (hg : g ≤ g') : f.andThen g ≤ f'.andThen g' := by
  rw [le_iff] at hf hg ⊢
  grind [andThen]

/-- A closed flow stays closed above. -/
theorem closed_mono (h : f ≤ g) (hf : (f.safe && !f.breaks) = true) : (g.safe && !g.breaks) = true := by
  rw [le_iff] at h
  grind

end Flow

/-- The second list is the first with the statement put in at some place of it or of a list inside it, function
literals left out. -/
inductive Inserted (w : Statement) : List Statement → List Statement → Prop
  | here {rest} : Inserted w rest (w :: rest)
  | behind {s rest new} (h : Inserted w rest new) : Inserted w (s :: rest) (s :: new)
  | block {place body new rest} (h : Inserted w body new) :
      Inserted w (.block place body :: rest) (.block place new :: rest)
  | branch {place header literals body new otherwise rest} (h : Inserted w body new) :
      Inserted w (.branch place header literals body otherwise :: rest)
        (.branch place header literals new otherwise :: rest)
  | otherwise {place header literals body other new rest} (h : Inserted w other new) :
      Inserted w (.branch place header literals body (some other) :: rest)
        (.branch place header literals body (some new) :: rest)
  | loop {place header literals body new rest} (h : Inserted w body new) :
      Inserted w (.loop place header literals body :: rest) (.loop place header literals new :: rest)
  | switch {place header literals before pos isDefault tokens body new after rest} (h : Inserted w body new) :
      Inserted w (.switch place header literals (before ++ .mk pos isDefault tokens body :: after) :: rest)
        (.switch place header literals (before ++ .mk pos isDefault tokens new :: after) :: rest)
  | select {place header literals before pos isDefault tokens body new after rest} (h : Inserted w body new) :
      Inserted w (.select place header literals (before ++ .mk pos isDefault tokens body :: after) :: rest)
        (.select place header literals (before ++ .mk pos isDefault tokens new :: after) :: rest)

section Lists

variable {s s' : Statement} {rest new : List Statement}

/-- A list gains what its first statement gains. -/
theorem sequenceFlow_mono_head (hs : s.isPlain .continue = false) (hs' : s'.isPlain .continue = false)
    (h : statementFlow s ≤ statementFlow s') (rest : List Statement) :
    sequenceFlow (s :: rest) ≤ sequenceFlow (s' :: rest) := by
  rw [sequenceFlow_cons, sequenceFlow_cons, hs, hs', if_neg Bool.false_ne_true]
  exact Flow.andThen_mono h (Flow.le_refl _)

/-- A list gains what the statements behind its first one gain. -/
theorem sequenceFlow_mono_tail (s : Statement) (h : sequenceFlow rest ≤ sequenceFlow new) :
    sequenceFlow (s :: rest) ≤ sequenceFlow (s :: new) := by
  rw [sequenceFlow_cons, sequenceFlow_cons]
  split
  · exact Flow.le_refl _
  · exact Flow.andThen_mono (Flow.le_refl _) h

end Lists

section Statements

variable (place : Place) (header : List Token) (literals : List FuncLiteral) {body new : List Statement}
  (h : sequenceFlow body ≤ sequenceFlow new)

include h

/-- A block gains what its body gains. -/
theorem block_mono : statementFlow (.block place body) ≤ statementFlow (.block place new) := h

/-- A branch gains what its body gains. -/
theorem branch_mono (otherwise : Option (List Statement)) :
    statementFlow (.branch place header literals body otherwise) ≤
      statementFlow (.branch place header literals new otherwise) := by
  rw [Flow.le_iff] at h
  cases otherwise with
  | none =>
    rw [statementFlow_branch_none, statementFlow_branch_none]
    split
    · exact Flow.le_refl _
    · exact ⟨id, h.2⟩
  | some other =>
    rw [statementFlow_branch_some, statementFlow_branch_some]
    split
    · exact Flow.le_refl _
    · grind [Flow.le_iff]

/-- A branch gains what its other branch gains. -/
theorem otherwise_mono (first : List Statement) :
    statementFlow (.branch place header literals first (some body)) ≤
      statementFlow (.branch place header literals first (some new)) := by
  rw [Flow.le_iff] at h
  rw [statementFlow_branch_some, statementFlow_branch_some]
  split
  · exact Flow.le_refl _
  · grind [Flow.le_iff]

/-- A loop gains what its body gains. -/
theorem loop_mono : statementFlow (.loop place header literals body) ≤
    statementFlow (.loop place header literals new) := by
  rw [statementFlow_loop, statementFlow_loop]
  split
  · exact Flow.le_refl _
  · split
    · exact Flow.le_refl _
    · exact ⟨Flow.closed_mono h, id⟩

end Statements

section Clauses

variable {before after : List Clause} {pos : Position} {isDefault : Bool} {tokens : List Token}
  {body new : List Statement}
  (hbody : ∀ x ∈ Statement.flattenClauses (before ++ .mk pos isDefault tokens body :: after),
    x.isPlain .fallthrough = false)
  (hnew : ∀ x ∈ Statement.flattenClauses (before ++ .mk pos isDefault tokens new :: after),
    x.isPlain .fallthrough = false)
  (h : sequenceFlow body ≤ sequenceFlow new)

include hbody hnew h

/-- Clauses stay closed when the body of one of them gains. -/
theorem allClosed_mono
    (hclosed : Flow.allClosed (clauseFlows (before ++ .mk pos isDefault tokens body :: after)) = true) :
    Flow.allClosed (clauseFlows (before ++ .mk pos isDefault tokens new :: after)) = true := by
  rw [clauseFlows_eq_map fun c hc => .of_clauses hbody hc] at hclosed
  rw [clauseFlows_eq_map fun c hc => .of_clauses hnew hc]
  simp only [Flow.allClosed, List.map_append, List.map_cons, List.all_append, List.all_cons,
    Bool.and_eq_true_iff] at hclosed ⊢
  obtain ⟨hbefore, hclause, hafter⟩ := hclosed
  exact ⟨hbefore, Bool.and_eq_true_iff.mp (Flow.closed_mono h (Bool.and_eq_true_iff.mpr hclause)), hafter⟩

variable (place : Place) (header : List Token) (literals : List FuncLiteral)

/-- A switch gains what the body of a clause gains. -/
theorem switch_mono :
    statementFlow (.switch place header literals (before ++ .mk pos isDefault tokens body :: after)) ≤
      statementFlow (.switch place header literals (before ++ .mk pos isDefault tokens new :: after)) := by
  have hclosed := allClosed_mono hbody hnew h
  rw [statementFlow_switch, statementFlow_switch]
  split
  · exact Flow.le_refl _
  · refine ⟨fun hsafe => ?_, id⟩
    obtain ⟨hdefault, hsafe⟩ := Bool.and_eq_true_iff.mp hsafe
    exact Bool.and_eq_true_iff.mpr ⟨by simpa [Clause.isDefault] using hdefault, hclosed hsafe⟩

/-- A select gains what the body of a clause gains. -/
theorem select_mono :
    statementFlow (.select place header literals (before ++ .mk pos isDefault tokens body :: after)) ≤
      statementFlow (.select place header literals (before ++ .mk pos isDefault tokens new :: after)) := by
  have hclosed := allClosed_mono hbody hnew h
  have hwaits : (before ++ .mk pos isDefault tokens new :: after).any clauseReceives =
      (before ++ .mk pos isDefault tokens body :: after).any clauseReceives := by
    rw [List.any_append, List.any_append, List.any_cons, List.any_cons]
    rfl
  have hflows : (clauseFlows (before ++ .mk pos isDefault tokens new :: after)).isEmpty = false := by
    rw [clauseFlows_eq_map fun c hc => .of_clauses hnew hc]
    simp
  rw [statementFlow_select, statementFlow_select, hwaits]
  split
  · exact Flow.le_refl _
  · refine ⟨fun hsafe => ?_, id⟩
    exact Bool.and_eq_true_iff.mpr ⟨by rw [hflows]; rfl, hclosed (Bool.and_eq_true_iff.mp hsafe).2⟩

end Clauses

/-- What stands in the first statement of a list without `fallthrough` has none. -/
theorem WithoutFallthrough.inside {s : Statement} {rest inner : List Statement} (h : WithoutFallthrough (s :: rest))
    (hs : Statement.flatten s = s :: inner) : ∀ x ∈ inner, x.isPlain .fallthrough = false := fun x hx =>
  h x (mem_flattenList.mpr ⟨s, List.mem_cons_self, hs ▸ List.mem_cons_of_mem _ hx⟩)

/-- All statements of an append of clauses. -/
theorem flattenClauses_append (before after : List Clause) :
    Statement.flattenClauses (before ++ after) =
      Statement.flattenClauses before ++ Statement.flattenClauses after := by
  induction before with
  | nil => rfl
  | cons c rest ih =>
    obtain ⟨pos, isDefault, header, body⟩ := c
    rw [List.cons_append, Statement.flattenClauses, Statement.flattenClauses, ih, List.append_assoc]

/-- An append of clauses waits where one of its parts does. -/
theorem clausesWait_append (before after : List Clause) :
    clausesWait (before ++ after) = (clausesWait before || clausesWait after) := by
  induction before with
  | nil => rfl
  | cons c rest ih =>
    obtain ⟨pos, isDefault, header, body⟩ := c
    rw [List.cons_append, clausesWait, clausesWait, ih, Bool.or_assoc, Bool.or_assoc, Bool.or_assoc]

namespace Inserted

variable {w : Statement} {body new : List Statement}

/-- A list has no `fallthrough` when none was there and none is put in. -/
theorem withoutFallthrough (h : Inserted w body new)
    (hw : ∀ x ∈ Statement.flatten w, x.isPlain .fallthrough = false)
    (hbody : WithoutFallthrough body) : WithoutFallthrough new := by
  induction h with
  | here => exact List.forall_mem_append.mpr ⟨hw, hbody⟩
  | behind _ ih =>
    obtain ⟨hfirst, hrest⟩ := List.forall_mem_append.mp hbody
    exact List.forall_mem_append.mpr ⟨hfirst, ih hrest⟩
  | block _ ih | loop _ ih =>
    have hinner := ih (hbody.inside rfl)
    exact List.forall_mem_append.mpr
      ⟨List.forall_mem_cons.mpr ⟨rfl, hinner⟩, (List.forall_mem_append.mp hbody).2⟩
  | branch _ ih =>
    obtain ⟨hthen, helse⟩ := List.forall_mem_append.mp (hbody.inside rfl)
    have hinner := List.forall_mem_append.mpr ⟨ih hthen, helse⟩
    exact List.forall_mem_append.mpr
      ⟨List.forall_mem_cons.mpr ⟨rfl, hinner⟩, (List.forall_mem_append.mp hbody).2⟩
  | otherwise _ ih =>
    obtain ⟨hthen, helse⟩ := List.forall_mem_append.mp (hbody.inside rfl)
    have hinner := List.forall_mem_append.mpr ⟨hthen, ih helse⟩
    exact List.forall_mem_append.mpr
      ⟨List.forall_mem_cons.mpr ⟨rfl, hinner⟩, (List.forall_mem_append.mp hbody).2⟩
  | switch _ ih | select _ ih =>
    have hclauses := hbody.inside rfl
    rw [flattenClauses_append] at hclauses
    obtain ⟨hbefore, hclauses⟩ := List.forall_mem_append.mp hclauses
    obtain ⟨hclause, hafter⟩ := List.forall_mem_append.mp hclauses
    have hinner := List.forall_mem_append.mpr ⟨hbefore, List.forall_mem_append.mpr ⟨ih hclause, hafter⟩⟩
    refine List.forall_mem_append.mpr ⟨List.forall_mem_cons.mpr ⟨rfl, ?_⟩,
      (List.forall_mem_append.mp hbody).2⟩
    rw [flattenClauses_append]
    exact hinner

/-- A list waits somewhere when the statement put in does. -/
theorem containsWait (h : Inserted w body new) (hw : statementWaits w = true) :
    Cancellation.containsWait new = true := by
  induction h with
  | here => rw [Cancellation.containsWait, hw, Bool.true_or]
  | behind _ ih => rw [Cancellation.containsWait, ih, Bool.or_true]
  | block _ ih | branch _ ih | loop _ ih =>
    rw [Cancellation.containsWait, statementWaits, ih]
    simp only [Bool.or_true, Bool.true_or]
  | otherwise _ ih =>
    rw [Cancellation.containsWait, statementWaits, otherWaits, ih]
    simp only [Bool.or_true, Bool.true_or]
  | switch _ ih | select _ ih =>
    rw [Cancellation.containsWait, statementWaits, clausesWait_append, clausesWait, ih]
    simp only [Bool.or_true, Bool.true_or]

/-- A list gains from a statement that is put in and closes every list that it heads. -/
theorem le (h : Inserted w body new) (hw : ∀ rest, sequenceFlow (w :: rest) = .closed)
    (hbody : WithoutFallthrough body) (hnew : WithoutFallthrough new) : sequenceFlow body ≤ sequenceFlow new := by
  induction h with
  -- What stood behind the place is not reached any more, so nothing need be known of it.
  | here => exact hw _ ▸ Flow.le_closed _
  | behind _ ih =>
    exact sequenceFlow_mono_tail _ (ih (List.forall_mem_append.mp hbody).2 (List.forall_mem_append.mp hnew).2)
  | block _ ih =>
    have hinner := ih (hbody.inside rfl) (hnew.inside rfl)
    exact sequenceFlow_mono_head rfl rfl (block_mono _ hinner) _
  | branch _ ih =>
    have hinner :=
      ih (List.forall_mem_append.mp (hbody.inside rfl)).1 (List.forall_mem_append.mp (hnew.inside rfl)).1
    exact sequenceFlow_mono_head rfl rfl (branch_mono _ _ _ hinner _) _
  | otherwise _ ih =>
    have hinner :=
      ih (List.forall_mem_append.mp (hbody.inside rfl)).2 (List.forall_mem_append.mp (hnew.inside rfl)).2
    exact sequenceFlow_mono_head rfl rfl (otherwise_mono _ _ _ hinner _) _
  | loop _ ih =>
    have hinner := ih (hbody.inside rfl) (hnew.inside rfl)
    exact sequenceFlow_mono_head rfl rfl (loop_mono _ _ _ hinner) _
  | switch _ ih =>
    have hinner := ih (.of_clauses (hbody.inside rfl) List.mem_append_cons_self)
      (.of_clauses (hnew.inside rfl) List.mem_append_cons_self)
    exact sequenceFlow_mono_head rfl rfl (switch_mono (hbody.inside rfl) (hnew.inside rfl) hinner _ _ _) _
  | select _ ih =>
    have hinner := ih (.of_clauses (hbody.inside rfl) List.mem_append_cons_self)
      (.of_clauses (hnew.inside rfl) List.mem_append_cons_self)
    exact sequenceFlow_mono_head rfl rfl (select_mono (hbody.inside rfl) (hnew.inside rfl) hinner _ _ _) _

end Inserted

/-- A simple statement that waits closes every list that it heads. -/
theorem sequenceFlow_wait {place : Place} {tokens : List Token} {literals : List FuncLiteral}
    (hwait : receives tokens = true) (rest : List Statement) :
    sequenceFlow (.plain place .simple tokens literals :: rest) = .closed := by
  have hflow : statementFlow (.plain place .simple tokens literals) = .closed := by
    rw [statementFlow, hwait]
    rfl
  have hcontinue : (Statement.plain place .simple tokens literals).isPlain .continue = false := rfl
  rw [sequenceFlow_cons, hcontinue, if_neg Bool.false_ne_true, hflow]
  rfl

/-- A goroutine stays accepted when a wait is put anywhere into its body, which has no `fallthrough`; and what was
safe stays safe, what did not break still does not. -/
theorem accepted_of_inserted_wait {place : Place} {tokens : List Token} {literals : List FuncLiteral}
    {body new : List Statement} (hwait : receives tokens = true) (hbody : WithoutFallthrough body)
    (h : Inserted (.plain place .simple tokens literals) body new) :
    (waitsForCancellation body = true → waitsForCancellation new = true) ∧
      ((sequenceFlow body).safe = true → (sequenceFlow new).safe = true) ∧
      ((sequenceFlow new).breaks = true → (sequenceFlow body).breaks = true) := by
  have hnew : WithoutFallthrough new :=
    h.withoutFallthrough (fun x hx => by rw [List.mem_singleton.mp hx]; rfl) hbody
  have hle : sequenceFlow body ≤ sequenceFlow new := h.le (sequenceFlow_wait hwait) hbody hnew
  have hcontains : containsWait new = true := h.containsWait hwait
  refine ⟨fun haccepted => ?_, hle⟩
  have hsafe : (sequenceFlow body).safe = true := (Bool.and_eq_true_iff.mp haccepted).2
  rw [waitsForCancellation, hcontains, hle.1 hsafe]
  rfl

/-- The statement `for { switch { case stale: ...; break; default: }; <-done }` with these statements in front of
the break. -/
def staleRounds (before : List Statement) : List Statement :=
  [.loop ⟨none, ⟨1, 1⟩, 9⟩ [] []
    [.switch ⟨none, ⟨2, 1⟩, 7⟩ [] []
      [.mk ⟨3, 1⟩ false [⟨.ident, "stale", 3, 6⟩]
        (before ++ [.plain ⟨none, ⟨5, 1⟩, 5⟩ .break [⟨.keyword, "break", 5, 1⟩] []]),
       .mk ⟨6, 1⟩ true [] []],
     waitOnDone 8]]

/-- The wait behind the switch makes the loop accepted, and so it is with one more in the first clause. -/
theorem accepted_of_inserted_wait_staleRounds :
    receives [⟨.op, "<-", 4, 1⟩, ⟨.ident, "done", 4, 3⟩] = true ∧ WithoutFallthrough (staleRounds []) ∧
      Inserted (waitOnDone 4) (staleRounds []) (staleRounds [waitOnDone 4]) ∧
      waitsForCancellation (staleRounds []) = true ∧
      waitsForCancellation (staleRounds [waitOnDone 4]) = true := by
  have hwait : receives [⟨.op, "<-", 4, 1⟩, ⟨.ident, "done", 4, 3⟩] = true := by decide +kernel
  have hbody : WithoutFallthrough (staleRounds []) := by decide +kernel
  have h : Inserted (waitOnDone 4) (staleRounds []) (staleRounds [waitOnDone 4]) :=
    .loop (@Inserted.switch _ _ _ _ [] _ _ _ _ _ _ _ .here)
  have haccepted : waitsForCancellation (staleRounds []) = true := by decide +kernel
  exact ⟨hwait, hbody, h, haccepted, (accepted_of_inserted_wait hwait hbody h).1 haccepted⟩

end GoIdiom.Cancellation
