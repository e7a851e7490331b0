import GoIdiom.Proofs.Cancellation.Soundness
import Mathlib.Order.WellFounded

/-!
# Runs that go on forever without a wait

The flow of a body does not tell whether a run may go round a loop forever without waiting: a nested
`continue` can jump over the only wait of an endless loop, and a loop without any wait can stand before
a wait that is never reached. The outlook of a body tells it exactly.
-/

namespace GoIdiom.Cancellation

/-- What runs without a wait do in a statement or statement list: fall off its end, leave it by a break
or a `continue`, or stay inside forever. -/
structure Outlook where
  falls : Bool
  breaks : Bool
  continues : Bool
  spins : Bool
deriving DecidableEq, Repr

namespace Outlook

/-- No run goes on without a wait. -/
def stopped : Outlook := ⟨false, false, false, false⟩

/-- Runs only fall off the end. -/
def passes : Outlook := ⟨true, false, false, false⟩

/-- Runs of a statement without a block. -/
def ofPlain (kind : PlainKind) (tokens : List Token) : Outlook :=
  match kind with
  | .simple | .declaration => if terminates tokens then .stopped else .passes
  | .go | .defer => .passes
  | .break => ⟨false, true, false, false⟩
  | .continue => ⟨false, false, true, false⟩
  | .return | .goto | .fallthrough => .stopped

/-- Runs that take either way. -/
def or (a b : Outlook) : Outlook :=
  ⟨a.falls || b.falls, a.breaks || b.breaks, a.continues || b.continues, a.spins || b.spins⟩

/-- Runs that go on to other statements where they fall off the first. -/
def andThen (first more : Outlook) : Outlook :=
  if first.falls then ⟨more.falls, first.breaks || more.breaks, first.continues || more.continues,
    first.spins || more.spins⟩
  else first

/-- Runs of a switch or select by those of its clauses, and whether it may take none. -/
def choice (clauses : Outlook) (skips : Bool) : Outlook :=
  ⟨clauses.falls || clauses.breaks || skips, false, clauses.continues, clauses.spins⟩

/-- Runs of a loop without a condition by those of its body. -/
def endless (body : Outlook) : Outlook :=
  ⟨body.breaks, false, false, body.spins || body.falls || body.continues⟩

/-- Runs of any other loop by those of its body. -/
def rounds (body : Outlook) : Outlook := ⟨true, false, false, body.spins⟩

end Outlook

mutual

/-- The outlook of a statement. -/
def statementOutlook : Statement → Outlook
  | .plain _ kind tokens _ => if receives tokens then .stopped else .ofPlain kind tokens
  | .block _ body => outlook body
  | .branch _ header _ body otherwise =>
    if receives header then .stopped else (outlook body).or (otherOutlook otherwise)
  | .loop _ header _ body =>
    if receives header || ranges header then .stopped
    else if isInfinite header then (outlook body).endless
    else (outlook body).rounds
  | .switch _ header _ clauses =>
    if receives header then .stopped else (clausesOutlook clauses).choice !clauses.any (·.isDefault)
  | .select _ header _ clauses =>
    if receives header || clauses.any clauseReceives then .stopped else (clausesOutlook clauses).choice false

/-- The outlook of a statement list. -/
def outlook : List Statement → Outlook
  | [] => .passes
  | s :: rest => (statementOutlook s).andThen (outlook rest)

/-- The outlook of the other branch; without one, the branch is passed. -/
def otherOutlook : Option (List Statement) → Outlook
  | none => .passes
  | some body => outlook body

/-- The outlook of taking any clause. -/
def clausesOutlook : List Clause → Outlook
  | [] => .stopped
  | .mk _ _ _ body :: rest => (outlook body).or (clausesOutlook rest)

end

/-- A step that executes no wait. -/
def Quiet (s t : State) : Prop := Move s false t

/-- No run from this state goes on forever without a wait. -/
def Halts (s : State) : Prop := Acc (fun t s => Quiet s t) s

/-- A run can always be stopped when none goes on forever without a wait. -/
theorem halts_iff {s : State} : Halts s ↔ ∀ run : InfiniteRun s, ∃ n, run.waits n = true := by
  rw [Halts, acc_iff_isEmpty_descending_chain, isEmpty_subtype]
  constructor
  · intro h run
    by_contra hquiet
    simp only [not_exists, Bool.not_eq_true] at hquiet
    exact h run.states ⟨run.starts, fun n => (hquiet n ▸ run.moves n : Move _ false _)⟩
  · rintro h states ⟨hstart, hmoves⟩
    obtain ⟨n, hn⟩ := h ⟨states, fun _ => false, hstart, hmoves⟩
    exact Bool.false_ne_true hn

/-- The states that an outlook lets a run go on to halt, and it does not stay inside. -/
structure Outlook.Halting (o : Outlook) (falls breaks continues : State) : Prop where
  spins : o.spins = false
  falls : o.falls = true → Halts falls
  breaks : o.breaks = true → Halts breaks
  continues : o.continues = true → Halts continues

namespace Outlook.Halting

variable {a b : Outlook} {falls breaks continues : State}

/-- Both ways of a choice halt. -/
theorem of_or (h : (a.or b).Halting falls breaks continues) :
    a.Halting falls breaks continues ∧ b.Halting falls breaks continues := by
  obtain ⟨hs, hf, hb, hc⟩ := h
  simp only [Outlook.or, Bool.or_eq_false_iff, Bool.or_eq_true] at hs hf hb hc
  exact ⟨⟨hs.1, hf ∘ .inl, hb ∘ .inl, hc ∘ .inl⟩, ⟨hs.2, hf ∘ .inr, hb ∘ .inr, hc ∘ .inr⟩⟩

/-- A clause halts when the choice does: a break leaves it at its end. -/
theorem of_choice {rest : List Statement} {frames : List Frame} {skips : Bool}
    (h : (a.choice skips).Halting (.running rest frames) breaks (afterContinue frames)) :
    a.Halting (afterList (.choice rest :: frames)) (afterBreak (.choice rest :: frames))
      (afterContinue (.choice rest :: frames)) := by
  obtain ⟨hs, hf, -, hc⟩ := h
  simp only [Outlook.choice, Bool.or_eq_true] at hs hf hc
  exact ⟨hs, hf ∘ .inl ∘ .inl, hf ∘ .inl ∘ .inr, hc⟩

/-- The statements after the first halt when it is passed. -/
theorem of_andThen {rest : State} (h : (a.andThen b).Halting falls breaks continues)
    (hrest : b.Halting falls breaks continues → Halts rest) : a.Halting rest breaks continues := by
  obtain ⟨hs, hf, hb, hc⟩ := h
  cases hfalls : a.falls with
  | false =>
    simp only [Outlook.andThen, hfalls, Bool.false_eq_true, if_false] at hs hf hb hc
    exact ⟨hs, fun h => absurd (h.symm.trans hfalls) Bool.true_eq_false.mp, hb, hc⟩
  | true =>
    simp only [Outlook.andThen, hfalls, if_true, Bool.or_eq_false_iff, Bool.or_eq_true] at hs hf hb hc
    exact ⟨hs.1, fun _ => hrest ⟨hs.2, hf, hb ∘ .inr, hc ∘ .inr⟩, hb ∘ .inl, hc ∘ .inl⟩

end Outlook.Halting

/-- A statement halts when it waits, or when every state that it leads to does. -/
theorem halts_of_leads {s : Statement} {rest : List Statement} {frames : List Frame}
    (h : waitsAt s = false → ∀ t, Leads s rest frames t → Halts t) :
    Halts (.running (s :: rest) frames) := by
  refine Acc.intro _ fun t hmove => ?_
  obtain ⟨hwait, hleads⟩ := Move.of_statement hmove
  exact h hwait.symm t hleads

/-- The end of a list halts when what comes after it does. -/
theorem halts_of_afterList {frames : List Frame} (h : Halts (afterList frames)) :
    Halts (.running [] frames) := by
  refine Acc.intro _ fun t hmove => ?_
  rw [Quiet] at hmove
  cases hmove with
  | list => exact h

/-- An exit halts. -/
theorem halts_left (exit : Exit) : Halts (.left exit) := Acc.intro _ fun _ hmove => nomatch hmove

/-- A loop that ends after finitely many rounds halts when each round halts before the rest. -/
theorem halts_rounds {body rest : List Statement} {frames : List Frame}
    (hrest : Halts (.running rest frames))
    (hbody : ∀ more, Halts (afterList (.rounds more body rest :: frames)) →
      Halts (.running body (.rounds more body rest :: frames))) (more : Nat) :
    Halts (afterList (.rounds more body rest :: frames)) := by
  induction more with
  | zero => exact hrest
  | succ more ih => exact hbody more ih

mutual

/-- A statement halts where its outlook says so. -/
theorem halts_statement : ∀ (s : Statement) (rest : List Statement) (frames : List Frame),
    (statementOutlook s).Halting (.running rest frames) (afterBreak frames) (afterContinue frames) →
    Halts (.running (s :: rest) frames)
  | .plain place kind tokens literals, rest, frames, h => by
    refine halts_of_leads fun hwait t hleads => ?_
    have hreceives : receives tokens = false := hwait
    rw [statementOutlook, hreceives, if_neg Bool.false_ne_true] at h
    cases hleads with
    | proceeds hkind hend =>
      refine h.falls ?_
      rcases hkind with rfl | rfl <;> rw [Outlook.ofPlain, hend] <;> rfl
    | terminates | returns => exact halts_left .ends
    | launches hkind => rcases hkind with rfl | rfl <;> exact h.falls rfl
    | breaks => exact h.breaks rfl
    | continues => exact h.continues rfl
  | .block place body, rest, frames, h => by
    refine halts_of_leads fun _ t hleads => ?_
    cases hleads with
    | block => exact halts_list body (.inside rest :: frames) h
  | .branch place header literals body otherwise, rest, frames, h => by
    refine halts_of_leads fun hwait t hleads => ?_
    have hreceives : receives header = false := hwait
    rw [statementOutlook, hreceives, if_neg Bool.false_ne_true] at h
    cases hleads with
    | branches => exact halts_list body (.inside rest :: frames) h.of_or.1
    | @otherwise _ _ _ _ other => exact halts_list other (.inside rest :: frames) h.of_or.2
    | skips => exact h.of_or.2.falls rfl
  | .loop place header literals body, rest, frames, h => by
    refine halts_of_leads fun hwait t hleads => ?_
    have hwaits : (receives header || ranges header) = false := hwait
    rw [statementOutlook, hwaits, if_neg Bool.false_ne_true] at h
    cases hleads with
    | endless hheader =>
      rw [hheader, if_pos rfl] at h
      obtain ⟨hspins, hfalls, -, -⟩ := h
      simp only [Outlook.endless, Bool.or_eq_false_iff] at hspins hfalls
      refine halts_list body (.endless body rest :: frames) ⟨hspins.1.1, ?_, hfalls, ?_⟩
      · simp [hspins.1.2]
      · simp [hspins.2]
    | rounds hheader more =>
      rw [hheader, if_neg Bool.false_ne_true] at h
      refine halts_rounds (h.falls rfl) (fun more ih => ?_) more
      exact halts_list body (.rounds more body rest :: frames)
        ⟨h.spins, fun _ => ih, fun _ => h.falls rfl, fun _ => ih⟩
  | .switch place header literals clauses, rest, frames, h => by
    refine halts_of_leads fun hwait t hleads => ?_
    have hreceives : receives header = false := hwait
    rw [statementOutlook, hreceives, if_neg Bool.false_ne_true] at h
    cases hleads with
    | switches hclause => exact halts_clauses clauses (.choice rest :: frames) h.of_choice _ hclause
    | passes hdefault => exact h.falls (by simp [Outlook.choice, hdefault])
  | .select place header literals clauses, rest, frames, h => by
    refine halts_of_leads fun hwait t hleads => ?_
    have hwaits : (receives header || clauses.any clauseReceives) = false := hwait
    rw [statementOutlook, hwaits, if_neg Bool.false_ne_true] at h
    cases hleads with
    | selects hclause => exact halts_clauses clauses (.choice rest :: frames) h.of_choice _ hclause

/-- A statement list halts where its outlook says so. -/
theorem halts_list : ∀ (body : List Statement) (frames : List Frame),
    (outlook body).Halting (afterList frames) (afterBreak frames) (afterContinue frames) →
    Halts (.running body frames)
  | [], _, h => halts_of_afterList (h.falls rfl)
  | s :: rest, frames, h => halts_statement s rest frames (h.of_andThen (halts_list rest frames))

/-- The bodies of clauses halt where their outlook says so. -/
theorem halts_clauses : ∀ (clauses : List Clause) (frames : List Frame),
    (clausesOutlook clauses).Halting (afterList frames) (afterBreak frames) (afterContinue frames) →
    ∀ c ∈ clauses, Halts (.running c.body frames)
  | .mk _ _ _ body :: rest, frames, h, c, hc => by
    rcases List.mem_cons.mp hc with rfl | hc
    · exact halts_list body frames h.of_or.1
    · exact halts_clauses rest frames h.of_or.2 c hc

end

/-- A statement that does not wait leads on without a wait. -/
theorem quiet_of_leads {s : Statement} {rest : List Statement} {frames : List Frame} {t : State}
    (hwait : waitsAt s = false) (h : Leads s rest frames t) : Quiet (.running (s :: rest) frames) t := by
  have := Move.statement h
  rw [hwait] at this
  exact this

/-- What a halting state leads to without a wait halts. -/
theorem Halts.of_transGen {s t : State} (hs : Halts s) (h : Relation.TransGen Quiet s t) : Halts t :=
  Acc.inv_of_transGen hs (Relation.transGen_swap.mpr h)

/-- A state that a run without a wait leads back to does not halt. -/
theorem not_halts_of_cycle {s : State} (h : Relation.TransGen Quiet s s) : ¬ Halts s := by
  intro hs
  induction hs with
  | intro s _ ih =>
    obtain ⟨t, hst, hts⟩ := Relation.TransGen.head'_iff.mp h
    exact ih t hst (Relation.TransGen.tail' hts hst)

/-- Runs without a wait from a state go wherever an outlook says that some do. -/
structure Outlook.Reaching (o : Outlook) (s falls breaks continues : State) : Prop where
  spins : o.spins = true → ¬ Halts s
  falls : o.falls = true → Relation.TransGen Quiet s falls
  breaks : o.breaks = true → Relation.TransGen Quiet s breaks
  continues : o.continues = true → Relation.TransGen Quiet s continues

namespace Outlook.Reaching

variable {a b : Outlook} {s t falls breaks continues : State}

/-- Nothing is reached when no run goes on. -/
theorem stopped : Outlook.stopped.Reaching s falls breaks continues := ⟨nofun, nofun, nofun, nofun⟩

/-- A step to the end of a statement. -/
theorem passes (h : Quiet s falls) : Outlook.passes.Reaching s falls breaks continues :=
  ⟨nofun, fun _ => .single h, nofun, nofun⟩

/-- A step before a run. -/
theorem after (h : Quiet s t) (ht : a.Reaching t falls breaks continues) :
    a.Reaching s falls breaks continues :=
  ⟨fun hspins hs => ht.spins hspins (hs.of_transGen (.single h)), fun hfalls => .head h (ht.falls hfalls),
    fun hbreaks => .head h (ht.breaks hbreaks), fun hcontinues => .head h (ht.continues hcontinues)⟩

/-- Runs that take either way. -/
theorem or (ha : a.Reaching s falls breaks continues) (hb : b.Reaching s falls breaks continues) :
    (a.or b).Reaching s falls breaks continues := by
  refine ⟨?_, ?_, ?_, ?_⟩ <;> simp only [Outlook.or, Bool.or_eq_true]
  · exact fun h => h.elim ha.spins hb.spins
  · exact fun h => h.elim ha.falls hb.falls
  · exact fun h => h.elim ha.breaks hb.breaks
  · exact fun h => h.elim ha.continues hb.continues

/-- Runs through the first statements, and on through the others. -/
theorem andThen (ha : a.Reaching s t breaks continues) (hb : b.Reaching t falls breaks continues) :
    (a.andThen b).Reaching s falls breaks continues := by
  cases hfalls : a.falls with
  | false =>
    simp only [Outlook.andThen, hfalls, Bool.false_eq_true, if_false]
    exact ⟨ha.spins, fun h => absurd (h.symm.trans hfalls) Bool.true_eq_false.mp, ha.breaks, ha.continues⟩
  | true =>
    have hst := ha.falls hfalls
    simp only [Outlook.andThen, hfalls, if_true]
    refine ⟨?_, fun h => hst.trans (hb.falls h), ?_, ?_⟩ <;> simp only [Bool.or_eq_true]
    · exact fun h => h.elim ha.spins fun hspins hs => hb.spins hspins (hs.of_transGen hst)
    · exact fun h => h.elim ha.breaks fun hbreaks => hst.trans (hb.breaks hbreaks)
    · exact fun h => h.elim ha.continues fun hcontinues => hst.trans (hb.continues hcontinues)

/-- Runs through a clause of a switch or select, or past it. -/
theorem choice {skips : Bool} (ha : a.Reaching s falls falls continues)
    (hskips : skips = true → Quiet s falls) :
    (a.choice skips).Reaching s falls breaks continues := by
  refine ⟨ha.spins, ?_, nofun, ha.continues⟩
  simp only [Outlook.choice, Bool.or_eq_true]
  exact fun h => h.elim (fun h => h.elim ha.falls ha.breaks) fun h => .single (hskips h)

/-- Runs through the rounds of a loop without a condition. -/
theorem endless (ha : a.Reaching s s falls s) : a.endless.Reaching s falls breaks continues := by
  refine ⟨?_, ha.breaks, nofun, nofun⟩
  simp only [Outlook.endless, Bool.or_eq_true]
  exact fun h => h.elim (fun h => h.elim ha.spins fun h => not_halts_of_cycle (ha.falls h))
    fun h => not_halts_of_cycle (ha.continues h)

end Outlook.Reaching

mutual

/-- Runs go through a statement as its outlook says. -/
theorem reaching_statement : ∀ (s : Statement) (rest : List Statement) (frames : List Frame),
    (statementOutlook s).Reaching (.running (s :: rest) frames) (.running rest frames) (afterBreak frames)
      (afterContinue frames)
  | .plain place kind tokens literals, rest, frames => by
    rw [statementOutlook]
    cases hreceives : receives tokens with
    | true => exact .stopped
    | false =>
      rw [if_neg Bool.false_ne_true]
      have quiet {t : State} (h : Leads (.plain place kind tokens literals) rest frames t) :
          Quiet (.running (.plain place kind tokens literals :: rest) frames) t :=
        quiet_of_leads (s := .plain place kind tokens literals) hreceives h
      cases kind with
      | simple | declaration =>
        rw [Outlook.ofPlain]
        cases hend : terminates tokens with
        | true => exact .stopped
        | false => exact .passes (quiet (.proceeds (by decide) hend))
      | go | defer => exact .passes (quiet (.launches (by decide)))
      | «break» => exact ⟨nofun, nofun, fun _ => .single (quiet .breaks), nofun⟩
      | «continue» => exact ⟨nofun, nofun, nofun, fun _ => .single (quiet .continues)⟩
      | «return» | goto | fallthrough => exact .stopped
  | .block place body, rest, frames =>
    .after (quiet_of_leads rfl .block) (reaching_list body (.inside rest :: frames))
  | .branch place header literals body otherwise, rest, frames => by
    rw [statementOutlook]
    cases hreceives : receives header with
    | true => exact .stopped
    | false =>
      refine .or (.after (quiet_of_leads hreceives .branches) (reaching_list body (.inside rest :: frames))) ?_
      match otherwise with
      | none => exact .passes (quiet_of_leads hreceives .skips)
      | some other =>
        exact .after (quiet_of_leads hreceives .otherwise) (reaching_list other (.inside rest :: frames))
  | .loop place header literals body, rest, frames => by
    rw [statementOutlook]
    cases hwaits : receives header || ranges header with
    | true => exact .stopped
    | false =>
      rw [if_neg Bool.false_ne_true]
      cases hheader : isInfinite header with
      | true =>
        exact .after (quiet_of_leads hwaits (.endless hheader))
          (.endless (reaching_list body (.endless body rest :: frames)))
      | false =>
        have enters (more : Nat) : Quiet (.running (.loop place header literals body :: rest) frames)
            (afterList (.rounds more body rest :: frames)) := quiet_of_leads hwaits (.rounds hheader more)
        have hbody := reaching_list body (.rounds 0 body rest :: frames)
        exact ⟨(hbody.after (enters 1)).spins, fun _ => .single (enters 0), nofun, nofun⟩
  | .switch place header literals clauses, rest, frames => by
    rw [statementOutlook]
    cases hreceives : receives header with
    | true => exact .stopped
    | false =>
      refine .choice (reaching_clauses clauses _ (.choice rest :: frames) fun c hc => ?_) fun h => ?_
      · exact quiet_of_leads hreceives (.switches hc)
      · exact quiet_of_leads hreceives (.passes (Bool.not_eq_true' _ ▸ h))
  | .select place header literals clauses, rest, frames => by
    rw [statementOutlook]
    cases hwaits : receives header || clauses.any clauseReceives with
    | true => exact .stopped
    | false =>
      refine .choice (reaching_clauses clauses _ (.choice rest :: frames) fun c hc => ?_) nofun
      exact quiet_of_leads hwaits (.selects hc)

/-- Runs go through a statement list as its outlook says. -/
theorem reaching_list : ∀ (body : List Statement) (frames : List Frame),
    (outlook body).Reaching (.running body frames) (afterList frames) (afterBreak frames)
      (afterContinue frames)
  | [], frames => .passes (.list frames)
  | s :: rest, frames => .andThen (reaching_statement s rest frames) (reaching_list rest frames)

/-- Runs from a state that leads to every clause go through the clauses as their outlook says. -/
theorem reaching_clauses : ∀ (clauses : List Clause) (s : State) (frames : List Frame),
    (∀ c ∈ clauses, Quiet s (.running c.body frames)) →
    (clausesOutlook clauses).Reaching s (afterList frames) (afterBreak frames) (afterContinue frames)
  | [], _, _, _ => .stopped
  | .mk _ _ _ body :: rest, s, frames, h =>
    .or (.after (h _ List.mem_cons_self) (reaching_list body frames))
      (reaching_clauses rest s frames fun c hc => h c (List.mem_cons_of_mem _ hc))

end

/-- Some run of a body goes on forever without a wait exactly when the outlook of the body spins. -/
theorem halts_iff_outlook (body : List Statement) :
    Halts (.running body []) ↔ (outlook body).spins = false := by
  constructor
  · intro h
    by_contra hspins
    rw [Bool.not_eq_false] at hspins
    exact (reaching_list body []).spins hspins h
  · intro h
    exact halts_list body [] ⟨h, fun _ => halts_left .falls, fun _ => halts_left .breaks,
      fun _ => halts_left .continues⟩

/-- A body that runs can stay in forever without a wait has such a run. -/
theorem exists_run_of_spins {body : List Statement} (h : (outlook body).spins = true) :
    ∃ run : InfiniteRun (.running body []), ∀ n, run.waits n = false := by
  by_contra hrun
  have hhalts : Halts (.running body []) := by
    rw [halts_iff]
    simpa using hrun
  exact absurd ((halts_iff_outlook body).mp hhalts) (by simp [h])

/-- No run of an accepted body falls off its end without a wait, and every infinite run executes a wait
exactly when no run without a wait stays inside the body forever. -/
theorem accepted_stopped_iff {body : List Statement} (hbody : Structured body)
    (haccepted : waitsForCancellation body = true) :
    ¬ Run (.running body []) false (.left .falls) ∧
      ((∀ run : InfiniteRun (.running body []), ∃ n, run.waits n = true) ↔ (outlook body).spins = false) :=
  ⟨not_falls_of_safe hbody (Bool.and_eq_true_iff.mp haccepted).2, by rw [← halts_iff, halts_iff_outlook]⟩

/-- The statement `for { select { case <-done: return; default: } }`. -/
def pollingLoop : List Statement :=
  [.loop ⟨none, ⟨1, 1⟩, 6⟩ [] []
    [.select ⟨none, ⟨2, 1⟩, 5⟩ [] []
      [.mk ⟨3, 1⟩ false [⟨.op, "<-", 3, 6⟩, ⟨.ident, "done", 3, 8⟩]
        [.plain ⟨none, ⟨3, 14⟩, 3⟩ .return [⟨.keyword, "return", 3, 14⟩] []],
       .mk ⟨4, 1⟩ true [] []]]]

/-- A loop that polls a signal is accepted, and every infinite run of it executes a wait. -/
theorem accepted_stopped_pollingLoop :
    Structured pollingLoop ∧ waitsForCancellation pollingLoop = true ∧
      ¬ Run (.running pollingLoop []) false (.left .falls) ∧
      ∀ run : InfiniteRun (.running pollingLoop []), ∃ n, run.waits n = true := by
  have hbody : Structured pollingLoop := by decide +kernel
  have haccepted : waitsForCancellation pollingLoop = true := by decide +kernel
  have hspins : (outlook pollingLoop).spins = false := by decide +kernel
  obtain ⟨hfalls, hinfinite⟩ := accepted_stopped_iff hbody haccepted
  exact ⟨hbody, haccepted, hfalls, hinfinite.mpr hspins⟩

/-- The statement `<-done` on a line. -/
def waitOnDone (line : Nat) : Statement :=
  .plain ⟨none, ⟨line, 1⟩, line⟩ .simple [⟨.op, "<-", line, 1⟩, ⟨.ident, "done", line, 3⟩] []

/-- The statement `for { if busy { continue }; <-done }`: the `continue` jumps over the wait. -/
def skippedWait : List Statement :=
  [.loop ⟨none, ⟨1, 1⟩, 6⟩ [] []
    [.branch ⟨none, ⟨2, 1⟩, 4⟩ [⟨.ident, "busy", 2, 4⟩] []
      [.plain ⟨none, ⟨3, 1⟩, 3⟩ .continue [⟨.keyword, "continue", 3, 1⟩] []] none,
     waitOnDone 5]]

/-- The statements `for { work() }` and `<-done`: the wait is never reached. -/
def unreachedWait : List Statement :=
  [.loop ⟨none, ⟨1, 1⟩, 3⟩ [] []
    [.plain ⟨none, ⟨2, 1⟩, 2⟩ .simple
      [⟨.ident, "work", 2, 1⟩, ⟨.op, "(", 2, 5⟩, ⟨.op, ")", 2, 6⟩] []],
   waitOnDone 4]

/-- Both bodies are accepted, and both have a run that goes on forever without a wait. -/
theorem accepted_spinning :
    (Structured skippedWait ∧ waitsForCancellation skippedWait = true ∧
      ∃ run : InfiniteRun (.running skippedWait []), ∀ n, run.waits n = false) ∧
    (Structured unreachedWait ∧ waitsForCancellation unreachedWait = true ∧
      ∃ run : InfiniteRun (.running unreachedWait []), ∀ n, run.waits n = false) := by
  constructor
  · exact ⟨by decide +kernel, by decide +kernel, exists_run_of_spins (by decide +kernel)⟩
  · exact ⟨by decide +kernel, by decide +kernel, exists_run_of_spins (by decide +kernel)⟩

end GoIdiom.Cancellation
