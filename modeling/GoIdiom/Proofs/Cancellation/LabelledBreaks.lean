import GoIdiom.Proofs.Cancellation.Fallthrough
import GoIdiom.Proofs.Cancellation.Unrolling

/-!
# Breaks with labels

A break with a label leaves the statement that it names, with everything around it up to there. The flow reads
no labels: inside a nested loop, switch or select it takes such a break for one that leaves the nested statement
only, so it goes on behind it and may find a wait that the path never reaches. On a path that leaves by each
break no more than the nearest such statement, nothing is lost, and a labelled loop that is left so is not safe.
-/

namespace GoIdiom.Cancellation

/-- The way on which a path leaves a statement list: off its end, or by a break, with its label if it has one. -/
inductive Way where
  | falls
  | breaks (label : Option String)
deriving DecidableEq, Repr

/-- The label of a break. -/
def breakLabel (tokens : List Token) : Option String := tokens[1]?.map (·.text)

/-- Whether a break with this label, from inside a statement, ends behind the statement. -/
def isLeftBy (label : Option String) : Statement → Bool
  | .loop place .. | .switch place .. | .select place .. => label.isNone || label == place.label
  | .plain .. | .block .. | .branch .. => false

/-- The statement lists inside a statement. -/
def innerLists : Statement → List (List Statement)
  | .plain .. => []
  | .block _ body | .loop _ _ _ body => [body]
  | .branch _ _ _ body otherwise => body :: otherwise.toList
  | .switch _ _ _ clauses | .select _ _ _ clauses => clauses.map (·.body)

/-- Whether paths go on behind a statement at the end of a list inside it, and not to another round. -/
def goesOn : Statement → Bool
  | .loop .. => false
  | _ => true

/-- Whether a path may pass by a statement without entering a list inside it. -/
def isPassed : Statement → Bool
  | .plain _ kind tokens _ =>
    match kind with
    | .simple | .declaration => !terminates tokens
    | .go | .defer => true
    | .return | .break | .continue | .goto | .fallthrough => false
  | .branch _ _ _ _ otherwise => otherwise.isNone
  | .loop _ header _ _ => !isInfinite header
  | .switch _ _ _ clauses => !clauses.any (·.isDefault)
  | .block .. | .select .. => false

/-- A path through a statement list that reaches no wait and does not end there, with the way on which it leaves
the list; `may` tells which breaks it may take out of a list inside a statement. A `continue` leads to the start
of a round and a `fallthrough` into a list that may be entered as well, so neither opens another way. No path goes
on at a `goto`. -/
inductive Path (may : Statement → List Statement → Option String → Bool) : List Statement → Way → Prop
  | done : Path may [] .falls
  | passes {s rest way} (hwait : waitsAt s = false) (hpassed : isPassed s = true) (more : Path may rest way) :
      Path may (s :: rest) way
  | through {s rest inner way} (hwait : waitsAt s = false) (hinner : inner ∈ innerLists s)
      (hgoes : goesOn s = true) (inside : Path may inner .falls) (more : Path may rest way) :
      Path may (s :: rest) way
  | jumps {place tokens literals rest} (hwait : receives tokens = false) :
      Path may (.plain place .break tokens literals :: rest) (.breaks (breakLabel tokens))
  | leaves {s rest inner label way} (hwait : waitsAt s = false) (hinner : inner ∈ innerLists s)
      (hmay : may s inner label = true) (inside : Path may inner (.breaks label)) (hleft : isLeftBy label s = true)
      (more : Path may rest way) : Path may (s :: rest) way
  | escapes {s rest inner label} (hwait : waitsAt s = false) (hinner : inner ∈ innerLists s)
      (hmay : may s inner label = true) (inside : Path may inner (.breaks label))
      (hleft : isLeftBy label s = false) : Path may (s :: rest) (.breaks label)

/-- Any break. -/
def anyBreak (_ : Statement) (_ : List Statement) (_ : Option String) : Bool := true

/-- A break that the flow takes as it is: it leaves no more than the nearest loop, switch or select, and stands in
no list that ends in `fallthrough`. -/
def nearestBreak (s : Statement) (inner : List Statement) (label : Option String) : Bool :=
  isLeftBy label s == isLeftBy none s && !inner.getLast?.any (·.isPlain .fallthrough)

/-- Whether a flow tells of a way. -/
def Flow.tellsOf (f : Flow) : Way → Prop
  | .falls => f.safe = false
  | .breaks _ => f.breaks = true

section Lists

variable {s : Statement} {rest : List Statement}

/-- The flow of a list tells of the ways behind a statement that is not safe. -/
theorem tellsOf_of_rest (hs : s.isPlain .continue = false) (hopen : (statementFlow s).safe = false) {way : Way}
    (h : (sequenceFlow rest).tellsOf way) : (sequenceFlow (s :: rest)).tellsOf way := by
  rw [sequenceFlow_cons, hs, if_neg Bool.false_ne_true, Flow.andThen, hopen, if_neg Bool.false_ne_true]
  cases way with
  | falls => exact h
  | breaks label => exact Bool.or_eq_true_iff.mpr (.inr h)

/-- The flow of a list tells of a break out of its first statement. -/
theorem tellsOf_of_breaks (hs : s.isPlain .continue = false) (hbreaks : (statementFlow s).breaks = true)
    (label : Option String) : (sequenceFlow (s :: rest)).tellsOf (.breaks label) := by
  rw [sequenceFlow_cons, hs, if_neg Bool.false_ne_true, Flow.andThen, hbreaks]
  split <;> rfl

end Lists

/-- A statement with a list inside is no plain one. -/
theorem isPlain_of_inner {s : Statement} {inner : List Statement} (h : inner ∈ innerLists s) (kind : PlainKind) :
    s.isPlain kind = false := by
  cases s with
  | plain => exact absurd h List.not_mem_nil
  | block | branch | loop | switch | select => rfl

/-- A path that falls off a list does not end at a `fallthrough`. -/
theorem Path.getLast {may : Statement → List Statement → Option String → Bool}
    {body : List Statement} {way : Way} (h : Path may body way) (hway : way = .falls) :
    body.getLast?.any (·.isPlain .fallthrough) = false := by
  have step {s : Statement} {rest : List Statement} (hs : s.isPlain .fallthrough = false)
      (hrest : rest.getLast?.any (·.isPlain .fallthrough) = false) :
      (s :: rest).getLast?.any (·.isPlain .fallthrough) = false := by
    cases rest with
    | nil => exact hs
    | cons t more => exact hrest
  induction h with
  | done => rfl
  | @passes s rest way hwait hpassed more ih =>
    refine step ?_ (ih hway)
    cases s with
    | plain place kind => cases kind <;> first | rfl | exact absurd hpassed Bool.false_ne_true
    | block | branch | loop | switch | select => rfl
  | through hwait hinner hgoes inside more _ ih => exact step (isPlain_of_inner hinner _) (ih hway)
  | leaves hwait hinner hmay inside hleft more _ ih => exact step (isPlain_of_inner hinner _) (ih hway)
  | jumps | escapes => exact absurd hway Way.noConfusion

section Statements

variable {s : Statement} {inner : List Statement}

/-- A statement that is passed by is not safe. -/
theorem open_of_passed (hwait : waitsAt s = false) (hpassed : isPassed s = true) :
    s.isPlain .continue = false ∧ (statementFlow s).safe = false := by
  cases s with
  | plain place kind tokens literals =>
    have hreceives : receives tokens = false := hwait
    cases kind with
    | simple | declaration =>
      have hend : terminates tokens = false := Bool.not_eq_true' _ |>.mp hpassed
      exact ⟨rfl, Bool.or_eq_false_iff.mpr ⟨hreceives, hend⟩⟩
    | go | defer => exact ⟨rfl, hreceives⟩
    | «return» | «break» | «continue» | goto | fallthrough => exact absurd hpassed Bool.false_ne_true
  | block | select => exact absurd hpassed Bool.false_ne_true
  | branch place header literals body otherwise =>
    have hreceives : receives header = false := hwait
    obtain rfl : otherwise = none := Option.isNone_iff_eq_none.mp hpassed
    rw [statementFlow_branch_none, hreceives, if_neg Bool.false_ne_true]
    exact ⟨rfl, rfl⟩
  | loop place header literals body =>
    have hwaits : (receives header || ranges header) = false := hwait
    have hbounded : (!isInfinite header) = true := hpassed
    rw [statementFlow_loop, hwaits, if_neg Bool.false_ne_true, if_pos hbounded]
    exact ⟨rfl, rfl⟩
  | switch place header literals clauses =>
    have hreceives : receives header = false := hwait
    have hdefault : clauses.any (·.isDefault) = false := Bool.not_eq_true' _ |>.mp hpassed
    rw [statementFlow_switch, hreceives, if_neg Bool.false_ne_true, hdefault]
    exact ⟨rfl, rfl⟩

/-- A clause that does not fall through has the flow of its body. -/
theorem sequenceFlow_mem_clauseFlows {c : Clause} {clauses : List Clause} (hc : c ∈ clauses)
    (hlast : c.body.getLast?.any (·.isPlain .fallthrough) = false) :
    sequenceFlow c.body ∈ clauseFlows clauses := by
  induction clauses with
  | nil => exact absurd hc List.not_mem_nil
  | cons d rest ih =>
    rw [clauseFlows_cons]
    rcases List.mem_cons.mp hc with rfl | hc
    · rw [fallsThrough, hlast, if_neg Bool.false_ne_true]
      exact List.mem_cons_self
    · exact List.mem_cons_of_mem _ (ih hc)

/-- Clauses are not all closed when the body of one is not safe or breaks. -/
theorem not_allClosed {clauses : List Clause} (hinner : inner ∈ clauses.map (·.body))
    (hlast : inner.getLast?.any (·.isPlain .fallthrough) = false)
    (hopen : ((sequenceFlow inner).safe && !(sequenceFlow inner).breaks) = false) :
    Flow.allClosed (clauseFlows clauses) = false := by
  obtain ⟨c, hc, rfl⟩ := List.mem_map.mp hinner
  rw [Flow.allClosed, List.all_eq_false]
  exact ⟨_, sequenceFlow_mem_clauseFlows hc hlast, by rw [hopen]; exact Bool.false_ne_true⟩

/-- A switch or select is not safe when the body of a clause is not, or breaks. -/
theorem open_of_clauses (hwait : waitsAt s = false) (hinner : inner ∈ s.clauses.map (·.body))
    (hlast : inner.getLast?.any (·.isPlain .fallthrough) = false)
    (hopen : ((sequenceFlow inner).safe && !(sequenceFlow inner).breaks) = false) :
    (statementFlow s).safe = false := by
  have hclosed := not_allClosed hinner hlast hopen
  cases s with
  | plain | block | branch | loop => exact absurd hinner List.not_mem_nil
  | switch place header literals clauses =>
    have hreceives : receives header = false := hwait
    rw [statementFlow_switch, hreceives, if_neg Bool.false_ne_true]
    exact Bool.and_eq_false_iff.mpr (.inr hclosed)
  | select place header literals clauses =>
    have hwaits : (receives header || clauses.any clauseReceives) = false := hwait
    rw [statementFlow_select, hwaits, if_neg Bool.false_ne_true]
    exact Bool.and_eq_false_iff.mpr (.inr hclosed)

/-- A statement is not safe when a list inside is not, loops apart. -/
theorem open_of_inner (hwait : waitsAt s = false) (hinner : inner ∈ innerLists s) (hgoes : goesOn s = true)
    (hlast : inner.getLast?.any (·.isPlain .fallthrough) = false) (hopen : (sequenceFlow inner).safe = false) :
    (statementFlow s).safe = false := by
  cases s with
  | plain => exact absurd hinner List.not_mem_nil
  | block place body =>
    obtain rfl := List.mem_singleton.mp hinner
    exact hopen
  | branch place header literals body otherwise =>
    have hreceives : receives header = false := hwait
    match otherwise with
    | none => rw [statementFlow_branch_none, hreceives, if_neg Bool.false_ne_true]
    | some other =>
      rw [statementFlow_branch_some, hreceives, if_neg Bool.false_ne_true]
      rcases List.mem_cons.mp hinner with rfl | hother
      · exact Bool.and_eq_false_iff.mpr (.inl hopen)
      · obtain rfl := List.mem_singleton.mp hother
        exact Bool.and_eq_false_iff.mpr (.inr hopen)
  | loop => exact absurd hgoes Bool.false_ne_true
  | switch place header literals clauses =>
    exact open_of_clauses hwait hinner hlast (by rw [hopen, Bool.false_and])
  | select place header literals clauses =>
    exact open_of_clauses hwait hinner hlast (by rw [hopen, Bool.false_and])

/-- A loop is not safe when its body breaks. -/
theorem open_of_breaks {place : Place} {header : List Token} {literals : List FuncLiteral} {body : List Statement}
    (hwait : waitsAt (.loop place header literals body) = false) (hbreaks : (sequenceFlow body).breaks = true) :
    (statementFlow (.loop place header literals body)).safe = false := by
  have hwaits : (receives header || ranges header) = false := hwait
  rw [statementFlow_loop, hwaits, if_neg Bool.false_ne_true]
  split
  · rfl
  · simp only [hbreaks, Bool.not_true, Bool.and_false]

/-- A statement is not safe when a break leaves it from a list inside. -/
theorem open_of_left {label : Option String} (hwait : waitsAt s = false) (hinner : inner ∈ innerLists s)
    (hleft : isLeftBy label s = true) (hlast : inner.getLast?.any (·.isPlain .fallthrough) = false)
    (hbreaks : (sequenceFlow inner).breaks = true) : (statementFlow s).safe = false := by
  cases s with
  | plain => exact absurd hinner List.not_mem_nil
  | block | branch => exact absurd hleft Bool.false_ne_true
  | loop place header literals body =>
    obtain rfl := List.mem_singleton.mp hinner
    exact open_of_breaks hwait hbreaks
  | switch place header literals clauses =>
    exact open_of_clauses hwait hinner hlast (by rw [hbreaks, Bool.not_true, Bool.and_false])
  | select place header literals clauses =>
    exact open_of_clauses hwait hinner hlast (by rw [hbreaks, Bool.not_true, Bool.and_false])

/-- A break out of a list inside a block or branch is one out of the block or branch. -/
theorem breaks_of_inner (hwait : waitsAt s = false) (hinner : inner ∈ innerLists s)
    (hleft : isLeftBy none s = false) (hbreaks : (sequenceFlow inner).breaks = true) :
    (statementFlow s).breaks = true := by
  cases s with
  | plain => exact absurd hinner List.not_mem_nil
  | loop | switch | select => exact absurd hleft Bool.true_eq_false.mp
  | block place body =>
    obtain rfl := List.mem_singleton.mp hinner
    exact hbreaks
  | branch place header literals body otherwise =>
    have hreceives : receives header = false := hwait
    match otherwise with
    | none =>
      obtain rfl := List.mem_singleton.mp hinner
      rwa [statementFlow_branch_none, hreceives, if_neg Bool.false_ne_true]
    | some other =>
      rw [statementFlow_branch_some, hreceives, if_neg Bool.false_ne_true]
      rcases List.mem_cons.mp hinner with rfl | hother
      · exact Bool.or_eq_true_iff.mpr (.inl hbreaks)
      · obtain rfl := List.mem_singleton.mp hother
        exact Bool.or_eq_true_iff.mpr (.inr hbreaks)

end Statements

/-- The flow tells of the ways of paths that take only breaks out of the nearest statement. -/
theorem Path.told {body : List Statement} {way : Way} (h : Path nearestBreak body way) :
    (sequenceFlow body).tellsOf way := by
  induction h with
  | done => rfl
  | passes hwait hpassed more ih =>
    obtain ⟨hs, hopen⟩ := open_of_passed hwait hpassed
    exact tellsOf_of_rest hs hopen ih
  | through hwait hinner hgoes inside more ihinside ih =>
    exact tellsOf_of_rest (isPlain_of_inner hinner _)
      (open_of_inner hwait hinner hgoes (inside.getLast rfl) ihinside) ih
  | jumps hwait => exact tellsOf_of_breaks rfl rfl _
  | leaves hwait hinner hmay inside hleft more ihinside ih =>
    obtain ⟨-, hlast⟩ := Bool.and_eq_true_iff.mp hmay
    exact tellsOf_of_rest (isPlain_of_inner hinner _)
      (open_of_left hwait hinner hleft (Bool.not_eq_true' _ ▸ hlast) ihinside) ih
  | escapes hwait hinner hmay inside hleft ihinside =>
    -- A break that goes further leaves a block or branch, since a loop or choice would have been the nearest.
    obtain ⟨hnearest, -⟩ := Bool.and_eq_true_iff.mp hmay
    have hnone := (beq_iff_eq.mp hnearest).symm.trans hleft
    exact tellsOf_of_breaks (isPlain_of_inner hinner _) (breaks_of_inner hwait hinner hnone ihinside) _

/-- A labelled loop that does not wait in its header is not safe, and no goroutine that consists of it is accepted,
when a path from the start of its body reaches a break with its label and leaves by each break the nearest loop,
switch or select. With other breaks on the path it is safe or not as without their labels: `fallthrough` left
aside, it is not safe exactly when some run of it, written out, falls off its end without a wait. -/
theorem labelledLoop_flow (label : String) (pos : Position) (endLine : Nat) (header : List Token)
    (literals : List FuncLiteral) (body : List Statement) :
    let loop : Statement := .loop ⟨some label, pos, endLine⟩ header literals body
    waitsAt loop = false →
      (Path nearestBreak body (.breaks (some label)) →
        (statementFlow loop).safe = false ∧ waitsForCancellation [loop] = false) ∧
      (WithoutFallthrough body →
        ((statementFlow loop).safe = false ↔ Run (.running (unrolled [loop]) []) false (.left .falls))) := by
  intro loop hwait
  refine ⟨fun hpath => ?_, fun hbody => ?_⟩
  · have hopen : (statementFlow loop).safe = false := open_of_breaks hwait hpath.told
    refine ⟨hopen, ?_⟩
    rw [waitsForCancellation, safe_singleton rfl, hopen, Bool.and_false]
  · have hloop : WithoutFallthrough [loop] := by
      rw [WithoutFallthrough, Statement.flattenList, Statement.flattenList, List.append_nil]
      exact List.forall_mem_cons.mpr ⟨rfl, hbody⟩
    rw [(unrolled_exact hloop).1, safe_singleton rfl]

/-- The statement `break outer`. -/
def breakOuter (line : Nat) : Statement :=
  .plain ⟨none, ⟨line, 1⟩, line⟩ .break
    [⟨.keyword, "break", line, 1⟩, ⟨.ident, "outer", line, 7⟩] []

/-- The statements `inner: switch { case idle: break inner; default: <-done }` and `if stale { break outer }`. -/
def breakBehindSwitch : List Statement :=
  [.switch ⟨some "inner", ⟨2, 1⟩, 7⟩ [] []
    [.mk ⟨3, 1⟩ false [⟨.ident, "idle", 3, 6⟩]
      [.plain ⟨none, ⟨4, 1⟩, 4⟩ .break [⟨.keyword, "break", 4, 1⟩, ⟨.ident, "inner", 4, 7⟩] []],
     .mk ⟨5, 1⟩ true [] [waitOnDone 6]],
   .branch ⟨none, ⟨8, 1⟩, 10⟩ [⟨.ident, "stale", 8, 4⟩] [] [breakOuter 9] none]

/-- A path leaves the switch by its own label and the loop `outer` by the other break, so the loop is not safe; and
a run of it, written out, falls off its end without a wait. -/
theorem labelledLoop_flow_breakBehindSwitch :
    let loop : Statement := .loop ⟨some "outer", ⟨1, 1⟩, 11⟩ [] [] breakBehindSwitch
    waitsAt loop = false ∧ Path nearestBreak breakBehindSwitch (.breaks (some "outer")) ∧
      (statementFlow loop).safe = false ∧ waitsForCancellation [loop] = false ∧
      Run (.running (unrolled [loop]) []) false (.left .falls) := by
  intro loop
  have hswitch : waitsAt breakBehindSwitch[0] = false := by decide +kernel
  have hinner : receives breakBehindSwitch[0].clauses[0].body[0].tokens = false := by decide +kernel
  have houter : receives (breakOuter 9).tokens = false := by decide +kernel
  have hbranch : waitsAt breakBehindSwitch[1] = false := by decide +kernel
  have hpath : Path nearestBreak breakBehindSwitch (.breaks (some "outer")) :=
    .leaves hswitch List.mem_cons_self rfl (.jumps hinner) rfl
      (.escapes hbranch List.mem_cons_self rfl (.jumps houter) rfl)
  obtain ⟨hopen, hexact⟩ := labelledLoop_flow "outer" ⟨1, 1⟩ 11 [] [] breakBehindSwitch rfl
  obtain ⟨hsafe, haccepted⟩ := hopen hpath
  exact ⟨rfl, hpath, hsafe, haccepted, (hexact (by decide +kernel)).mp hsafe⟩

/-- The statements `switch { case stale: break outer; default: }` and `<-done`. -/
def breakInsideSwitch : List Statement :=
  [.switch ⟨none, ⟨2, 1⟩, 6⟩ [] []
    [.mk ⟨3, 1⟩ false [⟨.ident, "stale", 3, 6⟩] [breakOuter 4], .mk ⟨5, 1⟩ true [] []],
   waitOnDone 7]

/-- A path from the start of the body leaves the loop `outer` without a wait, yet the loop is safe and accepted: its
flow takes the break for one out of the switch, behind which there is a wait. -/
theorem labelledBreak_lost :
    let loop : Statement := .loop ⟨some "outer", ⟨1, 1⟩, 8⟩ [] [] breakInsideSwitch
    isInfinite [] = true ∧ waitsAt loop = false ∧ Path anyBreak breakInsideSwitch (.breaks (some "outer")) ∧
      (statementFlow loop).safe = true ∧ waitsForCancellation [loop] = true := by
  have hswitch : waitsAt breakInsideSwitch[0] = false := by decide +kernel
  have houter : receives (breakOuter 4).tokens = false := by decide +kernel
  exact ⟨rfl, rfl, .escapes hswitch List.mem_cons_self rfl (.jumps houter) rfl,
    by decide +kernel, by decide +kernel⟩

end GoIdiom.Cancellation
