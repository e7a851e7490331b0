import GoIdiom.Proofs.Registry
import GoIdiom.Proofs.Outcome

/-!
# Severities that matchers choose

The matchers of the style catalog leave the severity of a hit to the rule and the configuration. One does not: an
interface with so many methods that it reaches a limit of its own is an error whatever the configuration says.
-/

namespace GoIdiom.Style

/-- Whether the number of methods of an interface is one that makes it an error. -/
def tooLargeIsError (options : Table) (i : InterfaceInfo) : Except MatchFailure Bool :=
  MatchContext.reaches i.methods.length ((options.lookup "error_at").getD (.int 5))

/-- With a limit that is a whole number, an interface is an error from that many methods on. -/
theorem tooLargeIsError_of_int {options : Table} {limit : Int}
    (h : (options.lookup "error_at").getD (.int 5) = .int limit)
    (i : InterfaceInfo) : tooLargeIsError options i = .ok (decide (limit ≤ i.methods.length)) := by
  have hmeasure : MatchContext.measure ">=" i.methods.length (.int limit) =
      .ok (some (compare (i.methods.length : Int) limit)) := rfl
  rw [tooLargeIsError, h, MatchContext.reaches, hmeasure]
  change Except.ok _ = _
  congr 1
  cases hcompare : compare (i.methods.length : Int) limit with
  | lt =>
    have hlt := Int.compare_eq_lt.mp hcompare
    exact (decide_eq_false (by omega)).symm
  | eq =>
    have heq := Int.compare_eq_eq.mp hcompare
    exact (decide_eq_true (by omega)).symm
  | gt =>
    have hgt := Int.compare_eq_gt.mp hcompare
    exact (decide_eq_true (by omega)).symm

/-- A number above a limit is reported at the construct itself. -/
theorem here_reportAbove (n : Nat) (limit : Document) (message : String) :
    Outcome (fun hits => ∀ hit ∈ hits, ∃ text, hit = .here text) (fun _ => True)
      (reportAbove n limit message) := by
  rw [reportAbove]
  cases MatchContext.above n limit with
  | error cause => exact .error trivial
  | ok above =>
    cases above with
    | false => exact .ok (List.forall_mem_nil _)
    | true =>
      cases limitText limit with
      | error cause => exact .error trivial
      | ok text => exact .ok (List.forall_mem_singleton.mpr ⟨_, rfl⟩)

/-- A report whose hits leave the severity open. -/
abbrev LeavesSeverity : Except MatchFailure (List Hit) → Prop :=
  Outcome (fun hits => ∀ hit ∈ hits, hit.severity = none) fun _ => True

namespace LeavesSeverity

variable {α : Type}

/-- A report without hits. -/
theorem nothing : LeavesSeverity (report []) := .ok (List.forall_mem_nil _)

/-- A report of one hit. -/
theorem once {hit : Hit} (h : hit.severity = none) : LeavesSeverity (report [hit]) :=
  .ok (List.forall_mem_singleton.mpr h)

/-- A report under a condition. -/
theorem whenHere (condition : Bool) (message : String) : LeavesSeverity (report (Hit.when condition message)) := by
  rw [Hit.when]
  split
  · exact once rfl
  · exact nothing

/-- A report at the places of some things. -/
theorem each (xs : List α) (pos : α → Position) (message : α → String) :
    LeavesSeverity (report (xs.map fun x => .at' (pos x) (message x))) := by
  refine .ok fun hit hhit => ?_
  obtain ⟨x, -, rfl⟩ := List.mem_map.mp hhit
  rfl

/-- A report on some things. -/
theorem some {xs : List α} {f : α → Option Hit} (h : ∀ x, ∀ hit ∈ f x, hit.severity = none) :
    LeavesSeverity (report (xs.filterMap f)) := by
  refine .ok fun hit hhit => ?_
  obtain ⟨x, -, hx⟩ := List.mem_filterMap.mp hhit
  exact h x hit hx

/-- Reports one after the other. -/
theorem append {as bs : List Hit} (ha : LeavesSeverity (report as)) (hb : LeavesSeverity (report bs)) :
    LeavesSeverity (report (as ++ bs)) :=
  .ok (List.forall_mem_append.mpr ⟨ha.of_ok, hb.of_ok⟩)

/-- A report that hangs on something that may fail. -/
theorem after {x : Except MatchFailure α} {f : α → Except MatchFailure (List Hit)}
    (h : ∀ a, LeavesSeverity (f a)) : LeavesSeverity (x >>= f) := by
  cases x with
  | error cause => exact .error trivial
  | ok a => exact h a

/-- A report of a number above a limit. -/
theorem above (n : Nat) (limit : Document) (message : String) : LeavesSeverity (reportAbove n limit message) := by
  refine (here_reportAbove n limit message).mono fun hits hhits hit hhit => ?_
  obtain ⟨text, rfl⟩ := hhits hit hhit
  rfl

end LeavesSeverity

open LeavesSeverity

namespace ErrorHandling

/-- No rule about errors sets the severity of a hit. -/
theorem leavesSeverity : ∀ r ∈ rules, ∀ c ctx, LeavesSeverity (r.predicate c ctx) := by
  simp only [rules, List.forall_mem_cons]
  refine ⟨?_, ?_, ?_, ?_, ?_, ?_, ?_, ?_, ?_, ?_, List.forall_mem_nil _⟩
  all_goals
    intro c ctx
    simp only [notWrapped, ignored, stringCompare, checkEmpty, swallowed, logAndReturn, stringFormat, wrapVerb,
      notLastResult, panicInLibrary]
    repeat' split
    all_goals first | exact whenHere _ _ | exact nothing

end ErrorHandling

namespace InterfaceDesign

/-- A hit on an interface that is too large is at the interface, and an error when the number of methods makes it
one. -/
theorem hits_tooLarge (c : Construct) (ctx : MatchContext) :
    Outcome (fun hits => ∀ hit ∈ hits, ∃ i isError text, c.detail = .interface i ∧
      tooLargeIsError ctx.options i = .ok isError ∧
        hit = { Hit.here text with severity := if isError then some .error else none })
      (fun _ => True) (tooLarge c ctx) := by
  rw [tooLarge]
  cases hdetail : c.detail with
  | interface i =>
    dsimp only
    cases hreaches : MatchContext.reaches i.methods.length (ctx.option "error_at" (.int 5)) with
    | error cause => exact .error trivial
    | ok isError =>
      cases isError with
      | true =>
        cases limitText (ctx.option "max_methods" (.int 2)) with
        | error cause => exact .error trivial
        | ok text => exact .ok (List.forall_mem_singleton.mpr ⟨i, true, _, rfl, hreaches, rfl⟩)
      | false =>
        refine (here_reportAbove _ _ _).mono fun hits hhits hit hhit => ?_
        obtain ⟨text, rfl⟩ := hhits hit hhit
        exact ⟨i, false, text, rfl, hreaches, rfl⟩
  | _ => exact .ok (List.forall_mem_nil _)

/-- The other rules leave the severity open. -/
theorem leavesSeverity : ∀ r ∈ rules, r.id ≠ "interface-too-large" →
    ∀ c ctx, LeavesSeverity (r.predicate c ctx) := by
  simp only [rules, List.forall_mem_cons]
  refine ⟨fun hid => absurd rfl hid, fun _ => ?_, fun _ => ?_, fun _ => ?_, fun _ => ?_, List.forall_mem_nil _⟩
  all_goals
    intro c ctx
    simp only [emptyParam, nameSuffix, returned, pointer]
    repeat' split
    all_goals first | exact whenHere _ _ | exact each _ _ _ | exact nothing

end InterfaceDesign

namespace Organization

/-- A naked return is reported with the severity of its rule. -/
theorem leavesSeverity_nakedReturn (c : Construct) (ctx : MatchContext) : LeavesSeverity (nakedReturn c ctx) := by
  rw [nakedReturn]
  cases c.detail with
  | function f =>
    dsimp only
    split
    · exact nothing
    · refine after fun short => ?_
      split
      · exact nothing
      · exact each _ _ _
  | _ => exact nothing

/-- No rule about the parts of a file sets the severity of a hit. -/
theorem leavesSeverity : ∀ r ∈ rules, ∀ c ctx, LeavesSeverity (r.predicate c ctx) := by
  simp only [rules, List.forall_mem_cons]
  refine ⟨?_, ?_, ?_, ?_, ?_, leavesSeverity_nakedReturn, ?_, ?_, ?_, List.forall_mem_nil _⟩
  all_goals
    intro c ctx
    simp only [initFunction, globalState, functionTooLong, tooManyParameters, deepNesting, dotImport, fileTooLong,
      exitOutsideMain]
    split
    · first | exact whenHere _ _ | exact above _ _ _
    · exact nothing

end Organization

namespace Testing

/-- The signature of a test is reported with the severity of its rule. -/
theorem leavesSeverity_signature (c : Construct) (ctx : MatchContext) : LeavesSeverity (signature c ctx) := by
  rw [signature]
  cases c.detail with
  | testFunction t =>
    dsimp only
    split
    · exact nothing
    · exact after fun expected => whenHere _ _
  | _ => exact nothing

/-- No rule about tests sets the severity of a hit. -/
theorem leavesSeverity : ∀ r ∈ rules, ∀ c ctx, LeavesSeverity (r.predicate c ctx) := by
  simp only [rules, List.forall_mem_cons]
  refine ⟨?_, leavesSeverity_signature, ?_, ?_, ?_, ?_, List.forall_mem_nil _⟩
  all_goals
    intro c ctx
    simp only [nameFormat, withoutAssertions, sleep, fatalInGoroutine, helperMissing]
    split
    · exact whenHere _ _
    · exact nothing

end Testing

namespace Concurrency

/-- A goroutine that cannot be stopped is reported with the severity of its rule. -/
theorem leavesSeverity_lifecycle (c : Construct) (ctx : MatchContext) : LeavesSeverity (lifecycle c ctx) := by
  rw [lifecycle]
  cases c.detail with
  | go g =>
    dsimp only
    split
    · exact whenHere _ _
    · refine after fun target => ?_
      split
      · exact whenHere _ _
      · exact whenHere _ _
  | _ => exact nothing

/-- A copied lock is reported with the severity of its rule. -/
theorem leavesSeverity_mutexCopy (c : Construct) (ctx : MatchContext) : LeavesSeverity (mutexCopy c ctx) := by
  rw [mutexCopy]
  cases c.detail with
  | function f => exact append (each _ _ _) (each _ _ _)
  | _ => exact nothing

/-- The size of a buffer is reported with the severity of its rule. -/
theorem leavesSeverity_bufferSize (c : Construct) (ctx : MatchContext) : LeavesSeverity (bufferSize c ctx) := by
  rw [bufferSize]
  cases c.detail with
  | channelMake ch =>
    dsimp only
    split
    · exact after fun large => whenHere _ _
    · exact nothing
  | _ => exact nothing

/-- No rule about concurrency sets the severity of a hit. -/
theorem leavesSeverity : ∀ r ∈ rules, ∀ c ctx, LeavesSeverity (r.predicate c ctx) := by
  simp only [rules, List.forall_mem_cons]
  refine ⟨leavesSeverity_lifecycle, leavesSeverity_mutexCopy, ?_, ?_, ?_, leavesSeverity_bufferSize, ?_,
    ?_, ?_, ?_, ?_, List.forall_mem_nil _⟩
  all_goals
    intro c ctx
    simp only [waitGroupByValue, waitGroups, deferInLoop, loopCapture, selectSingle, selectEmpty, contextNotFirst,
      contextInStruct, mutexEmbedded]
    repeat' split
    all_goals first | exact whenHere _ _ | exact each _ _ _ | exact nothing

end Concurrency

namespace Naming

/-- A getter with a prefix is reported with the severity of its rule. -/
theorem leavesSeverity_getterHead (c : Construct) (ctx : MatchContext) : LeavesSeverity (getterHead c ctx) := by
  rw [getterHead]
  cases c.detail with
  | function f =>
    dsimp only
    split
    · exact once rfl
    · exact nothing
  | _ => exact nothing

/-- A receiver called `this` or `self` is reported with the severity of its rule. -/
theorem leavesSeverity_receiverSelf (c : Construct) (ctx : MatchContext) : LeavesSeverity (receiverSelf c ctx) := by
  rw [receiverSelf]
  cases c.detail with
  | function f =>
    dsimp only
    cases f.receiver with
    | none => exact nothing
    | some r =>
      rw [Option.toList_some, List.flatMap_singleton]
      exact whenHere _ _
  | _ => exact nothing

/-- A receiver of two names is reported with the severity of its rule. -/
theorem leavesSeverity_receiverInconsistent (c : Construct) (ctx : MatchContext) :
    LeavesSeverity (receiverInconsistent c ctx) := by
  rw [receiverInconsistent]
  cases c.detail with
  | function f =>
    dsimp only
    split
    · refine after fun found => ?_
      split
      · exact whenHere _ _
      · exact nothing
    · exact nothing
  | _ => exact nothing

/-- A package name that says nothing is reported with the severity of its rule. -/
theorem leavesSeverity_packageGeneric (c : Construct) (ctx : MatchContext) :
    LeavesSeverity (packageGeneric c ctx) := by
  rw [packageGeneric]
  cases c.detail with
  | package name isTest => exact after fun generic => whenHere _ _
  | _ => exact nothing

/-- A hit at a name leaves the severity open. -/
theorem severity_hitAt (pos : Option Position) (message : String) : (hitAt pos message).severity = none := by
  cases pos <;> rfl

/-- An underscore in a name is reported with the severity of its rule. -/
theorem leavesSeverity_underscore (c : Construct) (ctx : MatchContext) : LeavesSeverity (underscore c ctx) := by
  refine some fun d hit hhit => ?_
  dsimp only at hhit
  obtain ⟨-, hhit⟩ := Option.ite_none_right_eq_some.mp hhit
  rw [← Option.some.inj hhit]
  exact severity_hitAt _ _

/-- The case of an initialism is reported with the severity of its rule. -/
theorem leavesSeverity_initialismCase (c : Construct) (ctx : MatchContext) :
    LeavesSeverity (initialismCase c ctx) := by
  refine some fun d hit hhit => ?_
  dsimp only at hhit
  obtain ⟨-, hhit⟩ := Option.ite_none_left_eq_some.mp hhit
  rw [← Option.some.inj hhit]
  exact severity_hitAt _ _

/-- Names of error values are reported with the severity of their rule. -/
theorem leavesSeverity_errorValues (names : List (String × Position)) : LeavesSeverity (errorValues names) := by
  induction names with
  | nil => exact nothing
  | cons name rest ih =>
    rw [errorValues]
    dsimp only
    generalize (if Name.isExported name.1 then "Err" else "err") = head
    split
    · exact .error trivial
    · refine Outcome.bind ih fun more hmore => .ok ?_
      split
      · exact List.forall_mem_cons.mpr ⟨rfl, hmore⟩
      · exact hmore

/-- The name of an error is reported with the severity of its rule. -/
theorem leavesSeverity_errorNaming (c : Construct) (ctx : MatchContext) : LeavesSeverity (errorNaming c ctx) := by
  rw [errorNaming]
  split
  · split
    · exact leavesSeverity_errorValues _
    · exact nothing
  · exact whenHere _ _
  · exact whenHere _ _
  · exact nothing

/-- No rule about names sets the severity of a hit. -/
theorem leavesSeverity : ∀ r ∈ rules, ∀ c ctx, LeavesSeverity (r.predicate c ctx) := by
  simp only [rules, List.forall_mem_cons]
  refine ⟨?_, leavesSeverity_getterHead, leavesSeverity_receiverSelf, leavesSeverity_receiverInconsistent,
    leavesSeverity_packageGeneric, ?_, leavesSeverity_underscore, leavesSeverity_initialismCase, ?_,
    leavesSeverity_errorNaming, List.forall_mem_nil _⟩
  all_goals
    intro c ctx
    simp only [methodStutter, packageFormat, packageStutter]
    repeat' split
    all_goals first | exact whenHere _ _ | exact nothing

end Naming

/-- Every rule of the catalog but one leaves the severity of its hits open. -/
theorem leavesSeverity_of_mem {category : Category} {r : StyleRule} (hr : r ∈ rulesOf category)
    (hid : r.id ≠ "interface-too-large") (c : Construct) (ctx : MatchContext) :
    LeavesSeverity (r.predicate c ctx) := by
  cases category with
  | errorHandling => exact ErrorHandling.leavesSeverity r hr c ctx
  | interfaceDesign => exact InterfaceDesign.leavesSeverity r hr hid c ctx
  | concurrency => exact Concurrency.leavesSeverity r hr c ctx
  | naming => exact Naming.leavesSeverity r hr c ctx
  | testing => exact Testing.leavesSeverity r hr c ctx
  | organization => exact Organization.leavesSeverity r hr c ctx

/-- The rule that chooses severities is the one on interfaces that are too large. -/
theorem predicate_of_tooLarge {category : Category} {r : StyleRule} (hr : r ∈ rulesOf category)
    (hid : r.id = "interface-too-large") : r.predicate = InterfaceDesign.tooLarge := by
  have hother (rules : List StyleRule) (hrules : rules.all (·.id != "interface-too-large") = true)
      (hr : r ∈ rules) :
      r.predicate = InterfaceDesign.tooLarge :=
    absurd hid (bne_iff_ne.mp (List.all_eq_true.mp hrules r hr))
  cases category with
  | interfaceDesign =>
    rcases List.mem_cons.mp hr with rfl | hr
    · rfl
    · exact hother InterfaceDesign.rules.tail (by decide) hr
  | errorHandling => exact hother ErrorHandling.rules (by decide) hr
  | concurrency => exact hother Concurrency.rules (by decide) hr
  | naming => exact hother Naming.rules (by decide) hr
  | testing => exact hother Testing.rules (by decide) hr
  | organization => exact hother Organization.rules (by decide) hr

end GoIdiom.Style
