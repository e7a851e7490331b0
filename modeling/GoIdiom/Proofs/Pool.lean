import GoIdiom.Proofs.Accounting
import GoIdiom.Style.Catalog
import Mathlib.Data.List.Nodup
import Mathlib.Logic.Relation

/-!
# Runs on a pool of workers

A run submits a task for every file. Workers take the tasks in their order; a worker that has taken one looks at the
cancel event, declines if it is set, and analyzes the file otherwise. Tasks that no worker has taken may be
withdrawn once the event is set. The event can be set between any two steps, and workers go on in any order.

Whatever the schedule is, the run that is collected in the end is the one over the files whose tasks were neither
declined nor withdrawn; and with a worker for each file every selection of files comes about.
-/

namespace GoIdiom

/-- How far a task has come. -/
inductive TaskState where
  | queued
  | taken
  | working
  | done (result : FileResult)
  | declined
  | withdrawn
deriving DecidableEq, Repr

/-- The analysis of the file at a path. -/
structure Task where
  path : String
  state : TaskState
deriving DecidableEq, Repr

namespace Task

/-- The result of a task that has one. -/
def result? (t : Task) : Option FileResult :=
  match t.state with
  | .done r => some r
  | _ => none

/-- Whether a worker has the task. -/
def isBusy (t : Task) : Bool := t.state == .taken || t.state == .working

/-- How many more steps the task can take. -/
def left (t : Task) : Nat :=
  match t.state with
  | .queued => 3
  | .taken => 2
  | .working => 1
  | .done _ | .declined | .withdrawn => 0

end Task

/-- The tasks of a run, and whether the cancel event is set. -/
structure Pool where
  tasks : List Task
  cancelled : Bool
deriving DecidableEq, Repr

namespace Pool

/-- The pool before any task is taken. -/
def start (files : List String) : Pool := ⟨files.map fun p => ⟨p, .queued⟩, false⟩

/-- Whether every task is over. -/
def IsOver (pool : Pool) : Prop := ∀ t ∈ pool.tasks, t.left = 0

/-- What the steps of a task lead to, with the cancel event as it is. -/
inductive Move (analyze : String → FileResult) (path : String) : Bool → TaskState → TaskState → Prop where
  | take (cancelled : Bool) : Move analyze path cancelled .queued .taken
  | begin : Move analyze path false .taken .working
  | decline : Move analyze path true .taken .declined
  | finish (cancelled : Bool) : Move analyze path cancelled .working (.done (analyze path))
  | withdraw : Move analyze path true .queued .withdrawn

/-- The steps of a pool. A task is taken when those before it are, by a worker that is free. -/
inductive Step (analyze : String → FileResult) (workers : Nat) : Pool → Pool → Prop where
  | cancel (tasks : List Task) : Step analyze workers ⟨tasks, false⟩ ⟨tasks, true⟩
  | move (before after : List Task) {path : String} {cancelled : Bool} {state next : TaskState}
      (h : Move analyze path cancelled state next)
      (hturn : next = .taken → (∀ t ∈ before, t.state ≠ .queued) ∧
        (before ++ after).countP (·.isBusy) < workers) :
      Step analyze workers ⟨before ++ ⟨path, state⟩ :: after, cancelled⟩
        ⟨before ++ ⟨path, next⟩ :: after, cancelled⟩

/-- What a pool leads to. -/
abbrev Reaches (analyze : String → FileResult) (workers : Nat) : Pool → Pool → Prop :=
  Relation.ReflTransGen (Step analyze workers)

variable {analyze : String → FileResult} {workers : Nat} {files : List String} {pool next : Pool}

/-! ## What every schedule keeps -/

/-- A task that is in line with the cancel event: a result is the one of the file on its own, and only a cancelled
run declines or withdraws. -/
def InLine (analyze : String → FileResult) (cancelled : Bool) (t : Task) : Prop :=
  match t.state with
  | .done r => r = analyze t.path
  | .declined | .withdrawn => cancelled = true
  | _ => True

/-- What holds at any time: there is a task for each file, and every task is in line. -/
structure Sound (analyze : String → FileResult) (files : List String) (pool : Pool) : Prop where
  paths : pool.tasks.map (·.path) = files
  inLine : ∀ t ∈ pool.tasks, InLine analyze pool.cancelled t

/-- Setting the event leaves a task in line. -/
theorem InLine.cancel {cancelled : Bool} {t : Task} (h : InLine analyze cancelled t) : InLine analyze true t := by
  unfold InLine at h ⊢
  split at h
  · exact h
  · rfl
  · rfl
  · trivial

/-- A task is in line after each of its steps. -/
theorem Move.inLine {path : String} {cancelled : Bool} {state next : TaskState}
    (h : Move analyze path cancelled state next) : InLine analyze cancelled ⟨path, next⟩ := by
  cases h <;> trivial

/-- The pool is sound before any task is taken. -/
theorem sound_start : Sound analyze files (start files) where
  paths := by
    rw [start, List.map_map]
    exact List.map_id _
  inLine t ht := by
    obtain ⟨p, -, rfl⟩ := List.mem_map.mp ht
    trivial

/-- A step keeps the pool sound. -/
theorem Step.sound (h : Step analyze workers pool next) (hpool : Sound analyze files pool) :
    Sound analyze files next := by
  cases h with
  | cancel tasks => exact ⟨hpool.paths, fun t ht => (hpool.inLine t ht).cancel⟩
  | move before after hmove hturn =>
    constructor
    · rw [← hpool.paths]
      simp only [List.map_append, List.map_cons]
    · intro t ht
      rcases List.mem_append.mp ht with ht | ht
      · exact hpool.inLine t (List.mem_append_left _ ht)
      · rcases List.mem_cons.mp ht with rfl | ht
        · exact hmove.inLine
        · exact hpool.inLine t (List.mem_append_right _ (List.mem_cons_of_mem _ ht))

/-- Every schedule keeps the pool sound. -/
theorem Reaches.sound (h : Reaches analyze workers (start files) pool) : Sound analyze files pool := by
  induction h with
  | refl => exact sound_start
  | tail _ hstep ih => exact hstep.sound ih

/-! ## Collecting the results -/

/-- The run that is collected from a pool. -/
def collect (pool : Pool) (pathFaults : List Fault) : Run :=
  { results := Run.byPath (pool.tasks.filterMap (·.result?))
    skipped := ((pool.tasks.filter (·.result?.isNone)).map (·.path)).mergeSort (· ≤ ·)
    cancelled := pool.cancelled
    pathFaults := pathFaults }

/-- Whether the task of a file has no result. -/
def skips (pool : Pool) (path : String) : Bool := pool.tasks.any fun t => t.path == path && t.result?.isNone

/-- A file is skipped exactly when its task, the only one for it, has no result. -/
theorem skips_path (hfiles : (pool.tasks.map (·.path)).Nodup) {t : Task} (ht : t ∈ pool.tasks) :
    pool.skips t.path = t.result?.isNone := by
  rw [Bool.eq_iff_iff, skips, List.any_eq_true]
  constructor
  · rintro ⟨s, hs, h⟩
    rw [Bool.and_eq_true, beq_iff_eq] at h
    rw [List.inj_on_of_nodup_map hfiles ht hs h.1.symm]
    exact h.2
  · intro h
    exact ⟨t, ht, by rw [h, beq_self_eq_true, Bool.and_self]⟩

/-- The results are those of the tasks that have one. -/
theorem filterMap_result? {tasks : List Task} {cancelled : Bool} (h : ∀ t ∈ tasks, InLine analyze cancelled t) :
    tasks.filterMap (·.result?) = ((tasks.filter (·.result?.isSome)).map (·.path)).map analyze := by
  induction tasks with
  | nil => rfl
  | cons t rest ih =>
    obtain ⟨ht, hrest⟩ := List.forall_mem_cons.mp h
    rw [List.filterMap_cons, List.filter_cons, ih hrest]
    obtain ⟨path, state⟩ := t
    cases state with
    | done r =>
      obtain rfl : r = analyze path := ht
      rfl
    | _ => rfl

/-- The run that is collected in the end is the one over the files whose tasks have a result. -/
theorem collect_eq_runSkipping {l : Linter} {w : Workspace} {paths : List String}
    (h : Reaches (l.analyzeFile w) workers (start (l.filesOf w paths)) pool) :
    pool.collect (Discovery.ofPaths w l.config.exclude paths).faults =
      l.runSkipping w paths pool.cancelled pool.skips := by
  obtain ⟨hpaths, hinLine⟩ := Reaches.sound h
  have hsorted := Discovery.pairwise_files w l.config.exclude paths
  change (l.filesOf w paths).Pairwise _ at hsorted
  have hnodup : (pool.tasks.map (·.path)).Nodup := by
    rw [hpaths]
    exact hsorted.imp ne_of_lt
  have hskipped :
      (l.filesOf w paths).filter pool.skips = (pool.tasks.filter (·.result?.isNone)).map (·.path) := by
    rw [← hpaths, List.filter_map]
    exact congrArg _ (List.filter_congr fun t ht => skips_path hnodup ht)
  have hkept : (l.filesOf w paths).filter (fun p => !pool.skips p) =
      (pool.tasks.filter (·.result?.isSome)).map (·.path) := by
    rw [← hpaths, List.filter_map]
    refine congrArg _ (List.filter_congr fun t ht => ?_)
    rw [Function.comp_apply, skips_path hnodup ht, Option.not_isNone]
  have hresults : pool.tasks.filterMap (·.result?) =
      ((l.filesOf w paths).filter fun p => !pool.skips p).map (l.analyzeFile w) := by
    rw [filterMap_result? hinLine, hkept]
  have hinOrder : ((pool.tasks.filter (·.result?.isNone)).map (·.path)).mergeSort (· ≤ ·) =
      (l.filesOf w paths).filter pool.skips := by
    rw [← hskipped]
    apply List.mergeSort_of_pairwise
    exact (hsorted.sublist List.filter_sublist).imp fun hpq => decide_eq_true hpq.le
  rw [collect, hresults, hinOrder]
  rfl

/-- When all tasks are over and the event is not set, no file is skipped. -/
theorem skips_eq_false (h : Reaches analyze workers (start files) pool) (hover : pool.IsOver)
    (hcancelled : pool.cancelled = false) (path : String) : pool.skips path = false := by
  rw [skips, List.any_eq_false]
  intro t ht hskip
  have hline := (Reaches.sound h).inLine t ht
  have hleft := hover t ht
  rw [hcancelled] at hline
  obtain ⟨p, state⟩ := t
  cases state with
  | done r => simp [Task.result?] at hskip
  | queued => cases hleft
  | taken => cases hleft
  | working => cases hleft
  | declined => cases hline
  | withdrawn => cases hline

/-! ## Every schedule comes to an end -/

/-- How many more steps the pool can take. -/
def left (pool : Pool) : Nat := (pool.tasks.map (·.left)).sum + if pool.cancelled then 0 else 1

/-- A step of a task leaves it one step less. -/
theorem Move.left_lt {path : String} {cancelled : Bool} {state next : TaskState}
    (h : Move analyze path cancelled state next) : Task.left ⟨path, next⟩ < Task.left ⟨path, state⟩ := by
  cases h <;> simp [Task.left]

/-- The pool can take fewer steps after each one. -/
theorem Step.left_lt (h : Step analyze workers pool next) : next.left < pool.left := by
  cases h with
  | cancel tasks => simp [left]
  | move before after hmove hturn =>
    have hlt := hmove.left_lt
    simp only [left, List.map_append, List.map_cons, List.sum_append, List.sum_cons]
    omega

/-- Before all tasks are over some step is possible, if there is a worker at all. -/
theorem exists_step (hworkers : 0 < workers) (hover : ¬pool.IsOver) :
    ∃ next, Step analyze workers pool next := by
  obtain ⟨tasks, cancelled⟩ := pool
  by_cases hbusy : ∃ t ∈ tasks, t.isBusy = true
  · obtain ⟨⟨path, state⟩, ht, hstate⟩ := hbusy
    obtain ⟨before, after, rfl⟩ := List.append_of_mem ht
    cases state with
    | taken =>
      cases cancelled with
      | false => exact ⟨_, .move before after .begin nofun⟩
      | true => exact ⟨_, .move before after .decline nofun⟩
    | working => exact ⟨_, .move before after (.finish cancelled) nofun⟩
    | _ => cases hstate
  · -- No worker has a task, so one that is left is queued, and the first of them can be taken.
    have hidle : ∀ t ∈ tasks, ¬t.isBusy = true := fun t ht h => hbusy ⟨t, ht, h⟩
    have hqueued : ∃ t ∈ tasks, (t.state == .queued) = true := by
      by_contra hnone
      apply hover
      intro t ht
      have hnot := hidle t ht
      have hwaits : ¬(t.state == .queued) = true := fun h => hnone ⟨t, ht, h⟩
      obtain ⟨path, state⟩ := t
      cases state with
      | queued => exact absurd rfl hwaits
      | taken => exact absurd rfl hnot
      | working => exact absurd rfl hnot
      | _ => rfl
    obtain ⟨first, hfirst⟩ := Option.isSome_iff_exists.mp (List.find?_isSome.mpr hqueued)
    obtain ⟨hstate, before, after, rfl, hbefore⟩ := List.find?_eq_some_iff_append.mp hfirst
    obtain ⟨path, state⟩ := first
    obtain rfl : state = .queued := beq_iff_eq.mp hstate
    refine ⟨_, .move before after (.take cancelled) fun _ => ⟨fun t ht h => ?_, ?_⟩⟩
    · simpa [h] using hbefore t ht
    · rw [List.countP_eq_zero.mpr]
      · exact hworkers
      · intro t ht
        apply hidle t
        rcases List.mem_append.mp ht with ht | ht
        · exact List.mem_append_left _ ht
        · exact List.mem_append_right _ (List.mem_cons_of_mem _ ht)

/-- Every schedule can be carried on until all tasks are over. -/
theorem exists_reaches_isOver (hworkers : 0 < workers) (pool : Pool) :
    ∃ last, Reaches analyze workers pool last ∧ last.IsOver := by
  induction hleft : pool.left using Nat.strong_induction_on generalizing pool with
  | _ n ih =>
    by_cases hover : pool.IsOver
    · exact ⟨pool, .refl, hover⟩
    · obtain ⟨next, hstep⟩ : ∃ next, Step analyze workers pool next := exists_step hworkers hover
      obtain ⟨last, hreaches, hlast⟩ := ih next.left (hleft ▸ hstep.left_lt) next rfl
      exact ⟨last, .head hstep hreaches, hlast⟩

/-! ## Every selection of files comes about -/

/-- With a worker for each of them all tasks can be taken before anything else happens. -/
theorem reaches_taken (cancelled : Bool) (front : List Task) (hfront : ∀ t ∈ front, t.state = .taken)
    (hworkers : front.length + files.length ≤ workers) :
    Reaches analyze workers ⟨front ++ files.map (⟨·, .queued⟩), cancelled⟩
      ⟨front ++ files.map (⟨·, .taken⟩), cancelled⟩ := by
  induction files generalizing front with
  | nil => exact .refl
  | cons p rest ih =>
    rw [List.length_cons] at hworkers
    have hqueued : ∀ t ∈ front, t.state ≠ .queued := fun t ht h => by simp [hfront t ht] at h
    have hidle : (rest.map fun q => (⟨q, .queued⟩ : Task)).countP (·.isBusy) = 0 := by
      rw [List.countP_eq_zero]
      intro t ht
      obtain ⟨q, -, rfl⟩ := List.mem_map.mp ht
      simp [Task.isBusy]
    have hfree : (front ++ rest.map fun q => (⟨q, .queued⟩ : Task)).countP (·.isBusy) < workers := by
      have hle := List.countP_le_length (p := fun t : Task => t.isBusy) (l := front)
      rw [List.countP_append, hidle]
      omega
    have hstep : Step analyze workers ⟨front ++ (p :: rest).map (⟨·, .queued⟩), cancelled⟩
        ⟨front ++ ⟨p, .taken⟩ :: rest.map (⟨·, .queued⟩), cancelled⟩ :=
      .move front _ (.take cancelled) fun _ => ⟨hqueued, hfree⟩
    have htaken : ∀ t ∈ front ++ [⟨p, .taken⟩], t.state = .taken := by
      intro t ht
      rcases List.mem_append.mp ht with ht | ht
      · exact hfront t ht
      · rw [List.mem_singleton.mp ht]
    have hrest := ih (front ++ [⟨p, .taken⟩]) htaken (by rw [List.length_append, List.length_singleton]; omega)
    rw [List.append_assoc, List.append_assoc] at hrest
    exact .head hstep hrest

/-- What each task can do whatever the others are doing, all can do one after the other. -/
theorem reaches_map {cancelled : Bool} {f g : String → Task} (h : ∀ before after p,
      Reaches analyze workers ⟨before ++ f p :: after, cancelled⟩ ⟨before ++ g p :: after, cancelled⟩)
    (front : List Task) (files : List String) :
    Reaches analyze workers ⟨front ++ files.map f, cancelled⟩ ⟨front ++ files.map g, cancelled⟩ := by
  induction files generalizing front with
  | nil => exact .refl
  | cons p rest ih =>
    have hrest := ih (front ++ [g p])
    rw [List.append_assoc, List.append_assoc] at hrest
    exact (h front (rest.map f) p).trans hrest

/-- With a worker for each file every selection of files is skipped by some schedule. -/
theorem exists_reaches_skips (hworkers : files.length ≤ workers) (skips : String → Bool) :
    ∃ pool, Reaches analyze workers (start files) pool ∧ pool.IsOver ∧
    ∀ p ∈ files, pool.skips p = skips p := by
  let taken (p : String) : Task := ⟨p, .taken⟩
  let analyzed (p : String) : Task := ⟨p, if skips p then .taken else .done (analyze p)⟩
  let last (p : String) : Task := ⟨p, if skips p then .declined else .done (analyze p)⟩
  have htaken : Reaches analyze workers (start files) ⟨files.map taken, false⟩ :=
    reaches_taken false [] nofun (by simpa using hworkers)
  have hanalyzed : Reaches analyze workers ⟨files.map taken, false⟩ ⟨files.map analyzed, false⟩ := by
    apply reaches_map _ []
    intro before after p
    by_cases hskip : skips p = true
    · simp only [analyzed, hskip, if_true]
      exact .refl
    · simp only [analyzed, hskip]
      exact .head (.move before after .begin nofun) (.single (.move before after (.finish false) nofun))
  have hlast : Reaches analyze workers ⟨files.map analyzed, true⟩ ⟨files.map last, true⟩ := by
    apply reaches_map _ []
    intro before after p
    by_cases hskip : skips p = true
    · simp only [analyzed, last, hskip, if_true]
      exact .single (.move before after .decline nofun)
    · simp only [analyzed, last, hskip]
      exact .refl
  refine ⟨⟨files.map last, true⟩, (htaken.trans hanalyzed).trans (.head (.cancel _) hlast), ?_, ?_⟩
  · intro t ht
    obtain ⟨p, -, rfl⟩ := List.mem_map.mp ht
    by_cases hskip : skips p = true <;> simp [last, hskip, Task.left]
  · intro p hp
    rw [Bool.eq_iff_iff, Pool.skips, List.any_map, List.any_eq_true]
    constructor
    · rintro ⟨q, -, h⟩
      by_cases hskip : skips q = true <;> simp_all [last, Task.result?]
    · intro hskip
      exact ⟨p, hp, by simp [last, hskip, Task.result?]⟩

/-- A run accounts for every file exactly once, whenever it is cancelled. Whichever files are skipped, each file
that is found has a result or is skipped, and the result is the one of the file on its own; every schedule of the
workers gives such a run, which skips nothing unless it is cancelled; and with enough workers every selection of
files is skipped by some schedule. -/
theorem collect_accounts (l : Linter) (w : Workspace) (paths : List String) :
    let found := Discovery.ofPaths w l.config.exclude paths
    let reaches (workers : Nat) (pool : Pool) := Reaches (l.analyzeFile w) workers (start found.files) pool
    (∀ (cancelled : Bool) (skips : String → Bool),
      (l.runSkipping w paths cancelled skips).Accounts l w paths) ∧
      (∀ (workers : Nat) (pool : Pool), reaches workers pool → pool.IsOver →
        pool.collect found.faults = l.runSkipping w paths pool.cancelled pool.skips ∧
          (pool.cancelled = false → (pool.collect found.faults).skipped = [])) ∧
      ∀ (workers : Nat) (skips : String → Bool), found.files.length ≤ workers →
        ∃ pool, reaches workers pool ∧ pool.IsOver ∧ ∀ p ∈ found.files, pool.skips p = skips p := by
  intro found reaches
  refine ⟨l.accounts_runSkipping w paths, ?_, fun workers skips hworkers => exists_reaches_skips hworkers skips⟩
  intro workers pool hreaches hover
  have hcollect : pool.collect found.faults = l.runSkipping w paths pool.cancelled pool.skips :=
    collect_eq_runSkipping hreaches
  refine ⟨hcollect, fun hcancelled => ?_⟩
  rw [hcollect]
  exact List.filter_eq_nil_iff.mpr fun p _ => by simp [skips_eq_false hreaches hover hcancelled p]

/-- Of two files one is analyzed by the only worker before the run is cancelled, and the other is skipped. -/
theorem collect_accounts_interrupted :
    let l : Linter := ⟨.empty, Style.registry⟩
    let w : Workspace := ⟨.directory [("a.go", .file "package a\n".toUTF8.toList),
      ("b.go", .file "package b\n".toUTF8.toList)], []⟩
    let found := Discovery.ofPaths w l.config.exclude ["a.go", "b.go", "c.go"]
    let pool : Pool := ⟨[⟨"a.go", .done (l.analyzeFile w "a.go")⟩, ⟨"b.go", .declined⟩], true⟩
    pool.collect found.faults = l.runSkipping w ["a.go", "b.go", "c.go"] true pool.skips ∧
      (pool.collect found.faults).skipped = ["b.go"] ∧ found.faults.length = 1 := by
  intro l w found pool
  have hfound : ((["a.go", "b.go", "c.go"].flatMap fun p => (Discovery.ofPath w p).getD []).filter fun p =>
      !Discovery.excludes l.config.exclude p) = ["a.go", "b.go"] := by decide +kernel
  have hfiles : found.files = ["a.go", "b.go"] := by
    change (List.mergeSort (List.filter _ _) _).eraseDups = _
    rw [hfound, List.mergeSort_of_pairwise (by decide)]
    rfl
  have hreaches : Reaches (l.analyzeFile w) 1 (start found.files) pool := by
    rw [hfiles]
    exact (((((Relation.ReflTransGen.single
      (.move [] [⟨"b.go", .queued⟩] (.take false) fun _ => ⟨nofun, by decide⟩)).tail
      (.move [] [⟨"b.go", .queued⟩] .begin nofun)).tail
      (.move [] [⟨"b.go", .queued⟩] (.finish false) nofun)).tail
      (.cancel _)).tail
      (.move [⟨"a.go", _⟩] [] (.take true) fun _ => ⟨by simp, by simp [Task.isBusy]⟩)).tail
      (.move [⟨"a.go", _⟩] [] .decline nofun)
  have hover : pool.IsOver := by simp [IsOver, pool, Task.left]
  exact ⟨((collect_accounts l w ["a.go", "b.go", "c.go"]).2.1 1 pool hreaches hover).1, by
    simp [collect, pool, Task.result?], by decide +kernel⟩

end Pool

end GoIdiom
