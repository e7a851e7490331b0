import GoIdiom.Linter.Running
import Mathlib.Algebra.BigOperators.Group.List.Basic
import Mathlib.Algebra.Ring.Nat
import Mathlib.Data.List.Count
import Mathlib.Data.List.Sort
import Mathlib.Data.String.Basic

/-!
# What becomes of every file of a run

The files that a run finds are in order, each of them once. Those that are not skipped have their results in the
same order, and each result is the one that the file has on its own; so a run accounts for every file exactly once,
whichever files are skipped.
-/

namespace GoIdiom

/-- A list in order without its repetitions is strictly in order. -/
theorem List.pairwise_lt_eraseDups {α : Type} [LinearOrder α] (as : List α) (h : as.Pairwise (· ≤ ·)) :
    as.eraseDups.Pairwise (· < ·) := by
  match as with
  | [] => exact List.Pairwise.nil
  | a :: rest =>
    obtain ⟨ha, hrest⟩ := List.pairwise_cons.mp h
    rw [List.eraseDups_cons, List.pairwise_cons]
    constructor
    · intro b hb
      obtain ⟨hmem, hne⟩ := List.mem_filter.mp (List.mem_eraseDups.mp hb)
      apply lt_of_le_of_ne (ha b hmem)
      rintro rfl
      simp at hne
    · exact pairwise_lt_eraseDups _ (hrest.sublist List.filter_sublist)
termination_by as.length
decreasing_by exact Nat.lt_succ_of_le (List.length_filter_le ..)

/-- The files that a run finds are strictly in order. -/
theorem Discovery.pairwise_files (w : Workspace) (patterns paths : List String) :
    (ofPaths w patterns paths).files.Pairwise (· < ·) := by
  apply List.pairwise_lt_eraseDups
  exact List.pairwise_mergeSort' (· ≤ ·) _

namespace Linter

variable (l : Linter) (w : Workspace) (paths : List String) (cancelled : Bool) (skips : String → Bool)

/-- The result for a file is under its path. -/
@[simp] theorem path_analyzeFile (path : String) : (l.analyzeFile w path).path = path := by
  rw [analyzeFile]
  split
  · rw [analyzeSource]
    split <;> rfl
  · rfl

/-- The files that a run begins with. -/
def filesOf : List String := (Discovery.ofPaths w l.config.exclude paths).files

/-- The results of a run are those of the files that are not skipped, in their order. -/
theorem results_runSkipping : (l.runSkipping w paths cancelled skips).results =
    ((l.filesOf w paths).filter fun p => !skips p).map (l.analyzeFile w) := by
  apply List.mergeSort_of_pairwise
  rw [List.pairwise_map]
  have hfiles := (Discovery.pairwise_files w l.config.exclude paths).sublist
    (List.filter_sublist (p := fun p => !skips p))
  apply hfiles.imp
  intro p q hpq
  rw [path_analyzeFile, path_analyzeFile]
  exact decide_eq_true hpq.le

/-- The paths with a result are those that are not skipped. -/
theorem map_path_results : (l.runSkipping w paths cancelled skips).results.map (·.path) =
    (l.filesOf w paths).filter fun p => !skips p := by
  rw [results_runSkipping, List.map_map]
  exact (List.map_congr_left fun p _ => path_analyzeFile l w p).trans (List.map_id _)

end Linter

namespace Run

/-- The results of files that could not be analyzed. -/
def failures (run : Run) : List FileResult := run.results.filter (·.failed)

/-- A list of results has as many faults as there are results with one. -/
theorem length_filterMap_fault (results : List FileResult) :
    (results.filterMap (·.fault)).length = (results.filter (·.failed)).length := by
  induction results with
  | nil => rfl
  | cons r rest ih =>
    rw [List.filterMap_cons, List.filter_cons, FileResult.failed]
    cases r.fault with
    | none => exact ih
    | some fault => exact congrArg Nat.succ ih

/-- A run has a fault for each result with one and for each path that leads nowhere. -/
theorem length_faults (run : Run) : run.faults.length = run.failures.length + run.pathFaults.length := by
  rw [faults, List.length_mergeSort, List.length_append, length_filterMap_fault, failures]

end Run

/-- As many findings are counted as there are. -/
theorem Counts.total_ofFindings (findings : List Finding) : (ofFindings findings).total = findings.length := by
  induction findings with
  | nil => rfl
  | cons f rest ih =>
    simp only [ofFindings, total, List.filter_cons, List.length_cons] at ih ⊢
    cases f.severity <;> simp <;> omega

/-- What a run over given paths tells about every file: each file it finds has a result or is skipped, once, both in
order; the result is the one of the file on its own; and the numbers of the summary are those of the lists. -/
structure Run.Accounts (l : Linter) (w : Workspace) (paths : List String) (run : Run) : Prop where
  once (path : String) : (run.results.map (·.path)).count path + run.skipped.count path =
    if path ∈ l.filesOf w paths then 1 else 0
  results_sorted : run.results.Pairwise fun r s => r.path < s.path
  skipped_sorted : run.skipped.Pairwise (· < ·)
  alone : ∀ r ∈ run.results, r = l.analyzeFile w r.path
  files : run.summary.files = run.summary.analyzed + run.failures.length + run.summary.skipped
  failed : run.summary.failed =
    run.failures.length + (paths.filter fun p => (Discovery.ofPath w p).isNone).length
  total : run.summary.counts.error + run.summary.counts.warning + run.summary.counts.info = run.summary.counts.total
  counted : run.summary.counts.total = run.findings.length

/-- A run accounts for every file, whichever files are skipped. -/
theorem Linter.accounts_runSkipping (l : Linter) (w : Workspace) (paths : List String) (cancelled : Bool)
    (skips : String → Bool) : (l.runSkipping w paths cancelled skips).Accounts l w paths where
  once path := by
    have hnodup : (l.filesOf w paths).Nodup :=
      (Discovery.pairwise_files w l.config.exclude paths).imp ne_of_lt
    change _ + ((l.filesOf w paths).filter skips).count path = _
    rw [map_path_results, ← hnodup.count]
    by_cases hskip : skips path = true
    · rw [List.count_filter hskip, List.count_eq_zero_of_not_mem, Nat.zero_add]
      rw [List.mem_filter, hskip]
      simp
    · rw [List.count_filter (by simpa using hskip), List.count_eq_zero_of_not_mem (l := List.filter skips _),
        Nat.add_zero]
      rw [List.mem_filter]
      exact fun h => hskip h.2
  results_sorted := by
    rw [← List.pairwise_map (f := FileResult.path) (R := (· < ·)), map_path_results]
    exact (Discovery.pairwise_files w l.config.exclude paths).sublist List.filter_sublist
  skipped_sorted := (Discovery.pairwise_files w l.config.exclude paths).sublist List.filter_sublist
  alone r hr := by
    rw [results_runSkipping] at hr
    obtain ⟨p, -, rfl⟩ := List.mem_map.mp hr
    rw [path_analyzeFile]
  files := by
    have hsplit := List.length_eq_length_filter_add (l := (l.runSkipping w paths cancelled skips).results)
      fun r => r.failed
    simp only [Run.summary, Run.failures]
    omega
  failed := by
    change (l.runSkipping w paths cancelled skips).faults.length = _
    rw [Run.length_faults]
    congr 1
    exact List.length_map _
  total := rfl
  counted := Counts.total_ofFindings _

end GoIdiom
