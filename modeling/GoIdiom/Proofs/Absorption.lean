import GoIdiom.Proofs.RunOrder

/-!
# Aggregating once or again

An aggregate is strictly in order and holds, for every violation, the finding that survives: the one with the least
message, and of equal messages the earliest. Survivors are settled part by part, so parts may be aggregated before
the whole, and an aggregate is aggregated no further. Hence the result for a source text repeats what its analysis
found.
-/

namespace GoIdiom

namespace Finding

/-- Strictly before: by path, then by line, then by column, then by rule. -/
theorem precedes_iff {f g : Finding} : f.Precedes g ↔
    f.path < g.path ∨ f.path = g.path ∧ (f.line < g.line ∨ f.line = g.line ∧
      (f.col < g.col ∨ f.col = g.col ∧ f.ruleId < g.ruleId)) := by
  simp only [Precedes, placeOrder, compareLex, compareOn, Ordering.then_eq_lt, Std.LawfulLTCmp.eq_lt_iff_lt,
    Std.LawfulEqCmp.compare_eq_iff_eq]

/-- An aggregate is strictly in order. -/
theorem aggregate_precedes (findings : List Finding) : (aggregate findings).Pairwise Precedes :=
  (aggregate_ordered findings).imp fun h => precedes_of_le h.1 h.2

/-- A finding of a list whose message is less than those of its violation before it, and no greater than those
behind it. -/
def Survives (g : Finding) (findings : List Finding) : Prop :=
  ∃ before after, findings = before ++ g :: after ∧
    (∀ h ∈ before, h.violation = g.violation → g.message < h.message) ∧
    ∀ h ∈ after, h.violation = g.violation → g.message ≤ h.message

/-- What survives in a list is its first finding, or survives in the rest and is less than the first finding. -/
theorem survives_cons {g f : Finding} {rest : List Finding} : g.Survives (f :: rest) ↔
    g = f ∧ (∀ h ∈ rest, h.violation = f.violation → f.message ≤ h.message) ∨
      (f.violation = g.violation → g.message < f.message) ∧ g.Survives rest := by
  constructor
  · rintro ⟨before, after, hsplit, hbefore, hafter⟩
    cases before with
    | nil =>
      obtain ⟨rfl, rfl⟩ := List.cons.inj hsplit
      exact .inl ⟨rfl, hafter⟩
    | cons first before =>
      obtain ⟨rfl, hrest⟩ := List.cons.inj hsplit
      obtain ⟨hfirst, hbefore⟩ := List.forall_mem_cons.mp hbefore
      exact .inr ⟨hfirst, before, after, hrest, hbefore, hafter⟩
  · rintro (⟨rfl, hafter⟩ | ⟨hfirst, before, after, rfl, hbefore, hafter⟩)
    · exact ⟨[], rest, rfl, by simp, hafter⟩
    · exact ⟨f :: before, after, rfl, List.forall_mem_cons.mpr ⟨hfirst, hbefore⟩, hafter⟩

/-- The representative of a violation is the finding that survives. -/
theorem leastOf_eq_some_iff {g : Finding} {findings : List Finding} :
    leastOf g.violation findings = some g ↔ g.Survives findings := by
  induction findings with
  | nil => simp [leastOf, Survives]
  | cons f rest ih =>
    rw [survives_cons, ← ih, leastOf]
    by_cases hv : f.violation = g.violation
    · rw [if_pos hv, Option.some.injEq]
      cases hrest : leastOf g.violation rest with
      | none =>
        have hnone (h : Finding) (hh : h ∈ rest) : h.violation ≠ f.violation := by
          intro hsame
          have hsome := leastOf_isSome hh
          rw [hsame, hv, hrest] at hsome
          cases hsome
        simp only [prefer, reduceCtorEq, and_false, or_false]
        exact ⟨fun h => ⟨h.symm, fun k hk hsame => absurd hsame (hnone k hk)⟩, fun h => h.1.symm⟩
      | some k =>
        obtain ⟨hk, hkv⟩ := leastOf_some hrest
        have horder := le_iff_of_violation (hv.trans hkv.symm)
        rw [Option.some.injEq, prefer]
        split
        · next hle =>
          have hleast (h : Finding) (hh : h ∈ rest) (hsame : h.violation = f.violation) :
              f.message ≤ h.message := by
            have hkh := le_of_leastOf hrest hh (hsame.trans hv)
            exact (le_iff_of_violation hsame.symm).mp (le_of_le_of_le hle hkh)
          constructor
          · exact fun h => .inl ⟨h.symm, hleast⟩
          · rintro (⟨h, -⟩ | ⟨hlt, rfl⟩)
            · exact h.symm
            · exact absurd (horder.mp hle) (not_le_of_gt (hlt hv))
        · next hnot =>
          rw [horder, not_le] at hnot
          constructor
          · rintro rfl
            exact .inr ⟨fun _ => hnot, rfl⟩
          · rintro (⟨rfl, hleast⟩ | ⟨-, h⟩)
            · exact absurd (hleast k hk hkv) (not_le_of_gt hnot)
            · exact h
    · have hne : g ≠ f := by
        rintro rfl
        exact hv rfl
      rw [if_neg hv]
      simp only [hne, hv, false_and, false_or, false_imp_iff, true_and]

/-- An aggregate holds the findings that survive. -/
theorem mem_aggregate_iff {g : Finding} {findings : List Finding} :
    g ∈ aggregate findings ↔ g.Survives findings := by
  rw [(aggregate_ordered findings).mem_iff, firstOf_aggregate, leastOf_eq_some_iff]

/-- Every violation of a list has one finding in the aggregate. -/
theorem existsUnique_mem_aggregate {findings : List Finding} {f : Finding} (h : f ∈ findings) :
    ∃! g, g ∈ aggregate findings ∧ g.violation = f.violation := by
  obtain ⟨g, hg, hv⟩ := exists_mem_aggregate h
  refine ⟨g, ⟨hg, hv.symm⟩, ?_⟩
  rintro k ⟨hk, hkv⟩
  rw [(aggregate_ordered findings).mem_iff] at hg hk
  rw [hkv, hv, hg] at hk
  exact (Option.some.inj hk).symm

/-- An aggregate is aggregated no further. -/
theorem aggregate_aggregate (findings : List Finding) : aggregate (aggregate findings) = aggregate findings := by
  simpa using aggregate_aggregate_append findings []

/-- Aggregating the last part of a list beforehand changes nothing. -/
theorem aggregate_append_aggregate (a b : List Finding) : aggregate (a ++ aggregate b) = aggregate (a ++ b) :=
  aggregate_congr fun v => by rw [leastOf_append, leastOf_append, leastOf_aggregate]

/-- Aggregating every part of a list beforehand changes nothing. -/
theorem aggregate_flatMap (parts : List (List Finding)) :
    aggregate (parts.flatMap aggregate) = aggregate parts.flatten := by
  induction parts with
  | nil => rfl
  | cons first rest ih =>
    calc aggregate (aggregate first ++ rest.flatMap aggregate)
      _ = aggregate (first ++ rest.flatMap aggregate) := aggregate_aggregate_append ..
      _ = aggregate (first ++ aggregate (rest.flatMap aggregate)) := (aggregate_append_aggregate ..).symm
      _ = aggregate (first ++ aggregate rest.flatten) := by rw [ih]
      _ = aggregate (first ++ rest.flatten) := aggregate_append_aggregate ..

/-- The law of aggregation: the aggregate is strictly in order by path, line, column and rule, it holds one finding
for each violation of the list, the one that survives, and it may be built from the aggregates of parts. -/
theorem aggregation_law (a b : List Finding) :
    (aggregate a).Pairwise Precedes ∧
      (∀ f ∈ a, ∃! g, g ∈ aggregate a ∧ g.violation = f.violation) ∧
      (∀ g, g ∈ aggregate a ↔ g.Survives a) ∧
      aggregate (a ++ b) = aggregate (aggregate a ++ b) ∧
      aggregate (a ++ b) = aggregate (a ++ aggregate b) ∧
      aggregate (aggregate a) = aggregate a ∧
      ∀ parts : List (List Finding), aggregate (parts.flatMap aggregate) = aggregate parts.flatten := by
  refine ⟨aggregate_precedes a, fun f hf => existsUnique_mem_aggregate hf, fun g => mem_aggregate_iff, ?_,
    ?_, ?_, ?_⟩
  · exact (aggregate_aggregate_append a b).symm
  · exact (aggregate_append_aggregate a b).symm
  · exact aggregate_aggregate a
  · exact aggregate_flatMap

end Finding

/-!
## The two ways to analyze a source text

The analysis of a source text fails with the first error, and the result for it records that error as a fault.
Nesting that exhausts the room of the interpreter is recorded as a fault of the source, like everything that keeps
the text from being decomposed; every other error is a failure of the tool.
-/

/-- What the result for a file has to be after an analysis: its findings as they are, or no finding and a fault. The
fault of a source that cannot be decomposed keeps message and place, nesting that is too deep is named at the
beginning of the file, and every other fault is one of the tool. -/
inductive FileResult.Records (path : String) : Except AnalysisFault (List Finding) → FileResult → Prop
  | found (findings : List Finding) : Records path (.ok findings) ⟨path, findings, none⟩
  | source (f : SourceFault) :
    Records path (.error (.file (.source f)))
      ⟨path, [], some ⟨path, Fault.parseKind, f.message, f.pos.line, f.pos.col⟩⟩
  | size (f : SizeFault) :
    Records path (.error (.file (.size f)))
      ⟨path, [], some ⟨path, Fault.internalKind, "ValueError: " ++ f.message, 1, 1⟩⟩
  | missingRule (id : String) :
    Records path (.error (.missingRule id))
      ⟨path, [], some
        ⟨path, Fault.internalKind, "AttributeError: 'NoneType' object has no attribute 'category'", 1, 1⟩⟩
  | nesting (cause : String) :
    Records path (.error (.nesting cause))
      ⟨path, [], some ⟨path, Fault.parseKind, "nesting too deep to analyze (" ++ cause ++ ")", 1, 1⟩⟩

namespace Linter

variable {l : Linter} {exhausts : String → Option String} {source path : String}

/-- What the analysis of a source text finds is an aggregate. -/
theorem aggregate_of_analyze {findings : List Finding} (h : l.analyze source path = .ok findings) :
    Finding.aggregate findings = findings := by
  rw [analyze] at h
  cases hread : SourceFile.read source path with
  | error f =>
    rw [hread] at h
    cases h
  | ok file =>
    simp only [hread] at h
    cases hfound : l.findingsIn file with
    | error m =>
      rw [hfound] at h
      cases h
    | ok found =>
      rw [hfound] at h
      obtain rfl := Except.ok.inj h
      obtain ⟨candidates, -, hfound⟩ := Except.bind_eq_ok.mp hfound
      obtain ⟨resolved, -, hfound⟩ := Except.bind_eq_ok.mp hfound
      obtain rfl := Except.ok.inj hfound
      exact Finding.aggregate_aggregate resolved

/-- The analysis fails with a fault of the file exactly when the source text cannot be decomposed. -/
theorem analyze_eq_error_file_iff {f : FileFault} :
    l.analyze source path = .error (.file f) ↔ SourceFile.read source path = .error f := by
  rw [analyze]
  cases SourceFile.read source path with
  | error g => simp
  | ok file => cases h : l.findingsIn file <;> simp [Except.mapError, h]

/-- The analysis misses a rule exactly when the findings in the decomposed file miss it. -/
theorem analyze_eq_error_missingRule_iff {id : String} : l.analyze source path = .error (.missingRule id) ↔
    ∃ file, SourceFile.read source path = .ok file ∧ l.findingsIn file = .error ⟨id⟩ := by
  rw [analyze]
  cases SourceFile.read source path with
  | error g => simp
  | ok file =>
    cases h : l.findingsIn file with
    | error m =>
      obtain ⟨missing⟩ := m
      simp [Except.mapError, h]
    | ok findings => simp [Except.mapError, h]

/-- The analysis itself never tells of nesting: it has room enough. -/
theorem analyze_ne_error_nesting {cause : String} : l.analyze source path ≠ .error (.nesting cause) := by
  rw [analyze]
  cases SourceFile.read source path with
  | error g => simp
  | ok file => cases h : l.findingsIn file <;> simp [Except.mapError, h]

/-- What the analysis comes to: nesting that is too deep where the room is exhausted, and else what it comes to with
room enough. -/
theorem analyzeWithin_eq_iff {outcome : Except AnalysisFault (List Finding)} :
    l.analyzeWithin exhausts source path = outcome ↔
      (∃ cause, exhausts source = some cause ∧ outcome = .error (.nesting cause)) ∨
        exhausts source = none ∧ outcome = l.analyze source path := by
  rw [analyzeWithin]
  cases exhausts source with
  | some cause => simp [eq_comm]
  | none => simp [eq_comm]

/-- With room enough the analysis is not disturbed. -/
theorem analyzeWithin_of_room (h : exhausts source = none) :
    l.analyzeWithin exhausts source path = l.analyze source path := by
  rw [analyzeWithin, h]

/-- With room enough the result is the one that the runs over files take. -/
theorem analyzeSourceWithin_of_room (h : exhausts source = none) :
    l.analyzeSourceWithin exhausts source path = l.analyzeSource source path := by
  rw [analyzeSourceWithin, analyzeWithin_of_room h, analyzeSource]

/-- The result for a source text records what its analysis came to. -/
theorem records_analyzeSourceWithin (l : Linter) (exhausts : String → Option String) (source path : String) :
    FileResult.Records path (l.analyzeWithin exhausts source path)
      (l.analyzeSourceWithin exhausts source path) := by
  rw [analyzeSourceWithin]
  cases h : l.analyzeWithin exhausts source path with
  | ok findings =>
    obtain ⟨cause, -, hnesting⟩ | ⟨-, hanalyze⟩ := analyzeWithin_eq_iff.mp h
    · cases hnesting
    · simp only [FileResult.ofFindings, aggregate_of_analyze hanalyze.symm]
      exact .found findings
  | error f =>
    cases f with
    | file f =>
      cases f with
      | source f => exact .source f
      | size f => exact .size f
    | missingRule id => exact .missingRule id
    | nesting cause => exact .nesting cause

/-- The two ways to analyze a source text agree, whatever room there is for its nesting. The result records what the
analysis came to; and the analysis comes to nesting that is too deep where the room is exhausted, and else to a
fault of the file where the text cannot be decomposed, to a missing rule where the findings need one, and to
findings otherwise. -/
theorem analyzeSourceWithin_records (l : Linter) (exhausts : String → Option String) (source path : String) :
    FileResult.Records path (l.analyzeWithin exhausts source path) (l.analyzeSourceWithin exhausts source path) ∧
      (∀ cause, l.analyzeWithin exhausts source path = .error (.nesting cause) ↔
        exhausts source = some cause) ∧
      (∀ f, l.analyzeWithin exhausts source path = .error (.file f) ↔
        exhausts source = none ∧ SourceFile.read source path = .error f) ∧
      (∀ id, l.analyzeWithin exhausts source path = .error (.missingRule id) ↔
        exhausts source = none ∧ ∃ file, SourceFile.read source path = .ok file ∧
        l.findingsIn file = .error ⟨id⟩) ∧
      (exhausts source = none → l.analyzeWithin exhausts source path = l.analyze source path ∧
        l.analyzeSourceWithin exhausts source path = l.analyzeSource source path) := by
  refine ⟨records_analyzeSourceWithin l exhausts source path, ?_, ?_, ?_, ?_⟩
  · intro cause
    simp [analyzeWithin_eq_iff, analyze_ne_error_nesting.symm]
  · intro f
    rw [analyzeWithin_eq_iff, eq_comm (b := l.analyze source path), analyze_eq_error_file_iff]
    simp
  · intro id
    rw [analyzeWithin_eq_iff, eq_comm (b := l.analyze source path), analyze_eq_error_missingRule_iff]
    simp
  · exact fun hroom => ⟨analyzeWithin_of_room hroom, analyzeSourceWithin_of_room hroom⟩

/-- A function whose body is blocks one inside the other, more than the interpreter has room for. The analysis fails
with something else than a fault of the file, and yet the result has no fault of the tool. -/
theorem analyzeSourceWithin_nestedBlocks :
    let source := "package p\n\nfunc f() " ++
      String.ofList (List.replicate 1500 '\x7b' ++ List.replicate 1500 '\x7d') ++ "\n"
    let exhausts (text : String) := if text = source then some "maximum recursion depth exceeded" else none
    let l : Linter := ⟨Config.empty, Style.registry⟩
    (∀ f, l.analyzeWithin exhausts source "p.go" ≠ .error (.file f)) ∧
      (∀ findings, l.analyzeWithin exhausts source "p.go" ≠ .ok findings) ∧
      ¬ ∃ message, l.analyzeSourceWithin exhausts source "p.go" = .ofFault "p.go" (.ofTool "p.go" message) := by
  intro source exhausts l
  have hexhausts : exhausts source = some "maximum recursion depth exceeded" := if_pos rfl
  have hanalyze : l.analyzeWithin exhausts source "p.go" = .error (.nesting "maximum recursion depth exceeded") :=
    analyzeWithin_eq_iff.mpr (.inl ⟨_, hexhausts, rfl⟩)
  refine ⟨fun f h => ?_, fun findings h => ?_, ?_⟩
  · rw [hanalyze] at h
    cases h
  · rw [hanalyze] at h
    cases h
  · rintro ⟨message, h⟩
    rw [analyzeSourceWithin, hanalyze] at h
    have hkind : Fault.parseKind = Fault.internalKind :=
      congrArg Fault.kind (Option.some.inj (congrArg FileResult.fault h))
    exact absurd hkind (by decide)

end Linter

end GoIdiom
