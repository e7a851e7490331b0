import GoIdiom.Proofs.Diagnoses

/-!
# Where findings come from

A finding in the result for a file is what a hit of a trial makes, the report on a trial that failed, or the report
on a suppression. A suppression is declared by a directive in a comment of the file or by an entry of the
configuration.
-/

namespace GoIdiom

namespace Suppression

/-- The declaration of a suppression in a file. -/
inductive DeclaredIn (file : SourceFile) (entries : List SuppressionEntry) : Suppression → Prop where
  | comment {c : Comment} (hc : c ∈ file.comments) {d : Directive} (hd : Directive.ofComment? c = some d)
      (first last : Int) : DeclaredIn file entries (d.suppression file.path c first last)
  | entry {e : SuppressionEntry} (he : e ∈ entries) : DeclaredIn file entries (ofEntry file.path e)

/-- A suppression that is declared in a file is for that file. -/
theorem DeclaredIn.path {file : SourceFile} {entries : List SuppressionEntry} {s : Suppression}
    (h : s.DeclaredIn file entries) : s.path = file.path := by
  cases h <;> rfl

/-- A block that no directive ends is declared where it begins. -/
theorem exists_of_mem_ofOpenBlocks {path : String} {lastLine : Int} {blocks : List (Comment × Directive)}
    {s : Suppression} (hs : s ∈ (ofOpenBlocks path lastLine blocks).suppressions) :
    ∃ b ∈ blocks, ∃ first last, s = b.2.suppression path b.1 first last := by
  induction blocks with
  | nil => cases hs
  | cons b rest ih =>
    rcases List.mem_cons.mp hs with rfl | hs
    · exact ⟨b, List.mem_cons_self, _, _, rfl⟩
    · obtain ⟨found, hfound, h⟩ := ih hs
      exact ⟨found, List.mem_cons_of_mem _ hfound, h⟩

/-- What is found in comments is declared by the directive of one of them, or by one that began an open block. -/
theorem exists_of_mem_scan {path : String} {codeLines : List Nat} {lastLine : Int}
    {blocks : List (Comment × Directive)} {comments : List Comment} {s : Suppression}
    (hs : s ∈ (scan path codeLines lastLine blocks comments).suppressions) :
    ∃ c d, (c ∈ comments ∧ Directive.ofComment? c = some d ∨ (c, d) ∈ blocks) ∧
      ∃ first last, s = d.suppression path c first last := by
  induction comments generalizing blocks with
  | nil =>
    obtain ⟨b, hb, first, last, rfl⟩ := exists_of_mem_ofOpenBlocks hs
    exact ⟨b.1, b.2, .inr (List.mem_reverse.mp hb), first, last, rfl⟩
  | cons c rest ih =>
    -- Blocks that are open further on were open here, or the comment at the head begins them.
    have hrest {more : List (Comment × Directive)}
        (hmore : ∀ b ∈ more, b ∈ blocks ∨ b.1 = c ∧ Directive.ofComment? c = some b.2)
        (hs : s ∈ (scan path codeLines lastLine more rest).suppressions) :
        ∃ c' d, (c' ∈ c :: rest ∧ Directive.ofComment? c' = some d ∨ (c', d) ∈ blocks) ∧
          ∃ first last, s = d.suppression path c' first last := by
      obtain ⟨c', d, hc', hdeclared⟩ := ih hs
      refine ⟨c', d, ?_, hdeclared⟩
      rcases hc' with ⟨hmem, hd⟩ | hb
      · exact .inl ⟨List.mem_cons_of_mem c hmem, hd⟩
      · rcases hmore (c', d) hb with hopen | ⟨rfl, hd⟩
        · exact .inr hopen
        · exact .inl ⟨List.mem_cons_self, hd⟩
    unfold scan at hs
    cases hd : Directive.ofComment? c with
    | none =>
      rw [hd] at hs
      exact hrest (fun b hb => .inl hb) hs
    | some d =>
      simp only [hd] at hs
      cases hkind : d.kind with
      | blockStart =>
        simp only [hkind] at hs
        refine hrest (fun b hb => ?_) hs
        rcases List.mem_cons.mp hb with rfl | hb
        · exact .inr ⟨rfl, hd⟩
        · exact .inl hb
      | blockEnd =>
        simp only [hkind] at hs
        cases blocks with
        | nil => exact hrest (fun b hb => .inl hb) hs
        | cons inner outer =>
          rcases List.mem_cons.mp hs with rfl | hs
          · exact ⟨inner.1, inner.2, .inr List.mem_cons_self, _, _, rfl⟩
          · exact hrest (fun b hb => .inl (List.mem_cons_of_mem _ hb)) hs
      | file =>
        simp only [hkind] at hs
        rcases List.mem_cons.mp hs with rfl | hs
        · exact ⟨c, d, .inl ⟨List.mem_cons_self, hd⟩, _, _, rfl⟩
        · exact hrest (fun b hb => .inl hb) hs
      | line =>
        simp only [hkind] at hs
        rcases List.mem_cons.mp hs with rfl | hs
        · exact ⟨c, d, .inl ⟨List.mem_cons_self, hd⟩, _, _, rfl⟩
        · exact hrest (fun b hb => .inl hb) hs

end Suppression

namespace Linter

variable {l : Linter} {file : SourceFile}

/-- Every suppression of a file is declared in it or in the configuration. -/
theorem declaredIn_of_mem_suppressions {s : Suppression} (hs : s ∈ (l.suppressions file).suppressions) :
    Suppression.DeclaredIn file l.config.suppressions s := by
  rcases List.mem_append.mp hs with hs | hs
  · obtain ⟨c, d, hc, first, last, rfl⟩ := Suppression.exists_of_mem_scan (List.mem_mergeSort.mp hs)
    rcases hc with ⟨hc, hd⟩ | hb
    · exact .comment hc hd first last
    · exact absurd hb List.not_mem_nil
  · obtain ⟨e, he, rfl⟩ := List.mem_map.mp hs
    exact .entry (List.mem_filter.mp he).1

/-- What a finding in a file comes from. -/
inductive Origin (l : Linter) (file : SourceFile) (f : Finding) : Prop where
  | hit {t : Trial} (ht : t ∈ l.trials l.rules file.constructs) {hits : List Hit}
      (houtcome : t.outcome = .ok hits) {h : Hit} (hh : h ∈ hits) (hf : f = t.findingOf l.config h)
  | failure {t : Trial} (ht : t ∈ l.trials l.rules file.constructs) {cause : MatchFailure}
      (houtcome : t.outcome = .error cause)
      (hf : l.engineFinding Style.Organization.ruleInternalError t.construct.path t.construct.pos.line
        t.construct.pos.col (t.failureText cause) = .ok f)
  | complaint {s : Suppression} (hs : s ∈ (l.suppressions file).suppressions) {c : String × String}
      (hc : c ∈ complaints s) (hf : l.engineFinding c.1 s.path s.line s.col c.2 = .ok f)

/-- The findings in the result for a file that is read have an origin. -/
theorem Origin.of_mem_findings (hl : l.registry.HoldsEngineRules) {source path : String}
    (hread : SourceFile.read source path = .ok file) {f : Finding}
    (hf : f ∈ (l.analyzeSource source path).findings) : Origin l file f := by
  rw [findings_analyzeSource hl hread] at hf
  rcases List.mem_append.mp (Finding.mem_of_mem_aggregate hf) with hf | hf
  · obtain ⟨t, ht, hf⟩ := List.mem_flatMap.mp (List.mem_filter.mp hf).1
    rcases Trial.of_mem_findingsOver hf with ⟨hits, houtcome, hit, hhit, hf⟩ | ⟨cause, houtcome, hf⟩
    · exact .hit ht houtcome hhit hf
    · exact .failure ht houtcome hf
  · obtain ⟨s, hs, c, hc, hf⟩ := mem_reports.mp hf
    exact .complaint hs hc hf

end Linter

end GoIdiom
