import GoIdiom.Finding
import Mathlib.Data.List.Sort
import Mathlib.Data.String.Basic

/-!
# The laws of aggregation

An aggregated list is settled by its answer for each violation: the finding with the least message,
and of equal messages the earliest. Hence aggregation may be repeated, applied to a part first, or
interchanged with a selection that does not tell repetitions of a violation apart.

Findings that agree in place, rule and message may still differ in severity; the order of the list
decides between those, and reordering needs that there are none.
-/

namespace GoIdiom.Finding

/-- The place and the rule, which make two findings the same violation. -/
def violation (f : Finding) : String × Int × Int × String := (f.path, f.line, f.col, f.ruleId)

/-- A violation is a place and a rule. -/
theorem violation_eq_iff {f g : Finding} : f.violation = g.violation ↔
    f.path = g.path ∧ f.line = g.line ∧ f.col = g.col ∧ f.ruleId = g.ruleId := by
  simp only [violation, Prod.mk.injEq]

/-- Two findings are the same violation exactly when place and rule agree. -/
theorem samePlace_iff (f g : Finding) : samePlace f g = true ↔ f.violation = g.violation := by
  rw [violation_eq_iff]
  simp only [samePlace, Bool.and_eq_true, beq_iff_eq]
  tauto

instance : Std.TransCmp order := by unfold order; infer_instance

/-- The order of findings is transitive. -/
theorem le_of_le_of_le {f g h : Finding} (hfg : f.le g = true) (hgh : g.le h = true) : f.le h = true :=
  Std.TransCmp.isLE_trans hfg hgh

/-- Any two findings are in order one way or the other. -/
theorem le_or_swap_le (f g : Finding) : (f.le g || g.le f) = true := by
  have h : order g f = (order f g).swap := Std.OrientedCmp.eq_swap
  rw [le, le, h]
  cases order f g <;> rfl

/-- Findings in order both ways agree in place, rule and message. -/
theorem violation_eq_of_le_le {f g : Finding} (hfg : f.le g = true) (hgf : g.le f = true) :
    f.violation = g.violation ∧ f.message = g.message := by
  have h : order f g = .eq := Std.OrientedCmp.isLE_antisymm hfg hgf
  simp only [order, compareLex_eq_eq, compareOn, Std.LawfulEqCmp.compare_eq_iff_eq] at h
  obtain ⟨hpath, hline, hcol, hrule, hmessage⟩ := h
  exact ⟨by simp only [violation, hpath, hline, hcol, hrule], hmessage⟩

/-- The choice between a finding and a later one of the same violation. -/
def prefer (f : Finding) : Option Finding → Finding
  | none => f
  | some g => if f.le g then f else g

/-- The earlier finding is kept when it is in order. -/
theorem prefer_of_le {f g : Finding} (h : f.le g = true) : f.prefer (some g) = f := if_pos h

/-- The later finding is taken when it is strictly less. -/
theorem prefer_of_not_le {f g : Finding} (h : ¬f.le g = true) : f.prefer (some g) = g := if_neg h

/-- The finding that stands for a violation: the least one, and of equal ones the earliest. -/
def leastOf (v : String × Int × Int × String) : List Finding → Option Finding
  | [] => none
  | f :: rest => if f.violation = v then some (f.prefer (leastOf v rest)) else leastOf v rest

/-- The first finding of a violation in a list. -/
def firstOf (v : String × Int × Int × String) (findings : List Finding) : Option Finding :=
  findings.find? (·.violation == v)

/-- The representative of a violation is one of its findings. -/
theorem leastOf_some {v : String × Int × Int × String} {findings : List Finding} {f : Finding}
    (h : leastOf v findings = some f) : f ∈ findings ∧ f.violation = v := by
  induction findings generalizing f with
  | nil => simp [leastOf] at h
  | cons g rest ih =>
    rw [leastOf] at h
    split at h
    · next hv =>
      rw [Option.some.injEq] at h
      subst h
      unfold prefer
      split
      · exact ⟨List.mem_cons_self, hv⟩
      · next g' hg' =>
        split
        · exact ⟨List.mem_cons_self, hv⟩
        · exact ⟨List.mem_cons_of_mem _ (ih hg').1, (ih hg').2⟩
    · exact ⟨List.mem_cons_of_mem _ (ih h).1, (ih h).2⟩

/-- A violation with a finding has a representative. -/
theorem leastOf_isSome {findings : List Finding} {f : Finding} (h : f ∈ findings) :
    (leastOf f.violation findings).isSome = true := by
  induction findings with
  | nil => simp at h
  | cons g rest ih =>
    rw [leastOf]
    split
    · rfl
    · next hv =>
      rcases List.mem_cons.mp h with rfl | h
      · exact absurd rfl hv
      · exact ih h

/-- A sorted list is in order. -/
theorem sort_pairwise (findings : List Finding) : (sort findings).Pairwise fun f g => f.le g = true :=
  @List.pairwise_mergeSort _ le (fun _ _ _ => le_of_le_of_le) le_or_swap_le findings

/-- Sorting puts the representative of every violation first. -/
theorem firstOf_sort (v : String × Int × Int × String) (findings : List Finding) :
    firstOf v (sort findings) = leastOf v findings := by
  induction findings with
  | nil => simp [sort, firstOf, leastOf]
  | cons f rest ih =>
    obtain ⟨before, after, hcons, hrest, hbefore⟩ :=
      @List.mergeSort_cons _ le (fun _ _ _ => le_of_le_of_le) le_or_swap_le f rest
    have hsorted := sort_pairwise (f :: rest)
    rw [sort, hcons] at hsorted
    rw [sort, hrest, firstOf, List.find?_append] at ih
    rw [sort, hcons, firstOf, List.find?_append, List.find?_cons, leastOf, ← ih]
    by_cases hv : f.violation = v
    · rw [if_pos hv, hv, beq_self_eq_true]
      cases hb : before.find? (·.violation == v) with
      | some g =>
        have hlt := hbefore g (List.mem_of_find?_eq_some hb)
        simp only [Bool.not_eq_true'] at hlt
        simp [prefer, hlt]
      | none =>
        cases ha : after.find? (·.violation == v) with
        | none => rfl
        | some g =>
          have hle := (List.pairwise_append.mp hsorted).2.1
          rw [List.pairwise_cons] at hle
          simp [prefer, hle.1 g (List.mem_of_find?_eq_some ha)]
    · rw [if_neg hv, beq_eq_false_iff_ne.mpr hv]

/-- Dropping repetitions keeps the first finding of every violation. -/
theorem firstOf_firsts (v : String × Int × Int × String) (findings : List Finding) :
    firstOf v (firsts findings) = firstOf v findings := by
  induction findings with
  | nil => rfl
  | cons f rest ih =>
    rw [firstOf, firstOf] at ih
    rw [firsts, firstOf, firstOf]
    by_cases hv : f.violation = v
    · have hbeq : (f.violation == v) = true := beq_iff_eq.mpr hv
      rw [List.find?_cons, List.find?_cons, hbeq]
    · have hbeq : (f.violation == v) = false := beq_eq_false_iff_ne.mpr hv
      simp only [List.find?_cons, hbeq, List.find?_filter]
      rw [← ih]
      congr 1
      funext g
      by_cases hg : g.violation = v
      · have hne : samePlace f g = false := by
          rw [← Bool.not_eq_true, samePlace_iff, hg]
          exact hv
        simp [hg, hne]
      · simp [hg]

/-- The finding that aggregation keeps for a violation. -/
theorem firstOf_aggregate (v : String × Int × Int × String) (findings : List Finding) :
    firstOf v (aggregate findings) = leastOf v findings := by
  rw [aggregate, firstOf_firsts, firstOf_sort]

/-- Strictly in order: no two findings of one violation. -/
def Ordered (findings : List Finding) : Prop :=
  findings.Pairwise fun f g => f.le g = true ∧ f.violation ≠ g.violation

/-- Dropping repetitions only leaves findings out. -/
theorem firsts_sublist (findings : List Finding) : (firsts findings).Sublist findings := by
  induction findings with
  | nil => exact List.Sublist.slnil
  | cons f rest ih =>
    rw [firsts]
    exact List.Sublist.cons_cons f ((List.filter_sublist).trans ih)

/-- An aggregated list is strictly in order. -/
theorem aggregate_ordered (findings : List Finding) : Ordered (aggregate findings) := by
  have hsorted := sort_pairwise findings
  rw [aggregate]
  generalize sort findings = sorted at hsorted
  induction sorted with
  | nil => exact List.Pairwise.nil
  | cons f rest ih =>
    rw [List.pairwise_cons] at hsorted
    rw [firsts]
    refine List.Pairwise.cons ?_ ((ih hsorted.2).sublist List.filter_sublist)
    intro g hg
    rw [List.mem_filter] at hg
    refine ⟨hsorted.1 g ((firsts_sublist rest).subset hg.1), ?_⟩
    intro hv
    have hsame := (samePlace_iff f g).mpr hv
    simp [hsame] at hg

/-- Of a list in order, the first finding of a violation is its only one. -/
theorem Ordered.mem_iff {findings : List Finding} (h : Ordered findings) (f : Finding) :
    f ∈ findings ↔ firstOf f.violation findings = some f := by
  refine ⟨fun hf => ?_, List.mem_of_find?_eq_some⟩
  induction findings with
  | nil => simp at hf
  | cons g rest ih =>
    rw [Ordered, List.pairwise_cons] at h
    rw [firstOf, List.find?_cons]
    rcases List.mem_cons.mp hf with rfl | hf
    · rw [beq_self_eq_true]
    · rw [beq_eq_false_iff_ne.mpr (h.1 f hf).2]
      exact ih h.2 hf

/-- Lists in order that answer alike for every violation are the same. -/
theorem Ordered.eq_of_firstOf {a b : List Finding} (ha : Ordered a) (hb : Ordered b)
    (h : ∀ v, firstOf v a = firstOf v b) : a = b := by
  have hmem (f : Finding) : f ∈ a ↔ f ∈ b := by rw [ha.mem_iff, hb.mem_iff, h]
  have hnodup {l : List Finding} (hl : Ordered l) : l.Nodup := by
    refine List.Pairwise.imp ?_ hl
    rintro f g hfg rfl
    exact hfg.2 rfl
  have hperm : a.Perm b := (List.perm_ext_iff_of_nodup (hnodup ha) (hnodup hb)).mpr hmem
  have hantisymm (f g : Finding) (_ : f ∈ a) (_ : g ∈ b) (hfg : f.le g = true ∧ f.violation ≠ g.violation)
      (hgf : g.le f = true ∧ g.violation ≠ f.violation) : f = g :=
    absurd (violation_eq_of_le_le hfg.1 hgf.1).1 hfg.2
  exact List.Perm.eq_of_pairwise hantisymm ha hb hperm

/-- Of findings that are different violations none is dropped. -/
theorem firsts_of_nodup {findings : List Finding} (h : (findings.map violation).Nodup) :
    firsts findings = findings := by
  induction findings with
  | nil => rfl
  | cons f rest ih =>
    obtain ⟨hf, hrest⟩ := List.nodup_cons.mp h
    rw [firsts, ih hrest, List.filter_eq_self.mpr]
    intro g hg
    rw [Bool.not_eq_true', ← Bool.not_eq_true, samePlace_iff]
    intro hv
    exact hf (List.mem_map.mpr ⟨g, hg, hv.symm⟩)

/-- Aggregation only reorders findings that are different violations. -/
theorem aggregate_perm {findings : List Finding} (h : (findings.map violation).Nodup) :
    (aggregate findings).Perm findings := by
  have hsort : (sort findings).Perm findings := List.mergeSort_perm ..
  rwa [aggregate, firsts_of_nodup ((hsort.map violation).nodup_iff.mpr h)]

/-- Lists with the same representatives have the same aggregate. -/
theorem aggregate_congr {a b : List Finding} (h : ∀ v, leastOf v a = leastOf v b) :
    aggregate a = aggregate b := by
  refine (aggregate_ordered a).eq_of_firstOf (aggregate_ordered b) fun v => ?_
  rw [firstOf_aggregate, firstOf_aggregate, h]

/-- Aggregation keeps the representatives. -/
theorem leastOf_aggregate (v : String × Int × Int × String) (findings : List Finding) :
    leastOf v (aggregate findings) = leastOf v findings := by
  have hsorted : (aggregate findings).Pairwise fun f g => f.le g = true :=
    (aggregate_ordered findings).imp And.left
  rw [← firstOf_sort, sort, List.mergeSort_of_pairwise hsorted, firstOf_aggregate]

/-- The representative of a finding's violation is some finding of the aggregate. -/
theorem exists_mem_aggregate {findings : List Finding} {f : Finding} (h : f ∈ findings) :
    ∃ g ∈ aggregate findings, f.violation = g.violation := by
  obtain ⟨g, hg⟩ := Option.isSome_iff_exists.mp (leastOf_isSome h)
  rw [← leastOf_aggregate] at hg
  exact ⟨g, (leastOf_some hg).1, (leastOf_some hg).2.symm⟩

/-- Aggregation adds no finding. -/
theorem mem_of_mem_aggregate {findings : List Finding} {f : Finding} (h : f ∈ aggregate findings) :
    f ∈ findings :=
  List.mem_mergeSort.mp ((firsts_sublist _).subset h)

/-- Two findings of one violation are in order by their messages. -/
theorem le_iff_of_violation {f g : Finding} (h : f.violation = g.violation) :
    f.le g = true ↔ f.message ≤ g.message := by
  obtain ⟨hpath, hline, hcol, hrule⟩ := violation_eq_iff.mp h
  have horder : order f g = compare f.message g.message := by
    simp only [order, compareLex, compareOn, hpath, hline, hcol, hrule, Std.ReflCmp.compare_self, Ordering.then]
  rw [le, horder]
  exact Std.LawfulBCmp.isLE_iff_le

/-- The representative of a violation stands before all its findings. -/
theorem le_of_leastOf {v : String × Int × Int × String} {findings : List Finding} {f g : Finding}
    (h : leastOf v findings = some f) (hg : g ∈ findings) (hv : g.violation = v) : f.le g = true := by
  rw [← firstOf_sort] at h
  have hsorted := sort_pairwise findings
  have hmem : g ∈ sort findings := List.mem_mergeSort.mpr hg
  generalize sort findings = sorted at h hsorted hmem
  induction sorted with
  | nil => cases hmem
  | cons first rest ih =>
    obtain ⟨hfirst, hrest⟩ := List.pairwise_cons.mp hsorted
    rw [firstOf, List.find?_cons] at h
    rcases List.mem_cons.mp hmem with rfl | hmem
    · rw [beq_iff_eq.mpr hv] at h
      rw [← Option.some.inj h]
      simpa only [Bool.or_self] using le_or_swap_le g g
    · split at h
      · rw [← Option.some.inj h]
        exact hfirst g hmem
      · exact ih h hrest hmem

/-- A message is kept for its violation exactly when the violation has no lesser one. -/
theorem exists_mem_aggregate_iff {findings : List Finding} {v : String × Int × Int × String} {message : String}
    (h : ∃ f ∈ findings, f.violation = v ∧ f.message = message) :
    (∃ g ∈ aggregate findings, g.violation = v ∧ g.message = message) ↔
      ∀ other, (∃ f ∈ findings, f.violation = v ∧ f.message = other) → message ≤ other := by
  obtain ⟨f, hf, rfl, rfl⟩ := h
  constructor
  · rintro ⟨g, hg, hv, hmessage⟩ _ ⟨h, hh, hsame, rfl⟩
    have hleast := ((aggregate_ordered findings).mem_iff g).mp hg
    rw [firstOf_aggregate] at hleast
    rw [← hmessage]
    exact (le_iff_of_violation (hv.trans hsame.symm)).mp (le_of_leastOf hleast hh (hsame.trans hv.symm))
  · intro hleast
    obtain ⟨g, hg⟩ := Option.isSome_iff_exists.mp (leastOf_isSome hf)
    obtain ⟨hmem, hv⟩ := leastOf_some hg
    have hle := (le_iff_of_violation hv).mp (le_of_leastOf hg hf rfl)
    rw [← leastOf_aggregate] at hg
    exact ⟨g, (leastOf_some hg).1, hv, le_antisymm hle (hleast _ ⟨g, hmem, hv, rfl⟩)⟩

/-- Preferring among three findings does not depend on which two are compared first. -/
theorem prefer_prefer (f g : Finding) (h : Option Finding) :
    f.prefer (some (g.prefer h)) = (f.prefer (some g)).prefer h := by
  cases h with
  | none => rfl
  | some h =>
    by_cases hfg : f.le g = true <;> by_cases hgh : g.le h = true
    · rw [prefer_of_le hgh, prefer_of_le hfg, prefer_of_le (le_of_le_of_le hfg hgh)]
    · rw [prefer_of_not_le hgh, prefer_of_le hfg]
    · rw [prefer_of_le hgh, prefer_of_not_le hfg, prefer_of_le hgh]
    · have hhg : h.le g = true := by simpa [hgh] using le_or_swap_le g h
      have hfh : ¬f.le h = true := fun hfh => hfg (le_of_le_of_le hfh hhg)
      rw [prefer_of_not_le hgh, prefer_of_not_le hfg, prefer_of_not_le hgh, prefer_of_not_le hfh]

/-- The representative over two lists, from those of the lists. -/
theorem leastOf_append (v : String × Int × Int × String) (a b : List Finding) :
    leastOf v (a ++ b) = ((leastOf v a).map (·.prefer (leastOf v b))).or (leastOf v b) := by
  induction a with
  | nil => rfl
  | cons f rest ih =>
    rw [List.cons_append, leastOf, leastOf, ih]
    split
    · cases hrest : leastOf v rest with
      | none => simp [prefer]
      | some g => simp [prefer_prefer]
    · rfl

/-- Preferring keeps to one violation. -/
theorem violation_prefer {f : Finding} {h : Option Finding} (hh : ∀ g ∈ h, g.violation = f.violation) :
    (f.prefer h).violation = f.violation := by
  cases h with
  | none => rfl
  | some g =>
    rw [prefer]
    split
    · rfl
    · exact hh g rfl

/-- A selection that treats repetitions of a violation alike selects among the representatives. -/
theorem leastOf_filter {p : Finding → Bool} (hp : ∀ f g : Finding, f.violation = g.violation → p f = p g)
    (v : String × Int × Int × String) (findings : List Finding) :
    leastOf v (findings.filter p) = (leastOf v findings).filter p := by
  induction findings with
  | nil => rfl
  | cons f rest ih =>
    by_cases hv : f.violation = v
    · have hsame (g : Finding) (hg : g ∈ leastOf v rest) : g.violation = f.violation :=
        (leastOf_some hg).2.trans hv.symm
      have hprefer : p (f.prefer (leastOf v rest)) = p f := hp _ _ (violation_prefer hsame)
      have hrest : (leastOf v rest).filter p = if p f = true then leastOf v rest else none := by
        cases h : leastOf v rest with
        | none => simp
        | some g => rw [Option.filter_some, hp g f (hsame g h)]
      rw [leastOf, if_pos hv, Option.filter_some, hprefer, List.filter_cons]
      split
      · next hf => rw [leastOf, if_pos hv, ih, hrest, if_pos hf]
      · next hf => rw [ih, hrest, if_neg hf]
    · rw [leastOf, if_neg hv, List.filter_cons]
      split
      · rw [leastOf, if_neg hv, ih]
      · exact ih

/-- Such a selection may be made before or after aggregating. -/
theorem aggregate_filter {p : Finding → Bool} (hp : ∀ f g : Finding, f.violation = g.violation → p f = p g)
    (findings : List Finding) : aggregate (findings.filter p) = (aggregate findings).filter p := by
  refine (aggregate_ordered _).eq_of_firstOf ((aggregate_ordered findings).sublist List.filter_sublist)
    fun v => ?_
  have hsorted : ((aggregate findings).filter p).Pairwise fun f g => f.le g = true :=
    ((aggregate_ordered findings).sublist List.filter_sublist).imp And.left
  have hfirst := firstOf_sort v ((aggregate findings).filter p)
  rw [sort, List.mergeSort_of_pairwise hsorted] at hfirst
  rw [firstOf_aggregate, hfirst, leastOf_filter hp, leastOf_filter hp, leastOf_aggregate]

/-- Aggregating the first part of a list beforehand changes nothing. -/
theorem aggregate_aggregate_append (a b : List Finding) :
    aggregate (aggregate a ++ b) = aggregate (a ++ b) :=
  aggregate_congr fun v => by rw [leastOf_append, leastOf_append, leastOf_aggregate]

/-- Findings whose text settles them: of one violation with one message there is only one. -/
def Settled (findings : List Finding) : Prop :=
  ∀ f ∈ findings, ∀ g ∈ findings, f.violation = g.violation → f.message = g.message → f = g

/-- Two findings whose text settles them may be preferred in either order. -/
theorem prefer_comm {f g : Finding} (hfg : f.le g = true → g.le f = true → f = g) (h : Option Finding) :
    f.prefer (some (g.prefer h)) = g.prefer (some (f.prefer h)) := by
  have hpair : f.prefer (some g) = g.prefer (some f) := by
    have htotal := le_or_swap_le f g
    simp only [prefer]
    by_cases h₁ : f.le g = true <;> by_cases h₂ : g.le f = true <;> simp_all
  rw [prefer_prefer, prefer_prefer, hpair]

/-- Reordering settled findings keeps the representatives. -/
theorem leastOf_perm (v : String × Int × Int × String) {a b : List Finding} (hab : a.Perm b)
    (ha : Settled a) : leastOf v a = leastOf v b := by
  induction hab with
  | nil => rfl
  | cons f _ ih =>
    have hrest := ih fun g hg h hh => ha g (List.mem_cons_of_mem _ hg) h (List.mem_cons_of_mem _ hh)
    rw [leastOf, leastOf, hrest]
  | swap f g rest =>
    simp only [leastOf]
    by_cases hf : f.violation = v <;> by_cases hg : g.violation = v <;> simp only [hf, hg, if_true, if_false]
    rw [prefer_comm]
    intro hgf hfg
    have hsame := violation_eq_of_le_le hgf hfg
    exact ha g List.mem_cons_self f (List.mem_cons_of_mem _ List.mem_cons_self) hsame.1 hsame.2
  | trans hab _ ih₁ ih₂ =>
    rw [ih₁ ha]
    exact ih₂ fun f hf g hg => ha f (hab.mem_iff.mpr hf) g (hab.mem_iff.mpr hg)

/-- Reordering a settled last part of a list does not change its aggregate. -/
theorem aggregate_append_perm (a : List Finding) {b c : List Finding} (hbc : b.Perm c) (hb : Settled b) :
    aggregate (a ++ b) = aggregate (a ++ c) :=
  aggregate_congr fun v => by rw [leastOf_append, leastOf_append, leastOf_perm v hbc hb]

end GoIdiom.Finding
