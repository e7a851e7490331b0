import GoIdiom.Proofs.Outcome
import GoIdiom.Proofs.Registration
import Mathlib.Data.List.Flatten
import Mathlib.Data.List.Sort

/-!
# Joining catalog entries with matchers

Catalog entries and sets of matchers are consistent when no identifier has matchers in two sets, no two entries have
one identifier, every entry has a matcher in the set of its category, engine entries none at all, and every matcher
has an entry. Joining succeeds on these and on no others; a fault tells which part of it fails. The registry has one
rule for each entry, and the list of all rules does not depend on the order of entries and sets.
-/

namespace GoIdiom

namespace MatcherSet

/-- The identifiers that the set has matchers for. -/
def ids (s : MatcherSet) : List String := s.entries.map (·.1)

/-- A set with one matcher for each of its identifiers. -/
def Distinct (s : MatcherSet) : Prop := s.ids.Nodup

/-- Registering a matcher keeps the identifiers of a set distinct. -/
theorem Distinct.register {s s' : MatcherSet} {id : String} {m : Matcher} (hs : s.Distinct)
    (h : s.register id m = .ok s') : s'.Distinct := by
  rw [MatcherSet.register] at h
  split at h
  · cases h
  · split at h
    · cases h
    · rename_i hnew
      cases h
      rw [Bool.not_eq_true, List.any_eq_false] at hnew
      exact nodup_map_concat hs (by simpa using hnew)

/-- The set without matchers has distinct identifiers, -/
theorem distinct_empty (category : Category) : (empty category).Distinct := List.nodup_nil

/-- and so has every set that is built from it by registering matchers one after the other. -/
theorem Distinct.registerAll {calls : List (String × Matcher)} {s s' : MatcherSet} (hs : s.Distinct)
    (h : calls.foldlM (fun s call => s.register call.1 call.2) s = .ok s') : s'.Distinct := by
  induction calls generalizing s with
  | nil => exact Except.ok.inj h ▸ hs
  | cons call rest ih =>
    obtain ⟨grown, hgrown, h⟩ := Except.bind_eq_ok.mp h
    exact ih (hs.register hgrown) h

/-- The matchers by identifier are those of the set. -/
theorem items_perm (s : MatcherSet) : s.items.Perm s.entries := List.mergeSort_perm ..

end MatcherSet

namespace Registry

/-- Two of the sets have a matcher for an identifier. -/
def InTwo (sets : List MatcherSet) (id : String) : Prop :=
  ∃ s t, [s, t].Sublist sets ∧ id ∈ s.ids ∧ id ∈ t.ids

/-- Two of the entries have an identifier. -/
def Twice (entries : List CatalogEntry) (id : String) : Prop :=
  ∃ a b, [a, b].Sublist entries ∧ a.id = id ∧ b.id = id

/-- Entries and sets of matchers that fit together. -/
structure Consistent (entries : List CatalogEntry) (sets : List MatcherSet) : Prop where
  apart : ∀ id, ¬InTwo sets id
  distinct : ∀ id, ¬Twice entries id
  matched : ∀ e ∈ entries, e.isEngine = false → ∃ s ∈ sets, s.category = e.category ∧ e.id ∈ s.ids
  engine : ∀ e ∈ entries, e.isEngine = true → ∀ s ∈ sets, e.id ∉ s.ids
  catalogued : ∀ s ∈ sets, ∀ id ∈ s.ids, ∃ e ∈ entries, e.id = id

end Registry

/-- What a fault tells of entries and sets. That a matcher has no kinds is found when it is registered in its set,
and never afterwards. -/
def RegistryFault.Tells (entries : List CatalogEntry) (sets : List MatcherSet) : RegistryFault → Prop
  | duplicate id => Registry.InTwo sets id ∨ Registry.Twice entries id
  | noKinds _ => False
  | noMatcher id => ∃ e ∈ entries, e.id = id ∧ e.isEngine = false ∧ ∀ s ∈ sets, id ∉ s.ids
  | engineMatcher id => ∃ e ∈ entries, e.id = id ∧ e.isEngine = true ∧ ∃ s ∈ sets, id ∈ s.ids
  | otherCategory id catalogued matched => catalogued ≠ matched ∧
      (∃ e ∈ entries, e.id = id ∧ e.category = catalogued) ∧
      ∃ s ∈ sets, s.category = matched ∧ id ∈ s.ids
  | noEntry ids => ids ≠ [] ∧ ids.Pairwise (· ≤ ·) ∧
      ∀ id, id ∈ ids ↔ (∃ s ∈ sets, id ∈ s.ids) ∧ ∀ e ∈ entries, e.id ≠ id

namespace Registry

/-!
## Filing the matchers
-/

/-- What is filed are the matchers of the sets, each under the category of its set. -/
theorem mem_flatMap_filedOf {sets : List MatcherSet} {m : Filed} :
    m ∈ sets.flatMap filedOf ↔ ∃ s ∈ sets, s.category = m.category ∧ (m.id, m.matcher) ∈ s.entries := by
  obtain ⟨id, category, matcher⟩ := m
  simp only [List.mem_flatMap, filedOf, List.mem_map, (MatcherSet.items_perm _).mem_iff,
    Filed.mk.injEq, Prod.exists]
  constructor
  · rintro ⟨s, hs, id', matcher', hitem, rfl, rfl, rfl⟩
    exact ⟨s, hs, rfl, hitem⟩
  · rintro ⟨s, hs, rfl, hitem⟩
    exact ⟨s, hs, id, matcher, hitem, rfl, rfl, rfl⟩

/-- Identifiers that are filed are those of the sets. -/
theorem exists_filed_iff {sets : List MatcherSet} {id : String} :
    (∃ m ∈ sets.flatMap filedOf, m.id = id) ↔ ∃ s ∈ sets, id ∈ s.ids := by
  simp only [mem_flatMap_filedOf, MatcherSet.ids, List.mem_map, Prod.exists]
  constructor
  · rintro ⟨m, ⟨s, hs, -, hm⟩, rfl⟩
    exact ⟨s, hs, m.id, m.matcher, hm, rfl⟩
  · rintro ⟨s, hs, id', matcher, hitem, rfl⟩
    exact ⟨⟨id', s.category, matcher⟩, ⟨s, hs, rfl, hitem⟩, rfl⟩

/-- The matchers of a set are filed by its identifiers. -/
theorem ids_filedOf (s : MatcherSet) : ((filedOf s).map (·.id)).Perm s.ids := by
  rw [filedOf, List.map_map]
  exact s.items_perm.map (·.1)

/-- Matchers with distinct identifiers are filed unless one of these is filed already. -/
theorem fileItems_cases (filed : List Filed) (category : Category) {items : List (String × Matcher)}
    (hfiled : (filed.map (·.id)).Nodup) (hitems : (items.map (·.1)).Nodup) :
    (filed.map (·.id) ++ items.map (·.1)).Nodup ∨
      ∃ id ∈ filed.map (·.id), id ∈ items.map (·.1) ∧
      fileItems filed category items = .error (.duplicate id) := by
  induction items generalizing filed with
  | nil => exact Or.inl (by simpa using hfiled)
  | cons item rest ih =>
    obtain ⟨id, matcher⟩ := item
    rw [List.map_cons, List.nodup_cons] at hitems
    by_cases hid : id ∈ filed.map (·.id)
    · have hany : filed.any (·.id == id) = true := by simpa using hid
      exact Or.inr ⟨id, hid, List.mem_cons_self, by rw [fileItems, if_pos hany]⟩
    · have hany : ¬filed.any (·.id == id) = true := by simpa using hid
      have hgrown : ((filed ++ [(⟨id, category, matcher⟩ : Filed)]).map (·.id)).Nodup :=
        nodup_map_concat hfiled (by simpa using hid)
      rw [fileItems, if_neg hany]
      rcases ih _ hgrown hitems.2 with hnodup | ⟨id', hid', hrest, herror⟩
      · left
        simpa using hnodup
      · right
        refine ⟨id', ?_, List.mem_cons_of_mem _ hrest, herror⟩
        rw [List.map_append, List.mem_append, List.map_singleton, List.mem_singleton] at hid'
        rcases hid' with hid' | rfl
        · exact hid'
        · exact absurd hrest hitems.1

/-- The matchers of all sets are filed unless two sets, or a set and what is filed already, share an identifier. -/
theorem fileSets_cases (filed : List Filed) {sets : List MatcherSet} (hfiled : (filed.map (·.id)).Nodup)
    (hsets : ∀ s ∈ sets, s.Distinct) :
    (filed.map (·.id) ++ (sets.flatMap filedOf).map (·.id)).Nodup ∨
      ∃ id, (id ∈ filed.map (·.id) ∨ InTwo sets id) ∧ (∃ s ∈ sets, id ∈ s.ids) ∧
        fileSets filed sets = .error (.duplicate id) := by
  induction sets generalizing filed with
  | nil => exact Or.inl (by simpa using hfiled)
  | cons s rest ih =>
    have hitems : s.items.map (·.1) = (filedOf s).map (·.id) := by rw [filedOf, List.map_map]; rfl
    have hids (id : String) : id ∈ (filedOf s).map (·.id) ↔ id ∈ s.ids := (ids_filedOf s).mem_iff
    have hdistinct : (s.items.map (·.1)).Nodup := by
      rw [hitems, (ids_filedOf s).nodup_iff]
      exact hsets s List.mem_cons_self
    rcases fileItems_cases filed s.category hfiled hdistinct with hnodup | ⟨id, hid, hs, herror⟩
    · have hgrown : ((filed ++ filedOf s).map (·.id)).Nodup := by rwa [List.map_append, ← hitems]
      have hstep : fileSets filed (s :: rest) = fileSets (filed ++ filedOf s) rest := by
        rw [fileSets, fileItems_eq_ok filed s.category s.items hnodup]
        rfl
      rcases ih _ hgrown fun t ht =>
        hsets t (List.mem_cons_of_mem _ ht) with hall | ⟨id, hid, ⟨t, ht, hin⟩, herror⟩
      · left
        simpa [List.append_assoc] using hall
      · right
        refine ⟨id, ?_, ⟨t, List.mem_cons_of_mem _ ht, hin⟩, hstep.trans herror⟩
        rw [List.map_append, List.mem_append, hids] at hid
        rcases hid with (hid | hid) | ⟨a, b, hsub, ha, hb⟩
        · exact Or.inl hid
        · exact Or.inr ⟨s, t, (List.singleton_sublist.mpr ht).cons_cons s, hid, hin⟩
        · exact Or.inr ⟨a, b, hsub.cons s, ha, hb⟩
    · right
      rw [hitems, hids] at hs
      refine ⟨id, Or.inl hid, ⟨s, List.mem_cons_self, hs⟩, ?_⟩
      rw [fileSets, herror]
      rfl

/-!
## Registering the entries
-/

/-- Why an entry is not registered in a registry, with a matcher among those filed. -/
inductive Refusal (registry : Registry) (filed : List Filed) (e : CatalogEntry) : RegistryFault → Prop where
  | duplicate (hid : registry.contains e.id = true) : Refusal registry filed e (.duplicate e.id)
  | noMatcher (hengine : e.isEngine = false) (hid : registry.contains e.id = false)
      (hfound : filed.find? (·.id == e.id) = none) : Refusal registry filed e (.noMatcher e.id)
  | engineMatcher (m : Filed) (hengine : e.isEngine = true) (hfound : filed.find? (·.id == e.id) = some m) :
      Refusal registry filed e (.engineMatcher e.id)
  | otherCategory (m : Filed) (hcategory : e.category ≠ m.category)
      (hfound : filed.find? (·.id == e.id) = some m) :
      Refusal registry filed e (.otherCategory e.id e.category m.category)

/-- An entry is refused, or else it is new and joins with a matcher that is filed for it. -/
theorem joinEntries_cases (registry : Registry) (filed : List Filed) (e : CatalogEntry) (rest : List CatalogEntry) :
    (∃ fault, Refusal registry filed e fault ∧ joinEntries registry filed (e :: rest) = .error fault) ∨
      registry.contains e.id = false ∧ Joins filed e := by
  rw [joinEntries, Joins]
  cases hfound : filed.find? (·.id == e.id) with
  | none =>
    cases hid : registry.contains e.id with
    | true => exact Or.inl ⟨_, .duplicate hid, by simp [register, hid, bind, Except.bind]⟩
    | false =>
      cases hengine : e.isEngine with
      | true => exact Or.inr ⟨rfl, rfl⟩
      | false => exact Or.inl ⟨_, .noMatcher hengine hid hfound, by simp [bind, Except.bind]⟩
  | some m =>
    cases hengine : e.isEngine with
    | true => exact Or.inl ⟨_, .engineMatcher m hengine hfound, by simp [bind, Except.bind]⟩
    | false =>
      by_cases hcategory : m.category = e.category
      · cases hid : registry.contains e.id with
        | true => exact Or.inl ⟨_, .duplicate hid, by simp [register, hid, hcategory, bind, Except.bind]⟩
        | false => exact Or.inr ⟨rfl, rfl, hcategory⟩
      · exact Or.inl ⟨_, .otherCategory m (Ne.symm hcategory) hfound, by simp [hcategory, bind, Except.bind]⟩

/-- The matchers that are still filed when some entries are registered. -/
def remaining (filed : List Filed) (done : List CatalogEntry) : List Filed :=
  filed.filter fun m => !done.any (·.id == m.id)

/-- What remains are the matchers that none of the entries is for. -/
theorem mem_remaining {filed : List Filed} {done : List CatalogEntry} {m : Filed} :
    m ∈ remaining filed done ↔ m ∈ filed ∧ ∀ e ∈ done, e.id ≠ m.id := by
  simp [remaining]

/-- A matcher that is still filed under an identifier was filed under it. -/
theorem of_find?_remaining {filed : List Filed} {done : List CatalogEntry} {id : String} {m : Filed}
    (h : (remaining filed done).find? (·.id == id) = some m) : m ∈ filed ∧ m.id = id := by
  obtain ⟨hm, hid⟩ := of_find?_key h
  exact ⟨(mem_remaining.mp hm).1, hid⟩

/-- The matcher of an identifier that no entry had is still filed. -/
theorem find?_remaining {filed : List Filed} {done : List CatalogEntry} {id : String}
    (hid : ∀ e ∈ done, e.id ≠ id) :
    (remaining filed done).find? (·.id == id) = filed.find? (·.id == id) := by
  rw [remaining, List.find?_filter]
  congr 1
  funext m
  by_cases hm : m.id = id
  · simpa [hm] using hid
  · simp [hm]

/-- Registering one more entry takes its matcher away. -/
theorem remaining_concat (filed : List Filed) (done : List CatalogEntry) (e : CatalogEntry) :
    (remaining filed done).filter (·.id != e.id) = remaining filed (done ++ [e]) := by
  rw [remaining, remaining, List.filter_filter]
  apply List.filter_congr
  intro m _
  rw [List.any_append, Bool.not_or, Bool.and_comm, List.any_cons, List.any_nil, Bool.or_false, bne, Bool.beq_comm]

section Entries

variable {sets : List MatcherSet} {done rest : List CatalogEntry} {registry : Registry}

/-- A registry of some entries contains their identifiers. -/
theorem contains_iff_of_ids (hids : registry.rules.map (·.id) = done.map (·.id)) (id : String) :
    registry.contains id = true ↔ ∃ e ∈ done, e.id = id := by
  have hmem : registry.contains id = true ↔ id ∈ registry.rules.map (·.id) := by simp [contains]
  rw [hmem, hids, List.mem_map]

/-- An entry that is refused shows that entries and sets do not fit together. -/
theorem Refusal.tells {e : CatalogEntry} {fault : RegistryFault}
    (h : Refusal registry (remaining (sets.flatMap filedOf) done) e fault)
    (hids : registry.rules.map (·.id) = done.map (·.id)) : fault.Tells (done ++ e :: rest) sets := by
  have he : e ∈ done ++ e :: rest := List.mem_append_right _ List.mem_cons_self
  cases h with
  | duplicate hid =>
    obtain ⟨earlier, hearlier, hsame⟩ := (contains_iff_of_ids hids e.id).mp hid
    have hfirst : [e].Sublist (e :: rest) := List.singleton_sublist.mpr List.mem_cons_self
    exact Or.inr ⟨earlier, e, (List.singleton_sublist.mpr hearlier).append hfirst, hsame, rfl⟩
  | noMatcher hengine hid hfound =>
    have hnew : ∀ earlier ∈ done, earlier.id ≠ e.id := by
      intro earlier hearlier hsame
      rw [(contains_iff_of_ids hids e.id).mpr ⟨earlier, hearlier, hsame⟩] at hid
      cases hid
    rw [find?_remaining hnew] at hfound
    refine ⟨e, he, rfl, hengine, fun s hs hin => ?_⟩
    obtain ⟨m, hm, hid⟩ := exists_filed_iff.mpr ⟨s, hs, hin⟩
    exact List.find?_eq_none.mp hfound m hm (beq_iff_eq.mpr hid)
  | engineMatcher m hengine hfound =>
    obtain ⟨hm, hid⟩ := of_find?_remaining hfound
    exact ⟨e, he, rfl, hengine, exists_filed_iff.mp ⟨m, hm, hid⟩⟩
  | otherCategory m hcategory hfound =>
    obtain ⟨hm, hid⟩ := of_find?_remaining hfound
    obtain ⟨s, hs, hsame, hentry⟩ := mem_flatMap_filedOf.mp hm
    exact ⟨hcategory, ⟨e, he, rfl, rfl⟩, s, hs, hsame, hid ▸ List.mem_map_of_mem hentry⟩

/-- Registering entries after others ends in a fault that tells of all of them, or else all identifiers are distinct
and every entry joins with its matcher. The induction keeps which matchers remain: those of no earlier entry. -/
theorem joinEntries_run (sets : List MatcherSet) (registry : Registry) (done rest : List CatalogEntry)
    (hids : registry.rules.map (·.id) = done.map (·.id)) (hdone : (done.map (·.id)).Nodup) :
    (∃ fault, fault.Tells (done ++ rest) sets ∧
        joinEntries registry (remaining (sets.flatMap filedOf) done) rest = .error fault) ∨
      ((done ++ rest).map (·.id)).Nodup ∧ ∀ e ∈ rest, Joins (sets.flatMap filedOf) e := by
  induction rest generalizing done registry with
  | nil => exact Or.inr ⟨by simpa using hdone, by simp⟩
  | cons e rest ih =>
    rcases joinEntries_cases registry (remaining (sets.flatMap filedOf) done) e rest with
      ⟨fault, hrefusal, herror⟩ | ⟨hid, hjoins⟩
    · exact Or.inl ⟨fault, hrefusal.tells hids, herror⟩
    · have hnew : ∀ earlier ∈ done, earlier.id ≠ e.id := by
        intro earlier hearlier hsame
        rw [(contains_iff_of_ids hids e.id).mpr ⟨earlier, hearlier, hsame⟩] at hid
        cases hid
      have hgrown : (registry.rules ++ [ruleOf (remaining (sets.flatMap filedOf) done) e]).map (·.id) =
          (done ++ [e]).map (·.id) := by
        rw [List.map_append, hids, List.map_append]
        rfl
      have hall : done ++ e :: rest = (done ++ [e]) ++ rest := by rw [List.append_assoc]; rfl
      rw [joinEntries_cons registry _ e rest hid hjoins, remaining_concat, hall]
      rcases ih _ _ hgrown (nodup_map_concat hdone hnew) with hfault | ⟨hnodup, hrest⟩
      · exact Or.inl hfault
      · refine Or.inr ⟨hnodup, List.forall_mem_cons.mpr ⟨?_, hrest⟩⟩
        rwa [Joins, find?_remaining hnew] at hjoins

end Entries

/-!
## What joining refuses
-/

section Build

variable {entries : List CatalogEntry} {sets : List MatcherSet}

/-- Once the matchers are filed, the entries are registered and no matcher may be left. -/
theorem build_of_filed (entries : List CatalogEntry) (h : fileSets [] sets = .ok (sets.flatMap filedOf)) :
    build entries sets = (joinEntries empty (sets.flatMap filedOf) entries).bind fun (registry, left) =>
      if left.isEmpty then .ok registry else .error (.noEntry ((left.map (·.id)).mergeSort (· ≤ ·))) := by
  rw [build, h]
  rfl

/-- Matchers that are left have no entries. -/
theorem tells_noEntry {left : List Filed} (hleft : left = remaining (sets.flatMap filedOf) entries)
    (hne : left ≠ []) :
    (RegistryFault.noEntry ((left.map (·.id)).mergeSort (· ≤ ·))).Tells entries sets := by
  refine ⟨?_, ?_, fun id => ?_⟩
  · intro hnil
    have hlength := congrArg List.length hnil
    rw [List.length_mergeSort, List.length_map, List.length_nil, List.length_eq_zero_iff] at hlength
    exact hne hlength
  · exact List.pairwise_mergeSort' (· ≤ ·) _
  · rw [List.mem_mergeSort, hleft, ← exists_filed_iff, List.mem_map]
    constructor
    · rintro ⟨m, hm, rfl⟩
      exact ⟨⟨m, (mem_remaining.mp hm).1, rfl⟩, (mem_remaining.mp hm).2⟩
    · rintro ⟨⟨m, hm, rfl⟩, hnone⟩
      exact ⟨m, mem_remaining.mpr ⟨hm, hnone⟩, rfl⟩

/-- Joining ends in a fault that tells of the entries and sets, or else all identifiers are distinct, every entry
joins with its matcher, and every matcher has an entry. -/
theorem build_cases (entries : List CatalogEntry) (hsets : ∀ s ∈ sets, s.Distinct) :
    (∃ fault, fault.Tells entries sets ∧ build entries sets = .error fault) ∨
      ((sets.flatMap filedOf).map (·.id)).Nodup ∧ (entries.map (·.id)).Nodup ∧
        (∀ e ∈ entries, Joins (sets.flatMap filedOf) e) ∧
          ∀ m ∈ sets.flatMap filedOf, ∃ e ∈ entries, e.id = m.id := by
  rcases fileSets_cases [] List.nodup_nil hsets with hfiled | ⟨id, hid, -, herror⟩
  · have hbuild := build_of_filed entries (fileSets_eq_ok [] sets hfiled)
    have hrun := joinEntries_run sets empty [] entries rfl List.nodup_nil
    have hempty : remaining (sets.flatMap filedOf) [] = sets.flatMap filedOf := by simp [remaining]
    rw [hempty] at hrun
    rcases hrun with ⟨fault, htells, herror⟩ | ⟨hids, hjoins⟩
    · exact Or.inl ⟨fault, htells, by rw [hbuild, herror]; rfl⟩
    · rw [joinEntries_eq_ok empty _ entries hids hjoins] at hbuild
      by_cases hleft : remaining (sets.flatMap filedOf) entries = []
      · refine Or.inr ⟨hfiled, hids, hjoins, fun m hm => ?_⟩
        by_contra hnone
        push Not at hnone
        have hm : m ∈ remaining (sets.flatMap filedOf) entries := mem_remaining.mpr ⟨hm, hnone⟩
        rw [hleft] at hm
        cases hm
      · refine Or.inl ⟨_, tells_noEntry rfl hleft, ?_⟩
        rw [hbuild]
        change (if (remaining (sets.flatMap filedOf) entries).isEmpty then _ else _) = _
        rw [if_neg (by simpa using hleft)]
        rfl
  · refine Or.inl ⟨.duplicate id, Or.inl ?_, by rw [build, herror]; rfl⟩
    simpa using hid

/-- No two entries have one identifier exactly when all are distinct. -/
theorem forall_not_twice_iff : (∀ id, ¬Twice entries id) ↔ (entries.map (·.id)).Nodup := by
  rw [List.Nodup, List.pairwise_map, List.pairwise_iff_forall_sublist]
  constructor
  · intro h a b hsub hid
    exact h b.id ⟨a, b, hsub, hid, rfl⟩
  · rintro h id ⟨a, b, hsub, rfl, hid⟩
    exact h hsub hid.symm

/-- No identifier has matchers in two sets exactly when all that are filed are distinct. -/
theorem forall_not_inTwo_iff (hsets : ∀ s ∈ sets, s.Distinct) :
    (∀ id, ¬InTwo sets id) ↔ ((sets.flatMap filedOf).map (·.id)).Nodup := by
  constructor
  · intro h
    rcases fileSets_cases [] List.nodup_nil hsets with hnodup | ⟨id, hid, -, -⟩
    · exact hnodup
    · exact absurd (by simpa using hid) (h id)
  · rintro h id ⟨s, t, hsub, hs, ht⟩
    have hpair : ((filedOf s).map (·.id) ++ (filedOf t).map (·.id)).Nodup := by
      have hnodup := h.sublist ((hsub.flatMap filedOf).map (·.id))
      simpa using hnodup
    rw [((ids_filedOf s).append (ids_filedOf t)).nodup_iff, List.nodup_append] at hpair
    exact hpair.2.2 id hs id ht rfl

/-- An entry joins with its matcher when a set of its category has one for it, and an engine entry when no set has.
-/
theorem joins_iff (hfiled : ((sets.flatMap filedOf).map (·.id)).Nodup) {e : CatalogEntry} :
    Joins (sets.flatMap filedOf) e ↔
      if e.isEngine then ∀ s ∈ sets, e.id ∉ s.ids else
        ∃ s ∈ sets, s.category = e.category ∧ e.id ∈ s.ids := by
  rw [Joins]
  cases hfound : (sets.flatMap filedOf).find? (·.id == e.id) with
  | none =>
    have hnone : ∀ s ∈ sets, e.id ∉ s.ids := by
      intro s hs hin
      obtain ⟨m, hm, hid⟩ := exists_filed_iff.mpr ⟨s, hs, hin⟩
      exact List.find?_eq_none.mp hfound m hm (beq_iff_eq.mpr hid)
    cases e.isEngine with
    | true => simpa using hnone
    | false => simpa using fun s hs _ => hnone s hs
  | some m =>
    obtain ⟨hm, hid⟩ := (find?_key_eq_some_iff hfiled).mp hfound
    obtain ⟨s, hs, hcategory, hitem⟩ := mem_flatMap_filedOf.mp hm
    have hin : e.id ∈ s.ids := hid ▸ List.mem_map_of_mem hitem
    cases e.isEngine with
    | true => simpa using ⟨s, hs, hin⟩
    | false =>
      constructor
      · rintro ⟨-, hsame⟩
        exact ⟨s, hs, hcategory.trans hsame, hin⟩
      · rintro ⟨t, ht, hsame, hin⟩
        obtain ⟨⟨_, matcher⟩, hitem, rfl⟩ := List.mem_map.mp hin
        have hown : (⟨e.id, e.category, matcher⟩ : Filed) ∈ sets.flatMap filedOf :=
          mem_flatMap_filedOf.mpr ⟨t, ht, hsame, hitem⟩
        exact ⟨rfl, congrArg Filed.category (List.inj_on_of_nodup_map hfiled hm hown hid)⟩

/-- Entries and sets fit together exactly when all identifiers are distinct, every entry joins with its matcher, and
every matcher has an entry. -/
theorem consistent_iff (hsets : ∀ s ∈ sets, s.Distinct) :
    Consistent entries sets ↔
      ((sets.flatMap filedOf).map (·.id)).Nodup ∧ (entries.map (·.id)).Nodup ∧
        (∀ e ∈ entries, Joins (sets.flatMap filedOf) e) ∧
          ∀ m ∈ sets.flatMap filedOf, ∃ e ∈ entries, e.id = m.id := by
  constructor
  · intro h
    have hfiled := (forall_not_inTwo_iff hsets).mp h.apart
    refine ⟨hfiled, forall_not_twice_iff.mp h.distinct, fun e he => ?_, fun m hm => ?_⟩
    · rw [joins_iff hfiled]
      split
      · exact h.engine e he ‹_›
      · exact h.matched e he (by simpa using ‹¬e.isEngine = true›)
    · obtain ⟨s, hs, hin⟩ := exists_filed_iff.mp ⟨m, hm, rfl⟩
      exact h.catalogued s hs m.id hin
  · rintro ⟨hfiled, hids, hjoins, hentries⟩
    refine ⟨(forall_not_inTwo_iff hsets).mpr hfiled, forall_not_twice_iff.mpr hids, ?_, ?_, ?_⟩
    · intro e he hengine
      simpa [hengine] using (joins_iff hfiled).mp (hjoins e he)
    · intro e he hengine
      simpa [hengine] using (joins_iff hfiled).mp (hjoins e he)
    · intro s hs id hin
      obtain ⟨m, hm, rfl⟩ := exists_filed_iff.mpr ⟨s, hs, hin⟩
      exact hentries m hm

/-- A rule with what its entry says and the matcher that the sets have for it. -/
structure Carries (sets : List MatcherSet) (e : CatalogEntry) (rule : Rule) : Prop where
  id : rule.id = e.id
  category : rule.category = e.category
  severity : rule.severity = e.severity
  title : rule.title = e.title
  suggestion : rule.suggestion = e.suggestion
  isEngine : rule.isEngine = e.isEngine
  matcher : ∀ m, rule.matcher = some m ↔ ∃ s ∈ sets, (e.id, m) ∈ s.entries

/-- Where all that are filed are distinct, the rule of an entry has the matcher of the sets. -/
theorem carries_ruleOf (hfiled : ((sets.flatMap filedOf).map (·.id)).Nodup) (e : CatalogEntry) :
    Carries sets e (ruleOf (sets.flatMap filedOf) e) := by
  refine ⟨rfl, rfl, rfl, rfl, rfl, rfl, fun matcher => ?_⟩
  rw [ruleOf, Option.map_eq_some_iff]
  simp only [find?_key_eq_some_iff hfiled, mem_flatMap_filedOf]
  constructor
  · rintro ⟨m, ⟨⟨s, hs, -, hitem⟩, hid⟩, rfl⟩
    exact ⟨s, hs, hid ▸ hitem⟩
  · rintro ⟨s, hs, hitem⟩
    exact ⟨⟨e.id, s.category, matcher⟩, ⟨⟨s, hs, rfl, hitem⟩, rfl⟩, rfl⟩

/-- Entries and sets that fit together do so in every order. -/
theorem Consistent.perm {entries' : List CatalogEntry} {sets' : List MatcherSet} (h : Consistent entries sets)
    (hsets : ∀ s ∈ sets, s.Distinct) (hentries : entries'.Perm entries) (hperm : sets'.Perm sets) :
    Consistent entries' sets' := by
  have hsets' : ∀ s ∈ sets', s.Distinct := fun s hs => hsets s (hperm.mem_iff.mp hs)
  have hfiled : (sets'.flatMap filedOf).Perm (sets.flatMap filedOf) := hperm.flatMap_right filedOf
  obtain ⟨hnodup, hids, -, -⟩ := (consistent_iff hsets).mp h
  refine ⟨(forall_not_inTwo_iff hsets').mpr ((hfiled.map _).nodup_iff.mpr hnodup),
    forall_not_twice_iff.mpr ((hentries.map _).nodup_iff.mpr hids), ?_, ?_, ?_⟩
  all_goals simp only [hperm.mem_iff, hentries.mem_iff]
  · exact h.matched
  · exact h.engine
  · exact h.catalogued

/-- Entries and sets that fit together make a registry with the rules of the entries. -/
theorem Consistent.build_eq (h : Consistent entries sets) (hsets : ∀ s ∈ sets, s.Distinct) :
    build entries sets = .ok ⟨entries.map (ruleOf (sets.flatMap filedOf))⟩ := by
  obtain ⟨hfiled, hids, hjoins, hentries⟩ := (consistent_iff hsets).mp h
  exact build_eq_ok entries sets hfiled hids hjoins hentries

/-- Joining succeeds exactly on entries and sets that fit together, and otherwise ends in a fault that tells what
does not. The registry has for each entry a rule with what the entry says and its matcher; all rules are listed
strictly in order, and alike for every order of the entries and of the sets. -/
theorem build_consistent (hsets : ∀ s ∈ sets, s.Distinct) :
    ((∃ r, build entries sets = .ok r) ↔ Consistent entries sets) ∧
      (∀ fault, build entries sets = .error fault → fault.Tells entries sets) ∧
      ∀ r, build entries sets = .ok r →
        List.Forall₂ (Carries sets) entries r.rules ∧ r.all.Perm r.rules ∧ r.all.Pairwise Rule.Precedes ∧
          ∀ entries' sets', entries'.Perm entries → sets'.Perm sets →
            ∃ r', build entries' sets' = .ok r' ∧ r'.all = r.all := by
  have hcases := build_cases entries hsets
  rw [← consistent_iff hsets] at hcases
  have hiff : (∃ r, build entries sets = .ok r) ↔ Consistent entries sets := by
    refine ⟨fun ⟨r, hr⟩ => ?_, fun h => ⟨_, h.build_eq hsets⟩⟩
    rcases hcases with ⟨fault, -, herror⟩ | h
    · rw [herror] at hr
      cases hr
    · exact h
  refine ⟨hiff, fun fault herror => ?_, fun r hr => ?_⟩
  · rcases hcases with ⟨fault', htells, herror'⟩ | h
    · rw [herror] at herror'
      cases herror'
      exact htells
    · rw [h.build_eq hsets] at herror
      cases herror
  · have h := hiff.mp ⟨r, hr⟩
    obtain ⟨hfiled, hids, -, -⟩ := (consistent_iff hsets).mp h
    rw [h.build_eq hsets] at hr
    cases hr
    have hnodup : ((entries.map (ruleOf (sets.flatMap filedOf))).map (·.id)).Nodup := by
      rw [List.map_map]
      exact hids
    refine ⟨?_, List.mergeSort_perm .., all_pairwise hnodup, fun entries' sets' hentries hperm => ?_⟩
    · rw [List.forall₂_map_right_iff, List.forall₂_same]
      exact fun e _ => carries_ruleOf hfiled e
    · have h' := (h.perm hsets hentries hperm).build_eq fun s hs => hsets s (hperm.mem_iff.mp hs)
      have hrules : ruleOf (sets'.flatMap filedOf) = ruleOf (sets.flatMap filedOf) := by
        funext e
        rw [ruleOf, ruleOf, find?_key_perm (hperm.flatMap_right filedOf) hfiled]
      rw [hrules] at h'
      refine ⟨_, h', all_congr ?_ hnodup fun rule => ?_⟩
      · exact (((hentries.map _).map _).nodup_iff).mpr hnodup
      · exact (hentries.map _).mem_iff

/-- Two rules of different categories and an engine rule, joined in two orders. -/
theorem build_consistent_engineRule :
    let quiet : Matcher := ⟨[.function], fun _ _ => .ok []⟩
    let naming : MatcherSet := ⟨.naming, [("b", quiet)]⟩
    let testing : MatcherSet := ⟨.testing, [("a", quiet)]⟩
    let a : CatalogEntry := ⟨"a", .testing, .warning, "Tests", none, false⟩
    let b : CatalogEntry := ⟨"b", .naming, .error, "Names", some "rename it", false⟩
    let c : CatalogEntry := ⟨"c", .organization, .info, "Engine", none, true⟩
    (∀ s ∈ [naming, testing], s.Distinct) ∧
      (∃ r r', build [a, b, c] [naming, testing] = .ok r ∧ build [b, a, c] [testing, naming] = .ok r' ∧
        r'.all = r.all ∧ r.all.Pairwise Rule.Precedes) ∧
      ¬∃ r, build [a, c] [naming, testing] = .ok r := by
  intro quiet naming testing a b c
  have hsets : ∀ s ∈ [naming, testing], s.Distinct := by
    unfold MatcherSet.Distinct
    decide
  have hfits : Consistent [a, b, c] [naming, testing] := by
    refine ⟨?_, forall_not_twice_iff.mpr (by decide), by decide, by decide, by decide⟩
    rintro id ⟨s, t, hsub, hs, ht⟩
    cases hsub.eq_of_length rfl
    rw [List.mem_singleton.mp hs] at ht
    exact absurd ht (by decide)
  obtain ⟨hiff, -, hresult⟩ := build_consistent hsets
  obtain ⟨r, hr⟩ := hiff.mpr hfits
  obtain ⟨-, -, hordered, hreordered⟩ := hresult r hr
  obtain ⟨r', hr', hall⟩ := hreordered [b, a, c] [testing, naming] (.swap a b [c]) (.swap naming testing [])
  refine ⟨hsets, ⟨r, r', hr, hr', hall, hordered⟩, fun hbuilt => ?_⟩
  -- The matcher of the rule on names has no entry here.
  have hentry := ((build_consistent hsets).1.mp hbuilt).catalogued naming List.mem_cons_self "b"
  revert hentry
  decide

end Build

end Registry

end GoIdiom
