import GoIdiom.Style.Catalog
import Mathlib.Data.List.Nodup
import Mathlib.Data.List.Perm.Basic

/-!
# The registry of the style catalog

Joining entries with matchers succeeds when all identifiers are distinct and every entry has a matcher
under its own category, engine entries having none; the registry then has one rule for each entry. The
style catalog meets these conditions, so its registry is never the empty one that stands for a failure.
-/

namespace GoIdiom

/-!
## Lists with distinct keys
-/

/-- Keys stay distinct when an element with a new one is added. -/
theorem nodup_map_concat {α : Type} {key : α → String} {l : List α} {a : α} (h : (l.map key).Nodup)
    (hnew : ∀ b ∈ l, key b ≠ key a) : ((l ++ [a]).map key).Nodup := by
  rw [List.map_append, List.map_singleton, List.nodup_append]
  exact ⟨h, List.nodup_singleton _, by simpa using hnew⟩

/-- A search for a key finds an element that has it. -/
theorem of_find?_key {α : Type} {key : α → String} {l : List α} {k : String} {a : α}
    (h : l.find? (key · == k) = some a) : a ∈ l ∧ key a = k :=
  ⟨List.mem_of_find?_eq_some h, beq_iff_eq.mp (List.find?_some (p := (key · == k)) h)⟩

/-- A search for a key that no other element has finds the element. -/
theorem find?_key_eq_some_iff {α : Type} {key : α → String} {l : List α} (h : (l.map key).Nodup) {k : String}
    {a : α} : l.find? (key · == k) = some a ↔ a ∈ l ∧ key a = k := by
  constructor
  · exact of_find?_key
  · rintro ⟨ha, rfl⟩
    cases hfound : l.find? (key · == key a) with
    | none => exact absurd (beq_self_eq_true (key a)) (List.find?_eq_none.mp hfound a ha)
    | some b =>
      obtain ⟨hb, hkey⟩ := of_find?_key hfound
      rw [List.inj_on_of_nodup_map h hb ha hkey]

/-- A search by key does not depend on the order of elements with different keys. -/
theorem find?_key_perm {α : Type} {key : α → String} {l l' : List α} (hperm : l'.Perm l)
    (h : (l.map key).Nodup) (k : String) : l'.find? (key · == k) = l.find? (key · == k) := by
  have h' : (l'.map key).Nodup := (hperm.map key).nodup_iff.mpr h
  apply Option.ext
  intro a
  rw [find?_key_eq_some_iff h, find?_key_eq_some_iff h', hperm.mem_iff]

/-!
## Joining entries with matchers
-/

namespace Registry

/-- What is found under an identifier is a registered rule with this identifier. -/
theorem of_get? {registry : Registry} {id : String} {rule : Rule} (h : registry.get? id = some rule) :
    rule ∈ registry.rules ∧ rule.id = id := of_find?_key h

/-- The rule of a catalog entry with its matcher among those filed. -/
def ruleOf (filed : List Filed) (e : CatalogEntry) : Rule :=
  ⟨e.id, e.category, e.severity, e.title, e.suggestion, (filed.find? (·.id == e.id)).map (·.matcher),
    e.isEngine⟩

/-- The matchers of a set, filed under its category. -/
def filedOf (s : MatcherSet) : List Filed := s.items.map fun (id, matcher) => ⟨id, s.category, matcher⟩

/-- Matchers of new and distinct identifiers are filed in their order. -/
theorem fileItems_eq_ok (filed : List Filed) (category : Category) (items : List (String × Matcher))
    (h : (filed.map (·.id) ++ items.map (·.1)).Nodup) :
    fileItems filed category items = .ok (filed ++ items.map fun (id, matcher) => ⟨id, category, matcher⟩) := by
  induction items generalizing filed with
  | nil => rw [fileItems, List.map_nil, List.append_nil]
  | cons item rest ih =>
    obtain ⟨id, matcher⟩ := item
    have hnew : filed.any (·.id == id) = false := by
      rw [List.any_eq_false]
      intro m hm hid
      rw [List.nodup_append] at h
      exact h.2.2 m.id (List.mem_map_of_mem hm) id List.mem_cons_self (beq_iff_eq.mp hid)
    rw [fileItems, hnew, if_neg Bool.false_ne_true, ih]
    · rw [List.append_assoc, List.singleton_append, List.map_cons]
    · rwa [List.map_append, List.map_cons, List.map_nil, List.append_assoc, List.singleton_append]

/-- The matchers of sets with distinct identifiers are filed in the order of the sets. -/
theorem fileSets_eq_ok (filed : List Filed) (sets : List MatcherSet)
    (h : (filed.map (·.id) ++ (sets.flatMap filedOf).map (·.id)).Nodup) :
    fileSets filed sets = .ok (filed ++ sets.flatMap filedOf) := by
  induction sets generalizing filed with
  | nil => rw [fileSets, List.flatMap_nil, List.append_nil]
  | cons s rest ih =>
    rw [List.flatMap_cons, List.map_append, ← List.append_assoc] at h
    have hitems : (filedOf s).map (·.id) = s.items.map (·.1) := by rw [filedOf, List.map_map]; rfl
    have hfirst := (List.nodup_append.mp h).1
    rw [hitems] at hfirst
    rw [fileSets, fileItems_eq_ok filed s.category s.items hfirst, List.flatMap_cons, ← List.append_assoc]
    exact ih (filed ++ filedOf s) (by rwa [List.map_append])

/-- An entry is joined with its matcher, which is filed under the category of the entry; an engine entry
has no matcher. -/
def Joins (filed : List Filed) (e : CatalogEntry) : Prop :=
  match filed.find? (·.id == e.id) with
  | none => e.isEngine = true
  | some m => e.isEngine = false ∧ m.category = e.category

/-- One entry is registered with its matcher, which is no longer filed afterwards. -/
theorem joinEntries_cons (registry : Registry) (filed : List Filed) (e : CatalogEntry)
    (rest : List CatalogEntry) (hnew : registry.contains e.id = false) (hjoins : Joins filed e) :
    joinEntries registry filed (e :: rest) =
      joinEntries ⟨registry.rules ++ [ruleOf filed e]⟩ (filed.filter (·.id != e.id)) rest := by
  have hregister : registry.register (ruleOf filed e) = .ok ⟨registry.rules ++ [ruleOf filed e]⟩ := by
    rw [register, if_neg]
    rw [ruleOf, hnew]
    exact Bool.false_ne_true
  have hstep : joinEntries registry filed (e :: rest) =
      (registry.register (ruleOf filed e)).bind fun r =>
        joinEntries r (filed.filter (·.id != e.id)) rest := by
    unfold Joins at hjoins
    rw [joinEntries, ruleOf]
    cases hfound : filed.find? (·.id == e.id) with
    | none =>
      have hengine : ¬(!e.isEngine && !registry.contains e.id) = true := by
        rw [hfound] at hjoins
        simp [show e.isEngine = true from hjoins]
      simp only [if_neg hengine]
      rfl
    | some m =>
      rw [hfound] at hjoins
      have hengine : ¬e.isEngine = true := by simp [hjoins.1]
      have hcategory : ¬(m.category != e.category) = true := by simp [hjoins.2]
      simp only [if_neg hengine, if_neg hcategory]
      rfl
  rw [hstep, hregister]
  rfl

/-- Entries of new and distinct identifiers that join with their matchers become one rule each. -/
theorem joinEntries_eq_ok (registry : Registry) (filed : List Filed) (entries : List CatalogEntry)
    (hids : (registry.rules.map (·.id) ++ entries.map (·.id)).Nodup) (hjoins : ∀ e ∈ entries, Joins filed e) :
    joinEntries registry filed entries =
      .ok (⟨registry.rules ++ entries.map (ruleOf filed)⟩,
        filed.filter fun m => !entries.any (·.id == m.id)) := by
  induction entries generalizing registry filed with
  | nil => simp [joinEntries]
  | cons e rest ih =>
    rw [List.map_cons, List.nodup_append] at hids
    obtain ⟨hregistered, hentries, hapart⟩ := hids
    rw [List.nodup_cons] at hentries
    have hnew : registry.contains e.id = false := by
      rw [contains, List.any_eq_false]
      intro r hr hid
      exact hapart r.id (List.mem_map_of_mem hr) e.id List.mem_cons_self (beq_iff_eq.mp hid)
    have hfound (e' : CatalogEntry) (he' : e' ∈ rest) :
        (filed.filter (·.id != e.id)).find? (·.id == e'.id) = filed.find? (·.id == e'.id) := by
      have hne : e'.id ≠ e.id := fun h => hentries.1 (h ▸ List.mem_map_of_mem he')
      rw [List.find?_filter]
      congr 1
      funext m
      by_cases hm : m.id = e'.id <;> simp [hm, hne]
    have hrules : rest.map (ruleOf (filed.filter (·.id != e.id))) = rest.map (ruleOf filed) :=
      List.map_congr_left fun e' he' => by rw [ruleOf, ruleOf, hfound e' he']
    rw [joinEntries_cons registry filed e rest hnew (hjoins e List.mem_cons_self), ih, hrules]
    · simp only [List.map_cons, List.append_assoc, List.singleton_append, List.filter_filter, List.any_cons,
        Bool.not_or]
      congr 2
      refine List.filter_congr fun m _ => ?_
      rw [Bool.and_comm]
      congr 1
      rw [bne, Bool.beq_comm]
    · rw [List.map_append, List.append_assoc, List.nodup_append]
      refine ⟨hregistered, ?_, hapart⟩
      exact List.nodup_cons.mpr hentries
    · intro e' he'
      have := hjoins e' (List.mem_cons_of_mem _ he')
      rwa [Joins, hfound e' he']

/-- Joining entries with matchers succeeds when identifiers are distinct, every entry joins with a matcher
that is filed for it, and every matcher has an entry. -/
theorem build_eq_ok (entries : List CatalogEntry) (sets : List MatcherSet)
    (hfiled : ((sets.flatMap filedOf).map (·.id)).Nodup) (hids : (entries.map (·.id)).Nodup)
    (hjoins : ∀ e ∈ entries, Joins (sets.flatMap filedOf) e)
    (hentries : ∀ m ∈ sets.flatMap filedOf, ∃ e ∈ entries, e.id = m.id) :
    build entries sets = .ok ⟨entries.map (ruleOf (sets.flatMap filedOf))⟩ := by
  have hleft : (sets.flatMap filedOf).filter (fun m => !entries.any (·.id == m.id)) = [] := by
    rw [List.filter_eq_nil_iff]
    intro m hm
    obtain ⟨e, he, hid⟩ := hentries m hm
    have hany : entries.any (·.id == m.id) = true := List.any_eq_true.mpr ⟨e, he, beq_iff_eq.mpr hid⟩
    rw [hany]
    exact Bool.false_ne_true
  rw [build, fileSets_eq_ok [] sets hfiled]
  simp only [List.nil_append, bind, Except.bind]
  rw [joinEntries_eq_ok empty _ entries hids hjoins, hleft]
  rfl

/-- The rules that the analysis reports itself are registered as engine rules. -/
def HoldsEngineRules (r : Registry) : Prop :=
  ∀ e ∈ Style.Organization.engineEntries, ∃ rule, r.get? e.id = some rule ∧ rule.isEngine = true

/-- No rule with a matcher has the name of a rule that the analysis reports itself. -/
def SparesEngineNames (r : Registry) : Prop :=
  ∀ rule ∈ r.rules, rule.matcher ≠ none → ∀ e ∈ Style.Organization.engineEntries, rule.id ≠ e.id

end Registry

/-!
## The style catalog
-/

namespace Style

/-- The matchers of all sets, filed in the order of the categories. -/
def filed : List Registry.Filed := matcherSets.flatMap Registry.filedOf

/-- Identifiers and categories of the matchers, in the order they are written down. -/
def matcherNames : List (String × Category) :=
  matcherSets.flatMap fun s => s.entries.map fun (id, _) => (id, s.category)

/-- Filing sorts the matchers of each category, and so only reorders their names. -/
theorem filed_names : (filed.map fun m => (m.id, m.category)).Perm matcherNames := by
  rw [filed, List.map_flatMap, matcherNames]
  refine List.Perm.flatMap_left _ fun s _ => ?_
  rw [Registry.filedOf, List.map_map]
  exact (List.mergeSort_perm s.entries _).map fun item => (item.1, s.category)

/-- A matcher is filed for a name exactly when the name is written down. -/
theorem exists_filed_iff (id : String) (category : Category) :
    (∃ m ∈ filed, m.id = id ∧ m.category = category) ↔ (id, category) ∈ matcherNames := by
  rw [← filed_names.mem_iff, List.mem_map]
  simp only [Prod.mk.injEq]

/-- No two matchers are filed under one identifier. -/
theorem filed_nodup : (filed.map (·.id)).Nodup := by
  have hnames : (matcherNames.map (·.1)).Nodup := by decide +kernel
  have hperm := filed_names.map (·.1)
  rw [List.map_map] at hperm
  exact hperm.nodup_iff.mpr hnames

/-- No two entries of the catalog have one identifier. -/
theorem entries_nodup : (entries.map (·.id)).Nodup := by decide +kernel

/-- Every entry of the catalog joins with its matcher. -/
theorem entries_join (e : CatalogEntry) (he : e ∈ entries) : Registry.Joins filed e := by
  have hcatalog : ∀ e ∈ entries, if e.isEngine then ∀ n ∈ matcherNames, n.1 ≠ e.id
      else (e.id, e.category) ∈ matcherNames := by decide +kernel
  have hmatcher := hcatalog e he
  unfold Registry.Joins
  cases hfound : filed.find? (·.id == e.id) with
  | none =>
    by_contra hengine
    rw [if_neg hengine, ← exists_filed_iff] at hmatcher
    obtain ⟨m, hm, hid, _⟩ := hmatcher
    exact List.find?_eq_none.mp hfound m hm (beq_iff_eq.mpr hid)
  | some m =>
    obtain ⟨hm, hid⟩ := (find?_key_eq_some_iff filed_nodup).mp hfound
    cases hengine : e.isEngine with
    | true =>
      rw [hengine, if_pos rfl] at hmatcher
      exact absurd hid (hmatcher _ ((exists_filed_iff m.id m.category).mp ⟨m, hm, rfl, rfl⟩))
    | false =>
      rw [hengine, if_neg Bool.false_ne_true, ← exists_filed_iff] at hmatcher
      obtain ⟨m', hm', hid', hcategory⟩ := hmatcher
      have hsame : m = m' := List.inj_on_of_nodup_map filed_nodup hm hm' (hid.trans hid'.symm)
      exact ⟨rfl, hsame ▸ hcategory⟩

/-- The registry of the style catalog has one rule for each entry. -/
theorem registry_rules : registry.rules = entries.map (Registry.ruleOf filed) := by
  have hnames : ∀ n ∈ matcherNames, ∃ e ∈ entries, e.id = n.1 := by decide +kernel
  have hentries (m : Registry.Filed) (hm : m ∈ filed) : ∃ e ∈ entries, e.id = m.id :=
    hnames (m.id, m.category) ((exists_filed_iff _ _).mp ⟨m, hm, rfl, rfl⟩)
  rw [registry, registry?, Registry.build_eq_ok entries matcherSets filed_nodup entries_nodup entries_join hentries]
  rfl

/-- No two registered rules have one identifier. -/
theorem registry_nodup : (registry.rules.map (·.id)).Nodup := by
  rw [registry_rules, List.map_map]
  exact entries_nodup

/-- The rule of an entry is found under its identifier. -/
theorem registry_get? (e : CatalogEntry) (he : e ∈ entries) :
    registry.get? e.id = some (Registry.ruleOf filed e) := by
  rw [Registry.get?, find?_key_eq_some_iff registry_nodup, registry_rules]
  exact ⟨List.mem_map_of_mem he, rfl⟩

/-- What is filed are the matchers of the style rules. -/
theorem mem_filed_iff (m : Registry.Filed) :
    m ∈ filed ↔ ∃ category, ∃ r ∈ rulesOf category,
      m = ⟨r.id, category, ⟨r.kinds, r.predicate⟩⟩ := by
  constructor
  · intro hm
    obtain ⟨s, hs, hm⟩ := List.mem_flatMap.mp hm
    obtain ⟨category, -, rfl⟩ := List.mem_map.mp hs
    obtain ⟨item, hitem, rfl⟩ := List.mem_map.mp hm
    obtain ⟨r, hr, rfl⟩ := List.mem_map.mp (List.mem_mergeSort.mp hitem)
    exact ⟨category, r, hr, rfl⟩
  · rintro ⟨category, r, hr, rfl⟩
    have hcategory : category ∈ Category.all := by cases category <;> decide
    exact List.mem_flatMap.mpr ⟨_, List.mem_map_of_mem hcategory,
      List.mem_map.mpr ⟨r.item, List.mem_mergeSort.mpr (List.mem_map_of_mem hr), rfl⟩⟩

/-- The matcher of a registered rule is that of the style rule with its identifier. -/
theorem exists_styleRule_of_mem_registry {rule : Rule} (hrule : rule ∈ registry.rules) {m : Matcher}
    (hm : rule.matcher = some m) :
    ∃ category, ∃ r ∈ rulesOf category, r.id = rule.id ∧ m = ⟨r.kinds, r.predicate⟩ := by
  rw [registry_rules] at hrule
  obtain ⟨e, -, rfl⟩ := List.mem_map.mp hrule
  obtain ⟨found, hfound, rfl⟩ := Option.map_eq_some_iff.mp hm
  obtain ⟨hmem, hid⟩ := of_find?_key hfound
  obtain ⟨category, r, hr, rfl⟩ := (mem_filed_iff found).mp hmem
  exact ⟨category, r, hr, hid, rfl⟩

/-- Every style rule is registered with its matcher. -/
theorem exists_rule_of_mem_rulesOf {category : Category} {r : StyleRule} (hr : r ∈ rulesOf category) :
    ∃ rule ∈ registry.rules,
      rule.id = r.id ∧ rule.category = category ∧ rule.matcher = some ⟨r.kinds, r.predicate⟩ := by
  have hcategory : category ∈ Category.all := by cases category <;> decide
  have hentry : r.entry category ∈ entries := List.mem_append_left _
    (List.mem_flatMap.mpr ⟨category, hcategory, List.mem_map_of_mem hr⟩)
  have hfiled := (mem_filed_iff _).mpr ⟨category, r, hr, rfl⟩
  refine ⟨Registry.ruleOf filed (r.entry category), ?_, rfl, rfl, ?_⟩
  · rw [registry_rules]
    exact List.mem_map_of_mem hentry
  · have hfound := (find?_key_eq_some_iff filed_nodup).mpr ⟨hfiled, rfl⟩
    exact Option.map_eq_some_iff.mpr ⟨_, hfound, rfl⟩

/-- The style rules have other names than the engine rules. -/
theorem id_ne_of_mem_engineEntries {category : Category} {r : StyleRule} (hr : r ∈ rulesOf category)
    {e : CatalogEntry} (he : e ∈ Organization.engineEntries) : r.id ≠ e.id := by
  have hcategory : category ∈ Category.all := by cases category <;> decide
  have hentry : r.entry category ∈ Category.all.flatMap fun c => (rulesOf c).map (StyleRule.entry c) :=
    List.mem_flatMap.mpr ⟨category, hcategory, List.mem_map_of_mem hr⟩
  have hnodup := entries_nodup
  rw [entries, List.map_append, List.nodup_append] at hnodup
  exact hnodup.2.2 r.id (List.mem_map_of_mem (f := CatalogEntry.id) hentry) e.id (List.mem_map_of_mem he)

/-- No matcher of the style catalog reports under the name of an engine rule. -/
theorem registry_sparesEngineNames : registry.SparesEngineNames := by
  intro rule hrule hmatcher e he
  obtain ⟨m, hm⟩ := Option.ne_none_iff_exists'.mp hmatcher
  obtain ⟨category, r, hr, hid, -⟩ := exists_styleRule_of_mem_registry hrule hm
  exact hid ▸ id_ne_of_mem_engineEntries hr he

/-- The registry of the style catalog holds the engine rules. -/
theorem registry_holdsEngineRules : registry.HoldsEngineRules := by
  intro e he
  have hengine : ∀ e ∈ Organization.engineEntries, e.isEngine = true := by decide +kernel
  exact ⟨_, registry_get? e (List.mem_append_right _ he), hengine e he⟩

end Style

end GoIdiom
