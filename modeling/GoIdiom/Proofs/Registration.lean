import GoIdiom.Proofs.Registry
import Mathlib.Data.List.Dedup
import Mathlib.Data.List.Induction
import Mathlib.Data.String.Basic

/-!
# Registering rules

A registry that is kept grows by calls that register one rule each. A call for an identifier that is there
fails and leaves the registry as it is; every other call adds its rule. So after any sequence of calls the
registry holds, for each identifier, the rule of the first call with it. All rules are strictly in order by
category and identifier, whatever the order of the calls was, and a configuration selects the engine rules and
those that it enables.
-/

namespace GoIdiom

/-!
## The order of rules and the selection of a configuration
-/

namespace Rule

/-- Whether a rule is strictly before another one: by category, then by identifier. -/
def Precedes (a b : Rule) : Prop :=
  a.category.name < b.category.name ∨ a.category.name = b.category.name ∧ a.id < b.id

instance : Std.TransCmp order := by unfold order; infer_instance

/-- The order of rules is strict exactly where one is before the other. -/
theorem order_eq_lt_iff {a b : Rule} : order a b = .lt ↔ a.Precedes b := by
  rw [order, compareLex, Ordering.then_eq_lt, compareOn, compareOn, Std.LawfulLTCmp.eq_lt_iff_lt,
    Std.LawfulLTCmp.eq_lt_iff_lt, Std.LawfulEqCmp.compare_eq_iff_eq, Precedes]

/-- No two rules are strictly before each other. -/
theorem Precedes.asymm {a b : Rule} (h : a.Precedes b) : ¬b.Precedes a := by
  intro hback
  rw [← order_eq_lt_iff] at h hback
  have hswap : order a b = (order b a).swap := Std.OrientedCmp.eq_swap
  rw [h, hback] at hswap
  cases hswap

/-- Of two rules in order with different identifiers, the first is strictly before the second. -/
theorem precedes_of_isLE {a b : Rule} (h : (order a b).isLE = true) (hid : a.id ≠ b.id) : a.Precedes b := by
  rw [← order_eq_lt_iff]
  cases horder : order a b with
  | lt => rfl
  | eq =>
    rw [order, compareLex_eq_eq, compareOn, compareOn, Std.LawfulEqCmp.compare_eq_iff_eq,
      Std.LawfulEqCmp.compare_eq_iff_eq] at horder
    exact absurd horder.2 hid
  | gt =>
    rw [horder] at h
    cases h

end Rule

namespace Config

/-- The rules that a configuration enables: those it does not disable that it names, or whose category it
names; without names of rules and categories all. -/
def Enables (config : Config) (rule : Rule) : Prop :=
  rule.id ∉ config.disabledRules ∧
    ((∃ ids, config.enabledRules = some ids ∧ rule.id ∈ ids) ∨
      (∃ categories, config.enabledCategories = some categories ∧ rule.category ∈ categories) ∨
        config.enabledCategories = none ∧ config.enabledRules = none)

/-- Enabling decides which rules run. -/
theorem isEnabled_iff {config : Config} {rule : Rule} :
    config.isEnabled rule.id (some rule.category) = true ↔ config.Enables rule := by
  rw [isEnabled, Enables]
  by_cases hdisabled : rule.id ∈ config.disabledRules
  · simp [hdisabled]
  · cases config.enabledRules <;> cases config.enabledCategories <;> simp [hdisabled]

end Config

namespace Registry

variable {r s : Registry} {rule : Rule}

/-- What is listed is what is registered. -/
theorem mem_all : rule ∈ r.all ↔ rule ∈ r.rules := List.mem_mergeSort

/-- Rules with distinct identifiers are listed strictly in order. -/
theorem all_pairwise (h : (r.rules.map (·.id)).Nodup) : r.all.Pairwise Rule.Precedes := by
  have hids : (r.all.map (·.id)).Nodup := ((List.mergeSort_perm ..).map _).nodup_iff.mpr h
  have hsorted : r.all.Pairwise fun a b => (Rule.order a b).isLE = true := by
    apply List.pairwise_mergeSort
    · intro a b c hab hbc
      exact Std.TransCmp.isLE_trans hab hbc
    · intro a b
      have hswap : Rule.order b a = (Rule.order a b).swap := Std.OrientedCmp.eq_swap
      rw [hswap]
      cases Rule.order a b <;> rfl
  rw [List.Nodup, List.pairwise_map] at hids
  exact (hsorted.and hids).imp fun h => Rule.precedes_of_isLE h.1 h.2

/-- Two registries of the same rules list them alike, whatever the order of their registration. -/
theorem all_congr (hr : (r.rules.map (·.id)).Nodup) (hs : (s.rules.map (·.id)).Nodup)
    (hrules : ∀ rule, rule ∈ r.rules ↔ rule ∈ s.rules) : r.all = s.all := by
  have hperm : r.all.Perm s.all := by
    have hnodup := (List.perm_ext_iff_of_nodup hr.of_map hs.of_map).mpr hrules
    exact (List.mergeSort_perm ..).trans (hnodup.trans (List.mergeSort_perm ..).symm)
  apply List.Perm.eq_of_pairwise _ (all_pairwise hr) (all_pairwise hs) hperm
  intro a b _ _ hab hba
  exact absurd hba hab.asymm

/-- What a configuration selects is listed in the same order. -/
theorem enabled_sublist (r : Registry) (config : Config) : (r.enabled config).Sublist r.all :=
  List.filter_sublist

/-- A configuration selects the engine rules and those that it enables. -/
theorem mem_enabled {config : Config} :
    rule ∈ r.enabled config ↔ rule ∈ r.all ∧ (rule.isEngine = true ∨ config.Enables rule) := by
  rw [enabled, List.mem_filter, Bool.or_eq_true, Config.isEnabled_iff]

/-!
## Calls on a registry
-/

/-- A call that registers a rule in the registry that is kept: the identifier is looked up, and then the rule is
added. -/
def add (rule : Rule) : EStateM RegistryFault Registry Unit := do
  if (← get).contains rule.id then throw (.duplicate rule.id)
  modify fun r => ⟨r.rules ++ [rule]⟩

/-- A call registers its rule, and where that fails the registry is left as it is. -/
theorem run_add (rule : Rule) (r : Registry) :
    (add rule).run r =
      match r.register rule with
      | .ok grown => .ok () grown
      | .error fault => .error fault r := by
  cases hcontains : r.contains rule.id <;> simp [add, register, hcontains]

/-- A call for an identifier that is there fails. -/
theorem run_add_of_contains (h : r.contains rule.id = true) :
    (add rule).run r = .error (.duplicate rule.id) r := by
  rw [run_add, register, if_pos h]

/-- A call for a new identifier adds its rule. -/
theorem run_add_of_new (h : r.contains rule.id = false) : (add rule).run r = .ok () ⟨r.rules ++ [rule]⟩ := by
  rw [run_add, register, if_neg (by simp [h])]

/-- The registry that a call leaves. -/
def leftBy : EStateM.Result RegistryFault Registry Unit → Registry
  | .ok _ r => r
  | .error _ r => r

/-- The registry that calls one after the other make of an empty one. -/
def after (calls : List Rule) : Registry := calls.foldl (fun r rule => leftBy ((add rule).run r)) empty

/-- One more call leaves what it makes of the registry that the calls before it left. -/
theorem after_concat (calls : List Rule) (rule : Rule) :
    after (calls ++ [rule]) = leftBy ((add rule).run (after calls)) := by
  rw [after, List.foldl_append]
  rfl

/-- The first of the calls with an identifier. -/
def firstCall? (calls : List Rule) (id : String) : Option Rule := calls.find? (·.id == id)

/-- A registry in which identifiers are distinct, each with the rule of its first call. -/
structure Keeps (calls : List Rule) (r : Registry) : Prop where
  nodup : (r.rules.map (·.id)).Nodup
  get? : ∀ id, r.get? id = firstCall? calls id

namespace Keeps

variable {calls : List Rule}

/-- The registry has a rule with an identifier exactly when there was a call with it. -/
theorem contains_iff (h : Keeps calls r) (id : String) :
    r.contains id = true ↔ ∃ rule ∈ calls, rule.id = id := by
  have hget : r.contains id = (r.get? id).isSome := by rw [contains, Registry.get?, List.isSome_find?]
  rw [hget, h.get?, firstCall?, List.find?_isSome]
  simp

/-- The rules of the registry are those of first calls. -/
theorem mem_rules_iff (h : Keeps calls r) : rule ∈ r.rules ↔ firstCall? calls rule.id = some rule := by
  rw [← h.get?, Registry.get?, find?_key_eq_some_iff h.nodup]
  simp

/-- A call that fails changes no first call. -/
theorem repeated (h : Keeps calls r) (hid : ∃ earlier ∈ calls, earlier.id = rule.id) :
    Keeps (calls ++ [rule]) r := by
  refine ⟨h.nodup, fun id => ?_⟩
  rw [h.get?, firstCall?, firstCall?, List.find?_append]
  cases hfirst : calls.find? (·.id == id) with
  | some first => rfl
  | none =>
    obtain ⟨earlier, hearlier, hsame⟩ := hid
    have hne : rule.id ≠ id := by
      intro heq
      exact List.find?_eq_none.mp hfirst earlier hearlier (beq_iff_eq.mpr (hsame.trans heq))
    simp [hne]

/-- A call for a new identifier is the first with it. -/
theorem concat (h : Keeps calls r) (hid : ∀ earlier ∈ calls, earlier.id ≠ rule.id) :
    Keeps (calls ++ [rule]) ⟨r.rules ++ [rule]⟩ where
  nodup := by
    apply nodup_map_concat h.nodup
    intro registered hregistered
    exact hid registered (List.mem_of_find?_eq_some (h.mem_rules_iff.mp hregistered))
  get? id := by
    rw [firstCall?, List.find?_append, Registry.get?, List.find?_append]
    exact congrArg (Option.or · _) (h.get? id)

/-- Whether a call fails or not, the registry that it leaves keeps the rules of the first calls. -/
theorem add (h : Keeps calls r) (rule : Rule) : Keeps (calls ++ [rule]) (leftBy ((add rule).run r)) := by
  cases hcontains : r.contains rule.id with
  | true =>
    rw [run_add_of_contains hcontains]
    exact h.repeated ((h.contains_iff rule.id).mp hcontains)
  | false =>
    rw [run_add_of_new hcontains]
    apply h.concat
    intro earlier hearlier hid
    rw [(h.contains_iff rule.id).mpr ⟨earlier, hearlier, hid⟩] at hcontains
    cases hcontains

end Keeps

/-- After any sequence of calls the registry keeps the rules of the first calls. -/
theorem keeps_after (calls : List Rule) : Keeps calls (after calls) := by
  induction calls using List.reverseRecOn with
  | nil => exact ⟨List.nodup_nil, fun _ => rfl⟩
  | append_singleton calls rule ih =>
    rw [after_concat]
    exact ih.add rule

/-- The answers of a registry after calls: each identifier has the rule of its first call, the list of all rules is
strictly in order, and a configuration selects from it. -/
structure Answers (calls : List Rule) (r : Registry) : Prop where
  get? : ∀ id, r.get? id = firstCall? calls id
  contains : ∀ id, r.contains id = true ↔ ∃ rule ∈ calls, rule.id = id
  size : r.size = (calls.map (·.id)).dedup.length
  mem_all : ∀ rule, rule ∈ r.all ↔ firstCall? calls rule.id = some rule
  all_pairwise : r.all.Pairwise Rule.Precedes
  enabled_sublist : ∀ config, (r.enabled config).Sublist r.all
  mem_enabled : ∀ config rule,
    rule ∈ r.enabled config ↔ rule ∈ r.all ∧ (rule.isEngine = true ∨ config.Enables rule)

/-- A registry that keeps the first calls answers for them. -/
theorem Keeps.answers {calls : List Rule} (h : Keeps calls r) : Answers calls r where
  get? := h.get?
  contains := h.contains_iff
  size := by
    have hids : (r.rules.map (·.id)).Perm (calls.map (·.id)).dedup := by
      rw [List.perm_ext_iff_of_nodup h.nodup (List.nodup_dedup _)]
      intro id
      have hid := h.contains_iff id
      rw [Registry.contains, List.any_eq_true] at hid
      simpa using hid
    rw [Registry.size, ← hids.length_eq, List.length_map]
  mem_all _ := Registry.mem_all.trans h.mem_rules_iff
  all_pairwise := Registry.all_pairwise h.nodup
  enabled_sublist := Registry.enabled_sublist r
  mem_enabled _ _ := Registry.mem_enabled

/-- A call on such a registry fails exactly when there was one with its identifier, and changes nothing then. -/
theorem Keeps.run_add_eq_error_iff {calls : List Rule} (h : Keeps calls r) :
    (Registry.add rule).run r = .error (.duplicate rule.id) r ↔ ∃ earlier ∈ calls, earlier.id = rule.id := by
  rw [← h.contains_iff]
  cases hcontains : r.contains rule.id with
  | true => simp [run_add_of_contains hcontains]
  | false => simp [run_add_of_new hcontains]

/-- Every other call succeeds. -/
theorem Keeps.run_add_eq_ok_iff {calls : List Rule} (h : Keeps calls r) :
    (Registry.add rule).run r = .ok () ⟨r.rules ++ [rule]⟩ ↔
      ∀ earlier ∈ calls, earlier.id ≠ rule.id := by
  have hnone : (∀ earlier ∈ calls, earlier.id ≠ rule.id) ↔ ¬r.contains rule.id = true := by
    rw [h.contains_iff]
    simp
  rw [hnone]
  cases hcontains : r.contains rule.id with
  | true => simp [run_add_of_contains hcontains]
  | false => simp [run_add_of_new hcontains]

/-- Registries that keep the same first calls list their rules alike. -/
theorem Keeps.all_eq {calls others : List Rule} (h : Keeps calls r) (hs : Keeps others s)
    (hfirst : ∀ id, firstCall? others id = firstCall? calls id) : s.all = r.all := by
  apply all_congr hs.nodup h.nodup
  intro rule
  rw [hs.mem_rules_iff, h.mem_rules_iff, hfirst]

/-- A registry is append-only over all sequences of calls. A call fails exactly when an earlier one has its
identifier, and then leaves the very registry that it found; the answers are those for the first calls; and the
list of all rules is the same for all sequences with the same first calls, reorderings of calls with distinct
identifiers among them. -/
theorem registration_law (calls : List Rule) :
    (∀ rule, (add rule).run (after calls) = .error (.duplicate rule.id) (after calls) ↔
        ∃ earlier ∈ calls, earlier.id = rule.id) ∧
      (∀ rule, (add rule).run (after calls) = .ok () ⟨(after calls).rules ++ [rule]⟩ ↔
        ∀ earlier ∈ calls, earlier.id ≠ rule.id) ∧
      Answers calls (after calls) ∧
      (∀ others, (∀ id, firstCall? others id = firstCall? calls id) →
        (after others).all = (after calls).all) ∧
      ∀ others, others.Perm calls → (calls.map (·.id)).Nodup → (after others).all = (after calls).all := by
  have hkeeps := keeps_after calls
  refine ⟨fun rule => hkeeps.run_add_eq_error_iff, fun rule => hkeeps.run_add_eq_ok_iff, hkeeps.answers, ?_, ?_⟩
  · intro others hfirst
    exact hkeeps.all_eq (keeps_after others) hfirst
  · intro others hperm hnodup
    exact hkeeps.all_eq (keeps_after others) fun id => find?_key_perm hperm hnodup id

/-- Two rules called for in either order, and the first once more with another category. -/
theorem registration_law_repeated :
    let naming : Rule := ⟨"a", .naming, .warning, "Names", none, none, false⟩
    let testing : Rule := ⟨"b", .testing, .error, "Tests", none, none, true⟩
    let again : Rule := ⟨"a", .concurrency, .info, "Names again", none, none, true⟩
    (add again).run (after [naming, testing]) = .error (.duplicate "a") (after [naming, testing]) ∧
      (after [testing, naming, again]).all = (after [naming, testing]).all ∧
      (after [testing, naming]).all = (after [naming, testing]).all := by
  intro naming testing again
  obtain ⟨hfails, -, -, hfirst, hperm⟩ := registration_law [naming, testing]
  refine ⟨(hfails again).mpr ⟨naming, List.mem_cons_self, rfl⟩, hfirst _ fun id => ?_,
    hperm _ ?_ (by decide)⟩
  · by_cases ha : id = "a"
    · rw [ha]
      rfl
    · have hne : ("a" == id) = false := by simpa using Ne.symm ha
      simp [firstCall?, naming, testing, again, List.find?_cons, hne]
  · exact List.Perm.swap naming testing []

end Registry

end GoIdiom
