import GoIdiom.Config.OfDocument
import GoIdiom.Proofs.Outcome
import Mathlib.Data.List.Nodup

/-!
# What a configuration document is read as

Each section of a configuration changes its own part of the configuration, and reads a document of the right shape
only. So a document is read exactly when there is a configuration that says what it says: every rule of the section
of rules is either disabled or has a severity, categories and the output format are known ones, the number of jobs
is not negative, and line ranges are in order. A document of another shape is malformed, with one exception:
suppressions that are a single value are no collection.
-/

namespace GoIdiom

namespace Document

/-- A value without entries to go through: no text, no list and no table. -/
def IsSingle : Document → Prop
  | null | bool _ | int _ | float _ | moment _ => True
  | _ => False

/-- The texts of a list are its items. -/
theorem texts?_eq_some_iff {items : List Document} {texts : List String} :
    texts? items = some texts ↔ items = texts.map text := by
  induction items generalizing texts with
  | nil => cases texts <;> simp [texts?]
  | cons item rest ih =>
    cases texts with
    | nil => cases item <;> simp [texts?]
    | cons first more => cases item <;> simp [texts?, ih, and_comm]

end Document

/-- A name that is known is that of its category. -/
theorem Category.ofName?_eq_some_iff {name : String} {c : Category} : ofName? name = some c ↔ name = c.name := by
  constructor
  · intro h
    exact (beq_iff_eq.mp (List.find?_some (p := fun c : Category => c.name == name) h)).symm
  · rintro rfl
    cases c <;> rfl

/-- A name that is known is that of its format. -/
theorem OutputFormat.ofName?_eq_some_iff {name : String} {format : OutputFormat} :
    ofName? name = some format ↔ name = format.name := by
  constructor
  · intro h
    exact (beq_iff_eq.mp (List.find?_some (p := fun f : OutputFormat => f.name == name) h)).symm
  · rintro rfl
    cases format <;> rfl

namespace Config

/-!
## Values
-/

/-- Two checks pass when the first one does, and the second one whatever the first one has read. -/
theorem exists_bind {α β : Type} {x : Check α} {f : α → Check β} (hx : ∃ a, x = .ok a)
    (hf : ∀ a, ∃ b, f a = .ok b) : ∃ b, x >>= f = .ok b := by
  obtain ⟨a, ha⟩ := hx
  obtain ⟨b, hb⟩ := hf a
  exact ⟨b, Except.bind_eq_ok.mpr ⟨a, ha, hb⟩⟩

/-- A list of texts is read from a list of nothing but texts. -/
theorem textList_eq_ok_iff {value : Document} {place : String} {texts : List String} :
    textList value place = .ok texts ↔ value = .list (texts.map .text) := by
  cases value with
  | list items =>
    rw [textList, Document.list.injEq, ← Document.texts?_eq_some_iff]
    cases Document.texts? items <;> simp
  | _ => simp [textList]

/-- A truth value is read from a truth value. -/
theorem truth_eq_ok_iff {value : Document} {place : String} {b : Bool} :
    truth value place = .ok b ↔ value = .bool b := by
  cases value <;> simp [truth]

/-- A key of a section sets one field of the configuration to what its value is written for; without the key the
field keeps its default. -/
theorem whenPresent_eq_ok {α : Type} {entries : Table} {key : String} {config config' : Config}
    {apply : Document → Check Config} (set : α → Config) (write : α → Document) (default : α)
    (hdefault : config = set default)
    (hread : ∀ value next, apply value = .ok next → ∃ a, value = write a ∧ next = set a)
    (h : whenPresent entries key config apply = .ok config') :
    ∃ a, (entries.lookup key).getD (write default) = write a ∧ config' = set a := by
  rw [whenPresent] at h
  cases hvalue : entries.lookup key with
  | none =>
    rw [hvalue] at h
    exact ⟨default, rfl, (Except.ok.inj h).symm.trans hdefault⟩
  | some value =>
    rw [hvalue] at h
    exact hread value config' h

/-- A key is read when its value is written for something that can be read. -/
theorem exists_whenPresent {α : Type} {entries : Table} {key : String} (config : Config)
    {apply : Document → Check Config} (write : α → Document) (default : α) {a : α}
    (hvalue : (entries.lookup key).getD (write default) = write a) (happly : ∃ next, apply (write a) = .ok next) :
    ∃ next, whenPresent entries key config apply = .ok next := by
  rw [whenPresent]
  cases hfound : entries.lookup key with
  | none => exact ⟨config, rfl⟩
  | some value =>
    rw [hfound, Option.getD_some] at hvalue
    rw [hvalue]
    exact happly

/-- The entries of a section; a section that is missing has none. -/
def entriesUnder (data : Table) (name : String) : Table := ((data.lookup name).bind Document.entries?).getD []

/-- The value under a key of a section. -/
def valueAt? (data : Table) (name key : String) : Option Document := (entriesUnder data name).lookup key

/-- A section that is a table, or missing. -/
def IsSection (data : Table) (name : String) : Prop :=
  ∀ value, data.lookup name = some value → ∃ entries, value.entries? = some entries

/-- What follows a section is checked with its entries. -/
theorem sectionOf_bind_eq_ok {data : Table} {name : String} {check : Table → Check Config} {config : Config} :
    sectionOf data name >>= check = .ok config ↔
      IsSection data name ∧ check (entriesUnder data name) = .ok config := by
  rw [Except.bind_eq_ok, sectionOf, IsSection, entriesUnder]
  cases hvalue : data.lookup name with
  | none => simp
  | some value => cases hentries : value.entries? <;> simp [hentries]

/-!
## Rules
-/

/-- What the section of rules may say about a rule: that it is off, or which severity it has. -/
def verdictOf? : Document → Option (Option Severity)
  | .text word =>
    if offWords.contains (Text.lower word) then some none else (Severity.ofName? (Text.lower word)).map some
  | _ => none

/-- The rules that a section turns off. -/
def offRules (entries : Table) : List String :=
  entries.filterMap fun entry => if verdictOf? entry.2 = some none then some entry.1 else none

/-- The rules that a section gives a severity. -/
def givenSeverities (entries : Table) : List (String × Severity) :=
  entries.filterMap fun entry => (verdictOf? entry.2).join.map fun severity => (entry.1, severity)

/-- One entry of the section records its verdict. -/
theorem applyRule_eq_ok {config config' : Config} {rule : String} {value : Document}
    (h : applyRule config rule value = .ok config') :
    verdictOf? value = some none ∧ config' = { config with disabledRules := config.disabledRules ++ [rule] } ∨
      ∃ severity, verdictOf? value = some (some severity) ∧
        config' = { config with severities := config.severities ++ [(rule, severity)] } := by
  cases value with
  | text word =>
    simp only [applyRule] at h
    rw [verdictOf?]
    split at h
    · rename_i hoff
      rw [if_pos hoff]
      exact Or.inl ⟨rfl, (Except.ok.inj h).symm⟩
    · rename_i hoff
      rw [if_neg hoff]
      split at h
      · rename_i severity hseverity
        rw [hseverity]
        exact Or.inr ⟨severity, rfl, (Except.ok.inj h).symm⟩
      · cases h
  | _ => cases h

/-- The entries of the section, one after the other, record all their verdicts and nothing else. -/
theorem applyRules_eq_ok {config config' : Config} {entries : Table} (h : applyRules config entries = .ok config') :
    (∀ entry ∈ entries, (verdictOf? entry.2).isSome) ∧
      config' = { config with
        disabledRules := config.disabledRules ++ offRules entries
        severities := config.severities ++ givenSeverities entries } := by
  induction entries generalizing config with
  | nil =>
    cases h
    simp [offRules, givenSeverities]
  | cons entry rest ih =>
    obtain ⟨rule, value⟩ := entry
    obtain ⟨next, hnext, h⟩ := Except.bind_eq_ok.mp h
    obtain ⟨hknown, hconfig⟩ := ih h
    rcases applyRule_eq_ok hnext with ⟨hverdict, rfl⟩ | ⟨severity, hverdict, rfl⟩
    all_goals
      refine ⟨List.forall_mem_cons.mpr ⟨by simp [hverdict], hknown⟩, hconfig.trans ?_⟩
      simp [offRules, givenSeverities, hverdict]

/-- Entries that say something about their rules are read. -/
theorem exists_applyRules (config : Config) {entries : Table}
    (h : ∀ entry ∈ entries, (verdictOf? entry.2).isSome) :
    ∃ next, applyRules config entries = .ok next := by
  induction entries generalizing config with
  | nil => exact ⟨config, rfl⟩
  | cons entry rest ih =>
    obtain ⟨rule, value⟩ := entry
    obtain ⟨hentry, hrest⟩ := List.forall_mem_cons.mp h
    have hrule : ∃ next, applyRule config rule value = .ok next := by
      cases value with
      | text word =>
        simp only [verdictOf?] at hentry
        split at hentry
        · rename_i hoff
          exact ⟨_, if_pos hoff⟩
        · rename_i hoff
          obtain ⟨severity, hseverity⟩ := Option.isSome_iff_exists.mp (Option.isSome_map.symm.trans hentry)
          simp only [applyRule, if_neg hoff, hseverity]
          exact ⟨_, rfl⟩
      | _ => cases hentry
    exact exists_bind hrule fun next => ih next hrest

/-!
## The other sections
-/

/-- Names of which none is unknown are those of their categories. -/
theorem map_name_filterMap {names : List String} (h : ∀ name ∈ names, (Category.ofName? name).isSome) :
    (names.filterMap Category.ofName?).map (·.name) = names := by
  induction names with
  | nil => rfl
  | cons name rest ih =>
    obtain ⟨hname, hrest⟩ := List.forall_mem_cons.mp h
    obtain ⟨category, hcategory⟩ := Option.isSome_iff_exists.mp hname
    rw [List.filterMap_cons_some hcategory, List.map_cons, ih hrest, ← Category.ofName?_eq_some_iff.mp hcategory]

/-- Enabled categories are written with their names. -/
theorem applyCategories_eq_ok {config config' : Config} {entries : Table} (hnone : config.enabledCategories = none)
    (h : applyCategories config entries = .ok config') :
    ∃ categories : Option (List Category),
      entries.lookup "enabled" = categories.map (fun cs => .list (cs.map (.text ·.name))) ∧
        config' = { config with enabledCategories := categories } := by
  rw [applyCategories, whenPresent] at h
  cases hvalue : entries.lookup "enabled" with
  | none =>
    rw [hvalue] at h
    cases h
    exact ⟨none, rfl, by rw [← hnone]⟩
  | some value =>
    simp only [hvalue] at h
    obtain ⟨names, hnames, h⟩ := Except.bind_eq_ok.mp h
    split at h
    · rename_i hunknown
      have hknown : ∀ name ∈ names, (Category.ofName? name).isSome := by
        intro name hname
        by_contra hnone
        have hmem : name ∈
            ((names.filter fun n => (Category.ofName? n).isNone).eraseDups.mergeSort (· ≤ ·)) := by
          rw [List.mem_mergeSort, List.mem_eraseDups, List.mem_filter]
          exact ⟨hname, by simpa using hnone⟩
        rw [List.isEmpty_iff.mp hunknown] at hmem
        cases hmem
      refine ⟨some (names.filterMap Category.ofName?), ?_, (Except.ok.inj h).symm⟩
      have hwritten := congrArg (List.map Document.text) (map_name_filterMap hknown)
      rw [List.map_map] at hwritten
      rw [textList_eq_ok_iff.mp hnames, ← hwritten]
      rfl
    · cases h

/-- Names of categories are read. -/
theorem exists_applyCategories (config : Config) {entries : Table} {categories : Option (List Category)}
    (h : entries.lookup "enabled" = categories.map (fun cs => .list (cs.map (.text ·.name)))) :
    ∃ next, applyCategories config entries = .ok next := by
  rw [applyCategories, whenPresent, h]
  cases categories with
  | none => exact ⟨config, rfl⟩
  | some cs =>
    have hnames : textList (.list (cs.map (.text ·.name))) "[categories] enabled" = .ok (cs.map (·.name)) := by
      rw [textList_eq_ok_iff, List.map_map]
      rfl
    have hunknown : (cs.map (·.name)).filter (fun n => (Category.ofName? n).isNone) = [] := by
      simp [List.filter_eq_nil_iff, Category.ofName?_eq_some_iff.mpr rfl]
    refine ⟨{ config with enabledCategories := some ((cs.map (·.name)).filterMap Category.ofName?) },
      Except.bind_eq_ok.mpr ⟨_, hnames, ?_⟩⟩
    rw [hunknown, List.eraseDups_nil, List.mergeSort_nil]
    rfl

/-- The output format is written with its name, and flags are truth values. -/
theorem applyOutput_eq_ok {config config' : Config} {entries : Table}
    (h : applyOutput config entries = .ok config') :
    ∃ format warnings suggestions,
      (entries.lookup "format").getD (.text config.format.name) = .text format.name ∧
      (entries.lookup "treat_warnings_as_errors").getD (.bool config.warningsAsErrors) = .bool warnings ∧
      (entries.lookup "show_suggestions").getD (.bool config.showSuggestions) = .bool suggestions ∧
      config' = { config with format := format, warningsAsErrors := warnings, showSuggestions := suggestions } := by
  obtain ⟨formatted, hformatted, h⟩ := Except.bind_eq_ok.mp h
  obtain ⟨warned, hwarned, hsuggested⟩ := Except.bind_eq_ok.mp h
  have hflag {set : Bool → Config} {place : String} (value : Document) (next : Config)
      (h : (do let b ← truth value place; pure (set b)) = Except.ok next) :
      ∃ b, value = .bool b ∧ next = set b := by
    obtain ⟨b, hb, h⟩ := Except.bind_eq_ok.mp h
    exact ⟨b, truth_eq_ok_iff.mp hb, (Except.ok.inj h).symm⟩
  obtain ⟨format, hformat, rfl⟩ :=
    whenPresent_eq_ok (fun format => { config with format }) (fun f => .text f.name)
    config.format rfl (fun value next hnext => by
      split at hnext
      · split at hnext
        · rename_i name format hname
          exact ⟨format, congrArg Document.text (OutputFormat.ofName?_eq_some_iff.mp hname),
            (Except.ok.inj hnext).symm⟩
        · cases hnext
      · cases hnext) hformatted
  obtain ⟨warnings, hwarnings, rfl⟩ :=
    whenPresent_eq_ok (fun b => { config with format, warningsAsErrors := b })
    Document.bool config.warningsAsErrors rfl hflag hwarned
  obtain ⟨suggestions, hsuggestions, rfl⟩ := whenPresent_eq_ok
    (fun b => { config with format, warningsAsErrors := warnings, showSuggestions := b })
    Document.bool config.showSuggestions rfl hflag hsuggested
  exact ⟨format, warnings, suggestions, hformat, hwarnings, hsuggestions, rfl⟩

/-- A known format and truth values are read. -/
theorem exists_applyOutput (config : Config) {entries : Table} {format : OutputFormat} {warnings suggestions : Bool}
    (hformat : (entries.lookup "format").getD (.text "text") = .text format.name)
    (hwarnings : (entries.lookup "treat_warnings_as_errors").getD (.bool false) = .bool warnings)
    (hsuggestions : (entries.lookup "show_suggestions").getD (.bool false) = .bool suggestions) :
    ∃ next, applyOutput config entries = .ok next := by
  refine exists_bind (exists_whenPresent config (fun f => .text f.name) OutputFormat.text hformat ?_)
    fun formatted =>
    exists_bind (exists_whenPresent formatted .bool false hwarnings ?_) fun warned =>
      exists_whenPresent warned .bool false hsuggestions ?_
  · exact ⟨{ config with format }, by simp [OutputFormat.ofName?_eq_some_iff.mpr rfl]⟩
  · exact ⟨{ formatted with warningsAsErrors := warnings }, rfl⟩
  · exact ⟨{ warned with showSuggestions := suggestions }, rfl⟩

/-- The number of jobs is a whole number that is not negative, and exclusions are texts. -/
theorem applyAnalysis_eq_ok {config config' : Config} {entries : Table}
    (h : applyAnalysis config entries = .ok config') :
    ∃ (jobs : Nat) (exclude : List String),
      (entries.lookup "jobs").getD (.int config.jobs) = .int jobs ∧
      (entries.lookup "exclude").getD (.list (config.exclude.map .text)) = .list (exclude.map .text) ∧
      config' = { config with jobs := jobs, exclude := exclude } := by
  obtain ⟨counted, hcounted, hexcluded⟩ := Except.bind_eq_ok.mp h
  obtain ⟨jobs, hjobs, rfl⟩ :=
    whenPresent_eq_ok (fun jobs : Nat => { config with jobs }) (fun jobs => .int jobs)
    config.jobs rfl (fun value next hnext => by
      split at hnext
      · rename_i n
        split at hnext
        · cases hnext
        · rename_i hsign
          exact ⟨n.toNat, congrArg Document.int (Int.toNat_of_nonneg (Int.not_lt.mp hsign)).symm,
            (Except.ok.inj hnext).symm⟩
      · cases hnext) hcounted
  obtain ⟨exclude, hexclude, rfl⟩ := whenPresent_eq_ok (fun exclude => { config with jobs, exclude })
    (fun exclude => .list (exclude.map .text)) config.exclude rfl (fun value next hnext => by
      obtain ⟨patterns, hpatterns, hnext⟩ := Except.bind_eq_ok.mp hnext
      exact ⟨patterns, textList_eq_ok_iff.mp hpatterns, (Except.ok.inj hnext).symm⟩) hexcluded
  exact ⟨jobs, exclude, hjobs, hexclude, rfl⟩

/-- A number that is not negative and texts are read. -/
theorem exists_applyAnalysis (config : Config) {entries : Table} {jobs : Nat} {exclude : List String}
    (hjobs : (entries.lookup "jobs").getD (.int 0) = .int jobs)
    (hexclude : (entries.lookup "exclude").getD (.list []) = .list (exclude.map .text)) :
    ∃ next, applyAnalysis config entries = .ok next := by
  refine exists_bind (exists_whenPresent config (fun jobs : Nat => .int jobs) 0 hjobs ?_) fun counted =>
    exists_whenPresent counted (fun exclude : List String => .list (exclude.map .text)) [] hexclude ?_
  · exact ⟨{ config with jobs }, by simp⟩
  · exact ⟨{ counted with exclude }, Except.bind_eq_ok.mpr ⟨exclude, textList_eq_ok_iff.mpr rfl, rfl⟩⟩

/-- The options of each rule are a table. -/
theorem applyOptions_eq_ok {config config' : Config} {entries : Table}
    (h : applyOptions config entries = .ok config') :
    ∃ options : List (String × Table),
      entries.map (fun entry => (entry.1, entry.2.entries?)) =
        options.map (fun option => (option.1, some option.2)) ∧
        config' = { config with options := config.options ++ options } := by
  induction entries generalizing config with
  | nil =>
    cases h
    exact ⟨[], rfl, by rw [List.append_nil]⟩
  | cons entry rest ih =>
    obtain ⟨rule, value⟩ := entry
    rw [applyOptions] at h
    split at h
    · rename_i options hoptions
      obtain ⟨more, hmore, hconfig⟩ := ih h
      refine ⟨(rule, options) :: more, by simp [hoptions, hmore], ?_⟩
      rw [hconfig, List.append_assoc, List.singleton_append]
    · cases h

/-- Tables of options are read. -/
theorem exists_applyOptions (config : Config) {entries : Table} {options : List (String × Table)}
    (h : entries.map (fun entry => (entry.1, entry.2.entries?)) =
      options.map (fun option => (option.1, some option.2))) :
      ∃ next, applyOptions config entries = .ok next := by
  induction entries generalizing config options with
  | nil => exact ⟨config, rfl⟩
  | cons entry rest ih =>
    obtain ⟨rule, value⟩ := entry
    cases options with
    | nil => cases h
    | cons option more =>
      obtain ⟨hoption, hmore⟩ := List.cons.inj h
      have hentries : value.entries? = some option.2 := congrArg Prod.snd hoption
      simp only [applyOptions, hentries]
      exact ih _ hmore

/-!
## Suppressions
-/

/-- The value that a bound is written as. -/
def writtenBound : LineBound → Document
  | .number value => .int value
  | .truth value => .bool value

/-- A bound is read from the value that it is written as. -/
theorem lineBound?_eq_some_iff {value : Document} {bound : LineBound} :
    lineBound? value = some bound ↔ value = writtenBound bound := by
  cases bound <;> cases value <;> simp [lineBound?, writtenBound]

/-- A line range is read from a list of two bounds in order. -/
theorem lineRange?_eq_some_iff {value : Document} {first last : LineBound} :
    lineRange? value = some (first, last) ↔
      value = .list [writtenBound first, writtenBound last] ∧ first.line ≤ last.line := by
  constructor
  · intro h
    unfold lineRange? at h
    split at h
    · obtain ⟨a, ha, h⟩ := Option.bind_eq_some_iff.mp h
      obtain ⟨b, hb, h⟩ := Option.bind_eq_some_iff.mp h
      split at h
      · rename_i hle
        cases h
        rw [lineBound?_eq_some_iff.mp ha, lineBound?_eq_some_iff.mp hb]
        exact ⟨rfl, hle⟩
      · cases h
    · cases h
  · rintro ⟨rfl, hle⟩
    simp [lineRange?, lineBound?_eq_some_iff.mpr rfl, hle]

/-- A suppression that an entry declares: for its rule, for one path, several or all of them, for a range of lines
or all of them, and for a reason. -/
structure Declares (entry : Table) (s : SuppressionEntry) : Prop where
  rule : entry.lookup "rule" = some (.text s.rule)
  paths : entry.lookup "paths" = none ∧ s.paths = ["**"] ∨
    (∃ path, entry.lookup "paths" = some (.text path) ∧ s.paths = [path]) ∨
      entry.lookup "paths" = some (.list (s.paths.map .text))
  lines : match s.lines with
    | none => entry.lookup "lines" = none ∨ entry.lookup "lines" = some .null
    | some (first, last) =>
      entry.lookup "lines" = some (.list [writtenBound first, writtenBound last]) ∧ first.line ≤ last.line
  justification : ∃ text, (entry.lookup "justification").getD (.text "") = .text text ∧
    s.justification = Text.trim text

/-- The rule of an entry is a text. -/
theorem declaredRule_eq_ok_iff {index : Nat} {entry : Table} {rule : String} :
    declaredRule index entry = .ok rule ↔ entry.lookup "rule" = some (.text rule) := by
  rw [declaredRule]
  split <;> simp_all

/-- The paths of an entry are a text or a list of texts. -/
theorem declaredPaths_eq_ok_iff {index : Nat} {entry : Table} {paths : List String} :
    declaredPaths index entry = .ok paths ↔ entry.lookup "paths" = none ∧ paths = ["**"] ∨
      (∃ path, entry.lookup "paths" = some (.text path) ∧ paths = [path]) ∨
        entry.lookup "paths" = some (.list (paths.map .text)) := by
  rw [declaredPaths]
  split
  · rename_i hfound
    rw [hfound, Except.ok.injEq, eq_comm]
    simp
  · rename_i path hfound
    rw [hfound, Except.ok.injEq, eq_comm]
    simp
  · rename_i value htext hfound
    have htext : ∀ path, value ≠ .text path := htext
    rw [hfound, textList_eq_ok_iff]
    simp [htext]

/-- The lines of an entry are two bounds in order. -/
theorem declaredLines_eq_ok_iff {index : Nat} {entry : Table} {lines : Option (LineBound × LineBound)} :
    declaredLines index entry = .ok lines ↔ match lines with
      | none => entry.lookup "lines" = none ∨ entry.lookup "lines" = some .null
      | some (first, last) =>
        entry.lookup "lines" = some (.list [writtenBound first, writtenBound last]) ∧
          first.line ≤ last.line := by
  rw [declaredLines]
  split
  · rename_i hfound
    cases lines <;> simp [hfound]
  · rename_i hfound
    cases lines <;> simp [hfound]
  · rename_i value hnull hfound
    have hnull : value ≠ .null := hnull
    cases lines with
    | none => split <;> simp [hfound, hnull]
    | some range =>
      simp only [hfound, Option.some.injEq]
      rw [← lineRange?_eq_some_iff]
      split <;> simp [*]

/-- The reason of an entry is a text without the blanks around it. -/
theorem declaredJustification_eq_ok_iff {index : Nat} {entry : Table} {justification : String} :
    declaredJustification index entry = .ok justification ↔
      ∃ text, (entry.lookup "justification").getD (.text "") = .text text ∧ justification = Text.trim text := by
  have hempty : Text.trim "" = "" := rfl
  rw [declaredJustification]
  split
  · rename_i hfound
    rw [hfound, Except.ok.injEq, eq_comm]
    simp [hempty]
  · rename_i text hfound
    rw [hfound, Except.ok.injEq, eq_comm]
    simp
  · rename_i value htext hfound
    simpa [hfound] using fun text h => (htext text h).elim

/-- A suppression that a value declares, which is a table. -/
def IsDeclaredBy (value : Document) (s : SuppressionEntry) : Prop :=
  ∃ entry, value.entries? = some entry ∧ Declares entry s

/-- The suppression that is read from a value is the one that it declares. -/
theorem suppressionEntry_eq_ok_iff {index : Nat} {value : Document} {s : SuppressionEntry} :
    suppressionEntry index value = .ok s ↔ IsDeclaredBy value s := by
  rw [suppressionEntry]
  constructor
  · intro h
    split at h
    · rename_i entry hentry
      obtain ⟨rule, hrule, h⟩ := Except.bind_eq_ok.mp h
      obtain ⟨paths, hpaths, h⟩ := Except.bind_eq_ok.mp h
      obtain ⟨lines, hlines, h⟩ := Except.bind_eq_ok.mp h
      obtain ⟨justification, hjustification, h⟩ := Except.bind_eq_ok.mp h
      cases h
      exact ⟨entry, hentry, declaredRule_eq_ok_iff.mp hrule, declaredPaths_eq_ok_iff.mp hpaths,
        declaredLines_eq_ok_iff.mp hlines, declaredJustification_eq_ok_iff.mp hjustification⟩
    · cases h
  · rintro ⟨entry, hentry, hdeclares⟩
    simp only [hentry]
    exact Except.bind_eq_ok.mpr ⟨_, declaredRule_eq_ok_iff.mpr hdeclares.rule, Except.bind_eq_ok.mpr
      ⟨_, declaredPaths_eq_ok_iff.mpr hdeclares.paths, Except.bind_eq_ok.mpr
        ⟨_, declaredLines_eq_ok_iff.mpr hdeclares.lines, Except.bind_eq_ok.mpr
          ⟨_, declaredJustification_eq_ok_iff.mpr hdeclares.justification, rfl⟩⟩⟩⟩

/-- Suppressions are read one by one. -/
theorem suppressionEntries_eq_ok_iff {index : Nat} {values : List Document} {suppressions : List SuppressionEntry} :
    suppressionEntries index values = .ok suppressions ↔ List.Forall₂ IsDeclaredBy values suppressions := by
  induction values generalizing index suppressions with
  | nil => rw [suppressionEntries, Except.ok.injEq, List.forall₂_nil_left_iff, eq_comm]
  | cons value rest ih =>
    rw [suppressionEntries, Except.bind_eq_ok, List.forall₂_cons_left_iff]
    simp only [Except.bind_eq_ok, suppressionEntry_eq_ok_iff, ih]
    constructor
    · rintro ⟨first, hfirst, more, hmore, h⟩
      exact ⟨first, more, hfirst, hmore, (Except.ok.inj h).symm⟩
    · rintro ⟨first, more, hfirst, hmore, rfl⟩
      exact ⟨first, hfirst, more, hmore, rfl⟩

/-- Values without entries are no collection of suppressions, and all others are one. -/
theorem entriesOf?_eq_none_iff {value : Document} : entriesOf? value = none ↔ value.IsSingle := by
  cases value <;> simp [entriesOf?, Document.IsSingle]

/-!
## Whole documents
-/

/-- The sections of a document, apart from its suppressions. -/
def sectionNames : List String := ["rules", "categories", "output", "analysis", "options"]

/-- A configuration that says what a document says, in every section. -/
structure Reads (data : Table) (config : Config) : Prop where
  tables : ∀ name ∈ sectionNames, IsSection data name
  known : ∀ entry ∈ entriesUnder data "rules", (verdictOf? entry.2).isSome
  disabled : ∀ rule, rule ∈ config.disabledRules ↔
    ∃ value, (rule, value) ∈ entriesUnder data "rules" ∧ verdictOf? value = some none
  severities : ∀ rule severity, (rule, severity) ∈ config.severities ↔
    ∃ value, (rule, value) ∈ entriesUnder data "rules" ∧ verdictOf? value = some (some severity)
  categories : valueAt? data "categories" "enabled" =
    config.enabledCategories.map fun cs => .list (cs.map (.text ·.name))
  format : (valueAt? data "output" "format").getD (.text "text") = .text config.format.name
  warnings : (valueAt? data "output" "treat_warnings_as_errors").getD (.bool false) = .bool config.warningsAsErrors
  suggestions : (valueAt? data "output" "show_suggestions").getD (.bool false) = .bool config.showSuggestions
  jobs : (valueAt? data "analysis" "jobs").getD (.int 0) = .int config.jobs
  exclude : (valueAt? data "analysis" "exclude").getD (.list []) = .list (config.exclude.map .text)
  options : (entriesUnder data "options").map (fun entry => (entry.1, entry.2.entries?)) =
    config.options.map fun option => (option.1, some option.2)

/-- The sections are read as what they say. -/
theorem reads_of_ofSections {data : Table} {config : Config} (h : ofSections data = .ok config) :
    Reads data config := by
  obtain ⟨hrules, h⟩ := sectionOf_bind_eq_ok.mp h
  obtain ⟨ruled, hruled, h⟩ := Except.bind_eq_ok.mp h
  obtain ⟨hcategories, h⟩ := sectionOf_bind_eq_ok.mp h
  obtain ⟨sorted, hsorted, h⟩ := Except.bind_eq_ok.mp h
  obtain ⟨houtput, h⟩ := sectionOf_bind_eq_ok.mp h
  obtain ⟨shown, hshown, h⟩ := Except.bind_eq_ok.mp h
  obtain ⟨hanalysis, h⟩ := sectionOf_bind_eq_ok.mp h
  obtain ⟨analyzed, hanalyzed, h⟩ := Except.bind_eq_ok.mp h
  obtain ⟨hoptions, h⟩ := sectionOf_bind_eq_ok.mp h
  obtain ⟨hknown, hruled⟩ := applyRules_eq_ok hruled
  obtain ⟨cs, hcs, hsorted⟩ := applyCategories_eq_ok (by rw [hruled]; rfl) hsorted
  obtain ⟨format, warnings, suggestions, hformat, hwarnings, hsuggestions, hshown⟩ := applyOutput_eq_ok hshown
  obtain ⟨jobs, exclude, hjobs, hexclude, hanalyzed⟩ := applyAnalysis_eq_ok hanalyzed
  obtain ⟨ruleOptions, hruleOptions, hconfig⟩ := applyOptions_eq_ok h
  -- Each section leaves what the ones before it have set.
  have hdisabled : config.disabledRules = offRules (entriesUnder data "rules") := by
    rw [hconfig, hanalyzed, hshown, hsorted, hruled]
    rfl
  have hseverities : config.severities = givenSeverities (entriesUnder data "rules") := by
    rw [hconfig, hanalyzed, hshown, hsorted, hruled]
    rfl
  rw [hsorted, hruled] at hformat hwarnings hsuggestions
  rw [hshown, hsorted, hruled] at hjobs hexclude
  constructor
  case tables => simp [sectionNames, hrules, hcategories, houtput, hanalysis, hoptions]
  case known => exact hknown
  case disabled =>
    intro rule
    simp [hdisabled, offRules]
  case severities =>
    intro rule severity
    simp [hseverities, givenSeverities, Option.join_eq_some_iff]
  case categories => rw [hconfig, hanalyzed, hshown, hsorted, valueAt?, hcs]
  case format => rw [hconfig, hanalyzed, hshown]; exact hformat
  case warnings => rw [hconfig, hanalyzed, hshown]; exact hwarnings
  case suggestions => rw [hconfig, hanalyzed, hshown]; exact hsuggestions
  case jobs => rw [hconfig, hanalyzed]; exact hjobs
  case exclude => rw [hconfig, hanalyzed]; exact hexclude
  case options =>
    rw [hconfig, hanalyzed, hshown, hsorted, hruled, hruleOptions]
    rfl

/-- The sections are read when there is something that they say. -/
theorem exists_ofSections {data : Table} {config : Config} (h : Reads data config) :
    ∃ read, ofSections data = .ok read := by
  have hsection {name : String} (hname : name ∈ sectionNames) {check : Table → Check Config}
      (hcheck : ∃ read, check (entriesUnder data name) = .ok read) :
      ∃ read, sectionOf data name >>= check = .ok read := by
    obtain ⟨read, hread⟩ := hcheck
    exact ⟨read, sectionOf_bind_eq_ok.mpr ⟨h.tables name hname, hread⟩⟩
  -- Only the entries decide whether a section is read, not the configuration that the ones before it have left.
  refine hsection (by decide) (exists_bind (exists_applyRules _ h.known) fun ruled => ?_)
  refine hsection (by decide) (exists_bind (exists_applyCategories _ h.categories) fun sorted => ?_)
  refine hsection (by decide)
    (exists_bind (exists_applyOutput _ h.format h.warnings h.suggestions) fun shown => ?_)
  refine hsection (by decide)
    (exists_bind (exists_applyAnalysis _ h.jobs h.exclude) fun analyzed => ?_)
  exact hsection (by decide) (exists_applyOptions _ h.options)

/-- A rule of the section of rules has one verdict: it is disabled exactly when it is not given a severity. -/
theorem Reads.disabled_iff_not_severity {data : Table} {config : Config} (h : Reads data config)
    (hkeys : ((entriesUnder data "rules").map (·.1)).Nodup) {rule : String}
    (hrule : rule ∈ (entriesUnder data "rules").map (·.1)) :
    rule ∈ config.disabledRules ↔ rule ∉ config.severities.map (·.1) := by
  obtain ⟨⟨rule, value⟩, hentry, rfl⟩ := List.mem_map.mp hrule
  have hunique {other : Document} (hother : (rule, other) ∈ entriesUnder data "rules") : other = value :=
    congrArg Prod.snd (List.inj_on_of_nodup_map hkeys hother hentry rfl)
  obtain ⟨verdict, hverdict⟩ := Option.isSome_iff_exists.mp (h.known _ hentry)
  change verdictOf? value = some verdict at hverdict
  have hgiven : rule ∈ config.severities.map (·.1) ↔ ∃ severity, verdict = some severity := by
    rw [List.mem_map]
    constructor
    · rintro ⟨⟨_, severity⟩, hmem, rfl⟩
      obtain ⟨other, hother, hgiven⟩ := (h.severities _ severity).mp hmem
      rw [hunique hother, hverdict] at hgiven
      exact ⟨severity, Option.some.inj hgiven⟩
    · rintro ⟨severity, rfl⟩
      exact ⟨(rule, severity), (h.severities rule severity).mpr ⟨value, hentry, hverdict⟩, rfl⟩
  have hoff : rule ∈ config.disabledRules ↔ verdict = none := by
    rw [h.disabled]
    constructor
    · rintro ⟨other, hother, hoff⟩
      rw [hunique hother, hverdict] at hoff
      exact Option.some.inj hoff
    · rintro rfl
      exact ⟨value, hentry, hverdict⟩
  rw [hgiven, hoff]
  cases verdict <;> simp

/-- A configuration that says what a document says, in every section and in its suppressions. -/
structure Says (data : Table) (config : Config) : Prop extends Reads data config where
  suppressions : ∃ values, entriesOf? ((data.lookup "suppressions").getD (.list [])) = some values ∧
    List.Forall₂ IsDeclaredBy values config.suppressions

/-- Line ranges are in order. -/
theorem Says.lines_le {data : Table} {config : Config} (h : Says data config) :
    ∀ s ∈ config.suppressions, ∀ first last, s.lines = some (first, last) → first.line ≤ last.line := by
  obtain ⟨values, -, hdeclared⟩ := h.suppressions
  generalize config.suppressions = suppressions at hdeclared
  induction hdeclared with
  | nil => simp
  | cons hfirst _ ih =>
    obtain ⟨entry, -, hdeclares⟩ := hfirst
    refine List.forall_mem_cons.mpr ⟨fun first last hlines => ?_, ih⟩
    have hrange := hdeclares.lines
    rw [hlines] at hrange
    exact hrange.2

/-- After the sections the suppressions decide. -/
theorem ofDocument_of_ofSections {source : String} {d : Document} {data : Table} {config : Config}
    (hd : d.entries? = some data) (hsections : ofSections data = .ok config) :
    ofDocument source d =
      match entriesOf? ((data.lookup "suppressions").getD (.list [])) with
      | none => .error .notCollection
      | some values =>
        match suppressionEntries 0 values with
        | .ok suppressions => .ok { config with suppressions }
        | .error cause => .error (.malformed source cause) := by
  simp only [ofDocument, hd, hsections]
  cases entriesOf? ((data.lookup "suppressions").getD (.list [])) with
  | none => rfl
  | some values =>
    dsimp only
    cases suppressionEntries 0 values <;> rfl

/-- A table is malformed, or its suppressions are no collection after sections that are read, or it is read. -/
theorem ofDocument_cases (source : String) {d : Document} {data : Table} (hd : d.entries? = some data) :
    (∃ cause, ofDocument source d = .error (.malformed source cause) ∧ ¬∃ config, Says data config) ∨
      (ofDocument source d = .error .notCollection ∧ (∃ config, Reads data config) ∧
        entriesOf? ((data.lookup "suppressions").getD (.list [])) = none) ∨
      ∃ config, ofDocument source d = .ok config ∧ Says data config := by
  cases hsections : ofSections data with
  | error cause =>
    refine Or.inl ⟨cause, by simp only [ofDocument, hd, hsections]; rfl, ?_⟩
    rintro ⟨config, hsaid⟩
    obtain ⟨read, hread⟩ := exists_ofSections hsaid.toReads
    cases hsections.symm.trans hread
  | ok config =>
    have hreads := reads_of_ofSections hsections
    rw [ofDocument_of_ofSections hd hsections]
    cases hvalues : entriesOf? ((data.lookup "suppressions").getD (.list [])) with
    | none => exact Or.inr (Or.inl ⟨rfl, ⟨config, hreads⟩, rfl⟩)
    | some values =>
      dsimp only
      cases hsuppressions : suppressionEntries 0 values with
      | error cause =>
        refine Or.inl ⟨cause, rfl, ?_⟩
        rintro ⟨config', hsaid⟩
        obtain ⟨values', hvalues', hdeclared⟩ := hsaid.suppressions
        cases hvalues.symm.trans hvalues'
        cases hsuppressions.symm.trans (suppressionEntries_eq_ok_iff.mpr hdeclared)
      | ok suppressions =>
        refine Or.inr
          (Or.inr ⟨_, rfl, ⟨?_, values, hvalues, suppressionEntries_eq_ok_iff.mp hsuppressions⟩⟩)
        -- Suppressions are no part of the sections.
        exact ⟨hreads.tables, hreads.known, hreads.disabled, hreads.severities, hreads.categories, hreads.format,
          hreads.warnings, hreads.suggestions, hreads.jobs, hreads.exclude, hreads.options⟩

/-- Suppressions are no collection when they are a single value. -/
theorem entriesOf?_suppressions_eq_none_iff {data : Table} :
    entriesOf? ((data.lookup "suppressions").getD (.list [])) = none ↔
      ∃ value, data.lookup "suppressions" = some value ∧ value.IsSingle := by
  rw [entriesOf?_eq_none_iff]
  cases data.lookup "suppressions" <;> simp [Document.IsSingle]

/-- What is read from a table says what the table says. -/
theorem says_of_ofDocument {source : String} {d : Document} {data : Table} {config : Config}
    (hd : d.entries? = some data) (h : ofDocument source d = .ok config) : Says data config := by
  rcases ofDocument_cases source hd with ⟨cause, hfault, -⟩ | ⟨hfault, -, -⟩ | ⟨read, hread, hsaid⟩
  · cases h.symm.trans hfault
  · cases h.symm.trans hfault
  · cases h.symm.trans hread
    exact hsaid

/-- A table is read when there is something that it says. -/
theorem exists_ofDocument {source : String} {d : Document} {data : Table} {config : Config}
    (hd : d.entries? = some data) (h : Says data config) : ∃ read, ofDocument source d = .ok read := by
  rcases ofDocument_cases source hd with ⟨cause, -, hnone⟩ | ⟨-, -, hnone⟩ | ⟨read, hread, -⟩
  · exact absurd ⟨config, h⟩ hnone
  · obtain ⟨values, hvalues, -⟩ := h.suppressions
    cases hnone.symm.trans hvalues
  · exact ⟨read, hread⟩

/-- The suppressions of a table are no collection when only the sections say something. -/
theorem ofDocument_eq_notCollection_iff {source : String} {d : Document} {data : Table}
    (hd : d.entries? = some data) :
    ofDocument source d = .error .notCollection ↔ (∃ config, Reads data config) ∧
      entriesOf? ((data.lookup "suppressions").getD (.list [])) = none := by
  constructor
  · intro h
    rcases ofDocument_cases source hd with ⟨cause, hfault, -⟩ | ⟨-, hreads, hnone⟩ | ⟨read, hread, -⟩
    · cases h.symm.trans hfault
    · exact ⟨hreads, hnone⟩
    · cases h.symm.trans hread
  · rintro ⟨⟨config, hreads⟩, hnone⟩
    -- The sections may be read as another configuration, with the same rules in another order.
    obtain ⟨read, hread⟩ := exists_ofSections hreads
    rw [ofDocument_of_ofSections hd hread, hnone]

/-- A configuration is read from a table exactly when there is one that says what the table says. Any other table is
malformed, except for one whose suppressions are a single value after sections that are read: these are no
collection. What is read says what the table says; when rules have distinct names, each rule of the section of rules
is either disabled or has a severity, and line ranges are in order. -/
theorem ofDocument_outcomes (source : String) {d : Document} {data : Table} (hd : d.entries? = some data)
    (hkeys : ((entriesUnder data "rules").map (·.1)).Nodup) :
    ((∃ config, ofDocument source d = .ok config) ↔ ∃ config, Says data config) ∧
    (ofDocument source d = .error .notCollection ↔ (∃ config, Reads data config) ∧
      ∃ value, data.lookup "suppressions" = some value ∧ value.IsSingle) ∧
    (∀ fault, ofDocument source d = .error fault →
      fault = .notCollection ∨ ∃ cause, fault = .malformed source cause) ∧
    ∀ config, ofDocument source d = .ok config → Says data config ∧
      (∀ rule ∈ (entriesUnder data "rules").map (·.1),
        (rule ∈ config.disabledRules ↔ rule ∉ config.severities.map (·.1))) ∧
      ∀ s ∈ config.suppressions, ∀ first last, s.lines = some (first, last) → first.line ≤ last.line := by
  refine ⟨⟨?_, ?_⟩, ?_, fun fault hfault => ?_, fun config hconfig => ?_⟩
  · rintro ⟨config, hconfig⟩
    exact ⟨config, says_of_ofDocument hd hconfig⟩
  · rintro ⟨config, hsaid⟩
    exact exists_ofDocument hd hsaid
  · rw [ofDocument_eq_notCollection_iff hd, entriesOf?_suppressions_eq_none_iff]
  · rcases ofDocument_cases source hd with ⟨cause, h, -⟩ | ⟨h, -, -⟩ | ⟨config, h, -⟩
    · exact Or.inr ⟨cause, Except.error.inj (hfault.symm.trans h)⟩
    · exact Or.inl (Except.error.inj (hfault.symm.trans h))
    · cases hfault.symm.trans h
  · have hsaid := says_of_ofDocument hd hconfig
    exact ⟨hsaid, fun rule hrule => hsaid.toReads.disabled_iff_not_severity hkeys hrule, hsaid.lines_le⟩

/-- A configuration with a rule that is off, one with a severity, and a range of lines. -/
theorem ofDocument_outcomes_sections :
    let data : Table := [("rules", .table [("naming", .text "Off"), ("errors", .text "error")]),
      ("analysis", .table [("jobs", .int 2)]),
      ("suppressions", .list [.table [("rule", .text "errors"), ("lines", .list [.int 1, .int 3])]])]
    ((entriesUnder data "rules").map (·.1)).Nodup ∧
    ∃ config, ofDocument "<config>" (.table data) = .ok config ∧
      config.jobs = 2 ∧ "naming" ∉ config.severities.map (·.1) ∧
        ∀ s ∈ config.suppressions, ∀ first last, s.lines = some (first, last) →
          first.line ≤ last.line := by
  intro data
  have hkeys : ((entriesUnder data "rules").map (·.1)).Nodup := by decide
  obtain ⟨-, -, -, hread⟩ := ofDocument_outcomes "<config>" (d := .table data) rfl hkeys
  obtain ⟨-, honce, hlines⟩ := hread _ rfl
  exact ⟨hkeys, _, rfl, by decide, (honce "naming" (by decide)).mp (by decide), hlines⟩

/-- Suppressions that are a number are not malformed but no collection. -/
theorem number_not_malformed :
    ¬((∃ config, ofDocument "<config>" (.table [("suppressions", .int 5)]) = .ok config) ∨
      ∃ cause, ofDocument "<config>" (.table [("suppressions", .int 5)]) =
        .error (.malformed "<config>" cause)) := by
  have h : ofDocument "<config>" (.table [("suppressions", .int 5)]) = .error .notCollection := rfl
  simp [h]

end Config

end GoIdiom
