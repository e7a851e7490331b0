import GoIdiom.Proofs.Accounting
import GoIdiom.Proofs.Directive
import Mathlib.Data.List.Sort

/-!
# The files that paths stand for

A directory stands for the source files below it, as far as no directory on the way is left out. The files that a
run finds are those that its paths stand for, without the excluded ones; the order of the paths and how often one is
given do not matter. In a tree with proper names, the path of a file that is found leads to that file again.
-/

namespace GoIdiom

namespace Text

/-- A text that ends with another has something in front of it. -/
theorem endsWith_iff {s tail : String} : endsWith s tail = true ↔ ∃ stem, s = stem ++ tail := by
  rw [endsWith, List.isSuffixOf_iff_suffix]
  constructor
  · rintro ⟨cs, h⟩
    refine ⟨String.ofList cs, String.toList_inj.mp ?_⟩
    rw [String.toList_append, String.toList_ofList, h]
  · rintro ⟨stem, rfl⟩
    exact ⟨stem.toList, String.toList_append.symm⟩

/-- A text that begins with another has something behind it. -/
theorem startsWith_iff {s head : String} : startsWith s head = true ↔ ∃ rest, s = head ++ rest := by
  rw [startsWith, List.isPrefixOf_iff_prefix]
  constructor
  · rintro ⟨cs, h⟩
    refine ⟨String.ofList cs, String.toList_inj.mp ?_⟩
    rw [String.toList_append, String.toList_ofList, h]
  · rintro ⟨rest, rfl⟩
    exact ⟨rest.toList, String.toList_append.symm⟩

end Text

/-! ## Paths and their names -/

namespace PathText

/-- The name of an entry of a directory: a text without slashes that does not stand for a directory already. -/
structure IsName (name : String) : Prop where
  given : name ≠ ""
  here : name ≠ "."
  above : name ≠ ".."
  slash : '/' ∉ name.toList

instance : DecidablePred IsName := fun name =>
  decidable_of_iff (name ≠ "" ∧ name ≠ "." ∧ name ≠ ".." ∧ '/' ∉ name.toList)
    ⟨fun ⟨given, here, above, slash⟩ => ⟨given, here, above, slash⟩,
      fun ⟨given, here, above, slash⟩ => ⟨given, here, above, slash⟩⟩

/-- A text that is one name is the only one of its path. -/
theorem names_eq_singleton {name : String} (hgiven : name ≠ "") (hhere : name ≠ ".")
    (hslash : '/' ∉ name.toList) : names name = [name] := by
  rw [names, Text.splitOn, Text.splitChars_of_not_mem hslash, List.map_singleton, String.ofList_toList]
  simp [hgiven, hhere]

/-- The names of a path are neither empty nor a dot, and hold no slash. -/
theorem of_mem_names {path name : String} (h : name ∈ names path) :
    name ≠ "" ∧ name ≠ "." ∧ '/' ∉ name.toList := by
  obtain ⟨hpiece, hkept⟩ := List.mem_filter.mp h
  obtain ⟨cs, hcs, rfl⟩ := List.mem_map.mp hpiece
  rw [Bool.and_eq_true, bne_iff_ne, bne_iff_ne] at hkept
  refine ⟨hkept.1, hkept.2, ?_⟩
  rw [String.toList_ofList]
  exact Text.not_mem_of_mem_splitChars cs hcs

/-- The names on both sides of a slash are those of the path. -/
theorem names_append (front back : String) : names (front ++ "/" ++ back) = names front ++ names back := by
  have hslash : "/".toList = ['/'] := rfl
  rw [names, Text.splitOn, String.toList_append, String.toList_append, hslash, List.append_assoc,
    List.singleton_append, Text.splitChars_append_separator, List.map_append, List.filter_append]
  rfl

/-- The names of a path, put together with slashes, are the names of that. -/
theorem names_joinWith_names (path : String) : names (Text.joinWith "/" (names path)) = names path := by
  have hjoin {parts : List String} (h : ∀ part ∈ parts, names part = [part]) :
      names (Text.joinWith "/" parts) = parts := by
    induction parts with
    | nil => rfl
    | cons part rest ih =>
      obtain ⟨hpart, hrest⟩ := List.forall_mem_cons.mp h
      by_cases hnil : rest = []
      · rw [hnil, Text.joinWith, String.intercalate_singleton, hpart]
      · rw [Text.joinWith, String.intercalate_cons_of_ne_nil hnil, names_append, hpart,
          ← Text.joinWith, ih hrest, List.singleton_append]
  apply hjoin
  intro name hname
  obtain ⟨hgiven, hhere, hslash⟩ := of_mem_names hname
  exact names_eq_singleton hgiven hhere hslash

/-- Slashes at the beginning of a path add no names. -/
theorem names_root_append (path rest : String) : names (root path ++ rest) = names rest := by
  have hslash (rest : String) : names ("/" ++ rest) = names rest := names_append "" rest
  unfold root
  split
  · exact hslash rest
  · exact (hslash ("/" ++ rest)).trans (hslash rest)
  · exact hslash rest
  · rw [String.empty_append]

/-- What does not tell a dot from nothing tells of the plain form what it tells of the root with the names. -/
theorem apply_plain {α : Type} {f : String → α} (h : f "." = f "") (path : String) :
    f (plain path) = f (root path ++ Text.joinWith "/" (names path)) := by
  rw [plain]
  split
  · rename_i hempty
    rw [h, beq_iff_eq.mp hempty]
  · rfl

/-- The plain form of a path has its names. -/
theorem names_plain (path : String) : names (plain path) = names path := by
  rw [apply_plain (f := names) rfl, names_root_append, names_joinWith_names]

/-- A plain form is never empty. -/
theorem plain_ne_empty (path : String) : plain path ≠ "" := by
  rw [plain]
  split
  · decide
  · rename_i hgiven
    exact fun hempty => hgiven (beq_iff_eq.mpr hempty)

/-- A path is absolute when it begins with a slash. -/
theorem isAbsolute_iff {path : String} : isAbsolute path = true ↔ path.toList.head? = some '/' := by
  rw [isAbsolute, bne_iff_ne]
  unfold root
  split <;> rename_i h
  · simp [h]
  · simp [h]
  · simp [h]
  · cases hcs : path.toList with
    | nil => simp
    | cons c rest =>
      simp only [List.head?_cons, ne_eq, not_true_eq_false, Option.some.injEq, false_iff]
      rintro rfl
      exact h rest hcs

/-- What is put behind a path does not make it absolute. -/
theorem isAbsolute_append {front : String} (h : front ≠ "") (back : String) :
    isAbsolute (front ++ back) = isAbsolute front := by
  rw [Bool.eq_iff_iff, isAbsolute_iff, isAbsolute_iff, String.toList_append]
  cases hfront : front.toList with
  | nil => exact absurd (String.toList_eq_nil_iff.mp hfront) h
  | cons c rest => rfl

/-- The names of a path, put together with slashes, are no absolute path. -/
theorem not_isAbsolute_joinWith_names (path : String) : isAbsolute (Text.joinWith "/" (names path)) = false := by
  cases hnames : names path with
  | nil => rfl
  | cons name rest =>
    obtain ⟨hgiven, -, hslash⟩ := of_mem_names (hnames ▸ List.mem_cons_self : name ∈ names path)
    have hname : isAbsolute name = false := by
      rw [← Bool.not_eq_true, isAbsolute_iff]
      exact fun hhead => hslash (List.mem_of_mem_head? hhead)
    by_cases hnil : rest = []
    · rw [hnil, Text.joinWith, String.intercalate_singleton, hname]
    · rw [Text.joinWith, String.intercalate_cons_of_ne_nil hnil, String.append_assoc,
        isAbsolute_append hgiven, hname]

/-- The slashes that begin a path make it absolute. -/
theorem isAbsolute_root (path : String) : isAbsolute (root path) = isAbsolute path := by
  have hroot : root path = "" ∨ root path = "/" ∨ root path = "//" := by
    unfold root
    split <;> simp
  rw [isAbsolute, isAbsolute]
  rcases hroot with h | h | h <;> rw [h] <;> rfl

/-- The plain form of a path is absolute when the path is. -/
theorem isAbsolute_plain (path : String) : isAbsolute (plain path) = isAbsolute path := by
  rw [apply_plain (f := isAbsolute) rfl]
  by_cases hroot : root path = ""
  · rw [hroot, String.empty_append, not_isAbsolute_joinWith_names, isAbsolute, hroot]
    rfl
  · rw [isAbsolute_append hroot, isAbsolute_root]

end PathText

/-! ## Places in a tree -/

namespace FileTree

/-- The names that lead from a tree to another one inside it, entry by entry. -/
inductive Leads : FileTree → List String → FileTree → Prop
  | here {t : FileTree} : Leads t [] t
  | enter {entries : List (String × FileTree)} {name : String} {inner t : FileTree} {names : List String}
      (hentry : (name, inner) ∈ entries) (hinner : Leads inner names t) :
      Leads (directory entries) (name :: names) t

/-- Without names one stays. -/
theorem leads_nil_iff {t t' : FileTree} : Leads t [] t' ↔ t = t' := by
  constructor
  · rintro ⟨⟩
    rfl
  · rintro rfl
    exact .here

/-- The first name is that of an entry. -/
theorem leads_cons_iff {entries : List (String × FileTree)} {name : String} {names : List String} {t : FileTree} :
    Leads (directory entries) (name :: names) t ↔
      ∃ inner, (name, inner) ∈ entries ∧ Leads inner names t := by
  constructor
  · rintro (_ | ⟨hentry, hinner⟩)
    exact ⟨_, hentry, hinner⟩
  · rintro ⟨inner, hentry, hinner⟩
    exact .enter hentry hinner

/-- A tree in which the entries of each directory have names, and different ones. -/
inductive IsProper : FileTree → Prop
  | file {bytes : List UInt8} : IsProper (file bytes)
  | directory {entries : List (String × FileTree)} (hdistinct : (entries.map (·.1)).Nodup)
      (hnames : ∀ entry ∈ entries, PathText.IsName entry.1) (hinner : ∀ entry ∈ entries, IsProper entry.2) :
      IsProper (directory entries)

/-- Names lead on from where other names lead to. -/
theorem get?_append (t : FileTree) (front back : List String) :
    t.get? (front ++ back) = (t.get? front).bind (·.get? back) := by
  induction front generalizing t with
  | nil => rfl
  | cons name rest ih =>
    cases t with
    | file => rfl
    | directory entries =>
      rw [List.cons_append, get?, get?]
      cases entries.lookup name with
      | none => rfl
      | some inner => exact ih inner

/-- An entry with a name of its own is what the name is looked up as. -/
theorem lookup_of_mem {entries : List (String × FileTree)} {name : String} {inner : FileTree}
    (hdistinct : (entries.map (·.1)).Nodup) (hentry : (name, inner) ∈ entries) :
    entries.lookup name = some inner := by
  obtain ⟨front, back, rfl⟩ := List.append_of_mem hentry
  rw [List.lookup_eq_some_iff]
  refine ⟨front, back, rfl, fun entry hfront => bne_iff_ne.mpr fun heq => ?_⟩
  rw [List.map_append, List.map_cons, List.nodup_append] at hdistinct
  exact hdistinct.2.2 entry.1 (List.mem_map_of_mem hfront) name List.mem_cons_self heq.symm

/-- In a proper tree names lead to what is found under them. -/
theorem leads_iff_get? {t t' : FileTree} {names : List String} (ht : IsProper t) :
    Leads t names t' ↔ t.get? names = some t' := by
  constructor
  · intro h
    induction h with
    | here => rfl
    | enter hentry _ ih =>
      cases ht with
      | directory hdistinct _ hinner =>
        rw [get?, lookup_of_mem hdistinct hentry]
        exact ih (hinner _ hentry)
  · intro h
    induction names generalizing t with
    | nil =>
      cases h
      exact .here
    | cons name rest ih =>
      cases ht with
      | file => cases h
      | @directory entries hdistinct hnames hinner =>
        rw [get?] at h
        cases hlookup : entries.lookup name with
        | none =>
          rw [hlookup] at h
          cases h
        | some inner =>
          rw [hlookup] at h
          obtain ⟨front, back, hentries, -⟩ := List.lookup_eq_some_iff.mp hlookup
          have hentry : (name, inner) ∈ entries := hentries ▸ List.mem_append_right _ List.mem_cons_self
          exact .enter hentry (ih (hinner _ hentry) h)

/-- The parts of a proper tree are proper. -/
theorem IsProper.of_leads {t t' : FileTree} {names : List String} (ht : IsProper t) (h : Leads t names t') :
    IsProper t' := by
  induction h with
  | here => exact ht
  | enter hentry _ ih =>
    cases ht with
    | directory _ _ hinner => exact ih (hinner _ hentry)

/-- Names inside a proper tree are names of entries. -/
theorem IsProper.isName_of_leads {t t' : FileTree} {names : List String} (ht : IsProper t) (h : Leads t names t') :
    ∀ name ∈ names, PathText.IsName name := by
  induction h with
  | here => simp
  | enter hentry _ ih =>
    cases ht with
    | directory _ hnames hinner => exact List.forall_mem_cons.mpr ⟨hnames _ hentry, ih (hinner _ hentry)⟩

end FileTree

namespace Workspace

/-- The names of entries lead from a place to the places inside it. -/
theorem foldlM_step {w : Workspace} (ht : w.tree.IsProper) {place : List String} {t t' : FileTree}
    {names : List String} (hplace : w.tree.get? place = some t) (h : t.Leads names t') :
    names.foldlM w.step place = some (place ++ names) := by
  induction h generalizing place with
  | here => rw [List.foldlM_nil, List.append_nil]; rfl
  | @enter entries name inner t names hentry hinner ih =>
    have hproper : (FileTree.directory entries).IsProper :=
      ht.of_leads ((FileTree.leads_iff_get? ht).mpr hplace)
    have hstep : w.step place name = some (place ++ [name]) := by
      cases hproper with
      | directory _ hnames _ =>
        have hname := hnames _ hentry
        simp [step, hplace, FileTree.isDirectory, hname.given, hname.here, hname.above]
    have hinside : w.tree.get? (place ++ [name]) = some inner := by
      rw [FileTree.get?_append, hplace]
      exact (FileTree.leads_iff_get? hproper).mp (.enter hentry .here)
    rw [List.foldlM_cons, hstep]
    change names.foldlM w.step (place ++ [name]) = _
    rw [ih hinside, List.append_assoc, List.singleton_append]

/-- What a path leads to in a proper tree is proper. -/
theorem isProper_of_find? {w : Workspace} (ht : w.tree.IsProper) {path : String} {t : FileTree}
    (h : w.find? path = some t) : t.IsProper := by
  rw [find?, follow?] at h
  obtain ⟨place, -, hfound⟩ := Option.bind_eq_some_iff.mp h
  exact ht.of_leads ((FileTree.leads_iff_get? ht).mpr hfound)

/-- A path with names behind it leads to what the names lead to from where the path leads. -/
theorem find?_of_leads {w : Workspace} (ht : w.tree.IsProper) {path longer : String} {t t' : FileTree}
    {names : List String} (hpath : w.find? path = some t) (h : t.Leads names t')
    (habsolute : PathText.isAbsolute longer = PathText.isAbsolute path)
    (hnames : PathText.names longer = PathText.names path ++ names) : w.find? longer = some t' := by
  have hproper := isProper_of_find? ht hpath
  rw [find?, follow?] at hpath
  obtain ⟨place, hplace, hfound⟩ := Option.bind_eq_some_iff.mp hpath
  have hinside : w.tree.get? (place ++ names) = some t' := by
    rw [FileTree.get?_append, hfound]
    exact (FileTree.leads_iff_get? hproper).mp h
  rw [find?, follow?, habsolute, hnames, List.foldlM_append, hplace]
  change (names.foldlM w.step place).bind _ = _
  rw [foldlM_step ht hfound h]
  exact hinside

end Workspace

/-! ## What paths stand for -/

namespace Discovery

/-- Directories that are left out: those with the code of others, with test data, and hidden ones. -/
def IsSkipped (name : String) : Prop :=
  name = "vendor" ∨ name = "testdata" ∨ (∃ rest, name = "." ++ rest) ∨ ∃ rest, name = "_" ++ rest

/-- A directory is left out because of its name. -/
theorem skipsDirectory_iff {name : String} : skipsDirectory name = true ↔ IsSkipped name := by
  rw [skipsDirectory, Text.startsWithAny, Bool.or_eq_true, skippedNames, IsSkipped, ← Text.startsWith_iff,
    ← Text.startsWith_iff]
  simp [or_assoc]

/-- The path of something below a directory, name by name. -/
def pathBelow (directory : String) (names : List String) : String := names.foldl below directory

/-- A path of a source file below a directory, with no directory on the way that is left out. -/
inductive IsSource (directory : String) (t : FileTree) : String → Prop
  | intro {names : List String} {name : String} {bytes : List UInt8}
      (hfile : t.Leads (names ++ [name]) (.file bytes)) (hending : ∃ stem, name = stem ++ sourceEnding)
      (hway : ∀ inner ∈ names, ¬IsSkipped inner) :
      IsSource directory t (pathBelow directory (names ++ [name]))

/-- A source file in a directory is one of its entries, or stands in a directory among them that is not left out. -/
theorem isSource_directory_iff {directory path : String} {entries : List (String × FileTree)} :
    IsSource directory (.directory entries) path ↔ ∃ entry ∈ entries,
      (∃ bytes, entry.2 = .file bytes) ∧ (∃ stem, entry.1 = stem ++ sourceEnding) ∧
      path = below directory entry.1 ∨
        ¬IsSkipped entry.1 ∧ IsSource (below directory entry.1) entry.2 path := by
  constructor
  · rintro @⟨names, name, bytes, hfile, hending, hway⟩
    cases names with
    | nil =>
      obtain ⟨inner, hentry, hinner⟩ := FileTree.leads_cons_iff.mp hfile
      exact ⟨(name, inner), hentry, Or.inl ⟨⟨bytes, FileTree.leads_nil_iff.mp hinner⟩, hending, rfl⟩⟩
    | cons first more =>
      obtain ⟨inner, hentry, hinner⟩ := FileTree.leads_cons_iff.mp hfile
      obtain ⟨hfirst, hmore⟩ := List.forall_mem_cons.mp hway
      exact ⟨(first, inner), hentry, Or.inr ⟨hfirst, hinner, hending, hmore⟩⟩
  · rintro ⟨⟨first, inner⟩, hentry, ⟨⟨bytes, rfl⟩, hending, rfl⟩ |
      ⟨hfirst, @⟨names, name, bytes, hinner, hending, hmore⟩⟩⟩
    · exact @IsSource.intro directory _ [] first bytes (.enter hentry .here) hending (by simp)
    · exact @IsSource.intro directory _ (first :: names) name bytes (.enter hentry hinner) hending
        (List.forall_mem_cons.mpr ⟨hfirst, hmore⟩)

/-- There are no source files inside a file. -/
theorem not_isSource_file {directory path : String} {bytes : List UInt8} :
    ¬IsSource directory (.file bytes) path := by
  rintro @⟨names, name, _, hfile, -, -⟩
  cases names <;> cases hfile

/-- The walk through entries collects the source files among them. -/
theorem mem_sourcesAmong_iff {directory path : String} : (entries : List (String × FileTree)) →
    (path ∈ sourcesAmong directory entries ↔ IsSource directory (.directory entries) path)
  | [] => by
    rw [isSource_directory_iff]
    simp [sourcesAmong]
  | (name, .file bytes) :: rest => by
    have hhere : path ∈ (if Text.endsWith name sourceEnding then [below directory name] else []) ↔
        (∃ stem, name = stem ++ sourceEnding) ∧ path = below directory name := by
      rw [← Text.endsWith_iff]
      split <;> simp [*]
    rw [sourcesAmong, List.mem_append, mem_sourcesAmong_iff rest, isSource_directory_iff,
      isSource_directory_iff, hhere]
    simp [not_isSource_file]
  | (name, .directory entries) :: rest => by
    -- The walk goes on in the entries of the directory, under its path.
    have hinside : path ∈ (if skipsDirectory name then [] else sourcesAmong (below directory name) entries) ↔
        ¬IsSkipped name ∧ IsSource (below directory name) (.directory entries) path := by
      rw [← skipsDirectory_iff, ← mem_sourcesAmong_iff entries]
      split <;> simp [*]
    rw [sourcesAmong, sourcesIn, List.mem_append, mem_sourcesAmong_iff rest, isSource_directory_iff,
      isSource_directory_iff, hinside]
    simp

/-- The names of an entry stand behind those of its directory. -/
theorem names_below (directory name : String) :
    PathText.names (below directory name) = PathText.names directory ++ PathText.names name := by
  rw [below]
  split
  · rename_i hslash
    obtain ⟨stem, rfl⟩ := Text.endsWith_iff.mp hslash
    have hstem : PathText.names (stem ++ "/") = PathText.names stem ++ PathText.names "" := by
      rw [← PathText.names_append, String.append_empty]
    rw [PathText.names_append, hstem]
    exact congrArg (· ++ PathText.names name) (List.append_nil _).symm
  · exact PathText.names_append directory name

/-- The path of an entry is absolute when that of the directory is. -/
theorem isAbsolute_below {directory : String} (h : directory ≠ "") (name : String) :
    PathText.isAbsolute (below directory name) = PathText.isAbsolute directory := by
  rw [below]
  split
  · exact PathText.isAbsolute_append h name
  · rw [String.append_assoc, PathText.isAbsolute_append h]

/-- The path of something below a directory has its names behind those of the directory, and begins where that
begins. -/
theorem pathBelow_spec {directory : String} (h : directory ≠ "") {names : List String}
    (hnames : ∀ name ∈ names, PathText.IsName name) :
    PathText.names (pathBelow directory names) = PathText.names directory ++ names ∧
      PathText.isAbsolute (pathBelow directory names) = PathText.isAbsolute directory := by
  induction names generalizing directory with
  | nil => exact ⟨(List.append_nil _).symm, rfl⟩
  | cons name rest ih =>
    obtain ⟨hname, hrest⟩ := List.forall_mem_cons.mp hnames
    have hone := PathText.names_eq_singleton hname.given hname.here hname.slash
    -- An empty path would be read as one that is not absolute, so the next directory needs a path as well.
    have hbelow : below directory name ≠ "" := by
      intro hempty
      have hnone := names_below directory name
      rw [hempty, hone] at hnone
      exact List.append_ne_nil_of_right_ne_nil _ (List.cons_ne_nil name []) hnone.symm
    obtain ⟨hrestNames, habsolute⟩ := ih hbelow hrest
    change PathText.names (pathBelow (below directory name) rest) = _ ∧
      PathText.isAbsolute (pathBelow (below directory name) rest) = _
    rw [hrestNames, habsolute, names_below, isAbsolute_below h, hone, List.append_assoc, List.singleton_append]
    exact ⟨rfl, rfl⟩

/-- A path that no pattern matches, neither its plain form nor its last name. -/
def Spares (patterns : List String) (path : String) : Prop :=
  ∀ pattern ∈ patterns, Text.globMatches (PathText.plain path) pattern = false ∧
    Text.globMatches (PathText.fileName path) pattern = false

/-- A path is left out when a pattern matches it. -/
theorem excludes_eq_false_iff {patterns : List String} {path : String} :
    excludes patterns path = false ↔ Spares patterns path := by
  rw [excludes, List.any_eq_false, Spares]
  simp

/-- A path that a given one stands for: the path of a file itself, or that of a source file below a directory. -/
inductive StandsFor (w : Workspace) (given : String) : String → Prop
  | file {bytes : List UInt8} (hgiven : w.find? given = some (.file bytes)) : StandsFor w given given
  | inside {entries : List (String × FileTree)} {path : String}
      (hgiven : w.find? given = some (.directory entries))
      (hsource : IsSource (PathText.plain given) (.directory entries) path) : StandsFor w given path

/-- The files of a path are those that it stands for. -/
theorem mem_ofPath_iff {w : Workspace} {given path : String} :
    path ∈ (ofPath w given).getD [] ↔ StandsFor w given path := by
  rw [ofPath]
  split
  · rename_i entries hgiven
    rw [Option.getD_some, mem_sourcesAmong_iff]
    constructor
    · exact StandsFor.inside hgiven
    · rintro (⟨hfile⟩ | ⟨hdirectory, hsource⟩)
      · cases hgiven.symm.trans hfile
      · cases hgiven.symm.trans hdirectory
        exact hsource
  · rename_i bytes hgiven
    rw [Option.getD_some, List.mem_singleton]
    constructor
    · rintro rfl
      exact .file hgiven
    · rintro (⟨hfile⟩ | ⟨hdirectory, hsource⟩)
      · rfl
      · cases hgiven.symm.trans hdirectory
  · rename_i hgiven
    constructor
    · rintro ⟨⟩
    · rintro (⟨hfile⟩ | ⟨hdirectory, hsource⟩)
      · cases hgiven.symm.trans hfile
      · cases hgiven.symm.trans hdirectory

/-- A path stands for nothing when it leads nowhere. -/
theorem isNone_ofPath (w : Workspace) (given : String) : (ofPath w given).isNone = (w.find? given).isNone := by
  rw [ofPath]
  split <;> simp [*]

/-- The files that are found are those that paths stand for, without excluded ones. -/
theorem mem_files_iff {w : Workspace} {patterns paths : List String} {path : String} :
    path ∈ (ofPaths w patterns paths).files ↔
      (∃ given ∈ paths, StandsFor w given path) ∧ Spares patterns path := by
  rw [ofPaths, List.mem_eraseDups, List.mem_mergeSort, List.mem_filter, List.mem_flatMap, Bool.not_eq_true',
    excludes_eq_false_iff]
  simp only [mem_ofPath_iff]

/-- In a proper tree, the path of a file that is found leads to that file, and one of a source file that stands in a
directory ends with its name. -/
theorem StandsFor.find? {w : Workspace} (ht : w.tree.IsProper) {given path : String} (h : StandsFor w given path) :
    (∃ bytes, w.find? path = some (.file bytes)) ∧
      (path = given ∨ ∃ stem, PathText.fileName path = stem ++ sourceEnding) := by
  obtain hgiven | @⟨entries, _, hgiven, names, name, bytes, hfile, hending, -⟩ := h
  · exact ⟨⟨_, hgiven⟩, Or.inl rfl⟩
  · have hnames := (Workspace.isProper_of_find? ht hgiven).isName_of_leads hfile
    obtain ⟨hnames, habsolute⟩ := pathBelow_spec (PathText.plain_ne_empty given) hnames
    rw [PathText.names_plain] at hnames
    rw [PathText.isAbsolute_plain] at habsolute
    refine ⟨⟨bytes, Workspace.find?_of_leads ht hgiven hfile habsolute hnames⟩, Or.inr ?_⟩
    rw [PathText.fileName, hnames, ← List.append_assoc, List.getLastD_concat]
    exact hending

/-- The files that a run finds are strictly in order. They are the given files and the source files below given
directories, without excluded ones; in a proper tree each of them is there, and those that are not given themselves
end as source files do. Every given path that leads nowhere is a fault, as often as it is given. Other paths give
the same files when they are the same up to order and repetition. -/
theorem ofPaths_law (w : Workspace) (patterns paths : List String) :
    (ofPaths w patterns paths).files.Pairwise (· < ·) ∧
    (∀ path, path ∈ (ofPaths w patterns paths).files ↔
      (∃ given ∈ paths, StandsFor w given path) ∧ Spares patterns path) ∧
    (w.tree.IsProper → ∀ path ∈ (ofPaths w patterns paths).files,
      (∃ bytes, w.find? path = some (.file bytes)) ∧
      (path ∈ paths ∨ ∃ stem, PathText.fileName path = stem ++ sourceEnding)) ∧
    (ofPaths w patterns paths).faults =
      (paths.filter fun given => (w.find? given).isNone).map (.unreadable · "no such file or directory") ∧
    ∀ others, (∀ given, given ∈ others ↔ given ∈ paths) →
      (ofPaths w patterns others).files = (ofPaths w patterns paths).files := by
  refine ⟨pairwise_files w patterns paths, fun path => mem_files_iff, fun ht path hpath => ?_, ?_, ?_⟩
  · obtain ⟨⟨given, hgiven, hstands⟩, -⟩ := mem_files_iff.mp hpath
    obtain ⟨hfile, hname⟩ := hstands.find? ht
    refine ⟨hfile, hname.imp_left ?_⟩
    rintro rfl
    exact hgiven
  · rw [ofPaths]
    simp only [isNone_ofPath]
  · intro others hothers
    apply (pairwise_files w patterns others).eq_of_mem_iff (pairwise_files w patterns paths)
    intro path
    simp only [mem_files_iff, hothers]

/-- A directory with a source file and one with the code of others, given before and behind a file. -/
theorem ofPaths_law_repeated :
    let w : Workspace := ⟨.directory [("notes", .file []), ("src", .directory [("a.go", .file []),
      ("vendor", .directory [("b.go", .file [])])])], []⟩
    w.tree.IsProper ∧ (∀ given, given ∈ ["src", "notes", "src"] ↔ given ∈ ["notes", "src"]) ∧
      (ofPaths w [] ["src", "notes", "src"]).files = (ofPaths w [] ["notes", "src"]).files ∧
        "src/a.go" ∈ (ofPaths w [] ["notes", "src"]).files ∧
        ∃ bytes, w.find? "src/a.go" = some (.file bytes) := by
  intro w
  have hw : w.tree.IsProper :=
    .directory (by decide) (by decide) (List.forall_mem_cons.mpr ⟨.file, List.forall_mem_singleton.mpr
      (.directory (by decide) (by decide) (List.forall_mem_cons.mpr ⟨.file, List.forall_mem_singleton.mpr
        (.directory (by decide) (by decide) (List.forall_mem_singleton.mpr .file))⟩))⟩)
  have hpaths : ∀ given, given ∈ ["src", "notes", "src"] ↔ given ∈ ["notes", "src"] := by simp
  obtain ⟨-, hmem, hfind, -, hsame⟩ := ofPaths_law w [] ["notes", "src"]
  have hsource : "src/a.go" ∈ (ofPaths w [] ["notes", "src"]).files := by
    rw [hmem]
    refine ⟨⟨"src", by decide, .inside rfl ?_⟩, fun _ h => nomatch h⟩
    exact @IsSource.intro "src" _ [] "a.go" [] (.enter List.mem_cons_self .here) ⟨"a", rfl⟩ (by simp)
  exact ⟨hw, hpaths, hsame _ hpaths, hsource, (hfind hw _ hsource).1⟩

end Discovery

end GoIdiom
