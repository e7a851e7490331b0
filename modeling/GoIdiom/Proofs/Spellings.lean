import GoIdiom.Proofs.DiscoveredFiles

/-!
# Spellings of one file

The files that are found are told apart by how they are written, and the same file can be written in several ways: a
given file is taken as it is written, and a source file below a directory under the plain form of that. In a proper
tree a file is one place. Two entries stand for one place exactly when two given paths overlap there and the inner
one is not written as what it is below the outer one, so a run over paths that are all in plain form, none of them a
dot or with two dots in it, analyzes no file twice.
-/

namespace GoIdiom

namespace Workspace

variable {w : Workspace} {path longer : String} {place names : List String} {t t' : FileTree}

/-- The place that a path leads to, by names from the top. -/
def place? (w : Workspace) (path : String) : Option (List String) :=
  (PathText.names path).foldlM w.step (if PathText.isAbsolute path then [] else w.working)

/-- Two paths that lead to the same place. -/
def SamePlace (w : Workspace) (path other : String) : Prop :=
  ∃ place, w.place? path = some place ∧ w.place? other = some place

/-- A path that leads to something leads to a place. -/
theorem exists_place_of_find? (h : w.find? path = some t) :
    ∃ place, w.place? path = some place ∧ w.tree.get? place = some t :=
  Option.bind_eq_some_iff.mp h

/-- A path with names behind it leads to the place with the names behind it. -/
theorem place?_of_leads (ht : w.tree.IsProper) (hplace : w.place? path = some place)
    (hfound : w.tree.get? place = some t) (h : t.Leads names t')
    (habsolute : PathText.isAbsolute longer = PathText.isAbsolute path)
    (hnames : PathText.names longer = PathText.names path ++ names) : w.place? longer = some (place ++ names) := by
  rw [place?] at hplace
  rw [place?, habsolute, hnames, List.foldlM_append, hplace]
  exact foldlM_step ht hfound h

/-- Names without dots lead straight down, if anywhere. -/
theorem eq_append_of_foldlM_step (hnames : ∀ name ∈ names, name ≠ "" ∧ name ≠ "." ∧ name ≠ "..")
    {start : List String} (h : names.foldlM w.step start = some place) : place = start ++ names := by
  induction names generalizing start with
  | nil =>
    rw [List.append_nil]
    exact (Option.some.inj h).symm
  | cons name rest ih =>
    obtain ⟨⟨hgiven, hhere, habove⟩, hrest⟩ := List.forall_mem_cons.mp hnames
    rw [List.foldlM_cons] at h
    obtain ⟨next, hstep, hnext⟩ := Option.bind_eq_some_iff.mp h
    have hdown : next = start ++ [name] := by
      rw [step] at hstep
      split at hstep
      · rw [if_neg (by simp [hgiven, hhere]), if_neg (by simpa using habove)] at hstep
        exact (Option.some.inj hstep).symm
      · cases hstep
    rw [ih hrest hnext, hdown, List.append_assoc, List.singleton_append]

end Workspace

namespace Discovery

variable {w : Workspace} {patterns paths : List String} {given path : String} {names : List String}

/-! ## Entries below given paths -/

/-- How the files of a given path are written: a file as it is given, those below a directory under its plain form.
-/
def writtenAs (w : Workspace) (given : String) : String :=
  if (w.find? given).any (·.isDirectory) then PathText.plain given else given

/-- The names below a given path of a file that it stands for: none when it is a file itself. -/
inductive StandsAt (w : Workspace) (given : String) : List String → Prop
  | file {bytes : List UInt8} (hgiven : w.find? given = some (.file bytes)) : StandsAt w given []
  | inside {entries : List (String × FileTree)} {names : List String} {name : String} {bytes : List UInt8}
      (hgiven : w.find? given = some (.directory entries))
      (hfile : (FileTree.directory entries).Leads (names ++ [name]) (.file bytes))
      (hending : ∃ stem, name = stem ++ sourceEnding) (hway : ∀ inner ∈ names, ¬IsSkipped inner) :
      StandsAt w given (names ++ [name])

/-- A given path stands for the files below it, as they are written. -/
theorem standsFor_iff : StandsFor w given path ↔
    ∃ names, StandsAt w given names ∧ path = pathBelow (writtenAs w given) names := by
  constructor
  · rintro (⟨hgiven⟩ | ⟨hgiven, @⟨names, name, bytes, hfile, hending, hway⟩⟩)
    · refine ⟨[], .file hgiven, ?_⟩
      rw [writtenAs, hgiven]
      rfl
    · refine ⟨names ++ [name], .inside hgiven hfile hending hway, ?_⟩
      rw [writtenAs, hgiven]
      rfl
  · rintro ⟨_, ⟨hgiven⟩ | ⟨hgiven, hfile, hending, hway⟩, rfl⟩
    · rw [writtenAs, hgiven]
      exact .file hgiven
    · rw [writtenAs, hgiven]
      exact .inside hgiven ⟨hfile, hending, hway⟩

/-- The place of a file that a given path stands for is below that of the path. -/
theorem StandsAt.place? (ht : w.tree.IsProper) {place : List String} (hplace : w.place? given = some place)
    (h : StandsAt w given names) : w.place? (pathBelow (writtenAs w given) names) = some (place ++ names) := by
  obtain ⟨hgiven⟩ | ⟨hgiven, hfile, -, -⟩ := h
  · rw [writtenAs, hgiven, List.append_nil]
    exact hplace
  · obtain ⟨place', hplace', hfound⟩ := Workspace.exists_place_of_find? hgiven
    obtain rfl := Option.some.inj (hplace.symm.trans hplace')
    have hproper := Workspace.isProper_of_find? ht hgiven
    obtain ⟨hnames, habsolute⟩ :=
      pathBelow_spec (PathText.plain_ne_empty given) (hproper.isName_of_leads hfile)
    rw [PathText.names_plain] at hnames
    rw [PathText.isAbsolute_plain] at habsolute
    rw [writtenAs, hgiven]
    exact Workspace.place?_of_leads ht hplace hfound hfile habsolute hnames

/-- A given path that stands for a file leads to a place. -/
theorem StandsAt.exists_place (h : StandsAt w given names) : ∃ place, w.place? given = some place := by
  obtain ⟨hgiven⟩ | ⟨hgiven, -, -, -⟩ := h
  · exact (Workspace.exists_place_of_find? hgiven).imp fun _ h => h.1
  · exact (Workspace.exists_place_of_find? hgiven).imp fun _ h => h.1

/-- The names below a given path are names of entries. -/
theorem StandsAt.isName (ht : w.tree.IsProper) (h : StandsAt w given names) :
    ∀ name ∈ names, PathText.IsName name := by
  obtain ⟨hgiven⟩ | ⟨hgiven, hfile, -, -⟩ := h
  · simp
  · exact (Workspace.isProper_of_find? ht hgiven).isName_of_leads hfile

/-- Files below a given path are below a directory. -/
theorem StandsAt.writtenAs_eq_plain (h : StandsAt w given names) (hnames : names ≠ []) :
    writtenAs w given = PathText.plain given := by
  obtain ⟨hgiven⟩ | ⟨hgiven, -, -, -⟩ := h
  · exact absurd rfl hnames
  · rw [writtenAs, hgiven]
    rfl

/-- What is below something below a directory. -/
theorem pathBelow_append (directory : String) (names more : List String) :
    pathBelow directory (names ++ more) = pathBelow (pathBelow directory names) more := List.foldl_append

/-! ## Paths of directories -/

/-- A path as that of a directory is written: not empty, and with a slash at its end only at the top. -/
structure IsDirectoryPath (path : String) : Prop where
  given : path ≠ ""
  top : Text.endsWith path "/" = true → path = "/" ∨ path = "//"

/-- What ends with a name does not end with a slash. -/
theorem endsWith_slash_append {name : String} (hgiven : name ≠ "") (hslash : '/' ∉ name.toList)
    (front : String) : Text.endsWith (front ++ name) "/" = false := by
  rw [Bool.eq_false_iff]
  intro hends
  obtain ⟨stem, hstem⟩ := Text.endsWith_iff.mp hends
  have hlast : (front ++ name).toList.getLast? = (stem ++ "/").toList.getLast? := by rw [hstem]
  rw [String.toList_append, String.toList_append, List.getLast?_append_of_ne_nil _ (by simpa using hgiven)] at hlast
  exact hslash (List.mem_of_getLast? (hlast.trans (by simp)))

/-- The path of an entry is that of a directory. -/
theorem IsDirectoryPath.below {name : String} (hname : PathText.IsName name) (directory : String) :
    IsDirectoryPath (below directory name) where
  given := by
    rw [Discovery.below]
    split <;> simp [hname.given]
  top hends := by
    rw [Discovery.below] at hends
    split at hends
    · rw [endsWith_slash_append hname.given hname.slash] at hends
      cases hends
    · rw [endsWith_slash_append hname.given hname.slash] at hends
      cases hends

/-- The path of something below a directory is that of a directory. -/
theorem IsDirectoryPath.pathBelow {directory : String} (h : IsDirectoryPath directory)
    (hnames : ∀ name ∈ names, PathText.IsName name) :
    IsDirectoryPath (Discovery.pathBelow directory names) := by
  induction names generalizing directory with
  | nil => exact h
  | cons name rest ih =>
    obtain ⟨hname, hrest⟩ := List.forall_mem_cons.mp hnames
    exact ih (.below hname directory) hrest

/-- Paths of directories are told apart by the path of an entry. -/
theorem IsDirectoryPath.eq_of_below_eq {directory other name : String} (h : IsDirectoryPath directory)
    (hother : IsDirectoryPath other) (hsame : Discovery.below directory name = Discovery.below other name) :
    directory = other := by
  -- Only the top has a slash of its own in front of the name, and in front of that slash no directory stands.
  have htop {directory other : String} (h : IsDirectoryPath directory) (hother : IsDirectoryPath other)
      (hends : Text.endsWith directory "/" = true) (hnot : ¬Text.endsWith other "/" = true)
      (hsame : directory ++ name = other ++ "/" ++ name) : False := by
    have hslash : directory = other ++ "/" := (String.append_left_inj name).mp hsame
    rcases h.top hends with rfl | rfl
    · have hslash : "" ++ "/" = other ++ "/" := hslash
      exact hother.given ((String.append_left_inj "/").mp hslash).symm
    · obtain rfl : "/" = other := (String.append_left_inj "/").mp hslash
      exact hnot (by decide)
  rw [Discovery.below, Discovery.below] at hsame
  split at hsame
  · next hends =>
    split at hsame
    · exact (String.append_left_inj name).mp hsame
    · next hnot => exact (htop h hother hends hnot hsame).elim
  · next hnot =>
    split at hsame
    · next hends => exact (htop hother h hends hnot hsame.symm).elim
    · exact (String.append_left_inj "/").mp ((String.append_left_inj name).mp hsame)

/-- Paths of directories are told apart by the path of anything below them. -/
theorem IsDirectoryPath.eq_of_pathBelow_eq {directory other : String} (h : IsDirectoryPath directory)
    (hother : IsDirectoryPath other) (hnames : ∀ name ∈ names, PathText.IsName name)
    (hsame : Discovery.pathBelow directory names = Discovery.pathBelow other names) :
    directory = other := by
  induction names generalizing directory other with
  | nil => exact hsame
  | cons name rest ih =>
    obtain ⟨hname, hrest⟩ := List.forall_mem_cons.mp hnames
    exact h.eq_of_below_eq hother (ih (.below hname directory) (.below hname other) hrest hsame)

end Discovery

/-! ## Plain forms -/

namespace PathText

/-- The slashes that begin a path: none, one or two. -/
theorem root_cases (path : String) : root path = "" ∨ root path = "/" ∨ root path = "//" := by
  unfold root
  split <;> simp

/-- A single name is joined to itself. -/
theorem joinWith_singleton (name : String) : Text.joinWith "/" [name] = name := String.intercalate_singleton

/-- One more name comes behind a slash. -/
theorem joinWith_concat {names : List String} (hnames : names ≠ []) (name : String) :
    Text.joinWith "/" (names ++ [name]) = Text.joinWith "/" names ++ "/" ++ name := by
  rw [Text.joinWith, String.intercalate_append_of_ne_nil hnames (List.cons_ne_nil name []),
    String.intercalate_singleton]
  rfl

/-- Names put together end with the last one. -/
theorem exists_joinWith_concat (names : List String) (name : String) :
    ∃ front, Text.joinWith "/" (names ++ [name]) = front ++ name := by
  by_cases hnames : names = []
  · exact ⟨"", by rw [hnames, List.nil_append, joinWith_singleton, String.empty_append]⟩
  · exact ⟨_, joinWith_concat hnames name⟩

/-- A path in plain form, which is not that of the working directory itself and leads nowhere up. -/
structure IsCanonical (path : String) : Prop where
  plain : plain path = path
  inside : path ≠ "."
  down : ".." ∉ names path

instance : DecidablePred IsCanonical := fun path =>
  decidable_of_iff (PathText.plain path = path ∧ path ≠ "." ∧ ".." ∉ names path)
    ⟨fun ⟨plain, inside, down⟩ => ⟨plain, inside, down⟩,
      fun ⟨plain, inside, down⟩ => ⟨plain, inside, down⟩⟩

/-- Such a path is its root with its names. -/
theorem IsCanonical.eq_root_append {path : String} (h : IsCanonical path) :
    path = root path ++ Text.joinWith "/" (names path) := by
  have hplain := h.plain
  rw [PathText.plain] at hplain
  split at hplain
  · exact absurd hplain.symm h.inside
  · exact hplain.symm

end PathText

namespace Discovery

/-- The plain form of a path is that of a directory. -/
theorem isDirectoryPath_plain (path : String) : IsDirectoryPath (PathText.plain path) where
  given := PathText.plain_ne_empty path
  top hends := by
    rw [PathText.plain] at hends ⊢
    split at hends
    · exact absurd hends (by decide)
    · next hgiven =>
      rw [if_neg hgiven]
      rcases List.eq_nil_or_concat (PathText.names path) with hnil | ⟨names, name, hnames⟩
      · rw [hnil, Text.joinWith, String.intercalate_nil, String.append_empty] at hgiven ⊢
        exact (PathText.root_cases path).resolve_left (by simpa using hgiven)
      · obtain ⟨hname, -, hslash⟩ := PathText.of_mem_names (hnames ▸ by simp : name ∈ PathText.names path)
        obtain ⟨front, hfront⟩ := PathText.exists_joinWith_concat names name
        rw [hnames, List.concat_eq_append, hfront, ← String.append_assoc,
          endsWith_slash_append hname hslash] at hends
        cases hends

/-- The path of an entry has one more name behind the root and the names of the directory. -/
theorem below_root_append {names : List String} {path : String}
    (hnames : ∀ name ∈ names, name ≠ "" ∧ '/' ∉ name.toList)
    (hgiven : PathText.root path ++ Text.joinWith "/" names ≠ "") (name : String) :
    below (PathText.root path ++ Text.joinWith "/" names) name =
      PathText.root path ++ Text.joinWith "/" (names ++ [name]) := by
  rcases List.eq_nil_or_concat names with rfl | ⟨front, last, rfl⟩
  · rw [Text.joinWith, String.intercalate_nil, String.append_empty] at hgiven ⊢
    rw [List.nil_append, PathText.joinWith_singleton, below, if_pos]
    rcases PathText.root_cases path with h | h | h
    · exact absurd h hgiven
    · rw [h]; decide
    · rw [h]; decide
  · rw [List.concat_eq_append] at hnames ⊢
    obtain ⟨hlast, hslash⟩ := hnames last (by simp)
    obtain ⟨stem, hstem⟩ := PathText.exists_joinWith_concat front last
    rw [PathText.joinWith_concat (by simp) name, below, if_neg, String.append_assoc, String.append_assoc,
      String.append_assoc]
    rw [hstem, ← String.append_assoc, endsWith_slash_append hlast hslash]
    exact Bool.false_ne_true

/-- What is below a path that is its root with its names has more names. -/
theorem pathBelow_root_append {names more : List String} {path : String}
    (hnames : ∀ name ∈ names ++ more, name ≠ "" ∧ '/' ∉ name.toList)
    (hgiven : PathText.root path ++ Text.joinWith "/" names ≠ "") :
    pathBelow (PathText.root path ++ Text.joinWith "/" names) more =
      PathText.root path ++ Text.joinWith "/" (names ++ more) := by
  induction more generalizing names with
  | nil => rw [List.append_nil]; rfl
  | cons name rest ih =>
    have hfront : ∀ inner ∈ names, inner ≠ "" ∧ '/' ∉ inner.toList := fun inner h =>
      hnames inner (List.mem_append_left _ h)
    have hbelow := below_root_append hfront hgiven name
    have hall : names ++ name :: rest = names ++ [name] ++ rest := by simp
    rw [hall] at hnames ⊢
    rw [← ih hnames, ← hbelow]
    · rfl
    · rw [← hbelow, below]
      split <;> simp [hgiven]

/-! ## No file twice -/

/-- Wherever two given paths stand for the same file and none of its two ways of being written is excluded, the
inner one is written as what it is below the outer one. -/
def WrittenAlike (w : Workspace) (patterns paths : List String) : Prop :=
  ∀ outer ∈ paths, ∀ inner ∈ paths, ∀ place between names, w.place? outer = some place →
    w.place? inner = some (place ++ between) → StandsAt w outer (between ++ names) → StandsAt w inner names →
    Spares patterns (pathBelow (writtenAs w outer) (between ++ names)) →
    Spares patterns (pathBelow (writtenAs w inner) names) →
      writtenAs w inner = pathBelow (writtenAs w outer) between

/-- A file is found as it is written below a given path that stands for it. -/
theorem mem_files_iff_standsAt : path ∈ (ofPaths w patterns paths).files ↔
    (∃ given ∈ paths, ∃ names, StandsAt w given names ∧ path = pathBelow (writtenAs w given) names) ∧
      Spares patterns path := by
  rw [mem_files_iff]
  simp only [standsFor_iff]

/-- No two entries stand for one place exactly when overlapping paths are written alike. -/
theorem eq_of_samePlace_iff (ht : w.tree.IsProper) :
    (∀ path ∈ (ofPaths w patterns paths).files, ∀ other ∈ (ofPaths w patterns paths).files,
      w.SamePlace path other → path = other) ↔ WrittenAlike w patterns paths := by
  constructor
  · intro h outer houter inner hinner place between names hplace hbetween hout hin hsparesOut hsparesIn
    have hsame := h _ (mem_files_iff_standsAt.mpr ⟨⟨inner, hinner, names, hin, rfl⟩, hsparesIn⟩)
      _ (mem_files_iff_standsAt.mpr ⟨⟨outer, houter, between ++ names, hout, rfl⟩, hsparesOut⟩)
      ⟨place ++ between ++ names, hin.place? ht hbetween, by rw [hout.place? ht hplace, List.append_assoc]⟩
    rw [pathBelow_append] at hsame
    by_cases hnames : names = []
    · subst hnames
      exact hsame
    · have hname := hout.isName ht
      rw [hin.writtenAs_eq_plain hnames, hout.writtenAs_eq_plain (by simp [hnames])] at hsame ⊢
      refine (isDirectoryPath_plain inner).eq_of_pathBelow_eq ?_ (hin.isName ht) hsame
      exact .pathBelow (isDirectoryPath_plain outer) fun name h => hname name (List.mem_append_left _ h)
  · intro h path hpath other hother ⟨place, hplace, hplaceOther⟩
    obtain ⟨⟨given, hgiven, names, hstands, rfl⟩, hspares⟩ := mem_files_iff_standsAt.mp hpath
    obtain ⟨⟨given', hgiven', names', hstands', rfl⟩, hspares'⟩ := mem_files_iff_standsAt.mp hother
    obtain ⟨top, htop⟩ := hstands.exists_place
    obtain ⟨top', htop'⟩ := hstands'.exists_place
    have hsame : top ++ names = top' ++ names' := by
      rw [hstands.place? ht htop] at hplace
      rw [hstands'.place? ht htop'] at hplaceOther
      exact Option.some.inj (hplace.trans hplaceOther.symm)
    -- Of two places that lead to one file, one is on the way from the other.
    rcases List.append_eq_append_iff.mp hsame with ⟨between, rfl, rfl⟩ | ⟨between, rfl, rfl⟩
    · rw [pathBelow_append,
        h given hgiven given' hgiven' top between names' htop htop' hstands hstands' hspares hspares']
    · rw [pathBelow_append,
        h given' hgiven' given hgiven top' between names htop' htop hstands' hstands hspares' hspares]

/-- Paths in plain form that begin alike and lead nowhere up are written alike. -/
theorem writtenAlike_of_isCanonical (hcanonical : ∀ given ∈ paths, PathText.IsCanonical given)
    (hroot : ∀ given ∈ paths, ∀ other ∈ paths, PathText.root given = PathText.root other) :
    WrittenAlike w patterns paths := by
  intro outer houter inner hinner place between names hplace hbetween _ _ _ _
  have hwritten {given : String} (h : given ∈ paths) : writtenAs w given = given := by
    rw [writtenAs, (hcanonical given h).plain, ite_self]
  -- Both paths lead straight down from the same place.
  have hdown {given : String} (h : given ∈ paths) :
      ∀ name ∈ PathText.names given, name ≠ "" ∧ name ≠ "." ∧ name ≠ ".." := by
    intro name hname
    obtain ⟨hgiven, hhere, -⟩ := PathText.of_mem_names hname
    exact ⟨hgiven, hhere, fun habove => (hcanonical given h).down (habove ▸ hname)⟩
  have hsame := hroot outer houter inner hinner
  have habsolute : PathText.isAbsolute inner = PathText.isAbsolute outer := by
    rw [PathText.isAbsolute, PathText.isAbsolute, hsame]
  rw [Workspace.place?] at hplace hbetween
  have hnames := Workspace.eq_append_of_foldlM_step (hdown hinner) hbetween
  rw [Workspace.eq_append_of_foldlM_step (hdown houter) hplace, habsolute, List.append_assoc] at hnames
  have hnames := List.append_cancel_left hnames
  have hkept : ∀ name ∈ PathText.names outer ++ between, name ≠ "" ∧ '/' ∉ name.toList := by
    rw [hnames]
    intro name hname
    obtain ⟨hgiven, -, hslash⟩ := PathText.of_mem_names hname
    exact ⟨hgiven, hslash⟩
  have houterText := (hcanonical outer houter).eq_root_append
  have hgiven : PathText.root outer ++ Text.joinWith "/" (PathText.names outer) ≠ "" := by
    rw [← houterText]
    exact fun hempty => PathText.plain_ne_empty outer ((hcanonical outer houter).plain.trans hempty)
  calc writtenAs w inner
    _ = PathText.root inner ++ Text.joinWith "/" (PathText.names inner) :=
      (hwritten hinner).trans (hcanonical inner hinner).eq_root_append
    _ = PathText.root outer ++ Text.joinWith "/" (PathText.names outer ++ between) := by rw [← hsame, hnames]
    _ = pathBelow (PathText.root outer ++ Text.joinWith "/" (PathText.names outer)) between :=
      (pathBelow_root_append hkept hgiven).symm
    _ = pathBelow (writtenAs w outer) between := by rw [← houterText, hwritten houter]

/-- Files that are found at different places are analyzed one by one, and the summary of a run adds up what is found
in each of them. -/
theorem summary_of_eq_of_samePlace (l : Linter) (cancelled : Bool) (skips : String → Bool)
    (h : ∀ path ∈ l.filesOf w paths, ∀ other ∈ l.filesOf w paths, w.SamePlace path other → path = other) :
    ∃ analyzed : List String, analyzed.Pairwise (fun path other => ¬w.SamePlace path other) ∧
      (l.runSkipping w paths cancelled skips).results = analyzed.map (l.analyzeFile w) ∧
      (l.runSkipping w paths cancelled skips).summary.counts.total =
        (analyzed.map fun path => (l.analyzeFile w path).findings.length).sum := by
  refine ⟨(l.filesOf w paths).filter fun path => !skips path, ?_,
    l.results_runSkipping w paths cancelled skips, ?_⟩
  · have hordered : ((l.filesOf w paths).filter fun path => !skips path).Pairwise (· < ·) :=
      (pairwise_files w l.config.exclude paths).sublist List.filter_sublist
    refine hordered.imp_of_mem fun hpath hother hlt hsame => ?_
    exact absurd (h _ (List.mem_filter.mp hpath).1 _ (List.mem_filter.mp hother).1 hsame) (ne_of_lt hlt)
  · change (Counts.ofFindings (Run.findings _)).total = _
    rw [Counts.total_ofFindings, Run.findings, Finding.sort, List.length_mergeSort, List.length_flatMap,
      Linter.results_runSkipping, List.map_map]
    rfl

/-- In a proper tree no two of the files that are found are one file exactly when the given paths are written alike
where they overlap. They are when all are in plain form, begin with the same slashes or none, and are neither a dot
nor have two dots in them. A run over such paths analyzes files at different places only, and its summary counts the
findings of each of them once. -/
theorem ofPaths_once (w : Workspace) (patterns paths : List String) (ht : w.tree.IsProper) :
    ((∀ path ∈ (ofPaths w patterns paths).files, ∀ other ∈ (ofPaths w patterns paths).files,
      w.SamePlace path other → path = other) ↔ WrittenAlike w patterns paths) ∧
    ((∀ given ∈ paths, PathText.IsCanonical given) →
      (∀ given ∈ paths, ∀ other ∈ paths, PathText.root given = PathText.root other) →
        WrittenAlike w patterns paths) ∧
    (WrittenAlike w patterns paths → ∀ (l : Linter) (cancelled : Bool) (skips : String → Bool),
      l.config.exclude = patterns → ∃ analyzed : List String,
        analyzed.Pairwise (fun path other => ¬w.SamePlace path other) ∧
        (l.runSkipping w paths cancelled skips).results = analyzed.map (l.analyzeFile w) ∧
        (l.runSkipping w paths cancelled skips).summary.counts.total =
          (analyzed.map fun path => (l.analyzeFile w path).findings.length).sum) := by
  refine ⟨eq_of_samePlace_iff ht, writtenAlike_of_isCanonical, ?_⟩
  rintro halike l cancelled skips rfl
  exact summary_of_eq_of_samePlace l cancelled skips ((eq_of_samePlace_iff ht).mpr halike)

/-- The files that are found are those of the given paths that are not excluded, strictly in order. -/
theorem files_eq (found : List String) {files : List String}
    (hfound : (paths.flatMap fun p => (ofPath w p).getD []).filter (fun p => !excludes patterns p) = found)
    (hfiles : files.Pairwise (· < ·)) (hsame : ∀ path, path ∈ found ↔ path ∈ files) :
    (ofPaths w patterns paths).files = files := by
  apply (pairwise_files w patterns paths).eq_of_mem_iff hfiles
  intro path
  rw [ofPaths, List.mem_eraseDups, List.mem_mergeSort, hfound, hsame]

/-- A directory and a file in it, both given by their names, are written alike, so the file is found once. -/
theorem ofPaths_once_inside :
    let w : Workspace := ⟨.directory [("src", .directory [("a.go", .file [])])], []⟩
    w.tree.IsProper ∧ WrittenAlike w [] ["src/a.go", "src"] ∧
      (ofPaths w [] ["src/a.go", "src"]).files = ["src/a.go"] ∧
      ∀ path ∈ (ofPaths w [] ["src/a.go", "src"]).files, ∀ other ∈ (ofPaths w [] ["src/a.go", "src"]).files,
        w.SamePlace path other → path = other := by
  intro w
  have hw : w.tree.IsProper :=
    .directory (by decide) (by decide) (List.forall_mem_singleton.mpr
      (.directory (by decide) (by decide) (List.forall_mem_singleton.mpr .file)))
  obtain ⟨honce, hcanonical, -⟩ := ofPaths_once w [] ["src/a.go", "src"] hw
  have halike := hcanonical (by decide) (by decide)
  exact ⟨hw, halike, files_eq ["src/a.go", "src/a.go"] (by decide) (by decide) (by simp), honce.mpr halike⟩

/-- A file that is given as it is called and with a dot in front is found twice and has two results, whatever the
linter does with it: both entries stand for one file. -/
theorem ofPaths_dotInFront :
    let w : Workspace := ⟨.directory [("a.go", .file [])], []⟩
    w.tree.IsProper ∧ (ofPaths w [] ["a.go", "./a.go"]).files = ["./a.go", "a.go"] ∧
    w.SamePlace "./a.go" "a.go" ∧
      ∀ l : Linter, l.config.exclude = [] →
        (l.run w ["a.go", "./a.go"] false).results.map (·.path) = ["./a.go", "a.go"] := by
  intro w
  have hw : w.tree.IsProper := .directory (by decide) (by decide) (List.forall_mem_singleton.mpr .file)
  have hfiles : (ofPaths w [] ["a.go", "./a.go"]).files = ["./a.go", "a.go"] :=
    files_eq ["a.go", "./a.go"] (by decide) (by decide) (by simp [or_comm])
  refine ⟨hw, hfiles, ⟨["a.go"], by decide, by decide⟩, fun l hl => ?_⟩
  rw [Linter.run, Linter.map_path_results, Linter.filesOf, hl, hfiles]
  rfl

end Discovery

end GoIdiom
