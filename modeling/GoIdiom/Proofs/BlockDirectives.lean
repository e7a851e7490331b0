import GoIdiom.Proofs.Directive
import GoIdiom.Proofs.Lexing.Positions
import Mathlib.Data.List.Pairwise

/-!
# Directives that begin and end blocks

The directives for blocks pair like brackets: the end of a block is the first directive of its kind that the blocks
begun inside leave over. The scan keeps the open blocks on a stack, and closes each of them where a search from its
start comes to an end; so the suppressions are told comment by comment from what stands behind it.
-/

namespace GoIdiom

namespace Suppression

variable {path : String} {codeLines : List Nat} {lastLine : Int}
variable {c e start : Comment} {d : Directive} {cs comments after before inner outer rest : List Comment}
variable {openBlocks : List (Comment × Directive)} {suppressions : List Suppression} {depth : Nat}

/-! ## Blocks that pair -/

/-- The kind of the directive in a comment. -/
def kindOf (c : Comment) : Option DirectiveKind := (Directive.ofComment? c).map Directive.kind

/-- The kind of a comment is that of its directive. -/
theorem kindOf_eq (hc : Directive.ofComment? c = some d) : kindOf c = some d.kind := by
  rw [kindOf, hc, Option.map_some]

/-- Comments whose directives for blocks pair among themselves. -/
inductive Paired : List Comment → Prop
  | nil : Paired []
  | other {c : Comment} {rest : List Comment} (hstart : kindOf c ≠ some .blockStart)
      (hend : kindOf c ≠ some .blockEnd) (hrest : Paired rest) : Paired (c :: rest)
  | block {start e : Comment} {inner rest : List Comment} (hstart : kindOf start = some .blockStart)
      (hinner : Paired inner) (hend : kindOf e = some .blockEnd) (hrest : Paired rest) :
      Paired (start :: (inner ++ e :: rest))

/-- A comment ends the block that was begun in front of the comments `after`. -/
def Ends (e : Comment) (after : List Comment) : Prop :=
  kindOf e = some .blockEnd ∧ ∃ inner rest, after = inner ++ e :: rest ∧ Paired inner

/-- Every block begun in the comments is ended in them. -/
def AllEnded (cs : List Comment) : Prop :=
  ∀ outer start inner, cs = outer ++ start :: inner → kindOf start = some .blockStart → ∃ e, Ends e inner

/-- Every block behind the first comment is ended, too. -/
theorem AllEnded.tail (h : AllEnded (c :: rest)) : AllEnded rest :=
  fun outer start inner hrest => h (c :: outer) start inner (congrArg (c :: ·) hrest)

/-- Every block of a last part is ended. -/
theorem AllEnded.right (h : AllEnded (before ++ after)) : AllEnded after := by
  induction before with
  | nil => exact h
  | cons c before ih => exact ih h.tail

/-- In front of an end, comments that pair keep it the end. -/
theorem Ends.prepend (hinner : Paired inner) (hend : kindOf e = some .blockEnd) : Ends e (inner ++ e :: rest) :=
  ⟨hend, inner, rest, rfl, hinner⟩

/-- Comments pair that leave no block open and end none begun before. -/
theorem paired_of_allEnded (cs : List Comment) (hends : ∀ e, ¬Ends e cs) (hclosed : AllEnded cs) :
    Paired cs := by
  match cs with
  | [] => exact .nil
  | c :: rest =>
    by_cases hend : kindOf c = some .blockEnd
    · exact absurd (Ends.prepend .nil hend) (hends c)
    by_cases hstart : kindOf c = some .blockStart
    · obtain ⟨e, he, inner, outer, hrest, hinner⟩ := hclosed [] c rest rfl hstart
      have hleft : ∀ e', ¬Ends e' outer := by
        rintro e' ⟨he', inner', rest', rfl, hinner'⟩
        apply hends e'
        rw [hrest, ← List.cons_append, ← List.cons_append, ← List.append_assoc, List.cons_append]
        exact .prepend (.block hstart hinner he hinner') he'
      have hright := paired_of_allEnded outer hleft (hrest ▸ hclosed.tail).right.tail
      rw [hrest]
      exact .block hstart hinner he hright
    · have hleft : ∀ e, ¬Ends e rest := by
        rintro e ⟨he, inner, rest, rfl, hinner⟩
        exact hends e (.prepend (.other hstart hend hinner) he)
      exact .other hstart hend (paired_of_allEnded rest hleft hclosed.tail)
termination_by cs.length
decreasing_by all_goals simp only [*, List.length_cons, List.length_append]; omega

/-! ## The search for an end -/

/-- The comment that ends a block, when `depth` blocks begun inside it are open. -/
def endFrom? : Nat → List Comment → Option Comment
  | _, [] => none
  | depth, c :: rest =>
    if kindOf c = some .blockStart then endFrom? (depth + 1) rest
    else if kindOf c = some .blockEnd then
      if depth = 0 then some c else endFrom? (depth - 1) rest
    else endFrom? depth rest

/-- A directive that begins a block opens one more. -/
theorem endFrom?_start (h : kindOf c = some .blockStart) :
    endFrom? depth (c :: rest) = endFrom? (depth + 1) rest := by
  rw [endFrom?, if_pos h]

/-- A directive that ends a block ends the one that the search is for. -/
theorem endFrom?_zero (h : kindOf c = some .blockEnd) : endFrom? 0 (c :: rest) = some c := by
  rw [endFrom?, h]
  rfl

/-- A directive that ends a block ends the one begun last. -/
theorem endFrom?_succ (h : kindOf c = some .blockEnd) : endFrom? (depth + 1) (c :: rest) = endFrom? depth rest := by
  rw [endFrom?, h]
  rfl

/-- Other comments are passed. -/
theorem endFrom?_other (hstart : kindOf c ≠ some .blockStart) (hend : kindOf c ≠ some .blockEnd) :
    endFrom? depth (c :: rest) = endFrom? depth rest := by
  rw [endFrom?, if_neg hstart, if_neg hend]

/-- Comments that pair are passed. -/
theorem Paired.endFrom? (h : Paired inner) (depth : Nat) (cs : List Comment) :
    endFrom? depth (inner ++ cs) = endFrom? depth cs := by
  induction h generalizing depth cs with
  | nil => rfl
  | other hstart hend _ ih => rw [List.cons_append, endFrom?_other hstart hend, ih]
  | block hstart _ hend _ ihinner ihrest =>
    rw [List.cons_append, List.append_assoc, List.cons_append, endFrom?_start hstart, ihinner,
      endFrom?_succ hend, ihrest]

/-- Without an end for the block in front of them, comments end no block around it. -/
theorem exists_ends_or (cs : List Comment) : (∃ e, Ends e cs) ∨ ∀ depth, endFrom? depth cs = none := by
  match cs with
  | [] => exact .inr fun _ => rfl
  | c :: rest =>
    by_cases hend : kindOf c = some .blockEnd
    · exact .inl ⟨c, .prepend .nil hend⟩
    by_cases hstart : kindOf c = some .blockStart
    · obtain ⟨e, he, inner, outer, hrest, hinner⟩ | hnone := exists_ends_or rest
      · have hbehind := exists_ends_or outer
        subst hrest
        obtain ⟨e', he', inner', rest', rfl, hinner'⟩ | hnone := hbehind
        · left
          refine ⟨e', ?_⟩
          rw [← List.cons_append, ← List.cons_append, ← List.append_assoc, List.cons_append]
          exact .prepend (.block hstart hinner he hinner') he'
        · right
          intro depth
          rw [endFrom?_start hstart, hinner.endFrom?, endFrom?_succ he, hnone]
      · exact .inr fun depth => (endFrom?_start hstart).trans (hnone _)
    · obtain ⟨e, he, inner, rest, rfl, hinner⟩ | hnone := exists_ends_or rest
      · exact .inl ⟨e, .prepend (.other hstart hend hinner) he⟩
      · exact .inr fun depth => (endFrom?_other hstart hend).trans (hnone _)
termination_by cs.length
decreasing_by all_goals simp only [*, List.length_cons, List.length_append]; omega

/-- The search from a start finds the end of its block. -/
theorem endFrom?_eq_some_iff : endFrom? 0 cs = some e ↔ Ends e cs := by
  have hfound {e : Comment} (h : Ends e cs) : endFrom? 0 cs = some e := by
    obtain ⟨hend, inner, rest, rfl, hinner⟩ := h
    rw [hinner.endFrom?, endFrom?_zero hend]
  constructor
  · intro h
    obtain ⟨e', he'⟩ | hnone := exists_ends_or cs
    · obtain rfl := Option.some.inj ((hfound he').symm.trans h)
      exact he'
    · rw [hnone] at h
      cases h
  · exact hfound

/-- What stands behind the end of a block has no part in it. -/
theorem Ends.append (h : Ends e inner) (cs : List Comment) : Ends e (inner ++ cs) := by
  obtain ⟨hend, front, rest, rfl, hfront⟩ := h
  rw [List.append_assoc, List.cons_append]
  exact .prepend hfront hend

/-! ## What comments declare -/

/-- The suppressions of comments, in their order: one for every directive but those that end blocks. -/
inductive Declared (path : String) (codeLines : List Nat) (lastLine : Int) :
    List Comment → List Suppression → Prop
  | nil : Declared path codeLines lastLine [] []
  | ordinary {c : Comment} {rest : List Comment} {suppressions : List Suppression}
      (hc : Directive.ofComment? c = none) (hrest : Declared path codeLines lastLine rest suppressions) :
      Declared path codeLines lastLine (c :: rest) suppressions
  | blockEnd {c : Comment} {rest : List Comment} {suppressions : List Suppression}
      (hc : kindOf c = some .blockEnd) (hrest : Declared path codeLines lastLine rest suppressions) :
      Declared path codeLines lastLine (c :: rest) suppressions
  | line {c : Comment} {d : Directive} {rest : List Comment} {suppressions : List Suppression}
      (hc : Directive.ofComment? c = some d) (hd : d.kind = .line)
      (hrest : Declared path codeLines lastLine rest suppressions) :
      Declared path codeLines lastLine (c :: rest)
        (d.suppression path c (lineOf codeLines c) (lineOf codeLines c) :: suppressions)
  | file {c : Comment} {d : Directive} {rest : List Comment} {suppressions : List Suppression}
      (hc : Directive.ofComment? c = some d) (hd : d.kind = .file)
      (hrest : Declared path codeLines lastLine rest suppressions) :
      Declared path codeLines lastLine (c :: rest) (d.suppression path c 1 endOfFile :: suppressions)
  | ended {c e : Comment} {d : Directive} {rest : List Comment} {suppressions : List Suppression}
      (hc : Directive.ofComment? c = some d) (hd : d.kind = .blockStart) (he : Ends e rest)
      (hrest : Declared path codeLines lastLine rest suppressions) :
      Declared path codeLines lastLine (c :: rest) (d.suppression path c c.pos.line e.pos.line :: suppressions)
  | unended {c : Comment} {d : Directive} {rest : List Comment} {suppressions : List Suppression}
      (hc : Directive.ofComment? c = some d) (hd : d.kind = .blockStart) (hends : ∀ e, ¬Ends e rest)
      (hrest : Declared path codeLines lastLine rest suppressions) :
      Declared path codeLines lastLine (c :: rest) (d.suppression path c c.pos.line lastLine :: suppressions)

/-- The last line of a block in front of comments, when `depth` blocks begun inside it are open. -/
def lastFrom (lastLine : Int) (depth : Nat) (after : List Comment) : Int :=
  ((endFrom? depth after).map fun e => (e.pos.line : Int)).getD lastLine

/-- A block that is ended reaches to its end. -/
theorem lastFrom_of_ends (h : Ends e cs) : lastFrom lastLine 0 cs = e.pos.line := by
  rw [lastFrom, endFrom?_eq_some_iff.mpr h]
  rfl

/-- A block that nothing ends reaches to the last line. -/
theorem lastFrom_of_not_ends (h : ∀ e, ¬Ends e cs) : lastFrom lastLine 0 cs = lastLine := by
  have hnone : endFrom? 0 cs = none :=
    Option.eq_none_iff_forall_ne_some.mpr fun e he => h e (endFrom?_eq_some_iff.mp he)
  rw [lastFrom, hnone]
  rfl

/-- The suppression that a comment declares. -/
def declaration (path : String) (codeLines : List Nat) (lastLine : Int) (c : Comment) (after : List Comment) :
    Option Suppression :=
  (Directive.ofComment? c).bind fun d => match d.kind with
    | .blockEnd => none
    | .blockStart => some (d.suppression path c c.pos.line (lastFrom lastLine 0 after))
    | .file => some (d.suppression path c 1 endOfFile)
    | .line => some (d.suppression path c (lineOf codeLines c) (lineOf codeLines c))

/-- The suppressions that comments declare. -/
def declarations (path : String) (codeLines : List Nat) (lastLine : Int) : List Comment → List Suppression
  | [] => []
  | c :: rest =>
    (declaration path codeLines lastLine c rest).toList ++ declarations path codeLines lastLine rest

/-- What the comments declare is what a search from each start gives. -/
theorem declared_declarations (cs : List Comment) :
    Declared path codeLines lastLine cs (declarations path codeLines lastLine cs) := by
  induction cs with
  | nil => exact .nil
  | cons c rest ih =>
    rw [declarations, declaration]
    cases hc : Directive.ofComment? c with
    | none => exact .ordinary hc ih
    | some d =>
      rw [Option.bind_some]
      cases hd : d.kind with
      | line => exact .line hc hd ih
      | file => exact .file hc hd ih
      | blockEnd => exact .blockEnd ((kindOf_eq hc).trans (congrArg some hd)) ih
      | blockStart =>
        by_cases hends : ∃ e, Ends e rest
        · obtain ⟨e, he⟩ := hends
          rw [lastFrom_of_ends he]
          exact .ended hc hd he ih
        · rw [not_exists] at hends
          rw [lastFrom_of_not_ends hends]
          exact .unended hc hd hends ih

/-- The suppressions of open blocks, the latest first, in front of comments. -/
def pending (path : String) (lastLine : Int) :
    Nat → List (Comment × Directive) → List Comment → List Suppression
  | _, [], _ => []
  | depth, (c, d) :: outer, after =>
    d.suppression path c c.pos.line (lastFrom lastLine depth after) :: pending path lastLine (depth + 1) outer after

/-- Comments that keep every search behind them keep the open blocks. -/
theorem pending_congr (h : ∀ depth, endFrom? depth cs = endFrom? depth after) :
    pending path lastLine depth openBlocks cs = pending path lastLine depth openBlocks after := by
  induction openBlocks generalizing depth with
  | nil => rfl
  | cons block outer ih => rw [pending, pending, ih, lastFrom, lastFrom, h]

/-- Behind one more start the search for the ends of the open blocks goes on one level further out. -/
theorem pending_start (h : kindOf c = some .blockStart) :
    pending path lastLine depth openBlocks (c :: rest) = pending path lastLine (depth + 1) openBlocks rest := by
  induction openBlocks generalizing depth with
  | nil => rfl
  | cons block outer ih => rw [pending, pending, ih, lastFrom, lastFrom, endFrom?_start h]

/-- Behind an end the search goes on one level further in. -/
theorem pending_end (h : kindOf c = some .blockEnd) :
    pending path lastLine (depth + 1) openBlocks (c :: rest) = pending path lastLine depth openBlocks rest := by
  induction openBlocks generalizing depth with
  | nil => rfl
  | cons block outer ih => rw [pending, pending, ih, lastFrom, lastFrom, endFrom?_succ h]

/-- Blocks that nothing ends reach to the last line. -/
theorem suppressions_ofOpenBlocks : (ofOpenBlocks path lastLine openBlocks).suppressions =
    openBlocks.map fun b => b.2.suppression path b.1 b.1.pos.line lastLine := by
  induction openBlocks with
  | nil => rfl
  | cons block rest ih => exact congrArg (_ :: ·) ih

/-- At the end of the comments every open block reaches to the last line. -/
theorem pending_nil : pending path lastLine depth openBlocks [] =
    openBlocks.map fun b => b.2.suppression path b.1 b.1.pos.line lastLine := by
  induction openBlocks generalizing depth with
  | nil => rfl
  | cons block outer ih => exact congrArg (_ :: ·) ih

/-- An ordinary comment declares nothing. -/
theorem scan_cons_none (hc : Directive.ofComment? c = none) :
    scan path codeLines lastLine openBlocks (c :: rest) = scan path codeLines lastLine openBlocks rest := by
  conv_lhs => unfold scan
  simp only [hc]

/-- A directive for the file makes its suppression. -/
theorem scan_cons_file (hc : Directive.ofComment? c = some d) (hd : d.kind = .file) :
    scan path codeLines lastLine openBlocks (c :: rest) =
      (scan path codeLines lastLine openBlocks rest).add (d.suppression path c 1 endOfFile) := by
  conv_lhs => unfold scan
  simp only [hc, hd]

/-- A directive that begins a block leaves it open. -/
theorem scan_cons_start (hc : Directive.ofComment? c = some d) (hd : d.kind = .blockStart) :
    scan path codeLines lastLine openBlocks (c :: rest) =
      scan path codeLines lastLine ((c, d) :: openBlocks) rest := by
  conv_lhs => unfold scan
  simp only [hc, hd]

/-- A directive that ends a block is for the one begun last, and for none when there is none. -/
theorem suppressions_scan_end (h : kindOf c = some .blockEnd) :
    (scan path codeLines lastLine openBlocks (c :: rest)).suppressions =
      (openBlocks.head?.map fun b => b.2.suppression path b.1 b.1.pos.line c.pos.line).toList ++
        (scan path codeLines lastLine openBlocks.tail rest).suppressions := by
  obtain ⟨d, hc, hd⟩ := Option.map_eq_some_iff.mp h
  conv_lhs => unfold scan
  simp only [hc, hd]
  cases openBlocks <;> rfl

/-- The scan gives what the comments declare, and closes the blocks that were open before them. -/
theorem scan_perm (cs : List Comment) (openBlocks : List (Comment × Directive)) :
    (scan path codeLines lastLine openBlocks cs).suppressions.Perm
      (declarations path codeLines lastLine cs ++ pending path lastLine 0 openBlocks cs) := by
  induction cs generalizing openBlocks with
  | nil =>
    rw [scan, suppressions_ofOpenBlocks, pending_nil, List.map_reverse]
    exact List.reverse_perm _
  | cons c rest ih =>
    have hpassed (hstart : kindOf c ≠ some .blockStart) (hend : kindOf c ≠ some .blockEnd) :
        pending path lastLine 0 openBlocks (c :: rest) = pending path lastLine 0 openBlocks rest :=
      pending_congr fun _ => endFrom?_other hstart hend
    cases hc : Directive.ofComment? c with
    | none =>
      have hkind : kindOf c = none := by rw [kindOf, hc, Option.map_none]
      rw [scan_cons_none hc, declarations, declaration, hc, hpassed (by simp [hkind]) (by simp [hkind])]
      exact ih openBlocks
    | some d =>
      have hkind := kindOf_eq hc
      rw [declarations, declaration, hc, Option.bind_some]
      cases hd : d.kind with
      | line =>
        rw [scan_cons_line hc hd, hpassed (by simp [hkind, hd]) (by simp [hkind, hd])]
        exact (ih openBlocks).cons _
      | file =>
        rw [scan_cons_file hc hd, hpassed (by simp [hkind, hd]) (by simp [hkind, hd])]
        exact (ih openBlocks).cons _
      | blockStart =>
        rw [scan_cons_start hc hd, pending_start (hkind.trans (congrArg some hd))]
        exact (ih _).trans List.perm_middle
      | blockEnd =>
        have hend : kindOf c = some .blockEnd := hkind.trans (congrArg some hd)
        rw [suppressions_scan_end hend]
        cases openBlocks with
        | nil => exact ih []
        | cons block outer =>
          have hhere : Ends c (c :: rest) := .prepend .nil hend
          rw [pending, lastFrom_of_ends hhere, pending_end hend]
          exact ((ih outer).cons _).trans List.perm_middle.symm

/-! ## Order -/

/-- A declaration is placed at its comment. -/
theorem place_of_mem_declaration {s : Suppression} (h : s ∈ declaration path codeLines lastLine c rest) :
    s.line = c.pos.line ∧ s.col = c.pos.col := by
  obtain ⟨d, -, hs⟩ := Option.bind_eq_some_iff.mp h
  split at hs
  · cases hs
  all_goals
    obtain rfl := Option.some.inj hs
    exact ⟨rfl, rfl⟩

/-- What is declared is placed at a comment. -/
theorem exists_of_mem_declarations {s : Suppression} (h : s ∈ declarations path codeLines lastLine cs) :
    ∃ c ∈ cs, s.line = c.pos.line ∧ s.col = c.pos.col := by
  induction cs with
  | nil => cases h
  | cons c rest ih =>
    obtain h | h := List.mem_append.mp h
    · exact ⟨c, List.mem_cons_self, place_of_mem_declaration (Option.mem_toList.mp h)⟩
    · obtain ⟨e, he, hplace⟩ := ih h
      exact ⟨e, List.mem_cons_of_mem _ he, hplace⟩

/-- One suppression is declared at or before another by line, then by column. -/
theorem declaredBefore_iff {a b : Suppression} :
    declaredBefore a b = true ↔ a.line < b.line ∨ (a.line = b.line ∧ a.col ≤ b.col) := by
  rw [declaredBefore, compareLex, Ordering.isLE_then_iff_or, compareOn, compareOn, Std.compare_eq_iff_eq,
    Std.isLE_compare, Int.compare_eq_lt]

/-- What comments in order declare is in order, and no two are declared at one place. -/
theorem declarations_pairwise (h : cs.Pairwise fun a b => a.pos.before b.pos = true) :
    (declarations path codeLines lastLine cs).Pairwise fun a b =>
      declaredBefore a b = true ∧ ¬declaredBefore b a = true := by
  induction cs with
  | nil => exact .nil
  | cons c rest ih =>
    rw [List.pairwise_cons] at h
    apply List.pairwise_append.mpr
    refine ⟨?_, ih h.2, ?_⟩
    · cases declaration path codeLines lastLine c rest <;> simp
    · intro a ha b hb
      obtain ⟨hline, hcol⟩ := place_of_mem_declaration (Option.mem_toList.mp ha)
      obtain ⟨e, he, heline, hecol⟩ := exists_of_mem_declarations hb
      have hbefore := Position.before_iff.mp (h.1 e he)
      rw [declaredBefore_iff, declaredBefore_iff]
      omega

/-- The suppressions are sorted by their declaration. -/
theorem ofComments_pairwise :
    (ofComments path codeLines lastLine comments).suppressions.Pairwise fun a b => declaredBefore a b = true := by
  apply List.pairwise_mergeSort
  · intro a b c
    rw [declaredBefore_iff, declaredBefore_iff, declaredBefore_iff]
    omega
  · intro a b
    rw [Bool.or_eq_true, declaredBefore_iff, declaredBefore_iff]
    omega

/-- The suppressions of comments in order are what they declare one by one. -/
theorem suppressions_ofComments (h : comments.Pairwise fun a b => a.pos.before b.pos = true) :
    (ofComments path codeLines lastLine comments).suppressions =
      declarations path (codeLines.mergeSort (· ≤ ·)) lastLine comments := by
  have hstrict : (declarations path (codeLines.mergeSort (· ≤ ·)) lastLine comments).Pairwise fun a b =>
      declaredBefore a b = true ∧ ¬declaredBefore b a = true := declarations_pairwise h
  have hperm : (ofComments path codeLines lastLine comments).suppressions.Perm
      (declarations path (codeLines.mergeSort (· ≤ ·)) lastLine comments) := by
    have hscan : (scan path (codeLines.mergeSort (· ≤ ·)) lastLine [] comments).suppressions.Perm _ :=
      scan_perm comments []
    rw [pending, List.append_nil] at hscan
    exact (List.mergeSort_perm _ _).trans hscan
  have hsymm : Std.Symm fun a b : Suppression => ¬(declaredBefore a b = true ∧ declaredBefore b a = true) :=
    ⟨fun a b hnot both => hnot both.symm⟩
  apply List.Perm.eq_of_pairwise _ ofComments_pairwise (hstrict.imp And.left) hperm
  intro a b ha hb hab hba
  by_contra hne
  have hdistinct : (declarations path (codeLines.mergeSort (· ≤ ·)) lastLine comments).Pairwise fun a b =>
      ¬(declaredBefore a b = true ∧ declaredBefore b a = true) := hstrict.imp fun hab both => hab.2 both.2
  exact hdistinct.forall (hperm.mem_iff.mp ha) hb hne ⟨hab, hba⟩

/-! ## The ends of blocks -/

/-- A comment among others makes the suppression that it declares in front of those behind it. -/
theorem mem_declarations {s : Suppression} (h : declaration path codeLines lastLine c rest = some s) :
    s ∈ declarations path codeLines lastLine (before ++ c :: rest) := by
  induction before with
  | nil => exact List.mem_append_left _ (Option.mem_toList.mpr h)
  | cons first before ih => exact List.mem_append_right _ ih

/-- What stands behind the end of its block does not change what a comment declares. -/
theorem declaration_append (h : kindOf c = some .blockStart → ∃ e, Ends e inner) (cs after : List Comment) :
    declaration path codeLines lastLine c (inner ++ cs) =
      declaration path codeLines lastLine c (inner ++ after) := by
  unfold declaration
  cases hc : Directive.ofComment? c with
  | none => rfl
  | some d =>
    rw [Option.bind_some, Option.bind_some]
    cases hd : d.kind with
    | line => rfl
    | file => rfl
    | blockEnd => rfl
    | blockStart =>
      obtain ⟨e, he⟩ := h ((kindOf_eq hc).trans (congrArg some hd))
      rw [lastFrom_of_ends (he.append cs), lastFrom_of_ends (he.append after)]

/-- An end with no open block declares nothing and changes no block. -/
theorem declarations_stray (hclosed : AllEnded before) (hend : kindOf e = some .blockEnd) :
    declarations path codeLines lastLine (before ++ e :: after) =
      declarations path codeLines lastLine (before ++ after) := by
  induction before with
  | nil =>
    obtain ⟨d, hc, hd⟩ := Option.map_eq_some_iff.mp hend
    rw [List.nil_append, List.nil_append, declarations, declaration, hc, Option.bind_some, hd]
    rfl
  | cons c before ih =>
    rw [List.cons_append, List.cons_append, declarations, declarations, ih hclosed.tail,
      declaration_append (hclosed [] c before rfl) (e :: after) after]

/-- The ranges of lines that comments in order declare are not empty. -/
theorem Declared.first_le_last (h : Declared path codeLines lastLine comments suppressions)
    (hordered : comments.Pairwise fun a b => a.pos.before b.pos = true)
    (hlast : ∀ c ∈ comments, (c.pos.line : Int) ≤ lastLine) {s : Suppression} (hs : s ∈ suppressions) :
    s.first ≤ s.last := by
  induction h with
  | nil => cases hs
  | ordinary _ _ ih => exact ih hordered.tail (fun c hc => hlast c (List.mem_cons_of_mem _ hc)) hs
  | blockEnd _ _ ih => exact ih hordered.tail (fun c hc => hlast c (List.mem_cons_of_mem _ hc)) hs
  | line _ _ _ ih =>
    obtain rfl | hs := List.mem_cons.mp hs
    · exact Int.le_refl _
    · exact ih hordered.tail (fun c hc => hlast c (List.mem_cons_of_mem _ hc)) hs
  | file _ _ _ ih =>
    obtain rfl | hs := List.mem_cons.mp hs
    · exact (by decide : (1 : Int) ≤ endOfFile)
    · exact ih hordered.tail (fun c hc => hlast c (List.mem_cons_of_mem _ hc)) hs
  | @ended c e _ _ _ _ _ he _ ih =>
    obtain rfl | hs := List.mem_cons.mp hs
    · obtain ⟨-, inner, rest, rfl, -⟩ := he
      have hbefore := Position.before_iff.mp ((List.pairwise_cons.mp hordered).1 e (by simp))
      have hle : c.pos.line ≤ e.pos.line := by omega
      exact Int.ofNat_le.mpr hle
    · exact ih hordered.tail (fun c hc => hlast c (List.mem_cons_of_mem _ hc)) hs
  | unended _ _ _ _ ih =>
    obtain rfl | hs := List.mem_cons.mp hs
    · exact hlast _ List.mem_cons_self
    · exact ih hordered.tail (fun c hc => hlast c (List.mem_cons_of_mem _ hc)) hs

/-- The directives for blocks pair like brackets. Of comments in order every directive but those that end blocks
makes one suppression, in the order of the comments. A directive that ends a block is for the block begun last that
is still open, and when none is open it changes nothing. -/
theorem ofComments_pairsBlocks (path : String) (codeLines : List Nat) (lastLine : Int) (comments : List Comment)
    (hordered : comments.Pairwise fun a b => a.pos.before b.pos = true) :
    let found := (ofComments path codeLines lastLine comments).suppressions
    Declared path (codeLines.mergeSort (· ≤ ·)) lastLine comments found ∧
      found.Pairwise (fun a b => declaredBefore a b = true) ∧
      ((∀ c ∈ comments, (c.pos.line : Int) ≤ lastLine) → ∀ s ∈ found, s.first ≤ s.last) ∧
      ∀ before e after, comments = before ++ e :: after → kindOf e = some .blockEnd →
        (∀ outer start inner d, before = outer ++ start :: inner → Directive.ofComment? start = some d →
          d.kind = .blockStart → (∀ e', ¬Ends e' inner) → AllEnded inner →
          d.suppression path start start.pos.line e.pos.line ∈ found) ∧
        (AllEnded before → found = (ofComments path codeLines lastLine (before ++ after)).suppressions) := by
  intro found
  have hfound : found = declarations path (codeLines.mergeSort (· ≤ ·)) lastLine comments :=
    suppressions_ofComments hordered
  have hdeclared : Declared path (codeLines.mergeSort (· ≤ ·)) lastLine comments _ :=
    declared_declarations comments
  rw [← hfound] at hdeclared
  refine ⟨hdeclared, ofComments_pairwise, fun hlast s hs => hdeclared.first_le_last hordered hlast hs, ?_⟩
  rintro before e after rfl hend
  constructor
  · rintro outer start inner d rfl hstart hd hopen hclosed
    have hpaired : Ends e (inner ++ e :: after) := .prepend (paired_of_allEnded inner hopen hclosed) hend
    rw [hfound, List.append_assoc, List.cons_append]
    apply mem_declarations
    rw [declaration, hstart, Option.bind_some, hd, lastFrom_of_ends hpaired]
  · intro hclosed
    have hsub : (before ++ after).Sublist (before ++ e :: after) :=
      (List.sublist_cons_self e after).append_left before
    rw [hfound, suppressions_ofComments (hordered.sublist hsub), declarations_stray hclosed hend]

/-- A block in a block, an end too many and a block left open. -/
theorem ofComments_pairsBlocks_nested :
    let comments : List Comment := [⟨"//gostyle:ignore-start a: outer", ⟨1, 1⟩, 1, false⟩,
      ⟨"//gostyle:ignore-start b: inner", ⟨2, 1⟩, 2, false⟩, ⟨"// text", ⟨3, 1⟩, 3, false⟩,
      ⟨"//gostyle:ignore-end", ⟨4, 1⟩, 4, false⟩, ⟨"//gostyle:ignore-end", ⟨6, 1⟩, 6, false⟩,
      ⟨"//gostyle:ignore-end", ⟨7, 1⟩, 7, false⟩,
      ⟨"//gostyle:ignore-start c: open", ⟨8, 5⟩, 8, true⟩]
    comments.Pairwise (fun a b => a.pos.before b.pos = true) ∧
      Declared "p.go" [] 9 comments
        [⟨["a"], "p.go", 1, 6, "outer", 1, 1, .comment⟩, ⟨["b"], "p.go", 2, 4, "inner", 2, 1, .comment⟩,
          ⟨["c"], "p.go", 8, 9, "open", 8, 5, .comment⟩] := by
  intro comments
  have hordered : comments.Pairwise fun a b => a.pos.before b.pos = true := by decide
  have hdeclared := (ofComments_pairsBlocks "p.go" [] 9 comments hordered).1
  have hfound : (ofComments "p.go" [] 9 comments).suppressions =
      [⟨["a"], "p.go", 1, 6, "outer", 1, 1, .comment⟩, ⟨["b"], "p.go", 2, 4, "inner", 2, 1, .comment⟩,
        ⟨["c"], "p.go", 8, 9, "open", 8, 5, .comment⟩] := by
    rw [suppressions_ofComments hordered]
    decide +kernel
  rw [hfound, List.mergeSort_nil] at hdeclared
  exact ⟨hordered, hdeclared⟩

end Suppression

end GoIdiom
