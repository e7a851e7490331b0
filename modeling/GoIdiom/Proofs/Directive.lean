import GoIdiom.Linter
import Mathlib.Data.List.TakeDrop
import Mathlib.Data.List.TakeWhile

/-!
# A directive for one line

A directive that names one rule and gives a reason is read back from its text. It adds one suppression to
those of the other comments, which is for findings of the rule in its line.
-/

namespace GoIdiom

namespace Text

/-- Trimming leaves nothing exactly of a blank text. -/
theorem trim_eq_empty_iff (s : String) : trim s = "" ↔ ∀ c ∈ s.toList, isBlank c = true := by
  rw [trim, String.ofList_eq_empty_iff, stripChars, trimRightChars, trimLeftChars, List.reverse_eq_nil_iff,
    List.dropWhile_eq_nil_iff]
  simp only [List.mem_reverse]
  constructor
  · intro h c hc
    rw [← List.takeWhile_append_dropWhile (p := isBlank) (l := s.toList), List.mem_append] at hc
    exact hc.elim (fun hc => List.mem_takeWhile_imp hc) (h c)
  · exact fun h c hc => h c ((List.dropWhile_sublist _).subset hc)

/-- Of a text that is not blank something is left. -/
theorem trim_ne_empty {cs : List Char} (h : ∃ c ∈ cs, isBlank c = false) (more : List Char) :
    trim (String.ofList (cs ++ more)) ≠ "" := by
  intro hempty
  rw [trim_eq_empty_iff, String.toList_ofList] at hempty
  obtain ⟨c, hc, hblank⟩ := h
  have hblank' := hempty c (List.mem_append_left _ hc)
  exact Bool.false_ne_true (hblank.symm.trans hblank')

/-- A blank in front of a text is trimmed. -/
theorem trim_blank_cons (cs : List Char) : trim (String.ofList (' ' :: cs)) = trim (String.ofList cs) := by
  rw [trim, trim, String.toList_ofList, String.toList_ofList, stripChars, stripChars, trimLeftChars,
    List.dropWhile_cons_of_pos rfl, ← trimLeftChars]

/-- Without a separator there is one piece. -/
theorem splitChars_of_not_mem {separator : Char} {cs : List Char} (h : separator ∉ cs) :
    splitChars separator cs = [cs] := by
  induction cs with
  | nil => rfl
  | cons c rest ih =>
    rw [List.mem_cons, not_or] at h
    rw [splitChars, if_neg (Ne.symm h.1), ih h.2]

/-- There is always a piece. -/
theorem splitChars_ne_nil {separator : Char} (cs : List Char) : splitChars separator cs ≠ [] := by
  cases cs with
  | nil => exact List.cons_ne_nil _ _
  | cons c rest =>
    rw [splitChars]
    split
    · exact List.cons_ne_nil _ _
    · split <;> exact List.cons_ne_nil _ _

/-- At a separator a text falls apart into the pieces before and behind it. -/
theorem splitChars_append_separator {separator : Char} (front back : List Char) :
    splitChars separator (front ++ separator :: back) =
      splitChars separator front ++ splitChars separator back := by
  induction front with
  | nil =>
    rw [List.nil_append, splitChars.eq_2, if_pos rfl]
    rfl
  | cons c rest ih =>
    rw [List.cons_append, splitChars, splitChars, ih]
    split
    · rw [List.cons_append]
    · cases hrest : splitChars separator rest with
      | nil => exact absurd hrest (splitChars_ne_nil rest)
      | cons piece pieces => rfl

/-- The pieces between separators have none. -/
theorem not_mem_of_mem_splitChars {separator : Char} {cs : List Char} :
    ∀ piece ∈ splitChars separator cs, separator ∉ piece := by
  induction cs with
  | nil => exact List.forall_mem_singleton.mpr List.not_mem_nil
  | cons c rest ih =>
    rw [splitChars]
    split
    · exact List.forall_mem_cons.mpr ⟨List.not_mem_nil, ih⟩
    · next hc =>
      split
      · exact List.forall_mem_singleton.mpr (List.not_mem_cons_of_ne_of_not_mem (Ne.symm hc) List.not_mem_nil)
      · next piece pieces hpieces =>
        rw [hpieces] at ih
        obtain ⟨hpiece, hmore⟩ := List.forall_mem_cons.mp ih
        exact List.forall_mem_cons.mpr ⟨List.not_mem_cons_of_ne_of_not_mem (Ne.symm hc) hpiece, hmore⟩

/-- A text is cut at the first separator. -/
theorem cutFirst_append {separator : Char} {before : List Char} (h : separator ∉ before) (after : List Char) :
    cutFirst (String.ofList (before ++ separator :: after)) separator =
      some (String.ofList before, String.ofList after) := by
  have hbefore : ∀ c ∈ before, (c != separator) = true := by
    intro c hc
    rw [bne_iff_ne]
    exact fun heq => h (heq ▸ hc)
  have hneg : ¬(separator != separator) = true := by rw [bne_self_eq_false]; exact Bool.false_ne_true
  rw [cutFirst, String.toList_ofList, List.span_eq_takeWhile_dropWhile, List.takeWhile_append_of_pos hbefore,
    List.dropWhile_append_of_pos hbefore, List.takeWhile_cons_of_neg (p := (· != separator)) hneg,
    List.dropWhile_cons_of_neg (p := (· != separator)) hneg, List.append_nil]

end Text

/-- What can stand for the name of a single rule in a directive. -/
structure Directive.IsRuleName (r : String) : Prop where
  trimmed : Text.trim r = r
  given : r ≠ ""
  single : r ≠ Suppression.wildcard
  comma : ',' ∉ r.toList
  colon : ':' ∉ r.toList
  lineFeed : '\n' ∉ r.toList

namespace Directive

variable {r : String}

/-- The text of a directive that exempts a line from a rule. -/
def lineText (r why : String) : String := " gostyle:ignore " ++ r ++ ": " ++ why

/-- Without a comma a name is the only one. -/
theorem ruleNames_of_isRuleName (h : IsRuleName r) : ruleNames (String.ofList (' ' :: r.toList)) = [r] := by
  have hcomma : ',' ∉ ' ' :: r.toList := by
    rw [List.mem_cons, not_or]
    exact ⟨by decide, h.comma⟩
  rw [ruleNames, Text.splitOn, String.toList_ofList, Text.splitChars_of_not_mem hcomma, List.map_singleton,
    List.map_singleton, Text.trim_blank_cons, String.ofList_toList, h.trimmed]
  exact List.filter_cons_of_pos (bne_iff_ne.mpr h.given)

/-- The characters of the text, with others behind them. -/
theorem toList_lineText (r why : String) (cs : List Char) : (lineText r why).toList ++ cs =
    " gostyle:ignore ".toList ++ (r.toList ++ ':' :: ' ' :: (why.toList ++ cs)) := by
  have hcolon : ": ".toList = [':', ' '] := rfl
  unfold lineText
  simp only [String.toList_append, hcolon, List.append_assoc, List.cons_append, List.nil_append]

/-- The text stays in its line. -/
theorem lineFeed_not_mem_lineText (h : IsRuleName r) {why : String} (hwhy : '\n' ∉ why.toList) :
    '\n' ∉ (lineText r why).toList := by
  unfold lineText
  simp only [String.toList_append, List.mem_append, not_or]
  exact ⟨⟨⟨by decide, h.lineFeed⟩, by decide⟩, hwhy⟩

/-- A directive for a line is read back from its text, with blanks behind it or without. -/
theorem ofBody?_lineText (h : IsRuleName r) (why : String) (blanks : List Char) :
    ofBody? (String.ofList ((lineText r why).toList ++ blanks)) =
      some ⟨.line, [r], Text.trim (String.ofList (why.toList ++ blanks))⟩ := by
  have hbody (cs : List Char) : ofBody? (String.ofList (" gostyle:ignore ".toList ++ cs)) =
      some (ofRest .line (String.ofList (' ' :: cs))) := by
    rw [ofBody?, String.toList_ofList]
    rfl
  have hcolon : ':' ∉ ' ' :: r.toList := by
    rw [List.mem_cons, not_or]
    exact ⟨by decide, h.colon⟩
  rw [toList_lineText, hbody, ofRest, ← List.cons_append, Text.cutFirst_append hcolon, Option.getD_some]
  dsimp only
  rw [ruleNames_of_isRuleName h, Text.trim_blank_cons]
  rfl

end Directive

namespace Suppression

variable {path : String} {codeLines : List Nat} {lastLine : Int} {c : Comment} {d : Directive}

/-- The line that a directive for a line is for. -/
def lineOf (codeLines : List Nat) (c : Comment) : Int :=
  if c.trailing then (c.pos.line : Int) else targetLine codeLines c

/-- A comment with a directive for a line makes its suppression and leaves the other comments alone. -/
theorem scan_cons_line (hc : Directive.ofComment? c = some d) (hd : d.kind = .line)
    (openBlocks : List (Comment × Directive)) (rest : List Comment) :
    scan path codeLines lastLine openBlocks (c :: rest) =
      (scan path codeLines lastLine openBlocks rest).add
        (d.suppression path c (lineOf codeLines c) (lineOf codeLines c)) := by
  conv_lhs => unfold scan
  simp only [hc, hd, lineOf]

/-- A directive for a line adds one suppression to those of the comments around it. -/
theorem scan_insert (hc : Directive.ofComment? c = some d) (hd : d.kind = .line)
    (openBlocks : List (Comment × Directive)) (before after : List Comment) :
    (scan path codeLines lastLine openBlocks (before ++ c :: after)).suppressions.Perm
      (d.suppression path c (lineOf codeLines c) (lineOf codeLines c) ::
        (scan path codeLines lastLine openBlocks (before ++ after)).suppressions) := by
  induction before generalizing openBlocks with
  | nil =>
    rw [List.nil_append, List.nil_append, scan_cons_line hc hd]
    exact List.Perm.refl _
  | cons first more ih =>
    rw [List.cons_append, List.cons_append]
    unfold scan
    cases Directive.ofComment? first with
    | none => exact ih openBlocks
    | some e =>
      dsimp only
      cases e.kind with
      | blockStart => exact ih _
      | file => exact ((ih openBlocks).cons _).trans (List.Perm.swap ..)
      | line => exact ((ih openBlocks).cons _).trans (List.Perm.swap ..)
      | blockEnd =>
        cases openBlocks with
        | nil => exact ih []
        | cons inner outer => exact ((ih outer).cons _).trans (List.Perm.swap ..)

/-- The suppressions of all comments with a directive for a line among them. -/
theorem ofComments_insert (hc : Directive.ofComment? c = some d) (hd : d.kind = .line)
    (before after : List Comment) :
    let line := lineOf (codeLines.mergeSort (· ≤ ·)) c
    (ofComments path codeLines lastLine (before ++ c :: after)).suppressions.Perm
      (d.suppression path c line line :: (ofComments path codeLines lastLine (before ++ after)).suppressions) := by
  intro line
  have hscan :
      (scan path (codeLines.mergeSort (· ≤ ·)) lastLine [] (before ++ c :: after)).suppressions.Perm _ :=
    scan_insert hc hd [] before after
  exact ((List.mergeSort_perm _ _).trans hscan).trans ((List.mergeSort_perm _ _).symm.cons _)

end Suppression

/-- The suppressions of a file with a directive for a line among its comments. -/
theorem Linter.suppressions_insert {c : Comment} {d : Directive} (l : Linter) (file : SourceFile)
    (hc : Directive.ofComment? c = some d) (hd : d.kind = .line) {before after : List Comment}
    (hfile : file.comments = before ++ after) :
    let line := Suppression.lineOf (file.codeLines.mergeSort (· ≤ ·)) c
    (l.suppressions { file with comments := before ++ c :: after }).suppressions.Perm
      (d.suppression file.path c line line :: (l.suppressions file).suppressions) := by
  intro line
  rw [suppressions, suppressions, hfile]
  exact (Suppression.ofComments_insert hc hd before after).append_right _

end GoIdiom
