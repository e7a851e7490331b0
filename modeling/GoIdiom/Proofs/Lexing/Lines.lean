import GoIdiom.Proofs.Lexing.Positions
import GoIdiom.SourceFile

/-!
# Lines that tokens and comments stand in

Every token and every comment stands in a line of its text. The places that are reported never run ahead of the
text, where line feeds between quotes are not counted; and where the end of the text inserts a semicolon, no line
feed precedes it, so that it stands in the last line.
-/

namespace GoIdiom

/-- A place in one of the first `n` lines. -/
structure Position.InLines (n : Nat) (p : Position) : Prop where
  first : 1 ≤ p.line
  last : p.line ≤ n
  column : 1 ≤ p.col

/-- A text that something follows, or that does not end a line, has all its line feeds in earlier lines. -/
theorem SourceFile.count_lt_countLines {front back : List Char}
    (h : back ≠ [] ∨ front.getLast? ≠ some '\n' ∧ front ≠ []) :
    front.count '\n' < countLines (front ++ back) := by
  rw [countLines, List.count_append]
  by_cases hback : back = []
  · obtain ⟨hfeed, hfront⟩ := h.resolve_left (not_not_intro hback)
    rw [List.getLast?_eq_some_getLast hfront] at hfeed
    rw [hback, List.append_nil, List.getLast?_eq_some_getLast hfront, Option.any_some,
      if_pos (bne_iff_ne.mpr fun hlast => hfeed (congrArg some hlast))]
    exact Nat.lt_succ_self _
  · rw [List.getLast?_append, List.getLast?_eq_some_getLast hback, Option.some_or, Option.any_some]
    by_cases hfeed : back.getLast hback = '\n'
    · have hcount : 0 < back.count '\n' := List.count_pos_iff.mpr (hfeed ▸ List.getLast_mem hback)
      omega
    · rw [if_pos (bne_iff_ne.mpr hfeed)]
      omega

/-- Going over a text stays behind the beginning. -/
theorem Position.one_le_after {pos : Position} (hline : 1 ≤ pos.line) (hcol : 1 ≤ pos.col) (cs : List Char) :
    1 ≤ (pos.after cs).line ∧ 1 ≤ (pos.after cs).col := by
  induction cs generalizing pos with
  | nil => exact ⟨hline, hcol⟩
  | cons c rest ih =>
    rw [after]
    split
    · exact ih (Nat.le_add_left 1 pos.line) (Nat.le_refl 1)
    · exact ih hline (Nat.le_add_left 1 pos.col)

namespace Lexeme

/-- Pieces end behind the beginning of the text. -/
theorem one_le_endOf (ls : List Lexeme) {pos : Position} (hline : 1 ≤ pos.line) (hcol : 1 ≤ pos.col) :
    1 ≤ (endOf pos ls).line ∧ 1 ≤ (endOf pos ls).col := by
  induction ls generalizing pos with
  | nil => exact ⟨hline, hcol⟩
  | cons l rest ih =>
    have hright : 1 ≤ (pos.right l.chars.length).line ∧ 1 ≤ (pos.right l.chars.length).col :=
      ⟨hline, Nat.le_add_right_of_le hcol⟩
    have hafter := Position.one_le_after hline hcol l.chars
    have hend : 1 ≤ (l.endPos pos).line ∧ 1 ≤ (l.endPos pos).col := by
      rw [endPos]
      split
      · exact hafter
      · exact hafter
      · split
        · exact hafter
        · exact hright
      · exact hright
    exact ih hend.1 hend.2

/-- Pieces of a text end in one of its lines when a piece follows, or when the last one does not end with a line
feed. -/
theorem inLines_endOf {cs : List Char} {front back : List Lexeme} (h : scan cs = (front ++ back, none))
    (hends : back ≠ [] ∨ ∃ before l, front = before ++ [l] ∧ l.chars.getLast? ≠ some '\n') :
    (endOf .start front).InLines (SourceFile.countLines cs) := by
  have hstart : 1 ≤ Position.start.line ∧ 1 ≤ Position.start.col := by decide
  obtain ⟨hline, hcol⟩ := one_le_endOf front hstart.1 hstart.2
  have hcount : (joined front).count '\n' < SourceFile.countLines cs := by
    rw [eq_joined h]
    apply SourceFile.count_lt_countLines
    rcases hends with hback | ⟨before, l, rfl, hfeed⟩
    · left
      obtain ⟨l, rest, rfl⟩ := List.exists_cons_of_ne_nil hback
      have hne : l.chars ≠ [] := chars_ne_nil h (List.mem_append_right _ List.mem_cons_self)
      rw [joined_cons]
      exact List.append_ne_nil_of_left_ne_nil hne _
    · right
      have hne : l.chars ≠ [] :=
        chars_ne_nil h (List.mem_append_left _ (List.mem_append_right _ (List.mem_singleton_self l)))
      have hjoined : joined (before ++ [l]) = joined before ++ l.chars := by
        rw [joined_append, joined, joined, List.flatMap_singleton]
      rw [hjoined, List.getLast?_append, List.getLast?_eq_some_getLast hne, Option.some_or]
      rw [List.getLast?_eq_some_getLast hne] at hfeed
      exact ⟨hfeed, List.append_ne_nil_of_right_ne_nil _ hne⟩
  -- What is lost between quotes only moves the place up.
  have hlost := line_endOf_add h (List.subset_append_left front back) .start
  rw [Position.line_after] at hlost
  have hfirst : Position.start.line = 1 := rfl
  exact ⟨hline, by omega, hcol⟩

end Lexeme

namespace Lexed

open Lexeme

/-- What a piece adds besides its token stands where the piece begins. -/
theorem pos_of_mem_step_comments {pos : Position} {last : Option Token} {l : Lexeme} {c : Comment}
    (hc : c ∈ (step pos last l).comments) : c.pos = pos := by
  rw [step] at hc
  split at hc
  · cases hc
  · cases hc
  · rw [List.mem_singleton.mp hc]
  · dsimp only at hc
    split at hc <;> rw [List.mem_singleton.mp hc]
  · cases hc

/-- A piece that leaves a line open does not end with a line feed. -/
theorem getLast?_of_step {cs : List Char} {all : List Lexeme} {cause : Option SourceCause}
    (h : scan cs = (all, cause)) {l : Lexeme} (hl : l ∈ all) {pos : Position} {last : Option Token}
    (hopen : (step pos last l).last.isSome = true) : l.chars.getLast? ≠ some '\n' := by
  have hnone (hfeed : '\n' ∉ l.chars) : l.chars.getLast? ≠ some '\n' :=
    fun hlast => hfeed (List.mem_of_getLast? hlast)
  rw [step] at hopen
  cases hkind : l.kind with
  | lineFeed =>
    rw [hkind] at hopen
    cases hopen
  | blank => exact hnone (not_mem_of_inline h hl (.inl hkind))
  | lineComment => exact hnone (not_mem_of_inline h hl (.inr hkind))
  | blockComment =>
    simp only [hkind] at hopen
    split at hopen
    · cases hopen
    · next hfeed =>
      rw [List.contains_iff_mem] at hfeed
      exact hnone hfeed
  | token kind => exact getLast?_of_token h hl hkind

/-- Tokens and comments are placed in the lines of the text. An open line ends in one of them. -/
theorem inLines_place {cs : List Char} {front ls : List Lexeme} (h : scan cs = (front ++ ls, none))
    {last : Option Token} (hlast : last.isSome = true → (endOf .start front).InLines (SourceFile.countLines cs)) :
    (∀ t ∈ (place (endOf .start front) last ls).tokens, t.pos.InLines (SourceFile.countLines cs)) ∧
      ∀ c ∈ (place (endOf .start front) last ls).comments, c.pos.InLines (SourceFile.countLines cs) := by
  induction ls generalizing front last with
  | nil =>
    rw [place]
    refine ⟨fun t ht => ?_, List.forall_mem_nil _⟩
    cases last with
    | none => cases ht
    | some u =>
      rw [lineBreak] at ht
      split at ht
      · rw [List.mem_singleton.mp ht]
        exact hlast rfl
      · cases ht
  | cons l rest ih =>
    have hhere : (endOf .start front).InLines (SourceFile.countLines cs) :=
      inLines_endOf h (Or.inl (List.cons_ne_nil l rest))
    have hl : l ∈ front ++ l :: rest := List.mem_append_right _ List.mem_cons_self
    have hnext : scan cs = ((front ++ [l]) ++ rest, none) := by
      rw [h, List.append_assoc, List.singleton_append]
    have hend (hopen : (step (endOf .start front) last l).last.isSome = true) :
        (endOf .start (front ++ [l])).InLines (SourceFile.countLines cs) :=
      inLines_endOf hnext (Or.inr ⟨front, l, rfl, getLast?_of_step h hl hopen⟩)
    obtain ⟨htokens, hcomments⟩ := ih hnext hend
    rw [place_cons, ← endOf_concat]
    constructor
    · intro t ht
      rcases List.mem_append.mp ht with ht | ht
      · exact pos_of_mem_step ht ▸ hhere
      · exact htokens t ht
    · intro c hc
      rcases List.mem_append.mp hc with hc | hc
      · exact pos_of_mem_step_comments hc ▸ hhere
      · exact hcomments c hc

end Lexed

/-- The tokens and the comments of a source stand in its lines. -/
theorem inLines_of_tokenize {source : String} {lexed : Lexed} (h : tokenize source = .ok lexed) :
    (∀ t ∈ lexed.tokens, t.pos.InLines (SourceFile.countLines source.toList)) ∧
      ∀ c ∈ lexed.comments, c.pos.InLines (SourceFile.countLines source.toList) := by
  obtain ⟨pieces, hscan, rfl⟩ := place_of_tokenize h
  have hplace : Lexed.place .start none pieces = Lexed.place (Lexeme.endOf .start []) none pieces := rfl
  rw [hplace]
  exact Lexed.inLines_place hscan nofun

end GoIdiom
