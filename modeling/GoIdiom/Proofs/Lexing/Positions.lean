import GoIdiom.Proofs.Lexing.Comment
import Mathlib.Data.List.Induction

/-!
# Where tokens and comments stand

Every written token and every comment is a piece of the text, and its position counts the line feeds and
the columns of the text in front of it. Line feeds that a backslash takes into a string or a rune are not
counted: behind one, positions fall short by it. The positions of all tokens still increase.
-/

namespace GoIdiom

namespace Position

/-- The place behind a text: one line for each line feed, one column for each character of the last line. -/
def behind (front : List Char) : Position :=
  ⟨1 + front.count '\n', 1 + (front.reverse.takeWhile (· != '\n')).length⟩

section After

variable (p : Position)

/-- The place after two texts is that after the second, counted from the end of the first. -/
theorem after_append (front back : List Char) : p.after (front ++ back) = (p.after front).after back := by
  induction front generalizing p with
  | nil => rfl
  | cons c rest ih =>
    rw [List.cons_append, after, after]
    split
    · exact ih _
    · exact ih _

/-- A text without line feeds moves to the right. -/
theorem after_of_not_mem {cs : List Char} (h : '\n' ∉ cs) : p.after cs = p.right cs.length := by
  induction cs generalizing p with
  | nil => rfl
  | cons c rest ih =>
    rw [List.mem_cons, not_or] at h
    rw [after, if_neg (Ne.symm h.1), ih _ h.2, List.length_cons, right, right, right, Nat.add_assoc, Nat.add_comm 1]

/-- Every line feed is a line more. -/
theorem line_after (cs : List Char) : (p.after cs).line = p.line + cs.count '\n' := by
  induction cs generalizing p with
  | nil => rfl
  | cons c rest ih =>
    rw [after]
    by_cases hc : c = '\n'
    · rw [if_pos hc, ih, hc, List.count_cons_self, Nat.add_right_comm, Nat.add_assoc]
    · rw [if_neg hc, ih, List.count_cons_of_ne hc]
      rfl

/-- Going over a text from the start ends behind it. -/
theorem after_start (front : List Char) : start.after front = behind front := by
  induction front using List.reverseRecOn with
  | nil => rfl
  | append_singleton front c ih =>
    rw [after_append, ih, after, after, behind, behind]
    by_cases hc : c = '\n'
    · rw [if_pos hc, hc, List.count_append, List.count_singleton_self, List.reverse_append, List.reverse_singleton,
        List.singleton_append, List.takeWhile_cons_of_neg (by simp)]
      rfl
    · have hcount : [c].count '\n' = 0 := List.count_eq_zero_of_not_mem fun h => hc (List.mem_singleton.mp h).symm
      rw [if_neg hc, List.count_append, hcount, List.reverse_append, List.reverse_singleton, List.singleton_append,
        List.takeWhile_cons_of_pos (p := (· != '\n')) (bne_iff_ne.mpr hc), List.length_cons]
      rfl

end After

section Order

variable {p q r : Position}

/-- A place is before another in an earlier line, or in an earlier column of the same line. -/
theorem before_iff : p.before q = true ↔ p.line < q.line ∨ (p.line = q.line ∧ p.col < q.col) := by
  simp only [before, Bool.or_eq_true, Bool.and_eq_true, decide_eq_true_eq, beq_iff_eq]

/-- A place is its line and its column. -/
theorem eq_iff : p = q ↔ p.line = q.line ∧ p.col = q.col := by
  cases p
  cases q
  rw [Position.mk.injEq]

/-- A place in front of another is not on a later line. -/
theorem line_le_of_before (h : p.before q = true) : p.line ≤ q.line := by
  rw [before_iff] at h
  omega

/-- The order of places is transitive. -/
theorem before_trans (hpq : p.before q = true) (hqr : q.before r = true) : p.before r = true := by
  rw [before_iff] at *
  omega

/-- A place is not before itself. -/
theorem ne_of_before (h : p.before q = true) : p ≠ q := by
  rintro rfl
  rw [before_iff] at h
  omega

/-- Of two places at most one is in front of the other. -/
theorem not_before_of_before (h : p.before q = true) : ¬q.before p = true :=
  fun hback => ne_of_before (before_trans h hback) rfl

/-- A place is before those to its right. -/
theorem before_right {n : Nat} (h : 0 < n) : p.before (p.right n) = true := by
  rw [before_iff]
  exact .inr ⟨rfl, Nat.lt_add_of_pos_right h⟩

/-- A text that is not empty ends further on. -/
theorem before_after {cs : List Char} (h : cs ≠ []) : p.before (p.after cs) = true := by
  induction cs generalizing p with
  | nil => exact absurd rfl h
  | cons c rest ih =>
    have hfirst : p.before (if c = '\n' then ⟨p.line + 1, 1⟩ else p.right 1) = true := by
      split
      · exact before_iff.mpr (.inl (Nat.lt_succ_self _))
      · exact before_right Nat.one_pos
    have hafter :
        p.after (c :: rest) = (if c = '\n' then ⟨p.line + 1, 1⟩ else p.right 1 : Position).after rest := by
      rw [after]
      split <;> rfl
    rw [hafter]
    by_cases hrest : rest = []
    · rw [hrest]
      exact hfirst
    · exact before_trans hfirst (ih hrest)

/-- No two fronts of one text end at the same place. -/
theorem behind_inj {front back front' back' : List Char} (htext : front ++ back = front' ++ back')
    (h : behind front = behind front') : front = front' := by
  rw [← after_start, ← after_start] at h
  rcases List.append_eq_append_iff.mp htext with ⟨more, rfl, -⟩ | ⟨more, rfl, -⟩
  all_goals
    by_cases hmore : more = []
    · rw [hmore, List.append_nil]
    · rw [after_append] at h
      first
        | exact absurd h (ne_of_before (before_after hmore))
        | exact absurd h.symm (ne_of_before (before_after hmore))

end Order

end Position

namespace Lexeme

/-- A string or a rune between quotes. -/
def isQuoted (l : Lexeme) : Bool :=
  match l.kind with
  | .token .char => true
  | .token .string => l.chars.head? != some '\x60'
  | _ => false

/-- Whether every line feed of the piece is counted, as it is not between quotes. -/
def isCounted (l : Lexeme) : Bool := !(l.isQuoted && l.chars.contains '\n')

/-- A piece of a text with the pieces in front of it. -/
structure Located where
  front : List Lexeme
  piece : Lexeme

namespace Located

/-- The place that is reported for the piece. -/
def place (o : Located) : Position := endOf .start o.front

/-- The token that the piece is, at its place. -/
def token? (o : Located) : Option Token :=
  match o.piece.kind with
  | .token kind => some ⟨kind, o.piece.text, o.place⟩
  | _ => none

/-- The text and the place of the comment that the piece is. -/
def comment? (o : Located) : Option (String × Position) :=
  match o.piece.kind with
  | .lineComment | .blockComment => some (o.piece.text, o.place)
  | _ => none

end Located

/-- Pieces behind given ones, each with all those in front of it. -/
def locatedFrom (front : List Lexeme) : List Lexeme → List Located
  | [] => []
  | l :: rest => ⟨front, l⟩ :: locatedFrom (front ++ [l]) rest

/-- The pieces of a text, each with those in front of it. -/
def located (source : String) : List Located := locatedFrom [] (scan source.toList).1

/-- A line comment ends before the line feed. -/
theorem not_mem_of_lineComment {c : Char} {rest : List Char} {n : Nat}
    (h : classify c rest = .ok (.lineComment, n)) : '\n' ∉ c :: rest.take n := by
  have hc : c ≠ '\n' := by
    rintro rfl
    rw [classify, if_pos rfl] at h
    cases h
  cases piece_of_classify h
  intro hfeed
  rcases List.mem_cons.mp hfeed with heq | hmem
  · exact hc heq.symm
  · exact absurd (forall_mem_runLength (· != '\n') rest _ hmem) (by decide)

section Ends

variable {cs : List Char} {ls : List Lexeme} {cause : Option SourceCause} {l : Lexeme}

/-- Every piece of a text has a character. -/
theorem chars_ne_nil (h : scan cs = (ls, cause)) (hl : l ∈ ls) : l.chars ≠ [] := by
  obtain ⟨c, rest, n, -, hchars⟩ := exists_classify_of_mem h hl
  rw [hchars]
  exact List.cons_ne_nil _ _

/-- Blanks and line comments stay in their line. -/
theorem not_mem_of_inline (h : scan cs = (ls, cause)) (hl : l ∈ ls)
    (hkind : l.kind = .blank ∨ l.kind = .lineComment) : '\n' ∉ l.chars := by
  rcases hkind with hkind | hkind
  · exact fun hfeed => absurd (isInlineBlank_of_mem h hl hkind _ hfeed) (by decide)
  · obtain ⟨c, rest, n, hclass, hchars⟩ := exists_classify_of_mem h hl
    rw [hkind] at hclass
    rw [hchars]
    exact not_mem_of_lineComment hclass

/-- Line feeds stand in line feeds, block comments, raw strings and between quotes. -/
theorem endPos_eq (h : scan cs = (ls, cause)) (hl : l ∈ ls) (pos : Position) :
    l.endPos pos = if l.isQuoted then pos.right l.chars.length else pos.after l.chars := by
  obtain ⟨c, rest, n, hclass, hchars⟩ := exists_classify_of_mem h hl
  have hplain (hfeed : '\n' ∉ l.chars) : pos.right l.chars.length = pos.after l.chars :=
    (pos.after_of_not_mem hfeed).symm
  rw [endPos, isQuoted]
  cases hkind : l.kind with
  | lineFeed => rfl
  | blockComment => rfl
  | blank => exact hplain (not_mem_of_inline h hl (.inl hkind))
  | lineComment => exact hplain (not_mem_of_inline h hl (.inr hkind))
  | token kind =>
    rw [hkind] at hclass
    rw [hchars] at hplain ⊢
    cases kind with
    | string => by_cases hraw : c = '\x60' <;> simp [hraw]
    | char => rfl
    | _ => exact hplain (not_mem_of_classify hclass (by decide) (by decide))

/-- The place behind pieces and one more. -/
theorem endOf_concat (pos : Position) (ls : List Lexeme) (l : Lexeme) :
    endOf pos (ls ++ [l]) = l.endPos (endOf pos ls) := by
  induction ls generalizing pos with
  | nil => rfl
  | cons first more ih => exact ih (first.endPos pos)

/-- A piece ends further on. -/
theorem before_endPos (h : scan cs = (ls, cause)) (hl : l ∈ ls) (pos : Position) :
    pos.before (l.endPos pos) = true := by
  have hne := chars_ne_nil h hl
  rw [endPos_eq h hl]
  split
  · exact Position.before_right (List.length_pos_iff.mpr hne)
  · exact Position.before_after hne

/-- Pieces whose line feeds are counted end behind their text. -/
theorem endOf_eq_after (h : scan cs = (ls, cause)) {front : List Lexeme} (hsub : front ⊆ ls)
    (hcounted : ∀ l ∈ front, l.isCounted = true) (pos : Position) :
    endOf pos front = pos.after (joined front) := by
  induction front generalizing pos with
  | nil => rfl
  | cons l more ih =>
    obtain ⟨hl, hmore⟩ := List.cons_subset.mp hsub
    obtain ⟨hfirst, hrest⟩ := List.forall_mem_cons.mp hcounted
    have hend : l.endPos pos = pos.after l.chars := by
      rw [endPos_eq h hl]
      by_cases hquoted : l.isQuoted = true
      · rw [isCounted, hquoted, Bool.true_and, Bool.not_eq_true', List.contains_eq_mem,
          decide_eq_false_iff_not] at hfirst
        rw [if_pos hquoted, Position.after_of_not_mem pos hfirst]
      · rw [if_neg hquoted]
    rw [endOf, ih hmore hrest, hend, joined_cons, Position.after_append]

/-- Positions fall short by the line feeds between quotes. -/
theorem line_endOf_add (h : scan cs = (ls, cause)) {front : List Lexeme} (hsub : front ⊆ ls) (pos : Position) :
    (endOf pos front).line + (joined (front.filter isQuoted)).count '\n' = (pos.after (joined front)).line := by
  induction front generalizing pos with
  | nil => rfl
  | cons l more ih =>
    obtain ⟨hl, hmore⟩ := List.cons_subset.mp hsub
    have hrest := ih hmore (l.endPos pos)
    have hline : (l.endPos pos).line = pos.line + if l.isQuoted then 0 else l.chars.count '\n' := by
      rw [endPos_eq h hl]
      by_cases hquoted : l.isQuoted = true
      · rw [if_pos hquoted, if_pos hquoted]
        rfl
      · rw [if_neg hquoted, if_neg hquoted, Position.line_after]
    rw [Position.line_after, hline] at hrest
    rw [endOf, Position.line_after, joined_cons, List.count_append, List.filter_cons]
    by_cases hquoted : l.isQuoted = true
    · rw [if_pos hquoted] at hrest ⊢
      rw [joined_cons, List.count_append]
      omega
    · rw [if_neg hquoted] at hrest ⊢
      omega

/-- Pieces end behind their text exactly when all their line feeds are counted. -/
theorem endOf_eq_behind_iff (h : scan cs = (ls, cause)) {front : List Lexeme} (hsub : front ⊆ ls) :
    endOf .start front = Position.behind (joined front) ↔ ∀ l ∈ front, l.isCounted = true := by
  rw [← Position.after_start]
  refine ⟨fun heq l hl => ?_, fun hcounted => endOf_eq_after h hsub hcounted .start⟩
  have hlost := line_endOf_add h hsub .start
  rw [heq] at hlost
  have hnone : '\n' ∉ joined (front.filter isQuoted) := List.count_eq_zero.mp (by omega)
  rw [isCounted, Bool.not_eq_true', Bool.and_eq_false_imp]
  intro hquoted
  rw [List.contains_eq_mem, decide_eq_false_iff_not]
  exact fun hfeed => hnone (List.mem_flatMap.mpr ⟨l, List.mem_filter.mpr ⟨hl, hquoted⟩, hfeed⟩)

end Ends

/-- Every located piece stands between the pieces in front of it and others. -/
theorem exists_of_mem_locatedFrom {front ls : List Lexeme} {o : Located} (h : o ∈ locatedFrom front ls) :
    ∃ back, front ++ ls = o.front ++ o.piece :: back := by
  induction ls generalizing front with
  | nil => exact absurd h List.not_mem_nil
  | cons l rest ih =>
    rcases List.mem_cons.mp h with rfl | h
    · exact ⟨rest, rfl⟩
    · obtain ⟨back, hback⟩ := ih h
      rw [List.append_assoc, List.singleton_append] at hback
      exact ⟨back, hback⟩

end Lexeme

namespace Lexed

open Lexeme

/-- A line break inserts nothing else than a semicolon. -/
theorem filter_lineBreak (last : Option Token) (pos : Position) :
    (lineBreak last pos).filter (!·.isInserted) = [] := by
  cases last with
  | none => rfl
  | some t =>
    rw [lineBreak]
    split <;> rfl

section Place

variable {cs : List Char} {all : List Lexeme} {cause : Option SourceCause}

/-- The written tokens are the pieces that are tokens. -/
theorem written_place (h : scan cs = (all, cause)) {ls : List Lexeme} (hls : ls ⊆ all) (front : List Lexeme)
    (last : Option Token) :
    (place (endOf .start front) last ls).tokens.filter (!·.isInserted) =
      (locatedFrom front ls).filterMap (·.token?) := by
  induction ls generalizing front last with
  | nil => exact filter_lineBreak last _
  | cons l rest ih =>
    obtain ⟨hl, hrest⟩ := List.cons_subset.mp hls
    have hstep : (step (endOf .start front) last l).tokens.filter (!·.isInserted) =
        (Located.token? ⟨front, l⟩).toList := by
      rw [step, Located.token?]
      cases hkind : l.kind with
      | lineFeed => exact filter_lineBreak last _
      | blockComment =>
        dsimp only
        split
        · exact filter_lineBreak last _
        · rfl
      | token kind =>
        simp only [List.filter_cons, isInserted_of_head (head?_of_token h hl hkind)]
        rfl
      | _ => rfl
    rw [place_cons, List.filter_append, hstep, ← endOf_concat, ih hrest, locatedFrom, List.filterMap_cons]
    cases Located.token? ⟨front, l⟩ <;> rfl

/-- The comments are the pieces that are comments. -/
theorem comments_place (front ls : List Lexeme) (last : Option Token) :
    (place (endOf .start front) last ls).comments.map (fun c => (c.text, c.pos)) =
      (locatedFrom front ls).filterMap (·.comment?) := by
  induction ls generalizing front last with
  | nil => rfl
  | cons l rest ih =>
    have hstep : (step (endOf .start front) last l).comments.map (fun c => (c.text, c.pos)) =
        (Located.comment? ⟨front, l⟩).toList := by
      rw [step, Located.comment?]
      cases l.kind with
      | blockComment =>
        dsimp only
        split <;> rfl
      | _ => rfl
    rw [place_cons, List.map_append, hstep, ← endOf_concat, ih, locatedFrom, List.filterMap_cons]
    cases Located.comment? ⟨front, l⟩ <;> rfl

/-- What a piece adds stands where the piece begins. -/
theorem pos_of_mem_step {pos : Position} {last : Option Token} {l : Lexeme} {t : Token}
    (ht : t ∈ (step pos last l).tokens) : t.pos = pos := by
  have hbreak (ht : t ∈ lineBreak last pos) : t.pos = pos := by
    cases last with
    | none => exact absurd ht List.not_mem_nil
    | some u =>
      rw [lineBreak] at ht
      split at ht
      · rw [List.mem_singleton.mp ht]
      · exact absurd ht List.not_mem_nil
  rw [step] at ht
  split at ht
  · exact hbreak ht
  · exact absurd ht List.not_mem_nil
  · exact absurd ht List.not_mem_nil
  · dsimp only at ht
    split at ht
    · exact hbreak ht
    · exact absurd ht List.not_mem_nil
  · rw [List.mem_singleton.mp ht]

/-- A piece adds at most one token. -/
theorem length_step_le (pos : Position) (last : Option Token) (l : Lexeme) :
    (step pos last l).tokens.length ≤ 1 := by
  have hbreak : (lineBreak last pos).length ≤ 1 := by
    cases last with
    | none => exact Nat.zero_le 1
    | some u =>
      rw [lineBreak]
      split
      · exact Nat.le_refl 1
      · exact Nat.zero_le 1
  rw [step]
  cases l.kind with
  | lineFeed => exact hbreak
  | blockComment =>
    dsimp only
    split
    · exact hbreak
    · exact Nat.zero_le 1
  | token kind => exact Nat.le_refl 1
  | _ => exact Nat.zero_le 1

/-- Tokens stand behind one another from the given place on. -/
theorem increasing_place (h : scan cs = (all, cause)) {ls : List Lexeme} (hls : ls ⊆ all) (pos : Position)
    (last : Option Token) :
    (∀ t ∈ (place pos last ls).tokens, t.pos = pos ∨ pos.before t.pos = true) ∧
      (place pos last ls).tokens.Pairwise (fun t u => t.pos.before u.pos = true) := by
  -- On the pieces: what the first one adds stands before its end, and the rest from there on.
  induction ls generalizing pos last with
  | nil =>
    rw [place]
    cases last with
    | none => exact ⟨fun t ht => absurd ht List.not_mem_nil, .nil⟩
    | some u =>
      rw [lineBreak]
      split
      · exact ⟨fun t ht => .inl (by rw [List.mem_singleton.mp ht]), List.pairwise_singleton _ _⟩
      · exact ⟨fun t ht => absurd ht List.not_mem_nil, .nil⟩
  | cons l rest ih =>
    obtain ⟨hl, hrest⟩ := List.cons_subset.mp hls
    have hend := before_endPos h hl pos
    obtain ⟨hfrom, hpairwise⟩ := ih hrest (l.endPos pos) (step pos last l).last
    have hbehind : ∀ t ∈ (place (l.endPos pos) (step pos last l).last rest).tokens,
        pos.before t.pos = true := by
      intro t ht
      rcases hfrom t ht with heq | hbefore
      · rwa [heq]
      · exact Position.before_trans hend hbefore
    rw [place_cons]
    constructor
    · intro t ht
      rcases List.mem_append.mp ht with ht | ht
      · exact .inl (pos_of_mem_step ht)
      · exact .inr (hbehind t ht)
    · rw [List.pairwise_append]
      refine ⟨?_, hpairwise, fun t ht u hu => ?_⟩
      · have hlength := length_step_le pos last l
        cases htokens : (step pos last l).tokens with
        | nil => exact .nil
        | cons t more =>
          rw [htokens, List.length_cons] at hlength
          rw [List.length_eq_zero_iff.mp (Nat.le_zero.mp (Nat.le_of_succ_le_succ hlength))]
          exact List.pairwise_singleton _ _
      · rw [pos_of_mem_step ht]
        exact hbehind u hu

end Place

end Lexed

section Tokenize

variable {source : String} {lexed : Lexed}

/-- A source is tokenized by placing its pieces. -/
theorem place_of_tokenize (h : tokenize source = .ok lexed) :
    ∃ pieces, Lexeme.scan source.toList = (pieces, none) ∧ lexed = Lexed.place .start none pieces := by
  rw [tokenize] at h
  cases hscan : Lexeme.scan source.toList with
  | mk pieces fault =>
    rw [hscan] at h
    cases fault with
    | some fault => cases h
    | none => exact ⟨pieces, rfl, (Except.ok.inj h).symm⟩

/-- The tokens of a source stand behind one another. -/
theorem tokens_increasing (h : tokenize source = .ok lexed) :
    lexed.tokens.Pairwise fun t u => t.pos.before u.pos = true := by
  obtain ⟨pieces, hscan, rfl⟩ := place_of_tokenize h
  exact (Lexed.increasing_place hscan (List.Subset.refl _) .start none).2

open Lexeme in
/-- The written tokens and the comments of a source are its pieces, in order. The place of one counts the line
feeds and the columns of the text in front of it, and the text from there on begins with the piece, exactly
when no string and no rune between quotes in front of it holds a line feed. -/
theorem tokenize_positions (h : tokenize source = .ok lexed) :
    lexed.tokens.filter (!·.isInserted) = (located source).filterMap (·.token?) ∧
      lexed.comments.map (fun c => (c.text, c.pos)) = (located source).filterMap (·.comment?) ∧
      ∀ o ∈ located source, (∃ back, source.toList = joined o.front ++ (o.piece.chars ++ back)) ∧
        (o.place = Position.behind (joined o.front) ↔ ∀ l ∈ o.front, l.isCounted = true) ∧
        ((∀ l ∈ o.front, l.isCounted = true) → ∀ front back, source.toList = front ++ back →
          Position.behind front = o.place → o.piece.chars <+: back) := by
  obtain ⟨pieces, hscan, rfl⟩ := place_of_tokenize h
  have hlocated : located source = locatedFrom [] pieces := by rw [located, hscan]
  rw [hlocated]
  refine ⟨Lexed.written_place hscan (List.Subset.refl _) [] none, Lexed.comments_place [] pieces none,
    fun o ho => ?_⟩
  obtain ⟨back, hpieces⟩ := exists_of_mem_locatedFrom ho
  rw [List.nil_append] at hpieces
  have htext : source.toList = joined o.front ++ (o.piece.chars ++ joined back) := by
    rw [hpieces] at hscan
    rw [eq_joined hscan, joined_cons]
  have hsub : o.front ⊆ pieces := by
    rw [hpieces]
    exact List.subset_append_left _ _
  have hiff := endOf_eq_behind_iff hscan hsub
  refine ⟨⟨_, htext⟩, hiff, fun hcounted front rest hrest hplace => ?_⟩
  have hfront : front = joined o.front :=
    Position.behind_inj (hrest.symm.trans htext) (hplace.trans (hiff.mpr hcounted))
  rw [htext, hfront] at hrest
  rw [← List.append_cancel_left hrest]
  exact List.prefix_append _ _

/-- A raw string and a comment over two lines each: the token behind them is on the third line. -/
theorem tokenize_positions_rawString :
    let source := "x := \x60a\nb\x60 /* c\n */ + y\n"
    ∃ lexed, tokenize source = .ok lexed ∧ (⟨.ident, "y", ⟨3, 7⟩⟩ : Token) ∈ lexed.tokens ∧
      ∀ front back, source.toList = front ++ back → Position.behind front = ⟨3, 7⟩ → ['y'] <+: back := by
  intro source
  have htokens : tokenize source = .ok
      ⟨[⟨.ident, "x", ⟨1, 1⟩⟩, ⟨.op, ":=", ⟨1, 3⟩⟩, ⟨.string, "\x60a\nb\x60", ⟨1, 6⟩⟩,
        ⟨.semi, "\n", ⟨2, 4⟩⟩,
          ⟨.op, "+", ⟨3, 5⟩⟩, ⟨.ident, "y", ⟨3, 7⟩⟩, ⟨.semi, "\n", ⟨3, 8⟩⟩],
        [⟨"/* c\n */", ⟨2, 4⟩, 3, true⟩]⟩ := by
    decide +kernel
  have hy : ∃ o ∈ Lexeme.located source, o.place = ⟨3, 7⟩ ∧ o.piece.chars = ['y'] ∧
      ∀ l ∈ o.front, l.isCounted = true := by
    decide +kernel
  obtain ⟨o, ho, hplace, hchars, hcounted⟩ := hy
  have htrue := ((tokenize_positions htokens).2.2 o ho).2.2 hcounted
  rw [hplace, hchars] at htrue
  exact ⟨_, htokens, by decide +kernel, htrue⟩

/-- A string that takes a line feed along moves the token behind it to a place of the line before. -/
theorem tokenize_escapedLineFeed :
    let source := "package p\n\nvar s = \"a\\\nb\" + t\n"
    ∃ lexed, tokenize source = .ok lexed ∧ (⟨.ident, "t", ⟨3, 18⟩⟩ : Token) ∈ lexed.tokens ∧
      source.toList = "package p\n\nvar s = \"a\\\nb\" + ".toList ++ ['t', '\n'] ∧
      Position.behind "package p\n\nvar s = \"a\\\nb\" + ".toList = ⟨4, 6⟩ := by
  intro source
  have htokens : tokenize source = .ok
      ⟨[⟨.keyword, "package", ⟨1, 1⟩⟩, ⟨.ident, "p", ⟨1, 9⟩⟩, ⟨.semi, "\n", ⟨1, 10⟩⟩,
        ⟨.keyword, "var", ⟨3, 1⟩⟩, ⟨.ident, "s", ⟨3, 5⟩⟩, ⟨.op, "=", ⟨3, 7⟩⟩,
        ⟨.string, "\"a\\\nb\"", ⟨3, 9⟩⟩, ⟨.op, "+", ⟨3, 16⟩⟩, ⟨.ident, "t", ⟨3, 18⟩⟩,
        ⟨.semi, "\n", ⟨3, 19⟩⟩], []⟩ := by
    decide +kernel
  exact ⟨_, htokens, by decide +kernel, by decide +kernel, by decide +kernel⟩

end Tokenize

end GoIdiom
