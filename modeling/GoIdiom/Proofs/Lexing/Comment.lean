import GoIdiom.Proofs.Lexing.Pieces
import GoIdiom.Proofs.Relocation.Semicolons
import GoIdiom.Token.Lexeme
import Mathlib.Data.List.TakeWhile

/-!
# A comment behind the last token of a line

A line comment that is put behind the last token of a line becomes one piece with the blanks behind it.
The tokens stay where they are, up to the column of a semicolon that the line break stands for, and the
comments stay as they are around the new one.
-/

namespace GoIdiom

namespace Lexeme

/-- Whether a piece is blank. -/
def isBlankPiece (l : Lexeme) : Bool := l.kind == .blank

/-- Whether only blanks follow before the line is broken or the text ends. -/
def endsLine (rest : List Lexeme) : Bool :=
  (rest.dropWhile isBlankPiece).head?.all fun l => l.kind == .lineFeed

section LineEnd

variable {c : Char} {rest : List Char} {n : Nat} {cs : List Char} {ls : List Lexeme} {cause : Option SourceCause}

/-- A run consists of characters of its class. -/
theorem forall_mem_runLength (p : Char → Bool) (cs : List Char) :
    ∀ c ∈ cs.take (runLength p cs), p c = true := by
  induction cs with
  | nil => exact fun _ hc => absurd hc List.not_mem_nil
  | cons d rest ih =>
    rw [runLength]
    split
    · next hd =>
      rw [List.take_succ_cons]
      exact List.forall_mem_cons.mpr ⟨hd, ih⟩
    · exact fun _ hc => absurd hc List.not_mem_nil

/-- A blank piece consists of blanks. -/
theorem isInlineBlank_of_mem (h : scan cs = (ls, cause)) {l : Lexeme} (hl : l ∈ ls) (hblank : l.kind = .blank) :
    ∀ c ∈ l.chars, isInlineBlank c = true := by
  obtain ⟨c, rest, n, hclass, hchars⟩ := exists_classify_of_mem h hl
  rw [hblank] at hclass
  cases piece_of_classify hclass with
  | blank hc =>
    rw [hchars]
    exact List.forall_mem_cons.mpr ⟨hc, forall_mem_runLength _ rest⟩

/-- A piece that breaks the line is a line feed. -/
theorem chars_of_lineFeed (h : scan cs = (ls, cause)) {l : Lexeme} (hl : l ∈ ls) (hfeed : l.kind = .lineFeed) :
    l.chars = ['\n'] := by
  obtain ⟨c, rest, n, hclass, hchars⟩ := exists_classify_of_mem h hl
  rw [hfeed] at hclass
  cases piece_of_classify hclass with
  | lineFeed hc => rw [hchars, hc]; rfl

/-- A token begins with no line feed. -/
theorem head?_of_token {kind : TokenKind} (h : scan cs = (ls, cause)) {l : Lexeme} (hl : l ∈ ls)
    (htoken : l.kind = .token kind) : l.chars.head? ≠ some '\n' := by
  obtain ⟨c, rest, n, hclass, hchars⟩ := exists_classify_of_mem h hl
  rw [htoken] at hclass
  rw [hchars, List.head?_cons]
  exact fun heq => head_of_classify hclass (Option.some.inj heq)

/-- A token ends with no line feed. -/
theorem getLast?_of_token {kind : TokenKind} (h : scan cs = (ls, cause)) {l : Lexeme} (hl : l ∈ ls)
    (htoken : l.kind = .token kind) : l.chars.getLast? ≠ some '\n' := by
  obtain ⟨c, rest, n, hclass, hchars⟩ := exists_classify_of_mem h hl
  rw [htoken] at hclass
  rw [hchars]
  exact getLast?_of_classify hclass

/-- What ends a line begins with a break. -/
theorem breaks_of_endsLine (h : scan cs = (ls, none)) (hends : endsLine ls = true) : breaks cs = true := by
  cases ls with
  | nil => rw [scan_eq_nil h]; rfl
  | cons l more =>
    obtain ⟨c, rest, n, rfl, hclass, hchars, -, -⟩ := scan_eq_cons h
    have hhead : (c == '\n' || isInlineBlank c) = true := by
      by_cases hblank : l.kind = .blank
      · have := isInlineBlank_of_mem h List.mem_cons_self hblank c (by rw [hchars]; exact List.mem_cons_self)
        rw [this, Bool.or_true]
      · have hdrop : (l :: more).dropWhile isBlankPiece = l :: more :=
          List.dropWhile_cons_of_neg (by rw [isBlankPiece, beq_iff_eq]; exact hblank)
        rw [endsLine, hdrop, List.head?_cons, Option.all_some, beq_iff_eq] at hends
        have := chars_of_lineFeed h List.mem_cons_self hends
        rw [hchars] at this
        rw [(List.cons.inj this).1]
        rfl
    exact (breakChars_contains_iff c).mpr hhead

end LineEnd

/-- The pieces of a comment that is put behind a token, and of the blanks between it and the line's end. -/
def commentPieces (body : List Char) (rest : List Lexeme) : List Lexeme :=
  [⟨.blank, [' ']⟩, ⟨.lineComment, '/' :: '/' :: (body ++ joined (rest.takeWhile isBlankPiece))⟩]

section Insert

variable {cs source : List Char} {front rest : List Lexeme} {t : Lexeme} {body : List Char}

/-- The text of two lists of pieces is that of each. -/
theorem joined_append (ls ms : List Lexeme) : joined (ls ++ ms) = joined ls ++ joined ms := List.flatMap_append

/-- The text of pieces in two parts. -/
theorem eq_joined {ls ms : List Lexeme} (h : scan source = (ls ++ ms, none)) : source = joined ls ++ joined ms := by
  rw [← joined_append, joined_of_scan h]

/-- A text that begins with blanks before the end of a line, and the text from that end on. -/
theorem eq_joined_blanks (h : scan cs = (rest, none)) :
    cs = joined (rest.takeWhile isBlankPiece) ++ joined (rest.dropWhile isBlankPiece) := by
  refine eq_joined ?_
  rwa [List.takeWhile_append_dropWhile]

/-- Pieces that end with a token end with no line feed. -/
theorem getLast?_joined {kind : TokenKind} {cause : Option SourceCause}
    (h : scan source = (front ++ t :: rest, cause)) (ht : t.kind = .token kind) :
    (joined (front ++ [t])).getLast?.any (· != '\n') = true := by
  have hmem : t ∈ front ++ t :: rest := List.mem_append_right _ List.mem_cons_self
  obtain ⟨c, more, n, -, hchars⟩ := exists_classify_of_mem h hmem
  have hne : t.chars ≠ [] := by
    rw [hchars]
    exact List.cons_ne_nil _ _
  have hfeed := getLast?_of_token h hmem ht
  rw [List.getLast?_eq_some_getLast hne] at hfeed
  rw [joined_append, joined, joined, List.flatMap_singleton, List.getLast?_append,
    List.getLast?_eq_some_getLast hne, Option.some_or, Option.any_some, bne_iff_ne]
  exact fun hc => hfeed (congrArg some hc)

/-- A run in a line goes up to the line feed. -/
theorem runLength_line {front back : List Char} (hfront : '\n' ∉ front) (hback : breaksLine back = true) :
    runLength (· != '\n') (front ++ back) = front.length := by
  rw [runLength_append_of_breaksLine (by decide) hback]
  induction front with
  | nil => rfl
  | cons c more ih =>
    rw [List.mem_cons, not_or] at hfront
    rw [runLength, if_pos (bne_iff_ne.mpr (Ne.symm hfront.1)), ih hfront.2, List.length_cons]

/-- The blanks before the end of a line hold no line feed, and what follows them is one or nothing. -/
theorem runLength_endsLine (h : scan cs = (rest, none)) (hends : endsLine rest = true) (hbody : '\n' ∉ body) :
    runLength (· != '\n') (body ++ cs) = (body ++ joined (rest.takeWhile isBlankPiece)).length := by
  rw [eq_joined_blanks h, ← List.append_assoc]
  apply runLength_line
  · rw [List.mem_append, not_or]
    refine ⟨hbody, fun hmem => ?_⟩
    obtain ⟨l, hl, hc⟩ := List.mem_flatMap.mp hmem
    have hkind := List.mem_takeWhile_imp hl
    rw [isBlankPiece, beq_iff_eq] at hkind
    have := isInlineBlank_of_mem h ((List.takeWhile_sublist _).subset hl) hkind '\n' hc
    exact absurd this (by decide)
  · cases hdrop : rest.dropWhile isBlankPiece with
    | nil => rfl
    | cons l more =>
      rw [endsLine, hdrop, List.head?_cons, Option.all_some, beq_iff_eq] at hends
      have hl : l ∈ rest := (List.dropWhile_sublist _).subset (hdrop ▸ List.mem_cons_self)
      rw [joined, List.flatMap_cons, chars_of_lineFeed h hl hends]
      rfl

/-- A comment before the end of a line takes the blanks there along. -/
theorem scan_comment (h : scan cs = (rest, none)) (hends : endsLine rest = true) (hbody : '\n' ∉ body) :
    scan (' ' :: '/' :: '/' :: (body ++ cs)) =
      (commentPieces body rest ++ rest.dropWhile isBlankPiece, none) := by
  have hsplit : scan cs = (rest.takeWhile isBlankPiece ++ rest.dropWhile isBlankPiece, none) := by
    rwa [List.takeWhile_append_dropWhile]
  have hrest := scan_joined_of_append hsplit
  have hlength := runLength_endsLine h hends hbody
  have hcomment : classify '/' ('/' :: (body ++ cs)) =
      .ok (.lineComment, (body ++ joined (rest.takeWhile isBlankPiece)).length + 1) := by
    have hrun : runLength (· != '\n') ('/' :: (body ++ cs)) = runLength (· != '\n') (body ++ cs) + 1 := rfl
    rw [← hlength, ← hrun]
    rfl
  have hblank : classify ' ' ('/' :: '/' :: (body ++ cs)) = .ok (.blank, 0) := rfl
  rw [scan_cons, hblank]
  dsimp only
  rw [List.drop_zero, scan_cons, hcomment]
  dsimp only
  rw [List.take_zero, List.take_succ_cons, List.drop_succ_cons, eq_joined_blanks h, ← List.append_assoc,
    List.take_left, List.drop_left, hrest]
  rfl

/-- A text with a comment behind a token that ends its line. -/
theorem scan_insert {kind : TokenKind} (h : scan source = (front ++ t :: rest, none)) (ht : t.kind = .token kind)
    (hends : endsLine rest = true) (hbody : '\n' ∉ body) :
    scan (joined (front ++ [t]) ++ (' ' :: '/' :: '/' :: body ++ joined rest)) =
      (front ++ t :: (commentPieces body rest ++ rest.dropWhile isBlankPiece), none) := by
  have hsplit : scan source = ((front ++ [t]) ++ rest, none) := by
    rwa [List.append_assoc, List.singleton_append]
  have hrest := scan_joined_of_append hsplit
  rw [eq_joined hsplit] at h
  have hnew : scan (' ' :: '/' :: '/' :: body ++ joined rest) =
      (commentPieces body rest ++ rest.dropWhile isBlankPiece, none) := scan_comment hrest hends hbody
  rw [scan_exchange ht (breaks_of_endsLine hrest hends) rfl h, hnew]

end Insert

end Lexeme

namespace Lexed

open Lexeme

/-- What one piece adds to the tokens and comments, and the last token of the line after it. -/
structure Step where
  tokens : List Token
  comments : List Comment
  last : Option Token

/-- What a piece adds at a place, after the last token of the line. -/
def step (pos : Position) (last : Option Token) (l : Lexeme) : Step :=
  match l.kind with
  | .lineFeed => ⟨lineBreak last pos, [], none⟩
  | .blank => ⟨[], [], last⟩
  | .lineComment => ⟨[], [⟨l.text, pos, pos.line, last.isSome⟩], last⟩
  | .blockComment =>
    let comment : Comment := ⟨l.text, pos, (l.endPos pos).line, last.isSome⟩
    if l.chars.contains '\n' then ⟨lineBreak last pos, [comment], none⟩ else ⟨[], [comment], last⟩
  | .token kind => ⟨[⟨kind, l.text, pos⟩], [], some ⟨kind, l.text, pos⟩⟩

section Place

variable (pos : Position) (last : Option Token)

/-- What a piece adds does not depend on the pieces after it. -/
theorem place_cons (l : Lexeme) (rest : List Lexeme) :
    place pos last (l :: rest) =
      ⟨(step pos last l).tokens ++ (place (l.endPos pos) (step pos last l).last rest).tokens,
        (step pos last l).comments ++ (place (l.endPos pos) (step pos last l).last rest).comments⟩ := by
  rw [place, step]
  cases l.kind with
  | blockComment =>
    dsimp only
    split <;> rfl
  | _ => rfl

/-- A token that does not begin with a line feed is written. -/
theorem isInserted_of_head {l : Lexeme} {kind : TokenKind} {pos : Position} (h : l.chars.head? ≠ some '\n') :
    (⟨kind, l.text, pos⟩ : Token).isInserted = false := by
  have htext : (l.text == "\n") = false := by
    rw [beq_eq_false_iff_ne]
    intro htext
    have hchars := congrArg String.toList htext
    rw [text, String.toList_ofList] at hchars
    exact h (by rw [hchars]; rfl)
  rw [Token.isInserted, htext, Bool.and_false]

/-- A line break inserts a semicolon only behind a token that ends a statement. -/
theorem laid_lineBreak {ts : List Token} (h : Token.laid false ts = true) :
    Token.laid (last.any (·.endsStatement)) (lineBreak last pos ++ ts) = true := by
  cases last with
  | none => exact h
  | some t =>
    rw [lineBreak, Option.any_some]
    split
    · next hends => exact Token.laid_cons.mpr ⟨.inl hends, h⟩
    · next hends => rwa [Bool.eq_false_iff.mpr hends]

/-- A piece lets laid tokens follow. -/
theorem laid_step {l : Lexeme} (h : ∀ kind, l.kind = .token kind → l.chars.head? ≠ some '\n')
    {ts : List Token} (hts : Token.laid ((step pos last l).last.any (·.endsStatement)) ts = true) :
    Token.laid (last.any (·.endsStatement)) ((step pos last l).tokens ++ ts) = true := by
  rw [step] at hts ⊢
  cases hkind : l.kind with
  | lineFeed =>
    rw [hkind] at hts
    exact laid_lineBreak pos last hts
  | blank =>
    rw [hkind] at hts
    exact hts
  | lineComment =>
    rw [hkind] at hts
    exact hts
  | blockComment =>
    rw [hkind] at hts
    dsimp only at hts ⊢
    by_cases hline : l.chars.contains '\n' = true
    · rw [if_pos hline] at hts ⊢
      exact laid_lineBreak pos last hts
    · rw [if_neg hline] at hts ⊢
      exact hts
  | token kind =>
    rw [hkind] at hts
    exact Token.laid_cons.mpr ⟨.inr (isInserted_of_head (h kind hkind)), hts⟩

/-- Placed tokens are laid. -/
theorem laid_place {ls : List Lexeme} (h : ∀ l ∈ ls, ∀ kind, l.kind = .token kind →
    l.chars.head? ≠ some '\n') :
    Token.laid (last.any (·.endsStatement)) (place pos last ls).tokens = true := by
  induction ls generalizing pos last with
  | nil =>
    have := laid_lineBreak pos last (show Token.laid false [] = true from rfl)
    rwa [List.append_nil] at this
  | cons l rest ih =>
    rw [List.forall_mem_cons] at h
    rw [place_cons]
    exact laid_step pos last h.1 (ih _ _ h.2)

/-- Blank pieces move on in the line. -/
theorem place_blanks {blanks : List Lexeme} (h : ∀ l ∈ blanks, isBlankPiece l = true) (ls : List Lexeme) :
    ∃ q : Position, q.line = pos.line ∧ place pos last (blanks ++ ls) = place q last ls := by
  induction blanks generalizing pos with
  | nil => exact ⟨pos, rfl, rfl⟩
  | cons l rest ih =>
    rw [List.forall_mem_cons, isBlankPiece, beq_iff_eq] at h
    obtain ⟨q, hq, hplace⟩ := ih (l.endPos pos) h.2
    refine ⟨q, ?_, ?_⟩
    · rw [hq, endPos, h.1]
      rfl
    · rw [List.cons_append, place_cons, step, h.1, ← hplace]
      rfl

/-- The end of a line is placed the same from any column, up to the column of its semicolon. -/
theorem place_lineEnd (path : String) {p q : Position} (hline : p.line = q.line) {ls : List Lexeme}
    (hends : ∀ l ∈ ls.head?, l.kind = .lineFeed ∧ l.chars = ['\n']) :
    (place p last ls).tokens.map (Relocation.settled path).token =
        (place q last ls).tokens.map (Relocation.settled path).token ∧
      (place p last ls).comments = (place q last ls).comments := by
  have hbreak : (lineBreak last p).map (Relocation.settled path).token =
      (lineBreak last q).map (Relocation.settled path).token := by
    cases last with
    | none => rfl
    | some t =>
      rw [lineBreak, lineBreak]
      split
      · have hsemi (r : Position) :
            (Relocation.settled path).token ⟨.semi, "\n", r⟩ = ⟨.semi, "\n", ⟨r.line, 0⟩⟩ := rfl
        rw [List.map_singleton, List.map_singleton, hsemi, hsemi, hline]
      · rfl
  cases ls with
  | nil => exact ⟨hbreak, rfl⟩
  | cons l rest =>
    obtain ⟨hkind, hchars⟩ := hends l rfl
    have hnext : l.endPos p = l.endPos q := by
      rw [endPos, endPos, hkind, hchars]
      simp only [Position.after, hline, ↓reduceIte]
    rw [place_cons, place_cons, hnext, step, step, hkind]
    exact ⟨by simp only [List.map_append, hbreak], rfl⟩

end Place

/-- What a text has more than another one: a comment, and columns of inserted semicolons. -/
structure Adds (path : String) (c : Comment) (a b : Lexed) : Prop where
  tokens : b.tokens.map (Relocation.settled path).token = a.tokens.map (Relocation.settled path).token
  comments : ∃ before after, a.comments = before ++ after ∧ b.comments = before ++ c :: after

/-- The same tokens and comments before two texts leave the difference between them. -/
theorem Adds.append {path : String} {c : Comment} {a b : Lexed} (h : Adds path c a b) (tokens : List Token)
    (comments : List Comment) :
    Adds path c ⟨tokens ++ a.tokens, comments ++ a.comments⟩
      ⟨tokens ++ b.tokens, comments ++ b.comments⟩ := by
  obtain ⟨htokens, before, after, ha, hb⟩ := h
  refine ⟨by rw [List.map_append, List.map_append, htokens], comments ++ before, after, ?_, ?_⟩
  · rw [ha, List.append_assoc]
  · rw [hb, List.append_assoc]

/-- The comment that is put behind a token, when the pieces up to the token end at a place. -/
def trailing (body : List Char) (rest : List Lexeme) (pos : Position) : Comment :=
  ⟨String.ofList ('/' :: '/' :: (body ++ joined (rest.takeWhile isBlankPiece))), pos.right 1, pos.line, true⟩

/-- The text of the comment behind its marker. -/
theorem body_trailing (body : List Char) (rest : List Lexeme) (pos : Position) :
    (trailing body rest pos).body = String.ofList (body ++ joined (rest.takeWhile isBlankPiece)) := by
  rw [Comment.body, trailing, String.toList_ofList]
  rfl

/-- A comment behind the last token of a line is one comment more. -/
theorem adds_insert (path : String) (pos : Position) (last : Option Token) (front : List Lexeme) {t : Lexeme}
    {rest : List Lexeme} (body : List Char) {kind : TokenKind} (ht : t.kind = .token kind)
    (hfeed : ∀ l ∈ (rest.dropWhile isBlankPiece).head?, l.kind = .lineFeed ∧ l.chars = ['\n']) :
    Adds path (trailing body rest (endOf pos (front ++ [t]))) (place pos last (front ++ t :: rest))
      (place pos last (front ++ t :: (commentPieces body rest ++ rest.dropWhile isBlankPiece))) := by
  -- On the pieces before the token: both texts place them alike.
  induction front generalizing pos last with
  | nil =>
    have hblanks : ∀ l ∈ rest.takeWhile isBlankPiece, isBlankPiece l = true :=
      fun l hl => List.mem_takeWhile_imp hl
    have hlast : (step pos last t).last.isSome = true := by
      rw [step, ht]
      rfl
    have hend : endOf pos ([] ++ [t]) = t.endPos pos := rfl
    rw [hend]
    simp only [List.nil_append]
    rw [place_cons, place_cons]
    refine Adds.append ?_ _ _
    generalize (step pos last t).last = last at hlast
    generalize t.endPos pos = p
    obtain ⟨q, hq, hplace⟩ := place_blanks p last hblanks (rest.dropWhile isBlankPiece)
    rw [List.takeWhile_append_dropWhile] at hplace
    let text := '/' :: '/' :: (body ++ joined (rest.takeWhile isBlankPiece))
    have hcomment : place p last (commentPieces body rest ++ rest.dropWhile isBlankPiece) =
        ⟨(place ((p.right 1).right text.length) last (rest.dropWhile isBlankPiece)).tokens,
          ⟨String.ofList text, p.right 1, p.line, last.isSome⟩ ::
            (place ((p.right 1).right text.length) last (rest.dropWhile isBlankPiece)).comments⟩ := rfl
    have hq' : ((p.right 1).right text.length).line = q.line := hq.symm
    obtain ⟨htokens, hcomments⟩ := place_lineEnd last path hq' hfeed
    rw [hplace, hcomment, hlast]
    exact ⟨htokens, [], _, rfl, congrArg _ hcomments⟩
  | cons l more ih =>
    rw [List.cons_append, List.cons_append, List.cons_append, place_cons, place_cons]
    exact (ih (l.endPos pos) (step pos last l).last).append _ _

end Lexed

end GoIdiom
