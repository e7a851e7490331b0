import GoIdiom.Proofs.LineFeeds

/-!
# Texts one below the other

When a text is cut into pieces to its end, none of them goes on over a line feed behind it, and the end of the
text breaks the last line as the line feed does. So the text below the line feed is cut, placed or refused as it
is alone, some lines further down.
-/

namespace GoIdiom

/-- A fault some lines further down. -/
def SourceFault.down (k : Nat) (f : SourceFault) : SourceFault := { f with pos := f.pos.down k }

/-- The tokens and comments of a text, then those of a text below it that begins `k` lines further down. -/
def Lexed.above (k : Nat) (first second : Lexed) : Lexed where
  tokens := first.tokens ++ second.tokens.map fun t => { t with pos := t.pos.down k }
  comments := first.comments ++ second.comments.map (·.down k)

namespace Lexeme

/-- The pieces of a text stay when a line feed follows it. -/
theorem scan_append {cs u : List Char} {ls : List Lexeme} (h : scan cs = (ls, none)) (hu : breaksLine u = true) :
    scan (cs ++ u) = (ls ++ (scan u).1, (scan u).2) := by
  induction ls generalizing cs with
  | nil =>
    rw [scan_eq_nil h]
    rfl
  | cons l more ih =>
    obtain ⟨c, rest, n, rfl, hclass, hchars, hle, hmore⟩ := scan_eq_cons h
    rw [← classify_append (breaks_of_breaksLine hu) hle (.inr (.inr hu))] at hclass
    rw [List.cons_append, scan_cons, hclass]
    dsimp only
    rw [List.take_append_of_le_length hle, List.drop_append_of_le_length hle, ih hmore, ← hchars]
    rfl

/-- A line feed in front of a text is a piece. -/
theorem scan_feed (cs : List Char) : scan ('\n' :: cs) = (feed :: (scan cs).1, (scan cs).2) := scan_feeds 1 cs

/-- Pieces end where the last of them end. -/
theorem endOf_append (pos : Position) (front back : List Lexeme) :
    endOf pos (front ++ back) = endOf (endOf pos front) back := by
  induction front generalizing pos with
  | nil => rfl
  | cons l rest ih => exact ih (l.endPos pos)

/-- Pieces that begin further down end further down. -/
theorem endOf_down (k : Nat) (pos : Position) (ls : List Lexeme) :
    endOf (pos.down k) ls = (endOf pos ls).down k := by
  induction ls generalizing pos with
  | nil => rfl
  | cons l rest ih => rw [endOf, endOf, endPos_down, ih]

/-- Below a line feed a line begins, as a text does. -/
theorem endPos_feed (pos : Position) : feed.endPos pos = Position.start.down pos.line := by
  have hfeed : feed.endPos pos = ⟨pos.line + 1, 1⟩ := rfl
  rw [hfeed, Nat.add_comm]
  rfl

end Lexeme

namespace Lexed

open Lexeme

/-- What pieces add one after the other, and the last token of the line after them. -/
def through (pos : Position) (last : Option Token) : List Lexeme → Step
  | [] => ⟨[], [], last⟩
  | l :: rest =>
    let first := step pos last l
    let more := through (l.endPos pos) first.last rest
    ⟨first.tokens ++ more.tokens, first.comments ++ more.comments, more.last⟩

section Through

variable (pos : Position) (last : Option Token) (front back : List Lexeme)

/-- Pieces are placed behind those in front of them. -/
theorem place_append : place pos last (front ++ back) =
    ⟨(through pos last front).tokens ++ (place (endOf pos front) (through pos last front).last back).tokens,
      (through pos last front).comments ++
      (place (endOf pos front) (through pos last front).last back).comments⟩ := by
  induction front generalizing pos last with
  | nil => rfl
  | cons l rest ih =>
    rw [List.cons_append, place_cons, ih]
    simp only [through, endOf, List.append_assoc]

/-- The end of a text breaks its last line. -/
theorem place_eq : place pos last front = ⟨(through pos last front).tokens ++
    lineBreak (through pos last front).last (endOf pos front), (through pos last front).comments⟩ := by
  have happend := place_append pos last front []
  rw [List.append_nil] at happend
  rw [happend, place]
  simp only [List.append_nil]

/-- Pieces below a line feed are placed as if they were alone, below those above it. -/
theorem place_append_feed : place pos last (front ++ feed :: back) =
    above (endOf pos front).line (place pos last front) (place .start none back) := by
  have hdown := place_down "" (endOf pos front).line .start none back
  rw [Option.map_none, ← endPos_feed] at hdown
  have htoken : (Relocation.down "" (endOf pos front).line).token =
      fun t => { t with pos := t.pos.down (endOf pos front).line } := funext (token_down "" _)
  have hstep : step (endOf pos front) (through pos last front).last feed =
      ⟨lineBreak (through pos last front).last (endOf pos front), [], none⟩ := rfl
  rw [place_append, place_cons, hstep, hdown, place_eq pos last front, above, down, htoken]
  simp only [List.append_assoc, List.nil_append]

end Through

end Lexed

/-- Tokenizing works line by line: below a source and a line feed, every text is tokenized as it is alone, so many
lines further down, and refused for the same cause in the same column. -/
theorem tokenize_append_line {a : String} {first : Lexed} (h : tokenize a = .ok first) :
    ∃ k, ∀ b : String, tokenize (a ++ "\n" ++ b) =
      match tokenize b with
      | .ok second => .ok (first.above k second)
      | .error fault => .error (fault.down k) := by
  obtain ⟨pieces, hscan, rfl⟩ := place_of_tokenize h
  refine ⟨(Lexeme.endOf .start pieces).line, fun b => ?_⟩
  have htext : (a ++ "\n" ++ b).toList = a.toList ++ '\n' :: b.toList := by
    rw [String.toList_append, String.toList_append, List.append_assoc]
    rfl
  rw [tokenize, tokenize, htext, Lexeme.scan_append hscan rfl, Lexeme.scan_feed]
  cases Lexeme.scan b.toList with
  | mk below cause =>
    cases cause with
    | none => exact congrArg Except.ok (Lexed.place_append_feed .start none pieces below)
    | some cause =>
      have hend : Lexeme.endOf .start (pieces ++ Lexeme.feed :: below) =
          (Lexeme.endOf .start below).down (Lexeme.endOf .start pieces).line := by
        rw [Lexeme.endOf_append, Lexeme.endOf, Lexeme.endPos_feed, Lexeme.endOf_down]
      simp only [hend]
      rfl

/-- Below a raw string and a comment over two lines each, a text is tokenized from some line on. -/
theorem tokenize_append_line_rawString :
    let a := "x := \x60a\nb\x60 /* c\n */ + y"
    ∃ first, tokenize a = .ok first ∧ first.tokens.getLast? = some ⟨.semi, "\n", ⟨3, 8⟩⟩ ∧
      ∃ k, ∀ b : String, tokenize (a ++ "\n" ++ b) =
        match tokenize b with
        | .ok second => .ok (first.above k second)
        | .error fault => .error (fault.down k) := by
  intro a
  have htokens : tokenize a = .ok
      ⟨[⟨.ident, "x", ⟨1, 1⟩⟩, ⟨.op, ":=", ⟨1, 3⟩⟩, ⟨.string, "\x60a\nb\x60", ⟨1, 6⟩⟩,
        ⟨.semi, "\n", ⟨2, 4⟩⟩,
          ⟨.op, "+", ⟨3, 5⟩⟩, ⟨.ident, "y", ⟨3, 7⟩⟩, ⟨.semi, "\n", ⟨3, 8⟩⟩],
        [⟨"/* c\n */", ⟨2, 4⟩, 3, true⟩]⟩ := by
    decide +kernel
  exact ⟨_, htokens, rfl, tokenize_append_line htokens⟩

end GoIdiom
