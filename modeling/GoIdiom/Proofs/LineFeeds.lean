import GoIdiom.Proofs.Lexing.Lines
import GoIdiom.Proofs.Sites.Files

/-!
# Line feeds in front of a source

Line feeds in front of a source move all of it down: its tokens and comments, the places in its constructs, and
the lines that hold code. Nothing else of a file depends on where it begins. The moving of tokens is the
relocation that adds to lines, so what is left to see is how the text is cut into pieces.
-/

namespace GoIdiom

/-- The same column, some lines further down. -/
def Position.down (k : Nat) (p : Position) : Position := ⟨p.line + k, p.col⟩

/-- All tokens are moved down by a number of lines. -/
def Relocation.down (path : String) (k : Nat) : Relocation where
  path := path
  shift := k
  written := Position.down k
  inserted := Position.down k
  written_line := fun _ => rfl
  inserted_line := fun _ => rfl
  before_written := fun p q => by
    rw [Bool.eq_iff_iff, Position.before_iff, Position.before_iff]
    simp only [Position.down]
    omega

/-- A comment some lines further down. -/
def Comment.down (k : Nat) (c : Comment) : Comment := { c with pos := c.pos.down k, endLine := c.endLine + k }

/-- A construct some lines further down. That of the file still begins with the file, which has more lines. -/
def Construct.down (k : Nat) (c : Construct) : Construct :=
  match c.detail with
  | .file lineCount isTest package =>
    { c with endLine := c.endLine + k, detail := .file (lineCount + k) isTest package }
  | _ => (Relocation.down c.path k).construct c

/-- A file with so many lines more in front of it. -/
def SourceFile.down (k : Nat) (f : SourceFile) : SourceFile :=
  { f with
    constructs := f.constructs.map (·.down k)
    comments := f.comments.map (·.down k)
    lineCount := f.lineCount + k
    codeLines := f.codeLines.map (· + k) }

namespace Position

variable (k : Nat) (p : Position)

/-- Going over a text moves down as its beginning does. -/
theorem after_down (cs : List Char) : (p.down k).after cs = (p.after cs).down k := by
  induction cs generalizing p with
  | nil => rfl
  | cons c rest ih =>
    rw [after, after]
    by_cases hc : c = '\n'
    · have hnext : (⟨(p.down k).line + 1, 1⟩ : Position) = down k ⟨p.line + 1, 1⟩ := by
        simp only [down, Nat.add_right_comm]
      rw [if_pos hc, if_pos hc, hnext, ih]
    · have hnext : (p.down k).right 1 = (p.right 1).down k := rfl
      rw [if_neg hc, if_neg hc, hnext, ih]

end Position

namespace Construct

/-- A construct that is no file moves with all places in it. -/
theorem down_of_ne_file {k : Nat} {c : Construct} (h : c.kind ≠ .file) :
    c.down k = (Relocation.down c.path k).construct c := by
  obtain ⟨path, pos, endLine, detail⟩ := c
  cases detail with
  | file lineCount isTest package => exact absurd rfl h
  | _ => rfl

end Construct

namespace Lexeme

variable (k : Nat)

/-- The line feed as a piece. -/
def feed : Lexeme := ⟨.lineFeed, ['\n']⟩

/-- A piece that begins further down ends further down. -/
theorem endPos_down (l : Lexeme) (pos : Position) : l.endPos (pos.down k) = (l.endPos pos).down k := by
  have hafter := Position.after_down k pos l.chars
  have hright : (pos.down k).right l.chars.length = (pos.right l.chars.length).down k := rfl
  rw [endPos, endPos]
  split
  · exact hafter
  · exact hafter
  · split
    · exact hafter
    · exact hright
  · exact hright

/-- Each line feed in front of a text is a piece. -/
theorem scan_feeds (cs : List Char) :
    scan (List.replicate k '\n' ++ cs) = (List.replicate k feed ++ (scan cs).1, (scan cs).2) := by
  induction k with
  | zero => rfl
  | succ k ih =>
    have hfeed : classify '\n' (List.replicate k '\n' ++ cs) = .ok (.lineFeed, 0) := by
      rw [classify, if_pos rfl]
    rw [List.replicate_succ, List.cons_append, scan_cons, hfeed]
    simp only [List.take_zero, List.drop_zero, ih, List.replicate_succ, List.cons_append, feed]

end Lexeme

namespace Lexed

open Lexeme

variable (path : String) (k : Nat) (pos : Position) (last : Option Token)

/-- Tokens and comments some lines further down. -/
def down (lexed : Lexed) : Lexed :=
  ⟨lexed.tokens.map (Relocation.down path k).token, lexed.comments.map (·.down k)⟩

/-- A token further down. -/
theorem token_down (t : Token) : (Relocation.down path k).token t = { t with pos := t.pos.down k } := by
  rw [Relocation.token, Relocation.down, ite_self]

/-- A line that is broken further down has its semicolon there. -/
theorem lineBreak_down : lineBreak (last.map (Relocation.down path k).token) (pos.down k) =
    (lineBreak last pos).map (Relocation.down path k).token := by
  cases last with
  | none => rfl
  | some t =>
    have hends : ((Relocation.down path k).token t).endsStatement = t.endsStatement := rfl
    rw [Option.map_some, lineBreak, lineBreak, hends]
    split
    · rw [List.map_singleton, token_down]
    · rfl

/-- A piece further down adds what it adds, further down. -/
theorem step_down (l : Lexeme) : step (pos.down k) (last.map (Relocation.down path k).token) l =
    ⟨(step pos last l).tokens.map (Relocation.down path k).token, (step pos last l).comments.map (·.down k),
      (step pos last l).last.map (Relocation.down path k).token⟩ := by
  have hbreak := lineBreak_down path k pos last
  have hsome : (last.map (Relocation.down path k).token).isSome = last.isSome := Option.isSome_map
  have hend : (l.endPos (pos.down k)).line = (l.endPos pos).line + k := congrArg Position.line (endPos_down k l pos)
  rw [step, step]
  cases l.kind with
  | lineFeed => simp only [hbreak, List.map_nil, Option.map_none]
  | blank => rfl
  | lineComment => simp only [hsome]; rfl
  | blockComment =>
    simp only [hsome, hend]
    split
    · simp only [hbreak]; rfl
    · rfl
  | token kind => simp only [List.map_singleton, List.map_nil, Option.map_some, token_down]

/-- Pieces that begin further down are placed further down. -/
theorem place_down (ls : List Lexeme) : place (pos.down k) (last.map (Relocation.down path k).token) ls =
    (place pos last ls).down path k := by
  induction ls generalizing pos last with
  | nil =>
    rw [place, place, lineBreak_down]
    rfl
  | cons l rest ih =>
    rw [place_cons, place_cons, step_down, endPos_down, ih, down]
    simp only [down, List.map_append]

/-- Line feeds with nothing in front of them only lead to a later line. -/
theorem place_feeds (ls : List Lexeme) : place .start none (List.replicate k feed ++ ls) =
    place (Position.start.down k) none ls := by
  -- From any line on, so that the first line feed leaves the others.
  have hline (n : Nat) : place ⟨n, 1⟩ none (List.replicate k feed ++ ls) = place ⟨n + k, 1⟩ none ls := by
    induction k generalizing n with
    | zero => rfl
    | succ k ih =>
      have hcons : place ⟨n, 1⟩ none (feed :: (List.replicate k feed ++ ls)) =
          place ⟨n + 1, 1⟩ none (List.replicate k feed ++ ls) := rfl
      rw [List.replicate_succ, List.cons_append, hcons, ih, Nat.add_right_comm, Nat.add_assoc]
  exact hline 1

end Lexed

/-- A source with line feeds in front of it. -/
def lineFeedsBefore (k : Nat) (source : String) : String := String.ofList (List.replicate k '\n' ++ source.toList)

/-- Line feeds in front of a source move its tokens and comments down. -/
theorem tokenize_lineFeedsBefore (path : String) (k : Nat) (source : String) :
    (tokenize (lineFeedsBefore k source)).toOption = (tokenize source).toOption.map (·.down path k) := by
  rw [tokenize, tokenize, lineFeedsBefore, String.toList_ofList, Lexeme.scan_feeds]
  cases Lexeme.scan source.toList with
  | mk pieces cause =>
    cases cause with
    | none =>
      have hdown := Lexed.place_down path k .start none pieces
      rw [Option.map_none] at hdown
      simp only [Lexed.place_feeds, hdown]
      rfl
    | some cause => rfl

namespace SourceFile

variable {source path : String}

/-- Line feeds in front of a text are lines more. -/
theorem countLines_feeds (k : Nat) (cs : List Char) :
    countLines (List.replicate k '\n' ++ cs) = countLines cs + k := by
  have hlast : (List.replicate k '\n' ++ cs).getLast?.any (· != '\n') = cs.getLast?.any (· != '\n') := by
    rw [List.getLast?_append, List.getLast?_replicate]
    cases cs.getLast? with
    | some c => rfl
    | none =>
      rw [Option.none_or]
      split <;> rfl
  rw [countLines, countLines, hlast, List.count_append, List.count_replicate_self]
  omega

/-- A text that is not empty has a line. -/
theorem one_le_countLines {cs : List Char} (h : cs ≠ []) : 1 ≤ countLines cs := by
  have hcount : ([] : List Char).count '\n' < countLines ([] ++ cs) := count_lt_countLines (Or.inl h)
  rw [List.nil_append] at hcount
  omega

/-- What is read of a source: its tokens, and the package of those. -/
theorem toOption_read (source path : String) : (read source path).toOption =
    (tokenize source).toOption.bind fun lexed =>
      (readTokens path lexed.tokens).toOption.map fun found => ofParts source path lexed found.1 found.2 := by
  have hread : read source path = (Declaration.ofSource (tokenize source) >>= fun lexed =>
      readTokens path lexed.tokens >>= fun found => .ok (ofParts source path lexed found.1 found.2)) := rfl
  rw [hread]
  cases tokenize source with
  | error e => rfl
  | ok lexed =>
    change (readTokens path lexed.tokens >>= _).toOption = (readTokens path lexed.tokens).toOption.map _
    cases readTokens path lexed.tokens <;> rfl

/-- The parts of a file that is moved down are those of the file, moved down. -/
theorem ofParts_lineFeedsBefore {lexed : Lexed} {package : String} {constructs : List Construct} (k : Nat)
    (hlexed : tokenize source = .ok lexed) (hread : readTokens path lexed.tokens = .ok (package, constructs)) :
    ofParts (lineFeedsBefore k source) path (lexed.down path k) package
        (constructs.map (Relocation.down path k).construct) =
      (ofParts source path lexed package constructs).down k := by
  have hfile : read source path = .ok (ofParts source path lexed package constructs) :=
    read_eq_ok_iff.mpr ⟨lexed, package, constructs, hlexed, hread, rfl⟩
  have hpath := (path_of_read hfile).2
  have hkind := kind_ne_file_of_readTokens hread
  have hne : source.toList ≠ [] := by
    intro hnil
    rw [tokenize, hnil, Lexeme.scan] at hlexed
    obtain rfl := Except.ok.inj hlexed
    cases hread
  have hlines := one_le_countLines hne
  have hcount : countLines (lineFeedsBefore k source).toList = countLines source.toList + k := by
    rw [lineFeedsBefore, String.toList_ofList, countLines_feeds]
  have hmax : max (countLines source.toList + k) 1 = max (countLines source.toList) 1 + k := by omega
  have hconstructs : constructs.map (Relocation.down path k).construct = constructs.map (·.down k) := by
    apply List.map_congr_left
    intro c hc
    rw [Construct.down_of_ne_file (hkind c hc), hpath c (List.mem_cons_of_mem _ hc)]
  have hcode : codeLinesOf (lexed.down path k).tokens = (codeLinesOf lexed.tokens).map (· + k) := by
    rw [codeLinesOf, codeLinesOf, Lexed.down, List.filter_map, List.map_map, List.map_map]
    apply List.map_congr_left
    intro t _
    exact Relocation.line_token _ t
  simp only [ofParts, SourceFile.down, hcount, hmax, hconstructs, hcode, List.map_cons]
  rfl

/-- A source with line feeds in front of it is read exactly when the source is, and then as the same file, so many
lines further down. -/
theorem read_lineFeedsBefore (k : Nat) (source path : String) :
    (read (lineFeedsBefore k source) path).toOption = (read source path).toOption.map (·.down k) := by
  rw [toOption_read, toOption_read, tokenize_lineFeedsBefore path]
  cases hlexed : tokenize source with
  | error e => rfl
  | ok lexed =>
    have htest : isTestPath (Relocation.down path k).path = isTestPath path := rfl
    have hmoved :=
      ((Relocation.down path k).moved_readTokens lexed.tokens (laid_of_tokenize hlexed) htest).toOption_eq
    change (readTokens path (lexed.down path k).tokens).toOption.map _ =
      ((readTokens path lexed.tokens).toOption.map _).map _
    change (readTokens path (lexed.down path k).tokens).toOption = _ at hmoved
    rw [hmoved]
    cases hread : readTokens path lexed.tokens with
    | error e => rfl
    | ok found => exact congrArg some (ofParts_lineFeedsBefore k hlexed hread)

end SourceFile

end GoIdiom
