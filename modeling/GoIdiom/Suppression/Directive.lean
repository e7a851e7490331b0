import GoIdiom.Notice
import GoIdiom.Suppression
import GoIdiom.Text.CharClass
import GoIdiom.Text.Word
import GoIdiom.Token

/-!
# Directives in comments

A directive is a comment such as `gostyle:ignore rule-a, rule-b: reason`. It exempts the line it stands
on or before, the lines up to an end directive, or the whole file. A directive that names no rule is for
every rule.
-/

namespace GoIdiom

/-- What a directive exempts. -/
inductive DirectiveKind where
  | line
  | blockStart
  | blockEnd
  | file
deriving DecidableEq, Repr

namespace DirectiveKind

/-- All kinds. -/
def all : List DirectiveKind := [.blockStart, .blockEnd, .file, .line]

/-- The word of a kind. -/
def word : DirectiveKind → String
  | line => "ignore"
  | blockStart => "ignore-start"
  | blockEnd => "ignore-end"
  | file => "ignore-file"

end DirectiveKind

/-- A directive with the rules and the reason it gives. -/
structure Directive where
  kind : DirectiveKind
  rules : List String
  justification : String
deriving DecidableEq, Repr

namespace Directive

/-- What every directive begins with. -/
def marker : String := "gostyle:"

/-- Whether a character would make a word longer. -/
def continuesWord (c : Char) : Bool := Text.isWord c || c == '-'

/-- The rest of the characters after a word that ends there. -/
def afterWord? (word : String) (cs : List Char) : Option (List Char) :=
  if word.toList.isPrefixOf cs then
    let rest := cs.drop word.length
    if rest.head?.any continuesWord then none else some rest
  else none

/-- The names of rules between commas. -/
def ruleNames (text : String) : List String := ((Text.splitOn text ',').map Text.trim).filter (· != "")

/-- The rules and the reason after the word of a directive. A colon begins the reason. -/
def ofRest (kind : DirectiveKind) (rest : String) : Directive :=
  let (names, reason) := (Text.cutFirst rest ':').getD (rest, "")
  let rules := ruleNames names
  ⟨kind, if rules.isEmpty then [Suppression.wildcard] else rules, Text.trim reason⟩

/-- The directive that the text of a comment gives. -/
def ofBody? (body : String) : Option Directive :=
  let cs := body.toList.dropWhile Text.isBlank
  if marker.toList.isPrefixOf cs then
    let rest := cs.drop marker.length
    DirectiveKind.all.findSome? fun kind => (afterWord? kind.word rest).map (ofRest kind ∘ String.ofList)
  else none

/-- The directive of a comment. -/
def ofComment? (c : Comment) : Option Directive := ofBody? c.body

/-- The suppression that a directive in a comment makes for a range of lines. -/
def suppression (d : Directive) (path : String) (c : Comment) (first last : Int) : Suppression :=
  ⟨d.rules, path, first, last, d.justification, c.pos.line, c.pos.col, .comment⟩

end Directive

namespace Suppression

/-- The suppressions found in comments, and remarks on the directives among them. -/
structure Found where
  suppressions : List Suppression
  notices : List Notice
deriving DecidableEq, Repr

namespace Found

/-- Adds a suppression in front. -/
def add (s : Suppression) (f : Found) : Found := { f with suppressions := s :: f.suppressions }

/-- Adds a notice in front. -/
def remark (n : Notice) (f : Found) : Found := { f with notices := n :: f.notices }

end Found

/-- The line that a directive in front of code is for: the first one with code after the comment, or
that of the comment when no code follows. -/
def targetLine (codeLines : List Nat) (c : Comment) : Nat :=
  (codeLines.find? (c.endLine < ·)).getD c.pos.line

/-- Blocks that no directive ends reach to the last line. -/
def ofOpenBlocks (path : String) (lastLine : Int) : List (Comment × Directive) → Found
  | [] => ⟨[], []⟩
  | (c, d) :: rest =>
    ((ofOpenBlocks path lastLine rest).add (d.suppression path c c.pos.line lastLine)).remark
      (.openBlock path c.pos.line)

/-- The suppressions of the remaining comments; the open blocks are given with the latest first. -/
def scan (path : String) (codeLines : List Nat) (lastLine : Int) (openBlocks : List (Comment × Directive)) :
    List Comment → Found
  | [] => ofOpenBlocks path lastLine openBlocks.reverse
  | c :: rest =>
    let line : Int := c.pos.line
    match Directive.ofComment? c with
    | none => scan path codeLines lastLine openBlocks rest
    | some d =>
      match d.kind with
      | .blockEnd =>
        match openBlocks with
        | [] => (scan path codeLines lastLine [] rest).remark (.unmatchedEnd path line)
        | (start, opened) :: outer =>
          (scan path codeLines lastLine outer rest).add (opened.suppression path start start.pos.line line)
      | .blockStart => scan path codeLines lastLine ((c, d) :: openBlocks) rest
      | .file => (scan path codeLines lastLine openBlocks rest).add (d.suppression path c 1 endOfFile)
      | .line =>
        let target : Int := if c.trailing then line else targetLine codeLines c
        (scan path codeLines lastLine openBlocks rest).add (d.suppression path c target target)

/-- The suppressions that comments declare, in the order of their declaration. -/
def ofComments (path : String) (codeLines : List Nat) (lastLine : Int) (comments : List Comment) : Found :=
  let found := scan path (codeLines.mergeSort (· ≤ ·)) lastLine [] comments
  { found with suppressions := found.suppressions.mergeSort declaredBefore }

end Suppression

end GoIdiom
