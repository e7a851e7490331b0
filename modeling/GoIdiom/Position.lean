/-!
# Places in a source text

Lines and columns count from one, and a column counts characters.
-/

namespace GoIdiom

/-- A line and a column, both counted from one. -/
structure Position where
  line : Nat
  col : Nat
deriving DecidableEq, Repr, Inhabited

namespace Position

/-- The first character of a text. -/
def start : Position := ⟨1, 1⟩

/-- The place after a character on the same line. -/
def right (p : Position) (count : Nat) : Position := ⟨p.line, p.col + count⟩

/-- The place after a run of characters that may hold line feeds. -/
def after (p : Position) : List Char → Position
  | [] => p
  | c :: rest => if c = '\n' then after ⟨p.line + 1, 1⟩ rest else after (p.right 1) rest

/-- Reading order. -/
def before (p q : Position) : Bool := p.line < q.line || (p.line == q.line && p.col < q.col)

end Position

end GoIdiom
