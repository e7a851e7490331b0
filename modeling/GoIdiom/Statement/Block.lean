import GoIdiom.Token.Split

/-!
# Finding the brace that opens a block

A body follows a signature, and a block follows the header of a branch, loop, switch or select. The
braces of struct and interface types are passed over, and so are composite literals in a header: the
block's brace is one whose closing brace ends the statement.
-/

namespace GoIdiom

/-- A brace group in a token run: what stands before it, its braces and contents, what follows. -/
structure Block where
  before : List Token
  opener : Token
  inner : List Token
  closer : Token
  rest : List Token
deriving DecidableEq, Repr

namespace Block

/-- The block with more tokens before it. -/
def prepend (tokens : List Token) (b : Block) : Block := { b with before := tokens ++ b.before }

/-- The number of tokens from the first one before the block to the last one after it. -/
def size (b : Block) : Nat := b.before.length + b.inner.length + b.rest.length + 2

/-- Tokens put before a block add their number to its size. -/
theorem size_prepend (tokens : List Token) (b : Block) : (b.prepend tokens).size = tokens.length + b.size := by
  simp only [size, prepend, List.length_append]; omega

/-- The block that a brace opens whose following tokens are given. -/
def ofOpener? (opener : Token) (rest : List Token) : Option Block :=
  (Token.closeGroup rest).map fun g => ⟨[], opener, g.inner, g.closer, g.rest⟩

/-- The block at an opening brace has the size of what it was read from. -/
theorem size_ofOpener? {opener : Token} {rest : List Token} {b : Block} (h : ofOpener? opener rest = some b) :
    b.size = rest.length + 1 := by
  obtain ⟨g, hg, rfl⟩ := Option.map_eq_some_iff.1 h
  have := Token.closeGroup_length hg
  simp only [size, List.length_nil]; omega

/-- Whether braces after this token hold the fields or methods of a type. -/
def opensType (t : Token) : Bool := t.isKeywordIn ["interface", "struct"]

/-- The body after a signature, if one follows before the statement ends. `previous` is the token
before the run. -/
def body? (previous : Token) : List Token → Option Block
  | [] => none
  | t :: rest =>
    if t.isSemi then none
    else if t.isOp "\x7b" && !opensType previous then ofOpener? t rest
    else
      let piece := Token.takePiece t rest
      (body? (piece.1.getLastD t) piece.2).map (prepend piece.1)
termination_by tokens => tokens.length
decreasing_by have := Token.takePiece_length t rest; simp only [List.length_cons]; omega

/-- The first piece of some tokens and what follows it have all of the tokens. -/
theorem length_takePiece (t : Token) (rest : List Token) :
    (Token.takePiece t rest).1.length + (Token.takePiece t rest).2.length = rest.length + 1 := by
  have h := congrArg List.length (Token.takePiece_append t rest)
  simpa only [List.length_append, List.length_cons] using h

/-- The body found behind a signature and all around it have the size of what was searched. -/
theorem size_body? {previous : Token} {tokens : List Token} {b : Block} (h : body? previous tokens = some b) :
    b.size = tokens.length := by
  fun_induction body? previous tokens generalizing b with
  | case1 => simp at h
  | case2 => simp at h
  | case3 => rw [size_ofOpener? h, List.length_cons]
  | case4 =>
    rename_i t rest _ _ piece ih
    obtain ⟨b', hb, rfl⟩ := Option.map_eq_some_iff.1 h
    have := length_takePiece t rest
    rw [size_prepend, ih hb, List.length_cons]
    exact this

end Block

/-- The parts of a function literal: signature, body, and what follows. -/
structure LiteralCut where
  keyword : Token
  open' : Token
  params : List Token
  close' : Token
  body : Block
deriving DecidableEq, Repr

namespace LiteralCut

/-- Cuts a function literal that begins with the keyword. A signature without a body is none. -/
def ofKeyword? (keyword : Token) : List Token → Option LiteralCut
  | [] => none
  | t :: rest =>
    if keyword.isKeyword "func" && t.isOp "(" then
      match Token.closeGroup rest with
      | some g => (Block.body? g.closer g.rest).map fun b => ⟨keyword, t, g.inner, g.closer, b⟩
      | none => none
    else none

/-- The signature of the literal, from its keyword to the token before the body. -/
def signature (c : LiteralCut) : List Token :=
  c.keyword :: c.open' :: (c.params ++ c.close' :: c.body.before)

/-- The literal with the contents of its body cut out. -/
def shell (c : LiteralCut) : List Token := c.signature ++ [c.body.opener, c.body.closer]

/-- All tokens of the literal. -/
def all (c : LiteralCut) : List Token := c.signature ++ c.body.opener :: (c.body.inner ++ [c.body.closer])

/-- A literal and what follows it have all of the tokens. -/
theorem length_all_add_rest {keyword : Token} {tokens : List Token} {c : LiteralCut}
    (h : ofKeyword? keyword tokens = some c) : c.all.length + c.body.rest.length = tokens.length + 1 := by
  unfold ofKeyword? at h
  split at h
  · simp at h
  · split at h
    · split at h
      · next g hg =>
        obtain ⟨b, hb, rfl⟩ := Option.map_eq_some_iff.1 h
        have h1 := Token.closeGroup_length hg
        have h2 := Block.size_body? hb
        simp only [Block.size] at h2
        simp only [all, signature, List.length_append, List.length_cons, List.length_nil]
        omega
      · simp at h
    · simp at h

/-- What follows a literal is shorter than what it was cut from. -/
theorem rest_length {keyword : Token} {tokens : List Token} {c : LiteralCut}
    (h : ofKeyword? keyword tokens = some c) : c.body.rest.length < tokens.length := by
  have := length_all_add_rest h
  simp only [all, signature, List.length_append, List.length_cons, List.length_nil] at this
  omega

/-- The body of a literal is shorter than what it was cut from. -/
theorem inner_length {keyword : Token} {tokens : List Token} {c : LiteralCut}
    (h : ofKeyword? keyword tokens = some c) : c.body.inner.length < tokens.length := by
  have := length_all_add_rest h
  simp only [all, signature, List.length_append, List.length_cons, List.length_nil] at this
  omega

end LiteralCut

namespace Block

/-- Whether a statement ends before these tokens, an other branch counting as its end. -/
def endsStatement : List Token → Bool
  | [] => true
  | t :: _ => t.isSemi || t.isKeyword "else" || t.isOp "\x7d"

/-- The block after the header of a compound statement. Function literals in the header are passed
over whole. `previous` is the token before the run. -/
def afterHeader? (previous : Token) : List Token → Option Block
  | [] => none
  | t :: rest =>
    match _h : LiteralCut.ofKeyword? t rest with
    | some c => (afterHeader? c.body.closer c.body.rest).map (prepend c.all)
    | none =>
      if t.isOp "\x7b" && !opensType previous && (Token.closeGroup rest).any (endsStatement ·.rest) then
        ofOpener? t rest
      else
        let piece := Token.takePiece t rest
        (afterHeader? (piece.1.getLastD t) piece.2).map (prepend piece.1)
termination_by tokens => tokens.length
decreasing_by
  · have := LiteralCut.rest_length _h; simp only [List.length_cons]; omega
  · have := Token.takePiece_length t rest; simp only [List.length_cons]; omega

/-- The block found behind a header and all around it have the size of what was searched. -/
theorem size_afterHeader? {previous : Token} {tokens : List Token} {b : Block}
    (h : afterHeader? previous tokens = some b) : b.size = tokens.length := by
  fun_induction afterHeader? previous tokens generalizing b with
  | case1 => simp at h
  | case2 previous t rest c hc ih =>
    obtain ⟨b', hb, rfl⟩ := Option.map_eq_some_iff.1 h
    have := LiteralCut.length_all_add_rest hc
    rw [size_prepend, ih hb, List.length_cons]
    exact this
  | case3 => rw [size_ofOpener? h, List.length_cons]
  | case4 =>
    rename_i t rest _ _ piece ih
    obtain ⟨b', hb, rfl⟩ := Option.map_eq_some_iff.1 h
    have := length_takePiece t rest
    rw [size_prepend, ih hb, List.length_cons]
    exact this

end Block

end GoIdiom
