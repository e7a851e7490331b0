import GoIdiom.Token.Bracket

/-!
# Cutting token runs outside brackets

Two scanners cut a run at separators outside any bracket. `splitTop` counts depth and works on every
run; `spanTop` and `splitParts` jump over whole groups and are meant for well bracketed runs.
-/

namespace GoIdiom.Token

/-- Puts a token at the head of the first group. -/
def consFirst (t : Token) : List (List Token) → List (List Token)
  | [] => [[t]]
  | group :: groups => (t :: group) :: groups

/-- The change of depth that a token makes. -/
def depthStep (t : Token) : Int := if t.isOpener then 1 else if t.isCloser then -1 else 0

/-- The groups between separators at depth zero, starting from a depth. -/
def splitTopFrom (separates : Token → Bool) (depth : Int) : List Token → List (List Token)
  | [] => [[]]
  | t :: rest =>
    if depth = 0 && separates t then [] :: splitTopFrom separates depth rest
    else consFirst t (splitTopFrom separates (depth + t.depthStep) rest)

/-- The groups between commas outside brackets, one more than there are commas. -/
def splitCommas (tokens : List Token) : List (List Token) := splitTopFrom (·.isOp ",") 0 tokens

/-- The groups between semicolons outside brackets, one more than there are semicolons. -/
def splitSemis (tokens : List Token) : List (List Token) := splitTopFrom (·.isSemi) 0 tokens

/-- The items between commas, empty ones left out. -/
def commaItems (tokens : List Token) : List (List Token) := (splitCommas tokens).filter (!·.isEmpty)

/-- An assignment cut in two. -/
structure Assignment where
  left : List Token
  op : Token
  right : List Token
deriving DecidableEq, Repr

/-- Cuts at the first assignment sign outside brackets, starting from a depth. -/
def cutAssignmentFrom (depth : Int) : List Token → Option Assignment
  | [] => none
  | t :: rest =>
    if depth = 0 && t.isOpIn [":=", "="] then some ⟨[], t, rest⟩
    else (cutAssignmentFrom (depth + t.depthStep) rest).map fun a => { a with left := t :: a.left }

/-- Cuts at the first `:=` or `=` outside brackets. -/
def cutAssignment (tokens : List Token) : Option Assignment := cutAssignmentFrom 0 tokens

/-- A token with the group it opens, if any, and what follows. -/
def takePiece (t : Token) (rest : List Token) : List Token × List Token :=
  if t.isOpener then
    match closeGroup rest with
    | some g => (t :: (g.inner ++ [g.closer]), g.rest)
    | none => ([t], rest)
  else ([t], rest)

/-- The first piece of some tokens and what follows it are the tokens. -/
theorem takePiece_append (t : Token) (rest : List Token) :
    (takePiece t rest).1 ++ (takePiece t rest).2 = t :: rest := by
  unfold takePiece
  split
  · split
    · next g h => simp [← splitGroup_eq_append h]
    · rfl
  · rfl

/-- What follows the first piece is shorter than the tokens. -/
theorem takePiece_length (t : Token) (rest : List Token) : (takePiece t rest).2.length ≤ rest.length := by
  unfold takePiece
  split
  · split
    · next g h => have := closeGroup_length h; simp only; omega
    · exact Nat.le_refl _
  · exact Nat.le_refl _

/-- The run up to the first token outside brackets that stops it, and the rest from that token on. -/
def spanTop (stops : Token → Bool) : List Token → List Token × List Token
  | [] => ([], [])
  | t :: rest =>
    if stops t then ([], t :: rest)
    else
      let piece := takePiece t rest
      let more := spanTop stops piece.2
      (piece.1 ++ more.1, more.2)
termination_by tokens => tokens.length
decreasing_by have := takePiece_length t rest; simp only [List.length_cons]; omega

/-- What stands before the first stop and what follows are the tokens. -/
theorem spanTop_append (stops : Token → Bool) (tokens : List Token) :
    (spanTop stops tokens).1 ++ (spanTop stops tokens).2 = tokens := by
  fun_induction spanTop stops tokens with
  | case1 => rfl
  | case2 => rfl
  | case3 t rest _ piece more ih =>
    simp only [more, piece, List.append_assoc] at ih ⊢
    rw [ih, takePiece_append]

/-- What stands from the first stop on is no longer than the tokens. -/
theorem spanTop_length (stops : Token → Bool) (tokens : List Token) :
    (spanTop stops tokens).2.length ≤ tokens.length := by
  have h := congrArg List.length (spanTop_append stops tokens)
  simp only [List.length_append] at h
  omega

/-- The parts between separators, jumping over groups, each with the token that ends it. -/
def endedParts (separates : Token → Bool) (tokens : List Token) : List (List Token × Option Token) :=
  match _h : spanTop separates tokens with
  | (part, []) => [(part, none)]
  | (part, t :: rest) => (part, some t) :: endedParts separates rest
termination_by tokens.length
decreasing_by
  have := spanTop_length separates tokens
  rw [_h] at this
  simp only [List.length_cons] at this
  omega

/-- The non-empty parts between separators, jumping over groups. -/
def splitParts (separates : Token → Bool) (tokens : List Token) : List (List Token) :=
  ((endedParts separates tokens).map (·.1)).filter (!·.isEmpty)

end GoIdiom.Token
