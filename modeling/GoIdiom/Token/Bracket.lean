import GoIdiom.Token
import GoIdiom.SourceFault

/-!
# Brackets

A token list is well bracketed when every closer meets an opener of its own type. `matchBrackets`
checks this with a stack and gives the pairs; `splitGroup` finds the end of one group by counting
depth, whatever the types of the brackets.
-/

namespace GoIdiom.Token

/-- The closer that an opener asks for. -/
def closerOf (opener : String) : String :=
  if opener = "(" then ")" else if opener = "[" then "]" else "\x7d"

/-- Pairs openers with closers, given the openers still open with their indices, innermost first. -/
def matchBracketsFrom (index : Nat) (opened : List (Nat × Token)) :
    List Token → Except SourceFault (List (Nat × Nat))
  | [] =>
    match opened with
    | [] => .ok []
    | (_, opener) :: _ => .error ⟨.unclosedBracket opener.text, opener.pos⟩
  | t :: rest =>
    if t.isOpener then matchBracketsFrom (index + 1) ((index, t) :: opened) rest
    else if t.isCloser then
      match opened with
      | [] => .error ⟨.strayCloser t.text, t.pos⟩
      | (i, opener) :: outer =>
        if closerOf opener.text = t.text then
          (matchBracketsFrom (index + 1) outer rest).map ((i, index) :: ·)
        else .error ⟨.mismatchedCloser opener.text opener.pos t.text, t.pos⟩
    else matchBracketsFrom (index + 1) opened rest

/-- The index of every opener with the index of its closer, in the order of the closers. -/
def matchBrackets (tokens : List Token) : Except SourceFault (List (Nat × Nat)) :=
  matchBracketsFrom 0 [] tokens

/-- A bracket group seen from inside: its contents, the bracket that ends it, and what follows. -/
structure Group where
  inner : List Token
  closer : Token
  rest : List Token
deriving DecidableEq, Repr

/-- Cuts at the first token that ends the present group, where `deeper` tokens open inner groups. -/
def splitGroup (deeper closes : Token → Bool) (depth : Nat) : List Token → Option Group
  | [] => none
  | t :: rest =>
    if closes t then
      match depth with
      | 0 => some ⟨[], t, rest⟩
      | d + 1 => (splitGroup deeper closes d rest).map fun g => { g with inner := t :: g.inner }
    else
      (splitGroup deeper closes (if deeper t then depth + 1 else depth) rest).map fun g =>
        { g with inner := t :: g.inner }

/-- The group whose opener has just been read. -/
def closeGroup (tokens : List Token) : Option Group := splitGroup isOpener isCloser 0 tokens

/-- The contents of the group that ends the list, and what stands before its opener. -/
def lastGroup? (tokens : List Token) : Option (List Token × List Token) :=
  match tokens.reverse with
  | [] => none
  | _ :: reversed =>
    (splitGroup isCloser isOpener 0 reversed).map fun g => (g.rest.reverse, g.inner.reverse)

/-- The tokens in a group, its closing bracket and the rest are what it was split from. -/
theorem splitGroup_eq_append {deeper closes : Token → Bool} {depth : Nat} {tokens : List Token} {g : Group}
    (h : splitGroup deeper closes depth tokens = some g) :
    g.inner ++ g.closer :: g.rest = tokens := by
  induction tokens generalizing depth g with
  | nil => simp [splitGroup] at h
  | cons t rest ih =>
    unfold splitGroup at h
    split at h
    · cases depth with
      | zero => simp only [Option.some.injEq] at h; subst h; rfl
      | succ d =>
        simp only [Option.map_eq_some_iff] at h
        obtain ⟨g', hg, rfl⟩ := h
        simp [ih hg]
    · simp only [Option.map_eq_some_iff] at h
      obtain ⟨g', hg, rfl⟩ := h
      simp [ih hg]

/-- A group and the rest have all of the tokens. -/
theorem closeGroup_length {tokens : List Token} {g : Group} (h : closeGroup tokens = some g) :
    g.inner.length + g.rest.length + 1 = tokens.length := by
  rw [← splitGroup_eq_append h]
  simp only [List.length_append, List.length_cons]
  omega

end GoIdiom.Token
