/-!
# Faults of configuration files

Why the text of a configuration file stands for no document. Only the first of the causes says that the
text breaks a rule of the format; the others name what the reader could not go on with.
-/

namespace GoIdiom

/-- Why a text stands for no document: it breaks a rule, a character is missing where one is needed, a key
or header leads through a value without entries, a text on several lines has an empty key, or a number is
too large. -/
inductive TomlFault where
  | malformed
  | cutShort
  | notTable
  | nameless
  | beyondRange
deriving DecidableEq, Repr

namespace Document.Toml

/-- Parts of a configuration file are read in this monad. -/
abbrev Read := Except TomlFault

/-- A mark that texts are written between. -/
def isMark (c : Char) : Bool := c == '"' || c == '\''

/-- Whether a run of backslashes at the head leaves the character before them escaped. -/
def escapes (behind : List Char) : Bool := (behind.takeWhile (· == '\\')).length % 2 == 1

/-- Whether the characters end with a backslash that escapes what follows. -/
def endsEscaping (cs : List Char) : Bool := escapes cs.reverse

/-- The characters without the first and the last one. -/
def inside (cs : List Char) : List Char := cs.tail.dropLast

end Document.Toml

end GoIdiom
