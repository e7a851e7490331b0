import GoIdiom.Text.Letter
import GoIdiom.Text.Search

/-!
# Conventions on names

What a name says by its form: that it is exported, that it holds an error, that a call by it logs.
-/

namespace GoIdiom.Name

/-- Whether the name begins with an upper-case letter. -/
def isExported (name : String) : Bool := name.toList.head?.any Text.isUpper

/-- Whether the name begins with a lower-case letter. -/
def startsLower (name : String) : Bool := name.toList.head?.any Text.isLower

/-- A plain Latin letter or digit. -/
def isPlain (c : Char) : Bool := c.isAlphanum

/-- Whether the characters are those of an error variable: `err`, `fooErr`, `errFoo`, `err2`. -/
def isErrorChars (cs : List Char) : Bool :=
  cs == ['e', 'r', 'r'] ||
    (cs.all isPlain &&
      ((cs.head?.any (·.isLower) && cs.length ≥ 4 && ['E', 'r', 'r'].isSuffixOf cs) ||
        (match cs with
          | 'e' :: 'r' :: 'r' :: c :: _ => c.isUpper || c.isDigit
          | _ => false)))

/-- Whether the name is by convention one of an error variable. A line feed at its end is passed
over. -/
def isError (name : String) : Bool :=
  match name.toList.reverse with
  | '\n' :: rest => isErrorChars rest.reverse
  | _ => isErrorChars name.toList

/-- Calls that print. -/
def printCalls : List String :=
  ["fmt.Print", "fmt.Printf", "fmt.Println", "fmt.Fprint", "fmt.Fprintf", "fmt.Fprintln"]

/-- Whether a call of this function logs or prints. -/
def isLogCall (callee : String) : Bool :=
  printCalls.contains callee ||
    match Text.cutLast callee '.' with
    | some (receiver, _) => Text.contains (Text.lower receiver) "log"
    | none => false

/-- The names that test functions begin with. -/
def testHeads : List String := ["Test", "Benchmark", "Example", "Fuzz"]

/-- Whether the name is one of a test function. -/
def isTest (name : String) : Bool := Text.startsWithAny name testHeads

end GoIdiom.Name
