import GoIdiom.Construct
import GoIdiom.Rule

/-!
# Notices

What the analysis tells its user besides the findings: a matcher that gave up, and directives that do
not fit together.
-/

namespace GoIdiom

/-- A remark on the analysis of a file. -/
inductive Notice where
  | matcherFailed (path : String) (pos : Position) (message : String)
  | unmatchedEnd (path : String) (line : Int)
  | openBlock (path : String) (line : Int)
  | unknownRules (path : String) (line : Int) (rules : List String)
deriving DecidableEq, Repr

namespace Notice

/-- How serious a notice is. -/
def level : Notice → String
  | matcherFailed .. => "ERROR"
  | _ => "WARNING"

/-- The wording of a notice. -/
def message : Notice → String
  | matcherFailed path pos message =>
    path ++ ":" ++ toString pos.line ++ ":" ++ toString pos.col ++ ": " ++ message
  | unmatchedEnd path line =>
    path ++ ":" ++ toString line ++ ": gostyle:ignore-end without a matching ignore-start"
  | openBlock path line =>
    path ++ ":" ++ toString line ++ ": gostyle:ignore-start is never closed; it covers the rest of the file"
  | unknownRules path line rules =>
    path ++ ":" ++ toString line ++ ": suppression names unknown rule(s) " ++ Text.joinWith ", " rules

/-- The notice as a line of the log. -/
def text (n : Notice) : String := n.level ++ ": " ++ n.message

end Notice

end GoIdiom
