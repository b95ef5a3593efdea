import Breadboard.Text.Lines

/-!
# Diagnostics

A diagnostic says what is wrong with a text, where, and shows the line with a caret under the
place. A report is the text of all diagnostics and their number.
-/

set_option autoImplicit false
set_option relaxedAutoImplicit false

namespace Breadboard

open Text

/-- What a diagnostic is about. -/
inductive Category
  /-- The text does not have the form that the language asks for. -/
  | form
  /-- The text asks for something that its circuit cannot have. -/
  | meaning
  /-- A value is out of order. -/
  | value
  | unclassed
deriving DecidableEq

/-- The heading of a category in a report. -/
def Category.label : Category → String
  | .form => "SyntaxError"
  | .meaning => "SemanticError"
  | .value => "ValueError"
  | .unclassed => "UnclassedError"

/-- One complaint about a text. -/
structure Diagnostic where
  category : Category
  message : String
  position : Position
  lineText : String
deriving DecidableEq

namespace Diagnostic

/-- A diagnostic as text: its line, a caret under its column, its message, and a rule. -/
def render (d : Diagnostic) : String :=
  "Error on line " ++ toString d.position.line ++ ":\n" ++
    "    " ++ d.lineText ++ "\n" ++
    "    " ++ String.ofList (List.replicate (d.position.column - 1) ' ') ++ "^\n" ++
    d.category.label ++ ": " ++ d.message ++ "\n" ++
    String.ofList (List.replicate 30 '-') ++ "\n"

/-- The number of diagnostics of a category. -/
def count (log : List Diagnostic) (category : Category) : Nat :=
  log.countP (·.category = category)

/-- All diagnostics as text, with their number at the end. -/
def report (log : List Diagnostic) : String :=
  if log.isEmpty then "No errors found.\n"
  else String.join (log.map render) ++ toString log.length ++ " error(s) found.\n"

end Diagnostic

end Breadboard
