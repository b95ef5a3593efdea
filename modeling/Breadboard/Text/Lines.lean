/-!
# Places and lines of a text

A position is a line and a column, both counted from one. Columns count characters, and only a
line feed starts a new line.

A text is cut at its line feeds. A carriage return right before a line feed goes with it, and a
final line feed opens no further line. A carriage return anywhere else belongs to its line.
-/

set_option autoImplicit false
set_option relaxedAutoImplicit false

namespace Breadboard.Text

/-! ### Places -/

/-- A place in a text. -/
structure Position where
  line : Nat := 1
  column : Nat := 1
deriving DecidableEq

namespace Position

/-- The position after a character. -/
def after (position : Position) (c : Char) : Position :=
  if c = '\n' then ⟨position.line + 1, 1⟩ else ⟨position.line, position.column + 1⟩

/-- The position after a run of characters. -/
def afterAll (position : Position) (run : List Char) : Position :=
  run.foldl after position

@[simp]
theorem afterAll_nil (position : Position) : position.afterAll [] = position := rfl

@[simp]
theorem afterAll_cons (position : Position) (c : Char) (run : List Char) :
    position.afterAll (c :: run) = (position.after c).afterAll run := rfl

theorem afterAll_append (position : Position) (run more : List Char) :
    position.afterAll (run ++ more) = (position.afterAll run).afterAll more :=
  List.foldl_append

end Position

/-! ### Lines -/

/-- The lines of a text, without their line breaks. -/
def lines : List Char → List (List Char)
  | [] => []
  | '\r' :: '\n' :: rest => [] :: lines rest
  | '\n' :: rest => [] :: lines rest
  | c :: rest =>
    match lines rest with
    | [] => [[c]]
    | line :: more => (c :: line) :: more

/-- The line with a given number, counted from one, or nothing where there is no such line. -/
def lineText (lines : List (List Char)) : Nat → String
  | 0 => ""
  | n + 1 => String.ofList (lines[n]?.getD [])

end Breadboard.Text
