import Breadboard.Description.Lexeme

/-!
# Reading a text lexeme by lexeme

A cursor is a place in a text with what follows it. `next` skips what is to be skipped and reads one
lexeme or one fault, and at the end of the text the lexeme that says so. `readings` is all of them.
-/

set_option autoImplicit false
set_option relaxedAutoImplicit false

namespace Breadboard.Description

open Text (Position)

/-- A lexeme as it stands in a text. -/
structure Token where
  lexeme : Lexeme
  text : String
  position : Position
deriving DecidableEq

/-- The lexeme at the end of a text. -/
def Token.finish (position : Position) : Token :=
  ⟨.endOfText, "", position⟩

/-- What is read at one go: a lexeme, or characters that are none. -/
inductive Reading
  | token (token : Token)
  | fault (fault : LexicalFault) (position : Position)
deriving DecidableEq

/-- A place in a text, and what follows it. -/
structure Cursor where
  rest : List Char
  position : Position := {}
deriving DecidableEq

namespace Cursor

/-- The beginning of a text. -/
def start (text : String) : Cursor :=
  { rest := text.toList }

/-- The place after a piece. -/
def past (cursor : Cursor) (piece : Piece) : Cursor :=
  ⟨piece.rest, cursor.position.afterAll piece.text⟩

/-- The place after the blanks. -/
def skipBlanks (cursor : Cursor) : Cursor :=
  ⟨cursor.rest.dropWhile Text.isBlank,
    cursor.position.afterAll (cursor.rest.takeWhile Text.isBlank)⟩

/-- The next lexeme or fault, and the place after it. -/
def next (cursor : Cursor) : Reading × Cursor :=
  match _h : cursor.rest with
  | [] => (.token (.finish cursor.position), cursor)
  | c :: rest =>
    let piece := Piece.cut c rest
    match piece.role with
    | .skipped => next (cursor.past piece)
    | .lexeme lexeme =>
      (.token ⟨lexeme, String.ofList piece.text, cursor.position⟩, cursor.past piece)
    | .fault fault => (.fault fault cursor.position, cursor.past piece)
termination_by cursor.rest.length
decreasing_by
  have := Piece.cut_rest_length c rest
  simp only [past, *, List.length_cons]
  omega

/-- Reading anything but the end takes characters away. -/
theorem next_rest_length (cursor : Cursor) :
    cursor.next.1 = .token (.finish cursor.next.2.position) ∨
      cursor.next.2.rest.length < cursor.rest.length := by
  fun_induction next cursor with
  | case1 => exact .inl rfl
  | case2 cursor c rest h piece hrole ih =>
    have := Piece.cut_rest_length c rest
    refine ih.imp_right fun hlt ↦ ?_
    simp only [past, h, List.length_cons, piece] at hlt ⊢
    omega
  | case3 cursor c rest h piece lexeme hrole
  | case4 cursor c rest h piece fault hrole =>
    have := Piece.cut_rest_length c rest
    refine .inr ?_
    simp only [past, h, List.length_cons, piece]
    omega

/-- Every reading up to the end of a text, and where the end is. -/
def readings (cursor : Cursor) : List Reading × Position :=
  let step := cursor.next
  if _h : step.1 = .token (.finish step.2.position) then ([], step.2.position)
  else
    let (more, finish) := readings step.2
    (step.1 :: more, finish)
termination_by cursor.rest.length
decreasing_by exact cursor.next_rest_length.resolve_left _h

end Cursor

end Breadboard.Description
