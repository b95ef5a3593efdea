import Breadboard.Description.Vocabulary
import Breadboard.Text.Basic
import Breadboard.Text.Lines

/-!
# Lexemes

A description is cut from the front into pieces: blanks, comments and filler words, which are
skipped; lexemes; and characters that are none of these, which are faults. A comment runs from `#`
to the end of its line, or from `//` to the next `//`. No piece is empty, and the pieces one after
another are the text (`Piece.cut_append`).
-/

set_option autoImplicit false
set_option relaxedAutoImplicit false

namespace Breadboard.Description

/-- The kind of a word, number or sign. -/
inductive Lexeme
  | heading (heading : Heading)
  | keyword (keyword : Keyword)
  | number (value : Nat)
  | name
  | comma
  | arrow
  | openBrace
  | closeBrace
  | semicolon
  | dot
  | minus
  | endOfText
deriving DecidableEq

/-- The heading that a lexeme is. -/
def Lexeme.heading? : Lexeme → Option Heading
  | .heading h => some h
  | _ => none

/-- Why characters are no lexeme. -/
inductive LexicalFault
  | loneSlash
  | loneEquals
  | numberTooLarge (digits : String)
  | invalidCharacter (c : Char)
  | unclosedComment
deriving DecidableEq

/-- The wording of a fault. -/
def LexicalFault.message : LexicalFault → String
  | .loneSlash => "expected '//' to open a comment"
  | .loneEquals => "expected '=>'"
  | .numberTooLarge digits => "number '" ++ digits ++ "' is too large"
  | .invalidCharacter c => "invalid character '" ++ String.singleton c ++ "'"
  | .unclosedComment => "comment is never closed with '//'"

/-- What a piece of a text is to the reader. -/
inductive Role
  | skipped
  | lexeme (lexeme : Lexeme)
  | fault (fault : LexicalFault)
deriving DecidableEq

/-- The role of a word: filler, heading, keyword or name, in this order. -/
def Role.ofWord (word : String) : Role :=
  if isFiller word then .skipped
  else
    match Heading.ofWord? word, Keyword.ofWord? word with
    | some heading, _ => .lexeme (.heading heading)
    | none, some keyword => .lexeme (.keyword keyword)
    | none, none => .lexeme .name

/-- The role of a run of digits. -/
def Role.ofDigits (digits : List Char) : Role :=
  match Text.number? digits with
  | some value => .lexeme (.number value)
  | none => .fault (.numberTooLarge (String.ofList digits))

/-- The role of a character that stands for itself. -/
def Role.ofSign : Char → Role
  | ',' => .lexeme .comma
  | '{' => .lexeme .openBrace
  | '}' => .lexeme .closeBrace
  | ';' => .lexeme .semicolon
  | '.' => .lexeme .dot
  | '-' => .lexeme .minus
  | '/' => .fault .loneSlash
  | '=' => .fault .loneEquals
  | c => .fault (.invalidCharacter c)

/-- What a comment holds after its opening `//`, the closing `//` included, and what follows it. -/
def commentBody? : List Char → Option (List Char × List Char)
  | [] => none
  | '/' :: '/' :: rest => some (['/', '/'], rest)
  | c :: rest => (commentBody? rest).map fun (body, rest) ↦ (c :: body, rest)

/-- A piece cut off the front of a text, with what follows it. -/
structure Piece where
  role : Role
  text : List Char
  rest : List Char
deriving DecidableEq

namespace Piece

/-- The first piece of a text that starts with a given character. -/
def cut (c : Char) (rest : List Char) : Piece :=
  if Text.isBlank c then ⟨.skipped, [c], rest⟩
  else if c.isDigit then
    let digits := c :: rest.takeWhile Char.isDigit
    ⟨.ofDigits digits, digits, rest.dropWhile Char.isDigit⟩
  else if c.isAlpha then
    let word := c :: rest.takeWhile Char.isAlphanum
    ⟨.ofWord (String.ofList word), word, rest.dropWhile Char.isAlphanum⟩
  else
    match c, rest with
    | '#', rest => ⟨.skipped, '#' :: rest.takeWhile (· ≠ '\n'), rest.dropWhile (· ≠ '\n')⟩
    | '=', '>' :: rest => ⟨.lexeme .arrow, ['=', '>'], rest⟩
    | '/', '/' :: rest =>
      match commentBody? rest with
      | some (body, rest) => ⟨.skipped, '/' :: '/' :: body, rest⟩
      | none => ⟨.fault .unclosedComment, '/' :: '/' :: rest, []⟩
    | c, rest => ⟨.ofSign c, [c], rest⟩

end Piece

theorem commentBody?_append {text body rest : List Char}
    (h : commentBody? text = some (body, rest)) : body ++ rest = text := by
  fun_induction commentBody? text generalizing body with
  | case1 => simp at h
  | case2 => cases h; rfl
  | case3 c text _ ih =>
    obtain ⟨⟨inner, after⟩, hinner, heq⟩ := Option.map_eq_some_iff.1 h
    cases heq
    simp [ih hinner]

/-- A piece and what follows it are the text. -/
theorem Piece.cut_append (c : Char) (rest : List Char) :
    (cut c rest).text ++ (cut c rest).rest = c :: rest := by
  unfold cut
  split
  · rfl
  split
  · simp [List.takeWhile_append_dropWhile]
  split
  · simp [List.takeWhile_append_dropWhile]
  split
  · simp [List.takeWhile_append_dropWhile]
  · rfl
  · split
    · next h => simp [commentBody?_append h]
    · simp
  · rfl

/-- No piece is empty. -/
theorem Piece.cut_text_ne_nil (c : Char) (rest : List Char) : (cut c rest).text ≠ [] := by
  unfold cut
  repeat' split
  all_goals simp

theorem Piece.cut_rest_length (c : Char) (rest : List Char) :
    (cut c rest).rest.length ≤ rest.length := by
  have happend := congrArg List.length (cut_append c rest)
  have hpos := List.length_pos_iff.2 (cut_text_ne_nil c rest)
  simp only [List.length_append, List.length_cons] at happend
  omega

end Breadboard.Description
