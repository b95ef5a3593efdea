import Breadboard.Proofs.Description.Grammar
import Breadboard.Proofs.Description.Identifiers

/-!
# Symbols written down

A symbol is written as its name, its word, its digits or its sign, and a blank after it keeps it
apart from the next. What is written so is scanned as the symbols that it was written from
(`exists_tokens_of_write`).
-/

set_option autoImplicit false
set_option relaxedAutoImplicit false

namespace Breadboard.Description

/-- How a lexeme is written, if it is no name. -/
def Lexeme.written : Lexeme → List Char
  | .heading title => title.word.toList
  | .keyword verb => verb.word.toList
  | .number value => Nat.toDigits 10 value
  | .comma => [',']
  | .arrow => ['=', '>']
  | .openBrace => ['{']
  | .closeBrace => ['}']
  | .semicolon => [';']
  | .dot => ['.']
  | .minus => ['-']
  | .name | .endOfText => []

namespace Symbol

/-- How a symbol is written. -/
def written (symbol : Symbol) : List Char :=
  if symbol.lexeme = .name then symbol.text.toList else symbol.lexeme.written

/-- What is written after a symbol: a line ends where a statement or a block begins or ends. -/
def gap (symbol : Symbol) : Char :=
  if symbol.lexeme ∈ [.openBrace, .closeBrace, .semicolon] then '\n' else ' '

/-- A symbol that can be written: names are identifiers, numbers are not too great, and nothing
stands for the end of the text. -/
def Writable (symbol : Symbol) : Prop :=
  match symbol.lexeme with
  | .name => IsIdentifier symbol.text
  | .number value => symbol.text = "" ∧ value ≤ Text.maxNumber
  | .endOfText => False
  | _ => symbol.text = ""

end Symbol

/-- Symbols written one after another. -/
def write (symbols : List Symbol) : List Char :=
  symbols.flatMap fun symbol ↦ symbol.written ++ [symbol.gap]

/-! ### Blanks -/

section Blanks

variable {c : Char}

theorem isBlank_gap (symbol : Symbol) : Text.isBlank symbol.gap = true := by
  rw [Symbol.gap]
  split <;> decide

theorem isAlphanum_gap (symbol : Symbol) : symbol.gap.isAlphanum = false := by
  rw [Symbol.gap]
  split <;> decide

/-- Letters and digits are no blanks. -/
theorem isBlank_eq_false_of_isAlphanum (h : c.isAlphanum) : Text.isBlank c = false := by
  have hcode : ((65 ≤ c.toNat ∧ c.toNat ≤ 90) ∨ (97 ≤ c.toNat ∧ c.toNat ≤ 122)) ∨
      (48 ≤ c.toNat ∧ c.toNat ≤ 57) := by
    rcases Bool.or_eq_true_iff.mp h with hletter | hdigit
    · rcases Bool.or_eq_true_iff.mp hletter with hupper | hlower
      · exact .inl (.inl (of_decide_eq_true hupper))
      · obtain ⟨hle, hge⟩ := Bool.and_eq_true_iff.mp hlower
        exact .inl (.inr ⟨of_decide_eq_true hle, of_decide_eq_true hge⟩)
    · obtain ⟨hle, hge⟩ := Bool.and_eq_true_iff.mp hdigit
      exact .inr ⟨of_decide_eq_true hle, of_decide_eq_true hge⟩
  have hapart : ∀ range ∈ Text.blankRanges, range.2 < 48 ∨ 57 < range.1 ∧ range.2 < 65 ∨
      90 < range.1 ∧ range.2 < 97 ∨ 122 < range.1 := by
    decide
  rw [Text.isBlank, List.any_eq_false]
  intro range hrange
  have := hapart range hrange
  rw [Bool.and_eq_true, decide_eq_true_iff, decide_eq_true_iff]
  omega

/-- A blank in front of a cursor makes no difference to what is read. -/
theorem Cursor.readings_blank (h : Text.isBlank c = true) (rest : List Char)
    (position : Text.Position) :
    (Cursor.mk (c :: rest) position).readings = (Cursor.mk rest (position.after c)).readings := by
  have hcut : Piece.cut c rest = ⟨.skipped, [c], rest⟩ := by
    unfold Piece.cut
    rw [if_pos h]
  have hnext : (Cursor.mk (c :: rest) position).next =
      (Cursor.mk rest (position.after c)).next := by
    rw [Cursor.next]
    split
    · next hnil => cases hnil
    · next hcons =>
      cases hcons
      rw [hcut]
      rfl
  rw [Cursor.readings, hnext]
  exact (Cursor.readings.eq_1 _).symm

end Blanks

/-! ### Pieces -/

section Pieces

variable {first c : Char} {word rest : List Char} {p : Char → Bool} {symbol : Symbol}

theorem takeWhile_append_cons (hword : word.all p) (hc : p c = false) :
    (word ++ c :: rest).takeWhile p = word := by
  rw [List.takeWhile_append_of_pos (List.all_eq_true.mp hword), List.takeWhile_cons, hc]
  simp

theorem dropWhile_append_cons (hword : word.all p) (hc : p c = false) :
    (word ++ c :: rest).dropWhile p = c :: rest := by
  rw [List.dropWhile_append_of_pos (List.all_eq_true.mp hword), List.dropWhile_cons, hc]
  simp

theorem isDigit_eq_false_of_isAlphanum (h : c.isAlphanum = false) : c.isDigit = false :=
  (Bool.or_eq_false_iff.mp h).2

/-- A word is cut off as a whole. -/
theorem cut_word (hfirst : first.isAlpha) (hword : word.all Char.isAlphanum)
    (hc : c.isAlphanum = false) : Piece.cut first (word ++ c :: rest) =
      ⟨.ofWord (String.ofList (first :: word)), first :: word, c :: rest⟩ := by
  have halphanum : first.isAlphanum := by rw [Char.isAlphanum, hfirst, Bool.true_or]
  have hdigit : ¬ first.isDigit := fun hdigit ↦
    Bool.false_ne_true ((isAlpha_eq_false_of_isDigit hdigit).symm.trans hfirst)
  unfold Piece.cut
  rw [isBlank_eq_false_of_isAlphanum halphanum, if_neg Bool.false_ne_true,
    if_neg hdigit, if_pos hfirst, takeWhile_append_cons hword hc, dropWhile_append_cons hword hc]

/-- A number is cut off as a whole. -/
theorem cut_digits (hfirst : first.isDigit) (hword : word.all Char.isDigit)
    (hc : c.isAlphanum = false) : Piece.cut first (word ++ c :: rest) =
      ⟨.ofDigits (first :: word), first :: word, c :: rest⟩ := by
  have halphanum : first.isAlphanum := by rw [Char.isAlphanum, hfirst, Bool.or_true]
  have hc' := isDigit_eq_false_of_isAlphanum hc
  unfold Piece.cut
  rw [isBlank_eq_false_of_isAlphanum halphanum, if_neg Bool.false_ne_true,
    if_pos hfirst, takeWhile_append_cons hword hc', dropWhile_append_cons hword hc']

/-- The digits of a number that is not too great are read as the number. -/
theorem role_toDigits {value : Nat} (h : value ≤ Text.maxNumber) :
    Role.ofDigits (Nat.toDigits 10 value) = .lexeme (.number value) := by
  rw [Role.ofDigits, Text.number?, Nat.ofDigitChars_toDigits (by decide) (by decide), if_pos h]

/-- A piece that begins with some characters is cut off by them. -/
def CutsOff (text : List Char) (lexeme : Lexeme) (gap : Char) : Prop :=
  ∃ first more, text = first :: more ∧
    ∀ rest, Piece.cut first (more ++ gap :: rest) = ⟨.lexeme lexeme, text, gap :: rest⟩

theorem cutsOff_word {text : List Char} {lexeme : Lexeme}
    (hletter : text.head?.any Char.isAlpha) (halphanumeric : text.all Char.isAlphanum)
    (hrole : Role.ofWord (String.ofList text) = .lexeme lexeme) (hc : c.isAlphanum = false) :
    CutsOff text lexeme c := by
  cases text with
  | nil => cases hletter
  | cons first word =>
    rw [List.all_cons, Bool.and_eq_true] at halphanumeric
    exact ⟨first, word, rfl, fun rest ↦ hrole ▸ cut_word hletter halphanumeric.2 hc⟩

theorem cutsOff_number {value : Nat} (h : value ≤ Text.maxNumber) (hc : c.isAlphanum = false) :
    CutsOff (Nat.toDigits 10 value) (.number value) c := by
  have hrole := role_toDigits h
  have hdigits : (Nat.toDigits 10 value).all Char.isDigit := List.all_eq_true.mpr fun d hd ↦
    Nat.isDigit_of_mem_toDigits (by decide) (by decide) hd
  cases htext : Nat.toDigits 10 value with
  | nil => exact absurd htext Nat.toDigits_ne_nil
  | cons first word =>
    rw [htext] at hrole hdigits
    rw [List.all_cons, Bool.and_eq_true] at hdigits
    exact ⟨first, word, rfl, fun rest ↦ hrole ▸ cut_digits hdigits.1 hdigits.2 hc⟩

/-- A symbol that is written down is cut off as it was. -/
theorem cutsOff_written (h : symbol.Writable) :
    CutsOff symbol.written symbol.lexeme symbol.gap := by
  have hgap := isAlphanum_gap symbol
  obtain ⟨lexeme, text⟩ := symbol
  cases lexeme with
  | heading title =>
    obtain rfl : text = "" := h
    refine cutsOff_word ?_ ?_ ?_ hgap <;> cases title <;> decide
  | keyword verb =>
    obtain rfl : text = "" := h
    refine cutsOff_word ?_ ?_ ?_ hgap <;> cases verb <;> decide
  | number value => exact cutsOff_number h.2 hgap
  | name =>
    have hname : IsIdentifier text := h
    exact cutsOff_word hname.letter hname.alphanumeric
      (String.ofList_toList.symm ▸ hname.role) hgap
  | endOfText => exact h.elim
  | arrow => exact ⟨'=', ['>'], rfl, fun rest ↦ rfl⟩
  | comma | openBrace | closeBrace | semicolon | dot | minus =>
    exact ⟨_, [], rfl, fun rest ↦ rfl⟩

/-- What is written of a symbol says what the symbol is. -/
theorem symbol_of_written (h : symbol.Writable) (position : Text.Position) :
    (Token.mk symbol.lexeme (String.ofList symbol.written) position).symbol = symbol := by
  obtain ⟨lexeme, text⟩ := symbol
  cases lexeme with
  | name => exact congrArg (Symbol.mk .name) String.ofList_toList
  | number value =>
    obtain rfl : text = "" := h.1
    rfl
  | endOfText => exact h.elim
  | _ =>
    obtain rfl : text = "" := h
    rfl

theorem Cursor.readings_of_cut {lexeme : Lexeme} {text after : List Char}
    (hcut : Piece.cut first rest = ⟨.lexeme lexeme, text, after⟩) (hend : lexeme ≠ .endOfText)
    (position : Text.Position) : (Cursor.mk (first :: rest) position).readings.1 =
      .token ⟨lexeme, String.ofList text, position⟩ ::
        (Cursor.mk after (position.afterAll text)).readings.1 := by
  have hnext : (Cursor.mk (first :: rest) position).next =
      (.token ⟨lexeme, String.ofList text, position⟩,
        ⟨after, position.afterAll text⟩) := by
    rw [Cursor.next]
    split
    · next hnil => cases hnil
    · next hcons =>
      cases hcons
      rw [hcut]
      rfl
  have hinside : ¬ Reading.token ⟨lexeme, String.ofList text, position⟩ =
      .token (.finish (position.afterAll text)) :=
    fun h ↦ hend (Token.mk.inj (Reading.token.inj h)).1
  rw [Cursor.readings, hnext, dif_neg hinside]

theorem ne_endOfText_of_writable (h : symbol.Writable) : symbol.lexeme ≠ .endOfText := by
  intro hend
  rw [Symbol.Writable, hend] at h
  exact h

/-- What is written is read as one token with the symbol that was written. -/
theorem Cursor.readings_written (h : symbol.Writable) (rest : List Char)
    (position : Text.Position) : ∃ (token : Token) (next : Text.Position), token.symbol = symbol ∧
      (Cursor.mk (symbol.written ++ symbol.gap :: rest) position).readings.1 =
        .token token :: (Cursor.mk rest next).readings.1 := by
  obtain ⟨first, more, hwritten, hcut⟩ := cutsOff_written h
  refine ⟨_, (position.afterAll symbol.written).after symbol.gap,
    symbol_of_written h position, ?_⟩
  rw [← Cursor.readings_blank (isBlank_gap symbol),
    ← Cursor.readings_of_cut (hcut rest) (ne_endOfText_of_writable h), hwritten]
  rfl

end Pieces

/-! ### Whole texts -/

/-- What is written is scanned as what it was written from. -/
theorem exists_tokens_of_write {symbols : List Symbol} (h : ∀ symbol ∈ symbols, symbol.Writable)
    (position : Text.Position) : ∃ tokens : List Token, tokens.map Token.symbol = symbols ∧
      (Cursor.mk (write symbols) position).readings.1 = tokens.map Reading.token := by
  induction symbols generalizing position with
  | nil =>
    have hnext : (Cursor.mk [] position).next = (.token (.finish position), ⟨[], position⟩) := by
      rw [Cursor.next]
    refine ⟨[], rfl, ?_⟩
    rw [write, List.flatMap_nil, Cursor.readings, hnext, dif_pos rfl]
    rfl
  | cons symbol symbols ih =>
    obtain ⟨hsymbol, hsymbols⟩ := List.forall_mem_cons.mp h
    obtain ⟨token, next, rfl, hread⟩ := Cursor.readings_written hsymbol (write symbols) position
    obtain ⟨tokens, rfl, hmore⟩ := ih hsymbols next
    refine ⟨token :: tokens, rfl, ?_⟩
    rw [write, List.flatMap_cons, List.append_assoc]
    exact hread.trans (congrArg _ hmore)

end Breadboard.Description
