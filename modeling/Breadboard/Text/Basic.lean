/-!
# Characters, words and numbers

A character is blank when it has the Unicode property `White_Space`. There are 25 of them, and
the line feed is one. The zero-width spaces are none.

Some words may be written in any mix of capital and small letters. Only the ASCII letters have a
case here.

A number in a circuit description is at most `2 ^ 32 - 1`. Leading zeros do no harm.
-/

set_option autoImplicit false
set_option relaxedAutoImplicit false

namespace Breadboard.Text

/-! ### Blank characters -/

/-- The blank code points, in ascending order: each range from its first to its last. -/
def blankRanges : List (Nat × Nat) :=
  [(0x09, 0x0D), (0x20, 0x20), (0x85, 0x85), (0xA0, 0xA0), (0x1680, 0x1680), (0x2000, 0x200A),
    (0x2028, 0x2029), (0x202F, 0x202F), (0x205F, 0x205F), (0x3000, 0x3000)]

/-- Whether a character is blank. -/
def isBlank (c : Char) : Bool :=
  blankRanges.any fun (first, last) ↦ first ≤ c.toNat && c.toNat ≤ last

/-! ### Letter case -/

/-- The characters of a word with its capital letters made small. -/
def small (word : String) : List Char :=
  word.toList.map Char.toLower

/-- Whether two words are the same up to the case of their letters. -/
def sameWord (word other : String) : Bool :=
  small word == small other

/-! ### Decimal numbers -/

/-- The greatest number that can be written. -/
def maxNumber : Nat := UInt32.size - 1

/-- The number that a run of digits stands for, unless it is too great. -/
def number? (digits : List Char) : Option Nat :=
  let value := Nat.ofDigitChars 10 digits 0
  if value ≤ maxNumber then some value else none

end Breadboard.Text
