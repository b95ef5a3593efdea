import Breadboard.Text.Basic

/-!
# Ranges of names

`A1 => A4` stands for `A1`, `A2`, `A3`, `A4`. Both names are the same base with a number behind it,
the numbers ascend, and there are at most 1024 names. The names in between have no leading zeros.
-/

set_option autoImplicit false
set_option relaxedAutoImplicit false

namespace Breadboard.Description

/-- The most names that a range may stand for. -/
def maxRangeLength : Nat := 1024

/-- Why two names are no range. -/
inductive RangeError
  | missingSuffix (name : String)
  | suffixTooLarge (name : String)
  | inconsistentBases (first last : String)
  | descending (low high : Nat)
  | tooLong (length : Nat)
deriving DecidableEq

/-- The wording of a refusal. -/
def RangeError.message : RangeError → String
  | .missingSuffix name => "name '" ++ name ++ "' has no numeric suffix"
  | .suffixTooLarge name => "numeric suffix of '" ++ name ++ "' is too large"
  | .inconsistentBases first last =>
    "name bases are inconsistent, '" ++ first ++ "' and '" ++ last ++ "'"
  | .descending low high =>
    "incorrect order of range values, " ++ toString low ++ " > " ++ toString high
  | .tooLong length =>
    "range of " ++ toString length ++ " names exceeds the limit of " ++ toString maxRangeLength

/-- The digits at the end of a name. -/
def suffix (name : String) : List Char :=
  (name.toList.reverse.takeWhile Char.isDigit).reverse

/-- A name without the digits at its end. -/
def base (name : String) : List Char :=
  (name.toList.reverse.dropWhile Char.isDigit).reverse

/-- The number at the end of a name. -/
def suffixNumber (name : String) : Except RangeError Nat :=
  if (suffix name).isEmpty then .error (.missingSuffix name)
  else
    match Text.number? (suffix name) with
    | some value => .ok value
    | none => .error (.suffixTooLarge name)

/-- The name with a given base and number. -/
def numbered (base : List Char) (n : Nat) : String :=
  String.ofList base ++ toString n

/-- The names from the first to the last, both included. -/
def expandRange (first last : String) : Except RangeError (List String) := do
  let low ← suffixNumber first
  let high ← suffixNumber last
  if base first ≠ base last then
    throw (.inconsistentBases (String.ofList (base first)) (String.ofList (base last)))
  else if low > high then throw (.descending low high)
  else if high - low + 1 > maxRangeLength then throw (.tooLong (high - low + 1))
  else return (List.range' low (high - low + 1)).map (numbered (base first))

theorem base_append_suffix (name : String) : base name ++ suffix name = name.toList := by
  rw [base, suffix, ← List.reverse_append, List.takeWhile_append_dropWhile, List.reverse_reverse]

end Breadboard.Description
