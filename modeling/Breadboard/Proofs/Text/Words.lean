import Breadboard.Text.Basic

/-!
# Decimal numbers in machine words

A run of digits is read into a word of 32 bits, one digit after another: ten times the number that
is there already, and the digit. Both steps are checked, and reading ends where a number would not
fit into the word. Another digit only makes a number greater, so this gives up exactly on the runs
whose number is too great (`map_toNat_word?`).
-/

set_option autoImplicit false
set_option relaxedAutoImplicit false

namespace Breadboard.Text

variable {a b : UInt32} {d : Char} {digits : List Char} {m n : Nat}

/-! ### Checked arithmetic -/

/-- The product of two words, unless it is too great for a word. -/
def checkedMul (a b : UInt32) : Option UInt32 :=
  if a.toNat * b.toNat < UInt32.size then some (a * b) else none

/-- The sum of two words, unless it is too great for a word. -/
def checkedAdd (a b : UInt32) : Option UInt32 :=
  if a.toNat + b.toNat < UInt32.size then some (a + b) else none

/-- The difference of two words, unless it is below zero. -/
def checkedSub (a b : UInt32) : Option UInt32 :=
  if b ≤ a then some (a - b) else none

/-- A number, unless it is too great for a word. -/
def fitting (n : Nat) : Option Nat :=
  if n < UInt32.size then some n else none

theorem fitting_eq_none_of_le (h : fitting m = none) (hle : m ≤ n) : fitting n = none := by
  have hm : ¬m < UInt32.size := fun hlt ↦ nomatch (if_pos hlt).symm.trans h
  exact if_neg fun hlt ↦ hm (Nat.lt_of_le_of_lt hle hlt)

theorem map_toNat_checkedMul (a b : UInt32) :
    (checkedMul a b).map UInt32.toNat = fitting (a.toNat * b.toNat) := by
  rw [checkedMul, fitting]
  split
  · next h => rw [Option.map_some, UInt32.toNat_mul, Nat.mod_eq_of_lt h]
  · rfl

theorem map_toNat_checkedAdd (a b : UInt32) :
    (checkedAdd a b).map UInt32.toNat = fitting (a.toNat + b.toNat) := by
  rw [checkedAdd, fitting]
  split
  · next h => rw [Option.map_some, UInt32.toNat_add, Nat.mod_eq_of_lt h]
  · rfl

theorem eq_toNat_of_fitting {word? : Option UInt32} {w : UInt32}
    (h : word?.map UInt32.toNat = fitting n) (hw : word? = some w) : n = w.toNat := by
  rw [hw, Option.map_some] at h
  exact Option.some_inj.mp (Option.ite_none_right_eq_some.mp h.symm).2

theorem toNat_checkedAdd {sum : UInt32} (h : checkedAdd a b = some sum) :
    a.toNat + b.toNat = sum.toNat :=
  eq_toNat_of_fitting (map_toNat_checkedAdd a b) h

/-- A word that is below another one has a word behind it. -/
theorem exists_checkedAdd_one (h : a < b) : ∃ next, checkedAdd a 1 = some next := by
  have hb := b.toNat_lt_size
  have hlt : a.toNat < b.toNat := UInt32.lt_iff_toNat_lt.mp h
  have hfits : a.toNat + (1 : UInt32).toNat < UInt32.size := by
    rw [UInt32.toNat_one]
    omega
  exact ⟨a + 1, if_pos hfits⟩

/-! ### Digit by digit -/

/-- The number that a digit stands for. -/
def digitWord (d : Char) : UInt32 :=
  d.val - '0'.val

/-- A number with one more digit behind it. -/
def appendDigit (value : UInt32) (d : Char) : Option UInt32 := do
  checkedAdd (← checkedMul value 10) (digitWord d)

/-- The word that a run of digits stands for, unless its number is too great. -/
def word? (digits : List Char) : Option UInt32 :=
  digits.foldlM appendDigit 0

theorem toNat_digitWord (h : d.isDigit) : (digitWord d).toNat = d.toNat - '0'.toNat := by
  rw [Char.isDigit, Bool.and_eq_true, decide_eq_true_iff, decide_eq_true_iff] at h
  exact UInt32.toNat_sub_of_le _ _ h.1

theorem map_toNat_appendDigit (h : d.isDigit) (value : UInt32) :
    (appendDigit value d).map UInt32.toNat =
      fitting (10 * value.toNat + (d.toNat - '0'.toNat)) := by
  have hproduct := map_toNat_checkedMul value 10
  rw [Nat.mul_comm] at hproduct
  cases htimes : checkedMul value 10 with
  | none =>
    rw [htimes] at hproduct
    rw [appendDigit, htimes]
    exact (fitting_eq_none_of_le hproduct.symm (Nat.le_add_right _ _)).symm
  | some product =>
    have hvalue : 10 * value.toNat = product.toNat := eq_toNat_of_fitting hproduct htimes
    rw [appendDigit, htimes, hvalue, ← toNat_digitWord h]
    exact map_toNat_checkedAdd product (digitWord d)

theorem le_ofDigitChars (digits : List Char) (n : Nat) : n ≤ Nat.ofDigitChars 10 digits n := by
  rw [Nat.ofDigitChars_eq_ofDigitChars_zero]
  exact Nat.le_add_right_of_le (Nat.le_mul_of_pos_left n (Nat.pow_pos (by decide)))

/-- Digits that are read behind a number: the induction is on the digits, and a number that is too
great already stays so. -/
theorem map_toNat_foldlM (h : ∀ d ∈ digits, d.isDigit) (value : UInt32) :
    (digits.foldlM appendDigit value).map UInt32.toNat =
      fitting (Nat.ofDigitChars 10 digits value.toNat) := by
  induction digits generalizing value with
  | nil => exact (if_pos value.toNat_lt_size).symm
  | cons d digits ih =>
    obtain ⟨hd, hmore⟩ := List.forall_mem_cons.mp h
    have hstep := map_toNat_appendDigit hd value
    rw [List.foldlM_cons, Nat.ofDigitChars_cons]
    cases hnext : appendDigit value d with
    | none =>
      rw [hnext] at hstep
      exact (fitting_eq_none_of_le hstep.symm (le_ofDigitChars digits _)).symm
    | some next =>
      rw [eq_toNat_of_fitting hstep hnext]
      exact ih hmore next

/-- Digits that are read into a word are read as the number that they stand for. -/
theorem map_toNat_word? (h : ∀ d ∈ digits, d.isDigit) :
    (word? digits).map UInt32.toNat = number? digits := by
  have hsize : ∀ n, n < UInt32.size ↔ n ≤ maxNumber := fun n ↦
    (Nat.le_sub_one_iff_lt (by decide)).symm
  rw [word?, map_toNat_foldlM h, fitting, number?]
  exact ite_congr (propext (hsize _)) (fun _ ↦ rfl) fun _ ↦ rfl

end Breadboard.Text
