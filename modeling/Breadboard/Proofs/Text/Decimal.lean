import Breadboard.Text.Basic

/-!
# Decimal numbers, read and written

A run of digits that is read as a number and written again comes back without its leading zeros
(`toDigits_ofDigitChars`). So what is written is the shortest run for its number
(`isDecimal_iff`), and only a run without leading zeros comes back as it was
(`shortest_eq_self_iff`).
-/

set_option autoImplicit false
set_option relaxedAutoImplicit false

namespace Breadboard.Text

variable {digits : List Char}

/-- A run of digits without its leading zeros. A zero alone stays. -/
def shortest : List Char → List Char
  | '0' :: second :: more => shortest (second :: more)
  | digits => digits

/-- A run of digits with a zero in front of others. -/
def Padded (digits : List Char) : Prop :=
  ∃ second more, digits = '0' :: second :: more

instance (digits : List Char) : Decidable (Padded digits) :=
  match digits with
  | [] => .isFalse fun ⟨_, _, h⟩ ↦ nomatch h
  | [_] => .isFalse fun ⟨_, _, h⟩ ↦ nomatch h
  | first :: second :: more =>
    decidable_of_iff (first = '0')
      ⟨fun h ↦ ⟨second, more, h ▸ rfl⟩, fun ⟨_, _, h⟩ ↦ (List.cons.inj h).1⟩

theorem length_shortest_le (digits : List Char) : (shortest digits).length ≤ digits.length := by
  fun_induction shortest digits with
  | case1 second more ih => exact Nat.le_succ_of_le ih
  | case2 => exact Nat.le_refl _

theorem shortest_eq_self_iff : shortest digits = digits ↔ ¬Padded digits := by
  constructor
  · rintro h ⟨second, more, rfl⟩
    have hlength := length_shortest_le (second :: more)
    rw [shortest] at h
    rw [h] at hlength
    exact absurd hlength (Nat.not_succ_le_self _)
  · intro h
    fun_induction shortest digits with
    | case1 second more _ => exact absurd ⟨second, more, rfl⟩ h
    | case2 => rfl

theorem exists_digitChar {c : Char} (h : c.isDigit) : ∃ value < 10, c = value.digitChar := by
  have hrange : 48 ≤ c.toNat ∧ c.toNat ≤ 57 := by
    rw [Char.isDigit, Bool.and_eq_true, decide_eq_true_iff, decide_eq_true_iff] at h
    exact h
  have hvalue : c.toNat - 48 < 10 := by omega
  refine ⟨c.toNat - 48, hvalue, Char.toNat_inj.mp ?_⟩
  rw [Nat.toNat_digitChar_of_lt_ten hvalue]
  omega

/-- Digits that are read behind a number other than zero are written behind it. -/
theorem toDigits_ofDigitChars_of_pos (h : ∀ d ∈ digits, d.isDigit) {n : Nat} (hn : 0 < n) :
    Nat.toDigits 10 (Nat.ofDigitChars 10 digits n) = Nat.toDigits 10 n ++ digits := by
  induction digits generalizing n with
  | nil => rw [Nat.ofDigitChars_nil, List.append_nil]
  | cons d digits ih =>
    obtain ⟨hd, hmore⟩ := List.forall_mem_cons.mp h
    obtain ⟨value, hvalue, rfl⟩ := exists_digitChar hd
    have hpos : 0 < 10 * n + value := by omega
    rw [Nat.ofDigitChars_cons_digitChar_of_lt_ten hvalue, ih hmore hpos,
      ← Nat.toDigits_append_toDigits (by decide) hn hvalue, Nat.toDigits_of_lt_base hvalue,
      List.append_assoc]
    rfl

/-- A run of digits that is read and written again comes back without its leading zeros. -/
theorem toDigits_ofDigitChars (h : ∀ d ∈ digits, d.isDigit) (hne : digits ≠ []) :
    Nat.toDigits 10 (Nat.ofDigitChars 10 digits 0) = shortest digits := by
  fun_induction shortest digits with
  | case1 second more ih =>
    rw [← ih (List.forall_mem_cons.mp h).2 (List.cons_ne_nil _ _)]
    rfl
  | case2 digits hnot =>
    obtain ⟨d, more, rfl⟩ := List.exists_cons_of_ne_nil hne
    obtain ⟨hd, hmore⟩ := List.forall_mem_cons.mp h
    obtain ⟨value, hvalue, rfl⟩ := exists_digitChar hd
    rw [Nat.ofDigitChars_cons_digitChar_of_lt_ten hvalue, Nat.mul_zero, Nat.zero_add]
    cases more with
    | nil => rw [Nat.ofDigitChars_nil, Nat.toDigits_of_lt_base hvalue]
    | cons second more =>
      have hpos : 0 < value := by
        refine Nat.pos_of_ne_zero ?_
        rintro rfl
        exact hnot second more rfl
      rw [toDigits_ofDigitChars_of_pos hmore hpos, Nat.toDigits_of_lt_base hvalue]
      rfl

/-- A run of digits that stands for a number, and none that is shorter does. -/
structure IsDecimal (n : Nat) (digits : List Char) : Prop where
  nonempty : digits ≠ []
  digit : ∀ d ∈ digits, d.isDigit
  value : Nat.ofDigitChars 10 digits 0 = n
  shortest : ∀ other, other ≠ [] → (∀ d ∈ other, d.isDigit) → Nat.ofDigitChars 10 other 0 = n →
    digits.length ≤ other.length

/-- There is one shortest run for a number, and it is what is written. -/
theorem isDecimal_iff {n : Nat} : IsDecimal n digits ↔ digits = Nat.toDigits 10 n := by
  constructor
  · rintro ⟨hne, hdigits, rfl, hshort⟩
    have hwritten := toDigits_ofDigitChars hdigits hne
    refine (hwritten.trans (shortest_eq_self_iff.mpr ?_)).symm
    rintro ⟨second, more, rfl⟩
    have hless := hshort (second :: more) (List.cons_ne_nil _ _)
      (List.forall_mem_cons.mp hdigits).2 rfl
    exact absurd hless (Nat.not_succ_le_self _)
  · rintro rfl
    refine ⟨Nat.toDigits_ne_nil, fun d hd ↦ Nat.isDigit_of_mem_toDigits (by decide) (by decide) hd,
      Nat.ofDigitChars_ten_toDigits, ?_⟩
    rintro other hne hother rfl
    rw [toDigits_ofDigitChars hother hne]
    exact length_shortest_le other

end Breadboard.Text
