import Breadboard.Proofs.Description.Identifiers
import Breadboard.Proofs.Text.Decimal
import Breadboard.Proofs.Text.Words
import Mathlib.Algebra.Group.Nat.Defs
import Mathlib.Data.List.Forall2
import Mathlib.Data.List.Nodup

/-!
# What a range stands for

A name is a base and the digits at its end, as many as there are (`splits_iff`). Two names are a
range where seven conditions hold, and the error is that of the first one that fails
(`expandRange_eq`). A range stands for its base with each number from the first name's to the last
name's, written as short as can be, so that no two of its names are the same, and it may be cut
anywhere into two ranges (`expansion_exact`).

The numbers are words of 32 bits, and the length of a range one of 64 bits. Taken apart and counted
in such words, with each operation checked, a range comes to the same, and no operation ever leaves
its word (`expandWords_eq`).
-/

set_option autoImplicit false
set_option relaxedAutoImplicit false

namespace Breadboard.Description

variable {first last name : String} {front front' digits digits' : List Char}
  {list : List String} {e : RangeError} {low high : Nat}

/-! ### Base and digits -/

/-- A name is what stands in front of its digits, and the digits at its end. In front of them there
is no digit more. -/
structure Splits (name : String) (front digits : List Char) : Prop where
  whole : front ++ digits = name.toList
  digit : ∀ d ∈ digits, d.isDigit
  maximal : ∀ d ∈ front.getLast?, d.isDigit = false

/-- There is one way to take a name apart. -/
theorem splits_iff : Splits name front digits ↔ front = base name ∧ digits = suffix name := by
  constructor
  · rintro ⟨hwhole, hdigits, hmaximal⟩
    have hreverse : name.toList.reverse = digits.reverse ++ front.reverse := by
      rw [← hwhole, List.reverse_append]
    have hall : ∀ d ∈ digits.reverse, d.isDigit := fun d hd ↦ hdigits d (List.mem_reverse.mp hd)
    have hnone : front.reverse.takeWhile Char.isDigit = [] := by
      cases hfront : front.reverse with
      | nil => rfl
      | cons d more =>
        have hlast : front.getLast? = some d := by rw [← List.head?_reverse, hfront]; rfl
        exact List.takeWhile_cons_of_neg (Bool.eq_false_iff.mp (hmaximal d hlast))
    have hsuffix : digits = suffix name := by
      rw [suffix, hreverse, List.takeWhile_append_of_pos hall, hnone, List.append_nil,
        List.reverse_reverse]
    have hfront : front ++ digits = base name ++ digits := by
      rw [hwhole, hsuffix, base_append_suffix]
    exact ⟨List.append_cancel_right hfront, hsuffix⟩
  · rintro ⟨rfl, rfl⟩
    refine ⟨base_append_suffix name, fun d hd ↦ isDigit_of_mem_suffix hd, fun d hd ↦ ?_⟩
    have hhead : (name.toList.reverse.dropWhile Char.isDigit).head? = some d := by
      rwa [base, List.getLast?_reverse] at hd
    have hnot := List.head?_dropWhile_not Char.isDigit name.toList.reverse
    rw [hhead] at hnot
    exact hnot

/-! ### The conditions on a range -/

/-- The number that a run of digits stands for. -/
def digitsNumber (digits : List Char) : Nat :=
  Nat.ofDigitChars 10 digits 0

/-- What is asked of the two names of a range, one condition after another, each with the error
where it fails. -/
def conditions (first last : String) (front digits front' digits' : List Char) :
    List (Bool × RangeError) :=
  let low := digitsNumber digits
  let high := digitsNumber digits'
  [(digits ≠ [], .missingSuffix first),
    (low ≤ 2 ^ 32 - 1, .suffixTooLarge first),
    (digits' ≠ [], .missingSuffix last),
    (high ≤ 2 ^ 32 - 1, .suffixTooLarge last),
    (front = front', .inconsistentBases (String.ofList front) (String.ofList front')),
    (low ≤ high, .descending low high),
    (high - low + 1 ≤ 1024, .tooLong (high - low + 1))]

/-- The error of the first condition that fails. -/
def firstFailing (conditions : List (Bool × RangeError)) : Option RangeError :=
  (conditions.find? fun condition ↦ !condition.1).map Prod.snd

/-- What comes of a request that is made on conditions. -/
def decided {α : Type} (conditions : List (Bool × RangeError)) (result : α) :
    Except RangeError α :=
  match firstFailing conditions with
  | some e => .error e
  | none => .ok result

theorem decided_cons {α : Type} (p : Prop) [Decidable p] (e : RangeError)
    (more : List (Bool × RangeError)) (result : α) :
    decided ((decide p, e) :: more) result =
      if p then decided more result else .error e := by
  by_cases hp : p
  · rw [if_pos hp, decide_eq_true hp]
    rfl
  · rw [if_neg hp, decide_eq_false hp]
    rfl

/-- The two conditions on the digits of one name. -/
theorem suffixNumber_bind {α : Type} (name : String) (f : Nat → Except RangeError α) :
    (suffixNumber name >>= f) =
      if suffix name ≠ [] then
        if digitsNumber (suffix name) ≤ 2 ^ 32 - 1 then f (digitsNumber (suffix name))
        else .error (.suffixTooLarge name)
      else .error (.missingSuffix name) := by
  rw [suffixNumber, Text.number?, ite_not]
  by_cases hempty : suffix name = []
  · rw [if_pos hempty, if_pos (List.isEmpty_iff.mpr hempty)]
    rfl
  · rw [if_neg hempty, if_neg (hempty ∘ List.isEmpty_iff.mp)]
    by_cases hvalue : Nat.ofDigitChars 10 (suffix name) 0 ≤ Text.maxNumber
    · rw [if_pos hvalue]
      exact (if_pos hvalue).symm
    · rw [if_neg hvalue]
      exact (if_neg hvalue).symm

/-- A range is decided by its conditions, and stands for its base with ascending numbers. -/
theorem expandRange_eq (first last : String) :
    expandRange first last =
      decided (conditions first last (base first) (suffix first) (base last) (suffix last))
        ((List.range' (digitsNumber (suffix first))
          (digitsNumber (suffix last) - digitsNumber (suffix first) + 1)).map
            (numbered (base first))) := by
  rw [expandRange, conditions, suffixNumber_bind]
  iterate 7 rw [decided_cons]
  refine ite_congr rfl (fun _ ↦ ?_) fun _ ↦ rfl
  refine ite_congr rfl (fun _ ↦ ?_) fun _ ↦ rfl
  rw [suffixNumber_bind]
  refine ite_congr rfl (fun _ ↦ ?_) fun _ ↦ rfl
  refine ite_congr rfl (fun _ ↦ ?_) fun _ ↦ rfl
  rw [ite_not]
  refine ite_congr rfl (fun _ ↦ ?_) fun _ ↦ rfl
  rw [← ite_not]
  refine ite_congr (propext Nat.not_lt) (fun _ ↦ ?_) fun _ ↦ rfl
  rw [← ite_not]
  exact ite_congr (propext Nat.not_lt) (fun _ ↦ rfl) fun _ ↦ rfl

/-- All conditions hold where none of them fails. -/
theorem firstFailing_eq_none_iff {conditions : List (Bool × RangeError)} :
    firstFailing conditions = none ↔ ∀ condition ∈ conditions, condition.1 := by
  rw [firstFailing, Option.map_eq_none_iff, List.find?_eq_none]
  refine forall₂_congr fun condition _ ↦ ?_
  rw [Bool.not_eq_true, Bool.not_eq_false']

theorem decided_eq_error_iff {α : Type} {conditions : List (Bool × RangeError)} {result : α} :
    decided conditions result = .error e ↔ firstFailing conditions = some e := by
  rw [decided]
  cases firstFailing conditions with
  | none => exact ⟨nofun, nofun⟩
  | some e' => rw [Except.error.injEq, Option.some.injEq]

theorem decided_eq_ok_iff {α : Type} {conditions : List (Bool × RangeError)} {result r : α} :
    decided conditions result = .ok r ↔ firstFailing conditions = none ∧ result = r := by
  rw [decided]
  cases firstFailing conditions with
  | none => rw [Except.ok.injEq, eq_self, true_and]
  | some e' => exact ⟨nofun, nofun⟩

/-! ### The names of a range -/

/-- The names with the numbers from one on, as many as are wanted. -/
theorem forall₂_numbered (front : List Char) (low length : Nat) :
    List.Forall₂ (fun n name ↦ ∃ digits, Text.IsDecimal n digits ∧ name.toList = front ++ digits)
      (List.range' low length) ((List.range' low length).map (numbered front)) := by
  rw [List.forall₂_map_right_iff, List.forall₂_same]
  exact fun n _ ↦ ⟨_, Text.isDecimal_iff.mpr rfl, toList_numbered front n⟩

theorem numbered_injective (front : List Char) : Function.Injective (numbered front) := by
  intro m n h
  have hlist := congrArg String.toList h
  rw [toList_numbered, toList_numbered] at hlist
  have hdigits := congrArg (Nat.ofDigitChars 10 · 0) (List.append_cancel_left hlist)
  simpa only [Nat.ofDigitChars_ten_toDigits] using hdigits

/-- A numbered name comes apart into what it was made of, unless there is a digit at the end of its
base. -/
theorem splits_numbered (hfront : ∀ d ∈ front.getLast?, d.isDigit = false) (n : Nat) :
    Splits (numbered front n) front (Nat.toDigits 10 n) :=
  ⟨(toList_numbered front n).symm,
    fun _ hd ↦ Nat.isDigit_of_mem_toDigits (by decide) (by decide) hd, hfront⟩

theorem digitsNumber_toDigits (n : Nat) : digitsNumber (Nat.toDigits 10 n) = n :=
  Nat.ofDigitChars_ten_toDigits

/-! ### In machine words -/

/-- The number at the end of a name, as a word. -/
def suffixWord (name : String) : Except RangeError UInt32 :=
  if (suffix name).isEmpty then .error (.missingSuffix name)
  else
    match Text.word? (suffix name) with
    | some value => .ok value
    | none => .error (.suffixTooLarge name)

/-- How many words there are from one to another, both included, unless a number leaves its word on
the way. -/
def lengthWord (low high : UInt32) : Option UInt64 := do
  let difference := (← Text.checkedSub high low).toUInt64
  if difference.toNat + 1 < UInt64.size then return difference + 1 else none

/-- The words from one to another, unless one of them is too great for a word. -/
def countWords (low high : UInt32) : Option (List UInt32) :=
  if low < high then
    match _h : Text.checkedAdd low 1 with
    | none => none
    | some next => (countWords next high).map (low :: ·)
  else some [low]
termination_by high.toNat - low.toNat
decreasing_by
  have hnext := Text.toNat_checkedAdd ‹Text.checkedAdd low 1 = some next›
  have hlt := UInt32.lt_iff_toNat_lt.mp ‹low < high›
  rw [UInt32.toNat_one] at hnext
  omega

/-- The names with the numbers from one word to another: none where a number would leave its
word. -/
def numberWords (front : List Char) (low high : UInt32) :
    Option (Except RangeError (List String)) := do
  if low > high then return .error (.descending low.toNat high.toNat)
  let length ← lengthWord low high
  if length > maxRangeLength.toUInt64 then return .error (.tooLong length.toNat)
  let words ← countWords low high
  return .ok (words.map fun word ↦ numbered front word.toNat)

/-- The names from the first to the last, in words. -/
def expandWords (first last : String) : Option (Except RangeError (List String)) :=
  match suffixWord first with
  | .error e => some (.error e)
  | .ok low =>
    match suffixWord last with
    | .error e => some (.error e)
    | .ok high =>
      if base first ≠ base last then
        some (.error (.inconsistentBases (String.ofList (base first)) (String.ofList (base last))))
      else numberWords (base first) low high

theorem suffixWord_map_toNat (name : String) :
    (suffixWord name).map UInt32.toNat = suffixNumber name := by
  rw [suffixWord, suffixNumber, ← Text.map_toNat_word? fun _ ↦ isDigit_of_mem_suffix]
  split
  · rfl
  · cases Text.word? (suffix name) <;> rfl

theorem map_toNat_lengthWord {low high : UInt32} (h : low ≤ high) :
    (lengthWord low high).map UInt64.toNat = some (high.toNat - low.toNat + 1) := by
  have hdifference : (high - low).toNat = high.toNat - low.toNat :=
    UInt32.toNat_sub_of_le _ _ h
  have hhigh := high.toNat_lt_size
  have hfits : (high - low).toUInt64.toNat + 1 < UInt64.size := by
    rw [UInt32.toNat_toUInt64, hdifference]
    exact Nat.lt_of_le_of_lt (by omega : _ ≤ UInt32.size) (by decide)
  simp only [lengthWord, Text.checkedSub, if_pos h, Option.bind_eq_bind, Option.bind_some]
  rw [if_pos hfits]
  refine congrArg some ?_
  rw [UInt64.toNat_add, UInt64.toNat_one, Nat.mod_eq_of_lt hfits, UInt32.toNat_toUInt64,
    hdifference]

/-- Counting never goes beyond the last word. -/
theorem map_toNat_countWords {low high : UInt32} (h : low ≤ high) :
    (countWords low high).map (List.map UInt32.toNat) =
      some (List.range' low.toNat (high.toNat - low.toNat + 1)) := by
  fun_induction countWords low high with
  | case1 low hlt hnone =>
    obtain ⟨next, hnext⟩ := Text.exists_checkedAdd_one hlt
    rw [hnext] at hnone
    cases hnone
  | case2 low hlt next hnext ih =>
    have hvalue := Text.toNat_checkedAdd hnext
    have hless := UInt32.lt_iff_toNat_lt.mp hlt
    rw [UInt32.toNat_one] at hvalue
    have hle : next ≤ high := UInt32.le_iff_toNat_le.mpr (by omega)
    have hmore : high.toNat - low.toNat = high.toNat - next.toNat + 1 := by omega
    rw [hmore, List.range'_succ, hvalue, ← Option.map_some (f := (low.toNat :: ·)), ← ih hle,
      Option.map_map, Option.map_map]
    rfl
  | case3 low hnot =>
    have heq : low.toNat = high.toNat :=
      Nat.le_antisymm (UInt32.le_iff_toNat_le.mp h)
        (Nat.not_lt.mp fun hlt ↦ hnot (UInt32.lt_iff_toNat_lt.mpr hlt))
    rw [heq, Nat.sub_self]
    exact congrArg (fun n ↦ some [n]) heq

theorem numberWords_eq (front : List Char) (low high : UInt32) :
    numberWords front low high =
      some (if low.toNat > high.toNat then .error (.descending low.toNat high.toNat)
        else if high.toNat - low.toNat + 1 > maxRangeLength then
          .error (.tooLong (high.toNat - low.toNat + 1))
        else .ok ((List.range' low.toNat (high.toNat - low.toNat + 1)).map (numbered front))) := by
  rw [numberWords]
  by_cases horder : low > high
  · rw [if_pos horder, if_pos (UInt32.lt_iff_toNat_lt.mp horder)]
    rfl
  have hle : low ≤ high := UInt32.not_lt.mp horder
  obtain ⟨length, hlength, hvalue⟩ := Option.map_eq_some_iff.mp (map_toNat_lengthWord hle)
  obtain ⟨words, hwords, hrange⟩ := Option.map_eq_some_iff.mp (map_toNat_countWords hle)
  have hlong : length > maxRangeLength.toUInt64 ↔ length.toNat > maxRangeLength :=
    UInt64.lt_iff_toNat_lt
  rw [if_neg horder, if_neg (horder ∘ UInt32.lt_iff_toNat_lt.mpr), hlength, hwords, ← hrange,
    ← hvalue, List.map_map]
  by_cases htoo : length.toNat > maxRangeLength
  · rw [if_pos htoo]
    exact if_pos (hlong.mpr htoo)
  · rw [if_neg htoo]
    exact if_neg (htoo ∘ hlong.mp)

/-- In machine words a range comes to the same, and no number ever leaves its word. -/
theorem expandWords_eq (first last : String) :
    expandWords first last = some (expandRange first last) := by
  rw [expandWords, expandRange, ← suffixWord_map_toNat, ← suffixWord_map_toNat]
  cases suffixWord first with
  | error e => rfl
  | ok low =>
    cases suffixWord last with
    | error e => rfl
    | ok high =>
      simp only [numberWords_eq]
      by_cases hbase : base first ≠ base last
      · exact (if_pos hbase).trans (congrArg some (if_pos hbase).symm)
      · exact (if_neg hbase).trans (congrArg some (if_neg hbase).symm)

/-! ### What a range stands for -/

/-- What the names of a range have to be. -/
structure Ranged (front digits front' digits' : List Char) : Prop where
  lower : digits ≠ [] ∧ digitsNumber digits ≤ 2 ^ 32 - 1
  upper : digits' ≠ [] ∧ digitsNumber digits' ≤ 2 ^ 32 - 1
  front : front = front'
  order : digitsNumber digits ≤ digitsNumber digits'
  length : digitsNumber digits' - digitsNumber digits + 1 ≤ 1024

/-- What two names come to as a range. A name is given by its front and by the digits at its end. -/
structure Expansion (first last : String) (front digits front' digits' : List Char) : Prop where
  ok_iff : (∃ list, expandRange first last = .ok list) ↔ Ranged front digits front' digits'
  error_iff : ∀ e, expandRange first last = .error e ↔
    firstFailing (conditions first last front digits front' digits') = some e
  names : ∀ list, expandRange first last = .ok list →
    List.Forall₂ (fun n name ↦ ∃ shown, Text.IsDecimal n shown ∧ name.toList = front ++ shown)
      (List.range' (digitsNumber digits) (digitsNumber digits' - digitsNumber digits + 1)) list
  length : ∀ list, expandRange first last = .ok list →
    list.length = digitsNumber digits' - digitsNumber digits + 1
  nodup : ∀ list, expandRange first last = .ok list → list.Nodup
  cut : ∀ list, expandRange first last = .ok list →
    ∀ m, digitsNumber digits ≤ m → m < digitsNumber digits' →
      ∃ lower upper, expandRange first (numbered front m) = .ok lower ∧
        expandRange (numbered front (m + 1)) last = .ok upper ∧ list = lower ++ upper
  words : expandWords first last = some (expandRange first last)

theorem expandRange_of_splits (hfirst : Splits first front digits)
    (hlast : Splits last front' digits') :
    expandRange first last = decided (conditions first last front digits front' digits')
      ((List.range' (digitsNumber digits) (digitsNumber digits' - digitsNumber digits + 1)).map
        (numbered front)) := by
  obtain ⟨rfl, rfl⟩ := splits_iff.mp hfirst
  obtain ⟨rfl, rfl⟩ := splits_iff.mp hlast
  exact expandRange_eq first last

theorem firstFailing_conditions_eq_none_iff :
    firstFailing (conditions first last front digits front' digits') = none ↔
      Ranged front digits front' digits' := by
  rw [firstFailing_eq_none_iff]
  simp only [conditions, List.forall_mem_cons, decide_eq_true_iff]
  constructor
  · rintro ⟨hne, hlow, hne', hhigh, hfront, horder, hlength, -⟩
    exact ⟨⟨hne, hlow⟩, ⟨hne', hhigh⟩, hfront, horder, hlength⟩
  · rintro ⟨⟨hne, hlow⟩, ⟨hne', hhigh⟩, hfront, horder, hlength⟩
    exact ⟨hne, hlow, hne', hhigh, hfront, horder, hlength, nofun⟩

theorem expandRange_eq_ok_iff (hfirst : Splits first front digits)
    (hlast : Splits last front' digits') (list : List String) :
    expandRange first last = .ok list ↔ Ranged front digits front' digits' ∧
      (List.range' (digitsNumber digits) (digitsNumber digits' - digitsNumber digits + 1)).map
        (numbered front) = list := by
  rw [expandRange_of_splits hfirst hlast, decided_eq_ok_iff, firstFailing_conditions_eq_none_iff]

/-- Between its ends a range is two ranges. -/
theorem exists_cut (hfirst : Splits first front digits) (hlast : Splits last front' digits')
    (h : expandRange first last = .ok list) {m : Nat} (hm : digitsNumber digits ≤ m)
    (hm' : m < digitsNumber digits') :
    ∃ lower upper, expandRange first (numbered front m) = .ok lower ∧
      expandRange (numbered front (m + 1)) last = .ok upper ∧ list = lower ++ upper := by
  obtain ⟨hranged, hlist⟩ := (expandRange_eq_ok_iff hfirst hlast list).mp h
  have hmiddle := splits_numbered hfirst.maximal
  have hlength := hranged.length
  have hhigh := hranged.upper.2
  refine ⟨_, _, (expandRange_eq_ok_iff hfirst (hmiddle m) _).mpr ⟨⟨hranged.lower, ?_, rfl, ?_, ?_⟩,
    rfl⟩, (expandRange_eq_ok_iff (hmiddle (m + 1)) hlast _).mpr ⟨⟨?_, hranged.upper, hranged.front,
      ?_, ?_⟩, rfl⟩, ?_⟩
  all_goals rw [digitsNumber_toDigits]
  · exact ⟨Nat.toDigits_ne_nil, by omega⟩
  · exact hm
  · omega
  · exact ⟨Nat.toDigits_ne_nil, by omega⟩
  · exact hm'
  · omega
  · have hstart : m + 1 = digitsNumber digits + (m - digitsNumber digits + 1) := by omega
    have hsum : digitsNumber digits' - digitsNumber digits + 1 =
        m - digitsNumber digits + 1 + (digitsNumber digits' - (m + 1) + 1) := by omega
    rw [digitsNumber_toDigits, ← List.map_append, ← hlist, hsum]
    nth_rewrite 2 [hstart]
    rw [List.range'_append_1]

/-- Every name has a front and digits at its end, in one way. Two names come to a range exactly
where both have digits, their numbers are words, the fronts are the same, the numbers ascend and
there are at most 1024 names; otherwise the error is that of the first condition that fails. The
range is the front with the shortest decimal of every number from the first to the last, all
different, and it is put together from the two ranges up to any number and from the next one on.
In machine words it comes to the same, and no number leaves its word. -/
theorem expansion_exact (first last : String) : ∃ front digits front' digits',
    (∀ b d, Splits first b d ↔ b = front ∧ d = digits) ∧
    (∀ b d, Splits last b d ↔ b = front' ∧ d = digits') ∧
    Expansion first last front digits front' digits' := by
  refine ⟨base first, suffix first, base last, suffix last, fun _ _ ↦ splits_iff,
    fun _ _ ↦ splits_iff, ?_⟩
  have hfirst : Splits first (base first) (suffix first) := splits_iff.mpr ⟨rfl, rfl⟩
  have hlast : Splits last (base last) (suffix last) := splits_iff.mpr ⟨rfl, rfl⟩
  have hok := expandRange_eq_ok_iff hfirst hlast
  refine ⟨⟨fun ⟨list, h⟩ ↦ ((hok list).mp h).1, fun h ↦ ⟨_, (hok _).mpr ⟨h, rfl⟩⟩⟩, fun e ↦ ?_,
    fun list h ↦ ?_, fun list h ↦ ?_, fun list h ↦ ?_,
    fun list h m hm hm' ↦ exists_cut hfirst hlast h hm hm', expandWords_eq first last⟩
  · rw [expandRange_of_splits hfirst hlast]
    exact decided_eq_error_iff
  · obtain ⟨-, rfl⟩ := (hok list).mp h
    exact forall₂_numbered _ _ _
  · obtain ⟨-, rfl⟩ := (hok list).mp h
    rw [List.length_map, List.length_range']
  · obtain ⟨-, rfl⟩ := (hok list).mp h
    exact List.Nodup.map (numbered_injective _) List.nodup_range'

end Breadboard.Description
