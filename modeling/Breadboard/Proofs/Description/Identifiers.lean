import Breadboard.Description.Cursor
import Breadboard.Description.Range

/-!
# Identifiers

An identifier is made of letters and digits, a letter first, and is no word that the language gives
a meaning. The names that are met in a text are identifiers (`Cursor.proper_of_mem_readings`), and
so are the names of a range between identifiers (`isIdentifier_of_mem_range`).
-/

set_option autoImplicit false
set_option relaxedAutoImplicit false

namespace Breadboard.Description

/-- A word that is a name. -/
structure IsIdentifier (name : String) : Prop where
  letter : name.toList.head?.any Char.isAlpha
  alphanumeric : name.toList.all Char.isAlphanum
  filler : isFiller name = false
  heading : Heading.ofWord? name = none
  keyword : Keyword.ofWord? name = none

instance (name : String) : Decidable (IsIdentifier name) :=
  decidable_of_iff
    ((name.toList.head?.any Char.isAlpha ∧ name.toList.all Char.isAlphanum) ∧
      isFiller name = false ∧ Heading.ofWord? name = none ∧ Keyword.ofWord? name = none)
    ⟨fun h ↦ ⟨h.1.1, h.1.2, h.2.1, h.2.2.1, h.2.2.2⟩,
      fun h ↦ ⟨⟨h.letter, h.alphanumeric⟩, h.filler, h.heading, h.keyword⟩⟩

theorem IsIdentifier.role {name : String} (h : IsIdentifier name) :
    Role.ofWord name = .lexeme .name := by
  rw [Role.ofWord, h.filler, h.heading, h.keyword]
  rfl

/-- A word that is read as a name is not a word with a meaning. -/
theorem unreserved_of_role {word : String} (h : Role.ofWord word = .lexeme .name) :
    isFiller word = false ∧ Heading.ofWord? word = none ∧ Keyword.ofWord? word = none := by
  rw [Role.ofWord] at h
  split at h
  · cases h
  · next hfiller =>
    split at h
    · cases h
    · cases h
    · next hheading hkeyword => exact ⟨Bool.eq_false_iff.mpr hfiller, hheading, hkeyword⟩

/-! ### Names in a text -/

/-- A lexeme as it comes from a text, before the end. A name is an identifier. -/
structure Token.Proper (token : Token) : Prop where
  inside : token.lexeme ≠ .endOfText
  identifier : token.lexeme = .name → IsIdentifier token.text

theorem Token.proper_of_ne {token : Token} (hinside : token.lexeme ≠ .endOfText)
    (hname : token.lexeme ≠ .name) : token.Proper :=
  ⟨hinside, fun h ↦ absurd h hname⟩

variable {c : Char} {rest digits : List Char} {word : String} {lexeme : Lexeme}

theorem exists_number_of_ofDigits (h : Role.ofDigits digits = .lexeme lexeme) :
    ∃ value, lexeme = .number value := by
  rw [Role.ofDigits] at h
  split at h
  · next value _ =>
    cases h
    exact ⟨value, rfl⟩
  · cases h

theorem ne_endOfText_of_ofWord (h : Role.ofWord word = .lexeme lexeme) : lexeme ≠ .endOfText := by
  rw [Role.ofWord] at h
  split at h
  · cases h
  · split at h <;> cases h <;> exact nofun

theorem ofSign_ne (c : Char) (h : Role.ofSign c = .lexeme lexeme) :
    lexeme ≠ .endOfText ∧ lexeme ≠ .name := by
  unfold Role.ofSign at h
  split at h <;> cases h <;> exact ⟨nofun, nofun⟩

/-- A piece that is a lexeme is a proper one. -/
theorem Piece.proper_of_cut {piece : Piece} (hpiece : Piece.cut c rest = piece)
    (h : piece.role = .lexeme lexeme) (position : Text.Position) :
    (Token.mk lexeme (String.ofList piece.text) position).Proper := by
  unfold Piece.cut at hpiece
  split at hpiece
  · cases hpiece
    cases h
  split at hpiece
  · cases hpiece
    obtain ⟨value, rfl⟩ := exists_number_of_ofDigits h
    exact Token.proper_of_ne nofun nofun
  split at hpiece
  · next halpha =>
    cases hpiece
    refine ⟨ne_endOfText_of_ofWord h, ?_⟩
    rintro rfl
    obtain ⟨hfiller, hheading, hkeyword⟩ := unreserved_of_role h
    refine ⟨?_, ?_, hfiller, hheading, hkeyword⟩
    · simpa using halpha
    · have hfirst : c.isAlphanum := by rw [Char.isAlphanum, halpha, Bool.true_or]
      simp only [String.toList_ofList, List.all_cons, hfirst, Bool.true_and]
      exact List.all_takeWhile
  split at hpiece
  · cases hpiece
    cases h
  · cases hpiece
    cases h
    exact Token.proper_of_ne nofun nofun
  · split at hpiece <;> cases hpiece <;> cases h
  · cases hpiece
    obtain ⟨hinside, hname⟩ := ofSign_ne c h
    exact Token.proper_of_ne hinside hname

/-- What is read is a proper lexeme, or the end. -/
theorem Cursor.next_proper (cursor : Cursor) {token : Token} (h : cursor.next.1 = .token token) :
    token = .finish cursor.next.2.position ∨ token.Proper := by
  fun_induction Cursor.next cursor with
  | case1 => exact .inl (Reading.token.inj h).symm
  | case2 cursor c rest hrest piece hrole ih => exact ih h
  | case3 cursor c rest hrest piece lexeme hrole =>
    cases h
    exact .inr (Piece.proper_of_cut rfl hrole _)
  | case4 => cases h

/-- The lexemes of a text are proper ones. -/
theorem Cursor.proper_of_mem_readings (cursor : Cursor) {token : Token}
    (h : .token token ∈ cursor.readings.1) : token.Proper := by
  fun_induction Cursor.readings cursor with
  | case1 => cases h
  | case2 cursor step hend more finish hreadings ih =>
    rcases List.mem_cons.mp h with hfirst | hmore
    · refine (cursor.next_proper hfirst.symm).resolve_left fun hfinish ↦ hend ?_
      rw [← hfinish]
      exact hfirst.symm
    · rw [hreadings] at ih
      exact ih hmore

/-! ### Names in a range -/

theorem toLower_of_isDigit {d : Char} (hd : d.isDigit) : d.toLower = d := by
  rw [Char.isDigit, Bool.and_eq_true, decide_eq_true_iff, decide_eq_true_iff] at hd
  exact dif_neg fun hupper ↦ absurd (UInt32.le_trans hupper.1 hd.2) (by decide)

/-- No word with a meaning has a digit in it. -/
theorem unreserved_of_isDigit {d : Char} (hword : d ∈ word.toList) (hd : d.isDigit) :
    isFiller word = false ∧ Heading.ofWord? word = none ∧ Keyword.ofWord? word = none := by
  have hsmall : d ∈ Text.small word := List.mem_map.mpr ⟨d, hword, toLower_of_isDigit hd⟩
  refine ⟨Bool.eq_false_iff.mpr fun hfiller ↦ ?_, ?_, ?_⟩
  · have hnone : ∀ filler ∈ fillers, filler.toList.all (!·.isDigit) := by decide
    have := List.all_eq_true.mp (hnone word (List.contains_iff_mem.mp hfiller)) d hword
    rw [hd] at this
    exact absurd this (by decide)
  · rw [Heading.ofWord?, List.find?_eq_none]
    intro heading hheading hsame
    have hnone : ∀ heading ∈ Heading.all, (Text.small heading.word).all (!·.isDigit) := by decide
    have := List.all_eq_true.mp (hnone heading hheading) d (beq_iff_eq.mp hsame ▸ hsmall)
    rw [hd] at this
    exact absurd this (by decide)
  · rw [Keyword.ofWord?, List.find?_eq_none]
    intro keyword hkeyword hsame
    have hnone : ∀ keyword ∈ Keyword.all, keyword.word.toList.all (!·.isDigit) := by decide
    have := List.all_eq_true.mp (hnone keyword hkeyword) d (beq_iff_eq.mp hsame ▸ hword)
    rw [hd] at this
    exact absurd this (by decide)

/-- The number at the end of a name. -/
theorem toList_numbered (base : List Char) (n : Nat) :
    (numbered base n).toList = base ++ Nat.toDigits 10 n := by
  rw [numbered, String.toList_append, String.toList_ofList]
  exact congrArg (base ++ ·) String.toList_ofList

theorem isDigit_of_mem_suffix {name : String} {d : Char} (h : d ∈ suffix name) : d.isDigit := by
  rw [suffix, List.mem_reverse] at h
  exact List.all_eq_true.mp List.all_takeWhile d h

theorem isAlpha_eq_false_of_isDigit {d : Char} (hd : d.isDigit) : d.isAlpha = false := by
  rw [Char.isDigit, Bool.and_eq_true, decide_eq_true_iff, decide_eq_true_iff] at hd
  have hbelow : ¬ 'A'.val ≤ d.val := fun h ↦ absurd (UInt32.le_trans h hd.2) (by decide)
  have hbelow' : ¬ 'a'.val ≤ d.val := fun h ↦ absurd (UInt32.le_trans h hd.2) (by decide)
  have hupper : d.isUpper = false := decide_eq_false fun h ↦ hbelow h.1
  have hlower : d.isLower = false := Bool.and_eq_false_iff.mpr (.inl (decide_eq_false hbelow'))
  exact Bool.or_eq_false_iff.mpr ⟨hupper, hlower⟩

/-- A name with another number is a name. -/
theorem IsIdentifier.numbered {name : String} (h : IsIdentifier name) (n : Nat) :
    IsIdentifier (numbered (base name) n) := by
  have hname := base_append_suffix name
  have hbase : base name ≠ [] := by
    intro hempty
    rw [hempty, List.nil_append] at hname
    obtain ⟨d, hd, halpha⟩ := (Option.any_eq_true _ _).mp h.letter
    rw [← hname] at hd
    rw [isAlpha_eq_false_of_isDigit (isDigit_of_mem_suffix (List.mem_of_head? hd))] at halpha
    exact absurd halpha (by decide)
  have hdigits : ∀ d ∈ Nat.toDigits 10 n, d.isDigit := fun d hd ↦
    Nat.isDigit_of_mem_toDigits (by decide) (by decide) hd
  obtain ⟨d, hd⟩ := List.exists_mem_of_ne_nil _ (Nat.toDigits_ne_nil (n := n) (b := 10))
  obtain ⟨hfiller, hheading, hkeyword⟩ := unreserved_of_isDigit
    (toList_numbered (base name) n ▸ List.mem_append_right _ hd) (hdigits d hd)
  refine ⟨?_, ?_, hfiller, hheading, hkeyword⟩
  · have hletter := h.letter
    rw [← hname, List.head?_append, List.head?_eq_some_head hbase, Option.some_or] at hletter
    rwa [toList_numbered, List.head?_append, List.head?_eq_some_head hbase, Option.some_or]
  · have halphanumeric := h.alphanumeric
    rw [← hname, List.all_append, Bool.and_eq_true] at halphanumeric
    rw [toList_numbered, List.all_append, halphanumeric.1, Bool.true_and, List.all_eq_true]
    intro d hd
    rw [Char.isAlphanum, hdigits d hd, Bool.or_true]

/-- A name that ends in a number ends in digits. -/
theorem suffix_of_suffixNumber {name : String} {n : Nat} (h : suffixNumber name = .ok n) :
    suffix name ≠ [] ∧ Nat.ofDigitChars 10 (suffix name) 0 = n := by
  rw [suffixNumber] at h
  split at h
  · cases h
  · next hsuffix =>
    refine ⟨fun hempty ↦ hsuffix (List.isEmpty_iff.mpr hempty), ?_⟩
    rw [Text.number?] at h
    split at h
    · next value hvalue =>
      cases h
      exact Option.some_inj.mp (Option.ite_none_right_eq_some.mp hvalue).2
    · cases h

/-- The names of a range are the base of the first one with ascending numbers. -/
theorem exists_of_expandRange {first last : String} {list : List String}
    (h : expandRange first last = .ok list) : ∃ low high, suffixNumber first = .ok low ∧
      suffixNumber last = .ok high ∧ base first = base last ∧ low ≤ high ∧
        list = (List.range' low (high - low + 1)).map (numbered (base first)) := by
  simp only [expandRange, bind, Except.bind] at h
  split at h
  · cases h
  · next low hlow =>
    split at h
    · cases h
    · next high hhigh =>
      by_cases hbase : base first = base last
      · rw [if_neg (not_not_intro hbase)] at h
        split at h
        · cases h
        · next horder =>
          split at h
          · cases h
          · cases h
            exact ⟨low, high, hlow, hhigh, hbase, Nat.not_lt.mp horder, rfl⟩
      · rw [if_pos hbase] at h
        cases h

/-- The two names that a range is written with end in digits. -/
theorem suffix_ne_nil_of_range {first last : String} {list : List String}
    (hlist : expandRange first last = .ok list) : suffix first ≠ [] ∧ suffix last ≠ [] := by
  obtain ⟨low, high, hlow, hhigh, -⟩ := exists_of_expandRange hlist
  exact ⟨(suffix_of_suffixNumber hlow).1, (suffix_of_suffixNumber hhigh).1⟩

theorem isIdentifier_of_mem_range {first last : String} {list : List String}
    (h : IsIdentifier first) (hlist : expandRange first last = .ok list) {name : String}
    (hname : name ∈ list) : IsIdentifier name := by
  obtain ⟨low, high, -, -, -, -, rfl⟩ := exists_of_expandRange hlist
  obtain ⟨n, -, rfl⟩ := List.mem_map.mp hname
  exact h.numbered n

end Breadboard.Description
