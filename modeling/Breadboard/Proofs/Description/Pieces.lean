import Breadboard.Proofs.Description.Writing
import Mathlib.Data.List.Infix
import Mathlib.Data.Nat.Digits.Defs

/-!
# Pieces of a text

What a piece of a text is can be said without cutting the text (`IsPiece`): a comment ends where its
first `//` is, words and numbers are maximal, a number is the decimal value of its digits, and what
is rejected is one character, a number that is too great, or a comment that is never closed. The
first piece of a text is cut off as such a piece (`isPiece_cut`), and no other piece is one
(`cut_of_isPiece`).
-/

set_option autoImplicit false
set_option relaxedAutoImplicit false

namespace Breadboard.Description

variable {c : Char} {text rest body inner run after : List Char}

/-! ### Maximal runs -/

/-- A run of characters of one class, which the text after it does not go on with. -/
structure Maximal (p : Char → Bool) (run after : List Char) : Prop where
  inside : ∀ c ∈ run, p c
  boundary : ∀ c, after.head? = some c → p c = false

section Maximal

variable {p : Char → Bool}

theorem Maximal.takeWhile (h : Maximal p run after) : (run ++ after).takeWhile p = run := by
  rw [List.takeWhile_append_of_pos h.inside]
  cases after with
  | nil => exact List.append_nil run
  | cons c after =>
    rw [List.takeWhile_cons_of_neg (Bool.eq_false_iff.mp (h.boundary c rfl)), List.append_nil]

theorem Maximal.dropWhile (h : Maximal p run after) : (run ++ after).dropWhile p = after := by
  rw [List.dropWhile_append_of_pos h.inside]
  cases after with
  | nil => rfl
  | cons c after => rw [List.dropWhile_cons_of_neg (Bool.eq_false_iff.mp (h.boundary c rfl))]

theorem maximal_takeWhile (p : Char → Bool) (text : List Char) :
    Maximal p (text.takeWhile p) (text.dropWhile p) where
  inside := List.all_eq_true.mp List.all_takeWhile
  boundary c hc := by
    have hhead := List.head?_dropWhile_not p text
    rw [hc] at hhead
    exact hhead

theorem Maximal.tail (h : Maximal p (c :: run) after) : Maximal p run after :=
  ⟨fun d hd ↦ h.inside d (List.mem_cons_of_mem c hd), h.boundary⟩

theorem Maximal.cons (hc : p c) (h : Maximal p run after) : Maximal p (c :: run) after :=
  ⟨List.forall_mem_cons.mpr ⟨hc, h.inside⟩, h.boundary⟩

end Maximal

/-! ### Comments -/

/-- A comment is closed by the first `//` in it. -/
theorem commentBody?_eq_some_iff : commentBody? text = some (body, rest) ↔
    ∃ inner, ¬ ['/', '/'] <:+: inner ++ ['/'] ∧ body = inner ++ ['/', '/'] ∧
      text = body ++ rest := by
  constructor
  · intro h
    fun_induction commentBody? text generalizing body with
    | case1 => cases h
    | case2 more =>
      cases h
      exact ⟨[], by decide, rfl, rfl⟩
    | case3 c more hopen ih =>
      obtain ⟨⟨body, rest⟩, hmore, hsame⟩ := Option.map_eq_some_iff.mp h
      cases hsame
      obtain ⟨inner, hinner, rfl, rfl⟩ := ih hmore
      refine ⟨c :: inner, ?_, rfl, rfl⟩
      rw [List.cons_append, List.infix_cons_iff, not_or]
      refine ⟨fun hprefix ↦ ?_, hinner⟩
      obtain ⟨hslash, hnext⟩ := List.cons_prefix_cons.mp hprefix
      cases inner with
      | nil => exact hopen _ hslash.symm rfl
      | cons d inner =>
        obtain ⟨hsecond, -⟩ := List.cons_prefix_cons.mp hnext
        exact hopen _ hslash.symm (by rw [← hsecond]; rfl)
  · rintro ⟨inner, hinner, rfl, rfl⟩
    induction inner with
    | nil => rfl
    | cons c inner ih =>
      rw [List.cons_append, List.infix_cons_iff, not_or] at hinner
      have hopen : ∀ more, c = '/' → inner ++ ['/', '/'] ++ rest = '/' :: more → False := by
        rintro more rfl hmore
        refine hinner.1 ((List.prefix_cons_inj '/').mpr ?_)
        cases inner with
        | nil => exact List.prefix_rfl
        | cons d inner =>
          obtain rfl : d = '/' := (List.cons.inj hmore).1
          exact List.cons_prefix_cons.mpr ⟨rfl, List.nil_prefix⟩
      rw [List.cons_append, List.cons_append, commentBody?.eq_3 c _ hopen, ih hinner.2]
      rfl

theorem commentBody?_eq_none_iff : commentBody? text = none ↔ ¬ ['/', '/'] <:+: text := by
  fun_induction commentBody? text with
  | case1 => exact iff_of_true rfl (by decide)
  | case2 more =>
    exact iff_of_false (Option.some_ne_none _)
      (not_not_intro (List.prefix_append ['/', '/'] more).isInfix)
  | case3 c more hopen ih =>
    have hprefix : ¬ ['/', '/'] <+: c :: more := by
      rintro ⟨tail, htail⟩
      exact hopen tail (List.cons.inj htail).1.symm (List.cons.inj htail).2.symm
    rw [Option.map_eq_none_iff, ih, List.infix_cons_iff, or_iff_right hprefix]

/-! ### Numbers -/

/-- The decimal value of some digits. -/
def decimal (digits : List Char) : Nat :=
  Nat.ofDigits 10 (digits.map fun digit ↦ digit.toNat - '0'.toNat).reverse

theorem number?_eq (digits : List Char) :
    Text.number? digits = if decimal digits ≤ 2 ^ 32 - 1 then some (decimal digits) else none := by
  have hvalue : Nat.ofDigitChars 10 digits 0 = decimal digits := by
    induction digits using List.reverseRecOn with
    | nil => rfl
    | append_singleton digits digit ih =>
      rw [Nat.ofDigitChars_eq_foldl] at ih ⊢
      rw [List.foldl_append, ih, decimal, decimal, List.map_append, List.reverse_append]
      exact Nat.add_comm _ _
  rw [Text.number?, hvalue]
  rfl

/-! ### Pieces -/

/-- The characters that are lexemes by themselves. -/
def signs : List (Char × Lexeme) :=
  [(',', .comma), ('{', .openBrace), ('}', .closeBrace), (';', .semicolon), ('.', .dot),
    ('-', .minus)]

/-- A word: it begins with a letter and goes on with all the letters and digits that follow. -/
structure IsWord (word after : List Char) : Prop where
  letter : ∃ c, word.head? = some c ∧ c.isAlpha
  maximal : Maximal Char.isAlphanum word after

/-- A number: all the digits that follow, and at least one. -/
structure IsNumber (digits after : List Char) : Prop where
  nonempty : digits ≠ []
  maximal : Maximal Char.isDigit digits after

/-- The first piece of a text, with its role and what follows it. -/
inductive IsPiece : Role → List Char → List Char → Prop
  | blank {c : Char} {after : List Char} (h : Text.isBlank c) : IsPiece .skipped [c] after
  /-- A comment from `#` to the end of the line. -/
  | line {body after : List Char} (h : Maximal (· ≠ '\n') body after) :
    IsPiece .skipped ('#' :: body) after
  /-- A comment from `//` to the next `//`. -/
  | comment {inner after : List Char} (h : ¬ ['/', '/'] <:+: inner ++ ['/']) :
    IsPiece .skipped ('/' :: '/' :: (inner ++ ['/', '/'])) after
  | filler {word after : List Char} (h : IsWord word after)
    (hfiller : String.ofList word ∈ fillers) : IsPiece .skipped word after
  | heading {word after : List Char} {title : Heading} (h : IsWord word after)
    (htitle : Heading.ofWord? (String.ofList word) = some title) :
    IsPiece (.lexeme (.heading title)) word after
  | keyword {word after : List Char} {verb : Keyword} (h : IsWord word after)
    (hverb : String.ofList word = verb.word) : IsPiece (.lexeme (.keyword verb)) word after
  | name {word after : List Char} (h : IsWord word after)
    (hname : IsIdentifier (String.ofList word)) : IsPiece (.lexeme .name) word after
  | number {digits after : List Char} (h : IsNumber digits after)
    (hle : decimal digits ≤ 2 ^ 32 - 1) : IsPiece (.lexeme (.number (decimal digits))) digits after
  | arrow {after : List Char} : IsPiece (.lexeme .arrow) ['=', '>'] after
  | sign {c : Char} {lexeme : Lexeme} {after : List Char} (h : (c, lexeme) ∈ signs) :
    IsPiece (.lexeme lexeme) [c] after
  | loneSlash {after : List Char} (h : after.head? ≠ some '/') :
    IsPiece (.fault .loneSlash) ['/'] after
  | loneEquals {after : List Char} (h : after.head? ≠ some '>') :
    IsPiece (.fault .loneEquals) ['='] after
  | tooLarge {digits after : List Char} (h : IsNumber digits after)
    (hlt : 2 ^ 32 - 1 < decimal digits) :
    IsPiece (.fault (.numberTooLarge (String.ofList digits))) digits after
  | unclosed {inner : List Char} (h : ¬ ['/', '/'] <:+: inner) :
    IsPiece (.fault .unclosedComment) ('/' :: '/' :: inner) []
  | invalid {c : Char} {after : List Char} (hblank : ¬ Text.isBlank c) (halphanum : ¬ c.isAlphanum)
    (h : c ∉ ['#', '/', '=', ',', '{', '}', ';', '.', '-']) :
    IsPiece (.fault (.invalidCharacter c)) [c] after

theorem IsPiece.ne_nil {role : Role} (h : IsPiece role run after) : run ≠ [] := by
  cases h with
  | filler h | heading h | keyword h | name h =>
    obtain ⟨c, hc, -⟩ := h.letter
    exact List.ne_nil_of_mem (List.mem_of_head? hc)
  | number h | tooLarge h => exact h.nonempty
  | blank | line | comment | arrow | sign | loneSlash | loneEquals | unclosed | invalid => nofun

/-! ### The piece that is cut off -/

theorem eq_of_keyword {word : String} {verb : Keyword} (h : Keyword.ofWord? word = some verb) :
    word = verb.word := by
  rw [Keyword.ofWord?] at h
  have hsame := List.find?_some h
  exact (beq_iff_eq.mp hsame).symm

theorem isPiece_word (h : IsWord run after) :
    IsPiece (.ofWord (String.ofList run)) run after := by
  rw [Role.ofWord]
  split
  · next hfiller => exact .filler h (List.contains_iff_mem.mp hfiller)
  next hfiller =>
  split
  · next htitle => exact .heading h htitle
  · next hverb => exact .keyword h (eq_of_keyword hverb)
  · next hheading hkeyword =>
    obtain ⟨c, hc, halpha⟩ := h.letter
    refine .name h ⟨?_, ?_, Bool.eq_false_iff.mpr hfiller, hheading, hkeyword⟩
    · rw [String.toList_ofList, hc]
      exact halpha
    · rw [String.toList_ofList]
      exact List.all_eq_true.mpr h.maximal.inside

theorem isPiece_digits (h : IsNumber run after) : IsPiece (.ofDigits run) run after := by
  rw [Role.ofDigits, number?_eq]
  split_ifs with hle
  · exact .number h hle
  · exact .tooLarge h (Nat.not_le.mp hle)

theorem isPiece_sign (hblank : ¬ Text.isBlank c) (halphanum : ¬ c.isAlphanum) (hhash : c ≠ '#')
    (hslash : c = '/' → after.head? ≠ some '/') (hequals : c = '=' → after.head? ≠ some '>') :
    IsPiece (.ofSign c) [c] after := by
  unfold Role.ofSign
  split
  iterate 6 exact .sign (by decide)
  · exact .loneSlash (hslash rfl)
  · exact .loneEquals (hequals rfl)
  · next hcomma hopen hclose hsemicolon hdot hminus hslash hequals =>
    have hmem : c ∉ ['#', '/', '=', ',', '{', '}', ';', '.', '-'] := by
      simp only [List.mem_cons, List.not_mem_nil, or_false, not_or]
      exact ⟨hhash, hslash, hequals, hcomma, hopen, hclose, hsemicolon, hdot, hminus⟩
    exact .invalid hblank halphanum hmem

/-- The first piece of a text is cut off. -/
theorem isPiece_cut (c : Char) (rest : List Char) :
    IsPiece (Piece.cut c rest).role (Piece.cut c rest).text (Piece.cut c rest).rest := by
  unfold Piece.cut
  split_ifs with hblank hdigit halpha
  · exact .blank hblank
  · exact isPiece_digits ⟨nofun, (maximal_takeWhile _ rest).cons hdigit⟩
  · have halphanum : c.isAlphanum := by rw [Char.isAlphanum, halpha, Bool.true_or]
    exact isPiece_word ⟨⟨c, rfl, halpha⟩, (maximal_takeWhile _ rest).cons halphanum⟩
  have halphanum : ¬ c.isAlphanum := by simp [Char.isAlphanum, hdigit, halpha]
  split
  · exact .line (maximal_takeWhile _ _)
  · exact .arrow
  · split
    · next hbody =>
      obtain ⟨inner, hinner, rfl, -⟩ := commentBody?_eq_some_iff.mp hbody
      exact .comment hinner
    · next hbody => exact .unclosed (commentBody?_eq_none_iff.mp hbody)
  · next hhash hequals hslash =>
    refine isPiece_sign hblank halphanum hhash (fun h hhead ↦ ?_)
      fun h hhead ↦ ?_
    · obtain ⟨tail, htail⟩ := List.head?_eq_some_iff.mp hhead
      exact hslash _ h htail
    · obtain ⟨tail, htail⟩ := List.head?_eq_some_iff.mp hhead
      exact hequals _ h htail

/-! ### The only piece -/

theorem IsWord.cut {first : Char} {word : List Char} (h : IsWord (first :: word) after) :
    Piece.cut first (word ++ after) =
      ⟨.ofWord (String.ofList (first :: word)), first :: word, after⟩ := by
  obtain ⟨c, hc, halpha⟩ := h.letter
  obtain rfl := Option.some_inj.mp hc
  have hdigit : ¬ first.isDigit := fun hdigit ↦
    Bool.false_ne_true ((isAlpha_eq_false_of_isDigit hdigit).symm.trans halpha)
  have hblank := isBlank_eq_false_of_isAlphanum (h.maximal.inside first List.mem_cons_self)
  unfold Piece.cut
  rw [hblank, if_neg Bool.false_ne_true, if_neg hdigit, if_pos halpha, h.maximal.tail.takeWhile,
    h.maximal.tail.dropWhile]

theorem IsNumber.cut {first : Char} {digits : List Char} (h : IsNumber (first :: digits) after) :
    Piece.cut first (digits ++ after) = ⟨.ofDigits (first :: digits), first :: digits, after⟩ := by
  have hdigit := h.maximal.inside first List.mem_cons_self
  have halphanum : first.isAlphanum := by rw [Char.isAlphanum, hdigit, Bool.or_true]
  unfold Piece.cut
  rw [isBlank_eq_false_of_isAlphanum halphanum, if_neg Bool.false_ne_true, if_pos hdigit,
    h.maximal.tail.takeWhile, h.maximal.tail.dropWhile]

theorem cut_hash (rest : List Char) : Piece.cut '#' rest =
    ⟨.skipped, '#' :: rest.takeWhile (· ≠ '\n'), rest.dropWhile (· ≠ '\n')⟩ := rfl

theorem cut_slashes (rest : List Char) : Piece.cut '/' ('/' :: rest) =
    match commentBody? rest with
    | some (body, rest) => ⟨.skipped, '/' :: '/' :: body, rest⟩
    | none => ⟨.fault .unclosedComment, '/' :: '/' :: rest, []⟩ := rfl

theorem ofWord_filler {word : String} (h : word ∈ fillers) : Role.ofWord word = .skipped := by
  have hfiller : isFiller word := List.contains_iff_mem.mpr h
  rw [Role.ofWord, if_pos hfiller]

theorem ofWord_heading {word : String} {title : Heading}
    (h : Heading.ofWord? word = some title) : Role.ofWord word = .lexeme (.heading title) := by
  have hnone : ∀ filler ∈ fillers, Heading.ofWord? filler = none := by decide
  have hfiller : ¬ isFiller word := fun hfiller ↦ by
    rw [hnone word (List.contains_iff_mem.mp hfiller)] at h
    cases h
  rw [Role.ofWord, if_neg hfiller, h]

theorem ofWord_keyword (verb : Keyword) : Role.ofWord verb.word = .lexeme (.keyword verb) := by
  cases verb <;> decide

/-- A character that opens nothing is cut off alone. -/
theorem cut_sign (hblank : ¬ Text.isBlank c) (halphanum : ¬ c.isAlphanum) (hhash : c ≠ '#')
    (hslash : c = '/' → after.head? ≠ some '/') (hequals : c = '=' → after.head? ≠ some '>') :
    Piece.cut c after = ⟨.ofSign c, [c], after⟩ := by
  obtain ⟨halpha, hdigit⟩ := not_or.mp (mt Bool.or_eq_true_iff.mpr halphanum)
  unfold Piece.cut
  rw [if_neg hblank, if_neg hdigit, if_neg halpha]
  split
  · exact absurd rfl hhash
  · exact absurd rfl (hequals rfl)
  · exact absurd rfl (hslash rfl)
  · rfl

theorem ofSign_invalid (h : c ∉ ['#', '/', '=', ',', '{', '}', ';', '.', '-']) :
    Role.ofSign c = .fault (.invalidCharacter c) := by
  unfold Role.ofSign
  split
  iterate 8 exact absurd (by decide) h
  rfl

/-- Cutting finds no other first piece. -/
theorem cut_of_isPiece {role : Role} (h : IsPiece role (c :: run) after) :
    Piece.cut c (run ++ after) = ⟨role, c :: run, after⟩ := by
  cases h with
  | blank h =>
    unfold Piece.cut
    rw [if_pos h]
    rfl
  | line h => rw [cut_hash, h.takeWhile, h.dropWhile]
  | @comment inner _ h =>
    have hbody : commentBody? (inner ++ ['/', '/'] ++ after) =
        some (inner ++ ['/', '/'], after) :=
      commentBody?_eq_some_iff.mpr ⟨inner, h, rfl, rfl⟩
    rw [List.cons_append, cut_slashes, hbody]
  | filler h hfiller => rw [h.cut, ofWord_filler hfiller]
  | heading h htitle => rw [h.cut, ofWord_heading htitle]
  | keyword h hverb => rw [h.cut, hverb, ofWord_keyword]
  | name h hname => rw [h.cut, hname.role]
  | number h hle => rw [h.cut, Role.ofDigits, number?_eq, if_pos hle]
  | arrow => rfl
  | sign h =>
    have hsign : ∀ sign ∈ signs, ¬ Text.isBlank sign.1 ∧ ¬ sign.1.isAlphanum ∧ sign.1 ≠ '#' ∧
        sign.1 ≠ '/' ∧ sign.1 ≠ '=' ∧ Role.ofSign sign.1 = .lexeme sign.2 := by decide
    obtain ⟨hblank, halphanum, hhash, hslash, hequals, hrole⟩ := hsign _ h
    rw [List.nil_append, cut_sign hblank halphanum hhash (absurd · hslash) (absurd · hequals),
      hrole]
  | loneSlash h =>
    exact cut_sign (by decide) (by decide) (by decide) (fun _ ↦ h) (absurd · (by decide))
  | loneEquals h =>
    exact cut_sign (by decide) (by decide) (by decide) (absurd · (by decide)) fun _ ↦ h
  | tooLarge h hlt => rw [h.cut, Role.ofDigits, number?_eq, if_neg (Nat.not_le.mpr hlt)]
  | unclosed h =>
    rw [List.append_nil, cut_slashes, commentBody?_eq_none_iff.mpr h]
  | invalid hblank halphanum h =>
    have hne (d : Char) (hd : d ∈ ['#', '/', '=', ',', '{', '}', ';', '.', '-']) : c ≠ d :=
      fun hc ↦ h (hc ▸ hd)
    rw [List.nil_append, cut_sign hblank halphanum (hne '#' (by decide))
      (absurd · (hne '/' (by decide))) (absurd · (hne '=' (by decide))), ofSign_invalid h]

end Breadboard.Description
