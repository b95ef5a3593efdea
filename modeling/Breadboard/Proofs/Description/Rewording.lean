import Breadboard.Proofs.Description.Layout

/-!
# Devices renamed in a text

To rename the devices of a text is to put another word in each place where a name stands for a
device, and to leave every other character as it is (`renamed`). After `.` a name stands for a port,
and after `is`, `are` or `-` for a kind of device; anywhere else it stands for a device
(`Lexeme.precedesDevice`). Where the new words are identifiers, the renamed text is cut in the same
places, and what is read off it is what was read off the text, with the devices renamed
(`readings_renamed`).
-/

set_option autoImplicit false
set_option relaxedAutoImplicit false

namespace Breadboard.Description

open Text (Position)

/-! ### Places for devices -/

/-- Whether a name behind a lexeme stands for a device. -/
def Lexeme.precedesDevice : Lexeme → Bool
  | .dot | .minus | .keyword .is | .keyword .are => false
  | _ => true

/-- Whether a name behind a piece stands for a device, when a name in its place would do so or not.
What is skipped makes no difference. -/
def Role.precedesDevice (device : Bool) : Role → Bool
  | .lexeme found => found.precedesDevice
  | .skipped | .fault _ => device

/-- The characters that take the place of a piece. -/
def Role.renamed (rename : String → String) (device : Bool) (role : Role) (run : List Char) :
    List Char :=
  if device ∧ role = .lexeme .name then (rename (String.ofList run)).toList else run

/-- What is left of a text, with its devices renamed. The flag says whether a name in the first
place stands for a device. -/
def renamedRest (rename : String → String) (device : Bool) : List Char → List Char
  | [] => []
  | c :: rest =>
    (Piece.cut c rest).role.renamed rename device (Piece.cut c rest).text ++
      renamedRest rename ((Piece.cut c rest).role.precedesDevice device) (Piece.cut c rest).rest
termination_by text => text.length
decreasing_by exact Nat.lt_succ_of_le (Piece.cut_rest_length c rest)

/-- A text with its devices renamed. -/
def renamed (rename : String → String) (text : String) : String :=
  String.ofList (renamedRest rename true text.toList)

/-- A symbol with its device renamed, if it stands for one. -/
def Symbol.renamed (rename : String → String) (device : Bool) (symbol : Symbol) : Symbol :=
  if device ∧ symbol.lexeme = .name then .name (rename symbol.text) else symbol

/-- Symbols with their devices renamed. -/
def renamedSymbols (rename : String → String) : Bool → List Symbol → List Symbol
  | _, [] => []
  | device, symbol :: symbols =>
    symbol.renamed rename device :: renamedSymbols rename symbol.lexeme.precedesDevice symbols

/-- The names that stand for devices. -/
def deviceNames : Bool → List Symbol → List String
  | _, [] => []
  | device, symbol :: symbols =>
    if device ∧ symbol.lexeme = .name then
      symbol.text :: deviceNames symbol.lexeme.precedesDevice symbols
    else deviceNames symbol.lexeme.precedesDevice symbols

theorem mem_deviceNames_cons {device : Bool} {name : String} {symbol : Symbol}
    {symbols : List Symbol} : name ∈ deviceNames device (symbol :: symbols) ↔
      (device ∧ symbol.lexeme = .name) ∧ name = symbol.text ∨
        name ∈ deviceNames symbol.lexeme.precedesDevice symbols := by
  rw [deviceNames]
  split_ifs with hdevice
  · rw [List.mem_cons, and_iff_right hdevice]
  · rw [or_iff_right (fun h ↦ hdevice h.1)]

/-! ### Texts that go on alike -/

variable {run after after' rest : List Char} {c : Char} {role : Role}

/-- Two texts begin with the same character, or each with a letter, or both are empty. -/
inductive SameFront (after after' : List Char) : Prop
  | same (h : after.head? = after'.head?)
  | letters {c c' : Char} (h : after.head? = some c) (h' : after'.head? = some c')
    (hletter : c.isAlpha) (hletter' : c'.isAlpha)

theorem Maximal.sameFront {p : Char → Bool} (h : Maximal p run after)
    (hp : ∀ c c' : Char, c.isAlpha → c'.isAlpha → p c = false → p c' = false)
    (hfront : SameFront after after') : Maximal p run after' := by
  refine ⟨h.inside, fun d hd ↦ ?_⟩
  cases hfront with
  | same hsame => exact h.boundary d (hsame.trans hd)
  | letters hc hc' hletter hletter' =>
    obtain rfl := Option.some_inj.mp (hc'.symm.trans hd)
    exact hp _ _ hletter hletter' (h.boundary _ hc)

/-- A piece that is no fault stays the piece that it is in front of a text that begins alike. -/
theorem IsPiece.sameFront (h : IsPiece role run after) (hrole : ∀ fault, role ≠ .fault fault)
    (hfront : SameFront after after') : IsPiece role run after' := by
  have hword (h : IsWord run after) : IsWord run after' := by
    refine ⟨h.letter, h.maximal.sameFront (fun c _ hletter _ hc ↦ ?_) hfront⟩
    rw [Char.isAlphanum, hletter, Bool.true_or] at hc
    cases hc
  cases h with
  | blank h => exact .blank h
  | line h =>
    refine .line (h.sameFront (fun c _ hletter _ hc ↦ ?_) hfront)
    obtain rfl : c = '\n' := by simpa using hc
    cases hletter
  | comment h => exact .comment h
  | filler h hfiller => exact .filler (hword h) hfiller
  | heading h htitle => exact .heading (hword h) htitle
  | keyword h hverb => exact .keyword (hword h) hverb
  | name h hname => exact .name (hword h) hname
  | number h hle =>
    refine .number ⟨h.nonempty, h.maximal.sameFront (fun _ c' _ hletter' _ ↦ ?_) hfront⟩ hle
    refine Bool.eq_false_iff.mpr fun hdigit ↦ ?_
    rw [isAlpha_eq_false_of_isDigit hdigit] at hletter'
    cases hletter'
  | arrow => exact .arrow
  | sign h => exact .sign h
  | loneSlash | loneEquals | tooLarge | unclosed | invalid => exact absurd rfl (hrole _)

theorem isWord_of_isPiece (h : IsPiece (.lexeme .name) run after) : IsWord run after := by
  have hsigns : ∀ sign ∈ signs, sign.2 ≠ .name := by decide
  cases h with
  | name h => exact h
  | sign h => exact absurd rfl (hsigns _ h)

/-- A word in place of another. -/
theorem IsWord.replaced {word : String} (h : IsWord run after) (hword : IsIdentifier word)
    (hfront : SameFront after after') : IsPiece (.lexeme .name) word.toList after' := by
  obtain ⟨c, hc, halpha⟩ := (Option.any_eq_true _ _).mp hword.letter
  have hmaximal : Maximal Char.isAlphanum run after' := by
    refine h.maximal.sameFront (fun c _ hletter _ hc ↦ ?_) hfront
    rw [Char.isAlphanum, hletter, Bool.true_or] at hc
    cases hc
  refine .name ⟨⟨c, hc, halpha⟩, List.all_eq_true.mp hword.alphanumeric, hmaximal.boundary⟩ ?_
  rwa [String.ofList_toList]

/-! ### Readings piece by piece -/

namespace Cursor

theorem next_cons (c : Char) (rest : List Char) (position : Position) :
    (Cursor.mk (c :: rest) position).next =
      match (Piece.cut c rest).role with
      | .skipped => ((Cursor.mk (c :: rest) position).past (Piece.cut c rest)).next
      | .lexeme lexeme => (.token ⟨lexeme, String.ofList (Piece.cut c rest).text, position⟩,
          (Cursor.mk (c :: rest) position).past (Piece.cut c rest))
      | .fault fault => (.fault fault position,
          (Cursor.mk (c :: rest) position).past (Piece.cut c rest)) := by
  exact Cursor.next.eq_def _

/-- A piece that is skipped in front of a cursor makes no difference to what is read. -/
theorem readings_of_skipped (h : (Piece.cut c rest).role = .skipped) (position : Position) :
    (Cursor.mk (c :: rest) position).readings =
      ((Cursor.mk (c :: rest) position).past (Piece.cut c rest)).readings := by
  rw [Cursor.readings, next_cons, h]
  exact (Cursor.readings.eq_1 _).symm

theorem readings_of_fault {fault : LexicalFault} (h : (Piece.cut c rest).role = .fault fault)
    (position : Position) :
    .fault fault position ∈ (Cursor.mk (c :: rest) position).readings.1 := by
  rw [Cursor.readings, next_cons, h, dif_neg fun hend ↦ Reading.noConfusion hend]
  exact List.mem_cons_self

end Cursor

/-! ### What a renamed text is read as -/

/-- What is read off a text without lexical faults, wherever it stands. -/
def Reads (text : List Char) (symbols : List Symbol) : Prop :=
  ∀ position, ∃ tokens : List Token, tokens.map Token.symbol = symbols ∧
    (Cursor.mk text position).readings.1 = tokens.map Reading.token

section Reads

variable {symbols : List Symbol}

theorem reads_nil : Reads [] [] :=
  fun position ↦ ⟨[], rfl, readings_nil position⟩

/-- What is skipped in front of a text. -/
theorem Reads.skipped (h : Reads after symbols) (hpiece : IsPiece .skipped run after) :
    Reads (run ++ after) symbols := by
  intro position
  cases run with
  | nil => exact absurd rfl hpiece.ne_nil
  | cons c run =>
    have hcut := cut_of_isPiece hpiece
    rw [List.cons_append, Cursor.readings_of_skipped (by rw [hcut]), hcut]
    exact h _

/-- A lexeme in front of a text. -/
theorem Reads.lexeme {lexeme : Lexeme} (h : Reads after symbols)
    (hpiece : IsPiece (.lexeme lexeme) run after) :
    Reads (run ++ after)
      (⟨lexeme, if lexeme = .name then String.ofList run else ""⟩ :: symbols) := by
  intro position
  cases run with
  | nil => exact absurd rfl hpiece.ne_nil
  | cons c run =>
    obtain ⟨tokens, rfl, hread⟩ := h (position.afterAll (c :: run))
    refine ⟨⟨lexeme, String.ofList (c :: run), position⟩ :: tokens, rfl, ?_⟩
    rw [List.cons_append, Cursor.readings_of_cut (cut_of_isPiece hpiece)
      (ne_endOfText_of_isPiece hpiece), hread]
    rfl

end Reads

variable {rename : String → String} {device : Bool} {lexeme : Lexeme}

/-- A piece in front of two texts. -/
theorem sameFront_append (h : run ≠ []) (after after' : List Char) :
    SameFront (run ++ after) (run ++ after') := by
  refine .same ?_
  rw [List.head?_append, List.head?_append, List.head?_eq_some_head h, Option.some_or,
    Option.some_or]

/-- A name is replaced by what is read as the new name. -/
theorem IsWord.renamed {word : String} (h : IsWord run after) (hword : IsIdentifier word)
    (hfront : SameFront after after') : SameFront (run ++ after) (word.toList ++ after') ∧
      ∀ symbols, Reads after' symbols → Reads (word.toList ++ after') (.name word :: symbols) := by
  obtain ⟨c, hc, hletter⟩ := h.letter
  obtain ⟨c', hc', hletter'⟩ := (Option.any_eq_true _ _).mp hword.letter
  have hfirst : (run ++ after).head? = some c := by rw [List.head?_append, hc, Option.some_or]
  have hfirst' : (word.toList ++ after').head? = some c' := by
    rw [List.head?_append, hc', Option.some_or]
  refine ⟨.letters hfirst hfirst' hletter hletter', fun symbols hreads ↦ ?_⟩
  have hreplaced := hreads.lexeme (h.replaced hword hfront)
  rwa [if_pos rfl, String.ofList_toList] at hreplaced

/-- A lexeme is replaced by what is read as its symbol with the device renamed. -/
theorem IsPiece.renamed (h : IsPiece (.lexeme lexeme) run after) (hfront : SameFront after after')
    (hname : device ∧ lexeme = .name → IsIdentifier (rename (String.ofList run))) :
    SameFront (run ++ after) (Role.renamed rename device (.lexeme lexeme) run ++ after') ∧
      ∀ symbols, Reads after' symbols →
        Reads (Role.renamed rename device (.lexeme lexeme) run ++ after')
          (Symbol.renamed rename device
            ⟨lexeme, if lexeme = .name then String.ofList run else ""⟩ :: symbols) := by
  by_cases hdevice : device ∧ lexeme = .name
  · have hidentifier := hname hdevice
    obtain ⟨rfl, rfl⟩ := hdevice
    exact (isWord_of_isPiece h).renamed hidentifier hfront
  · have hsame : Role.renamed rename device (.lexeme lexeme) run = run :=
      if_neg fun h ↦ hdevice ⟨h.1, Role.lexeme.inj h.2⟩
    have hsymbol : Symbol.renamed rename device
        ⟨lexeme, if lexeme = .name then String.ofList run else ""⟩ =
          ⟨lexeme, if lexeme = .name then String.ofList run else ""⟩ := if_neg hdevice
    rw [hsame, hsymbol]
    exact ⟨sameFront_append h.ne_nil after after',
      fun symbols hreads ↦ hreads.lexeme (h.sameFront nofun hfront)⟩

/-- A text whose devices are renamed to identifiers is cut where it was cut before. -/
theorem reads_renamedRest {text : List Char} {position : Position} {tokens : List Token}
    (hread : (Cursor.mk text position).readings.1 = tokens.map Reading.token)
    (hnames : ∀ name ∈ deviceNames device (tokens.map Token.symbol), IsIdentifier (rename name)) :
    SameFront text (renamedRest rename device text) ∧
      Reads (renamedRest rename device text)
        (renamedSymbols rename device (tokens.map Token.symbol)) := by
  fun_induction renamedRest rename device text generalizing position tokens with
  | case1 device =>
    rw [readings_nil] at hread
    obtain rfl := List.map_eq_nil_iff.mp hread.symm
    exact ⟨.same rfl, reads_nil⟩
  | case2 device c rest ih =>
    have hpiece := isPiece_cut c rest
    have happend : c :: rest = (Piece.cut c rest).text ++ (Piece.cut c rest).rest :=
      (Piece.cut_append c rest).symm
    cases hrole : (Piece.cut c rest).role with
    | skipped =>
      rw [hrole] at hpiece ih
      rw [Cursor.readings_of_skipped hrole] at hread
      obtain ⟨hfront, hreads⟩ := ih hread hnames
      have hsame : Role.renamed rename device .skipped (Piece.cut c rest).text =
          (Piece.cut c rest).text := if_neg fun h ↦ nomatch h.2
      rw [hsame, happend]
      exact ⟨sameFront_append hpiece.ne_nil _ _, hreads.skipped (hpiece.sameFront nofun hfront)⟩
    | fault fault =>
      -- every reading is a token
      have hfault := Cursor.readings_of_fault hrole position
      rw [hread] at hfault
      obtain ⟨token, -, htoken⟩ := List.mem_map.mp hfault
      cases htoken
    | lexeme lexeme =>
      rw [hrole] at hpiece ih
      have hcut : Piece.cut c rest =
          ⟨.lexeme lexeme, (Piece.cut c rest).text, (Piece.cut c rest).rest⟩ := by
        rw [← hrole]
      rw [Cursor.readings_of_cut hcut (ne_endOfText_of_isPiece hpiece)] at hread
      cases tokens with
      | nil => cases hread
      | cons token tokens =>
        obtain ⟨hfirst, hmore⟩ := List.cons.inj hread
        obtain rfl := Reading.token.inj hfirst
        obtain ⟨hfront, hreads⟩ := ih hmore fun name hname ↦
          hnames name (mem_deviceNames_cons.mpr (.inr hname))
        have hname (hdevice : device ∧ lexeme = .name) :
            IsIdentifier (rename (String.ofList (Piece.cut c rest).text)) := by
          refine hnames _ (mem_deviceNames_cons.mpr (.inl ⟨hdevice, ?_⟩))
          exact (if_pos hdevice.2).symm
        have hrenamed := hpiece.renamed hfront hname
        rw [happend]
        exact ⟨hrenamed.1, hrenamed.2 _ hreads⟩

/-- What is read off a renamed text is what was read off the text, with the devices renamed.

Assumes: nothing but symbols is read off the text, and devices are renamed to identifiers. -/
theorem readings_renamed {text : String} {tokens : List Token}
    (hread : readingsOf text = tokens.map Reading.token)
    (hnames : ∀ name ∈ deviceNames true (tokens.map Token.symbol), IsIdentifier (rename name)) :
    ∃ tokens' : List Token, readingsOf (renamed rename text) = tokens'.map Reading.token ∧
      tokens'.map Token.symbol = renamedSymbols rename true (tokens.map Token.symbol) := by
  obtain ⟨-, hreads⟩ := reads_renamedRest hread hnames
  obtain ⟨tokens', hsymbols, hread'⟩ := hreads {}
  refine ⟨tokens', ?_, hsymbols⟩
  rw [readingsOf, Cursor.start, renamed, String.toList_ofList]
  exact hread'

end Breadboard.Description
