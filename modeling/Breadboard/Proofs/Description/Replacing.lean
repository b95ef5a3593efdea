import Breadboard.Proofs.Description.Ranges
import Breadboard.Proofs.Description.Rewording

/-!
# Part of a text replaced

What is read off a text is read piece by piece, so it is the same symbols and the same number of
faults wherever the text stands (`ScansTo`). A text that is cut between two pieces goes on as before
when what is behind the cut is replaced by something that begins with the same character
(`Cut.exists_front`). So where a range is replaced by the names that it stands for, these names take
the place of the range among the symbols of the text, and nothing else changes
(`replaced_of_written`).
-/

set_option autoImplicit false
set_option relaxedAutoImplicit false

namespace Breadboard.Description

open Text (Position)

variable {text before written gap run after after' rest rest' : List Char} {role : Role}
  {symbols more : List Symbol} {n : Nat}

/-! ### What a text scans to -/

/-- The symbols of some characters, lexical faults left out. -/
def symbolsIn (text : List Char) : List Symbol :=
  (Cursor.mk text {}).readings.1.filterMap Reading.symbol?

/-- The number of lexical faults in some characters. -/
def faultsIn (text : List Char) : Nat :=
  ((Cursor.mk text {}).readings.1.filterMap Reading.report?).length

/-- What is read off some characters wherever they stand: some symbols, and a number of faults. -/
def ScansTo (text : List Char) (symbols : List Symbol) (n : Nat) : Prop :=
  ∀ position, (Cursor.mk text position).readings.1.filterMap Reading.symbol? = symbols ∧
    ((Cursor.mk text position).readings.1.filterMap Reading.report?).length = n

theorem ScansTo.symbolsIn_eq (h : ScansTo text symbols n) : symbolsIn text = symbols :=
  (h {}).1

theorem ScansTo.faultsIn_eq (h : ScansTo text symbols n) : faultsIn text = n :=
  (h {}).2

theorem scansTo_nil : ScansTo [] [] 0 := by
  intro position
  rw [readings_nil]
  exact ⟨rfl, rfl⟩

/-- The symbol that a piece is, if it is one. -/
def Role.scanned (run : List Char) : Role → List Symbol
  | .lexeme found => [⟨found, if found = .name then String.ofList run else ""⟩]
  | .skipped | .fault _ => []

/-- The fault that a piece is, counted. -/
def Role.rejected : Role → Nat
  | .fault _ => 1
  | .skipped | .lexeme _ => 0

theorem ScansTo.piece (h : ScansTo after symbols n) (hpiece : IsPiece role run after) :
    ScansTo (run ++ after) (role.scanned run ++ symbols) (n + role.rejected) := by
  intro position
  cases run with
  | nil => exact absurd rfl hpiece.ne_nil
  | cons c run =>
    obtain ⟨hsymbols, hfaults⟩ := h (position.afterAll (c :: run))
    have hcut := cut_of_isPiece hpiece
    rw [List.cons_append]
    cases role with
    | skipped =>
      rw [Cursor.readings_of_skipped (by rw [hcut]), hcut]
      exact ⟨hsymbols, hfaults⟩
    | lexeme lexeme =>
      rw [Cursor.readings_of_cut hcut (ne_endOfText_of_isPiece hpiece)]
      exact ⟨congrArg _ hsymbols, hfaults⟩
    | fault fault =>
      rw [Cursor.readings, Cursor.next_cons, hcut, dif_neg fun hend ↦ Reading.noConfusion hend]
      exact ⟨hsymbols, congrArg (· + 1) hfaults⟩

/-- Every text scans to something. -/
theorem exists_scansTo (text : List Char) : ∃ symbols n, ScansTo text symbols n := by
  induction hlength : text.length using Nat.strong_induction_on generalizing text with
  | _ length ih =>
    subst hlength
    cases text with
    | nil => exact ⟨[], 0, scansTo_nil⟩
    | cons c rest =>
      have hpiece := isPiece_cut c rest
      obtain ⟨symbols, n, hscans⟩ := ih (Piece.cut c rest).rest.length
        (Nat.lt_succ_of_le (Piece.cut_rest_length c rest)) _ rfl
      rw [← Piece.cut_append c rest]
      exact ⟨_, _, hscans.piece hpiece⟩

theorem ScansTo.gapped (h : ScansTo after symbols n) (hgap : Gap gap after) :
    ScansTo (gap ++ after) symbols n := by
  induction hgap with
  | nil => exact h
  | cons hpiece _ ih =>
    rw [List.append_assoc]
    exact (ih h).piece hpiece

theorem ScansTo.name {name : String} (h : ScansTo after symbols n)
    (hpiece : IsPiece (.lexeme .name) name.toList after) :
    ScansTo (name.toList ++ after) (.name name :: symbols) n := by
  have hscans := h.piece hpiece
  rwa [Role.scanned, if_pos rfl, String.ofList_toList] at hscans

/-! ### Behind a cut -/

/-- A piece is told from the one character that follows it. -/
theorem IsPiece.sameHead (h : IsPiece role run after) (hhead : after.head? = after'.head?) :
    IsPiece role run after' := by
  cases role with
  | skipped | lexeme => exact h.sameFront nofun (.same hhead)
  | fault fault =>
    cases h with
    | loneSlash h => exact .loneSlash (hhead ▸ h)
    | loneEquals h => exact .loneEquals (hhead ▸ h)
    | tooLarge h hlt =>
      exact .tooLarge ⟨h.nonempty, h.maximal.inside, fun c hc ↦ h.maximal.boundary c
        (hhead.trans hc)⟩ hlt
    | unclosed h =>
      obtain rfl := List.head?_eq_none_iff.mp hhead.symm
      exact .unclosed h
    | invalid hblank halphanum h => exact .invalid hblank halphanum h

/-- What is in front of a cut scans to the same in front of any text that begins with the same
character. -/
theorem Cut.exists_front (h : Cut text before rest) (hhead : rest.head? = rest'.head?) :
    ∃ front m, (∀ symbols n, ScansTo rest symbols n → ScansTo text (front ++ symbols) (n + m)) ∧
      ∀ symbols n, ScansTo rest' symbols n →
        ScansTo (before ++ rest') (front ++ symbols) (n + m) := by
  induction h generalizing rest' with
  | start => exact ⟨[], 0, fun _ _ ↦ id, fun _ _ ↦ id⟩
  | @piece before rest c _ ih =>
    have hpiece := isPiece_cut c rest
    have hpiece' := hpiece.sameHead hhead
    have hnext : (c :: rest).head? = ((Piece.cut c rest).text ++ rest').head? := by
      rw [← Piece.cut_append c rest, List.head?_append, List.head?_append,
        List.head?_eq_some_head hpiece.ne_nil, Option.some_or, Option.some_or]
    obtain ⟨front, m, hfront, hfront'⟩ := ih hnext
    rw [← Piece.cut_append c rest] at hfront
    refine ⟨front ++ (Piece.cut c rest).role.scanned (Piece.cut c rest).text,
      (Piece.cut c rest).role.rejected + m, fun symbols n hrest ↦ ?_, fun symbols n hrest ↦ ?_⟩
    · rw [List.append_assoc, ← Nat.add_assoc]
      exact hfront _ _ (hrest.piece hpiece)
    · rw [List.append_assoc, List.append_assoc, ← Nat.add_assoc]
      exact hfront' _ _ (hrest.piece hpiece')

/-! ### Ranges and the names that they stand for -/

/-- Two texts with as many lexical faults, one of which has other symbols in the place of some
symbols of the other. -/
structure Replaced (front old new more : List Symbol) (text text' : String) : Prop where
  left : symbolsIn text.toList = front ++ old ++ more
  right : symbolsIn text'.toList = front ++ new ++ more
  faults : faultsIn text'.toList = faultsIn text.toList

/-- Names with commas between them. -/
def commaSeparated (names : List String) : List Symbol :=
  (names.map Symbol.name).intersperse (.sign .comma)

theorem commaSeparated_cons (first : String) (others : List String) :
    commaSeparated (first :: others) =
      .name first :: Attempt.afterComma (fun name ↦ [.name name]) others := by
  induction others generalizing first with
  | nil => rfl
  | cons other others ih =>
    exact congrArg (fun symbols ↦ .name first :: .sign .comma :: symbols) (ih other)

/-- Names as they are written with commas between them. -/
def listed (names : List String) : String :=
  ", ".intercalate names

/-- A text that is put together of what is before a cut, something written, and what is after. -/
def spliced (before : List Char) (middle : String) (after : List Char) : String :=
  String.ofList (before ++ (middle.toList ++ after))

/-- A range as it is written in front of some text. Blanks, comments and filler words may stand
around the arrow. -/
inductive RangeWritten (first last : String) : List Char → List Char → Prop
  | intro {gap gap' after : List Char} :
    IsPiece (.lexeme .name) first.toList (gap ++ ('=' :: '>' :: (gap' ++ (last.toList ++ after)))) →
    Gap gap ('=' :: '>' :: (gap' ++ (last.toList ++ after))) → Gap gap' (last.toList ++ after) →
    IsPiece (.lexeme .name) last.toList after →
    RangeWritten first last (first.toList ++ (gap ++ ('=' :: '>' :: (gap' ++ last.toList)))) after

section RangeWritten

variable {first last name : String} {list names : List String}

theorem isIdentifier_of_isPiece (h : IsPiece (.lexeme .name) run after) :
    IsIdentifier (String.ofList run) := by
  have hsigns : ∀ sign ∈ signs, sign.2 ≠ .name := by decide
  cases h with
  | name _ hname => exact hname
  | sign h => exact absurd rfl (hsigns _ h)

theorem IsIdentifier.isPiece (h : IsIdentifier name)
    (hafter : ∀ c, after.head? = some c → c.isAlphanum = false) :
    IsPiece (.lexeme .name) name.toList after := by
  obtain ⟨c, hc, halpha⟩ := (Option.any_eq_true _ _).mp h.letter
  refine .name ⟨⟨c, hc, halpha⟩, List.all_eq_true.mp h.alphanumeric, hafter⟩ ?_
  rwa [String.ofList_toList]

theorem RangeWritten.scansTo (h : RangeWritten first last written after)
    (hafter : ScansTo after more n) :
    ScansTo (written ++ after) ((NameList.range first last).symbols ++ more) n := by
  cases h with
  | intro hfirst hgap hgap' hlast =>
    have harrow := ((hafter.name hlast).gapped hgap').piece .arrow
    have hrange := (harrow.gapped hgap).name hfirst
    simp only [List.append_assoc, List.cons_append]
    exact hrange

theorem scansTo_listed (hnames : ∀ name ∈ names, IsIdentifier name)
    (hlast : ∀ name, names.getLast? = some name → IsPiece (.lexeme .name) name.toList after)
    (hafter : ScansTo after more n) :
    ScansTo ((listed names).toList ++ after) (commaSeparated names ++ more) n := by
  induction names with
  | nil => exact hafter
  | cons name names ih =>
    obtain ⟨hname, hmore⟩ := List.forall_mem_cons.mp hnames
    cases names with
    | nil =>
      rw [listed, String.intercalate_singleton]
      exact hafter.name (hlast name rfl)
    | cons next names =>
      have hrest := ih hmore fun name h ↦ hlast name (by rwa [List.getLast?_cons_cons])
      have hcomma := (hrest.piece (.blank (c := ' ') (by decide))).piece
        (.sign (c := ',') (by decide : (',', Lexeme.comma) ∈ signs))
      have hcommaNext : ∀ c, (',' :: ' ' :: ((listed (next :: names)).toList ++ after)).head? =
          some c → c.isAlphanum = false := by
        rintro c hc
        obtain rfl := Option.some_inj.mp hc
        rfl
      have hlisted : (listed (name :: next :: names)).toList =
          name.toList ++ (',' :: ' ' :: (listed (next :: names)).toList) := by
        rw [listed, String.intercalate_cons_cons, String.toList_append, String.toList_append,
          List.append_assoc]
        rfl
      rw [hlisted, List.append_assoc]
      exact hcomma.name (hname.isPiece hcommaNext)

/-- A range begins with the first of the names that it stands for, as a text that is written. -/
theorem RangeWritten.head?_eq (h : RangeWritten first last written after) (others : List String) :
    (written ++ after).head? = ((listed (first :: others)).toList ++ after).head? := by
  cases h with
  | intro hpiece _ _ _ =>
    have hfront (rest : List Char) : (first.toList ++ rest).head? = first.toList.head? :=
      List.head?_append_of_ne_nil _ hpiece.ne_nil
    rw [List.append_assoc, hfront]
    cases others with
    | nil => rw [listed, String.intercalate_singleton, hfront]
    | cons next others =>
      rw [listed, String.intercalate_cons_cons, String.toList_append, String.toList_append,
        List.append_assoc, List.append_assoc, hfront]

theorem RangeWritten.ends (h : RangeWritten first last written after) :
    IsIdentifier first ∧ IsPiece (.lexeme .name) last.toList after := by
  cases h with
  | intro hfirst _ _ hlast =>
    exact ⟨String.ofList_toList (s := first) ▸ isIdentifier_of_isPiece hfirst, hlast⟩

/-- Where a range that is written in a text is replaced by the names that it stands for, so it is
among the symbols of the text. -/
theorem replaced_of_written {text : String} (hcut : Cut text.toList before (written ++ after))
    (hwritten : RangeWritten first last written after)
    (hlist : expandRange first last = .ok list) (hfirst : ¬IsPadded first)
    (hlast : ¬IsPadded last) :
    symbolsIn (written ++ after) = (NameList.range first last).symbols ++ symbolsIn after ∧
      ∃ front, Replaced front (NameList.range first last).symbols (commaSeparated list)
        (symbolsIn after) text (spliced before (listed list) after) := by
  have hruns := runsBetween_of_expandRange hlist
  obtain ⟨hidentifier, hpiece⟩ := hwritten.ends
  have hhead : list.head? = some first :=
    hruns.head.trans (congrArg some (hruns.first_eq.mpr hfirst))
  have hend : list.getLast? = some last :=
    hruns.getLast.trans (congrArg some (hruns.last_eq.mpr hlast))
  obtain ⟨others, rfl⟩ := List.head?_eq_some_iff.mp hhead
  obtain ⟨more, n, hafter⟩ := exists_scansTo after
  have hold := hwritten.scansTo hafter
  have hnames : ∀ name ∈ first :: others, IsIdentifier name :=
    fun name hname ↦ isIdentifier_of_mem_range hidentifier hlist hname
  have hends : ∀ name, (first :: others).getLast? = some name →
      IsPiece (.lexeme .name) name.toList after :=
    fun name hname ↦ Option.some_inj.mp (hend.symm.trans hname) ▸ hpiece
  have hnew := scansTo_listed hnames hends hafter
  obtain ⟨front, m, hfront, hfront'⟩ := hcut.exists_front (hwritten.head?_eq others)
  have hleft := hfront _ _ hold
  have hright := hfront' _ _ hnew
  rw [hafter.symbolsIn_eq]
  refine ⟨hold.symbolsIn_eq, front, ?_, ?_, ?_⟩
  · rw [hleft.symbolsIn_eq, List.append_assoc]
  · rw [spliced, String.toList_ofList, hright.symbolsIn_eq, List.append_assoc]
  · rw [spliced, String.toList_ofList, hright.faultsIn_eq, hleft.faultsIn_eq]

end RangeWritten

end Breadboard.Description
