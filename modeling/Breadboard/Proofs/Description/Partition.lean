import Breadboard.Proofs.Description.Pieces
import Breadboard.Proofs.Names.Histories

/-!
# A text shared out among the calls of a scanner

A scanner is asked for one symbol after another, each time with a mode for names
(`Scanner.symbol`). Whatever the modes and the name table, each call takes a run of characters off
the front of the text: what is skipped (`Gap`), and then one lexeme or the characters that are
rejected (`Reading.Spells`). The runs one after another are the text, up to a rest in which
everything is skipped, and from then on every call says that the text has ended
(`Scanner.partition`).
-/

set_option autoImplicit false
set_option relaxedAutoImplicit false

namespace Breadboard.Description

open Text (Position)

/-! ### The scanner -/

/-- A place in a text, and the name table. -/
structure Scanner where
  cursor : Cursor
  names : Names

/-- What a scanner answers: what is read, with the number of a name, or that a word is no name. -/
inductive Scanned
  | read (reading : Reading) (id? : Option NameId)
  | refused (refusal : InvalidName) (position : Position)

namespace Scanner

/-- The next symbol of a text. -/
def symbol (scanner : Scanner) (mode : NameMode) : Scanned × Scanner :=
  let cursor := scanner.cursor.next.2
  match scanner.cursor.next.1 with
  | .fault fault position => (.read (.fault fault position) none, ⟨cursor, scanner.names⟩)
  | .token token =>
    if token.lexeme = .name then
      match mode with
      | .declare =>
        match scanner.names.lookup token.text with
        | .ok (id, names) => (.read (.token token) (some id), ⟨cursor, names⟩)
        | .error refusal => (.refused refusal token.position, ⟨cursor, scanner.names⟩)
      | .query => (.read (.token token) (scanner.names.query token.text), ⟨cursor, scanner.names⟩)
    else (.read (.token token) none, ⟨cursor, scanner.names⟩)

/-- The scanner before a call, counted from zero, with the mode of each call. -/
def before (scanner : Scanner) (modes : Nat → NameMode) : Nat → Scanner
  | 0 => scanner
  | n + 1 => ((scanner.before modes n).symbol (modes n)).2

/-- What a call answers. -/
def answer (scanner : Scanner) (modes : Nat → NameMode) (n : Nat) : Scanned :=
  ((scanner.before modes n).symbol (modes n)).1

end Scanner

/-- Identifiers are names. -/
theorem IsIdentifier.isName {name : String} (h : IsIdentifier name) : IsName name := by
  obtain ⟨c, hc, halpha⟩ := (Option.any_eq_true _ _).mp h.letter
  have hmem : c ∈ name.toList := List.mem_of_head? hc
  refine ⟨?_, List.all_eq_true.mp h.alphanumeric, c, hmem, fun hdigit ↦ ?_⟩
  · rintro rfl
    cases hmem
  · exact Bool.false_ne_true ((isAlpha_eq_false_of_isDigit hdigit).symm.trans halpha)

/-- The number of the name that is read. -/
def Reading.resolve (reading : Reading) (names : Names) (mode : NameMode) :
    Option NameId × Names :=
  match reading with
  | .token found => if found.lexeme = .name then names.resolve mode found.text else (none, names)
  | .fault .. => (none, names)

/-- A scanner reads on whatever the names are, and refuses no word. -/
theorem Scanner.symbol_eq (scanner : Scanner) (mode : NameMode) :
    scanner.symbol mode =
      (.read scanner.cursor.next.1 (scanner.cursor.next.1.resolve scanner.names mode).1,
        ⟨scanner.cursor.next.2, (scanner.cursor.next.1.resolve scanner.names mode).2⟩) := by
  rw [symbol]
  cases hnext : scanner.cursor.next.1 with
  | fault => rfl
  | token token =>
    dsimp only [Reading.resolve]
    split_ifs with hlexeme
    · cases mode with
      | query => rfl
      | declare =>
        have hidentifier : IsIdentifier token.text := by
          rcases scanner.cursor.next_proper hnext with rfl | hproper
          · cases hlexeme
          · exact hproper.identifier hlexeme
        rw [Names.lookup_of_isName hidentifier.isName]
        rfl
    · rfl

/-! ### One call -/

/-- Characters that are skipped: blanks, comments and filler words, one after another. -/
inductive Gap : List Char → List Char → Prop
  | nil {after : List Char} : Gap [] after
  | cons {piece gap after : List Char} (h : IsPiece .skipped piece (gap ++ after))
    (hgap : Gap gap after) : Gap (piece ++ gap) after

/-- Characters that are read as a lexeme, with their own text, or rejected. -/
def Reading.Spells (written after : List Char) : Reading → Prop
  | .token found =>
    found.text = String.ofList written ∧ IsPiece (.lexeme found.lexeme) written after
  | .fault reason _ => IsPiece (.fault reason) written after

section Spells

variable {reading : Reading} {written after : List Char}

theorem Reading.Spells.ne_nil (h : reading.Spells written after) : written ≠ [] := by
  cases reading with
  | token found => exact h.2.ne_nil
  | fault fault position =>
    have hpiece : IsPiece (.fault fault) written after := h
    exact hpiece.ne_nil

/-- The end of a text is not written. -/
theorem Reading.Spells.ne_finish (h : reading.Spells written after) (position : Position) :
    reading ≠ .token (.finish position) := by
  rintro rfl
  have hempty : String.ofList [] = String.ofList written := h.1
  exact h.2.ne_nil (String.ofList_injective hempty).symm

end Spells

namespace Cursor

variable {cursor : Cursor}

/-- A call takes what is skipped and one reading, or it ends the text. -/
theorem next_cases (cursor : Cursor) :
    (Gap cursor.rest [] ∧ cursor.next.2.rest = [] ∧
      cursor.next.1 = .token (.finish cursor.next.2.position)) ∨
    ∃ gap written, cursor.rest = gap ++ written ++ cursor.next.2.rest ∧
      Gap gap (written ++ cursor.next.2.rest) ∧
      cursor.next.1.Spells written cursor.next.2.rest := by
  fun_induction Cursor.next cursor with
  | case1 cursor hrest =>
    refine .inl ⟨?_, hrest, rfl⟩
    rw [hrest]
    exact .nil
  | case2 cursor c rest hrest piece hrole ih =>
    have hpiece := isPiece_cut c rest
    have happend : cursor.rest = piece.text ++ piece.rest := by rw [hrest, Piece.cut_append]
    rw [hrole] at hpiece
    rcases ih with ⟨hgap, hend⟩ | ⟨gap, written, hafter, hgap, hreading⟩
    · refine .inl ⟨?_, hend⟩
      rw [happend]
      exact .cons ((List.append_nil piece.rest).symm ▸ hpiece) hgap
    · have hafter : piece.rest = gap ++ written ++ _ := hafter
      refine .inr ⟨piece.text ++ gap, written, ?_, .cons ?_ hgap, hreading⟩
      · rw [happend, hafter]
        simp only [List.append_assoc]
      · rw [← List.append_assoc, ← hafter]
        exact hpiece
  | case3 cursor c rest hrest piece lexeme hrole =>
    have hpiece := isPiece_cut c rest
    rw [hrole] at hpiece
    exact .inr ⟨[], piece.text, by rw [hrest, ← Piece.cut_append]; rfl, .nil, rfl, hpiece⟩
  | case4 cursor c rest hrest piece fault hrole =>
    have hpiece := isPiece_cut c rest
    rw [hrole] at hpiece
    have hspells : (Reading.fault fault cursor.position).Spells piece.text piece.rest := hpiece
    exact .inr ⟨[], piece.text, by rw [hrest, ← Piece.cut_append]; rfl, .nil, hspells⟩

/-- At the end of a text the end is read, again and again. -/
theorem next_of_rest_eq_nil (h : cursor.rest = []) :
    cursor.next = (.token (.finish cursor.position), cursor) := by
  rw [Cursor.next]
  split
  · rfl
  · next hcons => cases h.symm.trans hcons

/-! ### All calls -/

/-- The runs of characters that calls take one after another, and what is left for the call that
ends the text. -/
inductive Runs : Cursor → List (List Char) → List Char → Prop
  | finish {cursor : Cursor} (hgap : Gap cursor.rest []) (hrest : cursor.next.2.rest = [])
    (h : cursor.next.1 = .token (.finish cursor.next.2.position)) : Runs cursor [] cursor.rest
  | call {cursor : Cursor} {gap written left : List Char} {runs : List (List Char)}
    (hrest : cursor.rest = gap ++ written ++ cursor.next.2.rest)
    (hgap : Gap gap (written ++ cursor.next.2.rest))
    (hspells : cursor.next.1.Spells written cursor.next.2.rest)
    (hmore : Runs cursor.next.2 runs left) : Runs cursor ((gap ++ written) :: runs) left

theorem exists_runs (cursor : Cursor) : ∃ runs left, cursor.Runs runs left := by
  fun_induction Cursor.readings cursor with
  | case1 cursor step hend =>
    rcases cursor.next_cases with ⟨hgap, hrest, hfinish⟩ | ⟨gap, written, -, -, hspells⟩
    · exact ⟨[], cursor.rest, .finish hgap hrest hfinish⟩
    · exact absurd hend (hspells.ne_finish _)
  | case2 cursor step hend more finish hreadings ih =>
    rcases cursor.next_cases with ⟨-, -, hfinish⟩ | ⟨gap, written, hrest, hgap, hspells⟩
    · exact absurd hfinish hend
    · obtain ⟨runs, left, hruns⟩ := ih
      exact ⟨(gap ++ written) :: runs, left, .call hrest hgap hspells hruns⟩

/-- The cursor after some calls. -/
def following (cursor : Cursor) (n : Nat) : Cursor :=
  (fun cursor ↦ cursor.next.2)^[n] cursor

theorem following_succ (cursor : Cursor) (n : Nat) :
    cursor.following (n + 1) = (cursor.following n).next.2 :=
  Function.iterate_succ_apply' ..

namespace Runs

variable {runs : List (List Char)} {left : List Char}

theorem flatten (h : cursor.Runs runs left) : runs.flatten ++ left = cursor.rest := by
  induction h with
  | finish => rfl
  | call hrest _ _ _ ih => rw [List.flatten_cons, List.append_assoc, ih, ← hrest]

theorem length_le (h : cursor.Runs runs left) : runs.length ≤ cursor.rest.length := by
  induction h with
  | finish => exact Nat.zero_le _
  | call hrest _ hspells _ ih =>
    have hwritten := List.length_pos_iff.mpr hspells.ne_nil
    rw [hrest, List.length_cons, List.length_append, List.length_append]
    omega

theorem rest_following (h : cursor.Runs runs left) {k : Nat} (hk : k ≤ runs.length) :
    (cursor.following k).rest = (runs.drop k).flatten ++ left := by
  induction h generalizing k with
  | finish =>
    obtain rfl := Nat.le_zero.mp hk
    rfl
  | call hrest hgap hspells hmore ih =>
    cases k with
    | zero => exact (Runs.call hrest hgap hspells hmore).flatten.symm
    | succ k => exact ih (Nat.le_of_succ_le_succ hk)

theorem call_following (h : cursor.Runs runs left) {k : Nat} {run : List Char}
    (hrun : runs[k]? = some run) : ∃ gap written, run = gap ++ written ∧
      Gap gap (written ++ (cursor.following (k + 1)).rest) ∧
      (cursor.following k).next.1.Spells written (cursor.following (k + 1)).rest := by
  induction h generalizing k with
  | finish => cases hrun
  | @call _ gap written _ _ _ hgap hspells _ ih =>
    cases k with
    | zero => exact ⟨gap, written, (Option.some_inj.mp hrun).symm, hgap, hspells⟩
    | succ k => exact ih hrun

/-- Once the text has ended, the end is read again and again. -/
theorem finish_following (h : cursor.Runs runs left) : Gap left [] ∧ ∃ position,
    ∀ k, runs.length ≤ k → (cursor.following k).next.1 = .token (.finish position) ∧
      (cursor.following (k + 1)).rest = [] := by
  induction h with
  | @finish cursor hgap hrest hfinish =>
    have hstays (k : Nat) : cursor.following (k + 1) = cursor.next.2 := by
      induction k with
      | zero => rfl
      | succ k ih => rw [following_succ, ih, next_of_rest_eq_nil hrest]
    refine ⟨hgap, cursor.next.2.position, fun k _ ↦ ⟨?_, by rw [hstays, hrest]⟩⟩
    cases k with
    | zero => exact hfinish
    | succ k => rw [hstays, next_of_rest_eq_nil hrest]
  | call _ _ _ _ ih =>
    obtain ⟨hgap, position, hposition⟩ := ih
    refine ⟨hgap, position, fun k hk ↦ ?_⟩
    obtain ⟨k, rfl⟩ := Nat.exists_eq_add_of_le' hk
    exact hposition _ (Nat.le_add_left ..)

end Runs

end Cursor

namespace Scanner

/-- A text that is shared out among the calls of a scanner: each of the first ones takes a run of
its characters, and the call after them takes what is left. -/
structure Shares (text : List Char) (scanner : Nat → Scanner) (answer : Nat → Scanned)
    (runs : List (List Char)) (left : List Char) : Prop where
  /-- Nothing is lost, and nothing is read twice. -/
  whole : runs.flatten ++ left = text
  /-- There are no more runs than characters. -/
  few : runs.length ≤ text.length
  /-- Each call begins where the one before it ended. -/
  before : ∀ k ≤ runs.length, (scanner k).cursor.rest = (runs.drop k).flatten ++ left
  /-- A run is what is skipped and then one lexeme, or the characters that are rejected. -/
  call : ∀ k run, runs[k]? = some run → run ≠ [] ∧ ∃ gap written reading id?,
    run = gap ++ written ∧ Gap gap (written ++ (scanner (k + 1)).cursor.rest) ∧
      answer k = .read reading id? ∧ reading.Spells written (scanner (k + 1)).cursor.rest
  /-- What is left is skipped, and from then on the text has ended. -/
  finish : Gap left [] ∧ ∃ position, ∀ k, runs.length ≤ k →
    answer k = .read (.token (.finish position)) none ∧ (scanner (k + 1)).cursor.rest = []

theorem cursor_before (scanner : Scanner) (modes : Nat → NameMode) (k : Nat) :
    (scanner.before modes k).cursor = scanner.cursor.following k := by
  induction k with
  | zero => rfl
  | succ k ih => rw [before, symbol_eq, Cursor.following_succ, ih]

theorem answer_eq (scanner : Scanner) (modes : Nat → NameMode) (k : Nat) :
    scanner.answer modes k = .read (scanner.cursor.following k).next.1
      ((scanner.cursor.following k).next.1.resolve (scanner.before modes k).names (modes k)).1 := by
  rw [answer, symbol_eq, cursor_before]

/-- For every text, every name table and every sequence of modes, the calls of a scanner share the
text out among them. -/
theorem partition (text : String) (names : Names) (modes : Nat → NameMode) :
    ∃ runs left, Shares text.toList (before ⟨.start text, names⟩ modes)
      (answer ⟨.start text, names⟩ modes) runs left := by
  obtain ⟨runs, left, hruns⟩ := (Cursor.start text).exists_runs
  refine ⟨runs, left, hruns.flatten, hruns.length_le, fun k hk ↦ ?_, fun k run hrun ↦ ?_, ?_⟩
  · rw [cursor_before]
    exact hruns.rest_following hk
  · obtain ⟨gap, written, rfl, hgap, hspells⟩ := hruns.call_following hrun
    rw [cursor_before]
    exact ⟨List.append_ne_nil_of_right_ne_nil gap hspells.ne_nil, gap, written, _, _, rfl, hgap,
      answer_eq .., hspells⟩
  · obtain ⟨hgap, position, hposition⟩ := hruns.finish_following
    refine ⟨hgap, position, fun k hk ↦ ?_⟩
    obtain ⟨hfinish, hrest⟩ := hposition k hk
    rw [answer_eq, cursor_before, hfinish]
    exact ⟨rfl, hrest⟩

end Scanner

end Breadboard.Description
