import Breadboard.Description.Reader
import Breadboard.Proofs.Description.Identifiers

/-!
# Where readings stand in a text

A text is cut into pieces from the front, and a place between two pieces is a cut (`Cut`). Whatever
is read off a text is placed in front of a piece that is not skipped (`placed_of_mem_readings`), and
the end is the position after the whole text (`readings_finish`).
-/

set_option autoImplicit false
set_option relaxedAutoImplicit false

namespace Breadboard.Description

open Text (Position)

variable {text before rest : List Char} {c : Char}

/-! ### Cuts -/

/-- A text, cut between two of its pieces. -/
inductive Cut (text : List Char) : List Char → List Char → Prop
  | start : Cut text [] text
  | piece {before rest : List Char} {c : Char} : Cut text before (c :: rest) →
    Cut text (before ++ (Piece.cut c rest).text) (Piece.cut c rest).rest

/-- Nothing is lost at a cut. -/
theorem Cut.append (h : Cut text before rest) : text = before ++ rest := by
  induction h with
  | start => rfl
  | piece _ ih => rw [List.append_assoc, Piece.cut_append, ih]

/-- A place in front of a piece that is not skipped, or at the end of the text. -/
inductive Placed (text : List Char) (position : Position) : Prop
  | piece {before rest : List Char} {c : Char} : Cut text before (c :: rest) →
    (Piece.cut c rest).role ≠ .skipped → position = ({} : Position).afterAll before →
    Placed text position
  | finish : position = ({} : Position).afterAll text → Placed text position

/-! ### Readings -/

/-- Where a reading starts. -/
def Reading.position : Reading → Position
  | token found => found.position
  | fault _ position => position

namespace Cursor

/-- A cursor that stands at a cut of a text, at the position of this cut. -/
def At (text : List Char) (cursor : Cursor) : Prop :=
  ∃ before, Cut text before cursor.rest ∧ cursor.position = ({} : Position).afterAll before

variable {cursor : Cursor}

theorem at_start (text : String) : (start text).At text.toList :=
  ⟨[], .start, rfl⟩

theorem At.past (h : cursor.At text) (hrest : cursor.rest = c :: rest) :
    (cursor.past (Piece.cut c rest)).At text := by
  obtain ⟨before, hcut, hposition⟩ := h
  rw [hrest] at hcut
  refine ⟨before ++ (Piece.cut c rest).text, hcut.piece, ?_⟩
  rw [Position.afterAll_append, ← hposition]
  rfl

theorem At.placed (h : cursor.At text) (hrest : cursor.rest = c :: rest)
    (hrole : (Piece.cut c rest).role ≠ .skipped) : Placed text cursor.position := by
  obtain ⟨before, hcut, hposition⟩ := h
  rw [hrest] at hcut
  exact .piece hcut hrole hposition

theorem At.finish (h : cursor.At text) (hrest : cursor.rest = []) :
    cursor.position = ({} : Position).afterAll text := by
  obtain ⟨before, hcut, hposition⟩ := h
  rw [hcut.append, hrest, List.append_nil]
  exact hposition

theorem At.next (h : cursor.At text) :
    Placed text cursor.next.1.position ∧ cursor.next.2.At text := by
  fun_induction Cursor.next cursor with
  | case1 cursor hrest => exact ⟨.finish (h.finish hrest), h⟩
  | case2 cursor c rest hrest piece hrole ih => exact ih (h.past hrest)
  | case3 cursor c rest hrest piece lexeme hrole =>
    exact ⟨h.placed hrest (hrole ▸ Role.noConfusion), h.past hrest⟩
  | case4 cursor c rest hrest piece fault hrole =>
    exact ⟨h.placed hrest (hrole ▸ Role.noConfusion), h.past hrest⟩

/-- The end is read where the text ends. -/
theorem rest_of_next_eq_finish (h : cursor.next.1 = .token (.finish cursor.next.2.position)) :
    cursor.next.2.rest = [] := by
  fun_induction Cursor.next cursor with
  | case1 cursor hrest => exact hrest
  | case2 cursor c rest hrest piece hrole ih => exact ih h
  | case3 cursor c rest hrest piece lexeme hrole =>
    have hproper := Piece.proper_of_cut rfl hrole cursor.position
    exact absurd (congrArg Token.lexeme (Reading.token.inj h)) hproper.inside
  | case4 => cases h

/-- Whatever is read off a text is placed in it. -/
theorem At.placed_of_mem_readings (h : cursor.At text) {reading : Reading}
    (hreading : reading ∈ cursor.readings.1) : Placed text reading.position := by
  fun_induction Cursor.readings cursor with
  | case1 => cases hreading
  | case2 cursor step hend more finish hreadings ih =>
    rw [hreadings] at ih
    rcases List.mem_cons.mp hreading with rfl | hmore
    · exact h.next.1
    · exact ih h.next.2 hmore

theorem At.readings_finish (h : cursor.At text) :
    cursor.readings.2 = ({} : Position).afterAll text := by
  fun_induction Cursor.readings cursor with
  | case1 cursor step hend => exact h.next.2.finish (rest_of_next_eq_finish hend)
  | case2 cursor step hend more finish hreadings ih =>
    rw [hreadings] at ih
    exact ih h.next.2

end Cursor

theorem placed_of_mem_readings {text : String} {reading : Reading}
    (h : reading ∈ (Cursor.start text).readings.1) : Placed text.toList reading.position :=
  (Cursor.at_start text).placed_of_mem_readings h

theorem readings_finish (text : String) :
    (Cursor.start text).readings.2 = ({} : Position).afterAll text.toList :=
  (Cursor.at_start text).readings_finish

/-- A piece that is not skipped starts with no blank. -/
theorem not_isBlank_of_role (h : (Piece.cut c rest).role ≠ .skipped) : Text.isBlank c = false := by
  refine Bool.eq_false_iff.mpr fun hblank ↦ h ?_
  unfold Piece.cut
  rw [if_pos hblank]

end Breadboard.Description
