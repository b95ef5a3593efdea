import Breadboard.Description.Fault

/-!
# The reader

A reader stands on a token of a description and holds what follows it, the name table, and the
reports filed so far. Moving on takes the next token, files the faults in front of it, and resolves
a name that it comes to under the mode in force: while names are declared, it is added to the table.

All that reading does is moving on, filing reports and resolving names (`Reaches`). It never moves
back: a reader that was reached either has less to read or stands where it stood
(`Reaches.unread_lt_or_eq`).
-/

set_option autoImplicit false
set_option relaxedAutoImplicit false

namespace Breadboard.Description

open Text (Position)

/-- What skipping can stop at. The end of the text always stops it. -/
inductive Anchor
  | semicolon
  | closeBrace
  | heading
  | endOfText
deriving DecidableEq

/-- Whether a token is an anchor. -/
def Anchor.isAt : Anchor → Lexeme → Bool
  | .semicolon, .semicolon | .closeBrace, .closeBrace | .heading, .heading _
  | .endOfText, .endOfText => true
  | _, _ => false

/-- A place among the tokens of a description, and what has come of reading up to it. -/
structure Reader where
  names : Names
  mode : NameMode := .declare
  current : Token
  rest : List Reading
  finish : Position
  log : List Report := []
deriving DecidableEq

namespace Reader

/-- The reader with one more report. -/
def file (r : Reader) (fault : Fault) (position : Position) : Reader :=
  { r with log := r.log ++ [⟨fault, position⟩] }

/-- The reader with a report that something else should stand here. -/
def unexpected (r : Reader) (what : Expectation) : Reader :=
  let found := if r.current.lexeme = .endOfText then none else some r.current.text
  r.file (.expected what found) r.current.position

/-- The reader standing on a given token. -/
def standOn (r : Reader) (token : Token) : Reader :=
  { r with
    current := token
    names := if token.lexeme = .name then (r.names.resolve r.mode token.text).2 else r.names }

/-- The reader moved to the first token of what follows. -/
def pull (r : Reader) : List Reading → Reader
  | [] => { r.standOn (.finish r.finish) with rest := [] }
  | .token token :: rest => { r.standOn token with rest }
  | .fault fault position :: rest => (r.file (.lexical fault) position).pull rest

/-- Whether the text is read to its end. -/
def atEnd (r : Reader) : Bool :=
  r.current.lexeme == .endOfText

/-- The reader moved to the next token. At the end it stays. -/
def advance (r : Reader) : Reader :=
  if r.atEnd then r else r.pull r.rest

/-- A reader on the first of some readings, before the end at a given place. -/
def ofReadings (names : Names) (readings : List Reading) (finish : Position) : Reader :=
  ({ names, current := .finish finish, rest := [], finish } : Reader).pull readings

/-- A reader on the first token of a text. -/
def start (names : Names) (text : String) : Reader :=
  let (readings, finish) := (Cursor.start text).readings
  ofReadings names readings finish

/-- The tokens and faults still to come, and the end. -/
def unread (r : Reader) : Nat :=
  r.rest.length + (!r.atEnd).toNat

/-- What reading can do to a reader. -/
inductive Reaches (r : Reader) : Reader → Prop
  | refl : Reaches r r
  | advance {s : Reader} : Reaches r s → Reaches r s.advance
  | file {s : Reader} (fault : Fault) (position : Position) :
    Reaches r s → Reaches r (s.file fault position)
  | resolve {s : Reader} (list : List String) :
    Reaches r s → Reaches r { s with names := (s.names.resolveAll s.mode list).2 }

theorem Reaches.trans {r s t : Reader} (hrs : r.Reaches s) (hst : s.Reaches t) : r.Reaches t := by
  induction hst with
  | refl => exact hrs
  | advance _ ih => exact ih.advance
  | file fault position _ ih => exact ih.file fault position
  | resolve list _ ih => exact ih.resolve list

theorem unread_pull_le (r : Reader) (rest : List Reading) :
    (r.pull rest).unread ≤ rest.length := by
  fun_induction pull r rest with
  | case1 r => exact Nat.le_refl _
  | case2 r token rest => exact Nat.add_le_add_left (Bool.toNat_le _) _
  | case3 r fault position rest ih => simp only [List.length_cons]; omega

theorem unread_advance_lt {r : Reader} (h : r.atEnd = false) : r.advance.unread < r.unread := by
  have := unread_pull_le r r.rest
  simp only [advance, unread, h, Bool.not_false, Bool.toNat_true, Bool.false_eq_true, if_false]
    at this ⊢
  omega

theorem unread_advance_le (r : Reader) : r.advance.unread ≤ r.unread := by
  cases h : r.atEnd
  · exact Nat.le_of_lt (unread_advance_lt h)
  · simp [advance, h]

@[simp]
theorem unread_file (r : Reader) (fault : Fault) (position : Position) :
    (r.file fault position).unread = r.unread := rfl

theorem log_extends_pull (r : Reader) (rest : List Reading) : r.log <+: (r.pull rest).log := by
  fun_induction pull r rest with
  | case1 | case2 => exact List.prefix_rfl
  | case3 r fault position rest ih => exact (List.prefix_append ..).trans ih

/-- Nothing that was filed is taken back. -/
theorem Reaches.log_extends {r s : Reader} (h : r.Reaches s) : r.log <+: s.log := by
  induction h with
  | refl => exact List.prefix_rfl
  | @advance s _ ih =>
    refine ih.trans ?_
    unfold Reader.advance
    split
    · exact List.prefix_rfl
    · exact log_extends_pull s s.rest
  | file _ _ _ ih => exact ih.trans (List.prefix_append ..)
  | resolve _ _ ih => exact ih

/-- What is unread depends on where the reader stands alone. -/
theorem unread_eq {r s : Reader} (hcurrent : s.current = r.current) (hrest : s.rest = r.rest) :
    s.unread = r.unread := by
  rw [unread, unread, atEnd, atEnd, hcurrent, hrest]

/-- A reader that was reached has less to read or stands where it stood. -/
theorem Reaches.unread_lt_or_eq {r s : Reader} (h : r.Reaches s) :
    s.unread < r.unread ∨ s.current = r.current ∧ s.rest = r.rest := by
  induction h with
  | refl => exact .inr ⟨rfl, rfl⟩
  | @advance s _ ih =>
    rcases ih with hlt | ⟨hcurrent, hrest⟩
    · exact .inl (Nat.lt_of_le_of_lt (unread_advance_le s) hlt)
    · cases hs : s.atEnd
      · exact .inl (unread_eq hcurrent hrest ▸ unread_advance_lt hs)
      · exact .inr (by simp [Reader.advance, hs, hcurrent, hrest])
  | file => assumption
  | resolve => assumption

theorem Reaches.unread_le {r s : Reader} (h : r.Reaches s) : s.unread ≤ r.unread := by
  rcases h.unread_lt_or_eq with hlt | ⟨hcurrent, hrest⟩
  · exact Nat.le_of_lt hlt
  · exact Nat.le_of_eq (unread_eq hcurrent hrest)

/-- The reader moved on to the first token that is an anchor, or to the end. -/
def skipTo (r : Reader) (anchors : List Anchor) : Reader :=
  if _h : r.atEnd = true ∨ anchors.any (·.isAt r.current.lexeme) = true then r
  else r.advance.skipTo anchors
termination_by r.unread
decreasing_by exact unread_advance_lt (by simpa using fun h ↦ _h (.inl h))

theorem reaches_skipTo (r : Reader) (anchors : List Anchor) : r.Reaches (r.skipTo anchors) := by
  fun_induction skipTo r anchors with
  | case1 => exact .refl
  | case2 r _ ih => exact (Reaches.refl.advance).trans ih

/-- Off every anchor there is something to skip. -/
theorem unread_skipTo_lt {r : Reader} {anchors : List Anchor} (hend : r.atEnd = false)
    (hanchors : anchors.any (·.isAt r.current.lexeme) = false) :
    (r.skipTo anchors).unread < r.unread := by
  rw [skipTo, dif_neg (by simp [hend, hanchors])]
  exact Nat.lt_of_le_of_lt (reaches_skipTo ..).unread_le (unread_advance_lt hend)

/-- Whether the end of a section, or of the text, is reached. -/
def atSectionEnd (r : Reader) : Bool :=
  match r.current.lexeme with
  | .closeBrace | .heading _ | .endOfText => true
  | _ => false

theorem atEnd_of_atSectionEnd {r : Reader} (h : r.atSectionEnd = false) : r.atEnd = false := by
  cases hl : r.current.lexeme <;> simp [atSectionEnd, atEnd, hl] at h ⊢

/-- The reader moved past a semicolon, if it stands on one. -/
def passSemicolon (r : Reader) : Reader :=
  if r.current.lexeme = .semicolon then r.advance else r

theorem reaches_passSemicolon (r : Reader) : r.Reaches r.passSemicolon := by
  unfold passSemicolon
  split
  · exact Reaches.refl.advance
  · exact .refl

/-- The reader moved past the statement that it is in: past the next semicolon, unless the section
ends first. -/
def skipStatement (r : Reader) : Reader :=
  (r.skipTo [.semicolon, .closeBrace, .heading]).passSemicolon

theorem reaches_skipStatement (r : Reader) : r.Reaches r.skipStatement :=
  (reaches_skipTo ..).trans (reaches_passSemicolon _)

/-- Short of the end of a section there is something to skip. -/
theorem unread_skipStatement_lt {r : Reader} (h : r.atSectionEnd = false) :
    r.skipStatement.unread < r.unread := by
  have hend := atEnd_of_atSectionEnd h
  unfold skipStatement
  by_cases hsemicolon : r.current.lexeme = .semicolon
  · rw [skipTo, dif_pos (by simp [hsemicolon, Anchor.isAt])]
    simpa [passSemicolon, hsemicolon] using unread_advance_lt hend
  · refine Nat.lt_of_le_of_lt (reaches_passSemicolon _).unread_le (unread_skipTo_lt hend ?_)
    cases hl : r.current.lexeme <;>
      simp [atSectionEnd, Anchor.isAt, hl] at h hsemicolon ⊢

/-- Nor is there less to skip for having read on. -/
theorem Reaches.unread_skipStatement_lt {r s : Reader} (hrs : r.Reaches s)
    (h : r.atSectionEnd = false) : s.skipStatement.unread < r.unread := by
  rcases hrs.unread_lt_or_eq with hlt | ⟨hcurrent, hrest⟩
  · exact Nat.lt_of_le_of_lt s.reaches_skipStatement.unread_le hlt
  · have hs : s.atSectionEnd = false := by rw [atSectionEnd, hcurrent, ← atSectionEnd, h]
    exact unread_eq hcurrent hrest ▸ Reader.unread_skipStatement_lt hs

end Reader

end Breadboard.Description
