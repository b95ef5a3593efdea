import Breadboard.Proofs.Description.Atomicity
import Breadboard.Proofs.Description.Completion

/-!
# Statements that reading comes to

While a description is read, its reader comes to the statements of a section one after another: to
the first behind the brace of the section, and to the next where one of them was carried out or
skipped (`Builder.Arrives`). What is left to do from there on is the rest of the section and the
rest of the description (`Builder.parse_of_arrives`), and there was a `devices` section before
(`Builder.devices_seen_of_arrives`). In a text read over names that are identifiers, the reader is
legible wherever it comes to a statement, whatever is wrong before (`Builder.legible_of_arrives`).
-/

set_option autoImplicit false
set_option relaxedAutoImplicit false

namespace Breadboard.Description

variable {r : Reader} {b c : Builder} {heading : Heading}

/-! ### Sections that were opened -/

theorem cleared_note (b : Builder) (heading : Heading) :
    (b.note heading).reader.cleared = b.reader.cleared := by
  rw [Builder.note]
  split <;> rfl

/-- Whether a heading was there before makes no difference to what is come to behind it. -/
theorem cleared_advance_note (b : Builder) (heading : Heading) :
    (b.note heading).reader.advance.cleared = b.reader.advance.cleared := by
  rw [← Reader.advance_cleared, cleared_note, Reader.advance_cleared]

theorem lexeme_advance_note (b : Builder) (heading : Heading) :
    (b.note heading).reader.advance.current.lexeme = b.reader.advance.current.lexeme :=
  congrArg Token.lexeme (Reader.eq_of_cleared_eq (cleared_advance_note b heading)).2.2

theorem parseSection_eq_close (hbrace : b.reader.advance.current.lexeme = .openBrace) :
    b.parseSection heading = ((opened b heading).body heading).close heading :=
  (Builder.parseSection_eq b heading).trans (if_pos ((lexeme_advance_note b heading).trans hbrace))

theorem atSectionEnd_untilSectionEnd {step : Builder → Builder}
    (progress : ∀ b : Builder, b.reader.atSectionEnd = false →
      (step b).reader.unread < b.reader.unread) (b : Builder) :
    (b.untilSectionEnd step progress).reader.atSectionEnd = true := by
  induction b using Builder.induction_untilSectionEnd progress with
  | stop b hend =>
    rw [Builder.untilSectionEnd_of_end hend]
    exact hend
  | next b hinside ih =>
    rw [Builder.untilSectionEnd_of_inside hinside]
    exact ih

/-- The statements of a section are taken turn by turn. -/
theorem body_eq_untilSectionEnd (heading : Heading) : ∃ progress, ∀ b : Builder,
    b.body heading = b.untilSectionEnd (Builder.bodyTurn heading) progress := by
  cases heading <;> exact ⟨_, fun b ↦ b.body_eq _⟩

theorem atSectionEnd_body (b : Builder) (heading : Heading) :
    (b.body heading).reader.atSectionEnd = true := by
  obtain ⟨progress, hbody⟩ := body_eq_untilSectionEnd heading
  rw [hbody]
  exact atSectionEnd_untilSectionEnd progress b

/-! ### Coming to a statement -/

namespace Builder

/-- While a description is read, there comes a statement of a section: behind the brace that opens
the section, or behind another statement of it, where the section is not over. -/
inductive Arrives (heading : Heading) : Builder → Builder → Prop
  | opening {b : Builder} : b.isOver = false → b.reader.current.lexeme = .heading heading →
    b.reader.advance.current.lexeme = .openBrace →
    (opened b heading).reader.atSectionEnd = false → Arrives heading b (opened b heading)
  | statement {b c : Builder} : Arrives heading b c →
    (bodyTurn heading c).reader.atSectionEnd = false → Arrives heading b (bodyTurn heading c)
  | turn {b c : Builder} : b.isOver = false → Arrives heading b.turn c → Arrives heading b c

theorem body_eq_bodyTurn (h : c.reader.atSectionEnd = false) :
    c.body heading = (bodyTurn heading c).body heading := by
  obtain ⟨progress, hbody⟩ := body_eq_untilSectionEnd heading
  rw [hbody, hbody, untilSectionEnd_of_inside h]

theorem atSectionEnd_of_arrives (h : Arrives heading b c) : c.reader.atSectionEnd = false := by
  induction h with
  | opening _ _ _ hmore => exact hmore
  | statement _ hmore _ => exact hmore
  | turn _ _ ih => exact ih

/-- From a statement on there is the rest of its section to do, and the rest of the description. -/
theorem parse_of_arrives (h : Arrives heading b c) :
    b.parse = ((c.body heading).close heading).parse := by
  induction h with
  | @opening b hturn hheading hbrace _ =>
    rw [parse_turn hturn, turn, hheading, ← parseSection_eq_close hbrace]
    rfl
  | @statement b c h _ ih => rw [ih, body_eq_bodyTurn (atSectionEnd_of_arrives h)]
  | turn hturn _ ih => rw [parse_turn hturn, ih]

theorem reaches_bodyTurn (heading : Heading) (b : Builder) :
    b.reader.Reaches (bodyTurn heading b).reader := by
  cases heading with
  | devices | init => exact reaches_statement reaches_declareAll b
  | connections => exact reaches_statement reaches_blockFor b
  | monitor => exact reaches_statement reaches_watchAll b

/-! ### What was seen before -/

theorem stays_bodyTurn {seen : List Heading} (h : Stays seen (fun _ ↦ True) c) :
    Stays seen (fun _ ↦ True) (bodyTurn heading c) := by
  cases heading with
  | devices | init =>
    exact h.statement fun b _ _ statement _ hb ↦ hb.declareAll fun _ _ _ _ ↦ id
  | connections =>
    exact h.statement fun b _ _ header _ hb ↦ hb.blockFor (fun _ _ _ _ _ _ ↦ id) header
  | monitor => exact h.statement fun b _ _ outputs _ hb ↦ hb.watchAll outputs

theorem devices_seen_of_arrives (h : Arrives heading b c) : .devices ∈ c.seen := by
  induction h with
  | @opening b hturn hheading _ _ =>
    have hseen : .devices ∈ (b.note heading).seen := by
      obtain ⟨-, hdue⟩ := Bool.or_eq_false_iff.mp hturn
      rw [hheading] at hdue
      by_cases hdevices : heading = .devices
      · exact hdevices ▸ mem_seen_note b heading
      · refine seen_subset_note b heading (by_contra fun hunseen ↦ ?_)
        have hearly : (Lexeme.heading heading).heading?.any
            (fun heading ↦ heading ≠ .devices ∧ .devices ∉ b.seen) = true := by
          simp [Lexeme.heading?, hdevices, hunseen]
        rw [hearly] at hdue
        cases hdue
    exact hseen
  | @statement b c _ _ ih =>
    have hstays : Stays c.seen (fun _ ↦ True) c := ⟨rfl, trivial⟩
    rw [(stays_bodyTurn hstays).passed]
    exact ih
  | turn _ _ ih => exact ih

/-- A description in which reading comes to a statement is read to its end. -/
theorem atEnd_parse_of_arrives (h : Arrives heading b c) : b.parse.reader.atEnd = true := by
  induction h with
  | @opening b hturn hheading hbrace hmore =>
    have hseen : .devices ∈ (opened b heading).seen :=
      devices_seen_of_arrives (.opening hturn hheading hbrace hmore)
    have hsection : .devices ∈ (b.parseSection heading).seen := by
      rw [seen_parseSection]
      exact hseen
    rw [parse_turn hturn, turn, hheading]
    exact atEnd_parse hsection
  | statement _ _ ih => exact ih
  | turn hturn _ ih =>
    rw [parse_turn hturn]
    exact ih

end Builder

/-! ### What lasts up to a statement -/

section Lasting

variable {p : Reader → Prop} (hp : Reader.Lasting p)

include hp

theorem Reader.Lasting.opened (hb : p b.reader) : p (opened b heading).reader :=
  hp.advance (hp.inMode _ (hp.advance (hp.note heading hb)))

theorem Reader.Lasting.turn (hb : p b.reader) : p b.turn.reader := by
  rw [Builder.turn]
  split
  · exact hp.parseSection (hp.note _ hb)
  · exact hp.reaches (Reader.reaches_skipTo _ _) (hp.file _ _ hb)

theorem Reader.Lasting.arrives (h : b.Arrives heading c) (hb : p b.reader) : p c.reader := by
  induction h with
  | opening => exact hp.opened hb
  | statement _ _ ih => exact hp.reaches (Builder.reaches_bodyTurn heading _) (ih hb)
  | turn _ _ ih => exact ih (hp.turn hb)

end Lasting

/-! ### Readers that stay legible -/

namespace Reader

/-- Off a name the mode makes no difference. -/
theorem Legible.inMode (h : r.Legible) (hname : r.current.lexeme ≠ .name) (mode : NameMode) :
    ({ r with mode } : Reader).Legible :=
  have hready : r.cleared.Ready r.mode := h
  ⟨rfl, rfl, hready.names, hready.current, hready.rest, hready.finished,
    fun _ hlexeme ↦ absurd hlexeme hname⟩

theorem ne_name_of_atSectionEnd (h : r.atSectionEnd = true) : r.current.lexeme ≠ .name := by
  intro hname
  rw [atSectionEnd, hname] at h
  cases h

theorem Legible.skipBlock (h : r.Legible) : r.skipBlock.Legible := by
  rw [Reader.skipBlock]
  dsimp only
  split
  · split
    · exact (h.advance.advance.skipTo _).advance
    · exact h.advance.advance.skipTo _
  · exact h.advance

end Reader

namespace Builder

theorem legible_untilSectionEnd {step : Builder → Builder}
    (hstep : ∀ b : Builder, b.reader.Legible → (step b).reader.Legible)
    (progress : ∀ b : Builder, b.reader.atSectionEnd = false →
      (step b).reader.unread < b.reader.unread) (h : b.reader.Legible) :
    (b.untilSectionEnd step progress).reader.Legible := by
  induction b using induction_untilSectionEnd progress with
  | stop b hend =>
    rw [untilSectionEnd_of_end hend]
    exact h
  | next b hinside ih =>
    rw [untilSectionEnd_of_inside hinside]
    exact ih (hstep b h)

theorem legible_statement {σ : Type} {form : Attempt σ} {act : Builder → σ → Builder}
    (hform : form.Legibly)
    (hact : ∀ (b : Builder) s, b.reader.Legible → (act b s).reader.Legible)
    (h : b.reader.Legible) : (b.statement form act).reader.Legible := by
  have hread := hform b.reader h
  rw [statement_eq]
  rcases hrun : form.run b.reader with ⟨_ | s, r⟩ <;> rw [hrun] at hread
  · exact hread.skipStatement
  · exact hact { b with reader := r } s hread

theorem legible_blockFor (h : b.reader.Legible) (header : Token) :
    (b.blockFor header).reader.Legible := by
  rw [blockFor_eq]
  split
  · next block _ =>
    refine legible_statement Attempt.composes_legibly.blockOpening (fun b _ hb ↦ ?_) h
    rw [blockBody_eq]
    refine legible_statement (Attempt.composes_legibly.expect _ _) (fun _ _ ↦ id) ?_
    exact legible_untilSectionEnd (fun b ↦ legible_step (.connection block header.text)) _ hb
  · exact (h.file _ _).skipBlock

theorem legible_bodyTurn (heading : Heading) (h : c.reader.Legible) :
    (bodyTurn heading c).reader.Legible := by
  cases heading with
  | devices => exact legible_step (.devices false) h
  | init => exact legible_step (.devices true) h
  | connections =>
    exact legible_statement Attempt.composes_legibly.blockHeader
      (fun b header hb ↦ legible_blockFor hb header) h
  | monitor => exact legible_step .monitor h

theorem legible_body (heading : Heading) (h : b.reader.Legible) :
    (b.body heading).reader.Legible := by
  obtain ⟨progress, hbody⟩ := body_eq_untilSectionEnd heading
  rw [hbody]
  exact legible_untilSectionEnd (fun _ ↦ legible_bodyTurn heading) progress h

theorem legible_note (heading : Heading) (h : b.reader.Legible) :
    (b.note heading).reader.Legible :=
  h.of_cleared_eq (cleared_note b heading)

theorem legible_opened (h : b.reader.Legible)
    (hbrace : b.reader.advance.current.lexeme = .openBrace) :
    (opened b heading).reader.Legible := by
  have hadvanced := (legible_note heading h).advance
  refine (hadvanced.inMode ?_ (modeOf heading)).advance
  rw [lexeme_advance_note, hbrace]
  exact nofun

theorem legible_fileAll (h : b.reader.Legible) (faults : List Fault)
    (position : Text.Position) : (b.fileAll faults position).reader.Legible := by
  rw [fileAll]
  induction faults generalizing b with
  | nil => exact h
  | cons fault faults ih => exact ih (h.file fault position)

theorem legible_close (h : b.reader.Legible) (hover : b.reader.atSectionEnd = true) :
    (b.close heading).reader.Legible := by
  have hmode := h.inMode (Reader.ne_name_of_atSectionEnd hover) .declare
  rw [close_eq]
  refine legible_fileAll ?_ _ _
  rw [passEnd]
  split
  · exact hmode.advance
  · exact hmode.file _ _

theorem legible_turn (h : b.reader.Legible) : b.turn.reader.Legible := by
  rw [turn]
  split
  · next heading _ =>
    by_cases hbrace : b.reader.advance.current.lexeme = .openBrace
    · rw [parseSection_eq_close hbrace]
      exact legible_close (legible_body heading (legible_opened h hbrace)) (atSectionEnd_body _ _)
    · rw [parseSection_eq, if_neg ((lexeme_advance_note b heading).symm ▸ hbrace)]
      exact ((legible_note heading h).advance.file _ _).skipTo _
  · exact (h.file _ _).skipTo _

/-- The reader is legible wherever it comes to a statement. -/
theorem legible_of_arrives (h : Arrives heading b c) (hb : b.reader.Legible) :
    c.reader.Legible := by
  induction h with
  | opening _ _ hbrace _ => exact legible_opened hb hbrace
  | statement _ _ ih => exact legible_bodyTurn heading (ih hb)
  | turn _ _ ih => exact ih (legible_turn hb)

end Builder

end Breadboard.Description
