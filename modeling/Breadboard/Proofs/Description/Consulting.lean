import Breadboard.Proofs.Description.Arrival
import Breadboard.Proofs.Description.Tolerance

/-!
# Only `devices` declares names

In the other sections names are looked up and never added. The mode is in force before the first
symbol behind the opening brace is looked at (`consulting_opened`), and it stays in force, and the
table stays as it is, through whatever reading can do (`Reader.Reaches.names_of_query`). Between the
braces reading is all that is done. Behind the closing brace one symbol more is looked at, which may
be a new name again (`names_close_eq`). So a section other than `devices` leaves the table as it was
up to that symbol, and a name misspelt in it stays unknown (`section_consults`).
-/

set_option autoImplicit false
set_option relaxedAutoImplicit false

namespace Breadboard.Description

variable {b : Builder} {heading : Heading}

/-! ### Where a section opens -/

theorem modeOf_eq_query (h : heading ≠ .devices) : Builder.modeOf heading = .query := by
  cases heading with
  | devices => exact absurd rfl h
  | connections | monitor | init => rfl

/-- Behind the brace of a section other than `devices` names are only looked up, from the first
symbol on. -/
theorem consulting_opened (hdevices : heading ≠ .devices)
    (hbrace : b.reader.advance.current.lexeme = .openBrace) :
    (opened b heading).reader.names = b.reader.names ∧
      (opened b heading).reader.mode = .query := by
  obtain ⟨hnames, -, -⟩ := Reader.eq_of_cleared_eq (cleared_advance_note b heading)
  let inMode : Reader := { (b.note heading).reader.advance with mode := Builder.modeOf heading }
  have hread : inMode.Reaches (opened b heading).reader := Reader.Reaches.refl.advance
  obtain ⟨hopened, hmode⟩ := hread.names_of_query (modeOf_eq_query hdevices)
  refine ⟨?_, hmode⟩
  rw [hopened, ← Reader.names_advance_of_ne_name (r := b.reader) (hbrace ▸ nofun)]
  exact hnames

/-! ### Where a section ends -/

/-- While names are declared, moving on adds the name that is come to, and nothing else. -/
theorem Reader.names_advance_of_declare {r : Reader} (h : r.mode = .declare) :
    r.advance.names =
      if r.advance.current.lexeme = .name then (r.names.intern r.advance.current.text).2
      else r.names := by
  cases hend : r.atEnd with
  | true =>
    have hlexeme : r.current.lexeme = .endOfText := beq_iff_eq.mp hend
    rw [advance, if_pos hend, if_neg (hlexeme ▸ Lexeme.noConfusion)]
  | false =>
    rw [Ready.advance_eq_pull hend, names_pull, standOn, h]
    rfl

/-- Only behind a closing brace is a symbol looked at that may be a new name. -/
theorem names_close_eq (b : Builder) (heading : Heading) :
    (b.close heading).reader.names =
      if b.reader.current.lexeme = .closeBrace ∧
          (b.close heading).reader.current.lexeme = .name then
        (b.reader.names.intern (b.close heading).reader.current.text).2
      else b.reader.names := by
  rw [Builder.close_eq, (reader_fileAll ..).1, (reader_fileAll ..).2, Builder.passEnd]
  by_cases hbrace : b.reader.current.lexeme = .closeBrace
  · simp only [hbrace, true_and]
    exact Reader.names_advance_of_declare (r := (b.setMode .declare).reader) rfl
  · simp only [hbrace, false_and, if_false]
    rfl

/-! ### The section as a whole -/

/-- The builder where the statements of a section are over. -/
def concluded (b : Builder) (heading : Heading) : Builder :=
  (opened b heading).body heading

/-- A section that is read without a new name: every reader from behind its brace on, up to where
its statements are over, has the table that the builder had at the heading. The table that is left
behind is the same, but for the symbol behind the closing brace, so that no other name becomes
known. -/
structure Consults (b : Builder) (heading : Heading) : Prop where
  parsed : b.parse = (b.parseSection heading).parse
  section_eq : b.parseSection heading = (concluded b heading).close heading
  between : (opened b heading).reader.Reaches (concluded b heading).reader
  ended : (concluded b heading).reader.atSectionEnd = true
  kept : ∀ r, (opened b heading).reader.Reaches r →
    r.names = b.reader.names ∧ r.mode = .query
  behind : (b.parseSection heading).reader.names =
    if (concluded b heading).reader.current.lexeme = .closeBrace ∧
        (b.parseSection heading).reader.current.lexeme = .name then
      (b.reader.names.intern (b.parseSection heading).reader.current.text).2
    else b.reader.names
  unknown : ∀ name, ¬ b.reader.names.Has name →
    (b.parseSection heading).reader.names.Has name →
      (concluded b heading).reader.current.lexeme = .closeBrace ∧
        (b.parseSection heading).reader.current.symbol = .name name

/-- A section other than `devices` declares no names. This is so whatever is wrong in it and
wherever it ends, and whatever the tables hold; the symbol behind its closing brace alone may be a
new name.

Assumes: the reader stands on the heading of such a section, with a brace behind it, and a `devices`
section was there before. -/
theorem section_consults (hdevices : heading ≠ .devices)
    (hheading : b.reader.current.lexeme = .heading heading) (hseen : .devices ∈ b.seen)
    (hbrace : b.reader.advance.current.lexeme = .openBrace) : Consults b heading := by
  have hsection : b.parseSection heading = (concluded b heading).close heading :=
    parseSection_eq_close hbrace
  obtain ⟨hnames, hmode⟩ := consulting_opened hdevices hbrace
  have hreach := Builder.reaches_body heading (opened b heading)
  have hkept (r : Reader) (hr : (opened b heading).reader.Reaches r) :
      r.names = b.reader.names ∧ r.mode = .query := by
    obtain ⟨hread, hquery⟩ := hr.names_of_query hmode
    exact ⟨hread.trans hnames, hquery⟩
  have hover : (concluded b heading).reader.names = b.reader.names := (hkept _ hreach).1
  have hbehind : (b.parseSection heading).reader.names =
      if (concluded b heading).reader.current.lexeme = .closeBrace ∧
          (b.parseSection heading).reader.current.lexeme = .name then
        (b.reader.names.intern (b.parseSection heading).reader.current.text).2
      else b.reader.names := by
    rw [hsection, names_close_eq, hover]
  refine ⟨?_, hsection, hreach, atSectionEnd_body _ heading, hkept, hbehind, ?_⟩
  · have hturn : b.isOver = false := by
      rw [Builder.isOver, Reader.atEnd, hheading]
      simp [Lexeme.heading?, hseen]
    rw [Builder.parse_turn hturn, Builder.turn, hheading]
    rfl
  · intro name hunknown hknown
    rw [hbehind] at hknown
    split at hknown
    · next hclosed =>
      obtain ⟨hclose, hlexeme⟩ := hclosed
      obtain ⟨id, hid⟩ := hknown
      rcases Names.string?_of_intern hid with hold | ⟨-, -, rfl⟩
      · exact absurd ⟨id, hold⟩ hunknown
      · exact ⟨hclose, symbol_eq_name_iff.mpr ⟨hlexeme, rfl⟩⟩
    · exact absurd hknown hunknown

/-- A switch, and connections that name nothing that is there, with a name behind them. -/
def misspelt : String :=
  "devices \x7b S is SWITCH; \x7d connections \x7b T \x7b I1 = U; \x7d S => \x7d V"

/-- The builder behind the switch, on the heading of the connections. -/
def behindSwitch : Builder :=
  let (names, network) := Circuit.blank {} {}
  (Builder.start names network {} misspelt).parseSection .devices

theorem misspelt_consults :
    (.connections : Heading) ≠ .devices ∧
    behindSwitch.reader.current.lexeme = .heading .connections ∧ .devices ∈ behindSwitch.seen ∧
    behindSwitch.reader.advance.current.lexeme = .openBrace ∧
    Consults behindSwitch .connections := by
  have hdevices : (.connections : Heading) ≠ .devices := by decide
  have hheading : behindSwitch.reader.current.lexeme = .heading .connections := by decide +kernel
  have hseen : .devices ∈ behindSwitch.seen := by decide +kernel
  have hbrace : behindSwitch.reader.advance.current.lexeme = .openBrace := by decide +kernel
  exact ⟨hdevices, hheading, hseen, hbrace, section_consults hdevices hheading hseen hbrace⟩

end Breadboard.Description
