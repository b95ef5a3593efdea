import Breadboard.Proofs.Description.Completion
import Breadboard.Proofs.Description.Layout

/-!
# Nothing is built before the devices

Up to the first heading of a text there is nothing but complaints, and a first heading that is not
`devices` is where reading stops. So a text that does not begin its sections with `devices`, and one
without any section, is refused, and leaves the devices, the connections and the monitors as they
were, whatever else is written in it (`unbuilt_without_devices`). A step towards a heading does not
pass one (`Reader.Unheaded`); from that, by induction on the sections of a description, comes what
is left of a whole run (`Builder.unbuilt_parse`, `Builder.entered_parse`).
-/

set_option autoImplicit false
set_option relaxedAutoImplicit false

namespace Breadboard.Description

open Text (Position)

/-- The first heading of a text. -/
def firstHeading? (text : String) : Option Heading :=
  (readingsOf text).findSome? Reading.heading?

namespace Builder

variable {b c : Builder}

theorem fileAll_eq (b : Builder) (faults : List Fault) (position : Position) :
    b.fileAll faults position = { b with reader := (b.fileAll faults position).reader } := by
  rw [fileAll]
  induction faults generalizing b with
  | nil => rfl
  | cons fault faults ih => exact ih (b.file fault position)

/-- A description was refused, and nothing has come of it: no section was entered, and there are the
devices, connections and monitors that there were. -/
structure Unbuilt (b c : Builder) : Prop where
  refused : c.inOrder = false
  unentered : c.seen = b.seen
  network : c.network = b.network
  monitors : c.monitors = b.monitors

theorem inOrder_eq_false_iff : b.inOrder = false ↔ b.reader.log ≠ [] := by
  rw [inOrder, Bool.eq_false_iff, ne_eq, List.isEmpty_iff]

/-- Where no section was entered, the end of the text is refused. -/
theorem unbuilt_missing (hseen : b.seen = []) (position : Position) :
    b.Unbuilt (b.fileAll b.missing position) where
  refused := by
    have hmissing : b.missing ≠ [] := by
      rw [missing, hseen]
      exact List.cons_ne_nil _ _
    exact inOrder_eq_false_iff.mpr fun hlog ↦ hmissing (log_fileAll_eq_nil hlog).2
  unentered := by rw [fileAll_eq]
  network := by rw [fileAll_eq]
  monitors := by rw [fileAll_eq]

variable {readings : List Reading}

/-- The heading that a builder comes to first is the first of all. -/
theorem findSome?_eq_of_unheaded {heading : Heading}
    (h : b.reader.Unheaded readings) (hend : b.reader.atEnd ≠ true)
    (hheading : b.reader.current.lexeme.heading? = some heading) :
    readings.findSome? Reading.heading? = some heading := by
  obtain ⟨passed, hreadings, hpassed⟩ := h
  rw [Reader.ahead, if_neg hend] at hreadings
  have hcurrent : Reading.heading? (.token b.reader.current) = some heading := hheading
  rw [hreadings, List.findSome?_append, hpassed, List.findSome?_cons, hcurrent]
  rfl

/-- A builder in front of the first heading builds nothing, unless that heading is `devices`. -/
theorem unbuilt_parse
    (hproper : ∀ token, .token token ∈ readings → token.Proper)
    (hfirst : readings.findSome? Reading.heading? ≠ some .devices) (hseen : b.seen = [])
    (h : b.reader.Unheaded readings) : b.Unbuilt b.parse := by
  induction b using induction_parse with
  | ended b hend => exact parse_ended hend ▸ unbuilt_missing hseen _
  | beforeDevices b hend heading hheading hearly =>
    rw [parse_beforeDevices hend hheading hearly]
    exact ⟨inOrder_eq_false_iff.mpr (log_file_ne _ _ _), rfl, rfl, rfl⟩
  | heading b hend heading hheading hdue _ =>
    -- a section would be entered here, so the first heading is `devices`
    have hdevices : heading = .devices := by
      by_contra hne
      exact hdue ⟨hne, by simp [hseen]⟩
    exact absurd (hdevices ▸ findSome?_eq_of_unheaded h hend hheading) hfirst
  | stray b hend hheading ih =>
    rw [parse_stray hend hheading]
    have hskipped := ih hseen (h.skipTo (r := b.reader.unexpected .heading) hproper)
    exact ⟨hskipped.refused, hskipped.unentered, hskipped.network, hskipped.monitors⟩

/-- A section that was entered stays so. -/
theorem devices_mem_seen_parse (h : .devices ∈ b.seen) : .devices ∈ b.parse.seen := by
  induction b using induction_parse with
  | ended b hend =>
    rw [parse_ended hend, seen_fileAll]
    exact h
  | beforeDevices b hend heading hheading hearly =>
    rw [parse_beforeDevices hend hheading hearly]
    exact h
  | heading b hend heading hheading hdue ih =>
    rw [parse_heading hend hheading hdue]
    refine ih ?_
    rw [seen_parseSection]
    exact seen_subset_note b heading h
  | stray b hend hheading ih =>
    rw [parse_stray hend hheading]
    exact ih h

/-- A builder in front of a first heading that is `devices` enters that section. -/
theorem entered_parse (hproper : ∀ token, .token token ∈ readings → token.Proper)
    (hfirst : readings.findSome? Reading.heading? = some .devices)
    (h : b.reader.Unheaded readings) : .devices ∈ b.parse.seen := by
  induction b using induction_parse with
  | ended b hend =>
    obtain ⟨passed, hreadings, hpassed⟩ := h
    rw [Reader.ahead, if_pos hend, List.append_nil] at hreadings
    rw [hreadings, hpassed] at hfirst
    cases hfirst
  | beforeDevices b hend heading hheading hdue =>
    have hheading := (findSome?_eq_of_unheaded h hend hheading).symm.trans hfirst
    exact absurd (Option.some_inj.mp hheading) hdue.1
  | heading b hend heading hheading hdue _ =>
    have hdevices := (findSome?_eq_of_unheaded h hend hheading).symm.trans hfirst
    rw [parse_heading hend hheading hdue]
    refine devices_mem_seen_parse ?_
    rw [seen_parseSection, ← Option.some_inj.mp hdevices]
    exact mem_seen_note b heading
  | stray b hend hheading ih =>
    rw [parse_stray hend hheading]
    exact ih (h.skipTo (r := b.reader.unexpected .heading) hproper)

end Builder

/-- Sections are entered exactly in a text whose first heading is `devices`. A text with another
first heading, or with no heading at all, is refused, and nothing comes of it: whatever the tables
hold at the start, and whatever stands before, between and after the headings, the devices, the
connections and the monitors are left exactly as they were. -/
theorem unbuilt_without_devices (names : Names) (network : Network) (monitors : Monitors)
    (text : String) :
    let b := (Builder.start names network monitors text).parse
    (.devices ∈ b.seen ↔ firstHeading? text = some .devices) ∧
      (firstHeading? text ≠ some .devices →
        b.inOrder = false ∧ b.seen = [] ∧ b.network = network ∧ b.monitors = monitors) := by
  have hproper (token : Token) : .token token ∈ readingsOf text → token.Proper :=
    Cursor.proper_of_mem_readings _
  have hstart : (Builder.start names network monitors text).reader.Unheaded (readingsOf text) :=
    Reader.unheaded_pull [] hproper rfl rfl
  have hunbuilt (hfirst : firstHeading? text ≠ some .devices) :=
    Builder.unbuilt_parse hproper hfirst rfl hstart
  refine ⟨⟨fun hseen ↦ by_contra fun hfirst ↦ ?_, (Builder.entered_parse hproper · hstart)⟩,
    fun hfirst ↦ ?_⟩
  · rw [(hunbuilt hfirst).unentered] at hseen
    cases hseen
  · obtain ⟨hrefused, hunentered, hnetwork, hmonitors⟩ := hunbuilt hfirst
    exact ⟨hrefused, hunentered, hnetwork, hmonitors⟩

/-- A switch described behind a section that comes too early, among symbols that belong nowhere. -/
def switchTooLate : String :=
  "@ ; \x7d x connections\x7b\x7d devices\x7b S is SWITCH; \x7d connections\x7b\x7d"

theorem switch_too_late :
    firstHeading? switchTooLate ≠ some .devices ∧
    (let (names, network) := Circuit.blank {} {}
      let b := (Builder.start names network {} switchTooLate).parse
      b.inOrder = false ∧ b.seen = [] ∧ b.network = network ∧ b.monitors = {}) := by
  have hfirst : firstHeading? switchTooLate ≠ some .devices := by decide +kernel
  exact ⟨hfirst, (unbuilt_without_devices _ _ _ _).2 hfirst⟩

end Breadboard.Description
