import Breadboard.Description.Builder

/-!
# Sections

A description has a `devices` section before any other, and a `connections` section; `monitor` and
`init` are for the asking. Names are declared in `devices`, and only looked up in the others. When
`devices` closes, every gate has inputs, and when `connections` closes, every input is driven; what
falls short of that is filed at the place where the section ends.

`parse` reads a whole description. It goes on after whatever is wrong, except that a section before
`devices` stops it. Nothing is filed exactly for a description in order.
-/

set_option autoImplicit false
set_option relaxedAutoImplicit false

namespace Breadboard.Description

open LawfulMonadAttach (canReturn_bind_imp')
open MonadAttach (CanReturn)
open Text (Position)

/-- The reader moved past a block that is for no device, from the name on. -/
def Reader.skipBlock (r : Reader) : Reader :=
  let s := r.advance
  if s.current.lexeme = .openBrace then
    let t := s.advance.skipTo [.closeBrace, .heading]
    if t.current.lexeme = .closeBrace then t.advance else t
  else s

theorem Reader.reaches_skipBlock (r : Reader) : r.Reaches r.skipBlock := by
  unfold skipBlock
  dsimp only
  split
  · split
    · exact (Reaches.refl.advance.advance.trans (reaches_skipTo ..)).advance
    · exact Reaches.refl.advance.advance.trans (reaches_skipTo ..)
  · exact Reaches.refl.advance

namespace Builder

section Operations

variable {m : Type → Type} [Fallback m] {σ : Type} [Store m σ]

/-- The connections of a block, and its end. -/
def blockBodyM (block : NameId) (blockName : String) (b : Builder σ) : m (Builder σ) := do
  let last ← untilSectionEndM (statementM (connection block blockName) (connectM block))
    (unread_statementM_lt (consumes_connection block blockName) (readsOn_connectM block)) b
  statementM blockEnd (fun b _ ↦ return b) last

/-- A block from the name of its device on. A block for no device is skipped. -/
def blockForM (b : Builder σ) (header : Token) : m (Builder σ) := do
  match ← b.deviceNamedM? header.text with
  | some block => b.statementM blockOpening fun b _ ↦ b.blockBodyM block header.text
  | none => return (b.file (.unknownDevice header.text) header.position).mapReader Reader.skipBlock

/-- A block of connections. -/
def blockM (b : Builder σ) : m (Builder σ) :=
  b.statementM blockHeader blockForM

theorem readsOn_blockBodyM (block : NameId) (blockName : String) (b : Builder σ) :
    b.ReadsOn (b.blockBodyM block blockName : m (Builder σ)) :=
  (readsOn_untilSectionEndM (readsOn_statementM (readsOn_connectM block)) _ b).bind
    (readsOn_statementM fun _ _ ↦ .pure .refl)

theorem readsOn_blockForM (b : Builder σ) (header : Token) :
    b.ReadsOn (b.blockForM header : m (Builder σ)) := by
  refine .after fun found ↦ ?_
  cases found with
  | some block => exact readsOn_statementM (fun b _ ↦ readsOn_blockBodyM _ _ b) b
  | none => exact .pure ((Reader.Reaches.file _ _ .refl).trans (Reader.reaches_skipBlock _))

/-- The statements of a section, from behind its opening brace to its end. -/
def bodyM : Heading → Builder σ → m (Builder σ)
  | .devices =>
    untilSectionEndM (statementM (deviceStatement false) declareAllM)
      (unread_statementM_lt (consumes_deviceStatement false) readsOn_declareAllM)
  | .init =>
    untilSectionEndM (statementM (deviceStatement true) declareAllM)
      (unread_statementM_lt (consumes_deviceStatement true) readsOn_declareAllM)
  | .connections =>
    untilSectionEndM blockM (unread_statementM_lt consumes_blockHeader readsOn_blockForM)
  | .monitor =>
    untilSectionEndM (statementM monitorStatement watchAllM)
      (unread_statementM_lt consumes_monitorStatement readsOn_watchAllM)

theorem readsOn_bodyM (heading : Heading) (b : Builder σ) :
    b.ReadsOn (b.bodyM heading : m (Builder σ)) := by
  cases heading with
  | devices | init =>
    exact readsOn_untilSectionEndM (readsOn_statementM readsOn_declareAllM) _ b
  | connections => exact readsOn_untilSectionEndM (readsOn_statementM readsOn_blockForM) _ b
  | monitor => exact readsOn_untilSectionEndM (readsOn_statementM readsOn_watchAllM) _ b

/-- What is still missing when a section closes. -/
def shortfallsM (b : Builder σ) : Heading → m (List Fault)
  | .devices => do
    (← Store.network b.network).devicesWithoutInputs.mapM fun id ↦ do
      return .withoutInputs (← b.reader.names.nameOfM id)
  | .connections => do
    (← Store.network b.network).unconnected.mapM fun (device, port) ↦ do
      return .unconnected (← b.reader.names.nameOfTerminalM ⟨device, some port⟩)
  | .monitor | .init => return []

/-- Several faults filed at one place. -/
def fileAll (b : Builder σ) (faults : List Fault) (position : Position) : Builder σ :=
  faults.foldl (fun b fault ↦ b.file fault position) b

/-- The builder with a mode in force. -/
def setMode (mode : NameMode) (b : Builder σ) : Builder σ :=
  b.mapReader fun r ↦ { r with mode }

/-- The mode under which the statements of a section are read. -/
def modeOf : Heading → NameMode
  | .devices => .declare
  | .connections | .monitor | .init => .query

/-- A heading is noted, or filed if it was there before. -/
def note (b : Builder σ) (heading : Heading) : Builder σ :=
  if heading ∈ b.seen then b.file (.duplicate heading) b.reader.current.position
  else { b with seen := b.seen ++ [heading] }

/-- The builder behind the end of a section, which may be missing. -/
def passEnd (b : Builder σ) : Builder σ :=
  let closing := b.reader.current
  let b := b.setMode .declare
  if closing.lexeme = .closeBrace then b.mapReader Reader.advance
  else b.mapReader (·.unexpected .sectionEnd)

/-- The end of a section, and the checks that are due there. -/
def closeM (b : Builder σ) (heading : Heading) : m (Builder σ) := do
  return b.passEnd.fileAll (← b.passEnd.shortfallsM heading) b.reader.current.position

/-- A section, from its heading on. -/
def parseSectionM (b : Builder σ) (heading : Heading) : m (Builder σ) :=
  let b := (b.note heading).mapReader Reader.advance
  if b.reader.current.lexeme = .openBrace then do
    let last ← ((b.setMode (modeOf heading)).mapReader Reader.advance).bodyM heading
    last.closeM heading
  else return b.mapReader fun r ↦ (r.unexpected .openBrace).skipTo [.heading]

/-- The sections that must be there and are not. -/
def missing (b : Builder σ) : List Fault :=
  ([.devices, .connections].filter (· ∉ b.seen)).map .missing

omit [Store m σ] in
theorem unread_fileAll (b : Builder σ) (faults : List Fault) (position : Position) :
    (b.fileAll faults position).reader.unread = b.reader.unread := by
  unfold fileAll
  induction faults generalizing b with
  | nil => rfl
  | cons fault faults ih => exact ih (b.file fault position)

theorem unread_closeM_le {b c : Builder σ} {heading : Heading}
    (h : CanReturn (b.closeM heading : m (Builder σ)) c) : c.reader.unread ≤ b.reader.unread := by
  obtain ⟨faults, -, h⟩ := canReturn_bind_imp' h
  rw [← LawfulMonadAttach.eq_of_canReturn_pure h, unread_fileAll]
  unfold passEnd
  dsimp only
  split
  · exact Reader.unread_advance_le _
  · exact Nat.le_refl _

/-- A section takes something away from what is unread, if nothing else then its heading. -/
theorem unread_parseSectionM_lt {b c : Builder σ} (h : b.reader.atEnd = false) {heading : Heading}
    (hc : CanReturn (b.parseSectionM heading : m (Builder σ)) c) :
    c.reader.unread < b.reader.unread := by
  have hnote : (b.note heading).reader.current = b.reader.current ∧
      (b.note heading).reader.rest = b.reader.rest := by
    unfold note
    split <;> exact ⟨rfl, rfl⟩
  have hend : (b.note heading).reader.atEnd = false := by
    rw [Reader.atEnd, hnote.1, ← Reader.atEnd, h]
  have hlt := Reader.unread_advance_lt hend
  rw [Reader.unread_eq hnote.1 hnote.2] at hlt
  refine Nat.lt_of_le_of_lt ?_ hlt
  unfold parseSectionM at hc
  dsimp only at hc
  split at hc
  · obtain ⟨last, hlast, hc⟩ := canReturn_bind_imp' hc
    exact Nat.le_trans (unread_closeM_le hc)
      (Nat.le_trans (readsOn_bodyM _ _ _ hlast).unread_le (Reader.unread_advance_le _))
  · rw [← LawfulMonadAttach.eq_of_canReturn_pure hc]
    exact ((Reader.Reaches.file _ _ .refl).trans (Reader.reaches_skipTo _ _)).unread_le

omit [Store m σ] in
theorem unread_skipToHeading_lt {b : Builder σ} (hend : b.reader.atEnd = false)
    (hheading : b.reader.current.lexeme.heading? = none) :
    (b.mapReader fun r ↦ (r.unexpected .heading).skipTo [.heading]).reader.unread <
      b.reader.unread := by
  refine Reader.unread_skipTo_lt (r := b.reader.unexpected .heading) hend ?_
  change [Anchor.heading].any (·.isAt b.reader.current.lexeme) = false
  cases hl : b.reader.current.lexeme <;>
    simp [Lexeme.heading?, Anchor.isAt, hl] at hheading ⊢

/-- A whole description. -/
def parseM (b : Builder σ) : m (Builder σ) :=
  if _hend : b.reader.atEnd = true then
    return b.fileAll b.missing b.reader.current.position
  else
    match _h : b.reader.current.lexeme.heading? with
    | some heading =>
      if heading ≠ .devices ∧ .devices ∉ b.seen then
        return b.file (.beforeDevices heading) b.reader.current.position
      else MonadAttach.pbind (b.parseSectionM heading) fun c _hc ↦ c.parseM
    | none => (b.mapReader fun r ↦ (r.unexpected .heading).skipTo [.heading]).parseM
termination_by b.reader.unread
decreasing_by
  · exact unread_parseSectionM_lt (by simpa using _hend) _hc
  · exact unread_skipToHeading_lt (by simpa using _hend) _h

theorem parseM_eq (b : Builder σ) : (b.parseM : m (Builder σ)) =
    if b.reader.atEnd = true then return b.fileAll b.missing b.reader.current.position
    else
      match b.reader.current.lexeme.heading? with
      | some heading =>
        if heading ≠ .devices ∧ .devices ∉ b.seen then
          return b.file (.beforeDevices heading) b.reader.current.position
        else b.parseSectionM heading >>= parseM
      | none => (b.mapReader fun r ↦ (r.unexpected .heading).skipTo [.heading]).parseM := by
  rw [parseM]
  split
  · rfl
  · split
    · next heading h =>
      rw [h]
      dsimp only
      split
      · rfl
      · exact WeaklyLawfulMonadAttach.pbind_eq_bind
    · next h => rw [h]

theorem parseM_ended {b : Builder σ} (h : b.reader.atEnd = true) :
    (b.parseM : m (Builder σ)) = pure (b.fileAll b.missing b.reader.current.position) := by
  rw [parseM_eq, if_pos h]

theorem parseM_beforeDevices {b : Builder σ} {heading : Heading} (hend : ¬ b.reader.atEnd = true)
    (hheading : b.reader.current.lexeme.heading? = some heading)
    (hbefore : heading ≠ .devices ∧ .devices ∉ b.seen) :
    (b.parseM : m (Builder σ)) =
      pure (b.file (.beforeDevices heading) b.reader.current.position) := by
  rw [parseM_eq, if_neg hend, hheading]
  exact if_pos hbefore

theorem parseM_heading {b : Builder σ} {heading : Heading} (hend : ¬ b.reader.atEnd = true)
    (hheading : b.reader.current.lexeme.heading? = some heading)
    (hbefore : ¬ (heading ≠ .devices ∧ .devices ∉ b.seen)) :
    (b.parseM : m (Builder σ)) = b.parseSectionM heading >>= parseM := by
  rw [parseM_eq, if_neg hend, hheading]
  exact if_neg hbefore

theorem parseM_stray {b : Builder σ} (hend : ¬ b.reader.atEnd = true)
    (hheading : b.reader.current.lexeme.heading? = none) : (b.parseM : m (Builder σ)) =
      (b.mapReader fun r ↦ (r.unexpected .heading).skipTo [.heading]).parseM := by
  rw [parseM_eq, if_neg hend, hheading]

/-- Whether nothing is wrong. -/
def inOrder (b : Builder σ) : Bool :=
  b.reader.log.isEmpty

/-- What is wrong, in the order in which it was found, shown in the text that was read. -/
def diagnostics (b : Builder σ) (text : String) : List Diagnostic :=
  b.reader.log.map (Report.diagnostic (Text.lines text.toList))

end Operations

/-! ### On a network -/

/-- The connections of a block, and its end. -/
def blockBody (block : NameId) (blockName : String) (b : Builder) : Builder :=
  Id.run (b.blockBodyM block blockName)

/-- A block from the name of its device on. A block for no device is skipped. -/
def blockFor (b : Builder) (header : Token) : Builder :=
  Id.run (b.blockForM header)

/-- A block of connections. -/
def block (b : Builder) : Builder :=
  Id.run b.blockM

/-- The statements of a section, from behind its opening brace to its end. -/
def body (heading : Heading) (b : Builder) : Builder :=
  Id.run (b.bodyM heading)

/-- What is still missing when a section closes. -/
def shortfalls (b : Builder) (heading : Heading) : List Fault :=
  Id.run (b.shortfallsM heading)

/-- The end of a section, which may be missing, and the checks that are due there. -/
def close (b : Builder) (heading : Heading) : Builder :=
  Id.run (b.closeM heading)

/-- A section, from its heading on. -/
def parseSection (b : Builder) (heading : Heading) : Builder :=
  Id.run (b.parseSectionM heading)

/-- A whole description. -/
def parse (b : Builder) : Builder :=
  Id.run b.parseM

theorem blockBody_eq (block : NameId) (blockName : String) (b : Builder) :
    b.blockBody block blockName =
      statement blockEnd (fun b _ ↦ b)
        (untilSectionEnd (statement (connection block blockName) (connect block))
          (unread_statement_lt (consumes_connection block blockName) (reaches_connect block)) b) :=
  rfl

theorem blockFor_eq (b : Builder) (header : Token) : b.blockFor header =
    match b.deviceNamed? header.text with
    | some block => b.statement blockOpening fun b _ ↦ b.blockBody block header.text
    | none =>
      (b.file (.unknownDevice header.text) header.position).mapReader Reader.skipBlock := rfl

theorem block_eq (b : Builder) : b.block = b.statement blockHeader blockFor := rfl

theorem reaches_blockBody (block : NameId) (blockName : String) (b : Builder) :
    b.reader.Reaches (b.blockBody block blockName).reader :=
  readsOn_blockBodyM (m := Id) block blockName b _ rfl

theorem reaches_blockFor (b : Builder) (header : Token) :
    b.reader.Reaches (b.blockFor header).reader :=
  readsOn_blockForM (m := Id) b header _ rfl

theorem body_eq (heading : Heading) (b : Builder) : b.body heading =
    match heading with
    | .devices =>
      untilSectionEnd (statement (deviceStatement false) declareAll)
        (unread_statement_lt (consumes_deviceStatement false) reaches_declareAll) b
    | .init =>
      untilSectionEnd (statement (deviceStatement true) declareAll)
        (unread_statement_lt (consumes_deviceStatement true) reaches_declareAll) b
    | .connections =>
      untilSectionEnd block (unread_statement_lt consumes_blockHeader reaches_blockFor) b
    | .monitor =>
      untilSectionEnd (statement monitorStatement watchAll)
        (unread_statement_lt consumes_monitorStatement reaches_watchAll) b := by
  cases heading <;> rfl

theorem reaches_body (heading : Heading) (b : Builder) :
    b.reader.Reaches (b.body heading).reader :=
  readsOn_bodyM (m := Id) heading b _ rfl

theorem shortfalls_eq (b : Builder) (heading : Heading) : b.shortfalls heading =
    match heading with
    | .devices => b.network.devicesWithoutInputs.map fun id ↦ .withoutInputs (b.nameOf id)
    | .connections =>
      b.network.unconnected.map fun (device, port) ↦
        .unconnected (b.nameOfTerminal ⟨device, some port⟩)
    | .monitor | .init => [] := by
  cases heading with
  | devices | connections => exact List.idRun_mapM
  | monitor | init => rfl

theorem close_eq (b : Builder) (heading : Heading) : b.close heading =
    b.passEnd.fileAll (b.passEnd.shortfalls heading) b.reader.current.position := rfl

theorem parseSection_eq (b : Builder) (heading : Heading) : b.parseSection heading =
    if ((b.note heading).mapReader Reader.advance).reader.current.lexeme = .openBrace then
      (((((b.note heading).mapReader Reader.advance).setMode (modeOf heading)).mapReader
        Reader.advance).body heading).close heading
    else ((b.note heading).mapReader Reader.advance).mapReader fun r ↦
      (r.unexpected .openBrace).skipTo [.heading] :=
  apply_ite Id.run ..

theorem unread_parseSection_lt {b : Builder} (h : b.reader.atEnd = false) (heading : Heading) :
    (b.parseSection heading).reader.unread < b.reader.unread :=
  unread_parseSectionM_lt (m := Id) h rfl

theorem parse_eq (b : Builder) : b.parse =
    if b.reader.atEnd = true then b.fileAll b.missing b.reader.current.position
    else
      match b.reader.current.lexeme.heading? with
      | some heading =>
        if heading ≠ .devices ∧ .devices ∉ b.seen then
          b.file (.beforeDevices heading) b.reader.current.position
        else (b.parseSection heading).parse
      | none => (b.mapReader fun r ↦ (r.unexpected .heading).skipTo [.heading]).parse := by
  rw [parse, parseM_eq]
  split
  · rfl
  · split
    · exact apply_ite Id.run ..
    · rfl

theorem parse_ended {b : Builder} (h : b.reader.atEnd = true) :
    b.parse = b.fileAll b.missing b.reader.current.position :=
  congrArg Id.run (parseM_ended h)

theorem parse_beforeDevices {b : Builder} {heading : Heading} (hend : ¬ b.reader.atEnd = true)
    (hheading : b.reader.current.lexeme.heading? = some heading)
    (hbefore : heading ≠ .devices ∧ .devices ∉ b.seen) :
    b.parse = b.file (.beforeDevices heading) b.reader.current.position :=
  congrArg Id.run (parseM_beforeDevices hend hheading hbefore)

theorem parse_heading {b : Builder} {heading : Heading} (hend : ¬ b.reader.atEnd = true)
    (hheading : b.reader.current.lexeme.heading? = some heading)
    (hbefore : ¬ (heading ≠ .devices ∧ .devices ∉ b.seen)) :
    b.parse = (b.parseSection heading).parse :=
  congrArg Id.run (parseM_heading hend hheading hbefore)

theorem parse_stray {b : Builder} (hend : ¬ b.reader.atEnd = true)
    (hheading : b.reader.current.lexeme.heading? = none) :
    b.parse = (b.mapReader fun r ↦ (r.unexpected .heading).skipTo [.heading]).parse :=
  congrArg Id.run (parseM_stray hend hheading)

/-- What holds at the end of a text and at a heading before `devices`, and what holds before a
section or before something else if it holds behind it, holds everywhere. -/
theorem induction_parse {P : Builder → Prop} (ended : ∀ b : Builder, b.reader.atEnd = true → P b)
    (beforeDevices : ∀ b : Builder, ¬ b.reader.atEnd = true → ∀ heading,
      b.reader.current.lexeme.heading? = some heading →
        heading ≠ .devices ∧ .devices ∉ b.seen → P b)
    (heading : ∀ b : Builder, ¬ b.reader.atEnd = true → ∀ heading,
      b.reader.current.lexeme.heading? = some heading →
        ¬ (heading ≠ .devices ∧ .devices ∉ b.seen) → P (b.parseSection heading) → P b)
    (stray : ∀ b : Builder, ¬ b.reader.atEnd = true → b.reader.current.lexeme.heading? = none →
      P (b.mapReader fun r ↦ (r.unexpected .heading).skipTo [.heading]) → P b)
    (b : Builder) : P b :=
  if hend : b.reader.atEnd = true then ended b hend
  else
    match h : b.reader.current.lexeme.heading? with
    | some found =>
      if hbefore : found ≠ .devices ∧ .devices ∉ b.seen then beforeDevices b hend found h hbefore
      else heading b hend found h hbefore
        (induction_parse ended beforeDevices heading stray (b.parseSection found))
    | none => stray b hend h (induction_parse ended beforeDevices heading stray
        (b.mapReader fun r ↦ (r.unexpected .heading).skipTo [.heading]))
termination_by b.reader.unread
decreasing_by
  · exact unread_parseSection_lt (by simpa using hend) found
  · exact unread_skipToHeading_lt (by simpa using hend) h

end Builder

end Breadboard.Description
