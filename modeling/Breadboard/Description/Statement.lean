import Breadboard.Description.Attempt

/-!
# Statements

A statement of a section is read as a whole before anything is done about it.

* `A, B are AND;`, `A1 => A4 have 2 inputs;`, `CK has cycle 3;` and `S set to 1;` say something of
  devices. The last two forms are the only ones in an `init` section.
* `device G { A to G.I1; D.Q to G.I2; }` connects outputs to the inputs of one device.
* `trace A, D.Q;` names outputs to watch. The word `trace` may be left out.

Whatever is read here takes at least one token (`Consumes`).
-/

set_option autoImplicit false
set_option relaxedAutoImplicit false

namespace Breadboard.Description

open Text (Position sameWord)
open Attempt

/-- A name met in the text, with its number and its place. -/
structure Mention where
  id : NameId
  text : String
  position : Position
deriving DecidableEq

/-- A device that a statement is about, and where complaints about it are placed. -/
structure Target where
  id : NameId
  position : Position
deriving DecidableEq

/-- A statement about devices. -/
structure DeviceStatement where
  targets : List Target
  clause : Clause
deriving DecidableEq

/-- An output met in the text. -/
structure OutputMention where
  terminal : Terminal
  position : Position
deriving DecidableEq

/-- A connection to an input of the device that its block is for. -/
structure Connection where
  source : OutputMention
  input : NameId
deriving DecidableEq

/-- A name that has a number. -/
def knownName (unknown : String → Fault) (what : Expectation) : Attempt Mention := do
  let token ← current
  if token.lexeme = .name then
    match ← numberOf token.text with
    | some id =>
      advance
      return ⟨id, token.text, token.position⟩
    | none => refuse (unknown token.text) token.position
  else unexpected what

/-- The name of a device. -/
def deviceName : Attempt Mention :=
  knownName .unknownDevice .deviceName

/-- The name of a port. -/
def portName : Attempt Mention :=
  knownName .unknownPort .portName

/-- A number. -/
def number : Attempt (Nat × Position) := do
  let token ← current
  match token.lexeme with
  | .number value =>
    advance
    return (value, token.position)
  | _ => unexpected .number

/-- The semicolon at the end of a statement. -/
def semicolon : Attempt Unit :=
  expect .semicolon .semicolon

/-- The devices of a range. Complaints about any of them are placed at the first name. -/
def rangeTargets (first last : Mention) : Attempt (List Target) :=
  match expandRange first.text last.text with
  | .error error => refuse (.range error) first.position
  | .ok list => do
    match ← resolveAll list with
    | .error name => refuse (.unknownDevice name) first.position
    | .ok ids => return ids.map (⟨·, first.position⟩)

/-- Names with commas between them, or a range. -/
def targets : Attempt (List Target) := do
  let first ← deviceName
  if (← current).lexeme = .arrow then
    advance
    let last ← deviceName
    rangeTargets first last
  else
    let more ← commaList deviceName
    return (first :: more).map fun mention ↦ ⟨mention.id, mention.position⟩

/-- The kind of a device. A flip-flop may be called `D-TYPE`, which is three tokens. -/
def deviceKind : Attempt Kind := do
  let token ← current
  if token.lexeme = .name then
    advance
    if sameWord "D" token.text ∧ (← current).lexeme = .minus then
      advance
      let word ← current
      if word.lexeme = .name ∧ sameWord "TYPE" word.text then
        advance
        return .flipFlop
      else unexpected .typeWord
    else
      match Kind.ofKeyword? token.text with
      | some kind => return kind
      | none =>
        if sameWord "RC" token.text then refuse .reservedType token.position
        else refuse (.unknownType token.text) token.position
  else unexpected .deviceType

/-- The half-period of a clock, after `has cycle`. -/
def halfPeriod : Attempt Clause := do
  let (cycles, position) ← number
  if cycles = 0 then refuse .zeroCycle position
  else return .halfPeriod cycles

/-- The level of a switch, after `set`. -/
def switchLevel : Attempt Clause := do
  if (← current).lexeme = .keyword .toWord then advance
  let (value, position) ← number
  match value with
  | 0 => return .level Level.low
  | 1 => return .level Level.high
  | _ => refuse (.switchLevel value) position

/-- What a statement says of its devices, from its verb on. -/
def clause (inInit : Bool) : Attempt Clause := do
  let verb ← current
  match verb.lexeme with
  | .keyword .is | .keyword .are =>
    if inInit then refuse .notInInit verb.position
    else
      advance
      return .define (← deviceKind)
  | .keyword .has | .keyword .haveWord =>
    advance
    if (← current).lexeme = .keyword .cycle then
      advance
      halfPeriod
    else if inInit then refuse .notInInit verb.position
    else return .inputs (← number).1
  | .keyword .set =>
    advance
    switchLevel
  | _ => if inInit then refuse .notInInit verb.position else unexpected .verb

/-- A statement about devices. -/
def deviceStatement (inInit : Bool) : Attempt DeviceStatement := do
  let targets ← targets
  let clause ← clause inInit
  semicolon
  return ⟨targets, clause⟩

/-- An output: a device, or a device and a port. -/
def output : Attempt OutputMention := do
  let device ← deviceName
  if (← current).lexeme = .dot then
    advance
    let port ← portName
    return ⟨⟨device.id, some port.id⟩, device.position⟩
  else return ⟨⟨device.id, none⟩, device.position⟩

/-- The beginning of a block, up to the name of its device. -/
def blockHeader : Attempt Token := do
  expect (.keyword .device) (.keyword .device)
  let token ← current
  if token.lexeme = .name then return token else unexpected .deviceName

/-- The rest of the beginning of a block. -/
def blockOpening : Attempt Unit := do
  advance
  expect .openBrace .openBrace

/-- The end of a block. -/
def blockEnd : Attempt Unit :=
  expect .closeBrace .blockEnd

/-- A connection in the block of a given device. -/
def connection (block : NameId) (blockName : String) : Attempt Connection := do
  let source ← output
  expect (.keyword .toWord) (.keyword .toWord)
  let target ← deviceName
  if target.id = block then
    expect .dot .inputName
    let input ← portName
    semicolon
    return ⟨source, input.id⟩
  else refuse (.outsideBlock target.text blockName) target.position

/-- The outputs to watch. -/
def monitorStatement : Attempt (List OutputMention) := do
  if (← current).lexeme = .keyword .trace then advance
  let outputs ← separated output
  semicolon
  return outputs

theorem consumes_knownName (unknown : String → Fault) (what : Expectation) :
    Consumes (knownName unknown what) := by
  intro r mention s h
  change (if r.current.lexeme = .name then _ else _ : Attempt Mention).run r = _ at h
  split at h
  · next hname =>
    change (match r.names.query r.current.text with | some id => _ | none => _ :
      Attempt Mention).run r = _ at h
    split at h
    · cases h
      exact Reader.unread_advance_lt (by simp [Reader.atEnd, hname])
    · cases h
  · cases h

theorem consumes_deviceStatement (inInit : Bool) : Consumes (deviceStatement inInit) :=
  ((consumes_knownName _ _).bind _).bind _

theorem consumes_blockHeader : Consumes blockHeader :=
  (consumes_expect _ (by simp)).bind _

theorem consumes_connection (block : NameId) (blockName : String) :
    Consumes (connection block blockName) :=
  ((consumes_knownName _ _).bind _).bind _

theorem consumes_output : Consumes output :=
  (consumes_knownName _ _).bind _

theorem consumes_monitorStatement : Consumes monitorStatement :=
  .bind_right _ fun _ ↦ by
    dsimp only
    split
    · exact .bind_right _ fun _ ↦ consumes_output.separated.bind _
    · exact consumes_output.separated.bind _

end Breadboard.Description
