import Breadboard.Fallback
import Breadboard.Network.Connection
import Breadboard.Network.Cycle
import Breadboard.Network.Declaration
import Breadboard.Proofs.Network.Reachable
import Mathlib.Data.List.Sort

/-!
# Devices in storage

A network is a list of devices in which names are looked up one by one, and a device holds only what
its kind needs. In storage the devices stand in an array, with a map from names to places; a stored
device has maps from its ports to drivers and levels, and fields for whatever a device of any kind
remembers, counted in machine words. A level that an operation sets is written into the map, whether
the port is there or not.

Nothing here says that names and places go together, that a level is written to a port that exists,
that a driver exists, or that a count does not overflow. So an operation may come upon a place out
of range, or upon an output or an input that is not there. Something stands in for it then, and what
is done about that is for the monad to say in which the operation is carried out.

A stored device stands for the device `Cell.device`, and a table for the network `Table.network`.
-/

set_option autoImplicit false
set_option relaxedAutoImplicit false

namespace Breadboard

variable {m : Type → Type} [Fallback m]

/-! ### Stored devices -/

/-- A device as it is stored: with its ports in ascending order, and with the fields of every kind
of device. -/
structure Cell where
  id : NameId
  kind : Kind
  inputs : Std.TreeMap NameId (Option Terminal) := ∅
  outputs : Std.TreeMap (Option NameId) Level := ∅
  switchLevel : Level := Level.low
  halfPeriod : UInt32 := 1
  counter : UInt32 := 0
  lastClock : Level := Level.low

instance : Inhabited Cell where
  default := { id := 0, kind := .switch }

namespace Cell

/-- The device with more inputs, without a driver. -/
def addInputs (ports : List NameId) (c : Cell) : Cell :=
  { c with inputs := ports.foldl (fun inputs port ↦ inputs.insert port none) c.inputs }

/-- The device with a level written to an output. -/
def setOutput (port : Option NameId) (level : Level) (c : Cell) : Cell :=
  { c with outputs := c.outputs.insert port level }

/-- The device with a driver written to an input. -/
def drive (port : NameId) (source : Terminal) (c : Cell) : Cell :=
  { c with inputs := c.inputs.insert port (some source) }

/-- A new device, with the inputs that it has from the start. -/
def make (ports : Ports) (list : List NameId) (id : NameId) (kind : Kind) : Cell :=
  let bare := addInputs list { id, kind }
  if kind = .flipFlop then
    (bare.setOutput (some ports.q) Level.low).setOutput (some ports.qbar) Level.high
  else bare.setOutput none Level.low

/-- The device at time zero. -/
def reset (ports : Ports) (c : Cell) : Cell :=
  match c.kind with
  | .switch => c.setOutput none c.switchLevel
  | .flipFlop =>
    { (c.setOutput (some ports.q) Level.low).setOutput (some ports.qbar) Level.high with
      lastClock := Level.low }
  | .clock => { c with counter := 0 }.setOutput none Level.low
  | .gate _ => c.setOutput none Level.low

/-- One tick of a clock. When it turns over, its output has to be there. -/
def tick (c : Cell) : m Cell := do
  if c.kind = .clock then
    if c.counter + 1 ≥ c.halfPeriod then
      let level ← provided (.noOutput ⟨c.id, none⟩) Level.low c.outputs[(none : Option NameId)]?
      return { c with counter := 0 }.setOutput none (!level)
    else return { c with counter := c.counter + 1 }
  else return c

/-- The level of an output, low where there is no such output. -/
def level (c : Cell) (port : Option NameId) : Level :=
  c.outputs[port]?.getD Level.low

/-- What the device is and remembers. -/
def element (ports : Ports) (c : Cell) : Element :=
  match c.kind with
  | .gate g => .gate g (c.level none)
  | .switch => .switch c.switchLevel
  | .clock => .clock c.halfPeriod.toNat c.counter.toNat (c.level none)
  | .flipFlop => .flipFlop (c.level (some ports.q)) c.lastClock

/-- The device that is stored. -/
def device (ports : Ports) (c : Cell) : Device where
  id := c.id
  element := c.element ports
  pins := c.inputs.toList.map fun (port, driver) ↦ ⟨port, driver⟩

end Cell

/-! ### Tables -/

/-- All devices of a circuit as they are stored, in the order of their declaration. -/
structure Table where
  ports : Ports
  cells : Array Cell := #[]
  index : Std.HashMap NameId Nat := ∅
  settings : Settings := {}

namespace Table

/-- The network that is stored. -/
def network (t : Table) : Network where
  ports := t.ports
  devices := t.cells.toList.map (Cell.device t.ports)
  settings := t.settings

/-- A table without devices, over the port names of a table of names. -/
def empty (names : Names) (settings : Settings) : Table where
  ports := (Ports.intern names).1
  settings := settings

/-- The device with a given name. -/
def get? (t : Table) (id : NameId) : Option Cell :=
  t.index[id]?.bind fun pos ↦ t.cells[pos]?

/-- The level of an output. -/
def output? (t : Table) (source : Terminal) : Option Level :=
  (t.get? source.device).bind fun c ↦ c.outputs[source.port]?

/-- The table with what stands at a place replaced by what a function makes of it. -/
def modifyAt (pos : Nat) (f : Cell → Cell) (t : Table) : Table :=
  { t with cells := t.cells.modify pos f }

/-- The table with the device of a given name replaced by what a function makes of it. -/
def modify (id : NameId) (f : Cell → Cell) (t : Table) : Table :=
  t.index[id]?.elim t fun pos ↦ t.modifyAt pos f

/-- The table with every device replaced by what a function makes of it. -/
def mapCells (f : Cell → Cell) (t : Table) : Table :=
  { t with cells := t.cells.map f }

/-! ### Looking up -/

/-- What stands at a place, which has to be in range. -/
def cellAt (t : Table) (pos : Nat) : m Cell :=
  provided (.outOfRange pos) default t.cells[pos]?

/-- The device that a name leads to, if it leads to a place. -/
def find (t : Table) (id : NameId) : m (Option Cell) := do
  match t.index[id]? with
  | none => return none
  | some pos => return some (← cellAt t pos)

/-- The first so many gate inputs, of which there have to be as many. -/
def firstPorts (ports : Ports) (count : Nat) : m (List NameId) :=
  let list := ports.inputs.take count
  if list.length = count then return list else Fallback.missing (.outOfRange count) list

/-- The inputs that a new device of a kind has. -/
def firstInputs (ports : Ports) : Kind → m (List NameId)
  | .gate g => firstPorts ports (g.inputCount?.getD 0)
  | kind => return Device.firstInputs ports kind

/-! ### Declarations

An operation gives the table after it, and whether it was carried out. -/

/-- A new device, unless the name is taken. -/
def makeDevice (id : NameId) (kind : Kind) (t : Table) : m (Bool × Table) := do
  if t.index.contains id then return (false, t)
  else
    let list ← firstInputs t.ports kind
    return (true, { t with
      index := t.index.insert id t.cells.size
      cells := t.cells.push (Cell.make t.ports list id kind) })

/-- Inputs for a gate that has none and may choose how many. -/
def addInputs (id : NameId) (count : Nat) (t : Table) : m (Bool × Table) := do
  if count = 0 ∨ count > maxInputs then return (false, t)
  else
    let list ← firstPorts t.ports count
    match ← find t id with
    | some c =>
      if c.kind.hasVariableInputs ∧ c.inputs.isEmpty then
        return (true, t.modify id (Cell.addInputs list))
      else return (false, t)
    | none => return (false, t)

/-- A level for a switch. -/
def setSwitch (id : NameId) (level : Level) (t : Table) : m (Bool × Table) := do
  match ← find t id with
  | some c =>
    if c.kind = .switch then
      return (true, t.modify id fun c ↦ { c with switchLevel := level }.setOutput none level)
    else return (false, t)
  | none => return (false, t)

/-- A half-period for a clock, which is counted from now. -/
def setHalfPeriod (id : NameId) (cycles : UInt32) (t : Table) : m (Bool × Table) := do
  if cycles = 0 then return (false, t)
  else
    match ← find t id with
    | some c =>
      if c.kind = .clock then
        return (true, t.modify id fun c ↦ { c with halfPeriod := cycles, counter := 0 })
      else return (false, t)
    | none => return (false, t)

/-- A driver for an input. -/
def connect (source : Terminal) (target input : NameId) (t : Table) :
    m (Except ConnectionError Table) := do
  match ← find t source.device, ← find t target with
  | some src, some dst =>
    if source.port.any fun port ↦ src.inputs.contains port then return .error .inputToInput
    else if !src.outputs.contains source.port then return .error .notAnOutput
    else
      match dst.inputs[input]? with
      | none => return .error .notAnInput
      | some (some _) => return .error .inputConnected
      | some none => return .ok (t.modify target (Cell.drive input source))
  | _, _ => return .error .deviceAbsent

/-- The reason to refuse a connection, as it is reported. Of a missing input and a missing output
the input is the one to name. -/
def reported (target input : NameId) (t : Table) : ConnectionError → m ConnectionError
  | .notAnInput | .notAnOutput => do
    let there := (← find t target).any fun c ↦ c.inputs.contains input
    return if there then .notAnOutput else .notAnInput
  | error => return error

/-! ### Levels -/

/-- The level of an output, if it is there. -/
def signal? (t : Table) (source : Terminal) : m (Option Level) := do
  return (← find t source.device).bind fun c ↦ c.outputs[source.port]?

/-- The level that an input with a given driver reads. The driver has to be there. -/
def drivenLevel (t : Table) : Option Terminal → m Level
  | none => return Level.low
  | some source => do provided (.noOutput source) Level.low (← signal? t source)

/-- The level of an input, where there is one. -/
def input? (t : Table) (id port : NameId) : m (Option Level) := do
  match (← find t id).bind fun c ↦ c.inputs[port]? with
  | none => return none
  | some driver => return some (← drivenLevel t driver)

/-- The level of an input of the device at a place, where the input has to be there. -/
def inputLevelAt (t : Table) (pos : Nat) (port : NameId) : m Level := do
  let c ← cellAt t pos
  drivenLevel t (← provided (.noInput pos port) none c.inputs[port]?)

/-- What the output of the gate at a place should be. -/
def gateOutputAt (t : Table) (pos : Nat) : m (Option Level) := do
  let c ← cellAt t pos
  return c.kind.evaluate? (← c.inputs.toList.mapM fun input ↦ drivenLevel t input.2)

/-- A level written to an output of the device at a place, and whether that changes it. -/
def setOutputAt (pos : Nat) (port : Option NameId) (level : Level) (t : Table) :
    m (Table × Bool) := do
  let c ← cellAt t pos
  return (t.modifyAt pos (Cell.setOutput port level), c.outputs[port]? != some level)

/-! ### Cycles -/

/-- Every place takes its turn, on the table as the turns before left it. The flag says whether any
turn changed anything. -/
def sweep (turn : Table → Nat → m (Table × Bool)) (t : Table) : m (Table × Bool) :=
  (List.range t.cells.size).foldlM (fun state pos ↦ do
    let turned ← turn state.1 pos
    return (turned.1, state.2 || turned.2)) (t, false)

/-- A place's turn in a pass over the gates. -/
def refreshAt (t : Table) (pos : Nat) : m (Table × Bool) := do
  match ← gateOutputAt t pos with
  | some level => setOutputAt pos none level t
  | none => return (t, false)

/-- At most so many passes over the gates, up to the first that changes nothing. An error holds the
table as it was left. -/
def settleWithin : Nat → Table → ExceptT Table m Table
  | 0, t => throw t
  | passes + 1, t => do
    let (next, changed) ← sweep refreshAt t
    if changed then settleWithin passes next else return next

/-- The gates settled, within the limit. -/
def settle (t : Table) : ExceptT Table m Table :=
  settleWithin (t.settings.limit t.cells.size) t

/-- One tick of every clock. -/
def tick (t : Table) : m Table := do
  return { t with cells := (← t.cells.toList.mapM Cell.tick).toArray }

/-- The level that the flip-flop at a place takes on an edge. All three levels are read. -/
def nextLevelAt (t : Table) (pos : Nat) : m Level := do
  let data ← inputLevelAt t pos t.ports.data
  let set ← inputLevelAt t pos t.ports.set
  let clear ← inputLevelAt t pos t.ports.clear
  return if set then Level.high else if clear then Level.low else data

/-- A place's turn to latch, with the levels as they were sampled. -/
def latchAt (sampled t : Table) (pos : Nat) : m (Table × Bool) := do
  let c ← cellAt t pos
  if c.kind = .flipFlop then
    let next ← nextLevelAt sampled pos
    let clock ← inputLevelAt t pos t.ports.clk
    if c.lastClock = Level.low ∧ clock = Level.high then
      let first ← setOutputAt pos (some t.ports.q) next t
      let second ← setOutputAt pos (some t.ports.qbar) (!next) first.1
      return (second.1, first.2 || second.2)
    else return (t, false)
  else return (t, false)

/-- Every flip-flop remembers its clock level. -/
def rememberClocks (t : Table) : m Table := do
  let cells ← (List.range t.cells.size).mapM fun pos ↦ do
    let c ← cellAt t pos
    if c.kind = .flipFlop then
      return { c with lastClock := ← inputLevelAt t pos t.ports.clk }
    else return c
  return { t with cells := cells.toArray }

/-- The gates settled once more where flip-flops changed. -/
def settleIf : Table × Bool → ExceptT Table m Table
  | (t, true) => settle t
  | (t, false) => return t

/-- One cycle, or the table as it was left where the gates do not settle. -/
def cycle (t : Table) : ExceptT Table m Table := do
  let start ← settle t
  let ticked ← settle (← tick start)
  let rested ← settleIf (← sweep (latchAt start) ticked)
  rememberClocks rested

/-- The table that an activity ends with. -/
def finalTable : Except Table Table → Table
  | .ok t => t
  | .error t => t

/-- The gates settled as far as they go, with the clock levels taken for seen. -/
def powerOn (t : Table) : m Table := do
  rememberClocks (finalTable (← (settle t).run))

/-- Every device at time zero. -/
def clearDevices (t : Table) : Table :=
  t.mapCells (Cell.reset t.ports)

/-- The table at time zero. -/
def reset (t : Table) : m Table :=
  powerOn t.clearDevices

end Table

/-! ### Calls -/

/-- What can be asked of a table. -/
inductive Call
  | makeDevice (id : NameId) (kind : Kind)
  | addInputs (id : NameId) (count : Nat)
  | setSwitch (id : NameId) (level : Level)
  | setHalfPeriod (id : NameId) (cycles : UInt32)
  | connect (source : Terminal) (target input : NameId)
  | cycle
  | powerOn
  | clearDevices
  | reset

/-- What a call asks of the network that is stored. -/
def Call.request : Call → Request
  | makeDevice id kind => .addDevice id kind
  | addInputs id count => .addInputs id count
  | setSwitch id level => .setSwitch id level
  | setHalfPeriod id cycles => .setHalfPeriod id cycles.toNat
  | connect source target input => .connect source target input
  | cycle => .cycle
  | powerOn => .powerOn
  | clearDevices => .clearDevices
  | reset => .reset

/-- The table after a call, carried out or refused, ended or abandoned. -/
def Table.perform (t : Table) : Call → m Table
  | .makeDevice id kind => do return (← makeDevice id kind t).2
  | .addInputs id count => do return (← addInputs id count t).2
  | .setSwitch id level => do return (← setSwitch id level t).2
  | .setHalfPeriod id cycles => do return (← setHalfPeriod id cycles t).2
  | .connect source target input => do
    return (← connect source target input t).toOption.getD t
  | .cycle => do return finalTable (← (cycle t).run)
  | .powerOn => powerOn t
  | .clearDevices => return t.clearDevices
  | .reset => reset t

end Breadboard
