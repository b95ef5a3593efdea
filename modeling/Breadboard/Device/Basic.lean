import Breadboard.Device.Kind
import Breadboard.Device.Ports

/-!
# Devices

A device is an element with its input pins. The element holds what the device remembers and is
shaped by its kind: a gate its output, a switch its level, a clock how far it has counted, a
flip-flop its level and the clock level it saw last. The second output of a flip-flop is always the
opposite of the first, so it is not stored. A pin is driven by at most one output of some device.
-/

set_option autoImplicit false
set_option relaxedAutoImplicit false

namespace Breadboard

/-- An output of a device: its only one, or one of the named ones of a flip-flop. -/
structure Terminal where
  device : NameId
  port : Option NameId := none
deriving DecidableEq

/-- An input of a device with the output that drives it, if any does. -/
structure Pin where
  port : NameId
  driver : Option Terminal := none
deriving DecidableEq

/-- A port in its place among ports in ascending order. -/
def insertPort (port : NameId) : List NameId → List NameId
  | [] => [port]
  | other :: rest => if port ≤ other then port :: other :: rest else other :: insertPort port rest

/-- Undriven pins for the given ports, in ascending order. -/
def openPins (ports : List NameId) : List Pin :=
  (ports.foldr insertPort []).map fun port ↦ { port }

/-- What a device is and remembers. -/
inductive Element
  | gate (gate : Gate) (output : Level)
  | switch (level : Level)
  | clock (halfPeriod counter : Nat) (output : Level)
  | flipFlop (q lastClock : Level)
deriving DecidableEq

namespace Element

/-- The kind of an element. -/
def kind : Element → Kind
  | .gate g _ => .gate g
  | .switch _ => .switch
  | .clock .. => .clock
  | .flipFlop .. => .flipFlop

/-- An element as it is before anything happens. A clock turns over every cycle unless it is told
another half-period. -/
def ofKind : Kind → Element
  | .gate g => .gate g Level.low
  | .switch => .switch Level.low
  | .clock => .clock 1 0 Level.low
  | .flipFlop => .flipFlop Level.low Level.low

/-- An element at time zero. A switch stays as it is set, and a clock keeps its half-period. -/
def reset : Element → Element
  | .gate g _ => .gate g Level.low
  | .switch level => .switch level
  | .clock halfPeriod _ _ => .clock halfPeriod 0 Level.low
  | .flipFlop _ _ => .flipFlop Level.low Level.low

/-- One tick of a clock: it counts on, and turns over when it reaches its half-period. -/
def tick : Element → Element
  | .clock halfPeriod counter output =>
    if counter + 1 ≥ halfPeriod then .clock halfPeriod 0 (!output)
    else .clock halfPeriod (counter + 1) output
  | element => element

/-- An element that has seen its clock at a given level. -/
def remember (clock : Level) : Element → Element
  | .flipFlop q _ => .flipFlop q clock
  | element => element

@[simp]
theorem kind_ofKind (kind : Kind) : (ofKind kind).kind = kind := by
  cases kind <;> rfl

@[simp]
theorem kind_reset (element : Element) : element.reset.kind = element.kind := by
  cases element <;> rfl

@[simp]
theorem kind_remember (clock : Level) (element : Element) :
    (element.remember clock).kind = element.kind := by
  cases element <;> rfl

end Element

/-- A device: the number of its name, its element, and its pins in ascending order of port. -/
structure Device where
  id : NameId
  element : Element
  pins : List Pin := []
deriving DecidableEq

namespace Device

/-- The kind of a device. -/
def kind (d : Device) : Kind :=
  d.element.kind

/-- The inputs that a new device of a kind has. -/
def firstInputs (ports : Ports) : Kind → List NameId
  | .gate g => ports.inputs.take (g.inputCount?.getD 0)
  | .switch | .clock => []
  | .flipFlop => [ports.clk, ports.data, ports.set, ports.clear]

/-- A new device. -/
def make (ports : Ports) (id : NameId) (kind : Kind) : Device where
  id := id
  element := .ofKind kind
  pins := openPins (firstInputs ports kind)

/-- The outputs of a device with their levels, in ascending order of port. -/
def outputs (ports : Ports) (d : Device) : List (Option NameId × Level) :=
  match d.element with
  | .gate _ level | .switch level | .clock _ _ level => [(none, level)]
  | .flipFlop q _ =>
    if ports.q < ports.qbar then [(some ports.q, q), (some ports.qbar, !q)]
    else [(some ports.qbar, !q), (some ports.q, q)]

/-- The level of an output. -/
def output? (ports : Ports) (d : Device) (port : Option NameId) : Option Level :=
  (d.outputs ports).lookup port

/-- The pin of an input. -/
def pin? (d : Device) (port : NameId) : Option Pin :=
  d.pins.find? (·.port == port)

/-- The device with its element replaced by what a function makes of it. -/
def mapElement (f : Element → Element) (d : Device) : Device :=
  { d with element := f d.element }

/-- The device with an input driven by a given output. -/
def drive (port : NameId) (source : Terminal) (d : Device) : Device :=
  { d with
    pins := d.pins.map fun pin ↦
      if pin.port = port then { pin with driver := some source } else pin }

end Device

end Breadboard
