import Breadboard.Network.Basic

/-!
# Declarations

A network is built up by declaring its devices and then giving each gate its inputs, each clock its
half-period and each switch its level. The operations with a question mark give the new network, or
nothing where they are refused; `declare` says why.
-/

set_option autoImplicit false
set_option relaxedAutoImplicit false

namespace Breadboard

/-- What a statement about a device says of it. -/
inductive Clause
  | define (kind : Kind)
  | inputs (count : Nat)
  | halfPeriod (cycles : Nat)
  | level (level : Level)
deriving DecidableEq

/-- Why a statement about a device is refused. -/
inductive DeclarationError
  | alreadyDefined
  | absent
  | wrongInputCount (kind : Kind) (count : Nat)
  | fixedInputs
  | takesNoInputs (kind : Kind)
  | noInputs
  | tooManyInputs
  | inputsGiven
  | notAClock
  | notASwitch
deriving DecidableEq

/-- The wording of a refusal, for a device with a given name. -/
def DeclarationError.message (name : String) : DeclarationError → String
  | .alreadyDefined => "device '" ++ name ++ "' is already defined"
  | .absent => "device '" ++ name ++ "' does not exist"
  | .wrongInputCount kind count =>
    kind.keyword ++ " gate '" ++ name ++ "' must have exactly " ++ toString count ++
      (if count = 1 then " input" else " inputs")
  | .fixedInputs => "inputs of DTYPE device '" ++ name ++ "' are fixed"
  | .takesNoInputs kind => kind.keyword ++ " device '" ++ name ++ "' takes no inputs"
  | .noInputs => "gate '" ++ name ++ "' needs at least 1 input"
  | .tooManyInputs => "max inputs allowed is " ++ toString maxInputs
  | .inputsGiven => "inputs of '" ++ name ++ "' are already given"
  | .notAClock => "device '" ++ name ++ "' is not a CLOCK"
  | .notASwitch => "device '" ++ name ++ "' is not a SWITCH"

/-- Why a device cannot be given a number of inputs. A gate with a fixed number may be told that
number. -/
def Device.inputsRefusal? (d : Device) (count : Nat) : Option DeclarationError :=
  match d.kind with
  | .flipFlop => some .fixedInputs
  | .switch => some (.takesNoInputs .switch)
  | .clock => some (.takesNoInputs .clock)
  | .gate g =>
    match g.inputCount? with
    | some fixed => if count = fixed then none else some (.wrongInputCount (.gate g) fixed)
    | none =>
      if count = 0 then some .noInputs
      else if count > maxInputs then some .tooManyInputs
      else if d.pins.isEmpty then none
      else some .inputsGiven

namespace Network

/-- The network with a new device. A name stands for one device only. -/
def addDevice? (n : Network) (id : NameId) (kind : Kind) : Option Network :=
  if n.contains id then none
  else some { n with devices := n.devices ++ [Device.make n.ports id kind] }

/-- The network with inputs given to a gate that has none and may choose how many. -/
def addInputs? (n : Network) (id : NameId) (count : Nat) : Option Network :=
  (n.device? id).bind fun d ↦
    if d.kind.hasVariableInputs ∧ d.pins = [] ∧ 1 ≤ count ∧ count ≤ maxInputs then
      some (n.update id fun d ↦ { d with pins := openPins (n.ports.inputs.take count) })
    else none

/-- The network with a switch set. -/
def setSwitch? (n : Network) (id : NameId) (level : Level) : Option Network :=
  (n.device? id).bind fun d ↦
    match d.element with
    | .switch _ => some (n.update id (Device.mapElement fun _ ↦ .switch level))
    | _ => none

/-- The network with a clock that turns over every so many cycles, counted from now. -/
def setHalfPeriod? (n : Network) (id : NameId) (cycles : Nat) : Option Network :=
  if cycles = 0 then none
  else (n.device? id).bind fun d ↦
    match d.element with
    | .clock _ _ output => some (n.update id (Device.mapElement fun _ ↦ .clock cycles 0 output))
    | _ => none

/-- The network after a statement about one device. -/
def declare (n : Network) (id : NameId) : Clause → Except DeclarationError Network
  | .define kind => (n.addDevice? id kind).elim (.error .alreadyDefined) .ok
  | .inputs count =>
    match n.device? id with
    | none => .error .absent
    | some d =>
      match d.inputsRefusal? count with
      | some refusal => .error refusal
      | none => .ok ((n.addInputs? id count).getD n)
  | .halfPeriod cycles =>
    if n.contains id then (n.setHalfPeriod? id cycles).elim (.error .notAClock) .ok
    else .error .absent
  | .level level =>
    if n.contains id then (n.setSwitch? id level).elim (.error .notASwitch) .ok
    else .error .absent

end Network

end Breadboard
