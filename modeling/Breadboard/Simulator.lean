import Breadboard.Circuit

/-!
# The simulator

A simulator runs a circuit cycle by cycle, records what its monitors see, and counts the cycles.
Switches and monitors are addressed by name. A cycle that finds no rest is not counted and not
recorded, and leaves the network as the cycle left it.
-/

set_option autoImplicit false
set_option relaxedAutoImplicit false

namespace Breadboard

/-- A circuit and the number of its cycles. -/
structure Simulator (σ : Type := Network) extends Circuit σ where
  cycles : Nat := 0
deriving DecidableEq

namespace Simulator

/-- A simulator at the start of a circuit. -/
def ofCircuit {σ : Type} (circuit : Circuit σ) : Simulator σ :=
  { circuit with }

/-! ### On a network in any form -/

section Operations

variable {m : Type → Type} [Fallback m] {σ : Type} [Store m σ]

/-- The failure of a cycle that finds no rest. -/
def oscillationM (s : Simulator σ) : m Failure := do
  return .oscillation (← Store.network s.network).iterationLimit

/-- One cycle. An error holds the state that it leaves. -/
def stepM (s : Simulator σ) : m (Except (Simulator σ) (Simulator σ)) := do
  match ← Store.cycle s.network with
  | .ok network =>
    let monitors ← s.monitors.recordM network
    return .ok { s with network, monitors, cycles := s.cycles + 1 }
  | .error network => return .error { s with network }

/-- So many cycles, up to the first that finds no rest. -/
def runM (s : Simulator σ) : Nat → m (Except (Simulator σ) (Simulator σ))
  | 0 => return .ok s
  | cycles + 1 => do
    match ← s.stepM with
    | .ok next => next.runM cycles
    | .error left => return .error left

/-- Back to time zero, with nothing recorded. The switches stay as they are. -/
def resetM (s : Simulator σ) : m (Simulator σ) := do
  let network ← Store.reset s.network
  return { s with network, monitors := s.monitors.clear, cycles := 0 }

/-- A switch set by name. -/
def setSwitchM (s : Simulator σ) (name : String) (level : Level) :
    m (Except Failure (Simulator σ)) := do
  match ← s.names.deviceM? s.network name with
  | none => return .error (.deviceAbsent name)
  | some id =>
    match ← Store.setSwitch? s.network id level with
    | none => return .error (.notASwitch name)
    | some network => return .ok { s with network }

/-- The names of the switches. -/
def switchNamesM (s : Simulator σ) : m (List String) := do
  s.names.stringsM ((← Store.network s.network).devicesOf (some .switch))

/-- The output that a signal's name stands for. -/
def resolveM (s : Simulator σ) (signal : String) : m (Option Terminal) := do
  match s.names.queryTerminal signal with
  | none => return none
  | some output =>
    let level ← Store.output? s.network output
    return if level.isSome then some output else none

/-- The output that a signal's name stands for, or the failure to find it. -/
def signalM (s : Simulator σ) (name : String) : m (Except Failure Terminal) := do
  return (← s.resolveM name).elim (.error (.unknownSignal name)) .ok

/-- An output watched from now on. -/
def addMonitorM (s : Simulator σ) (name : String) : m (Except Failure (Simulator σ)) := do
  match ← s.signalM name with
  | .error failure => return .error failure
  | .ok output =>
    match ← s.monitors.addM s.network output with
    | .ok monitors => return .ok { s with monitors }
    | .error error => return .error (.monitorRefused name error)

/-- An output no longer watched, and whether it was. -/
def removeMonitorM (s : Simulator σ) (name : String) :
    m (Except Failure (Bool × Simulator σ)) := do
  return (← s.signalM name).map fun output ↦
    (output ∈ s.monitors.outputs, { s with monitors := s.monitors.remove output })

/-- The names of the watched outputs. -/
def signalNamesM (s : Simulator σ) : m (List String) :=
  s.names.labelsM s.monitors.outputs

/-- The names of the other outputs. -/
def unmonitoredNamesM (s : Simulator σ) : m (List String) := do
  s.names.labelsM (s.monitors.unmonitored (← Store.network s.network))

/-- The recorded levels of a watched output. -/
def traceM (s : Simulator σ) (name : String) : m (Except Failure (Array Level)) := do
  return ((← s.resolveM name).bind s.monitors.history?).elim (.error (.unknownSignal name)) .ok

end Operations

/-! ### On a network -/

/-- The failure of a cycle that finds no rest. -/
def oscillation (s : Simulator) : Failure :=
  Id.run s.oscillationM

/-- One cycle. An error holds the state that it leaves. -/
def step (s : Simulator) : Except Simulator Simulator :=
  Id.run s.stepM

/-- So many cycles, up to the first that finds no rest. -/
def run (s : Simulator) (cycles : Nat) : Except Simulator Simulator :=
  Id.run (s.runM cycles)

/-- Back to time zero, with nothing recorded. The switches stay as they are. -/
def reset (s : Simulator) : Simulator :=
  Id.run s.resetM

/-- A switch set by name. -/
def setSwitch (s : Simulator) (name : String) (level : Level) : Except Failure Simulator :=
  Id.run (s.setSwitchM name level)

/-- The names of the switches. -/
def switchNames (s : Simulator) : List String :=
  Id.run s.switchNamesM

/-- The output that a signal's name stands for. -/
def resolve (s : Simulator) (signal : String) : Option Terminal :=
  Id.run (s.resolveM signal)

/-- The output that a signal's name stands for, or the failure to find it. -/
def signal (s : Simulator) (name : String) : Except Failure Terminal :=
  Id.run (s.signalM name)

/-- An output watched from now on. -/
def addMonitor (s : Simulator) (name : String) : Except Failure Simulator :=
  Id.run (s.addMonitorM name)

/-- An output no longer watched, and whether it was. -/
def removeMonitor (s : Simulator) (name : String) : Except Failure (Bool × Simulator) :=
  Id.run (s.removeMonitorM name)

/-- The names of the watched outputs. -/
def signalNames (s : Simulator) : List String :=
  Id.run s.signalNamesM

/-- The names of the other outputs. -/
def unmonitoredNames (s : Simulator) : List String :=
  Id.run s.unmonitoredNamesM

/-- The recorded levels of a watched output. -/
def trace (s : Simulator) (name : String) : Except Failure (Array Level) :=
  Id.run (s.traceM name)

/-- The recorded levels drawn. -/
def display (s : Simulator) : String :=
  s.monitors.display s.names

theorem step_eq (s : Simulator) : s.step =
    match s.network.cycle with
    | .ok network =>
      .ok { s with network, monitors := s.monitors.record network, cycles := s.cycles + 1 }
    | .error network => .error { s with network } := by
  unfold step stepM
  dsimp only [Store.cycle]
  cases s.network.cycle <;> rfl

theorem run_succ (s : Simulator) (cycles : Nat) : s.run (cycles + 1) =
    match s.step with
    | .ok next => next.run cycles
    | .error left => .error left := by
  have hstep : (s.stepM : Id _) = pure s.step := rfl
  rw [run, runM, hstep, pure_bind]
  cases s.step <;> rfl

theorem reset_eq (s : Simulator) : s.reset =
    { s with network := s.network.reset, monitors := s.monitors.clear, cycles := 0 } := rfl

theorem setSwitch_eq (s : Simulator) (name : String) (level : Level) : s.setSwitch name level =
    match (s.names.query name).filter s.network.contains with
    | none => .error (.deviceAbsent name)
    | some id =>
      match s.network.setSwitch? id level with
      | none => .error (.notASwitch name)
      | some network => .ok { s with network } := by
  have hdevice : (s.names.deviceM? s.network name : Id _) =
      pure ((s.names.query name).filter s.network.contains) :=
    s.names.run_deviceM? s.network name
  unfold setSwitch setSwitchM
  rw [hdevice, pure_bind]
  cases (s.names.query name).filter s.network.contains with
  | none => rfl
  | some id =>
    dsimp only [Store.setSwitch?]
    cases s.network.setSwitch? id level <;> rfl

theorem switchNames_eq (s : Simulator) : s.switchNames =
    (s.network.devicesOf (some .switch)).filterMap s.names.string? :=
  s.names.run_stringsM _

theorem resolve_eq (s : Simulator) (signal : String) : s.resolve signal =
    (s.names.queryTerminal signal).filter fun output ↦ (s.network.output? output).isSome := by
  unfold resolve resolveM
  dsimp only [Store.output?]
  cases s.names.queryTerminal signal with
  | none => rfl
  | some output => rw [Option.filter_some]; rfl

theorem signal_eq (s : Simulator) (name : String) :
    s.signal name = (s.resolve name).elim (.error (.unknownSignal name)) .ok := rfl

theorem addMonitor_eq (s : Simulator) (name : String) : s.addMonitor name =
    match s.signal name with
    | .error failure => .error failure
    | .ok output =>
      match s.monitors.add s.network output with
      | .ok monitors => .ok { s with monitors }
      | .error error => .error (.monitorRefused name error) := rfl

theorem removeMonitor_eq (s : Simulator) (name : String) : s.removeMonitor name =
    (s.signal name).map fun output ↦
      (decide (output ∈ s.monitors.outputs),
        { s with monitors := s.monitors.remove output }) := rfl

theorem signalNames_eq (s : Simulator) :
    s.signalNames = s.monitors.outputs.filterMap s.names.terminal? :=
  s.names.labels_eq s.monitors.outputs

theorem unmonitoredNames_eq (s : Simulator) : s.unmonitoredNames =
    (s.network.terminals.filter (· ∉ s.monitors.outputs)).filterMap s.names.terminal? :=
  s.names.labels_eq (s.monitors.unmonitored s.network)

theorem trace_eq (s : Simulator) (name : String) : s.trace name =
    ((s.resolve name).bind s.monitors.history?).elim (.error (.unknownSignal name)) .ok := rfl

end Simulator

end Breadboard
