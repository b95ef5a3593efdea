import Breadboard.Signal
import Breadboard.Store

/-!
# Monitors

A monitor watches one output and keeps its levels, one for each recorded cycle, the oldest first.
An output is watched by one monitor at most, and monitors stay in the order in which they were set
up. The display has a line for each: the name of the output, and its levels drawn.
-/

set_option autoImplicit false
set_option relaxedAutoImplicit false

namespace Breadboard

/-- A watched output with its recorded levels. -/
structure Probe where
  output : Terminal
  history : Array Level := #[]
deriving DecidableEq

/-- The watched outputs. -/
structure Monitors where
  probes : List Probe := []
deriving DecidableEq

/-- Why an output is not watched on request. -/
inductive MonitorError
  | deviceAbsent
  | notAnOutput
  | alreadyMonitored
deriving DecidableEq

/-- The wording of a refusal. -/
def MonitorError.message : MonitorError → String
  | .deviceAbsent => "device does not exist"
  | .notAnOutput => "not an output"
  | .alreadyMonitored => "output is already monitored"

namespace Monitors

variable {w : Type → Type} [Fallback w] {σ : Type} [Store w σ]

/-- The watched outputs, in order. -/
def outputs (m : Monitors) : List Terminal :=
  m.probes.map Probe.output

/-- The monitors with one more, at the end. -/
def addM (m : Monitors) (kept : σ) (output : Terminal) : w (Except MonitorError Monitors) := do
  match ← Store.hasOutput? kept output with
  | none => return .error .deviceAbsent
  | some false => return .error .notAnOutput
  | some true =>
    if output ∈ m.outputs then return .error .alreadyMonitored
    else return .ok ⟨m.probes ++ [{ output := output }]⟩

/-- The monitors of a network with one more. -/
def add (m : Monitors) (n : Network) (output : Terminal) : Except MonitorError Monitors :=
  Id.run (m.addM n output)

/-- The monitors without the one on a given output. -/
def remove (m : Monitors) (output : Terminal) : Monitors :=
  ⟨m.probes.filter (·.output ≠ output)⟩

/-- The monitors with one level more for each. Low stands in for the level of no output. -/
def recordM (m : Monitors) (kept : σ) : w Monitors := do
  let probes ← m.probes.mapM fun p ↦ do
    let level ← provided (.noOutput p.output) Level.low (← Store.output? kept p.output)
    return { p with history := p.history.push level }
  return ⟨probes⟩

/-- The monitors of a network with one level more for each. -/
def record (m : Monitors) (n : Network) : Monitors :=
  Id.run (m.recordM n)

/-- The monitors with nothing recorded. -/
def clear (m : Monitors) : Monitors :=
  ⟨m.probes.map fun p ↦ { p with history := #[] }⟩

/-- The recorded levels of an output. -/
def history? (m : Monitors) (output : Terminal) : Option (Array Level) :=
  (m.probes.find? (·.output == output)).map Probe.history

/-- The names of the watched outputs, in order. -/
def signalNames (m : Monitors) (names : Names) : List String :=
  names.labels m.outputs

/-- The outputs that are not watched, device by device. -/
def unmonitored (m : Monitors) (n : Network) : List Terminal :=
  n.terminals.filter (· ∉ m.outputs)

/-- The names of the other outputs, device by device. -/
def unmonitoredNames (m : Monitors) (names : Names) (n : Network) : List String :=
  names.labels (m.unmonitored n)

/-- A name filled up with blanks to a given length. -/
def padded (length : Nat) (name : String) : String :=
  name ++ String.ofList (List.replicate (length - name.length) ' ')

/-- A line of the display. -/
def line (margin : Nat) (name : String) (history : Array Level) : String :=
  padded margin name ++ " : " ++ String.ofList (history.toList.map Level.mark) ++ "\n"

/-- The recorded levels drawn, one line for each name, with the colons in one column. -/
def display (m : Monitors) (names : Names) : String :=
  let labels := m.signalNames names
  let margin := (labels.map String.length).foldl max 0
  String.join ((labels.zip m.probes).map fun (label, p) ↦ line margin label p.history)

/-- Cycles run one after another and recorded, up to the first that finds no rest. -/
def runCycles (m : Monitors) (n : Network) : Nat → Except Network Network × Monitors
  | 0 => (.ok n, m)
  | cycles + 1 =>
    match n.cycle with
    | .error left => (.error left, m)
    | .ok next => (m.record next).runCycles next cycles

theorem add_eq (m : Monitors) (n : Network) (output : Terminal) : m.add n output =
    match n.device? output.device with
    | none => .error .deviceAbsent
    | some d =>
      if (d.output? n.ports output.port).isNone then .error .notAnOutput
      else if output ∈ m.outputs then .error .alreadyMonitored
      else .ok ⟨m.probes ++ [{ output := output }]⟩ := by
  simp only [add, addM, Store.hasOutput?, pure_bind]
  cases n.device? output.device with
  | none => rfl
  | some d =>
    dsimp only [Option.map_some]
    cases d.output? n.ports output.port with
    | none => rfl
    | some level => exact apply_ite Id.run ..

theorem record_eq (m : Monitors) (n : Network) : m.record n =
    ⟨m.probes.map fun p ↦
      { p with history := p.history.push (n.drivenLevel (some p.output)) }⟩ := by
  have hlevel (p : Probe) : (provided (.noOutput p.output) Level.low (n.output? p.output) :
      Id Level) = n.drivenLevel (some p.output) := by
    rw [Network.drivenLevel, Option.bind_some]
    cases n.output? p.output <;> rfl
  simp only [record, recordM, Store.output?, pure_bind, hlevel]
  exact congrArg Monitors.mk (List.idRun_mapM ..)

end Monitors

end Breadboard
