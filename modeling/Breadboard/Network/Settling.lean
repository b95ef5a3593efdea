import Breadboard.Network.Basic

/-!
# Settling

A network is stable when the output of every gate is the function of its inputs that its kind says.
A pass goes through the gates in the order of their declaration, sets each output from the levels as
they stand, and notes whether any output changed. Settling repeats passes until one changes nothing,
and gives up when the passes that it is allowed are used up.

An activity that may find no rest gives an `Except Network Network`: the network at rest, or as an
error the network as it was left.
-/

set_option autoImplicit false
set_option relaxedAutoImplicit false

namespace Breadboard

namespace Network

/-- A device agrees with a network when it is no gate or its output is what its inputs ask for. -/
def Agrees (n : Network) (d : Device) : Prop :=
  match d.element with
  | .gate g output => output = g.evaluate (n.pinLevels d)
  | _ => True

instance (n : Network) (d : Device) : Decidable (n.Agrees d) := by
  unfold Agrees
  split <;> infer_instance

/-- Every gate's output is what its inputs ask for. -/
def Stable (n : Network) : Prop :=
  ∀ d ∈ n.devices, n.Agrees d

instance (n : Network) : Decidable n.Stable :=
  inferInstanceAs (Decidable (∀ d ∈ n.devices, n.Agrees d))

/-- Every device takes its turn, in the order of declaration, on the network as the turns before
left it. The flag says whether any turn changed anything. -/
def sweep (turn : Network → Device → Network × Bool) (n : Network) : Network × Bool :=
  n.devices.foldl
    (fun state d ↦ ((turn state.1 d).1, state.2 || (turn state.1 d).2)) (n, false)

/-- A device's turn in a pass: the output of a gate is set from the levels as they stand. The flag
says whether that changes it. -/
def refresh (n : Network) (d : Device) : Network × Bool :=
  match d.element with
  | .gate g output =>
    let level := g.evaluate (n.pinLevels d)
    (n.update d.id (Device.mapElement fun _ ↦ .gate g level), level != output)
  | _ => (n, false)

/-- One pass over the gates, and whether it changed anything. -/
def pass (n : Network) : Network × Bool :=
  n.sweep refresh

/-- The network that an activity ends with, at rest or not. -/
def finalState : Except Network Network → Network
  | .ok n => n
  | .error n => n

/-- At most so many passes, up to the first that changes nothing. -/
def settleWithin : Nat → Network → Except Network Network
  | 0, n => .error n
  | passes + 1, n =>
    match n.pass with
    | (next, true) => settleWithin passes next
    | (next, false) => .ok next

/-- The network brought to rest, within its limit. -/
def settle (n : Network) : Except Network Network :=
  settleWithin n.iterationLimit n

end Network

end Breadboard
