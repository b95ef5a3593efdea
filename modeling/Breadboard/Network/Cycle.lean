import Breadboard.Network.Settling

/-!
# Cycles

In a cycle the gates settle, the clocks tick, the gates settle again, and every flip-flop with a
rising clock takes its new level. Where that changes a flip-flop, the gates settle a last time. What
a flip-flop takes depends on the levels after the first settling, before the clocks moved; whether
it takes it depends on its clock now and on its clock level at the end of the last cycle.
-/

set_option autoImplicit false
set_option relaxedAutoImplicit false

namespace Breadboard

namespace Network

/-- One tick of every clock. -/
def tick (n : Network) : Network :=
  n.mapDevices (Device.mapElement Element.tick)

/-- The level that a flip-flop takes on an edge: SET wins over CLEAR, and CLEAR over DATA. -/
def nextLevel (n : Network) (d : Device) : Level :=
  if n.inputLevel d n.ports.set then Level.high
  else if n.inputLevel d n.ports.clear then Level.low
  else n.inputLevel d n.ports.data

/-- A device's turn to latch: a flip-flop whose clock was low and is high takes the level that it
had ahead of it in `sampled`. The flag says whether that changes its level. -/
def latchOne (sampled n : Network) (d : Device) : Network × Bool :=
  match d.element with
  | .flipFlop q lastClock =>
    if lastClock = Level.low ∧ n.inputLevel d n.ports.clk = Level.high then
      let level := sampled.nextLevel d
      (n.update d.id (Device.mapElement fun _ ↦ .flipFlop level lastClock), level != q)
    else (n, false)
  | _ => (n, false)

/-- The flip-flops take their new levels one after another. A clock that is the output of a
flip-flop is read as it stands when its turn comes. -/
def latch (sampled n : Network) : Network × Bool :=
  n.sweep (latchOne sampled)

/-- The network with every flip-flop remembering its clock level. -/
def rememberClocks (n : Network) : Network :=
  n.mapDevices fun d ↦ d.mapElement (Element.remember (n.inputLevel d n.ports.clk))

/-- The gates settled once more where flip-flops changed. -/
def settleIf : Network × Bool → Except Network Network
  | (n, true) => n.settle
  | (n, false) => .ok n

/-- One cycle. -/
def cycle (n : Network) : Except Network Network := do
  let start ← n.settle
  let ticked ← start.tick.settle
  let rested ← settleIf (latch start ticked)
  return rested.rememberClocks

/-- The network settled as far as it goes, with the clock levels taken for seen. -/
def powerOn (n : Network) : Network :=
  (finalState n.settle).rememberClocks

/-- Every device at time zero, with no level passed on yet. -/
def clearDevices (n : Network) : Network :=
  n.mapDevices (Device.mapElement Element.reset)

/-- The network at time zero. -/
def reset (n : Network) : Network :=
  n.clearDevices.powerOn

end Network

end Breadboard
