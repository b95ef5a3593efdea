import Breadboard.Names

/-!
# Port names

The inputs of a gate are `I1` to `I16`. A flip-flop has the inputs `CLK`, `DATA`, `SET` and `CLEAR`
and the outputs `Q` and `QBAR`. Port names live in the same table as all other names.
-/

set_option autoImplicit false
set_option relaxedAutoImplicit false

namespace Breadboard

/-- The most inputs that a gate can have. -/
def maxInputs : Nat := 16

/-- The numbers of the port names. -/
structure Ports where
  inputs : List NameId
  clk : NameId
  data : NameId
  set : NameId
  clear : NameId
  q : NameId
  qbar : NameId
deriving DecidableEq

namespace Ports

/-- The name of the gate input with a given number, counted from one. -/
def inputName (n : Nat) : String :=
  "I" ++ toString n

/-- The port names, each added to the table if it is not there. -/
def intern (names : Names) : Ports × Names :=
  let (inputs, names) := names.internAll ((List.range' 1 maxInputs).map inputName)
  let (clk, names) := names.intern "CLK"
  let (data, names) := names.intern "DATA"
  let (set, names) := names.intern "SET"
  let (clear, names) := names.intern "CLEAR"
  let (q, names) := names.intern "Q"
  let (qbar, names) := names.intern "QBAR"
  (⟨inputs, clk, data, set, clear, q, qbar⟩, names)

/-- The gate input with a given number, counted from one. -/
def input? (ports : Ports) : Nat → Option NameId
  | 0 => none
  | n + 1 => ports.inputs[n]?

end Ports

end Breadboard
