import Breadboard.Text.Basic

/-!
# Levels and kinds of device

A wire carries one of two levels. A drawn trace shows a high level as `-` and a low one as `_`.

A device is a gate, a switch, a clock or a D-type flip-flop. A gate's output is a function of its
inputs. The kinds that have a fixed number of inputs have them from the start; an AND, NAND, OR or
NOR gate is given its inputs once.
-/

set_option autoImplicit false
set_option relaxedAutoImplicit false

namespace Breadboard

/-! ### Levels -/

/-- The level of a wire: `true` is high, `false` is low. -/
abbrev Level := Bool

namespace Level

/-- The low level, which every undriven input reads. -/
abbrev low : Level := false

/-- The high level. -/
abbrev high : Level := true

/-- The character that stands for a level in a drawn trace. -/
def mark (level : Level) : Char :=
  if level then '-' else '_'

end Level

/-! ### Kinds -/

/-- A combinational device. -/
inductive Gate
  | and
  | nand
  | or
  | nor
  | xor
  | not
deriving DecidableEq

namespace Gate

/-- The output of a gate whose inputs have the given levels. XOR is the parity of its inputs. NOT
reads its first input alone, and an absent one as low. -/
def evaluate : Gate → List Level → Level
  | .and, inputs => inputs.all id
  | .nand, inputs => !inputs.all id
  | .or, inputs => inputs.any id
  | .nor, inputs => !inputs.any id
  | .xor, inputs => inputs.count Level.high % 2 == 1
  | .not, inputs => !inputs.headD Level.low

/-- The number of inputs of a gate that may have no other number. -/
def inputCount? : Gate → Option Nat
  | .xor => some 2
  | .not => some 1
  | _ => none

end Gate

/-- What a device is. -/
inductive Kind
  | gate (gate : Gate)
  | switch
  | clock
  | flipFlop
deriving DecidableEq

namespace Kind

/-- Every kind. -/
def all : List Kind :=
  [gate .and, gate .nand, gate .or, gate .nor, gate .xor, gate .not, switch, clock, flipFlop]

/-- The word for a kind. -/
def keyword : Kind → String
  | .gate .and => "AND"
  | .gate .nand => "NAND"
  | .gate .or => "OR"
  | .gate .nor => "NOR"
  | .gate .xor => "XOR"
  | .gate .not => "NOT"
  | .switch => "SWITCH"
  | .clock => "CLOCK"
  | .flipFlop => "DTYPE"

/-- The kind that a word stands for, in any letter case. -/
def ofKeyword? (word : String) : Option Kind :=
  all.find? fun kind ↦ Text.sameWord kind.keyword word

/-- The number of inputs of a kind that has no choice of it. -/
def inputCount? : Kind → Option Nat
  | .gate g => g.inputCount?
  | .switch | .clock => some 0
  | .flipFlop => some 4

/-- Whether a device of the kind has to be given its inputs. -/
def hasVariableInputs (kind : Kind) : Bool :=
  kind.inputCount?.isNone

/-- Whether the kind takes no inputs at all. -/
def isSource (kind : Kind) : Bool :=
  kind.inputCount? == some 0

/-- The output of a device of the kind, where it depends on nothing but its inputs. -/
def evaluate? : Kind → List Level → Option Level
  | .gate g, inputs => some (g.evaluate inputs)
  | _, _ => none

end Kind

end Breadboard
