import Breadboard.Description.Section
import Breadboard.Failure

/-!
# Circuits

A circuit is what an accepted description says, powered on. A description with anything wrong in it
gives its diagnostics and no circuit.
-/

set_option autoImplicit false
set_option relaxedAutoImplicit false

namespace Breadboard

open Description

/-- A network with the names of its devices and the outputs to watch. The network may be kept in any
form. -/
structure Circuit (σ : Type := Network) where
  names : Names
  network : σ
  monitors : Monitors
deriving DecidableEq

namespace Circuit

section Operations

variable {m : Type → Type} [Fallback m] {σ : Type} [Store m σ]

/-- What becomes of a description from the start, before it is powered on. -/
def buildM (text : String) (settings : Settings) : m (Builder σ) := do
  let (ports, names) := Ports.intern {}
  let network ← Store.empty ports settings
  (Builder.start names network {} text).parseM

/-- The circuit of a description. -/
def loadM (text : String) (settings : Settings) : m (Except Failure (Circuit σ)) := do
  let b : Builder σ ← buildM text settings
  if b.inOrder then return .ok ⟨b.reader.names, ← Store.powerOn b.network, b.monitors⟩
  else return .error (.invalidCircuit (b.diagnostics text))

end Operations

/-- A name table with the port names, and a network without devices. -/
def blank (names : Names) (settings : Settings) : Names × Network :=
  let (ports, names) := Ports.intern names
  (names, { ports, settings })

/-- What becomes of a description from the start, before it is powered on. -/
def build (text : String) (settings : Settings) : Builder :=
  Id.run (buildM text settings)

/-- The circuit of a description. -/
def load (text : String) (settings : Settings := {}) : Except Failure Circuit :=
  Id.run (loadM text settings)

theorem build_eq (text : String) (settings : Settings) : build text settings =
    (Builder.start (blank {} settings).1 (blank {} settings).2 {} text).parse := rfl

theorem load_eq (text : String) (settings : Settings) : load text settings =
    if (build text settings).inOrder then
      .ok ⟨(build text settings).reader.names, (build text settings).network.powerOn,
        (build text settings).monitors⟩
    else .error (.invalidCircuit ((build text settings).diagnostics text)) :=
  apply_ite Id.run ..

/-- The circuit of a file with the given contents, or of none at its path. -/
def ofFile (path : String) (contents : Option ByteArray) : Except Failure Circuit :=
  match contents with
  | none => .error (.fileRead path .notFound)
  | some bytes =>
    match String.fromUTF8? bytes with
    | none => .error (.fileRead path .invalidData)
    | some text => load text

end Circuit

end Breadboard
