import Breadboard.Fallback
import Breadboard.Network.Connection
import Breadboard.Network.Cycle
import Breadboard.Network.Declaration

/-!
# Keeping a network

A program that builds a network and runs it asks a few things of it: to take what is declared and
connected, to run and to rewind, and to say what there is. `Store m σ` is what can be asked of a
network that is kept in the form `σ`, carried out in the monad `m`. A network is such a form itself,
in which nothing is ever missing.
-/

set_option autoImplicit false
set_option relaxedAutoImplicit false

namespace Breadboard

/-- What is asked of a network that is kept in some form. -/
class Store (m : Type → Type) (σ : Type) where
  /-- The network without devices. -/
  empty (ports : Ports) (settings : Settings) : m σ
  /-- The network that is kept. -/
  network (kept : σ) : m Network
  /-- Whether there is a device with a given name. -/
  contains (kept : σ) (id : NameId) : m Bool
  /-- Whether a device has an output, if there is such a device. -/
  hasOutput? (kept : σ) (output : Terminal) : m (Option Bool)
  /-- The level of an output. -/
  output? (kept : σ) (output : Terminal) : m (Option Level)
  /-- What comes of a statement about one device. -/
  declare (kept : σ) (id : NameId) (clause : Clause) : m (Except DeclarationError σ)
  /-- What comes of a connection. -/
  connect (kept : σ) (source : Terminal) (target input : NameId) : m (Except ConnectionError σ)
  /-- What comes of setting a switch. -/
  setSwitch? (kept : σ) (id : NameId) (level : Level) : m (Option σ)
  /-- What one cycle leaves. It is an error where the gates find no rest. -/
  cycle (kept : σ) : m (Except σ σ)
  /-- What powering on leaves. -/
  powerOn (kept : σ) : m σ
  /-- What is left at time zero. -/
  reset (kept : σ) : m σ

instance {m : Type → Type} [Monad m] : Store m Network where
  empty ports settings := return { ports, settings }
  network n := return n
  contains n id := return n.contains id
  hasOutput? n output := return (n.device? output.device).map fun d ↦
    (d.output? n.ports output.port).isSome
  output? n output := return n.output? output
  declare n id clause := return n.declare id clause
  connect n source target input := return n.connect source target input
  setSwitch? n id level := return n.setSwitch? id level
  cycle n := return n.cycle
  powerOn n := return n.powerOn
  reset n := return n.reset

/-- The device with a given name. -/
def Names.deviceM? {m : Type → Type} [Monad m] {σ : Type} [Store m σ] (names : Names) (kept : σ)
    (name : String) : m (Option NameId) := do
  match names.query name with
  | none => return none
  | some id => return if ← Store.contains kept id then some id else none

theorem Names.run_deviceM? (names : Names) (n : Network) (name : String) :
    Id.run (names.deviceM? n name) = (names.query name).filter n.contains := by
  rw [deviceM?]
  cases names.query name with
  | none => rfl
  | some id => rw [Option.filter_some]; rfl

end Breadboard
