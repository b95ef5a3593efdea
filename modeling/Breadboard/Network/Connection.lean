import Breadboard.Network.Basic

/-!
# Connections

A connection lets an output drive an input. An input takes one driver and keeps it.
-/

set_option autoImplicit false
set_option relaxedAutoImplicit false

namespace Breadboard

/-- Why a connection is refused. -/
inductive ConnectionError
  | deviceAbsent
  /-- The source names an input. -/
  | inputToInput
  | notAnInput
  | notAnOutput
  | inputConnected
deriving DecidableEq

/-- The wording of a refusal. -/
def ConnectionError.message : ConnectionError → String
  | .deviceAbsent => "device does not exist"
  | .inputToInput => "an input cannot drive another input"
  | .notAnInput | .notAnOutput => "port does not exist"
  | .inputConnected => "input is already connected"

namespace Network

/-- What stands in the way of a connection from an output to an input of a device. Of several
reasons the first in this order counts. -/
def connectionError? (n : Network) (source : Terminal) (target input : NameId) :
    Option ConnectionError :=
  match n.device? source.device, n.device? target with
  | some src, some dst =>
    if source.port.any fun port ↦ (src.pin? port).isSome then some .inputToInput
    else
      match dst.pin? input with
      | none => some .notAnInput
      | some pin =>
        if (src.output? n.ports source.port).isNone then some .notAnOutput
        else if pin.driver.isSome then some .inputConnected
        else none
  | _, _ => some .deviceAbsent

/-- The network with an output driving an input of a device. -/
def connect (n : Network) (source : Terminal) (target input : NameId) :
    Except ConnectionError Network :=
  match n.connectionError? source target input with
  | some refusal => .error refusal
  | none => .ok (n.update target (Device.drive input source))

end Network

end Breadboard
