import Breadboard.Diagnostic
import Breadboard.Monitors

/-!
# Failures

What a user of the simulator is told when something cannot be done.
-/

set_option autoImplicit false
set_option relaxedAutoImplicit false

namespace Breadboard

/-- Why a file gives no text. -/
inductive FileFault
  | notFound
  | invalidData
deriving DecidableEq

/-- Why a request fails. -/
inductive Failure
  | fileRead (path : String) (fault : FileFault)
  | invalidCircuit (diagnostics : List Diagnostic)
  | oscillation (iterations : Nat)
  | deviceAbsent (device : String)
  | notASwitch (device : String)
  | unknownSignal (signal : String)
  | monitorRefused (signal : String) (error : MonitorError)
deriving DecidableEq

/-- The wording of a failure. What the system has to say of a file is left to the system. -/
def Failure.message : Failure → String
  | .fileRead path _ => "Failed to read circuit file '" ++ path ++ "': "
  | .invalidCircuit diagnostics =>
    "Circuit description contains " ++ toString diagnostics.length ++ " error(s)"
  | .oscillation iterations =>
    "Network is oscillating: no stable state after " ++ toString iterations ++ " iterations"
  | .deviceAbsent device => "Device '" ++ device ++ "' does not exist"
  | .notASwitch device => "Device '" ++ device ++ "' is not a SWITCH"
  | .unknownSignal signal => "Unknown signal '" ++ signal ++ "'"
  | .monitorRefused signal error => "Cannot monitor '" ++ signal ++ "': " ++ error.message

end Breadboard
