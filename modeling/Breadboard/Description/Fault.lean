import Breadboard.Description.Cursor
import Breadboard.Description.Range
import Breadboard.Diagnostic
import Breadboard.Monitors
import Breadboard.Network.Connection
import Breadboard.Network.Declaration
import Breadboard.Text.Lines

/-!
# What can be wrong with a description

A fault is a cause, with the names it is about. A report places it in the text, and becomes a
diagnostic there.
-/

set_option autoImplicit false
set_option relaxedAutoImplicit false

namespace Breadboard.Description

open Text (Position)

/-- What was looked for where something else stands. -/
inductive Expectation
  | heading
  | openBrace
  | sectionEnd
  | blockEnd
  | semicolon
  | keyword (keyword : Keyword)
  | number
  | deviceName
  | portName
  | inputName
  | deviceType
  | typeWord
  | verb
deriving DecidableEq

/-- The wording of an expectation. -/
def Expectation.phrase : Expectation → String
  | .heading => "a section heading"
  | .openBrace => "'\x7b'"
  | .sectionEnd => "'\x7d' to close the section"
  | .blockEnd => "'\x7d' to close the device block"
  | .semicolon => "';'"
  | .keyword word => "'" ++ word.word ++ "'"
  | .number => "a number"
  | .deviceName => "a device name"
  | .portName => "a port name"
  | .inputName => "'.' and an input name"
  | .deviceType => "a device type"
  | .typeWord => "'TYPE' after 'D-'"
  | .verb => "'is', 'are', 'has', 'have' or 'set'"

/-- What is wrong in a description. -/
inductive Fault
  | lexical (fault : LexicalFault)
  | expected (what : Expectation) (found : Option String)
  | unknownDevice (name : String)
  | unknownPort (name : String)
  | range (error : RangeError)
  | unknownType (name : String)
  | reservedType
  | zeroCycle
  | switchLevel (value : Nat)
  | notInInit
  | beforeDevices (heading : Heading)
  | duplicate (heading : Heading)
  | missing (heading : Heading)
  | declaration (name : String) (error : DeclarationError)
  | withoutInputs (name : String)
  | outsideBlock (target block : String)
  | connection (device source input : String) (error : ConnectionError)
  | unconnected (input : String)
  | monitor (device output : String) (error : MonitorError)
deriving DecidableEq

namespace Fault

/-- The wording of a refused connection from an output of a device to an input. -/
def connectionMessage (device source input : String) : ConnectionError → String
  | .deviceAbsent => "device '" ++ device ++ "' does not exist"
  | .inputToInput => "'" ++ source ++ "' is an input and cannot drive '" ++ input ++ "'"
  | .notAnInput => "'" ++ input ++ "' is not an input"
  | .notAnOutput => "'" ++ source ++ "' is not an output"
  | .inputConnected => "input '" ++ input ++ "' is already connected"

/-- The wording of a refused monitor on an output of a device. -/
def monitorMessage (device output : String) : MonitorError → String
  | .deviceAbsent => "device '" ++ device ++ "' does not exist"
  | .notAnOutput => "'" ++ output ++ "' is not an output"
  | .alreadyMonitored => "already monitoring '" ++ output ++ "'"

/-- The wording of a fault. -/
def message : Fault → String
  | .lexical fault => fault.message
  | .expected what none => "expected " ++ what.phrase ++ ", found end of file"
  | .expected what (some found) => "expected " ++ what.phrase ++ ", found '" ++ found ++ "'"
  | .unknownDevice name => "device '" ++ name ++ "' does not exist"
  | .unknownPort name => "port '" ++ name ++ "' does not exist"
  | .range error => error.message
  | .unknownType name => "unknown device type '" ++ name ++ "'"
  | .reservedType => "device type 'RC' is reserved and not supported"
  | .zeroCycle => "clock cycle must be at least 1"
  | .switchLevel value => "switch level must be 0 or 1, not " ++ toString value
  | .notInInit => "only 'set' and 'has cycle' statements are allowed in the 'init' section"
  | .beforeDevices heading =>
    "'" ++ heading.word ++ "' section found before the 'devices' section"
  | .duplicate heading => "duplicate '" ++ heading.word ++ "' section"
  | .missing heading => "missing '" ++ heading.word ++ "' section"
  | .declaration name error => error.message name
  | .withoutInputs name => "device '" ++ name ++ "' has no inputs"
  | .outsideBlock target block =>
    "connection to '" ++ target ++ "' inside the block for device '" ++ block ++ "'"
  | .connection device source input error => connectionMessage device source input error
  | .unconnected input => "all inputs must be connected: '" ++ input ++ "' is not connected"
  | .monitor device output error => monitorMessage device output error

/-- The category of a refused range. -/
def rangeCategory : RangeError → Category
  | .missingSuffix _ | .suffixTooLarge _ | .inconsistentBases .. => .form
  | .descending .. => .value
  | .tooLong _ => .meaning

/-- The category of a fault. -/
def category : Fault → Category
  | .lexical _ | .expected .. | .unknownType _ | .notInInit | .beforeDevices _ | .duplicate _
  | .missing _ | .outsideBlock .. => .form
  | .unknownDevice _ | .unknownPort _ | .reservedType | .zeroCycle | .switchLevel _
  | .declaration .. | .withoutInputs _ | .connection .. | .unconnected _ | .monitor .. => .meaning
  | .range error => rangeCategory error

end Fault

/-- A fault and its place. -/
structure Report where
  fault : Fault
  position : Position
deriving DecidableEq

/-- A diagnostic in a text with the given lines. -/
def diagnosticAt (lines : List (List Char)) (category : Category) (message : String)
    (position : Position) : Diagnostic :=
  ⟨category, message, position, Text.lineText lines position.line⟩

/-- The diagnostic of a report. -/
def Report.diagnostic (lines : List (List Char)) (report : Report) : Diagnostic :=
  diagnosticAt lines report.fault.category report.fault.message report.position

end Breadboard.Description
