import Breadboard.Text.Basic

/-!
# The words of the language

A description is made of sections, each under a heading. A heading may be written in any letter
case, a keyword in small letters only. A filler word makes a statement read like English and means
nothing.
-/

set_option autoImplicit false
set_option relaxedAutoImplicit false

namespace Breadboard.Description

/-- The heading of a section. -/
inductive Heading
  | devices
  | connections
  | monitor
  | init
deriving DecidableEq

namespace Heading

/-- Every heading. -/
def all : List Heading :=
  [devices, connections, monitor, init]

/-- The word of a heading, in small letters. -/
def word : Heading → String
  | .devices => "devices"
  | .connections => "connections"
  | .monitor => "monitor"
  | .init => "init"

/-- The heading that a word is. -/
def ofWord? (word : String) : Option Heading :=
  all.find? fun heading ↦ Text.sameWord heading.word word

end Heading

/-- A word that shapes a statement. -/
inductive Keyword
  | are
  | is
  | haveWord
  | has
  | set
  | toWord
  | cycle
  | device
  | trace
deriving DecidableEq

namespace Keyword

/-- Every keyword. -/
def all : List Keyword :=
  [are, is, haveWord, has, set, toWord, cycle, device, trace]

/-- The word of a keyword. -/
def word : Keyword → String
  | .are => "are"
  | .is => "is"
  | .haveWord => "have"
  | .has => "has"
  | .set => "set"
  | .toWord => "to"
  | .cycle => "cycle"
  | .device => "device"
  | .trace => "trace"

/-- The keyword that a word is. -/
def ofWord? (word : String) : Option Keyword :=
  all.find? (·.word == word)

end Keyword

/-- The words that mean nothing. -/
def fillers : List String :=
  ["gate", "gates", "a", "an", "some", "initially", "input", "inputs", "connected"]

/-- Whether a word means nothing. -/
def isFiller (word : String) : Bool :=
  fillers.contains word

end Breadboard.Description
