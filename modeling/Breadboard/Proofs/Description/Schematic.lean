import Breadboard.Proofs.Description.Grammar

/-!
# Schematics

A schematic is a circuit as a reader of its description draws it: parts with names, each with its
inputs and the outputs that are drawn to them, and the outputs to watch. Nothing in it is numbered,
and nothing has happened to it.

What a script says is carried out statement by statement. An act says when a statement is allowed,
which is the rule of its kind, and what the schematic is after it. Only the `devices` section makes
names. In an `init` section a name that was never met is the name of no device, and a range may not
be written with one. A text denotes a schematic when it is scanned without a fault, is spelled by
the grammar, has its sections in order, and is allowed from beginning to end (`Denotes`).
-/

set_option autoImplicit false
set_option relaxedAutoImplicit false

namespace Breadboard.Description

/-- What a part is, with what is set about it. -/
inductive Component
  | gate (gate : Gate)
  | switch (level : Level)
  | clock (halfPeriod : Nat)
  | flipFlop
deriving DecidableEq

namespace Component

/-- A part as it is when nothing is set about it. -/
def ofKind : Kind → Component
  | .gate g => .gate g
  | .switch => .switch Level.low
  | .clock => .clock 1
  | .flipFlop => .flipFlop

/-- The kind of a part. -/
def kind : Component → Kind
  | .gate g => .gate g
  | .switch _ => .switch
  | .clock _ => .clock
  | .flipFlop => .flipFlop

/-- The element of a device that is such a part, before anything happens to it. -/
def element : Component → Element
  | .gate g => .gate g Level.low
  | .switch level => .switch level
  | .clock halfPeriod => .clock halfPeriod 0 Level.low
  | .flipFlop => .flipFlop Level.low Level.low

/-- The outputs of a part: those of a flip-flop have names, and any other part has one without. -/
def HasOutput : Component → Option String → Prop
  | .flipFlop, port => port = some "Q" ∨ port = some "QBAR"
  | _, port => port = none

end Component

/-- An input of a part, with the output that is drawn to it, if any is. -/
structure Inlet where
  port : String
  driver : Option OutputName := none
deriving DecidableEq

/-- Inputs that nothing is drawn to. -/
def openInlets (ports : List String) : List Inlet :=
  ports.map fun port ↦ { port }

/-- The names of so many inputs of a gate. -/
def inputNames (count : Nat) : List String :=
  (List.range' 1 count).map Ports.inputName

/-- The names of the inputs that a part has from the start. -/
def firstInputNames : Kind → List String
  | .gate .not => inputNames 1
  | .gate .xor => inputNames 2
  | .flipFlop => ["CLK", "DATA", "SET", "CLEAR"]
  | _ => []

/-- A part of a schematic. -/
structure Part where
  name : String
  component : Component
  inlets : List Inlet := []
deriving DecidableEq

namespace Part

/-- A part that is only just there. -/
def fresh (name : String) (kind : Kind) : Part where
  name := name
  component := .ofKind kind
  inlets := openInlets (firstInputNames kind)

/-- Whether a part may be given so many inputs. An AND, NAND, OR or NOR gate is given from one to
sixteen, once. An XOR or NOT gate may be told the number that it has. -/
def MayHave (part : Part) (count : Nat) : Prop :=
  match part.component with
  | .gate .and | .gate .nand | .gate .or | .gate .nor =>
    part.inlets = [] ∧ 1 ≤ count ∧ count ≤ 16
  | .gate .xor => count = 2
  | .gate .not => count = 1
  | .switch _ | .clock _ | .flipFlop => False

/-- A part that is given so many inputs. -/
def give (count : Nat) (part : Part) : Part :=
  match part.component with
  | .gate .xor | .gate .not => part
  | _ => { part with inlets := openInlets (inputNames count) }

/-- The input with a given name. -/
def inlet? (part : Part) (port : String) : Option Inlet :=
  part.inlets.find? (·.port == port)

/-- A part with an output drawn to one of its inputs. -/
def drive (input : String) (source : OutputName) (part : Part) : Part :=
  { part with
    inlets := part.inlets.map fun inlet ↦
      if inlet.port = input then { inlet with driver := some source } else inlet }

end Part

/-- Parts in the order of their definition, and the outputs to watch. -/
structure Schematic where
  parts : List Part := []
  watched : List OutputName := []
deriving DecidableEq

namespace Schematic

/-- The part with a given name. -/
def part? (s : Schematic) (name : String) : Option Part :=
  s.parts.find? (·.name == name)

/-- Whether an output is there. -/
def HasOutput (s : Schematic) (output : OutputName) : Prop :=
  ∃ part, s.part? output.device = some part ∧ part.component.HasOutput output.port

/-- The schematic with one part replaced by what a function makes of it. -/
def modify (s : Schematic) (name : String) (f : Part → Part) : Schematic :=
  { s with parts := s.parts.map fun part ↦ if part.name = name then f part else part }

/-- Every part that is no switch and no clock has inputs. -/
def HasInputs (s : Schematic) : Prop :=
  ∀ part ∈ s.parts, part.component.kind ≠ .switch → part.component.kind ≠ .clock → part.inlets ≠ []

/-- Every input has an output drawn to it. -/
def IsConnected (s : Schematic) : Prop :=
  ∀ part ∈ s.parts, ∀ inlet ∈ part.inlets, inlet.driver ≠ none

/-- When the `devices` section ends every part has the inputs that it needs, and when the
`connections` section ends every input has a driver. -/
def MayClose (s : Schematic) : Heading → Prop
  | .devices => s.HasInputs
  | .connections => s.IsConnected
  | .monitor | .init => True

end Schematic

/-- What a script has come to so far: the schematic, and the names that were met. The names of ports
are met from the start. -/
structure Draft where
  schematic : Schematic := {}
  met : List String := inputNames 16 ++ ["CLK", "DATA", "SET", "CLEAR", "Q", "QBAR"]

/-! ### Statements carried out -/

/-- When a statement is allowed, and what it leaves behind. -/
structure Act (σ α : Type) where
  allowed : σ → α → Prop
  after : σ → α → σ

namespace Act

variable {σ α : Type}

/-- Whether some statements one after another are allowed. -/
def AllAllowed (act : Act σ α) : σ → List α → Prop
  | _, [] => True
  | s, item :: items => act.allowed s item ∧ act.AllAllowed (act.after s item) items

/-- Some statements one after another. -/
def each (act : Act σ α) : Act σ (List α) where
  allowed := act.AllAllowed
  after s items := items.foldl act.after s

/-- A statement that is about the schematic of a draft alone. -/
def drawn (act : Act Schematic α) : Act Draft α where
  allowed d item := act.allowed d.schematic item
  after d item := { d with schematic := act.after d.schematic item }

/-- What is said of one device: a name is defined once, and all else is said of a part that is there
and is of the right kind. -/
def declare (clause : Clause) : Act Schematic String where
  allowed s name :=
    match clause with
    | .define _ => s.part? name = none
    | .inputs count => ∃ part, s.part? name = some part ∧ part.MayHave count
    | .halfPeriod _ => ∃ part, s.part? name = some part ∧ part.component.kind = .clock
    | .level _ => ∃ part, s.part? name = some part ∧ part.component.kind = .switch
  after s name :=
    match clause with
    | .define kind => { s with parts := s.parts ++ [Part.fresh name kind] }
    | .inputs count => s.modify name (Part.give count)
    | .halfPeriod cycles => s.modify name fun part ↦ { part with component := .clock cycles }
    | .level level => s.modify name fun part ↦ { part with component := .switch level }

/-- A sentence says the same of each of its devices. A range has to be one, and a half-period is at
least one cycle. -/
def sentence : Act Schematic Sentence where
  allowed s sentence :=
    (∀ cycles, sentence.clause = .halfPeriod cycles → 1 ≤ cycles) ∧
      ∃ names, sentence.names.names? = some names ∧
        (declare sentence.clause).each.allowed s names
  after s sentence :=
    (declare sentence.clause).each.after s (sentence.names.names?.getD [])

/-- A sentence of the `devices` section. Its names are met from then on. -/
def introduce : Act Draft Sentence where
  allowed d := sentence.allowed d.schematic
  after d item := ⟨sentence.after d.schematic item, d.met ++ item.names.met⟩

/-- A sentence of an `init` section, where names are only looked up. Beside the rule of the sentence
there is one of the names that it is written with: each of them has to be met, even where a range
stands for other names, without the leading zeros. A name is met where a `devices` section is
written with it, whatever it is the name of. -/
def adjust : Act Draft Sentence where
  allowed d item := (∀ name ∈ item.names.written, name ∈ d.met) ∧ sentence.allowed d.schematic item
  after := sentence.drawn.after

/-- A connection goes from an output to an input that has no driver. -/
def link : Act Schematic Link where
  allowed s link :=
    s.HasOutput link.source ∧ ∃ part inlet, s.part? link.target = some part ∧
      part.inlet? link.input = some inlet ∧ inlet.driver = none
  after s link := s.modify link.target (Part.drive link.input link.source)

/-- A block is for a device. -/
def block : Act Draft Block where
  allowed d block := (d.schematic.part? block.device).isSome ∧ link.drawn.each.allowed d block.links
  after d block := link.drawn.each.after d block.links

/-- An output is watched once. -/
def mark : Act Schematic OutputName where
  allowed s output := s.HasOutput output ∧ output ∉ s.watched
  after s output := { s with watched := s.watched ++ [output] }

/-- Every output of a demand is watched. -/
def watch : Act Draft Watch where
  allowed d watch := mark.drawn.each.allowed d watch.outputs
  after d watch := mark.drawn.each.after d watch.outputs

/-- What stands between the braces of a section. -/
def body : Act Draft Section where
  allowed d
    | .devices sentences => introduce.each.allowed d sentences
    | .init sentences => adjust.each.allowed d sentences
    | .connections blocks => block.each.allowed d blocks
    | .monitor watches => watch.each.allowed d watches
  after d
    | .devices sentences => introduce.each.after d sentences
    | .init sentences => adjust.each.after d sentences
    | .connections blocks => block.each.after d blocks
    | .monitor watches => watch.each.after d watches

/-- A section, which has to leave behind what its end asks for. -/
def part : Act Draft Section where
  allowed d part := body.allowed d part ∧ (body.after d part).schematic.MayClose part.heading
  after := body.after

/-- A whole script. -/
def script : Act Draft Script :=
  part.each

/-- What stands between the braces of a section, when nothing is asked of the names that an `init`
section is written with. -/
def bareBody : Act Draft Section where
  allowed d
    | .init sentences => sentence.drawn.each.allowed d sentences
    | part => body.allowed d part
  after := body.after

/-- A whole script, by the rules of its statements alone. -/
def bareScript : Act Draft Script :=
  each {
    allowed := fun d part ↦
      bareBody.allowed d part ∧ (bareBody.after d part).schematic.MayClose part.heading
    after := bareBody.after }

variable {act : Act Schematic α} {d : Draft} {items : List α}

theorem allowed_each_drawn :
    act.drawn.each.allowed d items ↔ act.each.allowed d.schematic items := by
  induction items generalizing d with
  | nil => exact Iff.rfl
  | cons item items ih => exact and_congr_right fun _ ↦ ih

theorem after_each_drawn :
    act.drawn.each.after d items = { d with schematic := act.each.after d.schematic items } := by
  induction items generalizing d with
  | nil => rfl
  | cons item items ih => exact ih

end Act

/-- A text that says of a schematic what it is: it has no lexical fault, its symbols spell a script
with its sections in order, and the script is allowed and ends in the schematic. -/
def Denotes (text : String) (s : Schematic) : Prop :=
  ∃ (tokens : List Token) (script : Script),
    (Cursor.start text).readings.1 = tokens.map Reading.token ∧
    ScriptSpelled script (tokens.map Token.symbol) ∧ script.InOrder ∧
    Act.script.allowed {} script ∧ (Act.script.after {} script).schematic = s

end Breadboard.Description
