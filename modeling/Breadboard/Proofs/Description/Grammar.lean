import Breadboard.Description.Cursor
import Breadboard.Description.Range
import Breadboard.Network.Declaration

/-!
# The grammar

A script is a list of sections, and a section a list of statements under a heading. What follows
says by which symbols each of them is spelled. Keywords that come in two forms, words that may be
left out, the letter case of a kind and the two spellings of `DTYPE` are for the writer to choose;
all else is determined.

```text
section  = heading '{' … '}'
sentence = names ('is' | 'are') kind ';'
         | names ('has' | 'have') NUMBER ';'
         | names ('has' | 'have') 'cycle' NUMBER ';'
         | names 'set' ['to'] ('0' | '1') ';'
names    = NAME {',' NAME} | NAME '=>' NAME
block    = 'device' NAME '{' {output 'to' NAME '.' NAME ';'} '}'
output   = NAME ['.' NAME]
watch    = ['trace'] output {',' output} ';'
```
-/

set_option autoImplicit false
set_option relaxedAutoImplicit false

namespace Breadboard.Description

/-- A lexeme without its place in the text. A name has its characters, all else has none. -/
structure Symbol where
  lexeme : Lexeme
  text : String := ""
deriving DecidableEq

/-- A name. -/
def Symbol.name (text : String) : Symbol :=
  ⟨.name, text⟩

/-- A keyword. -/
def Symbol.keyword (keyword : Keyword) : Symbol :=
  ⟨.keyword keyword, ""⟩

/-- A sign or a number. -/
def Symbol.sign (lexeme : Lexeme) : Symbol :=
  ⟨lexeme, ""⟩

/-- The symbol that stands in a place. -/
def Token.symbol (token : Token) : Symbol :=
  ⟨token.lexeme, if token.lexeme = .name then token.text else ""⟩

/-- Some items spelled one after another. -/
inductive Spelled {α : Type} (spells : α → List Symbol → Prop) : List α → List Symbol → Prop
  | nil : Spelled spells [] []
  | cons {item : α} {items : List α} {u v : List Symbol} : spells item u → Spelled spells items v →
    Spelled spells (item :: items) (u ++ v)

section Spelled

variable {α : Type} {spells : α → List Symbol → Prop} {items : List α} {used : List Symbol}

/-- Items that are spelled and have a property, one by one and all together. -/
theorem spelled_and_iff {p : α → Prop} :
    Spelled (fun item u ↦ spells item u ∧ p item) items used ↔
      Spelled spells items used ∧ ∀ item ∈ items, p item := by
  constructor
  · intro h
    induction h with
    | nil => exact ⟨.nil, nofun⟩
    | cons hitem _ ih => exact ⟨.cons hitem.1 ih.1, List.forall_mem_cons.mpr ⟨hitem.2, ih.2⟩⟩
  · rintro ⟨h, hp⟩
    induction h with
    | nil => exact .nil
    | cons hitem _ ih =>
      obtain ⟨hfirst, hrest⟩ := List.forall_mem_cons.mp hp
      exact .cons ⟨hitem, hfirst⟩ (ih hrest)

/-- Items with one spelling each. -/
theorem spelled_eq_iff {f : α → List Symbol} :
    Spelled (fun item u ↦ u = f item) items used ↔ used = items.flatMap f := by
  constructor
  · intro h
    induction h with
    | nil => rfl
    | cons hitem _ ih => rw [List.flatMap_cons, hitem, ih]
  · rintro rfl
    induction items with
    | nil => exact .nil
    | cons item items ih => exact .cons rfl ih

/-- What is spelled is spelled by some of the symbols. -/
theorem exists_spelled_of_mem (h : Spelled spells items used) {item : α} (hitem : item ∈ items) :
    ∃ u, spells item u ∧ u ⊆ used := by
  induction h with
  | nil => cases hitem
  | @cons first items u v hfirst _ ih =>
    rcases List.mem_cons.mp hitem with rfl | hitem
    · exact ⟨u, hfirst, List.subset_append_left u v⟩
    · obtain ⟨w, hw, hsubset⟩ := ih hitem
      exact ⟨w, hw, fun _ hsymbol ↦ List.mem_append_right u (hsubset hsymbol)⟩

end Spelled

/-! ### Sentences about devices -/

/-- The names of the devices that a sentence is about. -/
inductive NameList
  | several (first : String) (more : List String)
  | range (first last : String)

/-- The symbols of a list of names. -/
def NameList.symbols : NameList → List Symbol
  | .several first more => .name first :: more.flatMap fun other ↦ [.sign .comma, .name other]
  | .range first last => [.name first, .sign .arrow, .name last]

/-- The names that a list stands for, unless it is a range that is none. -/
def NameList.names? : NameList → Option (List String)
  | .several first more => some (first :: more)
  | .range first last => (expandRange first last).toOption

/-- The names that a list is written with. -/
def NameList.written : NameList → List String
  | .several first more => first :: more
  | .range first last => [first, last]

/-- The names that are met in a list: those it is written with, and those it stands for. -/
def NameList.met (list : NameList) : List String :=
  list.written ++ list.names?.getD []

/-- How a kind of device is spelled. -/
inductive KindSpelled : Kind → List Symbol → Prop
  | word {kind : Kind} {word : String} : Text.sameWord kind.keyword word →
    KindSpelled kind [.name word]
  | hyphened {d type : String} : Text.sameWord "D" d → Text.sameWord "TYPE" type →
    KindSpelled .flipFlop [.name d, .sign .minus, .name type]

/-- How what is said of a device is spelled. -/
inductive ClauseSpelled : Clause → List Symbol → Prop
  | define {verb : Keyword} {kind : Kind} {u : List Symbol} : verb = .is ∨ verb = .are →
    KindSpelled kind u → ClauseSpelled (.define kind) (.keyword verb :: u)
  | inputs {verb : Keyword} {count : Nat} : verb = .has ∨ verb = .haveWord →
    ClauseSpelled (.inputs count) [.keyword verb, .sign (.number count)]
  | halfPeriod {verb : Keyword} {cycles : Nat} : verb = .has ∨ verb = .haveWord →
    ClauseSpelled (.halfPeriod cycles)
      [.keyword verb, .keyword .cycle, .sign (.number cycles)]
  | level {level : Level} {optional : List Symbol} : optional = [] ∨ optional = [.keyword .toWord] →
    ClauseSpelled (.level level)
      (.keyword .set :: optional ++ [.sign (.number level.toNat)])

/-- A sentence about devices. -/
structure Sentence where
  names : NameList
  clause : Clause

/-- How a sentence is spelled. -/
inductive SentenceSpelled : Sentence → List Symbol → Prop
  | intro {names : NameList} {clause : Clause} {u : List Symbol} : ClauseSpelled clause u →
    SentenceSpelled ⟨names, clause⟩ (names.symbols ++ u ++ [.sign .semicolon])

/-! ### Connections and monitors -/

/-- The name of an output: a device, and the port of a device that has several outputs. -/
structure OutputName where
  device : String
  port : Option String := none
deriving DecidableEq

/-- The symbols of the name of an output. -/
def OutputName.symbols : OutputName → List Symbol
  | ⟨device, none⟩ => [.name device]
  | ⟨device, some port⟩ => [.name device, .sign .dot, .name port]

/-- A connection from an output to an input of a device. -/
structure Link where
  source : OutputName
  target : String
  input : String

/-- The symbols of a connection. -/
def Link.symbols (link : Link) : List Symbol :=
  link.source.symbols ++ [.keyword .toWord, .name link.target, .sign .dot, .name link.input,
    .sign .semicolon]

/-- The connections to the inputs of one device. -/
structure Block where
  device : String
  links : List Link

/-- The symbols of a block. -/
def Block.symbols (block : Block) : List Symbol :=
  [.keyword .device, .name block.device, .sign .openBrace] ++ block.links.flatMap Link.symbols ++
    [.sign .closeBrace]

/-- One output to watch or several. -/
structure Watch where
  first : OutputName
  more : List OutputName

/-- The outputs to watch, in order. -/
def Watch.outputs (watch : Watch) : List OutputName :=
  watch.first :: watch.more

/-- How a demand to watch is spelled. -/
inductive WatchSpelled : Watch → List Symbol → Prop
  | intro {watch : Watch} {optional : List Symbol} : optional = [] ∨ optional = [.keyword .trace] →
    WatchSpelled watch (optional ++ watch.first.symbols ++
      watch.more.flatMap (fun output ↦ .sign .comma :: output.symbols) ++ [.sign .semicolon])

/-! ### Sections -/

/-- A section of a script. -/
inductive Section
  | devices (sentences : List Sentence)
  | init (sentences : List Sentence)
  | connections (blocks : List Block)
  | monitor (watches : List Watch)

namespace Section

/-- The heading of a section. -/
def heading : Section → Heading
  | .devices _ => .devices
  | .init _ => .init
  | .connections _ => .connections
  | .monitor _ => .monitor

/-- How what stands between the braces of a section is spelled. -/
def BodySpelled : Section → List Symbol → Prop
  | .devices sentences, u | .init sentences, u => Spelled SentenceSpelled sentences u
  | .connections blocks, u => Spelled (fun block v ↦ v = block.symbols) blocks u
  | .monitor watches, u => Spelled WatchSpelled watches u

end Section

/-- How a section is spelled. -/
inductive SectionSpelled : Section → List Symbol → Prop
  | intro {part : Section} {u : List Symbol} : part.BodySpelled u → SectionSpelled part
    ([.sign (.heading part.heading), .sign .openBrace] ++ u ++ [.sign .closeBrace])

/-- A whole description. -/
abbrev Script := List Section

/-- How a script is spelled. -/
abbrev ScriptSpelled : Script → List Symbol → Prop :=
  Spelled SectionSpelled

/-! ### What the grammar leaves to rules -/

/-- Only half-periods and levels may be given in an `init` section. -/
def FitsInit : Clause → Prop
  | .define _ | .inputs _ => False
  | .halfPeriod _ | .level _ => True

/-- An `init` section sets switches and clocks only, and the connections of a block are to inputs of
the device of the block. -/
def Section.Proper : Section → Prop
  | .devices _ | .monitor _ => True
  | .init sentences => ∀ sentence ∈ sentences, FitsInit sentence.clause
  | .connections blocks => ∀ block ∈ blocks, ∀ link ∈ block.links, link.target = block.device

/-- The sections are proper and in order: `devices` is the first, none comes twice, and there is a
section for the connections. -/
structure Script.InOrder (script : Script) : Prop where
  proper : ∀ part ∈ script, part.Proper
  first : (script.map Section.heading).head? = some .devices
  distinct : (script.map Section.heading).Nodup
  connections : .connections ∈ script.map Section.heading

end Breadboard.Description
