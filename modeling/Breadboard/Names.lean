/-!
# The name table

Every name of a circuit is stored once and known by a number from then on. The same numbers are
handed out for codes that have no name. Numbers run from zero in the order of first use, so the
table is the list of its entries, and `intern` leaves every entry that was there where it was.

A name from outside is taken by `lookup`, which accepts letters and digits with at least one
letter among them, and says otherwise what is wrong.
-/

set_option autoImplicit false
set_option relaxedAutoImplicit false

namespace Breadboard

/-- The number of an entry of the name table. -/
abbrev NameId := Nat

/-- Why a text is no name. -/
inductive NameFault
  | empty
  | notAlphanumeric
  | numeric
deriving DecidableEq

/-- The wording of a fault. -/
def NameFault.reason : NameFault → String
  | .empty => "name is empty"
  | .notAlphanumeric => "name is not alphanumeric"
  | .numeric => "name is a number"

/-- A text that was refused as a name, with the reason. -/
structure InvalidName where
  name : String
  fault : NameFault
deriving DecidableEq

/-- The wording of a refusal. -/
def InvalidName.message (refusal : InvalidName) : String :=
  "Invalid name '" ++ refusal.name ++ "': " ++ refusal.fault.reason

/-- What keeps a text from being a name: the first of being empty, holding something other than
ASCII letters and digits, and holding digits only. -/
def nameFault? (text : String) : Option NameFault :=
  if text.toList.isEmpty then some .empty
  else if !text.toList.all Char.isAlphanum then some .notAlphanumeric
  else if text.toList.all Char.isDigit then some .numeric
  else none

/-- How a name that is met in a text is treated. -/
inductive NameMode
  /-- A new name gets a number. -/
  | declare
  /-- A new name stays unknown. -/
  | query
deriving DecidableEq

/-- The name table: entry `n` is the name with number `n`, or nothing for a bare code. -/
structure Names where
  entries : List (Option String) := []
deriving DecidableEq

namespace Names

/-- The number that the next new entry gets. -/
def size (names : Names) : Nat :=
  names.entries.length

/-- The name with a given number. -/
def string? (names : Names) (id : NameId) : Option String :=
  names.entries[id]?.join

/-- The number of a name. -/
def query (names : Names) (name : String) : Option NameId :=
  names.entries.findIdx? (· == some name)

/-- The number of a name, which is added at the end if it is new. -/
def intern (names : Names) (name : String) : NameId × Names :=
  match names.query name with
  | some id => (id, names)
  | none => (names.size, ⟨names.entries ++ [some name]⟩)

/-- The numbers of several names, taken in order. -/
def internAll (names : Names) : List String → List NameId × Names
  | [] => ([], names)
  | name :: rest =>
    let (id, names) := names.intern name
    let (ids, names) := names.internAll rest
    (id :: ids, names)

/-- The number of a text that is a name. -/
def lookup (names : Names) (text : String) : Except InvalidName (NameId × Names) :=
  match nameFault? text with
  | some fault => .error ⟨text, fault⟩
  | none => .ok (names.intern text)

/-- The numbers of several texts. At the first one that is no name the rest is left alone. -/
def lookupAll (names : Names) : List String → Except InvalidName (List NameId) × Names
  | [] => (.ok [], names)
  | text :: rest =>
    match names.lookup text with
    | .error refusal => (.error refusal, names)
    | .ok (id, names) =>
      let (ids, names) := names.lookupAll rest
      (ids.map (id :: ·), names)

/-- Numbers that never get a name. -/
def mint (names : Names) (count : Nat) : List NameId × Names :=
  (List.range' names.size count, ⟨names.entries ++ List.replicate count none⟩)

/-- The number of a name met in a text, under a mode. -/
def resolve (names : Names) (mode : NameMode) (name : String) : Option NameId × Names :=
  match mode with
  | .declare => let (id, names) := names.intern name; (some id, names)
  | .query => (names.query name, names)

/-- A list of names met in a text: their numbers, or the first one that stays unknown. -/
def resolveAll (names : Names) (mode : NameMode) :
    List String → Except String (List NameId) × Names
  | [] => (.ok [], names)
  | name :: rest =>
    match names.resolve mode name with
    | (none, names) => (.error name, names)
    | (some id, names) =>
      let (ids, names) := names.resolveAll mode rest
      (ids.map (id :: ·), names)

@[simp]
theorem resolve_query_snd (names : Names) (name : String) :
    (names.resolve .query name).2 = names := rfl

@[simp]
theorem resolveAll_query_snd (names : Names) (list : List String) :
    (names.resolveAll .query list).2 = names := by
  induction list with
  | nil => rfl
  | cons name rest ih =>
    cases h : names.query name <;> simp [resolveAll, resolve, h, ih]

end Names

end Breadboard
