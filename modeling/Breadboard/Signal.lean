import Breadboard.Fallback

/-!
# Signal names

An output is known by the name of its device, and an output of a flip-flop by that and its own name
after a dot. Reading such a name back asks nothing of the device: whether it has that output is for
the network to say.

Where a message needs the name of a number that has none, a question mark stands in for it. In a
list of names nothing at all stands in for that of an output without a name.
-/

set_option autoImplicit false
set_option relaxedAutoImplicit false

namespace Breadboard

/-- A signal's name cut at its first dot: the part before it, and the part after it if there is a
dot. -/
def splitSignal (signal : String) : String × Option String :=
  match signal.toList.dropWhile (· ≠ '.') with
  | [] => (signal, none)
  | _ :: port => (String.ofList (signal.toList.takeWhile (· ≠ '.')), some (String.ofList port))

namespace Names

variable {m : Type → Type} [Fallback m]

/-- The name with a given number, for a message. -/
def nameOfM (names : Names) (id : NameId) : m String :=
  provided (.nameless id) "?" (names.string? id)

/-- The name with a given number, or a question mark. -/
def nameOf (names : Names) (id : NameId) : String :=
  Id.run (names.nameOfM id)

/-- The name of an output, if its device and its port have names. -/
def terminal? (names : Names) (t : Terminal) : Option String :=
  (names.string? t.device).bind fun device ↦
    match t.port with
    | none => some device
    | some port => (names.string? port).map fun port ↦ device ++ "." ++ port

/-- The name of an output, for a message. -/
def nameOfTerminalM (names : Names) (t : Terminal) : m String := do
  match t.port with
  | none => names.nameOfM t.device
  | some port => return (← names.nameOfM t.device) ++ "." ++ (← names.nameOfM port)

/-- The name of an output, with question marks for what has no name. -/
def nameOfTerminal (names : Names) (t : Terminal) : String :=
  Id.run (names.nameOfTerminalM t)

/-- The names with several numbers. -/
def stringsM (names : Names) (ids : List NameId) : m (List String) :=
  ids.filterMapM fun id ↦ provided (.nameless id) none ((names.string? id).map some)

/-- The names of several outputs. -/
def labelsM (names : Names) (outputs : List Terminal) : m (List String) :=
  outputs.filterMapM fun output ↦
    provided (.unlabelled output) none ((names.terminal? output).map some)

/-- The names of several outputs, as far as they have one. -/
def labels (names : Names) (outputs : List Terminal) : List String :=
  Id.run (names.labelsM outputs)

/-- The output that a signal's name means, if it is made of known names. -/
def queryTerminal (names : Names) (signal : String) : Option Terminal :=
  let (device, port) := splitSignal signal
  (names.query device).bind fun device ↦
    match port with
    | none => some ⟨device, none⟩
    | some port => (names.query port).map fun port ↦ ⟨device, some port⟩

theorem nameOf_eq (names : Names) (id : NameId) :
    names.nameOf id = (names.string? id).getD "?" := by
  rw [nameOf, nameOfM]
  cases names.string? id <;> rfl

theorem nameOfTerminal_eq (names : Names) (t : Terminal) : names.nameOfTerminal t =
    match t.port with
    | none => names.nameOf t.device
    | some port => names.nameOf t.device ++ "." ++ names.nameOf port := by
  rw [nameOfTerminal, nameOfTerminalM]
  cases t.port <;> rfl

/-- What is there of several things is listed. -/
theorem run_filterMapM_provided {α β : Type} (lapse : α → Lapse) (f : α → Option β)
    (list : List α) :
    Id.run (list.filterMapM fun a ↦ provided (lapse a) none ((f a).map some)) =
      list.filterMap f := by
  induction list with
  | nil => rfl
  | cons a list ih =>
    rw [List.filterMapM_cons, List.filterMap_cons, ← ih]
    cases f a <;> rfl

theorem run_stringsM (names : Names) (ids : List NameId) :
    Id.run (names.stringsM ids) = ids.filterMap names.string? :=
  run_filterMapM_provided .nameless names.string? ids

theorem labels_eq (names : Names) (outputs : List Terminal) :
    names.labels outputs = outputs.filterMap names.terminal? :=
  run_filterMapM_provided .unlabelled names.terminal? outputs

end Names

end Breadboard
