import Breadboard.Device.Basic

/-!
# Falling back

Where the program finds something missing that should be there, it has something that stands in for
it: a question mark for a name, the low level for an output, nothing at all for the name of a
signal. What is done about it is left to a monad. Carried out in `Id` the program takes what stands
in, and carried out in `Checked` it stops at the first such lapse.

Where an operation is written for all such monads, the same name without the `M` at its end is that
of the operation in `Id`, on a network, and an equation says what that comes to.

A loop that is carried out in such a monad ends because every turn takes something away from what is
left, whatever it may come to. What work may come to is `MonadAttach.CanReturn`.
-/

set_option autoImplicit false
set_option relaxedAutoImplicit false

namespace Breadboard

/-- Where something would be made up. -/
inductive Lapse
  /-- A number of no name is asked for its name. -/
  | nameless (id : NameId)
  /-- An output without a name is asked for its name. -/
  | unlabelled (output : Terminal)
  /-- An output is read that is not there. -/
  | noOutput (output : Terminal)
  /-- An input is read that is not there. -/
  | noInput (pos : Nat) (port : NameId)
  /-- A place is used that is out of range. -/
  | outOfRange (pos : Nat)
deriving DecidableEq

/-- A monad that says what is done about a lapse, where something stands in for what is missing. -/
class Fallback (m : Type → Type) extends Monad m, LawfulMonad m, MonadAttach m,
    LawfulMonadAttach m where
  missing {α : Type} (lapse : Lapse) (standIn : α) : m α

variable {m : Type → Type} [Fallback m]

/-- What is there, or else what stands in for it. -/
def provided {α : Type} (lapse : Lapse) (standIn : α) : Option α → m α
  | some a => pure a
  | none => Fallback.missing lapse standIn

/-- What stands in is taken. -/
instance : Fallback Id where
  missing _ standIn := standIn

/-- What is carried out up to the first lapse. -/
abbrev Checked := Except Lapse

/-- What is carried out may come to what it does come to. -/
instance : MonadAttach Checked where
  CanReturn work a := work = .ok a
  attach
    | .ok a => .ok ⟨a, rfl⟩
    | .error lapse => .error lapse

instance : LawfulMonadAttach Checked where
  map_attach {_ work} := by cases work <;> rfl
  canReturn_map_imp {_ _ work a} h := by
    cases work with
    | ok b => cases h; exact b.property
    | error lapse => cases h

/-- Nothing stands in for anything. -/
instance : Fallback Checked where
  missing lapse _ := .error lapse

/-- Work that may fail does about a lapse what is done otherwise. -/
instance {ε : Type} : Fallback (ExceptT ε m) where
  missing lapse standIn := ExceptT.lift (Fallback.missing lapse standIn)

end Breadboard
