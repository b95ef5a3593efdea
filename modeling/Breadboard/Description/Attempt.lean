import Breadboard.Description.Reader

/-!
# Attempts

An attempt moves a reader on and yields a value, or files what is wrong and yields nothing. It
carries the evidence that it does nothing to a reader but read, and that it files something where it
yields nothing. So whatever is built from attempts does no more and no less, and a loop of them
comes to an end.
-/

set_option autoImplicit false
set_option relaxedAutoImplicit false

namespace Breadboard.Description

open Text (Position)

/-- A way to read a value off a description. -/
structure Attempt (α : Type) where
  /-- The value, if there is one, and the reader after it. -/
  run : Reader → Option α × Reader
  /-- Nothing but reading is done. -/
  reaches (r : Reader) : r.Reaches (run r).2
  /-- Where there is no value, something is filed. -/
  filed {r s : Reader} : run r = (none, s) → r.log.length < s.log.length

namespace Attempt

variable {α β : Type}

/-- An attempt that always yields a value. -/
def always (value : Reader → α) (move : Reader → Reader) (h : ∀ r : Reader, r.Reaches (move r)) :
    Attempt α where
  run r := (some (value r), move r)
  reaches := h
  filed := nofun

/-- One attempt after another, if the first yields a value. -/
def andThen (m : Attempt α) (f : α → Attempt β) : Attempt β where
  run r :=
    match m.run r with
    | (some a, s) => (f a).run s
    | (none, s) => (none, s)
  reaches r := by
    have h := m.reaches r
    split
    · next a s heq => rw [heq] at h; exact h.trans ((f a).reaches s)
    · next s heq => rwa [heq] at h
  filed {r t} h := by
    split at h
    · next a s heq =>
      have hle := (m.reaches r).log_extends.length_le
      rw [heq] at hle
      exact Nat.lt_of_le_of_lt hle ((f a).filed h)
    · next s heq => cases h; exact m.filed heq

instance : Monad Attempt where
  pure a := always (fun _ ↦ a) id fun _ ↦ .refl
  bind := andThen

theorem run_bind (m : Attempt α) (f : α → Attempt β) (r : Reader) :
    (m >>= f).run r =
      match m.run r with
      | (some a, s) => (f a).run s
      | (none, s) => (none, s) := rfl

/-- The token that the reader stands on. -/
def current : Attempt Token :=
  always Reader.current id fun _ ↦ .refl

/-- The next token becomes the current one. -/
def advance : Attempt Unit :=
  always (fun _ ↦ ()) Reader.advance fun _ ↦ .advance .refl

/-- The number of a name. -/
def numberOf (name : String) : Attempt (Option NameId) :=
  always (fun r ↦ r.names.query name) id fun _ ↦ .refl

/-- The numbers of names that do not stand in the text themselves, or the first unknown one. -/
def resolveAll (list : List String) : Attempt (Except String (List NameId)) :=
  always (fun r ↦ (r.names.resolveAll r.mode list).1)
    (fun r ↦ { r with names := (r.names.resolveAll r.mode list).2 }) fun _ ↦ .resolve list .refl

/-- Nothing is yielded, and a fault is filed. -/
def refuse (fault : Fault) (position : Position) : Attempt α where
  run r := (none, r.file fault position)
  reaches _ := .file _ _ .refl
  filed h := by cases h; simp [Reader.file]

/-- Nothing is yielded, because something else should stand here. -/
def unexpected (what : Expectation) : Attempt α where
  run r := (none, r.unexpected what)
  reaches _ := .file _ _ .refl
  filed h := by cases h; simp [Reader.unexpected, Reader.file]

/-- One given lexeme. -/
def expect (lexeme : Lexeme) (what : Expectation) : Attempt Unit := do
  if (← current).lexeme = lexeme then advance else unexpected what

/-- What reading further items, each after a comma, comes to. -/
def commaItems (item : Attempt α) (r : Reader) : Option (List α) × Reader :=
  if _h : r.current.lexeme = .comma then
    match _hitem : item.run r.advance with
    | (none, s) => (none, s)
    | (some a, s) =>
      match commaItems item s with
      | (none, t) => (none, t)
      | (some more, t) => (some (a :: more), t)
  else (some [], r)
termination_by r.unread
decreasing_by
  have hle := (item.reaches r.advance).unread_le
  rw [_hitem] at hle
  exact Nat.lt_of_le_of_lt hle (Reader.unread_advance_lt (by simp [Reader.atEnd, _h]))

theorem reaches_commaItems (item : Attempt α) (r : Reader) :
    r.Reaches (commaItems item r).2 := by
  have hitem := item.reaches r.advance
  fun_induction commaItems item r with
  | case1 r _ s heq => rw [heq] at hitem; exact Reader.Reaches.refl.advance.trans hitem
  | case2 r _ a s heq t ht ih | case3 r _ a s heq more t ht ih =>
    rw [heq] at hitem
    rw [ht] at ih
    exact (Reader.Reaches.refl.advance.trans hitem).trans (ih (item.reaches _))
  | case4 => exact .refl

theorem filed_commaItems {item : Attempt α} {r s : Reader} (h : commaItems item r = (none, s)) :
    r.log.length < s.log.length := by
  have hadvance (r : Reader) := (Reader.Reaches.refl (r := r)).advance.log_extends.length_le
  have hreaches := (item.reaches r.advance).log_extends.length_le
  fun_induction commaItems item r with
  | case1 r _ t heq =>
    cases h
    exact Nat.lt_of_le_of_lt (hadvance r) (item.filed heq)
  | case2 r _ a t heq u hu ih =>
    cases h
    rw [heq] at hreaches
    exact Nat.lt_of_le_of_lt (Nat.le_trans (hadvance r) hreaches)
      (ih hu (item.reaches _).log_extends.length_le)
  | case3 => cases h
  | case4 => cases h

/-- Further items, each after a comma. -/
def commaList (item : Attempt α) : Attempt (List α) :=
  ⟨commaItems item, reaches_commaItems item, filed_commaItems⟩

/-- One item or several, with commas between them. -/
def separated (item : Attempt α) : Attempt (List α) := do
  let first ← item
  return first :: (← commaList item)

/-- An attempt that yields nothing without taking a token. -/
def Consumes (m : Attempt α) : Prop :=
  ∀ r a s, m.run r = (some a, s) → s.unread < r.unread

theorem Consumes.bind {m : Attempt α} (hm : Consumes m) (f : α → Attempt β) :
    Consumes (m >>= f) := by
  intro r b s h
  rw [run_bind] at h
  split at h
  · next a t heq =>
    have := ((f a).reaches t).unread_le
    rw [h] at this
    exact Nat.lt_of_le_of_lt this (hm r a t heq)
  · cases h

theorem Consumes.bind_right (m : Attempt α) {f : α → Attempt β} (hf : ∀ a, Consumes (f a)) :
    Consumes (m >>= f) := by
  intro r b s h
  rw [run_bind] at h
  split at h
  · next a t heq =>
    have := (m.reaches r).unread_le
    rw [heq] at this
    exact Nat.lt_of_lt_of_le (hf a t b s h) this
  · cases h

theorem consumes_expect {lexeme : Lexeme} (what : Expectation) (hlexeme : lexeme ≠ .endOfText) :
    Consumes (expect lexeme what) := by
  intro r a s h
  change (if r.current.lexeme = lexeme then advance else unexpected what : Attempt Unit).run r = _
    at h
  split at h
  · next heq =>
    cases h
    exact Reader.unread_advance_lt (by simpa [Reader.atEnd, heq] using hlexeme)
  · cases h

theorem Consumes.separated {item : Attempt α} (h : Consumes item) : Consumes (separated item) :=
  h.bind _

end Attempt

end Breadboard.Description
