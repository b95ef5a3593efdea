import Breadboard.Device.Ports

/-!
# Interning

The table only grows at its end, so the number of a name stays the number of that name, and two
names never have one number.
-/

set_option autoImplicit false
set_option relaxedAutoImplicit false

namespace Breadboard

namespace Names

variable {names : Names}

/-- The entry of an interned name is that name. -/
theorem entries_intern (names : Names) (name : String) :
    (names.intern name).2.entries[(names.intern name).1]? = some (some name) := by
  rw [intern]
  cases hquery : names.query name with
  | none => simp [size]
  | some id =>
    obtain ⟨hlt, hentry, -⟩ := List.findIdx?_eq_some_iff_getElem.mp hquery
    rw [List.getElem?_eq_getElem hlt, beq_iff_eq.mp hentry]

/-- Interning keeps the entries that are there. -/
theorem entries_intern_of_some {id : NameId} {entry : Option String} (name : String)
    (h : names.entries[id]? = some entry) :
    (names.intern name).2.entries[id]? = some entry := by
  rw [intern]
  cases names.query name with
  | none => exact List.getElem?_append_left (List.getElem?_eq_some_iff.mp h).1 ▸ h
  | some _ => exact h

/-- Names interned one after the other have different numbers. -/
theorem intern_ne_intern (names : Names) {first second : String} (hne : first ≠ second) :
    (names.intern first).1 ≠ ((names.intern first).2.intern second).1 := by
  intro hsame
  have hfirst := entries_intern_of_some second (entries_intern names first)
  have hsecond := entries_intern (names.intern first).2 second
  rw [hsame, hsecond, Option.some_inj, Option.some_inj] at hfirst
  exact hne hfirst.symm

end Names

/-- The outputs of a flip-flop have names of their own. -/
theorem Ports.q_ne_qbar (names : Names) :
    (Ports.intern names).1.q ≠ (Ports.intern names).1.qbar := by
  unfold Ports.intern
  generalize names.internAll _ = interned
  exact Names.intern_ne_intern _ (by decide)

end Breadboard
