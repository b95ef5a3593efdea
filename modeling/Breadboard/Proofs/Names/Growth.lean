import Breadboard.Proofs.Names.Interning
import Mathlib.Data.List.Forall2

/-!
# Growing name tables

A table that grows keeps its names under their numbers (`Extends`). In a faithful table the number
of a name is the only one that it stands under, so that asking for the number and asking for the
name undo each other (`Faithful.query_eq_some_iff`). Interning keeps a table faithful.
-/

set_option autoImplicit false
set_option relaxedAutoImplicit false

namespace Breadboard

namespace Names

variable {names old new : Names} {id : NameId} {name : String}

/-- The entries of a table are the first ones of another. -/
def Extends (old new : Names) : Prop :=
  old.entries <+: new.entries

theorem Extends.refl (names : Names) : names.Extends names :=
  List.prefix_rfl

theorem Extends.trans {middle : Names} (h : old.Extends middle) (h' : middle.Extends new) :
    old.Extends new :=
  List.IsPrefix.trans h h'

theorem string?_eq_some_iff : names.string? id = some name ↔
    names.entries[id]? = some (some name) := by
  rw [string?, Option.join_eq_some_iff]

theorem Extends.string? (h : old.Extends new) (hname : old.string? id = some name) :
    new.string? id = some name := by
  obtain ⟨more, hmore⟩ := h
  rw [string?_eq_some_iff] at hname ⊢
  rw [← hmore, List.getElem?_append_left (List.getElem?_eq_some_iff.mp hname).1, hname]

/-- No name stands under two numbers. -/
def Faithful (names : Names) : Prop :=
  ∀ id id' name, names.string? id = some name → names.string? id' = some name → id = id'

theorem string?_of_query (h : names.query name = some id) : names.string? id = some name := by
  obtain ⟨hlt, hentry, -⟩ := List.findIdx?_eq_some_iff_getElem.mp h
  rw [string?_eq_some_iff, List.getElem?_eq_getElem hlt, beq_iff_eq.mp hentry]

theorem exists_query (h : names.string? id = some name) :
    ∃ first, names.query name = some first := by
  rw [← Option.isSome_iff_exists, query, List.findIdx?_isSome, List.any_eq_true]
  exact ⟨some name, List.mem_of_getElem? (string?_eq_some_iff.mp h), beq_self_eq_true _⟩

theorem Faithful.query_eq_some_iff (h : names.Faithful) :
    names.query name = some id ↔ names.string? id = some name := by
  refine ⟨string?_of_query, fun hname ↦ ?_⟩
  obtain ⟨first, hfirst⟩ := exists_query hname
  rw [hfirst, h first id name (string?_of_query hfirst) hname]

theorem faithful_of_nodup (h : names.entries.Nodup) : names.Faithful := by
  intro id id' name hid hid'
  rw [string?_eq_some_iff] at hid hid'
  exact (List.getElem?_inj (List.getElem?_eq_some_iff.mp hid).1 h).mp (hid.trans hid'.symm)

/-- Whether a name has a number. -/
def Has (names : Names) (name : String) : Prop :=
  ∃ id, names.string? id = some name

theorem Extends.has (h : old.Extends new) (hname : old.Has name) : new.Has name :=
  hname.imp fun _ ↦ h.string?

theorem has_iff_mem : names.Has name ↔ some name ∈ names.entries := by
  rw [Has, List.mem_iff_getElem?]
  exact exists_congr fun _ ↦ string?_eq_some_iff

theorem has_iff_query : names.Has name ↔ ∃ id, names.query name = some id :=
  ⟨fun ⟨_, h⟩ ↦ exists_query h, fun ⟨id, h⟩ ↦ ⟨id, string?_of_query h⟩⟩

/-! ### Interning -/

theorem string?_intern (names : Names) (name : String) :
    (names.intern name).2.string? (names.intern name).1 = some name :=
  string?_eq_some_iff.mpr (entries_intern names name)

theorem extends_intern (names : Names) (name : String) : names.Extends (names.intern name).2 := by
  rw [intern]
  split
  · exact Extends.refl names
  · exact List.prefix_append ..

/-- Interning adds one name at most. -/
theorem string?_of_intern {other : String} (h : (names.intern name).2.string? id = some other) :
    names.string? id = some other ∨
      names.query name = none ∧ id = names.size ∧ other = name := by
  rw [Names.intern] at h
  cases hquery : names.query name with
  | some _ =>
    rw [hquery] at h
    exact .inl h
  | none =>
    rw [hquery] at h
    rw [string?_eq_some_iff, List.getElem?_append] at h
    split at h
    · exact .inl (string?_eq_some_iff.mpr h)
    · next hge =>
      obtain ⟨hlt, hsame⟩ := List.getElem?_eq_some_iff.mp h
      have hle := Nat.sub_eq_zero_iff_le.mp (Nat.lt_one_iff.mp hlt)
      rw [List.getElem_singleton, Option.some_inj] at hsame
      exact .inr ⟨rfl, Nat.le_antisymm hle (Nat.not_lt.mp hge), hsame.symm⟩

theorem Faithful.intern (h : names.Faithful) (name : String) : (names.intern name).2.Faithful := by
  have hfresh (hquery : names.query name = none) (id : NameId) :
      names.string? id ≠ some name := by
    intro hid
    obtain ⟨first, hfirst⟩ := exists_query hid
    rw [hquery] at hfirst
    cases hfirst
  intro id id' other hid hid'
  rcases string?_of_intern hid with hold | ⟨hquery, hlast, rfl⟩
  · rcases string?_of_intern hid' with hold' | ⟨hquery, -, rfl⟩
    · exact h id id' other hold hold'
    · exact absurd hold (hfresh hquery id)
  · rcases string?_of_intern hid' with hold' | ⟨-, hlast', -⟩
    · exact absurd hold' (hfresh hquery id')
    · exact hlast.trans hlast'.symm

/-! ### Names met in a text -/

theorem extends_resolve (names : Names) (mode : NameMode) (name : String) :
    names.Extends (names.resolve mode name).2 := by
  cases mode with
  | declare => exact extends_intern names name
  | query => exact Extends.refl names

theorem Faithful.resolve (h : names.Faithful) (mode : NameMode) (name : String) :
    (names.resolve mode name).2.Faithful := by
  cases mode with
  | declare => exact h.intern name
  | query => exact h

theorem has_of_has_resolve {mode : NameMode} {other : String}
    (h : (names.resolve mode name).2.Has other) : names.Has other ∨ other = name := by
  cases mode with
  | declare =>
    obtain ⟨id, hid⟩ := h
    exact (string?_of_intern hid).imp (fun hold ↦ ⟨id, hold⟩) fun hnew ↦ hnew.2.2
  | query => exact .inl h

/-- A name that is resolved has its number in the table from then on. -/
theorem string?_of_resolve {mode : NameMode} (h : (names.resolve mode name).1 = some id) :
    (names.resolve mode name).2.string? id = some name := by
  cases mode with
  | declare =>
    obtain rfl := Option.some_inj.mp h
    exact string?_intern names name
  | query => exact string?_of_query h

theorem extends_resolveAll (names : Names) (mode : NameMode) (list : List String) :
    names.Extends (names.resolveAll mode list).2 := by
  induction list generalizing names with
  | nil => exact Extends.refl names
  | cons name list ih =>
    have hfirst := extends_resolve names mode name
    rw [resolveAll]
    split
    · next names' hresolve =>
      rw [hresolve] at hfirst
      exact hfirst
    · next id names' hresolve =>
      rw [hresolve] at hfirst
      exact hfirst.trans (ih names')

theorem Faithful.resolveAll (h : names.Faithful) (mode : NameMode) (list : List String) :
    (names.resolveAll mode list).2.Faithful := by
  induction list generalizing names with
  | nil => exact h
  | cons name list ih =>
    have hfirst := h.resolve mode name
    rw [Names.resolveAll]
    split
    · next names' hresolve =>
      rw [hresolve] at hfirst
      exact hfirst
    · next id names' hresolve =>
      rw [hresolve] at hfirst
      exact ih hfirst

theorem has_of_has_resolveAll {mode : NameMode} {list : List String}
    (h : (names.resolveAll mode list).2.Has name) : names.Has name ∨ name ∈ list := by
  induction list generalizing names with
  | nil => exact .inl h
  | cons first list ih =>
    have hfirst : (names.resolve mode first).2.Has name → names.Has name ∨ name = first :=
      has_of_has_resolve
    rw [resolveAll] at h
    split at h
    · next names' hresolve =>
      rw [hresolve] at hfirst
      exact (hfirst h).imp id fun hname ↦ List.mem_cons.mpr (.inl hname)
    · next id names' hresolve =>
      rw [hresolve] at hfirst
      rcases ih h with hnames | hlist
      · exact (hfirst hnames).imp_right fun hname ↦ List.mem_cons.mpr (.inl hname)
      · exact .inr (List.mem_cons_of_mem first hlist)

theorem resolveAll_cons_of_some {mode : NameMode} (list : List String)
    (h : (names.resolve mode name).1 = some id) :
    names.resolveAll mode (name :: list) =
      (((names.resolve mode name).2.resolveAll mode list).1.map (id :: ·),
        ((names.resolve mode name).2.resolveAll mode list).2) := by
  rw [resolveAll]
  cases hresolve : names.resolve mode name with
  | mk first names' =>
    rw [hresolve] at h
    obtain rfl : first = some id := h
    rfl

theorem resolveAll_cons_of_none {mode : NameMode} (list : List String)
    (h : (names.resolve mode name).1 = none) :
    (names.resolveAll mode (name :: list)).1 = .error name := by
  rw [resolveAll]
  cases hresolve : names.resolve mode name with
  | mk first names' =>
    rw [hresolve] at h
    obtain rfl : first = none := h
    rfl

/-- Where all names of a list are resolved, these are their numbers. -/
theorem forall₂_of_resolveAll {mode : NameMode} {list : List String} {ids : List NameId}
    (h : (names.resolveAll mode list).1 = .ok ids) :
    List.Forall₂ (fun id name ↦ (names.resolveAll mode list).2.string? id = some name) ids
      list := by
  induction list generalizing names ids with
  | nil =>
    cases h
    exact .nil
  | cons name list ih =>
    cases hfirst : (names.resolve mode name).1 with
    | none =>
      rw [resolveAll_cons_of_none list hfirst] at h
      cases h
    | some first =>
      rw [resolveAll_cons_of_some list hfirst] at h ⊢
      cases hmore : ((names.resolve mode name).2.resolveAll mode list).1 with
      | error unknown =>
        rw [hmore] at h
        cases h
      | ok more =>
        rw [hmore] at h
        cases h
        exact .cons ((extends_resolveAll ..).string? (string?_of_resolve hfirst)) (ih hmore)

/-- All names of a list are resolved when they are known or may be added. -/
theorem exists_resolveAll {mode : NameMode} {list : List String}
    (h : mode = .query → ∀ name ∈ list, names.Has name) :
    ∃ ids, (names.resolveAll mode list).1 = .ok ids := by
  induction list generalizing names with
  | nil => exact ⟨[], rfl⟩
  | cons name list ih =>
    have hfirst : ∃ id, (names.resolve mode name).1 = some id := by
      cases mode with
      | declare => exact ⟨_, rfl⟩
      | query => exact has_iff_query.mp (h rfl name List.mem_cons_self)
    obtain ⟨first, hfirst⟩ := hfirst
    obtain ⟨more, hmore⟩ :
        ∃ more, ((names.resolve mode name).2.resolveAll mode list).1 = .ok more :=
      ih fun hmode other hother ↦
        (extends_resolve names mode name).has (h hmode other (List.mem_cons_of_mem name hother))
    exact ⟨first :: more, by rw [resolveAll_cons_of_some list hfirst, hmore]; rfl⟩

/-- What stays unresolved of a list is a name that is not known, while names are only looked up. -/
theorem unknown_of_resolveAll {mode : NameMode} {list : List String} {name : String}
    (h : (names.resolveAll mode list).1 = .error name) :
    mode = .query ∧ name ∈ list ∧ ¬names.Has name := by
  induction list generalizing names with
  | nil => cases h
  | cons first list ih =>
    cases hfirst : (names.resolve mode first).1 with
    | none =>
      rw [resolveAll_cons_of_none list hfirst] at h
      cases h
      cases mode with
      | declare => cases hfirst
      | query =>
        refine ⟨rfl, List.mem_cons_self, fun hhas ↦ ?_⟩
        obtain ⟨id, hid⟩ := has_iff_query.mp hhas
        exact Option.some_ne_none id (hid.symm.trans hfirst)
    | some id =>
      rw [resolveAll_cons_of_some list hfirst] at h
      cases hmore : ((names.resolve mode first).2.resolveAll mode list).1 with
      | ok ids =>
        rw [hmore] at h
        cases h
      | error unknown =>
        rw [hmore] at h
        cases h
        obtain ⟨rfl, hmem, hnew⟩ := ih hmore
        exact ⟨rfl, List.mem_cons_of_mem first hmem, hnew⟩

end Names

end Breadboard
