import Breadboard.Proofs.Names.Growth
import Mathlib.Data.List.Nodup
import Mathlib.Logic.Equiv.Basic

/-!
# The same names under other numbers

Two tables may hold the same names under different numbers. When a permutation takes the numbers of
the one to those of the other, a name that is looked up in both has numbers that the permutation
takes to each other (`Matched.query`). This stays so when both tables go on: a new name gets the
next number in either (`Matched.resolve`, `Matched.resolveAll`). Tables that have met the same names
in different orders are matched in this way, and the numbers that they had in common before are left
alone (`exists_matched`).
-/

set_option autoImplicit false
set_option relaxedAutoImplicit false

namespace Breadboard

/-- A list with its elements in another order behind some others: each stands at another place, and
the others stay where they are. -/
theorem exists_places_of_perm {α : Type} {list list' : List α} (h : list.Perm list')
    (front : List α) : ∃ place : Equiv.Perm Nat,
      (∀ i, i < front.length ∨ front.length + list.length ≤ i → place i = i) ∧
        ∀ i, (front ++ list')[place i]? = (front ++ list)[i]? := by
  induction h generalizing front with
  | nil => exact ⟨Equiv.refl Nat, fun _ _ ↦ rfl, fun _ ↦ rfl⟩
  | @cons x list list' _ ih =>
    obtain ⟨place, hfixed, hplace⟩ := ih (front ++ [x])
    simp only [List.append_assoc, List.singleton_append, List.length_append,
      List.length_singleton] at hfixed hplace
    refine ⟨place, fun i hi ↦ hfixed i ?_, hplace⟩
    rw [List.length_cons] at hi
    omega
  | swap x y list =>
    refine ⟨Equiv.swap front.length (front.length + 1), fun i hi ↦ ?_, fun i ↦ ?_⟩
    · simp only [List.length_cons] at hi
      exact Equiv.swap_apply_of_ne_of_ne (by omega) (by omega)
    · by_cases hfirst : i = front.length
      · rw [hfirst, Equiv.swap_apply_left, List.getElem?_append_right (Nat.le_add_right _ _),
          List.getElem?_append_right (Nat.le_refl _), Nat.add_sub_cancel_left, Nat.sub_self]
        rfl
      by_cases hsecond : i = front.length + 1
      · rw [hsecond, Equiv.swap_apply_right, List.getElem?_append_right (Nat.le_refl _),
          List.getElem?_append_right (Nat.le_add_right _ _), Nat.add_sub_cancel_left, Nat.sub_self]
        rfl
      rw [Equiv.swap_apply_of_ne_of_ne hfirst hsecond]
      rcases Nat.lt_or_ge i front.length with hlt | hge
      · rw [List.getElem?_append_left hlt, List.getElem?_append_left hlt]
      · obtain ⟨more, rfl⟩ : ∃ more, i = front.length + (more + 2) :=
          ⟨i - front.length - 2, by omega⟩
        rw [List.getElem?_append_right hge, List.getElem?_append_right hge,
          Nat.add_sub_cancel_left]
        rfl
  | trans h _ ih ih' =>
    obtain ⟨place, hfixed, hplace⟩ := ih front
    obtain ⟨place', hfixed', hplace'⟩ := ih' front
    rw [← h.length_eq] at hfixed'
    refine ⟨place.trans place', fun i hi ↦ ?_, fun i ↦ ?_⟩
    · rw [Equiv.trans_apply, hfixed i hi, hfixed' i hi]
    · rw [Equiv.trans_apply, hplace', hplace]

namespace Names

variable {number : Equiv.Perm NameId} {within : NameId → Prop} {names names' : Names}
  {mode : NameMode} {name : String}

/-- A table, and a table that has the same names under the numbers that a permutation takes them to.
Of the numbers that were not given yet, those within some range stay as they are. -/
structure Matched (number : Equiv.Perm NameId) (within : NameId → Prop) (names names' : Names) :
    Prop where
  faithful : names.Faithful
  size : names'.size = names.size
  fixed : ∀ id, names.size ≤ id → within id → number id = id
  string? : ∀ id, names'.string? (number id) = names.string? id

/-- A table that has given a number out of range. -/
def Outgrows (within : NameId → Prop) (names : Names) : Prop :=
  ∃ id < names.size, ¬within id

theorem not_outgrows_trivial (names : Names) : ¬names.Outgrows fun _ ↦ True :=
  fun ⟨_, _, hout⟩ ↦ hout trivial

theorem Extends.size_le (h : names.Extends names') : names.size ≤ names'.size :=
  List.IsPrefix.length_le h

theorem Outgrows.mono (h : names.Outgrows within) (hextends : names.Extends names') :
    names'.Outgrows within := by
  obtain ⟨id, hlt, hout⟩ := h
  exact ⟨id, Nat.lt_of_lt_of_le hlt hextends.size_le, hout⟩

theorem string?_of_size_le {id : NameId} (h : names.size ≤ id) : names.string? id = none := by
  rw [Names.string?, List.getElem?_eq_none h, Option.join_none]

theorem ext_string? (hsize : names'.size = names.size)
    (h : ∀ id, names'.string? id = names.string? id) : names' = names := by
  obtain ⟨entries⟩ := names
  obtain ⟨entries'⟩ := names'
  refine congrArg Names.mk (List.ext_getElem hsize fun id hid hid' ↦ ?_)
  have hentry := h id
  simpa [Names.string?, List.getElem?_eq_getElem hid, List.getElem?_eq_getElem hid'] using hentry

/-! ### Tables that are matched -/

/-- A permutation that leaves all numbers of a table alone takes the table to itself. -/
theorem matched_self (hfaithful : names.Faithful)
    (hfixed : ∀ id, names.size ≤ id → within id → number id = id)
    (hsame : ∀ id < names.size, number id = id) : Matched number within names names where
  faithful := hfaithful
  size := rfl
  fixed := hfixed
  string? id := by
    rcases Nat.lt_or_ge id names.size with hlt | hge
    · rw [hsame id hlt]
    · have hout : names.size ≤ number id := by
        by_contra hlt
        have hmoved := number.injective (hsame (number id) (Nat.not_le.mp hlt))
        exact hlt (hmoved.symm ▸ hge)
      rw [string?_of_size_le hge, string?_of_size_le hout]

/-- Tables that are matched by a permutation that leaves all of their numbers alone are the same. -/
theorem Matched.eq (h : Matched number within names names')
    (hsame : ∀ id < names.size, number id = id) : names' = names := by
  have hself : Matched number (fun _ ↦ False) names names :=
    matched_self h.faithful (fun _ _ ↦ False.elim) hsame
  refine ext_string? h.size fun id ↦ ?_
  rw [← number.apply_symm_apply id, h.string?, hself.string?]

theorem Matched.faithful' (h : Matched number within names names') : names'.Faithful := by
  intro id id' name hid hid'
  rw [← number.apply_symm_apply id, h.string?] at hid
  rw [← number.apply_symm_apply id', h.string?] at hid'
  exact number.symm.injective (h.faithful _ _ name hid hid')

theorem Matched.query (h : Matched number within names names') (name : String) :
    names'.query name = (names.query name).map number := by
  refine Option.ext fun id ↦ ?_
  rw [h.faithful'.query_eq_some_iff, Option.map_eq_some_iff]
  refine ⟨fun hid ↦ ⟨number.symm id, ?_, number.apply_symm_apply id⟩, ?_⟩
  · rwa [h.faithful.query_eq_some_iff, ← h.string?, number.apply_symm_apply]
  · rintro ⟨old, hold, rfl⟩
    rwa [h.string?, ← h.faithful.query_eq_some_iff]

theorem string?_append (names : Names) (name : String) (id : NameId) :
    (Names.mk (names.entries ++ [some name])).string? id =
      if id = names.size then some name else names.string? id := by
  obtain ⟨entries⟩ := names
  rcases Nat.lt_trichotomy id entries.length with hlt | rfl | hgt
  · simp [Names.string?, size, List.getElem?_append_left hlt, Nat.ne_of_lt hlt]
  · simp [Names.string?, size]
  · have hnone : entries[id]? = none := List.getElem?_eq_none (Nat.le_of_lt hgt)
    have hlast : (entries ++ [some name])[id]? = none := List.getElem?_eq_none <| by
      rw [List.length_append]
      exact hgt
    have hne : id ≠ (Names.mk entries).size := Nat.ne_of_gt hgt
    rw [if_neg hne, Names.string?, Names.string?, hlast, hnone]

theorem size_append (names : Names) (name : String) :
    (Names.mk (names.entries ++ [some name])).size = names.size + 1 :=
  List.length_append

/-- A new name gets the next number in both tables. -/
theorem Matched.append (h : Matched number within names names') (hwithin : within names.size)
    (hgrown : (Names.mk (names.entries ++ [some name])).Faithful) :
    Matched number within ⟨names.entries ++ [some name]⟩ ⟨names'.entries ++ [some name]⟩ := by
  have hnext : number names.size = names.size := h.fixed _ (Nat.le_refl _) hwithin
  refine ⟨hgrown, ?_, fun id hid ↦ h.fixed id ?_, fun id ↦ ?_⟩
  · rw [size_append, size_append, h.size]
  · rw [size_append] at hid
    exact Nat.le_of_succ_le hid
  · rw [string?_append, string?_append, h.string?, h.size]
    refine if_congr ⟨fun hid ↦ ?_, fun hid ↦ ?_⟩ rfl rfl
    · exact number.injective (hid.trans hnext.symm)
    · rw [hid, hnext]

theorem Matched.intern (h : Matched number within names names') (name : String) :
    (names.intern name).2.Outgrows within ∨
      (names'.intern name).1 = number (names.intern name).1 ∧
        Matched number within (names.intern name).2 (names'.intern name).2 := by
  have hgrown := h.faithful.intern name
  have hquery := h.query name
  unfold Names.intern at hgrown ⊢
  rw [hquery]
  cases hold : names.query name with
  | some id => exact .inr ⟨rfl, h⟩
  | none =>
    rw [hold] at hgrown
    by_cases hwithin : within names.size
    · have hnext : number names.size = names.size := h.fixed _ (Nat.le_refl _) hwithin
      exact .inr ⟨h.size.trans hnext.symm, h.append hwithin hgrown⟩
    · exact .inl ⟨names.size, (size_append names name).symm ▸ Nat.lt_succ_self _, hwithin⟩

/-- A name that is met in both tables has matching numbers, unless the table outgrows the range. -/
theorem Matched.resolve (h : Matched number within names names') (mode : NameMode)
    (name : String) : (names.resolve mode name).2.Outgrows within ∨
      (names'.resolve mode name).1 = (names.resolve mode name).1.map number ∧
        Matched number within (names.resolve mode name).2 (names'.resolve mode name).2 := by
  cases mode with
  | query => exact .inr ⟨h.query name, h⟩
  | declare => exact (h.intern name).imp_right fun hsame ↦ ⟨congrArg some hsame.1, hsame.2⟩

theorem Matched.resolveAll (h : Matched number within names names') (mode : NameMode)
    (list : List String) : (names.resolveAll mode list).2.Outgrows within ∨
      (names'.resolveAll mode list).1 = (names.resolveAll mode list).1.map (List.map number) ∧
        Matched number within (names.resolveAll mode list).2 (names'.resolveAll mode list).2 := by
  induction list generalizing names names' with
  | nil => exact .inr ⟨rfl, h⟩
  | cons name list ih =>
    have hresolved := h.resolve mode name
    rw [Names.resolveAll, Names.resolveAll]
    generalize names.resolve mode name = first at hresolved ⊢
    generalize names'.resolve mode name = first' at hresolved ⊢
    obtain ⟨id, left⟩ := first
    obtain ⟨id', left'⟩ := first'
    cases id with
    | none =>
      refine hresolved.imp_right fun hsame ↦ ?_
      obtain rfl : id' = none := hsame.1
      exact ⟨rfl, hsame.2⟩
    | some id =>
      rcases hresolved with hout | ⟨hid, hmatched⟩
      · exact .inl (hout.mono (extends_resolveAll left mode list))
      · obtain rfl : id' = some (number id) := hid
        refine (ih hmatched).imp_right fun hsame ↦ ⟨?_, hsame.2⟩
        dsimp only
        rw [hsame.1]
        cases (left.resolveAll mode list).1 <;> rfl

/-! ### Names met in different orders -/

/-- The table after some names were met one after another. -/
def meetAll (mode : NameMode) (names : Names) (list : List String) : Names :=
  list.foldl (fun names name ↦ (names.resolve mode name).2) names

@[simp]
theorem meetAll_nil (names : Names) : names.meetAll mode [] = names := rfl

@[simp]
theorem meetAll_cons (names : Names) (name : String) (list : List String) :
    names.meetAll mode (name :: list) = (names.resolve mode name).2.meetAll mode list := rfl

theorem meetAll_append (names : Names) (list more : List String) :
    names.meetAll mode (list ++ more) = (names.meetAll mode list).meetAll mode more :=
  List.foldl_append

@[simp]
theorem meetAll_query (names : Names) (list : List String) : names.meetAll .query list = names := by
  induction list with
  | nil => rfl
  | cons name list ih => exact ih

/-- Names that are there already are met without a change. -/
theorem meetAll_of_has {list : List String} (h : ∀ name ∈ list, names.Has name) :
    names.meetAll .declare list = names := by
  induction list with
  | nil => rfl
  | cons name list ih =>
    obtain ⟨hfirst, hrest⟩ := List.forall_mem_cons.mp h
    obtain ⟨id, hid⟩ := has_iff_query.mp hfirst
    have hsame : (names.resolve .declare name).2 = names := by
      rw [Names.resolve, Names.intern, hid]
    rw [meetAll_cons, hsame]
    exact ih hrest

theorem snd_resolveAll (names : Names) (mode : NameMode) (list : List String) :
    (names.resolveAll mode list).2 = names.meetAll mode list := by
  cases mode with
  | query => rw [resolveAll_query_snd, meetAll_query]
  | declare =>
    induction list generalizing names with
    | nil => rfl
    | cons name list ih =>
      rw [resolveAll_cons_of_some list rfl, meetAll_cons, ← ih]

theorem Faithful.meetAll (h : names.Faithful) (mode : NameMode) (list : List String) :
    (names.meetAll mode list).Faithful :=
  snd_resolveAll names mode list ▸ h.resolveAll mode list

theorem has_resolve_iff (other : String) :
    (names.resolve .declare name).2.Has other ↔ names.Has other ∨ other = name := by
  refine ⟨has_of_has_resolve, ?_⟩
  rintro (hold | rfl)
  · exact (extends_resolve names .declare name).has hold
  · exact ⟨_, string?_intern names other⟩

theorem has_meetAll_iff (list : List String) :
    (names.meetAll .declare list).Has name ↔ names.Has name ∨ name ∈ list := by
  induction list generalizing names with
  | nil => simp
  | cons first list ih => rw [meetAll_cons, ih, has_resolve_iff, List.mem_cons, or_assoc]

/-- Behind what was there before, there are new names only. -/
theorem exists_entries_meetAll (names : Names) (mode : NameMode) (list : List String) :
    ∃ added : List String, (names.meetAll mode list).entries = names.entries ++ added.map some := by
  induction list generalizing names with
  | nil => exact ⟨[], (List.append_nil _).symm⟩
  | cons name list ih =>
    obtain ⟨added, hadded⟩ := ih (names.resolve mode name).2
    rw [meetAll_cons, hadded]
    cases mode with
    | query => exact ⟨added, rfl⟩
    | declare =>
      rw [Names.resolve, Names.intern]
      cases names.query name with
      | some id => exact ⟨added, rfl⟩
      | none => exact ⟨name :: added, by simp⟩

section Added

variable {entries : List (Option String)} {added : List String}

theorem string?_added (entries : List (Option String)) (added : List String) (i : Nat) :
    (Names.mk (entries ++ added.map some)).string? (entries.length + i) = added[i]? := by
  rw [Names.string?, List.getElem?_append_right (Nat.le_add_right _ _), Nat.add_sub_cancel_left,
    List.getElem?_map]
  cases added[i]? <;> rfl

theorem nodup_added (h : (Names.mk (entries ++ added.map some)).Faithful) : added.Nodup := by
  rw [List.nodup_iff_injective_get]
  intro i j hij
  have hi := string?_added entries added i
  have hj := string?_added entries added j
  rw [List.getElem?_eq_getElem i.isLt] at hi
  rw [List.getElem?_eq_getElem j.isLt, ← List.get_eq_getElem, ← hij] at hj
  exact Fin.ext (Nat.add_left_cancel (h _ _ _ hi hj))

theorem mem_added_iff (h : (Names.mk (entries ++ added.map some)).Faithful) : name ∈ added ↔
    (Names.mk (entries ++ added.map some)).Has name ∧ ¬(Names.mk entries).Has name := by
  have hboth : (Names.mk (entries ++ added.map some)).Has name ↔
      some name ∈ entries ∨ name ∈ added := by
    rw [has_iff_mem, List.mem_append, List.mem_map_of_injective (Option.some_injective _)]
  rw [hboth, has_iff_mem]
  refine ⟨fun hmem ↦ ⟨.inr hmem, fun hold ↦ ?_⟩, fun ⟨hnew, hold⟩ ↦ hnew.resolve_left hold⟩
  obtain ⟨id, hid⟩ := List.mem_iff_getElem?.mp hold
  obtain ⟨i, hi⟩ := List.mem_iff_getElem?.mp hmem
  have hlt := (List.getElem?_eq_some_iff.mp hid).1
  have hfirst : (Names.mk (entries ++ added.map some)).string? id = some name :=
    string?_eq_some_iff.mpr (List.getElem?_append_left hlt ▸ hid)
  have hlast : id = entries.length + i := h _ _ _ hfirst ((string?_added _ _ i).trans hi)
  exact absurd hlt (hlast ▸ Nat.not_lt.mpr (Nat.le_add_right _ _))

end Added

/-- Tables that have met the same names in different orders are matched by a permutation that leaves
the numbers alone that were given before. -/
theorem exists_matched {first second : List String} (h : names.Faithful)
    (hsame : mode = .declare → ∀ name,
      names.Has name ∨ name ∈ first ↔ names.Has name ∨ name ∈ second) :
    ∃ number : Equiv.Perm NameId, (∀ id < names.size, number id = id) ∧
      Matched number (fun _ ↦ True) (names.meetAll mode first) (names.meetAll mode second) := by
  cases mode with
  | query =>
    refine ⟨Equiv.refl _, fun _ _ ↦ rfl, ?_⟩
    rw [meetAll_query, meetAll_query]
    exact matched_self h (fun _ _ _ ↦ rfl) fun _ _ ↦ rfl
  | declare =>
    obtain ⟨added, hadded⟩ := exists_entries_meetAll names .declare first
    obtain ⟨added', hadded'⟩ := exists_entries_meetAll names .declare second
    have hfaithful := h.meetAll .declare first
    have hfaithful' := h.meetAll .declare second
    have hhas : ∀ name, (names.meetAll .declare first).Has name ↔
        (names.meetAll .declare second).Has name := fun name ↦ by
      rw [has_meetAll_iff, has_meetAll_iff, hsame rfl name]
    rw [show names.meetAll .declare first = ⟨names.entries ++ added.map some⟩ from
      congrArg Names.mk hadded] at hfaithful hhas ⊢
    rw [show names.meetAll .declare second = ⟨names.entries ++ added'.map some⟩ from
      congrArg Names.mk hadded'] at hfaithful' hhas ⊢
    have hperm : added.Perm added' := by
      refine (List.perm_ext_iff_of_nodup (nodup_added hfaithful) (nodup_added hfaithful')).mpr ?_
      intro name
      rw [mem_added_iff hfaithful, mem_added_iff hfaithful', hhas]
    obtain ⟨number, hfixed, hnumber⟩ := exists_places_of_perm (hperm.map some) names.entries
    refine ⟨number, fun id hid ↦ hfixed id (.inl hid), hfaithful, ?_, fun id hid _ ↦ ?_,
      fun id ↦ ?_⟩
    · simp only [size, List.length_append, List.length_map, hperm.length_eq]
    · refine hfixed id (.inr ?_)
      simpa only [size, List.length_append] using hid
    · rw [Names.string?, Names.string?, hnumber]

end Names

end Breadboard
