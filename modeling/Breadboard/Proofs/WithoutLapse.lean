import Breadboard.Fallback
import Mathlib.Data.List.Basic

/-!
# Work without a lapse

Work that never falls back on anything comes to the same in every monad: to a value, as if nothing
could be missing (`WithoutLapse`). So what is proved of it is proved at once of the program as it
is and of the program that stops at the first lapse.

Where work may fail, two pieces of it go the same way when they both come to something or both fail
(`SameOutcome`).
-/

set_option autoImplicit false
set_option relaxedAutoImplicit false

namespace Breadboard

variable {m : Type → Type} [Fallback m] {α β σ : Type} {P P' : α → Prop} {Q : β → Prop}

theorem provided_some (lapse : Lapse) (standIn a : α) :
    provided lapse standIn (some a) = (pure a : m α) := rfl

/-- Work without a lapse, which comes to a value with some property. -/
def WithoutLapse (work : m α) (P : α → Prop) : Prop :=
  ∃ a, work = pure a ∧ P a

namespace WithoutLapse

theorem pure {a : α} (h : P a) : WithoutLapse (pure a : m α) P :=
  ⟨a, rfl, h⟩

theorem imp {work : m α} (h : WithoutLapse work P) (himp : ∀ a, P a → P' a) :
    WithoutLapse work P' := by
  obtain ⟨a, hwork, ha⟩ := h
  exact ⟨a, hwork, himp a ha⟩

theorem bind {work : m α} {next : α → m β} (h : WithoutLapse work P)
    (hnext : ∀ a, P a → WithoutLapse (next a) Q) : WithoutLapse (work >>= next) Q := by
  obtain ⟨a, rfl, ha⟩ := h
  rw [pure_bind]
  exact hnext a ha

/-- Steps that are taken one by one, while something is kept of the state and what is behind it: the
induction is on what is in front. -/
theorem foldlM {step : σ → α → m σ} {I : σ → List α → Prop} {list : List α} {s : σ}
    (hstep : ∀ s a rest, I s (a :: rest) → WithoutLapse (step s a) (I · rest)) (hs : I s list) :
    WithoutLapse (list.foldlM step s) (I · []) := by
  induction list generalizing s with
  | nil => exact pure hs
  | cons a rest ih =>
    rw [List.foldlM_cons]
    exact (hstep s a rest hs).bind fun next hnext ↦ ih hnext

end WithoutLapse

/-- Items for each of which there is work without a lapse. -/
theorem mapM_eq_pure {f : α → m β} {g : α → β} {list : List α}
    (h : ∀ a ∈ list, f a = pure (g a)) : list.mapM f = pure (list.map g) := by
  induction list with
  | nil => exact List.mapM_nil
  | cons a list ih =>
    obtain ⟨ha, hlist⟩ := List.forall_mem_cons.mp h
    rw [List.mapM_cons, ha, pure_bind, ih hlist, pure_bind, List.map_cons]

/-- Things that are there one and all are listed. -/
theorem filterMapM_provided_eq_pure {lapse : α → Lapse} {f : α → Option β} {list : List α}
    (h : ∀ a ∈ list, (f a).isSome) :
    list.filterMapM (fun a ↦ provided (lapse a) none ((f a).map some)) =
      (pure (list.filterMap f) : m (List β)) := by
  induction list with
  | nil => exact List.filterMapM_nil
  | cons a list ih =>
    obtain ⟨ha, hlist⟩ := List.forall_mem_cons.mp h
    obtain ⟨b, hb⟩ := Option.isSome_iff_exists.mp ha
    rw [List.filterMapM_cons, hb, Option.map_some, provided_some, pure_bind, ih hlist,
      List.filterMap_cons_some hb]
    exact pure_bind ..

/-- Places that are visited in order: the induction is on what stands there. -/
theorem mapM_range'_eq_pure {f : Nat → m β} {g : α → β} {list : List α} {start : Nat}
    (h : ∀ i a, list[i]? = some a → f (start + i) = pure (g a)) :
    (List.range' start list.length).mapM f = pure (list.map g) := by
  induction list generalizing start with
  | nil => exact List.mapM_nil
  | cons a list ih =>
    have hmore : ∀ i b, list[i]? = some b → f (start + 1 + i) = pure (g b) := by
      intro i b hb
      rw [Nat.add_assoc, Nat.add_comm 1]
      exact h (i + 1) b hb
    have hfirst : f start = pure (g a) := h 0 a rfl
    rw [List.length_cons, List.range'_succ, List.mapM_cons, hfirst, pure_bind, ih hmore, pure_bind,
      List.map_cons]

/-- Results of two pieces of work that go the same way: what they come to is related, or what they
fail with is. -/
inductive SameOutcome {ε δ : Type} (R : α → β → Prop) (S : ε → δ → Prop) :
    Except ε α → Except δ β → Prop
  | ok {a : α} {b : β} : R a b → SameOutcome R S (.ok a) (.ok b)
  | error {e : ε} {d : δ} : S e d → SameOutcome R S (.error e) (.error d)

end Breadboard
