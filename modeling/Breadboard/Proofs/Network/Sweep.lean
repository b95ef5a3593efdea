import Breadboard.Proofs.Network.Lookup
import Mathlib.Tactic.ByContra

/-!
# Sweeps

In a sweep the devices take turns, each on the network as the turns before left it. Where a turn
that raises no flag changes nothing, a sweep that raises no flag changed nothing, and no device of
it has a turn to take (`sweep_quiet`). Where a turn concerns its own device only, what a sweep makes
of a device is what the turn of that device makes of it (`device?_sweep`).
-/

set_option autoImplicit false
set_option relaxedAutoImplicit false

namespace Breadboard

namespace Network

variable {turn : Network → Device → Network × Bool} {n k : Network} {d : Device}
  {devices : List Device}

/-- The network after the turns of some devices. -/
def afterTurns (turn : Network → Device → Network × Bool) (devices : List Device) (n : Network) :
    Network :=
  devices.foldl (fun k d ↦ (turn k d).1) n

@[simp]
theorem afterTurns_cons : afterTurns turn (d :: devices) n =
    afterTurns turn devices (turn n d).1 := rfl

theorem afterTurns_append (first second : List Device) :
    afterTurns turn (first ++ second) n = afterTurns turn second (afterTurns turn first n) :=
  List.foldl_append

/-- What every turn keeps, the turns of some devices keep. -/
theorem afterTurns_induction {P : Network → Prop} (hn : P n)
    (hturn : ∀ k, ∀ d ∈ devices, P k → P (turn k d).1) : P (afterTurns turn devices n) := by
  induction devices generalizing n with
  | nil => exact hn
  | cons d rest ih =>
    exact ih (hturn n d List.mem_cons_self hn)
      fun k e he ↦ hturn k e (List.mem_cons_of_mem d he)

/-- Devices whose turns change nothing can be passed over. -/
theorem afterTurns_filter (p : Device → Bool)
    (hidle : ∀ k, ∀ d ∈ devices, p d = false → (turn k d).1 = k) :
    afterTurns turn devices n = afterTurns turn (devices.filter p) n := by
  induction devices generalizing n with
  | nil => rfl
  | cons d rest ih =>
    have hrest : ∀ k, ∀ e ∈ rest, p e = false → (turn k e).1 = k :=
      fun k e he ↦ hidle k e (List.mem_cons_of_mem d he)
    by_cases hp : p d
    · rw [List.filter_cons_of_pos hp, afterTurns_cons, afterTurns_cons, ih hrest]
    · rw [List.filter_cons_of_neg hp, afterTurns_cons,
        hidle n d List.mem_cons_self (Bool.of_not_eq_true hp), ih hrest]

/-- What every turn keeps between two networks, the turns of the same devices keep. -/
theorem afterTurns_simulation {R : Network → Network → Prop} {m : Network} (hstart : R n m)
    (hturn : ∀ k l d, R k l → R (turn k d).1 (turn l d).1) :
    R (afterTurns turn devices n) (afterTurns turn devices m) := by
  induction devices generalizing n m with
  | nil => exact hstart
  | cons d rest ih => exact ih (hturn n m d hstart)

/-- A device's turn together with the flag of the turns before. -/
private def flaggedTurn (turn : Network → Device → Network × Bool) (state : Network × Bool)
    (d : Device) : Network × Bool :=
  ((turn state.1 d).1, state.2 || (turn state.1 d).2)

private theorem foldl_flaggedTurn_fst (state : Network × Bool) :
    (devices.foldl (flaggedTurn turn) state).1 = afterTurns turn devices state.1 := by
  induction devices generalizing state with
  | nil => rfl
  | cons d rest ih => exact ih _

/-- A flag once raised stays up. -/
private theorem foldl_flaggedTurn_raised :
    (devices.foldl (flaggedTurn turn) (n, true)).2 = true := by
  induction devices generalizing n with
  | nil => rfl
  | cons d rest ih => exact ih

private theorem foldl_flaggedTurn_quiet
    (hself : ∀ d ∈ devices, (turn n d).2 = false → (turn n d).1 = n)
    (hquiet : (devices.foldl (flaggedTurn turn) (n, false)).2 = false) :
    afterTurns turn devices n = n ∧ ∀ d ∈ devices, (turn n d).2 = false := by
  induction devices with
  | nil => exact ⟨rfl, fun d hd ↦ absurd hd List.not_mem_nil⟩
  | cons d rest ih =>
    have hflag : (turn n d).2 = false := by
      by_contra hraised
      rw [List.foldl_cons, flaggedTurn, Bool.false_or, Bool.of_not_eq_false hraised,
        foldl_flaggedTurn_raised] at hquiet
      exact Bool.noConfusion hquiet
    have hsame : (turn n d).1 = n := hself d List.mem_cons_self hflag
    rw [List.foldl_cons, flaggedTurn, hsame, hflag] at hquiet
    obtain ⟨hrest, hflags⟩ := ih (fun e he ↦ hself e (List.mem_cons_of_mem d he)) hquiet
    refine ⟨by rw [afterTurns_cons, hsame, hrest], ?_⟩
    intro e he
    rcases List.mem_cons.mp he with rfl | he
    · exact hflag
    · exact hflags e he

theorem sweep_fst : (n.sweep turn).1 = afterTurns turn n.devices n :=
  foldl_flaggedTurn_fst (n, false)

/-- A sweep that raises no flag changed nothing, and found nothing to change. -/
theorem sweep_quiet (hself : ∀ d ∈ n.devices, (turn n d).2 = false → (turn n d).1 = n)
    (hquiet : (n.sweep turn).2 = false) :
    (n.sweep turn).1 = n ∧ ∀ d ∈ n.devices, (turn n d).2 = false := by
  rw [sweep_fst]
  exact foldl_flaggedTurn_quiet hself hquiet

/-- A sweep in which nobody has a turn to take changes nothing. -/
theorem sweep_of_quiet (hquiet : ∀ d ∈ n.devices, turn n d = (n, false)) :
    n.sweep turn = (n, false) := by
  have hfold : ∀ devices : List Device, (∀ d ∈ devices, turn n d = (n, false)) →
      devices.foldl (flaggedTurn turn) (n, false) = (n, false) := by
    intro devices hdevices
    induction devices with
    | nil => rfl
    | cons d rest ih =>
      rw [List.foldl_cons, flaggedTurn, hdevices d List.mem_cons_self]
      exact ih fun e he ↦ hdevices e (List.mem_cons_of_mem d he)
  exact hfold n.devices hquiet

/-! ### Turns that concern their own device only -/

/-- A turn leaves alone every device but the one that takes it. -/
def Local (turn : Network → Device → Network × Bool) : Prop :=
  ∀ k d i, i ≠ d.id → (turn k d).1.device? i = k.device? i

/-- Devices that are not among those that take turns stay as they are. -/
theorem Local.device?_afterTurns (hlocal : Local turn) {i : NameId}
    (hi : i ∉ devices.map Device.id) : (afterTurns turn devices n).device? i = n.device? i := by
  induction devices generalizing n with
  | nil => rfl
  | cons d rest ih =>
    rw [List.map_cons, List.mem_cons, not_or] at hi
    rw [afterTurns_cons, ih hi.2, hlocal n d i hi.1]

section Split

variable {before after : List Device}

theorem mem_of_mem_before (hsplit : n.devices = before ++ after) (hd : d ∈ before) :
    d ∈ n.devices := by
  rw [hsplit]
  exact List.mem_append_left _ hd

theorem DistinctNames.not_mem_before (hn : n.DistinctNames)
    (hsplit : n.devices = before ++ d :: after) : d.id ∉ before.map Device.id := by
  rw [DistinctNames, hsplit, List.map_append, List.map_cons] at hn
  intro hmem
  exact List.disjoint_of_nodup_append hn hmem List.mem_cons_self

theorem DistinctNames.not_mem_after (hn : n.DistinctNames)
    (hsplit : n.devices = before ++ d :: after) : d.id ∉ after.map Device.id := by
  rw [DistinctNames, hsplit, List.map_append, List.map_cons] at hn
  exact (List.nodup_cons.mp hn.of_append_right).1

/-- A device comes to its turn as the sweep found it. -/
theorem Local.device?_before (hlocal : Local turn) (hn : n.DistinctNames)
    (hsplit : n.devices = before ++ d :: after) :
    (afterTurns turn before n).device? d.id = some d := by
  rw [hlocal.device?_afterTurns (hn.not_mem_before hsplit)]
  exact hn.device?_id (by rw [hsplit]; exact List.mem_append_cons_self)

/-- A sweep makes of a device what the turn of the device makes of it. -/
theorem Local.device?_sweep (hlocal : Local turn) (hn : n.DistinctNames)
    (hsplit : n.devices = before ++ d :: after) :
    (n.sweep turn).1.device? d.id = (turn (afterTurns turn before n) d).1.device? d.id := by
  rw [sweep_fst, hsplit, afterTurns_append, afterTurns_cons,
    hlocal.device?_afterTurns (hn.not_mem_after hsplit)]

end Split

end Network

end Breadboard
