import Breadboard.Proofs.Network.Likeness
import Breadboard.Proofs.Network.Sweep

/-!
# What settling does

A gate's turn changes the output of that gate at most, so settling changes the outputs of gates and
nothing else (`alike_settle`). A pass raises no flag exactly when the network is stable, although it
reads levels at different moments: as long as no turn changes anything, all of them read the same
levels (`pass_quiet_iff`). So settling succeeds exactly when some pass starts from a stable network,
and ends in that network (`settleWithin_succ`).
-/

set_option autoImplicit false
set_option relaxedAutoImplicit false

namespace Breadboard

namespace Network

variable {n m k start : Network} {d : Device}

/-! ### Gates -/

theorem output?_of_gate {id : NameId} {g : Gate} {output : Level} (hd : n.device? id = some d)
    (helement : d.element = .gate g output) : n.output? ⟨id, none⟩ = some output := by
  rw [output?, hd, Option.bind_some, Device.output?, Device.outputs, helement]
  rfl

/-- The device that a turn is about, as the network has it now. -/
theorem exists_current (hn : start.DistinctNames) (hlike : Alike Element.maskGate start k)
    (hd : d ∈ start.devices) {g : Gate} {output : Level} (helement : d.element = .gate g output) :
    ∃ e now, k.device? d.id = some e ∧ e.id = d.id ∧ e.pins = d.pins ∧
      e.element = .gate g now := by
  obtain ⟨e, he, hid, hpins, hmask⟩ := hlike.exists_device? (hn.device?_id hd)
  rw [helement] at hmask
  cases hcurrent : e.element with
  | gate g' now =>
    rw [hcurrent, Element.maskGate, Element.maskGate, Element.gate.injEq] at hmask
    exact ⟨e, now, he, hid, hpins, hmask.1 ▸ hcurrent⟩
  | _ => simp [hcurrent, Element.maskGate] at hmask

/-! ### One turn -/

theorem refresh_of_gate {g : Gate} {output : Level} (hd : d.element = .gate g output) :
    n.refresh d = (n.update d.id (Device.mapElement fun _ ↦ .gate g (g.evaluate (n.pinLevels d))),
      g.evaluate (n.pinLevels d) != output) := by
  rw [refresh, hd]

theorem refresh_of_not_gate (hd : ∀ g output, d.element ≠ .gate g output) :
    n.refresh d = (n, false) := by
  rw [refresh]
  split
  · next g output hgate => exact absurd hgate (hd g output)
  · rfl

theorem agrees_of_gate {g : Gate} {output : Level} (hd : d.element = .gate g output) :
    n.Agrees d ↔ output = g.evaluate (n.pinLevels d) := by
  rw [Agrees, hd]

theorem agrees_of_not_gate (hd : ∀ g output, d.element ≠ .gate g output) : n.Agrees d := by
  rw [Agrees]
  split
  · next g output hgate => exact absurd hgate (hd g output)
  · trivial

theorem agrees_congr (h : n.pinLevels d = m.pinLevels d) : n.Agrees d ↔ m.Agrees d := by
  rw [Agrees, Agrees, h]

theorem local_refresh : Local refresh := by
  intro k d i hi
  rcases d.gate_or_not with ⟨g, output, hd⟩ | hnone
  · rw [refresh_of_gate hd]
    exact device?_update_of_ne (Device.id_mapElement _) hi
  · rw [refresh_of_not_gate hnone]

theorem refresh_snd : (n.refresh d).2 = false ↔ n.Agrees d := by
  rcases d.gate_or_not with ⟨g, output, hd⟩ | hnone
  · rw [refresh_of_gate hd, agrees_of_gate hd, bne_eq_false_iff_eq]
    exact eq_comm
  · have hd : ∀ g output, d.element ≠ .gate g output := hnone
    simp [refresh_of_not_gate hd, agrees_of_not_gate hd]

/-- A device that agrees with the network has no turn to take. -/
theorem refresh_of_agrees (hn : n.DistinctNames) (hd : d ∈ n.devices) (h : n.Agrees d) :
    n.refresh d = (n, false) := by
  refine Prod.ext ?_ (refresh_snd.mpr h)
  rcases d.gate_or_not with ⟨g, output, helement⟩ | hnone
  · rw [refresh_of_gate helement, ← (agrees_of_gate helement).mp h, ← helement]
    refine update_eq_self fun e he hid ↦ ?_
    rw [hn.eq_of_id he hd hid]
    rfl
  · rw [refresh_of_not_gate hnone]

/-- A turn changes the output of a gate at most. The device is as it was when the pass began. -/
theorem alike_refresh (hn : start.DistinctNames) (hlike : Alike Element.maskGate start k)
    (hd : d ∈ start.devices) : Alike Element.maskGate k (k.refresh d).1 := by
  rcases d.gate_or_not with ⟨g, output, helement⟩ | hnone
  · rw [refresh_of_gate helement]
    refine alike_update fun e he hid ↦ ?_
    rw [(hlike.parts_eq hn hd he hid).2, helement]
    rfl
  · rw [refresh_of_not_gate hnone]
    exact Alike.refl ..

/-! ### One pass -/

/-- What every turn of a pass keeps, any part of the pass keeps, and the part changes the outputs of
gates at most. -/
theorem afterTurns_refresh_induction {P : Network → Prop} (hn : n.DistinctNames)
    {devices : List Device} (hdevices : ∀ d ∈ devices, d ∈ n.devices)
    (hlike : Alike Element.maskGate n k) (hP : P k)
    (hturn : ∀ l, Alike Element.maskGate n l → ∀ d ∈ n.devices, P l → P (l.refresh d).1) :
    Alike Element.maskGate n (afterTurns refresh devices k) ∧
      P (afterTurns refresh devices k) := by
  refine afterTurns_induction (P := fun l ↦ Alike Element.maskGate n l ∧ P l) ⟨hlike, hP⟩ ?_
  rintro l d hd ⟨hlike, hl⟩
  exact ⟨hlike.trans (alike_refresh hn hlike (hdevices d hd)),
    hturn l hlike d (hdevices d hd) hl⟩

/-- What every turn of a pass keeps, the pass keeps. -/
theorem pass_induction {P : Network → Prop} (hn : n.DistinctNames) (hP : P n)
    (hturn : ∀ k, Alike Element.maskGate n k → ∀ d ∈ n.devices, P k → P (k.refresh d).1) :
    P n.pass.1 := by
  rw [pass, sweep_fst]
  exact (afterTurns_refresh_induction hn (fun _ hd ↦ hd) (Alike.refl ..) hP hturn).2

theorem alike_pass (hn : n.DistinctNames) : Alike Element.maskGate n n.pass.1 :=
  pass_induction hn (Alike.refl ..) fun _ hlike _ hd _ ↦ hlike.trans (alike_refresh hn hlike hd)

theorem pass_of_stable (hn : n.DistinctNames) (h : n.Stable) : n.pass = (n, false) :=
  sweep_of_quiet fun d hd ↦ refresh_of_agrees hn hd (h d hd)

/-- A pass that raises no flag started from a stable network. -/
theorem stable_of_pass (hn : n.DistinctNames) (h : n.pass.2 = false) : n.Stable := by
  have hself : ∀ d ∈ n.devices, (n.refresh d).2 = false → (n.refresh d).1 = n := by
    intro d hd hflag
    rw [refresh_of_agrees hn hd (refresh_snd.mp hflag)]
  intro d hd
  exact refresh_snd.mp ((sweep_quiet hself h).2 d hd)

theorem pass_quiet_iff (hn : n.DistinctNames) : n.pass.2 = false ↔ n.Stable :=
  ⟨stable_of_pass hn, fun h ↦ by rw [pass_of_stable hn h]⟩

/-! ### Settling -/

theorem settleWithin_succ (hn : n.DistinctNames) (passes : Nat) :
    settleWithin (passes + 1) n =
      if n.Stable then .ok n else settleWithin passes n.pass.1 := by
  rw [settleWithin]
  by_cases h : n.Stable
  · rw [if_pos h, pass_of_stable hn h]
  · have hflag : n.pass.2 = true := by
      rw [← pass_quiet_iff hn, Bool.not_eq_false] at h
      exact h
    rw [if_neg h, show n.pass = (n.pass.1, true) from Prod.ext rfl hflag]

/-- What every turn keeps, settling keeps, to whatever end it comes. -/
theorem settleWithin_induction {P : Network → Prop} (hn : n.DistinctNames) (hP : P n)
    (hturn : ∀ start k, Alike Element.maskGate n start → Alike Element.maskGate start k →
      ∀ d ∈ start.devices, P k → P (k.refresh d).1) (passes : Nat) :
    P (finalState (settleWithin passes n)) := by
  induction passes generalizing n with
  | zero => exact hP
  | succ passes ih =>
    rw [settleWithin_succ hn]
    split
    · exact hP
    · have hlike := alike_pass hn
      refine ih (hlike.distinctNames hn) ?_ fun start k hstart ↦ hturn start k (hlike.trans hstart)
      exact pass_induction hn hP (hturn n · (Alike.refl ..))

theorem alike_settle (hn : n.DistinctNames) :
    Alike Element.maskGate n (finalState n.settle) := by
  refine settleWithin_induction (P := Alike Element.maskGate n) hn (Alike.refl ..) ?_ _
  intro start k hstart hk d hd h
  exact h.trans (alike_refresh (hstart.distinctNames hn) hk hd)

theorem alike_of_settle (hn : n.DistinctNames) (h : n.settle = .ok m) :
    Alike Element.maskGate n m := by
  have hlike := alike_settle hn
  rwa [h] at hlike

/-- Settling ends in a stable network or says that it does not. -/
theorem stable_of_settle (hn : n.DistinctNames) (h : n.settle = .ok m) : m.Stable := by
  rw [settle] at h
  generalize n.iterationLimit = passes at h
  induction passes generalizing n with
  | zero => cases h
  | succ passes ih =>
    rw [settleWithin_succ hn] at h
    split at h
    · next hstable =>
      cases h
      exact hstable
    · exact ih ((alike_pass hn).distinctNames hn) h

/-- A stable network is at rest as it is. -/
theorem settle_of_stable (hn : n.DistinctNames) (h : n.Stable) : n.settle = .ok n := by
  obtain ⟨passes, hpasses⟩ := Nat.exists_eq_succ_of_ne_zero
    (Nat.ne_of_gt (n.settings.limit_pos n.devices.length))
  rw [settle, iterationLimit, hpasses, settleWithin_succ hn, if_pos h]

end Network

end Breadboard
