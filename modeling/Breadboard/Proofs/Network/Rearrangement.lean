import Breadboard.Proofs.Network.Isolation

/-!
# Flip-flops in another order

Two networks are rearranged when they have the same devices and differ only in the places that the
flip-flops have in the order of declaration. A settling then goes the same way in both, turn by
turn, since only gates take turns in it. The latching is the same in both when no clock depends on a
flip-flop. So a cycle that succeeds in one succeeds in the other, and they end up rearranged again
(`Rearranged.cycle`).
-/

set_option autoImplicit false
set_option relaxedAutoImplicit false

namespace Breadboard

namespace Network

variable {n m k l sampled sampled' : Network} {d : Device}

/-- Networks that have the same device under every name. -/
structure SameDevices (n k : Network) : Prop where
  ports : n.ports = k.ports
  device? : ∀ id, n.device? id = k.device? id

/-- The devices that are no flip-flops, in the order of their declaration. -/
def others (n : Network) : List Device :=
  n.devices.filter fun d ↦ d.kind ≠ .flipFlop

/-- The same devices with the same settings, and in the same order but for the flip-flops. -/
structure Rearranged (n k : Network) : Prop where
  ports : n.ports = k.ports
  settings : n.settings = k.settings
  perm : n.devices.Perm k.devices
  others : n.others = k.others

/-! ### Networks with the same devices -/

theorem SameDevices.symm (h : SameDevices n k) : SameDevices k n :=
  ⟨h.ports.symm, fun id ↦ (h.device? id).symm⟩

theorem SameDevices.output? (h : SameDevices n k) (t : Terminal) : n.output? t = k.output? t :=
  output?_congr h.ports (h.device? t.device)

theorem SameDevices.inputLevel (h : SameDevices n k) (d : Device) (port : NameId) :
    n.inputLevel d port = k.inputLevel d port :=
  inputLevel_congr fun t _ ↦ h.output? t

theorem SameDevices.pinLevels (h : SameDevices n k) (d : Device) :
    n.pinLevels d = k.pinLevels d :=
  pinLevels_congr fun _ _ t _ ↦ h.output? t

theorem SameDevices.nextLevel (h : SameDevices n k) (d : Device) :
    n.nextLevel d = k.nextLevel d := by
  rw [Network.nextLevel, Network.nextLevel, h.inputLevel, h.inputLevel, h.inputLevel, h.ports]

theorem SameDevices.wiredIn (h : SameDevices n k) : WiredIn n k := by
  intro id d hd
  exact ⟨d, (h.device? id).symm.trans hd, rfl, rfl⟩

theorem SameDevices.mapDevices (h : SameDevices n k) {f g : Device → Device}
    (hf : ∀ d, (f d).id = d.id) (hfg : ∀ d, f d = g d) :
    SameDevices (n.mapDevices f) (k.mapDevices g) := by
  obtain rfl : f = g := funext hfg
  refine ⟨h.ports, fun id ↦ ?_⟩
  rw [device?_mapDevices n hf, device?_mapDevices k hf, h.device? id]

/-- A device takes the same turn in both. -/
theorem SameDevices.refresh (h : SameDevices n k) (d : Device) :
    SameDevices (n.refresh d).1 (k.refresh d).1 := by
  rcases d.gate_or_not with ⟨g, output, helement⟩ | hnone
  · rw [refresh_of_gate helement, refresh_of_gate helement, h.pinLevels d]
    refine h.mapDevices (fun e ↦ ?_) fun _ ↦ rfl
    split <;> rfl
  · have hkeep : ∀ j : Network, j.refresh d = (j, false) := fun j ↦
      refresh_of_not_gate hnone
    rwa [hkeep n, hkeep k]

theorem SameDevices.tick (h : SameDevices n k) : SameDevices n.tick k.tick :=
  h.mapDevices (fun _ ↦ rfl) fun _ ↦ rfl

theorem SameDevices.rememberClocks (h : SameDevices n k) :
    SameDevices n.rememberClocks k.rememberClocks := by
  refine h.mapDevices (fun _ ↦ rfl) fun d ↦ ?_
  rw [h.inputLevel d, h.ports]

theorem SameDevices.latchAll (hsampled : SameDevices sampled sampled') (h : SameDevices n k) :
    SameDevices (latchAll sampled n) (latchAll sampled' k) := by
  refine h.mapDevices (fun _ ↦ rfl) fun d ↦ ?_
  rw [h.inputLevel d, h.ports, hsampled.nextLevel d]

/-! ### Rearranged networks -/

theorem Rearranged.distinctNames (h : Rearranged n k) (hn : n.DistinctNames) :
    k.DistinctNames :=
  (h.perm.map Device.id).nodup_iff.mp hn

theorem Rearranged.sameDevices (h : Rearranged n k) (hn : n.DistinctNames) : SameDevices n k := by
  refine ⟨h.ports, fun id ↦ ?_⟩
  cases hd : n.device? id with
  | some d =>
    rw [← id_of_device? hd]
    exact ((h.distinctNames hn).device?_id (h.perm.mem_iff.mp (mem_of_device? hd))).symm
  | none =>
    cases hk : k.device? id with
    | none => rfl
    | some e =>
      have he := hn.device?_id (h.perm.mem_iff.mpr (mem_of_device? hk))
      rw [id_of_device? hk, hd] at he
      cases he

/-- The names of the devices that are no flip-flops are a matter of wiring. -/
theorem ids_others_of_sameWiring (h : SameWiring n m) :
    n.others.map Device.id = m.others.map Device.id := by
  have hids : ∀ j : Network, ((j.devices.map (Device.mapElement Element.maskState)).filter
      fun d ↦ d.kind ≠ .flipFlop).map Device.id = j.others.map Device.id := by
    intro j
    rw [List.filter_map, List.map_map, others]
    refine congrArg₂ List.map (funext fun d ↦ rfl) (List.filter_congr fun d _ ↦ ?_)
    rw [Function.comp_apply, Device.kind, Device.mapElement, Element.kind_maskState, Device.kind]
  rw [← hids n, ← hids m, Alike.devices h]

/-- Devices in an order are known by their names. -/
theorem map_some_others (hn : n.DistinctNames) :
    n.others.map some = (n.others.map Device.id).map n.device? := by
  rw [List.map_map]
  exact List.map_congr_left fun d hd ↦ (hn.device?_id (List.mem_of_mem_filter hd)).symm

/-- Rearranged networks of which each goes into another state stay rearranged when the devices are
still the same. -/
theorem Rearranged.of_sameDevices (h : Rearranged n k) (hn : n.DistinctNames)
    (hm : SameWiring n m) (hl : SameWiring k l) (hsame : SameDevices m l) : Rearranged m l := by
  have hmnames := Alike.distinctNames hm hn
  have hlnames := Alike.distinctNames hl (h.distinctNames hn)
  refine ⟨hsame.ports, ?_, ?_, ?_⟩
  · rw [← Alike.settings hm, h.settings, Alike.settings hl]
  · refine (List.perm_ext_iff_of_nodup hmnames.of_map hlnames.of_map).mpr fun d ↦ ?_
    constructor
    · intro hd
      exact mem_of_device? ((hsame.device? d.id).symm.trans (hmnames.device?_id hd))
    · intro hd
      exact mem_of_device? ((hsame.device? d.id).trans (hlnames.device?_id hd))
  · refine List.map_injective_iff.mpr (Option.some_injective Device) ?_
    rw [map_some_others hmnames, map_some_others hlnames, ← ids_others_of_sameWiring hm,
      ← ids_others_of_sameWiring hl, h.others, funext hsame.device?]

theorem Rearranged.stable (h : Rearranged n k) (hn : n.DistinctNames) : n.Stable ↔ k.Stable := by
  have hagrees : ∀ d, n.Agrees d ↔ k.Agrees d := fun d ↦
    agrees_congr ((h.sameDevices hn).pinLevels d)
  constructor
  · intro hstable d hd
    exact (hagrees d).mp (hstable d (h.perm.mem_iff.mpr hd))
  · intro hstable d hd
    exact (hagrees d).mpr (hstable d (h.perm.mem_iff.mp hd))

/-! ### A cycle of rearranged networks -/

/-- Only the devices that are no flip-flops count in a pass. -/
theorem pass_fst (n : Network) : n.pass.1 = afterTurns refresh n.others n := by
  rw [pass, sweep_fst, others]
  refine afterTurns_filter _ fun k d _ hd ↦ ?_
  rw [refresh_of_not_gate]
  intro g output helement
  rw [decide_eq_false_iff_not, not_not, Device.kind, helement] at hd
  cases hd

theorem Rearranged.pass (h : Rearranged n k) (hn : n.DistinctNames) :
    Rearranged n.pass.1 k.pass.1 := by
  have hm := (alike_pass hn).sameWiring Element.kind_maskGate
  have hl := (alike_pass (h.distinctNames hn)).sameWiring Element.kind_maskGate
  refine h.of_sameDevices hn hm hl ?_
  rw [pass_fst, pass_fst, h.others]
  exact afterTurns_simulation (h.sameDevices hn) fun _ _ d hsame ↦ hsame.refresh d

theorem Rearranged.settle (h : Rearranged n k) (hn : n.DistinctNames) (hsettle : n.settle = .ok m) :
    ∃ l, k.settle = .ok l ∧ Rearranged m l := by
  have hlimit : k.iterationLimit = n.iterationLimit := by
    rw [iterationLimit, iterationLimit, h.settings, h.perm.length_eq]
  rw [Network.settle] at hsettle
  rw [Network.settle, hlimit]
  generalize n.iterationLimit = passes at hsettle
  clear hlimit
  induction passes generalizing n k with
  | zero => cases hsettle
  | succ passes ih =>
    rw [settleWithin_succ hn] at hsettle
    rw [settleWithin_succ (h.distinctNames hn)]
    by_cases hstable : n.Stable
    · rw [if_pos hstable, Except.ok.injEq] at hsettle
      rw [if_pos ((h.stable hn).mp hstable)]
      exact ⟨k, rfl, hsettle ▸ h⟩
    · rw [if_neg hstable] at hsettle
      rw [if_neg (mt (h.stable hn).mpr hstable)]
      exact ih (h.pass hn) ((alike_pass hn).distinctNames hn) hsettle

theorem Rearranged.latch (hsampled : SameDevices sampled sampled') (h : Rearranged n k)
    (hn : n.DistinctNames) (hisolated : n.ClocksIsolated) :
    Rearranged (latch sampled n).1 (latch sampled' k).1 := by
  have hk := h.distinctNames hn
  have hsame := h.sameDevices hn
  have hboth := hsampled.latchAll hsame
  have hisolated' : k.ClocksIsolated :=
    hisolated.of_wiredIn h.ports hk hsame.symm.wiredIn
  refine h.of_sameDevices hn (sameWiring_latch sampled hn) (sameWiring_latch sampled' hk) ?_
  refine ⟨?_, fun id ↦ ?_⟩
  · rw [← (alike_latch sampled hn).ports, ← (alike_latch sampled' hk).ports, h.ports]
  · rw [device?_latch_eq sampled hn hisolated, device?_latch_eq sampled' hk hisolated',
      hboth.device?]

/-- A cycle that succeeds goes the same way wherever the flip-flops are declared. -/
theorem Rearranged.cycle (h : Rearranged n k) (hn : n.DistinctNames)
    (hisolated : n.ClocksIsolated) (hcycle : n.cycle = .ok m) :
    ∃ l, k.cycle = .ok l ∧ Rearranged m l := by
  obtain ⟨start, ticked, rested, hphases, rfl⟩ := cycle_eq_ok_iff.mp hcycle
  obtain ⟨start', hstart', hstarts⟩ := h.settle hn hphases.settle_start
  have hstart := (hphases.sameWiring_start hn).distinctNames hn
  have hticks : Rearranged start.tick start'.tick := hstarts.of_sameDevices hstart
    (sameWiring_tick start) (sameWiring_tick start') (hstarts.sameDevices hstart).tick
  obtain ⟨ticked', hticked', htickeds⟩ :=
    hticks.settle ((sameWiring_tick start).distinctNames hstart) hphases.settle_ticked
  have hwiring := hphases.sameWiring_ticked hn
  have hticked := hwiring.distinctNames hn
  have hstable := hphases.stable_ticked hn
  have hlatches : Rearranged (Network.latch start ticked).1 (Network.latch start' ticked').1 := by
    refine htickeds.latch (hstarts.sameDevices hstart) hticked ?_
    exact hisolated.of_wiredIn hwiring.ports hticked (SameWiring.wiredIn hwiring.symm)
  have hlatch := (sameWiring_latch start hticked).distinctNames hticked
  obtain ⟨rested', hrested', hresteds⟩ := hlatches.settle hlatch (hphases.settle_latched hn)
  have hphases' : Phases k start' ticked' rested' := by
    refine ⟨hstart', hticked', ?_⟩
    rw [settleIf_eq_settle (htickeds.distinctNames hticked) ((htickeds.stable hticked).mp hstable),
      hrested']
  have hrested := (hphases.sameWiring_rested hn).distinctNames hn
  refine ⟨rested'.rememberClocks, cycle_eq_ok_iff.mpr ⟨_, _, _, hphases', rfl⟩, ?_⟩
  exact hresteds.of_sameDevices hrested (sameWiring_rememberClocks rested)
    (sameWiring_rememberClocks rested') (hresteds.sameDevices hrested).rememberClocks

end Network

end Breadboard
