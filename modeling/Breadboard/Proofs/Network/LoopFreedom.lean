import Breadboard.Proofs.Network.Firmness
import Breadboard.Proofs.Network.Reachable

/-!
# Loop free networks come to rest

In a loop free network every pass adds a gate to a firm set, whatever the levels, the order of
declaration and the turns that come too early (`settleWithin_of_firm`). So after as many passes as
there are gates the network is stable, and one pass more sees that nothing changes: more passes than
gates are enough for every settling (`settle_of_loopFree`).
-/

set_option autoImplicit false
set_option relaxedAutoImplicit false

namespace Breadboard

/-- The settings that are given to a network by default allow more passes than it has devices. -/
theorem Settings.lt_limit_default {deviceCount : Nat} (h : deviceCount < Settings.maxIterations) :
    deviceCount < ({} : Settings).limit deviceCount := by
  simp only [Settings.limit, Settings.maxIterations, UInt64.size] at h ⊢
  omega

namespace Network

variable {n m : Network}

/-- Where all gates are in a firm set, the network is stable. -/
theorem Firm.stable (h : n.Firm n.gateNames) : n.Stable := by
  intro d hd
  rcases d.gate_or_not with hgate | hnone
  · exact h.agrees d hd (mem_gateNames.mpr ⟨d, hd, Device.isGate_iff.mpr hgate, rfl⟩)
  · exact agrees_of_not_gate hnone

theorem gateNames_subset_of_sameWiring (hn : n.DistinctNames) (h : SameWiring n m) :
    n.gateNames ⊆ m.gateNames := by
  intro name hname
  obtain ⟨d, hd, hgate, rfl⟩ := mem_gateNames.mp hname
  obtain ⟨e, he, hid, -, hkind⟩ := SameWiring.exists_device? h (hn.device?_id hd)
  exact mem_gateNames.mpr ⟨e, mem_of_device? he, hkind ▸ hgate, hid⟩

/-- Assumes: a loop free network, a firm set of gates, and more passes than gates outside the set.
They are enough, by induction on the passes: each either changes nothing or adds a gate to the
set. -/
theorem settleWithin_of_firm {passes : Nat} {done : Finset NameId} (hn : n.DistinctNames)
    (hloop : n.LoopFree) (hfirm : n.Firm done) (hdone : done ⊆ n.gateNames)
    (hpasses : n.gateCount < passes + done.card) : ∃ m, settleWithin passes n = .ok m := by
  induction passes generalizing n done with
  | zero =>
    have hcard := (Finset.card_le_card hdone).trans n.card_gateNames_le
    omega
  | succ passes ih =>
    rw [settleWithin_succ hn]
    by_cases hstable : n.Stable
    · exact ⟨n, if_pos hstable⟩
    · rw [if_neg hstable]
      have hmissing : ∃ name ∈ n.gateNames, name ∉ done := by
        by_contra hall
        push Not at hall
        rw [Finset.Subset.antisymm hdone hall] at hfirm
        exact hstable hfirm.stable
      obtain ⟨d, hd, hgate, hfresh, hfeeders⟩ := hloop.exists_next hmissing
      have hlike := (alike_pass hn).sameWiring Element.kind_maskGate
      have hgates := gateNames_subset_of_sameWiring hn hlike
      have hgrown : n.pass.1.Firm (insert d.id done : Finset NameId) := by
        rw [Finset.coe_insert]
        exact firm_pass_insert hn hfirm hd hfeeders
      have hwithin : insert d.id done ⊆ n.pass.1.gateNames := by
        refine Finset.insert_subset ?_ (hdone.trans hgates)
        exact hgates (mem_gateNames.mpr ⟨d, hd, hgate, rfl⟩)
      refine ih (Alike.distinctNames hlike hn) (hloop.of_sameWiring hlike) hgrown hwithin ?_
      rw [Finset.card_insert_of_notMem hfresh, gateCount_of_sameWiring hlike]
      omega

/-- A loop free network comes to rest when it is allowed more passes than it has gates. -/
theorem settle_of_loopFree (hn : n.DistinctNames) (hloop : n.LoopFree)
    (hlimit : n.gateCount < n.iterationLimit) : ∃ m, n.settle = .ok m := by
  have hnone : n.Firm (∅ : Finset NameId) := by
    rw [Finset.coe_empty]
    exact ⟨fun _ _ _ hmem ↦ hmem.elim, fun _ _ hmem ↦ hmem.elim⟩
  refine settleWithin_of_firm hn hloop hnone (Finset.empty_subset _) ?_
  rwa [Finset.card_empty, Nat.add_zero]

/-- With the wiring of a loop free network and its limit, every other state of it comes to rest
too. -/
theorem settle_of_sameWiring (hn : n.DistinctNames) (hloop : n.LoopFree)
    (hlimit : n.gateCount < n.iterationLimit) (h : SameWiring n m) : ∃ k, m.settle = .ok k := by
  refine settle_of_loopFree (Alike.distinctNames h hn) (hloop.of_sameWiring h) ?_
  rwa [gateCount_of_sameWiring h, ← Alike.iterationLimit h]

theorem settleIf_of_sameWiring {state : Network × Bool} (hn : n.DistinctNames)
    (hloop : n.LoopFree) (hlimit : n.gateCount < n.iterationLimit) (h : SameWiring n state.1) :
    ∃ k, settleIf state = .ok k := by
  obtain ⟨m, changed⟩ := state
  cases changed with
  | true => exact settle_of_sameWiring hn hloop hlimit h
  | false => exact ⟨m, rfl⟩

/-- A loop free network never oscillates. Assumes: distinct names of devices, as every reachable
network has them, and no loop of gates; the levels are whatever they are. When more passes are
allowed than there are gates, a cycle succeeds, with all the settlings in it, and powering on ends
at rest, where one more pass changes nothing. The default settings allow that many, for as many
devices as can be counted. -/
theorem cycle_and_powerOn_of_loopFree (hn : n.DistinctNames) (hloop : n.LoopFree) :
    (n.gateCount < n.iterationLimit →
      (∃ start ticked rested, Phases n start ticked rested ∧
        n.cycle = .ok rested.rememberClocks) ∧
      (∃ settled, n.settle = .ok settled ∧ n.powerOn = settled.rememberClocks) ∧
      n.powerOn.Stable ∧ n.powerOn.pass = (n.powerOn, false)) ∧
    (n.settings = {} → n.devices.length < Settings.maxIterations →
      n.gateCount < n.iterationLimit) := by
  constructor
  · intro hlimit
    obtain ⟨start, hstart⟩ := settle_of_loopFree hn hloop hlimit
    have htick := (sameWiring_of_settle hn hstart).trans (sameWiring_tick start)
    obtain ⟨ticked, hticked⟩ := settle_of_sameWiring hn hloop hlimit htick
    obtain ⟨rested, hrested⟩ := settleIf_of_sameWiring hn hloop hlimit
      ((alike_latched hn hstart hticked).sameWiring Element.kind_maskCycle)
    have hphases : Phases n start ticked rested := ⟨hstart, hticked, hrested⟩
    have hpowerOn : n.powerOn = start.rememberClocks := by
      rw [powerOn, hstart, finalState]
    have hstable : n.powerOn.Stable := by
      rw [hpowerOn]
      exact stable_rememberClocks (stable_of_settle hn hstart)
    refine ⟨⟨start, ticked, rested, hphases, ?_⟩, ⟨start, hstart, hpowerOn⟩, hstable, ?_⟩
    · rw [cycle_eq_ok_iff]
      exact ⟨start, ticked, rested, hphases, rfl⟩
    · exact pass_of_stable ((sameWiring_powerOn hn).distinctNames hn) hstable
  · intro hsettings hlength
    rw [iterationLimit, hsettings]
    exact n.gateCount_le_length.trans_lt (Settings.lt_limit_default hlength)

/-- Two inverters and an XOR gate, declared against the direction of their signals, in a ring that a
flip-flop closes. Nothing has settled yet. -/
def ringThroughFlipFlop : Network :=
  built [.addDevice 22 (.gate .not), .addDevice 23 (.gate .not), .addDevice 24 (.gate .xor),
    .addDevice 25 .flipFlop, .addDevice 26 .switch, .addDevice 27 .clock, .setSwitch 26 Level.high,
    .connect ⟨23, none⟩ 22 0, .connect ⟨24, none⟩ 23 0, .connect ⟨25, some 20⟩ 24 0,
    .connect ⟨26, none⟩ 24 1, .connect ⟨27, none⟩ 25 16, .connect ⟨22, none⟩ 25 17]

theorem ringThroughFlipFlop_rests :
    ¬ ringThroughFlipFlop.Stable ∧ (∃ m, ringThroughFlipFlop.cycle = .ok m) ∧
      ringThroughFlipFlop.powerOn.Stable := by
  have hnames := (reachable_built _ : ringThroughFlipFlop.Reachable).wellFormed.distinctNames
  have hloop : ringThroughFlipFlop.LoopFree :=
    loopFree_of_rank (fun name ↦ 30 - name) (by decide)
  obtain ⟨hrest, hdefault⟩ := cycle_and_powerOn_of_loopFree hnames hloop
  obtain ⟨⟨start, ticked, rested, -, hcycle⟩, -, hstable, -⟩ :=
    hrest (hdefault rfl (by decide))
  exact ⟨by decide, ⟨_, hcycle⟩, hstable⟩

end Network

end Breadboard
