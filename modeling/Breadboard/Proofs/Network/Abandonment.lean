import Breadboard.Proofs.Network.Latching
import Breadboard.Simulator

/-!
# Cycles that are abandoned

A cycle is abandoned in one of its three settlings, and the network stays as that settling leaves
it. In the first nothing but outputs of gates has changed. In the second every clock has ticked
once. In the third some flip-flops have taken their next levels as well, and have not seen that
their clocks rose (`Abandoned`). Nothing else of a network changes, and nothing of a simulator but
its network (`cycle_abandoned`).
-/

set_option autoImplicit false
set_option relaxedAutoImplicit false

namespace Breadboard

namespace Network

variable {n m k start ticked : Network} {d : Device}

/-- Every clock has ticked once from one network to the other. -/
def TickedOnce (n m : Network) : Prop :=
  ∀ d ∈ n.devices, ∀ halfPeriod counter output, d.element = .clock halfPeriod counter output →
    m.device? d.id = some { d with
      element :=
        if counter + 1 < halfPeriod then .clock halfPeriod (counter + 1) output
        else .clock halfPeriod 0 (!output) }

/-- The flip-flops of one network are in the other as they are. -/
def FlipFlopsKept (n m : Network) : Prop :=
  ∀ d ∈ n.devices, d.kind = .flipFlop → m.device? d.id = some d

/-- A flip-flop has its two outputs opposed in the end, and changed only if it had last seen its
clock low. It then took what its inputs asked for in `sampled`. -/
def LatchedAtMost (sampled n m : Network) (d : Device) : Prop :=
  m.heldBar d = (m.held d).map (!·) ∧
    (m.held d ≠ n.held d → d.lastClock? = some Level.low ∧
      m.held d = some
        (if sampled.inputLevel d sampled.ports.set = Level.high then Level.high
        else if sampled.inputLevel d sampled.ports.clear = Level.high then Level.low
        else sampled.inputLevel d sampled.ports.data))

/-- What a cycle that starts at `n` and is abandoned at `m` has done, by the settling that found no
rest. -/
inductive Abandoned (n m : Network) : Prop
  | first : n.settle = .error m → Alike Element.maskGate n m → Abandoned n m
  | second {start : Network} : n.settle = .ok start → start.tick.settle = .error m →
    TickedOnce n m → FlipFlopsKept n m → Abandoned n m
  | third {start ticked : Network} : n.settle = .ok start → start.tick.settle = .ok ticked →
    settleIf (latch start ticked) = .error m → TickedOnce n m →
    (∀ d ∈ n.devices, d.kind = .flipFlop → LatchedAtMost start n m d) → Abandoned n m

/-! ### Clocks -/

theorem tickedOnce_tick (hn : n.DistinctNames) : TickedOnce n n.tick := by
  intro d hd halfPeriod counter output helement
  have htick : n.tick.device? d.id = some (d.mapElement Element.tick) := by
    rw [tick, device?_mapDevices n (Device.id_mapElement _), hn.device?_id hd, Option.map_some]
  rw [htick, Device.mapElement, helement, Element.tick]
  by_cases hlt : counter + 1 < halfPeriod
  · rw [if_neg (Nat.not_le.mpr hlt), if_pos hlt]
  · rw [if_pos (Nat.not_lt.mp hlt), if_neg hlt]

/-- To settle before the tick does not touch the clocks. -/
theorem TickedOnce.settled_before (hn : n.DistinctNames) (hlike : Alike Element.maskGate n k)
    (h : TickedOnce k m) : TickedOnce n m := by
  intro d hd halfPeriod counter output helement
  have hkind : d.element.kind = .clock := by rw [helement, Element.kind]
  have hsame := hlike.device?_eq (hn.device?_id hd) (Element.shown_maskGate_of_clock hkind)
  exact h d (mem_of_device? hsame) halfPeriod counter output helement

/-- What shows clocks in full does not touch them after the tick. -/
theorem TickedOnce.alike_after {mask : Element → Element}
    (hmask : ∀ {element : Element}, element.kind = .clock → element.Shown mask)
    (h : TickedOnce n k) (hlike : Alike mask k m) : TickedOnce n m := by
  intro d hd halfPeriod counter output helement
  refine hlike.device?_eq (h d hd halfPeriod counter output helement) (hmask ?_)
  by_cases hlt : counter + 1 < halfPeriod
  · simp [hlt, Element.kind]
  · simp [hlt, Element.kind]

section Ticking

variable (hn : n.DistinctNames) (hstart : n.settle = .ok start)

include hn hstart

theorem tickedOnce_ticking : TickedOnce n start.tick := by
  have hlike := alike_of_settle hn hstart
  exact (tickedOnce_tick (hlike.distinctNames hn)).settled_before hn hlike

theorem tickedOnce_settle : TickedOnce n (finalState start.tick.settle) :=
  (tickedOnce_ticking hn hstart).alike_after Element.shown_maskGate_of_clock
    (alike_settle ((alike_ticking hn hstart).distinctNames hn))

theorem tickedOnce_resting (hticked : start.tick.settle = .ok ticked) :
    TickedOnce n (finalState (settleIf (latch start ticked))) := by
  have hcame : TickedOnce n ticked := by
    have hsettle := tickedOnce_settle hn hstart
    rwa [hticked] at hsettle
  have hlatched := hcame.alike_after Element.shown_maskHeld_of_clock
    (alike_latch start ((alike_ticked hn hstart hticked).distinctNames hn))
  exact hlatched.alike_after Element.shown_maskGate_of_clock
    (alike_settleIf ((alike_latched hn hstart hticked).distinctNames hn))

/-- A cycle that gets past its first settling ticks every clock once, however it ends. -/
theorem tickedOnce_cycle : TickedOnce n (finalState n.cycle) := by
  rcases cycle_cases n with ⟨left, hleft, -⟩ | ⟨begun, left, hbegun, hleft, hcycle⟩ |
    ⟨begun, ticked, left, hbegun, hticked, hleft, hcycle⟩ | ⟨begun, ticked, rested, h, hcycle⟩
  · cases hstart.symm.trans hleft
  · have hclocks := tickedOnce_settle hn hbegun
    rwa [hcycle, ← hleft]
  · have hclocks := tickedOnce_resting hn hbegun hticked
    rwa [hcycle, ← hleft]
  · have hclocks := tickedOnce_resting hn h.settle_start h.settle_ticked
    rw [h.settle_rested] at hclocks
    rw [hcycle]
    exact hclocks.alike_after Element.shown_maskLastClock_of_clock (alike_rememberClocks rested)

/-- Up to the latching, the flip-flops stay as they are. -/
theorem flipFlopsKept_settle : FlipFlopsKept n (finalState start.tick.settle) := by
  intro d hd hkind
  obtain ⟨q, lastClock, helement⟩ := Device.exists_flipFlop hkind
  exact device?_settling hn hstart (hn.device?_id hd) helement

end Ticking

/-! ### The whole cycle -/

theorem latchedAtMost_of_ticked (hn : n.WellFormed) (hstart : n.settle = .ok start)
    (hticked : start.tick.settle = .ok ticked) (hd : d ∈ n.devices) (hkind : d.kind = .flipFlop) :
    LatchedAtMost start n (finalState n.cycle) d := by
  obtain ⟨hheld, hbar⟩ := held_of_ticked hn hstart hticked hd hkind
  refine ⟨hbar, fun hchanged ↦ ?_⟩
  by_cases hlatches : Latches start ticked d
  · rw [if_pos hlatches] at hheld
    exact ⟨hlatches.1, hheld⟩
  · rw [if_neg hlatches] at hheld
    exact absurd hheld hchanged

theorem abandoned_of_cycle (hn : n.WellFormed) (h : n.cycle = .error m) : Abandoned n m := by
  have hnames := hn.distinctNames
  rcases cycle_cases n with ⟨left, hleft, hcycle⟩ | ⟨start, left, hstart, hleft, hcycle⟩ |
    ⟨start, ticked, left, hstart, hticked, hleft, hcycle⟩ | ⟨start, ticked, rested, -, hcycle⟩
  · obtain rfl := Except.error.inj (hcycle.symm.trans h)
    have hlike := alike_settle hnames
    rw [hleft] at hlike
    exact .first hleft hlike
  · obtain rfl := Except.error.inj (hcycle.symm.trans h)
    have hclocks := tickedOnce_settle hnames hstart
    have hkept := flipFlopsKept_settle hnames hstart
    rw [hleft] at hclocks hkept
    exact .second hstart hleft hclocks hkept
  · obtain rfl := Except.error.inj (hcycle.symm.trans h)
    have hclocks := tickedOnce_resting hnames hstart hticked
    rw [hleft] at hclocks
    refine .third hstart hticked hleft hclocks fun d hd hkind ↦ ?_
    have hlatched := latchedAtMost_of_ticked hn hstart hticked hd hkind
    rwa [h] at hlatched
  · rw [hcycle] at h
    cases h

/-- Assumes: a reachable network whose cycle is abandoned. The devices keep their order, kinds,
ports, connections, switch levels and half-periods, and the flip-flops the clock levels that they
have seen. What else has changed depends on the settling that found no rest. A simulator of the
network stays as it is otherwise, with all that is counted and recorded. -/
theorem cycle_abandoned (hn : n.Reachable) (h : n.cycle = .error m) :
    Alike Element.maskCycle n m ∧ Abandoned n m ∧
      ∀ s : Simulator, s.network = n → s.step = .error { s with network := m } := by
  refine ⟨alike_of_abandoned hn.wellFormed.distinctNames h, abandoned_of_cycle hn.wellFormed h, ?_⟩
  rintro s rfl
  rw [Simulator.step_eq, h]

/-- A flip-flop with a clock that is just set, and a NAND gate that feeds itself. The gate finds no
rest once the flip-flop holds a high level. -/
def switchedRing : Network :=
  built [.addDevice 22 .switch, .addDevice 23 .switch, .addDevice 24 .switch,
    .addDevice 25 .flipFlop, .addDevice 26 (.gate .nand), .addInputs 26 3,
    .setSwitch 23 Level.high, .setSwitch 24 Level.high, .connect ⟨22, none⟩ 25 16,
    .connect ⟨23, none⟩ 25 17, .connect ⟨25, some 20⟩ 26 0, .connect ⟨24, none⟩ 26 1,
    .connect ⟨26, none⟩ 26 2, .cycle, .setSwitch 22 Level.high]

theorem switchedRing_abandoned : ∃ m, switchedRing.cycle = .error m ∧
    Alike Element.maskCycle switchedRing m ∧ Abandoned switchedRing m := by
  have hcycle : switchedRing.cycle = .error (finalState switchedRing.cycle) := by decide +kernel
  have hreachable : switchedRing.Reachable := reachable_built _
  obtain ⟨hlike, habandoned, -⟩ := cycle_abandoned hreachable hcycle
  exact ⟨_, hcycle, hlike, habandoned⟩

end Network

end Breadboard
