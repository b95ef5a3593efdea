import Breadboard.Proofs.Network.Abandonment
import Breadboard.Proofs.Network.Consistency

/-!
# Quiet cycles

A network is at rest when every gate obeys its law and every flip-flop has seen its clock
(`AtRest`). A cycle that succeeds leaves it so, and so do a power-on and a reset whose settling
succeeds (`ComesToRest`). At rest a cycle has nothing to do but to count: no gate has a turn to
take, and a clock that is high is not a clock that rises. Only a clock that comes to its half-period
can disturb the rest. So these two conditions are exactly when a cycle changes nothing but the
counts of the clocks (`cycle_eq_countOn_iff`), and as long as no clock comes to its half-period,
cycle after cycle does no more (`runCycles_of_atRest`). The whole is `rest_lasts`.
-/

set_option autoImplicit false
set_option relaxedAutoImplicit false

namespace Breadboard

namespace Element

/-- An element that has counted so many cycles more, if it is a clock. -/
def countOn (cycles : Nat) : Element → Element
  | .clock halfPeriod counter output => .clock halfPeriod (counter + cycles) output
  | element => element

/-- A clock does not come to its half-period in so many cycles. -/
def Holds (cycles : Nat) : Element → Prop
  | .clock halfPeriod counter _ => counter + cycles < halfPeriod
  | _ => True

instance (cycles : Nat) (element : Element) : Decidable (element.Holds cycles) := by
  unfold Holds
  split <;> infer_instance

/-- A clock ticks without turning over exactly when it does not come to its half-period. -/
theorem tick_eq_countOn_iff {element : Element} :
    element.tick = element.countOn 1 ↔ element.Holds 1 := by
  cases element with
  | clock halfPeriod counter output =>
    rw [tick, countOn, Holds]
    by_cases hdue : counter + 1 ≥ halfPeriod
    · rw [if_pos hdue]
      exact iff_of_false (fun h ↦ Nat.succ_ne_zero counter (clock.inj h).2.1.symm)
        (Nat.not_lt.mpr hdue)
    · rw [if_neg hdue]
      exact iff_of_true rfl (Nat.not_le.mp hdue)
  | _ => exact iff_of_true rfl trivial

theorem countOn_countOn (first second : Nat) (element : Element) :
    (element.countOn first).countOn second = element.countOn (first + second) := by
  cases element with
  | clock halfPeriod counter output => rw [countOn, countOn, countOn, Nat.add_assoc]
  | _ => rfl

theorem Holds.countOn {cycles : Nat} {element : Element} (h : element.Holds (1 + cycles)) :
    (element.countOn 1).Holds cycles := by
  cases element with
  | clock halfPeriod counter output =>
    rw [Element.countOn, Holds, Nat.add_assoc]
    exact h
  | _ => trivial

theorem Holds.mono {few many : Nat} {element : Element} (h : element.Holds many)
    (hle : few ≤ many) : element.Holds few := by
  cases element with
  | clock halfPeriod counter output =>
    rw [Holds] at h ⊢
    omega
  | _ => trivial

theorem countOn_of_not_clock {cycles : Nat} {element : Element} (h : element.kind ≠ .clock) :
    element.countOn cycles = element := by
  cases element with
  | clock => exact absurd rfl h
  | _ => rfl

theorem holds_of_not_clock {cycles : Nat} {element : Element} (h : element.kind ≠ .clock) :
    element.Holds cycles := by
  cases element with
  | clock => exact absurd rfl h
  | _ => trivial

end Element

namespace Network

variable {n m : Network} {d : Device} {count : Nat}

/-- Nothing is under way: every gate obeys its law, and every flip-flop has seen its clock. -/
structure AtRest (n : Network) : Prop where
  consistent : n.Consistent
  clocksSeen : n.ClocksSeen

/-- No clock comes to its half-period in so many cycles. -/
def ClocksHold (n : Network) (cycles : Nat) : Prop :=
  ∀ d ∈ n.devices, d.element.Holds cycles

instance (n : Network) (cycles : Nat) : Decidable (n.ClocksHold cycles) :=
  inferInstanceAs (Decidable (∀ d ∈ n.devices, d.element.Holds cycles))

/-- The network with so many cycles more on the count of every clock. -/
def countOn (cycles : Nat) (n : Network) : Network :=
  n.mapDevices (Device.mapElement (Element.countOn cycles))

/-- The ways in which a network comes to rest, with where it comes to. -/
inductive ComesToRest (n : Network) : Network → Prop
  /-- A cycle succeeds. -/
  | cycle {m : Network} : n.cycle = .ok m → ComesToRest n m
  /-- The network is powered on, and settles. -/
  | powerOn {m : Network} : n.settle = .ok m → ComesToRest n n.powerOn
  /-- The network is set back to time zero, and settles. -/
  | reset {m : Network} : n.clearDevices.settle = .ok m → ComesToRest n n.reset

/-! ### Counting -/

@[simp]
theorem devices_countOn (cycles : Nat) (n : Network) :
    (n.countOn cycles).devices = n.devices.map (Device.mapElement (Element.countOn cycles)) := rfl

@[simp]
theorem ports_countOn (cycles : Nat) (n : Network) : (n.countOn cycles).ports = n.ports := rfl

theorem output?_countOn (cycles : Nat) (n : Network) (t : Terminal) :
    (n.countOn cycles).output? t = n.output? t := by
  have hshown : ∀ d : Device, (d.mapElement (Element.countOn cycles)).output? n.ports t.port =
      d.output? n.ports t.port := by
    intro d
    rw [Device.output?, Device.output?, Device.outputs, Device.outputs, Device.mapElement]
    cases d.element <;> rfl
  rw [output?, output?, countOn, device?_mapDevices n (Device.id_mapElement _)]
  cases n.device? t.device with
  | none => rfl
  | some d => exact hshown d

/-- A count shows in no level, so it does not disturb the rest, nor does it bring it about. -/
theorem atRest_countOn_iff (cycles : Nat) : (n.countOn cycles).AtRest ↔ n.AtRest := by
  have hlevels : ∀ d : Device,
      (n.countOn cycles).pinLevels (d.mapElement (Element.countOn cycles)) = n.pinLevels d :=
    fun d ↦ pinLevels_congr fun _ _ t _ ↦ output?_countOn cycles n t
  have hclock : ∀ d : Device, (n.countOn cycles).inputLevel
      (d.mapElement (Element.countOn cycles)) n.ports.clk = n.inputLevel d n.ports.clk :=
    fun d ↦ inputLevel_congr fun t _ ↦ output?_countOn cycles n t
  have hgate : ∀ (d : Device) g output,
      (d.mapElement (Element.countOn cycles)).element = .gate g output ↔
        d.element = .gate g output := by
    intro d g output
    rw [Device.mapElement]
    cases d.element <;> simp [Element.countOn]
  have hflipFlop : ∀ (d : Device) q lastClock,
      (d.mapElement (Element.countOn cycles)).element = .flipFlop q lastClock ↔
        d.element = .flipFlop q lastClock := by
    intro d q lastClock
    rw [Device.mapElement]
    cases d.element <;> simp [Element.countOn]
  have hconsistent : (n.countOn cycles).Consistent ↔ n.Consistent := by
    rw [Consistent, Consistent, devices_countOn, List.forall_mem_map]
    exact forall₂_congr fun d _ ↦ forall₂_congr fun g output ↦ by rw [hgate, hlevels]
  have hseen : (n.countOn cycles).ClocksSeen ↔ n.ClocksSeen := by
    rw [ClocksSeen, ClocksSeen, devices_countOn, ports_countOn, List.forall_mem_map]
    exact forall₂_congr fun d _ ↦ forall₂_congr fun q lastClock ↦ by rw [hflipFlop, hclock]
  exact ⟨fun h ↦ ⟨hconsistent.mp h.consistent, hseen.mp h.clocksSeen⟩,
    fun h ↦ ⟨hconsistent.mpr h.consistent, hseen.mpr h.clocksSeen⟩⟩

theorem distinctNames_countOn_iff (cycles : Nat) :
    (n.countOn cycles).DistinctNames ↔ n.DistinctNames :=
  distinctNames_mapDevices (Device.id_mapElement _)

theorem countOn_countOn (first second : Nat) (n : Network) :
    (n.countOn first).countOn second = n.countOn (first + second) := by
  rw [countOn, countOn, countOn, mapDevices, mapDevices, mapDevices, List.map_map]
  congr 2
  funext d
  rw [Function.comp_apply, Device.mapElement, Device.mapElement, Device.mapElement,
    Element.countOn_countOn]

theorem countOn_zero (n : Network) : n.countOn 0 = n := by
  have hsame : Device.mapElement (Element.countOn 0) = id := by
    funext d
    obtain ⟨id, element, pins⟩ := d
    cases element <;> rfl
  rw [countOn, mapDevices, hsame, List.map_id]

theorem ClocksHold.countOn (h : n.ClocksHold (1 + count)) : (n.countOn 1).ClocksHold count :=
  List.forall_mem_map.mpr fun d hd ↦ (h d hd).countOn

theorem ClocksHold.tick_eq (h : n.ClocksHold 1) : n.tick = n.countOn 1 := by
  rw [tick, Network.countOn, mapDevices, mapDevices]
  congr 1
  exact List.map_congr_left fun d hd ↦ by
    rw [Device.mapElement, Device.mapElement, Element.tick_eq_countOn_iff.mpr (h d hd)]

/-! ### Rest -/

theorem atRest_rememberClocks (h : n.Stable) : n.rememberClocks.AtRest :=
  ⟨consistent_iff_stable.mpr (stable_rememberClocks h), clocksSeen_rememberClocks n⟩

theorem ComesToRest.atRest (hn : n.DistinctNames) (h : n.ComesToRest m) : m.AtRest := by
  cases h with
  | cycle hcycle =>
    exact ⟨consistent_iff_stable.mpr (stable_of_cycle hn hcycle), clocksSeen_of_cycle hcycle⟩
  | powerOn hsettle =>
    rw [Network.powerOn, hsettle]
    exact atRest_rememberClocks (stable_of_settle hn hsettle)
  | reset hsettle =>
    rw [Network.reset, Network.powerOn, hsettle]
    exact atRest_rememberClocks
      (stable_of_settle ((sameWiring_clearDevices n).distinctNames hn) hsettle)

theorem ComesToRest.sameWiring (hn : n.DistinctNames) (h : n.ComesToRest m) : SameWiring n m := by
  cases h with
  | cycle hcycle => exact sameWiring_of_cycle hn hcycle
  | powerOn => exact sameWiring_powerOn hn
  | reset => exact sameWiring_reset hn

/-- A flip-flop that has seen its clock does not see it rise. -/
theorem ClocksSeen.latch_eq (h : n.ClocksSeen) (sampled : Network) :
    latch sampled n = (n, false) := by
  refine sweep_of_quiet fun d hd ↦ ?_
  rcases d.flipFlop_or_not with ⟨q, lastClock, helement⟩ | hnone
  · rw [latchOne_of_flipFlop helement, if_neg]
    rintro ⟨hlow, hhigh⟩
    have hseen := h d hd q lastClock helement
    rw [hlow, hhigh] at hseen
    exact Bool.false_ne_true hseen
  · exact latchOne_of_not_flipFlop hnone

/-- A flip-flop that has seen its clock has nothing to remember. -/
theorem ClocksSeen.rememberClocks_eq (h : n.ClocksSeen) : n.rememberClocks = n := by
  have hkept : ∀ d ∈ n.devices,
      d.mapElement (Element.remember (n.inputLevel d n.ports.clk)) = d := by
    intro d hd
    refine Device.eq_of_parts rfl ?_ rfl
    rw [Device.mapElement]
    cases helement : d.element with
    | flipFlop q lastClock => rw [Element.remember, ← h d hd q lastClock helement]
    | _ => rfl
  rw [rememberClocks, mapDevices, List.map_congr_left hkept, List.map_id']

/-- At rest, and with no clock that comes to its half-period, a cycle counts and does no more. -/
theorem AtRest.cycle_eq (hn : n.DistinctNames) (hrest : n.AtRest) (hclocks : n.ClocksHold 1) :
    n.cycle = .ok (n.countOn 1) := by
  have hafter := (atRest_countOn_iff 1).mpr hrest
  have hphases : Phases n n (n.countOn 1) (n.countOn 1) := by
    refine ⟨settle_of_stable hn (consistent_iff_stable.mp hrest.consistent), ?_, ?_⟩
    · rw [hclocks.tick_eq]
      exact settle_of_stable ((distinctNames_countOn_iff 1).mpr hn)
        (consistent_iff_stable.mp hafter.consistent)
    · rw [hafter.clocksSeen.latch_eq, settleIf]
  exact cycle_eq_ok_iff.mpr ⟨n, _, _, hphases, hafter.clocksSeen.rememberClocks_eq.symm⟩

/-- A cycle changes nothing but the counts exactly when the network is at rest and no clock comes to
its half-period. -/
theorem cycle_eq_countOn_iff (hn : n.DistinctNames) :
    n.cycle = .ok (n.countOn 1) ↔ n.AtRest ∧ n.ClocksHold 1 := by
  refine ⟨fun h ↦ ⟨(atRest_countOn_iff 1).mp ((ComesToRest.cycle h).atRest hn), fun d hd ↦ ?_⟩,
    fun h ↦ h.1.cycle_eq hn h.2⟩
  obtain ⟨start, ticked, rested, hphases, -⟩ := cycle_eq_ok_iff.mp h
  have hticked := tickedOnce_cycle hn hphases.settle_start
  cases helement : d.element with
  | clock halfPeriod counter output =>
    have hfound := hticked d hd halfPeriod counter output helement
    rw [h, finalState, countOn, device?_mapDevices n (Device.id_mapElement _), hn.device?_id hd,
      Option.map_some, Option.some_inj, Device.mapElement, helement, Device.mk.injEq] at hfound
    by_contra hdue
    rw [Element.Holds] at hdue
    rw [if_neg hdue] at hfound
    exact Nat.succ_ne_zero counter (Element.clock.inj hfound.2.1).2.1
  | _ => trivial

/-- Cycle after cycle does no more than count, as long as no clock comes to its half-period. -/
theorem runCycles_of_atRest (hn : n.DistinctNames) (hrest : n.AtRest) (hclocks : n.ClocksHold count)
    (monitors : Monitors) : (monitors.runCycles n count).1 = .ok (n.countOn count) := by
  induction count generalizing n monitors with
  | zero => rw [Monitors.runCycles, countOn_zero]
  | succ count ih =>
    rw [Nat.add_comm] at hclocks
    have hfirst : n.ClocksHold 1 := fun d hd ↦ (hclocks d hd).mono (Nat.le_add_right 1 count)
    rw [Monitors.runCycles, hrest.cycle_eq hn hfirst]
    dsimp only
    rw [ih ((distinctNames_countOn_iff 1).mpr hn) ((atRest_countOn_iff 1).mpr hrest)
      hclocks.countOn, countOn_countOn, Nat.add_comm]

/-! ### Networks without clocks -/

/-- No device of a network is a clock. -/
def Clockless (n : Network) : Prop :=
  ∀ d ∈ n.devices, d.kind ≠ .clock

theorem Clockless.of_sameWiring (h : n.Clockless) (hwiring : SameWiring n m)
    (hn : n.DistinctNames) : m.Clockless := by
  intro e he
  obtain ⟨d, hd, -, -, hkind⟩ := SameWiring.exists_device? hwiring.symm
    ((Alike.distinctNames hwiring hn).device?_id he)
  exact hkind ▸ h d (mem_of_device? hd)

theorem Clockless.clocksHold (h : n.Clockless) (cycles : Nat) : n.ClocksHold cycles :=
  fun d hd ↦ Element.holds_of_not_clock (h d hd)

theorem Clockless.countOn_eq (h : n.Clockless) (cycles : Nat) : n.countOn cycles = n := by
  have hkept : ∀ d ∈ n.devices, d.mapElement (Element.countOn cycles) = d :=
    fun d hd ↦ Device.eq_of_parts rfl (Element.countOn_of_not_clock (h d hd)) rfl
  rw [countOn, mapDevices, List.map_congr_left hkept, List.map_id']

/-! ### The whole -/

/-- A cycle succeeds and changes nothing but the counts of the clocks, by one, exactly when the
network is at rest and no clock comes to its half-period, with whatever feedback and whatever limit
for settling. Then so many cycles count so many, as long as no clock comes to its half-period. A
network is at rest after a cycle that succeeds, and after a power-on or a reset that settles. From
there on, without clocks, no number of cycles changes anything.

Assumes: devices have names of their own, as in every reachable network. -/
theorem rest_lasts (hn : n.DistinctNames) :
    (n.cycle = .ok (n.countOn 1) ↔ n.AtRest ∧ n.ClocksHold 1) ∧
    (n.AtRest → ∀ count, n.ClocksHold count → ∀ monitors : Monitors,
      (monitors.runCycles n count).1 = .ok (n.countOn count)) ∧
    (∀ m, n.ComesToRest m → m.AtRest ∧
      (n.Clockless → ∀ count, ∀ monitors : Monitors, (monitors.runCycles m count).1 = .ok m)) := by
  refine ⟨cycle_eq_countOn_iff hn, fun hrest _ ↦ runCycles_of_atRest hn hrest,
    fun m hcomes ↦ ⟨hcomes.atRest hn, fun hclockless count monitors ↦ ?_⟩⟩
  have hwiring := hcomes.sameWiring hn
  have hthere := hclockless.of_sameWiring hwiring hn
  rw [runCycles_of_atRest (Alike.distinctNames hwiring hn) (hcomes.atRest hn)
    (hthere.clocksHold count), hthere.countOn_eq]

/-- A pair of cross-wired NAND gates, with a flip-flop under a clock that takes four cycles to turn
over. -/
def slowPair : Network :=
  latchedPair.perform (.setHalfPeriod 26 4)

/-- After one cycle the pair is at rest, and the next two cycles do no more than count. -/
theorem slowPair_rests : ∃ m, slowPair.cycle = .ok m ∧ m.AtRest ∧ m.ClocksHold 2 ∧
    m.cycle = .ok (m.countOn 1) ∧ (({} : Monitors).runCycles m 2).1 = .ok (m.countOn 2) := by
  have hnames : slowPair.DistinctNames :=
    ((reachable_built _).perform _ : slowPair.Reachable).wellFormed.distinctNames
  have hcycle : slowPair.cycle = .ok (finalState slowPair.cycle) := by decide
  have hrest := ((rest_lasts hnames).2.2 _ (.cycle hcycle)).1
  have hthere := (sameWiring_of_cycle hnames hcycle).distinctNames hnames
  have hhold : (finalState slowPair.cycle).ClocksHold 2 := by decide
  exact ⟨_, hcycle, hrest, hhold,
    (rest_lasts hthere).1.mpr ⟨hrest, fun d hd ↦ (hhold d hd).mono (Nat.le_succ 1)⟩,
    (rest_lasts hthere).2.1 hrest 2 hhold {}⟩

end Network

end Breadboard
