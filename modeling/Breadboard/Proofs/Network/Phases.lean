import Breadboard.Proofs.Network.Settling

/-!
# The phases of a cycle

A cycle settles, ticks, settles, latches, settles where a flip-flop changed, and remembers the clock
levels; it ends at the first of its settlings that finds no rest. Each phase leaves a network alike
under the mask of that phase. Up to the end nothing touches what a flip-flop remembers of its clock,
so a cycle that is abandoned does not either (`alike_of_abandoned`), and no cycle touches the wiring
(`sameWiring_cycle`). The last settling may be thought of as always taking place
(`settleIf_eq_settle`).
-/

set_option autoImplicit false
set_option relaxedAutoImplicit false

namespace Breadboard

namespace Network

variable {n m k start ticked rested sampled : Network} {d : Device}

/-! ### Ticking and remembering -/

theorem alike_tick (n : Network) : Alike Element.maskClock n n.tick := by
  refine alike_mapDevices fun d _ ↦ ?_
  rw [Device.mapElement, Device.mapElement, Device.mapElement]
  cases d.element with
  | clock halfPeriod counter output =>
    rw [Element.tick]
    split <;> rfl
  | _ => rfl

theorem alike_rememberClocks (n : Network) : Alike Element.maskLastClock n n.rememberClocks := by
  refine alike_mapDevices fun d _ ↦ ?_
  rw [Device.mapElement, Device.mapElement, Device.mapElement]
  cases d.element <;> rfl

theorem device?_rememberClocks (n : Network) (id : NameId) : n.rememberClocks.device? id =
    (n.device? id).map fun d ↦ d.mapElement (Element.remember (n.inputLevel d n.ports.clk)) := by
  have hkeep : ∀ d : Device,
      (d.mapElement (Element.remember (n.inputLevel d n.ports.clk))).id = d.id := fun _ ↦ rfl
  exact device?_mapDevices n hkeep id

/-- No output shows what a flip-flop remembers of its clock. -/
theorem output?_rememberClocks (n : Network) (t : Terminal) :
    n.rememberClocks.output? t = n.output? t := by
  have houtputs : ∀ d : Device, ∀ clock, (d.mapElement (Element.remember clock)).output? n.ports =
      d.output? n.ports := by
    intro d clock
    funext port
    rw [Device.output?, Device.output?, Device.outputs, Device.outputs, Device.mapElement]
    cases d.element <;> rfl
  rw [output?, output?, device?_rememberClocks]
  cases n.device? t.device with
  | none => rfl
  | some d => exact congrFun (houtputs d _) t.port

theorem drivenLevel_rememberClocks (n : Network) (driver : Option Terminal) :
    n.rememberClocks.drivenLevel driver = n.drivenLevel driver :=
  drivenLevel_congr fun t _ ↦ output?_rememberClocks n t

theorem inputLevel_rememberClocks (n : Network) (d : Device) (port : NameId) :
    n.rememberClocks.inputLevel d port = n.inputLevel d port :=
  drivenLevel_rememberClocks n _

/-- To remember the clock levels disturbs no gate. -/
theorem stable_rememberClocks (h : n.Stable) : n.rememberClocks.Stable := by
  intro e he
  obtain ⟨d, hd, rfl⟩ := List.mem_map.mp he
  have hagrees := h d hd
  have hlevels : n.rememberClocks.pinLevels (d.mapElement
      (Element.remember (n.inputLevel d n.ports.clk))) = n.pinLevels d :=
    pinLevels_congr fun _ _ t _ ↦ output?_rememberClocks n t
  rw [Agrees] at hagrees ⊢
  rw [hlevels, Device.mapElement]
  cases helement : d.element with
  | gate g output =>
    rw [helement] at hagrees
    exact hagrees
  | _ => trivial

/-- Every flip-flop remembers the level that its clock has now. -/
def ClocksSeen (n : Network) : Prop :=
  ∀ d ∈ n.devices, ∀ q lastClock, d.element = .flipFlop q lastClock →
    lastClock = n.inputLevel d n.ports.clk

theorem clocksSeen_rememberClocks (n : Network) : n.rememberClocks.ClocksSeen := by
  intro e he q lastClock helement
  obtain ⟨d, -, rfl⟩ := List.mem_map.mp he
  rw [inputLevel_rememberClocks]
  rw [Device.mapElement] at helement
  cases hd : d.element with
  | flipFlop p seen =>
    rw [hd, Element.remember, Element.flipFlop.injEq] at helement
    exact helement.2.symm
  | _ => simp [hd, Element.remember] at helement

/-! ### Latching -/

theorem latchOne_of_flipFlop {q lastClock : Level} (hd : d.element = .flipFlop q lastClock) :
    latchOne sampled n d =
      if lastClock = Level.low ∧ n.inputLevel d n.ports.clk = Level.high then
        (n.update d.id (Device.mapElement fun _ ↦ .flipFlop (sampled.nextLevel d) lastClock),
          sampled.nextLevel d != q)
      else (n, false) := by
  rw [latchOne, hd]

theorem latchOne_of_not_flipFlop (hd : ∀ q lastClock, d.element ≠ .flipFlop q lastClock) :
    latchOne sampled n d = (n, false) := by
  rw [latchOne]
  split
  · next q lastClock hflip => exact absurd hflip (hd q lastClock)
  · rfl

theorem local_latchOne (sampled : Network) : Local (latchOne sampled) := by
  intro k d i hi
  rcases d.flipFlop_or_not with ⟨q, lastClock, hd⟩ | hnone
  · rw [latchOne_of_flipFlop hd]
    split
    · exact device?_update_of_ne (Device.id_mapElement _) hi
    · rfl
  · rw [latchOne_of_not_flipFlop hnone]

/-- A turn changes the level of a flip-flop at most. The device is as it was when the latching
began. -/
theorem alike_latchOne (hn : start.DistinctNames) (hlike : Alike Element.maskHeld start k)
    (hd : d ∈ start.devices) : Alike Element.maskHeld k (latchOne sampled k d).1 := by
  rcases d.flipFlop_or_not with ⟨q, lastClock, helement⟩ | hnone
  · rw [latchOne_of_flipFlop helement]
    split
    · refine alike_update fun e he hid ↦ ?_
      rw [(hlike.parts_eq hn hd he hid).2, helement]
      rfl
    · exact Alike.refl ..
  · rw [latchOne_of_not_flipFlop hnone]
    exact Alike.refl ..

/-- Latching up to any device changes the levels of flip-flops at most. -/
theorem alike_afterTurns_latchOne (sampled : Network) (hn : n.DistinctNames)
    {devices : List Device} (hdevices : ∀ d ∈ devices, d ∈ n.devices) :
    Alike Element.maskHeld n (afterTurns (latchOne sampled) devices n) := by
  refine afterTurns_induction (P := Alike Element.maskHeld n) (Alike.refl ..) ?_
  intro k d hd hlike
  exact hlike.trans (alike_latchOne hn hlike (hdevices d hd))

theorem alike_latch (sampled : Network) (hn : n.DistinctNames) :
    Alike Element.maskHeld n (latch sampled n).1 := by
  rw [latch, sweep_fst]
  exact alike_afterTurns_latchOne sampled hn fun _ hd ↦ hd

/-- Latching that raises no flag changes nothing. -/
theorem latch_quiet (hn : n.DistinctNames) (hquiet : (latch sampled n).2 = false) :
    (latch sampled n).1 = n := by
  refine (sweep_quiet ?_ hquiet).1
  intro d hd hflag
  rcases d.flipFlop_or_not with ⟨q, lastClock, helement⟩ | hnone
  · rw [latchOne_of_flipFlop helement] at hflag ⊢
    split
    · next hrise =>
      rw [if_pos hrise, bne_eq_false_iff_eq] at hflag
      refine update_eq_self fun e he hid ↦ ?_
      rw [hn.eq_of_id he hd hid, Device.mapElement, hflag, ← helement]
    · rfl
  · rw [latchOne_of_not_flipFlop hnone]

theorem alike_settleIf {state : Network × Bool} (hn : state.1.DistinctNames) :
    Alike Element.maskGate state.1 (finalState (settleIf state)) := by
  obtain ⟨n, changed⟩ := state
  cases changed with
  | true => exact alike_settle hn
  | false => exact Alike.refl ..

/-- The last settling might as well always take place: where it is not called for, it would change
nothing. -/
theorem settleIf_eq_settle (hn : ticked.DistinctNames) (hstable : ticked.Stable) :
    settleIf (latch sampled ticked) = (latch sampled ticked).1.settle := by
  cases hflag : (latch sampled ticked).2 with
  | true => rw [show latch sampled ticked = ((latch sampled ticked).1, true) from
      Prod.ext rfl hflag, settleIf]
  | false =>
    have hsame := latch_quiet hn hflag
    rw [show latch sampled ticked = (ticked, false) from Prod.ext hsame hflag, settleIf,
      settle_of_stable hn hstable]

/-! ### The whole cycle -/

/-- The networks that a successful cycle goes through: after the first settling, after the clocks
have ticked and the gates settled again, and at rest in the end. -/
structure Phases (n start ticked rested : Network) : Prop where
  settle_start : n.settle = .ok start
  settle_ticked : start.tick.settle = .ok ticked
  settle_rested : settleIf (latch start ticked) = .ok rested

/-- All that a cycle can do. -/
theorem cycle_cases (n : Network) :
    (∃ left, n.settle = .error left ∧ n.cycle = .error left) ∨
    (∃ start left, n.settle = .ok start ∧ start.tick.settle = .error left ∧
      n.cycle = .error left) ∨
    (∃ start ticked left, n.settle = .ok start ∧ start.tick.settle = .ok ticked ∧
      settleIf (latch start ticked) = .error left ∧ n.cycle = .error left) ∨
    (∃ start ticked rested, Phases n start ticked rested ∧
      n.cycle = .ok rested.rememberClocks) := by
  cases hstart : n.settle with
  | error left => exact .inl ⟨left, rfl, by rw [cycle, hstart]; rfl⟩
  | ok start =>
    cases hticked : start.tick.settle with
    | error left =>
      refine .inr (.inl ⟨start, left, rfl, hticked, ?_⟩)
      rw [cycle, hstart]
      simp [bind, Except.bind, hticked]
    | ok ticked =>
      cases hrested : settleIf (latch start ticked) with
      | error left =>
        refine .inr (.inr (.inl ⟨start, ticked, left, rfl, hticked, hrested, ?_⟩))
        rw [cycle, hstart]
        simp [bind, Except.bind, hticked, hrested]
      | ok rested =>
        refine .inr (.inr (.inr ⟨start, ticked, rested, ⟨hstart, hticked, hrested⟩, ?_⟩))
        rw [cycle, hstart]
        simp [bind, Except.bind, hticked, hrested, pure, Except.pure]

theorem cycle_eq_ok_iff : n.cycle = .ok m ↔
    ∃ start ticked rested, Phases n start ticked rested ∧ m = rested.rememberClocks := by
  constructor
  · intro h
    rcases cycle_cases n with ⟨left, -, hleft⟩ | ⟨start, left, -, -, hleft⟩ |
      ⟨start, ticked, left, -, -, -, hleft⟩ | ⟨start, ticked, rested, hphases, hrested⟩
    · rw [hleft] at h
      cases h
    · rw [hleft] at h
      cases h
    · rw [hleft] at h
      cases h
    · rw [hrested, Except.ok.injEq] at h
      exact ⟨start, ticked, rested, hphases, h.symm⟩
  · rintro ⟨start, ticked, rested, ⟨hstart, hticked, hrested⟩, rfl⟩
    rw [cycle, hstart]
    simp [bind, Except.bind, hticked, hrested, pure, Except.pure]

theorem clocksSeen_of_cycle (h : n.cycle = .ok m) : m.ClocksSeen := by
  obtain ⟨start, ticked, rested, -, rfl⟩ := cycle_eq_ok_iff.mp h
  exact clocksSeen_rememberClocks rested

/-! ### How far a cycle goes -/

section Run

variable (hn : n.DistinctNames) (hstart : n.settle = .ok start)
  (hticked : start.tick.settle = .ok ticked)

include hn hstart

theorem alike_ticking : Alike Element.maskCycle n start.tick :=
  ((alike_of_settle hn hstart).coarsen Element.maskCycle_maskGate).trans
    ((alike_tick start).coarsen Element.maskCycle_maskClock)

include hticked

theorem alike_ticked : Alike Element.maskCycle n ticked := by
  have htick := alike_ticking hn hstart
  exact htick.trans
    ((alike_of_settle (htick.distinctNames hn) hticked).coarsen Element.maskCycle_maskGate)

theorem alike_latched : Alike Element.maskCycle n (latch start ticked).1 := by
  have hsettle := alike_ticked hn hstart hticked
  exact hsettle.trans
    ((alike_latch start (hsettle.distinctNames hn)).coarsen Element.maskCycle_maskHeld)

theorem alike_resting :
    Alike Element.maskCycle n (finalState (settleIf (latch start ticked))) := by
  have hlatch := alike_latched hn hstart hticked
  exact hlatch.trans
    ((alike_settleIf (hlatch.distinctNames hn)).coarsen Element.maskCycle_maskGate)

end Run

/-- A cycle that is abandoned remembers no clock level. -/
theorem alike_of_abandoned (hn : n.DistinctNames) (h : n.cycle = .error m) :
    Alike Element.maskCycle n m := by
  rcases cycle_cases n with ⟨left, hleft, hcycle⟩ | ⟨start, left, hstart, hleft, hcycle⟩ |
    ⟨start, ticked, left, hstart, hticked, hleft, hcycle⟩ | ⟨start, ticked, rested, -, hcycle⟩
  · obtain rfl := Except.error.inj (hcycle.symm.trans h)
    have hsettle := (alike_settle hn).coarsen Element.maskCycle_maskGate
    rwa [hleft] at hsettle
  · obtain rfl := Except.error.inj (hcycle.symm.trans h)
    have htick := alike_ticking hn hstart
    have hsettle := htick.trans
      ((alike_settle (htick.distinctNames hn)).coarsen Element.maskCycle_maskGate)
    rwa [hleft] at hsettle
  · obtain rfl := Except.error.inj (hcycle.symm.trans h)
    have hlast := alike_resting hn hstart hticked
    rwa [hleft] at hlast
  · rw [hcycle] at h
    cases h

namespace Phases

variable (hn : n.DistinctNames) (h : Phases n start ticked rested)

include hn h

theorem alike_start : Alike Element.maskGate n start :=
  alike_of_settle hn h.settle_start

theorem sameWiring_start : SameWiring n start :=
  (h.alike_start hn).sameWiring Element.kind_maskGate

theorem sameWiring_ticked : SameWiring n ticked :=
  (alike_ticked hn h.settle_start h.settle_ticked).sameWiring Element.kind_maskCycle

theorem stable_ticked : ticked.Stable :=
  stable_of_settle ((alike_ticking hn h.settle_start).distinctNames hn) h.settle_ticked

/-- The last settling takes place, whether it is called for or not. -/
theorem settle_latched : (latch start ticked).1.settle = .ok rested := by
  rw [← settleIf_eq_settle ((h.sameWiring_ticked hn).distinctNames hn) (h.stable_ticked hn),
    h.settle_rested]

/-- After the latching only the outputs of gates change. -/
theorem alike_rested : Alike Element.maskGate (latch start ticked).1 rested :=
  alike_of_settle ((alike_latched hn h.settle_start h.settle_ticked).distinctNames hn)
    (h.settle_latched hn)

theorem sameWiring_rested : SameWiring n rested :=
  ((alike_latched hn h.settle_start h.settle_ticked).sameWiring Element.kind_maskCycle).trans
    ((h.alike_rested hn).sameWiring Element.kind_maskGate)

theorem stable_rested : rested.Stable :=
  stable_of_settle ((alike_latched hn h.settle_start h.settle_ticked).distinctNames hn)
    (h.settle_latched hn)

end Phases

/-! ### The wiring stays -/

/-- However a cycle ends, it leaves the wiring as it is. -/
theorem sameWiring_cycle (hn : n.DistinctNames) : SameWiring n (finalState n.cycle) := by
  cases hcycle : n.cycle with
  | error left => exact (alike_of_abandoned hn hcycle).sameWiring Element.kind_maskCycle
  | ok m =>
    obtain ⟨start, ticked, rested, h, rfl⟩ := cycle_eq_ok_iff.mp hcycle
    exact (h.sameWiring_rested hn).trans
      ((alike_rememberClocks rested).sameWiring Element.kind_maskLastClock)

theorem sameWiring_of_cycle (hn : n.DistinctNames) (h : n.cycle = .ok m) : SameWiring n m := by
  have hcycle := sameWiring_cycle hn
  rwa [h] at hcycle

theorem sameWiring_of_settle (hn : n.DistinctNames) (h : n.settle = .ok m) : SameWiring n m :=
  (alike_of_settle hn h).sameWiring Element.kind_maskGate

theorem sameWiring_tick (n : Network) : SameWiring n n.tick :=
  (alike_tick n).sameWiring Element.kind_maskClock

theorem sameWiring_latch (sampled : Network) (hn : n.DistinctNames) :
    SameWiring n (latch sampled n).1 :=
  (alike_latch sampled hn).sameWiring Element.kind_maskHeld

theorem sameWiring_rememberClocks (n : Network) : SameWiring n n.rememberClocks :=
  (alike_rememberClocks n).sameWiring Element.kind_maskLastClock

theorem sameWiring_powerOn (hn : n.DistinctNames) : SameWiring n n.powerOn :=
  ((alike_settle hn).sameWiring Element.kind_maskGate).trans (sameWiring_rememberClocks _)

theorem sameWiring_clearDevices (n : Network) : SameWiring n n.clearDevices := by
  refine alike_mapDevices fun d _ ↦ ?_
  rw [Device.mapElement, Device.mapElement, Device.mapElement, Element.maskState,
    Element.maskState, Element.kind_reset]

theorem sameWiring_reset (hn : n.DistinctNames) : SameWiring n n.reset :=
  (sameWiring_clearDevices n).trans
    (sameWiring_powerOn ((sameWiring_clearDevices n).distinctNames hn))

end Network

end Breadboard
