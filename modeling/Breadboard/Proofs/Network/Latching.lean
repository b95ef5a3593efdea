import Breadboard.Proofs.Network.Reachable

/-!
# What a cycle makes of a flip-flop

Until the latching a cycle leaves the flip-flops as they are (`Phases.device?_ticked`). A flip-flop
then takes its next level when its clock reads high at its turn, in the network as the turns before
left it (`device?_latch`), and nothing in the rest of the cycle changes what it holds. So a cycle is
known, as far as a flip-flop goes, by the clock level at its turn (`Phases.held`), also when the
last settling finds no rest (`held_of_ticked`).
-/

set_option autoImplicit false
set_option relaxedAutoImplicit false

namespace Breadboard

/-- The level at which a flip-flop saw its clock last. -/
def Device.lastClock? (d : Device) : Option Level :=
  match d.element with
  | .flipFlop _ lastClock => some lastClock
  | _ => none

theorem Device.exists_flipFlop {d : Device} (h : d.kind = .flipFlop) :
    ∃ q lastClock, d.element = .flipFlop q lastClock := by
  rw [Device.kind] at h
  cases helement : d.element with
  | flipFlop q lastClock => exact ⟨q, lastClock, rfl⟩
  | _ => simp [helement, Element.kind] at h

namespace Network

variable {n m start ticked rested sampled : Network} {d e : Device} {id : NameId}
  {q lastClock : Level} {before after : List Device}

/-- The level that a flip-flop holds, which is its output Q. -/
def held (n : Network) (d : Device) : Option Level :=
  n.output? ⟨d.id, some n.ports.q⟩

/-- The other output of a flip-flop, QBAR. -/
def heldBar (n : Network) (d : Device) : Option Level :=
  n.output? ⟨d.id, some n.ports.qbar⟩

theorem held_of_flipFlop (hn : n.ports.q ≠ n.ports.qbar) (he : n.device? d.id = some e)
    (helement : e.element = .flipFlop q lastClock) : n.held d = some q := by
  rw [held, output?, he, Option.bind_some, Device.output?, Device.outputs, helement]
  by_cases hlt : n.ports.q < n.ports.qbar
  · simp [hlt]
  · simp [hlt, List.lookup_cons, beq_eq_false_iff_ne.mpr hn]

theorem heldBar_of_flipFlop (hn : n.ports.q ≠ n.ports.qbar) (he : n.device? d.id = some e)
    (helement : e.element = .flipFlop q lastClock) : n.heldBar d = some (!q) := by
  rw [heldBar, output?, he, Option.bind_some, Device.output?, Device.outputs, helement]
  by_cases hlt : n.ports.q < n.ports.qbar
  · simp [hlt, List.lookup_cons, beq_eq_false_iff_ne.mpr hn.symm]
  · simp [hlt]

/-! ### The latching -/

/-- A device that has had its turn is as the whole latching leaves it. -/
theorem device?_latchedBefore_of_mem (sampled : Network) (hn : n.DistinctNames)
    (hsplit : n.devices = before ++ after) (hid : id ∈ before.map Device.id) :
    (afterTurns (latchOne sampled) before n).device? id = (latch sampled n).1.device? id := by
  have hafter : id ∉ after.map Device.id := by
    rw [DistinctNames, hsplit, List.map_append] at hn
    exact List.disjoint_of_nodup_append hn hid
  rw [latch, sweep_fst, hsplit, afterTurns_append,
    (local_latchOne sampled).device?_afterTurns hafter]

/-- Only a flip-flop has a turn to take, and nothing happens to it before. -/
theorem device?_latchedBefore_of_not_mem (sampled : Network) (hn : n.DistinctNames)
    (hsplit : n.devices = before ++ after)
    (hid : ∀ e, n.device? id = some e → e.kind = .flipFlop → id ∉ before.map Device.id) :
    (afterTurns (latchOne sampled) before n).device? id = n.device? id := by
  have hlike := alike_afterTurns_latchOne sampled hn fun e ↦ mem_of_mem_before hsplit
  cases he : n.device? id with
  | none => exact hlike.device?_eq_none he
  | some e =>
    by_cases hflip : e.kind = .flipFlop
    · rw [(local_latchOne sampled).device?_afterTurns (hid e he hflip), he]
    · exact hlike.device?_eq he (Element.shown_maskHeld hflip)

/-- The network as the flip-flops find it that come after some devices in the latching. -/
abbrev latchedBefore (sampled : Network) (before : List Device) (n : Network) : Network :=
  afterTurns (latchOne sampled) before n

theorem device?_latch (sampled : Network) (hn : n.DistinctNames)
    (hsplit : n.devices = before ++ d :: after)
    (helement : d.element = .flipFlop q lastClock) :
    (latch sampled n).1.device? d.id = some (d.mapElement fun _ ↦ .flipFlop
      (if lastClock = Level.low ∧
          (latchedBefore sampled before n).inputLevel d n.ports.clk = Level.high then
        sampled.nextLevel d else q) lastClock) := by
  have hlocal := local_latchOne sampled
  have hbefore := hlocal.device?_before hn hsplit
  have hports : (latchedBefore sampled before n).ports = n.ports :=
    (alike_afterTurns_latchOne sampled hn fun e ↦ mem_of_mem_before hsplit).ports.symm
  rw [latch, hlocal.device?_sweep hn hsplit, latchOne_of_flipFlop helement, hports]
  split
  · rw [device?_update (Device.id_mapElement _), if_pos rfl, hbefore, Option.map_some]
  · rw [hbefore, ← helement]
    rfl

/-! ### The whole cycle -/

/-- A cycle comes to its second settling with the flip-flops as they were. -/
theorem device?_ticking (hn : n.DistinctNames) (hstart : n.settle = .ok start)
    (hd : n.device? id = some d) (helement : d.element = .flipFlop q lastClock) :
    start.device? id = some d ∧ start.tick.device? id = some d := by
  have hgate : d.element.Shown Element.maskGate :=
    helement ▸ Element.shown_maskGate_flipFlop q lastClock
  have hclock : d.element.Shown Element.maskClock :=
    helement ▸ Element.shown_maskClock_flipFlop q lastClock
  have hsettled := (alike_of_settle hn hstart).device?_eq hd hgate
  exact ⟨hsettled, (alike_tick start).device?_eq hsettled hclock⟩

/-- The second settling leaves the flip-flops as they were, whether it finds rest or not. -/
theorem device?_settling (hn : n.DistinctNames) (hstart : n.settle = .ok start)
    (hd : n.device? id = some d) (helement : d.element = .flipFlop q lastClock) :
    (finalState start.tick.settle).device? id = some d := by
  have htick := (device?_ticking hn hstart hd helement).2
  have hnames := (alike_ticking hn hstart).distinctNames hn
  exact (alike_settle hnames).device?_eq htick
    (helement ▸ Element.shown_maskGate_flipFlop q lastClock)

/-- A cycle comes to its latching with the flip-flops as they were. -/
theorem device?_ticked (hn : n.DistinctNames) (hstart : n.settle = .ok start)
    (hticked : start.tick.settle = .ok ticked) (hd : n.device? id = some d)
    (helement : d.element = .flipFlop q lastClock) :
    start.device? id = some d ∧ ticked.device? id = some d := by
  have hsettled := device?_settling hn hstart hd helement
  rw [hticked] at hsettled
  exact ⟨(device?_ticking hn hstart hd helement).1, hsettled⟩

theorem Phases.device?_ticked (hn : n.DistinctNames) (h : Phases n start ticked rested)
    (hd : n.device? id = some d) (helement : d.element = .flipFlop q lastClock) :
    start.device? id = some d ∧ ticked.device? id = some d :=
  Network.device?_ticked hn h.settle_start h.settle_ticked hd helement

/-- A flip-flop is at rest as the latching leaves it. -/
theorem Phases.device?_rested (hn : n.DistinctNames) (h : Phases n start ticked rested)
    (hd : (latch start ticked).1.device? id = some d)
    (helement : d.element = .flipFlop q lastClock) : rested.device? id = some d :=
  (h.alike_rested hn).device?_eq hd (helement ▸ Element.shown_maskGate_flipFlop q lastClock)

/-- What a flip-flop is after a successful cycle. -/
theorem Phases.device?_rememberClocks (hn : n.DistinctNames) (h : Phases n start ticked rested)
    (hsplit : ticked.devices = before ++ d :: after)
    (helement : d.element = .flipFlop q lastClock) :
    rested.rememberClocks.device? d.id = some (d.mapElement fun _ ↦ .flipFlop
      (if lastClock = Level.low ∧
          (latchedBefore start before ticked).inputLevel d ticked.ports.clk = Level.high then
        start.nextLevel d else q) (rested.inputLevel d rested.ports.clk)) := by
  have hwiring := h.sameWiring_ticked hn
  have hlatch := device?_latch start (hwiring.distinctNames hn) hsplit helement
  have hrest := h.device?_rested hn hlatch rfl
  rw [Network.device?_rememberClocks, hrest]
  rfl

/-- What a flip-flop holds after a successful cycle. -/
theorem Phases.held (hn : n.WellFormed) (h : Phases n start ticked rested)
    (hsplit : ticked.devices = before ++ d :: after)
    (helement : d.element = .flipFlop q lastClock) :
    rested.rememberClocks.held d =
        some (if lastClock = Level.low ∧
          (latchedBefore start before ticked).inputLevel d ticked.ports.clk = Level.high then
            start.nextLevel d else q) ∧
      rested.rememberClocks.heldBar d = (rested.rememberClocks.held d).map (!·) := by
  have hdevice := h.device?_rememberClocks hn.distinctNames hsplit helement
  have hports : rested.rememberClocks.ports.q ≠ rested.rememberClocks.ports.qbar := by
    have hcycle := cycle_eq_ok_iff.mpr ⟨start, ticked, rested, h, rfl⟩
    exact (hn.alike (sameWiring_of_cycle hn.distinctNames hcycle)).q_ne_qbar
  have hheld := held_of_flipFlop hports hdevice rfl
  refine ⟨hheld, ?_⟩
  rw [hheld, Option.map_some]
  exact heldBar_of_flipFlop hports hdevice rfl

/-! ### Whether or not the cycle succeeds -/

/-- The level of a flip-flop's clock at its turn in the latching. -/
def clockAtTurn (start ticked : Network) (d : Device) : Level :=
  (latchedBefore start (ticked.devices.takeWhile fun e ↦ e.id ≠ d.id) ticked).inputLevel d
    ticked.ports.clk

/-- A flip-flop latches when it comes to its turn with a clock that is high and was low when the
flip-flop saw it last. -/
def Latches (start ticked : Network) (d : Device) : Prop :=
  d.lastClock? = some Level.low ∧ clockAtTurn start ticked d = Level.high

instance (start ticked : Network) (d : Device) : Decidable (Latches start ticked d) :=
  inferInstanceAs (Decidable (_ ∧ _))

/-- The devices up to one of them are those declared before it. -/
theorem takeWhile_ne_id (hn : n.DistinctNames) (hsplit : n.devices = before ++ d :: after) :
    (n.devices.takeWhile fun e ↦ e.id ≠ d.id) = before := by
  have hbefore : ∀ e ∈ before, decide (e.id ≠ d.id) = true := by
    intro e he
    refine decide_eq_true fun hid ↦ hn.not_mem_before hsplit ?_
    rw [← hid]
    exact List.mem_map_of_mem he
  rw [hsplit, List.takeWhile_append_of_pos hbefore, List.takeWhile_cons_of_neg (by simp),
    List.append_nil]

theorem latches_iff (hn : ticked.DistinctNames) (hsplit : ticked.devices = before ++ d :: after)
    (helement : d.element = .flipFlop q lastClock) :
    Latches start ticked d ↔ lastClock = Level.low ∧
      (latchedBefore start before ticked).inputLevel d ticked.ports.clk = Level.high := by
  unfold Latches clockAtTurn
  rw [Device.lastClock?, helement, Option.some_inj, takeWhile_ne_id hn hsplit]

/-- A cycle that comes to its latching ends with the last settling. -/
theorem cycle_of_ticked (hstart : n.settle = .ok start)
    (hticked : start.tick.settle = .ok ticked) :
    n.cycle = (settleIf (latch start ticked)).map rememberClocks := by
  rw [cycle, hstart]
  cases hrested : settleIf (latch start ticked) <;>
    simp [bind, Except.bind, hticked, hrested, pure, Except.pure, Except.map]

/-- However a cycle ends, it ends with the flip-flops as the latching leaves them. -/
theorem exists_flipFlop_of_latched (hn : n.DistinctNames) (hstart : n.settle = .ok start)
    (hticked : start.tick.settle = .ok ticked)
    (hd : (latch start ticked).1.device? id = some d)
    (helement : d.element = .flipFlop q lastClock) :
    ∃ e seen, (finalState n.cycle).device? id = some e ∧ e.element = .flipFlop q seen := by
  have hshown : d.element.Shown Element.maskGate :=
    helement ▸ Element.shown_maskGate_flipFlop q lastClock
  have hnames := (alike_latched hn hstart hticked).distinctNames hn
  have hlast := (alike_settleIf hnames).device?_eq hd hshown
  rw [cycle_of_ticked hstart hticked]
  cases hrested : settleIf (latch start ticked) with
  | error left =>
    rw [hrested] at hlast
    exact ⟨d, lastClock, hlast, helement⟩
  | ok rested =>
    rw [hrested] at hlast
    refine ⟨d.mapElement (Element.remember (rested.inputLevel d rested.ports.clk)),
      rested.inputLevel d rested.ports.clk, ?_, ?_⟩
    · exact (device?_rememberClocks rested id).trans (congrArg (Option.map _) hlast)
    · rw [Device.mapElement, helement]
      rfl

/-- Assumes: a cycle that comes to its latching, and a flip-flop. However the cycle ends, the
flip-flop holds its next level if it latches, and what it held before if not. -/
theorem held_of_ticked (hn : n.WellFormed) (hstart : n.settle = .ok start)
    (hticked : start.tick.settle = .ok ticked) (hd : d ∈ n.devices) (hkind : d.kind = .flipFlop) :
    (finalState n.cycle).held d =
        (if Latches start ticked d then some (start.nextLevel d) else n.held d) ∧
      (finalState n.cycle).heldBar d = ((finalState n.cycle).held d).map (!·) := by
  have hnames := hn.distinctNames
  obtain ⟨q, lastClock, helement⟩ := Device.exists_flipFlop hkind
  have hbefore := hnames.device?_id hd
  have hcame := (device?_ticked hnames hstart hticked hbefore helement).2
  have hdistinct := (alike_ticked hnames hstart hticked).distinctNames hnames
  obtain ⟨before, after, hsplit⟩ := List.append_of_mem (mem_of_device? hcame)
  have hlatched := device?_latch start hdistinct hsplit helement
  obtain ⟨e, seen, he, hafter⟩ := exists_flipFlop_of_latched hnames hstart hticked hlatched rfl
  have hports : (finalState n.cycle).ports.q ≠ (finalState n.cycle).ports.qbar :=
    (hn.alike (sameWiring_cycle hnames)).q_ne_qbar
  have hheld := held_of_flipFlop hports he hafter
  have hbar := heldBar_of_flipFlop hports he hafter
  refine ⟨?_, by rw [hbar, hheld, Option.map_some]⟩
  rw [hheld, held_of_flipFlop hn.q_ne_qbar hbefore helement,
    if_congr (latches_iff hdistinct hsplit helement) rfl rfl, apply_ite some]

end Network

end Breadboard
