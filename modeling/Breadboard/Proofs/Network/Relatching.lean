import Breadboard.Proofs.Network.Abandonment
import Breadboard.Proofs.Network.Edges

/-!
# One edge, latched twice

A flip-flop sees that its clock is high at the end of a cycle that succeeds. When the cycle in which
it latches is abandoned, it keeps the low level that it saw before, so the same edge is there again
in the next cycle, for as long as the clock stays high. The flip-flop then latches a second time,
and takes whatever level is ahead of it by now (`kept_iff_edge_seen`, `switchedRing_latches_twice`).
-/

set_option autoImplicit false
set_option relaxedAutoImplicit false

namespace Breadboard

namespace Network

variable {n m k start ticked : Network} {d e : Device} {id : NameId}
  {before after : List Device}

/-- Some switches have been set, and nothing else has been done. -/
inductive SwitchesSet (n : Network) : Network → Prop
  | none : SwitchesSet n n
  | set {m k : Network} {id : NameId} {level : Level} :
    SwitchesSet n m → m.setSwitch? id level = some k → SwitchesSet n k

/-- A cycle comes to its latching and latches a flip-flop in it. -/
def LatchesInCycle (n : Network) (d : Device) : Prop :=
  ∃ start ticked, n.settle = .ok start ∧ start.tick.settle = .ok ticked ∧ Latches start ticked d

theorem SwitchesSet.alike (hn : n.DistinctNames) (h : SwitchesSet n k) :
    Alike Element.maskSwitch n k := by
  induction h with
  | none => exact Alike.refl ..
  | set _ hset ih => exact ih.trans (alike_of_setSwitch (ih.distinctNames hn) hset)

/-! ### The outputs of a flip-flop -/

theorem heldBar_eq (hn : n.WellFormed) (he : n.device? d.id = some e) (hkind : e.kind = .flipFlop) :
    n.heldBar d = (n.held d).map (!·) := by
  obtain ⟨q, lastClock, helement⟩ := Device.exists_flipFlop hkind
  rw [heldBar_of_flipFlop hn.q_ne_qbar he helement, held_of_flipFlop hn.q_ne_qbar he helement,
    Option.map_some]

/-- The outputs of a flip-flop change together. -/
theorem heldBar_eq_iff (hn : n.WellFormed) (hm : m.WellFormed) (hwiring : SameWiring n m)
    (he : n.device? d.id = some e) (hkind : e.kind = .flipFlop) :
    m.heldBar d = n.heldBar d ↔ m.held d = n.held d := by
  obtain ⟨e', he', -, -, hsame⟩ := hwiring.exists_device? he
  rw [heldBar_eq hn he hkind, heldBar_eq hm he' (hsame.trans hkind)]
  exact (Option.map_injective fun _ _ ↦ Bool.not_inj).eq_iff

/-- A cycle that does not come to its latching leaves the flip-flops as they are. -/
theorem held_cycle_of_not_ticked (hn : n.WellFormed) (hd : d ∈ n.devices)
    (hkind : d.kind = .flipFlop)
    (hnone : ∀ start ticked, n.settle = .ok start → start.tick.settle ≠ .ok ticked) :
    (finalState n.cycle).held d = n.held d := by
  have hnames := hn.distinctNames
  obtain ⟨q, lastClock, helement⟩ := Device.exists_flipFlop hkind
  have hdevice := hnames.device?_id hd
  have hkept : (finalState n.cycle).device? d.id = some d := by
    rcases cycle_cases n with ⟨left, hleft, hcycle⟩ | ⟨start, left, hstart, hleft, hcycle⟩ |
      ⟨start, ticked, left, hstart, hticked, -, -⟩ | ⟨start, ticked, rested, h, -⟩
    · have hsettled := (alike_settle hnames).device?_eq hdevice
        (helement ▸ Element.shown_maskGate_flipFlop q lastClock)
      rw [hleft] at hsettled
      rwa [hcycle]
    · have hsettled := device?_settling hnames hstart hdevice helement
      rw [hleft] at hsettled
      rwa [hcycle]
    · exact absurd hticked (hnone start ticked hstart)
    · exact absurd h.settle_ticked (hnone start ticked h.settle_start)
  have hports : (finalState n.cycle).ports.q ≠ (finalState n.cycle).ports.qbar :=
    (hn.alike (sameWiring_cycle hnames)).q_ne_qbar
  rw [held_of_flipFlop hports hkept helement, held_of_flipFlop hn.q_ne_qbar hdevice helement]

/-! ### What a flip-flop has seen of its clock -/

/-- A cycle that is abandoned leaves what a flip-flop has seen of its clock. -/
theorem lastClock?_of_abandoned (hn : n.DistinctNames) (h : n.cycle = .error m)
    (hd : d ∈ n.devices) (hkind : d.kind = .flipFlop) :
    ∃ e, m.device? d.id = some e ∧ e.pins = d.pins ∧ e.kind = .flipFlop ∧
      e.lastClock? = d.lastClock? := by
  obtain ⟨q, lastClock, helement⟩ := Device.exists_flipFlop hkind
  have hlike := (alike_of_abandoned hn h).coarsen Element.maskRun_maskCycle
  obtain ⟨e, he, -, hpins, hmask⟩ := hlike.exists_device? (hn.device?_id hd)
  rw [helement] at hmask
  obtain ⟨now, hnow⟩ := Element.exists_of_maskRun hmask
  refine ⟨e, he, hpins, by rw [Device.kind, hnow, Element.kind], ?_⟩
  rw [Device.lastClock?, Device.lastClock?, hnow, helement]

/-- A cycle that succeeds leaves every flip-flop with its clock as it is then. -/
theorem lastClock?_of_cycle (hn : n.DistinctNames) (h : n.cycle = .ok m)
    (hd : d ∈ n.devices) (hkind : d.kind = .flipFlop) :
    ∃ e, m.device? d.id = some e ∧ e.pins = d.pins ∧ e.kind = .flipFlop ∧
      e.lastClock? = some (m.inputLevel d m.ports.clk) := by
  obtain ⟨e, he, -, hpins, hsame⟩ := (sameWiring_of_cycle hn h).exists_device? (hn.device?_id hd)
  obtain ⟨q, lastClock, helement⟩ := Device.exists_flipFlop (hsame.trans hkind)
  have hseen := clocksSeen_of_cycle h e (mem_of_device? he) q lastClock helement
  refine ⟨e, he, hpins, hsame.trans hkind, ?_⟩
  rw [Device.lastClock?, helement, ← inputLevel_of_pins _ hpins, ← hseen]

/-- Where the clock of a flip-flop has risen by the end of a cycle, the flip-flop has seen it just
when the cycle succeeded. -/
theorem lastClock?_of_low (hn : n.DistinctNames) (hd : d ∈ n.devices)
    (hkind : d.kind = .flipFlop) (hlow : d.lastClock? = some Level.low)
    (hhigh : (finalState n.cycle).inputLevel d (finalState n.cycle).ports.clk = Level.high) :
    ∃ e, (finalState n.cycle).device? d.id = some e ∧ e.pins = d.pins ∧ e.kind = .flipFlop ∧
      (e.lastClock? = some Level.low ↔ ∃ left, n.cycle = .error left) := by
  cases hcycle : n.cycle with
  | error left =>
    obtain ⟨e, he, hpins, hflip, hseen⟩ := lastClock?_of_abandoned hn hcycle hd hkind
    exact ⟨e, he, hpins, hflip, iff_of_true (hseen.trans hlow) ⟨left, rfl⟩⟩
  | ok m =>
    obtain ⟨e, he, hpins, hflip, hseen⟩ := lastClock?_of_cycle hn hcycle hd hkind
    rw [hcycle] at hhigh
    refine ⟨e, he, hpins, hflip, iff_of_false ?_ fun ⟨left, hleft⟩ ↦ by cases hleft⟩
    rw [hseen, show m.inputLevel d m.ports.clk = Level.high from hhigh, Option.some_inj]
    exact Bool.noConfusion

/-! ### The next cycle -/

/-- Pins and names are all that a turn depends on, beside what the flip-flop has seen. -/
theorem clockAtTurn_congr (hid : e.id = d.id) (hpins : e.pins = d.pins) :
    clockAtTurn start ticked e = clockAtTurn start ticked d := by
  unfold clockAtTurn
  rw [hid, inputLevel_of_pins _ hpins]

theorem nextLevel_of_pins (n : Network) (hpins : e.pins = d.pins) :
    n.nextLevel e = n.nextLevel d := by
  unfold nextLevel
  rw [inputLevel_of_pins _ hpins, inputLevel_of_pins _ hpins, inputLevel_of_pins _ hpins]

theorem clockedByEarlier_congr (hid : e.id = d.id) (hpins : e.pins = d.pins) :
    n.ClockedByEarlier e ↔ n.ClockedByEarlier d := by
  unfold ClockedByEarlier Device.driver? Device.pin?
  rw [hid, hpins]

/-- A clock that is high when the latching begins is high at the turn of its flip-flop, unless a
flip-flop that is declared earlier drives it. -/
theorem clockAtTurn_or_clockedByEarlier (hn : ticked.DistinctNames) (hd : d ∈ ticked.devices)
    (hhigh : ticked.inputLevel d ticked.ports.clk = Level.high) :
    clockAtTurn start ticked d = Level.high ∨ ticked.ClockedByEarlier d := by
  obtain ⟨before, after, hsplit⟩ := List.append_of_mem hd
  by_cases hclocked : ticked.ClockedByEarlier d
  · exact Or.inr hclocked
  · left
    rw [clockAtTurn, takeWhile_ne_id hn hsplit, clock_of_not_clockedByEarlier hn hsplit hclocked,
      hhigh]

/-- A flip-flop is the same in the next cycle just when that cycle does not latch it anew, or it
holds already what it would take. -/
theorem held_cycle_eq_iff (hn : n.WellFormed) (hd : d ∈ n.devices) (hkind : d.kind = .flipFlop) :
    (finalState n.cycle).held d = n.held d ↔ d.lastClock? ≠ some Level.low ∨
      ∀ start ticked, n.settle = .ok start → start.tick.settle = .ok ticked →
        clockAtTurn start ticked d = Level.high → n.held d = some (start.nextLevel d) := by
  by_cases hcomes : ∃ start ticked, n.settle = .ok start ∧ start.tick.settle = .ok ticked
  · obtain ⟨start, ticked, hstart, hticked⟩ := hcomes
    have hheld := (held_of_ticked hn hstart hticked hd hkind).1
    constructor
    · intro hkept
      by_cases hseen : d.lastClock? = some Level.low
      · refine Or.inr fun start' ticked' hstart' hticked' hhigh ↦ ?_
        obtain rfl := Except.ok.inj (hstart.symm.trans hstart')
        obtain rfl := Except.ok.inj (hticked.symm.trans hticked')
        rw [if_pos ⟨hseen, hhigh⟩] at hheld
        rw [← hkept, hheld]
      · exact Or.inl hseen
    · intro hsame
      by_cases hlatches : Latches start ticked d
      · rw [if_pos hlatches] at hheld
        rcases hsame with hseen | hsame
        · exact absurd hlatches.1 hseen
        · rw [hheld, hsame start ticked hstart hticked hlatches.2]
      · rwa [if_neg hlatches] at hheld
  · have hnone : ∀ start ticked, n.settle = .ok start → start.tick.settle ≠ .ok ticked :=
      fun start ticked hstart hticked ↦ hcomes ⟨start, ticked, hstart, hticked⟩
    refine iff_of_true (held_cycle_of_not_ticked hn hd hkind hnone) (Or.inr ?_)
    exact fun start ticked hstart hticked ↦ absurd hticked (hnone start ticked hstart)

/-- Assumes: a flip-flop latched in a cycle of a reachable network, its clock reads high as that
cycle ends, in success or not, and nothing but switches is set before the next. The next cycle
leaves the flip-flop as it is just when the first succeeded, or the next does not come to the turn
of the flip-flop with a high clock, or the flip-flop holds already the level that it would take.
The turn finds a clock high that is high after the second settling, unless it is an output of a
flip-flop declared earlier. -/
theorem kept_iff_edge_seen (hn : n.Reachable) (hd : d ∈ n.devices) (hkind : d.kind = .flipFlop)
    (hlatches : n.LatchesInCycle d)
    (hhigh : (finalState n.cycle).inputLevel d (finalState n.cycle).ports.clk = Level.high)
    (hset : SwitchesSet (finalState n.cycle) k) :
    ((finalState k.cycle).held d = k.held d ↔ (∃ m, n.cycle = .ok m) ∨
      ∀ start ticked, k.settle = .ok start → start.tick.settle = .ok ticked →
        clockAtTurn start ticked d = Level.high → k.held d = some (start.nextLevel d)) ∧
    ((finalState k.cycle).heldBar d = k.heldBar d ↔ (finalState k.cycle).held d = k.held d) ∧
    ∀ start ticked, k.settle = .ok start → start.tick.settle = .ok ticked →
      ticked.inputLevel d ticked.ports.clk = Level.high →
        clockAtTurn start ticked d = Level.high ∨ ticked.ClockedByEarlier d := by
  have hnames := hn.wellFormed.distinctNames
  obtain ⟨-, -, -, -, hlow, -⟩ := hlatches
  have hfinal := hn.wellFormed.alike (sameWiring_cycle hnames)
  have hk : k.WellFormed := hfinal.alike (hset.alike hfinal.distinctNames)
  obtain ⟨e, he, hpins, hflip, hseen⟩ := lastClock?_of_low hnames hd hkind hlow hhigh
  have hshown : e.element.Shown Element.maskSwitch := by
    refine Element.shown_maskSwitch ?_
    rw [show e.element.kind = .flipFlop from hflip]
    exact Kind.noConfusion
  have hek : k.device? d.id = some e := (hset.alike hfinal.distinctNames).device?_eq he hshown
  have hid : e.id = d.id := id_of_device? hek
  have hcycle : (∃ m, n.cycle = .ok m) ↔ e.lastClock? ≠ some Level.low := by
    rw [Ne, hseen]
    cases n.cycle <;> simp
  have hheld : ∀ l : Network, l.held e = l.held d := fun l ↦ by rw [held, hid, ← held]
  refine ⟨?_, ?_, fun start' ticked' hstart' hticked' hclock ↦ ?_⟩
  · have hiff := held_cycle_eq_iff hk (mem_of_device? hek) hflip
    simp only [hheld, clockAtTurn_congr hid hpins, nextLevel_of_pins _ hpins] at hiff
    rw [hiff, hcycle]
  · exact heldBar_eq_iff hk (hk.alike (sameWiring_cycle hk.distinctNames))
      (sameWiring_cycle hk.distinctNames) hek hflip
  · obtain ⟨q, lastClock, helement⟩ := Device.exists_flipFlop hflip
    have hlike := alike_ticked hk.distinctNames hstart' hticked'
    have hdistinct := hlike.distinctNames hk.distinctNames
    have hsame := (device?_ticked hk.distinctNames hstart' hticked' (hid ▸ hek) helement).2
    rw [← inputLevel_of_pins _ hpins] at hclock
    rw [← clockAtTurn_congr hid hpins, ← clockedByEarlier_congr hid hpins]
    exact clockAtTurn_or_clockedByEarlier hdistinct (mem_of_device? hsame) hclock

/-! ### A cycle abandoned after its latching -/

/-- The flip-flop of the switched ring, its clock about to rise. -/
def ringLatch : Device where
  id := 25
  element := .flipFlop Level.low Level.low
  pins := [⟨16, some ⟨22, none⟩⟩, ⟨17, some ⟨23, none⟩⟩, ⟨18, none⟩, ⟨19, none⟩]

/-- The switched ring after the cycle that it abandons, with the ring opened and the data of the
flip-flop at a given level. -/
def ringOpened (data : Level) : Network :=
  [Request.setSwitch 24 Level.low, .setSwitch 23 data].foldl perform (finalState switchedRing.cycle)

theorem switchesSet_ringOpened (data : Level) :
    SwitchesSet (finalState switchedRing.cycle) (ringOpened data) := by
  have hopen : (finalState switchedRing.cycle).setSwitch? 24 Level.low =
      some ((finalState switchedRing.cycle).perform (.setSwitch 24 Level.low)) := by decide +kernel
  have hdata : ((finalState switchedRing.cycle).perform (.setSwitch 24 Level.low)).setSwitch? 23
      data = some (ringOpened data) := by
    revert data
    decide +kernel
  exact .set (.set .none hopen) hdata

theorem switchedRing_latches : switchedRing.LatchesInCycle ringLatch :=
  ⟨finalState switchedRing.settle, finalState (finalState switchedRing.settle).tick.settle,
    by decide +kernel, by decide +kernel, by decide +kernel⟩

/-- With its data as it was, the flip-flop takes the same level once more. -/
theorem ringOpened_keeps : switchedRing.LatchesInCycle ringLatch ∧
    (finalState (ringOpened Level.high).cycle).held ringLatch =
      (ringOpened Level.high).held ringLatch := by
  have hreachable : switchedRing.Reachable := reachable_built _
  refine ⟨switchedRing_latches, (kept_iff_edge_seen (d := ringLatch) hreachable (by decide +kernel)
    rfl switchedRing_latches (by decide +kernel) (switchesSet_ringOpened Level.high)).1.mpr
      (Or.inr fun start ticked hstart _ _ ↦ ?_)⟩
  obtain rfl : finalState (ringOpened Level.high).settle = start := congrArg finalState hstart
  decide +kernel

/-- With its data gone low, the flip-flop latches a second time and loses what it held, though its
clock has been high all along and the second cycle succeeds. -/
theorem switchedRing_latches_twice : switchedRing.Reachable ∧ ringLatch ∈ switchedRing.devices ∧
    switchedRing.LatchesInCycle ringLatch ∧
    SwitchesSet (finalState switchedRing.cycle) (ringOpened Level.low) ∧
    (finalState switchedRing.cycle).inputLevel ringLatch
      (finalState switchedRing.cycle).ports.clk = Level.high ∧
    ∃ start ticked m, (ringOpened Level.low).settle = .ok start ∧
      start.inputLevel ringLatch start.ports.clk = Level.high ∧
      start.tick.settle = .ok ticked ∧
      ticked.inputLevel ringLatch ticked.ports.clk = Level.high ∧
      (ringOpened Level.low).cycle = .ok m ∧
      m.held ringLatch ≠ (ringOpened Level.low).held ringLatch :=
  ⟨reachable_built _, by decide +kernel, switchedRing_latches, switchesSet_ringOpened Level.low,
    by decide +kernel, finalState (ringOpened Level.low).settle,
    finalState (finalState (ringOpened Level.low).settle).tick.settle,
    finalState (ringOpened Level.low).cycle, by decide +kernel, by decide +kernel,
    by decide +kernel, by decide +kernel, by decide +kernel, by decide +kernel⟩

end Network

end Breadboard
