import Breadboard.Proofs.Network.Latching
import Mathlib.Data.List.Basic

/-!
# Rising edges

A clock input rises in a cycle when it was low as the cycle before ended and is high as this one
ends. The latching looks at every clock once, at the turn of its flip-flop, and the clock levels are
remembered at the end of the cycle. So an edge that the latching itself brings about is taken only
where it is there in time: the clock is an output of a flip-flop that was declared earlier, with no
gate between. Any other such edge is lost, because it passes for seen in the next cycle
(`latched_iff_inTime`). Whether an edge is lost can hang on the order of declaration
(`ripple_loses_edge`).
-/

set_option autoImplicit false
set_option relaxedAutoImplicit false

namespace Breadboard

namespace Network

variable {n m start ticked rested : Network} {d : Device} {id : NameId} {before after : List Device}

/-- As a cycle leaves a network that succeeds, or a power-on that finds rest. -/
def CycleEnd (n : Network) : Prop :=
  ∃ k : Network, k.Reachable ∧ (k.cycle = .ok n ∨ ∃ settled, k.settle = .ok settled ∧ k.powerOn = n)

/-- A network is since the end of a cycle when nothing has been done to it but to set switches and
to try cycles in vain. -/
inductive SinceCycle (rested : Network) : Network → Prop
  | rest : SinceCycle rested rested
  | setSwitch {n m : Network} {id : NameId} {level : Level} :
    SinceCycle rested n → n.setSwitch? id level = some m → SinceCycle rested m
  | abandoned {n m : Network} : SinceCycle rested n → n.cycle = .error m → SinceCycle rested m

/-- One device is declared before another. -/
def DeclaredBefore (n : Network) (first second : NameId) : Prop :=
  ∃ before after, n.devices.map Device.id = before ++ second :: after ∧ first ∈ before

/-- The clock of a flip-flop is an output of a flip-flop that is declared before it. -/
def ClockedByEarlier (n : Network) (d : Device) : Prop :=
  ∃ e ∈ n.devices, e.kind = .flipFlop ∧ n.DeclaredBefore e.id d.id ∧
    ∃ port, d.driver? n.ports.clk = some ⟨e.id, port⟩

/-- The latching, as it begins, has the high clock of a flip-flop before it or gets it in time. -/
def EdgeInTime (ticked : Network) (d : Device) : Prop :=
  ticked.inputLevel d ticked.ports.clk = Level.high ∨ ticked.ClockedByEarlier d

/-! ### Since the end of a cycle -/

theorem CycleEnd.wellFormed (h : CycleEnd n) : n.WellFormed := by
  obtain ⟨k, hk, hcycle | ⟨settled, -, hpowerOn⟩⟩ := h
  · exact hk.wellFormed.alike (sameWiring_of_cycle hk.wellFormed.distinctNames hcycle)
  · rw [← hpowerOn]
    exact hk.wellFormed.alike (sameWiring_powerOn hk.wellFormed.distinctNames)

theorem CycleEnd.clocksSeen (h : CycleEnd n) : n.ClocksSeen := by
  obtain ⟨k, -, hcycle | ⟨settled, -, hpowerOn⟩⟩ := h
  · exact clocksSeen_of_cycle hcycle
  · rw [← hpowerOn]
    exact clocksSeen_rememberClocks _

theorem SinceCycle.alike (hrested : rested.DistinctNames) (h : SinceCycle rested n) :
    Alike Element.maskRun rested n := by
  induction h with
  | rest => exact Alike.refl ..
  | setSwitch _ hset ih =>
    exact ih.trans ((alike_of_setSwitch (ih.distinctNames hrested) hset).coarsen
      Element.maskRun_maskSwitch)
  | abandoned _ hcycle ih =>
    exact ih.trans ((alike_of_abandoned (ih.distinctNames hrested) hcycle).coarsen
      Element.maskRun_maskCycle)

/-! ### The clock at the turn of a flip-flop -/

theorem declaredBefore_iff (hn : n.DistinctNames) (hsplit : n.devices = before ++ d :: after) :
    n.DeclaredBefore id d.id ↔ id ∈ before.map Device.id := by
  have hids : n.devices.map Device.id =
      before.map Device.id ++ d.id :: after.map Device.id := by
    rw [hsplit, List.map_append, List.map_cons]
  constructor
  · rintro ⟨first, last, hsame, hmem⟩
    have hparts := (List.append_cons_inj_of_notMem (hn.not_mem_before hsplit)
      (hn.not_mem_after hsplit)).mp (hids.symm.trans hsame)
    rwa [hparts.1]
  · intro hmem
    exact ⟨_, _, hids, hmem⟩

/-- The clock of a flip-flop that follows the flip-flop clocking it has its new level in time. -/
theorem Phases.clock_of_clockedByEarlier (hn : n.DistinctNames) (h : Phases n start ticked rested)
    (hsplit : ticked.devices = before ++ d :: after) (hclocked : ticked.ClockedByEarlier d) :
    (latchedBefore start before ticked).inputLevel d ticked.ports.clk =
      rested.inputLevel d ticked.ports.clk := by
  have hticked := (h.sameWiring_ticked hn).distinctNames hn
  obtain ⟨e, he, hflip, hbefore, port, hdriver⟩ := hclocked
  refine inputLevel_congr fun t ht ↦ ?_
  obtain rfl := Option.some_inj.mp (hdriver.symm.trans ht)
  have hlatched := device?_latchedBefore_of_mem start hticked hsplit
    ((declaredBefore_iff hticked hsplit).mp hbefore)
  obtain ⟨e', he', -, -, hkind⟩ := SameWiring.exists_device? (sameWiring_latch start hticked)
    (hticked.device?_id he)
  obtain ⟨q, lastClock, helement⟩ := Device.exists_flipFlop (hkind.trans hflip)
  refine output?_congr ?_ (hlatched.trans (he'.trans (h.device?_rested hn he' helement).symm))
  have hlike := alike_afterTurns_latchOne start hticked fun e ↦ mem_of_mem_before hsplit
  rw [← hlike.ports, ← Alike.ports (h.sameWiring_ticked hn), Alike.ports (h.sameWiring_rested hn)]

/-- Any other clock has, at the turn of its flip-flop, the level that it had before the latching. -/
theorem clock_of_not_clockedByEarlier (hn : ticked.DistinctNames)
    (hsplit : ticked.devices = before ++ d :: after) (hclocked : ¬ ticked.ClockedByEarlier d) :
    (latchedBefore start before ticked).inputLevel d ticked.ports.clk =
      ticked.inputLevel d ticked.ports.clk := by
  refine inputLevel_congr fun t ht ↦ ?_
  have hlike := alike_afterTurns_latchOne start hn fun e ↦ mem_of_mem_before hsplit
  refine output?_congr hlike.ports.symm ?_
  refine device?_latchedBefore_of_not_mem start hn hsplit fun e he hflip hmem ↦ hclocked ?_
  have hid := id_of_device? he
  refine ⟨e, mem_of_device? he, hflip, ?_, t.port, ?_⟩
  · rw [hid]
    exact (declaredBefore_iff hn hsplit).mpr hmem
  · rw [ht, hid]

/-- A clock that is high in the end is high at the turn of its flip-flop just when its edge is in
time. -/
theorem Phases.clock_eq_high_iff (hn : n.DistinctNames) (h : Phases n start ticked rested)
    (hsplit : ticked.devices = before ++ d :: after)
    (hhigh : rested.inputLevel d ticked.ports.clk = Level.high) :
    (latchedBefore start before ticked).inputLevel d ticked.ports.clk = Level.high ↔
      ticked.EdgeInTime d := by
  by_cases hclocked : ticked.ClockedByEarlier d
  · rw [h.clock_of_clockedByEarlier hn hsplit hclocked, hhigh]
    exact ⟨fun _ ↦ Or.inr hclocked, fun _ ↦ rfl⟩
  · rw [clock_of_not_clockedByEarlier ((h.sameWiring_ticked hn).distinctNames hn) hsplit hclocked]
    exact ⟨Or.inl, fun hseen ↦ hseen.resolve_right hclocked⟩

/-- Assumes: the clock of a flip-flop was low at the end of a cycle and is high at the end of the
next that succeeds, with no more between the two than switches set and cycles abandoned. Whatever
drives the clock, the flip-flop then holds the level that it had ahead of it just when the edge was
in time or it held that level anyway. Otherwise the edge is lost, and it keeps what it held. -/
theorem latched_iff_inTime {ended : Network} (hended : CycleEnd ended) (hn : SinceCycle ended n)
    (hcycle : n.cycle = .ok m) (hd : d ∈ n.devices) (hkind : d.kind = .flipFlop)
    (hlow : ended.inputLevel d ended.ports.clk = Level.low)
    (hhigh : m.inputLevel d m.ports.clk = Level.high) :
    ∃ start ticked level, n.settle = .ok start ∧ start.tick.settle = .ok ticked ∧
      (level = if start.inputLevel d start.ports.set = Level.high then Level.high
        else if start.inputLevel d start.ports.clear = Level.high then Level.low
        else start.inputLevel d start.ports.data) ∧
      (m.held d = some level ↔ ticked.EdgeInTime d ∨ n.held d = some level) ∧
      (¬ ticked.EdgeInTime d → m.held d = n.held d) ∧
      m.heldBar d = (m.held d).map (!·) := by
  have hlike := hn.alike hended.wellFormed.distinctNames
  have hwf : n.WellFormed := hended.wellFormed.alike hlike
  have hnames := hwf.distinctNames
  obtain ⟨start, ticked, rested, h, rfl⟩ := cycle_eq_ok_iff.mp hcycle
  obtain ⟨q, seen, helement⟩ := Device.exists_flipFlop hkind
  -- The flip-flop remembers its clock as it was when the last cycle ended.
  have hseen : seen = Level.low := by
    obtain ⟨e, he, hid, hpins, hmask⟩ := hlike.symm.exists_device? (hnames.device?_id hd)
    rw [helement] at hmask
    obtain ⟨q', helement'⟩ := Element.exists_of_maskRun hmask
    rw [hended.clocksSeen e (mem_of_device? he) q' seen helement', inputLevel_of_pins _ hpins,
      hlow]
  have hheld : n.held d = some q :=
    held_of_flipFlop hwf.q_ne_qbar (hnames.device?_id hd) helement
  have hticked := (h.device?_ticked hnames (hnames.device?_id hd) helement).2
  obtain ⟨before, after, hsplit⟩ := List.append_of_mem (mem_of_device? hticked)
  have hturn : (latchedBefore start before ticked).inputLevel d ticked.ports.clk = Level.high ↔
      ticked.EdgeInTime d := by
    refine h.clock_eq_high_iff hnames hsplit ?_
    rw [← Alike.ports (h.sameWiring_ticked hnames), Alike.ports (h.sameWiring_rested hnames),
      ← hhigh, inputLevel_rememberClocks]
    rfl
  obtain ⟨hafter, hbar⟩ := h.held hwf hsplit helement
  by_cases htime : ticked.EdgeInTime d
  · rw [if_pos ⟨hseen, hturn.mpr htime⟩] at hafter
    exact ⟨start, ticked, start.nextLevel d, h.settle_start, h.settle_ticked, rfl,
      iff_of_true hafter (Or.inl htime), fun hlate ↦ absurd htime hlate, hbar⟩
  · rw [if_neg fun hrise ↦ htime (hturn.mp hrise.2), ← hheld] at hafter
    refine ⟨start, ticked, start.nextLevel d, h.settle_start, h.settle_ticked, rfl, ?_,
      fun _ ↦ hafter, hbar⟩
    rw [hafter, or_iff_right htime]

/-! ### A ripple of two flip-flops -/

/-- A switch clocks flip-flop 22, the output of flip-flop 22 clocks flip-flop 23, and both are to
take over the high level of a switch. The flip-flops are declared in the given order. -/
def ripple (first second : NameId) : Network :=
  built [.addDevice first .flipFlop, .addDevice second .flipFlop, .addDevice 24 .switch,
    .addDevice 25 .switch, .setSwitch 25 Level.high, .connect ⟨24, none⟩ 22 16,
    .connect ⟨25, none⟩ 22 17, .connect ⟨22, some 20⟩ 23 16, .connect ⟨25, none⟩ 23 17]

/-- The ripple at the end of a cycle. -/
def rippleEnd (first second : NameId) : Network :=
  finalState (ripple first second).cycle

/-- The ripple with its clocking switch set after the cycle. -/
def rippleSet (first second : NameId) : Network :=
  ((rippleEnd first second).setSwitch? 24 Level.high).getD (rippleEnd first second)

/-- Flip-flop 23 of the ripple before its edge. -/
def rippleTail : Device where
  id := 23
  element := .flipFlop Level.low Level.low
  pins := [⟨16, some ⟨22, some 20⟩⟩, ⟨17, some ⟨25, none⟩⟩, ⟨18, none⟩, ⟨19, none⟩]

theorem rippleEnd_cycleEnd : CycleEnd (rippleEnd 22 23) ∧ CycleEnd (rippleEnd 23 22) :=
  ⟨⟨ripple 22 23, reachable_built _, .inl (by decide)⟩,
    ⟨ripple 23 22, reachable_built _, .inl (by decide)⟩⟩

theorem sinceCycle_rippleSet : SinceCycle (rippleEnd 22 23) (rippleSet 22 23) ∧
    SinceCycle (rippleEnd 23 22) (rippleSet 23 22) := by
  have hset : (rippleEnd 22 23).setSwitch? 24 Level.high = some (rippleSet 22 23) := by decide
  have hset' : (rippleEnd 23 22).setSwitch? 24 Level.high = some (rippleSet 23 22) := by decide
  exact ⟨.setSwitch .rest hset, .setSwitch .rest hset'⟩

/-- Declared in the order of the ripple, the second flip-flop takes its edge. -/
theorem ripple_edge_inTime : ∃ m start, (rippleSet 22 23).cycle = .ok m ∧
    (rippleSet 22 23).settle = .ok start ∧
    start.inputLevel rippleTail start.ports.set = Level.low ∧
    start.inputLevel rippleTail start.ports.clear = Level.low ∧
    m.held rippleTail = some (start.inputLevel rippleTail start.ports.data) := by
  have hcycle : (rippleSet 22 23).cycle = .ok (finalState (rippleSet 22 23).cycle) := by decide
  obtain ⟨start, ticked, level, hstart, hticked, rfl, hheld, -, -⟩ :=
    latched_iff_inTime rippleEnd_cycleEnd.1 sinceCycle_rippleSet.1 hcycle (d := rippleTail)
      (by decide) rfl (by decide) (by decide)
  obtain rfl : finalState (rippleSet 22 23).settle = start := congrArg finalState hstart
  refine ⟨_, _, hcycle, hstart, by decide, by decide, hheld.mpr (Or.inl (Or.inr ?_))⟩
  obtain rfl : finalState (finalState (rippleSet 22 23).settle).tick.settle = ticked :=
    congrArg finalState hticked
  exact ⟨⟨22, .flipFlop Level.low Level.low, [⟨16, some ⟨24, none⟩⟩, ⟨17, some ⟨25, none⟩⟩,
    ⟨18, none⟩, ⟨19, none⟩]⟩, by decide, rfl, ⟨[22], [24, 25], by decide, by decide⟩, some 20,
    by decide⟩

/-- Declared against the order of the ripple, the second flip-flop loses its edge: its clock was low
when the last cycle ended and is high when this one does, and it has not taken its level. -/
theorem ripple_loses_edge : CycleEnd (rippleEnd 23 22) ∧
    SinceCycle (rippleEnd 23 22) (rippleSet 23 22) ∧
    ∃ m start, (rippleSet 23 22).cycle = .ok m ∧ (rippleSet 23 22).settle = .ok start ∧
      rippleTail ∈ (rippleSet 23 22).devices ∧
      (rippleEnd 23 22).inputLevel rippleTail (rippleEnd 23 22).ports.clk = Level.low ∧
      m.inputLevel rippleTail m.ports.clk = Level.high ∧
      start.inputLevel rippleTail start.ports.set = Level.low ∧
      start.inputLevel rippleTail start.ports.clear = Level.low ∧
      m.held rippleTail ≠ some (start.inputLevel rippleTail start.ports.data) :=
  ⟨rippleEnd_cycleEnd.2, sinceCycle_rippleSet.2, finalState (rippleSet 23 22).cycle,
    finalState (rippleSet 23 22).settle, by decide, by decide, by decide, by decide, by decide,
    by decide, by decide, by decide⟩

end Network

end Breadboard
