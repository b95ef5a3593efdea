import Breadboard.Proofs.Network.Firmness
import Breadboard.Proofs.Network.Latching

/-!
# Inputs out of reach of flip-flops

The level of an input depends on the output that drives it and, where that is the output of a gate,
on the outputs that drive the gate in turn (`Draws`). An input is isolated when it depends on no
output of a flip-flop. The gates that it depends on are then a firm set, loops among them or not,
whatever the latching does to the flip-flops, so the last settling leaves them alone and the input
keeps its level from the second settling to the end of the cycle (`Phases.inputLevel_of_isolated`).
-/

set_option autoImplicit false
set_option relaxedAutoImplicit false

namespace Breadboard

namespace Element

/-- An element under a clock at a given level, with a level ahead of it: a flip-flop takes it when
its clock has risen. -/
def clocked (clock next : Level) : Element → Element
  | .flipFlop q lastClock =>
    .flipFlop (if lastClock = Level.low ∧ clock = Level.high then next else q) lastClock
  | element => element

theorem clocked_of_ne {element : Element} (h : element.kind ≠ .flipFlop) (clock next : Level) :
    element.clocked clock next = element := by
  cases element with
  | flipFlop q lastClock => exact absurd rfl h
  | _ => rfl

end Element

namespace Network

variable {n m start ticked rested sampled : Network} {d : Device} {driver : Option Terminal}
  {t : Terminal} {before after : List Device}

/-- The outputs that an input with a given driver depends on, directly or through gates. -/
inductive Draws (n : Network) (driver : Option Terminal) : Terminal → Prop
  | direct {t : Terminal} : driver = some t → Draws n driver t
  | through {t s : Terminal} {g : Device} {pin : Pin} : Draws n driver t →
    n.device? t.device = some g → g.kind.isGate → pin ∈ g.pins → pin.driver = some s →
    Draws n driver s

/-- An input with a given driver depends on no flip-flop. -/
def Isolated (n : Network) (driver : Option Terminal) : Prop :=
  ∀ t, n.Draws driver t → ∀ e, n.device? t.device = some e → e.kind ≠ .flipFlop

/-- No clock of a flip-flop depends on a flip-flop. -/
def ClocksIsolated (n : Network) : Prop :=
  ∀ d ∈ n.devices, d.kind = .flipFlop → n.Isolated (d.driver? n.ports.clk)

/-- The gates that an input with a given driver depends on. -/
def cone (n : Network) (driver : Option Terminal) : Set NameId :=
  {name | ∃ t g, n.Draws driver t ∧ t.device = name ∧ n.device? name = some g ∧ g.kind.isGate}

/-! ### The wiring decides -/

/-- Every device of a network is in another, of the same kind and with the same pins. -/
def WiredIn (n m : Network) : Prop :=
  ∀ id d, n.device? id = some d →
    ∃ e, m.device? id = some e ∧ e.pins = d.pins ∧ e.kind = d.kind

theorem SameWiring.wiredIn (h : SameWiring n m) : WiredIn n m := by
  intro id d hd
  obtain ⟨e, he, -, hpins, hkind⟩ := SameWiring.exists_device? h hd
  exact ⟨e, he, hpins, hkind⟩

theorem Draws.of_wiredIn (h : WiredIn n m) (hdraws : n.Draws driver t) : m.Draws driver t := by
  induction hdraws with
  | direct ht => exact .direct ht
  | through _ hg hgate hpin hs ih =>
    obtain ⟨g', hg', hpins, hkind⟩ := h _ _ hg
    exact .through ih hg' (hkind ▸ hgate) (hpins ▸ hpin) hs

theorem Isolated.of_wiredIn (h : WiredIn m n) (hn : n.Isolated driver) : m.Isolated driver := by
  intro t ht e he hflip
  obtain ⟨e', he', -, hkind⟩ := h _ _ he
  exact hn t (ht.of_wiredIn h) e' he' (hkind.trans hflip)

theorem ClocksIsolated.of_wiredIn (hports : n.ports = m.ports) (hm : m.DistinctNames)
    (h : WiredIn m n) (hn : n.ClocksIsolated) : m.ClocksIsolated := by
  intro d hd hflip
  obtain ⟨e, he, hpins, hkind⟩ := h _ _ (hm.device?_id hd)
  have hdriver : d.driver? m.ports.clk = e.driver? n.ports.clk := by
    rw [Device.driver?, Device.driver?, Device.pin?, Device.pin?, hpins, hports]
  rw [hdriver]
  exact (hn e (mem_of_device? he) (hkind.trans hflip)).of_wiredIn h

/-- An input is isolated when its driver is among some outputs that are driven only by outputs among
them, none of a flip-flop. -/
theorem isolated_of_closed (outputs : List Terminal) (hdriver : ∀ t ∈ driver, t ∈ outputs)
    (hclosed : ∀ t ∈ outputs, ∀ g ∈ n.device? t.device,
      g.kind ≠ .flipFlop ∧ ∀ pin ∈ g.pins, ∀ s ∈ pin.driver, s ∈ outputs) : n.Isolated driver := by
  have hmem : ∀ t, n.Draws driver t → t ∈ outputs := by
    intro t ht
    induction ht with
    | direct ht => exact hdriver _ ht
    | through _ hg _ hpin hs ih => exact (hclosed _ ih _ hg).2 _ hpin _ hs
  exact fun t ht e he ↦ (hclosed t (hmem t ht) e he).1

/-! ### Through the latching -/

/-- No turn of a flip-flop moves a level that an isolated input depends on. -/
theorem output?_latchedBefore (sampled : Network) (hn : n.DistinctNames)
    (hsplit : n.devices = before ++ after) (hisolated : n.Isolated driver)
    (ht : n.Draws driver t) : (latchedBefore sampled before n).output? t = n.output? t := by
  refine output?_congr ?_ ?_
  · exact (alike_afterTurns_latchOne sampled hn fun e ↦ mem_of_mem_before hsplit).ports.symm
  · exact device?_latchedBefore_of_not_mem sampled hn hsplit
      fun e he hflip ↦ absurd hflip (hisolated t ht e he)

theorem output?_latch (sampled : Network) (hn : n.DistinctNames) (hisolated : n.Isolated driver)
    (ht : n.Draws driver t) : (latch sampled n).1.output? t = n.output? t := by
  rw [latch, sweep_fst]
  exact output?_latchedBefore sampled hn (List.append_nil _).symm hisolated ht

theorem device?_latch_of_isolated (sampled : Network) (hn : n.DistinctNames)
    (hisolated : n.Isolated driver) (ht : n.Draws driver t) :
    (latch sampled n).1.device? t.device = n.device? t.device := by
  rw [latch, sweep_fst]
  exact device?_latchedBefore_of_not_mem sampled hn (List.append_nil _).symm
    fun e he hflip ↦ absurd hflip (hisolated t ht e he)

/-- The flip-flops with all their new levels at once. -/
def latchAll (sampled n : Network) : Network :=
  n.mapDevices fun d ↦
    d.mapElement (Element.clocked (n.inputLevel d n.ports.clk) (sampled.nextLevel d))

/-- Where no clock depends on a flip-flop, the order in which they latch makes no difference. -/
theorem device?_latch_eq (sampled : Network) (hn : n.DistinctNames)
    (hisolated : n.ClocksIsolated) (id : NameId) :
    (latch sampled n).1.device? id = (latchAll sampled n).device? id := by
  have hkeep : ∀ d : Device, (d.mapElement
      (Element.clocked (n.inputLevel d n.ports.clk) (sampled.nextLevel d))).id = d.id := fun _ ↦ rfl
  rw [latchAll, device?_mapDevices n hkeep]
  cases hd : n.device? id with
  | none => exact (alike_latch sampled hn).device?_eq_none hd
  | some d =>
    obtain rfl := id_of_device? hd
    by_cases hflip : d.kind = .flipFlop
    · obtain ⟨q, lastClock, helement⟩ := Device.exists_flipFlop hflip
      obtain ⟨before, after, hsplit⟩ := List.append_of_mem (mem_of_device? hd)
      have hclock : (latchedBefore sampled before n).inputLevel d n.ports.clk =
          n.inputLevel d n.ports.clk := by
        refine inputLevel_congr fun t ht ↦ ?_
        exact output?_latchedBefore sampled hn hsplit (hisolated d (mem_of_device? hd) hflip)
          (.direct ht)
      rw [device?_latch sampled hn hsplit helement, hclock, Option.map_some, Device.mapElement,
        Device.mapElement, helement, Element.clocked]
    · rw [(alike_latch sampled hn).device?_eq hd (Element.shown_maskHeld hflip), Option.map_some,
        Device.mapElement, Element.clocked_of_ne hflip]

/-- After the latching, the gates that an isolated input depends on still agree with what they
read. -/
theorem firm_cone (sampled : Network) (hn : n.DistinctNames) (hstable : n.Stable)
    (hisolated : n.Isolated driver) : (latch sampled n).1.Firm (n.cone driver) := by
  have hwiring := sameWiring_latch sampled hn
  constructor
  · rintro source target hfeeds ⟨t, g, ht, rfl, hg, hgate⟩
    obtain ⟨f, e, hf, hfgate, he, -, pin, hpin, hdriver⟩ := hfeeds.of_sameWiring hwiring.symm
    rw [hg, Option.some_inj] at he
    subst he
    exact ⟨⟨source, none⟩, f, .through ht hg hgate hpin hdriver, rfl, hf, hfgate⟩
  · rintro d hd ⟨t, g, ht, hid, hg, hgate⟩
    have hsame : n.device? d.id = some d := by
      rw [← hid, ← device?_latch_of_isolated sampled hn hisolated ht, hid]
      exact (hwiring.distinctNames hn).device?_id hd
    obtain rfl := Option.some_inj.mp (hsame.symm.trans hg)
    have hlevels : (latch sampled n).1.pinLevels d = n.pinLevels d := by
      refine pinLevels_congr fun pin hpin s hs ↦ ?_
      exact output?_latch sampled hn hisolated (.through ht (hid ▸ hsame) hgate hpin hs)
    exact (agrees_congr hlevels).mpr (hstable d (mem_of_device? hsame))

/-! ### Through the whole cycle -/

/-- What an isolated input depends on is at rest as it was before the latching. -/
theorem Phases.output?_of_isolated (hn : n.DistinctNames) (h : Phases n start ticked rested)
    (hisolated : ticked.Isolated driver) (ht : ticked.Draws driver t) :
    rested.output? t = ticked.output? t := by
  have hticked := (h.sameWiring_ticked hn).distinctNames hn
  have hlike := h.alike_rested hn
  rw [← output?_latch start hticked hisolated ht]
  refine output?_congr hlike.ports.symm ?_
  have hlatch := device?_latch_of_isolated start hticked hisolated ht
  cases he : ticked.device? t.device with
  | none => rw [hlatch, he, hlike.device?_eq_none (hlatch.trans he)]
  | some e =>
    by_cases hgate : e.kind.isGate
    · have hfirm := device?_settle_of_firm ((sameWiring_latch start hticked).distinctNames hticked)
        (firm_cone start hticked (h.stable_ticked hn) hisolated)
        (⟨t, e, ht, rfl, he, hgate⟩ : t.device ∈ ticked.cone driver)
      rwa [h.settle_latched hn] at hfirm
    · rw [hlatch, he]
      refine hlike.device?_eq (hlatch.trans he) (Element.shown_maskGate fun g hkind ↦ hgate ?_)
      rw [Device.kind, hkind]
      rfl

/-- An isolated input has its level at rest before the latching. -/
theorem Phases.inputLevel_of_isolated (hn : n.DistinctNames) (h : Phases n start ticked rested)
    {port : NameId} (hisolated : n.Isolated (d.driver? port)) :
    rested.inputLevel d port = ticked.inputLevel d port :=
  inputLevel_congr fun _ ht ↦ h.output?_of_isolated hn
    (hisolated.of_wiredIn (SameWiring.wiredIn (h.sameWiring_ticked hn).symm)) (.direct ht)

/-- Whether a flip-flop with an isolated clock takes a new level can be seen at the end of the
cycle. -/
theorem Phases.clock_of_isolated (hn : n.DistinctNames) (h : Phases n start ticked rested)
    (hsplit : ticked.devices = before ++ d :: after)
    (hisolated : n.Isolated (d.driver? ticked.ports.clk)) :
    (latchedBefore start before ticked).inputLevel d ticked.ports.clk =
      rested.inputLevel d ticked.ports.clk := by
  have hwiring := h.sameWiring_ticked hn
  rw [h.inputLevel_of_isolated hn hisolated]
  refine inputLevel_congr fun t ht ↦ ?_
  exact output?_latchedBefore start (hwiring.distinctNames hn) hsplit
    (hisolated.of_wiredIn (SameWiring.wiredIn hwiring.symm)) (.direct ht)

end Network

end Breadboard
