import Breadboard.Proofs.Network.Consistency
import Breadboard.Proofs.Network.Isolation
import Breadboard.Proofs.Network.LoopFreedom

/-!
# Settled levels by formula

In a loop free network the level of every input is a formula in the outputs of switches, clocks and
flip-flops: the tree of the gates behind the input, written out down to those outputs (`expand`).
The formula says nothing of an order or of a time. It depends on the connections alone
(`expand_congr`), and in a stable network it gives the level that the input reads
(`drivenLevel_eq_eval`). So a stable network is determined by its connections and the levels of its
sources, whatever way it settled.
-/

set_option autoImplicit false
set_option relaxedAutoImplicit false

namespace Breadboard

/-- What the level of an input is worked out from. -/
inductive Formula
  | undriven
  | source (t : Terminal)
  | gate (g : Gate) (inputs : List Formula)

namespace Formula

/-- The value of a formula, given the levels of the sources. -/
def eval (source : Terminal → Level) : Formula → Level
  | .undriven => Level.low
  | .source t => source t
  | .gate g inputs => g.evaluate (inputs.map fun input ↦ input.eval source)

end Formula

namespace Network

variable {n m k l : Network} {driver : Option Terminal} {t : Terminal}

/-- The gate whose output a terminal is, with its pins. -/
def gateAt? (n : Network) (t : Terminal) : Option (Gate × List Pin) :=
  (n.device? t.device).bind fun d ↦
    match t.port, d.element with
    | none, .gate g _ => some (g, d.pins)
    | _, _ => none

theorem gateAt?_eq_some_iff {g : Gate} {pins : List Pin} : n.gateAt? t = some (g, pins) ↔
    t.port = none ∧ ∃ d output, n.device? t.device = some d ∧ d.element = .gate g output ∧
      d.pins = pins := by
  rw [gateAt?, Option.bind_eq_some_iff]
  constructor
  · rintro ⟨d, hd, h⟩
    split at h
    · next g' output hport helement =>
      rw [Option.some_inj, Prod.mk.injEq] at h
      exact ⟨hport, d, output, hd, h.1 ▸ helement, h.2⟩
    · cases h
  · rintro ⟨hport, d, output, hd, helement, hpins⟩
    refine ⟨d, hd, ?_⟩
    rw [hport, helement, hpins]

/-- The level of an output of a switch, a clock or a flip-flop. -/
def sourceLevel (n : Network) (t : Terminal) : Level :=
  if (n.gateAt? t).isSome then Level.low else n.drivenLevel (some t)

/-! ### Formulas of a loop free network -/

/-- The driver of a pin of the gate that another driver comes from. -/
def Supplies (n : Network) (before after : Option Terminal) : Prop :=
  ∃ t g pins, after = some t ∧ n.gateAt? t = some (g, pins) ∧ ∃ pin ∈ pins, pin.driver = before

theorem Supplies.feeds {before after : Terminal} (h : n.Supplies (some before) (some after))
    {r : Option Terminal} (hgate : n.Supplies r (some before)) :
    n.Feeds before.device after.device := by
  obtain ⟨t, g, pins, ht, hafter, pin, hpin, hdriver⟩ := h
  obtain ⟨s, g', pins', hs, hbefore, -⟩ := hgate
  obtain rfl := Option.some_inj.mp ht
  obtain rfl := Option.some_inj.mp hs
  obtain ⟨-, e, output, he, helement, rfl⟩ := gateAt?_eq_some_iff.mp hafter
  obtain ⟨hport, d, output', hd, helement', -⟩ := gateAt?_eq_some_iff.mp hbefore
  refine ⟨d, e, hd, Device.isGate_iff.mpr ⟨_, _, helement'⟩, he,
    Device.isGate_iff.mpr ⟨_, _, helement⟩, pin, hpin, ?_⟩
  rw [hdriver, ← hport]

/-- Going back from driver to driver through the gates comes to an end. -/
theorem LoopFree.wellFounded_supplies (hn : n.LoopFree) : WellFounded n.Supplies := by
  have hstep : ∀ name, ∀ t : Terminal, t.device = name → Acc n.Supplies (some t) := by
    intro name
    induction name using hn.wellFounded.induction with
    | _ name ih =>
      rintro t rfl
      refine ⟨_, fun before hbefore ↦ ⟨_, fun earlier hearlier ↦ ?_⟩⟩
      obtain ⟨s, -, -, rfl, -⟩ := id hearlier
      exact (ih s.device (hbefore.feeds hearlier) s rfl).inv hearlier
  refine ⟨fun after ↦ ⟨_, fun before hbefore ↦ ?_⟩⟩
  obtain ⟨t, -, -, rfl, -⟩ := id hbefore
  exact (hstep t.device t rfl).inv hbefore

/-- The formula of an input with a given driver: the gates behind it written out, as far as to the
outputs of switches, clocks and flip-flops. -/
def expand (n : Network) (hn : n.LoopFree) (driver : Option Terminal) : Formula :=
  match _hdriver : driver with
  | none => .undriven
  | some t =>
    match _hgate : n.gateAt? t with
    | none => .source t
    | some (g, pins) => .gate g (pins.attach.map fun pin ↦ n.expand hn pin.1.driver)
termination_by hn.wellFounded_supplies.wrap driver
decreasing_by exact ⟨t, g, pins, rfl, _hgate, pin.1, pin.2, rfl⟩

theorem expand_none (hn : n.LoopFree) : n.expand hn none = .undriven := by
  rw [expand]

theorem expand_source (hn : n.LoopFree) (ht : n.gateAt? t = none) :
    n.expand hn (some t) = .source t := by
  rw [expand]
  split
  · rfl
  · next hgate => simp [ht] at hgate

theorem expand_gate (hn : n.LoopFree) {g : Gate} {pins : List Pin}
    (ht : n.gateAt? t = some (g, pins)) :
    n.expand hn (some t) = .gate g (pins.map fun pin ↦ n.expand hn pin.driver) := by
  rw [expand]
  split
  · next hgate => simp [ht] at hgate
  · next g' pins' hgate =>
    rw [ht, Option.some_inj, Prod.mk.injEq] at hgate
    obtain ⟨rfl, rfl⟩ := hgate
    simp only [List.map_attach_eq_pmap, List.pmap_eq_map]

/-- Going from driver to driver, what holds of undriven inputs and of sources, and of a gate when it
holds of its pins, holds of every driver. -/
theorem LoopFree.driver_induction (hn : n.LoopFree) {P : Option Terminal → Prop}
    (undriven : P none) (source : ∀ t, n.gateAt? t = none → P (some t))
    (gate : ∀ t g pins, n.gateAt? t = some (g, pins) → (∀ pin ∈ pins, P pin.driver) → P (some t))
    (driver : Option Terminal) : P driver := by
  induction driver using hn.wellFounded_supplies.induction with
  | _ driver ih =>
    cases driver with
    | none => exact undriven
    | some t =>
      cases hgate : n.gateAt? t with
      | none => exact source t hgate
      | some found =>
        obtain ⟨g, pins⟩ := found
        exact gate t g pins hgate fun pin hpin ↦ ih _ ⟨t, g, pins, rfl, hgate, pin, hpin, rfl⟩

/-- The connections of the gates decide on the formulas. -/
theorem expand_congr (hn : n.LoopFree) (hk : k.LoopFree) (h : n.gateAt? = k.gateAt?)
    (driver : Option Terminal) : n.expand hn driver = k.expand hk driver := by
  induction driver using hn.driver_induction with
  | undriven => rw [expand_none, expand_none]
  | source t ht => rw [expand_source hn ht, expand_source hk (h ▸ ht)]
  | gate t g pins ht ih =>
    rw [expand_gate hn ht, expand_gate hk (h ▸ ht)]
    exact congrArg _ (List.map_congr_left ih)

/-! ### Stable networks obey their formulas -/

theorem sourceLevel_of_source (ht : n.gateAt? t = none) :
    n.sourceLevel t = n.drivenLevel (some t) := by
  rw [sourceLevel, ht]
  rfl

/-- A gate of a stable network, as the driver of an input. -/
theorem Stable.drivenLevel_gate (hn : n.Stable) {g : Gate} {pins : List Pin}
    (ht : n.gateAt? t = some (g, pins)) :
    n.drivenLevel (some t) = g.evaluate (pins.map fun pin ↦ n.drivenLevel pin.driver) := by
  obtain ⟨hport, d, output, hd, helement, rfl⟩ := gateAt?_eq_some_iff.mp ht
  have hagrees := (agrees_of_gate helement).mp (hn d (mem_of_device? hd))
  obtain ⟨id, port⟩ := t
  obtain rfl : port = none := hport
  rw [drivenLevel, Option.bind_some, output?_of_gate hd helement, Option.getD_some, hagrees]
  rfl

/-- In a stable network an input reads the value of its formula. -/
theorem drivenLevel_eq_eval (hn : n.LoopFree) (hstable : n.Stable) (driver : Option Terminal) :
    n.drivenLevel driver = (n.expand hn driver).eval n.sourceLevel := by
  induction driver using hn.driver_induction with
  | undriven =>
    rw [expand_none, Formula.eval]
    rfl
  | source t ht => rw [expand_source hn ht, Formula.eval, sourceLevel_of_source ht]
  | gate t g pins ht ih =>
    rw [expand_gate hn ht, Formula.eval, hstable.drivenLevel_gate ht, List.map_map]
    exact congrArg _ (List.map_congr_left ih)

/-! ### Networks with the same connections -/

/-- The same devices with the same connections, declared in whatever order and in whatever state. -/
structure SameConnections (n k : Network) : Prop where
  ports : n.ports = k.ports
  there : WiredIn n k
  back : WiredIn k n

theorem SameConnections.trans (h : SameConnections n k) (h' : SameConnections k l) :
    SameConnections n l := by
  have hcompose : ∀ {a b c : Network}, WiredIn a b → WiredIn b c → WiredIn a c := by
    intro a b c hab hbc id d hd
    obtain ⟨e, he, hpins, hkind⟩ := hab id d hd
    obtain ⟨f, hf, hpins', hkind'⟩ := hbc id e he
    exact ⟨f, hf, hpins'.trans hpins, hkind'.trans hkind⟩
  exact ⟨h.ports.trans h'.ports, hcompose h.there h'.there, hcompose h'.back h.back⟩

theorem SameConnections.symm (h : SameConnections n k) : SameConnections k n :=
  ⟨h.ports.symm, h.back, h.there⟩

theorem SameWiring.sameConnections (h : SameWiring n m) : SameConnections n m :=
  ⟨h.ports, h.wiredIn, SameWiring.wiredIn h.symm⟩

theorem WiredIn.gateAt? (h : WiredIn n k) {g : Gate} {pins : List Pin}
    (ht : n.gateAt? t = some (g, pins)) : k.gateAt? t = some (g, pins) := by
  obtain ⟨hport, d, output, hd, helement, rfl⟩ := gateAt?_eq_some_iff.mp ht
  obtain ⟨e, he, hpins, hkind⟩ := h _ d hd
  rw [Device.kind, Device.kind, helement] at hkind
  cases hnow : e.element with
  | gate g' now =>
    rw [hnow, Element.kind, Element.kind, Kind.gate.injEq] at hkind
    exact gateAt?_eq_some_iff.mpr ⟨hport, e, now, he, hkind ▸ hnow, hpins⟩
  | _ => simp [hnow, Element.kind] at hkind

theorem SameConnections.gateAt? (h : SameConnections n k) : n.gateAt? = k.gateAt? := by
  funext t
  refine Option.ext fun ⟨g, pins⟩ ↦ ?_
  exact ⟨h.there.gateAt?, h.back.gateAt?⟩

theorem SameConnections.loopFree (h : SameConnections n k) (hn : n.LoopFree) : k.LoopFree := by
  refine fun name hloop ↦ hn name (Relation.TransGen.mono (fun source target hfeeds ↦ ?_) _ _ hloop)
  obtain ⟨d, e, hd, hgate, he, hgate', pin, hpin, hdriver⟩ := hfeeds
  obtain ⟨d', hd', -, hkind⟩ := h.back _ d hd
  obtain ⟨e', he', hpins, hkind'⟩ := h.back _ e he
  exact ⟨d', e', hd', hkind ▸ hgate, he', hkind' ▸ hgate', pin, hpins ▸ hpin, hdriver⟩

/-- Stable networks with the same connections whose sources have the same levels have the same
level on every input. -/
theorem SameConnections.drivenLevel (h : SameConnections n k) (hloop : n.LoopFree)
    (hn : n.Stable) (hk : k.Stable) (hsources : n.sourceLevel = k.sourceLevel)
    (driver : Option Terminal) : n.drivenLevel driver = k.drivenLevel driver := by
  rw [drivenLevel_eq_eval hloop hn, drivenLevel_eq_eval (h.loopFree hloop) hk, hsources,
    expand_congr hloop (h.loopFree hloop) h.gateAt?]

/-! ### Settling -/

/-- The output of a gate is an output. -/
theorem output?_eq_some_drivenLevel (ht : (n.gateAt? t).isSome) :
    n.output? t = some (n.drivenLevel (some t)) := by
  obtain ⟨⟨g, pins⟩, hgate⟩ := Option.isSome_iff_exists.mp ht
  obtain ⟨hport, d, output, hd, helement, -⟩ := gateAt?_eq_some_iff.mp hgate
  obtain ⟨id, port⟩ := t
  obtain rfl : port = none := hport
  rw [drivenLevel, Option.bind_some, output?_of_gate hd helement, Option.getD_some]

/-- Networks with the same connections and the same sources have the same source levels. -/
theorem SameConnections.sourceLevel (h : SameConnections n k)
    (hsources : ∀ d ∈ n.devices, ¬ d.kind.isGate → k.device? d.id = some d) :
    n.sourceLevel = k.sourceLevel := by
  funext t
  rw [Network.sourceLevel, Network.sourceLevel, ← h.gateAt?]
  cases ht : n.gateAt? t with
  | some _ => rfl
  | none =>
    refine drivenLevel_congr fun s hs ↦ ?_
    obtain rfl := Option.some_inj.mp hs
    cases hd : n.device? t.device with
    | none =>
      refine output?_congr h.ports
        (hd.trans (Option.eq_none_iff_forall_ne_some.mpr fun e he ↦ ?_).symm)
      obtain ⟨d, hd', -⟩ := h.back _ e he
      rw [hd] at hd'
      cases hd'
    | some d =>
      by_cases hgate : d.kind.isGate
      · obtain ⟨e, he, -, hkind⟩ := h.there _ d hd
        obtain ⟨g, output, helement⟩ := Device.isGate_iff.mp hgate
        obtain ⟨id, port⟩ := t
        cases port with
        | none => simp [Network.gateAt?, hd, helement] at ht
        | some port => rw [output?_named_of_gate hd hgate, output?_named_of_gate he (hkind ▸ hgate)]
      · have hsame := hsources d (mem_of_device? hd) hgate
        rw [id_of_device? hd] at hsame
        exact output?_congr h.ports (hd.trans hsame.symm)

/-- What changes the outputs of gates at most leaves the sources as they are. -/
theorem sourceLevel_of_alike (hn : n.DistinctNames) (h : Alike Element.maskGate n m) :
    n.sourceLevel = m.sourceLevel := by
  refine (h.sameWiring Element.kind_maskGate).sameConnections.sourceLevel fun d hd hgate ↦ ?_
  refine h.device?_eq (hn.device?_id hd) (Element.shown_maskGate fun g hkind ↦ hgate ?_)
  rw [Device.kind, hkind]
  rfl

/-- Networks that differ in the outputs of gates at most, and not in these, are equal. -/
theorem Alike.eq_of_outputs (h : Alike Element.maskGate n m) (hn : n.DistinctNames)
    (hgates : ∀ t, (n.gateAt? t).isSome → n.output? t = m.output? t) : n = m := by
  have hm := h.distinctNames hn
  have hdevices : n.devices = m.devices := by
    have hlength := congrArg List.length h.devices
    rw [List.length_map, List.length_map] at hlength
    refine List.ext_getElem hlength fun i hi hi' ↦ ?_
    have hmap := List.getElem_of_eq h.devices (by rwa [List.length_map])
    rw [List.getElem_map, List.getElem_map] at hmap
    have hd := hn.device?_id (List.getElem_mem hi)
    have he := hm.device?_id (List.getElem_mem hi')
    generalize n.devices[i] = d at hmap hd
    generalize m.devices[i] = e at hmap he
    rw [Device.mapElement, Device.mapElement, Device.mk.injEq] at hmap
    obtain ⟨hid, hmask, hpins⟩ := hmap
    refine Device.eq_of_parts hid ?_ hpins
    rcases d.gate_or_not with ⟨g, output, helement⟩ | hnone
    · rw [helement, Element.maskGate] at hmask
      cases hnow : e.element with
      | gate g' now =>
        rw [hnow, Element.maskGate, Element.gate.injEq] at hmask
        have hsame := hgates ⟨d.id, none⟩ (by simp [gateAt?, hd, helement])
        rw [output?_of_gate hd helement, hid, output?_of_gate he hnow, Option.some_inj] at hsame
        rw [helement, hmask.1, hsame]
      | _ => simp [hnow, Element.maskGate] at hmask
    · refine (Element.shown_maskGate (fun g hkind ↦ ?_) e.element hmask.symm).symm
      cases helement : d.element with
      | gate g' output => exact hnone g' output helement
      | _ => simp [helement, Element.kind] at hkind
  obtain ⟨hports, -, hsettings⟩ := alike_iff.mp h
  rw [show n = ⟨n.ports, n.devices, n.settings⟩ from rfl, hports, hdevices, hsettings]

/-- A loop free network that settles settles the same way from any other outputs of its gates. -/
theorem settle_eq_of_alike (hn : n.DistinctNames) (hloop : n.LoopFree)
    (h : Alike Element.maskGate n k) (hm : n.settle = .ok m) (hl : k.settle = .ok l) : m = l := by
  have hk := h.distinctNames hn
  have hnm := alike_of_settle hn hm
  have hml := hnm.symm.trans (h.trans (alike_of_settle hk hl))
  have hwiring := hnm.sameWiring Element.kind_maskGate
  have hconnections := (hml.sameWiring Element.kind_maskGate).sameConnections
  refine hml.eq_of_outputs (hnm.distinctNames hn) fun t ht ↦ ?_
  rw [output?_eq_some_drivenLevel ht,
    output?_eq_some_drivenLevel (congrFun hconnections.gateAt? t ▸ ht),
    hconnections.drivenLevel (hloop.of_sameWiring hwiring) (stable_of_settle hn hm)
      (stable_of_settle hk hl) (sourceLevel_of_alike (hnm.distinctNames hn) hml)]

/-- A network brought to rest: by a cycle, or by powering on. -/
def Rests (n m : Network) : Prop :=
  n.cycle = .ok m ∨ (∃ settled, n.settle = .ok settled) ∧ m = n.powerOn

theorem powerOn_of_settle (h : n.settle = .ok m) : n.powerOn = m.rememberClocks := by
  rw [powerOn, h, finalState]

theorem Rests.stable (hn : n.DistinctNames) (h : n.Rests m) : m.Stable := by
  rcases h with hcycle | ⟨⟨settled, hsettle⟩, rfl⟩
  · exact stable_of_cycle hn hcycle
  · rw [powerOn_of_settle hsettle]
    exact stable_rememberClocks (stable_of_settle hn hsettle)

theorem Rests.sameConnections (hn : n.DistinctNames) (h : n.Rests m) : SameConnections n m := by
  rcases h with hcycle | ⟨-, rfl⟩
  · exact (sameWiring_of_cycle hn hcycle).sameConnections
  · exact (sameWiring_powerOn hn).sameConnections

/-- Networks with the same connections that have come to rest have the same levels at their gates
when they have them at their sources. -/
theorem Rests.output?_eq (hn : n.DistinctNames) (hk : k.DistinctNames) (hloop : n.LoopFree)
    (h : SameConnections n k) (hm : n.Rests m) (hl : k.Rests l)
    (hsources : m.sourceLevel = l.sourceLevel) (ht : (n.gateAt? t).isSome) :
    m.output? t = l.output? t := by
  have hnm := hm.sameConnections hn
  have hml := hnm.symm.trans (h.trans (hl.sameConnections hk))
  rw [hnm.gateAt?] at ht
  rw [output?_eq_some_drivenLevel ht, output?_eq_some_drivenLevel (hml.gateAt? ▸ ht),
    hml.drivenLevel (hnm.loopFree hloop) (hm.stable hn) (hl.stable hk) hsources]

theorem sourceLevel_powerOn (hn : n.DistinctNames) : n.powerOn.sourceLevel = n.sourceLevel := by
  rw [sourceLevel_of_alike hn (alike_settle hn), powerOn]
  generalize finalState n.settle = m
  funext t
  rw [sourceLevel, sourceLevel, drivenLevel_rememberClocks,
    ← (sameWiring_rememberClocks m).sameConnections.gateAt?]

/-- The levels of a loop free network at rest are those of its formulas. Assumes: distinct names of
devices, as every reachable network has them, and no loop of gates. After a cycle that succeeds, or
powering on that finds rest, every gate has the value of its formula. So two such networks with the
same connections, whatever their order of declaration and their levels were, have the same levels at
their gates when they have them at their sources, and powering on brings them there from the same
sources. Other levels of the gates at the outset make no difference to a cycle at all. -/
theorem rests_by_formula (hn : n.DistinctNames) (hloop : n.LoopFree) :
    (∀ m, n.Rests m → ∀ t, (n.gateAt? t).isSome →
      m.output? t = some ((n.expand hloop (some t)).eval m.sourceLevel)) ∧
    (∀ k, k.DistinctNames → SameConnections n k →
      (∀ m l, n.Rests m → k.Rests l → m.sourceLevel = l.sourceLevel →
        ∀ t, (n.gateAt? t).isSome → m.output? t = l.output? t) ∧
      (∀ start start', n.settle = .ok start → k.settle = .ok start' →
        n.sourceLevel = k.sourceLevel → ∀ t, (n.gateAt? t).isSome →
          n.powerOn.output? t = k.powerOn.output? t)) ∧
    (∀ k, Alike Element.maskGate n k → ∀ m l, n.cycle = .ok m → k.cycle = .ok l → m = l) := by
  refine ⟨fun m hm t ht ↦ ?_, fun k hk h ↦ ⟨fun m l hm hl hsources t ht ↦ ?_, ?_⟩, ?_⟩
  · have hnm := hm.sameConnections hn
    rw [hnm.gateAt?] at ht
    rw [output?_eq_some_drivenLevel ht, drivenLevel_eq_eval (hnm.loopFree hloop) (hm.stable hn),
      expand_congr hloop (hnm.loopFree hloop) hnm.gateAt?]
  · exact hm.output?_eq hn hk hloop h hl hsources ht
  · intro start start' hstart hstart' hsources t ht
    refine Rests.output?_eq hn hk hloop h (.inr ⟨⟨_, hstart⟩, rfl⟩) (.inr ⟨⟨_, hstart'⟩, rfl⟩) ?_ ht
    rw [sourceLevel_powerOn hn, sourceLevel_powerOn hk, hsources]
  · intro k h m l hm hl
    obtain ⟨start, ticked, rested, hphases, rfl⟩ := cycle_eq_ok_iff.mp hm
    obtain ⟨start', ticked', rested', hphases', rfl⟩ := cycle_eq_ok_iff.mp hl
    obtain rfl := settle_eq_of_alike hn hloop h hphases.settle_start hphases'.settle_start
    obtain rfl := Except.ok.inj (hphases.settle_ticked.symm.trans hphases'.settle_ticked)
    rw [Except.ok.inj (hphases.settle_rested.symm.trans hphases'.settle_rested)]

theorem wiredIn_of_forall (h : ∀ d ∈ n.devices, ∃ e ∈ k.device? d.id, e.pins = d.pins ∧
    e.kind = d.kind) : WiredIn n k := by
  intro id d hd
  obtain ⟨e, he, hsame⟩ := h d (mem_of_device? hd)
  exact ⟨e, id_of_device? hd ▸ he, hsame⟩

/-- The ring through a flip-flop declared along the direction of its signals, with its gates as they
settled under the other level of the switch. -/
def ringReversed : Network :=
  built [.addDevice 27 .clock, .addDevice 26 .switch, .addDevice 25 .flipFlop,
    .addDevice 24 (.gate .xor), .addDevice 23 (.gate .not), .addDevice 22 (.gate .not),
    .connect ⟨23, none⟩ 22 0, .connect ⟨24, none⟩ 23 0, .connect ⟨25, some 20⟩ 24 0,
    .connect ⟨26, none⟩ 24 1, .connect ⟨27, none⟩ 25 16, .connect ⟨22, none⟩ 25 17, .powerOn,
    .setSwitch 26 Level.high]

theorem ringThroughFlipFlop_by_formula :
    (∃ hloop : ringThroughFlipFlop.LoopFree, ringThroughFlipFlop.powerOn.output? ⟨22, none⟩ =
      some ((ringThroughFlipFlop.expand hloop (some ⟨22, none⟩)).eval
        ringThroughFlipFlop.powerOn.sourceLevel)) ∧
    ringThroughFlipFlop.output? ⟨23, none⟩ ≠ ringReversed.output? ⟨23, none⟩ ∧
    ringThroughFlipFlop.powerOn.output? ⟨23, none⟩ = ringReversed.powerOn.output? ⟨23, none⟩ ∧
    ∃ m, ringThroughFlipFlop.cycle = .ok m ∧ ringThroughFlipFlop.powerOn.cycle = .ok m := by
  have hnames : ringThroughFlipFlop.DistinctNames :=
    (reachable_built _ : ringThroughFlipFlop.Reachable).wellFormed.distinctNames
  have hreversed : ringReversed.DistinctNames :=
    (reachable_built _ : ringReversed.Reachable).wellFormed.distinctNames
  have hloop : ringThroughFlipFlop.LoopFree := loopFree_of_rank (fun name ↦ 30 - name) (by decide)
  obtain ⟨hformula, hsame, hcycles⟩ := rests_by_formula hnames hloop
  have hsettle : ringThroughFlipFlop.settle = .ok (finalState ringThroughFlipFlop.settle) := by
    decide
  have hsettle' : ringReversed.settle = .ok (finalState ringReversed.settle) := by decide
  have hconnections : SameConnections ringThroughFlipFlop ringReversed :=
    ⟨by decide, wiredIn_of_forall (by decide), wiredIn_of_forall (by decide)⟩
  have hsources : ringThroughFlipFlop.sourceLevel = ringReversed.sourceLevel :=
    hconnections.sourceLevel (by decide)
  have hlike : Alike Element.maskGate ringThroughFlipFlop ringThroughFlipFlop.powerOn := by
    unfold Alike
    decide
  have hcycle : ringThroughFlipFlop.cycle = .ok (finalState ringThroughFlipFlop.cycle) := by
    decide
  have hcycle' : ringThroughFlipFlop.powerOn.cycle =
      .ok (finalState ringThroughFlipFlop.powerOn.cycle) := by decide
  refine ⟨⟨hloop, hformula _ (.inr ⟨⟨_, hsettle⟩, rfl⟩) _ (by decide)⟩, by decide, ?_, _, hcycle,
    ?_⟩
  · exact (hsame _ hreversed hconnections).2 _ _ hsettle hsettle' hsources _ (by decide)
  · rw [hcycle', hcycles _ hlike _ _ hcycle hcycle']

end Network

end Breadboard
