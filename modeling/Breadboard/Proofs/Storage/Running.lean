import Breadboard.Proofs.Storage.Places

/-!
# Running in storage

A turn at a place is taken without a lapse and does to the table what the turn of the device there
does to the network that is stored (`Turned`), and leaves all other places alone. So a sweep over
the places comes to a device as the sweep found it, and does what the sweep over the devices does
(`Ready.sweep`). From there on an activity of a ready table and the activity of its network end in
the same way, with a ready table (`Ends`), also where they are abandoned half-way.
-/

set_option autoImplicit false
set_option relaxedAutoImplicit false

namespace Breadboard

namespace Table

variable {m : Type → Type} [Fallback m] {t k sampled : Table} {c before : Cell} {pos : Nat}
  {f : Cell → Cell}

/-- A table that is ready and stores a network. -/
structure Stores (t : Table) (n : Network) : Prop extends Ready t where
  network : t.network = n

theorem Ready.stores (h : t.Ready) : t.Stores t.network :=
  ⟨h, rfl⟩

/-! ### Turns -/

/-- A turn at a place has had the result of a turn in the network that is stored, and concerned that
place only. -/
structure Turned (k : Table) (pos : Nat) (expected : Network × Bool) (result : Table × Bool) :
    Prop where
  stores : result.1.Stores expected.1
  flag : result.2 = expected.2
  ports : result.1.ports = k.ports
  elsewhere : ∀ other, pos ≠ other → result.1.cells[other]? = k.cells[other]?

theorem Ready.turned_idle (h : k.Ready) (pos : Nat) : Turned k pos (k.network, false) (k, false) :=
  ⟨h.stores, rfl, rfl, fun _ _ ↦ rfl⟩

/-- A turn in which a device remembers something else. -/
theorem Ready.turned_modifyAt (h : k.Ready) (hc : k.cells[pos]? = some c) {e : Element}
    (hid : (f c).id = c.id) (hf : (f c).Sound k.ports) (hkind : e.kind = c.kind)
    (hdevice : (f c).device k.ports = (c.device k.ports).mapElement fun _ ↦ e) (flag : Bool) :
    Turned k pos (k.network.update c.id (Device.mapElement fun _ ↦ e), flag)
      (k.modifyAt pos f, flag) := by
  have hnetwork := h.network_modifyAt hc hdevice
  have hwiring : Network.SameWiring k.network (k.modifyAt pos f).network := by
    rw [hnetwork]
    refine Network.alike_update fun d hd hid ↦ ?_
    have hmem : c.device k.ports ∈ k.network.devices :=
      List.mem_map_of_mem (Array.mem_toList_iff.mpr (Array.mem_of_getElem? hc))
    obtain rfl := h.distinctNames.eq_of_id hd hmem hid
    rw [Element.maskState, Element.maskState, hkind, ← c.kind_device k.ports, Device.kind]
  exact {
    stores := ⟨h.of_sameWiring (h.modifyAt hc hid hf) hwiring, hnetwork⟩
    flag := rfl
    ports := rfl
    elsewhere := fun other hother ↦ by rw [getElem?_modifyAt, if_neg hother] }

/-- A turn in a pass over the gates. -/
theorem Ready.turned_refresh (h : k.Ready) (hc : k.cells[pos]? = some c) :
    WithoutLapse (k.refreshAt pos : m (Table × Bool))
      (Turned k pos (k.network.refresh (c.device k.ports))) := by
  rw [refreshAt, h.gateOutputAt_eq hc, pure_bind]
  cases hkind : c.kind with
  | gate g =>
    have hsound := h.cell hc
    have hnone : c.outputs[(none : Option NameId)]? = some (c.level none) := by
      rw [hsound.getElem?_outputs, if_pos (by simp [Cell.outputPorts, hkind])]
    rw [Network.refresh_of_gate (Cell.element_of_gate k.ports hkind), Kind.evaluate?]
    generalize g.evaluate (k.network.pinLevels (c.device k.ports)) = level
    have hflag : (c.outputs[(none : Option NameId)]? != some level) = (level != c.level none) := by
      rw [hnone]
      cases level <;> cases c.level none <;> rfl
    dsimp only
    rw [setOutputAt, cellAt_eq hc, pure_bind, hflag]
    exact .pure (h.turned_modifyAt (e := .gate g level) hc rfl (hsound.setGate hkind level)
      hkind.symm (Cell.device_setGate hkind level) _)
  | switch | clock | flipFlop =>
    have hgate (g : Gate) (output : Level) : (c.device k.ports).element ≠ .gate g output :=
      fun helement ↦ Kind.noConfusion (hkind.symm.trans (Cell.kind_of_element helement))
    rw [Network.refresh_of_not_gate hgate]
    exact .pure (h.turned_idle pos)

theorem modifyAt_modifyAt (t : Table) (pos : Nat) (f f' : Cell → Cell) :
    (t.modifyAt pos f).modifyAt pos f' = t.modifyAt pos (f' ∘ f) := by
  have hcells : (t.cells.modify pos f).modify pos f' = t.cells.modify pos (f' ∘ f) := by
    refine Array.ext_getElem? fun other ↦ ?_
    simp only [Array.getElem?_modify]
    split
    · rw [Option.map_map]
    · rfl
  exact congrArg (fun cells ↦ { t with cells := cells }) hcells

/-- A turn to latch. The flip-flop had the same connections when the levels were sampled. -/
theorem Ready.turned_latch (h : k.Ready) (hsampled : sampled.Ready) (hc : k.cells[pos]? = some c)
    (hbefore : sampled.cells[pos]? = some before) (hsame : before.kind = c.kind)
    (hpins : (before.device sampled.ports).pins = (c.device k.ports).pins) :
    WithoutLapse (latchAt sampled k pos : m (Table × Bool))
      (Turned k pos (Network.latchOne sampled.network k.network (c.device k.ports))) := by
  rw [latchAt, cellAt_eq hc, pure_bind]
  by_cases hkind : c.kind = .flipFlop
  · have hsound := h.cell hc
    have hnext : sampled.network.nextLevel (before.device sampled.ports) =
        sampled.network.nextLevel (c.device k.ports) := by
      rw [Network.nextLevel, Network.nextLevel]
      simp only [Network.inputLevel_of_pins _ hpins]
    have hclk : k.network.ports.clk = k.ports.clk := rfl
    rw [if_pos hkind, hsampled.nextLevelAt_eq hbefore (hsame.trans hkind), pure_bind, hnext,
      h.inputLevelAt_eq hc (h.mem_inputs hc hkind (by simp)), pure_bind,
      Network.latchOne_of_flipFlop (Cell.element_of_flipFlop k.ports hkind), hclk]
    split
    · generalize sampled.network.nextLevel (c.device k.ports) = next
      have hq : c.outputs[some k.ports.q]? = some (c.level (some k.ports.q)) := by
        rw [hsound.getElem?_outputs, if_pos (by simp [Cell.outputPorts, hkind])]
      have hqbar : (c.setOutput (some k.ports.q) next).outputs[some k.ports.qbar]? =
          some (!c.level (some k.ports.q)) := by
        have hne := Ports.q_ne_qbar_of_nodup h.ports
        rw [Cell.getElem?_setOutput, if_neg (by simp [hne]), hsound.opposite hkind, hq]
        rfl
      -- The outputs are opposite, so both change or neither does.
      have hflag : ((some (c.level (some k.ports.q)) != some next) ||
          (some (!c.level (some k.ports.q)) != some (!next))) =
          (next != c.level (some k.ports.q)) := by
        cases next <;> cases c.level (some k.ports.q) <;> rfl
      have hthen : (k.modifyAt pos (Cell.setOutput (some k.ports.q) next)).cells[pos]? =
          some (c.setOutput (some k.ports.q) next) := by
        rw [getElem?_modifyAt, if_pos rfl, hc, Option.map_some]
      simp only [setOutputAt, cellAt_eq hc, cellAt_eq hthen, pure_bind, modifyAt_modifyAt, hq,
        hqbar, hflag]
      exact .pure (h.turned_modifyAt (e := .flipFlop next c.lastClock) hc rfl
        (hsound.setFlipFlop h.ports hkind next) hkind.symm
        (Cell.device_setFlipFlop h.ports hkind next) _)
    · exact .pure (h.turned_idle pos)
  · have hflip (q lastClock : Level) : (c.device k.ports).element ≠ .flipFlop q lastClock :=
      fun helement ↦ hkind (Cell.kind_of_element helement)
    rw [Network.latchOne_of_not_flipFlop hflip, if_neg hkind]
    exact .pure (h.turned_idle pos)

/-! ### Sweeps -/

/-- The turns from some place on. `rest` is what stands there. -/
theorem sweep_from {turn : Table → Nat → m (Table × Bool)}
    {turn' : Network → Device → Network × Bool}
    (hturn : ∀ (k : Table) (pos : Nat) (c : Cell), k.Ready → t.cells[pos]? = some c →
      k.cells[pos]? = some c →
        WithoutLapse (turn k pos) (Turned k pos (turn' k.network (c.device k.ports))))
    (rest : List Cell) (start : Nat) (flag : Bool) (h : k.Ready) (hports : k.ports = t.ports)
    (hrest : ∀ i, t.cells[start + i]? = rest[i]?) (hk : ∀ i, k.cells[start + i]? = rest[i]?)
    {expected : Network × Bool}
    (hexpected : (rest.map (Cell.device t.ports)).foldl
      (fun state d ↦ ((turn' state.1 d).1, state.2 || (turn' state.1 d).2)) (k.network, flag) =
        expected) :
    WithoutLapse ((List.range' start rest.length).foldlM (fun state pos ↦ do
      let turned ← turn state.1 pos
      return (turned.1, state.2 || turned.2)) (k, flag))
      fun result ↦ result.1.Stores expected.1 ∧ result.2 = expected.2 := by
  -- The turns so far have left the places from `start` on as the sweep found them.
  induction rest generalizing k start flag with
  | nil =>
    subst hexpected
    exact .pure ⟨h.stores, rfl⟩
  | cons c rest ih =>
    rw [List.length_cons, List.range'_succ, List.foldlM_cons, bind_assoc]
    refine (hturn k start c h (hrest 0) (hk 0)).bind fun turned hdone ↦ ?_
    rw [pure_bind]
    rw [List.map_cons, List.foldl_cons, ← hports, ← hdone.stores.network, ← hdone.flag, hports]
      at hexpected
    refine ih (start + 1) _ hdone.stores.toReady (hdone.ports.trans hports) (fun i ↦ ?_)
      (fun i ↦ ?_) hexpected
    · rw [Nat.add_right_comm, Nat.add_assoc]
      exact hrest (i + 1)
    · rw [hdone.elsewhere _ (by omega), Nat.add_right_comm, Nat.add_assoc]
      exact hk (i + 1)

/-- A sweep over the places does what the sweep over the devices does. -/
theorem Ready.sweep (h : t.Ready) {turn : Table → Nat → m (Table × Bool)}
    {turn' : Network → Device → Network × Bool}
    (hturn : ∀ (k : Table) (pos : Nat) (c : Cell), k.Ready → t.cells[pos]? = some c →
      k.cells[pos]? = some c →
        WithoutLapse (turn k pos) (Turned k pos (turn' k.network (c.device k.ports)))) :
    WithoutLapse (t.sweep turn) fun result ↦
      result.1.Stores (t.network.sweep turn').1 ∧ result.2 = (t.network.sweep turn').2 := by
  have hplaces (i : Nat) : t.cells[0 + i]? = t.cells.toList[i]? := by
    rw [Nat.zero_add, Array.getElem?_toList]
  have hsweep := sweep_from hturn t.cells.toList 0 false h rfl hplaces hplaces rfl
  rwa [Array.length_toList, ← List.range_eq_range'] at hsweep

theorem Ready.pass (h : t.Ready) : WithoutLapse (t.sweep refreshAt : m (Table × Bool))
    fun result ↦ result.1.Stores t.network.pass.1 ∧ result.2 = t.network.pass.2 :=
  h.sweep fun _ _ _ hk _ hc ↦ hk.turned_refresh hc

/-- Where the wiring is the same, so are the kinds and the connections at every place. -/
theorem exists_before (h : Network.SameWiring sampled.network t.network)
    (hc : t.cells[pos]? = some c) : ∃ before, sampled.cells[pos]? = some before ∧
      before.kind = c.kind ∧ (before.device sampled.ports).pins = (c.device t.ports).pins := by
  have hat := congrArg (·[pos]?) h.devices
  simp only [network, List.getElem?_map, Array.getElem?_toList, hc, Option.map_some] at hat
  obtain ⟨d, hd, hmask⟩ := Option.map_eq_some_iff.mp hat
  obtain ⟨before, hbefore, rfl⟩ := Option.map_eq_some_iff.mp hd
  have hkind := congrArg (Element.kind ∘ Device.element) hmask
  have hpins := congrArg Device.pins hmask
  simp only [Function.comp_apply, Device.mapElement, Element.kind_maskState] at hkind
  exact ⟨before, hbefore, by rwa [← Cell.kind_device, ← Cell.kind_device], hpins⟩

theorem Ready.latch (h : t.Ready) (hsampled : sampled.Ready)
    (hwiring : Network.SameWiring sampled.network t.network) :
    WithoutLapse (t.sweep (latchAt sampled) : m (Table × Bool)) fun result ↦
      result.1.Stores (Network.latch sampled.network t.network).1 ∧
        result.2 = (Network.latch sampled.network t.network).2 := by
  refine h.sweep fun k pos c hk hc hnow ↦ ?_
  obtain ⟨before, hbefore, hsame, hpins⟩ := exists_before hwiring hc
  exact hk.turned_latch hsampled hnow hbefore hsame hpins

/-! ### Activities -/

/-- An activity in storage that has no lapse and ends as it does in the network, at rest or not. -/
def Ends (activity : ExceptT Table m Table) (expected : Except Network Network) : Prop :=
  WithoutLapse activity.run (SameOutcome Stores Stores · expected)

variable {activity : ExceptT Table m Table} {expected : Except Network Network}

theorem Ready.ends (h : t.Ready) : Ends (pure t : ExceptT Table m Table) (.ok t.network) :=
  .pure (.ok h.stores)

theorem Ends.bind {next : Table → ExceptT Table m Table} {next' : Network → Except Network Network}
    (h : Ends activity expected)
    (hnext : ∀ k : Table, k.Ready → expected = .ok k.network → Ends (next k) (next' k.network)) :
    Ends (activity >>= next) (expected >>= next') := by
  obtain ⟨result, hrun, hsame⟩ := h
  rw [Ends, ExceptT.run_bind, hrun, pure_bind]
  cases hsame with
  | ok hstores =>
    obtain rfl := hstores.network
    exact hnext _ hstores.toReady rfl
  | error hstores => exact .pure (.error hstores)

theorem SameOutcome.stores_final {result : Except Table Table}
    (h : SameOutcome Stores Stores result expected) :
    (finalTable result).Stores (Network.finalState expected) := by
  cases h with
  | ok hstores => exact hstores
  | error hstores => exact hstores

theorem Ready.settleWithin (h : t.Ready) (passes : Nat) :
    Ends (t.settleWithin passes : ExceptT Table m Table)
      (Network.settleWithin passes t.network) := by
  induction passes generalizing t with
  | zero => exact .pure (.error h.stores)
  | succ passes ih =>
    obtain ⟨⟨next, changed⟩, hsweep, hstores, hflag⟩ := h.pass (m := ExceptT Table m)
    rw [Table.settleWithin, hsweep, pure_bind, Network.settleWithin]
    rcases hpass : t.network.pass with ⟨n, flag⟩
    rw [hpass] at hstores hflag
    obtain rfl : changed = flag := hflag
    obtain rfl : next.network = n := hstores.network
    cases changed with
    | true => exact ih hstores.toReady
    | false => exact hstores.ends

theorem Ready.settle (h : t.Ready) :
    Ends (t.settle : ExceptT Table m Table) t.network.settle := by
  have hlimit : t.network.iterationLimit = t.settings.limit t.cells.size := by
    rw [Network.iterationLimit, network, List.length_map, Array.length_toList]
  rw [Table.settle, Network.settle, hlimit]
  exact h.settleWithin _

/-- Every clock ticks once. -/
theorem Ready.tick (h : t.Ready) :
    WithoutLapse (t.tick : m Table) (Stores · t.network.tick) := by
  have hcells : t.cells.toList.mapM Cell.tick =
      (pure (t.cells.toList.map Cell.ticked) : m (List Cell)) :=
    mapM_eq_pure fun c hc ↦ (h.cells c (Array.mem_toList_iff.mp hc)).tick_eq
  have htable : { t with cells := (t.cells.toList.map Cell.ticked).toArray } =
      t.mapCells Cell.ticked := by
    rw [mapCells, ← Array.toList_map]
  rw [Table.tick, hcells, pure_bind, htable]
  have hnetwork : (t.mapCells Cell.ticked).network = t.network.tick :=
    network_mapCells fun c hc ↦ (h.cells c hc).device_ticked
  have hsound : (t.mapCells Cell.ticked).Sound :=
    h.mapCells Cell.id_ticked fun c hc ↦ (h.cells c hc).ticked
  exact .pure ⟨h.of_sameWiring hsound (hnetwork ▸ Network.sameWiring_tick _), hnetwork⟩

/-- Every flip-flop remembers its clock level. -/
theorem Ready.rememberClocks (h : t.Ready) :
    WithoutLapse (t.rememberClocks : m Table) (Stores · t.network.rememberClocks) := by
  let remember (c : Cell) : Cell :=
    if c.kind = .flipFlop then
      { c with lastClock := t.network.inputLevel (c.device t.ports) t.ports.clk }
    else c
  have hcells : ((List.range t.cells.size).mapM fun pos ↦ do
      let c ← t.cellAt pos
      if c.kind = .flipFlop then
        return { c with lastClock := ← t.inputLevelAt pos t.ports.clk }
      else return c) = (pure (t.cells.toList.map remember) : m (List Cell)) := by
    rw [← Array.length_toList, List.range_eq_range']
    refine mapM_range'_eq_pure fun pos c hc ↦ ?_
    rw [Array.getElem?_toList] at hc
    rw [Nat.zero_add, cellAt_eq hc, pure_bind]
    by_cases hkind : c.kind = .flipFlop
    · rw [if_pos hkind, h.inputLevelAt_eq hc (h.mem_inputs hc hkind (by simp)), pure_bind]
      exact congrArg pure (if_pos hkind).symm
    · rw [if_neg hkind]
      exact congrArg pure (if_neg hkind).symm
  have htable : { t with cells := (t.cells.toList.map remember).toArray } =
      t.mapCells remember := by
    rw [mapCells, ← Array.toList_map]
  rw [Table.rememberClocks, hcells, pure_bind, htable]
  have hnetwork : (t.mapCells remember).network = t.network.rememberClocks :=
    network_mapCells fun c _ ↦ Cell.device_remember t.ports c _
  have hsound : (t.mapCells remember).Sound := by
    refine h.mapCells (fun c ↦ ?_) fun c hc ↦ ?_
    · exact (apply_ite Cell.id ..).trans (ite_self _)
    · dsimp only [remember]
      split
      · exact (h.cells c hc).remember _
      · exact h.cells c hc
  exact .pure ⟨h.of_sameWiring hsound (hnetwork ▸ Network.sameWiring_rememberClocks _), hnetwork⟩

/-- A cycle ends in storage as it does in the network, at rest or not. -/
theorem Ready.cycle (h : t.Ready) : Ends (t.cycle : ExceptT Table m Table) t.network.cycle := by
  refine h.settle.bind fun start hstart _ ↦ ?_
  obtain ⟨moved, htick, hmoved⟩ := hstart.tick (m := ExceptT Table m)
  have hticking := hmoved.settle (m := m)
  rw [hmoved.network] at hticking
  rw [htick, pure_bind]
  refine hticking.bind fun ticked hticked hsettled ↦ ?_
  have hwiring : Network.SameWiring start.network ticked.network :=
    (Network.sameWiring_tick _).trans (Network.sameWiring_of_settle
      ((Network.sameWiring_tick _).distinctNames hstart.distinctNames) hsettled)
  obtain ⟨⟨latched, changed⟩, hlatch, hlatched, hflag⟩ :=
    hticked.latch (m := ExceptT Table m) hstart hwiring
  rw [hlatch, pure_bind]
  have hresting : Ends (settleIf (latched, changed) : ExceptT Table m Table)
      (Network.settleIf (Network.latch start.network ticked.network)) := by
    rcases hexpected : Network.latch start.network ticked.network with ⟨n, flag⟩
    rw [hexpected] at hlatched hflag
    obtain rfl : changed = flag := hflag
    obtain rfl : latched.network = n := hlatched.network
    cases changed with
    | true => exact hlatched.settle
    | false => exact hlatched.ends
  refine hresting.bind fun rested hrested _ ↦ ?_
  obtain ⟨last, hlast, hstores⟩ := hrested.rememberClocks (m := ExceptT Table m)
  rw [hlast, ← hstores.network]
  exact hstores.ends

theorem Ready.powerOn (h : t.Ready) :
    WithoutLapse (t.powerOn : m Table) (Stores · t.network.powerOn) := by
  refine WithoutLapse.bind h.settle fun result hsame ↦ ?_
  have hfinal := SameOutcome.stores_final hsame
  rw [Network.powerOn, ← hfinal.network]
  exact hfinal.rememberClocks

theorem Ready.clearDevices (h : t.Ready) : t.clearDevices.Stores t.network.clearDevices := by
  have hnetwork : t.clearDevices.network = t.network.clearDevices :=
    network_mapCells fun c _ ↦ Cell.device_reset h.ports c
  have hsound : t.clearDevices.Sound := by
    refine h.mapCells (fun c ↦ ?_) fun c hc ↦ (h.cells c hc).reset h.ports
    rw [Cell.reset]
    split <;> rfl
  exact ⟨h.of_sameWiring hsound (hnetwork ▸ Network.sameWiring_clearDevices _), hnetwork⟩

theorem Ready.reset (h : t.Ready) :
    WithoutLapse (t.reset : m Table) (Stores · t.network.reset) := by
  have hcleared := h.clearDevices
  rw [Network.reset, ← hcleared.network]
  exact hcleared.powerOn

end Table

end Breadboard
