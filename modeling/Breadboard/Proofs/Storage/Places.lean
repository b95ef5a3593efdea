import Breadboard.Proofs.Network.Drivers
import Breadboard.Proofs.Storage.Cells

/-!
# Sound tables

A table is sound when names and places go together, so that looking up a name finds the device of
that name and no place is out of range, when the ports have names of their own, and when every
stored device is sound (`Table.Sound`). A sound table and the network that is stored in it agree on
every device and every output. What is done to a stored device that leaves it sound leaves the table
sound (`Sound.modifyAt`, `Sound.mapCells`).

A table is ready when besides whatever is driven is driven by an output that is there, and there are
as many gate inputs as a gate may have (`Table.Ready`). Every level of it is read without a lapse,
and is that of the network. A table stays ready while the wiring stays the same.
-/

set_option autoImplicit false
set_option relaxedAutoImplicit false

namespace Breadboard

namespace Table

variable {m : Type → Type} [Fallback m] {t k : Table} {c : Cell} {id port : NameId} {pos : Nat}
  {f : Cell → Cell} {g : Device → Device}

/-- Names and places go together, ports have names of their own, and every device is sound. -/
structure Sound (t : Table) : Prop where
  placed : ∀ id pos, t.index[id]? = some pos ↔ ∃ c : Cell, t.cells[pos]? = some c ∧ c.id = id
  ports : t.ports.all.Nodup
  cells : ∀ c ∈ t.cells, c.Sound t.ports

theorem ports_empty (names : Names) (settings : Settings) :
    (empty names settings).ports = (Ports.intern names).1 := by
  rw [empty]

theorem sound_empty (names : Names) (settings : Settings) : (empty names settings).Sound := by
  have hports := Ports.nodup_all names
  rw [← ports_empty names settings] at hports
  refine ⟨fun id pos ↦ ?_, hports, fun c hc ↦ ?_⟩
  · simp [empty]
  · simp [empty] at hc

theorem network_empty (names : Names) (settings : Settings) :
    (empty names settings).network = Network.empty names settings := by
  simp [network, empty, Network.empty]

theorem Sound.cell (h : t.Sound) (hc : t.cells[pos]? = some c) : c.Sound t.ports :=
  h.cells c (Array.mem_of_getElem? hc)

/-! ### Looking up -/

/-- A name finds the device that has it. -/
theorem Sound.get?_eq_some_iff (h : t.Sound) : t.get? id = some c ↔ c ∈ t.cells ∧ c.id = id := by
  rw [get?, Option.bind_eq_some_iff, Array.mem_iff_getElem?]
  constructor
  · rintro ⟨pos, hpos, hc⟩
    obtain ⟨other, hother, hid⟩ := (h.placed id pos).mp hpos
    exact ⟨⟨pos, hc⟩, Option.some.inj (hc.symm.trans hother) ▸ hid⟩
  · rintro ⟨⟨pos, hc⟩, hid⟩
    exact ⟨pos, (h.placed id pos).mpr ⟨c, hc, hid⟩, hc⟩

/-- No two devices have the same name. -/
theorem Sound.nodup_ids (h : t.Sound) : (t.cells.toList.map Cell.id).Nodup := by
  rw [List.nodup_iff_getElem?_ne_getElem?]
  intro i j hij hj hids
  rw [List.length_map, Array.length_toList] at hj
  have hat (pos : Nat) (hpos : pos < t.cells.size) :
      t.index[(t.cells[pos]).id]? = some pos :=
    (h.placed _ _).mpr ⟨_, Array.getElem?_eq_getElem hpos, rfl⟩
  -- Two places of one name would both be the place of that name.
  have hi := Nat.lt_trans hij hj
  simp only [List.getElem?_map, Array.getElem?_toList, Array.getElem?_eq_getElem hi,
    Array.getElem?_eq_getElem hj, Option.map_some, Option.some_inj] at hids
  have hplaces := hat i hi
  rw [hids, hat j hj] at hplaces
  exact Nat.ne_of_gt hij (Option.some.inj hplaces)

theorem Sound.distinctNames (h : t.Sound) : t.network.DistinctNames := by
  rw [Network.DistinctNames, network, List.map_map]
  exact h.nodup_ids

theorem Sound.device?_network (h : t.Sound) (id : NameId) :
    t.network.device? id = (t.get? id).map (Cell.device t.ports) := by
  cases hc : t.get? id with
  | some c =>
    obtain ⟨hmem, rfl⟩ := h.get?_eq_some_iff.mp hc
    exact h.distinctNames.device?_id (List.mem_map_of_mem (Array.mem_toList_iff.mpr hmem))
  | none =>
    refine List.find?_eq_none.mpr fun d hd hid ↦ ?_
    obtain ⟨c, hmem, rfl⟩ := List.mem_map.mp hd
    have hfound := h.get?_eq_some_iff.mpr ⟨Array.mem_toList_iff.mp hmem, beq_iff_eq.mp hid⟩
    exact absurd (hc.symm.trans hfound) nofun

/-- A place is found where something stands there. -/
theorem cellAt_eq (hc : t.cells[pos]? = some c) : t.cellAt pos = (pure c : m Cell) := by
  rw [cellAt, hc, provided_some]

/-- A name leads to a place in range, if to any. -/
theorem Sound.find_eq (h : t.Sound) (id : NameId) :
    t.find id = (pure (t.get? id) : m (Option Cell)) := by
  rw [find, get?]
  cases hpos : t.index[id]? with
  | none => rfl
  | some pos =>
    obtain ⟨c, hc, -⟩ := (h.placed id pos).mp hpos
    dsimp only
    rw [cellAt_eq hc, pure_bind, Option.bind_some, hc]

theorem Sound.output?_network (h : t.Sound) (source : Terminal) :
    t.network.output? source = t.output? source := by
  rw [Network.output?, h.device?_network, output?]
  cases hc : t.get? source.device with
  | none => rfl
  | some c => exact (h.cells c (h.get?_eq_some_iff.mp hc).1).output?_device h.ports source.port

theorem Sound.signal?_eq (h : t.Sound) (source : Terminal) :
    t.signal? source = (pure (t.network.output? source) : m (Option Level)) := by
  rw [signal?, h.find_eq, pure_bind, h.output?_network, output?]

/-! ### Levels -/

/-- A sound table with all drivers that it tells of, and with as many gate inputs as a gate may
have. -/
structure Ready (t : Table) : Prop extends Sound t where
  gateInputs : t.ports.inputs.length = maxInputs
  driven : ∀ c ∈ t.cells, ∀ (port : NameId) (source : Terminal),
    c.inputs[port]? = some (some source) → (t.output? source).isSome

/-- The driver of an input of a stored device. -/
theorem Sound.driver?_network (h : t.Sound) (id port : NameId) :
    t.network.driver? id port = (t.get? id).bind fun c ↦ c.inputs[port]?.join := by
  rw [Network.driver?, h.device?_network]
  cases t.get? id with
  | none => rfl
  | some c => exact c.driver?_device t.ports port

theorem Sound.driver?_eq_some_iff (h : t.Sound) (id port : NameId) (source : Terminal) :
    t.network.driver? id port = some source ↔
      ∃ c, t.get? id = some c ∧ c.inputs[port]? = some (some source) := by
  simp only [h.driver?_network, Option.bind_eq_some_iff, Option.join_eq_some_iff]

/-- A table is ready when the network that is stored has all drivers that it tells of. -/
theorem Sound.ready (h : t.Sound) (hinputs : t.ports.inputs.length = maxInputs)
    (hdriven : ∀ id port source, t.network.driver? id port = some source →
      (t.network.output? source).isSome) : t.Ready where
  toSound := h
  gateInputs := hinputs
  driven c hc port source hdriver := by
    have hfound : t.get? c.id = some c := h.get?_eq_some_iff.mpr ⟨hc, rfl⟩
    rw [← h.output?_network]
    exact hdriven c.id port source
      ((h.driver?_eq_some_iff c.id port source).mpr ⟨c, hfound, hdriver⟩)

/-- A table stays ready while the wiring stays the same. -/
theorem Ready.of_sameWiring (h : t.Ready) (hk : k.Sound)
    (hwiring : Network.SameWiring t.network k.network) : k.Ready := by
  have hports : t.ports = k.ports := hwiring.ports
  refine hk.ready (hports ▸ h.gateInputs) fun id port source hdriver ↦ ?_
  have hbefore := Network.SameWiring.driver? (Network.Alike.symm hwiring) hdriver
  obtain ⟨c, hc, hsource⟩ := (h.driver?_eq_some_iff id port source).mp hbefore
  refine hwiring.isSome_output? ?_
  rw [h.output?_network]
  exact h.driven c (h.get?_eq_some_iff.mp hc).1 port source hsource

/-- A driver is there, and without one the level is low. -/
theorem Ready.drivenLevel_eq (h : t.Ready) (hc : c ∈ t.cells) {driver : Option Terminal}
    (hdriver : c.inputs[port]? = some driver) :
    t.drivenLevel driver = (pure (t.network.drivenLevel driver) : m Level) := by
  cases driver with
  | none => rfl
  | some source =>
    obtain ⟨level, hlevel⟩ := Option.isSome_iff_exists.mp (h.driven c hc port source hdriver)
    have houtput := (h.output?_network source).trans hlevel
    rw [drivenLevel, h.signal?_eq, pure_bind, houtput, provided_some, Network.drivenLevel,
      Option.bind_some, houtput, Option.getD_some]

theorem Ready.inputLevelAt_eq (h : t.Ready) (hc : t.cells[pos]? = some c)
    (hport : port ∈ c.inputs) : t.inputLevelAt pos port =
      (pure (t.network.inputLevel (c.device t.ports) port) : m Level) := by
  obtain ⟨driver, hdriver⟩ :=
    Option.isSome_iff_exists.mp (Std.TreeMap.mem_iff_isSome_getElem?.mp hport)
  rw [inputLevelAt, cellAt_eq hc, pure_bind, hdriver, provided_some, pure_bind,
    h.drivenLevel_eq (Array.mem_of_getElem? hc) hdriver, Network.inputLevel_eq,
    Cell.driver?_device, hdriver]
  rfl

/-- An input has a level where it is there. -/
theorem Ready.input?_eq (h : t.Ready) (id port : NameId) :
    t.input? id port = (pure (t.network.input? id port) : m (Option Level)) := by
  rw [input?, h.find_eq, pure_bind, Network.input?, h.device?_network]
  cases hc : t.get? id with
  | none => rfl
  | some c =>
    simp only [Option.bind_some, Option.map_some, Cell.pin?_device, Option.map_map]
    cases hdriver : c.inputs[port]? with
    | none => rfl
    | some driver =>
      dsimp only
      rw [h.drivenLevel_eq (h.get?_eq_some_iff.mp hc).1 hdriver, pure_bind]
      rfl

theorem Ready.gateOutputAt_eq (h : t.Ready) (hc : t.cells[pos]? = some c) : t.gateOutputAt pos =
    (pure (c.kind.evaluate? (t.network.pinLevels (c.device t.ports))) : m (Option Level)) := by
  have hlevels : c.inputs.toList.mapM (fun input ↦ t.drivenLevel input.2) =
      (pure (c.inputs.toList.map fun input ↦ t.network.drivenLevel input.2) : m (List Level)) :=
    mapM_eq_pure fun _ hinput ↦ h.drivenLevel_eq (Array.mem_of_getElem? hc)
      (Std.TreeMap.mem_toList_iff_getElem?_eq_some.mp hinput)
  rw [gateOutputAt, cellAt_eq hc, pure_bind, hlevels, pure_bind, Network.pinLevels, Cell.device,
    List.map_map]
  rfl

/-- A flip-flop has its inputs. -/
theorem Sound.mem_inputs (h : t.Sound) (hc : t.cells[pos]? = some c) (hkind : c.kind = .flipFlop)
    (hport : port ∈ [t.ports.clk, t.ports.data, t.ports.set, t.ports.clear]) : port ∈ c.inputs := by
  obtain ⟨list, hmay, hlist⟩ := (h.cell hc).inputs
  rw [hkind] at hmay
  exact (hlist port).mpr (hmay ▸ hport)

theorem Ready.nextLevelAt_eq (h : t.Ready) (hc : t.cells[pos]? = some c)
    (hkind : c.kind = .flipFlop) :
    t.nextLevelAt pos = (pure (t.network.nextLevel (c.device t.ports)) : m Level) := by
  have hports : ∀ port ∈ [t.ports.clk, t.ports.data, t.ports.set, t.ports.clear],
      port ∈ c.inputs := fun _ ↦ h.mem_inputs hc hkind
  rw [nextLevelAt, h.inputLevelAt_eq hc (hports _ (by simp)), pure_bind,
    h.inputLevelAt_eq hc (hports _ (by simp)), pure_bind,
    h.inputLevelAt_eq hc (hports _ (by simp)), pure_bind]
  rfl

/-! ### One device replaced -/

theorem getElem?_modifyAt (t : Table) (pos other : Nat) (f : Cell → Cell) :
    (t.modifyAt pos f).cells[other]? =
      if pos = other then t.cells[other]?.map f else t.cells[other]? :=
  Array.getElem?_modify

theorem Sound.modifyAt (h : t.Sound) (hc : t.cells[pos]? = some c) (hid : (f c).id = c.id)
    (hf : (f c).Sound t.ports) : (t.modifyAt pos f).Sound where
  placed id other := by
    refine (h.placed id other).trans ?_
    rw [getElem?_modifyAt]
    split
    · next heq =>
      subst heq
      simp [hc, hid]
    · rfl
  ports := h.ports
  cells d hd := by
    obtain ⟨other, hother⟩ := Array.mem_iff_getElem?.mp hd
    rw [getElem?_modifyAt] at hother
    split at hother
    · next heq =>
      subst heq
      rw [hc, Option.map_some, Option.some_inj] at hother
      exact hother ▸ hf
    · exact h.cell hother

/-- To replace the device at a place is to update the network at the name of the device. -/
theorem Sound.network_modifyAt (h : t.Sound) (hc : t.cells[pos]? = some c)
    (hf : (f c).device t.ports = g (c.device t.ports)) :
    (t.modifyAt pos f).network = t.network.update c.id g := by
  have hdevices : ((t.modifyAt pos f).cells.toList.map (Cell.device t.ports)) =
      (t.cells.toList.map (Cell.device t.ports)).map
        fun d ↦ if d.id = c.id then g d else d := by
    refine List.ext_getElem? fun other ↦ ?_
    simp only [List.getElem?_map, Array.getElem?_toList, getElem?_modifyAt]
    split
    · next heq =>
      subst heq
      have hself : (c.device t.ports).id = c.id := rfl
      rw [hc, Option.map_some, Option.map_some, Option.map_some, Option.map_some, hf, if_pos hself]
    · next hne =>
      cases hother : t.cells[other]? with
      | none => rfl
      | some d =>
        have hid : (d.device t.ports).id ≠ c.id := by
          intro hid
          have hpos := (h.placed d.id pos).mpr ⟨c, hc, Eq.symm hid⟩
          have hother := (h.placed d.id other).mpr ⟨d, hother, rfl⟩
          exact hne (Option.some.inj (hpos.symm.trans hother))
        rw [Option.map_some, Option.map_some, if_neg hid]
  rw [Network.update, Network.mapDevices, network, network, Network.mk.injEq]
  exact ⟨rfl, hdevices, rfl⟩

/-- The device of a name stands at some place, and is replaced there. -/
theorem Sound.exists_place (h : t.Sound) (hc : t.get? id = some c) :
    ∃ pos, t.cells[pos]? = some c ∧ c.id = id ∧ ∀ f, t.modify id f = t.modifyAt pos f := by
  obtain ⟨pos, hpos, hcell⟩ := Option.bind_eq_some_iff.mp hc
  refine ⟨pos, hcell, (h.get?_eq_some_iff.mp hc).2, fun f ↦ ?_⟩
  rw [modify, hpos, Option.elim_some]

/-! ### All devices replaced -/

theorem Sound.mapCells (h : t.Sound) (hid : ∀ c, (f c).id = c.id)
    (hf : ∀ c ∈ t.cells, (f c).Sound t.ports) : (t.mapCells f).Sound where
  placed id pos := by
    refine (h.placed id pos).trans ?_
    rw [Table.mapCells, Array.getElem?_map]
    cases t.cells[pos]? with
    | none => simp
    | some c => simp [hid]
  ports := h.ports
  cells d hd := by
    obtain ⟨c, hc, rfl⟩ := Array.mem_map.mp hd
    exact hf c hc

theorem network_mapCells
    (hf : ∀ c ∈ t.cells, (f c).device t.ports = g (c.device t.ports)) :
    (t.mapCells f).network = t.network.mapDevices g := by
  have hdevices : (t.mapCells f).cells.toList.map (Cell.device t.ports) =
      (t.cells.toList.map (Cell.device t.ports)).map g := by
    rw [mapCells, Array.toList_map, List.map_map, List.map_map]
    exact List.map_congr_left fun c hc ↦ hf c (Array.mem_toList_iff.mp hc)
  rw [Network.mapDevices, network, network, Network.mk.injEq]
  exact ⟨rfl, hdevices, rfl⟩

end Table

end Breadboard
