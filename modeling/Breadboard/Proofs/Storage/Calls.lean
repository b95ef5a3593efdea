import Breadboard.Proofs.Storage.Running

/-!
# Calls

Whatever is asked of a table, with whatever names, and whether it is carried out, refused or
abandoned half-way: names and places go together, every device has the ports of its kind and nothing
else, what is stored twice agrees, and no count overflows. Every call does to the table what its
request does to the network that is stored, so the table stores the network that the requests make
of an empty one, and a connected input is driven by an output that is there and keeps its driver
(`calls_orderly`).
-/

set_option autoImplicit false
set_option relaxedAutoImplicit false

namespace Breadboard

namespace Table

variable {m : Type → Type} [Fallback m] {t : Table} {c : Cell} {id : NameId} {f : Cell → Cell}
  {g : Device → Device} {result : Bool × Table} {expected : Option Network}

/-! ### Declarations -/

/-- An operation says whether the network allows what is asked, and leaves the table sound, with
what the network makes of it or as it was. -/
structure Answers (t : Table) (expected : Option Network) (result : Bool × Table) : Prop where
  answer : result.1 = expected.isSome
  sound : result.2.Sound
  network : result.2.network = expected.getD t.network

theorem Sound.refuses (h : t.Sound) :
    WithoutLapse (pure (false, t) : m (Bool × Table)) (t.Answers none) :=
  .pure ⟨rfl, h, rfl⟩

theorem Sound.allows (h : t.Sound) (hc : t.get? id = some c) (hid : (f c).id = c.id)
    (hf : (f c).Sound t.ports) (hg : (f c).device t.ports = g (c.device t.ports)) :
    WithoutLapse (pure (true, t.modify id f) : m (Bool × Table))
      (t.Answers (some (t.network.update id g))) := by
  obtain ⟨pos, hpos, rfl, hmodify⟩ := h.exists_place hc
  rw [hmodify]
  exact .pure ⟨rfl, h.modifyAt hpos hid hf, h.network_modifyAt hpos hg⟩

theorem Sound.cell_of_get? (h : t.Sound) (hc : t.get? id = some c) : c.Sound t.ports :=
  h.cells c (h.get?_eq_some_iff.mp hc).1

theorem Sound.contains_network (h : t.Sound) (id : NameId) :
    t.network.contains id = t.index.contains id := by
  rw [Network.contains, h.device?_network, Option.isSome_map, get?,
    Std.HashMap.contains_eq_isSome_getElem?]
  cases hpos : t.index[id]? with
  | none => rfl
  | some pos =>
    obtain ⟨c, hc, -⟩ := (h.placed id pos).mp hpos
    rw [Option.bind_some, hc]
    rfl

/-- A new device stands behind the others. -/
theorem Sound.push (h : t.Sound) (hid : t.index[c.id]? = none) (hc : c.Sound t.ports) :
    ({ t with
      index := t.index.insert c.id t.cells.size
      cells := t.cells.push c } : Table).Sound where
  placed id pos := by
    have hbefore := h.placed id pos
    simp only [Std.HashMap.getElem?_insert, Array.getElem?_push, beq_iff_eq]
    by_cases hnew : c.id = id
    · subst hnew
      rw [if_pos rfl, Option.some_inj]
      refine ⟨fun hpos ↦ ⟨c, by rw [if_pos hpos.symm], rfl⟩, fun ⟨d, hd, hsame⟩ ↦ ?_⟩
      by_contra hpos
      rw [if_neg (Ne.symm hpos)] at hd
      exact absurd (hid.symm.trans (hbefore.mpr ⟨d, hd, hsame⟩)) nofun
    · rw [if_neg hnew]
      refine hbefore.trans (exists_congr fun d ↦ ?_)
      by_cases hpos : pos = t.cells.size
      · rw [if_pos hpos, hpos, Array.getElem?_size, Option.some_inj]
        exact iff_of_false (fun h ↦ absurd h.1 nofun) fun h ↦ hnew (h.1 ▸ h.2)
      · rw [if_neg hpos]
  ports := h.ports
  cells d hd := by
    rcases Array.mem_push.mp hd with hd | rfl
    · exact h.cells d hd
    · exact hc

/-- There are as many gate inputs as are asked for. -/
theorem Ready.firstPorts_eq (h : t.Ready) {count : Nat} (hcount : count ≤ maxInputs) :
    firstPorts t.ports count = (pure (t.ports.inputs.take count) : m (List NameId)) :=
  if_pos (List.length_take_of_le (h.gateInputs.symm ▸ hcount))

theorem Ready.firstInputs_eq (h : t.Ready) (kind : Kind) :
    firstInputs t.ports kind = (pure (Device.firstInputs t.ports kind) : m (List NameId)) := by
  cases kind with
  | gate g =>
    refine h.firstPorts_eq ?_
    cases g <;> decide
  | _ => rfl

theorem Ready.makeDevice (h : t.Ready) (id : NameId) (kind : Kind) :
    WithoutLapse (t.makeDevice id kind : m (Bool × Table))
      (t.Answers (t.network.addDevice? id kind)) := by
  rw [Table.makeDevice, Network.addDevice?, h.contains_network]
  split
  · exact h.refuses
  · next hfresh =>
    have hnone : t.index[id]? = none := by
      rwa [Std.HashMap.contains_eq_isSome_getElem?, Option.not_isSome_iff_eq_none] at hfresh
    have hid := Cell.id_make t.ports (Device.firstInputs t.ports kind) id kind
    have hpush := h.push (c := Cell.make t.ports (Device.firstInputs t.ports kind) id kind)
      (hid.symm ▸ hnone) (Cell.sound_make h.ports id kind)
    rw [hid] at hpush
    rw [h.firstInputs_eq, pure_bind]
    refine .pure ⟨rfl, hpush, ?_⟩
    simp only [network, Array.toList_push, List.map_append, List.map_cons, List.map_nil,
      Cell.device_make h.ports, Option.getD_some]

theorem Ready.addInputs (h : t.Ready) (id : NameId) (count : Nat) :
    WithoutLapse (t.addInputs id count : m (Bool × Table))
      (t.Answers (t.network.addInputs? id count)) := by
  rw [Table.addInputs, Network.addInputs?, h.device?_network]
  split
  · next hcount =>
    have hnone : ((t.get? id).map (Cell.device t.ports)).bind (fun d ↦
        if d.kind.hasVariableInputs ∧ d.pins = [] ∧ 1 ≤ count ∧ count ≤ maxInputs then
          some (t.network.update id fun d ↦
            { d with pins := openPins (t.network.ports.inputs.take count) })
        else none) = none := by
      refine Option.bind_eq_none_iff.mpr fun d _ ↦ if_neg fun hallowed ↦ ?_
      omega
    rw [hnone]
    exact h.refuses
  · next hcount =>
    have hrange : 1 ≤ count ∧ count ≤ maxInputs := by omega
    rw [h.firstPorts_eq hrange.2, pure_bind, h.find_eq, pure_bind]
    cases hc : t.get? id with
    | none => exact h.refuses
    | some c =>
      simp only [Option.map_some, Option.bind_some, Cell.kind_device, Cell.pins_device_eq_nil_iff,
        hrange, and_true]
      split
      · next hempty =>
        exact h.allows hc rfl
          ((h.cell_of_get? hc).addInputs hempty.1 hempty.2 hrange.1 hrange.2)
          (Cell.device_addInputs t.ports hempty.2 (Ports.nodup_take h.ports count))
      · exact h.refuses

theorem Sound.setSwitch (h : t.Sound) (id : NameId) (level : Level) :
    WithoutLapse (t.setSwitch id level : m (Bool × Table))
      (t.Answers (t.network.setSwitch? id level)) := by
  rw [Table.setSwitch, h.find_eq, pure_bind, Network.setSwitch?, h.device?_network]
  cases hc : t.get? id with
  | none => exact h.refuses
  | some c =>
    rw [Option.map_some, Option.bind_some]
    dsimp only
    split
    · next hkind =>
      rw [Cell.device, Cell.element_of_switch t.ports hkind]
      exact h.allows hc rfl ((h.cell_of_get? hc).setSwitch hkind level)
        (Cell.device_setSwitch hkind level)
    · next hkind =>
      split
      · next helement => exact absurd (Cell.kind_of_element helement) hkind
      · exact h.refuses

theorem Sound.setHalfPeriod (h : t.Sound) (id : NameId) (cycles : UInt32) :
    WithoutLapse (t.setHalfPeriod id cycles : m (Bool × Table))
      (t.Answers (t.network.setHalfPeriod? id cycles.toNat)) := by
  have hzero : cycles.toNat = 0 ↔ cycles = 0 := by
    rw [← UInt32.toNat_zero, UInt32.toNat_inj]
  simp only [Table.setHalfPeriod, Network.setHalfPeriod?, h.device?_network, hzero]
  split
  · exact h.refuses
  · next hcycles =>
    rw [h.find_eq, pure_bind]
    cases hc : t.get? id with
    | none => exact h.refuses
    | some c =>
      rw [Option.map_some, Option.bind_some]
      dsimp only
      split
      · next hkind =>
        rw [Cell.device, Cell.element_of_clock t.ports hkind]
        exact h.allows hc rfl ((h.cell_of_get? hc).setHalfPeriod hcycles)
          (Cell.device_setHalfPeriod hkind cycles)
      · next hkind =>
        split
        · next helement => exact absurd (Cell.kind_of_element helement) hkind
        · exact h.refuses

/-! ### Connections -/

section Connections

variable {source : Terminal} {target input : NameId} {src dst : Cell}

/-- What stands in the way of a connection between devices that are stored. -/
theorem Sound.connectionError?_of_cells (h : t.Sound) (hsrc : t.get? source.device = some src)
    (hdst : t.get? target = some dst) (input : NameId) :
    t.network.connectionError? source target input =
      if source.port.any fun port ↦ src.inputs.contains port then some .inputToInput
      else
        match dst.inputs[input]? with
        | none => some .notAnInput
        | some driver =>
          if !src.outputs.contains source.port then some .notAnOutput
          else if driver.isSome then some .inputConnected
          else none := by
  have hport (port : NameId) : ((src.device t.ports).pin? port).isSome =
      src.inputs.contains port := by
    rw [Cell.pin?_device, Option.isSome_map, Std.TreeMap.contains_eq_isSome_getElem?]
  have houtput : ((src.device t.ports).output? t.network.ports source.port).isNone =
      !src.outputs.contains source.port := by
    rw [Std.TreeMap.contains_eq_isSome_getElem?, Option.not_isSome,
      ← (h.cell_of_get? hsrc).output?_device h.ports source.port]
    rfl
  rw [Network.connectionError?, h.device?_network, h.device?_network, hsrc, hdst]
  simp only [Option.map_some, hport, houtput]
  rw [Cell.pin?_device]
  cases dst.inputs[input]? <;> rfl

/-- A missing input is reported before a missing output. -/
theorem Sound.reported_eq (h : t.Sound) (hdst : t.get? target = some dst) (input : NameId)
    {error : ConnectionError} (herror : error = .notAnInput ∨ error = .notAnOutput) :
    t.reported target input error =
      (pure (if dst.inputs[input]?.isSome then .notAnOutput else .notAnInput) : m _) := by
  rw [← Std.TreeMap.contains_eq_isSome_getElem?]
  rcases herror with rfl | rfl
  all_goals
    rw [reported, h.find_eq, hdst, pure_bind]
    rfl

/-- A connection is made in storage when it is made in the network. Where it is refused for more
than one reason the two may name different ones, but what storage reports is what the network
names. -/
theorem Sound.connect (h : t.Sound) (source : Terminal) (target input : NameId) :
    WithoutLapse (t.connect source target input : m (Except ConnectionError Table))
      (SameOutcome (fun k n ↦ k.Sound ∧ k.network = n)
        (fun error refusal ↦ t.reported target input error = (pure refusal : m ConnectionError)) ·
        (t.network.connect source target input)) := by
  rw [Table.connect, h.find_eq, pure_bind, h.find_eq, pure_bind, Network.connect]
  cases hsrc : t.get? source.device with
  | none =>
    rw [Network.connectionError?, h.device?_network, hsrc]
    exact .pure (.error rfl)
  | some src =>
    cases hdst : t.get? target with
    | none =>
      rw [Network.connectionError?, h.device?_network, h.device?_network, hsrc, hdst]
      exact .pure (.error rfl)
    | some dst =>
      rw [h.connectionError?_of_cells hsrc hdst]
      dsimp only
      split
      · exact .pure (.error rfl)
      · split
        · have hreports := h.reported_eq (m := m) hdst input (.inr rfl)
          cases hdriver : dst.inputs[input]? with
          | none | some driver =>
            rw [hdriver] at hreports
            exact .pure (.error hreports)
        · cases hdriver : dst.inputs[input]? with
          | none =>
            have hreports := h.reported_eq (m := m) hdst input (.inl rfl)
            rw [hdriver] at hreports
            exact .pure (.error hreports)
          | some driver =>
            cases driver with
            | some other => exact .pure (.error rfl)
            | none =>
              have hport : input ∈ dst.inputs := by
                rw [Std.TreeMap.mem_iff_isSome_getElem?, hdriver]
                rfl
              obtain ⟨pos, hpos, rfl, hmodify⟩ := h.exists_place hdst
              refine .pure (.ok ?_)
              rw [hmodify]
              exact ⟨h.modifyAt hpos rfl ((h.cell_of_get? hdst).drive hport source),
                h.network_modifyAt hpos (Cell.device_drive t.ports hport source)⟩

end Connections

/-! ### Tables in use -/

/-- A table that stores what requests have made of an empty network. -/
structure InUse (t : Table) : Prop extends Sound t where
  reachable : t.network.Reachable

/-- All ports are named, so there are as many of them as port names. -/
theorem length_inputs_intern (names : Names) :
    (Ports.intern names).1.inputs.length = maxInputs := by
  have hlength := congrArg List.length (Ports.map_string?_all names)
  generalize Ports.intern names = interned at hlength ⊢
  simpa [Ports.all, Ports.allNames] using hlength

theorem InUse.ready (h : t.InUse) : t.Ready := by
  refine h.toSound.ready ?_ fun _ _ _ ↦ h.reachable.isSome_output?_of_driver?
  obtain ⟨names, settings, requests, hnetwork⟩ := h.reachable
  have hports := Network.ports_foldl_perform (Network.wellFormed_empty names settings) requests
  rw [hnetwork, Network.ports_empty] at hports
  rw [show t.ports = _ from hports]
  exact length_inputs_intern names

theorem inUse_empty (names : Names) (settings : Settings) : (empty names settings).InUse where
  toSound := sound_empty names settings
  reachable := ⟨names, settings, [], (network_empty names settings).symm⟩

/-! ### Whatever is called -/

/-- What a call has done to a table: it is sound, and stores what the request makes of the network
that was stored. -/
structure Performed (t : Table) (call : Call) (k : Table) : Prop extends Sound k where
  network : k.network = t.network.perform call.request

theorem Answers.performed {call : Call} (h : t.Answers expected result)
    (hexpected : expected.getD t.network = t.network.perform call.request) :
    t.Performed call result.2 :=
  ⟨h.sound, h.network.trans hexpected⟩

theorem Stores.performed {call : Call} {k : Table}
    (h : k.Stores (t.network.perform call.request)) : t.Performed call k :=
  ⟨h.toSound, h.network⟩

/-- A call does to the table what its request does to the network that is stored. -/
theorem Ready.perform (h : t.Ready) (call : Call) :
    WithoutLapse (t.perform call : m Table) (t.Performed call) := by
  cases call with
  | makeDevice id kind =>
    exact (h.makeDevice id kind).bind fun _ hanswers ↦ .pure (hanswers.performed rfl)
  | addInputs id count =>
    exact (h.addInputs id count).bind fun _ hanswers ↦ .pure (hanswers.performed rfl)
  | setSwitch id level =>
    exact (h.setSwitch id level).bind fun _ hanswers ↦ .pure (hanswers.performed rfl)
  | setHalfPeriod id cycles =>
    exact (h.setHalfPeriod id cycles).bind fun _ hanswers ↦ .pure (hanswers.performed rfl)
  | connect source target input =>
    refine (h.connect source target input).bind fun result hsame ↦ .pure ?_
    have hrequest : t.network.perform (Call.connect source target input).request =
        (t.network.connect source target input).toOption.getD t.network := rfl
    generalize t.network.connect source target input = expected at hsame hrequest
    cases hsame with
    | ok hk => exact ⟨hk.1, hk.2.trans hrequest.symm⟩
    | error => exact ⟨h.toSound, hrequest.symm⟩
  | cycle =>
    exact WithoutLapse.bind h.cycle fun _ hsame ↦
      .pure (Stores.performed (SameOutcome.stores_final hsame))
  | powerOn => exact h.powerOn.imp fun _ hstores ↦ hstores.performed
  | clearDevices => exact .pure h.clearDevices.performed
  | reset => exact h.reset.imp fun _ hstores ↦ hstores.performed

theorem InUse.of_performed (h : t.InUse) {call : Call} {k : Table} (hk : t.Performed call k) :
    k.InUse where
  toSound := hk.toSound
  reachable := hk.network ▸ h.reachable.perform _

/-- Calls keep a table in use, and do to it what their requests do to the network that is stored. -/
theorem InUse.foldlM_perform (h : t.InUse) (calls : List Call) :
    WithoutLapse (calls.foldlM perform t : m Table) fun k ↦
      k.InUse ∧ k.network = (calls.map Call.request).foldl Network.perform t.network := by
  induction calls generalizing t with
  | nil => exact .pure ⟨h, rfl⟩
  | cons call rest ih =>
    rw [List.foldlM_cons, List.map_cons, List.foldl_cons]
    refine (h.ready.perform call).bind fun next hnext ↦ ?_
    rw [← hnext.network]
    exact ih (h.of_performed hnext)

/-- A table in good order. -/
structure Orderly (t : Table) : Prop extends Sound t where
  /-- No two devices have the same name. -/
  distinct : (t.cells.toList.map Cell.id).Nodup
  /-- A name finds the device that has it. -/
  found : ∀ id (c : Cell), t.get? id = some c ↔ c ∈ t.cells ∧ c.id = id
  /-- A connected input is driven by an output that is there. -/
  driven : ∀ c ∈ t.cells, ∀ (port : NameId) (source : Terminal),
    c.inputs[port]? = some (some source) → (t.output? source).isSome
  /-- When the clocks tick, no count overflows. -/
  ticking : ∀ start, Id.run t.settle.run = .ok start → ∀ c ∈ start.cells,
    (c.counter + 1).toNat = c.counter.toNat + 1

/-- A table in use is in good order. -/
theorem InUse.orderly (h : t.InUse) : t.Orderly where
  toSound := h.toSound
  distinct := h.nodup_ids
  found _ _ := h.get?_eq_some_iff
  driven := h.ready.driven
  ticking start hstart c hc := by
    obtain ⟨result, hrun, hsame⟩ := h.ready.settle (m := Id)
    rw [hrun] at hstart
    obtain rfl : result = .ok start := hstart
    have hstores := SameOutcome.stores_final hsame
    exact (hstores.cells c hc).toNat_counter_add_one

/-- Whatever is called, the table that has been made from an empty one is in good order, over ports
of the names that are meant, and stores the network that the requests make of an empty one. Inputs
keep their drivers. -/
theorem calls_orderly (names : Names) (settings : Settings) (calls : List Call) :
    let t := Id.run (calls.foldlM perform (empty names settings))
    t.Orderly ∧ t.ports.all.map (Ports.intern names).2.string? = Ports.allNames.map some ∧
      t.network =
        (calls.map Call.request).foldl Network.perform (Network.empty names settings) ∧
      ∀ (more : List Call) (id port : NameId) (source : Terminal) (c : Cell), t.get? id = some c →
        c.inputs[port]? = some (some source) →
          ∃ later : Cell, (Id.run (more.foldlM perform t)).get? id = some later ∧
            later.inputs[port]? = some (some source) := by
  intro t
  obtain ⟨hinUse, hnetwork⟩ : t.InUse ∧ t.network =
      (calls.map Call.request).foldl Network.perform (Network.empty names settings) := by
    obtain ⟨last, hrun, hlast⟩ := (inUse_empty names settings).foldlM_perform (m := Id) calls
    rw [network_empty] at hlast
    obtain rfl : t = last := hrun
    exact hlast
  have hports : t.ports = (Ports.intern names).1 := by
    have hsame := Network.ports_foldl_perform (Network.wellFormed_empty names settings)
      (calls.map Call.request)
    rw [← hnetwork, Network.ports_empty] at hsame
    exact hsame
  refine ⟨hinUse.orderly, ?_, hnetwork, fun more id port source c hc hdriver ↦ ?_⟩
  · rw [hports]
    exact Ports.map_string?_all names
  · obtain ⟨last, hrun, hlater, hrequests⟩ := hinUse.foldlM_perform (m := Id) more
    rw [show Id.run (more.foldlM perform t) = last from hrun]
    refine (hlater.driver?_eq_some_iff id port source).mp ?_
    rw [hrequests]
    exact Network.driver?_foldl_perform hinUse.reachable.wellFormed _
      ((hinUse.driver?_eq_some_iff id port source).mpr ⟨c, hc, hdriver⟩)

end Table

end Breadboard
