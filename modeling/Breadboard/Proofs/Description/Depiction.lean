import Breadboard.Monitors
import Breadboard.Proofs.Description.Coherence
import Breadboard.Proofs.Names.Growth
import Breadboard.Proofs.Network.Drivers
import Mathlib.Data.List.Forall2
import Mathlib.Data.Option.Basic

/-!
# Networks and their schematics

A schematic depicts a network under a name table when its parts are the devices, in order and by
name, with the same inputs and the same outputs drawn to them, and when the outputs to watch are the
monitors, of which nothing is recorded (`Depicts`). Then whatever is looked up by number in the
network is found by name in the schematic (`Depicts.device?`, `Depicts.hasOutput_iff`).
-/

set_option autoImplicit false
set_option relaxedAutoImplicit false

namespace Breadboard.Description

/-! ### Names for what stands in a network -/

section Naming

variable {names more : Names} {pin : Pin} {inlet : Inlet} {d : Device} {part : Part}

/-- An output and its name. -/
structure Calls (names : Names) (t : Terminal) (output : OutputName) : Prop where
  device : names.string? t.device = some output.device
  port : t.port.map names.string? = output.port.map some

/-- A pin and the input that it is. -/
structure PinShown (names : Names) (pin : Pin) (inlet : Inlet) : Prop where
  port : names.string? pin.port = some inlet.port
  driver : Option.Rel (Calls names) pin.driver inlet.driver

/-- A device and the part that it is. -/
structure PartShown (names : Names) (d : Device) (part : Part) : Prop where
  name : names.string? d.id = some part.name
  element : d.element = part.component.element
  inlets : List.Forall₂ (PinShown names) d.pins part.inlets

/-- A watched output of which nothing is recorded, and its name. -/
structure ProbeShown (names : Names) (probe : Probe) (output : OutputName) : Prop where
  history : probe.history = #[]
  output : Calls names probe.output output

theorem Calls.grow {t : Terminal} {output : OutputName} (h : Calls names t output)
    (hmore : names.Extends more) : Calls more t output := by
  obtain ⟨hdevice, hport⟩ := h
  refine ⟨hmore.string? hdevice, ?_⟩
  cases ht : t.port with
  | none => rwa [ht] at hport
  | some port =>
    cases ho : output.port with
    | none => simp [ht, ho] at hport
    | some name =>
      rw [ht, ho, Option.map_some, Option.map_some, Option.some_inj] at hport
      rw [Option.map_some, Option.map_some, hmore.string? hport]

theorem PinShown.grow (h : PinShown names pin inlet) (hmore : names.Extends more) :
    PinShown more pin inlet := by
  refine ⟨hmore.string? h.port, ?_⟩
  have hdriver := h.driver
  generalize pin.driver = driver at hdriver ⊢
  generalize inlet.driver = output at hdriver ⊢
  cases hdriver with
  | none => exact .none
  | some hcalls => exact .some (hcalls.grow hmore)

theorem Calls.exists_port {t : Terminal} {output : OutputName} (h : Calls names t output)
    {port : NameId} (hport : t.port = some port) :
    ∃ name, output.port = some name ∧ names.string? port = some name := by
  have hsame := h.port
  rw [hport, Option.map_some] at hsame
  obtain ⟨name, hname, heq⟩ := Option.map_eq_some_iff.mp hsame.symm
  exact ⟨name, hname, heq.symm⟩

theorem PartShown.grow (h : PartShown names d part) (hmore : names.Extends more) :
    PartShown more d part :=
  ⟨hmore.string? h.name, h.element, h.inlets.imp fun _ _ hpin ↦ hpin.grow hmore⟩

theorem Calls.unique {t : Terminal} {first second : OutputName} (h : Calls names t first)
    (h' : Calls names t second) : first = second := by
  have hdevice := Option.some_inj.mp (h.device.symm.trans h'.device)
  have hport := Option.map_injective (Option.some_injective String) (h.port.symm.trans h'.port)
  cases first
  cases second
  exact OutputName.mk.injEq .. ▸ ⟨hdevice, hport⟩

/-- In a faithful table an output goes by one name only. -/
theorem Calls.terminal_unique (hf : names.Faithful) {t t' : Terminal} {output : OutputName}
    (h : Calls names t output) (h' : Calls names t' output) : t = t' := by
  obtain ⟨id, port⟩ := t
  obtain ⟨id', port'⟩ := t'
  obtain rfl : id = id' := hf _ _ _ h.device h'.device
  have hport := h.port.trans h'.port.symm
  cases port <;> cases port' <;> simp at hport
  · rfl
  · next first second =>
    have hname := h.port
    cases ho : output.port with
    | none => simp [ho] at hname
    | some name =>
      simp only [ho, Option.map_some, Option.some_inj] at hname
      rw [hf first second name hname (hport ▸ hname)]

/-- In a faithful table an input is one pin only. -/
theorem PinShown.unique (hf : names.Faithful) {pin' : Pin} (h : PinShown names pin inlet)
    (h' : PinShown names pin' inlet) : pin = pin' := by
  have hport := hf _ _ _ h.port h'.port
  have hdriver := h.driver
  have hdriver' := h'.driver
  cases pin with | mk port driver
  cases pin' with | mk port' driver'
  dsimp only at hport hdriver hdriver'
  subst hport
  generalize inlet.driver = output at hdriver hdriver'
  cases hdriver with
  | none =>
    cases hdriver'
    rfl
  | some hcalls =>
    cases hdriver' with | some hcalls' => rw [hcalls.terminal_unique hf hcalls']

/-- In a faithful table a part is one device only. -/
theorem PartShown.unique (hf : names.Faithful) {d' : Device} (h : PartShown names d part)
    (h' : PartShown names d' part) : d = d' := by
  have hpins : d.pins = d'.pins :=
    List.left_unique_forall₂' (fun _ _ _ hpin hpin' ↦ hpin.unique hf hpin') h.inlets h'.inlets
  have hid := hf _ _ _ h.name h'.name
  have helement := h.element.trans h'.element.symm
  cases d
  cases d'
  exact Device.mk.injEq .. ▸ ⟨hid, helement, hpins⟩

theorem ProbeShown.unique (hf : names.Faithful) {probe probe' : Probe} {output : OutputName}
    (h : ProbeShown names probe output) (h' : ProbeShown names probe' output) : probe = probe' := by
  have houtput := h.output.terminal_unique hf h'.output
  have hhistory := h.history.trans h'.history.symm
  cases probe
  cases probe'
  exact Probe.mk.injEq .. ▸ ⟨houtput, hhistory⟩

theorem Component.element_injective {c c' : Component} (h : c.element = c'.element) : c = c' := by
  cases c <;> cases c' <;> simp_all [Component.element]

@[simp]
theorem Component.kind_element (c : Component) : c.element.kind = c.kind := by
  cases c <;> rfl

theorem PartShown.kind (h : PartShown names d part) : d.kind = part.component.kind := by
  rw [Device.kind, h.element, Component.kind_element]

theorem PartShown.exists_clock (h : PartShown names d part) (hkind : part.component.kind = .clock) :
    ∃ halfPeriod, d.element = .clock halfPeriod 0 Level.low := by
  rw [h.element]
  cases hcomponent : part.component <;> rw [hcomponent] at hkind <;> cases hkind
  exact ⟨_, rfl⟩

theorem PartShown.exists_switch (h : PartShown names d part)
    (hkind : part.component.kind = .switch) : ∃ level, d.element = .switch level := by
  rw [h.element]
  cases hcomponent : part.component <;> rw [hcomponent] at hkind <;> cases hkind
  exact ⟨_, rfl⟩

end Naming

/-! ### Looking up -/

section Lookup

theorem exists_of_rel_left {α β : Type} {R : α → β → Prop} {a : α} {y : Option β}
    (h : Option.Rel R (some a) y) : ∃ b, y = some b ∧ R a b := by
  cases h with
  | some hab => exact ⟨_, rfl, hab⟩

theorem exists_of_rel_right {α β : Type} {R : α → β → Prop} {b : β} {x : Option α}
    (h : Option.Rel R x (some b)) : ∃ a, x = some a ∧ R a b := by
  cases h with
  | some hab => exact ⟨_, rfl, hab⟩

variable {names : Names} {id : NameId} {name : String}

/-- An item of a list is related to an item of the other. -/
theorem exists_of_mem_right {α β : Type} {R : α → β → Prop} {xs : List α} {ys : List β} {y : β}
    (h : List.Forall₂ R xs ys) (hy : y ∈ ys) : ∃ x ∈ xs, R x y := by
  induction h with
  | nil => cases hy
  | @cons x y' xs ys hxy _ ih =>
    rcases List.mem_cons.mp hy with rfl | hy
    · exact ⟨x, List.mem_cons_self, hxy⟩
    · obtain ⟨x', hx', hrel⟩ := ih hy
      exact ⟨x', List.mem_cons_of_mem x hx', hrel⟩

/-- What holds of all items of a list holds of all items that they are related to. -/
theorem forall₂_forall_iff {α β : Type} {R : α → β → Prop} {xs : List α} {ys : List β}
    {P : α → Prop} {Q : β → Prop} (h : List.Forall₂ R xs ys) (hPQ : ∀ x y, R x y → (P x ↔ Q y)) :
    (∀ x ∈ xs, P x) ↔ ∀ y ∈ ys, Q y := by
  induction h with
  | nil => simp
  | @cons x y xs ys hxy _ ih => simp only [List.forall_mem_cons, hPQ x y hxy, ih]

/-- Lists that are related item by item are searched with related success, when the tests agree. -/
theorem forall₂_find? {α β : Type} {R : α → β → Prop} {xs : List α} {ys : List β} {p : α → Bool}
    {q : β → Bool} (h : List.Forall₂ R xs ys) (hpq : ∀ x y, R x y → p x = q y) :
    Option.Rel R (xs.find? p) (ys.find? q) := by
  induction h with
  | nil => exact .none
  | @cons x y xs ys hxy _ ih =>
    rw [List.find?_cons, List.find?_cons, hpq x y hxy]
    cases q y with
    | true => exact .some hxy
    | false => exact ih

/-- Where two things go by names of a faithful table, the numbers are equal when the names are. -/
theorem beq_of_names (hf : names.Faithful) (hname : names.string? id = some name) {id' : NameId}
    {name' : String} (hname' : names.string? id' = some name') : (id' == id) = (name' == name) := by
  rw [Bool.eq_iff_iff, beq_iff_eq, beq_iff_eq]
  constructor
  · rintro rfl
    exact Option.some_inj.mp (hname'.symm.trans hname)
  · rintro rfl
    exact hf _ _ _ hname' hname

theorem PartShown.pin? {d : Device} {part : Part} (h : PartShown names d part)
    (hf : names.Faithful) (hname : names.string? id = some name) :
    Option.Rel (PinShown names) (d.pin? id) (part.inlet? name) :=
  forall₂_find? h.inlets fun _ _ hpin ↦ beq_of_names hf hname hpin.port

end Lookup

/-! ### Port names -/

/-- The name table that holds the port names alone, and their numbers in it. -/
abbrev portTable : Ports × Names :=
  Ports.intern {}

theorem string?_portTable (names : Names) (htable : portTable.2.Extends names) :
    names.string? portTable.1.q = some "Q" ∧ names.string? portTable.1.qbar = some "QBAR" :=
  ⟨htable.string? (by decide), htable.string? (by decide)⟩

/-- The inputs that a device has from the start, in ascending order. -/
theorem firstInputs_portTable (kind : Kind) :
    ((Device.firstInputs portTable.1 kind).foldr insertPort []).map portTable.2.string? =
      (firstInputNames kind).map some := by
  cases kind with
  | gate g => cases g <;> decide
  | _ => decide

/-- The inputs that a gate is given, in ascending order. -/
theorem inputs_portTable : ∀ count ≤ maxInputs,
    ((portTable.1.inputs.take count).foldr insertPort []).map portTable.2.string? =
      (inputNames count).map some := by
  decide

theorem pinsShown_open {names : Names} (htable : portTable.2.Extends names) {ports : List NameId}
    {list : List String}
    (h : (ports.foldr insertPort []).map portTable.2.string? = list.map some) :
    List.Forall₂ (PinShown names) (openPins ports) (openInlets list) := by
  rw [openPins, openInlets]
  generalize ports.foldr insertPort [] = ports at h ⊢
  refine List.forall₂_map_left_iff.mpr (List.forall₂_map_right_iff.mpr ?_)
  have hrel : List.Forall₂ (fun port name ↦ portTable.2.string? port = some name) ports list := by
    rw [← List.forall₂_eq_eq_eq] at h
    exact List.forall₂_map_left_iff.mp (List.forall₂_map_right_iff.mp h)
  exact hrel.imp fun _ _ hport ↦ ⟨htable.string? hport, .none⟩

theorem Calls.port_eq_none_iff {names : Names} {t : Terminal} {output : OutputName}
    (h : Calls names t output) : t.port = none ↔ output.port = none := by
  rw [← Option.map_eq_none_iff, h.port, Option.map_eq_none_iff]

theorem Calls.port_eq_some_iff {names : Names} (hf : names.Faithful) {t : Terminal}
    {output : OutputName} (h : Calls names t output) {port : NameId} {name : String}
    (hname : names.string? port = some name) : t.port = some port ↔ output.port = some name := by
  have hport := h.port
  constructor
  · intro ht
    rw [ht, Option.map_some, hname] at hport
    exact Option.map_injective (Option.some_injective String) hport.symm
  · intro ho
    rw [ho] at hport
    obtain ⟨port', hport', hname'⟩ := Option.map_eq_some_iff.mp hport
    rw [hport', hf _ _ _ hname' hname]

theorem PartShown.hasOutput_iff {names : Names} {d : Device} {part : Part}
    (h : PartShown names d part) (hf : names.Faithful) (htable : portTable.2.Extends names)
    {t : Terminal} {output : OutputName} (hcalls : Calls names t output) :
    (d.output? portTable.1 t.port).isSome ↔ part.component.HasOutput output.port := by
  obtain ⟨hq, hqbar⟩ := string?_portTable names htable
  rw [isSome_output?_iff, h.kind]
  cases part.component with
  | flipFlop =>
    exact or_congr (hcalls.port_eq_some_iff hf hq) (hcalls.port_eq_some_iff hf hqbar)
  | _ => exact hcalls.port_eq_none_iff

/-! ### Depictions -/

/-- A schematic as a picture of a network with its monitors. -/
structure Depicts (settings : Settings) (names : Names) (n : Network) (m : Monitors)
    (s : Schematic) : Prop where
  settings : n.settings = settings
  ports : n.ports = portTable.1
  table : portTable.2.Extends names
  distinct : n.DistinctNames
  parts : List.Forall₂ (PartShown names) n.devices s.parts
  watched : List.Forall₂ (ProbeShown names) m.probes s.watched

namespace Depicts

variable {settings : Settings} {names more : Names} {n n' : Network} {m m' : Monitors}
  {s : Schematic} {id : NameId} {name : String} {d : Device}

theorem grow (h : Depicts settings names n m s) (hmore : names.Extends more) :
    Depicts settings more n m s where
  settings := h.settings
  ports := h.ports
  table := h.table.trans hmore
  distinct := h.distinct
  parts := h.parts.imp fun _ _ hpart ↦ hpart.grow hmore
  watched := h.watched.imp fun _ _ hprobe ↦ ⟨hprobe.history, hprobe.output.grow hmore⟩

/-- Under a faithful table a schematic depicts one network, with one set of monitors. -/
theorem unique (hf : names.Faithful) (h : Depicts settings names n m s)
    (h' : Depicts settings names n' m' s) : n = n' ∧ m = m' := by
  have hports := h.ports.trans h'.ports.symm
  have hsettings := h.settings.trans h'.settings.symm
  have hdevices : n.devices = n'.devices :=
    List.left_unique_forall₂' (fun _ _ _ hpart hpart' ↦ hpart.unique hf hpart') h.parts h'.parts
  have hprobes : m.probes = m'.probes :=
    List.left_unique_forall₂' (fun _ _ _ hprobe hprobe' ↦ hprobe.unique hf hprobe')
      h.watched h'.watched
  cases n
  cases n'
  cases m
  cases m'
  exact ⟨Network.mk.injEq .. ▸ ⟨hports, hdevices, hsettings⟩, congrArg Monitors.mk hprobes⟩

theorem device? (h : Depicts settings names n m s) (hf : names.Faithful)
    (hname : names.string? id = some name) :
    Option.Rel (PartShown names) (n.device? id) (s.part? name) :=
  forall₂_find? h.parts fun _ _ hpart ↦ beq_of_names hf hname hpart.name

theorem exists_part (h : Depicts settings names n m s) (hf : names.Faithful)
    (hname : names.string? id = some name) (hd : n.device? id = some d) :
    ∃ part, s.part? name = some part ∧ PartShown names d part :=
  exists_of_rel_left (hd ▸ h.device? hf hname)

theorem exists_device (h : Depicts settings names n m s) (hf : names.Faithful)
    (hname : names.string? id = some name) {part : Part} (hpart : s.part? name = some part) :
    ∃ d, n.device? id = some d ∧ PartShown names d part :=
  exists_of_rel_right (hpart ▸ h.device? hf hname)

/-- The name of a part is in the table. -/
theorem has_name (h : Depicts settings names n m s) {part : Part}
    (hpart : s.part? name = some part) : names.Has name := by
  obtain ⟨d, -, hshown⟩ := exists_of_mem_right h.parts (Schematic.mem_of_part? hpart)
  exact ⟨d.id, Schematic.name_of_part? hpart ▸ hshown.name⟩

theorem contains_eq (h : Depicts settings names n m s) (hf : names.Faithful)
    (hname : names.string? id = some name) : n.contains id = (s.part? name).isSome := by
  have hrel := h.device? hf hname
  rw [Network.contains]
  generalize n.device? id = device at hrel ⊢
  generalize s.part? name = part at hrel ⊢
  cases hrel <;> rfl

/-- A change to a device and the same change to its part. -/
theorem update (h : Depicts settings names n m s) (hf : names.Faithful)
    (hname : names.string? id = some name) (hd : n.device? id = some d) {f : Device → Device}
    {g : Part → Part} (hid : ∀ e, (f e).id = e.id)
    (hfg : ∀ part, PartShown names d part → PartShown names (f d) (g part)) :
    Depicts settings names (n.update id f) m (s.modify name g) where
  settings := h.settings
  ports := h.ports
  table := h.table
  distinct := Network.distinctNames_update hid h.distinct
  parts := by
    have hparts := (List.forall₂_and_left n.devices s.parts).mpr ⟨fun _ he ↦ he, h.parts⟩
    refine List.forall₂_map_left_iff.mpr (List.forall₂_map_right_iff.mpr (hparts.imp ?_))
    rintro e part ⟨he, hshown⟩
    have hsame := beq_of_names hf hname hshown.name
    by_cases heq : e.id = id
    · rw [if_pos heq, if_pos (beq_iff_eq.mp (hsame ▸ beq_iff_eq.mpr heq))]
      have hde : d = e := by
        refine h.distinct.eq_of_id (Network.mem_of_device? hd) he ?_
        rw [Network.id_of_device? hd, heq]
      exact hde ▸ hfg part (hde ▸ hshown)
    · have hne : part.name ≠ name := by
        intro hpart
        rw [beq_iff_eq.mpr hpart, beq_iff_eq] at hsame
        exact heq hsame
      rwa [if_neg heq, if_neg hne]
  watched := h.watched

/-- An output is there by number when it is there by name. -/
theorem hasOutput_iff (h : Depicts settings names n m s) (hf : names.Faithful) {t : Terminal}
    {output : OutputName} (hcalls : Calls names t output) :
    (∃ d, n.device? t.device = some d ∧ (d.output? n.ports t.port).isSome) ↔
      s.HasOutput output := by
  rw [h.ports]
  constructor
  · rintro ⟨d, hd, houtput⟩
    obtain ⟨part, hpart, hshown⟩ := h.exists_part hf hcalls.device hd
    exact ⟨part, hpart, (hshown.hasOutput_iff hf h.table hcalls).mp houtput⟩
  · rintro ⟨part, hpart, houtput⟩
    obtain ⟨d, hd, hshown⟩ := h.exists_device hf hcalls.device hpart
    exact ⟨d, hd, (hshown.hasOutput_iff hf h.table hcalls).mpr houtput⟩

/-- An output that is there can be called by its name. -/
theorem exists_calls (h : Depicts settings names n m s) {output : OutputName}
    (houtput : s.HasOutput output) : ∃ t, Calls names t output := by
  obtain ⟨part, hpart, hport⟩ := houtput
  obtain ⟨id, hid⟩ := h.has_name hpart
  obtain ⟨hq, hqbar⟩ := string?_portTable names h.table
  obtain ⟨device, port⟩ := output
  cases hcomponent : part.component with
  | flipFlop =>
    rw [hcomponent] at hport
    rcases hport with hport | hport
    · exact ⟨⟨id, some portTable.1.q⟩, hid, by rw [hport]; exact congrArg some hq⟩
    · exact ⟨⟨id, some portTable.1.qbar⟩, hid, by rw [hport]; exact congrArg some hqbar⟩
  | _ =>
    rw [hcomponent] at hport
    exact ⟨⟨id, none⟩, hid, by rw [show port = none from hport]; rfl⟩

/-- An input that is there has its name in the table. -/
theorem has_input (h : Depicts settings names n m s) {part : Part}
    (hpart : s.part? name = some part) {port : String} {inlet : Inlet}
    (hinlet : part.inlet? port = some inlet) : names.Has port := by
  obtain ⟨d, -, hshown⟩ := exists_of_mem_right h.parts (Schematic.mem_of_part? hpart)
  obtain ⟨pin, -, hpin⟩ := exists_of_mem_right hshown.inlets (List.mem_of_find?_eq_some hinlet)
  have hport : inlet.port = port := by simpa using List.find?_some hinlet
  exact ⟨pin.port, hport ▸ hpin.port⟩

end Depicts

end Breadboard.Description
