import Breadboard.Proofs.Names.Growth
import Breadboard.Proofs.Network.Lookup
import Breadboard.Proofs.Storage.Table
import Breadboard.Proofs.WithoutLapse

/-!
# Stored devices

A stored device is sound when its maps have the ports of its kind, what is stored twice agrees, and
its count is short of its half-period (`Cell.Sound`). Every operation on one device keeps it sound
where it writes to the ports of its kind, and does to the device that is stored what the network
does to it.
-/

set_option autoImplicit false
set_option relaxedAutoImplicit false

namespace Breadboard

/-! ### Port names -/

namespace Names

theorem internAll_append (names : Names) (first second : List String) :
    names.internAll (first ++ second) =
      ((names.internAll first).1 ++ ((names.internAll first).2.internAll second).1,
        ((names.internAll first).2.internAll second).2) := by
  induction first generalizing names with
  | nil => rfl
  | cons name rest ih =>
    simp only [List.cons_append, internAll, ih]

theorem extends_internAll (names : Names) (list : List String) :
    names.Extends (names.internAll list).2 := by
  induction list generalizing names with
  | nil => exact .refl names
  | cons name rest ih => exact (extends_intern names name).trans (ih _)

/-- Interned names are read back under their numbers. -/
theorem map_string?_internAll (names : Names) (list : List String) :
    (names.internAll list).1.map (names.internAll list).2.string? = list.map some := by
  induction list generalizing names with
  | nil => rfl
  | cons name rest ih =>
    have hname := (extends_internAll (names.intern name).2 rest).string? (string?_intern names name)
    exact congrArg₂ List.cons hname (ih _)

end Names

namespace Ports

/-- The names of all ports, in the order in which they are interned. -/
def allNames : List String :=
  (List.range' 1 maxInputs).map inputName ++ ["CLK", "DATA", "SET", "CLEAR", "Q", "QBAR"]

/-- The numbers of all ports. -/
def all (ports : Ports) : List NameId :=
  ports.inputs ++ [ports.clk, ports.data, ports.set, ports.clear, ports.q, ports.qbar]

theorem internAll_allNames (names : Names) :
    names.internAll allNames = ((intern names).1.all, (intern names).2) := by
  rw [allNames, Names.internAll_append]
  unfold intern all
  generalize names.internAll _ = interned
  rfl

/-- The ports have the names `I1` to `I16`, `CLK`, `DATA`, `SET`, `CLEAR`, `Q` and `QBAR`. -/
theorem map_string?_all (names : Names) :
    (intern names).1.all.map (intern names).2.string? = allNames.map some := by
  have hnamed := names.map_string?_internAll allNames
  simp only [internAll_allNames] at hnamed
  exact hnamed

theorem nodup_allNames : allNames.Nodup := by
  decide +kernel

/-- No two ports have the same number. -/
theorem nodup_all (names : Names) : (intern names).1.all.Nodup := by
  refine List.Nodup.of_map (intern names).2.string? ?_
  rw [map_string?_all]
  exact nodup_allNames.map (Option.some_injective String)

theorem nodup_take {ports : Ports} (h : ports.all.Nodup) (count : Nat) :
    (ports.inputs.take count).Nodup :=
  h.sublist ((List.take_sublist ..).trans (List.sublist_append_left ..))

theorem q_ne_qbar_of_nodup {ports : Ports} (h : ports.all.Nodup) : ports.q ≠ ports.qbar := by
  have hlast : [ports.q, ports.qbar].Nodup := h.sublist ((List.sublist_append_right
    [ports.clk, ports.data, ports.set, ports.clear] _).trans (List.sublist_append_right ..))
  simpa using hlast

end Ports

/-! ### Ordered maps -/

section Maps

variable {β : Type} {port : NameId} {ports list : List NameId}

/-- The entries of an ordered map are whatever list is sorted and holds the same. -/
theorem toList_eq_of_sorted {m : Std.TreeMap NameId β} {entries : List (NameId × β)}
    (hsorted : entries.Pairwise fun a b ↦ a.1 < b.1)
    (hmem : ∀ key value, (key, value) ∈ entries ↔ m[key]? = some value) : m.toList = entries := by
  have hordered : m.toList.Pairwise fun a b ↦ a.1 < b.1 :=
    m.ordered_keys_toList.imp Nat.compare_eq_lt.mp
  have hnodup {l : List (NameId × β)} (h : l.Pairwise fun a b ↦ a.1 < b.1) : l.Nodup :=
    h.imp fun hlt heq ↦ absurd (heq ▸ hlt) (Nat.lt_irrefl _)
  refine List.Perm.eq_of_pairwise (fun a b _ _ hab hba ↦ absurd hab (Nat.lt_asymm hba)) hordered
    hsorted ((List.perm_ext_iff_of_nodup (hnodup hordered) (hnodup hsorted)).mpr ?_)
  intro entry
  rw [hmem]
  exact Std.TreeMap.mem_toList_iff_getElem?_eq_some

theorem mem_insertPort {other : NameId} :
    other ∈ insertPort port list ↔ other = port ∨ other ∈ list := by
  induction list with
  | nil => simp [insertPort]
  | cons first rest ih =>
    rw [insertPort]
    split
    · exact List.mem_cons
    · rw [List.mem_cons, ih, List.mem_cons]
      exact or_left_comm

theorem pairwise_insertPort (hlist : list.Pairwise (· < ·)) (hport : port ∉ list) :
    (insertPort port list).Pairwise (· < ·) := by
  induction list with
  | nil => exact List.pairwise_singleton ..
  | cons first rest ih =>
    obtain ⟨hfirst, hrest⟩ := List.pairwise_cons.mp hlist
    obtain ⟨hne, hport⟩ := not_or.mp (mt List.mem_cons.mpr hport)
    rw [insertPort]
    split
    · next hle =>
      have hlt : port < first := Nat.lt_of_le_of_ne hle hne
      refine List.pairwise_cons.mpr ⟨fun other hother ↦ ?_, hlist⟩
      rcases List.mem_cons.mp hother with rfl | hother
      · exact hlt
      · exact Nat.lt_trans hlt (hfirst other hother)
    · next hle =>
      refine List.pairwise_cons.mpr ⟨fun other hother ↦ ?_, ih hrest hport⟩
      rcases mem_insertPort.mp hother with rfl | hother
      · exact Nat.lt_of_not_le hle
      · exact hfirst other hother

theorem mem_foldr_insertPort {other : NameId} :
    other ∈ ports.foldr insertPort [] ↔ other ∈ ports := by
  induction ports with
  | nil => exact Iff.rfl
  | cons first rest ih => rw [List.foldr_cons, mem_insertPort, ih, List.mem_cons]

theorem pairwise_foldr_insertPort (hports : ports.Nodup) :
    (ports.foldr insertPort []).Pairwise (· < ·) := by
  induction ports with
  | nil => exact List.Pairwise.nil
  | cons first rest ih =>
    obtain ⟨hfirst, hrest⟩ := List.nodup_cons.mp hports
    exact pairwise_insertPort (ih hrest) fun h ↦ hfirst (mem_foldr_insertPort.mp h)

end Maps

namespace Cell

variable {m : Type → Type} [Fallback m] {ports : Ports} {c : Cell} {list : List NameId}
  {kind : Kind}

/-! ### Sound devices -/

/-- The outputs of a device of a kind. -/
def outputPorts (ports : Ports) : Kind → List (Option NameId)
  | .flipFlop => [some ports.q, some ports.qbar]
  | .gate _ | .switch | .clock => [none]

theorem outputPorts_of_ne (ports : Ports) (h : kind ≠ .flipFlop) :
    outputPorts ports kind = [none] := by
  cases kind with
  | flipFlop => exact absurd rfl h
  | _ => rfl

/-- The inputs that a device of a kind may have. A gate that may choose how many has none at
first. -/
def MayHave (ports : Ports) (list : List NameId) : Kind → Prop
  | .switch | .clock => list = []
  | .flipFlop => list = [ports.clk, ports.data, ports.set, ports.clear]
  | .gate .not => list = ports.inputs.take 1
  | .gate .xor => list = ports.inputs.take 2
  | .gate _ => list = [] ∨ ∃ count, 1 ≤ count ∧ count ≤ maxInputs ∧ list = ports.inputs.take count

/-- A device has the ports of its kind and no other. -/
structure Wired (ports : Ports) (c : Cell) : Prop where
  outputs : ∀ port, port ∈ c.outputs ↔ port ∈ outputPorts ports c.kind
  inputs : ∃ list, MayHave ports list c.kind ∧ ∀ port, port ∈ c.inputs ↔ port ∈ list

/-- A device has the ports of its kind, a switch shows its level, the outputs of a flip-flop are
opposite, and a count is short of the half-period. -/
structure Sound (ports : Ports) (c : Cell) : Prop extends Wired ports c where
  shown : c.kind = .switch → c.outputs[(none : Option NameId)]? = some c.switchLevel
  opposite : c.kind = .flipFlop → c.outputs[some ports.qbar]? = c.outputs[some ports.q]?.map (!·)
  counting : c.counter < c.halfPeriod

/-- The next count of a sound device does not overflow. -/
theorem Sound.toNat_counter_add_one (h : c.Sound ports) :
    (c.counter + 1).toNat = c.counter.toNat + 1 := by
  have hcounting := UInt32.lt_iff_toNat_lt.mp h.counting
  have hperiod := c.halfPeriod.toNat_lt
  rw [UInt32.toNat_add, UInt32.toNat_one]
  exact Nat.mod_eq_of_lt (by omega)

theorem Sound.halfPeriod_pos (h : c.Sound ports) : 0 < c.halfPeriod :=
  UInt32.lt_of_le_of_lt UInt32.zero_le h.counting

theorem getElem?_setOutput (c : Cell) (port other : Option NameId) (level : Level) :
    (c.setOutput port level).outputs[other]? =
      if port = other then some level else c.outputs[other]? := by
  rw [setOutput, Std.TreeMap.getElem?_insert]
  simp only [Std.LawfulEqCmp.compare_eq_iff_eq]

theorem mem_setOutput {port other : Option NameId} {level : Level} :
    other ∈ (c.setOutput port level).outputs ↔ other = port ∨ other ∈ c.outputs := by
  rw [setOutput, Std.TreeMap.mem_insert, Std.LawfulEqCmp.compare_eq_iff_eq, eq_comm]

theorem Wired.setOutput (h : c.Wired ports) (port : Option NameId)
    (hport : port ∈ outputPorts ports c.kind) (level : Level) :
    (c.setOutput port level).Wired ports where
  outputs other := by
    rw [mem_setOutput, h.outputs]
    exact or_iff_right_of_imp fun heq ↦ heq ▸ hport
  inputs := h.inputs

/-- An only output is written to. -/
theorem Wired.sound_setOutput (h : c.Wired ports) (hkind : c.kind ≠ .flipFlop)
    (hcounting : c.counter < c.halfPeriod) (level : Level)
    (hlevel : c.kind = .switch → level = c.switchLevel) : (c.setOutput none level).Sound ports where
  toWired := h.setOutput none (by rw [outputPorts_of_ne ports hkind, List.mem_singleton]) level
  shown hswitch := by
    rw [getElem?_setOutput, if_pos rfl, hlevel hswitch]
    rfl
  opposite hflip := absurd hflip hkind
  counting := hcounting

/-- Both outputs of a flip-flop are set, to opposite levels. -/
def setFlipFlop (ports : Ports) (level : Level) (c : Cell) : Cell :=
  (c.setOutput (some ports.q) level).setOutput (some ports.qbar) (!level)

theorem opposite_setFlipFlop (hports : ports.all.Nodup) (c : Cell) (level : Level) :
    (c.setFlipFlop ports level).outputs[some ports.qbar]? =
      (c.setFlipFlop ports level).outputs[some ports.q]?.map (!·) := by
  have hne := Ports.q_ne_qbar_of_nodup hports
  rw [setFlipFlop, getElem?_setOutput, if_pos rfl, getElem?_setOutput,
    if_neg (by simp [hne.symm]), getElem?_setOutput, if_pos rfl]
  rfl

theorem getElem?_addInputs (list : List NameId) (c : Cell) (port : NameId) :
    (c.addInputs list).inputs[port]? = if port ∈ list then some none else c.inputs[port]? := by
  rw [addInputs]
  generalize c.inputs = inputs
  induction list generalizing inputs with
  | nil => rw [if_neg List.not_mem_nil, List.foldl_nil]
  | cons first rest ih =>
    rw [List.foldl_cons, ih, Std.TreeMap.getElem?_insert]
    simp only [List.mem_cons, Std.LawfulEqCmp.compare_eq_iff_eq]
    by_cases hrest : port ∈ rest
    · simp [hrest]
    · simp [hrest, eq_comm]

theorem mem_addInputs {port : NameId} :
    port ∈ (c.addInputs list).inputs ↔ port ∈ list ∨ port ∈ c.inputs := by
  rw [Std.TreeMap.mem_iff_isSome_getElem?, getElem?_addInputs, Std.TreeMap.mem_iff_isSome_getElem?]
  split <;> simp [*]

/-! ### The device that is stored -/

/-- An input of the device that is stored. -/
theorem pin?_device (ports : Ports) (c : Cell) (port : NameId) :
    (c.device ports).pin? port = c.inputs[port]?.map fun driver ↦ ⟨port, driver⟩ := by
  have hbeq : ((fun pin : Pin ↦ pin.port == port) ∘ fun (entry : NameId × Option Terminal) ↦
      (⟨entry.1, entry.2⟩ : Pin)) = fun entry ↦ compare entry.1 port == .eq := by
    funext entry
    rw [Function.comp, Bool.eq_iff_iff, beq_iff_eq, beq_iff_eq, Nat.compare_eq_eq]
  rw [Device.pin?, device, List.find?_map, hbeq]
  cases hdriver : c.inputs[port]? with
  | none =>
    have habsent : port ∉ c.inputs := by
      rw [Std.TreeMap.mem_iff_isSome_getElem?, hdriver]
      exact Bool.false_ne_true
    rw [Std.TreeMap.find?_toList_eq_none_iff_not_mem.mpr habsent]
    rfl
  | some driver =>
    have hmem := Std.TreeMap.mem_toList_iff_getElem?_eq_some.mpr hdriver
    have hkey := (Std.TreeMap.mem_toList_iff_getKey?_eq_some_and_getElem?_eq_some.mp hmem).1
    rw [Std.TreeMap.find?_toList_eq_some_iff_getKey?_eq_some_and_getElem?_eq_some.mpr
      ⟨hkey, hdriver⟩]
    rfl

theorem driver?_device (ports : Ports) (c : Cell) (port : NameId) :
    (c.device ports).driver? port = c.inputs[port]?.join := by
  rw [Device.driver?, pin?_device]
  cases c.inputs[port]? <;> rfl

theorem kind_device (ports : Ports) (c : Cell) : (c.device ports).kind = c.kind := by
  rw [Device.kind, device, element]
  split <;> simp [Element.kind, *]

theorem kind_of_element {e : Element} (h : (c.device ports).element = e) : c.kind = e.kind :=
  (c.kind_device ports).symm.trans (congrArg Element.kind h)

theorem pins_device_eq_nil_iff (ports : Ports) (c : Cell) :
    (c.device ports).pins = [] ↔ c.inputs.isEmpty := by
  rw [device, List.map_eq_nil_iff, ← List.isEmpty_iff, Std.TreeMap.isEmpty_toList]

theorem Wired.getElem?_outputs (h : c.Wired ports) (port : Option NameId) :
    c.outputs[port]? = if port ∈ outputPorts ports c.kind then some (c.level port) else none := by
  have hmem := h.outputs port
  rw [Std.TreeMap.mem_iff_isSome_getElem?] at hmem
  rw [level]
  cases hlevel : c.outputs[port]? with
  | none =>
    rw [hlevel] at hmem
    rw [if_neg fun hport ↦ absurd (hmem.mpr hport) Bool.false_ne_true]
  | some level =>
    rw [hlevel] at hmem
    rw [if_pos (hmem.mp rfl)]
    rfl

theorem Sound.level_qbar (h : c.Sound ports) (hkind : c.kind = .flipFlop) :
    c.level (some ports.qbar) = !c.level (some ports.q) := by
  have hopposite := h.opposite hkind
  rw [h.getElem?_outputs, h.getElem?_outputs, if_pos (by simp [outputPorts, hkind]),
    if_pos (by simp [outputPorts, hkind])] at hopposite
  exact Option.some.inj hopposite

/-- An output of the device that is stored. -/
theorem Sound.output?_device (h : c.Sound ports) (hports : ports.all.Nodup)
    (port : Option NameId) : (c.device ports).output? ports port = c.outputs[port]? := by
  have hqbar := Ports.q_ne_qbar_of_nodup hports
  have hsingle : [((none : Option NameId), c.level none)].lookup port =
      if port ∈ [none] then some (c.level port) else none := by
    cases port <;> rfl
  rw [h.getElem?_outputs, Device.output?, Device.outputs, device, element]
  cases hkind : c.kind with
  | gate g => exact hsingle
  | switch =>
    have hshown : c.level none = c.switchLevel := by rw [level, h.shown hkind, Option.getD_some]
    rw [← hshown]
    exact hsingle
  | clock => exact hsingle
  | flipFlop =>
    have hother {p other : Option NameId} (hne : p ≠ other) (level : Level)
        (rest : List (Option NameId × Level)) :
        ((other, level) :: rest).lookup p = rest.lookup p := by
      rw [List.lookup_cons, beq_false_of_ne hne]
    simp only [outputPorts, ← h.level_qbar hkind]
    by_cases hq : port = some ports.q
    · subst hq
      have hne : some ports.q ≠ some ports.qbar := fun heq ↦ hqbar (Option.some.inj heq)
      split
      · simp
      · simp [hother hne]
    · by_cases hqbar : port = some ports.qbar
      · subst hqbar
        split
        · simp [hother hq]
        · simp
      · split <;> simp [hother hq, hother hqbar, hq, hqbar]

theorem element_of_gate {g : Gate} (ports : Ports) (h : c.kind = .gate g) :
    c.element ports = .gate g (c.level none) := by
  rw [element, h]

theorem element_of_switch (ports : Ports) (h : c.kind = .switch) :
    c.element ports = .switch c.switchLevel := by
  rw [element, h]

theorem element_of_clock (ports : Ports) (h : c.kind = .clock) :
    c.element ports = .clock c.halfPeriod.toNat c.counter.toNat (c.level none) := by
  rw [element, h]

theorem element_of_flipFlop (ports : Ports) (h : c.kind = .flipFlop) :
    c.element ports = .flipFlop (c.level (some ports.q)) c.lastClock := by
  rw [element, h]

theorem device_eq_mapElement {d : Cell} {f : Element → Element} (hid : d.id = c.id)
    (hinputs : d.inputs = c.inputs) (helement : d.element ports = f (c.element ports)) :
    d.device ports = (c.device ports).mapElement f := by
  rw [device, device, Device.mapElement, hid, hinputs, helement]

/-! ### What is done to a device -/

theorem id_make (ports : Ports) (list : List NameId) (id : NameId) (kind : Kind) :
    (make ports list id kind).id = id := by
  rw [make]
  split <;> rfl

theorem mayHave_firstInputs (ports : Ports) (kind : Kind) :
    MayHave ports (Device.firstInputs ports kind) kind := by
  cases kind with
  | gate g => cases g <;> simp [MayHave, Device.firstInputs, Gate.inputCount?]
  | _ => rfl

theorem sound_make (hports : ports.all.Nodup) (id : NameId) (kind : Kind) :
    (make ports (Device.firstInputs ports kind) id kind).Sound ports := by
  have hinputs (port : NameId) :
      port ∈ (addInputs (Device.firstInputs ports kind) { id, kind }).inputs ↔
        port ∈ Device.firstInputs ports kind := by
    rw [mem_addInputs]
    exact or_iff_left Std.TreeMap.not_mem_emptyc
  have hcounting : (0 : UInt32) < 1 := by decide
  have hnone (port : Option NameId) :
      port ∉ (addInputs (Device.firstInputs ports kind) { id, kind }).outputs :=
    Std.TreeMap.not_mem_emptyc
  by_cases hkind : kind = .flipFlop
  · subst hkind
    rw [make, if_pos rfl]
    refine ⟨⟨fun port ↦ ?_, _, mayHave_firstInputs ports _, hinputs⟩, nofun, fun _ ↦ ?_, hcounting⟩
    · rw [mem_setOutput, mem_setOutput, or_iff_left (hnone port), or_comm]
      change _ ↔ port ∈ [some ports.q, some ports.qbar]
      rw [List.mem_pair]
    · exact opposite_setFlipFlop hports _ Level.low
  · rw [make, if_neg hkind]
    refine ⟨⟨fun port ↦ ?_, _, mayHave_firstInputs ports kind, hinputs⟩, fun _ ↦ ?_,
      fun h ↦ absurd h hkind, hcounting⟩
    · rw [mem_setOutput, or_iff_left (hnone port)]
      change _ ↔ port ∈ outputPorts ports kind
      rw [outputPorts_of_ne ports hkind, List.mem_singleton]
    · rw [getElem?_setOutput, if_pos rfl]
      rfl

theorem level_setOutput (c : Cell) (port other : Option NameId) (level : Level) :
    (c.setOutput port level).level other = if port = other then level else c.level other := by
  rw [Cell.level, getElem?_setOutput]
  split <;> rfl

theorem toList_addInputs (hempty : c.inputs.isEmpty) (hlist : list.Nodup) :
    (c.addInputs list).inputs.toList = (list.foldr insertPort []).map fun port ↦ (port, none) := by
  refine toList_eq_of_sorted ?_ fun port driver ↦ ?_
  · exact List.pairwise_map.mpr (pairwise_foldr_insertPort hlist)
  · rw [getElem?_addInputs, Std.TreeMap.getElem?_of_isEmpty hempty, List.mem_map]
    split
    · next hport =>
      rw [Option.some_inj]
      refine ⟨fun ⟨_, _, heq⟩ ↦ (Prod.mk.inj heq).2, fun heq ↦ ⟨port, ?_, heq ▸ rfl⟩⟩
      exact mem_foldr_insertPort.mpr hport
    · next hport =>
      refine iff_of_false ?_ nofun
      rintro ⟨other, hother, heq⟩
      exact hport ((Prod.mk.inj heq).1 ▸ mem_foldr_insertPort.mp hother)

/-- A device is given inputs. -/
theorem device_addInputs (ports : Ports) (hempty : c.inputs.isEmpty) (hlist : list.Nodup) :
    (c.addInputs list).device ports = { c.device ports with pins := openPins list } := by
  refine Device.eq_of_parts rfl rfl ?_
  rw [device, toList_addInputs hempty hlist, List.map_map]
  rfl

theorem nodup_firstInputs (hports : ports.all.Nodup) (kind : Kind) :
    (Device.firstInputs ports kind).Nodup := by
  cases kind with
  | gate g => exact Ports.nodup_take hports _
  | switch => exact List.nodup_nil
  | clock => exact List.nodup_nil
  | flipFlop =>
    exact hports.sublist ((List.sublist_append_left [ports.clk, ports.data, ports.set, ports.clear]
      [ports.q, ports.qbar]).trans (List.sublist_append_right ..))

theorem device_make (hports : ports.all.Nodup) (id : NameId) (kind : Kind) :
    (make ports (Device.firstInputs ports kind) id kind).device ports =
      Device.make ports id kind := by
  have hne := Ports.q_ne_qbar_of_nodup hports
  have hpins : ((make ports (Device.firstInputs ports kind) id kind).device ports).pins =
      openPins (Device.firstInputs ports kind) := by
    have hadd := device_addInputs (c := { id, kind }) ports Std.TreeMap.isEmpty_emptyc
      (nodup_firstInputs hports kind)
    rw [make]
    split
    · exact congrArg Device.pins hadd
    · exact congrArg Device.pins hadd
  refine Device.eq_of_parts (id_make ports _ id kind) ?_ hpins
  · change (make ports _ id kind).element ports = .ofKind kind
    rw [make]
    cases kind with
    | gate g =>
      rw [if_neg nofun, element_of_gate _ rfl, level_setOutput, if_pos rfl, Element.ofKind]
    | switch => rw [if_neg nofun, element_of_switch _ rfl, Element.ofKind]; rfl
    | clock =>
      rw [if_neg nofun, element_of_clock _ rfl, level_setOutput, if_pos rfl, Element.ofKind]
      rfl
    | flipFlop =>
      rw [if_pos rfl, element_of_flipFlop _ rfl, level_setOutput, if_neg (by simp [hne.symm]),
        level_setOutput, if_pos rfl, Element.ofKind]
      rfl

/-! ### Levels and counts -/

/-- The output of a gate is set. -/
theorem Sound.setGate (h : c.Sound ports) {g : Gate} (hkind : c.kind = .gate g) (level : Level) :
    (c.setOutput none level).Sound ports :=
  h.toWired.sound_setOutput (hkind ▸ nofun) h.counting level fun hswitch ↦
    Kind.noConfusion (hkind.symm.trans hswitch)

theorem device_setGate {g : Gate} (hkind : c.kind = .gate g) (level : Level) :
    (c.setOutput none level).device ports =
      (c.device ports).mapElement fun _ ↦ .gate g level := by
  refine device_eq_mapElement rfl rfl ?_
  rw [element_of_gate (c := c.setOutput none level) _ hkind, level_setOutput, if_pos rfl]

theorem level_setFlipFlop (hports : ports.all.Nodup) (c : Cell) (level : Level) :
    (c.setFlipFlop ports level).level (some ports.q) = level := by
  have hne := Ports.q_ne_qbar_of_nodup hports
  rw [setFlipFlop, level_setOutput, if_neg (by simp [hne.symm]), level_setOutput, if_pos rfl]

theorem Sound.setFlipFlop (h : c.Sound ports) (hports : ports.all.Nodup)
    (hkind : c.kind = .flipFlop) (level : Level) : (c.setFlipFlop ports level).Sound ports where
  toWired := by
    have hq := h.toWired.setOutput (some ports.q) (by simp [outputPorts, hkind]) level
    exact hq.setOutput (some ports.qbar) (by simp [Cell.setOutput, outputPorts, hkind]) _
  shown hswitch := Kind.noConfusion (hkind.symm.trans hswitch)
  opposite _ := opposite_setFlipFlop hports c level
  counting := h.counting

theorem device_setFlipFlop (hports : ports.all.Nodup) (hkind : c.kind = .flipFlop)
    (level : Level) : (c.setFlipFlop ports level).device ports =
      (c.device ports).mapElement fun _ ↦ .flipFlop level c.lastClock := by
  refine device_eq_mapElement rfl rfl ?_
  rw [element_of_flipFlop (c := c.setFlipFlop ports level) _ hkind, level_setFlipFlop hports]
  rfl

/-- What one tick comes to. -/
def ticked (c : Cell) : Cell :=
  Id.run c.tick

theorem ticked_eq (c : Cell) : c.ticked =
    if c.kind = .clock then
      if c.counter + 1 ≥ c.halfPeriod then
        { c with counter := 0 }.setOutput none (!c.level none)
      else { c with counter := c.counter + 1 }
    else c := by
  rw [ticked, tick, level]
  split
  · split
    · cases c.outputs[(none : Option NameId)]? <;> rfl
    · rfl
  · rfl

/-- A clock has its output. -/
theorem Sound.tick_eq (h : c.Sound ports) : c.tick = (pure c.ticked : m Cell) := by
  rw [tick, ticked_eq]
  split
  · next hkind =>
    have houtput : c.outputs[(none : Option NameId)]? = some (c.level none) := by
      rw [h.getElem?_outputs, if_pos (by simp [outputPorts, hkind])]
    split
    · rw [houtput, provided_some, pure_bind]
    · rfl
  · rfl

theorem id_ticked (c : Cell) : c.ticked.id = c.id := by
  rw [ticked_eq]
  split
  · split <;> rfl
  · rfl

theorem Sound.ticked (h : c.Sound ports) : c.ticked.Sound ports := by
  rw [ticked_eq]
  split
  · next hkind =>
    have hshown : c.kind ≠ .switch := hkind ▸ nofun
    split
    · next hdue =>
      have hwired : ({ c with counter := 0 } : Cell).Wired ports := ⟨h.outputs, h.inputs⟩
      exact hwired.sound_setOutput (hkind ▸ nofun) h.halfPeriod_pos _ fun hswitch ↦
        absurd hswitch hshown
    · next hdue =>
      exact ⟨⟨h.outputs, h.inputs⟩, fun hswitch ↦ absurd hswitch hshown, h.opposite,
        UInt32.not_le.mp hdue⟩
  · exact h

theorem Sound.device_ticked (h : c.Sound ports) :
    c.ticked.device ports = (c.device ports).mapElement Element.tick := by
  rw [ticked_eq]
  split
  · next hkind =>
    have hiff : c.counter + 1 ≥ c.halfPeriod ↔ c.counter.toNat + 1 ≥ c.halfPeriod.toNat := by
      rw [← h.toNat_counter_add_one]
      exact UInt32.le_iff_toNat_le
    have helement := element_of_clock (c := c) ports hkind
    split
    · next hdue =>
      refine device_eq_mapElement rfl rfl ?_
      rw [helement, Element.tick, if_pos (hiff.mp hdue)]
      refine (element_of_clock ports ?_).trans ?_
      · exact hkind
      · rw [level_setOutput, if_pos rfl]
        rfl
    · next hdue =>
      refine device_eq_mapElement rfl rfl ?_
      rw [helement, Element.tick, if_neg (mt hiff.mpr hdue), ← h.toNat_counter_add_one]
      exact element_of_clock (c := { c with counter := c.counter + 1 }) ports hkind
  · next hkind =>
    refine device_eq_mapElement rfl rfl ?_
    rw [element]
    split <;> first | rfl | contradiction

/-- A device at time zero. -/
theorem Sound.reset (h : c.Sound ports) (hports : ports.all.Nodup) :
    (c.reset ports).Sound ports := by
  rw [Cell.reset]
  split
  · next hkind =>
    exact h.toWired.sound_setOutput (hkind ▸ nofun) h.counting _ fun _ ↦ rfl
  · next hkind =>
    have hset := h.setFlipFlop hports hkind Level.low
    exact ⟨⟨hset.outputs, hset.inputs⟩, hset.shown, hset.opposite, hset.counting⟩
  · next hkind =>
    have hwired : ({ c with counter := 0 } : Cell).Wired ports := ⟨h.outputs, h.inputs⟩
    exact hwired.sound_setOutput (hkind ▸ nofun) h.halfPeriod_pos _ fun hswitch ↦
      Kind.noConfusion (hkind.symm.trans hswitch)
  · next g hkind => exact h.setGate hkind _

theorem device_reset (hports : ports.all.Nodup) (c : Cell) :
    (c.reset ports).device ports = (c.device ports).mapElement Element.reset := by
  rw [Cell.reset]
  split
  · next hkind =>
    refine device_eq_mapElement rfl rfl ?_
    rw [element_of_switch ports hkind]
    exact element_of_switch ports hkind
  · next hkind =>
    refine device_eq_mapElement rfl rfl ?_
    rw [element_of_flipFlop ports hkind]
    refine (element_of_flipFlop ports ?_).trans ?_
    · exact hkind
    · exact congrArg (Element.flipFlop · Level.low) (level_setFlipFlop hports c Level.low)
  · next hkind =>
    refine device_eq_mapElement rfl rfl ?_
    rw [element_of_clock ports hkind]
    refine (element_of_clock ports ?_).trans ?_
    · exact hkind
    · rw [level_setOutput, if_pos rfl]
      rfl
  · next g hkind =>
    refine device_eq_mapElement rfl rfl ?_
    rw [element_of_gate ports hkind]
    refine (element_of_gate (g := g) ports ?_).trans ?_
    · exact hkind
    · rw [level_setOutput, if_pos rfl]
      rfl

/-- A flip-flop remembers its clock level. -/
theorem Sound.remember (h : c.Sound ports) (clock : Level) :
    ({ c with lastClock := clock } : Cell).Sound ports :=
  ⟨⟨h.outputs, h.inputs⟩, h.shown, h.opposite, h.counting⟩

theorem device_remember (ports : Ports) (c : Cell) (clock : Level) :
    (if c.kind = .flipFlop then { c with lastClock := clock } else c).device ports =
      (c.device ports).mapElement (Element.remember clock) := by
  split
  · next hkind =>
    refine device_eq_mapElement rfl rfl ?_
    rw [element_of_flipFlop ports hkind]
    exact element_of_flipFlop (c := { c with lastClock := clock }) ports hkind
  · next hkind =>
    refine device_eq_mapElement rfl rfl ?_
    rw [element]
    split <;> first | rfl | contradiction

/-! ### Settings and connections -/

/-- A switch is set. -/
theorem Sound.setSwitch (h : c.Sound ports) (hkind : c.kind = .switch) (level : Level) :
    ({ c with switchLevel := level }.setOutput none level).Sound ports := by
  have hwired : ({ c with switchLevel := level } : Cell).Wired ports := ⟨h.outputs, h.inputs⟩
  exact hwired.sound_setOutput (hkind ▸ nofun) h.counting level fun _ ↦ rfl

theorem device_setSwitch (hkind : c.kind = .switch) (level : Level) :
    ({ c with switchLevel := level }.setOutput none level).device ports =
      (c.device ports).mapElement fun _ ↦ .switch level :=
  device_eq_mapElement rfl rfl (element_of_switch (c := { c with
    switchLevel := level }.setOutput none level) ports hkind)

/-- A clock is given a half-period. -/
theorem Sound.setHalfPeriod (h : c.Sound ports) {cycles : UInt32} (hcycles : cycles ≠ 0) :
    ({ c with halfPeriod := cycles, counter := 0 } : Cell).Sound ports :=
  ⟨⟨h.outputs, h.inputs⟩, h.shown, h.opposite, UInt32.pos_iff_ne_zero.mpr hcycles⟩

theorem device_setHalfPeriod (hkind : c.kind = .clock) (cycles : UInt32) :
    ({ c with halfPeriod := cycles, counter := 0 } : Cell).device ports =
      (c.device ports).mapElement fun _ ↦ .clock cycles.toNat 0 (c.level none) :=
  device_eq_mapElement rfl rfl (element_of_clock (c := { c with
    halfPeriod := cycles, counter := 0 }) ports hkind)

/-- A gate that may choose how many inputs it has is given some. -/
theorem Sound.addInputs (h : c.Sound ports) (hkind : c.kind.hasVariableInputs)
    (hempty : c.inputs.isEmpty) {count : Nat} (hpos : 1 ≤ count) (hle : count ≤ maxInputs) :
    (c.addInputs (ports.inputs.take count)).Sound ports := by
  have hmay : MayHave ports (ports.inputs.take count) c.kind := by
    cases hc : c.kind with
    | gate g =>
      rw [hc] at hkind
      cases g with
      | not | xor => cases hkind
      | _ => exact .inr ⟨count, hpos, hle, rfl⟩
    | _ => rw [hc] at hkind; cases hkind
  refine ⟨⟨h.outputs, _, hmay, fun port ↦ ?_⟩, h.shown, h.opposite, h.counting⟩
  rw [mem_addInputs, or_iff_left (Std.TreeMap.not_mem_of_isEmpty hempty)]

/-- An input is driven. -/
theorem Sound.drive (h : c.Sound ports) {port : NameId} (hport : port ∈ c.inputs)
    (source : Terminal) : (c.drive port source).Sound ports := by
  obtain ⟨list, hmay, hlist⟩ := h.inputs
  refine ⟨⟨h.outputs, list, hmay, fun other ↦ ?_⟩, h.shown, h.opposite, h.counting⟩
  rw [← hlist, Cell.drive, Std.TreeMap.mem_insert, Std.LawfulEqCmp.compare_eq_iff_eq]
  exact or_iff_right_of_imp fun heq ↦ heq ▸ hport

theorem getElem?_drive (c : Cell) (port other : NameId) (source : Terminal) :
    (c.drive port source).inputs[other]? =
      if port = other then some (some source) else c.inputs[other]? := by
  rw [Cell.drive, Std.TreeMap.getElem?_insert]
  simp only [Std.LawfulEqCmp.compare_eq_iff_eq]

theorem toList_drive {port : NameId} (hport : port ∈ c.inputs) (source : Terminal) :
    (c.drive port source).inputs.toList = c.inputs.toList.map fun entry ↦
      if entry.1 = port then (entry.1, some source) else entry := by
  have hkey (entry : NameId × Option Terminal) :
      (if entry.1 = port then (entry.1, some source) else entry).1 = entry.1 := by
    split <;> rfl
  refine toList_eq_of_sorted ?_ fun other driver ↦ ?_
  · refine List.pairwise_map.mpr (c.inputs.ordered_keys_toList.imp fun hlt ↦ ?_)
    rw [hkey, hkey]
    exact Nat.compare_eq_lt.mp hlt
  · rw [getElem?_drive, List.mem_map]
    split
    · next heq =>
      subst heq
      obtain ⟨old, hold⟩ :=
        Option.isSome_iff_exists.mp (Std.TreeMap.mem_iff_isSome_getElem?.mp hport)
      have hentry := Std.TreeMap.mem_toList_iff_getElem?_eq_some.mpr hold
      refine ⟨?_, fun hdriver ↦ ⟨(port, old), hentry, ?_⟩⟩
      · rintro ⟨entry, -, hentry⟩
        have hport' : entry.1 = port := (hkey entry).symm.trans (congrArg Prod.fst hentry)
        rw [if_pos hport'] at hentry
        exact congrArg some (congrArg Prod.snd hentry)
      · rw [if_pos rfl, Option.some.inj hdriver]
    · next hne =>
      rw [← Std.TreeMap.mem_toList_iff_getElem?_eq_some]
      refine ⟨?_, fun hmem ↦ ⟨_, hmem, if_neg (Ne.symm hne)⟩⟩
      rintro ⟨entry, hmem, hentry⟩
      have hother : entry.1 = other := (hkey entry).symm.trans (congrArg Prod.fst hentry)
      rw [if_neg (hother ▸ Ne.symm hne)] at hentry
      exact hentry ▸ hmem

theorem device_drive (ports : Ports) {port : NameId} (hport : port ∈ c.inputs)
    (source : Terminal) :
    (c.drive port source).device ports = (c.device ports).drive port source := by
  refine Device.eq_of_parts rfl rfl ?_
  rw [device, toList_drive hport, device, Device.drive, List.map_map, List.map_map]
  refine List.map_congr_left fun entry _ ↦ ?_
  simp only [Function.comp]
  split <;> rfl

end Cell

end Breadboard
