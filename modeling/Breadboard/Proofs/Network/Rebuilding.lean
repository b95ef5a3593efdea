import Breadboard.Proofs.Network.Drivers
import Breadboard.Proofs.Network.Renumbering
import Breadboard.Proofs.Storage.Cells
import Mathlib.Data.List.Find

/-!
# Building under other numbers

When the devices of a network are renumbered, a declaration is carried out as before, or refused
for the same reason (`renumbered_declare`). A connection and a monitor name ports as well. They go
the same way as long as the renumbering leaves the numbers of all ports alone
(`Steady.connect_renumbered`, `Steady.add_renumbered`), which it goes on to do whatever is declared
and connected (`Steady.declare`, `Steady.connect`).
-/

set_option autoImplicit false
set_option relaxedAutoImplicit false

namespace Breadboard

variable {number : NameId → NameId}

/-- An output whose device and port are met under other numbers. -/
def Terminal.remet (number : NameId → NameId) (t : Terminal) : Terminal :=
  ⟨number t.device, t.port.map number⟩

theorem Device.inputsRefusal?_renumbered (number : NameId → NameId) (d : Device) (count : Nat) :
    (d.renumbered number).inputsRefusal? count = d.inputsRefusal? count := by
  have hpins : (d.renumbered number).pins.isEmpty = d.pins.isEmpty := List.isEmpty_map
  rw [inputsRefusal?, inputsRefusal?, hpins]
  rfl

theorem openPins_renumbered (number : NameId → NameId) (ports : List NameId) :
    (openPins ports).map (Pin.renumbered number) = openPins ports := by
  rw [openPins, List.map_map]
  rfl

theorem mem_ports_of_mem_openPins {ports : List NameId} {pin : Pin} (h : pin ∈ openPins ports) :
    pin.port ∈ ports := by
  obtain ⟨port, hport, rfl⟩ := List.mem_map.mp h
  exact mem_foldr_insertPort.mp hport

namespace Network

variable {n m : Network}

/-! ### Declarations -/

section Declarations

variable (hnumber : Function.Injective number)

include hnumber

theorem renumbered_addDevice? (n : Network) (id : NameId) (kind : Kind) :
    (n.renumbered number).addDevice? (number id) kind =
      (n.addDevice? id kind).map (renumbered number) := by
  rw [addDevice?, addDevice?, contains_renumbered hnumber]
  split
  · rfl
  · have hmade : (Device.make n.ports id kind).renumbered number =
        Device.make n.ports (number id) kind :=
      congrArg (Device.mk (number id) (.ofKind kind)) (openPins_renumbered number _)
    rw [Option.map_some, renumbered, renumbered, List.map_append, List.map_singleton, hmade]

theorem renumbered_addInputs? (n : Network) (id : NameId) (count : Nat) :
    (n.renumbered number).addInputs? (number id) count =
      (n.addInputs? id count).map (renumbered number) := by
  rw [addInputs?, addInputs?, device?_renumbered hnumber, Option.bind_map, Option.map_bind]
  refine Option.bind_congr fun d _ ↦ ?_
  rw [Function.comp_apply, Function.comp_apply, apply_ite (Option.map (renumbered number))]
  refine if_congr ?_ (congrArg some (renumbered_replace hnumber (fun d _ ↦ ?_) id).symm) rfl
  · exact and_congr_right fun _ ↦ and_congr_left fun _ ↦ List.map_eq_nil_iff
  · exact congrArg (Device.mk (number d.id) d.element) (openPins_renumbered number _)

theorem renumbered_setHalfPeriod? (n : Network) (id : NameId) (cycles : Nat) :
    (n.renumbered number).setHalfPeriod? (number id) cycles =
      (n.setHalfPeriod? id cycles).map (renumbered number) := by
  rw [setHalfPeriod?, setHalfPeriod?, apply_ite (Option.map (renumbered number))]
  refine if_congr Iff.rfl rfl ?_
  rw [device?_renumbered hnumber, Option.bind_map, Option.map_bind]
  refine Option.bind_congr fun d _ ↦ ?_
  rw [Function.comp_apply, Function.comp_apply, Device.renumbered]
  cases d.element with
  | clock => exact congrArg some (renumbered_update hnumber n id _).symm
  | _ => rfl

/-- What is said of a device is said of it under its new number. -/
theorem renumbered_declare (n : Network) (id : NameId) (clause : Clause) :
    (n.renumbered number).declare (number id) clause =
      (n.declare id clause).map (renumbered number) := by
  cases clause with
  | define kind =>
    rw [declare, declare, renumbered_addDevice? hnumber]
    cases n.addDevice? id kind <;> rfl
  | inputs count =>
    rw [declare, declare, device?_renumbered hnumber]
    cases n.device? id with
    | none => rfl
    | some d =>
      dsimp only [Option.map_some]
      rw [Device.inputsRefusal?_renumbered, renumbered_addInputs? hnumber]
      cases d.inputsRefusal? count with
      | some refusal => rfl
      | none => cases n.addInputs? id count <;> rfl
  | halfPeriod cycles =>
    rw [declare, declare, contains_renumbered hnumber, renumbered_setHalfPeriod? hnumber]
    cases n.contains id <;> cases n.setHalfPeriod? id cycles <;> rfl
  | level level =>
    rw [declare, declare, contains_renumbered hnumber, renumbered_setSwitch? hnumber]
    cases n.contains id <;> cases n.setSwitch? id level <;> rfl

end Declarations

/-! ### Ports that keep their numbers -/

/-- A renumbering that leaves the numbers of all ports alone, of those that a device may have and of
those that the devices have. -/
structure Steady (number : NameId → NameId) (n : Network) : Prop where
  ports : ∀ port ∈ n.ports.all, number port = port
  pins : ∀ d ∈ n.devices, ∀ pin ∈ d.pins, number pin.port = pin.port

theorem Steady.update (h : Steady number n) (id : NameId) {f : Device → Device}
    (hf : ∀ d ∈ n.devices, ∀ pin ∈ (f d).pins, number pin.port = pin.port) :
    Steady number (n.update id f) where
  ports := h.ports
  pins := by
    rw [devices_update, List.forall_mem_map]
    intro d hd
    split
    · exact hf d hd
    · exact h.pins d hd

theorem Steady.openPins (h : Steady number n) {ports : List NameId}
    (hports : ∀ port ∈ ports, port ∈ n.ports.all) :
    ∀ pin ∈ openPins ports, number pin.port = pin.port := fun pin hpin ↦
  h.ports pin.port (hports _ (mem_ports_of_mem_openPins hpin))

theorem mem_all_of_mem_inputs {ports : Ports} {port : NameId} (h : port ∈ ports.inputs) :
    port ∈ ports.all :=
  List.mem_append_left _ h

theorem mem_all_of_mem_firstInputs {ports : Ports} {kind : Kind} {port : NameId}
    (h : port ∈ Device.firstInputs ports kind) : port ∈ ports.all := by
  cases kind with
  | gate g => exact mem_all_of_mem_inputs (List.mem_of_mem_take h)
  | switch | clock => cases h
  | flipFlop =>
    have hmem : port ∈ [ports.clk, ports.data, ports.set, ports.clear] ++ [ports.q, ports.qbar] :=
      List.mem_append_left _ h
    exact List.mem_append_right _ hmem

theorem Steady.addInputs? (h : Steady number n) {id : NameId} {count : Nat}
    (hadd : n.addInputs? id count = some m) : Steady number m := by
  obtain ⟨d, -, hadd⟩ := Option.bind_eq_some_iff.mp hadd
  split at hadd
  · obtain rfl := Option.some_inj.mp hadd
    exact h.update id fun _ _ ↦ h.openPins fun port hport ↦
      mem_all_of_mem_inputs (List.mem_of_mem_take hport)
  · cases hadd

/-- Declarations bring no ports but those that a device may have. -/
theorem Steady.declare (h : Steady number n) {id : NameId} {clause : Clause}
    (hdeclare : n.declare id clause = .ok m) : Steady number m := by
  cases declared_of_declare hdeclare with
  | define =>
    refine ⟨h.ports, fun d hd ↦ ?_⟩
    rcases List.mem_append.mp hd with hold | hnew
    · exact h.pins d hold
    · rw [List.mem_singleton.mp hnew]
      exact h.openPins fun port ↦ mem_all_of_mem_firstInputs
  | @inputs d count =>
    cases hadd : n.addInputs? id count with
    | none => exact h
    | some m => exact h.addInputs? hadd
  | halfPeriod | level => exact h.update id fun d hd ↦ h.pins d hd

/-! ### Connections and monitors -/

section Ports

variable {d : Device} (hnumber : Function.Injective number)

include hnumber

omit hnumber in
theorem eq_number_iff (hnumber : Function.Injective number) {port other : NameId}
    (hport : number port = port) : port = number other ↔ port = other :=
  ⟨fun hsame ↦ hnumber (hport.trans hsame), fun hsame ↦ hsame ▸ hport.symm⟩

/-- A pin is found under the new number of its port, which is the old one. -/
theorem Steady.pin?_renumbered (h : Steady number n) (hd : d ∈ n.devices) (port : NameId) :
    (d.renumbered number).pin? (number port) = (d.pin? port).map (Pin.renumbered number) := by
  have hfind : d.pin? (number port) = d.pin? port := by
    rw [Device.pin?, Device.pin?]
    refine List.find?_congr fun pin hpin ↦ Bool.eq_iff_iff.mpr ?_
    rw [beq_iff_eq, beq_iff_eq, eq_number_iff hnumber (h.pins d hd pin hpin)]
  rw [Device.pin?_renumbered, hfind]

theorem Steady.map_eq_some_iff (h : Steady number n) {port : NameId} (hport : port ∈ n.ports.all)
    (other : Option NameId) : other.map number = some port ↔ other = some port := by
  have hkept := h.ports port hport
  refine ⟨fun hother ↦ ?_, ?_⟩
  · exact Option.map_injective hnumber (hother.trans (congrArg some hkept).symm)
  · rintro rfl
    exact congrArg some hkept

/-- An output is found under the new number of its port, which is the old one. -/
theorem Steady.isSome_output?_renumbered (h : Steady number n) (d : Device)
    (port : Option NameId) :
    ((d.renumbered number).output? n.ports (port.map number)).isSome =
      (d.output? n.ports port).isSome := by
  have hkind : (d.renumbered number).kind = d.kind := rfl
  have hq : port.map number = some n.ports.q ↔ port = some n.ports.q :=
    h.map_eq_some_iff hnumber (by simp [Ports.all]) port
  have hqbar : port.map number = some n.ports.qbar ↔ port = some n.ports.qbar :=
    h.map_eq_some_iff hnumber (by simp [Ports.all]) port
  rw [Bool.eq_iff_iff, isSome_output?_iff, isSome_output?_iff, hkind]
  cases d.kind with
  | flipFlop => exact or_congr hq hqbar
  | _ => exact Option.map_eq_none_iff

omit hnumber in
/-- The ports of outputs keep their numbers. -/
theorem Steady.remet_of_output? (h : Steady number n) {t : Terminal}
    (hport : (d.output? n.ports t.port).isSome) : t.remet number = t.renumbered number := by
  have hq : number n.ports.q = n.ports.q := h.ports _ (by simp [Ports.all])
  have hqbar : number n.ports.qbar = n.ports.qbar := h.ports _ (by simp [Ports.all])
  have hkept : t.port.map number = t.port := by
    rw [isSome_output?_iff] at hport
    cases hkind : d.kind with
    | flipFlop =>
      rw [hkind] at hport
      rcases hport with hport | hport
      · rw [hport, Option.map_some, hq]
      · rw [hport, Option.map_some, hqbar]
    | _ =>
      rw [hkind] at hport
      rw [show t.port = none from hport]
      rfl
  exact congrArg (Terminal.mk (number t.device)) hkept

theorem Steady.connectionError?_renumbered (h : Steady number n) (source : Terminal)
    (target input : NameId) :
    (n.renumbered number).connectionError? (source.remet number) (number target) (number input) =
      n.connectionError? source target input := by
  rw [connectionError?, connectionError?, Terminal.remet, device?_renumbered hnumber,
    device?_renumbered hnumber]
  cases hsource : n.device? source.device with
  | none => rfl
  | some src =>
    cases htarget : n.device? target with
    | none => rfl
    | some dst =>
      have hsrc := List.mem_of_find?_eq_some hsource
      have hinput : ((source.port.map number).any fun port ↦
          ((src.renumbered number).pin? port).isSome) =
            source.port.any fun port ↦ (src.pin? port).isSome := by
        cases source.port with
        | none => rfl
        | some port =>
          rw [Option.map_some, Option.any_some, Option.any_some,
            h.pin?_renumbered hnumber hsrc, Option.isSome_map]
      have houtput := h.isSome_output?_renumbered hnumber src source.port
      dsimp only [Option.map_some]
      rw [hinput, h.pin?_renumbered hnumber (List.mem_of_find?_eq_some htarget), ports_renumbered,
        ← Option.not_isSome, houtput, Option.not_isSome]
      cases dst.pin? input with
      | none => rfl
      | some pin =>
        dsimp only [Option.map_some, Pin.renumbered]
        rw [Option.isSome_map]

omit hnumber in
theorem isSome_output?_of_connectionError? {source : Terminal} {target input : NameId}
    (h : n.connectionError? source target input = none) :
    ∃ src, (Device.output? n.ports src source.port).isSome := by
  obtain ⟨src, dst, hsrc, hdst⟩ := exists_of_connectionError? h
  obtain ⟨-, -, houtput⟩ := (connectionError?_of_devices hsrc hdst).mp h
  exact ⟨src, houtput⟩

/-- A connection is made under other numbers as it was made before. -/
theorem Steady.connect_renumbered (h : Steady number n) (source : Terminal)
    (target input : NameId) :
    (n.renumbered number).connect (source.remet number) (number target) (number input) =
      (n.connect source target input).map (renumbered number) := by
  rw [connect, connect, h.connectionError?_renumbered hnumber]
  cases herror : n.connectionError? source target input with
  | some refusal => rfl
  | none =>
    obtain ⟨src, hsrc⟩ := isSome_output?_of_connectionError? herror
    refine congrArg Except.ok (renumbered_replace hnumber (fun d hd ↦ ?_) target).symm
    rw [Device.drive, Device.drive, Device.renumbered, Device.renumbered, List.map_map,
      List.map_map]
    refine congrArg (Device.mk (number d.id) d.element) (List.map_congr_left fun pin hpin ↦ ?_)
    rw [Function.comp_apply, Function.comp_apply, apply_ite (Pin.renumbered number),
      h.remet_of_output? hsrc]
    exact (if_congr (eq_number_iff hnumber (h.pins d hd pin hpin)) rfl rfl).symm

omit hnumber in
theorem Steady.connect (h : Steady number n) {source : Terminal} {target input : NameId}
    (hconnect : n.connect source target input = .ok m) : Steady number m := by
  rw [connect_eq_update (congrArg Except.toOption hconnect)]
  refine h.update target fun d hd ↦ ?_
  rw [Device.drive, List.forall_mem_map]
  intro pin hpin
  have hkept := h.pins d hd pin hpin
  split <;> exact hkept

/-- An output is watched under other numbers as it was watched before. -/
theorem Steady.add_renumbered (h : Steady number n) (monitors : Monitors) (output : Terminal) :
    (monitors.renumbered number).add (n.renumbered number) (output.remet number) =
      (monitors.add n output).map (Monitors.renumbered number) := by
  have hdevice : (n.renumbered number).device? (output.remet number).device =
      (n.device? output.device).map (Device.renumbered number) :=
    device?_renumbered hnumber n output.device
  rw [Monitors.add_eq, Monitors.add_eq, hdevice]
  cases n.device? output.device with
  | none => rfl
  | some d =>
    have hsome : ((d.renumbered number).output? (n.renumbered number).ports
        (output.remet number).port).isSome = (d.output? n.ports output.port).isSome :=
      h.isSome_output?_renumbered hnumber d output.port
    dsimp only [Option.map_some]
    rw [← Option.not_isSome, hsome, Option.not_isSome]
    cases houtput : d.output? n.ports output.port with
    | none => rfl
    | some level =>
      have hremet : output.remet number = output.renumbered number :=
        h.remet_of_output? (d := d) (houtput ▸ rfl)
      rw [hremet, Option.isNone_some, if_neg Bool.false_ne_true, if_neg Bool.false_ne_true,
        apply_ite (Except.map (Monitors.renumbered number))]
      have hprobes : (monitors.renumbered number).probes ++
          [Probe.mk (output.renumbered number) #[]] =
            (monitors.probes ++ [Probe.mk output #[]]).map (Probe.renumbered number) := by
        rw [List.map_append, List.map_singleton]
        rfl
      refine if_congr (Monitors.mem_outputs_renumbered_iff hnumber) rfl ?_
      exact congrArg (fun probes ↦ Except.ok (Monitors.mk probes)) hprobes

end Ports

/-! ### What is missing -/

theorem devicesWithoutInputs_renumbered (number : NameId → NameId) (n : Network) :
    (n.renumbered number).devicesWithoutInputs = n.devicesWithoutInputs.map number := by
  rw [devicesWithoutInputs, renumbered, List.filter_map, List.map_map, devicesWithoutInputs,
    List.map_map]
  refine congrArg (List.map (number ∘ Device.id)) (List.filter_congr fun d _ ↦ ?_)
  have hpins : (d.renumbered number).pins.isEmpty = d.pins.isEmpty := List.isEmpty_map
  rw [Function.comp_apply, hpins]
  rfl

theorem unconnected_renumbered (number : NameId → NameId) (n : Network) :
    (n.renumbered number).unconnected = n.unconnected.map (Prod.map number id) := by
  rw [unconnected, renumbered, List.flatMap_map, unconnected, List.map_flatMap]
  refine List.flatMap_congr fun d _ ↦ ?_
  rw [Device.renumbered, List.filter_map, List.map_map, List.map_map]
  refine congrArg (List.map _) (List.filter_congr fun pin _ ↦ ?_)
  exact Option.isNone_map

end Network

end Breadboard
