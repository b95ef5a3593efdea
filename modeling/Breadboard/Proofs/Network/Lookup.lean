import Breadboard.Network.Cycle
import Mathlib.Data.List.Nodup

/-!
# Devices by name

A network whose devices have names of their own is determined by what its names stand for. The
levels that a device reads depend on the devices that drive its pins and on nothing else.
-/

set_option autoImplicit false
set_option relaxedAutoImplicit false

namespace Breadboard

/-- The output that drives an input of a device, if any does. -/
def Device.driver? (d : Device) (port : NameId) : Option Terminal :=
  (d.pin? port).bind Pin.driver

theorem Device.gate_or_not (d : Device) :
    (∃ g output, d.element = .gate g output) ∨ ∀ g output, d.element ≠ .gate g output := by
  cases d.element <;> simp

theorem Device.flipFlop_or_not (d : Device) :
    (∃ q lastClock, d.element = .flipFlop q lastClock) ∨
      ∀ q lastClock, d.element ≠ .flipFlop q lastClock := by
  cases d.element <;> simp

@[simp]
theorem Device.id_mapElement (f : Element → Element) (d : Device) : (d.mapElement f).id = d.id :=
  rfl

namespace Network

variable {n m : Network} {d e : Device} {id : NameId}

/-- No two devices have the same name. -/
def DistinctNames (n : Network) : Prop :=
  (n.devices.map Device.id).Nodup

theorem mem_of_device? (h : n.device? id = some d) : d ∈ n.devices :=
  List.mem_of_find?_eq_some h

theorem id_of_device? (h : n.device? id = some d) : d.id = id := by
  simpa using List.find?_some h

theorem DistinctNames.eq_of_id (hn : n.DistinctNames) (hd : d ∈ n.devices) (he : e ∈ n.devices)
    (hid : d.id = e.id) : d = e :=
  List.inj_on_of_nodup_map hn hd he hid

theorem DistinctNames.device?_id (hn : n.DistinctNames) (hd : d ∈ n.devices) :
    n.device? d.id = some d := by
  have hfound : (n.device? d.id).isSome := by
    rw [device?, List.find?_isSome]
    exact ⟨d, hd, by simp⟩
  obtain ⟨e, he⟩ := Option.isSome_iff_exists.mp hfound
  rw [he, hn.eq_of_id (mem_of_device? he) hd (id_of_device? he)]

/-- A function that keeps the names of devices keeps them distinct. -/
theorem distinctNames_mapDevices {f : Device → Device} (hf : ∀ d, (f d).id = d.id) :
    (n.mapDevices f).DistinctNames ↔ n.DistinctNames := by
  have hids : (n.devices.map f).map Device.id = n.devices.map Device.id := by
    rw [List.map_map]
    exact List.map_congr_left fun d _ ↦ hf d
  rw [DistinctNames, devices_mapDevices, hids, DistinctNames]

/-- An update concerns the device that it names. -/
theorem device?_update {f : Device → Device} (hf : ∀ d, (f d).id = d.id) (i : NameId) :
    (n.update id f).device? i = if i = id then (n.device? i).map f else n.device? i := by
  have hkeep : ∀ d, (if d.id = id then f d else d).id = d.id := by
    intro d
    split
    · exact hf d
    · rfl
  rw [update, device?_mapDevices n hkeep]
  cases hfound : n.device? i with
  | none => simp
  | some d =>
    have hid := id_of_device? hfound
    subst hid
    by_cases h : d.id = id <;> simp [h]

theorem device?_update_of_ne {f : Device → Device} (hf : ∀ d, (f d).id = d.id) {i : NameId}
    (hi : i ≠ id) : (n.update id f).device? i = n.device? i := by
  rw [device?_update hf, if_neg hi]

/-- An update that changes nothing about the device it names changes nothing. -/
theorem update_eq_self {f : Device → Device} (hf : ∀ d ∈ n.devices, d.id = id → f d = d) :
    n.update id f = n := by
  have hmap : n.devices.map (fun d ↦ if d.id = id then f d else d) = n.devices := by
    conv_rhs => rw [← List.map_id n.devices]
    refine List.map_congr_left fun d hd ↦ ?_
    by_cases hid : d.id = id
    · rw [if_pos hid, hf d hd hid, id_eq]
    · rw [if_neg hid, id_eq]
  rw [update, mapDevices, hmap]

/-! ### Levels -/

/-- The level of an output hangs on its device alone. -/
theorem output?_congr {t : Terminal} (hports : n.ports = m.ports)
    (hdevice : n.device? t.device = m.device? t.device) : n.output? t = m.output? t := by
  rw [output?, output?, hports, hdevice]

theorem drivenLevel_congr {driver : Option Terminal}
    (h : ∀ t, driver = some t → n.output? t = m.output? t) :
    n.drivenLevel driver = m.drivenLevel driver := by
  cases driver with
  | none => rfl
  | some t => rw [drivenLevel, drivenLevel, Option.bind_some, Option.bind_some, h t rfl]

theorem inputLevel_eq (n : Network) (d : Device) (port : NameId) :
    n.inputLevel d port = n.drivenLevel (d.driver? port) := rfl

theorem inputLevel_congr {port : NameId}
    (h : ∀ t, d.driver? port = some t → n.output? t = m.output? t) :
    n.inputLevel d port = m.inputLevel d port :=
  drivenLevel_congr h

theorem pinLevels_congr
    (h : ∀ pin ∈ d.pins, ∀ t, pin.driver = some t → n.output? t = m.output? t) :
    n.pinLevels d = m.pinLevels d :=
  List.map_congr_left fun pin hpin ↦ drivenLevel_congr (h pin hpin)

/-! ### Devices with the same pins read the same levels -/

theorem pinLevels_of_pins (n : Network) (hpins : d.pins = e.pins) :
    n.pinLevels d = n.pinLevels e := by
  rw [pinLevels, pinLevels, hpins]

theorem inputLevel_of_pins (n : Network) (hpins : d.pins = e.pins) (port : NameId) :
    n.inputLevel d port = n.inputLevel e port := by
  rw [inputLevel, inputLevel, Device.pin?, Device.pin?, hpins]

end Network

end Breadboard
