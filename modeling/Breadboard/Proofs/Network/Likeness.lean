import Breadboard.Proofs.Network.Lookup

/-!
# Networks that differ in one respect

An activity of a network changes the elements of its devices and nothing else, and each activity
touches its own part of them. A mask blanks out such a part of an element. Two networks are alike
under a mask when they are equal once the mask is laid over every element, so likeness is an
equivalence, and the mask of an activity says all that the activity leaves alone.
-/

set_option autoImplicit false
set_option relaxedAutoImplicit false

namespace Breadboard

namespace Element

/-- An element with nothing left but its kind. -/
def maskState (element : Element) : Element :=
  .ofKind element.kind

/-- An element with the output of a gate blanked out. -/
def maskGate : Element → Element
  | .gate g _ => .gate g Level.low
  | element => element

/-- An element with the level of a flip-flop blanked out. -/
def maskHeld : Element → Element
  | .flipFlop _ lastClock => .flipFlop Level.low lastClock
  | element => element

/-- An element with the level of a switch blanked out. -/
def maskSwitch : Element → Element
  | .switch _ => .switch Level.low
  | element => element

/-- An element with the count and the output of a clock blanked out. -/
def maskClock : Element → Element
  | .clock halfPeriod _ _ => .clock halfPeriod 0 Level.low
  | element => element

/-- An element with the remembered clock level of a flip-flop blanked out. -/
def maskLastClock : Element → Element
  | .flipFlop q _ => .flipFlop q Level.low
  | element => element

/-- An element with all blanked out that a cycle can change, short of succeeding. -/
def maskCycle (element : Element) : Element :=
  element.maskGate.maskHeld.maskClock

/-- An element with all blanked out that setting switches and running can change, short of a cycle
that succeeds. -/
def maskRun (element : Element) : Element :=
  element.maskGate.maskHeld.maskSwitch.maskClock

@[simp]
theorem kind_maskState (element : Element) : element.maskState.kind = element.kind :=
  kind_ofKind _

@[simp]
theorem kind_maskGate (element : Element) : element.maskGate.kind = element.kind := by
  cases element <;> rfl

@[simp]
theorem kind_maskHeld (element : Element) : element.maskHeld.kind = element.kind := by
  cases element <;> rfl

@[simp]
theorem kind_maskClock (element : Element) : element.maskClock.kind = element.kind := by
  cases element <;> rfl

@[simp]
theorem kind_maskLastClock (element : Element) : element.maskLastClock.kind = element.kind := by
  cases element <;> rfl

@[simp]
theorem kind_maskCycle (element : Element) : element.maskCycle.kind = element.kind := by
  cases element <;> rfl

theorem maskCycle_maskGate (element : Element) :
    element.maskGate.maskCycle = element.maskCycle := by
  cases element <;> rfl

theorem maskCycle_maskHeld (element : Element) :
    element.maskHeld.maskCycle = element.maskCycle := by
  cases element <;> rfl

theorem maskCycle_maskClock (element : Element) :
    element.maskClock.maskCycle = element.maskCycle := by
  cases element <;> rfl

theorem maskRun_maskSwitch (element : Element) :
    element.maskSwitch.maskRun = element.maskRun := by
  cases element <;> rfl

theorem maskRun_maskCycle (element : Element) : element.maskCycle.maskRun = element.maskRun := by
  cases element <;> rfl

/-- A flip-flop shows through the mask of a run what it remembers of its clock. -/
theorem exists_of_maskRun {element : Element} {q lastClock : Level}
    (h : element.maskRun = (flipFlop q lastClock).maskRun) :
    ∃ now, element = .flipFlop now lastClock := by
  cases element with
  | flipFlop now seen =>
    rw [maskRun, maskRun] at h
    exact ⟨now, congrArg (flipFlop now) (flipFlop.inj h).2⟩
  | _ => exact Element.noConfusion h

/-- A mask shows an element in full when no other element looks the same under it. -/
def Shown (mask : Element → Element) (element : Element) : Prop :=
  ∀ other, mask other = mask element → other = element

theorem shown_maskGate {element : Element} (h : ∀ g, element.kind ≠ .gate g) :
    element.Shown maskGate := by
  intro other hmask
  cases element <;> cases other <;> simp_all [maskGate, kind]

theorem shown_maskGate_flipFlop (q lastClock : Level) : (flipFlop q lastClock).Shown maskGate :=
  shown_maskGate fun _ h ↦ Kind.noConfusion h

theorem shown_maskClock_flipFlop (q lastClock : Level) :
    (flipFlop q lastClock).Shown maskClock := by
  intro other h
  cases other <;> simp_all [maskClock]

theorem shown_maskHeld {element : Element} (h : element.kind ≠ .flipFlop) :
    element.Shown maskHeld := by
  intro other hmask
  cases element <;> cases other <;> simp_all [maskHeld, kind]

theorem shown_maskSwitch {element : Element} (h : element.kind ≠ .switch) :
    element.Shown maskSwitch := by
  intro other hmask
  cases element <;> cases other <;> simp_all [maskSwitch, kind]

theorem shown_maskGate_of_clock {element : Element} (h : element.kind = .clock) :
    element.Shown maskGate :=
  shown_maskGate fun _ hg ↦ Kind.noConfusion (h.symm.trans hg)

theorem shown_maskHeld_of_clock {element : Element} (h : element.kind = .clock) :
    element.Shown maskHeld :=
  shown_maskHeld fun hflip ↦ Kind.noConfusion (h.symm.trans hflip)

theorem shown_maskLastClock_of_clock {element : Element} (h : element.kind = .clock) :
    element.Shown maskLastClock := by
  intro other hmask
  cases element <;> cases other <;> simp_all [maskLastClock, kind]

end Element

theorem Device.eq_of_parts {d e : Device} (hid : d.id = e.id) (helement : d.element = e.element)
    (hpins : d.pins = e.pins) : d = e := by
  cases d
  cases e
  exact Device.mk.injEq .. ▸ ⟨hid, helement, hpins⟩

namespace Network

variable {mask : Element → Element} {n m k : Network} {d : Device} {id : NameId}

/-- Equal but for what a mask blanks out. -/
def Alike (mask : Element → Element) (n m : Network) : Prop :=
  n.mapDevices (Device.mapElement mask) = m.mapDevices (Device.mapElement mask)

/-- The same devices with the same connections, in whatever state. -/
abbrev SameWiring : Network → Network → Prop :=
  Alike Element.maskState

theorem Alike.refl (mask : Element → Element) (n : Network) : Alike mask n n := rfl

theorem Alike.symm (h : Alike mask n m) : Alike mask m n := Eq.symm h

theorem Alike.trans (h : Alike mask n m) (h' : Alike mask m k) : Alike mask n k := Eq.trans h h'

theorem alike_iff : Alike mask n m ↔ n.ports = m.ports ∧
    n.devices.map (Device.mapElement mask) = m.devices.map (Device.mapElement mask) ∧
      n.settings = m.settings := by
  rw [Alike, mapDevices, mapDevices, Network.mk.injEq]

theorem Alike.ports (h : Alike mask n m) : n.ports = m.ports :=
  (alike_iff.mp h).1

theorem Alike.settings (h : Alike mask n m) : n.settings = m.settings :=
  (alike_iff.mp h).2.2

theorem Alike.devices (h : Alike mask n m) :
    n.devices.map (Device.mapElement mask) = m.devices.map (Device.mapElement mask) :=
  (alike_iff.mp h).2.1

theorem Alike.iterationLimit (h : Alike mask n m) : n.iterationLimit = m.iterationLimit := by
  have hlength := congrArg List.length h.devices
  rw [List.length_map, List.length_map] at hlength
  rw [Network.iterationLimit, Network.iterationLimit, h.settings, hlength]

theorem Alike.distinctNames (h : Alike mask n m) (hn : n.DistinctNames) : m.DistinctNames := by
  rw [← distinctNames_mapDevices (Device.id_mapElement mask)] at hn ⊢
  rwa [← show n.mapDevices _ = m.mapDevices _ from h]

/-- Alike networks have alike devices under each name. -/
theorem Alike.device? (h : Alike mask n m) (id : NameId) :
    (n.device? id).map (Device.mapElement mask) = (m.device? id).map (Device.mapElement mask) := by
  rw [← device?_mapDevices n (Device.id_mapElement mask),
    ← device?_mapDevices m (Device.id_mapElement mask)]
  exact congrArg (Network.device? · id) h

theorem Alike.device?_eq_none (h : Alike mask n m) (hn : n.device? id = none) :
    m.device? id = none := by
  have hlike := h.device? id
  rw [hn, Option.map_none] at hlike
  exact Option.map_eq_none_iff.mp hlike.symm

/-- A device of one network has its like in the other. -/
theorem Alike.exists_device? (h : Alike mask n m) (hd : n.device? id = some d) :
    ∃ e, m.device? id = some e ∧ e.id = d.id ∧ e.pins = d.pins ∧
      mask e.element = mask d.element := by
  have hlike := h.device? id
  rw [hd, Option.map_some] at hlike
  obtain ⟨e, he, hmap⟩ := Option.map_eq_some_iff.mp hlike.symm
  rw [Device.mapElement, Device.mapElement, Device.mk.injEq] at hmap
  exact ⟨e, he, hmap.1, hmap.2.2, hmap.2.1⟩

/-- Devices of one name in alike networks differ only in what the mask hides. -/
theorem Alike.parts_eq (h : Alike mask n m) (hn : n.DistinctNames) (hd : d ∈ n.devices)
    {e : Device} (he : e ∈ m.devices) (hid : e.id = d.id) :
    e.pins = d.pins ∧ mask e.element = mask d.element := by
  obtain ⟨e', he', -, hpins, helement⟩ := h.exists_device? (hn.device?_id hd)
  rw [← hid, (h.distinctNames hn).device?_id he, Option.some_inj] at he'
  rw [he']
  exact ⟨hpins, helement⟩

/-- Networks that are alike under a mask are alike under every coarser one. -/
theorem Alike.coarsen {coarse : Element → Element} (hmask : ∀ e, coarse (mask e) = coarse e)
    (h : Alike mask n m) : Alike coarse n m := by
  have hcomp : ∀ k : Network, (k.mapDevices (Device.mapElement mask)).mapDevices
      (Device.mapElement coarse) = k.mapDevices (Device.mapElement coarse) := by
    intro k
    simp only [mapDevices, List.map_map]
    congr 2
    funext d
    simp [Function.comp, Device.mapElement, hmask]
  rw [Alike, ← hcomp n, ← hcomp m]
  exact congrArg (Network.mapDevices (Device.mapElement coarse)) h

theorem Alike.sameWiring (hmask : ∀ e, (mask e).kind = e.kind) (h : Alike mask n m) :
    SameWiring n m :=
  h.coarsen fun e ↦ by rw [Element.maskState, Element.maskState, hmask e]

/-- The wiring gives every device its pins and its kind. -/
theorem SameWiring.exists_device? (h : SameWiring n m) {id : NameId}
    (hd : n.device? id = some d) :
    ∃ e, m.device? id = some e ∧ e.id = d.id ∧ e.pins = d.pins ∧ e.kind = d.kind := by
  obtain ⟨e, he, hid, hpins, helement⟩ := Alike.exists_device? h hd
  refine ⟨e, he, hid, hpins, ?_⟩
  have hkind := congrArg Element.kind helement
  rwa [Element.kind_maskState, Element.kind_maskState] at hkind

/-- A change that a mask hides leaves a network alike under the mask. -/
theorem alike_mapDevices {f : Device → Device}
    (hf : ∀ d ∈ n.devices, (f d).mapElement mask = d.mapElement mask) :
    Alike mask n (n.mapDevices f) := by
  have hmap : n.devices.map (Device.mapElement mask) =
      (n.devices.map f).map (Device.mapElement mask) := by
    rw [List.map_map]
    exact List.map_congr_left fun d hd ↦ (hf d hd).symm
  rw [Alike, mapDevices, mapDevices, hmap]
  rfl

theorem alike_update {f : Element → Element}
    (hf : ∀ d ∈ n.devices, d.id = id → mask (f d.element) = mask d.element) :
    Alike mask n (n.update id (Device.mapElement f)) := by
  refine alike_mapDevices fun d hd ↦ ?_
  by_cases hid : d.id = id
  · rw [if_pos hid, Device.mapElement, Device.mapElement, Device.mapElement, hf d hd hid]
  · rw [if_neg hid]

/-- A device whose element a mask shows in full is the same device in alike networks. -/
theorem Alike.device?_eq (h : Alike mask n m) (hd : n.device? id = some d)
    (hshown : d.element.Shown mask) : m.device? id = some d := by
  obtain ⟨e, he, hid, hpins, hmask⟩ := h.exists_device? hd
  rw [he, Device.eq_of_parts hid (hshown e.element hmask) hpins]

end Network

end Breadboard
