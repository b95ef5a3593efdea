import Breadboard.Proofs.Network.Reachable

/-!
# Rewinding a network

To rewind a network is to blank out all that running changes and to power on what is left: the
wiring, the half-periods and the levels of the switches. Running keeps these
(`alike_cycle`), whether cycles succeed or not, so networks that have them in common are the same
once they are rewound (`reset_eq_of_alike`).
-/

set_option autoImplicit false
set_option relaxedAutoImplicit false

namespace Breadboard

namespace Element

/-- An element with nothing left but its kind and its half-period. -/
def maskSetting (element : Element) : Element :=
  element.reset.maskSwitch

theorem reset_maskGate (element : Element) : element.maskGate.reset = element.reset := by
  cases element <;> rfl

theorem reset_maskCycle (element : Element) : element.maskCycle.reset = element.reset := by
  cases element <;> rfl

theorem reset_maskLastClock (element : Element) : element.maskLastClock.reset = element.reset := by
  cases element <;> rfl

@[simp]
theorem reset_reset (element : Element) : element.reset.reset = element.reset := by
  cases element <;> rfl

theorem maskSetting_reset (element : Element) :
    element.reset.maskSetting = element.maskSetting := by
  rw [maskSetting, reset_reset, maskSetting]

theorem maskSetting_maskSwitch (element : Element) :
    element.maskSwitch.maskSetting = element.maskSetting := by
  cases element <;> rfl

@[simp]
theorem kind_maskSetting (element : Element) : element.maskSetting.kind = element.kind := by
  cases element <;> rfl

/-- Only the level of a switch is hidden that rewinding keeps. -/
theorem reset_eq_of_maskSetting {first second : Element}
    (h : first.maskSetting = second.maskSetting) (hkind : first.kind ≠ .switch) :
    first.reset = second.reset := by
  cases first <;> cases second <;> simp_all [maskSetting, maskSwitch, reset, kind]

end Element

/-- The level of a switch, with its name. -/
def Device.switchLevel? (d : Device) : Option (NameId × Level) :=
  match d.element with
  | .switch level => some (d.id, level)
  | _ => none

namespace Network

variable {n m : Network}

/-- The levels of the switches, in the order of their declaration. -/
def switchLevels (n : Network) : List (NameId × Level) :=
  n.devices.filterMap Device.switchLevel?

/-! ### What running keeps -/

/-- However a cycle ends, it keeps what rewinding keeps. -/
theorem alike_cycle (hn : n.DistinctNames) : Alike Element.reset n (finalState n.cycle) := by
  cases hcycle : n.cycle with
  | error left => exact (alike_of_abandoned hn hcycle).coarsen Element.reset_maskCycle
  | ok m =>
    obtain ⟨start, ticked, rested, h, rfl⟩ := cycle_eq_ok_iff.mp hcycle
    have hlike := alike_resting hn h.settle_start h.settle_ticked
    rw [h.settle_rested] at hlike
    exact (hlike.coarsen Element.reset_maskCycle).trans
      ((alike_rememberClocks rested).coarsen Element.reset_maskLastClock)

theorem alike_clearDevices (n : Network) : Alike Element.reset n n.clearDevices := by
  refine alike_mapDevices fun d _ ↦ ?_
  rw [Device.mapElement, Device.mapElement, Element.reset_reset]

theorem alike_powerOn_reset (hn : n.DistinctNames) : Alike Element.reset n n.powerOn :=
  ((alike_settle hn).coarsen Element.reset_maskGate).trans
    ((alike_rememberClocks _).coarsen Element.reset_maskLastClock)

theorem alike_reset (hn : n.DistinctNames) : Alike Element.reset n n.reset :=
  (alike_clearDevices n).trans
    (alike_powerOn_reset ((alike_clearDevices n).distinctNames hn))

/-! ### What rewinding depends on -/

/-- Networks alike in what rewinding keeps are the same once they are rewound. -/
theorem reset_eq_of_alike (h : Alike Element.reset n m) : n.reset = m.reset :=
  congrArg powerOn h

theorem switchLevel?_eq_none {d : Device} : d.switchLevel? = none ↔ d.kind ≠ .switch := by
  unfold Device.switchLevel? Device.kind
  cases d.element <;> simp [Element.kind]

/-- The elements of a device and its like, with all blanked out that running changes, where the
switches have the same levels. -/
theorem mapElement_reset_eq {d e : Device}
    (h : d.mapElement Element.maskSetting = e.mapElement Element.maskSetting)
    (hlevel : d.switchLevel? = e.switchLevel?) :
    d.mapElement Element.reset = e.mapElement Element.reset := by
  obtain ⟨hid, hmask, hpins⟩ := Device.mk.inj h
  refine Device.eq_of_parts hid ?_ hpins
  by_cases hkind : d.kind = .switch
  · cases hd : d.element <;> cases he : e.element <;>
      simp_all [Device.switchLevel?, Device.kind, Element.kind, Device.mapElement]
  · exact Element.reset_eq_of_maskSetting hmask hkind

theorem map_reset_eq {devices others : List Device}
    (h : devices.map (Device.mapElement Element.maskSetting) =
      others.map (Device.mapElement Element.maskSetting))
    (hlevels : devices.filterMap Device.switchLevel? = others.filterMap Device.switchLevel?) :
    devices.map (Device.mapElement Element.reset) =
      others.map (Device.mapElement Element.reset) := by
  induction devices generalizing others with
  | nil =>
    rw [List.map_nil, eq_comm, List.map_eq_nil_iff] at h
    rw [h]
  | cons d rest ih =>
    cases others with
    | nil => cases h
    | cons e others =>
      obtain ⟨hhead, htail⟩ := List.cons.inj h
      have hkind : d.kind = e.kind := by
        have hsame := congrArg Device.kind hhead
        simpa only [Device.kind, Device.mapElement, Element.kind_maskSetting] using hsame
      -- a switch comes first in the levels of both lists, and any other device in neither
      have hsplit : d.switchLevel? = e.switchLevel? ∧
          rest.filterMap Device.switchLevel? = others.filterMap Device.switchLevel? := by
        by_cases hswitch : d.kind = .switch
        · obtain ⟨level, hd⟩ := Option.ne_none_iff_exists'.mp
            (mt switchLevel?_eq_none.mp (not_not_intro hswitch))
          obtain ⟨level', he⟩ := Option.ne_none_iff_exists'.mp
            (mt switchLevel?_eq_none.mp (not_not_intro (hkind ▸ hswitch)))
          rw [List.filterMap_cons_some hd, List.filterMap_cons_some he] at hlevels
          obtain ⟨hlevel, hrest⟩ := List.cons.inj hlevels
          exact ⟨by rw [hd, he, hlevel], hrest⟩
        · have hd := switchLevel?_eq_none.mpr hswitch
          have he := switchLevel?_eq_none.mpr (hkind ▸ hswitch)
          rw [List.filterMap_cons_none hd, List.filterMap_cons_none he] at hlevels
          exact ⟨by rw [hd, he], hlevels⟩
      rw [List.map_cons, List.map_cons, mapElement_reset_eq hhead hsplit.1, ih htail hsplit.2]

/-- Networks with the same wiring and half-periods whose switches have the same levels are alike in
what rewinding keeps. -/
theorem alike_reset_of_switchLevels (h : Alike Element.maskSetting n m)
    (hlevels : n.switchLevels = m.switchLevels) : Alike Element.reset n m :=
  alike_iff.mpr ⟨h.ports, map_reset_eq h.devices hlevels, h.settings⟩

end Network

end Breadboard
