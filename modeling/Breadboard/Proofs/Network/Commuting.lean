import Breadboard.Proofs.Network.Drivers
import Mathlib.Data.List.Perm.Basic

/-!
# Connections in any order

Whether a connection is refused, and for what, depends on the devices, their ports, and the driver
of the one input that it is for. To connect another input changes nothing of that
(`connectionError?_update_drive`), and two inputs may be connected in either order
(`update_drive_comm`). So requests for different inputs have the outcomes that they have by
themselves, whatever the order (`wireAll_of_nodup`), and lead to the same network
(`foldl_wire_perm`). Of several requests for one input the first that is granted is the last: the
input is driven from then on (`granted_wireAll`).
-/

set_option autoImplicit false
set_option relaxedAutoImplicit false

namespace Breadboard

/-- A request to let an output drive an input of a device. -/
structure Wire where
  source : Terminal
  target : NameId
  input : NameId
deriving DecidableEq

/-- The input that a wire is for. -/
def Wire.place (w : Wire) : NameId × NameId :=
  (w.target, w.input)

namespace Device

variable {d : Device} {port other : NameId} {source source' : Terminal}

theorem drive_comm (d : Device) (h : port ≠ other) :
    (d.drive port source).drive other source' = (d.drive other source').drive port source := by
  rw [drive, drive, drive, drive, List.map_map, List.map_map]
  congr 1
  refine List.map_congr_left fun pin _ ↦ ?_
  simp only [Function.comp_apply]
  by_cases hport : pin.port = port
  · simp [hport, h]
  · simp only [hport, if_false]
    split <;> simp_all

theorem pin?_drive_of_ne (d : Device) (source : Terminal) (h : other ≠ port) :
    (d.drive port source).pin? other = d.pin? other := by
  simp only [pin?_drive, if_neg h, Option.map_id']

theorem isSome_pin?_drive (d : Device) (port other : NameId) (source : Terminal) :
    ((d.drive port source).pin? other).isSome = (d.pin? other).isSome := by
  rw [pin?_drive, Option.isSome_map]

end Device

namespace Network

variable {n m : Network} {v w : Wire} {ws : List Wire} {source : Terminal}
  {target input : NameId}

/-! ### One request -/

/-- What comes of a request: nothing is returned, or why it is refused. -/
def outcome (n : Network) (w : Wire) : Except ConnectionError Unit :=
  (n.connect w.source w.target w.input).map fun _ ↦ ()

/-- The network after a request. -/
def wire (n : Network) (w : Wire) : Network :=
  n.perform (.connect w.source w.target w.input)

/-- Requests made one after another, with the outcome of each, and the network after them. -/
def wireAll (n : Network) : List Wire → List (Except ConnectionError Unit) × Network
  | [] => ([], n)
  | w :: rest => (n.outcome w :: ((n.wire w).wireAll rest).1, ((n.wire w).wireAll rest).2)

theorem outcome_eq (n : Network) (w : Wire) : n.outcome w =
    (n.connectionError? w.source w.target w.input).elim (.ok ()) .error := by
  rw [outcome, connect]
  cases n.connectionError? w.source w.target w.input <;> rfl

theorem outcome_eq_ok_iff :
    n.outcome w = .ok () ↔ n.connectionError? w.source w.target w.input = none := by
  rw [outcome_eq]
  cases n.connectionError? w.source w.target w.input <;> simp

/-- A request that is granted drives its input, and one that is refused changes nothing. -/
theorem wire_eq (n : Network) (w : Wire) : n.wire w =
    if n.connectionError? w.source w.target w.input = none then
      n.update w.target (Device.drive w.input w.source)
    else n := by
  rw [wire, perform, connect]
  cases n.connectionError? w.source w.target w.input <;> rfl

theorem wire_of_refused (h : n.outcome w ≠ .ok ()) : n.wire w = n := by
  rw [wire_eq, if_neg (mt outcome_eq_ok_iff.mpr h)]

/-! ### Requests for different inputs -/

/-- To drive an input makes no difference to what stands in the way of connecting another. -/
theorem connectionError?_update_drive (h : (target, input) ≠ v.place) :
    (n.update v.target (Device.drive v.input v.source)).connectionError? source target input =
      n.connectionError? source target input := by
  have hdrive := Device.id_drive v.input v.source
  have hport {d : Device} (p : Prop) [Decidable p] (port : NameId) :
      ((if p then d.drive v.input v.source else d).pin? port).isSome = (d.pin? port).isSome := by
    split
    · exact d.isSome_pin?_drive ..
    · rfl
  have houtput {d : Device} (p : Prop) [Decidable p] (port : Option NameId) :
      (if p then d.drive v.input v.source else d).output? n.ports port =
        d.output? n.ports port := by
    split <;> rfl
  have hinput {d : Device} :
      (if target = v.target then d.drive v.input v.source else d).pin? input = d.pin? input := by
    split
    · next htarget => exact d.pin?_drive_of_ne _ fun hsame ↦ h (Prod.ext htarget hsame)
    · rfl
  have hdevice (id : NameId) : (n.update v.target (Device.drive v.input v.source)).device? id =
      (n.device? id).map fun d ↦ if id = v.target then d.drive v.input v.source else d := by
    rw [device?_update hdrive]
    split
    · rfl
    · rw [Option.map_id']
  rw [connectionError?, connectionError?, hdevice, hdevice]
  cases n.device? source.device with
  | none => rfl
  | some src =>
    cases n.device? target with
    | none => rfl
    | some dst =>
      simp only [Option.map_some, ports_update, hport, houtput, hinput]

/-- Two inputs may be driven in either order. -/
theorem update_drive_comm (h : v.place ≠ w.place) :
    (n.update v.target (Device.drive v.input v.source)).update w.target
        (Device.drive w.input w.source) =
      (n.update w.target (Device.drive w.input w.source)).update v.target
        (Device.drive v.input v.source) := by
  simp only [update, mapDevices, List.map_map]
  congr 1
  refine List.map_congr_left fun d _ ↦ ?_
  simp only [Function.comp_apply]
  by_cases hv : d.id = v.target
  · by_cases hw : d.id = w.target
    · have hinput : v.input ≠ w.input := fun hsame ↦ h (Prod.ext (hv.symm.trans hw) hsame)
      rw [if_pos hv, if_pos hw, if_pos (by exact hw), if_pos (by exact hv),
        Device.drive_comm d hinput]
    · rw [if_pos hv, if_neg hw, if_neg (by exact hw), if_pos hv]
  · rw [if_neg hv, if_neg (c := (if d.id = w.target then _ else d).id = v.target)]
    split <;> exact hv

/-- A request does not depend on what was asked for another input before. -/
theorem connectionError?_wire_of_ne (h : v.place ≠ w.place) :
    (n.wire v).connectionError? w.source w.target w.input =
      n.connectionError? w.source w.target w.input := by
  rw [wire_eq]
  split
  · exact connectionError?_update_drive (Ne.symm h)
  · rfl

/-- Requests for different inputs may change places. -/
theorem wire_comm (h : v.place ≠ w.place) : (n.wire v).wire w = (n.wire w).wire v := by
  rw [wire_eq (n.wire v), wire_eq (n.wire w), connectionError?_wire_of_ne h,
    connectionError?_wire_of_ne (Ne.symm h), wire_eq n v, wire_eq n w]
  split <;> split
  · exact update_drive_comm h
  · rfl
  · rfl
  · rfl

theorem wireAll_snd (n : Network) (ws : List Wire) : (n.wireAll ws).2 = ws.foldl wire n := by
  induction ws generalizing n with
  | nil => rfl
  | cons w ws ih => exact ih (n.wire w)

/-- Requests for different inputs have the outcomes that they have by themselves. -/
theorem wireAll_of_nodup (h : (ws.map Wire.place).Nodup) :
    (n.wireAll ws).1 = ws.map n.outcome := by
  induction ws generalizing n with
  | nil => rfl
  | cons w ws ih =>
    obtain ⟨hfirst, hrest⟩ := List.nodup_cons.mp h
    rw [wireAll, ih hrest, List.map_cons]
    refine congrArg _ (List.map_congr_left fun v hv ↦ ?_)
    have hplace : w.place ≠ v.place := fun hsame ↦ hfirst (hsame ▸ List.mem_map_of_mem hv)
    rw [outcome_eq, outcome_eq, connectionError?_wire_of_ne hplace]

/-- Requests for different inputs lead to the same network in every order. -/
theorem foldl_wire_perm {vs : List Wire} (h : (ws.map Wire.place).Nodup) (hperm : ws.Perm vs) :
    vs.foldl wire n = ws.foldl wire n := by
  refine (hperm.foldl_eq' (fun v hv w hw k ↦ ?_) n).symm
  by_cases hsame : v = w
  · rw [hsame]
  · exact wire_comm fun hplace ↦ hsame (List.inj_on_of_nodup_map h hv hw hplace)

/-! ### Requests for one input -/

/-- What is asked for one after another with its outcome, and what has become of it in the end. -/
structure Granted (n : Network) (ws : List Wire) : Prop where
  /-- There is an outcome for each request. -/
  length : (n.wireAll ws).1.length = ws.length
  /-- Of the requests for one input at most one is granted. -/
  once : (ws.zip (n.wireAll ws).1).Pairwise fun first later ↦
    first.1.place = later.1.place → first.2 = .ok () → later.2 ≠ .ok ()
  /-- An input that is connected on request has this driver in the end. -/
  driven : ∀ w, (w, .ok ()) ∈ ws.zip (n.wireAll ws).1 →
    (n.wireAll ws).2.driver? w.target w.input = some w.source
  /-- An input that has a driver keeps it. -/
  held : ∀ id port source, n.driver? id port = some source →
    (n.wireAll ws).2.driver? id port = some source
  /-- Requests that are refused leave nothing behind: without them the network is the same. -/
  refused : (n.wireAll ws).2 =
    (((ws.zip (n.wireAll ws).1).filter fun request ↦ request.2.isOk).map Prod.fst).foldl wire n

theorem driver?_of_wire {id port : NameId} (h : n.driver? id port = some source) :
    (n.wire w).driver? id port = some source :=
  (rewired_connect n w.source w.target w.input).driver? h

theorem driver?_wireAll {id port : NameId} (ws : List Wire)
    (h : n.driver? id port = some source) :
    (n.wireAll ws).2.driver? id port = some source := by
  induction ws generalizing n with
  | nil => exact h
  | cons w ws ih => exact ih (driver?_of_wire h)

/-- A request that is granted drives its input. -/
theorem driver?_wire (h : n.outcome w = .ok ()) :
    (n.wire w).driver? w.target w.input = some w.source := by
  have hnone := outcome_eq_ok_iff.mp h
  obtain ⟨src, dst, hsrc, hdst⟩ := exists_of_connectionError? hnone
  obtain ⟨-, ⟨pin, hpin, -⟩, -⟩ := (connectionError?_of_devices hsrc hdst).mp hnone
  rw [wire_eq, if_pos hnone, driver?_update (Device.id_drive w.input w.source), hdst,
    Option.bind_some, if_pos rfl, Device.driver?, Device.pin?_drive, hpin, Option.map_some,
    if_pos rfl, Option.bind_some]

/-- A request for an input that is driven is refused. -/
theorem outcome_of_driver? (h : n.driver? w.target w.input = some source) :
    n.outcome w ≠ .ok () := by
  intro hok
  have hnone := outcome_eq_ok_iff.mp hok
  obtain ⟨src, dst, hsrc, hdst⟩ := exists_of_connectionError? hnone
  obtain ⟨-, ⟨pin, hpin, hopen⟩, -⟩ := (connectionError?_of_devices hsrc hdst).mp hnone
  rw [driver?, hdst, Option.bind_some, Device.driver?, hpin, Option.bind_some, hopen] at h
  cases h

/-- Every request for an input that is driven is refused. -/
theorem refused_of_driver? (h : n.driver? target input = some source) :
    ∀ request ∈ ws.zip (n.wireAll ws).1, request.1.place = (target, input) →
      request.2 ≠ .ok () := by
  induction ws generalizing n with
  | nil => exact fun _ hmem ↦ absurd hmem List.not_mem_nil
  | cons w ws ih =>
    refine List.forall_mem_cons.mpr ⟨fun hplace ↦ ?_, ih (driver?_of_wire h)⟩
    obtain ⟨rfl, rfl⟩ := Prod.mk.inj hplace
    exact outcome_of_driver? h

theorem granted_wireAll (n : Network) (ws : List Wire) : n.Granted ws := by
  induction ws generalizing n with
  | nil => exact ⟨rfl, .nil, nofun, fun _ _ _ h ↦ h, rfl⟩
  | cons w ws ih =>
    obtain ⟨hlength, honce, hdriven, -, hrefused⟩ := ih (n.wire w)
    refine ⟨congrArg Nat.succ hlength, .cons ?_ honce, ?_, fun _ _ _ ↦ driver?_wireAll _, ?_⟩
    · intro later hlater hplace hok
      exact refused_of_driver? (driver?_wire hok) later hlater hplace.symm
    · intro v hv
      rcases List.mem_cons.mp hv with hfirst | hlater
      · obtain ⟨rfl, hok⟩ := Prod.mk.inj hfirst
        exact driver?_wireAll ws (driver?_wire hok.symm)
      · exact hdriven v hlater
    · by_cases hok : n.outcome w = .ok ()
      · rw [wireAll, List.zip_cons_cons, List.filter_cons_of_pos (by rw [hok]; rfl), List.map_cons,
          List.foldl_cons]
        exact hrefused
      · have hsame := wire_of_refused hok
        rw [wireAll, List.zip_cons_cons, List.filter_cons_of_neg ?_]
        · rw [hsame] at hrefused ⊢
          exact hrefused
        · cases houtcome : n.outcome w with
          | ok => exact absurd houtcome hok
          | error => exact Bool.false_ne_true

end Network

end Breadboard
