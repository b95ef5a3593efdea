import Breadboard.Proofs.Network.Reachable

/-!
# Drivers

All that a request can do to the connections of a network is to declare a device, to give inputs to
a device that has none, and to let an output that is there drive an input that nothing drives
(`rewired_perform`). So whatever is driven is driven by an output that is there
(`Reachable.isSome_output?_of_driver?`), and an input keeps its driver (`driver?_foldl_perform`).
-/

set_option autoImplicit false
set_option relaxedAutoImplicit false

namespace Breadboard

/-- A device has the outputs of its kind. -/
theorem isSome_output?_iff {ports : Ports} {d : Device} {port : Option NameId} :
    (d.output? ports port).isSome ↔
      match d.kind with
      | .flipFlop => port = some ports.q ∨ port = some ports.qbar
      | _ => port = none := by
  rw [Device.output?, List.lookup_isSome_iff, Device.outputs, Device.kind]
  cases d.element with
  | flipFlop q lastClock =>
    dsimp only [Element.kind]
    split
    · simp
    · simp [or_comm]
  | _ => simp [Element.kind]

/-! ### Inputs of a device -/

namespace Device

variable {d : Device} {port other : NameId} {source : Terminal}

theorem driver?_congr {e : Device} (h : d.pins = e.pins) (port : NameId) :
    d.driver? port = e.driver? port := by
  rw [driver?, driver?, pin?, pin?, h]

/-- Pins that nothing drives have no driver. -/
theorem driver?_of_open {list : List NameId} (h : d.pins = openPins list) (port : NameId) :
    d.driver? port = none := by
  refine Option.bind_eq_none_iff.mpr fun pin hpin ↦ ?_
  have hmem := List.mem_of_find?_eq_some hpin
  rw [h] at hmem
  obtain ⟨_, -, rfl⟩ := List.mem_map.mp hmem
  rfl

theorem id_open (list : List NameId) (d : Device) :
    ({ d with pins := openPins list } : Device).id = d.id := rfl

theorem id_drive (port : NameId) (source : Terminal) (d : Device) :
    (d.drive port source).id = d.id := rfl

theorem pin?_drive (d : Device) (port other : NameId) (source : Terminal) :
    (d.drive port source).pin? other =
      (d.pin? other).map fun pin ↦
        if other = port then { pin with driver := some source } else pin := by
  have hport : ((fun pin : Pin ↦ pin.port == other) ∘ fun pin ↦
      if pin.port = port then { pin with driver := some source } else pin) =
        fun pin ↦ pin.port == other := by
    funext pin
    rw [Function.comp]
    split <;> rfl
  rw [pin?, drive, List.find?_map, hport, pin?]
  cases hpin : d.pins.find? fun pin ↦ pin.port == other with
  | none => rfl
  | some pin =>
    have hother : pin.port = other := by simpa using List.find?_some hpin
    rw [Option.map_some, Option.map_some, hother]

/-- A driver that is set leaves those of the other inputs alone. -/
theorem driver?_drive_of_ne (d : Device) (source : Terminal) (h : other ≠ port) :
    (d.drive port source).driver? other = d.driver? other := by
  simp only [driver?, pin?_drive, if_neg h, Option.map_id']

theorem driver?_drive_self {driver : Terminal}
    (h : (d.drive port source).driver? port = some driver) : driver = source := by
  rw [driver?, pin?_drive] at h
  obtain ⟨pin, hpin, hdriver⟩ := Option.bind_eq_some_iff.mp h
  obtain ⟨before, -, rfl⟩ := Option.map_eq_some_iff.mp hpin
  rw [if_pos rfl] at hdriver
  exact (Option.some.inj hdriver).symm

end Device

namespace Network

variable {n m : Network} {d src dst : Device} {id port target input : NameId}
  {source t : Terminal} {f : Device → Device}

/-! ### Outputs that are there -/

theorem isSome_output?_iff_exists : (n.output? t).isSome ↔
    ∃ d, n.device? t.device = some d ∧ (d.output? n.ports t.port).isSome := by
  rw [output?, Option.isSome_bind, Option.any_eq_true]

/-- Networks with the same wiring have the same outputs. -/
theorem SameWiring.isSome_output? (h : SameWiring n m) (ht : (n.output? t).isSome) :
    (m.output? t).isSome := by
  obtain ⟨d, hd, houtput⟩ := isSome_output?_iff_exists.mp ht
  obtain ⟨e, he, -, -, hkind⟩ := h.exists_device? hd
  rw [isSome_output?_iff, ← hkind] at houtput
  rw [Network.output?, he, Option.bind_some, ← Alike.ports h]
  exact isSome_output?_iff.mpr houtput

/-- The outputs that are listed are those that are there. -/
theorem mem_terminals_iff (hn : n.DistinctNames) : t ∈ n.terminals ↔ (n.output? t).isSome := by
  constructor
  · intro h
    obtain ⟨d, hd, hmem⟩ := List.mem_flatMap.mp h
    obtain ⟨output, houtput, rfl⟩ := List.mem_map.mp hmem
    rw [Network.output?, hn.device?_id hd, Option.bind_some, Device.output?,
      List.lookup_isSome_iff]
    exact ⟨output, houtput, beq_self_eq_true _⟩
  · intro h
    obtain ⟨d, hd, houtput⟩ := isSome_output?_iff_exists.mp h
    rw [Device.output?, List.lookup_isSome_iff] at houtput
    obtain ⟨output, hmem, hport⟩ := houtput
    refine List.mem_flatMap.mpr ⟨d, mem_of_device? hd, List.mem_map.mpr ⟨output, hmem, ?_⟩⟩
    rw [id_of_device? hd, ← beq_iff_eq.mp hport]

/-- No output is listed twice. -/
theorem nodup_terminals (hn : n.DistinctNames) (hports : n.ports.q ≠ n.ports.qbar) :
    n.terminals.Nodup := by
  refine List.nodup_flatMap.mpr ⟨fun d _ ↦ ?_, ?_⟩
  · rw [Device.outputs]
    split
    · exact List.nodup_singleton _
    · exact List.nodup_singleton _
    · exact List.nodup_singleton _
    · split <;> simp [hports, hports.symm]
  · have hids : n.devices.Pairwise fun d e ↦ d.id ≠ e.id := List.pairwise_map.mp hn
    refine hids.imp fun hne ↦ ?_
    rw [Function.onFun_apply, List.disjoint_left]
    intro u hd he
    obtain ⟨_, _, hfirst⟩ := List.mem_map.mp hd
    obtain ⟨_, _, hsecond⟩ := List.mem_map.mp he
    exact hne (congrArg Terminal.device (hfirst.trans hsecond.symm))

/-- The wiring settles which outputs there are. -/
theorem SameWiring.terminals_eq (h : SameWiring n m) : n.terminals = m.terminals := by
  have hmask : ∀ k : Network, k.terminals =
      (k.devices.map (Device.mapElement Element.maskState)).flatMap
        fun d ↦ (d.outputs k.ports).map fun output ↦ ⟨d.id, output.1⟩ := by
    intro k
    rw [terminals, List.flatMap_map]
    refine List.flatMap_congr fun d _ ↦ ?_
    rw [Device.outputs, Device.outputs, Device.mapElement]
    cases d.element with
    | flipFlop q lastClock =>
      dsimp only [Element.maskState, Element.kind, Element.ofKind]
      split <;> rfl
    | _ => rfl
  rw [hmask n, hmask m, Alike.devices h, Alike.ports h]

/-! ### Connections that are allowed -/

/-- What stands in the way of a connection between devices that are there. -/
theorem connectionError?_of_devices (hsrc : n.device? source.device = some src)
    (hdst : n.device? target = some dst) :
    n.connectionError? source target input = none ↔
      (∀ port, source.port = some port → src.pin? port = none) ∧
        (∃ pin, dst.pin? input = some pin ∧ pin.driver = none) ∧
          (src.output? n.ports source.port).isSome := by
  have hany : (source.port.any fun port ↦ (src.pin? port).isSome) = false ↔
      ∀ port, source.port = some port → src.pin? port = none := by
    cases source.port <;> simp
  rw [Network.connectionError?, hsrc, hdst]
  dsimp only
  rw [← hany]
  cases hpin : dst.pin? input with
  | none =>
    split <;> simp
  | some pin =>
    cases source.port.any fun port ↦ (src.pin? port).isSome with
    | true => simp
    | false =>
      cases src.output? n.ports source.port <;> cases pin.driver <;> simp

theorem exists_of_connectionError? (hnone : n.connectionError? source target input = none) :
    ∃ src dst, n.device? source.device = some src ∧ n.device? target = some dst := by
  rw [Network.connectionError?] at hnone
  split at hnone
  · next src dst hsrc hdst => exact ⟨src, dst, hsrc, hdst⟩
  · cases hnone

/-! ### What requests do to the connections -/

/-- What drives an input of a device. -/
def driver? (n : Network) (id port : NameId) : Option Terminal :=
  (n.device? id).bind fun d ↦ d.driver? port

/-- All that a request can do to the connections. -/
inductive Rewired (n : Network) : Network → Prop
  | same {m : Network} (h : SameWiring n m) : Rewired n m
  | declared {id : NameId} (hid : n.device? id = none) (kind : Kind) :
    Rewired n { n with devices := n.devices ++ [Device.make n.ports id kind] }
  | opened {id : NameId} {d : Device} (hd : n.device? id = some d) (hpins : d.pins = [])
    (list : List NameId) : Rewired n (n.update id fun d ↦ { d with pins := openPins list })
  | driven {target input : NameId} {source : Terminal} {d : Device}
    (hd : n.device? target = some d) (hopen : d.driver? input = none)
    (hsource : (n.output? source).isSome) : Rewired n (n.update target (Device.drive input source))

theorem sameWiring_setHalfPeriod (hn : n.DistinctNames) {cycles : Nat}
    (h : n.setHalfPeriod? id cycles = some m) : SameWiring n m := by
  obtain ⟨d, _, _, _, hd, helement, rfl⟩ := setHalfPeriod?_eq_update h
  refine alike_update fun e he hid ↦ ?_
  rw [hn.eq_of_id he (mem_of_device? hd) (hid.trans (id_of_device? hd).symm), helement]
  rfl

theorem Rewired.getD {result : Option Network} (h : ∀ m, result = some m → n.Rewired m) :
    n.Rewired (result.getD n) := by
  cases hresult : result with
  | none => exact .same (Alike.refl ..)
  | some m => exact h m hresult

theorem rewired_connect (n : Network) (source : Terminal) (target input : NameId) :
    n.Rewired (n.perform (.connect source target input)) := by
  refine .getD fun m h ↦ ?_
  rw [connect_eq_update h]
  rw [connect] at h
  split at h
  · cases h
  · next hnone =>
    obtain ⟨src, dst, hsrc, hdst⟩ := exists_of_connectionError? hnone
    obtain ⟨-, ⟨pin, hpin, hopen⟩, houtput⟩ := (connectionError?_of_devices hsrc hdst).mp hnone
    refine .driven hdst ?_ (isSome_output?_iff_exists.mpr ⟨src, hsrc, houtput⟩)
    rw [Device.driver?, hpin, Option.bind_some, hopen]

theorem rewired_perform (hn : n.DistinctNames) (request : Request) :
    n.Rewired (n.perform request) := by
  cases request with
  | addDevice id kind =>
    refine .getD fun m h ↦ ?_
    rw [addDevice?] at h
    split at h
    · cases h
    · next hfresh =>
      obtain rfl := Option.some_inj.mp h
      exact .declared (Option.not_isSome_iff_eq_none.mp hfresh) kind
  | addInputs id count =>
    refine .getD fun m h ↦ ?_
    obtain ⟨d, hd, h⟩ := Option.bind_eq_some_iff.mp h
    split at h
    · next hopen =>
      obtain rfl := Option.some_inj.mp h
      exact .opened hd hopen.2.1 _
    · cases h
  | setSwitch id level =>
    refine .getD fun m h ↦ .same ((alike_of_setSwitch hn h).sameWiring fun element ↦ ?_)
    cases element <;> rfl
  | setHalfPeriod id cycles => exact .getD fun m h ↦ .same (sameWiring_setHalfPeriod hn h)
  | connect source target input => exact rewired_connect n source target input
  | cycle => exact .same (sameWiring_cycle hn)
  | powerOn => exact .same (sameWiring_powerOn hn)
  | clearDevices => exact .same (sameWiring_clearDevices n)
  | reset => exact .same (sameWiring_reset hn)

theorem device?_declared (n : Network) (device : Device) (id : NameId) :
    { n with devices := n.devices ++ [device] }.device? id =
      (n.device? id).or (if device.id = id then some device else none) := by
  rw [device?, List.find?_append, List.find?_singleton, device?]
  simp only [beq_iff_eq]

theorem SameWiring.driver? (h : SameWiring n m) (hdriver : n.driver? id port = some source) :
    m.driver? id port = some source := by
  obtain ⟨d, hd, hsource⟩ := Option.bind_eq_some_iff.mp hdriver
  obtain ⟨e, he, -, hpins, -⟩ := h.exists_device? hd
  rw [Network.driver?, he, Option.bind_some, Device.driver?_congr hpins, hsource]

theorem Rewired.ports (h : n.Rewired m) : m.ports = n.ports := by
  cases h with
  | same h => exact (Alike.ports h).symm
  | declared => rfl
  | opened => rfl
  | driven => rfl

theorem driver?_update (hf : ∀ d, (f d).id = d.id) (other port : NameId) :
    (n.update id f).driver? other port =
      (n.device? other).bind fun d ↦ (if other = id then f d else d).driver? port := by
  rw [driver?, device?_update hf]
  split
  · rw [Option.bind_map]
    rfl
  · rfl

/-- An input keeps its driver. -/
theorem Rewired.driver? (h : n.Rewired m) (hdriver : n.driver? id port = some source) :
    m.driver? id port = some source := by
  obtain ⟨d, hd, hsource⟩ := Option.bind_eq_some_iff.mp hdriver
  cases h with
  | same h => exact h.driver? hdriver
  | declared hid kind =>
    rw [Network.driver?, device?_declared, hd, Option.some_or, Option.bind_some, hsource]
  | @opened target e he hpins list =>
    have hne : id ≠ target := by
      rintro rfl
      obtain rfl := Option.some.inj (hd.symm.trans he)
      have hopen : d.pins = openPins [] := hpins
      rw [Device.driver?_of_open hopen] at hsource
      cases hsource
    rw [driver?_update (Device.id_open list), hd, Option.bind_some, if_neg hne, hsource]
  | @driven target input source' e he hopen _ =>
    rw [driver?_update (Device.id_drive input source'), hd, Option.bind_some]
    split
    · next hid =>
      subst hid
      obtain rfl := Option.some.inj (hd.symm.trans he)
      -- The input that is connected had no driver, so it is another one.
      have hne : port ≠ input := by
        rintro rfl
        rw [hopen] at hsource
        cases hsource
      rw [Device.driver?_drive_of_ne d source' hne, hsource]
    · exact hsource

/-- An output that is there stays there. -/
theorem Rewired.isSome_output? (h : n.Rewired m) (ht : (n.output? t).isSome) :
    (m.output? t).isSome := by
  have hupdate {id : NameId} {f : Device → Device} (hid : ∀ d, (f d).id = d.id)
      (hf : ∀ d, (f d).element = d.element) : ((n.update id f).output? t).isSome := by
    obtain ⟨d, hd, houtput⟩ := isSome_output?_iff_exists.mp ht
    rw [isSome_output?_iff_exists, device?_update hid, hd]
    split
    · refine ⟨f d, rfl, ?_⟩
      rwa [Device.output?, Device.outputs, hf]
    · exact ⟨d, rfl, houtput⟩
  cases h with
  | same h => exact h.isSome_output? ht
  | declared hid kind =>
    obtain ⟨d, hd, houtput⟩ := isSome_output?_iff_exists.mp ht
    refine isSome_output?_iff_exists.mpr ⟨d, ?_, houtput⟩
    rw [device?_declared, hd, Option.some_or]
  | opened => exact hupdate (fun _ ↦ rfl) fun _ ↦ rfl
  | driven => exact hupdate (fun _ ↦ rfl) fun _ ↦ rfl

/-- A driver is one from before, or an output from before. -/
theorem Rewired.driver?_or (h : n.Rewired m) (hdriver : m.driver? id port = some source) :
    n.driver? id port = some source ∨ (n.output? source).isSome := by
  cases h with
  | same h => exact .inl (SameWiring.driver? h.symm hdriver)
  | @declared other hid kind =>
    obtain ⟨d, hd, hsource⟩ := Option.bind_eq_some_iff.mp hdriver
    rw [device?_declared] at hd
    refine .inl ?_
    cases hbefore : n.device? id with
    | some e =>
      rw [hbefore, Option.some_or, Option.some_inj] at hd
      rw [Network.driver?, hbefore, Option.bind_some, hd, hsource]
    | none =>
      rw [hbefore, Option.none_or] at hd
      split at hd
      · rw [Option.some_inj] at hd
        subst hd
        rw [Device.driver?_of_open rfl] at hsource
        cases hsource
      · cases hd
  | @opened target e he hpins list =>
    rw [driver?_update (Device.id_open list)] at hdriver
    obtain ⟨d, hd, hsource⟩ := Option.bind_eq_some_iff.mp hdriver
    split at hsource
    · rw [Device.driver?_of_open rfl] at hsource
      cases hsource
    · exact .inl (Option.bind_eq_some_iff.mpr ⟨d, hd, hsource⟩)
  | @driven target input source' e he hopen houtput =>
    rw [driver?_update (Device.id_drive input source')] at hdriver
    obtain ⟨d, hd, hsource⟩ := Option.bind_eq_some_iff.mp hdriver
    split at hsource
    · by_cases hport : port = input
      · subst hport
        exact .inr (Device.driver?_drive_self hsource ▸ houtput)
      · rw [Device.driver?_drive_of_ne d source' hport] at hsource
        exact .inl (Option.bind_eq_some_iff.mpr ⟨d, hd, hsource⟩)
    · exact .inl (Option.bind_eq_some_iff.mpr ⟨d, hd, hsource⟩)

/-! ### Whatever is requested -/

/-- Whatever is driven is driven by an output that is there. -/
theorem Reachable.isSome_output?_of_driver? (hn : n.Reachable)
    (hdriver : n.driver? id port = some source) : (n.output? source).isSome := by
  have hall : n.WellFormed ∧
      ∀ id port source, n.driver? id port = some source → (n.output? source).isSome := by
    refine Reachable.induction (P := fun k ↦ k.WellFormed ∧
      ∀ id port source, k.driver? id port = some source → (k.output? source).isSome) hn ?_ ?_
    · exact fun names settings ↦ ⟨wellFormed_empty names settings, nofun⟩
    · rintro k request ⟨hk, hdrivers⟩
      have hrewired := rewired_perform hk.distinctNames request
      refine ⟨hk.perform request, fun id port source h ↦ hrewired.isSome_output? ?_⟩
      exact (hrewired.driver?_or h).elim (hdrivers id port source) fun houtput ↦ houtput
  exact hall.2 id port source hdriver

/-- The ports stay, whatever is requested. -/
theorem ports_foldl_perform (hn : n.WellFormed) (requests : List Request) :
    (requests.foldl perform n).ports = n.ports := by
  induction requests generalizing n with
  | nil => rfl
  | cons request rest ih =>
    exact (ih (hn.perform request)).trans (rewired_perform hn.distinctNames request).ports

/-- An input keeps its driver, whatever is requested. -/
theorem driver?_foldl_perform (hn : n.WellFormed) (requests : List Request)
    (hdriver : n.driver? id port = some source) :
    (requests.foldl perform n).driver? id port = some source := by
  induction requests generalizing n with
  | nil => exact hdriver
  | cons request rest ih =>
    exact ih (hn.perform request) ((rewired_perform hn.distinctNames request).driver? hdriver)

end Network

end Breadboard
