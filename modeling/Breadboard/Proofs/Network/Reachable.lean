import Breadboard.Network.Connection
import Breadboard.Network.Declaration
import Breadboard.Proofs.Names.Interning
import Breadboard.Proofs.Network.Phases

/-!
# Reachable networks

A network is reached from an empty one by requests in any order: to declare devices and connections,
to set switches and clocks, and to run and rewind. A request that is refused leaves the network as
it is, and a cycle that finds no rest leaves it as the cycle left it. What a request makes of a
network is said once for each (`setSwitch?_eq_update`, `declared_of_declare`, `connect_eq_update`).
Whatever the requests, devices have names of their own (`Reachable.wellFormed`).
-/

set_option autoImplicit false
set_option relaxedAutoImplicit false

namespace Breadboard

/-- What can be asked of a network. -/
inductive Request
  | addDevice (id : NameId) (kind : Kind)
  | addInputs (id : NameId) (count : Nat)
  | setSwitch (id : NameId) (level : Level)
  | setHalfPeriod (id : NameId) (cycles : Nat)
  | connect (source : Terminal) (target input : NameId)
  | cycle
  | powerOn
  | clearDevices
  | reset
deriving DecidableEq

namespace Network

variable {n m : Network}

/-- The network after a request. -/
def perform (n : Network) : Request → Network
  | .addDevice id kind => (n.addDevice? id kind).getD n
  | .addInputs id count => (n.addInputs? id count).getD n
  | .setSwitch id level => (n.setSwitch? id level).getD n
  | .setHalfPeriod id cycles => (n.setHalfPeriod? id cycles).getD n
  | .connect source target input => (n.connect source target input).toOption.getD n
  | .cycle => finalState n.cycle
  | .powerOn => n.powerOn
  | .clearDevices => n.clearDevices
  | .reset => n.reset

/-- A network without devices, over the port names of a table. -/
def empty (names : Names) (settings : Settings) : Network where
  ports := (Ports.intern names).1
  settings := settings

@[simp]
theorem ports_empty (names : Names) (settings : Settings) :
    (empty names settings).ports = (Ports.intern names).1 := by
  rw [empty]

/-- Reached from an empty network by some requests. -/
def Reachable (n : Network) : Prop :=
  ∃ (names : Names) (settings : Settings) (requests : List Request),
    requests.foldl perform (empty names settings) = n

/-- What requests make of the empty network over a table of its own. -/
def built (requests : List Request) : Network :=
  requests.foldl perform (empty {} {})

theorem reachable_built (requests : List Request) : (built requests).Reachable :=
  ⟨{}, {}, requests, rfl⟩

theorem Reachable.perform (hn : n.Reachable) (request : Request) :
    (n.perform request).Reachable := by
  obtain ⟨names, settings, requests, rfl⟩ := hn
  exact ⟨names, settings, requests ++ [request], by rw [List.foldl_append]; rfl⟩

/-- What every request keeps holds of every reachable network. -/
theorem Reachable.induction {P : Network → Prop} (hn : n.Reachable)
    (hempty : ∀ names settings, P (empty names settings))
    (hperform : ∀ k request, P k → P (k.perform request)) : P n := by
  obtain ⟨names, settings, requests, rfl⟩ := hn
  have hrun : ∀ k, P k → P (requests.foldl Network.perform k) := by
    induction requests with
    | nil => exact fun k hk ↦ hk
    | cons request rest ih => exact fun k hk ↦ ih _ (hperform k request hk)
  exact hrun _ (hempty names settings)

/-! ### Names and ports -/

theorem distinctNames_update {id : NameId} {f : Device → Device} (hf : ∀ d, (f d).id = d.id)
    (hn : n.DistinctNames) : (n.update id f).DistinctNames := by
  refine (distinctNames_mapDevices fun d ↦ ?_).mpr hn
  split
  · exact hf d
  · rfl

theorem distinctNames_addDevice? {id : NameId} {kind : Kind} (hn : n.DistinctNames)
    (h : n.addDevice? id kind = some m) : m.DistinctNames := by
  rw [addDevice?] at h
  split at h
  · cases h
  · next hfresh =>
    rw [Option.some_inj] at h
    rw [← h, DistinctNames, List.map_append, List.map_cons, List.map_nil]
    refine List.nodup_append.mpr ⟨hn, List.nodup_singleton _, ?_⟩
    intro i hi j hj hij
    obtain ⟨d, hd, rfl⟩ := List.mem_map.mp hi
    have hid : d.id = id := hij.trans (List.mem_singleton.mp hj)
    refine hfresh ?_
    rw [contains, ← hid, hn.device?_id hd, Option.isSome_some]

theorem addInputs?_eq_update {id : NameId} {count : Nat} (h : n.addInputs? id count = some m) :
    ∃ f : Device → Device, (∀ d, (f d).id = d.id) ∧ m = n.update id f := by
  obtain ⟨d, -, h⟩ := Option.bind_eq_some_iff.mp h
  split at h
  · refine ⟨_, ?_, (Option.some_inj.mp h).symm⟩
    exact fun _ ↦ rfl
  · cases h

theorem setSwitch?_eq_update {id : NameId} {level : Level} (h : n.setSwitch? id level = some m) :
    (∃ d before, n.device? id = some d ∧ d.element = .switch before) ∧
      m = n.update id (Device.mapElement fun _ ↦ .switch level) := by
  obtain ⟨d, hd, h⟩ := Option.bind_eq_some_iff.mp h
  split at h
  · next before helement => exact ⟨⟨d, before, hd, helement⟩, (Option.some_inj.mp h).symm⟩
  · cases h

theorem alike_of_setSwitch {id : NameId} {level : Level} (hn : n.DistinctNames)
    (h : n.setSwitch? id level = some m) : Alike Element.maskSwitch n m := by
  obtain ⟨⟨d, was, hd, helement⟩, rfl⟩ := setSwitch?_eq_update h
  refine alike_update fun e he hid ↦ ?_
  rw [hn.eq_of_id he (mem_of_device? hd) (hid.trans (id_of_device? hd).symm), helement]
  rfl

theorem setHalfPeriod?_eq_update {id : NameId} {cycles : Nat}
    (h : n.setHalfPeriod? id cycles = some m) :
    ∃ d halfPeriod counter output, n.device? id = some d ∧
      d.element = .clock halfPeriod counter output ∧
        m = n.update id (Device.mapElement fun _ ↦ .clock cycles 0 output) := by
  rw [setHalfPeriod?] at h
  split at h
  · cases h
  · obtain ⟨d, hd, h⟩ := Option.bind_eq_some_iff.mp h
    split at h
    · next helement => exact ⟨d, _, _, _, hd, helement, (Option.some_inj.mp h).symm⟩
    · cases h

/-- All that can come of what is said of a device, and of which device it can be said. -/
inductive Declared (n : Network) (id : NameId) : Clause → Network → Prop
  | define {kind : Kind} : n.device? id = none →
    Declared n id (.define kind) { n with devices := n.devices ++ [Device.make n.ports id kind] }
  | inputs {d : Device} {count : Nat} : n.device? id = some d → d.inputsRefusal? count = none →
    Declared n id (.inputs count) ((n.addInputs? id count).getD n)
  | halfPeriod {d : Device} {before counter cycles : Nat} {output : Level} :
    n.device? id = some d → d.element = .clock before counter output →
    Declared n id (.halfPeriod cycles)
      (n.update id (Device.mapElement fun _ ↦ .clock cycles 0 output))
  | level {d : Device} {before level : Level} : n.device? id = some d →
    d.element = .switch before →
    Declared n id (.level level) (n.update id (Device.mapElement fun _ ↦ .switch level))

theorem declared_of_declare {id : NameId} {clause : Clause} (h : n.declare id clause = .ok m) :
    n.Declared id clause m := by
  cases clause with
  | define kind =>
    rw [declare, addDevice?] at h
    split at h
    · cases h
    · next hfresh =>
      cases h
      exact .define (Option.not_isSome_iff_eq_none.mp hfresh)
  | inputs count =>
    rw [declare] at h
    split at h
    · cases h
    · next d hd =>
      split at h
      · cases h
      · next hrefusal =>
        cases h
        exact .inputs hd hrefusal
  | halfPeriod cycles =>
    rw [declare] at h
    split at h
    · cases hset : n.setHalfPeriod? id cycles with
      | none =>
        rw [hset] at h
        cases h
      | some found =>
        rw [hset] at h
        cases h
        obtain ⟨d, before, counter, output, hd, helement, rfl⟩ := setHalfPeriod?_eq_update hset
        exact .halfPeriod hd helement
    · cases h
  | level level =>
    rw [declare] at h
    split at h
    · cases hset : n.setSwitch? id level with
      | none =>
        rw [hset] at h
        cases h
      | some found =>
        rw [hset] at h
        cases h
        obtain ⟨⟨d, before, hd, helement⟩, rfl⟩ := setSwitch?_eq_update hset
        exact .level hd helement
    · cases h

theorem connect_eq_update {source : Terminal} {target input : NameId}
    (h : (n.connect source target input).toOption = some m) :
    m = n.update target (Device.drive input source) := by
  rw [connect] at h
  split at h
  · cases h
  · exact (Option.some_inj.mp h).symm

/-- Devices have names of their own, and so have the outputs of a flip-flop. -/
structure WellFormed (n : Network) : Prop where
  distinctNames : n.DistinctNames
  q_ne_qbar : n.ports.q ≠ n.ports.qbar

theorem wellFormed_empty (names : Names) (settings : Settings) :
    (empty names settings).WellFormed where
  distinctNames := List.nodup_nil
  q_ne_qbar := by
    rw [ports_empty]
    exact Ports.q_ne_qbar names

theorem WellFormed.update (hn : n.WellFormed) {id : NameId} {f : Device → Device}
    (hf : ∀ d, (f d).id = d.id) : (n.update id f).WellFormed :=
  ⟨distinctNames_update hf hn.distinctNames, hn.q_ne_qbar⟩

theorem WellFormed.alike {mask : Element → Element} (hn : n.WellFormed) (h : Alike mask n m) :
    m.WellFormed :=
  ⟨h.distinctNames hn.distinctNames, h.ports ▸ hn.q_ne_qbar⟩

theorem WellFormed.getD {result : Option Network} (hn : n.WellFormed)
    (h : ∀ m, result = some m → m.WellFormed) : (result.getD n).WellFormed := by
  cases hresult : result with
  | none => exact hn
  | some m => exact h m hresult

theorem WellFormed.perform (hn : n.WellFormed) (request : Request) :
    (n.perform request).WellFormed := by
  have hnames := hn.distinctNames
  cases request with
  | addDevice id kind =>
    refine hn.getD fun m h ↦ ⟨distinctNames_addDevice? hnames h, ?_⟩
    rw [addDevice?] at h
    split at h
    · cases h
    · rw [← Option.some_inj.mp h]
      exact hn.q_ne_qbar
  | addInputs id count =>
    refine hn.getD fun m h ↦ ?_
    obtain ⟨f, hf, rfl⟩ := addInputs?_eq_update h
    exact hn.update hf
  | setSwitch id level =>
    refine hn.getD fun m h ↦ ?_
    rw [(setSwitch?_eq_update h).2]
    exact hn.update fun _ ↦ rfl
  | setHalfPeriod id cycles =>
    refine hn.getD fun m h ↦ ?_
    obtain ⟨_, _, _, output, -, -, rfl⟩ := setHalfPeriod?_eq_update h
    exact hn.update fun _ ↦ rfl
  | connect source target input =>
    refine hn.getD fun m h ↦ ?_
    rw [connect_eq_update h]
    exact hn.update fun _ ↦ rfl
  | cycle => exact hn.alike (sameWiring_cycle hnames)
  | powerOn => exact hn.alike (sameWiring_powerOn hnames)
  | clearDevices => exact hn.alike (sameWiring_clearDevices n)
  | reset => exact hn.alike (sameWiring_reset hnames)

/-- Every reachable network is well formed. -/
theorem Reachable.wellFormed (hn : n.Reachable) : n.WellFormed :=
  hn.induction wellFormed_empty fun _ request hk ↦ hk.perform request

end Network

end Breadboard
