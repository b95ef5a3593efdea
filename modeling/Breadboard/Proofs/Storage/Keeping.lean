import Breadboard.Monitors
import Breadboard.Proofs.Network.Rebuilding
import Breadboard.Proofs.Storage.Calls
import Mathlib.Algebra.Group.Nat.Defs

/-!
# A network kept in a table

A table takes what is declared and connected, and says what there is, as a program asks it that
keeps its network in a table (`Store`). A statement about a device is looked into before it is
carried out, so that a refusal can say what stands in the way.

Whatever a table in use is asked, nothing is missing, and it answers as the network does that it
stores. What it comes to is in use again, and stores what the network comes to (`Keeps`). The same
holds of monitors on a table, if the outputs that are watched are there.
-/

set_option autoImplicit false
set_option relaxedAutoImplicit false

namespace Breadboard

variable {m : Type → Type} [Fallback m]

namespace Table

/-! ### What is asked of a table -/

/-- What comes of an operation that says whether it was carried out. -/
def answer {ε : Type} (error : ε) (result : Bool × Table) : Except ε Table :=
  if result.1 then .ok result.2 else .error error

/-- What a statement says of one device. -/
def declare (id : NameId) (clause : Clause) (t : Table) : m (Except DeclarationError Table) := do
  match clause with
  | .define kind => return answer .alreadyDefined (← makeDevice id kind t)
  | .inputs count =>
    match ← find t id with
    | none => return .error .absent
    | some c =>
      match (c.device t.ports).inputsRefusal? count with
      | some refusal => return .error refusal
      | none =>
        if c.kind.hasVariableInputs then return .ok (← addInputs id count t).2
        else return .ok t
  | .halfPeriod cycles =>
    match ← find t id with
    | none => return .error .absent
    | some _ => return answer .notAClock (← setHalfPeriod id cycles.toUInt32 t)
  | .level level =>
    match ← find t id with
    | none => return .error .absent
    | some _ => return answer .notASwitch (← setSwitch id level t)

/-- A connection that is made, or refused with the reason that is reported. -/
def link (source : Terminal) (target input : NameId) (t : Table) :
    m (Except ConnectionError Table) := do
  match ← connect source target input t with
  | .ok next => return .ok next
  | .error error => return .error (← reported target input t error)

instance : Store m Table where
  empty ports settings := return { ports, settings }
  network t := return t.network
  contains t id := return t.index.contains id
  hasOutput? t output := do
    return (← t.find output.device).map fun c ↦ c.outputs.contains output.port
  output? t output := t.signal? output
  declare t id clause := t.declare id clause
  connect t source target input := t.link source target input
  setSwitch? t id level := do
    let result ← t.setSwitch id level
    return if result.1 then some result.2 else none
  cycle t := t.cycle.run
  powerOn t := t.powerOn
  reset t := t.reset

/-! ### Tables that keep networks -/

variable {t k : Table} {n : Network} {id : NameId} {result : Bool × Table}
  {expected : Option Network} {ε : Type}

/-- A table in use that stores a given network. -/
structure Keeps (t : Table) (n : Network) : Prop extends InUse t where
  network : t.network = n

theorem InUse.keeps (h : t.InUse) : t.Keeps t.network :=
  ⟨h, rfl⟩

/-- A sound table that stores what a request makes of the network of a table in use. -/
theorem InUse.keeps_of_request (h : t.InUse) (call : Call)
    (hrequest : t.network.perform call.request = n) (hk : k.Sound) (hnetwork : k.network = n) :
    k.Keeps n :=
  ⟨h.of_performed ⟨hk, hnetwork.trans hrequest.symm⟩, hnetwork⟩

/-- A call that says whether it was carried out is granted or refused as the network does it. -/
theorem InUse.sameOutcome_answer (h : t.InUse) (call : Call)
    (hrequest : t.network.perform call.request = expected.getD t.network) (error : ε)
    (hanswers : t.Answers expected result) :
    SameOutcome Keeps Eq (answer error result) (expected.elim (.error error) .ok) := by
  rw [answer, hanswers.answer]
  cases expected with
  | none => exact .error rfl
  | some n => exact .ok (h.keeps_of_request call hrequest hanswers.sound hanswers.network)

/-- Inputs are given to a device that may have them, and a device with fixed inputs is left as it
is. -/
theorem InUse.declare_inputs (h : t.InUse) (id : NameId) (count : Nat) :
    WithoutLapse (t.declare id (.inputs count) : m (Except DeclarationError Table))
      (SameOutcome Keeps Eq · (t.network.declare id (.inputs count))) := by
  rw [declare, h.find_eq, pure_bind, Network.declare, h.device?_network]
  cases hc : t.get? id with
  | none => exact .pure (.error rfl)
  | some c =>
    dsimp only [Option.map_some]
    cases (c.device t.ports).inputsRefusal? count with
    | some refusal => exact .pure (.error rfl)
    | none =>
      dsimp only
      split
      · exact (h.ready.addInputs id count).bind fun _ hanswers ↦ .pure (.ok
          (h.keeps_of_request (.addInputs id count) rfl hanswers.sound hanswers.network))
      · next hfixed =>
        have hnone : t.network.addInputs? id count = none := by
          rw [Network.addInputs?, h.device?_network, hc, Option.map_some, Option.bind_some,
            Cell.kind_device]
          exact if_neg fun hallowed ↦ hfixed hallowed.1
        rw [hnone]
        exact .pure (.ok h.keeps)

/-- What is said of a device is carried out or refused as it is in the network. -/
theorem InUse.declare (h : t.InUse) {clause : Clause}
    (hclause : ∀ cycles, clause = .halfPeriod cycles → cycles ≤ 2 ^ 32 - 1) (id : NameId) :
    WithoutLapse (t.declare id clause : m (Except DeclarationError Table))
      (SameOutcome Keeps Eq · (t.network.declare id clause)) := by
  cases clause with
  | define kind =>
    exact (h.ready.makeDevice id kind).bind fun _ hanswers ↦
      .pure (h.sameOutcome_answer (.makeDevice id kind) rfl _ hanswers)
  | inputs count => exact h.declare_inputs id count
  | halfPeriod cycles =>
    have hcycles : cycles.toUInt32.toNat = cycles :=
      UInt32.toNat_ofNat_of_lt' (Nat.lt_of_le_of_lt (hclause cycles rfl) (by decide))
    have hanswers := h.setHalfPeriod (m := m) id cycles.toUInt32
    rw [hcycles] at hanswers
    rw [Table.declare, h.find_eq, pure_bind, Network.declare, Network.contains, h.device?_network,
      Option.isSome_map]
    cases hc : t.get? id with
    | none => exact .pure (.error rfl)
    | some c =>
      refine hanswers.bind fun result hresult ↦ .pure ?_
      refine h.sameOutcome_answer (.setHalfPeriod id cycles.toUInt32) ?_ _ hresult
      rw [Call.request, hcycles]
      rfl
  | level level =>
    rw [Table.declare, h.find_eq, pure_bind, Network.declare, Network.contains, h.device?_network,
      Option.isSome_map]
    cases hc : t.get? id with
    | none => exact .pure (.error rfl)
    | some c =>
      exact (h.setSwitch id level).bind fun _ hanswers ↦
        .pure (h.sameOutcome_answer (.setSwitch id level) rfl _ hanswers)

/-- A connection is made or refused as it is in the network, for the same reason. -/
theorem InUse.link (h : t.InUse) (source : Terminal) (target input : NameId) :
    WithoutLapse (t.link source target input : m (Except ConnectionError Table))
      (SameOutcome Keeps Eq · (t.network.connect source target input)) := by
  refine (h.connect source target input).bind fun result hsame ↦ ?_
  have hrequest : t.network.perform (Call.connect source target input).request =
      (t.network.connect source target input).toOption.getD t.network := rfl
  generalize t.network.connect source target input = expected at hsame hrequest
  cases hsame with
  | ok hk =>
    exact .pure (.ok (h.keeps_of_request (.connect source target input) hrequest hk.1 hk.2))
  | error hreported =>
    dsimp only
    rw [hreported, pure_bind]
    exact .pure (.error rfl)

/-- A switch is set, or not, as it is in the network. -/
theorem InUse.setSwitch? (h : t.InUse) (id : NameId) (level : Level) :
    WithoutLapse (Store.setSwitch? t id level : m (Option Table))
      (Option.Rel Keeps · (t.network.setSwitch? id level)) := by
  refine (h.setSwitch id level).bind fun result hanswers ↦ .pure ?_
  have hrequest : t.network.perform (Call.setSwitch id level).request =
      (t.network.setSwitch? id level).getD t.network := rfl
  rw [hanswers.answer]
  generalize t.network.setSwitch? id level = expected at hanswers hrequest ⊢
  cases expected with
  | none => exact .none
  | some n =>
    exact .some (h.keeps_of_request (.setSwitch id level) hrequest hanswers.sound hanswers.network)

theorem InUse.hasOutput?_eq (h : t.InUse) (output : Terminal) : Store.hasOutput? t output =
    (Store.hasOutput? t.network output : m (Option Bool)) := by
  refine (congrArg (· >>= _) (h.find_eq output.device)).trans ?_
  rw [pure_bind]
  dsimp only [Store.hasOutput?]
  rw [h.device?_network, Option.map_map]
  cases hc : t.get? output.device with
  | none => rfl
  | some c =>
    have houtput := (h.cell_of_get? hc).output?_device h.ports output.port
    rw [Option.map_some, Option.map_some, Function.comp_apply,
      Std.TreeMap.contains_eq_isSome_getElem?, ← houtput]
    rfl

/-! ### Running -/

/-- One cycle, at rest or not. -/
theorem InUse.cycle (h : t.InUse) : WithoutLapse (Store.cycle t : m (Except Table Table))
    (SameOutcome Keeps Keeps · t.network.cycle) := by
  refine WithoutLapse.imp h.ready.cycle fun result hsame ↦ ?_
  have hrequest : t.network.perform Call.cycle.request = Network.finalState t.network.cycle := rfl
  generalize t.network.cycle = expected at hsame hrequest ⊢
  cases hsame with
  | ok hstores => exact .ok (h.keeps_of_request .cycle hrequest hstores.toSound hstores.network)
  | error hstores =>
    exact .error (h.keeps_of_request .cycle hrequest hstores.toSound hstores.network)

theorem InUse.powerOn (h : t.InUse) :
    WithoutLapse (Store.powerOn t : m Table) (Keeps · t.network.powerOn) :=
  h.ready.powerOn.imp fun _ hstores ↦
    h.keeps_of_request .powerOn rfl hstores.toSound hstores.network

theorem InUse.reset (h : t.InUse) :
    WithoutLapse (Store.reset t : m Table) (Keeps · t.network.reset) :=
  h.ready.reset.imp fun _ hstores ↦
    h.keeps_of_request .reset rfl hstores.toSound hstores.network

end Table

/-! ### Monitors -/

namespace Monitors

open Table

variable {t : Table}

/-- An output is watched from now on, or not, as it is on the network. -/
theorem addM_eq (h : t.InUse) (monitors : Monitors) (output : Terminal) :
    monitors.addM t output = (pure (monitors.add t.network output) : m _) := by
  rw [addM, h.hasOutput?_eq, add, addM]
  dsimp only [Store.hasOutput?]
  rw [pure_bind, pure_bind]
  cases t.network.device? output.device with
  | none => rfl
  | some d =>
    dsimp only [Option.map_some]
    cases (d.output? t.network.ports output.port).isSome with
    | false => rfl
    | true => exact (apply_ite pure ..).symm

/-- The low level stands in for nothing, where every watched output is there. -/
theorem recordM_eq (h : t.InUse) {monitors : Monitors}
    (hthere : ∀ output ∈ monitors.outputs, (t.network.output? output).isSome) :
    monitors.recordM t = (pure (monitors.record t.network) : m _) := by
  rw [recordM, record_eq]
  refine (congrArg (· >>= _) (mapM_eq_pure fun p hp ↦ ?_)).trans (pure_bind ..)
  obtain ⟨level, hlevel⟩ :=
    Option.isSome_iff_exists.mp (hthere p.output (List.mem_map_of_mem hp))
  dsimp only [Store.output?]
  rw [h.signal?_eq, pure_bind, hlevel, provided_some, pure_bind, Network.drivenLevel,
    Option.bind_some, hlevel, Option.getD_some]

end Monitors

/-! ### Ports of devices -/

/-- The inputs that a device may have are ports. -/
theorem Cell.mem_all_of_mayHave {ports : Ports} {list : List NameId} {kind : Kind} {port : NameId}
    (h : MayHave ports list kind) (hport : port ∈ list) : port ∈ ports.all := by
  cases kind with
  | switch | clock =>
    rw [show list = [] from h] at hport
    cases hport
  | flipFlop =>
    have hfirst : list = Device.firstInputs ports .flipFlop := h
    exact Network.mem_all_of_mem_firstInputs (hfirst ▸ hport)
  | gate g =>
    suffices htake : list = [] ∨ ∃ count, list = ports.inputs.take count by
      obtain rfl | ⟨count, rfl⟩ := htake
      · cases hport
      · exact Network.mem_all_of_mem_inputs (List.mem_of_mem_take hport)
    cases g with
    | not | xor => exact .inr ⟨_, h⟩
    | _ => exact h.imp_right fun ⟨count, _, _, htake⟩ ↦ ⟨count, htake⟩

/-- The inputs of the devices that are stored are ports. -/
theorem Table.Sound.mem_all_of_mem_pins {t : Table} (h : t.Sound) {d : Device} {pin : Pin}
    (hd : d ∈ t.network.devices) (hpin : pin ∈ d.pins) : pin.port ∈ t.ports.all := by
  obtain ⟨c, hc, rfl⟩ := List.mem_map.mp hd
  obtain ⟨entry, hentry, rfl⟩ := List.mem_map.mp hpin
  obtain ⟨list, hmay, hlist⟩ := (h.cells c (Array.mem_toList_iff.mp hc)).inputs
  refine Cell.mem_all_of_mayHave hmay ((hlist entry.1).mp ?_)
  rw [Std.TreeMap.mem_iff_isSome_getElem?]
  exact Option.isSome_of_eq_some (Std.TreeMap.mem_toList_iff_getElem?_eq_some.mp hentry)

end Breadboard
