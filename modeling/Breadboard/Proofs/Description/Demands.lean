import Breadboard.Description.Builder
import Breadboard.Proofs.Description.Rules
import Breadboard.Proofs.Network.Drivers

/-!
# Demands

What a statement says comes down to demands, each about one device, one input or one output. A
demand has a rule (`Demand.Permitted`). One that keeps to its rule is granted, which does to the
device that it names what it says and nothing else (`Demand.Grants`). One that breaks its rule is
refused with one report, at the place where it was made (`Demand.Met`). Several are met one by one
(`Handled`), and those that are refused might as well not have been made (`Handled.exists_kept`).
-/

set_option autoImplicit false
set_option relaxedAutoImplicit false

namespace Breadboard

open Text (Position)

/-! ### Inputs -/

namespace Device

/-- A device that is given so many inputs. -/
def give (ports : Ports) (count : Nat) (d : Device) : Device :=
  if d.kind.hasVariableInputs then { d with pins := openPins (ports.inputs.take count) } else d

theorem MayHave.of_variable {d : Device} {count : Nat} (h : d.MayHave count)
    (hvariable : d.kind.hasVariableInputs) : d.pins = [] ∧ 1 ≤ count ∧ count ≤ maxInputs := by
  unfold MayHave at h
  cases hkind : d.kind with
  | gate g =>
    rw [hkind] at h hvariable
    cases g with
    | xor | not => cases hvariable
    | _ => exact h
  | _ =>
    rw [hkind] at h
    exact h.elim

end Device

/-! ### One device replaced -/

namespace Network

variable {n : Network} {id : NameId} {f g : Device → Device} {d : Device}

/-- A network in which one device is replaced, and nothing else is changed, order included. -/
structure Replaces (id : NameId) (f : Device → Device) (n m : Network) : Prop where
  ports : m.ports = n.ports
  settings : m.settings = n.settings
  order : m.devices.map Device.id = n.devices.map Device.id
  device : m.device? id = (n.device? id).map f
  others : ∀ other, other ≠ id → m.device? other = n.device? other

theorem replaces_update (hid : ∀ d, (f d).id = d.id) (hd : n.device? id = some d)
    (hfg : f d = g d) : Replaces id g n (n.update id f) where
  ports := rfl
  settings := rfl
  order := by
    rw [devices_update, List.map_map]
    refine List.map_congr_left fun e _ ↦ ?_
    rw [Function.comp]
    split
    · exact hid e
    · rfl
  device := by rw [device?_update hid, if_pos rfl, hd, Option.map_some, Option.map_some, hfg]
  others _ hother := device?_update_of_ne hid hother

/-- Nothing is replaced by itself. -/
theorem replaces_self (hd : n.device? id = some d) (hg : g d = d) : Replaces id g n n where
  ports := rfl
  settings := rfl
  order := rfl
  device := by rw [hd, Option.map_some, hg]
  others _ _ := rfl

end Network

/-- A clock that turns over every so many cycles, counted from now. -/
def Element.paced (cycles : Nat) : Element → Element
  | .clock _ _ output => .clock cycles 0 output
  | element => element

namespace Description

/-! ### What is demanded -/

/-- What a statement says of one device, input or output. -/
inductive Demand
  | declare (clause : Clause) (target : Target)
  | connect (block : NameId) (connection : Connection)
  | watch (output : OutputMention)

namespace Demand

/-- The place where a demand is made. -/
def position : Demand → Position
  | declare _ target => target.position
  | connect _ connection => connection.source.position
  | watch output => output.position

/-- The rule of a demand. A name is defined once, and all else is said of a device that is there and
of the right kind. A connection goes from an output to an input without a driver. An output is
watched once. -/
def Permitted (n : Network) (m : Monitors) : Demand → Prop
  | declare (.define _) target => n.device? target.id = none
  | declare (.inputs count) target => ∃ d, n.device? target.id = some d ∧ d.MayHave count
  | declare (.halfPeriod _) target => ∃ d, n.device? target.id = some d ∧ d.kind = .clock
  | declare (.level _) target => ∃ d, n.device? target.id = some d ∧ d.kind = .switch
  | connect block connection =>
    (∃ source, n.device? connection.source.terminal.device = some source ∧
      (source.output? n.ports connection.source.terminal.port).isSome ∧
      ∀ port, connection.source.terminal.port = some port → source.pin? port = none) ∧
    ∃ d pin, n.device? block = some d ∧ d.pin? connection.input = some pin ∧ pin.driver = none
  | watch output => (n.output? output.terminal).isSome ∧ output.terminal ∉ m.outputs

/-- What becomes of a network and its monitors when a demand is granted. A new device comes last,
and so does a new monitor. -/
def Grants (n : Network) (m : Monitors) : Demand → Network → Monitors → Prop
  | declare (.define kind) target, n', m' =>
    n' = { n with devices := n.devices ++ [Device.make n.ports target.id kind] } ∧ m' = m
  | declare (.inputs count) target, n', m' =>
    n.Replaces target.id (Device.give n.ports count) n' ∧ m' = m
  | declare (.halfPeriod cycles) target, n', m' =>
    n.Replaces target.id (Device.mapElement (Element.paced cycles)) n' ∧ m' = m
  | declare (.level level) target, n', m' =>
    n.Replaces target.id (Device.mapElement fun _ ↦ .switch level) n' ∧ m' = m
  | connect block connection, n', m' =>
    n.Replaces block (Device.drive connection.input connection.source.terminal) n' ∧ m' = m
  | watch output, n', m' => n' = n ∧ m'.probes = m.probes ++ [{ output := output.terminal }]

/-- A demand as the program meets it. -/
def meet (b : Builder) : Demand → Builder
  | declare clause target => Builder.declare clause b target
  | connect block connection => Builder.connect block b connection
  | watch output => b.watch output

/-- A demand that is granted, or refused with one report. -/
inductive Met (demand : Demand) (b : Builder) : Builder → Prop
  | granted {n : Network} {m : Monitors} : demand.Permitted b.network b.monitors →
    demand.Grants b.network b.monitors n m → Met demand b { b with network := n, monitors := m }
  | refused {fault : Fault} : ¬ demand.Permitted b.network b.monitors →
    fault.category = .meaning → Met demand b (b.file fault demand.position)

/-- A half-period that is demanded is at least one cycle. -/
def Paced : Demand → Prop
  | declare (.halfPeriod cycles) _ => 1 ≤ cycles
  | _ => True

/-! ### Each demand is met -/

variable {b : Builder} {n n' : Network} {m : Monitors}

section Declare

variable {clause : Clause} {target : Target}

/-- What is carried out of what is said of a device keeps to the rule. -/
theorem declare_granted (h : n.declare target.id clause = .ok n') :
    (declare clause target).Permitted n m ∧ (declare clause target).Grants n m n' m := by
  cases Network.declared_of_declare h with
  | define hfresh => exact ⟨hfresh, rfl, rfl⟩
  | @inputs d count hd hrefusal =>
    have hmay := (d.inputsRefusal?_eq_none_iff count).mp hrefusal
    refine ⟨⟨d, hd, hmay⟩, ?_, rfl⟩
    rw [Network.addInputs?, hd, Option.bind_some]
    by_cases hvariable : d.kind.hasVariableInputs
    · rw [if_pos ⟨hvariable, hmay.of_variable hvariable⟩]
      exact Network.replaces_update (Device.id_open _) hd (if_pos hvariable).symm
    · rw [if_neg fun h ↦ hvariable h.1]
      exact Network.replaces_self hd (if_neg hvariable)
  | @halfPeriod d _ _ _ _ hd helement =>
    refine ⟨⟨d, hd, by rw [Device.kind, helement]; rfl⟩, ?_, rfl⟩
    refine Network.replaces_update (fun _ ↦ rfl) hd ?_
    rw [Device.mapElement, Device.mapElement, helement, Element.paced]
  | @level d _ _ hd helement =>
    refine ⟨⟨d, hd, by rw [Device.kind, helement]; rfl⟩, ?_, rfl⟩
    exact Network.replaces_update (fun _ ↦ rfl) hd rfl

/-- What is refused of what is said of a device breaks the rule. -/
theorem declare_refused (hpaced : (declare clause target).Paced) {error : DeclarationError}
    (h : n.declare target.id clause = .error error) : ¬ (declare clause target).Permitted n m := by
  cases clause with
  | define kind =>
    rw [Network.declare, Network.addDevice?] at h
    split at h
    · next hthere => exact fun hfresh ↦ Option.isSome_iff_ne_none.mp hthere hfresh
    · cases h
  | inputs count =>
    rintro ⟨d, hd, hmay⟩
    simp [Network.declare, hd, (d.inputsRefusal?_eq_none_iff count).mpr hmay] at h
  | halfPeriod cycles =>
    rintro ⟨d, hd, hkind⟩
    have hcycles : cycles ≠ 0 := Nat.one_le_iff_ne_zero.mp hpaced
    cases helement : d.element <;> simp [Device.kind, Element.kind, helement] at hkind
    simp [Network.declare, Network.contains, Network.setHalfPeriod?, hd, hcycles, helement] at h
  | level level =>
    rintro ⟨d, hd, hkind⟩
    cases helement : d.element <;> simp [Device.kind, Element.kind, helement] at hkind
    simp [Network.declare, Network.contains, Network.setSwitch?, hd, helement] at h

theorem met_declare (hpaced : (declare clause target).Paced) (b : Builder) :
    (declare clause target).Met b ((declare clause target).meet b) := by
  rw [meet, Builder.declare_eq]
  split
  · next n hn =>
    obtain ⟨hpermitted, hgrants⟩ := declare_granted (m := b.monitors) hn
    exact .granted hpermitted hgrants
  · next error herror => exact .refused (declare_refused hpaced herror) rfl

end Declare

theorem permitted_connect_iff {block : NameId} {connection : Connection} :
    (connect block connection).Permitted n m ↔
      n.connectionError? connection.source.terminal block connection.input = none := by
  rw [Permitted, Network.connectionError?]
  cases n.device? connection.source.terminal.device with
  | none => simp
  | some source =>
    cases n.device? block with
    | none => simp
    | some d =>
      have hinput :
          (connection.source.terminal.port.any fun port ↦ (source.pin? port).isSome) = true ↔
            ¬∀ port, connection.source.terminal.port = some port → source.pin? port = none := by
        cases connection.source.terminal.port <;> simp [Option.isSome_iff_ne_none]
      cases hpin : d.pin? connection.input with
      | none =>
        refine iff_of_false (fun hpermitted ↦ ?_) ?_
        · obtain ⟨_, _, pin, hd, hthere, _⟩ := hpermitted
          obtain rfl := Option.some_inj.mp hd
          cases hpin.symm.trans hthere
        · dsimp only
          split_ifs <;> simp [hpin]
      | some pin =>
        simp only [hinput, hpin, Option.some.injEq, exists_and_left, exists_eq_left']
        split_ifs with hsource hnone hdriven
        · exact iff_of_false (fun h ↦ Option.isSome_iff_ne_none.mp h.1.1
            (Option.isNone_iff_eq_none.mp hnone)) not_false
        · exact iff_of_false (fun h ↦ Option.isSome_iff_ne_none.mp hdriven h.2) not_false
        · refine iff_of_true ⟨⟨?_, hsource⟩, ?_⟩ rfl
          · exact Option.isSome_iff_ne_none.mpr fun h ↦ hnone (Option.isNone_iff_eq_none.mpr h)
          · exact Option.not_isSome_iff_eq_none.mp hdriven
        · exact iff_of_false (fun h ↦ hsource h.1.2) not_false

theorem met_connect (block : NameId) (connection : Connection) (b : Builder) :
    (connect block connection).Met b ((connect block connection).meet b) := by
  rw [meet, Builder.connect_eq]
  split
  · next n hn =>
    rw [Network.connect] at hn
    split at hn
    · cases hn
    · next hnone =>
      cases hn
      have hpermitted := (permitted_connect_iff (m := b.monitors)).mpr hnone
      obtain ⟨-, d, -, hd, -⟩ := id hpermitted
      exact .granted hpermitted ⟨Network.replaces_update (Device.id_drive _ _) hd rfl, rfl⟩
  · next error herror =>
    refine .refused (fun hpermitted ↦ ?_) rfl
    rw [Network.connect, permitted_connect_iff.mp hpermitted] at herror
    cases herror

theorem met_watch (output : OutputMention) (b : Builder) :
    (watch output).Met b ((watch output).meet b) := by
  rw [meet, Builder.watch_eq, Monitors.add_eq]
  cases hd : b.network.device? output.terminal.device with
  | none =>
    refine .refused (fun hpermitted ↦ ?_) rfl
    simp [Permitted, Network.output?, hd] at hpermitted
  | some d =>
    have houtput : b.network.output? output.terminal =
        d.output? b.network.ports output.terminal.port := by
      rw [Network.output?, hd, Option.bind_some]
    dsimp only
    split_ifs with hnone hwatched
    · refine .refused (fun hpermitted ↦ ?_) rfl
      have hthere := hpermitted.1
      rw [houtput, Option.isSome_iff_ne_none] at hthere
      exact hthere (Option.isNone_iff_eq_none.mp hnone)
    · exact .refused (fun hpermitted ↦ hpermitted.2 hwatched) rfl
    · refine .granted ⟨?_, hwatched⟩ ⟨rfl, rfl⟩
      rw [houtput, Option.isSome_iff_ne_none]
      exact fun h ↦ hnone (Option.isNone_iff_eq_none.mpr h)

/-- Every demand is met. -/
theorem met (demand : Demand) (hpaced : demand.Paced) (b : Builder) :
    demand.Met b (demand.meet b) := by
  cases demand with
  | declare clause target => exact met_declare hpaced b
  | connect block connection => exact met_connect block connection b
  | watch output => exact met_watch output b

end Demand

/-! ### One demand after another -/

/-- Demands that are met one by one, in order. -/
inductive Handled : List Demand → Builder → Builder → Prop
  | nil {b : Builder} : Handled [] b b
  | cons {demand : Demand} {demands : List Demand} {b c d : Builder} : demand.Met b c →
    Handled demands c d → Handled (demand :: demands) b d

theorem handled_foldl {demands : List Demand} (hpaced : ∀ demand ∈ demands, demand.Paced)
    (b : Builder) : Handled demands b (demands.foldl (fun b demand ↦ demand.meet b) b) := by
  induction demands generalizing b with
  | nil => exact .nil
  | cons demand demands ih =>
    obtain ⟨hfirst, hrest⟩ := List.forall_mem_cons.mp hpaced
    exact .cons (demand.met hfirst b) (ih hrest _)

/-- Demands that are refused might as well not have been made: the others come to the same without
them, and nothing is filed then. With them there is a report for each that is refused. -/
theorem Handled.exists_kept {demands : List Demand} {b c : Builder} (h : Handled demands b c) :
    ∃ kept, kept.Sublist demands ∧ Handled kept b { c with reader := b.reader } ∧
      ∃ reports, c.reader = { b.reader with log := b.reader.log ++ reports } ∧
        (∀ report ∈ reports, report.fault.category = .meaning) ∧
        reports.length + kept.length = demands.length := by
  suffices hany : ∀ r, ∃ kept, kept.Sublist demands ∧
      Handled kept { b with reader := r } { c with reader := r } ∧
      ∃ reports, c.reader = { b.reader with log := b.reader.log ++ reports } ∧
        (∀ report ∈ reports, report.fault.category = .meaning) ∧
        reports.length + kept.length = demands.length from hany b.reader
  intro r
  induction h with
  | nil => exact ⟨[], .slnil, .nil, [], by rw [List.append_nil], nofun, rfl⟩
  | @cons demand demands b _ d hmet _ ih =>
    obtain ⟨kept, hkept, hhandled, reports, hreader, hmeaning, hlength⟩ := ih
    cases hmet with
    | granted hpermitted hgrants =>
      refine ⟨demand :: kept, hkept.cons_cons demand, ?_, reports, hreader, hmeaning, ?_⟩
      · exact .cons (.granted hpermitted hgrants) hhandled
      · rw [List.length_cons, List.length_cons, ← hlength, Nat.add_assoc]
    | @refused fault hbroken hcategory =>
      refine ⟨kept, hkept.cons demand, hhandled, ⟨fault, demand.position⟩ :: reports, ?_, ?_, ?_⟩
      · rw [hreader]
        simp [Builder.file, Builder.mapReader, Reader.file]
      · exact List.forall_mem_cons.mpr ⟨hcategory, hmeaning⟩
      · rw [List.length_cons, List.length_cons, ← hlength]
        omega

end Description

end Breadboard
