import Breadboard.Proofs.Description.Transfer
import Breadboard.Proofs.Simulator.Recording

/-!
# Devices renamed in use

A simulator is asked for things by the names of its devices and of their outputs. Where the devices
of a text are renamed, and the requests with them, nothing changes but labels: every request has the
same reply, and whatever has been asked, the same outputs have the same levels, in the order in
which the devices are declared, and the same is recorded of them (`renamed_mirrors`). The new names
may be any identifiers, those of ports and of kinds of devices among them.

A simulator under other numbers does with a renamed operation what it did with the operation, and
ends under the other numbers (`perform_renumbered`), and so it goes with all requests one after
another (`attendAll_renumbered`).
-/

set_option autoImplicit false
set_option relaxedAutoImplicit false

namespace Breadboard

open Description

/-! ### Requests and replies -/

/-- A failure with its device renamed. -/
def Failure.renamed (rename : String → String) : Failure → Failure
  | .deviceAbsent device => .deviceAbsent (rename device)
  | .notASwitch device => .notASwitch (rename device)
  | .unknownSignal signal => .unknownSignal (renamedSignal rename signal)
  | .monitorRefused signal error => .monitorRefused (renamedSignal rename signal) error
  | failure => failure

namespace Simulator

/-- What a user asks of a simulator: to carry out an operation, or to tell the recorded levels of an
output. -/
inductive Request
  | operate (operation : Operation)
  | trace (signal : String)

/-- What a simulator replies. -/
inductive Reply
  | answer (answer : Answer)
  | levels (recorded : Except Failure (Array Level))
deriving DecidableEq

section Operations

variable {m : Type → Type} [Fallback m] {σ : Type} [Store m σ]

/-- A request, with its reply and the state that it leaves. -/
def attendM (s : Simulator σ) : Request → m (Reply × Simulator σ)
  | .operate operation => return Prod.map .answer id (← s.performM operation)
  | .trace signal => return (.levels (← s.traceM signal), s)

/-- Requests one after another, with their replies and the state that they leave. -/
def attendAllM (s : Simulator σ) : List Request → m (List Reply × Simulator σ)
  | [] => return ([], s)
  | request :: requests => do
    let (reply, next) ← s.attendM request
    let (replies, last) ← next.attendAllM requests
    return (reply :: replies, last)

end Operations

/-- A request, with its reply and the state that it leaves. -/
def attend (s : Simulator) (request : Request) : Reply × Simulator :=
  Id.run (s.attendM request)

/-- Requests one after another, with their replies and the state that they leave. -/
def attendAll (s : Simulator) (requests : List Request) : List Reply × Simulator :=
  Id.run (s.attendAllM requests)

theorem attend_operate_eq (s : Simulator) (operation : Operation) :
    s.attend (.operate operation) = Prod.map .answer id (s.perform operation) := rfl

theorem attendAll_cons (s : Simulator) (request : Request) (requests : List Request) :
    s.attendAll (request :: requests) =
      Prod.map ((s.attend request).1 :: ·) id ((s.attend request).2.attendAll requests) := rfl

/-- The operation that is asked for. -/
def Request.operation? : Request → Option Operation
  | .operate operation => some operation
  | .trace _ => none

/-- What there is to see of a simulator. -/
structure View where
  /-- The levels of all outputs, device by device. -/
  levels : List (OutputName × Option Level)
  /-- The recorded levels of the watched outputs. -/
  histories : List (OutputName × Array Level)
  cycles : Nat
deriving DecidableEq

/-- What there is to see of a simulator. -/
def view (s : Simulator) : View where
  levels := s.network.terminals.map fun t ↦ (s.names.outputName t, s.network.output? t)
  histories := s.monitors.probes.map fun probe ↦ (s.names.outputName probe.output, probe.history)
  cycles := s.cycles

/-! ### Requests by other names -/

section Renamed

variable (rename : String → String)

/-- An operation with its device renamed. -/
def Operation.renamed : Operation → Operation
  | .setSwitch name level => .setSwitch (rename name) level
  | .addMonitor signal => .addMonitor (renamedSignal rename signal)
  | .removeMonitor signal => .removeMonitor (renamedSignal rename signal)
  | .step => .step
  | .run cycles => .run cycles
  | .reset => .reset

/-- A request with its device renamed. -/
def Request.renamed : Request → Request
  | .operate operation => .operate (operation.renamed rename)
  | .trace signal => .trace (renamedSignal rename signal)

/-- An answer with its device renamed. -/
def Answer.renamed : Answer → Answer
  | .failed failure => .failed (failure.renamed rename)
  | answer => answer

/-- A reply with its device renamed. -/
def Reply.renamed : Reply → Reply
  | .answer given => .answer (given.renamed rename)
  | .levels recorded => .levels (recorded.mapError (Failure.renamed rename))

/-- What there is to see, with the devices renamed. -/
def View.renamed (view : View) : View where
  levels := view.levels.map (Prod.map (OutputName.renamed rename) id)
  histories := view.histories.map (Prod.map (OutputName.renamed rename) id)
  cycles := view.cycles

end Renamed

/-- Whether an operation is on one of some devices, or on no device. -/
def Operation.Addresses (devices : List String) : Operation → Prop
  | .setSwitch name _ => name ∈ devices
  | .addMonitor signal | .removeMonitor signal => IsSignal devices signal
  | .step | .run _ | .reset => True

/-- Whether a request is about one of some devices, or about no device. -/
def Request.Addresses (devices : List String) : Request → Prop
  | .operate operation => operation.Addresses devices
  | .trace signal => IsSignal devices signal

/-- Whatever is asked of a simulator about its devices, and of another one about the same devices by
their new names, the replies are the same but for the names, and so is what there is to see
afterwards. -/
def Mirrors (rename : String → String) (devices : List String) (s s' : Simulator) : Prop :=
  ∀ requests : List Request, (∀ request ∈ requests, request.Addresses devices) →
    (s'.attendAll (requests.map (Request.renamed rename))).1 =
        (s.attendAll requests).1.map (Reply.renamed rename) ∧
      (s'.attendAll (requests.map (Request.renamed rename))).2.view =
        (s.attendAll requests).2.view.renamed rename

/-! ### Simulators under other numbers -/

/-- A simulator with its devices renumbered, and another name table. -/
def renumbered (number : NameId → NameId) (names' : Names) (s : Simulator) : Simulator where
  names := names'
  network := s.network.renumbered number
  monitors := s.monitors.renumbered number
  cycles := s.cycles

/-- What a step or a run ends with, with its devices renumbered. -/
def endRenumbered (number : NameId → NameId) (names' : Names) :
    Except Simulator Simulator → Except Simulator Simulator
  | .ok s => .ok (s.renumbered number names')
  | .error s => .error (s.renumbered number names')

variable {rename : String → String} {devices : List String} {number : NameId → NameId}
  {names' : Names} {s t : Simulator} {name signal : String}

theorem ranTo_endRenumbered (rename : String → String) (x : Except Simulator Simulator) :
    ranTo (endRenumbered number names' x) =
      Prod.map (Answer.renamed rename) (renumbered number names') (ranTo x) := by
  cases x with
  | ok next => rfl
  | error left =>
    have hlimit := Network.iterationLimit_renumbered number left.network
    exact Prod.ext (congrArg (fun limit ↦ Answer.failed (.oscillation limit)) hlimit) rfl

section Numbers

variable (hnumber : Function.Injective number)

include hnumber

theorem step_renumbered (s : Simulator) :
    (s.renumbered number names').step = endRenumbered number names' s.step := by
  have hcycle := Network.renumbered_cycle hnumber s.network
  rw [step_eq, renumbered, hcycle, step_eq]
  cases s.network.cycle with
  | error left => rfl
  | ok next =>
    have hrecord := Monitors.record_renumbered hnumber s.monitors next
    exact congrArg (fun monitors ↦ Except.ok (Simulator.mk
      ⟨names', next.renumbered number, monitors⟩ (s.cycles + 1))) hrecord

theorem run_renumbered (cycles : Nat) (s : Simulator) :
    (s.renumbered number names').run cycles = endRenumbered number names' (s.run cycles) := by
  induction cycles generalizing s with
  | zero => rfl
  | succ cycles ih =>
    rw [run_succ, step_renumbered hnumber, run_succ]
    cases s.step with
    | error left => rfl
    | ok next => exact ih next

theorem reset_renumbered (s : Simulator) :
    (s.renumbered number names').reset = s.reset.renumbered number names' := by
  have hnetwork := Network.renumbered_reset hnumber s.network
  have hmonitors := Monitors.clear_renumbered number s.monitors
  rw [reset_eq, renumbered, hnetwork, hmonitors]
  rfl

end Numbers

/-! ### Operations -/

section Operations

variable (h : Renumbers rename devices number s.names names')

include h

theorem resolve_renumbered (hsignal : IsSignal devices signal) :
    (s.renumbered number names').resolve (renamedSignal rename signal) =
      (s.resolve signal).map (Terminal.renumbered number) := by
  have hquery := h.queryTerminal_renamed hsignal
  rw [resolve_eq, renumbered, hquery, resolve_eq, Option.filter_map]
  congr 2
  funext t
  exact congrArg Option.isSome (Network.output?_renumbered h.injective s.network t)

theorem trace_renumbered (hsignal : IsSignal devices signal) :
    (s.renumbered number names').trace (renamedSignal rename signal) =
      (s.trace signal).mapError (Failure.renamed rename) := by
  rw [trace_eq, resolve_renumbered h hsignal, trace_eq]
  cases s.resolve signal with
  | none => rfl
  | some output =>
    have hhistory := Monitors.history?_renumbered h.injective s.monitors output
    rw [Option.map_some, Option.bind_some, renumbered, hhistory, Option.bind_some]
    cases s.monitors.history? output <;> rfl

theorem setSwitch_renumbered (hname : name ∈ devices) (level : Level) :
    (s.renumbered number names').perform (.setSwitch (rename name) level) =
      Prod.map (Answer.renamed rename) (renumbered number names')
        (s.perform (.setSwitch name level)) := by
  obtain ⟨id, hquery, hquery'⟩ := h.exists_query_device hname
  have hcontains := Network.contains_renumbered h.injective s.network id
  have hset := Network.renumbered_setSwitch? h.injective s.network id level
  rw [perform_setSwitch_eq, setSwitch_eq, renumbered, hquery', Option.filter_some, hcontains,
    perform_setSwitch_eq, setSwitch_eq, hquery, Option.filter_some]
  cases s.network.contains id with
  | false => rfl
  | true =>
    rw [if_pos rfl, if_pos rfl]
    dsimp only
    rw [hset]
    cases s.network.setSwitch? id level <;> rfl

theorem addMonitor_renumbered (hsignal : IsSignal devices signal) :
    (s.renumbered number names').perform (.addMonitor (renamedSignal rename signal)) =
      Prod.map (Answer.renamed rename) (renumbered number names')
        (s.perform (.addMonitor signal)) := by
  have hresolve := resolve_renumbered h hsignal
  cases hfound : s.resolve signal with
  | none =>
    rw [hfound] at hresolve
    rw [(perform_unresolved hresolve).1, (perform_unresolved hfound).1]
    rfl
  | some output =>
    rw [hfound] at hresolve
    have hmem : output.renumbered number ∈ (s.monitors.renumbered number).outputs ↔
        output ∈ s.monitors.outputs := Monitors.mem_outputs_renumbered_iff h.injective
    have hwatch := Monitors.watch_renumbered h.injective s.monitors output
    rw [perform_addMonitor hresolve, perform_addMonitor hfound, renumbered, hwatch,
      if_congr hmem rfl rfl, Prod.map_apply, apply_ite (Answer.renamed rename)]
    rfl

theorem removeMonitor_renumbered (hsignal : IsSignal devices signal) :
    (s.renumbered number names').perform (.removeMonitor (renamedSignal rename signal)) =
      Prod.map (Answer.renamed rename) (renumbered number names')
        (s.perform (.removeMonitor signal)) := by
  have hresolve := resolve_renumbered h hsignal
  cases hfound : s.resolve signal with
  | none =>
    rw [hfound] at hresolve
    rw [(perform_unresolved hresolve).2, (perform_unresolved hfound).2]
    rfl
  | some output =>
    rw [hfound] at hresolve
    have hmem : output.renumbered number ∈ (s.monitors.renumbered number).outputs ↔
        output ∈ s.monitors.outputs := Monitors.mem_outputs_renumbered_iff h.injective
    have hremove := Monitors.remove_renumbered h.injective s.monitors output
    rw [perform_removeMonitor hresolve, perform_removeMonitor hfound, renumbered, hremove,
      decide_eq_decide.mpr hmem]
    rfl

/-- An operation with its device renamed does under the other numbers what the operation does. -/
theorem perform_renumbered {operation : Operation} (haddresses : operation.Addresses devices) :
    (s.renumbered number names').perform (operation.renamed rename) =
      Prod.map (Answer.renamed rename) (renumbered number names') (s.perform operation) := by
  cases operation with
  | step =>
    rw [Operation.renamed, perform_step_eq, step_renumbered h.injective,
      ranTo_endRenumbered rename, perform_step_eq]
  | run cycles =>
    rw [Operation.renamed, perform_run_eq, run_renumbered h.injective,
      ranTo_endRenumbered rename, perform_run_eq]
  | setSwitch name level => exact setSwitch_renumbered h haddresses level
  | addMonitor signal => exact addMonitor_renumbered h haddresses
  | removeMonitor signal => exact removeMonitor_renumbered h haddresses
  | reset => exact Prod.ext rfl (reset_renumbered h.injective s)

theorem attend_renumbered {request : Request} (haddresses : request.Addresses devices) :
    (s.renumbered number names').attend (request.renamed rename) =
      Prod.map (Reply.renamed rename) (renumbered number names') (s.attend request) := by
  cases request with
  | operate operation =>
    rw [Request.renamed, attend_operate_eq, perform_renumbered h haddresses, attend_operate_eq]
    rfl
  | trace signal => exact Prod.ext (congrArg Reply.levels (trace_renumbered h haddresses)) rfl

end Operations

theorem names_attend (hs : s.network.DistinctNames) (request : Request) :
    (s.attend request).2.names = s.names ∧ (s.attend request).2.network.DistinctNames := by
  cases request with
  | operate operation =>
    have hdescends := descends_perform hs operation
    exact ⟨hdescends.names, hdescends.distinctNames hs⟩
  | trace signal => exact ⟨rfl, hs⟩

/-- All requests go under the other numbers as they go under the first. -/
theorem attendAll_renumbered (h : Renumbers rename devices number s.names names')
    (hs : s.network.DistinctNames) {requests : List Request}
    (haddresses : ∀ request ∈ requests, request.Addresses devices) :
    (s.renumbered number names').attendAll (requests.map (Request.renamed rename)) =
      Prod.map (List.map (Reply.renamed rename)) (renumbered number names')
        (s.attendAll requests) := by
  induction requests generalizing s with
  | nil => rfl
  | cons request requests ih =>
    obtain ⟨hfirst, hmore⟩ := List.forall_mem_cons.mp haddresses
    obtain ⟨hnames, hdistinct⟩ := names_attend hs request
    rw [List.map_cons, attendAll_cons, attend_renumbered h hfirst, Prod.map_snd,
      ih (hnames ▸ h) hdistinct hmore]
    rfl

/-- Only the operations among some requests change a simulator. -/
theorem attendAll_snd (s : Simulator) (requests : List Request) :
    (s.attendAll requests).2 = s.after (requests.filterMap Request.operation?) := by
  induction requests generalizing s with
  | nil => rfl
  | cons request requests ih =>
    rw [attendAll_cons, Prod.map_snd, id, ih]
    cases request <;> rfl

/-! ### What there is to see -/

theorem terminals_renumbered (number : NameId → NameId) (n : Network) :
    (n.renumbered number).terminals = n.terminals.map (Terminal.renumbered number) := by
  rw [Network.terminals, Network.renumbered, List.flatMap_map, Network.terminals, List.map_flatMap]
  refine List.flatMap_congr fun d _ ↦ ?_
  rw [List.map_map]
  rfl

/-- The view of a simulator under other numbers, where all outputs go by their new names. -/
theorem view_renumbered (hnumber : Function.Injective number) (hs : s.network.DistinctNames)
    (hcalled : ∀ t, (s.network.output? t).isSome →
      names'.outputName (t.renumbered number) = (s.names.outputName t).renamed rename)
    (hwatched : ∀ output ∈ s.monitors.outputs, (s.network.output? output).isSome) :
    (s.renumbered number names').view = s.view.renamed rename := by
  have hlevels : (s.network.renumbered number).terminals.map
      (fun t ↦ (names'.outputName t, (s.network.renumbered number).output? t)) =
        s.view.levels.map (Prod.map (OutputName.renamed rename) id) := by
    rw [terminals_renumbered, List.map_map, view, List.map_map]
    refine List.map_congr_left fun t ht ↦ Prod.ext ?_ ?_
    · exact hcalled t ((Network.mem_terminals_iff hs).mp ht)
    · exact Network.output?_renumbered hnumber s.network t
  have hhistories : (s.monitors.renumbered number).probes.map
      (fun probe ↦ (names'.outputName probe.output, probe.history)) =
        s.view.histories.map (Prod.map (OutputName.renamed rename) id) := by
    rw [Monitors.renumbered, List.map_map, view, List.map_map]
    refine List.map_congr_left fun probe hprobe ↦ Prod.ext ?_ rfl
    exact hcalled probe.output (hwatched _ (List.mem_map_of_mem hprobe))
  exact congrArg₂ (View.mk · · s.cycles) hlevels hhistories

theorem mirrors_of_relabels {text : String} {settings : Settings} {c c' : Circuit}
    (hload : Circuit.load text settings = .ok c) (h : Relabels rename number c c') :
    Mirrors rename c.deviceNames (ofCircuit c) (ofCircuit c') := by
  have hdistinct := (reset_of_load hload).1
  have hstart : ofCircuit c' = (ofCircuit c).renumbered number c'.names := by
    rw [renumbered, ofCircuit, ofCircuit, ← h.network, ← h.monitors]
  intro requests haddresses
  have hrun := attendAll_renumbered (s := ofCircuit c) h.tables hdistinct haddresses
  rw [hstart, hrun]
  refine ⟨rfl, ?_⟩
  -- the state is one that operations alone lead to, so the names and the outputs are still there
  have hafter := attendAll_snd (ofCircuit c) requests
  have hdescends := descends_after (s := ofCircuit c) hdistinct
    (requests.filterMap Request.operation?)
  have hrecorded := (histories_exact hload (requests.filterMap Request.operation?)).1
  rw [← hafter] at hdescends hrecorded
  refine view_renumbered h.tables.injective (hdescends.distinctNames hdistinct) (fun t ht ↦ ?_)
    hrecorded.there
  have hwiring := hdescends.alike.symm.sameWiring Element.kind_maskSetting
  exact hdescends.names ▸ h.called t (hwiring.isSome_output? ht)

/-- Assumes: a text without ranges that is accepted, and new names for its devices, all different
and all identifiers, be they names of ports or of kinds of devices. With its devices renamed the
text is accepted too, and its circuit has the same devices in the same order under their new names.
Whatever is asked of its simulator, one request after another, the replies are those that the first
one gives to the same requests by the old names, and so are the levels of all outputs, the recorded
levels and the count of cycles after that, but for the names. -/
theorem renamed_mirrors {text : String} {settings : Settings} {c : Circuit}
    (hload : Circuit.load text settings = .ok c) (hfree : RangeFree text)
    (hinjective : ∀ name ∈ c.deviceNames, ∀ other ∈ c.deviceNames,
      rename name = rename other → name = other)
    (hidentifiers : ∀ name ∈ c.deviceNames, IsIdentifier (rename name)) :
    ∃ c', Circuit.load (renamed rename text) settings = .ok c' ∧
      c'.deviceNames = c.deviceNames.map rename ∧
      Mirrors rename c.deviceNames (ofCircuit c) (ofCircuit c') := by
  obtain ⟨c', hload', number, hrelabels⟩ := load_renamed hload hfree hinjective hidentifiers
  exact ⟨c', hload', hrelabels.devices, mirrors_of_relabels hload hrelabels⟩

/-- Names for the devices of the gate that a switch closes, each with a meaning of its own. -/
def borrowedName (device : String) : String :=
  if device = "X" then "I1" else if device = "C" then "CLK" else "NAND"

/-- The gate that a switch closes, with its switch and its clock called as inputs, and the gate
called as what it is. -/
def borrowedGate : String :=
  "devices { I1 is SWITCH; CLK is CLOCK; CLK has cycle 2; NAND is NAND; NAND has 2 inputs; } " ++
  "connections { device NAND { I1 to NAND.I1; NAND to NAND.I2; } } monitor { NAND; }"

theorem borrowedGate_mirrors : ∃ c, Circuit.load switchedGate = .ok c ∧
    ∃ c', Circuit.load borrowedGate = .ok c' ∧ c'.deviceNames = ["I1", "CLK", "NAND"] ∧
      Mirrors borrowedName ["X", "C", "G"] (ofCircuit c) (ofCircuit c') := by
  obtain ⟨c, hload, hnames⟩ := Circuit.exists_loaded switchedGate
    (P := fun c ↦ c.deviceNames = ["X", "C", "G"]) (by decide +kernel)
  have hfree : RangeFree switchedGate := by decide +kernel
  have htext : renamed borrowedName switchedGate = borrowedGate := by decide +kernel
  have hinjective : ∀ name ∈ c.deviceNames, ∀ other ∈ c.deviceNames,
      borrowedName name = borrowedName other → name = other := by
    rw [hnames]
    decide
  have hidentifiers : ∀ name ∈ c.deviceNames, IsIdentifier (borrowedName name) := by
    rw [hnames]
    decide
  obtain ⟨c', hload', hnames', hmirrors⟩ :=
    renamed_mirrors hload hfree hinjective hidentifiers
  rw [hnames] at hnames' hmirrors
  exact ⟨c, hload, c', htext ▸ hload', hnames', hmirrors⟩

end Simulator

end Breadboard
