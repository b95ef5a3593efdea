import Breadboard.Proofs.Description.Acceptance
import Breadboard.Proofs.Network.Rewinding
import Breadboard.Proofs.Simulator.Watching
import Breadboard.Simulator

/-!
# Replays

A simulator is operated by steps and runs, by setting switches, by watching outputs or watching
them no longer, and by resets. No operation touches the names, the wiring or the half-periods
(`Descends`). So a reset takes any two states of a simulator to the same network when the switches
have the same levels in both, and back to the loaded network when they have their first levels.

A reset keeps the outputs that are watched. What is done after it goes as it did after loading, but
for the outputs that are watched in only one of the two states (`reset_rewinds`).
-/

set_option autoImplicit false
set_option relaxedAutoImplicit false

namespace Breadboard

@[simp]
theorem Description.Component.reset_element (c : Description.Component) :
    c.element.reset = c.element := by
  cases c <;> rfl

namespace Simulator

variable {s t u : Simulator} {output : Terminal} {name : String}

/-- What a simulator can be asked to do. -/
inductive Operation
  | step
  | run (cycles : Nat)
  | setSwitch (name : String) (level : Level)
  | addMonitor (name : String)
  | removeMonitor (name : String)
  | reset

/-- What comes of an operation. -/
inductive Answer
  | done
  | removed (was : Bool)
  | failed (failure : Failure)
deriving DecidableEq

/-- The signal that an operation watches or watches no longer. -/
def Operation.signal? : Operation → Option String
  | .addMonitor name | .removeMonitor name => some name
  | _ => none

section Operations

variable {m : Type → Type} [Fallback m] {σ : Type} [Store m σ]

/-- What comes of a cycle or more, with the state that they leave. -/
def ranToM : Except (Simulator σ) (Simulator σ) → m (Answer × Simulator σ)
  | .ok next => return (.done, next)
  | .error left => return (.failed (← left.oscillationM), left)

/-- What comes of a request, which changes nothing when it fails. -/
def answered (s : Simulator σ) : Except Failure (Answer × Simulator σ) → Answer × Simulator σ
  | .ok result => result
  | .error failure => (.failed failure, s)

/-- An operation carried out, with its answer. -/
def performM (s : Simulator σ) : Operation → m (Answer × Simulator σ)
  | .step => do ranToM (← s.stepM)
  | .run cycles => do ranToM (← s.runM cycles)
  | .setSwitch name level => return s.answered ((← s.setSwitchM name level).map (.done, ·))
  | .addMonitor name => return s.answered ((← s.addMonitorM name).map (.done, ·))
  | .removeMonitor name =>
    return s.answered ((← s.removeMonitorM name).map fun result ↦ (.removed result.1, result.2))
  | .reset => return (.done, ← s.resetM)

end Operations

/-- What comes of a cycle or more of a network, with the state that they leave. -/
def ranTo (result : Except Simulator Simulator) : Answer × Simulator :=
  Id.run (ranToM result)

/-- An operation carried out, with its answer. -/
def perform (s : Simulator) (operation : Operation) : Answer × Simulator :=
  Id.run (s.performM operation)

theorem perform_step_eq (s : Simulator) : s.perform .step = ranTo s.step := rfl

theorem perform_run_eq (s : Simulator) (cycles : Nat) :
    s.perform (.run cycles) = ranTo (s.run cycles) := rfl

theorem perform_setSwitch_eq (s : Simulator) (name : String) (level : Level) :
    s.perform (.setSwitch name level) = s.answered ((s.setSwitch name level).map (.done, ·)) := rfl

theorem perform_addMonitor_eq (s : Simulator) (name : String) :
    s.perform (.addMonitor name) = s.answered ((s.addMonitor name).map (.done, ·)) := rfl

theorem perform_removeMonitor_eq (s : Simulator) (name : String) :
    s.perform (.removeMonitor name) =
      s.answered ((s.removeMonitor name).map fun result ↦ (.removed result.1, result.2)) := rfl

/-- A simulator after some operations. -/
def after (s : Simulator) (operations : List Operation) : Simulator :=
  operations.foldl (fun s operation ↦ (s.perform operation).2) s

/-! ### What operations keep -/

/-- A simulator has the names, the wiring and the half-periods of another. -/
structure Descends (s t : Simulator) : Prop where
  names : t.names = s.names
  alike : Network.Alike Element.maskSetting s.network t.network

theorem Descends.refl (s : Simulator) : Descends s s :=
  ⟨rfl, Network.Alike.refl ..⟩

theorem Descends.trans (h : Descends s t) (h' : Descends t u) : Descends s u :=
  ⟨h'.names.trans h.names, h.alike.trans h'.alike⟩

theorem Descends.distinctNames (h : Descends s t) (hs : s.network.DistinctNames) :
    t.network.DistinctNames :=
  h.alike.distinctNames hs

theorem descends_of_alike_reset (hnames : t.names = s.names)
    (h : Network.Alike Element.reset s.network t.network) : Descends s t :=
  ⟨hnames, h.coarsen Element.maskSetting_reset⟩

theorem descends_step (hs : s.network.DistinctNames) : Descends s (ranTo s.step).2 := by
  have hlike := Network.alike_cycle hs
  rw [step_eq]
  cases hcycle : s.network.cycle with
  | error left =>
    rw [hcycle] at hlike
    exact descends_of_alike_reset rfl hlike
  | ok next =>
    rw [hcycle] at hlike
    exact descends_of_alike_reset rfl hlike

theorem descends_run (hs : s.network.DistinctNames) (cycles : Nat) :
    Descends s (ranTo (s.run cycles)).2 := by
  induction cycles generalizing s with
  | zero => exact Descends.refl s
  | succ cycles ih =>
    have hstep := descends_step hs
    rw [run_succ]
    cases hresult : s.step with
    | error left =>
      rw [hresult] at hstep
      exact hstep
    | ok next =>
      rw [hresult] at hstep
      exact hstep.trans (ih (hstep.distinctNames hs))

/-- A switch is set in the network, or the request fails. -/
theorem setSwitch_eq_ok {level : Level} (h : s.setSwitch name level = .ok t) :
    ∃ id network, s.network.setSwitch? id level = some network ∧ t = { s with network } := by
  rw [setSwitch_eq] at h
  split at h
  · cases h
  · next id _ =>
    split at h
    · cases h
    · next network hset => exact ⟨id, network, hset, (Except.ok.inj h).symm⟩

theorem perform_unresolved (h : s.resolve name = none) :
    s.perform (.addMonitor name) = (.failed (.unknownSignal name), s) ∧
      s.perform (.removeMonitor name) = (.failed (.unknownSignal name), s) := by
  rw [perform_addMonitor_eq, perform_removeMonitor_eq, Simulator.addMonitor_eq,
    Simulator.removeMonitor_eq, signal_eq, h]
  exact ⟨rfl, rfl⟩

theorem isSome_output?_of_resolve (h : s.resolve name = some output) :
    (s.network.output? output).isSome :=
  (Option.filter_eq_some_iff.mp ((s.resolve_eq name).symm.trans h)).2

/-- An output that is resolved is there, so it can be watched unless it is watched already. -/
theorem perform_addMonitor (h : s.resolve name = some output) :
    s.perform (.addMonitor name) =
      (if output ∈ s.monitors.outputs then
        .failed (.monitorRefused name .alreadyMonitored) else .done,
      { s with monitors := s.monitors.watch output }) := by
  have hthere := isSome_output?_of_resolve h
  rw [perform_addMonitor_eq, Simulator.addMonitor_eq, signal_eq, h, Option.elim_some]
  simp only [Monitors.add_of_output s.monitors hthere, Monitors.watch]
  by_cases hwatched : output ∈ s.monitors.outputs
  · rw [if_pos hwatched, if_pos hwatched, if_pos hwatched]
    rfl
  · rw [if_neg hwatched, if_neg hwatched, if_neg hwatched]
    rfl

theorem perform_removeMonitor (h : s.resolve name = some output) :
    s.perform (.removeMonitor name) = (.removed (output ∈ s.monitors.outputs),
      { s with monitors := s.monitors.remove output }) := by
  rw [perform_removeMonitor_eq, Simulator.removeMonitor_eq, signal_eq, h]
  rfl

theorem descends_perform (hs : s.network.DistinctNames) (operation : Operation) :
    Descends s (s.perform operation).2 := by
  cases operation with
  | step => exact descends_step hs
  | run cycles => exact descends_run hs cycles
  | setSwitch name level =>
    rw [perform_setSwitch_eq]
    cases hset : s.setSwitch name level with
    | error failure => exact Descends.refl s
    | ok next =>
      obtain ⟨id, network, hnetwork, rfl⟩ := setSwitch_eq_ok hset
      exact ⟨rfl, (Network.alike_of_setSwitch hs hnetwork).coarsen Element.maskSetting_maskSwitch⟩
  | addMonitor name =>
    cases hresolve : s.resolve name with
    | none => exact (perform_unresolved hresolve).1 ▸ Descends.refl s
    | some output => exact perform_addMonitor hresolve ▸ ⟨rfl, Network.Alike.refl ..⟩
  | removeMonitor name =>
    cases hresolve : s.resolve name with
    | none => exact (perform_unresolved hresolve).2 ▸ Descends.refl s
    | some output => exact perform_removeMonitor hresolve ▸ ⟨rfl, Network.Alike.refl ..⟩
  | reset => exact descends_of_alike_reset rfl (Network.alike_reset hs)

theorem descends_after (hs : s.network.DistinctNames) (operations : List Operation) :
    Descends s (s.after operations) := by
  induction operations generalizing s with
  | nil => exact Descends.refl s
  | cons operation rest ih =>
    have hfirst := descends_perform hs operation
    exact hfirst.trans (ih (hfirst.distinctNames hs))

/-! ### Simulators that differ in what they watch -/

/-- Simulators that differ in their monitors at most, and in no history of an output in question. -/
inductive AgreeOn (watched : Terminal → Prop) (s : Simulator) : Simulator → Prop
  | intro (monitors : Monitors) :
    (∀ output, watched output → s.monitors.history? output = monitors.history? output) →
      AgreeOn watched s { s with monitors }

variable {watched : Terminal → Prop}

theorem AgreeOn.network_eq (h : AgreeOn watched s t) : t.network = s.network := by
  cases h
  rfl

theorem AgreeOn.cycles_eq (h : AgreeOn watched s t) : t.cycles = s.cycles := by
  cases h
  rfl

theorem AgreeOn.history?_eq (h : AgreeOn watched s t) (houtput : watched output) :
    t.monitors.history? output = s.monitors.history? output := by
  obtain ⟨monitors, hhistories⟩ := h
  exact (hhistories output houtput).symm

theorem AgreeOn.mem_outputs_iff (h : AgreeOn watched s t) (houtput : watched output) :
    output ∈ s.monitors.outputs ↔ output ∈ t.monitors.outputs := by
  rw [← Monitors.isSome_history?, ← Monitors.isSome_history?, h.history?_eq houtput]

/-- A step has the same answer in both, and records the same levels. -/
theorem AgreeOn.step (h : AgreeOn watched s t) :
    (ranTo s.step).1 = (ranTo t.step).1 ∧ AgreeOn watched (ranTo s.step).2 (ranTo t.step).2 := by
  obtain ⟨monitors, hhistories⟩ := h
  rw [Simulator.step_eq, Simulator.step_eq]
  cases hcycle : s.network.cycle with
  | error left => exact ⟨rfl, .intro monitors hhistories⟩
  | ok next =>
    refine ⟨rfl, .intro (monitors.record next) fun output houtput ↦ ?_⟩
    show (s.monitors.record next).history? output = (monitors.record next).history? output
    rw [Monitors.history?_record, Monitors.history?_record, hhistories output houtput]

/-- A run has the same answer in both. -/
theorem AgreeOn.run (h : AgreeOn watched s t) (cycles : Nat) :
    (ranTo (s.run cycles)).1 = (ranTo (t.run cycles)).1 ∧
      AgreeOn watched (ranTo (s.run cycles)).2 (ranTo (t.run cycles)).2 := by
  induction cycles generalizing s t with
  | zero => exact ⟨rfl, h⟩
  | succ cycles ih =>
    have hstep := h.step
    rw [run_succ, run_succ]
    cases hs : s.step with
    | error left =>
      cases ht : t.step with
      | error left' =>
        rw [hs, ht] at hstep
        exact hstep
      | ok next =>
        rw [hs, ht] at hstep
        exact Answer.noConfusion hstep.1
    | ok next =>
      cases ht : t.step with
      | error left =>
        rw [hs, ht] at hstep
        exact Answer.noConfusion hstep.1
      | ok next' =>
        rw [hs, ht] at hstep
        exact ih hstep.2

theorem AgreeOn.setSwitch (h : AgreeOn watched s t) (name : String) (level : Level) :
    (s.perform (.setSwitch name level)).1 = (t.perform (.setSwitch name level)).1 ∧
      AgreeOn watched (s.perform (.setSwitch name level)).2
        (t.perform (.setSwitch name level)).2 := by
  obtain ⟨monitors, hhistories⟩ := h
  rw [perform_setSwitch_eq, perform_setSwitch_eq, Simulator.setSwitch_eq, Simulator.setSwitch_eq]
  dsimp only
  cases (s.names.query name).filter s.network.contains with
  | none => exact ⟨rfl, .intro monitors hhistories⟩
  | some id =>
    dsimp only
    cases s.network.setSwitch? id level with
    | none => exact ⟨rfl, .intro monitors hhistories⟩
    | some network => exact ⟨rfl, .intro monitors hhistories⟩

/-- A request to watch an output in question, or none that there is, has the same answer in
both. -/
theorem AgreeOn.addMonitor (h : AgreeOn watched s t) (name : String) :
    ((∀ output, s.resolve name = some output → watched output) →
      (s.perform (.addMonitor name)).1 = (t.perform (.addMonitor name)).1) ∧
    AgreeOn watched (s.perform (.addMonitor name)).2 (t.perform (.addMonitor name)).2 := by
  have hiff (output : Terminal) (houtput : watched output) := h.mem_outputs_iff houtput
  obtain ⟨monitors, hhistories⟩ := h
  cases hresolve : s.resolve name with
  | none =>
    rw [(perform_unresolved hresolve).1, (perform_unresolved (s := { s with monitors }) hresolve).1]
    exact ⟨fun _ ↦ rfl, .intro monitors hhistories⟩
  | some output =>
    rw [perform_addMonitor hresolve, perform_addMonitor (s := { s with monitors }) hresolve]
    refine ⟨fun hwatched ↦ ?_, .intro (monitors.watch output) fun other hother ↦ ?_⟩
    · rw [if_congr (hiff output (hwatched output rfl)) rfl rfl]
    · show (s.monitors.watch output).history? other = (monitors.watch output).history? other
      rw [Monitors.history?_watch, Monitors.history?_watch, hhistories other hother]

theorem AgreeOn.removeMonitor (h : AgreeOn watched s t) (name : String) :
    ((∀ output, s.resolve name = some output → watched output) →
      (s.perform (.removeMonitor name)).1 = (t.perform (.removeMonitor name)).1) ∧
    AgreeOn watched (s.perform (.removeMonitor name)).2 (t.perform (.removeMonitor name)).2 := by
  have hiff (output : Terminal) (houtput : watched output) := h.mem_outputs_iff houtput
  obtain ⟨monitors, hhistories⟩ := h
  cases hresolve : s.resolve name with
  | none =>
    rw [(perform_unresolved hresolve).2, (perform_unresolved (s := { s with monitors }) hresolve).2]
    exact ⟨fun _ ↦ rfl, .intro monitors hhistories⟩
  | some output =>
    rw [perform_removeMonitor hresolve, perform_removeMonitor (s := { s with monitors }) hresolve]
    refine ⟨fun hwatched ↦ ?_, .intro (monitors.remove output) fun other hother ↦ ?_⟩
    · rw [decide_eq_decide.mpr (hiff output (hwatched output rfl))]
    · show (s.monitors.remove output).history? other = (monitors.remove output).history? other
      rw [Monitors.history?_remove, Monitors.history?_remove, hhistories other hother]

theorem AgreeOn.reset (h : AgreeOn watched s t) : AgreeOn watched s.reset t.reset := by
  obtain ⟨monitors, hhistories⟩ := h
  refine .intro monitors.clear fun output houtput ↦ ?_
  show s.monitors.clear.history? output = monitors.clear.history? output
  rw [Monitors.history?_clear, Monitors.history?_clear, hhistories output houtput]

/-- An operation does not tell the two apart, unless it watches an output that is not in question,
or watches one no longer. -/
theorem AgreeOn.perform (h : AgreeOn watched s t) (operation : Operation) :
    ((∀ name ∈ operation.signal?, ∀ output ∈ s.resolve name, watched output) →
      (s.perform operation).1 = (t.perform operation).1) ∧
    AgreeOn watched (s.perform operation).2 (t.perform operation).2 := by
  cases operation with
  | step => exact ⟨fun _ ↦ h.step.1, h.step.2⟩
  | run cycles => exact ⟨fun _ ↦ (h.run cycles).1, (h.run cycles).2⟩
  | setSwitch name level => exact ⟨fun _ ↦ (h.setSwitch name level).1, (h.setSwitch name level).2⟩
  | addMonitor name =>
    exact ⟨fun hname ↦ (h.addMonitor name).1 (hname name rfl), (h.addMonitor name).2⟩
  | removeMonitor name =>
    exact ⟨fun hname ↦ (h.removeMonitor name).1 (hname name rfl), (h.removeMonitor name).2⟩
  | reset => exact ⟨fun _ ↦ rfl, h.reset⟩

theorem AgreeOn.after (h : AgreeOn watched s t) (operations : List Operation) :
    AgreeOn watched (s.after operations) (t.after operations) := by
  induction operations generalizing s t with
  | nil => exact h
  | cons operation rest ih => exact ih (h.perform operation).2

/-! ### Resets -/

/-- One simulator is reached from another by some operations. -/
def Reaches (s t : Simulator) : Prop :=
  ∃ operations, s.after operations = t

/-- Whatever operations are carried out on both of two simulators, they do the same on both, but for
watching outputs that are not in question, or watching these no longer. -/
structure Replays (watched : Terminal → Prop) (s t : Simulator) : Prop where
  network : ∀ operations, (t.after operations).network = (s.after operations).network
  cycles : ∀ operations, (t.after operations).cycles = (s.after operations).cycles
  histories : ∀ operations output, watched output →
    (t.after operations).monitors.history? output = (s.after operations).monitors.history? output
  answers : ∀ operations operation,
    (∀ name ∈ operation.signal?, ∀ output ∈ (s.after operations).resolve name, watched output) →
      ((t.after operations).perform operation).1 = ((s.after operations).perform operation).1

theorem AgreeOn.replays (h : AgreeOn watched s t) : Replays watched s t where
  network operations := (h.after operations).network_eq
  cycles operations := (h.after operations).cycles_eq
  histories operations _ houtput := (h.after operations).history?_eq houtput
  answers operations operation hsignal :=
    (((h.after operations).perform operation).1 hsignal).symm

section Loaded

variable {text : String} {settings : Settings} {c : Circuit}

/-- A circuit is loaded as a reset leaves it. -/
theorem reset_of_load (h : Circuit.load text settings = .ok c) :
    c.network.DistinctNames ∧ c.network.reset = c.network ∧ c.monitors.clear = c.monitors := by
  obtain ⟨hquiet, rfl⟩ := Description.load_eq_ok_iff.mp h
  obtain ⟨d, -, hshows⟩ := Description.denotes_of_quiet hquiet
  have hdepicts := hshows.depicts
  have hlike := Network.alike_powerOn_reset hdepicts.distinct
  refine ⟨hlike.distinctNames hdepicts.distinct, ?_, ?_⟩
  · have hclear : (Circuit.build text settings).network.clearDevices =
        (Circuit.build text settings).network := by
      have hkept : ∀ e ∈ (Circuit.build text settings).network.devices,
          e.mapElement Element.reset = e := by
        intro e he
        obtain ⟨part, -, hshown⟩ := Description.exists_of_mem_right hdepicts.parts.flip he
        rw [Device.mapElement, hshown.element, Description.Component.reset_element,
          ← hshown.element]
      rw [Network.clearDevices, Network.mapDevices, List.map_congr_left hkept, List.map_id']
    rw [← Network.reset_eq_of_alike hlike, Network.reset, hclear]
  · have hblank : ∀ p ∈ (Circuit.build text settings).monitors.probes,
        { p with history := #[] } = p := by
      intro p hp
      obtain ⟨output, -, hshown⟩ := Description.exists_of_mem_right hdepicts.watched.flip hp
      rw [← hshown.history]
    rw [Monitors.clear, List.map_congr_left hblank, List.map_id']

theorem Reaches.descends (hload : Circuit.load text settings = .ok c)
    (hs : (ofCircuit c).Reaches s) : Descends (ofCircuit c) s := by
  obtain ⟨operations, rfl⟩ := hs
  exact descends_after (reset_of_load hload).1 operations

/-- Where the switches have their first levels, a reset leads back to the loaded circuit, but for
the outputs that are watched. -/
theorem reset_eq_ofCircuit (hload : Circuit.load text settings = .ok c)
    (hs : (ofCircuit c).Reaches s)
    (hlevels : s.network.switchLevels = c.network.switchLevels) :
    s.reset = { ofCircuit c with monitors := s.monitors.clear } := by
  have hdescends := hs.descends hload
  have hnetwork : s.network.reset = c.network := by
    rw [← Network.reset_eq_of_alike
      (Network.alike_reset_of_switchLevels hdescends.alike hlevels.symm)]
    exact (reset_of_load hload).2.1
  rw [reset_eq, hnetwork, show s.names = c.names from hdescends.names, ofCircuit]

/-- Assumes: two states of the simulator of a loaded circuit, reached by any operations. Where the
switches have the same levels, a reset makes of both the same network, and where they have the
levels that they were loaded with, it makes the loaded network. What is done after that goes as it
does after loading, with the same answers, levels, cycle counts and histories. Only the requests to
watch an output or to watch it no longer, and the history of an output, depend on the output being
watched as it was after loading, because a reset keeps the outputs that are watched. With the same
outputs watched it leads back to the very simulator that was loaded. -/
theorem reset_rewinds (hload : Circuit.load text settings = .ok c)
    (hs : (ofCircuit c).Reaches s) (ht : (ofCircuit c).Reaches t) :
    (s.network.switchLevels = t.network.switchLevels → s.reset.network = t.reset.network) ∧
    (s.network.switchLevels = c.network.switchLevels →
      s.reset.network = c.network ∧
      Replays (fun output ↦ output ∈ s.monitors.outputs ↔ output ∈ c.monitors.outputs)
        (ofCircuit c) s.reset ∧
      (s.monitors.outputs = c.monitors.outputs → s.reset = ofCircuit c)) := by
  refine ⟨fun hlevels ↦ ?_, fun hlevels ↦ ?_⟩
  · have hlike := (hs.descends hload).alike.symm.trans (ht.descends hload).alike
    exact Network.reset_eq_of_alike (Network.alike_reset_of_switchLevels hlike hlevels)
  · have hreset := reset_eq_ofCircuit hload hs hlevels
    have hclear : c.monitors.clear = c.monitors := (reset_of_load hload).2.2
    refine ⟨congrArg (·.network) hreset, ?_, fun houtputs ↦ ?_⟩
    · rw [hreset]
      refine (AgreeOn.intro _ fun output houtput ↦ ?_).replays
      show c.monitors.history? output = s.monitors.clear.history? output
      rw [← hclear, Monitors.history?_clear, Monitors.history?_clear]
      rw [← Monitors.isSome_history?, ← Monitors.isSome_history?] at houtput
      cases hsome : s.monitors.history? output <;> cases hfirst : c.monitors.history? output <;>
        simp_all
    · rw [hreset, Monitors.clear_eq, houtputs, ← Monitors.clear_eq, hclear]
      rfl

end Loaded

/-! ### A ring that a switch closes -/

/-- A clock, and a gate that finds no rest while a switch is on. -/
def switchedGate : String :=
  "devices { X is SWITCH; C is CLOCK; C has cycle 2; G is NAND; G has 2 inputs; } " ++
  "connections { device G { X to G.I1; G to G.I2; } } monitor { G; }"

/-- A cycle that succeeds, one that is abandoned with the switch on, and the switch off again. -/
def switchedGateUse : List Operation :=
  [.step, .setSwitch "X" Level.high, .step, .setSwitch "X" Level.low]

theorem switchedGate_rewinds : ∃ c, Circuit.load switchedGate = .ok c ∧
    (ofCircuit c).after switchedGateUse ≠ ofCircuit c ∧
    ((ofCircuit c).after switchedGateUse).reset = ofCircuit c := by
  obtain ⟨c, hload, hchanged, hlevels, houtputs⟩ := Circuit.exists_loaded switchedGate
    (P := fun c ↦ (ofCircuit c).after switchedGateUse ≠ ofCircuit c ∧
      ((ofCircuit c).after switchedGateUse).network.switchLevels = c.network.switchLevels ∧
      ((ofCircuit c).after switchedGateUse).monitors.outputs = c.monitors.outputs)
    (by decide +kernel)
  have hreached : (ofCircuit c).Reaches ((ofCircuit c).after switchedGateUse) := ⟨_, rfl⟩
  exact ⟨c, hload, hchanged, ((reset_rewinds hload hreached hreached).2 hlevels).2.2 houtputs⟩

/-- A reset is no fresh start when another output is watched: the request to watch it is refused
after the reset, with the switch as it was loaded, and granted after loading. -/
theorem switchedGate_keeps_points : ∃ c, Circuit.load switchedGate = .ok c ∧
    ((ofCircuit c).after [.addMonitor "X"]).network.switchLevels = c.network.switchLevels ∧
    (((ofCircuit c).after [.addMonitor "X"]).reset.perform (.addMonitor "X")).1 =
      .failed (.monitorRefused "X" .alreadyMonitored) ∧
    ((ofCircuit c).perform (.addMonitor "X")).1 = .done :=
  Circuit.exists_loaded _ (by decide +kernel)

end Simulator

end Breadboard
