import Breadboard.Proofs.Description.TableBuilding
import Breadboard.Proofs.Simulator.Renaming
import Breadboard.Proofs.Simulator.Signals

/-!
# A simulator that makes nothing up

Where the program finds something missing it has something to put in its place: a question mark for
a name, the low level for an output, nothing at all for the name of a signal. Its operations are
carried out here in `Checked`, on a table, so that they stop at the first such lapse instead.

Whatever the text and whatever is asked of the simulator that comes of it, they never stop, and do
what they do on a network where everything has its stand-in (`nothing_made_up`).
-/

set_option autoImplicit false
set_option relaxedAutoImplicit false

namespace Breadboard

open Description

/-- The names that a user is shown: of the switches, of the watched outputs and of the others. -/
structure Screen where
  switches : List String
  watched : List String
  unwatched : List String
deriving DecidableEq

namespace Simulator

section Operations

variable {m : Type → Type} [Fallback m] {σ : Type} [Store m σ]

/-- What a simulator shows. -/
def screenM (s : Simulator σ) : m Screen :=
  return ⟨← s.switchNamesM, ← s.signalNamesM, ← s.unmonitoredNamesM⟩

end Operations

/-- What a simulator of a network shows. -/
def screen (s : Simulator) : Screen :=
  Id.run s.screenM

/-! ### Simulators in tables -/

variable {m : Type → Type} [Fallback m] {s : Simulator Table} {u : Simulator} {output : Terminal}

/-- The simulator of the network that is stored. -/
def stored (s : Simulator Table) : Simulator :=
  ⟨⟨s.names, s.network.network, s.monitors⟩, s.cycles⟩

theorem names_stored (s : Simulator Table) : s.stored.names = s.names := rfl

theorem network_stored (s : Simulator Table) : s.stored.network = s.network.network := rfl

theorem monitors_stored (s : Simulator Table) : s.stored.monitors = s.monitors := rfl

/-- A simulator with a table in use, that stands for a given one. -/
structure Keeps (s : Simulator Table) (u : Simulator) : Prop where
  table : s.network.InUse
  stored : s.stored = u

/-- A reply that is as given, with a simulator that stands for a given one. -/
structure Replies {ρ : Type} (result : ρ × Simulator Table) (expected : ρ × Simulator) : Prop where
  reply : result.1 = expected.1
  keeps : result.2.Keeps expected.2

/-! ### Running -/

/-- One cycle. What is watched is there, so its level is. -/
theorem Keeps.stepM (h : s.Keeps u) (hu : u.Labelled) :
    WithoutLapse (s.stepM : m (Except (Simulator Table) (Simulator Table)))
      (SameOutcome Keeps Keeps · u.step) := by
  obtain ⟨htable, rfl⟩ := h
  have hlabelled := hu.perform .step
  rw [perform_step_eq] at hlabelled
  refine htable.cycle.bind fun result hsame ↦ ?_
  rw [step_eq, network_stored] at hlabelled ⊢
  generalize s.network.network.cycle = expected at hsame hlabelled ⊢
  cases hsame with
  | @ok next _ hkeeps =>
    obtain rfl := hkeeps.network
    have hthere : ∀ output ∈ s.monitors.outputs, (next.network.output? output).isSome := by
      intro output houtput
      have hrecorded : output ∈ (s.monitors.record next.network).outputs := by
        rwa [Monitors.outputs_record]
      exact (Network.mem_terminals_iff hlabelled.distinct).mp
        (hlabelled.there output hrecorded)
    dsimp only
    rw [Monitors.recordM_eq hkeeps.toInUse hthere, pure_bind]
    exact .pure (.ok ⟨hkeeps.toInUse, rfl⟩)
  | error hkeeps =>
    obtain rfl := hkeeps.network
    exact .pure (.error ⟨hkeeps.toInUse, rfl⟩)

theorem Keeps.runM (h : s.Keeps u) (hu : u.Labelled) (cycles : Nat) :
    WithoutLapse (s.runM cycles : m (Except (Simulator Table) (Simulator Table)))
      (SameOutcome Keeps Keeps · (u.run cycles)) := by
  induction cycles generalizing s u with
  | zero => exact .pure (.ok h)
  | succ cycles ih =>
    have hlabelled := hu.perform .step
    rw [perform_step_eq] at hlabelled
    rw [run_succ]
    refine (h.stepM hu).bind fun result hsame ↦ ?_
    generalize u.step = expected at hsame hlabelled ⊢
    cases hsame with
    | ok hnext => exact ih hnext hlabelled
    | error hleft => exact .pure (.error hleft)

theorem Keeps.resetM (h : s.Keeps u) :
    WithoutLapse (s.resetM : m (Simulator Table)) (Keeps · u.reset) := by
  obtain ⟨htable, rfl⟩ := h
  refine htable.reset.bind fun t hkeeps ↦ .pure ⟨hkeeps.toInUse, ?_⟩
  rw [reset_eq]
  exact congrArg (fun n ↦ Simulator.mk ⟨s.names, n, s.monitors.clear⟩ 0) hkeeps.network

theorem oscillationM_eq (s : Simulator Table) :
    s.oscillationM = (pure s.stored.oscillation : m Failure) :=
  pure_bind ..

/-- Cycles end with the same answer, at rest or not. -/
theorem replies_ranToM {result : Except (Simulator Table) (Simulator Table)}
    {expected : Except Simulator Simulator} (h : SameOutcome Keeps Keeps result expected) :
    WithoutLapse (ranToM result : m (Answer × Simulator Table)) (Replies · (ranTo expected)) := by
  cases h with
  | ok hnext => exact .pure ⟨rfl, hnext⟩
  | error hleft =>
    obtain ⟨htable, rfl⟩ := hleft
    rw [ranToM, oscillationM_eq, pure_bind]
    exact .pure ⟨rfl, htable, rfl⟩

/-! ### Requests that may fail -/

/-- Where a request fails, nothing has changed. -/
theorem Keeps.replies_answered (h : s.Keeps u)
    {result : Except Failure (Answer × Simulator Table)}
    {expected : Except Failure (Answer × Simulator)}
    (hsame : SameOutcome Replies Eq result expected) :
    Replies (s.answered result) (u.answered expected) := by
  cases hsame with
  | ok hreplies => exact hreplies
  | error hfailure => exact ⟨congrArg Answer.failed hfailure, h⟩

theorem Keeps.setSwitchM (h : s.Keeps u) (name : String) (level : Level) :
    WithoutLapse (s.setSwitchM name level : m (Except Failure (Simulator Table)))
      (SameOutcome Keeps Eq · (u.setSwitch name level)) := by
  obtain ⟨htable, rfl⟩ := h
  rw [Simulator.setSwitchM, Names.deviceM?_eq htable, pure_bind, setSwitch_eq, names_stored,
    network_stored]
  cases (s.names.query name).filter s.network.network.contains with
  | none => exact .pure (.error rfl)
  | some id =>
    refine (htable.setSwitch? id level).bind fun result hsame ↦ ?_
    dsimp only
    generalize s.network.network.setSwitch? id level = expected at hsame ⊢
    cases hsame with
    | none => exact .pure (.error rfl)
    | some hkeeps =>
      obtain rfl := hkeeps.network
      exact .pure (.ok ⟨hkeeps.toInUse, rfl⟩)

theorem Keeps.resolveM_eq (h : s.Keeps u) (name : String) :
    s.resolveM name = (pure (u.resolve name) : m (Option Terminal)) := by
  obtain ⟨htable, rfl⟩ := h
  rw [resolveM, resolve_eq, names_stored, network_stored]
  cases s.names.queryTerminal name with
  | none => rfl
  | some output =>
    dsimp only [Store.output?]
    rw [htable.signal?_eq, pure_bind, Option.filter_some]

theorem Keeps.signalM_eq (h : s.Keeps u) (name : String) :
    s.signalM name = (pure (u.signal name) : m (Except Failure Terminal)) := by
  rw [signalM, h.resolveM_eq, pure_bind, signal_eq]

theorem Keeps.addMonitorM (h : s.Keeps u) (name : String) :
    WithoutLapse (s.addMonitorM name : m (Except Failure (Simulator Table)))
      (SameOutcome Keeps Eq · (u.addMonitor name)) := by
  rw [Simulator.addMonitorM, h.signalM_eq, pure_bind, addMonitor_eq]
  cases u.signal name with
  | error failure => exact .pure (.error rfl)
  | ok output =>
    obtain ⟨htable, rfl⟩ := h
    dsimp only
    rw [Monitors.addM_eq htable, pure_bind, monitors_stored, network_stored]
    cases s.monitors.add s.network.network output with
    | ok monitors => exact .pure (.ok ⟨htable, rfl⟩)
    | error error => exact .pure (.error rfl)

/-! ### Whatever is asked -/

/-- What is said of what comes of a request, with an answer. -/
theorem replies_done {result : Except Failure (Simulator Table)}
    {expected : Except Failure Simulator} (hsame : SameOutcome Keeps Eq result expected) :
    SameOutcome Replies Eq (result.map (Answer.done, ·)) (expected.map (Answer.done, ·)) := by
  cases hsame with
  | ok hkeeps => exact .ok ⟨rfl, hkeeps⟩
  | error hfailure => exact .error hfailure

/-- Whatever a simulator is asked to do, it does in a table as it does it on a network. -/
theorem Keeps.performM (h : s.Keeps u) (hu : u.Labelled) (operation : Operation) :
    WithoutLapse (s.performM operation : m (Answer × Simulator Table))
      (Replies · (u.perform operation)) := by
  cases operation with
  | step => exact (h.stepM hu).bind fun _ hsame ↦ replies_ranToM hsame
  | run cycles => exact (h.runM hu cycles).bind fun _ hsame ↦ replies_ranToM hsame
  | setSwitch name level =>
    exact (h.setSwitchM name level).bind fun _ hsame ↦
      .pure (h.replies_answered (replies_done hsame))
  | addMonitor name =>
    exact (h.addMonitorM name).bind fun _ hsame ↦
      .pure (h.replies_answered (replies_done hsame))
  | removeMonitor name =>
    rw [Simulator.performM, removeMonitorM, h.signalM_eq, pure_bind, pure_bind,
      perform_removeMonitor_eq, removeMonitor_eq]
    refine .pure (h.replies_answered ?_)
    obtain ⟨htable, rfl⟩ := h
    cases s.stored.signal name with
    | error failure => exact .error rfl
    | ok output => exact .ok ⟨rfl, htable, rfl⟩
  | reset => exact h.resetM.bind fun _ hkeeps ↦ .pure ⟨rfl, hkeeps⟩

/-- A request is replied to in a table as on a network. -/
theorem Keeps.attendM (h : s.Keeps u) (hu : u.Labelled) (request : Request) :
    WithoutLapse (s.attendM request : m (Reply × Simulator Table))
      (Replies · (u.attend request)) := by
  cases request with
  | operate operation =>
    rw [attend_operate_eq]
    exact (h.performM hu operation).bind fun _ hreplies ↦
      .pure ⟨congrArg Reply.answer hreplies.reply, hreplies.keeps⟩
  | trace signal =>
    have hsignal := h.resolveM_eq (m := m) signal
    obtain ⟨htable, rfl⟩ := h
    rw [Simulator.attendM, traceM, hsignal, pure_bind, pure_bind]
    exact .pure ⟨rfl, htable, rfl⟩

theorem Labelled.attend (hu : u.Labelled) (request : Request) :
    (u.attend request).2.Labelled := by
  cases request with
  | operate operation => exact hu.perform operation
  | trace signal => exact hu

theorem Labelled.attendAll (hu : u.Labelled) (requests : List Request) :
    (u.attendAll requests).2.Labelled := by
  rw [attendAll_snd]
  exact hu.after _

/-- Requests are replied to one after another: the induction is on what is still asked. -/
theorem Keeps.attendAllM (h : s.Keeps u) (hu : u.Labelled) (requests : List Request) :
    WithoutLapse (s.attendAllM requests : m (List Reply × Simulator Table))
      (Replies · (u.attendAll requests)) := by
  induction requests generalizing s u with
  | nil => exact .pure ⟨rfl, h⟩
  | cons request requests ih =>
    rw [attendAll_cons]
    refine (h.attendM hu request).bind fun first hfirst ↦ ?_
    refine (ih hfirst.keeps (hu.attend request)).bind fun rest hrest ↦ .pure ⟨?_, hrest.keeps⟩
    exact congrArg₂ List.cons hfirst.reply hrest.reply

/-! ### What there is to see -/

/-- All that there is to see of a simulator in a table can be seen without a lapse, and is what
there is to see of the simulator that it stands for. -/
structure Clear (s : Simulator Table) : Prop where
  screen : (s.screenM : Checked Screen) = .ok s.stored.screen
  outputs : ∀ output, (s.network.signal? output : Checked (Option Level)) =
    .ok (s.stored.network.output? output)
  inputs : ∀ id port, (s.network.input? id port : Checked (Option Level)) =
    .ok (s.stored.network.input? id port)
  /-- An output that is there has a name. -/
  named : ∀ output, (s.stored.network.output? output).isSome →
    ∃ name, (s.names.nameOfTerminalM output : Checked String) = .ok name ∧
      s.names.terminal? output = some name
  /-- What drives an input is there. -/
  driven : ∀ id port source, s.stored.network.driver? id port = some source →
    (s.stored.network.output? source).isSome
  /-- What is watched is there. -/
  watched : ∀ output ∈ s.stored.monitors.outputs, (s.stored.network.output? output).isSome

theorem Labelled.isSome_terminal? (hu : u.Labelled) (hthere : output ∈ u.network.terminals) :
    (u.names.terminal? output).isSome := by
  obtain ⟨name, hname⟩ := hu.called output hthere
  exact Option.isSome_of_eq_some hname

/-- A device has a name, for every device has an output. -/
theorem Labelled.isSome_string? (hu : u.Labelled) {d : Device} (hd : d ∈ u.network.devices) :
    (u.names.string? d.id).isSome := by
  obtain ⟨output, houtput⟩ := List.exists_mem_of_ne_nil _ (d.outputs_ne_nil u.network.ports)
  have hthere : ⟨d.id, output.1⟩ ∈ u.network.terminals :=
    List.mem_flatMap.mpr ⟨d, hd, List.mem_map_of_mem houtput⟩
  obtain ⟨name, hname⟩ := hu.called _ hthere
  obtain ⟨called, hcalls, -⟩ := Names.terminal?_eq_some_iff.mp hname
  exact Option.isSome_of_eq_some hcalls.device

theorem screenM_eq (hu : s.stored.Labelled) :
    s.screenM = (pure s.stored.screen : m Screen) := by
  have hswitches : ∀ id ∈ s.network.network.devicesOf (some .switch),
      (s.names.string? id).isSome := by
    intro id hid
    obtain ⟨d, hd, rfl⟩ := List.mem_map.mp hid
    exact hu.isSome_string? (List.mem_of_mem_filter hd)
  have hwatched : ∀ output ∈ s.monitors.outputs, (s.names.terminal? output).isSome :=
    fun output houtput ↦ hu.isSome_terminal? (hu.there output houtput)
  have hunwatched : ∀ output ∈ s.monitors.unmonitored s.network.network,
      (s.names.terminal? output).isSome :=
    fun output houtput ↦ hu.isSome_terminal? (List.mem_of_mem_filter houtput)
  have hswitchNames : s.switchNamesM = (pure s.stored.switchNames : m (List String)) := by
    rw [switchNames_eq]
    exact (pure_bind ..).trans (filterMapM_provided_eq_pure hswitches)
  have hsignalNames : s.signalNamesM = (pure s.stored.signalNames : m (List String)) := by
    rw [signalNames_eq]
    exact filterMapM_provided_eq_pure hwatched
  have hunmonitoredNames :
      s.unmonitoredNamesM = (pure s.stored.unmonitoredNames : m (List String)) := by
    rw [unmonitoredNames_eq]
    exact (pure_bind ..).trans (filterMapM_provided_eq_pure hunwatched)
  rw [screenM, hswitchNames, pure_bind, hsignalNames, pure_bind, hunmonitoredNames, pure_bind]
  rfl

theorem Keeps.clear (h : s.Keeps u) (hu : u.Labelled) : s.Clear := by
  obtain ⟨htable, rfl⟩ := h
  exact {
    screen := screenM_eq hu
    outputs := htable.signal?_eq
    inputs := htable.ready.input?_eq
    named := by
      intro output hthere
      rw [← Network.mem_terminals_iff hu.distinct] at hthere
      obtain ⟨name, hname⟩ := hu.called output hthere
      exact ⟨name, Names.nameOfTerminalM_of_terminal? hname, hname⟩
    driven := fun _ _ _ ↦ htable.reachable.isSome_output?_of_driver?
    watched := fun output houtput ↦
      (Network.mem_terminals_iff hu.distinct).mp (hu.there output houtput) }

/-! ### From the text on -/

/-- Whatever the text, loading a table comes to a circuit that stands for the one on a network, or
to the same failure. -/
theorem keeps_loadM (text : String) (settings : Settings) :
    WithoutLapse (Circuit.loadM text settings : m (Except Failure (Circuit Table)))
      (SameOutcome (fun k c ↦ (ofCircuit k).Keeps (ofCircuit c)) Eq ·
        (Circuit.load text settings)) := by
  refine (Builder.keeps_buildM text settings).bind fun b hbuilt ↦ ?_
  have hquiet : b.stored.inOrder = b.inOrder := rfl
  rw [Circuit.load_eq, ← hbuilt.stored, hquiet]
  split
  · refine hbuilt.table.powerOn.bind fun t hkeeps ↦ .pure (.ok ⟨hkeeps.toInUse, ?_⟩)
    exact congrArg (fun n ↦ ofCircuit ⟨b.reader.names, n, b.monitors⟩) hkeeps.network
  · exact .pure (.error rfl)

/-- From a text to the last request nothing is made up. -/
structure NothingMadeUp (text : String) (settings : Settings) : Prop where
  /-- No word that is read as a name is refused, whatever the name table and the modes. -/
  words : ∀ names modes n refusal position,
    Scanner.answer ⟨.start text, names⟩ modes n ≠ .refused refusal position
  /-- Nor is a name of a range that starts with a name of the text. It gets the number that it gets
  as a name to be declared. -/
  ranges : ∀ first last list, .token first ∈ (Cursor.start text).readings.1 →
    first.lexeme = .name → expandRange first.text last = .ok list →
      ∀ names : Names, ∃ ids more, names.lookupAll list = (.ok ids, more) ∧
        names.resolveAll .declare list = (.ok ids, more)
  /-- Building never stops, and comes to what becomes of the description. -/
  built : ∃ b : Builder Table, (Circuit.buildM text settings : Checked (Builder Table)) = .ok b ∧
    b.stored = Circuit.build text settings
  /-- Whatever is wrong with the description, the devices and the ports have names in the end. -/
  named : (Circuit.build text settings).Named
  /-- Loading never stops, and comes to the simulator of the circuit, or to the same failure. -/
  loaded : ∃ loaded : Except Failure (Circuit Table),
    (Circuit.loadM text settings : Checked (Except Failure (Circuit Table))) = .ok loaded ∧
      loaded.map (fun c ↦ (ofCircuit c).stored) = (Circuit.load text settings).map ofCircuit
  /-- Whatever is asked of the simulator of a circuit, it replies as it does on a network, and all
  that there is to see in the end can be seen. -/
  used : ∀ c, Circuit.load text settings = .ok c → ∀ requests, ∃ (k : Circuit Table)
    (replies : List Reply) (last : Simulator Table),
    (Circuit.loadM text settings : Checked (Except Failure (Circuit Table))) = .ok (.ok k) ∧
      ((ofCircuit k).attendAllM requests : Checked (List Reply × Simulator Table)) =
        .ok (replies, last) ∧
      (ofCircuit c).attendAll requests = (replies, last.stored) ∧ last.Clear

/-- Whatever the text, no name that the program makes out in it is refused, and whatever is asked of
the circuit, no name is missing that is asked for, no level is taken of an output that is not there,
and no place is out of range. -/
theorem nothing_made_up (text : String) (settings : Settings) : NothingMadeUp text settings := by
  obtain ⟨b, hbuild, hbuilt⟩ := Builder.keeps_buildM (m := Checked) text settings
  obtain ⟨loaded, hload, hsame⟩ := keeps_loadM (m := Checked) text settings
  exact {
    words := Scanner.answer_ne_refused text
    ranges := fun _ _ _ hfirst hname hlist ↦ lookupAll_of_range hfirst hname hlist
    built := ⟨b, hbuild, hbuilt.stored⟩
    named := hbuilt.stored ▸ hbuilt.named
    loaded := by
      refine ⟨loaded, hload, ?_⟩
      generalize Circuit.load text settings = expected at hsame
      cases hsame with
      | ok hkeeps => exact congrArg Except.ok hkeeps.stored
      | error hfailure => exact congrArg Except.error hfailure
    used := by
      intro c hc requests
      have hlabelled := labelled_ofCircuit hc
      rw [hc] at hsame
      cases hsame with
      | @ok k _ hkeeps =>
        obtain ⟨⟨replies, last⟩, hattend, hreply, hlast⟩ :=
          hkeeps.attendAllM (m := Checked) hlabelled requests
        refine ⟨k, replies, last, hload, hattend, Prod.ext hreply.symm hlast.stored.symm, ?_⟩
        exact hlast.clear (hlabelled.attendAll requests) }

end Simulator

end Breadboard
