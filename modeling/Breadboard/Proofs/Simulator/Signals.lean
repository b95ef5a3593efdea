import Breadboard.Proofs.Description.Transfer
import Breadboard.Proofs.Simulator.Recording

/-!
# Signals and outputs

The name of an output is printed from the names of its device and its port, and read by cutting it
at the first dot and looking up both parts. In a regular name table no device has a dot in its name
and no name two numbers, so the two undo each other, whatever string is read
(`queryTerminal_eq_some_iff`).

In a simulator of a loaded circuit every output can be called, no output is listed twice, and what
is watched is there (`Labelled`), and operations keep this. So its outputs and their names go
together one by one, each name is in one of the two lists of names (`SignalsNamed`), and a request
to watch an output or to watch it no longer is settled by the list that its name is in, and moves
that one name to the other list, or changes nothing (`WatchedByName`). The whole is
`signals_one_to_one`.
-/

set_option autoImplicit false
set_option relaxedAutoImplicit false

namespace Breadboard

open Description (OutputName Calls Regular)

/-! ### Printing and reading -/

namespace Names

variable {names : Names} {t : Terminal} {signal : String}

/-- The parts of a signal, put together again. -/
theorem signal_splitSignal (signal : String) :
    OutputName.signal ⟨(splitSignal signal).1, (splitSignal signal).2⟩ = signal := by
  have hparts := List.takeWhile_append_dropWhile (p := fun c ↦ decide (c ≠ '.'))
    (l := signal.toList)
  have hhead := List.head?_dropWhile_not (fun c ↦ decide (c ≠ '.')) signal.toList
  unfold splitSignal
  split
  · rfl
  · next c port hrest =>
    rw [hrest] at hparts hhead
    obtain rfl : c = '.' := by simpa using hhead
    rw [← String.toList_inj]
    simpa [OutputName.signal] using hparts

/-- What is printed is the signal of the names under which an output goes. -/
theorem terminal?_eq_some_iff :
    names.terminal? t = some signal ↔ ∃ output, Calls names t output ∧ output.signal = signal := by
  obtain ⟨device, port⟩ := t
  constructor
  · intro h
    obtain ⟨deviceName, hdevice, h⟩ := Option.bind_eq_some_iff.mp h
    cases port with
    | none => exact ⟨⟨deviceName, none⟩, ⟨hdevice, rfl⟩, Option.some_inj.mp h⟩
    | some port =>
      obtain ⟨portName, hport, hsignal⟩ := Option.map_eq_some_iff.mp h
      exact ⟨⟨deviceName, some portName⟩, ⟨hdevice, congrArg some hport⟩, hsignal⟩
  · rintro ⟨⟨deviceName, portName⟩, ⟨hdevice, hport⟩, rfl⟩
    rw [terminal?, hdevice, Option.bind_some]
    cases port with
    | none =>
      cases portName with
      | none => rfl
      | some portName => cases hport
    | some port =>
      cases portName with
      | none => cases hport
      | some portName =>
        rw [Option.map_some, Option.map_some, Option.some_inj] at hport
        dsimp only
        rw [hport]
        rfl

/-- What is read goes under the parts of the signal. -/
theorem queryTerminal_eq_some_iff_calls (hnames : names.Faithful) :
    names.queryTerminal signal = some t ↔
      Calls names t ⟨(splitSignal signal).1, (splitSignal signal).2⟩ := by
  obtain ⟨device, port⟩ := t
  rw [queryTerminal, Option.bind_eq_some_iff]
  constructor
  · rintro ⟨id, hid, h⟩
    rw [hnames.query_eq_some_iff] at hid
    cases hsplit : (splitSignal signal).2 with
    | none =>
      rw [hsplit] at h
      obtain ⟨rfl, rfl⟩ := Terminal.mk.inj (Option.some_inj.mp h)
      exact ⟨hid, rfl⟩
    | some portName =>
      rw [hsplit] at h
      obtain ⟨portId, hport, hsame⟩ := Option.map_eq_some_iff.mp h
      obtain ⟨rfl, rfl⟩ := Terminal.mk.inj hsame
      exact ⟨hid, congrArg some (hnames.query_eq_some_iff.mp hport)⟩
  · rintro ⟨hdevice, hport⟩
    refine ⟨device, hnames.query_eq_some_iff.mpr hdevice, ?_⟩
    cases hsplit : (splitSignal signal).2 with
    | none =>
      rw [hsplit] at hport
      obtain rfl : port = none := Option.map_eq_none_iff.mp hport
      rfl
    | some portName =>
      rw [hsplit] at hport
      obtain ⟨portId, rfl, hname⟩ := Option.map_eq_some_iff.mp hport
      dsimp only
      rw [hnames.query_eq_some_iff.mpr hname, Option.map_some]

/-- In a regular table reading and printing undo each other. -/
theorem queryTerminal_eq_some_iff (hnames : Regular names) :
    names.queryTerminal signal = some t ↔ names.terminal? t = some signal := by
  rw [queryTerminal_eq_some_iff_calls hnames.faithful, terminal?_eq_some_iff]
  constructor
  · exact fun h ↦ ⟨_, h, signal_splitSignal signal⟩
  · rintro ⟨output, hcalls, rfl⟩
    have hidentifier := hnames.identifiers _ ⟨_, hcalls.device⟩
    rw [Description.splitSignal_signal (Description.dot_not_mem_of_isIdentifier hidentifier)]
    exact hcalls

theorem terminal?_injective (hnames : Regular names) {u : Terminal}
    (ht : names.terminal? t = some signal) (hu : names.terminal? u = some signal) : t = u :=
  Option.some_inj.mp (((queryTerminal_eq_some_iff hnames).mpr ht).symm.trans
    ((queryTerminal_eq_some_iff hnames).mpr hu))

end Names

namespace Simulator

variable {s t : Simulator} {c : Circuit} {output : Terminal} {name : String}

/-! ### What operations keep -/

/-- Every output has a name to be called by, none is listed twice, and what is watched is there and
watched once. -/
structure Labelled (s : Simulator) : Prop where
  names : Regular s.names
  distinct : s.network.DistinctNames
  listed : s.network.terminals.Nodup
  called : ∀ output ∈ s.network.terminals, ∃ name, s.names.terminal? output = some name
  once : s.monitors.outputs.Nodup
  there : ∀ output ∈ s.monitors.outputs, output ∈ s.network.terminals

theorem Descends.terminals_eq (h : Descends s t) : t.network.terminals = s.network.terminals :=
  ((h.alike.sameWiring Element.kind_maskSetting).terminals_eq).symm

/-- What keeps the names and the wiring keeps the outputs labelled, if it watches none that is not
there and none twice. -/
theorem Labelled.descends (h : Labelled s) (hdescends : Descends s t)
    (honce : t.monitors.outputs.Nodup)
    (hthere : ∀ output ∈ t.monitors.outputs, output ∈ s.network.terminals) : Labelled t where
  names := hdescends.names ▸ h.names
  distinct := hdescends.distinctNames h.distinct
  listed := hdescends.terminals_eq ▸ h.listed
  called := hdescends.terminals_eq ▸ hdescends.names ▸ h.called
  once := honce
  there := hdescends.terminals_eq ▸ hthere

theorem outputs_run (s : Simulator) (cycles : Nat) :
    (ranTo (s.run cycles)).2.monitors.outputs = s.monitors.outputs := by
  induction cycles generalizing s with
  | zero => rfl
  | succ cycles ih =>
    rw [run_succ, step_eq]
    cases s.network.cycle with
    | error left => rfl
    | ok next => exact (ih _).trans (Monitors.outputs_record ..)

/-- Only requests about watched outputs change what is watched. -/
theorem outputs_perform {operation : Operation} (h : operation.signal? = none) :
    (s.perform operation).2.monitors.outputs = s.monitors.outputs := by
  cases operation with
  | step =>
    rw [perform_step_eq, ranTo_step]
    exact outputs_run s 1
  | run cycles => exact outputs_run s cycles
  | setSwitch name level =>
    rw [perform_setSwitch_eq]
    cases hset : s.setSwitch name level with
    | error failure => rfl
    | ok next =>
      obtain ⟨id, network, -, rfl⟩ := setSwitch_eq_ok hset
      rfl
  | addMonitor => cases h
  | removeMonitor => cases h
  | reset => exact Monitors.outputs_clear _

theorem Labelled.perform (h : Labelled s) (operation : Operation) :
    Labelled (s.perform operation).2 := by
  have hdescends := descends_perform h.distinct operation
  cases hsignal : operation.signal? with
  | none =>
    have houtputs := outputs_perform (s := s) hsignal
    exact h.descends hdescends (houtputs ▸ h.once) (houtputs ▸ h.there)
  | some name =>
    cases operation with
    | addMonitor name =>
      cases hresolve : s.resolve name with
      | none => exact (perform_unresolved hresolve).1 ▸ h
      | some output =>
        have hthere := isSome_output?_of_resolve hresolve
        rw [perform_addMonitor hresolve] at hdescends ⊢
        by_cases hwatched : output ∈ s.monitors.outputs
        · show Labelled { s with monitors := s.monitors.watch output }
          rw [Monitors.watch, if_pos hwatched]
          exact h
        · have houtputs := Monitors.outputs_watch hwatched
          refine h.descends hdescends ?_ ?_
          · rw [houtputs]
            exact List.nodup_append.mpr ⟨h.once, List.nodup_singleton output,
              fun other hother _ hlast ↦ fun hsame ↦
                hwatched (List.mem_singleton.mp hlast ▸ hsame ▸ hother)⟩
          · rw [houtputs]
            intro other hother
            rcases List.mem_append.mp hother with hold | hnew
            · exact h.there other hold
            · rw [List.mem_singleton.mp hnew]
              exact (Network.mem_terminals_iff h.distinct).mpr hthere
    | removeMonitor name =>
      cases hresolve : s.resolve name with
      | none => exact (perform_unresolved hresolve).2 ▸ h
      | some output =>
        rw [perform_removeMonitor hresolve] at hdescends ⊢
        have houtputs := Monitors.outputs_remove s.monitors output
        refine h.descends hdescends ?_ ?_
        · rw [houtputs]
          exact h.once.filter _
        · rw [houtputs]
          exact fun other hother ↦ h.there other (List.mem_of_mem_filter hother)
    | _ => cases hsignal

theorem Labelled.after (h : Labelled s) (operations : List Operation) :
    Labelled (s.after operations) := by
  induction operations generalizing s with
  | nil => exact h
  | cons operation rest ih => exact ih (h.perform operation)

/-! ### Names and outputs -/

/-- A signal is read as an output exactly if the output is there and goes by this name. -/
theorem Labelled.resolve_eq_some_iff (h : Labelled s) : s.resolve name = some output ↔
    output ∈ s.network.terminals ∧ s.names.terminal? output = some name := by
  rw [resolve_eq, Option.filter_eq_some_iff, Names.queryTerminal_eq_some_iff h.names,
    Network.mem_terminals_iff h.distinct, and_comm]

theorem Labelled.mem_signalNames_iff (h : Labelled s) : name ∈ s.signalNames ↔
    ∃ output, s.resolve name = some output ∧ output ∈ s.monitors.outputs := by
  rw [signalNames_eq, List.mem_filterMap]
  refine exists_congr fun output ↦ ?_
  rw [h.resolve_eq_some_iff]
  exact ⟨fun ⟨hwatched, hname⟩ ↦ ⟨⟨h.there output hwatched, hname⟩, hwatched⟩,
    fun ⟨⟨_, hname⟩, hwatched⟩ ↦ ⟨hwatched, hname⟩⟩

theorem Labelled.mem_unmonitoredNames_iff (h : Labelled s) : name ∈ s.unmonitoredNames ↔
    ∃ output, s.resolve name = some output ∧ output ∉ s.monitors.outputs := by
  rw [unmonitoredNames_eq, List.mem_filterMap]
  refine exists_congr fun output ↦ ?_
  rw [h.resolve_eq_some_iff, List.mem_filter, decide_eq_true_iff, and_right_comm]

/-- The outputs that are watched and those that are not are all the outputs. -/
theorem Labelled.perm_terminals (h : Labelled s) :
    (s.monitors.outputs ++ s.network.terminals.filter (· ∉ s.monitors.outputs)).Perm
      s.network.terminals := by
  have hnodup : (s.monitors.outputs ++
      s.network.terminals.filter (· ∉ s.monitors.outputs)).Nodup := by
    refine List.nodup_append.mpr ⟨h.once, h.listed.filter _, ?_⟩
    rintro output hwatched other hother rfl
    exact of_decide_eq_true (List.mem_filter.mp hother).2 hwatched
  refine (List.perm_ext_iff_of_nodup hnodup h.listed).mpr fun output ↦ ?_
  rw [List.mem_append, List.mem_filter, decide_eq_true_iff]
  refine ⟨fun hmem ↦ hmem.elim (h.there output) And.left, fun hthere ↦ ?_⟩
  exact (em (output ∈ s.monitors.outputs)).imp id fun hnot ↦ ⟨hthere, hnot⟩

/-- The outputs of a simulator and their names go together one by one. -/
structure SignalsNamed (s : Simulator) : Prop where
  /-- A string is read as an output exactly if the output is there and goes by this name. -/
  resolved : ∀ name output, s.resolve name = some output ↔
    output ∈ s.network.terminals ∧ s.names.terminal? output = some name
  /-- Every output has a name. -/
  named : ∀ output ∈ s.network.terminals, ∃ name, s.names.terminal? output = some name
  /-- No name is in both lists, or in one of them twice. -/
  disjoint : (s.signalNames ++ s.unmonitoredNames).Nodup
  /-- Together the lists are the names of all outputs. -/
  complete : ((s.signalNames ++ s.unmonitoredNames).map some).Perm
    (s.network.terminals.map s.names.terminal?)
  /-- The first list is the names of the watched outputs, in order. -/
  watched : s.signalNames.map some = s.monitors.outputs.map s.names.terminal?

theorem map_some_filterMap {α β : Type} {f : α → Option β} {list : List α}
    (h : ∀ a ∈ list, ∃ b, f a = some b) : (list.filterMap f).map some = list.map f := by
  induction list with
  | nil => rfl
  | cons a list ih =>
    obtain ⟨⟨b, hb⟩, hrest⟩ := List.forall_mem_cons.mp h
    rw [List.filterMap_cons_some hb, List.map_cons, List.map_cons, ih hrest, hb]

theorem Labelled.signalsNamed (h : Labelled s) : SignalsNamed s := by
  have hperm : (s.signalNames ++ s.unmonitoredNames).Perm
      (s.network.terminals.filterMap s.names.terminal?) := by
    rw [signalNames_eq, unmonitoredNames_eq, ← List.filterMap_append]
    exact h.perm_terminals.filterMap _
  have hnodup : (s.network.terminals.filterMap s.names.terminal?).Nodup :=
    h.listed.filterMap fun first second name hfirst hsecond ↦
      Names.terminal?_injective h.names hfirst hsecond
  exact {
    resolved := fun _ _ ↦ h.resolve_eq_some_iff
    named := h.called
    disjoint := hperm.nodup_iff.mpr hnodup
    complete := map_some_filterMap h.called ▸ hperm.map some
    watched := by
      rw [signalNames_eq]
      exact map_some_filterMap fun output houtput ↦ h.called output (h.there output houtput) }

/-! ### Requests by name -/

/-- One operation takes a name off the second list and puts it at the end of the first. -/
structure TakesUp (name : String) (s t : Simulator) : Prop where
  signalNames : t.signalNames = s.signalNames ++ [name]
  unmonitoredNames : t.unmonitoredNames = s.unmonitoredNames.erase name

/-- One operation takes a name off the first list and puts it into the second, in its place. -/
structure GivesUp (name : String) (s t : Simulator) : Prop where
  signalNames : t.signalNames = s.signalNames.erase name
  mem : name ∈ t.unmonitoredNames
  unmonitoredNames : t.unmonitoredNames.erase name = s.unmonitoredNames

/-- A request to watch an output, or to watch it no longer, is settled by the list that its name is
in. -/
structure WatchedByName (s : Simulator) (name : String) : Prop where
  added : (s.perform (.addMonitor name)).1 = .done ↔ name ∈ s.unmonitoredNames
  refused : (s.perform (.addMonitor name)).1 = .failed (.monitorRefused name .alreadyMonitored) ↔
    name ∈ s.signalNames
  notAdded : (s.perform (.addMonitor name)).1 = .failed (.unknownSignal name) ↔
    name ∉ s.signalNames ∧ name ∉ s.unmonitoredNames
  removed : (s.perform (.removeMonitor name)).1 = .removed true ↔ name ∈ s.signalNames
  notWatched : (s.perform (.removeMonitor name)).1 = .removed false ↔ name ∈ s.unmonitoredNames
  notRemoved : (s.perform (.removeMonitor name)).1 = .failed (.unknownSignal name) ↔
    name ∉ s.signalNames ∧ name ∉ s.unmonitoredNames
  takesUp : name ∈ s.unmonitoredNames → TakesUp name s (s.perform (.addMonitor name)).2
  addsNothing : name ∉ s.unmonitoredNames → (s.perform (.addMonitor name)).2 = s
  givesUp : name ∈ s.signalNames → GivesUp name s (s.perform (.removeMonitor name)).2
  removesNothing : name ∉ s.signalNames → (s.perform (.removeMonitor name)).2 = s

/-- To leave out an output leaves out its name. -/
theorem filterMap_filter_ne (hnames : Regular s.names)
    (hname : s.names.terminal? output = some name) (list : List Terminal) :
    (list.filter (· ≠ output)).filterMap s.names.terminal? =
      (list.filterMap s.names.terminal?).filter (· != name) := by
  induction list with
  | nil => rfl
  | cons other list ih =>
    cases hfound : s.names.terminal? other with
    | none =>
      have hne : other ≠ output := by
        rintro rfl
        cases hname.symm.trans hfound
      rw [List.filter_cons_of_pos (by simpa using hne), List.filterMap_cons_none hfound,
        List.filterMap_cons_none hfound, ih]
    | some found =>
      rw [List.filterMap_cons_some hfound]
      by_cases hsame : other = output
      · obtain rfl : found = name := by simpa [hsame, hname] using hfound.symm
        rw [List.filter_cons_of_neg (by simp [hsame]), List.filter_cons_of_neg (by simp), ih]
      · have hne : found ≠ name := by
          rintro rfl
          exact hsame (Names.terminal?_injective hnames hfound hname)
        rw [List.filter_cons_of_pos (by simpa using hsame), List.filterMap_cons_some hfound,
          List.filter_cons_of_pos (by simpa using hne), ih]

theorem Labelled.takesUp (h : Labelled s) (hresolve : s.resolve name = some output)
    (hnew : output ∉ s.monitors.outputs) :
    TakesUp name s { s with monitors := s.monitors.watch output } := by
  have hname := (h.resolve_eq_some_iff.mp hresolve).2
  have houtputs := Monitors.outputs_watch hnew
  have hnodup : s.unmonitoredNames.Nodup := (List.nodup_append.mp h.signalsNamed.disjoint).2.1
  refine ⟨?_, ?_⟩
  · rw [signalNames_eq, signalNames_eq, houtputs, List.filterMap_append,
      List.filterMap_cons_some hname]
    rfl
  · have hfilter : s.network.terminals.filter (· ∉ s.monitors.outputs ++ [output]) =
        (s.network.terminals.filter (· ∉ s.monitors.outputs)).filter (· ≠ output) := by
      rw [List.filter_filter]
      refine List.filter_congr fun other _ ↦ ?_
      simp [and_comm]
    rw [hnodup.erase_eq_filter, unmonitoredNames_eq, unmonitoredNames_eq, houtputs, hfilter,
      filterMap_filter_ne h.names hname]

theorem Labelled.givesUp (h : Labelled s) (hresolve : s.resolve name = some output)
    (hwatched : output ∈ s.monitors.outputs) :
    GivesUp name s { s with monitors := s.monitors.remove output } := by
  obtain ⟨hthere, hname⟩ := h.resolve_eq_some_iff.mp hresolve
  have houtputs := Monitors.outputs_remove s.monitors output
  have hafter : Labelled { s with monitors := s.monitors.remove output } :=
    h.descends ⟨rfl, Network.Alike.refl ..⟩ (houtputs ▸ h.once.filter _)
      (houtputs ▸ fun other hother ↦ h.there other (List.mem_of_mem_filter hother))
  have hnodup := (List.nodup_append.mp h.signalsNamed.disjoint).1
  have hnodup' := (List.nodup_append.mp hafter.signalsNamed.disjoint).2.1
  refine ⟨?_, ?_, ?_⟩
  · rw [hnodup.erase_eq_filter, signalNames_eq, signalNames_eq, houtputs,
      filterMap_filter_ne h.names hname]
  · refine hafter.mem_unmonitoredNames_iff.mpr ⟨output, hresolve, ?_⟩
    show output ∉ (s.monitors.remove output).outputs
    rw [houtputs]
    simp
  · have hfilter : s.network.terminals.filter (· ∉ s.monitors.outputs) =
        (s.network.terminals.filter (· ∉ (s.monitors.remove output).outputs)).filter
          (· ≠ output) := by
      rw [houtputs, List.filter_filter]
      refine List.filter_congr fun other _ ↦ ?_
      by_cases hsame : other = output
      · simp [hsame, hwatched]
      · simp [hsame]
    rw [hnodup'.erase_eq_filter, unmonitoredNames_eq, unmonitoredNames_eq,
      hfilter, filterMap_filter_ne h.names hname]

/-- The three cases of a name, each with what comes of the requests. -/
theorem Labelled.watchedByName (h : Labelled s) (name : String) : WatchedByName s name := by
  cases hresolve : s.resolve name with
  | none =>
    have hsignal : name ∉ s.signalNames := by simp [h.mem_signalNames_iff, hresolve]
    have hother : name ∉ s.unmonitoredNames := by simp [h.mem_unmonitoredNames_iff, hresolve]
    obtain ⟨hadd, hremove⟩ := perform_unresolved hresolve
    constructor <;> simp [hadd, hremove, hsignal, hother]
  | some output =>
    have hadd := perform_addMonitor hresolve
    have hremove := perform_removeMonitor hresolve
    by_cases hwatched : output ∈ s.monitors.outputs
    · have hsignal : name ∈ s.signalNames := h.mem_signalNames_iff.mpr ⟨output, hresolve, hwatched⟩
      have hother : name ∉ s.unmonitoredNames := by
        simp [h.mem_unmonitoredNames_iff, hresolve, hwatched]
      rw [if_pos hwatched, Monitors.watch, if_pos hwatched] at hadd
      rw [decide_eq_true hwatched] at hremove
      have hgives := h.givesUp hresolve hwatched
      constructor <;> simp [hadd, hremove, hsignal, hother, hgives]
    · have hsignal : name ∉ s.signalNames := by simp [h.mem_signalNames_iff, hresolve, hwatched]
      have hother : name ∈ s.unmonitoredNames :=
        h.mem_unmonitoredNames_iff.mpr ⟨output, hresolve, hwatched⟩
      have htakes := h.takesUp hresolve hwatched
      rw [if_neg hwatched] at hadd
      rw [decide_eq_false hwatched, Monitors.remove_of_not_mem hwatched] at hremove
      constructor <;> simp [hadd, hremove, hsignal, hother, htakes]

/-! ### Loaded circuits -/

section Loaded

variable {text : String} {settings : Settings}

/-- The name table of a loaded circuit is regular, its flip-flops have two outputs, and its outputs
can be called. -/
theorem called_of_load (hload : Circuit.load text settings = .ok c) :
    Regular c.names ∧ c.network.ports.q ≠ c.network.ports.qbar ∧
      ∀ output, (c.network.output? output).isSome →
        ∃ name, c.names.terminal? output = some name := by
  obtain ⟨hquiet, rfl⟩ := Description.load_eq_ok_iff.mp hload
  obtain ⟨drawn, -, hshows⟩ := Description.denotes_of_quiet hquiet
  have hrealizes : Description.Realizes settings ⟨(Circuit.build text settings).reader.names,
      (Circuit.build text settings).network.powerOn, (Circuit.build text settings).monitors⟩
      drawn.schematic := ⟨_, rfl, hshows.depicts⟩
  refine ⟨hshows.ready.names, ?_, fun output hthere ↦ ?_⟩
  · rw [← (Network.alike_powerOn hshows.depicts.distinct).ports, hshows.depicts.ports]
    exact Ports.q_ne_qbar {}
  · obtain ⟨called, hcalls, -⟩ := hrealizes.exists_calls hthere
    exact ⟨_, Names.terminal?_eq_some_iff.mpr ⟨called, hcalls, rfl⟩⟩

theorem labelled_ofCircuit (hload : Circuit.load text settings = .ok c) :
    Labelled (ofCircuit c) := by
  obtain ⟨hnames, hports, hcalled⟩ := called_of_load hload
  have hdistinct : c.network.DistinctNames := (reset_of_load hload).1
  have hwell := wellFormed_of_load hload
  exact {
    names := hnames
    distinct := hdistinct
    listed := Network.nodup_terminals hdistinct hports
    called := fun output houtput ↦ hcalled output ((Network.mem_terminals_iff hdistinct).mp houtput)
    once := hwell.once
    there := by
      intro output houtput
      obtain ⟨probe, hprobe, rfl⟩ := List.mem_map.mp houtput
      exact (Network.mem_terminals_iff hdistinct).mpr (hwell.watched probe hprobe).1 }

/-- Assumes: the simulator of a loaded circuit, and any operations. A string is read as an output
exactly if it is the name of the output, the names of the outputs that are watched and of those that
are not are all the names of outputs, each once, and a request to watch an output or to watch it no
longer is answered by the list that its name is in. It moves this name to the other list, or changes
nothing. Any other operation leaves both lists as they are. -/
theorem signals_one_to_one (hload : Circuit.load text settings = .ok c)
    (operations : List Operation) :
    SignalsNamed ((ofCircuit c).after operations) ∧
      (∀ name, WatchedByName ((ofCircuit c).after operations) name) ∧
      ∀ operation : Operation, operation.signal? = none →
        (((ofCircuit c).after operations).perform operation).2.signalNames =
            ((ofCircuit c).after operations).signalNames ∧
          (((ofCircuit c).after operations).perform operation).2.unmonitoredNames =
            ((ofCircuit c).after operations).unmonitoredNames := by
  have hlabelled := (labelled_ofCircuit hload).after operations
  refine ⟨hlabelled.signalsNamed, hlabelled.watchedByName, fun operation hsignal ↦ ?_⟩
  have hdescends := descends_perform hlabelled.distinct operation
  rw [signalNames_eq, signalNames_eq, unmonitoredNames_eq, unmonitoredNames_eq,
    outputs_perform hsignal, hdescends.names, hdescends.terminals_eq]
  exact ⟨rfl, rfl⟩

/-- The clock watched in place of the gate. -/
def switchedGateSwap : List Operation :=
  [.step, .addMonitor "C", .addMonitor "G.Q", .removeMonitor "X", .removeMonitor "G"]

theorem switchedGate_signals : ∃ c, Circuit.load switchedGate = .ok c ∧
    SignalsNamed ((ofCircuit c).after switchedGateSwap) ∧
    (∀ name, WatchedByName ((ofCircuit c).after switchedGateSwap) name) ∧
    ((ofCircuit c).after switchedGateSwap).signalNames = ["C"] ∧
    ((ofCircuit c).after switchedGateSwap).unmonitoredNames = ["X", "G"] := by
  obtain ⟨c, hload, hsignal, hother⟩ := Circuit.exists_loaded switchedGate
    (P := fun c ↦ ((ofCircuit c).after switchedGateSwap).signalNames = ["C"] ∧
      ((ofCircuit c).after switchedGateSwap).unmonitoredNames = ["X", "G"])
    (by decide +kernel)
  obtain ⟨hnamed, hbyName, -⟩ := signals_one_to_one hload switchedGateSwap
  exact ⟨c, hload, hnamed, hbyName, hsignal, hother⟩

end Loaded

end Simulator

end Breadboard
