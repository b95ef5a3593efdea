import Breadboard.Proofs.Description.WellFormed
import Breadboard.Proofs.Simulator.Replay
import Mathlib.Data.List.DropRight

/-!
# What is recorded

What a simulator has counted and recorded is settled by what has happened to it: the steps that
succeeded, with the networks that they left, the outputs that came to be watched and those that
ceased to be, and the resets (`Event`). The cycles are the steps since the last reset, and the
history of an output is the levels that it had after each step since it was last taken up or the
last reset, whichever came later (`Recorded`). Each operation adds its events to the chronicle and
keeps this true (`Recorded.perform`), whether its steps succeed or not.

A run is so many steps one after another, up to the first that fails (`RunsBySteps`), and running
the cycles of a network with monitors beside it comes to the same. The whole is
`histories_exact`.
-/

set_option autoImplicit false
set_option relaxedAutoImplicit false

namespace Breadboard

namespace Monitors

variable {m : Monitors} {n : Network} {output other : Terminal}

@[simp]
theorem outputs_record (m : Monitors) (n : Network) : (m.record n).outputs = m.outputs := by
  rw [record_eq, outputs, List.map_map]
  rfl

@[simp]
theorem outputs_clear (m : Monitors) : m.clear.outputs = m.outputs := by
  rw [clear, outputs, List.map_map]
  rfl

theorem outputs_watch (h : output ∉ m.outputs) :
    (m.watch output).outputs = m.outputs ++ [output] := by
  rw [watch, if_neg h, outputs, List.map_append]
  rfl

theorem outputs_remove (m : Monitors) (output : Terminal) :
    (m.remove output).outputs = m.outputs.filter (· ≠ output) := by
  rw [remove, outputs, outputs, List.filter_map]
  rfl

theorem remove_of_not_mem (h : output ∉ m.outputs) : m.remove output = m := by
  rw [remove, List.filter_eq_self.mpr fun p hp ↦ ?_]
  exact decide_eq_true fun hsame ↦ h (hsame ▸ List.mem_map_of_mem hp)

end Monitors

namespace Simulator

variable {s t u left : Simulator} {c : Circuit} {output : Terminal} {name : String}
  {cycles count : Nat}

/-! ### Steps one after another -/

/-- So many steps one after another, every one of which succeeds. -/
inductive Steps : Nat → Simulator → Simulator → Prop
  | none (s : Simulator) : Steps 0 s s
  | more {count : Nat} {s t u : Simulator} : s.step = .ok t → Steps count t u →
    Steps (count + 1) s u

theorem step_eq_ok_iff : s.step = .ok t ↔ ∃ network, s.network.cycle = .ok network ∧
    t = { s with network, monitors := s.monitors.record network, cycles := s.cycles + 1 } := by
  rw [step_eq]
  cases s.network.cycle with
  | error left => simp
  | ok network => simp [eq_comm]

theorem step_eq_error_iff : s.step = .error left ↔
    ∃ network, s.network.cycle = .error network ∧ left = { s with network } := by
  rw [step_eq]
  cases s.network.cycle with
  | error network => simp [eq_comm]
  | ok network => simp

theorem run_eq_ok_iff : s.run cycles = .ok t ↔ Steps cycles s t := by
  induction cycles generalizing s with
  | zero =>
    constructor
    · intro h
      cases h
      exact .none _
    · intro h
      cases h
      rfl
  | succ cycles ih =>
    rw [run_succ]
    cases hstep : s.step with
    | error left =>
      refine iff_of_false (fun h ↦ by cases h) fun h ↦ ?_
      cases h with
      | more hfirst _ => cases hstep.symm.trans hfirst
    | ok next =>
      refine ih.trans ⟨.more hstep, fun h ↦ ?_⟩
      cases h with
      | more hfirst hrest => exact Except.ok.inj (hfirst.symm.trans hstep) ▸ hrest

theorem run_eq_error_iff : s.run cycles = .error left ↔
    ∃ count < cycles, ∃ t, Steps count s t ∧ t.step = .error left := by
  induction cycles generalizing s with
  | zero => exact iff_of_false nofun fun ⟨_, h, _⟩ ↦ absurd h (Nat.not_lt_zero _)
  | succ cycles ih =>
    rw [run_succ]
    cases hstep : s.step with
    | error last =>
      constructor
      · intro h
        cases h
        exact ⟨0, Nat.succ_pos _, s, .none s, hstep⟩
      · rintro ⟨count, -, t, hsteps, hlast⟩
        cases hsteps with
        | none => exact hstep.symm.trans hlast
        | more hfirst _ => cases hstep.symm.trans hfirst
    | ok next =>
      refine ih.trans ⟨?_, ?_⟩
      · rintro ⟨count, hcount, t, hsteps, hlast⟩
        exact ⟨count + 1, Nat.succ_lt_succ hcount, t, .more hstep hsteps, hlast⟩
      · rintro ⟨count, hcount, t, hsteps, hlast⟩
        cases hsteps with
        | none => cases hstep.symm.trans hlast
        | @more count _ _ _ hfirst hrest =>
          obtain rfl := Except.ok.inj (hfirst.symm.trans hstep)
          exact ⟨count, Nat.lt_of_succ_lt_succ hcount, t, hrest, hlast⟩

/-- One simulator has counted and recorded so many cycles more than another. -/
structure GrownBy (count : Nat) (s t : Simulator) : Prop where
  cycles : t.cycles = s.cycles + count
  outputs : t.monitors.outputs = s.monitors.outputs
  histories : ∀ output history, s.monitors.history? output = some history →
    ∃ added : Array Level, added.size = count ∧
      t.monitors.history? output = some (history ++ added)

theorem Steps.grownBy (h : Steps count s t) : GrownBy count s t := by
  induction h with
  | none s => exact ⟨rfl, rfl, fun _ _ h ↦ ⟨#[], rfl, by rw [Array.append_empty, h]⟩⟩
  | @more count s t u hstep _ ih =>
    obtain ⟨network, -, rfl⟩ := step_eq_ok_iff.mp hstep
    refine ⟨by rw [ih.cycles, Nat.add_assoc, Nat.add_comm 1], ?_, fun output history h ↦ ?_⟩
    · exact ih.outputs.trans (Monitors.outputs_record ..)
    · obtain ⟨added, hsize, hfound⟩ := ih.histories output _
        ((Monitors.history?_record ..).trans (congrArg (Option.map _) h))
      refine ⟨#[network.drivenLevel (some output)] ++ added, ?_, ?_⟩
      · rw [Array.size_append, hsize, Nat.add_comm]
        rfl
      · rw [hfound, ← Array.append_assoc, ← Array.push_eq_append]

/-- A run is so many steps one after another, up to the first that fails. It counts and records the
steps that succeed. -/
structure RunsBySteps (s : Simulator) (cycles : Nat) : Prop where
  succeeds : ∀ t, s.run cycles = .ok t ↔ Steps cycles s t
  fails : ∀ left, s.run cycles = .error left ↔
    ∃ count < cycles, ∃ t, Steps count s t ∧ t.step = .error left
  /-- All steps that succeed are counted and recorded. -/
  grown : ∀ t, s.run cycles = .ok t → GrownBy cycles s t
  /-- The step that fails is not, and nor are those that would have come after it. -/
  abandoned : ∀ count t left, Steps count s t → t.step = .error left → GrownBy count s left
  /-- Running the network with monitors beside it comes to the same. -/
  monitored : s.monitors.runCycles s.network cycles =
    match s.run cycles with
    | .ok t => (.ok t.network, t.monitors)
    | .error left => (.error left.network, left.monitors)

theorem runCycles_eq (s : Simulator) (cycles : Nat) :
    s.monitors.runCycles s.network cycles =
      match s.run cycles with
      | .ok t => (.ok t.network, t.monitors)
      | .error left => (.error left.network, left.monitors) := by
  induction cycles generalizing s with
  | zero => rfl
  | succ cycles ih =>
    rw [Monitors.runCycles, run_succ, step_eq]
    cases s.network.cycle with
    | error left => rfl
    | ok network =>
      exact ih { s with network, monitors := s.monitors.record network, cycles := s.cycles + 1 }

theorem runsBySteps (s : Simulator) (cycles : Nat) : RunsBySteps s cycles where
  succeeds _ := run_eq_ok_iff
  fails _ := run_eq_error_iff
  grown _ h := (run_eq_ok_iff.mp h).grownBy
  abandoned _ _ _ hsteps hlast := by
    obtain ⟨network, -, rfl⟩ := step_eq_error_iff.mp hlast
    exact ⟨hsteps.grownBy.cycles, hsteps.grownBy.outputs, hsteps.grownBy.histories⟩
  monitored := runCycles_eq s cycles

/-! ### What has happened to a simulator -/

/-- What can happen to a simulator that bears on what it counts and records. -/
inductive Event
  /-- A step succeeded, and left this network. -/
  | stepped (network : Network)
  /-- An output came to be watched. -/
  | watched (output : Terminal)
  /-- An output ceased to be watched. -/
  | unwatched (output : Terminal)
  /-- The simulator was set back to time zero. -/
  | rewound
deriving DecidableEq

namespace Event

/-- The network that a successful step left. -/
def network? : Event → Option Network
  | .stepped network => some network
  | _ => none

/-- Whether an event takes the count of cycles back to zero. -/
def rewinds : Event → Bool
  | .rewound => true
  | _ => false

/-- Whether the history of an output starts anew with an event. -/
def begins (output : Terminal) : Event → Bool
  | .watched other => other = output
  | .rewound => true
  | _ => false

end Event

/-- The networks that the successful steps left which came after the last event of a kind. -/
def since (starts : Event → Bool) (events : List Event) : List Network :=
  (events.rtakeWhile fun event ↦ !starts event).filterMap Event.network?

/-- The outputs that are watched after some events, in the order in which they came to be. -/
def Event.watchedAfter (first : List Terminal) (events : List Event) : List Terminal :=
  events.foldl (fun outputs event ↦
    match event with
    | .watched output => outputs ++ [output]
    | .unwatched output => outputs.filter (· ≠ output)
    | _ => outputs) first

/-- The networks that the steps of a run leave, up to the first that fails. -/
def rests (s : Simulator) : Nat → List Network
  | 0 => []
  | cycles + 1 =>
    match s.step with
    | .ok next => next.network :: next.rests cycles
    | .error _ => []

/-- What happens in an operation. A request that is refused is no event. -/
def events (s : Simulator) : Operation → List Event
  | .step => (s.rests 1).map .stepped
  | .run cycles => (s.rests cycles).map .stepped
  | .setSwitch .. => []
  | .addMonitor name =>
    if (s.perform (.addMonitor name)).1 = .done then (s.resolve name).toList.map .watched else []
  | .removeMonitor name =>
    if (s.perform (.removeMonitor name)).1 = .removed true then
      (s.resolve name).toList.map .unwatched
    else []
  | .reset => [.rewound]

/-- All that happens while some operations are carried out. -/
def chronicle (s : Simulator) : List Operation → List Event
  | [] => []
  | operation :: rest => s.events operation ++ (s.perform operation).2.chronicle rest

/-- A simulator of a circuit has counted and recorded what has happened to it. -/
structure Recorded (c : Circuit) (events : List Event) (s : Simulator) : Prop where
  watching : s.monitors.outputs = Event.watchedAfter c.monitors.outputs events
  /-- No output is watched twice. -/
  once : s.monitors.outputs.Nodup
  /-- Watched outputs are there. -/
  there : ∀ output ∈ s.monitors.outputs, (s.network.output? output).isSome
  /-- The cycles are the successful steps since the last reset. -/
  cycles : s.cycles = (since Event.rewinds events).length
  /-- A history is the levels after each successful step since the output came to be watched or the
  last reset, the oldest first. -/
  histories : ∀ output history, s.monitors.history? output = some history →
    history.toList.map some = (since (Event.begins output) events).map (·.output? output)
  /-- An output that is watched from the start has a level for every cycle. -/
  lasting : ∀ output ∈ c.monitors.outputs, .unwatched output ∉ events →
    ∃ history, s.monitors.history? output = some history ∧ history.size = s.cycles

variable {past : List Event} {event : Event} {starts : Event → Bool}

theorem watchedAfter_concat (first : List Terminal) (past : List Event) (event : Event) :
    Event.watchedAfter first (past ++ [event]) =
      Event.watchedAfter (Event.watchedAfter first past) [event] := by
  rw [Event.watchedAfter, List.foldl_append]
  rfl

theorem since_start (hstarts : starts event = true) : since starts (past ++ [event]) = [] := by
  rw [since, List.rtakeWhile_concat_neg _ _ _ (by simp [hstarts]), List.filterMap_nil]

theorem since_later (hstarts : starts event = false) :
    since starts (past ++ [event]) = since starts past ++ event.network?.toList := by
  rw [since, List.rtakeWhile_concat_pos _ _ _ (by simp [hstarts]), List.filterMap_append, since]
  cases hnetwork : event.network? <;> simp [hnetwork]

theorem since_other (hstarts : starts event = false) (hnetwork : event.network? = none) :
    since starts (past ++ [event]) = since starts past := by
  rw [since_later hstarts, hnetwork, Option.toList_none, List.append_nil]

/-! ### What each operation keeps -/

theorem Descends.isSome_output? (h : Descends s t) (hs : (s.network.output? output).isSome) :
    (t.network.output? output).isSome :=
  (h.alike.sameWiring Element.kind_maskSetting).isSome_output? hs

/-- What changes nothing but the network, and keeps its wiring, keeps what is recorded. -/
theorem Recorded.of_network (h : Recorded c past s) {network : Network}
    (hdescends : Descends s { s with network }) : Recorded c past { s with network } where
  watching := h.watching
  once := h.once
  there output houtput := hdescends.isSome_output? (h.there output houtput)
  cycles := h.cycles
  histories := h.histories
  lasting := h.lasting

/-- A step that succeeds adds one level to every history. -/
theorem Recorded.stepped (h : Recorded c past s) (hs : s.network.DistinctNames)
    (hstep : s.step = .ok t) : Recorded c (past ++ [.stepped t.network]) t := by
  have hdescends : Descends s t := by
    have hperform := descends_step hs
    rwa [hstep] at hperform
  obtain ⟨network, -, rfl⟩ := step_eq_ok_iff.mp hstep
  have hthere : ∀ output ∈ s.monitors.outputs, (network.output? output).isSome :=
    fun output houtput ↦ hdescends.isSome_output? (h.there output houtput)
  refine ⟨?_, ?_, ?_, ?_, fun output history hhistory ↦ ?_, fun output houtput hkept ↦ ?_⟩
  · rw [Monitors.outputs_record, watchedAfter_concat, ← h.watching]
    rfl
  · rw [Monitors.outputs_record]
    exact h.once
  · rw [Monitors.outputs_record]
    exact hthere
  · rw [since_later rfl, List.length_append, ← h.cycles]
    rfl
  · rw [Monitors.history?_record] at hhistory
    obtain ⟨before, hbefore, rfl⟩ := Option.map_eq_some_iff.mp hhistory
    have hlevel : some (network.drivenLevel (some output)) = network.output? output := by
      have hwatched := Monitors.isSome_history?.mp (Option.isSome_iff_exists.mpr ⟨_, hbefore⟩)
      obtain ⟨level, hlevel⟩ := Option.isSome_iff_exists.mp (hthere output hwatched)
      rw [Network.drivenLevel, Option.bind_some, hlevel, Option.getD_some]
    rw [since_later rfl, List.map_append, ← h.histories output _ hbefore, Array.toList_push,
      List.map_append, List.map_singleton, hlevel]
    rfl
  · rw [List.mem_append, not_or] at hkept
    obtain ⟨history, hhistory, hsize⟩ := h.lasting output houtput hkept.1
    exact ⟨_, by rw [Monitors.history?_record, hhistory, Option.map_some], by
      rw [Array.size_push, hsize]⟩

/-- A run that is cut short is recorded as far as it went. -/
theorem Recorded.ran (h : Recorded c past s) (hs : s.network.DistinctNames) (cycles : Nat) :
    Recorded c (past ++ (s.rests cycles).map .stepped) (ranTo (s.run cycles)).2 := by
  induction cycles generalizing s past with
  | zero =>
    rw [rests, List.map_nil, List.append_nil]
    exact h
  | succ cycles ih =>
    have hdescends := descends_step hs
    rw [rests, run_succ]
    cases hstep : s.step with
    | error left =>
      rw [hstep] at hdescends
      obtain ⟨network, -, rfl⟩ := step_eq_error_iff.mp hstep
      rw [List.map_nil, List.append_nil]
      exact h.of_network hdescends
    | ok next =>
      rw [hstep] at hdescends
      have hnext := ih (h.stepped hs hstep) (hdescends.distinctNames hs)
      rwa [List.append_assoc] at hnext

theorem ranTo_step (s : Simulator) : (ranTo s.step).2 = (ranTo (s.run 1)).2 := by
  rw [run_succ]
  cases s.step <;> rfl

theorem Recorded.watched (h : Recorded c past s) (hthere : (s.network.output? output).isSome)
    (hnew : output ∉ s.monitors.outputs) :
    Recorded c (past ++ [.watched output]) { s with monitors := s.monitors.watch output } where
  watching := by
    rw [Monitors.outputs_watch hnew, watchedAfter_concat, ← h.watching]
    rfl
  once := by
    rw [Monitors.outputs_watch hnew]
    exact List.nodup_append.mpr ⟨h.once, List.nodup_singleton output, fun other hother _ hlast ↦
      fun hsame ↦ hnew (List.mem_singleton.mp hlast ▸ hsame ▸ hother)⟩
  there other hother := by
    rw [Monitors.outputs_watch hnew, List.mem_append, List.mem_singleton] at hother
    rcases hother with hold | rfl
    · exact h.there other hold
    · exact hthere
  cycles := by
    rw [since_other rfl rfl]
    exact h.cycles
  histories other history hhistory := by
    rw [Monitors.history?_watch] at hhistory
    by_cases hsame : output = other
    · subst hsame
      have hnone : s.monitors.history? output = none := by
        rwa [← Option.not_isSome_iff_eq_none, Monitors.isSome_history?]
      rw [hnone, if_pos rfl, Option.none_or, Option.some_inj] at hhistory
      rw [since_start (decide_eq_true rfl), ← hhistory]
      rfl
    · rw [if_neg hsame, Option.or_none] at hhistory
      rw [since_other (decide_eq_false hsame) rfl]
      exact h.histories other history hhistory
  lasting other hother hkept := by
    rw [List.mem_append, not_or] at hkept
    obtain ⟨history, hhistory, hsize⟩ := h.lasting other hother hkept.1
    exact ⟨history, by rw [Monitors.history?_watch, hhistory, Option.some_or], hsize⟩

theorem Recorded.unwatched (h : Recorded c past s) (output : Terminal) :
    Recorded c (past ++ [.unwatched output])
      { s with monitors := s.monitors.remove output } where
  watching := by
    rw [Monitors.outputs_remove, watchedAfter_concat, ← h.watching]
    rfl
  once := by
    rw [Monitors.outputs_remove]
    exact h.once.filter _
  there other hother := by
    rw [Monitors.outputs_remove] at hother
    exact h.there other (List.mem_of_mem_filter hother)
  cycles := by
    rw [since_other rfl rfl]
    exact h.cycles
  histories other history hhistory := by
    rw [Monitors.history?_remove] at hhistory
    split at hhistory
    · cases hhistory
    · rw [since_other rfl rfl]
      exact h.histories other history hhistory
  lasting other hother hkept := by
    rw [List.mem_append, not_or, List.mem_singleton] at hkept
    obtain ⟨history, hhistory, hsize⟩ := h.lasting other hother hkept.1
    have hne : other ≠ output := fun hsame ↦ hkept.2 (hsame ▸ rfl)
    exact ⟨history, by rw [Monitors.history?_remove, if_neg hne, hhistory], hsize⟩

theorem Recorded.rewound (h : Recorded c past s) (hs : s.network.DistinctNames) :
    Recorded c (past ++ [.rewound]) s.reset where
  watching := by
    rw [reset_eq, Monitors.outputs_clear, watchedAfter_concat, ← h.watching]
    rfl
  once := by
    rw [reset_eq, Monitors.outputs_clear]
    exact h.once
  there output houtput := by
    rw [reset_eq, Monitors.outputs_clear] at houtput
    exact (descends_perform hs .reset).isSome_output? (h.there output houtput)
  cycles := by
    rw [since_start rfl]
    rfl
  histories output history hhistory := by
    rw [reset_eq, Monitors.history?_clear] at hhistory
    obtain ⟨before, -, rfl⟩ := Option.map_eq_some_iff.mp hhistory
    rw [since_start rfl]
    rfl
  lasting output houtput hkept := by
    rw [List.mem_append, not_or] at hkept
    obtain ⟨history, hhistory, -⟩ := h.lasting output houtput hkept.1
    exact ⟨#[], by rw [reset_eq, Monitors.history?_clear, hhistory, Option.map_some], rfl⟩

/-- Every operation, whatever comes of it, is recorded as it happens. -/
theorem Recorded.perform (h : Recorded c past s) (hs : s.network.DistinctNames)
    (operation : Operation) :
    Recorded c (past ++ s.events operation) (s.perform operation).2 := by
  cases operation with
  | step =>
    rw [events, perform_step_eq, ranTo_step]
    exact h.ran hs 1
  | run cycles => exact h.ran hs cycles
  | setSwitch name level =>
    have hdescends := descends_perform hs (.setSwitch name level)
    rw [events, List.append_nil]
    rw [perform_setSwitch_eq] at hdescends ⊢
    cases hset : s.setSwitch name level with
    | error failure => exact h
    | ok next =>
      rw [hset] at hdescends
      obtain ⟨id, network, -, rfl⟩ := setSwitch_eq_ok hset
      exact h.of_network hdescends
  | addMonitor name =>
    rw [events]
    cases hresolve : s.resolve name with
    | none =>
      rw [(perform_unresolved hresolve).1, if_neg (by simp), List.append_nil]
      exact h
    | some output =>
      have hthere := isSome_output?_of_resolve hresolve
      rw [perform_addMonitor hresolve]
      by_cases hwatched : output ∈ s.monitors.outputs
      · rw [if_pos hwatched, if_neg (by simp), List.append_nil, Monitors.watch, if_pos hwatched]
        exact h
      · rw [if_neg hwatched, if_pos rfl]
        exact h.watched hthere hwatched
  | removeMonitor name =>
    rw [events]
    cases hresolve : s.resolve name with
    | none =>
      rw [(perform_unresolved hresolve).2, if_neg (by simp), List.append_nil]
      exact h
    | some output =>
      rw [perform_removeMonitor hresolve]
      by_cases hwatched : output ∈ s.monitors.outputs
      · rw [decide_eq_true hwatched, if_pos rfl]
        exact h.unwatched output
      · rw [decide_eq_false hwatched, if_neg (by simp), List.append_nil,
          Monitors.remove_of_not_mem hwatched]
        exact h
  | reset => exact h.rewound hs

theorem Recorded.after (h : Recorded c past s) (hs : s.network.DistinctNames)
    (operations : List Operation) :
    Recorded c (past ++ s.chronicle operations) (s.after operations) := by
  induction operations generalizing s past with
  | nil =>
    rw [chronicle, List.append_nil]
    exact h
  | cons operation rest ih =>
    rw [chronicle, ← List.append_assoc]
    exact ih (h.perform hs operation) ((descends_perform hs operation).distinctNames hs)

/-! ### The simulator of a loaded circuit -/

section Loaded

variable {text : String} {settings : Settings}

/-- A circuit that loads is well formed. -/
theorem wellFormed_of_load (h : Circuit.load text settings = .ok c) : c.WellFormed := by
  obtain ⟨hquiet, rfl⟩ := Description.load_eq_ok_iff.mp h
  obtain ⟨d, -, hshows⟩ := Description.denotes_of_quiet hquiet
  obtain ⟨hinputs, hdrivers⟩ := Description.checked_parse (Description.vouched_start ..) hquiet
  exact Description.Realizes.wellFormed ⟨_, rfl, hshows.depicts⟩ hshows.ready.names hshows.coherent
    (hshows.depicts.devicesWithoutInputs_eq_nil_iff.mp hinputs)
    (hshows.depicts.unconnected_eq_nil_iff.mp hdrivers)

/-- A circuit is loaded with nothing recorded. -/
theorem recorded_ofCircuit (h : c.WellFormed) : Recorded c [] (ofCircuit c) := by
  have hblank : ∀ output history, c.monitors.history? output = some history → history = #[] := by
    intro output history hhistory
    obtain ⟨probe, hprobe, rfl⟩ := Option.map_eq_some_iff.mp hhistory
    exact (h.watched probe (List.mem_of_find?_eq_some hprobe)).2
  refine ⟨rfl, h.once, fun output houtput ↦ ?_, rfl, fun output history hhistory ↦ ?_,
    fun output houtput _ ↦ ?_⟩
  · obtain ⟨probe, hprobe, rfl⟩ := List.mem_map.mp houtput
    exact (h.watched probe hprobe).1
  · rw [hblank output history hhistory]
    rfl
  · obtain ⟨history, hhistory⟩ := Option.isSome_iff_exists.mp (Monitors.isSome_history?.mpr houtput)
    exact ⟨history, hhistory, hblank output history hhistory ▸ rfl⟩

/-- Assumes: the simulator of a loaded circuit, and any operations, with steps that may fail. No
output is watched twice, and those that are watched are there. The cycles are the successful steps
since loading or the last reset, and a history is the levels that its output had at the end of each
successful step since it came to be watched or the last reset, so an output that is watched from
the start has a level for each cycle. A run from there is so many steps, up to the first that fails,
and the steps before that one are what it counts and records; running the network with the monitors
comes to the same. -/
theorem histories_exact (hload : Circuit.load text settings = .ok c)
    (operations : List Operation) :
    Recorded c ((ofCircuit c).chronicle operations) ((ofCircuit c).after operations) ∧
      ∀ cycles, RunsBySteps ((ofCircuit c).after operations) cycles :=
  ⟨(recorded_ofCircuit (wellFormed_of_load hload)).after (reset_of_load hload).1 operations,
    runsBySteps _⟩

end Loaded

/-- A step, a run that is abandoned at once, two more cycles with the clock watched from there, and
one after the gate was taken off the watch list and put back on it. -/
def switchedGateWatch : List Operation :=
  [.step, .setSwitch "X" Level.high, .run 3, .setSwitch "X" Level.low, .addMonitor "C", .run 2,
    .removeMonitor "G", .addMonitor "G", .step]

theorem switchedGate_recorded : ∃ c, Circuit.load switchedGate = .ok c ∧
    Recorded c ((ofCircuit c).chronicle switchedGateWatch)
      ((ofCircuit c).after switchedGateWatch) ∧
    RunsBySteps ((ofCircuit c).after switchedGateWatch) 5 ∧
    ((ofCircuit c).after switchedGateWatch).cycles = 4 ∧
    ((ofCircuit c).after switchedGateWatch).monitors.probes.map (·.history) =
      [#[Level.high, Level.high, Level.low], #[Level.high]] := by
  obtain ⟨c, hload, hcycles, hhistories⟩ := Circuit.exists_loaded switchedGate
    (P := fun c ↦ ((ofCircuit c).after switchedGateWatch).cycles = 4 ∧
      ((ofCircuit c).after switchedGateWatch).monitors.probes.map (·.history) =
        [#[Level.high, Level.high, Level.low], #[Level.high]])
    (by decide +kernel)
  obtain ⟨hrecorded, hruns⟩ := histories_exact hload switchedGateWatch
  exact ⟨c, hload, hrecorded, hruns 5, hcycles, hhistories⟩

end Simulator

end Breadboard
