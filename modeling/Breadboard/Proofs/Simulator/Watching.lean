import Breadboard.Monitors
import Mathlib.Data.List.Basic

/-!
# Watched outputs

What is recorded of an output is a matter of that output alone: to watch another, or to watch it no
longer, leaves it as it is, and to record or to clear changes the histories one by one. An output
is watched just when it has a history.
-/

set_option autoImplicit false
set_option relaxedAutoImplicit false

namespace Breadboard

namespace Monitors

variable {m m' : Monitors} {n : Network} {output other : Terminal}

theorem isSome_history? : (m.history? output).isSome ↔ output ∈ m.outputs := by
  unfold history? outputs
  rw [Option.isSome_map, List.find?_isSome, List.mem_map]
  simp

/-- To change the histories in place changes what is found of each output. -/
theorem history?_map (f : Probe → Array Level) :
    (Monitors.mk (m.probes.map fun p ↦ { p with history := f p })).history? output =
      (m.probes.find? (·.output == output)).map f := by
  unfold history?
  rw [List.find?_map, Option.map_map]
  rfl

theorem history?_record (m : Monitors) (n : Network) (output : Terminal) :
    (m.record n).history? output =
      (m.history? output).map (·.push (n.drivenLevel (some output))) := by
  rw [record_eq, history?_map, history?, Option.map_map]
  cases hfind : m.probes.find? (·.output == output) with
  | none => rfl
  | some p =>
    have houtput : p.output = output := by simpa using List.find?_some hfind
    rw [Option.map_some, Option.map_some, Function.comp_apply, houtput]

theorem history?_clear (m : Monitors) (output : Terminal) :
    m.clear.history? output = (m.history? output).map fun _ ↦ #[] := by
  rw [clear, history?_map, history?, Option.map_map]
  rfl

theorem clear_eq (m : Monitors) : m.clear = ⟨m.outputs.map (⟨·, #[]⟩)⟩ := by
  rw [outputs, clear, List.map_map]
  rfl

/-- A request to watch an output that is there is refused only when it is watched already. -/
theorem add_of_output (m : Monitors) (h : (n.output? output).isSome) :
    m.add n output = if output ∈ m.outputs then .error .alreadyMonitored
      else .ok ⟨m.probes ++ [⟨output, #[]⟩]⟩ := by
  rw [Network.output?] at h
  cases hd : n.device? output.device with
  | none => simp [hd] at h
  | some d =>
    rw [hd, Option.bind_some, Option.isSome_iff_ne_none, ne_eq, ← Option.isNone_iff_eq_none] at h
    rw [add_eq, hd]
    exact if_neg h

/-- The monitors with one more, unless the output is watched already. -/
def watch (m : Monitors) (output : Terminal) : Monitors :=
  if output ∈ m.outputs then m else ⟨m.probes ++ [⟨output, #[]⟩]⟩

/-- To watch an output gives it a history, unless it has one. -/
theorem history?_watch (m : Monitors) (output other : Terminal) :
    (m.watch other).history? output =
      (m.history? output).or (if other = output then some #[] else none) := by
  unfold watch
  by_cases hwatched : other ∈ m.outputs
  · rw [if_pos hwatched]
    by_cases hsame : other = output
    · obtain ⟨history, hhistory⟩ := Option.isSome_iff_exists.mp (isSome_history?.mpr hwatched)
      rw [← hsame, hhistory, Option.some_or]
    · rw [if_neg hsame, Option.or_none]
  · rw [if_neg hwatched]
    unfold history?
    rw [List.find?_append, Option.map_or, List.find?_singleton]
    split <;> simp_all

theorem history?_remove (m : Monitors) (output other : Terminal) :
    (m.remove other).history? output = if output = other then none else m.history? output := by
  unfold history? remove
  rw [List.find?_filter]
  by_cases hsame : output = other
  · rw [if_pos hsame, Option.map_eq_none_iff, List.find?_eq_none]
    intro p _
    simp [hsame]
  · rw [if_neg hsame]
    congr 2
    funext p
    by_cases hp : p.output = output
    · simp [hp, hsame]
    · simp [hp]

end Monitors

end Breadboard
