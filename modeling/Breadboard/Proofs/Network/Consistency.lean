import Breadboard.Proofs.Network.Reachable
import Mathlib.Algebra.Ring.Parity
import Mathlib.Logic.Function.Iterate

/-!
# Cycles end in consistent networks

The law of each kind of gate says when its output is high, in terms of the levels that its inputs
read (`Gate.Raised`). A network is consistent when every gate obeys its law. `Consistent` is what a
pass without changes establishes, with feedback and all, and it survives the latching that changes
nothing and the remembering of the clock levels. So a cycle that succeeds ends in a consistent
network, and where no assignment of gate outputs is consistent, no cycle ever succeeds
(`cycle_consistent_or_never`).
-/

set_option autoImplicit false
set_option relaxedAutoImplicit false

namespace Breadboard

/-- The law of a gate: when its output is high. -/
def Gate.Raised : Gate → List Level → Prop
  | .and, inputs => ∀ level ∈ inputs, level = Level.high
  | .nand, inputs => ∃ level ∈ inputs, level = Level.low
  | .or, inputs => ∃ level ∈ inputs, level = Level.high
  | .nor, inputs => ∀ level ∈ inputs, level = Level.low
  | .xor, inputs => Odd (inputs.count Level.high)
  | .not, inputs => inputs.headD Level.low = Level.low

theorem Gate.evaluate_eq_high_iff (g : Gate) (inputs : List Level) :
    g.evaluate inputs = Level.high ↔ g.Raised inputs := by
  cases g with
  | xor => simp [evaluate, Raised, Nat.odd_iff]
  | _ => simp [evaluate, Raised]

namespace Network

variable {n m : Network} {d : Device}

/-- Every gate obeys the law of its kind. -/
def Consistent (n : Network) : Prop :=
  ∀ d ∈ n.devices, ∀ g output, d.element = .gate g output →
    (output = Level.high ↔ g.Raised (n.pinLevels d))

theorem consistent_iff_stable : n.Consistent ↔ n.Stable := by
  refine forall₂_congr fun d _ ↦ ?_
  constructor
  · intro h
    rcases d.gate_or_not with ⟨g, output, helement⟩ | hnone
    · rw [agrees_of_gate helement, Bool.eq_iff_iff, Gate.evaluate_eq_high_iff]
      exact h g output helement
    · exact agrees_of_not_gate hnone
  · intro h g output helement
    rw [(agrees_of_gate helement).mp h, Gate.evaluate_eq_high_iff]

/-- A cycle that succeeds ends at rest. -/
theorem stable_of_cycle (hn : n.DistinctNames) (h : n.cycle = .ok m) : m.Stable := by
  obtain ⟨start, ticked, rested, hphases, rfl⟩ := cycle_eq_ok_iff.mp h
  exact stable_rememberClocks (hphases.stable_rested hn)

/-- Assumes: no assignment of gate outputs is consistent with the levels of the other devices. A
cycle fails in its first settling, and leaves a network of which the same can be said. -/
theorem cycle_of_inconsistent (hn : n.DistinctNames)
    (hnone : ∀ k, Alike Element.maskGate n k → ¬ k.Consistent) :
    n.cycle = .error (finalState n.cycle) ∧ Alike Element.maskGate n (finalState n.cycle) := by
  cases hsettle : n.settle with
  | ok start =>
    have hstable := stable_of_settle hn hsettle
    exact absurd (consistent_iff_stable.mpr hstable) (hnone start (alike_of_settle hn hsettle))
  | error left =>
    have hlike := alike_settle hn
    have hcycle : n.cycle = .error left := by
      rw [cycle, hsettle]
      rfl
    rw [hsettle] at hlike
    rw [hcycle]
    exact ⟨rfl, hlike⟩

/-- A cycle of a reachable network that succeeds ends with every gate obeying its law and every
flip-flop having seen its clock, and one more pass changes nothing. Where no assignment of gate
outputs obeys the laws under the levels of switches, clocks and flip-flops, every cycle fails,
however often it is tried. -/
theorem cycle_consistent_or_never (hn : n.Reachable) :
    (∀ m, n.cycle = .ok m → m.Consistent ∧ m.ClocksSeen ∧ m.pass = (m, false)) ∧
    ((∀ k, Alike Element.maskGate n k → ¬ k.Consistent) → ∀ tries : Nat,
      ∃ left, ((fun k ↦ finalState k.cycle)^[tries] n).cycle = .error left) := by
  have hnames := hn.wellFormed.distinctNames
  constructor
  · intro m hm
    have hstable := stable_of_cycle hnames hm
    have hm' := (sameWiring_of_cycle hnames hm).distinctNames hnames
    exact ⟨consistent_iff_stable.mpr hstable, clocksSeen_of_cycle hm, pass_of_stable hm' hstable⟩
  · intro hnone tries
    have hlike : Alike Element.maskGate n ((fun k ↦ finalState k.cycle)^[tries] n) := by
      induction tries with
      | zero => exact Alike.refl ..
      | succ tries ih =>
        rw [Function.iterate_succ_apply']
        exact ih.trans (cycle_of_inconsistent (ih.distinctNames hnames)
          fun k hk ↦ hnone k (ih.trans hk)).2
    exact ⟨_, (cycle_of_inconsistent (hlike.distinctNames hnames)
      fun k hk ↦ hnone k (hlike.trans hk)).1⟩

/-- A pair of cross-wired NAND gates under a switch, whose output a flip-flop takes over when a
clock rises. -/
def latchedPair : Network :=
  built [.addDevice 22 .switch, .addDevice 23 (.gate .nand), .addDevice 24 (.gate .nand),
    .addDevice 25 .flipFlop, .addDevice 26 .clock, .addInputs 23 2, .addInputs 24 2,
    .connect ⟨22, none⟩ 23 0, .connect ⟨24, none⟩ 23 1, .connect ⟨22, none⟩ 24 0,
    .connect ⟨23, none⟩ 24 1, .connect ⟨26, none⟩ 25 16, .connect ⟨23, none⟩ 25 17,
    .setSwitch 22 Level.high]

/-- An inverter that reads its own output. -/
def selfInverter : Network :=
  built [.addDevice 22 (.gate .not), .connect ⟨22, none⟩ 22 0]

theorem not_consistent_of_alike_selfInverter {k : Network}
    (h : Alike Element.maskGate selfInverter k) : ¬ k.Consistent := by
  have hdevice : selfInverter.device? 22 =
      some ⟨22, .gate .not Level.low, [⟨0, some ⟨22, none⟩⟩]⟩ := by decide
  obtain ⟨d, output, hd, -, hpins, helement⟩ := exists_current
    (reachable_built _ : selfInverter.Reachable).wellFormed.distinctNames h
    (mem_of_device? hdevice) rfl
  have hlevels : k.pinLevels d = [output] := by
    rw [pinLevels, hpins, List.map_singleton, drivenLevel, Option.bind_some,
      output?_of_gate hd helement, Option.getD_some]
  intro hconsistent
  have hlaw := hconsistent d (mem_of_device? hd) .not output helement
  rw [hlevels] at hlaw
  cases output <;> simp [Gate.Raised] at hlaw

theorem latchedPair_consistent_and_selfInverter_never :
    (∃ m, latchedPair.cycle = .ok m ∧ m.Consistent ∧ m.ClocksSeen ∧ m.pass = (m, false)) ∧
      ∀ tries : Nat, ∃ left, ((fun k ↦ finalState k.cycle)^[tries] selfInverter).cycle =
        .error left := by
  have hcycle : latchedPair.cycle = .ok (finalState latchedPair.cycle) := by decide
  refine ⟨⟨_, hcycle, ?_⟩, ?_⟩
  · exact (cycle_consistent_or_never (reachable_built _)).1 _ hcycle
  · exact (cycle_consistent_or_never (reachable_built _)).2
      fun _ h ↦ not_consistent_of_alike_selfInverter h

end Network

end Breadboard
