import Breadboard.Proofs.Description.HalfPeriods
import Breadboard.Proofs.Network.Abandonment
import Breadboard.Proofs.Simulator.Recording

/-!
# Clocks are square waves

A clock ticks once in every cycle that gets past its first settling, whether the cycle succeeds or
is abandoned later, and it stands at zero after loading and after a reset. Nothing else touches it.
So its count and its level are settled by the number of these cycles alone: after `k` of them a
clock with half-period `h` has counted `k % h`, and it is high when `k / h` is odd
(`Element.clockAfter`, `Waves`). The cycles that are begun in an operation are listed with the
networks that they start from (`begunAfter`), each operation keeps the waves going
(`Ticking.perform`), and as long as no cycle is abandoned the count of cycles says it all
(`clocks_exact`).
-/

set_option autoImplicit false
set_option relaxedAutoImplicit false

namespace Breadboard

/-- A clock that has ticked so often since it stood at zero. -/
def Element.clockAfter (halfPeriod ticks : Nat) : Element :=
  .clock halfPeriod (ticks % halfPeriod) (decide (Odd (ticks / halfPeriod)))

theorem Element.clockAfter_zero (halfPeriod : Nat) :
    clockAfter halfPeriod 0 = .clock halfPeriod 0 Level.low := by
  simp [clockAfter]

/-- One tick more. -/
theorem Element.clockAfter_succ {halfPeriod : Nat} (hpos : 1 ≤ halfPeriod) (ticks : Nat) :
    clockAfter halfPeriod (ticks + 1) =
      if ticks % halfPeriod + 1 < halfPeriod then
        .clock halfPeriod (ticks % halfPeriod + 1) (decide (Odd (ticks / halfPeriod)))
      else .clock halfPeriod 0 (!decide (Odd (ticks / halfPeriod))) := by
  have hsplit := Nat.div_add_mod ticks halfPeriod
  by_cases hlt : ticks % halfPeriod + 1 < halfPeriod
  · have hticks : ticks + 1 = (ticks % halfPeriod + 1) + halfPeriod * (ticks / halfPeriod) := by
      omega
    rw [if_pos hlt, clockAfter, hticks, Nat.add_mul_mod_self_left, Nat.mod_eq_of_lt hlt,
      Nat.add_mul_div_left _ _ hpos, Nat.div_eq_of_lt hlt, Nat.zero_add]
  · have hticks : ticks + 1 = halfPeriod * (ticks / halfPeriod + 1) := by
      have hbelow := Nat.mod_lt ticks hpos
      rw [Nat.mul_add, Nat.mul_one]
      omega
    rw [if_neg hlt, clockAfter, hticks, Nat.mul_mod_right, Nat.mul_div_cancel_left _ hpos]
    simp only [Nat.odd_add_one, decide_not]

namespace Network

variable {n m k : Network} {ticks : Nat}

/-- Whether a cycle gets past its first settling. -/
def starts (n : Network) : Bool :=
  n.settle.isOk

/-- Whether a cycle succeeds. -/
def completes (n : Network) : Bool :=
  n.cycle.isOk

theorem starts_of_completes (h : n.completes = true) : n.starts = true := by
  rw [completes] at h
  rw [starts]
  cases hsettle : n.settle with
  | ok start => rfl
  | error left =>
    rw [cycle, hsettle] at h
    exact h

/-- In one network the clocks of another have ticked so often since they stood at zero, and are the
same otherwise. -/
def Waves (ticks : Nat) (n m : Network) : Prop :=
  ∀ d ∈ n.devices, ∀ halfPeriod counter output, d.element = .clock halfPeriod counter output →
    m.device? d.id = some { d with element := .clockAfter halfPeriod ticks }

/-- What shows clocks in full keeps the waves. -/
theorem Waves.alike {mask : Element → Element}
    (hmask : ∀ {element : Element}, element.kind = .clock → element.Shown mask)
    (h : Waves ticks n m) (hlike : Alike mask m k) : Waves ticks n k :=
  fun d hd halfPeriod counter output helement ↦
    hlike.device?_eq (h d hd halfPeriod counter output helement) (hmask rfl)

theorem Waves.ticked (h : Waves ticks n m)
    (hpos : ∀ d ∈ n.devices, ∀ halfPeriod counter output,
      d.element = .clock halfPeriod counter output → 1 ≤ halfPeriod)
    (htick : TickedOnce m k) : Waves (ticks + 1) n k := by
  intro d hd halfPeriod counter output helement
  have hnow := mem_of_device? (h d hd halfPeriod counter output helement)
  rw [Element.clockAfter_succ (hpos d hd halfPeriod counter output helement)]
  exact htick _ hnow halfPeriod _ _ rfl

/-- A cycle adds one tick, unless it is abandoned in its first settling. -/
theorem Waves.cycle (h : Waves ticks n m)
    (hpos : ∀ d ∈ n.devices, ∀ halfPeriod counter output,
      d.element = .clock halfPeriod counter output → 1 ≤ halfPeriod)
    (hm : m.DistinctNames) : Waves (ticks + m.starts.toNat) n (finalState m.cycle) := by
  rw [starts]
  cases hsettle : m.settle with
  | ok start => exact h.ticked hpos (tickedOnce_cycle hm hsettle)
  | error left =>
    have hlike := alike_settle hm
    have hcycle : m.cycle = .error left := by
      rw [Network.cycle, hsettle]
      rfl
    rw [hsettle] at hlike
    rw [hcycle]
    exact h.alike Element.shown_maskGate_of_clock hlike

/-- A reset takes every clock back to zero. -/
theorem Waves.reset (h : Waves ticks n m) (hm : m.DistinctNames) : Waves 0 n m.reset := by
  have hclear : Waves 0 n m.clearDevices := by
    intro d hd halfPeriod counter output helement
    rw [clearDevices, device?_mapDevices m (Device.id_mapElement _),
      h d hd halfPeriod counter output helement, Element.clockAfter_zero]
    rfl
  have hsettled := hclear.alike Element.shown_maskGate_of_clock
    (alike_settle ((sameWiring_clearDevices m).distinctNames hm))
  exact hsettled.alike Element.shown_maskLastClock_of_clock (alike_rememberClocks _)

theorem waves_zero (hn : n.DistinctNames)
    (hzero : ∀ d ∈ n.devices, ∀ halfPeriod counter output,
      d.element = .clock halfPeriod counter output → counter = 0 ∧ output = Level.low) :
    Waves 0 n n := by
  intro d hd halfPeriod counter output helement
  obtain ⟨rfl, rfl⟩ := hzero d hd halfPeriod counter output helement
  rw [hn.device?_id hd, Element.clockAfter_zero, ← helement]

end Network

namespace Simulator

open Network (Waves)

variable {s t : Simulator} {c : Circuit} {begun : List Network}

/-! ### The cycles that are begun -/

/-- The networks that the cycles of a run start from, up to the cycle that is abandoned. -/
def begunInRun (s : Simulator) : Nat → List Network
  | 0 => []
  | cycles + 1 =>
    s.network :: match s.step with
      | .ok next => next.begunInRun cycles
      | .error _ => []

/-- The networks that the cycles since the last reset start from, with an operation and before. -/
def begunAfter (s : Simulator) (begun : List Network) : Operation → List Network
  | .step => begun ++ s.begunInRun 1
  | .run cycles => begun ++ s.begunInRun cycles
  | .reset => []
  | .setSwitch .. | .addMonitor _ | .removeMonitor _ => begun

/-- The networks that the cycles since the last reset start from, with some operations and
before. -/
def begunSince (begun : List Network) (s : Simulator) : List Operation → List Network
  | [] => begun
  | operation :: rest => begunSince (s.begunAfter begun operation) (s.perform operation).2 rest

/-- The clocks of a circuit have ticked in every cycle that was begun and got past its first
settling, and those cycles that succeeded are counted. -/
structure Ticking (c : Circuit) (begun : List Network) (s : Simulator) : Prop where
  waves : Waves (begun.countP Network.starts) c.network s.network
  cycles : s.cycles = begun.countP Network.completes

/-- What leaves clocks alone and counts nothing keeps the clocks ticking. -/
theorem Ticking.alike {mask : Element → Element}
    (hmask : ∀ {element : Element}, element.kind = .clock → element.Shown mask)
    (h : Ticking c begun s) (hlike : Network.Alike mask s.network t.network)
    (hcycles : t.cycles = s.cycles) : Ticking c begun t :=
  ⟨h.waves.alike hmask hlike, hcycles.trans h.cycles⟩

section Positive

variable (hpos : ∀ d ∈ c.network.devices, ∀ halfPeriod counter output,
  d.element = .clock halfPeriod counter output → 1 ≤ halfPeriod)

include hpos

theorem Ticking.stepped (h : Ticking c begun s) (hs : s.network.DistinctNames) :
    Ticking c (begun ++ [s.network]) (ranTo s.step).2 := by
  have hwaves := h.waves.cycle hpos hs
  have hcount : (begun ++ [s.network]).countP Network.starts =
      begun.countP Network.starts + s.network.starts.toNat := by
    rw [List.countP_append, List.countP_singleton]
    cases s.network.starts <;> rfl
  have hcompleted : (begun ++ [s.network]).countP Network.completes =
      s.cycles + s.network.completes.toNat := by
    rw [List.countP_append, List.countP_singleton, ← h.cycles]
    cases s.network.completes <;> rfl
  rw [step_eq]
  refine ⟨hcount ▸ ?_, hcompleted ▸ ?_⟩
  · cases hcycle : s.network.cycle with
    | ok next => rwa [hcycle] at hwaves
    | error left => rwa [hcycle] at hwaves
  · rw [Network.completes]
    cases hcycle : s.network.cycle with
    | ok next => rfl
    | error left => rfl

theorem Ticking.ran (h : Ticking c begun s) (hs : s.network.DistinctNames) (cycles : Nat) :
    Ticking c (begun ++ s.begunInRun cycles) (ranTo (s.run cycles)).2 := by
  induction cycles generalizing s begun with
  | zero =>
    rw [begunInRun, List.append_nil]
    exact h
  | succ cycles ih =>
    have hdescends := descends_step hs
    have hstepped := h.stepped hpos hs
    rw [begunInRun, run_succ]
    cases hstep : s.step with
    | error left =>
      rw [hstep] at hstepped
      exact hstepped
    | ok next =>
      rw [hstep] at hstepped hdescends
      have hrest := ih hstepped (hdescends.distinctNames hs)
      rwa [List.append_assoc] at hrest

/-- Every operation keeps the clocks ticking. -/
theorem Ticking.perform (h : Ticking c begun s) (hs : s.network.DistinctNames)
    (operation : Operation) :
    Ticking c (s.begunAfter begun operation) (s.perform operation).2 := by
  cases operation with
  | step =>
    rw [begunAfter, perform_step_eq, ranTo_step]
    exact h.ran hpos hs 1
  | run cycles => exact h.ran hpos hs cycles
  | setSwitch name level =>
    rw [begunAfter, perform_setSwitch_eq]
    cases hset : s.setSwitch name level with
    | error failure => exact h
    | ok next =>
      obtain ⟨id, network, hnetwork, rfl⟩ := setSwitch_eq_ok hset
      refine h.alike ?_ (Network.alike_of_setSwitch hs hnetwork) rfl
      exact fun hclock ↦ Element.shown_maskSwitch fun hswitch ↦
        Kind.noConfusion (hclock.symm.trans hswitch)
  | addMonitor name =>
    cases hresolve : s.resolve name with
    | none => exact (perform_unresolved hresolve).1 ▸ h
    | some output => exact perform_addMonitor hresolve ▸ ⟨h.waves, h.cycles⟩
  | removeMonitor name =>
    cases hresolve : s.resolve name with
    | none => exact (perform_unresolved hresolve).2 ▸ h
    | some output => exact perform_removeMonitor hresolve ▸ ⟨h.waves, h.cycles⟩
  | reset => exact ⟨h.waves.reset hs, rfl⟩

theorem Ticking.after (h : Ticking c begun s) (hs : s.network.DistinctNames)
    (operations : List Operation) :
    Ticking c (begunSince begun s operations) (s.after operations) := by
  induction operations generalizing s begun with
  | nil => exact h
  | cons operation rest ih =>
    exact ih (h.perform hpos hs operation) ((descends_perform hs operation).distinctNames hs)

end Positive

/-! ### Loaded circuits -/

/-- The clocks of a loaded circuit in a state of its simulator, by the networks that the cycles
since loading or the last reset started from. -/
structure ClocksExact (c : Circuit) (begun : List Network) (s : Simulator) : Prop where
  /-- A clock of the circuit has ticked once in every cycle that got past its first settling. -/
  waves : ∀ d ∈ c.network.devices, ∀ halfPeriod counter output,
    d.element = .clock halfPeriod counter output →
      s.network.device? d.id = some { d with
        element := .clock halfPeriod (begun.countP Network.starts % halfPeriod)
          (decide (Odd (begun.countP Network.starts / halfPeriod))) }
  /-- These are the cycles that succeeded, which are counted, and those that were abandoned
  later. -/
  counted : begun.countP Network.starts =
    s.cycles + begun.countP fun n ↦ n.starts && !n.completes
  /-- As long as no cycle is abandoned, the cycles that are counted settle the level. -/
  steady : (∀ n ∈ begun, n.completes = true) → ∀ d ∈ c.network.devices,
    ∀ halfPeriod counter output, d.element = .clock halfPeriod counter output →
      s.network.output? ⟨d.id, none⟩ = some (decide (Odd (s.cycles / halfPeriod)))
  /-- One more tick does not take the count past the half-period, which fits a machine word. -/
  bounded : ∀ d ∈ s.network.devices, ∀ halfPeriod counter output,
    d.element = .clock halfPeriod counter output →
      1 ≤ halfPeriod ∧ counter + 1 ≤ halfPeriod ∧ halfPeriod ≤ 2 ^ 32 - 1

theorem countP_starts (begun : List Network) : begun.countP Network.starts =
    begun.countP Network.completes + begun.countP fun n ↦ n.starts && !n.completes := by
  induction begun with
  | nil => rfl
  | cons n rest ih =>
    have hcompletes : n.completes = true → n.starts = true := Network.starts_of_completes
    rw [List.countP_cons, List.countP_cons, List.countP_cons, ih]
    cases hstarts : n.starts <;> cases hdone : n.completes <;> simp_all <;> omega

section Loaded

variable {text : String} {settings : Settings}

theorem ticking_ofCircuit (h : c.WellFormed) (hc : c.network.DistinctNames) :
    Ticking c [] (ofCircuit c) :=
  ⟨Network.waves_zero hc fun d hd halfPeriod counter output helement ↦
    (h.clocks d hd halfPeriod counter output helement).2, rfl⟩

/-- A clock in a state of the simulator is a clock of the circuit, with the same half-period. -/
theorem Descends.exists_clock (h : Descends s t) (ht : t.network.DistinctNames) {d : Device}
    (hd : d ∈ t.network.devices) {halfPeriod counter : Nat} {output : Level}
    (helement : d.element = .clock halfPeriod counter output) :
    ∃ e ∈ s.network.devices, e.id = d.id ∧
      ∃ before first, e.element = .clock halfPeriod before first := by
  obtain ⟨e, he, hid, -, hmask⟩ := h.alike.symm.exists_device? (ht.device?_id hd)
  rw [helement] at hmask
  refine ⟨e, Network.mem_of_device? he, hid, ?_⟩
  cases hfirst : e.element with
  | clock halfPeriod' before first =>
    rw [hfirst] at hmask
    obtain ⟨rfl, -, -⟩ := Element.clock.inj hmask
    exact ⟨before, first, rfl⟩
  | _ =>
    rw [hfirst] at hmask
    cases hmask

/-- Assumes: the simulator of a loaded circuit, and any operations, with steps and runs that may be
abandoned. Let `k` be the number of cycles since loading or the last reset that got past their first
settling. A clock with half-period `h` has counted `k % h` and is high exactly when `k / h` is odd.
These are the cycles that succeeded and those that were abandoned later, so as long as no cycle is
abandoned the clock is high after `n` cycles exactly when `n / h` is odd, whatever the other devices
are and whatever switches are set. No tick takes a count past a machine word. -/
theorem clocks_exact (hload : Circuit.load text settings = .ok c) (operations : List Operation) :
    ClocksExact c (begunSince [] (ofCircuit c) operations) ((ofCircuit c).after operations) := by
  have hwell := wellFormed_of_load hload
  have hnames : (ofCircuit c).network.DistinctNames := (reset_of_load hload).1
  have hpos : ∀ d ∈ c.network.devices, ∀ halfPeriod counter output,
      d.element = .clock halfPeriod counter output → 1 ≤ halfPeriod :=
    fun d hd halfPeriod counter output helement ↦
      (hwell.clocks d hd halfPeriod counter output helement).1
  have hdescends := descends_after hnames operations
  have hafter := hdescends.distinctNames hnames
  obtain ⟨hwaves, hcycles⟩ := (ticking_ofCircuit hwell hnames).after hpos hnames operations
  have hcounted := countP_starts (begunSince [] (ofCircuit c) operations)
  rw [← hcycles] at hcounted
  refine ⟨hwaves, hcounted, fun hall d hd halfPeriod counter output helement ↦ ?_,
    fun d hd halfPeriod counter output helement ↦ ?_⟩
  · have hnone : (begunSince [] (ofCircuit c) operations).countP
        (fun n ↦ n.starts && !n.completes) = 0 :=
      List.countP_eq_zero.mpr fun n hn ↦ by rw [hall n hn, Bool.not_true, Bool.and_false]; decide
    rw [hnone, Nat.add_zero] at hcounted
    rw [hcounted] at hwaves
    rw [Network.output?, hwaves d hd halfPeriod counter output helement, Option.bind_some]
    rfl
  · obtain ⟨e, he, hid, before, first, hfirst⟩ := hdescends.exists_clock hafter hd helement
    have hnow := hwaves e he halfPeriod before first hfirst
    rw [hid, hafter.device?_id hd, Option.some_inj] at hnow
    have hcount : counter = _ := (Element.clock.inj (helement.symm.trans
      (congrArg Device.element hnow))).2.1
    have hfits := hpos e he halfPeriod before first hfirst
    refine ⟨hfits, ?_, Description.halfPeriod_le_of_load hload he hfirst⟩
    rw [hcount]
    exact Nat.mod_lt _ hfits

end Loaded

/-- A step, a run that is abandoned in its first settling, and two cycles more. -/
def switchedGateTicks : List Operation :=
  [.step, .setSwitch "X" Level.high, .run 3, .setSwitch "X" Level.low, .run 2]

theorem switchedGate_ticks : ∃ c, Circuit.load switchedGate = .ok c ∧
    ClocksExact c (begunSince [] (ofCircuit c) switchedGateTicks)
      ((ofCircuit c).after switchedGateTicks) ∧
    (begunSince [] (ofCircuit c) switchedGateTicks).length = 4 ∧
    (begunSince [] (ofCircuit c) switchedGateTicks).countP Network.starts = 3 := by
  obtain ⟨c, hload, hlength, hcount⟩ := Circuit.exists_loaded switchedGate
    (P := fun c ↦ (begunSince [] (ofCircuit c) switchedGateTicks).length = 4 ∧
      (begunSince [] (ofCircuit c) switchedGateTicks).countP Network.starts = 3)
    (by decide +kernel)
  exact ⟨c, hload, clocks_exact hload switchedGateTicks, hlength, hcount⟩

end Simulator

end Breadboard
