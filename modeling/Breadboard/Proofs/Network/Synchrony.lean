import Breadboard.Proofs.Network.Reachable
import Breadboard.Proofs.Network.Rearrangement

/-!
# Flip-flops in step

Where no clock of a flip-flop depends on a flip-flop, a cycle clocks all flip-flops at once. Those
whose clock was low when they last saw it and is high at the end take the level that was ahead of
them after the first settling, before any of them moved, and all others keep what they hold. So a
shift register moves by one stage, and the order in which the flip-flops are declared is of no
account (`flipFlops_in_step`).
-/

set_option autoImplicit false
set_option relaxedAutoImplicit false

namespace Breadboard

namespace Network

variable {n m start ticked rested : Network} {d first : Device} {rest : List Device}

/-- The clock of a flip-flop, as the flip-flop was before, has risen by now. -/
def Rises (m : Network) (d : Device) : Prop :=
  d.lastClock? = some Level.low ∧ m.inputLevel d m.ports.clk = Level.high

instance (m : Network) (d : Device) : Decidable (m.Rises d) :=
  inferInstanceAs (Decidable (_ ∧ _))

/-- Flip-flops in a row, the output of each the data of the next. -/
structure ShiftRegister (n : Network) (stages : List Device) : Prop where
  declared : ∀ d ∈ stages, d ∈ n.devices
  flipFlops : ∀ d ∈ stages, d.kind = .flipFlop
  chained : stages.IsChain fun d e ↦ e.driver? n.ports.data = some ⟨d.id, some n.ports.q⟩

/-- What a flip-flop with an isolated clock does in a cycle. -/
theorem Phases.latched (hn : n.WellFormed) (h : Phases n start ticked rested)
    (hisolated : n.ClocksIsolated) (hd : d ∈ n.devices) (hflip : d.kind = .flipFlop) :
    (rested.rememberClocks.Rises d → rested.rememberClocks.held d = some (start.nextLevel d) ∧
      rested.rememberClocks.heldBar d = some (!start.nextLevel d)) ∧
    (¬ rested.rememberClocks.Rises d → rested.rememberClocks.held d = n.held d ∧
      rested.rememberClocks.heldBar d = n.heldBar d) := by
  have hnames := hn.distinctNames
  obtain ⟨q, seen, helement⟩ := Device.exists_flipFlop hflip
  have hbefore := hnames.device?_id hd
  have hticked := (h.device?_ticked hnames hbefore helement).2
  obtain ⟨before, after, hsplit⟩ := List.append_of_mem (mem_of_device? hticked)
  have hports := Alike.ports (h.sameWiring_ticked hnames)
  have hclock := h.clock_of_isolated hnames hsplit (hports ▸ hisolated d hd hflip)
  have hrises : rested.rememberClocks.Rises d ↔ seen = Level.low ∧
      rested.inputLevel d ticked.ports.clk = Level.high := by
    rw [Rises, Device.lastClock?, helement, Option.some_inj, inputLevel_rememberClocks, ← hports,
      Alike.ports (h.sameWiring_rested hnames)]
    rfl
  obtain ⟨hheld, hbar⟩ := h.held hn hsplit helement
  rw [hclock] at hheld
  rw [hbar, hheld, held_of_flipFlop hn.q_ne_qbar hbefore helement,
    heldBar_of_flipFlop hn.q_ne_qbar hbefore helement, hrises]
  constructor
  · intro hrise
    rw [if_pos hrise]
    exact ⟨rfl, rfl⟩
  · intro hrise
    rw [if_neg hrise]
    exact ⟨rfl, rfl⟩

/-- The data of a stage is what the stage before it holds. -/
theorem inputLevel_of_stage {e : Device} (hports : start.ports = n.ports)
    (hheld : start.held d = n.held d) {q : Level} (hq : n.held d = some q)
    (hdriver : e.driver? n.ports.data = some ⟨d.id, some n.ports.q⟩) :
    start.inputLevel e start.ports.data = q := by
  rw [inputLevel_eq, hports, hdriver, drivenLevel, Option.bind_some, ← hports]
  rw [show start.output? ⟨d.id, some start.ports.q⟩ = some q from hheld.trans hq, Option.getD_some]

/-- Flip-flops in a row that all take over their data move by one stage. -/
theorem ShiftRegister.shift (h : n.ShiftRegister (first :: rest)) (hports : start.ports = n.ports)
    (hheld : ∀ d ∈ first :: rest, start.held d = n.held d ∧ ∃ q, n.held d = some q)
    (htaken : ∀ d ∈ first :: rest, m.held d = some (start.inputLevel d start.ports.data)) :
    (first :: rest).map m.held = some (start.inputLevel first start.ports.data) ::
      ((first :: rest).map n.held).dropLast := by
  induction rest generalizing first with
  | nil => rw [List.map_singleton, htaken first List.mem_cons_self, List.map_singleton]; rfl
  | cons second rest ih =>
    have hrow := List.isChain_cons_cons.mp h.chained
    have htail : n.ShiftRegister (second :: rest) :=
      ⟨fun d hd ↦ h.declared d (List.mem_cons_of_mem first hd),
        fun d hd ↦ h.flipFlops d (List.mem_cons_of_mem first hd), hrow.2⟩
    have hshift := ih htail (fun d hd ↦ hheld d (List.mem_cons_of_mem first hd))
      fun d hd ↦ htaken d (List.mem_cons_of_mem first hd)
    obtain ⟨hsame, q, hq⟩ := hheld first List.mem_cons_self
    rw [List.map_cons, hshift, htaken first List.mem_cons_self,
      inputLevel_of_stage hports hsame hq hrow.1, ← hq]
    rfl

/-- Assumes: a reachable network in which no clock of a flip-flop depends on a flip-flop, and a
cycle that succeeds. A flip-flop whose clock has risen ends with the level that was ahead of it
after the first settling, and any other keeps its outputs. A shift register whose stages are all
clocked, none of them set or cleared, moves by one stage. With the flip-flops declared in any other
places, the cycle succeeds all the same and leaves every device in the same state. -/
theorem flipFlops_in_step (hn : n.Reachable) (hisolated : n.ClocksIsolated)
    (hcycle : n.cycle = .ok m) :
    ∃ start, n.settle = .ok start ∧
      (∀ d ∈ n.devices, d.kind = .flipFlop →
        (m.Rises d → ∃ level : Level,
          (level = if start.inputLevel d start.ports.set = Level.high then Level.high
            else if start.inputLevel d start.ports.clear = Level.high then Level.low
            else start.inputLevel d start.ports.data) ∧
          m.held d = some level ∧ m.heldBar d = some (!level)) ∧
        (¬ m.Rises d → m.held d = n.held d ∧ m.heldBar d = n.heldBar d)) ∧
      (∀ first rest, n.ShiftRegister (first :: rest) →
        (∀ d ∈ first :: rest, m.Rises d ∧ start.inputLevel d start.ports.set = Level.low ∧
          start.inputLevel d start.ports.clear = Level.low) →
        (first :: rest).map m.held = some (start.inputLevel first start.ports.data) ::
          ((first :: rest).map n.held).dropLast) ∧
      ∀ k, Rearranged n k → ∃ l, k.cycle = .ok l ∧ Rearranged m l := by
  have hwf := hn.wellFormed
  have hnames := hwf.distinctNames
  obtain ⟨start, ticked, rested, h, rfl⟩ := cycle_eq_ok_iff.mp hcycle
  have hlatched := fun d hd hflip ↦ h.latched (d := d) hwf hisolated hd hflip
  refine ⟨start, h.settle_start, fun d hd hflip ↦ ?_, ?_,
    fun k hk ↦ hk.cycle hnames hisolated hcycle⟩
  · obtain ⟨hrises, hkept⟩ := hlatched d hd hflip
    exact ⟨fun hrise ↦ ⟨start.nextLevel d, rfl, hrises hrise⟩, hkept⟩
  intro first rest hregister hclocked
  have hports := (sameWiring_of_settle hnames h.settle_start).ports.symm
  refine hregister.shift hports (fun d hd ↦ ?_) fun d hd ↦ ?_
  · obtain ⟨q, seen, helement⟩ := Device.exists_flipFlop (hregister.flipFlops d hd)
    have hbefore := hnames.device?_id (hregister.declared d hd)
    have hstart := (h.device?_ticked hnames hbefore helement).1
    rw [held_of_flipFlop hwf.q_ne_qbar hbefore helement,
      held_of_flipFlop (hports ▸ hwf.q_ne_qbar) hstart helement]
    exact ⟨rfl, q, rfl⟩
  · obtain ⟨hrise, hset, hclear⟩ := hclocked d hd
    rw [((hlatched d (hregister.declared d hd) (hregister.flipFlops d hd)).1 hrise).1, nextLevel,
      hset, hclear]
    rfl

/-- A shift register of flip-flops 22, 23 and 24, declared in the given order, after two cycles: a
high level is in the first stage. The stages are clocked through two gates in a loop. -/
def shiftThree (declared : List NameId) : Network :=
  built (declared.map (.addDevice · .flipFlop) ++ [.addDevice 25 .switch, .addDevice 26 .clock,
    .addDevice 27 (.gate .or), .addDevice 28 (.gate .and), .addInputs 27 2, .addInputs 28 2,
    .setSwitch 25 Level.high, .connect ⟨26, none⟩ 27 0, .connect ⟨28, none⟩ 27 1,
    .connect ⟨27, none⟩ 28 0, .connect ⟨26, none⟩ 28 1, .connect ⟨27, none⟩ 22 16,
    .connect ⟨27, none⟩ 23 16, .connect ⟨27, none⟩ 24 16, .connect ⟨25, none⟩ 22 17,
    .connect ⟨22, some 20⟩ 23 17, .connect ⟨23, some 20⟩ 24 17, .cycle, .cycle])

/-- A stage of the shift register, with its clock low. -/
def shiftStage (id : NameId) (q : Level) (source : Terminal) : Device where
  id := id
  element := .flipFlop q Level.low
  pins := [⟨16, some ⟨27, none⟩⟩, ⟨17, some source⟩, ⟨18, none⟩, ⟨19, none⟩]

/-- The stages of the shift register. -/
def shiftStages : List Device :=
  [shiftStage 22 Level.high ⟨25, none⟩, shiftStage 23 Level.low ⟨22, some 20⟩,
    shiftStage 24 Level.low ⟨23, some 20⟩]

theorem shiftThree_in_step : ∃ m, (shiftThree [24, 22, 23]).cycle = .ok m ∧
    shiftStages.map m.held = [some Level.high, some Level.high, some Level.low] ∧
    ∃ l, (shiftThree [22, 23, 24]).cycle = .ok l ∧ Rearranged m l := by
  have hreachable : (shiftThree [24, 22, 23]).Reachable := reachable_built _
  have hclocks : ∀ d ∈ (shiftThree [24, 22, 23]).devices, d.kind = .flipFlop →
      d.driver? (shiftThree [24, 22, 23]).ports.clk = some ⟨27, none⟩ := by decide +kernel
  have hisolated : (shiftThree [24, 22, 23]).ClocksIsolated := by
    intro d hd hflip
    rw [hclocks d hd hflip]
    exact isolated_of_closed [⟨26, none⟩, ⟨27, none⟩, ⟨28, none⟩] (by decide) (by decide +kernel)
  have hcycle : (shiftThree [24, 22, 23]).cycle =
      .ok (finalState (shiftThree [24, 22, 23]).cycle) := by decide +kernel
  have hregister : (shiftThree [24, 22, 23]).ShiftRegister shiftStages :=
    ⟨by decide +kernel, by decide +kernel, by decide +kernel⟩
  have horders : Rearranged (shiftThree [24, 22, 23]) (shiftThree [22, 23, 24]) :=
    ⟨by decide +kernel, by decide +kernel, by decide +kernel, by decide +kernel⟩
  obtain ⟨start, hstart, -, hshift, horder⟩ := flipFlops_in_step hreachable hisolated hcycle
  obtain rfl : finalState (shiftThree [24, 22, 23]).settle = start := congrArg finalState hstart
  have hmoved := hshift _ _ hregister (by decide +kernel)
  exact ⟨_, hcycle, hmoved.trans (by decide +kernel), horder _ horders⟩

end Network

end Breadboard
