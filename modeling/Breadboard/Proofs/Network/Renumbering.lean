import Breadboard.Network.Declaration
import Breadboard.Proofs.Simulator.Watching
import Mathlib.Logic.Function.Basic

/-!
# Devices under other numbers

Nothing that happens in a network hangs on the numbers of its devices, as long as different devices
have different numbers. When the devices are renumbered, and with them the drivers of the pins, each
pass, each cycle and each reset goes the same way as before, and ends in the network that it ended
in, renumbered (`renumbered_settle`, `renumbered_cycle`, `renumbered_reset`). The same goes for what
is recorded of the outputs. The numbers of ports stay as they are.
-/

set_option autoImplicit false
set_option relaxedAutoImplicit false

namespace Breadboard

section Renumbered

variable (number : NameId → NameId)

/-- An output whose device is renumbered. -/
def Terminal.renumbered (t : Terminal) : Terminal :=
  ⟨number t.device, t.port⟩

/-- A pin whose driver is renumbered. -/
def Pin.renumbered (pin : Pin) : Pin :=
  ⟨pin.port, pin.driver.map (Terminal.renumbered number)⟩

/-- A device under another number, with its drivers renumbered. -/
def Device.renumbered (d : Device) : Device :=
  ⟨number d.id, d.element, d.pins.map (Pin.renumbered number)⟩

/-- A network with its devices renumbered. -/
def Network.renumbered (n : Network) : Network :=
  { n with devices := n.devices.map (Device.renumbered number) }

/-- What an activity ends with, renumbered. -/
def Network.endRenumbered : Except Network Network → Except Network Network
  | .ok n => .ok (n.renumbered number)
  | .error n => .error (n.renumbered number)

/-- What is recorded of an output, under its new number. -/
def Probe.renumbered (probe : Probe) : Probe :=
  ⟨probe.output.renumbered number, probe.history⟩

/-- Monitors of renumbered outputs. -/
def Monitors.renumbered (m : Monitors) : Monitors :=
  ⟨m.probes.map (Probe.renumbered number)⟩

end Renumbered

variable {number : NameId → NameId}

theorem Terminal.renumbered_injective (hnumber : Function.Injective number) :
    Function.Injective (Terminal.renumbered number) := by
  intro first second h
  obtain ⟨hdevice, hport⟩ := Terminal.mk.inj h
  cases first
  cases second
  exact Terminal.mk.injEq .. ▸ ⟨hnumber hdevice, hport⟩

theorem Device.pin?_renumbered (number : NameId → NameId) (d : Device) (port : NameId) :
    (d.renumbered number).pin? port = (d.pin? port).map (Pin.renumbered number) := by
  rw [Device.pin?, Device.renumbered, List.find?_map]
  rfl

theorem Device.mapElement_renumbered (number : NameId → NameId) (f : Element → Element)
    (d : Device) : (d.mapElement f).renumbered number = (d.renumbered number).mapElement f := rfl

namespace Network

variable {n k : Network} {d : Device} {id : NameId}

@[simp]
theorem ports_renumbered (number : NameId → NameId) (n : Network) :
    (n.renumbered number).ports = n.ports := rfl

@[simp]
theorem iterationLimit_renumbered (number : NameId → NameId) (n : Network) :
    (n.renumbered number).iterationLimit = n.iterationLimit := by
  rw [iterationLimit, iterationLimit, renumbered, List.length_map]

/-- To renumber what is made of every device is to make it of the renumbered devices. -/
theorem renumbered_mapDevices {f g : Device → Device}
    (hfg : ∀ d ∈ n.devices, (f d).renumbered number = g (d.renumbered number)) :
    (n.mapDevices f).renumbered number = (n.renumbered number).mapDevices g := by
  rw [mapDevices, renumbered, mapDevices, renumbered, List.map_map, List.map_map]
  exact congrArg (Network.mk n.ports · n.settings) (List.map_congr_left hfg)

/-! ### Levels -/

section Levels

variable (hnumber : Function.Injective number)

include hnumber

/-- A device is found under its new number. -/
theorem device?_renumbered (n : Network) (id : NameId) :
    (n.renumbered number).device? (number id) = (n.device? id).map (Device.renumbered number) := by
  rw [device?, renumbered, List.find?_map]
  congr 2
  funext d
  exact Bool.eq_iff_iff.mpr (by simp [Device.renumbered, hnumber.eq_iff])

theorem contains_renumbered (n : Network) (id : NameId) :
    (n.renumbered number).contains (number id) = n.contains id := by
  rw [contains, device?_renumbered hnumber, Option.isSome_map, contains]

/-- Outputs have their levels under their new numbers. -/
theorem output?_renumbered (n : Network) (t : Terminal) :
    (n.renumbered number).output? (t.renumbered number) = n.output? t := by
  have hdevice := device?_renumbered hnumber n t.device
  rw [output?, Terminal.renumbered, hdevice, output?, Option.bind_map]
  rfl

/-- An input reads the same level from its renumbered driver. -/
theorem drivenLevel_renumbered (n : Network) (driver : Option Terminal) :
    (n.renumbered number).drivenLevel (driver.map (Terminal.renumbered number)) =
      n.drivenLevel driver := by
  cases driver with
  | none => rfl
  | some t =>
    rw [drivenLevel, Option.map_some, Option.bind_some, output?_renumbered hnumber]
    rfl

theorem inputLevel_renumbered (n : Network) (d : Device) (port : NameId) :
    (n.renumbered number).inputLevel (d.renumbered number) port = n.inputLevel d port := by
  have hlevel := drivenLevel_renumbered hnumber n ((d.pin? port).bind Pin.driver)
  rw [Option.map_bind] at hlevel
  rw [inputLevel, Device.pin?_renumbered, Option.bind_map]
  exact hlevel

/-- A gate reads the same levels. -/
theorem pinLevels_renumbered (n : Network) (d : Device) :
    (n.renumbered number).pinLevels (d.renumbered number) = n.pinLevels d := by
  rw [pinLevels, Device.renumbered, List.map_map, pinLevels]
  exact List.map_congr_left fun pin _ ↦ drivenLevel_renumbered hnumber n pin.driver

/-- A flip-flop takes the same level. -/
theorem nextLevel_renumbered (n : Network) (d : Device) :
    (n.renumbered number).nextLevel (d.renumbered number) = n.nextLevel d := by
  rw [nextLevel, ports_renumbered, inputLevel_renumbered hnumber, inputLevel_renumbered hnumber,
    inputLevel_renumbered hnumber, nextLevel]

/-- One device replaced, in a renumbered network. -/
theorem renumbered_replace {f g : Device → Device}
    (hfg : ∀ d ∈ n.devices, (f d).renumbered number = g (d.renumbered number)) (id : NameId) :
    (n.update id f).renumbered number = (n.renumbered number).update (number id) g := by
  refine renumbered_mapDevices fun d hd ↦ ?_
  rw [apply_ite (Device.renumbered number), hfg d hd]
  exact if_congr hnumber.eq_iff.symm rfl rfl

/-- What one device remembers replaced, in a renumbered network. -/
theorem renumbered_update (n : Network) (id : NameId) (f : Element → Element) :
    (n.update id (Device.mapElement f)).renumbered number =
      (n.renumbered number).update (number id) (Device.mapElement f) :=
  renumbered_replace hnumber (fun d _ ↦ Device.mapElement_renumbered number f d) id

/-- A switch is set under its new number. -/
theorem renumbered_setSwitch? (n : Network) (id : NameId) (level : Level) :
    (n.renumbered number).setSwitch? (number id) level =
      (n.setSwitch? id level).map (renumbered number) := by
  rw [setSwitch?, device?_renumbered hnumber, setSwitch?, Option.bind_map, Option.map_bind]
  refine Option.bind_congr fun d _ ↦ ?_
  rw [Function.comp_apply, Function.comp_apply, Device.renumbered]
  cases d.element with
  | switch => exact congrArg some (renumbered_update hnumber n id _).symm
  | _ => rfl

/-! ### Turns -/

omit hnumber in
/-- A sweep in which every turn goes the same way. -/
theorem renumbered_sweep {turn turn' : Network → Device → Network × Bool}
    (hturn : ∀ k d, turn' (k.renumbered number) (d.renumbered number) =
      ((turn k d).1.renumbered number, (turn k d).2)) (n : Network) :
    (n.renumbered number).sweep turn' =
      ((n.sweep turn).1.renumbered number, (n.sweep turn).2) := by
  have hfold (devices : List Device) (state : Network × Bool) :
      (devices.map (Device.renumbered number)).foldl
        (fun state d ↦ ((turn' state.1 d).1, state.2 || (turn' state.1 d).2))
        (state.1.renumbered number, state.2) =
      Prod.map (renumbered number) id (devices.foldl
        (fun state d ↦ ((turn state.1 d).1, state.2 || (turn state.1 d).2)) state) := by
    induction devices generalizing state with
    | nil => rfl
    | cons d devices ih =>
      rw [List.map_cons, List.foldl_cons, List.foldl_cons, hturn]
      exact ih ((turn state.1 d).1, state.2 || (turn state.1 d).2)
  exact hfold n.devices (n, false)

theorem renumbered_refresh (n : Network) (d : Device) :
    (n.renumbered number).refresh (d.renumbered number) =
      ((n.refresh d).1.renumbered number, (n.refresh d).2) := by
  have hlevels := pinLevels_renumbered hnumber n d
  rw [refresh, hlevels, refresh, Device.renumbered]
  cases d.element with
  | gate g output => exact Prod.ext (renumbered_update hnumber n d.id _).symm rfl
  | _ => rfl

/-- A pass over the gates does the same under new numbers. -/
theorem renumbered_pass (n : Network) :
    (n.renumbered number).pass = (n.pass.1.renumbered number, n.pass.2) :=
  renumbered_sweep (renumbered_refresh hnumber) n

theorem renumbered_settleWithin (passes : Nat) (n : Network) :
    settleWithin passes (n.renumbered number) = endRenumbered number (settleWithin passes n) := by
  induction passes generalizing n with
  | zero => rfl
  | succ passes ih =>
    rw [settleWithin, renumbered_pass hnumber, settleWithin]
    cases n.pass with
    | mk next changed =>
      cases changed with
      | false => rfl
      | true => exact ih next

/-- The gates settle alike under new numbers, or fail to alike. -/
theorem renumbered_settle (n : Network) :
    (n.renumbered number).settle = endRenumbered number n.settle := by
  rw [settle, iterationLimit_renumbered, renumbered_settleWithin hnumber, settle]

/-! ### Cycles -/

omit hnumber in
theorem renumbered_tick (n : Network) : (n.renumbered number).tick = n.tick.renumbered number :=
  (renumbered_mapDevices fun d _ ↦ Device.mapElement_renumbered number Element.tick d).symm

theorem renumbered_latchOne (sampled n : Network) (d : Device) :
    latchOne (sampled.renumbered number) (n.renumbered number) (d.renumbered number) =
      ((latchOne sampled n d).1.renumbered number, (latchOne sampled n d).2) := by
  have hclock := inputLevel_renumbered hnumber n d n.ports.clk
  have hnext := nextLevel_renumbered hnumber sampled d
  rw [latchOne, ports_renumbered, hclock, hnext, latchOne, Device.renumbered]
  cases d.element with
  | flipFlop q lastClock =>
    dsimp only
    split
    · exact Prod.ext (renumbered_update hnumber n d.id _).symm rfl
    · rfl
  | _ => rfl

/-- Flip-flops latch alike under new numbers. -/
theorem renumbered_latch (sampled n : Network) :
    latch (sampled.renumbered number) (n.renumbered number) =
      ((latch sampled n).1.renumbered number, (latch sampled n).2) :=
  renumbered_sweep (renumbered_latchOne hnumber sampled) n

theorem renumbered_rememberClocks (n : Network) :
    (n.renumbered number).rememberClocks = n.rememberClocks.renumbered number := by
  refine (renumbered_mapDevices fun d _ ↦ ?_).symm
  rw [ports_renumbered, inputLevel_renumbered hnumber]
  rfl

omit hnumber in
/-- Activities one after another: where the first is abandoned, so are both. -/
theorem endRenumbered_bind {x : Except Network Network} {f g : Network → Except Network Network}
    (hfg : ∀ k, g (k.renumbered number) = endRenumbered number (f k)) :
    endRenumbered number x >>= g = endRenumbered number (x >>= f) := by
  cases x with
  | ok k => exact hfg k
  | error k => rfl

theorem renumbered_settleIf (n : Network) (changed : Bool) :
    settleIf (n.renumbered number, changed) = endRenumbered number (settleIf (n, changed)) := by
  cases changed with
  | false => rfl
  | true => exact renumbered_settle hnumber n

/-- A cycle ends alike under new numbers, at rest or abandoned. -/
theorem renumbered_cycle (n : Network) :
    (n.renumbered number).cycle = endRenumbered number n.cycle := by
  rw [cycle, renumbered_settle hnumber, cycle]
  refine endRenumbered_bind fun start ↦ ?_
  rw [renumbered_tick, renumbered_settle hnumber]
  refine endRenumbered_bind fun ticked ↦ ?_
  rw [renumbered_latch hnumber, renumbered_settleIf hnumber]
  exact endRenumbered_bind fun rested ↦
    congrArg Except.ok (renumbered_rememberClocks hnumber rested)

/-- Powering on does the same under new numbers. -/
theorem renumbered_powerOn (n : Network) :
    (n.renumbered number).powerOn = n.powerOn.renumbered number := by
  rw [powerOn, renumbered_settle hnumber, powerOn, ← renumbered_rememberClocks hnumber]
  cases n.settle <;> rfl

/-- A reset does the same under new numbers. -/
theorem renumbered_reset (n : Network) :
    (n.renumbered number).reset = n.reset.renumbered number := by
  rw [reset, reset, ← renumbered_powerOn hnumber]
  exact congrArg powerOn
    (renumbered_mapDevices fun d _ ↦ Device.mapElement_renumbered number Element.reset d).symm

end Levels

end Network

/-! ### What is recorded -/

namespace Monitors

variable {m : Monitors} {output : Terminal}

@[simp]
theorem outputs_renumbered (number : NameId → NameId) (m : Monitors) :
    (m.renumbered number).outputs = m.outputs.map (Terminal.renumbered number) := by
  rw [outputs, renumbered, List.map_map, outputs, List.map_map]
  rfl

@[simp]
theorem clear_renumbered (number : NameId → NameId) (m : Monitors) :
    (m.renumbered number).clear = m.clear.renumbered number := by
  rw [clear, renumbered, List.map_map, renumbered, clear, List.map_map]
  rfl

section Levels

variable (hnumber : Function.Injective number)

include hnumber

theorem mem_outputs_renumbered_iff :
    output.renumbered number ∈ (m.renumbered number).outputs ↔ output ∈ m.outputs := by
  rw [outputs_renumbered]
  exact List.mem_map_of_injective (Terminal.renumbered_injective hnumber)

/-- The same levels are recorded under new numbers. -/
theorem record_renumbered (m : Monitors) (n : Network) :
    (m.renumbered number).record (n.renumbered number) = (m.record n).renumbered number := by
  rw [record_eq, renumbered, List.map_map, renumbered, record_eq, List.map_map]
  refine congrArg Monitors.mk (List.map_congr_left fun probe _ ↦ ?_)
  have hlevel := Network.drivenLevel_renumbered hnumber n (some probe.output)
  exact congrArg (fun level ↦ Probe.mk (probe.output.renumbered number)
    (probe.history.push level)) hlevel

theorem remove_renumbered (m : Monitors) (output : Terminal) :
    (m.renumbered number).remove (output.renumbered number) =
      (m.remove output).renumbered number := by
  have hinjective := Terminal.renumbered_injective hnumber
  have hother : (fun probe : Probe ↦ decide (probe.output ≠ output.renumbered number)) ∘
      Probe.renumbered number = fun probe ↦ decide (probe.output ≠ output) :=
    funext fun probe ↦ decide_eq_decide.mpr (not_congr hinjective.eq_iff)
  rw [remove, renumbered, List.filter_map, hother]
  rfl

theorem history?_renumbered (m : Monitors) (output : Terminal) :
    (m.renumbered number).history? (output.renumbered number) = m.history? output := by
  have hinjective := Terminal.renumbered_injective hnumber
  have hsame : (fun probe : Probe ↦ probe.output == output.renumbered number) ∘
      Probe.renumbered number = fun probe ↦ probe.output == output := by
    funext probe
    rw [Bool.eq_iff_iff, Function.comp_apply, beq_iff_eq, beq_iff_eq]
    exact hinjective.eq_iff
  rw [history?, renumbered, List.find?_map, Option.map_map, hsame]
  rfl

theorem watch_renumbered (m : Monitors) (output : Terminal) :
    (m.renumbered number).watch (output.renumbered number) =
      (m.watch output).renumbered number := by
  rw [watch, watch, if_congr (mem_outputs_renumbered_iff hnumber) rfl rfl]
  split
  · rfl
  · have hprobes : (m.probes ++ [Probe.mk output #[]]).map (Probe.renumbered number) =
        m.probes.map (Probe.renumbered number) ++ [⟨output.renumbered number, #[]⟩] := by
      rw [List.map_append, List.map_singleton]
      rfl
    exact congrArg Monitors.mk hprobes.symm

end Levels

end Monitors

end Breadboard
