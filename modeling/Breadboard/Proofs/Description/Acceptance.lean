import Breadboard.Proofs.Description.Parsing

/-!
# Accepted descriptions

A circuit is drawn by writing down its devices in order, with their kinds, what is set about them
and what is connected to their inputs, and the outputs that are watched (`Circuit.schematic`). A
circuit realizes a schematic when it is a network that the schematic depicts, powered on
(`Realizes`), and then the schematic is what is drawn of it.

A description gives a circuit exactly if it denotes a schematic, and the circuit realizes what the
description denotes (`load_iff_denotes`).

To the rules of its statements a description adds one: an `init` section is written with names that
were met (`allowed_body_iff`). Leading zeros are enough to break it (`paddedSetting_refused`).
-/

set_option autoImplicit false
set_option relaxedAutoImplicit false

namespace Breadboard

open Description

/-! ### Powering on -/

namespace Element

/-- An element with all blanked out that powering on can change. -/
def maskPower (element : Element) : Element :=
  element.maskGate.maskLastClock

theorem maskPower_maskGate (element : Element) :
    element.maskGate.maskPower = element.maskPower := by
  cases element <;> rfl

theorem maskPower_maskLastClock (element : Element) :
    element.maskLastClock.maskPower = element.maskPower := by
  cases element <;> rfl

@[simp]
theorem maskPower_element (c : Component) : c.element.maskPower = c.element := by
  cases c <;> rfl

end Element

theorem Network.alike_powerOn {n : Network} (hn : n.DistinctNames) :
    Network.Alike Element.maskPower n n.powerOn :=
  ((Network.alike_settle hn).coarsen Element.maskPower_maskGate).trans
    ((Network.alike_rememberClocks _).coarsen Element.maskPower_maskLastClock)

/-! ### Drawing a circuit -/

/-- What an element is, with what is set about it. -/
def Description.Component.ofElement : Element → Component
  | .gate g _ => .gate g
  | .switch level => .switch level
  | .clock halfPeriod _ _ => .clock halfPeriod
  | .flipFlop _ _ => .flipFlop

@[simp]
theorem Description.Component.ofElement_element (c : Component) :
    Component.ofElement c.element = c := by
  cases c <;> rfl

@[simp]
theorem Description.Component.ofElement_maskPower (element : Element) :
    Component.ofElement element.maskPower = Component.ofElement element := by
  cases element <;> rfl

namespace Names

/-- The name of an output, as a description writes it. -/
def outputName (names : Names) (t : Terminal) : OutputName :=
  ⟨names.nameOf t.device, t.port.map names.nameOf⟩

/-- An input with the output that drives it, as a description writes them. -/
def inlet (names : Names) (pin : Pin) : Inlet :=
  ⟨names.nameOf pin.port, pin.driver.map names.outputName⟩

/-- A device, as a description draws it. -/
def part (names : Names) (d : Device) : Part :=
  ⟨names.nameOf d.id, .ofElement d.element, d.pins.map names.inlet⟩

end Names

/-- What is drawn of a circuit: its devices in order and the outputs that are watched. -/
def Circuit.schematic (c : Circuit) : Schematic where
  parts := c.network.devices.map c.names.part
  watched := c.monitors.outputs.map c.names.outputName

/-- What can be decided of a circuit that loads. -/
theorem Circuit.exists_loaded (text : String) {P : Circuit → Prop} [DecidablePred P]
    (h : (load text).toOption.any (P ·) = true) : ∃ c, load text = .ok c ∧ P c := by
  cases hload : load text with
  | error failure => simp [hload, Except.toOption] at h
  | ok c =>
    rw [hload] at h
    exact ⟨c, rfl, of_decide_eq_true h⟩

namespace Description

variable {settings : Settings} {names : Names} {n : Network} {m : Monitors} {s : Schematic}
  {text : String} {c : Circuit}

theorem nameOf_of_string? {id : NameId} {name : String} (h : names.string? id = some name) :
    names.nameOf id = name := by
  rw [Names.nameOf_eq, h, Option.getD_some]

theorem Calls.outputName_eq {t : Terminal} {output : OutputName} (h : Calls names t output) :
    names.outputName t = output := by
  obtain ⟨device, port⟩ := t
  obtain ⟨name, portName⟩ := output
  have hport : port.map names.nameOf = portName := by
    cases port with
    | none => exact (h.port_eq_none_iff.mp rfl).symm
    | some port =>
      obtain ⟨found, rfl, hfound⟩ := h.exists_port rfl
      exact congrArg some (nameOf_of_string? hfound)
  rw [Names.outputName, nameOf_of_string? h.device, hport]

theorem PinShown.inlet_eq {pin : Pin} {inlet : Inlet} (h : PinShown names pin inlet) :
    names.inlet pin = inlet := by
  obtain ⟨port, driver⟩ := pin
  obtain ⟨name, output⟩ := inlet
  have hdriver : driver.map names.outputName = output := by
    cases h.driver with
    | none => rfl
    | some hcalls => exact congrArg some hcalls.outputName_eq
  rw [Names.inlet, nameOf_of_string? h.port, hdriver]

/-- Items that are drawn as the items of another list. -/
theorem map_eq_of_forall₂ {α β : Type} {R : α → β → Prop} {f : α → β} {xs : List α} {ys : List β}
    (h : List.Forall₂ R xs ys) (hf : ∀ x y, R x y → f x = y) : xs.map f = ys := by
  induction h with
  | nil => rfl
  | cons hxy _ ih => rw [List.map_cons, hf _ _ hxy, ih]

theorem PartShown.part_eq {d : Device} {part : Part} (h : PartShown names d part) :
    names.part d = part := by
  have hinlets := map_eq_of_forall₂ h.inlets fun _ _ ↦ PinShown.inlet_eq
  rw [Names.part, nameOf_of_string? h.name, h.element, Component.ofElement_element, hinlets]

/-- Powering on changes nothing that is drawn. -/
theorem map_part_of_alike {k : Network} (h : Network.Alike Element.maskPower n k) :
    n.devices.map names.part = k.devices.map names.part := by
  have hpart : names.part ∘ Device.mapElement Element.maskPower = names.part := by
    funext d
    rw [Function.comp_apply, Device.mapElement, Names.part, Component.ofElement_maskPower]
    rfl
  have hmap := congrArg (List.map names.part) h.devices
  rwa [List.map_map, List.map_map, hpart] at hmap

/-- A circuit is what a schematic says, powered on, with nothing recorded. -/
def Realizes (settings : Settings) (c : Circuit) (s : Schematic) : Prop :=
  ∃ n : Network, c.network = n.powerOn ∧ Depicts settings c.names n c.monitors s

/-- What is drawn of a circuit is what it realizes. -/
theorem Realizes.schematic_eq (h : Realizes settings c s) : c.schematic = s := by
  obtain ⟨n, hnetwork, hdepicts⟩ := h
  have hparts : c.network.devices.map c.names.part = s.parts := by
    rw [hnetwork, ← map_part_of_alike (Network.alike_powerOn hdepicts.distinct)]
    exact map_eq_of_forall₂ hdepicts.parts fun _ _ ↦ PartShown.part_eq
  have hwatched : c.monitors.outputs.map c.names.outputName = s.watched := by
    rw [Monitors.outputs, List.map_map]
    exact map_eq_of_forall₂ hdepicts.watched fun _ _ hprobe ↦ hprobe.output.outputName_eq
  rw [Circuit.schematic, hparts, hwatched]

/-! ### Loading -/

theorem load_eq_ok_iff : Circuit.load text settings = .ok c ↔
    (Circuit.build text settings).reader.log = [] ∧
      c = ⟨(Circuit.build text settings).reader.names,
        (Circuit.build text settings).network.powerOn, (Circuit.build text settings).monitors⟩ := by
  rw [Circuit.load_eq, Builder.inOrder]
  split
  · next hlog => simp [List.isEmpty_iff.mp hlog, eq_comm]
  · next hlog =>
    refine iff_of_false nofun fun h ↦ hlog ?_
    rw [h.1]
    rfl

/-- A description that denotes a schematic gives a circuit that realizes it. The circuit has regular
names, and the schematic is coherent. -/
theorem load_of_denotes (h : Denotes text s) (settings : Settings) :
    ∃ c, Circuit.load text settings = .ok c ∧ Realizes settings c s ∧ Regular c.names ∧
      s.Coherent := by
  obtain ⟨d, rfl, hshows⟩ := shows_of_denotes h settings
  exact ⟨_, load_eq_ok_iff.mpr ⟨hshows.ready.log, rfl⟩, ⟨_, rfl, hshows.depicts⟩,
    hshows.ready.names, hshows.coherent⟩

/-- A description that gives a circuit denotes a schematic. -/
theorem denotes_of_load (h : Circuit.load text settings = .ok c) : ∃ s, Denotes text s := by
  obtain ⟨d, hdenotes, -⟩ := denotes_of_quiet (load_eq_ok_iff.mp h).1
  exact ⟨d.schematic, hdenotes⟩

/-- A description is accepted exactly if it is scanned without a fault, is spelled by the grammar
with its sections in order, and breaks no rule, statement by statement; and the circuit that it
gives is the one that the statements come to, powered on.

One of the rules is of the names as they are written: an `init` section is written with names that
were met (`Act.adjust`). It is no rule of devices. `A01 => A03` stands for `A1`, `A2` and `A3`, and
sets these three only where `A01` and `A03` were met as well. -/
theorem load_iff_denotes (text : String) (settings : Settings) :
    ((∃ c, Circuit.load text settings = .ok c) ↔ ∃ s, Denotes text s) ∧
      ∀ s, Denotes text s ↔
        ∃ c, Circuit.load text settings = .ok c ∧ Realizes settings c s := by
  refine ⟨⟨fun ⟨_, h⟩ ↦ denotes_of_load h, fun ⟨_, h⟩ ↦ ?_⟩, fun s ↦ ⟨fun h ↦ ?_, ?_⟩⟩
  · exact (load_of_denotes h settings).imp fun _ h ↦ h.1
  · exact (load_of_denotes h settings).imp fun _ h ↦ ⟨h.1, h.2.1⟩
  · rintro ⟨c, hload, hrealizes⟩
    -- what a text denotes is what is drawn of its circuit, so it denotes nothing else
    obtain ⟨other, hdenotes⟩ := denotes_of_load hload
    obtain ⟨c', hload', hother, -⟩ := load_of_denotes hdenotes settings
    obtain rfl : c' = c := Except.ok.inj (hload'.symm.trans hload)
    rwa [← hrealizes.schematic_eq, hother.schematic_eq]

/-- Two inputs set by their range, which is written with leading zeros where they are defined and
where they are set. -/
def paddedInputs : String :=
  "devices \x7b A01 => A02 are SWITCH; G is AND; G has 2 inputs; \x7d " ++
  "connections \x7b device G \x7b A1 to G.I1; A2 to G.I2; \x7d \x7d " ++
  "monitor \x7b G; \x7d init \x7b A01 => A02 set 1; \x7d"

/-- The AND gate of the two inputs, which are both high. -/
def paddedInputsSchematic : Schematic where
  parts := [⟨"A1", .switch Level.high, []⟩, ⟨"A2", .switch Level.high, []⟩,
    ⟨"G", .gate .and, [⟨"I1", some ⟨"A1", none⟩⟩, ⟨"I2", some ⟨"A2", none⟩⟩]⟩]
  watched := [⟨"G", none⟩]

theorem paddedInputs_denotes : Denotes paddedInputs paddedInputsSchematic ∧
    ∃ c, Circuit.load paddedInputs = .ok c ∧ Realizes {} c paddedInputsSchematic := by
  obtain ⟨c, hload, hdrawn⟩ := Circuit.exists_loaded paddedInputs
    (P := fun c ↦ c.schematic = paddedInputsSchematic) (by decide +kernel)
  obtain ⟨haccepted, hdenotes⟩ := load_iff_denotes paddedInputs {}
  obtain ⟨s, hs⟩ := haccepted.mp ⟨c, hload⟩
  obtain ⟨c', hload', hrealizes⟩ := (hdenotes s).mp hs
  obtain rfl : c' = c := Except.ok.inj (hload'.symm.trans hload)
  obtain rfl : s = paddedInputsSchematic := hrealizes.schematic_eq.symm.trans hdrawn
  exact ⟨hs, c', hload, hrealizes⟩

/-! ### The names that an `init` section is written with -/

/-- Every name that an `init` section is written with is among some names. -/
def Section.WrittenIn (met : List String) : Section → Prop
  | .init sentences => ∀ sentence ∈ sentences, ∀ name ∈ sentence.names.written, name ∈ met
  | _ => True

theorem allowed_each_adjust {d : Draft} {sentences : List Sentence} :
    Act.adjust.each.allowed d sentences ↔
      Act.sentence.drawn.each.allowed d sentences ∧ (Section.init sentences).WrittenIn d.met := by
  induction sentences generalizing d with
  | nil => exact iff_of_true trivial ⟨trivial, nofun⟩
  | cons sentence sentences ih =>
    have hrest : Act.adjust.each.allowed (Act.adjust.after d sentence) sentences ↔ _ := ih
    change (_ ∧ _) ∧ Act.adjust.each.allowed (Act.adjust.after d sentence) sentences ↔
      (_ ∧ Act.sentence.drawn.each.allowed (Act.adjust.after d sentence) sentences) ∧
        ∀ item ∈ sentence :: sentences, ∀ name ∈ item.names.written, name ∈ d.met
    rw [hrest, List.forall_mem_cons]
    exact ⟨fun h ↦ ⟨⟨h.1.2, h.2.1⟩, h.1.1, h.2.2⟩, fun h ↦ ⟨⟨h.2.1, h.1.1⟩, h.1.2, h.2.2⟩⟩

/-- The rules of a section are those of its statements, and that of the names that an `init` section
is written with. -/
theorem allowed_body_iff {d : Draft} {part : Section} :
    Act.body.allowed d part ↔ Act.bareBody.allowed d part ∧ part.WrittenIn d.met := by
  cases part with
  | init sentences => exact allowed_each_adjust
  | _ => exact (and_iff_left trivial).symm

/-- Switches that are defined without leading zeros and set with them. -/
def paddedSetting : String :=
  "devices \x7b A1 => A3 are SWITCH; \x7d connections \x7b \x7d init \x7b A01 => A03 set 1; \x7d"

/-- The script of `paddedSetting`. -/
def paddedSettingScript : Script :=
  [.devices [⟨.range "A1" "A3", .define .switch⟩], .connections [],
    .init [⟨.range "A01" "A03", .level Level.high⟩]]

/-- A description without a fault, spelled by the grammar with its sections in order, that breaks no
rule of its statements, and is refused: `A01` and `A03` stand for switches that are there, and were
not met. -/
theorem paddedSetting_refused :
    (∃ symbols, Scans paddedSetting symbols ∧ ScriptSpelled paddedSettingScript symbols) ∧
    paddedSettingScript.InOrder ∧ Act.bareScript.allowed {} paddedSettingScript ∧
    Circuit.load paddedSetting = .error (.invalidCircuit
      [⟨.meaning, "device 'A01' does not exist", ⟨1, 57⟩, paddedSetting⟩]) := by
  have hswitch : KindSpelled .switch [.name "SWITCH"] := .word (by decide)
  have hspelled : ScriptSpelled paddedSettingScript _ :=
    .cons (.intro (.cons (.intro (.define (.inr rfl) hswitch)) .nil))
      (.cons (.intro .nil) (.cons (.intro (.cons (.intro (.level (.inl rfl))) .nil)) .nil))
  have hdefined : (NameList.range "A1" "A3").names? = some ["A1", "A2", "A3"] := by decide +kernel
  have hset : (NameList.range "A01" "A03").names? = some ["A1", "A2", "A3"] := by decide +kernel
  refine ⟨⟨_, by decide +kernel, hspelled⟩, ⟨?_, rfl, by decide, by decide⟩, ?_, ?_⟩
  · simp [paddedSettingScript, Section.Proper, FitsInit]
  · simp [paddedSettingScript, Act.bareScript, Act.each, Act.AllAllowed, Act.bareBody, Act.body,
      Act.introduce, Act.sentence, Act.drawn, Act.declare, hdefined, hset, Schematic.part?,
      Schematic.modify, Part.fresh, Component.ofKind, Component.kind, firstInputNames, openInlets,
      Schematic.MayClose, Schematic.HasInputs, Schematic.IsConnected, Section.heading]
  · have horder : (Circuit.build paddedSetting {}).inOrder = false := by decide +kernel
    have hdiagnostics : (Circuit.build paddedSetting {}).diagnostics paddedSetting =
        [⟨.meaning, "device 'A01' does not exist", ⟨1, 57⟩, paddedSetting⟩] := by decide +kernel
    rw [Circuit.load_eq, horder, if_neg Bool.false_ne_true, hdiagnostics]

end Description

end Breadboard
