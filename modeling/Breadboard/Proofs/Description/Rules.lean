import Breadboard.Proofs.Description.Depiction

/-!
# The rules of statements

What a statement does to a network it does to the schematic of the network. The network refuses it
exactly when the rule of the statement is broken, and otherwise the schematic after it depicts the
network after it (`Depicts.declare`, `Depicts.connect`, `Depicts.add`, and their converses
`Depicts.allowed_of_declare`, `Depicts.allowed_of_connect`, `Depicts.allowed_of_add`). Of the
inputs a device may be given, the rule (`Device.MayHave`) needs no schematic. What the network lacks
when a section ends, the schematic lacks.
-/

set_option autoImplicit false
set_option relaxedAutoImplicit false

namespace Breadboard

/-- Switches and clocks are the devices that take no inputs. -/
theorem Kind.isSource_iff (kind : Kind) : kind.isSource ↔ kind = .switch ∨ kind = .clock := by
  cases kind with
  | gate g => cases g <;> decide
  | _ => decide

namespace Device

/-- Whether a device may be given so many inputs. An AND, NAND, OR or NOR gate is given from one to
sixteen, once. An XOR or NOT gate may be told the number that it has. -/
def MayHave (d : Device) (count : Nat) : Prop :=
  match d.kind with
  | .gate .and | .gate .nand | .gate .or | .gate .nor => d.pins = [] ∧ 1 ≤ count ∧ count ≤ 16
  | .gate .xor => count = 2
  | .gate .not => count = 1
  | .switch | .clock | .flipFlop => False

theorem inputsRefusal?_eq_none_iff (d : Device) (count : Nat) :
    d.inputsRefusal? count = none ↔ d.MayHave count := by
  have hvariable : (if count = 0 then some DeclarationError.noInputs
      else if count > maxInputs then some .tooManyInputs
      else if d.pins.isEmpty then none else some .inputsGiven) = none ↔
        d.pins = [] ∧ 1 ≤ count ∧ count ≤ 16 := by
    rw [maxInputs]
    split_ifs with hzero hmany hpins
    · exact iff_of_false nofun fun hmay ↦ by omega
    · exact iff_of_false nofun fun hmay ↦ by omega
    · exact iff_of_true rfl ⟨List.isEmpty_iff.mp hpins, by omega, by omega⟩
    · exact iff_of_false nofun fun hmay ↦ hpins (List.isEmpty_iff.mpr hmay.1)
  unfold inputsRefusal? MayHave
  cases d.kind with
  | gate g =>
    cases g with
    | xor | not => simp [Gate.inputCount?]
    | _ => exact hvariable
  | _ => simp

end Device

namespace Description

/-- A device may be given the inputs that its part may be given. -/
theorem PartShown.inputsRefusal?_eq_none_iff {names : Names} {d : Device} {part : Part}
    (h : PartShown names d part) (count : Nat) :
    d.inputsRefusal? count = none ↔ part.MayHave count := by
  have hopen : d.pins = [] ↔ part.inlets = [] := by
    rw [← List.length_eq_zero_iff, h.inlets.length_eq, List.length_eq_zero_iff]
  rw [Device.inputsRefusal?_eq_none_iff, Device.MayHave, h.kind, Part.MayHave]
  cases part.component with
  | gate g =>
    cases g with
    | xor | not => rfl
    | _ => exact and_congr_left' hopen
  | _ => rfl

namespace Depicts

variable {settings : Settings} {names : Names} {n n' : Network} {m m' : Monitors}
  {s : Schematic} {id : NameId} {name : String} {d : Device}

/-! ### Declarations -/

theorem add_part (h : Depicts settings names n m s) (hname : names.string? id = some name)
    {kind : Kind} (hn : n.addDevice? id kind = some n') :
    Depicts settings names n' m { s with parts := s.parts ++ [Part.fresh name kind] } := by
  have hdistinct := Network.distinctNames_addDevice? h.distinct hn
  rw [Network.addDevice?] at hn
  split at hn
  · cases hn
  · obtain rfl := Option.some_inj.mp hn
    refine ⟨h.settings, h.ports, h.table, hdistinct, ?_, h.watched⟩
    have hfresh : PartShown names (Device.make n.ports id kind) (Part.fresh name kind) := by
      refine ⟨hname, by cases kind <;> rfl, ?_⟩
      rw [h.ports]
      exact pinsShown_open h.table (firstInputs_portTable kind)
    exact List.rel_append h.parts (.cons hfresh .nil)

/-- A gate that is told the number of inputs that it has stays as it is. -/
theorem keepInputs (h : Depicts settings names n m s) (hf : names.Faithful)
    (hname : names.string? id = some name) (hd : n.device? id = some d)
    (hfixed : d.kind.hasVariableInputs = false) {count : Nat}
    (hgive : ∀ part, PartShown names d part → part.give count = part) :
    Depicts settings names ((n.addInputs? id count).getD n) m
      (s.modify name (Part.give count)) := by
  have hnone : n.addInputs? id count = none := by
    rw [Network.addInputs?, hd, Option.bind_some, if_neg (by simp [hfixed])]
  have hsame : n.update id (fun d ↦ d) = n := Network.update_eq_self fun _ _ _ ↦ rfl
  rw [hnone, Option.getD_none, ← hsame]
  exact h.update hf hname hd (fun _ ↦ rfl) fun part hpart ↦ by rwa [hgive part hpart]

/-- A gate that has no inputs is given some. -/
theorem giveInputs (h : Depicts settings names n m s) (hf : names.Faithful)
    (hname : names.string? id = some name) (hd : n.device? id = some d)
    (hvariable : d.kind.hasVariableInputs) (hpins : d.pins = []) {count : Nat} (hpos : 1 ≤ count)
    (hle : count ≤ maxInputs) (hgive : ∀ part, PartShown names d part →
      part.give count = { part with inlets := openInlets (inputNames count) }) :
    Depicts settings names ((n.addInputs? id count).getD n) m
      (s.modify name (Part.give count)) := by
  have hsome : n.addInputs? id count =
      some (n.update id fun d ↦ { d with pins := openPins (n.ports.inputs.take count) }) := by
    rw [Network.addInputs?, hd, Option.bind_some, if_pos ⟨hvariable, hpins, hpos, hle⟩]
  rw [hsome, Option.getD_some, h.ports]
  refine h.update hf hname hd (fun _ ↦ rfl) fun part hpart ↦ ?_
  rw [hgive part hpart]
  exact ⟨hpart.name, hpart.element, pinsShown_open h.table (inputs_portTable count hle)⟩

/-- Inputs given to a gate that may be given so many. -/
theorem addInputs (h : Depicts settings names n m s) (hf : names.Faithful)
    (hname : names.string? id = some name) (hd : n.device? id = some d) {part : Part}
    (hshown : PartShown names d part) {count : Nat} (hmay : part.MayHave count) :
    Depicts settings names ((n.addInputs? id count).getD n) m
      (s.modify name (Part.give count)) := by
  have hother : ∀ other, PartShown names d other → other.component = part.component :=
    fun other hother ↦ Component.element_injective (hother.element.symm.trans hshown.element)
  have hkind := hshown.kind
  rw [Part.MayHave] at hmay
  cases hcomponent : part.component with
  | gate g =>
    rw [hcomponent] at hmay hkind hother
    cases g with
    | xor | not =>
      refine h.keepInputs hf hname hd (by rw [hkind]; rfl) fun other hpart ↦ ?_
      rw [Part.give, hother other hpart]
    | _ =>
      have hpins : d.pins = [] := by
        rw [← List.length_eq_zero_iff, hshown.inlets.length_eq, hmay.1, List.length_nil]
      refine h.giveInputs hf hname hd (by rw [hkind]; rfl) hpins hmay.2.1 hmay.2.2
        fun other hpart ↦ ?_
      rw [Part.give, hother other hpart]
  | _ =>
    rw [hcomponent] at hmay
    exact hmay.elim

/-- A statement about a device that breaks no rule is carried out. -/
theorem declare (h : Depicts settings names n m s) (hf : names.Faithful)
    (hname : names.string? id = some name) {clause : Clause}
    (hcycles : ∀ cycles, clause = .halfPeriod cycles → 1 ≤ cycles)
    (hallowed : (Act.declare clause).allowed s name) :
    ∃ n', n.declare id clause = .ok n' ∧
      Depicts settings names n' m ((Act.declare clause).after s name) := by
  cases clause with
  | define kind =>
    have hfresh : n.contains id = false := by
      rw [h.contains_eq hf hname, show s.part? name = none from hallowed, Option.isSome_none]
    have hadd : n.addDevice? id kind =
        some { n with devices := n.devices ++ [Device.make n.ports id kind] } := by
      rw [Network.addDevice?, hfresh]
      rfl
    exact ⟨_, by rw [Network.declare, hadd]; rfl, h.add_part hname hadd⟩
  | inputs count =>
    obtain ⟨part, hpart, hmay⟩ := hallowed
    obtain ⟨d, hd, hshown⟩ := h.exists_device hf hname hpart
    refine ⟨(n.addInputs? id count).getD n, ?_, h.addInputs hf hname hd hshown hmay⟩
    rw [Network.declare, hd]
    dsimp only
    rw [(hshown.inputsRefusal?_eq_none_iff count).mpr hmay]
  | halfPeriod cycles =>
    obtain ⟨part, hpart, hkind⟩ := hallowed
    obtain ⟨d, hd, hshown⟩ := h.exists_device hf hname hpart
    obtain ⟨before, helement⟩ := hshown.exists_clock hkind
    have hset : n.setHalfPeriod? id cycles =
        some (n.update id (Device.mapElement fun _ ↦ .clock cycles 0 Level.low)) := by
      rw [Network.setHalfPeriod?, if_neg (Nat.ne_of_gt (hcycles cycles rfl)), hd, Option.bind_some,
        helement]
    refine ⟨_, ?_, h.update hf hname hd (f := Device.mapElement fun _ ↦ .clock cycles 0 Level.low)
      (fun _ ↦ rfl) fun _ hpart ↦ ⟨hpart.name, rfl, hpart.inlets⟩⟩
    rw [Network.declare, Network.contains, hd, Option.isSome_some, if_pos rfl, hset]
    rfl
  | level level =>
    obtain ⟨part, hpart, hkind⟩ := hallowed
    obtain ⟨d, hd, hshown⟩ := h.exists_device hf hname hpart
    obtain ⟨before, helement⟩ := hshown.exists_switch hkind
    have hset : n.setSwitch? id level =
        some (n.update id (Device.mapElement fun _ ↦ .switch level)) := by
      rw [Network.setSwitch?, hd, Option.bind_some, helement]
    refine ⟨_, ?_, h.update hf hname hd (f := Device.mapElement fun _ ↦ .switch level)
      (fun _ ↦ rfl) fun _ hpart ↦ ⟨hpart.name, rfl, hpart.inlets⟩⟩
    rw [Network.declare, Network.contains, hd, Option.isSome_some, if_pos rfl, hset]
    rfl

/-- A statement about a device that is carried out breaks no rule. -/
theorem allowed_of_declare (h : Depicts settings names n m s) (hf : names.Faithful)
    (hname : names.string? id = some name) {clause : Clause}
    (hn : n.declare id clause = .ok n') : (Act.declare clause).allowed s name := by
  cases Network.declared_of_declare hn with
  | define hfresh =>
    have hcontains := h.contains_eq hf hname
    rw [Network.contains, hfresh, Option.isSome_none] at hcontains
    exact Option.isNone_iff_eq_none.mp (Option.isSome_eq_false_iff.mp hcontains.symm)
  | @inputs d count hd hrefusal =>
    obtain ⟨part, hpart, hshown⟩ := h.exists_part hf hname hd
    exact ⟨part, hpart, (hshown.inputsRefusal?_eq_none_iff count).mp hrefusal⟩
  | @halfPeriod d _ _ _ _ hd helement | @level d _ _ hd helement =>
    obtain ⟨part, hpart, hshown⟩ := h.exists_part hf hname hd
    refine ⟨part, hpart, ?_⟩
    rw [← hshown.kind, Device.kind, helement]
    rfl

/-! ### Connections -/

/-- A connection is refused when its rule is broken. -/
theorem connectionError?_eq_none_iff (h : Depicts settings names n m s) (hf : names.Faithful)
    (hs : s.Coherent) {source : Terminal} {target input : NameId} {link : Link}
    (hsource : Calls names source link.source) (htarget : names.string? target = some link.target)
    (hinput : names.string? input = some link.input) :
    n.connectionError? source target input = none ↔ Act.link.allowed s link := by
  have hfree {dst : Device} {part : Part} (hshown : PartShown names dst part) :
      (∃ pin, dst.pin? input = some pin ∧ pin.driver = none) ↔
        ∃ inlet, part.inlet? link.input = some inlet ∧ inlet.driver = none := by
    have hpin := hshown.pin? hf hinput
    generalize dst.pin? input = pin at hpin ⊢
    generalize part.inlet? link.input = inlet at hpin ⊢
    cases hpin with
    | none => simp
    | @some pin inlet hpin =>
      have hdriver := hpin.driver
      simp only [Option.some_inj, exists_eq_left']
      generalize pin.driver = driver at hdriver ⊢
      generalize inlet.driver = output at hdriver ⊢
      cases hdriver <;> simp
  constructor
  · intro hnone
    obtain ⟨src, dst, hsrc, hdst⟩ := Network.exists_of_connectionError? hnone
    obtain ⟨-, hpin, houtput⟩ := (Network.connectionError?_of_devices hsrc hdst).mp hnone
    obtain ⟨part, hpart, hshown⟩ := h.exists_part hf htarget hdst
    obtain ⟨inlet, hinlet, hdriver⟩ := (hfree hshown).mp hpin
    exact ⟨(h.hasOutput_iff hf hsource).mp ⟨src, hsrc, houtput⟩, part, inlet, hpart, hinlet,
      hdriver⟩
  · rintro ⟨houtput, part, inlet, hpart, hinlet, hdriver⟩
    obtain ⟨src, hsrc, houtput'⟩ := (h.hasOutput_iff hf hsource).mpr houtput
    obtain ⟨dst, hdst, hshown⟩ := h.exists_device hf htarget hpart
    refine (Network.connectionError?_of_devices hsrc hdst).mpr
      ⟨fun port hport ↦ ?_, (hfree hshown).mpr ⟨inlet, hinlet, hdriver⟩, houtput'⟩
    obtain ⟨origin, horigin, horiginOutput⟩ := houtput
    obtain ⟨src', hsrc', hshownOrigin⟩ := h.exists_device hf hsource.device horigin
    obtain rfl := Option.some_inj.mp (hsrc.symm.trans hsrc')
    obtain ⟨portName, hportName, hname⟩ := hsource.exists_port hport
    have hpin := hshownOrigin.pin? hf hname
    rw [hportName] at horiginOutput
    rw [Part.inlet?_of_hasOutput (hs.fits origin (Schematic.mem_of_part? horigin)).shaped
      horiginOutput] at hpin
    cases hpin' : src.pin? port with
    | none => rfl
    | some pin => rw [hpin'] at hpin; cases hpin

/-- A connection that breaks no rule is made. -/
theorem connect (h : Depicts settings names n m s) (hf : names.Faithful) (hs : s.Coherent)
    {source : Terminal} {target input : NameId} {link : Link}
    (hsource : Calls names source link.source) (htarget : names.string? target = some link.target)
    (hinput : names.string? input = some link.input) (hallowed : Act.link.allowed s link) :
    ∃ n', n.connect source target input = .ok n' ∧
      Depicts settings names n' m (Act.link.after s link) := by
  obtain ⟨-, part, -, hpart, -⟩ := id hallowed
  obtain ⟨d, hd, -⟩ := h.exists_device hf htarget hpart
  refine ⟨n.update target (Device.drive input source), ?_, h.update hf htarget hd (fun _ ↦ rfl) ?_⟩
  · rw [Network.connect, (h.connectionError?_eq_none_iff hf hs hsource htarget hinput).mpr hallowed]
  · intro part hshown
    refine ⟨hshown.name, hshown.element, ?_⟩
    refine List.forall₂_map_left_iff.mpr (List.forall₂_map_right_iff.mpr ?_)
    refine hshown.inlets.imp fun pin inlet hpin ↦ ?_
    have hsame := beq_of_names hf hinput hpin.port
    rw [Bool.eq_iff_iff, beq_iff_eq, beq_iff_eq] at hsame
    by_cases hport : pin.port = input
    · rw [if_pos hport, if_pos (hsame.mp hport)]
      exact ⟨hpin.port, .some hsource⟩
    · rwa [if_neg hport, if_neg (mt hsame.mpr hport)]

/-- A connection that is made breaks no rule. -/
theorem allowed_of_connect (h : Depicts settings names n m s) (hf : names.Faithful)
    (hs : s.Coherent) {source : Terminal} {target input : NameId} {link : Link}
    (hsource : Calls names source link.source) (htarget : names.string? target = some link.target)
    (hinput : names.string? input = some link.input)
    (hn : n.connect source target input = .ok n') : Act.link.allowed s link := by
  rw [← h.connectionError?_eq_none_iff hf hs hsource htarget hinput]
  rw [Network.connect] at hn
  split at hn
  · cases hn
  · assumption

/-! ### Watched outputs -/

theorem mem_outputs_iff (h : Depicts settings names n m s) (hf : names.Faithful) {t : Terminal}
    {output : OutputName} (hcalls : Calls names t output) : t ∈ m.outputs ↔ output ∈ s.watched := by
  have hunique : Relator.BiUnique (Calls names) :=
    ⟨fun _ _ _ ↦ Calls.terminal_unique hf, fun _ _ _ ↦ Calls.unique⟩
  exact List.rel_mem hunique hcalls
    (List.forall₂_map_left_iff.mpr (h.watched.imp fun _ _ hprobe ↦ hprobe.output))

/-- An output is watched on request when no rule is broken. -/
theorem add (h : Depicts settings names n m s) (hf : names.Faithful) {t : Terminal}
    {output : OutputName} (hcalls : Calls names t output) (hallowed : Act.mark.allowed s output) :
    ∃ m', m.add n t = .ok m' ∧ Depicts settings names n m' (Act.mark.after s output) := by
  obtain ⟨houtput, hnew⟩ := hallowed
  obtain ⟨d, hd, hport⟩ := (h.hasOutput_iff hf hcalls).mpr houtput
  refine ⟨⟨m.probes ++ [{ output := t }]⟩, ?_, h.settings, h.ports, h.table, h.distinct, h.parts,
    ?_⟩
  · have hsome : (d.output? n.ports t.port).isNone = false := by simpa using hport
    rw [Monitors.add_eq, hd]
    dsimp only
    rw [hsome, if_neg Bool.false_ne_true, if_neg ((h.mem_outputs_iff hf hcalls).not.mpr hnew)]
  · exact List.rel_append h.watched (.cons ⟨rfl, hcalls⟩ .nil)

/-- An output that is watched on request breaks no rule. -/
theorem allowed_of_add (h : Depicts settings names n m s) (hf : names.Faithful) {t : Terminal}
    {output : OutputName} (hcalls : Calls names t output) (hm : m.add n t = .ok m') :
    Act.mark.allowed s output := by
  rw [Monitors.add_eq] at hm
  split at hm
  · cases hm
  · next d hd =>
    split at hm
    · cases hm
    split at hm
    · cases hm
    next hsome hnew =>
    refine ⟨(h.hasOutput_iff hf hcalls).mp ⟨d, hd, ?_⟩, (h.mem_outputs_iff hf hcalls).not.mp hnew⟩
    exact Option.isSome_iff_ne_none.mpr (by simpa using hsome)

/-! ### What a section has to leave behind -/

theorem devicesWithoutInputs_eq_nil_iff (h : Depicts settings names n m s) :
    n.devicesWithoutInputs = [] ↔ s.HasInputs := by
  rw [Network.devicesWithoutInputs, List.map_eq_nil_iff, List.filter_eq_nil_iff,
    Schematic.HasInputs]
  refine forall₂_forall_iff h.parts fun d part hshown ↦ ?_
  have hempty : d.pins = [] ↔ part.inlets = [] := by
    rw [← List.length_eq_zero_iff, hshown.inlets.length_eq, List.length_eq_zero_iff]
  rw [Bool.and_eq_true, List.isEmpty_iff, Bool.not_eq_true', ← Bool.not_eq_true, hempty,
    hshown.kind, Kind.isSource_iff]
  tauto

theorem unconnected_eq_nil_iff (h : Depicts settings names n m s) :
    n.unconnected = [] ↔ s.IsConnected := by
  rw [Network.unconnected, List.flatMap_eq_nil_iff, Schematic.IsConnected]
  refine forall₂_forall_iff h.parts fun d part hshown ↦ ?_
  rw [List.map_eq_nil_iff, List.filter_eq_nil_iff]
  refine forall₂_forall_iff hshown.inlets fun pin inlet hpin ↦ ?_
  have hdriver := hpin.driver
  generalize pin.driver = driver at hdriver ⊢
  generalize inlet.driver = output at hdriver ⊢
  cases hdriver <;> simp

end Depicts

end Description

end Breadboard
