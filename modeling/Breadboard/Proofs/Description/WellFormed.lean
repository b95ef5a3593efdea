import Breadboard.Proofs.Description.Acceptance
import Breadboard.Proofs.Description.Checks
import Breadboard.Proofs.Description.Rendering

/-!
# Loaded circuits are well formed

Nothing about a loaded circuit is left open: gates have the inputs of their kinds, every input is
driven by an output that is there, clocks stand at zero, and everything goes by a name that can be
written (`Circuit.WellFormed`). The schematic that the circuit realizes says most of this, and what
the ends of sections vouch for says the rest. The latter holds of any description about which
nothing is filed, whatever tables it is read into (`accepted_wellFormed`).
-/

set_option autoImplicit false
set_option relaxedAutoImplicit false

namespace Breadboard

open Description

@[simp]
theorem Element.kind_maskPower (element : Element) : element.maskPower.kind = element.kind := by
  cases element <;> rfl

theorem Element.maskPower_eq_clock {element : Element} {halfPeriod counter : Nat} {level : Level}
    (h : element = .clock halfPeriod counter level) :
    element.maskPower = .clock halfPeriod counter level := by
  rw [h]
  rfl

theorem Device.outputs_ne_nil (d : Device) (ports : Ports) : d.outputs ports ≠ [] := by
  rw [Device.outputs]
  split
  · exact List.cons_ne_nil _ _
  · exact List.cons_ne_nil _ _
  · exact List.cons_ne_nil _ _
  · split
    · exact List.cons_ne_nil _ _
    · exact List.cons_ne_nil _ _

/-- A circuit about which nothing is left open. -/
structure Circuit.WellFormed (c : Circuit) : Prop where
  /-- Every device has outputs. -/
  outputs : ∀ d ∈ c.network.devices, d.outputs c.network.ports ≠ []
  /-- Every device that is no switch and no clock has inputs. -/
  inputs : ∀ d ∈ c.network.devices, d.kind ≠ .switch → d.kind ≠ .clock → d.pins ≠ []
  /-- Every input is driven by an output of a device that is there. -/
  driven : ∀ d ∈ c.network.devices, ∀ pin ∈ d.pins,
    ∃ t, pin.driver = some t ∧ (c.network.output? t).isSome
  connected : c.network.isConnected = true
  /-- The inputs of an AND, NAND, OR or NOR gate are `I1` up to at most `I16`. -/
  gates : ∀ d ∈ c.network.devices, ∀ g ∈ [Gate.and, .nand, .or, .nor], d.kind = .gate g →
    ∃ count, 1 ≤ count ∧ count ≤ 16 ∧
      d.pins.map (fun pin ↦ c.names.string? pin.port) = (inputNames count).map some
  clocks : ∀ d ∈ c.network.devices, ∀ halfPeriod counter level,
    d.element = .clock halfPeriod counter level → 1 ≤ halfPeriod ∧ counter = 0 ∧ level = Level.low
  /-- No output is watched twice. -/
  once : c.monitors.outputs.Nodup
  /-- Watched outputs are there, and nothing is recorded. -/
  watched : ∀ probe ∈ c.monitors.probes,
    (c.network.output? probe.output).isSome ∧ probe.history = #[]
  named : ∀ d ∈ c.network.devices, ∃ name, c.names.string? d.id = some name ∧ IsIdentifier name

namespace Description

variable {settings : Settings} {text : String} {c : Circuit} {s : Schematic} {d : Device}

/-! ### What a circuit has from its schematic -/

/-- Every device of a circuit is one of the parts that the circuit realizes. -/
theorem Realizes.exists_part (h : Realizes settings c s) (hd : d ∈ c.network.devices) :
    ∃ part ∈ s.parts, PartShown c.names (d.mapElement Element.maskPower) part := by
  obtain ⟨n, hnetwork, hdepicts⟩ := h
  have halike := Network.alike_powerOn hdepicts.distinct
  have hmem := List.mem_map_of_mem (f := Device.mapElement Element.maskPower) hd
  rw [hnetwork, ← halike.devices] at hmem
  obtain ⟨e, he, hsame⟩ := List.mem_map.mp hmem
  obtain ⟨part, hpart, hshown⟩ := exists_of_mem_right hdepicts.parts.flip he
  refine ⟨part, hpart, hsame ▸ ⟨hshown.name, ?_, hshown.inlets⟩⟩
  rw [Device.mapElement, hshown.element, Element.maskPower_element]

/-- An output of the schematic is an output of the circuit. -/
theorem Realizes.isSome_output? (h : Realizes settings c s) (hnames : c.names.Faithful)
    {t : Terminal} {output : OutputName} (hcalls : Calls c.names t output)
    (houtput : s.HasOutput output) : (c.network.output? t).isSome := by
  obtain ⟨n, hnetwork, hdepicts⟩ := h
  rw [hnetwork]
  have hthere := (hdepicts.hasOutput_iff hnames hcalls).mpr houtput
  exact ((Network.alike_powerOn hdepicts.distinct).sameWiring Element.kind_maskPower).isSome_output?
    (Network.isSome_output?_iff_exists.mpr hthere)

theorem PartShown.exists_calls {names : Names} {part : Part} (h : PartShown names d part)
    (hconnected : ∀ inlet ∈ part.inlets, inlet.driver ≠ none) {pin : Pin} (hpin : pin ∈ d.pins) :
    ∃ inlet ∈ part.inlets, ∃ t output, pin.driver = some t ∧ inlet.driver = some output ∧
      Calls names t output := by
  obtain ⟨inlet, hinlet, hshown⟩ := exists_of_mem_right h.inlets.flip hpin
  obtain ⟨output, houtput⟩ := Option.ne_none_iff_exists'.mp (hconnected inlet hinlet)
  obtain ⟨t, ht, hcalls⟩ := exists_of_rel_right (houtput ▸ hshown.driver)
  exact ⟨inlet, hinlet, t, output, ht, houtput, hcalls⟩

theorem PartShown.map_ports {names : Names} {part : Part} (h : PartShown names d part) :
    d.pins.map (fun pin ↦ names.string? pin.port) = part.ports.map some := by
  rw [Part.ports, List.map_map, ← List.forall₂_eq_eq_eq]
  exact List.forall₂_map_left_iff.mpr
    (List.forall₂_map_right_iff.mpr (h.inlets.imp fun _ _ hpin ↦ hpin.port))

theorem PartShown.kind_eq {names : Names} {part : Part}
    (h : PartShown names (d.mapElement Element.maskPower) part) : d.kind = part.component.kind := by
  rw [← h.kind, Device.kind, Device.kind, Device.mapElement, Element.kind_maskPower]

/-- An AND, NAND, OR or NOR gate that has inputs has from one to sixteen of them. -/
theorem Part.Shaped.ports_eq {part : Part} (h : part.Shaped) {g : Gate}
    (hg : g ∈ [Gate.and, .nand, .or, .nor]) (hkind : part.component.kind = .gate g)
    (hinlets : part.inlets ≠ []) :
    ∃ count, 1 ≤ count ∧ count ≤ 16 ∧ part.ports = inputNames count := by
  have hports : part.ports ≠ [] := fun hnil ↦ hinlets (List.map_eq_nil_iff.mp hnil)
  rw [Part.Shaped, hkind] at h
  cases g with
  | xor | not => exact absurd hg (by decide)
  | _ => exact h.resolve_left hports

theorem Realizes.exists_driver (h : Realizes settings c s) (hnames : c.names.Faithful)
    (hs : s.Coherent) (hconnected : s.IsConnected) (hd : d ∈ c.network.devices) :
    ∀ pin ∈ d.pins, ∃ t, pin.driver = some t ∧ (c.network.output? t).isSome := by
  intro pin hpin
  obtain ⟨part, hpart, hshown⟩ := h.exists_part hd
  obtain ⟨inlet, hinlet, t, output, ht, houtput, hcalls⟩ :=
    hshown.exists_calls (hconnected part hpart) hpin
  exact ⟨t, ht, h.isSome_output? hnames hcalls
    ((hs.fits part hpart).driven inlet hinlet output houtput)⟩

theorem Realizes.pins_ne_nil (h : Realizes settings c s) (hinputs : s.HasInputs)
    (hd : d ∈ c.network.devices) (hswitch : d.kind ≠ .switch) (hclock : d.kind ≠ .clock) :
    d.pins ≠ [] := by
  intro hpins
  obtain ⟨part, hpart, hshown⟩ := h.exists_part hd
  rw [hshown.kind_eq] at hswitch hclock
  have hinlets := hshown.inlets
  rw [Device.mapElement, hpins, List.forall₂_nil_left_iff] at hinlets
  exact hinputs part hpart hswitch hclock hinlets

theorem Realizes.clock_at_zero (h : Realizes settings c s) (hs : s.Coherent)
    (hd : d ∈ c.network.devices) {halfPeriod counter : Nat} {level : Level}
    (helement : d.element = .clock halfPeriod counter level) :
    1 ≤ halfPeriod ∧ counter = 0 ∧ level = Level.low := by
  obtain ⟨part, hpart, hshown⟩ := h.exists_part hd
  have hclock := (hs.fits part hpart).clock
  have hsame : Element.clock halfPeriod counter level = part.component.element := by
    rw [← hshown.element, Device.mapElement, Element.maskPower_eq_clock helement]
  cases hcomponent : part.component with
  | clock cycles =>
    rw [hcomponent] at hsame
    obtain ⟨rfl, rfl, rfl⟩ := Element.clock.inj hsame
    exact ⟨hclock halfPeriod hcomponent, rfl, rfl⟩
  | _ =>
    rw [hcomponent] at hsame
    cases hsame

/-- A circuit that realizes a schematic that makes sense, with nothing missing, is well formed. -/
theorem Realizes.wellFormed (h : Realizes settings c s) (hnames : Regular c.names)
    (hs : s.Coherent) (hinputs : s.HasInputs) (hconnected : s.IsConnected) : c.WellFormed := by
  have hdriven : ∀ d ∈ c.network.devices, ∀ pin ∈ d.pins,
      ∃ t, pin.driver = some t ∧ (c.network.output? t).isSome :=
    fun _ ↦ h.exists_driver hnames.faithful hs hconnected
  exact {
    outputs := fun d _ ↦ d.outputs_ne_nil _
    inputs := fun _ ↦ h.pins_ne_nil hinputs
    driven := hdriven
    connected := by
      refine List.isEmpty_iff.mpr (Network.unconnected_eq_nil_iff.mpr fun d hd pin hpin ↦ ?_)
      obtain ⟨t, ht, -⟩ := hdriven d hd pin hpin
      exact ht ▸ Option.some_ne_none t
    gates := by
      intro d hd g hg hkind
      obtain ⟨part, hpart, hshown⟩ := h.exists_part hd
      rw [hshown.kind_eq] at hkind
      have hinlets := hinputs part hpart (hkind ▸ nofun) (hkind ▸ nofun)
      obtain ⟨count, hpos, hle, hports⟩ := (hs.fits part hpart).shaped.ports_eq hg hkind hinlets
      exact ⟨count, hpos, hle, hports ▸ hshown.map_ports⟩
    clocks := fun _ hd _ _ _ ↦ h.clock_at_zero hs hd
    once := by
      have hwatched : c.monitors.outputs.map c.names.outputName = s.watched :=
        congrArg Schematic.watched h.schematic_eq
      exact List.Nodup.of_map _ (hwatched ▸ hs.once)
    watched := by
      intro probe hprobe
      have ⟨n, _, hdepicts⟩ := h
      obtain ⟨output, houtput, hshown⟩ := exists_of_mem_right hdepicts.watched.flip hprobe
      exact ⟨h.isSome_output? hnames.faithful hshown.output (hs.there output houtput),
        hshown.history⟩
    named := by
      intro d hd
      obtain ⟨part, -, hshown⟩ := h.exists_part hd
      exact ⟨part.name, hshown.name, hnames.identifiers _ ⟨d.id, hshown.name⟩⟩ }

/-! ### What is accepted -/

theorem vouched_start (names : Names) (network : Network) (monitors : Monitors) (text : String) :
    Vouched (Builder.start names network monitors text) :=
  ⟨nofun, nofun, nofun⟩

/-- A circuit that loads is well formed. And whatever tables a description is read into, if nothing
is filed about it, every input of the network is driven and no gate lacks inputs.

Assumes: nothing is filed about the description. -/
theorem accepted_wellFormed :
    (∀ text settings c, Circuit.load text settings = .ok c → c.WellFormed) ∧
      ∀ names network monitors text,
        (Builder.start names network monitors text).parse.inOrder = true →
          (Builder.start names network monitors text).parse.network.isConnected = true ∧
            ∀ d ∈ (Builder.start names network monitors text).parse.network.devices,
              d.kind.isSource = false → d.pins ≠ [] := by
  constructor
  · intro text settings c hload
    obtain ⟨hquiet, rfl⟩ := load_eq_ok_iff.mp hload
    obtain ⟨d, -, hshows⟩ := denotes_of_quiet hquiet
    obtain ⟨hinputs, hdrivers⟩ := checked_parse (vouched_start ..) hquiet
    exact Realizes.wellFormed ⟨_, rfl, hshows.depicts⟩ hshows.ready.names hshows.coherent
      (hshows.depicts.devicesWithoutInputs_eq_nil_iff.mp hinputs)
      (hshows.depicts.unconnected_eq_nil_iff.mp hdrivers)
  · intro names network monitors text hquiet
    obtain ⟨hinputs, hdrivers⟩ := checked_parse (vouched_start names network monitors text)
      (List.isEmpty_iff.mp hquiet)
    refine ⟨List.isEmpty_iff.mpr hdrivers, fun d hd hkind ↦ ?_⟩
    exact (Network.devicesWithoutInputs_eq_nil_iff.mp hinputs d hd).resolve_left
      (hkind ▸ Bool.false_ne_true)

/-- A circuit with feedback and misleading names is well formed once it loads. -/
theorem namesakes_wellFormed : ∃ c, Circuit.load namesakes.render = .ok c ∧ c.WellFormed ∧
    (Circuit.build namesakes.render {}).inOrder = true ∧
      (Circuit.build namesakes.render {}).network.isConnected = true ∧
        ∀ d ∈ (Circuit.build namesakes.render {}).network.devices,
          d.kind.isSource = false → d.pins ≠ [] := by
  obtain ⟨hload, hparse⟩ := accepted_wellFormed
  obtain ⟨c, hc, -⟩ := load_of_denotes (denotes_render complete_namesakes) {}
  have horder : (Circuit.build namesakes.render {}).inOrder = true :=
    List.isEmpty_iff.mpr (load_eq_ok_iff.mp hc).1
  exact ⟨c, hc, hload _ _ c hc, horder, hparse portTable.2 _ _ _ horder⟩

end Description

end Breadboard
