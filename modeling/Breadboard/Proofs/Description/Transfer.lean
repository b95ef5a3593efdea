import Breadboard.Proofs.Description.Renaming
import Breadboard.Proofs.Description.WellFormed
import Breadboard.Proofs.Network.Renumbering
import Breadboard.Proofs.Storage.Cells

/-!
# Circuits of renamed texts

Ports, devices and all other words that are met share one name table, and are numbered as they are
met. So with other names for its devices a text may lead to other numbers for everything but the
ports, which are in the table from the start; and a device that is called as a port has the number
of that port. But no two devices share a number in either table, so that one can be taken to the
other by an injective renumbering (`Renumbers`, `renumbers_renumbering`). A signal and the same
signal with its device renamed are then read as an output and the same output renumbered
(`Renumbers.queryTerminal_renamed`).

What a schematic depicts under the one table it depicts, with its parts renamed, under the other
when it is renumbered (`Depicts.renumbered`). Hence the circuit of a renamed text is the circuit of
the text, renumbered (`load_renamed`).
-/

set_option autoImplicit false
set_option relaxedAutoImplicit false

namespace Breadboard

open Description

/-- The names of the devices, in the order of their declaration. -/
def Circuit.deviceNames (c : Circuit) : List String :=
  c.network.devices.map fun d ↦ c.names.nameOf d.id

theorem Names.lt_size_of_string? {names : Names} {id : NameId} {name : String}
    (h : names.string? id = some name) : id < names.size :=
  (List.getElem?_eq_some_iff.mp (Names.string?_eq_some_iff.mp h)).1

namespace Description

variable {rename : String → String} {devices : List String} {number : NameId → NameId}
  {names names' : Names} {s : Schematic} {output : OutputName} {t : Terminal} {id : NameId}
  {name : String}

/-! ### Names of ports -/

/-- A name without a port, or with one of the fixed port names. -/
def OutputName.Ported (output : OutputName) : Prop :=
  ∀ port ∈ output.port, port ∈ Ports.allNames

theorem has_portTable_of_mem (h : name ∈ Ports.allNames) : portTable.2.Has name :=
  has_portTable_iff.mpr h

theorem Schematic.HasOutput.ported (h : s.HasOutput output) : output.Ported := by
  obtain ⟨part, -, hport⟩ := h
  intro port hmem
  rw [Option.mem_def] at hmem
  rw [hmem] at hport
  cases hcomponent : part.component with
  | flipFlop =>
    rw [hcomponent] at hport
    rcases hport with hport | hport
    · exact Option.some_inj.mp hport ▸ by decide
    · exact Option.some_inj.mp hport ▸ by decide
  | _ =>
    rw [hcomponent] at hport
    cases hport

theorem mem_allNames_of_shaped {part : Part} (h : part.Shaped) {inlet : Inlet}
    (hinlet : inlet ∈ part.inlets) : inlet.port ∈ Ports.allNames :=
  Schematic.forall_ports (p := fun ports ↦ ∀ port ∈ ports, port ∈ Ports.allNames) (by decide)
    (by decide) h inlet.port (List.mem_map_of_mem hinlet)

/-! ### Signals -/

/-- The name of an output as a signal. -/
def OutputName.signal : OutputName → String
  | ⟨device, none⟩ => device
  | ⟨device, some port⟩ => device ++ "." ++ port

/-- A signal with its device renamed. -/
def renamedSignal (rename : String → String) (signal : String) : String :=
  OutputName.signal ⟨rename (splitSignal signal).1, (splitSignal signal).2⟩

/-- A signal made of the name of a device and, perhaps, one of the fixed port names. -/
def IsSignal (devices : List String) (signal : String) : Prop :=
  ∃ output : OutputName, output.device ∈ devices ∧ output.Ported ∧ signal = output.signal

theorem dot_not_mem_of_isIdentifier (h : IsIdentifier name) : '.' ∉ name.toList := by
  intro hdot
  exact absurd (List.all_eq_true.mp h.alphanumeric '.' hdot) (by decide)

theorem splitSignal_signal (h : '.' ∉ output.device.toList) :
    splitSignal output.signal = (output.device, output.port) := by
  obtain ⟨device, port⟩ := output
  have hplain : ∀ c ∈ device.toList, decide (c ≠ '.') = true := by
    intro c hc
    exact decide_eq_true fun hdot ↦ h (hdot ▸ hc)
  cases port with
  | none =>
    rw [splitSignal, OutputName.signal, List.dropWhile_eq_nil_iff.mpr hplain]
  | some port =>
    have hchars : (device ++ "." ++ port).toList = device.toList ++ '.' :: port.toList := by
      rw [String.toList_append, String.toList_append, List.append_assoc]
      rfl
    rw [splitSignal, OutputName.signal, hchars, List.dropWhile_append_of_pos hplain,
      List.takeWhile_append_of_pos hplain, List.dropWhile_cons_of_neg (by decide),
      List.takeWhile_cons_of_neg (by decide), List.append_nil]
    exact congrArg₂ (fun device port ↦ (device, some port)) String.ofList_toList
      String.ofList_toList

theorem renamedSignal_signal (rename : String → String) (h : '.' ∉ output.device.toList) :
    renamedSignal rename output.signal = (output.renamed rename).signal := by
  rw [renamedSignal, splitSignal_signal h]
  rfl

/-! ### Renumberings between name tables -/

/-- An injective renumbering that takes the number of each device in one table to the number of its
new name in another. Both tables begin with the ports. -/
structure Renumbers (rename : String → String) (devices : List String) (number : NameId → NameId)
    (names names' : Names) : Prop where
  injective : Function.Injective number
  regular : Regular names
  regular' : Regular names'
  table : portTable.2.Extends names
  table' : portTable.2.Extends names'
  device : ∀ name ∈ devices, ∃ id,
    names.string? id = some name ∧ names'.string? (number id) = some (rename name)

/-- The renumbering that takes devices to their new names, and all other numbers past the end of the
table. -/
def renumbering (rename : String → String) (devices : List String) (names names' : Names)
    (id : NameId) : NameId :=
  (((names.string? id).filter (· ∈ devices)).bind fun name ↦ names'.query (rename name)).getD
    (names'.size + id)

theorem string?_renumbering (hnames' : names'.Faithful) (hdevice : name ∈ devices)
    (hname : names.string? id = some name) (hhas' : names'.Has (rename name)) :
    names'.string? (renumbering rename devices names names' id) = some (rename name) := by
  obtain ⟨id', hid'⟩ := hhas'
  have hquery := hnames'.query_eq_some_iff.mpr hid'
  rw [renumbering, hname, Option.filter_some, if_pos (decide_eq_true hdevice), Option.bind_some,
    hquery, Option.getD_some, hid']

theorem renumbering_of_not_device (h : ∀ name ∈ devices, names.string? id ≠ some name) :
    renumbering rename devices names names' id = names'.size + id := by
  have hnone : (names.string? id).filter (· ∈ devices) = none := by
    refine Option.filter_eq_none_iff.mpr fun name hname hmem ↦ ?_
    exact h name (of_decide_eq_true hmem) hname
  rw [renumbering, hnone, Option.bind_none, Option.getD_none]

/-- Where different devices have different new names, the renumbering keeps numbers apart. -/
theorem injective_renumbering (hnames : names.Faithful) (hnames' : names'.Faithful)
    (hinjective : ∀ name ∈ devices, ∀ other ∈ devices, rename name = rename other → name = other)
    (hhas' : ∀ name ∈ devices, names'.Has (rename name)) :
    Function.Injective (renumbering rename devices names names') := by
  -- the number of a device is in the table, any other is past its end
  have hapart {first second : NameId} {name : String} (hname : name ∈ devices)
      (hfirst : names.string? first = some name)
      (hsecond : ∀ name ∈ devices, names.string? second ≠ some name) :
      renumbering rename devices names names' first ≠
        renumbering rename devices names names' second := by
    intro hsame
    have hnew := string?_renumbering hnames' hname hfirst (hhas' name hname)
    rw [hsame, renumbering_of_not_device hsecond] at hnew
    exact absurd (Names.lt_size_of_string? hnew) (Nat.not_lt.mpr (Nat.le_add_right ..))
  intro first second hsame
  by_cases hfirst : ∃ name ∈ devices, names.string? first = some name
  · obtain ⟨old, hold, hfirst⟩ := hfirst
    by_cases hsecond : ∃ name ∈ devices, names.string? second = some name
    · obtain ⟨other, hother, hsecond⟩ := hsecond
      have hnew := string?_renumbering hnames' hold hfirst (hhas' old hold)
      rw [hsame, string?_renumbering hnames' hother hsecond (hhas' other hother)] at hnew
      obtain rfl := hinjective other hother old hold (Option.some_inj.mp hnew)
      exact hnames first second other hfirst hsecond
    · exact absurd hsame (hapart hold hfirst fun name hname h ↦ hsecond ⟨name, hname, h⟩)
  · have hfirst : ∀ name ∈ devices, names.string? first ≠ some name :=
      fun name hname h ↦ hfirst ⟨name, hname, h⟩
    by_cases hsecond : ∃ name ∈ devices, names.string? second = some name
    · obtain ⟨other, hother, hsecond⟩ := hsecond
      exact absurd hsame.symm (hapart hother hsecond hfirst)
    · have hsecond : ∀ name ∈ devices, names.string? second ≠ some name :=
        fun name hname h ↦ hsecond ⟨name, hname, h⟩
      rw [renumbering_of_not_device hfirst, renumbering_of_not_device hsecond] at hsame
      exact Nat.add_left_cancel hsame

/-- Two regular tables that begin with the ports and hold the devices, under their old and their new
names. -/
theorem renumbers_renumbering (hnames : Regular names) (hnames' : Regular names')
    (htable : portTable.2.Extends names) (htable' : portTable.2.Extends names')
    (hinjective : ∀ name ∈ devices, ∀ other ∈ devices, rename name = rename other → name = other)
    (hhas : ∀ name ∈ devices, names.Has name)
    (hhas' : ∀ name ∈ devices, names'.Has (rename name)) :
    Renumbers rename devices (renumbering rename devices names names') names names' where
  injective := injective_renumbering hnames.faithful hnames'.faithful hinjective hhas'
  regular := hnames
  regular' := hnames'
  table := htable
  table' := htable'
  device name hname := by
    obtain ⟨id, hid⟩ := hhas name hname
    exact ⟨id, hid, string?_renumbering hnames'.faithful hname hid (hhas' name hname)⟩

/-! ### What is looked up -/

namespace Renumbers

variable (h : Renumbers rename devices number names names')

include h

theorem exists_query_device (hname : name ∈ devices) :
    ∃ id, names.query name = some id ∧ names'.query (rename name) = some (number id) := by
  obtain ⟨id, hid, hnew⟩ := h.device name hname
  exact ⟨id, h.regular.faithful.query_eq_some_iff.mpr hid,
    h.regular'.faithful.query_eq_some_iff.mpr hnew⟩

theorem exists_query_port (hname : name ∈ Ports.allNames) :
    ∃ id, names.query name = some id ∧ names'.query name = some id := by
  obtain ⟨id, hid⟩ := has_portTable_of_mem hname
  exact ⟨id, h.regular.faithful.query_eq_some_iff.mpr (h.table.string? hid),
    h.regular'.faithful.query_eq_some_iff.mpr (h.table'.string? hid)⟩

theorem dot_not_mem (hname : name ∈ devices) :
    '.' ∉ name.toList ∧ '.' ∉ (rename name).toList := by
  obtain ⟨id, hid, hnew⟩ := h.device name hname
  exact ⟨dot_not_mem_of_isIdentifier (h.regular.identifiers name ⟨id, hid⟩),
    dot_not_mem_of_isIdentifier (h.regular'.identifiers (rename name) ⟨number id, hnew⟩)⟩

theorem queryTerminal_renamed {signal : String} (hsignal : IsSignal devices signal) :
    names'.queryTerminal (renamedSignal rename signal) =
      (names.queryTerminal signal).map (Terminal.renumbered number) := by
  obtain ⟨⟨device, port⟩, hdevice, hported, rfl⟩ := hsignal
  obtain ⟨hdot, hdot'⟩ := h.dot_not_mem hdevice
  obtain ⟨id, hquery, hquery'⟩ := h.exists_query_device hdevice
  have hsplit : splitSignal (OutputName.signal ⟨device, port⟩) = (device, port) :=
    splitSignal_signal hdot
  have hsplit' : splitSignal (OutputName.signal ⟨rename device, port⟩) = (rename device, port) :=
    splitSignal_signal hdot'
  rw [renamedSignal_signal rename hdot, OutputName.renamed, Names.queryTerminal, hsplit',
    Names.queryTerminal, hsplit]
  dsimp only
  rw [hquery, hquery', Option.bind_some, Option.bind_some]
  cases port with
  | none => rfl
  | some port =>
    obtain ⟨portId, hport, hport'⟩ := h.exists_query_port (hported port rfl)
    dsimp only
    rw [hport, hport']
    rfl

end Renumbers

/-! ### What stands in a network, under its new numbers -/

/-- Items of two lists that are related are related as items of the second. -/
theorem forall₂_mem_right {α β : Type} {R : α → β → Prop} {xs : List α} {ys : List β}
    (h : List.Forall₂ R xs ys) : List.Forall₂ (fun x y ↦ y ∈ ys ∧ R x y) xs ys :=
  ((List.forall₂_and_left ys xs).mpr ⟨fun _ hy ↦ hy, h.flip⟩).flip

namespace Renumbers

variable (h : Renumbers rename devices number names names')

include h

theorem string?_device (hname : name ∈ devices) (hid : names.string? id = some name) :
    names'.string? (number id) = some (rename name) := by
  obtain ⟨id', hid', hnew⟩ := h.device name hname
  rwa [h.regular.faithful id id' name hid hid']

/-- A port has the same number in both tables. -/
theorem string?_port (hname : name ∈ Ports.allNames) (hid : names.string? id = some name) :
    names'.string? id = some name := by
  obtain ⟨id', hid'⟩ := has_portTable_of_mem hname
  rw [h.regular.faithful id id' name hid (h.table.string? hid')]
  exact h.table'.string? hid'

theorem calls (hcalls : Calls names t output) (hdevice : output.device ∈ devices)
    (hported : output.Ported) : Calls names' (t.renumbered number) (output.renamed rename) := by
  refine ⟨h.string?_device hdevice hcalls.device, ?_⟩
  rw [Terminal.renumbered, OutputName.renamed]
  cases hport : t.port with
  | none =>
    rw [hcalls.port_eq_none_iff.mp hport]
    rfl
  | some port =>
    obtain ⟨name, hname, hstring⟩ := hcalls.exists_port hport
    rw [hname, Option.map_some, Option.map_some, h.string?_port (hported name hname) hstring]

theorem pinShown {pin : Pin} {inlet : Inlet} (hshown : PinShown names pin inlet)
    (hport : inlet.port ∈ Ports.allNames)
    (hdriver : ∀ output, inlet.driver = some output → output.device ∈ devices ∧ output.Ported) :
    PinShown names' (pin.renumbered number) (inlet.renamed rename) := by
  refine ⟨h.string?_port hport hshown.port, ?_⟩
  have hrel := hshown.driver
  rw [Pin.renumbered, Inlet.renamed]
  generalize pin.driver = driver at hrel ⊢
  generalize inlet.driver = output at hrel hdriver ⊢
  cases hrel with
  | none => exact .none
  | some hcalls => exact .some (h.calls hcalls (hdriver _ rfl).1 (hdriver _ rfl).2)

theorem partShown {d : Device} {part : Part} (hshown : PartShown names d part)
    (hfits : part.Fits s) (hpart : part.name ∈ devices) (hs : ∀ name ∈ s.names, name ∈ devices) :
    PartShown names' (d.renumbered number) (part.renamed rename) := by
  refine ⟨h.string?_device hpart hshown.name, hshown.element, ?_⟩
  refine List.forall₂_map_left_iff.mpr (List.forall₂_map_right_iff.mpr ?_)
  refine (forall₂_mem_right hshown.inlets).imp ?_
  rintro pin inlet ⟨hinlet, hpin⟩
  refine h.pinShown hpin (mem_allNames_of_shaped hfits.shaped hinlet) fun output hdriver ↦ ?_
  have hthere := hfits.driven inlet hinlet output hdriver
  exact ⟨hs _ hthere.mem_names, hthere.ported⟩

end Renumbers

/-- What a coherent schematic depicts, under another table. -/
theorem Depicts.renumbered {settings : Settings} {n : Network} {m : Monitors}
    (hdepicts : Depicts settings names n m s) (hs : s.Coherent)
    (h : Renumbers rename s.names number names names') :
    Depicts settings names' (n.renumbered number) (m.renumbered number) (s.renamed rename) where
  settings := hdepicts.settings
  ports := hdepicts.ports
  table := h.table'
  distinct := by
    have hids := List.Nodup.map h.injective hdepicts.distinct
    rw [List.map_map] at hids
    rw [Network.DistinctNames, Network.renumbered, List.map_map]
    exact hids
  parts := by
    refine List.forall₂_map_left_iff.mpr (List.forall₂_map_right_iff.mpr ?_)
    refine (forall₂_mem_right hdepicts.parts).imp ?_
    rintro d part ⟨hpart, hshown⟩
    exact h.partShown hshown (hs.fits part hpart) (List.mem_map_of_mem hpart) fun _ hname ↦ hname
  watched := by
    refine List.forall₂_map_left_iff.mpr (List.forall₂_map_right_iff.mpr ?_)
    refine (forall₂_mem_right hdepicts.watched).imp ?_
    rintro probe output ⟨houtput, hshown⟩
    have hthere := hs.there output houtput
    exact ⟨hshown.history, h.calls hshown.output hthere.mem_names hthere.ported⟩

/-! ### Circuits -/

theorem Depicts.has_of_mem_names {settings : Settings} {n : Network} {m : Monitors}
    (h : Depicts settings names n m s) (hname : name ∈ s.names) : names.Has name := by
  obtain ⟨part, hpart, rfl⟩ := List.mem_map.mp hname
  obtain ⟨d, -, hshown⟩ := exists_of_mem_right h.parts hpart
  exact ⟨d.id, hshown.name⟩

theorem names_renamed (rename : String → String) (s : Schematic) :
    (s.renamed rename).names = s.names.map rename := by
  rw [Schematic.names, Schematic.renamed, List.map_map, Schematic.names, List.map_map]
  rfl

theorem Realizes.names_eq {settings : Settings} {c : Circuit} (h : Realizes settings c s) :
    s.names = c.deviceNames := by
  rw [← h.schematic_eq, Schematic.names, Circuit.schematic, List.map_map]
  rfl

/-- What a device puts out can be called by the name of the device, and a port. -/
theorem Realizes.exists_calls {settings : Settings} {c : Circuit} (h : Realizes settings c s)
    (hthere : (c.network.output? t).isSome) :
    ∃ output, Calls c.names t output ∧ output.device ∈ c.deviceNames ∧ output.Ported := by
  obtain ⟨d, hd, houtput⟩ := Network.isSome_output?_iff_exists.mp hthere
  obtain ⟨part, hpart, hshown⟩ := h.exists_part (Network.mem_of_device? hd)
  have hname : c.names.string? t.device = some part.name := Network.id_of_device? hd ▸ hshown.name
  have hdevice : part.name ∈ c.deviceNames := h.names_eq ▸ List.mem_map_of_mem hpart
  obtain ⟨n, hnetwork, hdepicts⟩ := h
  have hports : c.network.ports = portTable.1 := by
    rw [hnetwork, ← (Network.alike_powerOn hdepicts.distinct).ports, hdepicts.ports]
  obtain ⟨hq, hqbar⟩ := string?_portTable c.names hdepicts.table
  rw [hports, isSome_output?_iff] at houtput
  -- a flip-flop has two outputs with ports, and all other devices have one without
  have hwithout (hport : t.port = none) :
      ∃ output, Calls c.names t output ∧ output.device ∈ c.deviceNames ∧ output.Ported :=
    ⟨⟨part.name, none⟩, ⟨hname, by rw [hport]; rfl⟩, hdevice, nofun⟩
  have hwith {port : NameId} {portName : String} (hport : t.port = some port)
      (hportName : c.names.string? port = some portName) (hmem : portName ∈ Ports.allNames) :
      ∃ output, Calls c.names t output ∧ output.device ∈ c.deviceNames ∧ output.Ported := by
    refine ⟨⟨part.name, some portName⟩, ⟨hname, ?_⟩, hdevice, fun other hother ↦ ?_⟩
    · rw [hport]
      exact congrArg some hportName
    · exact Option.some_inj.mp hother ▸ hmem
  cases hkind : d.kind with
  | flipFlop =>
    rw [hkind] at houtput
    rcases houtput with hport | hport
    · exact hwith hport hq (by decide)
    · exact hwith hport hqbar (by decide)
  | _ =>
    rw [hkind] at houtput
    exact hwithout houtput

/-- A circuit is another one with its devices renamed, under other numbers. -/
structure Relabels (rename : String → String) (number : NameId → NameId) (c c' : Circuit) :
    Prop where
  devices : c'.deviceNames = c.deviceNames.map rename
  tables : Renumbers rename c.deviceNames number c.names c'.names
  network : c'.network = c.network.renumbered number
  monitors : c'.monitors = c.monitors.renumbered number
  called : ∀ t, (c.network.output? t).isSome →
    c'.names.outputName (t.renumbered number) = (c.names.outputName t).renamed rename

/-- Assumes: a text without ranges that is accepted, and new names for its devices, all different
and all identifiers. The renamed text is accepted, and its circuit is the circuit of the text, with
its devices renamed. -/
theorem load_renamed {text : String} {settings : Settings} {c : Circuit}
    (hload : Circuit.load text settings = .ok c) (hfree : RangeFree text)
    (hinjective : ∀ name ∈ c.deviceNames, ∀ other ∈ c.deviceNames,
      rename name = rename other → name = other)
    (hidentifiers : ∀ name ∈ c.deviceNames, IsIdentifier (rename name)) :
    ∃ c', Circuit.load (renamed rename text) settings = .ok c' ∧
      ∃ number, Relabels rename number c c' := by
  obtain ⟨s, hdenotes⟩ := denotes_of_load hload
  obtain ⟨other, hother, hrealizes, hregular, hcoherent⟩ := load_of_denotes hdenotes settings
  obtain rfl : other = c := Except.ok.inj (hother.symm.trans hload)
  rw [← hrealizes.names_eq] at hinjective hidentifiers
  obtain ⟨c', hload', hrealizes', hregular', -⟩ :=
    load_of_denotes (hdenotes.renamed hfree hinjective hidentifiers) settings
  obtain ⟨n, hnetwork, hdepicts⟩ := id hrealizes
  obtain ⟨n', hnetwork', hdepicts'⟩ := id hrealizes'
  have hrenumbers := renumbers_renumbering hregular hregular' hdepicts.table hdepicts'.table
    hinjective (fun name hname ↦ hdepicts.has_of_mem_names hname) fun name hname ↦
      hdepicts'.has_of_mem_names (names_renamed rename s ▸ List.mem_map_of_mem hname)
  -- the renamed schematic depicts both the network of the renamed text and the renumbered one
  obtain ⟨hn, hm⟩ :=
    Depicts.unique hregular'.faithful hdepicts' (hdepicts.renumbered hcoherent hrenumbers)
  refine ⟨c', hload', _, ?_, hrealizes.names_eq ▸ hrenumbers, ?_, hm, fun t hthere ↦ ?_⟩
  · rw [← hrealizes'.names_eq, names_renamed, hrealizes.names_eq]
  · rw [hnetwork', hn, hnetwork, Network.renumbered_powerOn hrenumbers.injective]
  · obtain ⟨output, hcalls, hdevice, hported⟩ := hrealizes.exists_calls hthere
    rw [hcalls.outputName_eq]
    exact (hrenumbers.calls hcalls (hrealizes.names_eq ▸ hdevice) hported).outputName_eq

end Description

end Breadboard
