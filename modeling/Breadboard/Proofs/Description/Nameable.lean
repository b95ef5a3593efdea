import Breadboard.Proofs.Description.Arrival
import Breadboard.Proofs.Description.HalfPeriods
import Breadboard.Proofs.Description.Partition
import Breadboard.Proofs.Description.Shorthand

/-!
# Everything has a name

While a description is read, names are given out and asked for. None that is wanted is refused: a
word that is read as a name is one (`Scanner.answer_ne_refused`), and so is every name of a range
that starts with it (`lookupAll_of_range`). And none that is asked for is missing, for a builder has
names for all its devices and ports (`Builder.Named`), and what a statement demands has names too
(`Demand.Named`), whatever is wrong with the description.
-/

set_option autoImplicit false
set_option relaxedAutoImplicit false

namespace Breadboard.Description

variable {text : String} {r s : Reader} {names more : Names} {id : NameId} {b c : Builder}
  {demand : Demand} {demands : List Demand} {form : Form}

/-! ### Names that are taken -/

/-- No word of a text is refused as a name, whatever the name table and the modes. -/
theorem Scanner.answer_ne_refused (text : String) (names : Names) (modes : Nat → NameMode) (n : Nat)
    (refusal : InvalidName) (position : Text.Position) :
    Scanner.answer ⟨.start text, names⟩ modes n ≠ .refused refusal position := by
  rw [answer_eq]
  exact nofun

theorem lookupAll_of_isName {list : List String} (h : ∀ name ∈ list, IsName name) (names : Names) :
    names.lookupAll list = (.ok (names.internAll list).1, (names.internAll list).2) := by
  induction list generalizing names with
  | nil => rfl
  | cons name list ih =>
    obtain ⟨hname, hlist⟩ := List.forall_mem_cons.mp h
    rw [Names.lookupAll, Names.lookup_of_isName hname, Names.internAll]
    dsimp only
    rw [ih hlist]
    rfl

theorem resolveAll_declare (list : List String) (names : Names) :
    names.resolveAll .declare list = (.ok (names.internAll list).1, (names.internAll list).2) := by
  induction list generalizing names with
  | nil => rfl
  | cons name list ih =>
    rw [Names.resolveAll, Names.resolve, Names.internAll]
    dsimp only
    rw [ih]
    rfl

/-- The names of a range that starts with a name of a text are taken one and all, and get the
numbers that they get as names to be declared. -/
theorem lookupAll_of_range {first : Token} {last : String} {list : List String}
    (hfirst : .token first ∈ (Cursor.start text).readings.1) (hname : first.lexeme = .name)
    (hlist : expandRange first.text last = .ok list) (names : Names) :
    ∃ ids more, names.lookupAll list = (.ok ids, more) ∧
      names.resolveAll .declare list = (.ok ids, more) := by
  have hidentifier := (Cursor.proper_of_mem_readings _ hfirst).identifier hname
  refine ⟨_, _, lookupAll_of_isName (fun name hmem ↦ ?_) names, resolveAll_declare list names⟩
  exact (isIdentifier_of_mem_range hidentifier hlist hmem).isName

/-! ### Numbers that are read -/

/-- A number of a text is not too large, whatever else there is in the text. -/
theorem number_le_of_mem_readings {token : Token} {value : Nat}
    (h : .token token ∈ (Cursor.start text).readings.1) (hlexeme : token.lexeme = .number value) :
    value ≤ 2 ^ 32 - 1 := by
  obtain ⟨written, after, -, hpiece⟩ := Cursor.spells_of_mem_readings h
  rw [hlexeme] at hpiece
  cases hpiece with
  | number _ hle => exact hle
  | sign hsign => simp [signs] at hsign

namespace Reader

theorem symbols_pull_subset (r : Reader) (readings : List Reading) :
    (r.pull readings).symbols ⊆ readings.filterMap Reading.symbol? := by
  fun_induction pull r readings with
  | case1 r => exact List.Subset.refl _
  | case2 r token rest =>
    rw [symbols]
    split
    · exact List.nil_subset _
    · exact List.Subset.refl _
  | case3 r fault position rest ih => exact ih

/-- Reading on, there is nothing in front of a reader but what was there before. -/
theorem lasting_symbols (list : List Symbol) : Lasting fun r ↦ r.symbols ⊆ list where
  advance {r} h := by
    rw [Reader.advance]
    split
    · exact h
    · next hend =>
      have hbefore : r.symbols = r.current.symbol :: r.rest.filterMap Reading.symbol? := if_neg hend
      rw [hbefore] at h
      exact List.Subset.trans (r.symbols_pull_subset r.rest) fun symbol hsymbol ↦
        h (List.mem_cons_of_mem _ hsymbol)
  file _ _ h := h
  resolve _ h := h
  inMode _ h := h

/-- A reader in good order: what is in front of it can be read, and no number there is too
large. -/
structure Sound (r : Reader) : Prop where
  legible : r.Legible
  numbers : ∀ value, .sign (.number value) ∈ r.symbols → value ≤ 2 ^ 32 - 1

theorem Sound.reach (h : r.Sound) (hreach : r.Reaches s) (hs : s.Legible) : s.Sound where
  legible := hs
  numbers value hvalue :=
    h.numbers value ((lasting_symbols r.symbols).reaches hreach (List.Subset.refl _) hvalue)

theorem sound_start {names : Names} (hnames : Regular names) (text : String) :
    (start names text).Sound where
  legible := legible_start hnames text
  numbers value hvalue := by
    obtain ⟨reading, hreading, hsymbol⟩ :=
      List.mem_filterMap.mp (symbols_pull_subset _ _ hvalue)
    cases reading with
    | fault => cases hsymbol
    | token token =>
      exact number_le_of_mem_readings hreading
        (congrArg Symbol.lexeme (Option.some_inj.mp hsymbol))

end Reader

/-! ### Demands of what has a name -/

theorem isSome_string?_of_extends (h : names.Extends more) (hid : (names.string? id).isSome) :
    (more.string? id).isSome := by
  obtain ⟨name, hname⟩ := Option.isSome_iff_exists.mp hid
  exact Option.isSome_of_eq_some (h.string? hname)

/-- An output has a name if its device has one, and its port if there is one. -/
def Labels (names : Names) (output : Terminal) : Prop :=
  (names.string? output.device).isSome ∧
    ∀ port, output.port = some port → (names.string? port).isSome

theorem Calls.labels {output : Terminal} {name : OutputName} (h : Calls names output name) :
    Labels names output := by
  refine ⟨Option.isSome_of_eq_some h.device, fun port hport ↦ ?_⟩
  obtain ⟨_, -, hname⟩ := h.exists_port hport
  exact Option.isSome_of_eq_some hname

/-- What is demanded has a name, and a half-period that is demanded fits a machine word and is at
least one cycle. -/
def Demand.Named (names : Names) : Demand → Prop
  | declare clause target => (names.string? target.id).isSome ∧
    ∀ cycles, clause = .halfPeriod cycles → 1 ≤ cycles ∧ cycles ≤ 2 ^ 32 - 1
  | connect block connection => (names.string? block).isSome ∧
    Labels names connection.source.terminal ∧ (names.string? connection.input).isSome
  | watch output => Labels names output.terminal

theorem Demand.Named.paced (h : demand.Named names) : demand.Paced := by
  cases demand with
  | declare clause target =>
    cases clause with
    | halfPeriod cycles => exact (h.2 cycles rfl).1
    | _ => trivial
  | _ => trivial

/-- Meeting a demand adds no names and takes none away. -/
theorem Demand.Met.names_eq (h : demand.Met b c) : c.reader.names = b.reader.names := by
  cases h <;> rfl

/-- What a statement demands has a name once the statement is read. -/
theorem named_of_reading (hr : r.Sound) (hform : form.Suits r.names)
    (h : form.reading.run r = (some demands, s)) : ∀ demand ∈ demands, demand.Named s.names := by
  obtain ⟨phrase, used, hstands, hsymbols, hasks⟩ := stands_of_reading hr.legible hform h
  have hpaced := paced_of_reading h
  cases hasks with
  | @sentence inInit sentence list targets hlist htargets =>
    obtain ⟨hspelled⟩ := hstands
    intro demand hdemand
    have hdemanded := hpaced demand hdemand
    obtain ⟨target, htarget, rfl⟩ := List.mem_map.mp hdemand
    obtain ⟨name, -, hname⟩ := exists_of_mem_right htargets.flip htarget
    refine ⟨Option.isSome_of_eq_some hname, fun cycles hcycles ↦ ⟨?_, hr.numbers cycles ?_⟩⟩
    · rw [hcycles] at hdemanded
      exact hdemanded
    · rw [hsymbols]
      exact List.mem_append_left _ (number_mem_of_sentenceSpelled hspelled hcycles)
  | link hblock hsource hinput =>
    refine List.forall_mem_singleton.mpr ⟨?_, hsource.labels, ?_⟩
    · exact Option.isSome_of_eq_some hblock
    · exact Option.isSome_of_eq_some hinput
  | watch hwatches =>
    intro demand hdemand
    obtain ⟨mention, hmention, rfl⟩ := List.mem_map.mp hdemand
    obtain ⟨name, -, hname⟩ := exists_of_mem_right hwatches.flip hmention
    exact hname.labels

/-! ### Builders with names -/

namespace Builder

/-- What stands in a builder has a name. -/
structure Named (b : Builder) : Prop where
  devices : ∀ d ∈ b.network.devices, (b.reader.names.string? d.id).isSome
  ports : ∀ port ∈ b.network.ports.all, (b.reader.names.string? port).isSome

theorem Named.onward (h : b.Named) (hnames : b.reader.names.Extends s.names) :
    Named { b with reader := s } where
  devices d hd := isSome_string?_of_extends hnames (h.devices d hd)
  ports port hport := isSome_string?_of_extends hnames (h.ports port hport)

/-- Devices that go by names that were there before. -/
theorem Named.of_map_id (h : b.Named) (hreader : c.reader = b.reader)
    (hports : c.network.ports = b.network.ports)
    (hids : c.network.devices.map Device.id = b.network.devices.map Device.id) : c.Named where
  devices d hd := by
    obtain ⟨e, he, hid⟩ := List.mem_map.mp (hids ▸ List.mem_map_of_mem (f := Device.id) hd)
    rw [hreader, ← hid]
    exact h.devices e he
  ports := hreader ▸ hports ▸ h.ports

/-- A demand that is met leaves everything with a name. -/
theorem Named.met (h : b.Named) (hdemand : demand.Named b.reader.names) (hmet : demand.Met b c) :
    c.Named := by
  cases hmet with
  | refused => exact ⟨h.devices, h.ports⟩
  | granted _ hgrants =>
    cases demand with
    | declare clause target =>
      cases clause with
      | define kind =>
        obtain ⟨rfl, -⟩ := hgrants
        refine ⟨fun d hd ↦ ?_, h.ports⟩
        rcases List.mem_append.mp hd with hold | hnew
        · exact h.devices d hold
        · rw [List.mem_singleton.mp hnew]
          exact hdemand.1
      | _ => exact h.of_map_id rfl hgrants.1.ports hgrants.1.order
    | connect => exact h.of_map_id rfl hgrants.1.ports hgrants.1.order
    | watch =>
      obtain ⟨rfl, -⟩ := hgrants
      exact ⟨h.devices, h.ports⟩

end Builder

end Breadboard.Description
