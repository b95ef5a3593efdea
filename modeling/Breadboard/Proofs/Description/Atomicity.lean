import Breadboard.Circuit
import Breadboard.Proofs.Description.Checks
import Breadboard.Proofs.Description.Demands
import Breadboard.Proofs.Description.Interruptions

/-!
# All or nothing

A statement about devices, in a `devices` or an `init` section, a connection in a block and a demand
to watch outputs are each read as a whole and then carried out. Where such a statement cannot be
read, nothing is built of it, and that is reported. Where it can, its demands are met one by one.
This holds of any builder (`all_or_nothing`).

A statement can be read exactly if it stands in front of the reader, whatever faults there are
between its symbols: its symbols are spelled by the grammar up to its semicolon, its range is one,
what it says may be said in its section, the names in it are known where they have to be, and a
connection is to the device of its block (`reads_iff_stands`).
-/

set_option autoImplicit false
set_option relaxedAutoImplicit false

namespace Breadboard.Description

open Attempt

/-! ### Forms of statement -/

/-- The forms of statement: about devices, to the inputs of the device of a block, and about outputs
to watch. -/
inductive Form
  | devices (inInit : Bool)
  | connection (block : NameId) (blockName : String)
  | monitor

namespace Form

/-- What a statement of a form demands, as it is read. -/
def reading : Form → Attempt (List Demand)
  | devices inInit => do
    let statement ← deviceStatement inInit
    return statement.targets.map (Demand.declare statement.clause)
  | connection block blockName => do
    return [.connect block (← Description.connection block blockName)]
  | monitor => do
    return (← monitorStatement).map .watch

/-- What is done at a statement of a form. -/
def step : Form → Builder → Builder
  | devices inInit => Builder.statement (deviceStatement inInit) Builder.declareAll
  | connection block blockName =>
    Builder.statement (Description.connection block blockName) (Builder.connect block)
  | monitor => Builder.statement monitorStatement Builder.watchAll

/-- A block goes by its name. -/
def Suits (names : Names) : Form → Prop
  | connection block blockName => names.string? block = some blockName
  | _ => True

end Form

/-- A statement as it is written. -/
inductive Phrase
  | sentence (sentence : Sentence)
  | link (link : Link)
  | watch (watch : Watch)

/-- Some symbols that spell a statement of a form, which may be read there: a range is one, an
`init` section has no other sentences than it may have, no half-period is nothing, a connection is
to the device of its block, and where names are only looked up they are known. -/
inductive Stands (mode : NameMode) (names : Names) : Form → Phrase → List Symbol → Prop
  | sentence {inInit : Bool} {sentence : Sentence} {used : List Symbol} :
    SentenceSpelled sentence used → sentence.names.names?.isSome →
    Admissible inInit sentence.clause →
    (mode = .query → ∀ name ∈ sentence.names.met, names.Has name) →
    Stands mode names (.devices inInit) (.sentence sentence) used
  | link {block : NameId} {link : Link} :
    (mode = .query → (∃ t, Calls names t link.source) ∧ names.Has link.input) →
    Stands mode names (.connection block link.target) (.link link) link.symbols
  | watch {watch : Watch} {used : List Symbol} : WatchSpelled watch used →
    (mode = .query → ∀ output ∈ watch.outputs, ∃ t, Calls names t output) →
    Stands mode names .monitor (.watch watch) used

/-- The demands of a statement are about the devices, inputs and outputs that it names, in order. -/
inductive Asks (names : Names) : Form → Phrase → List Demand → Prop
  | sentence {inInit : Bool} {sentence : Sentence} {list : List String} {targets : List Target} :
    sentence.names.names? = some list → Targeted names targets list →
    Asks names (.devices inInit) (.sentence sentence)
      (targets.map (Demand.declare sentence.clause))
  | link {block : NameId} {connection : Connection} {link : Link} :
    names.string? block = some link.target → Calls names connection.source.terminal link.source →
    names.string? connection.input = some link.input →
    Asks names (.connection block link.target) (.link link) [.connect block connection]
  | watch {mentions : List OutputMention} {watch : Watch} : Watches names mentions watch →
    Asks names .monitor (.watch watch) (mentions.map .watch)

variable {form : Form} {r s : Reader} {demands : List Demand} {b c : Builder}

/-! ### Statements as they are read -/

/-- A property of whatever reads a statement is one of reading the statement. -/
theorem Attempt.Composes.reading {p : {α : Type} → Attempt α → Prop} (h : Composes p)
    (hdevices : ∀ inInit, p (Description.deviceStatement inInit)) (form : Form) :
    p form.reading := by
  cases form with
  | devices inInit => exact h.bind (hdevices inInit) fun _ ↦ h.pure _
  | connection block blockName => exact h.bind (h.connection block blockName) fun _ ↦ h.pure _
  | monitor => exact h.bind h.monitorStatement fun _ ↦ h.pure _

theorem files_reading (form : Form) : form.reading.Files :=
  composes_files.reading (composes_files.deviceStatement files_resolveAll) form

theorem legibly_reading (form : Form) : form.reading.Legibly :=
  composes_legibly.reading legibly_deviceStatement form

/-- A statement that was read stood in front of the reader. -/
theorem stands_of_reading (hr : r.Legible) (hform : form.Suits r.names)
    (h : form.reading.run r = (some demands, s)) :
    ∃ phrase used, Stands r.mode r.names form phrase used ∧ r.symbols = used ++ s.symbols ∧
      Asks s.names form phrase demands := by
  cases form with
  | devices inInit =>
    obtain ⟨statement, hrun, rfl⟩ := run_bind_pure_eq_some.mp h
    obtain ⟨t, ht, hnames, hsymbols⟩ :=
      (composes_deaf.deviceStatement deaf_resolveAll inInit).exists_run_cleared hrun
    obtain ⟨sentence, list, used, hstates⟩ := deviceStatement_sound hr ht
    have hhas (hmode : r.mode = .query) : ∀ name ∈ sentence.names.met, r.names.Has name := by
      have hkept : t.names = r.names := hstates.passes.kept hmode
      intro name hname
      rw [NameList.met, hstates.stands, List.mem_append] at hname
      exact hkept ▸ hname.elim (hstates.known name) (has_of_targeted hstates.targets)
    refine ⟨.sentence sentence, used, .sentence hstates.spelled
      (Option.isSome_of_eq_some hstates.stands) ⟨hstates.fits, hstates.cycles⟩ hhas, ?_, ?_⟩
    · rw [← r.symbols_cleared, hstates.passes.symbols, hsymbols]
    · rw [← hnames, hstates.clause]
      exact .sentence hstates.stands hstates.targets
  | connection block blockName =>
    obtain ⟨connected, hrun, rfl⟩ := run_bind_pure_eq_some.mp h
    obtain ⟨t, ht, hnames, hsymbols⟩ :=
      (composes_deaf.connection block blockName).exists_run_cleared hrun
    obtain ⟨link, hjoins⟩ := connection_sound hr hform ht
    obtain rfl := hjoins.target
    refine ⟨.link link, link.symbols, .link fun hmode ↦ ?_, ?_, ?_⟩
    · have hkept : t.names = r.names := hjoins.passes.kept hmode
      exact ⟨⟨_, hkept ▸ hjoins.source⟩, _, hkept ▸ hjoins.input⟩
    · rw [← r.symbols_cleared, hjoins.passes.symbols, hsymbols]
    · rw [← hnames]
      exact .link (hjoins.passes.grown.string? hform) hjoins.source hjoins.input
  | monitor =>
    obtain ⟨mentions, hrun, rfl⟩ := run_bind_pure_eq_some.mp h
    obtain ⟨t, ht, hnames, hsymbols⟩ := composes_deaf.monitorStatement.exists_run_cleared hrun
    obtain ⟨watch, used, hspelled, hpasses, hwatches⟩ := monitorStatement_sound hr ht
    refine ⟨.watch watch, used, .watch hspelled fun hmode output houtput ↦ ?_, ?_, ?_⟩
    · have hkept : t.names = r.names := hpasses.kept hmode
      obtain ⟨mention, -, hcalls⟩ := exists_of_mem_right hwatches houtput
      exact ⟨_, hkept ▸ hcalls⟩
    · rw [← r.symbols_cleared, hpasses.symbols, hsymbols]
    · rw [← hnames]
      exact .watch hwatches

/-- A statement that stands in front of the reader is read. -/
theorem reading_of_stands (hr : r.Legible) (hform : form.Suits r.names) {phrase : Phrase}
    {used more : List Symbol} (hstands : Stands r.mode r.names form phrase used)
    (hsymbols : r.symbols = used ++ more) :
    ∃ demands s, form.reading.run r = (some demands, s) := by
  rw [← r.symbols_cleared] at hsymbols
  cases hstands with
  | @sentence inInit sentence _ hspelled hrange hadmissible hknown =>
    obtain ⟨list, hlist⟩ := Option.isSome_iff_exists.mp hrange
    obtain ⟨statement, t, hrun, -⟩ := deviceStatement_complete hr hspelled hsymbols hlist
      hadmissible.fits hadmissible.cycles hknown
    obtain ⟨s, hs, -⟩ :=
      (composes_deaf.deviceStatement deaf_resolveAll inInit).run_eq r.cleared_cleared hrun
    exact ⟨_, _, run_bind_pure_eq_some.mpr ⟨statement, hs, rfl⟩⟩
  | @link block link hknown =>
    obtain ⟨connected, t, hrun, -⟩ := connection_complete hr hform rfl hsymbols fun hmode ↦
      (hknown hmode).imp (fun ⟨t, ht⟩ ↦ ⟨⟨t, {}⟩, ht⟩) id
    obtain ⟨s, hs, -⟩ :=
      (composes_deaf.connection block link.target).run_eq r.cleared_cleared hrun
    exact ⟨_, _, run_bind_pure_eq_some.mpr ⟨connected, hs, rfl⟩⟩
  | watch hspelled hknown =>
    obtain ⟨mentions, t, hrun, -⟩ := monitorStatement_complete hr hspelled hsymbols
      fun hmode output houtput ↦ (hknown hmode output houtput).imp' (⟨·, {}⟩) fun _ ↦ id
    obtain ⟨s, hs, -⟩ := composes_deaf.monitorStatement.run_eq r.cleared_cleared hrun
    exact ⟨_, _, run_bind_pure_eq_some.mpr ⟨mentions, hs, rfl⟩⟩

theorem reads_iff_stands (hr : r.Legible) (hform : form.Suits r.names) :
    (∃ demands s, form.reading.run r = (some demands, s)) ↔
      ∃ phrase used more, Stands r.mode r.names form phrase used ∧ r.symbols = used ++ more := by
  constructor
  · rintro ⟨demands, s, h⟩
    obtain ⟨phrase, used, hstands, hsymbols, -⟩ := stands_of_reading hr hform h
    exact ⟨phrase, used, s.symbols, hstands, hsymbols⟩
  · rintro ⟨phrase, used, more, hstands, hsymbols⟩
    exact reading_of_stands hr hform hstands hsymbols

/-! ### Statements as they are carried out -/

theorem paced_of_reading (h : form.reading.run r = (some demands, s)) :
    ∀ demand ∈ demands, demand.Paced := by
  cases form with
  | devices inInit =>
    obtain ⟨statement, hrun, rfl⟩ := run_bind_pure_eq_some.mp h
    intro demand hdemand
    obtain ⟨target, -, rfl⟩ := List.mem_map.mp hdemand
    have hcycles := (admissible_of_run hrun).cycles
    cases hclause : statement.clause with
    | halfPeriod cycles => exact hcycles cycles hclause
    | _ => trivial
  | connection block blockName =>
    obtain ⟨connected, -, rfl⟩ := run_bind_pure_eq_some.mp h
    exact List.forall_mem_singleton.mpr trivial
  | monitor =>
    obtain ⟨mentions, -, rfl⟩ := run_bind_pure_eq_some.mp h
    intro demand hdemand
    obtain ⟨mention, -, rfl⟩ := List.mem_map.mp hdemand
    trivial

/-- Acting on what is made of a value is acting on the value. -/
theorem statement_bind_pure {σ τ : Type} (m : Attempt σ) (g : σ → τ) (act : Builder → τ → Builder)
    (b : Builder) : Builder.statement (m >>= fun x ↦ pure (g x)) act b =
      Builder.statement m (fun b x ↦ act b (g x)) b := by
  rw [Builder.statement_eq, Builder.statement_eq, run_bind]
  rcases m.run b.reader with ⟨_ | x, r⟩ <;> rfl

theorem step_eq (form : Form) (b : Builder) : form.step b =
    Builder.statement form.reading (fun b demands ↦ demands.foldl Demand.meet b) b := by
  cases form with
  | devices inInit =>
    refine Eq.trans ?_ (statement_bind_pure _ _ _ b).symm
    have hact : Builder.declareAll = fun b (statement : DeviceStatement) ↦
        (statement.targets.map (Demand.declare statement.clause)).foldl Demand.meet b := by
      funext b statement
      rw [Builder.declareAll_eq, List.foldl_map]
      rfl
    rw [Form.step, hact]
  | connection block blockName =>
    exact (statement_bind_pure (Description.connection block blockName)
      (fun connection ↦ [Demand.connect block connection])
      (fun b demands ↦ demands.foldl Demand.meet b) b).symm
  | monitor =>
    refine Eq.trans ?_ (statement_bind_pure _ _ _ b).symm
    have hact : Builder.watchAll = fun b (mentions : List OutputMention) ↦
        (mentions.map Demand.watch).foldl Demand.meet b := by
      funext b mentions
      rw [Builder.watchAll_eq, List.foldl_map]
      rfl
    rw [Form.step, hact]

theorem Handled.legible (h : Handled demands b c) (hb : b.reader.Legible) : c.reader.Legible := by
  induction h with
  | nil => exact hb
  | cons hmet _ ih =>
    cases hmet with
    | granted => exact ih hb
    | refused => exact ih (hb.file _ _)

/-- A statement leaves a legible reader legible, whether it is carried out or skipped. -/
theorem legible_step (form : Form) (h : b.reader.Legible) : (form.step b).reader.Legible := by
  have hreader := legibly_reading form b.reader h
  rw [step_eq, Builder.statement_eq]
  rcases hrun : form.reading.run b.reader with ⟨_ | demands, r⟩ <;> rw [hrun] at hreader
  · exact hreader.skipStatement
  · exact (handled_foldl (paced_of_reading hrun) { b with reader := r }).legible hreader

/-! ### Statements -/

/-- A statement of a form is carried out demand by demand, or nothing is done but report it. -/
structure AllOrNothing (form : Form) (b : Builder) : Prop where
  /-- Where the statement cannot be read, the network and the monitors stay as they are, and one
  report is filed besides the faults that the scanner comes upon. -/
  skipped {r : Reader} : form.reading.run b.reader = (none, r) →
    (form.step b).network = b.network ∧ (form.step b).monitors = b.monitors ∧
      (form.step b).seen = b.seen ∧
      ∃ faults report more, Lexical faults ∧ Lexical more ∧
        (form.step b).reader.log = b.reader.log ++ faults ++ [report] ++ more
  /-- Where it can be read, its demands are met one by one, and no report is filed otherwise but of
  faults that the scanner comes upon. -/
  carriedOut {demands : List Demand} {r : Reader} : form.reading.run b.reader = (some demands, r) →
    b.reader.Scans r ∧ Handled demands { b with reader := r } (form.step b)
  /-- Demands that are refused make no difference to the others, and each is reported once. -/
  separate {demands : List Demand} {r : Reader} : form.reading.run b.reader = (some demands, r) →
    ∃ kept, kept.Sublist demands ∧
      Handled kept { b with reader := r } { form.step b with reader := r } ∧
      ∃ reports, (form.step b).reader = { r with log := r.log ++ reports } ∧
        (∀ report ∈ reports, report.fault.category = .meaning) ∧
        reports.length + kept.length = demands.length
  /-- A statement is read exactly if it stands in front of the reader. -/
  read : b.reader.Legible → form.Suits b.reader.names →
    ((∃ demands r, form.reading.run b.reader = (some demands, r)) ↔
      ∃ phrase used more, Stands b.reader.mode b.reader.names form phrase used ∧
        b.reader.symbols = used ++ more)
  /-- Its demands are what it asks for. -/
  demanded {demands : List Demand} {r : Reader} : b.reader.Legible → form.Suits b.reader.names →
    form.reading.run b.reader = (some demands, r) →
      ∃ phrase used, Stands b.reader.mode b.reader.names form phrase used ∧
        b.reader.symbols = used ++ r.symbols ∧ Asks r.names form phrase demands
  /-- Either way the reader stays legible. -/
  legible : b.reader.Legible → (form.step b).reader.Legible

/-- Statements are all or nothing, whatever has been built and filed before, and wherever the reader
stands. -/
theorem all_or_nothing (form : Form) (b : Builder) : AllOrNothing form b := by
  have hskipped {r : Reader} (h : form.reading.run b.reader = (none, r)) :
      form.step b = { b with reader := r.skipStatement } := by
    rw [step_eq, Builder.statement_eq, h]
  have hhandled {demands : List Demand} {r : Reader}
      (h : form.reading.run b.reader = (some demands, r)) :
      Handled demands { b with reader := r } (form.step b) := by
    rw [step_eq, Builder.statement_eq, h]
    exact handled_foldl (paced_of_reading h) _
  refine ⟨fun {r} h ↦ ?_, fun {demands r} h ↦ ?_, fun {demands r} h ↦ ?_, ?_, ?_, legible_step form⟩
  · rw [hskipped h]
    refine ⟨rfl, rfl, rfl, ?_⟩
    obtain ⟨faults, report, hfaults, hlog⟩ := (files_reading form).refuses h
    obtain ⟨more, hmore, hskip⟩ := r.scans_skipStatement
    exact ⟨faults, report, more, hfaults, hmore, by rw [hskip, hlog]⟩
  · exact ⟨(files_reading form).yields h, hhandled h⟩
  · exact (hhandled h).exists_kept
  · exact reads_iff_stands
  · exact stands_of_reading

/-- A name that is listed twice is defined once. -/
example : ((Form.devices false).step (.start (Circuit.blank {} {}).1 (Circuit.blank {} {}).2 {}
    "A, B, A are NAND;")).reader.log.map Report.fault = [.declaration "A" .alreadyDefined] := by
  decide +kernel

/-- Where a semicolon is missing nothing is defined. -/
example : ((Form.devices false).step (.start (Circuit.blank {} {}).1 (Circuit.blank {} {}).2 {}
    "A, B are NAND C is OR;")).network.devices = [] := by
  decide +kernel

end Breadboard.Description
