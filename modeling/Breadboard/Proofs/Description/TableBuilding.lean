import Breadboard.Circuit
import Breadboard.Proofs.Description.Nameable
import Breadboard.Proofs.Storage.Keeping

/-!
# Building in a table

A builder may keep its network in a table. It stands for the builder with the network that is stored
(`Builder.stored`). Whatever the text, building a table comes to something without a lapse, and to
what building a network comes to: no name that a message asks for is missing, whatever is wrong
with the description (`keeps_buildM`).

What is kept all along is that the table is in use, that the reader is in good order, and that the
devices and the ports have names (`Builder.Sound`). There is a lemma for each step that a builder
takes.
-/

set_option autoImplicit false
set_option relaxedAutoImplicit false

namespace Breadboard

variable {m : Type → Type} [Fallback m]

/-! ### Names that are there -/

namespace Names

open Description (Labels)

variable {names : Names}

theorem nameOfM_eq {id : NameId} (h : (names.string? id).isSome) :
    names.nameOfM id = (pure (names.nameOf id) : m String) := by
  obtain ⟨name, hname⟩ := Option.isSome_iff_exists.mp h
  rw [nameOfM, nameOf_eq, hname, provided_some, Option.getD_some]

/-- Where a name is missing a question mark stands in for it, or else the program stops. -/
example : ({} : Names).nameOf 5 = "?" ∧
    (({} : Names).nameOfM 5 : Checked String) = .error (.nameless 5) := by decide

theorem nameOfTerminalM_eq {output : Terminal} (h : Labels names output) :
    names.nameOfTerminalM output = (pure (names.nameOfTerminal output) : m String) := by
  obtain ⟨hdevice, hport⟩ := h
  rw [nameOfTerminalM, nameOfTerminal_eq]
  cases houtput : output.port with
  | none => exact nameOfM_eq hdevice
  | some port =>
    dsimp only
    rw [nameOfM_eq hdevice, pure_bind, nameOfM_eq (hport port houtput), pure_bind]

/-- Where an output has a name, it goes by that name in a message. -/
theorem nameOfTerminalM_of_terminal? {output : Terminal} {name : String}
    (h : names.terminal? output = some name) :
    names.nameOfTerminalM output = (pure name : m String) := by
  obtain ⟨device, hdevice, hname⟩ := Option.bind_eq_some_iff.mp h
  rw [nameOfTerminalM, nameOfM, hdevice]
  cases hport : output.port with
  | none =>
    rw [hport] at hname
    exact congrArg pure (Option.some_inj.mp hname)
  | some port =>
    rw [hport] at hname
    obtain ⟨called, hcalled, rfl⟩ := Option.map_eq_some_iff.mp hname
    dsimp only
    rw [provided_some, pure_bind, nameOfM, hcalled, provided_some, pure_bind]

/-- A table in use knows its devices as the network does. -/
theorem deviceM?_eq {t : Table} (h : t.InUse) (names : Names) (name : String) :
    names.deviceM? t name = (pure ((names.query name).filter t.network.contains) : m _) := by
  rw [deviceM?]
  cases names.query name with
  | none => rfl
  | some id =>
    dsimp only [Store.contains]
    rw [pure_bind, Option.filter_some, h.contains_network]

end Names

namespace Description

open Attempt
open Text (Position)

namespace Builder

/-! ### Builders in good order -/

variable {b : Builder Table} {c : Builder} {r : Reader} {demand : Demand} {heading : Heading}
  {τ : Type}

/-- The builder with the network that is stored. -/
def stored (b : Builder Table) : Builder :=
  ⟨b.reader, b.network.network, b.monitors, b.seen⟩

/-- A builder with a table in use and a reader in good order, where everything has a name. -/
structure Sound (b : Builder Table) : Prop where
  table : b.network.InUse
  reader : b.reader.Sound
  named : b.stored.Named

/-- A builder in good order that stands for a given one. -/
structure Keeps (b : Builder Table) (c : Builder) : Prop extends Sound b where
  stored : b.stored = c

theorem Sound.keeps (h : b.Sound) : b.Keeps b.stored :=
  ⟨h, rfl⟩

/-- Reading on keeps a builder in good order. -/
theorem Sound.onward (h : b.Sound) (hreach : b.reader.Reaches r) (hr : r.Legible) :
    Sound { b with reader := r } where
  table := h.table
  reader := h.reader.reach hreach hr
  named := h.named.onward ((lasting_extends b.reader.names).reaches hreach (.refl _))

theorem Sound.file (h : b.Sound) (fault : Fault) (position : Position) :
    (b.file fault position).Sound :=
  h.onward (.file fault position .refl) (h.reader.legible.file fault position)

theorem Sound.advance (h : b.Sound) : (b.mapReader Reader.advance).Sound :=
  h.onward (.advance .refl) h.reader.legible.advance

/-- On the way to the next heading. -/
theorem Sound.skipToHeading (h : b.Sound) (what : Expectation) :
    (b.mapReader fun r ↦ (r.unexpected what).skipTo [.heading]).Sound :=
  h.onward ((Reader.Reaches.file _ _ .refl).trans (Reader.reaches_skipTo _ _))
    ((h.reader.legible.file _ _).skipTo _)

/-- A change of the mode, where the reader does not stand on a name. -/
theorem Sound.setMode (h : b.Sound) (hname : b.reader.current.lexeme ≠ .name) (mode : NameMode) :
    (b.setMode mode).Sound where
  table := h.table
  reader := ⟨h.reader.legible.inMode hname mode, h.reader.numbers⟩
  named := ⟨h.named.devices, h.named.ports⟩

theorem Sound.note (h : b.Sound) (heading : Heading) : (b.note heading).Sound := by
  rw [Builder.note]
  split
  · exact h.file _ _
  · exact ⟨h.table, h.reader, ⟨h.named.devices, h.named.ports⟩⟩

theorem stored_note (b : Builder Table) (heading : Heading) :
    (b.note heading).stored = b.stored.note heading :=
  apply_ite stored ..

theorem Sound.fileAll (h : b.Sound) (faults : List Fault) (position : Position) :
    (b.fileAll faults position).Sound := by
  rw [Builder.fileAll]
  induction faults generalizing b with
  | nil => exact h
  | cons fault faults ih => exact ih (h.file fault position)

theorem stored_fileAll (b : Builder Table) (faults : List Fault) (position : Position) :
    (b.fileAll faults position).stored = b.stored.fileAll faults position := by
  rw [fileAll, fileAll]
  induction faults generalizing b with
  | nil => rfl
  | cons fault faults ih => exact ih (b.file fault position)

/-! ### Demands are met -/

/-- A demand that is granted leaves a builder in good order with another table and monitors. -/
theorem Sound.granted (h : b.Sound) (hdemand : demand.Named b.reader.names) {t : Table}
    {monitors : Monitors} (ht : t.InUse)
    (hmeet : demand.meet b.stored = { b.stored with network := t.network, monitors }) :
    WithoutLapse (pure { b with network := t, monitors } : m (Builder Table))
      (Keeps · (demand.meet b.stored)) := by
  have hnamed := h.named.met hdemand (demand.met hdemand.paced b.stored)
  rw [hmeet] at hnamed ⊢
  exact .pure ⟨⟨ht, h.reader, hnamed⟩, rfl⟩

/-- A demand that is refused is filed. -/
theorem Sound.refused (h : b.Sound) {fault : Fault} {position : Position}
    (hmeet : demand.meet b.stored = b.stored.file fault position) :
    WithoutLapse (pure (b.file fault position) : m (Builder Table))
      (Keeps · (demand.meet b.stored)) :=
  hmeet ▸ .pure (h.file fault position).keeps

theorem Sound.declareM (h : b.Sound) {clause : Clause} {target : Target}
    (hdemand : (Demand.declare clause target).Named b.reader.names) :
    WithoutLapse (declareM clause b target : m (Builder Table))
      (Keeps · ((Demand.declare clause target).meet b.stored)) := by
  rw [Builder.declareM, Names.nameOfM_eq hdemand.1, pure_bind]
  refine (h.table.declare (fun cycles hcycles ↦ (hdemand.2 cycles hcycles).2) target.id).bind
    fun result hsame ↦ ?_
  generalize hexpected : b.network.network.declare target.id clause = expected at hsame
  cases hsame with
  | ok hkeeps =>
    obtain rfl := hkeeps.network
    refine h.granted hdemand hkeeps.toInUse ?_
    rw [Demand.meet, declare_eq, stored, hexpected]
  | error herror =>
    obtain rfl := herror
    refine h.refused ?_
    rw [Demand.meet, declare_eq, stored, hexpected]
    rfl

theorem Sound.connectM (h : b.Sound) {block : NameId} {connection : Connection}
    (hdemand : (Demand.connect block connection).Named b.reader.names) :
    WithoutLapse (connectM block b connection : m (Builder Table))
      (Keeps · ((Demand.connect block connection).meet b.stored)) := by
  obtain ⟨hblock, hsource, hinput⟩ := id hdemand
  refine (h.table.link connection.source.terminal block connection.input).bind
    fun result hsame ↦ ?_
  generalize hexpected : b.network.network.connect connection.source.terminal block
    connection.input = expected at hsame
  cases hsame with
  | ok hkeeps =>
    obtain rfl := hkeeps.network
    refine h.granted hdemand hkeeps.toInUse ?_
    rw [Demand.meet, connect_eq, stored, hexpected]
  | error herror =>
    obtain rfl := herror
    have htarget : Labels b.reader.names ⟨block, some connection.input⟩ :=
      ⟨hblock, fun port hport ↦ Option.some_inj.mp hport ▸ hinput⟩
    dsimp only
    rw [Names.nameOfM_eq hsource.1, pure_bind, Names.nameOfTerminalM_eq hsource, pure_bind,
      Names.nameOfTerminalM_eq htarget, pure_bind]
    refine h.refused ?_
    rw [Demand.meet, connect_eq, stored, hexpected]
    rfl

theorem Sound.watchM (h : b.Sound) {output : OutputMention}
    (hdemand : (Demand.watch output).Named b.reader.names) :
    WithoutLapse (b.watchM output : m (Builder Table))
      (Keeps · ((Demand.watch output).meet b.stored)) := by
  rw [Builder.watchM, Monitors.addM_eq h.table, pure_bind]
  cases hadd : b.monitors.add b.network.network output.terminal with
  | ok monitors =>
    refine h.granted hdemand h.table ?_
    rw [Demand.meet, watch_eq, stored, hadd]
  | error error =>
    dsimp only
    rw [Names.nameOfM_eq hdemand.1, pure_bind, Names.nameOfTerminalM_eq hdemand, pure_bind]
    refine h.refused ?_
    rw [Demand.meet, watch_eq, stored, hadd]
    rfl

/-- Demands are met one by one, and the names stay the same: the induction is on what is still
demanded. -/
theorem Sound.foldlM_meet {meet : Builder Table → τ → m (Builder Table)} (demand : τ → Demand)
    (hmeet : ∀ (b : Builder Table) a, b.Sound → (demand a).Named b.reader.names →
      WithoutLapse (meet b a) (Keeps · ((demand a).meet b.stored)))
    (h : b.Sound) {list : List τ} (hlist : ∀ a ∈ list, (demand a).Named b.reader.names) :
    WithoutLapse (list.foldlM meet b)
      (Keeps · (list.foldl (fun c a ↦ (demand a).meet c) b.stored)) := by
  induction list generalizing b with
  | nil => exact .pure h.keeps
  | cons a list ih =>
    obtain ⟨hfirst, hrest⟩ := List.forall_mem_cons.mp hlist
    rw [List.foldlM_cons, List.foldl_cons]
    refine (hmeet b a h hfirst).bind fun next hnext ↦ ?_
    have hnames : next.reader.names = b.reader.names :=
      (congrArg (·.reader.names) hnext.stored).trans
        ((demand a).met hfirst.paced b.stored).names_eq
    rw [← hnext.stored]
    exact ih hnext.toSound (hnames ▸ hrest)

/-! ### Statements -/

theorem Sound.statementM {form : Attempt τ} {act : Builder Table → τ → m (Builder Table)}
    {act' : Builder → τ → Builder} (h : b.Sound) (hform : form.Legibly)
    (hact : ∀ s reader, form.run b.reader = (some s, reader) → Sound { b with reader } →
      WithoutLapse (act { b with reader } s) (Keeps · (act' { b.stored with reader } s))) :
    WithoutLapse (statementM form act b) (Keeps · (b.stored.statement form act')) := by
  have hreach := form.reaches b.reader
  have hlegible := hform b.reader h.reader.legible
  have hreader : b.stored.reader = b.reader := rfl
  rw [Builder.statementM, statement_eq, hreader]
  rcases hrun : form.run b.reader with ⟨_ | s, reader⟩ <;> rw [hrun] at hreach hlegible
  · exact .pure
      (h.onward (hreach.trans reader.reaches_skipStatement) hlegible.skipStatement).keeps
  · exact hact s reader hrun (h.onward hreach hlegible)

theorem Sound.deviceStatementM (h : b.Sound) (inInit : Bool) :
    WithoutLapse (b.statementM (deviceStatement inInit) declareAllM : m (Builder Table))
      (Keeps · (b.stored.statement (deviceStatement inInit) declareAll)) := by
  refine h.statementM (legibly_deviceStatement inInit) fun statement reader hrun hread ↦ ?_
  have hnamed : ∀ demand ∈ statement.targets.map (Demand.declare statement.clause),
      demand.Named reader.names :=
    named_of_reading h.reader (show Form.Suits _ (.devices inInit) from trivial)
      (run_bind_pure_eq_some.mpr ⟨statement, hrun, rfl⟩)
  rw [declareAll_eq]
  exact hread.foldlM_meet (.declare statement.clause)
    (fun _ _ hb hdemand ↦ hb.declareM hdemand) (List.forall_mem_map.mp hnamed)

theorem Sound.monitorStatementM (h : b.Sound) :
    WithoutLapse (b.statementM monitorStatement watchAllM : m (Builder Table))
      (Keeps · (b.stored.statement monitorStatement watchAll)) := by
  refine h.statementM composes_legibly.monitorStatement fun outputs reader hrun hread ↦ ?_
  have hnamed : ∀ demand ∈ outputs.map Demand.watch, demand.Named reader.names :=
    named_of_reading h.reader (show Form.Suits _ .monitor from trivial)
      (run_bind_pure_eq_some.mpr ⟨outputs, hrun, rfl⟩)
  rw [watchAll_eq]
  exact hread.foldlM_meet .watch (fun _ _ hb hdemand ↦ hb.watchM hdemand)
    (List.forall_mem_map.mp hnamed)

theorem Sound.connectionM (h : b.Sound) {block : NameId} {blockName : String}
    (hblock : b.reader.names.string? block = some blockName) :
    WithoutLapse (b.statementM (connection block blockName) (Builder.connectM block) :
      m (Builder Table))
      (Keeps · (b.stored.statement (connection block blockName) (connect block))) := by
  refine h.statementM (composes_legibly.connection block blockName)
    fun made reader hrun hread ↦ hread.connectM ?_
  have hnamed : ∀ demand ∈ [Demand.connect block made], demand.Named reader.names :=
    named_of_reading h.reader (show Form.Suits _ (.connection block blockName) from hblock)
      (run_bind_pure_eq_some.mpr ⟨made, hrun, rfl⟩)
  exact List.forall_mem_singleton.mp hnamed

/-- Steps up to the end of a section, each of which comes to what it comes to on a network. -/
theorem Sound.untilSectionEndM {step : Builder Table → m (Builder Table)}
    {step' : Builder → Builder} {P : Builder → Prop}
    (progress : ∀ b c : Builder Table, b.reader.atSectionEnd = false →
      MonadAttach.CanReturn (step b) c → c.reader.unread < b.reader.unread)
    (progress' : ∀ c : Builder, c.reader.atSectionEnd = false →
      (step' c).reader.unread < c.reader.unread)
    (hstep : ∀ b : Builder Table, b.Sound → P b.stored →
      WithoutLapse (step b) (Keeps · (step' b.stored)) ∧ P (step' b.stored))
    (h : b.Sound) (hP : P b.stored) :
    WithoutLapse (untilSectionEndM step progress b)
      (Keeps · (b.stored.untilSectionEnd step' progress')) := by
  generalize hc : b.stored = c at hP
  induction c using induction_untilSectionEnd progress' generalizing b with
  | stop c hend =>
    subst hc
    have hover : b.reader.atSectionEnd = true := hend
    rw [untilSectionEndM_eq, if_pos hover, untilSectionEnd_of_end hend]
    exact .pure h.keeps
  | next c hinside ih =>
    subst hc
    obtain ⟨hturn, hnext⟩ := hstep b h hP
    have hmore : ¬ b.reader.atSectionEnd = true := Bool.eq_false_iff.mp hinside
    rw [untilSectionEndM_eq, if_neg hmore, untilSectionEnd_of_inside hinside]
    exact hturn.bind fun next hkeeps ↦ ih hkeeps.toSound hkeeps.stored hnext

/-! ### Blocks -/

theorem Sound.blockBodyM (h : b.Sound) {block : NameId} {blockName : String}
    (hblock : b.reader.names.string? block = some blockName) :
    WithoutLapse (b.blockBodyM block blockName : m (Builder Table))
      (Keeps · (b.stored.blockBody block blockName)) := by
  have hlinks := h.untilSectionEndM (m := m)
    (P := fun c ↦ c.reader.names.string? block = some blockName)
    (unread_statementM_lt (consumes_connection block blockName) (readsOn_connectM block))
    (unread_statement_lt (consumes_connection block blockName) (reaches_connect block))
    (fun b hb hname ↦ ⟨hb.connectionM hname, ((lasting_extends _).reaches
      (reaches_statement (reaches_connect block) b.stored) (.refl _)).string? hname⟩) hblock
  refine hlinks.bind fun last hlast ↦ ?_
  rw [blockBody_eq, ← hlast.stored]
  exact hlast.statementM (composes_legibly.expect _ _) fun _ _ _ hread ↦ .pure hread.keeps

theorem Sound.blockForM (h : b.Sound) (header : Token) :
    WithoutLapse (b.blockForM header : m (Builder Table)) (Keeps · (b.stored.blockFor header)) := by
  have hfind : b.stored.deviceNamed? header.text =
      (b.reader.names.query header.text).filter b.network.network.contains := deviceNamed?_eq ..
  rw [Builder.blockForM, deviceNamedM?, Names.deviceM?_eq h.table, pure_bind, blockFor_eq, hfind]
  cases hfound : (b.reader.names.query header.text).filter b.network.network.contains with
  | none =>
    have hfiled := h.file (.unknownDevice header.text) header.position
    exact .pure (hfiled.onward (Reader.reaches_skipBlock _) hfiled.reader.legible.skipBlock).keeps
  | some block =>
    obtain ⟨hquery, -⟩ := Option.filter_eq_some_iff.mp hfound
    have hready : b.reader.cleared.Ready b.reader.mode := h.reader.legible
    have hname := hready.names.faithful.query_eq_some_iff.mp hquery
    refine h.statementM composes_legibly.blockOpening
      fun _ reader hrun hread ↦ hread.blockBodyM ?_
    have hreach := blockOpening.reaches b.reader
    rw [hrun] at hreach
    exact ((lasting_extends _).reaches hreach (.refl _)).string? hname

/-! ### Sections -/

theorem Sound.bodyM (h : b.Sound) (heading : Heading) :
    WithoutLapse (b.bodyM heading : m (Builder Table)) (Keeps · (b.stored.body heading)) := by
  rw [body_eq]
  cases heading with
  | devices =>
    exact h.untilSectionEndM (P := fun _ ↦ True) _ _
      (fun b hb _ ↦ ⟨hb.deviceStatementM false, trivial⟩) trivial
  | init =>
    exact h.untilSectionEndM (P := fun _ ↦ True) _ _
      (fun b hb _ ↦ ⟨hb.deviceStatementM true, trivial⟩) trivial
  | connections =>
    exact h.untilSectionEndM (P := fun _ ↦ True) _ _
      (fun b hb _ ↦ ⟨hb.statementM composes_legibly.blockHeader
        fun header _ _ hread ↦ hread.blockForM header, trivial⟩) trivial
  | monitor =>
    exact h.untilSectionEndM (P := fun _ ↦ True) _ _
      (fun b hb _ ↦ ⟨hb.monitorStatementM, trivial⟩) trivial

/-- What is missing where a section closes has a name. -/
theorem Sound.shortfallsM_eq (h : b.Sound) (heading : Heading) :
    b.shortfallsM heading = (pure (b.stored.shortfalls heading) : m (List Fault)) := by
  rw [shortfalls_eq]
  cases heading with
  | devices =>
    refine (pure_bind ..).trans (mapM_eq_pure fun id hid ↦ ?_)
    obtain ⟨d, hd, rfl⟩ := List.mem_map.mp hid
    have hnamed : (b.reader.names.string? d.id).isSome :=
      h.named.devices d (List.mem_of_mem_filter hd)
    rw [Names.nameOfM_eq hnamed, pure_bind]
    rfl
  | connections =>
    refine (pure_bind ..).trans (mapM_eq_pure fun (device, port) hopen ↦ ?_)
    obtain ⟨d, hd, hpins⟩ := List.mem_flatMap.mp hopen
    obtain ⟨pin, hpin, hsame⟩ := List.mem_map.mp hpins
    obtain ⟨rfl, rfl⟩ := Prod.mk.inj hsame
    have hlabels : Labels b.reader.names ⟨d.id, some pin.port⟩ := by
      refine ⟨h.named.devices d hd, fun port hport ↦ ?_⟩
      obtain rfl := Option.some_inj.mp hport
      exact h.named.ports _ (h.table.toSound.mem_all_of_mem_pins hd (List.mem_of_mem_filter hpin))
    dsimp only
    rw [Names.nameOfTerminalM_eq hlabels, pure_bind]
    rfl
  | monitor | init => rfl

theorem Sound.passEnd (h : b.Sound) (hover : b.reader.atSectionEnd = true) : b.passEnd.Sound := by
  have hmode := h.setMode (Reader.ne_name_of_atSectionEnd hover) .declare
  rw [Builder.passEnd]
  split
  · exact hmode.advance
  · exact hmode.file _ _

theorem stored_passEnd (b : Builder Table) : b.passEnd.stored = b.stored.passEnd :=
  apply_ite stored ..

theorem Sound.closeM (h : b.Sound) (hover : b.reader.atSectionEnd = true) (heading : Heading) :
    WithoutLapse (b.closeM heading : m (Builder Table)) (Keeps · (b.stored.close heading)) := by
  have hpassed := h.passEnd hover
  rw [Builder.closeM, hpassed.shortfallsM_eq, pure_bind, close_eq, ← stored_passEnd]
  exact .pure ⟨hpassed.fileAll _ _, stored_fileAll _ _ _⟩

theorem Sound.parseSectionM (h : b.Sound) (heading : Heading) :
    WithoutLapse (b.parseSectionM heading : m (Builder Table))
      (Keeps · (b.stored.parseSection heading)) := by
  have hbehind := (h.note heading).advance
  have hstored : ((b.note heading).stored.mapReader Reader.advance).reader =
      ((b.note heading).mapReader Reader.advance).reader := rfl
  rw [Builder.parseSectionM, parseSection_eq, ← stored_note, hstored]
  by_cases hbrace : ((b.note heading).mapReader Reader.advance).reader.current.lexeme = .openBrace
  · have hname : ((b.note heading).mapReader Reader.advance).reader.current.lexeme ≠ .name :=
      ne_of_eq_of_ne hbrace (by decide)
    have hbody := ((hbehind.setMode hname (modeOf heading)).advance).bodyM (m := m) heading
    rw [if_pos hbrace, if_pos hbrace]
    refine hbody.bind fun last hlast ↦ ?_
    have hover : last.stored.reader.atSectionEnd = true :=
      hlast.stored ▸ atSectionEnd_body _ heading
    have hclosed := hlast.closeM (m := m) hover heading
    rwa [hlast.stored] at hclosed
  · rw [if_neg hbrace, if_neg hbrace]
    exact .pure (hbehind.skipToHeading .openBrace).keeps

/-! ### Descriptions -/

/-- A whole description: the induction is on what is unread, in the cases that reading it has. -/
theorem Sound.parseM (h : b.Sound) :
    WithoutLapse (b.parseM : m (Builder Table)) (Keeps · b.stored.parse) := by
  generalize hc : b.stored = c
  induction c using induction_parse generalizing b with
  | ended c hend =>
    subst hc
    rw [parseM_ended (b := b) hend, parse_ended hend]
    exact .pure ⟨h.fileAll _ _, stored_fileAll _ _ _⟩
  | beforeDevices c hend heading hheading hbefore =>
    subst hc
    rw [parseM_beforeDevices (b := b) hend hheading hbefore,
      parse_beforeDevices hend hheading hbefore]
    exact .pure (h.file _ _).keeps
  | heading c hend heading hheading hbefore ih =>
    subst hc
    rw [parseM_heading (b := b) hend hheading hbefore, parse_heading hend hheading hbefore]
    exact (h.parseSectionM heading).bind fun next hnext ↦ ih hnext.toSound hnext.stored
  | stray c hend hheading ih =>
    subst hc
    rw [parseM_stray (b := b) hend hheading, parse_stray hend hheading]
    exact ih (h.skipToHeading .heading) rfl

/-- Before anything is read there are no devices, and the ports have their names. -/
theorem sound_start (text : String) (settings : Settings) :
    (start (Ports.intern {}).2 (Table.empty {} settings) {} text).Sound where
  table := Table.inUse_empty {} settings
  reader := Reader.sound_start regular_portTable text
  named := by
    refine ⟨nofun, fun port hport ↦ isSome_string?_of_extends (extends_start text settings) ?_⟩
    have hname : (Ports.intern {}).2.string? port ∈
        (Ports.intern {}).1.all.map (Ports.intern {}).2.string? := List.mem_map_of_mem hport
    rw [Ports.map_string?_all] at hname
    obtain ⟨name, -, hname⟩ := List.mem_map.mp hname
    exact Option.isSome_of_eq_some hname.symm

/-- Whatever the text, building a table comes to what building a network comes to, and never makes
do with anything. -/
theorem keeps_buildM (text : String) (settings : Settings) :
    WithoutLapse (Circuit.buildM text settings : m (Builder Table))
      (Keeps · (Circuit.build text settings)) := by
  refine (congrArg (WithoutLapse · _) (pure_bind ..)).mpr ?_
  exact (sound_start text settings).parseM

end Builder

end Description

end Breadboard
