import Breadboard.Circuit
import Breadboard.Proofs.Description.Sections

/-!
# Whole descriptions

A description about which nothing is filed is one that denotes a schematic, and the network that is
built of it is the one that the schematic depicts.
-/

set_option autoImplicit false
set_option relaxedAutoImplicit false

namespace Breadboard.Description

variable {settings : Settings} {b : Builder} {d : Draft} {text : String}

/-! ### Sections one after another -/

/-- What is left of a script whose sections are in order, when some headings have been passed. -/
structure Script.Continues (seen : List Heading) (script : Script) : Prop where
  proper : ∀ part ∈ script, part.Proper
  first : (seen ++ script.map Section.heading).head? = some .devices
  distinct : (seen ++ script.map Section.heading).Nodup
  connections : .connections ∈ seen ++ script.map Section.heading

theorem Script.continues_nil_iff {script : Script} : script.Continues [] ↔ script.InOrder :=
  ⟨fun h ↦ ⟨h.proper, h.first, h.distinct, h.connections⟩,
    fun h ↦ ⟨h.proper, h.first, h.distinct, h.connections⟩⟩

theorem Script.continues_cons_iff {seen : List Heading} {part : Section} {script : Script} :
    Script.Continues seen (part :: script) ↔
      part.Proper ∧ Script.Continues (seen ++ [part.heading]) script := by
  have happend : seen ++ (part :: script).map Section.heading =
      seen ++ [part.heading] ++ script.map Section.heading := by simp
  constructor
  · rintro ⟨hproper, hfirst, hdistinct, hconnections⟩
    obtain ⟨hpart, hscript⟩ := List.forall_mem_cons.mp hproper
    rw [happend] at hfirst hdistinct hconnections
    exact ⟨hpart, hscript, hfirst, hdistinct, hconnections⟩
  · rintro ⟨hpart, hscript, hfirst, hdistinct, hconnections⟩
    rw [← happend] at hfirst hdistinct hconnections
    exact ⟨List.forall_mem_cons.mpr ⟨hpart, hscript⟩, hfirst, hdistinct, hconnections⟩

/-- Headings that have been passed in order: `devices` first, and none twice. -/
structure Passed (seen : List Heading) : Prop where
  first : ∀ heading ∈ seen.head?, heading = .devices
  distinct : seen.Nodup

theorem missing_eq_nil_iff :
    b.missing = [] ↔ .devices ∈ b.seen ∧ .connections ∈ b.seen := by
  rw [Builder.missing, List.map_eq_nil_iff, List.filter_eq_nil_iff]
  simp

theorem Passed.head?_eq {seen : List Heading} (h : Passed seen) (hmem : .devices ∈ seen) :
    seen.head? = some .devices := by
  cases seen with
  | nil => cases hmem
  | cons heading seen => rw [List.head?_cons, h.first heading rfl]

theorem Passed.append {seen : List Heading} (h : Passed seen) {heading : Heading}
    (hnew : heading ∉ seen) (hdue : ¬(heading ≠ .devices ∧ .devices ∉ seen)) :
    Passed (seen ++ [heading]) := by
  refine ⟨fun first hfirst ↦ ?_, ?_⟩
  · cases seen with
    | nil =>
      obtain rfl := Option.some_inj.mp hfirst
      by_contra hne
      exact hdue ⟨hne, List.not_mem_nil⟩
    | cons other seen => exact h.first first hfirst
  · exact List.nodup_append.mpr ⟨h.distinct, List.nodup_singleton heading, by
      rintro _ hmem _ hlast rfl
      exact hnew (List.mem_singleton.mp hlast ▸ hmem)⟩

/-- In a script that is in order a section is new where it stands, and not before `devices`. -/
theorem Script.Continues.due {seen : List Heading} {heading : Heading} {script : Script}
    (h : Script.Continues (seen ++ [heading]) script) :
    heading ∉ seen ∧ ¬(heading ≠ .devices ∧ .devices ∉ seen) := by
  constructor
  · have hdistinct := h.distinct.of_append_left
    exact fun hmem ↦ (List.nodup_append.mp hdistinct).2.2 _ hmem _ (List.mem_singleton_self _) rfl
  · rintro ⟨hne, hmissing⟩
    have hfirst := h.first
    cases seen with
    | nil => exact hne (Option.some_inj.mp hfirst)
    | cons other seen => exact hmissing (Option.some_inj.mp hfirst ▸ List.mem_cons_self)

theorem symbols_eq_nil_iff {r : Reader} : r.symbols = [] ↔ r.atEnd = true := by
  rw [Reader.symbols]
  split <;> simp_all

theorem lexeme_of_heading? {lexeme : Lexeme} {heading : Heading}
    (h : lexeme.heading? = some heading) : lexeme = .heading heading := by
  cases lexeme <;> cases h
  rfl

/-- A description about which nothing is filed is a script that is in order and allowed. -/
theorem parse_sound (hb : Shows settings .declare d b) (hseen : Passed b.seen)
    (hquiet : b.parse.reader.log = []) :
    ∃ script : Script, ScriptSpelled script b.reader.symbols ∧ script.Continues b.seen ∧
      Act.script.allowed d script ∧
        Shows settings .declare (Act.script.after d script) b.parse := by
  induction b using Builder.induction_parse generalizing d with
  | ended b hend =>
    rw [Builder.parse_ended hend] at hquiet ⊢
    obtain ⟨-, hmissing⟩ := log_fileAll_eq_nil hquiet
    obtain ⟨hdevices, hconnections⟩ := missing_eq_nil_iff.mp hmissing
    rw [hmissing]
    refine ⟨[], symbols_eq_nil_iff.mpr hend ▸ .nil,
      ⟨List.forall_mem_nil _, ?_, ?_, ?_⟩, trivial, hb⟩
    · simpa using hseen.head?_eq hdevices
    · simpa using hseen.distinct
    · simpa using hconnections
  | beforeDevices b hend heading hheading hearly =>
    rw [Builder.parse_beforeDevices hend hheading hearly] at hquiet
    exact (log_file_ne _ _ _ hquiet).elim
  | heading b hend heading hheading hdue ih =>
    rw [Builder.parse_heading hend hheading hdue] at hquiet ⊢
    obtain ⟨hnew, part, used, rfl, hspelled, hproper, hallowed, hthrough⟩ :=
      parseSection_sound hb (lexeme_of_heading? hheading)
        (by_contra fun h ↦ lasting_filed.parse h hquiet)
    obtain ⟨script, hscript, hcontinues, hallowed', hshows⟩ :=
      ih hthrough.shows (hthrough.seen ▸ hseen.append hnew hdue) hquiet
    rw [hthrough.seen] at hcontinues
    exact ⟨part :: script, hthrough.symbols ▸ .cons hspelled hscript,
      Script.continues_cons_iff.mpr ⟨hproper, hcontinues⟩, ⟨hallowed, hallowed'⟩, hshows⟩
  | stray b hend hheading ih =>
    rw [Builder.parse_stray hend hheading] at hquiet
    refine (lasting_filed.parse ?_ hquiet).elim
    exact lasting_filed.reaches (Reader.reaches_skipTo _ _) (log_file_ne _ _ _)

theorem parse_of_heading {heading : Heading} (hheading : b.reader.current.lexeme = .heading heading)
    (hdue : ¬(heading ≠ .devices ∧ .devices ∉ b.seen)) :
    b.parse = (b.parseSection heading).parse := by
  have hend : ¬ b.reader.atEnd = true := by
    rw [Reader.atEnd, hheading]
    exact Bool.false_ne_true
  exact Builder.parse_heading hend (congrArg Lexeme.heading? hheading) hdue

/-- A script that is in order and allowed is read without a complaint. -/
theorem parse_complete {script : Script} {used : List Symbol} (hb : Shows settings .declare d b)
    (hspelled : ScriptSpelled script used) (hsymbols : b.reader.symbols = used)
    (hcontinues : script.Continues b.seen) (hallowed : Act.script.allowed d script) :
    Shows settings .declare (Act.script.after d script) b.parse := by
  induction hspelled generalizing b d with
  | nil =>
    have hdevices : Heading.devices ∈ b.seen := List.mem_of_head? (by simpa using hcontinues.first)
    have hconnections : Heading.connections ∈ b.seen := by simpa using hcontinues.connections
    rw [Builder.parse_ended (symbols_eq_nil_iff.mp hsymbols),
      missing_eq_nil_iff.mpr ⟨hdevices, hconnections⟩]
    exact hb
  | @cons part script u v hpart hscript ih =>
    obtain ⟨hproper, hrest⟩ := Script.continues_cons_iff.mp hcontinues
    obtain ⟨hnew, hdue⟩ := hrest.due
    have hthrough := parseSection_complete hb hnew hproper hpart hsymbols hallowed.1
    have hheading : b.reader.current.lexeme = .heading part.heading := by
      cases hpart
      exact Attempt.lexeme_of_sign hsymbols
    have hsection := hthrough.symbols
    rw [hsymbols] at hsection
    rw [parse_of_heading hheading hdue]
    exact ih hthrough.shows (List.append_cancel_left hsection).symm (hthrough.seen ▸ hrest)
      hallowed.2

/-! ### The start -/

section Start

theorem entries_portTable : portTable.2.entries = ({} : Draft).met.map some := by
  decide

/-- Before anything is read the table holds the port names. -/
theorem has_portTable_iff {name : String} : portTable.2.Has name ↔ name ∈ ({} : Draft).met := by
  rw [Names.has_iff_mem, entries_portTable, List.mem_map]
  simp

theorem regular_portTable : Regular portTable.2 where
  faithful := Names.faithful_of_nodup (by decide)
  identifiers name hname := by
    have hall : ∀ name ∈ ({} : Draft).met, IsIdentifier name := by decide
    exact hall name (has_portTable_iff.mp hname)

/-- The builder at the first token of a text, over fresh tables. -/
def fresh (text : String) (settings : Settings) : Builder :=
  .start portTable.2 { ports := portTable.1, settings } {} text

/-- A text without lexical faults, before anything is read. -/
theorem shows_start (settings : Settings)
    (hflawless : Reader.Flawless (Cursor.start text).readings.1) :
    Shows settings .declare {} (fresh text settings) := by
  let first : Reader :=
    { names := portTable.2, current := .finish (Cursor.start text).readings.2, rest := []
      finish := (Cursor.start text).readings.2 }
  change Shows settings .declare {}
    { reader := first.pull (Cursor.start text).readings.1
      network := { ports := portTable.1, settings } }
  have hnames := first.names_pull (Cursor.start text).readings.1
  have hgrown : portTable.2.Extends (first.pull (Cursor.start text).readings.1).names :=
    hnames ▸ first.extends_standOn _
  refine ⟨Reader.ready_pull rfl rfl regular_portTable hflawless, ?_, Schematic.coherent_empty,
    nofun, fun name hname ↦ hgrown.has (has_portTable_iff.mpr hname), fun name hname ↦ ?_⟩
  · exact ⟨rfl, rfl, hgrown, List.nodup_nil, .nil, .nil⟩
  · rw [hnames] at hname
    rcases Reader.has_of_has_standOn hname with hport | hcurrent
    · exact .inl (has_portTable_iff.mp hport)
    · exact .inr (.inr ⟨rfl, hcurrent⟩)

theorem build_eq (text : String) (settings : Settings) :
    Circuit.build text settings = (fresh text settings).parse := rfl

end Start

/-! ### Texts and what they denote -/

section Tokens

variable {readings : List Reading}

theorem exists_tokens (h : Reader.Flawless readings) :
    ∃ tokens : List Token, readings = tokens.map Reading.token := by
  induction readings with
  | nil => exact ⟨[], rfl⟩
  | cons reading readings ih =>
    obtain ⟨token, rfl, -⟩ := h reading List.mem_cons_self
    obtain ⟨tokens, rfl⟩ := ih fun other hother ↦ h other (List.mem_cons_of_mem _ hother)
    exact ⟨token :: tokens, rfl⟩

theorem flawless_of_tokens {tokens : List Token}
    (htokens : (Cursor.start text).readings.1 = tokens.map Reading.token) :
    Reader.Flawless (Cursor.start text).readings.1 := by
  intro reading hreading
  obtain ⟨token, -, rfl⟩ := List.mem_map.mp (htokens ▸ hreading)
  exact ⟨token, rfl, Cursor.proper_of_mem_readings _ hreading⟩

/-- The symbols in front of a reader at the start of a text are those of its tokens. -/
theorem symbols_start {tokens : List Token}
    (htokens : (Cursor.start text).readings.1 = tokens.map Reading.token) (settings : Settings) :
    (fresh text settings).reader.symbols = tokens.map Token.symbol := by
  have hpull : (Reader.start portTable.2 text).symbols =
      (Cursor.start text).readings.1.filterMap Reading.symbol? :=
    Reader.symbols_pull _ (flawless_of_tokens htokens)
  refine hpull.trans ?_
  rw [htokens, List.filterMap_map, ← List.filterMap_eq_map]
  rfl

end Tokens

/-- A description about which nothing is filed denotes the schematic that shows what is built. -/
theorem denotes_of_quiet (hquiet : (Circuit.build text settings).reader.log = []) :
    ∃ d : Draft, Denotes text d.schematic ∧
      Shows settings .declare d (Circuit.build text settings) := by
  rw [build_eq] at hquiet ⊢
  have hflawless := Reader.flawless_of_quiet hquiet
  obtain ⟨tokens, htokens⟩ := exists_tokens hflawless
  obtain ⟨script, hspelled, hcontinues, hallowed, hshows⟩ :=
    parse_sound (shows_start settings hflawless) ⟨nofun, List.nodup_nil⟩ hquiet
  rw [symbols_start htokens] at hspelled
  exact ⟨_, ⟨tokens, script, htokens, hspelled, Script.continues_nil_iff.mp hcontinues, hallowed,
    rfl⟩, hshows⟩

/-- A description that denotes a schematic is read without a complaint, and the schematic shows what
is built. -/
theorem shows_of_denotes {s : Schematic} (h : Denotes text s) (settings : Settings) :
    ∃ d : Draft, d.schematic = s ∧ Shows settings .declare d (Circuit.build text settings) := by
  obtain ⟨tokens, script, htokens, hspelled, horder, hallowed, rfl⟩ := h
  exact ⟨_, rfl, parse_complete (shows_start settings (flawless_of_tokens htokens)) hspelled
    (symbols_start htokens settings) (Script.continues_nil_iff.mpr horder) hallowed⟩

end Breadboard.Description
