import Breadboard.Proofs.Description.Pacing
import Breadboard.Proofs.Description.Parsing
import Breadboard.Proofs.Description.Recovery

/-!
# Descriptions with strays

A description with strays among its connections is read like the description without them: there is
one report for each stray, and the name table, the network and the monitors are the same
(`strays_isolated`). Sections are taken one after another as before. New names come from the
`devices` section alone, which has no strays in it, so that both descriptions give out the same
numbers. Under one table there is one network that the schematic of both depicts.
-/

set_option autoImplicit false
set_option relaxedAutoImplicit false

namespace Breadboard.Description

open Attempt
open Builder (Reporting)

variable {settings : Settings} {b b' : Builder} {d : Draft} {r s : Reader}
  {u u' used more more' : List Symbol} {heading : Heading} {k : Nat}

/-! ### Where the table stays as it is -/

namespace Reader

theorem names_pull_of_ne_name {readings : List Reading}
    (h : (r.pull readings).current.lexeme ≠ .name) : (r.pull readings).names = r.names := by
  fun_induction pull r readings with
  | case1 => rfl
  | case2 r token rest => exact if_neg h
  | case3 r fault position rest ih => exact ih h

theorem names_advance_of_ne_name (h : r.advance.current.lexeme ≠ .name) :
    r.advance.names = r.names := by
  rw [advance] at h ⊢
  split at h
  · next hend => rw [if_pos hend]
  · next hend => rw [if_neg hend, names_pull_of_ne_name h]

theorem pull_of_query (hmode : r.mode = .query) (readings : List Reading) :
    (r.pull readings).names = r.names ∧ (r.pull readings).mode = .query := by
  fun_induction pull r readings with
  | case1 r => exact ⟨rfl, hmode⟩
  | case2 r token rest => exact ⟨names_standOn_of_query hmode token, hmode⟩
  | case3 r fault position rest ih => exact ih hmode

/-- While names are only looked up the table stays as it is. -/
theorem Reaches.names_of_query (h : r.Reaches s) (hmode : r.mode = .query) :
    s.names = r.names ∧ s.mode = .query := by
  induction h with
  | refl => exact ⟨rfl, hmode⟩
  | @advance s _ ih =>
    obtain ⟨hnames, hquery⟩ := ih
    rw [Reader.advance]
    split
    · exact ⟨hnames, hquery⟩
    · rw [← hnames]
      exact pull_of_query hquery s.rest
  | file _ _ _ ih => exact ih
  | @resolve s list _ ih =>
    obtain ⟨hnames, hquery⟩ := ih
    refine ⟨?_, hquery⟩
    dsimp only
    rw [hquery, Names.resolveAll_query_snd, hnames]

end Reader

theorem reader_fileAll (b : Builder) (faults : List Fault) (position : Text.Position) :
    (b.fileAll faults position).reader.names = b.reader.names ∧
      (b.fileAll faults position).reader.current = b.reader.current := by
  rw [Builder.fileAll]
  induction faults generalizing b with
  | nil => exact ⟨rfl, rfl⟩
  | cons fault faults ih => exact ih (b.file fault position)

/-- Where no name follows, the end of a section leaves the table as it is. -/
theorem names_close (h : (b.close heading).reader.current.lexeme ≠ .name) :
    (b.close heading).reader.names = b.reader.names := by
  rw [Builder.close_eq] at h ⊢
  rw [(reader_fileAll ..).2, Builder.passEnd] at h
  rw [(reader_fileAll ..).1, Builder.passEnd]
  split at h
  · next hbrace =>
    rw [if_pos hbrace]
    exact Reader.names_advance_of_ne_name h
  · next hbrace =>
    rw [if_neg hbrace]
    rfl

/-- A section other than `devices` leaves the table as it is. -/
theorem names_parseSection_of_query (hnew : heading ∉ b.seen)
    (hmode : Builder.modeOf heading = .query)
    (hbrace : b.reader.advance.current.lexeme = .openBrace)
    (hnext : (b.parseSection heading).reader.current.lexeme ≠ .name) :
    (b.parseSection heading).reader.names = b.reader.names := by
  have hnote : b.note heading = { b with seen := b.seen ++ [heading] } := if_neg hnew
  rw [parseSection_of_brace hnew hbrace] at hnext ⊢
  rw [names_close hnext]
  have hopened : b.reader.advance.names = b.reader.names :=
    Reader.names_advance_of_ne_name (hbrace ▸ nofun)
  have hbody : (opened b heading).reader.Reaches ((opened b heading).body heading).reader :=
    Builder.reaches_body heading _
  rw [← hopened]
  have hstart : ({ b.reader.advance with mode := .query } : Reader).Reaches
      (opened b heading).reader := by
    rw [opened, hnote, hmode]
    exact Reader.Reaches.refl.advance
  exact ((hstart.trans hbody).names_of_query rfl).1

/-! ### Sections with strays -/

theorem SectionStrewn.reporting {part : Section} (h : SectionStrewn d part u u' k)
    (hb : Shows settings .declare d b) (hnew : part.heading ∉ b.seen) (hproper : part.Proper)
    (hsymbols : b.reader.symbols = u' ++ more) (hallowed : Act.part.allowed d part) :
    Reporting k (Through settings part u' d) b (b.parseSection part.heading) := by
  cases h with
  | plain hspelled =>
    have hthrough := parseSection_complete hb hnew hproper hspelled hsymbols hallowed
    exact .of_quiet hthrough hb.ready.log hthrough.shows.ready.log
  | @connections blocks u u' k hblocks =>
    change .connections ∉ b.seen at hnew
    rw [List.append_assoc, List.append_assoc] at hsymbols
    have hheading := lexeme_of_sign hsymbols
    have hbrace := lexeme_of_sign (hb.ready.take hsymbols).2
    obtain ⟨hopen, hshows⟩ := hb.opened hheading hnew hbrace
    have hinside := List.append_cancel_left (hopen.symm.trans hsymbols)
    have hbody := blocks_strewn hblocks (Builder.unread_statement_lt consumes_blockHeader
      Builder.reaches_blockFor) (by rwa [Builder.hushed_of_quiet hshows.ready.log]) hproper hinside
      rfl hallowed.1
    have hclosed := close_complete hbody.hushed.shows (hbody.hushed.rest hinside) hallowed.2
    have hclose := (Builder.oblivious_close .connections).reporting_of_quiet hclosed
      hclosed.shows.ready.log
    have hbraced : b.hushed.reader.symbols = [.sign (.heading .connections), .sign .openBrace] ++
      (opened b .connections).hushed.reader.symbols := hopen
    rw [Section.heading, parseSection_of_brace hnew hbrace]
    refine ⟨.of_done hbraced (seen_opened hnew) hbody.hushed hclose.hushed, ?_⟩
    refine hclose.count.trans (hbody.count.trans ?_)
    rw [hshows.ready.log, hb.ready.log]

/-! ### Whole descriptions with strays -/

theorem SectionStrewn.exists_heading {part : Section} (h : SectionStrewn d part u u' k) :
    ∃ rest, u' = .sign (.heading part.heading) :: .sign .openBrace :: rest := by
  cases h with
  | plain hspelled =>
    cases hspelled
    exact ⟨_, rfl⟩
  | connections => exact ⟨_, rfl⟩

theorem front_ne_name_of_scriptStrewn {script : Script} (h : ScriptStrewn d script u u' k) :
    frontLexeme u' ≠ .name := by
  cases h with
  | nil => exact nofun
  | cons hpart _ =>
    obtain ⟨rest, rfl⟩ := hpart.exists_heading
    exact nofun

/-- A section with strays in it, other than `devices`, leaves the table as it is. -/
theorem names_sectionStrewn {part : Section} (h : SectionStrewn d part u u' k)
    (hb : Shows settings .declare d b) (hnew : part.heading ∉ b.seen)
    (hheading : part.heading ≠ .devices) (hsymbols : b.reader.symbols = u' ++ more)
    (hrest : (b.parseSection part.heading).reader.symbols = more)
    (hmore : frontLexeme more ≠ .name) :
    (b.parseSection part.heading).reader.names = b.reader.names := by
  have hmode : Builder.modeOf part.heading = .query := by
    cases part with
    | devices => exact absurd rfl hheading
    | _ => rfl
  obtain ⟨rest, rfl⟩ := h.exists_heading
  refine names_parseSection_of_query hnew hmode (lexeme_of_sign (hb.ready.take hsymbols).2) ?_
  rw [← Reader.frontLexeme_symbols, hrest]
  exact hmore

/-- What a description with strays comes to, from the draft that its rest starts at. Without a
`devices` section in the rest the table stays as it is. -/
structure Weathers (settings : Settings) (script : Script) (d : Draft) (b b' : Builder) : Prop where
  shows : Shows settings .declare (Act.script.after d script) b'
  kept : .devices ∉ script.map Section.heading → b'.reader.names = b.reader.names

theorem parse_strewn {script : Script} (h : ScriptStrewn d script u u' k)
    (hb : Shows settings .declare d b.hushed) (hsymbols : b.reader.symbols = u')
    (hcontinues : script.Continues b.seen) (hallowed : Act.script.allowed d script) :
    Reporting k (Weathers settings script d) b b.parse := by
  induction h generalizing b with
  | nil =>
    have hdevices : Heading.devices ∈ b.seen := List.mem_of_head? (by simpa using hcontinues.first)
    have hconnections : Heading.connections ∈ b.seen := by simpa using hcontinues.connections
    rw [Builder.parse_ended (symbols_eq_nil_iff.mp hsymbols),
      missing_eq_nil_iff.mpr ⟨hdevices, hconnections⟩]
    exact ⟨⟨hb, fun _ ↦ rfl⟩, rfl⟩
  | @cons d part script u u' v v' j k hpart hscript ih =>
    obtain ⟨hproper, hrest⟩ := Script.continues_cons_iff.mp hcontinues
    obtain ⟨hnew, hdue⟩ := hrest.due
    have hheading : b.reader.current.lexeme = .heading part.heading := by
      obtain ⟨rest, rfl⟩ := hpart.exists_heading
      exact lexeme_of_sign hsymbols
    have hoblivious := Builder.oblivious_parseSection part.heading
    have hsection := hpart.reporting hb hnew hproper hsymbols hallowed.1
    have hbehind : (b.hushed.parseSection part.heading).reader.symbols = v' :=
      List.append_cancel_left (hsection.hushed.symbols.symm.trans hsymbols)
    have hcarried : b.parseSection part.heading = _ := hoblivious.eq_carrying b
    have hstep := hoblivious.reporting hsection
    have hlater := ih hstep.hushed.shows (by rw [hcarried]; exact hbehind)
      (hstep.hushed.seen ▸ hrest) hallowed.2
    rw [parse_of_heading hheading hdue]
    refine ⟨⟨hlater.hushed.shows, fun hdevices ↦ ?_⟩, ?_⟩
    · rw [List.map_cons, List.mem_cons, not_or] at hdevices
      -- the next section starts with its heading, so that closing this one meets no name
      have hkept := names_sectionStrewn hpart hb hnew (Ne.symm hdevices.1) hsymbols hbehind
        (front_ne_name_of_scriptStrewn hscript)
      have hlast := hlater.hushed.kept hdevices.2
      simp only [Builder.reader_hushed, Reader.names_hushed] at hkept hlast ⊢
      rw [hlast, hcarried, Builder.reader_carrying, Reader.names_carrying, hkept]
    · rw [hlater.count, hstep.count, Nat.add_assoc]

/-! ### The `devices` section before them -/

theorem reader_opened_devices (hr : b.reader.advance.Ready .declare) (hnew : .devices ∉ b.seen) :
    (opened b .devices).reader = Reader.advance^[2] b.reader := by
  have hnote : b.note .devices = { b with seen := b.seen ++ [.devices] } := if_neg hnew
  have hmode : ({ b.reader.advance with mode := .declare } : Reader) = b.reader.advance := by
    rw [← hr.inForce]
  rw [opened, hnote]
  exact congrArg Reader.advance hmode

/-- A `devices` section in front of a builder is opened, and the symbol behind the brace is met. -/
theorem devices_opened (hb : Shows settings .declare d b) (hnew : .devices ∉ b.seen)
    (hsymbols : b.reader.symbols = [.sign (.heading .devices), .sign .openBrace] ++ more) :
    Shows settings .declare d (opened b .devices) ∧ (opened b .devices).reader.symbols = more ∧
      (opened b .devices).reader.names =
        b.reader.names.meetAll .declare (namesIn [frontSymbol more]) := by
  obtain ⟨hfirst, hrest⟩ := hb.ready.take hsymbols
  obtain ⟨hopen, hshows⟩ := hb.opened (lexeme_of_sign hsymbols) hnew (lexeme_of_sign hrest)
  refine ⟨hshows, List.append_cancel_left (hopen.symm.trans hsymbols), ?_⟩
  rw [reader_opened_devices hfirst.ready hnew]
  exact hb.ready.names_iterate_advance hsymbols

/-- Where a `devices` section is opened its sentences meet some names, whatever stands behind them;
the symbol behind them is met as well. -/
theorem exists_met_opened {sentences : List Sentence}
    (hspelled : Spelled SentenceSpelled sentences u)
    (hallowed : Act.introduce.each.allowed d sentences) :
    ∃ met, ∀ {b : Builder} {symbol : Symbol} {more : List Symbol}, Shows settings .declare d b →
      .devices ∉ b.seen → b.reader.symbols =
        [.sign (.heading .devices), .sign .openBrace] ++ (u ++ symbol :: more) →
      ∃ b₁, (opened b .devices).body .devices = b₁.body .devices ∧
        Done settings .declare u (Act.introduce.each.after d sentences) (opened b .devices) b₁ ∧
        b₁.reader.names = b.reader.names.meetAll .declare (met ++ namesIn [symbol]) := by
  cases hspelled with
  | nil =>
    refine ⟨[], fun hb hnew hsymbols ↦ ?_⟩
    obtain ⟨hshows, -, hnames⟩ := devices_opened hb hnew hsymbols
    exact ⟨_, rfl, .refl hshows, hnames⟩
  | cons hsentence hrest =>
    obtain ⟨met, -, hlater⟩ := exists_met_of_sentences (.cons hsentence hrest) hallowed
    obtain ⟨first, rest, rfl⟩ := exists_name_of_sentence hsentence
    refine ⟨first :: met, fun hb hnew hsymbols ↦ ?_⟩
    obtain ⟨hshows, hinside, hnames⟩ := devices_opened hb hnew hsymbols
    obtain ⟨b₁, hbody, hdone, hmet⟩ := hlater hshows hinside
    refine ⟨b₁, hbody, hdone, ?_⟩
    rw [hmet, hnames, ← Names.meetAll_append]
    rfl

/-- Where a `devices` section ends the table stays as it is. -/
theorem names_parseSection_of_body {b₁ : Builder} {used : List Symbol}
    {sentences : List Sentence} (hb : Shows settings .declare d b) (hnew : .devices ∉ b.seen)
    (hspelled : Spelled SentenceSpelled sentences used)
    (hsymbols : b.reader.symbols =
      [.sign (.heading .devices), .sign .openBrace] ++ (used ++ .sign .closeBrace :: more))
    (hallowed : Act.part.allowed d (.devices sentences)) (hmore : frontLexeme more ≠ .name)
    (hbody : (opened b .devices).body .devices = b₁.body .devices)
    (hinside : b₁.reader.symbols = .sign .closeBrace :: more) :
    (b.parseSection .devices).reader.names = b₁.reader.names := by
  have hend : b₁.body .devices = b₁ := by
    rw [Builder.body_eq]
    exact Builder.untilSectionEnd_of_end (atSectionEnd_of_front _ (hinside ▸ rfl))
  have hthrough : Through settings (.devices sentences) _ d b (b.parseSection .devices) :=
    parseSection_complete hb hnew trivial (.intro hspelled)
      (by simpa [Section.heading] using hsymbols) hallowed
  have hnext : (b.parseSection .devices).reader.symbols = more := by
    refine List.append_cancel_left (hthrough.symbols.symm.trans ?_)
    simpa [Section.heading] using hsymbols
  rw [parseSection_of_brace hnew (lexeme_of_sign (hb.ready.take hsymbols).2), hbody, hend]
    at hnext ⊢
  refine names_close ?_
  rw [← Reader.frontLexeme_symbols, hnext]
  exact hmore

/-- A `devices` section meets some names, whatever follows it. -/
theorem exists_met_of_devices {sentences : List Sentence}
    (hspelled : SectionSpelled (.devices sentences) used)
    (hallowed : Act.part.allowed d (.devices sentences)) :
    ∃ met, ∀ {b : Builder} {more : List Symbol}, Shows settings .declare d b →
      .devices ∉ b.seen → b.reader.symbols = used ++ more → frontLexeme more ≠ .name →
        (b.parseSection .devices).reader.names = b.reader.names.meetAll .declare met := by
  cases hspelled with | @intro u hbody =>
  obtain ⟨met, hmet⟩ := exists_met_opened hbody hallowed.1
  refine ⟨met, fun hb hnew hsymbols hmore ↦ ?_⟩
  rw [List.append_assoc, List.append_assoc] at hsymbols
  obtain ⟨b₁, hbody₁, hdone, hnames⟩ := hmet hb hnew hsymbols
  obtain ⟨-, hinside, -⟩ := devices_opened hb hnew hsymbols
  rw [names_parseSection_of_body hb hnew hbody hsymbols hallowed hmore hbody₁
    (hdone.rest hinside), hnames]
  exact congrArg _ (List.append_nil met)

/-- A description from its start, where new names come from its first section alone. -/
theorem parse_of_devices {sentences : List Sentence} {script : Script}
    (hb : Shows settings .declare {} b) (hseen : b.seen = [])
    (hspelled : SectionSpelled (.devices sentences) used)
    (h : ScriptStrewn (Act.part.after {} (.devices sentences)) script u u' k)
    (hsymbols : b.reader.symbols = used ++ u')
    (horder : Script.InOrder (.devices sentences :: script))
    (hallowed : Act.script.allowed {} (.devices sentences :: script)) :
    b.parse.reader.log.length = k ∧
      b.parse.reader.names = (b.parseSection .devices).reader.names ∧
      Shows settings .declare (Act.script.after {} (.devices sentences :: script))
        b.parse.hushed := by
  obtain ⟨-, hrest⟩ := Script.continues_cons_iff.mp (Script.continues_nil_iff.mpr horder)
  have hthrough : Through settings (.devices sentences) used {} b (b.parseSection .devices) :=
    parseSection_complete hb (hseen ▸ List.not_mem_nil) trivial hspelled hsymbols hallowed.1
  have hquiet := hthrough.shows.ready.log
  have hheading : b.reader.current.lexeme = .heading .devices := by
    cases hspelled
    exact lexeme_of_sign hsymbols
  have hlater := parse_strewn h ((Builder.hushed_of_quiet hquiet).symm ▸ hthrough.shows)
    (List.append_cancel_left (hthrough.symbols.symm.trans hsymbols))
    (hthrough.seen ▸ hseen ▸ hrest) hallowed.2
  rw [parse_of_heading hheading fun h ↦ h.1 rfl]
  refine ⟨?_, hlater.hushed.kept (List.nodup_cons.mp horder.distinct).1, hlater.hushed.shows⟩
  refine hlater.count.trans ?_
  rw [hquiet, List.length_nil, Nat.zero_add]

/-- Two builders with a script in front of them, the second with strays in it. -/
theorem parse_alike {script : Script} (hb : Shows settings .declare {} b)
    (hb' : Shows settings .declare {} b') (hnames : b'.reader.names = b.reader.names)
    (hseen : b.seen = []) (hseen' : b'.seen = []) (h : ScriptStrewn {} script u u' k)
    (hsymbols : b.reader.symbols = u) (hsymbols' : b'.reader.symbols = u')
    (horder : script.InOrder) (hallowed : Act.script.allowed {} script) :
    b'.parse.reader.log.length = k ∧ b'.parse.reader.names = b.parse.reader.names ∧
      Shows settings .declare (Act.script.after {} script) b.parse.hushed ∧
        Shows settings .declare (Act.script.after {} script) b'.parse.hushed := by
  cases h with
  | nil => exact nomatch horder.first
  | @cons _ part script u u' v v' j k hpart hscript =>
    have hdevices : part.heading = .devices := Option.some_inj.mp horder.first
    cases part with
    | devices sentences =>
      cases hpart with | plain hspelled =>
      have hbare := scriptStrewn_zero hscript
      obtain ⟨-, hkept, hshows⟩ :=
        parse_of_devices hb hseen hspelled hbare hsymbols horder hallowed
      obtain ⟨hcount, hkept', hshows'⟩ :=
        parse_of_devices hb' hseen' hspelled hscript hsymbols' horder hallowed
      refine ⟨by rw [hcount, Nat.zero_add], ?_, hshows, hshows'⟩
      obtain ⟨met, hmet⟩ := exists_met_of_devices hspelled hallowed.1
      rw [hkept, hkept', hmet hb (hseen ▸ List.not_mem_nil) hsymbols
        (front_ne_name_of_scriptStrewn hbare), hmet hb' (hseen' ▸ List.not_mem_nil) hsymbols'
        (front_ne_name_of_scriptStrewn hscript), hnames]
    | _ => cases hdevices

/-! ### Texts -/

/-- A text that is accepted as a script: it spells the script, whose sections are in order and which
is allowed from beginning to end. -/
structure Says (text : String) (script : Script) : Prop where
  spelled : ∃ symbols, Scans text symbols ∧ ScriptSpelled script symbols
  inOrder : script.InOrder
  allowed : Act.script.allowed {} script

/-- A text that says a script, and the text that it becomes when so many strays are put between the
statements of its blocks. -/
def Littered (script : Script) (text text' : String) (count : Nat) : Prop :=
  ∃ symbols symbols', Scans text symbols ∧ Scans text' symbols' ∧
    ScriptStrewn {} script symbols symbols' count

variable {text text' : String}

theorem exists_says_of_denotes {s : Schematic} (h : Denotes text s) :
    ∃ script, Says text script := by
  obtain ⟨tokens, script, htokens, hspelled, horder, hallowed, -⟩ := h
  refine ⟨script, ⟨_, ?_, hspelled⟩, horder, hallowed⟩
  rw [Scans, htokens, List.map_map, List.map_map]
  rfl

/-- A text that is scanned without a fault, before anything is read of it. -/
theorem Scans.shows_start {symbols : List Symbol} (h : Scans text symbols)
    (hfront : frontLexeme symbols ≠ .name) (settings : Settings) :
    Shows settings .declare {} (fresh text settings) ∧
      (fresh text settings).reader.symbols = symbols ∧
      (fresh text settings).reader.names = portTable.2 := by
  obtain ⟨tokens, htokens, rfl⟩ := h.exists_tokens
  have hsymbols := symbols_start htokens settings
  refine ⟨Description.shows_start settings (flawless_of_tokens htokens), hsymbols, ?_⟩
  refine Reader.names_pull_of_ne_name ?_
  rw [← hsymbols, Reader.frontLexeme_symbols] at hfront
  exact hfront

/-- Errors in connections are isolated. A text that is accepted says a script. Whatever strays are
put between the statements of its blocks, one report is filed for each of them, and the network, the
monitors and the name table are what they are without them.

Assumes: the text without strays is accepted. -/
theorem strays_isolated {text : String} {settings : Settings}
    (h : (Circuit.build text settings).inOrder = true) :
    (∃ script, Says text script) ∧ ∀ script text' count, Says text script →
      Littered script text text' count →
        ((Circuit.build text' settings).diagnostics text').length = count ∧
        (Circuit.build text' settings).network = (Circuit.build text settings).network ∧
        (Circuit.build text' settings).monitors = (Circuit.build text settings).monitors ∧
        (Circuit.build text' settings).reader.names =
          (Circuit.build text settings).reader.names := by
  have hquiet : (Circuit.build text settings).reader.log = [] := List.isEmpty_iff.mp h
  obtain ⟨d, hdenotes, -⟩ := denotes_of_quiet hquiet
  refine ⟨exists_says_of_denotes hdenotes, ?_⟩
  rintro script text' count hscript ⟨symbols, symbols', hscans, hscans', hstrewn⟩
  obtain ⟨hb, hsymbols, hnames⟩ :=
    hscans.shows_start (front_ne_name_of_scriptStrewn (scriptStrewn_zero hstrewn)) settings
  obtain ⟨hb', hsymbols', hnames'⟩ :=
    hscans'.shows_start (front_ne_name_of_scriptStrewn hstrewn) settings
  obtain ⟨hcount, htable, hshows, hshows'⟩ := parse_alike hb hb' (hnames'.trans hnames.symm) rfl rfl
    hstrewn hsymbols hsymbols' hscript.inOrder hscript.allowed
  rw [← build_eq] at hcount htable hshows hshows'
  -- both networks depict the same draft under the same table, and only one network does
  have hdepicts := hshows'.depicts
  change Depicts settings (Circuit.build text' settings).reader.names _ _ _ at hdepicts
  rw [htable] at hdepicts
  obtain ⟨hnetwork, hmonitors⟩ := hdepicts.unique hshows.ready.names.faithful hshows.depicts
  exact ⟨(List.length_map _).trans hcount, hnetwork, hmonitors, htable⟩

/-! ### A switch that drives a gate -/

/-- A switch and a gate. -/
def inverterParts : Section :=
  .devices [⟨.several "A" [], .define .switch⟩, ⟨.several "N" [], .define (.gate .not)⟩]

/-- The connection between them. -/
def inverterLink : Link :=
  ⟨⟨"A", none⟩, "N", "I1"⟩

def inverterScript : Script :=
  [inverterParts, .connections [⟨"N", [inverterLink]⟩]]

def inverter : String :=
  "devices { A is SWITCH; N is NOT; } connections { device N { A to N.I1; } }"

/-- The same with a connection from a device that is not there, one that is made twice, and a word
that says nothing. -/
def litteredInverter : String :=
  "devices { A is SWITCH; N is NOT; } " ++
  "connections { device N { B to N.I1; A to N.I1; A to N.I1; to; } }"

theorem strewn_inverterLink : LinksStrewn "N" (Act.part.after {} inverterParts).schematic
    [inverterLink]
    ((⟨⟨"B", none⟩, "N", "I1"⟩ : Link).symbols ++ (inverterLink.symbols ++ (inverterLink.symbols ++
      ([.keyword .toWord, .sign .semicolon] ++ [])))) 3 := by
  refine .stray (stray_of_link ?_) (.link (.stray (stray_of_link ?_) (.stray ⟨?_, ?_⟩ .nil)))
  · rintro ⟨⟨part, hpart, -⟩, -⟩
    cases hpart
  · rintro ⟨-, part, inlet, hpart, hinlet, hopen⟩
    cases hpart
    cases hinlet
    cases hopen
  · exact ⟨[.keyword .toWord], rfl, by simp [Symbol.inside_keyword]⟩
  · rintro ⟨⟨device, _ | port⟩, target, input⟩ hsymbols
    · cases hsymbols
    · cases hsymbols

theorem littered_inverter : Littered inverterScript inverter litteredInverter 3 := by
  have hswitch : KindSpelled .switch [.name "SWITCH"] := .word (by decide)
  have hgate : KindSpelled (.gate .not) [.name "NOT"] := .word (by decide)
  have hparts : SectionSpelled inverterParts _ :=
    .intro (.cons (.intro (.define (.inl rfl) hswitch))
      (.cons (.intro (.define (.inl rfl) hgate)) .nil))
  have hstrewn : ScriptStrewn {} inverterScript _ _ (0 + (3 + 0 + 0)) :=
    .cons (.plain hparts) (.cons (.connections (.cons (.intro strewn_inverterLink) .nil)) .nil)
  refine ⟨_, _, ?_, ?_, hstrewn⟩
  · decide +kernel
  · decide +kernel

theorem says_inverter : Says inverter inverterScript where
  spelled := by
    obtain ⟨symbols, _, hscans, -, hstrewn⟩ := littered_inverter
    exact ⟨symbols, hscans, Strewn.spelled (fun _ _ _ _ _ h ↦ h.spelled) hstrewn⟩
  inOrder := by
    refine ⟨?_, rfl, by decide, by decide⟩
    simp [inverterScript, inverterParts, Section.Proper, inverterLink]
  allowed := by
    refine ⟨⟨⟨⟨nofun, ["A"], rfl, rfl, trivial⟩, ⟨nofun, ["N"], rfl, rfl, trivial⟩, trivial⟩, ?_⟩,
      ⟨⟨⟨rfl, ⟨⟨_, rfl, rfl⟩, _, _, rfl, rfl, rfl⟩, trivial⟩, trivial⟩, ?_⟩, trivial⟩
    · change Schematic.HasInputs _
      unfold Schematic.HasInputs
      decide
    · change Schematic.IsConnected _
      unfold Schematic.IsConnected
      decide

theorem litteredInverter_isolated :
    (Circuit.build inverter {}).inOrder = true ∧
      ((Circuit.build litteredInverter {}).diagnostics litteredInverter).length = 3 ∧
      (Circuit.build litteredInverter {}).network = (Circuit.build inverter {}).network ∧
      (Circuit.build litteredInverter {}).monitors = (Circuit.build inverter {}).monitors ∧
      (Circuit.build litteredInverter {}).reader.names =
        (Circuit.build inverter {}).reader.names := by
  have hquiet : (Circuit.build inverter {}).inOrder = true := by decide +kernel
  exact ⟨hquiet, (strays_isolated hquiet).2 _ _ _ says_inverter littered_inverter⟩

end Breadboard.Description
