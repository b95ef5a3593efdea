import Breadboard.Proofs.Description.Layout
import Breadboard.Proofs.Description.PartSettings

/-!
# Descriptions with their `init` section merged into their `devices` section

What an `init` section sets may be said at the end of the `devices` section as well
(`init_at_the_end_of_devices`). The sections between the two leave alone what is set, so that they
may as well come after it (`Act.allowed_merged`). All names in an `init` section were met before,
and they are met again without a change to the table (`names_merged`).
-/

set_option autoImplicit false
set_option relaxedAutoImplicit false

namespace Breadboard.Description

open Attempt

/-! ### Sentences of either section -/

namespace Act

variable {d : Draft} {sentences : List Sentence}

theorem allowed_introduce_iff :
    introduce.each.allowed d sentences ↔ sentence.each.allowed d.schematic sentences := by
  induction sentences generalizing d with
  | nil => exact Iff.rfl
  | cons item sentences ih => exact and_congr_right fun _ ↦ ih

theorem schematic_introduce : (introduce.each.after d sentences).schematic =
    sentence.each.after d.schematic sentences := by
  induction sentences generalizing d with
  | nil => rfl
  | cons item sentences ih => exact ih

theorem schematic_adjust : (adjust.each.after d sentences).schematic =
    sentence.each.after d.schematic sentences := by
  have hdrawn : sentence.drawn.each.after d sentences = _ := after_each_drawn
  exact congrArg Draft.schematic hdrawn

theorem allowed_of_adjust (h : adjust.each.allowed d sentences) :
    sentence.each.allowed d.schematic sentences := by
  induction sentences generalizing d with
  | nil => trivial
  | cons item sentences ih => exact ⟨h.1.2, ih h.2⟩

/-- Where the names of all parts were met, sentences of an `init` section bring none that was
not. -/
theorem met_of_adjust (hparts : ∀ name ∈ d.schematic.parts.map Part.name, name ∈ d.met)
    (hfits : ∀ item ∈ sentences, FitsInit item.clause) (h : adjust.each.allowed d sentences) :
    ∀ item ∈ sentences, ∀ name ∈ item.names.met, name ∈ d.met := by
  induction sentences generalizing d with
  | nil => exact nofun
  | cons item sentences ih =>
    obtain ⟨hfit, hlater⟩ := List.forall_mem_cons.mp hfits
    obtain ⟨⟨hwritten, -, names, hnames, hallowed⟩, hrest⟩ := h
    refine List.forall_mem_cons.mpr ⟨fun name hname ↦ ?_, ?_⟩
    · rcases List.mem_append.mp hname with hname | hname
      · exact hwritten name hname
      · rw [hnames, Option.getD_some] at hname
        exact hparts name (mem_names_of_allowed hfit hallowed hname)
    · have hkept : (adjust.after d item).schematic.parts.map Part.name =
          d.schematic.parts.map Part.name := names_sentence_of_fits hfit d.schematic
      exact ih (d := adjust.after d item) (by rwa [hkept]) hlater hrest

end Act

/-! ### Scripts -/

variable {declared settled : List Sentence} {before after : Script}

/-- The sections of a script other than `devices` and `init`. -/
theorem Script.InOrder.others
    (h : Script.InOrder (.devices declared :: (before ++ .init settled :: after))) :
    ∀ part ∈ before ++ after, part.heading ≠ .devices ∧ part.heading ≠ .init := by
  have hdistinct := h.distinct
  rw [List.map_cons, List.map_append, List.map_cons, List.nodup_cons, List.nodup_middle,
    List.nodup_cons, ← List.map_append] at hdistinct
  obtain ⟨hdevices, hinit, -⟩ := hdistinct
  refine fun part hpart ↦ ⟨fun hheading ↦ hdevices ?_, fun hheading ↦ hinit ?_⟩
  · rw [List.mem_append, List.mem_cons, or_left_comm, ← List.mem_append, ← List.map_append]
    exact .inr (List.mem_map.mpr ⟨part, hpart, hheading⟩)
  · exact List.mem_map.mpr ⟨part, hpart, hheading⟩

/-- These sections have nothing to do with what is set. -/
theorem Script.InOrder.indifferent
    (h : Script.InOrder (.devices declared :: (before ++ .init settled :: after))) :
    Act.part.each.Indifferent before ∧ Act.part.each.Indifferent after := by
  obtain ⟨hbefore, hafter⟩ := List.forall_mem_append.mp h.others
  exact ⟨.each fun part hpart ↦ Act.indifferent_part (hbefore part hpart).1 (hbefore part hpart).2,
    .each fun part hpart ↦ Act.indifferent_part (hafter part hpart).1 (hafter part hpart).2⟩

theorem Script.InOrder.fits
    (h : Script.InOrder (.devices declared :: (before ++ .init settled :: after))) :
    ∀ sentence ∈ settled, FitsInit sentence.clause :=
  h.proper (.init settled) (by simp)

/-- The sentences of an `init` section moved into the `devices` section. -/
theorem Script.InOrder.merged
    (h : Script.InOrder (.devices declared :: (before ++ .init settled :: after))) :
    Script.InOrder (.devices (declared ++ settled) :: (before ++ after)) := by
  have hsub : (before ++ after).Sublist (before ++ .init settled :: after) :=
    (List.Sublist.refl before).append (List.sublist_cons_self ..)
  refine ⟨?_, rfl, h.distinct.sublist ((hsub.map Section.heading).cons_cons _), ?_⟩
  · exact List.forall_mem_cons.mpr
      ⟨trivial, fun part hpart ↦ h.proper part (List.mem_cons_of_mem _ (hsub.mem hpart))⟩
  · have hconnections := h.connections
    simp only [List.map_cons, List.map_append, List.mem_cons, List.mem_append] at hconnections ⊢
    simpa [Section.heading] using hconnections

namespace Act

variable {d : Draft}

theorem after_script (d : Draft) (sentences : List Sentence) (before more : Script) :
    script.after d (.devices sentences :: (before ++ more)) =
      part.each.after (part.each.after (introduce.each.after d sentences) before) more :=
  after_each_append

/-- What an `init` section sets may be set at the end of the `devices` section. The script is
allowed as well, and comes to the same. -/
theorem allowed_merged
    (hdistinct : ((introduce.each.after d declared).schematic.parts.map Part.name).Nodup)
    (horder : Script.InOrder (.devices declared :: (before ++ .init settled :: after)))
    (h : script.allowed d (.devices declared :: (before ++ .init settled :: after))) :
    script.allowed d (.devices (declared ++ settled) :: (before ++ after)) ∧
      (script.after d (.devices (declared ++ settled) :: (before ++ after))).schematic =
        (script.after d (.devices declared :: (before ++ .init settled :: after))).schematic := by
  obtain ⟨⟨hdeclared, hclose⟩, hrest⟩ := h
  obtain ⟨hearlier, ⟨hsettled, -⟩, hlater⟩ := allowed_each_append.mp hrest
  obtain ⟨hkeep, hkeep'⟩ := horder.indifferent
  -- the parts are the same before the sections in between and after them
  have hparts : Schematic.SameParts (introduce.each.after d declared).schematic
      (part.each.after (introduce.each.after d declared) before).schematic :=
    ⟨hdistinct, hkeep.names _, hkeep.kinds _⟩
  obtain ⟨t, ht⟩ := Tunes.each (fun item hitem ↦ tunes_sentence (horder.fits item hitem))
    hparts.symm.distinct (allowed_of_adjust hsettled)
  obtain ⟨hallowed, hset⟩ := ht _ hparts.symm
  have hmerged : (introduce.each.after d (declared ++ settled)).schematic =
      (introduce.each.after d declared).schematic.tuned t := by
    rw [after_each_append, schematic_introduce, hset]
  have hset' := schematic_adjust.trans (ht _ (.refl hparts.symm.distinct)).2
  have hsame : (part.each.after (introduce.each.after d (declared ++ settled)) before).schematic =
      (adjust.each.after (part.each.after (introduce.each.after d declared) before)
        settled).schematic.tuned .none := by
    rw [hkeep.after hmerged, Schematic.tuned_none, hset']
  refine ⟨⟨⟨allowed_each_append.mpr ⟨hdeclared, allowed_introduce_iff.mpr hallowed⟩, ?_⟩,
    allowed_each_append.mpr ⟨hkeep.allowed hmerged hearlier, hkeep'.allowed hsame hlater⟩⟩, ?_⟩
  · change (introduce.each.after d (declared ++ settled)).schematic.MayClose .devices
    rw [hmerged]
    exact Schematic.mayClose_tuned_iff.mpr hclose
  · rw [after_script, after_script, hkeep'.after hsame, Schematic.tuned_none]
    rfl

/-- All names in an `init` section were met in the `devices` section. -/
theorem met_of_init
    (hparts : ∀ name ∈ (introduce.each.after d declared).schematic.parts.map Part.name,
      name ∈ (introduce.each.after d declared).met)
    (horder : Script.InOrder (.devices declared :: (before ++ .init settled :: after)))
    (h : script.allowed d (.devices declared :: (before ++ .init settled :: after))) :
    ∀ sentence ∈ settled, ∀ name ∈ sentence.names.met,
      name ∈ (introduce.each.after d declared).met := by
  obtain ⟨-, ⟨hsettled, -⟩, -⟩ := allowed_each_append.mp h.2
  have hkeep := horder.indifferent.1
  intro sentence hsentence name hname
  rw [← hkeep.names] at hparts
  rw [← hkeep.met] at hparts ⊢
  exact met_of_adjust hparts horder.fits hsettled sentence hsentence name hname

end Act

/-! ### Names -/

variable {settings : Settings} {d : Draft} {b b' : Builder} {u v rest rest' : List Symbol}

/-- If sentences begin with a name at all, it is one of theirs. -/
theorem namesIn_front (hspelled : Spelled SentenceSpelled settled v) :
    ∀ name ∈ namesIn [frontSymbol (v ++ .sign .closeBrace :: rest)],
      ∃ sentence ∈ settled, name ∈ sentence.names.met := by
  cases hspelled with
  | nil => exact nofun
  | @cons sentence _ _ _ hsentence _ =>
    obtain ⟨first, said, rfl, hfirst⟩ := exists_first_of_sentence hsentence
    intro name hname
    obtain rfl : name = first := List.mem_singleton.mp hname
    exact ⟨sentence, List.mem_cons_self, List.mem_append_left _ hfirst⟩

/-- Sentences that only set what is there, with names that were met before, leave the table as it
is. -/
theorem exists_body_of_met (hspelled : Spelled SentenceSpelled settled v)
    (hfits : ∀ sentence ∈ settled, FitsInit sentence.clause)
    (hmet : ∀ sentence ∈ settled, ∀ name ∈ sentence.names.met, name ∈ d.met)
    (hallowed : Act.introduce.each.allowed d settled) (hb : Shows settings .declare d b)
    (hsymbols : b.reader.symbols = v ++ .sign .closeBrace :: rest) :
    ∃ b₁, b.body .devices = b₁.body .devices ∧
      Done settings .declare v (Act.introduce.each.after d settled) b b₁ ∧
      b₁.reader.names = b.reader.names := by
  obtain ⟨met, hown, hlater⟩ := exists_met_of_sentences hspelled hallowed
  obtain ⟨b₁, hbody, hdone, hnames⟩ := hlater hb hsymbols
  refine ⟨b₁, hbody, hdone, hnames.trans (Names.meetAll_of_has fun name hname ↦ ?_)⟩
  have hname : name ∈ met := (List.mem_append.mp hname).resolve_right nofun
  obtain ⟨sentence, hsentence, hin⟩ := hown hfits name hname
  exact hb.met name (hmet sentence hsentence name hin)

/-- Sentences at the end of a `devices` section that only set what is there, with names that were
met before, make no difference to the names after the section. -/
theorem names_merged (hdeclared : Spelled SentenceSpelled declared u)
    (hsettled : Spelled SentenceSpelled settled v)
    (hfits : ∀ sentence ∈ settled, FitsInit sentence.clause)
    (hmet : ∀ sentence ∈ settled, ∀ name ∈ sentence.names.met,
      name ∈ (Act.introduce.each.after d declared).met)
    (hallowed : Act.part.allowed d (.devices declared))
    (hallowed' : Act.part.allowed d (.devices (declared ++ settled)))
    (hb : Shows settings .declare d b) (hb' : Shows settings .declare d b')
    (hnew : .devices ∉ b.seen) (hnew' : .devices ∉ b'.seen)
    (hsymbols : b.reader.symbols = sectionSymbols .devices u ++ rest)
    (hsymbols' : b'.reader.symbols = sectionSymbols .devices (u ++ v) ++ rest')
    (hrest : frontLexeme rest ≠ .name) (hrest' : frontLexeme rest' ≠ .name)
    (hnames : b'.reader.names = b.reader.names) :
    (b'.parseSection .devices).reader.names = (b.parseSection .devices).reader.names := by
  have hinside : b.reader.symbols = [.sign (.heading .devices), .sign .openBrace] ++
      (u ++ .sign .closeBrace :: rest) := by
    simpa [sectionSymbols] using hsymbols
  have hinside' : b'.reader.symbols = [.sign (.heading .devices), .sign .openBrace] ++
      (u ++ (v ++ .sign .closeBrace :: rest')) := by
    simpa [sectionSymbols] using hsymbols'
  obtain ⟨symbol, more, hmore⟩ : ∃ symbol more, v ++ .sign .closeBrace :: rest' = symbol :: more :=
    List.exists_cons_of_ne_nil (List.append_ne_nil_of_right_ne_nil _ (List.cons_ne_nil _ _))
  have hfront : ∀ name ∈ namesIn [frontSymbol (v ++ .sign .closeBrace :: rest')],
      ∃ sentence ∈ settled, name ∈ sentence.names.met := namesIn_front hsettled
  rw [hmore] at hinside' hfront
  obtain ⟨met, hopened⟩ := exists_met_opened hdeclared hallowed.1
  obtain ⟨b₁, hbody, hdone, htable⟩ := hopened hb hnew hinside
  obtain ⟨b₁', hbody', hdone', htable'⟩ := hopened hb' hnew' hinside'
  -- what the `init` section says is said where the other `devices` section would end
  have hnext := hdone'.rest (devices_opened hb' hnew' hinside').2.1
  obtain ⟨b₂, hbody₂, hdone₂, hkeep⟩ := exists_body_of_met hsettled hfits hmet
    (Act.allowed_each_append.mp hallowed'.1).2 hdone'.shows (hnext.trans hmore.symm)
  have hsame : b₁'.reader.names = b₁.reader.names := by
    rw [htable', Names.meetAll_append, hnames]
    have hbare : b₁.reader.names = b.reader.names.meetAll .declare met := by
      rw [htable]
      exact congrArg _ (List.append_nil met)
    rw [← hbare]
    refine Names.meetAll_of_has fun name hname ↦ ?_
    obtain ⟨sentence, hsentence, hin⟩ := hfront name hname
    exact hdone.shows.met name (hmet sentence hsentence name hin)
  have hend := names_parseSection_of_body hb hnew hdeclared hinside hallowed hrest hbody
    (hdone.rest (devices_opened hb hnew hinside).2.1)
  have hend' := names_parseSection_of_body hb' hnew' (hdeclared.append hsettled)
    (by simpa [sectionSymbols] using hsymbols') hallowed' hrest' (hbody'.trans hbody₂)
    (hdone₂.rest (hnext.trans hmore.symm))
  rw [hend', hkeep, hsame, hend]

/-! ### Texts of some symbols -/

variable {text : String} {found found' : List Symbol}

/-- The symbol that a text is, if it is one as a whole. -/
def symbolOf (text : String) : Symbol :=
  ⟨lexemeOf text, if lexemeOf text = .name then text else ""⟩

/-- The text of a symbol settles the symbol. -/
theorem symbol_eq_symbolOf {token : Token} {written after : List Char}
    (h : (Reading.token token).Spells written after) : token.symbol = symbolOf token.text := by
  rw [Token.symbol, symbolOf, lexeme_eq_of_spelled h]

/-- Texts that are symbols are scanned one by one, where they are joined by blanks. -/
theorem scans_joined {texts : List String} (h : ∀ text ∈ texts, IsSymbol text) :
    Scans (joined texts) (texts.map symbolOf) := by
  obtain ⟨tokens, rfl, hread⟩ := exists_tokens_of_joined h {}
  have hreadings : (Cursor.start (joined (tokens.map Token.text))).readings.1 =
      tokens.map Reading.token := hread
  rw [Scans, hreadings, List.map_map, List.map_map, List.map_map]
  refine List.map_congr_left fun token htoken ↦ ?_
  have hmem : .token token ∈ (Cursor.start (joined (tokens.map Token.text))).readings.1 := by
    rw [hreadings]
    exact List.mem_map_of_mem htoken
  obtain ⟨written, after, hspells⟩ := Cursor.spells_of_mem_readings hmem
  exact congrArg some (symbol_eq_symbolOf hspells)

theorem Scans.exists_written (h : Scans text found) {symbol : Symbol} (hsymbol : symbol ∈ found) :
    ∃ written, IsSymbol written ∧ symbolOf written = symbol := by
  obtain ⟨reading, hreading, hsome⟩ : ∃ reading ∈ (Cursor.start text).readings.1,
      reading.symbol? = some symbol := List.mem_map.mp (h ▸ List.mem_map_of_mem hsymbol)
  obtain ⟨written, after, hspells⟩ := Cursor.spells_of_mem_readings hreading
  cases reading with
  | fault => cases hsome
  | token token =>
    have htext : token.text ∈ symbolTexts text := List.mem_filterMap.mpr ⟨_, hreading, rfl⟩
    refine ⟨token.text, isSymbol_of_mem_symbolTexts htext, ?_⟩
    rw [← symbol_eq_symbolOf hspells]
    exact Option.some_inj.mp hsome

/-- The symbols of a text may be put together to other texts. -/
theorem Scans.exists_text (h : Scans text found) (hsub : ∀ symbol ∈ found', symbol ∈ found) :
    ∃ text', Scans text' found' := by
  obtain ⟨texts, htexts, rfl⟩ : ∃ texts : List String, (∀ text ∈ texts, IsSymbol text) ∧
      texts.map symbolOf = found' := by
    induction found' with
    | nil => exact ⟨[], nofun, rfl⟩
    | cons symbol found' ih =>
      obtain ⟨hsymbol, hrest⟩ := List.forall_mem_cons.mp hsub
      obtain ⟨written, hwritten, rfl⟩ := h.exists_written hsymbol
      obtain ⟨texts, htexts, rfl⟩ := ih hrest
      exact ⟨written :: texts, List.forall_mem_cons.mpr ⟨hwritten, htexts⟩, rfl⟩
  exact ⟨joined texts, scans_joined htexts⟩

/-! ### The `init` section at the end of the `devices` section -/

/-- The symbols of a text with an `init` section. -/
structure Outline where
  /-- What stands between the braces of the `devices` section. -/
  declared : List Symbol
  /-- What stands between that section and the `init` section. -/
  middle : List Symbol
  /-- What stands between the braces of the `init` section. -/
  settled : List Symbol
  /-- What stands behind it. -/
  more : List Symbol

namespace Outline

/-- All symbols of the text. -/
def symbols (o : Outline) : List Symbol :=
  sectionSymbols .devices o.declared ++ o.middle ++ sectionSymbols .init o.settled ++ o.more

/-- The same symbols without the `init` section, whose sentences stand at the end of the `devices`
section. -/
def merged (o : Outline) : List Symbol :=
  sectionSymbols .devices (o.declared ++ o.settled) ++ o.middle ++ o.more

/-- Whether a text has these symbols. Both sections end at the first brace that closes. -/
structure Of (o : Outline) (text : String) : Prop where
  scans : Scans text o.symbols
  declared : .sign .closeBrace ∉ o.declared
  settled : .sign .closeBrace ∉ o.settled

end Outline

/-- An accepted text with an `init` section has the `devices` section in front of it. -/
theorem exists_outline {script : Script} (h : Says text script) (hscans : Scans text found)
    (hinit : .sign (.heading .init) ∈ found) : ∃ o : Outline, o.Of text := by
  obtain ⟨front, rest, rfl⟩ := List.append_of_mem hinit
  obtain ⟨sentences, before, part, after, used, u, body, more, -, hheading, rfl, hdevices, -, hbody,
    rfl, -⟩ := h.exists_section (by decide) hscans
  cases hdevices with | @intro v hdeclared =>
  cases part with
  | init settled =>
    refine ⟨⟨v, u, body, more⟩, ⟨?_, closeBrace_not_mem_sentences hdeclared,
      closeBrace_not_mem_sentences hbody⟩⟩
    simpa [Outline.symbols, sectionSymbols, Section.heading] using hscans
  | _ => cases hheading

/-- What stands in front of the first of some symbols. -/
theorem front_unique {symbol : Symbol} (h : symbol ∉ u) (h' : symbol ∉ v)
    (heq : u ++ symbol :: rest = v ++ symbol :: rest') : u = v ∧ rest = rest' := by
  have hlength : u.length = v.length := by
    have hplace := congrArg (List.idxOf symbol) heq
    rwa [List.idxOf_append_of_notMem h, List.idxOf_append_of_notMem h', List.idxOf_cons_self,
      List.idxOf_cons_self] at hplace
  obtain ⟨rfl, hrest⟩ := List.append_inj heq hlength
  exact ⟨rfl, (List.cons.inj hrest).2⟩

/-- The script of a text with an `init` section. -/
theorem Outline.Of.exists_script {o : Outline} {script : Script} (ho : o.Of text)
    (h : Says text script) : ∃ declared before settled after,
      script = .devices declared :: (before ++ .init settled :: after) ∧
      Spelled SentenceSpelled declared o.declared ∧ ScriptSpelled before o.middle ∧
      Spelled SentenceSpelled settled o.settled ∧ ScriptSpelled after o.more := by
  have hscans : Scans text ((sectionSymbols .devices o.declared ++ o.middle) ++
      .sign (.heading .init) :: .sign .openBrace ::
        (o.settled ++ .sign .closeBrace :: o.more)) := by
    simpa [Outline.symbols, sectionSymbols] using ho.scans
  obtain ⟨sentences, before, part, after, used, u, body, more, rfl, hheading, hfront, hdevices,
    hbefore, hbody, hrest, hafter⟩ := h.exists_section (by decide) hscans
  cases hdevices with | @intro v hdeclared =>
  cases part with
  | init settled =>
    have hfront : o.declared ++ .sign .closeBrace :: o.middle = v ++ .sign .closeBrace :: u := by
      simpa [sectionSymbols, Section.heading] using hfront
    obtain ⟨rfl, rfl⟩ := front_unique ho.declared (closeBrace_not_mem_sentences hdeclared) hfront
    obtain ⟨rfl, rfl⟩ := front_unique ho.settled (closeBrace_not_mem_sentences hbody)
      (List.cons.inj hrest).2
    exact ⟨sentences, before, settled, after, rfl, hdeclared, hbefore, hbody, hafter⟩
  | _ => cases hheading

/-- A text with an `init` section, and one with its sentences at the end of the `devices` section
instead, are built into the same. -/
theorem Outline.Of.sameBuild {o : Outline} {text' : String} {script : Script} (ho : o.Of text)
    (h : Says text script) (hscans : Scans text' o.merged) : SameBuild settings text text' := by
  obtain ⟨declared, before, settled, after, rfl, hdeclared, hbefore, hsettled, hafter⟩ :=
    ho.exists_script h
  have hrest : ScriptSpelled (before ++ .init settled :: after)
      (o.middle ++ (sectionSymbols .init o.settled ++ o.more)) :=
    hbefore.append (.cons (sectionSpelled_of_body (.init settled) hsettled) hafter)
  have haccepted : Accepted text declared (before ++ .init settled :: after)
      (sectionSymbols .devices o.declared)
      (o.middle ++ (sectionSymbols .init o.settled ++ o.more)) :=
    ⟨by simpa [Outline.symbols] using ho.scans,
      sectionSpelled_of_body (.devices declared) hdeclared, hrest, h.inOrder, h.allowed⟩
  obtain ⟨hb, hsymbols, hnames⟩ := haccepted.scans.shows_start haccepted.front_ne_name settings
  have hshows : Shows settings .declare (Act.introduce.each.after {} declared)
      ((fresh text settings).parseSection .devices) :=
    (parseSection_complete hb List.not_mem_nil (h.inOrder.proper _ List.mem_cons_self)
      haccepted.devices hsymbols h.allowed.1).shows
  obtain ⟨hallowed, hsame⟩ := Act.allowed_merged hshows.coherent.distinct h.inOrder h.allowed
  have haccepted' : Accepted text' (declared ++ settled) (before ++ after)
      (sectionSymbols .devices (o.declared ++ o.settled)) (o.middle ++ o.more) :=
    ⟨by simpa [Outline.merged] using hscans,
      sectionSpelled_of_body (.devices (declared ++ settled)) (hdeclared.append hsettled),
      hbefore.append hafter, h.inOrder.merged, hallowed⟩
  obtain ⟨hb', hsymbols', hnames'⟩ := haccepted'.scans.shows_start haccepted'.front_ne_name settings
  have hmet := Act.met_of_init hshows.parts h.inOrder h.allowed
  exact haccepted.sameBuild haccepted' hsame (names_merged hdeclared hsettled h.inOrder.fits hmet
    h.allowed.1 hallowed.1 hb hb' List.not_mem_nil List.not_mem_nil hsymbols hsymbols'
    (front_ne_name_of_scriptSpelled hrest) (front_ne_name_of_scriptSpelled haccepted'.rest)
    (hnames'.trans hnames.symm))

/-- An `init` section says what may as well be said at the end of the `devices` section.

An accepted text with an `init` section, wherever it stands, has the `devices` section in front of
it. There is a text without the section whose sentences stand in the same order at the end of the
`devices` section instead, and any such text is accepted and built into the same network, with the
same names and monitors, so that it gives the same circuit.

Assumes: the text with the `init` section is accepted. -/
theorem init_at_the_end_of_devices {text : String} {settings : Settings} {c : Circuit}
    (h : Circuit.load text settings = .ok c) :
    (∃ symbols, Scans text symbols ∧
      (.sign (.heading .init) ∈ symbols → ∃ o : Outline, o.Of text)) ∧
    ∀ o : Outline, o.Of text → (∃ text', Scans text' o.merged) ∧
      ∀ text', Scans text' o.merged →
        SameBuild settings text text' ∧ Circuit.load text' settings = .ok c := by
  obtain ⟨script, hscript⟩ := exists_says_of_load h
  obtain ⟨symbols, hsymbols, -⟩ := hscript.spelled
  refine ⟨⟨symbols, hsymbols, exists_outline hscript hsymbols⟩,
    fun o ho ↦ ⟨?_, fun text' hscans ↦ ?_⟩⟩
  · refine ho.scans.exists_text fun symbol hsymbol ↦ ?_
    simp only [Outline.merged, Outline.symbols, sectionSymbols, List.mem_append] at hsymbol ⊢
    tauto
  · have hsame : SameBuild settings text text' := ho.sameBuild hscript hscans
    exact ⟨hsame, hsame.load.trans h⟩

/-- Three switches, two of them set, and a clock. -/
def settledSwitches : String :=
  "devices \x7b S1 => S3 are SWITCH; C is CLOCK; \x7d " ++
  "connections \x7b \x7d monitor \x7b S2; \x7d " ++
  "init \x7b S1 => S2 set 1; C has cycle 3; S3, S1 set to 0; \x7d"

/-- The same with the `init` section in front of the connections. -/
def settledSwitchesEarly : String :=
  "devices \x7b S1 => S3 are SWITCH; C is CLOCK; \x7d " ++
  "init \x7b S1 => S2 set 1; C has cycle 3; S3, S1 set to 0; \x7d " ++
  "connections \x7b \x7d monitor \x7b S2; \x7d"

/-- The same without an `init` section. -/
def settledSwitchesMerged : String :=
  "devices \x7b S1 => S3 are SWITCH; C is CLOCK; S1 => S2 set 1; C has cycle 3; " ++
  "S3, S1 set to 0; \x7d connections \x7b \x7d monitor \x7b S2; \x7d"

/-- The symbols of the switches, with the `init` section in either place. -/
def switchesOutline (early : Bool) : Outline :=
  let others := sectionSymbols .connections [] ++
    sectionSymbols .monitor [.name "S2", .sign .semicolon]
  { declared := [.name "S1", .sign .arrow, .name "S3", .keyword .are, .name "SWITCH",
      .sign .semicolon, .name "C", .keyword .is, .name "CLOCK", .sign .semicolon]
    middle := if early then [] else others
    settled := [.name "S1", .sign .arrow, .name "S2", .keyword .set, .sign (.number 1),
      .sign .semicolon, .name "C", .keyword .has, .keyword .cycle, .sign (.number 3),
      .sign .semicolon, .name "S3", .sign .comma, .name "S1", .keyword .set, .keyword .toWord,
      .sign (.number 0), .sign .semicolon]
    more := if early then others else [] }

theorem switches_settled_as_devices :
    (∃ o : Outline, o.Of settledSwitches) ∧ ∃ c, Circuit.load settledSwitches = .ok c ∧
      Circuit.load settledSwitchesEarly = .ok c ∧ Circuit.load settledSwitchesMerged = .ok c ∧
      SameBuild {} settledSwitches settledSwitchesMerged := by
  have hload : Circuit.load settledSwitches = .ok _ := load_eq_ok_iff.mpr ⟨by decide +kernel, rfl⟩
  have hload' : Circuit.load settledSwitchesEarly = .ok _ :=
    load_eq_ok_iff.mpr ⟨by decide +kernel, rfl⟩
  obtain ⟨⟨symbols, hsymbols, houtline⟩, hmerged⟩ := init_at_the_end_of_devices hload
  have hlate : (switchesOutline false).Of settledSwitches :=
    ⟨by decide +kernel, by decide, by decide⟩
  have hearly : (switchesOutline true).Of settledSwitchesEarly :=
    ⟨by decide +kernel, by decide, by decide⟩
  have hscans : Scans settledSwitchesMerged (switchesOutline false).merged := by decide +kernel
  obtain ⟨hsame, hload₂⟩ := (hmerged _ hlate).2 _ hscans
  have hload₂' := ((init_at_the_end_of_devices hload').2 _ hearly).2 _ hscans
  have hinit : .sign (.heading .init) ∈ symbols := hsymbols.unique hlate.scans ▸ by decide
  refine ⟨houtline hinit, _, hload, ?_, hload₂, hsame⟩
  rw [hload', ← hload₂'.2, hload₂]

end Breadboard.Description
