import Breadboard.Proofs.Description.Steps

/-!
# Sections carried out while reading

What stands between the braces of a section follows the acts of the previous modules, one heading
after another, and what is filed where the section closes is what its end asks for. So a section
about which nothing is filed has been taken as the grammar spells it and the rules allow it, and
every such section is taken without a complaint.
-/

set_option autoImplicit false
set_option relaxedAutoImplicit false

namespace Breadboard.Description

variable {settings : Settings} {mode mode' : NameMode} {b b' : Builder} {d d' : Draft}
  {used more : List Symbol} {r : Reader}

/-! ### Signs between statements -/

/-- Where no name is read, reading on changes nothing about a draft. -/
theorem Shows.passed_sign (hb : Shows settings mode d b) {lexeme : Lexeme}
    (hpasses : b.reader.Passes mode [.sign lexeme] r) (hlexeme : lexeme ≠ .name) :
    Done settings mode [.sign lexeme] d b { b with reader := r } := by
  have hname (name : String) : Symbol.name name ≠ .sign lexeme :=
    fun h ↦ hlexeme (congrArg Symbol.lexeme h).symm
  obtain ⟨-, hsymbol⟩ := Reader.front_of_symbols hpasses.symbols
  refine ⟨hpasses.symbols, ⟨hpasses.ready, (hb.pictures hpasses).depicts, hb.coherent, hb.parts,
    fun name h ↦ hpasses.grown.has (hb.met name h), fun name h ↦ ?_⟩, hpasses.grown, rfl⟩
  cases mode with
  | query =>
    rw [hpasses.kept rfl] at h
    exact (hb.fresh name h).imp_right (.imp_right fun h ↦ nomatch h.1)
  | declare =>
    rcases hpasses.fresh name h with hold | hmeets | hcurrent
    · rcases hb.fresh name hold with hmet | hplain | ⟨-, hcurrent⟩
      · exact .inl hmet
      · exact .inr (.inl hplain)
      · exact absurd (hcurrent.symm.trans hsymbol) (hname name)
    · rcases hmeets with hin | ⟨first, last, list, hinfix, -⟩
      · exact absurd (List.mem_singleton.mp hin) (hname name)
      · exact absurd hinfix.length_le (by simp)
    · exact .inr (.inr ⟨rfl, hcurrent⟩)

/-- Off a name the mode makes no difference. -/
theorem Shows.setMode (hb : Shows settings mode d b) (hname : b.reader.current.lexeme ≠ .name)
    (mode' : NameMode) : Shows settings mode' d (b.setMode mode') where
  ready :=
    have h := hb.ready
    ⟨rfl, h.log, h.names, h.current, h.rest, h.finished, fun _ hlexeme ↦ absurd hlexeme hname⟩
  depicts := hb.depicts
  coherent := hb.coherent
  parts := hb.parts
  met := hb.met
  fresh name h := by
    refine (hb.fresh name h).imp_right (.imp_right fun ⟨_, hcurrent⟩ ↦ ?_)
    exact absurd (symbol_eq_name_iff.mp hcurrent).1 hname

/-! ### Between the braces -/

theorem body_sound {heading : Heading} (hb : Shows settings (Builder.modeOf heading) d b)
    (hquiet : (b.body heading).reader.log = []) :
    ∃ (part : Section) (used : List Symbol), part.heading = heading ∧ part.Proper ∧
      part.BodySpelled used ∧ Act.body.allowed d part ∧
        Done settings (Builder.modeOf heading) used (Act.body.after d part) b (b.body heading) := by
  have hbase := Names.Extends.refl b.reader.names
  rw [Builder.body_eq] at hquiet ⊢
  cases heading with
  | devices =>
    obtain ⟨sentences, used, hspelled, hallowed, hdone⟩ := enactsPhrases_introduce.loop_sound
      (Builder.reaches_statement Builder.reaches_declareAll) hb hbase hquiet
    exact ⟨.devices sentences, used, rfl, trivial, hspelled, hallowed, hdone⟩
  | init =>
    obtain ⟨sentences, used, hspelled, hallowed, hdone⟩ := enactsPhrases_adjust.loop_sound
      (Builder.reaches_statement Builder.reaches_declareAll) hb hbase hquiet
    obtain ⟨hspelled, hfits⟩ := spelled_and_iff.mp hspelled
    exact ⟨.init sentences, used, rfl, hfits, hspelled, hallowed, hdone⟩
  | connections =>
    obtain ⟨blocks, used, hspelled, hallowed, hdone⟩ := enactsPhrases_block.loop_sound
      (Builder.reaches_statement Builder.reaches_blockFor) hb hbase hquiet
    obtain ⟨hspelled, htargets⟩ := spelled_and_iff.mp hspelled
    exact ⟨.connections blocks, used, rfl, htargets, hspelled, hallowed, hdone⟩
  | monitor =>
    obtain ⟨watches, used, hspelled, hallowed, hdone⟩ := enactsPhrases_watch.loop_sound
      (Builder.reaches_statement Builder.reaches_watchAll) hb hbase hquiet
    exact ⟨.monitor watches, used, rfl, trivial, hspelled, hallowed, hdone⟩

theorem body_complete {part : Section} (hb : Shows settings (Builder.modeOf part.heading) d b)
    (hproper : part.Proper) (hspelled : part.BodySpelled used)
    (hsymbols : b.reader.symbols = used ++ more) (hfront : frontLexeme more = .closeBrace)
    (hallowed : Act.body.allowed d part) :
    Done settings (Builder.modeOf part.heading) used (Act.body.after d part) b
      (b.body part.heading) := by
  have hbase := Names.Extends.refl b.reader.names
  rw [Builder.body_eq]
  cases part with
  | devices sentences =>
    exact enactsPhrases_introduce.loop_complete hb hbase hspelled hsymbols hfront hallowed
  | init sentences =>
    exact enactsPhrases_adjust.loop_complete hb hbase (spelled_and_iff.mpr ⟨hspelled, hproper⟩)
      hsymbols hfront hallowed
  | connections blocks =>
    exact enactsPhrases_block.loop_complete hb hbase (spelled_and_iff.mpr ⟨hspelled, hproper⟩)
      hsymbols hfront hallowed
  | monitor watches =>
    exact enactsPhrases_watch.loop_complete hb hbase hspelled hsymbols hfront hallowed

/-! ### Where a section closes -/

/-- What is still missing when a section closes is what its end asks for. -/
theorem shortfalls_eq_nil_iff {heading : Heading}
    (h : Depicts settings b.reader.names b.network b.monitors d.schematic) :
    b.shortfalls heading = [] ↔ d.schematic.MayClose heading := by
  cases heading with
  | devices =>
    rw [Builder.shortfalls_eq, List.map_eq_nil_iff]
    exact h.devicesWithoutInputs_eq_nil_iff
  | connections =>
    rw [Builder.shortfalls_eq, List.map_eq_nil_iff]
    exact h.unconnected_eq_nil_iff
  | monitor | init => exact iff_of_true rfl trivial

/-- A builder on the closing brace of a section, past it. -/
theorem Shows.closed (hb : Shows settings mode d b)
    (hbrace : b.reader.current.lexeme = .closeBrace) :
    Done settings .declare [.sign .closeBrace] d b
      ((b.setMode .declare).mapReader Reader.advance) := by
  have hmode : Shows settings .declare d (b.setMode .declare) :=
    hb.setMode (hbrace ▸ nofun) .declare
  have hpasses := Attempt.passes_sign hmode.ready hbrace nofun nofun
  have hdone := hmode.passed_sign hpasses nofun
  exact ⟨hdone.symbols, hdone.shows, hdone.grown, hdone.seen⟩

theorem close_sound {heading : Heading} (hb : Shows settings mode d b)
    (hquiet : (b.close heading).reader.log = []) :
    d.schematic.MayClose heading ∧
      Done settings .declare [.sign .closeBrace] d b (b.close heading) := by
  rw [Builder.close_eq] at hquiet ⊢
  obtain ⟨hend, hshort⟩ := log_fileAll_eq_nil hquiet
  rw [hshort]
  rw [Builder.passEnd] at hend hshort ⊢
  split at hend
  · next hbrace =>
    rw [if_pos hbrace] at hshort ⊢
    have hdone := hb.closed hbrace
    exact ⟨(shortfalls_eq_nil_iff hdone.shows.depicts).mp hshort, hdone⟩
  · exact (log_file_ne _ _ _ hend).elim

theorem close_complete {heading : Heading} (hb : Shows settings mode d b)
    (hsymbols : b.reader.symbols = .sign .closeBrace :: more)
    (hclose : d.schematic.MayClose heading) :
    Done settings .declare [.sign .closeBrace] d b (b.close heading) := by
  have hbrace := Attempt.lexeme_of_sign hsymbols
  have hdone := hb.closed hbrace
  rw [Builder.close_eq, Builder.passEnd, if_pos hbrace,
    (shortfalls_eq_nil_iff hdone.shows.depicts).mpr hclose]
  exact hdone

/-! ### Whole sections -/

/-- The builder has taken the symbols of a section, and shows a draft after it. -/
structure Through (settings : Settings) (part : Section) (used : List Symbol) (d : Draft)
    (b b' : Builder) : Prop where
  symbols : b.reader.symbols = used ++ b'.reader.symbols
  shows : Shows settings .declare (Act.part.after d part) b'
  seen : b'.seen = b.seen ++ [part.heading]

/-- The builder behind the heading of a section and the brace after it. -/
def opened (b : Builder) (heading : Heading) : Builder :=
  ((((b.note heading).mapReader Reader.advance).setMode (Builder.modeOf heading)).mapReader
    Reader.advance)

theorem seen_opened {heading : Heading} (hnew : heading ∉ b.seen) :
    (opened b heading).seen = b.seen ++ [heading] :=
  congrArg Builder.seen (if_neg hnew : b.note heading = { b with seen := b.seen ++ [heading] })

theorem Shows.opened {heading : Heading} (hb : Shows settings .declare d b)
    (hheading : b.reader.current.lexeme = .heading heading) (hnew : heading ∉ b.seen)
    (hbrace : b.reader.advance.current.lexeme = .openBrace) :
    b.reader.symbols = [.sign (.heading heading), .sign .openBrace] ++
        (opened b heading).reader.symbols ∧
      Shows settings (Builder.modeOf heading) d (opened b heading) := by
  have hnote : b.note heading = { b with seen := b.seen ++ [heading] } := if_neg hnew
  have hfirst := Attempt.passes_sign hb.ready hheading nofun nofun
  have hmode := (hb.passed_sign hfirst nofun).shows.setMode (hbrace ▸ nofun)
    (Builder.modeOf heading)
  have hsecond := Attempt.passes_sign hmode.ready hbrace nofun nofun
  have hshows := (hmode.passed_sign hsecond nofun).shows
  rw [Description.opened, hnote]
  refine ⟨?_, ⟨hshows.ready, hshows.depicts, hshows.coherent, hshows.parts, hshows.met,
    hshows.fresh⟩⟩
  exact hfirst.symbols.trans (congrArg ([.sign (.heading heading)] ++ ·) hsecond.symbols)

/-- The builder behind a section that was opened, read and closed. -/
theorem Through.of_done {part : Section} {b₁ b₂ b₃ : Builder}
    (hopen : b.reader.symbols =
      [.sign (.heading part.heading), .sign .openBrace] ++ b₁.reader.symbols)
    (hseen : b₁.seen = b.seen ++ [part.heading])
    (hbody : Done settings mode used (Act.body.after d part) b₁ b₂)
    (hclosed : Done settings .declare [.sign .closeBrace] (Act.body.after d part) b₂ b₃) :
    Through settings part ([.sign (.heading part.heading), .sign .openBrace] ++ used ++
      [.sign .closeBrace]) d b b₃ where
  symbols := by rw [hopen, hbody.symbols, hclosed.symbols, List.append_assoc, List.append_assoc]
  shows := hclosed.shows
  seen := hclosed.seen.trans (hbody.seen.trans hseen)

theorem parseSection_of_brace {heading : Heading} (hnew : heading ∉ b.seen)
    (hbrace : b.reader.advance.current.lexeme = .openBrace) :
    b.parseSection heading = ((opened b heading).body heading).close heading := by
  have hnote : b.note heading = { b with seen := b.seen ++ [heading] } := if_neg hnew
  rw [Builder.parseSection_eq, if_pos (hnote ▸ hbrace)]
  rfl

/-- A section about which nothing is filed is new, and it is opened, read and closed. -/
theorem parseSection_of_quiet {heading : Heading}
    (hquiet : (b.parseSection heading).reader.log = []) :
    heading ∉ b.seen ∧ b.reader.advance.current.lexeme = .openBrace ∧
      b.parseSection heading = ((opened b heading).body heading).close heading := by
  have hnew := not_mem_seen_of_quiet hquiet
  have hbrace : b.reader.advance.current.lexeme = .openBrace := by
    have hnote : b.note heading = { b with seen := b.seen ++ [heading] } := if_neg hnew
    rw [Builder.parseSection_eq, hnote] at hquiet
    split at hquiet
    · next hbrace => exact hbrace
    · exact (log_file_ne _ _ _ (log_eq_nil_of_reaches (Reader.reaches_skipTo _ _) hquiet)).elim
  exact ⟨hnew, hbrace, parseSection_of_brace hnew hbrace⟩

theorem parseSection_sound {heading : Heading} (hb : Shows settings .declare d b)
    (hheading : b.reader.current.lexeme = .heading heading)
    (hquiet : (b.parseSection heading).reader.log = []) :
    heading ∉ b.seen ∧ ∃ (part : Section) (used : List Symbol), part.heading = heading ∧
      SectionSpelled part used ∧ part.Proper ∧ Act.part.allowed d part ∧
        Through settings part used d b (b.parseSection heading) := by
  obtain ⟨hnew, hbrace, hparse⟩ := parseSection_of_quiet hquiet
  rw [hparse] at hquiet ⊢
  obtain ⟨hopen, hshows⟩ := hb.opened hheading hnew hbrace
  obtain ⟨part, used, rfl, hproper, hspelled, hallowed, hbody⟩ := body_sound hshows
    (by_contra fun h ↦ lasting_filed.close heading h hquiet)
  obtain ⟨hclose, hclosed⟩ := close_sound hbody.shows hquiet
  exact ⟨hnew, part, _, rfl, .intro hspelled, hproper, ⟨hallowed, hclose⟩,
    .of_done hopen (seen_opened hnew) hbody hclosed⟩

theorem parseSection_complete {part : Section} (hb : Shows settings .declare d b)
    (hnew : part.heading ∉ b.seen) (hproper : part.Proper) (hspelled : SectionSpelled part used)
    (hsymbols : b.reader.symbols = used ++ more) (hallowed : Act.part.allowed d part) :
    Through settings part used d b (b.parseSection part.heading) := by
  cases hspelled with | intro hbody =>
  rw [List.append_assoc, List.append_assoc] at hsymbols
  have hheading := Attempt.lexeme_of_sign hsymbols
  obtain ⟨hfirst, hrest⟩ := hb.ready.take hsymbols
  have hbrace := Attempt.lexeme_of_sign hrest
  obtain ⟨hopen, hshows⟩ := hb.opened hheading hnew hbrace
  have hinside := List.append_cancel_left (hopen.symm.trans hsymbols)
  have hdone := body_complete hshows hproper hbody hinside rfl hallowed.1
  have hclosed := close_complete hdone.shows (hdone.rest hinside) hallowed.2
  rw [parseSection_of_brace hnew hbrace]
  exact .of_done hopen (seen_opened hnew) hdone hclosed

end Breadboard.Description
