import Breadboard.Proofs.Description.Filing
import Breadboard.Proofs.Description.Steps
import Breadboard.Proofs.Description.Strays

/-!
# Recovery from strays

Reading a connection gives up at a symbol before the end of the statement or on it, with one report,
and nothing but names that are looked up has been read by then (`Balks`). The rest of the statement
is skipped, and no more than that. A stray that reads like a connection is refused by the network,
with one report too. So a stray is passed with one report, and nothing is built of it
(`Shows.passed_stray`), and a block with strays is read like the block without them
(`LinksStrewn.loop`, `BlockStrewn.reporting`).
-/

set_option autoImplicit false
set_option relaxedAutoImplicit false

namespace Breadboard.Description

open Attempt
open Builder (Reporting)

variable {α β : Type} {r s : Reader} {front more used : List Symbol}

/-! ### Reading as far as it goes -/

namespace Reader

theorem Ready.hushed_eq {mode : NameMode} (h : r.Ready mode) : r.hushed = r := by
  have hcarried := r.carrying_hushed
  rwa [h.log] at hcarried

theorem Ready.hushed_file {mode : NameMode} (h : r.Ready mode) (fault : Fault)
    (position : Text.Position) : (r.file fault position).hushed = r :=
  h.hushed_eq

end Reader

namespace Attempt

/-- An attempt that takes no semicolon where it yields a value. -/
def Spares (m : Attempt α) : Prop :=
  ∀ (r s : Reader) (a : α), r.Ready .query → m.run r = (some a, s) →
    ∃ used, r.Passes .query used s ∧ .sign .semicolon ∉ used

/-- An attempt that files one report where it yields nothing, and has taken no semicolon then. -/
def Balks (m : Attempt α) : Prop :=
  ∀ r s : Reader, r.Ready .query → m.run r = (none, s) →
    ∃ used, r.Passes .query used s.hushed ∧ .sign .semicolon ∉ used ∧ s.log.length = 1

theorem Balks.bind {m : Attempt α} {f : α → Attempt β} (hm : m.Balks) (hspares : m.Spares)
    (hf : ∀ a, (f a).Balks) : (m >>= f).Balks := by
  intro r t hr hrun
  rw [run_bind] at hrun
  rcases hfirst : m.run r with ⟨_ | a, s⟩
  · rw [hfirst] at hrun
    cases hrun
    exact hm r _ hr hfirst
  · rw [hfirst] at hrun
    obtain ⟨used, hpasses, hused⟩ := hspares r s a hr hfirst
    obtain ⟨more, hpasses', hmore, hlog⟩ := hf a s t hpasses.ready hrun
    exact ⟨used ++ more, hpasses.trans hpasses', by simp [hused, hmore], hlog⟩

/-- What is made of a value makes no difference to where there is none. -/
theorem Balks.bind_pure {m : Attempt α} (hm : m.Balks) (f : α → β) :
    (m >>= fun a ↦ pure (f a)).Balks := by
  intro r s hr hrun
  rw [run_bind] at hrun
  rcases hfirst : m.run r with ⟨_ | a, t⟩
  · rw [hfirst] at hrun
    cases hrun
    exact hm r _ hr hfirst
  · rw [hfirst] at hrun
    cases hrun

theorem balks_refuse (α : Type) (fault : Fault) (position : Text.Position) :
    (refuse fault position : Attempt α).Balks := by
  intro r s hr hrun
  cases hrun
  refine ⟨[], ?_, List.not_mem_nil, ?_⟩
  · rw [hr.hushed_file]
    exact .refl hr
  · rw [Reader.file, hr.log]
    rfl

theorem balks_unexpected (α : Type) (what : Expectation) :
    (unexpected what : Attempt α).Balks := by
  intro r s hr hrun
  cases hrun
  exact balks_refuse α _ _ r _ hr rfl

theorem balks_expect (lexeme : Lexeme) (what : Expectation) : (expect lexeme what).Balks := by
  intro r s hr hrun
  rw [run_expect] at hrun
  split at hrun
  · cases hrun
  · exact balks_unexpected Unit what r s hr hrun

theorem spares_expect {lexeme : Lexeme} (what : Expectation) (hend : lexeme ≠ .endOfText)
    (hname : lexeme ≠ .name) (hsemicolon : lexeme ≠ .semicolon) :
    (expect lexeme what).Spares := by
  refine fun r s _ hr hrun ↦ ⟨_, expect_sound hr hend hname hrun, fun hmem ↦ hsemicolon ?_⟩
  exact (congrArg Symbol.lexeme (List.mem_singleton.mp hmem)).symm

theorem balks_knownName (unknown : String → Fault) (what : Expectation) :
    (knownName unknown what).Balks := by
  intro r s hr hrun
  rw [knownName, run_current_bind] at hrun
  split at hrun
  · rw [run_numberOf_bind] at hrun
    cases hquery : r.names.query r.current.text with
    | none =>
      rw [hquery] at hrun
      exact balks_refuse Mention _ _ r s hr hrun
    | some id =>
      rw [hquery] at hrun
      cases hrun
  · exact balks_unexpected Mention what r s hr hrun

theorem spares_knownName (unknown : String → Fault) (what : Expectation) :
    (knownName unknown what).Spares := by
  refine fun r s _ hr hrun ↦ ⟨_, (knownName_sound hr hrun).1, fun hmem ↦ ?_⟩
  exact nomatch congrArg Symbol.lexeme (List.mem_singleton.mp hmem)

theorem balks_output : output.Balks := by
  refine (balks_knownName _ _).bind (spares_knownName _ _) fun device ↦ ?_
  intro r s hr hrun
  rw [run_current_bind] at hrun
  split at hrun
  · next hdot =>
    rw [run_advance_bind] at hrun
    have hpasses := passes_sign hr hdot nofun nofun
    obtain ⟨used, hused, hsemicolon, hlog⟩ :=
      (balks_knownName _ _).bind_pure _ r.advance s hpasses.ready hrun
    exact ⟨_, hpasses.trans hused, by simpa [Symbol.sign] using hsemicolon, hlog⟩
  · cases hrun

theorem spares_output : output.Spares := by
  intro r s mention hr hrun
  obtain ⟨output, hpasses, -⟩ := output_sound hr hrun
  exact ⟨_, hpasses, fun hmem ↦ (output.inside _ hmem).semicolon rfl⟩

theorem balks_connection (block : NameId) (blockName : String) :
    (connection block blockName).Balks := by
  refine balks_output.bind spares_output fun source ↦ ?_
  refine (balks_expect _ _).bind (spares_expect _ nofun nofun nofun) fun _ ↦ ?_
  refine (balks_knownName _ _).bind (spares_knownName _ _) fun target ↦ ?_
  split
  · refine (balks_expect _ _).bind (spares_expect _ nofun nofun nofun) fun _ ↦ ?_
    refine (balks_knownName _ _).bind (spares_knownName _ _) fun input ↦ ?_
    exact (balks_expect _ _).bind_pure _
  · exact balks_refuse _ _ _

end Attempt

/-! ### Skipping the rest of a statement -/

namespace Reader

theorem Ready.passes_skipTo (hr : r.Ready .query) (hfront : ∀ symbol ∈ front, symbol.Inside)
    (hsymbols : r.symbols = front ++ .sign .semicolon :: more) :
    r.Passes .query front (r.skipTo [.semicolon, .closeBrace, .heading]) := by
  induction front generalizing r with
  | nil =>
    rw [skipTo, dif_pos (by simp [lexeme_of_sign hsymbols, Anchor.isAt])]
    exact .refl hr
  | cons symbol front ih =>
    obtain ⟨hsymbol, hrest⟩ := List.forall_mem_cons.mp hfront
    obtain ⟨hend, hcurrent⟩ := front_of_symbols hsymbols
    obtain ⟨htake, hnext⟩ := hr.take hsymbols
    have hlexeme : r.current.lexeme = symbol.lexeme := congrArg Symbol.lexeme hcurrent
    have hinside : ¬(r.atEnd = true ∨
        [.semicolon, .closeBrace, .heading].any (Anchor.isAt · r.current.lexeme) = true) := by
      have hsemicolon := hsymbol.semicolon
      have hbrace := hsymbol.closeBrace
      have hheading := hsymbol.heading
      rw [hend, hlexeme]
      cases hl : symbol.lexeme <;> simp_all [Anchor.isAt]
    rw [skipTo, dif_neg hinside]
    exact htake.trans (ih htake.ready hrest hnext)

/-- Skipping a statement takes its symbols up to the semicolon, and no more. -/
theorem Ready.passes_skipStatement (hr : r.Ready .query)
    (hfront : ∀ symbol ∈ front, symbol.Inside)
    (hsymbols : r.symbols = front ++ .sign .semicolon :: more) :
    r.Passes .query (front ++ [.sign .semicolon]) r.skipStatement := by
  have hpasses := hr.passes_skipTo hfront hsymbols
  rw [hpasses.symbols] at hsymbols
  have hrest := List.append_cancel_left hsymbols
  rw [skipStatement, passSemicolon, if_pos (lexeme_of_sign hrest)]
  exact hpasses.trans (hpasses.ready.take hrest).1

end Reader

/-- What was taken without a semicolon is a part of what stands before the first one. -/
theorem exists_rest_of_front {symbol : Symbol} {rest : List Symbol} (hused : symbol ∉ used)
    (h : used ++ rest = front ++ symbol :: more) :
    ∃ later, front = used ++ later ∧ rest = later ++ symbol :: more := by
  rcases List.append_eq_append_iff.mp h with ⟨later, hfront, hrest⟩ | ⟨extra, hextra, hmore⟩
  · exact ⟨later, hfront, hrest⟩
  · cases extra with
    | nil => exact ⟨[], by simpa using hextra.symm, hmore.symm⟩
    | cons first extra =>
      obtain ⟨rfl, -⟩ := List.cons.inj hmore
      exact absurd (hextra ▸ List.mem_append_right front List.mem_cons_self) hused

/-- Connections and strays end at their first semicolons. -/
theorem Link.symbols_eq_of_front {link : Link} {rest : List Symbol}
    (hfront : ∀ symbol ∈ front, symbol.Inside)
    (h : link.symbols ++ rest = front ++ .sign .semicolon :: more) :
    link.symbols = front ++ [.sign .semicolon] := by
  obtain ⟨body, hbody, hinside⟩ := link.exists_front
  rw [hbody, List.append_assoc] at h
  obtain ⟨later, rfl, hlater⟩ :=
    exists_rest_of_front (fun hmem ↦ (hinside _ hmem).semicolon rfl) h
  cases later with
  | nil => rw [hbody, List.append_nil]
  | cons symbol later =>
    -- a connection that ended earlier would leave its semicolon inside the stray
    obtain ⟨rfl, -⟩ := List.cons.inj hlater
    have hsemicolon := hfront (.sign .semicolon) (List.mem_append_right _ List.mem_cons_self)
    exact absurd rfl hsemicolon.semicolon

/-! ### Strays -/

variable {settings : Settings} {b : Builder} {d : Draft} {id : NameId} {block : String}

/-- Where reading a connection fails, the rest of the stray is skipped. -/
theorem Shows.skipped_stray (hb : Shows settings .query d b)
    (hfront : ∀ symbol ∈ front, symbol.Inside)
    (hsymbols : b.reader.symbols = front ++ .sign .semicolon :: more)
    (hrun : (connection id block).run b.reader = (none, r)) :
    Reporting 1 (Done settings .query (front ++ [.sign .semicolon]) d) b
      { b with reader := r.skipStatement } := by
  -- reading gave up before the semicolon or on it, so the skip stops behind the same one
  obtain ⟨used, hpasses, hused, hlog⟩ := balks_connection id block _ _ hb.ready hrun
  rw [hpasses.symbols] at hsymbols
  obtain ⟨later, rfl, hlater⟩ := exists_rest_of_front hused hsymbols
  have hskip := hpasses.ready.passes_skipStatement
    (fun symbol h ↦ hfront symbol (List.mem_append_right used h)) hlater
  have hcarried : (r.hushed.carrying r.log).skipStatement =
      r.hushed.skipStatement.carrying r.log := r.hushed.skipStatement_carrying
  rw [r.carrying_hushed] at hcarried
  rw [hcarried]
  constructor
  · rw [Builder.hushed_of_quiet hb.ready.log, List.append_assoc]
    have hhushed : (r.hushed.skipStatement.carrying r.log).hushed = r.hushed.skipStatement :=
      hskip.ready.hushed_eq
    have hdone := hb.passed (hpasses.trans hskip)
    rwa [← hhushed] at hdone
  · change (r.log ++ r.hushed.skipStatement.log).length = b.reader.log.length + 1
    rw [hskip.ready.log, hb.ready.log, List.append_nil, hlog, List.length_nil]

/-- A connection that is not allowed is read and refused. -/
theorem Shows.refused_stray (hb : Shows settings .query d b)
    (hblock : b.reader.names.string? id = some block) {connected : Connection} {link : Link}
    (hjoins : Joins .query block connected link b.reader r)
    (hrejected : ¬ Act.link.allowed d.schematic link) :
    Reporting 1 (Done settings .query link.symbols d) b
      (Builder.connect id { b with reader := r } connected) := by
  have hfiled := mt (hb.joined hjoins hblock).1 hrejected
  have hlog := hjoins.passes.ready.log
  rw [Builder.connect_eq] at hfiled ⊢
  cases hn : b.network.connect connected.source.terminal id connected.input with
  | ok network =>
    rw [hn] at hfiled
    exact absurd hlog hfiled
  | error error =>
    constructor
    · rw [Builder.hushed_of_quiet hb.ready.log]
      have hdone := hb.passed hjoins.passes
      rwa [← hjoins.passes.ready.hushed_eq] at hdone
    · change (r.log ++ [_]).length = b.reader.log.length + 1
      rw [hlog, hb.ready.log]
      rfl

/-- A stray is passed with one report, and nothing is built of it. -/
theorem Shows.passed_stray (hb : Shows settings .query d b)
    (hblock : b.reader.names.string? id = some block) (hstray : Stray d.schematic block used)
    (hsymbols : b.reader.symbols = used ++ more) :
    Reporting 1 (Done settings .query used d) b
      (Builder.statement (connection id block) (Builder.connect id) b) := by
  obtain ⟨front, rfl, hfront⟩ := hstray.ends
  rw [List.append_assoc] at hsymbols
  rcases hrun : (connection id block).run b.reader with ⟨_ | connected, r⟩
  · rw [Builder.statement_eq, hrun]
    exact hb.skipped_stray hfront hsymbols hrun
  · obtain ⟨link, hjoins⟩ := connection_sound hb.ready hblock hrun
    rw [statement_of_run hrun]
    have hlink : link.symbols = front ++ [.sign .semicolon] :=
      Link.symbols_eq_of_front hfront (hjoins.passes.symbols.symm.trans hsymbols)
    rw [← hlink]
    exact hb.refused_stray hblock hjoins (hstray.rejected link hlink hjoins.target)

/-! ### Blocks with strays -/

theorem inside_of_stray {s : Schematic} (h : Stray s block used)
    (hsymbols : r.symbols = used ++ more) : r.atSectionEnd = false := by
  obtain ⟨front, rfl, hfront⟩ := h.ends
  obtain ⟨symbol, rest, hrest, hclose, hheading⟩ : ∃ symbol rest,
      front ++ [.sign .semicolon] ++ more = symbol :: rest ∧ symbol.lexeme ≠ .closeBrace ∧
        ∀ heading, symbol.lexeme ≠ .heading heading := by
    cases front with
    | nil => exact ⟨_, _, rfl, nofun, nofun⟩
    | cons symbol front =>
      have hinside := hfront symbol List.mem_cons_self
      exact ⟨symbol, _, rfl, hinside.closeBrace, hinside.heading⟩
  obtain ⟨hend, hcurrent⟩ := Reader.front_of_symbols (hsymbols.trans hrest)
  have hlexeme : r.current.lexeme = symbol.lexeme := congrArg Symbol.lexeme hcurrent
  rw [← hlexeme] at hclose hheading
  rw [Reader.atEnd, beq_eq_false_iff_ne] at hend
  rw [Reader.atSectionEnd]
  split
  · exact absurd ‹_› hclose
  · exact absurd ‹_› (hheading _)
  · exact absurd ‹_› hend
  · rfl

section Loop

variable {step : Builder → Builder} {d' d'' : Draft} {j k : Nat}
  {progress : ∀ b : Builder, b.reader.atSectionEnd = false →
    (step b).reader.unread < b.reader.unread}

theorem reporting_done_refl (h : Shows settings .query d b.hushed) :
    Reporting 0 (Done settings .query [] d) b b :=
  ⟨.refl h, rfl⟩

/-- One more turn of a loop. -/
theorem reporting_untilSectionEnd (hinside : b.reader.atSectionEnd = false)
    (hstep : Reporting j (Done settings .query used d') b (step b))
    (hrest : Reporting k (Done settings .query more d'') (step b)
      (Builder.untilSectionEnd step progress (step b))) :
    Reporting (j + k) (Done settings .query (used ++ more) d'') b
      (Builder.untilSectionEnd step progress b) := by
  rw [Builder.untilSectionEnd_of_inside hinside]
  exact hstep.trans hrest .trans

end Loop

/-- The connections of a block, with strays among them. -/
theorem LinksStrewn.loop {s : Schematic} {links : List Link} {u : List Symbol} {k : Nat}
    (h : LinksStrewn block s links u k) (progress : ∀ b : Builder, b.reader.atSectionEnd = false →
      (Builder.statement (connection id block) (Builder.connect id) b).reader.unread <
        b.reader.unread)
    (hb : Shows settings .query d b.hushed) (hs : d.schematic = s)
    (hname : b.reader.names.string? id = some block)
    (htargets : ∀ link ∈ links, link.target = block) (hsymbols : b.reader.symbols = u ++ more)
    (hfront : frontLexeme more = .closeBrace)
    (hallowed : Act.link.drawn.each.allowed d links) :
    Reporting k (Done settings .query u (Act.link.drawn.each.after d links)) b
      (Builder.untilSectionEnd (Builder.statement (connection id block) (Builder.connect id))
        progress b) := by
  -- a stray leaves its report in the reader, so that each turn is seen from the builder hushed
  have hoblivious : Builder.Oblivious
      (Builder.statement (connection id block) (Builder.connect id)) :=
    Builder.oblivious_statement (composes_oblivious.connection id block)
      (Builder.oblivious_connect id)
  induction h generalizing b d with
  | nil =>
    rw [Builder.untilSectionEnd_of_end (atSectionEnd_of_front _ (hsymbols ▸ hfront))]
    exact reporting_done_refl hb
  | @link s link links u k _ ih =>
    subst hs
    rw [List.append_assoc] at hsymbols
    obtain ⟨htarget, htargets⟩ := List.forall_mem_cons.mp htargets
    have henacts : EnactsPhrases settings .query b.reader.names _ Act.link.drawn _ :=
      enactsPhrases_link hname
    have hdone := henacts.complete hb (Names.Extends.refl _) ⟨rfl, htarget⟩ hsymbols hallowed.1
    have hstep := hoblivious.reporting_of_quiet hdone hdone.shows.ready.log
    have hrest := ih hstep.hushed.shows rfl (hstep.hushed.grown.string? hname) htargets
      (hstep.hushed.rest hsymbols) hallowed.2
    have hall := reporting_untilSectionEnd (henacts.starts ⟨rfl, htarget⟩ hsymbols) hstep hrest
    rwa [Nat.zero_add] at hall
  | @stray s links used u k hstray _ ih =>
    subst hs
    rw [List.append_assoc] at hsymbols
    have hstep := hoblivious.reporting (hb.passed_stray hname hstray hsymbols)
    have hrest := ih hstep.hushed.shows rfl (hstep.hushed.grown.string? hname) htargets
      (hstep.hushed.rest hsymbols) hallowed
    have hall := reporting_untilSectionEnd (inside_of_stray hstray hsymbols) hstep hrest
    rwa [Nat.add_comm] at hall

variable {k : Nat}

theorem blockBody_strewn {links : List Link} {u : List Symbol}
    (h : LinksStrewn block d.schematic links u k) (hb : Shows settings .query d b)
    (hname : b.reader.names.string? id = some block)
    (htargets : ∀ link ∈ links, link.target = block)
    (hsymbols : b.reader.symbols = u ++ .sign .closeBrace :: more)
    (hallowed : Act.link.drawn.each.allowed d links) :
    Reporting k (Done settings .query (u ++ [.sign .closeBrace])
      (Act.link.drawn.each.after d links)) b (b.blockBody id block) := by
  have hloop := h.loop (Builder.unread_statement_lt (consumes_connection id block)
    (Builder.reaches_connect id)) (by rwa [Builder.hushed_of_quiet hb.ready.log]) rfl hname
    htargets hsymbols rfl hallowed
  have hclose := hloop.hushed.rest hsymbols
  have hoblivious : Builder.Oblivious (Builder.statement blockEnd fun b _ ↦ b) :=
    Builder.oblivious_statement (composes_oblivious.expect _ _) fun _ _ _ ↦ rfl
  have hend := hloop.hushed.shows.passed (hloop.hushed.shows.ready.take hclose).1
  have hrun : blockEnd.run _ = _ := expect_complete _ hclose
  rw [← statement_of_run (f := fun b _ ↦ b) hrun] at hend
  exact hloop.trans (hoblivious.reporting_of_quiet hend hend.shows.ready.log) .trans

theorem blockFor_strewn {block : Block} {u : List Symbol}
    (h : LinksStrewn block.device d.schematic block.links u k) (hb : Shows settings .query d b)
    (hsymbols : b.reader.symbols =
      [.name block.device, .sign .openBrace] ++ (u ++ .sign .closeBrace :: more))
    (htargets : ∀ link ∈ block.links, link.target = block.device)
    (hallowed : Act.block.allowed d block) :
    Reporting k (Done settings .query
        ([.name block.device, .sign .openBrace] ++ (u ++ [.sign .closeBrace]))
        (Act.block.after d block)) b (b.blockFor b.reader.current) := by
  obtain ⟨id, b₁, hstring, hopened, heq⟩ := blockFor_opened hb hsymbols hallowed.1
  have hbody := blockBody_strewn h hopened.shows hstring htargets (hopened.rest hsymbols)
    hallowed.2
  have hall := (Reporting.of_quiet hopened hb.ready.log hopened.shows.ready.log).trans hbody
    Done.trans
  rwa [Nat.zero_add, ← heq] at hall

/-- A block with strays in it. -/
theorem BlockStrewn.reporting {block : Block} {u u' : List Symbol}
    (h : BlockStrewn d block u u' k) (hb : Shows settings .query d b)
    (htargets : ∀ link ∈ block.links, link.target = block.device)
    (hsymbols : b.reader.symbols = u' ++ more) (hallowed : Act.block.allowed d block) :
    Reporting k (Done settings .query u' (Act.block.after d block)) b b.block := by
  cases h with | intro hlinks =>
  rw [List.append_assoc, List.append_assoc] at hsymbols
  have hrun := blockHeader_complete hsymbols hb.ready
  have hheader := hb.passed (hb.ready.take hsymbols).1
  have hblock := blockFor_strewn hlinks hheader.shows (hheader.rest hsymbols) htargets hallowed
  rw [Builder.block_eq, statement_of_run hrun, List.append_assoc]
  have hall := (Reporting.of_quiet hheader hb.ready.log hheader.shows.ready.log).trans hblock
    Done.trans
  rwa [Nat.zero_add] at hall

/-- The blocks of a `connections` section, with strays in them. -/
theorem blocks_strewn {blocks : List Block} {u u' : List Symbol}
    (h : Strewn Act.block BlockStrewn d blocks u u' k)
    (progress : ∀ b : Builder, b.reader.atSectionEnd = false →
      b.block.reader.unread < b.reader.unread) (hb : Shows settings .query d b.hushed)
    (htargets : ∀ block ∈ blocks, ∀ link ∈ block.links, link.target = block.device)
    (hsymbols : b.reader.symbols = u' ++ more) (hfront : frontLexeme more = .closeBrace)
    (hallowed : Act.block.each.allowed d blocks) :
    Reporting k (Done settings .query u' (Act.block.each.after d blocks)) b
      (Builder.untilSectionEnd Builder.block progress b) := by
  induction h generalizing b with
  | nil =>
    rw [Builder.untilSectionEnd_of_end (atSectionEnd_of_front _ (hsymbols ▸ hfront))]
    exact reporting_done_refl hb
  | @cons d block blocks u u' v v' j k hblock _ ih =>
    rw [List.append_assoc] at hsymbols
    obtain ⟨htargets, hothers⟩ := List.forall_mem_cons.mp htargets
    have hstep := Builder.oblivious_block.reporting
      (hblock.reporting hb htargets hsymbols hallowed.1)
    have hrest := ih hstep.hushed.shows hothers (hstep.hushed.rest hsymbols) hallowed.2
    have hinside : b.reader.atSectionEnd = false := by
      cases hblock
      exact inside_of_keyword hsymbols
    exact reporting_untilSectionEnd hinside hstep hrest

end Breadboard.Description
