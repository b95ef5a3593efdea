import Breadboard.Proofs.Description.Depiction
import Breadboard.Proofs.Description.Sentences

/-!
# Connections and watched outputs

What is read of a connection, of a block's beginning and end, and of a demand to watch outputs is
what they say, and each is read where it stands in front of the reader.
-/

set_option autoImplicit false
set_option relaxedAutoImplicit false

namespace Breadboard.Description

namespace Attempt

variable {r s : Reader} {mode : NameMode} {more : List Symbol}

/-! ### Outputs -/

/-- An output that is read is spelled in front of the reader, and called by this name. -/
theorem output_sound (hr : r.Ready mode) {mention : OutputMention}
    (h : output.run r = (some mention, s)) :
    ∃ name : OutputName, r.Passes mode name.symbols s ∧ Calls s.names mention.terminal name := by
  obtain ⟨device, t, hdevice, h⟩ := run_bind_eq_some.mp h
  obtain ⟨hpasses, hid⟩ := knownName_sound hr hdevice
  rw [run_current_bind] at h
  split at h
  · next hdot =>
    rw [run_advance_bind] at h
    obtain ⟨port, u, hport, h⟩ := run_bind_eq_some.mp h
    cases h
    have hdotPasses := passes_sign hpasses.ready hdot nofun nofun
    obtain ⟨hportPasses, hportId⟩ := knownName_sound hdotPasses.ready hport
    refine ⟨⟨device.text, some port.text⟩, (hpasses.trans hdotPasses).trans hportPasses, ?_, ?_⟩
    · exact (hdotPasses.trans hportPasses).grown.string? hid
    · exact congrArg some hportId
  · cases h
    exact ⟨⟨device.text, none⟩, hpasses, hid, rfl⟩

/-- An output that is spelled and known is read. -/
theorem output_complete (hr : r.Ready mode) {name : OutputName}
    (hsymbols : r.symbols = name.symbols ++ more) (hdot : frontLexeme more ≠ .dot)
    (hknown : mode = .query → ∃ mention : OutputMention, Calls r.names mention.terminal name) :
    ∃ mention s, output.run r = (some mention, s) ∧ r.Passes mode name.symbols s ∧
      Calls s.names mention.terminal name := by
  have hdevice : mode = .query → r.names.Has name.device := fun hmode ↦ by
    obtain ⟨mention, hcalls⟩ := hknown hmode
    exact ⟨_, hcalls.device⟩
  obtain ⟨device, port⟩ := name
  cases port with
  | none =>
    obtain ⟨mention, hrun, -, hpasses, hid⟩ :=
      knownName_complete hr .unknownDevice .deviceName hsymbols hdevice
    have hfront : r.advance.current.lexeme ≠ .dot := by
      rwa [← Reader.frontLexeme_symbols, (hr.take hsymbols).2]
    refine ⟨⟨⟨mention.id, none⟩, mention.position⟩, r.advance, ?_, hpasses, hid, rfl⟩
    refine run_bind_eq_some.mpr ⟨mention, r.advance, hrun, ?_⟩
    rw [run_current_bind, if_neg hfront]
    rfl
  | some port =>
    have hport : mode = .query → r.names.Has port := fun hmode ↦ by
      obtain ⟨mention, hcalls⟩ := hknown hmode
      obtain ⟨id, -, hid⟩ := Option.map_eq_some_iff.mp hcalls.port
      exact ⟨id, hid⟩
    obtain ⟨mention, hrun, -, hpasses, hid⟩ :=
      knownName_complete hr .unknownDevice .deviceName hsymbols hdevice
    have hrest := (hr.take hsymbols).2
    obtain ⟨hdotPasses, hrest'⟩ := hpasses.ready.take hrest
    have hpasses' := hpasses.trans hdotPasses
    obtain ⟨other, hrun', -, hportPasses, hportId⟩ := knownName_complete hpasses'.ready
      .unknownPort .portName hrest' fun hmode ↦ hpasses'.grown.has (hport hmode)
    refine ⟨⟨⟨mention.id, some other.id⟩, mention.position⟩, _, ?_, hpasses'.trans hportPasses,
      (hdotPasses.trans hportPasses).grown.string? hid, congrArg some hportId⟩
    refine run_bind_eq_some.mpr ⟨mention, r.advance, hrun, ?_⟩
    rw [run_current_bind, if_pos (lexeme_of_sign hrest), run_advance_bind]
    exact run_bind_eq_some.mpr ⟨other, _, hrun', rfl⟩

/-- Outputs are read as they are spelled. -/
theorem reads_output (mode : NameMode) : Reads mode output
    (fun names mention name ↦ Calls names mention.terminal name) OutputName.symbols where
  grow h hgrown := h.grow hgrown
  sound hr h := output_sound hr h
  complete hr hsymbols hdot hknown := output_complete hr hsymbols hdot hknown

/-! ### Connections -/

/-- A connection that was read in a block, as the connection that it is. -/
structure Joins (mode : NameMode) (block : String) (connection : Connection) (link : Link)
    (r s : Reader) : Prop where
  target : link.target = block
  passes : r.Passes mode link.symbols s
  source : Calls s.names connection.source.terminal link.source
  input : s.names.string? connection.input = some link.input

variable {id : NameId} {block : String}

/-- A connection that is read is spelled in front of the reader. -/
theorem connection_sound (hr : r.Ready mode) (hblock : r.names.string? id = some block)
    {connected : Connection} (h : (connection id block).run r = (some connected, s)) :
    ∃ link, Joins mode block connected link r s := by
  obtain ⟨source, t, hsource, h⟩ := run_bind_eq_some.mp h
  obtain ⟨name, hpasses, hcalls⟩ := output_sound hr hsource
  obtain ⟨_, u, hto, h⟩ := run_bind_eq_some.mp h
  have htoPasses : t.Passes mode [.keyword .toWord] u := expect_sound hpasses.ready nofun nofun hto
  obtain ⟨target, v, htarget, h⟩ := run_bind_eq_some.mp h
  obtain ⟨htargetPasses, htargetId⟩ := knownName_sound htoPasses.ready htarget
  split at h
  · next hsame =>
    obtain ⟨_, w, hdot, h⟩ := run_bind_eq_some.mp h
    have hdotPasses : v.Passes mode [.sign .dot] w :=
      expect_sound htargetPasses.ready nofun nofun hdot
    obtain ⟨input, x, hinput, h⟩ := run_bind_eq_some.mp h
    obtain ⟨hinputPasses, hinputId⟩ := knownName_sound hdotPasses.ready hinput
    obtain ⟨_, y, hsemicolon, h⟩ := run_bind_eq_some.mp h
    have hend : x.Passes mode [.sign .semicolon] y :=
      expect_sound hinputPasses.ready nofun nofun hsemicolon
    cases h
    have hfirst := hpasses.trans htoPasses
    have hrest := hdotPasses.trans hinputPasses
    have hname : target.text = block := by
      have hid := (hfirst.trans htargetPasses).grown.string? hblock
      rw [hsame, hid, Option.some_inj] at htargetId
      exact htargetId.symm
    refine ⟨⟨name, target.text, input.text⟩, hname, ?_, ?_, ?_⟩
    · exact hpasses.trans (htoPasses.trans (htargetPasses.trans (hrest.trans hend)))
    · exact hcalls.grow (htoPasses.trans (htargetPasses.trans (hrest.trans hend))).grown
    · exact hend.grown.string? hinputId
  · cases h

/-- A connection that is spelled, and whose names are known, is read. -/
theorem connection_complete (hr : r.Ready mode) (hblock : r.names.string? id = some block)
    {link : Link} (htarget : link.target = block) (hsymbols : r.symbols = link.symbols ++ more)
    (hknown : mode = .query →
      (∃ mention : OutputMention, Calls r.names mention.terminal link.source) ∧
        r.names.Has link.input) :
    ∃ connected s, (connection id block).run r = (some connected, s) ∧
      Joins mode block connected link r s := by
  have hfirst : r.symbols = link.source.symbols ++ .keyword .toWord :: .name link.target ::
      .sign .dot :: .name link.input :: .sign .semicolon :: more := by
    rw [hsymbols, Link.symbols, List.append_assoc]
    rfl
  obtain ⟨source, t, hsource, hpasses, hcalls⟩ :=
    output_complete hr hfirst nofun fun hmode ↦ (hknown hmode).1
  have hto : t.symbols = .keyword .toWord :: .name link.target :: .sign .dot ::
      .name link.input :: .sign .semicolon :: more := by
    rw [hpasses.symbols] at hfirst
    exact List.append_cancel_left hfirst
  obtain ⟨htoPasses, hname⟩ := hpasses.ready.take hto
  have hblock' := (hpasses.trans htoPasses).grown.string? hblock
  obtain ⟨target, htargetRun, -, htargetPasses, htargetId⟩ := knownName_complete htoPasses.ready
    .unknownDevice .deviceName hname fun _ ↦ ⟨id, htarget ▸ hblock'⟩
  have hsame : target.id = id := by
    rw [htarget] at htargetId
    exact htargetPasses.ready.names.faithful _ _ block htargetId
      (htargetPasses.grown.string? hblock')
  have hdot := (htoPasses.ready.take hname).2
  obtain ⟨hdotPasses, hinput⟩ := htargetPasses.ready.take hdot
  have hbefore := hpasses.trans (htoPasses.trans (htargetPasses.trans hdotPasses))
  obtain ⟨input, hinputRun, -, hinputPasses, hinputId⟩ := knownName_complete hdotPasses.ready
    .unknownPort .portName hinput fun hmode ↦ hbefore.grown.has (hknown hmode).2
  have hsemicolon := (hdotPasses.ready.take hinput).2
  obtain ⟨hend, -⟩ := hinputPasses.ready.take hsemicolon
  have hafter := hdotPasses.trans (hinputPasses.trans hend)
  refine ⟨⟨source, input.id⟩, _, ?_, htarget,
    hpasses.trans (htoPasses.trans (htargetPasses.trans hafter)),
    hcalls.grow (htoPasses.trans (htargetPasses.trans hafter)).grown, hend.grown.string? hinputId⟩
  refine run_bind_eq_some.mpr ⟨source, t, hsource, ?_⟩
  refine run_bind_eq_some.mpr ⟨(), _, expect_complete _ hto, ?_⟩
  refine run_bind_eq_some.mpr ⟨target, _, htargetRun, ?_⟩
  rw [if_pos hsame]
  refine run_bind_eq_some.mpr ⟨(), _, expect_complete _ hdot, ?_⟩
  refine run_bind_eq_some.mpr ⟨input, _, hinputRun, ?_⟩
  exact run_bind_eq_some.mpr ⟨(), _, expect_complete _ hsemicolon, rfl⟩

/-! ### Blocks -/

theorem blockHeader_sound (hr : r.Ready mode) {header : Token}
    (h : blockHeader.run r = (some header, s)) :
    r.Passes mode [.keyword .device] s ∧ s.current = header ∧ header.lexeme = .name := by
  obtain ⟨_, t, hdevice, h⟩ := run_bind_eq_some.mp h
  have hpasses : r.Passes mode [.keyword .device] t := expect_sound hr nofun nofun hdevice
  rw [run_current_bind] at h
  split at h
  · next hname =>
    cases h
    exact ⟨hpasses, rfl, hname⟩
  · cases h

theorem blockHeader_complete {name : String}
    (hsymbols : r.symbols = .keyword .device :: .name name :: more) (hr : r.Ready mode) :
    blockHeader.run r = (some r.advance.current, r.advance) := by
  obtain ⟨-, hsymbol⟩ := Reader.front_of_symbols (hr.take hsymbols).2
  obtain ⟨hlexeme, -⟩ := symbol_eq_name_iff.mp hsymbol
  refine run_bind_eq_some.mpr ⟨(), _, expect_complete _ hsymbols, ?_⟩
  rw [run_current_bind, if_pos hlexeme]
  rfl

theorem blockOpening_sound (hr : r.Ready mode) (hname : r.current.lexeme = .name) {a : Unit}
    (h : blockOpening.run r = (some a, s)) :
    r.Passes mode [.name r.current.text, .sign .openBrace] s := by
  rw [blockOpening, run_advance_bind] at h
  have hpasses := passes_name hr hname
  exact hpasses.trans (expect_sound hpasses.ready nofun nofun h)

theorem blockOpening_complete {name : String} (hr : r.Ready mode)
    (hsymbols : r.symbols = .name name :: .sign .openBrace :: more) :
    blockOpening.run r = (some (), r.advance.advance) := by
  rw [blockOpening, run_advance_bind]
  exact expect_complete _ (hr.take hsymbols).2

/-! ### Demands to watch -/

/-- The outputs to watch, after an optional `trace`. -/
def watched : Attempt (List OutputMention) := do
  let outputs ← separated output
  semicolon
  return outputs

theorem run_monitorStatement (r : Reader) :
    monitorStatement.run r =
      watched.run (if r.current.lexeme = .keyword .trace then r.advance else r) := by
  rw [monitorStatement, run_current_bind]
  split <;> rfl

/-- Outputs that were read go by the names that were written. -/
def Watches (names : Names) (mentions : List OutputMention) (watch : Watch) : Prop :=
  List.Forall₂ (fun mention name ↦ Calls names mention.terminal name) mentions watch.outputs

/-- The symbols of a demand to watch, after an optional `trace`. -/
def watchSymbols (watch : Watch) : List Symbol :=
  watch.first.symbols ++ afterComma OutputName.symbols watch.more ++ [.sign .semicolon]

/-- Outputs to watch that are read are spelled in front of the reader. -/
theorem watched_sound (hr : r.Ready mode) {mentions : List OutputMention}
    (h : watched.run r = (some mentions, s)) :
    ∃ watch, r.Passes mode (watchSymbols watch) s ∧ Watches s.names mentions watch := by
  obtain ⟨list, t, hlist, h⟩ := run_bind_eq_some.mp h
  obtain ⟨first, u, hfirst, hlist⟩ := run_bind_eq_some.mp hlist
  obtain ⟨others, v, hothers, hlist⟩ := run_bind_eq_some.mp hlist
  cases hlist
  obtain ⟨_, w, hsemicolon, h⟩ := run_bind_eq_some.mp h
  cases h
  obtain ⟨name, hpasses, hcalls⟩ := output_sound hr hfirst
  obtain ⟨names, hnames, hmore⟩ := commaItems_sound (reads_output mode) hpasses.ready hothers
  have hend : v.Passes mode [.sign .semicolon] w :=
    expect_sound hnames.ready nofun nofun hsemicolon
  refine ⟨⟨name, names⟩, (hpasses.trans hnames).trans hend, ?_⟩
  exact .cons (hcalls.grow (hnames.trans hend).grown)
    (hmore.imp fun _ _ hcalls ↦ hcalls.grow hend.grown)

theorem watched_complete (hr : r.Ready mode) {watch : Watch}
    (hsymbols : r.symbols = watchSymbols watch ++ more)
    (hknown : mode = .query → ∀ name ∈ watch.outputs,
      ∃ mention : OutputMention, Calls r.names mention.terminal name) :
    ∃ mentions s, watched.run r = (some mentions, s) ∧ r.Passes mode (watchSymbols watch) s ∧
      Watches s.names mentions watch := by
  obtain ⟨first, others⟩ := watch
  have hstart : r.symbols = first.symbols ++
      (afterComma OutputName.symbols others ++ .sign .semicolon :: more) := by
    rw [hsymbols, watchSymbols]
    simp
  have hfront : frontLexeme (afterComma OutputName.symbols others ++ .sign .semicolon :: more) ≠
      .dot := by
    cases others <;> exact nofun
  obtain ⟨mention, t, hfirst, hpasses, hcalls⟩ := output_complete hr hstart hfront fun hmode ↦
    hknown hmode first List.mem_cons_self
  have hrest : t.symbols = afterComma OutputName.symbols others ++ .sign .semicolon :: more := by
    rw [hpasses.symbols] at hstart
    exact List.append_cancel_left hstart
  obtain ⟨mentions, u, hothers, hnames, hmore⟩ := commaItems_complete (reads_output mode)
    hpasses.ready hrest nofun nofun fun hmode name hname ↦
      (hknown hmode name (List.mem_cons_of_mem first hname)).imp fun _ h ↦ h.grow hpasses.grown
  have hsemicolon : u.symbols = .sign .semicolon :: more := by
    rw [hnames.symbols] at hrest
    exact List.append_cancel_left hrest
  obtain ⟨hend, -⟩ := hnames.ready.take hsemicolon
  refine ⟨mention :: mentions, _, ?_, (hpasses.trans hnames).trans hend, ?_⟩
  · refine run_bind_eq_some.mpr ⟨mention :: mentions, u, ?_, ?_⟩
    · refine run_bind_eq_some.mpr ⟨mention, t, hfirst, ?_⟩
      exact run_bind_eq_some.mpr ⟨mentions, u, hothers, rfl⟩
    · exact run_bind_eq_some.mpr ⟨(), _, expect_complete _ hsemicolon, rfl⟩
  · exact .cons (hcalls.grow (hnames.trans hend).grown)
      (hmore.imp fun _ _ hcalls ↦ hcalls.grow hend.grown)

theorem watchSpelled_iff {watch : Watch} {used : List Symbol} :
    WatchSpelled watch used ↔ ∃ optional, (optional = [] ∨ optional = [.keyword .trace]) ∧
      used = optional ++ watchSymbols watch := by
  constructor
  · rintro ⟨hoptional⟩
    exact ⟨_, hoptional, by simp [watchSymbols, afterComma]⟩
  · rintro ⟨optional, hoptional, rfl⟩
    have hspelled : WatchSpelled watch _ := .intro hoptional
    simpa [watchSymbols, afterComma] using hspelled

/-- A demand to watch that is read is spelled in front of the reader. -/
theorem monitorStatement_sound (hr : r.Ready mode) {mentions : List OutputMention}
    (h : monitorStatement.run r = (some mentions, s)) :
    ∃ watch used, WatchSpelled watch used ∧ r.Passes mode used s ∧
      Watches s.names mentions watch := by
  rw [run_monitorStatement] at h
  split at h
  · next htrace =>
    have hpasses := passes_keyword hr htrace
    obtain ⟨watch, hwatch, hmentions⟩ := watched_sound hpasses.ready h
    exact ⟨watch, _, watchSpelled_iff.mpr ⟨_, .inr rfl, rfl⟩, hpasses.trans hwatch, hmentions⟩
  · obtain ⟨watch, hwatch, hmentions⟩ := watched_sound hr h
    exact ⟨watch, _, watchSpelled_iff.mpr ⟨_, .inl rfl, rfl⟩, hwatch, hmentions⟩

/-- A demand to watch that is spelled, and whose outputs are known, is read. -/
theorem monitorStatement_complete (hr : r.Ready mode) {watch : Watch} {used : List Symbol}
    (hspelled : WatchSpelled watch used) (hsymbols : r.symbols = used ++ more)
    (hknown : mode = .query → ∀ name ∈ watch.outputs,
      ∃ mention : OutputMention, Calls r.names mention.terminal name) :
    ∃ mentions s, monitorStatement.run r = (some mentions, s) ∧ r.Passes mode used s ∧
      Watches s.names mentions watch := by
  rw [run_monitorStatement]
  obtain ⟨optional, rfl | rfl, rfl⟩ := watchSpelled_iff.mp hspelled
  · have hname : r.current.lexeme ≠ .keyword .trace := by
      rw [← Reader.frontLexeme_symbols, hsymbols]
      obtain ⟨⟨device, port⟩, others⟩ := watch
      cases port <;> exact nofun
    rw [if_neg hname]
    exact watched_complete hr hsymbols hknown
  · obtain ⟨htrace, hrest⟩ := hr.take hsymbols
    rw [if_pos (lexeme_of_sign hsymbols)]
    obtain ⟨mentions, s, hrun, hpasses, hmentions⟩ := watched_complete htrace.ready hrest
      fun hmode name hname ↦ (hknown hmode name hname).imp fun _ h ↦ h.grow htrace.grown
    exact ⟨mentions, s, hrun, htrace.trans hpasses, hmentions⟩

end Attempt

end Breadboard.Description
