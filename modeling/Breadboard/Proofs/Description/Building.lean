import Breadboard.Proofs.Description.ReadingInvariants
import Breadboard.Proofs.Description.Outputs
import Breadboard.Proofs.Description.Rules

/-!
# Statements carried out while reading

A builder shows a draft when it is ready to read on, its network is what the schematic of the draft
depicts, and its table holds the names that the draft has met (`Shows`). A step of a builder enacts
the phrases of an act when it takes a phrase and carries it out: it is quiet only where there is a
phrase that is allowed, and there it is quiet and shows the draft after it (`EnactsPhrases`).
-/

set_option autoImplicit false
set_option relaxedAutoImplicit false

namespace Breadboard.Description

variable {settings : Settings} {mode : NameMode} {b b' : Builder} {s : Schematic} {τ ξ : Type}

/-! ### What is done about a statement that was read -/

/-- A builder whose network and monitors are depicted by a coherent schematic. -/
structure Pictures (settings : Settings) (b : Builder) (s : Schematic) : Prop where
  names : b.reader.names.Faithful
  depicts : Depicts settings b.reader.names b.network b.monitors s
  coherent : s.Coherent

/-- What is done about something that was read is what an act says about its meaning. Nothing is
filed only where it is allowed, and there nothing but the network and the monitors change. -/
structure Enacts (settings : Settings) (f : Builder → τ → Builder) (act : Act Schematic ξ)
    (means : Names → τ → ξ → Prop) : Prop where
  reaches (b : Builder) (t : τ) : b.reader.Reaches (f b t).reader
  sound {b : Builder} {s : Schematic} {t : τ} {x : ξ} : Pictures settings b s →
    means b.reader.names t x → (f b t).reader.log = [] → act.allowed s x
  complete {b : Builder} {s : Schematic} {t : τ} {x : ξ} : Pictures settings b s →
    means b.reader.names t x → act.allowed s x →
      Pictures settings (f b t) (act.after s x) ∧ (f b t).reader = b.reader ∧ (f b t).seen = b.seen

theorem enacts_declare {clause : Clause}
    (hcycles : ∀ cycles, clause = .halfPeriod cycles → 1 ≤ cycles) :
    Enacts settings (Builder.declare clause) (Act.declare clause)
      fun names target name ↦ names.string? target.id = some name where
  reaches := Builder.reaches_declare clause
  sound {b s target name} hb hname hquiet := by
    rw [Builder.declare_eq] at hquiet
    cases hn : b.network.declare target.id clause with
    | ok network => exact hb.depicts.allowed_of_declare hb.names hname hn
    | error error =>
      rw [hn] at hquiet
      exact (log_file_ne _ _ _ hquiet).elim
  complete {b s target name} hb hname hallowed := by
    obtain ⟨network, hn, hdepicts⟩ := hb.depicts.declare hb.names hname hcycles hallowed
    rw [Builder.declare_eq, hn]
    exact ⟨⟨hb.names, hdepicts, hb.coherent.declare hcycles hallowed⟩, rfl, rfl⟩

theorem enacts_connect (id : NameId) :
    Enacts settings (Builder.connect id) Act.link fun names connection link ↦
      names.string? id = some link.target ∧ Calls names connection.source.terminal link.source ∧
        names.string? connection.input = some link.input where
  reaches := Builder.reaches_connect id
  sound {b s connection link} hb hmeans hquiet := by
    obtain ⟨htarget, hsource, hinput⟩ := hmeans
    rw [Builder.connect_eq] at hquiet
    cases hn : b.network.connect connection.source.terminal id connection.input with
    | ok network =>
      exact hb.depicts.allowed_of_connect hb.names hb.coherent hsource htarget hinput hn
    | error error =>
      rw [hn] at hquiet
      exact (log_file_ne _ _ _ hquiet).elim
  complete {b s connection link} hb hmeans hallowed := by
    obtain ⟨htarget, hsource, hinput⟩ := hmeans
    obtain ⟨network, hn, hdepicts⟩ :=
      hb.depicts.connect hb.names hb.coherent hsource htarget hinput hallowed
    rw [Builder.connect_eq, hn]
    exact ⟨⟨hb.names, hdepicts, hb.coherent.link hallowed⟩, rfl, rfl⟩

theorem enacts_watch :
    Enacts settings Builder.watch Act.mark
      fun names mention name ↦ Calls names mention.terminal name where
  reaches := Builder.reaches_watch
  sound {b s mention name} hb hcalls hquiet := by
    rw [Builder.watch_eq] at hquiet
    cases hm : b.monitors.add b.network mention.terminal with
    | ok monitors => exact hb.depicts.allowed_of_add hb.names hcalls hm
    | error error =>
      rw [hm] at hquiet
      exact (log_file_ne _ _ _ hquiet).elim
  complete {b s mention name} hb hcalls hallowed := by
    obtain ⟨monitors, hm, hdepicts⟩ := hb.depicts.add hb.names hcalls hallowed
    rw [Builder.watch_eq, hm]
    exact ⟨⟨hb.names, hdepicts, hb.coherent.mark hallowed⟩, rfl, rfl⟩

/-- Several things that were read are carried out one after another. -/
theorem Enacts.each {f : Builder → τ → Builder} {act : Act Schematic ξ}
    {means : Names → τ → ξ → Prop} (h : Enacts settings f act means) :
    Enacts settings (fun b ts ↦ ts.foldl f b) act.each
      fun names ts xs ↦ List.Forall₂ (means names) ts xs where
  reaches b ts := Builder.reaches_foldl h.reaches ts b
  sound {b s ts xs} hb hmeans hquiet := by
    induction xs generalizing b s ts with
    | nil => trivial
    | cons x xs ih =>
      obtain ⟨t, ts, hx, hxs, rfl⟩ := List.forall₂_cons_right_iff.mp hmeans
      have hfirst : (f b t).reader.log = [] :=
        log_eq_nil_of_reaches (Builder.reaches_foldl h.reaches ts (f b t)) hquiet
      have hallowed := h.sound hb hx hfirst
      obtain ⟨hpictures, hreader, -⟩ := h.complete hb hx hallowed
      exact ⟨hallowed, ih hpictures (hreader ▸ hxs) hquiet⟩
  complete {b s ts xs} hb hmeans hallowed := by
    induction xs generalizing b s ts with
    | nil =>
      obtain rfl := List.forall₂_nil_right_iff.mp hmeans
      exact ⟨hb, rfl, rfl⟩
    | cons x xs ih =>
      obtain ⟨t, ts, hx, hxs, rfl⟩ := List.forall₂_cons_right_iff.mp hmeans
      obtain ⟨hpictures, hreader, hseen⟩ := h.complete hb hx hallowed.1
      obtain ⟨hpictures', hreader', hseen'⟩ := ih hpictures (hreader ▸ hxs) hallowed.2
      exact ⟨hpictures', hreader'.trans hreader, hseen'.trans hseen⟩

/-! ### Builders and drafts -/

/-- A word without digits. -/
def Plain (name : String) : Prop :=
  ∀ c ∈ name.toList, c.isDigit = false

/-- A builder that shows a draft. Besides the names that the draft has met, and the one that the
reader stands on while names are declared, the table holds words without digits only: these are
the words for kinds, which are no names of a range. -/
structure Shows (settings : Settings) (mode : NameMode) (d : Draft) (b : Builder) : Prop where
  ready : b.reader.Ready mode
  depicts : Depicts settings b.reader.names b.network b.monitors d.schematic
  coherent : d.schematic.Coherent
  parts : ∀ name ∈ d.schematic.parts.map Part.name, name ∈ d.met
  met : ∀ name ∈ d.met, b.reader.names.Has name
  fresh : ∀ name, b.reader.names.Has name →
    name ∈ d.met ∨ Plain name ∨ mode = .declare ∧ b.reader.current.symbol = .name name

variable {d d' : Draft} {used more : List Symbol} {r : Reader} {base : Names}

theorem Shows.pictures (h : Shows settings mode d b) (hpasses : b.reader.Passes mode used r) :
    Pictures settings { b with reader := r } d.schematic :=
  ⟨hpasses.ready.names.faithful, h.depicts.grow hpasses.grown, h.coherent⟩

/-- The builder has taken some symbols, and shows a draft after them. -/
structure Done (settings : Settings) (mode : NameMode) (used : List Symbol) (d : Draft)
    (b b' : Builder) : Prop where
  symbols : b.reader.symbols = used ++ b'.reader.symbols
  shows : Shows settings mode d b'
  grown : b.reader.names.Extends b'.reader.names
  seen : b'.seen = b.seen

/-- While names are only looked up, the names that were met stay what they were. -/
theorem Shows.looked (h : Shows settings .query d b) (hpasses : b.reader.Passes .query used r)
    (hpictures : Pictures settings b' s) (hreader : b'.reader = r) (hseen : b'.seen = b.seen)
    (hparts : s.parts.map Part.name = d.schematic.parts.map Part.name) :
    Done settings .query used { d with schematic := s } b b' := by
  subst hreader
  refine ⟨hpasses.symbols, ⟨hpasses.ready, hpictures.depicts, hpictures.coherent, ?_, ?_, ?_⟩,
    hpasses.grown, hseen⟩
  · rw [hparts]
    exact h.parts
  · exact fun name hname ↦ hpasses.grown.has (h.met name hname)
  · intro name hname
    rw [hpasses.kept rfl] at hname
    exact (h.fresh name hname).imp_right (.imp_right fun h ↦ nomatch h.1)

/-- A step that enacts the phrases of an act: where nothing is filed it has taken a phrase and
carried it out, and a phrase in front of the reader that is allowed is taken and carried out. A
phrase does not begin with what ends a section. The step may rely on the names of a table. -/
structure EnactsPhrases (settings : Settings) (mode : NameMode) (base : Names)
    (step : Builder → Builder) (act : Act Draft ξ) (spells : ξ → List Symbol → Prop) : Prop where
  starts {x : ξ} {used more : List Symbol} {r : Reader} : spells x used →
    r.symbols = used ++ more → r.atSectionEnd = false
  sound {d : Draft} {b : Builder} : Shows settings mode d b → base.Extends b.reader.names →
    (step b).reader.log = [] → ∃ x used, spells x used ∧ act.allowed d x ∧
      Done settings mode used (act.after d x) b (step b)
  complete {d : Draft} {b : Builder} {x : ξ} {used more : List Symbol} :
    Shows settings mode d b → base.Extends b.reader.names → spells x used →
      b.reader.symbols = used ++ more → act.allowed d x →
        Done settings mode used (act.after d x) b (step b)

section Loop

variable {step : Builder → Builder} {act : Act Draft ξ} {spells : ξ → List Symbol → Prop}
  {progress : ∀ b : Builder, b.reader.atSectionEnd = false →
    (step b).reader.unread < b.reader.unread}

theorem Done.refl (h : Shows settings mode d b) : Done settings mode [] d b b :=
  ⟨rfl, h, Names.Extends.refl _, rfl⟩

theorem Done.trans {b'' : Builder} (h : Done settings mode used d b b')
    (h' : Done settings mode more d' b' b'') : Done settings mode (used ++ more) d' b b'' where
  symbols := by rw [h.symbols, h'.symbols, List.append_assoc]
  shows := h'.shows
  grown := h.grown.trans h'.grown
  seen := h'.seen.trans h.seen

theorem Done.rest {rest : List Symbol} (h : Done settings mode used d b b')
    (hsymbols : b.reader.symbols = used ++ rest) : b'.reader.symbols = rest := by
  rw [h.symbols] at hsymbols
  exact List.append_cancel_left hsymbols

theorem atSectionEnd_of_front (r : Reader) (h : frontLexeme r.symbols = .closeBrace) :
    r.atSectionEnd = true := by
  rw [Reader.frontLexeme_symbols] at h
  rw [Reader.atSectionEnd, h]

/-- A loop of quiet steps has taken one phrase after another. -/
theorem EnactsPhrases.loop_sound (h : EnactsPhrases settings mode base step act spells)
    (hreaches : ∀ b : Builder, b.reader.Reaches (step b).reader)
    (hb : Shows settings mode d b) (hbase : base.Extends b.reader.names)
    (hquiet : (Builder.untilSectionEnd step progress b).reader.log = []) :
    ∃ xs used, Spelled spells xs used ∧ act.each.allowed d xs ∧
      Done settings mode used (act.each.after d xs) b
        (Builder.untilSectionEnd step progress b) := by
  have hend := Builder.reaches_untilSectionEnd hreaches progress
  induction b using Builder.induction_untilSectionEnd progress generalizing d with
  | stop b hover =>
    rw [Builder.untilSectionEnd_of_end hover]
    exact ⟨[], [], .nil, trivial, .refl hb⟩
  | next b hinside ih =>
    rw [Builder.untilSectionEnd_of_inside hinside] at hquiet ⊢
    obtain ⟨x, used, hx, hallowed, hdone⟩ :=
      h.sound hb hbase (log_eq_nil_of_reaches (hend (step b)) hquiet)
    obtain ⟨xs, more, hxs, hmore, hdone'⟩ := ih hdone.shows (hbase.trans hdone.grown) hquiet
    exact ⟨x :: xs, used ++ more, .cons hx hxs, ⟨hallowed, hmore⟩, hdone.trans hdone'⟩

/-- A loop takes the phrases that are in front of the reader, if they are allowed. -/
theorem EnactsPhrases.loop_complete (h : EnactsPhrases settings mode base step act spells)
    (hb : Shows settings mode d b) (hbase : base.Extends b.reader.names) {xs : List ξ}
    (hxs : Spelled spells xs used) (hsymbols : b.reader.symbols = used ++ more)
    (hfront : frontLexeme more = .closeBrace) (hallowed : act.each.allowed d xs) :
    Done settings mode used (act.each.after d xs) b
      (Builder.untilSectionEnd step progress b) := by
  induction hxs generalizing d b with
  | nil =>
    rw [Builder.untilSectionEnd_of_end (atSectionEnd_of_front _ (hsymbols ▸ hfront))]
    exact .refl hb
  | @cons x xs u v hx hxs ih =>
    rw [List.append_assoc] at hsymbols
    rw [Builder.untilSectionEnd_of_inside (h.starts hx hsymbols)]
    have hdone := h.complete hb hbase hx hsymbols hallowed.1
    exact hdone.trans (ih hdone.shows (hbase.trans hdone.grown) (hdone.rest hsymbols) hallowed.2)

end Loop

/-! ### Statements that are read as a whole -/

section Statement

variable {σ : Type} {form : Attempt σ} {f : Builder → σ → Builder}

theorem reaches_of_run {x : Option σ} {r r' : Reader} (h : form.run r = (x, r')) :
    r.Reaches r' := by
  have hreaches := form.reaches r
  rwa [h] at hreaches

/-- A statement about which nothing is filed was read. -/
theorem statement_of_quiet (h : (Builder.statement form f b).reader.log = []) :
    ∃ x r, form.run b.reader = (some x, r) ∧
      Builder.statement form f b = f { b with reader := r } x := by
  rw [Builder.statement_eq] at h ⊢
  cases hrun : form.run b.reader with
  | mk x r =>
    rw [hrun] at h
    cases x with
    | some x => exact ⟨x, r, rfl, rfl⟩
    | none =>
      have hlt := form.filed hrun
      have hlog : r.log = [] := log_eq_nil_of_reaches r.reaches_skipStatement h
      rw [hlog] at hlt
      exact absurd hlt (Nat.not_lt_zero _)

theorem statement_of_run {x : σ} (h : form.run b.reader = (some x, r)) :
    Builder.statement form f b = f { b with reader := r } x := by
  rw [Builder.statement_eq, h]

end Statement

end Breadboard.Description
