import Breadboard.Proofs.Description.Arrival
import Breadboard.Proofs.Description.Parallels

/-!
# Builders of two texts

What is built of two texts that are read alongside each other is the same, with the devices under
the numbers that their names have in either table (`Builder.Alongside`). This is so of each
statement and each section, and of the whole rest of the texts where they have the same symbols left
(`Builder.parallel_parse`). Up to where their symbols become different, reading comes to the same
statements in both (`Builder.exists_arrives`).
-/

set_option autoImplicit false
set_option relaxedAutoImplicit false

namespace Breadboard.Description

open Text (Position)

variable {k : Course} {heading : Heading}

namespace Builder

variable {b b' c : Builder}

/-- Two builders whose readers stand alongside each other, with the same circuits under the numbers
in either table. -/
structure Alongside (k : Course) (b b' : Builder) : Prop where
  reader : b.reader.Alongside k b'.reader
  network : b'.network = b.network.renumbered k.number
  steady : Network.Steady k.number b.network
  monitors : b'.monitors = b.monitors.renumbered k.number
  seen : b'.seen = b.seen

/-- What is done with builders of both texts, each on its own. -/
def Parallel (k : Course) (f f' : Builder → Builder) : Prop :=
  ∀ ⦃b b' : Builder⦄, Alongside k b b' → k.Lost (f b).reader ∨ Alongside k (f b) (f' b')

theorem Alongside.withReader (h : Alongside k b b') {r r' : Reader} (hr : r.Alongside k r') :
    Alongside k { b with reader := r } { b' with reader := r' } :=
  ⟨hr, h.network, h.steady, h.monitors, h.seen⟩

/-- Faults of one category may be filed on both sides, wherever each is filed. -/
theorem Alongside.file (h : Alongside k b b') {fault fault' : Fault}
    (hkind : fault'.category = fault.category) (position position' : Position) :
    Alongside k (b.file fault position) (b'.file fault' position') :=
  h.withReader (h.reader.file hkind position position')

theorem Alongside.setMode (h : Alongside k b b') (mode : NameMode) :
    Alongside k (b.setMode mode) (b'.setMode mode) :=
  h.withReader (h.reader.inMode mode)

theorem parallel_mapReader {f f' : Reader → Reader} (hf : Reader.Parallel k f f') :
    Parallel k (·.mapReader f) (·.mapReader f') :=
  fun _ _ h ↦ (hf h.reader).imp_right h.withReader

/-! ### What is done about a statement -/

/-- What is said of corresponding devices is carried out on both sides, or refused on both. -/
theorem parallel_declare (clause : Clause) {target target' : Target}
    (htarget : target.Same k.number target') :
    Parallel k (declare clause · target) (declare clause · target') := by
  intro b b' h
  dsimp only
  rw [declare_eq, declare_eq, h.network, htarget,
    Network.renumbered_declare k.number.injective b.network target.id clause]
  cases hdeclare : b.network.declare target.id clause with
  | error error => exact .inr (h.file (by rfl) _ _)
  | ok network => exact .inr ⟨h.reader, rfl, h.steady.declare hdeclare, h.monitors, h.seen⟩

/-- Steps for corresponding items, one after another. -/
theorem parallel_foldl {τ τ' : Type} {R : τ → τ' → Prop} {step : Builder → τ → Builder}
    {step' : Builder → τ' → Builder} (hstep : ∀ x x', R x x' → Parallel k (step · x) (step' · x'))
    (hreaches : ∀ (b : Builder) x, b.reader.Reaches (step b x).reader) {list : List τ}
    {list' : List τ'} (hlist : List.Forall₂ R list list') :
    Parallel k (list.foldl step ·) (list'.foldl step' ·) := by
  intro b b' h
  induction hlist generalizing b b' with
  | nil => exact .inr h
  | @cons x _ list _ hx _ ih =>
    rcases hstep _ _ hx h with hlost | h
    · exact .inl (k.lasting_lost.reaches (reaches_foldl hreaches list (step b x)) hlost)
    · exact ih h

theorem parallel_declareAll {statement statement' : DeviceStatement}
    (h : statement.Same k.number statement') :
    Parallel k (·.declareAll statement) (·.declareAll statement') := by
  have hsame := parallel_foldl (R := Target.Same k.number)
    (fun _ _ ↦ parallel_declare (k := k) statement.clause) (reaches_declare statement.clause)
    h.targets
  intro b b' hb
  dsimp only
  rw [declareAll_eq, declareAll_eq, h.clause]
  exact hsame hb

/-- Corresponding connections are made on both sides, or refused on both. -/
theorem parallel_connect (block : NameId) {connection connection' : Connection}
    (hsame : connection.Same k.number connection') :
    Parallel k (connect block · connection) (connect (k.number block) · connection') := by
  intro b b' h
  dsimp only
  rw [connect_eq, connect_eq, h.network, hsame.source, hsame.input,
    h.steady.connect_renumbered k.number.injective]
  cases hconnect : b.network.connect connection.source.terminal block connection.input with
  | error error => exact .inr (h.file (by rfl) _ _)
  | ok network => exact .inr ⟨h.reader, rfl, h.steady.connect hconnect, h.monitors, h.seen⟩

/-- Corresponding outputs are watched on both sides, or refused on both. -/
theorem parallel_watch {output output' : OutputMention} (hsame : output.Same k.number output') :
    Parallel k (·.watch output) (·.watch output') := by
  intro b b' h
  dsimp only
  rw [watch_eq, watch_eq, h.network, h.monitors, hsame, h.steady.add_renumbered k.number.injective]
  cases b.monitors.add b.network output.terminal with
  | error error => exact .inr (h.file (by rfl) _ _)
  | ok monitors => exact .inr ⟨h.reader, rfl, h.steady, rfl, h.seen⟩

theorem parallel_watchAll {outputs outputs' : List OutputMention}
    (h : List.Forall₂ (OutputMention.Same k.number) outputs outputs') :
    Parallel k (·.watchAll outputs) (·.watchAll outputs') := by
  have hsame := parallel_foldl (R := OutputMention.Same k.number)
    (fun _ _ ↦ parallel_watch (k := k)) reaches_watch h
  intro b b' hb
  dsimp only
  rw [watchAll_eq, watchAll_eq]
  exact hsame hb

/-! ### Statements -/

/-- Statements that are read alike are acted on alike, or skipped. -/
theorem parallel_statement {σ σ' : Type} {R : σ → σ' → Prop} {form : Attempt σ}
    {form' : Attempt σ'} {act : Builder → σ → Builder} {act' : Builder → σ' → Builder}
    (hform : form.Parallel k R form') (hact : ∀ x x', R x x' → Parallel k (act · x) (act' · x'))
    (hreaches : ∀ (b : Builder) x, b.reader.Reaches (act b x).reader) :
    Parallel k (statement form act) (statement form' act') := by
  intro b b' h
  have hread := hform h.reader
  rw [statement_eq, statement_eq]
  generalize form.run b.reader = first at hread ⊢
  generalize form'.run b'.reader = first' at hread ⊢
  obtain ⟨value, s⟩ := first
  obtain ⟨value', s'⟩ := first'
  rcases hread with hlost | ⟨hvalue, hs⟩
  · cases value with
    | none => exact .inl (k.lasting_lost.reaches s.reaches_skipStatement hlost)
    | some x => exact .inl (k.lasting_lost.reaches (hreaches { b with reader := s } x) hlost)
  · cases hvalue with
    | none => exact (Reader.parallel_skipStatement hs).imp_right h.withReader
    | some hx => exact hact _ _ hx (h.withReader hs)

/-- The turns of both loops are taken one by one: the induction is on what is unread on the first
side. -/
theorem parallel_untilSectionEnd {step step' : Builder → Builder} (hstep : Parallel k step step')
    (hreaches : ∀ b : Builder, b.reader.Reaches (step b).reader)
    (progress : ∀ b : Builder, b.reader.atSectionEnd = false →
      (step b).reader.unread < b.reader.unread)
    (progress' : ∀ b : Builder, b.reader.atSectionEnd = false →
      (step' b).reader.unread < b.reader.unread) :
    Parallel k (untilSectionEnd step progress) (untilSectionEnd step' progress') := by
  intro b b' h
  induction b using induction_untilSectionEnd progress generalizing b' with
  | stop b hend =>
    rw [untilSectionEnd_of_end hend, untilSectionEnd_of_end (h.reader.atSectionEnd.trans hend)]
    exact .inr h
  | next b hinside ih =>
    rw [untilSectionEnd_of_inside hinside,
      untilSectionEnd_of_inside (h.reader.atSectionEnd.trans hinside)]
    rcases hstep h with hlost | h
    · exact .inl (k.lasting_lost.reaches (reaches_untilSectionEnd hreaches progress _) hlost)
    · exact ih h

theorem parallel_blockBody (block : NameId) (blockName : String) :
    Parallel k (blockBody block blockName) (blockBody (k.number block) blockName) := by
  have hbody := parallel_untilSectionEnd
    (parallel_statement (parallel_connection (k := k) block blockName)
      (fun _ _ ↦ parallel_connect block) (reaches_connect block))
    (reaches_statement (reaches_connect block))
    (unread_statement_lt (consumes_connection block blockName) (reaches_connect block))
    (unread_statement_lt (consumes_connection (k.number block) blockName)
      (reaches_connect (k.number block)))
  have hend : Parallel k (statement blockEnd fun b _ ↦ b) (statement blockEnd fun b _ ↦ b) :=
    parallel_statement (Attempt.parallel_expect _ _) (fun _ _ _ _ _ ↦ .inr) fun _ _ ↦ .refl
  intro b b' h
  rw [blockBody_eq, blockBody_eq]
  rcases hbody h with hlost | h
  · exact .inl (k.lasting_lost.reaches (reaches_statement (fun _ _ ↦ .refl) _) hlost)
  · exact hend h

theorem Alongside.deviceNamed? (h : Alongside k b b') (name : String) :
    b'.deviceNamed? name = (b.deviceNamed? name).map k.number := by
  rw [Builder.deviceNamed?_eq, Builder.deviceNamed?_eq, h.network, h.reader.names.query,
    Option.filter_map]
  refine congrArg (Option.map k.number) (congrArg (Option.filter · _) (funext fun id ↦ ?_))
  exact Network.contains_renumbered k.number.injective b.network id

/-- A block is for corresponding devices, or for none on both sides. -/
theorem parallel_blockFor {header header' : Token} (hsame : header'.text = header.text) :
    Parallel k (·.blockFor header) (·.blockFor header') := by
  intro b b' h
  dsimp only
  rw [blockFor_eq, blockFor_eq, hsame, h.deviceNamed?]
  cases b.deviceNamed? header.text with
  | none => exact parallel_mapReader Reader.parallel_skipBlock (h.file rfl _ _)
  | some block =>
    exact parallel_statement parallel_blockOpening
      (fun _ _ _ ↦ parallel_blockBody block header.text) (fun b _ ↦ reaches_blockBody _ _ b) h

theorem parallel_bodyTurn (heading : Heading) :
    Parallel k (bodyTurn heading) (bodyTurn heading) := by
  cases heading with
  | devices | init =>
    exact parallel_statement (parallel_deviceStatement _) (fun _ _ ↦ parallel_declareAll)
      reaches_declareAll
  | connections =>
    exact parallel_statement parallel_blockHeader (fun _ _ ↦ parallel_blockFor) reaches_blockFor
  | monitor =>
    exact parallel_statement parallel_monitorStatement (fun _ _ ↦ parallel_watchAll)
      reaches_watchAll

/-! ### Sections -/

/-- The statements of a section are carried out alike. -/
theorem parallel_body (heading : Heading) : Parallel k (body heading) (body heading) := by
  obtain ⟨progress, hbody⟩ := body_eq_untilSectionEnd heading
  rw [show body heading = _ from funext hbody]
  exact parallel_untilSectionEnd (parallel_bodyTurn heading) (reaches_bodyTurn heading) _ _

theorem Alongside.note (h : Alongside k b b') (heading : Heading) :
    Alongside k (b.note heading) (b'.note heading) := by
  rw [Builder.note, Builder.note, h.seen]
  split
  · exact h.file rfl _ _
  · exact ⟨h.reader, h.network, h.steady, h.monitors, rfl⟩

theorem parallel_opened (heading : Heading) :
    Parallel k (opened · heading) (opened · heading) := by
  intro b b' h
  rcases parallel_mapReader Reader.parallel_advance (h.note heading) with hlost | h
  · exact .inl (k.lasting_lost.advance (k.lasting_lost.inMode _ hlost))
  · exact parallel_mapReader Reader.parallel_advance (h.setMode _)

theorem Alongside.fileAll (h : Alongside k b b') {faults faults' : List Fault}
    (hkinds : faults'.map Fault.category = faults.map Fault.category)
    (position position' : Position) :
    Alongside k (b.fileAll faults position) (b'.fileAll faults' position') := by
  induction faults generalizing b b' faults' with
  | nil =>
    rw [List.map_eq_nil_iff.mp hkinds]
    exact h
  | cons fault faults ih =>
    obtain ⟨fault', faults', rfl, hkind, hkinds⟩ := List.map_eq_cons_iff.mp hkinds
    exact ih (h.file hkind position position') hkinds

/-- What is missing at the end of a section is the same in kind. -/
theorem Alongside.shortfalls (h : Alongside k b b') (heading : Heading) :
    (b'.shortfalls heading).map Fault.category = (b.shortfalls heading).map Fault.category := by
  cases heading with
  | devices =>
    rw [Builder.shortfalls_eq, Builder.shortfalls_eq, h.network,
      Network.devicesWithoutInputs_renumbered, List.map_map, List.map_map, List.map_map]
    rfl
  | connections =>
    rw [Builder.shortfalls_eq, Builder.shortfalls_eq, h.network, Network.unconnected_renumbered,
      List.map_map, List.map_map, List.map_map]
    rfl
  | monitor | init => rfl

theorem parallel_passEnd : Parallel k passEnd passEnd := by
  intro b b' h
  rw [passEnd, passEnd, h.reader.lexeme]
  split
  · exact parallel_mapReader Reader.parallel_advance (h.setMode .declare)
  · exact .inr (h.withReader ((h.reader.inMode .declare).unexpected .sectionEnd))

/-- Sections close alike, with as many shortfalls. -/
theorem parallel_close (heading : Heading) : Parallel k (·.close heading) (·.close heading) := by
  intro b b' h
  dsimp only
  rw [close_eq, close_eq]
  rcases parallel_passEnd h with hlost | h
  · exact .inl (k.lasting_lost.fileAll _ _ hlost)
  · exact .inr (h.fileAll (h.shortfalls heading) _ _)

/-- A section is parsed alike on both sides. -/
theorem parallel_parseSection (heading : Heading) :
    Parallel k (·.parseSection heading) (·.parseSection heading) := by
  intro b b' h
  have hlasting := k.lasting_lost
  have hnoted := h.note heading
  rcases hnoted.reader.advance with hlost | hadvanced
  · refine .inl ?_
    dsimp only
    rw [parseSection_eq]
    split
    · exact hlasting.close heading (hlasting.reaches (reaches_body heading _)
        (hlasting.advance (hlasting.inMode _ hlost)))
    · exact hlasting.reaches (Reader.reaches_skipTo _ _) (hlasting.file _ _ hlost)
  · have hbrace : b'.reader.advance.current.lexeme = b.reader.advance.current.lexeme := by
      rw [← lexeme_advance_note b heading, ← lexeme_advance_note b' heading, hadvanced.lexeme]
    by_cases hopen : b.reader.advance.current.lexeme = .openBrace
    · dsimp only
      rw [parseSection_eq_close hopen, parseSection_eq_close (hbrace.trans hopen)]
      rcases parallel_opened heading h with hlost | h
      · exact .inl (hlasting.close heading (hlasting.reaches (reaches_body heading _) hlost))
      rcases parallel_body heading h with hlost | h
      · exact .inl (hlasting.close heading hlost)
      exact parallel_close heading h
    · have hunopened (b : Builder) (hopen : b.reader.advance.current.lexeme ≠ .openBrace) :
          b.parseSection heading = ((b.note heading).mapReader Reader.advance).mapReader
            fun r ↦ (r.unexpected .openBrace).skipTo [.heading] :=
        (parseSection_eq b heading).trans (if_neg ((lexeme_advance_note b heading).symm ▸ hopen))
      dsimp only
      rw [hunopened b hopen, hunopened b' (hbrace ▸ hopen)]
      exact ((Reader.parallel_skipTo _) (hadvanced.unexpected _)).imp_right hnoted.withReader

/-! ### Whole texts -/

theorem Alongside.isOver (h : Alongside k b b') : b'.isOver = b.isOver := by
  rw [Builder.isOver, Builder.isOver, h.reader.atEnd, h.reader.lexeme, h.seen]

theorem parallel_turn : Parallel k turn turn := by
  intro b b' h
  rw [turn, turn, h.reader.lexeme]
  split
  · next heading _ => exact parallel_parseSection heading h
  · exact ((Reader.parallel_skipTo _) (h.reader.unexpected _)).imp_right h.withReader

theorem Alongside.conclude (h : Alongside k b b') : Alongside k b.conclude b'.conclude := by
  rw [Builder.conclude, Builder.conclude, h.reader.lexeme]
  split
  · exact h.file rfl _ _
  · refine h.fileAll ?_ _ _
    rw [missing, missing, h.seen]

/-- What is left of two descriptions is parsed alike. -/
theorem parallel_parse : Parallel k parse parse := by
  intro b b' h
  obtain ⟨n, -, last, hturns, -⟩ := exists_turns_parse b
  induction hturns generalizing b' with
  | stop hover =>
    rw [parse_of_isOver hover, parse_of_isOver (h.isOver.trans hover)]
    exact .inr h.conclude
  | next hturn _ ih =>
    rw [parse_turn hturn, parse_turn (h.isOver.trans hturn)]
    rcases parallel_turn h with hlost | h
    · exact .inl (k.lasting_lost.parse hlost)
    · exact ih h

/-- Up to where the texts become different, reading comes to the same statements. -/
theorem exists_arrives (harrives : Arrives heading b c) (h : Alongside k b b')
    (hfound : ¬k.Lost c.reader) : ∃ c', Arrives heading b' c' ∧ Alongside k c c' := by
  have hlasting := k.lasting_lost
  induction harrives generalizing b' with
  | @opening b hturn hheading hbrace hmore =>
    obtain hopened := (parallel_opened heading h).resolve_left hfound
    have hadvanced := (h.note heading).reader.advance.resolve_left fun hlost ↦
      hfound (hlasting.advance (hlasting.inMode _ hlost))
    have hbrace' : b'.reader.advance.current.lexeme = .openBrace := by
      rw [← lexeme_advance_note b' heading, hadvanced.lexeme, lexeme_advance_note, hbrace]
    exact ⟨opened b' heading, .opening (h.isOver.trans hturn) (h.reader.lexeme.trans hheading)
      hbrace' (hopened.reader.atSectionEnd.trans hmore), hopened⟩
  | @statement b c hc hmore ih =>
    obtain ⟨c', hc', hsame⟩ := ih h fun hlost ↦
      hfound (hlasting.reaches (reaches_bodyTurn heading c) hlost)
    have hnext := (parallel_bodyTurn heading hsame).resolve_left hfound
    exact ⟨_, hc'.statement (hnext.reader.atSectionEnd.trans hmore), hnext⟩
  | @turn b c hturn hc ih =>
    have hnext := (parallel_turn h).resolve_left fun hlost ↦ hfound (hlasting.arrives hc hlost)
    obtain ⟨c', hc', hsame⟩ := ih hnext hfound
    exact ⟨c', hc'.turn (h.isOver.trans hturn), hsame⟩

end Builder

end Breadboard.Description
