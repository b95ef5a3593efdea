import Breadboard.Proofs.Description.Building

/-!
# The steps of sections

The statements of each section are carried out as the acts that the section is made of:
`enactsPhrases_introduce` for `devices`, `enactsPhrases_adjust` for `init`, `enactsPhrases_link` for
a block of connections, `enactsPhrases_block` for `connections`, and `enactsPhrases_watch` for
`monitor`.
-/

set_option autoImplicit false
set_option relaxedAutoImplicit false

namespace Breadboard.Description

open Attempt

variable {settings : Settings} {mode : NameMode} {b b' : Builder} {d : Draft} {base : Names}
  {used more : List Symbol} {r : Reader} {s : Schematic} {name : String}

/-! ### Names that are met in a sentence -/

theorem plain_of_sameWord {word : String} (hword : (Text.small word).any Char.isDigit = false)
    (h : Text.sameWord word name) : Plain name := by
  intro c hc
  cases hdigit : c.isDigit with
  | false => rfl
  | true =>
    have hsmall : c ∈ Text.small name := List.mem_map.mpr ⟨c, hc, toLower_of_isDigit hdigit⟩
    rw [← beq_iff_eq.mp h] at hsmall
    exact absurd hdigit (List.any_eq_false.mp hword c hsmall)

/-- The words for kinds have no digits. -/
theorem plain_of_mem_kind {kind : Kind} (h : KindSpelled kind used) (hname : .name name ∈ used) :
    Plain name := by
  have hkinds : ∀ kind ∈ Kind.all, (Text.small kind.keyword).any Char.isDigit = false := by decide
  cases h with
  | word hword =>
    cases List.mem_singleton.mp hname
    exact plain_of_sameWord (hkinds kind (mem_all_kinds kind)) hword
  | hyphened hd htype =>
    rcases List.mem_cons.mp hname with hfirst | hrest
    · cases hfirst
      exact plain_of_sameWord (by decide) hd
    rcases List.mem_cons.mp hrest with hminus | hlast
    · cases hminus
    · cases List.mem_singleton.mp hlast
      exact plain_of_sameWord (by decide) htype

theorem plain_of_mem_clause {said : Clause} (h : ClauseSpelled said used)
    (hname : .name name ∈ used) : Plain name := by
  cases h with
  | define _ hkind =>
    rcases List.mem_cons.mp hname with hverb | hkindName
    · cases hverb
    · exact plain_of_mem_kind hkind hkindName
  | inputs => simp [Symbol.name, Symbol.keyword, Symbol.sign] at hname
  | halfPeriod => simp [Symbol.name, Symbol.keyword, Symbol.sign] at hname
  | level hoptional =>
    rcases hoptional with rfl | rfl <;> simp [Symbol.name, Symbol.keyword, Symbol.sign] at hname

theorem arrow_not_mem_clause {said : Clause} (h : ClauseSpelled said used) :
    .sign .arrow ∉ used := by
  cases h with
  | define _ hkind => cases hkind <;> simp [Symbol.name, Symbol.keyword, Symbol.sign]
  | inputs => simp [Symbol.keyword, Symbol.sign]
  | halfPeriod => simp [Symbol.keyword, Symbol.sign]
  | level hoptional => rcases hoptional with rfl | rfl <;> simp [Symbol.keyword, Symbol.sign]

/-- The range in a sentence is the one that it is about. -/
theorem range_of_infix {list : NameList} {first last : String} (hmore : .sign .arrow ∉ more)
    (h : [.name first, .sign .arrow, .name last] <:+: list.symbols ++ more) :
    list = .range first last := by
  cases list with
  | several first' others =>
    have harrow : .sign .arrow ∈ (NameList.several first' others).symbols ++ more :=
      h.subset (by simp)
    rcases List.mem_append.mp harrow with hin | hin
    · simp [NameList.symbols, Symbol.name, Symbol.sign] at hin
    · exact absurd hin hmore
  | range first' last' =>
    obtain ⟨before, after, heq⟩ := h
    -- the arrow stands in one place only, so nothing is before the first name
    cases before with
    | nil =>
      simp only [NameList.symbols, List.nil_append, List.cons_append, List.cons.injEq, Symbol.name,
        Symbol.mk.injEq] at heq
      obtain ⟨⟨-, rfl⟩, -, ⟨-, rfl⟩, -⟩ := heq
      rfl
    | cons x before =>
      cases before with
      | nil => simp [NameList.symbols, Symbol.name, Symbol.sign] at heq
      | cons y before =>
        have harrow : .sign .arrow ∈ .name last' :: more := by
          simp only [NameList.symbols, List.cons_append, List.nil_append, List.cons.injEq] at heq
          rw [← heq.2.2]
          simp
        rcases List.mem_cons.mp harrow with hin | hin
        · cases hin
        · exact absurd hin hmore

/-- The names that are met in the symbols of a sentence are met in its list, or are words for
kinds. -/
theorem met_of_meets {sentence : Sentence} (h : SentenceSpelled sentence used)
    (hname : Reader.Meets used name) : name ∈ sentence.names.met ∨ Plain name := by
  obtain @⟨list, said, u, hclause⟩ := h
  rw [List.append_assoc] at hname
  rcases hname with hin | ⟨first, last, names, hinfix, hnames, hin⟩
  · rcases List.mem_append.mp hin with hlist | hrest
    · exact .inl (List.mem_append_left _ (mem_symbols_iff.mp hlist))
    rcases List.mem_append.mp hrest with hsaid | hend
    · exact .inr (plain_of_mem_clause hclause hsaid)
    · cases List.mem_singleton.mp hend
  · have harrow : .sign .arrow ∉ u ++ [.sign .semicolon] := by
      rw [List.mem_append, not_or]
      exact ⟨arrow_not_mem_clause hclause, by simp [Symbol.sign]⟩
    obtain rfl := range_of_infix harrow hinfix
    refine .inl (List.mem_append_right _ ?_)
    rw [NameList.names?, hnames]
    exact hin

/-! ### Sentences about devices -/

theorem exists_name_of_sentence {sentence : Sentence} (h : SentenceSpelled sentence used) :
    ∃ first rest, used = .name first :: rest := by
  obtain @⟨list, said, u, -⟩ := h
  cases list with
  | several first others => exact ⟨first, _, rfl⟩
  | range first last => exact ⟨first, _, rfl⟩

/-- A name is where a statement goes on, and never where a section ends. -/
theorem inside_of_name {first : String} {rest : List Symbol}
    (hsymbols : r.symbols = .name first :: rest) : r.atSectionEnd = false := by
  obtain ⟨-, hsymbol⟩ := Reader.front_of_symbols hsymbols
  rw [Reader.atSectionEnd, (symbol_eq_name_iff.mp hsymbol).1]

theorem inside_of_keyword {keyword : Keyword} {rest : List Symbol}
    (hsymbols : r.symbols = .keyword keyword :: rest) : r.atSectionEnd = false := by
  rw [Reader.atSectionEnd, lexeme_of_sign hsymbols]

/-- Only a definition brings a new name. -/
theorem names_declare (clause : Clause) (s : Schematic) (name : String) :
    ((Act.declare clause).after s name).parts.map Part.name =
      s.parts.map Part.name ++ if clause matches .define _ then [name] else [] := by
  cases clause with
  | define kind => exact List.map_append
  | inputs count =>
    have hkept : (s.modify name (Part.give count)).parts.map Part.name = s.parts.map Part.name :=
      Schematic.names_modify fun part ↦ part.name_give count
    exact hkept.trans (List.append_nil _).symm
  | halfPeriod cycles =>
    have hkept : (s.modify name fun part ↦ { part with component := .clock cycles }).parts.map
        Part.name = s.parts.map Part.name := Schematic.names_modify fun _ ↦ rfl
    exact hkept.trans (List.append_nil _).symm
  | level level =>
    have hkept : (s.modify name fun part ↦ { part with component := .switch level }).parts.map
        Part.name = s.parts.map Part.name := Schematic.names_modify fun _ ↦ rfl
    exact hkept.trans (List.append_nil _).symm

/-- The names of the parts after something was said of some devices. -/
theorem mem_names_declared {clause : Clause} {names : List String}
    (h : name ∈ ((Act.declare clause).each.after s names).parts.map Part.name) :
    name ∈ s.parts.map Part.name ∨ name ∈ names := by
  induction names generalizing s with
  | nil => exact .inl h
  | cons first names ih =>
    rcases ih h with hold | hnew
    · rw [names_declare, List.mem_append] at hold
      refine hold.imp_right fun hfirst ↦ List.mem_cons.mpr (.inl ?_)
      split at hfirst
      · exact List.mem_singleton.mp hfirst
      · cases hfirst
    · exact .inr (List.mem_cons_of_mem first hnew)

/-- A sentence that fits an `init` section brings no new name. -/
theorem names_sentence_of_fits {sentence : Sentence} (hfits : FitsInit sentence.clause)
    (s : Schematic) :
    (Act.sentence.after s sentence).parts.map Part.name = s.parts.map Part.name := by
  have hclause : ∀ s name, ((Act.declare sentence.clause).after s name).parts.map Part.name =
      s.parts.map Part.name := by
    intro s name
    obtain ⟨list, said⟩ := sentence
    rw [names_declare]
    cases said with
    | define | inputs => exact hfits.elim
    | halfPeriod | level => exact List.append_nil _
  rw [Act.sentence]
  dsimp only
  generalize sentence.names.names?.getD [] = names
  induction names generalizing s with
  | nil => rfl
  | cons first names ih => exact (ih _).trans (hclause s first)

/-- What was read of a sentence is carried out as the sentence says. -/
theorem Attempt.States.carried {inInit : Bool} {statement : DeviceStatement} {sentence : Sentence}
    {names : List String} (h : States mode inInit statement sentence names used b.reader r)
    (hb : Shows settings mode d b) :
    ((Builder.declareAll { b with reader := r } statement).reader.log = [] →
      Act.sentence.allowed d.schematic sentence) ∧
    (Act.sentence.allowed d.schematic sentence →
      Pictures settings (Builder.declareAll { b with reader := r } statement)
        (Act.sentence.after d.schematic sentence) ∧
      (Builder.declareAll { b with reader := r } statement).reader = r ∧
      (Builder.declareAll { b with reader := r } statement).seen = b.seen) := by
  have henacts : Enacts settings
      (fun b targets ↦ targets.foldl (Builder.declare sentence.clause) b)
      (Act.declare sentence.clause).each fun names targets list ↦
        List.Forall₂ (fun target name ↦ names.string? target.id = some name) targets list :=
    (enacts_declare h.cycles).each
  have hpictures := hb.pictures h.passes
  rw [Builder.declareAll_eq, h.clause]
  constructor
  · exact fun hquiet ↦ ⟨h.cycles, names, h.stands, henacts.sound hpictures h.targets hquiet⟩
  · rintro ⟨-, names', hnames', hallowed⟩
    obtain rfl := Option.some_inj.mp (h.stands.symm.trans hnames')
    rw [Act.sentence]
    dsimp only
    rw [h.stands, Option.getD_some]
    exact henacts.complete hpictures h.targets hallowed

/-- A sentence of the `devices` section makes its names. -/
theorem Shows.introduced {statement : DeviceStatement} {sentence : Sentence} {names : List String}
    (h : Shows settings .declare d b)
    (hstates : States .declare false statement sentence names used b.reader r)
    (hpictures : Pictures settings b' (Act.sentence.after d.schematic sentence))
    (hreader : b'.reader = r) (hseen : b'.seen = b.seen) :
    Done settings .declare used (Act.introduce.after d sentence) b b' := by
  subst hreader
  have hpasses := hstates.passes
  refine ⟨hpasses.symbols, ⟨hpasses.ready, hpictures.depicts, hpictures.coherent, ?_, ?_, ?_⟩,
    hpasses.grown, hseen⟩
  · intro name hname
    refine List.mem_append.mpr ?_
    rcases mem_names_declared hname with hold | hnew
    · exact .inl (h.parts name hold)
    · exact .inr (List.mem_append_right _ hnew)
  · intro name hname
    rcases List.mem_append.mp hname with hold | hnew
    · exact hpasses.grown.has (h.met name hold)
    rcases List.mem_append.mp hnew with hwritten | hstood
    · obtain @⟨list, said, u, -⟩ := hstates.spelled
      exact hpasses.met rfl name (List.mem_append_left _
        (List.mem_append_left _ (mem_symbols_iff.mpr hwritten)))
    · rw [hstates.stands, Option.getD_some] at hstood
      obtain ⟨target, -, hid⟩ := exists_of_mem_right hstates.targets hstood
      exact ⟨target.id, hid⟩
  · intro name hname
    have hmeets (hname : Reader.Meets used name) :
        name ∈ d.met ++ sentence.names.met ∨ Plain name ∨
          NameMode.declare = .declare ∧ b'.reader.current.symbol = .name name :=
      (met_of_meets hstates.spelled hname).imp (List.mem_append_right _) .inl
    rcases hpasses.fresh name hname with hold | hused | hcurrent
    · rcases h.fresh name hold with hmet | hplain | ⟨-, hcurrent⟩
      · exact .inl (List.mem_append_left _ hmet)
      · exact .inr (.inl hplain)
      · obtain ⟨first, rest, rfl⟩ := exists_name_of_sentence hstates.spelled
        obtain ⟨-, hsymbol⟩ := Reader.front_of_symbols hpasses.symbols
        exact hmeets (.inl (hcurrent ▸ hsymbol ▸ List.mem_cons_self))
    · exact hmeets hused
    · exact .inr (.inr ⟨rfl, hcurrent⟩)

/-- The statements of the `devices` section. -/
theorem enactsPhrases_introduce : EnactsPhrases settings .declare base
    (Builder.statement (deviceStatement false) Builder.declareAll) Act.introduce
    SentenceSpelled where
  starts h hsymbols := by
    obtain ⟨first, rest, rfl⟩ := exists_name_of_sentence h
    exact inside_of_name hsymbols
  sound {d b} hb _ hquiet := by
    obtain ⟨statement, r, hrun, heq⟩ := statement_of_quiet hquiet
    obtain ⟨sentence, names, used, hstates⟩ := deviceStatement_sound hb.ready hrun
    obtain ⟨hsound, hcomplete⟩ := hstates.carried hb
    have hallowed := hsound (heq ▸ hquiet)
    obtain ⟨hpictures, hreader, hseen⟩ := hcomplete hallowed
    exact ⟨sentence, used, hstates.spelled, hallowed,
      heq ▸ hb.introduced hstates hpictures hreader hseen⟩
  complete {d b sentence used more} hb _ hspelled hsymbols hallowed := by
    obtain ⟨hcycles, names, hnames, -⟩ := id hallowed
    obtain ⟨statement, r, hrun, hstates⟩ : ∃ statement r,
        (deviceStatement false).run b.reader = (some statement, r) ∧
          States .declare false statement sentence names used b.reader r :=
      deviceStatement_complete hb.ready hspelled hsymbols hnames nofun hcycles nofun
    obtain ⟨hpictures, hreader, hseen⟩ := (hstates.carried hb).2 hallowed
    rw [statement_of_run hrun]
    exact hb.introduced hstates hpictures hreader hseen

/-- Where nothing is defined, what is said is said of parts that are there. -/
theorem mem_names_of_allowed {sentence : Sentence} (hfits : FitsInit sentence.clause)
    {names : List String} (h : (Act.declare sentence.clause).each.allowed s names)
    (hname : name ∈ names) : name ∈ s.parts.map Part.name := by
  have hpart : ∀ s first, (Act.declare sentence.clause).allowed s first →
      first ∈ s.parts.map Part.name := by
    intro s first hallowed
    obtain ⟨part, hpart⟩ : ∃ part, s.part? first = some part := by
      obtain ⟨list, said⟩ := sentence
      cases said with
      | define | inputs => exact hfits.elim
      | halfPeriod | level => exact hallowed.imp fun _ h ↦ h.1
    exact List.mem_map.mpr ⟨part, Schematic.mem_of_part? hpart, Schematic.name_of_part? hpart⟩
  induction names generalizing s with
  | nil => cases hname
  | cons first names ih =>
    rcases List.mem_cons.mp hname with rfl | hname
    · exact hpart s name h.1
    · have hkept := ih h.2 hname
      rw [names_declare, if_neg, List.append_nil] at hkept
      · exact hkept
      · obtain ⟨list, said⟩ := sentence
        cases said with
        | define | inputs => exact hfits.elim
        | halfPeriod | level => exact Bool.false_ne_true

/-- The names of a sentence that is carried out where names are only looked up were met before. -/
theorem Shows.met_of_states {statement : DeviceStatement} {sentence : Sentence}
    {names : List String} (h : Shows settings .query d b)
    (hstates : States .query true statement sentence names used b.reader r)
    (hallowed : Act.sentence.allowed d.schematic sentence) :
    ∀ name ∈ sentence.names.written, name ∈ d.met := by
  intro name hname
  have hhas : b.reader.names.Has name := hstates.passes.kept rfl ▸ hstates.known name hname
  obtain ⟨list, said⟩ := sentence
  obtain ⟨-, names', hnames', hdeclared⟩ := hallowed
  cases list with
  | several first others =>
    obtain rfl := Option.some_inj.mp hnames'
    exact h.parts name (mem_names_of_allowed (hstates.fits rfl) hdeclared hname)
  | range first last =>
    rcases h.fresh name hhas with hmet | hplain | ⟨hmode, -⟩
    · exact hmet
    · -- a word without digits is no name of a range
      have hdigits : suffix name ≠ [] := by
        obtain ⟨list, hlist⟩ : ∃ list, expandRange first last = .ok list := by
          rw [NameList.names?] at hnames'
          cases hexpand : expandRange first last with
          | error => rw [hexpand] at hnames'; cases hnames'
          | ok list => exact ⟨list, rfl⟩
        obtain ⟨hfirst, hlast⟩ := suffix_ne_nil_of_range hlist
        rcases List.mem_cons.mp hname with rfl | hname
        · exact hfirst
        · exact List.mem_singleton.mp hname ▸ hlast
      obtain ⟨c, hc⟩ := List.exists_mem_of_ne_nil _ hdigits
      have hcname : c ∈ name.toList := base_append_suffix name ▸ List.mem_append_right _ hc
      have hdigit := isDigit_of_mem_suffix hc
      rw [hplain c hcname] at hdigit
      cases hdigit
    · cases hmode

/-- The statements of an `init` section. -/
theorem enactsPhrases_adjust : EnactsPhrases settings .query base
    (Builder.statement (deviceStatement true) Builder.declareAll) Act.adjust
    (fun sentence used ↦ SentenceSpelled sentence used ∧ FitsInit sentence.clause) where
  starts h hsymbols := by
    obtain ⟨first, rest, rfl⟩ := exists_name_of_sentence h.1
    exact inside_of_name hsymbols
  sound {d b} hb _ hquiet := by
    obtain ⟨statement, r, hrun, heq⟩ := statement_of_quiet hquiet
    obtain ⟨sentence, names, used, hstates⟩ := deviceStatement_sound hb.ready hrun
    obtain ⟨hsound, hcomplete⟩ := hstates.carried hb
    have hallowed := hsound (heq ▸ hquiet)
    obtain ⟨hpictures, hreader, hseen⟩ := hcomplete hallowed
    have hfits := hstates.fits rfl
    exact ⟨sentence, used, ⟨hstates.spelled, hfits⟩, ⟨hb.met_of_states hstates hallowed, hallowed⟩,
      heq ▸ hb.looked hstates.passes hpictures hreader hseen (names_sentence_of_fits hfits _)⟩
  complete {d b sentence used more} hb _ hspelled hsymbols hallowed := by
    obtain ⟨hspelled, hfits⟩ := hspelled
    obtain ⟨hmet, hcycles, names, hnames, hdeclared⟩ := id hallowed
    have hknown : ∀ name ∈ sentence.names.met, b.reader.names.Has name := by
      intro name hname
      refine hb.met name ?_
      rcases List.mem_append.mp hname with hwritten | hstood
      · exact hmet name hwritten
      · rw [hnames, Option.getD_some] at hstood
        exact hb.parts name (mem_names_of_allowed hfits hdeclared hstood)
    obtain ⟨statement, r, hrun, hstates⟩ : ∃ statement r,
        (deviceStatement true).run b.reader = (some statement, r) ∧
          States .query true statement sentence names used b.reader r :=
      deviceStatement_complete hb.ready hspelled hsymbols hnames (fun _ ↦ hfits) hcycles
        fun _ ↦ hknown
    obtain ⟨hpictures, hreader, hseen⟩ := (hstates.carried hb).2 hallowed.2
    rw [statement_of_run hrun]
    exact hb.looked hstates.passes hpictures hreader hseen (names_sentence_of_fits hfits _)

/-! ### Connections -/

theorem exists_name_of_output (output : OutputName) :
    ∃ rest, output.symbols = .name output.device :: rest := by
  obtain ⟨device, port⟩ := output
  cases port <;> exact ⟨_, rfl⟩

/-- What was read of a connection is carried out as the connection is. -/
theorem Shows.joined (hb : Shows settings .query d b) {id : NameId} {block : String}
    {connected : Connection} {link : Link} (h : Joins .query block connected link b.reader r)
    (hblock : b.reader.names.string? id = some block) :
    ((Builder.connect id { b with reader := r } connected).reader.log = [] →
      Act.link.allowed d.schematic link) ∧
    (Act.link.allowed d.schematic link →
      Done settings .query link.symbols (Act.link.drawn.after d link) b
        (Builder.connect id { b with reader := r } connected)) := by
  have htarget : r.names.string? id = some link.target :=
    h.target ▸ h.passes.grown.string? hblock
  have hpictures := hb.pictures h.passes
  constructor
  · exact fun hquiet ↦
      (enacts_connect id).sound hpictures ⟨htarget, h.source, h.input⟩ hquiet
  · intro hallowed
    obtain ⟨hpictures', hreader, hseen⟩ :=
      (enacts_connect id).complete hpictures ⟨htarget, h.source, h.input⟩ hallowed
    exact hb.looked h.passes hpictures' hreader hseen (Schematic.names_modify fun _ ↦ rfl)

/-- The connections of a block. -/
theorem enactsPhrases_link {id : NameId} {block : String} (hblock : base.string? id = some block) :
    EnactsPhrases settings .query base
      (Builder.statement (connection id block) (Builder.connect id)) Act.link.drawn
      (fun link used ↦ used = link.symbols ∧ link.target = block) where
  starts {link _ _ _} h hsymbols := by
    obtain ⟨rest, hrest⟩ := exists_name_of_output link.source
    rw [h.1, Link.symbols, hrest] at hsymbols
    exact inside_of_name hsymbols
  sound {d b} hb hbase hquiet := by
    obtain ⟨connected, r, hrun, heq⟩ := statement_of_quiet hquiet
    obtain ⟨link, hjoins⟩ := connection_sound hb.ready (hbase.string? hblock) hrun
    obtain ⟨hsound, hcomplete⟩ := hb.joined hjoins (hbase.string? hblock)
    have hallowed := hsound (heq ▸ hquiet)
    exact ⟨link, link.symbols, ⟨rfl, hjoins.target⟩, hallowed, heq ▸ hcomplete hallowed⟩
  complete {d b link used more} hb hbase hspelled hsymbols hallowed := by
    obtain ⟨rfl, htarget⟩ := hspelled
    obtain ⟨hsource, part, inlet, hpart, hinlet, hopen⟩ := hallowed
    obtain ⟨connected, r, hrun, hjoins⟩ := connection_complete hb.ready (hbase.string? hblock)
      htarget hsymbols fun _ ↦
        ⟨(hb.depicts.exists_calls hsource).imp' (OutputMention.mk · {}) fun _ h ↦ h,
          hb.depicts.has_input hpart hinlet⟩
    rw [statement_of_run hrun]
    exact (hb.joined hjoins (hbase.string? hblock)).2
      ⟨hsource, part, inlet, hpart, hinlet, hopen⟩

/-! ### Demands to watch -/

theorem parts_after_marks (s : Schematic) (outputs : List OutputName) :
    (Act.mark.each.after s outputs).parts = s.parts := by
  induction outputs generalizing s with
  | nil => rfl
  | cons output outputs ih => exact ih (Act.mark.after s output)

/-- An output that may be watched, one of several, is there from the start. -/
theorem hasOutput_of_allowed_marks {outputs : List OutputName}
    (h : Act.mark.AllAllowed s outputs) {output : OutputName} (houtput : output ∈ outputs) :
    s.HasOutput output := by
  induction outputs generalizing s with
  | nil => cases houtput
  | cons first outputs ih =>
    rcases List.mem_cons.mp houtput with rfl | hrest
    · exact h.1.1
    · have hthere := ih h.2 hrest
      exact hthere

/-- What was read of a demand is carried out as the demand is. -/
theorem Shows.watched (hb : Shows settings .query d b) {mentions : List OutputMention}
    {watch : Watch} (hpasses : b.reader.Passes .query used r)
    (hmentions : Watches r.names mentions watch) :
    ((Builder.watchAll { b with reader := r } mentions).reader.log = [] →
      Act.watch.allowed d watch) ∧
    (Act.watch.allowed d watch →
      Done settings .query used (Act.watch.after d watch) b
        (Builder.watchAll { b with reader := r } mentions)) := by
  have hpictures := hb.pictures hpasses
  rw [Builder.watchAll_eq]
  constructor
  · exact fun hquiet ↦
      Act.allowed_each_drawn.mpr (enacts_watch.each.sound hpictures hmentions hquiet)
  · intro hallowed
    obtain ⟨hpictures', hreader, hseen⟩ :=
      enacts_watch.each.complete hpictures hmentions (Act.allowed_each_drawn.mp hallowed)
    have hparts := congrArg (List.map Part.name) (parts_after_marks d.schematic watch.outputs)
    rw [Act.watch, Act.after_each_drawn]
    exact hb.looked hpasses hpictures' hreader hseen hparts

/-- The demands of a `monitor` section. -/
theorem enactsPhrases_watch : EnactsPhrases settings .query base
    (Builder.statement monitorStatement Builder.watchAll) Act.watch WatchSpelled where
  starts {watch _ _ _} h hsymbols := by
    obtain ⟨optional, hoptional, rfl⟩ := watchSpelled_iff.mp h
    rcases hoptional with rfl | rfl
    · obtain ⟨rest, hrest⟩ := exists_name_of_output watch.first
      rw [watchSymbols, hrest] at hsymbols
      exact inside_of_name hsymbols
    · exact inside_of_keyword hsymbols
  sound {d b} hb _ hquiet := by
    obtain ⟨mentions, r, hrun, heq⟩ := statement_of_quiet hquiet
    obtain ⟨watch, used, hspelled, hpasses, hmentions⟩ := monitorStatement_sound hb.ready hrun
    obtain ⟨hsound, hcomplete⟩ := hb.watched hpasses hmentions
    have hallowed := hsound (heq ▸ hquiet)
    exact ⟨watch, used, hspelled, hallowed, heq ▸ hcomplete hallowed⟩
  complete {d b watch used more} hb _ hspelled hsymbols hallowed := by
    have hthere : ∀ output ∈ watch.outputs, d.schematic.HasOutput output := fun output houtput ↦
      hasOutput_of_allowed_marks (Act.allowed_each_drawn.mp hallowed) houtput
    obtain ⟨mentions, r, hrun, hpasses, hmentions⟩ := monitorStatement_complete hb.ready hspelled
      hsymbols fun _ output houtput ↦
        (hb.depicts.exists_calls (hthere output houtput)).imp' (OutputMention.mk · {}) fun _ h ↦ h
    rw [statement_of_run hrun]
    exact (hb.watched hpasses hmentions).2 hallowed

/-! ### Blocks -/

/-- The device of a block, by its number and by its name. -/
theorem Shows.deviceNamed?_eq_some_iff (hb : Shows settings mode d b) {name : String}
    {id : NameId} : b.deviceNamed? name = some id ↔
      b.reader.names.string? id = some name ∧ (d.schematic.part? name).isSome := by
  have hfaithful := hb.ready.names.faithful
  rw [Builder.deviceNamed?_eq, Option.filter_eq_some_iff, hfaithful.query_eq_some_iff]
  exact and_congr_right fun hname ↦ by rw [hb.depicts.contains_eq hfaithful hname]

/-- Where names are only looked up, reading on changes nothing about a draft. -/
theorem Shows.passed (hb : Shows settings .query d b) (hpasses : b.reader.Passes .query used r) :
    Done settings .query used d b { b with reader := r } :=
  hb.looked hpasses (hb.pictures hpasses) rfl rfl rfl

section BlockBody

variable {id : NameId} {name : String}

theorem blockBody_sound (hb : Shows settings .query d b)
    (hname : b.reader.names.string? id = some name)
    (hquiet : (b.blockBody id name).reader.log = []) :
    ∃ links, (∀ link ∈ links, link.target = name) ∧ Act.link.drawn.each.allowed d links ∧
      Done settings .query (links.flatMap Link.symbols ++ [.sign .closeBrace])
        (Act.link.drawn.each.after d links) b (b.blockBody id name) := by
  rw [Builder.blockBody_eq] at hquiet ⊢
  obtain ⟨_, r, hrun, heq⟩ := statement_of_quiet hquiet
  rw [heq] at hquiet ⊢
  obtain ⟨links, used, hlinks, hallowed, hdone⟩ := (enactsPhrases_link hname).loop_sound
    (Builder.reaches_statement (Builder.reaches_connect id)) hb (Names.Extends.refl _)
    (log_eq_nil_of_reaches (reaches_of_run hrun) hquiet)
  obtain ⟨hused, htargets⟩ := spelled_and_iff.mp hlinks
  obtain rfl := spelled_eq_iff.mp hused
  have hpasses : Reader.Passes .query [.sign .closeBrace] _ r :=
    expect_sound hdone.shows.ready nofun nofun hrun
  exact ⟨links, htargets, hallowed, hdone.trans (hdone.shows.passed hpasses)⟩

theorem blockBody_complete (hb : Shows settings .query d b)
    (hname : b.reader.names.string? id = some name) {links : List Link}
    (htargets : ∀ link ∈ links, link.target = name)
    (hsymbols : b.reader.symbols = links.flatMap Link.symbols ++ .sign .closeBrace :: more)
    (hallowed : Act.link.drawn.each.allowed d links) :
    Done settings .query (links.flatMap Link.symbols ++ [.sign .closeBrace])
      (Act.link.drawn.each.after d links) b (b.blockBody id name) := by
  have hdone : Done settings .query _ (Act.link.drawn.each.after d links) b
      (Builder.untilSectionEnd (Builder.statement (connection id name) (Builder.connect id))
        (Builder.unread_statement_lt (consumes_connection id name) (Builder.reaches_connect id))
          b) :=
    (enactsPhrases_link hname).loop_complete hb (Names.Extends.refl _)
      (spelled_and_iff.mpr ⟨spelled_eq_iff.mpr rfl, htargets⟩) hsymbols rfl hallowed
  have hclose := hdone.rest hsymbols
  have hpasses := (hdone.shows.ready.take hclose).1
  rw [Builder.blockBody_eq, blockEnd, statement_of_run (expect_complete _ hclose)]
  exact hdone.trans (hdone.shows.passed hpasses)

end BlockBody

theorem blockFor_sound (hb : Shows settings .query d b) (hname : b.reader.current.lexeme = .name)
    (hquiet : (b.blockFor b.reader.current).reader.log = []) :
    ∃ links, (∀ link ∈ links, link.target = b.reader.current.text) ∧
      Act.block.allowed d ⟨b.reader.current.text, links⟩ ∧
        Done settings .query ([.name b.reader.current.text, .sign .openBrace] ++
            (links.flatMap Link.symbols ++ [.sign .closeBrace]))
          (Act.block.after d ⟨b.reader.current.text, links⟩) b (b.blockFor b.reader.current) := by
  rw [Builder.blockFor_eq] at hquiet ⊢
  cases hid : b.deviceNamed? b.reader.current.text with
  | none =>
    rw [hid] at hquiet
    exact (log_file_ne _ _ _ (log_eq_nil_of_reaches (Reader.reaches_skipBlock _) hquiet)).elim
  | some id =>
    rw [hid] at hquiet
    obtain ⟨hstring, hpart⟩ := hb.deviceNamed?_eq_some_iff.mp hid
    obtain ⟨_, r, hrun, heq⟩ := statement_of_quiet hquiet
    have hopening := hb.passed (blockOpening_sound hb.ready hname hrun)
    dsimp only at heq hquiet ⊢
    rw [heq] at hquiet ⊢
    obtain ⟨links, htargets, hallowed, hdone⟩ :=
      blockBody_sound hopening.shows (hopening.grown.string? hstring) hquiet
    exact ⟨links, htargets, ⟨hpart, hallowed⟩, hopening.trans hdone⟩

/-- A block for a device that is there is opened, and its connections are next. -/
theorem blockFor_opened (hb : Shows settings .query d b)
    (hsymbols : b.reader.symbols = [.name name, .sign .openBrace] ++ more)
    (hpart : (d.schematic.part? name).isSome) :
    ∃ id b₁, b₁.reader.names.string? id = some name ∧
      Done settings .query [.name name, .sign .openBrace] d b b₁ ∧
        b.blockFor b.reader.current = b₁.blockBody id name := by
  obtain ⟨-, hsymbol⟩ := Reader.front_of_symbols hsymbols
  obtain ⟨-, htext⟩ := symbol_eq_name_iff.mp hsymbol
  obtain ⟨id, hstring⟩ : b.reader.names.Has name := by
    obtain ⟨part, hpart⟩ := Option.isSome_iff_exists.mp hpart
    exact hb.depicts.has_name hpart
  have hid : b.deviceNamed? name = some id := hb.deviceNamed?_eq_some_iff.mpr ⟨hstring, hpart⟩
  obtain ⟨hnamePasses, hrest⟩ := hb.ready.take hsymbols
  obtain ⟨hbracePasses, -⟩ := hnamePasses.ready.take hrest
  have hopened := hb.passed (hnamePasses.trans hbracePasses)
  refine ⟨id, _, hopened.grown.string? hstring, hopened, ?_⟩
  rw [Builder.blockFor_eq, htext, hid]
  dsimp only
  rw [statement_of_run (blockOpening_complete hb.ready hsymbols)]

theorem blockFor_complete (hb : Shows settings .query d b) {block : Block}
    (hsymbols : b.reader.symbols = [.name block.device, .sign .openBrace] ++
      (block.links.flatMap Link.symbols ++ .sign .closeBrace :: more))
    (htargets : ∀ link ∈ block.links, link.target = block.device)
    (hallowed : Act.block.allowed d block) :
    Done settings .query ([.name block.device, .sign .openBrace] ++
        (block.links.flatMap Link.symbols ++ [.sign .closeBrace]))
      (Act.block.after d block) b (b.blockFor b.reader.current) := by
  obtain ⟨id, b₁, hstring, hopened, heq⟩ := blockFor_opened hb hsymbols hallowed.1
  have hdone := blockBody_complete hopened.shows hstring htargets (hopened.rest hsymbols)
    hallowed.2
  rw [heq]
  exact hopened.trans hdone

/-- The blocks of a `connections` section. -/
theorem enactsPhrases_block : EnactsPhrases settings .query base Builder.block Act.block
    (fun block used ↦ used = block.symbols ∧ ∀ link ∈ block.links, link.target = block.device) where
  starts h hsymbols := by
    rw [h.1] at hsymbols
    exact inside_of_keyword hsymbols
  sound {d b} hb _ hquiet := by
    rw [Builder.block_eq] at hquiet ⊢
    obtain ⟨header, r, hrun, heq⟩ := statement_of_quiet hquiet
    obtain ⟨hdevice, rfl, hname⟩ := blockHeader_sound hb.ready hrun
    have hheader := hb.passed hdevice
    rw [heq] at hquiet ⊢
    obtain ⟨links, htargets, hallowed, hdone⟩ := blockFor_sound hheader.shows hname hquiet
    refine ⟨⟨r.current.text, links⟩, _, ⟨rfl, htargets⟩, hallowed, ?_⟩
    have hall := hheader.trans hdone
    rwa [Block.symbols, List.append_assoc]
  complete {d b block used more} hb _ hspelled hsymbols hallowed := by
    obtain ⟨rfl, htargets⟩ := hspelled
    rw [Block.symbols, List.append_assoc, List.append_assoc] at hsymbols
    have hrun := blockHeader_complete hsymbols hb.ready
    have hheader := hb.passed (hb.ready.take hsymbols).1
    have hdone := blockFor_complete hheader.shows (hheader.rest hsymbols) htargets hallowed
    rw [Builder.block_eq, statement_of_run hrun, Block.symbols, List.append_assoc]
    exact hheader.trans hdone

end Breadboard.Description
