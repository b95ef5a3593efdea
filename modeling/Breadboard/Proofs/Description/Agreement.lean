import Breadboard.Proofs.Description.Acceptance
import Breadboard.Proofs.Description.Tolerance

/-!
# Descriptions that give the same circuit

The sections of an accepted text are found in its symbols: a heading stands nowhere but where its
section begins (`Says.exists_section`), and in the `devices` and `init` sections no brace stands
before the one that ends them (`closeBrace_not_mem_sentences`).

Two texts give the same circuit when their scripts come to the same schematic, and the same names
are met in their `devices` sections (`Accepted.sameBuild`): new names come from nowhere else, and
under one table a schematic depicts one network.
-/

set_option autoImplicit false
set_option relaxedAutoImplicit false

namespace Breadboard.Description

variable {text text' : String} {settings : Settings} {script script' : Script} {heading : Heading}
  {front rest used used' u u' : List Symbol} {sentences sentences' : List Sentence}

/-! ### One after another -/

namespace Act

variable {σ α : Type} {act : Act σ α} {s : σ} {items more : List α}

theorem allowed_each_append : act.each.allowed s (items ++ more) ↔
    act.each.allowed s items ∧ act.each.allowed (act.each.after s items) more := by
  induction items generalizing s with
  | nil => exact (and_iff_right trivial).symm
  | cons item items ih => exact (and_congr_right fun _ ↦ ih).trans and_assoc.symm

theorem after_each_append :
    act.each.after s (items ++ more) = act.each.after (act.each.after s items) more :=
  List.foldl_append

end Act

section Spelled

variable {α : Type} {spells : α → List Symbol → Prop} {items more : List α}

theorem Spelled.append (h : Spelled spells items u) (h' : Spelled spells more u') :
    Spelled spells (items ++ more) (u ++ u') := by
  induction h with
  | nil => exact h'
  | cons hitem _ ih =>
    rw [List.append_assoc]
    exact .cons hitem ih

theorem exists_of_spelled_append (h : Spelled spells (items ++ more) used) :
    ∃ u v, used = u ++ v ∧ Spelled spells items u ∧ Spelled spells more v := by
  induction items generalizing used with
  | nil => exact ⟨[], used, rfl, .nil, h⟩
  | cons item items ih =>
    cases h with | @cons _ _ u w hitem hrest =>
    obtain ⟨v, w, rfl, hitems, hmore⟩ := ih hrest
    exact ⟨u ++ v, w, (List.append_assoc ..).symm, .cons hitem hitems, hmore⟩

end Spelled

/-! ### The symbols of statements -/

theorem ClauseSpelled.inside {said : Clause} (h : ClauseSpelled said used) :
    ∀ symbol ∈ used, symbol.Inside := by
  have hnumber (n : Nat) : (Symbol.sign (.number n)).Inside := ⟨nofun, nofun, nofun, nofun⟩
  have hminus : (Symbol.sign .minus).Inside := ⟨nofun, nofun, nofun, nofun⟩
  cases h with
  | define _ hkind =>
    cases hkind <;> simp [Symbol.inside_keyword, Symbol.inside_name, hminus]
  | inputs | halfPeriod => simp [Symbol.inside_keyword, hnumber]
  | level hoptional =>
    rcases hoptional with rfl | rfl <;> simp [Symbol.inside_keyword, hnumber]

theorem NameList.inside (list : NameList) : ∀ symbol ∈ list.symbols, symbol.Inside := by
  have hcomma : (Symbol.sign .comma).Inside := ⟨nofun, nofun, nofun, nofun⟩
  have harrow : (Symbol.sign .arrow).Inside := ⟨nofun, nofun, nofun, nofun⟩
  cases list with
  | several first others =>
    refine List.forall_mem_cons.mpr ⟨Symbol.inside_name first, fun symbol hsymbol ↦ ?_⟩
    obtain ⟨other, -, hother⟩ := List.mem_flatMap.mp hsymbol
    rcases List.mem_cons.mp hother with rfl | hother
    · exact hcomma
    · exact List.mem_singleton.mp hother ▸ Symbol.inside_name other
  | range first last => simp [NameList.symbols, harrow, Symbol.inside_name]

/-- A sentence ends in its only semicolon. -/
theorem SentenceSpelled.exists_front {sentence : Sentence} (h : SentenceSpelled sentence used) :
    ∃ front, used = front ++ [.sign .semicolon] ∧ ∀ symbol ∈ front, symbol.Inside := by
  obtain @⟨list, said, u, hclause⟩ := h
  exact ⟨_, rfl, List.forall_mem_append.mpr ⟨list.inside, hclause.inside⟩⟩

/-- A demand to watch ends in its only semicolon. -/
theorem WatchSpelled.exists_front {watch : Watch} (h : WatchSpelled watch used) :
    ∃ front, used = front ++ [.sign .semicolon] ∧ ∀ symbol ∈ front, symbol.Inside := by
  have hcomma : (Symbol.sign .comma).Inside := ⟨nofun, nofun, nofun, nofun⟩
  obtain ⟨hoptional⟩ := h
  refine ⟨_, rfl, List.forall_mem_append.mpr ⟨List.forall_mem_append.mpr ⟨?_, watch.first.inside⟩,
    fun symbol hsymbol ↦ ?_⟩⟩
  · rcases hoptional with rfl | rfl <;> simp [Symbol.inside_keyword]
  · obtain ⟨output, -, houtput⟩ := List.mem_flatMap.mp hsymbol
    rcases List.mem_cons.mp houtput with rfl | houtput
    · exact hcomma
    · exact output.inside symbol houtput

/-- Statements one after another have no symbols but those inside of them and their semicolons. -/
theorem inside_or_semicolon {α : Type} {spells : α → List Symbol → Prop} {items : List α}
    (hspells : ∀ {item : α} {u : List Symbol}, spells item u →
      ∃ front, u = front ++ [.sign .semicolon] ∧ ∀ symbol ∈ front, symbol.Inside)
    (h : Spelled spells items used) :
    ∀ symbol ∈ used, symbol.Inside ∨ symbol = .sign .semicolon := by
  induction h with
  | nil => exact fun _ hsymbol ↦ absurd hsymbol List.not_mem_nil
  | cons hitem _ ih =>
    obtain ⟨front, rfl, hinside⟩ := hspells hitem
    refine List.forall_mem_append.mpr ⟨List.forall_mem_append.mpr ⟨?_, ?_⟩, ih⟩
    · exact fun symbol hsymbol ↦ .inl (hinside symbol hsymbol)
    · exact fun symbol hsymbol ↦ .inr (List.mem_singleton.mp hsymbol)

theorem closeBrace_not_mem_sentences (h : Spelled SentenceSpelled sentences used) :
    .sign .closeBrace ∉ used := by
  intro hbrace
  rcases inside_or_semicolon SentenceSpelled.exists_front h _ hbrace with hinside | hsemicolon
  · exact hinside.closeBrace rfl
  · cases hsemicolon

/-! ### The sections of a text -/

/-- The symbols of a section with a given heading, and given symbols between its braces. -/
def sectionSymbols (heading : Heading) (body : List Symbol) : List Symbol :=
  [.sign (.heading heading), .sign .openBrace] ++ body ++ [.sign .closeBrace]

theorem sectionSpelled_of_body (part : Section) (h : part.BodySpelled u) :
    SectionSpelled part (sectionSymbols part.heading u) :=
  .intro h

theorem heading_not_mem_statements {α : Type} {spells : α → List Symbol → Prop} {items : List α}
    (hspells : ∀ {item : α} {u : List Symbol}, spells item u →
      ∃ front, u = front ++ [.sign .semicolon] ∧ ∀ symbol ∈ front, symbol.Inside)
    (h : Spelled spells items used) : .sign (.heading heading) ∉ used := by
  intro hmem
  rcases inside_or_semicolon hspells h _ hmem with hinside | hsemicolon
  · exact hinside.heading heading rfl
  · cases hsemicolon

theorem heading_not_mem_body {part : Section} (h : part.BodySpelled used) :
    .sign (.heading heading) ∉ used := by
  cases part with
  | devices | init => exact heading_not_mem_statements SentenceSpelled.exists_front h
  | monitor => exact heading_not_mem_statements WatchSpelled.exists_front h
  | connections blocks =>
    obtain rfl := spelled_eq_iff.mp h
    intro hmem
    obtain ⟨block, -, hblock⟩ := List.mem_flatMap.mp hmem
    rw [Block.symbols, List.mem_append, List.mem_append] at hblock
    rcases hblock with (hopen | hlinks) | hclose
    · simp [Symbol.sign, Symbol.keyword, Symbol.name] at hopen
    · have hspelled : Spelled (fun link v ↦ v = link.symbols) block.links _ :=
        spelled_eq_iff.mpr rfl
      refine heading_not_mem_statements ?_ hspelled hlinks
      rintro link _ rfl
      exact link.exists_front
    · simp [Symbol.sign] at hclose

/-- The only heading in a section is its own, in front. -/
theorem SectionSpelled.heading_eq {part : Section} (h : SectionSpelled part used)
    (hused : used = front ++ .sign (.heading heading) :: rest) :
    front = [] ∧ part.heading = heading ∧ ∃ body, part.BodySpelled body ∧
      rest = .sign .openBrace :: (body ++ [.sign .closeBrace]) := by
  obtain @⟨body, hbody⟩ := h
  cases front with
  | nil =>
    obtain ⟨hheading, hrest⟩ := List.cons.inj hused
    refine ⟨rfl, ?_, body, hbody, hrest.symm⟩
    simpa [Symbol.sign] using hheading
  | cons first front =>
    have hmem : Symbol.sign (.heading heading) ∈
        .sign .openBrace :: (body ++ [.sign .closeBrace]) := by
      have hinside : .sign .openBrace :: (body ++ [.sign .closeBrace]) = _ :=
        (List.cons.inj hused).2
      rw [hinside]
      exact List.mem_append_right front List.mem_cons_self
    rcases List.mem_cons.mp hmem with hopen | hmem
    · cases hopen
    rcases List.mem_append.mp hmem with hin | hclose
    · exact absurd hin (heading_not_mem_body hbody)
    · cases List.mem_singleton.mp hclose

/-- A heading among the symbols of a script is the heading of one of its sections. -/
theorem exists_section_of_heading (h : ScriptSpelled script used)
    (hused : used = front ++ .sign (.heading heading) :: rest) :
    ∃ before part after body more, script = before ++ part :: after ∧ part.heading = heading ∧
      ScriptSpelled before front ∧ part.BodySpelled body ∧
      rest = .sign .openBrace :: (body ++ .sign .closeBrace :: more) ∧
      ScriptSpelled after more := by
  induction h generalizing front with
  | nil => exact absurd hused.symm (List.append_ne_nil_of_right_ne_nil _ (List.cons_ne_nil _ _))
  | @cons first script u v hfirst hscript ih =>
    -- the heading is the one in front of the first section, or it stands behind that section
    have hcases : (∃ extra, u = front ++ .sign (.heading heading) :: extra ∧ rest = extra ++ v) ∨
        ∃ later, front = u ++ later ∧ v = later ++ .sign (.heading heading) :: rest := by
      rcases List.append_eq_append_iff.mp hused with ⟨later, hfront, hv⟩ | ⟨extra, hu, hrest⟩
      · exact .inr ⟨later, hfront, hv⟩
      · cases extra with
        | nil => exact .inr ⟨[], by simpa using hu.symm, hrest.symm⟩
        | cons symbol extra =>
          obtain ⟨rfl, rfl⟩ := List.cons.inj hrest
          exact .inl ⟨extra, hu, rfl⟩
    rcases hcases with ⟨extra, hu, rfl⟩ | ⟨later, rfl, hv⟩
    · obtain ⟨rfl, hheading, body, hbody, rfl⟩ := hfirst.heading_eq hu
      exact ⟨[], first, script, body, v, rfl, hheading, .nil, hbody, by simp, hscript⟩
    · obtain ⟨before, part, after, body, more, rfl, hheading, hbefore, hbody, hrest, hafter⟩ :=
        ih hv
      exact ⟨first :: before, part, after, body, more, rfl, hheading, .cons hfirst hbefore, hbody,
        hrest, hafter⟩

theorem Scans.unique {symbols symbols' : List Symbol} (h : Scans text symbols)
    (h' : Scans text symbols') : symbols = symbols' :=
  List.map_injective_iff.mpr (Option.some_injective Symbol) (h.symm.trans h')

/-- A heading in an accepted text, other than that of the `devices` section, begins a section behind
the `devices` section. -/
theorem Says.exists_section (h : Says text script) (hheading : heading ≠ .devices)
    (hscans : Scans text (front ++ .sign (.heading heading) :: rest)) :
    ∃ sentences before part after used u body more,
      script = .devices sentences :: (before ++ part :: after) ∧ part.heading = heading ∧
      front = used ++ u ∧ SectionSpelled (.devices sentences) used ∧ ScriptSpelled before u ∧
      part.BodySpelled body ∧ rest = .sign .openBrace :: (body ++ .sign .closeBrace :: more) ∧
      ScriptSpelled after more := by
  obtain ⟨symbols, hsymbols, hspelled⟩ := h.spelled
  obtain ⟨before, part, after, body, more, rfl, rfl, hbefore, hbody, hrest, hafter⟩ :=
    exists_section_of_heading hspelled (hsymbols.unique hscans)
  have hfirst := h.inOrder.first
  cases hbefore with
  | nil => exact absurd (Option.some_inj.mp hfirst) hheading
  | @cons first before used u hdevices hbefore =>
    cases first with
    | devices sentences =>
      exact ⟨sentences, before, part, after, used, u, body, more, rfl, rfl, rfl, hdevices, hbefore,
        hbody, hrest, hafter⟩
    | _ => cases hfirst

theorem exists_says_of_load {c : Circuit} (h : Circuit.load text settings = .ok c) :
    ∃ script, Says text script := by
  obtain ⟨s, hdenotes⟩ := denotes_of_load h
  exact exists_says_of_denotes hdenotes

/-! ### Texts that agree -/

/-- A text that is accepted as a script, with the symbols of its `devices` section and those behind
it. -/
structure Accepted (text : String) (sentences : List Sentence) (script : Script)
    (used u : List Symbol) : Prop where
  scans : Scans text (used ++ u)
  devices : SectionSpelled (.devices sentences) used
  rest : ScriptSpelled script u
  inOrder : Script.InOrder (.devices sentences :: script)
  allowed : Act.script.allowed {} (.devices sentences :: script)

/-- Sections without strays. -/
theorem scriptStrewn_of_spelled {d : Draft} (h : ScriptSpelled script u) :
    ScriptStrewn d script u u 0 := by
  induction h generalizing d with
  | nil => exact .nil
  | cons hpart _ ih => exact .cons (.plain hpart) ih

theorem front_ne_name_of_scriptSpelled (h : ScriptSpelled script u) : frontLexeme u ≠ .name :=
  front_ne_name_of_scriptStrewn (scriptStrewn_of_spelled (d := {}) h)

/-- Two texts that are built into the same network, with the same names and monitors, and give the
same circuit or the same failure. -/
structure SameBuild (settings : Settings) (text text' : String) : Prop where
  names : (Circuit.build text' settings).reader.names = (Circuit.build text settings).reader.names
  network : (Circuit.build text' settings).network = (Circuit.build text settings).network
  monitors : (Circuit.build text' settings).monitors = (Circuit.build text settings).monitors
  load : Circuit.load text' settings = Circuit.load text settings

namespace Accepted

theorem front_ne_name (h : Accepted text sentences script used u) :
    frontLexeme (used ++ u) ≠ .name := by
  cases h.devices
  exact nofun

/-- What is left when an accepted text is read to its end. -/
theorem parse (h : Accepted text sentences script used u) (settings : Settings) :
    (Circuit.build text settings).reader.log = [] ∧
      (Circuit.build text settings).reader.names =
        ((fresh text settings).parseSection .devices).reader.names ∧
      Shows settings .declare (Act.script.after {} (.devices sentences :: script))
        (Circuit.build text settings) := by
  obtain ⟨hb, hsymbols, -⟩ := h.scans.shows_start h.front_ne_name settings
  obtain ⟨hcount, hnames, hshows⟩ := parse_of_devices hb rfl h.devices
    (scriptStrewn_of_spelled h.rest) hsymbols h.inOrder h.allowed
  have hquiet := List.length_eq_zero_iff.mp hcount
  rw [Builder.hushed_of_quiet hquiet] at hshows
  exact ⟨hquiet, hnames, hshows⟩

/-- Accepted texts that come to the same schematic, with the same names after their `devices`
sections, are built into the same. -/
theorem sameBuild (h : Accepted text sentences script used u)
    (h' : Accepted text' sentences' script' used' u')
    (hsame : (Act.script.after {} (.devices sentences' :: script')).schematic =
      (Act.script.after {} (.devices sentences :: script)).schematic)
    (hnames : ((fresh text' settings).parseSection .devices).reader.names =
      ((fresh text settings).parseSection .devices).reader.names) :
    SameBuild settings text text' := by
  obtain ⟨hquiet, htable, hshows⟩ := h.parse settings
  obtain ⟨hquiet', htable', hshows'⟩ := h'.parse settings
  have heq : (Circuit.build text' settings).reader.names =
      (Circuit.build text settings).reader.names := by rw [htable', hnames, htable]
  have hdepicts := hshows'.depicts
  rw [heq, hsame] at hdepicts
  obtain ⟨hnetwork, hmonitors⟩ := hdepicts.unique hshows.ready.names.faithful hshows.depicts
  refine ⟨heq, hnetwork, hmonitors, ?_⟩
  rw [load_eq_ok_iff.mpr ⟨hquiet', rfl⟩, load_eq_ok_iff.mpr ⟨hquiet, rfl⟩, heq, hnetwork,
    hmonitors]

/-- Accepted texts with the same `devices` section that come to the same schematic are built into
the same. -/
theorem sameBuild_of_devices (h : Accepted text sentences script used u)
    (h' : Accepted text' sentences script' used u')
    (hsame : (Act.script.after {} (.devices sentences :: script')).schematic =
      (Act.script.after {} (.devices sentences :: script)).schematic) :
    SameBuild settings text text' := by
  obtain ⟨met, hmet⟩ := exists_met_of_devices h.devices h.allowed.1
  have hnames {text : String} {script : Script} {u : List Symbol}
      (h : Accepted text sentences script used u) :
      ((fresh text settings).parseSection .devices).reader.names =
        portTable.2.meetAll .declare met := by
    obtain ⟨hb, hsymbols, hstart⟩ := h.scans.shows_start h.front_ne_name settings
    rw [← hstart, hmet hb List.not_mem_nil hsymbols (front_ne_name_of_scriptSpelled h.rest)]
  exact h.sameBuild h' hsame ((hnames h').trans (hnames h).symm)

end Accepted

end Breadboard.Description
