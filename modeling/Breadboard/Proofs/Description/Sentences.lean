import Breadboard.Proofs.Description.Depiction
import Breadboard.Proofs.Description.Phrases

/-!
# Sentences about devices

What is read of a sentence is what the sentence says, and a sentence that stands in front of the
reader is read, if its range is one and its names may be used (`deviceStatement_sound`,
`deviceStatement_complete`).
-/

set_option autoImplicit false
set_option relaxedAutoImplicit false

namespace Breadboard.Description

namespace Attempt

variable {r s : Reader} {mode : NameMode} {more : List Symbol}

/-! ### Names -/

/-- The devices that a sentence is about go by the names that its list stands for. -/
def Targeted (names : Names) (targets : List Target) (list : List String) : Prop :=
  List.Forall₂ (fun target name ↦ names.string? target.id = some name) targets list

theorem reads_deviceName (mode : NameMode) : Reads mode deviceName
    (fun names mention name ↦ names.string? mention.id = some name) fun name ↦ [.name name] where
  grow h hgrown := hgrown.string? h
  sound hr h := ⟨_, knownName_sound hr h⟩
  complete {r name more} hr hsymbols _ hknown := by
    obtain ⟨mention, hrun, -, hpasses, hid⟩ := knownName_complete hr .unknownDevice .deviceName
      hsymbols fun hmode ↦ (hknown hmode).imp' Mention.id fun _ h ↦ h
    exact ⟨mention, r.advance, hrun, hpasses, hid⟩

theorem run_resolveAll_bind {β : Type} (list : List String)
    (f : Except String (List NameId) → Attempt β) :
    (resolveAll list >>= f).run r =
      (f (r.names.resolveAll r.mode list).1).run
        { r with names := (r.names.resolveAll r.mode list).2 } := rfl

/-- The devices of a range that is one. -/
theorem rangeTargets_sound {t : Reader} {first last : Mention}
    (h : r.Passes mode [.name first.text, .sign .arrow, .name last.text] s)
    (hfirst : IsIdentifier first.text) {list : List Target}
    (hrun : (rangeTargets first last).run s = (some list, t)) :
    ∃ names, (NameList.range first.text last.text).names? = some names ∧
      r.Passes mode (NameList.range first.text last.text).symbols t ∧
        Targeted t.names list names := by
  rw [rangeTargets] at hrun
  split at hrun
  · cases hrun
  · next names hnames =>
    rw [run_resolveAll_bind] at hrun
    split at hrun
    · cases hrun
    · next ids hids =>
      cases hrun
      refine ⟨names, by rw [NameList.names?, hnames]; rfl, h.resolveAll hnames hfirst, ?_⟩
      exact List.forall₂_map_left_iff.mpr (Names.forall₂_of_resolveAll hids)

theorem rangeTargets_complete {first last : Mention}
    (h : r.Passes mode [.name first.text, .sign .arrow, .name last.text] s)
    (hfirst : IsIdentifier first.text) {names : List String}
    (hnames : (NameList.range first.text last.text).names? = some names)
    (hknown : mode = .query → ∀ name ∈ names, s.names.Has name) :
    ∃ list t, (rangeTargets first last).run s = (some list, t) ∧
      r.Passes mode (NameList.range first.text last.text).symbols t ∧
        Targeted t.names list names := by
  rw [NameList.names?] at hnames
  rw [rangeTargets]
  cases hexpand : expandRange first.text last.text with
  | error => rw [hexpand] at hnames; cases hnames
  | ok expanded =>
    rw [hexpand] at hnames
    obtain rfl : expanded = names := Option.some_inj.mp hnames
    obtain ⟨ids, hids⟩ : ∃ ids, (s.names.resolveAll s.mode expanded).1 = .ok ids :=
      Names.exists_resolveAll fun hmode ↦ hknown (h.ready.inForce.symm.trans hmode)
    refine ⟨ids.map (⟨·, first.position⟩), _, ?_, h.resolveAll hexpand hfirst,
      List.forall₂_map_left_iff.mpr (Names.forall₂_of_resolveAll hids)⟩
    dsimp only
    rw [run_resolveAll_bind, hids]
    rfl

/-- The devices of a sentence have their names in the table. -/
theorem has_of_targeted {table : Names} {list : List Target} {names : List String}
    (h : Targeted table list names) {name : String} (hname : name ∈ names) : table.Has name := by
  obtain ⟨target, -, hid⟩ := exists_of_mem_right h hname
  exact ⟨target.id, hid⟩

theorem extends_rangeTargets (first last : Mention) (r : Reader) :
    r.names.Extends ((rangeTargets first last).run r).2.names := by
  rw [rangeTargets]
  split
  · exact Names.Extends.refl _
  · rw [run_resolveAll_bind]
    split <;> exact Names.extends_resolveAll ..

theorem targets_sound (hr : r.Ready mode) {list : List Target}
    (h : targets.run r = (some list, s)) :
    ∃ (written : NameList) (names : List String), written.names? = some names ∧
      r.Passes mode written.symbols s ∧ Targeted s.names list names ∧
        ∀ name ∈ written.written, s.names.Has name := by
  obtain ⟨first, t, hfirst, h⟩ := run_bind_eq_some.mp h
  obtain ⟨hpasses, hid⟩ := knownName_sound hr hfirst
  rw [run_current_bind] at h
  split at h
  · next harrow =>
    rw [run_advance_bind] at h
    obtain ⟨last, u, hlast, h⟩ := run_bind_eq_some.mp h
    have harrowPasses := passes_sign hpasses.ready harrow nofun nofun
    obtain ⟨hlastPasses, hlastId⟩ := knownName_sound harrowPasses.ready hlast
    obtain ⟨names, hnames, hrange, hlist⟩ := rangeTargets_sound
      ((hpasses.trans harrowPasses).trans hlastPasses) (hr.isIdentifier hpasses.symbols) h
    refine ⟨.range first.text last.text, names, hnames, hrange, hlist, ?_⟩
    have hgrown := extends_rangeTargets first last u
    rw [h] at hgrown
    intro name hname
    rcases List.mem_cons.mp hname with rfl | hname
    · exact ⟨first.id, hgrown.string? ((harrowPasses.trans hlastPasses).grown.string? hid)⟩
    · rw [List.mem_singleton.mp hname]
      exact ⟨last.id, hgrown.string? hlastId⟩
  · obtain ⟨mentions, u, hmore, h⟩ := run_bind_eq_some.mp h
    cases h
    obtain ⟨names, hnames, hmentions⟩ :=
      commaItems_sound (reads_deviceName mode) hpasses.ready hmore
    have htargeted : Targeted u.names ((first :: mentions).map fun mention ↦
        ⟨mention.id, mention.position⟩) (first.text :: names) :=
      .cons (hnames.grown.string? hid) (List.forall₂_map_left_iff.mpr hmentions)
    refine ⟨.several first.text names, first.text :: names, rfl, hpasses.trans hnames, htargeted,
      ?_⟩
    exact fun name hname ↦ has_of_targeted htargeted hname

theorem several_complete (hr : r.Ready mode) {first : String} {others : List String}
    (hsymbols : r.symbols = (NameList.several first others).symbols ++ more)
    (hfront : frontLexeme more ∉ [.dot, .comma, .arrow])
    (hknown : mode = .query → ∀ name ∈ first :: others, r.names.Has name) :
    ∃ list s, targets.run r = (some list, s) ∧
      r.Passes mode (NameList.several first others).symbols s ∧
        Targeted s.names list (first :: others) := by
  have hnot : frontLexeme more ≠ .dot ∧ frontLexeme more ≠ .comma ∧ frontLexeme more ≠ .arrow := by
    simpa using hfront
  obtain ⟨hdot, hcomma, harrow⟩ := hnot
  obtain ⟨mention, hrun, rfl, hpasses, hid⟩ := knownName_complete hr .unknownDevice .deviceName
    hsymbols fun hmode ↦ hknown hmode first List.mem_cons_self
  have hrest : r.advance.symbols =
      afterComma (fun name ↦ [.name name]) others ++ more := (hr.take hsymbols).2
  obtain ⟨mentions, s, hmore, hothers, hmentions⟩ := commaItems_complete (reads_deviceName mode)
    hpasses.ready hrest hdot hcomma fun hmode name hname ↦ by
      obtain ⟨id, hid⟩ := hpasses.grown.has (hknown hmode name (List.mem_cons_of_mem _ hname))
      exact ⟨⟨id, name, r.current.position⟩, hid⟩
  refine ⟨(mention :: mentions).map fun mention ↦ ⟨mention.id, mention.position⟩, s,
    run_bind_eq_some.mpr ⟨mention, r.advance, hrun, ?_⟩, hpasses.trans hothers,
    .cons (hothers.grown.string? hid) (List.forall₂_map_left_iff.mpr hmentions)⟩
  have hfollows : r.advance.current.lexeme ≠ .arrow := by
    rw [← Reader.frontLexeme_symbols, hrest]
    cases others with
    | nil => exact harrow
    | cons => exact nofun
  rw [run_current_bind, if_neg hfollows]
  exact run_bind_eq_some.mpr ⟨mentions, s, hmore, rfl⟩

theorem range_complete (hr : r.Ready mode) {first last : String} {names : List String}
    (hnames : (NameList.range first last).names? = some names)
    (hsymbols : r.symbols = (NameList.range first last).symbols ++ more)
    (hknown : mode = .query → ∀ name ∈ [first, last] ++ names, r.names.Has name) :
    ∃ list s, targets.run r = (some list, s) ∧
      r.Passes mode (NameList.range first last).symbols s ∧ Targeted s.names list names := by
  have hwritten : mode = .query → ∀ name ∈ [first, last], r.names.Has name :=
    fun hmode name hname ↦ hknown hmode name (List.mem_append_left _ hname)
  obtain ⟨mention, hrun, rfl, hpasses, -⟩ := knownName_complete hr .unknownDevice .deviceName
    hsymbols fun hmode ↦ hwritten hmode first (by simp)
  obtain ⟨harrowPasses, hrest⟩ := hpasses.ready.take (hr.take hsymbols).2
  have hpasses' := hpasses.trans harrowPasses
  obtain ⟨other, hrun', rfl, hlast, -⟩ := knownName_complete hpasses'.ready .unknownDevice
    .deviceName hrest fun hmode ↦ hpasses'.grown.has (hwritten hmode last (by simp))
  have hall := hpasses'.trans hlast
  obtain ⟨list, s, hrun'', hrange⟩ := rangeTargets_complete hall (hr.isIdentifier hsymbols) hnames
    fun hmode name hname ↦ hall.grown.has (hknown hmode name (List.mem_append_right _ hname))
  refine ⟨list, s, run_bind_eq_some.mpr ⟨mention, r.advance, hrun, ?_⟩, hrange⟩
  rw [run_current_bind, if_pos (lexeme_of_sign (hr.take hsymbols).2), run_advance_bind]
  exact run_bind_eq_some.mpr ⟨other, _, hrun', hrun''⟩

theorem targets_complete (hr : r.Ready mode) {written : NameList} {names : List String}
    (hnames : written.names? = some names) (hsymbols : r.symbols = written.symbols ++ more)
    (hfront : frontLexeme more ∉ [.dot, .comma, .arrow])
    (hknown : mode = .query → ∀ name ∈ written.met, r.names.Has name) :
    ∃ list s, targets.run r = (some list, s) ∧ r.Passes mode written.symbols s ∧
      Targeted s.names list names := by
  rw [NameList.met, hnames, Option.getD_some] at hknown
  cases written with
  | several first others =>
    obtain rfl : first :: others = names := Option.some_inj.mp hnames
    exact several_complete hr hsymbols hfront fun hmode name hname ↦
      hknown hmode name (List.mem_append_left _ hname)
  | range first last => exact range_complete hr hnames hsymbols hknown

/-! ### Kinds -/

theorem mem_all_kinds (kind : Kind) : kind ∈ Kind.all := by
  cases kind with
  | gate g => cases g <;> decide
  | _ => decide

/-- A word stands for one kind at most. -/
theorem ofKeyword?_eq_some_iff {word : String} {kind : Kind} :
    Kind.ofKeyword? word = some kind ↔ Text.sameWord kind.keyword word := by
  have hinjective : ∀ k ∈ Kind.all, ∀ k' ∈ Kind.all,
      Text.small k.keyword = Text.small k'.keyword → k = k' := by decide
  constructor
  · exact fun h ↦ List.find?_some (p := fun k : Kind ↦ Text.sameWord k.keyword word) h
  · intro hsame
    cases hword : Kind.ofKeyword? word with
    | none => exact absurd hsame (List.find?_eq_none.mp hword kind (mem_all_kinds kind))
    | some other =>
      have hother := List.find?_some (p := fun k : Kind ↦ Text.sameWord k.keyword word) hword
      rw [hinjective other (mem_all_kinds other) kind (mem_all_kinds kind)
        ((beq_iff_eq.mp hother).trans (beq_iff_eq.mp hsame).symm)]

theorem not_d_of_sameWord {word : String} {kind : Kind} (h : Text.sameWord kind.keyword word) :
    Text.sameWord "D" word = false := by
  have hnone : ∀ k ∈ Kind.all, Text.small "D" ≠ Text.small k.keyword := by decide
  refine beq_eq_false_iff_ne.mpr fun hd ↦ hnone kind (mem_all_kinds kind) ?_
  exact hd.trans (beq_iff_eq.mp h).symm

theorem passes_name (hr : r.Ready mode) (h : r.current.lexeme = .name) :
    r.Passes mode [.name r.current.text] r.advance := by
  have hsymbol : r.current.symbol = .name r.current.text := symbol_eq_name_iff.mpr ⟨h, rfl⟩
  rw [← hsymbol]
  exact hr.passes_advance (Reader.atEnd_eq_false_of_symbol hsymbol)

theorem deviceKind_sound (hr : r.Ready mode) {kind : Kind}
    (h : deviceKind.run r = (some kind, s)) :
    ∃ used, KindSpelled kind used ∧ r.Passes mode used s := by
  rw [deviceKind, run_current_bind] at h
  split at h
  · next hname =>
    have hpasses := passes_name hr hname
    rw [run_advance_bind, run_current_bind] at h
    split at h
    · next hd =>
      have hminus := passes_sign hpasses.ready hd.2 nofun nofun
      rw [run_advance_bind, run_current_bind] at h
      split at h
      · next htype =>
        cases h
        have hword := passes_name hminus.ready htype.1
        exact ⟨_, .hyphened hd.1 htype.2, (hpasses.trans hminus).trans hword⟩
      · cases h
    · split at h
      · next kind hkind =>
        cases h
        exact ⟨_, .word (ofKeyword?_eq_some_iff.mp hkind), hpasses⟩
      · split at h <;> cases h
  · cases h

theorem deviceKind_complete (hr : r.Ready mode) {kind : Kind} {used : List Symbol}
    (hspelled : KindSpelled kind used) (hsymbols : r.symbols = used ++ more) :
    ∃ s, deviceKind.run r = (some kind, s) ∧ r.Passes mode used s := by
  cases hspelled with
  | @word kind word hword =>
    obtain ⟨-, hsymbol⟩ := Reader.front_of_symbols hsymbols
    obtain ⟨hlexeme, rfl⟩ := symbol_eq_name_iff.mp hsymbol
    refine ⟨r.advance, ?_, passes_name hr hlexeme⟩
    rw [deviceKind, run_current_bind, if_pos hlexeme, run_advance_bind, run_current_bind,
      if_neg (by simp [not_d_of_sameWord hword]), ofKeyword?_eq_some_iff.mpr hword]
    rfl
  | @hyphened d type hd htype =>
    obtain ⟨-, hsymbol⟩ := Reader.front_of_symbols hsymbols
    obtain ⟨hlexeme, rfl⟩ := symbol_eq_name_iff.mp hsymbol
    obtain ⟨hfirst, hrest⟩ := hr.take hsymbols
    obtain ⟨hminus, hrest'⟩ := hfirst.ready.take hrest
    obtain ⟨-, hsymbol'⟩ := Reader.front_of_symbols hrest'
    obtain ⟨hlexeme', rfl⟩ := symbol_eq_name_iff.mp hsymbol'
    refine ⟨r.advance.advance.advance, ?_, (hfirst.trans hminus).trans (hminus.ready.take hrest').1⟩
    rw [deviceKind, run_current_bind, if_pos hlexeme, run_advance_bind, run_current_bind,
      if_pos ⟨hd, lexeme_of_sign hrest⟩, run_advance_bind, run_current_bind,
      if_pos ⟨hlexeme', htype⟩]
    rfl

/-! ### Clauses -/

theorem passes_keyword (hr : r.Ready mode) {keyword : Keyword}
    (h : r.current.lexeme = .keyword keyword) : r.Passes mode [.keyword keyword] r.advance :=
  passes_sign hr h nofun nofun

theorem halfPeriod_sound (hr : r.Ready mode) {clause : Clause}
    (h : halfPeriod.run r = (some clause, s)) : ∃ cycles, clause = .halfPeriod cycles ∧ 1 ≤ cycles ∧
      r.Passes mode [.sign (.number cycles)] s := by
  obtain ⟨⟨cycles, position⟩, t, hnumber, h⟩ := run_bind_eq_some.mp h
  dsimp only at h
  split at h
  · cases h
  · next hcycles =>
    cases h
    exact ⟨cycles, rfl, Nat.one_le_iff_ne_zero.mpr hcycles, number_sound hr hnumber⟩

theorem halfPeriod_complete (hr : r.Ready mode) {cycles : Nat} (hcycles : 1 ≤ cycles)
    (hsymbols : r.symbols = .sign (.number cycles) :: more) :
    ∃ s, halfPeriod.run r = (some (.halfPeriod cycles), s) ∧
      r.Passes mode [.sign (.number cycles)] s := by
  obtain ⟨position, hnumber⟩ := number_complete hsymbols
  refine ⟨r.advance, run_bind_eq_some.mpr ⟨_, _, hnumber, ?_⟩, number_sound hr hnumber⟩
  dsimp only
  rw [if_neg (Nat.one_le_iff_ne_zero.mp hcycles)]
  rfl

/-- The level of a switch, after `set` and an optional `to`. -/
def levelNumber : Attempt Clause := do
  let (value, position) ← number
  match value with
  | 0 => return .level Level.low
  | 1 => return .level Level.high
  | _ => refuse (.switchLevel value) position

theorem run_switchLevel (r : Reader) :
    switchLevel.run r =
      levelNumber.run (if r.current.lexeme = .keyword .toWord then r.advance else r) := by
  rw [switchLevel, run_current_bind]
  split <;> rfl

theorem levelNumber_sound (hr : r.Ready mode) {clause : Clause}
    (h : levelNumber.run r = (some clause, s)) : ∃ level : Level, clause = .level level ∧
      r.Passes mode [.sign (.number level.toNat)] s := by
  obtain ⟨⟨value, position⟩, t, hnumber, h⟩ := run_bind_eq_some.mp h
  dsimp only at h
  split at h
  · cases h
    exact ⟨Level.low, rfl, number_sound hr hnumber⟩
  · cases h
    exact ⟨Level.high, rfl, number_sound hr hnumber⟩
  · cases h

theorem levelNumber_complete (hr : r.Ready mode) {level : Level}
    (hsymbols : r.symbols = .sign (.number level.toNat) :: more) :
    ∃ s, levelNumber.run r = (some (.level level), s) ∧
      r.Passes mode [.sign (.number level.toNat)] s := by
  obtain ⟨position, hnumber⟩ := number_complete hsymbols
  refine ⟨r.advance, run_bind_eq_some.mpr ⟨_, _, hnumber, ?_⟩, number_sound hr hnumber⟩
  cases level <;> rfl

theorem switchLevel_sound (hr : r.Ready mode) {clause : Clause}
    (h : switchLevel.run r = (some clause, s)) : ∃ (level : Level) (optional : List Symbol),
      clause = .level level ∧ (optional = [] ∨ optional = [.keyword .toWord]) ∧
        r.Passes mode (optional ++ [.sign (.number level.toNat)]) s := by
  rw [run_switchLevel] at h
  split at h
  · next hto =>
    have hpasses := passes_keyword hr hto
    obtain ⟨level, hlevel, hnumber⟩ := levelNumber_sound hpasses.ready h
    exact ⟨level, [.keyword .toWord], hlevel, .inr rfl, hpasses.trans hnumber⟩
  · obtain ⟨level, hlevel, hnumber⟩ := levelNumber_sound hr h
    exact ⟨level, [], hlevel, .inl rfl, hnumber⟩

theorem switchLevel_complete (hr : r.Ready mode) {level : Level} {optional : List Symbol}
    (hoptional : optional = [] ∨ optional = [.keyword .toWord])
    (hsymbols : r.symbols = optional ++ .sign (.number level.toNat) :: more) :
    ∃ s, switchLevel.run r = (some (.level level), s) ∧
      r.Passes mode (optional ++ [.sign (.number level.toNat)]) s := by
  rw [run_switchLevel]
  rcases hoptional with rfl | rfl
  · have hnumber : r.current.lexeme ≠ .keyword .toWord := by
      rw [lexeme_of_sign hsymbols]
      exact nofun
    rw [if_neg hnumber]
    exact levelNumber_complete hr hsymbols
  · obtain ⟨hto, hrest⟩ := hr.take hsymbols
    rw [if_pos (lexeme_of_sign hsymbols)]
    obtain ⟨s, hrun, hpasses⟩ := levelNumber_complete hto.ready hrest
    exact ⟨s, hrun, hto.trans hpasses⟩

/-- What is said with `is` or `are`, from the verb on. -/
def definition (inInit : Bool) : Attempt Clause := do
  let verb ← current
  if inInit then refuse .notInInit verb.position
  else
    advance
    return .define (← deviceKind)

/-- What is said with `has` or `have`, from the verb on. -/
def possession (inInit : Bool) : Attempt Clause := do
  let verb ← current
  advance
  if (← current).lexeme = .keyword .cycle then
    advance
    halfPeriod
  else if inInit then refuse .notInInit verb.position
  else return .inputs (← number).1

/-- Some symbols that the reader has passed spell what is said of devices, which is allowed in the
section and no half-period of nothing. -/
structure Tells (mode : NameMode) (inInit : Bool) (said : Clause) (used : List Symbol)
    (r s : Reader) : Prop where
  spelled : ClauseSpelled said used
  passes : r.Passes mode used s
  fits : inInit = true → FitsInit said
  cycles : ∀ cycles, said = .halfPeriod cycles → 1 ≤ cycles

theorem definition_sound {inInit : Bool} (hr : r.Ready mode) {verb : Keyword}
    (hverb : r.current.lexeme = .keyword verb) (hword : verb = .is ∨ verb = .are) {said : Clause}
    (h : (definition inInit).run r = (some said, s)) : ∃ used, Tells mode inInit said used r s := by
  rw [definition, run_current_bind] at h
  split at h
  · cases h
  · next hinit =>
    rw [run_advance_bind] at h
    obtain ⟨kind, t, hkind, h⟩ := run_bind_eq_some.mp h
    cases h
    have hpasses := passes_keyword hr hverb
    obtain ⟨used, hspelled, hused⟩ := deviceKind_sound hpasses.ready hkind
    exact ⟨_, .define hword hspelled, hpasses.trans hused, fun h ↦ absurd h hinit, nofun⟩

theorem possession_sound {inInit : Bool} (hr : r.Ready mode) {verb : Keyword}
    (hverb : r.current.lexeme = .keyword verb) (hword : verb = .has ∨ verb = .haveWord)
    {said : Clause} (h : (possession inInit).run r = (some said, s)) :
    ∃ used, Tells mode inInit said used r s := by
  have hpasses := passes_keyword hr hverb
  rw [possession, run_current_bind, run_advance_bind, run_current_bind] at h
  split at h
  · next hcycle =>
    rw [run_advance_bind] at h
    have hpasses' := passes_keyword hpasses.ready hcycle
    obtain ⟨cycles, rfl, hpos, hnumber⟩ := halfPeriod_sound hpasses'.ready h
    refine ⟨_, .halfPeriod hword, (hpasses.trans hpasses').trans hnumber, fun _ ↦ trivial, ?_⟩
    rintro _ ⟨rfl⟩
    exact hpos
  split at h
  · cases h
  · next hinit =>
    obtain ⟨⟨count, position⟩, t, hnumber, h⟩ := run_bind_eq_some.mp h
    cases h
    exact ⟨_, .inputs hword, hpasses.trans (number_sound hpasses.ready hnumber),
      fun h ↦ absurd h hinit, nofun⟩

theorem clause_sound {inInit : Bool} (hr : r.Ready mode) {said : Clause}
    (h : (clause inInit).run r = (some said, s)) : ∃ used, Tells mode inInit said used r s := by
  rw [clause, run_current_bind] at h
  split at h
  · next hverb => exact definition_sound hr hverb (.inl rfl) h
  · next hverb => exact definition_sound hr hverb (.inr rfl) h
  · next hverb => exact possession_sound hr hverb (.inl rfl) h
  · next hverb => exact possession_sound hr hverb (.inr rfl) h
  · next hverb =>
    have hpasses := passes_keyword hr hverb
    obtain ⟨level, optional, rfl, hoptional, hlevel⟩ := switchLevel_sound hpasses.ready h
    exact ⟨_, .level hoptional, hpasses.trans hlevel, fun _ ↦ trivial, nofun⟩
  · split at h <;> cases h

theorem definition_complete (hr : r.Ready mode) {verb : Keyword} {kind : Kind} {used : List Symbol}
    (hspelled : KindSpelled kind used) (hsymbols : r.symbols = .keyword verb :: used ++ more) :
    ∃ s, (definition false).run r = (some (.define kind), s) ∧
      r.Passes mode (.keyword verb :: used) s := by
  obtain ⟨hverb, hrest⟩ := hr.take hsymbols
  obtain ⟨s, hrun, hused⟩ := deviceKind_complete hverb.ready hspelled hrest
  refine ⟨s, ?_, hverb.trans hused⟩
  rw [definition, run_current_bind, if_neg Bool.false_ne_true, run_advance_bind]
  exact run_bind_eq_some.mpr ⟨kind, s, hrun, rfl⟩

theorem possession_complete_inputs (hr : r.Ready mode) {verb : Keyword} {count : Nat}
    (hsymbols : r.symbols = .keyword verb :: .sign (.number count) :: more) :
    ∃ s, (possession false).run r = (some (.inputs count), s) ∧
      r.Passes mode [.keyword verb, .sign (.number count)] s := by
  obtain ⟨hverb, hrest⟩ := hr.take hsymbols
  obtain ⟨position, hnumber⟩ := number_complete hrest
  refine ⟨_, ?_, hverb.trans (number_sound hverb.ready hnumber)⟩
  have hcycle : r.advance.current.lexeme ≠ .keyword .cycle := by
    rw [lexeme_of_sign hrest]
    exact nofun
  rw [possession, run_current_bind, run_advance_bind, run_current_bind, if_neg hcycle,
    if_neg Bool.false_ne_true]
  exact run_bind_eq_some.mpr ⟨_, _, hnumber, rfl⟩

theorem possession_complete_halfPeriod {inInit : Bool} (hr : r.Ready mode) {verb : Keyword}
    {cycles : Nat} (hcycles : 1 ≤ cycles)
    (hsymbols : r.symbols = .keyword verb :: .keyword .cycle :: .sign (.number cycles) :: more) :
    ∃ s, (possession inInit).run r = (some (.halfPeriod cycles), s) ∧
      r.Passes mode [.keyword verb, .keyword .cycle, .sign (.number cycles)] s := by
  obtain ⟨hverb, hrest⟩ := hr.take hsymbols
  obtain ⟨hcycle, hrest'⟩ := hverb.ready.take hrest
  obtain ⟨s, hrun, hnumber⟩ := halfPeriod_complete hcycle.ready hcycles hrest'
  refine ⟨s, ?_, (hverb.trans hcycle).trans hnumber⟩
  rw [possession, run_current_bind, run_advance_bind, run_current_bind,
    if_pos (lexeme_of_sign hrest), run_advance_bind]
  exact hrun

theorem clause_complete {inInit : Bool} (hr : r.Ready mode) {said : Clause} {used : List Symbol}
    (hspelled : ClauseSpelled said used) (hsymbols : r.symbols = used ++ more)
    (hfits : inInit = true → FitsInit said)
    (hcycles : ∀ cycles, said = .halfPeriod cycles → 1 ≤ cycles) :
    ∃ s, (clause inInit).run r = (some said, s) ∧ r.Passes mode used s := by
  have hlexeme {verb : Keyword} {rest : List Symbol} (h : r.symbols = .keyword verb :: rest) :
      r.current.lexeme = .keyword verb := lexeme_of_sign h
  rw [clause, run_current_bind]
  cases hspelled with
  | define hword hkind =>
    cases inInit with
    | true => exact (hfits rfl).elim
    | false =>
      rw [hlexeme hsymbols]
      rcases hword with rfl | rfl
      · exact definition_complete hr hkind hsymbols
      · exact definition_complete hr hkind hsymbols
  | inputs hword =>
    cases inInit with
    | true => exact (hfits rfl).elim
    | false =>
      rw [hlexeme hsymbols]
      rcases hword with rfl | rfl
      · exact possession_complete_inputs hr hsymbols
      · exact possession_complete_inputs hr hsymbols
  | halfPeriod hword =>
    rw [hlexeme hsymbols]
    rcases hword with rfl | rfl
    · exact possession_complete_halfPeriod hr (hcycles _ rfl) hsymbols
    · exact possession_complete_halfPeriod hr (hcycles _ rfl) hsymbols
  | @level level optional hoptional =>
    have hfirst : r.symbols =
        .keyword .set :: (optional ++ .sign (.number level.toNat) :: more) := by
      simpa using hsymbols
    rw [hlexeme hfirst]
    obtain ⟨hset, hrest⟩ := hr.take hfirst
    obtain ⟨s, hrun, hlevel⟩ := switchLevel_complete hset.ready hoptional hrest
    exact ⟨s, hrun, hset.trans hlevel⟩

/-! ### Whole sentences -/

theorem mem_symbols_iff {list : NameList} {name : String} :
    .name name ∈ list.symbols ↔ name ∈ list.written := by
  cases list with
  | several first others =>
    simp only [NameList.symbols, NameList.written, List.mem_cons, List.mem_flatMap, Symbol.name,
      Symbol.sign]
    simp
  | range first last => simp [NameList.symbols, NameList.written, Symbol.name, Symbol.sign]

/-- A statement as the sentence that was read. -/
structure States (mode : NameMode) (inInit : Bool) (statement : DeviceStatement)
    (sentence : Sentence) (names : List String) (used : List Symbol) (r s : Reader) : Prop where
  spelled : SentenceSpelled sentence used
  clause : statement.clause = sentence.clause
  stands : sentence.names.names? = some names
  fits : inInit = true → FitsInit sentence.clause
  cycles : ∀ cycles, sentence.clause = .halfPeriod cycles → 1 ≤ cycles
  passes : r.Passes mode used s
  targets : Targeted s.names statement.targets names
  known : ∀ name ∈ sentence.names.written, s.names.Has name

theorem deviceStatement_sound {inInit : Bool} (hr : r.Ready mode) {statement : DeviceStatement}
    (h : (deviceStatement inInit).run r = (some statement, s)) :
    ∃ sentence names used, States mode inInit statement sentence names used r s := by
  obtain ⟨list, t, htargets, h⟩ := run_bind_eq_some.mp h
  obtain ⟨said, u, hclause, h⟩ := run_bind_eq_some.mp h
  obtain ⟨_, v, hsemicolon, h⟩ := run_bind_eq_some.mp h
  cases h
  obtain ⟨written, names, hnames, hpasses, htargeted, hknown⟩ := targets_sound hr htargets
  obtain ⟨used, htells⟩ := clause_sound hpasses.ready hclause
  have hend : u.Passes mode [.sign .semicolon] v :=
    expect_sound htells.passes.ready nofun nofun hsemicolon
  refine ⟨⟨written, said⟩, names, _, .intro htells.spelled, rfl, hnames, htells.fits,
    htells.cycles, (hpasses.trans htells.passes).trans hend, ?_, ?_⟩
  · exact htargeted.imp fun _ _ ↦ (htells.passes.trans hend).grown.string?
  · exact fun name hname ↦ (htells.passes.trans hend).grown.has (hknown name hname)

/-- What is said of devices begins with a verb. -/
theorem front_of_clauseSpelled {said : Clause} {used : List Symbol} (h : ClauseSpelled said used)
    (more : List Symbol) : ∃ verb, frontLexeme (used ++ more) = .keyword verb := by
  cases h <;> exact ⟨_, rfl⟩

theorem deviceStatement_complete {inInit : Bool} (hr : r.Ready mode) {sentence : Sentence}
    {used : List Symbol} {names : List String} (hspelled : SentenceSpelled sentence used)
    (hsymbols : r.symbols = used ++ more) (hnames : sentence.names.names? = some names)
    (hfits : inInit = true → FitsInit sentence.clause)
    (hcycles : ∀ cycles, sentence.clause = .halfPeriod cycles → 1 ≤ cycles)
    (hknown : mode = .query → ∀ name ∈ sentence.names.met, r.names.Has name) :
    ∃ statement s, (deviceStatement inInit).run r = (some statement, s) ∧
      States mode inInit statement sentence names used r s := by
  obtain @⟨written, said, u, hclause⟩ := hspelled
  have hfirst : r.symbols = written.symbols ++ (u ++ .sign .semicolon :: more) := by
    simpa using hsymbols
  have hfront : frontLexeme (u ++ .sign .semicolon :: more) ∉ [.dot, .comma, .arrow] := by
    obtain ⟨verb, hverb⟩ := front_of_clauseSpelled hclause (.sign .semicolon :: more)
    rw [hverb]
    simp
  obtain ⟨list, t, htargets, hpasses, htargeted⟩ :=
    targets_complete hr hnames hfirst hfront hknown
  have hrest : t.symbols = u ++ .sign .semicolon :: more := by
    rw [hpasses.symbols] at hfirst
    exact List.append_cancel_left hfirst
  obtain ⟨v, hsaid, hpasses'⟩ := clause_complete hpasses.ready hclause hrest hfits
    hcycles
  have hlast : v.symbols = .sign .semicolon :: more := by
    rw [hpasses'.symbols] at hrest
    exact List.append_cancel_left hrest
  obtain ⟨hsemicolon, -⟩ := hpasses'.ready.take hlast
  refine ⟨⟨list, said⟩, v.advance, ?_, .intro hclause, rfl, hnames, hfits, hcycles,
    (hpasses.trans hpasses').trans hsemicolon, ?_, ?_⟩
  · refine run_bind_eq_some.mpr ⟨list, t, htargets, run_bind_eq_some.mpr ⟨said, v, hsaid, ?_⟩⟩
    exact run_bind_eq_some.mpr ⟨(), v.advance, expect_complete .semicolon hlast, rfl⟩
  · exact htargeted.imp fun _ _ ↦ (hpasses'.trans hsemicolon).grown.string?
  · intro name hname
    refine (hpasses'.trans hsemicolon).grown.has ?_
    cases mode with
    | declare => exact hpasses.met rfl name (mem_symbols_iff.mpr hname)
    | query => exact hpasses.grown.has (hknown rfl name (List.mem_append_left _ hname))

end Attempt

end Breadboard.Description
