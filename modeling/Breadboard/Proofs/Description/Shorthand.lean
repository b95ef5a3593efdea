import Breadboard.Proofs.Description.Correspondence
import Breadboard.Proofs.Description.NameLists
import Breadboard.Proofs.Description.Replacing

/-!
# Ranges are shorthand

When a range is replaced by the names that it stands for, the text is read to the same end
(`range_is_shorthand`). Up to the range the two texts have the same symbols, and reading comes to
the same statement in both (`exists_arrives_replaced`). There the same names are met in different
orders, so that new names get different numbers; but a permutation of the numbers takes those in the
one table to those in the other (`exists_renumbering`). The two lists of names come to the same
devices, or one of the names is unknown in both and the rest of the statement is skipped
(`alike_of_naming`). From there on the texts have the same symbols again, and what is built of them
is the same up to the numbers.
-/

set_option autoImplicit false
set_option relaxedAutoImplicit false

namespace Breadboard.Description

open Attempt

variable {number : Equiv.Perm NameId} {heading : Heading} {b b' c c' : Builder}
  {more : List Symbol} {list met met' : List String}

/-! ### The same symbols left -/

/-- The course of two readings from where the texts have the same symbols left, and new numbers are
given alike in both. -/
def Course.onward (number : Equiv.Perm NameId) : Course :=
  ⟨number, fun _ ↦ True, [], [], fun _ ↦ rfl⟩

theorem Course.not_lost_onward (r : Reader) : ¬(Course.onward number).Lost r := by
  rintro (hshort | hout)
  · exact Nat.not_lt_zero _ hshort
  · exact Names.not_outgrows_trivial _ hout

namespace Reader

variable {r r' s s' : Reader}

theorem Moves.alongside (h : r.Moves met more s) (h' : r'.Moves met' more s')
    (hnames : r'.names = r.names) (hmode : r'.mode = r.mode) (hdue : r'.due = r.due)
    (hmatched : Names.Matched number (fun _ ↦ True) (r.names.meetAll r.mode met)
      (r.names.meetAll r.mode met')) : s.Alongside (.onward number) s' where
  names := by
    rw [h.names, h'.names, hnames, hmode]
    exact hmatched
  mode := by rw [h'.mode, h.mode, hmode]
  current := h'.faces.current.trans h.faces.current.symm
  coming := ⟨more.tail, (List.append_nil _).symm ▸ h.faces.coming,
    (List.append_nil _).symm ▸ h'.faces.coming⟩
  due := by rw [h'.due, h.due, hdue]

/-- Complaints about an unknown name leave two readers in the same place, once the statement is
skipped. -/
theorem alongside_skipped {skipped skipped' : List Symbol} (h : s.Faces (skipped ++ more))
    (h' : s'.Faces (skipped' ++ more)) (hskipped : ∀ symbol ∈ skipped, Passable symbol)
    (hskipped' : ∀ symbol ∈ skipped', Passable symbol) (hmode : s.mode = .query)
    (hmode' : s'.mode = .query) (hnames : s'.names = s.names) (hdue : s'.due = s.due)
    (hmatched : Names.Matched number (fun _ ↦ True) s.names s.names) :
    s.skipStatement.Alongside (.onward number) s'.skipStatement := by
  obtain ⟨t, ht, hskip⟩ := h.exists_skipped hmode hskipped
  obtain ⟨t', ht', hskip'⟩ := h'.exists_skipped hmode' hskipped'
  rw [hskip, hskip']
  have hplace : t.Alongside (.onward number) t' :=
    ht.alongside ht' hnames (hmode'.trans hmode.symm) hdue hmatched
  exact (parallel_skipStatement hplace).resolve_left (Course.not_lost_onward _)

end Reader

/-! ### A list of names in two ways -/

section Naming

variable {r r' : Reader} {result result' : Option (List Target) × Reader}

/-- What a list of names comes to in two readings: the same devices, or a statement that is
skipped. -/
inductive Alike (number : Equiv.Perm NameId) :
    Option (List Target) × Reader → Option (List Target) × Reader → Prop
  | known {targets targets' : List Target} {s s' : Reader} :
    List.Forall₂ (Target.Same number) targets targets' → s.Alongside (.onward number) s' →
    Alike number (some targets, s) (some targets', s')
  | unknown {s s' : Reader} :
    s.skipStatement.Alongside (.onward number) s'.skipStatement →
    Alike number (none, s) (none, s')

theorem same_of_targeted {names names' : Names} {targets targets' : List Target}
    (hmatched : Names.Matched number (fun _ ↦ True) names names')
    (h : Targeted names targets list) (h' : Targeted names' targets' list) :
    List.Forall₂ (Target.Same number) targets targets' := by
  induction h generalizing targets' with
  | nil =>
    cases h'
    exact .nil
  | @cons target name targets list hname _ ih =>
    cases h' with
    | @cons target' _ targets' _ hname' hmore =>
      refine .cons ?_ (ih hmore)
      exact hmatched.faithful' _ _ name hname' ((hmatched.string? _).trans hname)

theorem alike_of_naming (h : Naming Target.id list met more r result)
    (h' : Naming Target.id list met' more r' result')
    (hnames : r'.names = r.names) (hmode : r'.mode = r.mode) (hdue : r'.due = r.due)
    (hmatched : Names.Matched number (fun _ ↦ True) (r.names.meetAll r.mode met)
      (r.names.meetAll r.mode met')) : Alike number result result' := by
  cases h with
  | known hs htargets hknown =>
    cases h' with
    | known hs' htargets' _ =>
      have hplace := hs.alongside hs' hnames hmode hdue hmatched
      exact .known (same_of_targeted hplace.names htargets htargets') hplace
    | unknown _ hquery hname hnew _ _ =>
      exact absurd (hknown (hmode.symm.trans hquery) _ hname) (hnames ▸ hnew)
  | unknown position hquery hname hnew hskipped hs =>
    have hquery' : r'.mode = .query := hmode.trans hquery
    cases h' with
    | known _ _ hknown => exact absurd (hknown hquery' _ hname) (hnames.symm ▸ hnew)
    | unknown position' _ _ _ hskipped' hs' =>
      rw [hquery, Names.meetAll_query, Names.meetAll_query] at hmatched
      have hsame := hs.names_of_query hquery
      refine .unknown (Reader.alongside_skipped ⟨hs.faces.current, hs.faces.coming, hs.faces.known⟩
        ⟨hs'.faces.current, hs'.faces.coming, hs'.faces.known⟩ hskipped hskipped'
        (hs.mode.trans hquery) (hs'.mode.trans hquery') ?_ ?_ ?_)
      · exact (hs'.names_of_query hquery').trans (hnames.trans hsame.symm)
      · rw [Reader.due_file, Reader.due_file, hs'.due, hs.due, hdue]
        rfl
      · exact hsame.symm ▸ hmatched

end Naming

namespace Builder

theorem statement_bind {α σ : Type} (m : Attempt α) (f : α → Attempt σ)
    (act : Builder → σ → Builder) (b : Builder) :
    b.statement (m >>= f) act =
      match m.run b.reader with
      | (some a, s) => statement (f a) act { b with reader := s }
      | (none, s) => { b with reader := s.skipStatement } := by
  rw [statement_eq, run_bind]
  rcases m.run b.reader with ⟨_ | _, _⟩ <;> rfl

/-- A statement about the devices that two lists of names come to. -/
theorem alongside_deviceStatement (inInit : Bool)
    (hnetwork : b'.network = b.network.renumbered number)
    (hsteady : Network.Steady number b.network)
    (hmonitors : b'.monitors = b.monitors.renumbered number) (hseen : b'.seen = b.seen)
    (h : Alike number (targets.run b.reader) (targets.run b'.reader)) :
    Alongside (.onward number) (b.statement (deviceStatement inInit) declareAll)
      (b'.statement (deviceStatement inInit) declareAll) := by
  rw [deviceStatement, statement_bind, statement_bind]
  generalize targets.run b.reader = first at h ⊢
  generalize targets.run b'.reader = first' at h ⊢
  cases h with
  | unknown hs => exact ⟨hs, hnetwork, hsteady, hmonitors, hseen⟩
  | @known targets targets' s s' htargets hs =>
    have hform : Attempt.Parallel (.onward number) (DeviceStatement.Same number)
        (clause inInit >>= fun clause ↦ semicolon >>= fun _ ↦ pure ⟨targets, clause⟩)
        (clause inInit >>= fun clause ↦ semicolon >>= fun _ ↦ pure ⟨targets', clause⟩) :=
      (parallel_clause inInit).bind fun _ _ hclause ↦ (parallel_expect _ _).bind fun _ _ _ ↦
        parallel_pure ⟨htargets, hclause.symm⟩
    have hact : ∀ x x', DeviceStatement.Same number x x' →
        Parallel (.onward number) (declareAll · x) (declareAll · x') :=
      fun _ _ ↦ parallel_declareAll (k := .onward number)
    have hplace : Alongside (.onward number) { b with reader := s } { b' with reader := s' } :=
      ⟨hs, hnetwork, hsteady, hmonitors, hseen⟩
    exact (parallel_statement hform hact reaches_declareAll hplace).resolve_left
      (Course.not_lost_onward _)

end Builder

/-! ### The beginning of a text -/

section Start

variable {names : Names} {text text' : String} {k : Course} {front : List Symbol}

theorem comesTo_start (names : Names) (text : String) :
    (Reader.start names text).current.symbol = frontSymbol (symbolsIn text.toList) ∧
      (Reader.start names text).coming = (symbolsIn text.toList).tail ∧
      (Reader.start names text).mode = .declare ∧
      (Reader.start names text).names =
        names.meetAll .declare (namesIn [frontSymbol (symbolsIn text.toList)]) := by
  obtain ⟨hcurrent, hcoming, hmode, hnames⟩ := Reader.comesTo_pull
    { names, current := .finish (Cursor.start text).readings.2, rest := [],
      finish := (Cursor.start text).readings.2 } (readingsOf text)
  exact ⟨hcurrent, hcoming, hmode, hnames⟩

theorem due_start (names : Names) (text : String) :
    (Reader.start names text).due = Multiset.replicate (faultsIn text.toList) .form := by
  have hdue := Reader.due_pull
    { names, current := .finish (Cursor.start text).readings.2, rest := [],
      finish := (Cursor.start text).readings.2 } (readingsOf text)
  have hkinds : ((readingsOf text).filterMap Reading.report?).map (·.fault.category) =
      List.replicate (faultsIn text.toList) .form := by
    refine List.eq_replicate_iff.mpr ⟨List.length_map _, ?_⟩
    rw [List.forall_mem_map]
    intro report hreport
    obtain ⟨reading, -, hreading⟩ := List.mem_filterMap.mp hreport
    cases reading with
    | token => cases hreading
    | fault =>
      cases hreading
      rfl
  refine hdue.trans ?_
  rw [← Multiset.coe_replicate, ← hkinds]
  rfl

/-- Two texts that begin with the same symbols. -/
theorem alongside_start (hfront : front ≠ []) (hsymbols : symbolsIn text.toList = front ++ k.tail)
    (hsymbols' : symbolsIn text'.toList = front ++ k.tail')
    (hfaults : faultsIn text'.toList = faultsIn text.toList)
    (hmatched : Names.Matched k.number k.within (Reader.start names text).names
      (Reader.start names text).names) :
    (Reader.start names text).Alongside k (Reader.start names text') := by
  obtain ⟨hcurrent, hcoming, hmode, hnames⟩ := comesTo_start names text
  obtain ⟨hcurrent', hcoming', hmode', hnames'⟩ := comesTo_start names text'
  have hsame : frontSymbol (symbolsIn text'.toList) = frontSymbol (symbolsIn text.toList) := by
    rw [hsymbols, hsymbols']
    cases front with
    | nil => exact absurd rfl hfront
    | cons => rfl
  rw [hsame] at hcurrent' hnames'
  refine ⟨?_, hmode'.trans hmode.symm, hcurrent'.trans hcurrent.symm, ⟨front.tail, ?_, ?_⟩, ?_⟩
  · rw [hnames', ← hnames]
    exact hmatched
  · rw [hcoming, hsymbols, List.tail_append_of_ne_nil hfront]
  · rw [hcoming', hsymbols', List.tail_append_of_ne_nil hfront]
  · rw [due_start, due_start, hfaults]

end Start

/-- A table only grows while a description is read. -/
theorem lasting_extends (names : Names) : Reader.Lasting fun r ↦ names.Extends r.names where
  advance {r} h := by
    cases hend : r.atEnd with
    | true => rwa [Reader.advance_of_atEnd hend]
    | false =>
      rw [(Reader.comesTo_advance hend).names, ← Names.snd_resolveAll]
      exact h.trans (Names.extends_resolveAll ..)
  file _ _ h := h
  resolve _ h := h.trans (Names.extends_resolveAll ..)
  inMode _ h := h

/-! ### Two descriptions -/

/-- What has become of one text is what has become of another, with the names under the numbers that
a permutation takes theirs to: the same devices in the same order, with the same elements, ports and
drivers, the same monitors, and as many diagnostics of each kind. -/
structure SameCircuit (number : Equiv.Perm NameId) (text text' : String) (b b' : Builder) :
    Prop where
  names : ∀ id, b'.reader.names.string? (number id) = b.reader.names.string? id
  /-- The names of ports keep their numbers. -/
  ports : Network.Steady number b.network
  network : b'.network = b.network.renumbered number
  monitors : b'.monitors = b.monitors.renumbered number
  inOrder : b'.inOrder = b.inOrder
  kinds : ((b'.diagnostics text').map Diagnostic.category).Perm
    ((b.diagnostics text).map Diagnostic.category)

theorem map_category_diagnostics (b : Builder) (text : String) :
    (b.diagnostics text).map Diagnostic.category = b.reader.log.map (·.fault.category) := by
  rw [Builder.diagnostics, List.map_map]
  rfl

/-- At the end of a text, all that was due has been filed. -/
theorem due_of_rest {r : Reader} (h : r.rest = []) :
    r.due = (r.log.map (·.fault.category) : List Category) := by
  rw [Reader.due, h, List.filterMap_nil, List.append_nil]

theorem rest_parse_of_arrives {text : String} {settings : Settings}
    (h : (fresh text settings).Arrives heading c) :
    (Circuit.build text settings).reader.rest = [] := by
  have hproper (token : Token) : .token token ∈ (Cursor.start text).readings.1 → token.Proper :=
    Cursor.proper_of_mem_readings _
  have hstart : (fresh text settings).reader.Trail (Cursor.start text).readings.1 :=
    Reader.trail_pull hproper fun _ _ _ ↦ id
  exact ((Reader.lasting_trail _).parse hstart).finished (Builder.atEnd_parse_of_arrives h)

theorem sameCircuit_of_alongside {text text' : String} {settings : Settings}
    (h : (Circuit.build text settings).Alongside (.onward number) (Circuit.build text' settings))
    (hrest : (Circuit.build text settings).reader.rest = [])
    (hrest' : (Circuit.build text' settings).reader.rest = []) :
    SameCircuit number text text' (Circuit.build text settings)
      (Circuit.build text' settings) := by
  have hkinds : ((Circuit.build text' settings).reader.log.map (·.fault.category)).Perm
      ((Circuit.build text settings).reader.log.map (·.fault.category)) := by
    rw [← Multiset.coe_eq_coe, ← due_of_rest hrest, ← due_of_rest hrest', h.reader.due]
  refine ⟨h.reader.names.string?, h.steady, h.network, h.monitors, ?_, ?_⟩
  · have hlength := hkinds.length_eq
    rw [List.length_map, List.length_map] at hlength
    rw [Builder.inOrder, Builder.inOrder, Bool.eq_iff_iff, List.isEmpty_iff_length_eq_zero,
      List.isEmpty_iff_length_eq_zero, hlength]
  · rwa [map_category_diagnostics, map_category_diagnostics]

/-! ### Ranges -/

/-- Some names are all that a list of names holds: no comma goes on with it, and behind a single
name no arrow does. -/
def ListEnds (names : List String) (more : List Symbol) : Prop :=
  frontLexeme more ≠ .comma ∧ (names.length = 1 → frontLexeme more ≠ .arrow)

instance (names : List String) (more : List Symbol) : Decidable (ListEnds names more) :=
  inferInstanceAs (Decidable (_ ∧ _))

theorem ports_portTable : ∀ port ∈ portTable.1.all, port < portTable.2.size := by
  decide

section Range

variable {text text' first last : String} {settings : Settings} {others : List String}
  {front : List Symbol} {k : Course}

/-- The names that are met in a range, and in the names of the range one after another. -/
theorem exists_renumbering (more : List Symbol) {names : Names} {mode : NameMode}
    (hnames : names.Faithful) (hfirst : mode = .declare → names.Has first)
    (hlast : last ∈ first :: others) :
    ∃ number : Equiv.Perm NameId, (∀ id < names.size, number id = id) ∧
      Names.Matched number (fun _ ↦ True)
        (names.meetAll mode (last :: (namesIn [frontSymbol more] ++ (first :: others))))
        (names.meetAll mode (others ++ namesIn [frontSymbol more])) := by
  refine Names.exists_matched hnames fun hmode name ↦ ?_
  have hknown : name = first → names.Has name := fun h ↦ h ▸ hfirst hmode
  have hend : name = last → name = first ∨ name ∈ others := fun h ↦ List.mem_cons.mp (h ▸ hlast)
  simp only [List.mem_cons, List.mem_append]
  tauto

/-- The table that reading begins with has the names of the ports, and grows from there. -/
theorem extends_start (text : String) (settings : Settings) :
    portTable.2.Extends (fresh text settings).reader.names := by
  have hnames : (fresh text settings).reader.names = _ := (comesTo_start portTable.2 text).2.2.2
  rw [hnames, ← Names.snd_resolveAll]
  exact Names.extends_resolveAll ..

/-- Reading over fresh tables begins alike in two texts with the same symbols in front, when the
names that are met there keep their numbers. -/
theorem alongside_fresh (hfront : front ≠ []) (hsymbols : symbolsIn text.toList = front ++ k.tail)
    (hsymbols' : symbolsIn text'.toList = front ++ k.tail')
    (hfaults : faultsIn text'.toList = faultsIn text.toList)
    (hfixed : ∀ id, k.within id → k.number id = id)
    (hwithin : ∀ id < (fresh text settings).reader.names.size, k.within id) :
    (fresh text settings).Alongside k (fresh text' settings) := by
  have hready : (fresh text settings).reader.cleared.Ready _ :=
    Reader.legible_start regular_portTable text
  have hmatched : Names.Matched k.number k.within (fresh text settings).reader.names
      (fresh text settings).reader.names :=
    Names.matched_self hready.names.faithful (fun id _ hid ↦ hfixed id hid) fun id hid ↦
      hfixed id (hwithin id hid)
  have hsteady : Network.Steady k.number (fresh text settings).network := by
    refine ⟨fun port hport ↦ hfixed port (hwithin port ?_), nofun⟩
    exact Nat.lt_of_lt_of_le (ports_portTable port hport) (extends_start text settings).size_le
  exact ⟨alongside_start hfront hsymbols hsymbols' hfaults hmatched, rfl, hsteady, rfl, rfl⟩

/-- Where a range is replaced, reading comes to the names in its place. -/
theorem exists_arrives_replaced (harrives : (fresh text settings).Arrives heading c)
    (hplace : c.reader.Faces (.name first :: .sign .arrow :: .name last :: more))
    (htexts : Replaced front (NameList.range first last).symbols
      (commaSeparated (first :: others)) more text text')
    (hfixed : ∀ id < c.reader.names.size, number id = id) :
    ∃ c', (fresh text' settings).Arrives heading c' ∧
      (c'.network = c.network.renumbered number ∧ Network.Steady number c.network ∧
        c'.monitors = c.monitors.renumbered number ∧ c'.seen = c.seen) ∧
      (c'.reader.names = c.reader.names ∧ c'.reader.mode = c.reader.mode ∧
        c'.reader.due = c.reader.due) ∧
      c'.reader.Faces (.name first :: (afterComma (fun name ↦ [.name name]) others ++ more)) := by
  -- the texts are the same up to behind the first name, and so are the tables
  let k : Course := ⟨number, (· < c.reader.names.size), .sign .arrow :: .name last :: more,
    afterComma (fun name ↦ [.name name]) others ++ more, nofun⟩
  have hgrown : (fresh text settings).reader.names.Extends c.reader.names :=
    (lasting_extends _).arrives harrives (Names.Extends.refl _)
  have hbegun : front ++ [.name first] ≠ [] := List.append_ne_nil_of_right_ne_nil _ nofun
  have hsymbols : symbolsIn text.toList = (front ++ [.name first]) ++ k.tail := by
    rw [htexts.left, List.append_assoc, List.append_assoc]
    rfl
  have hsymbols' : symbolsIn text'.toList = (front ++ [.name first]) ++ k.tail' := by
    rw [htexts.right, commaSeparated_cons, List.append_assoc, List.append_assoc]
    rfl
  have hstart : (fresh text settings).Alongside k (fresh text' settings) :=
    alongside_fresh hbegun hsymbols hsymbols' htexts.faults hfixed fun _ hid ↦
      Nat.lt_of_lt_of_le hid hgrown.size_le
  have hfound : ¬k.Lost c.reader := by
    rintro (hshort | ⟨id, hlt, hout⟩)
    · rw [hplace.coming] at hshort
      exact Nat.lt_irrefl _ hshort
    · exact hout hlt
  obtain ⟨c', harrives', hc⟩ := Builder.exists_arrives harrives hstart hfound
  have hnames : c'.reader.names = c.reader.names := hc.reader.names.eq hfixed
  refine ⟨c', harrives', ⟨hc.network, hc.steady, hc.monitors, hc.seen⟩,
    ⟨hnames, hc.reader.mode, hc.reader.due⟩, hc.reader.current.trans hplace.current, ?_, ?_⟩
  · obtain ⟨used, hused, hused'⟩ := hc.reader.coming
    have hnone : used = [] := List.self_eq_append_left.mp (hplace.coming.symm.trans hused)
    rw [hused', hnone]
    rfl
  · intro hmode name hname
    rw [hnames]
    exact hplace.known (hc.reader.mode.symm.trans hmode) name (hc.reader.current.symm.trans hname)

theorem bodyTurn_eq_statement (hheading : heading = .devices ∨ heading = .init) (b : Builder) :
    Builder.bodyTurn heading b =
      b.statement (deviceStatement (heading = .init)) Builder.declareAll := by
  rcases hheading with rfl | rfl <;> rfl

end Range

/-- Two texts, one of which has a range where reading comes to a statement, and the other the names
of the range in its place. -/
theorem exists_sameCircuit {text text' first last : String} {settings : Settings}
    {front more : List Symbol} (hheading : heading = .devices ∨ heading = .init)
    (harrives : (fresh text settings).Arrives heading c)
    (hlist : expandRange first last = .ok list) (hfirst : ¬IsPadded first)
    (hlast : ¬IsPadded last)
    (hplace : c.reader.symbols = (NameList.range first last).symbols ++ more)
    (hends : ListEnds list more)
    (htexts : Replaced front (NameList.range first last).symbols (commaSeparated list) more
      text text') :
    ∃ number, SameCircuit number text text' (Circuit.build text settings)
      (Circuit.build text' settings) := by
  have hruns := runsBetween_of_expandRange hlist
  obtain ⟨others, rfl⟩ : ∃ others, list = first :: others := by
    have hhead := hruns.head
    rw [hruns.first_eq.mpr hfirst] at hhead
    exact List.head?_eq_some_iff.mp hhead
  have hmem : last ∈ first :: others := hruns.last_mem.mpr hlast
  have harrow : others = [] → frontLexeme more ≠ .arrow := by
    rintro rfl
    exact hends.2 rfl
  have hlegible := Builder.legible_of_arrives harrives
    (Reader.legible_start regular_portTable text)
  have hready : c.reader.cleared.Ready c.reader.mode := hlegible
  have hfaces : c.reader.Faces (.name first :: .sign .arrow :: .name last :: more) :=
    hlegible.faces hplace
  obtain ⟨number, hfixed, hmatched⟩ := exists_renumbering more hready.names.faithful
    (fun hmode ↦ hfaces.known hmode first hfaces.current) hmem
  obtain ⟨c', harrives', ⟨hnetwork, hsteady, hmonitors, hseen⟩, ⟨hnames, hmode, hdue⟩, hfaces'⟩ :=
    exists_arrives_replaced harrives hfaces htexts hfixed
  have halike : Alike number (targets.run c.reader) (targets.run c'.reader) :=
    alike_of_naming (naming_range hfaces hlist List.mem_cons_self hmem)
      (naming_several hfaces' hends.1 harrow) hnames hmode hdue hmatched
  have hturn : (Builder.bodyTurn heading c).Alongside (.onward number)
      (Builder.bodyTurn heading c') := by
    rw [bodyTurn_eq_statement hheading, bodyTurn_eq_statement hheading]
    exact Builder.alongside_deviceStatement _ hnetwork hsteady hmonitors hseen halike
  -- from here on the texts have the same symbols left
  have hfound (r : Reader) : ¬(Course.onward number).Lost r := Course.not_lost_onward r
  have hbody := (Builder.parallel_body heading hturn).resolve_left (hfound _)
  have hclose := (Builder.parallel_close heading hbody).resolve_left (hfound _)
  have hparse := (Builder.parallel_parse hclose).resolve_left (hfound _)
  rw [← Builder.body_eq_bodyTurn (Builder.atSectionEnd_of_arrives harrives),
    ← Builder.body_eq_bodyTurn (Builder.atSectionEnd_of_arrives harrives'),
    ← Builder.parse_of_arrives harrives, ← Builder.parse_of_arrives harrives'] at hparse
  exact ⟨number, sameCircuit_of_alongside hparse (rest_parse_of_arrives harrives)
    (rest_parse_of_arrives harrives')⟩

/-- Ranges are shorthand. Wherever reading a text over fresh tables comes to a statement of a
`devices` or an `init` section whose list of names is a range, the range may be replaced by the
names that it stands for, with commas between them: both texts are in order or neither is, with as
many diagnostics of each kind, and what is built is the same up to the numbers of the names.

First, the range is replaced in the characters of the text, where blanks, comments and filler words
may stand around its arrow. Second, the other text is any text that has the symbols of this one,
with those of the names in the place of those of the range, and as many lexical faults.

Assumes: the range is accepted and its names are written without leading zeros, and the list of
names ends with it (`ListEnds`). If a comma went on with the list, or an arrow with the only name of
a range, then the list of names would not be the range. `A1 => A3, B are SWITCH;` is a statement
that cannot be read, while `A1, A2, A3, B are SWITCH;` can. -/
theorem range_is_shorthand {text first last : String} {settings : Settings}
    (hheading : heading = .devices ∨ heading = .init)
    (harrives : (fresh text settings).Arrives heading c)
    (hlist : expandRange first last = .ok list) (hfirst : ¬IsPadded first)
    (hlast : ¬IsPadded last) :
    (∀ before written after, Cut text.toList before (written ++ after) →
      RangeWritten first last written after → c.reader.symbols = symbolsIn (written ++ after) →
      ListEnds list (symbolsIn after) →
      ∃ number, SameCircuit number text (spliced before (listed list) after)
        (Circuit.build text settings)
        (Circuit.build (spliced before (listed list) after) settings)) ∧
    ∀ text' front more, c.reader.symbols = (NameList.range first last).symbols ++ more →
      ListEnds list more →
      Replaced front (NameList.range first last).symbols (commaSeparated list) more text text' →
      ∃ number, SameCircuit number text text' (Circuit.build text settings)
        (Circuit.build text' settings) := by
  refine ⟨fun before written after hcut hwritten hplace hends ↦ ?_, fun text' front more hplace
    hends htexts ↦ exists_sameCircuit hheading harrives hlist hfirst hlast hplace hends htexts⟩
  obtain ⟨hsymbols, front, htexts⟩ := replaced_of_written hcut hwritten hlist hfirst hlast
  exact exists_sameCircuit hheading harrives hlist hfirst hlast (hplace.trans hsymbols) hends htexts

/-- Switches that are described by a range. -/
def switchRange : String :=
  "devices \x7b S1 => S3 are SWITCH; \x7d"

/-- The switches one after another. -/
def switchList : String :=
  "devices \x7b S1, S2, S3 are SWITCH; \x7d"

/-- The builder on the range. -/
def onSwitchRange : Builder :=
  opened (fresh switchRange {}) .devices

/-- The switches one after another, with a comment instead of blanks between them. -/
def switchListSpread : String :=
  "devices \x7b S1,S2 # two\n,S3 are SWITCH; \x7d"

theorem switch_range_is_shorthand :
    expandRange "S1" "S3" = .ok ["S1", "S2", "S3"] ∧
    (∃ number, SameCircuit number switchRange switchList (Circuit.build switchRange {})
      (Circuit.build switchList {})) ∧
    ∃ number, SameCircuit number switchRange switchListSpread (Circuit.build switchRange {})
      (Circuit.build switchListSpread {}) := by
  have hlist : expandRange "S1" "S3" = .ok ["S1", "S2", "S3"] := by decide +kernel
  have harrives : (fresh switchRange {}).Arrives .devices onSwitchRange :=
    .opening (by decide +kernel) (by decide +kernel) (by decide +kernel) (by decide +kernel)
  have hshorthand := range_is_shorthand (.inl rfl) harrives hlist (by decide) (by decide)
  refine ⟨hlist, ?_, ?_⟩
  · have hfirst : IsIdentifier "S1" := ⟨by decide, by decide, by decide, by decide, by decide⟩
    have hlast : IsIdentifier "S3" := ⟨by decide, by decide, by decide, by decide, by decide⟩
    have hwritten : RangeWritten "S1" "S3"
        ("S1".toList ++ ([' '] ++ ('=' :: '>' :: ([' '] ++ "S3".toList))))
        " are SWITCH; \x7d".toList :=
      .intro (hfirst.isPiece (by simp)) (.cons (.blank (by decide)) .nil)
        (.cons (.blank (by decide)) .nil) (hlast.isPiece (by simp))
    have hword : Cut switchRange.toList []
        ('d' :: "evices \x7b S1 => S3 are SWITCH; \x7d".toList) := .start
    have hblank : Cut switchRange.toList "devices".toList
        (' ' :: "\x7b S1 => S3 are SWITCH; \x7d".toList) := hword.piece
    have hbrace : Cut switchRange.toList "devices ".toList
        ('\x7b' :: " S1 => S3 are SWITCH; \x7d".toList) := hblank.piece
    have hspace : Cut switchRange.toList "devices \x7b".toList
        (' ' :: "S1 => S3 are SWITCH; \x7d".toList) := hbrace.piece
    have hcut : Cut switchRange.toList "devices \x7b ".toList
        (("S1".toList ++ ([' '] ++ ('=' :: '>' :: ([' '] ++ "S3".toList)))) ++
          " are SWITCH; \x7d".toList) := hspace.piece
    have htext : spliced "devices \x7b ".toList (listed ["S1", "S2", "S3"])
        " are SWITCH; \x7d".toList = switchList := by decide +kernel
    rw [← htext]
    exact hshorthand.1 _ _ _ hcut hwritten (by decide +kernel) (by decide +kernel)
  · exact hshorthand.2 _ [.sign (.heading .devices), .sign .openBrace]
      [.keyword .are, .name "SWITCH", .sign .semicolon, .sign .closeBrace] (by decide +kernel)
      (by decide) ⟨by decide +kernel, by decide +kernel, by decide +kernel⟩

end Breadboard.Description
