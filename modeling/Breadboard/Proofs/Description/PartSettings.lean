import Breadboard.Proofs.Description.Agreement

/-!
# Parts that are set

To set switches and clocks changes nothing of a schematic but what is set about them
(`Schematic.tuned`). So connections and demands to watch are allowed as before where some parts have
been set, and it makes no difference which of the two comes first (`indifferent_part`). Whether
parts may be set, and to what, depends on their names and kinds alone, so that a sentence which sets
parts does the same to every schematic with these parts (`tunes_sentence`).
-/

set_option autoImplicit false
set_option relaxedAutoImplicit false

namespace Breadboard.Description

/-! ### Settings -/

/-- What is set about parts, by name. No part becomes one of another kind. -/
structure Tuning where
  set : String → Component → Component
  kind_set : ∀ name component, (set name component).kind = component.kind

namespace Tuning

/-- Nothing is set. -/
def none : Tuning where
  set _ component := component
  kind_set _ _ := rfl

/-- What is set first, and what is set then. -/
def next (t t' : Tuning) : Tuning where
  set name component := t'.set name (t.set name component)
  kind_set name component := by rw [t'.kind_set, t.kind_set]

end Tuning

/-- A part with what is set about it. -/
def Part.tuned (t : Tuning) (part : Part) : Part :=
  { part with component := t.set part.name part.component }

namespace Schematic

variable {s s' : Schematic} {t t' : Tuning} {name : String}

/-- A schematic with what is set about its parts. -/
def tuned (s : Schematic) (t : Tuning) : Schematic :=
  { s with parts := s.parts.map (Part.tuned t) }

/-- The kind of a part. -/
def kind? (s : Schematic) (name : String) : Option Kind :=
  (s.part? name).map (·.component.kind)

/-- Two schematics with parts of the same names and kinds, under distinct names. -/
structure SameParts (s s' : Schematic) : Prop where
  distinct : (s.parts.map Part.name).Nodup
  names : s'.parts.map Part.name = s.parts.map Part.name
  kinds : ∀ name, s'.kind? name = s.kind? name

@[simp]
theorem tuned_none (s : Schematic) : s.tuned .none = s := by
  rw [tuned, show Part.tuned .none = id from rfl, List.map_id]

/-- One tuning after another. -/
theorem tuned_next (s : Schematic) (t t' : Tuning) :
    s.tuned (t.next t') = (s.tuned t).tuned t' := by
  rw [tuned, tuned, tuned, List.map_map]
  rfl

@[simp]
theorem names_tuned (s : Schematic) (t : Tuning) :
    (s.tuned t).parts.map Part.name = s.parts.map Part.name := by
  rw [tuned, List.map_map]
  rfl

/-- A part is found under its name, tuned. -/
theorem part?_tuned (s : Schematic) (t : Tuning) (name : String) :
    (s.tuned t).part? name = (s.part? name).map (Part.tuned t) :=
  List.find?_map ..

/-- Tuning leaves kinds alone. -/
@[simp]
theorem kind?_tuned (s : Schematic) (t : Tuning) (name : String) :
    (s.tuned t).kind? name = s.kind? name := by
  rw [kind?, part?_tuned, kind?, Option.map_map]
  exact congrArg (Option.map · _) (funext fun part ↦ t.kind_set ..)

theorem SameParts.refl (hs : (s.parts.map Part.name).Nodup) : SameParts s s :=
  ⟨hs, rfl, fun _ ↦ rfl⟩

theorem SameParts.symm (h : SameParts s s') : SameParts s' s :=
  ⟨h.names ▸ h.distinct, h.names.symm, fun name ↦ (h.kinds name).symm⟩

theorem SameParts.trans {s'' : Schematic} (h : SameParts s s') (h' : SameParts s' s'') :
    SameParts s s'' :=
  ⟨h.distinct, h'.names.trans h.names, fun name ↦ (h'.kinds name).trans (h.kinds name)⟩

/-- Tuning changes nothing that another tuning depends on. -/
theorem sameParts_tuned (t : Tuning) (hs : (s.parts.map Part.name).Nodup) :
    SameParts s (s.tuned t) :=
  ⟨hs, s.names_tuned t, s.kind?_tuned t⟩

theorem SameParts.tuned (h : SameParts s s') (t : Tuning) : SameParts (s.tuned t) (s'.tuned t) :=
  ((sameParts_tuned t h.distinct).symm.trans h).trans (sameParts_tuned t h.symm.distinct)

/-! ### Connections and demands to watch -/

theorem hasOutput_tuned_iff {output : OutputName} :
    (s.tuned t).HasOutput output ↔ s.HasOutput output := by
  rw [HasOutput, HasOutput, part?_tuned]
  simp only [Option.map_eq_some_iff]
  constructor
  · rintro ⟨_, ⟨part, hpart, rfl⟩, houtput⟩
    exact ⟨part, hpart, (Component.hasOutput_iff_of_kind (t.kind_set ..) _).mp houtput⟩
  · rintro ⟨part, hpart, houtput⟩
    exact ⟨_, ⟨part, hpart, rfl⟩, (Component.hasOutput_iff_of_kind (t.kind_set ..) _).mpr houtput⟩

/-- Whether a section may close does not depend on the tuning. -/
theorem mayClose_tuned_iff {heading : Heading} :
    (s.tuned t).MayClose heading ↔ s.MayClose heading := by
  cases heading with
  | devices =>
    refine List.forall_mem_map.trans (forall₂_congr fun part _ ↦ ?_)
    rw [Part.tuned, t.kind_set]
  | connections => exact List.forall_mem_map
  | monitor | init => exact Iff.rfl

/-- Connections may be made before or after tuning. -/
theorem tuned_link (s : Schematic) (t : Tuning) (link : Link) :
    Act.link.after (s.tuned t) link = (Act.link.after s link).tuned t := by
  simp only [Act.link, modify, tuned, List.map_map]
  congr 1
  refine List.map_congr_left fun part _ ↦ ?_
  simp only [Function.comp_apply]
  split <;> split <;> first | rfl | contradiction

theorem allowed_link_tuned_iff {link : Link} :
    Act.link.allowed (s.tuned t) link ↔ Act.link.allowed s link := by
  refine and_congr hasOutput_tuned_iff ?_
  rw [part?_tuned]
  simp only [Option.map_eq_some_iff]
  constructor
  · rintro ⟨_, inlet, ⟨part, hpart, rfl⟩, hinlet, hopen⟩
    exact ⟨part, inlet, hpart, hinlet, hopen⟩
  · rintro ⟨part, inlet, hpart, hinlet, hopen⟩
    exact ⟨_, inlet, ⟨part, hpart, rfl⟩, hinlet, hopen⟩

theorem kind?_link (s : Schematic) (link : Link) (name : String) :
    (Act.link.after s link).kind? name = s.kind? name := by
  rw [kind?, part?_link, kind?, Option.map_map]
  refine congrArg (Option.map · _) (funext fun part ↦ ?_)
  rw [Function.comp_apply]
  split <;> rfl

end Schematic

/-- A statement that has nothing to do with what is set about parts: where some have been set it is
allowed as before and does the same, and it leaves their names and kinds alone. -/
structure Act.Indifferent {α : Type} (act : Act Draft α) (item : α) : Prop where
  allowed {d d' : Draft} {t : Tuning} : d'.schematic = d.schematic.tuned t →
    act.allowed d item → act.allowed d' item
  after {d d' : Draft} {t : Tuning} : d'.schematic = d.schematic.tuned t →
    (act.after d' item).schematic = (act.after d item).schematic.tuned t
  met (d : Draft) : (act.after d item).met = d.met
  names (d : Draft) :
    (act.after d item).schematic.parts.map Part.name = d.schematic.parts.map Part.name
  kinds (d : Draft) (name : String) :
    (act.after d item).schematic.kind? name = d.schematic.kind? name

namespace Act

variable {α : Type} {act : Act Draft α} {items : List α}

/-- Statements that do not depend on the tuning, one after another: the induction is on the list. -/
theorem Indifferent.each (h : ∀ item ∈ items, act.Indifferent item) :
    act.each.Indifferent items := by
  induction items with
  | nil => exact ⟨fun _ _ ↦ trivial, fun h ↦ h, fun _ ↦ rfl, fun _ ↦ rfl, fun _ _ ↦ rfl⟩
  | cons item items ih =>
    obtain ⟨hitem, hrest⟩ := List.forall_mem_cons.mp h
    have hitems := ih hrest
    exact
      { allowed := fun hd hallowed ↦
          ⟨hitem.allowed hd hallowed.1, hitems.allowed (hitem.after hd) hallowed.2⟩
        after := fun hd ↦ hitems.after (hitem.after hd)
        met := fun d ↦ (hitems.met _).trans (hitem.met d)
        names := fun d ↦ (hitems.names _).trans (hitem.names d)
        kinds := fun d name ↦ (hitems.kinds _ name).trans (hitem.kinds d name) }

theorem indifferent_link (link : Link) : Act.link.drawn.Indifferent link where
  allowed hd hallowed := by
    change Act.link.allowed _ link
    rw [hd]
    exact Schematic.allowed_link_tuned_iff.mpr hallowed
  after hd := by
    change Act.link.after _ link = _
    rw [hd]
    exact Schematic.tuned_link ..
  met _ := rfl
  names _ := Schematic.names_modify fun _ ↦ rfl
  kinds _ := Schematic.kind?_link _ link

theorem indifferent_mark (output : OutputName) : Act.mark.drawn.Indifferent output where
  allowed hd hallowed := by
    change Act.mark.allowed _ output
    rw [hd]
    exact ⟨Schematic.hasOutput_tuned_iff.mpr hallowed.1, hallowed.2⟩
  after hd := by
    change Act.mark.after _ output = _
    rw [hd]
    rfl
  met _ := rfl
  names _ := rfl
  kinds _ _ := rfl

/-- Blocks do not depend on the tuning. -/
theorem indifferent_block (block : Block) : Act.block.Indifferent block := by
  have hlinks : Act.link.drawn.each.Indifferent block.links :=
    .each fun link _ ↦ indifferent_link link
  refine ⟨fun {d d' t} hd hallowed ↦ ⟨?_, hlinks.allowed hd hallowed.2⟩, hlinks.after, hlinks.met,
    hlinks.names, hlinks.kinds⟩
  rw [hd, Schematic.part?_tuned, Option.isSome_map]
  exact hallowed.1

theorem indifferent_watch (watch : Watch) : Act.watch.Indifferent watch :=
  have h : Act.mark.drawn.each.Indifferent watch.outputs :=
    .each fun output _ ↦ indifferent_mark output
  ⟨h.allowed, h.after, h.met, h.names, h.kinds⟩

/-- Neither the connections nor the demands to watch have to do with what is set about parts. -/
theorem indifferent_part {part : Section} (hdevices : part.heading ≠ .devices)
    (hinit : part.heading ≠ .init) : Act.part.Indifferent part := by
  have hbody : Act.body.Indifferent part := by
    cases part with
    | devices => exact absurd rfl hdevices
    | init => exact absurd rfl hinit
    | connections blocks =>
      have h : Act.block.each.Indifferent blocks := .each fun block _ ↦ indifferent_block block
      exact ⟨h.allowed, h.after, h.met, h.names, h.kinds⟩
    | monitor watches =>
      have h : Act.watch.each.Indifferent watches := .each fun watch _ ↦ indifferent_watch watch
      exact ⟨h.allowed, h.after, h.met, h.names, h.kinds⟩
  refine ⟨fun hd hallowed ↦ ⟨hbody.allowed hd hallowed.1, ?_⟩, hbody.after, hbody.met, hbody.names,
    hbody.kinds⟩
  rw [hbody.after hd]
  exact Schematic.mayClose_tuned_iff.mpr hallowed.2

end Act

/-! ### Sentences that set parts -/

/-- One part is set to be what is given, if it is of that kind. -/
def Tuning.single (name : String) (given : Component) : Tuning where
  set other component := if other = name ∧ component.kind = given.kind then given else component
  kind_set other component := by
    split
    · next h => exact h.2.symm
    · rfl

theorem Tuning.single_set (name other : String) (given component : Component) :
    (single name given).set other component =
      if other = name ∧ component.kind = given.kind then given else component :=
  rfl

/-- A statement that sets parts, and is allowed for what the parts are: wherever there are parts of
the same names and kinds it is allowed as well and sets the same. -/
def Act.Tunes {α : Type} (act : Act Schematic α) (item : α) : Prop :=
  ∀ ⦃s : Schematic⦄, (s.parts.map Part.name).Nodup → act.allowed s item →
    ∃ t : Tuning, ∀ s', s.SameParts s' → act.allowed s' item ∧ act.after s' item = s'.tuned t

namespace Act

/-- Statements that tune, one after another: the induction is on the list. -/
theorem Tunes.each {α : Type} {act : Act Schematic α} {items : List α}
    (h : ∀ item ∈ items, act.Tunes item) : act.each.Tunes items := by
  induction items with
  | nil => exact fun s _ _ ↦ ⟨.none, fun s' _ ↦ ⟨trivial, s'.tuned_none.symm⟩⟩
  | cons item items ih =>
    obtain ⟨hitem, hrest⟩ := List.forall_mem_cons.mp h
    intro s hs hallowed
    obtain ⟨t, ht⟩ := hitem hs hallowed.1
    have hafter := (ht s (.refl hs)).2
    have hlater := hallowed.2
    rw [hafter] at hlater
    obtain ⟨t', ht'⟩ := ih hrest (by rwa [Schematic.names_tuned]) hlater
    refine ⟨t.next t', fun s' hs' ↦ ?_⟩
    obtain ⟨hfirst, hnext⟩ := ht s' hs'
    obtain ⟨hitems, hlast⟩ := ht' (s'.tuned t) (hs'.tuned t)
    refine ⟨⟨hfirst, hnext ▸ hitems⟩, ?_⟩
    rw [Schematic.tuned_next, ← hlast, ← hnext]
    rfl

/-- To set a switch or a clock is to tune. -/
theorem tunes_declare {clause : Clause} (hfits : FitsInit clause) (name : String) :
    (declare clause).Tunes name := by
  obtain ⟨given, hiff, hafter⟩ : ∃ given : Component,
      (∀ s, (declare clause).allowed s name ↔ s.kind? name = some given.kind) ∧
        ∀ s, (declare clause).after s name =
          s.modify name fun part ↦ { part with component := given } := by
    cases clause with
    | define | inputs => exact hfits.elim
    | halfPeriod cycles =>
      exact ⟨.clock cycles, fun _ ↦ Option.map_eq_some_iff.symm, fun _ ↦ rfl⟩
    | level level => exact ⟨.switch level, fun _ ↦ Option.map_eq_some_iff.symm, fun _ ↦ rfl⟩
  intro s _ hallowed
  refine ⟨.single name given, fun s' hs' ↦ ?_⟩
  have hkind : s'.kind? name = some given.kind := (hs'.kinds name).trans ((hiff s).mp hallowed)
  refine ⟨(hiff s').mpr hkind, ?_⟩
  rw [hafter, Schematic.modify, Schematic.tuned]
  congr 1
  refine List.map_congr_left fun part hpart ↦ ?_
  by_cases hname : part.name = name
  · rw [Schematic.kind?, ← hname, Schematic.part?_of_mem hs'.symm.distinct hpart] at hkind
    rw [if_pos hname, Part.tuned, Tuning.single_set,
      if_pos ⟨hname, Option.some_inj.mp hkind⟩]
  · rw [if_neg hname, Part.tuned, Tuning.single_set, if_neg (mt And.left hname)]

/-- A sentence that only sets switches or clocks tunes. -/
theorem tunes_sentence {item : Sentence} (hfits : FitsInit item.clause) : sentence.Tunes item := by
  rintro s hs ⟨hcycles, names, hnames, hallowed⟩
  obtain ⟨t, ht⟩ := Tunes.each (fun name _ ↦ tunes_declare hfits name) hs hallowed
  refine ⟨t, fun s' hs' ↦ ?_⟩
  obtain ⟨hallowed', hafter⟩ := ht s' hs'
  refine ⟨⟨hcycles, names, hnames, hallowed'⟩, ?_⟩
  rw [← hafter]
  change (declare item.clause).each.after s' (item.names.names?.getD []) = _
  rw [hnames]
  rfl

end Act

end Breadboard.Description
