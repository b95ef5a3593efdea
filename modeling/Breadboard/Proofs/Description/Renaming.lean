import Breadboard.Proofs.Description.Acceptance
import Breadboard.Proofs.Description.Respelling

/-!
# Devices renamed in a schematic

What a script is allowed to say does not hang on what the devices are called, as long as devices
with different names keep different names. So a script without ranges that is allowed is allowed
with its devices renamed, and comes to the same schematic with its parts renamed (`renames_script`).
A text without ranges that denotes a schematic denotes, with its devices renamed, the schematic with
its parts renamed (`Denotes.renamed`).
-/

set_option autoImplicit false
set_option relaxedAutoImplicit false

namespace Breadboard.Description

/-! ### Renamed schematics -/

section Renamed

variable (rename : String → String)

/-- An input whose driver is renamed. -/
def Inlet.renamed (inlet : Inlet) : Inlet :=
  ⟨inlet.port, inlet.driver.map (OutputName.renamed rename)⟩

/-- A part under its new name, with its drivers renamed. -/
def Part.renamed (part : Part) : Part :=
  ⟨rename part.name, part.component, part.inlets.map (Inlet.renamed rename)⟩

/-- A schematic with its parts renamed. -/
def Schematic.renamed (s : Schematic) : Schematic :=
  ⟨s.parts.map (Part.renamed rename), s.watched.map (OutputName.renamed rename)⟩

end Renamed

/-- The names of the parts. -/
def Schematic.names (s : Schematic) : List String :=
  s.parts.map Part.name

/-- A list of names that is no range. -/
def NameList.Listed : NameList → Prop
  | .several .. => True
  | .range .. => False

/-- A section without ranges. -/
def Section.RangeFree : Section → Prop
  | .devices sentences | .init sentences => ∀ sentence ∈ sentences, sentence.names.Listed
  | .connections _ | .monitor _ => True

variable {rename : String → String} {s : Schematic} {part : Part} {name : String}
  {output : OutputName}

theorem OutputName.renamed_injective (hrename : Function.Injective rename) :
    Function.Injective (OutputName.renamed rename) := by
  intro first second h
  obtain ⟨hdevice, hport⟩ := OutputName.mk.inj h
  cases first
  cases second
  exact OutputName.mk.injEq .. ▸ ⟨hrename hdevice, hport⟩

@[simp]
theorem Inlet.port_renamed (rename : String → String) (inlet : Inlet) :
    (inlet.renamed rename).port = inlet.port := rfl

theorem renamed_openInlets (rename : String → String) (ports : List String) :
    (openInlets ports).map (Inlet.renamed rename) = openInlets ports := by
  rw [openInlets, List.map_map]
  rfl

theorem renamed_fresh (rename : String → String) (name : String) (kind : Kind) :
    (Part.fresh name kind).renamed rename = Part.fresh (rename name) kind := by
  rw [Part.renamed, Part.fresh, renamed_openInlets]
  rfl

theorem renamed_give (rename : String → String) (count : Nat) (part : Part) :
    (part.give count).renamed rename = (part.renamed rename).give count := by
  obtain ⟨name, component, inlets⟩ := part
  have hopen := renamed_openInlets rename (inputNames count)
  cases component with
  | gate g => cases g <;> first | rfl | exact congrArg (Part.mk (rename name) _) hopen
  | _ => exact congrArg (Part.mk (rename name) _) hopen

theorem renamed_drive (rename : String → String) (input : String) (source : OutputName)
    (part : Part) : (part.drive input source).renamed rename =
      (part.renamed rename).drive input (source.renamed rename) := by
  refine congrArg (Part.mk (rename part.name) part.component) ?_
  rw [Part.drive, Part.renamed, List.map_map, List.map_map]
  refine List.map_congr_left fun inlet _ ↦ ?_
  rw [Function.comp_apply, Function.comp_apply, Inlet.port_renamed]
  split <;> rfl

theorem mayHave_renamed_iff {count : Nat} :
    (part.renamed rename).MayHave count ↔ part.MayHave count := by
  rw [Part.MayHave, Part.MayHave, Part.renamed, List.map_eq_nil_iff]

theorem inlet?_renamed (rename : String → String) (part : Part) (port : String) :
    (part.renamed rename).inlet? port = (part.inlet? port).map (Inlet.renamed rename) := by
  rw [Part.inlet?, Part.renamed, List.find?_map]
  rfl

namespace Schematic

variable (hrename : Function.Injective rename)

include hrename in
theorem part?_renamed (s : Schematic) (name : String) :
    (s.renamed rename).part? (rename name) = (s.part? name).map (Part.renamed rename) := by
  rw [part?, renamed, List.find?_map]
  congr 2
  funext part
  exact Bool.eq_iff_iff.mpr (by simp [Part.renamed, hrename.eq_iff])

include hrename in
theorem hasOutput_renamed_iff :
    (s.renamed rename).HasOutput (output.renamed rename) ↔ s.HasOutput output := by
  rw [HasOutput, HasOutput]
  have hpart := part?_renamed hrename s output.device
  rw [show (output.renamed rename).device = rename output.device from rfl, hpart]
  simp [Part.renamed, OutputName.renamed]

include hrename in
theorem renamed_modify {f g : Part → Part}
    (hfg : ∀ part, (f part).renamed rename = g (part.renamed rename)) (s : Schematic)
    (name : String) :
    (s.modify name f).renamed rename = (s.renamed rename).modify (rename name) g := by
  rw [modify, renamed, modify, renamed, List.map_map, List.map_map]
  refine congrArg (Schematic.mk · _) (List.map_congr_left fun part _ ↦ ?_)
  rw [Function.comp_apply, Function.comp_apply, apply_ite (Part.renamed rename), hfg]
  exact if_congr hrename.eq_iff.symm rfl rfl

end Schematic

/-! ### Acts that go the same way when devices are renamed -/

/-- An act that goes the same way when devices are renamed: from renamed states, a renamed statement
is allowed when the statement is, and leads to renamed states. All devices that a statement names
are among the names of the state after it, and names are never lost. -/
structure Act.Renames {σ α : Type} (names : σ → List String) (R : σ → σ → Prop) (act : Act σ α)
    (f : α → α) (devices : α → List String) (p : α → Prop) : Prop where
  kept {s : σ} {item : α} {name : String} : name ∈ names s → name ∈ names (act.after s item)
  named {s : σ} {item : α} {name : String} : p item → act.allowed s item → name ∈ devices item →
    name ∈ names (act.after s item)
  renamed {s s' : σ} {item : α} : p item → R s s' → act.allowed s item →
    act.allowed s' (f item) ∧ R (act.after s item) (act.after s' (f item))

section Renames

variable {σ α : Type} {names : σ → List String} {R : σ → σ → Prop} {act : Act σ α} {f : α → α}
  {devices : α → List String} {p : α → Prop}

theorem Act.Renames.kept_each (h : act.Renames names R f devices p) {s : σ} {items : List α}
    (hname : name ∈ names s) : name ∈ names (act.each.after s items) := by
  induction items generalizing s with
  | nil => exact hname
  | cons item items ih => exact ih (h.kept hname)

/-- Statements one after another. -/
theorem Act.Renames.each (h : act.Renames names R f devices p) :
    act.each.Renames names R (List.map f) (List.flatMap devices)
      (fun items ↦ ∀ item ∈ items, p item) where
  kept := h.kept_each
  named {s items name} hp hallowed hname := by
    induction items generalizing s with
    | nil => cases hname
    | cons item items ih =>
      obtain ⟨hfirst, hmore⟩ := List.forall_mem_cons.mp hp
      rcases List.mem_append.mp hname with hname | hname
      · have hkept : name ∈ names (act.each.after (act.after s item) items) :=
          h.kept_each (h.named hfirst hallowed.1 hname)
        exact hkept
      · exact ih hmore hallowed.2 hname
  renamed {s s' items} hp hrenamed hallowed := by
    induction items generalizing s s' with
    | nil => exact ⟨trivial, hrenamed⟩
    | cons item items ih =>
      obtain ⟨hfirst, hmore⟩ := List.forall_mem_cons.mp hp
      obtain ⟨hallowed', hrenamed'⟩ := h.renamed hfirst hrenamed hallowed.1
      obtain ⟨hrest, hend⟩ := ih hmore hrenamed' hallowed.2
      exact ⟨⟨hallowed', hrest⟩, hend⟩

end Renames

/-! ### What is said of a schematic -/

theorem Schematic.mem_names_iff : name ∈ s.names ↔ ∃ part, s.part? name = some part := by
  rw [← Option.isSome_iff_exists, ← Option.ne_none_iff_isSome, Ne, Schematic.part?_eq_none_iff,
    not_not]
  exact Iff.rfl

theorem Schematic.HasOutput.mem_names (h : s.HasOutput output) : output.device ∈ s.names :=
  Schematic.mem_names_iff.mpr (h.imp fun _ h ↦ h.1)

/-- A sentence about devices that are listed is allowed when it is allowed of one after another. -/
theorem allowed_several {clause : Clause} {first : String} {more : List String} :
    Act.sentence.allowed s ⟨.several first more, clause⟩ ↔
      (∀ cycles, clause = .halfPeriod cycles → 1 ≤ cycles) ∧
        (Act.declare clause).each.allowed s (first :: more) := by
  refine and_congr_right fun _ ↦ ⟨?_, fun h ↦ ⟨_, rfl, h⟩⟩
  rintro ⟨names, hnames, h⟩
  obtain rfl := Option.some_inj.mp hnames
  exact h

section Statements

variable (hrename : Function.Injective rename)

include hrename in
theorem exists_part?_renamed {p q : Part → Prop}
    (hpq : ∀ part, p (part.renamed rename) ↔ q part) (s : Schematic) (name : String) :
    (∃ part, (s.renamed rename).part? (rename name) = some part ∧ p part) ↔
      ∃ part, s.part? name = some part ∧ q part := by
  rw [Schematic.part?_renamed hrename]
  simp [hpq]

include hrename in
theorem renamed_declare (clause : Clause) (s : Schematic) (name : String) :
    (Act.declare clause).after (s.renamed rename) (rename name) =
      ((Act.declare clause).after s name).renamed rename := by
  cases clause with
  | define kind =>
    have hparts : s.parts.map (Part.renamed rename) ++ [Part.fresh (rename name) kind] =
        (s.parts ++ [Part.fresh name kind]).map (Part.renamed rename) := by
      rw [List.map_append, List.map_singleton, renamed_fresh]
    exact congrArg (Schematic.mk · _) hparts
  | inputs count => exact (Schematic.renamed_modify hrename (renamed_give rename count) s name).symm
  | halfPeriod cycles =>
    have hset (part : Part) : Part.renamed rename { part with component := .clock cycles } =
        { part.renamed rename with component := .clock cycles } := rfl
    exact (Schematic.renamed_modify hrename hset s name).symm
  | level level =>
    have hset (part : Part) : Part.renamed rename { part with component := .switch level } =
        { part.renamed rename with component := .switch level } := rfl
    exact (Schematic.renamed_modify hrename hset s name).symm

include hrename in
theorem renames_declare (clause : Clause) :
    (Act.declare clause).Renames Schematic.names (fun s s' ↦ s.renamed rename = s') rename
      (fun name ↦ [name]) fun _ ↦ True where
  kept {s item name} hname := by
    have hnames := names_declare clause s item
    rw [Schematic.names, hnames]
    exact List.mem_append_left _ hname
  named {s item name} _ hallowed hname := by
    obtain rfl := List.mem_singleton.mp hname
    have hnames := names_declare clause s name
    rw [Schematic.names, hnames]
    cases clause with
    | define => exact List.mem_append_right _ (List.mem_singleton_self name)
    | inputs | halfPeriod | level =>
      exact List.mem_append_left _ (Schematic.mem_names_iff.mpr (hallowed.imp fun _ h ↦ h.1))
  renamed {s s' name} _ hs hallowed := by
    subst hs
    refine ⟨?_, (renamed_declare hrename clause s name).symm⟩
    cases clause with
    | define kind =>
      have hnone : (s.renamed rename).part? (rename name) = none := by
        rw [Schematic.part?_renamed hrename, show s.part? name = none from hallowed,
          Option.map_none]
      exact hnone
    | inputs count =>
      exact (exists_part?_renamed hrename (fun _ ↦ mayHave_renamed_iff) s name).mpr hallowed
    | halfPeriod | level =>
      exact (exists_part?_renamed hrename (fun _ ↦ Iff.rfl) s name).mpr hallowed

include hrename in
theorem renames_sentence : Act.sentence.Renames Schematic.names (fun s s' ↦ s.renamed rename = s')
    (Sentence.renamed rename) (fun sentence ↦ sentence.names.written)
    fun sentence ↦ sentence.names.Listed where
  kept {s sentence name} hname := (renames_declare hrename sentence.clause).kept_each hname
  named {s sentence name} hlisted hallowed hname := by
    obtain ⟨list, clause⟩ := sentence
    cases list with
    | range => exact hlisted.elim
    | several first more =>
      refine (renames_declare hrename clause).each.named (fun _ _ ↦ trivial)
        (allowed_several.mp hallowed).2 ?_
      rw [List.flatMap_singleton']
      exact hname
  renamed {s s' sentence} hlisted hs hallowed := by
    obtain ⟨list, clause⟩ := sentence
    cases list with
    | range => exact hlisted.elim
    | several first more =>
      obtain ⟨hcycles, hdeclared⟩ := allowed_several.mp hallowed
      obtain ⟨hdeclared', hafter⟩ := (renames_declare hrename clause).each.renamed
        (fun _ _ ↦ trivial) hs hdeclared
      exact ⟨allowed_several.mpr ⟨hcycles, hdeclared'⟩, hafter⟩

include hrename in
theorem renames_link : Act.link.Renames Schematic.names (fun s s' ↦ s.renamed rename = s')
    (Link.renamed rename) Link.devices fun _ ↦ True where
  kept {s link name} hname := by
    have hnames : (Act.link.after s link).names = s.names := Schematic.names_modify fun _ ↦ rfl
    rwa [hnames]
  named {s link name} _ hallowed hname := by
    have hnames : (Act.link.after s link).names = s.names := Schematic.names_modify fun _ ↦ rfl
    obtain ⟨hsource, part, -, htarget, -⟩ := hallowed
    rw [hnames]
    rcases List.mem_cons.mp hname with rfl | hname
    · exact hsource.mem_names
    · obtain rfl := List.mem_singleton.mp hname
      exact Schematic.mem_names_iff.mpr ⟨part, htarget⟩
  renamed {s s' link} _ hs hallowed := by
    subst hs
    obtain ⟨hsource, hopen⟩ := hallowed
    refine ⟨⟨(Schematic.hasOutput_renamed_iff hrename).mpr hsource, ?_⟩,
      Schematic.renamed_modify hrename (renamed_drive rename link.input link.source) s _⟩
    have hinlet (part : Part) :
        (∃ inlet, (part.renamed rename).inlet? link.input = some inlet ∧ inlet.driver = none) ↔
          ∃ inlet, part.inlet? link.input = some inlet ∧ inlet.driver = none := by
      rw [inlet?_renamed]
      simp [Inlet.renamed]
    simp only [exists_and_left] at hopen ⊢
    exact (exists_part?_renamed hrename hinlet s link.target).mpr hopen

include hrename in
theorem renames_mark : Act.mark.Renames Schematic.names (fun s s' ↦ s.renamed rename = s')
    (OutputName.renamed rename) (fun output ↦ [output.device]) fun _ ↦ True where
  kept hname := hname
  named {s output name} _ hallowed hname := by
    obtain rfl := List.mem_singleton.mp hname
    exact hallowed.1.mem_names
  renamed {s s' output} _ hs hallowed := by
    subst hs
    obtain ⟨hthere, hnew⟩ := hallowed
    refine ⟨⟨(Schematic.hasOutput_renamed_iff hrename).mpr hthere, fun hmem ↦ hnew ?_⟩, ?_⟩
    · exact (List.mem_map_of_injective (OutputName.renamed_injective hrename)).mp hmem
    · have hwatched : (s.watched ++ [output]).map (OutputName.renamed rename) =
          s.watched.map (OutputName.renamed rename) ++ [output.renamed rename] := by
        rw [List.map_append, List.map_singleton]
      exact congrArg (Schematic.mk _) hwatched

/-! ### What is said of a draft -/

/-- The names of the parts. -/
def Draft.names (d : Draft) : List String :=
  d.schematic.names

/-- A draft with its devices renamed: the schematic is renamed, and the new names of the parts are
met. -/
structure Draft.Renamed (rename : String → String) (d d' : Draft) : Prop where
  schematic : d.schematic.renamed rename = d'.schematic
  met : ∀ name ∈ d.names, rename name ∈ d'.met

theorem written_renamed (rename : String → String) (list : NameList) :
    (list.renamed rename).written = list.written.map rename := by
  cases list <;> rfl

/-- Statements about a schematic that bring no new names. -/
theorem Act.Renames.drawn {α : Type} {act : Act Schematic α} {f : α → α}
    {devices : α → List String} {p : α → Prop}
    (h : act.Renames Schematic.names (fun s s' ↦ s.renamed rename = s') f devices p)
    (hsame : ∀ s item, (act.after s item).names = s.names) :
    act.drawn.Renames Draft.names (Draft.Renamed rename) f devices p where
  kept := h.kept
  named := h.named
  renamed {d d' item} hp hd hallowed := by
    obtain ⟨hallowed', hafter⟩ := h.renamed hp hd.schematic hallowed
    refine ⟨hallowed', hafter, fun name hname ↦ hd.met name ?_⟩
    have hnames : (act.drawn.after d item).names = d.names := hsame d.schematic item
    rwa [← hnames]

include hrename in
theorem renames_introduce : Act.introduce.Renames Draft.names (Draft.Renamed rename)
    (Sentence.renamed rename) (fun sentence ↦ sentence.names.written)
    fun sentence ↦ sentence.names.Listed where
  kept := (renames_sentence hrename).kept
  named := (renames_sentence hrename).named
  renamed {d d' sentence} hlisted hd hallowed := by
    obtain ⟨hallowed', hafter⟩ := (renames_sentence hrename).renamed hlisted hd.schematic hallowed
    refine ⟨hallowed', hafter, fun name hname ↦ ?_⟩
    obtain ⟨list, clause⟩ := sentence
    cases list with
    | range => exact hlisted.elim
    | several first more =>
      rcases mem_names_declared hname with hold | hnew
      · exact List.mem_append_left _ (hd.met name hold)
      · refine List.mem_append_right _ (List.mem_append_left _ ?_)
        exact List.mem_map_of_mem (f := rename) hnew

include hrename in
theorem renames_adjust : Act.adjust.Renames Draft.names (Draft.Renamed rename)
    (Sentence.renamed rename) (fun sentence ↦ sentence.names.written)
    fun sentence ↦ sentence.names.Listed ∧ FitsInit sentence.clause where
  kept := (renames_sentence hrename).kept
  named hp hallowed := (renames_sentence hrename).named hp.1 hallowed.2
  renamed {d d' sentence} hp hd hallowed := by
    obtain ⟨hlisted, hfits⟩ := hp
    obtain ⟨hallowed', hafter⟩ :=
      (renames_sentence hrename).renamed hlisted hd.schematic hallowed.2
    have hnames : (Act.sentence.after d.schematic sentence).names = d.names :=
      names_sentence_of_fits hfits d.schematic
    refine ⟨⟨fun name' hname' ↦ ?_, hallowed'⟩, hafter, fun name hname ↦ hd.met name ?_⟩
    · have hwritten : name' ∈ sentence.names.written.map rename :=
        written_renamed rename sentence.names ▸ hname'
      obtain ⟨name, hname, rfl⟩ := List.mem_map.mp hwritten
      exact hd.met name (hnames ▸ (renames_sentence hrename).named hlisted hallowed.2 hname)
    · rwa [← hnames]

include hrename in
theorem renames_block : Act.block.Renames Draft.names (Draft.Renamed rename)
    (Block.renamed rename) Block.devices fun _ ↦ True where
  kept := ((renames_link hrename).drawn fun _ _ ↦ Schematic.names_modify fun _ ↦ rfl).kept_each
  named {d block name} _ hallowed hname := by
    have hlinks := (renames_link hrename).drawn fun _ _ ↦ Schematic.names_modify fun _ ↦ rfl
    obtain ⟨hpart, hallowed⟩ := hallowed
    rcases List.mem_cons.mp hname with rfl | hname
    · refine hlinks.kept_each (Schematic.mem_names_iff.mpr ?_)
      exact Option.isSome_iff_exists.mp hpart
    · exact hlinks.each.named (fun _ _ ↦ trivial) hallowed hname
  renamed {d d' block} _ hd hallowed := by
    have hlinks := (renames_link hrename).drawn fun _ _ ↦ Schematic.names_modify fun _ ↦ rfl
    obtain ⟨hpart, hallowed⟩ := hallowed
    obtain ⟨hallowed', hafter⟩ := hlinks.each.renamed (fun _ _ ↦ trivial) hd hallowed
    refine ⟨⟨?_, hallowed'⟩, hafter⟩
    have hrenamed := Schematic.part?_renamed hrename d.schematic block.device
    rw [hd.schematic] at hrenamed
    rwa [Block.renamed, hrenamed, Option.isSome_map]

include hrename in
theorem renames_watch : Act.watch.Renames Draft.names (Draft.Renamed rename)
    (Watch.renamed rename) Watch.devices fun _ ↦ True where
  kept := ((renames_mark hrename).drawn fun _ _ ↦ rfl).kept_each
  named {d watch name} _ hallowed hname := by
    refine ((renames_mark hrename).drawn fun _ _ ↦ rfl).each.named (fun _ _ ↦ trivial) hallowed ?_
    rwa [← List.map_eq_flatMap]
  renamed _ hd hallowed :=
    ((renames_mark hrename).drawn fun _ _ ↦ rfl).each.renamed (fun _ _ ↦ trivial) hd hallowed

/-! ### Whole scripts -/

include hrename in
theorem renames_body : Act.body.Renames Draft.names (Draft.Renamed rename)
    (Section.renamed rename) Section.devicesNamed fun part ↦ part.RangeFree ∧ part.Proper where
  kept {d part name} hname := by
    cases part with
    | devices => exact (renames_introduce hrename).kept_each hname
    | init => exact (renames_adjust hrename).kept_each hname
    | connections => exact (renames_block hrename).kept_each hname
    | monitor => exact (renames_watch hrename).kept_each hname
  named {d part name} hp hallowed hname := by
    obtain ⟨hfree, hproper⟩ := hp
    cases part with
    | devices => exact (renames_introduce hrename).each.named hfree hallowed hname
    | init =>
      exact (renames_adjust hrename).each.named
        (fun item hitem ↦ ⟨hfree item hitem, hproper item hitem⟩) hallowed hname
    | connections => exact (renames_block hrename).each.named (fun _ _ ↦ trivial) hallowed hname
    | monitor => exact (renames_watch hrename).each.named (fun _ _ ↦ trivial) hallowed hname
  renamed {d d' part} hp hd hallowed := by
    obtain ⟨hfree, hproper⟩ := hp
    cases part with
    | devices => exact (renames_introduce hrename).each.renamed hfree hd hallowed
    | init =>
      exact (renames_adjust hrename).each.renamed
        (fun item hitem ↦ ⟨hfree item hitem, hproper item hitem⟩) hd hallowed
    | connections => exact (renames_block hrename).each.renamed (fun _ _ ↦ trivial) hd hallowed
    | monitor => exact (renames_watch hrename).each.renamed (fun _ _ ↦ trivial) hd hallowed

theorem mayClose_renamed {heading : Heading} (h : s.MayClose heading) :
    (s.renamed rename).MayClose heading := by
  cases heading with
  | devices =>
    intro part hpart hswitch hclock
    obtain ⟨old, hold, rfl⟩ := List.mem_map.mp hpart
    exact mt List.map_eq_nil_iff.mp (h old hold hswitch hclock)
  | connections =>
    intro part hpart inlet hinlet
    obtain ⟨old, hold, rfl⟩ := List.mem_map.mp hpart
    obtain ⟨before, hbefore, rfl⟩ := List.mem_map.mp hinlet
    exact mt Option.map_eq_none_iff.mp (h old hold before hbefore)
  | monitor | init => trivial

include hrename in
theorem renames_part : Act.part.Renames Draft.names (Draft.Renamed rename)
    (Section.renamed rename) Section.devicesNamed fun part ↦ part.RangeFree ∧ part.Proper where
  kept := (renames_body hrename).kept
  named hp hallowed := (renames_body hrename).named hp hallowed.1
  renamed {d d' part} hp hd hallowed := by
    obtain ⟨hallowed', hafter⟩ := (renames_body hrename).renamed hp hd hallowed.1
    refine ⟨⟨hallowed', ?_⟩, hafter⟩
    rw [heading_renamed, ← hafter.schematic]
    exact mayClose_renamed hallowed.2

include hrename in
/-- A script without ranges, with its devices renamed. -/
theorem renames_script : Act.script.Renames Draft.names (Draft.Renamed rename)
    (List.map (Section.renamed rename)) (List.flatMap Section.devicesNamed)
    fun script ↦ ∀ part ∈ script, part.RangeFree ∧ part.Proper :=
  (renames_part hrename).each

end Statements

theorem proper_renamed {part : Section} (h : part.Proper) : (part.renamed rename).Proper := by
  cases part with
  | devices | monitor => trivial
  | init sentences =>
    intro sentence hsentence
    obtain ⟨old, hold, rfl⟩ := List.mem_map.mp hsentence
    exact h old hold
  | connections blocks =>
    intro block hblock link hlink
    obtain ⟨old, hold, rfl⟩ := List.mem_map.mp hblock
    obtain ⟨before, hbefore, rfl⟩ := List.mem_map.mp hlink
    exact congrArg rename (h old hold before hbefore)

theorem Script.InOrder.renamed {script : Script} (h : script.InOrder) (rename : String → String) :
    Script.InOrder (script.map (Section.renamed rename)) := by
  have hheadings : (script.map (Section.renamed rename)).map Section.heading =
      script.map Section.heading := by
    rw [List.map_map]
    exact List.map_congr_left fun part _ ↦ heading_renamed rename part
  refine ⟨fun part hpart ↦ ?_, hheadings ▸ h.first, hheadings ▸ h.distinct,
    hheadings ▸ h.connections⟩
  obtain ⟨old, hold, rfl⟩ := List.mem_map.mp hpart
  exact proper_renamed (h.proper old hold)

/-! ### Texts without ranges -/

/-- The lexeme that is read, if it is one. -/
def Reading.lexeme? : Reading → Option Lexeme
  | .token found => some found.lexeme
  | .fault .. => none

/-- A text without the sign of a range. -/
def RangeFree (text : String) : Prop :=
  ∀ reading ∈ readingsOf text, reading.lexeme? ≠ some .arrow

instance (text : String) : Decidable (RangeFree text) :=
  List.decidableBAll ..

/-- Each of some items that are spelled is spelled in their symbols. -/
theorem listed_of_spelled {sentence : Sentence} {used : List Symbol}
    (h : SentenceSpelled sentence used) (harrow : .sign .arrow ∉ used) : sentence.names.Listed := by
  obtain @⟨list, clause, u, hclause⟩ := h
  cases list with
  | several => trivial
  | range first last => exact absurd (by simp [NameList.symbols]) harrow

theorem rangeFree_of_spelled {part : Section} {used : List Symbol} (h : SectionSpelled part used)
    (harrow : .sign .arrow ∉ used) : part.RangeFree := by
  cases h with | @intro u hbody
  cases part with
  | devices sentences | init sentences =>
    intro sentence hsentence
    obtain ⟨v, hspelled, hsubset⟩ := exists_spelled_of_mem hbody hsentence
    refine listed_of_spelled hspelled fun hmem ↦ harrow ?_
    exact List.mem_append_left _ (List.mem_append_right _ (hsubset hmem))
  | connections | monitor => trivial

theorem arrow_not_mem_of_rangeFree {text : String} {tokens : List Token}
    (h : RangeFree text) (hread : readingsOf text = tokens.map Reading.token) :
    .sign .arrow ∉ tokens.map Token.symbol := by
  intro harrow
  obtain ⟨token, htoken, hsymbol⟩ := List.mem_map.mp harrow
  refine h (.token token) (hread ▸ List.mem_map_of_mem htoken) ?_
  exact congrArg (some ·.lexeme) hsymbol

theorem renamedSymbols_congr {f g : String → String} {device : Bool} {symbols : List Symbol}
    (h : ∀ name ∈ deviceNames device symbols, f name = g name) :
    renamedSymbols f device symbols = renamedSymbols g device symbols := by
  induction symbols generalizing device with
  | nil => rfl
  | cons symbol symbols ih =>
    have hmore := ih fun name hname ↦ h name (mem_deviceNames_cons.mpr (.inr hname))
    have hfirst : symbol.renamed f device = symbol.renamed g device := by
      unfold Symbol.renamed
      split_ifs with hdevice
      · rw [h symbol.text (mem_deviceNames_cons.mpr (.inl ⟨hdevice, rfl⟩))]
      · rfl
    rw [renamedSymbols, renamedSymbols, hfirst, hmore]

/-- A coherent schematic names its own parts only. -/
theorem Schematic.Coherent.renamed_congr {f g : String → String} (hs : s.Coherent)
    (h : ∀ name ∈ s.names, f name = g name) : s.renamed f = s.renamed g := by
  have houtput {output : OutputName} (hthere : s.HasOutput output) :
      output.renamed f = output.renamed g := by
    rw [OutputName.renamed, OutputName.renamed, h _ hthere.mem_names]
  have hpart : ∀ part ∈ s.parts, part.renamed f = part.renamed g := by
    intro part hpart
    have hinlets : part.inlets.map (Inlet.renamed f) = part.inlets.map (Inlet.renamed g) := by
      refine List.map_congr_left fun inlet hinlet ↦ congrArg (Inlet.mk inlet.port) ?_
      exact Option.map_congr fun driver hdriver ↦
        houtput ((hs.fits part hpart).driven inlet hinlet driver hdriver)
    rw [Part.renamed, Part.renamed, hinlets, h part.name (List.mem_map_of_mem hpart)]
  rw [Schematic.renamed, Schematic.renamed, List.map_congr_left hpart,
    List.map_congr_left fun output hthere ↦ houtput (hs.there output hthere)]

/-- The names that are given to others than the devices begin with a dot, so that they are no
identifiers. -/
def extended (rename : String → String) (names : List String) (name : String) : String :=
  if name ∈ names then rename name else "." ++ name

theorem extended_of_mem {names : List String} (h : name ∈ names) :
    extended rename names name = rename name :=
  if_pos h

theorem extended_injective {names : List String}
    (hinjective : ∀ name ∈ names, ∀ other ∈ names, rename name = rename other → name = other)
    (hidentifiers : ∀ name ∈ names, IsIdentifier (rename name)) :
    Function.Injective (extended rename names) := by
  have hdot {name other : String} (hname : name ∈ names) : rename name ≠ "." ++ other := by
    intro hsame
    have hletter := (hidentifiers name hname).letter
    have hfirst : ("." ++ other).toList.head? = some '.' := by
      rw [String.toList_append]
      rfl
    rw [hsame, hfirst] at hletter
    exact absurd hletter (by decide)
  intro name other h
  unfold extended at h
  split_ifs at h with hname hother hother
  · exact hinjective name hname other hother h
  · exact absurd h (hdot hname)
  · exact absurd h.symm (hdot hother)
  · have hchars := congrArg String.toList h
    rw [String.toList_append, String.toList_append, List.append_cancel_left_eq] at hchars
    exact String.toList_injective hchars

/-- A text without ranges denotes the same schematic with its parts renamed when its devices are
renamed.

Assumes: different devices get different names, and the new names are identifiers. -/
theorem Denotes.renamed {text : String} (h : Denotes text s) (hfree : RangeFree text)
    (hinjective : ∀ name ∈ s.names, ∀ other ∈ s.names, rename name = rename other → name = other)
    (hidentifiers : ∀ name ∈ s.names, IsIdentifier (rename name)) :
    Denotes (renamed rename text) (s.renamed rename) := by
  obtain ⟨-, -, -, -, hcoherent⟩ := load_of_denotes h {}
  obtain ⟨tokens, script, hread, hspelled, hinOrder, hallowed, rfl⟩ := h
  generalize hnames : (Act.script.after {} script).schematic.names = names at *
  have hextended := extended_injective hinjective hidentifiers
  have hscript := renames_script hextended
  have harrow := arrow_not_mem_of_rangeFree hfree hread
  have hproper : ∀ part ∈ script, part.RangeFree ∧ part.Proper := by
    intro part hpart
    obtain ⟨u, hsection, hsubset⟩ := exists_spelled_of_mem hspelled hpart
    exact ⟨rangeFree_of_spelled hsection fun hmem ↦ harrow (hsubset hmem),
      hinOrder.proper part hpart⟩
  -- all that stands in the place of a device is a device
  have hdevices : ∀ name ∈ deviceNames true (tokens.map Token.symbol), name ∈ names := by
    intro name hname
    rw [(hspelled.renamed rename).2] at hname
    exact hnames ▸ hscript.named hproper hallowed hname
  have hsymbols : renamedSymbols rename true (tokens.map Token.symbol) =
      renamedSymbols (extended rename names) true (tokens.map Token.symbol) :=
    renamedSymbols_congr fun name hname ↦ (extended_of_mem (hdevices name hname)).symm
  obtain ⟨tokens', hread', hsymbols'⟩ :=
    readings_renamed hread fun name hname ↦ hidentifiers name (hdevices name hname)
  have hstart : ({} : Draft).Renamed (extended rename names) {} := ⟨rfl, nofun⟩
  obtain ⟨hallowed', hafter⟩ := hscript.renamed hproper hstart hallowed
  refine ⟨tokens', script.map (Section.renamed (extended rename names)), hread', ?_,
    hinOrder.renamed _, hallowed', ?_⟩
  · rw [hsymbols', hsymbols]
    exact (hspelled.renamed (extended rename names)).1
  · rw [← hafter.schematic]
    exact hcoherent.renamed_congr fun name hname ↦ extended_of_mem (hnames ▸ hname)

end Breadboard.Description
