import Breadboard.Proofs.Description.Coherence
import Breadboard.Proofs.Description.Sentences

/-!
# The script of a schematic

A finished schematic is told part by part: what each part is and what is set about it, then a block
for each part that has inputs, and then the outputs to watch (`Schematic.script`). Whatever is said
so is allowed where it is said, and at the end the schematic is there
(`Schematic.Complete.executes_script`).
-/

set_option autoImplicit false
set_option relaxedAutoImplicit false

namespace Breadboard.Description

variable {s s' : Schematic} {part : Part} {name : String}

/-! ### Statements one after another -/

namespace Act

variable {σ α : Type} {act : Act σ α} {a b c : σ} {x : α} {xs ys : List α}

/-- Some statements are allowed one after another, and come to a given end. -/
def Executes (act : Act σ α) (a : σ) (xs : List α) (b : σ) : Prop :=
  act.each.allowed a xs ∧ act.each.after a xs = b

theorem Executes.nil (a : σ) : act.Executes a [] a :=
  ⟨trivial, rfl⟩

theorem Executes.cons (h : act.allowed a x) (h' : act.Executes (act.after a x) xs b) :
    act.Executes a (x :: xs) b :=
  ⟨⟨h, h'.1⟩, h'.2⟩

theorem Executes.single (h : act.allowed a x) : act.Executes a [x] (act.after a x) :=
  .cons h (.nil _)

theorem Executes.append (h : act.Executes a xs b) (h' : act.Executes b ys c) :
    act.Executes a (xs ++ ys) c := by
  induction xs generalizing a with
  | nil =>
    obtain ⟨-, rfl⟩ := h
    exact h'
  | cons x xs ih => exact .cons h.1.1 (ih ⟨h.1.2, h.2⟩)

end Act

/-! ### One item among others with other keys -/

section Keyed

variable {α κ : Type} [DecidableEq κ] {key : α → κ} {k : κ} {x : α} {xs ys : List α}

theorem map_ite_of_not_mem (h : k ∉ xs.map key) (f : α → α) :
    xs.map (fun y ↦ if key y = k then f y else y) = xs := by
  refine (List.map_congr_left fun y hy ↦ if_neg fun hkey ↦ ?_).trans (List.map_id xs)
  exact h (hkey ▸ List.mem_map_of_mem hy)

theorem map_ite_middle (hxs : k ∉ xs.map key) (hys : k ∉ ys.map key) (hx : key x = k)
    (f : α → α) : (xs ++ x :: ys).map (fun y ↦ if key y = k then f y else y) = xs ++ f x :: ys := by
  rw [List.map_append, List.map_cons, map_ite_of_not_mem hxs, map_ite_of_not_mem hys, if_pos hx]

theorem find?_middle (hxs : k ∉ xs.map key) (hx : key x = k) :
    (xs ++ x :: ys).find? (key · == k) = some x := by
  have hnone : xs.find? (key · == k) = none := by
    refine List.find?_eq_none.mpr fun y hy hkey ↦ hxs ?_
    exact beq_iff_eq.mp hkey ▸ List.mem_map_of_mem hy
  rw [List.find?_append, hnone, Option.none_or]
  exact List.find?_cons_of_pos (beq_iff_eq.mpr hx)

omit [DecidableEq κ] in
theorem not_mem_of_nodup_middle (h : ((xs ++ x :: ys).map key).Nodup) :
    key x ∉ xs.map key ∧ key x ∉ ys.map key := by
  rw [List.map_append, List.map_cons, List.nodup_middle, List.nodup_cons, List.mem_append,
    not_or] at h
  exact h.1

end Keyed

/-! ### What is said of a part -/

/-- An input that nothing is drawn to. -/
def Inlet.bare (inlet : Inlet) : Inlet :=
  { port := inlet.port }

/-- The connection to an input, if an output is drawn to it. -/
def Inlet.link? (target : String) (inlet : Inlet) : Option Link :=
  inlet.driver.map (⟨·, target, inlet.port⟩)

namespace Part

/-- What has to be said of a part besides its kind. -/
def settings (part : Part) : List Clause :=
  match part.component with
  | .gate .xor | .gate .not | .flipFlop => []
  | .gate _ => [.inputs part.inlets.length]
  | .switch level => [.level level]
  | .clock halfPeriod => [.halfPeriod halfPeriod]

/-- A part with all the inputs of its kind, and with a half-period of at least one cycle if it is a
clock. -/
structure Finished (part : Part) : Prop where
  shaped : part.Shaped
  clock : ∀ cycles, part.component = .clock cycles → 1 ≤ cycles
  inputs : part.component.kind ≠ .switch → part.component.kind ≠ .clock → part.inlets ≠ []

/-- The sentences about a part. -/
def sentences (part : Part) : List Sentence :=
  (.define part.component.kind :: part.settings).map (⟨.several part.name [], ·⟩)

/-- A part with nothing drawn to its inputs. -/
def bare (part : Part) : Part :=
  { part with inlets := openInlets part.ports }

@[simp]
theorem name_bare (part : Part) : part.bare.name = part.name := rfl

/-- A part with something drawn to the first of its inputs only. -/
def upTo (part : Part) (done rest : List Inlet) : Part :=
  { part with inlets := done ++ rest.map Inlet.bare }

@[simp]
theorem name_upTo (part : Part) (done rest : List Inlet) : (part.upTo done rest).name = part.name :=
  rfl

theorem bare_eq_upTo (part : Part) : part.bare = part.upTo [] part.inlets := by
  rw [bare, upTo, openInlets, ports, List.map_map]
  rfl

theorem bare_of_nil {part : Part} (h : part.inlets = []) : part.bare = part := by
  obtain ⟨name, component, inlets⟩ := part
  obtain rfl : inlets = [] := h
  rfl

theorem ports_upTo {part : Part} {done rest : List Inlet} (h : part.inlets = done ++ rest) :
    (part.upTo done rest).ports = part.ports := by
  rw [ports, ports, upTo, h, List.map_append, List.map_append, List.map_map]
  rfl

/-- The connections to the inputs of a part. -/
def links (part : Part) : List Link :=
  part.inlets.filterMap (Inlet.link? part.name)

end Part

/-- What is said of the last part changes that part alone. -/
theorem executes_last (part : Part) (clause : Clause) (f : Part → Part)
    (hname : part.name = name) (hnew : s.part? name = none)
    (hafter : ∀ s, (Act.declare clause).after s name = s.modify name f)
    (hcycles : ∀ cycles, clause = .halfPeriod cycles → 1 ≤ cycles)
    (hallowed : ∀ s : Schematic, s.part? name = some part → (Act.declare clause).allowed s name) :
    Act.sentence.Executes { s with parts := s.parts ++ [part] } [⟨.several name [], clause⟩]
      { s with parts := s.parts ++ [f part] } := by
  have hnames := Schematic.part?_eq_none_iff.mp hnew
  have hlast : ({ s with parts := s.parts ++ [part] } : Schematic).part? name = some part :=
    find?_middle hnames hname
  have hmodify : ({ s with parts := s.parts ++ [part] } : Schematic).modify name f =
      { s with parts := s.parts ++ [f part] } := by
    rw [Schematic.modify, map_ite_middle hnames List.not_mem_nil hname]
  rw [← hmodify, ← hafter]
  exact .single ⟨hcycles, [name], rfl, hallowed _ hlast, trivial⟩

@[simp]
theorem length_inputNames (count : Nat) : (inputNames count).length = count := by
  rw [inputNames, List.length_map, List.length_range']

/-- A part that was only just defined, and what has to be said of it besides. -/
theorem executes_settings (hnew : s.part? part.name = none) (hpart : part.Finished) :
    Act.sentence.Executes
      { s with parts := s.parts ++ [Part.fresh part.name part.component.kind] }
      (part.settings.map (⟨.several part.name [], ·⟩))
      { s with parts := s.parts ++ [part.bare] } := by
  have hshaped := hpart.shaped
  obtain ⟨name, component, inlets⟩ := part
  cases component with
  | gate g =>
    cases g with
    | xor | not =>
      rw [Part.bare, show Part.ports _ = _ from hshaped]
      exact .nil _
    | and | nand | or | nor =>
      obtain ⟨count, hpos, hle, hports⟩ := hshaped.resolve_left fun h ↦
        hpart.inputs Kind.noConfusion Kind.noConfusion (List.map_eq_nil_iff.mp h)
      have hlength : inlets.length = count := by
        rw [← length_inputNames count, ← hports, Part.ports, List.length_map]
      rw [Part.bare, hports, ← hlength]
      exact executes_last (.fresh name _) (.inputs inlets.length) (Part.give inlets.length) rfl hnew
        (fun _ ↦ rfl) (fun _ h ↦ Clause.noConfusion h)
        fun _ h ↦ ⟨_, h, rfl, hlength ▸ hpos, hlength ▸ hle⟩
  | switch level =>
    rw [Part.bare, show Part.ports _ = _ from hshaped]
    exact executes_last (.fresh name .switch) (.level level)
      (fun part ↦ { part with component := .switch level }) rfl hnew (fun _ ↦ rfl)
      (fun _ h ↦ Clause.noConfusion h) fun _ h ↦ ⟨_, h, rfl⟩
  | clock cycles =>
    rw [Part.bare, show Part.ports _ = _ from hshaped]
    exact executes_last (.fresh name .clock) (.halfPeriod cycles)
      (fun part ↦ { part with component := .clock cycles }) rfl hnew (fun _ ↦ rfl)
      (fun _ h ↦ Clause.halfPeriod.inj h ▸ hpart.clock _ rfl) fun _ h ↦ ⟨_, h, rfl⟩
  | flipFlop =>
    rw [Part.bare, show Part.ports _ = _ from hshaped]
    exact .nil _

/-- The sentences about a part bring it in, with nothing drawn to its inputs. -/
theorem executes_sentences (hnew : s.part? part.name = none) (hpart : part.Finished) :
    Act.sentence.Executes s part.sentences { s with parts := s.parts ++ [part.bare] } := by
  refine .cons ⟨nofun, [part.name], rfl, hnew, trivial⟩ ?_
  exact executes_settings hnew hpart

theorem executes_allSentences {parts : List Part}
    (hnames : ((s.parts ++ parts).map Part.name).Nodup) (hparts : ∀ part ∈ parts, part.Finished) :
    Act.sentence.Executes s (parts.flatMap Part.sentences)
      { s with parts := s.parts ++ parts.map Part.bare } := by
  induction parts generalizing s with
  | nil =>
    rw [List.map_nil, List.append_nil]
    exact .nil s
  | cons part parts ih =>
    obtain ⟨hpart, hrest⟩ := List.forall_mem_cons.mp hparts
    have hnew : s.part? part.name = none := by
      rw [List.map_append, List.map_cons] at hnames
      exact Schematic.part?_eq_none_iff.mpr fun hmem ↦
        (List.nodup_append.mp hnames).2.2 _ hmem _ List.mem_cons_self rfl
    have hnext := ih (s := { s with parts := s.parts ++ [part.bare] }) (by simpa using hnames) hrest
    rw [List.append_assoc] at hnext
    exact (executes_sentences hnew hpart).append hnext

/-- What sentences do to a schematic they do to that of a draft in the `devices` section. -/
theorem executes_introduce {sentences : List Sentence} (h : Act.sentence.Executes s sentences s')
    (met : List String) : ∃ met', Act.introduce.Executes ⟨s, met⟩ sentences ⟨s', met'⟩ := by
  induction sentences generalizing s met with
  | nil =>
    obtain ⟨-, rfl⟩ := h
    exact ⟨met, .nil _⟩
  | cons sentence sentences ih =>
    obtain ⟨met', hrest⟩ := ih ⟨h.1.2, h.2⟩ (met ++ sentence.names.met)
    exact ⟨met', .cons h.1.1 hrest⟩

/-! ### What is drawn to the inputs of a part -/

/-- What the outputs of a part depend on. -/
def Part.face (part : Part) : String × Component :=
  (part.name, part.component)

theorem hasOutput_of_faces (hfaces : s.parts.map Part.face = s'.parts.map Part.face)
    {output : OutputName} (h : s.HasOutput output) : s'.HasOutput output := by
  have hpart (k : Schematic) : (k.part? output.device).map Part.face =
      (k.parts.map Part.face).find? (·.1 == output.device) := by
    rw [List.find?_map]
    rfl
  obtain ⟨part, hfound, houtput⟩ := h
  have hface := hpart s'
  rw [← hfaces, ← hpart s, hfound] at hface
  obtain ⟨part', hfound', hsame⟩ := Option.map_eq_some_iff.mp hface
  exact ⟨part', hfound', (Prod.mk.inj hsame).2 ▸ houtput⟩

section Middle

variable {before after : List Part} {watched : List OutputName} {inlet : Inlet}
  {output : OutputName} {done rest : List Inlet}

/-- One connection, to the first of the inputs that nothing is drawn to yet. -/
theorem executes_link (hinlets : part.inlets = done ++ inlet.bare :: rest)
    (hnames : ((before ++ part :: after).map Part.name).Nodup) (hports : part.ports.Nodup)
    (hdriver : inlet.driver = some output)
    (houtput : (⟨before ++ part :: after, watched⟩ : Schematic).HasOutput output) :
    Act.link.Executes ⟨before ++ part :: after, watched⟩ [⟨output, part.name, inlet.port⟩]
      ⟨before ++ { part with inlets := done ++ inlet :: rest } :: after, watched⟩ := by
  obtain ⟨hbefore, hafter⟩ := not_mem_of_nodup_middle hnames
  rw [Part.ports, hinlets] at hports
  obtain ⟨hdone, hrest⟩ := not_mem_of_nodup_middle hports
  have hdrive : part.drive inlet.port output = { part with inlets := done ++ inlet :: rest } := by
    rw [Part.drive, hinlets]
    congr 1
    refine (map_ite_middle hdone hrest rfl
      fun other ↦ { other with driver := some output }).trans ?_
    rw [← hdriver]
    rfl
  have hallowed : Act.link.allowed ⟨before ++ part :: after, watched⟩
      ⟨output, part.name, inlet.port⟩ := by
    refine ⟨houtput, part, inlet.bare, find?_middle hbefore rfl, ?_, rfl⟩
    rw [Part.inlet?, hinlets]
    exact find?_middle hdone rfl
  have hmodify : Act.link.after ⟨before ++ part :: after, watched⟩
      ⟨output, part.name, inlet.port⟩ =
        ⟨before ++ { part with inlets := done ++ inlet :: rest } :: after, watched⟩ := by
    rw [← hdrive]
    exact congrArg (Schematic.mk · watched) (map_ite_middle hbefore hafter rfl _)
  exact hmodify ▸ .single hallowed

/-- The connections to the inputs of a part, one after another. -/
theorem executes_links (hinlets : part.inlets = done ++ rest)
    (hnames : ((before ++ part :: after).map Part.name).Nodup) (hports : part.ports.Nodup)
    (hdriven : ∀ inlet ∈ rest, ∃ output, inlet.driver = some output ∧
      (⟨before ++ part :: after, watched⟩ : Schematic).HasOutput output) :
    Act.link.Executes ⟨before ++ part.upTo done rest :: after, watched⟩
      (rest.filterMap (Inlet.link? part.name)) ⟨before ++ part :: after, watched⟩ := by
  induction rest generalizing done with
  | nil =>
    rw [Part.upTo, List.map_nil, ← hinlets]
    exact .nil _
  | cons inlet rest ih =>
    obtain ⟨⟨output, hdriver, houtput⟩, hrest⟩ := List.forall_mem_cons.mp hdriven
    have hstep : Act.link.Executes ⟨before ++ part.upTo done (inlet :: rest) :: after, watched⟩
        [⟨output, part.name, inlet.port⟩]
        ⟨before ++ { part with inlets := done ++ inlet :: rest.map Inlet.bare } :: after,
          watched⟩ := by
      refine executes_link rfl (by simpa using hnames) ?_ hdriver (hasOutput_of_faces ?_ houtput)
      · rwa [Part.ports_upTo hinlets]
      · simp [Part.face, Part.upTo]
    have hnext := ih (hinlets.trans (List.append_cons ..)) hrest
    rw [Part.upTo, List.append_assoc] at hnext
    rw [List.filterMap_cons, Inlet.link?, hdriver]
    exact hstep.append hnext

end Middle

/-! ### Blocks and demands to watch -/

/-- The blocks for the parts that have inputs. -/
def blocksOf (parts : List Part) : List Block :=
  (parts.filter (·.inlets ≠ [])).map fun part ↦ ⟨part.name, part.links⟩

theorem executes_block {links : List Link} {watched : List OutputName} {parts parts' : List Part}
    {met : List String} (hdevice : ((⟨parts, watched⟩ : Schematic).part? name).isSome)
    (h : Act.link.Executes ⟨parts, watched⟩ links ⟨parts', watched⟩) :
    Act.block.Executes ⟨⟨parts, watched⟩, met⟩ [⟨name, links⟩] ⟨⟨parts', watched⟩, met⟩ := by
  have hafter : Act.block.after ⟨⟨parts, watched⟩, met⟩ ⟨name, links⟩ =
      ⟨⟨parts', watched⟩, met⟩ := by
    rw [Act.block, Act.after_each_drawn, h.2]
  exact hafter ▸ .single ⟨hdevice, Act.allowed_each_drawn.mpr h.1⟩

/-- The blocks for some parts, one after another. -/
theorem executes_blocks {before rest : List Part} {watched : List OutputName} {met : List String}
    (hnames : ((before ++ rest).map Part.name).Nodup)
    (hparts : ∀ part ∈ rest, part.ports.Nodup ∧ ∀ inlet ∈ part.inlets, ∃ output,
      inlet.driver = some output ∧ (⟨before ++ rest, watched⟩ : Schematic).HasOutput output) :
    Act.block.Executes ⟨⟨before ++ rest.map Part.bare, watched⟩, met⟩ (blocksOf rest)
      ⟨⟨before ++ rest, watched⟩, met⟩ := by
  induction rest generalizing before with
  | nil => exact .nil _
  | cons part rest ih =>
    obtain ⟨⟨hports, hdriven⟩, hrest⟩ := List.forall_mem_cons.mp hparts
    rw [List.append_cons] at hnames hrest
    have hnext := ih hnames hrest
    rw [← List.append_cons, ← List.append_cons] at hnext
    have hpart : Act.block.Executes ⟨⟨before ++ part.bare :: rest.map Part.bare, watched⟩, met⟩
        (blocksOf [part]) ⟨⟨before ++ part :: rest.map Part.bare, watched⟩, met⟩ := by
      by_cases hempty : part.inlets = []
      · rw [blocksOf, List.filter_cons_of_neg (by simpa using hempty), Part.bare_of_nil hempty]
        exact .nil _
      · have hnames' : ((before ++ part.bare :: rest.map Part.bare).map Part.name).Nodup := by
          simpa [Function.comp_def] using hnames
        rw [blocksOf, List.filter_cons_of_pos (by simpa using hempty)]
        refine executes_block ?_ ?_
        · exact Option.isSome_iff_exists.mpr
            ⟨part.bare, find?_middle (not_mem_of_nodup_middle hnames').1 rfl⟩
        · rw [Part.bare_eq_upTo]
          refine executes_links rfl (by simpa using hnames') hports fun inlet hinlet ↦ ?_
          refine (hdriven inlet hinlet).imp fun output ↦ .imp_right (hasOutput_of_faces ?_)
          simp [Part.face, Function.comp_def, Part.bare]
    have hblocks : blocksOf (part :: rest) = blocksOf [part] ++ blocksOf rest := by
      rw [blocksOf, blocksOf, blocksOf, ← List.map_append, ← List.filter_append]
      rfl
    rw [hblocks]
    exact hpart.append hnext

theorem executes_marks {parts : List Part} {watched outputs : List OutputName}
    (honce : (watched ++ outputs).Nodup)
    (hthere : ∀ output ∈ outputs, (⟨parts, []⟩ : Schematic).HasOutput output) :
    Act.mark.Executes ⟨parts, watched⟩ outputs ⟨parts, watched ++ outputs⟩ := by
  induction outputs generalizing watched with
  | nil =>
    rw [List.append_nil]
    exact .nil _
  | cons output outputs ih =>
    obtain ⟨houtput, hrest⟩ := List.forall_mem_cons.mp hthere
    have hallowed : Act.mark.allowed ⟨parts, watched⟩ output := by
      refine ⟨houtput, fun hmem ↦ ?_⟩
      exact (List.nodup_append.mp honce).2.2 _ hmem _ List.mem_cons_self rfl
    rw [List.append_cons] at honce ⊢
    exact .cons hallowed (ih honce hrest)

/-! ### Finished schematics -/

namespace Schematic

/-- A schematic of a circuit that is finished: it makes sense, its names are identifiers, every part
that needs inputs has them, every input has an output drawn to it, and no half-period is too great
to be written. -/
structure Complete (s : Schematic) : Prop where
  coherent : s.Coherent
  named : ∀ part ∈ s.parts, IsIdentifier part.name
  inputs : s.HasInputs
  connected : s.IsConnected
  writable : ∀ part ∈ s.parts, ∀ cycles, part.component = .clock cycles →
    cycles ≤ Text.maxNumber

/-- The demand to watch some outputs, if there are any. -/
def demand : List OutputName → List Watch
  | [] => []
  | first :: more => [⟨first, more⟩]

/-- The script that says of a schematic what it is. -/
def script (s : Schematic) : Script :=
  [.devices (s.parts.flatMap Part.sentences), .connections (blocksOf s.parts),
    .monitor (demand s.watched)]

theorem inOrder_script (s : Schematic) : s.script.InOrder where
  proper part hpart := by
    simp only [script, List.mem_cons, List.not_mem_nil, or_false] at hpart
    rcases hpart with rfl | rfl | rfl
    · trivial
    · intro block hblock link hlink
      obtain ⟨part, -, rfl⟩ := List.mem_map.mp hblock
      obtain ⟨inlet, -, hdriver⟩ := List.mem_filterMap.mp hlink
      obtain ⟨output, -, rfl⟩ := Option.map_eq_some_iff.mp hdriver
      rfl
    · trivial
  first := rfl
  distinct := by
    have hheadings : [Heading.devices, .connections, .monitor].Nodup := by decide
    exact hheadings
  connections := by simp [script, Section.heading]

theorem Complete.finished (hs : s.Complete) (hpart : part ∈ s.parts) : part.Finished :=
  ⟨(hs.coherent.fits part hpart).shaped, (hs.coherent.fits part hpart).clock,
    hs.inputs part hpart⟩

/-- The inputs of a part are those of its kind, or so many inputs of a gate. -/
theorem ports_of_shaped (h : part.Shaped) :
    part.ports = firstInputNames part.component.kind ∨
      ∃ count ≤ 16, part.ports = inputNames count := by
  rw [Part.Shaped] at h
  split at h
  iterate 4
    · rcases h with hnone | ⟨count, -, hle, hports⟩
      · exact .inr ⟨0, Nat.zero_le _, hnone⟩
      · exact .inr ⟨count, hle, hports⟩
  · exact .inl h

theorem forall_ports {p : List String → Prop} (hfirst : ∀ kind ∈ Kind.all, p (firstInputNames kind))
    (hinputs : ∀ count ≤ 16, p (inputNames count)) (h : part.Shaped) : p part.ports := by
  rcases ports_of_shaped h with hports | ⟨count, hle, hports⟩
  · exact hports ▸ hfirst _ (Attempt.mem_all_kinds _)
  · exact hports ▸ hinputs count hle

/-- The inputs of a part have names of their own. -/
theorem nodup_ports (h : part.Shaped) : part.ports.Nodup :=
  forall_ports (by decide) (by decide) h

/-- The names of inputs are identifiers. -/
theorem isIdentifier_of_mem_ports (h : part.Shaped) : ∀ port ∈ part.ports, IsIdentifier port :=
  forall_ports (p := fun ports ↦ ∀ port ∈ ports, IsIdentifier port) (by decide) (by decide) h

theorem Complete.driven (hs : s.Complete) (hpart : part ∈ s.parts) :
    ∀ inlet ∈ part.inlets, ∃ output, inlet.driver = some output ∧ s.HasOutput output := by
  intro inlet hinlet
  obtain ⟨output, hdriver⟩ := Option.ne_none_iff_exists'.mp (hs.connected part hpart inlet hinlet)
  exact ⟨output, hdriver, (hs.coherent.fits part hpart).driven inlet hinlet output hdriver⟩

theorem executes_part {d d' : Draft} {part : Section} (hallowed : Act.body.allowed d part)
    (hafter : Act.body.after d part = d') (hclose : d'.schematic.MayClose part.heading) :
    Act.part.Executes d [part] d' := by
  subst hafter
  exact .single ⟨hallowed, hclose⟩

theorem executes_demand {outputs : List OutputName} {d : Draft} {s' : Schematic}
    (h : Act.mark.Executes d.schematic outputs s') :
    Act.watch.Executes d (demand outputs) { d with schematic := s' } := by
  cases outputs with
  | nil =>
    obtain ⟨-, rfl⟩ := h
    exact .nil d
  | cons first more =>
    have hafter : Act.watch.after d ⟨first, more⟩ = { d with schematic := s' } := by
      rw [Act.watch, Act.after_each_drawn, Watch.outputs, h.2]
    exact hafter ▸ .single (Act.allowed_each_drawn.mpr h.1)

/-- The script of a finished schematic is allowed and comes to the schematic. -/
theorem Complete.executes_script (hs : s.Complete) :
    ∃ met, Act.part.Executes {} s.script ⟨s, met⟩ := by
  have hnames := hs.coherent.distinct
  have hfinished : ∀ part ∈ s.parts, part.Finished := fun _ ↦ hs.finished
  have hsentences : Act.sentence.Executes {} (s.parts.flatMap Part.sentences)
      ⟨s.parts.map Part.bare, []⟩ := executes_allSentences hnames hfinished
  obtain ⟨met, hdevices⟩ := executes_introduce hsentences ({} : Draft).met
  have hinputs : (⟨s.parts.map Part.bare, []⟩ : Schematic).HasInputs := by
    intro bare hbare hswitch hclock
    obtain ⟨part, hpart, rfl⟩ := List.mem_map.mp hbare
    have hne := hs.inputs part hpart hswitch hclock
    simpa [Part.bare, openInlets, Part.ports] using hne
  have hblocks : Act.block.Executes ⟨⟨s.parts.map Part.bare, []⟩, met⟩ (blocksOf s.parts)
      ⟨⟨s.parts, []⟩, met⟩ := by
    change Act.block.Executes ⟨⟨[] ++ s.parts.map Part.bare, []⟩, met⟩ (blocksOf s.parts)
      ⟨⟨[] ++ s.parts, []⟩, met⟩
    refine executes_blocks hnames fun part hpart ↦ ⟨nodup_ports (hfinished part hpart).shaped,
      fun inlet hinlet ↦ ?_⟩
    exact (hs.driven hpart inlet hinlet).imp fun _ h ↦ h
  have hmarks : Act.mark.Executes ⟨s.parts, []⟩ s.watched s :=
    executes_marks hs.coherent.once hs.coherent.there
  have hdemand : Act.watch.Executes ⟨⟨s.parts, []⟩, met⟩ (demand s.watched) ⟨s, met⟩ :=
    executes_demand hmarks
  have hfirst : Act.part.Executes {} [.devices (s.parts.flatMap Part.sentences)]
      ⟨⟨s.parts.map Part.bare, []⟩, met⟩ := executes_part hdevices.1 hdevices.2 hinputs
  have hsecond : Act.part.Executes ⟨⟨s.parts.map Part.bare, []⟩, met⟩
      [.connections (blocksOf s.parts)] ⟨⟨s.parts, []⟩, met⟩ :=
    executes_part hblocks.1 hblocks.2 hs.connected
  have hthird : Act.part.Executes ⟨⟨s.parts, []⟩, met⟩ [.monitor (demand s.watched)] ⟨s, met⟩ :=
    executes_part hdemand.1 hdemand.2 trivial
  exact ⟨met, hfirst.append (hsecond.append hthird)⟩

end Schematic

end Breadboard.Description
