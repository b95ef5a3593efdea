import Breadboard.Proofs.Description.Acceptance
import Breadboard.Proofs.Description.SchematicScript
import Breadboard.Proofs.Description.Writing

/-!
# Schematics rendered as text

A finished schematic is rendered as the text of its script. The text denotes the schematic
(`denotes_render`), so what it is read as is the circuit of the schematic (`load_render`).
-/

set_option autoImplicit false
set_option relaxedAutoImplicit false

namespace Breadboard.Description

variable {s : Schematic} {part : Part} {name : String}

/-! ### The text of a schematic -/

/-- The symbols of what is said of a device, in the form that a rendering uses. -/
def clauseSymbols : Clause → List Symbol
  | .define kind => [.keyword .is, .name kind.keyword]
  | .inputs count => [.keyword .has, .sign (.number count)]
  | .halfPeriod cycles => [.keyword .has, .keyword .cycle, .sign (.number cycles)]
  | .level level => [.keyword .set, .sign (.number level.toNat)]

/-- The symbols of a sentence. -/
def Sentence.symbols (sentence : Sentence) : List Symbol :=
  sentence.names.symbols ++ clauseSymbols sentence.clause ++ [.sign .semicolon]

/-- The symbols of a section. -/
def Section.symbols (part : Section) : List Symbol :=
  [.sign (.heading part.heading), .sign .openBrace] ++
    (match part with
    | .devices sentences | .init sentences => sentences.flatMap Sentence.symbols
    | .connections blocks => blocks.flatMap Block.symbols
    | .monitor watches => watches.flatMap Attempt.watchSymbols) ++ [.sign .closeBrace]

theorem spelled_flatMap {α : Type} {spells : α → List Symbol → Prop} {f : α → List Symbol}
    (h : ∀ item, spells item (f item)) (items : List α) :
    Spelled spells items (items.flatMap f) := by
  induction items with
  | nil => exact .nil
  | cons item items ih => exact .cons (h item) ih

theorem clauseSpelled_symbols (clause : Clause) : ClauseSpelled clause (clauseSymbols clause) := by
  cases clause with
  | define kind => exact .define (.inl rfl) (.word (beq_self_eq_true _))
  | inputs count => exact .inputs (.inl rfl)
  | halfPeriod cycles => exact .halfPeriod (.inl rfl)
  | level level => exact .level (.inl rfl)

theorem sectionSpelled_symbols (part : Section) : SectionSpelled part part.symbols := by
  refine .intro ?_
  cases part with
  | devices sentences | init sentences =>
    exact spelled_flatMap (fun sentence ↦ .intro (clauseSpelled_symbols sentence.clause)) sentences
  | connections blocks => exact spelled_eq_iff.mpr rfl
  | monitor watches =>
    exact spelled_flatMap (fun _ ↦ Attempt.watchSpelled_iff.mpr ⟨[], .inl rfl, rfl⟩) watches

/-- The text of a schematic. -/
def Schematic.render (s : Schematic) : String :=
  String.ofList (write (s.script.flatMap Section.symbols))

/-! ### Symbols that can be written -/

/-- Every one of some symbols can be written. -/
def AllWritable (symbols : List Symbol) : Prop :=
  ∀ symbol ∈ symbols, symbol.Writable

theorem allWritable_append_iff {first second : List Symbol} :
    AllWritable (first ++ second) ↔ AllWritable first ∧ AllWritable second :=
  List.forall_mem_append

theorem allWritable_cons_iff {symbol : Symbol} {symbols : List Symbol} :
    AllWritable (symbol :: symbols) ↔ symbol.Writable ∧ AllWritable symbols :=
  List.forall_mem_cons

theorem allWritable_flatMap {α : Type} {f : α → List Symbol} {items : List α}
    (h : ∀ item ∈ items, AllWritable (f item)) : AllWritable (items.flatMap f) := by
  intro symbol hsymbol
  obtain ⟨item, hitem, hmem⟩ := List.mem_flatMap.mp hsymbol
  exact h item hitem symbol hmem

theorem allWritable_output {output : OutputName} (hs : s.Complete) (h : s.HasOutput output) :
    AllWritable output.symbols := by
  obtain ⟨device, port⟩ := output
  obtain ⟨part, hpart, hport⟩ := h
  have hdevice : IsIdentifier device := by
    have hname : part.name = device := Schematic.name_of_part? hpart
    exact hname ▸ hs.named part (Schematic.mem_of_part? hpart)
  cases port with
  | none => exact allWritable_cons_iff.mpr ⟨hdevice, nofun⟩
  | some port =>
    have hname : IsIdentifier port := by
      cases hcomponent : part.component with
      | flipFlop =>
        rw [hcomponent] at hport
        rcases hport with hq | hqbar
        · exact Option.some_inj.mp hq ▸ by decide
        · exact Option.some_inj.mp hqbar ▸ by decide
      | _ =>
        rw [hcomponent] at hport
        cases hport
    rw [OutputName.symbols]
    simp only [allWritable_cons_iff]
    exact ⟨hdevice, rfl, hname, nofun⟩

theorem allWritable_sentence {clause : Clause} (hname : IsIdentifier name)
    (hclause : AllWritable (clauseSymbols clause)) :
    AllWritable (Sentence.symbols ⟨.several name [], clause⟩) := by
  rw [Sentence.symbols, allWritable_append_iff, allWritable_append_iff]
  exact ⟨⟨allWritable_cons_iff.mpr ⟨hname, nofun⟩, hclause⟩, allWritable_cons_iff.mpr ⟨rfl, nofun⟩⟩

theorem allWritable_define (kind : Kind) : AllWritable (clauseSymbols (.define kind)) := by
  have hkinds : ∀ kind ∈ Kind.all, IsIdentifier kind.keyword := by decide
  simp only [clauseSymbols, allWritable_cons_iff]
  exact ⟨rfl, hkinds kind (Attempt.mem_all_kinds kind), nofun⟩

/-- What has to be said of a part of a finished schematic can be written. -/
theorem allWritable_settings (hs : s.Complete) (hpart : part ∈ s.parts) :
    ∀ clause ∈ part.settings, AllWritable (clauseSymbols clause) := by
  have hshaped := (hs.finished hpart).shaped
  have hlength : part.inlets.length ≤ 16 := by
    have hports := Schematic.forall_ports (p := (·.length ≤ 16)) (by decide) (by decide) hshaped
    rwa [Part.ports, List.length_map] at hports
  have hwritable := hs.writable part hpart
  intro clause hclause
  rw [Part.settings] at hclause
  split at hclause
  · cases hclause
  · cases hclause
  · cases hclause
  · cases List.mem_singleton.mp hclause
    have hle : part.inlets.length ≤ Text.maxNumber := Nat.le_trans hlength (by decide)
    exact allWritable_cons_iff.mpr
      ⟨rfl, allWritable_cons_iff.mpr ⟨⟨rfl, hle⟩, List.forall_mem_nil _⟩⟩
  · next level _ =>
    cases List.mem_singleton.mp hclause
    have hle : level.toNat ≤ Text.maxNumber := Nat.le_trans (Bool.toNat_le level) (by decide)
    exact allWritable_cons_iff.mpr
      ⟨rfl, allWritable_cons_iff.mpr ⟨⟨rfl, hle⟩, List.forall_mem_nil _⟩⟩
  · next cycles hcomponent =>
    cases List.mem_singleton.mp hclause
    have hle := hwritable cycles hcomponent
    simp only [clauseSymbols, allWritable_cons_iff]
    exact ⟨rfl, rfl, ⟨rfl, hle⟩, List.forall_mem_nil _⟩

theorem allWritable_sentences (hs : s.Complete) (hpart : part ∈ s.parts) :
    AllWritable (part.sentences.flatMap Sentence.symbols) := by
  refine allWritable_flatMap fun sentence hsentence ↦ ?_
  obtain ⟨clause, hclause, rfl⟩ := List.mem_map.mp hsentence
  refine allWritable_sentence (hs.named part hpart) ?_
  rcases List.mem_cons.mp hclause with rfl | hclause
  · exact allWritable_define _
  · exact allWritable_settings hs hpart clause hclause

theorem allWritable_block (hs : s.Complete) (hpart : part ∈ s.parts) :
    AllWritable (Block.symbols ⟨part.name, part.links⟩) := by
  have hname := hs.named part hpart
  have hlinks : AllWritable (part.links.flatMap Link.symbols) := by
    refine allWritable_flatMap fun link hlink ↦ ?_
    obtain ⟨inlet, hinlet, hdriver⟩ := List.mem_filterMap.mp hlink
    obtain ⟨output, houtput, hthere⟩ := hs.driven hpart inlet hinlet
    rw [Inlet.link?, houtput, Option.map_some, Option.some_inj] at hdriver
    have hport := Schematic.isIdentifier_of_mem_ports (hs.finished hpart).shaped inlet.port
      (List.mem_map_of_mem hinlet)
    rw [← hdriver, Link.symbols]
    simp only [allWritable_append_iff, allWritable_cons_iff]
    exact ⟨allWritable_output hs hthere, rfl, hname, rfl, hport, rfl, List.forall_mem_nil _⟩
  rw [Block.symbols]
  simp only [allWritable_append_iff, allWritable_cons_iff]
  exact ⟨⟨⟨rfl, hname, rfl, List.forall_mem_nil _⟩, hlinks⟩, rfl, List.forall_mem_nil _⟩

theorem allWritable_demand (hs : s.Complete) :
    AllWritable ((Schematic.demand s.watched).flatMap Attempt.watchSymbols) := by
  have hthere := hs.coherent.there
  cases hwatched : s.watched with
  | nil => exact List.forall_mem_nil _
  | cons first more =>
    rw [hwatched] at hthere
    obtain ⟨hfirst, hmore⟩ := List.forall_mem_cons.mp hthere
    have hrest : AllWritable (Attempt.afterComma OutputName.symbols more) :=
      allWritable_flatMap fun output houtput ↦
        allWritable_cons_iff.mpr ⟨rfl, allWritable_output hs (hmore output houtput)⟩
    rw [Schematic.demand, List.flatMap_cons, List.flatMap_nil, List.append_nil,
      Attempt.watchSymbols]
    simp only [allWritable_append_iff, allWritable_cons_iff]
    exact ⟨⟨allWritable_output hs hfirst, hrest⟩, rfl, List.forall_mem_nil _⟩

theorem allWritable_section {part : Section} {body : List Symbol} (hbody : AllWritable body) :
    AllWritable ([.sign (.heading part.heading), .sign .openBrace] ++ body ++
      [.sign .closeBrace]) := by
  simp only [allWritable_append_iff, allWritable_cons_iff]
  exact ⟨⟨⟨rfl, rfl, List.forall_mem_nil _⟩, hbody⟩, rfl, List.forall_mem_nil _⟩

theorem allWritable_script (hs : s.Complete) :
    AllWritable (s.script.flatMap Section.symbols) := by
  have hdevices : AllWritable ((s.parts.flatMap Part.sentences).flatMap Sentence.symbols) := by
    rw [List.flatMap_assoc]
    exact allWritable_flatMap fun part ↦ allWritable_sentences hs
  have hblocks : AllWritable ((blocksOf s.parts).flatMap Block.symbols) := by
    refine allWritable_flatMap fun block hblock ↦ ?_
    obtain ⟨part, hpart, rfl⟩ := List.mem_map.mp hblock
    exact allWritable_block hs (List.mem_of_mem_filter hpart)
  refine allWritable_flatMap fun part hpart ↦ ?_
  rw [Schematic.script] at hpart
  rcases List.mem_cons.mp hpart with rfl | hpart
  · exact allWritable_section hdevices
  rcases List.mem_cons.mp hpart with rfl | hpart
  · exact allWritable_section hblocks
  cases List.mem_singleton.mp hpart
  exact allWritable_section (allWritable_demand hs)

/-- The text of a finished schematic denotes the schematic. -/
theorem denotes_render (hs : s.Complete) : Denotes s.render s := by
  obtain ⟨tokens, hsymbols, htokens⟩ := exists_tokens_of_write (allWritable_script hs) {}
  obtain ⟨met, hallowed, hafter⟩ := hs.executes_script
  refine ⟨tokens, s.script, ?_, ?_, Schematic.inOrder_script s, hallowed,
    congrArg Draft.schematic hafter⟩
  · rw [Cursor.start, Schematic.render, String.toList_ofList]
    exact htokens
  · rw [hsymbols]
    exact spelled_flatMap sectionSpelled_symbols s.script

/-- The text of a finished schematic is accepted, and what is drawn of the circuit that it gives is
the schematic: the same parts in the same order, with the same switch levels, half-periods and
connections, and the same outputs watched in the same order.

Assumes: the schematic is finished. -/
theorem load_render (s : Schematic) (settings : Settings) (hs : s.Complete) :
    ∃ c, Circuit.load s.render settings = .ok c ∧ Realizes settings c s ∧ c.schematic = s := by
  obtain ⟨c, hload, hrealizes, -⟩ := load_of_denotes (denotes_render hs) settings
  exact ⟨c, hload, hrealizes, hrealizes.schematic_eq⟩

example : ({
    parts := [⟨"S", .switch Level.high, []⟩, ⟨"G", .gate .not, [⟨"I1", some ⟨"S", none⟩⟩]⟩]
    watched := [⟨"G", none⟩] } : Schematic).render =
      "devices \x7b\nS is SWITCH ;\nS set 1 ;\nG is NOT ;\n\x7d\n" ++
      "connections \x7b\ndevice G \x7b\nS to G . I1 ;\n\x7d\n\x7d\n" ++
      "monitor \x7b\nG ;\n\x7d\n" := by
  rfl

/-! ### A circuit of namesakes -/

/-- Parts that go by the names of ports and kinds, two of which feed back on themselves. -/
def namesakes : Schematic where
  parts := [
    ⟨"I1", .clock 4294967295, []⟩,
    ⟨"S", .switch Level.high, []⟩,
    ⟨"Q", .flipFlop, [⟨"CLK", some ⟨"I1", none⟩⟩, ⟨"DATA", some ⟨"Q", some "QBAR"⟩⟩,
      ⟨"SET", some ⟨"AND", none⟩⟩, ⟨"CLEAR", some ⟨"S", none⟩⟩]⟩,
    ⟨"AND", .gate .nand, [⟨"I1", some ⟨"AND", none⟩⟩, ⟨"I2", some ⟨"Q", some "Q"⟩⟩]⟩]
  watched := [⟨"Q", some "QBAR"⟩, ⟨"AND", none⟩, ⟨"I1", none⟩]

theorem coherent_namesakes : namesakes.Coherent := by
  have hclock : namesakes.HasOutput ⟨"I1", none⟩ := ⟨_, rfl, rfl⟩
  have hswitch : namesakes.HasOutput ⟨"S", none⟩ := ⟨_, rfl, rfl⟩
  have hq : namesakes.HasOutput ⟨"Q", some "Q"⟩ := ⟨_, rfl, .inl rfl⟩
  have hqbar : namesakes.HasOutput ⟨"Q", some "QBAR"⟩ := ⟨_, rfl, .inr rfl⟩
  have hgate : namesakes.HasOutput ⟨"AND", none⟩ := ⟨_, rfl, rfl⟩
  have hthere : ∀ output ∈ [⟨"Q", some "QBAR"⟩, ⟨"AND", none⟩, ⟨"I1", none⟩],
      namesakes.HasOutput output := by simp [hqbar, hgate, hclock]
  refine ⟨by decide, fun part hpart ↦ ?_, hthere, by decide⟩
  simp only [namesakes, List.mem_cons, List.not_mem_nil, or_false] at hpart
  rcases hpart with rfl | rfl | rfl | rfl
  · exact ⟨rfl, fun _ h ↦ Component.clock.inj h ▸ by decide, nofun⟩
  · exact ⟨rfl, nofun, nofun⟩
  · exact ⟨rfl, nofun, by simp [hclock, hqbar, hgate, hswitch]⟩
  · exact ⟨.inr ⟨2, by decide, by decide, by decide⟩, nofun, by simp [hgate, hq]⟩

theorem complete_namesakes : namesakes.Complete where
  coherent := coherent_namesakes
  named := by decide
  inputs := by simp [Schematic.HasInputs, namesakes, Component.kind]
  connected := by simp [Schematic.IsConnected, namesakes]
  writable := by simp [namesakes, Text.maxNumber]

/-- The parts of `namesakes` are told from the ports and kinds that they are named like. -/
theorem load_render_namesakes : namesakes.Complete ∧ ∃ c,
    Circuit.load namesakes.render = .ok c ∧ Realizes {} c namesakes ∧ c.schematic = namesakes :=
  ⟨complete_namesakes, load_render namesakes {} complete_namesakes⟩

end Breadboard.Description
