import Breadboard.Proofs.Description.Rewording

/-!
# Devices renamed in a script

A script with its devices renamed is spelled by the symbols of the script with their devices renamed
(`ScriptSpelled.renamed`): a name stands for a device in the symbols exactly where the grammar has
the name of a device. Each form of the grammar begins where a device may be named and ends where one
may be named again, so what holds of the forms one by one holds of them one after another
(`Rewords`).
-/

set_option autoImplicit false
set_option relaxedAutoImplicit false

namespace Breadboard.Description

/-! ### Renamed scripts -/

section Renamed

variable (rename : String → String)

/-- A list of names with its devices renamed. -/
def NameList.renamed : NameList → NameList
  | .several first more => .several (rename first) (more.map rename)
  | .range first last => .range (rename first) (rename last)

/-- A sentence with its devices renamed. -/
def Sentence.renamed (sentence : Sentence) : Sentence :=
  ⟨sentence.names.renamed rename, sentence.clause⟩

/-- An output with its device renamed. -/
def OutputName.renamed (output : OutputName) : OutputName :=
  ⟨rename output.device, output.port⟩

/-- A connection with its devices renamed. -/
def Link.renamed (link : Link) : Link :=
  ⟨link.source.renamed rename, rename link.target, link.input⟩

/-- A block with its devices renamed. -/
def Block.renamed (block : Block) : Block :=
  ⟨rename block.device, block.links.map (Link.renamed rename)⟩

/-- A demand with its devices renamed. -/
def Watch.renamed (watch : Watch) : Watch :=
  ⟨watch.first.renamed rename, watch.more.map (OutputName.renamed rename)⟩

/-- A section with its devices renamed. -/
def Section.renamed : Section → Section
  | .devices sentences => .devices (sentences.map (Sentence.renamed rename))
  | .init sentences => .init (sentences.map (Sentence.renamed rename))
  | .connections blocks => .connections (blocks.map (Block.renamed rename))
  | .monitor watches => .monitor (watches.map (Watch.renamed rename))

end Renamed

/-! ### The devices that are named -/

/-- The devices that a connection names. -/
def Link.devices (link : Link) : List String :=
  [link.source.device, link.target]

/-- The devices that a block names. -/
def Block.devices (block : Block) : List String :=
  block.device :: block.links.flatMap Link.devices

/-- The devices that a demand names. -/
def Watch.devices (watch : Watch) : List String :=
  watch.outputs.map OutputName.device

/-- The devices that a section names. -/
def Section.devicesNamed : Section → List String
  | .devices sentences | .init sentences => sentences.flatMap (·.names.written)
  | .connections blocks => blocks.flatMap Block.devices
  | .monitor watches => watches.flatMap Watch.devices

/-! ### Symbols between two places for a device -/

/-- What some symbols are with their devices renamed, and the names of their devices. A name in
front of them would stand for a device, and so does a name behind them. -/
structure Rewords (rename : String → String) (used used' : List Symbol) (names : List String) :
    Prop where
  symbols (more : List Symbol) : renamedSymbols rename true (used ++ more) =
    used' ++ renamedSymbols rename true more
  names (more : List Symbol) : deviceNames true (used ++ more) = names ++ deviceNames true more

variable {rename : String → String} {used used' more more' : List Symbol}
  {names names' : List String}

theorem Rewords.append (h : Rewords rename used used' names)
    (h' : Rewords rename more more' names') :
    Rewords rename (used ++ more) (used' ++ more') (names ++ names') where
  symbols rest := by
    rw [List.append_assoc, h.symbols, h'.symbols, List.append_assoc]
  names rest := by
    rw [List.append_assoc, h.names, h'.names, List.append_assoc]

theorem rewords_nil : Rewords rename [] [] [] :=
  ⟨fun _ ↦ rfl, fun _ ↦ rfl⟩

/-- Items one after another. -/
theorem rewords_flatMap {α : Type} {f g : α → List Symbol} {devices : α → List String}
    (hitem : ∀ item, Rewords rename (f item) (g item) (devices item)) (items : List α) :
    Rewords rename (items.flatMap f) (items.flatMap g) (items.flatMap devices) := by
  induction items with
  | nil => exact rewords_nil
  | cons item items ih => exact (hitem item).append ih

/-- Items that are spelled one after another. -/
theorem Rewords.spelled {α : Type} {spells : α → List Symbol → Prop} {f : α → α}
    {devices : α → List String}
    (hitem : ∀ item u, spells item u →
      ∃ u', spells (f item) u' ∧ Rewords rename u u' (devices item))
    {items : List α} (h : Spelled spells items used) :
    ∃ used', Spelled spells (items.map f) used' ∧
      Rewords rename used used' (items.flatMap devices) := by
  induction h with
  | nil => exact ⟨[], .nil, rewords_nil⟩
  | cons hfirst _ ih =>
    obtain ⟨u', hfirst', hrewords⟩ := hitem _ _ hfirst
    obtain ⟨v', hmore', hrewords'⟩ := ih
    exact ⟨u' ++ v', .cons hfirst' hmore', hrewords.append hrewords'⟩

/-! ### The forms of the grammar -/

theorem rewords_symbol {symbol : Symbol} (hname : symbol.lexeme ≠ .name)
    (hdevice : symbol.lexeme.precedesDevice = true) : Rewords rename [symbol] [symbol] [] := by
  have hnone : ¬ (true ∧ symbol.lexeme = .name) := fun h ↦ hname h.2
  refine ⟨fun more ↦ ?_, fun more ↦ ?_⟩
  · rw [List.singleton_append, renamedSymbols, Symbol.renamed, if_neg hnone, hdevice]
    rfl
  · rw [List.singleton_append, deviceNames, if_neg hnone, hdevice]
    rfl

theorem rewords_names (list : NameList) :
    Rewords rename list.symbols (list.renamed rename).symbols list.written := by
  cases list with
  | several first more =>
    have hfirst : Rewords rename [.name first] [.name (rename first)] [first] :=
      ⟨fun _ ↦ rfl, fun _ ↦ rfl⟩
    have hmore : Rewords rename (more.flatMap fun other ↦ [.sign .comma, .name other])
        ((more.map rename).flatMap fun other ↦ [.sign .comma, .name other])
        (more.flatMap fun other ↦ [other]) := by
      rw [List.flatMap_map]
      exact rewords_flatMap (fun other ↦ ⟨fun _ ↦ rfl, fun _ ↦ rfl⟩) more
    rw [List.flatMap_singleton'] at hmore
    exact hfirst.append hmore
  | range first last => exact ⟨fun _ ↦ rfl, fun _ ↦ rfl⟩

/-- The words for a kind are no names of devices. -/
theorem rewords_clause {clause : Clause} (h : ClauseSpelled clause used) :
    Rewords rename used used [] := by
  cases h with
  | define hverb hkind =>
    cases hkind with
    | word => rcases hverb with rfl | rfl <;> exact ⟨fun _ ↦ rfl, fun _ ↦ rfl⟩
    | hyphened => rcases hverb with rfl | rfl <;> exact ⟨fun _ ↦ rfl, fun _ ↦ rfl⟩
  | inputs hverb => rcases hverb with rfl | rfl <;> exact ⟨fun _ ↦ rfl, fun _ ↦ rfl⟩
  | halfPeriod hverb => rcases hverb with rfl | rfl <;> exact ⟨fun _ ↦ rfl, fun _ ↦ rfl⟩
  | level hoptional => rcases hoptional with rfl | rfl <;> exact ⟨fun _ ↦ rfl, fun _ ↦ rfl⟩

theorem SentenceSpelled.renamed {sentence : Sentence} (h : SentenceSpelled sentence used)
    (rename : String → String) : ∃ used', SentenceSpelled (sentence.renamed rename) used' ∧
      Rewords rename used used' sentence.names.written := by
  obtain @⟨list, clause, u, hclause⟩ := h
  have hend : Rewords rename [.sign .semicolon] [.sign .semicolon] [] := rewords_symbol nofun rfl
  have hrewords := ((rewords_names list).append (rewords_clause hclause)).append hend
  rw [List.append_nil, List.append_nil] at hrewords
  exact ⟨_, .intro hclause, hrewords⟩

theorem rewords_output (output : OutputName) :
    Rewords rename output.symbols (output.renamed rename).symbols [output.device] := by
  obtain ⟨device, port⟩ := output
  cases port <;> exact ⟨fun _ ↦ rfl, fun _ ↦ rfl⟩

theorem rewords_link (link : Link) :
    Rewords rename link.symbols (link.renamed rename).symbols link.devices :=
  (rewords_output link.source).append ⟨fun _ ↦ rfl, fun _ ↦ rfl⟩

theorem rewords_block (block : Block) :
    Rewords rename block.symbols (block.renamed rename).symbols block.devices := by
  have hopening : Rewords rename [.keyword .device, .name block.device, .sign .openBrace]
      [.keyword .device, .name (rename block.device), .sign .openBrace] [block.device] :=
    ⟨fun _ ↦ rfl, fun _ ↦ rfl⟩
  have hend : Rewords rename [.sign .closeBrace] [.sign .closeBrace] [] := rewords_symbol nofun rfl
  have hlinks : Rewords rename (block.links.flatMap Link.symbols)
      ((block.links.map (Link.renamed rename)).flatMap Link.symbols)
      (block.links.flatMap Link.devices) := by
    rw [List.flatMap_map]
    exact rewords_flatMap rewords_link block.links
  have hrewords := (hopening.append hlinks).append hend
  rw [List.append_nil] at hrewords
  exact hrewords

theorem WatchSpelled.renamed {watch : Watch} (h : WatchSpelled watch used)
    (rename : String → String) : ∃ used', WatchSpelled (watch.renamed rename) used' ∧
      Rewords rename used used' watch.devices := by
  cases h with | @intro optional hoptional
  have htrace : Rewords rename optional optional [] := by
    rcases hoptional with rfl | rfl
    · exact rewords_nil
    · exact rewords_symbol nofun rfl
  have hother (output : OutputName) : Rewords rename (.sign .comma :: output.symbols)
      (.sign .comma :: (output.renamed rename).symbols) [output.device] := by
    have hcomma : Rewords rename [.sign .comma] [.sign .comma] [] := rewords_symbol nofun rfl
    exact hcomma.append (rewords_output output)
  have hmore : Rewords rename (watch.more.flatMap fun output ↦ .sign .comma :: output.symbols)
      ((watch.more.map (OutputName.renamed rename)).flatMap
        fun output ↦ .sign .comma :: output.symbols)
      (watch.more.flatMap fun output ↦ [output.device]) := by
    rw [List.flatMap_map]
    exact rewords_flatMap hother watch.more
  have hend : Rewords rename [.sign .semicolon] [.sign .semicolon] [] := rewords_symbol nofun rfl
  have hrewords := ((htrace.append (rewords_output watch.first)).append hmore).append hend
  rw [List.append_nil, ← List.map_eq_flatMap] at hrewords
  exact ⟨_, .intro hoptional, hrewords⟩

theorem Section.BodySpelled.renamed {part : Section} (h : part.BodySpelled used)
    (rename : String → String) : ∃ used', (part.renamed rename).BodySpelled used' ∧
      Rewords rename used used' part.devicesNamed := by
  cases part with
  | devices sentences | init sentences =>
    exact Rewords.spelled (fun _ _ hsentence ↦ hsentence.renamed rename) h
  | connections blocks =>
    obtain rfl := spelled_eq_iff.mp h
    refine ⟨_, spelled_eq_iff.mpr rfl, ?_⟩
    rw [List.flatMap_map]
    exact rewords_flatMap rewords_block blocks
  | monitor watches => exact Rewords.spelled (fun _ _ hwatch ↦ hwatch.renamed rename) h

theorem heading_renamed (rename : String → String) (part : Section) :
    (part.renamed rename).heading = part.heading := by
  cases part <;> rfl

theorem SectionSpelled.renamed {part : Section} (h : SectionSpelled part used)
    (rename : String → String) : ∃ used', SectionSpelled (part.renamed rename) used' ∧
      Rewords rename used used' part.devicesNamed := by
  cases h with | intro hbody
  obtain ⟨u', hbody', hrewords⟩ := Section.BodySpelled.renamed hbody rename
  have hopening : Rewords rename [.sign (.heading part.heading), .sign .openBrace]
      [.sign (.heading part.heading), .sign .openBrace] [] :=
    ⟨fun _ ↦ rfl, fun _ ↦ rfl⟩
  have hend : Rewords rename [.sign .closeBrace] [.sign .closeBrace] [] := rewords_symbol nofun rfl
  have hsection := SectionSpelled.intro hbody'
  rw [heading_renamed] at hsection
  have hwhole := (hopening.append hrewords).append hend
  rw [List.append_nil] at hwhole
  exact ⟨_, hsection, hwhole⟩

/-- A renamed script is spelled by the renamed symbols, and the names that stand for devices in its
symbols are those of the devices that it names. -/
theorem ScriptSpelled.renamed {script : Script} (h : ScriptSpelled script used)
    (rename : String → String) :
    ScriptSpelled (script.map (Section.renamed rename)) (renamedSymbols rename true used) ∧
      deviceNames true used = script.flatMap Section.devicesNamed := by
  obtain ⟨used', hspelled, hrewords⟩ :=
    Rewords.spelled (fun _ _ hpart ↦ SectionSpelled.renamed hpart rename) h
  have hsymbols := hrewords.symbols []
  have hnames := hrewords.names []
  rw [List.append_nil] at hsymbols hnames
  rw [hsymbols, hnames]
  simpa [renamedSymbols, deviceNames] using hspelled

end Breadboard.Description
