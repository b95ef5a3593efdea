import Breadboard.Proofs.Description.Agreement
import Breadboard.Proofs.Network.Commuting

/-!
# Descriptions with their connections in another order

Two connections that may be made one after another may be made the other way round, and lead to the
same schematic (`exchanges_link`): they are for different inputs, and a connection changes nothing
but the driver of its input. So the connections of a block may stand in any order, and so may the
blocks (`Act.Exchanges.perm`). The blocks of an accepted text can be told from its symbols
(`blocks_unique`), and when they are put in another order, each with its connections in another
order, the text gives the same circuit (`connections_in_any_order`).
-/

set_option autoImplicit false
set_option relaxedAutoImplicit false

namespace Breadboard.Description

/-! ### Statements that may be exchanged -/

namespace Act

variable {σ α : Type} {act : Act σ α} {s : σ} {items items' : List α}

/-- Whether two statements that are allowed one after another are allowed the other way round, and
leave the same behind. -/
def Exchanges (act : Act σ α) : Prop :=
  ∀ ⦃s : σ⦄ ⦃x y : α⦄, act.allowed s x → act.allowed (act.after s x) y →
    act.allowed s y ∧ act.allowed (act.after s y) x ∧
      act.after (act.after s y) x = act.after (act.after s x) y

/-- Statements that may be exchanged may stand in any order. -/
theorem Exchanges.perm (h : act.Exchanges) (hperm : items.Perm items')
    (hallowed : act.each.allowed s items) :
    act.each.allowed s items' ∧ act.each.after s items' = act.each.after s items := by
  induction hperm generalizing s with
  | nil => exact ⟨hallowed, rfl⟩
  | cons x _ ih =>
    obtain ⟨hrest, hafter⟩ := ih hallowed.2
    exact ⟨⟨hallowed.1, hrest⟩, hafter⟩
  | swap x y items =>
    obtain ⟨hy, hx, hrest⟩ := hallowed
    obtain ⟨hx', hy', hsame⟩ := h hy hx
    refine ⟨⟨hx', hy', hsame ▸ hrest⟩, ?_⟩
    exact congrArg (items.foldl act.after) hsame
  | trans _ _ ih ih' =>
    obtain ⟨hmiddle, hafter⟩ := ih hallowed
    obtain ⟨hlast, hafter'⟩ := ih' hmiddle
    exact ⟨hlast, hafter'.trans hafter⟩

/-- Lists of statements that may be exchanged may be exchanged. -/
theorem Exchanges.each (h : act.Exchanges) : act.each.Exchanges := by
  intro s items more hitems hmore
  have hboth := allowed_each_append.mpr ⟨hitems, hmore⟩
  obtain ⟨hallowed, hafter⟩ := h.perm List.perm_append_comm hboth
  rw [allowed_each_append] at hallowed
  rw [after_each_append, after_each_append] at hafter
  exact ⟨hallowed.1, hallowed.2, hafter⟩

theorem Exchanges.drawn {act : Act Schematic α} (h : act.Exchanges) : act.drawn.Exchanges := by
  intro d x y hx hy
  obtain ⟨hy', hx', hafter⟩ := h hx hy
  exact ⟨hy', hx', congrArg (Draft.mk · d.met) hafter⟩

/-- Statements one after another, each replaced by one that does the same. -/
theorem each_congr {R : α → α → Prop}
    (h : ∀ {s x y}, R x y → act.allowed s x → act.allowed s y ∧ act.after s y = act.after s x)
    (hitems : List.Forall₂ R items items') (hallowed : act.each.allowed s items) :
    act.each.allowed s items' ∧ act.each.after s items' = act.each.after s items := by
  induction hitems generalizing s with
  | nil => exact ⟨hallowed, rfl⟩
  | @cons x y items items' hxy _ ih =>
    obtain ⟨hy, hafter⟩ := h hxy hallowed.1
    obtain ⟨hrest, hsame⟩ := ih hallowed.2
    refine ⟨⟨hy, hafter.symm ▸ hrest⟩, ?_⟩
    change act.each.after (act.after s y) items' = _
    rw [hafter]
    exact hsame

end Act

/-! ### Connections -/

variable {s : Schematic} {link link' : Link} {name port : String}

theorem Part.inlet?_drive (part : Part) (input : String) (source : OutputName) :
    (part.drive input source).inlet? port = (part.inlet? port).map fun inlet ↦
      if inlet.port = input then { inlet with driver := some source } else inlet := by
  rw [inlet?, drive, List.find?_map, inlet?]
  congr 2
  funext inlet
  rw [Function.comp_apply]
  split <;> rfl

theorem Part.drive_comm {input input' : String} {source source' : OutputName} (part : Part)
    (h : input ≠ input') : (part.drive input source).drive input' source' =
      (part.drive input' source').drive input source := by
  rw [drive, drive, drive, drive, List.map_map, List.map_map]
  congr 1
  refine List.map_congr_left fun inlet _ ↦ ?_
  simp only [Function.comp_apply]
  by_cases hinput : inlet.port = input
  · simp [hinput, h]
  · by_cases hinput' : inlet.port = input'
    · simp [hinput', Ne.symm h]
    · simp [hinput, hinput']

/-- The input that a connection is for. -/
def Link.place (link : Link) : String × String :=
  (link.target, link.input)

namespace Schematic

/-- What is drawn to an input of a part, if the input is there. -/
def drawn? (s : Schematic) (place : String × String) : Option (Option OutputName) :=
  ((s.part? place.1).bind (·.inlet? place.2)).map Inlet.driver

theorem allowed_link_iff :
    Act.link.allowed s link ↔ s.HasOutput link.source ∧ s.drawn? link.place = some none := by
  refine and_congr_right fun _ ↦ ?_
  rw [drawn?, Link.place, Option.map_eq_some_iff]
  simp only [Option.bind_eq_some_iff]
  constructor
  · rintro ⟨part, inlet, hpart, hinlet, hdriver⟩
    exact ⟨inlet, ⟨part, hpart, hinlet⟩, hdriver⟩
  · rintro ⟨inlet, ⟨part, hpart, hinlet⟩, hdriver⟩
    exact ⟨part, inlet, hpart, hinlet, hdriver⟩

theorem hasOutput_link_iff {output : OutputName} :
    (Act.link.after s link).HasOutput output ↔ s.HasOutput output := by
  rw [HasOutput, HasOutput, part?_link]
  simp only [Option.map_eq_some_iff]
  constructor
  · rintro ⟨_, ⟨part, hpart, rfl⟩, houtput⟩
    refine ⟨part, hpart, ?_⟩
    split at houtput <;> exact houtput
  · rintro ⟨part, hpart, houtput⟩
    refine ⟨_, ⟨part, hpart, rfl⟩, ?_⟩
    split <;> exact houtput

/-- A connection is drawn to its input, and to no other. -/
theorem drawn?_link (s : Schematic) (link : Link) (place : String × String) :
    (Act.link.after s link).drawn? place =
      if place = link.place then (s.drawn? place).map fun _ ↦ some link.source
      else s.drawn? place := by
  obtain ⟨target, input⟩ := place
  rw [drawn?, part?_link, drawn?]
  cases hpart : s.part? target with
  | none => simp
  | some part =>
    have hname := name_of_part? hpart
    simp only [Option.map_some, Option.bind_some, hname]
    by_cases htarget : target = link.target
    · rw [if_pos htarget, Part.inlet?_drive]
      cases hinlet : part.inlet? input with
      | none => simp
      | some inlet =>
        have hport : inlet.port = input := by simpa using List.find?_some hinlet
        simp only [Option.map_some, hport, htarget, Link.place, Prod.mk.injEq, true_and]
        split <;> rfl
    · simp [htarget, Link.place]

/-- Connections to different inputs may be made in either order. -/
theorem link_comm (h : link.place ≠ link'.place) : Act.link.after (Act.link.after s link') link =
    Act.link.after (Act.link.after s link) link' := by
  simp only [Act.link, modify, List.map_map]
  congr 1
  refine List.map_congr_left fun part _ ↦ ?_
  simp only [Function.comp_apply]
  have hdrive (input : String) (source : OutputName) : (part.drive input source).name = part.name :=
    rfl
  by_cases hfirst : part.name = link.target
  · by_cases hsecond : part.name = link'.target
    · have hinput : link'.input ≠ link.input := fun hsame ↦
        h (Prod.ext (hfirst.symm.trans hsecond) hsame.symm)
      simp only [hdrive, if_pos hfirst, if_pos hsecond]
      exact part.drive_comm hinput
    · simp only [hdrive, if_pos hfirst, if_neg hsecond]
  · by_cases hsecond : part.name = link'.target
    · simp only [hdrive, if_neg hfirst, if_pos hsecond]
    · simp only [if_neg hfirst, if_neg hsecond]

end Schematic

/-- Connections may be exchanged. -/
theorem exchanges_link : Act.link.Exchanges := by
  intro s x y hx hy
  rw [Schematic.allowed_link_iff] at hx hy
  have hplace : y.place ≠ x.place := by
    intro hsame
    have hdrawn := hy.2
    rw [Schematic.drawn?_link, if_pos hsame, hsame, hx.2] at hdrawn
    cases hdrawn
  rw [Schematic.hasOutput_link_iff, Schematic.drawn?_link, if_neg hplace] at hy
  refine ⟨Schematic.allowed_link_iff.mpr hy, Schematic.allowed_link_iff.mpr ?_,
    Schematic.link_comm hplace.symm⟩
  rw [Schematic.hasOutput_link_iff, Schematic.drawn?_link, if_neg hplace.symm]
  exact hx

/-! ### Blocks -/

theorem isSome_part?_links {d : Draft} {links : List Link} :
    ((Act.link.drawn.each.after d links).schematic.part? name).isSome =
      (d.schematic.part? name).isSome := by
  induction links generalizing d with
  | nil => rfl
  | cons link links ih =>
    refine ih.trans ?_
    change ((Act.link.after d.schematic link).part? name).isSome = _
    rw [Schematic.part?_link, Option.isSome_map]

/-- Blocks may be exchanged. -/
theorem exchanges_block : Act.block.Exchanges := by
  intro d x y hx hy
  obtain ⟨hy', hx', hafter⟩ := exchanges_link.drawn.each hx.2 hy.2
  refine ⟨⟨?_, hy'⟩, ⟨?_, hx'⟩, hafter⟩
  · rw [← isSome_part?_links]
    exact hy.1
  · change ((Act.link.drawn.each.after d y.links).schematic.part? x.device).isSome = true
    rw [isSome_part?_links]
    exact hx.1

/-- A block with its connections in another order. -/
structure Block.Shuffled (block block' : Block) : Prop where
  device : block'.device = block.device
  links : block.links.Perm block'.links

/-- Blocks in another order, each with its connections in another order. -/
def Shuffled (blocks blocks' : List Block) : Prop :=
  ∃ middle, blocks.Perm middle ∧ List.Forall₂ Block.Shuffled middle blocks'

/-- Blocks may stand in another order, each with its connections in another order. -/
theorem Shuffled.each {blocks blocks' : List Block} (h : Shuffled blocks blocks') {d : Draft}
    (hallowed : Act.block.each.allowed d blocks) :
    Act.block.each.allowed d blocks' ∧
      Act.block.each.after d blocks' = Act.block.each.after d blocks := by
  obtain ⟨middle, hperm, hlinks⟩ := h
  obtain ⟨hmiddle, hafter⟩ := exchanges_block.perm hperm hallowed
  have hblock {d : Draft} {x y : Block} (hxy : x.Shuffled y) (hx : Act.block.allowed d x) :
      Act.block.allowed d y ∧ Act.block.after d y = Act.block.after d x := by
    obtain ⟨hlinks, hsame⟩ := exchanges_link.drawn.perm hxy.links hx.2
    exact ⟨⟨hxy.device ▸ hx.1, hlinks⟩, hsame⟩
  obtain ⟨hlast, hafter'⟩ := Act.each_congr hblock hlinks hmiddle
  exact ⟨hlast, hafter'.trans hafter⟩

theorem Shuffled.proper {blocks blocks' : List Block} (h : Shuffled blocks blocks')
    (hproper : (Section.connections blocks).Proper) : (Section.connections blocks').Proper := by
  obtain ⟨middle, hperm, hlinks⟩ := h
  intro block' hblock' link hlink
  obtain ⟨block, hblock, hshuffled⟩ := exists_of_mem_right hlinks hblock'
  rw [hshuffled.device]
  exact hproper block (hperm.mem_iff.mpr hblock) link (hshuffled.links.mem_iff.mpr hlink)

/-! ### The blocks of a text -/

/-- Items are told from their symbols up to a closing brace, if none of them begins with one and
each is told from its own. -/
theorem items_unique {α : Type} {symbols : α → List Symbol} {items items' : List α}
    {more more' : List Symbol}
    (hbrace : ∀ {item u v}, symbols item ++ u ≠ .sign .closeBrace :: v)
    (hitem : ∀ {item item' u v}, symbols item ++ u = symbols item' ++ v → item = item' ∧ u = v)
    (h : items.flatMap symbols ++ .sign .closeBrace :: more =
      items'.flatMap symbols ++ .sign .closeBrace :: more') : items = items' ∧ more = more' := by
  induction items generalizing items' with
  | nil =>
    cases items' with
    | nil => exact ⟨rfl, (List.cons.inj h).2⟩
    | cons item' items' =>
      rw [List.flatMap_cons, List.append_assoc] at h
      exact absurd h.symm hbrace
  | cons item items ih =>
    rw [List.flatMap_cons, List.append_assoc] at h
    cases items' with
    | nil => exact absurd h hbrace
    | cons item' items' =>
      rw [List.flatMap_cons, List.append_assoc] at h
      obtain ⟨rfl, hrest⟩ := hitem h
      obtain ⟨rfl, rfl⟩ := ih hrest
      exact ⟨rfl, rfl⟩

theorem Link.unique {u v : List Symbol} (h : link.symbols ++ u = link'.symbols ++ v) :
    link = link' ∧ u = v := by
  obtain ⟨front, hfront, hinside⟩ := link'.exists_front
  have hsame : link.symbols = link'.symbols := by
    rw [hfront, List.append_assoc] at h
    rw [hfront, Link.symbols_eq_of_front hinside h]
  exact ⟨Link.symbols_injective hsame, List.append_cancel_left (hsame ▸ h)⟩

theorem Block.unique {block block' : Block} {u v : List Symbol}
    (h : block.symbols ++ u = block'.symbols ++ v) : block = block' ∧ u = v := by
  obtain ⟨device, links⟩ := block
  obtain ⟨device', links'⟩ := block'
  simp only [Block.symbols, List.append_assoc, List.cons_append, List.nil_append, List.cons.injEq,
    true_and] at h
  obtain ⟨hdevice, h⟩ := h
  have hbrace {link : Link} {u v : List Symbol} : link.symbols ++ u ≠ .sign .closeBrace :: v := by
    intro hlink
    obtain ⟨⟨device, _ | port⟩, target, input⟩ := link
    · cases hlink
    · cases hlink
  obtain ⟨rfl, rfl⟩ := items_unique hbrace Link.unique h
  exact ⟨Block.mk.injEq .. ▸ ⟨congrArg Symbol.text hdevice, rfl⟩, rfl⟩

/-- The blocks of a `connections` section are told from its symbols. -/
theorem blocks_unique {blocks blocks' : List Block} {more more' : List Symbol}
    (h : blocks.flatMap Block.symbols ++ .sign .closeBrace :: more =
      blocks'.flatMap Block.symbols ++ .sign .closeBrace :: more') :
    blocks = blocks' ∧ more = more' := by
  have hbrace {block : Block} {u v : List Symbol} : block.symbols ++ u ≠ .sign .closeBrace :: v :=
    nofun
  exact items_unique hbrace Block.unique h

/-! ### Connections in any order -/

/-- The symbols of a `connections` section. -/
def connectionsSymbols (blocks : List Block) : List Symbol :=
  sectionSymbols .connections (blocks.flatMap Block.symbols)

theorem sectionSpelled_connections (blocks : List Block) :
    SectionSpelled (.connections blocks) (connectionsSymbols blocks) :=
  .intro (spelled_eq_iff.mpr rfl)

/-- A section in the place of another of its kind. -/
theorem Script.InOrder.replace {before after : Script} {part part' : Section}
    (h : Script.InOrder (before ++ part :: after)) (hheading : part'.heading = part.heading)
    (hproper : part'.Proper) : Script.InOrder (before ++ part' :: after) := by
  have hheadings : (before ++ part' :: after).map Section.heading =
      (before ++ part :: after).map Section.heading := by
    simp [hheading]
  refine ⟨fun other hother ↦ ?_, hheadings ▸ h.first, hheadings ▸ h.distinct,
    hheadings ▸ h.connections⟩
  rcases List.mem_append.mp hother with hbefore | hlater
  · exact h.proper other (List.mem_append_left _ hbefore)
  rcases List.mem_cons.mp hlater with rfl | hafter
  · exact hproper
  · exact h.proper other (List.mem_append_right _ (List.mem_cons_of_mem part hafter))

/-- A script with its connections in another order is allowed as well, and leaves the same
behind. -/
theorem Shuffled.script {blocks blocks' : List Block} (h : Shuffled blocks blocks')
    {before after : Script} {d : Draft}
    (hallowed : Act.script.allowed d (before ++ .connections blocks :: after)) :
    Act.script.allowed d (before ++ .connections blocks' :: after) ∧
      Act.script.after d (before ++ .connections blocks' :: after) =
        Act.script.after d (before ++ .connections blocks :: after) := by
  obtain ⟨hbefore, ⟨hblocks, hclose⟩, hafter⟩ := Act.allowed_each_append.mp hallowed
  obtain ⟨hblocks', hsame⟩ := h.each hblocks
  have hpart : Act.part.after (Act.script.after d before) (.connections blocks') =
      Act.part.after (Act.script.after d before) (.connections blocks) := hsame
  refine ⟨Act.allowed_each_append.mpr ⟨hbefore, ⟨hblocks', ?_⟩, ?_⟩, ?_⟩
  · exact congrArg Draft.schematic hsame ▸ hclose
  · exact hpart ▸ hafter
  · rw [Act.script, Act.after_each_append, Act.after_each_append]
    exact congrArg (after.foldl Act.part.after) hpart

/-- A text that is accepted, and any text with the same symbols but for its blocks in another order,
each with its connections in another order, give the same circuit. -/
theorem load_shuffled {text text' : String} {settings : Settings} {c : Circuit}
    {front more : List Symbol} {blocks blocks' : List Block}
    (h : Circuit.load text settings = .ok c)
    (hscans : Scans text (front ++ connectionsSymbols blocks ++ more))
    (hscans' : Scans text' (front ++ connectionsSymbols blocks' ++ more))
    (hshuffled : Shuffled blocks blocks') : Circuit.load text' settings = .ok c := by
  obtain ⟨script, hsaid⟩ := exists_says_of_load h
  have hfront : front ++ connectionsSymbols blocks ++ more =
      front ++ .sign (.heading .connections) :: .sign .openBrace ::
        (blocks.flatMap Block.symbols ++ .sign .closeBrace :: more) := by
    simp [connectionsSymbols, sectionSymbols]
  have hplace := hscans
  rw [hfront] at hplace
  obtain ⟨sentences, before, part, after, used, u, body, more', rfl, hheading, rfl, hdevices,
    hbefore, hbody, hrest, hafter⟩ := hsaid.exists_section (by decide) hplace
  cases part with
  | connections blocks₀ =>
    obtain rfl := spelled_eq_iff.mp hbody
    obtain ⟨rfl, rfl⟩ := blocks_unique (List.cons.inj hrest).2
    have hspelled (blocks : List Block) :
        ScriptSpelled (before ++ .connections blocks :: after)
          (u ++ (connectionsSymbols blocks ++ more)) :=
      hbefore.append (.cons (sectionSpelled_connections blocks) hafter)
    have hscript : Act.script.allowed {}
        ((.devices sentences :: before) ++ .connections blocks :: after) := hsaid.allowed
    have hinOrder : Script.InOrder
        ((.devices sentences :: before) ++ .connections blocks :: after) := hsaid.inOrder
    obtain ⟨hallowed, hsame⟩ := hshuffled.script hscript
    have hproper := hshuffled.proper (hsaid.inOrder.proper (.connections blocks) (by simp))
    have haccepted : Accepted text sentences (before ++ .connections blocks :: after) used _ :=
      ⟨by simpa using hscans, hdevices, hspelled blocks, hsaid.inOrder, hsaid.allowed⟩
    have haccepted' : Accepted text' sentences (before ++ .connections blocks' :: after) used _ :=
      ⟨by simpa using hscans', hdevices, hspelled blocks',
        hinOrder.replace rfl hproper, hallowed⟩
    rw [(haccepted.sameBuild_of_devices haccepted' (congrArg Draft.schematic hsame)).load, h]
  | _ => cases hheading

/-- An accepted text has a `connections` section. -/
theorem exists_scans_connections {text : String} {settings : Settings} {c : Circuit}
    (h : Circuit.load text settings = .ok c) :
    ∃ front blocks more, Scans text (front ++ connectionsSymbols blocks ++ more) := by
  obtain ⟨script, hsaid⟩ := exists_says_of_load h
  obtain ⟨symbols, hscans, hspelled⟩ := hsaid.spelled
  obtain ⟨part, hpart, hheading⟩ := List.mem_map.mp hsaid.inOrder.connections
  obtain ⟨before, after, rfl⟩ := List.append_of_mem hpart
  obtain ⟨front, later, rfl, -, hlater⟩ := exists_of_spelled_append hspelled
  cases hlater with
  | @cons _ _ used more hused _ =>
    cases hused with | @intro body hbody =>
    cases part with
    | connections blocks =>
      obtain rfl := spelled_eq_iff.mp hbody
      refine ⟨front, blocks, more, ?_⟩
      rw [List.append_assoc]
      exact hscans
    | _ => cases hheading

/-- Connections may be made in any order.

Requests for different inputs have the outcomes that they have by themselves, in whatever order they
are made, and lead to the same network. Of any requests at most one for each input is granted, and
that input keeps its driver; a request that is refused leaves the network as it is. So an accepted
text gives the same circuit when its blocks stand in another order, each with its connections in
another order. -/
theorem connections_in_any_order :
    (∀ (n : Network) (ws vs : List Wire), (ws.map Wire.place).Nodup → ws.Perm vs →
      (n.wireAll ws).1 = ws.map n.outcome ∧ (n.wireAll vs).1 = vs.map n.outcome ∧
        (n.wireAll vs).2 = (n.wireAll ws).2) ∧
    (∀ (n : Network) (ws : List Wire), n.Granted ws) ∧
    (∀ (n : Network) (w : Wire), n.outcome w ≠ .ok () → n.wire w = n) ∧
    ∀ (text : String) (settings : Settings) (c : Circuit), Circuit.load text settings = .ok c →
      (∃ front blocks more, Scans text (front ++ connectionsSymbols blocks ++ more)) ∧
      ∀ front blocks blocks' more text', Shuffled blocks blocks' →
        Scans text (front ++ connectionsSymbols blocks ++ more) →
        Scans text' (front ++ connectionsSymbols blocks' ++ more) →
          Circuit.load text' settings = .ok c := by
  refine ⟨fun n ws vs hplaces hperm ↦ ⟨Network.wireAll_of_nodup hplaces, ?_, ?_⟩,
    Network.granted_wireAll, fun n w ↦ Network.wire_of_refused, fun text settings c h ↦
    ⟨exists_scans_connections h, fun front blocks blocks' more text' hshuffled hscans hscans' ↦
      load_shuffled h hscans hscans' hshuffled⟩⟩
  · exact Network.wireAll_of_nodup ((hperm.map Wire.place).nodup_iff.mp hplaces)
  · rw [Network.wireAll_snd, Network.wireAll_snd, Network.foldl_wire_perm hplaces hperm]

/-- A switch and a gate with two inputs. -/
def openGate : Network :=
  .built [.addDevice 22 .switch, .addDevice 23 (.gate .and), .addInputs 23 2]

/-- Requests for both inputs of the gate, one of them to its own output, and for an input of a
switch. -/
def gateWires : List Wire :=
  [⟨⟨22, none⟩, 23, 0⟩, ⟨⟨23, none⟩, 23, 1⟩, ⟨⟨23, none⟩, 22, 0⟩]

/-- Requests for one input. -/
def rivalWires : List Wire :=
  [⟨⟨24, none⟩, 23, 0⟩, ⟨⟨23, none⟩, 23, 0⟩, ⟨⟨22, none⟩, 23, 0⟩]

/-- A switch, inverted and not, under a gate. -/
def gatedInverter : String :=
  "devices \x7b A is SWITCH; N is NOT; G is AND; G has 2 inputs; \x7d connections \x7b " ++
  "device N \x7b A to N.I1; \x7d device G \x7b A to G.I1; N to G.I2; \x7d \x7d monitor \x7b G; \x7d"

/-- The same with its blocks in another order, and the connections in one of them. -/
def gatedInverterShuffled : String :=
  "devices \x7b A is SWITCH; N is NOT; G is AND; G has 2 inputs; \x7d connections \x7b " ++
  "device G \x7b N to G.I2; A to G.I1; \x7d device N \x7b A to N.I1; \x7d \x7d monitor \x7b G; \x7d"

/-- The symbols in front of the connections. -/
def gatedInverterParts : List Symbol :=
  [.sign (.heading .devices), .sign .openBrace, .name "A", .keyword .is, .name "SWITCH",
    .sign .semicolon, .name "N", .keyword .is, .name "NOT", .sign .semicolon, .name "G",
    .keyword .is, .name "AND", .sign .semicolon, .name "G", .keyword .has, .sign (.number 2),
    .sign .semicolon, .sign .closeBrace]

/-- The block of the inverter. -/
def inverterBlock : Block :=
  ⟨"N", [⟨⟨"A", none⟩, "N", "I1"⟩]⟩

/-- The block of the gate, with its connections in either order. -/
def gateBlock (swapped : Bool) : Block :=
  ⟨"G", if swapped then [⟨⟨"N", none⟩, "G", "I2"⟩, ⟨⟨"A", none⟩, "G", "I1"⟩]
    else [⟨⟨"A", none⟩, "G", "I1"⟩, ⟨⟨"N", none⟩, "G", "I2"⟩]⟩

theorem shuffled_gatedInverter :
    Shuffled [inverterBlock, gateBlock false] [gateBlock true, inverterBlock] :=
  ⟨[gateBlock false, inverterBlock], .swap .., .cons ⟨rfl, .swap ..⟩ (.cons ⟨rfl, .rfl⟩ .nil)⟩

theorem gate_in_any_order :
    ((openGate.wireAll gateWires).1 = [.ok (), .ok (), .error .notAnInput] ∧
      (openGate.wireAll gateWires.reverse).1 = [.error .notAnInput, .ok (), .ok ()] ∧
      (openGate.wireAll gateWires.reverse).2 = (openGate.wireAll gateWires).2) ∧
    ((openGate.wireAll rivalWires).1 =
        [.error .deviceAbsent, .ok (), .error .inputConnected] ∧
      (openGate.wireAll rivalWires).2.driver? 23 0 = some ⟨23, none⟩) ∧
    openGate.wire ⟨⟨24, none⟩, 23, 0⟩ = openGate ∧
    ∃ c, Circuit.load gatedInverter = .ok c ∧ Circuit.load gatedInverterShuffled = .ok c := by
  obtain ⟨horder, hrivals, hrefused, htexts⟩ := connections_in_any_order
  obtain ⟨houtcomes, houtcomes', hsame⟩ :=
    horder openGate gateWires gateWires.reverse (by decide) (List.reverse_perm gateWires).symm
  have hload : Circuit.load gatedInverter = .ok _ := load_eq_ok_iff.mpr ⟨by decide +kernel, rfl⟩
  refine ⟨⟨houtcomes.trans (by decide), houtcomes'.trans (by decide), hsame⟩,
    ⟨by decide, (hrivals openGate rivalWires).driven ⟨⟨23, none⟩, 23, 0⟩ (by decide)⟩,
    hrefused openGate _ (by decide), _, hload, ?_⟩
  exact (htexts _ _ _ hload).2 gatedInverterParts _ _
    [.sign (.heading .monitor), .sign .openBrace, .name "G", .sign .semicolon, .sign .closeBrace]
    _ shuffled_gatedInverter (by decide +kernel) (by decide +kernel)

end Breadboard.Description
