import Breadboard.Proofs.Description.Parallels
import Breadboard.Proofs.Description.Ranges

/-!
# What comes of a list of names

A statement is about the devices that its list of names stands for, or one of these names is
unknown, and the statement is left where the list stopped (`Naming`). This is the same for a range
(`naming_range`) and for the names of the range one after another (`naming_several`): only the order
in which the names are met is another.
-/

set_option autoImplicit false
set_option relaxedAutoImplicit false

namespace Breadboard.Description

open Text (Position)
open Attempt

variable {symbol : Symbol} {more skipped : List Symbol} {name first last : String}
  {list others met met' : List String}

/-! ### Moving on over some symbols -/

namespace Reader

variable {r s t : Reader}

/-- A reader that stands on the first of some symbols, or at the end. While names are declared, the
name that it stands on is in the table. -/
structure Faces (symbols : List Symbol) (r : Reader) : Prop where
  current : r.current.symbol = frontSymbol symbols
  coming : r.coming = symbols.tail
  known : r.mode = .declare → ∀ name, r.current.symbol = .name name → r.names.Has name

theorem Legible.faces (h : r.Legible) (hsymbols : r.symbols = symbol :: more) :
    Faces (symbol :: more) r := by
  obtain ⟨hend, hsymbol⟩ := front_of_symbols hsymbols
  refine ⟨hsymbol, ?_, fun hmode name hname ↦ ?_⟩
  · rw [symbols, hend, if_neg Bool.false_ne_true] at hsymbols
    exact (List.cons.inj hsymbols).2
  · obtain ⟨hlexeme, rfl⟩ := symbol_eq_name_iff.mp hname
    have hready : r.cleared.Ready r.mode := h
    exact hready.known hmode hlexeme

theorem Faces.lexeme {symbols : List Symbol} (h : Faces symbols r) :
    r.current.lexeme = frontLexeme symbols := by
  rw [← lexeme_frontSymbol, ← h.current]
  rfl

theorem Faces.atEnd (h : Faces (symbol :: more) r) (hinside : symbol.lexeme ≠ .endOfText) :
    r.atEnd = false := by
  rw [Reader.atEnd, h.lexeme]
  exact beq_eq_false_iff_ne.mpr hinside

/-- A reader that was moved on to some symbols and met some names on its way. -/
structure Moves (met : List String) (more : List Symbol) (r s : Reader) : Prop where
  faces : Faces more s
  mode : s.mode = r.mode
  names : s.names = r.names.meetAll r.mode met
  due : s.due = r.due

theorem Moves.trans {next : List Symbol} (h : Moves met next r s) (h' : Moves met' more s t) :
    Moves (met ++ met') more r t where
  faces := h'.faces
  mode := h'.mode.trans h.mode
  names := by rw [h'.names, h.mode, h.names, Names.meetAll_append]
  due := h'.due.trans h.due

theorem Moves.names_of_query (h : Moves met more r s) (hmode : r.mode = .query) :
    s.names = r.names := by
  rw [h.names, hmode, Names.meetAll_query]

theorem Moves.extends (h : Moves met more r s) : r.names.Extends s.names := by
  rw [h.names, ← Names.snd_resolveAll]
  exact Names.extends_resolveAll ..

theorem Faces.advance (h : Faces (symbol :: more) r) (hinside : symbol.lexeme ≠ .endOfText) :
    Moves (namesIn [frontSymbol more]) more r r.advance := by
  obtain ⟨hcurrent, hcoming, hmode, hnames⟩ := comesTo_advance (h.atEnd hinside)
  have hnext : r.coming = more := h.coming
  rw [hnext] at hcurrent hcoming hnames
  refine ⟨⟨hcurrent, hcoming, fun hdeclare name hname ↦ ?_⟩, hmode, hnames, r.due_advance⟩
  rw [hcurrent] at hname
  rw [hnames, ← hmode, hdeclare, hname, Names.has_meetAll_iff]
  exact .inr List.mem_cons_self

/-- Names, commas and arrows are no places to stop at. -/
def Passable (symbol : Symbol) : Prop :=
  symbol.lexeme ∈ [Lexeme.name, .comma, .arrow]

/-- Where a statement is skipped, the rest of its list of names is passed over. -/
theorem Faces.exists_skipped (h : Faces (skipped ++ more) r) (hmode : r.mode = .query)
    (hskipped : ∀ symbol ∈ skipped, Passable symbol) :
    ∃ s, Moves [] more r s ∧ r.skipStatement = s.skipStatement := by
  induction skipped generalizing r with
  | nil => exact ⟨r, ⟨h, rfl, rfl, rfl⟩, rfl⟩
  | cons symbol skipped ih =>
    obtain ⟨hpassable, hrest⟩ := List.forall_mem_cons.mp hskipped
    have hlexeme : r.current.lexeme ∈ [Lexeme.name, .comma, .arrow] := h.lexeme ▸ hpassable
    have hinside : symbol.lexeme ≠ .endOfText := by
      intro hend
      rw [Passable, hend] at hpassable
      exact absurd hpassable (by decide)
    have hmoves := h.advance hinside
    obtain ⟨s, hs, hskip⟩ := ih hmoves.faces (hmoves.mode.trans hmode) hrest
    have hgo : ¬(r.atEnd = true ∨
        [Anchor.semicolon, .closeBrace, .heading].any (·.isAt r.current.lexeme) = true) := by
      rw [h.atEnd hinside]
      simp only [List.mem_cons, List.not_mem_nil, or_false] at hlexeme
      rcases hlexeme with hl | hl | hl <;> rw [hl] <;> decide
    refine ⟨s, ⟨hs.faces, hs.mode.trans hmoves.mode, ?_, hs.due.trans hmoves.due⟩, ?_⟩
    · rw [hs.names_of_query (hmoves.mode.trans hmode), hmoves.names_of_query hmode]
      rfl
    · rw [skipStatement, skipTo, dif_neg hgo]
      exact hskip

end Reader

/-! ### Outcomes -/

section Naming

variable {α : Type} {id : α → NameId} {r s t : Reader} {result : Option (List α) × Reader}

/-- What reading a list of names comes to. Either each of its names has a number under which it is
yielded, or one of them is unknown, and there are symbols left that skipping passes over. -/
inductive Naming (id : α → NameId) (list met : List String) (more : List Symbol) (r : Reader) :
    Option (List α) × Reader → Prop
  | known {items : List α} {s : Reader} : r.Moves met more s →
    List.Forall₂ (fun item name ↦ s.names.string? (id item) = some name) items list →
    (r.mode = .query → ∀ name ∈ list, r.names.Has name) → Naming id list met more r (some items, s)
  | unknown {skipped : List Symbol} {name : String} {s : Reader} (position : Position) :
    r.mode = .query → name ∈ list → ¬r.names.Has name →
    (∀ symbol ∈ skipped, Reader.Passable symbol) → r.Moves [] (skipped ++ more) s →
    Naming id list met more r (none, s.file (.unknownDevice name) position)

/-- While names are only looked up, it makes no difference which of them were met. -/
theorem Reader.Moves.query (h : r.Moves met more s) (hmode : r.mode = .query) :
    r.Moves met' more s :=
  ⟨h.faces, h.mode, by rw [h.names_of_query hmode, hmode, Names.meetAll_query], h.due⟩

theorem run_deviceName (h : r.Faces (.name name :: more)) :
    (∃ mention, deviceName.run r = (some mention, r.advance) ∧ mention.text = name ∧
      r.names.string? mention.id = some name) ∨
    r.mode = .query ∧ ¬r.names.Has name ∧
      ∃ position, deviceName.run r = (none, r.file (.unknownDevice name) position) := by
  obtain ⟨hlexeme, rfl⟩ := symbol_eq_name_iff.mp h.current
  cases hquery : r.names.query r.current.text with
  | some id =>
    have hrun : deviceName.run r = (some ⟨id, r.current.text, r.current.position⟩, r.advance) := by
      rw [deviceName, knownName, run_current_bind, if_pos hlexeme, run_numberOf_bind, hquery]
      rfl
    exact .inl ⟨_, hrun, rfl, Names.string?_of_query hquery⟩
  | none =>
    have hrun : deviceName.run r =
        (none, r.file (.unknownDevice r.current.text) r.current.position) := by
      rw [deviceName, knownName, run_current_bind, if_pos hlexeme, run_numberOf_bind, hquery]
      rfl
    have hnew : ¬r.names.Has r.current.text := by
      rw [Names.has_iff_query, hquery]
      rintro ⟨_, hid⟩
      cases hid
    cases hmode : r.mode with
    | query => exact .inr ⟨rfl, hnew, _, hrun⟩
    | declare => exact absurd (h.known hmode _ h.current) hnew

/-- A list of names that is read from another place on. -/
theorem Naming.after {next : List Symbol} (h : Naming id list met' more s result)
    (hmoves : r.Moves met next s) : Naming id list (met ++ met') more r result := by
  cases h with
  | known hs hitems hknown =>
    refine .known (hmoves.trans hs) hitems fun hmode ↦ ?_
    rw [← hmoves.names_of_query hmode]
    exact hknown (hmoves.mode.trans hmode)
  | unknown position hmode hname hnew hskipped hs =>
    have hquery : r.mode = .query := hmoves.mode.symm.trans hmode
    rw [hmoves.names_of_query hquery] at hnew
    exact .unknown position hquery hname hnew hskipped ((hmoves.trans hs).query hquery)

/-- One name more in front. -/
theorem Naming.cons {item : α} (h : Naming id list met more r result)
    (hname : r.names.string? (id item) = some name) :
    Naming id (name :: list) met more r (result.1.map (item :: ·), result.2) := by
  cases h with
  | known hs hitems hknown =>
    refine .known hs (.cons (hs.extends.string? hname) hitems) fun hmode ↦ ?_
    exact List.forall_mem_cons.mpr ⟨⟨_, hname⟩, hknown hmode⟩
  | unknown position hmode hname hnew hskipped hs =>
    exact .unknown position hmode (List.mem_cons_of_mem _ hname) hnew hskipped hs

theorem passable_afterComma (others : List String) :
    ∀ symbol ∈ afterComma (fun name ↦ [.name name]) others, Reader.Passable symbol := by
  intro symbol hsymbol
  obtain ⟨name, -, hmem⟩ := List.mem_flatMap.mp hsymbol
  rcases List.mem_cons.mp hmem with rfl | hmem
  · exact List.mem_cons_of_mem _ List.mem_cons_self
  · rw [List.mem_singleton.mp hmem]
    exact List.mem_cons_self

theorem naming_commaItems
    (h : r.Faces (.name name :: (afterComma (fun name ↦ [.name name]) others ++ more)))
    (hcomma : frontLexeme more ≠ .comma) :
    Naming Mention.id others (others ++ namesIn [frontSymbol more]) more r
      (commaItems deviceName r.advance) := by
  induction others generalizing r name with
  | nil =>
    have hmoves := h.advance Lexeme.noConfusion
    rw [commaItems, dif_neg (hmoves.faces.lexeme ▸ hcomma)]
    exact .known hmoves .nil fun _ ↦ List.forall_mem_nil _
  | cons other others ih =>
    -- over the comma to the next name
    have hfirst := h.advance Lexeme.noConfusion
    have hmoves := hfirst.trans (hfirst.faces.advance Lexeme.noConfusion)
    rw [commaItems_of_comma hfirst.faces.lexeme]
    rcases run_deviceName hmoves.faces with
      ⟨mention, hrun, -, hid⟩ | ⟨hmode, hnew, position, hrun⟩
    · rw [hrun]
      exact ((ih hmoves.faces).cons hid).after hmoves
    · rw [hrun]
      have hquery : r.mode = .query := hmoves.mode.symm.trans hmode
      rw [hmoves.names_of_query hquery] at hnew
      exact .unknown position hquery List.mem_cons_self hnew
        (List.forall_mem_cons.mpr ⟨List.mem_cons_self, passable_afterComma others⟩)
        (hmoves.query hquery)

/-- What is made of the items of a list. -/
theorem Naming.map {β : Type} {id' : β → NameId} (h : Naming id list met more r result)
    {f : α → β} (hf : ∀ item, id' (f item) = id item) :
    Naming id' list met more r (result.1.map (List.map f), result.2) := by
  cases h with
  | known hs hitems hknown =>
    refine .known hs (List.forall₂_map_left_iff.mpr ?_) hknown
    exact hitems.imp fun item name hname ↦ (hf item).symm ▸ hname
  | unknown position hmode hname hnew hskipped hs =>
    exact .unknown position hmode hname hnew hskipped hs

theorem naming_several
    (h : r.Faces (.name first :: (afterComma (fun name ↦ [.name name]) others ++ more)))
    (hcomma : frontLexeme more ≠ .comma) (harrow : others = [] → frontLexeme more ≠ .arrow) :
    Naming Target.id (first :: others) (others ++ namesIn [frontSymbol more]) more r
      (targets.run r) := by
  have hmoves := h.advance Lexeme.noConfusion
  rcases run_deviceName h with ⟨mention, hrun, -, hid⟩ | ⟨hmode, hnew, position, hrun⟩
  · have hfollows : r.advance.current.lexeme ≠ .arrow := by
      rw [hmoves.faces.lexeme]
      cases others with
      | nil => exact harrow rfl
      | cons => exact Lexeme.noConfusion
    have hread : targets.run r =
        (((commaItems deviceName r.advance).1.map (mention :: ·)).map
            (List.map fun mention ↦ ⟨mention.id, mention.position⟩),
          (commaItems deviceName r.advance).2) := by
      rw [targets, run_bind, hrun]
      dsimp only
      rw [run_current_bind, if_neg hfollows, run_bind]
      have hlist : (commaList deviceName).run r.advance = commaItems deviceName r.advance := rfl
      rw [hlist]
      rcases commaItems deviceName r.advance with ⟨_ | _, _⟩ <;> rfl
    rw [hread]
    exact ((naming_commaItems h hcomma).cons hid).map fun _ ↦ rfl
  · have hread : targets.run r = (none, r.file (.unknownDevice first) position) := by
      rw [targets, run_bind, hrun]
    rw [hread]
    exact .unknown position hmode List.mem_cons_self hnew
      (List.forall_mem_cons.mpr ⟨List.mem_cons_self, passable_afterComma others⟩)
      ⟨h, rfl, rfl, rfl⟩

theorem naming_rangeTargets (h : r.Moves met more s) {first last : Mention}
    (hlist : expandRange first.text last.text = .ok list) :
    Naming Target.id list (met ++ list) more r ((rangeTargets first last).run s) := by
  have hmet : r.Moves (met ++ list) more
      { s with names := (s.names.resolveAll s.mode list).2 } := by
    refine ⟨⟨h.faces.current, h.faces.coming, fun hmode name hname ↦ ?_⟩, h.mode, ?_, h.due⟩
    · exact (Names.extends_resolveAll ..).has (h.faces.known hmode name hname)
    · rw [Names.snd_resolveAll, h.mode, h.names, Names.meetAll_append]
  have hread : (rangeTargets first last).run s =
      match (s.names.resolveAll s.mode list).1 with
      | .ok ids => (some (ids.map (⟨·, first.position⟩)),
          { s with names := (s.names.resolveAll s.mode list).2 })
      | .error name => (none, Reader.file
          { s with names := (s.names.resolveAll s.mode list).2 } (.unknownDevice name)
          first.position) := by
    rw [rangeTargets, hlist]
    dsimp only
    rw [run_resolveAll_bind]
    cases (s.names.resolveAll s.mode list).1 <;> rfl
  rw [hread]
  cases hids : (s.names.resolveAll s.mode list).1 with
  | ok ids =>
    have hitems := Names.forall₂_of_resolveAll hids
    refine .known hmet (List.forall₂_map_left_iff.mpr hitems) fun hmode name hname ↦ ?_
    obtain ⟨id, -, hid⟩ := exists_of_mem_right hitems hname
    have hsame := hmet.names_of_query hmode
    exact hsame ▸ ⟨id, hid⟩
  | error name =>
    obtain ⟨hmode, hname, hnew⟩ := Names.unknown_of_resolveAll hids
    have hquery : r.mode = .query := h.mode.symm.trans hmode
    rw [h.names_of_query hquery] at hnew
    have hnone : ∀ symbol ∈ [], Reader.Passable symbol := List.forall_mem_nil _
    exact .unknown first.position hquery hname hnew hnone (hmet.query hquery)

theorem naming_range (h : r.Faces (.name first :: .sign .arrow :: .name last :: more))
    (hlist : expandRange first last = .ok list) (hfirst : first ∈ list) (hlast : last ∈ list) :
    Naming Target.id list (last :: (namesIn [frontSymbol more] ++ list)) more r
      (targets.run r) := by
  have harrow := h.advance Lexeme.noConfusion
  have hmoves := harrow.trans (harrow.faces.advance Lexeme.noConfusion)
  rcases run_deviceName h with ⟨mention, hrun, rfl, -⟩ | ⟨hmode, hnew, position, hrun⟩
  · have hlexeme : r.advance.current.lexeme = .arrow := harrow.faces.lexeme
    have hread : targets.run r =
        (deviceName >>= rangeTargets mention).run r.advance.advance := by
      rw [targets, run_bind, hrun]
      dsimp only
      rw [run_current_bind, if_pos hlexeme]
      rfl
    rw [hread, run_bind]
    rcases run_deviceName hmoves.faces with
      ⟨other, hrun, rfl, -⟩ | ⟨hmode, hnew, position, hrun⟩
    · rw [hrun]
      exact naming_rangeTargets (hmoves.trans (hmoves.faces.advance Lexeme.noConfusion)) hlist
    · rw [hrun]
      have hquery : r.mode = .query := hmoves.mode.symm.trans hmode
      rw [hmoves.names_of_query hquery] at hnew
      exact .unknown position hquery hlast hnew
        (List.forall_mem_singleton.mpr List.mem_cons_self) (hmoves.query hquery)
  · have hread : targets.run r = (none, r.file (.unknownDevice first) position) := by
      rw [targets, run_bind, hrun]
    rw [hread]
    have hskipped : ∀ symbol ∈ [Symbol.name first, .sign .arrow, .name last],
        Reader.Passable symbol := by
      simp [Reader.Passable, Symbol.name, Symbol.sign]
    exact .unknown position hmode hfirst hnew hskipped ⟨h, rfl, rfl, rfl⟩

end Naming

end Breadboard.Description
