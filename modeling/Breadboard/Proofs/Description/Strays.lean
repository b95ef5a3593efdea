import Breadboard.Proofs.Description.Schematic

/-!
# Scripts with strays among their connections

A stray is a statement that is no connection which may be made where it stands: it is spelled wrong,
it is about something that is not there, or it breaks a rule (`Stray`). Strays may be strewn into
the blocks of a script, before, between and behind their connections. `ScriptStrewn` relates the
symbols of a script to the same symbols with so many strays among them. What a stray is judged by
is the schematic that the script has come to where the stray stands.
-/

set_option autoImplicit false
set_option relaxedAutoImplicit false

namespace Breadboard.Description

variable {d : Draft} {s : Schematic} {device : String} {u v : List Symbol} {k : Nat}

/-- A symbol that neither ends a statement nor has to do with blocks and sections. -/
structure Symbol.Inside (symbol : Symbol) : Prop where
  semicolon : symbol.lexeme ≠ .semicolon
  openBrace : symbol.lexeme ≠ .openBrace
  closeBrace : symbol.lexeme ≠ .closeBrace
  heading (heading : Heading) : symbol.lexeme ≠ .heading heading

/-- A statement in the block of a device that is no connection which may be made: some symbols up to
a semicolon that spell no connection to the device, or one that is not allowed. -/
structure Stray (s : Schematic) (device : String) (used : List Symbol) : Prop where
  ends : ∃ front, used = front ++ [.sign .semicolon] ∧ ∀ symbol ∈ front, symbol.Inside
  rejected (link : Link) : link.symbols = used → link.target = device → ¬ Act.link.allowed s link

/-! ### Connections as statements -/

theorem Symbol.inside_name (name : String) : (Symbol.name name).Inside :=
  ⟨nofun, nofun, nofun, nofun⟩

theorem Symbol.inside_dot : (Symbol.sign .dot).Inside :=
  ⟨nofun, nofun, nofun, nofun⟩

theorem Symbol.inside_keyword (keyword : Keyword) : (Symbol.keyword keyword).Inside :=
  ⟨nofun, nofun, nofun, nofun⟩

theorem OutputName.inside (output : OutputName) : ∀ symbol ∈ output.symbols, symbol.Inside := by
  obtain ⟨device, _ | port⟩ := output
  · simp [OutputName.symbols, Symbol.inside_name]
  · simp [OutputName.symbols, Symbol.inside_name, Symbol.inside_dot]

/-- A connection ends in its only semicolon. -/
theorem Link.exists_front (link : Link) :
    ∃ front, link.symbols = front ++ [.sign .semicolon] ∧ ∀ symbol ∈ front, symbol.Inside := by
  refine ⟨link.source.symbols ++ [.keyword .toWord, .name link.target, .sign .dot,
    .name link.input], by simp [Link.symbols], List.forall_mem_append.mpr ⟨link.source.inside, ?_⟩⟩
  simp [Symbol.inside_name, Symbol.inside_dot, Symbol.inside_keyword]

theorem Link.symbols_injective {link link' : Link} (h : link.symbols = link'.symbols) :
    link = link' := by
  obtain ⟨⟨device, port⟩, target, input⟩ := link
  obtain ⟨⟨device', port'⟩, target', input'⟩ := link'
  cases port <;> cases port' <;>
    simp_all [Link.symbols, OutputName.symbols, Symbol.name, Symbol.sign, Symbol.keyword]

/-- A connection that is not allowed is a stray. -/
theorem stray_of_link {link : Link} (h : ¬ Act.link.allowed s link) :
    Stray s device link.symbols where
  ends := link.exists_front
  rejected _ hsymbols _ := Link.symbols_injective hsymbols ▸ h

/-! ### Strays among statements -/

/-- The connections of a block, with so many strays among them. -/
inductive LinksStrewn (device : String) : Schematic → List Link → List Symbol → Nat → Prop
  | nil {s : Schematic} : LinksStrewn device s [] [] 0
  | link {s : Schematic} {link : Link} {links : List Link} {u : List Symbol} {k : Nat} :
    LinksStrewn device (Act.link.after s link) links u k →
      LinksStrewn device s (link :: links) (link.symbols ++ u) k
  | stray {s : Schematic} {links : List Link} {used u : List Symbol} {k : Nat} :
    Stray s device used → LinksStrewn device s links u k →
      LinksStrewn device s links (used ++ u) (k + 1)

/-- Items one after another as they are carried out, spelled without strays and with so many. -/
inductive Strewn {σ α : Type} (act : Act σ α)
    (strewn : σ → α → List Symbol → List Symbol → Nat → Prop) :
    σ → List α → List Symbol → List Symbol → Nat → Prop
  | nil {s : σ} : Strewn act strewn s [] [] [] 0
  | cons {s : σ} {item : α} {items : List α} {u u' v v' : List Symbol} {j k : Nat} :
    strewn s item u u' j → Strewn act strewn (act.after s item) items v v' k →
      Strewn act strewn s (item :: items) (u ++ v) (u' ++ v') (j + k)

/-- A block without strays and with so many. -/
inductive BlockStrewn (d : Draft) : Block → List Symbol → List Symbol → Nat → Prop
  | intro {block : Block} {u : List Symbol} {k : Nat} :
    LinksStrewn block.device d.schematic block.links u k → BlockStrewn d block block.symbols
      ([.keyword .device, .name block.device, .sign .openBrace] ++ u ++ [.sign .closeBrace]) k

/-- A section without strays and with so many. There are strays in the `connections` section
only. -/
inductive SectionStrewn (d : Draft) : Section → List Symbol → List Symbol → Nat → Prop
  | plain {part : Section} {u : List Symbol} : SectionSpelled part u → SectionStrewn d part u u 0
  | connections {blocks : List Block} {u u' : List Symbol} {k : Nat} :
    Strewn Act.block BlockStrewn d blocks u u' k → SectionStrewn d (.connections blocks)
      ([.sign (.heading .connections), .sign .openBrace] ++ u ++ [.sign .closeBrace])
      ([.sign (.heading .connections), .sign .openBrace] ++ u' ++ [.sign .closeBrace]) k

/-- A script without strays and with so many. -/
abbrev ScriptStrewn : Draft → Script → List Symbol → List Symbol → Nat → Prop :=
  Strewn Act.part SectionStrewn

/-! ### Without strays -/

/-- Without the strays, items are spelled as they would be. -/
theorem Strewn.spelled {σ α : Type} {act : Act σ α}
    {strewn : σ → α → List Symbol → List Symbol → Nat → Prop} {spells : α → List Symbol → Prop}
    (hspells : ∀ s item u v k, strewn s item u v k → spells item u) {s : σ} {items : List α}
    (h : Strewn act strewn s items u v k) : Spelled spells items u := by
  induction h with
  | nil => exact .nil
  | cons hitem _ ih => exact .cons (hspells _ _ _ _ _ hitem) ih

theorem BlockStrewn.eq_symbols {block : Block} (h : BlockStrewn d block u v k) :
    u = block.symbols := by
  cases h
  rfl

theorem SectionStrewn.spelled {part : Section} (h : SectionStrewn d part u v k) :
    SectionSpelled part u := by
  cases h with
  | plain hspelled => exact hspelled
  | @connections blocks u u' k hblocks =>
    have hspelled : Spelled (fun block w ↦ w = block.symbols) blocks u :=
      Strewn.spelled (fun _ _ _ _ _ h ↦ h.eq_symbols) hblocks
    exact .intro hspelled

/-- The symbols that strays are strewn into are themselves a case without strays. -/
theorem scriptStrewn_zero {script : Script} (h : ScriptStrewn d script u v k) :
    ScriptStrewn d script u u 0 := by
  induction h with
  | nil => exact .nil
  | cons hpart _ ih => exact .cons (.plain hpart.spelled) ih

end Breadboard.Description
