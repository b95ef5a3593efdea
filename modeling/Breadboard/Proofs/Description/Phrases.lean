import Breadboard.Description.Statement
import Breadboard.Proofs.Description.Symbols

/-!
# Attempts and phrases

What an attempt yields is what the phrase says that it has read, and it yields something wherever
there is such a phrase in front of the reader. In this module are the attempts that read parts of
statements: signs, names, numbers, and lists with commas.
-/

set_option autoImplicit false
set_option relaxedAutoImplicit false

namespace Breadboard.Description

namespace Attempt

variable {α β ξ : Type} {r s t : Reader} {mode : NameMode} {used more : List Symbol}

/-! ### Running -/

/-- Attempts one after another succeed when both do. -/
theorem run_bind_eq_some {m : Attempt α} {f : α → Attempt β} {b : β} :
    (m >>= f).run r = (some b, t) ↔ ∃ a s, m.run r = (some a, s) ∧ (f a).run s = (some b, t) := by
  rw [run_bind]
  cases hm : m.run r with
  | mk a s =>
    cases a with
    | none => simp
    | some a => simp

/-- What is made of a value is yielded where the value is. -/
theorem run_bind_pure_eq_some {m : Attempt α} {g : α → β} {b : β} :
    (m >>= fun a ↦ pure (g a)).run r = (some b, s) ↔ ∃ a, m.run r = (some a, s) ∧ g a = b := by
  rw [run_bind_eq_some]
  constructor
  · rintro ⟨a, t, ha, h⟩
    cases h
    exact ⟨a, ha, rfl⟩
  · rintro ⟨a, ha, rfl⟩
    exact ⟨a, s, ha, rfl⟩

@[simp]
theorem run_current_bind (f : Token → Attempt β) : (current >>= f).run r = (f r.current).run r :=
  rfl

@[simp]
theorem run_advance_bind (f : Unit → Attempt β) :
    (advance >>= f).run r = (f ()).run r.advance := rfl

theorem run_numberOf_bind (name : String) (f : Option NameId → Attempt β) :
    (numberOf name >>= f).run r = (f (r.names.query name)).run r := rfl

/-! ### One symbol -/

theorem run_expect (lexeme : Lexeme) (what : Expectation) :
    (expect lexeme what).run r =
      if r.current.lexeme = lexeme then (some (), r.advance) else (none, r.unexpected what) := by
  rw [expect, run_current_bind]
  split <;> rfl

theorem symbol_of_lexeme {token : Token} {lexeme : Lexeme} (h : token.lexeme = lexeme)
    (hname : lexeme ≠ .name) : token.symbol = .sign lexeme := by
  rw [Token.symbol, h, if_neg hname]
  rfl

/-- To advance behind a sign is to pass just this sign. -/
theorem passes_sign (hr : r.Ready mode) {lexeme : Lexeme} (h : r.current.lexeme = lexeme)
    (hend : lexeme ≠ .endOfText) (hname : lexeme ≠ .name) :
    r.Passes mode [.sign lexeme] r.advance := by
  rw [← symbol_of_lexeme h hname]
  exact hr.passes_advance (beq_eq_false_iff_ne.mpr (h ▸ hend))

/-- What is expected and found is passed. -/
theorem expect_sound (hr : r.Ready mode) {lexeme : Lexeme} {what : Expectation}
    (hend : lexeme ≠ .endOfText) (hname : lexeme ≠ .name) {a : Unit}
    (h : (expect lexeme what).run r = (some a, s)) : r.Passes mode [.sign lexeme] s := by
  rw [run_expect] at h
  split at h
  · next hlexeme =>
    cases h
    exact passes_sign hr hlexeme hend hname
  · cases h

theorem lexeme_of_sign {lexeme : Lexeme} (h : r.symbols = .sign lexeme :: more) :
    r.current.lexeme = lexeme := by
  rw [← Reader.frontLexeme_symbols, h]
  rfl

/-- What is expected and there is found. -/
theorem expect_complete {lexeme : Lexeme} (what : Expectation)
    (hsymbols : r.symbols = .sign lexeme :: more) :
    (expect lexeme what).run r = (some (), r.advance) := by
  rw [run_expect, if_pos (lexeme_of_sign hsymbols)]

/-- A known name that is read is passed, and its number is that of the name. -/
theorem knownName_sound (hr : r.Ready mode) {unknown : String → Fault} {what : Expectation}
    {mention : Mention} (h : (knownName unknown what).run r = (some mention, s)) :
    r.Passes mode [.name mention.text] s ∧ s.names.string? mention.id = some mention.text := by
  rw [knownName, run_current_bind] at h
  split at h
  · next hlexeme =>
    rw [run_numberOf_bind] at h
    cases hquery : r.names.query r.current.text with
    | none =>
      rw [hquery] at h
      cases h
    | some id =>
      rw [hquery] at h
      cases h
      have hsymbol : r.current.symbol = .name r.current.text :=
        symbol_eq_name_iff.mpr ⟨hlexeme, rfl⟩
      have hpasses := hr.passes_advance (Reader.atEnd_eq_false_of_symbol hsymbol)
      exact ⟨hsymbol ▸ hpasses, hpasses.grown.string? (Names.string?_of_query hquery)⟩
  · cases h

/-- A name that may be read is read. -/
theorem knownName_complete (hr : r.Ready mode) (unknown : String → Fault) (what : Expectation)
    {name : String} (hsymbols : r.symbols = .name name :: more)
    (hknown : mode = .query → r.names.Has name) :
    ∃ mention, (knownName unknown what).run r = (some mention, r.advance) ∧ mention.text = name ∧
      r.Passes mode [.name name] r.advance ∧ r.advance.names.string? mention.id = some name := by
  obtain ⟨-, hsymbol⟩ := Reader.front_of_symbols hsymbols
  obtain ⟨hlexeme, rfl⟩ := symbol_eq_name_iff.mp hsymbol
  have hhas : r.names.Has r.current.text := by
    cases mode with
    | declare => exact hr.known rfl hlexeme
    | query => exact hknown rfl
  obtain ⟨id, hid⟩ := Names.has_iff_query.mp hhas
  have hrun : (knownName unknown what).run r =
      (some ⟨id, r.current.text, r.current.position⟩, r.advance) := by
    rw [knownName, run_current_bind, if_pos hlexeme, run_numberOf_bind, hid]
    rfl
  exact ⟨_, hrun, rfl, knownName_sound hr hrun⟩

/-- A number that is read is passed. -/
theorem number_sound (hr : r.Ready mode) {value : Nat × Text.Position}
    (h : number.run r = (some value, s)) : r.Passes mode [.sign (.number value.1)] s := by
  rw [number, run_current_bind] at h
  split at h
  · next hlexeme =>
    cases h
    exact passes_sign hr hlexeme nofun nofun
  · cases h

theorem number_complete {value : Nat} (hsymbols : r.symbols = .sign (.number value) :: more) :
    ∃ position, number.run r = (some (value, position), r.advance) := by
  refine ⟨r.current.position, ?_⟩
  rw [number, run_current_bind, lexeme_of_sign hsymbols]
  rfl

/-! ### Lists -/

/-- An attempt that reads the phrases of a form. What it yields has a meaning under the name table
after it, which the phrase spells. It fails on no phrase that is spelled in front of the reader,
unless names are only looked up and one is not there. A dot would go on with the phrase. -/
structure Reads (mode : NameMode) (item : Attempt α) (means : Names → α → ξ → Prop)
    (spelling : ξ → List Symbol) : Prop where
  grow {old new : Names} {a : α} {x : ξ} : means old a x → old.Extends new → means new a x
  sound {r s : Reader} {a : α} : r.Ready mode → item.run r = (some a, s) →
    ∃ x, r.Passes mode (spelling x) s ∧ means s.names a x
  complete {r : Reader} {x : ξ} {more : List Symbol} : r.Ready mode →
    r.symbols = spelling x ++ more → frontLexeme more ≠ .dot →
      (mode = .query → ∃ a, means r.names a x) →
        ∃ a s, item.run r = (some a, s) ∧ r.Passes mode (spelling x) s ∧ means s.names a x

/-- The symbols of further items. -/
def afterComma (spelling : ξ → List Symbol) (xs : List ξ) : List Symbol :=
  xs.flatMap fun x ↦ .sign .comma :: spelling x

variable {item : Attempt α} {means : Names → α → ξ → Prop} {spelling : ξ → List Symbol}

/-- The items that are read behind commas are spelled in front of the reader: the induction is on
what is read. -/
theorem commaItems_sound (hitem : Reads mode item means spelling) (hr : r.Ready mode)
    {list : List α} (h : commaItems item r = (some list, s)) :
    ∃ xs, r.Passes mode (afterComma spelling xs) s ∧ List.Forall₂ (means s.names) list xs := by
  fun_induction commaItems item r generalizing list with
  | case1 => cases h
  | case2 => cases h
  | case3 r hcomma a t ht more u hu ih =>
    cases h
    have hcommaPasses := passes_sign hr hcomma (by decide) (by decide)
    obtain ⟨x, hx, hmeans⟩ := hitem.sound hcommaPasses.ready ht
    obtain ⟨xs, hxs, hlist⟩ := ih hx.ready hu
    refine ⟨x :: xs, ?_, .cons (hitem.grow hmeans hxs.grown) hlist⟩
    exact (hcommaPasses.trans hx).trans hxs
  | case4 r =>
    cases h
    exact ⟨[], .refl hr, .nil⟩

/-- The items that are spelled behind commas are read: the induction is on what is spelled. -/
theorem commaItems_complete (hitem : Reads mode item means spelling) (hr : r.Ready mode)
    {xs : List ξ} (hsymbols : r.symbols = afterComma spelling xs ++ more)
    (hdot : frontLexeme more ≠ .dot) (hcomma : frontLexeme more ≠ .comma)
    (hknown : mode = .query → ∀ x ∈ xs, ∃ a, means r.names a x) :
    ∃ list s, commaItems item r = (some list, s) ∧ r.Passes mode (afterComma spelling xs) s ∧
      List.Forall₂ (means s.names) list xs := by
  induction xs generalizing r with
  | nil =>
    have hlexeme : r.current.lexeme ≠ .comma := by
      rwa [← Reader.frontLexeme_symbols, hsymbols]
    refine ⟨[], r, ?_, .refl hr, .nil⟩
    rw [commaItems, dif_neg hlexeme]
  | cons x xs ih =>
    have hfirst : r.symbols = .sign .comma :: (spelling x ++ (afterComma spelling xs ++ more)) := by
      simp [hsymbols, afterComma]
    obtain ⟨htake, hnext⟩ := hr.take hfirst
    have hfront : frontLexeme (afterComma spelling xs ++ more) ≠ .dot := by
      cases xs with
      | nil => exact hdot
      | cons => exact nofun
    obtain ⟨a, t, ht, hx, hmeans⟩ := hitem.complete htake.ready hnext hfront fun hmode ↦
      (hknown hmode x List.mem_cons_self).imp fun _ h ↦ hitem.grow h htake.grown
    have hrest : t.symbols = afterComma spelling xs ++ more := by
      rw [hx.symbols] at hnext
      exact List.append_cancel_left hnext
    obtain ⟨list, u, hu, hxs, hlist⟩ := ih hx.ready hrest fun hmode y hy ↦
      (hknown hmode y (List.mem_cons_of_mem x hy)).imp fun _ h ↦
        hitem.grow h (htake.grown.trans hx.grown)
    refine ⟨a :: list, u, ?_, (htake.trans hx).trans hxs, .cons (hitem.grow hmeans hxs.grown) hlist⟩
    rw [commaItems, dif_pos (lexeme_of_sign hfirst)]
    split
    · next hnone => rw [ht] at hnone; cases hnone
    · next hsome =>
      rw [ht] at hsome
      cases hsome
      rw [hu]

end Attempt

end Breadboard.Description
