import Breadboard.Description.Reader
import Breadboard.Proofs.Description.Grammar
import Breadboard.Proofs.Description.Identifiers
import Breadboard.Proofs.Names.Matching

/-!
# The symbols in front of a reader

A reader that has met with no fault, and has none in front of it, is ready (`Ready`). Such a reader
has a list of symbols in front of it, and reading on takes symbols off the front of that list. On
its way it adds the names that it meets to the table, and no others (`Passes`).
-/

set_option autoImplicit false
set_option relaxedAutoImplicit false

namespace Breadboard.Description

variable {mode : NameMode} {name : String}

/-- The symbol that is read, if what is read is a lexeme. -/
def Reading.symbol? : Reading → Option Symbol
  | .token t => some t.symbol
  | .fault .. => none

/-- The lexeme that some symbols begin with. -/
def frontLexeme : List Symbol → Lexeme
  | [] => .endOfText
  | symbol :: _ => symbol.lexeme

/-- The symbol that some symbols begin with, or the end of the text. -/
def frontSymbol : List Symbol → Symbol
  | [] => .sign .endOfText
  | symbol :: _ => symbol

theorem lexeme_frontSymbol (symbols : List Symbol) :
    (frontSymbol symbols).lexeme = frontLexeme symbols := by
  cases symbols <;> rfl

/-- The names among some symbols. -/
def namesIn (symbols : List Symbol) : List String :=
  symbols.filterMap fun symbol ↦ if symbol.lexeme = .name then some symbol.text else none

theorem namesIn_append (symbols more : List Symbol) :
    namesIn (symbols ++ more) = namesIn symbols ++ namesIn more :=
  List.filterMap_append

theorem symbol_eq_name_iff {token : Token} :
    token.symbol = .name name ↔ token.lexeme = .name ∧ token.text = name := by
  obtain ⟨lexeme, text, position⟩ := token
  rw [Token.symbol, Symbol.name, Symbol.mk.injEq]
  refine and_congr_right fun hlexeme ↦ ?_
  rw [if_pos hlexeme]

/-! ### Name tables -/

/-- A table in which every name is an identifier and has one number. -/
structure Regular (names : Names) : Prop where
  faithful : names.Faithful
  identifiers : ∀ name, names.Has name → IsIdentifier name

theorem Regular.resolve {names : Names} (h : Regular names) (mode : NameMode)
    (hname : IsIdentifier name) : Regular (names.resolve mode name).2 where
  faithful := h.faithful.resolve mode name
  identifiers other hother := by
    rcases Names.has_of_has_resolve hother with hold | rfl
    · exact h.identifiers other hold
    · exact hname

theorem Regular.resolveAll {names : Names} (h : Regular names) (mode : NameMode)
    {list : List String} (hlist : ∀ name ∈ list, IsIdentifier name) :
    Regular (names.resolveAll mode list).2 where
  faithful := h.faithful.resolveAll mode list
  identifiers other hother := by
    rcases Names.has_of_has_resolveAll hother with hold | hnew
    · exact h.identifiers other hold
    · exact hlist other hnew

namespace Reader

variable {r s t : Reader} {used : List Symbol}

/-- The symbols from the one that the reader stands on. -/
def symbols (r : Reader) : List Symbol :=
  if r.atEnd then [] else r.current.symbol :: r.rest.filterMap Reading.symbol?

theorem frontLexeme_symbols (r : Reader) : frontLexeme r.symbols = r.current.lexeme := by
  rw [symbols]
  split
  · next hend => exact (beq_iff_eq.mp hend).symm
  · rfl

theorem frontSymbol_symbols (r : Reader) : frontSymbol r.symbols = r.current.symbol := by
  rw [symbols]
  split
  · next hend =>
    have hlexeme : r.current.lexeme = .endOfText := beq_iff_eq.mp hend
    rw [Token.symbol, hlexeme]
    rfl
  · rfl

/-- What is read holds no fault. -/
def Flawless (readings : List Reading) : Prop :=
  ∀ reading ∈ readings, ∃ token : Token, reading = .token token ∧ token.Proper

/-- A reader with a mode in force that has met with no fault, and has none in front of it. While
names are declared, the name that it stands on is in the table. -/
structure Ready (mode : NameMode) (r : Reader) : Prop where
  inForce : r.mode = mode
  log : r.log = []
  names : Regular r.names
  current : r.atEnd = false → r.current.Proper
  rest : Flawless r.rest
  finished : r.atEnd = true → r.rest = []
  known : mode = .declare → r.current.lexeme = .name → r.names.Has r.current.text

/-! ### Moving on -/

theorem extends_standOn (r : Reader) (token : Token) : r.names.Extends (r.standOn token).names := by
  rw [standOn]
  dsimp only
  split
  · exact Names.extends_resolve ..
  · exact Names.Extends.refl _

theorem has_of_has_standOn {token : Token} (h : (r.standOn token).names.Has name) :
    r.names.Has name ∨ token.symbol = .name name := by
  rw [standOn] at h
  dsimp only at h
  split at h
  · next hlexeme =>
    exact (Names.has_of_has_resolve h).imp_right fun hname ↦
      symbol_eq_name_iff.mpr ⟨hlexeme, hname.symm⟩
  · exact .inl h

theorem regular_standOn (hnames : Regular r.names) {token : Token}
    (htoken : token.lexeme = .name → IsIdentifier token.text) :
    Regular (r.standOn token).names := by
  rw [standOn]
  dsimp only
  split
  · next hlexeme => exact hnames.resolve _ (htoken hlexeme)
  · exact hnames

theorem known_standOn (hmode : r.mode = .declare) {token : Token} (hlexeme : token.lexeme = .name) :
    (r.standOn token).names.Has token.text := by
  rw [standOn]
  dsimp only
  rw [if_pos hlexeme, hmode]
  exact ⟨_, Names.string?_intern ..⟩

theorem names_standOn (r : Reader) (token : Token) :
    (r.standOn token).names = r.names.meetAll r.mode (namesIn [token.symbol]) := by
  rw [standOn, namesIn, List.filterMap_cons]
  by_cases hname : token.lexeme = .name
  · have hsymbol : token.symbol = .name token.text := symbol_eq_name_iff.mpr ⟨hname, rfl⟩
    rw [if_pos hname, hsymbol]
    rfl
  · have hsymbol : token.symbol.lexeme ≠ .name := hname
    rw [if_neg hname, if_neg hsymbol]
    rfl

theorem names_standOn_of_query (hmode : r.mode = .query) (token : Token) :
    (r.standOn token).names = r.names := by
  rw [standOn]
  dsimp only
  rw [hmode, Names.resolve_query_snd, ite_self]

variable {readings : List Reading}

/-- A reader that is moved to the first of some lexemes, or to the end. -/
theorem pull_cases (r : Reader) (h : Flawless readings) :
    readings = [] ∧ r.pull readings = { r.standOn (.finish r.finish) with rest := [] } ∨
      ∃ token rest, token.Proper ∧ readings = .token token :: rest ∧
        r.pull readings = { r.standOn token with rest } := by
  cases readings with
  | nil => exact .inl ⟨rfl, rfl⟩
  | cons reading rest =>
    obtain ⟨token, rfl, hproper⟩ := h reading List.mem_cons_self
    exact .inr ⟨token, rest, hproper, rfl, rfl⟩

/-- The table grows by the name that the reader comes to stand on, and only while names are
declared. -/
theorem names_pull (r : Reader) (readings : List Reading) :
    (r.pull readings).names = (r.standOn (r.pull readings).current).names := by
  fun_induction pull r readings with
  | case1 | case2 => rfl
  | case3 r fault position rest ih => exact ih

theorem symbols_pull (r : Reader) (h : Flawless readings) :
    (r.pull readings).symbols = readings.filterMap Reading.symbol? := by
  rcases r.pull_cases h with ⟨rfl, hnext⟩ | ⟨token, rest, hproper, rfl, hnext⟩
  · rw [hnext]
    rfl
  · have hinside : ({ r.standOn token with rest } : Reader).atEnd = false :=
      beq_eq_false_iff_ne.mpr hproper.inside
    rw [hnext, symbols, hinside, if_neg Bool.false_ne_true]
    rfl

theorem ready_pull (hmode : r.mode = mode) (hlog : r.log = []) (hnames : Regular r.names)
    (h : Flawless readings) : (r.pull readings).Ready mode := by
  rcases r.pull_cases h with ⟨-, hnext⟩ | ⟨token, rest, hproper, hrest, hnext⟩
  · rw [hnext]
    have hregular : Regular (r.standOn (.finish r.finish)).names := regular_standOn hnames nofun
    exact ⟨hmode, hlog, hregular, nofun, nofun, fun _ ↦ rfl, fun _ ↦ nofun⟩
  · rw [hnext]
    refine ⟨hmode, hlog, regular_standOn hnames hproper.identifier, fun _ ↦ hproper, ?_, ?_, ?_⟩
    · exact fun reading hreading ↦ h reading (hrest ▸ List.mem_cons_of_mem _ hreading)
    · exact fun hfinished ↦ absurd (beq_iff_eq.mp hfinished) hproper.inside
    · rintro rfl hlexeme
      exact known_standOn hmode hlexeme

theorem Ready.advance_eq_pull (hend : r.atEnd = false) : r.advance = r.pull r.rest := by
  rw [Reader.advance, hend, if_neg Bool.false_ne_true]

theorem Ready.symbols_advance (h : r.Ready mode) (hend : r.atEnd = false) :
    r.symbols = r.current.symbol :: r.advance.symbols := by
  rw [advance_eq_pull hend, symbols_pull r h.rest, symbols, hend, if_neg Bool.false_ne_true]

theorem Ready.advance (h : r.Ready mode) (hend : r.atEnd = false) : r.advance.Ready mode := by
  rw [advance_eq_pull hend]
  exact ready_pull h.inForce h.log h.names h.rest

theorem head?_symbols (h : r.atEnd = false) : r.symbols.head? = some r.current.symbol := by
  rw [symbols, h, if_neg Bool.false_ne_true, List.head?_cons]

theorem atEnd_eq_false_of_symbol (h : r.current.symbol = .name name) : r.atEnd = false := by
  rw [atEnd, (symbol_eq_name_iff.mp h).1]
  rfl

/-- A reader that has a symbol in front of it stands on it. -/
theorem front_of_symbols {symbol : Symbol} {more : List Symbol} (h : r.symbols = symbol :: more) :
    r.atEnd = false ∧ r.current.symbol = symbol := by
  cases hend : r.atEnd with
  | true =>
    rw [symbols, if_pos hend] at h
    cases h
  | false =>
    have hhead := head?_symbols hend
    rw [h, List.head?_cons, Option.some_inj] at hhead
    exact ⟨rfl, hhead.symm⟩

/-- The name that a reader stands on is in the table while names are declared. -/
theorem Ready.known_front {symbol : Symbol} {more : List Symbol} (hr : r.Ready .declare)
    (hsymbols : r.symbols = symbol :: more) : ∀ name ∈ namesIn [symbol], r.names.Has name := by
  obtain ⟨-, rfl⟩ := front_of_symbols hsymbols
  intro name hname
  rw [namesIn, List.filterMap_cons] at hname
  split at hname
  · cases hname
  · next text htext =>
    split at htext
    · next hlexeme =>
      obtain rfl := List.mem_singleton.mp hname
      obtain rfl := Option.some_inj.mp htext
      have hcurrent : r.current.lexeme = .name := hlexeme
      rw [Token.symbol, if_pos hcurrent]
      exact hr.known rfl hcurrent
    · cases htext

/-! ### Taking symbols -/

/-- The names that are met in some symbols: those that are among them, and those that the ranges
among them stand for. -/
def Meets (used : List Symbol) (name : String) : Prop :=
  .name name ∈ used ∨ ∃ first last list,
    [.name first, .sign .arrow, .name last] <:+: used ∧ expandRange first last = .ok list ∧
      name ∈ list

theorem Meets.append_left {more : List Symbol} (h : Meets used name) :
    Meets (used ++ more) name := by
  refine h.imp (List.mem_append_left more) fun ⟨first, last, list, hinfix, hlist⟩ ↦ ?_
  exact ⟨first, last, list, hinfix.trans (List.prefix_append used more).isInfix, hlist⟩

theorem Meets.append_right {more : List Symbol} (h : Meets more name) :
    Meets (used ++ more) name := by
  refine h.imp (List.mem_append_right used) fun ⟨first, last, list, hinfix, hlist⟩ ↦ ?_
  exact ⟨first, last, list, hinfix.trans (List.suffix_append used more).isInfix, hlist⟩

/-- A reader that has taken some symbols, and is ready for more. To its table it has added names
that are met in these symbols and the name that it stands on, and while names are declared it has
added all that are among them. -/
structure Passes (mode : NameMode) (used : List Symbol) (r s : Reader) : Prop where
  symbols : r.symbols = used ++ s.symbols
  ready : s.Ready mode
  grown : r.names.Extends s.names
  fresh : ∀ name, s.names.Has name →
    r.names.Has name ∨ Meets used name ∨ s.current.symbol = .name name
  met : mode = .declare → ∀ name, .name name ∈ used → s.names.Has name
  kept : mode = .query → s.names = r.names

theorem Passes.refl (h : r.Ready mode) : Passes mode [] r r where
  symbols := rfl
  ready := h
  grown := Names.Extends.refl _
  fresh _ hname := .inl hname
  met _ _ := nofun
  kept _ := rfl

theorem Passes.trans {more : List Symbol} (h : Passes mode used r s) (h' : Passes mode more s t) :
    Passes mode (used ++ more) r t where
  symbols := by rw [h.symbols, h'.symbols, List.append_assoc]
  ready := h'.ready
  grown := h.grown.trans h'.grown
  fresh name hname := by
    rcases h'.fresh name hname with hs | hmeets | hcurrent
    · rcases h.fresh name hs with hr | hmeets | hcurrent
      · exact .inl hr
      · exact .inr (.inl hmeets.append_left)
      · have hhead := head?_symbols (atEnd_eq_false_of_symbol hcurrent)
        rw [h'.symbols, hcurrent] at hhead
        cases more with
        | nil =>
          obtain ⟨tail, htail⟩ := List.head?_eq_some_iff.mp hhead
          exact .inr (.inr (front_of_symbols htail).2)
        | cons symbol more =>
          rw [List.cons_append, List.head?_cons, Option.some_inj] at hhead
          exact .inr (.inl (.inl (List.mem_append_right used (hhead ▸ List.mem_cons_self))))
    · exact .inr (.inl hmeets.append_right)
    · exact .inr (.inr hcurrent)
  met hmode name hname := by
    rcases List.mem_append.mp hname with hused | hmore
    · exact h'.grown.has (h.met hmode name hused)
    · exact h'.met hmode name hmore
  kept hmode := (h'.kept hmode).trans (h.kept hmode)

theorem Ready.passes_advance (h : r.Ready mode) (hend : r.atEnd = false) :
    Passes mode [r.current.symbol] r r.advance := by
  have hnames := r.names_pull r.rest
  rw [← advance_eq_pull hend] at hnames
  refine ⟨h.symbols_advance hend, h.advance hend, ?_, ?_, ?_, ?_⟩
  · rw [hnames]
    exact r.extends_standOn _
  · intro name hname
    rw [hnames] at hname
    exact (has_of_has_standOn hname).imp_right .inr
  · intro hmode name hname
    obtain ⟨hlexeme, rfl⟩ := symbol_eq_name_iff.mp (List.mem_singleton.mp hname).symm
    rw [hnames]
    exact (r.extends_standOn _).has (h.known hmode hlexeme)
  · rintro rfl
    rw [hnames, names_standOn_of_query h.inForce]

/-- A reader takes the symbol that it has in front of it. -/
theorem Ready.take {symbol : Symbol} {more : List Symbol} (h : r.Ready mode)
    (hsymbols : r.symbols = symbol :: more) :
    Passes mode [symbol] r r.advance ∧ r.advance.symbols = more := by
  obtain ⟨hend, hsymbol⟩ := front_of_symbols hsymbols
  have hpasses := hsymbol ▸ h.passes_advance hend
  refine ⟨hpasses, ?_⟩
  rw [hpasses.symbols] at hsymbols
  exact (List.cons.inj hsymbols).2

theorem Ready.isIdentifier {more : List Symbol} (h : r.Ready mode)
    (hsymbols : r.symbols = .name name :: more) : IsIdentifier name := by
  obtain ⟨hend, hsymbol⟩ := front_of_symbols hsymbols
  obtain ⟨hlexeme, rfl⟩ := symbol_eq_name_iff.mp hsymbol
  exact (h.current hend).identifier hlexeme

/-! ### Names of a range -/

/-- A reader that takes the names of a range into its table. -/
theorem Passes.resolveAll {first last : String} {list : List String}
    (h : Passes mode [.name first, .sign .arrow, .name last] r s)
    (hlist : expandRange first last = .ok list) (hfirst : IsIdentifier first) :
    Passes mode [.name first, .sign .arrow, .name last] r
      { s with names := (s.names.resolveAll s.mode list).2 } where
  symbols := h.symbols
  ready := by
    have hs := h.ready
    refine ⟨hs.inForce, hs.log, ?_, hs.current, hs.rest, hs.finished, fun hmode hlexeme ↦ ?_⟩
    · exact hs.names.resolveAll s.mode fun name ↦ isIdentifier_of_mem_range hfirst hlist
    · exact (Names.extends_resolveAll ..).has (hs.known hmode hlexeme)
  grown := h.grown.trans (Names.extends_resolveAll ..)
  fresh name hname := by
    rcases Names.has_of_has_resolveAll hname with hs | hnew
    · exact h.fresh name hs
    · exact .inr (.inl (.inr ⟨first, last, list, List.infix_rfl, hlist, hnew⟩))
  met hmode name hname := (Names.extends_resolveAll ..).has (h.met hmode name hname)
  kept hmode := by
    rw [h.ready.inForce.trans hmode, Names.resolveAll_query_snd]
    exact h.kept hmode

end Reader

/-! ### Texts without a fault -/

/-- A text that is scanned without a fault, and into some symbols. -/
def Scans (text : String) (symbols : List Symbol) : Prop :=
  (Cursor.start text).readings.1.map Reading.symbol? = symbols.map some

instance (text : String) (symbols : List Symbol) : Decidable (Scans text symbols) :=
  inferInstanceAs (Decidable (_ = _))

theorem Scans.exists_tokens {text : String} {symbols : List Symbol} (h : Scans text symbols) :
    ∃ tokens : List Token, (Cursor.start text).readings.1 = tokens.map Reading.token ∧
      tokens.map Token.symbol = symbols := by
  rw [Scans] at h
  generalize (Cursor.start text).readings.1 = readings at h
  induction readings generalizing symbols with
  | nil => exact ⟨[], rfl, (List.map_eq_nil_iff.mp h.symm).symm⟩
  | cons reading readings ih =>
    cases symbols with
    | nil => cases h
    | cons symbol symbols =>
      obtain ⟨hfirst, hrest⟩ := List.cons.inj h
      obtain ⟨tokens, rfl, rfl⟩ := ih hrest
      cases reading with
      | token token =>
        obtain rfl := Option.some_inj.mp hfirst
        exact ⟨token :: tokens, rfl, rfl⟩
      | fault => cases hfirst

end Breadboard.Description
