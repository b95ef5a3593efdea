import Breadboard.Circuit
import Breadboard.Proofs.Description.PlaceIndependence
import Breadboard.Proofs.Description.Partition

/-!
# Layout means nothing

What a symbol is, is settled by its own text (`lexeme_eq_of_spelled`), and reading does not look at
places. So two texts without lexical faults that have the same symbols in the same order, whatever
blanks, line breaks, comments and filler words stand between them, are read to the same end: the
same devices, connections, monitors and names, and the same complaints (`parse_layout`). The symbols
of a text joined by single blanks are such a text (`sameSymbols_joined`).
-/

set_option autoImplicit false
set_option relaxedAutoImplicit false

namespace Breadboard.Description

open Text (Position)

/-! ### Symbols of a text -/

/-- What is read off a text up to its end. -/
def readingsOf (text : String) : List Reading :=
  (Cursor.start text).readings.1

/-- The text of a symbol. -/
def Reading.text? : Reading → Option String
  | .token found => some found.text
  | .fault .. => none

/-- Everything that is read off a text is a symbol. -/
def Faultless (text : String) : Prop :=
  ∀ reading ∈ readingsOf text, reading.text?.isSome

instance (text : String) : Decidable (Faultless text) :=
  List.decidableBAll ..

theorem Reading.exists_token {reading : Reading} (h : reading.text?.isSome) :
    ∃ token, reading = .token token := by
  cases reading with
  | token found => exact ⟨found, rfl⟩
  | fault => cases h

/-- The texts of the symbols of a text, in order. -/
def symbolTexts (text : String) : List String :=
  (readingsOf text).filterMap Reading.text?

/-- Texts without lexical faults that have the same symbols in the same order. -/
structure SameSymbols (text text' : String) : Prop where
  left : Faultless text
  right : Faultless text'
  texts : symbolTexts text = symbolTexts text'

/-! ### What a symbol is -/

variable {run after after' : List Char} {lexeme : Lexeme}

theorem Maximal.before {p : Char → Bool} (h : Maximal p run after)
    (hp : ∀ c, c.isAlphanum = false → p c = false)
    (hafter : ∀ c, after'.head? = some c → c.isAlphanum = false) : Maximal p run after' :=
  ⟨h.inside, fun c hc ↦ hp c (hafter c hc)⟩

/-- A symbol stays the symbol that it is in front of anything but a letter or a digit. -/
theorem IsPiece.before (h : IsPiece (.lexeme lexeme) run after)
    (hafter : ∀ c, after'.head? = some c → c.isAlphanum = false) :
    IsPiece (.lexeme lexeme) run after' := by
  have hword (h : IsWord run after) : IsWord run after' :=
    ⟨h.letter, h.maximal.before (fun _ hc ↦ hc) hafter⟩
  have hnumber (h : IsNumber run after) : IsNumber run after' :=
    ⟨h.nonempty, h.maximal.before (fun _ ↦ isDigit_eq_false_of_isAlphanum) hafter⟩
  cases h with
  | heading h htitle => exact .heading (hword h) htitle
  | keyword h hverb => exact .keyword (hword h) hverb
  | name h hname => exact .name (hword h) hname
  | number h hle => exact .number (hnumber h) hle
  | arrow => exact .arrow
  | sign h => exact .sign h

/-- The symbol that a text is, if it is one as a whole. -/
def lexemeOf (text : String) : Lexeme :=
  match text.toList with
  | [] => .endOfText
  | c :: rest =>
    match (Piece.cut c rest).role with
    | .lexeme lexeme => lexeme
    | _ => .endOfText

theorem lexemeOf_of_isPiece (h : IsPiece (.lexeme lexeme) run after) :
    lexemeOf (String.ofList run) = lexeme := by
  have halone : IsPiece (.lexeme lexeme) run [] := h.before nofun
  cases run with
  | nil => exact absurd rfl h.ne_nil
  | cons c run =>
    have hcut := cut_of_isPiece halone
    rw [List.append_nil] at hcut
    rw [lexemeOf, String.toList_ofList]
    dsimp only
    rw [hcut]

/-- Whatever is read off a text is spelled in it. -/
theorem Cursor.spells_of_mem_readings {cursor : Cursor} {reading : Reading}
    (h : reading ∈ cursor.readings.1) : ∃ written after, reading.Spells written after := by
  fun_induction Cursor.readings cursor with
  | case1 => cases h
  | case2 cursor step hend more finish hreadings ih =>
    rcases List.mem_cons.mp h with rfl | hmore
    · rcases cursor.next_cases with ⟨-, -, hfinish⟩ | ⟨gap, written, -, -, hspells⟩
      · exact absurd hfinish hend
      · exact ⟨written, _, hspells⟩
    · rw [hreadings] at ih
      exact ih hmore

/-- The text of a symbol settles what symbol it is. -/
theorem lexeme_eq_of_spelled {token : Token} {written after : List Char}
    (h : (Reading.token token).Spells written after) : token.lexeme = lexemeOf token.text := by
  rw [h.1, lexemeOf_of_isPiece h.2]

/-! ### Places left out -/

/-- The beginning of a text, in place of any place. -/
def nowhere (_ : Position) : Position := {}

theorem map_moved_of_faultless {readings : List Reading}
    (hfaultless : ∀ reading ∈ readings, reading.text?.isSome)
    (hspelled : ∀ reading ∈ readings, ∃ written after, reading.Spells written after) :
    readings.map (Reading.moved nowhere) =
      (readings.filterMap Reading.text?).map fun text ↦ .token ⟨lexemeOf text, text, {}⟩ := by
  induction readings with
  | nil => rfl
  | cons reading readings ih =>
    obtain ⟨hsome, hmore⟩ := List.forall_mem_cons.mp hfaultless
    obtain ⟨⟨written, after, hspells⟩, hrest⟩ := List.forall_mem_cons.mp hspelled
    obtain ⟨token, rfl⟩ := Reading.exists_token hsome
    have hfirst : Reading.moved nowhere (.token token) =
        .token ⟨lexemeOf token.text, token.text, {}⟩ := by
      rw [← lexeme_eq_of_spelled hspells]
      rfl
    rw [List.map_cons, ih hmore hrest, hfirst]
    rfl

/-- Texts with the same symbols are the same when places are left out. -/
theorem SameSymbols.moved_start {text text' : String} (h : SameSymbols text text') (names : Names)
    (network : Network) (monitors : Monitors) :
    (Builder.start names network monitors text).moved nowhere =
      (Builder.start names network monitors text').moved nowhere := by
  have hreadings : (readingsOf text).map (Reading.moved nowhere) =
      (readingsOf text').map (Reading.moved nowhere) := by
    rw [map_moved_of_faultless h.left fun _ ↦ Cursor.spells_of_mem_readings,
      map_moved_of_faultless h.right fun _ ↦ Cursor.spells_of_mem_readings]
    exact congrArg _ h.texts
  have hreader : (Reader.start names text).moved nowhere =
      (Reader.start names text').moved nowhere := by
    have hstart (text : String) : (Reader.start names text).moved nowhere =
        Reader.ofReadings names ((readingsOf text).map (Reading.moved nowhere)) {} :=
      (Reader.pull_moved _ _).symm
    rw [hstart, hstart, hreadings]
  exact congrArg (Builder.mk · network monitors []) hreader

/-! ### What becomes of a text -/

/-- Two texts are read to the same end: both are in order or neither is, the same has been built,
the same names have the same numbers, and the same complaints are made in the same order. -/
structure SameEnd (text text' : String) (b b' : Builder) : Prop where
  inOrder : b.inOrder = b'.inOrder
  network : b.network = b'.network
  monitors : b.monitors = b'.monitors
  names : b.reader.names = b'.reader.names
  diagnostics : List.Forall₂ (fun d d' ↦ d.category = d'.category ∧ d.message = d'.message)
    (b.diagnostics text) (b'.diagnostics text')

theorem sameEnd_of_moved {move : Position → Position} {b b' : Builder} (text text' : String)
    (h : b.moved move = b'.moved move) : SameEnd text text' b b' := by
  have hlog : b.reader.log.map Report.fault = b'.reader.log.map Report.fault := by
    have hmoved : (b.moved move).reader.log.map Report.fault = b.reader.log.map Report.fault :=
      b.faults_moved
    rw [← hmoved, h, Builder.faults_moved]
  refine
    { inOrder := ?_
      network := congrArg (·.network) h
      monitors := congrArg (·.monitors) h
      names := congrArg (·.reader.names) h
      diagnostics := ?_ }
  · rw [Builder.inOrder, Builder.inOrder, ← List.isEmpty_map, hlog, List.isEmpty_map]
  · rw [Builder.diagnostics, Builder.diagnostics, List.forall₂_map_left_iff,
      List.forall₂_map_right_iff]
    have hfaults : List.Forall₂ (fun report report' ↦ report.fault = report'.fault)
        b.reader.log b'.reader.log :=
      List.forall₂_map_right_iff.mp (List.forall₂_map_left_iff.mp (hlog ▸ List.forall₂_refl _))
    exact hfaults.imp fun _ _ hfault ↦
      ⟨congrArg Fault.category hfault, congrArg Fault.message hfault⟩

theorem SameSymbols.parse {text text' : String} (h : SameSymbols text text') (names : Names)
    (network : Network) (monitors : Monitors) :
    SameEnd text text' (Builder.start names network monitors text).parse
      (Builder.start names network monitors text').parse := by
  have hmoved : (Builder.start names network monitors text).parse.moved nowhere =
      (Builder.start names network monitors text').parse.moved nowhere := by
    rw [← Builder.parse_moved, ← Builder.parse_moved, h.moved_start]
  exact sameEnd_of_moved text text' hmoved

/-! ### Symbols joined by blanks -/

/-- The texts of symbols with a blank between each two of them. -/
def joined (texts : List String) : String :=
  " ".intercalate texts

/-- A text that is one symbol as a whole. -/
def IsSymbol (text : String) : Prop :=
  ∃ lexeme, IsPiece (.lexeme lexeme) text.toList []

theorem ne_endOfText_of_isPiece (h : IsPiece (.lexeme lexeme) run after) :
    lexeme ≠ .endOfText := by
  rintro rfl
  have hsigns : ∀ sign ∈ signs, sign.2 ≠ .endOfText := by decide
  cases h with
  | sign h => exact hsigns _ h rfl

theorem readings_nil (position : Position) : (Cursor.mk [] position).readings.1 = [] := by
  have hnext : (Cursor.mk [] position).next = (.token (.finish position), ⟨[], position⟩) :=
    Cursor.next_of_rest_eq_nil rfl
  rw [Cursor.readings, hnext, dif_pos rfl]

/-- A symbol is read in front of the end of the text, or in front of a blank. -/
theorem readings_of_isSymbol {text : String} (h : IsSymbol text)
    (hafter : ∀ c, after.head? = some c → c.isAlphanum = false) (position : Position) :
    ∃ token next, token.text = text ∧
      (Cursor.mk (text.toList ++ after) position).readings.1 =
        .token token :: (Cursor.mk after next).readings.1 := by
  obtain ⟨lexeme, hpiece⟩ := h
  have hpiece : IsPiece (.lexeme lexeme) text.toList after := hpiece.before hafter
  cases htext : text.toList with
  | nil => exact absurd htext hpiece.ne_nil
  | cons c run =>
    rw [htext] at hpiece
    refine ⟨⟨lexeme, text, position⟩, position.afterAll (c :: run), rfl, ?_⟩
    rw [List.cons_append, Cursor.readings_of_cut (cut_of_isPiece hpiece)
      (ne_endOfText_of_isPiece hpiece), ← htext, String.ofList_toList]

theorem exists_tokens_of_joined {texts : List String} (h : ∀ text ∈ texts, IsSymbol text)
    (position : Position) : ∃ tokens : List Token, tokens.map Token.text = texts ∧
      (Cursor.mk (joined texts).toList position).readings.1 = tokens.map Reading.token := by
  induction texts generalizing position with
  | nil => exact ⟨[], rfl, readings_nil position⟩
  | cons text texts ih =>
    obtain ⟨hfirst, hmore⟩ := List.forall_mem_cons.mp h
    cases texts with
    | nil =>
      obtain ⟨token, next, rfl, hread⟩ :=
        readings_of_isSymbol hfirst (fun c (hc : [].head? = some c) ↦ nomatch hc) position
      rw [readings_nil, List.append_nil] at hread
      refine ⟨[token], rfl, ?_⟩
      rw [joined, String.intercalate_singleton, hread]
      rfl
    | cons second texts =>
      have hblank : ∀ c, (' ' :: (joined (second :: texts)).toList).head? = some c →
          c.isAlphanum = false := by
        rintro c hc
        obtain rfl := Option.some_inj.mp hc
        rfl
      obtain ⟨token, next, rfl, hread⟩ := readings_of_isSymbol hfirst hblank position
      obtain ⟨tokens, htexts, hrest⟩ := ih hmore (next.after ' ')
      have hjoined : (joined (token.text :: second :: texts)).toList =
          token.text.toList ++ ' ' :: (joined (second :: texts)).toList := by
        rw [joined, String.intercalate_cons_cons, String.toList_append, String.toList_append,
          List.append_assoc]
        rfl
      refine ⟨token :: tokens, congrArg _ htexts, ?_⟩
      rw [hjoined, hread, Cursor.readings_blank (by decide), hrest]
      rfl

theorem filterMap_text?_tokens (tokens : List Token) :
    (tokens.map Reading.token).filterMap Reading.text? = tokens.map Token.text := by
  have htext : Reading.text? ∘ Reading.token = some ∘ Token.text := rfl
  rw [List.filterMap_map, htext, List.filterMap_eq_map]

theorem isSymbol_of_mem_symbolTexts {text symbol : String} (h : symbol ∈ symbolTexts text) :
    IsSymbol symbol := by
  obtain ⟨reading, hreading, hsymbol⟩ := List.mem_filterMap.mp h
  obtain ⟨written, after, hspells⟩ := Cursor.spells_of_mem_readings hreading
  cases reading with
  | fault => cases hsymbol
  | token found =>
    obtain rfl : found.text = symbol := Option.some_inj.mp hsymbol
    refine ⟨found.lexeme, ?_⟩
    rw [hspells.1, String.toList_ofList]
    exact hspells.2.before nofun

/-- The symbols of a text joined by blanks have no fault among them, and are the same symbols. -/
theorem sameSymbols_joined {text : String} (h : Faultless text) :
    SameSymbols text (joined (symbolTexts text)) := by
  obtain ⟨tokens, htexts, hread⟩ :=
    exists_tokens_of_joined (fun _ hsymbol ↦ isSymbol_of_mem_symbolTexts hsymbol) {}
  have hreadings : readingsOf (joined (symbolTexts text)) = tokens.map Reading.token := hread
  have hjoined : symbolTexts (joined (symbolTexts text)) = symbolTexts text := by
    have hfound := congrArg (List.filterMap Reading.text?) hreadings
    rw [filterMap_text?_tokens, htexts] at hfound
    exact hfound
  refine ⟨h, fun reading hreading ↦ ?_, hjoined.symm⟩
  rw [hreadings] at hreading
  obtain ⟨token, -, rfl⟩ := List.mem_map.mp hreading
  rfl

/-- A text without lexical faults is read to the same end however its symbols are laid out, and
above all as its symbols joined by blanks. This is so whatever the tables hold at the start, and of
texts with mistakes in them too.

Assumes: everything that is read off the text is a symbol. -/
theorem parse_layout (names : Names) (network : Network) (monitors : Monitors) {text : String}
    (h : Faultless text) :
    (∀ text', Faultless text' → symbolTexts text = symbolTexts text' →
      SameEnd text text' (Builder.start names network monitors text).parse
        (Builder.start names network monitors text').parse) ∧
    Faultless (joined (symbolTexts text)) ∧
    symbolTexts (joined (symbolTexts text)) = symbolTexts text := by
  have hjoined := sameSymbols_joined h
  refine ⟨fun text' h' htexts ↦ ?_, hjoined.right, hjoined.texts.symm⟩
  have hsame : SameSymbols text text' := ⟨h, h', htexts⟩
  exact hsame.parse names network monitors

/-- An unknown gate, described on one line. -/
def unknownGate : String :=
  "devices { A is B; }"

/-- The unknown gate on several lines, with a comment and a filler word. -/
def unknownGateSpread : String :=
  "# one\ndevices \x7b\n\tA is a B // ? //\n;\x7d"

theorem unknown_gate_layout :
    Faultless unknownGate ∧ Faultless unknownGateSpread ∧
    symbolTexts unknownGate = symbolTexts unknownGateSpread ∧
    SameEnd unknownGate unknownGateSpread
      (Builder.start {} (Circuit.blank {} {}).2 {} unknownGate).parse
      (Builder.start {} (Circuit.blank {} {}).2 {} unknownGateSpread).parse := by
  have hleft : Faultless unknownGate := by decide +kernel
  have hright : Faultless unknownGateSpread := by decide +kernel
  have htexts : symbolTexts unknownGate = symbolTexts unknownGateSpread := by decide +kernel
  exact ⟨hleft, hright, htexts, (parse_layout _ _ _ hleft).1 _ hright htexts⟩

end Breadboard.Description
