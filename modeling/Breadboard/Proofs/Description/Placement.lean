import Breadboard.Circuit
import Breadboard.Proofs.Description.Scanning
import Breadboard.Proofs.Text.Lines

/-!
# Where complaints are placed

Whatever is filed while a description is read is placed where a reading starts or where the text
ends, also when the reading is long past: a property of all of these places is a property of every
place that is filed (`Builder.within_parse`). So every diagnostic points at the first character of a
piece of the text that is not skipped, or at the end of the text. Its line is the line of the text
that this place is in, the character stands in this line at the column of the place, and in the
rendered diagnostic the caret stands under it (`points_of_mem_diagnostics`).
-/

set_option autoImplicit false
set_option relaxedAutoImplicit false

namespace Breadboard.Description

open Text (Position IsLine lineSoFar)

variable {P : Position → Prop}

/-! ### Readers -/

namespace Reader

variable {r : Reader}

/-- Where a reader stands, what is ahead of it and what has been filed are at places of a kind. -/
structure Within (P : Position → Prop) (r : Reader) : Prop where
  current : P r.current.position
  rest : ∀ reading ∈ r.rest, P reading.position
  finish : P r.finish
  log : ∀ report ∈ r.log, P report.position

/-- A report may be filed at any of the places. -/
theorem Within.file (h : r.Within P) (fault : Fault) {position : Position}
    (hposition : P position) : (r.file fault position).Within P := by
  refine ⟨h.current, h.rest, h.finish, fun report hreport ↦ ?_⟩
  rcases List.mem_append.mp hreport with hlog | hlast
  · exact h.log report hlog
  · rw [List.mem_singleton.mp hlast]
    exact hposition

theorem Within.unexpected (h : r.Within P) (what : Expectation) : (r.unexpected what).Within P :=
  h.file _ h.current

/-- The token that is come to, and the faults before it, are among the readings in front. -/
theorem within_pull {rest : List Reading} (hrest : ∀ reading ∈ rest, P reading.position)
    (hfinish : P r.finish) (hlog : ∀ report ∈ r.log, P report.position) :
    (r.pull rest).Within P := by
  fun_induction pull r rest with
  | case1 r => exact ⟨hfinish, fun _ h ↦ absurd h List.not_mem_nil, hfinish, hlog⟩
  | case2 r token rest =>
    exact ⟨hrest _ List.mem_cons_self, fun reading h ↦ hrest reading (List.mem_cons_of_mem _ h),
      hfinish, hlog⟩
  | case3 r fault position rest ih =>
    refine ih (fun reading h ↦ hrest reading (List.mem_cons_of_mem _ h)) hfinish fun report h ↦ ?_
    rcases List.mem_append.mp h with hold | hlast
    · exact hlog report hold
    · rw [List.mem_singleton.mp hlast]
      exact hrest _ List.mem_cons_self

/-- To advance is to come to a place in front. -/
theorem Within.advance (h : r.Within P) : r.advance.Within P := by
  rw [Reader.advance]
  split
  · exact h
  · exact within_pull h.rest h.finish h.log

theorem Within.resolve (h : r.Within P) (list : List String) :
    ({ r with names := (r.names.resolveAll r.mode list).2 } : Reader).Within P :=
  ⟨h.current, h.rest, h.finish, h.log⟩

theorem Within.inMode (h : r.Within P) (mode : NameMode) : ({ r with mode } : Reader).Within P :=
  ⟨h.current, h.rest, h.finish, h.log⟩

/-- Skipping ends at a place in front. -/
theorem Within.skipTo (h : r.Within P) (anchors : List Anchor) : (r.skipTo anchors).Within P := by
  fun_induction Reader.skipTo r anchors with
  | case1 => exact h
  | case2 r _ ih => exact ih h.advance

/-- A statement is skipped to a place in front. -/
theorem Within.skipStatement (h : r.Within P) : r.skipStatement.Within P := by
  have hskipped := h.skipTo [.semicolon, .closeBrace, .heading]
  rw [Reader.skipStatement, passSemicolon]
  split
  · exact hskipped.advance
  · exact hskipped

/-- A block is skipped to a place in front. -/
theorem Within.skipBlock (h : r.Within P) : r.skipBlock.Within P := by
  have hskipped := h.advance.advance.skipTo [.closeBrace, .heading]
  rw [Reader.skipBlock]
  dsimp only
  split
  · split
    · exact hskipped.advance
    · exact hskipped
  · exact h.advance

end Reader

/-! ### Attempts -/

namespace Attempt

variable {α β : Type} {m : Attempt α} {Q Q' : α → Prop} {R : β → Prop}

/-- An attempt files at places of a kind, and yields values of a kind. -/
def Yields (P : Position → Prop) (m : Attempt α) (Q : α → Prop) : Prop :=
  ∀ r : Reader, r.Within P → (m.run r).2.Within P ∧ ∀ a, (m.run r).1 = some a → Q a

/-- The rule for attempts one after another, by which all that follows is put together. -/
theorem Yields.bind {f : α → Attempt β} (hm : m.Yields P Q) (hf : ∀ a, Q a → (f a).Yields P R) :
    (m >>= f).Yields P R := by
  intro r hr
  obtain ⟨hwithin, hvalue⟩ := hm r hr
  rw [run_bind]
  rcases hrun : m.run r with ⟨_ | a, s⟩ <;> rw [hrun] at hwithin hvalue
  · exact ⟨hwithin, nofun⟩
  · exact hf a (hvalue a rfl) s hwithin

theorem yields_pure {a : α} (h : Q a) : (pure a : Attempt α).Yields P Q :=
  fun _ hr ↦ ⟨hr, fun _ ha ↦ Option.some.inj ha ▸ h⟩

/-- The token that a reader stands on is in one of the places. -/
theorem yields_current : current.Yields P fun token ↦ P token.position :=
  fun _ hr ↦ ⟨hr, fun _ ha ↦ Option.some.inj ha ▸ hr.current⟩

theorem yields_advance : advance.Yields P fun _ ↦ True :=
  fun _ hr ↦ ⟨hr.advance, fun _ _ ↦ trivial⟩

theorem yields_numberOf (name : String) : (numberOf name).Yields P fun _ ↦ True :=
  fun _ hr ↦ ⟨hr, fun _ _ ↦ trivial⟩

theorem yields_resolveAll (list : List String) : (resolveAll list).Yields P fun _ ↦ True :=
  fun _ hr ↦ ⟨hr.resolve list, fun _ _ ↦ trivial⟩

/-- A refusal is filed at one of the places. -/
theorem yields_refuse (fault : Fault) {position : Position} (h : P position) :
    (refuse fault position : Attempt α).Yields P Q :=
  fun _ hr ↦ ⟨hr.file fault h, nofun⟩

theorem yields_unexpected (what : Expectation) : (unexpected what : Attempt α).Yields P Q :=
  fun _ hr ↦ ⟨hr.unexpected what, nofun⟩

theorem yields_expect (lexeme : Lexeme) (what : Expectation) :
    (expect lexeme what).Yields P fun _ ↦ True := by
  refine yields_current.bind fun token _ ↦ ?_
  split
  · exact yields_advance
  · exact yields_unexpected what

/-- What holds of every item holds of a list: the induction is on the items that are read. -/
theorem Yields.commaList (h : m.Yields P Q) :
    (commaList m).Yields P fun items ↦ ∀ a ∈ items, Q a := by
  intro r hr
  change (commaItems m r).2.Within P ∧ ∀ items, (commaItems m r).1 = some items → ∀ a ∈ items, Q a
  fun_induction commaItems m r with
  | case1 r _ s hrun =>
    have hitem := (h r.advance hr.advance).1
    rw [hrun] at hitem
    exact ⟨hitem, fun _ hitems ↦ absurd hitems.symm (Option.some_ne_none _)⟩
  | case2 r _ a s hrun t hmore ih =>
    have hitem := (h r.advance hr.advance).1
    rw [hrun] at hitem
    have hmore' := ih hitem
    rw [hmore] at hmore'
    exact ⟨hmore'.1, fun _ hitems ↦ absurd hitems.symm (Option.some_ne_none _)⟩
  | case3 r _ a s hrun more t hmore ih =>
    obtain ⟨hitem, ha⟩ := h r.advance hr.advance
    rw [hrun] at hitem ha
    have hmore' := ih hitem
    rw [hmore] at hmore'
    refine ⟨hmore'.1, ?_⟩
    rintro items hitems b hb
    obtain rfl := Option.some.inj hitems
    rcases List.mem_cons.mp hb with rfl | hb
    · exact ha b rfl
    · exact hmore'.2 more rfl b hb
  | case4 r _ =>
    refine ⟨hr, ?_⟩
    rintro items hitems b hb
    obtain rfl := Option.some.inj hitems
    cases hb

theorem Yields.separated (h : m.Yields P Q) :
    (separated m).Yields P fun items ↦ ∀ a ∈ items, Q a :=
  h.bind fun _ hfirst ↦ h.commaList.bind fun _ hmore ↦
    yields_pure (List.forall_mem_cons.mpr ⟨hfirst, hmore⟩)

end Attempt

open Attempt

/-! ### Statements -/

theorem yields_knownName (unknown : String → Fault) (what : Expectation) :
    (knownName unknown what).Yields P fun mention ↦ P mention.position := by
  refine yields_current.bind fun token htoken ↦ ?_
  split
  · refine (yields_numberOf _).bind fun id? _ ↦ ?_
    split
    · exact yields_advance.bind fun _ _ ↦ yields_pure htoken
    · exact yields_refuse _ htoken
  · exact yields_unexpected what

theorem yields_number : number.Yields P fun value ↦ P value.2 := by
  refine yields_current.bind fun token htoken ↦ ?_
  split
  · exact yields_advance.bind fun _ _ ↦ yields_pure htoken
  · exact yields_unexpected _

theorem yields_rangeTargets {first : Mention} (hfirst : P first.position) (last : Mention) :
    (rangeTargets first last).Yields P fun targets ↦ ∀ target ∈ targets, P target.position := by
  rw [rangeTargets]
  split
  · exact yields_refuse _ hfirst
  · refine (yields_resolveAll _).bind fun ids _ ↦ ?_
    split
    · exact yields_refuse _ hfirst
    · refine yields_pure fun target htarget ↦ ?_
      obtain ⟨id, _, rfl⟩ := List.mem_map.mp htarget
      exact hfirst

/-- The devices of a list or range are mentioned in one of the places. -/
theorem yields_targets :
    targets.Yields P fun targets ↦ ∀ target ∈ targets, P target.position := by
  refine (yields_knownName _ _).bind fun first hfirst ↦ yields_current.bind fun token _ ↦ ?_
  split
  · exact yields_advance.bind fun _ _ ↦ (yields_knownName _ _).bind fun last _ ↦
      yields_rangeTargets hfirst last
  · refine (yields_knownName _ _).commaList.bind fun more hmore ↦
      yields_pure fun target htarget ↦ ?_
    obtain ⟨mention, hmention, rfl⟩ := List.mem_map.mp htarget
    rcases List.mem_cons.mp hmention with rfl | hmention
    · exact hfirst
    · exact hmore mention hmention

theorem yields_deviceKind : deviceKind.Yields P fun _ ↦ True := by
  refine yields_current.bind fun token htoken ↦ ?_
  split
  · refine yields_advance.bind fun _ _ ↦ yields_current.bind fun next _ ↦ ?_
    split
    · refine yields_advance.bind fun _ _ ↦ yields_current.bind fun word _ ↦ ?_
      split
      · exact yields_advance.bind fun _ _ ↦ yields_pure trivial
      · exact yields_unexpected _
    · split
      · exact yields_pure trivial
      · split
        · exact yields_refuse _ htoken
        · exact yields_refuse _ htoken
  · exact yields_unexpected _

theorem yields_halfPeriod : halfPeriod.Yields P fun _ ↦ True := by
  refine yields_number.bind fun ⟨cycles, position⟩ hposition ↦ ?_
  dsimp only
  split
  · exact yields_refuse _ hposition
  · exact yields_pure trivial

theorem yields_levelOf (value : Nat) {position : Position} (h : P position) :
    (match value with
      | 0 => pure (.level Level.low)
      | 1 => pure (.level Level.high)
      | _ => refuse (.switchLevel value) position : Attempt Clause).Yields P fun _ ↦ True := by
  split
  · exact yields_pure trivial
  · exact yields_pure trivial
  · exact yields_refuse _ h

theorem yields_switchLevel : switchLevel.Yields P fun _ ↦ True := by
  refine yields_current.bind fun token _ ↦ ?_
  dsimp only
  split
  · exact yields_advance.bind fun _ _ ↦ yields_number.bind fun value hvalue ↦
      yields_levelOf value.1 hvalue
  · exact yields_number.bind fun value hvalue ↦ yields_levelOf value.1 hvalue

theorem yields_clause (inInit : Bool) : (clause inInit).Yields P fun _ ↦ True := by
  refine yields_current.bind fun verb hverb ↦ ?_
  have hdefine : (if inInit = true then refuse .notInInit verb.position else do
      advance
      return .define (← deviceKind) : Attempt Clause).Yields P fun _ ↦ True := by
    split
    · exact yields_refuse _ hverb
    · exact yields_advance.bind fun _ _ ↦ yields_deviceKind.bind fun _ _ ↦ yields_pure trivial
  have hpossess : (do
      advance
      if (← current).lexeme = .keyword .cycle then
        advance
        halfPeriod
      else if inInit = true then refuse .notInInit verb.position
      else return .inputs (← number).1 : Attempt Clause).Yields P fun _ ↦ True := by
    refine yields_advance.bind fun _ _ ↦ yields_current.bind fun next _ ↦ ?_
    split
    · exact yields_advance.bind fun _ _ ↦ yields_halfPeriod
    · split
      · exact yields_refuse _ hverb
      · exact yields_number.bind fun _ _ ↦ yields_pure trivial
  split
  · exact hdefine
  · exact hdefine
  · exact hpossess
  · exact hpossess
  · exact yields_advance.bind fun _ _ ↦ yields_switchLevel
  · split
    · exact yields_refuse _ hverb
    · exact yields_unexpected _

/-- A statement about devices mentions them in one of the places. -/
theorem yields_deviceStatement (inInit : Bool) :
    (deviceStatement inInit).Yields P fun statement ↦
      ∀ target ∈ statement.targets, P target.position :=
  yields_targets.bind fun _ htargets ↦ (yields_clause inInit).bind fun _ _ ↦
    (yields_expect _ _).bind fun _ _ ↦ yields_pure htargets

theorem yields_output : output.Yields P fun output ↦ P output.position := by
  refine (yields_knownName _ _).bind fun device hdevice ↦ yields_current.bind fun next _ ↦ ?_
  split
  · exact yields_advance.bind fun _ _ ↦ (yields_knownName _ _).bind fun _ _ ↦ yields_pure hdevice
  · exact yields_pure hdevice

theorem yields_blockHeader : blockHeader.Yields P fun token ↦ P token.position := by
  refine (yields_expect _ _).bind fun _ _ ↦ yields_current.bind fun token htoken ↦ ?_
  split
  · exact yields_pure htoken
  · exact yields_unexpected _

theorem yields_blockOpening : blockOpening.Yields P fun _ ↦ True :=
  yields_advance.bind fun _ _ ↦ yields_expect _ _

/-- A connection mentions its output in one of the places. -/
theorem yields_connection (block : NameId) (blockName : String) :
    (connection block blockName).Yields P fun connection ↦ P connection.source.position := by
  refine yields_output.bind fun source hsource ↦ (yields_expect _ _).bind fun _ _ ↦
    (yields_knownName _ _).bind fun target htarget ↦ ?_
  split
  · exact (yields_expect _ _).bind fun _ _ ↦ (yields_knownName _ _).bind fun _ _ ↦
      (yields_expect _ _).bind fun _ _ ↦ yields_pure hsource
  · exact yields_refuse _ htarget

/-- A demand to watch mentions its outputs in some of the places. -/
theorem yields_monitorStatement :
    monitorStatement.Yields P fun outputs ↦ ∀ output ∈ outputs, P output.position := by
  have houtputs := (yields_output (P := P)).separated
  refine yields_current.bind fun token _ ↦ ?_
  dsimp only
  split
  · exact yields_advance.bind fun _ _ ↦ houtputs.bind fun _ h ↦
      (yields_expect _ _).bind fun _ _ ↦ yields_pure h
  · exact houtputs.bind fun _ h ↦ (yields_expect _ _).bind fun _ _ ↦ yields_pure h

/-! ### Descriptions -/

namespace Builder

variable {b : Builder}

/-- Steps for items that are in the places, one after another. -/
theorem within_foldl {τ : Type} {f : Builder → τ → Builder} {R : τ → Prop}
    (hf : ∀ b x, R x → b.reader.Within P → (f b x).reader.Within P) {list : List τ}
    (hlist : ∀ x ∈ list, R x) (h : b.reader.Within P) : (list.foldl f b).reader.Within P := by
  induction list generalizing b with
  | nil => exact h
  | cons x list ih =>
    obtain ⟨hfirst, hrest⟩ := List.forall_mem_cons.mp hlist
    exact ih hrest (hf b x hfirst h)

theorem within_fileAll (h : b.reader.Within P) (faults : List Fault) {position : Position}
    (hposition : P position) : (b.fileAll faults position).reader.Within P :=
  within_foldl (R := fun _ ↦ True) (fun _ fault _ hb ↦ hb.file fault hposition)
    (fun _ _ ↦ trivial) h

theorem within_declareAll {statement : DeviceStatement}
    (htargets : ∀ target ∈ statement.targets, P target.position) (h : b.reader.Within P) :
    (b.declareAll statement).reader.Within P := by
  rw [declareAll_eq]
  refine within_foldl (fun b target htarget hb ↦ ?_) htargets h
  rw [declare_eq]
  split
  · exact hb
  · exact hb.file _ htarget

theorem within_connect (block : NameId) {connection : Connection}
    (hsource : P connection.source.position) (h : b.reader.Within P) :
    (b.connect block connection).reader.Within P := by
  rw [connect_eq]
  split
  · exact h
  · exact h.file _ hsource

theorem within_watchAll {outputs : List OutputMention}
    (houtputs : ∀ output ∈ outputs, P output.position) (h : b.reader.Within P) :
    (b.watchAll outputs).reader.Within P := by
  rw [watchAll_eq]
  refine within_foldl (fun b output houtput hb ↦ ?_) houtputs h
  rw [watch_eq]
  split
  · exact hb
  · exact hb.file _ houtput

/-- A statement is acted on or skipped within the places. -/
theorem within_statement {σ : Type} {form : Attempt σ} {act : Builder → σ → Builder}
    {Q : σ → Prop} (hform : form.Yields P Q)
    (hact : ∀ b x, Q x → b.reader.Within P → (act b x).reader.Within P)
    (h : b.reader.Within P) : (b.statement form act).reader.Within P := by
  obtain ⟨hwithin, hvalue⟩ := hform b.reader h
  rw [statement_eq]
  split
  · next x s hrun =>
    rw [hrun] at hwithin hvalue
    exact hact _ x (hvalue x rfl) hwithin
  · next s hrun =>
    rw [hrun] at hwithin
    exact hwithin.skipStatement

/-- The turns of a loop are taken within the places: the induction is on what is unread. -/
theorem within_untilSectionEnd {step : Builder → Builder}
    (hstep : ∀ b, b.reader.Within P → (step b).reader.Within P)
    {progress : ∀ b : Builder, b.reader.atSectionEnd = false →
      (step b).reader.unread < b.reader.unread}
    (h : b.reader.Within P) : (b.untilSectionEnd step progress).reader.Within P := by
  induction b using induction_untilSectionEnd progress with
  | stop b hover => exact (untilSectionEnd_of_end hover).symm ▸ h
  | next b hinside ih => exact (untilSectionEnd_of_inside hinside).symm ▸ ih (hstep b h)

theorem within_blockBody (block : NameId) (blockName : String) (h : b.reader.Within P) :
    (b.blockBody block blockName).reader.Within P := by
  rw [blockBody_eq]
  exact within_statement (yields_expect _ _) (fun _ _ _ hb ↦ hb)
    (within_untilSectionEnd (fun _ ↦ within_statement (yields_connection block blockName)
      fun _ _ hsource hb ↦ within_connect block hsource hb) h)

theorem within_blockFor {header : Token} (hheader : P header.position) (h : b.reader.Within P) :
    (b.blockFor header).reader.Within P := by
  rw [blockFor_eq]
  split
  · exact within_statement yields_blockOpening (fun _ _ _ hb ↦ within_blockBody _ _ hb) h
  · exact (h.file _ hheader).skipBlock

/-- The statements of a section are carried out within the places. -/
theorem within_body (heading : Heading) (h : b.reader.Within P) :
    (b.body heading).reader.Within P := by
  rw [body_eq]
  cases heading with
  | devices | init =>
    exact within_untilSectionEnd (fun _ ↦ within_statement (yields_deviceStatement _)
      fun _ _ htargets hb ↦ within_declareAll htargets hb) h
  | connections =>
    exact within_untilSectionEnd (fun _ ↦ within_statement yields_blockHeader
      fun _ _ hheader hb ↦ within_blockFor hheader hb) h
  | monitor =>
    exact within_untilSectionEnd (fun _ ↦ within_statement yields_monitorStatement
      fun _ _ houtputs hb ↦ within_watchAll houtputs hb) h

theorem within_note (heading : Heading) (h : b.reader.Within P) :
    (b.note heading).reader.Within P := by
  rw [note]
  split
  · exact h.file _ h.current
  · exact h

theorem within_close (heading : Heading) (h : b.reader.Within P) :
    (b.close heading).reader.Within P := by
  have hmode := h.inMode .declare
  rw [close_eq]
  refine within_fileAll ?_ _ h.current
  rw [passEnd]
  split
  · exact hmode.advance
  · exact hmode.unexpected _

/-- A section is parsed within the places. -/
theorem within_parseSection (heading : Heading) (h : b.reader.Within P) :
    (b.parseSection heading).reader.Within P := by
  have hfirst := (within_note heading h).advance
  rw [parseSection_eq]
  split
  · exact within_close heading (within_body heading (hfirst.inMode (modeOf heading)).advance)
  · exact (hfirst.unexpected _).skipTo _

/-- A whole description is parsed within the places. -/
theorem within_parse (h : b.reader.Within P) : b.parse.reader.Within P := by
  induction b using induction_parse with
  | ended b hend =>
    rw [parse_ended hend]
    exact within_fileAll h _ h.current
  | beforeDevices b hend heading hheading hearly =>
    rw [parse_beforeDevices hend hheading hearly]
    exact h.file _ h.current
  | heading b hend heading hheading hdue ih =>
    rw [parse_heading hend hheading hdue]
    exact ih (within_parseSection heading h)
  | stray b hend hheading ih =>
    rw [parse_stray hend hheading]
    exact ih ((h.unexpected _).skipTo _)

/-- At the start of a text everything in front is in a place of the text. -/
theorem within_start (names : Names) (network : Network) (monitors : Monitors) (text : String) :
    (start names network monitors text).reader.Within (Placed text.toList) :=
  Reader.within_pull (fun _ h ↦ placed_of_mem_readings h) (.finish (readings_finish text))
    fun _ h ↦ absurd h List.not_mem_nil

end Builder

/-! ### Diagnostics -/

/-- A diagnostic is about the place behind a part of a text, and shows the line that it is in. -/
structure Locates (text before : List Char) (d : Diagnostic) : Prop where
  line : d.position.line = before.count '\n' + 1
  column : d.position.column = (lineSoFar before).length + 1
  shows : IsLine text d.position.line d.lineText.toList

/-- A rendered diagnostic shows its line, indented by four blanks, and a caret under a character in
its column. -/
def CaretUnder (c : Char) (d : Diagnostic) : Prop :=
  let shown := List.replicate 4 ' ' ++ d.lineText.toList
  let column := 4 + (d.position.column - 1)
  ∃ header tail, d.render.toList =
      header ++ '\n' :: (shown ++ '\n' :: (List.replicate column ' ' ++ '^' :: '\n' :: tail)) ∧
    '\n' ∉ header ∧ '\n' ∉ shown ∧ shown[column]? = some c

/-- A diagnostic points at the first character of a piece of a text that is a lexeme or a fault, or
at the end of the text. -/
inductive Points (text : List Char) (d : Diagnostic) : Prop
  | piece {before rest : List Char} {c : Char} : Cut text before (c :: rest) →
    (Piece.cut c rest).role ≠ .skipped → Locates text before d →
    d.lineText.toList[d.position.column - 1]? = some c → CaretUnder c d → Points text d
  | finish : Locates text text d → Points text d

theorem newline_not_mem_toDigits (n : Nat) : '\n' ∉ Nat.toDigits 10 n := fun h ↦
  absurd (Nat.isDigit_of_mem_toDigits (by decide) (by decide) h) (by decide)

/-- The header, the indented line, and the caret as far behind the indent as the column says. -/
theorem toList_render (d : Diagnostic) : ∃ tail, d.render.toList =
    "Error on line ".toList ++ (toString d.position.line).toList ++ [':'] ++ '\n' ::
      (List.replicate 4 ' ' ++ d.lineText.toList ++ '\n' ::
        (List.replicate (4 + (d.position.column - 1)) ' ' ++ '^' :: '\n' :: tail)) := by
  refine ⟨(d.category.label ++ ": " ++ d.message ++ "\n" ++
    String.ofList (List.replicate 30 '-') ++ "\n").toList, ?_⟩
  have hindent : "    ".toList = List.replicate 4 ' ' := rfl
  have hbreak : "\n".toList = ['\n'] := rfl
  have hcolon : ":\n".toList = [':', '\n'] := rfl
  have hcaret : "^\n".toList = ['^', '\n'] := rfl
  unfold Diagnostic.render
  simp only [String.toList_append, String.toList_ofList, hindent, hbreak, hcolon, hcaret,
    List.replicate_add, List.append_assoc, List.cons_append, List.nil_append]

theorem Locates.caretUnder {text before : List Char} {c : Char} {d : Diagnostic}
    (h : Locates text before d) (hc : d.lineText.toList[d.position.column - 1]? = some c) :
    CaretUnder c d := by
  obtain ⟨_, _, _, _, _, hline, _⟩ := h.shows
  obtain ⟨tail, hrender⟩ := toList_render d
  refine ⟨_, tail, hrender, ?_, ?_, ?_⟩
  · simp [newline_not_mem_toDigits]
  · simp [hline]
  · rw [List.getElem?_append_right (by simp), List.length_replicate, Nat.add_sub_cancel_left]
    exact hc

variable {text before rest : List Char} {report : Report}

/-- The line and the column of a place behind some characters are those that the characters come to.
-/
theorem locates_of_append (htext : text = before ++ rest)
    (hposition : report.position = ({} : Position).afterAll before) :
    Locates text before (report.diagnostic (Text.lines text)) := by
  have hline : report.position.line = before.count '\n' + 1 := by
    rw [hposition, Text.line_afterAll]
  have hcolumn : report.position.column = (lineSoFar before).length + 1 := by
    rw [hposition, Text.column_afterAll]
  have hle : before.count '\n' ≤ text.count '\n' := by
    rw [htext, List.count_append]
    exact Nat.le_add_right ..
  exact ⟨hline, hcolumn, Text.isLine_lineText (hline ▸ Nat.le_add_left ..)
    (hline ▸ Nat.add_le_add_right hle 1)⟩

theorem points_of_placed (h : Placed text report.position) :
    Points text (report.diagnostic (Text.lines text)) := by
  cases h with
  | @piece before rest c hcut hrole hposition =>
    have hlocates := locates_of_append hcut.append hposition
    have hblank := not_isBlank_of_role hrole
    have hfeed : c ≠ '\n' := fun h ↦ absurd (h ▸ hblank) (by decide)
    have hreturn : c ≠ '\r' := fun h ↦ absurd (h ▸ hblank) (by decide)
    have hline := hlocates.shows
    rw [hlocates.line] at hline
    have hshown := hline.getElem?_column hcut.append hfeed hreturn
    rw [← Nat.add_sub_cancel (n := (lineSoFar before).length) (m := 1), ← hlocates.column] at hshown
    exact .piece hcut hrole hlocates hshown (hlocates.caretUnder hshown)
  | finish hposition =>
    exact .finish (locates_of_append (List.append_nil text).symm hposition)

/-- Every diagnostic points at its cause, whatever the text and whatever the tables hold at the
start: at the first character of a lexeme or of a fault in the text, or at the end of the text. Its
line and column are those of this place, its line is the line of the text with this number, without
its line break, the character stands in this line at this column, and in the rendered diagnostic the
caret stands under it. -/
theorem diagnostics_point (names : Names) (network : Network) (monitors : Monitors)
    (text : String) (d : Diagnostic)
    (h : d ∈ (Builder.start names network monitors text).parse.diagnostics text) :
    Points text.toList d := by
  obtain ⟨report, hreport, rfl⟩ := List.mem_map.mp h
  exact points_of_placed
    ((Builder.within_parse (Builder.within_start names network monitors text)).log report hreport)

/-- After a comment over two lines with different line breaks, a stray character is pointed at in
the third line. -/
theorem stray_character_pointed :
    ⟨.form, "invalid character '?'", ⟨3, 3⟩, "\t ?"⟩ ∈
      (Builder.start {} (Circuit.blank {} {}).2 {} "// one\r\n two //\n\t ?").parse.diagnostics
        "// one\r\n two //\n\t ?" ∧
    Points "// one\r\n two //\n\t ?".toList
      ⟨.form, "invalid character '?'", ⟨3, 3⟩, "\t ?"⟩ := by
  have hlog : (Builder.start {} (Circuit.blank {} {}).2 {}
      "// one\r\n two //\n\t ?").parse.reader.log =
      [⟨.lexical (.invalidCharacter '?'), ⟨3, 3⟩⟩, ⟨.missing .devices, ⟨3, 4⟩⟩,
        ⟨.missing .connections, ⟨3, 4⟩⟩] := by decide +kernel
  have hstray : Report.diagnostic (Text.lines "// one\r\n two //\n\t ?".toList)
      ⟨.lexical (.invalidCharacter '?'), ⟨3, 3⟩⟩ =
      ⟨.form, "invalid character '?'", ⟨3, 3⟩, "\t ?"⟩ := by rfl
  have hmem : ⟨.form, "invalid character '?'", ⟨3, 3⟩, "\t ?"⟩ ∈
      (Builder.start {} (Circuit.blank {} {}).2 {} "// one\r\n two //\n\t ?").parse.diagnostics
        "// one\r\n two //\n\t ?" := by
    rw [Builder.diagnostics, hlog, List.map_cons, hstray]
    exact List.mem_cons_self
  exact ⟨hmem, diagnostics_point _ _ _ _ _ hmem⟩

end Breadboard.Description
