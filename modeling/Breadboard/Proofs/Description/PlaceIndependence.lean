import Breadboard.Description.Section

/-!
# Reading does not look at places

A reader carries the places of what it reads, and hands them on to what it files, but nothing that
it does depends on them. So if all places that a reader holds are moved somewhere else, what it
builds is the same, and what it files is the same at the places that were moved
(`Builder.parse_moved`).
-/

set_option autoImplicit false
set_option relaxedAutoImplicit false

namespace Breadboard.Description

open Text (Position sameWord)

variable {move : Position → Position}

/-! ### Readers -/

/-- The token at another place. -/
def Token.moved (move : Position → Position) (token : Token) : Token :=
  { token with position := move token.position }

/-- What is read, at another place. -/
def Reading.moved (move : Position → Position) : Reading → Reading
  | .token found => .token (found.moved move)
  | .fault reason position => .fault reason (move position)

/-- The report about another place. -/
def Report.moved (move : Position → Position) (report : Report) : Report :=
  { report with position := move report.position }

namespace Reader

/-- The reader with all of its places moved. -/
def moved (move : Position → Position) (r : Reader) : Reader :=
  { r with
    current := r.current.moved move
    rest := r.rest.map (Reading.moved move)
    finish := move r.finish
    log := r.log.map (Report.moved move) }

/-- A report is filed at the moved place. -/
theorem file_moved (r : Reader) (fault : Fault) (position : Position) :
    (r.moved move).file fault (move position) = (r.file fault position).moved move := by
  rw [file, file, moved, moved, List.map_append]
  rfl

theorem unexpected_moved (r : Reader) (what : Expectation) :
    (r.moved move).unexpected what = (r.unexpected what).moved move :=
  r.file_moved ..

/-- Readings are pulled in the same way wherever they stand. -/
theorem pull_moved (r : Reader) (readings : List Reading) :
    (r.moved move).pull (readings.map (Reading.moved move)) = (r.pull readings).moved move := by
  fun_induction pull r readings with
  | case1 r => rfl
  | case2 r token rest => rfl
  | case3 r fault position rest ih =>
    rw [List.map_cons, Reading.moved, pull, file_moved, ih]

/-- To advance has nothing to do with places. -/
theorem advance_moved (r : Reader) : (r.moved move).advance = r.advance.moved move := by
  rw [advance, advance, apply_ite (moved move), ← pull_moved]
  rfl

/-- Where skipping ends is decided by lexemes alone. -/
theorem skipTo_moved (r : Reader) (anchors : List Anchor) :
    (r.moved move).skipTo anchors = (r.skipTo anchors).moved move := by
  fun_induction skipTo r anchors with
  | case1 r hstop =>
    have hstop' : (r.moved move).atEnd = true ∨
        anchors.any (·.isAt (r.moved move).current.lexeme) = true := hstop
    rw [skipTo, dif_pos hstop']
  | case2 r hgo ih =>
    have hgo' : ¬ ((r.moved move).atEnd = true ∨
        anchors.any (·.isAt (r.moved move).current.lexeme) = true) := hgo
    rw [skipTo, dif_neg hgo', advance_moved, ih]

theorem passSemicolon_moved (r : Reader) :
    (r.moved move).passSemicolon = r.passSemicolon.moved move := by
  rw [passSemicolon, passSemicolon, apply_ite (moved move), ← advance_moved]
  rfl

/-- A statement is skipped to the same symbol. -/
theorem skipStatement_moved (r : Reader) :
    (r.moved move).skipStatement = r.skipStatement.moved move := by
  rw [skipStatement, skipTo_moved, passSemicolon_moved]
  rfl

/-- A block is skipped to the same symbol. -/
theorem skipBlock_moved (r : Reader) : (r.moved move).skipBlock = r.skipBlock.moved move := by
  rw [skipBlock, skipBlock]
  dsimp only
  rw [advance_moved, advance_moved, skipTo_moved, advance_moved, apply_ite (moved move),
    apply_ite (moved move)]
  rfl

end Reader

/-! ### Attempts -/

namespace Attempt

variable {α β : Type} {say : α → α} {say' : β → β} {m m' : Attempt α}

/-- An attempt on a reader, and one on the reader with its places moved: they come to the same, but
for the places in the value. -/
def Moves (move : Position → Position) (say : α → α) (m m' : Attempt α) : Prop :=
  ∀ r : Reader, m'.run (r.moved move) = ((m.run r).1.map say, (m.run r).2.moved move)

/-- The rule for attempts one after another, by which all that follows is put together. -/
theorem Moves.bind {f f' : α → Attempt β} (hm : Moves move say m m')
    (hf : ∀ a, Moves move say' (f a) (f' (say a))) : Moves move say' (m >>= f) (m' >>= f') := by
  intro r
  rw [run_bind, run_bind, hm r]
  cases hrun : m.run r with
  | mk value s =>
    cases value with
    | none => rfl
    | some a => exact hf a s

theorem moves_pure {a a' : α} (h : say a = a') : Moves move say (pure a) (pure a') :=
  fun _ ↦ h ▸ rfl

theorem Moves.ite {p : Prop} [Decidable p] {n n' : Attempt α} (h : Moves move say m m')
    (h' : Moves move say n n') : Moves move say (if p then m else n) (if p then m' else n') := by
  split
  · exact h
  · exact h'

theorem moves_current : Moves move (Token.moved move) current current :=
  fun _ ↦ rfl

theorem moves_advance : Moves move id advance advance := fun r ↦
  Prod.ext rfl r.advance_moved

theorem moves_numberOf (name : String) : Moves move id (numberOf name) (numberOf name) := by
  intro r
  rw [Option.map_id]
  rfl

theorem moves_resolveAll (list : List String) :
    Moves move id (resolveAll list) (resolveAll list) := by
  intro r
  rw [Option.map_id]
  rfl

/-- A refusal is filed at the moved place. -/
theorem moves_refuse (fault : Fault) (position : Position) :
    Moves move say (refuse fault position) (refuse fault (move position)) := fun r ↦
  Prod.ext rfl (r.file_moved fault position)

theorem moves_unexpected (what : Expectation) :
    Moves move say (unexpected what) (unexpected what) :=
  fun r ↦ Prod.ext rfl (r.unexpected_moved what)

/-- What is expected is found or missed wherever it stands. -/
theorem moves_expect (lexeme : Lexeme) (what : Expectation) :
    Moves move id (expect lexeme what) (expect lexeme what) :=
  moves_current.bind fun _ ↦ .ite moves_advance (moves_unexpected what)

/-- The items of a list are moved one by one: the induction is on the items that are read. -/
theorem Moves.commaList (h : Moves move say m m') :
    Moves move (List.map say) (commaList m) (commaList m') := by
  intro r
  change commaItems m' (r.moved move) =
    ((commaItems m r).1.map (List.map say), (commaItems m r).2.moved move)
  fun_induction commaItems m r with
  | case1 r hcomma s hs =>
    have hrun := h r.advance
    rw [← r.advance_moved, hs] at hrun
    rw [commaItems, dif_pos (show (r.moved move).current.lexeme = .comma from hcomma)]
    split
    · next heq => rw [hrun] at heq; cases heq; rfl
    · next heq => rw [hrun] at heq; cases heq
  | case2 r hcomma a s hs t ht ih | case3 r hcomma a s hs more t ht ih =>
    have hrun := h r.advance
    rw [← r.advance_moved, hs] at hrun
    rw [commaItems, dif_pos (show (r.moved move).current.lexeme = .comma from hcomma)]
    split
    · next heq => rw [hrun] at heq; cases heq
    · next heq =>
      rw [hrun] at heq
      cases heq
      rw [ih, ht]
      rfl
  | case4 r hcomma =>
    rw [commaItems, dif_neg (show ¬(r.moved move).current.lexeme = .comma from hcomma)]
    rfl

theorem Moves.separated (h : Moves move say m m') :
    Moves move (List.map say) (separated m) (separated m') :=
  h.bind fun _ ↦ h.commaList.bind fun _ ↦ moves_pure rfl

end Attempt

open Attempt

/-! ### Statements -/

/-- The name as it is met at another place. -/
def Mention.moved (move : Position → Position) (mention : Mention) : Mention :=
  { mention with position := move mention.position }

/-- The device with complaints about it placed elsewhere. -/
def Target.moved (move : Position → Position) (target : Target) : Target :=
  { target with position := move target.position }

/-- The statement with complaints about its devices placed elsewhere. -/
def DeviceStatement.moved (move : Position → Position) (statement : DeviceStatement) :
    DeviceStatement :=
  { statement with targets := statement.targets.map (Target.moved move) }

/-- The output as it is met at another place. -/
def OutputMention.moved (move : Position → Position) (output : OutputMention) : OutputMention :=
  { output with position := move output.position }

/-- The connection as it is met at another place. -/
def Connection.moved (move : Position → Position) (connection : Connection) : Connection :=
  { connection with source := connection.source.moved move }

/-- A name is known or unknown wherever it stands. -/
theorem moves_knownName (unknown : String → Fault) (what : Expectation) :
    Moves move (Mention.moved move) (knownName unknown what) (knownName unknown what) := by
  refine moves_current.bind fun token ↦ .ite ((moves_numberOf _).bind fun id? ↦ ?_)
    (moves_unexpected what)
  cases id? with
  | none => exact moves_refuse _ _
  | some id => exact moves_advance.bind fun _ ↦ moves_pure rfl

theorem moves_number : Moves move (Prod.map id move) number number := by
  refine moves_current.bind fun ⟨lexeme, text, position⟩ ↦ ?_
  cases lexeme with
  | number value => exact moves_advance.bind fun _ ↦ moves_pure rfl
  | _ => exact moves_unexpected _

theorem moves_rangeTargets (first last : Mention) :
    Moves move (List.map (Target.moved move)) (rangeTargets first last)
      (rangeTargets (first.moved move) (last.moved move)) := by
  unfold rangeTargets
  dsimp only [Mention.moved]
  split
  · exact moves_refuse _ _
  · refine (moves_resolveAll _).bind fun result ↦ ?_
    cases result with
    | error name => exact moves_refuse _ _
    | ok ids =>
      refine moves_pure ?_
      rw [List.map_map]
      rfl

/-- A list or range of names stands for the same devices wherever it stands. -/
theorem moves_targets : Moves move (List.map (Target.moved move)) targets targets := by
  refine (moves_knownName _ _).bind fun first ↦ moves_current.bind fun token ↦ .ite ?_ ?_
  · exact moves_advance.bind fun _ ↦ (moves_knownName _ _).bind fun last ↦
      moves_rangeTargets first last
  · refine (moves_knownName _ _).commaList.bind fun more ↦ moves_pure ?_
    rw [List.map_map, ← List.map_cons, List.map_map]
    rfl

theorem moves_deviceKind : Moves move id deviceKind deviceKind := by
  refine moves_current.bind fun token ↦ .ite ?_ (moves_unexpected _)
  refine moves_advance.bind fun _ ↦ moves_current.bind fun next ↦ .ite ?_ ?_
  · exact moves_advance.bind fun _ ↦ moves_current.bind fun word ↦
      .ite (moves_advance.bind fun _ ↦ moves_pure rfl) (moves_unexpected _)
  · dsimp only [Token.moved]
    split
    · exact moves_pure rfl
    · exact .ite (moves_refuse _ _) (moves_refuse _ _)

theorem moves_halfPeriod : Moves move id halfPeriod halfPeriod :=
  moves_number.bind fun _ ↦ .ite (moves_refuse _ _) (moves_pure rfl)

theorem moves_levelOf (value : Nat) (position : Position) :
    Moves move id
      (match value with
      | 0 => pure (.level Level.low)
      | 1 => pure (.level Level.high)
      | _ => refuse (.switchLevel value) position : Attempt Clause)
      (match value with
      | 0 => pure (.level Level.low)
      | 1 => pure (.level Level.high)
      | _ => refuse (.switchLevel value) (move position)) := by
  split
  · exact moves_pure rfl
  · exact moves_pure rfl
  · exact moves_refuse _ _

theorem moves_switchLevel : Moves move id switchLevel switchLevel := by
  refine moves_current.bind fun token ↦ .ite ?_ ?_
  · exact moves_advance.bind fun _ ↦ moves_number.bind fun value ↦ moves_levelOf value.1 value.2
  · exact moves_number.bind fun value ↦ moves_levelOf value.1 value.2

theorem moves_clause (inInit : Bool) : Moves move id (clause inInit) (clause inInit) := by
  refine moves_current.bind fun ⟨lexeme, text, position⟩ ↦ ?_
  have hdefine : Moves move id
      (if inInit = true then refuse .notInInit position else do
        advance
        return .define (← deviceKind) : Attempt Clause)
      (if inInit = true then refuse .notInInit (move position) else do
        advance
        return .define (← deviceKind)) :=
    .ite (moves_refuse _ _)
      (moves_advance.bind fun _ ↦ moves_deviceKind.bind fun _ ↦ moves_pure rfl)
  have hpossess : Moves move id
      (do
        advance
        if (← current).lexeme = .keyword .cycle then
          advance
          halfPeriod
        else if inInit = true then refuse .notInInit position
        else return .inputs (← number).1 : Attempt Clause)
      (do
        advance
        if (← current).lexeme = .keyword .cycle then
          advance
          halfPeriod
        else if inInit = true then refuse .notInInit (move position)
        else return .inputs (← number).1) :=
    moves_advance.bind fun _ ↦ moves_current.bind fun next ↦
      .ite (moves_advance.bind fun _ ↦ moves_halfPeriod)
        (.ite (moves_refuse _ _) (moves_number.bind fun _ ↦ moves_pure rfl))
  have hother : Moves move id
      (if inInit = true then refuse .notInInit position else unexpected .verb : Attempt Clause)
      (if inInit = true then refuse .notInInit (move position) else unexpected .verb) :=
    .ite (moves_refuse _ _) (moves_unexpected _)
  cases lexeme with
  | keyword verb =>
    cases verb with
    | is | are => exact hdefine
    | has | haveWord => exact hpossess
    | set => exact moves_advance.bind fun _ ↦ moves_switchLevel
    | _ => exact hother
  | _ => exact hother

/-- A statement about devices says the same wherever it stands. -/
theorem moves_deviceStatement (inInit : Bool) :
    Moves move (DeviceStatement.moved move) (deviceStatement inInit) (deviceStatement inInit) :=
  moves_targets.bind fun _ ↦ (moves_clause inInit).bind fun _ ↦
    (moves_expect _ _).bind fun _ ↦ moves_pure rfl

theorem moves_output : Moves move (OutputMention.moved move) output output :=
  (moves_knownName _ _).bind fun _ ↦ moves_current.bind fun _ ↦
    .ite (moves_advance.bind fun _ ↦ (moves_knownName _ _).bind fun _ ↦ moves_pure rfl)
      (moves_pure rfl)

theorem moves_blockHeader : Moves move (Token.moved move) blockHeader blockHeader :=
  (moves_expect _ _).bind fun _ ↦ moves_current.bind fun _ ↦
    .ite (moves_pure rfl) (moves_unexpected _)

theorem moves_blockOpening : Moves move id blockOpening blockOpening :=
  moves_advance.bind fun _ ↦ moves_expect _ _

/-- A connection joins the same ports wherever it stands. -/
theorem moves_connection (block : NameId) (blockName : String) :
    Moves move (Connection.moved move) (connection block blockName)
      (connection block blockName) :=
  moves_output.bind fun _ ↦ (moves_expect _ _).bind fun _ ↦ (moves_knownName _ _).bind fun _ ↦
    .ite ((moves_expect _ _).bind fun _ ↦ (moves_knownName _ _).bind fun _ ↦
      (moves_expect _ _).bind fun _ ↦ moves_pure rfl) (moves_refuse _ _)

/-- A demand to watch is for the same outputs wherever it stands. -/
theorem moves_monitorStatement :
    Moves move (List.map (OutputMention.moved move)) monitorStatement monitorStatement := by
  have houtputs : Moves move (List.map (OutputMention.moved move)) (separated output)
      (separated output) := moves_output.separated
  refine moves_current.bind fun token ↦ .ite ?_ ?_
  · exact moves_advance.bind fun _ ↦ houtputs.bind fun _ ↦ (moves_expect _ _).bind fun _ ↦
      moves_pure rfl
  · exact houtputs.bind fun _ ↦ (moves_expect _ _).bind fun _ ↦ moves_pure rfl

/-! ### Builders -/

namespace Builder

/-- The builder with all of its places moved. -/
def moved (move : Position → Position) (b : Builder) : Builder :=
  b.mapReader (Reader.moved move)

/-- What is done with a builder, and with the builder whose places are moved, comes to the same. -/
def Moves (move : Position → Position) (f f' : Builder → Builder) : Prop :=
  ∀ b : Builder, f' (b.moved move) = (f b).moved move

variable {f f' g g' : Builder → Builder}

theorem Moves.comp (hg : Moves move g g') (hf : Moves move f f') :
    Moves move (fun b ↦ g (f b)) fun b ↦ g' (f' b) :=
  fun b ↦ (congrArg g' (hf b)).trans (hg (f b))

theorem Moves.ite {p : Builder → Prop} [DecidablePred p] (hp : ∀ b, p (b.moved move) ↔ p b)
    (hf : Moves move f f') (hg : Moves move g g') :
    Moves move (fun b ↦ if p b then f b else g b) fun b ↦ if p b then f' b else g' b := by
  intro b
  dsimp only
  simp only [hp, hf b, hg b, apply_ite (moved move)]

theorem moves_mapReader {h h' : Reader → Reader}
    (heq : ∀ r : Reader, h' (r.moved move) = (h r).moved move) :
    Moves move (·.mapReader h) (·.mapReader h') :=
  fun b ↦ congrArg (Builder.mk · b.network b.monitors b.seen) (heq b.reader)

theorem moves_file (fault : Fault) (position : Position) :
    Moves move (·.file fault position) (·.file fault (move position)) :=
  moves_mapReader fun r ↦ r.file_moved fault position

theorem moves_advance : Moves move (·.mapReader Reader.advance) (·.mapReader Reader.advance) :=
  moves_mapReader fun r ↦ r.advance_moved

theorem moves_setMode (mode : NameMode) : Moves move (setMode mode) (setMode mode) :=
  moves_mapReader fun _ ↦ rfl

/-- What is declared is declared wherever it is said, and a refusal is filed there. -/
theorem moves_declare (clause : Clause) (target : Target) :
    Moves move (declare clause · target) (declare clause · (target.moved move)) := by
  intro b
  dsimp only
  rw [declare_eq, declare_eq, show (b.moved move).network = b.network from rfl,
    show (target.moved move).id = target.id from rfl]
  split
  · rfl
  · exact moves_file _ _ b

/-- What is connected is connected wherever it is said, and a refusal is filed there. -/
theorem moves_connect (block : NameId) (connection : Connection) :
    Moves move (connect block · connection) (connect block · (connection.moved move)) := by
  intro b
  dsimp only
  rw [connect_eq, connect_eq, show (b.moved move).network = b.network from rfl,
    show (connection.moved move).source.terminal = connection.source.terminal from rfl,
    show (connection.moved move).input = connection.input from rfl]
  split
  · rfl
  · exact moves_file _ _ b

theorem moves_watch (output : OutputMention) :
    Moves move (·.watch output) (·.watch (output.moved move)) := by
  intro b
  dsimp only
  rw [watch_eq, watch_eq, show (b.moved move).network = b.network from rfl,
    show (b.moved move).monitors = b.monitors from rfl,
    show (output.moved move).terminal = output.terminal from rfl]
  split
  · rfl
  · exact moves_file _ _ b

/-- Steps for moved items, one after another. -/
theorem moves_foldl {τ : Type} {say : τ → τ} {step : Builder → τ → Builder}
    (hstep : ∀ x, Moves move (step · x) (step · (say x))) (list : List τ) :
    Moves move (fun b ↦ list.foldl step b) fun b ↦ (list.map say).foldl step b := by
  intro b
  induction list generalizing b with
  | nil => rfl
  | cons x list ih => exact (congrArg ((list.map say).foldl step) (hstep x b)).trans (ih (step b x))

theorem moves_declareAll (statement : DeviceStatement) :
    Moves move (·.declareAll statement) (·.declareAll (statement.moved move)) := by
  intro b
  dsimp only
  rw [declareAll_eq, declareAll_eq]
  exact moves_foldl (moves_declare statement.clause) statement.targets b

theorem moves_watchAll (outputs : List OutputMention) :
    Moves move (·.watchAll outputs) (·.watchAll (outputs.map (·.moved move))) := by
  intro b
  dsimp only
  rw [watchAll_eq, watchAll_eq]
  exact moves_foldl moves_watch outputs b

theorem moves_fileAll (faults : List Fault) (position : Position) :
    Moves move (·.fileAll faults position) (·.fileAll faults (move position)) := by
  intro b
  induction faults generalizing b with
  | nil => rfl
  | cons fault faults ih =>
    exact (congrArg (·.fileAll faults (move position)) (moves_file fault position b)).trans (ih _)

/-- A statement is acted on wherever it stands, or skipped. -/
theorem moves_statement {σ : Type} {say : σ → σ} {form form' : Attempt σ}
    {act act' : Builder → σ → Builder} (hform : form.Moves move say form')
    (hact : ∀ x, Moves move (act · x) (act' · (say x))) :
    Moves move (statement form act) (statement form' act') := by
  intro b
  rw [statement_eq, statement_eq, show (b.moved move).reader = b.reader.moved move from rfl,
    hform b.reader]
  rcases form.run b.reader with ⟨_ | x, s⟩
  · exact congrArg (Builder.mk · b.network b.monitors b.seen) s.skipStatement_moved
  · exact hact x { b with reader := s }

/-- The turns of a loop are taken one by one: the induction is on what is unread. -/
theorem moves_untilSectionEnd {step : Builder → Builder} (hstep : Moves move step step)
    (progress : ∀ b : Builder, b.reader.atSectionEnd = false →
      (step b).reader.unread < b.reader.unread) :
    Moves move (untilSectionEnd step progress) (untilSectionEnd step progress) := by
  intro b
  induction b using induction_untilSectionEnd progress with
  | stop b h =>
    have hmoved : (b.moved move).reader.atSectionEnd = true := h
    rw [untilSectionEnd_of_end h, untilSectionEnd_of_end hmoved]
  | next b h ih =>
    have hmoved : (b.moved move).reader.atSectionEnd = false := h
    rw [untilSectionEnd_of_inside h, untilSectionEnd_of_inside hmoved, hstep b, ih]

/-! ### Sections -/

theorem moves_blockBody (block : NameId) (blockName : String) :
    Moves move (blockBody block blockName) (blockBody block blockName) := by
  intro b
  rw [blockBody_eq, blockBody_eq]
  have hclosing : Moves move (statement blockEnd fun b _ ↦ b) (statement blockEnd fun b _ ↦ b) :=
    moves_statement (moves_expect _ _) fun _ _ ↦ rfl
  exact hclosing.comp (moves_untilSectionEnd (moves_statement (moves_connection block blockName)
    (moves_connect block)) _) b

theorem moves_blockFor (header : Token) :
    Moves move (·.blockFor header) (·.blockFor (header.moved move)) := by
  intro b
  have hdevice : (b.moved move).deviceNamed? (header.moved move).text =
      b.deviceNamed? header.text := rfl
  dsimp only
  rw [blockFor_eq, blockFor_eq, hdevice]
  split
  · exact moves_statement moves_blockOpening (fun _ ↦ moves_blockBody _ _) b
  · exact (moves_mapReader fun r ↦ r.skipBlock_moved).comp (moves_file _ _) b

theorem moves_block : Moves move block block :=
  moves_statement moves_blockHeader moves_blockFor

/-- The statements of a section say the same wherever they stand. -/
theorem moves_body (heading : Heading) : Moves move (body heading) (body heading) := by
  intro b
  rw [body_eq, body_eq]
  cases heading with
  | devices | init =>
    exact moves_untilSectionEnd (moves_statement (moves_deviceStatement _) moves_declareAll) _ b
  | connections => exact moves_untilSectionEnd moves_block _ b
  | monitor =>
    exact moves_untilSectionEnd (moves_statement moves_monitorStatement moves_watchAll) _ b

theorem moves_note (heading : Heading) : Moves move (·.note heading) (·.note heading) := by
  intro b
  dsimp only
  unfold note
  rw [show (b.moved move).seen = b.seen from rfl]
  split
  · exact moves_file _ _ b
  · rfl

theorem moves_close (heading : Heading) : Moves move (·.close heading) (·.close heading) := by
  have hclosed : Moves move
      (fun b ↦ if b.reader.current.lexeme = .closeBrace then
        (b.setMode .declare).mapReader Reader.advance
      else (b.setMode .declare).mapReader (·.unexpected .sectionEnd))
      (fun b ↦ if b.reader.current.lexeme = .closeBrace then
        (b.setMode .declare).mapReader Reader.advance
      else (b.setMode .declare).mapReader (·.unexpected .sectionEnd)) :=
    .ite (fun _ ↦ Iff.rfl) (moves_advance.comp (moves_setMode .declare))
      ((moves_mapReader fun r ↦ r.unexpected_moved .sectionEnd).comp (moves_setMode .declare))
  intro b
  exact (congrArg (fun c : Builder ↦ c.fileAll (c.shortfalls heading)
    (move b.reader.current.position)) (hclosed b)).trans (moves_fileAll _ _ _)

/-- A section says the same wherever it stands. -/
theorem moves_parseSection (heading : Heading) :
    Moves move (·.parseSection heading) (·.parseSection heading) := by
  have hnoted : Moves move (fun b ↦ (b.note heading).mapReader Reader.advance)
      fun b ↦ (b.note heading).mapReader Reader.advance :=
    moves_advance.comp (moves_note heading)
  have hopened : Moves move (fun b ↦ (b.setMode (modeOf heading)).mapReader Reader.advance)
      fun b ↦ (b.setMode (modeOf heading)).mapReader Reader.advance :=
    moves_advance.comp (moves_setMode (modeOf heading))
  have hread : Moves move
      (fun b ↦ if b.reader.current.lexeme = .openBrace then
        (((b.setMode (modeOf heading)).mapReader Reader.advance).body heading).close heading
      else b.mapReader fun r ↦ (r.unexpected .openBrace).skipTo [.heading])
      (fun b ↦ if b.reader.current.lexeme = .openBrace then
        (((b.setMode (modeOf heading)).mapReader Reader.advance).body heading).close heading
      else b.mapReader fun r ↦ (r.unexpected .openBrace).skipTo [.heading]) :=
    .ite (fun _ ↦ Iff.rfl) ((moves_close heading).comp ((moves_body heading).comp hopened))
      (moves_mapReader fun r ↦ by rw [r.unexpected_moved, Reader.skipTo_moved])
  exact hread.comp hnoted

/-- A description is read the same way wherever its symbols stand. -/
theorem parse_moved (b : Builder) : (b.moved move).parse = b.parse.moved move := by
  induction b using induction_parse with
  | ended b hend =>
    have hmoved : (b.moved move).reader.atEnd = true := hend
    rw [parse_ended hend, parse_ended hmoved]
    exact moves_fileAll _ _ b
  | beforeDevices b hend heading hheading hearly =>
    have hmoved : ¬ (b.moved move).reader.atEnd = true := hend
    rw [parse_beforeDevices hend hheading hearly, parse_beforeDevices hmoved hheading hearly]
    exact moves_file _ _ b
  | heading b hend heading hheading hdue ih =>
    have hmoved : ¬ (b.moved move).reader.atEnd = true := hend
    rw [parse_heading hend hheading hdue, parse_heading hmoved hheading hdue, ← ih]
    exact congrArg parse (moves_parseSection heading b)
  | stray b hend hheading ih =>
    have hskip : Moves move (·.mapReader fun r ↦ (r.unexpected .heading).skipTo [.heading])
        (·.mapReader fun r ↦ (r.unexpected .heading).skipTo [.heading]) :=
      moves_mapReader fun r ↦ by rw [r.unexpected_moved, Reader.skipTo_moved]
    have hmoved : ¬ (b.moved move).reader.atEnd = true := hend
    rw [parse_stray hend hheading, parse_stray hmoved hheading, ← ih]
    exact congrArg parse (hskip b)

/-- What is filed says the same of a builder whose places are moved. -/
theorem faults_moved (b : Builder) :
    (b.moved move).reader.log.map Report.fault = b.reader.log.map Report.fault := by
  rw [show (b.moved move).reader.log = b.reader.log.map (Report.moved move) from rfl, List.map_map]
  rfl

end Builder

end Breadboard.Description
