import Breadboard.Proofs.Description.Checks
import Breadboard.Proofs.Description.ReadingInvariants
import Breadboard.Proofs.Description.Scanning

/-!
# Reading comes to an end, and reads everything

Every loop of the reader is a number of turns, and it has at most as many as there are readings
ahead of it, wherever it starts (`EveryLoopEnds`, `everyLoopEnds`). A text has no more readings than
characters (`unread_start_le`).

When reading is over, the reader stands at the end of the text, and every fault on the way there has
been filed (`ReadThrough`); or the first heading of the text is not `devices`, the reader stands on
it, and that it came too early was filed last (`Halted`). Which of the two it is depends on the
first heading alone (`parse_completes`).
-/

set_option autoImplicit false
set_option relaxedAutoImplicit false

namespace Breadboard.Description

open Text (Position)

/-! ### Loops -/

/-- A loop that is over after a number of turns. -/
inductive Turns {σ : Type} (ends : σ → Bool) (turn : σ → σ) : Nat → σ → σ → Prop
  | stop {s : σ} : ends s = true → Turns ends turn 0 s s
  | next {n : Nat} {s last : σ} : ends s = false → Turns ends turn n (turn s) last →
    Turns ends turn (n + 1) s last

/-- A function that goes on with the next turn until the loop is over takes no more turns than a
size that every turn makes smaller. -/
theorem exists_turns {σ : Type} {ends : σ → Bool} {turn : σ → σ} (f conclude : σ → σ)
    (size : σ → Nat) (hstop : ∀ s, ends s = true → f s = conclude s)
    (hnext : ∀ s, ends s = false → f s = f (turn s))
    (hsize : ∀ s, ends s = false → size (turn s) < size s) (s : σ) :
    ∃ n ≤ size s, ∃ last, Turns ends turn n s last ∧ f s = conclude last := by
  induction hcount : size s using Nat.strongRecOn generalizing s with
  | ind count ih =>
    cases hends : ends s with
    | true => exact ⟨0, Nat.zero_le _, s, .stop hends, hstop s hends⟩
    | false =>
      have hlt : size (turn s) < count := hcount ▸ hsize s hends
      obtain ⟨n, hn, last, hturns, hlast⟩ := ih _ hlt (turn s) rfl
      exact ⟨n + 1, Nat.lt_of_le_of_lt hn hlt, last, .next hends hturns,
        (hnext s hends).trans hlast⟩

/-- Whether skipping to some anchors is over. -/
def Reader.isAtAnchor (anchors : List Anchor) (r : Reader) : Bool :=
  r.atEnd || anchors.any (·.isAt r.current.lexeme)

namespace Attempt

variable {α : Type}

/-- Whether a list of items is over, or one of them could not be read. -/
def itemsOver : Option (List α) × Reader → Bool
  | (none, _) => true
  | (some _, r) => r.current.lexeme ≠ .comma

/-- One more item, behind a comma. -/
def nextItem (item : Attempt α) : Option (List α) × Reader → Option (List α) × Reader
  | (none, r) => (none, r)
  | (some items, r) => ((item.run r.advance).1.map (items ++ [·]), (item.run r.advance).2)

end Attempt

namespace Builder

/-- Whether nothing more is read: at the end of the text, and at a section before `devices`. -/
def isOver (b : Builder) : Bool :=
  b.reader.atEnd ||
    b.reader.current.lexeme.heading?.any fun heading ↦ heading ≠ .devices ∧ .devices ∉ b.seen

/-- One turn of reading a description: a section, or the way to the next heading. -/
def turn (b : Builder) : Builder :=
  match b.reader.current.lexeme.heading? with
  | some heading => b.parseSection heading
  | none => b.mapReader fun r ↦ (r.unexpected .heading).skipTo [.heading]

/-- What is filed when nothing more is read. -/
def conclude (b : Builder) : Builder :=
  match b.reader.current.lexeme.heading? with
  | some heading => b.file (.beforeDevices heading) b.reader.current.position
  | none => b.fileAll b.missing b.reader.current.position

/-- One statement of a section. -/
def bodyTurn : Heading → Builder → Builder
  | .devices => statement (deviceStatement false) declareAll
  | .init => statement (deviceStatement true) declareAll
  | .connections => block
  | .monitor => statement monitorStatement watchAll

end Builder

/-- Every loop of the reader, wherever it starts, takes no more turns than there are readings ahead:
the sections of a description, the statements of a section, the connections of a block, the items of
a list, and what is skipped after a fault. -/
structure EveryLoopEnds : Prop where
  sections (b : Builder) : ∃ n ≤ b.reader.unread, ∃ last,
    Turns Builder.isOver Builder.turn n b last ∧ b.parse = last.conclude
  statements (heading : Heading) (b : Builder) : ∃ n ≤ b.reader.unread,
    Turns (·.reader.atSectionEnd) (Builder.bodyTurn heading) n b (b.body heading)
  connections (block : NameId) (name : String) (b : Builder) : ∃ n ≤ b.reader.unread, ∃ last,
    Turns (·.reader.atSectionEnd)
      (Builder.statement (connection block name) (Builder.connect block)) n b last ∧
    b.blockBody block name = last.statement blockEnd fun b _ ↦ b
  items {α : Type} (item : Attempt α) (r : Reader) : ∃ n ≤ r.unread,
    Turns Attempt.itemsOver item.nextItem n (some [], r) (Attempt.commaItems item r)
  skipped (anchors : List Anchor) (r : Reader) : ∃ n ≤ r.unread,
    Turns (Reader.isAtAnchor anchors) Reader.advance n r (r.skipTo anchors)

theorem exists_turns_skipTo (anchors : List Anchor) (r : Reader) : ∃ n ≤ r.unread,
    Turns (Reader.isAtAnchor anchors) Reader.advance n r (r.skipTo anchors) := by
  have hstop (s : Reader) (h : s.isAtAnchor anchors = true) : s.skipTo anchors = id s := by
    rw [Reader.skipTo, dif_pos (by simpa [Reader.isAtAnchor] using h)]
    rfl
  have hnext (s : Reader) (h : s.isAtAnchor anchors = false) :
      s.skipTo anchors = s.advance.skipTo anchors := by
    rw [Reader.skipTo, dif_neg (by simpa [Reader.isAtAnchor] using h)]
  have hsize (s : Reader) (h : s.isAtAnchor anchors = false) : s.advance.unread < s.unread :=
    Reader.unread_advance_lt (Bool.or_eq_false_iff.mp h).1
  obtain ⟨n, hn, last, hturns, rfl⟩ :=
    exists_turns (·.skipTo anchors) id Reader.unread hstop hnext hsize r
  exact ⟨n, hn, hturns⟩

theorem exists_turns_untilSectionEnd {step : Builder → Builder}
    (progress : ∀ b : Builder, b.reader.atSectionEnd = false →
      (step b).reader.unread < b.reader.unread) (b : Builder) :
    ∃ n ≤ b.reader.unread,
      Turns (·.reader.atSectionEnd) step n b (b.untilSectionEnd step progress) := by
  have hstop (c : Builder) (h : c.reader.atSectionEnd = true) :
      c.untilSectionEnd step progress = id c := by
    rw [Builder.untilSectionEnd_of_end h]
    rfl
  have hnext (c : Builder) (h : c.reader.atSectionEnd = false) :
      c.untilSectionEnd step progress = (step c).untilSectionEnd step progress := by
    rw [Builder.untilSectionEnd_of_inside h]
  obtain ⟨n, hn, last, hturns, rfl⟩ :=
    exists_turns (Builder.untilSectionEnd step progress) id (·.reader.unread) hstop hnext progress b
  exact ⟨n, hn, hturns⟩

theorem exists_turns_body (heading : Heading) (b : Builder) : ∃ n ≤ b.reader.unread,
    Turns (·.reader.atSectionEnd) (Builder.bodyTurn heading) n b (b.body heading) := by
  rw [Builder.body_eq]
  cases heading <;> exact exists_turns_untilSectionEnd _ b

namespace Attempt

variable {α : Type} {item : Attempt α}

/-- The items that were read, and all that follow. -/
def withItems (item : Attempt α) : Option (List α) × Reader → Option (List α) × Reader
  | (none, r) => (none, r)
  | (some items, r) => ((commaItems item r).1.map (items ++ ·), (commaItems item r).2)

theorem withItems_of_over {s : Option (List α) × Reader} (h : itemsOver s = true) :
    withItems item s = s := by
  obtain ⟨_ | items, r⟩ := s
  · rfl
  · rw [withItems, commaItems, dif_neg (by simpa [itemsOver] using h)]
    simp

theorem withItems_nextItem {s : Option (List α) × Reader} (h : itemsOver s = false) :
    withItems item s = withItems item (nextItem item s) := by
  obtain ⟨_ | items, r⟩ := s
  · cases h
  · have hcomma : r.current.lexeme = .comma := by simpa [itemsOver] using h
    rw [withItems, commaItems, dif_pos hcomma, nextItem]
    cases hitem : item.run r.advance with
    | mk a? t =>
      cases a? with
      | none => rfl
      | some a =>
        cases hmore : commaItems item t with
        | mk more? u => cases more? <;> simp [withItems, hmore]

/-- The readings ahead, if a further item may be read. -/
def itemsAhead : Option (List α) × Reader → Nat
  | (none, _) => 0
  | (some _, r) => r.unread

theorem itemsAhead_nextItem_lt {s : Option (List α) × Reader} (h : itemsOver s = false) :
    itemsAhead (nextItem item s) < itemsAhead s := by
  obtain ⟨_ | items, r⟩ := s
  · cases h
  · have hcomma : r.current.lexeme = .comma := by simpa [itemsOver] using h
    have hlt : r.advance.unread < r.unread :=
      Reader.unread_advance_lt (by simp [Reader.atEnd, hcomma])
    have hle := (item.reaches r.advance).unread_le
    rw [nextItem]
    cases (item.run r.advance).1 with
    | none => exact Nat.zero_lt_of_lt hlt
    | some a => exact Nat.lt_of_le_of_lt hle hlt

theorem exists_turns_commaItems (item : Attempt α) (r : Reader) : ∃ n ≤ r.unread,
    Turns itemsOver item.nextItem n (some [], r) (commaItems item r) := by
  obtain ⟨n, hn, last, hturns, hlast⟩ := exists_turns (withItems item) id itemsAhead
    (fun _ ↦ withItems_of_over) (fun _ ↦ withItems_nextItem) (fun _ ↦ itemsAhead_nextItem_lt)
    (some [], r)
  have hitems : withItems item (some [], r) = commaItems item r := by
    rw [withItems]
    simp
  rw [← hitems, hlast]
  exact ⟨n, hn, hturns⟩

end Attempt

namespace Builder

variable {b : Builder}

theorem parse_of_isOver (h : b.isOver = true) : b.parse = b.conclude := by
  rw [parse_eq]
  split
  · next hend =>
    have hlexeme : b.reader.current.lexeme = .endOfText := beq_iff_eq.mp hend
    rw [conclude, hlexeme]
    rfl
  · next hend =>
    rw [isOver, Bool.eq_false_iff.mpr hend, Bool.false_or] at h
    split
    · next heading hheading =>
      rw [hheading] at h
      rw [if_pos (by simpa using h), conclude, hheading]
    · next hheading =>
      rw [hheading] at h
      cases h

theorem parse_turn (h : b.isOver = false) : b.parse = b.turn.parse := by
  obtain ⟨hend, hdue⟩ := Bool.or_eq_false_iff.mp h
  rw [parse_eq, if_neg (by simp [hend])]
  split
  · next heading hheading =>
    rw [hheading] at hdue
    rw [if_neg (by simpa using hdue), turn, hheading]
  · next hheading => rw [turn, hheading]

theorem unread_turn_lt (h : b.isOver = false) : b.turn.reader.unread < b.reader.unread := by
  have hend := (Bool.or_eq_false_iff.mp h).1
  rw [turn]
  split
  · next heading _ => exact unread_parseSection_lt hend heading
  · next hheading => exact unread_skipToHeading_lt hend hheading

theorem exists_turns_parse (b : Builder) : ∃ n ≤ b.reader.unread, ∃ last,
    Turns isOver turn n b last ∧ b.parse = last.conclude :=
  exists_turns parse conclude (·.reader.unread) (fun _ ↦ parse_of_isOver) (fun _ ↦ parse_turn)
    (fun _ ↦ unread_turn_lt) b

end Builder

theorem everyLoopEnds : EveryLoopEnds where
  sections := Builder.exists_turns_parse
  statements := exists_turns_body
  connections block name b := by
    obtain ⟨n, hn, hturns⟩ := exists_turns_untilSectionEnd
      (Builder.unread_statement_lt (consumes_connection block name) (Builder.reaches_connect block))
      b
    exact ⟨n, hn, _, hturns, rfl⟩
  items := Attempt.exists_turns_commaItems
  skipped := exists_turns_skipTo

/-! ### How much there is to read -/

theorem Cursor.length_readings_le (cursor : Cursor) :
    cursor.readings.1.length ≤ cursor.rest.length := by
  fun_induction Cursor.readings cursor with
  | case1 => exact Nat.zero_le _
  | case2 cursor step hend more finish hreadings ih =>
    rw [hreadings] at ih
    exact Nat.lt_of_le_of_lt ih (cursor.next_rest_length.resolve_left hend)

theorem unread_start_le (names : Names) (text : String) :
    (Reader.start names text).unread ≤ text.toList.length :=
  Nat.le_trans (Reader.unread_pull_le _ _) (Cursor.start text).length_readings_le

/-! ### What lies behind the reader -/

/-- What is filed for a reading, if it is a fault. -/
def Reading.report? : Reading → Option Report
  | token _ => none
  | fault found position => some ⟨.lexical found, position⟩

/-- The heading that a reading is. -/
def Reading.heading? : Reading → Option Heading
  | token found => found.lexeme.heading?
  | fault .. => none

namespace Reader

variable {r : Reader} {readings rest passed : List Reading} {finish : Position}

/-- What lies behind a reader has been read, with its faults filed, and nothing lies behind the
end. -/
structure Onward (readings : List Reading) (finish : Position) (r : Reader) : Prop where
  finishes : r.finish = finish
  proper : ∀ token, .token token ∈ r.rest → token.Proper
  filed : ∃ passed, readings = passed ++ r.rest ∧ (passed.filterMap Reading.report?).Sublist r.log
  ended : r.atEnd = true → r.rest = [] ∧ r.current = .finish finish

theorem onward_pull (hfinish : r.finish = finish)
    (hproper : ∀ token, .token token ∈ rest → token.Proper)
    (hfiled : ∃ passed, readings = passed ++ rest ∧
      (passed.filterMap Reading.report?).Sublist r.log) :
    Onward readings finish (r.pull rest) := by
  obtain ⟨passed, hreadings, hlog⟩ := hfiled
  fun_induction pull r rest generalizing passed with
  | case1 r =>
    exact ⟨hfinish, fun _ h ↦ absurd h List.not_mem_nil, ⟨passed, hreadings, hlog⟩,
      fun _ ↦ ⟨rfl, congrArg Token.finish hfinish⟩⟩
  | case2 r token rest =>
    refine ⟨hfinish, fun other hother ↦ hproper other (List.mem_cons_of_mem _ hother),
      ⟨passed ++ [.token token], by rw [hreadings, List.append_assoc]; rfl, ?_⟩, fun hend ↦ ?_⟩
    · rw [List.filterMap_append]
      exact (List.append_nil _).symm ▸ hlog
    · exact absurd (beq_iff_eq.mp hend) (hproper token List.mem_cons_self).inside
  | case3 r fault position rest ih =>
    refine ih hfinish (fun token htoken ↦ hproper token (List.mem_cons_of_mem _ htoken))
      (passed ++ [.fault fault position]) (by rw [hreadings, List.append_assoc]; rfl) ?_
    rw [List.filterMap_append]
    exact hlog.append (List.Sublist.refl _)

theorem lasting_onward (readings : List Reading) (finish : Position) :
    Lasting (Onward readings finish) where
  advance {r} h := by
    cases hend : r.atEnd with
    | true =>
      rw [Reader.advance, if_pos hend]
      exact h
    | false =>
      rw [Reader.advance, hend, if_neg Bool.false_ne_true]
      exact onward_pull h.finishes h.proper h.filed
  file fault position h := by
    obtain ⟨passed, hreadings, hlog⟩ := h.filed
    exact ⟨h.finishes, h.proper, ⟨passed, hreadings, hlog.trans (List.sublist_append_left ..)⟩,
      h.ended⟩
  resolve _ h := ⟨h.finishes, h.proper, h.filed, h.ended⟩
  inMode _ h := ⟨h.finishes, h.proper, h.filed, h.ended⟩

/-! ### On the way to the first heading -/

/-- The readings from where a reader stands. -/
def ahead (r : Reader) : List Reading :=
  if r.atEnd then [] else .token r.current :: r.rest

/-- No heading lies behind the reader. -/
def Unheaded (readings : List Reading) (r : Reader) : Prop :=
  ∃ passed, readings = passed ++ r.ahead ∧ passed.findSome? Reading.heading? = none

theorem unheaded_pull (passed : List Reading)
    (hproper : ∀ token, .token token ∈ readings → token.Proper)
    (hreadings : readings = passed ++ rest) (hpassed : passed.findSome? Reading.heading? = none) :
    Unheaded readings (r.pull rest) := by
  fun_induction pull r rest generalizing passed with
  | case1 r => exact ⟨passed, hreadings, hpassed⟩
  | case2 r token rest =>
    have hinside : token.lexeme ≠ .endOfText := (hproper token (by simp [hreadings])).inside
    have hahead : ({ r.standOn token with rest } : Reader).ahead = .token token :: rest :=
      if_neg fun h ↦ hinside (beq_iff_eq.mp h)
    exact ⟨passed, hahead ▸ hreadings, hpassed⟩
  | case3 r fault position rest ih =>
    refine ih (passed ++ [.fault fault position]) ?_ ?_
    · rw [hreadings, List.append_assoc]
      rfl
    · rw [List.findSome?_append, hpassed]
      rfl

theorem Unheaded.skipTo (hproper : ∀ token, .token token ∈ readings → token.Proper)
    (h : r.Unheaded readings) : (r.skipTo [.heading]).Unheaded readings := by
  fun_induction Reader.skipTo r [Anchor.heading] with
  | case1 => exact h
  | case2 r hpass ih =>
    obtain ⟨hend, hanchor⟩ := not_or.mp hpass
    obtain ⟨passed, hreadings, hpassed⟩ := h
    rw [ahead, if_neg hend] at hreadings
    have hheading : r.current.lexeme.heading? = none := by
      cases hl : r.current.lexeme <;> simp [Lexeme.heading?, Anchor.isAt, hl] at hanchor ⊢
    refine ih ?_
    rw [Reader.advance, if_neg hend]
    refine unheaded_pull (passed ++ [.token r.current]) hproper ?_ ?_
    · rw [hreadings, List.append_assoc]
      rfl
    · rw [List.findSome?_append, hpassed]
      simpa [Reading.heading?] using hheading

end Reader

/-! ### Where reading is over -/

/-- A text was read to its end, and every fault in it was filed, in order. -/
structure ReadThrough (text : String) (b : Builder) : Prop where
  current : b.reader.current = .finish (({} : Position).afterAll text.toList)
  rest : b.reader.rest = []
  faults : ((Cursor.start text).readings.1.filterMap Reading.report?).Sublist b.reader.log
  first : ∀ heading, (Cursor.start text).readings.1.findSome? Reading.heading? = some heading →
    heading = .devices

/-- Reading a text was given up on its first heading, which is not `devices`. -/
structure Halted (text : String) (heading : Heading) (b : Builder) : Prop where
  early : heading ≠ .devices
  unseen : .devices ∉ b.seen
  standing : b.reader.current.lexeme = .heading heading
  first : ∃ passed, (Cursor.start text).readings.1 =
    passed ++ .token b.reader.current :: b.reader.rest ∧
      passed.findSome? Reading.heading? = none
  filed : b.reader.log.getLast? = some ⟨.beforeDevices heading, b.reader.current.position⟩
  refused : b.inOrder = false

namespace Builder

variable {b : Builder}

theorem current_fileAll (b : Builder) (faults : List Fault) (position : Position) :
    (b.fileAll faults position).reader.current = b.reader.current := by
  rw [fileAll]
  induction faults generalizing b with
  | nil => rfl
  | cons fault faults ih => exact ih (b.file fault position)

theorem seen_fileAll (b : Builder) (faults : List Fault) (position : Position) :
    (b.fileAll faults position).seen = b.seen := by
  rw [fileAll]
  induction faults generalizing b with
  | nil => rfl
  | cons fault faults ih => exact ih (b.file fault position)

theorem mem_seen_note (b : Builder) (heading : Heading) : heading ∈ (b.note heading).seen := by
  rw [note]
  split
  · assumption
  · exact List.mem_append_right _ (List.mem_singleton_self _)

theorem seen_subset_note (b : Builder) (heading : Heading) : b.seen ⊆ (b.note heading).seen := by
  rw [note]
  split
  · exact List.Subset.refl _
  · exact List.subset_append_left ..

theorem seen_parseSection (b : Builder) (heading : Heading) :
    (b.parseSection heading).seen = (b.note heading).seen := by
  rw [parseSection_eq]
  split
  · have hbody := stays_body (survives_trivial heading) (b := ((((b.note heading).mapReader
      Reader.advance).setMode (modeOf heading)).mapReader Reader.advance)) ⟨rfl, trivial⟩
    rw [close_eq, seen_fileAll, passEnd]
    split
    · exact hbody.passed
    · exact hbody.passed
  · rfl

/-- Once `devices` was there, reading goes on to the end. -/
theorem atEnd_parse (h : .devices ∈ b.seen) : b.parse.reader.atEnd = true := by
  induction b using induction_parse with
  | ended b hend =>
    rw [parse_ended hend, Reader.atEnd, current_fileAll]
    exact hend
  | beforeDevices b _ heading _ hdue => exact absurd h hdue.2
  | heading b hend heading hheading hdue ih =>
    rw [parse_heading hend hheading hdue]
    refine ih ?_
    rw [seen_parseSection]
    exact seen_subset_note b heading h
  | stray b hend hheading ih =>
    rw [parse_stray hend hheading]
    exact ih h

theorem parse_atEnd_or_halted {text : String} (hseen : b.seen = [])
    (h : b.reader.Unheaded (Cursor.start text).readings.1) :
    (b.parse.reader.atEnd = true ∧
      ∀ heading, (Cursor.start text).readings.1.findSome? Reading.heading? = some heading →
        heading = .devices) ∨
    ∃ heading, Halted text heading b.parse := by
  have hproper (token : Token) : .token token ∈ (Cursor.start text).readings.1 → token.Proper :=
    Cursor.proper_of_mem_readings _
  induction b using induction_parse with
  | ended b hend =>
    obtain ⟨passed, hreadings, hpassed⟩ := h
    rw [Reader.ahead, if_pos hend, List.append_nil] at hreadings
    refine .inl ⟨?_, fun heading hheading ↦ ?_⟩
    · rw [parse_ended hend, Reader.atEnd, current_fileAll]
      exact hend
    · rw [hreadings, hpassed] at hheading
      cases hheading
  | beforeDevices b hend heading hheading hdue =>
    obtain ⟨passed, hreadings, hpassed⟩ := h
    rw [Reader.ahead, if_neg hend] at hreadings
    have hlexeme : b.reader.current.lexeme = .heading heading := by
      cases hl : b.reader.current.lexeme <;> simp_all [Lexeme.heading?]
    rw [parse_beforeDevices hend hheading hdue]
    refine .inr ⟨heading, hdue.1, hdue.2, hlexeme, ⟨passed, hreadings, hpassed⟩, ?_, ?_⟩
    · exact List.getLast?_concat
    · exact Bool.eq_false_iff.mpr fun hempty ↦
        log_file_ne _ _ _ (List.isEmpty_iff.mp hempty)
  | heading b hend heading hheading hdue ih =>
    obtain ⟨passed, hreadings, hpassed⟩ := h
    rw [Reader.ahead, if_neg hend] at hreadings
    have hdevices : heading = .devices := by
      by_contra hne
      exact hdue ⟨hne, by simp [hseen]⟩
    rw [parse_heading hend hheading hdue]
    refine .inl ⟨atEnd_parse ?_, fun first hfirst ↦ ?_⟩
    · rw [seen_parseSection, ← hdevices]
      exact mem_seen_note b heading
    · have hcurrent : Reading.heading? (.token b.reader.current) = some heading := hheading
      rw [hreadings, List.findSome?_append, hpassed, List.findSome?_cons, hcurrent] at hfirst
      exact (Option.some.inj hfirst).symm.trans hdevices
  | stray b hend hheading ih =>
    rw [parse_stray hend hheading]
    exact ih hseen (h.skipTo (r := b.reader.unexpected .heading) hproper)

end Builder

/-- Reading a description comes to an end, whatever the text and whatever the tables hold at the
start: every loop of the reader is over after at most as many turns as there are readings ahead, and
a text has no more readings than characters. Then the whole text has been read, up to its end and
with every fault in it filed; or the first heading of the text is not `devices`, the reader stands
on it, that it is too early was filed last, and the description is refused. -/
theorem parse_completes (names : Names) (network : Network) (monitors : Monitors)
    (text : String) :
    let b := Builder.start names network monitors text
    EveryLoopEnds ∧ b.reader.unread ≤ text.toList.length ∧
      (ReadThrough text b.parse ∨ ∃ heading, Halted text heading b.parse) := by
  intro b
  have hproper (token : Token) : .token token ∈ (Cursor.start text).readings.1 → token.Proper :=
    Cursor.proper_of_mem_readings _
  have honward : b.reader.Onward (Cursor.start text).readings.1 (Cursor.start text).readings.2 :=
    Reader.onward_pull rfl hproper ⟨[], rfl, List.nil_sublist _⟩
  have hunheaded : b.reader.Unheaded (Cursor.start text).readings.1 :=
    Reader.unheaded_pull [] hproper rfl rfl
  refine ⟨everyLoopEnds, unread_start_le names text, ?_⟩
  rcases Builder.parse_atEnd_or_halted rfl hunheaded with ⟨hend, hfirst⟩ | hhalted
  · have hlast := (Reader.lasting_onward _ _).parse honward
    obtain ⟨hrest, hcurrent⟩ := hlast.ended hend
    obtain ⟨passed, hreadings, hlog⟩ := hlast.filed
    rw [hrest, List.append_nil] at hreadings
    exact .inl ⟨readings_finish text ▸ hcurrent, hrest, hreadings ▸ hlog, hfirst⟩
  · exact .inr hhalted

end Breadboard.Description
