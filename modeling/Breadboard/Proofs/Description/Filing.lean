import Breadboard.Description.Section
import Breadboard.Proofs.Description.Composition

/-!
# What was filed before

Nothing that is done while a description is read depends on what was filed before: a reader that
carries earlier reports goes the same way as one that does not, and files the same. Attempts have
this property (`Attempt.composes_oblivious`), and so has what a builder does with them, up to whole
sections (`Builder.oblivious_parseSection`). So what is known of a builder with nothing filed is
known of the same builder after any reports (`Builder.Oblivious.reporting`).
-/

set_option autoImplicit false
set_option relaxedAutoImplicit false

namespace Breadboard.Description

open Text (Position)

variable {earlier : List Report}

/-! ### Readers -/

namespace Reader

/-- The reader, with earlier reports before its own. -/
def carrying (earlier : List Report) (r : Reader) : Reader :=
  { r with log := earlier ++ r.log }

/-- The reader, as if nothing had been filed. -/
def hushed (r : Reader) : Reader :=
  { r with log := [] }

/-- A reader is the reader without its reports, with them in front. -/
theorem carrying_hushed (r : Reader) : r.hushed.carrying r.log = r := by
  rw [carrying, hushed, List.append_nil]

@[simp]
theorem current_carrying (r : Reader) : (r.carrying earlier).current = r.current := rfl

@[simp]
theorem atEnd_carrying (r : Reader) : (r.carrying earlier).atEnd = r.atEnd := rfl

@[simp]
theorem names_carrying (r : Reader) : (r.carrying earlier).names = r.names := rfl

@[simp]
theorem names_hushed (r : Reader) : r.hushed.names = r.names := rfl

/-- What is filed stands behind the reports from before. -/
theorem file_carrying (r : Reader) (fault : Fault) (position : Position) :
    (r.carrying earlier).file fault position = (r.file fault position).carrying earlier := by
  rw [file, file, carrying, carrying, List.append_assoc]

theorem unexpected_carrying (r : Reader) (what : Expectation) :
    (r.carrying earlier).unexpected what = (r.unexpected what).carrying earlier :=
  r.file_carrying _ _

/-- Readings are pulled whatever was filed before. -/
theorem pull_carrying (r : Reader) (readings : List Reading) :
    (r.carrying earlier).pull readings = (r.pull readings).carrying earlier := by
  fun_induction pull r readings with
  | case1 | case2 => rfl
  | case3 r fault position rest ih => rw [pull, file_carrying, ih]

/-- To advance has nothing to do with what was filed before. -/
theorem advance_carrying (r : Reader) :
    (r.carrying earlier).advance = r.advance.carrying earlier := by
  rw [advance, advance, apply_ite (carrying earlier), ← pull_carrying]
  rfl

/-- To skip has nothing to do with what was filed before. -/
theorem skipTo_carrying (r : Reader) (anchors : List Anchor) :
    (r.carrying earlier).skipTo anchors = (r.skipTo anchors).carrying earlier := by
  fun_induction skipTo r anchors with
  | case1 r h => rw [skipTo, atEnd_carrying, current_carrying, dif_pos h]
  | case2 r h ih => rw [skipTo, atEnd_carrying, current_carrying, dif_neg h, advance_carrying, ih]

theorem passSemicolon_carrying (r : Reader) :
    (r.carrying earlier).passSemicolon = r.passSemicolon.carrying earlier := by
  rw [passSemicolon, passSemicolon, advance_carrying, current_carrying,
    apply_ite (carrying earlier)]

/-- A statement is skipped whatever was filed before. -/
theorem skipStatement_carrying (r : Reader) :
    (r.carrying earlier).skipStatement = r.skipStatement.carrying earlier := by
  rw [skipStatement, skipStatement, skipTo_carrying, passSemicolon_carrying]

theorem skipBlock_carrying (r : Reader) :
    (r.carrying earlier).skipBlock = r.skipBlock.carrying earlier := by
  unfold skipBlock
  simp only [advance_carrying, skipTo_carrying, current_carrying, apply_ite (carrying earlier)]

end Reader

/-! ### Attempts -/

namespace Attempt

variable {α β : Type}

/-- An attempt that goes the same way whatever was filed before. -/
def Oblivious (m : Attempt α) : Prop :=
  ∀ (r : Reader) (earlier : List Report),
    m.run (r.carrying earlier) = ((m.run r).1, (m.run r).2.carrying earlier)

/-- The rule for attempts one after another. -/
theorem Oblivious.bind {m : Attempt α} {f : α → Attempt β} (hm : m.Oblivious)
    (hf : ∀ a, (f a).Oblivious) : (m >>= f).Oblivious := by
  intro r earlier
  rw [run_bind, run_bind, hm r earlier]
  rcases m.run r with ⟨_ | a, s⟩
  · rfl
  · exact hf a s earlier

/-- Lists of items that are read whatever was filed before: the induction is on the items. -/
theorem Oblivious.commaList {item : Attempt α} (h : item.Oblivious) :
    (commaList item).Oblivious := by
  intro r earlier
  change commaItems item (r.carrying earlier) =
    ((commaItems item r).1, (commaItems item r).2.carrying earlier)
  fun_induction commaItems item r with
  | case1 r hcomma s hs =>
    have hrun := h r.advance earlier
    rw [← r.advance_carrying, hs] at hrun
    rw [commaItems, dif_pos (show (r.carrying earlier).current.lexeme = .comma from hcomma)]
    split
    · next heq => rw [hrun] at heq; cases heq; rfl
    · next heq => rw [hrun] at heq; cases heq
  | case2 r hcomma a s hs t ht ih | case3 r hcomma a s hs more t ht ih =>
    have hrun := h r.advance earlier
    rw [← r.advance_carrying, hs] at hrun
    rw [commaItems, dif_pos (show (r.carrying earlier).current.lexeme = .comma from hcomma)]
    split
    · next heq => rw [hrun] at heq; cases heq
    · next heq =>
      rw [hrun] at heq
      cases heq
      rw [ih, ht]
  | case4 r hcomma =>
    rw [commaItems, dif_neg (show ¬(r.carrying earlier).current.lexeme = .comma from hcomma)]

/-- Whatever reads a statement goes the same way after any reports. -/
theorem composes_oblivious : Composes Oblivious where
  pure _ _ _ := rfl
  bind := Oblivious.bind
  current _ _ := rfl
  advance r _ := congrArg (some (), ·) r.advance_carrying
  numberOf _ _ _ := rfl
  refuse fault position r _ := congrArg (none, ·) (r.file_carrying fault position)
  unexpected what r _ := congrArg (none, ·) (r.unexpected_carrying what)
  commaList := Oblivious.commaList

/-- The one statement that resolves names as well. -/
theorem oblivious_deviceStatement (inInit : Bool) : (deviceStatement inInit).Oblivious :=
  composes_oblivious.deviceStatement (fun _ _ _ ↦ rfl) inInit

end Attempt

/-! ### Builders -/

namespace Builder

open Attempt

/-- The builder, with earlier reports before its own. -/
def carrying (earlier : List Report) (b : Builder) : Builder :=
  b.mapReader (·.carrying earlier)

@[simp]
theorem reader_carrying (b : Builder) : (b.carrying earlier).reader = b.reader.carrying earlier :=
  rfl

@[simp]
theorem network_carrying (b : Builder) : (b.carrying earlier).network = b.network := rfl

@[simp]
theorem monitors_carrying (b : Builder) : (b.carrying earlier).monitors = b.monitors := rfl

@[simp]
theorem seen_carrying (b : Builder) : (b.carrying earlier).seen = b.seen := rfl

/-- What goes the same way whatever was filed before. -/
def Oblivious (f : Builder → Builder) : Prop :=
  ∀ (b : Builder) (earlier : List Report), f (b.carrying earlier) = (f b).carrying earlier

/-- One step after another. -/
theorem Oblivious.comp {f g : Builder → Builder} (hg : Oblivious g) (hf : Oblivious f) :
    Oblivious fun b ↦ g (f b) :=
  fun b earlier ↦ (congrArg g (hf b earlier)).trans (hg (f b) earlier)

theorem oblivious_mapReader {f : Reader → Reader}
    (h : ∀ (r : Reader) (earlier : List Report), f (r.carrying earlier) = (f r).carrying earlier) :
    Oblivious (·.mapReader f) :=
  fun b earlier ↦ congrArg (Builder.mk · b.network b.monitors b.seen) (h b.reader earlier)

theorem oblivious_file (fault : Fault) (position : Position) :
    Oblivious (·.file fault position) :=
  oblivious_mapReader fun r _ ↦ r.file_carrying fault position

theorem oblivious_declare (clause : Clause) (target : Target) :
    Oblivious (declare clause · target) := by
  intro b earlier
  dsimp only
  rw [declare_eq, declare_eq, network_carrying]
  split
  · rfl
  · exact oblivious_file _ _ b earlier

theorem oblivious_connect (target : NameId) (connection : Connection) :
    Oblivious (connect target · connection) := by
  intro b earlier
  dsimp only
  rw [connect_eq, connect_eq, network_carrying]
  split
  · rfl
  · exact oblivious_file _ _ b earlier

theorem oblivious_watch (output : OutputMention) : Oblivious (·.watch output) := by
  intro b earlier
  dsimp only
  rw [watch_eq, watch_eq, network_carrying, monitors_carrying]
  split
  · rfl
  · exact oblivious_file _ _ b earlier

/-- Steps for the items of a list, one after another. -/
theorem oblivious_foldl {τ : Type} {f : Builder → τ → Builder} (hf : ∀ t, Oblivious (f · t))
    (list : List τ) : Oblivious fun b ↦ list.foldl f b := by
  intro b earlier
  induction list generalizing b with
  | nil => rfl
  | cons t list ih => exact (congrArg (list.foldl f) (hf t b earlier)).trans (ih (f b t))

theorem oblivious_declareAll (statement : DeviceStatement) :
    Oblivious (·.declareAll statement) := by
  intro b earlier
  dsimp only
  rw [declareAll_eq, declareAll_eq]
  exact oblivious_foldl (oblivious_declare statement.clause) statement.targets b earlier

theorem oblivious_watchAll (outputs : List OutputMention) : Oblivious (·.watchAll outputs) := by
  intro b earlier
  dsimp only
  rw [watchAll_eq, watchAll_eq]
  exact oblivious_foldl oblivious_watch outputs b earlier

section Loop

variable {σ : Type} {form : Attempt σ} {act : Builder → σ → Builder}

/-- A statement is acted on or skipped whatever was filed before. -/
theorem oblivious_statement (hform : form.Oblivious) (hact : ∀ x, Oblivious (act · x)) :
    Oblivious (statement form act) := by
  intro b earlier
  rw [statement_eq, statement_eq,
    show (b.carrying earlier).reader = b.reader.carrying earlier from rfl, hform b.reader earlier]
  rcases form.run b.reader with ⟨_ | x, s⟩
  · exact congrArg (Builder.mk · b.network b.monitors b.seen) s.skipStatement_carrying
  · exact hact x { b with reader := s } earlier

/-- The turns of a loop are taken one by one: the induction is on what is unread. -/
theorem oblivious_untilSectionEnd {step : Builder → Builder} (hstep : Oblivious step)
    (progress : ∀ b : Builder, b.reader.atSectionEnd = false →
      (step b).reader.unread < b.reader.unread) : Oblivious (untilSectionEnd step progress) := by
  intro b earlier
  induction b using induction_untilSectionEnd progress with
  | stop b h =>
    have hcarried : (b.carrying earlier).reader.atSectionEnd = true := h
    rw [untilSectionEnd_of_end h, untilSectionEnd_of_end hcarried]
  | next b h ih =>
    have hcarried : (b.carrying earlier).reader.atSectionEnd = false := h
    rw [untilSectionEnd_of_inside h, untilSectionEnd_of_inside hcarried, hstep b earlier, ih]

end Loop

/-! ### Sections -/

theorem oblivious_blockBody (block : NameId) (blockName : String) :
    Oblivious (blockBody block blockName) := by
  intro b earlier
  rw [blockBody_eq, blockBody_eq]
  have hconnections := oblivious_untilSectionEnd
    (oblivious_statement (composes_oblivious.connection block blockName) (oblivious_connect block))
  have hclosing : Oblivious (statement blockEnd fun b _ ↦ b) :=
    oblivious_statement (composes_oblivious.expect _ _) fun _ _ _ ↦ rfl
  exact hclosing.comp (hconnections _) b earlier

theorem oblivious_blockFor (header : Token) : Oblivious (·.blockFor header) := by
  intro b earlier
  have hdevice : (b.carrying earlier).deviceNamed? header.text = b.deviceNamed? header.text := rfl
  dsimp only
  rw [blockFor_eq, blockFor_eq, hdevice]
  split
  · exact oblivious_statement composes_oblivious.blockOpening
      (fun _ ↦ oblivious_blockBody _ _) b earlier
  · exact (oblivious_mapReader fun r _ ↦ r.skipBlock_carrying).comp (oblivious_file _ _) b earlier

theorem oblivious_block : Oblivious block :=
  oblivious_statement composes_oblivious.blockHeader oblivious_blockFor

/-- The statements of a section are carried out whatever was filed before. -/
theorem oblivious_body (heading : Heading) : Oblivious (·.body heading) := by
  intro b earlier
  dsimp only
  rw [body_eq, body_eq]
  cases heading with
  | devices | init =>
    exact oblivious_untilSectionEnd
      (oblivious_statement (oblivious_deviceStatement _) oblivious_declareAll) _ b earlier
  | connections => exact oblivious_untilSectionEnd oblivious_block _ b earlier
  | monitor =>
    exact oblivious_untilSectionEnd
      (oblivious_statement composes_oblivious.monitorStatement oblivious_watchAll) _ b earlier

theorem oblivious_note (heading : Heading) : Oblivious (·.note heading) := by
  intro b earlier
  dsimp only
  unfold note
  rw [seen_carrying]
  split
  · exact oblivious_file _ _ b earlier
  · rfl

theorem oblivious_advance : Oblivious (·.mapReader Reader.advance) :=
  oblivious_mapReader fun r _ ↦ r.advance_carrying

theorem oblivious_fileAll (faults : List Fault) (position : Position) :
    Oblivious (·.fileAll faults position) :=
  oblivious_foldl (fun fault ↦ oblivious_file fault position) faults

theorem oblivious_setMode (mode : NameMode) : Oblivious (setMode mode) :=
  oblivious_mapReader fun _ _ ↦ rfl

theorem oblivious_ite {p : Builder → Prop} [DecidablePred p] {f g : Builder → Builder}
    (hp : ∀ (b : Builder) (earlier : List Report), p (b.carrying earlier) ↔ p b)
    (hf : Oblivious f) (hg : Oblivious g) : Oblivious fun b ↦ if p b then f b else g b := by
  intro b earlier
  dsimp only
  simp only [hp, hf b earlier, hg b earlier, apply_ite (carrying earlier)]

theorem oblivious_close (heading : Heading) : Oblivious (·.close heading) := by
  have hclosed : Oblivious fun b ↦ if b.reader.current.lexeme = .closeBrace then
      (b.setMode .declare).mapReader Reader.advance
    else (b.setMode .declare).mapReader (·.unexpected .sectionEnd) :=
    oblivious_ite (fun _ _ ↦ Iff.rfl) (oblivious_advance.comp (oblivious_setMode .declare))
      ((oblivious_mapReader fun r _ ↦ r.unexpected_carrying .sectionEnd).comp
        (oblivious_setMode .declare))
  intro b earlier
  exact (congrArg (fun c : Builder ↦ c.fileAll (c.shortfalls heading) b.reader.current.position)
    (hclosed b earlier)).trans (oblivious_fileAll _ _ _ earlier)

/-- A section is parsed whatever was filed before. -/
theorem oblivious_parseSection (heading : Heading) : Oblivious (·.parseSection heading) := by
  have hnoted : Oblivious fun b ↦ (b.note heading).mapReader Reader.advance :=
    oblivious_advance.comp (oblivious_note heading)
  have hopened := oblivious_advance.comp (oblivious_setMode (modeOf heading))
  have hread : Oblivious fun b ↦ if b.reader.current.lexeme = .openBrace then
      (((b.setMode (modeOf heading)).mapReader Reader.advance).body heading).close heading
    else b.mapReader fun r ↦ (r.unexpected .openBrace).skipTo [.heading] :=
    oblivious_ite (fun _ _ ↦ Iff.rfl)
      ((oblivious_close heading).comp ((oblivious_body heading).comp hopened))
      (oblivious_mapReader fun r _ ↦ by rw [r.unexpected_carrying, Reader.skipTo_carrying])
  exact hread.comp hnoted

/-! ### Reports left out -/

/-- The builder, as if nothing had been filed. -/
def hushed (b : Builder) : Builder :=
  b.mapReader Reader.hushed

@[simp]
theorem reader_hushed (b : Builder) : b.hushed.reader = b.reader.hushed := rfl

theorem carrying_hushed (b : Builder) : b.hushed.carrying b.reader.log = b :=
  congrArg (Builder.mk · b.network b.monitors b.seen) b.reader.carrying_hushed

/-- What two builders are to each other when their reports are left out, and by how many reports
the second has more. -/
structure Reporting (count : Nat) (p : Builder → Builder → Prop) (b b' : Builder) : Prop where
  hushed : p b.hushed b'.hushed
  count : b'.reader.log.length = b.reader.log.length + count

variable {p q : Builder → Builder → Prop} {b b' b'' : Builder} {m n : Nat}

theorem hushed_of_quiet (h : b.reader.log = []) : b.hushed = b := by
  have hcarried := b.carrying_hushed
  rwa [h] at hcarried

theorem Reporting.of_quiet (h : p b b') (hb : b.reader.log = []) (hb' : b'.reader.log = []) :
    Reporting 0 p b b' :=
  ⟨by rwa [hushed_of_quiet hb, hushed_of_quiet hb'], by rw [hb, hb', Nat.add_zero]⟩

/-- Reports of two stretches add up. -/
theorem Reporting.trans {s : Builder → Builder → Prop} (h : Reporting m p b b')
    (h' : Reporting n q b' b'') (hs : ∀ {b b' b''}, p b b' → q b' b'' → s b b'') :
    Reporting (m + n) s b b'' :=
  ⟨hs h.hushed h'.hushed, by rw [h'.count, h.count, Nat.add_assoc]⟩

/-- What is done with a builder is what is done with it without its reports, which are put back in
front. -/
theorem Oblivious.eq_carrying {f : Builder → Builder} (hf : Oblivious f) (b : Builder) :
    f b = (f b.hushed).carrying b.reader.log := by
  rw [← hf, carrying_hushed]

/-- What is found out about a builder without reports holds after any reports. -/
theorem Oblivious.reporting {f : Builder → Builder} (hf : Oblivious f)
    (h : Reporting n p b.hushed (f b.hushed)) : Reporting n p b (f b) := by
  rw [hf.eq_carrying b]
  refine ⟨h.hushed, ?_⟩
  have hcount := h.count
  change _ = 0 + n at hcount
  change (b.reader.log ++ _).length = _
  rw [List.length_append, hcount, Nat.zero_add]

theorem Oblivious.reporting_of_quiet {f : Builder → Builder} (hf : Oblivious f)
    (h : p b.hushed (f b.hushed)) (hlog : (f b.hushed).reader.log = []) :
    Reporting 0 p b (f b) :=
  hf.reporting (.of_quiet h rfl hlog)

end Builder

end Breadboard.Description
