import Breadboard.Description.Section
import Breadboard.Proofs.Description.Symbols

/-!
# What lasts while a description is read

Reading a description moves a reader on, files reports, resolves names and changes the mode, and
does nothing else to a reader. What all of these keep is kept by reading a whole description
(`Reader.Lasting.parse`). So what was filed stays filed, and a fault that was in front of the reader
has been filed when the end is reached: a text about which nothing is filed holds no lexical fault
(`flawless_of_quiet`).
-/

set_option autoImplicit false
set_option relaxedAutoImplicit false

namespace Breadboard.Description

open Text (Position)

namespace Reader

variable {r s : Reader} {p : Reader → Prop}

/-- A property that nothing takes away that is done to a reader. -/
structure Lasting (p : Reader → Prop) : Prop where
  advance {r : Reader} : p r → p r.advance
  file {r : Reader} (fault : Fault) (position : Position) : p r → p (r.file fault position)
  resolve {r : Reader} (list : List String) :
    p r → p { r with names := (r.names.resolveAll r.mode list).2 }
  inMode {r : Reader} (mode : NameMode) : p r → p { r with mode }

theorem Lasting.reaches (h : Lasting p) (hrs : r.Reaches s) (hr : p r) : p s := by
  induction hrs with
  | refl => exact hr
  | advance _ ih => exact h.advance ih
  | file fault position _ ih => exact h.file fault position ih
  | resolve list _ ih => exact h.resolve list ih

theorem Lasting.fileAll (h : Lasting p) {b : Builder} (faults : List Fault) (position : Position)
    (hb : p b.reader) : p (b.fileAll faults position).reader := by
  induction faults generalizing b with
  | nil => exact hb
  | cons fault faults ih =>
    have hfiled : p (b.file fault position).reader := h.file fault position hb
    exact ih hfiled

theorem Lasting.close (h : Lasting p) {b : Builder} (heading : Heading) (hb : p b.reader) :
    p (b.close heading).reader := by
  rw [Builder.close_eq]
  refine h.fileAll _ _ ?_
  rw [Builder.passEnd]
  split
  · exact h.advance (h.inMode .declare hb)
  · exact h.file _ _ (h.inMode .declare hb)

theorem Lasting.note (h : Lasting p) {b : Builder} (heading : Heading) (hb : p b.reader) :
    p (b.note heading).reader := by
  rw [Builder.note]
  split
  · exact h.file _ _ hb
  · exact hb

theorem Lasting.parseSection (h : Lasting p) {b : Builder} {heading : Heading}
    (hb : p (b.note heading).reader) : p (b.parseSection heading).reader := by
  have hfirst := h.advance hb
  rw [Builder.parseSection_eq]
  split
  · exact h.close heading (h.reaches (Builder.reaches_body heading _)
      (h.advance (h.inMode (Builder.modeOf heading) hfirst)))
  · exact h.reaches (reaches_skipTo _ _) (h.file _ _ hfirst)

/-- What nothing takes away that is done to a reader lasts while a whole description is read. -/
theorem Lasting.parse (h : Lasting p) {b : Builder} (hb : p b.reader) : p b.parse.reader := by
  induction b using Builder.induction_parse with
  | ended b hend =>
    rw [Builder.parse_ended hend]
    exact h.fileAll b.missing b.reader.current.position hb
  | beforeDevices b hend heading hheading hbefore =>
    rw [Builder.parse_beforeDevices hend hheading hbefore]
    exact h.file _ _ hb
  | heading b hend heading hheading hdue ih =>
    rw [Builder.parse_heading hend hheading hdue]
    exact ih (h.parseSection (h.note heading hb))
  | stray b hend hheading ih =>
    rw [Builder.parse_stray hend hheading]
    exact ih (h.reaches (reaches_skipTo _ _) (h.file _ _ hb))

end Reader

/-! ### What was filed -/

variable {r s : Reader}

theorem log_file_ne (r : Reader) (fault : Fault) (position : Position) :
    (r.file fault position).log ≠ [] := by
  rw [Reader.file]
  exact List.append_ne_nil_of_right_ne_nil _ (List.cons_ne_nil _ _)

theorem log_eq_nil_of_reaches (h : r.Reaches s) (hlog : s.log = []) : r.log = [] :=
  List.prefix_nil.mp (hlog ▸ h.log_extends)

/-- What was filed stays filed. -/
theorem lasting_filed : Reader.Lasting fun r ↦ r.log ≠ [] where
  advance h hadvance := h (log_eq_nil_of_reaches Reader.Reaches.refl.advance hadvance)
  file fault position _ := log_file_ne _ fault position
  resolve _ h := h
  inMode _ h := h

theorem log_fileAll_eq_nil {b : Builder} {faults : List Fault} {position : Position}
    (h : (b.fileAll faults position).reader.log = []) : b.reader.log = [] ∧ faults = [] := by
  induction faults generalizing b with
  | nil => exact ⟨h, rfl⟩
  | cons fault faults ih => exact (log_file_ne _ _ _ (ih h).1).elim

/-- A section about which nothing is filed was not there before. -/
theorem not_mem_seen_of_quiet {b : Builder} {heading : Heading}
    (h : (b.parseSection heading).reader.log = []) : heading ∉ b.seen := by
  intro hseen
  have hnoted : (b.note heading).reader.log ≠ [] := by
    rw [Builder.note, if_pos hseen]
    exact log_file_ne _ _ _
  exact lasting_filed.parseSection hnoted h

/-- A description about which nothing is filed is read to its end. -/
theorem atEnd_of_quiet {b : Builder} (h : b.parse.reader.log = []) :
    b.parse.reader.atEnd = true := by
  induction b using Builder.induction_parse with
  | ended b hend =>
    rw [Builder.parse_ended hend] at h ⊢
    rw [(log_fileAll_eq_nil h).2]
    exact hend
  | beforeDevices b hend heading hheading hbefore =>
    rw [Builder.parse_beforeDevices hend hheading hbefore] at h
    exact (log_file_ne _ _ _ h).elim
  | heading b hend heading hheading hdue ih =>
    rw [Builder.parse_heading hend hheading hdue] at h ⊢
    exact ih h
  | stray b hend hheading ih =>
    rw [Builder.parse_stray hend hheading] at h ⊢
    exact ih h

/-! ### What was in front of the reader -/

namespace Reader

/-- A fault among some readings is still to come, or has been filed. -/
structure Trail (readings : List Reading) (r : Reader) : Prop where
  tokens : ∀ token, .token token ∈ r.rest → token.Proper
  finished : r.atEnd = true → r.rest = []
  faults : r.log = [] → ∀ fault position, .fault fault position ∈ readings →
    .fault fault position ∈ r.rest

theorem trail_pull {readings rest : List Reading}
    (htokens : ∀ token, .token token ∈ rest → token.Proper)
    (hfaults : r.log = [] → ∀ fault position, .fault fault position ∈ readings →
      .fault fault position ∈ rest) : Trail readings (r.pull rest) := by
  fun_induction pull r rest with
  | case1 r => exact ⟨fun _ h ↦ absurd h List.not_mem_nil, fun _ ↦ rfl, hfaults⟩
  | case2 r token rest =>
    refine ⟨fun other hother ↦ htokens other (List.mem_cons_of_mem _ hother), fun hend ↦ ?_, ?_⟩
    · exact absurd (beq_iff_eq.mp hend) (htokens token List.mem_cons_self).inside
    · intro hlog fault position hfault
      exact (List.mem_cons.mp (hfaults hlog fault position hfault)).resolve_left
        Reading.noConfusion
  | case3 r fault position rest ih =>
    exact ih (fun token htoken ↦ htokens token (List.mem_cons_of_mem _ htoken))
      fun hlog ↦ absurd hlog (log_file_ne _ _ _)

theorem lasting_trail (readings : List Reading) : Lasting (Trail readings) where
  advance {r} h := by
    cases hend : r.atEnd with
    | true =>
      rw [Reader.advance, if_pos hend]
      exact h
    | false =>
      rw [Reader.advance, hend, if_neg Bool.false_ne_true]
      exact trail_pull h.tokens h.faults
  file fault position h := ⟨h.tokens, h.finished, fun hlog ↦ absurd hlog (log_file_ne _ _ _)⟩
  resolve _ h := ⟨h.tokens, h.finished, h.faults⟩
  inMode _ h := ⟨h.tokens, h.finished, h.faults⟩

/-- A text about which nothing is filed holds no lexical fault. -/
theorem flawless_of_quiet {names : Names} {network : Network} {monitors : Monitors} {text : String}
    (h : (Builder.start names network monitors text).parse.reader.log = []) :
    Flawless (Cursor.start text).readings.1 := by
  have hproper (token : Token) : .token token ∈ (Cursor.start text).readings.1 → token.Proper :=
    Cursor.proper_of_mem_readings _
  have hstart : Trail (Cursor.start text).readings.1
      (Builder.start names network monitors text).reader :=
    trail_pull hproper fun _ _ _ ↦ id
  have htrail := (lasting_trail _).parse hstart
  intro reading hreading
  cases reading with
  | token token => exact ⟨token, rfl, hproper token hreading⟩
  | fault fault position =>
    have hrest := htrail.faults h fault position hreading
    rw [htrail.finished (atEnd_of_quiet h)] at hrest
    cases hrest

end Reader

end Breadboard.Description
