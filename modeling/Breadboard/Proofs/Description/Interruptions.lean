import Breadboard.Proofs.Description.Composition
import Breadboard.Proofs.Description.Outputs

/-!
# Faults among the symbols

A statement may be interrupted by what the scanner cannot read. Such faults are filed where they
stand, and make no other difference. An attempt files the faults that it comes upon, and one report
of its own where it yields nothing (`Attempt.Files`), and it yields what it would yield if nothing
had been filed and there were no faults ahead (`Attempt.Deaf`). So what is known of a reader that is
ready is known of any reader that would be ready but for the faults (`Reader.Legible`). Readers of a
text are legible (`Reader.legible_start`), and whatever reads a statement keeps them so.
-/

set_option autoImplicit false
set_option relaxedAutoImplicit false

namespace Breadboard.Description

open Text (Position)

/-! ### What is filed -/

/-- Reports of faults that the scanner came upon. -/
def Lexical (reports : List Report) : Prop :=
  ∀ report ∈ reports, ∃ fault, report.fault = .lexical fault

theorem Lexical.append {reports more : List Report} (h : Lexical reports) (h' : Lexical more) :
    Lexical (reports ++ more) :=
  fun report hreport ↦ (List.mem_append.mp hreport).elim (h report) (h' report)

namespace Reader

variable {r s t : Reader}

/-- A reader that has filed faults of the scanner since, and nothing else. -/
def Scans (r s : Reader) : Prop :=
  ∃ faults, Lexical faults ∧ s.log = r.log ++ faults

theorem Scans.of_log_eq (h : s.log = r.log) : r.Scans s :=
  ⟨[], nofun, h.trans (List.append_nil _).symm⟩

theorem Scans.trans (h : r.Scans s) (h' : s.Scans t) : r.Scans t := by
  obtain ⟨faults, hfaults, hs⟩ := h
  obtain ⟨more, hmore, ht⟩ := h'
  exact ⟨faults ++ more, hfaults.append hmore, by rw [ht, hs, List.append_assoc]⟩

theorem scans_pull (r : Reader) (readings : List Reading) : r.Scans (r.pull readings) := by
  fun_induction pull r readings with
  | case1 | case2 => exact .of_log_eq rfl
  | case3 r fault position rest ih =>
    refine Scans.trans ⟨[⟨.lexical fault, position⟩], ?_, rfl⟩ ih
    exact fun report hreport ↦ ⟨fault, congrArg Report.fault (List.mem_singleton.mp hreport)⟩

theorem scans_advance (r : Reader) : r.Scans r.advance := by
  unfold advance
  split
  · exact .of_log_eq rfl
  · exact r.scans_pull r.rest

theorem scans_skipTo (r : Reader) (anchors : List Anchor) : r.Scans (r.skipTo anchors) := by
  fun_induction skipTo r anchors with
  | case1 => exact .of_log_eq rfl
  | case2 r _ ih => exact r.scans_advance.trans ih

theorem scans_skipStatement (r : Reader) : r.Scans r.skipStatement := by
  have hskip := r.scans_skipTo [.semicolon, .closeBrace, .heading]
  unfold skipStatement passSemicolon
  split
  · exact hskip.trans (scans_advance _)
  · exact hskip

end Reader

namespace Attempt

variable {α β : Type}

/-- An attempt that files the faults that it comes upon, and where it yields nothing one report
after them. -/
structure Files (m : Attempt α) : Prop where
  yields {r s : Reader} {a : α} : m.run r = (some a, s) → r.Scans s
  refuses {r s : Reader} : m.run r = (none, s) →
    ∃ faults report, Lexical faults ∧ s.log = r.log ++ faults ++ [report]

/-- What an attempt files behind faults. -/
theorem Files.refuses_after {m : Attempt α} {r s t : Reader} (hm : m.Files) (hrs : r.Scans s)
    (h : m.run s = (none, t)) :
    ∃ faults report, Lexical faults ∧ t.log = r.log ++ faults ++ [report] := by
  obtain ⟨faults, hfaults, hs⟩ := hrs
  obtain ⟨more, report, hmore, ht⟩ := hm.refuses h
  exact ⟨faults ++ more, report, hfaults.append hmore, by rw [ht, hs, List.append_assoc r.log]⟩

theorem Files.bind {m : Attempt α} {f : α → Attempt β} (hm : m.Files) (hf : ∀ a, (f a).Files) :
    (m >>= f).Files where
  yields {r t b} h := by
    rw [run_bind] at h
    split at h
    · next a s hs => exact (hm.yields hs).trans ((hf a).yields h)
    · cases h
  refuses {r t} h := by
    rw [run_bind] at h
    split at h
    · next a s hs => exact (hf a).refuses_after (hm.yields hs) h
    · next s hs =>
      cases h
      exact hm.refuses hs

theorem Files.commaList {item : Attempt α} (hitem : item.Files) : (commaList item).Files where
  yields {r t list} h := by
    change commaItems item r = _ at h
    fun_induction commaItems item r generalizing list t with
    | case1 | case2 => cases h
    | case3 r _ a s hs more u hu ih =>
      cases h
      exact (r.scans_advance.trans (hitem.yields hs)).trans (ih hu)
    | case4 =>
      cases h
      exact .of_log_eq rfl
  refuses {r t} h := by
    change commaItems item r = _ at h
    fun_induction commaItems item r generalizing t with
    | case1 r _ s hs =>
      cases h
      exact hitem.refuses_after r.scans_advance hs
    | case2 r _ a s hs u hu ih =>
      cases h
      obtain ⟨faults, hfaults, hlog⟩ := r.scans_advance.trans (hitem.yields hs)
      obtain ⟨more, report, hmore, hu⟩ := ih hu
      exact ⟨faults ++ more, report, hfaults.append hmore, by
        rw [hu, hlog, List.append_assoc r.log]⟩
    | case3 | case4 => cases h

/-- An attempt that yields something and files nothing. -/
theorem files_of_quiet {m : Attempt α}
    (h : ∀ r : Reader, (m.run r).1.isSome ∧ r.Scans (m.run r).2) : m.Files where
  yields {r s a} hrun := by
    have hscans := (h r).2
    rwa [hrun] at hscans
  refuses {r s} hrun := by
    have hsome := (h r).1
    rw [hrun] at hsome
    cases hsome

theorem composes_files : Composes Files where
  pure _ := files_of_quiet fun _ ↦ ⟨rfl, .of_log_eq rfl⟩
  bind := Files.bind
  current := files_of_quiet fun _ ↦ ⟨rfl, .of_log_eq rfl⟩
  advance := files_of_quiet fun r ↦ ⟨rfl, r.scans_advance⟩
  numberOf _ := files_of_quiet fun _ ↦ ⟨rfl, .of_log_eq rfl⟩
  refuse fault position := ⟨nofun, fun {r s} h ↦ by
    cases h
    exact ⟨[], ⟨fault, position⟩, nofun, by rw [List.append_nil]; rfl⟩⟩
  unexpected what := ⟨nofun, fun {r s} h ↦ by
    cases h
    exact ⟨[], _, nofun, by rw [List.append_nil]; rfl⟩⟩
  commaList := Files.commaList

theorem files_resolveAll (list : List String) : (resolveAll list).Files :=
  files_of_quiet fun _ ↦ ⟨rfl, .of_log_eq rfl⟩

end Attempt

/-! ### What is read -/

/-- Whether what is read is a lexeme. -/
def Reading.isToken (reading : Reading) : Bool :=
  reading.symbol?.isSome

namespace Reader

variable {r s : Reader}

/-- The reader, as if nothing had been filed and there were no faults ahead. -/
def cleared (r : Reader) : Reader :=
  { r with rest := r.rest.filter Reading.isToken, log := [] }

/-- What is left of a reader without the faults. -/
theorem eq_of_cleared_eq (h : r.cleared = s.cleared) :
    r.names = s.names ∧ r.mode = s.mode ∧ r.current = s.current := by
  obtain ⟨hnames, hmode, hcurrent, -⟩ := Reader.mk.inj h
  exact ⟨hnames, hmode, hcurrent⟩

theorem cleared_cleared (r : Reader) : r.cleared.cleared = r.cleared := by
  simp [cleared]

theorem symbols_cleared (r : Reader) : r.cleared.symbols = r.symbols := by
  have hrest : (r.rest.filter Reading.isToken).filterMap Reading.symbol? =
      r.rest.filterMap Reading.symbol? := by
    rw [List.filterMap_filter]
    refine List.filterMap_congr fun reading _ ↦ ?_
    cases reading <;> rfl
  rw [symbols, symbols, ← hrest]
  rfl

theorem pull_cleared (r : Reader) (readings : List Reading) :
    r.cleared.pull (readings.filter Reading.isToken) = (r.pull readings).cleared := by
  fun_induction pull r readings with
  | case1 | case2 => rfl
  | case3 r fault position rest ih => exact ih

theorem advance_cleared (r : Reader) : r.cleared.advance = r.advance.cleared := by
  rw [advance, advance, apply_ite cleared, ← pull_cleared]
  rfl

/-- A reader that would be ready but for faults that were filed or are still ahead. -/
def Legible (r : Reader) : Prop :=
  r.cleared.Ready r.mode

/-- A reader on the first token of a text is legible. -/
theorem legible_start {names : Names} (hnames : Regular names) (text : String) :
    (start names text).Legible := by
  have hflawless : Flawless ((Cursor.start text).readings.1.filter Reading.isToken) := by
    intro reading hreading
    obtain ⟨hmem, htoken⟩ := List.mem_filter.mp hreading
    cases reading with
    | token token => exact ⟨token, rfl, Cursor.proper_of_mem_readings _ hmem⟩
    | fault fault position => cases htoken
  have hready (r : Reader) (hmode : r.mode = .declare) (hregular : Regular r.names) :
      (r.pull (Cursor.start text).readings.1).cleared.Ready .declare := by
    rw [← pull_cleared]
    exact ready_pull hmode rfl hregular hflawless
  have hstart : (start names text).cleared.Ready .declare := hready _ rfl hnames
  have hmode : (start names text).mode = .declare := hstart.inForce
  rw [Legible, hmode]
  exact hstart

theorem Legible.of_cleared_eq (h : r.Legible) (hcleared : s.cleared = r.cleared) : s.Legible := by
  rw [Legible, hcleared, (eq_of_cleared_eq hcleared).2.1]
  exact h

theorem Legible.file (h : r.Legible) (fault : Fault) (position : Position) :
    (r.file fault position).Legible :=
  h.of_cleared_eq rfl

theorem Legible.advance (h : r.Legible) : r.advance.Legible := by
  cases hend : r.atEnd with
  | true => rwa [Reader.advance, if_pos hend]
  | false =>
    have hready := Ready.advance h (show r.cleared.atEnd = false from hend)
    have hmode : r.advance.mode = r.mode := by
      have hforce := hready.inForce
      rwa [advance_cleared] at hforce
    rw [Legible, ← advance_cleared, hmode]
    exact hready

theorem Legible.skipTo (h : r.Legible) (anchors : List Anchor) : (r.skipTo anchors).Legible := by
  fun_induction Reader.skipTo r anchors with
  | case1 => exact h
  | case2 r _ ih => exact ih h.advance

theorem Legible.skipStatement (h : r.Legible) : r.skipStatement.Legible := by
  have hskip := h.skipTo [.semicolon, .closeBrace, .heading]
  rw [Reader.skipStatement, passSemicolon]
  split
  · exact hskip.advance
  · exact hskip

end Reader

namespace Attempt

variable {α β : Type} {m : Attempt α} {r s : Reader} {a : α}

/-- An attempt to which faults make no difference. -/
def Deaf (m : Attempt α) : Prop :=
  ∀ r s : Reader, r.cleared = s.cleared →
    (m.run r).1 = (m.run s).1 ∧ (m.run r).2.cleared = (m.run s).2.cleared

theorem Deaf.bind {f : α → Attempt β} (hm : m.Deaf) (hf : ∀ a, (f a).Deaf) : (m >>= f).Deaf := by
  intro r s hrs
  obtain ⟨hvalue, hreader⟩ := hm r s hrs
  rw [run_bind, run_bind]
  rcases hr : m.run r with ⟨_ | a, t⟩ <;> rcases hs : m.run s with ⟨_ | b, u⟩ <;>
    rw [hr, hs] at hvalue hreader
  · exact ⟨rfl, hreader⟩
  · cases hvalue
  · cases hvalue
  · obtain rfl := Option.some_inj.mp hvalue
    exact hf a t u hreader

/-- What one reader makes of an attempt, another does that differs by faults alone. -/
theorem Deaf.run_eq (hm : m.Deaf) (hrs : r.cleared = s.cleared) {a? : Option α} {t : Reader}
    (h : m.run r = (a?, t)) : ∃ u, m.run s = (a?, u) ∧ t.cleared = u.cleared := by
  obtain ⟨hvalue, hreader⟩ := hm r s hrs
  rw [h] at hvalue hreader
  exact ⟨(m.run s).2, Prod.ext hvalue.symm rfl, hreader⟩

/-- Behind a comma there is one more item. -/
theorem commaItems_of_comma {item : Attempt α} (hcomma : r.current.lexeme = .comma) :
    commaItems item r =
      match item.run r.advance with
      | (none, s) => (none, s)
      | (some a, s) => ((commaItems item s).1.map (a :: ·), (commaItems item s).2) := by
  rw [commaItems, dif_pos hcomma]
  split
  · next hs => rw [hs]
  · next a s hs =>
    rw [hs]
    dsimp only
    split <;> next ht => rw [ht]; rfl

theorem Deaf.commaList {item : Attempt α} (hitem : item.Deaf) : (commaList item).Deaf := by
  intro r s hrs
  change (commaItems item r).1 = (commaItems item s).1 ∧
    (commaItems item r).2.cleared = (commaItems item s).2.cleared
  have hlexeme {r s : Reader} (hrs : r.cleared = s.cleared) : r.current = s.current :=
    (Reader.eq_of_cleared_eq hrs).2.2
  have hadvance {r s : Reader} (hrs : r.cleared = s.cleared) :
      r.advance.cleared = s.advance.cleared := by
    rw [← Reader.advance_cleared, hrs, Reader.advance_cleared]
  fun_induction commaItems item r generalizing s with
  | case1 r hcomma t ht =>
    obtain ⟨u, hu, hreader⟩ := hitem.run_eq (hadvance hrs) ht
    rw [commaItems_of_comma (hlexeme hrs ▸ hcomma), hu]
    exact ⟨rfl, hreader⟩
  | case2 r hcomma a t ht last hlast ih | case3 r hcomma a t ht more last hlast ih =>
    obtain ⟨u, hu, hreader⟩ := hitem.run_eq (hadvance hrs) ht
    obtain ⟨hvalue, hrest⟩ := ih u hreader
    rw [hlast] at hvalue hrest
    rw [commaItems_of_comma (hlexeme hrs ▸ hcomma), hu]
    exact ⟨congrArg (Option.map (a :: ·)) hvalue, hrest⟩
  | case4 r hcomma =>
    rw [commaItems, dif_neg (hlexeme hrs ▸ hcomma)]
    exact ⟨rfl, hrs⟩

theorem composes_deaf : Composes Deaf where
  pure _ _ _ h := ⟨rfl, h⟩
  bind := Deaf.bind
  current _ _ h := ⟨congrArg some (Reader.eq_of_cleared_eq h).2.2, h⟩
  advance r s h := ⟨rfl, by
    change r.advance.cleared = s.advance.cleared
    rw [← Reader.advance_cleared, h, Reader.advance_cleared]⟩
  numberOf name _ _ h :=
    ⟨congrArg (fun names : Names ↦ some (names.query name)) (Reader.eq_of_cleared_eq h).1, h⟩
  refuse _ _ _ _ h := ⟨rfl, h⟩
  unexpected _ _ _ h := ⟨rfl, h⟩
  commaList := Deaf.commaList

theorem deaf_resolveAll (list : List String) : (resolveAll list).Deaf := by
  intro r s h
  obtain ⟨hnames, hmode, -⟩ := Reader.eq_of_cleared_eq h
  refine ⟨?_, ?_⟩
  · change some (r.names.resolveAll r.mode list).1 = some (s.names.resolveAll s.mode list).1
    rw [hnames, hmode]
  · change { r.cleared with names := (r.names.resolveAll r.mode list).2 } =
      { s.cleared with names := (s.names.resolveAll s.mode list).2 }
    rw [hnames, hmode, h]

/-- What is read without the faults is read with them, and the same is left. -/
theorem Deaf.exists_run_cleared (hm : m.Deaf) (h : m.run r = (some a, s)) :
    ∃ t, m.run r.cleared = (some a, t) ∧ t.names = s.names ∧ t.symbols = s.symbols := by
  obtain ⟨t, ht, hcleared⟩ := hm.run_eq r.cleared_cleared.symm h
  refine ⟨t, ht, (Reader.eq_of_cleared_eq hcleared).1.symm, ?_⟩
  rw [← t.symbols_cleared, ← hcleared, s.symbols_cleared]

/-! ### Readers that stay legible -/

/-- An attempt that leaves every legible reader legible. -/
def Legibly (m : Attempt α) : Prop :=
  ∀ r : Reader, r.Legible → (m.run r).2.Legible

theorem legible_bind {f : α → Attempt β} (hr : (m.run r).2.Legible)
    (hf : ∀ a s, m.run r = (some a, s) → s.Legible → ((f a).run s).2.Legible) :
    ((m >>= f).run r).2.Legible := by
  rw [run_bind]
  split
  · next a s hs =>
    rw [hs] at hr
    exact hf a s hs hr
  · next s hs => rwa [hs] at hr

theorem Legibly.commaList {item : Attempt α} (hitem : item.Legibly) : (commaList item).Legibly := by
  intro r hr
  change (commaItems item r).2.Legible
  fun_induction commaItems item r with
  | case1 r _ s hs =>
    have hlegible := hitem r.advance hr.advance
    rwa [hs] at hlegible
  | case2 r _ a s hs t ht ih | case3 r _ a s hs more t ht ih =>
    have hlegible := hitem r.advance hr.advance
    rw [hs] at hlegible
    have hrest := ih hlegible
    rwa [ht] at hrest
  | case4 => exact hr

theorem composes_legibly : Composes Legibly where
  pure _ _ h := h
  bind hm hf r hr := legible_bind (hm r hr) fun a s _ hs ↦ hf a s hs
  current _ h := h
  advance _ h := h.advance
  numberOf _ _ h := h
  refuse fault position _ h := h.file fault position
  unexpected _ _ h := h.file _ _
  commaList := Legibly.commaList

/-- The names that are read are identifiers. -/
theorem isIdentifier_of_deviceName (hr : r.Legible) {mention : Mention}
    (h : deviceName.run r = (some mention, s)) : IsIdentifier mention.text := by
  obtain ⟨t, ht, -⟩ := (composes_deaf.knownName _ _).run_eq r.cleared_cleared.symm h
  exact hr.isIdentifier (knownName_sound hr ht).1.symbols

theorem legible_rangeTargets (hr : r.Legible) {first : Mention} (last : Mention)
    (hfirst : IsIdentifier first.text) : ((rangeTargets first last).run r).2.Legible := by
  unfold rangeTargets
  split
  · exact hr.file _ _
  · next list hlist =>
    rw [run_resolveAll_bind]
    have hgrown := Names.extends_resolveAll r.names r.mode list
    have hnames : ({ r with names := (r.names.resolveAll r.mode list).2 } : Reader).Legible :=
      ⟨rfl, rfl, hr.names.resolveAll r.mode fun name ↦ isIdentifier_of_mem_range hfirst hlist,
        hr.current, hr.rest, hr.finished, fun hmode hname ↦ hgrown.has (hr.known hmode hname)⟩
    split
    · exact hnames.file _ _
    · exact hnames

theorem legibly_targets : targets.Legibly := by
  intro r hr
  refine legible_bind (composes_legibly.knownName _ _ r hr) fun first s hs hlegible ↦ ?_
  have hfirst := isIdentifier_of_deviceName hr hs
  rw [run_current_bind]
  split
  · rw [run_advance_bind]
    exact legible_bind (composes_legibly.knownName _ _ _ hlegible.advance)
      fun last t _ ht ↦ legible_rangeTargets ht last hfirst
  · exact composes_legibly.bind (composes_legibly.commaList (composes_legibly.knownName _ _))
      (fun _ ↦ composes_legibly.pure _) s hlegible

theorem legibly_deviceStatement (inInit : Bool) : (deviceStatement inInit).Legibly :=
  composes_legibly.bind legibly_targets fun _ ↦
    composes_legibly.bind (composes_legibly.clause inInit) fun _ ↦
      composes_legibly.bind (composes_legibly.expect _ _) fun _ ↦ composes_legibly.pure _

end Attempt

end Breadboard.Description
