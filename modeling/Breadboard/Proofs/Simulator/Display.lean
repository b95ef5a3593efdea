import Breadboard.Proofs.Simulator.Signals
import Breadboard.Proofs.Text.Lines

/-!
# The display and the traces

The display is drawn from the watched outputs and the names that are found for them, side by side,
while a trace is found by its name. In a simulator of a loaded circuit every watched output has a
name and is found by it, so no line is left out and each line has the trace that goes with its name
(`Labelled.forall₂_trace`). The lines come out again when the display is cut into lines
(`Text.lines_flatMap`), which is the main result, `display_drawn`.
-/

set_option autoImplicit false
set_option relaxedAutoImplicit false

namespace Breadboard

/-! ### Cutting at line feeds -/

namespace Text

/-- Some characters without a line break. -/
def Unbroken (row : List Char) : Prop :=
  ∀ c ∈ row, c ≠ '\r' ∧ c ≠ '\n'

theorem lines_append_feed {row : List Char} (hrow : Unbroken row) (rest : List Char) :
    lines (row ++ '\n' :: rest) = row :: lines rest := by
  induction row with
  | nil => rw [List.nil_append, lines]
  | cons c row ih =>
    obtain ⟨⟨hreturn, hfeed⟩, hrow⟩ := List.forall_mem_cons.mp hrow
    rw [List.cons_append, lines, ih hrow]
    · simp [hreturn]
    · exact hfeed

/-- Lines that are written one after another are the lines that are read. -/
theorem lines_flatMap {rows : List (List Char)}
    (hrows : ∀ row ∈ rows, Unbroken row) : lines (rows.flatMap (· ++ ['\n'])) = rows := by
  induction rows with
  | nil => rfl
  | cons row rows ih =>
    obtain ⟨hrow, hrows⟩ := List.forall_mem_cons.mp hrows
    rw [List.flatMap_cons, List.append_assoc, List.singleton_append, lines_append_feed hrow,
      ih hrows]

end Text

/-! ### Watched outputs and their histories -/

namespace Monitors

/-- The history of an output that is watched once is the one of its probe. -/
theorem history?_of_mem {m : Monitors} {p : Probe} (honce : m.outputs.Nodup) (hp : p ∈ m.probes) :
    m.history? p.output = some p.history := by
  obtain ⟨probes⟩ := m
  unfold history?
  induction probes with
  | nil => cases hp
  | cons first probes ih =>
    obtain ⟨hfirst, honce⟩ := List.nodup_cons.mp honce
    rcases List.mem_cons.mp hp with rfl | hp
    · rw [List.find?_cons_of_pos (by simp), Option.map_some]
    · have hother : first.output ≠ p.output := fun hsame ↦
        hfirst (List.mem_map.mpr ⟨p, hp, hsame.symm⟩)
      rw [List.find?_cons_of_neg (by simpa using hother)]
      exact ih honce hp

end Monitors

namespace Simulator

open Description (Regular)

variable {s : Simulator} {c : Circuit} {name : String} {margin : Nat}

/-! ### What a display shows -/

/-- How a level is drawn. -/
inductive DrawnAs : Level → Char → Prop
  | high : DrawnAs Level.high '-'
  | low : DrawnAs Level.low '_'

/-- The length of the longest of some names. -/
structure IsMargin (names : List String) (margin : Nat) : Prop where
  fits : ∀ name ∈ names, name.length ≤ margin
  reached : names ≠ [] → ∃ name ∈ names, name.length = margin

/-- A line that shows the trace of a name: the name, filled up with blanks to the margin, a colon
between blanks, and the levels of the trace drawn in order. -/
def IsRow (s : Simulator) (margin : Nat) (name : String) (row : List Char) : Prop :=
  ∃ history marks, s.trace name = .ok history ∧ List.Forall₂ DrawnAs history.toList marks ∧
    row = name.toList ++ List.replicate (margin - name.length) ' ' ++ [' ', ':', ' '] ++ marks

/-- The display of a simulator and the traces that it answers with show the same. -/
structure Drawn (s : Simulator) : Prop where
  /-- The names go with the watched outputs, one by one and in order. -/
  named : s.signalNames.map s.resolve = s.monitors.outputs.map some
  /-- Each name has the history of its output for its trace. -/
  traces : s.signalNames.map s.trace = s.monitors.probes.map (.ok ·.history)
  /-- Only these names have a trace. -/
  traced : ∀ name, (∃ history, s.trace name = .ok history) ↔ name ∈ s.signalNames
  untraced : ∀ name, name ∉ s.signalNames → s.trace name = .error (.unknownSignal name)
  /-- There is a line for each name, in order, and nothing else. -/
  display : ∃ margin rows, IsMargin s.signalNames margin ∧
    List.Forall₂ (s.IsRow margin) s.signalNames rows ∧
    s.display.toList = rows.flatMap (· ++ ['\n']) ∧ Text.lines s.display.toList = rows

/-! ### Drawing -/

theorem isMargin_foldl_max (names : List String) :
    IsMargin names ((names.map String.length).foldl max 0) := by
  rw [List.foldl_max, Nat.zero_max]
  cases hmax : (names.map String.length).max? with
  | none =>
    obtain rfl : names = [] := by simpa using hmax
    exact ⟨by simp, fun hne ↦ (hne rfl).elim⟩
  | some longest =>
    obtain ⟨hmem, hle⟩ := List.max?_eq_some_iff.mp hmax
    obtain ⟨name, hname, hlength⟩ := List.mem_map.mp hmem
    exact ⟨fun other hother ↦ hle _ (List.mem_map_of_mem hother), fun _ ↦ ⟨name, hname, hlength⟩⟩

theorem drawnAs_mark (level : Level) : DrawnAs level level.mark := by
  cases level
  · exact .low
  · exact .high

theorem isRow_line (margin : Nat) {history : Array Level} (htrace : s.trace name = .ok history) :
    ∃ row, s.IsRow margin name row ∧
      (Monitors.line margin name history).toList = row ++ ['\n'] := by
  refine ⟨_, ⟨history, history.toList.map Level.mark, htrace, ?_, rfl⟩, ?_⟩
  · exact List.forall₂_map_right_iff.mpr (List.forall₂_same.mpr fun level _ ↦ drawnAs_mark level)
  · simp [Monitors.line, Monitors.padded]

/-- The lines of some names and of the probes that go with them, one below the other. -/
theorem exists_rows {names : List String} {probes : List Probe}
    (h : List.Forall₂ (fun name probe ↦ s.trace name = .ok probe.history) names probes)
    (margin : Nat) :
    ∃ rows, List.Forall₂ (s.IsRow margin) names rows ∧
      (String.join ((names.zip probes).map fun (name, probe) ↦
        Monitors.line margin name probe.history)).toList = rows.flatMap (· ++ ['\n']) := by
  induction h with
  | nil => exact ⟨[], .nil, rfl⟩
  | @cons name probe names probes hname _ ih =>
    obtain ⟨row, hrow, hline⟩ := isRow_line margin hname
    obtain ⟨rows, hrows, hlines⟩ := ih
    refine ⟨row :: rows, .cons hrow hrows, ?_⟩
    rw [List.zip_cons_cons, List.map_cons, String.join_cons, String.toList_append, hline, hlines,
      List.flatMap_cons]

/-- Neither a name of a signal nor a blank, a colon or a mark breaks a line. -/
theorem IsRow.unbroken {row : List Char} (hrow : s.IsRow margin name row)
    (hname : Text.Unbroken name.toList) : Text.Unbroken row := by
  obtain ⟨history, marks, -, hmarks, rfl⟩ := hrow
  have hmark : Text.Unbroken marks := by
    generalize history.toList = levels at hmarks
    induction hmarks with
    | nil => exact fun _ hc ↦ absurd hc List.not_mem_nil
    | cons hdrawn _ ih => exact List.forall_mem_cons.mpr ⟨by cases hdrawn <;> decide, ih⟩
  intro c hc
  simp only [List.mem_append] at hc
  rcases hc with ((hc | hc) | hc) | hc
  · exact hname c hc
  · obtain rfl := List.eq_of_mem_replicate hc
    decide
  · have hcolon : ∀ c ∈ [' ', ':', ' '], c ≠ '\r' ∧ c ≠ '\n' := by simp
    exact hcolon c hc
  · exact hmark c hc

theorem unbroken_of_isRow {names : List String} {rows : List (List Char)}
    (hrows : List.Forall₂ (s.IsRow margin) names rows)
    (hnames : ∀ name ∈ names, Text.Unbroken name.toList) : ∀ row ∈ rows, Text.Unbroken row := by
  induction hrows with
  | nil => exact fun _ hrow ↦ absurd hrow List.not_mem_nil
  | cons hrow _ ih =>
    obtain ⟨hname, hnames⟩ := List.forall_mem_cons.mp hnames
    exact List.forall_mem_cons.mpr ⟨hrow.unbroken hname, ih hnames⟩

/-! ### Names and traces -/

/-- Letters, digits and dots break no line. -/
theorem unbroken_of_terminal? {names : Names} (hnames : Regular names) {output : Terminal}
    (h : names.terminal? output = some name) : Text.Unbroken name.toList := by
  have hword : ∀ word, names.Has word → Text.Unbroken word.toList := by
    intro word hword c hc
    have halnum := List.all_eq_true.mp (hnames.identifiers word hword).alphanumeric c hc
    constructor <;> (rintro rfl; exact absurd halnum (by decide))
  obtain ⟨⟨device, port⟩, hcalls, rfl⟩ := Names.terminal?_eq_some_iff.mp h
  have hdevice := hword device ⟨_, hcalls.device⟩
  cases port with
  | none => exact hdevice
  | some port =>
    obtain ⟨id, -, hport⟩ := Option.map_eq_some_iff.mp hcalls.port
    intro c hc
    simp only [Description.OutputName.signal, String.toList_append, List.mem_append] at hc
    rcases hc with (hc | hc) | hc
    · exact hdevice c hc
    · obtain rfl : c = '.' := by simpa using hc
      decide
    · exact hword port ⟨_, hport⟩ c hc

/-- A watched output is found by its name, and its history with it. -/
theorem Labelled.forall₂_trace (h : Labelled s) :
    List.Forall₂ (fun name probe ↦ s.resolve name = some probe.output ∧
      s.trace name = .ok probe.history) s.signalNames s.monitors.probes := by
  have hwatched : s.signalNames.map some =
      s.monitors.probes.map (s.names.terminal? ·.output) := by
    rw [h.signalsNamed.watched, Monitors.outputs, List.map_map]
    rfl
  rw [← List.forall₂_eq_eq_eq, List.forall₂_map_left_iff, List.forall₂_map_right_iff] at hwatched
  obtain ⟨hlength, hpairs⟩ := List.forall₂_iff_zip.mp hwatched
  refine List.forall₂_iff_zip.mpr ⟨hlength, fun {name probe} hpair ↦ ?_⟩
  have hprobe := (List.of_mem_zip hpair).2
  have hresolve : s.resolve name = some probe.output :=
    h.resolve_eq_some_iff.mpr ⟨h.there _ (List.mem_map_of_mem hprobe), (hpairs hpair).symm⟩
  refine ⟨hresolve, ?_⟩
  rw [trace_eq, hresolve, Option.bind_some, Monitors.history?_of_mem h.once hprobe]
  rfl

/-- Only the name of a watched output has a trace. -/
theorem Labelled.trace_of_notMem (h : Labelled s) (hname : name ∉ s.signalNames) :
    s.trace name = .error (.unknownSignal name) := by
  have hnone : (s.resolve name).bind s.monitors.history? = none := by
    refine Option.bind_eq_none_iff.mpr fun output hresolve ↦ ?_
    rw [← Option.not_isSome_iff_eq_none, Monitors.isSome_history?]
    exact fun hwatched ↦ hname (h.mem_signalNames_iff.mpr ⟨output, hresolve, hwatched⟩)
  rw [trace_eq, hnone]
  rfl

/-- Only the name of a watched output has a trace. -/
theorem Labelled.exists_trace_iff (h : Labelled s) :
    (∃ history, s.trace name = .ok history) ↔ name ∈ s.signalNames := by
  constructor
  · rintro ⟨history, htrace⟩
    by_contra hname
    cases htrace.symm.trans (h.trace_of_notMem hname)
  · intro hname
    obtain ⟨output, hresolve, hwatched⟩ := h.mem_signalNames_iff.mp hname
    have hsome := Monitors.isSome_history?.mpr hwatched
    obtain ⟨history, hhistory⟩ := Option.isSome_iff_exists.mp hsome
    exact ⟨history, by rw [trace_eq, hresolve, Option.bind_some, hhistory]; rfl⟩

theorem Labelled.unbroken (h : Labelled s) : ∀ name ∈ s.signalNames, Text.Unbroken name.toList := by
  intro name hname
  rw [signalNames_eq] at hname
  obtain ⟨output, -, hcalled⟩ := List.mem_filterMap.mp hname
  exact unbroken_of_terminal? h.names hcalled

theorem Labelled.drawn (h : Labelled s) : Drawn s := by
  have hpairs := h.forall₂_trace
  have hmargin := isMargin_foldl_max s.signalNames
  obtain ⟨rows, hrows, hdisplay⟩ := exists_rows (hpairs.imp fun _ _ hpair ↦ hpair.2)
    ((s.signalNames.map String.length).foldl max 0)
  refine {
    named := ?_
    traces := ?_
    traced := fun name ↦ h.exists_trace_iff
    untraced := fun name hname ↦ h.trace_of_notMem hname
    display := ⟨_, rows, hmargin, hrows, hdisplay, ?_⟩ }
  · rw [Monitors.outputs, List.map_map, ← List.forall₂_eq_eq_eq, List.forall₂_map_left_iff,
      List.forall₂_map_right_iff]
    exact hpairs.imp fun _ _ hpair ↦ hpair.1
  · rw [← List.forall₂_eq_eq_eq, List.forall₂_map_left_iff, List.forall₂_map_right_iff]
    exact hpairs.imp fun _ _ hpair ↦ hpair.2
  · exact (congrArg Text.lines hdisplay).trans
      (Text.lines_flatMap (unbroken_of_isRow hrows h.unbroken))

/-- Assumes: the simulator of a loaded circuit, and any operations. The watched outputs are those of
the circuit and of the requests since, in the order in which they came to be watched. Each has a
name that is read as this output, and these names are the only ones that have a trace. The display
is a line for each name, in order: the name filled up with blanks to the length of the longest, a
colon between blanks, and the trace of the name, drawn with a mark for each level. Cut into lines,
it gives these lines and no other. -/
theorem display_drawn {text : String} {settings : Settings}
    (hload : Circuit.load text settings = .ok c) (operations : List Operation) :
    ((ofCircuit c).after operations).monitors.outputs =
        Event.watchedAfter c.monitors.outputs ((ofCircuit c).chronicle operations) ∧
      Drawn ((ofCircuit c).after operations) :=
  ⟨((recorded_ofCircuit (wellFormed_of_load hload)).after (reset_of_load hload).1
    operations).watching, ((labelled_ofCircuit hload).after operations).drawn⟩

/-- A clock divided by two. -/
def halvedClock : String :=
  "devices \x7b CK is CLOCK; D1 is DTYPE; Z is SWITCH; \x7d " ++
  "connections \x7b device D1 \x7b CK to D1.CLK; D1.QBAR to D1.DATA; " ++
  "Z to D1.SET; Z to D1.CLEAR; \x7d \x7d " ++
  "monitor \x7b CK, D1.Q; \x7d"

/-- Three cycles, and two more with the switch watched from there. -/
def halvedClockUse : List Operation :=
  [.run 3, .addMonitor "Z", .run 2]

theorem halvedClock_drawn : ∃ c, Circuit.load halvedClock = .ok c ∧
    ((ofCircuit c).after halvedClockUse).monitors.outputs =
      Event.watchedAfter c.monitors.outputs ((ofCircuit c).chronicle halvedClockUse) ∧
    Drawn ((ofCircuit c).after halvedClockUse) ∧
    ((ofCircuit c).after halvedClockUse).display =
      "CK   : -_-_-\nD1.Q : --__-\nZ    : __\n" := by
  obtain ⟨c, hload, hdisplay⟩ := Circuit.exists_loaded halvedClock
    (P := fun c ↦ ((ofCircuit c).after halvedClockUse).display =
      "CK   : -_-_-\nD1.Q : --__-\nZ    : __\n")
    (by decide +kernel)
  obtain ⟨houtputs, hdrawn⟩ := display_drawn hload halvedClockUse
  exact ⟨c, hload, houtputs, hdrawn, hdisplay⟩

end Simulator

end Breadboard
