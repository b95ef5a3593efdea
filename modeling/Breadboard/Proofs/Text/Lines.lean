import Breadboard.Text.Basic
import Breadboard.Text.Lines
import Mathlib.Data.List.DropRight

/-!
# Positions and lines

A position is counted up while a text is read, and lines are cut from the text as a whole. The two
agree: a position counts the line feeds in front of it, and the characters since the last of them
(`line_afterAll`, `column_afterAll`); the line with this number is the one between these line feeds
(`isLine_lineText`); and a character that belongs to no line break stands in its line where its
column says (`IsLine.getElem?_column`).
-/

set_option autoImplicit false
set_option relaxedAutoImplicit false

namespace Breadboard.Text

variable {text before line rest more : List Char} {c : Char} {number n : Nat}

/-! ### Positions -/

theorem line_afterAll (run : List Char) :
    (({} : Position).afterAll run).line = run.count '\n' + 1 := by
  induction run using List.reverseRecOn with
  | nil => rfl
  | append_singleton run c ih =>
    rw [Position.afterAll_append, Position.afterAll_cons, Position.afterAll_nil, Position.after,
      List.count_append, List.count_singleton]
    by_cases hc : c = '\n'
    · rw [if_pos hc, ih, if_pos (by simp [hc]), Nat.add_right_comm]
    · rw [if_neg hc, ih, if_neg (by simpa using hc), Nat.add_zero]

/-- What stands in front of a place in its line. -/
def lineSoFar (before : List Char) : List Char :=
  before.rtakeWhile (· ≠ '\n')

theorem column_afterAll (run : List Char) :
    (({} : Position).afterAll run).column = (lineSoFar run).length + 1 := by
  unfold lineSoFar
  induction run using List.reverseRecOn with
  | nil => rfl
  | append_singleton run c ih =>
    rw [Position.afterAll_append, Position.afterAll_cons, Position.afterAll_nil, Position.after]
    by_cases hc : c = '\n'
    · rw [if_pos hc, List.rtakeWhile_concat_neg _ _ _ (by simp [hc]), List.length_nil]
    · rw [if_neg hc, List.rtakeWhile_concat_pos _ _ _ (by simp [hc]), List.length_append, ih]
      rfl

/-! ### Lines -/

/-- How a line ends: with a line feed, with a carriage return and a line feed, or with the text. -/
inductive LineEnds (line : List Char) : List Char → Prop
  | feed (more : List Char) : line.getLast? ≠ some '\r' → LineEnds line ('\n' :: more)
  | returnFeed (more : List Char) : LineEnds line ('\r' :: '\n' :: more)
  | text : LineEnds line []

/-- The beginning of a text, or a place right after a line feed. -/
def StartsLine (before : List Char) : Prop :=
  before = [] ∨ before.getLast? = some '\n'

/-- The line of a text with a given number, counted from one, without its line break. -/
def IsLine (text : List Char) (number : Nat) (line : List Char) : Prop :=
  ∃ before more, text = before ++ (line ++ more) ∧ number = before.count '\n' + 1 ∧
    StartsLine before ∧ '\n' ∉ line ∧ LineEnds line more

theorem StartsLine.prepend (run : List Char) (hbefore : StartsLine before)
    (hrun : StartsLine run ∨ before ≠ []) : StartsLine (run ++ before) := by
  rcases List.eq_nil_or_concat before with rfl | ⟨front, last, rfl⟩
  · rw [List.append_nil]
    exact hrun.resolve_right fun h ↦ h rfl
  · refine .inr ?_
    rw [List.getLast?_append_of_ne_nil _ (by simp)]
    exact hbefore.resolve_left (by simp)

/-- The lines after a line break are numbered from two. -/
theorem IsLine.later (run : List Char) (h : IsLine text number line)
    (hrun : run.getLast? = some '\n') (hcount : run.count '\n' = 1) :
    IsLine (run ++ text) (number + 1) line := by
  obtain ⟨before, more, rfl, rfl, hstart, hline, hends⟩ := h
  refine ⟨run ++ before, more, (List.append_assoc ..).symm, ?_,
    hstart.prepend run (.inl (.inr hrun)), hline, hends⟩
  rw [List.count_append, hcount, Nat.add_comm 1]

/-- A character that is no line feed goes before the first line and leaves the others alone. -/
theorem IsLine.cons_of_lt (h : IsLine text number line) (hc : c ≠ '\n') (hnumber : 1 < number) :
    IsLine (c :: text) number line := by
  obtain ⟨before, more, rfl, rfl, hstart, hline, hends⟩ := h
  have hbefore : before ≠ [] := by
    rintro rfl
    exact absurd hnumber (by simp)
  refine ⟨c :: before, more, rfl, ?_, hstart.prepend [c] (.inr hbefore), hline, hends⟩
  rw [List.count_cons_of_ne hc]

theorem IsLine.cons_first (h : IsLine text 1 line) (hc : c ≠ '\n')
    (hreturn : c = '\r' → text.head? ≠ some '\n') : IsLine (c :: text) 1 (c :: line) := by
  obtain ⟨before, more, rfl, hnumber, hstart, hline, hends⟩ := h
  have hcount : before.count '\n' = 0 := by omega
  obtain rfl : before = [] := hstart.resolve_right fun hlast ↦
    absurd (List.mem_of_getLast? hlast) (List.count_eq_zero.mp hcount)
  refine ⟨[], more, rfl, rfl, .inl rfl, ?_, ?_⟩
  · rw [List.mem_cons, not_or]
    exact ⟨Ne.symm hc, hline⟩
  · cases hends with
    | feed more hlast =>
      refine .feed more ?_
      cases line with
      | nil => exact fun hc' ↦ hreturn (Option.some_inj.mp hc') rfl
      | cons first line => rwa [List.getLast?_cons_cons]
    | returnFeed more => exact .returnFeed more
    | text => exact .text

theorem lines_eq_nil_iff : lines text = [] ↔ text = [] := by
  fun_cases lines text <;> simp

/-- The lines that a text is cut into are its lines, one by one. -/
theorem isLine_lines (hn : n ≤ text.count '\n') :
    IsLine text (n + 1) ((lines text)[n]?.getD []) := by
  fun_induction lines text generalizing n with
  | case1 =>
    obtain rfl : n = 0 := Nat.le_zero.mp hn
    exact ⟨[], [], rfl, rfl, .inl rfl, List.not_mem_nil, .text⟩
  | case2 rest ih =>
    cases n with
    | zero => exact ⟨[], '\r' :: '\n' :: rest, rfl, rfl, .inl rfl, List.not_mem_nil, .returnFeed _⟩
    | succ n =>
      refine (ih ?_).later ['\r', '\n'] rfl rfl
      simpa using hn
  | case3 rest ih =>
    cases n with
    | zero => exact ⟨[], '\n' :: rest, rfl, rfl, .inl rfl, List.not_mem_nil, .feed _ nofun⟩
    | succ n =>
      refine (ih ?_).later ['\n'] rfl rfl
      simpa using hn
  | case4 c rest hreturn hfeed hnil ih =>
    obtain rfl := lines_eq_nil_iff.mp hnil
    have hc : c ≠ '\n' := hfeed
    obtain rfl : n = 0 := by simpa [hc] using hn
    exact (ih (Nat.le_refl 0)).cons_first hc nofun
  | case5 c rest hreturn hfeed line more hlines ih =>
    have hc : c ≠ '\n' := hfeed
    rw [List.count_cons_of_ne hc] at hn
    rw [hlines] at ih
    cases n with
    | zero =>
      refine (ih hn).cons_first hc fun hc' hhead ↦ ?_
      obtain ⟨tail, rfl⟩ := List.head?_eq_some_iff.mp hhead
      exact hreturn tail hc' rfl
    | succ n => exact (ih hn).cons_of_lt hc (by omega)

/-- The text of a line is the line. -/
theorem isLine_lineText (hpos : 1 ≤ number) (hle : number ≤ text.count '\n' + 1) :
    IsLine text number (lineText (lines text) number).toList := by
  obtain ⟨n, rfl⟩ := Nat.exists_eq_add_of_le' hpos
  rw [lineText, String.toList_ofList]
  exact isLine_lines (by omega)

/-! ### Places in a line -/

theorem lineSoFar_spec (before : List Char) :
    ∃ front, before = front ++ lineSoFar before ∧ StartsLine front ∧
      front.count '\n' = before.count '\n' ∧ '\n' ∉ lineSoFar before := by
  have hsplit : before.rdropWhile (· ≠ '\n') ++ lineSoFar before = before :=
    List.rdropWhile_append_rtakeWhile ..
  have hfree : '\n' ∉ lineSoFar before := fun hmem ↦
    absurd (List.mem_rtakeWhile_imp hmem) (by simp)
  refine ⟨before.rdropWhile (· ≠ '\n'), hsplit.symm, ?_, ?_, hfree⟩
  · by_cases hnil : before.rdropWhile (· ≠ '\n') = []
    · exact .inl hnil
    · have hlast := List.rdropWhile_last_not _ _ hnil
      refine .inr ?_
      rw [List.getLast?_eq_some_getLast hnil]
      exact congrArg some (by simpa using hlast)
  · conv_rhs => rw [← hsplit]
    rw [List.count_append, List.count_eq_zero.mpr hfree, Nat.add_zero]

theorem StartsLine.append_right (h : StartsLine (before ++ line)) (hline : '\n' ∉ line) :
    line = [] := by
  rcases List.eq_nil_or_concat line with rfl | ⟨front, last, rfl⟩
  · rfl
  · have hlast : last = '\n' := by simpa using h.resolve_left (by simp)
    exact absurd (by simp [hlast]) hline

/-- A line starts at one place. -/
theorem StartsLine.eq_of_append_eq {start : List Char} (hstart : StartsLine start)
    (hbefore : StartsLine before) (hcount : start.count '\n' = before.count '\n')
    (htext : start ++ rest = before ++ more) : start = before := by
  rcases List.append_eq_append_iff.mp htext with ⟨run, rfl, -⟩ | ⟨run, rfl, -⟩
  · have hrun : '\n' ∉ run := List.count_eq_zero.mp (by rw [List.count_append] at hcount; omega)
    rw [hbefore.append_right hrun, List.append_nil]
  · have hrun : '\n' ∉ run := List.count_eq_zero.mp (by rw [List.count_append] at hcount; omega)
    rw [hstart.append_right hrun, List.append_nil]

/-- Where a line ends, there is a line break or nothing. -/
theorem LineEnds.mem_of_append_eq (run : List Char) (h : LineEnds line more)
    (hmore : run ++ c :: rest = more) (hfeed : c ≠ '\n') (hreturn : c ≠ '\r') : '\n' ∈ run := by
  cases h with
  | feed =>
    cases run with
    | nil => exact absurd (List.cons.inj hmore).1 hfeed
    | cons first run => exact (List.cons.inj hmore).1 ▸ List.mem_cons_self
  | returnFeed =>
    match run with
    | [] => exact absurd (List.cons.inj hmore).1 hreturn
    | [first] => exact absurd (List.cons.inj (List.cons.inj hmore).2).1 hfeed
    | first :: second :: run =>
      exact (List.cons.inj (List.cons.inj hmore).2).1 ▸ List.mem_cons_of_mem _ List.mem_cons_self
  | text => cases run <;> cases hmore

/-- A character that belongs to no line break stands in its line where its column says. -/
theorem IsLine.getElem?_column {shown : List Char}
    (h : IsLine text (before.count '\n' + 1) shown) (htext : text = before ++ c :: rest)
    (hfeed : c ≠ '\n') (hreturn : c ≠ '\r') : shown[(lineSoFar before).length]? = some c := by
  obtain ⟨start, more, hlines, hnumber, hstart, hline, hends⟩ := h
  obtain ⟨front, hbefore, hfront, hcount, hfree⟩ := lineSoFar_spec before
  rw [htext, hbefore, List.append_assoc] at hlines
  obtain rfl := hfront.eq_of_append_eq hstart (by omega) hlines
  have hshared := List.append_cancel_left hlines
  rcases List.append_eq_append_iff.mp hshared with ⟨run, hrun, hrest⟩ | ⟨run, hrun, hmore⟩
  · cases run with
    | nil => exact absurd (hends.mem_of_append_eq [] hrest hfeed hreturn) List.not_mem_nil
    | cons first run =>
      obtain rfl := (List.cons.inj hrest).1
      rw [hrun, List.getElem?_append_right (Nat.le_refl _), Nat.sub_self, List.getElem?_cons_zero]
  · exact absurd (hends.mem_of_append_eq run hmore.symm hfeed hreturn)
      fun hmem ↦ hfree (hrun ▸ List.mem_append_right _ hmem)

end Breadboard.Text
