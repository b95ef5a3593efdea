import Breadboard.Proofs.Description.Arrival
import Breadboard.Proofs.Text.Decimal

/-!
# Where a range begins and ends

A range counts from the number of its first name to the number of its last, and writes each number
without leading zeros. So it begins with its first name and ends with its last as they are written,
but for their leading zeros (`runsBetween_of_expandRange`): a name that is written with leading
zeros is itself not in the range (`padded_range_misses_ends`). The devices that a statement with a
range is about are those of the range, and the same holds of them (`range_runs_between`).
-/

set_option autoImplicit false
set_option relaxedAutoImplicit false

namespace Breadboard.Description

variable {first last name : String} {list : List String} {n : Nat}

/-! ### The ends of a range -/

/-- A name with its number written without leading zeros. -/
def unpadded (name : String) : String :=
  String.ofList (base name ++ Text.shortest (suffix name))

/-- Whether the number of a name is written with leading zeros. -/
def IsPadded (name : String) : Prop :=
  Text.Padded (suffix name)

instance (name : String) : Decidable (IsPadded name) :=
  inferInstanceAs (Decidable (Text.Padded _))

theorem unpadded_eq_self_iff : unpadded name = name ↔ ¬IsPadded name := by
  have hname : name.toList = base name ++ suffix name := (base_append_suffix name).symm
  rw [IsPadded, ← Text.shortest_eq_self_iff, ← String.toList_inj, unpadded, String.toList_ofList,
    hname, List.append_cancel_left_eq]

/-- A name whose number is read and written again is itself, but for its leading zeros. -/
theorem numbered_suffixNumber (h : suffixNumber name = .ok n) :
    numbered (base name) n = unpadded name := by
  obtain ⟨hne, rfl⟩ := suffix_of_suffixNumber h
  rw [← String.toList_inj, toList_numbered, unpadded, String.toList_ofList,
    Text.toDigits_ofDigitChars (fun _ ↦ isDigit_of_mem_suffix) hne]

/-- A name that is written with leading zeros is none that is numbered. -/
theorem not_isPadded_of_numbered (h : numbered (base name) n = name) : ¬IsPadded name := by
  have hdigits : Nat.toDigits 10 n = suffix name := by
    rw [← String.toList_inj, toList_numbered, ← base_append_suffix name] at h
    exact List.append_cancel_left h
  have hshort : Text.shortest (Nat.toDigits 10 n) = Nat.toDigits 10 n := by
    rw [← Text.toDigits_ofDigitChars (fun _ ↦ Nat.isDigit_of_mem_toDigits (by decide) (by decide))
      Nat.toDigits_ne_nil, Nat.ofDigitChars_ten_toDigits]
  rw [IsPadded, ← hdigits]
  exact Text.shortest_eq_self_iff.mp hshort

/-- The names of a range run from the first name to the last, as these are without leading zeros. A
name that has some is not among them. -/
structure RunsBetween (first last : String) (list : List String) : Prop where
  nonempty : list ≠ []
  head : list.head? = some (unpadded first)
  getLast : list.getLast? = some (unpadded last)
  first_eq : unpadded first = first ↔ ¬IsPadded first
  last_eq : unpadded last = last ↔ ¬IsPadded last
  first_mem : first ∈ list ↔ ¬IsPadded first
  last_mem : last ∈ list ↔ ¬IsPadded last

theorem runsBetween_of_expandRange (h : expandRange first last = .ok list) :
    RunsBetween first last list := by
  obtain ⟨low, high, hlow, hhigh, hbase, horder, hlist⟩ := exists_of_expandRange h
  have hnumbered : ∀ name ∈ list, ∃ n, numbered (base first) n = name := by
    intro name hname
    rw [hlist] at hname
    obtain ⟨n, -, hn⟩ := List.mem_map.mp hname
    exact ⟨n, hn⟩
  have hfirst : list.head? = some (unpadded first) := by
    rw [hlist, List.head?_map, List.head?_range', if_neg (Nat.succ_ne_zero _), Option.map_some,
      numbered_suffixNumber hlow]
  have hlast : list.getLast? = some (unpadded last) := by
    have hend : low + (high - low + 1) - 1 = high := by omega
    rw [hlist, List.getLast?_map, List.getLast?_range', if_neg (Nat.succ_ne_zero _),
      Option.map_some, hend, hbase, numbered_suffixNumber hhigh]
  refine ⟨fun hnil ↦ ?_, hfirst, hlast, unpadded_eq_self_iff, unpadded_eq_self_iff,
    ⟨fun hmem ↦ ?_, fun hplain ↦ ?_⟩, ⟨fun hmem ↦ ?_, fun hplain ↦ ?_⟩⟩
  · rw [hnil] at hfirst
    cases hfirst
  · obtain ⟨n, hn⟩ := hnumbered first hmem
    exact not_isPadded_of_numbered hn
  · exact unpadded_eq_self_iff.mpr hplain ▸ List.mem_of_head? hfirst
  · obtain ⟨n, hn⟩ := hnumbered last hmem
    exact not_isPadded_of_numbered (hbase ▸ hn)
  · exact unpadded_eq_self_iff.mpr hplain ▸ List.mem_of_getLast? hlast

/-! ### The devices of a statement -/

/-- Symbols that begin a sentence and go on with an arrow begin with a range. -/
theorem names_eq_range {sentence : Sentence} {used more rest : List Symbol}
    (h : SentenceSpelled sentence used)
    (hsymbols : used ++ rest = .name first :: .sign .arrow :: .name last :: more) :
    sentence.names = .range first last := by
  obtain @⟨written, said, u, hclause⟩ := h
  rw [List.append_assoc, List.append_assoc] at hsymbols
  cases written with
  | range first' last' =>
    obtain ⟨hfirst, hrest⟩ := List.cons.inj hsymbols
    obtain ⟨-, hrest⟩ := List.cons.inj hrest
    obtain ⟨hlast, -⟩ := List.cons.inj hrest
    rw [(Symbol.mk.inj hfirst).2, (Symbol.mk.inj hlast).2]
  | several first' others =>
    -- behind the first of several names there is a comma or a verb
    obtain ⟨-, hrest⟩ := List.cons.inj hsymbols
    cases others with
    | nil =>
      obtain ⟨verb, hverb⟩ := Attempt.front_of_clauseSpelled hclause ([.sign .semicolon] ++ rest)
      have hrest : u ++ ([.sign .semicolon] ++ rest) = .sign .arrow :: .name last :: more := hrest
      rw [hrest] at hverb
      cases hverb
    | cons => cases (List.cons.inj hrest).1

/-- A statement that begins with a range is about the devices that the range stands for. -/
theorem targeted_of_range {inInit : Bool} {r s : Reader} {statement : DeviceStatement}
    {more : List Symbol} (hr : r.Legible)
    (hsymbols : r.symbols = .name first :: .sign .arrow :: .name last :: more)
    (hrun : (deviceStatement inInit).run r = (some statement, s)) :
    ∃ list, expandRange first last = .ok list ∧
      Attempt.Targeted s.names statement.targets list := by
  obtain ⟨t, ht, hnames, hrest⟩ := (Attempt.composes_deaf.deviceStatement Attempt.deaf_resolveAll
    inInit).exists_run_cleared hrun
  obtain ⟨sentence, list, used, hstates⟩ := Attempt.deviceStatement_sound hr ht
  have hused : used ++ t.symbols = .name first :: .sign .arrow :: .name last :: more := by
    rw [← hstates.passes.symbols, r.symbols_cleared, hsymbols]
  have hrange : sentence.names = .range first last := names_eq_range hstates.spelled hused
  have hstands := hstates.stands
  rw [hrange, NameList.names?] at hstands
  cases hexpand : expandRange first last with
  | error => rw [hexpand] at hstands; cases hstands
  | ok expanded =>
    rw [hexpand] at hstands
    obtain rfl : expanded = list := Option.some_inj.mp hstands
    exact ⟨expanded, rfl, hnames ▸ hstates.targets⟩

/-- The names that devices go by, one after another. -/
theorem map_string?_of_targeted {names : Names} {targets : List Target}
    (h : Attempt.Targeted names targets list) :
    targets.map (fun target ↦ names.string? target.id) = list.map some :=
  List.forall₂_eq_eq_eq ▸ List.forall₂_map_left_iff.mpr (List.forall₂_map_right_iff.mpr h)

theorem exists_target_iff {names : Names} {targets : List Target}
    (h : Attempt.Targeted names targets list) :
    (∃ target ∈ targets, names.string? target.id = some name) ↔ name ∈ list := by
  rw [← List.mem_map, map_string?_of_targeted h]
  exact List.mem_map_of_injective (Option.some_injective _)

/-- A range runs from its first name to its last: it has a first name and a last one, and these are
the names that it is written with, without their leading zeros. Exactly a name that is written
without any is itself in the range, and then it is the first or the last of it. The devices that a
statement with a range is about are those of the range, in order: this is so wherever reading a text
comes to such a statement, in a `devices` or an `init` section. -/
theorem range_runs_between :
    (∀ first last list, expandRange first last = .ok list → RunsBetween first last list) ∧
    ∀ (names : Names) (network : Network) (monitors : Monitors) (text : String)
      (heading : Heading) (c : Builder) (inInit : Bool) (first last : String) (more : List Symbol)
      (statement : DeviceStatement) (s : Reader), Regular names →
      (Builder.start names network monitors text).Arrives heading c →
      c.reader.symbols = .name first :: .sign .arrow :: .name last :: more →
      (deviceStatement inInit).run c.reader = (some statement, s) →
      ∃ list, expandRange first last = .ok list ∧ RunsBetween first last list ∧
        statement.targets.map (fun target ↦ s.names.string? target.id) = list.map some ∧
        ((∃ target ∈ statement.targets, s.names.string? target.id = some first) ↔
          ¬IsPadded first) ∧
        ((∃ target ∈ statement.targets, s.names.string? target.id = some last) ↔
          ¬IsPadded last) := by
  refine ⟨fun _ _ _ ↦ runsBetween_of_expandRange, ?_⟩
  intro names network monitors text heading c inInit first last more statement s hnames harrives
    hsymbols hrun
  have hlegible := Builder.legible_of_arrives harrives (Reader.legible_start hnames text)
  obtain ⟨list, hlist, htargeted⟩ := targeted_of_range hlegible hsymbols hrun
  have hruns := runsBetween_of_expandRange hlist
  exact ⟨list, hlist, hruns, map_string?_of_targeted htargeted,
    (exists_target_iff htargeted).trans hruns.first_mem,
    (exists_target_iff htargeted).trans hruns.last_mem⟩

/-- A range of switches that is written with a leading zero. -/
def paddedSwitches : String :=
  "devices \x7b A01 => A3 are SWITCH; \x7d"

/-- The builder on the range. -/
def onPaddedSwitches : Builder :=
  opened (.start portTable.2 { ports := portTable.1 } {} paddedSwitches) .devices

theorem padded_switches_run_between :
    expandRange "A01" "A3" = .ok ["A1", "A2", "A3"] ∧
    RunsBetween "A01" "A3" ["A1", "A2", "A3"] ∧
    ∃ statement s, (deviceStatement false).run onPaddedSwitches.reader = (some statement, s) ∧
      ((∃ target ∈ statement.targets, s.names.string? target.id = some "A01") ↔
        ¬IsPadded "A01") ∧
      ((∃ target ∈ statement.targets, s.names.string? target.id = some "A3") ↔
        ¬IsPadded "A3") := by
  have hlist : expandRange "A01" "A3" = .ok ["A1", "A2", "A3"] := by decide +kernel
  have harrives : (Builder.start portTable.2 { ports := portTable.1 } {} paddedSwitches).Arrives
      .devices onPaddedSwitches :=
    .opening (by decide +kernel) (by decide +kernel) (by decide +kernel) (by decide +kernel)
  have hsymbols : onPaddedSwitches.reader.symbols = [.name "A01", .sign .arrow, .name "A3",
      .keyword .are, .name "SWITCH", .sign .semicolon, .sign .closeBrace] := by decide +kernel
  have hread : ((deviceStatement false).run onPaddedSwitches.reader).1.isSome := by decide +kernel
  rcases hrun : (deviceStatement false).run onPaddedSwitches.reader with ⟨_ | statement, s⟩
  · rw [hrun] at hread
    cases hread
  · obtain ⟨list, -, -, -, hfirst, hlast⟩ := range_runs_between.2 _ _ _ _ _ _ _ _ _ _ _ _
      regular_portTable harrives hsymbols hrun
    exact ⟨hlist, range_runs_between.1 _ _ _ hlist, statement, s, rfl, hfirst, hlast⟩

/-- A range that is written with leading zeros has neither of its names among those that it stands
for. -/
theorem padded_range_misses_ends :
    ¬∀ (first last : String) (list : List String), expandRange first last = .ok list →
      list ≠ [] ∧ list.head? = some first ∧ list.getLast? = some last := by
  intro h
  have hlist : expandRange "A01" "A03" = .ok ["A1", "A2", "A3"] := by decide +kernel
  obtain ⟨-, hfirst, -⟩ := h "A01" "A03" ["A1", "A2", "A3"] hlist
  exact absurd hfirst (by decide)

end Breadboard.Description
