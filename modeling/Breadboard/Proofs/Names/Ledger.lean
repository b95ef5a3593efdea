import Breadboard.Proofs.Names.Growth
import Std.Data.HashMap.Lemmas

/-!
# Name tables in storage

A name table is a list of entries, and the number of a name is found by going through them. In
storage the entries stand in an array, and a map beside it gives the number of each name. Nothing
in a stored table says that the two go together. They do after anything that is asked of a table:
the map finds what the entries hold (`Ledger.Sound`), and a stored table answers as the table of
its entries does (`Ledger.Sound.ask`).
-/

set_option autoImplicit false
set_option relaxedAutoImplicit false

namespace Breadboard

/-! ### Texts that are names -/

/-- A text that is a name: letters and digits, and not digits alone. -/
structure IsName (text : String) : Prop where
  nonempty : text ≠ ""
  alphanumeric : ∀ c ∈ text.toList, c.isAlphanum
  letter : ∃ c ∈ text.toList, ¬ c.isDigit

theorem nameFault?_eq_none_iff {text : String} : nameFault? text = none ↔ IsName text := by
  have hempty : text.toList.isEmpty ↔ text = "" := by
    rw [List.isEmpty_iff, ← String.toList_empty, String.toList_inj]
  unfold nameFault?
  constructor
  · intro h
    split at h
    · cases h
    next hnonempty =>
    split at h
    · cases h
    next halphanumeric =>
    split at h
    · cases h
    next hnumeric =>
    refine ⟨mt hempty.mpr hnonempty, by simpa using halphanumeric, ?_⟩
    simpa using hnumeric
  · intro h
    have hletter : ¬ text.toList.all Char.isDigit := by simpa using h.letter
    have halphanumeric : text.toList.all Char.isAlphanum := List.all_eq_true.mpr h.alphanumeric
    rw [if_neg (mt hempty.mp h.nonempty), if_neg (by simp [halphanumeric]), if_neg hletter]

instance (text : String) : Decidable (IsName text) :=
  decidable_of_iff _ nameFault?_eq_none_iff

/-! ### What can be asked -/

/-- What can be asked of a name table. -/
inductive Inquiry
  | lookup (text : String)
  | lookupAll (texts : List String)
  | query (name : String)
  | string (id : NameId)
  | mint (count : Nat)

/-- What a name table answers. -/
inductive Reply
  | number (result : Except InvalidName NameId)
  | numbers (result : Except InvalidName (List NameId))
  | known (id? : Option NameId)
  | string (name? : Option String)
  | codes (ids : List NameId)

namespace Names

/-- The answer of a name table, and the table after it. -/
def ask (names : Names) : Inquiry → Reply × Names
  | .lookup text =>
    match names.lookup text with
    | .ok (id, names) => (.number (.ok id), names)
    | .error refusal => (.number (.error refusal), names)
  | .lookupAll texts => (.numbers (names.lookupAll texts).1, (names.lookupAll texts).2)
  | .query name => (.known (names.query name), names)
  | .string id => (.string (names.string? id), names)
  | .mint count => (.codes (names.mint count).1, (names.mint count).2)

/-- A name table after it has been asked this and that. -/
def after (names : Names) (inquiries : List Inquiry) : Names :=
  inquiries.foldl (fun names inquiry ↦ (names.ask inquiry).2) names

end Names

/-! ### Stored tables -/

/-- A name table as it is stored. -/
structure Ledger where
  slots : Array (Option String) := #[]
  index : Std.HashMap String NameId := ∅

namespace Ledger

/-- The table of the entries that are stored. -/
def names (l : Ledger) : Names :=
  ⟨l.slots.toList⟩

/-- The number of a name, from the map. -/
def query (l : Ledger) (name : String) : Option NameId :=
  l.index[name]?

/-- The name with a given number, from the array. -/
def string? (l : Ledger) (id : NameId) : Option String :=
  l.slots[id]?.join

/-- The number of a name, which is put into the array and into the map if it is new. -/
def intern (l : Ledger) (name : String) : NameId × Ledger :=
  match l.query name with
  | some id => (id, l)
  | none => (l.slots.size, ⟨l.slots.push (some name), l.index.insert name l.slots.size⟩)

/-- The number of a text that is a name. -/
def lookup (l : Ledger) (text : String) : Except InvalidName NameId × Ledger :=
  match nameFault? text with
  | some fault => (.error ⟨text, fault⟩, l)
  | none => (.ok (l.intern text).1, (l.intern text).2)

/-- The numbers of several texts, up to the first that is no name. -/
def lookupAll (l : Ledger) : List String → Except InvalidName (List NameId) × Ledger
  | [] => (.ok [], l)
  | text :: rest =>
    match l.lookup text with
    | (.error refusal, l) => (.error refusal, l)
    | (.ok id, l) =>
      let (ids, l) := l.lookupAll rest
      (ids.map (id :: ·), l)

/-- Numbers that are in the array with no name, and not in the map. -/
def mint (l : Ledger) (count : Nat) : List NameId × Ledger :=
  (List.range' l.slots.size count, { l with slots := l.slots ++ Array.replicate count none })

/-- The answer of a stored table, and the table after it. -/
def ask (l : Ledger) : Inquiry → Reply × Ledger
  | .lookup text => (.number (l.lookup text).1, (l.lookup text).2)
  | .lookupAll texts => (.numbers (l.lookupAll texts).1, (l.lookupAll texts).2)
  | .query name => (.known (l.query name), l)
  | .string id => (.string (l.string? id), l)
  | .mint count => (.codes (l.mint count).1, (l.mint count).2)

/-- A stored table after it has been asked this and that. -/
def after (l : Ledger) (inquiries : List Inquiry) : Ledger :=
  inquiries.foldl (fun l inquiry ↦ (l.ask inquiry).2) l

/-! ### The map and the array -/

variable {l : Ledger} {name : String} {id : NameId}

/-- The map finds each name where the array has it. -/
def Sound (l : Ledger) : Prop :=
  ∀ name, l.query name = l.names.query name

theorem string?_names (l : Ledger) (id : NameId) : l.names.string? id = l.string? id := by
  rw [Names.string?, string?, names, Array.getElem?_toList]

theorem sound_empty : ({} : Ledger).Sound := fun name ↦ by
  rw [query, Std.HashMap.getElem?_empty]
  rfl

end Ledger

/-- A name that is added at the end is found there, unless it was found before. -/
theorem Names.query_append_name (entries : List (Option String)) (name other : String) :
    Names.query ⟨entries ++ [some name]⟩ other =
      (Names.query ⟨entries⟩ other).or (if name = other then some entries.length else none) := by
  unfold query
  rw [List.findIdx?_append, List.findIdx?_singleton]
  simp only [beq_iff_eq, Option.some_inj]
  split
  · rw [Option.map_some, Nat.zero_add]
  · rfl

theorem Names.query_append_codes (entries : List (Option String)) (count : Nat) (name : String) :
    Names.query ⟨entries ++ List.replicate count none⟩ name = Names.query ⟨entries⟩ name := by
  have hnone : (List.replicate count (none : Option String)).findIdx? (· == some name) = none := by
    rw [List.findIdx?_eq_none_iff]
    intro entry hentry
    rw [List.eq_of_mem_replicate hentry]
    rfl
  unfold query
  rw [List.findIdx?_append, hnone, Option.map_none, Option.or_none]

namespace Ledger

variable {l : Ledger}

/-- A stored table answers as a name table does, and the two stay together. -/
structure SameAnswer {α : Type} (stored : α × Ledger) (listed : α × Names) : Prop where
  answer : stored.1 = listed.1
  sound : stored.2.Sound
  names : stored.2.names = listed.2

theorem SameAnswer.map {α β : Type} {stored : α × Ledger} {listed : α × Names}
    (h : SameAnswer stored listed) (f : α → β) :
    SameAnswer (f stored.1, stored.2) (f listed.1, listed.2) :=
  ⟨congrArg f h.answer, h.sound, h.names⟩

theorem Sound.intern (h : l.Sound) (name : String) :
    SameAnswer (l.intern name) (l.names.intern name) := by
  rw [Ledger.intern, Names.intern, ← h name]
  cases hquery : l.query name with
  | some id => exact ⟨rfl, h, rfl⟩
  | none =>
    have hnames : Ledger.names ⟨l.slots.push (some name), l.index.insert name l.slots.size⟩ =
        ⟨l.names.entries ++ [some name]⟩ := congrArg Names.mk Array.toList_push
    refine ⟨Array.length_toList.symm, fun other ↦ ?_, hnames⟩
    have hother : (Names.mk l.names.entries).query other = l.query other := (h other).symm
    rw [hnames, Names.query_append_name, hother, query, Std.HashMap.getElem?_insert]
    simp only [beq_iff_eq]
    split
    · next hsame =>
      rw [← hsame, hquery, Option.none_or]
      exact congrArg some Array.length_toList.symm
    · rw [Option.or_none]
      rfl

/-- A refused text leaves both tables as they are. -/
theorem Sound.lookup (h : l.Sound) (text : String) :
    SameAnswer (l.lookup text)
      (match l.names.lookup text with
      | .ok (id, names) => (.ok id, names)
      | .error refusal => (.error refusal, l.names)) := by
  rw [Ledger.lookup, Names.lookup]
  cases nameFault? text with
  | some fault => exact ⟨rfl, h, rfl⟩
  | none => exact (h.intern text).map Except.ok

theorem Sound.lookupAll (h : l.Sound) (texts : List String) :
    SameAnswer (l.lookupAll texts) (l.names.lookupAll texts) := by
  induction texts generalizing l with
  | nil => exact ⟨rfl, h, rfl⟩
  | cons text rest ih =>
    obtain ⟨hanswer, hsound, hnames⟩ := h.lookup text
    rw [Ledger.lookupAll, Names.lookupAll]
    cases hstored : l.lookup text with
    | mk result next =>
      rw [hstored] at hanswer hsound hnames
      cases hlisted : l.names.lookup text with
      | error refusal =>
        rw [hlisted] at hanswer hnames
        obtain rfl : result = .error refusal := hanswer
        exact ⟨rfl, hsound, hnames⟩
      | ok found =>
        rw [hlisted] at hanswer hnames
        obtain rfl : result = .ok found.1 := hanswer
        have hrest := (ih hsound).map (Except.map (found.1 :: ·))
        rw [show next.names = found.2 from hnames] at hrest
        exact hrest

theorem Sound.mint (h : l.Sound) (count : Nat) :
    SameAnswer (l.mint count) (l.names.mint count) := by
  have hnames : (l.mint count).2.names = (l.names.mint count).2 := by
    rw [Ledger.mint, Names.mint, names, Array.toList_append, Array.toList_replicate]
    rfl
  refine ⟨?_, fun name ↦ ?_, hnames⟩
  · rw [Ledger.mint, Names.mint, Names.size, names, Array.length_toList]
  · rw [hnames, Names.mint, Names.query_append_codes]
    exact h name

/-- Whatever is asked, a stored table answers as the table of its entries. -/
theorem Sound.ask (h : l.Sound) (inquiry : Inquiry) :
    SameAnswer (l.ask inquiry) (l.names.ask inquiry) := by
  cases inquiry with
  | lookup text =>
    have hlookup := (h.lookup text).map Reply.number
    rw [Names.ask]
    cases hlisted : l.names.lookup text <;> rw [hlisted] at hlookup <;> exact hlookup
  | lookupAll texts => exact (h.lookupAll texts).map Reply.numbers
  | query name => exact ⟨congrArg Reply.known (h name), h, rfl⟩
  | string id => exact ⟨congrArg Reply.string (l.string?_names id).symm, h, rfl⟩
  | mint count => exact (h.mint count).map Reply.codes

theorem Sound.after (h : l.Sound) (inquiries : List Inquiry) :
    (l.after inquiries).Sound ∧ (l.after inquiries).names = l.names.after inquiries := by
  induction inquiries generalizing l with
  | nil => exact ⟨h, rfl⟩
  | cons inquiry rest ih =>
    obtain ⟨-, hsound, hnames⟩ := h.ask inquiry
    rw [Ledger.after, Names.after, List.foldl_cons, List.foldl_cons, ← hnames]
    exact ih hsound

end Ledger

end Breadboard
