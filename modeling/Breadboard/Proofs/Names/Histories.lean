import Breadboard.Proofs.Names.Ledger
import Mathlib.Data.List.TakeWhile

/-!
# The history of a name table

Whatever has been asked of a name table, its entries are the names that were looked up and the
codes that were minted, each name where it was first looked up (`Names.entries_after`). So numbers
run from zero without a gap, in this order, and none is ever given to anything else. What is asked
next is answered from these entries alone (`Names.Answers`), and the codes that were handed out are
the numbers that have no name (`Names.codes_replies`). The whole is `Names.history_kept`, which
holds of the table in storage as well.
-/

set_option autoImplicit false
set_option relaxedAutoImplicit false

namespace Breadboard

/-! ### Names in the order of their first mention -/

/-- The entries that an inquiry wishes for: a name that is looked up, the names in front of the
first text that is none, and a code without a name for each that is minted. -/
def Inquiry.wishes : Inquiry → List (Option String)
  | .lookup text => if IsName text then [some text] else []
  | .lookupAll texts => (texts.takeWhile (IsName ·)).map some
  | .mint count => List.replicate count none
  | .query _ | .string _ => []

/-- The entries among some wishes that are not there yet: every code, and each name where it comes
first. -/
def firsts (seen : List (Option String)) : List (Option String) → List (Option String)
  | [] => []
  | wish :: rest =>
    if wish ≠ none ∧ wish ∈ seen then firsts seen rest
    else wish :: firsts (seen ++ [wish]) rest

theorem firsts_append (seen wishes more : List (Option String)) :
    firsts seen (wishes ++ more) =
      firsts seen wishes ++ firsts (seen ++ firsts seen wishes) more := by
  induction wishes generalizing seen with
  | nil => rw [List.nil_append, firsts, List.append_nil, List.nil_append]
  | cons wish wishes ih =>
    rw [List.cons_append, firsts, firsts]
    split
    · exact ih seen
    · rw [ih, List.cons_append, List.append_assoc, List.singleton_append]

theorem firsts_codes (seen : List (Option String)) (count : Nat) :
    firsts seen (List.replicate count none) = List.replicate count none := by
  induction count generalizing seen with
  | zero => rfl
  | succ count ih =>
    rw [List.replicate_succ, firsts, if_neg fun h ↦ h.1 rfl, ih]

namespace Names

variable {names : Names} {name text : String} {id : NameId}

theorem entries_intern_eq (names : Names) (name : String) :
    (names.intern name).2.entries = names.entries ++ firsts names.entries [some name] := by
  have hiff : names.query name = none ↔ some name ∉ names.entries := by
    rw [← has_iff_mem, has_iff_query, Option.eq_none_iff_forall_ne_some]
    exact not_exists.symm
  rw [intern, firsts, firsts, firsts]
  cases hquery : names.query name with
  | some id =>
    have hmem : some name ∈ names.entries := by
      by_contra h
      rw [hiff.mpr h] at hquery
      cases hquery
    rw [if_pos ⟨Option.some_ne_none name, hmem⟩, List.append_nil]
  | none => rw [if_neg fun h ↦ hiff.mp hquery h.2]

theorem lookup_of_isName (h : IsName text) : names.lookup text = .ok (names.intern text) := by
  rw [lookup, nameFault?_eq_none_iff.mpr h]

theorem exists_fault (h : ¬ IsName text) : ∃ fault, nameFault? text = some fault :=
  Option.ne_none_iff_exists'.mp (mt nameFault?_eq_none_iff.mp h)

theorem lookup_of_fault {fault : NameFault} (h : nameFault? text = some fault) :
    names.lookup text = .error ⟨text, fault⟩ := by
  rw [lookup, h]

theorem entries_lookupAll (names : Names) (texts : List String) :
    (names.lookupAll texts).2.entries = names.entries ++
      firsts names.entries ((texts.takeWhile (IsName ·)).map some) := by
  induction texts generalizing names with
  | nil => exact (List.append_nil _).symm
  | cons text rest ih =>
    rw [lookupAll, List.takeWhile_cons]
    by_cases htext : IsName text
    · rw [lookup_of_isName htext, if_pos (decide_eq_true htext), List.map_cons,
        ← List.singleton_append, firsts_append, ← List.append_assoc, ← entries_intern_eq]
      exact ih _
    · obtain ⟨fault, hfault⟩ := exists_fault htext
      rw [lookup_of_fault hfault, if_neg (by simpa using htext)]
      exact (List.append_nil _).symm

/-- An inquiry adds what is new among its wishes. -/
theorem entries_ask (names : Names) (inquiry : Inquiry) :
    (names.ask inquiry).2.entries = names.entries ++ firsts names.entries inquiry.wishes := by
  cases inquiry with
  | lookup text =>
    rw [ask, Inquiry.wishes]
    by_cases htext : IsName text
    · rw [lookup_of_isName htext, if_pos htext]
      exact entries_intern_eq names text
    · obtain ⟨fault, hfault⟩ := exists_fault htext
      rw [lookup_of_fault hfault, if_neg htext]
      exact (List.append_nil _).symm
  | lookupAll texts => exact entries_lookupAll names texts
  | query name => exact (List.append_nil _).symm
  | string id => exact (List.append_nil _).symm
  | mint count =>
    rw [Inquiry.wishes, firsts_codes]
    rfl

/-- The entries after some inquiries are what they wished for, each name where it came first. -/
theorem entries_after (names : Names) (inquiries : List Inquiry) :
    (names.after inquiries).entries =
      names.entries ++ firsts names.entries (inquiries.flatMap Inquiry.wishes) := by
  induction inquiries generalizing names with
  | nil => exact (List.append_nil _).symm
  | cons inquiry rest ih =>
    rw [after, List.foldl_cons, List.flatMap_cons, firsts_append, ← List.append_assoc,
      ← entries_ask]
    exact ih _

theorem extends_after (names : Names) (inquiries : List Inquiry) :
    names.Extends (names.after inquiries) :=
  ⟨_, (entries_after names inquiries).symm⟩

/-! ### What entries are like -/

/-- A table in which no name stands twice, and whatever stands in it is a name. -/
structure Orderly (names : Names) : Prop where
  faithful : names.Faithful
  named : ∀ name, names.Has name → IsName name

theorem orderly_empty : ({} : Names).Orderly :=
  ⟨faithful_of_nodup List.nodup_nil, fun _ h ↦ absurd (has_iff_mem.mp h) List.not_mem_nil⟩

theorem string?_append_of_ne {entries : List (Option String)} {wish : Option String}
    (h : (Names.mk (entries ++ [wish])).string? id = some name) :
    (Names.mk entries).string? id = some name ∨ id = entries.length ∧ wish = some name := by
  rw [string?_eq_some_iff, List.getElem?_append] at h
  split at h
  · exact .inl (string?_eq_some_iff.mpr h)
  · next hge =>
    obtain ⟨hlt, hsame⟩ := List.getElem?_eq_some_iff.mp h
    have hle := Nat.sub_eq_zero_iff_le.mp (Nat.lt_one_iff.mp hlt)
    rw [List.getElem_singleton] at hsame
    exact .inr ⟨Nat.le_antisymm hle (Nat.not_lt.mp hge), hsame⟩

theorem Orderly.append {entries : List (Option String)} {wish : Option String}
    (h : Orderly ⟨entries⟩) (hname : ∀ name, wish = some name → IsName name)
    (hnew : ¬ (wish ≠ none ∧ wish ∈ entries)) : Orderly ⟨entries ++ [wish]⟩ := by
  have hfresh (other : NameId) (name : String) (hwish : wish = some name) :
      (Names.mk entries).string? other ≠ some name := fun hother ↦
    hnew ⟨hwish ▸ nofun, hwish ▸ List.mem_of_getElem? (string?_eq_some_iff.mp hother)⟩
  refine ⟨fun first second name hfirst hsecond ↦ ?_, fun name hhas ↦ ?_⟩
  · rcases string?_append_of_ne hfirst with hold | ⟨hlast, hwish⟩
    · rcases string?_append_of_ne hsecond with hold' | ⟨-, hwish⟩
      · exact h.faithful first second name hold hold'
      · exact absurd hold (hfresh first name hwish)
    · rcases string?_append_of_ne hsecond with hold' | ⟨hlast', -⟩
      · exact absurd hold' (hfresh second name hwish)
      · exact hlast.trans hlast'.symm
  · obtain ⟨id, hid⟩ := hhas
    rcases string?_append_of_ne hid with hold | ⟨-, hwish⟩
    · exact h.named name ⟨id, hold⟩
    · exact hname name hwish

theorem Orderly.enter {entries wishes : List (Option String)} (h : Orderly ⟨entries⟩)
    (hnames : ∀ name, some name ∈ wishes → IsName name) :
    Orderly ⟨entries ++ firsts entries wishes⟩ := by
  induction wishes generalizing entries with
  | nil => rwa [firsts, List.append_nil]
  | cons wish wishes ih =>
    have hrest : ∀ name, some name ∈ wishes → IsName name :=
      fun name hname ↦ hnames name (List.mem_cons_of_mem wish hname)
    rw [firsts]
    split
    · exact ih h hrest
    · next hnew =>
      rw [← List.singleton_append, ← List.append_assoc]
      exact ih (h.append (fun name hwish ↦ hnames name (hwish ▸ List.mem_cons_self)) hnew) hrest

theorem isName_of_mem_wishes {inquiry : Inquiry} (h : some name ∈ inquiry.wishes) :
    IsName name := by
  cases inquiry with
  | lookup text =>
    rw [Inquiry.wishes] at h
    split at h
    · next htext => exact Option.some_inj.mp (List.mem_singleton.mp h) ▸ htext
    · cases h
  | lookupAll texts =>
    obtain ⟨text, htext, hsame⟩ := List.mem_map.mp h
    obtain rfl := Option.some_inj.mp hsame
    have hholds : decide (IsName text) := List.mem_takeWhile_imp (p := (IsName ·)) htext
    exact of_decide_eq_true hholds
  | query name => cases h
  | string id => cases h
  | mint count => cases List.eq_of_mem_replicate h

theorem Orderly.after (h : names.Orderly) (inquiries : List Inquiry) :
    (names.after inquiries).Orderly := by
  have hentries := entries_after names inquiries
  rw [show names.after inquiries = ⟨(names.after inquiries).entries⟩ from rfl, hentries]
  refine h.enter fun name hname ↦ ?_
  obtain ⟨inquiry, -, hwish⟩ := List.mem_flatMap.mp hname
  exact isName_of_mem_wishes hwish

/-! ### Answers -/

/-- What a name table answers, and the table after it. -/
inductive Answers (names : Names) : Inquiry → Reply → Names → Prop
  /-- A name that has a number keeps it. -/
  | known {text : String} {id : NameId} (hname : IsName text) (h : names.string? id = some text) :
    Answers names (.lookup text) (.number (.ok id)) names
  /-- A new name gets the next number. -/
  | new {text : String} (hname : IsName text) (h : ∀ id, names.string? id ≠ some text) :
    Answers names (.lookup text) (.number (.ok names.size)) ⟨names.entries ++ [some text]⟩
  /-- A text that is no name is refused. -/
  | refused {text : String} {fault : NameFault} (h : nameFault? text = some fault) :
    Answers names (.lookup text) (.number (.error ⟨text, fault⟩)) names
  /-- Several names are looked up one after the other. -/
  | all {texts : List String} {ids : List NameId} {next : Names}
    (hnames : ∀ text ∈ texts, IsName text) (hnext : next = names.after (texts.map .lookup))
    (h : List.Forall₂ (fun text id ↦ next.string? id = some text) texts ids) :
    Answers names (.lookupAll texts) (.numbers (.ok ids)) next
  /-- The names in front of the first text that is none are looked up, and nothing behind it. -/
  | cut {good rest : List String} {text : String} {fault : NameFault}
    (hgood : ∀ text ∈ good, IsName text) (h : nameFault? text = some fault) :
    Answers names (.lookupAll (good ++ text :: rest)) (.numbers (.error ⟨text, fault⟩))
      (names.after (good.map .lookup))
  | query {name : String} {id? : Option NameId}
    (h : ∀ id, id? = some id ↔ names.string? id = some name) :
    Answers names (.query name) (.known id?) names
  | string {id : NameId} : Answers names (.string id) (.string (names.string? id)) names
  /-- Codes get the next numbers, and no names. -/
  | mint {count : Nat} :
    Answers names (.mint count) (.codes (List.range' names.size count))
      ⟨names.entries ++ List.replicate count none⟩

theorem ask_lookup_of_isName (h : IsName text) :
    names.ask (.lookup text) = (.number (.ok (names.intern text).1), (names.intern text).2) := by
  rw [ask, lookup_of_isName h]

theorem ask_lookup_of_fault {fault : NameFault} (h : nameFault? text = some fault) :
    names.ask (.lookup text) = (.number (.error ⟨text, fault⟩), names) := by
  rw [ask, lookup_of_fault h]

theorem lookupAll_cons_of_isName (names : Names) (h : IsName text) (texts : List String) :
    names.lookupAll (text :: texts) =
      (((names.intern text).2.lookupAll texts).1.map ((names.intern text).1 :: ·),
        ((names.intern text).2.lookupAll texts).2) := by
  rw [lookupAll, lookup_of_isName h]

theorem after_cons_lookup (names : Names) (h : IsName text) (inquiries : List Inquiry) :
    names.after (.lookup text :: inquiries) = (names.intern text).2.after inquiries := by
  rw [after, List.foldl_cons, ask_lookup_of_isName h, after]

theorem exists_lookupAll {texts : List String} (h : ∀ text ∈ texts, IsName text) :
    ∃ ids, names.lookupAll texts = (.ok ids, names.after (texts.map .lookup)) ∧
      List.Forall₂ (fun text id ↦ (names.after (texts.map .lookup)).string? id = some text)
        texts ids := by
  induction texts generalizing names with
  | nil => exact ⟨[], rfl, .nil⟩
  | cons text texts ih =>
    have htext := h text List.mem_cons_self
    obtain ⟨ids, hids, hstrings⟩ :=
      @ih (names.intern text).2 fun other hother ↦ h other (List.mem_cons_of_mem text hother)
    rw [List.map_cons, after_cons_lookup names htext]
    refine ⟨(names.intern text).1 :: ids, ?_, .cons ?_ hstrings⟩
    · rw [lookupAll_cons_of_isName names htext, hids]
      rfl
    · exact (extends_after ..).string? (string?_intern names text)

theorem lookupAll_append_of_fault {good : List String} {fault : NameFault}
    (hgood : ∀ text ∈ good, IsName text) (h : nameFault? text = some fault) (rest : List String) :
    names.lookupAll (good ++ text :: rest) =
      (.error ⟨text, fault⟩, names.after (good.map .lookup)) := by
  induction good generalizing names with
  | nil =>
    rw [List.nil_append, lookupAll, lookup_of_fault h]
    rfl
  | cons first good ih =>
    have hfirst := hgood first List.mem_cons_self
    rw [List.cons_append, lookupAll_cons_of_isName names hfirst,
      ih fun other hother ↦ hgood other (List.mem_cons_of_mem first hother),
      List.map_cons, after_cons_lookup names hfirst]
    rfl

/-- Texts are all names, or there is a first that is none. -/
theorem isName_or_fault (texts : List String) : (∀ text ∈ texts, IsName text) ∨
    ∃ good text rest fault, texts = good ++ text :: rest ∧ (∀ text ∈ good, IsName text) ∧
      nameFault? text = some fault := by
  induction texts with
  | nil => exact .inl nofun
  | cons first texts ih =>
    by_cases hfirst : IsName first
    · rcases ih with hall | ⟨good, text, rest, fault, rfl, hgood, hfault⟩
      · exact .inl (List.forall_mem_cons.mpr ⟨hfirst, hall⟩)
      · exact .inr ⟨first :: good, text, rest, fault, rfl,
          List.forall_mem_cons.mpr ⟨hfirst, hgood⟩, hfault⟩
    · obtain ⟨fault, hfault⟩ := exists_fault hfirst
      exact .inr ⟨[], first, texts, fault, rfl, nofun, hfault⟩

/-- A table in which no name stands twice answers as it should. -/
theorem Faithful.answers (h : names.Faithful) (inquiry : Inquiry) :
    names.Answers inquiry (names.ask inquiry).1 (names.ask inquiry).2 := by
  cases inquiry with
  | lookup text =>
    by_cases htext : IsName text
    · rw [ask_lookup_of_isName htext, Names.intern]
      cases hquery : names.query text with
      | some id => exact .known htext (string?_of_query hquery)
      | none =>
        refine .new htext fun id hid ↦ ?_
        have hknown : names.query text = some id := h.query_eq_some_iff.mpr hid
        rw [hquery] at hknown
        cases hknown
    · obtain ⟨fault, hfault⟩ := exists_fault htext
      rw [ask_lookup_of_fault hfault]
      exact .refused hfault
  | lookupAll texts =>
    rw [ask]
    rcases isName_or_fault texts with hall | ⟨good, text, rest, fault, rfl, hgood, hfault⟩
    · obtain ⟨ids, hids, hstrings⟩ := exists_lookupAll hall
      rw [hids]
      exact .all hall rfl hstrings
    · rw [lookupAll_append_of_fault hgood hfault]
      exact .cut hgood hfault
  | query name => exact .query fun _ ↦ h.query_eq_some_iff
  | string id => exact .string
  | mint count => exact .mint

/-! ### Codes -/

/-- The answers to some inquiries, one after the other. -/
def replies (names : Names) : List Inquiry → List Reply
  | [] => []
  | inquiry :: rest => (names.ask inquiry).1 :: (names.ask inquiry).2.replies rest

end Names

/-- The codes that an answer hands out. -/
def Reply.minted : Reply → List NameId
  | .codes ids => ids
  | .number _ | .numbers _ | .known _ | .string _ => []

namespace Names

variable {names : Names} {name text : String} {id : NameId}

/-- The numbers in a table that have no name, in ascending order. -/
def bare (names : Names) : List NameId :=
  names.entries.findIdxs Option.isNone

theorem mem_bare : id ∈ names.bare ↔ id < names.size ∧ names.string? id = none := by
  rw [bare, List.mem_findIdxs_iff_exists_getElem_pos, size, string?, ← exists_prop]
  refine exists_congr fun hlt ↦ ?_
  rw [List.getElem?_eq_getElem hlt, Option.join_some, Option.isNone_iff_eq_none]

theorem findIdxs_codes (count first : Nat) :
    (List.replicate count (none : Option String)).findIdxs Option.isNone first =
      List.range' first count := by
  induction count generalizing first with
  | zero => rfl
  | succ count ih =>
    rw [List.replicate_succ, List.findIdxs_cons, if_pos Option.isNone_none, ih, List.range'_succ]

theorem mem_of_mem_firsts {seen wishes : List (Option String)} {wish : Option String}
    (h : wish ∈ firsts seen wishes) : wish ∈ wishes := by
  induction wishes generalizing seen with
  | nil => cases h
  | cons first wishes ih =>
    rw [firsts] at h
    split at h
    · exact List.mem_cons_of_mem first (ih h)
    · rcases List.mem_cons.mp h with rfl | hrest
      · exact List.mem_cons_self
      · exact List.mem_cons_of_mem first (ih hrest)

/-- An answer hands out the numbers without a name that it adds. -/
theorem bare_ask (names : Names) (inquiry : Inquiry) :
    (names.ask inquiry).2.bare = names.bare ++ (names.ask inquiry).1.minted := by
  have hnamed (hwishes : none ∉ inquiry.wishes) :
      (firsts names.entries inquiry.wishes).findIdxs Option.isNone (0 + names.entries.length) =
        [] := by
    rw [List.findIdxs_eq_nil_iff]
    intro entry hentry
    cases entry with
    | none => exact absurd (mem_of_mem_firsts hentry) hwishes
    | some name => rfl
  rw [bare, entries_ask, List.findIdxs_append, bare]
  congr 1
  cases inquiry with
  | lookup text =>
    rw [hnamed (by rw [Inquiry.wishes]; split <;> simp), ask]
    cases names.lookup text <;> rfl
  | lookupAll texts => exact hnamed (by simp [Inquiry.wishes])
  | query name => rfl
  | string id => rfl
  | mint count =>
    rw [Inquiry.wishes, firsts_codes, findIdxs_codes, Nat.zero_add]
    rfl

/-- The codes that were handed out are the numbers without a name. -/
theorem bare_after (names : Names) (inquiries : List Inquiry) :
    (names.after inquiries).bare =
      names.bare ++ (names.replies inquiries).flatMap Reply.minted := by
  induction inquiries generalizing names with
  | nil => exact (List.append_nil _).symm
  | cons inquiry rest ih =>
    rw [replies, List.flatMap_cons, ← List.append_assoc, ← bare_ask, ← ih]
    rfl

end Names

/-- The answers of a stored table, one after the other. -/
def Ledger.replies (l : Ledger) : List Inquiry → List Reply
  | [] => []
  | inquiry :: rest => (l.ask inquiry).1 :: (l.ask inquiry).2.replies rest

theorem Ledger.Sound.replies {l : Ledger} (h : l.Sound) (inquiries : List Inquiry) :
    l.replies inquiries = l.names.replies inquiries := by
  induction inquiries generalizing l with
  | nil => rfl
  | cons inquiry rest ih =>
    obtain ⟨hanswer, hsound, hnames⟩ := h.ask inquiry
    rw [Ledger.replies, Names.replies, ih hsound, hanswer, hnames]

/-! ### The whole history -/

namespace Names

variable {names old new : Names} {name : String} {id : NameId}

/-- What holds of a name table after it has been asked this and that. -/
structure History (inquiries : List Inquiry) (names : Names) : Prop where
  /-- The number of a name and the name of a number undo each other. -/
  query_iff : ∀ name id, names.query name = some id ↔ names.string? id = some name
  /-- The entries are the names that were looked up and the codes that were minted, in the order
  in which they came first. -/
  entries : names.entries = firsts [] (inquiries.flatMap Inquiry.wishes)
  /-- Whatever stands in the table is a name. -/
  named : ∀ id name, names.string? id = some name → IsName name
  /-- The next answer. -/
  answers : ∀ inquiry, names.Answers inquiry (names.ask inquiry).1 (names.ask inquiry).2
  /-- Whatever is asked later, a name keeps its number, and it is found without a change. -/
  lasting : ∀ id name more, names.string? id = some name →
    (names.after more).string? id = some name ∧
      (names.after more).lookup name = .ok (id, names.after more)
  /-- The codes that were handed out are the numbers without a name, in ascending order. -/
  minted : (({} : Names).replies inquiries).flatMap Reply.minted = names.bare
  /-- Whatever is asked later, a number without a name gets none. -/
  nameless : ∀ id more, id ∈ names.bare → (names.after more).string? id = none
  /-- The table in storage has given the same answers, its array holds the same entries, and its
  map finds what they hold. -/
  stored : ({} : Ledger).replies inquiries = ({} : Names).replies inquiries ∧
    (({} : Ledger).after inquiries).names = names ∧
    ∀ name, (({} : Ledger).after inquiries).query name = names.query name

theorem Faithful.lookup_of_string? (h : names.Faithful) (hname : IsName name)
    (hstring : names.string? id = some name) : names.lookup name = .ok (id, names) := by
  rw [lookup_of_isName hname, Names.intern, h.query_eq_some_iff.mpr hstring]

theorem Extends.string?_of_bare (h : old.Extends new) (hbare : id ∈ old.bare) :
    new.string? id = none := by
  obtain ⟨hlt, hnone⟩ := mem_bare.mp hbare
  obtain ⟨more, hmore⟩ := h
  rw [Names.string?] at hnone ⊢
  rw [← hmore, List.getElem?_append_left hlt, hnone]

/-- Whatever is asked of an empty name table, it keeps its names and its codes. -/
theorem history_kept (inquiries : List Inquiry) :
    History inquiries (({} : Names).after inquiries) := by
  have horderly (more : List Inquiry) :
      ((({} : Names).after inquiries).after more).Orderly :=
    (orderly_empty.after inquiries).after more
  obtain ⟨hfaithful, hnamed⟩ := orderly_empty.after inquiries
  have hentries := entries_after {} inquiries
  have hbare := bare_after {} inquiries
  obtain ⟨hmap, hstored⟩ := Ledger.sound_empty.after inquiries
  refine
    { query_iff := fun name id ↦ hfaithful.query_eq_some_iff
      entries := hentries
      named := fun id name hname ↦ hnamed name ⟨id, hname⟩
      answers := hfaithful.answers
      lasting := fun id name more hname ↦ ?_
      minted := hbare.symm
      nameless := fun id more hid ↦ (extends_after _ more).string?_of_bare hid
      stored := ⟨Ledger.sound_empty.replies inquiries, hstored, fun name ↦ ?_⟩ }
  · have hlater := (extends_after _ more).string? hname
    exact ⟨hlater,
      (horderly more).faithful.lookup_of_string? (hnamed name ⟨id, hname⟩) hlater⟩
  · rw [hmap name, hstored]
    rfl

end Names

end Breadboard
