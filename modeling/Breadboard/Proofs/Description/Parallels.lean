import Breadboard.Proofs.Description.Completion
import Breadboard.Proofs.Description.Interruptions
import Breadboard.Proofs.Names.Matching
import Breadboard.Proofs.Network.Rebuilding
import Mathlib.Data.Multiset.MapFold

/-!
# Readers of two texts

Two texts that have the same symbols in front are read in the same way, as long as none but these
are met (`Attempt.Parallel`). So they are read up to where their symbols become different, or from
there on where they have the same symbols left; which of the two is meant is said by a `Course`.
The name tables of the readers may have their names under different numbers, if a permutation takes
the numbers of the one to those of the other. What is filed about both texts is the same in
kind, although it may be filed at different places and in a different order.
-/

set_option autoImplicit false
set_option relaxedAutoImplicit false

namespace Breadboard.Description

open Text (Position sameWord)

/-! ### What a reader meets -/

theorem text_eq_of_symbol {token token' : Token} (h : token'.symbol = token.symbol)
    (hname : token.lexeme = .name) : token'.text = token.text := by
  have hname' : token'.lexeme = .name := (congrArg Symbol.lexeme h).trans hname
  have htext := congrArg Symbol.text h
  rwa [Token.symbol, Token.symbol, if_pos hname, if_pos hname'] at htext

namespace Reader

variable {r r' s s' : Reader} {symbols : List Symbol}

/-- The symbols behind the one that the reader stands on. -/
def coming (r : Reader) : List Symbol :=
  r.rest.filterMap Reading.symbol?

/-- The kinds of what was filed and of the lexical faults that are still in front of the reader. -/
def due (r : Reader) : Multiset Category :=
  (r.log ++ r.rest.filterMap Reading.report?).map fun report ↦ report.fault.category

/-- A report that is filed is one more that is due, of the category of its fault. -/
theorem due_file (r : Reader) (fault : Fault) (position : Position) :
    (r.file fault position).due = fault.category ::ₘ r.due := by
  rw [due, due, file, List.append_assoc, Multiset.cons_coe, Multiset.coe_eq_coe]
  exact List.perm_middle.map _

/-- A reader that has come to the first of some symbols. -/
structure ComesTo (symbols : List Symbol) (r s : Reader) : Prop where
  current : s.current.symbol = frontSymbol symbols
  coming : s.coming = symbols.tail
  mode : s.mode = r.mode
  names : s.names = r.names.meetAll r.mode (namesIn [frontSymbol symbols])

/-- To pull readings is to come to the first symbol among them, whatever lexical faults stand before
it. -/
theorem comesTo_pull (r : Reader) (readings : List Reading) :
    r.ComesTo (readings.filterMap Reading.symbol?) (r.pull readings) := by
  fun_induction pull r readings with
  | case1 r => exact ⟨rfl, rfl, rfl, rfl⟩
  | case2 r token rest => exact ⟨rfl, rfl, rfl, r.names_standOn token⟩
  | case3 r fault position rest ih => exact ⟨ih.current, ih.coming, ih.mode, ih.names⟩

/-- A lexical fault is due as long as it is in front of the reader and stays due when it is filed.
-/
theorem due_pull (r : Reader) (readings : List Reading) :
    (r.pull readings).due = ({ r with rest := readings } : Reader).due := by
  fun_induction pull r readings with
  | case1 | case2 => rfl
  | case3 r fault position rest ih =>
    rw [ih, due, due, file, List.append_assoc]
    rfl

theorem advance_of_atEnd (h : r.atEnd = true) : r.advance = r :=
  if_pos h

/-- To advance is to come to the next symbol. -/
theorem comesTo_advance (h : r.atEnd = false) : r.ComesTo r.coming r.advance := by
  rw [Ready.advance_eq_pull h]
  exact r.comesTo_pull r.rest

/-- To advance changes nothing about what is due. -/
theorem due_advance (r : Reader) : r.advance.due = r.due := by
  cases hend : r.atEnd with
  | true => rw [advance_of_atEnd hend]
  | false =>
    rw [Ready.advance_eq_pull hend]
    exact r.due_pull r.rest

end Reader

/-! ### Courses -/

/-- How two readings of texts are compared: which numbers in the one table are which in the other,
which new numbers are given alike in both, and where the symbols of the texts become different. -/
structure Course where
  number : Equiv.Perm NameId
  within : NameId → Prop
  tail : List Symbol
  tail' : List Symbol
  ends : tail = [] → tail' = []

variable {k : Course}

/-- A reader that has gone on to where the texts are different, or to new numbers that are not given
alike. -/
def Course.Lost (k : Course) (r : Reader) : Prop :=
  r.coming.length < k.tail.length ∨ r.names.Outgrows k.within

/-- A reader that has gone too far does not come back. -/
theorem Course.lasting_lost (k : Course) : Reader.Lasting k.Lost where
  advance {r} h := by
    cases hend : r.atEnd with
    | true => rwa [Reader.advance_of_atEnd hend]
    | false =>
      obtain ⟨-, hcoming, -, hnames⟩ := Reader.comesTo_advance hend
      refine h.imp (fun hshort ↦ ?_) fun hout ↦ ?_
      · rw [hcoming, List.length_tail]
        exact Nat.lt_of_le_of_lt (Nat.sub_le _ _) hshort
      · rw [hnames, ← Names.snd_resolveAll]
        exact hout.mono (Names.extends_resolveAll ..)
  file _ _ h := h
  resolve _ h := h.imp_right fun hout ↦ hout.mono (Names.extends_resolveAll ..)
  inMode _ h := h

/-- Two readers that stand on the same symbol and have the same symbols in front of them, up to
where the texts become different. -/
structure Reader.Alongside (k : Course) (r r' : Reader) : Prop where
  names : Names.Matched k.number k.within r.names r'.names
  mode : r'.mode = r.mode
  current : r'.current.symbol = r.current.symbol
  coming : ∃ used, r.coming = used ++ k.tail ∧ r'.coming = used ++ k.tail'
  due : r'.due = r.due

namespace Reader

variable {r r' : Reader}

/-- Readers alongside each other stand on the same lexeme, so they decide alike. -/
theorem Alongside.lexeme (h : Alongside k r r') : r'.current.lexeme = r.current.lexeme :=
  congrArg Symbol.lexeme h.current

theorem Alongside.atEnd (h : Alongside k r r') : r'.atEnd = r.atEnd := by
  rw [Reader.atEnd, Reader.atEnd, h.lexeme]

theorem Alongside.atSectionEnd (h : Alongside k r r') : r'.atSectionEnd = r.atSectionEnd := by
  rw [Reader.atSectionEnd, Reader.atSectionEnd, h.lexeme]

/-- Faults of one category may be filed on both sides, wherever each is filed. -/
theorem Alongside.file (h : Alongside k r r') {fault fault' : Fault}
    (hkind : fault'.category = fault.category) (position position' : Position) :
    Alongside k (r.file fault position) (r'.file fault' position') where
  names := h.names
  mode := h.mode
  current := h.current
  coming := h.coming
  due := by rw [due_file, due_file, h.due, hkind]

theorem Alongside.unexpected (h : Alongside k r r') (what : Expectation) :
    Alongside k (r.unexpected what) (r'.unexpected what) := by
  have hkind (found found' : Option String) :
      (Fault.expected what found').category = (Fault.expected what found).category := rfl
  exact h.file (hkind _ _) _ _

theorem Alongside.inMode (h : Alongside k r r') (mode : NameMode) :
    Alongside k { r with mode } { r' with mode } :=
  ⟨h.names, rfl, h.current, h.coming, h.due⟩

/-- The names of a symbol that both readers meet get corresponding numbers, unless numbers are given
that are not given alike. -/
theorem Alongside.meet (h : Alongside k r r') (symbol : Symbol) :
    (r.names.meetAll r.mode (namesIn [symbol])).Outgrows k.within ∨
      Names.Matched k.number k.within (r.names.meetAll r.mode (namesIn [symbol]))
        (r'.names.meetAll r'.mode (namesIn [symbol])) := by
  rw [h.mode, ← Names.snd_resolveAll, ← Names.snd_resolveAll]
  exact (h.names.resolveAll r.mode _).imp_right And.right

/-- Readers that advance stay alongside each other up to where the texts become different. -/
theorem Alongside.advance (h : Alongside k r r') :
    k.Lost r.advance ∨ Alongside k r.advance r'.advance := by
  cases hend : r.atEnd with
  | true =>
    rw [advance_of_atEnd hend, advance_of_atEnd (h.atEnd.trans hend)]
    exact .inr h
  | false =>
    obtain ⟨hcurrent, hcoming, hmode, hnames⟩ := comesTo_advance hend
    obtain ⟨hcurrent', hcoming', hmode', hnames'⟩ := comesTo_advance (h.atEnd.trans hend)
    have hdue : r'.advance.due = r.advance.due := by rw [due_advance, due_advance, h.due]
    -- the next symbol is one of those that the texts have in common, or lies behind them
    obtain ⟨used, hr, hr'⟩ := h.coming
    have hnext : r.coming.length ≤ k.tail.length ∧ k.tail ≠ [] ∨
        frontSymbol r'.coming = frontSymbol r.coming ∧
          ∃ used, r.coming.tail = used ++ k.tail ∧ r'.coming.tail = used ++ k.tail' := by
      rw [hr, hr']
      cases used with
      | cons symbol used => exact .inr ⟨rfl, used, rfl, rfl⟩
      | nil =>
        by_cases htail : k.tail = []
        · rw [htail, k.ends htail]
          exact .inr ⟨rfl, [], rfl, rfl⟩
        · exact .inl ⟨Nat.le_refl _, htail⟩
    rcases hnext with ⟨hle, htail⟩ | ⟨hfront, hrest⟩
    · refine .inl (.inl ?_)
      rw [hcoming, List.length_tail]
      have := List.length_pos_iff.mpr htail
      omega
    · rw [← hcoming, ← hcoming'] at hrest
      rw [hfront] at hnames' hcurrent'
      rcases h.meet (frontSymbol r.coming) with hout | hmatched
      · exact .inl (.inr (hnames ▸ hout))
      · rw [← hnames, ← hnames'] at hmatched
        exact .inr ⟨hmatched, by rw [hmode, hmode', h.mode], hcurrent'.trans hcurrent.symm, hrest,
          hdue⟩

/-- What is done with readers of both texts, each on its own. -/
def Parallel (k : Course) (f f' : Reader → Reader) : Prop :=
  ∀ ⦃r r' : Reader⦄, Alongside k r r' → k.Lost (f r) ∨ Alongside k (f r) (f' r')

theorem parallel_advance : Parallel k advance advance :=
  fun _ _ ↦ Alongside.advance

/-- One step after another. Where the first goes too far, so do both. -/
theorem Parallel.comp {f f' g g' : Reader → Reader} (hg : Parallel k g g')
    (hreaches : ∀ r : Reader, r.Reaches (g r)) (hf : Parallel k f f') :
    Parallel k (fun r ↦ g (f r)) fun r ↦ g' (f' r) := by
  intro r r' h
  rcases hf h with hlost | h
  · exact .inl (k.lasting_lost.reaches (hreaches _) hlost)
  · exact hg h

/-- Both readers stop at the same anchor. -/
theorem parallel_skipTo (anchors : List Anchor) :
    Parallel k (·.skipTo anchors) (·.skipTo anchors) := by
  intro r r' h
  dsimp only
  have hstops {r r' : Reader} (h : Alongside k r r') :
      (r'.atEnd = true ∨ anchors.any (·.isAt r'.current.lexeme) = true) ↔
        (r.atEnd = true ∨ anchors.any (·.isAt r.current.lexeme) = true) := by
    rw [h.atEnd, h.lexeme]
  fun_induction skipTo r anchors generalizing r' with
  | case1 r hstop =>
    rw [skipTo, dif_pos ((hstops h).mpr hstop)]
    exact .inr h
  | case2 r hgo ih =>
    rw [skipTo.eq_def r', dif_neg (mt (hstops h).mp hgo)]
    rcases h.advance with hlost | h
    · exact .inl (k.lasting_lost.reaches (reaches_skipTo ..) hlost)
    · exact ih h

theorem parallel_passSemicolon : Parallel k passSemicolon passSemicolon := by
  intro r r' h
  rw [passSemicolon, passSemicolon, h.lexeme]
  split
  · exact h.advance
  · exact .inr h

/-- Statements that cannot be read are skipped alike. -/
theorem parallel_skipStatement : Parallel k skipStatement skipStatement :=
  parallel_passSemicolon.comp reaches_passSemicolon (parallel_skipTo _)

/-- Blocks for no device are skipped alike. -/
theorem parallel_skipBlock : Parallel k skipBlock skipBlock := by
  intro r r' h
  have hskipped := (parallel_skipTo (k := k) [.closeBrace, .heading]).comp
    (fun r ↦ reaches_skipTo r _) parallel_advance
  rw [skipBlock, skipBlock]
  dsimp only
  rcases h.advance with hlost | h
  · refine .inl ?_
    split
    · split
      · exact k.lasting_lost.advance (k.lasting_lost.reaches (reaches_skipTo _ _)
          (k.lasting_lost.advance hlost))
      · exact k.lasting_lost.reaches (reaches_skipTo _ _) (k.lasting_lost.advance hlost)
    · exact hlost
  · rw [h.lexeme]
    split
    · rcases hskipped h with hlost | h
      · refine .inl ?_
        split
        · exact k.lasting_lost.advance hlost
        · exact hlost
      · rw [h.lexeme]
        split
        · exact h.advance
        · exact .inr h
    · exact .inr h

end Reader

/-! ### Attempts -/

namespace Attempt

variable {α α' β β' : Type} {R : α → α' → Prop} {S : β → β' → Prop}
  {m : Attempt α} {m' : Attempt α'}

/-- Attempts on readers of both texts: they come to the same, if what they yield is compared in some
way. -/
def Parallel (k : Course) (R : α → α' → Prop) (m : Attempt α) (m' : Attempt α') : Prop :=
  ∀ ⦃r r' : Reader⦄, r.Alongside k r' → k.Lost (m.run r).2 ∨
    Option.Rel R (m.run r).1 (m'.run r').1 ∧ (m.run r).2.Alongside k (m'.run r').2

/-- The rule for attempts one after another, by which all that follows is put together. -/
theorem Parallel.bind {f : α → Attempt β} {f' : α' → Attempt β'} (hm : Parallel k R m m')
    (hf : ∀ a a', R a a' → Parallel k S (f a) (f' a')) : Parallel k S (m >>= f) (m' >>= f') := by
  intro r r' h
  have hfirst := hm h
  rw [run_bind, run_bind]
  generalize m.run r = first at hfirst ⊢
  generalize m'.run r' = first' at hfirst ⊢
  obtain ⟨value, s⟩ := first
  obtain ⟨value', s'⟩ := first'
  rcases hfirst with hlost | ⟨hvalue, hs⟩
  · cases value with
    | none => exact .inl hlost
    | some a => exact .inl (k.lasting_lost.reaches ((f a).reaches s) hlost)
  · cases hvalue with
    | none => exact .inr ⟨.none, hs⟩
    | some ha => exact hf _ _ ha hs

theorem parallel_pure {a : α} {a' : α'} (h : R a a') : Parallel k R (pure a) (pure a') :=
  fun _ _ hr ↦ .inr ⟨.some h, hr⟩

/-- Both readers take the same branch. -/
theorem Parallel.ite {p p' : Prop} [Decidable p] [Decidable p'] {n : Attempt α} {n' : Attempt α'}
    (hp : p' ↔ p) (h : p → Parallel k R m m') (h' : ¬p → Parallel k R n n') :
    Parallel k R (if p then m else n) (if p' then m' else n') := by
  by_cases hpos : p
  · rw [if_pos hpos, if_pos (hp.mpr hpos)]
    exact h hpos
  · rw [if_neg hpos, if_neg (mt hp.mp hpos)]
    exact h' hpos

/-- Tokens of one symbol. -/
def SameSymbol (token token' : Token) : Prop :=
  token'.symbol = token.symbol

theorem SameSymbol.lexeme_iff {token token' : Token} (h : SameSymbol token token')
    (lexeme : Lexeme) : token'.lexeme = lexeme ↔ token.lexeme = lexeme := by
  rw [show token'.lexeme = token.lexeme from congrArg Symbol.lexeme h]

theorem parallel_current : Parallel k SameSymbol current current :=
  fun _ _ h ↦ .inr ⟨.some h.current, h⟩

theorem parallel_advance : Parallel k Eq advance advance :=
  fun _ _ h ↦ h.advance.imp_right fun hr ↦ ⟨.some rfl, hr⟩

theorem parallel_numberOf (name : String) :
    Parallel k (fun id? id?' ↦ id?' = id?.map k.number) (numberOf name) (numberOf name) :=
  fun _ _ h ↦ .inr ⟨.some (h.names.query name), h⟩

/-- Names that are resolved together get corresponding numbers, or are unknown on both sides. -/
theorem parallel_resolveAll (list : List String) :
    Parallel k (fun ids ids' ↦ ids' = ids.map (List.map k.number)) (resolveAll list)
      (resolveAll list) := by
  intro r r' h
  have hresolved : (r.names.resolveAll r.mode list).2.Outgrows k.within ∨
      (r'.names.resolveAll r'.mode list).1 =
        (r.names.resolveAll r.mode list).1.map (List.map k.number) ∧
          Names.Matched k.number k.within (r.names.resolveAll r.mode list).2
            (r'.names.resolveAll r'.mode list).2 := by
    rw [h.mode]
    exact h.names.resolveAll r.mode list
  exact hresolved.imp .inr fun hsame ↦
    ⟨.some hsame.1, hsame.2, h.mode, h.current, h.coming, h.due⟩

theorem parallel_refuse {fault fault' : Fault} (hkind : fault'.category = fault.category)
    (position position' : Position) :
    Parallel k R (refuse fault position) (refuse fault' position') :=
  fun _ _ h ↦ .inr ⟨.none, h.file hkind position position'⟩

theorem parallel_unexpected (what : Expectation) :
    Parallel k R (unexpected what) (unexpected what) :=
  fun _ _ h ↦ .inr ⟨.none, h.unexpected what⟩

theorem parallel_expect (lexeme : Lexeme) (what : Expectation) :
    Parallel k Eq (expect lexeme what) (expect lexeme what) :=
  parallel_current.bind fun _ _ h ↦
    .ite (h.lexeme_iff lexeme) (fun _ ↦ parallel_advance) fun _ ↦ parallel_unexpected what

theorem rel_map_cons {a : α} {a' : α'} (ha : R a a') {more : Option (List α)}
    {more' : Option (List α')} (h : Option.Rel (List.Forall₂ R) more more') :
    Option.Rel (List.Forall₂ R) (more.map (a :: ·)) (more'.map (a' :: ·)) := by
  cases h with
  | none => exact .none
  | some hmore => exact .some (.cons ha hmore)

/-- The items of a list correspond one by one: the induction is on the items that are read on the
first side. -/
theorem Parallel.commaList (h : Parallel k R m m') :
    Parallel k (List.Forall₂ R) (commaList m) (commaList m') := by
  intro r r' hr
  change k.Lost (commaItems m r).2 ∨ Option.Rel (List.Forall₂ R) (commaItems m r).1
    (commaItems m' r').1 ∧ (commaItems m r).2.Alongside k (commaItems m' r').2
  fun_induction commaItems m r generalizing r' with
  | case1 r hcomma s hs =>
    rcases hr.advance with hlost | hadvanced
    · have hreaches := m.reaches r.advance
      rw [hs] at hreaches
      exact .inl (k.lasting_lost.reaches hreaches hlost)
    have hitem := h hadvanced
    rw [hs] at hitem
    refine hitem.imp_right fun hsame ↦ ?_
    rw [commaItems_of_comma (hr.lexeme.trans hcomma)]
    generalize m'.run r'.advance = first' at hsame ⊢
    obtain ⟨value', s'⟩ := first'
    obtain rfl : value' = none := by
      cases hsame.1
      rfl
    exact ⟨.none, hsame.2⟩
  | case2 r hcomma a s hs t ht ih | case3 r hcomma a s hs more t ht ih =>
    have hrest : s.Reaches t := by
      have hreaches := reaches_commaItems m s
      rwa [ht] at hreaches
    rcases hr.advance with hlost | hadvanced
    · have hreaches := m.reaches r.advance
      rw [hs] at hreaches
      exact .inl (k.lasting_lost.reaches (hreaches.trans hrest) hlost)
    have hitem := h hadvanced
    rw [hs] at hitem
    rcases hitem with hlost | ⟨hvalue, hs'⟩
    · exact .inl (k.lasting_lost.reaches hrest hlost)
    rw [commaItems_of_comma (hr.lexeme.trans hcomma)]
    generalize m'.run r'.advance = first' at hvalue hs' ⊢
    obtain ⟨value', s'⟩ := first'
    obtain ⟨a', rfl, ha⟩ : ∃ a', value' = some a' ∧ R a a' := by
      cases hvalue with
      | some ha => exact ⟨_, rfl, ha⟩
    have hmore := ih hs'
    rw [ht] at hmore
    refine hmore.imp_right fun hsame ↦ ?_
    have hlist := rel_map_cons ha hsame.1
    exact ⟨hlist, hsame.2⟩
  | case4 r hcomma =>
    rw [commaItems, dif_neg (hr.lexeme ▸ hcomma)]
    exact .inr ⟨.some .nil, hr⟩

theorem Parallel.separated (h : Parallel k R m m') :
    Parallel k (List.Forall₂ R) (separated m) (separated m') :=
  h.bind fun _ _ hfirst ↦ h.commaList.bind fun _ _ hmore ↦ parallel_pure (.cons hfirst hmore)

end Attempt

open Attempt

/-! ### Statements -/

section Same

variable (number : NameId → NameId)

/-- A name that is met in both texts. -/
def Mention.Same (mention mention' : Mention) : Prop :=
  mention'.id = number mention.id ∧ mention'.text = mention.text

/-- A device that statements of both texts are about. -/
def Target.Same (target target' : Target) : Prop :=
  target'.id = number target.id

/-- Statements that say the same of the same devices. -/
structure DeviceStatement.Same (statement statement' : DeviceStatement) : Prop where
  targets : List.Forall₂ (Target.Same number) statement.targets statement'.targets
  clause : statement'.clause = statement.clause

/-- An output that is met in both texts. -/
def OutputMention.Same (output output' : OutputMention) : Prop :=
  output'.terminal = output.terminal.remet number

/-- A connection of the same output to the same input. -/
structure Connection.Same (connection connection' : Connection) : Prop where
  source : OutputMention.Same number connection.source connection'.source
  input : connection'.input = number connection.input

end Same

/-- A name that is known on the one side is known on the other, and stands for the device of the
corresponding number. -/
theorem parallel_knownName (unknown : String → Fault) (what : Expectation) :
    Parallel k (Mention.Same k.number) (knownName unknown what) (knownName unknown what) := by
  refine parallel_current.bind fun token token' h ↦ .ite (h.lexeme_iff _) (fun hname ↦ ?_)
    fun _ ↦ parallel_unexpected what
  have htext := text_eq_of_symbol h hname
  rw [htext]
  refine (parallel_numberOf _).bind fun id? id?' hid ↦ ?_
  subst hid
  cases id? with
  | none => exact parallel_refuse rfl _ _
  | some id => exact parallel_advance.bind fun _ _ _ ↦ parallel_pure ⟨rfl, rfl⟩

theorem parallel_number :
    Parallel k (fun value value' ↦ value'.1 = value.1) number number := by
  refine parallel_current.bind fun token token' h ↦ ?_
  rw [show token'.lexeme = token.lexeme from congrArg Symbol.lexeme h]
  split
  · exact parallel_advance.bind fun _ _ _ ↦ parallel_pure rfl
  · exact parallel_unexpected _

/-- Ranges of the same names stand for corresponding devices. -/
theorem parallel_rangeTargets {first first' last last' : Mention}
    (hfirst : first.Same k.number first') (hlast : last.Same k.number last') :
    Parallel k (List.Forall₂ (Target.Same k.number)) (rangeTargets first last)
      (rangeTargets first' last') := by
  unfold rangeTargets
  rw [hfirst.2, hlast.2]
  split
  · exact parallel_refuse rfl _ _
  · refine (parallel_resolveAll _).bind fun ids ids' hids ↦ ?_
    subst hids
    cases ids with
    | error name => exact parallel_refuse rfl _ _
    | ok ids =>
      refine parallel_pure ?_
      rw [List.map_map, List.forall₂_map_left_iff, List.forall₂_map_right_iff]
      exact List.forall₂_same.mpr fun _ _ ↦ rfl

/-- Lists and ranges of names stand for corresponding devices. -/
theorem parallel_targets :
    Parallel k (List.Forall₂ (Target.Same k.number)) targets targets := by
  refine (parallel_knownName _ _).bind fun first first' hfirst ↦
    parallel_current.bind fun token token' h ↦ .ite (h.lexeme_iff _) (fun _ ↦ ?_) fun _ ↦ ?_
  · exact parallel_advance.bind fun _ _ _ ↦ (parallel_knownName _ _).bind fun _ _ hlast ↦
      parallel_rangeTargets hfirst hlast
  · refine (parallel_knownName _ _).commaList.bind fun more more' hmore ↦ parallel_pure ?_
    rw [List.forall₂_map_left_iff, List.forall₂_map_right_iff]
    exact (List.Forall₂.cons hfirst hmore).imp fun _ _ hsame ↦ hsame.1

theorem parallel_deviceKind : Parallel k Eq deviceKind deviceKind := by
  refine parallel_current.bind fun token token' h ↦ .ite (h.lexeme_iff _) (fun hname ↦ ?_)
    fun _ ↦ parallel_unexpected _
  have htext := text_eq_of_symbol h hname
  rw [htext]
  refine parallel_advance.bind fun _ _ _ ↦ parallel_current.bind fun next next' hnext ↦
    .ite (and_congr_right fun _ ↦ hnext.lexeme_iff _) (fun _ ↦ ?_) fun _ ↦ ?_
  · refine parallel_advance.bind fun _ _ _ ↦ parallel_current.bind fun word word' hword ↦
      .ite ?_ (fun _ ↦ parallel_advance.bind fun _ _ _ ↦ parallel_pure rfl)
        fun _ ↦ parallel_unexpected _
    rw [hword.lexeme_iff]
    exact and_congr_right fun hword' ↦ by rw [text_eq_of_symbol hword hword']
  · split
    · exact parallel_pure rfl
    · exact .ite Iff.rfl (fun _ ↦ parallel_refuse rfl _ _) fun _ ↦ parallel_refuse rfl _ _

theorem parallel_halfPeriod : Parallel k Eq halfPeriod halfPeriod :=
  parallel_number.bind fun _ _ h ↦ .ite (by rw [h]) (fun _ ↦ parallel_refuse rfl _ _)
    fun _ ↦ parallel_pure (by rw [h])

theorem parallel_levelOf {value value' : Nat × Position} (h : value'.1 = value.1) :
    Parallel k Eq
      (match value.1 with
      | 0 => pure (.level Level.low)
      | 1 => pure (.level Level.high)
      | _ => refuse (.switchLevel value.1) value.2 : Attempt Clause)
      (match value'.1 with
      | 0 => pure (.level Level.low)
      | 1 => pure (.level Level.high)
      | _ => refuse (.switchLevel value'.1) value'.2) := by
  rw [h]
  split
  · exact parallel_pure rfl
  · exact parallel_pure rfl
  · exact parallel_refuse rfl _ _

theorem parallel_switchLevel : Parallel k Eq switchLevel switchLevel :=
  parallel_current.bind fun _ _ h ↦ .ite (h.lexeme_iff _)
    (fun _ ↦ parallel_advance.bind fun _ _ _ ↦ parallel_number.bind fun _ _ ↦ parallel_levelOf)
    fun _ ↦ parallel_number.bind fun _ _ ↦ parallel_levelOf

theorem parallel_clause (inInit : Bool) : Parallel k Eq (clause inInit) (clause inInit) := by
  refine parallel_current.bind fun token token' h ↦ ?_
  rw [show token'.lexeme = token.lexeme from congrArg Symbol.lexeme h]
  have hdefine (position position' : Position) : Parallel k Eq
      (if inInit = true then refuse .notInInit position else do
        advance
        return .define (← deviceKind) : Attempt Clause)
      (if inInit = true then refuse .notInInit position' else do
        advance
        return .define (← deviceKind)) :=
    .ite Iff.rfl (fun _ ↦ parallel_refuse rfl _ _) fun _ ↦ parallel_advance.bind fun _ _ _ ↦
      parallel_deviceKind.bind fun _ _ hkind ↦ parallel_pure (by rw [hkind])
  have hpossess (position position' : Position) : Parallel k Eq
      (do
        advance
        if (← current).lexeme = .keyword .cycle then
          advance
          halfPeriod
        else if inInit = true then refuse .notInInit position
        else return .inputs (← number).1 : Attempt Clause)
      (do
        advance
        if (← current).lexeme = .keyword .cycle then
          advance
          halfPeriod
        else if inInit = true then refuse .notInInit position'
        else return .inputs (← number).1) :=
    parallel_advance.bind fun _ _ _ ↦ parallel_current.bind fun _ _ hnext ↦
      .ite (hnext.lexeme_iff _) (fun _ ↦ parallel_advance.bind fun _ _ _ ↦ parallel_halfPeriod)
        fun _ ↦ .ite Iff.rfl (fun _ ↦ parallel_refuse rfl _ _) fun _ ↦
          parallel_number.bind fun _ _ hvalue ↦ parallel_pure (by rw [hvalue])
  split
  · exact hdefine _ _
  · exact hdefine _ _
  · exact hpossess _ _
  · exact hpossess _ _
  · exact parallel_advance.bind fun _ _ _ ↦ parallel_switchLevel
  · exact .ite Iff.rfl (fun _ ↦ parallel_refuse rfl _ _) fun _ ↦ parallel_unexpected _

/-- Statements about devices are read alike, or refused alike. -/
theorem parallel_deviceStatement (inInit : Bool) :
    Parallel k (DeviceStatement.Same k.number) (deviceStatement inInit)
      (deviceStatement inInit) :=
  parallel_targets.bind fun _ _ htargets ↦ (parallel_clause inInit).bind fun _ _ hclause ↦
    (parallel_expect _ _).bind fun _ _ _ ↦ parallel_pure ⟨htargets, hclause.symm⟩

theorem parallel_output : Parallel k (OutputMention.Same k.number) output output := by
  refine (parallel_knownName _ _).bind fun device device' hdevice ↦
    parallel_current.bind fun _ _ h ↦ .ite (h.lexeme_iff _) (fun _ ↦ ?_) fun _ ↦ ?_
  · refine parallel_advance.bind fun _ _ _ ↦ (parallel_knownName _ _).bind fun port port' hport ↦
      parallel_pure ?_
    exact congrArg₂ (fun device port ↦ Terminal.mk device (some port)) hdevice.1 hport.1
  · exact parallel_pure (congrArg (fun device ↦ Terminal.mk device none) hdevice.1)

theorem parallel_blockHeader :
    Parallel k (fun token token' ↦ token'.text = token.text) blockHeader blockHeader :=
  (parallel_expect _ _).bind fun _ _ _ ↦ parallel_current.bind fun _ _ h ↦
    .ite (h.lexeme_iff _) (fun hname ↦ parallel_pure (text_eq_of_symbol h hname))
      fun _ ↦ parallel_unexpected _

theorem parallel_blockOpening : Parallel k Eq blockOpening blockOpening :=
  parallel_advance.bind fun _ _ _ ↦ parallel_expect _ _

/-- Connections of corresponding blocks are read alike. -/
theorem parallel_connection (block : NameId) (blockName : String) :
    Parallel k (Connection.Same k.number) (connection block blockName)
      (connection (k.number block) blockName) := by
  refine parallel_output.bind fun source source' hsource ↦ (parallel_expect _ _).bind fun _ _ _ ↦
    (parallel_knownName _ _).bind fun target target' htarget ↦ .ite ?_ (fun _ ↦ ?_) fun _ ↦ ?_
  · rw [htarget.1]
    exact k.number.apply_eq_iff_eq
  · exact (parallel_expect _ _).bind fun _ _ _ ↦ (parallel_knownName _ _).bind fun _ _ hinput ↦
      (parallel_expect _ _).bind fun _ _ _ ↦ parallel_pure ⟨hsource, hinput.1⟩
  · rw [htarget.2]
    exact parallel_refuse rfl _ _

/-- Demands to watch are read alike. -/
theorem parallel_monitorStatement :
    Parallel k (List.Forall₂ (OutputMention.Same k.number)) monitorStatement monitorStatement := by
  have houtputs : Parallel k (List.Forall₂ (OutputMention.Same k.number)) (separated output)
      (separated output) := parallel_output.separated
  refine parallel_current.bind fun _ _ h ↦ .ite (h.lexeme_iff _) (fun _ ↦ ?_) fun _ ↦ ?_
  · exact parallel_advance.bind fun _ _ _ ↦ houtputs.bind fun _ _ hsame ↦
      (parallel_expect _ _).bind fun _ _ _ ↦ parallel_pure hsame
  · exact houtputs.bind fun _ _ hsame ↦ (parallel_expect _ _).bind fun _ _ _ ↦
      parallel_pure hsame

end Breadboard.Description
