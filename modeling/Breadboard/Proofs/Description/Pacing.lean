import Breadboard.Proofs.Description.Composition
import Breadboard.Proofs.Description.Sections
import Mathlib.Logic.Function.Iterate

/-!
# The order in which names are met

Where an attempt yields a value it has moved on some number of times and has done nothing else
(`Attempt.Paces`), except that the names between the ends of a range are met at once. So the names
that are met in a sentence, down to the numbers that new names are given, are settled by the symbols
that are read and the one behind them (`names_deviceStatement`). What stands behind the `devices`
section makes no difference to the table at its end (`exists_met_of_sentences`).
-/

set_option autoImplicit false
set_option relaxedAutoImplicit false

namespace Breadboard.Description

open Attempt

variable {α β : Type} {mode : NameMode} {r s : Reader} {used more : List Symbol} {symbol : Symbol}

/-! ### Moving on several times -/

namespace Reader

/-- The symbol that a reader comes to is met, if it is a name. -/
theorem Ready.names_advance (hr : r.Ready mode) (hsymbols : r.symbols = symbol :: more) :
    r.advance.names = r.names.meetAll mode (namesIn [frontSymbol more]) := by
  have hstand := r.names_pull r.rest
  rw [← Ready.advance_eq_pull (front_of_symbols hsymbols).1] at hstand
  rw [hstand, names_standOn, hr.inForce, ← frontSymbol_symbols, (hr.take hsymbols).2]

/-- A reader that moves on over some symbols meets the names behind the first of them, and the
symbol that it comes to. -/
theorem Ready.names_iterate_advance (hr : r.Ready mode) (hsymbols : r.symbols = used ++ more) :
    (Reader.advance^[used.length] r).names =
      r.names.meetAll mode (namesIn (used ++ [frontSymbol more]).tail) := by
  induction used generalizing r with
  | nil => rfl
  | cons first used ih =>
    rw [List.cons_append] at hsymbols
    obtain ⟨htake, hrest⟩ := hr.take hsymbols
    have hfront : namesIn (used ++ [frontSymbol more]) =
        namesIn [frontSymbol (used ++ more)] ++ namesIn (used ++ [frontSymbol more]).tail := by
      rw [← namesIn_append]
      cases used <;> rfl
    rw [List.length_cons, Function.iterate_succ_apply, ih htake.ready hrest,
      hr.names_advance hsymbols, ← Names.meetAll_append, ← hfront]
    rfl

theorem Ready.symbols_iterate_advance (hr : r.Ready mode) (n : Nat) :
    (Reader.advance^[n] r).symbols = r.symbols.drop n := by
  induction n generalizing r with
  | zero => rfl
  | succ n ih =>
    rw [Function.iterate_succ_apply]
    cases hend : r.atEnd with
    | true =>
      have hstay : r.advance = r := if_pos hend
      rw [hstay, ih hr, symbols, if_pos hend, List.drop_nil, List.drop_nil]
    | false => rw [ih (hr.advance hend), hr.symbols_advance hend, List.drop_succ_cons]

/-- How often a reader has moved on is seen from the symbols that it has taken. -/
theorem Ready.eq_length_of_iterate (hr : r.Ready mode) {n : Nat}
    (hsymbols : r.symbols = used ++ symbol :: more)
    (hrest : (Reader.advance^[n] r).symbols = symbol :: more) : n = used.length := by
  have hlength := congrArg List.length (hr.symbols_iterate_advance n)
  rw [hrest, hsymbols, List.length_drop, List.length_append, List.length_cons] at hlength
  omega

theorem Ready.names_iterate (hr : r.Ready mode) {n : Nat}
    (hsymbols : r.symbols = used ++ symbol :: more)
    (hrest : (Reader.advance^[n] r).symbols = symbol :: more) :
    (Reader.advance^[n] r).names = r.names.meetAll mode (namesIn (used ++ [symbol]).tail) := by
  rw [hr.eq_length_of_iterate hsymbols hrest]
  exact hr.names_iterate_advance hsymbols

end Reader

/-! ### What is met in a list of names -/

/-- The names that are met where a list of names is read, behind the first of them. All names of a
range are met behind its last one. -/
def NameList.later (list : NameList) : List String :=
  match list with
  | .several _ others => others
  | .range _ last => last :: list.names?.getD []

/-- What only sets something is said without a name. -/
theorem namesIn_of_fits {said : Clause} (h : ClauseSpelled said used) (hfits : FitsInit said) :
    namesIn used = [] := by
  cases h with
  | define | inputs => exact hfits.elim
  | halfPeriod => rfl
  | level hoptional =>
    rcases hoptional with rfl | rfl
    · rfl
    · rfl

theorem namesIn_afterComma (others : List String) (verb : Keyword) :
    namesIn (others.flatMap (fun other ↦ [.sign .comma, .name other]) ++ [.keyword verb]) =
      others := by
  induction others with
  | nil => rfl
  | cons other others ih => exact congrArg (other :: ·) ih

/-! ### Attempts that move on -/

namespace Attempt

/-- An attempt that has only moved on, where it yields a value. -/
def Paces (m : Attempt α) : Prop :=
  ∀ r s a, m.run r = (some a, s) → ∃ n, s = Reader.advance^[n] r

theorem Paces.bind {m : Attempt α} {f : α → Attempt β} (hm : m.Paces) (hf : ∀ a, (f a).Paces) :
    (m >>= f).Paces := by
  intro r t b hrun
  obtain ⟨a, s, hs, ht⟩ := run_bind_eq_some.mp hrun
  obtain ⟨n, rfl⟩ := hm r s a hs
  obtain ⟨k, rfl⟩ := hf a _ t b ht
  exact ⟨k + n, (Function.iterate_add_apply ..).symm⟩

theorem Paces.commaList {item : Attempt α} (h : item.Paces) : (commaList item).Paces := by
  intro r s list hrun
  change commaItems item r = (some list, s) at hrun
  fun_induction commaItems item r generalizing list with
  | case1 | case2 => cases hrun
  | case3 r _ a t ht more u hu ih =>
    cases hrun
    obtain ⟨n, rfl⟩ := h _ _ _ ht
    obtain ⟨k, rfl⟩ := ih _ hu
    exact ⟨k + n + 1, (Function.iterate_add_apply ..).symm⟩
  | case4 r =>
    cases hrun
    exact ⟨0, rfl⟩

/-- Whatever reads a statement without a range only moves on. -/
theorem composes_paces : Composes Paces where
  pure _ r _ _ hrun := ⟨0, by cases hrun; rfl⟩
  bind := Paces.bind
  current r _ _ hrun := ⟨0, by cases hrun; rfl⟩
  advance r _ _ hrun := ⟨1, by cases hrun; rfl⟩
  numberOf _ r _ _ hrun := ⟨0, by cases hrun; rfl⟩
  refuse _ _ _ _ _ hrun := nomatch hrun
  unexpected _ _ _ _ hrun := nomatch hrun
  commaList := Paces.commaList

/-! ### Sentences -/

theorem knownName_eq_some {unknown : String → Fault} {what : Expectation} {mention : Mention}
    (h : (knownName unknown what).run r = (some mention, s)) :
    r.current.symbol = .name mention.text ∧ s = r.advance := by
  rw [knownName, run_current_bind] at h
  split at h
  · next hlexeme =>
    rw [run_numberOf_bind] at h
    cases hquery : r.names.query r.current.text with
    | none =>
      rw [hquery] at h
      cases h
    | some id =>
      rw [hquery] at h
      cases h
      exact ⟨symbol_eq_name_iff.mpr ⟨hlexeme, rfl⟩, rfl⟩
  · cases h

theorem targets_of_several {list : List Target} (harrow : r.advance.current.lexeme ≠ .arrow)
    (h : targets.run r = (some list, s)) : ∃ n, s = Reader.advance^[n] r := by
  obtain ⟨first, t, hfirst, h⟩ := run_bind_eq_some.mp h
  obtain ⟨-, rfl⟩ := knownName_eq_some hfirst
  rw [run_current_bind, if_neg harrow] at h
  have hmore : (commaList deviceName).Paces :=
    composes_paces.commaList (composes_paces.knownName _ _)
  obtain ⟨n, rfl⟩ := hmore.bind (fun _ ↦ composes_paces.pure _) _ _ _ h
  exact ⟨n + 1, rfl⟩

/-- Behind the last name of a range, all of its names are met. -/
theorem targets_of_range {list : List Target} {first last : String}
    (hfirst : r.current.symbol = .name first) (harrow : r.advance.current.lexeme = .arrow)
    (hlast : r.advance.advance.current.symbol = .name last)
    (h : targets.run r = (some list, s)) : ∃ names, expandRange first last = .ok names ∧
      s.names = ((Reader.advance^[3] r).names.resolveAll (Reader.advance^[3] r).mode names).2 := by
  obtain ⟨mention, t, hmention, h⟩ := run_bind_eq_some.mp h
  obtain ⟨hsymbol, rfl⟩ := knownName_eq_some hmention
  rw [run_current_bind, if_pos harrow, run_advance_bind] at h
  obtain ⟨other, u, hother, h⟩ := run_bind_eq_some.mp h
  obtain ⟨hsymbol', rfl⟩ := knownName_eq_some hother
  obtain rfl : mention.text = first := congrArg Symbol.text (hsymbol.symm.trans hfirst)
  obtain rfl : other.text = last := congrArg Symbol.text (hsymbol'.symm.trans hlast)
  rw [rangeTargets] at h
  split at h
  · cases h
  · next names hnames =>
    refine ⟨names, hnames, ?_⟩
    rw [run_resolveAll_bind] at h
    split at h
    · cases h
    · cases h
      rfl

/-- The table after the names of a sentence, whatever is said of them. -/
theorem names_targets {written : NameList} {list : List Target} {verb : Keyword}
    (hr : r.Ready mode) (hsymbols : r.symbols = written.symbols ++ .keyword verb :: more)
    (hrun : targets.run r = (some list, s)) (hrest : s.symbols = .keyword verb :: more) :
    s.names = r.names.meetAll mode written.later := by
  cases written with
  | several first others =>
    have hnext := (hr.take hsymbols).2
    have harrow : r.advance.current.lexeme ≠ .arrow := by
      rw [← Reader.frontLexeme_symbols, hnext]
      cases others with
      | nil => exact nofun
      | cons => exact nofun
    obtain ⟨n, rfl⟩ := targets_of_several harrow hrun
    rw [hr.names_iterate hsymbols hrest]
    exact congrArg _ (namesIn_afterComma others verb)
  | range first last =>
    obtain ⟨hfirst, hnext⟩ := hr.take hsymbols
    obtain ⟨harrow, hlast⟩ := hfirst.ready.take hnext
    obtain ⟨names, hexpand, hs⟩ := targets_of_range (Reader.front_of_symbols hsymbols).2
      (lexeme_of_sign hnext) (Reader.front_of_symbols hlast).2 hrun
    have hmode : (Reader.advance^[3] r).mode = mode := (harrow.ready.take hlast).1.ready.inForce
    have hwritten : r.symbols =
        [.name first, .sign .arrow, .name last] ++ .keyword verb :: more := hsymbols
    have hthree : (Reader.advance^[3] r).names = r.names.meetAll mode [last] :=
      hr.names_iterate_advance hwritten
    -- the names in between are met behind the last one
    rw [hs, hmode, hthree, Names.snd_resolveAll, ← Names.meetAll_append]
    rw [NameList.later, NameList.names?, hexpand]
    rfl

/-- Behind the names of a sentence there is nothing but moving on. -/
theorem exists_iterate_of_deviceStatement {inInit : Bool} {written : NameList} {said : Clause}
    {u : List Symbol} {names : List String} {statement : DeviceStatement} (hr : r.Ready .declare)
    (hclause : ClauseSpelled said u) (hstands : written.names? = some names)
    (hsymbols : r.symbols = written.symbols ++ (u ++ more))
    (hrun : (deviceStatement inInit).run r = (some statement, s)) :
    ∃ list t n, targets.run r = (some list, t) ∧ t.Ready .declare ∧ t.symbols = u ++ more ∧
      s = Reader.advance^[n] t := by
  obtain ⟨list, t, htargets, hrun⟩ := run_bind_eq_some.mp hrun
  obtain ⟨verb, hverb⟩ := front_of_clauseSpelled hclause more
  obtain ⟨list', t', htargets', hpasses, -⟩ := targets_complete hr hstands hsymbols
    (by simp [hverb]) nofun
  obtain ⟨-, rfl⟩ := Prod.mk.inj (htargets.symm.trans htargets')
  rw [hpasses.symbols] at hsymbols
  have hpaces (targets : List Target) : (clause inInit >>= fun said ↦ semicolon >>= fun _ ↦
      pure ⟨targets, said⟩ : Attempt DeviceStatement).Paces :=
    (composes_paces.clause inInit).bind fun _ ↦
      (composes_paces.expect _ _).bind fun _ ↦ composes_paces.pure _
  obtain ⟨n, rfl⟩ := hpaces list _ _ _ hrun
  exact ⟨list, t, n, htargets, hpasses.ready, List.append_cancel_left hsymbols, rfl⟩

/-- The table after a sentence: the names of its list are met, those in what is said of them, and
the symbol behind it. -/
theorem names_deviceStatement {inInit : Bool} {written : NameList} {said : Clause}
    {u : List Symbol} {names : List String} {statement : DeviceStatement} (hr : r.Ready .declare)
    (hclause : ClauseSpelled said u) (hstands : written.names? = some names)
    (hsymbols : r.symbols = written.symbols ++ u ++ [.sign .semicolon] ++ symbol :: more)
    (hrun : (deviceStatement inInit).run r = (some statement, s))
    (hrest : s.symbols = symbol :: more) :
    s.names = r.names.meetAll .declare (written.later ++ namesIn u ++ namesIn [symbol]) := by
  rw [List.append_assoc, List.append_assoc] at hsymbols
  obtain ⟨list, t, n, htargets, ht, hsaid, rfl⟩ :=
    exists_iterate_of_deviceStatement hr hclause hstands hsymbols hrun
  obtain ⟨verb, said', rfl⟩ : ∃ verb said', u = .keyword verb :: said' := by
    cases hclause <;> exact ⟨_, _, rfl⟩
  have hlist : t.names = r.names.meetAll .declare written.later :=
    names_targets hr hsymbols htargets hsaid
  rw [← List.append_assoc] at hsaid
  rw [ht.names_iterate hsaid hrest, hlist, ← Names.meetAll_append, List.append_assoc,
    List.append_assoc]
  refine congrArg _ (congrArg _ ?_)
  rw [List.cons_append, List.cons_append, List.tail_cons, namesIn_append]
  rfl

end Attempt

/-! ### The `devices` section -/

variable {settings : Settings} {b : Builder} {d : Draft}

/-- A sentence of the `devices` section, in front of a builder. -/
theorem names_introduce {written : NameList} {said : Clause} {u : List Symbol}
    (hb : Shows settings .declare d b) (hclause : ClauseSpelled said u)
    (hsymbols : b.reader.symbols = written.symbols ++ u ++ [.sign .semicolon] ++ symbol :: more)
    (hallowed : Act.introduce.allowed d ⟨written, said⟩) :
    (Builder.statement (deviceStatement false) Builder.declareAll b).reader.names =
      b.reader.names.meetAll .declare (written.later ++ namesIn u ++ namesIn [symbol]) := by
  obtain ⟨hcycles, names, hstands, -⟩ := id hallowed
  obtain ⟨statement, r, hrun, hstates⟩ : ∃ statement r,
      (deviceStatement false).run b.reader = (some statement, r) ∧
        States .declare false statement ⟨written, said⟩ names _ b.reader r :=
    deviceStatement_complete hb.ready (.intro hclause) hsymbols hstands nofun hcycles nofun
  have hrest := hstates.passes.symbols
  rw [hsymbols] at hrest
  rw [statement_of_run hrun, ((hstates.carried hb).2 hallowed).2.1]
  exact names_deviceStatement hb.ready hclause hstands hsymbols hrun
    (List.append_cancel_left hrest).symm

/-- A sentence begins with a name of its list. -/
theorem exists_first_of_sentence {sentence : Sentence} (h : SentenceSpelled sentence used) :
    ∃ first rest, used = .name first :: rest ∧ first ∈ sentence.names.written := by
  obtain @⟨list, said, u, -⟩ := h
  cases list with
  | several first others => exact ⟨first, _, rfl, List.mem_cons_self⟩
  | range first last => exact ⟨first, _, rfl, List.mem_cons_self⟩

theorem NameList.mem_met_of_later {list : NameList} {name : String} (h : name ∈ list.later) :
    name ∈ list.met := by
  cases list with
  | several first others =>
    exact List.mem_append_left _ (List.mem_cons_of_mem first h)
  | range first last =>
    rcases List.mem_cons.mp h with rfl | hstood
    · exact List.mem_append_left _ (List.mem_cons_of_mem _ List.mem_cons_self)
    · exact List.mem_append_right _ hstood

/-- The `devices` section from a sentence on: the sentence is carried out, and the section goes on
behind it. -/
theorem body_of_sentence {sentence : Sentence} (h : SentenceSpelled sentence used)
    (hb : Shows settings .declare d b) (hsymbols : b.reader.symbols = used ++ more)
    (hallowed : Act.introduce.allowed d sentence) :
    b.body .devices =
        (Builder.statement (deviceStatement false) Builder.declareAll b).body .devices ∧
      Done settings .declare used (Act.introduce.after d sentence) b
        (Builder.statement (deviceStatement false) Builder.declareAll b) := by
  obtain ⟨first, said, rfl⟩ := exists_name_of_sentence h
  rw [Builder.body_eq, Builder.body_eq]
  exact ⟨Builder.untilSectionEnd_of_inside (inside_of_name hsymbols),
    enactsPhrases_introduce.complete hb (Names.Extends.refl _) h hsymbols hallowed⟩

/-- What is met in a sentence that only sets what is there are names of its list. -/
theorem mem_met_of_fits {written : NameList} {said : Clause} (h : ClauseSpelled said used)
    (hfits : FitsInit said) {name : String} (hname : name ∈ written.later ++ namesIn used) :
    name ∈ written.met := by
  rw [namesIn_of_fits h hfits, List.append_nil] at hname
  exact written.mem_met_of_later hname

/-- Sentences of the `devices` section meet some names, whatever the table holds before them and
whatever stands behind them; the symbol behind them is met as well. Where they only set what is
there, these are names of their lists. -/
theorem exists_met_of_sentences {sentences : List Sentence}
    (hspelled : Spelled SentenceSpelled sentences used)
    (hallowed : Act.introduce.each.allowed d sentences) :
    ∃ met, ((∀ sentence ∈ sentences, FitsInit sentence.clause) →
        ∀ name ∈ met, ∃ sentence ∈ sentences, name ∈ sentence.names.met) ∧
      ∀ {b : Builder} {symbol : Symbol} {more : List Symbol}, Shows settings .declare d b →
        b.reader.symbols = used ++ symbol :: more → ∃ b₁, b.body .devices = b₁.body .devices ∧
          Done settings .declare used (Act.introduce.each.after d sentences) b b₁ ∧
          b₁.reader.names = b.reader.names.meetAll .declare (met ++ namesIn [symbol]) := by
  induction hspelled generalizing d with
  | nil =>
    refine ⟨[], nofun, fun {b} _ _ hb hsymbols ↦ ⟨b, rfl, .refl hb, ?_⟩⟩
    exact (Names.meetAll_of_has (hb.ready.known_front hsymbols)).symm
  | @cons sentence sentences u v hsentence hrest ih =>
    obtain ⟨met, hmet, hlater⟩ := ih hallowed.2
    obtain @⟨written, said, w, hclause⟩ := id hsentence
    cases hrest with
    | nil =>
      refine ⟨written.later ++ namesIn w, fun hfits name hname ↦ ⟨_, List.mem_cons_self,
        mem_met_of_fits hclause (hfits _ List.mem_cons_self) hname⟩, fun hb hsymbols ↦ ?_⟩
      rw [List.append_nil] at hsymbols
      obtain ⟨hbody, hdone⟩ := body_of_sentence hsentence hb hsymbols hallowed.1
      refine ⟨_, hbody, ?_, names_introduce hb hclause hsymbols hallowed.1⟩
      rw [List.append_nil]
      exact hdone
    | @cons second _ _ _ hsecond _ =>
      -- the name that the next sentence begins with is met while this one is read
      obtain ⟨first, rest, rfl, hfirst⟩ := exists_first_of_sentence hsecond
      refine ⟨written.later ++ namesIn w ++ [first] ++ met, fun hfits name hname ↦ ?_,
        fun hb hsymbols ↦ ?_⟩
      · obtain ⟨hfit, hfits⟩ := List.forall_mem_cons.mp hfits
        rcases List.mem_append.mp hname with hname | hname
        · rcases List.mem_append.mp hname with hname | hname
          · exact ⟨_, List.mem_cons_self, mem_met_of_fits hclause hfit hname⟩
          · refine ⟨second, List.mem_cons_of_mem _ List.mem_cons_self, ?_⟩
            exact List.mem_append_left _ (List.mem_singleton.mp hname ▸ hfirst)
        · obtain ⟨sentence, hsentence, hname⟩ := hmet hfits name hname
          exact ⟨sentence, List.mem_cons_of_mem _ hsentence, hname⟩
      · rw [List.append_assoc] at hsymbols
        obtain ⟨hbody, hdone⟩ := body_of_sentence hsentence hb hsymbols hallowed.1
        obtain ⟨b₁, hbody₁, hdone₁, hnames⟩ := hlater hdone.shows (hdone.rest hsymbols)
        refine ⟨b₁, hbody.trans hbody₁, hdone.trans hdone₁, ?_⟩
        rw [hnames, names_introduce hb hclause hsymbols hallowed.1, ← Names.meetAll_append]
        refine congrArg _ ?_
        simp [namesIn, Symbol.name]

end Breadboard.Description
