import Breadboard.Proofs.Description.Layout
import Breadboard.Proofs.Description.WellFormed

/-!
# Half-periods

The half-period of a clock is one cycle until a sentence says another, and what a sentence says is a
number of the text. A number of more than `2 ^ 32 - 1` is not read, so no clock of a loaded circuit
has a longer half-period (`halfPeriod_le_of_load`).
-/

set_option autoImplicit false
set_option relaxedAutoImplicit false

namespace Breadboard.Description

variable {σ α : Type} {P : Nat → Prop} {s : Schematic} {d : Draft} {name : String}

/-! ### Numbers of a text -/

/-- A number that is read off a text is not too large. -/
theorem number_le_of_mem {text : String} {tokens : List Token} {value : Nat}
    (hread : (Cursor.start text).readings.1 = tokens.map Reading.token)
    (h : .sign (.number value) ∈ tokens.map Token.symbol) : value ≤ 2 ^ 32 - 1 := by
  obtain ⟨token, htoken, hsymbol⟩ := List.mem_map.mp h
  have hlexeme : token.lexeme = .number value := congrArg Symbol.lexeme hsymbol
  have hmem : Reading.token token ∈ (Cursor.start text).readings.1 :=
    hread ▸ List.mem_map_of_mem htoken
  obtain ⟨written, after, -, hpiece⟩ := Cursor.spells_of_mem_readings hmem
  rw [hlexeme] at hpiece
  cases hpiece with
  | number _ hle => exact hle
  | sign hsign => simp [signs] at hsign

/-- The half-period that a sentence says is one of its numbers. -/
theorem number_mem_of_sentenceSpelled {sentence : Sentence} {used : List Symbol} {cycles : Nat}
    (h : SentenceSpelled sentence used) (hclause : sentence.clause = .halfPeriod cycles) :
    .sign (.number cycles) ∈ used := by
  obtain @⟨names, clause, u, hspelled⟩ := h
  obtain rfl : clause = .halfPeriod cycles := hclause
  cases hspelled with
  | halfPeriod _ => simp

/-! ### Half-periods that are said -/

/-- Every clock has a half-period of a kind. -/
def Schematic.Paced (P : Nat → Prop) (s : Schematic) : Prop :=
  ∀ part ∈ s.parts, ∀ cycles, part.component = .clock cycles → P cycles

/-- A half-period that is said is of a kind. -/
def Sentence.Paced (P : Nat → Prop) (sentence : Sentence) : Prop :=
  ∀ cycles, sentence.clause = .halfPeriod cycles → P cycles

/-- Every half-period that is said in a section is of a kind. -/
def Section.Paced (P : Nat → Prop) : Section → Prop
  | .devices sentences | .init sentences => ∀ sentence ∈ sentences, sentence.Paced P
  | .connections _ | .monitor _ => True

/-- What each of several statements keeps, all of them keep. -/
theorem Act.after_each_induction {act : Act σ α} {Q : σ → Prop} {items : List α}
    (hstep : ∀ s, ∀ item ∈ items, Q s → Q (act.after s item)) {s : σ} (h : Q s) :
    Q (act.each.after s items) := by
  induction items generalizing s with
  | nil => exact h
  | cons item items ih =>
    exact ih (fun s other hother ↦ hstep s other (List.mem_cons_of_mem item hother))
      (hstep s item List.mem_cons_self h)

theorem Schematic.Paced.modify (h : s.Paced P) {g : Part → Part}
    (hg : ∀ part, ∀ cycles, (g part).component = .clock cycles →
      P cycles ∨ part.component = .clock cycles) : (s.modify name g).Paced P := by
  intro changed hchanged cycles hclock
  obtain ⟨part, hpart, rfl⟩ := List.mem_map.mp hchanged
  split at hclock
  · exact (hg part cycles hclock).elim id (h part hpart cycles)
  · exact h part hpart cycles hclock

/-- A new clock takes one cycle, and an old one what is said of it. -/
theorem Schematic.Paced.declare (hone : P 1) (h : s.Paced P) {clause : Clause}
    (hclause : ∀ cycles, clause = .halfPeriod cycles → P cycles) :
    ((Act.declare clause).after s name).Paced P := by
  cases clause with
  | define kind =>
    intro part hpart cycles hclock
    rcases List.mem_append.mp hpart with hold | hnew
    · exact h part hold cycles hclock
    · rw [List.mem_singleton.mp hnew, Part.fresh] at hclock
      cases kind <;> cases hclock
      exact hone
  | inputs count =>
    exact h.modify fun part cycles hclock ↦ .inr (Part.component_give part count ▸ hclock)
  | halfPeriod said =>
    refine h.modify fun part cycles hclock ↦ .inl ?_
    exact hclause cycles (congrArg Clause.halfPeriod (Component.clock.inj hclock))
  | level level => exact h.modify fun part cycles hclock ↦ by cases hclock

theorem Schematic.Paced.sentence (hone : P 1) (h : s.Paced P) {sentence : Sentence}
    (hsaid : sentence.Paced P) : (Act.sentence.after s sentence).Paced P :=
  Act.after_each_induction (fun _ _ _ h ↦ h.declare hone hsaid) h

theorem Schematic.Paced.link (h : s.Paced P) (link : Link) : (Act.link.after s link).Paced P := by
  refine h.modify (g := Part.drive link.input link.source) fun part cycles hclock ↦ .inr ?_
  exact hclock

/-- A section keeps the half-periods of a kind, if it says no other. -/
theorem Schematic.Paced.body (hone : P 1) (h : d.schematic.Paced P) {part : Section}
    (hsaid : part.Paced P) : (Act.body.after d part).schematic.Paced P := by
  cases part with
  | devices sentences =>
    exact Act.after_each_induction (Q := fun d : Draft ↦ d.schematic.Paced P)
      (fun _ item hitem h ↦ h.sentence hone (hsaid item hitem)) h
  | init sentences =>
    exact Act.after_each_induction (Q := fun d : Draft ↦ d.schematic.Paced P)
      (fun _ item hitem h ↦ h.sentence hone (hsaid item hitem)) h
  | connections blocks =>
    refine Act.after_each_induction (Q := fun d : Draft ↦ d.schematic.Paced P)
      (fun d block _ h ↦ ?_) h
    exact Act.after_each_induction (Q := fun d : Draft ↦ d.schematic.Paced P)
      (fun _ link _ h ↦ h.link link) h
  | monitor watches =>
    refine Act.after_each_induction (Q := fun d : Draft ↦ d.schematic.Paced P)
      (fun d watch _ h ↦ ?_) h
    exact Act.after_each_induction (Q := fun d : Draft ↦ d.schematic.Paced P) (fun _ _ _ h ↦ h) h

/-! ### Loaded circuits -/

/-- The half-periods that a section says are numbers of the text. -/
theorem paced_of_sectionSpelled {part : Section} {used : List Symbol}
    (h : SectionSpelled part used) (hnumber : ∀ value, .sign (.number value) ∈ used → P value) :
    part.Paced P := by
  obtain ⟨hbody⟩ := h
  cases part with
  | devices sentences | init sentences =>
    intro sentence hsentence cycles hclause
    obtain ⟨u, hspelled, hsubset⟩ := exists_spelled_of_mem hbody hsentence
    refine hnumber cycles (List.mem_append_left _ (List.mem_append_right _ (hsubset ?_)))
    exact number_mem_of_sentenceSpelled hspelled hclause
  | connections | monitor => trivial

theorem paced_of_denotes {text : String} (h : Denotes text s) : s.Paced (· ≤ 2 ^ 32 - 1) := by
  obtain ⟨tokens, script, hread, hspelled, -, -, rfl⟩ := h
  refine Act.after_each_induction (Q := fun d : Draft ↦ d.schematic.Paced (· ≤ 2 ^ 32 - 1))
    (fun d part hpart h ↦ ?_) nofun
  obtain ⟨used, hsection, hsubset⟩ := exists_spelled_of_mem hspelled hpart
  exact h.body (by decide) (paced_of_sectionSpelled hsection fun value hvalue ↦
    number_le_of_mem hread (hsubset hvalue))

/-- The half-period of a clock in a loaded circuit is a number that a text can hold. -/
theorem halfPeriod_le_of_load {text : String} {settings : Settings} {c : Circuit}
    (hload : Circuit.load text settings = .ok c) {d : Device} (hd : d ∈ c.network.devices)
    {halfPeriod counter : Nat} {level : Level}
    (helement : d.element = .clock halfPeriod counter level) : halfPeriod ≤ 2 ^ 32 - 1 := by
  obtain ⟨hquiet, rfl⟩ := load_eq_ok_iff.mp hload
  obtain ⟨drawn, hdenotes, hshows⟩ := denotes_of_quiet hquiet
  have hrealizes : Realizes settings ⟨(Circuit.build text settings).reader.names,
      (Circuit.build text settings).network.powerOn, (Circuit.build text settings).monitors⟩
      drawn.schematic := ⟨_, rfl, hshows.depicts⟩
  obtain ⟨part, hpart, hshown⟩ := hrealizes.exists_part hd
  have hsame : Element.clock halfPeriod counter level = part.component.element := by
    rw [← hshown.element, Device.mapElement, Element.maskPower_eq_clock helement]
  cases hcomponent : part.component with
  | clock cycles =>
    rw [hcomponent] at hsame
    rw [(Element.clock.inj hsame).1]
    exact paced_of_denotes hdenotes part hpart cycles hcomponent
  | _ =>
    rw [hcomponent] at hsame
    cases hsame

end Breadboard.Description
