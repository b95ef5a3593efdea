import Breadboard.Description.Statement

/-!
# What attempts are made of

Every statement is read with a few primitive attempts, one after another. A property that the
primitives have and that is kept where one attempt follows another is a property of whatever reads
a statement (`Attempt.Composes`). The names of a range are resolved all at once, which is the one
primitive that not every such property holds of.
-/

set_option autoImplicit false
set_option relaxedAutoImplicit false

namespace Breadboard.Description.Attempt

open Text (Position)

/-- A property of the primitive attempts, names of ranges aside, that is kept where attempts are put
together. -/
structure Composes (p : {α : Type} → Attempt α → Prop) : Prop where
  pure {α : Type} (a : α) : p (pure a)
  bind {α β : Type} {m : Attempt α} {f : α → Attempt β} : p m → (∀ a, p (f a)) → p (m >>= f)
  current : p current
  advance : p advance
  numberOf (name : String) : p (numberOf name)
  refuse {α : Type} (fault : Fault) (position : Position) : p (refuse fault position : Attempt α)
  unexpected {α : Type} (what : Expectation) : p (unexpected what : Attempt α)
  commaList {α : Type} {item : Attempt α} : p item → p (commaList item)

namespace Composes

variable {p : {α : Type} → Attempt α → Prop}

theorem expect (h : Composes p) (lexeme : Lexeme) (what : Expectation) :
    p (expect lexeme what) := by
  refine h.bind h.current fun token ↦ ?_
  split
  · exact h.advance
  · exact h.unexpected what

theorem knownName (h : Composes p) (unknown : String → Fault) (what : Expectation) :
    p (knownName unknown what) := by
  refine h.bind h.current fun token ↦ ?_
  split
  · refine h.bind (h.numberOf _) fun id? ↦ ?_
    split
    · exact h.bind h.advance fun _ ↦ h.pure _
    · exact h.refuse _ _
  · exact h.unexpected what

theorem number (h : Composes p) : p number := by
  refine h.bind h.current fun token ↦ ?_
  split
  · exact h.bind h.advance fun _ ↦ h.pure _
  · exact h.unexpected _

theorem separated (h : Composes p) {α : Type} {item : Attempt α} (hitem : p item) :
    p (separated item) :=
  h.bind hitem fun _ ↦ h.bind (h.commaList hitem) fun _ ↦ h.pure _

/-! ### Sentences about devices -/

theorem rangeTargets (h : Composes p) (hresolve : ∀ list, p (resolveAll list))
    (first last : Mention) : p (rangeTargets first last) := by
  unfold Description.rangeTargets
  split
  · exact h.refuse _ _
  · refine h.bind (hresolve _) fun ids ↦ ?_
    split
    · exact h.refuse _ _
    · exact h.pure _

/-- A range of names is resolved all at once, so this has to have the property as well. -/
theorem targets (h : Composes p) (hresolve : ∀ list, p (resolveAll list)) : p targets := by
  refine h.bind (h.knownName _ _) fun first ↦ h.bind h.current fun token ↦ ?_
  split
  · exact h.bind h.advance fun _ ↦ h.bind (h.knownName _ _) (h.rangeTargets hresolve first)
  · exact h.bind (h.commaList (h.knownName _ _)) fun _ ↦ h.pure _

theorem deviceKind (h : Composes p) : p deviceKind := by
  refine h.bind h.current fun token ↦ ?_
  split
  · refine h.bind h.advance fun _ ↦ h.bind h.current fun next ↦ ?_
    split
    · refine h.bind h.advance fun _ ↦ h.bind h.current fun word ↦ ?_
      split
      · exact h.bind h.advance fun _ ↦ h.pure _
      · exact h.unexpected _
    · split
      · exact h.pure _
      · split
        · exact h.refuse _ _
        · exact h.refuse _ _
  · exact h.unexpected _

theorem halfPeriod (h : Composes p) : p halfPeriod := by
  refine h.bind h.number fun ⟨cycles, position⟩ ↦ ?_
  dsimp only
  split
  · exact h.refuse _ _
  · exact h.pure _

theorem levelOf (h : Composes p) (value : Nat) (position : Position) :
    p (match value with
      | 0 => Pure.pure (.level Level.low)
      | 1 => Pure.pure (.level Level.high)
      | _ => Attempt.refuse (.switchLevel value) position : Attempt Clause) := by
  split
  · exact h.pure _
  · exact h.pure _
  · exact h.refuse _ _

theorem switchLevel (h : Composes p) : p switchLevel := by
  refine h.bind h.current fun token ↦ ?_
  dsimp only
  split
  · exact h.bind h.advance fun _ ↦ h.bind h.number fun value ↦ h.levelOf value.1 value.2
  · exact h.bind h.number fun value ↦ h.levelOf value.1 value.2

theorem clause (h : Composes p) (inInit : Bool) : p (clause inInit) := by
  refine h.bind h.current fun verb ↦ ?_
  have hdefine : p (if inInit = true then Attempt.refuse .notInInit verb.position else do
      Attempt.advance
      return .define (← Description.deviceKind) : Attempt Clause) := by
    split
    · exact h.refuse _ _
    · exact h.bind h.advance fun _ ↦ h.bind h.deviceKind fun _ ↦ h.pure _
  have hpossess : p (do
      Attempt.advance
      if (← Attempt.current).lexeme = .keyword .cycle then
        Attempt.advance
        Description.halfPeriod
      else if inInit = true then Attempt.refuse .notInInit verb.position
      else return .inputs (← Description.number).1 : Attempt Clause) := by
    refine h.bind h.advance fun _ ↦ h.bind h.current fun next ↦ ?_
    split
    · exact h.bind h.advance fun _ ↦ h.halfPeriod
    · split
      · exact h.refuse _ _
      · exact h.bind h.number fun _ ↦ h.pure _
  split
  · exact hdefine
  · exact hdefine
  · exact hpossess
  · exact hpossess
  · exact h.bind h.advance fun _ ↦ h.switchLevel
  · split
    · exact h.refuse _ _
    · exact h.unexpected _

/-- So it has to for statements about devices, which start with a list or a range. -/
theorem deviceStatement (h : Composes p) (hresolve : ∀ list, p (resolveAll list))
    (inInit : Bool) : p (deviceStatement inInit) :=
  h.bind (h.targets hresolve) fun _ ↦ h.bind (h.clause inInit) fun _ ↦
    h.bind (h.expect _ _) fun _ ↦ h.pure _

/-! ### Connections and monitors -/

theorem output (h : Composes p) : p output := by
  refine h.bind (h.knownName _ _) fun device ↦ h.bind h.current fun next ↦ ?_
  split
  · exact h.bind h.advance fun _ ↦ h.bind (h.knownName _ _) fun _ ↦ h.pure _
  · exact h.pure _

theorem blockHeader (h : Composes p) : p blockHeader := by
  refine h.bind (h.expect _ _) fun _ ↦ h.bind h.current fun token ↦ ?_
  split
  · exact h.pure _
  · exact h.unexpected _

theorem blockOpening (h : Composes p) : p blockOpening :=
  h.bind h.advance fun _ ↦ h.expect _ _

theorem connection (h : Composes p) (block : NameId) (blockName : String) :
    p (connection block blockName) := by
  refine h.bind h.output fun source ↦ h.bind (h.expect _ _) fun _ ↦
    h.bind (h.knownName _ _) fun target ↦ ?_
  split
  · exact h.bind (h.expect _ _) fun _ ↦ h.bind (h.knownName _ _) fun _ ↦
      h.bind (h.expect _ _) fun _ ↦ h.pure _
  · exact h.refuse _ _

theorem monitorStatement (h : Composes p) : p monitorStatement := by
  refine h.bind h.current fun token ↦ ?_
  dsimp only
  split
  · exact h.bind h.advance fun _ ↦ h.bind (h.separated h.output) fun _ ↦
      h.bind (h.expect _ _) fun _ ↦ h.pure _
  · exact h.bind (h.separated h.output) fun _ ↦ h.bind (h.expect _ _) fun _ ↦ h.pure _

end Composes

end Breadboard.Description.Attempt
