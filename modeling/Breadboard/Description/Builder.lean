import Breadboard.Description.Statement

/-!
# Building while reading

A builder is a reader with the network and the monitors that come of what it has read. A statement
is read as a whole and then acted on. Where reading it fails, it is skipped, and nothing is built;
where one of its devices or outputs cannot be what the statement says, that is filed and the others
are unaffected.

The network may be kept in any form (`Store`), and what is done is carried out in any monad that
says what to do where a name is missing (`Fallback`). Carried out so, an operation has an `M` at the
end of its name. Without it, it is the operation on a builder with a network.
-/

set_option autoImplicit false
set_option relaxedAutoImplicit false

namespace Breadboard.Description

open MonadAttach (CanReturn)
open LawfulMonadAttach (canReturn_bind_imp' eq_of_canReturn_pure)
open Text (Position)

/-- A reader, what has been built of what it has read, and the headings that it has passed. -/
structure Builder (σ : Type := Network) where
  reader : Reader
  network : σ
  monitors : Monitors := {}
  seen : List Heading := []
deriving DecidableEq

namespace Builder

section Operations

variable {m : Type → Type} [Fallback m] {σ : Type}

/-- The builder at the first token of a text. -/
def start (names : Names) (network : σ) (monitors : Monitors) (text : String) : Builder σ :=
  { reader := .start names text, network, monitors }

/-- The builder with its reader replaced by what a function makes of it. -/
def mapReader (f : Reader → Reader) (b : Builder σ) : Builder σ :=
  { b with reader := f b.reader }

/-- The builder with one more report. -/
def file (b : Builder σ) (fault : Fault) (position : Position) : Builder σ :=
  b.mapReader (·.file fault position)

/-- The name with a given number. -/
def nameOf (b : Builder σ) (id : NameId) : String :=
  b.reader.names.nameOf id

/-- The name of an output. -/
def nameOfTerminal (b : Builder σ) (t : Terminal) : String :=
  b.reader.names.nameOfTerminal t

variable [Store m σ]

/-- What a statement says of one device is carried out, or filed as refused. The name of the device
is asked for in any case. -/
def declareM (clause : Clause) (b : Builder σ) (target : Target) : m (Builder σ) := do
  let name ← b.reader.names.nameOfM target.id
  match ← Store.declare b.network target.id clause with
  | .ok network => return { b with network }
  | .error error => return b.file (.declaration name error) target.position

/-- A statement about devices is carried out device by device. -/
def declareAllM (b : Builder σ) (statement : DeviceStatement) : m (Builder σ) :=
  statement.targets.foldlM (declareM statement.clause) b

/-- A connection to an input of a device is made, or filed as refused. -/
def connectM (target : NameId) (b : Builder σ) (connection : Connection) : m (Builder σ) := do
  let source := connection.source.terminal
  match ← Store.connect b.network source target connection.input with
  | .ok network => return { b with network }
  | .error error =>
    let device ← b.reader.names.nameOfM source.device
    let output ← b.reader.names.nameOfTerminalM source
    let input ← b.reader.names.nameOfTerminalM ⟨target, some connection.input⟩
    return b.file (.connection device output input error) connection.source.position

/-- An output is watched, or filed as refused. -/
def watchM (b : Builder σ) (output : OutputMention) : m (Builder σ) := do
  match ← b.monitors.addM b.network output.terminal with
  | .ok monitors => return { b with monitors }
  | .error error =>
    let device ← b.reader.names.nameOfM output.terminal.device
    let name ← b.reader.names.nameOfTerminalM output.terminal
    return b.file (.monitor device name error) output.position

/-- Outputs are watched one after another. -/
def watchAllM (b : Builder σ) (outputs : List OutputMention) : m (Builder σ) :=
  outputs.foldlM watchM b

/-- The device with a given name. -/
def deviceNamedM? (b : Builder σ) (name : String) : m (Option NameId) :=
  b.reader.names.deviceM? b.network name

/-- What is read with an attempt is acted on. Where there is nothing to act on, the statement is
skipped. -/
def statementM {τ : Type} (form : Attempt τ) (act : Builder σ → τ → m (Builder σ))
    (b : Builder σ) : m (Builder σ) :=
  match form.run b.reader with
  | (some s, reader) => act { b with reader } s
  | (none, reader) => return { b with reader := reader.skipStatement }

/-- A step is repeated up to the end of the section. Short of that end, whatever it may come to, it
takes something away from what is unread. -/
def untilSectionEndM (step : Builder σ → m (Builder σ))
    (progress : ∀ b c : Builder σ, b.reader.atSectionEnd = false → CanReturn (step b) c →
      c.reader.unread < b.reader.unread)
    (b : Builder σ) : m (Builder σ) :=
  if _h : b.reader.atSectionEnd = true then return b
  else MonadAttach.pbind (step b) fun c _hc ↦ untilSectionEndM step progress c
termination_by b.reader.unread
decreasing_by exact progress b c (by simpa using _h) _hc

omit [Store m σ] in
theorem untilSectionEndM_eq (step : Builder σ → m (Builder σ))
    (progress : ∀ b c : Builder σ, b.reader.atSectionEnd = false → CanReturn (step b) c →
      c.reader.unread < b.reader.unread) (b : Builder σ) :
    untilSectionEndM step progress b =
      if b.reader.atSectionEnd = true then return b
      else step b >>= untilSectionEndM step progress := by
  rw [untilSectionEndM]
  split
  · rfl
  · exact WeaklyLawfulMonadAttach.pbind_eq_bind

/-! ### Work that only reads on -/

/-- Whatever work may come to, it does nothing to the reader of a builder but read on. -/
def ReadsOn (b : Builder σ) (work : m (Builder σ)) : Prop :=
  ∀ c, CanReturn work c → b.reader.Reaches c.reader

variable {b c : Builder σ} {α τ : Type} {work : m (Builder σ)}

omit [Store m σ] in
theorem ReadsOn.pure (h : b.reader.Reaches c.reader) : b.ReadsOn (pure c : m (Builder σ)) :=
  fun _ hc ↦ eq_of_canReturn_pure hc ▸ h

omit [Store m σ] in
/-- Work that comes to something else first. -/
theorem ReadsOn.after {first : m α} {next : α → m (Builder σ)} (h : ∀ a, b.ReadsOn (next a)) :
    b.ReadsOn (first >>= next) := by
  intro d hd
  obtain ⟨a, -, hd⟩ := canReturn_bind_imp' hd
  exact h a d hd

omit [Store m σ] in
theorem ReadsOn.bind {next : Builder σ → m (Builder σ)} (h : b.ReadsOn work)
    (hnext : ∀ c : Builder σ, c.ReadsOn (next c)) : b.ReadsOn (work >>= next) := by
  intro d hd
  obtain ⟨c, hc, hd⟩ := canReturn_bind_imp' hd
  exact (h c hc).trans (hnext c d hd)

omit [Store m σ] in
theorem ReadsOn.foldlM {f : Builder σ → τ → m (Builder σ)}
    (hf : ∀ (b : Builder σ) t, b.ReadsOn (f b t)) (list : List τ) (b : Builder σ) :
    b.ReadsOn (list.foldlM f b) := by
  induction list generalizing b with
  | nil => exact .pure .refl
  | cons t list ih =>
    rw [List.foldlM_cons]
    exact (hf b t).bind ih

theorem readsOn_declareM (clause : Clause) (b : Builder σ) (target : Target) :
    b.ReadsOn (declareM clause b target : m (Builder σ)) := by
  refine .after fun name ↦ .after fun result ↦ ?_
  cases result with
  | ok => exact .pure .refl
  | error => exact .pure (.file _ _ .refl)

theorem readsOn_declareAllM (b : Builder σ) (statement : DeviceStatement) :
    b.ReadsOn (b.declareAllM statement : m (Builder σ)) :=
  .foldlM (readsOn_declareM statement.clause) statement.targets b

theorem readsOn_connectM (target : NameId) (b : Builder σ) (connection : Connection) :
    b.ReadsOn (connectM target b connection : m (Builder σ)) := by
  refine .after fun result ↦ ?_
  cases result with
  | ok => exact .pure .refl
  | error => exact .after fun _ ↦ .after fun _ ↦ .after fun _ ↦ .pure (.file _ _ .refl)

theorem readsOn_watchM (b : Builder σ) (output : OutputMention) :
    b.ReadsOn (b.watchM output : m (Builder σ)) := by
  refine .after fun result ↦ ?_
  cases result with
  | ok => exact .pure .refl
  | error => exact .after fun _ ↦ .after fun _ ↦ .pure (.file _ _ .refl)

theorem readsOn_watchAllM (b : Builder σ) (outputs : List OutputMention) :
    b.ReadsOn (b.watchAllM outputs : m (Builder σ)) :=
  .foldlM readsOn_watchM outputs b

variable {form : Attempt τ} {act : Builder σ → τ → m (Builder σ)}

omit [Store m σ] in
theorem readsOn_statementM (hact : ∀ (b : Builder σ) s, b.ReadsOn (act b s)) (b : Builder σ) :
    b.ReadsOn (statementM form act b) := by
  have hform := form.reaches b.reader
  unfold statementM
  split
  · next s reader heq =>
    rw [heq] at hform
    exact fun c hc ↦ hform.trans (hact { b with reader } s c hc)
  · next reader heq =>
    rw [heq] at hform
    exact .pure (hform.trans reader.reaches_skipStatement)

omit [Store m σ] in
/-- A statement takes something away from what is unread, whether it is acted on or skipped. -/
theorem unread_statementM_lt (hform : form.Consumes)
    (hact : ∀ (b : Builder σ) s, b.ReadsOn (act b s)) (b c : Builder σ)
    (h : b.reader.atSectionEnd = false)
    (hc : CanReturn (statementM form act b) c) : c.reader.unread < b.reader.unread := by
  have hreaches := form.reaches b.reader
  unfold statementM at hc
  split at hc
  · next s reader heq =>
    exact Nat.lt_of_le_of_lt (hact { b with reader } s c hc).unread_le (hform _ s reader heq)
  · next reader heq =>
    rw [heq] at hreaches
    exact eq_of_canReturn_pure hc ▸ hreaches.unread_skipStatement_lt h

omit [Store m σ] in
theorem readsOn_untilSectionEndM {step : Builder σ → m (Builder σ)}
    (hstep : ∀ b : Builder σ, b.ReadsOn (step b))
    (progress : ∀ b c : Builder σ, b.reader.atSectionEnd = false → CanReturn (step b) c →
      c.reader.unread < b.reader.unread) (b : Builder σ) :
    b.ReadsOn (untilSectionEndM step progress b) := by
  rw [untilSectionEndM_eq]
  split
  · exact .pure .refl
  · next h =>
    intro d hd
    obtain ⟨c, hc, hd⟩ := canReturn_bind_imp' hd
    have hless := progress b c (by simpa using h) hc
    exact (hstep b c hc).trans (readsOn_untilSectionEndM hstep progress c d hd)
termination_by b.reader.unread

end Operations

/-! ### On a network -/

/-- What a statement says of one device is carried out, or filed as refused. -/
def declare (clause : Clause) (b : Builder) (target : Target) : Builder :=
  Id.run (declareM clause b target)

/-- A statement about devices is carried out device by device. -/
def declareAll (b : Builder) (statement : DeviceStatement) : Builder :=
  Id.run (b.declareAllM statement)

/-- A connection to an input of a device is made, or filed as refused. -/
def connect (target : NameId) (b : Builder) (connection : Connection) : Builder :=
  Id.run (connectM target b connection)

/-- An output is watched, or filed as refused. -/
def watch (b : Builder) (output : OutputMention) : Builder :=
  Id.run (b.watchM output)

/-- Outputs are watched one after another. -/
def watchAll (b : Builder) (outputs : List OutputMention) : Builder :=
  Id.run (b.watchAllM outputs)

/-- The device with a given name. -/
def deviceNamed? (b : Builder) (name : String) : Option NameId :=
  Id.run (b.deviceNamedM? name)

/-- What is read with an attempt is acted on. Where there is nothing to act on, the statement is
skipped. -/
def statement {τ : Type} (form : Attempt τ) (act : Builder → τ → Builder) (b : Builder) :
    Builder :=
  Id.run (statementM form act b)

/-- A step is repeated up to the end of the section. Short of that end it takes something away from
what is unread. -/
def untilSectionEnd (step : Builder → Builder)
    (progress : ∀ b : Builder, b.reader.atSectionEnd = false →
      (step b).reader.unread < b.reader.unread)
    (b : Builder) : Builder :=
  Id.run <| untilSectionEndM step
    (fun b c h hc ↦ (show Id.run (step b) = c from hc) ▸ progress b h) b

section Equations

variable {step : Builder → Builder}
  {progress : ∀ b : Builder, b.reader.atSectionEnd = false →
    (step b).reader.unread < b.reader.unread}

theorem declare_eq (clause : Clause) (b : Builder) (target : Target) : declare clause b target =
    match b.network.declare target.id clause with
    | .ok network => { b with network }
    | .error error => b.file (.declaration (b.nameOf target.id) error) target.position := by
  unfold declare declareM
  dsimp only [Store.declare]
  cases b.network.declare target.id clause <;> rfl

theorem declareAll_eq (b : Builder) (statement : DeviceStatement) :
    b.declareAll statement = statement.targets.foldl (declare statement.clause) b :=
  List.idRun_foldlM

theorem connect_eq (target : NameId) (b : Builder) (connection : Connection) :
    connect target b connection =
      match b.network.connect connection.source.terminal target connection.input with
      | .ok network => { b with network }
      | .error error =>
        b.file
          (.connection (b.nameOf connection.source.terminal.device)
            (b.nameOfTerminal connection.source.terminal)
            (b.nameOfTerminal ⟨target, some connection.input⟩) error)
          connection.source.position := by
  unfold connect connectM
  dsimp only [Store.connect]
  cases b.network.connect connection.source.terminal target connection.input <;> rfl

theorem watch_eq (b : Builder) (output : OutputMention) : b.watch output =
    match b.monitors.add b.network output.terminal with
    | .ok monitors => { b with monitors }
    | .error error =>
      b.file (.monitor (b.nameOf output.terminal.device) (b.nameOfTerminal output.terminal) error)
        output.position := rfl

theorem watchAll_eq (b : Builder) (outputs : List OutputMention) :
    b.watchAll outputs = outputs.foldl watch b :=
  List.idRun_foldlM

theorem deviceNamed?_eq (b : Builder) (name : String) :
    b.deviceNamed? name = (b.reader.names.query name).filter b.network.contains :=
  b.reader.names.run_deviceM? b.network name

theorem statement_eq {τ : Type} (form : Attempt τ) (act : Builder → τ → Builder) (b : Builder) :
    statement form act b =
      match form.run b.reader with
      | (some s, reader) => act { b with reader } s
      | (none, reader) => { b with reader := reader.skipStatement } := rfl

theorem untilSectionEnd_eq (b : Builder) : untilSectionEnd step progress b =
    if b.reader.atSectionEnd = true then b else untilSectionEnd step progress (step b) := by
  rw [untilSectionEnd, untilSectionEndM_eq]
  exact apply_ite Id.run ..

theorem untilSectionEnd_of_end {b : Builder} (h : b.reader.atSectionEnd = true) :
    untilSectionEnd step progress b = b := by
  rw [untilSectionEnd_eq, if_pos h]

theorem untilSectionEnd_of_inside {b : Builder} (h : b.reader.atSectionEnd = false) :
    untilSectionEnd step progress b = untilSectionEnd step progress (step b) := by
  rw [untilSectionEnd_eq, if_neg (Bool.eq_false_iff.mp h)]

/-- What holds at the end of a section, and before a step if it holds after it, holds everywhere:
every step takes something away from what is unread. -/
theorem induction_untilSectionEnd {P : Builder → Prop}
    (progress : ∀ b : Builder, b.reader.atSectionEnd = false →
      (step b).reader.unread < b.reader.unread)
    (stop : ∀ b : Builder, b.reader.atSectionEnd = true → P b)
    (next : ∀ b : Builder, b.reader.atSectionEnd = false → P (step b) → P b) (b : Builder) : P b :=
  match h : b.reader.atSectionEnd with
  | true => stop b h
  | false => next b h (induction_untilSectionEnd progress stop next (step b))
termination_by b.reader.unread
decreasing_by exact progress b h

end Equations

/-! ### On a network nothing is done to the reader but read on -/

section Reading

variable {τ : Type} {form : Attempt τ} {act : Builder → τ → Builder}

theorem reaches_declare (clause : Clause) (b : Builder) (target : Target) :
    b.reader.Reaches (declare clause b target).reader :=
  readsOn_declareM (m := Id) clause b target _ rfl

theorem reaches_foldl {f : Builder → τ → Builder}
    (hf : ∀ (b : Builder) t, b.reader.Reaches (f b t).reader) (list : List τ) (b : Builder) :
    b.reader.Reaches (list.foldl f b).reader :=
  ReadsOn.foldlM (m := Id) (fun b t _ hc ↦ hc ▸ hf b t) list b _ List.idRun_foldlM

theorem reaches_declareAll (b : Builder) (statement : DeviceStatement) :
    b.reader.Reaches (b.declareAll statement).reader :=
  readsOn_declareAllM (m := Id) b statement _ rfl

theorem reaches_connect (target : NameId) (b : Builder) (connection : Connection) :
    b.reader.Reaches (connect target b connection).reader :=
  readsOn_connectM (m := Id) target b connection _ rfl

theorem reaches_watch (b : Builder) (output : OutputMention) :
    b.reader.Reaches (b.watch output).reader :=
  readsOn_watchM (m := Id) b output _ rfl

theorem reaches_watchAll (b : Builder) (outputs : List OutputMention) :
    b.reader.Reaches (b.watchAll outputs).reader :=
  readsOn_watchAllM (m := Id) b outputs _ rfl

theorem reaches_statement (hact : ∀ (b : Builder) s, b.reader.Reaches (act b s).reader)
    (b : Builder) : b.reader.Reaches (statement form act b).reader :=
  readsOn_statementM (m := Id) (fun b s _ hc ↦ hc ▸ hact b s) b _ rfl

theorem unread_statement_lt (hform : form.Consumes)
    (hact : ∀ (b : Builder) s, b.reader.Reaches (act b s).reader) (b : Builder)
    (h : b.reader.atSectionEnd = false) :
    (statement form act b).reader.unread < b.reader.unread :=
  unread_statementM_lt (m := Id) hform (fun b s _ hc ↦ hc ▸ hact b s) b _ h rfl

theorem reaches_untilSectionEnd {step : Builder → Builder}
    (hstep : ∀ b : Builder, b.reader.Reaches (step b).reader)
    (progress : ∀ b : Builder, b.reader.atSectionEnd = false →
      (step b).reader.unread < b.reader.unread) (b : Builder) :
    b.reader.Reaches (untilSectionEnd step progress b).reader :=
  readsOn_untilSectionEndM (m := Id) (fun b _ hc ↦ hc ▸ hstep b) _ b _ rfl

end Reading

end Builder

end Breadboard.Description
