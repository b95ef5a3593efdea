import Breadboard.Proofs.Description.Parsing
import Breadboard.Proofs.Network.Reachable

/-!
# What the ends of sections vouch for

When the `devices` section closes every gate has inputs, and when the `connections` section closes
every input has a driver, or else something is filed. No section that may come later undoes either,
so a description about which nothing is filed leaves no gate without inputs and no input without a
driver, whatever was in the tables before (`checked_parse`).
-/

set_option autoImplicit false
set_option relaxedAutoImplicit false

namespace Breadboard

namespace Network

variable {n m k : Network} {id : NameId}

theorem devicesWithoutInputs_eq_nil_iff : n.devicesWithoutInputs = [] ↔
    ∀ d ∈ n.devices, d.kind.isSource = true ∨ d.pins ≠ [] := by
  rw [devicesWithoutInputs, List.map_eq_nil_iff, List.filter_eq_nil_iff]
  refine forall₂_congr fun d _ ↦ ?_
  cases d.kind.isSource <;> simp

theorem unconnected_eq_nil_iff : n.unconnected = [] ↔
    ∀ d ∈ n.devices, ∀ pin ∈ d.pins, pin.driver ≠ none := by
  rw [unconnected, List.flatMap_eq_nil_iff]
  refine forall₂_congr fun d _ ↦ ?_
  rw [List.map_eq_nil_iff, List.filter_eq_nil_iff]
  simp

/-- Gates that have inputs keep them, and so do inputs that have drivers. -/
structure Keeps (n m : Network) : Prop where
  inputs : n.devicesWithoutInputs = [] → m.devicesWithoutInputs = []
  drivers : n.unconnected = [] → m.unconnected = []

theorem Keeps.refl (n : Network) : n.Keeps n :=
  ⟨id, id⟩

theorem Keeps.trans (h : n.Keeps m) (h' : m.Keeps k) : n.Keeps k :=
  ⟨h'.inputs ∘ h.inputs, h'.drivers ∘ h.drivers⟩

theorem keeps_update {f : Device → Device}
    (hinputs : ∀ d, d.kind.isSource = true ∨ d.pins ≠ [] →
      (f d).kind.isSource = true ∨ (f d).pins ≠ [])
    (hdrivers : ∀ d, (∀ pin ∈ d.pins, pin.driver ≠ none) → ∀ pin ∈ (f d).pins, pin.driver ≠ none) :
    n.Keeps (n.update id f) := by
  constructor
  · intro h
    rw [devicesWithoutInputs_eq_nil_iff] at h ⊢
    rw [devices_update, List.forall_mem_map]
    intro d hd
    split
    · exact hinputs d (h d hd)
    · exact h d hd
  · intro h
    rw [unconnected_eq_nil_iff] at h ⊢
    rw [devices_update, List.forall_mem_map]
    intro d hd
    split
    · exact hdrivers d (h d hd)
    · exact h d hd

/-- A device that becomes a switch or a clock needs no inputs. -/
theorem keeps_mapElement {element : Element} (hsource : element.kind.isSource = true) :
    n.Keeps (n.update id (Device.mapElement fun _ ↦ element)) :=
  keeps_update (fun _ _ ↦ .inl hsource) fun _ h ↦ h

end Network

namespace Description

open Attempt

variable {n m : Network} {id : NameId} {clause : Clause}

theorem keeps_declare (hfits : FitsInit clause) (h : n.declare id clause = .ok m) : n.Keeps m := by
  cases Network.declared_of_declare h with
  | define | inputs => exact hfits.elim
  | halfPeriod | level => exact Network.keeps_mapElement rfl

theorem keeps_connect {source : Terminal} {target input : NameId}
    (h : n.connect source target input = .ok m) : n.Keeps m := by
  rw [Network.connect_eq_update (congrArg Except.toOption h)]
  refine Network.keeps_update (fun d hd ↦ hd.imp_right fun hpins ↦ ?_) fun d hd pin hpin ↦ ?_
  · simpa [Device.drive] using hpins
  · obtain ⟨before, hbefore, rfl⟩ := List.mem_map.mp hpin
    split
    · exact Option.some_ne_none _
    · exact hd before hbefore

/-! ### What may be said -/

/-- What may be said of a device: in an `init` section no definition and no number of inputs, and
nowhere a half-period of nothing. -/
structure Admissible (inInit : Bool) (said : Clause) : Prop where
  fits : inInit = true → FitsInit said
  cycles : ∀ cycles, said = .halfPeriod cycles → 1 ≤ cycles

theorem admissible_of_halfPeriod {inInit : Bool} {r s : Reader}
    (h : halfPeriod.run r = (some clause, s)) : Admissible inInit clause := by
  obtain ⟨⟨cycles, position⟩, t, -, h⟩ := run_bind_eq_some.mp h
  dsimp only at h
  split at h
  · cases h
  · next hcycles =>
    cases h
    refine ⟨fun _ ↦ trivial, fun other hother ↦ ?_⟩
    exact Clause.halfPeriod.inj hother ▸ Nat.one_le_iff_ne_zero.mpr hcycles

theorem admissible_of_switchLevel {inInit : Bool} {r s : Reader}
    (h : switchLevel.run r = (some clause, s)) : Admissible inInit clause := by
  rw [run_switchLevel] at h
  obtain ⟨⟨value, position⟩, t, -, h⟩ := run_bind_eq_some.mp h
  dsimp only at h
  split at h
  · cases h
    exact ⟨fun _ ↦ trivial, fun _ ↦ Clause.noConfusion⟩
  · cases h
    exact ⟨fun _ ↦ trivial, fun _ ↦ Clause.noConfusion⟩
  · cases h

theorem admissible_of_possession {inInit : Bool} {r s : Reader}
    (h : (possession inInit).run r = (some clause, s)) : Admissible inInit clause := by
  rw [possession, run_current_bind, run_advance_bind, run_current_bind] at h
  split at h
  · exact admissible_of_halfPeriod h
  · split at h
    · cases h
    · next hinInit =>
      obtain ⟨count, t, -, h⟩ := run_bind_eq_some.mp h
      cases h
      exact ⟨fun h ↦ absurd h hinInit, fun _ ↦ Clause.noConfusion⟩

theorem admissible_of_definition {inInit : Bool} {r s : Reader}
    (h : (definition inInit).run r = (some clause, s)) : Admissible inInit clause := by
  rw [definition, run_current_bind] at h
  split at h
  · cases h
  · next hinInit =>
    rw [run_advance_bind] at h
    obtain ⟨kind, t, -, h⟩ := run_bind_eq_some.mp h
    cases h
    exact ⟨fun h ↦ absurd h hinInit, fun _ ↦ Clause.noConfusion⟩

theorem admissible_of_clause {inInit : Bool} {r s : Reader} {said : Clause}
    (h : (Description.clause inInit).run r = (some said, s)) : Admissible inInit said := by
  rw [Description.clause, run_current_bind] at h
  split at h
  · exact admissible_of_definition h
  · exact admissible_of_definition h
  · exact admissible_of_possession h
  · exact admissible_of_possession h
  · exact admissible_of_switchLevel h
  · split at h <;> cases h

theorem admissible_of_run {inInit : Bool} {r s : Reader} {statement : DeviceStatement}
    (h : (deviceStatement inInit).run r = (some statement, s)) :
    Admissible inInit statement.clause := by
  obtain ⟨targets, t, -, h⟩ := run_bind_eq_some.mp h
  obtain ⟨said, u, hclause, h⟩ := run_bind_eq_some.mp h
  obtain ⟨_, v, -, h⟩ := run_bind_eq_some.mp h
  cases h
  exact admissible_of_clause hclause

/-! ### What the statements of a section leave alone -/

/-- The headings that were passed are still the same, and the network is one of a kind. -/
structure Stays (seen : List Heading) (Q : Network → Prop) (b : Builder) : Prop where
  passed : b.seen = seen
  network : Q b.network

variable {seen : List Heading} {Q : Network → Prop} {b : Builder} {heading : Heading}

theorem Stays.reads (h : Stays seen Q b) (r : Reader) : Stays seen Q { b with reader := r } :=
  ⟨h.passed, h.network⟩

theorem Stays.foldl {τ : Type} {f : Builder → τ → Builder}
    (hf : ∀ b x, Stays seen Q b → Stays seen Q (f b x)) (h : Stays seen Q b) (list : List τ) :
    Stays seen Q (list.foldl f b) := by
  induction list generalizing b with
  | nil => exact h
  | cons x list ih => exact ih (hf b x h)

theorem Stays.statement {σ : Type} {form : Attempt σ} {act : Builder → σ → Builder}
    (hact : ∀ b r s x, form.run r = (some x, s) → Stays seen Q b → Stays seen Q (act b x))
    (h : Stays seen Q b) : Stays seen Q (b.statement form act) := by
  rw [Builder.statement_eq]
  split
  · next x s hrun => exact hact _ _ _ x hrun (h.reads s)
  · next s _ => exact h.reads _

theorem Stays.untilSectionEnd {step : Builder → Builder}
    (hstep : ∀ b, Stays seen Q b → Stays seen Q (step b))
    {progress : ∀ b : Builder, b.reader.atSectionEnd = false →
      (step b).reader.unread < b.reader.unread}
    (h : Stays seen Q b) : Stays seen Q (b.untilSectionEnd step progress) := by
  induction b using Builder.induction_untilSectionEnd progress with
  | stop b hover => exact (Builder.untilSectionEnd_of_end hover).symm ▸ h
  | next b hinside ih => exact (Builder.untilSectionEnd_of_inside hinside).symm ▸ ih (hstep b h)

theorem Stays.declareAll {statement : DeviceStatement}
    (hdeclare : ∀ n m id, n.declare id statement.clause = .ok m → Q n → Q m)
    (h : Stays seen Q b) : Stays seen Q (b.declareAll statement) := by
  rw [Builder.declareAll_eq]
  refine h.foldl (fun b target hb ↦ ?_) statement.targets
  rw [Builder.declare_eq]
  split
  · next m hm => exact ⟨hb.passed, hdeclare _ m _ hm hb.network⟩
  · exact hb.reads _

theorem Stays.connect (hconnect : ∀ n m source target input,
      n.connect source target input = .ok m → Q n → Q m)
    (h : Stays seen Q b) (target : NameId) (connection : Connection) :
    Stays seen Q (b.connect target connection) := by
  rw [Builder.connect_eq]
  split
  · next m hm => exact ⟨h.passed, hconnect _ m _ _ _ hm h.network⟩
  · exact h.reads _

theorem Stays.watchAll (h : Stays seen Q b) (outputs : List OutputMention) :
    Stays seen Q (b.watchAll outputs) := by
  rw [Builder.watchAll_eq]
  refine h.foldl (fun b output hb ↦ ?_) outputs
  rw [Builder.watch_eq]
  split
  · exact ⟨hb.passed, hb.network⟩
  · exact hb.reads _

theorem Stays.blockFor (hconnect : ∀ n m source target input,
      n.connect source target input = .ok m → Q n → Q m)
    (h : Stays seen Q b) (header : Token) : Stays seen Q (b.blockFor header) := by
  rw [Builder.blockFor_eq]
  split
  · next block _ =>
    refine h.statement fun b _ _ _ _ hb ↦ ?_
    rw [Builder.blockBody_eq]
    refine Stays.statement (fun _ _ _ _ _ hb ↦ hb) (hb.untilSectionEnd fun b hb ↦ ?_)
    exact hb.statement fun b _ _ connection _ hb ↦ hb.connect hconnect block connection
  · exact h.reads _

/-- Networks of a kind stay of that kind through what a section with a given heading may do. -/
structure Survives (heading : Heading) (Q : Network → Prop) : Prop where
  declare : ∀ n m id clause, heading = .devices ∨ FitsInit clause →
    n.declare id clause = .ok m → Q n → Q m
  connect : ∀ n m source target input, n.connect source target input = .ok m → Q n → Q m

theorem survives_trivial (heading : Heading) : Survives heading fun _ ↦ True :=
  ⟨fun _ _ _ _ _ _ _ ↦ trivial, fun _ _ _ _ _ _ _ ↦ trivial⟩

/-- After the `devices` section no gate loses its inputs, and no input its driver. -/
theorem survives_keeps (hheading : heading ≠ .devices) (n : Network) :
    Survives heading n.Keeps where
  declare _ _ _ _ hclause hm hn := hn.trans (keeps_declare (hclause.resolve_left hheading) hm)
  connect _ _ _ _ _ hm hn := hn.trans (keeps_connect hm)

/-- What a section says is nothing but declarations, connections and watches. -/
theorem stays_body (hQ : Survives heading Q) (h : Stays seen Q b) :
    Stays seen Q (b.body heading) := by
  rw [Builder.body_eq]
  cases heading with
  | devices =>
    refine h.untilSectionEnd fun b hb ↦ hb.statement fun b _ _ statement _ hb ↦ ?_
    exact hb.declareAll fun n m id ↦ hQ.declare n m id statement.clause (.inl rfl)
  | init =>
    refine h.untilSectionEnd fun b hb ↦ hb.statement fun b _ _ statement hrun hb ↦ ?_
    exact hb.declareAll fun n m id ↦
      hQ.declare n m id statement.clause (.inr ((admissible_of_run hrun).fits rfl))
  | connections =>
    refine h.untilSectionEnd fun b hb ↦ hb.statement fun b _ _ header _ hb ↦ ?_
    exact hb.blockFor hQ.connect header
  | monitor =>
    refine h.untilSectionEnd fun b hb ↦ hb.statement fun b _ _ outputs _ hb ↦ ?_
    exact hb.watchAll outputs

/-- Where a section closes without a complaint, nothing is missing any more. -/
theorem Stays.close (h : Stays seen Q b) (hquiet : (b.close heading).reader.log = []) :
    Stays seen Q (b.close heading) ∧ (b.close heading).shortfalls heading = [] := by
  rw [Builder.close_eq] at hquiet ⊢
  obtain ⟨-, hshort⟩ := log_fileAll_eq_nil hquiet
  rw [hshort]
  refine ⟨?_, hshort⟩
  rw [Builder.passEnd]
  split
  · exact h.reads _
  · exact h.reads _

/-! ### Sections one after another -/

/-- What the sections that were passed vouch for. -/
structure Vouched (b : Builder) : Prop where
  order : .connections ∈ b.seen → .devices ∈ b.seen
  inputs : .devices ∈ b.seen → b.network.devicesWithoutInputs = []
  drivers : .connections ∈ b.seen → b.network.unconnected = []

theorem network_note (b : Builder) (heading : Heading) : (b.note heading).network = b.network := by
  rw [Builder.note]
  split <;> rfl

/-- A section about which nothing is filed says what its heading lets it say, and nothing is missing
where it closes. -/
theorem stays_parseSection (hQ : Survives heading Q) (hnetwork : Q b.network)
    (hquiet : (b.parseSection heading).reader.log = []) :
    Stays (b.seen ++ [heading]) Q (b.parseSection heading) ∧
      (b.parseSection heading).shortfalls heading = [] := by
  obtain ⟨hnew, -, hparse⟩ := parseSection_of_quiet hquiet
  have hopened : Stays (b.seen ++ [heading]) Q (opened b heading) :=
    ⟨seen_opened hnew, (network_note b heading).symm ▸ hnetwork⟩
  rw [hparse] at hquiet ⊢
  exact (stays_body hQ hopened).close hquiet

theorem vouched_parseSection (h : Vouched b) (hdue : ¬(heading ≠ .devices ∧ .devices ∉ b.seen))
    (hquiet : (b.parseSection heading).reader.log = []) : Vouched (b.parseSection heading) := by
  by_cases hdevices : heading = .devices
  · subst hdevices
    have hnew := not_mem_seen_of_quiet hquiet
    obtain ⟨hstays, hshort⟩ := stays_parseSection (survives_trivial _) trivial hquiet
    -- `devices` is the first section, so there is nothing yet that `connections` vouches for
    have hconnections : Heading.connections ∉ (b.parseSection .devices).seen := by
      rw [hstays.passed]
      simpa using fun hmem ↦ hnew (h.order hmem)
    refine ⟨fun hmem ↦ absurd hmem hconnections, fun _ ↦ ?_, fun hmem ↦ absurd hmem hconnections⟩
    rw [Builder.shortfalls_eq] at hshort
    exact List.map_eq_nil_iff.mp hshort
  · obtain ⟨hstays, hshort⟩ :=
      stays_parseSection (survives_keeps hdevices b.network) (Network.Keeps.refl _) hquiet
    have hseen : Heading.devices ∈ b.seen := by_contra fun hmem ↦ hdue ⟨hdevices, hmem⟩
    refine ⟨fun _ ↦ ?_, fun _ ↦ hstays.network.inputs (h.inputs hseen), fun hmem ↦ ?_⟩
    · exact hstays.passed ▸ List.mem_append_left _ hseen
    · rw [hstays.passed, List.mem_append, List.mem_singleton] at hmem
      rcases hmem with hbefore | rfl
      · exact hstays.network.drivers (h.drivers hbefore)
      · rw [Builder.shortfalls_eq] at hshort
        exact List.map_eq_nil_iff.mp hshort

/-- A description about which nothing is filed leaves no gate without inputs and no input without a
driver, whatever it was built on. -/
theorem checked_parse (h : Vouched b) (hquiet : b.parse.reader.log = []) :
    b.parse.network.devicesWithoutInputs = [] ∧ b.parse.network.unconnected = [] := by
  induction b using Builder.induction_parse with
  | ended b hend =>
    rw [Builder.parse_ended hend] at hquiet ⊢
    obtain ⟨-, hmissing⟩ := log_fileAll_eq_nil hquiet
    obtain ⟨hdevices, hconnections⟩ := missing_eq_nil_iff.mp hmissing
    rw [hmissing]
    exact ⟨h.inputs hdevices, h.drivers hconnections⟩
  | beforeDevices b hend heading hheading hearly =>
    rw [Builder.parse_beforeDevices hend hheading hearly] at hquiet
    exact (log_file_ne _ _ _ hquiet).elim
  | heading b hend heading hheading hdue ih =>
    rw [Builder.parse_heading hend hheading hdue] at hquiet ⊢
    exact ih (vouched_parseSection h hdue (by_contra fun h ↦ lasting_filed.parse h hquiet)) hquiet
  | stray b hend hheading ih =>
    rw [Builder.parse_stray hend hheading] at hquiet
    refine (lasting_filed.parse ?_ hquiet).elim
    exact lasting_filed.reaches (Reader.reaches_skipTo _ _) (log_file_ne _ _ _)

end Description

end Breadboard
