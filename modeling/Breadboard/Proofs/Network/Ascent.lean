import Breadboard.Proofs.Network.Formulas
import Breadboard.Proofs.Simulator.Replay
import Mathlib.Data.Finset.Filter

/-!
# Networks of AND and OR gates climb to rest

The output of an AND or an OR gate does not fall when an input rises. So in a network of such gates
that starts with every gate low, no turn lowers an output: a gate that is high was asked to be, and
is still asked to be when more outputs are high (`supported_refresh`). Each pass that finds
something to do raises a gate, feedback or not, and passes in excess of the gates come to rest
(`settleWithin_of_supported`). No turn raises a gate that is low in some state of rest
(`raised_refresh_subset`), so the rest that is reached is the least of all. Resetting starts with
every gate low, which gives `reset_least`.
-/

set_option autoImplicit false
set_option relaxedAutoImplicit false

namespace Breadboard

open Level (high)

namespace Network

variable {n m k start : Network} {d e : Device} {g : Gate} {name : NameId}

/-- There are no gates but AND and OR gates. -/
def Positive (n : Network) : Prop :=
  ∀ d ∈ n.devices, d.kind.isGate → d.kind = .gate .and ∨ d.kind = .gate .or

instance (n : Network) : Decidable n.Positive :=
  inferInstanceAs (Decidable (∀ d ∈ n.devices, d.kind.isGate → _))

/-- The names of the gates whose output is high. -/
def raised (n : Network) : Finset NameId :=
  n.gateNames.filter fun name ↦ n.output? ⟨name, none⟩ = some high

/-- Every gate whose output is high is asked to have it high. -/
def Supported (n : Network) : Prop :=
  ∀ d ∈ n.devices, ∀ g, d.element = .gate g high → g.evaluate (n.pinLevels d) = high

/-- A network at rest, in which no gate is high that is low in another state of rest under the same
levels of switches, clocks and flip-flops. Every other such state has more gates high. -/
structure LeastRest (n : Network) : Prop where
  consistent : n.Consistent
  least : ∀ m, Alike Element.maskGate n m → m.Consistent → n.raised ⊆ m.raised
  fewest : ∀ m, Alike Element.maskGate n m → m.Consistent → m ≠ n → n.raised.card < m.raised.card

/-! ### Gates that are high -/

theorem mem_raised (hn : n.DistinctNames) (hd : d ∈ n.devices) {output : Level}
    (helement : d.element = .gate g output) : d.id ∈ n.raised ↔ output = high := by
  rw [raised, Finset.mem_filter, output?_of_gate (hn.device?_id hd) helement, Option.some_inj]
  refine and_iff_right (mem_gateNames.mpr ⟨d, hd, ?_, rfl⟩)
  exact Device.isGate_iff.mpr ⟨g, output, helement⟩

theorem exists_of_mem_raised (hn : n.DistinctNames) (h : name ∈ n.raised) :
    ∃ d g, n.device? name = some d ∧ d.element = .gate g high := by
  obtain ⟨d, hd, hgate, rfl⟩ := mem_gateNames.mp (Finset.mem_of_mem_filter name h)
  obtain ⟨g, output, helement⟩ := Device.isGate_iff.mp hgate
  exact ⟨d, g, hn.device?_id hd, (mem_raised hn hd helement).mp h ▸ helement⟩

theorem card_raised_le (n : Network) : n.raised.card ≤ n.gateCount :=
  (Finset.card_le_card (Finset.filter_subset ..)).trans n.card_gateNames_le

/-- Other devices than gates have the same levels in alike networks, so an output that is high stays
high where the gates that are high do. -/
theorem output?_mono (hlike : Alike Element.maskGate n m)
    (hle : n.raised ⊆ m.raised) {t : Terminal} (ht : n.output? t = some high) :
    m.output? t = some high := by
  obtain ⟨d, hd, -⟩ := Option.bind_eq_some_iff.mp ht
  by_cases hgate : d.kind.isGate
  · obtain ⟨id, port⟩ := t
    cases port with
    | some port => rw [output?_named_of_gate hd hgate] at ht; cases ht
    | none =>
      have hname : id ∈ n.gateNames :=
        mem_gateNames.mpr ⟨d, mem_of_device? hd, hgate, id_of_device? hd⟩
      have hraised : id ∈ n.raised := Finset.mem_filter.mpr ⟨hname, ht⟩
      exact (Finset.mem_filter.mp (hle hraised)).2
  · have hshown : d.element.Shown Element.maskGate := by
      refine Element.shown_maskGate fun g hkind ↦ hgate ?_
      rw [Device.kind, hkind]
      rfl
    rwa [output?_congr hlike.ports.symm ((hlike.device?_eq hd hshown).trans hd.symm)]

/-- An AND or an OR gate that is asked to be high is still asked where more gates are high. -/
theorem evaluate_mono (hlike : Alike Element.maskGate n m) (hle : n.raised ⊆ m.raised)
    (hg : g = .and ∨ g = .or) (h : g.evaluate (n.pinLevels d) = high) :
    g.evaluate (m.pinLevels d) = high := by
  have hdriven : ∀ driver, n.drivenLevel driver = high → m.drivenLevel driver = high := by
    intro driver hdriver
    cases driver with
    | none => cases hdriver
    | some t =>
      cases hlevel : n.output? t with
      | none => rw [drivenLevel, Option.bind_some, hlevel] at hdriver; cases hdriver
      | some level =>
        rw [drivenLevel, Option.bind_some, hlevel] at hdriver
        rw [drivenLevel, Option.bind_some, output?_mono hlike hle (hlevel.trans
          (congrArg some hdriver)), Option.getD_some]
  rw [Gate.evaluate_eq_high_iff] at h ⊢
  rcases hg with rfl | rfl
  · refine List.forall_mem_map.mpr fun pin hpin ↦ hdriven _ ?_
    exact List.forall_mem_map.mp h pin hpin
  · obtain ⟨_, hmem, hlevel⟩ := h
    obtain ⟨pin, hpin, rfl⟩ := List.mem_map.mp hmem
    exact ⟨_, List.mem_map_of_mem hpin, hdriven _ hlevel⟩

/-! ### One turn -/

theorem Positive.of_sameWiring (hpositive : n.Positive) (hn : n.DistinctNames)
    (h : SameWiring n m) : m.Positive := by
  intro e he hgate
  obtain ⟨d, hd, -, -, hkind⟩ :=
    SameWiring.exists_device? h.symm ((Alike.distinctNames h hn).device?_id he)
  exact hkind ▸ hpositive d (mem_of_device? hd) (hkind ▸ hgate)

theorem Positive.gate (hpositive : n.Positive) (hd : d ∈ n.devices) {output : Level}
    (helement : d.element = .gate g output) : g = .and ∨ g = .or := by
  have hkind : d.kind = .gate g := congrArg Element.kind helement
  simpa [hkind, Kind.isGate] using hpositive d hd

/-- After the turn of a gate it is high if it was asked to be, and the others are as they were. -/
theorem mem_raised_refresh (hn : start.DistinctNames) (hlike : Alike Element.maskGate start k)
    (hd : d ∈ start.devices) {output : Level} (helement : d.element = .gate g output) :
    name ∈ (k.refresh d).1.raised ↔
      if name = d.id then g.evaluate (k.pinLevels d) = high else name ∈ k.raised := by
  have hturn := alike_refresh hn hlike hd
  have hk := hlike.distinctNames hn
  have hwiring := hturn.sameWiring Element.kind_maskGate
  split
  · next hname =>
    obtain ⟨e, now, he, hid, -, hcurrent⟩ := exists_current hn hlike hd helement
    obtain rfl : name = e.id := hname.trans hid.symm
    have hafter : (k.refresh d).1.device? e.id =
        some (e.mapElement fun _ ↦ .gate g (g.evaluate (k.pinLevels d))) := by
      rw [refresh_of_gate helement, device?_update (Device.id_mapElement _), if_pos hname, hname,
        he, Option.map_some]
    exact mem_raised (hturn.distinctNames hk) (mem_of_device? hafter) rfl
  · next hname =>
    have hgates : (k.refresh d).1.gateNames = k.gateNames :=
      (gateNames_subset_of_sameWiring (hturn.distinctNames hk) hwiring.symm).antisymm
        (gateNames_subset_of_sameWiring hk hwiring)
    rw [raised, raised, Finset.mem_filter, Finset.mem_filter, hgates,
      output?_refresh hn hlike hd fun _ hsame ↦ hname (Terminal.mk.inj hsame).1]

theorem raised_refresh_of_not_gate (hnone : ∀ g output, d.element ≠ .gate g output) :
    (k.refresh d).1.raised = k.raised := by
  rw [refresh_of_not_gate hnone]

/-- A turn lowers no output that is asked to be high. -/
theorem subset_raised_refresh (hn : start.DistinctNames) (hlike : Alike Element.maskGate start k)
    (hd : d ∈ start.devices) (hk : k.Supported) : k.raised ⊆ (k.refresh d).1.raised := by
  rcases d.gate_or_not with ⟨g, output, helement⟩ | hnone
  · intro name hname
    rw [mem_raised_refresh hn hlike hd helement]
    split
    · next hsame =>
      obtain ⟨e, now, he, hid, hpins, hcurrent⟩ := exists_current hn hlike hd helement
      obtain rfl : now = high :=
        (mem_raised (hlike.distinctNames hn) (mem_of_device? he) hcurrent).mp
          (hid ▸ hsame ▸ hname)
      rw [← pinLevels_of_pins k hpins]
      exact hk e (mem_of_device? he) g hcurrent
    · exact hname
  · rw [raised_refresh_of_not_gate hnone]

/-- A turn keeps every gate that is high asked to be high. -/
theorem supported_refresh (hpositive : start.Positive) (hn : start.DistinctNames)
    (hlike : Alike Element.maskGate start k) (hd : d ∈ start.devices) (hk : k.Supported) :
    (k.refresh d).1.Supported := by
  have hle := subset_raised_refresh hn hlike hd hk
  have hturn := alike_refresh hn hlike hd
  have hnames := hturn.distinctNames (hlike.distinctNames hn)
  rcases d.gate_or_not with ⟨g, output, helement⟩ | hnone
  · intro e he g' hhigh
    have hlike' := hlike.trans hturn
    refine evaluate_mono hturn hle (hpositive.of_sameWiring hn
      (hlike'.sameWiring Element.kind_maskGate) |>.gate he hhigh) ?_
    by_cases hid : e.id = d.id
    · obtain ⟨e', now, he', hid', hpins, hcurrent⟩ := exists_current hn hlike' hd helement
      obtain rfl := hnames.eq_of_id he (mem_of_device? he') (hid.trans hid'.symm)
      obtain ⟨rfl, -⟩ := Element.gate.inj (hhigh.symm.trans hcurrent)
      have hasked := (mem_raised_refresh hn hlike hd helement).mp
        ((mem_raised hnames he hhigh).mpr rfl)
      rwa [if_pos hid, ← pinLevels_of_pins k hpins] at hasked
    · have he' : k.device? e.id = some e := by
        rw [← local_refresh k d e.id hid, hnames.device?_id he]
      exact hk e (mem_of_device? he') g' hhigh
  · rw [refresh_of_not_gate hnone]
    exact hk

/-- A turn raises no gate that is low in a state of rest above. -/
theorem raised_refresh_subset (hpositive : start.Positive) (hn : start.DistinctNames)
    (hlike : Alike Element.maskGate start k) (hd : d ∈ start.devices)
    (hm : Alike Element.maskGate k m) (hstable : m.Stable) (hle : k.raised ⊆ m.raised) :
    (k.refresh d).1.raised ⊆ m.raised := by
  rcases d.gate_or_not with ⟨g, output, helement⟩ | hnone
  · intro name hname
    rw [mem_raised_refresh hn hlike hd helement] at hname
    split at hname
    · next hsame =>
      obtain ⟨e, now, he, hid, hpins, hcurrent⟩ := exists_current hn (hlike.trans hm) hd helement
      have hasked := evaluate_mono hm hle (hpositive.gate hd helement) hname
      have hagrees := (agrees_of_gate hcurrent).mp (hstable e (mem_of_device? he))
      rw [pinLevels_of_pins m hpins, hasked] at hagrees
      rw [hsame, ← hid]
      have hdistinct := (hlike.trans hm).distinctNames hn
      exact (mem_raised hdistinct (mem_of_device? he) hcurrent).mpr hagrees
    · exact hle hname
  · rwa [raised_refresh_of_not_gate hnone]

/-! ### Passes -/

/-- What a pass keeps of a positive network whose gates are asked for what they have. -/
theorem afterTurns_refresh_supported (hpositive : n.Positive) (hn : n.DistinctNames)
    {devices : List Device} (hdevices : ∀ d ∈ devices, d ∈ n.devices)
    (hlike : Alike Element.maskGate n k) (hk : k.Supported) :
    Alike Element.maskGate n (afterTurns refresh devices k) ∧
      (afterTurns refresh devices k).Supported ∧
      k.raised ⊆ (afterTurns refresh devices k).raised := by
  refine afterTurns_refresh_induction (P := fun l ↦ l.Supported ∧ k.raised ⊆ l.raised) hn hdevices
    hlike ⟨hk, subset_rfl⟩ ?_
  rintro l hl d hd ⟨hsupported, hle⟩
  exact ⟨supported_refresh hpositive hn hl hd hsupported,
    hle.trans (subset_raised_refresh hn hl hd hsupported)⟩

/-- A pass that finds something to do raises a gate: the turn of a gate that disagrees comes with at
least as many gates high, and what it raises is not lowered again. -/
theorem raised_ssubset_pass (hpositive : n.Positive) (hn : n.DistinctNames) (h : n.Supported)
    (hunstable : ¬ n.Stable) : n.pass.1.Supported ∧ n.raised ⊂ n.pass.1.raised := by
  obtain ⟨d, hd, hdisagrees⟩ : ∃ d ∈ n.devices, ¬ n.Agrees d := by
    simpa [Stable] using hunstable
  rcases d.gate_or_not with ⟨g, output, helement⟩ | hnone
  · rw [agrees_of_gate helement] at hdisagrees
    have hlow : d.id ∉ n.raised := by
      rw [mem_raised hn hd helement]
      rintro rfl
      exact hdisagrees (h d hd g helement).symm
    have hasked : g.evaluate (n.pinLevels d) = high := by
      rw [mem_raised hn hd helement] at hlow
      cases output <;> simp_all
    obtain ⟨before, after, hsplit⟩ := List.append_of_mem hd
    rw [pass, sweep_fst, hsplit, afterTurns_append, afterTurns_cons]
    obtain ⟨hlike, hk, hle⟩ := afterTurns_refresh_supported hpositive hn
      (fun e he ↦ mem_of_mem_before hsplit he) (.refl ..) h
    generalize afterTurns refresh before n = k at hlike hk hle ⊢
    have hturn := alike_refresh hn hlike hd
    have hraised : d.id ∈ (k.refresh d).1.raised := by
      rw [mem_raised_refresh hn hlike hd helement, if_pos rfl]
      exact evaluate_mono hlike hle (hpositive.gate hd helement) hasked
    have hafter : ∀ e ∈ after, e ∈ n.devices :=
      fun e he ↦ hsplit ▸ List.mem_append_right _ (List.mem_cons_of_mem d he)
    obtain ⟨-, hnext, hle'⟩ := afterTurns_refresh_supported hpositive hn hafter
      (hlike.trans hturn) (supported_refresh hpositive hn hlike hd hk)
    refine ⟨hnext, Finset.ssubset_iff_of_subset ?_ |>.mpr ⟨d.id, hle' hraised, hlow⟩⟩
    exact (hle.trans (subset_raised_refresh hn hlike hd hk)).trans hle'
  · exact absurd (agrees_of_not_gate hnone) hdisagrees

/-- More passes than gates that are low are enough, by induction on the passes: each either changes
nothing or raises a gate. -/
theorem settleWithin_of_supported {passes : Nat} (hpositive : n.Positive) (hn : n.DistinctNames)
    (h : n.Supported) (hpasses : n.gateCount < passes + n.raised.card) :
    ∃ m, settleWithin passes n = .ok m := by
  induction passes generalizing n with
  | zero =>
    have hcard := n.card_raised_le
    omega
  | succ passes ih =>
    rw [settleWithin_succ hn]
    by_cases hstable : n.Stable
    · exact ⟨n, if_pos hstable⟩
    · rw [if_neg hstable]
      have hlike := alike_pass hn
      have hwiring := hlike.sameWiring Element.kind_maskGate
      obtain ⟨hnext, hraised⟩ := raised_ssubset_pass hpositive hn h hstable
      refine ih (hpositive.of_sameWiring hn hwiring) (hlike.distinctNames hn) hnext ?_
      have hcard := Finset.card_lt_card hraised
      rw [gateCount_of_sameWiring hwiring]
      omega

/-- Settling from below a state of rest ends below it. -/
theorem raised_settle_subset (hpositive : n.Positive) (hn : n.DistinctNames)
    (hm : Alike Element.maskGate n m) (hstable : m.Stable) (hle : n.raised ⊆ m.raised) :
    (finalState n.settle).raised ⊆ m.raised := by
  have hkeep : Alike Element.maskGate n (finalState n.settle) ∧
      (finalState n.settle).raised ⊆ m.raised := by
    refine settleWithin_induction (P := fun k ↦ Alike Element.maskGate n k ∧ k.raised ⊆ m.raised)
      hn ⟨.refl .., hle⟩ ?_ _
    rintro start k hstart hk d hd ⟨hlike, hbelow⟩
    have hnames := hstart.distinctNames hn
    refine ⟨hlike.trans (alike_refresh hnames hk hd), ?_⟩
    exact raised_refresh_subset (hpositive.of_sameWiring hn
      (hstart.sameWiring Element.kind_maskGate)) hnames hk hd (hlike.symm.trans hm) hstable hbelow
  exact hkeep.2

/-! ### From all gates low -/

theorem ne_high_of_clearDevices (hd : d ∈ n.clearDevices.devices) : d.element ≠ .gate g high := by
  obtain ⟨e, -, rfl⟩ := List.mem_map.mp hd
  rw [Device.mapElement]
  cases e.element <;> simp [Element.reset]

theorem supported_clearDevices (n : Network) : n.clearDevices.Supported :=
  fun _ hd _ helement ↦ absurd helement (ne_high_of_clearDevices hd)

theorem raised_clearDevices (hn : n.DistinctNames) : n.clearDevices.raised = ∅ := by
  refine Finset.eq_empty_of_forall_notMem fun name hname ↦ ?_
  obtain ⟨d, g, hd, helement⟩ :=
    exists_of_mem_raised ((sameWiring_clearDevices n).distinctNames hn) hname
  exact ne_high_of_clearDevices (mem_of_device? hd) helement

/-! ### What flip-flops remember of their clocks -/

/-- No output shows what a flip-flop remembers of its clock. -/
theorem Alike.output?_eq (h : Alike Element.maskLastClock n m) (t : Terminal) :
    n.output? t = m.output? t := by
  cases hd : n.device? t.device with
  | none =>
    rw [output?, output?, hd, h.device?_eq_none hd]
    rfl
  | some d =>
    obtain ⟨e, he, -, -, hmask⟩ := h.exists_device? hd
    rw [output?, output?, hd, he, Option.bind_some, Option.bind_some, h.ports, Device.output?,
      Device.output?, Device.outputs, Device.outputs]
    cases helement : d.element <;> cases helement' : e.element <;>
      simp_all [Element.maskLastClock]

theorem Alike.stable (h : Alike Element.maskLastClock n m) (hn : n.Stable) (hm : m.DistinctNames) :
    m.Stable := by
  intro e he
  obtain ⟨d, hd, -, hpins, hmask⟩ := h.symm.exists_device? (hm.device?_id he)
  have hlevels : m.pinLevels e = n.pinLevels d := by
    rw [← pinLevels_of_pins m hpins]
    exact pinLevels_congr fun _ _ t _ ↦ (h.output?_eq t).symm
  rcases e.gate_or_not with ⟨g, output, helement⟩ | hnone
  · have hcurrent : d.element = .gate g output := by
      cases hnow : d.element <;> simp_all [Element.maskLastClock]
    rw [agrees_of_gate helement, hlevels]
    exact (agrees_of_gate hcurrent).mp (hn d (mem_of_device? hd))
  · exact agrees_of_not_gate hnone

theorem Alike.raised_eq (h : Alike Element.maskLastClock n m) (hn : n.DistinctNames) :
    n.raised = m.raised := by
  have hwiring := h.sameWiring Element.kind_maskLastClock
  rw [raised, raised, (gateNames_subset_of_sameWiring hn hwiring).antisymm
    (gateNames_subset_of_sameWiring (h.distinctNames hn) hwiring.symm)]
  exact Finset.filter_congr fun name _ ↦ by rw [h.output?_eq]

/-- The network with the remembered clock levels forgotten. -/
def forgetClocks (n : Network) : Network :=
  n.mapDevices (Device.mapElement Element.maskLastClock)

theorem alike_forgetClocks (n : Network) : Alike Element.maskLastClock n n.forgetClocks :=
  alike_mapDevices fun d _ ↦ by
    simp only [Device.mapElement]
    cases d.element <;> rfl

theorem Alike.forgetClocks (h : Alike Element.maskGate n m) :
    Alike Element.maskGate n.forgetClocks m.forgetClocks := by
  have hcomm : ∀ k : Network, k.forgetClocks.mapDevices (Device.mapElement Element.maskGate) =
      (k.mapDevices (Device.mapElement Element.maskGate)).forgetClocks := by
    intro k
    simp only [Network.forgetClocks, mapDevices, List.map_map]
    congr 2
    funext d
    simp only [Function.comp, Device.mapElement]
    cases d.element <;> rfl
  rw [Alike, hcomm n, hcomm m]
  exact congrArg Network.forgetClocks h

theorem forgetClocks_clearDevices (n : Network) : n.clearDevices.forgetClocks = n.clearDevices := by
  simp only [Network.forgetClocks, clearDevices, mapDevices, List.map_map]
  congr 2
  funext d
  simp only [Function.comp, Device.mapElement]
  cases d.element <;> rfl

/-! ### The least state of rest -/

/-- Networks that differ in the outputs of gates at most are equal where the same gates are high. -/
theorem Alike.eq_of_raised (h : Alike Element.maskGate n m) (hn : n.DistinctNames)
    (hsame : n.raised = m.raised) : n = m := by
  refine h.eq_of_outputs hn fun t ht ↦ ?_
  obtain ⟨⟨g, pins⟩, hgate⟩ := Option.isSome_iff_exists.mp ht
  obtain ⟨id, port⟩ := t
  obtain ⟨rfl, d, output, hd, helement, -⟩ := gateAt?_eq_some_iff.mp hgate
  obtain rfl := id_of_device? hd
  obtain ⟨e, now, he, hid, -, hcurrent⟩ := exists_current hn h (mem_of_device? hd) helement
  have hlevels : output = high ↔ now = high := by
    rw [← mem_raised hn (mem_of_device? hd) helement, hsame, ← hid,
      mem_raised (h.distinctNames hn) (mem_of_device? he) hcurrent]
  rw [output?_of_gate hd helement, output?_of_gate he hcurrent, Bool.eq_iff_iff.mpr hlevels]

theorem LeastRest.intro (hn : n.DistinctNames) (hstable : n.Stable)
    (hleast : ∀ m, Alike Element.maskGate n m → m.Stable → n.raised ⊆ m.raised) :
    n.LeastRest where
  consistent := consistent_iff_stable.mpr hstable
  least m hlike hm := hleast m hlike (consistent_iff_stable.mp hm)
  fewest m hlike hm hne := by
    have hle := hleast m hlike (consistent_iff_stable.mp hm)
    exact Finset.card_lt_card (Finset.ssubset_iff_subset_ne.mpr
      ⟨hle, fun hsame ↦ hne (hlike.eq_of_raised hn hsame).symm⟩)

/-- Assumes: a network of AND and OR gates with distinct names, and more passes than gates. -/
theorem leastRest_reset (hpositive : n.Positive) (hn : n.DistinctNames)
    (hlimit : n.gateCount < n.iterationLimit) :
    ∃ settled, n.clearDevices.settle = .ok settled ∧ n.reset = settled.rememberClocks ∧
      n.reset.LeastRest := by
  have hwiring := sameWiring_clearDevices n
  have hclear := hwiring.distinctNames hn
  have hpositive' := hpositive.of_sameWiring hn hwiring
  obtain ⟨settled, hsettle⟩ : ∃ settled, n.clearDevices.settle = .ok settled := by
    refine settleWithin_of_supported hpositive' hclear (supported_clearDevices n) ?_
    rwa [raised_clearDevices hn, Finset.card_empty, Nat.add_zero, gateCount_of_sameWiring hwiring,
      ← hwiring.iterationLimit]
  have hreset : n.reset = settled.rememberClocks := powerOn_of_settle hsettle
  refine ⟨settled, hsettle, hreset, ?_⟩
  have hsettled := alike_of_settle hclear hsettle
  have hremember := alike_rememberClocks settled
  have hnames := hsettled.distinctNames hclear
  rw [hreset]
  refine .intro (hremember.distinctNames hnames)
    (stable_rememberClocks (stable_of_settle hclear hsettle)) fun m hm hstable ↦ ?_
  have hforget := alike_forgetClocks m
  have hbelow : Alike Element.maskGate n.clearDevices m.forgetClocks := by
    have hsame : settled.forgetClocks = settled.rememberClocks.forgetClocks := hremember
    have hstart := hsettled.forgetClocks
    rw [forgetClocks_clearDevices, hsame] at hstart
    exact hstart.trans hm.forgetClocks
  have hbelow' := raised_settle_subset hpositive' hclear hbelow
    (hforget.stable hstable (hbelow.distinctNames hclear))
    (by rw [raised_clearDevices hn]; exact Finset.empty_subset _)
  rw [hsettle, finalState] at hbelow'
  rwa [← hremember.raised_eq hnames,
    hforget.raised_eq (hm.distinctNames (hremember.distinctNames hnames))]

/-- Positive feedback settles. Assumes: AND and OR gates only, connected in any way, with feedback
or not, and declared in any order; the levels are whatever they are. With distinct names of devices,
as every reachable network has them, and more passes than gates, resetting settles, and leaves every
gate obeying its law, with no gate high that could be low: every other state of rest with the same
levels of switches, clocks and flip-flops has all these gates high, and more. A circuit of such
gates is loaded in this state. The default settings allow that many passes, for as many devices as
can be counted. -/
theorem reset_least :
    (∀ n : Network, n.Positive → n.DistinctNames → n.gateCount < n.iterationLimit →
      ∃ settled, n.clearDevices.settle = .ok settled ∧ n.reset = settled.rememberClocks ∧
        n.reset.LeastRest) ∧
    (∀ text settings c, Circuit.load text settings = .ok c → c.network.Positive →
      c.network.gateCount < c.network.iterationLimit → c.network.LeastRest) ∧
    (∀ n : Network, n.settings = {} → n.devices.length < Settings.maxIterations →
      n.gateCount < n.iterationLimit) := by
  refine ⟨fun n hpositive hn hlimit ↦ leastRest_reset hpositive hn hlimit,
    fun text settings c hload hpositive hlimit ↦ ?_, fun n hsettings hlength ↦ ?_⟩
  · obtain ⟨hnames, hreset, -⟩ := Simulator.reset_of_load hload
    obtain ⟨-, -, -, hleast⟩ := leastRest_reset hpositive hnames hlimit
    rwa [hreset] at hleast
  · rw [iterationLimit, hsettings]
    exact n.gateCount_le_length.trans_lt (Settings.lt_limit_default hlength)

/-- An OR and an AND gate in a ring that a switch raises. The switch is low again, and the ring is
at rest with both gates high. -/
def heldRing : Network :=
  built [.addDevice 22 .switch, .addDevice 23 (.gate .or), .addDevice 24 (.gate .and),
    .addInputs 23 2, .addInputs 24 2, .connect ⟨22, none⟩ 23 0, .connect ⟨24, none⟩ 23 1,
    .connect ⟨23, none⟩ 24 0, .connect ⟨23, none⟩ 24 1, .setSwitch 22 Level.high, .cycle,
    .setSwitch 22 Level.low]

/-- A ring that nothing raises, and a gate that reads itself and a switch that is high. -/
def switchedRings : String :=
  "devices \x7b X is SWITCH; X set 1; P is OR; P has 2 inputs; B is AND; B has 2 inputs; " ++
  "R is OR; R has 2 inputs; \x7d connections \x7b device P \x7b B to P.I1; B to P.I2; \x7d " ++
  "device B \x7b P to B.I1; X to B.I2; \x7d device R \x7b R to R.I1; X to R.I2; \x7d \x7d"

theorem heldRing_and_switchedRings_least :
    (heldRing.Consistent ∧ heldRing.raised = {23, 24} ∧ heldRing.reset.LeastRest ∧
      heldRing.reset.raised = ∅) ∧
    ∃ c, Circuit.load switchedRings = .ok c ∧ c.network.LeastRest ∧
      c.network.raised.image c.names.string? = {some "R"} := by
  obtain ⟨hreset, hloaded, hdefault⟩ := reset_least
  constructor
  · obtain ⟨-, -, -, hleast⟩ := hreset heldRing (by decide)
      (reachable_built _ : heldRing.Reachable).wellFormed.distinctNames
      (hdefault heldRing rfl (by decide))
    exact ⟨consistent_iff_stable.mpr (by decide), by decide, hleast, by decide⟩
  · obtain ⟨c, hload, hpositive, hlimit, hraised⟩ := Circuit.exists_loaded switchedRings
      (P := fun c ↦ c.network.Positive ∧ c.network.gateCount < c.network.iterationLimit ∧
        c.network.raised.image c.names.string? = {some "R"}) (by decide +kernel)
    exact ⟨c, hload, hloaded _ _ c hload hpositive hlimit, hraised⟩

end Network

end Breadboard
