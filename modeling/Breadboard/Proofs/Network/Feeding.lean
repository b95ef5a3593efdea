import Breadboard.Proofs.Network.Phases
import Mathlib.Data.Finset.Card
import Mathlib.Data.Finset.Insert
import Mathlib.Order.WellFoundedSet

/-!
# Which gates feed which

A gate feeds another when its output drives a pin of the other. Only gates pass a level on within a
settling, so the loops that matter are those of this relation: flip-flops, clocks and switches break
them. A network is loop free when no gate feeds itself through any number of others; then there is
always a gate whose feeders are all among the gates already dealt with (`LoopFree.exists_next`).
-/

set_option autoImplicit false
set_option relaxedAutoImplicit false

namespace Breadboard

/-- Whether a kind is one of the gates. -/
def Kind.isGate : Kind → Bool
  | .gate _ => true
  | _ => false

theorem Device.isGate_iff {d : Device} :
    d.kind.isGate = true ↔ ∃ g output, d.element = .gate g output := by
  rw [Device.kind]
  cases d.element <;> simp [Element.kind, Kind.isGate]

namespace Network

variable {n m : Network} {d e : Device} {source target : NameId}

/-- A gate drives a pin of another. -/
def Feeds (n : Network) (source target : NameId) : Prop :=
  ∃ d e, n.device? source = some d ∧ d.kind.isGate ∧ n.device? target = some e ∧ e.kind.isGate ∧
    ∃ pin ∈ e.pins, pin.driver = some ⟨source, none⟩

/-- No gate feeds itself, through any number of gates. -/
def LoopFree (n : Network) : Prop :=
  ∀ name, ¬ Relation.TransGen n.Feeds name name

/-- The number of gates. -/
def gateCount (n : Network) : Nat :=
  n.devices.countP fun d ↦ d.kind.isGate

/-- The names of the gates. -/
def gateNames (n : Network) : Finset NameId :=
  ((n.devices.filter fun d ↦ d.kind.isGate).map Device.id).toFinset

theorem mem_gateNames {name : NameId} :
    name ∈ n.gateNames ↔ ∃ d ∈ n.devices, d.kind.isGate ∧ d.id = name := by
  simp [gateNames, and_assoc]

theorem card_gateNames_le (n : Network) : n.gateNames.card ≤ n.gateCount := by
  rw [gateCount, List.countP_eq_length_filter, ← List.length_map Device.id]
  exact List.toFinset_card_le _

theorem gateCount_le_length (n : Network) : n.gateCount ≤ n.devices.length :=
  List.countP_le_length

/-! ### The wiring decides -/

theorem Feeds.of_sameWiring (h : SameWiring n m) (hfeeds : n.Feeds source target) :
    m.Feeds source target := by
  obtain ⟨d, e, hd, hgate, he, hgate', pin, hpin, hdriver⟩ := hfeeds
  obtain ⟨d', hd', -, -, hkind⟩ := SameWiring.exists_device? h hd
  obtain ⟨e', he', -, hpins, hkind'⟩ := SameWiring.exists_device? h he
  exact ⟨d', e', hd', hkind ▸ hgate, he', hkind' ▸ hgate', pin, hpins ▸ hpin, hdriver⟩

theorem LoopFree.of_sameWiring (h : SameWiring n m) (hn : n.LoopFree) : m.LoopFree :=
  fun name hloop ↦ hn name (Relation.TransGen.mono
    (fun _ _ hfeeds ↦ Feeds.of_sameWiring (Alike.symm h) hfeeds) _ _ hloop)

theorem gateCount_of_sameWiring (h : SameWiring n m) : m.gateCount = n.gateCount := by
  have hcount : ∀ k : Network, (k.devices.map (Device.mapElement Element.maskState)).countP
      (fun d ↦ d.kind.isGate) = k.gateCount := by
    intro k
    rw [List.countP_map, gateCount]
    refine List.countP_congr fun d _ ↦ ?_
    rw [Function.comp_apply, Device.kind, Device.mapElement, Element.kind_maskState, Device.kind]
  rw [← hcount m, ← hcount n, Alike.devices h]

/-! ### Loop free networks -/

/-- A network is loop free when some rank grows along every connection between gates. -/
theorem loopFree_of_rank (rank : NameId → Nat)
    (hrank : ∀ e ∈ n.devices, e.kind.isGate → ∀ pin ∈ e.pins, ∀ t ∈ pin.driver,
      ∀ d ∈ n.device? t.device, d.kind.isGate → rank t.device < rank e.id) : n.LoopFree := by
  have hgrow : ∀ source target, Relation.TransGen n.Feeds source target →
      rank source < rank target := by
    intro source target hpath
    have hstep : ∀ a b, n.Feeds a b → rank a < rank b := by
      rintro a b ⟨d, e, hd, hgate, he, hgate', pin, hpin, hdriver⟩
      have hlt := hrank e (mem_of_device? he) hgate' pin hpin ⟨a, none⟩ hdriver d hd hgate
      rwa [id_of_device? he] at hlt
    induction hpath with
    | single hfeeds => exact hstep _ _ hfeeds
    | tail _ hfeeds ih => exact ih.trans (hstep _ _ hfeeds)
  exact fun name hloop ↦ lt_irrefl _ (hgrow name name hloop)

/-- Feeding through any number of gates never runs on forever against its direction. -/
theorem LoopFree.wellFounded (hn : n.LoopFree) : WellFounded n.Feeds := by
  have htrans : IsTrans NameId (Relation.TransGen n.Feeds) := ⟨fun _ _ _ ↦ Relation.TransGen.trans⟩
  have hirrefl : Std.Irrefl (Relation.TransGen n.Feeds) := ⟨hn⟩
  have horder : IsStrictOrder NameId (Relation.TransGen n.Feeds) := { }
  have hgates := n.gateNames.finite_toSet.wellFoundedOn (r := Relation.TransGen n.Feeds)
  refine Subrelation.wf ?_ (Set.wellFoundedOn_iff.mp hgates)
  intro source target hfeeds
  have ⟨d, e, hd, hgate, he, hgate', _⟩ := hfeeds
  refine ⟨Relation.TransGen.single hfeeds, ?_, ?_⟩
  · exact mem_gateNames.mpr ⟨d, mem_of_device? hd, hgate, id_of_device? hd⟩
  · exact mem_gateNames.mpr ⟨e, mem_of_device? he, hgate', id_of_device? he⟩

/-- Of the gates outside a set, one has all its feeders inside. -/
theorem LoopFree.exists_next (hn : n.LoopFree) {done : Finset NameId}
    (hmissing : ∃ name ∈ n.gateNames, name ∉ done) :
    ∃ d ∈ n.devices, d.kind.isGate ∧ d.id ∉ done ∧
      ∀ source, n.Feeds source d.id → source ∈ done := by
  obtain ⟨name, ⟨hname, hfresh⟩, hleast⟩ :=
    hn.wellFounded.has_min {name | name ∈ n.gateNames ∧ name ∉ done} hmissing
  obtain ⟨d, hd, hgate, rfl⟩ := mem_gateNames.mp hname
  refine ⟨d, hd, hgate, hfresh, fun source hfeeds ↦ ?_⟩
  by_contra hsource
  have ⟨e, _, he, hegate, _⟩ := hfeeds
  exact hleast source
    ⟨mem_gateNames.mpr ⟨e, mem_of_device? he, hegate, id_of_device? he⟩, hsource⟩ hfeeds

end Network

end Breadboard
