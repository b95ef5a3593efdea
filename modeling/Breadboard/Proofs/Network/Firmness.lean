import Breadboard.Proofs.Network.Feeding

/-!
# Firm sets of gates

A set of gates is firm when every gate that feeds one of them is among them and all of them agree
with what they read. Whatever is not in the set, no turn of a pass moves an output of a gate in it:
the turns of its own gates find nothing to change, and the turns of the others are not read by it
(`firm_refresh`). A gate whose feeders are all in a firm set joins the set when its turn comes
(`firm_pass_insert`).
-/

set_option autoImplicit false
set_option relaxedAutoImplicit false

namespace Breadboard

namespace Network

variable {n m k start : Network} {d e : Device} {names : Set NameId}

/-- A set of gates that holds its own feeders and whose gates agree with what they read. -/
structure Firm (n : Network) (names : Set NameId) : Prop where
  closed : ∀ source target, n.Feeds source target → target ∈ names → source ∈ names
  agrees : ∀ d ∈ n.devices, d.id ∈ names → n.Agrees d

/-! ### Outputs and turns -/

/-- A gate has no named output. -/
theorem output?_named_of_gate {id port : NameId} (hd : n.device? id = some d)
    (hgate : d.kind.isGate) : n.output? ⟨id, some port⟩ = none := by
  obtain ⟨g, output, helement⟩ := Device.isGate_iff.mp hgate
  rw [output?, hd, Option.bind_some, Device.output?, Device.outputs, helement]
  rfl

/-- The turn of a gate moves the output of that gate alone. -/
theorem output?_refresh (hn : start.DistinctNames) (hlike : Alike Element.maskGate start k)
    (hd : d ∈ start.devices) {t : Terminal} (ht : d.kind.isGate → t ≠ ⟨d.id, none⟩) :
    (k.refresh d).1.output? t = k.output? t := by
  by_cases hgate : d.kind.isGate
  · have hturn := alike_refresh hn hlike hd
    by_cases hdevice : t.device = d.id
    · have ⟨id, port⟩ := t
      cases port with
      | none => exact absurd (by rw [← hdevice]) (ht hgate)
      | some port =>
        obtain ⟨e, he, -, -, hkind⟩ := SameWiring.exists_device?
          (hlike.sameWiring Element.kind_maskGate) (hn.device?_id hd)
        obtain ⟨e', he', -, -, hkind'⟩ := SameWiring.exists_device?
          (hturn.sameWiring Element.kind_maskGate) he
        rw [← hdevice] at he he'
        have hegate : e.kind.isGate := hkind ▸ hgate
        rw [output?_named_of_gate he hegate, output?_named_of_gate he' (hkind' ▸ hegate)]
    · exact output?_congr hturn.ports.symm (local_refresh k d t.device hdevice)
  · rw [refresh_of_not_gate]
    intro g output helement
    exact hgate (Device.isGate_iff.mpr ⟨g, output, helement⟩)

/-- A gate that another does not feed reads the same levels after the turn of the other. -/
theorem pinLevels_refresh (hn : start.DistinctNames) (hlike : Alike Element.maskGate start k)
    (hd : d ∈ start.devices) (he : k.device? e.id = some e) (hegate : e.kind.isGate)
    (hfeeds : ¬ k.Feeds d.id e.id) : (k.refresh d).1.pinLevels e = k.pinLevels e := by
  refine pinLevels_congr fun pin hpin t ht ↦ ?_
  refine output?_refresh hn hlike hd fun hgate hsame ↦ ?_
  obtain ⟨d', hd', -, -, hkind⟩ := SameWiring.exists_device?
    (hlike.sameWiring Element.kind_maskGate) (hn.device?_id hd)
  exact hfeeds ⟨d', e, hd', hkind ▸ hgate, he, hegate, pin, hpin, hsame ▸ ht⟩

/-! ### Firm sets through a pass -/

/-- The turn of a gate in a firm set finds nothing to change. -/
theorem refresh_of_firm (hn : start.DistinctNames) (hlike : Alike Element.maskGate start k)
    (hd : d ∈ start.devices) (h : k.Firm names) (hmem : d.id ∈ names) : (k.refresh d).1 = k := by
  rcases d.gate_or_not with ⟨g, output, helement⟩ | hnone
  · obtain ⟨e, now, he, hid, hpins, hcurrent⟩ := exists_current hn hlike hd helement
    have hagrees := h.agrees e (mem_of_device? he) (hid ▸ hmem)
    rw [agrees_of_gate hcurrent, pinLevels_of_pins k hpins] at hagrees
    rw [refresh_of_gate helement, ← hagrees]
    refine update_eq_self fun e' he' hid' ↦ ?_
    rw [(hlike.distinctNames hn).eq_of_id he' (mem_of_device? he) (hid'.trans hid.symm),
      Device.mapElement, ← hcurrent]
  · rw [refresh_of_not_gate hnone]

/-- Every turn keeps a set firm. -/
theorem firm_refresh (hn : start.DistinctNames) (hlike : Alike Element.maskGate start k)
    (hd : d ∈ start.devices) (h : k.Firm names) : (k.refresh d).1.Firm names := by
  by_cases hmem : d.id ∈ names
  · rw [refresh_of_firm hn hlike hd h hmem]
    exact h
  · have hturn := alike_refresh hn hlike hd
    have hwiring := hturn.sameWiring Element.kind_maskGate
    have hnext := hturn.distinctNames (hlike.distinctNames hn)
    refine ⟨fun source target hfeeds ↦ h.closed source target (.of_sameWiring hwiring.symm hfeeds),
      fun e he hname ↦ ?_⟩
    have hne : e.id ≠ d.id := fun hid ↦ hmem (hid ▸ hname)
    have hcurrent : k.device? e.id = some e := by
      rw [← local_refresh k d e.id hne, hnext.device?_id he]
    have hagrees := h.agrees e (mem_of_device? hcurrent) hname
    rcases e.gate_or_not with ⟨g, output, helement⟩ | hnone
    · have hlevels := pinLevels_refresh hn hlike hd hcurrent
        (Device.isGate_iff.mpr ⟨g, output, helement⟩) fun hfeeds ↦ hmem (h.closed _ _ hfeeds hname)
      rw [agrees_of_gate helement] at hagrees ⊢
      rw [hlevels]
      exact hagrees
    · exact agrees_of_not_gate hnone

/-- A gate that does not feed itself agrees with what it reads when it has had its turn. -/
theorem agrees_refresh (hn : start.DistinctNames) (hlike : Alike Element.maskGate start k)
    (hd : d ∈ start.devices) (hself : ¬ k.Feeds d.id d.id)
    (he : (k.refresh d).1.device? d.id = some e) : (k.refresh d).1.Agrees e := by
  rcases d.gate_or_not with ⟨g, output, helement⟩ | hnone
  · obtain ⟨e', now, he', hid, hpins, hcurrent⟩ := exists_current hn hlike hd helement
    have hlevels : (k.refresh d).1.pinLevels e' = k.pinLevels e' :=
      pinLevels_refresh hn hlike hd (hid ▸ he') (Device.isGate_iff.mpr ⟨g, now, hcurrent⟩)
        (hid ▸ hself)
    rw [refresh_of_gate helement, device?_update (Device.id_mapElement _), if_pos rfl, he',
      Option.map_some, Option.some_inj] at he
    have hset : e.element = .gate g (g.evaluate (k.pinLevels d)) := he ▸ rfl
    have hsame : e.pins = e'.pins := he ▸ rfl
    rw [agrees_of_gate hset, pinLevels_of_pins _ hsame, hlevels, pinLevels_of_pins k hpins]
  · rw [refresh_of_not_gate hnone] at he ⊢
    obtain ⟨e', he', -, -, hkind⟩ := SameWiring.exists_device?
      (hlike.sameWiring Element.kind_maskGate) (hn.device?_id hd)
    obtain rfl := Option.some_inj.mp (he'.symm.trans he)
    refine agrees_of_not_gate fun g output helement ↦ ?_
    have hgate : d.kind.isGate := hkind ▸ Device.isGate_iff.mpr ⟨g, output, helement⟩
    obtain ⟨g, output, helement⟩ := Device.isGate_iff.mp hgate
    exact hnone g output helement

/-- A gate whose feeders are all in a firm set joins the set when its turn comes. -/
theorem firm_refresh_insert (hn : start.DistinctNames) (hlike : Alike Element.maskGate start k)
    (hd : d ∈ start.devices) (h : k.Firm names)
    (hfeeders : ∀ source, k.Feeds source d.id → source ∈ names) :
    (k.refresh d).1.Firm (insert d.id names) := by
  by_cases hmem : d.id ∈ names
  · rw [Set.insert_eq_of_mem hmem]
    exact firm_refresh hn hlike hd h
  · have hkeep := firm_refresh hn hlike hd h
    have hturn := alike_refresh hn hlike hd
    have hnext := hturn.distinctNames (hlike.distinctNames hn)
    refine ⟨fun source target hfeeds htarget ↦ ?_, fun e he hname ↦ ?_⟩
    · rcases htarget with rfl | htarget
      · exact Or.inr (hfeeders source
          (.of_sameWiring (hturn.sameWiring Element.kind_maskGate).symm hfeeds))
      · exact Or.inr (hkeep.closed source target hfeeds htarget)
    · rcases hname with hid | hname
      · exact agrees_refresh hn hlike hd (fun hself ↦ hmem (hfeeders _ hself))
          (hid ▸ hnext.device?_id he)
      · exact hkeep.agrees e he hname

/-- In a pass, a gate whose feeders are all in a firm set joins the set. -/
theorem firm_pass_insert (hn : n.DistinctNames) (h : n.Firm names) (hd : d ∈ n.devices)
    (hfeeders : ∀ source, n.Feeds source d.id → source ∈ names) :
    n.pass.1.Firm (insert d.id names) := by
  obtain ⟨before, after, hsplit⟩ := List.append_of_mem hd
  have hbefore : ∀ e ∈ before, e ∈ n.devices := by
    intro e he
    rw [hsplit]
    exact List.mem_append_left _ he
  have hafter : ∀ e ∈ after, e ∈ n.devices := by
    intro e he
    rw [hsplit]
    exact List.mem_append_right _ (List.mem_cons_of_mem d he)
  rw [pass, sweep_fst, hsplit, afterTurns_append, afterTurns_cons]
  obtain ⟨hlike, hk⟩ := afterTurns_refresh_induction (P := fun k ↦ k.Firm names) hn hbefore
    (Alike.refl ..) h fun _ hlike _ hd hk ↦ firm_refresh hn hlike hd hk
  generalize afterTurns refresh before n = k at hlike hk ⊢
  have hjoin : (k.refresh d).1.Firm (insert d.id names) := by
    refine firm_refresh_insert hn hlike hd hk fun source hfeeds ↦ hfeeders source ?_
    exact .of_sameWiring (hlike.sameWiring Element.kind_maskGate).symm hfeeds
  exact (afterTurns_refresh_induction (P := fun k ↦ k.Firm (insert d.id names)) hn hafter
    (hlike.trans (alike_refresh hn hlike hd)) hjoin
    fun _ hlike _ hd hk ↦ firm_refresh hn hlike hd hk).2

/-- No turn touches a gate of a firm set. -/
theorem device?_refresh_of_firm (hn : start.DistinctNames) (hlike : Alike Element.maskGate start k)
    (hd : d ∈ start.devices) (h : k.Firm names) {name : NameId} (hname : name ∈ names) :
    (k.refresh d).1.device? name = k.device? name := by
  by_cases hid : name = d.id
  · rw [refresh_of_firm hn hlike hd h (hid ▸ hname)]
  · exact local_refresh k d name hid

/-- Settling leaves the gates of a firm set as they are, to whatever end it comes. -/
theorem device?_settle_of_firm (hn : n.DistinctNames) (h : n.Firm names) {name : NameId}
    (hname : name ∈ names) : (finalState n.settle).device? name = n.device? name := by
  have hkeep : (finalState n.settle).Firm names ∧
      (finalState n.settle).device? name = n.device? name := by
    refine settleWithin_induction (P := fun k ↦ k.Firm names ∧ k.device? name = n.device? name)
      hn ⟨h, rfl⟩ ?_ _
    rintro start k hstart hlike d hd ⟨hk, hsame⟩
    have hnames := hstart.distinctNames hn
    exact ⟨firm_refresh hnames hlike hd hk,
      (device?_refresh_of_firm hnames hlike hd hk hname).trans hsame⟩
  exact hkeep.2

end Network

end Breadboard
