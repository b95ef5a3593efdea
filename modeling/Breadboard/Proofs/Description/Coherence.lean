import Breadboard.Proofs.Description.Schematic
import Mathlib.Data.List.Nodup

/-!
# Coherent schematics

Whatever a script has been allowed to say so far, the schematic makes sense: parts have names of
their own and the inputs of their kinds, clocks have half-periods of at least one cycle, and an
output is drawn to an input or watched only if it is there, and watched once (`Coherent`). Each
statement that is allowed keeps this.
-/

set_option autoImplicit false
set_option relaxedAutoImplicit false

namespace Breadboard.Description

variable {s : Schematic} {part : Part} {name : String} {output : OutputName}

/-- The names of the inputs of a part. -/
def Part.ports (part : Part) : List String :=
  part.inlets.map Inlet.port

/-- Whether a part has the inputs of its kind. An AND, NAND, OR or NOR gate may still have none. -/
def Part.Shaped (part : Part) : Prop :=
  match part.component.kind with
  | .gate .and | .gate .nand | .gate .or | .gate .nor =>
    part.ports = [] ∨ ∃ count, 1 ≤ count ∧ count ≤ 16 ∧ part.ports = inputNames count
  | kind => part.ports = firstInputNames kind

/-- Whether a part makes sense in a schematic. -/
structure Part.Fits (s : Schematic) (part : Part) : Prop where
  shaped : part.Shaped
  clock : ∀ cycles, part.component = .clock cycles → 1 ≤ cycles
  driven : ∀ inlet ∈ part.inlets, ∀ output, inlet.driver = some output → s.HasOutput output

namespace Schematic

/-- A schematic that makes sense. -/
structure Coherent (s : Schematic) : Prop where
  distinct : (s.parts.map Part.name).Nodup
  fits : ∀ part ∈ s.parts, part.Fits s
  there : ∀ output ∈ s.watched, s.HasOutput output
  once : s.watched.Nodup

theorem coherent_empty : ({} : Schematic).Coherent where
  distinct := List.nodup_nil
  fits := nofun
  there := nofun
  once := List.nodup_nil

/-! ### Looking up -/

theorem mem_of_part? (h : s.part? name = some part) : part ∈ s.parts :=
  List.mem_of_find?_eq_some h

theorem name_of_part? (h : s.part? name = some part) : part.name = name := by
  simpa using List.find?_some h

theorem part?_eq_none_iff : s.part? name = none ↔ name ∉ s.parts.map Part.name := by
  simp [part?]

/-- Where names are distinct a part is found under its name. -/
theorem part?_of_mem (hs : (s.parts.map Part.name).Nodup) (hmem : part ∈ s.parts) :
    s.part? part.name = some part := by
  cases hpart : s.part? part.name with
  | none => exact absurd (List.mem_map_of_mem hmem) (part?_eq_none_iff.mp hpart)
  | some other =>
    rw [List.inj_on_of_nodup_map hs (mem_of_part? hpart) hmem (name_of_part? hpart)]

/-- Where names are distinct a part is the only one of its name. -/
theorem Coherent.part?_eq_some_iff (hs : s.Coherent) :
    s.part? name = some part ↔ part ∈ s.parts ∧ part.name = name :=
  ⟨fun h ↦ ⟨mem_of_part? h, name_of_part? h⟩,
    fun ⟨hmem, hname⟩ ↦ hname ▸ part?_of_mem hs.distinct hmem⟩

/-- A change that keeps the name of a part. -/
theorem part?_modify {g : Part → Part} (hg : ∀ part, (g part).name = part.name) (other : String) :
    (s.modify name g).part? other =
      (s.part? other).map fun part ↦ if part.name = name then g part else part := by
  rw [part?, modify, List.find?_map, part?]
  congr 2
  funext part
  rw [Function.comp_apply]
  split
  · rw [hg]
  · rfl

theorem part?_link (s : Schematic) (link : Link) (name : String) :
    (Act.link.after s link).part? name = (s.part? name).map fun part ↦
      if part.name = link.target then part.drive link.input link.source else part :=
  part?_modify (g := Part.drive link.input link.source) (fun _ ↦ rfl) name

theorem names_modify {g : Part → Part} (hg : ∀ part, (g part).name = part.name) :
    (s.modify name g).parts.map Part.name = s.parts.map Part.name := by
  rw [modify, List.map_map]
  refine List.map_congr_left fun part _ ↦ ?_
  rw [Function.comp_apply]
  split
  · exact hg part
  · rfl

end Schematic

/-! ### Parts -/

theorem Component.hasOutput_iff (c : Component) (port : Option String) : c.HasOutput port ↔
    match c.kind with
    | .flipFlop => port = some "Q" ∨ port = some "QBAR"
    | _ => port = none := by
  cases c <;> exact Iff.rfl

/-- Parts of one kind have the same outputs. -/
theorem Component.hasOutput_iff_of_kind {c c' : Component} (h : c.kind = c'.kind)
    (port : Option String) : c.HasOutput port ↔ c'.HasOutput port := by
  rw [hasOutput_iff, hasOutput_iff, h]

theorem Part.Shaped.congr {part' : Part} (h : part.Shaped)
    (hkind : part'.component.kind = part.component.kind) (hports : part'.ports = part.ports) :
    part'.Shaped := by
  rwa [Shaped, hkind, hports]

@[simp]
theorem map_port_openInlets (ports : List String) : (openInlets ports).map Inlet.port = ports := by
  rw [openInlets, List.map_map]
  exact List.map_id ports

@[simp]
theorem Part.ports_drive (part : Part) (input : String) (source : OutputName) :
    (part.drive input source).ports = part.ports := by
  rw [ports, drive, List.map_map]
  refine List.map_congr_left fun inlet _ ↦ ?_
  rw [Function.comp_apply]
  split <;> rfl

@[simp]
theorem Part.name_give (part : Part) (count : Nat) : (part.give count).name = part.name := by
  rw [give]
  split <;> rfl

@[simp]
theorem Part.component_give (part : Part) (count : Nat) :
    (part.give count).component = part.component := by
  rw [give]
  split <;> rfl

theorem Part.shaped_give {count : Nat} (h : part.Shaped) (hmay : part.MayHave count) :
    (part.give count).Shaped := by
  obtain ⟨name, component, inlets⟩ := part
  cases component with
  | gate g =>
    cases g with
    | xor | not => exact h
    | _ => exact .inr ⟨count, hmay.2.1, hmay.2.2, map_port_openInlets _⟩
  | _ => exact hmay.elim

/-- No input of a part has the name of an output. -/
theorem Part.inlet?_of_hasOutput (hshaped : part.Shaped) {port : String}
    (houtput : part.component.HasOutput (some port)) : part.inlet? port = none := by
  rw [Part.inlet?, List.find?_eq_none]
  intro inlet hinlet hsame
  have hport : port ∈ part.ports := beq_iff_eq.mp hsame ▸ List.mem_map_of_mem hinlet
  rw [Part.Shaped] at hshaped
  cases hcomponent : part.component with
  | flipFlop =>
    rw [hcomponent] at hshaped houtput
    rw [show part.ports = firstInputNames .flipFlop from hshaped] at hport
    rcases houtput with hq | hqbar
    · rw [Option.some_inj.mp hq] at hport
      exact absurd hport (by decide)
    · rw [Option.some_inj.mp hqbar] at hport
      exact absurd hport (by decide)
  | _ =>
    rw [hcomponent] at houtput
    cases houtput

theorem Part.Fits.mono {s' : Schematic} (h : part.Fits s)
    (hmono : ∀ output, s.HasOutput output → s'.HasOutput output) : part.Fits s' where
  shaped := h.shaped
  clock := h.clock
  driven inlet hinlet output hdriver := hmono output (h.driven inlet hinlet output hdriver)

namespace Schematic

/-- A change that keeps the name and the kind of a part keeps its outputs. -/
theorem Coherent.hasOutput_modify (hs : s.Coherent) (hpart : s.part? name = some part)
    {g : Part → Part} (hname : ∀ part, (g part).name = part.name)
    (hkind : (g part).component.kind = part.component.kind) (h : s.HasOutput output) :
    (s.modify name g).HasOutput output := by
  obtain ⟨source, hsource, houtput⟩ := h
  rw [HasOutput, part?_modify hname, hsource]
  refine ⟨_, rfl, ?_⟩
  dsimp only
  split
  · next hsame =>
    obtain rfl : source = part := by
      rw [← Option.some_inj, ← hpart, eq_comm, hs.part?_eq_some_iff]
      exact ⟨mem_of_part? hsource, hsame⟩
    exact (Component.hasOutput_iff_of_kind hkind _).mpr houtput
  · exact houtput

theorem hasOutput_append {more : List Part} (h : s.HasOutput output) :
    ({ s with parts := s.parts ++ more } : Schematic).HasOutput output := by
  obtain ⟨source, hsource, houtput⟩ := h
  refine ⟨source, ?_, houtput⟩
  rw [part?] at hsource ⊢
  rw [List.find?_append, hsource, Option.some_or]

/-! ### Statements -/

theorem Coherent.modify (hs : s.Coherent) (hpart : s.part? name = some part) {g : Part → Part}
    (hname : ∀ part, (g part).name = part.name)
    (hkind : (g part).component.kind = part.component.kind) (hfits : (g part).Fits s) :
    (s.modify name g).Coherent := by
  have hmono : ∀ output, s.HasOutput output → (s.modify name g).HasOutput output :=
    fun _ h ↦ hs.hasOutput_modify hpart hname hkind h
  refine ⟨?_, ?_, fun output houtput ↦ hmono output (hs.there output houtput), hs.once⟩
  · rw [names_modify hname]
    exact hs.distinct
  · intro changed hchanged
    obtain ⟨other, hother, rfl⟩ := List.mem_map.mp hchanged
    split
    · next hsame =>
      obtain rfl : other = part :=
        Option.some_inj.mp ((hs.part?_eq_some_iff.mpr ⟨hother, hsame⟩).symm.trans hpart)
      exact hfits.mono hmono
    · exact (hs.fits other hother).mono hmono

theorem fits_fresh (s : Schematic) (name : String) (kind : Kind) :
    (Part.fresh name kind).Fits s where
  shaped := by
    cases kind with
    | gate g =>
      cases g with
      | xor | not => rfl
      | _ => exact .inl rfl
    | _ => rfl
  clock cycles h := by
    cases kind <;> cases h
    exact Nat.le_refl 1
  driven inlet hinlet output hdriver := by
    obtain ⟨port, -, rfl⟩ := List.mem_map.mp hinlet
    cases hdriver

theorem Coherent.define (hs : s.Coherent) (hfresh : s.part? name = none) (kind : Kind) :
    ({ s with parts := s.parts ++ [Part.fresh name kind] } : Schematic).Coherent where
  distinct := by
    rw [List.map_append, List.nodup_append]
    refine ⟨hs.distinct, List.nodup_singleton _, ?_⟩
    rintro other hother new hnew rfl
    rw [List.mem_singleton.mp hnew] at hother
    exact part?_eq_none_iff.mp hfresh hother
  fits part hpart := by
    rcases List.mem_append.mp hpart with hold | hnew
    · exact (hs.fits part hold).mono fun _ ↦ hasOutput_append
    · rw [List.mem_singleton.mp hnew]
      exact fits_fresh _ name kind
  there output houtput := hasOutput_append (hs.there output houtput)
  once := hs.once

/-- A part that may be given so many inputs makes sense with them. -/
theorem fits_give {count : Nat} (h : part.Fits s) (hmay : part.MayHave count) :
    (part.give count).Fits s where
  shaped := Part.shaped_give h.shaped hmay
  clock := by simpa using h.clock
  driven inlet hinlet output hdriver := by
    rw [Part.give] at hinlet
    split at hinlet
    · exact h.driven inlet hinlet output hdriver
    · exact h.driven inlet hinlet output hdriver
    · obtain ⟨port, -, rfl⟩ := List.mem_map.mp hinlet
      cases hdriver

/-- What is said of a device keeps a schematic coherent. -/
theorem Coherent.declare (hs : s.Coherent) {clause : Clause}
    (hcycles : ∀ cycles, clause = .halfPeriod cycles → 1 ≤ cycles)
    (hallowed : (Act.declare clause).allowed s name) :
    ((Act.declare clause).after s name).Coherent := by
  cases clause with
  | define kind => exact hs.define hallowed kind
  | inputs count =>
    obtain ⟨part, hpart, hmay⟩ := hallowed
    refine hs.modify hpart (fun part ↦ part.name_give count) ?_
      (fits_give (hs.fits part (mem_of_part? hpart)) hmay)
    rw [Part.component_give]
  | halfPeriod cycles =>
    obtain ⟨part, hpart, hkind⟩ := hallowed
    have hold := hs.fits part (mem_of_part? hpart)
    refine hs.modify hpart (fun _ ↦ rfl) hkind.symm
      ⟨hold.shaped.congr hkind.symm rfl, ?_, hold.driven⟩
    rintro _ ⟨rfl⟩
    exact hcycles _ rfl
  | level level =>
    obtain ⟨part, hpart, hkind⟩ := hallowed
    have hold := hs.fits part (mem_of_part? hpart)
    exact hs.modify hpart (fun _ ↦ rfl) hkind.symm
      ⟨hold.shaped.congr hkind.symm rfl, nofun, hold.driven⟩

/-- A connection keeps a schematic coherent. -/
theorem Coherent.link (hs : s.Coherent) {link : Link} (hallowed : Act.link.allowed s link) :
    (Act.link.after s link).Coherent := by
  obtain ⟨hsource, part, inlet, hpart, -, -⟩ := hallowed
  have hold := hs.fits part (mem_of_part? hpart)
  refine hs.modify hpart (fun _ ↦ rfl) rfl
    ⟨hold.shaped.congr rfl (part.ports_drive link.input link.source), hold.clock, ?_⟩
  intro inlet hinlet output hdriver
  obtain ⟨before, hbefore, rfl⟩ := List.mem_map.mp hinlet
  split at hdriver
  · exact Option.some_inj.mp hdriver ▸ hsource
  · exact hold.driven before hbefore output hdriver

/-- An output that is watched for the first time keeps a schematic coherent. -/
theorem Coherent.mark (hs : s.Coherent) (hallowed : Act.mark.allowed s output) :
    (Act.mark.after s output).Coherent where
  distinct := hs.distinct
  fits part hpart := (hs.fits part hpart).mono fun _ h ↦ h
  there other hother := by
    rcases List.mem_append.mp hother with hold | hnew
    · exact hs.there other hold
    · exact List.mem_singleton.mp hnew ▸ hallowed.1
  once := by
    refine List.nodup_append.mpr ⟨hs.once, List.nodup_singleton _, ?_⟩
    rintro other hother new hnew rfl
    exact hallowed.2 (List.mem_singleton.mp hnew ▸ hother)

end Schematic

end Breadboard.Description
