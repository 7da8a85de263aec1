import Mathlib.Data.List.Basic
import Stencil.Proofs.Generations

/-!
# What registries hold

A registry keeps its overloads in the order in which they were registered, and beside them two
lists of positions: one for each name without its case, and one for the overloads without a name.
Calls look into these lists only, so an overload that is missing there, or filed twice or in the
wrong place, would never or wrongly be called.

`Registry.WellFiled` says that each list has the positions of the overloads it is meant for, in
order, and that every overload is fit to be registered. Filing one more overload keeps it
(`WellFiled.file`), so does every change that is made to registries (`Shelf.WellFiled.after`), and
by induction every run of changes (`wellFiled_of_run`).

Main statement: `registries_faithful`. In every run the names and the positions that a registry
gives are those of what was registered, a refusal changes nothing, and registries of one generation
hold the same.
-/

namespace Stencil

/-! ## Overloads that can be registered -/

namespace Signature

/-- An overload that can be registered: its name, if it has one, is the name of a formatter, and no
parameter follows one for what is left. -/
structure IsAdmissible (s : Signature) : Prop where
  nameValid : ∀ name ∈ s.name, isFormatterName name = true
  restLast : ∀ i p, s.params[i]? = some p → p.isRest = true → i + 1 = s.params.length

theorem misplacedRest?_eq_none_iff {s : Signature} {name : String} :
    Registry.objection?.misplacedRest? s name = none ↔
      ∀ i p, s.params[i]? = some p → p.isRest = true → i + 1 = s.params.length := by
  unfold Registry.objection?.misplacedRest?
  split
  · next first hfirst =>
    obtain ⟨hbound, hrest, hbefore⟩ := List.findIdx?_eq_some_iff_getElem.mp hfirst
    constructor
    · intro h i p hi hp
      -- No parameter for what is left stands before the first one, and after it stands none at all.
      have hlast : first + 1 = s.params.length := by
        by_cases hlast : first + 1 = s.params.length
        · exact hlast
        · rw [if_neg hlast] at h
          cases h
      obtain ⟨hlt, rfl⟩ := List.getElem?_eq_some_iff.mp hi
      have : ¬ i < first := fun hlt' => hbefore i hlt' hp
      omega
    · intro h
      rw [if_pos (h first _ (List.getElem?_eq_getElem hbound) hrest)]
  · next hnone =>
    refine ⟨fun _ i p hi hp => ?_, fun _ => rfl⟩
    have := List.findIdx?_eq_none_iff.mp hnone p (List.mem_of_getElem? hi)
    rw [hp] at this
    cases this

/-- Nothing speaks against the overloads that can be registered, and something against all other
ones. -/
theorem objection?_eq_none_iff {s : Signature} :
    Registry.objection? s = none ↔ s.IsAdmissible := by
  unfold Registry.objection?
  split
  · next name hname =>
    split
    · next hvalid =>
      rw [misplacedRest?_eq_none_iff]
      refine ⟨fun h => ⟨?_, h⟩, IsAdmissible.restLast⟩
      intro other hother
      obtain rfl : name = other := Option.some.inj (hname.symm.trans hother)
      exact hvalid
    · next hinvalid =>
      constructor
      · intro h
        cases h
      · intro h
        exact absurd (h.nameValid name hname) hinvalid
  · next hname =>
    rw [misplacedRest?_eq_none_iff]
    refine ⟨fun h => ⟨?_, h⟩, IsAdmissible.restLast⟩
    intro other hother
    rw [hname] at hother
    cases hother

end Signature

namespace Registry

/-! ## Lists of positions -/

/-- The overloads in the order in which they were registered, with their positions. -/
def numbered (r : Registry) : List (Nat × Signature) :=
  r.signatures.toList.zipIdx.map Prod.swap

theorem numbered_push {r r' : Registry} {s : Signature}
    (h : r'.signatures = r.signatures.push s) :
    r'.numbered = r.numbered ++ [(r.signatures.size, s)] := by
  unfold numbered
  rw [h, Array.toList_push, List.zipIdx_append, List.map_append]
  simp

theorem mem_numbered {r : Registry} {c : Nat × Signature} :
    c ∈ r.numbered ↔ r.signatures[c.1]? = some c.2 := by
  unfold numbered
  rw [← Array.getElem?_toList, List.mem_map]
  constructor
  · rintro ⟨x, hx, rfl⟩
    exact List.mem_zipIdx_iff_getElem?.mp hx
  · intro h
    exact ⟨c.swap, List.mem_zipIdx_iff_getElem?.mpr h, Prod.swap_swap c⟩

theorem at?_of_mem_numbered {r : Registry} {c : Nat × Signature} (h : c ∈ r.numbered) :
    r.at? c.1 = some c := by
  unfold at?
  rw [mem_numbered.mp h]
  rfl

/-- Looking up the positions of some of the overloads gives these overloads. -/
theorem filterMap_at?_positions {r : Registry} (p : Nat × Signature → Bool) :
    ((r.numbered.filter p).map Prod.fst).filterMap r.at? = r.numbered.filter p := by
  rw [List.filterMap_map]
  have hall : ∀ c ∈ r.numbered.filter p, (r.at? ∘ Prod.fst) c = some c := by
    intro c hc
    exact at?_of_mem_numbered (List.mem_filter.mp hc).1
  rw [List.filterMap_congr hall, List.filterMap_some]

/-- Whether an overload is filed under a name without its case. -/
def isFiledUnder (key : String) (c : Nat × Signature) : Bool :=
  c.2.name.any fun name => foldCase name == key

/-- Whether an overload is filed with those that have no name. -/
def isNameless (c : Nat × Signature) : Bool :=
  c.2.name.isNone

/-- The lists of positions have the overloads that they are meant for, in order, and all overloads
can be registered. -/
structure WellFiled (r : Registry) : Prop where
  byName : ∀ key, (r.byName.lookup key).getD [] =
    (r.numbered.filter (isFiledUnder key)).map Prod.fst
  nameless : r.nameless = (r.numbered.filter isNameless).map Prod.fst
  admissible : ∀ s ∈ r.signatures, s.IsAdmissible

theorem wellFiled_empty (generation : Nat) : (empty generation).WellFiled where
  byName _ := rfl
  nameless := rfl
  admissible s hs := absurd hs (Array.not_mem_empty s)

theorem signatures_file (generation : Nat) (s : Signature) (r : Registry) :
    (r.file generation s).signatures = r.signatures.push s := by
  unfold file
  cases s.name <;> rfl

theorem converters_file (generation : Nat) (s : Signature) (r : Registry) :
    (r.file generation s).converters = r.converters := by
  unfold file
  cases s.name <;> rfl

theorem numbered_file (generation : Nat) (s : Signature) (r : Registry) :
    (r.file generation s).numbered = r.numbered ++ [(r.signatures.size, s)] :=
  numbered_push (signatures_file generation s r)

/-- A list of positions after one more overload was registered. -/
theorem positions_file (generation : Nat) (s : Signature) (r : Registry)
    (p : Nat × Signature → Bool) :
    ((r.file generation s).numbered.filter p).map Prod.fst =
      (r.numbered.filter p).map Prod.fst ++
        if p (r.signatures.size, s) then [r.signatures.size] else [] := by
  rw [numbered_file, List.filter_append, List.map_append]
  congr 1
  by_cases h : p (r.signatures.size, s) = true
  · rw [if_pos h, List.filter_cons_of_pos h]
    rfl
  · rw [if_neg h, List.filter_cons_of_neg h]
    rfl

/-- An overload is filed where it belongs, and nowhere else. -/
theorem WellFiled.file {r : Registry} (h : r.WellFiled) (generation : Nat) {s : Signature}
    (hs : s.IsAdmissible) : (r.file generation s).WellFiled where
  byName key := by
    rw [positions_file, ← h.byName key]
    unfold Registry.file isFiledUnder
    cases hname : s.name with
    | none => simp
    | some name =>
      simp only [Option.any_some, Keyed.lookup_set]
      by_cases hkey : foldCase name = key
      · subst hkey
        simp [positions]
      · have hkey' : (foldCase name == key) = false := by simpa using hkey
        simp [hkey']
  nameless := by
    rw [positions_file, ← h.nameless]
    unfold Registry.file isNameless
    cases hname : s.name <;> simp
  admissible t ht := by
    rw [signatures_file] at ht
    rcases Array.mem_push.mp ht with ht | rfl
    · exact h.admissible t ht
    · exact hs

theorem WellFiled.register {r r' : Registry} (h : r.WellFiled) {generation : Nat} {s : Signature}
    (hregister : r.register generation s = .ok r') : r'.WellFiled := by
  unfold Registry.register at hregister
  split at hregister
  · cases hregister
  · next hobjection =>
    obtain rfl := Except.ok.inj hregister
    exact h.file generation (Signature.objection?_eq_none_iff.mp hobjection)

theorem WellFiled.registerAll {r : Registry} (h : r.WellFiled) (generation : Nat)
    (signatures : List Signature) : (r.registerAll generation signatures).WellFiled := by
  induction signatures generalizing r with
  | nil => exact h
  | cons s signatures ih =>
    refine ih (r := (r.register generation s).toOption.getD r) ?_
    rcases hregister : r.register generation s with e | r'
    · exact h
    · exact h.register hregister

theorem WellFiled.addConverter {r : Registry} (h : r.WellFiled) (generation : Nat)
    (c : Converter) : (r.addConverter generation c).WellFiled :=
  ⟨h.byName, h.nameless, h.admissible⟩

/-- What a registry gives is what was registered. -/
structure IsFaithful (r : Registry) : Prop where
  /-- By a name it gives the overloads whose name matches, in order, with their positions. -/
  named : ∀ name matching, r.named name matching =
    r.numbered.filter fun (_, s) => s.name.any fun registered => matching.admits registered name
  /-- Without a name it gives the overloads that have none, in order, with their positions. -/
  unnamed : r.unnamed = r.numbered.filter fun (_, s) => s.name.isNone
  admissible : ∀ s ∈ r.signatures, s.IsAdmissible

theorem WellFiled.isFaithful {r : Registry} (h : r.WellFiled) : r.IsFaithful where
  named name matching := by
    unfold Registry.named positions
    rw [h.byName, filterMap_at?_positions, List.filter_filter]
    apply List.filter_congr
    intro c _
    obtain ⟨i, s⟩ := c
    show (s.name.any _ && s.name.any _) = s.name.any _
    -- A name that matches is the same but for case, so it was looked for in the right place.
    cases s.name with
    | none => rfl
    | some registered =>
      simp only [Option.any_some]
      by_cases hadmits : matching.admits registered name = true
      · rw [hadmits, foldCase_eq_of_admits hadmits, beq_self_eq_true]
        rfl
      · rw [Bool.not_eq_true] at hadmits
        rw [hadmits]
        rfl
  unnamed := by
    unfold Registry.unnamed
    rw [h.nameless, filterMap_at?_positions]
    rfl
  admissible := h.admissible

/-- A registration succeeds for the overloads that can be registered. -/
theorem register_eq_ok_iff {r r' : Registry} {generation : Nat} {s : Signature} :
    r.register generation s = .ok r' ↔ s.IsAdmissible ∧ r.file generation s = r' := by
  rw [← Signature.objection?_eq_none_iff]
  unfold register
  split
  · next e he => simp [he]
  · next hnone => simp [hnone]

end Registry

/-! ## Runs -/

/-- What is done with registries. -/
inductive RegistryChange where
  /-- A new registry, with overloads registered in it one after the other. -/
  | new (name : String) (signatures : List Signature)
  | clone (source name : String)
  | register (name : String) (signature : Signature)
  | addConverter (name : String) (converter : Converter)

/-- A change as a step of the shelf on which the registries stand. -/
def RegistryChange.step : RegistryChange → ShelfStep
  | new name signatures => .create name ((Registry.empty 0).registerAll 0 signatures)
  | clone source name => .copy source name
  | register name signature => .register name signature
  | addConverter name converter => .addConverter name converter

/-- Whether a registry is there before, between or after some changes, or always is. -/
def RegistryChange.Shows (changes : List RegistryChange) (r : Registry) : Prop :=
  r = .standard ∨ Shelf.empty.EverHolds (changes.map RegistryChange.step) r

namespace Shelf

/-- All registries on the shelf are well filed. -/
def WellFiled (s : Shelf) : Prop :=
  ∀ r, s.Holds r → r.WellFiled

theorem WellFiled.put {s : Shelf} (h : s.WellFiled) {name : String} {r : Registry}
    (hr : r.WellFiled) : (s.put name r).WellFiled := by
  intro r' hr'
  rcases holds_put hr' with rfl | hr'
  · exact hr
  · exact h r' hr'

theorem WellFiled.after {s : Shelf} (h : s.WellFiled) (change : RegistryChange) :
    (s.after change.step).WellFiled := by
  cases change with
  | new name signatures =>
    have hall := (Registry.wellFiled_empty 0).registerAll 0 signatures
    exact h.put ⟨hall.byName, hall.nameless, hall.admissible⟩
  | clone source name =>
    show (s.copy source name).WellFiled
    unfold copy
    split
    · next r hr => exact h.put (h r ⟨source, hr⟩)
    · exact h
  | register name signature =>
    show ((s.register name signature).toOption.getD s).WellFiled
    unfold register
    split
    · next r hr =>
      rcases hregister : r.register s.nextGeneration signature with e | r'
      · exact h
      · exact h.put ((h r ⟨name, hr⟩).register hregister)
    · exact h
  | addConverter name converter =>
    show (s.addConverter name converter).WellFiled
    unfold addConverter
    split
    · next r hr => exact h.put ((h r ⟨name, hr⟩).addConverter s.nextGeneration converter)
    · exact h

theorem wellFiled_of_run {s : Shelf} (h : s.WellFiled) {changes : List RegistryChange}
    {r : Registry} (hr : s.EverHolds (changes.map RegistryChange.step) r) : r.WellFiled := by
  induction changes generalizing s with
  | nil => exact h r hr
  | cons change changes ih =>
    rcases hr with hr | hr
    · exact h r hr
    · exact ih (h.after change) hr

/-- What a registration does to the shelf: the overload comes last in its registry, which gets a
generation of its own, or it is refused and nothing changes at all. -/
structure Registers (s : Shelf) (name : String) (signature : Signature) (r : Registry) : Prop where
  accepted : signature.IsAdmissible → ∃ s' r', s.register name signature = .ok s' ∧
    s'.get? name = some r' ∧ (∀ other, other ≠ name → s'.get? other = s.get? other) ∧
    r'.numbered = r.numbered ++ [(r.signatures.size, signature)] ∧
    r'.converters = r.converters ∧ r'.generation = s.nextGeneration
  refused : ¬ signature.IsAdmissible →
    (∃ e, s.register name signature = .error e) ∧ s.after (.register name signature) = s

theorem registers {s : Shelf} {name : String} {r : Registry} (hr : s.get? name = some r)
    (signature : Signature) : s.Registers name signature r where
  accepted hadmissible := by
    have hregister : r.register s.nextGeneration signature =
        .ok (r.file s.nextGeneration signature) :=
      Registry.register_eq_ok_iff.mpr ⟨hadmissible, rfl⟩
    refine ⟨(s.put name (r.file s.nextGeneration signature)).advance, _, ?_, ?_, ?_,
      Registry.numbered_file _ _ _, Registry.converters_file _ _ _,
      generation_of_register hregister⟩
    · simp only [register, hr, hregister]
      rfl
    · show (s.put name _).get? name = _
      rw [get?_put, if_pos (beq_self_eq_true name)]
    · intro other hother
      show (s.put name _).get? other = _
      rw [get?_put, if_neg (by simpa using hother.symm)]
  refused hrefused := by
    have herror : ∃ e, s.register name signature = .error e := by
      unfold register
      rw [hr]
      rcases hregister : r.register s.nextGeneration signature with e | r'
      · exact ⟨e, by simp only [hregister]; rfl⟩
      · exact absurd (Registry.register_eq_ok_iff.mp hregister).1 hrefused
    obtain ⟨e, he⟩ := herror
    refine ⟨⟨e, he⟩, ?_⟩
    show (s.register name signature).toOption.getD s = s
    rw [he]
    rfl

end Shelf

/-- In every run of changes all registries are well filed. -/
theorem RegistryChange.Shows.wellFiled {changes : List RegistryChange} {r : Registry}
    (hr : Shows changes r) : r.WellFiled := by
  rcases hr with rfl | hr
  · exact (Registry.wellFiled_empty 0).registerAll 0 Builtin.all
  · have hempty : Shelf.empty.WellFiled := by
      intro r' hr'
      obtain ⟨name, hname⟩ := hr'
      cases hname
    exact Shelf.wellFiled_of_run hempty hr

/-- In every run of changes all registries give what was registered in them. -/
theorem RegistryChange.Shows.isFaithful {changes : List RegistryChange} {r : Registry}
    (hr : Shows changes r) : r.IsFaithful :=
  hr.wellFiled.isFaithful

/-- In every run of changes to registries each registry gives what was registered in it, each
registration adds its overload or is refused and changes nothing, and registries of one generation
hold the same overloads and converters. -/
theorem registries_faithful (changes : List RegistryChange) :
    (∀ r, RegistryChange.Shows changes r → r.IsFaithful) ∧
    (∀ (s : Shelf) name r signature, s.get? name = some r → s.Registers name signature r) ∧
    ∀ r r', RegistryChange.Shows changes r → RegistryChange.Shows changes r' →
      r.generation = r'.generation →
        r.signatures = r'.signatures ∧ r.converters = r'.converters := by
  refine ⟨fun r hr => hr.isFaithful, fun s name r signature hr => Shelf.registers hr signature, ?_⟩
  intro r r' hr hr' hgeneration
  have hsame : r = r' :=
    Shelf.toldApart_of_run (changes.map RegistryChange.step) r r' hr hr' hgeneration
  rw [hsame]
  exact ⟨rfl, rfl⟩

/-- Names that differ in their case are filed together and told apart at the call. -/
example :
    let overload := fun name => Signature.computing name .any [] Call.value
    let r := (Registry.empty 1).registerAll 1 [overload "Trim", overload "Sum", overload "trim"]
    (r.named "TRIM" .ignoreCase).map Prod.fst = [0, 2] ∧
    (r.named "trim" .caseSensitive).map Prod.fst = [2] := by
  decide

end Stencil
