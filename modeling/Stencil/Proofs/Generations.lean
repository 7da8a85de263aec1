import Stencil.Formatter.Builtin

/-!
# Generations stand for contents

What was found out for a registry is kept under its generation. So no two registries may ever share
a generation and differ, also not a registry and what it is later changed to.

`Shelf.Keeps` is the invariant: of all registries seen so far those of one generation are the same,
and the next generation is above all of them. One step keeps it (`Shelf.Keeps.step`), and so does a
run (`toldApart_of_run`).
-/

namespace Stencil

/-- Registries of one generation are the same. -/
def ToldApart (seen : Registry → Prop) : Prop :=
  ∀ r r', seen r → seen r' → r.generation = r'.generation → r = r'

theorem ToldApart.mono {seen seen' : Registry → Prop} (h : ToldApart seen)
    (hsub : ∀ r, seen' r → seen r) : ToldApart seen' :=
  fun r r' hr hr' => h r r' (hsub r hr) (hsub r' hr')

/-- What can be done with a shelf. -/
inductive ShelfStep where
  | create (name : String) (contents : Registry)
  | copy (source name : String)
  | register (name : String) (signature : Signature)
  | addConverter (name : String) (converter : Converter)

namespace Shelf

/-- The shelf after a step. A registration that is refused changes nothing. -/
def after (s : Shelf) : ShelfStep → Shelf
  | .create name contents => s.create name contents
  | .copy source name => s.copy source name
  | .register name signature => (s.register name signature).toOption.getD s
  | .addConverter name converter => s.addConverter name converter

/-- Whether a registry is on the shelf, under any name. -/
def Holds (s : Shelf) (r : Registry) : Prop :=
  ∃ name, s.get? name = some r

/-- Whether a registry is on the shelf before, between or after some steps. -/
def EverHolds (s : Shelf) : List ShelfStep → Registry → Prop
  | [], r => s.Holds r
  | step :: steps, r => s.Holds r ∨ (s.after step).EverHolds steps r

/-- The registries seen so far are told apart by their generations, and have used them up to the
next one. -/
structure Keeps (s : Shelf) (seen : Registry → Prop) : Prop where
  apart : ToldApart seen
  below : ∀ r, seen r → r.generation < s.nextGeneration
  holds : ∀ r, s.Holds r → seen r

theorem get?_put (s : Shelf) (name key : String) (r : Registry) :
    (s.put name r).get? key = if name == key then some r else s.get? key :=
  Keyed.lookup_set name key r s.registries

theorem holds_put {s : Shelf} {name : String} {r r' : Registry} (h : (s.put name r).Holds r') :
    r' = r ∨ s.Holds r' := by
  obtain ⟨key, hkey⟩ := h
  rw [get?_put] at hkey
  split at hkey
  · exact .inl (Option.some.inj hkey).symm
  · exact .inr ⟨key, hkey⟩

/-- The one way in which a generation is drawn: for a registry that is put on the shelf at once. -/
theorem Keeps.draw {s : Shelf} {seen : Registry → Prop} (h : s.Keeps seen) (name : String)
    {r : Registry} (hr : r.generation = s.nextGeneration) :
    (s.put name r).advance.Keeps fun r' => seen r' ∨ r' = r where
  apart := by
    rintro a b (ha | rfl) (hb | rfl) hab
    · exact h.apart a b ha hb hab
    · exact absurd (h.below a ha) (by omega)
    · exact absurd (h.below b hb) (by omega)
    · rfl
  below := by
    rintro a (ha | rfl)
    · exact Nat.lt_succ_of_lt (h.below a ha)
    · exact hr ▸ Nat.lt_succ_self _
  holds a ha := (holds_put ha).symm.imp (h.holds a) id

theorem generation_of_register {generation : Nat} {signature : Signature} {r r' : Registry}
    (h : r.register generation signature = .ok r') : r'.generation = generation := by
  unfold Registry.register at h
  split at h
  · cases h
  · obtain rfl := Except.ok.inj h
    unfold Registry.file
    cases signature.name <;> rfl

theorem generation_of_registerAll {generation : Nat} {r : Registry}
    (hr : r.generation = generation) (signatures : List Signature) :
    (r.registerAll generation signatures).generation = generation := by
  induction signatures generalizing r with
  | nil => exact hr
  | cons signature signatures ih =>
    refine ih (r := (r.register generation signature).toOption.getD r) ?_
    rcases hregister : r.register generation signature with e | r'
    · exact hr
    · exact generation_of_register hregister

/-- A step shows at most one registry that was not seen before. -/
theorem Keeps.step {s : Shelf} {seen : Registry → Prop} (h : s.Keeps seen) (step : ShelfStep) :
    ∃ fresh : Registry → Prop, (s.after step).Keeps fun r => seen r ∨ fresh r := by
  have same : s.Keeps fun r => seen r ∨ False := by simpa only [or_false] using h
  cases step with
  | create name contents => exact ⟨_, h.draw name rfl⟩
  | copy source name =>
    refine ⟨fun _ => False, ?_⟩
    show (s.copy source name).Keeps _
    -- A copy shares its generation with the original, and its contents as well.
    unfold copy
    split
    · next r hr =>
      refine ⟨same.apart, same.below, fun r' hr' => .inl ?_⟩
      rcases holds_put hr' with rfl | hr'
      · exact h.holds _ ⟨source, hr⟩
      · exact h.holds r' hr'
    · exact same
  | register name signature =>
    show ∃ fresh : Registry → Prop, ((s.register name signature).toOption.getD s).Keeps _
    unfold register
    split
    · next r hr =>
      -- A registration that is refused draws no generation.
      rcases hregister : r.register s.nextGeneration signature with e | r'
      · exact ⟨fun _ => False, same⟩
      · exact ⟨_, h.draw name (generation_of_register hregister)⟩
    · exact ⟨fun _ => False, same⟩
  | addConverter name converter =>
    show ∃ fresh : Registry → Prop, (s.addConverter name converter).Keeps _
    unfold addConverter
    split
    · exact ⟨_, h.draw name rfl⟩
    · exact ⟨fun _ => False, same⟩

theorem Keeps.run {s : Shelf} {seen : Registry → Prop} (h : s.Keeps seen) (steps : List ShelfStep) :
    ToldApart fun r => seen r ∨ s.EverHolds steps r := by
  induction steps generalizing s seen with
  | nil => exact h.apart.mono fun r hr => hr.elim id (h.holds r)
  | cons step steps ih =>
    obtain ⟨fresh, hstep⟩ := h.step step
    refine (ih hstep).mono fun r hr => ?_
    rcases hr with hr | hr | hr
    · exact .inl (.inl hr)
    · exact .inl (.inl (h.holds r hr))
    · exact .inr hr

/-- The generations of the registries that are ever on a shelf, and of the standard one, stand for
their contents. -/
theorem toldApart_of_run (steps : List ShelfStep) :
    ToldApart fun r => r = .standard ∨ Shelf.empty.EverHolds steps r := by
  have hempty : Shelf.empty.Keeps (· = .standard) := by
    refine ⟨?_, ?_, ?_⟩
    · rintro r r' rfl rfl _
      rfl
    · rintro r rfl
      have hstandard : Registry.standard.generation = 0 :=
        generation_of_registerAll (r := .empty 0) rfl Builtin.all
      rw [hstandard]
      exact Nat.one_pos
    · rintro r ⟨name, hname⟩
      cases hname
  exact hempty.run steps

end Shelf

end Stencil
