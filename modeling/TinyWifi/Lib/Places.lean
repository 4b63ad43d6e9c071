import Mathlib.Logic.Equiv.Basic

/-! Things of which each is in one place: `places` says what is where, at most one thing a place. -/

namespace Places

variable {π ι : Type*}

/-- Each thing that is there is somewhere, and only there. -/
structure Once (places : π → Option ι) (there : ι → Prop) : Prop where
  somewhere : ∀ g, there g ↔ ∃ place, places place = some g
  single : ∀ {a b : π} {g : ι}, places a = some g → places b = some g → a = b

variable {places : π → Option ι} {there : ι → Prop}

theorem once_of_empty (empty : ∀ place, places place = none) (absent : ∀ g, ¬ there g) :
    Once places there where
  somewhere g := by simp [empty, absent]
  single first := by simp [empty] at first

theorem Once.congr {places' : π → Option ι} {there' : ι → Prop} (once : Once places there)
    (same : places' = places) (exact : ∀ g, there' g ↔ there g) :
    Once places' there' where
  somewhere g := by rw [exact, same, once.somewhere]
  single := by
    rw [same]
    exact once.single

variable [DecidableEq π]

/-- Two places change what they have. -/
theorem Once.swap (once : Once places there) (a b : π) :
    Once (places ∘ Equiv.swap a b) there where
  somewhere g := by
    rw [once.somewhere]
    constructor
    · rintro ⟨place, found⟩
      exact ⟨Equiv.swap a b place, by rw [Function.comp, Equiv.swap_apply_self, found]⟩
    · rintro ⟨place, found⟩
      exact ⟨_, found⟩
  single first second := (Equiv.swap a b).injective (once.single first second)

theorem cases_of_update {a place : π} {g other : ι}
    (found : Function.update places a (some g) place = some other) :
    (place = a ∧ other = g) ∨ (place ≠ a ∧ places place = some other) := by
  by_cases here : place = a
  · subst here
    rw [Function.update_self] at found
    exact .inl ⟨rfl, (Option.some.inj found).symm⟩
  · rw [Function.update_of_ne here] at found
    exact .inr ⟨here, found⟩

theorem Once.put (once : Once places there) {a : π} {g : ι} (empty : places a = none)
    (absent : ¬ there g) :
    Once (Function.update places a (some g)) (fun other => other = g ∨ there other) := by
  have nowhere (place : π) : places place ≠ some g := fun found =>
    absent ((once.somewhere g).mpr ⟨place, found⟩)
  have elsewhere {place : π} {other : ι} (found : places place = some other) : place ≠ a := by
    rintro rfl
    exact nomatch empty.symm.trans found
  constructor
  · intro other
    constructor
    · rintro (rfl | present)
      · exact ⟨a, Function.update_self ..⟩
      · obtain ⟨place, found⟩ := (once.somewhere other).mp present
        exact ⟨place, by rw [Function.update_of_ne (elsewhere found), found]⟩
    · rintro ⟨place, found⟩
      rcases cases_of_update found with ⟨-, same⟩ | ⟨-, before⟩
      · exact .inl same
      · exact .inr ((once.somewhere other).mpr ⟨place, before⟩)
  · intro place place' other first second
    rcases cases_of_update first with ⟨rfl, rfl⟩ | ⟨-, before⟩ <;>
      rcases cases_of_update second with ⟨rfl, same⟩ | ⟨-, before'⟩
    · rfl
    · exact absurd before' (nowhere place')
    · exact absurd (same ▸ before) (nowhere place)
    · exact once.single before before'

end Places
