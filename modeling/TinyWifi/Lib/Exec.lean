import Mathlib.Tactic.Common

/-! Programs that change a state and may return early with an error. The state stays as it was left
by the last step before the error. -/

namespace Checks

variable {ε ε' α β : Type}

def require (condition : Bool) (error : ε) : Except ε Unit :=
  if condition then .ok () else .error error

def okOr (x : Option α) (error : ε) : Except ε α := x.elim (.error error) .ok

@[simp] theorem okOr_eq_ok {x : Option α} {error : ε} {a : α} :
    okOr x error = .ok a ↔ x = some a := by
  cases x <;> simp [okOr]

@[simp] theorem require_eq_ok {condition : Bool} {error : ε} {u : Unit} :
    require condition error = .ok u ↔ condition = true := by
  cases condition <;> simp [require]

theorem bind_eq_ok {x : Except ε α} {f : α → Except ε β} {b : β} :
    x >>= f = .ok b ↔ ∃ a, x = .ok a ∧ f a = .ok b := by
  cases x with
  | error e => simp [bind, Except.bind]
  | ok a => simp [bind, Except.bind]

@[simp] theorem mapError_eq_ok {f : ε → ε'} {x : Except ε α} {a : α} :
    x.mapError f = .ok a ↔ x = .ok a := by
  cases x <;> simp [Except.mapError]

@[simp] theorem pure_eq_ok {a b : α} : (pure a : Except ε α) = .ok b ↔ a = b := by
  change Except.ok a = .ok b ↔ a = b
  simp

theorem guarded_eq_ok {c : Prop} [Decidable c] {a b : α} {e : ε} :
    (if c then .ok a else .error e : Except ε α) = .ok b ↔ c ∧ b = a := by
  split
  · next holds => simp [holds, eq_comm]
  · next fails => simp [fails]

end Checks

abbrev Exec (σ ε α : Type) := ExceptT ε (StateM σ) α

namespace Exec

variable {σ ε ε' α β : Type}

/-- What the program returns, and the state it leaves behind. -/
def outcome (x : Exec σ ε α) (s : σ) : Except ε α × σ := x s

/-- Run a program whose result nobody looks at. -/
def attempt (x : Exec σ ε' α) : Exec σ ε Unit := fun s => (.ok (), (outcome x s).2)

def reading (f : σ → Except ε α) : Exec σ ε α := fun s => (f s, s)

def mapError (f : ε → ε') (x : Exec σ ε α) : Exec σ ε' α := fun s =>
  match outcome x s with
  | (.ok a, s') => (.ok a, s')
  | (.error e, s') => (.error (f e), s')

def succeeds (x : Exec σ ε' α) : Exec σ ε Bool := fun s =>
  match outcome x s with
  | (.ok _, s') => (.ok true, s')
  | (.error _, s') => (.ok false, s')

def ensuring (x : Exec σ ε α) (last : Exec σ ε' Unit) : Exec σ ε α := fun s =>
  ((outcome x s).1, (outcome last (outcome x s).2).2)

section Outcome

variable (s : σ)

@[simp] theorem outcome_pure (a : α) : outcome (pure a : Exec σ ε α) s = (.ok a, s) := rfl

@[simp] theorem outcome_throw (e : ε) : outcome (throw e : Exec σ ε α) s = (.error e, s) := rfl

@[simp] theorem outcome_modify (f : σ → σ) :
    outcome (modify f : Exec σ ε PUnit) s = (.ok (), f s) := rfl

@[simp] theorem outcome_get : outcome (get : Exec σ ε σ) s = (.ok s, s) := rfl

@[simp] theorem outcome_reading (f : σ → Except ε α) : outcome (reading f) s = (f s, s) := rfl

@[simp] theorem outcome_attempt (x : Exec σ ε' α) :
    outcome (attempt x : Exec σ ε Unit) s = (.ok (), (outcome x s).2) := rfl

theorem outcome_mapError (f : ε → ε') (x : Exec σ ε α) :
    outcome (mapError f x) s =
      match outcome x s with
      | (.ok a, s') => (.ok a, s')
      | (.error e, s') => (.error (f e), s') := rfl

theorem mapError_state (f : ε → ε') (x : Exec σ ε α) :
    (outcome (mapError f x) s).2 = (outcome x s).2 := by
  rw [outcome_mapError]
  rcases outcome x s with ⟨e | a, s'⟩ <;> rfl

theorem outcome_succeeds (x : Exec σ ε' α) :
    outcome (succeeds x : Exec σ ε Bool) s =
      match outcome x s with
      | (.ok _, s') => (.ok true, s')
      | (.error _, s') => (.ok false, s') := rfl

theorem outcome_bind (x : Exec σ ε α) (f : α → Exec σ ε β) :
    outcome (x >>= f) s =
      match outcome x s with
      | (.ok a, s') => outcome (f a) s'
      | (.error e, s') => (.error e, s') := by
  change (ExceptT.bind x f) s = _
  simp only [ExceptT.bind, ExceptT.mk, bind, StateT.bind, outcome, ExceptT.bindCont]
  rcases x s with ⟨_ | _, _⟩ <;> rfl

theorem outcome_map (f : α → β) (x : Exec σ ε α) :
    outcome (f <$> x) s =
      match outcome x s with
      | (.ok a, s') => (.ok (f a), s')
      | (.error e, s') => (.error e, s') := by
  rw [← bind_pure_comp, outcome_bind]
  rcases outcome x s with ⟨_ | _, _⟩ <;> rfl

@[simp] theorem outcome_ite (c : Prop) [Decidable c] (x y : Exec σ ε α) :
    outcome (if c then x else y) s = if c then outcome x s else outcome y s := by
  split <;> rfl

/-- A sequence that comes to an end ran both of its parts to the end. -/
theorem outcome_bind_ok {x : Exec σ ε α} {f : α → Exec σ ε β} {b : β} {s s' : σ} :
    outcome (x >>= f) s = (.ok b, s') ↔
      ∃ a middle, outcome x s = (.ok a, middle) ∧ outcome (f a) middle = (.ok b, s') := by
  rw [outcome_bind]
  rcases outcome x s with ⟨e | a, middle⟩
  · simp
  · simp

theorem outcome_bind_error {x : Exec σ ε α} {f : α → Exec σ ε β} {e : ε} {s s' : σ} :
    outcome (x >>= f) s = (.error e, s') ↔
      outcome x s = (.error e, s') ∨
        ∃ a middle, outcome x s = (.ok a, middle) ∧ outcome (f a) middle = (.error e, s') := by
  rw [outcome_bind]
  rcases outcome x s with ⟨e' | a, middle⟩
  · simp
  · simp

theorem outcome_bind_of_ok {x : Exec σ ε α} {f : α → Exec σ ε β} {a : α} {s s' : σ}
    (front : outcome x s = (.ok a, s')) : outcome (x >>= f) s = outcome (f a) s' := by
  rw [outcome_bind, front]

theorem outcome_mapError_ok {f : ε → ε'} {x : Exec σ ε α} {a : α} {s s' : σ} :
    outcome (mapError f x) s = (.ok a, s') ↔ outcome x s = (.ok a, s') := by
  rw [outcome_mapError]
  rcases outcome x s with ⟨e | b, middle⟩
  · simp
  · simp

end Outcome

section Within

/-- Wherever the program stops, the state it leaves stands in the relation to the one before. -/
def Within (R : σ → σ → Prop) (x : Exec σ ε α) : Prop := ∀ s, R s (outcome x s).2

variable {R : σ → σ → Prop}

theorem Within.of_outcome {x : Exec σ ε α} {s s' : σ} {result : Except ε α} (within : Within R x)
    (ran : outcome x s = (result, s')) : R s s' := by
  have step := within s
  rwa [ran] at step

theorem within_of_unchanged (refl : ∀ s, R s s) {x : Exec σ ε α}
    (same : ∀ s, (outcome x s).2 = s) : Within R x := by
  intro s
  rw [same]
  exact refl s

theorem within_pure (refl : ∀ s, R s s) (a : α) : Within R (pure a : Exec σ ε α) :=
  within_of_unchanged refl fun _ => rfl

theorem within_throw (refl : ∀ s, R s s) (e : ε) : Within R (throw e : Exec σ ε α) :=
  within_of_unchanged refl fun _ => rfl

theorem within_reading (refl : ∀ s, R s s) (f : σ → Except ε α) : Within R (reading f) :=
  within_of_unchanged refl fun _ => rfl

theorem within_modify {f : σ → σ} (step : ∀ s, R s (f s)) :
    Within R (modify f : Exec σ ε PUnit) := step

theorem within_attempt {x : Exec σ ε' α} (h : Within R x) :
    Within R (attempt x : Exec σ ε Unit) := h

theorem within_mapError {f : ε → ε'} {x : Exec σ ε α} (h : Within R x) :
    Within R (mapError f x) := by
  intro s
  have inner := h s
  rw [outcome_mapError]
  revert inner
  rcases outcome x s with ⟨e | a, s'⟩ <;> exact id

theorem within_succeeds {x : Exec σ ε' α} (h : Within R x) :
    Within R (succeeds x : Exec σ ε Bool) := by
  intro s
  have inner := h s
  rw [outcome_succeeds]
  revert inner
  rcases outcome x s with ⟨e | a, s'⟩ <;> exact id

theorem within_ensuring (trans : ∀ a b c, R a b → R b c → R a c) {x : Exec σ ε α}
    {last : Exec σ ε' Unit} (first : Within R x) (rest : Within R last) :
    Within R (ensuring x last) := fun s => trans s _ _ (first s) (rest _)

theorem within_bind (trans : ∀ a b c, R a b → R b c → R a c) {x : Exec σ ε α}
    {f : α → Exec σ ε β} (first : Within R x) (rest : ∀ a, Within R (f a)) :
    Within R (x >>= f) := by
  intro s
  have front := first s
  rw [outcome_bind]
  revert front
  rcases outcome x s with ⟨e | a, middle⟩
  · exact id
  · intro front
    exact trans s middle _ front (rest a middle)

theorem within_get_bind {f : σ → Exec σ ε β} (rest : ∀ s, Within R (f s)) :
    Within R (get >>= f) := by
  intro s
  rw [outcome_bind, outcome_get]
  exact rest s s

theorem within_ite {c : Prop} [Decidable c] {x y : Exec σ ε α} (yes : c → Within R x)
    (no : ¬ c → Within R y) : Within R (if c then x else y) := by
  split
  · exact yes ‹_›
  · exact no ‹_›

end Within

end Exec
