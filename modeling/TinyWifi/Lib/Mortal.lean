import TinyWifi.Lib.Exec

/-! Programs that may die between any two of their operations: what they have done stays. -/

namespace Exec

variable {σ ε α : Type}

structure Mortal (σ : Type) where
  state : σ
  left : Nat

inductive Died
  | died
  deriving DecidableEq, Repr

def live (x : Exec σ ε α) : Exec (Mortal σ) Died (Except ε α) := fun s =>
  match s.left with
  | 0 => (.error .died, s)
  | n + 1 => (.ok (outcome x s.state).1, ⟨(outcome x s.state).2, n⟩)

/-- What is left behind by a program that lives to do so many operations. -/
def leaves (x : Exec (Mortal σ) Died α) (survives : Nat) (s : σ) : σ :=
  (outcome x ⟨s, survives⟩).2.state

section Live

theorem outcome_live_zero (x : Exec σ ε α) (s : σ) :
    outcome (live x) ⟨s, 0⟩ = (.error .died, ⟨s, 0⟩) := rfl

theorem outcome_live_succ (x : Exec σ ε α) (s : σ) (n : Nat) :
    outcome (live x) ⟨s, n + 1⟩ = (.ok (outcome x s).1, ⟨(outcome x s).2, n⟩) := rfl

theorem state_of_live {x : Exec σ ε α} {s s' : Mortal σ} {result : Except ε α}
    (survived : outcome (live x) s = (.ok result, s')) : s'.state = (outcome x s.state).2 := by
  rcases s with ⟨state, left⟩
  cases left with
  | zero =>
      rw [outcome_live_zero] at survived
      cases survived
  | succ n =>
      rw [outcome_live_succ] at survived
      rw [← (Prod.mk.inj survived).2]

variable {β : Type} (x : Exec σ ε α) (f : Except ε α → Exec (Mortal σ) Died β)

@[simp] theorem leaves_pure (a : α) (n : Nat) (s : σ) :
    leaves (pure a : Exec (Mortal σ) Died α) n s = s := rfl

/-- A program that dies before its first operation leaves everything as it was. -/
@[simp] theorem leaves_live_zero (s : σ) : leaves (live x >>= f) 0 s = s := by
  rw [leaves, outcome_bind, outcome_live_zero]

@[simp] theorem leaves_live_succ (n : Nat) (s : σ) :
    leaves (live x >>= f) (n + 1) s = leaves (f (outcome x s).1) n (outcome x s).2 := by
  rw [leaves, outcome_bind, outcome_live_succ]
  rfl

theorem leaves_bind_pure (y : Exec (Mortal σ) Died α) (b : β) (n : Nat) (s : σ) :
    leaves (y >>= fun _ => pure b) n s = leaves y n s := by
  rw [leaves, outcome_bind, leaves]
  rcases outcome y ⟨s, n⟩ with ⟨stopped | a, after⟩
  · rfl
  · rfl

theorem leaves_get_bind (g : Mortal σ → Exec (Mortal σ) Died β) (n : Nat) (s : σ) :
    leaves (get >>= g) n s = leaves (g ⟨s, n⟩) n s := by
  rw [leaves, outcome_bind, outcome_get]
  rfl

end Live

section Trying

inductive Stopped (ε : Type)
  | died
  | failed (error : ε)
  deriving DecidableEq, Repr

/-- One operation, after whose failure the program stops. -/
def trying (x : Exec σ ε α) : Exec (Mortal σ) (Stopped ε) α := fun s =>
  match s.left with
  | 0 => (.error .died, s)
  | n + 1 =>
    match outcome x s.state with
    | (.ok a, after) => (.ok a, ⟨after, n⟩)
    | (.error e, after) => (.error (.failed e), ⟨after, n⟩)

theorem outcome_trying_succ (x : Exec σ ε α) (s : σ) (n : Nat) :
    outcome (trying x) ⟨s, n + 1⟩ =
      match outcome x s with
      | (.ok a, after) => (.ok a, ⟨after, n⟩)
      | (.error e, after) => (.error (.failed e), ⟨after, n⟩) := rfl

/-- An operation after which the program goes on was done. -/
theorem outcome_trying_ok {x : Exec σ ε α} {s s' : Mortal σ} {a : α}
    (goes : outcome (trying x) s = (.ok a, s')) : outcome x s.state = (.ok a, s'.state) := by
  rcases s with ⟨state, left⟩
  cases left with
  | zero => cases goes
  | succ n =>
      rw [outcome_trying_succ] at goes
      rcases ends : outcome x state with ⟨e | b, after⟩
      · rw [ends] at goes
        cases goes
      · rw [ends] at goes
        cases goes
        rfl

variable {β : Type} {P : σ → Prop} {Q : Except (Stopped ε) β × Mortal σ → Prop}

/-- How a program ends, by how far it gets: it dies before the operation, the operation fails, or
the rest is done. -/
theorem ends_trying {x : Exec σ ε α} {f : α → Exec (Mortal σ) (Stopped ε) β} {s : σ} {n : Nat}
    (dead : Q (.error .died, ⟨s, n⟩))
    (failed : ∀ e after n, outcome x s = (.error e, after) → Q (.error (.failed e), ⟨after, n⟩))
    (done : ∀ a after left, outcome x s = (.ok a, after) → n = left + 1 →
      Q (outcome (f a) ⟨after, left⟩)) :
    Q (outcome (trying x >>= f) ⟨s, n⟩) := by
  rw [outcome_bind]
  cases n with
  | zero => exact dead
  | succ left =>
      rw [outcome_trying_succ]
      rcases ends : outcome x s with ⟨e | a, after⟩
      · exact failed e after left ends
      · exact done a after left ends rfl

/-- What is left behind. -/
theorem left_trying {x : Exec σ ε α} {f : α → Exec (Mortal σ) (Stopped ε) β} {s : Mortal σ}
    (dead : P s.state) (failed : ∀ e after, outcome x s.state = (.error e, after) → P after)
    (done : ∀ a after n, outcome x s.state = (.ok a, after) →
      P (outcome (f a) ⟨after, n⟩).2.state) :
    P (outcome (trying x >>= f) s).2.state :=
  ends_trying (Q := fun ended => P ended.2.state) dead (fun e after _ ends => failed e after ends)
    fun a after left ends _ => done a after left ends

theorem left_trying_last {x : Exec σ ε α} {s : Mortal σ} (dead : P s.state)
    (ran : P (outcome x s.state).2) : P (outcome (trying x) s).2.state := by
  rcases s with ⟨state, left⟩
  cases left with
  | zero => exact dead
  | succ n =>
      rw [outcome_trying_succ]
      rcases ends : outcome x state with ⟨e | a, after⟩
      · rwa [ends] at ran
      · rwa [ends] at ran

end Trying

section Lives

/-- A process that lives to do so many operations does what the program does. -/
def Lives (x : Exec σ ε α) (y : Exec (Mortal σ) (Stopped ε) α) (ops : Nat) : Prop :=
  ∀ s n, ops ≤ n → ∃ left, n ≤ left + ops ∧
    outcome y ⟨s, n⟩ = ((outcome x s).1.mapError .failed, ⟨(outcome x s).2, left⟩)

variable {β : Type}

theorem Lives.pure (a : α) (ops : Nat) :
    Lives (Pure.pure a : Exec σ ε α) (Pure.pure a) ops := fun _ n _ => ⟨n, Nat.le_add_right .., rfl⟩

theorem Lives.throw (e : ε) :
    Lives (MonadExcept.throw e : Exec σ ε α) (MonadExcept.throw (.failed e)) 0 :=
  fun _ n _ => ⟨n, Nat.le_refl n, rfl⟩

theorem Lives.reading (f : σ → Except ε α) :
    Lives (Exec.reading f) (Exec.reading fun m => (f m.state).mapError .failed) 0 :=
  fun _ n _ => ⟨n, Nat.le_refl n, rfl⟩

theorem Lives.trying (x : Exec σ ε α) : Lives x (Exec.trying x) 1 := by
  intro s n alive
  obtain ⟨left, rfl⟩ := Nat.exists_eq_add_of_le' alive
  refine ⟨left, Nat.le_refl _, ?_⟩
  rw [outcome_trying_succ]
  rcases outcome x s with ⟨e | a, after⟩
  · rfl
  · rfl

theorem Lives.bind {x : Exec σ ε α} {y : Exec (Mortal σ) (Stopped ε) α} {f : α → Exec σ ε β}
    {g : α → Exec (Mortal σ) (Stopped ε) β} {first : Nat} (lives : Lives x y first) (rest : Nat)
    (goesOn : ∀ a, Lives (f a) (g a) rest) : Lives (x >>= f) (y >>= g) (first + rest) := by
  intro s n alive
  obtain ⟨left, spent, same⟩ := lives s n (by omega)
  rw [outcome_bind, outcome_bind, same]
  rcases outcome x s with ⟨e | a, after⟩
  · exact ⟨left, by omega, rfl⟩
  · obtain ⟨last, also, ends⟩ := goesOn a after left (by omega)
    exact ⟨last, by omega, ends⟩

end Lives

end Exec
