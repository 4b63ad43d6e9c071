import TinyWifi.Lib.Runs

/-! Endless runs of a system with operations that may not be enabled: what holds at every moment of
a run, what stays once it holds, and what a fair schedule leads to. -/

namespace Runs

variable {σ ι : Type*}

def advance (next : σ → ι → Option σ) (s : σ) : Option ι → Option σ
  | some op => next s op
  | none => some s

/-- A run that goes on for ever; one that stops does nothing from then on. -/
structure Endless (next : σ → ι → Option σ) (start : σ) where
  state : Nat → σ
  event : Nat → Option ι
  starts : state 0 = start
  moves : ∀ n, advance next (state n) (event n) = some (state (n + 1))

namespace Endless

variable {next : σ → ι → Option σ} {start : σ} (run : Endless next start)

/-- An operation that is enabled from some moment on is taken later. -/
def Fair (op : ι) : Prop :=
  ∀ n, ∃ m, n ≤ m ∧ (run.event m = some op ∨ next (run.state m) op = none)

/-- Whenever the first holds, the second holds then or later. -/
def LeadsTo (P Q : σ → Prop) : Prop := ∀ n, P (run.state n) → ∃ m, n ≤ m ∧ Q (run.state m)

variable {run}

theorem step_of_event {n : Nat} {op : ι} (taken : run.event n = some op) :
    next (run.state n) op = some (run.state (n + 1)) := by
  have moved := run.moves n
  rwa [taken] at moved

theorem state_of_idle {n : Nat} (idle : run.event n = none) :
    run.state (n + 1) = run.state n := by
  have moved := run.moves n
  rw [idle] at moved
  exact (Option.some.inj moved).symm

theorem stable (P : σ → Prop)
    (kept : ∀ n op, P (run.state n) → run.event n = some op → P (run.state (n + 1)))
    {n m : Nat} (later : n ≤ m) (now : P (run.state n)) : P (run.state m) := by
  induction later with
  | refl => exact now
  | @step m _ ih =>
      cases taken : run.event m with
      | none =>
          rw [state_of_idle taken]
          exact ih
      | some op => exact kept m op ih taken

theorem invariant {Inv : σ → Prop} (initial : Inv start)
    (kept : ∀ s op s', Inv s → next s op = some s' → Inv s') (n : Nat) : Inv (run.state n) := by
  have first : Inv (run.state 0) := by
    rw [run.starts]
    exact initial
  refine stable Inv (fun m op sound taken => ?_) (Nat.zero_le n) first
  exact kept _ op _ sound (step_of_event taken)

/-- What holds now and did not at the start came about in one step. -/
theorem exists_step (P : σ → Prop) (before : ¬ P start) {n : Nat} (now : P (run.state n)) :
    ∃ m op, m < n ∧ run.event m = some op ∧ ¬ P (run.state m) ∧ P (run.state (m + 1)) := by
  induction n with
  | zero =>
      rw [run.starts] at now
      exact absurd now before
  | succ n ih =>
      by_cases already : P (run.state n)
      · obtain ⟨m, op, earlier, change⟩ := ih already
        exact ⟨m, op, Nat.lt_succ_of_lt earlier, change⟩
      · cases taken : run.event n with
        | none =>
            rw [state_of_idle taken] at now
            exact absurd now already
        | some op => exact ⟨n, op, Nat.lt_succ_self n, taken, already, now⟩

theorem LeadsTo.trans {P Q R : σ → Prop} (first : run.LeadsTo P Q) (second : run.LeadsTo Q R) :
    run.LeadsTo P R := by
  intro n now
  obtain ⟨m, later, met⟩ := first n now
  obtain ⟨k, last, ended⟩ := second m met
  exact ⟨k, Nat.le_trans later last, ended⟩

/-- A fair operation that stays enabled is taken. -/
theorem leadsTo_of_fair {op : ι} (fair : run.Fair op) {P Q : σ → Prop}
    (others : ∀ s other s', other ≠ op → P s → next s other = some s' → P s' ∨ Q s')
    (taken : ∀ s s', P s → next s op = some s' → Q s')
    (enabled : ∀ s, P s → next s op ≠ none) : run.LeadsTo P Q := by
  intro n now
  by_contra unmet
  have never (m : Nat) (later : n ≤ m) : ¬ Q (run.state m) := fun met => unmet ⟨m, later, met⟩
  have waits (m : Nat) (later : n ≤ m) : P (run.state m) := by
    induction later with
    | refl => exact now
    | @step m later ih =>
        cases event : run.event m with
        | none =>
            rw [state_of_idle event]
            exact ih
        | some other =>
            have moved := step_of_event event
            have unmet := never (m + 1) (Nat.le_succ_of_le later)
            by_cases own : other = op
            · subst other
              exact absurd (taken _ _ ih moved) unmet
            · exact (others _ other _ own ih moved).resolve_right unmet
  obtain ⟨m, later, event | disabled⟩ := fair n
  · exact never (m + 1) (Nat.le_succ_of_le later) (taken _ _ (waits m later) (step_of_event event))
  · exact enabled _ (waits m later) disabled

theorem fair_of_disabled {op : ι} {k : Nat} (stuck : ∀ n, k ≤ n → next (run.state n) op = none) :
    run.Fair op :=
  fun n => ⟨max n k, Nat.le_max_left n k, .inr (stuck _ (Nat.le_max_right n k))⟩

def resting (next : σ → ι → Option σ) (s : σ) : Endless next s where
  state _ := s
  event _ := none
  starts := rfl
  moves _ := rfl

def cons {middle : σ} (op : ι) (first : next start op = some middle) (run : Endless next middle) :
    Endless next start where
  state
    | 0 => start
    | n + 1 => run.state n
  event
    | 0 => some op
    | n + 1 => run.event n
  starts := rfl
  moves
    | 0 => first.trans (congrArg some run.starts.symm)
    | n + 1 => run.moves n

/-- Every run is the beginning of one that does nothing after it. -/
theorem exists_of_runSome {ops : List ι} {s : σ} (reached : runSome next start ops = some s) :
    ∃ run : Endless next start, ∀ n, ops.length ≤ n → run.state n = s := by
  induction ops generalizing start with
  | nil =>
      cases reached
      exact ⟨resting next _, fun _ _ => rfl⟩
  | cons op rest ih =>
      obtain ⟨middle, first, later⟩ := Option.bind_eq_some_iff.mp reached
      obtain ⟨run, ended⟩ := ih later
      refine ⟨cons op first run, fun n past => ?_⟩
      cases n with
      | zero => cases past
      | succ n => exact ended n (Nat.le_of_succ_le_succ past)

end Endless

end Runs
