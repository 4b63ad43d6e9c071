import Mathlib.Tactic.Common

/-! `AutoRevert` of `safety.rs`: a flag behind a lock, the mark that the timer fired, and the worker
thread that waits for the timeout. Threads take one step at a time, in any order. -/

namespace TinyWifi

/-- Where the worker is; `acting` is the supplied action, which runs without the lock. -/
inductive WorkerPc (α : Type)
  | start
  | checking (timedOut : Bool)
  | parked
  | waking (timedOut : Bool)
  | storing
  | unlocking
  | acting (stage : α)
  | leaving
  | finished
  deriving DecidableEq, Repr

inductive Holder (τ : Type)
  | worker
  | caller (t : τ)
  deriving DecidableEq, Repr

/-- `RevertState`, its worker, and the callers `τ` that cancel it. -/
structure RevertState (τ α : Type) where
  holder : Option (Holder τ)
  cancelled : Bool
  fired : Bool
  worker : WorkerPc α
  deriving DecidableEq, Repr

/-- The steps that `confirm` and `drop` share: set the flag under the lock, then notify. -/
inductive CancelPc
  | locking
  | marking
  | unlocking
  | notifying
  deriving DecidableEq, Repr

namespace RevertState

variable {τ α : Type}

def arm : RevertState τ α := ⟨none, false, false, .start⟩

/-- One step of the worker, up to the action and after it. It waits as long as it has neither
timed out nor seen the flag, and fires only if it timed out and the flag is not set. -/
def workerStep (action : α) (s : RevertState τ α) : Option (RevertState τ α) :=
  match s.worker with
  | .start =>
    if s.holder.isNone then
      some { s with holder := some .worker, worker := .checking false }
    else none
  | .checking timedOut =>
    if s.cancelled then some { s with worker := .leaving }
    else if timedOut then some { s with worker := .storing }
    else some { s with holder := none, worker := .parked }
  | .waking timedOut =>
    if s.holder.isNone then
      some { s with holder := some .worker, worker := .checking timedOut }
    else none
  | .storing => some { s with fired := true, worker := .unlocking }
  | .unlocking => some { s with holder := none, worker := .acting action }
  | .leaving => some { s with holder := none, worker := .finished }
  | .parked | .acting _ | .finished => none

/-- The timeout of the wait; the worker still has to take the lock again. -/
def timeout (s : RevertState τ α) : Option (RevertState τ α) :=
  match s.worker with
  | .parked => some { s with worker := .waking true }
  | _ => none

def act (next : Option α) (s : RevertState τ α) : RevertState τ α :=
  { s with worker := match next with
      | some stage => .acting stage
      | none => .finished }

def lock (t : τ) (s : RevertState τ α) : RevertState τ α := { s with holder := some (.caller t) }

def mark (s : RevertState τ α) : RevertState τ α := { s with cancelled := true }

def unlock (s : RevertState τ α) : RevertState τ α := { s with holder := none }

def notify (s : RevertState τ α) : RevertState τ α :=
  { s with worker := match s.worker with
      | .parked => .waking false
      | pc => pc }

def cancelStep (t : τ) (pc : CancelPc) (s : RevertState τ α) :
    Option (Option CancelPc × RevertState τ α) :=
  match pc with
  | .locking =>
    if s.holder.isNone then some (some .marking, s.lock t) else none
  | .marking => some (some .unlocking, s.mark)
  | .unlocking => some (some .notifying, s.unlock)
  | .notifying => some (none, s.notify)

/-- How far the action has come; it has passed all its stages when it has returned. -/
def past (passed : α → Bool) (s : RevertState τ α) : Bool :=
  match s.worker with
  | .acting stage => passed stage
  | .finished => s.fired
  | _ => false

def Sound (s : RevertState τ α) : Prop :=
  match s.worker with
  | .start | .parked | .waking _ => s.holder ≠ some .worker ∧ s.fired = false
  | .checking _ => s.holder = some .worker ∧ s.fired = false
  | .storing => s.holder = some .worker ∧ s.fired = false ∧ s.cancelled = false
  | .unlocking => s.holder = some .worker ∧ s.fired = true
  | .acting _ => s.holder ≠ some .worker ∧ s.fired = true
  | .leaving => s.holder = some .worker ∧ s.fired = false ∧ s.cancelled = true
  | .finished => s.holder ≠ some .worker ∧ (s.fired = false → s.cancelled = true)

/-- What every step keeps: both flags are final, and a set flag settles whether the timer fired. -/
structure Follows (s s' : RevertState τ α) : Prop where
  cancelled : s.cancelled = true → s'.cancelled = true
  fired : s.fired = true → s'.fired = true
  settled : s.cancelled = true → s'.fired = s.fired

/-- What a step of the worker keeps besides: it does not touch the flag or a caller's lock. -/
structure LeavesCallers (s s' : RevertState τ α) : Prop where
  cancelled : s'.cancelled = s.cancelled
  callers : ∀ t, s'.holder = some (.caller t) ↔ s.holder = some (.caller t)

inductive WorkerMoves (action : α) (s : RevertState τ α) : RevertState τ α → Prop
  | begin (pc : s.worker = .start) (free : s.holder.isNone = true) :
      WorkerMoves action s { s with holder := some .worker, worker := .checking false }
  | wake {timedOut : Bool} (pc : s.worker = .waking timedOut) (free : s.holder.isNone = true) :
      WorkerMoves action s { s with holder := some .worker, worker := .checking timedOut }
  | cancel {timedOut : Bool} (pc : s.worker = .checking timedOut) (set : s.cancelled = true) :
      WorkerMoves action s { s with worker := .leaving }
  | expire (pc : s.worker = .checking true) (clear : s.cancelled = false) :
      WorkerMoves action s { s with worker := .storing }
  | park (pc : s.worker = .checking false) (clear : s.cancelled = false) :
      WorkerMoves action s { s with holder := none, worker := .parked }
  | store (pc : s.worker = .storing) :
      WorkerMoves action s { s with fired := true, worker := .unlocking }
  | call (pc : s.worker = .unlocking) :
      WorkerMoves action s { s with holder := none, worker := .acting action }
  | leave (pc : s.worker = .leaving) :
      WorkerMoves action s { s with holder := none, worker := .finished }

section Steps

variable {s s' : RevertState τ α} {action : α} {t : τ}

theorem workerStep_moves (step : s.workerStep action = some s') : WorkerMoves action s s' := by
  cases pc : s.worker with
  | start =>
      simp only [workerStep, pc, Option.ite_none_right_eq_some, Option.some_inj] at step
      obtain ⟨free, rfl⟩ := step
      exact .begin pc free
  | checking timedOut =>
      simp only [workerStep, pc] at step
      split at step
      · next set =>
          cases step
          exact .cancel pc set
      · next clear =>
          rw [Bool.not_eq_true] at clear
          split at step
          · next expired =>
              cases step
              subst expired
              exact .expire pc clear
          · next early =>
              cases step
              rw [Bool.not_eq_true] at early
              subst early
              exact .park pc clear
  | waking timedOut =>
      simp only [workerStep, pc, Option.ite_none_right_eq_some, Option.some_inj] at step
      obtain ⟨free, rfl⟩ := step
      exact .wake pc free
  | storing =>
      simp only [workerStep, pc] at step
      cases step
      exact .store pc
  | unlocking =>
      simp only [workerStep, pc] at step
      cases step
      exact .call pc
  | leaving =>
      simp only [workerStep, pc] at step
      cases step
      exact .leave pc
  | parked => simp [workerStep, pc] at step
  | acting stage => simp [workerStep, pc] at step
  | finished => simp [workerStep, pc] at step

theorem sound_arm : Sound (arm : RevertState τ α) := ⟨by simp [arm], rfl⟩

theorem follows_of_flags {s s' : RevertState τ α} (cancelled : s'.cancelled = s.cancelled)
    (fired : s'.fired = s.fired) : Follows s s' where
  cancelled h := cancelled.trans h
  fired h := fired.trans h
  settled _ := fired

theorem callers_of_not_caller {before after : Option (Holder τ)}
    (first : ∀ t, before ≠ some (.caller t)) (later : ∀ t, after ≠ some (.caller t)) (t : τ) :
    after = some (.caller t) ↔ before = some (.caller t) :=
  iff_of_false (later t) (first t)

theorem not_caller_of_isNone {holder : Option (Holder τ)} (free : holder.isNone = true) (t : τ) :
    holder ≠ some (.caller t) := by
  rw [Option.isNone_iff_eq_none.mp free]
  exact nofun

theorem not_caller_of_worker {holder : Option (Holder τ)} (held : holder = some .worker) (t : τ) :
    holder ≠ some (.caller t) := by
  simp [held]

theorem Sound.workerStep (sound : Sound s) (step : s.workerStep action = some s') :
    Sound s' ∧ Follows s s' ∧ LeavesCallers s s' := by
  have taken (t : τ) : some Holder.worker ≠ some (Holder.caller t) := by simp
  have free (t : τ) : none ≠ some (Holder.caller t) := nofun
  cases workerStep_moves step with
  | begin pc unlocked =>
      simp only [Sound, pc] at sound
      exact ⟨⟨rfl, sound.2⟩, follows_of_flags rfl rfl,
        ⟨rfl, callers_of_not_caller (not_caller_of_isNone unlocked) taken⟩⟩
  | wake pc unlocked =>
      simp only [Sound, pc] at sound
      exact ⟨⟨rfl, sound.2⟩, follows_of_flags rfl rfl,
        ⟨rfl, callers_of_not_caller (not_caller_of_isNone unlocked) taken⟩⟩
  | cancel pc set =>
      simp only [Sound, pc] at sound
      exact ⟨⟨sound.1, sound.2, set⟩, follows_of_flags rfl rfl, ⟨rfl, fun _ => .rfl⟩⟩
  | expire pc clear =>
      simp only [Sound, pc] at sound
      exact ⟨⟨sound.1, sound.2, clear⟩, follows_of_flags rfl rfl, ⟨rfl, fun _ => .rfl⟩⟩
  | park pc clear =>
      simp only [Sound, pc] at sound
      exact ⟨⟨by simp, sound.2⟩, follows_of_flags rfl rfl,
        ⟨rfl, callers_of_not_caller (not_caller_of_worker sound.1) free⟩⟩
  | store pc =>
      simp only [Sound, pc] at sound
      refine ⟨⟨sound.1, rfl⟩, ⟨id, fun _ => rfl, fun cancelled => ?_⟩, ⟨rfl, fun _ => .rfl⟩⟩
      -- the flag is not set: the worker has held the lock since it looked
      rw [sound.2.2] at cancelled
      cases cancelled
  | call pc =>
      simp only [Sound, pc] at sound
      exact ⟨⟨by simp, sound.2⟩, follows_of_flags rfl rfl,
        ⟨rfl, callers_of_not_caller (not_caller_of_worker sound.1) free⟩⟩
  | leave pc =>
      simp only [Sound, pc] at sound
      exact ⟨⟨by simp, fun _ => sound.2.2⟩, follows_of_flags rfl rfl,
        ⟨rfl, callers_of_not_caller (not_caller_of_worker sound.1) free⟩⟩

theorem timeout_inv (step : s.timeout = some s') :
    s.worker = .parked ∧ s' = { s with worker := .waking true } := by
  unfold RevertState.timeout at step
  split at step
  · next pc => exact ⟨pc, (Option.some.inj step).symm⟩
  · cases step

theorem Sound.timeout (sound : Sound s) (step : s.timeout = some s') :
    Sound s' ∧ Follows s s' ∧ LeavesCallers s s' := by
  obtain ⟨pc, rfl⟩ := timeout_inv step
  simp only [Sound, pc] at sound
  exact ⟨sound, follows_of_flags rfl rfl, ⟨rfl, fun _ => .rfl⟩⟩

theorem Sound.act {stage : α} (sound : Sound s) (acting : s.worker = .acting stage)
    (next : Option α) : Sound (s.act next) ∧ Follows s (s.act next) ∧
      LeavesCallers s (s.act next) := by
  simp only [Sound, acting] at sound
  refine ⟨?_, follows_of_flags rfl rfl, ⟨rfl, fun _ => .rfl⟩⟩
  cases next with
  | some stage => exact sound
  | none => exact ⟨sound.1, fun idle => absurd (idle.symm.trans sound.2) Bool.noConfusion⟩

theorem Sound.lock (sound : Sound s) (free : s.holder.isNone = true) (t : τ) :
    Sound (s.lock t) := by
  have unlocked : s.holder ≠ some .worker := by
    rw [Option.isNone_iff_eq_none.mp free]
    nofun
  cases pc : s.worker <;> simp_all [Sound, RevertState.lock]

/-- Whoever sets the flag holds the lock, so the worker is not between its look at the flag and the
mark it leaves. -/
theorem Sound.mark (sound : Sound s) (held : s.holder = some (.caller t)) : Sound s.mark := by
  cases pc : s.worker <;> simp_all [Sound, RevertState.mark]

theorem Sound.unlock (sound : Sound s) (held : s.holder = some (.caller t)) :
    Sound s.unlock := by
  cases pc : s.worker <;> simp_all [Sound, RevertState.unlock]

theorem Sound.notify (sound : Sound s) : Sound s.notify := by
  cases pc : s.worker <;> simp_all [Sound, RevertState.notify]

theorem Sound.past_workerStep {passed : α → Bool} (sound : Sound s)
    (fresh : passed action = false) (step : s.workerStep action = some s') :
    s'.past passed = s.past passed := by
  cases workerStep_moves step with
  | call pc => simp [past, pc, fresh]
  | leave pc =>
      simp only [Sound, pc] at sound
      simp [past, pc, sound.2.1]
  | begin pc _ | wake pc _ | cancel pc _ | expire pc _ | park pc _ | store pc => simp [past, pc]

theorem past_timeout (passed : α → Bool) (step : s.timeout = some s') :
    s'.past passed = s.past passed := by
  obtain ⟨pc, rfl⟩ := timeout_inv step
  simp [past, pc]

end Steps

end RevertState

end TinyWifi
