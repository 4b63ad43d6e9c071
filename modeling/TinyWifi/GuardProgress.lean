import TinyWifi.RevertCalls

/-! Nothing but the action holds a call on a guard up: the worker and the call itself can always be
run until the call has ended, without the timeout of the wait. -/

namespace TinyWifi

open Runs

namespace CallPc

def notified : CallPc → Bool
  | .cancelling _ => false
  | _ => true

def ended : CallPc → Bool
  | .confirmed _ | .dropped => true
  | _ => false

/-- How far the call is from its end; notifying can set the worker back to where it wakes up. -/
def distance : CallPc → Nat
  | .cancelling .locking => 13
  | .cancelling .marking => 12
  | .cancelling .unlocking => 11
  | .cancelling .notifying => 10
  | .reading | .joining => 1
  | .confirmed _ | .dropped => 0

end CallPc

/-- `confirm` does not join, and the drop reads nothing. -/
def GuardCall.takes {τ : Type} : GuardCall τ → CallPc → Bool
  | .confirm _, .joining | .confirm _, .dropped | .drop, .reading | .drop, .confirmed _ => false
  | _, _ => true

theorem GuardCall.takes_afterwards {τ : Type} (c : GuardCall τ) : c.takes c.afterwards = true := by
  cases c <;> rfl

/-- How far the worker is from where it waits or has finished. -/
def WorkerPc.distance {α : Type} : WorkerPc (ActionPc α) → Nat
  | .start | .waking _ => 8
  | .checking _ => 7
  | .storing => 6
  | .unlocking => 5
  | .acting .called => 4
  | .acting (.running _) => 3
  | .leaving => 2
  | .parked | .finished => 0

namespace Guard

variable {τ α : Type}

/-- A worker that has been notified does not go back to wait, and a call takes its own steps. -/
structure Orderly (s : Guard τ α) : Prop where
  awake : ∀ c, (s.pcs c).notified = true → s.core.worker ≠ .parked
  own : ∀ c : GuardCall τ, c.takes (s.pcs c) = true

/-- Neither the timeout nor a call, and the action gets no further than to return. -/
def unaided (c : GuardCall τ) : GuardEvent τ α → Prop
  | .worker => True
  | .call d => d = c
  | .act next => next = none
  | .timeout => False

section Steps

variable {first : α} {s s' : Guard τ α} {c : GuardCall τ}

theorem orderly_armed : Orderly (armed : Guard τ α) where
  awake c notified := by cases notified
  own c := by cases c <;> rfl

theorem CallPc.marked_of_notified {pc : CallPc} (notified : pc.notified = true) :
    pc.marked = true := by
  cases pc with
  | cancelling stage => cases notified
  | _ => rfl

/-- A worker that goes to wait has seen that nobody has cancelled. -/
theorem parked_workerStep (step : s.workerStep first = some s')
    (parked : s'.core.worker = .parked) : s.core.cancelled = false := by
  rcases workerStep_inv step with ⟨-, rfl⟩ | ⟨core, moved, rfl⟩
  · simp [RevertState.act] at parked
  · cases RevertState.workerStep_moves moved with
    | park _ clear => exact clear
    | _ => simp at parked

/-- The worker comes nearer to its end where it does not wait, lack the lock or act. -/
theorem exists_core_step_down {core : GuardCore τ α} (sound : core.Sound)
    (waits : core.worker ≠ .parked) (returned : core.worker ≠ .finished)
    (acting : ∀ stage, core.worker ≠ .acting stage)
    (free : core.holder ≠ some .worker → core.holder.isNone = true) :
    ∃ core', core.workerStep .called = some core' ∧
      core'.worker.distance < core.worker.distance := by
  cases pc : core.worker with
  | parked => exact absurd pc waits
  | finished => exact absurd pc returned
  | acting stage => exact absurd pc (acting stage)
  | start =>
      simp only [RevertState.Sound, pc] at sound
      refine ⟨{ core with holder := some .worker, worker := .checking false }, ?_, ?_⟩
      · simp [RevertState.workerStep, pc, free sound.1]
      · simp [WorkerPc.distance]
  | waking timedOut =>
      simp only [RevertState.Sound, pc] at sound
      refine ⟨{ core with holder := some .worker, worker := .checking timedOut }, ?_, ?_⟩
      · simp [RevertState.workerStep, pc, free sound.1]
      · simp [WorkerPc.distance]
  | checking timedOut =>
      cases set : core.cancelled <;> cases timedOut <;>
        simp [RevertState.workerStep, pc, set, WorkerPc.distance]
  | storing | unlocking | leaving => simp [RevertState.workerStep, pc, WorkerPc.distance]

theorem notify_distance (core : GuardCore τ α) : core.notify.worker.distance ≤
    core.worker.distance + 8 := by
  cases pc : core.worker <;> simp [RevertState.notify, pc, WorkerPc.distance]

variable [DecidableEq τ]

theorem Orderly.step_awake (orderly : Orderly s) (sound : Sound s) {event : GuardEvent τ α}
    {d : GuardCall τ} (step : s.step first event = some s')
    (notified : (s'.pcs d).notified = true) : s'.core.worker ≠ .parked := by
  intro parked
  cases event with
  | worker =>
      have same : s'.pcs d = s.pcs d := step_pcs (by simp) step
      have set := sound.marked d (CallPc.marked_of_notified (same ▸ notified))
      rw [parked_workerStep step parked] at set
      cases set
  | timeout =>
      obtain ⟨core, moved, rfl⟩ := Option.map_eq_some_iff.mp step
      obtain ⟨-, rfl⟩ := RevertState.timeout_inv moved
      simp at parked
  | act next =>
      obtain ⟨stage, -, rfl⟩ := actStep_inv step
      cases next <;> simp [RevertState.act] at parked
  | call c =>
      obtain ⟨pc, core, moves, rfl⟩ := callStep_moves step
      by_cases same : d = c
      · subst d
        rw [goOn_pcs_self] at notified
        change core.worker = .parked at parked
        have before := orderly.awake c
        generalize s.pcs c = place at moves before
        cases moves with
        | notify => cases worker : s.core.worker <;> simp_all [RevertState.notify]
        | read => exact before rfl parked
        | join returned => simp [returned] at parked
        | _ => cases notified
      · rw [goOn_pcs_of_ne same] at notified
        have still := orderly.awake d notified
        apply still
        rw [← moves.worker still]
        exact parked

theorem Orderly.step (orderly : Orderly s) (sound : Sound s) {event : GuardEvent τ α}
    (step : s.step first event = some s') : Orderly s' where
  awake d notified := orderly.step_awake sound step notified
  own d := by
    by_cases called : event = .call d
    · subst called
      obtain ⟨pc, core, moves, rfl⟩ := callStep_moves step
      rw [goOn_pcs_self]
      have before := orderly.own d
      generalize s.pcs d = place at moves before
      cases moves with
      | notify => exact d.takes_afterwards
      | read => cases d <;> simp_all [GuardCall.takes]
      | join => cases d <;> simp_all [GuardCall.takes]
      | _ => cases d <;> rfl
    · rw [step_pcs called step]
      exact orderly.own d

/-- The same with the action, which may return at any stage. -/
theorem exists_worker_step_down (first : α) (c : GuardCall τ) (sound : Sound s)
    (waits : s.core.worker ≠ .parked) (returned : s.core.worker ≠ .finished)
    (free : s.core.holder ≠ some .worker → s.core.holder.isNone = true) :
    ∃ event s', unaided c event ∧ s.step first event = some s' ∧ s'.pcs = s.pcs ∧
      s'.core.worker.distance < s.core.worker.distance := by
  by_cases acting : ∃ stage, s.core.worker = .acting stage
  · obtain ⟨stage, pc⟩ := acting
    cases stage with
    | called =>
        let begun := { s with core := s.core.act (some (.running first)), starts := s.starts + 1 }
        refine ⟨.worker, begun, trivial, ?_, rfl, ?_⟩
        · simp [Guard.step, workerStep, pc, begun]
        · simp [begun, RevertState.act, WorkerPc.distance, pc]
    | running stage =>
        refine ⟨.act none, { s with core := s.core.act none }, rfl, ?_, rfl, ?_⟩
        · simp [Guard.step, actStep, pc]
        · simp [RevertState.act, WorkerPc.distance, pc]
  · rw [not_exists] at acting
    obtain ⟨core, moved, down⟩ := exists_core_step_down sound.core waits returned acting free
    refine ⟨.worker, { s with core := core }, trivial, ?_, rfl, down⟩
    rw [Guard.step, workerStep, moved]
    split
    · next pc => exact absurd pc (acting .called)
    · rfl

theorem exists_call_step_down (first : α) (free : s.core.holder.isNone = true ∨
      s.pcs c ≠ .cancelling .locking) (returned : s.core.worker = .finished ∨ s.pcs c ≠ .joining)
    (going : (s.pcs c).ended = false) :
    ∃ s', s.step first (.call c) = some s' ∧
      (s'.pcs c).distance + s'.core.worker.distance <
        (s.pcs c).distance + s.core.worker.distance := by
  cases place : s.pcs c with
  | cancelling stage =>
      cases stage with
      | locking =>
          have available := free.resolve_right (not_not_intro place)
          refine ⟨s.goOn c (.cancelling .marking) (s.core.lock c), ?_, ?_⟩
          · simp [Guard.step, callStep, place, RevertState.cancelStep, available]
          · rw [goOn_pcs_self]
            simp [goOn, RevertState.lock, CallPc.distance]
      | marking =>
          refine ⟨s.goOn c (.cancelling .unlocking) s.core.mark, ?_, ?_⟩
          · simp [Guard.step, callStep, place, RevertState.cancelStep]
          · rw [goOn_pcs_self]
            simp [goOn, RevertState.mark, CallPc.distance]
      | unlocking =>
          refine ⟨s.goOn c (.cancelling .notifying) s.core.unlock, ?_, ?_⟩
          · simp [Guard.step, callStep, place, RevertState.cancelStep]
          · rw [goOn_pcs_self]
            simp [goOn, RevertState.unlock, CallPc.distance]
      | notifying =>
          refine ⟨s.goOn c c.afterwards s.core.notify, ?_, ?_⟩
          · simp [Guard.step, callStep, place, RevertState.cancelStep]
          · rw [goOn_pcs_self]
            have woken := notify_distance s.core
            have near : c.afterwards.distance = 1 := by cases c <;> rfl
            change c.afterwards.distance + s.core.notify.worker.distance < 10 + _
            omega
  | reading =>
      refine ⟨s.goOn c (.confirmed (!s.core.fired)) s.core, ?_, ?_⟩
      · simp [Guard.step, callStep, place]
      · rw [goOn_pcs_self]
        simp [goOn, CallPc.distance]
  | joining =>
      have ended := returned.resolve_right (not_not_intro place)
      refine ⟨s.goOn c .dropped s.core, ?_, ?_⟩
      · simp [Guard.step, callStep, place, ended]
      · rw [goOn_pcs_self]
        simp [goOn, CallPc.distance]
  | confirmed inTime => simp [place, CallPc.ended] at going
  | dropped => simp [place, CallPc.ended] at going

/-- Some step brings the call nearer to its end, unless it has ended. -/
theorem exists_step_down (first : α) (sound : Sound s) (orderly : Orderly s)
    (others : ∀ d, d ≠ c → (s.pcs d).holdsLock = false) (going : (s.pcs c).ended = false) :
    ∃ event s', unaided c event ∧ s.step first event = some s' ∧
      (∀ d, d ≠ c → s'.pcs d = s.pcs d) ∧
      (s'.pcs c).distance + s'.core.worker.distance <
        (s.pcs c).distance + s.core.worker.distance := by
  have called {s' : Guard τ α} (step : s.step first (.call c) = some s') (d : GuardCall τ)
      (other : d ≠ c) : s'.pcs d = s.pcs d :=
    step_pcs (fun same => other (GuardEvent.call.inj same).symm) step
  -- who else could hold the lock is the worker
  have available (unheld : (s.pcs c).holdsLock = false) (waits : s.core.holder ≠ some .worker) :
      s.core.holder.isNone = true := by
    cases holder : s.core.holder with
    | none => rfl
    | some who =>
        cases who with
        | worker => exact absurd holder waits
        | caller d =>
            have holds := (sound.lock d).mp holder
            by_cases same : d = c
            · subst d
              simp [holds] at unheld
            · simp [others d same] at holds
  have worker (unheld : (s.pcs c).holdsLock = false) (waits : s.core.worker ≠ .parked)
      (returned : s.core.worker ≠ .finished) :
      ∃ event s', unaided c event ∧ s.step first event = some s' ∧
        (∀ d, d ≠ c → s'.pcs d = s.pcs d) ∧
        (s'.pcs c).distance + s'.core.worker.distance <
          (s.pcs c).distance + s.core.worker.distance := by
    obtain ⟨event, s', alone, step, pcs, down⟩ :=
      exists_worker_step_down first c sound waits returned (available unheld)
    refine ⟨event, s', alone, step, fun d _ => congrFun pcs d, ?_⟩
    rw [pcs]
    omega
  by_cases locking : s.pcs c = .cancelling .locking
  · by_cases held : s.core.holder = some .worker
    · have core := sound.core
      apply worker (by rw [locking]; rfl)
      all_goals
        intro pc
        simp [RevertState.Sound, pc, held] at core
    · have free := available (by rw [locking]; rfl) held
      obtain ⟨s', step, down⟩ := exists_call_step_down first (.inl free)
        (.inr (by simp [locking])) going
      exact ⟨.call c, s', rfl, step, called step, down⟩
  · by_cases joining : s.pcs c = .joining
    · by_cases returned : s.core.worker = .finished
      · obtain ⟨s', step, down⟩ := exists_call_step_down first (.inr locking)
          (.inl returned) going
        exact ⟨.call c, s', rfl, step, called step, down⟩
      · exact worker (by rw [joining]; rfl) (orderly.awake c (by rw [joining]; rfl)) returned
    · obtain ⟨s', step, down⟩ := exists_call_step_down first (.inr locking)
        (.inr joining) going
      exact ⟨.call c, s', rfl, step, called step, down⟩

theorem exists_run_ended (first : α) (sound : Sound s) (orderly : Orderly s)
    (others : ∀ d, d ≠ c → (s.pcs d).holdsLock = false) :
    ∃ events s', (∀ event ∈ events, unaided c event) ∧
      runSome (step first) s events = some s' ∧ Orderly s' ∧ (s'.pcs c).ended = true := by
  induction weight : (s.pcs c).distance + s.core.worker.distance using Nat.strongRecOn
    generalizing s with
  | _ weight ih =>
      by_cases ended : (s.pcs c).ended = true
      · exact ⟨[], s, by simp, rfl, orderly, ended⟩
      · rw [Bool.not_eq_true] at ended
        obtain ⟨event, middle, alone, step, pcs, down⟩ :=
          exists_step_down first sound orderly others ended
        obtain ⟨events, s', quiet, ran, done⟩ := ih _ (weight ▸ down) (sound.step step)
          (orderly.step sound step) (fun d other => by rw [pcs d other, others d other]) rfl
        refine ⟨event :: events, s', ?_, Option.bind_eq_some_iff.mpr ⟨middle, step, ran⟩, done⟩
        simpa using ⟨alone, quiet⟩

end Steps

end Guard

end TinyWifi
