import TinyWifi.AutoRevert
import TinyWifi.Lib.Endless

/-! The calls on an armed guard: `confirm` from any number of callers and the drop, against the
worker and its action. Borrowing keeps the drop apart from `confirm`; nothing here needs that. -/

namespace TinyWifi

open Runs

inductive GuardCall (τ : Type)
  | confirm (caller : τ)
  | drop
  deriving DecidableEq, Repr

/-- Where a call is; `confirm` ends with the value that it returns. -/
inductive CallPc
  | cancelling (stage : CancelPc)
  | reading
  | joining
  | confirmed (inTime : Bool)
  | dropped
  deriving DecidableEq, Repr

/-- The worker has let go of the lock when it calls the action. -/
inductive ActionPc (α : Type)
  | called
  | running (stage : α)
  deriving DecidableEq, Repr

abbrev GuardCore (τ α : Type) := RevertState (GuardCall τ) (ActionPc α)

/-- `starts` counts how often the action has begun to run. -/
structure Guard (τ α : Type) where
  core : GuardCore τ α
  pcs : GuardCall τ → CallPc
  starts : Nat

inductive GuardEvent (τ α : Type)
  | worker
  | timeout
  | act (next : Option α)
  | call (c : GuardCall τ)
  deriving DecidableEq, Repr

def GuardCall.afterwards {τ : Type} : GuardCall τ → CallPc
  | .confirm _ => .reading
  | .drop => .joining

namespace CallPc

def holdsLock : CallPc → Bool
  | .cancelling .marking | .cancelling .unlocking => true
  | _ => false

def marked : CallPc → Bool
  | .cancelling .locking | .cancelling .marking => false
  | _ => true

end CallPc

def ActionPc.begun {α : Type} : ActionPc α → Bool
  | .called => false
  | .running _ => true

namespace Guard

variable {τ α : Type}

def armed : Guard τ α := ⟨.arm, fun _ => .cancelling .locking, 0⟩

/-- The next step of the worker, up to the first stage of the action. -/
def workerStep (first : α) (s : Guard τ α) : Option (Guard τ α) :=
  match s.core.worker with
  | .acting .called =>
    some { s with core := s.core.act (some (.running first)), starts := s.starts + 1 }
  | _ => (s.core.workerStep .called).map fun core => { s with core := core }

/-- The action may do anything, and need not return. -/
def actStep (next : Option α) (s : Guard τ α) : Option (Guard τ α) :=
  match s.core.worker with
  | .acting (.running _) => some { s with core := s.core.act (next.map .running) }
  | _ => none

def goOn [DecidableEq τ] (c : GuardCall τ) (pc : CallPc) (core : GuardCore τ α)
    (s : Guard τ α) : Guard τ α :=
  { s with core := core, pcs := Function.update s.pcs c pc }

/-- `AutoRevert::confirm`, and `drop`, which joins the worker. -/
def callStep [DecidableEq τ] (c : GuardCall τ) (s : Guard τ α) : Option (Guard τ α) :=
  match s.pcs c with
  | .cancelling stage =>
    (s.core.cancelStep c stage).map fun result =>
      s.goOn c (match result.1 with
        | some stage => .cancelling stage
        | none => c.afterwards) result.2
  | .reading => some (s.goOn c (.confirmed (!s.core.fired)) s.core)
  | .joining =>
    match s.core.worker with
    | .finished => some (s.goOn c .dropped s.core)
    | _ => none
  | .confirmed _ | .dropped => none

def step [DecidableEq τ] (first : α) (s : Guard τ α) : GuardEvent τ α → Option (Guard τ α)
  | .worker => s.workerStep first
  | .timeout => s.core.timeout.map fun core => { s with core := core }
  | .act next => s.actStep next
  | .call c => s.callStep c

inductive Moves (c : GuardCall τ) (core : GuardCore τ α) :
    CallPc → CallPc → GuardCore τ α → Prop
  | lock (free : core.holder.isNone = true) :
      Moves c core (.cancelling .locking) (.cancelling .marking) (core.lock c)
  | mark : Moves c core (.cancelling .marking) (.cancelling .unlocking) core.mark
  | unlock : Moves c core (.cancelling .unlocking) (.cancelling .notifying) core.unlock
  | notify : Moves c core (.cancelling .notifying) c.afterwards core.notify
  | read : Moves c core .reading (.confirmed (!core.fired)) core
  | join (returned : core.worker = .finished) : Moves c core .joining .dropped core

/-- The flag is set by the calls that are past it, `fired` is what the calls have returned, and the
action has begun where the worker says so. -/
structure Sound (s : Guard τ α) : Prop where
  core : s.core.Sound
  lock : ∀ c, s.core.holder = some (.caller c) ↔ (s.pcs c).holdsLock = true
  marked : ∀ c, (s.pcs c).marked = true → s.core.cancelled = true
  inTime : ∀ c inTime, s.pcs c = .confirmed inTime → s.core.fired = !inTime
  starts : s.starts = if s.core.past ActionPc.begun then 1 else 0
  dropped : ∀ c, s.pcs c = .dropped → s.core.worker = .finished

section Steps

variable {first : α} {s s' : Guard τ α} {c : GuardCall τ}

theorem Sound.cancelled_of (sound : Sound s) {pc : CallPc} (place : s.pcs c = pc)
    (marked : pc.marked = true) : s.core.cancelled = true := by
  apply sound.marked c
  rw [place]
  exact marked

theorem sound_armed : Sound (armed : Guard τ α) where
  core := RevertState.sound_arm
  lock c := by simp [armed, RevertState.arm, CallPc.holdsLock]
  marked c set := by cases set
  inTime c inTime place := by cases place
  starts := rfl
  dropped c place := by cases place

theorem Sound.withCore (sound : Sound s) {core : GuardCore τ α}
    (alive : s.core.worker ≠ .finished) (later : core.Sound) (follows : s.core.Follows core)
    (leaves : s.core.LeavesCallers core)
    (begun : core.past ActionPc.begun = s.core.past ActionPc.begun) :
    Sound { s with core := core } where
  core := later
  lock c := (leaves.callers c).trans (sound.lock c)
  marked c set := leaves.cancelled.trans (sound.marked c set)
  inTime c inTime place := by
    rw [follows.settled (sound.cancelled_of place rfl)]
    exact sound.inTime c inTime place
  starts := by
    rw [begun]
    exact sound.starts
  dropped c place := absurd (sound.dropped c place) alive

theorem workerStep_inv (step : s.workerStep first = some s') :
    (s.core.worker = .acting .called ∧
      s' = { s with core := s.core.act (some (.running first)), starts := s.starts + 1 }) ∨
    ∃ core, s.core.workerStep .called = some core ∧ s' = { s with core := core } := by
  unfold workerStep at step
  split at step
  · next pc => exact .inl ⟨pc, (Option.some.inj step).symm⟩
  · obtain ⟨core, moved, rfl⟩ := Option.map_eq_some_iff.mp step
    exact .inr ⟨core, moved, rfl⟩

theorem actStep_inv {next : Option α} (step : s.actStep next = some s') :
    ∃ stage, s.core.worker = .acting (.running stage) ∧
      s' = { s with core := s.core.act (next.map .running) } := by
  unfold actStep at step
  split at step
  · next stage pc => exact ⟨stage, pc, (Option.some.inj step).symm⟩
  · cases step

theorem Sound.begin (sound : Sound s) (called : s.core.worker = .acting .called) :
    Sound { s with core := s.core.act (some (.running first)), starts := s.starts + 1 } := by
  obtain ⟨core, follows, leaves⟩ := sound.core.act called (some (.running first))
  have none_yet : s.starts = 0 := by
    rw [sound.starts]
    simp [RevertState.past, called, ActionPc.begun]
  exact {
    core := core
    lock := fun c => (leaves.callers c).trans (sound.lock c)
    marked := sound.marked
    inTime := sound.inTime
    starts := by simp [none_yet, RevertState.past, RevertState.act, ActionPc.begun]
    dropped := fun c place => by
      have returned := sound.dropped c place
      rw [called] at returned
      cases returned }

theorem Sound.worker (sound : Sound s) (step : s.workerStep first = some s') : Sound s' := by
  rcases workerStep_inv step with ⟨called, rfl⟩ | ⟨core, moved, rfl⟩
  · exact sound.begin called
  · obtain ⟨later, follows, leaves⟩ := sound.core.workerStep moved
    have alive : s.core.worker ≠ .finished := by
      intro returned
      simp [RevertState.workerStep, returned] at moved
    exact sound.withCore alive later follows leaves (sound.core.past_workerStep rfl moved)

theorem Sound.timeout (sound : Sound s) {core : GuardCore τ α}
    (step : s.core.timeout = some core) : Sound { s with core := core } := by
  obtain ⟨later, follows, leaves⟩ := sound.core.timeout step
  have alive : s.core.worker ≠ .finished := by simp [(RevertState.timeout_inv step).1]
  exact sound.withCore alive later follows leaves (RevertState.past_timeout _ step)

theorem Sound.act (sound : Sound s) {next : Option α} (step : s.actStep next = some s') :
    Sound s' := by
  obtain ⟨stage, pc, rfl⟩ := actStep_inv step
  have alive : s.core.worker ≠ .finished := by simp [pc]
  have fired : s.core.fired = true := by
    have place := sound.core
    simp only [RevertState.Sound, pc] at place
    exact place.2
  obtain ⟨later, follows, leaves⟩ := sound.core.act pc (next.map .running)
  apply sound.withCore alive later follows leaves
  cases next <;> simp [RevertState.past, RevertState.act, pc, fired, ActionPc.begun]

variable [DecidableEq τ] {pc : CallPc} {core : GuardCore τ α}

theorem goOn_pcs_self : (s.goOn c pc core).pcs c = pc := Function.update_self ..

theorem goOn_pcs_of_ne {d : GuardCall τ} (other : d ≠ c) : (s.goOn c pc core).pcs d = s.pcs d :=
  Function.update_of_ne other ..

theorem Sound.goOn (sound : Sound s) (later : core.Sound) (fired : core.fired = s.core.fired)
    (begun : core.past ActionPc.begun = s.core.past ActionPc.begun)
    (finished : s.core.worker = .finished → core.worker = .finished)
    (cancelled : s.core.cancelled = true → core.cancelled = true)
    (others : ∀ d, d ≠ c → (core.holder = some (.caller d) ↔ s.core.holder = some (.caller d)))
    (lock : core.holder = some (.caller c) ↔ pc.holdsLock = true)
    (marked : pc.marked = true → core.cancelled = true)
    (inTime : ∀ inTime, pc = .confirmed inTime → core.fired = !inTime)
    (dropped : pc = .dropped → core.worker = .finished) : Sound (s.goOn c pc core) where
  core := later
  lock d := by
    by_cases same : d = c
    · subst d
      rw [goOn_pcs_self]
      exact lock
    · rw [goOn_pcs_of_ne same]
      exact (others d same).trans (sound.lock d)
  marked d set := by
    by_cases same : d = c
    · subst d
      rw [goOn_pcs_self] at set
      exact marked set
    · rw [goOn_pcs_of_ne same] at set
      exact cancelled (sound.marked d set)
  inTime d value place := by
    by_cases same : d = c
    · subst d
      rw [goOn_pcs_self] at place
      exact inTime value place
    · rw [goOn_pcs_of_ne same] at place
      exact fired.trans (sound.inTime d value place)
  starts := by
    change s.starts = if core.past ActionPc.begun = true then 1 else 0
    rw [begun]
    exact sound.starts
  dropped d place := by
    by_cases same : d = c
    · subst d
      rw [goOn_pcs_self] at place
      exact dropped place
    · rw [goOn_pcs_of_ne same] at place
      exact finished (sound.dropped d place)

theorem callStep_moves (step : s.callStep c = some s') :
    ∃ pc core, Moves c s.core (s.pcs c) pc core ∧ s' = s.goOn c pc core := by
  unfold callStep at step
  split at step
  · next stage place =>
      obtain ⟨result, moved, rfl⟩ := Option.map_eq_some_iff.mp step
      rw [place]
      cases stage with
      | locking =>
          simp only [RevertState.cancelStep, Option.ite_none_right_eq_some,
            Option.some_inj] at moved
          obtain ⟨free, rfl⟩ := moved
          exact ⟨_, _, .lock free, rfl⟩
      | marking =>
          cases moved
          exact ⟨_, _, .mark, rfl⟩
      | unlocking =>
          cases moved
          exact ⟨_, _, .unlock, rfl⟩
      | notifying =>
          cases moved
          exact ⟨_, _, .notify, rfl⟩
  · next place =>
      cases step
      rw [place]
      exact ⟨_, _, .read, rfl⟩
  · next place =>
      split at step
      · next returned =>
          cases step
          rw [place]
          exact ⟨_, _, .join returned, rfl⟩
      · cases step
  · cases step
  · cases step

theorem Sound.call (sound : Sound s) (step : s.callStep c = some s') : Sound s' := by
  obtain ⟨pc, core, moves, rfl⟩ := callStep_moves step
  have holds : s.core.holder = some (.caller c) ↔ (s.pcs c).holdsLock = true := sound.lock c
  have set : (s.pcs c).marked = true → s.core.cancelled = true := sound.marked c
  generalize s.pcs c = before at moves holds set
  cases moves with
  | lock free =>
      refine sound.goOn (sound.core.lock free c) rfl rfl id id ?_ (iff_of_true rfl rfl)
        (by simp [CallPc.marked]) (by simp) (by simp)
      intro d other
      refine iff_of_false (fun held => ?_) (RevertState.not_caller_of_isNone free d)
      cases held
      exact other rfl
  | mark =>
      have held : s.core.holder = some (.caller c) := holds.mpr rfl
      exact sound.goOn (sound.core.mark held) rfl rfl id (fun _ => rfl) (fun _ _ => .rfl)
        (iff_of_true held rfl) (fun _ => rfl) (by simp) (by simp)
  | unlock =>
      have held : s.core.holder = some (.caller c) := holds.mpr rfl
      refine sound.goOn (sound.core.unlock held) rfl rfl id id ?_
        (by simp [RevertState.unlock, CallPc.holdsLock]) (fun _ => set rfl) (by simp) (by simp)
      intro d other
      have apart : s.core.holder ≠ some (.caller d) := by
        rw [held]
        simpa using other.symm
      exact iff_of_false (by simp [RevertState.unlock]) apart
  | notify =>
      have unheld : s.core.holder ≠ some (.caller c) := by
        intro held
        simpa [CallPc.holdsLock] using holds.mp held
      have begun : s.core.notify.past ActionPc.begun = s.core.past ActionPc.begun := by
        cases pc : s.core.worker <;> simp [RevertState.notify, RevertState.past, pc]
      have finished (returned : s.core.worker = .finished) :
          s.core.notify.worker = .finished := by
        simp [RevertState.notify, returned]
      refine sound.goOn sound.core.notify rfl begun finished id (fun _ _ => .rfl) ?_
        (fun _ => set rfl) ?_ ?_
      · refine iff_of_false unheld ?_
        cases c <;> simp [GuardCall.afterwards, CallPc.holdsLock]
      · cases c <;> simp [GuardCall.afterwards]
      · cases c <;> simp [GuardCall.afterwards]
  | read =>
      refine sound.goOn sound.core rfl rfl id id (fun _ _ => .rfl) holds (fun _ => set rfl) ?_
        (by simp)
      intro inTime value
      cases value
      exact (Bool.not_not _).symm
  | join returned =>
      exact sound.goOn sound.core rfl rfl id id (fun _ _ => .rfl) holds (fun _ => set rfl)
        (by simp) (fun _ => returned)

theorem Sound.step {event : GuardEvent τ α} (sound : Sound s)
    (step : s.step first event = some s') : Sound s' := by
  cases event with
  | worker => exact sound.worker step
  | timeout =>
      obtain ⟨core, moved, rfl⟩ := Option.map_eq_some_iff.mp step
      exact sound.timeout moved
  | act next => exact sound.act step
  | call c => exact sound.call step

end Steps

end Guard

/-- What has become of the rollback: what the flags and the lock are there to decide, once. -/
inductive Verdict
  | pending
  | cancelled
  | fired
  deriving DecidableEq, Repr

namespace Verdict

def cancel : Verdict → Verdict
  | .pending => .cancelled
  | verdict => verdict

/-- `confirm` as one step: the verdict after it, and what it returns. -/
def confirm (verdict : Verdict) : Verdict × Bool := (verdict.cancel, verdict ≠ .fired)

theorem cancel_ne_pending (verdict : Verdict) : verdict.cancel ≠ .pending := by
  cases verdict <;> nofun

theorem cancel_of_settled {verdict : Verdict} (settled : verdict ≠ .pending) :
    verdict.cancel = verdict := by
  cases verdict with
  | pending => exact absurd rfl settled
  | _ => rfl

theorem confirm_eq {verdict : Verdict} {inTime : Bool}
    (after : verdict.cancel = if inTime then .cancelled else .fired) :
    verdict.confirm = (verdict.cancel, inTime) := by
  cases verdict <;> cases inTime <;> simp_all [cancel, confirm]

end Verdict

namespace Guard

variable {τ α : Type}

def verdict (s : Guard τ α) : Verdict :=
  if s.core.fired then .fired else if s.core.cancelled then .cancelled else .pending

section Flags

variable {first : α} {s s' : Guard τ α} {c : GuardCall τ}

/-- Only the step that sets the flag touches it, and no step of a call touches the other one. -/
theorem Moves.flags {core core' : GuardCore τ α} {before after : CallPc}
    (moves : Moves c core before after core') :
    (before = .cancelling .marking ∧ after = .cancelling .unlocking ∧ core' = core.mark) ∨
      (after.marked = before.marked ∧ core'.cancelled = core.cancelled ∧
        core'.fired = core.fired) := by
  cases moves with
  | mark => exact .inl ⟨rfl, rfl, rfl⟩
  | notify => cases c <;> exact .inr ⟨rfl, rfl, rfl⟩
  | _ => exact .inr ⟨rfl, rfl, rfl⟩

theorem Moves.worker {core core' : GuardCore τ α} {before after : CallPc}
    (moves : Moves c core before after core') (awake : core.worker ≠ .parked) :
    core'.worker = core.worker := by
  cases moves with
  | notify => cases pc : core.worker <;> simp_all [RevertState.notify]
  | _ => rfl

theorem verdict_congr (cancelled : s'.core.cancelled = s.core.cancelled)
    (fired : s'.core.fired = s.core.fired) : s'.verdict = s.verdict := by
  rw [verdict, verdict, cancelled, fired]

theorem verdict_eq_fired : s.verdict = .fired ↔ s.core.fired = true := by
  cases fired : s.core.fired <;> cases cancelled : s.core.cancelled <;>
    simp [verdict, fired, cancelled]

/-- What the worker does fires the rollback or leaves the verdict. -/
theorem verdict_of_follows (follows : s.core.Follows s'.core)
    (cancelled : s'.core.cancelled = s.core.cancelled) :
    s'.verdict = s.verdict ∨ (s.verdict = .pending ∧ s'.verdict = .fired) := by
  by_cases fired : s'.core.fired = s.core.fired
  · exact .inl (verdict_congr cancelled fired)
  · right
    have idle : s.core.fired = false := by
      by_contra already
      rw [Bool.not_eq_false] at already
      exact fired ((follows.fired already).trans already.symm)
    have clear : s.core.cancelled = false := by
      by_contra set
      rw [Bool.not_eq_false] at set
      exact fired (follows.settled set)
    have later : s'.core.fired = true := by
      by_contra still
      rw [Bool.not_eq_true] at still
      exact fired (still.trans idle.symm)
    exact ⟨by simp [verdict, idle, clear], verdict_eq_fired.mpr later⟩

theorem Sound.verdict_of_confirmed (sound : Sound s) {inTime : Bool}
    (place : s.pcs c = .confirmed inTime) :
    s.verdict = if inTime then .cancelled else .fired := by
  rw [verdict, sound.inTime c inTime place, sound.cancelled_of place rfl]
  cases inTime <;> rfl

theorem Sound.settled_of_dropped (sound : Sound s) (place : s.pcs c = .dropped) :
    s.verdict ≠ .pending := by
  rw [verdict, sound.cancelled_of place rfl]
  cases s.core.fired <;> nofun

theorem Sound.fired_of_begun (sound : Sound s)
    (begun : s.core.past ActionPc.begun = true) : s.core.fired = true := by
  have core := sound.core
  cases pc : s.core.worker <;> simp_all [RevertState.Sound, RevertState.past]

theorem Sound.starts_eq_zero (sound : Sound s) (other : s.verdict ≠ .fired) : s.starts = 0 := by
  have waiting : s.core.past ActionPc.begun ≠ true := fun begun =>
    other (verdict_eq_fired.mpr (sound.fired_of_begun begun))
  rw [sound.starts, if_neg waiting]

theorem Sound.starts_of_running (sound : Sound s) {stage : α}
    (running : s.core.worker = .acting (.running stage)) : s.starts = 1 := by
  rw [sound.starts, RevertState.past, running]
  rfl

/-- The worker that has fired has two steps to go at most until the action runs. -/
theorem Sound.cases_of_fired (sound : Sound s) (fired : s.core.fired = true) :
    s.core.worker = .unlocking ∨ s.core.worker = .acting .called ∨ s.starts = 1 := by
  have core := sound.core
  cases pc : s.core.worker with
  | unlocking => exact .inl rfl
  | acting stage =>
      cases stage with
      | called => exact .inr (.inl rfl)
      | running stage => exact .inr (.inr (sound.starts_of_running pc))
  | finished =>
      refine .inr (.inr ?_)
      rw [sound.starts, RevertState.past, pc]
      simp [fired]
  | _ => simp [RevertState.Sound, pc, fired] at core

theorem Sound.starts_le (sound : Sound s) : s.starts ≤ 1 := by
  rw [sound.starts]
  split <;> omega

theorem Sound.starts_of_finished (sound : Sound s) (returned : s.core.worker = .finished) :
    s.starts = if s.verdict = .fired then 1 else 0 := by
  rw [sound.starts, RevertState.past, returned]
  simp [verdict_eq_fired]

theorem workerStep_verdict (sound : Sound s) (step : s.workerStep first = some s') :
    s'.verdict = s.verdict ∨ (s.verdict = .pending ∧ s'.verdict = .fired) := by
  rcases workerStep_inv step with ⟨-, rfl⟩ | ⟨core, moved, rfl⟩
  · exact .inl rfl
  · obtain ⟨-, follows, leaves⟩ := sound.core.workerStep moved
    exact verdict_of_follows follows leaves.cancelled

end Flags

section Verdicts

variable [DecidableEq τ] {first : α} {s s' : Guard τ α} {c : GuardCall τ} {event : GuardEvent τ α}

theorem verdict_mark (pc : CallPc) : (s.goOn c pc s.core.mark).verdict = s.verdict.cancel := by
  cases fired : s.core.fired <;> cases cancelled : s.core.cancelled <;>
    simp [verdict, goOn, RevertState.mark, fired, cancelled, Verdict.cancel]

/-- The rollback is decided where a call sets the flag, or where the worker fires. -/
theorem Sound.verdict_step (sound : Sound s) (step : s.step first event = some s') :
    s'.verdict = s.verdict ∨
      (∃ c, event = .call c ∧ s.pcs c = .cancelling .marking ∧ s'.verdict = s.verdict.cancel) ∨
      (event = .worker ∧ s.verdict = .pending ∧ s'.verdict = .fired) := by
  cases event with
  | worker =>
      rcases workerStep_verdict sound step with same | ⟨pending, fires⟩
      · exact .inl same
      · exact .inr (.inr ⟨rfl, pending, fires⟩)
  | timeout =>
      obtain ⟨core, moved, rfl⟩ := Option.map_eq_some_iff.mp step
      obtain ⟨-, rfl⟩ := RevertState.timeout_inv moved
      exact .inl rfl
  | act next =>
      obtain ⟨stage, -, rfl⟩ := actStep_inv step
      exact .inl rfl
  | call c =>
      obtain ⟨pc, core, moves, rfl⟩ := callStep_moves step
      rcases moves.flags with ⟨place, -, rfl⟩ | ⟨-, cancelled, fired⟩
      · exact .inr (.inl ⟨c, rfl, place, verdict_mark pc⟩)
      · exact .inl (verdict_congr cancelled fired)

theorem step_pcs (other : event ≠ .call c) (step : s.step first event = some s') :
    s'.pcs c = s.pcs c := by
  cases event with
  | worker =>
      rcases workerStep_inv step with ⟨-, rfl⟩ | ⟨core, -, rfl⟩ <;> rfl
  | timeout =>
      obtain ⟨core, -, rfl⟩ := Option.map_eq_some_iff.mp step
      rfl
  | act next =>
      obtain ⟨stage, -, rfl⟩ := actStep_inv step
      rfl
  | call d =>
      obtain ⟨pc, core, -, rfl⟩ := callStep_moves step
      exact goOn_pcs_of_ne fun same => other (congrArg GuardEvent.call same.symm)

theorem step_pcs_of_ended (ended : s.callStep c = none) (step : s.step first event = some s') :
    s'.pcs c = s.pcs c := by
  refine step_pcs (fun same => ?_) step
  subst event
  exact nomatch ended.symm.trans step

theorem step_worker (other : event ≠ .worker) (awake : s.core.worker ≠ .parked)
    (outside : ∀ stage, s.core.worker ≠ .acting (.running stage))
    (step : s.step first event = some s') : s'.core.worker = s.core.worker := by
  cases event with
  | worker => exact absurd rfl other
  | timeout =>
      obtain ⟨core, moved, rfl⟩ := Option.map_eq_some_iff.mp step
      exact absurd (RevertState.timeout_inv moved).1 awake
  | act next =>
      obtain ⟨stage, running, rfl⟩ := actStep_inv step
      exact absurd running (outside stage)
  | call c =>
      obtain ⟨pc, core, moves, rfl⟩ := callStep_moves step
      exact moves.worker awake

theorem marked_step (before : (s.pcs c).marked ≠ true) (step : s.step first event = some s')
    (now : (s'.pcs c).marked = true) :
    event = .call c ∧ s'.verdict = s.verdict.cancel := by
  by_cases own : event = .call c
  · subst event
    obtain ⟨pc, core, moves, rfl⟩ := callStep_moves step
    rw [goOn_pcs_self] at now
    rcases moves.flags with ⟨-, -, rfl⟩ | ⟨same, -, -⟩
    · exact ⟨rfl, verdict_mark pc⟩
    · exact absurd (same.symm.trans now) before
  · rw [step_pcs own step] at now
    exact absurd now before

end Verdicts

section Runs

variable [DecidableEq τ] {first : α} {run : Endless (step first) (armed : Guard τ α)}
  {n m : Nat} {c : GuardCall τ}

theorem sound_at (run : Endless (step first) (armed : Guard τ α)) (n : Nat) :
    Sound (run.state n) :=
  Endless.invariant sound_armed (fun _ _ _ sound moved => sound.step moved) n

theorem verdict_settled (later : n ≤ m) (settled : (run.state n).verdict ≠ .pending) :
    (run.state m).verdict = (run.state n).verdict := by
  refine Endless.stable (fun s : Guard τ α => s.verdict = (run.state n).verdict) ?_ later rfl
  intro k event same taken
  rcases (sound_at run k).verdict_step (Endless.step_of_event taken) with
    kept | ⟨c, -, -, cancelled⟩ | ⟨-, pending, -⟩
  · exact kept.trans same
  · rw [cancelled, same, Verdict.cancel_of_settled settled]
  · exact absurd (same.symm.trans pending) settled

theorem dropped_stays (later : n ≤ m) (place : (run.state n).pcs c = .dropped) :
    (run.state m).pcs c = .dropped := by
  refine Endless.stable (fun s : Guard τ α => s.pcs c = .dropped) ?_ later place
  intro k event same taken
  have ended : (run.state k).callStep c = none := by rw [callStep, same]
  exact (step_pcs_of_ended ended (Endless.step_of_event taken)).trans same

theorem verdict_of_confirmed {inTime : Bool} (later : n ≤ m)
    (place : (run.state n).pcs c = .confirmed inTime) :
    (run.state m).verdict = if inTime then .cancelled else .fired := by
  have now := (sound_at run n).verdict_of_confirmed place
  rw [verdict_settled later ?_, now]
  rw [now]
  cases inTime <;> nofun

theorem exists_mark (marked : ((run.state n).pcs c).marked = true) :
    ∃ m, m < n ∧ run.event m = some (.call c) ∧
      (run.state (m + 1)).verdict = (run.state m).verdict.cancel := by
  obtain ⟨m, event, earlier, taken, before, now⟩ :=
    Endless.exists_step (fun s : Guard τ α => (s.pcs c).marked = true)
      (by simp [armed, CallPc.marked]) marked
  obtain ⟨rfl, cancelled⟩ := marked_step before (Endless.step_of_event taken) now
  exact ⟨m, earlier, taken, cancelled⟩

theorem unlocking_leadsTo_called (fair : run.Fair .worker) :
    run.LeadsTo (fun s => s.core.worker = .unlocking)
      (fun s => s.core.worker = .acting .called) := by
  refine Endless.leadsTo_of_fair fair ?_ ?_ ?_
  · intro s event s' other pc step
    left
    rw [step_worker other (by simp [pc]) (by simp [pc]) step, pc]
  · intro s s' pc step
    simp only [Guard.step, workerStep, RevertState.workerStep, pc] at step
    cases step
    rfl
  · intro s pc
    simp [Guard.step, workerStep, RevertState.workerStep, pc]

theorem called_leadsTo_running (fair : run.Fair .worker) :
    run.LeadsTo (fun s => s.core.worker = .acting .called)
      (fun s => s.core.worker = .acting (.running first)) := by
  refine Endless.leadsTo_of_fair fair ?_ ?_ ?_
  · intro s event s' other pc step
    left
    rw [step_worker other (by simp [pc]) (by simp [pc]) step, pc]
  · intro s s' pc step
    simp only [Guard.step, workerStep, pc] at step
    cases step
    rfl
  · intro s pc
    simp [Guard.step, workerStep, pc]

theorem starts_of_fired (fair : run.Fair .worker) (fired : (run.state n).core.fired = true) :
    ∃ m, (run.state m).starts = 1 := by
  have begins := called_leadsTo_running fair
  rcases (sound_at run n).cases_of_fired fired with unlocking | called | started
  · obtain ⟨m, -, running⟩ := (unlocking_leadsTo_called fair).trans begins n unlocking
    exact ⟨m, (sound_at run m).starts_of_running running⟩
  · obtain ⟨m, -, running⟩ := begins n called
    exact ⟨m, (sound_at run m).starts_of_running running⟩
  · exact ⟨n, started⟩

/-- Nobody can keep that worker from going on. -/
theorem worker_enabled_of_fired (fired : (run.state n).core.fired = true) :
    (run.state n).starts = 1 ∨ (step first (run.state n) .worker).isSome = true := by
  rcases (sound_at run n).cases_of_fired fired with pc | pc | started
  · exact .inr (by simp [Guard.step, workerStep, RevertState.workerStep, pc])
  · exact .inr (by simp [Guard.step, workerStep, pc])
  · exact .inl started

end Runs

/-- All calls act on the guard at one point between their beginning and their end, and the action
runs once or never, as they say. -/
structure Linearizable [DecidableEq τ] {first : α}
    (run : Endless (step first) (armed : Guard τ α)) : Prop where
  decided : ∀ n, (run.state (n + 1)).verdict = (run.state n).verdict ∨
    (∃ c, run.event n = some (.call c) ∧ (run.state n).pcs c = .cancelling .marking ∧
      (run.state (n + 1)).verdict = (run.state n).verdict.cancel) ∨
    (run.event n = some .worker ∧ (run.state n).verdict = .pending ∧
      (run.state (n + 1)).verdict = .fired)
  point : ∀ n caller inTime, (run.state n).pcs (.confirm caller) = .confirmed inTime →
    ∃ m, m < n ∧ run.event m = some (.call (.confirm caller)) ∧
      (run.state m).verdict.confirm = ((run.state (m + 1)).verdict, inTime)
  once : ∀ n, (run.state n).starts ≤ 1
  inTime : ∀ n caller, (run.state n).pcs (.confirm caller) = .confirmed true →
    ∀ m, (run.state m).starts = 0
  late : ∀ n caller, (run.state n).pcs (.confirm caller) = .confirmed false →
    (∀ m, n ≤ m → (run.state m).starts = 1 ∨
      (step first (run.state m) .worker).isSome = true) ∧
    (run.Fair .worker → ∃ m, (run.state m).starts = 1)
  agree : ∀ n m a b inTime inTime', (run.state n).pcs (.confirm a) = .confirmed inTime →
    (run.state m).pcs (.confirm b) = .confirmed inTime' → inTime = inTime'
  dropped : ∀ n, (run.state n).pcs .drop = .dropped →
    ∀ m, n ≤ m → (run.state m).starts = (run.state n).starts

theorem autoRevert_linearizable [DecidableEq τ] (first : α)
    (run : Endless (step first) (armed : Guard τ α)) : Linearizable run where
  decided n := by
    cases taken : run.event n with
    | none => exact .inl (congrArg verdict (Endless.state_of_idle taken))
    | some event =>
        simpa only [Option.some_inj] using
          (sound_at run n).verdict_step (Endless.step_of_event taken)
  point n caller inTime place := by
    have marked : ((run.state n).pcs (.confirm caller)).marked = true := by
      rw [place]
      rfl
    obtain ⟨m, earlier, taken, cancelled⟩ := exists_mark marked
    have settled : (run.state (m + 1)).verdict ≠ .pending := by
      rw [cancelled]
      exact Verdict.cancel_ne_pending _
    have last := verdict_of_confirmed (Nat.le_refl n) place
    rw [verdict_settled earlier settled, cancelled] at last
    refine ⟨m, earlier, taken, ?_⟩
    rw [cancelled]
    exact Verdict.confirm_eq last
  once n := (sound_at run n).starts_le
  inTime n caller place m := by
    apply (sound_at run m).starts_eq_zero
    intro fired
    have last := verdict_of_confirmed (Nat.le_max_left n m) place
    rw [verdict_settled (Nat.le_max_right n m) (by simp [fired]), fired] at last
    cases last
  late n caller place := by
    refine ⟨fun m later => ?_, fun fair => ?_⟩
    · apply worker_enabled_of_fired
      rw [← verdict_eq_fired, verdict_of_confirmed later place]
      rfl
    · exact starts_of_fired fair ((sound_at run n).inTime _ _ place)
  agree n m a b inTime inTime' place place' := by
    have first := verdict_of_confirmed (Nat.le_max_left n m) place
    have second := verdict_of_confirmed (Nat.le_max_right n m) place'
    rw [first] at second
    cases inTime <;> cases inTime' <;> simp_all
  dropped n place m later := by
    have still := dropped_stays later place
    have settled := verdict_settled later ((sound_at run n).settled_of_dropped place)
    rw [(sound_at run m).starts_of_finished ((sound_at run m).dropped _ still), settled,
      (sound_at run n).starts_of_finished ((sound_at run n).dropped _ place)]

/-- A `confirm` that returns before the action begins, and is too late nevertheless. -/
def lateConfirm : List (GuardEvent Unit Unit) :=
  [.worker, .worker, .timeout] ++ List.replicate 4 .worker ++
    List.replicate 5 (.call (.confirm ())) ++ [.worker, .act none]

theorem lateConfirm_runs : ∃ last : Guard Unit Unit,
    runSome (step ()) armed lateConfirm = some last ∧
      last.pcs (.confirm ()) = .confirmed false ∧ last.core.worker = .finished :=
  ⟨_, rfl, rfl, rfl⟩

theorem autoRevert_linearizable_late : ∃ run : Endless (step ()) (armed : Guard Unit Unit),
    run.Fair .worker ∧ Linearizable run ∧
      (run.state lateConfirm.length).pcs (.confirm ()) = .confirmed false := by
  obtain ⟨last, reached, late, returned⟩ := lateConfirm_runs
  obtain ⟨run, rests⟩ := Endless.exists_of_runSome reached
  have stuck (n : Nat) (past : lateConfirm.length ≤ n) :
      step () (run.state n) .worker = none := by
    rw [rests n past]
    simp [step, workerStep, RevertState.workerStep, returned]
  refine ⟨run, Endless.fair_of_disabled stuck, autoRevert_linearizable () run, ?_⟩
  rw [rests _ (Nat.le_refl _)]
  exact late

end Guard

end TinyWifi
