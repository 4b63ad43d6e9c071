import TinyWifi.AutoRevert
import TinyWifi.CommitConfirm

/-! One staged edit, its timer, and the `/confirm` requests that race it. Every request and the
worker take one step at a time; taking the guard out of the map is one step, as it happens under
the lock of the map. -/

namespace TinyWifi

open Text Exec Runs

/-- The action that `arm_revert` hands to the timer, file by file. -/
inductive RevertStage
  | restoring
  | restarting
  | discarding
  deriving DecidableEq, Repr

/-- Where the request is that took the guard. `inTime` is what `AutoRevert::confirm` returned. -/
inductive ConfirmPc
  | confirming (stage : CancelPc)
  | reading
  | discarding
  | dropping (stage : CancelPc) (inTime : Bool)
  | joining (inTime : Bool)
  | done (inTime : Bool)
  deriving DecidableEq, Repr

/-- Who owns the guard: `arm_revert`, the map, or the request that took it out. -/
inductive GuardPlace
  | arming
  | inMap
  | taken (request : Nat) (pc : ConfirmPc)
  deriving DecidableEq, Repr

structure Session where
  fs : Fs
  core : RevertState Nat RevertStage
  guard : GuardPlace
  reverts : Nat
  answers : Nat → Option ConfirmAnswer

inductive SessionEvent
  | insert
  | worker
  | timeout
  | request (i : Nat)
  deriving DecidableEq, Repr

def ConfirmAnswer.ofInTime (inTime : Bool) : ConfirmAnswer :=
  if inTime then .confirmed else .alreadyReverted

namespace Session

def start (fs : Fs) : Session := ⟨fs, .arm, .arming, 0, fun _ => none⟩

def discard (path : Path) (fs : Fs) : Fs :=
  (outcome (discardBackup (.ok ()) path : Exec Fs IoError Unit) fs).2

/-- The worker's next step; the action is `revert`, then `discard_backup`. -/
def workerStep (path : Path) (s : Session) : Option Session :=
  match s.core.worker with
  | .acting .restoring =>
    some { s with
      fs := (outcome (restoreBackup .done path) s.fs).2
      core := s.core.act (some .restarting)
      reverts := s.reverts + 1 }
  | .acting .restarting => some { s with core := s.core.act (some .discarding) }
  | .acting .discarding => some { s with fs := discard path s.fs, core := s.core.act none }
  | _ => (s.core.workerStep .restoring).map fun core => { s with core := core }

/-- A step that cancels: `go` is where the request is in between, `next` where it is afterwards. -/
def cancel (i : Nat) (stage : CancelPc) (go : CancelPc → ConfirmPc) (next : ConfirmPc)
    (s : Session) : Option Session :=
  (s.core.cancelStep i stage).map fun result =>
    { s with
      core := result.2
      guard := .taken i (match result.1 with
        | some stage => go stage
        | none => next) }

def answer (i : Nat) (reply : ConfirmAnswer) (s : Session) : Session :=
  { s with answers := Function.update s.answers i (some reply) }

/-- The next step of the request that owns the guard: `confirm`, `discard_backup` if it was in
time, and the drop of the guard, which joins the worker. -/
def ownerStep (path : Path) (i : Nat) (pc : ConfirmPc) (s : Session) : Option Session :=
  match pc with
  | .confirming stage => s.cancel i stage .confirming .reading
  | .reading =>
    some { s with guard := .taken i (if s.core.fired then .dropping .locking false
      else .discarding) }
  | .discarding =>
    some { s with fs := discard path s.fs, guard := .taken i (.dropping .locking true) }
  | .dropping stage inTime => s.cancel i stage (.dropping · inTime) (.joining inTime)
  | .joining inTime =>
    match s.core.worker with
    | .finished => some ({ s with guard := .taken i (.done inTime) }.answer i (.ofInTime inTime))
    | _ => none
  | .done _ => none

def requestStep (path : Path) (i : Nat) (s : Session) : Option Session :=
  match s.guard with
  | .taken owner pc =>
    if i = owner then s.ownerStep path i pc
    else if (s.answers i).isNone then some (s.answer i .noPending) else none
  | .inMap =>
    if (s.answers i).isNone then some { s with guard := .taken i (.confirming .locking) } else none
  | .arming => if (s.answers i).isNone then some (s.answer i .noPending) else none

def step (path : Path) (s : Session) : SessionEvent → Option Session
  | .insert =>
    match s.guard with
    | .arming => some { s with guard := .inMap }
    | _ => none
  | .worker => s.workerStep path
  | .timeout => s.core.timeout.map fun core => { s with core := core }
  | .request i => s.requestStep path i

end Session

namespace ConfirmPc

def holdsLock : ConfirmPc → Bool
  | .confirming .marking | .confirming .unlocking => true
  | .dropping .marking _ | .dropping .unlocking _ => true
  | _ => false

def marked : ConfirmPc → Bool
  | .confirming .locking | .confirming .marking => false
  | _ => true

def verdict : ConfirmPc → Option Bool
  | .confirming _ | .reading => none
  | .discarding => some true
  | .dropping _ inTime | .joining inTime | .done inTime => some inTime

def discarded : ConfirmPc → Bool
  | .dropping _ inTime | .joining inTime | .done inTime => inTime
  | _ => false

end ConfirmPc

namespace GuardPlace

def marked : GuardPlace → Bool
  | .taken _ pc => pc.marked
  | _ => false

def discarded : GuardPlace → Bool
  | .taken _ pc => pc.discarded
  | _ => false

def resting : GuardPlace → Bool
  | .inMap | .taken _ (.done _) => true
  | _ => false

end GuardPlace

/-- The worker has returned, the guard has got to the map, and no request is under way. -/
def Session.Finished (s : Session) : Prop :=
  s.core.worker = .finished ∧ s.guard.resting = true

instance (s : Session) : Decidable s.Finished := inferInstanceAs (Decidable (_ ∧ _))

namespace RevertState

def reverted (core : RevertState Nat RevertStage) : Bool :=
  match core.worker with
  | .acting .restarting | .acting .discarding => true
  | .finished => core.fired
  | _ => false

def acted (core : RevertState Nat RevertStage) : Bool :=
  match core.worker with
  | .finished => core.fired
  | _ => false

theorem reverted_eq_past (core : RevertState Nat RevertStage) :
    core.reverted = core.past fun stage => stage ≠ .restoring := by
  unfold reverted past
  cases core.worker with
  | acting stage => cases stage <;> rfl
  | _ => rfl

theorem acted_eq_past (core : RevertState Nat RevertStage) :
    core.acted = core.past fun _ => false := by
  unfold acted past
  cases core.worker <;> rfl

/-- Up to the action the worker does not touch the files. -/
theorem Sound.reverted_workerStep {s s' : RevertState Nat RevertStage} (sound : s.Sound)
    (step : s.workerStep .restoring = some s') :
    s'.reverted = s.reverted ∧ s'.acted = s.acted := by
  simp only [reverted_eq_past, acted_eq_past]
  exact ⟨sound.past_workerStep rfl step, sound.past_workerStep rfl step⟩

theorem reverted_timeout {s s' : RevertState Nat RevertStage} (step : s.timeout = some s') :
    s'.reverted = s.reverted ∧ s'.acted = s.acted := by
  simp only [reverted_eq_past, acted_eq_past]
  exact ⟨past_timeout _ step, past_timeout _ step⟩

end RevertState

namespace Session

/-- The files, as far as the action and the request that took the guard have come. -/
def filesAt (path : Path) (old : ByteArray) (fs : Fs) (core : RevertState Nat RevertStage)
    (discarded : Bool) : Fs :=
  if core.acted then erase (backupPath path) (put path old fs)
  else if core.reverted then put path old fs
  else if discarded then erase (backupPath path) fs
  else fs

structure Sound (path : Path) (old : ByteArray) (fs : Fs) (s : Session) : Prop where
  core : s.core.Sound
  lock : ∀ i, s.core.holder = some (.caller i) ↔
    ∃ pc, s.guard = .taken i pc ∧ pc.holdsLock = true
  cancelled : s.core.cancelled = s.guard.marked
  verdict : ∀ i pc inTime, s.guard = .taken i pc → pc.verdict = some inTime →
    s.core.fired = !inTime
  files : s.fs = filesAt path old fs s.core s.guard.discarded
  reverts : s.reverts = if s.core.reverted then 1 else 0
  answers : ∀ i reply, s.answers i = some reply → reply = .noPending ∨
    ∃ inTime, s.guard = .taken i (.done inTime) ∧ reply = .ofInTime inTime
  done : ∀ i inTime, s.guard = .taken i (.done inTime) → s.answers i = some (.ofInTime inTime)

section Steps

variable {path : Path} {old : ByteArray} {fs : Fs} {s s' : Session}

theorem marked_of_verdict {pc : ConfirmPc} {inTime : Bool} (h : pc.verdict = some inTime) :
    pc.marked = true := by
  cases pc <;> simp_all [ConfirmPc.verdict, ConfirmPc.marked]

theorem verdict_of_discarded {pc : ConfirmPc} (h : pc.discarded = true) :
    pc.verdict = some true := by
  cases pc <;> simp_all [ConfirmPc.verdict, ConfirmPc.discarded]

theorem sound_start (path : Path) (old : ByteArray) (fs : Fs) : Sound path old fs (start fs) where
  core := RevertState.sound_arm
  lock i := by simp [start, RevertState.arm]
  cancelled := rfl
  verdict i pc inTime taken := by cases taken
  files := rfl
  reverts := rfl
  answers i reply answered := by cases answered
  done i inTime taken := by cases taken

theorem Sound.withCore (sound : Sound path old fs s) {core : RevertState Nat RevertStage}
    (later : core.Sound) (follows : s.core.Follows core) (leaves : s.core.LeavesCallers core)
    (reverted : core.reverted = s.core.reverted) (acted : core.acted = s.core.acted) :
    Sound path old fs { s with core := core } where
  core := later
  lock i := (leaves.callers i).trans (sound.lock i)
  cancelled := leaves.cancelled.trans sound.cancelled
  verdict i pc inTime taken given := by
    have marked : s.guard.marked = true := by
      rw [taken]
      exact marked_of_verdict given
    rw [follows.settled (sound.cancelled.trans marked)]
    exact sound.verdict i pc inTime taken given
  files := by
    rw [filesAt, acted, reverted]
    exact sound.files
  reverts := by
    rw [reverted]
    exact sound.reverts
  answers := sound.answers
  done := sound.done

/-- The timer has fired, so no request has removed the backup. -/
theorem Sound.not_discarded (sound : Sound path old fs s) (fired : s.core.fired = true) :
    s.guard.discarded = false := by
  by_contra discarded
  rw [Bool.not_eq_false] at discarded
  cases place : s.guard with
  | arming => simp [place, GuardPlace.discarded] at discarded
  | inMap => simp [place, GuardPlace.discarded] at discarded
  | taken i pc =>
      rw [place] at discarded
      have late := sound.verdict i pc true place (verdict_of_discarded discarded)
      rw [fired] at late
      cases late

theorem discard_eq (path : Path) (fs : Fs) : discard path fs = erase (backupPath path) fs := by
  rw [discard, outcome_discardBackup_done]

theorem Sound.worker (sound : Sound path old fs s) (backed : fs (backupPath path) = some old)
    (step : s.workerStep path = some s') : Sound path old fs s' := by
  have later (stage : RevertStage) (pc : s.core.worker = .acting stage)
      (next : Option RevertStage) := sound.core.act pc next
  unfold workerStep at step
  split at step
  · next pc =>
      cases step
      have fired : s.core.fired = true := by
        have place := sound.core
        simp only [RevertState.Sound, pc] at place
        exact place.2
      have file : s.fs = fs := by
        rw [sound.files, filesAt, sound.not_discarded fired]
        simp [RevertState.acted, RevertState.reverted, pc]
      have count : s.reverts = 0 := by
        rw [sound.reverts]
        simp [RevertState.reverted, pc]
      obtain ⟨core, follows, leaves⟩ := later _ pc (some .restarting)
      exact {
        core := core
        lock := fun i => (leaves.callers i).trans (sound.lock i)
        cancelled := leaves.cancelled.trans sound.cancelled
        verdict := sound.verdict
        files := by
          simp only [filesAt, RevertState.acted, RevertState.reverted, RevertState.act]
          rw [file, restoreBackup, outcome_copyFile backed, outcome_writeFile_done]
          rfl
        reverts := by simp [count, RevertState.reverted, RevertState.act]
        answers := sound.answers
        done := sound.done }
  · next pc =>
      cases step
      obtain ⟨core, follows, leaves⟩ := later _ pc (some .discarding)
      apply sound.withCore core follows leaves
      · simp [RevertState.reverted, RevertState.act, pc]
      · simp [RevertState.acted, RevertState.act, pc]
  · next pc =>
      cases step
      have fired : s.core.fired = true := by
        have place := sound.core
        simp only [RevertState.Sound, pc] at place
        exact place.2
      have file : s.fs = put path old fs := by
        rw [sound.files]
        simp [filesAt, RevertState.acted, RevertState.reverted, pc]
      have count : s.reverts = 1 := by
        rw [sound.reverts]
        simp [RevertState.reverted, pc]
      obtain ⟨core, follows, leaves⟩ := later _ pc none
      exact {
        core := core
        lock := fun i => (leaves.callers i).trans (sound.lock i)
        cancelled := leaves.cancelled.trans sound.cancelled
        verdict := sound.verdict
        files := by
          simp [filesAt, RevertState.acted, RevertState.act, fired, discard_eq, file]
        reverts := by simp [count, RevertState.reverted, RevertState.act, fired]
        answers := sound.answers
        done := sound.done }
  · obtain ⟨core, moved, rfl⟩ := Option.map_eq_some_iff.mp step
    obtain ⟨later, follows, leaves⟩ := sound.core.workerStep moved
    obtain ⟨reverted, acted⟩ := sound.core.reverted_workerStep moved
    exact sound.withCore later follows leaves reverted acted

theorem Sound.timeout (sound : Sound path old fs s) {core : RevertState Nat RevertStage}
    (step : s.core.timeout = some core) : Sound path old fs { s with core := core } := by
  obtain ⟨later, follows, leaves⟩ := sound.core.timeout step
  obtain ⟨reverted, acted⟩ := RevertState.reverted_timeout step
  exact sound.withCore later follows leaves reverted acted

structure CancelPath (go : CancelPc → ConfirmPc) (next : ConfirmPc) : Prop where
  locking : (go .locking).holdsLock = false
  marking : (go .marking).holdsLock = true
  unlocking : (go .unlocking).holdsLock = true
  notifying : (go .notifying).holdsLock = false
  released : next.holdsLock = false
  unmarked : (go .marking).marked = (go .locking).marked
  marked : (go .unlocking).marked = true ∧ (go .notifying).marked = true ∧ next.marked = true
  verdict : ∀ stage, (go stage).verdict = next.verdict
  discarded : ∀ stage, (go stage).discarded = next.discarded
  notDone : ∀ inTime, (∀ stage, go stage ≠ .done inTime) ∧ next ≠ .done inTime

theorem confirming_cancelPath : CancelPath .confirming .reading := by
  constructor <;> simp [ConfirmPc.holdsLock, ConfirmPc.marked, ConfirmPc.verdict,
    ConfirmPc.discarded]

theorem dropping_cancelPath (inTime : Bool) :
    CancelPath (.dropping · inTime) (.joining inTime) := by
  constructor <;> simp [ConfirmPc.holdsLock, ConfirmPc.marked, ConfirmPc.verdict,
    ConfirmPc.discarded]

theorem Sound.move {i : Nat} {pc next : ConfirmPc} (sound : Sound path old fs s)
    (place : s.guard = .taken i pc) {core : RevertState Nat RevertStage} (later : core.Sound)
    (holder : ∀ j, core.holder = some (.caller j) ↔ j = i ∧ next.holdsLock = true)
    (cancelled : core.cancelled = next.marked) (fired : core.fired = s.core.fired)
    (verdict : next.verdict = pc.verdict) (discarded : next.discarded = pc.discarded)
    (notDone : ∀ inTime, pc ≠ .done inTime ∧ next ≠ .done inTime)
    (reverted : core.reverted = s.core.reverted) (acted : core.acted = s.core.acted) :
    Sound path old fs { s with core := core, guard := .taken i next } where
  core := later
  lock j := by
    rw [holder]
    constructor
    · intro holds
      rcases holds with ⟨rfl, held⟩
      exact ⟨next, rfl, held⟩
    · intro holds
      rcases holds with ⟨_, same, held⟩
      cases same
      exact ⟨rfl, held⟩
  cancelled := cancelled
  verdict j _ inTime same given := by
    cases same
    rw [fired]
    exact sound.verdict i pc inTime place (verdict ▸ given)
  files := by
    have same : s.guard.discarded = next.discarded := by
      rw [place, GuardPlace.discarded, discarded]
    rw [GuardPlace.discarded, filesAt, acted, reverted, ← same]
    exact sound.files
  reverts := by
    rw [reverted]
    exact sound.reverts
  answers j reply answered := by
    rcases sound.answers j reply answered with none | ⟨inTime, same, -⟩
    · exact .inl none
    · rw [place] at same
      cases same
      exact absurd rfl (notDone inTime).1
  done j inTime same := by
    cases same
    exact absurd rfl (notDone inTime).2

theorem Sound.holder_owner {i : Nat} {pc : ConfirmPc} (sound : Sound path old fs s)
    (place : s.guard = .taken i pc) (j : Nat) :
    s.core.holder = some (.caller j) ↔ j = i ∧ pc.holdsLock = true := by
  rw [sound.lock, place]
  constructor
  · intro holds
    rcases holds with ⟨_, same, held⟩
    cases same
    exact ⟨rfl, held⟩
  · intro holds
    rcases holds with ⟨rfl, held⟩
    exact ⟨pc, rfl, held⟩

theorem reverted_notify (core : RevertState Nat RevertStage) :
    core.notify.reverted = core.reverted ∧ core.notify.acted = core.acted := by
  cases pc : core.worker <;>
    simp [RevertState.notify, RevertState.reverted, RevertState.acted, pc]

theorem Sound.cancel {i : Nat} {stage : CancelPc} {go : CancelPc → ConfirmPc} {next : ConfirmPc}
    (sound : Sound path old fs s) (place : s.guard = .taken i (go stage))
    (way : CancelPath go next) (step : s.cancel i stage go next = some s') :
    Sound path old fs s' := by
  obtain ⟨result, moved, rfl⟩ := Option.map_eq_some_iff.mp step
  have flag : s.core.cancelled = (go stage).marked := by
    rw [sound.cancelled, place, GuardPlace.marked]
  have stay (later : CancelPc) (inTime : Bool) :
      go stage ≠ .done inTime ∧ go later ≠ .done inTime :=
    ⟨(way.notDone inTime).1 stage, (way.notDone inTime).1 later⟩
  have holder := sound.holder_owner place
  cases stage with
  | locking =>
      simp only [RevertState.cancelStep, Option.ite_none_right_eq_some, Option.some_inj] at moved
      obtain ⟨free, rfl⟩ := moved
      apply sound.move place (sound.core.lock free i)
      · intro j
        rw [way.marking]
        simp [RevertState.lock, eq_comm]
      · exact flag.trans way.unmarked.symm
      · rfl
      · rw [way.verdict, way.verdict]
      · rw [way.discarded, way.discarded]
      · exact stay .marking
      · rfl
      · rfl
  | marking =>
      cases moved
      have held : s.core.holder = some (.caller i) := (holder i).mpr ⟨rfl, way.marking⟩
      apply sound.move place (sound.core.mark held)
      · intro j
        have same := holder j
        rw [way.marking] at same
        rw [way.unlocking]
        exact same
      · exact way.marked.1.symm
      · rfl
      · rw [way.verdict, way.verdict]
      · rw [way.discarded, way.discarded]
      · exact stay .unlocking
      · rfl
      · rfl
  | unlocking =>
      cases moved
      have held : s.core.holder = some (.caller i) := (holder i).mpr ⟨rfl, way.unlocking⟩
      apply sound.move place (sound.core.unlock held)
      · intro j
        rw [way.notifying]
        simp [RevertState.unlock]
      · exact flag.trans (way.marked.1.trans way.marked.2.1.symm)
      · rfl
      · rw [way.verdict, way.verdict]
      · rw [way.discarded, way.discarded]
      · exact stay .notifying
      · rfl
      · rfl
  | notifying =>
      cases moved
      apply sound.move place sound.core.notify
      · intro j
        rw [way.released, ← way.notifying]
        exact holder j
      · exact flag.trans (way.marked.2.1.trans way.marked.2.2.symm)
      · rfl
      · rw [way.verdict]
      · rw [way.discarded]
      · exact fun inTime => ⟨(way.notDone inTime).1 .notifying, (way.notDone inTime).2⟩
      · exact (reverted_notify s.core).1
      · exact (reverted_notify s.core).2

/-- The request reads the mark after it has set the flag, so what it reads is final. -/
theorem Sound.read {i : Nat} (sound : Sound path old fs s)
    (place : s.guard = .taken i .reading) :
    Sound path old fs { s with
      guard := .taken i (if s.core.fired then .dropping .locking false else .discarding) } where
  core := sound.core
  lock j := by
    rw [sound.holder_owner place]
    cases fired : s.core.fired <;> simp [ConfirmPc.holdsLock]
  cancelled := by
    rw [sound.cancelled, place]
    cases fired : s.core.fired <;> rfl
  verdict j pc inTime same given := by
    cases fired : s.core.fired with
    | false =>
        simp only [fired, Bool.false_eq_true, if_false] at same
        cases same
        cases given
        rfl
    | true =>
        simp only [fired, if_true] at same
        cases same
        cases given
        rfl
  files := by
    have same : s.guard.discarded = false := by rw [place]; rfl
    rw [sound.files, same]
    cases fired : s.core.fired <;> rfl
  reverts := sound.reverts
  answers j reply answered := by
    rcases sound.answers j reply answered with none | ⟨inTime, same, -⟩
    · exact .inl none
    · rw [place] at same
      cases same
  done j inTime same := by
    cases fired : s.core.fired <;> simp [fired] at same

theorem Sound.discardBackup {i : Nat} (sound : Sound path old fs s)
    (place : s.guard = .taken i .discarding) :
    Sound path old fs { s with
      fs := discard path s.fs, guard := .taken i (.dropping .locking true) } where
  core := sound.core
  lock j := by
    rw [sound.holder_owner place]
    simp [ConfirmPc.holdsLock]
  cancelled := by
    rw [sound.cancelled, place]
    rfl
  verdict j pc inTime same given := by
    cases same
    cases given
    exact sound.verdict i _ true place rfl
  files := by
    have fired : s.core.fired = false := sound.verdict i _ true place rfl
    have waiting : s.core.reverted = false ∧ s.core.acted = false := by
      have core := sound.core
      cases pc : s.core.worker <;>
        simp_all [RevertState.Sound, RevertState.reverted, RevertState.acted]
    have file : s.fs = fs := by
      rw [sound.files, filesAt, waiting.1, waiting.2, place]
      rfl
    rw [filesAt, waiting.1, waiting.2, discard_eq, file]
    rfl
  reverts := sound.reverts
  answers j reply answered := by
    rcases sound.answers j reply answered with none | ⟨inTime, same, -⟩
    · exact .inl none
    · rw [place] at same
      cases same
  done j inTime same := by cases same

theorem Sound.joined {i : Nat} {inTime : Bool} (sound : Sound path old fs s)
    (place : s.guard = .taken i (.joining inTime)) :
    Sound path old fs
      ({ s with guard := .taken i (.done inTime) }.answer i (.ofInTime inTime)) where
  core := sound.core
  lock j := by
    change s.core.holder = _ ↔ _
    rw [sound.holder_owner place]
    simp [answer, ConfirmPc.holdsLock]
  cancelled := by
    change s.core.cancelled = _
    rw [sound.cancelled, place]
    rfl
  verdict j pc late same given := by
    cases same
    cases given
    exact sound.verdict i _ inTime place rfl
  files := by
    change s.fs = _
    rw [sound.files, place]
    rfl
  reverts := sound.reverts
  answers j reply answered := by
    by_cases same : j = i
    · subst j
      simp only [answer, Function.update_self, Option.some_inj] at answered
      exact .inr ⟨inTime, rfl, answered.symm⟩
    · simp only [answer, Function.update_of_ne same] at answered
      rcases sound.answers j reply answered with none | ⟨_, other, -⟩
      · exact .inl none
      · rw [place] at other
        cases other
  done j late same := by
    cases same
    exact Function.update_self ..

theorem Sound.owner {i : Nat} {pc : ConfirmPc} (sound : Sound path old fs s)
    (place : s.guard = .taken i pc) (step : s.ownerStep path i pc = some s') :
    Sound path old fs s' := by
  cases pc with
  | confirming stage => exact sound.cancel place confirming_cancelPath step
  | reading =>
      cases step
      exact sound.read place
  | discarding =>
      cases step
      exact sound.discardBackup place
  | dropping stage inTime => exact sound.cancel place (dropping_cancelPath inTime) step
  | joining inTime =>
      simp only [ownerStep] at step
      split at step
      · cases step
        exact sound.joined place
      · cases step
  | done inTime => cases step

theorem Sound.refuse {i : Nat} (sound : Sound path old fs s) (fresh : s.answers i = none) :
    Sound path old fs (s.answer i .noPending) where
  core := sound.core
  lock := sound.lock
  cancelled := sound.cancelled
  verdict := sound.verdict
  files := sound.files
  reverts := sound.reverts
  answers j reply answered := by
    by_cases same : j = i
    · subst j
      simp only [answer, Function.update_self, Option.some_inj] at answered
      exact .inl answered.symm
    · simp only [answer, Function.update_of_ne same] at answered
      exact sound.answers j reply answered
  done j inTime place := by
    have kept := sound.done j inTime place
    by_cases same : j = i
    · subst j
      rw [fresh] at kept
      cases kept
    · exact (Function.update_of_ne same ..).trans kept

theorem Sound.take {i : Nat} (sound : Sound path old fs s) (place : s.guard = .inMap) :
    Sound path old fs { s with guard := .taken i (.confirming .locking) } where
  core := sound.core
  lock j := by
    have unheld := sound.lock j
    simp only [place, reduceCtorEq, false_and, exists_false, iff_false] at unheld
    simp [unheld, ConfirmPc.holdsLock]
  cancelled := by
    rw [sound.cancelled, place]
    rfl
  verdict j pc inTime same given := by
    cases same
    cases given
  files := by
    rw [sound.files, place]
    rfl
  reverts := sound.reverts
  answers j reply answered := by
    rcases sound.answers j reply answered with none | ⟨_, other, -⟩
    · exact .inl none
    · rw [place] at other
      cases other
  done j inTime same := by cases same

theorem Sound.insert (sound : Sound path old fs s) (place : s.guard = .arming) :
    Sound path old fs { s with guard := .inMap } where
  core := sound.core
  lock j := by
    rw [sound.lock, place]
    simp
  cancelled := by
    rw [sound.cancelled, place]
    rfl
  verdict j pc inTime same := by cases same
  files := by
    rw [sound.files, place]
    rfl
  reverts := sound.reverts
  answers j reply answered := by
    rcases sound.answers j reply answered with none | ⟨_, other, -⟩
    · exact .inl none
    · rw [place] at other
      cases other
  done j inTime same := by cases same

theorem Sound.request {i : Nat} (sound : Sound path old fs s)
    (step : s.requestStep path i = some s') : Sound path old fs s' := by
  unfold requestStep at step
  split at step
  · next owner pc place =>
      split at step
      · next same =>
          subst i
          exact sound.owner place step
      · split at step
        · next fresh =>
            cases step
            exact sound.refuse (Option.isNone_iff_eq_none.mp fresh)
        · cases step
  · next place =>
      split at step
      · cases step
        exact sound.take place
      · cases step
  · split at step
    · next fresh =>
        cases step
        exact sound.refuse (Option.isNone_iff_eq_none.mp fresh)
    · cases step

theorem Sound.step {event : SessionEvent} (sound : Sound path old fs s)
    (backed : fs (backupPath path) = some old) (step : s.step path event = some s') :
    Sound path old fs s' := by
  cases event with
  | insert =>
      simp only [Session.step] at step
      split at step
      · next place =>
          cases step
          exact sound.insert place
      · cases step
  | worker => exact sound.worker backed step
  | timeout =>
      obtain ⟨core, moved, rfl⟩ := Option.map_eq_some_iff.mp step
      exact sound.timeout moved
  | request i => exact sound.request step

theorem sound_reached (backed : fs (backupPath path) = some old) {events : List SessionEvent}
    (reached : runSome (Session.step path) (start fs) events = some s) : Sound path old fs s :=
  invariant_runSome (fun _ _ _ sound moved => sound.step backed moved)
    (sound_start path old fs) events reached

end Steps

/-- Exactly one confirmation came in time and the edit stays, or the timer fired and the old file
is back. -/
structure OneOutcome (path : Path) (old new : ByteArray) (s : Session) : Prop where
  either :
    ((∃! i, s.answers i = some .confirmed) ∧ s.fs path = some new ∧ s.reverts = 0) ∨
      ((∀ i, s.answers i ≠ some .confirmed) ∧ s.fs path = some old ∧ s.reverts = 1)
  backup : s.fs (backupPath path) = none
  noGuard : ∀ i reply, s.answers i = some reply → (∀ pc, s.guard ≠ .taken i pc) →
    reply = .noPending

section Outcome

variable {path : Path} {old new : ByteArray} {fs : Fs} {s : Session}

theorem cases_of_resting {guard : GuardPlace} (resting : guard.resting = true) :
    guard = .inMap ∨ ∃ i inTime, guard = .taken i (.done inTime) := by
  cases guard with
  | arming => cases resting
  | inMap => exact .inl rfl
  | taken i pc =>
      cases pc with
      | done inTime => exact .inr ⟨i, inTime, rfl⟩
      | _ => cases resting

theorem Sound.not_confirmed_of_fired (sound : Sound path old fs s) (fired : s.core.fired = true)
    (i : Nat) : s.answers i ≠ some .confirmed := by
  intro confirmed
  rcases sound.answers i _ confirmed with none | ⟨inTime, place, reply⟩
  · cases none
  · have late := sound.verdict i _ inTime place rfl
    rw [fired] at late
    cases inTime with
    | false => cases reply
    | true => cases late

theorem Sound.taken_of_not_fired (sound : Sound path old fs s) (finished : s.Finished)
    (idle : s.core.fired = false) : ∃ i, s.guard = .taken i (.done true) := by
  obtain ⟨returned, place⟩ := finished
  have core := sound.core
  simp only [RevertState.Sound, returned] at core
  have marked := sound.cancelled.symm.trans (core.2 idle)
  rcases cases_of_resting place with place | ⟨i, inTime, place⟩
  · simp [place, GuardPlace.marked] at marked
  · have inTimeGiven := sound.verdict i _ inTime place rfl
    rw [idle] at inTimeGiven
    cases inTime with
    | false => cases inTimeGiven
    | true => exact ⟨i, place⟩

theorem Sound.files_of_fired (sound : Sound path old fs s) (finished : s.Finished)
    (fired : s.core.fired = true) :
    s.fs = erase (backupPath path) (put path old fs) ∧ s.reverts = 1 := by
  rw [sound.files, sound.reverts]
  simp [filesAt, RevertState.acted, RevertState.reverted, finished.1, fired]

theorem Sound.files_of_not_fired (sound : Sound path old fs s) (finished : s.Finished)
    (idle : s.core.fired = false) :
    s.fs = erase (backupPath path) fs ∧ s.reverts = 0 := by
  obtain ⟨i, place⟩ := sound.taken_of_not_fired finished idle
  rw [sound.files, sound.reverts]
  simp [filesAt, RevertState.acted, RevertState.reverted, finished.1, idle, place,
    GuardPlace.discarded, ConfirmPc.discarded]

/-- One staged edit has exactly one outcome, whatever the order of the steps. -/
theorem one_outcome (path : Path) (old new : ByteArray) (fs : Fs) (staged : fs path = some new)
    (backed : fs (backupPath path) = some old) (events : List SessionEvent) (s : Session)
    (reached : runSome (step path) (start fs) events = some s) (finished : s.Finished) :
    OneOutcome path old new s := by
  have sound := sound_reached backed reached
  have noGuard (i : Nat) (reply : ConfirmAnswer) (answered : s.answers i = some reply)
      (other : ∀ pc, s.guard ≠ .taken i pc) : reply = .noPending := by
    rcases sound.answers i reply answered with none | ⟨inTime, place, -⟩
    · exact none
    · exact absurd place (other _)
  cases fired : s.core.fired with
  | true =>
      obtain ⟨files, count⟩ := sound.files_of_fired finished fired
      refine ⟨.inr ⟨sound.not_confirmed_of_fired fired, ?_, count⟩, ?_, noGuard⟩
      · rw [files, erase_backup_self, put_self]
      · rw [files, erase_self]
  | false =>
      obtain ⟨files, count⟩ := sound.files_of_not_fired finished fired
      obtain ⟨i, place⟩ := sound.taken_of_not_fired finished fired
      refine ⟨.inl ⟨⟨i, sound.done i true place, ?_⟩, ?_, count⟩, ?_, noGuard⟩
      · intro j confirmed
        rcases sound.answers j _ confirmed with none | ⟨inTime, same, -⟩
        · cases none
        · rw [place] at same
          cases same
          rfl
      · rw [files, erase_backup_self, staged]
      · rw [files, erase_self]

/-- A finished session leaves the files that confirming or firing in one step leaves. -/
theorem finished_files (path : Path) (old : ByteArray) (fs : Fs) (committed : Option ByteArray)
    (backed : fs (backupPath path) = some old) (events : List SessionEvent) (s : Session)
    (reached : runSome (step path) (start fs) events = some s) (finished : s.Finished) :
    s.fs = (CommitState.confirmPending (.ok ()) path ⟨fs, some false, committed⟩).2.fs ∨
      s.fs = (CommitState.fireTimer .done (.ok ()) path ⟨fs, some false, committed⟩).fs := by
  have sound := sound_reached backed reached
  cases fired : s.core.fired with
  | true =>
      have armed : (⟨fs, some false, committed⟩ : CommitState).Armed := rfl
      rw [CommitState.fireTimer_restores armed backed]
      exact .inr (sound.files_of_fired finished fired).1
  | false =>
      exact .inl ((sound.files_of_not_fired finished fired).1.trans (discard_eq path fs).symm)

/-- A confirmation that comes while the worker waits, and a second one that is too late. -/
def confirmedInTime : List SessionEvent :=
  [.worker, .insert, .worker] ++ List.replicate 7 (.request 0) ++
    [.worker, .worker, .worker, .request 1] ++ List.replicate 5 (.request 0)

def stagedFs : Fs :=
  put (backupPath etcConf) (encode "ssid=old\n".toList) (oneFile etcConf "ssid=new\n".toList)

theorem confirmedInTime_runs :
    (runSome (step etcConf) (start stagedFs) confirmedInTime).isSome := by decide +kernel

theorem one_outcome_confirmedInTime :
    ∃ s, runSome (step etcConf) (start stagedFs) confirmedInTime = some s ∧
      OneOutcome etcConf (encode "ssid=old\n".toList) (encode "ssid=new\n".toList) s := by
  have reached := (Option.some_get confirmedInTime_runs).symm
  refine ⟨_, reached, ?_⟩
  refine one_outcome etcConf _ _ stagedFs ?_ (put_self ..) confirmedInTime _ reached ?_
  · exact (put_backup_self ..).trans (put_self ..)
  · decide +kernel

end Outcome

end Session

end TinyWifi
