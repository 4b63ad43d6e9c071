import TinyWifi.PendingReverts

/-! What becomes of the held changes: every running timer is accounted for, the answers say what
has happened to the change that they are about, and no request can be stuck for ever. -/

namespace TinyWifi

open Runs Places

/-- Nothing starts the action once the worker has returned. -/
theorem Guard.step_of_finished {τ α : Type} [DecidableEq τ] {first : α} {s s' : Guard τ α}
    {event : GuardEvent τ α} (returned : s.core.worker = .finished)
    (step : s.step first event = some s') :
    s'.starts = s.starts ∧ s'.core.worker = .finished := by
  have worker (other : event ≠ .worker) : s'.core.worker = s.core.worker :=
    Guard.step_worker other (by simp [returned]) (by simp [returned]) step
  cases event with
  | worker => simp [Guard.step, workerStep, RevertState.workerStep, returned] at step
  | timeout => simp [Guard.step, RevertState.timeout, returned] at step
  | act next => simp [Guard.step, actStep, returned] at step
  | call c =>
      obtain ⟨pc, core, -, rfl⟩ := callStep_moves step
      exact ⟨rfl, (worker (by simp)).trans returned⟩

namespace PendingReverts

variable {κ ι α : Type} {ask : ι → RevertRequest κ} {s s' : PendingReverts κ ι α} {i j g h : ι}
  {guard : Guard Unit α}

def Has (ask : ι → RevertRequest κ) (s : PendingReverts κ ι α) (i g : ι) : Prop :=
  (s.pcs i).has ((ask i).own i) = some g

/-- A guard is in the map, or one request has taken it. -/
theorem Sound.placed (sound : Sound ask s) (armed : s.guards g = some guard) :
    (s.map (ask g).key = some g ∧ ∀ i, ¬ Has ask s i g) ∨
      ∃ i, Has ask s i g ∧ ask g = .hold (ask i).key ∧ (∀ key, s.map key ≠ some g) ∧
        ∀ j, Has ask s j g → j = i := by
  obtain ⟨place, found⟩ := (sound.once.somewhere g).mp (Option.isSome_of_eq_some armed)
  have asks := sound.keys place g found
  cases place with
  | inl key =>
      left
      refine ⟨by rw [asks]; exact found, fun i has => ?_⟩
      exact nomatch sound.once.single found (b := .inr i) has
  | inr i =>
      refine .inr ⟨i, found, asks, fun key present => ?_, fun j has => ?_⟩
      · exact nomatch sound.once.single found (b := .inl key) present
      · exact Sum.inr.inj (sound.once.single (a := .inr j) has found)

theorem Sound.returned_of_ended (sound : Sound ask s) (has : Has ask s i g)
    (armed : s.guards g = some guard) (ended : (s.pcs i).ended = true) :
    guard.pcs .drop = .dropped := by
  have calls : (s.pcs i).Calls guard := sound.calls (.inr i) g guard has armed
  cases pc : s.pcs i with
  | held replaced =>
      rw [pc] at calls
      exact calls.2
  | answered guard inTime =>
      rw [pc] at calls
      exact calls.2
  | noPending => simp [Has, pc, RequestPc.has] at has
  | _ => simp [pc, RequestPc.ended] at ended

theorem Sound.underWay_of_live (sound : Sound ask s) (has : Has ask s i g)
    (armed : s.guards g = some guard) (live : guard.core.worker ≠ .finished) :
    (s.pcs i).underWay = true := by
  have going : (s.pcs i).ended = false := by
    by_contra ended
    rw [Bool.not_eq_false] at ended
    exact live ((sound.guards g guard armed).1.dropped _
      (sound.returned_of_ended has armed ended))
  cases pc : s.pcs i with
  | begun => simp [Has, pc, RequestPc.has] at has
  | _ => simpa [RequestPc.underWay, pc] using going

/-- Where the timers are that still run. -/
structure Accounted (ask : ι → RevertRequest κ) (s : PendingReverts κ ι α) : Prop where
  placed : ∀ g guard, s.guards g = some guard → guard.core.worker ≠ .finished →
    (s.map (ask g).key = some g ∧ ∀ i, ¬ Has ask s i g) ∨
      ∃ i, (s.pcs i).underWay = true ∧ Has ask s i g ∧ ask g = .hold (ask i).key ∧
        (∀ key, s.map key ≠ some g) ∧ ∀ j, Has ask s j g → j = i
  atRest : (∀ i, (s.pcs i).underWay = false) → ∀ g h guard guard', s.guards g = some guard →
    s.guards h = some guard' → guard.core.worker ≠ .finished → guard'.core.worker ≠ .finished →
    (ask g).key = (ask h).key → g = h

theorem Sound.armed_of_has (sound : Sound ask s) (has : Has ask s i g) :
    ∃ guard, s.guards g = some guard :=
  Option.isSome_iff_exists.mp ((sound.once.somewhere g).mpr ⟨.inr i, has⟩)

theorem setGuard_step [DecidableEq ι] {first : α} {other other' : Guard Unit α}
    (event : GuardEvent Unit α) (armed : s.guards g = some guard)
    (present : s.guards h = some other) (took : other.step first event = some other') :
    ∃ guard', (s.setGuard h other').guards g = some guard' ∧
      (guard' = guard ∨ ∃ own, guard.step first own = some guard') := by
  by_cases same : g = h
  · subst same
    cases present.symm.trans armed
    exact ⟨other', Function.update_self .., .inr ⟨event, took⟩⟩
  · exact ⟨guard, (Function.update_of_ne same ..).trans armed, .inl rfl⟩

variable [DecidableEq ι] [DecidableEq κ] {first : α} {events more : List (PendingEvent ι α)}

theorem timers_accounted (reached : runSome (step ask first) start events = some s) :
    Accounted ask s := by
  have sound := sound_reached reached
  have placed (g : ι) (guard : Guard Unit α) (armed : s.guards g = some guard)
      (live : guard.core.worker ≠ .finished) :
      (s.map (ask g).key = some g ∧ ∀ i, ¬ Has ask s i g) ∨
        ∃ i, (s.pcs i).underWay = true ∧ Has ask s i g ∧ ask g = .hold (ask i).key ∧
          (∀ key, s.map key ≠ some g) ∧ ∀ j, Has ask s j g → j = i := by
    obtain there | ⟨i, has, others⟩ := sound.placed armed
    · exact .inl there
    · exact .inr ⟨i, sound.underWay_of_live has armed live, has, others⟩
  refine ⟨placed, fun rest g h guard guard' armed armed' live live' same => ?_⟩
  have inMap {g : ι} {guard : Guard Unit α} (armed : s.guards g = some guard)
      (live : guard.core.worker ≠ .finished) : s.map (ask g).key = some g := by
    obtain ⟨there, -⟩ | ⟨i, going, -⟩ := placed g guard armed live
    · exact there
    · simp [rest i] at going
  have there := inMap armed live
  rw [same, inMap armed' live'] at there
  exact (Option.some.inj there).symm

def asks : Nat → RevertRequest Unit
  | 1 => .confirm ()
  | _ => .hold ()

def heldOnce : List (PendingEvent Nat Unit) := List.replicate 4 (.request 0)

/-- The worker leaves before the request that has confirmed it goes on. -/
def confirmedOnce : List (PendingEvent Nat Unit) :=
  heldOnce ++ List.replicate 14 (.request 1) ++ List.replicate 3 (.worker 0) ++
    List.replicate 2 (.request 1)

def replacedOnce : List (PendingEvent Nat Unit) :=
  heldOnce ++ List.replicate 7 (.request 2) ++ List.replicate 3 (.worker 0) ++
    List.replicate 3 (.request 2)

theorem timers_accounted_heldOnce : ∃ s, runSome (step asks ()) start heldOnce = some s ∧
    s.map () = some 0 ∧ Accounted asks s := by
  obtain ⟨s, reached, there⟩ : ∃ s, runSome (step asks ()) start heldOnce = some s ∧
      s.map () = some 0 := ⟨_, rfl, rfl⟩
  exact ⟨s, reached, there, timers_accounted reached⟩

/-- A request moves itself only, and not once it has ended. -/
theorem Moves.pcs_of_ended {ask : RevertRequest κ} (moves : Moves ask j s (s.pcs j) s')
    (ended : (s.pcs i).ended = true) : s'.pcs i = s.pcs i := by
  by_cases same : i = j
  · subst j
    generalize s.pcs i = before at moves ended
    cases moves with
    | unlock leaves =>
        obtain ⟨_, rfl, -⟩ | ⟨_, rfl, -⟩ | ⟨rfl, -⟩ := RequestPc.unlocked_cases leaves <;>
          cases ended
    | call calls =>
        obtain ⟨rfl, -⟩ | ⟨rfl, -⟩ | ⟨_, rfl, -⟩ := RequestPc.call_cases calls <;> cases ended
    | ended calls =>
        obtain ⟨rfl, -⟩ | ⟨rfl, -⟩ | ⟨_, rfl, -⟩ := RequestPc.call_cases calls <;> cases ended
    | _ => cases ended
  · generalize s.pcs j = before at moves
    cases moves with
    | call => rfl
    | _ => exact Function.update_of_ne same ..

theorem ended_stays (ended : (s.pcs i).ended = true)
    (later : runSome (step ask first) s more = some s') : s'.pcs i = s.pcs i := by
  have kept (middle : PendingReverts κ ι α) (event : PendingEvent ι α)
      (last : PendingReverts κ ι α) (same : middle.pcs i = s.pcs i)
      (taken : middle.step ask first event = some last) : last.pcs i = s.pcs i := by
    obtain ⟨j, -, moves⟩ | ⟨g, guard, guard', timer, -, -, -, rfl⟩ := step_cases taken
    · exact (moves.pcs_of_ended (by rw [same, ended])).trans same
    · exact same
  exact invariant_runSome kept rfl more later

/-- Whoever was told that a change is confirmed or reverted was told the truth, for ever, about a
change of the same key that nobody else was told about. -/
theorem answer_true {inTime : Bool}
    (reached : runSome (step ask first) start events = some s)
    (answered : s.pcs i = .answered g inTime)
    (later : runSome (step ask first) s more = some s') :
    ∃ guard, s'.guards g = some guard ∧ guard.core.worker = .finished ∧
      guard.starts = (if inTime then 0 else 1) ∧ ask g = .hold (ask i).key ∧
      ∀ j, Has ask s' j g → j = i := by
  have sound : Sound ask s' :=
    invariant_runSome (fun _ _ _ sound step => sound.step step) (sound_reached reached) more later
  have still := ended_stays (by rw [answered]; rfl) later
  rw [answered] at still
  have has : Has ask s' i g := by
    rw [Has, still]
    rfl
  obtain ⟨guard, armed⟩ := sound.armed_of_has has
  have calls : (s'.pcs i).Calls guard := sound.calls (.inr i) g guard has armed
  rw [still] at calls
  have kept := (sound.guards g guard armed).1
  have returned := kept.dropped .drop calls.2
  refine ⟨guard, armed, returned, ?_, sound.keys (.inr i) g has, fun j other => ?_⟩
  · rw [kept.starts_of_finished returned, kept.verdict_of_confirmed calls.1]
    cases inTime <;> rfl
  · exact Sum.inr.inj (sound.once.single (a := .inr j) (b := .inr i) other has)

theorem answer_true_confirmedOnce : ∃ s, runSome (step asks ()) start confirmedOnce = some s ∧
    s.pcs 1 = .answered 0 true ∧ ∃ guard, s.guards 0 = some guard ∧
      guard.core.worker = .finished ∧ guard.starts = 0 := by
  obtain ⟨s, reached, answered⟩ : ∃ s, runSome (step asks ()) start confirmedOnce = some s ∧
      s.pcs 1 = .answered 0 true := ⟨_, rfl, rfl⟩
  have later : runSome (step asks ()) s [] = some s := rfl
  obtain ⟨guard, armed, returned, never, -⟩ := answer_true reached answered later
  exact ⟨s, reached, answered, guard, armed, returned, never⟩

theorem Sound.guard_step {event : PendingEvent ι α} (sound : Sound ask s)
    (armed : s.guards g = some guard) (taken : s.step ask first event = some s') :
    ∃ guard', s'.guards g = some guard' ∧
      (guard' = guard ∨ ∃ own, guard.step first own = some guard') := by
  obtain ⟨i, -, moves⟩ | ⟨h, other, other', timer, present, -, took, rfl⟩ := step_cases taken
  · generalize place : s.pcs i = before at moves
    cases moves with
    | arm =>
        have apart : g ≠ i := by
          rintro rfl
          exact nomatch (sound.fresh g place).symm.trans armed
        exact ⟨guard, (Function.update_of_ne apart ..).trans armed, .inl rfl⟩
    | call calls present took =>
        exact setGuard_step (.call _) armed present took
    | _ => exact ⟨guard, armed, .inl rfl⟩
  · exact setGuard_step timer armed present took

/-- A guard whose worker has returned, with as many starts of its action. -/
def Settled (g : ι) (starts : Nat) (s : PendingReverts κ ι α) : Prop :=
  ∃ guard, s.guards g = some guard ∧ guard.starts = starts ∧ guard.core.worker = .finished

theorem settled_run (sound : Sound ask s) (armed : s.guards g = some guard)
    (returned : guard.core.worker = .finished)
    (later : runSome (step ask first) s more = some s') :
    Sound ask s' ∧ Settled g guard.starts s' := by
  have kept (middle : PendingReverts κ ι α) (event : PendingEvent ι α)
      (last : PendingReverts κ ι α) (now : Sound ask middle ∧ Settled g guard.starts middle)
      (taken : middle.step ask first event = some last) :
      Sound ask last ∧ Settled g guard.starts last := by
    obtain ⟨sound, guard', armed', same, done⟩ := now
    refine ⟨sound.step taken, ?_⟩
    obtain ⟨guard'', found, rfl | ⟨own, took⟩⟩ := sound.guard_step armed' taken
    · exact ⟨guard'', found, same, done⟩
    · obtain ⟨starts, worker⟩ := Guard.step_of_finished done took
      exact ⟨guard'', found, starts.trans same, worker⟩
  exact invariant_runSome kept ⟨sound, guard, armed, rfl, returned⟩ more later

/-- What a newer change of the key has replaced has either been reverted by then or never will be,
and nobody is told about it. -/
theorem replaced_settled (reached : runSome (step ask first) start events = some s)
    (held : s.pcs i = .held (some g)) (later : runSome (step ask first) s more = some s') :
    ∃ guard guard', s.guards g = some guard ∧ s'.guards g = some guard' ∧
      guard'.starts = guard.starts ∧ guard'.core.worker = .finished ∧
      ask g = .hold (ask i).key ∧ ∀ j inTime, s'.pcs j ≠ .answered g inTime := by
  have sound := sound_reached reached
  have has : Has ask s i g := by
    rw [Has, held]
    rfl
  obtain ⟨guard, armed⟩ := sound.armed_of_has has
  have returned := (sound.guards g guard armed).1.dropped .drop
    (sound.returned_of_ended has armed (by rw [held]; rfl))
  obtain ⟨kept, guard', armed', same, done⟩ := settled_run sound armed returned later
  refine ⟨guard, guard', armed, armed', same, done, sound.keys (.inr i) g has, ?_⟩
  intro j inTime answered
  have still := ended_stays (by rw [held]; rfl) later
  rw [held] at still
  have mine : Has ask s' i g := by
    rw [Has, still]
    rfl
  have theirs : Has ask s' j g := by
    rw [Has, answered]
    rfl
  cases kept.once.single (a := .inr i) (b := .inr j) mine theirs
  cases still.symm.trans answered

theorem replaced_settled_replacedOnce :
    ∃ s, runSome (step asks ()) start replacedOnce = some s ∧ s.pcs 2 = .held (some 0) ∧
      ∃ guard, s.guards 0 = some guard ∧ guard.core.worker = .finished := by
  obtain ⟨s, reached, held⟩ : ∃ s, runSome (step asks ()) start replacedOnce = some s ∧
      s.pcs 2 = .held (some 0) := ⟨_, rfl, rfl⟩
  have later : runSome (step asks ()) s [] = some s := rfl
  obtain ⟨-, guard, -, armed, -, returned, -⟩ := replaced_settled reached held later
  exact ⟨s, reached, held, guard, armed, returned⟩

end PendingReverts

end TinyWifi
