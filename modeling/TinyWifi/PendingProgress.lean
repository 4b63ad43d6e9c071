import TinyWifi.PendingOutcomes

/-! No request on the held changes can be stuck: whatever the others are in the middle of, it can
be brought to its answer without a timeout, a new request or a stage of an action. -/

namespace TinyWifi

open Runs

namespace RequestPc

variable {ι : Type}

def rank : RequestPc ι → Nat
  | .begun => 6
  | .locking => 5
  | .inMap => 4
  | .replacing _ | .taken _ => 3
  | .leaving _ | .confirming _ => 2
  | .closing _ _ => 1
  | .held _ | .noPending | .answered _ _ => 0

theorem afterwards_of_ended {pc : RequestPc ι} {g : ι} {c : GuardCall Unit} {place : CallPc}
    (calls : pc.call = some (g, c)) (takes : c.takes place = true) (ended : place.ended = true) :
    ∃ later, pc.afterwards place = some later ∧ later.rank < pc.rank := by
  obtain ⟨rfl, rfl⟩ | ⟨rfl, rfl⟩ | ⟨inTime, rfl, rfl⟩ := call_cases calls <;>
    cases place <;> simp_all [CallPc.ended, GuardCall.takes, afterwards, rank]

theorem underWay_of_rank {pc pc' : RequestPc ι} (going : pc.underWay = true)
    (nearer : pc'.rank < pc.rank) : pc'.ended = true ∨ (pc'.underWay = true ∧ pc' ≠ .locking) := by
  cases pc' <;> cases pc <;>
    simp_all [rank, underWay, ended]

end RequestPc

namespace PendingReverts

variable {κ ι α : Type}

/-- A step of this request, or of a timer that does not run out; the action can only return. -/
def By (i : ι) : PendingEvent ι α → Prop
  | .request j => j = i
  | .worker _ => True
  | .act _ next => next = none
  | .timeout _ => False

def Unaided (s : PendingReverts κ ι α) : PendingEvent ι α → Prop
  | .request j => (s.pcs j).underWay = true
  | .worker _ => True
  | .act _ next => next = none
  | .timeout _ => False

theorem unaided_of_by {s : PendingReverts κ ι α} {i : ι} {event : PendingEvent ι α}
    (going : (s.pcs i).underWay = true) (own : By i event) : Unaided s event := by
  cases event with
  | request j =>
      cases own
      exact going
  | _ => exact own

variable {ask : ι → RevertRequest κ} {first : α} {s s' : PendingReverts κ ι α} {i j g : ι}
  {c : GuardCall Unit} {guard guard' : Guard Unit α}

theorem Sound.others_unheld (sound : Sound ask s) (calls : (s.pcs i).call = some (g, c))
    (armed : s.guards g = some guard) (d : GuardCall Unit) (other : d ≠ c) :
    (guard.pcs d).holdsLock = false := by
  have before : (s.pcs i).Calls guard :=
    sound.calls (.inr i) g guard (RequestPc.has_of_call calls) armed
  obtain ⟨pc, rfl⟩ | ⟨pc, rfl⟩ | ⟨inTime, pc, rfl⟩ := RequestPc.call_cases calls <;>
    rw [pc, RequestPc.Calls] at before <;> cases d <;>
      simp_all [CallPc.holdsLock]

variable [DecidableEq ι]

theorem callGuard_of_callStep {pc : RequestPc ι} (calls : pc.call = some (g, c))
    (armed : s.guards g = some guard) (step : guard.callStep c = some guard') :
    s.callGuard i pc g c = some (s.setGuard g guard') := by
  have going : pc.afterwards (guard.pcs c) = none := by
    cases after : pc.afterwards (guard.pcs c) with
    | none => rfl
    | some later =>
        obtain ⟨-, -, place, -⟩ | ⟨_, -, -, place, -⟩ | ⟨_, -, -, place, -⟩ :=
          RequestPc.ended_cases calls after <;>
        · rw [Guard.callStep, place] at step
          cases step
  simp [callGuard, armed, going, step]

variable [DecidableEq κ]

theorem requestStep_call (own : (ask i).allows (s.pcs i) = true)
    (calls : (s.pcs i).call = some (g, c)) :
    s.requestStep (ask i) i = s.callGuard i (s.pcs i) g c := by
  obtain ⟨pc, rfl⟩ | ⟨pc, rfl⟩ | ⟨inTime, pc, rfl⟩ := RequestPc.call_cases calls <;>
    cases asks : ask i <;> rw [pc, asks] at own <;> simp_all [RevertRequest.allows, requestStep,
      armRevert, confirmPending]

theorem exists_event {event : GuardEvent Unit α} (own : (ask i).allows (s.pcs i) = true)
    (calls : (s.pcs i).call = some (g, c)) (armed : s.guards g = some guard)
    (quiet : Guard.unaided c event) (took : guard.step first event = some guard') :
    ∃ event', By i event' ∧ s.step ask first event' = some (s.setGuard g guard') := by
  cases event with
  | worker => exact ⟨.worker g, trivial, by simp [step, timerStep, armed, took]⟩
  | act next => exact ⟨.act g next, quiet, by simp [step, timerStep, armed, took]⟩
  | timeout => exact absurd quiet (by simp [Guard.unaided])
  | call d =>
      cases quiet
      refine ⟨.request i, rfl, ?_⟩
      rw [step, requestStep_call own calls]
      exact callGuard_of_callStep calls armed took

theorem exists_events {own : List (GuardEvent Unit α)} (allows : (ask i).allows (s.pcs i) = true)
    (calls : (s.pcs i).call = some (g, c)) (armed : s.guards g = some guard)
    (quiet : ∀ event ∈ own, Guard.unaided c event)
    (ran : runSome (Guard.step first) guard own = some guard') :
    ∃ events, (∀ event ∈ events, By i event) ∧
      runSome (step ask first) s events = some (s.setGuard g guard') := by
  induction own generalizing s guard with
  | nil =>
      cases ran
      refine ⟨[], by simp, congrArg some ?_⟩
      rw [setGuard, Function.update_eq_self_iff.mpr armed.symm]
  | cons event rest ih =>
      obtain ⟨middle, took, later⟩ := Option.bind_eq_some_iff.mp ran
      obtain ⟨event', by_i, taken⟩ :=
        exists_event allows calls armed (quiet event List.mem_cons_self) took
      obtain ⟨events, by_rest, reached⟩ := ih (s := s.setGuard g middle) allows calls
        (Function.update_self ..) (fun other member => quiet other (List.mem_cons_of_mem _ member))
        later
      refine ⟨event' :: events, by simpa using ⟨by_i, by_rest⟩, ?_⟩
      have twice : (s.setGuard g middle).setGuard g guard' = s.setGuard g guard' := by
        simp [setGuard]
      rw [twice] at reached
      exact Option.bind_eq_some_iff.mpr ⟨_, taken, reached⟩

theorem exists_call_ended (first : α) (sound : Sound ask s) (calls : (s.pcs i).call = some (g, c)) :
    ∃ events s', (∀ event ∈ events, By i event) ∧ runSome (step ask first) s events = some s' ∧
      (s'.pcs i).rank < (s.pcs i).rank ∧ ∀ j, j ≠ i → s'.pcs j = s.pcs j := by
  have has : s.places ask (.inr i) = some g := RequestPc.has_of_call calls
  obtain ⟨guard, armed⟩ := Option.isSome_iff_exists.mp ((sound.once.somewhere g).mpr ⟨_, has⟩)
  obtain ⟨kept, orderly⟩ := sound.guards g guard armed
  obtain ⟨own, guard', quiet, ran, orderly', ended⟩ := Guard.exists_run_ended first
    kept orderly (sound.others_unheld calls armed)
  obtain ⟨events, by_i, reached⟩ := exists_events (sound.own i) calls armed quiet ran
  obtain ⟨later, after, nearer⟩ :=
    RequestPc.afterwards_of_ended calls (orderly'.own c) ended
  refine ⟨events ++ [.request i], (s.setGuard g guard').goTo i later, ?_, ?_, ?_, ?_⟩
  · intro event member
    obtain member | member := List.mem_append.mp member
    · exact by_i event member
    · cases List.mem_singleton.mp member
      rfl
  · rw [runSome_append reached]
    have taken : (s.setGuard g guard').step ask first (.request i) =
        some ((s.setGuard g guard').goTo i later) := by
      change requestStep (ask i) i (s.setGuard g guard') = _
      rw [requestStep_call (s := s.setGuard g guard') (sound.own i) calls]
      simp [callGuard, setGuard, after]
    exact Option.bind_eq_some_iff.mpr ⟨_, taken, rfl⟩
  · simpa [goTo] using nearer
  · intro j other
    simp [goTo, setGuard, other]

theorem exists_own_step (sound : Sound ask s) (going : (s.pcs i).underWay = true)
    (free : s.pcs i = .locking → s.lock.isNone = true) (calm : (s.pcs i).call = none) :
    ∃ s', s.requestStep (ask i) i = some s' ∧ (s'.pcs i).rank < (s.pcs i).rank ∧
      ∀ j, j ≠ i → s'.pcs j = s.pcs j := by
  have moved (lock : Option ι) (map : κ → Option ι) (pc : RequestPc ι)
      (step : s.requestStep (ask i) i = some ({ s with lock := lock, map := map }.goTo i pc))
      (nearer : pc.rank < (s.pcs i).rank) :
      ∃ s', s.requestStep (ask i) i = some s' ∧ (s'.pcs i).rank < (s.pcs i).rank ∧
        ∀ j, j ≠ i → s'.pcs j = s.pcs j :=
    ⟨_, step, by simpa [goTo] using nearer, fun j other => by simp [goTo, other]⟩
  have own := sound.own i
  cases pc : s.pcs i with
  | locking =>
      rw [← pc]
      apply moved (some i) s.map .inMap
      · cases ask i <;> simp [requestStep, armRevert, confirmPending, pc, lockMap, free pc]
      · simp [pc, RequestPc.rank]
  | inMap =>
      rw [← pc]
      cases asks : ask i with
      | hold key =>
          rw [← asks]
          apply moved s.lock (Function.update s.map key (some i)) (.inserted (s.map key))
          · simp only [asks, requestStep, armRevert, pc]
          · cases s.map key <;> simp [pc, RequestPc.inserted, RequestPc.rank]
      | confirm key =>
          rw [← asks]
          apply moved s.lock (Function.update s.map key none) (.taken (s.map key))
          · simp only [asks, requestStep, confirmPending, pc]
          · simp [pc, RequestPc.rank]
  | leaving replaced =>
      rw [← pc]
      apply moved none s.map (.held replaced)
      · cases asks : ask i <;> simp_all [RevertRequest.allows, requestStep, armRevert]
      · simp [pc, RequestPc.rank]
  | taken guard =>
      rw [← pc]
      cases guard with
      | none =>
          apply moved none s.map .noPending
          · cases asks : ask i <;> simp_all [RevertRequest.allows, requestStep, confirmPending]
          · simp [pc, RequestPc.rank]
      | some g =>
          apply moved none s.map (.confirming g)
          · cases asks : ask i <;> simp_all [RevertRequest.allows, requestStep, confirmPending]
          · simp [pc, RequestPc.rank]
  | begun => simp [pc, RequestPc.underWay] at going
  | held replaced => simp [pc, RequestPc.underWay, RequestPc.ended] at going
  | noPending => simp [pc, RequestPc.underWay, RequestPc.ended] at going
  | answered guard inTime => simp [pc, RequestPc.underWay, RequestPc.ended] at going
  | replacing old => simp [pc, RequestPc.call] at calm
  | confirming guard => simp [pc, RequestPc.call] at calm
  | closing guard inTime => simp [pc, RequestPc.call] at calm

/-- With the map to itself, a request comes nearer to its answer. -/
theorem exists_advance (first : α) (sound : Sound ask s) (going : (s.pcs i).underWay = true)
    (free : s.pcs i = .locking → s.lock.isNone = true) :
    ∃ events s', (∀ event ∈ events, By i event) ∧ runSome (step ask first) s events = some s' ∧
      (s'.pcs i).rank < (s.pcs i).rank ∧ ∀ j, j ≠ i → s'.pcs j = s.pcs j := by
  cases calls : (s.pcs i).call with
  | none =>
      obtain ⟨s', taken, nearer⟩ := exists_own_step sound going free calls
      refine ⟨[.request i], s', ?_, Option.bind_eq_some_iff.mpr ⟨s', taken, rfl⟩, nearer⟩
      intro event member
      cases List.mem_singleton.mp member
      rfl
  | some called => exact exists_call_ended first sound calls

theorem Sound.run (sound : Sound ask s) {events : List (PendingEvent ι α)}
    (reached : runSome (PendingReverts.step ask first) s events = some s') : Sound ask s' :=
  invariant_runSome (fun _ _ _ sound taken => sound.step taken) sound events reached

theorem exists_answer (first : α) (sound : Sound ask s) (going : (s.pcs i).underWay = true)
    (free : s.pcs i = .locking → s.lock.isNone = true) :
    ∃ events s', (∀ event ∈ events, By i event) ∧ runSome (step ask first) s events = some s' ∧
      (s'.pcs i).ended = true ∧ ∀ j, j ≠ i → s'.pcs j = s.pcs j := by
  induction far : (s.pcs i).rank using Nat.strongRecOn generalizing s with
  | _ far ih =>
      obtain ⟨events, middle, own, reached, nearer, others⟩ :=
        exists_advance first sound going free
      obtain ended | ⟨on, past⟩ := RequestPc.underWay_of_rank going nearer
      · exact ⟨events, middle, own, reached, ended, others⟩
      · obtain ⟨more, s', also, last, ended, still⟩ := ih _ (far ▸ nearer) (sound.run reached) on
          (fun locking => absurd locking past) rfl
        refine ⟨events ++ more, s', ?_, by rw [runSome_append reached, last], ended, ?_⟩
        · intro event member
          exact (List.mem_append.mp member).elim (own event) (also event)
        · intro j other
          rw [still j other, others j other]

/-- The holder of the map is brought to its end first. -/
theorem request_completes {events : List (PendingEvent ι α)}
    (reached : runSome (step ask first) start events = some s)
    (going : (s.pcs i).underWay = true) :
    ∃ more s', (∀ event ∈ more, Unaided s event) ∧ runSome (step ask first) s more = some s' ∧
      (s'.pcs i).ended = true := by
  have sound := sound_reached reached
  by_cases free : s.pcs i = .locking → s.lock.isNone = true
  · obtain ⟨more, s', own, ran, ended, -⟩ := exists_answer first sound going free
    exact ⟨more, s', fun event member => unaided_of_by going (own event member), ran, ended⟩
  · obtain ⟨locking, taken⟩ := Classical.not_imp.mp free
    obtain ⟨j, holds⟩ := Option.ne_none_iff_exists'.mp (mt Option.isNone_iff_eq_none.mpr taken)
    have inside := (sound.lock j).mp holds
    have other : i ≠ j := by
      rintro rfl
      simp [locking, RequestPc.inside] at inside
    have active : (s.pcs j).underWay = true ∧ s.pcs j ≠ .locking := by
      cases pc : s.pcs j <;> simp_all [RequestPc.inside, RequestPc.underWay, RequestPc.ended]
    obtain ⟨first_part, middle, own, ran, ended, others⟩ := exists_answer first sound
      active.1 (fun waits => absurd waits active.2)
    have later := sound.run ran
    -- nobody else was inside, so the map is free now
    have unlocked : middle.lock.isNone = true := by
      by_contra held
      obtain ⟨k, holder⟩ := Option.ne_none_iff_exists'.mp (mt Option.isNone_iff_eq_none.mpr held)
      have within := (later.lock k).mp holder
      by_cases same : k = j
      · subst k
        cases pc : middle.pcs j <;> simp_all [RequestPc.inside, RequestPc.ended]
      · rw [others k same] at within
        exact same (Option.some.inj (((sound.lock k).mpr within).symm.trans holds))
    have still : (middle.pcs i).underWay = true := by rw [others i other, going]
    obtain ⟨second, s', also, last, done, -⟩ := exists_answer first later still
      fun _ => unlocked
    refine ⟨first_part ++ second, s', ?_, by rw [runSome_append ran, last], done⟩
    intro event member
    obtain member | member := List.mem_append.mp member
    · exact unaided_of_by active.1 (own event member)
    · exact unaided_of_by going (also event member)

/-- The confirmation waits while a newer change of the key replaces the guard. -/
theorem request_completes_waiting : ∃ s, runSome (step asks ()) start
      (heldOnce ++ List.replicate 3 (.request 2) ++ [.request 1]) = some s ∧
    s.pcs 1 = .locking ∧ s.lock = some 2 ∧ ∃ more s', (∀ event ∈ more, Unaided s event) ∧
      runSome (step asks ()) s more = some s' ∧ (s'.pcs 1).ended = true := by
  obtain ⟨s, reached, locking, held⟩ : ∃ s, runSome (step asks ()) start
      (heldOnce ++ List.replicate 3 (.request 2) ++ [.request 1]) = some s ∧
      s.pcs 1 = .locking ∧ s.lock = some 2 := ⟨_, rfl, rfl, rfl⟩
  exact ⟨s, reached, locking, held, request_completes reached (by rw [locking]; rfl)⟩

end PendingReverts

end TinyWifi
