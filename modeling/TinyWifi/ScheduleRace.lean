import TinyWifi.ScheduleOverride

/-! The minute task and a manual request at the same time: both go through the marker file and the
chain step by step, and no lock keeps them apart. -/

namespace TinyWifi

open Text Exec Runs

/-- Where the minute task is in `apply_schedule`. `inet_block` and `inet_unblock` look at the chain
once more before they change it. -/
inductive TickPc
  | evaluate
  | readMarker (wanted : Bool)
  | clearMarker (wanted : Bool)
  | readChain (block : Bool)
  | recheck (block : Bool)
  | change (block : Bool)
  | done
  deriving DecidableEq, Repr

def TickPc.decided : TickPc → Bool
  | .evaluate | .readMarker _ | .clearMarker _ => false
  | .readChain _ | .recheck _ | .change _ | .done => true

inductive ManualPc
  | writeMarker
  | readChain
  | change
  | done
  deriving DecidableEq, Repr

inductive Actor
  | tick
  | manual
  deriving DecidableEq, Repr

structure ScheduleRace where
  host : ScheduleHost
  tick : TickPc
  manual : ManualPc

namespace ScheduleRace

def start (host : ScheduleHost) : ScheduleRace := ⟨host, .evaluate, .writeMarker⟩

def changeChain (block : Bool) (host : ScheduleHost) : ScheduleHost :=
  { host with chain := if block then host.chain ++ ["drop".toList] else [] }

section Steps

variable (schedule : Schedule) (time : Option LocalTime) (r : Bool)

def tickStep (s : ScheduleRace) : Option ScheduleRace :=
  match s.tick with
  | .evaluate => some { s with tick := .readMarker (schedule.shouldBlockNow time) }
  | .readMarker wanted =>
    match s.host.getOverride with
    | some override =>
      if override = wanted then some { s with tick := .clearMarker wanted }
      else some { s with tick := .readChain override }
    | none => some { s with tick := .readChain wanted }
  | .clearMarker wanted =>
    some { s with host := { s.host with marker := none }, tick := .readChain wanted }
  | .readChain block =>
    some { s with tick := if block = s.host.isInetBlocked then .done else .recheck block }
  | .recheck block =>
    some { s with tick := if block = s.host.isInetBlocked then .done else .change block }
  | .change block => some { s with host := changeChain block s.host, tick := .done }
  | .done => none

def manualStep (s : ScheduleRace) : Option ScheduleRace :=
  match s.manual with
  | .writeMarker =>
    some { s with
      host := { s.host with marker := some [if r then '1' else '0'] }, manual := .readChain }
  | .readChain => some { s with manual := if r = s.host.isInetBlocked then .done else .change }
  | .change => some { s with host := changeChain r s.host, manual := .done }
  | .done => none

def step (s : ScheduleRace) : Actor → Option ScheduleRace
  | .tick => tickStep schedule time s
  | .manual => manualStep r s

/-- The marker is not written while the minute task is about to remove the one it has read, unless
the request wants what the schedule wants. -/
def KeepsMarker (s : ScheduleRace) : Actor → Prop
  | .tick => True
  | .manual => s.manual = .writeMarker → ∀ wanted, s.tick = .clearMarker wanted → wanted = r

end Steps

def Finished (s : ScheduleRace) : Prop := s.tick = .done ∧ s.manual = .done

section Alone

variable {schedule : Schedule} {time : Option LocalTime} {r : Bool}

theorem tick_alone (host : ScheduleHost) (pc : ManualPc) :
    ∃ count, runSome (step schedule time r) ⟨host, .evaluate, pc⟩ (List.replicate count .tick) =
      some ⟨(outcome (applySchedule (.willing time) schedule) host).2, .done, pc⟩ := by
  -- from the decision on the chain is all that matters
  have enforce (host : ScheduleHost) (block : Bool) :
      ∃ count, runSome (step schedule time r) ⟨host, .readChain block, pc⟩
          (List.replicate count .tick) =
        some ⟨(outcome (enforceBlock (.willing time) block) host).2, .done, pc⟩ := by
    by_cases same : block = host.isInetBlocked
    · refine ⟨1, ?_⟩
      simp [runSome, step, tickStep, enforceBlock, outcome_bind, same]
    · refine ⟨3, ?_⟩
      cases block <;>
        simp_all [runSome, step, tickStep, enforceBlock, outcome_bind, outcome_map, inetBlock,
          inetUnblock, nftAddDrop, nftFlush, answered, changeChain, ScheduleEnv.willing]
  cases override : host.getOverride with
  | none =>
      rcases enforce host (schedule.shouldBlockNow time) with ⟨count, ran⟩
      have decided : runSome (step schedule time r) ⟨host, .evaluate, pc⟩
          (List.replicate 2 .tick) =
            some ⟨host, .readChain (schedule.shouldBlockNow time), pc⟩ := by
        simp [runSome, step, tickStep, override]
      refine ⟨2 + count, ?_⟩
      rw [List.replicate_add, runSome_append decided, ran, applySchedule, outcome_bind]
      simp [wantedBlock, outcome_bind, override, ScheduleEnv.willing]
  | some ov =>
      by_cases agrees : ov = schedule.shouldBlockNow time
      · rcases enforce { host with marker := none } ov with ⟨count, ran⟩
        have decided : runSome (step schedule time r) ⟨host, .evaluate, pc⟩
            (List.replicate 3 .tick) = some ⟨{ host with marker := none }, .readChain ov, pc⟩ := by
          simp [runSome, step, tickStep, override, agrees]
        refine ⟨3 + count, ?_⟩
        rw [List.replicate_add, runSome_append decided, ran, applySchedule, outcome_bind]
        simp [wantedBlock, outcome_bind, outcome_map, override, agrees, clearOverride,
          ScheduleEnv.willing]
      · rcases enforce host ov with ⟨count, ran⟩
        have decided : runSome (step schedule time r) ⟨host, .evaluate, pc⟩
            (List.replicate 2 .tick) = some ⟨host, .readChain ov, pc⟩ := by
          simp [runSome, step, tickStep, override, agrees]
        refine ⟨2 + count, ?_⟩
        rw [List.replicate_add, runSome_append decided, ran, applySchedule, outcome_bind]
        simp [wantedBlock, outcome_bind, override, agrees, ScheduleEnv.willing]

theorem manual_alone (host : ScheduleHost) (pc : TickPc) :
    ∃ count, runSome (step schedule time r) ⟨host, pc, .writeMarker⟩
        (List.replicate count .manual) =
      some ⟨(outcome (ScheduleHost.manualPost (.willing time) r) host).2, pc, .done⟩ := by
  have seen (marker : Option Str) :
      ScheduleHost.isInetBlocked ⟨host.saved, marker, host.chain⟩ = host.isInetBlocked := rfl
  by_cases same : r = host.isInetBlocked
  · refine ⟨2, ?_⟩
    cases r <;>
      simp_all [runSome, step, manualStep, ScheduleHost.manualPost, scheduleBlockPost,
        scheduleUnblockPost, setOverride, answered, outcome_bind, inetBlock, inetUnblock,
        ScheduleEnv.willing]
  · refine ⟨3, ?_⟩
    cases r <;>
      simp_all [runSome, step, manualStep, ScheduleHost.manualPost, scheduleBlockPost,
        scheduleUnblockPost, setOverride, answered, outcome_bind, inetBlock, inetUnblock,
        nftAddDrop, nftFlush, changeChain, ScheduleEnv.willing]

end Alone

section Inversion

variable {schedule : Schedule} {time : Option LocalTime} {r : Bool} {s s' : ScheduleRace}

theorem getOverride_changeChain (block : Bool) (host : ScheduleHost) :
    (changeChain block host).getOverride = host.getOverride := rfl

inductive TickDoes (wanted : Bool) (s s' : ScheduleRace) : Prop
  | evaluates (before : s.tick = .evaluate) (after : s'.tick = .readMarker wanted)
      (host : s'.host = s.host)
  | agrees (w : Bool) (before : s.tick = .readMarker w) (override : s.host.getOverride = some w)
      (after : s'.tick = .clearMarker w) (host : s'.host = s.host)
  | clears (w : Bool) (before : s.tick = .clearMarker w) (after : s'.tick.decided = true)
      (cleared : s'.host.getOverride = none)
  | leaves (before : ∀ w, s.tick ≠ .clearMarker w) (after : s'.tick.decided = true)
      (override : s'.host.getOverride = s.host.getOverride)

theorem tick_does (taken : tickStep schedule time s = some s') :
    s'.manual = s.manual ∧ TickDoes (schedule.shouldBlockNow time) s s' := by
  rcases s with ⟨host, tick, manual⟩
  cases tick with
  | evaluate =>
      cases taken
      exact ⟨rfl, .evaluates rfl rfl rfl⟩
  | readMarker w =>
      cases override : host.getOverride with
      | none =>
          simp only [tickStep, override, Option.some_inj] at taken
          subst taken
          exact ⟨rfl, .leaves nofun rfl rfl⟩
      | some ov =>
          by_cases same : ov = w
          · subst ov
            simp only [tickStep, override, if_true, Option.some_inj] at taken
            subst taken
            exact ⟨rfl, .agrees w rfl override rfl rfl⟩
          · simp only [tickStep, override, same, if_false, Option.some_inj] at taken
            subst taken
            exact ⟨rfl, .leaves nofun rfl rfl⟩
  | clearMarker w =>
      cases taken
      exact ⟨rfl, .clears w rfl rfl rfl⟩
  | readChain block =>
      cases taken
      refine ⟨rfl, .leaves nofun ?_ rfl⟩
      dsimp only
      split <;> rfl
  | recheck block =>
      cases taken
      refine ⟨rfl, .leaves nofun ?_ rfl⟩
      dsimp only
      split <;> rfl
  | change block =>
      cases taken
      exact ⟨rfl, .leaves nofun rfl (getOverride_changeChain block host)⟩
  | done => cases taken

theorem manual_does (taken : manualStep r s = some s') :
    s'.tick = s.tick ∧ s'.manual ≠ .writeMarker ∧
      s'.host.getOverride =
        if s.manual = .writeMarker then some r else s.host.getOverride := by
  rcases s with ⟨host, tick, manual⟩
  cases manual with
  | writeMarker =>
      cases taken
      exact ⟨rfl, nofun, ScheduleHost.getOverride_marker r host⟩
  | readChain =>
      cases taken
      refine ⟨rfl, ?_, rfl⟩
      dsimp only
      split <;> exact nofun
  | change =>
      cases taken
      exact ⟨rfl, nofun, getOverride_changeChain r host⟩
  | done => cases taken

end Inversion

section Invariants

variable {schedule : Schedule} {time : Option LocalTime} {r wanted : Bool} {s s' : ScheduleRace}

/-- The minute task acts on what the schedule wanted when it looked. -/
def Wants (wanted : Bool) (s : ScheduleRace) : Prop :=
  ∀ w, s.tick = .readMarker w ∨ s.tick = .clearMarker w → w = wanted

/-- The request is in the marker, or the schedule wants the same. -/
structure Kept (r wanted : Bool) (s : ScheduleRace) : Prop where
  written : s.manual ≠ .writeMarker
  marker : s.host.getOverride = some r ∨ s.host.getOverride = none ∧ wanted = r
  clearing : ∀ w, s.tick = .clearMarker w → w = r

/-- The marker of the request is gone, or is going to be, and the schedule wants the other state. -/
structure Lost (r wanted : Bool) (s : ScheduleRace) : Prop where
  written : s.manual ≠ .writeMarker
  differs : wanted ≠ r
  cleared : (∃ w, s.tick = .clearMarker w) ∨
    s.host.getOverride = none ∧ s.tick.decided = true

structure Held (r wanted : Bool) (s : ScheduleRace) : Prop where
  wants : Wants wanted s
  kept : s.manual ≠ .writeMarker → Kept r wanted s

theorem Wants.step {actor : Actor} (wants : Wants (schedule.shouldBlockNow time) s)
    (taken : step schedule time r s actor = some s') :
    Wants (schedule.shouldBlockNow time) s' := by
  intro w at_
  cases actor with
  | manual => exact wants w ((manual_does taken).1 ▸ at_)
  | tick =>
      rcases (tick_does taken).2 with ⟨-, after, -⟩ | ⟨v, before, -, after, -⟩ | ⟨-, -, after, -⟩ |
        ⟨-, after, -⟩
      · rw [after] at at_
        have same : schedule.shouldBlockNow time = w := by simpa using at_
        exact same.symm
      · rw [after] at at_
        have same : v = w := by simpa using at_
        exact same ▸ wants v (.inl before)
      · rcases at_ with at_ | at_ <;> rw [at_] at after <;> cases after
      · rcases at_ with at_ | at_ <;> rw [at_] at after <;> cases after

theorem Kept.step {actor : Actor} (kept : Kept r (schedule.shouldBlockNow time) s)
    (wants : Wants (schedule.shouldBlockNow time) s)
    (taken : step schedule time r s actor = some s') :
    Kept r (schedule.shouldBlockNow time) s' := by
  cases actor with
  | manual =>
      rcases manual_does taken with ⟨tick, written, marker⟩
      rw [if_neg kept.written] at marker
      exact ⟨written, marker ▸ kept.marker, tick ▸ kept.clearing⟩
  | tick =>
      rcases tick_does taken with ⟨manual, does⟩
      have written : s'.manual ≠ .writeMarker := manual ▸ kept.written
      rcases does with ⟨-, after, host⟩ | ⟨w, before, override, after, host⟩ |
        ⟨w, before, after, cleared⟩ | ⟨-, after, override⟩
      · refine ⟨written, host ▸ kept.marker, fun v clearing => ?_⟩
        cases clearing.symm.trans after
      · refine ⟨written, host ▸ kept.marker, fun v clearing => ?_⟩
        have same : w = v := by simpa [after] using clearing
        rcases kept.marker with marker | ⟨gone, -⟩
        · exact same ▸ Option.some_inj.mp (override.symm.trans marker)
        · cases override.symm.trans gone
      · refine ⟨written, .inr ⟨cleared, ?_⟩, fun v clearing => ?_⟩
        · exact (wants w (.inr before)).symm.trans (kept.clearing w before)
        · rw [clearing] at after
          cases after
      · refine ⟨written, override ▸ kept.marker, fun v clearing => ?_⟩
        rw [clearing] at after
        cases after

theorem Lost.step {actor : Actor} (lost : Lost r wanted s)
    (taken : step schedule time r s actor = some s') : Lost r wanted s' := by
  cases actor with
  | manual =>
      rcases manual_does taken with ⟨tick, written, marker⟩
      rw [if_neg lost.written] at marker
      refine ⟨written, lost.differs, ?_⟩
      rw [tick, marker]
      exact lost.cleared
  | tick =>
      rcases tick_does taken with ⟨manual, does⟩
      refine ⟨manual ▸ lost.written, lost.differs, ?_⟩
      rcases does with ⟨before, -, -⟩ | ⟨w, before, -, -, -⟩ | ⟨-, -, after, cleared⟩ |
        ⟨before, after, override⟩
      · rcases lost.cleared with ⟨w, clearing⟩ | ⟨-, decided⟩
        · cases before.symm.trans clearing
        · rw [before] at decided
          cases decided
      · rcases lost.cleared with ⟨v, clearing⟩ | ⟨-, decided⟩
        · cases before.symm.trans clearing
        · rw [before] at decided
          cases decided
      · exact .inr ⟨cleared, after⟩
      · rcases lost.cleared with ⟨w, clearing⟩ | ⟨gone, -⟩
        · exact absurd clearing (before w)
        · exact .inr ⟨override.trans gone, after⟩

end Invariants

section Outcome

variable {schedule later : Schedule} {time again : Option LocalTime} {r : Bool}
  {host : ScheduleHost} {order : List Actor} {s : ScheduleRace}

theorem wants_start (host : ScheduleHost) : Wants (schedule.shouldBlockNow time) (start host) := by
  intro w at_
  rcases at_ with at_ | at_ <;> cases at_

theorem Held.step {actor : Actor} {s s' : ScheduleRace}
    (held : Held r (schedule.shouldBlockNow time) s) (keeps : KeepsMarker r s actor)
    (taken : step schedule time r s actor = some s') :
    Held r (schedule.shouldBlockNow time) s' := by
  refine ⟨held.wants.step taken, fun after => ?_⟩
  by_cases written : s.manual = .writeMarker
  · cases actor with
    | tick => exact absurd ((tick_does taken).1.trans written) after
    | manual =>
        rcases manual_does taken with ⟨tick, -, marker⟩
        rw [if_pos written] at marker
        exact ⟨after, .inl marker, fun w clearing => keeps written w (tick ▸ clearing)⟩
  · exact (held.kept written).step held.wants taken

/-- As long as the marker is kept, a request that has written it is in force. -/
theorem held_of_keepsMarker
    (keeps : AllowedSome (step schedule time r) (KeepsMarker r) (start host) order)
    (reached : runSome (step schedule time r) (start host) order = some s) :
    Held r (schedule.shouldBlockNow time) s := by
  have held : Held r (schedule.shouldBlockNow time) (start host) :=
    ⟨wants_start host, fun written => absurd rfl written⟩
  exact invariant_allowedSome (fun _ _ _ held keeps taken => held.step keeps taken) held order
    keeps reached

/-- A marker that is written under the minute task's hands is lost. -/
theorem lost_of_not_keepsMarker
    (broken : ¬ AllowedSome (step schedule time r) (KeepsMarker r) (start host) order)
    (reached : runSome (step schedule time r) (start host) order = some s) :
    Lost r (schedule.shouldBlockNow time) s := by
  obtain ⟨front, actor, back, middle, after, -, before, refused, taken, ended⟩ :=
    exists_of_not_allowedSome reached broken
  have wants : Wants (schedule.shouldBlockNow time) middle :=
    invariant_runSome (fun _ _ _ wants taken => wants.step taken) (wants_start host) front before
  cases actor with
  | tick => exact absurd trivial refused
  | manual =>
      simp only [KeepsMarker, Classical.not_imp, not_forall] at refused
      rcases refused with ⟨writing, w, clearing, differs⟩
      rcases manual_does taken with ⟨tick, written, -⟩
      have lost : Lost r (schedule.shouldBlockNow time) after :=
        ⟨written, wants w (.inr clearing) ▸ differs, .inl ⟨w, tick.trans clearing⟩⟩
      exact invariant_runSome (fun _ _ _ lost taken => lost.step taken) lost back ended

/-- When both have finished, a tick at which the schedule wants what it wanted before leaves the
chain as requested. -/
def RequestHolds (schedule : Schedule) (time : Option LocalTime) (r : Bool) (host : ScheduleHost)
    (order : List Actor) : Prop :=
  ∀ s later again, runSome (step schedule time r) (start host) order = some s → s.Finished →
    later.shouldBlockNow again = schedule.shouldBlockNow time →
    (outcome (applySchedule (.willing again) later) s.host).2.isInetBlocked = r

theorem Kept.holds {wanted : Bool} (kept : Kept r wanted s)
    (same : later.shouldBlockNow again = wanted) :
    (outcome (applySchedule (.willing again) later) s.host).2.isInetBlocked = r := by
  have nft : (ScheduleEnv.willing again).nft = .ok () := rfl
  have wants : later.shouldBlockNow (ScheduleEnv.willing again).time = wanted := same
  rcases kept.marker with marker | ⟨gone, agrees⟩
  · by_cases agrees : r = wanted
    · have applied := ScheduleHost.apply_schedule later nft fun v given => by
        rw [wants, ← agrees]
        exact Option.some_inj.mp (given.symm.trans marker)
      rw [applied.2.2, wants, agrees]
    · exact (ScheduleHost.apply_override later nft marker (wants ▸ agrees)).2.2
  · have applied := ScheduleHost.apply_schedule later nft fun v given => by
      cases gone.symm.trans given
    rw [applied.2.2, wants, agrees]

theorem Lost.overruled {wanted : Bool} (lost : Lost r wanted s) (finished : s.Finished)
    (same : later.shouldBlockNow again = wanted) :
    (outcome (applySchedule (.willing again) later) s.host).2.isInetBlocked ≠ r := by
  have nft : (ScheduleEnv.willing again).nft = .ok () := rfl
  have wants : later.shouldBlockNow (ScheduleEnv.willing again).time = wanted := same
  have gone : s.host.getOverride = none := by
    rcases lost.cleared with ⟨w, clearing⟩ | ⟨gone, -⟩
    · cases finished.1.symm.trans clearing
    · exact gone
  have applied := ScheduleHost.apply_schedule later nft fun v given => by
    cases gone.symm.trans given
  rw [applied.2.2, wants]
  exact lost.differs

/-- The request holds exactly if its marker is not written between the minute task's reading a
marker that agrees with the schedule and its removing that. -/
theorem request_holds_iff (reached : runSome (step schedule time r) (start host) order = some s)
    (finished : s.Finished) :
    RequestHolds schedule time r host order ↔
      AllowedSome (step schedule time r) (KeepsMarker r) (start host) order := by
  constructor
  · intro holds
    by_contra broken
    have lost := lost_of_not_keepsMarker broken reached
    exact lost.overruled finished rfl (holds s schedule time reached finished rfl)
  · intro keeps other later again also done same
    have written : other.manual ≠ .writeMarker := by
      rw [done.2]
      exact nofun
    exact ((held_of_keepsMarker keeps also).kept written).holds same

end Outcome

/-- The tick is over before the block is requested. -/
theorem request_holds_after_tick :
    RequestHolds .default none true ⟨.default, none, []⟩
      [.tick, .tick, .tick, .manual, .manual, .manual] := by
  have reached : runSome (step .default none true) (start ⟨.default, none, []⟩)
      [.tick, .tick, .tick, .manual, .manual, .manual] =
        some ⟨⟨.default, some ['1'], ["drop".toList]⟩, .done, .done⟩ := rfl
  apply (request_holds_iff reached ⟨rfl, rfl⟩).mpr
  refine .cons trivial rfl (.cons trivial rfl (.cons trivial rfl (.cons ?_ rfl
    (.cons ?_ rfl (.cons ?_ rfl trivial)))))
  · exact fun _ w clearing => by cases clearing
  · exact fun writing => by cases writing
  · exact fun writing => by cases writing

/-- An old unblock is being consumed while a block is requested: the marker of the block goes with
it. -/
theorem consumed_marker_loses_request :
    ¬ RequestHolds .default none true ⟨.default, some ['0'], []⟩
      [.tick, .tick, .manual, .tick, .manual, .manual, .tick, .tick, .tick] := by
  intro holds
  have chain := holds ⟨⟨.default, none, []⟩, .done, .done⟩ .default none rfl ⟨rfl, rfl⟩ rfl
  revert chain
  decide +kernel

end ScheduleRace

end TinyWifi
