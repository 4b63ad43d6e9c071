import Mathlib.Logic.Function.Iterate
import TinyWifi.ScheduleOverride

/-! A tick that cannot read the clock. It wants nothing blocked, and that is taken for what the
schedule wants. -/

namespace TinyWifi

open Text Exec

namespace ScheduleHost

/-- `apply_schedule` at this time, or without one, when every command succeeds. -/
def applyAt (schedule : Schedule) (time : Option LocalTime) (s : ScheduleHost) : ScheduleHost :=
  (outcome (applySchedule (.willing time) schedule) s).2

/-- A tick without a time changes nothing that the next tick with a time would not change, and an
unblock that is in force while the schedule blocks stays in force over any number of them. -/
structure ClockNeutral (schedule : Schedule) (time : LocalTime) (s : ScheduleHost) : Prop where
  marker : (applyAt schedule (some time) (applyAt schedule none s)).marker =
    (applyAt schedule (some time) s).marker
  chain : (applyAt schedule (some time) (applyAt schedule none s)).chain =
    (applyAt schedule (some time) s).chain
  unblock : s.getOverride = some false → schedule.shouldBlockAt time = true →
    ∀ n, ((applyAt schedule none)^[n] s).getOverride = some false

section Apply

variable (schedule : Schedule) (wanted : Bool) (s : ScheduleHost)

/-- The marker is gone if it agrees with the schedule. -/
def consume : ScheduleHost :=
  { s with marker := if s.getOverride = some wanted then none else s.marker }

def enforced (block : Bool) (s : ScheduleHost) : ScheduleHost :=
  if block = s.isInetBlocked then s
  else { s with chain := if block then s.chain ++ ["drop".toList] else [] }

theorem outcome_enforceBlock_willing (time : Option LocalTime) (block : Bool) :
    (outcome (enforceBlock (.willing time) block) s).2 = enforced block s := by
  by_cases same : block = s.isInetBlocked
  · simp [enforceBlock, enforced, outcome_bind, same]
  · cases block with
    | true =>
        have clear : s.isInetBlocked = false := by simpa using same
        simp [enforceBlock, enforced, outcome_bind, outcome_map, clear, inetBlock, nftAddDrop,
          answered, ScheduleEnv.willing]
    | false =>
        have set : s.isInetBlocked = true := by simpa using same
        simp [enforceBlock, enforced, outcome_bind, outcome_map, set, inetUnblock, nftFlush,
          answered, ScheduleEnv.willing]

theorem outcome_wantedBlock :
    outcome (wantedBlock wanted) s = (.ok (s.getOverride.getD wanted), consume wanted s) := by
  cases override : s.getOverride with
  | none => simp [wantedBlock, consume, outcome_bind, override]
  | some r =>
      by_cases agrees : r = wanted
      · simp [wantedBlock, consume, outcome_bind, outcome_map, override, agrees, clearOverride]
      · simp [wantedBlock, consume, outcome_bind, override, agrees]

theorem applyAt_eq (time : Option LocalTime) :
    applyAt schedule time s =
      enforced (s.getOverride.getD (schedule.shouldBlockNow time))
        (consume (schedule.shouldBlockNow time) s) := by
  have clock : (ScheduleEnv.willing time).time = time := rfl
  rw [applyAt, applySchedule, outcome_bind, clock, outcome_wantedBlock]
  exact outcome_enforceBlock_willing _ time _

end Apply

section Order

variable {s : ScheduleHost} {wanted block : Bool}

@[simp] theorem marker_enforced (block : Bool) (s : ScheduleHost) :
    (enforced block s).marker = s.marker := by
  unfold enforced
  split <;> rfl

@[simp] theorem getOverride_enforced (block : Bool) (s : ScheduleHost) :
    (enforced block s).getOverride = s.getOverride := by
  rw [getOverride, marker_enforced, getOverride]

@[simp] theorem isInetBlocked_enforced (block : Bool) (s : ScheduleHost) :
    (enforced block s).isInetBlocked = block := by
  unfold enforced
  split
  · next same => exact same.symm
  · next differs =>
      cases block with
      | true => exact isInetBlocked_append_drop s
      | false => rfl

theorem enforced_of_blocked (same : block = s.isInetBlocked) : enforced block s = s := if_pos same

theorem enforced_enforced (block : Bool) (s : ScheduleHost) :
    enforced block (enforced block s) = enforced block s :=
  enforced_of_blocked (isInetBlocked_enforced block s).symm

theorem consume_agrees (agrees : s.getOverride = some wanted) :
    consume wanted s = { s with marker := none } := by
  rw [consume, if_pos agrees]

theorem consume_differs (differs : s.getOverride ≠ some wanted) : consume wanted s = s := by
  rw [consume, if_neg differs]

theorem enforced_marker (block : Bool) (marker : Option Str) (s : ScheduleHost) :
    enforced block { s with marker := marker } = { enforced block s with marker := marker } := by
  unfold enforced
  rw [show isInetBlocked { s with marker := marker } = s.isInetBlocked from rfl]
  split <;> rfl

section Cases

variable {schedule : Schedule} {time : Option LocalTime}

theorem applyAt_agrees (agrees : s.getOverride = some (schedule.shouldBlockNow time)) :
    applyAt schedule time s =
      enforced (schedule.shouldBlockNow time) { s with marker := none } := by
  rw [applyAt_eq, consume_agrees agrees, agrees, Option.getD_some]

theorem applyAt_override {r : Bool} (override : s.getOverride = some r)
    (differs : r ≠ schedule.shouldBlockNow time) : applyAt schedule time s = enforced r s := by
  have kept : s.getOverride ≠ some (schedule.shouldBlockNow time) := by
    rw [override]
    exact fun same => differs (Option.some.inj same)
  rw [applyAt_eq, consume_differs kept, override, Option.getD_some]

theorem applyAt_none (override : s.getOverride = none) :
    applyAt schedule time s = enforced (schedule.shouldBlockNow time) s := by
  have kept : s.getOverride ≠ some (schedule.shouldBlockNow time) := by simp [override]
  rw [applyAt_eq, consume_differs kept, override, Option.getD_none]

/-- Applying the schedule again while it wants the same changes nothing. -/
theorem applyAt_applyAt {time' : Option LocalTime}
    (same : schedule.shouldBlockNow time = schedule.shouldBlockNow time') (s : ScheduleHost) :
    applyAt schedule time' (applyAt schedule time s) = applyAt schedule time' s := by
  have first : applyAt schedule time s = applyAt schedule time' s := by
    rw [applyAt_eq, applyAt_eq, same]
  rw [first]
  cases override : s.getOverride with
  | none =>
      have after : (applyAt schedule time' s).getOverride = none := by
        rw [applyAt_none override, getOverride_enforced, override]
      rw [applyAt_none after, applyAt_none override, enforced_enforced]
  | some r =>
      by_cases agrees : r = schedule.shouldBlockNow time'
      · have consumed := applyAt_agrees (override.trans (congrArg some agrees))
        have after : (applyAt schedule time' s).getOverride = none := by
          rw [consumed, getOverride_enforced]
          rfl
        rw [applyAt_none after, consumed, enforced_enforced]
      · have after : (applyAt schedule time' s).getOverride = some r := by
          rw [applyAt_override override agrees, getOverride_enforced, override]
        rw [applyAt_override after agrees, applyAt_override override agrees, enforced_enforced]

end Cases

section Blocking

variable {schedule : Schedule} {time : LocalTime}

theorem clockNeutral_of_open (opened : schedule.shouldBlockAt time = false) (s : ScheduleHost) :
    ClockNeutral schedule time s := by
  have same : schedule.shouldBlockNow none = schedule.shouldBlockNow (some time) := opened.symm
  have again := applyAt_applyAt same s
  refine ⟨by rw [again], by rw [again], ?_⟩
  intro _ blocks
  rw [opened] at blocks
  cases blocks

/-- A manual block is not touched without a time, and consumed at the time. -/
theorem clockNeutral_of_block (blocks : schedule.shouldBlockAt time = true)
    (override : s.getOverride = some true) : ClockNeutral schedule time s := by
  have dark : applyAt schedule none s = enforced true s :=
    applyAt_override override (by simp [Schedule.shouldBlockNow])
  have kept : (enforced true s).getOverride = some (schedule.shouldBlockNow (some time)) := by
    rw [getOverride_enforced, override, Schedule.shouldBlockNow, blocks]
  have before : s.getOverride = some (schedule.shouldBlockNow (some time)) := by
    rw [override, Schedule.shouldBlockNow, blocks]
  have again : applyAt schedule (some time) (applyAt schedule none s) =
      applyAt schedule (some time) s := by
    rw [dark, applyAt_agrees kept, applyAt_agrees before, ← enforced_marker,
      Schedule.shouldBlockNow, blocks, enforced_enforced]
  refine ⟨by rw [again], by rw [again], ?_⟩
  intro unblocked
  rw [override] at unblocked
  cases unblocked

/-- A manual unblock is taken for served by the schedule that wants nothing. -/
theorem not_clockNeutral_of_unblock (blocks : schedule.shouldBlockAt time = true)
    (override : s.getOverride = some false) : ¬ ClockNeutral schedule time s := by
  intro neutral
  have still := neutral.unblock override blocks 1
  have served : s.getOverride = some (schedule.shouldBlockNow none) := override
  rw [Function.iterate_one, applyAt_agrees served, getOverride_enforced] at still
  cases still

/-- Without a marker the chain is flushed and filled again. -/
theorem clockNeutral_iff_of_none (blocks : schedule.shouldBlockAt time = true)
    (override : s.getOverride = none) :
    ClockNeutral schedule time s ↔ s.isInetBlocked = false ∨ s.chain = ["drop".toList] := by
  have dark : applyAt schedule none s = enforced false s := applyAt_none override
  have after : (enforced false s).getOverride = none := by rw [getOverride_enforced, override]
  have timed : ∀ s : ScheduleHost, s.getOverride = none →
      applyAt schedule (some time) s = enforced true s := by
    intro s free
    rw [applyAt_none free, Schedule.shouldBlockNow, blocks]
  have marker : (applyAt schedule (some time) (applyAt schedule none s)).marker =
      (applyAt schedule (some time) s).marker := by
    rw [dark, timed _ after, timed _ override, marker_enforced, marker_enforced, marker_enforced]
  have chain : (applyAt schedule (some time) (applyAt schedule none s)).chain =
      (applyAt schedule (some time) s).chain ↔
        s.isInetBlocked = false ∨ s.chain = ["drop".toList] := by
    rw [dark, timed _ after, timed _ override]
    cases blocked : s.isInetBlocked with
    | false =>
        rw [enforced_of_blocked blocked.symm]
        exact ⟨fun _ => .inl rfl, fun _ => rfl⟩
    | true =>
        rw [enforced_of_blocked (s := s) blocked.symm]
        have emptied : enforced false s = { s with chain := [] } := by
          rw [enforced, blocked]
          exact if_neg Bool.false_ne_true
        have filled : (enforced true { s with chain := [] }).chain = ["drop".toList] := rfl
        rw [emptied, filled]
        exact ⟨fun same => .inr same.symm, fun clear => (clear.resolve_left (by simp)).symm⟩
  refine ⟨fun neutral => chain.mp neutral.chain, fun clear => ⟨marker, chain.mpr clear, ?_⟩⟩
  intro unblocked
  rw [override] at unblocked
  cases unblocked

end Blocking

/-- A tick without a time is neutral unless the schedule blocks at the time and either an unblock
is in force or rules besides the one drop would be flushed. -/
theorem clockNeutral_iff (schedule : Schedule) (time : LocalTime) (s : ScheduleHost) :
    ClockNeutral schedule time s ↔
      schedule.shouldBlockAt time = false ∨ s.getOverride = some true ∨
        (s.getOverride = none ∧ (s.isInetBlocked = false ∨ s.chain = ["drop".toList])) := by
  cases blocks : schedule.shouldBlockAt time with
  | false => simp [clockNeutral_of_open blocks s]
  | true =>
      cases override : s.getOverride with
      | none => simp [clockNeutral_iff_of_none blocks override]
      | some r =>
          cases r with
          | true => simp [clockNeutral_of_block blocks override]
          | false => simp [not_clockNeutral_of_unblock blocks override]

def evenings : Schedule := ⟨true, fun _ => ⟨true, "07:00".toList, "22:00".toList⟩⟩

/-- An unblock at eleven in the evening does not outlive a tick without a time. -/
theorem not_clockNeutral_evening :
    ¬ ClockNeutral evenings ⟨0, 23, 0⟩ ⟨evenings, some ['0'], []⟩ := by
  intro neutral
  have still := neutral.unblock (by decide) (by decide) 1
  revert still
  decide

end Order

end ScheduleHost

end TinyWifi
