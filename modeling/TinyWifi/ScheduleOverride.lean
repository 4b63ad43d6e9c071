import TinyWifi.Schedule

/-! The manual override against the schedule, over whole runs of ticks and requests. -/

namespace TinyWifi

open Text Exec Runs

def ScheduleEnv.willing (time : Option LocalTime) : ScheduleEnv := ⟨time, .ok (), .ok (), .ok ()⟩

inductive ScheduleEvent
  | tick (time : LocalTime)
  | post (body : Schedule) (time : LocalTime)
  | manual (block : Bool)

namespace ScheduleHost

def manualPost (env : ScheduleEnv) (block : Bool) : Exec ScheduleHost Str Unit :=
  if block then scheduleBlockPost env else scheduleUnblockPost env

def step (s : ScheduleHost) : ScheduleEvent → ScheduleHost
  | .tick time => (outcome (scheduleTick (.willing (some time))) s).2
  | .post body time => (outcome (schedulePost (.willing (some time)) body) s).2
  | .manual block => (outcome (manualPost (.willing none) block) s).2

section Spec

variable {env : ScheduleEnv} {s : ScheduleHost}

theorem isInetBlocked_append_drop (s : ScheduleHost) :
    isInetBlocked { s with chain := s.chain ++ ["drop".toList] } = true := by
  have last : decide (trim "drop".toList = "drop".toList) = true := by decide
  rw [isInetBlocked, List.any_append, List.any_cons, last, Bool.true_or, Bool.or_true]

theorem outcome_inetBlock (nft : env.nft = .ok ()) (s : ScheduleHost) :
    ∃ chain, outcome (inetBlock env) s = (.ok (), { s with chain := chain }) ∧
      isInetBlocked { s with chain := chain } = true := by
  by_cases blocked : s.isInetBlocked = true
  · exact ⟨s.chain, by simp [inetBlock, outcome_bind, blocked], blocked⟩
  · refine ⟨s.chain ++ ["drop".toList], ?_, isInetBlocked_append_drop s⟩
    simp [inetBlock, outcome_bind, blocked, nftAddDrop, answered, nft]

theorem outcome_inetUnblock (nft : env.nft = .ok ()) (s : ScheduleHost) :
    ∃ chain, outcome (inetUnblock env) s = (.ok (), { s with chain := chain }) ∧
      isInetBlocked { s with chain := chain } = false := by
  by_cases blocked : s.isInetBlocked = true
  · refine ⟨[], ?_, rfl⟩
    simp [inetUnblock, outcome_bind, blocked, nftFlush, answered, nft]
  · refine ⟨s.chain, ?_, by simpa using blocked⟩
    simp [inetUnblock, outcome_bind, blocked]

theorem outcome_enforceBlock (nft : env.nft = .ok ()) (block : Bool) (s : ScheduleHost) :
    ∃ changed chain, outcome (enforceBlock env block) s = (.ok changed, { s with chain := chain }) ∧
      isInetBlocked { s with chain := chain } = block := by
  by_cases same : block = s.isInetBlocked
  · exact ⟨false, s.chain, by simp [enforceBlock, outcome_bind, same], same.symm⟩
  · cases block with
    | true =>
        obtain ⟨chain, blocked, holds⟩ := outcome_inetBlock nft s
        have clear : s.isInetBlocked = false := by
          rw [← Bool.not_eq_true]
          exact fun set => same set.symm
        refine ⟨true, chain, ?_, holds⟩
        simp [enforceBlock, outcome_bind, outcome_map, clear, blocked]
    | false =>
        obtain ⟨chain, unblocked, holds⟩ := outcome_inetUnblock nft s
        have set : s.isInetBlocked = true := by
          rw [← Bool.not_eq_false]
          exact fun clear => same clear.symm
        refine ⟨true, chain, ?_, holds⟩
        simp [enforceBlock, outcome_bind, outcome_map, set, unblocked]

theorem outcome_wantedBlock_override {r wanted : Bool} (override : s.getOverride = some r)
    (differs : r ≠ wanted) : outcome (wantedBlock wanted) s = (.ok r, s) := by
  simp [wantedBlock, outcome_bind, override, differs]

theorem outcome_wantedBlock_schedule {wanted : Bool}
    (agrees : ∀ r, s.getOverride = some r → r = wanted) :
    ∃ marker, outcome (wantedBlock wanted) s = (.ok wanted, { s with marker := marker }) ∧
      getOverride { s with marker := marker } = none := by
  cases override : s.getOverride with
  | none => exact ⟨s.marker, by simp [wantedBlock, outcome_bind, override], override⟩
  | some r =>
      obtain rfl := agrees r override
      exact ⟨none, by
        simp [wantedBlock, outcome_bind, outcome_map, override, clearOverride], rfl⟩

/-- What an apply leaves: the override as long as it disagrees with the schedule, else the
schedule. -/
theorem apply_override {env : ScheduleEnv} (schedule : Schedule) {r : Bool} (nft : env.nft = .ok ())
    (override : s.getOverride = some r) (differs : r ≠ schedule.shouldBlockNow env.time) :
    (outcome (applySchedule env schedule) s).2.saved = s.saved ∧
      (outcome (applySchedule env schedule) s).2.getOverride = some r ∧
      (outcome (applySchedule env schedule) s).2.isInetBlocked = r := by
  obtain ⟨changed, chain, enforced, holds⟩ := outcome_enforceBlock nft r s
  rw [applySchedule, outcome_bind, outcome_wantedBlock_override override differs]
  dsimp only
  rw [enforced]
  exact ⟨rfl, override, holds⟩

theorem apply_schedule {env : ScheduleEnv} (schedule : Schedule) (nft : env.nft = .ok ())
    (agrees : ∀ r, s.getOverride = some r → r = schedule.shouldBlockNow env.time) :
    (outcome (applySchedule env schedule) s).2.saved = s.saved ∧
      (outcome (applySchedule env schedule) s).2.getOverride = none ∧
      (outcome (applySchedule env schedule) s).2.isInetBlocked =
        schedule.shouldBlockNow env.time := by
  obtain ⟨marker, wanted, consumed⟩ := outcome_wantedBlock_schedule agrees
  obtain ⟨changed, chain, enforced, holds⟩ := outcome_enforceBlock nft
    (schedule.shouldBlockNow env.time) { s with marker := marker }
  rw [applySchedule, outcome_bind, wanted]
  dsimp only
  rw [enforced]
  exact ⟨rfl, consumed, holds⟩

end Spec

def want (s : ScheduleHost) (time : LocalTime) : Bool := s.saved.shouldBlockAt time

/-- A manual request is in force. -/
structure Overridden (r : Bool) (s : ScheduleHost) : Prop where
  override : s.getOverride = some r
  chain : s.isInetBlocked = r

def Scheduled (s : ScheduleHost) : Prop := s.getOverride = none

section Steps

variable {s : ScheduleHost} {r : Bool}

theorem outcome_scheduleTick (env : ScheduleEnv) (s : ScheduleHost) :
    outcome (scheduleTick env) s = outcome (applySchedule env s.saved) s := by
  rw [scheduleTick, outcome_bind, outcome_get]

theorem tick_overridden (overridden : s.Overridden r) {time : LocalTime}
    (differs : s.want time ≠ r) : (s.step (.tick time)).Overridden r := by
  have nft : (ScheduleEnv.willing (some time)).nft = .ok () := rfl
  have applied := apply_override s.saved nft overridden.override (Ne.symm differs)
  rw [step, outcome_scheduleTick]
  exact ⟨applied.2.1, applied.2.2⟩

theorem tick_agrees {time : LocalTime} (agrees : ∀ r, s.getOverride = some r → r = s.want time) :
    (s.step (.tick time)).Scheduled ∧ (s.step (.tick time)).isInetBlocked = s.want time ∧
      (s.step (.tick time)).saved = s.saved := by
  have nft : (ScheduleEnv.willing (some time)).nft = .ok () := rfl
  have applied := apply_schedule s.saved nft agrees
  rw [step, outcome_scheduleTick]
  exact ⟨applied.2.1, applied.2.2, applied.1⟩

theorem getOverride_marker (r : Bool) (s : ScheduleHost) :
    getOverride { s with marker := some [if r then '1' else '0'] } = some r := by
  cases r <;> rfl

theorem manual_overridden (s : ScheduleHost) (r : Bool) : (s.step (.manual r)).Overridden r := by
  have override := getOverride_marker r s
  have nft : (ScheduleEnv.willing none).nft = .ok () := rfl
  cases r with
  | true =>
      obtain ⟨chain, blocked, holds⟩ := outcome_inetBlock nft
        { s with marker := some ['1'] }
      have done : s.step (.manual true) = { s with marker := some ['1'], chain := chain } := by
        rw [step, manualPost, if_pos rfl, scheduleBlockPost, outcome_bind]
        exact congrArg Prod.snd blocked
      rw [done]
      exact ⟨override, holds⟩
  | false =>
      obtain ⟨chain, unblocked, holds⟩ := outcome_inetUnblock nft
        { s with marker := some ['0'] }
      have done : s.step (.manual false) = { s with marker := some ['0'], chain := chain } := by
        rw [step, manualPost, if_neg Bool.false_ne_true, scheduleUnblockPost, outcome_bind]
        exact congrArg Prod.snd unblocked
      rw [done]
      exact ⟨override, holds⟩

theorem post_rejected {body : Schedule} (invalid : body.validate ≠ .ok ()) (time : LocalTime) :
    s.step (.post body time) = s := by
  rw [step, schedulePost, outcome_bind, outcome_reading]
  cases result : body.validate with
  | ok u => exact absurd result invalid
  | error e => rfl

theorem post_accepted {body : Schedule} (valid : body.validate = .ok ()) (time : LocalTime) :
    (s.step (.post body time)).Scheduled := by
  have nft : (ScheduleEnv.willing (some time)).nft = .ok () := rfl
  have applied := apply_schedule (s := { s with saved := body, marker := none }) body nft
    (fun r given => by cases given)
  have done : (s.step (.post body time)).getOverride =
      (outcome (applySchedule (.willing (some time)) body)
        { s with saved := body, marker := none }).2.getOverride := by
    rw [step, schedulePost, outcome_bind, outcome_reading, valid]
    simp only [outcome_bind, answered, ScheduleEnv.willing, outcome_modify, clearOverride]
    rcases outcome (applySchedule _ body) _ with ⟨_ | _, _⟩ <;> rfl
  exact done.trans applied.2.1

end Steps

section Runs

/-- What leaves the request in force: a tick at which the schedule wants the other state, or a
schedule that is turned down. -/
def Leaves (r : Bool) (s : ScheduleHost) : ScheduleEvent → Prop
  | .tick time => s.want time ≠ r
  | .post body _ => body.validate ≠ .ok ()
  | .manual _ => False

def NotManual (_ : ScheduleHost) : ScheduleEvent → Prop
  | .manual _ => False
  | _ => True

variable {s : ScheduleHost} {r : Bool}

theorem Overridden.step (overridden : s.Overridden r) {event : ScheduleEvent}
    (leaves : s.Leaves r event) : (s.step event).Overridden r := by
  cases event with
  | tick time => exact tick_overridden overridden leaves
  | post body time =>
      rw [post_rejected leaves]
      exact overridden
  | manual block => exact leaves.elim

theorem Scheduled.step (scheduled : s.Scheduled) {event : ScheduleEvent}
    (quiet : s.NotManual event) : (s.step event).Scheduled := by
  cases event with
  | tick time =>
      refine (tick_agrees fun r given => ?_).1
      rw [scheduled] at given
      cases given
  | post body time =>
      by_cases valid : body.validate = .ok ()
      · exact post_accepted valid time
      · rw [post_rejected valid]
        exact scheduled
  | manual block => exact quiet.elim

theorem overridden_run (s : ScheduleHost) (r : Bool) (rest : List ScheduleEvent)
    (leaves : Allowed step (Leaves r) (s.step (.manual r)) rest) :
    (run step (s.step (.manual r)) rest).Overridden r :=
  invariant_run (manual_overridden s r) (fun _ _ overridden allowed => overridden.step allowed)
    rest leaves

theorem scheduled_run {s : ScheduleHost} (scheduled : s.Scheduled) (rest : List ScheduleEvent)
    (quiet : Allowed step NotManual s rest) : (run step s rest).Scheduled :=
  invariant_run scheduled (fun _ _ scheduled allowed => scheduled.step allowed) rest quiet

theorem tick_scheduled (scheduled : s.Scheduled) (time : LocalTime) :
    (s.step (.tick time)).isInetBlocked = s.want time := by
  refine (tick_agrees fun r given => ?_).2.1
  rw [scheduled] at given
  cases given

/-- A tick that follows a request in force leaves the chain as requested, whatever it wants. -/
theorem tick_requested (overridden : s.Overridden r) (time : LocalTime) :
    (s.step (.tick time)).isInetBlocked = r := by
  by_cases agrees : s.want time = r
  · rw [← agrees]
    refine (tick_agrees fun other given => ?_).2.1
    rw [overridden.override, Option.some_inj] at given
    rw [← given, agrees]
  · exact (tick_overridden overridden agrees).chain

/-- A request holds up to the first tick that agrees with it; from there on, as from an accepted
schedule on, the schedule decides. -/
structure OverrideThenSchedule (s : ScheduleHost) : Prop where
  requested : ∀ r rest time, Allowed step (Leaves r) (s.step (.manual r)) rest →
    (run step s (.manual r :: rest ++ [.tick time])).isInetBlocked = r
  consumed : ∀ r rest agreeing later time,
    Allowed step (Leaves r) (s.step (.manual r)) rest →
    (run step s (.manual r :: rest)).want agreeing = r →
    Allowed step NotManual (run step s (.manual r :: rest ++ [.tick agreeing])) later →
    (run step s (.manual r :: rest ++ .tick agreeing :: later ++ [.tick time])).isInetBlocked =
      (run step s (.manual r :: rest ++ .tick agreeing :: later)).want time
  posted : ∀ body accepted later time, body.validate = .ok () →
    Allowed step NotManual (s.step (.post body accepted)) later →
    (run step s (.post body accepted :: later ++ [.tick time])).isInetBlocked =
      (run step s (.post body accepted :: later)).want time

theorem override_then_schedule (s : ScheduleHost) : OverrideThenSchedule s where
  requested r rest time leaves := by
    have overridden := overridden_run s r rest leaves
    rw [run_concat]
    exact tick_requested overridden time
  consumed r rest agreeing later time leaves agrees quiet := by
    have overridden := overridden_run s r rest leaves
    have scheduled : (run step s (.manual r :: rest ++ [.tick agreeing])).Scheduled := by
      rw [run_concat]
      refine (tick_agrees fun other given => ?_).1
      have same := Option.some_inj.mp (overridden.override.symm.trans given)
      exact same.symm.trans agrees.symm
    have before : run step s (.manual r :: rest ++ .tick agreeing :: later) =
        run step (run step s (.manual r :: rest ++ [.tick agreeing])) later := by
      rw [← run_append, List.append_assoc, List.singleton_append]
    rw [run_concat, before]
    exact tick_scheduled (scheduled_run scheduled later quiet) time
  posted body accepted later time valid quiet := by
    rw [run_concat]
    exact tick_scheduled (scheduled_run (post_accepted valid accepted) later quiet) time

/-- Nothing but a manual block, and a schedule that never wants one: the block holds at the next
tick. -/
theorem manual_block_holds :
    (run step ⟨.default, none, []⟩ [.manual true, .tick ⟨0, 12, 0⟩]).isInetBlocked = true :=
  (override_then_schedule ⟨.default, none, []⟩).requested true [] ⟨0, 12, 0⟩ trivial

end Runs

end ScheduleHost

end TinyWifi
