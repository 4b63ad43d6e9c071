import TinyWifi.Schedule

/-! A window that ends on the next day, against the window of that day. -/

namespace TinyWifi

open Text

/-- A window from `start` to `stop` blocks at this minute of its day. -/
def Blocks (start stop current : Nat) : Prop :=
  start = stop ∨ (start < stop ∧ ¬ (start ≤ current ∧ current < stop)) ∨
    (stop < start ∧ stop ≤ current ∧ current < start)

section Minutes

variable {start stop current : Nat}

theorem not_blocks_evening (overnight : stop < start) (late : start ≤ current) :
    ¬ Blocks start stop current := by
  unfold Blocks
  omega

theorem not_blocks_morning_iff (limit : Nat) :
    (∀ current < limit, ¬ Blocks start stop current) ↔
      limit = 0 ∨ (start ≠ stop ∧ limit ≤ stop ∧ (start < stop → start = 0)) := by
  constructor
  · intro opened
    by_cases empty : limit = 0
    · exact .inl empty
    have first := opened 0 (by omega)
    have last := opened (limit - 1) (by omega)
    have closing : stop < limit → ¬ Blocks start stop stop := opened stop
    unfold Blocks at first last closing
    omega
  · intro kept current early
    unfold Blocks
    omega

theorem hour_minute (bound : current < 1440) :
    ∃ hour minute, hour < 24 ∧ minute < 60 ∧ hour * 60 + minute = current :=
  ⟨current / 60, current % 60, by omega, by omega, by omega⟩

end Minutes

theorem parseHhmm_lt {s : Str} {n : Nat} (parsed : parseHhmm s = some n) : n < 1440 := by
  simp only [parseHhmm, Option.bind_eq_bind, Option.bind_eq_some_iff] at parsed
  rcases parsed with ⟨_, _, hour, _, minute, _, parsed⟩
  split at parsed
  · cases parsed
  · next bounds =>
      have same := Option.some.inj parsed
      omega

namespace Schedule

theorem parse_of_validate {schedule : Schedule} (valid : schedule.validate = .ok ()) (d : Fin 7) :
    ∃ start stop, parseHhmm (schedule.days d).fromTime = some start ∧
      parseHhmm (schedule.days d).toTime = some stop := by
  unfold validate at valid
  split at valid
  · cases valid
  · next clear =>
      have day := List.findSome?_eq_none_iff.mp clear d (List.mem_finRange d)
      have fields := List.findSome?_eq_none_iff.mp day
      have opens := fields ("from".toList, (schedule.days d).fromTime) (by simp)
      have closes := fields ("to".toList, (schedule.days d).toTime) (by simp)
      simp only [ite_eq_left_iff, reduceCtorEq, imp_false, Decidable.not_not] at opens closes
      exact ⟨_, _, Option.eq_some_of_isSome opens, Option.eq_some_of_isSome closes⟩

/-- The window of this day, and that it is in use. -/
structure ActiveWindow (schedule : Schedule) (d : Fin 7) (start stop : Nat) : Prop where
  enabled : schedule.enabled = true
  active : (schedule.days d).active = true
  fromTime : parseHhmm (schedule.days d).fromTime = some start
  toTime : parseHhmm (schedule.days d).toTime = some stop

variable {schedule : Schedule} {d : Fin 7} {start stop : Nat}

theorem ActiveWindow.shouldBlockAt_iff (window : schedule.ActiveWindow d start stop)
    (hour minute : Nat) :
    schedule.shouldBlockAt ⟨d, hour, minute⟩ = true ↔ Blocks start stop (hour * 60 + minute) := by
  simp only [shouldBlockAt, window.enabled, window.active, window.fromTime, window.toTime,
    Option.getD_some, Bool.not_true, Bool.false_eq_true, if_false]
  by_cases whole : start = stop
  · simp [Blocks, whole]
  by_cases normal : start < stop
  · simp only [if_neg whole, if_pos normal, Bool.not_eq_true', Bool.and_eq_false_iff,
      decide_eq_false_iff_not, Blocks]
    omega
  · simp only [if_neg whole, if_neg normal, Bool.and_eq_true, decide_eq_true_eq, Blocks]
    omega

theorem shouldBlockAt_inactive (inactive : (schedule.days d).active = false) (hour minute : Nat) :
    schedule.shouldBlockAt ⟨d, hour, minute⟩ = false := by
  simp [shouldBlockAt, inactive]

/-- The evening of the day and the morning of the next one are open. -/
structure SpansMidnight (schedule : Schedule) (d : Fin 7) (start stop : Nat) : Prop where
  evening : ∀ hour minute, hour < 24 → minute < 60 → start ≤ hour * 60 + minute →
    schedule.shouldBlockAt ⟨d, hour, minute⟩ = false
  morning : ∀ hour minute, hour < 24 → minute < 60 → hour * 60 + minute < stop →
    schedule.shouldBlockAt ⟨d + 1, hour, minute⟩ = false

theorem evening_open (window : schedule.ActiveWindow d start stop) (overnight : stop < start)
    {hour minute : Nat} (late : start ≤ hour * 60 + minute) :
    schedule.shouldBlockAt ⟨d, hour, minute⟩ = false := by
  rw [← Bool.not_eq_true, window.shouldBlockAt_iff]
  exact not_blocks_evening overnight late

theorem morning_open_iff {a b limit : Nat} (window : schedule.ActiveWindow d a b)
    (bound : limit < 1440) :
    (∀ hour minute, hour < 24 → minute < 60 → hour * 60 + minute < limit →
      schedule.shouldBlockAt ⟨d, hour, minute⟩ = false) ↔
        limit = 0 ∨ (a ≠ b ∧ limit ≤ b ∧ (a < b → a = 0)) := by
  rw [← not_blocks_morning_iff]
  constructor
  · intro opened current early
    have day : current < 1440 := by omega
    rcases hour_minute day with ⟨hour, minute, hours, minutes, rfl⟩
    rw [← window.shouldBlockAt_iff, Bool.not_eq_true]
    exact opened hour minute hours minutes early
  · intro opened hour minute _ _ early
    rw [← Bool.not_eq_true, window.shouldBlockAt_iff]
    exact opened _ early

/-- The next day keeps the morning open up to this minute: it is not restricted, or its own window
is open from midnight to then. -/
def KeepsMorning (schedule : Schedule) (e : Fin 7) (stop : Nat) : Prop :=
  stop = 0 ∨ (schedule.days e).active = false ∨
    ∃ a b, parseHhmm (schedule.days e).fromTime = some a ∧
      parseHhmm (schedule.days e).toTime = some b ∧ a ≠ b ∧ stop ≤ b ∧ (a < b → a = 0)

/-- An overnight window of a valid schedule spans midnight only as far as the window of the next
day is open from midnight on. -/
theorem spansMidnight_iff (valid : schedule.validate = .ok ())
    (window : schedule.ActiveWindow d start stop) (overnight : stop < start) :
    schedule.SpansMidnight d start stop ↔ schedule.KeepsMorning (d + 1) stop := by
  have bound : stop < 1440 := parseHhmm_lt window.toTime
  have evening : ∀ hour minute, hour < 24 → minute < 60 → start ≤ hour * 60 + minute →
      schedule.shouldBlockAt ⟨d, hour, minute⟩ = false :=
    fun _ _ _ _ late => evening_open window overnight late
  cases active : (schedule.days (d + 1)).active with
  | false =>
      have morning := fun hour minute (_ : hour < 24) (_ : minute < 60)
        (_ : hour * 60 + minute < stop) => shouldBlockAt_inactive active hour minute
      exact ⟨fun _ => .inr (.inl active), fun _ => ⟨evening, morning⟩⟩
  | true =>
      rcases parse_of_validate valid (d + 1) with ⟨a, b, opens, closes⟩
      have following : schedule.ActiveWindow (d + 1) a b := ⟨window.enabled, active, opens, closes⟩
      have morning := morning_open_iff following bound
      constructor
      · intro spans
        rcases morning.mp spans.morning with empty | kept
        · exact .inl empty
        · exact .inr (.inr ⟨a, b, opens, closes, kept⟩)
      · intro keeps
        refine ⟨evening, morning.mpr ?_⟩
        rcases keeps with empty | inactive | ⟨a', b', opens', closes', kept⟩
        · exact .inl empty
        · rw [active] at inactive
          cases inactive
        · rw [opens, Option.some.injEq] at opens'
          rw [closes, Option.some.injEq] at closes'
          subst opens' closes'
          exact .inr kept

def lateFriday : Schedule :=
  ⟨true, fun d => if d = 4 then ⟨true, "22:00".toList, "02:00".toList⟩
    else ⟨true, "07:00".toList, "22:00".toList⟩⟩

/-- Saturday at half past midnight is blocked. -/
theorem not_spansMidnight_lateFriday :
    lateFriday.validate = .ok () ∧ lateFriday.ActiveWindow 4 1320 120 ∧
      ¬ lateFriday.SpansMidnight 4 1320 120 := by
  refine ⟨by decide, ⟨rfl, rfl, by decide, by decide⟩, ?_⟩
  intro spans
  have opened := spans.morning 0 30 (by decide) (by decide) (by decide)
  revert opened
  decide

/-- Only Monday is restricted, so Tuesday leaves its morning open. -/
theorem spansMidnight_monday :
    Schedule.SpansMidnight
      ⟨true, fun d => ⟨d = 0, "22:00".toList, "06:00".toList⟩⟩ 0 1320 360 :=
  (spansMidnight_iff (by decide) ⟨rfl, rfl, by decide, by decide⟩ (by decide)).mpr
    (.inr (.inl rfl))

end Schedule

end TinyWifi
