import TinyWifi.Lib.Decimal
import TinyWifi.Lib.Exec
import TinyWifi.Lib.Runs

/-! `schedule.rs`: the weekly schedule, the manual override, and the nft chain that enforces both,
with the requests of `api.rs` that act on them. -/

namespace TinyWifi

open Text Exec Runs

/-- One day's window, as two `HH:MM` texts; internet is on inside it. -/
structure DayWindow where
  active : Bool
  fromTime : Str
  toTime : Str
  deriving DecidableEq, Repr

structure Schedule where
  enabled : Bool
  days : Fin 7 → DayWindow

/-- What `date` prints: the weekday from Monday on, the hour and the minute. -/
structure LocalTime where
  weekday : Fin 7
  hour : Nat
  minute : Nat
  deriving DecidableEq, Repr

def parseHhmm (s : Str) : Option Nat := do
  let (h, m) ← splitOnce ':' s
  let h ← parseUnsigned 4294967296 (trim h)
  let m ← parseUnsigned 4294967296 (trim m)
  if h > 23 ∨ m > 59 then none else some (h * 60 + m)

def DayWindow.default : DayWindow := ⟨false, "07:00".toList, "22:00".toList⟩

namespace Schedule

def default : Schedule := ⟨false, fun _ => .default⟩

def dayError (schedule : Schedule) (i : Fin 7) : Option Str :=
  [("from".toList, (schedule.days i).fromTime), ("to".toList, (schedule.days i).toTime)].findSome?
    fun field =>
      if (parseHhmm field.2).isSome then none
      else some ("day ".toList ++ printNat i.val ++ " ".toList ++ field.1 ++
        ": invalid time \x22".toList ++ field.2 ++ "\x22 (expected HH:MM)".toList)

def validate (schedule : Schedule) : Except Str Unit :=
  match (List.finRange 7).findSome? schedule.dayError with
  | some error => .error error
  | none => .ok ()

def shouldBlockAt (schedule : Schedule) (time : LocalTime) : Bool :=
  if !schedule.enabled then false
  else
    let window := schedule.days time.weekday
    if !window.active then false
    else
      let current := time.hour * 60 + time.minute
      let start := (parseHhmm window.fromTime).getD 0
      let stop := (parseHhmm window.toTime).getD 1440
      if start = stop then true
      else if start < stop then !(start ≤ current && current < stop)
      else stop ≤ current && current < start

/-- Without a local time nothing is blocked. -/
def shouldBlockNow (schedule : Schedule) (time : Option LocalTime) : Bool :=
  match time with
  | some time => schedule.shouldBlockAt time
  | none => false

end Schedule

/-- The saved schedule, the override marker file, and the rules of the `schedule` chain. -/
structure ScheduleHost where
  saved : Schedule
  marker : Option Str
  chain : List Str

structure ScheduleEnv where
  time : Option LocalTime
  save : Except Str Unit
  writeMarker : Except Str Unit
  nft : Except Str Unit

namespace ScheduleHost

/-- Some line of the chain is the drop rule. -/
def isInetBlocked (s : ScheduleHost) : Bool := s.chain.any fun line => trim line = "drop".toList

def getOverride (s : ScheduleHost) : Option Bool :=
  match s.marker.map trim with
  | some ['1'] => some true
  | some ['0'] => some false
  | _ => none

end ScheduleHost

section Operations

variable (env : ScheduleEnv)

def answered (answer : Except Str Unit) (change : ScheduleHost → ScheduleHost) :
    Exec ScheduleHost Str Unit :=
  match answer with
  | .ok () => modify change
  | .error e => throw e

def nftAddDrop : Exec ScheduleHost Str Unit :=
  answered env.nft fun s => { s with chain := s.chain ++ ["drop".toList] }

def nftFlush : Exec ScheduleHost Str Unit :=
  answered env.nft fun s => { s with chain := [] }

def inetBlock : Exec ScheduleHost Str Unit := do
  if (← get).isInetBlocked then pure () else nftAddDrop env

def inetUnblock : Exec ScheduleHost Str Unit := do
  if (← get).isInetBlocked then nftFlush env else pure ()

def setOverride (block : Bool) : Exec ScheduleHost Str Unit :=
  answered env.writeMarker fun s => { s with marker := some [if block then '1' else '0'] }

def clearOverride : Exec ScheduleHost Str Unit := modify fun s => { s with marker := none }

/-- The override wins until the schedule agrees with it; then it is consumed. -/
def wantedBlock (wanted : Bool) : Exec ScheduleHost Str Bool := do
  match (← get).getOverride with
  | some override =>
    if override = wanted then
      clearOverride
      return wanted
    else return override
  | none => return wanted

/-- Apply or remove the block; the result tells whether the chain changed. -/
def enforceBlock (block : Bool) : Exec ScheduleHost Str Bool := do
  if block = (← get).isInetBlocked then return false
  if block then inetBlock env else inetUnblock env
  return true

def applySchedule (schedule : Schedule) : Exec ScheduleHost Str Bool := do
  let block ← wantedBlock (schedule.shouldBlockNow env.time)
  enforceBlock env block

/-- The tick of the main loop: the saved schedule is loaded and applied. -/
def scheduleTick : Exec ScheduleHost Str Bool := do
  applySchedule env (← get).saved

def schedulePost (body : Schedule) : Exec ScheduleHost Str Unit := do
  reading fun _ => body.validate
  answered env.save fun s => { s with saved := body }
  clearOverride
  let _ ← applySchedule env body
  return ()

def scheduleBlockPost : Exec ScheduleHost Str Unit := do
  setOverride env true
  inetBlock env

def scheduleUnblockPost : Exec ScheduleHost Str Unit := do
  setOverride env false
  inetUnblock env

end Operations

end TinyWifi
