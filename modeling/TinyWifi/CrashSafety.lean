import TinyWifi.CommitConfirm
import TinyWifi.Lib.Mortal

/-! The edits of one config over the life of the device. The process may die between any two
operations on files; when it is started again, it does not know of any pending change. -/

namespace TinyWifi

open Text Exec Runs

variable {ε : Type}

/-- `saveEdited`, one operation on files after the other. -/
def saveLiving (env : EditEnv) (errors : SaveErrors ε) (path : Path) (text : Str)
    (commit : Commit) : Exec (Mortal Fs) (Stopped ε) Unit := do
  trying (mapError errors.io (backup env.backup path))
  trying (mapError errors.io (writeFile env.write path (encode text)))
  match env.restart with
  | .ok () =>
    if env.running then
      match commit with
      | .now => trying (discardBackup env.discard path)
      | .hold => pure ()
    else
      trying (revert env.restore path)
      throw (.failed errors.rolledBack)
  | .error e =>
    trying (revert env.restore path)
    throw (.failed (errors.service e))

def Editor.applyLiving (editor : Editor) (env : EditEnv) (path : Path) (settings : editor.Settings)
    (commit : Commit) : Exec (Mortal Fs) (Stopped editor.Error) Unit := do
  let text ← reading fun m => (editor.check env path settings m.state).mapError .failed
  saveLiving env editor.errors path text commit

/-- `revertAction`, in the same way. -/
def revertLiving (restore : WriteOutcome) (discard : Except IoError Unit) (path : Path) :
    Exec (Mortal Fs) (Stopped IoError) Unit := do
  trying (revert restore path)
  trying (discardBackup discard path)

namespace CrashSafety

/-- What must not get lost: the config as an edit found it, until the edit is settled, and what the
edit made of it. The code does not keep it. -/
inductive Kept
  | found (old : ByteArray)
  | pending (old new : ByteArray)
  | settled (new : ByteArray)

/-- `pending` says that the map holds a guard whose timer runs. -/
structure Life where
  fs : Fs
  pending : Bool
  kept : Kept

/-- Each event with the number of operations on files that the process lives to do. -/
inductive LifeEvent (editor : Editor)
  | post (env : EditEnv) (settings : editor.Settings) (commit : Commit) (survives : Nat)
  | confirm (discard : Except IoError Unit) (survives : Nat)
  | timeout (restore : WriteOutcome) (discard : Except IoError Unit) (survives : Nat)
  | restart

def Spared (path : Path) (old : ByteArray) (fs : Fs) : Prop :=
  fs path = some old ∨ fs (backupPath path) = some old

namespace Life

def start (fs : Fs) (old : ByteArray) : Life := ⟨fs, false, .found old⟩

/-- The process is started again, or the timer has fired: no change is pending any more. -/
def lapse (s : Life) : Life where
  fs := s.fs
  pending := false
  kept :=
    match s.kept with
    | .pending old _ => .found old
    | kept => kept

/-- How a `POST` whose settings pass the checks ends. -/
def posted (s : Life) (commit : Commit) (old new : ByteArray) :
    Except (Stopped ε) Unit × Mortal Fs → Life
  | (.error .died, m) => ⟨m.state, false, .found old⟩
  | (.error (.failed _), m) => ⟨m.state, s.pending, .found old⟩
  | (.ok (), m) =>
    match commit with
    | .now => ⟨m.state, s.pending, .settled new⟩
    | .hold => ⟨m.state, true, .pending old new⟩

variable {editor : Editor} (path : Path) (s : Life)

def post (env : EditEnv) (settings : editor.Settings) (commit : Commit) (survives : Nat) : Life :=
  let ended := outcome (editor.applyLiving env path settings commit) ⟨s.fs, survives⟩
  match editor.check env path settings s.fs, s.fs path with
  | .ok text, some old => s.posted commit old (encode text) ended
  | _, _ => { s with fs := ended.2.state }

/-- `confirm_pending`: the guard is disarmed before the backup is discarded. -/
def confirm (discard : Except IoError Unit) (survives : Nat) : Life :=
  if s.pending then
    match outcome (trying (discardBackup discard path : Exec Fs IoError Unit))
      ⟨s.fs, survives⟩ with
    | (.error _, m) => { s with fs := m.state }.lapse
    | (.ok (), m) =>
      match s.kept with
      | .pending _ new => ⟨m.state, false, .settled new⟩
      | kept => ⟨m.state, false, kept⟩
  else s

def timeout (restore : WriteOutcome) (discard : Except IoError Unit) (survives : Nat) : Life :=
  if s.pending then
    { s with fs := (outcome (revertLiving restore discard path) ⟨s.fs, survives⟩).2.state }.lapse
  else s

def step (s : Life) : LifeEvent editor → Life
  | .post env settings commit survives => s.post path env settings commit survives
  | .confirm discard survives => s.confirm path discard survives
  | .timeout restore discard survives => s.timeout path restore discard survives
  | .restart => s.lapse

/-- What must not get lost is whole: what an edit found is in the config or in its backup, what it
made is in the config. -/
def Safe : Prop :=
  match s.kept with
  | .found old => s.pending = false ∧ Spared path old s.fs
  | .pending old new =>
    s.pending = true ∧ s.fs path = some new ∧ s.fs (backupPath path) = some old
  | .settled new => s.pending = false ∧ s.fs path = some new

/-- No edit passes its checks while a change is pending, and no timer goes on to discard the backup
after it could not copy it back. -/
def Orderly : LifeEvent editor → Prop
  | .post env settings _ _ =>
    s.pending = true → ∀ text, editor.check env path settings s.fs ≠ .ok text
  | .timeout restore _ survives => s.pending = true → restore = .done ∨ survives ≤ 1
  | .confirm .. | .restart => True

end Life

section Save

variable {path : Path} {commit : Commit} {fs : Fs} {s : Life} {old : ByteArray}

theorem lives_saveLiving (env : EditEnv) (errors : SaveErrors ε) (path : Path) (text : Str)
    (commit : Commit) :
    Lives (saveEdited env errors path text commit) (saveLiving env errors path text commit) 3 := by
  apply (Lives.trying _).bind 2
  intro _
  apply (Lives.trying _).bind 1
  intro _
  cases env.restart with
  | error e => exact (Lives.trying _).bind 0 fun _ => .throw _
  | ok u =>
      cases env.running with
      | false => exact (Lives.trying _).bind 0 fun _ => .throw _
      | true =>
          cases commit with
          | now => exact .trying _
          | hold => exact .pure _ 1

theorem lives_applyLiving (editor : Editor) (env : EditEnv) (path : Path)
    (settings : editor.Settings) (commit : Commit) :
    Lives (editor.apply env path settings commit) (editor.applyLiving env path settings commit) 3 :=
  (Lives.reading _).bind 3 fun text =>
    lives_saveLiving env editor.errors path text commit

theorem lives_revertLiving (restore : WriteOutcome) (discard : Except IoError Unit) (path : Path) :
    Lives (CommitState.revertAction restore discard path) (revertLiving restore discard path) 2 :=
  (Lives.trying _).bind 1 fun _ => .trying _

theorem safe_found (backed : fs (backupPath path) = some old) :
    Life.Safe path ⟨fs, false, .found old⟩ := ⟨rfl, .inr backed⟩

theorem revert_backup (restore : WriteOutcome) (path : Path) (fs : Fs) :
    (outcome (revert restore path : Exec Fs ε Unit) fs).2 (backupPath path) =
      fs (backupPath path) := by
  rw [revert, outcome_attempt, restoreBackup]
  cases backed : fs (backupPath path) with
  | none =>
      rw [outcome_copyFile_missing backed]
      exact backed
  | some bytes =>
      rw [outcome_copyFile backed]
      exact (writeFile_other (backupPath_ne path) ..).trans backed

/-- When the service does not come up, the backup is copied back and stays. -/
theorem safe_undone (idle : s.pending = false) (backed : fs (backupPath path) = some old)
    (error : ε) (new : ByteArray) (restore : WriteOutcome) (n : Nat) :
    (s.posted commit old new (outcome (do
      trying (revert restore path)
      throw (.failed error) : Exec (Mortal Fs) (Stopped ε) Unit) ⟨fs, n⟩)).Safe path := by
  have kept := revert_backup (ε := ε) restore path fs
  apply ends_trying (Q := fun ended => (s.posted commit old new ended).Safe path)
  · exact safe_found backed
  · intro e after n ends
    rw [ends] at kept
    exact ⟨idle, .inr (kept.trans backed)⟩
  · intro _ after left ends _
    rw [ends] at kept
    exact ⟨idle, .inr (kept.trans backed)⟩

theorem safe_saveLiving (idle : s.pending = false) (found : s.fs path = some old) (env : EditEnv)
    (errors : SaveErrors ε) (text : Str) (commit : Commit) (n : Nat) :
    (s.posted commit old (encode text)
      (outcome (saveLiving env errors path text commit) ⟨s.fs, n⟩)).Safe path := by
  unfold saveLiving
  apply ends_trying (Q := fun ended => (s.posted commit old (encode text) ended).Safe path)
  · exact ⟨rfl, .inl found⟩
  · intro e after n ends
    have same : _ = after := congrArg Prod.snd ends
    rw [mapError_state, backup, outcome_copyFile found] at same
    have kept : after path = some old := by
      rw [← same, writeFile_other (backupPath_ne path).symm, found]
    exact ⟨idle, .inl kept⟩
  intro _ backed n ends _
  rw [outcome_mapError_ok, backup, outcome_copyFile found, outcome_writeFile_ok] at ends
  have held : backed (backupPath path) = some old := ends.2 ▸ put_self ..
  apply ends_trying (Q := fun ended => (s.posted commit old (encode text) ended).Safe path)
  · exact safe_found held
  · intro e after n ends
    have same : _ = after := congrArg Prod.snd ends
    rw [mapError_state] at same
    have kept : after (backupPath path) = some old := by
      rw [← same, writeFile_other (backupPath_ne path), held]
    exact ⟨idle, .inr kept⟩
  intro _ written n ends _
  obtain ⟨-, rfl⟩ := outcome_writeFile_ok.mp (outcome_mapError_ok.mp ends)
  have still : put path (encode text) backed (backupPath path) = some old :=
    (put_self_backup ..).trans held
  cases env.restart with
  | error e => exact safe_undone idle still _ _ _ _
  | ok u =>
      cases env.running with
      | false => exact safe_undone idle still _ _ _ _
      | true =>
          cases commit with
          | hold => exact ⟨rfl, put_self .., still⟩
          | now =>
              cases n with
              | zero => exact safe_found still
              | succ n =>
                  change Life.Safe path (s.posted .now old (encode text)
                    (outcome (trying (discardBackup env.discard path)) ⟨_, n + 1⟩))
                  rw [outcome_trying_succ, outcome_discardBackup]
                  exact ⟨idle, (discarded_self ..).trans (put_self ..)⟩

end Save

section Steps

variable {editor : Editor} {path : Path} {s : Life}

theorem Life.Safe.lapse (safe : s.Safe path) : s.lapse.Safe path := by
  rcases s with ⟨fs, pending, old | ⟨old, new⟩ | new⟩
  · exact ⟨rfl, safe.2⟩
  · exact ⟨rfl, .inr safe.2.2⟩
  · exact ⟨rfl, safe.2⟩

theorem Life.Safe.post {env : EditEnv} {settings : editor.Settings} {commit : Commit}
    {survives : Nat} (safe : s.Safe path)
    (orderly : s.Orderly path (.post env settings commit survives)) :
    (s.post path env settings commit survives).Safe path := by
  cases checked : editor.check env path settings s.fs with
  | error e =>
      have same : s.post path env settings commit survives = s := by
        simp only [Life.post, Editor.applyLiving, outcome_bind, outcome_reading, checked]
        rfl
      rwa [same]
  | ok text =>
      have idle : s.pending = false := by
        by_contra armed
        exact orderly (by simpa using armed) text checked
      obtain ⟨content, accepted, -⟩ := (editor.check_eq_ok ..).mp checked
      obtain ⟨old, found⟩ := editor.held_of_accepted accepted
      have saved := safe_saveLiving idle found env editor.errors text commit survives
      simp only [Life.post, Editor.applyLiving, outcome_bind, outcome_reading, checked, found]
      exact saved

theorem Life.Safe.confirm {discard : Except IoError Unit} {survives : Nat} (safe : s.Safe path) :
    (s.confirm path discard survives).Safe path := by
  rcases s with ⟨fs, pending, kept⟩
  cases pending with
  | false => exact safe
  | true =>
      rcases kept with old | ⟨old, new⟩ | new
      · cases safe.1
      · cases survives with
        | zero => exact safe.lapse
        | succ n =>
            simp only [Life.confirm, if_true, outcome_trying_succ, outcome_discardBackup]
            exact ⟨rfl, (discarded_self ..).trans safe.2.1⟩
      · cases safe.1

/-- A timer that dies, or that copies the backup back, leaves the old config in one of the two
files. -/
theorem spared_revertLiving {fs : Fs} {old : ByteArray} {restore : WriteOutcome} {survives : Nat}
    (backed : fs (backupPath path) = some old) (orderly : restore = .done ∨ survives ≤ 1)
    (discard : Except IoError Unit) :
    Spared path old (outcome (revertLiving restore discard path) ⟨fs, survives⟩).2.state := by
  have kept := revert_backup (ε := IoError) restore path fs
  apply ends_trying (Q := fun ended => Spared path old ended.2.state)
  · exact .inr backed
  · intro e after n ends
    rw [ends] at kept
    exact .inr (kept.trans backed)
  · intro _ after left ends lived
    rw [ends] at kept
    rcases orderly with rfl | short
    · rw [outcome_revert backed] at ends
      cases ends
      apply left_trying_last (P := Spared path old)
      · exact .inl (put_self ..)
      · rw [outcome_discardBackup]
        exact .inl ((discarded_self ..).trans (put_self ..))
    · obtain rfl : left = 0 := by omega
      exact .inr (kept.trans backed)

theorem Life.Safe.timeout {restore : WriteOutcome} {discard : Except IoError Unit}
    {survives : Nat} (safe : s.Safe path)
    (orderly : s.Orderly path (.timeout restore discard survives : LifeEvent editor)) :
    (s.timeout path restore discard survives).Safe path := by
  rcases s with ⟨fs, pending, kept⟩
  cases pending with
  | false => exact safe
  | true =>
      rcases kept with old | ⟨old, new⟩ | new
      · cases safe.1
      · exact ⟨rfl, spared_revertLiving safe.2.2 (orderly rfl) discard⟩
      · cases safe.1

theorem Life.Safe.step {event : LifeEvent editor} (safe : s.Safe path)
    (orderly : s.Orderly path event) : (s.step path event).Safe path := by
  cases event with
  | post env settings commit survives => exact safe.post orderly
  | confirm discard survives => exact safe.confirm
  | timeout restore discard survives => exact safe.timeout orderly
  | restart => exact safe.lapse

end Steps

section Runs

variable {key : PendingKey} {path : Path} {fs : Fs} {old : ByteArray}

theorem crash_safe {events : List (LifeEvent key.editor)} (found : fs path = some old)
    (orderly : Allowed (Life.step path) (Life.Orderly path) (Life.start fs old) events) :
    (∀ env settings commit, Lives (key.editor.apply env path settings commit)
      (key.editor.applyLiving env path settings commit) 3) ∧
    (∀ restore discard, Lives (CommitState.revertAction restore discard path)
      (revertLiving restore discard path) 2) ∧
    ∀ front, front <+: events → (run (Life.step path) (Life.start fs old) front).Safe path := by
  refine ⟨?_, ?_, ?_⟩
  · intro env settings commit
    exact lives_applyLiving key.editor env path settings commit
  · intro restore discard
    exact lives_revertLiving restore discard path
  · intro front reached
    have safe : (Life.start fs old).Safe path := ⟨rfl, .inl found⟩
    exact invariant_prefix safe (fun _ _ safe orderly => safe.step orderly) orderly reached

def dyingEvents : List (LifeEvent PendingKey.wifi.editor) :=
  [.post .willing (guestSettings "correct horse".toList) .hold 2, .timeout .done (.ok ()) 1,
    .post .willing (guestSettings "battery staple".toList) .now 1]

/-- A held change whose timer dies before it discards the backup, and a plain one that dies before
it writes the config. -/
theorem crash_safe_twice :
    (run (Life.step etcConf) (Life.start (oneFile etcConf "ssid=old\n".toList)
      (encode "ssid=old\n".toList)) dyingEvents).Safe etcConf := by
  have found : oneFile etcConf "ssid=old\n".toList etcConf = some (encode "ssid=old\n".toList) :=
    put_self ..
  refine (crash_safe found ?_).2.2 dyingEvents (List.prefix_refl _)
  refine ⟨fun armed => ?_, fun _ => .inl rfl, fun armed => ?_, trivial⟩
  · cases armed
  · exact absurd armed (by decide +kernel)

end Runs

end CrashSafety

end TinyWifi
