import TinyWifi.Files
import Mathlib.Tactic.Common

/-! `safety.rs` and the save flow that the Wi-Fi and DHCP editors share: back up, write, restart,
verify, and undo when the service does not come up. -/

namespace TinyWifi

open Text Exec

inductive ServiceError
  | notFound (name : Str)
  | commandFailed (name stderr : Str)
  | io (error : IoError)
  | unsupported
  deriving DecidableEq, Repr

def ServiceError.display : ServiceError → Str
  | .notFound name => "service '".toList ++ name ++ "' not found".toList
  | .commandFailed name stderr =>
    "action on '".toList ++ name ++ "' failed: ".toList ++ trim stderr
  | .io error => "failed to run init command: ".toList ++ error.message
  | .unsupported => "no supported service manager on this host".toList

structure ApiError where
  status : Nat
  message : Str
  deriving DecidableEq, Repr

structure EditEnv where
  readable : Bool
  writable : Bool
  interfaceExists : Str → Bool
  backup : WriteOutcome
  write : WriteOutcome
  restore : WriteOutcome
  restart : Except ServiceError Unit
  running : Bool
  discard : Except IoError Unit

def EditEnv.willing : EditEnv where
  readable := true
  writable := true
  interfaceExists _ := true
  backup := .done
  write := .done
  restore := .done
  restart := .ok ()
  running := true
  discard := .ok ()

/-- Whether to discard the backup after the service comes up cleanly. -/
inductive Commit
  | now
  | hold
  deriving DecidableEq, Repr

structure SaveErrors (ε : Type) where
  io : IoError → ε
  service : ServiceError → ε
  rolledBack : ε

variable {ε : Type}

/-- Restore `path` from its `.bak` sibling; the restart that follows changes no file. -/
def revert (restore : WriteOutcome) (path : Path) : Exec Fs ε Unit :=
  attempt (restoreBackup restore path)

/-- Remove the `.bak` left by a committed edit. That the system refuses goes unnoticed. -/
def discardBackup (discard : Except IoError Unit) (path : Path) : Exec Fs ε Unit :=
  attempt (removeFileAs discard (backupPath path))

/-- The tail of `apply_wifi` and `apply_dhcp`, from the backup on. -/
def saveEdited (env : EditEnv) (errors : SaveErrors ε) (path : Path) (text : Str)
    (commit : Commit) : Exec Fs ε Unit := do
  mapError errors.io (backup env.backup path)
  mapError errors.io (writeFile env.write path (encode text))
  match env.restart with
  | .ok () =>
    if env.running then
      match commit with
      | .now => discardBackup env.discard path
      | .hold => pure ()
    else
      revert env.restore path
      throw errors.rolledBack
  | .error e =>
    revert env.restore path
    throw (errors.service e)

section Steps

variable {fs : Fs} {path : Path}

theorem outcome_discardBackup (discard : Except IoError Unit) (fs : Fs) (path : Path) :
    outcome (discardBackup discard path : Exec Fs ε Unit) fs =
      (.ok (), if discard = .ok () then erase (backupPath path) fs else fs) :=
  outcome_attempt_removeFileAs discard (backupPath path) fs

theorem outcome_discardBackup_done (fs : Fs) (path : Path) :
    outcome (discardBackup (.ok ()) path : Exec Fs ε Unit) fs =
      (.ok (), erase (backupPath path) fs) :=
  outcome_discardBackup (.ok ()) fs path

/-- Whether the backup goes or stays, the config is what it was. -/
@[simp] theorem discarded_self (discard : Except IoError Unit) (fs : Fs) (path : Path) :
    (if discard = .ok () then erase (backupPath path) fs else fs) path = fs path := by
  split
  · exact erase_backup_self path fs
  · rfl

theorem outcome_revert {bytes : ByteArray} (found : fs (backupPath path) = some bytes) :
    outcome (revert .done path : Exec Fs ε Unit) fs = (.ok (), put path bytes fs) := by
  rw [revert, outcome_attempt, restoreBackup, outcome_copyFile found, outcome_writeFile_done]

theorem outcome_revert_missing (found : fs (backupPath path) = none) (restore : WriteOutcome) :
    outcome (revert restore path : Exec Fs ε Unit) fs = (.ok (), fs) := by
  rw [revert, outcome_attempt, restoreBackup, outcome_copyFile_missing found]

theorem put_backup_put (path : Path) (old new : ByteArray) (fs : Fs)
    (found : fs path = some old) :
    put path old (put path new (put (backupPath path) old fs)) =
      put (backupPath path) old fs := by
  funext other
  by_cases same : other = path
  · subst other
    rw [put_self, put_backup_self, found]
  · rw [put_of_ne same, put_of_ne same]

end Steps

section Save

variable {env : EditEnv} {errors : SaveErrors ε} {path : Path} {text : Str} {fs : Fs}
  {original : ByteArray}

/-- The service came up: the new text is in place, and the backup is kept on hold, or if it cannot
be removed. -/
theorem outcome_saveEdited_ok (found : fs path = some original) (backed : env.backup = .done)
    (written : env.write = .done) (restarted : env.restart = .ok ()) (running : env.running)
    (commit : Commit) :
    outcome (saveEdited env errors path text commit) fs =
      (.ok (), match commit with
        | .now =>
          if env.discard = .ok () then erase (backupPath path)
            (put path (encode text) (put (backupPath path) original fs))
          else put path (encode text) (put (backupPath path) original fs)
        | .hold => put path (encode text) (put (backupPath path) original fs)) := by
  simp only [saveEdited, outcome_bind, outcome_mapError, backup, backed, outcome_copyFile found,
    written, outcome_writeFile_done, restarted, running, if_true]
  cases commit with
  | now => rw [outcome_discardBackup]
  | hold => rfl

def EditEnv.Obliges (env : EditEnv) : Prop :=
  env.backup = .done ∧ env.write = .done ∧ env.restart = .ok () ∧ env.running = true

instance (env : EditEnv) : Decidable env.Obliges := inferInstanceAs (Decidable (_ ∧ _ ∧ _ ∧ _))

theorem saveEdited_ok_iff (found : fs path = some original) (commit : Commit) :
    (outcome (saveEdited env errors path text commit) fs).1 = .ok () ↔ env.Obliges := by
  constructor
  · intro saved
    rcases outcome_bind_ok.mp (Prod.ext saved rfl) with ⟨_, _, first, rest⟩
    rcases outcome_bind_ok.mp rest with ⟨_, _, second, last⟩
    rw [outcome_mapError_ok, backup, outcome_copyFile found, outcome_writeFile_ok] at first
    rw [outcome_mapError_ok, outcome_writeFile_ok] at second
    cases restarted : env.restart with
    | error e =>
        rw [restarted] at last
        rcases outcome_bind_ok.mp last with ⟨_, _, _, thrown⟩
        cases thrown
    | ok u =>
        rw [restarted] at last
        cases running : env.running with
        | true => exact ⟨first.1, second.1, restarted, running⟩
        | false =>
            rw [running, if_neg Bool.false_ne_true] at last
            rcases outcome_bind_ok.mp last with ⟨_, _, _, thrown⟩
            cases thrown
  · intro holds
    rcases holds with ⟨backed, written, restarted, running⟩
    rw [outcome_saveEdited_ok found backed written restarted running]

/-- The service did not come up: the config is restored, and the backup is left behind. -/
theorem outcome_saveEdited_undone (errors : SaveErrors ε) (text : Str)
    (found : fs path = some original) (backed : env.backup = .done) (written : env.write = .done)
    (restored : env.restore = .done) (down : env.restart = .ok () → env.running = false)
    (commit : Commit) :
    ∃ e, outcome (saveEdited env errors path text commit) fs =
      (.error e, put (backupPath path) original fs) := by
  have kept : (put path (encode text) (put (backupPath path) original fs)) (backupPath path) =
      some original := by
    rw [put_self_backup, put_self]
  cases restarted : env.restart with
  | ok _ =>
      refine ⟨errors.rolledBack, ?_⟩
      simp only [saveEdited, outcome_bind, outcome_mapError, backup, backed,
        outcome_copyFile found, written, outcome_writeFile_done, restarted, down restarted,
        Bool.false_eq_true, if_false, restored, outcome_revert kept, outcome_throw,
        put_backup_put path original (encode text) fs found]
  | error e =>
      refine ⟨errors.service e, ?_⟩
      simp only [saveEdited, outcome_bind, outcome_mapError, backup, backed,
        outcome_copyFile found, written, outcome_writeFile_done, restarted, restored,
        outcome_revert kept, outcome_throw,
        put_backup_put path original (encode text) fs found]

end Save

end TinyWifi
