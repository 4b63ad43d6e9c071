import TinyWifi.Nanodhcp
import TinyWifi.Wifi

/-! What a config edit leaves behind, for every way the system may answer it. -/

namespace TinyWifi

open Text Exec

/-- What `apply_wifi` and `apply_dhcp` share: the checks of an edit, the text it writes, and the
inputs that pass the checks. -/
structure Editor where
  Settings : Type
  Error : Type
  check : EditEnv → Path → Settings → Fs → Except Error Str
  errors : SaveErrors Error
  edited : Settings → Str → Str
  Accepted : EditEnv → Path → Settings → Fs → Str → Prop
  check_eq_ok : ∀ env path settings fs text, check env path settings fs = .ok text ↔
    ∃ content, Accepted env path settings fs content ∧ edited settings content = text
  found : ∀ env path settings fs content, Accepted env path settings fs content →
    contentOf fs path = some content

def Editor.apply (editor : Editor) (env : EditEnv) (path : Path) (settings : editor.Settings)
    (commit : Commit) : Exec Fs editor.Error Unit := do
  let text ← reading (editor.check env path settings)
  saveEdited env editor.errors path text commit

def wifiEditor : Editor where
  Settings := WifiSettings
  Error := WifiError
  check := editedWifi
  errors := ⟨.io, .service, .rolledBack⟩
  edited := wifiEdited
  Accepted := WifiAccepted
  check_eq_ok _ _ _ _ _ := editedWifi_eq_ok
  found _ _ _ _ _ accepted := accepted.found

def dhcpEditor : Editor where
  Settings := DhcpSettings
  Error := DhcpUpdateError
  check := editedDhcp
  errors := ⟨.io, .service, .rolledBack⟩
  edited := dhcpEdited
  Accepted := DhcpAccepted
  check_eq_ok _ _ _ _ _ := editedDhcp_eq_ok
  found _ _ _ _ _ accepted := accepted.found

theorem wifiEditor_apply : wifiEditor.apply = applyWifi := rfl

variable {ε : Type}

/-- On an error the config is what it was. Otherwise it is the edited text, and the backup is gone
or, on hold, it is what the config was. -/
def KeepsOrCommits (edited : Str → Str) (path : Path) (commit : Commit) (fs : Fs) :
    Except ε Unit × Fs → Prop
  | (.error _, after) => after path = fs path
  | (.ok (), after) =>
    ∃ content, contentOf fs path = some content ∧ after path = some (encode (edited content)) ∧
      after (backupPath path) =
        match commit with
        | .now => none
        | .hold => fs path

/-- The write of the text breaks off, and what it leaves is not what the config was. -/
def TornWrite (env : EditEnv) (original : Option ByteArray) (text : Str) : Prop :=
  env.backup = .done ∧
    ∃ kept error, env.write = .cut kept error ∧
      some ((encode text).extract 0 kept) ≠ original

/-- A plain edit is saved, and the system refuses to remove its backup. -/
def StaleBackup (env : EditEnv) (commit : Commit) : Prop :=
  commit = .now ∧ env.Obliges ∧ env.discard ≠ .ok ()

section Save

variable {env : EditEnv} {errors : SaveErrors ε} {path : Path} {fs : Fs} {original : ByteArray}

theorem saveEdited_no_backup (errors : SaveErrors ε) (found : fs path = some original)
    (failed : env.backup ≠ .done) (text : Str) (commit : Commit) :
    ∃ e after, outcome (saveEdited env errors path text commit) fs = (.error e, after) ∧
      (∀ p, p ≠ backupPath path → after p = fs p) ∧ (env.backup.Whole → after = fs) := by
  cases backed : env.backup with
  | done => exact absurd backed failed
  | refused error =>
      refine ⟨errors.io error, fs, ?_, fun _ _ => rfl, fun _ => rfl⟩
      simp [saveEdited, outcome_bind, outcome_mapError, backup, backed, outcome_copyFile found,
        writeFile]
  | cut kept error =>
      refine ⟨errors.io error, put (backupPath path) (original.extract 0 kept) fs, ?_,
        fun p notBackup => put_of_ne notBackup .., fun whole => absurd rfl (whole kept error)⟩
      simp [saveEdited, outcome_bind, outcome_mapError, backup, backed, outcome_copyFile found,
        writeFile]

theorem saveEdited_refused (found : fs path = some original) (backed : env.backup = .done)
    {error : IoError} (refused : env.write = .refused error) (text : Str) (commit : Commit) :
    outcome (saveEdited env errors path text commit) fs =
      (.error (errors.io error), put (backupPath path) original fs) := by
  simp [saveEdited, outcome_bind, outcome_mapError, backup, backed, outcome_copyFile found,
    refused, writeFile]

/-- A write that breaks off is returned at once: nothing restores the config. -/
theorem saveEdited_cut (found : fs path = some original) (backed : env.backup = .done)
    {kept : Nat} {error : IoError} (cut : env.write = .cut kept error) (text : Str)
    (commit : Commit) :
    outcome (saveEdited env errors path text commit) fs =
      (.error (errors.io error),
        put path ((encode text).extract 0 kept) (put (backupPath path) original fs)) := by
  simp [saveEdited, outcome_bind, outcome_mapError, backup, backed, outcome_copyFile found,
    cut, writeFile]

/-- The service did not come up and the restore was refused: the new text stays. -/
theorem saveEdited_not_restored (errors : SaveErrors ε) (text : Str)
    (found : fs path = some original) (backed : env.backup = .done) (written : env.write = .done)
    {error : IoError} (refused : env.restore = .refused error)
    (down : env.restart = .ok () → env.running = false) (commit : Commit) :
    ∃ e, outcome (saveEdited env errors path text commit) fs =
      (.error e, put path (encode text) (put (backupPath path) original fs)) := by
  have left : outcome (revert (.refused error) path : Exec Fs ε Unit)
      (put path (encode text) (put (backupPath path) original fs)) =
      (.ok (), put path (encode text) (put (backupPath path) original fs)) := by
    rw [revert, outcome_attempt, restoreBackup,
      outcome_copyFile ((put_self_backup ..).trans (put_self ..)), writeFile, outcome_throw]
  cases restarted : env.restart with
  | ok _ =>
      refine ⟨errors.rolledBack, ?_⟩
      simp only [saveEdited, outcome_bind, outcome_mapError, backup, backed,
        outcome_copyFile found, written, outcome_writeFile_done, restarted, down restarted,
        Bool.false_eq_true, if_false, refused, left, outcome_throw]
  | error e =>
      refine ⟨errors.service e, ?_⟩
      simp only [saveEdited, outcome_bind, outcome_mapError, backup, backed,
        outcome_copyFile found, written, outcome_writeFile_done, restarted, refused, left,
        outcome_throw]

/-- What a held edit can leave behind when no write to the config breaks off. -/
structure HeldSave (env : EditEnv) (path : Path) (text : Str) (original : ByteArray) (fs : Fs)
    (result : Except ε Unit × Fs) : Prop where
  others : ∀ p, p ≠ path → p ≠ backupPath path → result.2 p = fs p
  conf : result.2 path = some original ∨ result.2 path = some (encode text)
  kept : env.backup.Whole →
    result.2 (backupPath path) = fs (backupPath path) ∨
      result.2 (backupPath path) = some original
  held : result.1 = .ok () → result.2 (backupPath path) = some original

theorem saveEdited_held (errors : SaveErrors ε) (found : fs path = some original)
    (written : env.write.Whole) (restored : env.restore.Whole) (text : Str) :
    HeldSave env path text original fs
      (outcome (saveEdited env errors path text .hold) fs) := by
  have others (p : Path) (notConf : p ≠ path) (notBackup : p ≠ backupPath path) :
      put path (encode text) (put (backupPath path) original fs) p = fs p := by
    rw [put_of_ne notConf, put_of_ne notBackup]
  have backed : put path (encode text) (put (backupPath path) original fs) (backupPath path) =
      some original := by
    rw [put_self_backup, put_self]
  -- the edit is undone, or it stops before the config is touched
  have undone (e : ε) : HeldSave env path text original fs
      (.error e, put (backupPath path) original fs) :=
    ⟨fun p _ notBackup => put_of_ne notBackup .., .inl ((put_backup_self ..).trans found),
      fun _ => .inr (put_self ..), nofun⟩
  by_cases copied : env.backup = .done
  · cases answer : env.write with
    | cut count error => exact absurd answer (written count error)
    | refused error =>
        rw [saveEdited_refused found copied answer]
        exact undone _
    | done =>
        by_cases up : env.restart = .ok () ∧ env.running = true
        · rw [outcome_saveEdited_ok found copied answer up.1 up.2]
          exact ⟨others, .inr (put_self ..), fun _ => .inr backed, fun _ => backed⟩
        · have down (restarted : env.restart = .ok ()) : env.running = false := by
            simpa [restarted] using up
          cases restore : env.restore with
          | cut count error => exact absurd restore (restored count error)
          | done =>
              obtain ⟨e, back⟩ :=
                outcome_saveEdited_undone errors text found copied answer restore down .hold
              rw [back]
              exact undone e
          | refused error =>
              obtain ⟨e, left⟩ :=
                saveEdited_not_restored errors text found copied answer restore down .hold
              rw [left]
              exact ⟨others, .inr (put_self ..), fun _ => .inr backed, nofun⟩
  · obtain ⟨e, after, stopped, same, whole⟩ :=
      saveEdited_no_backup errors found copied text .hold
    rw [stopped]
    exact ⟨fun p _ notBackup => same p notBackup,
      .inl ((same path (backupPath_ne path).symm).trans found),
      fun backup => .inl (congrFun (whole backup) _), nofun⟩

/-- The save flow meets its purpose exactly when its write does not break off and no backup is left
behind. -/
theorem saveEdited_keepsOrCommits_iff {edited : Str → Str} {content : Str}
    (found : contentOf fs path = some content) (restored : env.restore = .done)
    (commit : Commit) :
    KeepsOrCommits edited path commit fs
        (outcome (saveEdited env errors path (edited content) commit) fs) ↔
      ¬ (TornWrite env (fs path) (edited content) ∨ StaleBackup env commit) := by
  obtain ⟨original, held, -⟩ := Option.bind_eq_some_iff.mp found
  by_cases backed : env.backup = .done
  · cases written : env.write with
    | done =>
        have whole : ¬ TornWrite env (fs path) (edited content) := by
          intro holds
          rcases holds with ⟨-, kept, error, cut, -⟩
          simp [written] at cut
        rw [or_iff_right whole]
        by_cases up : env.restart = .ok () ∧ env.running = true
        · have obliges : env.Obliges := ⟨backed, written, up.1, up.2⟩
          have left : put path (encode (edited content)) (put (backupPath path) original fs)
              (backupPath path) = some original := (put_self_backup ..).trans (put_self ..)
          rw [outcome_saveEdited_ok held backed written up.1 up.2]
          cases commit with
          | now =>
              by_cases removed : env.discard = .ok ()
              · refine iff_of_true ⟨content, found, ?_, ?_⟩ fun stale => stale.2.2 removed
                · simp
                · simp [removed]
              · refine iff_of_false (fun saved => ?_) (not_not_intro ⟨rfl, obliges, removed⟩)
                obtain ⟨-, -, -, gone⟩ := saved
                rw [if_neg removed] at gone
                cases left.symm.trans gone
          | hold => exact iff_of_true ⟨content, found, by simp, by simp [held]⟩ nofun
        · have down (restarted : env.restart = .ok ()) : env.running = false := by
            simpa [restarted] using up
          obtain ⟨e, undone⟩ :=
            outcome_saveEdited_undone errors (edited content) held backed written restored down
              commit
          rw [undone]
          exact iff_of_true (put_backup_self path original fs)
            fun stale => up ⟨stale.2.1.2.2.1, stale.2.1.2.2.2⟩
    | refused error =>
        have done : env.write ≠ .done := by simp [written]
        have whole : ¬ TornWrite env (fs path) (edited content) := by
          intro holds
          rcases holds with ⟨-, kept, error, cut, -⟩
          simp [written] at cut
        rw [saveEdited_refused held backed written]
        exact iff_of_true (put_backup_self path original fs)
          (not_or_intro whole fun stale => done stale.2.1.2.1)
    | cut kept error =>
        have done : env.write ≠ .done := by simp [written]
        rw [saveEdited_cut held backed written, or_iff_left fun stale => done stale.2.1.2.1,
          TornWrite]
        simp [KeepsOrCommits, backed, written]
  · obtain ⟨e, after, stopped, kept, -⟩ :=
      saveEdited_no_backup errors held backed (edited content) commit
    rw [stopped]
    exact iff_of_true (kept path (backupPath_ne path).symm)
      (not_or_intro (fun torn => backed torn.1) fun stale => backed stale.2.1.1)

end Save

section Checked

variable {editor : Editor} {env : EditEnv} {path : Path} {fs : Fs}

theorem Editor.accepted_unique {settings : editor.Settings} {content other : Str}
    (accepted : editor.Accepted env path settings fs content)
    (also : editor.Accepted env path settings fs other) : other = content := by
  have found := editor.found env path settings fs content accepted
  have same := editor.found env path settings fs other also
  exact Option.some_inj.mp (same.symm.trans found)

theorem Editor.held_of_accepted {settings : editor.Settings} {content : Str}
    (accepted : editor.Accepted env path settings fs content) :
    ∃ original, fs path = some original := by
  have found := editor.found env path settings fs content accepted
  obtain ⟨original, held, -⟩ := Option.bind_eq_some_iff.mp found
  exact ⟨original, held⟩

theorem Editor.outcome_rejected {settings : editor.Settings}
    (rejected : ¬ ∃ content, editor.Accepted env path settings fs content) (commit : Commit) :
    ∃ e, outcome (editor.apply env path settings commit) fs = (.error e, fs) := by
  rw [Editor.apply, outcome_bind, outcome_reading]
  cases result : editor.check env path settings fs with
  | error e => exact ⟨e, rfl⟩
  | ok text =>
      obtain ⟨content, accepted, -⟩ := (editor.check_eq_ok env path settings fs text).mp result
      exact absurd ⟨content, accepted⟩ rejected

theorem Editor.outcome_accepted {settings : editor.Settings} {content : Str}
    (accepted : editor.Accepted env path settings fs content) (commit : Commit) :
    outcome (editor.apply env path settings commit) fs =
      outcome (saveEdited env editor.errors path (editor.edited settings content) commit) fs := by
  have passes := (editor.check_eq_ok env path settings fs _).mpr ⟨content, accepted, rfl⟩
  rw [Editor.apply, outcome_bind, outcome_reading, passes]

theorem Editor.keepsOrCommits_iff (restored : env.restore = .done) (settings : editor.Settings)
    (commit : Commit) :
    KeepsOrCommits (editor.edited settings) path commit fs
        (outcome (editor.apply env path settings commit) fs) ↔
      ¬ ∃ content, editor.Accepted env path settings fs content ∧
        (TornWrite env (fs path) (editor.edited settings content) ∨ StaleBackup env commit) := by
  by_cases passes : ∃ content, editor.Accepted env path settings fs content
  · obtain ⟨content, accepted⟩ := passes
    have found := editor.found env path settings fs content accepted
    rw [editor.outcome_accepted accepted, saveEdited_keepsOrCommits_iff found restored]
    constructor
    · intro whole broken
      obtain ⟨other, also, torn⟩ := broken
      rw [Editor.accepted_unique accepted also] at torn
      exact whole torn
    · intro whole torn
      exact whole ⟨content, accepted, torn⟩
  · obtain ⟨e, stopped⟩ := editor.outcome_rejected passes commit
    rw [stopped]
    apply iff_of_true rfl
    intro broken
    obtain ⟨content, accepted, -⟩ := broken
    exact passes ⟨content, accepted⟩

end Checked

section Editors

variable (env : EditEnv) (path : Path) (commit : Commit) (fs : Fs)

/-- A failed edit leaves the config as it was and a saved one leaves no backup that it should not,
exactly unless an accepted edit's write breaks off or its backup cannot be removed. -/
theorem failed_edit_restores_iff (restored : env.restore = .done) :
    (∀ settings : WifiSettings,
      KeepsOrCommits (wifiEdited settings) path commit fs
          (outcome (applyWifi env path settings commit) fs) ↔
        ¬ ∃ content, WifiAccepted env path settings fs content ∧
          (TornWrite env (fs path) (wifiEdited settings content) ∨ StaleBackup env commit)) ∧
    ∀ settings : DhcpSettings,
      KeepsOrCommits (dhcpEdited settings) path commit fs
          (outcome (applyDhcp env path settings commit) fs) ↔
        ¬ ∃ content, DhcpAccepted env path settings fs content ∧
          (TornWrite env (fs path) (dhcpEdited settings content) ∨ StaleBackup env commit) :=
  ⟨fun settings => wifiEditor.keepsOrCommits_iff restored settings commit,
    fun settings => dhcpEditor.keepsOrCommits_iff restored settings commit⟩

end Editors

def etcConf : Path := "/etc/hostapd/hostapd.conf".toList

/-- The service does not come up: the config is back. -/
theorem failed_edit_restores_guest :
    KeepsOrCommits (wifiEdited (guestSettings "correct horse".toList)) etcConf .now
      (oneFile etcConf "ssid=old\n".toList)
      (outcome (applyWifi { EditEnv.willing with running := false } etcConf
        (guestSettings "correct horse".toList) .now) (oneFile etcConf "ssid=old\n".toList)) := by
  apply ((failed_edit_restores_iff { EditEnv.willing with running := false } etcConf .now
    (oneFile etcConf "ssid=old\n".toList) rfl).1 _).mpr
  intro torn
  obtain ⟨content, accepted, ⟨backed, kept, error, cut, differs⟩ | ⟨now, obliges, refused⟩⟩ := torn
  · cases cut
  · exact refused rfl

/-- The disk is full: the edit returns the error and leaves an empty config. -/
theorem torn_write_empties_config :
    ¬ KeepsOrCommits (wifiEdited (guestSettings "correct horse".toList)) etcConf .now
      (oneFile etcConf "ssid=old\n".toList)
      (outcome (applyWifi { EditEnv.willing with
          write := .cut 0 ⟨"No space left on device (os error 28)".toList⟩ } etcConf
        (guestSettings "correct horse".toList) .now) (oneFile etcConf "ssid=old\n".toList)) := by
  intro keeps
  rw [← wifiEditor_apply] at keeps
  apply (wifiEditor.keepsOrCommits_iff rfl _ .now).mp keeps
  have found : contentOf (oneFile etcConf "ssid=old\n".toList) etcConf =
      some "ssid=old\n".toList := by simp [contentOf, oneFile]
  refine ⟨"ssid=old\n".toList, ⟨found, by decide, rfl, rfl, ?_⟩, .inl ⟨rfl, 0, _, rfl, ?_⟩⟩
  · intro interface configured
    rfl
  · simp only [oneFile, put_self]
    decide

end TinyWifi
