import TinyWifi.GuardedEdit
import TinyWifi.Lib.Runs

/-! `api.rs`: edits that undo themselves unless they are confirmed. One key of the pending map at a
time: its config, the backup, and the guard that `arm_revert` stores. -/

namespace TinyWifi

open Text Exec Runs

inductive PendingKey
  | wifi
  | dhcp
  deriving DecidableEq, Repr

def PendingKey.editor : PendingKey → Editor
  | .wifi => wifiEditor
  | .dhcp => dhcpEditor

/-- A system that copies, writes and removes every file it is asked to; a restart may fail, and so
may the service. -/
structure WorkingEnv extends EditEnv where
  backupDone : backup = .done
  writeDone : write = .done
  restoreDone : restore = .done
  discardDone : discard = .ok ()

def WorkingEnv.willing : WorkingEnv := ⟨.willing, rfl, rfl, rfl, rfl⟩

def WorkingEnv.ComesUp (env : WorkingEnv) : Prop := env.restart = .ok () ∧ env.running = true

inductive ConfirmAnswer
  | confirmed
  | alreadyReverted
  | noPending
  deriving DecidableEq, Repr

/-- The guard is the `fired` flag of the `AutoRevert` in the map. `committed` is what the config
last was when an admin had it for good; the code does not keep it. -/
structure CommitState where
  fs : Fs
  guard : Option Bool
  committed : Option ByteArray

inductive CommitOp (editor : Editor)
  | hold (env : WorkingEnv) (settings : editor.Settings)
  | plain (env : WorkingEnv) (settings : editor.Settings)
  | confirm
  | fire

namespace CommitState

def start (path : Path) (fs : Fs) : CommitState := ⟨fs, none, fs path⟩

def Armed (st : CommitState) : Prop := st.guard = some false

instance (st : CommitState) : Decidable st.Armed := inferInstanceAs (Decidable (_ = _))

/-- A `POST` with a hold time: `stage_*`, then `arm_revert`, which replaces any earlier guard. -/
def holdPost (editor : Editor) (path : Path) (env : EditEnv) (settings : editor.Settings)
    (st : CommitState) : CommitState :=
  match outcome (editor.apply env path settings .hold) st.fs with
  | (.error _, fs) => { st with fs := fs }
  | (.ok (), fs) => { st with fs := fs, guard := some false }

def plainPost (editor : Editor) (path : Path) (env : EditEnv) (settings : editor.Settings)
    (st : CommitState) : CommitState :=
  match outcome (editor.apply env path settings .now) st.fs with
  | (.error _, fs) => { st with fs := fs }
  | (.ok (), fs) => { st with fs := fs, committed := fs path }

def confirmPending (discard : Except IoError Unit) (path : Path) (st : CommitState) :
    ConfirmAnswer × CommitState :=
  match st.guard with
  | some false =>
    let discarded := outcome (discardBackup discard path : Exec Fs IoError Unit) st.fs
    (.confirmed, ⟨discarded.2, none, st.fs path⟩)
  | some true => (.alreadyReverted, { st with guard := none })
  | none => (.noPending, st)

def revertAction (restore : WriteOutcome) (discard : Except IoError Unit) (path : Path) :
    Exec Fs IoError Unit := do
  revert restore path
  discardBackup discard path

def fireTimer (restore : WriteOutcome) (discard : Except IoError Unit) (path : Path)
    (st : CommitState) : CommitState :=
  match st.guard with
  | some false =>
    { st with fs := (outcome (revertAction restore discard path) st.fs).2, guard := some true }
  | _ => st

def step (editor : Editor) (path : Path) (st : CommitState) : CommitOp editor → CommitState
  | .hold env settings => st.holdPost editor path env.toEditEnv settings
  | .plain env settings => st.plainPost editor path env.toEditEnv settings
  | .confirm => (st.confirmPending (.ok ()) path).2
  | .fire => st.fireTimer .done (.ok ()) path

/-- A running timer stands over a config that nobody has confirmed. -/
def Exposed (path : Path) (st : CommitState) : Prop :=
  st.Armed ∧ st.fs path ≠ st.committed

/-- While an unconfirmed edit is pending, no other edit gets as far as the backup, unless it is a
plain one after which the service comes up. -/
def SafeOp (editor : Editor) (path : Path) (st : CommitState) : CommitOp editor → Prop
  | .hold env settings =>
    st.Exposed path → ¬ ∃ content, editor.Accepted env.toEditEnv path settings st.fs content
  | .plain env settings =>
    st.Exposed path → (∃ content, editor.Accepted env.toEditEnv path settings st.fs content) →
      env.ComesUp
  | _ => True

/-- Firing now brings the committed config back. -/
def Recoverable (path : Path) (st : CommitState) : Prop :=
  (∃ bytes, st.committed = some bytes ∧ st.fs (backupPath path) = some bytes) ∨
    (st.fs (backupPath path) = none ∧ st.fs path = st.committed)

structure Sound (path : Path) (st : CommitState) : Prop where
  armed : st.Armed → st.Recoverable path
  settled : ¬ st.Armed → st.fs path = st.committed

section Edits

variable {editor : Editor} {path : Path} {env : WorkingEnv} {settings : editor.Settings}
  {content : Str} {st : CommitState} {original : ByteArray}

theorem outcome_apply_up (held : st.fs path = some original)
    (accepted : editor.Accepted env.toEditEnv path settings st.fs content) (up : env.ComesUp)
    (commit : Commit) :
    outcome (editor.apply env.toEditEnv path settings commit) st.fs =
      (.ok (), match commit with
        | .now => erase (backupPath path) (put path (encode (editor.edited settings content))
            (put (backupPath path) original st.fs))
        | .hold => put path (encode (editor.edited settings content))
            (put (backupPath path) original st.fs)) := by
  rw [editor.outcome_accepted accepted,
    outcome_saveEdited_ok held env.backupDone env.writeDone up.1 up.2 commit]
  cases commit with
  | now => exact congrArg (Prod.mk _) (if_pos env.discardDone)
  | hold => rfl

theorem outcome_apply_down (held : st.fs path = some original)
    (accepted : editor.Accepted env.toEditEnv path settings st.fs content) (down : ¬ env.ComesUp)
    (commit : Commit) :
    ∃ e, outcome (editor.apply env.toEditEnv path settings commit) st.fs =
      (.error e, put (backupPath path) original st.fs) := by
  rw [editor.outcome_accepted accepted]
  apply outcome_saveEdited_undone _ _ held env.backupDone env.writeDone env.restoreDone
  intro restarted
  by_contra running
  exact down ⟨restarted, by simpa using running⟩

theorem holdPost_up (held : st.fs path = some original)
    (accepted : editor.Accepted env.toEditEnv path settings st.fs content) (up : env.ComesUp) :
    st.holdPost editor path env.toEditEnv settings =
      ⟨put path (encode (editor.edited settings content)) (put (backupPath path) original st.fs),
        some false, st.committed⟩ := by
  rw [holdPost, outcome_apply_up held accepted up]

theorem holdPost_down (held : st.fs path = some original)
    (accepted : editor.Accepted env.toEditEnv path settings st.fs content)
    (down : ¬ env.ComesUp) :
    st.holdPost editor path env.toEditEnv settings =
      { st with fs := put (backupPath path) original st.fs } := by
  obtain ⟨e, undone⟩ := outcome_apply_down held accepted down .hold
  rw [holdPost, undone]

theorem holdPost_rejected
    (rejected : ¬ ∃ content, editor.Accepted env.toEditEnv path settings st.fs content) :
    st.holdPost editor path env.toEditEnv settings = st := by
  obtain ⟨e, stopped⟩ := editor.outcome_rejected rejected .hold
  rw [holdPost, stopped]

theorem plainPost_up (held : st.fs path = some original)
    (accepted : editor.Accepted env.toEditEnv path settings st.fs content) (up : env.ComesUp) :
    st.plainPost editor path env.toEditEnv settings =
      ⟨erase (backupPath path) (put path (encode (editor.edited settings content))
          (put (backupPath path) original st.fs)),
        st.guard, some (encode (editor.edited settings content))⟩ := by
  rw [plainPost, outcome_apply_up held accepted up]
  simp

theorem plainPost_down (held : st.fs path = some original)
    (accepted : editor.Accepted env.toEditEnv path settings st.fs content)
    (down : ¬ env.ComesUp) :
    st.plainPost editor path env.toEditEnv settings =
      { st with fs := put (backupPath path) original st.fs } := by
  obtain ⟨e, undone⟩ := outcome_apply_down held accepted down .now
  rw [plainPost, undone]

theorem plainPost_rejected
    (rejected : ¬ ∃ content, editor.Accepted env.toEditEnv path settings st.fs content) :
    st.plainPost editor path env.toEditEnv settings = st := by
  obtain ⟨e, stopped⟩ := editor.outcome_rejected rejected .now
  rw [plainPost, stopped]

end Edits

section Timer

variable {path : Path} {st : CommitState} {bytes : ByteArray}

theorem fireTimer_restores (armed : st.Armed) (backed : st.fs (backupPath path) = some bytes)
    (discard : Except IoError Unit) :
    st.fireTimer .done discard path =
      ⟨if discard = .ok () then erase (backupPath path) (put path bytes st.fs)
        else put path bytes st.fs, some true, st.committed⟩ := by
  rw [Armed] at armed
  simp only [fireTimer, armed, revertAction, outcome_bind, outcome_revert backed,
    outcome_discardBackup]

theorem fireTimer_file (armed : st.Armed) (backed : st.fs (backupPath path) = some bytes)
    (discard : Except IoError Unit) : (st.fireTimer .done discard path).fs path = some bytes := by
  rw [fireTimer_restores armed backed]
  exact (discarded_self discard _ path).trans (put_self ..)

theorem fireTimer_no_backup (armed : st.Armed) (gone : st.fs (backupPath path) = none) :
    st.fireTimer .done (.ok ()) path =
      ⟨erase (backupPath path) st.fs, some true, st.committed⟩ := by
  rw [Armed] at armed
  simp only [fireTimer, armed, revertAction, outcome_bind, outcome_revert_missing gone,
    outcome_discardBackup_done]

end Timer

section Steps

variable {editor : Editor} {path : Path} {st : CommitState}

theorem sound_start (path : Path) (fs : Fs) : Sound path (start path fs) where
  armed armed := by cases armed
  settled _ := rfl

theorem Sound.committed (sound : Sound path st) (safe : ¬ st.Exposed path) :
    st.fs path = st.committed := by
  by_cases armed : st.Armed
  · by_contra differs
    exact safe ⟨armed, differs⟩
  · exact sound.settled armed

/-- An edit that is undone leaves the config alone and refreshes the backup. -/
theorem Sound.undone {original : ByteArray} (sound : Sound path st)
    (held : st.fs path = some original) (safe : ¬ st.Exposed path) :
    Sound path { st with fs := put (backupPath path) original st.fs } where
  armed _ := .inl ⟨original, (sound.committed safe).symm.trans held, put_self ..⟩
  settled idle := (put_backup_self ..).trans (sound.settled idle)

theorem Sound.hold {env : WorkingEnv} {settings : editor.Settings} (sound : Sound path st)
    (safe : SafeOp editor path st (.hold env settings)) :
    Sound path (st.holdPost editor path env.toEditEnv settings) := by
  by_cases passes : ∃ content, editor.Accepted env.toEditEnv path settings st.fs content
  · have hidden : ¬ st.Exposed path := fun exposed => safe exposed passes
    obtain ⟨content, accepted⟩ := passes
    obtain ⟨original, held⟩ := editor.held_of_accepted accepted
    by_cases up : env.ComesUp
    · rw [holdPost_up held accepted up]
      refine ⟨fun _ => .inl ⟨original, ?_, ?_⟩, fun idle => absurd rfl idle⟩
      · exact (sound.committed hidden).symm.trans held
      · exact (put_self_backup ..).trans (put_self ..)
    · rw [holdPost_down held accepted up]
      exact sound.undone held hidden
  · rw [holdPost_rejected passes]
    exact sound

theorem Sound.plain {env : WorkingEnv} {settings : editor.Settings} (sound : Sound path st)
    (safe : SafeOp editor path st (.plain env settings)) :
    Sound path (st.plainPost editor path env.toEditEnv settings) := by
  by_cases passes : ∃ content, editor.Accepted env.toEditEnv path settings st.fs content
  · have upOrHidden : ¬ env.ComesUp → ¬ st.Exposed path :=
      fun down exposed => down (safe exposed passes)
    obtain ⟨content, accepted⟩ := passes
    obtain ⟨original, held⟩ := editor.held_of_accepted accepted
    by_cases up : env.ComesUp
    · rw [plainPost_up held accepted up]
      have file : (erase (backupPath path) (put path (encode (editor.edited settings content))
          (put (backupPath path) original st.fs))) path =
          some (encode (editor.edited settings content)) := by
        rw [erase_backup_self, put_self]
      exact ⟨fun _ => .inr ⟨erase_self .., file⟩, fun _ => file⟩
    · rw [plainPost_down held accepted up]
      exact sound.undone held (upOrHidden up)
  · rw [plainPost_rejected passes]
    exact sound

theorem Sound.confirm (sound : Sound path st) :
    Sound path (st.confirmPending (.ok ()) path).2 := by
  unfold confirmPending
  split
  · rw [outcome_discardBackup_done]
    exact ⟨fun armed => (by cases armed), fun _ => erase_backup_self ..⟩
  · next fired =>
      refine ⟨fun armed => (by cases armed), fun _ => sound.settled ?_⟩
      simp [Armed, fired]
  · exact sound

theorem Sound.fire_restores (sound : Sound path st) (armed : st.Armed) :
    (st.fireTimer .done (.ok ()) path).fs path = (st.fireTimer .done (.ok ()) path).committed := by
  rcases sound.armed armed with ⟨bytes, committed, backed⟩ | ⟨gone, file⟩
  · rw [fireTimer_file armed backed, fireTimer_restores armed backed]
    exact committed.symm
  · rw [fireTimer_no_backup armed gone]
    exact (erase_backup_self ..).trans file

theorem not_armed_fireTimer (restore : WriteOutcome) (discard : Except IoError Unit) (path : Path)
    (st : CommitState) : ¬ (st.fireTimer restore discard path).Armed := by
  unfold fireTimer
  split
  · simp [Armed]
  · next idle => exact idle

theorem Sound.fire (sound : Sound path st) : Sound path (st.fireTimer .done (.ok ()) path) := by
  refine ⟨fun armed => absurd armed (not_armed_fireTimer .done (.ok ()) path st), fun _ => ?_⟩
  by_cases armed : st.Armed
  · exact sound.fire_restores armed
  · have same : st.fireTimer .done (.ok ()) path = st := by
      unfold fireTimer
      split
      · next running => exact absurd running armed
      · rfl
    rw [same]
    exact sound.settled armed

/-- Every operation under the condition keeps the committed config within reach. -/
theorem Sound.step {op : CommitOp editor} (sound : Sound path st)
    (safe : SafeOp editor path st op) : Sound path (st.step editor path op) := by
  cases op with
  | hold env settings => exact sound.hold safe
  | plain env settings => exact sound.plain safe
  | confirm => exact sound.confirm
  | fire => exact sound.fire

end Steps

section Runs

variable (editor : Editor) (path : Path)

def after (fs : Fs) (ops : List (CommitOp editor)) : CommitState :=
  run (step editor path) (start path fs) ops

/-- In every state of the run: right after a timer fires, and whenever none is running, the config
is the committed one. -/
structure RestoresCommitted (fs : Fs) (ops : List (CommitOp editor)) : Prop where
  fired : ∀ front, front ++ [.fire] <+: ops → (after editor path fs front).Armed →
    (after editor path fs (front ++ [.fire])).fs path =
      (after editor path fs (front ++ [.fire])).committed
  idle : ∀ front, front <+: ops → ¬ (after editor path fs front).Armed →
    (after editor path fs front).fs path = (after editor path fs front).committed

variable {editor path}

theorem sound_of_isPrefix {fs : Fs} {ops front : List (CommitOp editor)}
    (safe : Allowed (step editor path) (SafeOp editor path) (start path fs) ops)
    (reached : front <+: ops) : Sound path (after editor path fs front) :=
  invariant_prefix (sound_start path fs) (fun _ _ sound allowed => sound.step allowed) safe reached

theorem restoresCommitted_of_safe (key : PendingKey) (path : Path) (fs : Fs)
    (ops : List (CommitOp key.editor))
    (safe : Allowed (step key.editor path) (SafeOp key.editor path) (start path fs) ops) :
    RestoresCommitted key.editor path fs ops where
  fired front reached armed := by
    apply (sound_of_isPrefix safe reached).settled
    rw [after, run_concat]
    exact not_armed_fireTimer .done (.ok ()) path _
  idle front reached idle := (sound_of_isPrefix safe reached).settled idle

/-- The condition cannot be weakened: an edit that gets as far as the backup over an exposed config
and is held or undone makes the next timer bring back a config that nobody has confirmed. -/
theorem not_committed_of_not_safe {st : CommitState} {op : CommitOp editor}
    (broken : ¬ SafeOp editor path st op) :
    ((st.step editor path op).step editor path .fire).fs path ≠
      ((st.step editor path op).step editor path .fire).committed := by
  have overwritten (after : CommitState) {original : ByteArray} (armed : after.Armed)
      (backed : after.fs (backupPath path) = some original)
      (differs : some original ≠ after.committed) :
      (after.fireTimer .done (.ok ()) path).fs path ≠
        (after.fireTimer .done (.ok ()) path).committed := by
    rw [fireTimer_file armed backed, fireTimer_restores armed backed]
    exact differs
  cases op with
  | hold env settings =>
      rw [SafeOp, Classical.not_imp, not_not] at broken
      obtain ⟨exposed, content, accepted⟩ := broken
      obtain ⟨original, held⟩ := editor.held_of_accepted accepted
      have differs : some original ≠ st.committed := held ▸ exposed.2
      change ((st.holdPost editor path env.toEditEnv settings).fireTimer .done (.ok ()) path).fs
          path ≠
        ((st.holdPost editor path env.toEditEnv settings).fireTimer .done (.ok ()) path).committed
      by_cases up : env.ComesUp
      · rw [holdPost_up held accepted up]
        exact overwritten _ rfl ((put_self_backup ..).trans (put_self ..)) differs
      · rw [holdPost_down held accepted up]
        exact overwritten _ exposed.1 (put_self ..) differs
  | plain env settings =>
      rw [SafeOp, Classical.not_imp, Classical.not_imp] at broken
      obtain ⟨exposed, ⟨content, accepted⟩, down⟩ := broken
      obtain ⟨original, held⟩ := editor.held_of_accepted accepted
      have differs : some original ≠ st.committed := held ▸ exposed.2
      change ((st.plainPost editor path env.toEditEnv settings).fireTimer .done (.ok ()) path).fs
          path ≠
        ((st.plainPost editor path env.toEditEnv settings).fireTimer .done (.ok ()) path).committed
      rw [plainPost_down held accepted down]
      exact overwritten _ exposed.1 (put_self ..) differs
  | confirm => exact absurd trivial broken
  | fire => exact absurd trivial broken

def guestHold (passphrase : Str) : CommitOp PendingKey.wifi.editor :=
  .hold .willing (guestSettings passphrase)

/-- A hold, its confirmation, and a second hold that is left to its timer. -/
theorem restoresCommitted_confirm_then_hold :
    RestoresCommitted PendingKey.wifi.editor etcConf (oneFile etcConf "ssid=old\n".toList)
      [guestHold "correct horse".toList, .confirm, guestHold "battery staple".toList, .fire] := by
  apply restoresCommitted_of_safe .wifi
  refine ⟨fun exposed => ?_, trivial, fun exposed => ?_, trivial, trivial⟩
  · cases exposed.1
  · exact absurd exposed.1 (by decide +kernel)

/-- The second hold takes its backup from the first one, which nobody has confirmed. -/
theorem second_hold_loses_committed :
    ¬ RestoresCommitted PendingKey.wifi.editor etcConf (oneFile etcConf "ssid=old\n".toList)
      [guestHold "correct horse".toList, guestHold "battery staple".toList, .fire] := by
  intro restores
  have back := restores.fired [guestHold "correct horse".toList, guestHold "battery staple".toList]
    (List.prefix_refl _) (by decide +kernel)
  revert back
  decide +kernel

end Runs

end CommitState

end TinyWifi
