import TinyWifi.MacLists
import TinyWifi.StaticLeases

/-! What an auto-revert brings back when other features have edited the same config in the
meantime: they know nothing of the pending backup, and the backup nothing of them. -/

namespace TinyWifi

open Text Exec Runs HostapdConf

namespace RevertScope

def Keeps (p : Path) (fs fs' : Fs) : Prop := fs' p = fs p

theorem Keeps.refl (p : Path) (fs : Fs) : Keeps p fs fs := rfl

theorem Keeps.trans (p : Path) (a b c : Fs) (first : Keeps p a b) (second : Keeps p b c) :
    Keeps p a c := Eq.trans second first

inductive LeaseCall
  | add (env : FileEnv) (lease : StaticLease)
  | remove (env : FileEnv) (mac : Str)
  deriving DecidableEq, Repr

def LeaseCall.call (u : UnicodeData) (path : Path) : LeaseCall → Exec Fs StaticLeaseError Unit
  | .add env lease => addStaticLease u env path lease
  | .remove env mac => removeStaticLease u env path mac

structure AclCall where
  env : AclEnv
  acl : AclState

def AclCall.call (path : Path) (c : AclCall) : Exec Fs Str Unit := c.acl.apply c.env path

/-- The calls of another feature, one after the other, while an edit is held. -/
def meanwhile {ι ε : Type} (call : ι → Exec Fs ε Unit) (calls : List ι) (st : CommitState) :
    CommitState :=
  { st with fs := run (fun fs c => (outcome (call c) fs).2) st.fs calls }

def aclDirectives (path : Path) (fs : Fs) : Option (List (Str × Str)) :=
  (contentOf fs path).map fun content => (parse content).directives.filter fun d =>
    [keyMacaddrAcl, keyAcceptMacFile, keyDenyMacFile].contains d.1

section Frame

variable {p path : Path}

theorem within_writeFile (h : p ≠ path) (system : WriteOutcome) (bytes : ByteArray) :
    Within (Keeps p) (writeFile system path bytes) := writeFile_other h system bytes

theorem within_rewrite {ε : Type} (h : p ≠ path) (env : FileEnv) (io : IoError → ε)
    (edited : Fs → Except ε Str) : Within (Keeps p) (rewrite env io path edited) :=
  within_bind (Keeps.trans p) (within_reading (Keeps.refl p) edited) fun text =>
    within_mapError (within_writeFile h env.write (encode text))

theorem within_lease (h : p ≠ path) (u : UnicodeData) (c : LeaseCall) :
    Within (Keeps p) (c.call u path) := by
  cases c with
  | add env lease => exact within_rewrite h env _ _
  | remove env mac => exact within_rewrite h env _ _

theorem within_acl (h : p ≠ path) (notAccept : p ≠ hostapdAcceptFile)
    (notDeny : p ≠ hostapdDenyFile) (c : AclCall) : Within (Keeps p) (c.call path) := by
  have lists : Within (Keeps p) (c.acl.writeLists c.env) := fun fs =>
    (c.acl.writeLists_kept c.env fs).others p notAccept notDeny
  apply within_bind (Keeps.trans p) lists
  intro _
  apply within_bind (Keeps.trans p) (within_reading (Keeps.refl p) _)
  intro text
  apply within_bind (Keeps.trans p) (within_mapError (within_writeFile h _ _))
  intro _
  exact within_reading (Keeps.refl p) _

theorem meanwhile_keeps {ι ε : Type} {call : ι → Exec Fs ε Unit}
    (kept : ∀ c, Within (Keeps p) (call c)) (calls : List ι) (st : CommitState) :
    (meanwhile call calls st).fs p = st.fs p := by
  change run _ st.fs calls p = st.fs p
  generalize st.fs = fs
  induction calls generalizing fs with
  | nil => rfl
  | cons c rest ih =>
      calc run _ fs (c :: rest) p
        _ = (outcome (call c) fs).2 p := ih (outcome (call c) fs).2
        _ = fs p := kept c fs

end Frame

section Hold

variable {path : Path} {fs fs' : Fs}

theorem backup_of_held {ε : Type} {env : EditEnv} {errors : SaveErrors ε} {text : Str}
    {original : ByteArray} (found : fs path = some original)
    (held : outcome (saveEdited env errors path text .hold) fs = (.ok (), fs')) :
    fs' (backupPath path) = some original := by
  rcases (saveEdited_ok_iff found .hold).mp (congrArg Prod.fst held) with
    ⟨backed, written, restarted, running⟩
  rw [outcome_saveEdited_ok found backed written restarted running] at held
  have after : put path (encode text) (put (backupPath path) original fs) = fs' :=
    congrArg Prod.snd held
  rw [← after, put_self_backup, put_self]

theorem backup_of_holdPost {editor : Editor} {env : EditEnv} {settings : editor.Settings}
    {st : CommitState}
    (held : (outcome (editor.apply env path settings .hold) st.fs).1 = .ok ()) :
    (st.holdPost editor path env settings).Armed ∧ ∃ original, st.fs path = some original ∧
      (st.holdPost editor path env settings).fs (backupPath path) = some original := by
  by_cases passes : ∃ content, editor.Accepted env path settings st.fs content
  · rcases passes with ⟨content, accepted⟩
    rcases editor.held_of_accepted accepted with ⟨original, found⟩
    rw [editor.outcome_accepted accepted] at held
    rw [CommitState.holdPost, editor.outcome_accepted accepted]
    rcases shape : outcome (saveEdited env editor.errors path (editor.edited settings content)
      .hold) st.fs with ⟨e | u, after⟩
    · rw [shape] at held
      cases held
    · exact ⟨rfl, original, found, backup_of_held found shape⟩
  · rcases editor.outcome_rejected passes .hold with ⟨e, stopped⟩
    rw [stopped] at held
    cases held

/-- The whole config of the backup comes back, or the copy is refused and it stays as it is. -/
theorem fireTimer_file {st : CommitState} {original : ByteArray} (armed : st.Armed)
    (backed : st.fs (backupPath path) = some original) (discard : Except IoError Unit) :
    (st.fireTimer .done discard path).fs path = some original ∧
      ∀ e, (st.fireTimer (.refused e) discard path).fs path = st.fs path := by
  refine ⟨CommitState.fireTimer_file armed backed discard, ?_⟩
  · intro e
    rw [CommitState.Armed] at armed
    have unchanged : outcome (revert (.refused e) path : Exec Fs IoError Unit) st.fs =
        (.ok (), st.fs) := by
      rw [revert, outcome_attempt, restoreBackup, outcome_copyFile backed]
      rfl
    simp only [CommitState.fireTimer, armed, CommitState.revertAction, outcome_bind, unchanged,
      outcome_discardBackup, discarded_self]

end Hold

/-- What is reported of the files when the timer has fired is what was reported before the edit was
held; if the copy of the backup is refused, it is what was reported just before. -/
structure BringsBack {β : Type} (report : Fs → β) (path : Path) (start before : CommitState) :
    Prop where
  restored : ∀ discard, report (before.fireTimer .done discard path).fs = report start.fs
  refused : ∀ e discard, report (before.fireTimer (.refused e) discard path).fs = report before.fs

section Report

variable {path : Path} {fs fs' : Fs}

theorem bringsBack {editor : Editor} {env : EditEnv} {settings : editor.Settings}
    {st : CommitState} {β ι ε : Type} {report : Fs → β} {call : ι → Exec Fs ε Unit}
    (reads : ∀ fs fs', fs path = fs' path → report fs = report fs')
    (kept : ∀ c, Within (Keeps (backupPath path)) (call c))
    (held : (outcome (editor.apply env path settings .hold) st.fs).1 = .ok ()) (calls : List ι) :
    BringsBack report path st (meanwhile call calls (st.holdPost editor path env settings)) := by
  rcases backup_of_holdPost held with ⟨armed, original, found, backed⟩
  have pending := (meanwhile_keeps kept calls _).trans backed
  have fired := @fireTimer_file path (meanwhile call calls _) original armed pending
  exact ⟨fun discard => reads _ _ ((fired discard).1.trans found.symm),
    fun e discard => reads _ _ ((fired discard).2 e)⟩

theorem listStaticLeases_congr (u : UnicodeData) (readable : Bool) (same : fs path = fs' path) :
    listStaticLeases u readable path fs = listStaticLeases u readable path fs' := by
  simp only [listStaticLeases, DhcpConf.fromPath, fileExists, readToString, same]

theorem aclDirectives_congr (same : fs path = fs' path) :
    aclDirectives path fs = aclDirectives path fs' := by
  simp only [aclDirectives, contentOf, same]

end Report

/-- An auto-revert brings the leases, or the directives of the MAC lists, back to what they were
when the edit was held, whatever was done to them while it was pending. -/
theorem revert_brings_back :
    (∀ (u : UnicodeData) (path : Path) (st : CommitState) (env : EditEnv) (settings : DhcpSettings)
      (calls : List LeaseCall), (outcome (stageDhcp env path settings) st.fs).1 = .ok () →
      BringsBack (listStaticLeases u true path) path st
        (meanwhile (LeaseCall.call u path) calls (st.holdPost dhcpEditor path env settings))) ∧
    ∀ (path : HostapdPath) (st : CommitState) (env : EditEnv) (settings : WifiSettings)
      (calls : List AclCall), (outcome (stageWifi env path.path settings) st.fs).1 = .ok () →
      BringsBack (aclDirectives path.path) path.path st
        (meanwhile (AclCall.call path.path) calls
          (st.holdPost wifiEditor path.path env settings)) := by
  constructor
  · intro u path st env settings calls held
    exact @bringsBack path dhcpEditor env settings st _ _ _ _ _
      (fun _ _ same => listStaticLeases_congr u true same)
      (fun c => within_lease (backupPath_ne path) u c) held calls
  · intro path st env settings calls held
    exact @bringsBack path.path wifiEditor env settings st _ _ _ _ _
      (fun _ _ same => aclDirectives_congr same)
      (fun c => within_acl (backupPath_ne path.path) path.backupNotAccept path.backupNotDeny c)
      held calls

def office : CommitState :=
  .start StaticLeases.etcNanodhcp
    (oneFile StaticLeases.etcNanodhcp (DhcpEdits.confOn "wlan0"))

def addTv : LeaseCall :=
  .add .willing ⟨"tv".toList, "aa:bb:cc:dd:ee:ff".toList, ⟨192, 168, 1, 5⟩⟩

def removeTv : LeaseCall := .remove .willing "aa:bb:cc:dd:ee:ff".toList

def oldAp : CommitState := .start etcConf (oneFile etcConf "ssid=old\n".toList)

def allowTv : AclCall := ⟨.willing, ⟨.whitelist, ["aa:bb:cc:dd:ee:ff".toList]⟩⟩

/-- A held edit of each config, with calls while it is pending. -/
theorem brings_back_office :
    BringsBack (listStaticLeases .ascii true StaticLeases.etcNanodhcp) StaticLeases.etcNanodhcp
        office (meanwhile (LeaseCall.call .ascii StaticLeases.etcNanodhcp) [addTv, removeTv]
          (office.holdPost dhcpEditor StaticLeases.etcNanodhcp .willing DhcpEdits.officeSettings)) ∧
      BringsBack (aclDirectives etcConf) etcConf oldAp
        (meanwhile (AclCall.call etcConf) [allowTv]
          (oldAp.holdPost wifiEditor etcConf .willing (guestSettings "correct horse".toList))) := by
  have staged : (outcome (stageDhcp .willing StaticLeases.etcNanodhcp DhcpEdits.officeSettings)
      office.fs).1 = .ok () := by decide +kernel
  have edited : (outcome (stageWifi .willing etcConf (guestSettings "correct horse".toList))
      oldAp.fs).1 = .ok () := by decide +kernel
  exact ⟨revert_brings_back.1 .ascii _ office .willing _ [addTv, removeTv] staged,
    revert_brings_back.2 .etc oldAp .willing _ [allowTv] edited⟩

/-- A lease, or a list, that came in the meantime goes with the edit. -/
theorem revert_takes_more :
    (let held := office.holdPost dhcpEditor StaticLeases.etcNanodhcp .willing
        DhcpEdits.officeSettings
      let before := meanwhile (LeaseCall.call .ascii StaticLeases.etcNanodhcp) [addTv] held
      (outcome (stageDhcp .willing StaticLeases.etcNanodhcp DhcpEdits.officeSettings)
          office.fs).1 = .ok () ∧
        (outcome (addTv.call .ascii StaticLeases.etcNanodhcp) held.fs).1 = .ok () ∧
        listStaticLeases .ascii true StaticLeases.etcNanodhcp
            (before.fireTimer .done (.ok ()) StaticLeases.etcNanodhcp).fs ≠
          listStaticLeases .ascii true StaticLeases.etcNanodhcp before.fs) ∧
      let held := oldAp.holdPost wifiEditor etcConf .willing (guestSettings "correct horse".toList)
      let before := meanwhile (AclCall.call etcConf) [allowTv] held
      (outcome (stageWifi .willing etcConf (guestSettings "correct horse".toList)) oldAp.fs).1 =
          .ok () ∧
        (outcome (allowTv.call etcConf) held.fs).1 = .ok () ∧
        aclDirectives etcConf (before.fireTimer .done (.ok ()) etcConf).fs ≠
          aclDirectives etcConf before.fs := by
  decide +kernel

end RevertScope

end TinyWifi
