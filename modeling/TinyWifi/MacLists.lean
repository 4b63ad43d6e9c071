import TinyWifi.AclApply
import TinyWifi.CommitConfirm
import TinyWifi.WifiWriteback

/-! The MAC lists that `hostapd.conf` points at, over any interleaving of ACL applies, held Wi-Fi
edits, confirmations and timers. -/

namespace TinyWifi

open Text Exec Runs HostapdConf

/-- Where the access point's config is. Neither it nor its backup is one of the list files. -/
structure HostapdPath where
  path : Path
  notAccept : path ≠ hostapdAcceptFile
  notDeny : path ≠ hostapdDenyFile
  backupNotAccept : backupPath path ≠ hostapdAcceptFile
  backupNotDeny : backupPath path ≠ hostapdDenyFile

def HostapdPath.etc : HostapdPath := ⟨etcConf, by decide, by decide, by decide, by decide⟩

/-- What a reader of lines sees; without UTF-8 every byte is a character. -/
def asText (bytes : ByteArray) : Str :=
  (decode bytes).getD (bytes.data.toList.map fun byte => Char.ofNat byte.toNat)

def listsOf (bytes : ByteArray) : List Path := AclState.named (parse (asText bytes)).directives

/-- Every `accept_mac_file` and `deny_mac_file` directive names a file that exists. -/
def NamesExist (path : Path) (fs : Fs) : Prop :=
  ∀ p ∈ ((fs path).map listsOf).getD [], fileExists fs p = true

instance (path : Path) (fs : Fs) : Decidable (NamesExist path fs) := List.decidableBAll _ _

inductive ListOp
  | apply (env : AclEnv) (acl : AclState)
  | hold (env : EditEnv) (settings : WifiSettings)
  | confirm (discard : Except IoError Unit)
  | fire (restore : WriteOutcome) (discard : Except IoError Unit)

namespace MacLists

def step (path : HostapdPath) (st : CommitState) : ListOp → CommitState
  | .apply env acl => { st with fs := (outcome (acl.apply env path.path) st.fs).2 }
  | .hold env settings => st.holdPost wifiEditor path.path env settings
  | .confirm discard => (st.confirmPending discard path.path).2
  | .fire restore discard => st.fireTimer restore discard path.path

def Rewrites (env : AclEnv) (bytes : ByteArray) : Prop :=
  env.readable = true ∧ env.writeConf = .done ∧ (decode bytes).isSome = true

instance (env : AclEnv) (bytes : ByteArray) : Decidable (Rewrites env bytes) :=
  inferInstanceAs (Decidable (_ ∧ _ ∧ _))

def StaysNamed (env : AclEnv) (mode : AclMode) (bytes : ByteArray) (p : Path) : Prop :=
  if Rewrites env bytes then
    p ∈ AclState.leftover mode (parse (asText bytes)).directives
  else p ∈ listsOf bytes

/-- An apply removes no list file that the config goes on naming, and none that the backup of a
pending edit names. No write of the config or of a backup that is going to be restored breaks off,
and an edit writes no directive of its own through a line break in the SSID or the passphrase. -/
def SafeOp (path : HostapdPath) (st : CommitState) : ListOp → Prop
  | .apply env acl =>
    env.writeConf.Whole ∧
      (∀ bytes, st.fs path.path = some bytes → ∀ p ∈ AclState.dropped env acl.mode,
        ¬ StaysNamed env acl.mode bytes p) ∧
      (st.Armed → ∀ bytes, st.fs (backupPath path.path) = some bytes →
        ∀ p ∈ AclState.dropped env acl.mode, p ∉ listsOf bytes)
  | .hold env settings =>
    (∃ content, WifiAccepted env path.path settings st.fs content) →
      '\n' ∉ settings.ssid ∧ '\n' ∉ settings.passphrase ∧ env.write.Whole ∧ env.restore.Whole ∧
        (st.Armed → env.backup.Whole)
  | .confirm _ => True
  | .fire restore _ => st.Armed → restore.Whole

/-- The lists that a config names are there, under paths that survive a rewrite of the config and
the removal of its backup. -/
def Intact (path : Path) (fs : Fs) (bytes : ByteArray) : Prop :=
  ∀ p ∈ listsOf bytes, fileExists fs p = true ∧ ¬ EndsCr p ∧ p ≠ backupPath path

structure Sound (path : HostapdPath) (st : CommitState) : Prop where
  conf : ∀ bytes, st.fs path.path = some bytes → Intact path.path st.fs bytes
  pending : st.Armed → ∀ bytes, st.fs (backupPath path.path) = some bytes →
    Intact path.path st.fs bytes

section Reading

variable {bytes : ByteArray} {content : Str}

theorem asText_of_decode (h : decode bytes = some content) : asText bytes = content := by
  rw [asText, h, Option.getD_some]

theorem listsOf_encode (text : Str) :
    listsOf (encode text) = AclState.named (parse text).directives := by
  rw [listsOf, asText_of_decode (decode_encode text)]

theorem Intact.mono {path : Path} {fs fs' : Fs} (intact : Intact path fs bytes)
    (kept : ∀ p ∈ listsOf bytes, p ≠ backupPath path → fileExists fs p = true →
      fileExists fs' p = true) : Intact path fs' bytes := by
  intro p member
  obtain ⟨present, cr, notBackup⟩ := intact p member
  exact ⟨kept p member notBackup present, cr, notBackup⟩

theorem listsOf_wifiEdited {path : Path} {fs : Fs} {settings : WifiSettings}
    (found : decode bytes = some content) (valid : settings.validate = .ok ())
    (ssid : '\n' ∉ settings.ssid) (passphrase : '\n' ∉ settings.passphrase)
    (intact : Intact path fs bytes) :
    listsOf (encode (wifiEdited settings content)) = listsOf bytes := by
  have same : listsOf bytes = AclState.named (parse content).directives := by
    rw [listsOf, asText_of_decode found]
  rw [listsOf_encode, wifiEdited, AclState.named_parse_display, AclState.named_apply, same]
  · exact faithful_apply valid ssid passphrase
  · intro p member
    rw [AclState.named_apply, ← same] at member
    exact (intact p member).2.1

end Reading

section Steps

variable {path : HostapdPath} {st : CommitState}

/-- An apply that stops before the config leaves every list that the config names. -/
theorem Sound.conf_of_not_rewritten {env : AclEnv} {acl : AclState} (sound : Sound path st)
    (safe : SafeOp path st (.apply env acl))
    (stopped : ¬ ((outcome (acl.writeLists env) st.fs).1 = .ok () ∧ env.readable = true ∧
      env.writeConf = .done ∧
      ∃ content, contentOf (outcome (acl.writeLists env) st.fs).2 path.path = some content))
    {bytes : ByteArray} (held : st.fs path.path = some bytes) :
    Intact path.path (outcome (acl.writeLists env) st.fs).2 bytes := by
  have lists := acl.writeLists_kept env st.fs
  apply (sound.conf bytes held).mono
  intro p member notBackup present
  apply lists.kept p _ present
  intro removed
  have still := safe.2.1 bytes held p removed
  by_cases ended : (outcome (acl.writeLists env) st.fs).1 = .ok ()
  · have same := (lists.others path.path path.notAccept path.notDeny).trans held
    have notRewritten : ¬ Rewrites env bytes := by
      intro rewritten
      obtain ⟨content, found⟩ := Option.isSome_iff_exists.mp rewritten.2.2
      refine stopped ⟨ended, rewritten.1, rewritten.2.1, content, ?_⟩
      rw [contentOf, same, Option.bind_some, found]
    rw [StaysNamed, if_neg notRewritten] at still
    exact still member
  · rw [lists.stopped ended] at removed
    cases removed

/-- The config that an apply writes names the list it has just written and further directives
whose files were left alone. -/
theorem Sound.conf_of_rewritten {env : AclEnv} {acl : AclState} (sound : Sound path st)
    (safe : SafeOp path st (.apply env acl))
    (ended : (outcome (acl.writeLists env) st.fs).1 = .ok ()) (readable : env.readable = true)
    (written : env.writeConf = .done) {bytes : ByteArray} {content : Str}
    (held : st.fs path.path = some bytes) (found : decode bytes = some content) :
    Intact path.path (outcome (acl.writeLists env) st.fs).2
      (encode (AclState.editConf acl.mode (parse content)).display) := by
  have lists := acl.writeLists_kept env st.fs
  have before := sound.conf bytes held
  have read := asText_of_decode found
  rw [Intact, listsOf, read] at before
  rw [Intact, listsOf_encode, AclState.named_edited acl.mode content fun p member =>
    (before p member).2.1]
  intro p member
  rw [List.mem_append, Option.mem_toList] at member
  rcases member with file | rest
  · refine ⟨lists.listed ended p file, ?_⟩
    rcases AclState.listFile_mem file with rfl | rfl
    · exact ⟨by decide, path.backupNotAccept.symm⟩
    · exact ⟨by decide, path.backupNotDeny.symm⟩
  · obtain ⟨present, fits⟩ := before p (AclState.mem_named_of_mem_leftover rest)
    refine ⟨lists.kept p (fun removed => ?_) present, fits⟩
    have still := safe.2.1 bytes held p removed
    have rewrites : Rewrites env bytes := ⟨readable, written, by rw [found]; rfl⟩
    rw [StaysNamed, if_pos rewrites, read] at still
    exact still rest

theorem Sound.apply {env : AclEnv} {acl : AclState} (sound : Sound path st)
    (safe : SafeOp path st (.apply env acl)) :
    Sound path { st with fs := (outcome (acl.apply env path.path) st.fs).2 } := by
  have lists := acl.writeLists_kept env st.fs
  have confKept := lists.others path.path path.notAccept path.notDeny
  have backupKept := lists.others (backupPath path.path) path.backupNotAccept path.backupNotDeny
  have pending (armed : st.Armed) (bytes : ByteArray)
      (backed : st.fs (backupPath path.path) = some bytes) :
      Intact path.path (outcome (acl.writeLists env) st.fs).2 bytes := by
    apply (sound.pending armed bytes backed).mono
    intro p member notBackup present
    exact lists.kept p (fun removed => safe.2.2 armed bytes backed p removed member) present
  rcases acl.apply_files env path.path st.fs safe.1 with
    ⟨same, stopped⟩ | ⟨ended, readable, written, content, found, after⟩
  · rw [same]
    exact ⟨fun bytes held => sound.conf_of_not_rewritten safe stopped (confKept.symm.trans held),
      fun armed bytes backed => pending armed bytes (backupKept.symm.trans backed)⟩
  · rw [contentOf, confKept] at found
    obtain ⟨bytes, held, decoded⟩ := Option.bind_eq_some_iff.mp found
    have grown {p : Path} (h : fileExists (outcome (acl.writeLists env) st.fs).2 p = true) :=
      AclState.isSome_put h path.path
        (encode (AclState.editConf acl.mode (parse content)).display)
    rw [after]
    constructor
    · intro new put
      obtain rfl := Option.some_inj.mp ((put_self ..).symm.trans put)
      apply (sound.conf_of_rewritten safe ended readable written held decoded).mono
      exact fun p _ _ present => grown present
    · intro armed old backed
      apply (pending armed old
        (backupKept.symm.trans ((put_self_backup ..).symm.trans backed))).mono
      exact fun p _ _ present => grown present

theorem Intact.held_save {ε : Type} {env : EditEnv} {path : Path} {text : Str}
    {original bytes : ByteArray} {fs : Fs} {result : Except ε Unit × Fs}
    (saved : HeldSave env path text original fs result) (intact : Intact path fs bytes) :
    Intact path result.2 bytes := by
  apply intact.mono
  intro p member notBackup present
  by_cases conf : p = path
  · subst p
    rcases saved.conf with same | edited
    · rw [fileExists, same, Option.isSome_some]
    · rw [fileExists, edited, Option.isSome_some]
  · rwa [fileExists, saved.others p conf notBackup]

theorem Intact.of_lists {path : Path} {fs : Fs} {bytes other : ByteArray}
    (intact : Intact path fs bytes) (same : listsOf other = listsOf bytes) :
    Intact path fs other := by
  intro p member
  exact intact p (same ▸ member)

theorem Sound.hold {env : EditEnv} {settings : WifiSettings} (sound : Sound path st)
    (safe : SafeOp path st (.hold env settings)) :
    Sound path (st.holdPost wifiEditor path.path env settings) := by
  unfold CommitState.holdPost
  by_cases passes : ∃ content, WifiAccepted env path.path settings st.fs content
  · obtain ⟨ssid, passphrase, written, restored, backup⟩ := safe passes
    obtain ⟨content, accepted⟩ := passes
    obtain ⟨original, held, decoded⟩ := Option.bind_eq_some_iff.mp accepted.found
    have saved := saveEdited_held wifiEditor.errors held written restored
      (wifiEditor.edited settings content)
    have before := (sound.conf original held).held_save saved
    have edited := listsOf_wifiEdited decoded accepted.valid ssid passphrase
      (sound.conf original held)
    have conf (bytes : ByteArray) (found : (outcome (saveEdited env wifiEditor.errors path.path
        (wifiEditor.edited settings content) .hold) st.fs).2 path.path = some bytes) :
        Intact path.path (outcome (saveEdited env wifiEditor.errors path.path
          (wifiEditor.edited settings content) .hold) st.fs).2 bytes := by
      rcases saved.conf with same | new
      · obtain rfl := Option.some_inj.mp (same.symm.trans found)
        exact before
      · obtain rfl := Option.some_inj.mp (new.symm.trans found)
        exact before.of_lists edited
    have ran := wifiEditor.outcome_accepted accepted .hold
    rw [ran]
    have pending := fun armed bytes backed => (sound.pending armed bytes backed).held_save saved
    revert saved before conf pending
    rcases outcome (saveEdited env wifiEditor.errors path.path
      (wifiEditor.edited settings content) .hold) st.fs with ⟨e | u, fs⟩
    · intro saved before conf pending
      refine ⟨conf, fun armed bytes backed => ?_⟩
      rcases saved.kept (backup armed) with same | copied
      · exact pending armed bytes (same.symm.trans backed)
      · obtain rfl := Option.some_inj.mp (copied.symm.trans backed)
        exact before
    · intro saved before conf pending
      refine ⟨conf, fun armed bytes backed => ?_⟩
      obtain rfl := Option.some_inj.mp ((saved.held rfl).symm.trans backed)
      exact before
  · obtain ⟨e, stopped⟩ := wifiEditor.outcome_rejected passes .hold
    rw [stopped]
    exact sound

theorem Intact.discard {path : Path} {fs : Fs} {bytes : ByteArray} (intact : Intact path fs bytes)
    (discard : Except IoError Unit) :
    Intact path (if discard = .ok () then erase (backupPath path) fs else fs) bytes := by
  split
  · apply intact.mono
    intro p member notBackup present
    rwa [fileExists, erase_of_ne notBackup]
  · exact intact

theorem Sound.confirm (sound : Sound path st) (discard : Except IoError Unit) :
    Sound path (st.confirmPending discard path.path).2 := by
  unfold CommitState.confirmPending
  split
  · rw [outcome_discardBackup]
    constructor
    · intro bytes held
      exact (sound.conf bytes ((discarded_self ..).symm.trans held)).discard discard
    · intro armed
      cases armed
  · exact ⟨sound.conf, fun armed => by cases armed⟩
  · exact sound

theorem outcome_revertAction {restore : WriteOutcome} (whole : restore.Whole)
    (discard : Except IoError Unit) (path : Path) (fs : Fs) :
    (outcome (CommitState.revertAction restore discard path) fs).2 =
        (if discard = .ok () then erase (backupPath path) fs else fs) ∨
      ∃ bytes, fs (backupPath path) = some bytes ∧
        (outcome (CommitState.revertAction restore discard path) fs).2 =
          if discard = .ok () then erase (backupPath path) (put path bytes fs)
          else put path bytes fs := by
  rw [CommitState.revertAction, outcome_bind]
  cases backed : fs (backupPath path) with
  | none =>
      rw [outcome_revert_missing backed]
      dsimp only
      rw [outcome_discardBackup]
      exact .inl rfl
  | some bytes =>
      cases restore with
      | done =>
          rw [outcome_revert backed]
          dsimp only
          rw [outcome_discardBackup]
          exact .inr ⟨bytes, rfl, rfl⟩
      | refused error =>
          rw [revert, outcome_attempt, restoreBackup, outcome_copyFile backed, writeFile,
            outcome_throw]
          dsimp only
          rw [outcome_discardBackup]
          exact .inl rfl
      | cut count error => exact absurd rfl (whole count error)

theorem Sound.fire {restore : WriteOutcome} {discard : Except IoError Unit} (sound : Sound path st)
    (safe : SafeOp path st (.fire restore discard)) :
    Sound path (st.fireTimer restore discard path.path) := by
  unfold CommitState.fireTimer
  split
  · next running =>
      refine ⟨fun bytes held => ?_, fun armed => by cases armed⟩
      dsimp only at held ⊢
      rcases outcome_revertAction (safe running) discard path.path st.fs with
        same | ⟨old, backed, restored⟩
      · rw [same] at held ⊢
        exact (sound.conf bytes ((discarded_self ..).symm.trans held)).discard discard
      · rw [restored] at held ⊢
        obtain rfl := Option.some_inj.mp ((put_self ..).symm.trans
          ((discarded_self ..).symm.trans held))
        apply Intact.discard
        apply (sound.pending running old backed).mono
        exact fun p _ _ present => AclState.isSome_put present path.path old
  · exact sound

theorem Sound.step {op : ListOp} (sound : Sound path st) (safe : SafeOp path st op) :
    Sound path (MacLists.step path st op) := by
  cases op with
  | apply env acl => exact sound.apply safe
  | hold env settings => exact sound.hold safe
  | confirm discard => exact sound.confirm discard
  | fire restore discard => exact sound.fire safe

end Steps

section Runs

variable {path : HostapdPath} {st : CommitState}

theorem Sound.namesExist (sound : Sound path st) : NamesExist path.path st.fs := by
  intro p member
  cases held : st.fs path.path with
  | none =>
      rw [held] at member
      cases member
  | some bytes =>
      rw [held] at member
      exact (sound.conf bytes held p member).1

/-- In every state of the run, the config names no list file that is missing. -/
def NamesExistAlong (path : HostapdPath) (st : CommitState) (ops : List ListOp) : Prop :=
  ∀ front, front <+: ops → NamesExist path.path (run (step path) st front).fs

theorem names_exist_of_safe (path : HostapdPath) (st : CommitState) (ops : List ListOp)
    (sound : Sound path st) (safe : Allowed (step path) (SafeOp path) st ops) :
    NamesExistAlong path st ops := by
  intro front reached
  have kept : Sound path (run (step path) st front) :=
    invariant_prefix sound (fun _ _ sound allowed => sound.step allowed) safe reached
  exact kept.namesExist

def denying : CommitState :=
  .start etcConf (put hostapdDenyFile (encode "aa:bb:cc:dd:ee:ff\n".toList)
    (oneFile etcConf "ssid=old\ndeny_mac_file=/etc/hostapd/hostapd.deny\n".toList))

def guestEdit : ListOp := .hold .willing (guestSettings "correct horse".toList)

/-- Turn the deny list into an accept list, then edit the Wi-Fi and let the timer fire. -/
theorem names_exist_after_whitelist :
    NamesExistAlong .etc denying
      [.apply .willing ⟨.whitelist, ["aa:bb:cc:dd:ee:ff".toList]⟩, guestEdit,
        .fire .done (.ok ())] := by
  apply names_exist_of_safe .etc
  · constructor
    · intro bytes held
      obtain rfl := Option.some_inj.mp held
      unfold Intact
      decide +kernel
    · intro armed
      cases armed
  · refine ⟨⟨nofun, ?_, fun armed => by cases armed⟩, ?_, fun _ => nofun, trivial⟩
    · intro bytes held
      obtain rfl := Option.some_inj.mp held
      unfold StaysNamed
      decide +kernel
    · intro passes
      exact ⟨by decide, by decide, nofun, nofun, fun _ => nofun⟩

/-- The apply removes the deny list that the backup of the held edit names. -/
theorem timer_restores_missing_list :
    NamesExist etcConf denying.fs ∧
      ¬ NamesExistAlong .etc denying
        [guestEdit, .apply .willing ⟨.whitelist, ["aa:bb:cc:dd:ee:ff".toList]⟩,
          .fire .done (.ok ())] := by
  refine ⟨by decide +kernel, fun along => ?_⟩
  have exist := along _ (List.prefix_refl _)
  revert exist
  decide +kernel

end Runs

end MacLists

end TinyWifi
