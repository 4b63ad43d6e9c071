import TinyWifi.AclApply
import TinyWifi.GuardedEdit
import TinyWifi.HostapdEdits
import TinyWifi.Lib.Runs

/-! One `AclState::apply` after the other: what the last one leaves does not depend on the modes
before it. -/

namespace TinyWifi

open Text Exec HostapdConf HostapdEdits Runs

namespace AclModes

def aclKeys : List Str := [keyMacaddrAcl, keyAcceptMacFile, keyDenyMacFile]

structure Call where
  env : AclEnv
  acl : AclState

/-- Every file operation of the call succeeds; the restart of the service is not one. -/
structure Succeeds (env : AclEnv) : Prop where
  createDir : env.createDir = .ok ()
  writeMacs : env.writeMacs = .done
  removeAccept : env.removeAccept = .ok ()
  removeDeny : env.removeDeny = .ok ()
  readable : env.readable = true
  writeConf : env.writeConf = .done

def step (path : Path) (fs : Fs) (call : Call) : Fs :=
  (outcome (call.acl.apply call.env path) fs).2

/-- The directives say which mode it is. -/
def Directs (conf : HostapdConf) : AclMode → Prop
  | .whitelist => conf.get keyMacaddrAcl = some ['1'] ∧
      conf.get keyAcceptMacFile = some hostapdAcceptFile ∧ conf.get keyDenyMacFile = none
  | .blacklist => conf.get keyMacaddrAcl = some ['0'] ∧
      conf.get keyDenyMacFile = some hostapdDenyFile ∧ conf.get keyAcceptMacFile = none
  | .disabled => conf.get keyMacaddrAcl = some ['0'] ∧
      conf.get keyAcceptMacFile = none ∧ conf.get keyDenyMacFile = none

/-- The list file of the mode has the list, one address on each line; there is no other. -/
def Lists (fs : Fs) (acl : AclState) : Prop :=
  match acl.mode with
  | .whitelist =>
    contentOf fs hostapdAcceptFile = some (unlines acl.macs) ∧ fs hostapdDenyFile = none
  | .blacklist =>
    contentOf fs hostapdDenyFile = some (unlines acl.macs) ∧ fs hostapdAcceptFile = none
  | .disabled => fs hostapdAcceptFile = none ∧ fs hostapdDenyFile = none

def AtMostOnce (conf : HostapdConf) : Prop :=
  ∀ key ∈ aclKeys, (Directives.values key conf.directives).length ≤ 1

def otherDirectives (conf : HostapdConf) : List (Str × Str) :=
  Directives.others aclKeys conf.directives

/-- The config can be edited further, and has the directives of the first one besides those of the
modes. -/
structure Ready (path : Path) (text : Str) (fs : Fs) (content : Str) : Prop where
  found : contentOf fs path = some content
  no_cr : '\r' ∉ content
  once : AtMostOnce (parse content)
  others : otherDirectives (parse content) = otherDirectives (parse text)

structure Settled (path : Path) (text : Str) (acl : AclState) (fs : Fs) : Prop where
  reread : ∃ content, contentOf fs path = some content ∧ Directs (parse content) acl.mode ∧
    AtMostOnce (parse content) ∧ otherDirectives (parse content) = otherDirectives (parse text)
  lists : Lists fs acl

section Edit

def edits : AclMode → List Edit
  | .whitelist => [.set keyMacaddrAcl ['1'], .set keyAcceptMacFile hostapdAcceptFile,
      .removeKey keyDenyMacFile]
  | .blacklist => [.set keyMacaddrAcl ['0'], .set keyDenyMacFile hostapdDenyFile,
      .removeKey keyAcceptMacFile]
  | .disabled => [.set keyMacaddrAcl ['0'], .removeKey keyAcceptMacFile, .removeKey keyDenyMacFile]

theorem editConf_eq (mode : AclMode) (content : Str) :
    AclState.editConf mode (parse content) = edited content (edits mode) := by
  cases mode <;> rfl

theorem edits_keys (mode : AclMode) : ∀ edit ∈ edits mode, edit.key ∈ aclKeys := by
  cases mode <;> decide

theorem edits_allowed (mode : AclMode) : ∀ edit ∈ edits mode, edit.Allowed := by
  have keys : IsKey keyMacaddrAcl ∧ IsKey keyAcceptMacFile ∧ IsKey keyDenyMacFile := by decide
  intro edit member
  cases mode <;> simp only [edits, List.mem_cons, List.not_mem_nil, or_false] at member
  · rcases member with rfl | rfl | rfl
    · exact ⟨keys.1, by decide, by decide⟩
    · exact keys.2.1
    · exact keys.2.2
  · rcases member with rfl | rfl | rfl
    · exact ⟨keys.1, by decide, by decide⟩
    · exact ⟨keys.2.1, by decide, by decide⟩
    · exact keys.2.2
  · rcases member with rfl | rfl | rfl
    · exact ⟨keys.1, by decide, by decide⟩
    · exact ⟨keys.2.2, by decide, by decide⟩
    · exact keys.2.1

variable {conf : HostapdConf}

theorem others_apply {edit : Edit} (member : edit.key ∈ aclKeys) :
    otherDirectives (edit.apply conf) = otherDirectives conf := by
  cases edit with
  | set key value =>
      rw [otherDirectives, Edit.apply, directives_set, Directives.others_put key value member,
        otherDirectives]
  | removeKey key =>
      rw [otherDirectives, Edit.apply, directives_removeKey, Directives.others_remove key member,
        otherDirectives]

theorem others_foldl {list : List Edit} (keys : ∀ edit ∈ list, edit.key ∈ aclKeys) :
    otherDirectives (list.foldl Edit.apply conf) = otherDirectives conf := by
  induction list generalizing conf with
  | nil => rfl
  | cons edit rest ih =>
      rw [List.foldl_cons, ih fun other member => keys other (List.mem_cons_of_mem edit member),
        others_apply (keys edit List.mem_cons_self)]

theorem once_apply (once : AtMostOnce conf) (edit : Edit) : AtMostOnce (edit.apply conf) := by
  intro key member
  have before := once key member
  cases edit with
  | set changed value =>
      rw [Edit.apply, directives_set]
      by_cases same : key = changed
      · rw [same] at before ⊢
        rw [Directives.values_put_self, List.length_cons, List.length_tail]
        omega
      · rwa [Directives.values_put_ne _ _ same]
  | removeKey removed =>
      rw [Edit.apply, directives_removeKey]
      by_cases same : key = removed
      · rw [same, Directives.values_remove_self]
        exact Nat.zero_le 1
      · rwa [Directives.values_remove_ne _ same]

theorem once_foldl (once : AtMostOnce conf) (list : List Edit) :
    AtMostOnce (list.foldl Edit.apply conf) := by
  induction list generalizing conf with
  | nil => exact once
  | cons edit rest ih => exact ih (once_apply once edit)

theorem directs_edited (content : Str) (mode : AclMode) :
    Directs (edited content (edits mode)) mode := by
  cases mode with
  | whitelist => exact ⟨get_edited .., get_edited .., get_edited ..⟩
  | blacklist => exact ⟨get_edited .., get_edited .., get_edited ..⟩
  | disabled => exact ⟨get_edited .., get_edited .., get_edited ..⟩

theorem Directs.of_directives {other : HostapdConf} {mode : AclMode}
    (same : other.directives = conf.directives) (h : Directs conf mode) : Directs other mode := by
  have reads : ∀ key, other.get key = conf.get key := by
    intro key
    rw [get_eq_lookup, get_eq_lookup, same]
  cases mode with
  | whitelist => simpa only [Directs, reads] using h
  | blacklist => simpa only [Directs, reads] using h
  | disabled => simpa only [Directs, reads] using h

end Edit

section Step

variable {path : Path} {text content : Str} {fs : Fs}

def rewritten (mode : AclMode) (content : Str) : Str := (edited content (edits mode)).display

theorem ready_rewritten {other : Fs} (ready : Ready path text fs content) (mode : AclMode)
    (found : contentOf other path = some (rewritten mode content)) :
    Ready path text other (rewritten mode content) ∧
      Directs (parse (rewritten mode content)) mode := by
  have clean := clean_edited ready.no_cr (edits_allowed mode)
  have same := clean.directives_reread
  refine ⟨⟨found, clean.no_cr_display, ?_, ?_⟩, (directs_edited content mode).of_directives same⟩
  · have once := once_foldl ready.once (edits mode)
    intro key member
    rw [rewritten, same]
    exact once key member
  · have others := @others_foldl (parse content) _ (edits_keys mode)
    rw [otherDirectives, rewritten, same, ← ready.others, ← others]
    rfl

def listed (acl : AclState) (fs : Fs) : Fs :=
  match acl.mode with
  | .whitelist =>
    erase hostapdDenyFile (put hostapdAcceptFile (encode (AclState.macLines acl.macs)) fs)
  | .blacklist =>
    erase hostapdAcceptFile (put hostapdDenyFile (encode (AclState.macLines acl.macs)) fs)
  | .disabled => erase hostapdDenyFile (erase hostapdAcceptFile fs)

theorem macLines_eq (macs : List Str) : AclState.macLines macs = unlines macs := by
  rcases List.eq_nil_or_concat macs with rfl | ⟨front, last, rfl⟩
  · rfl
  · have some : front ++ [last] ≠ [] := by simp
    rw [List.concat_eq_append, AclState.macLines, join_lf_concat, if_neg some, unlines, unlines]
    simp

theorem outcome_writeLists {env : AclEnv} (succeeds : Succeeds env) (acl : AclState) (fs : Fs) :
    outcome (acl.writeLists env) fs = (.ok (), listed acl fs) := by
  have written : ∀ file, outcome (AclState.writeMacFile env file acl.macs) fs =
      (.ok (), put file (encode (AclState.macLines acl.macs)) fs) := by
    intro file
    rcases AclState.outcome_writeMacFile env file acl.macs fs with stopped | done
    · rcases stopped with ⟨_, _, _, failed, _⟩
      exact absurd ⟨succeeds.createDir, succeeds.writeMacs⟩ failed
    · exact done.2
  unfold AclState.writeLists listed
  cases acl.mode with
  | whitelist =>
      dsimp only
      rw [outcome_bind, written]
      dsimp only
      rw [AclState.outcome_tryRemove, if_pos succeeds.removeDeny]
  | blacklist =>
      dsimp only
      rw [outcome_bind, written]
      dsimp only
      rw [AclState.outcome_tryRemove, if_pos succeeds.removeAccept]
  | disabled =>
      dsimp only
      rw [outcome_bind, AclState.outcome_tryRemove, if_pos succeeds.removeAccept]
      dsimp only
      rw [AclState.outcome_tryRemove, if_pos succeeds.removeDeny]

theorem listed_other (acl : AclState) (notAccept : path ≠ hostapdAcceptFile)
    (notDeny : path ≠ hostapdDenyFile) (fs : Fs) : listed acl fs path = fs path := by
  unfold listed
  cases acl.mode with
  | whitelist =>
      dsimp only
      rw [erase_of_ne notDeny, put_of_ne notAccept]
  | blacklist =>
      dsimp only
      rw [erase_of_ne notAccept, put_of_ne notDeny]
  | disabled =>
      dsimp only
      rw [erase_of_ne notDeny, erase_of_ne notAccept]

theorem lists_listed (acl : AclState) (notAccept : path ≠ hostapdAcceptFile)
    (notDeny : path ≠ hostapdDenyFile) (bytes : ByteArray) (fs : Fs) :
    Lists (put path bytes (listed acl fs)) acl := by
  have apart := AclState.hostapdAcceptFile_ne
  unfold Lists listed contentOf
  rw [put_of_ne (Ne.symm notAccept), put_of_ne (Ne.symm notDeny)]
  cases acl.mode with
  | whitelist =>
      dsimp only
      rw [erase_of_ne apart, put_self, Option.bind_some, decode_encode, macLines_eq]
      exact ⟨rfl, erase_self _ _⟩
  | blacklist =>
      dsimp only
      rw [erase_of_ne (Ne.symm apart), put_self, Option.bind_some, decode_encode, macLines_eq]
      exact ⟨rfl, erase_self _ _⟩
  | disabled =>
      dsimp only
      rw [erase_of_ne apart]
      exact ⟨erase_self _ _, erase_self _ _⟩

theorem step_eq {call : Call} (succeeds : Succeeds call.env) (notAccept : path ≠ hostapdAcceptFile)
    (notDeny : path ≠ hostapdDenyFile) (found : contentOf fs path = some content) :
    step path fs call =
      put path (encode (rewritten call.acl.mode content)) (listed call.acl fs) := by
  have whole : call.env.writeConf.Whole := by
    intro kept error cut
    rw [succeeds.writeConf] at cut
    cases cut
  have lists := outcome_writeLists succeeds call.acl fs
  have still : contentOf (listed call.acl fs) path = some content := by
    rw [contentOf, listed_other call.acl notAccept notDeny]
    exact found
  rcases AclState.apply_files call.env path call.acl fs whole with left | written
  · rw [lists] at left
    exact absurd ⟨rfl, succeeds.readable, succeeds.writeConf, content, still⟩ left.2
  · rw [lists] at written
    rcases written with ⟨_, _, _, read, also, after⟩
    rw [still, Option.some_inj] at also
    rw [step, after, ← also, editConf_eq]
    rfl

theorem settled_step {call : Call} (succeeds : Succeeds call.env)
    (notAccept : path ≠ hostapdAcceptFile) (notDeny : path ≠ hostapdDenyFile)
    (ready : Ready path text fs content) :
    Ready path text (step path fs call) (rewritten call.acl.mode content) ∧
      Settled path text call.acl (step path fs call) := by
  have found : contentOf (step path fs call) path = some (rewritten call.acl.mode content) := by
    rw [step_eq succeeds notAccept notDeny ready.found, contentOf_put]
  have next := ready_rewritten ready call.acl.mode found
  refine ⟨next.1, ⟨_, found, next.2, next.1.once, next.1.others⟩, ?_⟩
  rw [step_eq succeeds notAccept notDeny ready.found]
  exact lists_listed call.acl notAccept notDeny _ fs

theorem ready_run (notAccept : path ≠ hostapdAcceptFile) (notDeny : path ≠ hostapdDenyFile)
    (ready : ∃ content, Ready path text fs content) {calls : List Call}
    (succeed : ∀ call ∈ calls, Succeeds call.env) :
    ∃ content, Ready path text (run (step path) fs calls) content := by
  induction calls generalizing fs with
  | nil => exact ready
  | cons call rest ih =>
      rcases ready with ⟨content, before⟩
      have after := settled_step (succeed call List.mem_cons_self) notAccept notDeny before
      exact ih ⟨_, after.1⟩ fun other member => succeed other (List.mem_cons_of_mem call member)

end Step

theorem last_mode_settles {path : Path} (notAccept : path ≠ hostapdAcceptFile)
    (notDeny : path ≠ hostapdDenyFile) {text : Str} (no_cr : '\r' ∉ text)
    (once : AtMostOnce (parse text)) {fs : Fs} (found : contentOf fs path = some text)
    (calls : List Call) (last : Call) (succeed : ∀ call ∈ calls ++ [last], Succeeds call.env) :
    Settled path text last.acl (run (step path) fs (calls ++ [last])) := by
  have start : Ready path text fs text := ⟨found, no_cr, once, rfl⟩
  rcases ready_run notAccept notDeny ⟨text, start⟩
    (fun call member => succeed call (List.mem_append_left _ member)) with ⟨content, ready⟩
  rw [run_concat]
  have member : last ∈ calls ++ [last] := List.mem_append_right _ (List.mem_singleton_self last)
  exact (settled_step (succeed last member) notAccept notDeny ready).2

def denyOne : Call := ⟨.willing, ⟨.blacklist, ["aa:bb:cc:dd:ee:ff".toList]⟩⟩
def allowAll : Call := ⟨.willing, ⟨.disabled, []⟩⟩

theorem last_mode_settles_allowAll :
    Settled etcConf "ssid=a\naccept_mac_file=/tmp/x\n".toList ⟨.disabled, []⟩
      (run (step etcConf) (oneFile etcConf "ssid=a\naccept_mac_file=/tmp/x\n".toList)
        ([denyOne] ++ [allowAll])) := by
  have found : contentOf (oneFile etcConf "ssid=a\naccept_mac_file=/tmp/x\n".toList) etcConf =
      some "ssid=a\naccept_mac_file=/tmp/x\n".toList := contentOf_put ..
  have succeed : ∀ call ∈ [denyOne] ++ [allowAll], Succeeds call.env := by
    intro call member
    simp only [List.cons_append, List.nil_append, List.mem_cons, List.not_mem_nil, or_false]
      at member
    rcases member with rfl | rfl
    · exact ⟨rfl, rfl, rfl, rfl, rfl, rfl⟩
    · exact ⟨rfl, rfl, rfl, rfl, rfl, rfl⟩
  have once : AtMostOnce (parse "ssid=a\naccept_mac_file=/tmp/x\n".toList) := by
    intro key member
    revert key
    decide
  exact last_mode_settles (by decide) (by decide) (by decide) once found [denyOne] allowAll succeed

end AclModes

end TinyWifi
