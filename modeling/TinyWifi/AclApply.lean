import TinyWifi.Acl
import TinyWifi.Wifi

/-! `AclState::apply`: the MAC list files, then the directives of `hostapd.conf` that name them. -/

namespace TinyWifi

open Text Exec Checks HostapdConf

def hostapdAcceptFile : Path := "/etc/hostapd/hostapd.accept".toList
def hostapdDenyFile : Path := "/etc/hostapd/hostapd.deny".toList

def keyMacaddrAcl : Str := "macaddr_acl".toList
def keyAcceptMacFile : Str := "accept_mac_file".toList
def keyDenyMacFile : Str := "deny_mac_file".toList

structure AclEnv where
  createDir : Except IoError Unit
  writeMacs : WriteOutcome
  removeAccept : Except IoError Unit
  removeDeny : Except IoError Unit
  readable : Bool
  writeConf : WriteOutcome
  restart : Except ServiceError Unit

def AclEnv.willing : AclEnv := ⟨.ok (), .done, .ok (), .ok (), true, .done, .ok ()⟩

namespace AclState

def tryRemove (answer : Except IoError Unit) (path : Path) : Exec Fs Str Unit :=
  match answer with
  | .ok () => attempt (removeFile path)
  | .error _ => pure ()

def macLines (macs : List Str) : Str :=
  join ['\n'] macs ++ if macs = [] then [] else ['\n']

def writeMacFile (env : AclEnv) (path : Path) (macs : List Str) : Exec Fs Str Unit := do
  reading fun _ =>
    env.createDir.mapError fun e => "create dir /etc/hostapd: ".toList ++ e.message
  mapError (fun e => "write ".toList ++ path ++ ": ".toList ++ e.message)
    (writeFile env.writeMacs path (encode (macLines macs)))

def writeLists (env : AclEnv) (s : AclState) : Exec Fs Str Unit :=
  match s.mode with
  | .whitelist => do
    writeMacFile env hostapdAcceptFile s.macs
    tryRemove env.removeDeny hostapdDenyFile
  | .blacklist => do
    writeMacFile env hostapdDenyFile s.macs
    tryRemove env.removeAccept hostapdAcceptFile
  | .disabled => do
    tryRemove env.removeAccept hostapdAcceptFile
    tryRemove env.removeDeny hostapdDenyFile

def editConf (mode : AclMode) (conf : HostapdConf) : HostapdConf :=
  match mode with
  | .whitelist =>
    ((conf.set keyMacaddrAcl ['1']).set keyAcceptMacFile hostapdAcceptFile).removeKey keyDenyMacFile
  | .blacklist =>
    ((conf.set keyMacaddrAcl ['0']).set keyDenyMacFile hostapdDenyFile).removeKey keyAcceptMacFile
  | .disabled =>
    ((conf.set keyMacaddrAcl ['0']).removeKey keyAcceptMacFile).removeKey keyDenyMacFile

def editedConf (env : AclEnv) (path : Path) (mode : AclMode) (fs : Fs) : Except Str Str := do
  let conf ← (HostapdConf.fromPath env.readable path fs).mapError IoError.message
  return (editConf mode conf).display

def apply (env : AclEnv) (path : Path) (s : AclState) : Exec Fs Str Unit := do
  writeLists env s
  let text ← reading (editedConf env path s.mode)
  mapError (fun e => "write hostapd.conf: ".toList ++ e.message)
    (writeFile env.writeConf path (encode text))
  reading fun _ => env.restart.mapError ServiceError.display

def listFile : AclMode → Option Path
  | .whitelist => some hostapdAcceptFile
  | .blacklist => some hostapdDenyFile
  | .disabled => none

def dropped (env : AclEnv) (mode : AclMode) : List Path :=
  let accept := if env.removeAccept = .ok () then [hostapdAcceptFile] else []
  let deny := if env.removeDeny = .ok () then [hostapdDenyFile] else []
  let written := env.createDir = .ok () ∧ env.writeMacs = .done
  match mode with
  | .whitelist => if written then deny else []
  | .blacklist => if written then accept else []
  | .disabled => accept ++ deny

section Lists

variable {env : AclEnv} {fs : Fs}

theorem outcome_tryRemove (answer : Except IoError Unit) (path : Path) (fs : Fs) :
    outcome (tryRemove answer path) fs =
      (.ok (), if answer = .ok () then erase path fs else fs) := by
  cases answer with
  | ok u =>
      rw [if_pos rfl]
      exact outcome_attempt_removeFile path fs
  | error e => rfl

/-- The list file is written, or the call stops with at most that file changed. -/
theorem outcome_writeMacFile (env : AclEnv) (path : Path) (macs : List Str) (fs : Fs) :
    (∃ e after, outcome (writeMacFile env path macs) fs = (.error e, after) ∧
      ¬ (env.createDir = .ok () ∧ env.writeMacs = .done) ∧
      (after = fs ∨ ∃ bytes, after = put path bytes fs)) ∨
    ((env.createDir = .ok () ∧ env.writeMacs = .done) ∧
      outcome (writeMacFile env path macs) fs =
        (.ok (), put path (encode (macLines macs)) fs)) := by
  cases created : env.createDir with
  | error e =>
      refine .inl ⟨"create dir /etc/hostapd: ".toList ++ e.message, fs, ?_, by simp, .inl rfl⟩
      simp only [writeMacFile, outcome_bind, outcome_reading, created, Except.mapError]
  | ok u =>
      cases written : env.writeMacs with
      | done =>
          refine .inr ⟨⟨rfl, rfl⟩, ?_⟩
          simp only [writeMacFile, outcome_bind, outcome_reading, created, written,
            Except.mapError, outcome_mapError, outcome_writeFile_done]
      | refused e =>
          refine .inl ⟨"write ".toList ++ path ++ ": ".toList ++ e.message, fs, ?_, by simp,
            .inl rfl⟩
          simp only [writeMacFile, outcome_bind, outcome_reading, created, written,
            Except.mapError, outcome_mapError, writeFile, outcome_throw]
      | cut kept e =>
          refine .inl ⟨"write ".toList ++ path ++ ": ".toList ++ e.message,
            put path ((encode (macLines macs)).extract 0 kept) fs, ?_, by simp, .inr ⟨_, rfl⟩⟩
          simp only [writeMacFile, outcome_bind, outcome_reading, created, written,
            Except.mapError, outcome_mapError, writeFile, outcome_modify, outcome_throw]

/-- What writing and clearing the lists does: only the two list files change, none goes away but
those that are dropped, and at the end the list of the mode is there. -/
structure ListsKept (env : AclEnv) (mode : AclMode) (fs : Fs) (result : Except Str Unit × Fs) :
    Prop where
  others : ∀ p, p ≠ hostapdAcceptFile → p ≠ hostapdDenyFile → result.2 p = fs p
  kept : ∀ p ∉ dropped env mode, (fs p).isSome = true → (result.2 p).isSome = true
  listed : result.1 = .ok () → ∀ file ∈ listFile mode, (result.2 file).isSome = true
  stopped : result.1 ≠ .ok () → dropped env mode = []

theorem isSome_put {fs : Fs} {p : Path} (present : (fs p).isSome = true) (path : Path)
    (bytes : ByteArray) : (put path bytes fs p).isSome = true := by
  by_cases same : p = path
  · subst p
    rw [put_self, Option.isSome_some]
  · rwa [put_of_ne same]

theorem outcome_write_then_remove (env : AclEnv) {target other : Path} (apart : target ≠ other)
    (macs : List Str) (answer : Except IoError Unit) (fs : Fs) :
    ∃ result after,
      outcome (do
        writeMacFile env target macs
        tryRemove answer other) fs = (result, after) ∧
      (∀ p, p ≠ target → p ≠ other → after p = fs p) ∧
      (∀ p, (env.createDir = .ok () ∧ env.writeMacs = .done → answer = .ok () → p ≠ other) →
        (fs p).isSome = true → (after p).isSome = true) ∧
      (result = .ok () → (after target).isSome = true) ∧
      (result ≠ .ok () → ¬ (env.createDir = .ok () ∧ env.writeMacs = .done)) := by
  rcases outcome_writeMacFile env target macs fs with
    ⟨e, after, stopped, failed, unchanged⟩ | ⟨written, done⟩
  · refine ⟨.error e, after, by rw [outcome_bind, stopped], ?_, ?_, nofun, fun _ => failed⟩
    · intro p notTarget _
      rcases unchanged with rfl | ⟨bytes, rfl⟩
      · rfl
      · exact put_of_ne notTarget bytes fs
    · intro p _ present
      rcases unchanged with rfl | ⟨bytes, rfl⟩
      · exact present
      · exact isSome_put present target bytes
  · refine ⟨.ok (), if answer = .ok () then erase other (put target (encode (macLines macs)) fs)
      else put target (encode (macLines macs)) fs,
      by rw [outcome_bind, done, ← outcome_tryRemove], ?_, ?_, fun _ => ?_,
      fun h => absurd rfl h⟩
    · intro p notTarget notOther
      split
      · rw [erase_of_ne notOther, put_of_ne notTarget]
      · rw [put_of_ne notTarget]
    · intro p safe present
      split
      · next removed =>
          rw [erase_of_ne (safe written removed)]
          exact isSome_put present target _
      · exact isSome_put present target _
    · split
      · rw [erase_of_ne apart, put_self, Option.isSome_some]
      · rw [put_self, Option.isSome_some]

theorem hostapdAcceptFile_ne : hostapdAcceptFile ≠ hostapdDenyFile := by decide

theorem writeLists_kept (env : AclEnv) (s : AclState) (fs : Fs) :
    ListsKept env s.mode fs (outcome (writeLists env s) fs) := by
  cases mode : s.mode with
  | whitelist =>
      obtain ⟨result, after, ran, others, kept, listed, stopped⟩ := outcome_write_then_remove
        env hostapdAcceptFile_ne s.macs env.removeDeny fs
      rw [writeLists, mode]
      dsimp only
      rw [ran]
      refine ⟨others, fun p safe => kept p fun written removed => ?_, fun done file member => ?_,
        fun failed => if_neg (stopped failed)⟩
      · rintro rfl
        exact safe (by simp [dropped, written, removed])
      · cases member
        exact listed done
  | blacklist =>
      obtain ⟨result, after, ran, others, kept, listed, stopped⟩ := outcome_write_then_remove
        env hostapdAcceptFile_ne.symm s.macs env.removeAccept fs
      rw [writeLists, mode]
      dsimp only
      rw [ran]
      refine ⟨fun p notAccept notDeny => others p notDeny notAccept,
        fun p safe => kept p fun written removed => ?_, fun done file member => ?_,
        fun failed => if_neg (stopped failed)⟩
      · rintro rfl
        exact safe (by simp [dropped, written, removed])
      · cases member
        exact listed done
  | disabled =>
      rw [writeLists, mode]
      dsimp only
      rw [outcome_bind, outcome_tryRemove]
      dsimp only
      rw [outcome_tryRemove]
      refine ⟨fun p notAccept notDeny => ?_, fun p safe present => ?_, fun _ file member => ?_,
        fun failed => absurd rfl failed⟩
      · dsimp only
        split <;> split <;> simp only [erase_of_ne notAccept, erase_of_ne notDeny]
      · simp only [dropped, List.mem_append, not_or] at safe
        dsimp only
        split
        · next removed =>
            have notDeny : p ≠ hostapdDenyFile := by simpa [removed] using safe.2
            rw [erase_of_ne notDeny]
            split
            · next also =>
                have notAccept : p ≠ hostapdAcceptFile := by simpa [also] using safe.1
                rwa [erase_of_ne notAccept]
            · exact present
        · split
          · next also =>
              have notAccept : p ≠ hostapdAcceptFile := by simpa [also] using safe.1
              rwa [erase_of_ne notAccept]
          · exact present
      · cases member

end Lists

section Conf

def named (ds : List (Str × Str)) : List Path :=
  Directives.values keyAcceptMacFile ds ++ Directives.values keyDenyMacFile ds

/-- The further directives of the mode's own key, which `set` leaves alone. -/
def leftover (mode : AclMode) (ds : List (Str × Str)) : List Path :=
  match mode with
  | .whitelist => (Directives.values keyAcceptMacFile ds).tail
  | .blacklist => (Directives.values keyDenyMacFile ds).tail
  | .disabled => []

theorem mem_named_of_mem_leftover {mode : AclMode} {ds : List (Str × Str)} {p : Path}
    (h : p ∈ leftover mode ds) : p ∈ named ds := by
  cases mode with
  | whitelist => exact List.mem_append_left _ (List.mem_of_mem_tail h)
  | blacklist => exact List.mem_append_right _ (List.mem_of_mem_tail h)
  | disabled => cases h

theorem named_editConf (mode : AclMode) (conf : HostapdConf) :
    named (editConf mode conf).directives =
      (listFile mode).toList ++ leftover mode conf.directives := by
  cases mode with
  | whitelist =>
      rw [named, editConf, directives_removeKey, directives_set, directives_set,
        Directives.values_remove_self, Directives.values_remove_ne _ (by decide),
        Directives.values_put_self, Directives.values_put_ne _ _ (by decide), List.append_nil]
      rfl
  | blacklist =>
      rw [named, editConf, directives_removeKey, directives_set, directives_set,
        Directives.values_remove_self, Directives.values_remove_ne _ (by decide),
        Directives.values_put_self, Directives.values_put_ne _ _ (by decide), List.nil_append]
      rfl
  | disabled =>
      rw [named, editConf, directives_removeKey, directives_removeKey, directives_set,
        Directives.values_remove_self, Directives.values_remove_ne _ (by decide),
        Directives.values_remove_self]
      rfl

theorem faithful_editConf {conf : HostapdConf} (h : conf.AllFaithful) (mode : AclMode) :
    (editConf mode conf).AllFaithful := by
  have acl (value : Str) (lf : '\n' ∉ value) : (conf.set keyMacaddrAcl value).AllFaithful :=
    h.set ⟨by decide, lf, by decide, by decide, by decide⟩
  cases mode with
  | whitelist =>
      apply AllFaithful.removeKey
      exact (acl ['1'] (by decide)).set ⟨by decide, by decide, by decide, by decide, by decide⟩
  | blacklist =>
      apply AllFaithful.removeKey
      exact (acl ['0'] (by decide)).set ⟨by decide, by decide, by decide, by decide, by decide⟩
  | disabled =>
      apply AllFaithful.removeKey
      apply AllFaithful.removeKey
      exact acl ['0'] (by decide)

/-- Printing a config keeps the list files it names, unless a path ends in a carriage return. -/
theorem named_parse_display {conf : HostapdConf} (h : conf.AllFaithful)
    (kept : ∀ p ∈ named conf.directives, ¬ EndsCr p) :
    named (parse conf.display).directives = named conf.directives := by
  rw [named, values_parse_display h, values_parse_display h]
  · rfl
  · exact fun p member => kept p (List.mem_append_right _ member)
  · exact fun p member => kept p (List.mem_append_left _ member)

theorem listFile_mem {mode : AclMode} {file : Path} (h : file ∈ listFile mode) :
    file = hostapdAcceptFile ∨ file = hostapdDenyFile := by
  cases mode with
  | whitelist => exact .inl (Option.some_inj.mp h).symm
  | blacklist => exact .inr (Option.some_inj.mp h).symm
  | disabled => cases h

/-- The directives of the config that `apply` writes name the list of the mode and whatever the
config had further on under the same key. -/
theorem named_edited (mode : AclMode) (content : Str)
    (kept : ∀ p ∈ named (parse content).directives, ¬ EndsCr p) :
    named (parse (editConf mode (parse content)).display).directives =
      (listFile mode).toList ++ leftover mode (parse content).directives := by
  rw [named_parse_display (faithful_editConf (faithful_parse content) mode), named_editConf]
  intro p member
  rw [named_editConf, List.mem_append, Option.mem_toList] at member
  rcases member with file | rest
  · rcases listFile_mem file with rfl | rfl <;> decide
  · exact kept p (mem_named_of_mem_leftover rest)

theorem named_apply (settings : WifiSettings) (conf : HostapdConf) :
    named (conf.apply settings).directives = named conf.directives := by
  simp only [named, HostapdConf.apply, directives_set]
  rw [Directives.values_put_ne _ _ (by decide), Directives.values_put_ne _ _ (by decide),
    Directives.values_put_ne _ _ (by decide), Directives.values_put_ne _ _ (by decide),
    Directives.values_put_ne _ _ (by decide), Directives.values_put_ne _ _ (by decide),
    Directives.values_put_ne _ _ (by decide), Directives.values_put_ne _ _ (by decide)]

end Conf

section Apply

variable {env : AclEnv} {path : Path} {fs : Fs}

theorem editedConf_eq_ok {mode : AclMode} {text : Str} :
    editedConf env path mode fs = .ok text ↔
      env.readable = true ∧ ∃ content, contentOf fs path = some content ∧
        (editConf mode (parse content)).display = text := by
  simp only [editedConf, bind_eq_ok, pure_eq_ok, mapError_eq_ok, fromPath_eq_ok]
  constructor
  · intro holds
    rcases holds with ⟨conf, ⟨readable, content, found, rfl⟩, rfl⟩
    exact ⟨readable, content, found, rfl⟩
  · intro holds
    rcases holds with ⟨readable, content, found, rfl⟩
    exact ⟨parse content, ⟨readable, content, found, rfl⟩, rfl⟩

theorem apply_files (env : AclEnv) (path : Path) (s : AclState) (fs : Fs)
    (whole : env.writeConf.Whole) :
    ((outcome (apply env path s) fs).2 = (outcome (writeLists env s) fs).2 ∧
      ¬ ((outcome (writeLists env s) fs).1 = .ok () ∧ env.readable = true ∧
        env.writeConf = .done ∧
        ∃ content, contentOf (outcome (writeLists env s) fs).2 path = some content)) ∨
    ((outcome (writeLists env s) fs).1 = .ok () ∧ env.readable = true ∧ env.writeConf = .done ∧
      ∃ content, contentOf (outcome (writeLists env s) fs).2 path = some content ∧
        (outcome (apply env path s) fs).2 =
          put path (encode (editConf s.mode (parse content)).display)
            (outcome (writeLists env s) fs).2) := by
  rw [apply, outcome_bind]
  rcases outcome (writeLists env s) fs with ⟨e | u, lists⟩
  · exact .inl ⟨rfl, fun rewritten => by cases rewritten.1⟩
  · dsimp only
    rw [outcome_bind, outcome_reading]
    cases edited : editedConf env path s.mode lists with
    | error e =>
        refine .inl ⟨rfl, fun rewritten => ?_⟩
        obtain ⟨-, readable, -, content, found⟩ := rewritten
        have ok : editedConf env path s.mode lists = .ok _ :=
          editedConf_eq_ok.mpr ⟨readable, content, found, rfl⟩
        rw [edited] at ok
        cases ok
    | ok text =>
        obtain ⟨readable, content, found, rfl⟩ := editedConf_eq_ok.mp edited
        dsimp only
        rw [outcome_bind, outcome_mapError]
        cases written : env.writeConf with
        | done => exact .inr ⟨rfl, readable, rfl, content, found, rfl⟩
        | refused e => exact .inl ⟨rfl, fun rewritten => by cases rewritten.2.2.1⟩
        | cut kept e => exact absurd written (whole kept e)

end Apply

end AclState

end TinyWifi
