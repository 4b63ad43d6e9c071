import TinyWifi.Adblock
import TinyWifi.Lib.Interleave
import TinyWifi.StaticLeases

/-! Two requests that edit one config at the same time. Each reads the whole file and writes it back
later, and no lock holds the two together. -/

namespace TinyWifi

open Text Exec Checks Runs Interleave

inductive ConfigKind
  | dhcp
  | dns
  deriving DecidableEq, Repr

inductive AdblockSetter
  | enable
  | disable
  | response (text : Str)
  deriving DecidableEq, Repr

inductive FileRequest : ConfigKind → Type
  | addLease (env : FileEnv) (lease : StaticLease) : FileRequest .dhcp
  | removeLease (env : FileEnv) (mac : Str) : FileRequest .dhcp
  | applyDhcp (env : EditEnv) (settings : DhcpSettings) (commit : Commit) : FileRequest .dhcp
  | addRecord (env : FileEnv) (record : DnsRecord) : FileRequest .dns
  | removeRecord (env : FileEnv) (name rtype : Str) : FileRequest .dns
  | updateSettings (env : FileEnv) (settings : NanoDnsSettings) : FileRequest .dns
  | adblock (env : AdblockEnv) (setter : AdblockSetter) : FileRequest .dns

namespace AdblockSetter

def change : AdblockSetter → NanoDnsSettings → NanoDnsSettings
  | .enable, settings => { settings with blockFile := some blocklistPath }
  | .disable, settings => { settings with blockFile := none }
  | .response text, settings => { settings with blockResponse := text }

def call (env : AdblockEnv) (path : Path) : AdblockSetter → Exec Fs Str Unit
  | .enable => adblockEnable env path
  | .disable => adblockDisable env path
  | .response text => adblockSetResponse env path text

theorem call_eq (env : AdblockEnv) (path : Path) (setter : AdblockSetter) :
    setter.call env path = adblockSet env path setter.change := by
  cases setter <;> rfl

end AdblockSetter

namespace FileRequest

variable (u : CaseData) (path : Path)

def exec {k : ConfigKind} : FileRequest k → Exec Fs Str Unit
  | .addLease env lease =>
    mapError StaticLeaseError.display (addStaticLease u.toUnicodeData env path lease)
  | .removeLease env mac =>
    mapError StaticLeaseError.display (removeStaticLease u.toUnicodeData env path mac)
  | .applyDhcp env settings commit =>
    mapError DhcpUpdateError.display (TinyWifi.applyDhcp env path settings commit)
  | .addRecord env record => mapError DnsRecordError.display (addDnsRecord u env path record)
  | .removeRecord env name rtype =>
    mapError DnsRecordError.display (removeDnsRecord u env path name rtype)
  | .updateSettings env settings =>
    mapError DnsError.display (updateDnsSettings env path settings)
  | .adblock env setter => setter.call env path

end FileRequest

namespace EditRace

def writing (ready : Bool) (text : Str) : Editor (Option Str) :=
  if ready then .write (some text) else .fail

def reads {ε α : Type} (path : Path) (f : Fs → Except ε α) (rest : α → Editor (Option Str)) :
    Editor (Option Str) :=
  .read fun content =>
    match content.bind fun text => (f (oneFile path text)).toOption with
    | some a => rest a
    | none => .fail

end EditRace

namespace FileRequest

open EditRace

variable (u : CaseData) (path : Path)

/-- The reads and the write of a request, on the content of the config. The copy that `apply_dhcp`
makes of the config, and the restarts, change nothing in it. -/
def editor {k : ConfigKind} : FileRequest k → Editor (Option Str)
  | .addLease env lease =>
    reads path (leaseEdit env path (addedLease u.toUnicodeData env path lease))
      (writing (env.write = .done))
  | .removeLease env mac =>
    reads path (leaseEdit env path (removedLease u.toUnicodeData env path mac))
      (writing (env.write = .done))
  | .applyDhcp env settings _ => reads path (editedDhcp env path settings) (writing env.Obliges)
  | .addRecord env record =>
    reads path (recordEdit env path (addedRecord u env path record)) (writing (env.write = .done))
  | .removeRecord env name rtype =>
    reads path (recordEdit env path (removedRecord u env path name rtype))
      (writing (env.write = .done))
  | .updateSettings env settings =>
    reads path (settingsEdit env path settings) (writing (env.write = .done))
  | .adblock env setter =>
    reads path (getDnsSettings env.readable path) fun settings =>
      reads path (settingsEdit env.update path (setter.change settings))
        (writing (env.update.write = .done))

/-- The system does what the request asks of it. -/
def ready {k : ConfigKind} : FileRequest k → Bool
  | .addLease env _ | .removeLease env _ | .addRecord env _ | .removeRecord env _ _
  | .updateSettings env _ => env.write = .done
  | .applyDhcp env _ _ => env.Obliges
  | .adblock env _ => env.update.write = .done

end FileRequest

namespace EditRace

/-- All that is read of the files is the text of the config. -/
def Local {ε α : Type} (path : Path) (f : Fs → Except ε α) : Prop :=
  ∀ fs, (f fs).toOption = (contentOf fs path).bind fun text => (f (oneFile path text)).toOption

/-- Run alone, the steps come to what the request comes to. -/
structure Agrees {ε : Type} (path : Path) (ready : Bool) (x : Exec Fs ε Unit)
    (e : Editor (Option Str)) (fs : Fs) : Prop where
  ok : (outcome x fs).1 = .ok () ↔ (e.alone (contentOf fs path)).isSome = true
  file : ready = true → contentOf (outcome x fs).2 path = e.after (contentOf fs path)

section Agree

variable {ε : Type} {path : Path} {ready : Bool}

theorem toOption_eq_some {α : Type} {x : Except ε α} {a : α} : x.toOption = some a ↔ x = .ok a := by
  cases x <;> simp [Except.toOption]

theorem local_of_ok_iff {α : Type} {f : Fs → Except ε α} {P : Prop} {R : Str → α → Prop}
    (ok_iff : ∀ fs a, f fs = .ok a ↔
      P ∧ ∃ content, contentOf fs path = some content ∧ R content a) : Local path f := by
  have one (text : Str) : contentOf (oneFile path text) path = some text :=
    contentOf_put path text _
  intro fs
  apply Option.ext
  intro a
  rw [toOption_eq_some, ok_iff, Option.bind_eq_some_iff]
  simp only [toOption_eq_some, ok_iff, one, Option.some_inj, exists_eq_left']
  constructor
  · intro holds
    rcases holds with ⟨fine, content, found, does⟩
    exact ⟨content, found, fine, does⟩
  · intro holds
    rcases holds with ⟨content, found, fine, does⟩
    exact ⟨fine, content, found, does⟩

theorem Agrees.mapError {ε' : Type} {x : Exec Fs ε Unit} {e : Editor (Option Str)} {fs : Fs}
    (agrees : Agrees path ready x e fs) (f : ε → ε') :
    Agrees path ready (Exec.mapError f x) e fs := by
  have same : ((outcome (Exec.mapError f x) fs).1 = .ok () ↔ (outcome x fs).1 = .ok ()) ∧
      (outcome (Exec.mapError f x) fs).2 = (outcome x fs).2 := by
    rw [outcome_mapError]
    rcases outcome x fs with ⟨error | u, after⟩
    · simp
    · simp
  exact ⟨same.1.trans agrees.ok, fun done => same.2 ▸ agrees.file done⟩

/-- A first step that reads what `f` reads, and then the rest. -/
theorem agrees_bind {ε' α : Type} {f : Fs → Except ε' α} (here : Local path f)
    {first : Exec Fs ε α} {x : α → Exec Fs ε Unit} {e : α → Editor (Option Str)} {fs : Fs}
    (same : (outcome first fs).2 = fs) (shown : (outcome first fs).1.toOption = (f fs).toOption)
    (rest : ∀ a, f fs = .ok a → Agrees path ready (x a) (e a) fs) :
    Agrees path ready (first >>= x) (reads path f e) fs := by
  have alone : (reads path f e).alone (contentOf fs path) =
      (match (f fs).toOption with
        | some a => e a
        | none => .fail).alone (contentOf fs path) := by
    rw [here fs]
    rfl
  rw [← shown] at alone
  rcases came : outcome first fs with ⟨error | a, after⟩
  · rw [came] at alone same
    have none : (reads path f e).alone (contentOf fs path) = none := alone
    have unchanged : after = fs := same
    have stops : outcome (first >>= x) fs = (.error error, fs) := by
      rw [outcome_bind, came, unchanged]
    refine ⟨?_, fun _ => ?_⟩
    · rw [stops, none]
      simp
    · rw [stops, Editor.after, none]
      rfl
  · rw [came] at alone same shown
    have goes_on : (reads path f e).alone (contentOf fs path) = (e a).alone (contentOf fs path) :=
      alone
    have unchanged : after = fs := same
    have goes : outcome (first >>= x) fs = outcome (x a) fs := by
      rw [outcome_bind, came, unchanged]
    have agrees := rest a (toOption_eq_some.mp shown.symm)
    refine ⟨?_, fun done => ?_⟩
    · rw [goes, goes_on]
      exact agrees.ok
    · rw [goes, Editor.after, goes_on]
      exact agrees.file done

theorem agrees_writeFile {io : IoError → ε} (system : WriteOutcome) (text : Str) (fs : Fs) :
    Agrees path (system = .done) (Exec.mapError io (writeFile system path (encode text)))
      (writing (system = .done) text) fs := by
  apply Agrees.mapError
  cases system with
  | done => exact ⟨by simp [outcome_writeFile_done, writing, Editor.alone],
      fun _ => contentOf_put path text fs⟩
  | refused e => exact ⟨by simp [writeFile, writing, Editor.alone], fun done => by simp at done⟩
  | cut kept e =>
      exact ⟨by simp [writeFile, outcome_bind, writing, Editor.alone], fun done => by simp at done⟩

theorem agrees_saveEdited {env : EditEnv} {errors : SaveErrors ε} {fs : Fs} {original : ByteArray}
    (found : fs path = some original) (text : Str) (commit : Commit) :
    Agrees path env.Obliges (saveEdited env errors path text commit) (writing env.Obliges text)
      fs := by
  constructor
  · rw [saveEdited_ok_iff found commit, writing]
    by_cases obliges : env.Obliges
    · simp [obliges, Editor.alone]
    · simp [obliges, Editor.alone]
  · intro done
    have obliges : env.Obliges := of_decide_eq_true done
    rw [outcome_saveEdited_ok found obliges.1 obliges.2.1 obliges.2.2.1 obliges.2.2.2, writing,
      if_pos done]
    cases commit with
    | now =>
        refine Eq.trans ?_ (contentOf_put path text (put (backupPath path) original fs))
        exact congrArg (·.bind decode) (discarded_self env.discard _ path)
    | hold => exact contentOf_put path text _

end Agree

end EditRace

namespace FileRequest

open EditRace

variable (u : CaseData) (path : Path)

theorem local_leaseEdit (env : FileEnv) (edit : DhcpConf → Except StaticLeaseError DhcpConf) :
    Local path (leaseEdit env path edit) :=
  local_of_ok_iff fun _ _ => StaticLeases.leaseEdit_eq_ok

theorem local_recordEdit (env : FileEnv)
    (edit : NanoDnsConf → Except DnsRecordError NanoDnsConf) :
    Local path (recordEdit env path edit) :=
  local_of_ok_iff fun _ _ => recordEdit_eq_ok

theorem local_getDnsSettings (readable : Bool) : Local path (getDnsSettings readable path) :=
  local_of_ok_iff fun _ _ => getDnsSettings_eq_ok

theorem local_settingsEdit (env : FileEnv) (settings : NanoDnsSettings) :
    Local path (settingsEdit env path settings) := by
  apply local_of_ok_iff
  intro fs text
  rw [settingsEdit_eq_ok, ← and_assoc]

theorem local_editedDhcp (env : EditEnv) (settings : DhcpSettings) :
    Local path (editedDhcp env path settings) := by
  apply @local_of_ok_iff _ path _ _ (env.readable = true ∧ env.writable = true) fun content text =>
    (∃ view, DhcpConfig.fromConf ((DhcpConf.parse content).apply settings) = .ok view ∧
      view.validate = .ok ()) ∧ dhcpEdited settings content = text
  intro fs text
  rw [editedDhcp_eq_ok]
  constructor
  · intro holds
    rcases holds with ⟨content, accepted, same⟩
    exact ⟨⟨accepted.readable, accepted.writable⟩, content, accepted.found, accepted.valid, same⟩
  · intro holds
    rcases holds with ⟨⟨readable, writable⟩, content, found, valid, same⟩
    exact ⟨content, ⟨found, readable, valid, writable⟩, same⟩

theorem agrees_rewrite {ε : Type} {env : FileEnv} {io : IoError → ε} {path : Path}
    {edited : Fs → Except ε Str} (here : Local path edited) (fs : Fs) :
    Agrees path (env.write = .done) (rewrite env io path edited)
      (reads path edited (writing (env.write = .done))) fs :=
  agrees_bind here rfl rfl fun text _ => agrees_writeFile env.write text fs

/-- Every request comes to what its steps come to when they run alone. -/
theorem agrees {k : ConfigKind} (r : FileRequest k) (fs : Fs) :
    Agrees path r.ready (r.exec u path) (r.editor u path) fs := by
  cases r with
  | addLease env lease => exact (agrees_rewrite (local_leaseEdit path env _) fs).mapError _
  | removeLease env mac => exact (agrees_rewrite (local_leaseEdit path env _) fs).mapError _
  | addRecord env record => exact (agrees_rewrite (local_recordEdit path env _) fs).mapError _
  | removeRecord env name rtype =>
      exact (agrees_rewrite (local_recordEdit path env _) fs).mapError _
  | updateSettings env settings =>
      exact (agrees_rewrite (local_settingsEdit path env settings) fs).mapError _
  | applyDhcp env settings commit =>
      apply Agrees.mapError
      apply agrees_bind (local_editedDhcp path env settings) rfl rfl
      intro text checked
      rcases editedDhcp_eq_ok.mp checked with ⟨content, accepted, -⟩
      rcases Option.bind_eq_some_iff.mp accepted.found with ⟨original, found, -⟩
      exact agrees_saveEdited found text commit
  | adblock env setter =>
      rw [exec, AdblockSetter.call_eq, adblockSet]
      have shown : (outcome (mapError DnsError.display
          (reading (getDnsSettings env.readable path))) fs).2 = fs ∧
            (outcome (mapError DnsError.display (reading (getDnsSettings env.readable path)))
              fs).1.toOption = (getDnsSettings env.readable path fs).toOption := by
        rw [outcome_mapError, outcome_reading]
        cases getDnsSettings env.readable path fs <;> exact ⟨rfl, rfl⟩
      apply agrees_bind (local_getDnsSettings path env.readable) shown.1 shown.2
      intro settings _
      exact (agrees_rewrite (local_settingsEdit path env.update _) fs).mapError _

theorem hopeless_of_not_ready {k : ConfigKind} {r : FileRequest k} (broken : r.ready = false) :
    (r.editor u path).Hopeless := by
  have stops {ready : Bool} (no : ready = false) (text : Str) : (writing ready text).Hopeless := by
    rw [writing, no]
    trivial
  have through {ε α : Type} (f : Fs → Except ε α) {rest : α → Editor (Option Str)}
      (last : ∀ a, (rest a).Hopeless) : (reads path f rest).Hopeless := by
    intro content
    dsimp only
    split
    · next a _ => exact last a
    · trivial
  cases r with
  | addLease env lease => exact through _ (stops broken)
  | removeLease env mac => exact through _ (stops broken)
  | applyDhcp env settings commit => exact through _ (stops broken)
  | addRecord env record => exact through _ (stops broken)
  | removeRecord env name rtype => exact through _ (stops broken)
  | updateSettings env settings => exact through _ (stops broken)
  | adblock env setter => exact through _ fun settings => through _ (stops broken)

end FileRequest

namespace EditRace

section Serial

def directivesOf (k : ConfigKind) (content : Option Str) : Option (List (Str × Str)) :=
  content.map fun text =>
    match k with
    | .dhcp => directives (DhcpConf.parse text).lines
    | .dns => directives (NanoDnsConf.parse text).lines

variable (u : CaseData) (path : Path) {k : ConfigKind}

def oneByOne (fs : Fs) (first second : FileRequest k) : Option Str :=
  contentOf (outcome (second.exec u path) (outcome (first.exec u path) fs).2).2 path

/-- The config has the directives that the two requests make of it one after the other. -/
def NoLostUpdate (fs : Fs) (a b : FileRequest k) (final : Option Str) : Prop :=
  directivesOf k final = directivesOf k (oneByOne u path fs a b) ∨
    directivesOf k final = directivesOf k (oneByOne u path fs b a)

instance (fs : Fs) (a b : FileRequest k) (final : Option Str) :
    Decidable (NoLostUpdate u path fs a b final) := inferInstanceAs (Decidable (_ ∨ _))

variable {u path} {fs : Fs}

theorem oneByOne_eq {a b : FileRequest k} (first : a.ready = true) (second : b.ready = true) :
    oneByOne u path fs a b =
      (b.editor u path).after ((a.editor u path).after (contentOf fs path)) := by
  rw [oneByOne, (b.agrees u path _).file second, (a.agrees u path fs).file first]

theorem noLostUpdate_comm {a b : FileRequest k} (final : Option Str) :
    NoLostUpdate u path fs a b final ↔ NoLostUpdate u path fs b a final := Or.comm

end Serial

def start (u : CaseData) (path : Path) (fs : Fs) {k : ConfigKind}
    (requests : Side → FileRequest k) : Race (Option Str) :=
  .start (contentOf fs path) fun side => (requests side).editor u path

/-- Of two requests that both succeed no update is lost if the one that writes second reads nothing
before the first one has written. -/
theorem no_lost_update_of_apart (u : CaseData) (path : Path) (fs : Fs) {k : ConfigKind}
    (requests : Side → FileRequest k) {schedule : List Side} {last : Race (Option Str)}
    (reached : runSome Race.step (start u path fs requests) schedule = some last)
    (ended : last.Ended)
    (apart : Race.Apart (contentOf fs path) (fun side => (requests side).editor u path) schedule) :
    NoLostUpdate u path fs (requests .left) (requests .right) last.cell := by
  have ready (side : Side) : (requests side).ready = true := by
    by_contra broken
    exact Race.not_hopeless_of_ended reached ended side
      (FileRequest.hopeless_of_not_ready u path (by simpa using broken))
  rcases apart with ⟨first, writesFirst⟩
  have cell : last.cell = oneByOne u path fs (requests first) (requests first.other) := by
    rw [oneByOne_eq (ready first) (ready first.other)]
    exact Race.cell_of_writesFirst reached ended writesFirst
  have ordered : NoLostUpdate u path fs (requests first) (requests first.other) last.cell :=
    .inl (congrArg (directivesOf k) cell)
  cases first with
  | left => exact ordered
  | right => exact (noLostUpdate_comm last.cell).mp ordered

def lease (name mac : String) (host : UInt8) : FileRequest .dhcp :=
  .addLease .willing ⟨name.toList, mac.toList, ⟨192, 168, 1, host⟩⟩

def twoLeases : Side → FileRequest .dhcp
  | .left => lease "phone" "aa:bb:cc:00:11:22" 6
  | .right => lease "printer" "aa:bb:cc:00:11:33" 7

def oneLease : Fs := oneFile StaticLeases.etcNanodhcp StaticLeases.oneLease

/-- Two leases that are added one after the other. -/
theorem two_leases_kept :
    ∃ last, runSome Race.step (start .ascii StaticLeases.etcNanodhcp oneLease twoLeases)
        [.left, .left, .right, .right] = some last ∧ last.Ended ∧
      NoLostUpdate .ascii StaticLeases.etcNanodhcp oneLease (twoLeases .left) (twoLeases .right)
        last.cell := by
  have ends : (runSome Race.step (start .ascii StaticLeases.etcNanodhcp oneLease twoLeases)
      [.left, .left, .right, .right]).any (fun race =>
        (race.threads .left).isNone && (race.threads .right).isNone) = true := by decide +kernel
  have first : (runSome Race.step (start .ascii StaticLeases.etcNanodhcp oneLease twoLeases)
      [.left]).any (fun race => ((race.threads .left).bind Editor.writes).isSome &&
        (race.threads .right).isSome) = true := by decide +kernel
  rcases (Option.any_eq_true ..).mp ends with ⟨last, reached, finished⟩
  rcases (Option.any_eq_true ..).mp first with ⟨middle, before, writes⟩
  rw [Bool.and_eq_true, Option.isNone_iff_eq_none, Option.isNone_iff_eq_none] at finished
  rw [Bool.and_eq_true] at writes
  have ended : last.Ended := by
    intro side
    cases side with
    | left => exact finished.1
    | right => exact finished.2
  refine ⟨last, reached, ended, ?_⟩
  exact no_lost_update_of_apart .ascii StaticLeases.etcNanodhcp oneLease twoLeases reached ended
    ⟨.left, [.left], [.right, .right], middle, rfl, rfl, before, writes.1, writes.2⟩

/-- Two leases that are added at the same time: both requests succeed and one lease is gone. -/
theorem one_of_two_leases_lost :
    ∃ last, runSome Race.step (start .ascii StaticLeases.etcNanodhcp oneLease twoLeases)
        [.left, .right, .left, .right] = some last ∧ last.Ended ∧
      ¬ NoLostUpdate .ascii StaticLeases.etcNanodhcp oneLease (twoLeases .left) (twoLeases .right)
        last.cell := by
  have ends : (runSome Race.step (start .ascii StaticLeases.etcNanodhcp oneLease twoLeases)
      [.left, .right, .left, .right]).any (fun race =>
        ((race.threads .left).isNone && (race.threads .right).isNone) &&
          !NoLostUpdate .ascii StaticLeases.etcNanodhcp oneLease (twoLeases .left)
            (twoLeases .right) race.cell) = true := by decide +kernel
  rcases (Option.any_eq_true ..).mp ends with ⟨last, reached, finished⟩
  rw [Bool.and_eq_true, Bool.and_eq_true, Option.isNone_iff_eq_none, Option.isNone_iff_eq_none]
    at finished
  refine ⟨last, reached, fun side => ?_, by simpa using finished.2⟩
  cases side with
  | left => exact finished.1.1
  | right => exact finished.1.2

end EditRace

end TinyWifi
