import TinyWifi.SharedConf
import TinyWifi.StaticLeases

/-! The requests about DHCP. The settings and the static leases stand in one config, and each
request reads and writes the whole of it. -/

namespace TinyWifi

open Text Exec Checks Directives Views Runs SharedConf

def dhcpError (error : DhcpUpdateError) : ApiError :=
  match error with
  | .validation _ => ⟨400, error.display⟩
  | .load _ | .notWritable _ | .io _ | .service _ | .rolledBack => ⟨500, error.display⟩

/-- With a hold the backup stays, and a timer is set. -/
def dhcpPost (env : EditEnv) (path : Path) (settings : DhcpSettings) (commit : Commit) :
    Exec Fs ApiError Unit :=
  mapError dhcpError (applyDhcp env path settings commit)

def dhcpGet (readable : Bool) (path : Path) (fs : Fs) : Except DhcpError DhcpConfig := do
  let conf ← DhcpConf.fromPath readable path fs
  DhcpConfig.fromConf conf

def staticLeasesDelete (u : UnicodeData) (env : FileEnv) (path : Path) (mac : Str) :
    Exec Fs ApiError Unit :=
  mapError staticLeaseError (removeStaticLease u env path mac)

namespace DhcpSharing

inductive DhcpRequest
  | settings (env : EditEnv) (settings : DhcpSettings) (commit : Commit)
  | addLease (env : FileEnv) (body : StaticLease)
  | removeLease (env : FileEnv) (mac : Str)

inductive Owner
  | settings
  | leases
  deriving DecidableEq, Repr

def ownerOf (key : Str) : Owner := if key = keyStatic then .leases else .settings

def mine (owner : Owner) (key : Str) : Bool := ownerOf key = owner

namespace DhcpRequest

def owner : DhcpRequest → Owner
  | .settings .. => .settings
  | .addLease .. | .removeLease .. => .leases

def serve (u : UnicodeData) (path : Path) : DhcpRequest → Exec Fs ApiError Unit
  | .settings env given commit => dhcpPost env path given commit
  | .addLease env body => staticLeasesPost u env path body
  | .removeLease env mac => staticLeasesDelete u env path mac

/-- The texts of the request can stand in a line, and no write of the config breaks off. -/
def Plain : DhcpRequest → Prop
  | .settings env _ _ => env.write.Whole ∧ env.restore.Whole
  | .addLease env body => env.write.Whole ∧ '\n' ∉ body.name ∧ '\n' ∉ body.mac
  | .removeLease env _ => env.write.Whole

end DhcpRequest

def step (u : UnicodeData) (path : Path) (fs : Fs) (request : DhcpRequest) : Fs :=
  (outcome (request.serve u path) fs).2

def answer (u : UnicodeData) (path : Path) (fs : Fs) (request : DhcpRequest) :
    Except ApiError Unit :=
  (outcome (request.serve u path) fs).1

section Reading

variable {path : Path} {fs fs' : Fs} {owner : Owner}

/-- Two configs with the same part load with the same error, or both load. -/
theorem fromPath_cases (readable : Bool)
    (same : part unquote (mine owner) path fs = part unquote (mine owner) path fs') :
    (∃ e, DhcpConf.fromPath readable path fs = .error e ∧
      DhcpConf.fromPath readable path fs' = .error e) ∨
    ∃ content content', contentOf fs path = some content ∧ contentOf fs' path = some content' ∧
      slice (mine owner) (directives (DhcpConf.parse content).lines) =
        slice (mine owner) (directives (DhcpConf.parse content').lines) ∧
      DhcpConf.fromPath readable path fs = .ok (DhcpConf.parse content) ∧
      DhcpConf.fromPath readable path fs' = .ok (DhcpConf.parse content') :=
  load_cases (DhcpError.notFound path) (DhcpError.notReadable path) DhcpError.io DhcpConf.parse
    readable same

variable {conf conf' : DhcpConf}

theorem fromConf_congr (same : slice (mine .settings) (directives conf.lines) =
    slice (mine .settings) (directives conf'.lines)) :
    DhcpConfig.fromConf conf = DhcpConfig.fromConf conf' := by
  apply DhcpEdits.fromConf_congr
  intro key member
  have own : ∀ key ∈ DhcpEdits.viewKeys, mine .settings key = true := by decide
  rw [DhcpEdits.get_eq, DhcpEdits.get_eq, lookup_congr (own key member) same]

theorem leasesOf_congr (u : UnicodeData) (same : slice (mine .leases) (directives conf.lines) =
    slice (mine .leases) (directives conf'.lines)) : leasesOf u conf = leasesOf u conf' := by
  have own : mine .leases keyStatic = true := by decide
  rw [leasesOf, leasesOf, DhcpEdits.getAll_eq, DhcpEdits.getAll_eq, values_congr own same]

theorem dhcpGet_congr (readable : Bool)
    (same : part unquote (mine .settings) path fs = part unquote (mine .settings) path fs') :
    dhcpGet readable path fs = dhcpGet readable path fs' := by
  unfold dhcpGet
  rcases fromPath_cases readable same with ⟨e, first, second⟩ |
    ⟨content, content', -, -, slices, first, second⟩
  · rw [first, second]
  · rw [first, second]
    exact fromConf_congr slices

theorem listStaticLeases_congr (u : UnicodeData) (readable : Bool)
    (same : part unquote (mine .leases) path fs = part unquote (mine .leases) path fs') :
    listStaticLeases u readable path fs = listStaticLeases u readable path fs' := by
  unfold listStaticLeases
  rcases fromPath_cases readable same with ⟨e, first, second⟩ |
    ⟨content, content', -, -, slices, first, second⟩
  · rw [first, second]
  · rw [first, second]
    exact congrArg Except.ok (leasesOf_congr u slices)

end Reading

section Settings

variable {given : DhcpSettings} {path : Path}

def settingsEdits (given : DhcpSettings) : List (Edit Str Str) :=
  (DhcpEdits.changes given).map fun change => .put change.1 change.2

theorem lines_apply (given : DhcpSettings) (conf : DhcpConf) :
    (conf.apply given).lines = editLines (settingsEdits given) conf.lines := rfl

theorem fits_settingsEdits (given : DhcpSettings) :
    ∀ edit ∈ settingsEdits given, Fits unquote (mine .settings) edit := by
  intro edit member
  obtain ⟨change, inside, rfl⟩ := List.mem_map.mp member
  have keys : ∀ key ∈ DhcpEdits.changedKeys, mine .settings key = true := by decide
  obtain ⟨isKey, no_lf⟩ := DhcpEdits.valid_changes given change inside
  have stable : unquote (trim change.2) = change.2 := DhcpEdits.stable_changes given change inside
  exact fits_put (keys change.1 (List.mem_map_of_mem inside)) isKey no_lf (by rw [stable, stable])

def checkedDhcp (env : EditEnv) (path : Path) (given : DhcpSettings) (conf : DhcpConf) :
    Except DhcpUpdateError Unit := do
  let view ← (DhcpConfig.fromConf (conf.apply given)).mapError .load
  view.validate.mapError .validation
  require env.writable (.notWritable path)

theorem editedDhcp_eq {env : EditEnv} {fs : Fs} {conf : DhcpConf}
    (read : DhcpConf.fromPath env.readable path fs = .ok conf) :
    editedDhcp env path given fs =
      (checkedDhcp env path given conf).map fun _ => (conf.apply given).display := by
  rw [editedDhcp, read, checkedDhcp]
  change ((DhcpConfig.fromConf (conf.apply given)).mapError DhcpUpdateError.load >>= _) = _
  cases DhcpConfig.fromConf (conf.apply given) with
  | error e => rfl
  | ok view =>
      change ((view.validate.mapError DhcpUpdateError.validation) >>= _) =
        Except.map _ ((view.validate.mapError DhcpUpdateError.validation) >>= _)
      cases view.validate with
      | error errors => rfl
      | ok _ => cases env.writable <;> rfl

theorem checkedDhcp_congr (env : EditEnv) {conf conf' : DhcpConf}
    (same : slice (mine .settings) (directives conf.lines) =
      slice (mine .settings) (directives conf'.lines)) :
    checkedDhcp env path given conf = checkedDhcp env path given conf' := by
  have own : ∀ edit ∈ settingsEdits given, mine .settings edit.key = true :=
    fun edit member => (fits_settingsEdits given edit member).own
  have view : DhcpConfig.fromConf (conf.apply given) = DhcpConfig.fromConf (conf'.apply given) := by
    apply fromConf_congr
    rw [lines_apply, lines_apply, directives_editLines, directives_editLines, slice_applyAll own,
      slice_applyAll own, same]
  rw [checkedDhcp, checkedDhcp, view]

theorem planned_settings (env : EditEnv) :
    Planned unquote (mine .settings) path (editedDhcp env path given) := by
  intro fs fs' same
  rcases fromPath_cases env.readable same with ⟨e, first, second⟩ |
    ⟨content, content', found, found', slices, first, second⟩
  · rw [editedDhcp, first, editedDhcp, second]
    exact .inl ⟨.load e, rfl, rfl⟩
  · rw [editedDhcp_eq first, editedDhcp_eq second, checkedDhcp_congr env slices]
    cases checkedDhcp env path given (DhcpConf.parse content') with
    | error e => exact .inl ⟨e, rfl, rfl⟩
    | ok _ =>
        exact .inr ⟨settingsEdits given, content, content', _, _, fits_settingsEdits given, found,
          found', rfl, rfl, rfl, rfl⟩

end Settings

section Leases

variable {u : UnicodeData} {path : Path} {env : FileEnv}

/-- What a lease loses on its first way through the file, it loses once. -/
theorem lasting_value (body : StaticLease) :
    unquote (trim (unquote (trim (body.toConfValue u)))) =
      unquote (trim (body.toConfValue u)) := by
  have once := StaticLeases.reread_value body.name (u.toLowercase body.mac) body.ip
  have again := StaticLeases.reread_value (trimStart body.name) (u.toLowercase body.mac) body.ip
  rw [DhcpEdits.reread] at once again
  rw [StaticLease.toConfValue, once, again, trimStart, trimStart, List.dropWhile_idempotent]

theorem planned_added (lawful : u.Lawful) {body : StaticLease} (name : '\n' ∉ body.name)
    (mac : '\n' ∉ body.mac) :
    Planned unquote (mine .leases) path (leaseEdit env path (addedLease u env path body)) := by
  refine planned_edit DhcpConf.parse DhcpConf.lines (fun _ => rfl) (DhcpError.notFound path)
    (DhcpError.notReadable path) DhcpError.io env.readable StaticLeaseError.load ?_
  intro conf conf' same
  unfold addedLease
  rw [leasesOf_congr u same]
  dsimp only
  cases (leasesOf u conf').any (·.mac = u.toLowercase body.mac) with
  | true => exact .inl ⟨.duplicateMac (u.toLowercase body.mac), rfl, rfl⟩
  | false =>
      cases (leasesOf u conf').any (·.ip = body.ip) with
      | true => exact .inl ⟨.duplicateIp body.ip, rfl, rfl⟩
      | false =>
          cases env.writable with
          | false => exact .inl ⟨.notWritable path, rfl, rfl⟩
          | true =>
              refine .inr ⟨.add keyStatic (body.toConfValue u), _, _, ?_, rfl, rfl, rfl, rfl⟩
              exact fits_add (by decide) (by decide) (StaticLeases.no_lf_value lawful name mac)
                (lasting_value body)

theorem planned_removed (mac : Str) :
    Planned unquote (mine .leases) path (leaseEdit env path (removedLease u env path mac)) := by
  refine planned_edit DhcpConf.parse DhcpConf.lines (fun _ => rfl) (DhcpError.notFound path)
    (DhcpError.notReadable path) DhcpError.io env.readable StaticLeaseError.load ?_
  intro conf conf' same
  unfold removedLease
  rw [leasesOf_congr u same]
  dsimp only
  cases (leasesOf u conf').find? (·.mac = u.toLowercase mac) with
  | none => exact .inl ⟨.notFound (u.toLowercase mac), rfl, rfl⟩
  | some target =>
      cases env.writable with
      | false => exact .inl ⟨.notWritable path, rfl, rfl⟩
      | true =>
          have own : mine .leases keyStatic = true := by decide
          refine .inr ⟨.eraseAll keyStatic (target.toConfValue u), _, _, ?_, rfl, rfl, rfl, rfl⟩
          exact fits_silent own (by decide) rfl rfl

end Leases

section Requests

variable {u : UnicodeData} {path : Path} {request : DhcpRequest}

theorem apart_of_ne {owner other : Owner} (differ : owner ≠ other) (k : Str)
    (own : mine owner k = true) : mine other k = false :=
  decide_eq_false fun same => differ ((of_decide_eq_true own).symm.trans same)

theorem serve_editor (lawful : u.Lawful) (plain : request.Plain) :
    ∃ (ε : Type) (f : ε → ApiError) (edited : Fs → Except ε Str) (tail : Str → Exec Fs ε Unit),
      request.serve u path = mapError f (editor edited tail) ∧
        Planned unquote (mine request.owner) path edited ∧ Settles path tail := by
  cases request with
  | settings env given commit =>
      exact ⟨_, dhcpError, _, _, rfl, planned_settings env,
        settles_saveEdited plain.1 plain.2 _ commit⟩
  | addLease env body =>
      exact ⟨_, staticLeaseError, _, _, rfl, planned_added lawful plain.2.1 plain.2.2,
        settles_rewrite plain.1 _⟩
  | removeLease env mac =>
      exact ⟨_, staticLeaseError, _, _, rfl, planned_removed mac, settles_rewrite plain _⟩

theorem separate (lawful : u.Lawful) (path : Path) (owner : Owner) :
    Separate (step u path) (answer u path) (Lasting unquote path) DhcpRequest.Plain
      (part unquote (mine owner) path) (fun request => request.owner = owner) where
  kept fs request plain lasting := by
    obtain ⟨ε, f, edited, tail, served, planned, settles⟩ := serve_editor lawful plain
    rw [step, served, mapError_state]
    exact lasting_editor DhcpEdits.unquote_subset planned settles lasting
  through fs fs' request plain own _ _ same := by
    obtain ⟨ε, f, edited, tail, served, planned, settles⟩ := serve_editor lawful plain
    obtain rfl := of_decide_eq_true own
    rw [answer, answer, step, step, served]
    exact through_mapError (through_editor DhcpEdits.unquote_subset planned settles) fs fs' same
  leaves fs request plain foreign lasting := by
    obtain ⟨ε, f, edited, tail, served, planned, settles⟩ := serve_editor lawful plain
    rw [step, served, mapError_state]
    exact leaves_editor DhcpEdits.unquote_subset planned settles
      (apart_of_ne (of_decide_eq_false foreign)) lasting

end Requests

def only (owner : Owner) (requests : List DhcpRequest) : List DhcpRequest :=
  requests.filter fun request => request.owner = owner

/-- The settings are what the requests about settings come to by themselves, and the static leases
what the requests about leases come to; each is answered as if the others had not been made. -/
theorem dhcp_apart {u : UnicodeData} (lawful : u.Lawful) {path : Path} {fs : Fs}
    (lasting : Lasting unquote path fs) {requests : List DhcpRequest}
    (plain : ∀ request ∈ requests, request.Plain) (readable : Bool) :
    dhcpGet readable path (run (step u path) fs requests) =
      dhcpGet readable path (run (step u path) fs (only .settings requests)) ∧
    listStaticLeases u readable path (run (step u path) fs requests) =
      listStaticLeases u readable path (run (step u path) fs (only .leases requests)) ∧
    ∀ owner, (log (step u path) (answer u path) fs requests).filter
        (fun entry => entry.1.owner = owner) =
      log (step u path) (answer u path) fs (only owner requests) := by
  have apart (owner : Owner) := (separate lawful path owner).run_filter plain lasting lasting
    (rfl : part unquote (mine owner) path fs = part unquote (mine owner) path fs)
  exact ⟨dhcpGet_congr readable (apart .settings).1,
    listStaticLeases_congr u readable (apart .leases).1, fun owner => (apart owner).2⟩

def office : Fs := oneFile StaticLeases.etcNanodhcp (DhcpEdits.confOn "\"wlan0\"")

def officeDay : List DhcpRequest :=
  [.addLease .willing ⟨"tv".toList, "AA:BB:CC:DD:EE:FF".toList, ⟨192, 168, 2, 11⟩⟩,
    .settings .willing DhcpEdits.officeSettings .now,
    .settings { EditEnv.willing with running := false } DhcpEdits.officeSettings .hold,
    .removeLease .willing "aa:bb:cc:dd:ee:ff".toList]

theorem lasting_office : Lasting unquote StaticLeases.etcNanodhcp office := by
  intro content found
  rw [office, oneFile, contentOf_put, Option.some_inj] at found
  subst content
  decide +kernel

theorem plain_officeDay : ∀ request ∈ officeDay, request.Plain := by
  have whole : WriteOutcome.done.Whole := by
    intro kept error cut
    cases cut
  simp only [officeDay, List.forall_mem_cons, DhcpRequest.Plain]
  exact ⟨⟨whole, by decide, by decide⟩, ⟨whole, whole⟩, ⟨whole, whole⟩, whole,
    List.forall_mem_nil _⟩

theorem dhcp_apart_officeDay :
    dhcpGet true StaticLeases.etcNanodhcp
        (run (step .ascii StaticLeases.etcNanodhcp) office officeDay) =
      dhcpGet true StaticLeases.etcNanodhcp
        (run (step .ascii StaticLeases.etcNanodhcp) office (only .settings officeDay)) ∧
    listStaticLeases .ascii true StaticLeases.etcNanodhcp
        (run (step .ascii StaticLeases.etcNanodhcp) office officeDay) =
      listStaticLeases .ascii true StaticLeases.etcNanodhcp
        (run (step .ascii StaticLeases.etcNanodhcp) office (only .leases officeDay)) ∧
    ∀ owner, (log (step .ascii StaticLeases.etcNanodhcp) (answer .ascii StaticLeases.etcNanodhcp)
          office officeDay).filter (fun entry => entry.1.owner = owner) =
      log (step .ascii StaticLeases.etcNanodhcp) (answer .ascii StaticLeases.etcNanodhcp) office
        (only owner officeDay) :=
  dhcp_apart UnicodeData.ascii_lawful lasting_office plain_officeDay true

end DhcpSharing

end TinyWifi
