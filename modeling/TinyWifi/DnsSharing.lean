import TinyWifi.Adblock
import TinyWifi.DnsUpdate
import TinyWifi.SharedConf

/-! The requests about DNS. The settings, the ad-block switch and the static records stand in one
config, and each request reads and writes the whole of it. -/

namespace TinyWifi

open Text Exec Checks Directives Views Runs SharedConf

def dnsRecordError (error : DnsRecordError) : ApiError :=
  match error with
  | .duplicateName _ => ⟨409, error.display⟩
  | .notFound _ => ⟨404, error.display⟩
  | .load _ | .notWritable _ | .io _ => ⟨500, error.display⟩

def dnsSettingsPost (env : FileEnv) (path : Path) (settings : NanoDnsSettings) :
    Exec Fs ApiError Unit :=
  mapError (fun e => ⟨500, e.display⟩) (updateDnsSettings env path settings)

def dnsRecordsPost (u : CaseData) (env : FileEnv) (path : Path) (record : DnsRecord) :
    Exec Fs ApiError Unit :=
  mapError dnsRecordError (addDnsRecord u env path record)

def dnsRecordsDelete (u : CaseData) (env : FileEnv) (path : Path) (name rtype : Str) :
    Exec Fs ApiError Unit :=
  mapError dnsRecordError (removeDnsRecord u env path name rtype)

structure DnsAnswer where
  settings : NanoDnsSettings
  records : List DnsRecord
  deriving DecidableEq, Repr

def dnsGet (u : CaseData) (first second : Bool) (path : Path) (fs : Fs) : DnsAnswer where
  settings := (getDnsSettings first path fs).toOption.getD default
  records := (listDnsRecords u second path fs).toOption.getD []

namespace DnsSharing

inductive DnsRequest
  | settings (env : FileEnv) (settings : NanoDnsSettings)
  | addRecord (env : FileEnv) (record : DnsRecord)
  | removeRecord (env : FileEnv) (name rtype : Str)
  | adblock (response toggle : AdblockEnv) (body : AdblockToggleBody)

inductive Owner
  | settings
  | records
  | nobody
  deriving DecidableEq, Repr

def ownerOf (key : Str) : Owner :=
  if key = keyRecord then .records
  else if DnsUpdate.settingKeys.any (· = key) then .settings
  else .nobody

def mine (owner : Owner) (key : Str) : Bool := ownerOf key = owner

namespace DnsRequest

def owner : DnsRequest → Owner
  | .settings .. | .adblock .. => .settings
  | .addRecord .. | .removeRecord .. => .records

def serve (u : CaseData) (path : Path) : DnsRequest → Exec Fs ApiError Unit
  | .settings env given => dnsSettingsPost env path given
  | .addRecord env record => dnsRecordsPost u env path record
  | .removeRecord env name rtype => dnsRecordsDelete u env path name rtype
  | .adblock response toggle body => adblockPost response toggle path body

end DnsRequest

structure InLines (given : NanoDnsSettings) : Prop where
  domain : '\n' ∉ given.domain
  routerName : '\n' ∉ given.routerName
  upstreams : ∀ up ∈ given.upstreams, '\n' ∉ up
  blockFile : ∀ file ∈ given.blockFile, '\n' ∉ file
  blockResponse : '\n' ∉ given.blockResponse

def DnsRequest.Plain : DnsRequest → Prop
  | .settings env given => env.write.Whole ∧ InLines given
  | .addRecord env record => env.write.Whole ∧ '\n' ∉ record.name ∧ '\n' ∉ record.rtype ∧
      '\n' ∉ record.value
  | .removeRecord env _ _ => env.write.Whole
  | .adblock response toggle body => response.update.write.Whole ∧ toggle.update.write.Whole ∧
      ∀ text ∈ body.blockResponse, '\n' ∉ text

def step (u : CaseData) (path : Path) (fs : Fs) (request : DnsRequest) : Fs :=
  (outcome (request.serve u path) fs).2

def answer (u : CaseData) (path : Path) (fs : Fs) (request : DnsRequest) : Except ApiError Unit :=
  (outcome (request.serve u path) fs).1

def settingsEdits (given : NanoDnsSettings) : List (Edit Str Str) :=
  [.put keyDomain given.domain, .put keyRouterName given.routerName, .remove keyUpstream] ++
    given.upstreams.map (.add keyUpstream) ++
    [.remove keyBlockFile, .remove keyBlockResponse] ++
    given.blockFile.elim [] fun file =>
      [.add keyBlockFile file, .add keyBlockResponse given.blockResponse]

section Reading

variable {path : Path} {fs fs' : Fs} {owner : Owner}

theorem fromPath_cases (readable : Bool)
    (same : part id (mine owner) path fs = part id (mine owner) path fs') :
    (∃ e, NanoDnsConf.fromPath readable path fs = .error e ∧
      NanoDnsConf.fromPath readable path fs' = .error e) ∨
    ∃ content content', contentOf fs path = some content ∧ contentOf fs' path = some content' ∧
      slice (mine owner) (directives (NanoDnsConf.parse content).lines) =
        slice (mine owner) (directives (NanoDnsConf.parse content').lines) ∧
      NanoDnsConf.fromPath readable path fs = .ok (NanoDnsConf.parse content) ∧
      NanoDnsConf.fromPath readable path fs' = .ok (NanoDnsConf.parse content') :=
  load_cases (DnsError.notFound path) (DnsError.notReadable path) DnsError.io NanoDnsConf.parse
    readable same

variable {conf conf' : NanoDnsConf}

theorem get_congr {key : Str} (own : mine owner key = true)
    (same : slice (mine owner) (directives conf.lines) =
      slice (mine owner) (directives conf'.lines)) : conf.get key = conf'.get key := by
  rw [NanoDnsConf.get_eq, NanoDnsConf.get_eq, lookup_congr own same]

theorem getAll_congr {key : Str} (own : mine owner key = true)
    (same : slice (mine owner) (directives conf.lines) =
      slice (mine owner) (directives conf'.lines)) : conf.getAll key = conf'.getAll key := by
  rw [NanoDnsConf.getAll_eq, NanoDnsConf.getAll_eq, values_congr own same]

theorem settingsOf_congr (same : slice (mine .settings) (directives conf.lines) =
    slice (mine .settings) (directives conf'.lines)) : settingsOf conf = settingsOf conf' := by
  rw [settingsOf, settingsOf, get_congr (by decide) same, get_congr (by decide) same,
    getAll_congr (by decide) same, get_congr (by decide) same, get_congr (by decide) same]

theorem recordsOf_congr (u : CaseData) (same : slice (mine .records) (directives conf.lines) =
    slice (mine .records) (directives conf'.lines)) : recordsOf u conf = recordsOf u conf' := by
  rw [recordsOf, recordsOf, getAll_congr (by decide) same]

theorem getDnsSettings_congr (readable : Bool)
    (same : part id (mine .settings) path fs = part id (mine .settings) path fs') :
    getDnsSettings readable path fs = getDnsSettings readable path fs' := by
  unfold getDnsSettings
  rcases fromPath_cases readable same with ⟨e, first, second⟩ |
    ⟨content, content', -, -, slices, first, second⟩
  · rw [first, second]
  · rw [first, second]
    exact congrArg Except.ok (settingsOf_congr slices)

theorem listDnsRecords_congr (u : CaseData) (readable : Bool)
    (same : part id (mine .records) path fs = part id (mine .records) path fs') :
    listDnsRecords u readable path fs = listDnsRecords u readable path fs' := by
  unfold listDnsRecords
  rcases fromPath_cases readable same with ⟨e, first, second⟩ |
    ⟨content, content', -, -, slices, first, second⟩
  · rw [first, second]
  · rw [first, second]
    exact congrArg Except.ok (recordsOf_congr u slices)

end Reading

section Settings

variable {given : NanoDnsSettings} {path : Path} {fs fs' : Fs}

theorem lines_foldl_add (ups : List Str) (conf : NanoDnsConf) :
    (ups.foldl (fun conf up => conf.append keyUpstream up) conf).lines =
      editLines (ups.map (.add keyUpstream)) conf.lines := by
  induction ups generalizing conf with
  | nil => rfl
  | cons up rest ih => exact ih (conf.append keyUpstream up)

theorem lines_withSettings (given : NanoDnsSettings) (conf : NanoDnsConf) :
    (withSettings given conf).lines = editLines (settingsEdits given) conf.lines := by
  rw [settingsEdits, editLines_append, editLines_append, editLines_append, withSettings]
  have front := lines_foldl_add given.upstreams
    (((conf.set keyDomain given.domain).set keyRouterName given.routerName).removeAll keyUpstream)
  cases given.blockFile with
  | none =>
      dsimp only [Option.elim_none]
      rw [NanoDnsConf.removeAll, NanoDnsConf.removeAll, front]
      rfl
  | some file =>
      dsimp only [Option.elim_some]
      rw [NanoDnsConf.append, NanoDnsConf.append, NanoDnsConf.removeAll, NanoDnsConf.removeAll,
        front]
      rfl

theorem fits_settingsEdits (inLines : InLines given) :
    ∀ edit ∈ settingsEdits given, Fits id (mine .settings) edit := by
  intro edit member
  simp only [settingsEdits, List.mem_append, List.mem_cons, List.not_mem_nil, or_false,
    List.mem_map] at member
  rcases member with ((((rfl | rfl | rfl) | ⟨up, inside, rfl⟩) | (rfl | rfl)) | blocking)
  · exact fits_put (by decide) (by decide) inLines.domain (trim_trim _)
  · exact fits_put (by decide) (by decide) inLines.routerName (trim_trim _)
  · exact fits_silent (by decide) (by decide) rfl rfl
  · exact fits_add (by decide) (by decide) (inLines.upstreams up inside) (trim_trim _)
  · exact fits_silent (by decide) (by decide) rfl rfl
  · exact fits_silent (by decide) (by decide) rfl rfl
  · cases shape : given.blockFile with
    | none =>
        rw [shape] at blocking
        cases blocking
    | some file =>
        rw [shape, Option.elim_some, List.mem_cons, List.mem_singleton] at blocking
        rcases blocking with rfl | rfl
        · exact fits_add (by decide) (by decide) (inLines.blockFile file shape) (trim_trim _)
        · exact fits_add (by decide) (by decide) inLines.blockResponse (trim_trim _)

/-- An update goes by no more than that the config can be read. -/
theorem planned_settings (env : FileEnv) (inLines : InLines given) :
    Planned id (mine .settings) path (settingsEdit env path given) := by
  intro fs fs' same
  unfold settingsEdit
  rcases fromPath_cases env.readable same with ⟨e, first, second⟩ |
    ⟨content, content', found, found', -, first, second⟩
  · rw [first, second]
    exact .inl ⟨e, rfl, rfl⟩
  · rw [first, second]
    cases env.writable with
    | false => exact .inl ⟨.notFound path, rfl, rfl⟩
    | true =>
        refine .inr ⟨settingsEdits given, content, content', _, _, fits_settingsEdits inLines,
          found, found', ?_, ?_, rfl, rfl⟩
        · exact congrArg printLines (lines_withSettings given (NanoDnsConf.parse content)).symm
        · exact congrArg printLines (lines_withSettings given (NanoDnsConf.parse content')).symm

theorem lasting_dns (fs : Fs) : Lasting id path fs := by
  intro content _ d member
  obtain ⟨raw, shape⟩ := exists_of_mem_readTrimmed ((mem_directives _ d.1 d.2).mp member)
  rw [shape]
  exact trim_trim raw

theorem apart_of_ne {owner other : Owner} (differ : owner ≠ other) (k : Str)
    (own : mine owner k = true) : mine other k = false :=
  decide_eq_false fun same => differ ((of_decide_eq_true own).symm.trans same)

theorem through_update {env : FileEnv} (whole : env.write.Whole) (inLines : InLines given) :
    Through (part id (mine .settings) path) (updateDnsSettings env path given) :=
  through_editor List.Subset.refl (planned_settings env inLines) (settles_rewrite whole _)

theorem leaves_update {env : FileEnv} (whole : env.write.Whole) (inLines : InLines given)
    {other : Owner} (differ : Owner.settings ≠ other) :
    Leaves (part id (mine other) path) (updateDnsSettings env path given) := fun fs =>
  leaves_editor List.Subset.refl (planned_settings env inLines) (settles_rewrite whole _)
    (apart_of_ne differ) (lasting_dns fs)

theorem inLines_settingsOf (content : Str) : InLines (settingsOf (NanoDnsConf.parse content)) := by
  have printable := Adblock.printable_settingsOf content
  exact ⟨printable.domain, printable.routerName, printable.upstreams, printable.blockFile,
    printable.response⟩

/-- The setters of the ad-block switch write settings that they have read. -/
theorem inLines_of_read {readable : Bool}
    {change : NanoDnsSettings → NanoDnsSettings}
    (fine : ∀ given, InLines given → InLines (change given))
    (read : (outcome (mapError DnsError.display (reading (getDnsSettings readable path))) fs).1 =
      .ok given) : InLines (change given) := by
  have ended := outcome_mapError_ok.mp (Prod.ext read rfl)
  rw [outcome_reading, Prod.mk.injEq] at ended
  obtain ⟨-, content, -, rfl⟩ := getDnsSettings_eq_ok.mp ended.1
  exact fine _ (inLines_settingsOf content)

variable {env : AdblockEnv} {change : NanoDnsSettings → NanoDnsSettings}

theorem through_adblockSet (whole : env.update.write.Whole)
    (fine : ∀ given, InLines given → InLines (change given)) :
    Through (part id (mine .settings) path) (adblockSet env path change) := by
  apply through_bind
  · exact through_mapError (through_reading fun _ _ => getDnsSettings_congr env.readable)
  · intro given fs read
    exact through_mapError (through_update whole (inLines_of_read fine read))

theorem leaves_adblockSet (whole : env.update.write.Whole)
    (fine : ∀ given, InLines given → InLines (change given)) {other : Owner}
    (differ : Owner.settings ≠ other) :
    Leaves (part id (mine other) path) (adblockSet env path change) := by
  apply leaves_bind
  · exact leaves_mapError (leaves_reading _)
  · intro given fs read
    exact leaves_mapError (leaves_update whole (inLines_of_read fine read) differ)

end Settings

section Records

variable {u : CaseData} {path : Path} {env : FileEnv}

theorem planned_added {record : DnsRecord} (name : '\n' ∉ record.name) (rtype : '\n' ∉ record.rtype)
    (value : '\n' ∉ record.value) :
    Planned id (mine .records) path (recordEdit env path (addedRecord u env path record)) := by
  refine planned_edit NanoDnsConf.parse NanoDnsConf.lines (fun _ => rfl) (DnsError.notFound path)
    (DnsError.notReadable path) DnsError.io env.readable DnsRecordError.load ?_
  intro conf conf' same
  have ttl : '\n' ∉ printNat record.ttl.toNat := not_mem_printNat (by decide)
  have no_lf : '\n' ∉ record.toConfValue := by simp [DnsRecord.toConfValue, name, rtype, value, ttl]
  unfold addedRecord
  rw [recordsOf_congr u same]
  dsimp only
  cases (recordsOf u conf').any fun r =>
    u.toLowercase r.name = u.toLowercase record.name ∧ r.rtype = record.rtype with
  | true => exact .inl ⟨.duplicateName record.name, rfl, rfl⟩
  | false =>
      cases env.writable with
      | false => exact .inl ⟨.notWritable path, rfl, rfl⟩
      | true =>
          refine .inr ⟨.add keyRecord record.toConfValue, _, _, ?_, rfl, rfl, rfl, rfl⟩
          exact fits_add (by decide) (by decide) no_lf (trim_trim _)

theorem planned_removed (name rtype : Str) :
    Planned id (mine .records) path
      (recordEdit env path (removedRecord u env path name rtype)) := by
  refine planned_edit NanoDnsConf.parse NanoDnsConf.lines (fun _ => rfl) (DnsError.notFound path)
    (DnsError.notReadable path) DnsError.io env.readable DnsRecordError.load ?_
  intro conf conf' same
  unfold removedRecord
  rw [recordsOf_congr u same]
  cases (recordsOf u conf').find? fun r =>
    u.toLowercase r.name = u.toLowercase name ∧ r.rtype = u.toUppercase rtype with
  | none => exact .inl ⟨.notFound name, rfl, rfl⟩
  | some target =>
      cases env.writable with
      | false => exact .inl ⟨.notWritable path, rfl, rfl⟩
      | true =>
          have own : mine .records keyRecord = true := by decide
          refine .inr ⟨.erase keyRecord target.toConfValue, _, _, ?_, rfl, rfl, rfl, rfl⟩
          exact fits_silent own (by decide) rfl rfl

end Records

section Requests

variable {u : CaseData} {path : Path} {request : DnsRequest}

theorem inLines_change {given : NanoDnsSettings} (inLines : InLines given) :
    InLines { given with blockFile := some blocklistPath } ∧
      InLines { given with blockFile := none } ∧
      ∀ response, '\n' ∉ response → InLines { given with blockResponse := response } := by
  refine ⟨{ inLines with blockFile := ?_ }, { inLines with blockFile := ?_ },
    fun response no_lf => { inLines with blockResponse := no_lf }⟩
  · intro file member
    rw [← Option.mem_some_iff.mp member]
    decide
  · intro file member
    cases member

/-- The requests go by the directives of their owner, and work on them. -/
theorem through_serve (plain : request.Plain) :
    Through (part id (mine request.owner) path) (request.serve u path) := by
  have setter {env : AdblockEnv} (whole : env.update.write.Whole)
      {change : NanoDnsSettings → NanoDnsSettings}
      (fine : ∀ given, InLines given → InLines (change given)) :
      Through (part id (mine .settings) path)
        (mapError (ApiError.mk 500) (adblockSet env path change)) :=
    through_mapError (through_adblockSet whole fine)
  cases request with
  | settings env given => exact through_mapError (through_update plain.1 plain.2)
  | addRecord env record =>
      exact through_mapError (through_editor List.Subset.refl
        (planned_added plain.2.1 plain.2.2.1 plain.2.2.2) (settles_rewrite plain.1 _))
  | removeRecord env name rtype =>
      exact through_mapError (through_editor List.Subset.refl (planned_removed name rtype)
        (settles_rewrite plain _))
  | adblock response toggle body =>
      obtain ⟨first, second, no_lf⟩ := plain
      have switch : Through (part id (mine .settings) path)
          (if body.enabled then mapError (ApiError.mk 500) (adblockEnable toggle path)
            else mapError (ApiError.mk 500) (adblockDisable toggle path)) := by
        apply through_ite
        · exact fun _ => setter second fun _ inLines => (inLines_change inLines).1
        · exact fun _ => setter second fun _ inLines => (inLines_change inLines).2.1
      change Through _ (adblockPost response toggle path body)
      unfold adblockPost
      cases given : body.blockResponse with
      | none => exact switch
      | some text =>
          refine through_bind (setter first fun _ inLines => ?_) fun _ _ _ => switch
          exact (inLines_change inLines).2.2 text (no_lf text given)

theorem leaves_serve (plain : request.Plain) {other : Owner} (differ : request.owner ≠ other) :
    Leaves (part id (mine other) path) (request.serve u path) := by
  have setter {env : AdblockEnv} (whole : env.update.write.Whole)
      {change : NanoDnsSettings → NanoDnsSettings}
      (fine : ∀ given, InLines given → InLines (change given)) (differ : Owner.settings ≠ other) :
      Leaves (part id (mine other) path)
        (mapError (ApiError.mk 500) (adblockSet env path change)) :=
    leaves_mapError (leaves_adblockSet whole fine differ)
  cases request with
  | settings env given => exact leaves_mapError (leaves_update plain.1 plain.2 differ)
  | addRecord env record =>
      exact leaves_mapError fun fs => leaves_editor List.Subset.refl
        (planned_added plain.2.1 plain.2.2.1 plain.2.2.2) (settles_rewrite plain.1 _)
        (apart_of_ne differ) (lasting_dns fs)
  | removeRecord env name rtype =>
      exact leaves_mapError fun fs => leaves_editor List.Subset.refl (planned_removed name rtype)
        (settles_rewrite plain _) (apart_of_ne differ) (lasting_dns fs)
  | adblock response toggle body =>
      obtain ⟨first, second, no_lf⟩ := plain
      have switch : Leaves (part id (mine other) path)
          (if body.enabled then mapError (ApiError.mk 500) (adblockEnable toggle path)
            else mapError (ApiError.mk 500) (adblockDisable toggle path)) := by
        apply within_ite
        · exact fun _ => setter second (fun _ inLines => (inLines_change inLines).1) differ
        · exact fun _ => setter second (fun _ inLines => (inLines_change inLines).2.1) differ
      change Leaves _ (adblockPost response toggle path body)
      unfold adblockPost
      cases given : body.blockResponse with
      | none => exact switch
      | some text =>
          refine leaves_bind (setter first (fun _ inLines => ?_) differ) fun _ _ _ => switch
          exact (inLines_change inLines).2.2 text (no_lf text given)

theorem separate (u : CaseData) (path : Path) (owner : Owner) :
    Separate (step u path) (answer u path) (fun _ => True) DnsRequest.Plain
      (part id (mine owner) path) (fun request => request.owner = owner) where
  kept _ _ _ _ := trivial
  through fs fs' request plain own _ _ same := by
    obtain rfl := of_decide_eq_true own
    exact through_serve plain fs fs' same
  leaves fs _ plain foreign _ := leaves_serve plain (of_decide_eq_false foreign) fs

end Requests

def only (owner : Owner) (requests : List DnsRequest) : List DnsRequest :=
  requests.filter fun request => request.owner = owner

/-- The page shows the settings that the requests about settings come to by themselves, and the
records that the requests about records come to; each is answered as if the others had not been
made, and every other directive is kept. -/
theorem dns_apart (u : CaseData) (path : Path) (fs : Fs) {requests : List DnsRequest}
    (plain : ∀ request ∈ requests, request.Plain) (first second : Bool) :
    dnsGet u first second path (run (step u path) fs requests) =
      ⟨(dnsGet u first second path (run (step u path) fs (only .settings requests))).settings,
        (dnsGet u first second path (run (step u path) fs (only .records requests))).records⟩ ∧
    (∀ owner, (log (step u path) (answer u path) fs requests).filter
        (fun entry => entry.1.owner = owner) =
      log (step u path) (answer u path) fs (only owner requests)) ∧
    part id (mine .nobody) path (run (step u path) fs requests) =
      part id (mine .nobody) path fs := by
  have apart (owner : Owner) := (separate u path owner).run_filter plain trivial trivial
    (rfl : part id (mine owner) path fs = part id (mine owner) path fs)
  refine ⟨?_, fun owner => (apart owner).2, ?_⟩
  · rw [dnsGet, getDnsSettings_congr first (apart .settings).1,
      listDnsRecords_congr u second (apart .records).1]
    rfl
  · have none : only .nobody requests = [] := by
      apply List.filter_eq_nil_iff.mpr
      intro request _ owned
      cases request <;> cases of_decide_eq_true owned
    rw [(apart .nobody).1]
    exact congrArg (fun rest => part id (mine .nobody) path (run (step u path) fs rest)) none

def evening : List DnsRequest :=
  [.addRecord .willing ⟨"tv".toList, "A".toList, "192.168.1.5".toList, 60⟩,
    .settings .willing DnsUpdate.lanSettings,
    .removeRecord .willing "nas".toList "A".toList,
    .adblock .willing .willing ⟨false, some "0.0.0.0".toList⟩]

theorem whole_willing : FileEnv.willing.write.Whole := by
  intro kept error cut
  cases cut

theorem plain_evening : ∀ request ∈ evening, request.Plain := by
  have whole := whole_willing
  simp only [evening, List.forall_mem_cons, DnsRequest.Plain]
  refine ⟨⟨whole, by decide, by decide, by decide⟩, ⟨whole, ?_⟩, whole, ⟨whole, whole, ?_⟩,
    List.forall_mem_nil _⟩
  · exact ⟨by decide, by decide, by decide, by decide, by decide⟩
  · decide

theorem dns_apart_evening :
    dnsGet .ascii true true etcNanodns
        (run (step .ascii etcNanodns) (oneFile etcNanodns DnsUpdate.homeConfig) evening) =
      ⟨(dnsGet .ascii true true etcNanodns (run (step .ascii etcNanodns)
          (oneFile etcNanodns DnsUpdate.homeConfig) (only .settings evening))).settings,
        (dnsGet .ascii true true etcNanodns (run (step .ascii etcNanodns)
          (oneFile etcNanodns DnsUpdate.homeConfig) (only .records evening))).records⟩ ∧
    (∀ owner, (log (step .ascii etcNanodns) (answer .ascii etcNanodns)
          (oneFile etcNanodns DnsUpdate.homeConfig) evening).filter
        (fun entry => entry.1.owner = owner) =
      log (step .ascii etcNanodns) (answer .ascii etcNanodns)
        (oneFile etcNanodns DnsUpdate.homeConfig) (only owner evening)) ∧
    part id (mine .nobody) etcNanodns
        (run (step .ascii etcNanodns) (oneFile etcNanodns DnsUpdate.homeConfig) evening) =
      part id (mine .nobody) etcNanodns (oneFile etcNanodns DnsUpdate.homeConfig) :=
  dns_apart .ascii etcNanodns _ plain_evening true true

end DnsSharing

end TinyWifi
