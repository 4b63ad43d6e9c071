import Mathlib.Data.List.Nodup
import TinyWifi.NanoDns
import TinyWifi.Lib.Runs

/-! Adding static DNS records. The test for a duplicate compares the type as it is given with the
types of the listed records, which are in upper case. -/

namespace TinyWifi

open Text Exec Checks Runs

namespace DnsRecords

variable (u : CaseData)

structure Request where
  env : FileEnv
  record : DnsRecord
  deriving DecidableEq, Repr

def post (path : Path) (fs : Fs) (request : Request) : Except DnsRecordError Unit × Fs :=
  outcome (addDnsRecord u request.env path request.record) fs

def step (path : Path) (fs : Fs) (request : Request) : Fs := (post u path fs request).2

def asked (record : DnsRecord) : DnsRecord :=
  ⟨trim record.name, u.toUppercase (trim record.rtype), trim record.value, record.ttl⟩

def key (name rtype : Str) : Str × Str := (u.toLowercase name, u.toUppercase rtype)

def keyOf (record : DnsRecord) : Str × Str := key u record.name record.rtype

def Distinct (records : List DnsRecord) : Prop := (records.map (keyOf u)).Nodup

structure Plain (record : DnsRecord) : Prop where
  name : ',' ∉ record.name ∧ '\n' ∉ record.name
  rtype : ',' ∉ record.rtype ∧ '\n' ∉ record.rtype
  value : ',' ∉ record.value ∧ '\n' ∉ record.value

/-- A request that is accepted appends the record it asks for, and one for a name and type that are
listed in any case is refused. -/
structure Stores (path : Path) (fs : Fs) (request : Request) : Prop where
  accepted : (post u path fs request).1 = .ok () →
    ∃ records, listDnsRecords u true path fs = .ok records ∧
      listDnsRecords u true path (step u path fs request) =
        .ok (records ++ [asked u request.record]) ∧
      Distinct u (records ++ [asked u request.record])
  duplicate : ∀ records, listDnsRecords u request.env.readable path fs = .ok records →
    keyOf u request.record ∈ records.map (keyOf u) →
    post u path fs request = (.error (.duplicateName request.record.name), fs)

/-- Where the name and type are listed without their case and their blanks, they are given as the
list has them: the name without blanks, the type in upper case. -/
def Spelled (conf : NanoDnsConf) (record : DnsRecord) : Prop :=
  key u (trim record.name) (trim record.rtype) ∈ (recordsOf u conf).map (keyOf u) →
    trim record.name = record.name ∧ u.toUppercase (trim record.rtype) = record.rtype

def Safe (path : Path) (fs : Fs) (request : Request) : Prop :=
  request.env.write.Whole ∧ ∀ content, contentOf fs path = some content →
    Spelled u (NanoDnsConf.parse content) request.record

def Sound (path : Path) (fs : Fs) : Prop :=
  ∀ records, listDnsRecords u true path fs = .ok records → Distinct u records

section Line

variable {u}

theorem trim_value (record : DnsRecord) :
    trim record.toConfValue =
      DnsRecord.toConfValue { record with name := trimStart record.name } := by
  have comma : isWhitespace ',' = false := by decide
  have last : ∀ front : Str, ∀ c ∈ (front ++ printNat record.ttl.toNat).getLast?,
      isWhitespace c = false := by
    intro front c member
    have nonempty : printNat record.ttl.toNat ≠ [] := Nat.toDigits_ne_nil
    rw [List.getLast?_append_of_ne_nil _ nonempty] at member
    exact isDigit_not_whitespace (isDigit_of_mem_printNat (List.mem_of_mem_getLast? member))
  have start : trimStart record.toConfValue =
      DnsRecord.toConfValue { record with name := trimStart record.name } := by
    simp only [DnsRecord.toConfValue, List.append_assoc, List.cons_append]
    rw [trimStart_append _ _ comma]
  rw [trim, start]
  apply trimEnd_eq_self
  have shape : DnsRecord.toConfValue { record with name := trimStart record.name } =
      (trimStart record.name ++ ',' :: record.rtype ++ ',' :: record.value ++ [',']) ++
        printNat record.ttl.toNat := by simp [DnsRecord.toConfValue]
  rw [shape]
  exact last _

theorem parse_value {record : DnsRecord} (name : ',' ∉ record.name) (rtype : ',' ∉ record.rtype)
    (value : ',' ∉ record.value) :
    DnsRecord.parse u record.toConfValue = some (asked u record) := by
  have ttl : parseUnsigned 4294967296 (trim (printNat record.ttl.toNat)) =
      some record.ttl.toNat := by
    rw [trim_of_trimmed (trimmed_printNat _), parseUnsigned_printNat record.ttl.toNat_lt]
  simp only [DnsRecord.toConfValue, List.append_assoc, List.cons_append]
  rw [DnsRecord.parse, splitN_cons name, splitN_cons rtype, splitN_cons value, splitN]
  dsimp only
  rw [ttl]
  simp [asked]

theorem reread_value {record : DnsRecord} (plain : Plain record) :
    DnsRecord.parse u (trim record.toConfValue) = some (asked u record) := by
  have name : ',' ∉ trimStart record.name :=
    fun member => plain.name.1 ((List.dropWhile_sublist _).subset member)
  have parsed := @parse_value u { record with name := trimStart record.name } name plain.rtype.1
    plain.value.1
  rw [trim_value, parsed, asked, asked, trim_trimStart]

theorem no_lf_value {record : DnsRecord} (plain : Plain record) : '\n' ∉ record.toConfValue := by
  have ttl : '\n' ∉ printNat record.ttl.toNat := not_mem_printNat (by decide)
  simp [DnsRecord.toConfValue, plain.name.2, plain.rtype.2, plain.value.2, ttl]

end Line

section List

variable {u} {content : Str} {record : DnsRecord}

def addedText (content : Str) (record : DnsRecord) : Str :=
  ((NanoDnsConf.parse content).append keyRecord record.toConfValue).display

theorem recordsOf_added (plain : Plain record) :
    recordsOf u (NanoDnsConf.parse (addedText content record)) =
      recordsOf u (NanoDnsConf.parse content) ++ [asked u record] := by
  have appended : ((NanoDnsConf.parse content).append keyRecord record.toConfValue).getAll
      keyRecord = (NanoDnsConf.parse content).getAll keyRecord ++ [record.toConfValue] := by
    rw [NanoDnsConf.getAll_eq, NanoDnsConf.getAll_eq, NanoDnsConf.append, directives_append,
      Directives.values_append, directives_cons_pair, Directives.values_cons_self]
    rfl
  have all : AllPrint ((NanoDnsConf.parse content).append keyRecord record.toConfValue).lines :=
    (NanoDnsConf.allPrint_parse content).append (by decide) (no_lf_value plain)
  have kept : ((NanoDnsConf.parse content).getAll keyRecord).map trim =
      (NanoDnsConf.parse content).getAll keyRecord := by
    rw [List.map_congr_left fun v member => NanoDnsConf.trim_of_mem_getAll member, List.map_id']
  rw [recordsOf, addedText, NanoDnsConf.getAll_reread all, appended, List.map_append, kept,
    List.filterMap_append, List.map_cons, List.map_nil,
    List.filterMap_cons_some (reread_value plain), List.filterMap_nil]
  rfl

/-- The type of a listed record is in upper case, and neither field has blanks around it. -/
theorem listed_spelled (lawful : u.Lawful) {conf : NanoDnsConf} {r : DnsRecord}
    (member : r ∈ recordsOf u conf) :
    trim r.name = r.name ∧ trim r.rtype = r.rtype ∧ u.toUppercase r.rtype = r.rtype := by
  rcases List.mem_filterMap.mp member with ⟨raw, _, parsed⟩
  unfold DnsRecord.parse at parsed
  split at parsed
  · next name rtype value ttl _ =>
      rcases Option.bind_eq_some_iff.mp parsed with ⟨n, _, same⟩
      rw [← Option.some_inj.mp same]
      refine ⟨trim_trim name, ?_, ?_⟩
      · dsimp only
        rw [← lawful.toUppercase_trim, trim_trim]
      · exact lawful.toUppercase_toUppercase _
  · cases parsed

theorem keyOf_asked (lawful : u.Lawful) (record : DnsRecord) :
    keyOf u (asked u record) = key u (trim record.name) (trim record.rtype) :=
  congrArg (Prod.mk _) (lawful.toUppercase_toUppercase _)

theorem key_trim_of_listed (lawful : u.Lawful) {conf : NanoDnsConf}
    (member : keyOf u record ∈ (recordsOf u conf).map (keyOf u)) :
    key u (trim record.name) (trim record.rtype) ∈ (recordsOf u conf).map (keyOf u) := by
  rcases List.mem_map.mp member with ⟨r, inside, same⟩
  have spelled := listed_spelled lawful inside
  have name : u.toLowercase r.name = u.toLowercase record.name := congrArg Prod.fst same
  have rtype : u.toUppercase r.rtype = u.toUppercase record.rtype := congrArg Prod.snd same
  have lower : u.toLowercase (trim record.name) = u.toLowercase r.name := by
    calc u.toLowercase (trim record.name)
      _ = trim (u.toLowercase record.name) := lawful.lower.toLowercase_trim _
      _ = trim (u.toLowercase r.name) := by rw [name]
      _ = u.toLowercase (trim r.name) := (lawful.lower.toLowercase_trim _).symm
      _ = u.toLowercase r.name := by rw [spelled.1]
  have upper : u.toUppercase (trim record.rtype) = u.toUppercase r.rtype := by
    calc u.toUppercase (trim record.rtype)
      _ = trim (u.toUppercase record.rtype) := lawful.toUppercase_trim _
      _ = trim (u.toUppercase r.rtype) := by rw [rtype]
      _ = u.toUppercase (trim r.rtype) := (lawful.toUppercase_trim _).symm
      _ = u.toUppercase r.rtype := by rw [spelled.2.1]
  rw [key, lower, upper]
  exact List.mem_map.mpr ⟨r, inside, rfl⟩

def Refused (u : CaseData) (conf : NanoDnsConf) (record : DnsRecord) : Prop :=
  ∃ r ∈ recordsOf u conf, u.toLowercase r.name = u.toLowercase record.name ∧ r.rtype = record.rtype

/-- What is spelled as the list has it is found by the test. -/
theorem refused_of_spelled (lawful : u.Lawful) {conf : NanoDnsConf}
    (spelled : Spelled u conf record)
    (member : key u (trim record.name) (trim record.rtype) ∈ (recordsOf u conf).map (keyOf u)) :
    Refused u conf record := by
  have given := spelled member
  rcases List.mem_map.mp member with ⟨r, inside, same⟩
  have name : u.toLowercase r.name = u.toLowercase (trim record.name) := congrArg Prod.fst same
  have rtype : u.toUppercase r.rtype = u.toUppercase (trim record.rtype) := congrArg Prod.snd same
  refine ⟨r, inside, ?_, ?_⟩
  · rw [name, given.1]
  · rw [← (listed_spelled lawful inside).2.2, rtype, given.2]

end List

section Post

variable {u} {path : Path} {fs : Fs} {request : Request}

theorem addedRecord_eq_ok {env : FileEnv} {record : DnsRecord} {conf edited : NanoDnsConf} :
    addedRecord u env path record conf = .ok edited ↔
      ¬ Refused u conf record ∧ env.writable = true ∧
        conf.append keyRecord record.toConfValue = edited := by
  simp only [addedRecord, bind_eq_ok, pure_eq_ok, require_eq_ok, Bool.not_eq_true', Refused,
    List.any_eq_false, decide_eq_true_eq, not_exists, not_and]
  constructor
  · intro holds
    rcases holds with ⟨_, new, _, writable, same⟩
    exact ⟨new, writable, same⟩
  · intro holds
    rcases holds with ⟨new, writable, same⟩
    exact ⟨(), new, (), writable, same⟩

theorem post_refused {content : Str} (found : contentOf fs path = some content)
    (readable : request.env.readable = true)
    (refused : Refused u (NanoDnsConf.parse content) request.record) :
    post u path fs request = (.error (.duplicateName request.record.name), fs) := by
  have conf : NanoDnsConf.fromPath request.env.readable path fs =
      .ok (NanoDnsConf.parse content) :=
    NanoDnsConf.fromPath_eq_ok.mpr ⟨readable, content, found, rfl⟩
  have test : (!(recordsOf u (NanoDnsConf.parse content)).any fun r =>
      u.toLowercase r.name = u.toLowercase request.record.name ∧
        r.rtype = request.record.rtype) = false := by
    rcases refused with ⟨r, inside, same⟩
    rw [Bool.not_eq_false', List.any_eq_true]
    exact ⟨r, inside, decide_eq_true same⟩
  have edit : recordEdit request.env path (addedRecord u request.env path request.record) fs =
      .error (.duplicateName request.record.name) := by
    rw [recordEdit, conf]
    change (addedRecord u request.env path request.record _ >>= _) = _
    rw [addedRecord, require, if_neg (by rw [test]; exact Bool.false_ne_true)]
    rfl
  rw [post, addDnsRecord, outcome_rewrite, edit]

theorem post_accepted {content : Str} (found : contentOf fs path = some content)
    (new : ¬ Refused u (NanoDnsConf.parse content) request.record)
    (willing : request.env = .willing) :
    post u path fs request =
      (.ok (), put path (encode (addedText content request.record)) fs) := by
  have edit : recordEdit request.env path (addedRecord u request.env path request.record) fs =
      .ok (addedText content request.record) := by
    rw [willing, recordEdit_eq_ok]
    exact ⟨rfl, content, found, _, addedRecord_eq_ok.mpr ⟨new, rfl, rfl⟩, rfl⟩
  rw [post, addDnsRecord, outcome_rewrite, edit, willing]
  rfl

theorem post_cases (u : CaseData) (path : Path) (fs : Fs) (request : Request) :
    (∃ error fs', post u path fs request = (.error error, fs') ∧
      (request.env.write.Whole → fs' = fs)) ∨
    ∃ content, contentOf fs path = some content ∧
      ¬ Refused u (NanoDnsConf.parse content) request.record ∧
      post u path fs request =
        (.ok (), put path (encode (addedText content request.record)) fs) := by
  rw [post, addDnsRecord]
  rcases rewrite_cases request.env DnsRecordError.io path
    (recordEdit request.env path (addedRecord u request.env path request.record)) fs with
    ⟨e, stopped⟩ | ⟨e, fs', stopped, same⟩ | ⟨text, edit, done⟩
  · rw [stopped]
    exact .inl ⟨e, fs, rfl, fun _ => rfl⟩
  · rw [stopped]
    exact .inl ⟨_, fs', rfl, same⟩
  · rcases recordEdit_eq_ok.mp edit with ⟨-, content, found, edited, changed, rfl⟩
    rcases addedRecord_eq_ok.mp changed with ⟨new, -, rfl⟩
    rw [done]
    exact .inr ⟨content, found, new, rfl⟩

theorem listed_added {content : Str} {record : DnsRecord} (plain : Plain record) :
    listDnsRecords u true path (put path (encode (addedText content record)) fs) =
      .ok (recordsOf u (NanoDnsConf.parse content) ++ [asked u record]) :=
  listDnsRecords_eq_ok.mpr ⟨rfl, _, contentOf_put path _ fs, recordsOf_added plain⟩

theorem distinct_added (lawful : u.Lawful) {content : Str} {record : DnsRecord}
    (distinct : Distinct u (recordsOf u (NanoDnsConf.parse content)))
    (spelled : Spelled u (NanoDnsConf.parse content) record)
    (new : ¬ Refused u (NanoDnsConf.parse content) record) :
    Distinct u (recordsOf u (NanoDnsConf.parse content) ++ [asked u record]) := by
  rw [Distinct, List.map_append, List.map_cons, List.map_nil, ← List.concat_eq_append]
  apply List.Nodup.concat _ distinct
  rw [keyOf_asked lawful]
  intro member
  exact new (refused_of_spelled lawful spelled member)

theorem Sound.stores (lawful : u.Lawful) (plain : Plain request.record) (sound : Sound u path fs)
    (safe : Safe u path fs request) : Stores u path fs request := by
  constructor
  · intro accepted
    rcases post_cases u path fs request with ⟨error, fs', stopped, -⟩ | ⟨content, found, new, done⟩
    · rw [stopped] at accepted
      cases accepted
    · have before : listDnsRecords u true path fs = .ok (recordsOf u (NanoDnsConf.parse content)) :=
        listDnsRecords_eq_ok.mpr ⟨rfl, content, found, rfl⟩
      refine ⟨_, before, ?_, ?_⟩
      · rw [DnsRecords.step, done]
        exact listed_added plain
      · exact distinct_added lawful (sound _ before) (safe.2 content found) new
  · intro records listed member
    rcases listDnsRecords_eq_ok.mp listed with ⟨readable, content, found, rfl⟩
    have trimmed := key_trim_of_listed lawful member
    exact post_refused found readable
      (refused_of_spelled lawful (safe.2 content found) trimmed)

theorem Sound.step (lawful : u.Lawful) (plain : Plain request.record) (sound : Sound u path fs)
    (safe : Safe u path fs request) : Sound u path (step u path fs request) := by
  rcases post_cases u path fs request with ⟨error, fs', stopped, same⟩ | ⟨content, found, new, done⟩
  · rw [DnsRecords.step, stopped, same safe.1]
    exact sound
  · have stores := sound.stores lawful plain safe
    rcases stores.accepted (by rw [done]) with ⟨records, -, after, distinct⟩
    intro others listed
    rw [after] at listed
    rw [← Except.ok.inj listed]
    exact distinct

end Post

/-- Records stay unique: every request of a run whose duplicates are all spelled as the list has
them appends the record it asks for, or is refused when its name and type are listed in any case. -/
theorem unique_of_spelled {u : CaseData} (lawful : u.Lawful) {path : Path} {fs : Fs}
    (distinct : Sound u path fs) {requests : List Request}
    (plain : ∀ request ∈ requests, Plain request.record)
    (safe : Allowed (step u path) (Safe u path) fs requests) {front back : List Request}
    {request : Request} (split : requests = front ++ request :: back) :
    Stores u path (run (step u path) fs front) request := by
  subst split
  have parts := (allowed_append fs front (request :: back)).mp safe
  have sound : Sound u path (run (step u path) fs front) := by
    have both : Allowed (step u path) (fun fs r => Plain r.record ∧ Safe u path fs r) fs front :=
      parts.1.and_forall fun r member => plain r (List.mem_append_left _ member)
    exact invariant_run distinct (fun _ _ sound fine => sound.step lawful fine.1 fine.2) front both
  exact sound.stores lawful (plain request (by simp)) parts.2.1

def oneRecord : Str := "domain=lan\nrecord=tv,A,192.168.1.5,60\n".toList

def address (name rtype : String) : Request :=
  ⟨.willing, ⟨name.toList, rtype.toList, "192.168.1.6".toList, 60⟩⟩

theorem contentOf_oneRecord :
    contentOf (oneFile etcNanodns oneRecord) etcNanodns = some oneRecord :=
  contentOf_put etcNanodns oneRecord _

theorem sound_oneRecord : Sound .ascii etcNanodns (oneFile etcNanodns oneRecord) := by
  intro records listed
  rcases listDnsRecords_eq_ok.mp listed with ⟨-, content, found, same⟩
  rw [contentOf_oneRecord, Option.some_inj] at found
  subst content
  rw [← same]
  unfold Distinct
  decide +kernel

theorem plain_address (name rtype : String) (h : (',' ∉ name.toList ∧ '\n' ∉ name.toList) ∧
    ',' ∉ rtype.toList ∧ '\n' ∉ rtype.toList) : Plain (address name rtype).record := by
  have value : ',' ∉ "192.168.1.6".toList ∧ '\n' ∉ "192.168.1.6".toList := by decide
  exact ⟨h.1, h.2, value⟩

/-- A new type for a listed name, given in lower case and with blanks around it. -/
theorem stores_spaced_record :
    Stores .ascii etcNanodns (oneFile etcNanodns oneRecord) (address " TV" "aaaa ") := by
  have plain : ∀ request ∈ [address " TV" "aaaa "], Plain request.record := by
    intro request member
    rw [List.mem_singleton.mp member]
    exact plain_address _ _ (by decide)
  have safe : Allowed (step .ascii etcNanodns) (Safe .ascii etcNanodns)
      (oneFile etcNanodns oneRecord) [address " TV" "aaaa "] := by
    refine ⟨⟨fun _ _ cut => (by cases cut), fun content found => ?_⟩, trivial⟩
    rw [contentOf_oneRecord, Option.some_inj] at found
    subst content
    unfold Spelled
    decide +kernel
  exact unique_of_spelled CaseData.ascii_lawful sound_oneRecord plain safe (List.nil_append _).symm

/-- The same record in lower case is accepted, and is listed twice. -/
theorem lower_type_listed_twice :
    Sound .ascii etcNanodns (oneFile etcNanodns oneRecord) ∧ Plain (address "tv" "a").record ∧
      (post .ascii etcNanodns (oneFile etcNanodns oneRecord) (address "tv" "a")).1 = .ok () ∧
      ¬ Stores .ascii etcNanodns (oneFile etcNanodns oneRecord) (address "tv" "a") := by
  have new : ¬ Refused .ascii (NanoDnsConf.parse oneRecord) (address "tv" "a").record := by
    unfold Refused
    decide +kernel
  have accepted := post_accepted contentOf_oneRecord new rfl
  refine ⟨sound_oneRecord, plain_address _ _ (by decide), by rw [accepted], fun stores => ?_⟩
  rcases stores.accepted (by rw [accepted]) with ⟨records, before, -, distinct⟩
  rcases listDnsRecords_eq_ok.mp before with ⟨-, content, found, same⟩
  rw [contentOf_oneRecord, Option.some_inj] at found
  subst content
  rw [← same] at distinct
  have twice : ¬ Distinct .ascii (recordsOf .ascii (NanoDnsConf.parse oneRecord) ++
      [asked .ascii (address "tv" "a").record]) := by
    unfold Distinct
    decide +kernel
  exact twice distinct

end DnsRecords

end TinyWifi
