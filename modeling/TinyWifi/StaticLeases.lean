import Mathlib.Data.List.Nodup
import TinyWifi.DhcpEdits
import TinyWifi.Lib.Lowercase
import TinyWifi.Lib.Runs

/-! The static leases of `nanodhcp.rs`: one `static=name,mac,ip` line for each. Name and address go
into the line as they come, and the line is read back trimmed. -/

namespace TinyWifi

open Text Exec Checks Runs

structure StaticLease where
  name : Str
  mac : Str
  ip : Ipv4Addr
  deriving DecidableEq, Repr

inductive StaticLeaseError
  | load (error : DhcpError)
  | notWritable (path : Path)
  | duplicateMac (mac : Str)
  | duplicateIp (ip : Ipv4Addr)
  | notFound (mac : Str)
  | io (error : IoError)
  deriving DecidableEq, Repr

def StaticLeaseError.display : StaticLeaseError → Str
  | .load error => error.display
  | .notWritable path => "not writable: ".toList ++ path
  | .duplicateMac mac => "MAC ".toList ++ mac ++ " already has a static lease".toList
  | .duplicateIp ip => "IP ".toList ++ ip.print ++ " already has a static lease".toList
  | .notFound mac => "no static lease for MAC ".toList ++ mac
  | .io error => "filesystem error: ".toList ++ error.message

section Model

variable (u : UnicodeData)

namespace StaticLease

def toConfValue (lease : StaticLease) : Str :=
  lease.name ++ ',' :: u.toLowercase lease.mac ++ ',' :: lease.ip.print

def parse (value : Str) : Option StaticLease :=
  match splitN ',' 3 value with
  | [name, mac, ip] => do
    let ip ← Ipv4Addr.parse (trim ip)
    return ⟨trim name, u.toLowercase (trim mac), ip⟩
  | _ => none

end StaticLease

def leasesOf (conf : DhcpConf) : List StaticLease :=
  (conf.getAll keyStatic).filterMap (StaticLease.parse u)

def listStaticLeases (readable : Bool) (path : Path) (fs : Fs) :
    Except DhcpError (List StaticLease) := do
  let conf ← DhcpConf.fromPath readable path fs
  return leasesOf u conf

def addedLease (env : FileEnv) (path : Path) (lease : StaticLease) (conf : DhcpConf) :
    Except StaticLeaseError DhcpConf := do
  let mac := u.toLowercase lease.mac
  require (!(leasesOf u conf).any (·.mac = mac)) (.duplicateMac mac)
  require (!(leasesOf u conf).any (·.ip = lease.ip)) (.duplicateIp lease.ip)
  require env.writable (.notWritable path)
  return conf.append keyStatic (lease.toConfValue u)

def removedLease (env : FileEnv) (path : Path) (mac : Str) (conf : DhcpConf) :
    Except StaticLeaseError DhcpConf := do
  let mac := u.toLowercase mac
  match (leasesOf u conf).find? (·.mac = mac) with
  | none => throw (.notFound mac)
  | some target => do
    require env.writable (.notWritable path)
    return conf.removeWhere keyStatic (target.toConfValue u)

def leaseEdit (env : FileEnv) (path : Path)
    (edit : DhcpConf → Except StaticLeaseError DhcpConf) (fs : Fs) :
    Except StaticLeaseError Str := do
  let conf ← (DhcpConf.fromPath env.readable path fs).mapError .load
  let edited ← edit conf
  return edited.display

/-- The restart that follows changes no file, and its result is ignored. -/
def addStaticLease (env : FileEnv) (path : Path) (lease : StaticLease) :
    Exec Fs StaticLeaseError Unit :=
  rewrite env .io path (leaseEdit env path (addedLease u env path lease))

def removeStaticLease (env : FileEnv) (path : Path) (mac : Str) :
    Exec Fs StaticLeaseError Unit :=
  rewrite env .io path (leaseEdit env path (removedLease u env path mac))

def staticLeaseError (error : StaticLeaseError) : ApiError :=
  match error with
  | .duplicateMac _ | .duplicateIp _ => ⟨409, error.display⟩
  | .notFound _ => ⟨404, error.display⟩
  | .notWritable _ => ⟨403, error.display⟩
  | .load _ | .io _ => ⟨500, error.display⟩

def staticLeasesPost (env : FileEnv) (path : Path) (body : StaticLease) : Exec Fs ApiError Unit :=
  mapError staticLeaseError (addStaticLease u env path body)

end Model

namespace StaticLeases

section Lines

theorem last_of_mem_print (ip : Ipv4Addr) (s : Str) :
    ∀ c ∈ (s ++ ip.print).getLast?, isWhitespace c = false ∧ c ≠ '\x22' ∧ c ≠ '\x27' := by
  intro c member
  rw [List.getLast?_append_of_ne_nil _ ip.print_ne_nil] at member
  exact DhcpEdits.plain_of_mem_print (List.mem_of_mem_getLast? member)

theorem unquote_of_last {s : Str} (h : ∀ c ∈ s.getLast?, c ≠ '\x22' ∧ c ≠ '\x27') :
    unquote s = s := by
  unfold unquote
  split
  · next q c rest =>
      rw [if_neg]
      intro holds
      rcases holds with ⟨quote, last⟩
      have differs := h q (by rw [List.getLast?_cons_cons]; exact last)
      exact quote.elim differs.1 differs.2
  · rfl

/-- All that a lease loses on its way through the file are the blanks in front of its name. -/
theorem reread_value (name mac : Str) (ip : Ipv4Addr) :
    DhcpEdits.reread (name ++ ',' :: mac ++ ',' :: ip.print) =
      trimStart name ++ ',' :: mac ++ ',' :: ip.print := by
  have comma : isWhitespace ',' = false := by decide
  have shape (front : Str) : front ++ ',' :: mac ++ ',' :: ip.print =
      (front ++ ',' :: mac ++ [',']) ++ ip.print := by simp
  have start : trimStart (name ++ ',' :: mac ++ ',' :: ip.print) =
      trimStart name ++ ',' :: mac ++ ',' :: ip.print := by
    rw [List.append_assoc, List.cons_append, trimStart_append _ _ comma, List.append_assoc,
      List.cons_append]
  have last := last_of_mem_print ip (trimStart name ++ ',' :: mac ++ [','])
  rw [DhcpEdits.reread, trim, start, shape, trimEnd_eq_self _ fun c member => (last c member).1,
    unquote_of_last fun c member => (last c member).2]

theorem parse_value (u : UnicodeData) {name mac : Str} (name_comma : ',' ∉ name)
    (mac_comma : ',' ∉ mac) (ip : Ipv4Addr) :
    StaticLease.parse u (name ++ ',' :: mac ++ ',' :: ip.print) =
      some ⟨trim name, u.toLowercase (trim mac), ip⟩ := by
  rw [List.append_assoc, List.cons_append, StaticLease.parse, splitN_cons name_comma,
    splitN_cons mac_comma, splitN]
  dsimp only
  rw [trim_of_trimmed ip.trimmed_print, Ipv4Addr.parse_print]
  rfl

end Lines

def listed (u : UnicodeData) (path : Path) (fs : Fs) : Except DhcpError (List StaticLease) :=
  listStaticLeases u true path fs

def asked (u : UnicodeData) (body : StaticLease) : StaticLease :=
  ⟨trim body.name, u.toLowercase (trim body.mac), body.ip⟩

def Distinct (leases : List StaticLease) : Prop :=
  (leases.map StaticLease.mac).Nodup ∧ (leases.map StaticLease.ip).Nodup

structure Request where
  env : FileEnv
  body : StaticLease
  deriving DecidableEq, Repr

def post (u : UnicodeData) (path : Path) (fs : Fs) (request : Request) :
    Except ApiError Unit × Fs :=
  outcome (staticLeasesPost u request.env path request.body) fs

def step (u : UnicodeData) (path : Path) (fs : Fs) (request : Request) : Fs :=
  (post u path fs request).2

/-- A request that is accepted appends the lease it asks for, and one that is a duplicate changes
nothing. -/
structure Stores (u : UnicodeData) (path : Path) (fs : Fs) (request : Request) : Prop where
  accepted : (post u path fs request).1 = .ok () →
    ∃ leases, listed u path fs = .ok leases ∧
      listed u path (step u path fs request) = .ok (leases ++ [asked u request.body]) ∧
      Distinct (leases ++ [asked u request.body])
  duplicate : ∀ message, (post u path fs request).1 = .error ⟨409, message⟩ →
    listed u path (step u path fs request) = listed u path fs

/-- The hardware address, as it is given, or the IP address is listed: the request is refused. -/
def Refused (u : UnicodeData) (conf : DhcpConf) (body : StaticLease) : Prop :=
  (∃ l ∈ leasesOf u conf, l.mac = u.toLowercase body.mac) ∨ ∃ l ∈ leasesOf u conf, l.ip = body.ip

/-- Name and hardware address can stand in a line, the latter is not listed without its blanks
either, and the leases that are listed read back as they are. -/
structure Clear (u : UnicodeData) (conf : DhcpConf) (body : StaticLease) : Prop where
  name : ',' ∉ body.name ∧ '\n' ∉ body.name
  mac : ',' ∉ body.mac ∧ '\n' ∉ body.mac
  fresh : ∀ l ∈ leasesOf u conf, l.mac ≠ u.toLowercase (trim body.mac)
  rereads : ∀ v ∈ conf.getAll keyStatic,
    StaticLease.parse u (DhcpEdits.reread v) = StaticLease.parse u v

/-- The write does not break off, and what is not refused is clear. -/
def Safe (u : UnicodeData) (path : Path) (fs : Fs) (request : Request) : Prop :=
  request.env.write.Whole ∧ ∀ content, contentOf fs path = some content →
    Refused u (DhcpConf.parse content) request.body ∨ Clear u (DhcpConf.parse content) request.body

section Post

variable {u : UnicodeData} {path : Path} {fs : Fs} {request : Request}

theorem listed_eq_ok {leases : List StaticLease} :
    listed u path fs = .ok leases ↔
      ∃ content, contentOf fs path = some content ∧
        leasesOf u (DhcpConf.parse content) = leases := by
  simp only [listed, listStaticLeases, bind_eq_ok, pure_eq_ok, DhcpConf.fromPath_eq_ok]
  constructor
  · intro holds
    rcases holds with ⟨conf, ⟨_, content, found, rfl⟩, same⟩
    exact ⟨content, found, same⟩
  · intro holds
    rcases holds with ⟨content, found, same⟩
    exact ⟨DhcpConf.parse content, ⟨trivial, content, found, rfl⟩, same⟩

theorem addedLease_eq_ok {env : FileEnv} {body : StaticLease} {conf edited : DhcpConf} :
    addedLease u env path body conf = .ok edited ↔
      ¬ Refused u conf body ∧ env.writable = true ∧
        conf.append keyStatic (body.toConfValue u) = edited := by
  simp only [addedLease, bind_eq_ok, pure_eq_ok, require_eq_ok, Bool.not_eq_true', Refused,
    List.any_eq_false, decide_eq_true_eq, not_or, not_exists, not_and]
  constructor
  · intro holds
    rcases holds with ⟨_, mac, _, ip, _, writable, same⟩
    exact ⟨⟨mac, ip⟩, writable, same⟩
  · intro holds
    rcases holds with ⟨⟨mac, ip⟩, writable, same⟩
    exact ⟨(), mac, (), ip, (), writable, same⟩

theorem leaseEdit_eq_ok {env : FileEnv} {edit : DhcpConf → Except StaticLeaseError DhcpConf}
    {text : Str} :
    leaseEdit env path edit fs = .ok text ↔
      env.readable = true ∧ ∃ content, contentOf fs path = some content ∧
        ∃ edited, edit (DhcpConf.parse content) = .ok edited ∧ edited.display = text := by
  simp only [leaseEdit, bind_eq_ok, pure_eq_ok, mapError_eq_ok, DhcpConf.fromPath_eq_ok]
  constructor
  · intro holds
    rcases holds with ⟨conf, ⟨readable, content, found, rfl⟩, edited, changed, same⟩
    exact ⟨readable, content, found, edited, changed, same⟩
  · intro holds
    rcases holds with ⟨readable, content, found, edited, changed, same⟩
    exact ⟨DhcpConf.parse content, ⟨readable, content, found, rfl⟩, edited, changed, same⟩

theorem isKey_static : IsKey keyStatic := by decide

theorem no_lf_value (lawful : u.Lawful) {body : StaticLease} (name : '\n' ∉ body.name)
    (mac : '\n' ∉ body.mac) : '\n' ∉ body.toConfValue u := by
  have ip : '\n' ∉ body.ip.print := by
    intro member
    exact absurd (DhcpEdits.plain_of_mem_print member).1 (by decide)
  have lower : '\n' ∉ u.toLowercase body.mac := fun member => mac (lawful.lf member)
  simp [StaticLease.toConfValue, name, lower, ip]

theorem leasesOf_added (lawful : u.Lawful) {conf : DhcpConf} {body : StaticLease}
    (printed : AllPrint conf.lines) (clear : Clear u conf body) :
    leasesOf u (DhcpConf.parse (conf.append keyStatic (body.toConfValue u)).display) =
      leasesOf u conf ++ [asked u body] := by
  have appended : (conf.append keyStatic (body.toConfValue u)).getAll keyStatic =
      conf.getAll keyStatic ++ [body.toConfValue u] := by
    rw [DhcpEdits.getAll_eq, DhcpEdits.getAll_eq, DhcpConf.append, directives_append,
      Directives.values_append, directives_cons_pair, Directives.values_cons_self]
    rfl
  have all : AllPrint (conf.append keyStatic (body.toConfValue u)).lines :=
    printed.append isKey_static (no_lf_value lawful clear.name.2 clear.mac.2)
  have mac_comma : ',' ∉ u.toLowercase body.mac := fun member => clear.mac.1 (lawful.comma member)
  have name_comma : ',' ∉ trimStart body.name :=
    fun member => clear.name.1 ((List.dropWhile_sublist _).subset member)
  have last : StaticLease.parse u (DhcpEdits.reread (body.toConfValue u)) =
      some (asked u body) := by
    rw [StaticLease.toConfValue, reread_value, parse_value u name_comma mac_comma, asked,
      ← lawful.toLowercase_trim, lawful.toLowercase_toLowercase, trim_trimStart]
  rw [leasesOf, DhcpEdits.getAll_reread all, appended, List.map_append, List.filterMap_append,
    List.filterMap_map]
  congr 1
  · exact List.filterMap_congr clear.rereads
  · rw [List.map_cons, List.map_nil, List.filterMap_cons_some last, List.filterMap_nil]

def addedText (u : UnicodeData) (content : Str) (body : StaticLease) : Str :=
  ((DhcpConf.parse content).append keyStatic (body.toConfValue u)).display

theorem post_accepted {content : Str} (found : contentOf fs path = some content)
    (new : ¬ Refused u (DhcpConf.parse content) request.body) (willing : request.env = .willing) :
    post u path fs request =
      (.ok (), put path (encode (addedText u content request.body)) fs) := by
  have edit : leaseEdit request.env path (addedLease u request.env path request.body) fs =
      .ok (addedText u content request.body) := by
    rw [willing, leaseEdit_eq_ok]
    exact ⟨rfl, content, found, _, addedLease_eq_ok.mpr ⟨new, rfl, rfl⟩, rfl⟩
  rw [post, staticLeasesPost, outcome_mapError, addStaticLease, outcome_rewrite, edit, willing]
  rfl

theorem post_cases (u : UnicodeData) (path : Path) (fs : Fs) (request : Request) :
    (∃ message, post u path fs request = (.error ⟨409, message⟩, fs)) ∨
    (∃ status message fs', post u path fs request = (.error ⟨status, message⟩, fs') ∧
      status ≠ 409 ∧ (request.env.write.Whole → fs' = fs)) ∨
    ∃ content, contentOf fs path = some content ∧
      ¬ Refused u (DhcpConf.parse content) request.body ∧
      post u path fs request =
        (.ok (), put path (encode (addedText u content request.body)) fs) := by
  rw [post, staticLeasesPost, outcome_mapError, addStaticLease]
  rcases rewrite_cases request.env StaticLeaseError.io path
    (leaseEdit request.env path (addedLease u request.env path request.body)) fs with
    ⟨e, stopped⟩ | ⟨e, fs', stopped, same⟩ | ⟨text, edit, done⟩
  · rw [stopped]
    cases e with
    | duplicateMac mac => exact .inl ⟨_, rfl⟩
    | duplicateIp ip => exact .inl ⟨_, rfl⟩
    | load e => exact .inr (.inl ⟨500, _, fs, rfl, by decide, fun _ => rfl⟩)
    | notWritable p => exact .inr (.inl ⟨403, _, fs, rfl, by decide, fun _ => rfl⟩)
    | notFound mac => exact .inr (.inl ⟨404, _, fs, rfl, by decide, fun _ => rfl⟩)
    | io e => exact .inr (.inl ⟨500, _, fs, rfl, by decide, fun _ => rfl⟩)
  · rw [stopped]
    exact .inr (.inl ⟨500, _, fs', rfl, by decide, same⟩)
  · rcases leaseEdit_eq_ok.mp edit with ⟨-, content, found, edited, changed, rfl⟩
    rcases addedLease_eq_ok.mp changed with ⟨new, -, rfl⟩
    rw [done]
    exact .inr (.inr ⟨content, found, new, rfl⟩)

theorem listed_added (lawful : u.Lawful) {content : Str} {body : StaticLease}
    (clear : Clear u (DhcpConf.parse content) body) :
    listed u path (put path (encode (addedText u content body)) fs) =
      .ok (leasesOf u (DhcpConf.parse content) ++ [asked u body]) := by
  rw [listed_eq_ok]
  refine ⟨_, contentOf_put path _ fs, ?_⟩
  exact leasesOf_added lawful (DhcpEdits.allPrint_parse content) clear

theorem distinct_added {content : Str} {body : StaticLease}
    (distinct : Distinct (leasesOf u (DhcpConf.parse content)))
    (new : ¬ Refused u (DhcpConf.parse content) body)
    (clear : Clear u (DhcpConf.parse content) body) :
    Distinct (leasesOf u (DhcpConf.parse content) ++ [asked u body]) := by
  constructor
  · rw [List.map_append, List.map_cons, List.map_nil, ← List.concat_eq_append]
    apply distinct.1.concat
    intro member
    rcases List.mem_map.mp member with ⟨l, inside, equal⟩
    exact clear.fresh l inside equal
  · rw [List.map_append, List.map_cons, List.map_nil, ← List.concat_eq_append]
    apply distinct.2.concat
    intro member
    rcases List.mem_map.mp member with ⟨l, inside, equal⟩
    exact new (.inr ⟨l, inside, equal⟩)

def Sound (u : UnicodeData) (path : Path) (fs : Fs) : Prop :=
  ∀ leases, listed u path fs = .ok leases → Distinct leases

theorem Sound.stores (lawful : u.Lawful) (sound : Sound u path fs) (safe : Safe u path fs request) :
    Stores u path fs request := by
  rcases post_cases u path fs request with
    ⟨message, stopped⟩ | ⟨status, message, fs', stopped, other, -⟩ | ⟨content, found, new, done⟩
  · refine ⟨fun accepted => ?_, fun _ _ => by rw [step, stopped]⟩
    rw [stopped] at accepted
    cases accepted
  · refine ⟨fun accepted => ?_, fun _ refused => ?_⟩
    · rw [stopped] at accepted
      cases accepted
    · rw [stopped] at refused
      exact absurd (congrArg ApiError.status (Except.error.inj refused)) other
  · have clear := (safe.2 content found).resolve_left new
    have before : listed u path fs = .ok (leasesOf u (DhcpConf.parse content)) :=
      listed_eq_ok.mpr ⟨content, found, rfl⟩
    refine ⟨fun _ => ⟨_, before, ?_, ?_⟩, fun _ refused => ?_⟩
    · rw [step, done]
      exact listed_added lawful clear
    · exact distinct_added (sound _ before) new clear
    · rw [done] at refused
      cases refused

theorem Sound.step (lawful : u.Lawful) (sound : Sound u path fs) (safe : Safe u path fs request) :
    Sound u path (step u path fs request) := by
  rcases post_cases u path fs request with
    ⟨message, stopped⟩ | ⟨status, message, fs', stopped, -, same⟩ | ⟨content, found, new, done⟩
  · rw [StaticLeases.step, stopped]
    exact sound
  · rw [StaticLeases.step, stopped, same safe.1]
    exact sound
  · have stores := sound.stores lawful safe
    rcases stores.accepted (by rw [done]) with ⟨leases, -, after, distinct⟩
    intro others listed
    rw [after] at listed
    rw [← Except.ok.inj listed]
    exact distinct

end Post

/-- The lease table is a faithful store: every request of a run whose requests are all safe appends
the lease it asks for or leaves the list, and the listed addresses stay distinct. -/
theorem stores_of_safe {u : UnicodeData} (lawful : u.Lawful) {path : Path} {fs : Fs}
    (distinct : Sound u path fs) {requests : List Request}
    (safe : Allowed (step u path) (Safe u path) fs requests) {front back : List Request}
    {request : Request} (split : requests = front ++ request :: back) :
    Stores u path (run (step u path) fs front) request := by
  subst split
  have parts := (allowed_append fs front (request :: back)).mp safe
  have sound := invariant_run distinct (fun _ _ sound safe => sound.step lawful safe) front parts.1
  exact sound.stores lawful parts.2.1

def etcNanodhcp : Path := "/etc/nanodhcp/config".toList

def oneLease : Str := "interface=wlan0\nstatic=tv,aa:bb:cc:dd:ee:ff,192.168.1.5\n".toList

def phone (name mac : String) : Request :=
  ⟨.willing, ⟨name.toList, mac.toList, ⟨192, 168, 1, 6⟩⟩⟩

theorem contentOf_oneLease :
    contentOf (oneFile etcNanodhcp oneLease) etcNanodhcp = some oneLease :=
  contentOf_put etcNanodhcp oneLease _

theorem sound_oneLease : Sound .ascii etcNanodhcp (oneFile etcNanodhcp oneLease) := by
  intro leases listed
  rcases listed_eq_ok.mp listed with ⟨content, found, same⟩
  rw [contentOf_oneLease, Option.some_inj] at found
  subst content
  rw [← same]
  unfold Distinct
  decide +kernel

/-- Blanks around a new lease are taken off. -/
theorem stores_spaced_lease :
    Stores .ascii etcNanodhcp (oneFile etcNanodhcp oneLease)
      (phone " my phone " "AA:BB:CC:00:11:22 ") := by
  have safe : Allowed (step .ascii etcNanodhcp) (Safe .ascii etcNanodhcp)
      (oneFile etcNanodhcp oneLease) [phone " my phone " "AA:BB:CC:00:11:22 "] := by
    refine ⟨⟨fun _ _ cut => (by cases cut), fun content found => ?_⟩, trivial⟩
    rw [contentOf_oneLease, Option.some_inj] at found
    subst content
    right
    constructor <;> decide +kernel
  exact stores_of_safe UnicodeData.ascii_lawful sound_oneLease safe (List.nil_append _).symm

/-- A name with a comma is accepted, and no lease is listed for it. -/
theorem comma_loses_lease :
    Sound .ascii etcNanodhcp (oneFile etcNanodhcp oneLease) ∧
      (post .ascii etcNanodhcp (oneFile etcNanodhcp oneLease)
        (phone "phone, old" "aa:bb:cc:00:11:22")).1 = .ok () ∧
      ¬ Stores .ascii etcNanodhcp (oneFile etcNanodhcp oneLease)
        (phone "phone, old" "aa:bb:cc:00:11:22") := by
  have new : ¬ Refused .ascii (DhcpConf.parse oneLease)
      (phone "phone, old" "aa:bb:cc:00:11:22").body := by
    unfold Refused
    decide +kernel
  have accepted := post_accepted contentOf_oneLease new rfl
  refine ⟨sound_oneLease, by rw [accepted], fun stores => ?_⟩
  rcases stores.accepted (by rw [accepted]) with ⟨leases, before, after, -⟩
  rw [step, accepted, listed_eq_ok] at after
  rcases after with ⟨content, found, same⟩
  rw [contentOf_put, Option.some_inj] at found
  rcases listed_eq_ok.mp before with ⟨old, here, listed⟩
  rw [contentOf_oneLease, Option.some_inj] at here
  rw [← found, ← listed, ← here] at same
  have unchanged : leasesOf .ascii (DhcpConf.parse (addedText .ascii oneLease
      (phone "phone, old" "aa:bb:cc:00:11:22").body)) =
        leasesOf .ascii (DhcpConf.parse oneLease) := by decide +kernel
  rw [unchanged] at same
  have longer := congrArg List.length same
  simp at longer

end StaticLeases

end TinyWifi
