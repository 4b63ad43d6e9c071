import TinyWifi.Lib.Uppercase
import TinyWifi.Safety
import TinyWifi.TrimmedLines

/-! `nanodns.rs`: the lines of the nanodns config, its settings, and its static records. -/

namespace TinyWifi

open Text Exec Checks

def keyDomain : Str := "domain".toList
def keyRouterName : Str := "router_name".toList
def keyUpstream : Str := "upstream".toList
def keyRecord : Str := "record".toList
def keyBlockFile : Str := "block_file".toList
def keyBlockResponse : Str := "block_response".toList

inductive DnsError
  | notFound (path : Path)
  | notReadable (path : Path)
  | io (error : IoError)
  deriving DecidableEq, Repr

def DnsError.display : DnsError → Str
  | .notFound path => "nanodns config not found: ".toList ++ path
  | .notReadable path => "nanodns config not readable: ".toList ++ path
  | .io error => "filesystem error: ".toList ++ error.message

inductive DnsRecordError
  | load (error : DnsError)
  | notWritable (path : Path)
  | duplicateName (name : Str)
  | notFound (name : Str)
  | io (error : IoError)
  deriving DecidableEq, Repr

def DnsRecordError.display : DnsRecordError → Str
  | .load error => error.display
  | .notWritable path => "not writable: ".toList ++ path
  | .duplicateName name => "record '".toList ++ name ++ "' already exists".toList
  | .notFound name => "no record named '".toList ++ name ++ "'".toList
  | .io error => "filesystem error: ".toList ++ error.message

def etcNanodns : Path := "/etc/nanodns/config".toList

structure NanoDnsConf where
  lines : List Line
  deriving DecidableEq, Repr

namespace NanoDnsConf

/-- Values are trimmed; quotes stay. -/
def parse (content : Str) : NanoDnsConf := ⟨readTrimmed id content⟩

def fromPath (readable : Bool) (path : Path) (fs : Fs) : Except DnsError NanoDnsConf := do
  require (fileExists fs path) (.notFound path)
  require readable (.notReadable path)
  let content ← (readToString fs path).mapError .io
  return parse content

variable (conf : NanoDnsConf)

def get (key : Str) : Option Str := getLine key conf.lines

def set (key value : Str) : NanoDnsConf := ⟨setLine key value conf.lines⟩

def getAll (key : Str) : List Str := getLines key conf.lines

def removeAll (key : Str) : NanoDnsConf := ⟨dropLines key conf.lines⟩

def removeWhere (key value : Str) : NanoDnsConf := ⟨dropFirst key value conf.lines⟩

def append (key value : Str) : NanoDnsConf := ⟨conf.lines ++ [.pair key value]⟩

def display : Str := printLines conf.lines

end NanoDnsConf

/-- User-editable DNS settings. Without a block file blocking is disabled. -/
structure NanoDnsSettings where
  domain : Str
  routerName : Str
  upstreams : List Str
  blockFile : Option Str
  blockResponse : Str
  deriving DecidableEq, Repr

instance : Inhabited NanoDnsSettings where
  default :=
    { domain := "lan".toList
      routerName := "router".toList
      upstreams := ["1.1.1.1:53".toList, "8.8.8.8:53".toList]
      blockFile := none
      blockResponse := "0.0.0.0".toList }

structure DnsRecord where
  name : Str
  rtype : Str
  value : Str
  ttl : UInt32
  deriving DecidableEq, Repr

section Settings

def settingsOf (conf : NanoDnsConf) : NanoDnsSettings where
  domain := (conf.get keyDomain).getD "lan".toList
  routerName := (conf.get keyRouterName).getD "router".toList
  upstreams := conf.getAll keyUpstream
  blockFile := conf.get keyBlockFile
  blockResponse := (conf.get keyBlockResponse).getD "0.0.0.0".toList

def getDnsSettings (readable : Bool) (path : Path) (fs : Fs) : Except DnsError NanoDnsSettings := do
  let conf ← NanoDnsConf.fromPath readable path fs
  return settingsOf conf

/-- The edits of `update_dns_settings`. The response is kept only while there is a block file. -/
def withSettings (settings : NanoDnsSettings) (conf : NanoDnsConf) : NanoDnsConf :=
  let conf := (conf.set keyDomain settings.domain).set keyRouterName settings.routerName
  let conf := settings.upstreams.foldl (fun conf up => conf.append keyUpstream up)
    (conf.removeAll keyUpstream)
  let conf := (conf.removeAll keyBlockFile).removeAll keyBlockResponse
  match settings.blockFile with
  | some file => (conf.append keyBlockFile file).append keyBlockResponse settings.blockResponse
  | none => conf

def settingsEdit (env : FileEnv) (path : Path) (settings : NanoDnsSettings) (fs : Fs) :
    Except DnsError Str := do
  let conf ← NanoDnsConf.fromPath env.readable path fs
  require env.writable (.notFound path)
  return (withSettings settings conf).display

def updateDnsSettings (env : FileEnv) (path : Path) (settings : NanoDnsSettings) :
    Exec Fs DnsError Unit :=
  rewrite env .io path (settingsEdit env path settings)

end Settings

section Records

variable (u : CaseData)

namespace DnsRecord

def toConfValue (record : DnsRecord) : Str :=
  record.name ++ ',' :: record.rtype ++ ',' :: record.value ++ ',' :: printNat record.ttl.toNat

def parse (raw : Str) : Option DnsRecord :=
  match splitN ',' 4 raw with
  | [name, rtype, value, ttl] => do
    let ttl ← parseUnsigned 4294967296 (trim ttl)
    return ⟨trim name, u.toUppercase (trim rtype), trim value, UInt32.ofNat ttl⟩
  | _ => none

end DnsRecord

def recordsOf (conf : NanoDnsConf) : List DnsRecord :=
  (conf.getAll keyRecord).filterMap (DnsRecord.parse u)

def listDnsRecords (readable : Bool) (path : Path) (fs : Fs) :
    Except DnsError (List DnsRecord) := do
  let conf ← NanoDnsConf.fromPath readable path fs
  return recordsOf u conf

def addedRecord (env : FileEnv) (path : Path) (record : DnsRecord) (conf : NanoDnsConf) :
    Except DnsRecordError NanoDnsConf := do
  let name := u.toLowercase record.name
  require (!(recordsOf u conf).any fun r => u.toLowercase r.name = name ∧ r.rtype = record.rtype)
    (.duplicateName record.name)
  require env.writable (.notWritable path)
  return conf.append keyRecord record.toConfValue

def removedRecord (env : FileEnv) (path : Path) (name rtype : Str) (conf : NanoDnsConf) :
    Except DnsRecordError NanoDnsConf := do
  match (recordsOf u conf).find? fun r =>
    u.toLowercase r.name = u.toLowercase name ∧ r.rtype = u.toUppercase rtype with
  | none => throw (.notFound name)
  | some target => do
    require env.writable (.notWritable path)
    return conf.removeWhere keyRecord target.toConfValue

def recordEdit (env : FileEnv) (path : Path)
    (edit : NanoDnsConf → Except DnsRecordError NanoDnsConf) (fs : Fs) :
    Except DnsRecordError Str := do
  let conf ← (NanoDnsConf.fromPath env.readable path fs).mapError .load
  let edited ← edit conf
  return edited.display

/-- The restart that follows changes no file, and its result is ignored. -/
def addDnsRecord (env : FileEnv) (path : Path) (record : DnsRecord) :
    Exec Fs DnsRecordError Unit :=
  rewrite env .io path (recordEdit env path (addedRecord u env path record))

def removeDnsRecord (env : FileEnv) (path : Path) (name rtype : Str) :
    Exec Fs DnsRecordError Unit :=
  rewrite env .io path (recordEdit env path (removedRecord u env path name rtype))

end Records

section Reread

variable {conf : NanoDnsConf}

theorem NanoDnsConf.fromPath_eq_ok {readable : Bool} {path : Path} {fs : Fs} :
    NanoDnsConf.fromPath readable path fs = .ok conf ↔
      readable = true ∧ ∃ content, contentOf fs path = some content ∧
        NanoDnsConf.parse content = conf := by
  simp only [NanoDnsConf.fromPath, bind_eq_ok, pure_eq_ok, require_eq_ok, mapError_eq_ok,
    readToString_eq_ok]
  constructor
  · intro holds
    rcases holds with ⟨_, -, _, readable, content, found, rfl⟩
    exact ⟨readable, content, found, rfl⟩
  · intro holds
    rcases holds with ⟨readable, content, found, rfl⟩
    exact ⟨(), exists_of_contentOf found, (), readable, content, found, rfl⟩

namespace NanoDnsConf

theorem get_eq (conf : NanoDnsConf) (key : Str) :
    conf.get key = (directives conf.lines).lookup key := getLine_eq_lookup key conf.lines

theorem getAll_eq (conf : NanoDnsConf) (key : Str) :
    conf.getAll key = Directives.values key (directives conf.lines) :=
  getLines_eq_values key conf.lines

theorem allPrint_parse (content : Str) : AllPrint (parse content).lines :=
  allPrint_readTrimmed List.Subset.refl content

theorem getAll_reread (h : AllPrint conf.lines) (key : Str) :
    (parse conf.display).getAll key = (conf.getAll key).map trim := by
  rw [getAll_eq, getAll_eq, parse, display, values_reread h]
  rfl

theorem get_reread (h : AllPrint conf.lines) (key : Str) :
    (parse conf.display).get key = (conf.get key).map trim := by
  rw [get_eq, get_eq, parse, display, lookup_reread h]
  rfl

theorem trim_of_mem_getAll {content key v : Str} (member : v ∈ (parse content).getAll key) :
    trim v = v := by
  rw [getAll_eq] at member
  rcases List.mem_map.mp member with ⟨⟨k, w⟩, inside, rfl⟩
  have line := (mem_directives _ k w).mp (List.mem_of_mem_filter inside)
  rcases exists_of_mem_readTrimmed line with ⟨raw, rfl⟩
  exact trim_trim raw

end NanoDnsConf

end Reread

section Operations

variable {u : CaseData} {path : Path} {fs : Fs}

theorem getDnsSettings_eq_ok {readable : Bool} {settings : NanoDnsSettings} :
    getDnsSettings readable path fs = .ok settings ↔
      readable = true ∧ ∃ content, contentOf fs path = some content ∧
        settingsOf (NanoDnsConf.parse content) = settings := by
  simp only [getDnsSettings, bind_eq_ok, pure_eq_ok, NanoDnsConf.fromPath_eq_ok]
  constructor
  · intro holds
    rcases holds with ⟨conf, ⟨readable, content, found, rfl⟩, same⟩
    exact ⟨readable, content, found, same⟩
  · intro holds
    rcases holds with ⟨readable, content, found, same⟩
    exact ⟨NanoDnsConf.parse content, ⟨readable, content, found, rfl⟩, same⟩

theorem settingsEdit_eq_ok {env : FileEnv} {settings : NanoDnsSettings} {text : Str} :
    settingsEdit env path settings fs = .ok text ↔
      env.readable = true ∧ env.writable = true ∧ ∃ content, contentOf fs path = some content ∧
        (withSettings settings (NanoDnsConf.parse content)).display = text := by
  simp only [settingsEdit, bind_eq_ok, pure_eq_ok, require_eq_ok, NanoDnsConf.fromPath_eq_ok]
  constructor
  · intro holds
    rcases holds with ⟨conf, ⟨readable, content, found, rfl⟩, _, writable, same⟩
    exact ⟨readable, writable, content, found, same⟩
  · intro holds
    rcases holds with ⟨readable, writable, content, found, same⟩
    exact ⟨NanoDnsConf.parse content, ⟨readable, content, found, rfl⟩, (), writable, same⟩

theorem recordEdit_eq_ok {env : FileEnv} {edit : NanoDnsConf → Except DnsRecordError NanoDnsConf}
    {text : Str} :
    recordEdit env path edit fs = .ok text ↔
      env.readable = true ∧ ∃ content, contentOf fs path = some content ∧
        ∃ edited, edit (NanoDnsConf.parse content) = .ok edited ∧ edited.display = text := by
  simp only [recordEdit, bind_eq_ok, pure_eq_ok, mapError_eq_ok, NanoDnsConf.fromPath_eq_ok]
  constructor
  · intro holds
    rcases holds with ⟨conf, ⟨readable, content, found, rfl⟩, edited, changed, same⟩
    exact ⟨readable, content, found, edited, changed, same⟩
  · intro holds
    rcases holds with ⟨readable, content, found, edited, changed, same⟩
    exact ⟨NanoDnsConf.parse content, ⟨readable, content, found, rfl⟩, edited, changed, same⟩

theorem listDnsRecords_eq_ok {readable : Bool} {records : List DnsRecord} :
    listDnsRecords u readable path fs = .ok records ↔
      readable = true ∧ ∃ content, contentOf fs path = some content ∧
        recordsOf u (NanoDnsConf.parse content) = records := by
  simp only [listDnsRecords, bind_eq_ok, pure_eq_ok, NanoDnsConf.fromPath_eq_ok]
  constructor
  · intro holds
    rcases holds with ⟨conf, ⟨legible, content, found, rfl⟩, same⟩
    exact ⟨legible, content, found, same⟩
  · intro holds
    rcases holds with ⟨legible, content, found, same⟩
    exact ⟨NanoDnsConf.parse content, ⟨legible, content, found, rfl⟩, same⟩

end Operations

end TinyWifi
