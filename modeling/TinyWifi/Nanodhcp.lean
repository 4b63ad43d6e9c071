import TinyWifi.ConfLines
import TinyWifi.Lib.Ipv4
import TinyWifi.Safety

/-! `nanodhcp.rs`: the lines of `nanodhcp.conf`, the typed view of them, and the guarded save
flow of the DHCP settings. -/

namespace TinyWifi

open Text Exec Checks

def keyRangeStart : Str := "pool_start".toList
def keyRangeEnd : Str := "pool_end".toList
def keyGateway : Str := "router".toList
def keyDns : Str := "dns".toList
def keyLeaseTime : Str := "lease_time".toList
def keyLeasesFile : Str := "lease_file".toList
def keyDhcpInterface : Str := "interface".toList
def keyStatic : Str := "static".toList

inductive DhcpError
  | notFound (path : Path)
  | notReadable (path : Path)
  | parse (message : Str)
  | io (error : IoError)
  deriving DecidableEq, Repr

def DhcpError.display : DhcpError → Str
  | .notFound path => "nanodhcp config not found: ".toList ++ path
  | .notReadable path => "nanodhcp config not readable: ".toList ++ path
  | .parse message => "invalid nanodhcp config: ".toList ++ message
  | .io error => "filesystem error: ".toList ++ error.message

structure DhcpSettings where
  gateway : Ipv4Addr
  rangeStart : Ipv4Addr
  rangeEnd : Ipv4Addr
  dns : List Ipv4Addr
  leaseTime : UInt64
  deriving DecidableEq, Repr

structure DhcpConfig where
  interface : Str
  rangeStart : Ipv4Addr
  rangeEnd : Ipv4Addr
  gateway : Ipv4Addr
  dns : List Ipv4Addr
  leaseTime : UInt64
  leasesFile : Str
  deriving DecidableEq, Repr

/-- Take off a pair of equal quotes around the text. -/
def unquote (s : Str) : Str :=
  match s with
  | q :: c :: rest =>
    if (q = '\x22' ∨ q = '\x27') ∧ (c :: rest).getLast? = some q then (c :: rest).dropLast else s
  | _ => s

structure DhcpConf where
  lines : List Line
  deriving DecidableEq, Repr

namespace DhcpConf

def parseLine (line : Str) : Line :=
  let trimmed := trim line
  if trimmed = [] ∨ trimmed.head? = some '#' then .raw line
  else
    match splitOnce '=' line with
    | some (key, value) => .pair (trim key) (unquote (trim value))
    | none => .raw line

def parse (content : Str) : DhcpConf := ⟨(Text.lines content).map parseLine⟩

def fromPath (readable : Bool) (path : Path) (fs : Fs) : Except DhcpError DhcpConf := do
  require (fileExists fs path) (.notFound path)
  require readable (.notReadable path)
  let content ← (readToString fs path).mapError .io
  return parse content

def get (conf : DhcpConf) (key : Str) : Option Str := getLine key conf.lines

def set (conf : DhcpConf) (key value : Str) : DhcpConf := ⟨setLine key value conf.lines⟩

def getAll (conf : DhcpConf) (key : Str) : List Str := getLines key conf.lines

def removeWhere (conf : DhcpConf) (key value : Str) : DhcpConf := ⟨dropWhere key value conf.lines⟩

def append (conf : DhcpConf) (key value : Str) : DhcpConf := ⟨conf.lines ++ [.pair key value]⟩

def display (conf : DhcpConf) : Str := unlines (conf.lines.map Line.render)

def joinDns (dns : List Ipv4Addr) : Str := join [','] (dns.map Ipv4Addr.print)

def apply (conf : DhcpConf) (settings : DhcpSettings) : DhcpConf :=
  ((((conf.set keyGateway settings.gateway.print).set
    keyRangeStart settings.rangeStart.print).set
    keyRangeEnd settings.rangeEnd.print).set
    keyDns (joinDns settings.dns)).set
    keyLeaseTime (printNat settings.leaseTime.toNat)

def requireKey (conf : DhcpConf) (key : Str) : Except DhcpError Str :=
  match conf.get key with
  | some value => .ok value
  | none => .error (.parse ("missing key '".toList ++ key ++ "'".toList))

def parseIp (conf : DhcpConf) (key : Str) : Except DhcpError Ipv4Addr := do
  let value ← conf.requireKey key
  match Ipv4Addr.parse value with
  | some ip => .ok ip
  | none => .error (.parse ("'".toList ++ key ++ "' is not a valid IPv4 address".toList))

def parseDnsEntry (s : Str) : Except DhcpError Ipv4Addr :=
  match Ipv4Addr.parse s with
  | some ip => .ok ip
  | none => .error (.parse ("'".toList ++ s ++ "' in dns is not a valid IPv4 address".toList))

def parseDns (value : Str) : Except DhcpError (List Ipv4Addr) :=
  (((value.splitOn ',').map trim).filter (· ≠ [])).mapM parseDnsEntry

def dnsView (conf : DhcpConf) : Except DhcpError (List Ipv4Addr) :=
  match conf.get keyDns with
  | some value => parseDns value
  | none => .ok []

def leaseTimeView (conf : DhcpConf) : Except DhcpError UInt64 := do
  let value ← conf.requireKey keyLeaseTime
  match parseUnsigned 18446744073709551616 value with
  | some n => .ok (UInt64.ofNat n)
  | none => .error (.parse "'lease_time' is not a number".toList)

end DhcpConf

namespace DhcpConfig

def fromConf (conf : DhcpConf) : Except DhcpError DhcpConfig := do
  let leaseTime ← conf.leaseTimeView
  return {
    interface := ← conf.requireKey keyDhcpInterface
    rangeStart := ← conf.parseIp keyRangeStart
    rangeEnd := ← conf.parseIp keyRangeEnd
    gateway := ← conf.parseIp keyGateway
    dns := ← conf.dnsView
    leaseTime := leaseTime
    leasesFile := (conf.get keyLeasesFile).getD "/var/lib/nanodhcp/leases".toList }

def parse (content : Str) : Except DhcpError DhcpConfig := fromConf (DhcpConf.parse content)

def errors (view : DhcpConfig) : List Str :=
  (if view.leaseTime = 0 then ["lease_time must be greater than 0".toList] else []) ++
  (if view.rangeStart.toNat > view.rangeEnd.toNat then
    ["range_start ".toList ++ view.rangeStart.print ++
      " must not be greater than range_end ".toList ++ view.rangeEnd.print] else []) ++
  (if view.gateway.net24 ≠ view.rangeStart.net24 ∨ view.gateway.net24 ≠ view.rangeEnd.net24 then
    ["gateway ".toList ++ view.gateway.print ++
      " must be in the same /24 subnet as the DHCP range".toList] else [])

def validate (view : DhcpConfig) : Except (List Str) Unit :=
  if view.errors = [] then .ok () else .error view.errors

end DhcpConfig

inductive DhcpUpdateError
  | load (error : DhcpError)
  | notWritable (path : Path)
  | validation (errors : List Str)
  | io (error : IoError)
  | service (error : ServiceError)
  | rolledBack
  deriving DecidableEq, Repr

def DhcpUpdateError.display : DhcpUpdateError → Str
  | .load error => error.display
  | .notWritable path => "nanodhcp config not writable: ".toList ++ path
  | .validation errors => "invalid settings: ".toList ++ join "; ".toList errors
  | .io error => "filesystem error: ".toList ++ error.message
  | .service error => error.display
  | .rolledBack => "nanodhcp failed to start with new config; rolled back".toList

/-- The checks of `apply_dhcp`, up to the text it is going to write. -/
def editedDhcp (env : EditEnv) (path : Path) (settings : DhcpSettings) (fs : Fs) :
    Except DhcpUpdateError Str := do
  let conf ← (DhcpConf.fromPath env.readable path fs).mapError .load
  let view ← (DhcpConfig.fromConf (conf.apply settings)).mapError .load
  view.validate.mapError .validation
  require env.writable (.notWritable path)
  return (conf.apply settings).display

def applyDhcp (env : EditEnv) (path : Path) (settings : DhcpSettings) (commit : Commit) :
    Exec Fs DhcpUpdateError Unit := do
  let text ← reading (editedDhcp env path settings)
  saveEdited env ⟨.io, .service, .rolledBack⟩ path text commit

def updateDhcp (env : EditEnv) (path : Path) (settings : DhcpSettings) :
    Exec Fs DhcpUpdateError Unit :=
  applyDhcp env path settings .now

/-- Like `updateDhcp`, but keeps the `.bak` so that the caller can still revert. -/
def stageDhcp (env : EditEnv) (path : Path) (settings : DhcpSettings) :
    Exec Fs DhcpUpdateError Unit :=
  applyDhcp env path settings .hold

def dhcpEdited (settings : DhcpSettings) (content : Str) : Str :=
  ((DhcpConf.parse content).apply settings).display

/-- The edit passes every check: the config can be read and written, and its edited view is
valid. -/
structure DhcpAccepted (env : EditEnv) (path : Path) (settings : DhcpSettings) (fs : Fs)
    (content : Str) : Prop where
  found : contentOf fs path = some content
  readable : env.readable = true
  valid : ∃ view, DhcpConfig.fromConf ((DhcpConf.parse content).apply settings) = .ok view ∧
    view.validate = .ok ()
  writable : env.writable = true

section Edited

variable {env : EditEnv} {path : Path} {settings : DhcpSettings} {fs : Fs}

theorem DhcpConf.fromPath_eq_ok {readable : Bool} {conf : DhcpConf} :
    DhcpConf.fromPath readable path fs = .ok conf ↔
      readable = true ∧ ∃ content, contentOf fs path = some content ∧
        DhcpConf.parse content = conf := by
  simp only [DhcpConf.fromPath, bind_eq_ok, pure_eq_ok, require_eq_ok, mapError_eq_ok,
    readToString_eq_ok]
  constructor
  · intro holds
    rcases holds with ⟨_, -, _, readable, content, found, rfl⟩
    exact ⟨readable, content, found, rfl⟩
  · intro holds
    rcases holds with ⟨readable, content, found, rfl⟩
    exact ⟨(), exists_of_contentOf found, (), readable, content, found, rfl⟩

theorem editedDhcp_eq_ok {text : Str} :
    editedDhcp env path settings fs = .ok text ↔
      ∃ content, DhcpAccepted env path settings fs content ∧
        dhcpEdited settings content = text := by
  simp only [editedDhcp, bind_eq_ok, pure_eq_ok, mapError_eq_ok, require_eq_ok,
    DhcpConf.fromPath_eq_ok]
  constructor
  · intro holds
    rcases holds with ⟨conf, read, view, typed, _, valid, _, writable, rfl⟩
    rcases read with ⟨readable, content, found, rfl⟩
    exact ⟨content, ⟨found, readable, ⟨view, typed, valid⟩, writable⟩, rfl⟩
  · intro holds
    rcases holds with ⟨content, accepted, rfl⟩
    obtain ⟨view, typed, valid⟩ := accepted.valid
    exact ⟨DhcpConf.parse content, ⟨accepted.readable, content, accepted.found, rfl⟩, view,
      typed, (), valid, (), accepted.writable, rfl⟩

end Edited

end TinyWifi
