import TinyWifi.Hostapd
import TinyWifi.Safety

/-! `wifi.rs`: validation of the Wi-Fi settings and the guarded save flow. -/

namespace TinyWifi

open Text Exec Checks

def channels5GHz : List UInt16 :=
  [36, 40, 44, 48, 52, 56, 60, 64, 100, 104, 108, 112, 116, 120, 124, 128, 132, 136, 140, 144,
    149, 153, 157, 161, 165]

def isValidChannel (channel : UInt16) : Bool :=
  (1 ≤ channel && channel ≤ 14) || channels5GHz.contains channel

namespace WifiSettings

def errors (settings : WifiSettings) : List Str :=
  (if 1 ≤ byteLen settings.ssid ∧ byteLen settings.ssid ≤ 32 then []
    else ["SSID must be 1-32 characters".toList]) ++
  (if 8 ≤ byteLen settings.passphrase ∧ byteLen settings.passphrase ≤ 63 then []
    else ["password must be 8-63 characters".toList]) ++
  (if byteLen settings.countryCode ≠ 2 ∨ ¬ settings.countryCode.all Char.isAlpha then
    ["country must be a 2-letter code".toList] else []) ++
  (if isValidChannel settings.channel then []
    else ["channel ".toList ++ HostapdConf.printChannel settings.channel ++
      " is not a valid Wi-Fi channel".toList])

def validate (settings : WifiSettings) : Except (List Str) Unit :=
  if settings.errors = [] then .ok () else .error settings.errors

theorem alpha_of_validate {settings : WifiSettings} (h : settings.validate = .ok ()) :
    ∀ c ∈ settings.countryCode, c.isAlpha := by
  have none : settings.errors = [] := by
    by_contra some
    simp [validate, some] at h
  simp only [errors, List.append_eq_nil_iff] at none
  have country := none.1.2
  by_contra bad
  have : ¬ settings.countryCode.all Char.isAlpha := by simpa using bad
  simp [this] at country

end WifiSettings

inductive WifiError
  | notFound (path : Path)
  | notWritable (path : Path)
  | validation (errors : List Str)
  | interfaceMissing (interface : Str)
  | io (error : IoError)
  | service (error : ServiceError)
  | rolledBack
  deriving DecidableEq, Repr

def WifiError.display : WifiError → Str
  | .notFound path => "hostapd config not found: ".toList ++ path
  | .notWritable path => "hostapd config not writable: ".toList ++ path
  | .validation errors => "invalid settings: ".toList ++ join "; ".toList errors
  | .interfaceMissing interface => "interface '".toList ++ interface ++ "' does not exist".toList
  | .io error => "filesystem error: ".toList ++ error.message
  | .service error => error.display
  | .rolledBack => "hostapd failed to start with new config; rolled back".toList

def HostapdConf.fromPath (readable : Bool) (path : Path) (fs : Fs) :
    Except IoError HostapdConf := do
  require (fileExists fs path) ⟨"hostapd config not found: ".toList ++ path⟩
  require readable ⟨"hostapd config not readable: ".toList ++ path⟩
  let content ← readToString fs path
  return HostapdConf.parse content

/-- The configured AP interface, if there is one, has to exist. -/
def checkInterface (env : EditEnv) (conf : HostapdConf) : Except WifiError Unit :=
  match conf.wifiConfig.interface with
  | some interface => require (env.interfaceExists interface) (.interfaceMissing interface)
  | none => .ok ()

/-- The checks of `apply_wifi`, up to the text it is going to write. -/
def editedWifi (env : EditEnv) (path : Path) (settings : WifiSettings) (fs : Fs) :
    Except WifiError Str := do
  require (fileExists fs path) (.notFound path)
  settings.validate.mapError .validation
  require env.writable (.notWritable path)
  let conf ← (HostapdConf.fromPath env.readable path fs).mapError .io
  checkInterface env conf
  return (conf.apply settings).display

def applyWifi (env : EditEnv) (path : Path) (settings : WifiSettings) (commit : Commit) :
    Exec Fs WifiError Unit := do
  let text ← reading (editedWifi env path settings)
  saveEdited env ⟨.io, .service, .rolledBack⟩ path text commit

def updateWifi (env : EditEnv) (path : Path) (settings : WifiSettings) : Exec Fs WifiError Unit :=
  applyWifi env path settings .now

/-- Like `updateWifi`, but keeps the `.bak` so that the caller can still revert. -/
def stageWifi (env : EditEnv) (path : Path) (settings : WifiSettings) : Exec Fs WifiError Unit :=
  applyWifi env path settings .hold

def wifiEdited (settings : WifiSettings) (content : Str) : Str :=
  ((HostapdConf.parse content).apply settings).display

/-- The edit passes every check: the config can be read and written, the settings are valid, and
the configured interface exists. -/
structure WifiAccepted (env : EditEnv) (path : Path) (settings : WifiSettings) (fs : Fs)
    (content : Str) : Prop where
  found : contentOf fs path = some content
  valid : settings.validate = .ok ()
  writable : env.writable = true
  readable : env.readable = true
  interface : ∀ interface, (HostapdConf.parse content).wifiConfig.interface = some interface →
    env.interfaceExists interface = true

section Edited

variable {env : EditEnv} {path : Path} {settings : WifiSettings} {fs : Fs}

theorem fromPath_eq_ok {readable : Bool} {conf : HostapdConf} :
    HostapdConf.fromPath readable path fs = .ok conf ↔
      readable = true ∧ ∃ content, contentOf fs path = some content ∧
        HostapdConf.parse content = conf := by
  simp only [HostapdConf.fromPath, bind_eq_ok, pure_eq_ok, require_eq_ok, readToString_eq_ok]
  constructor
  · intro holds
    rcases holds with ⟨_, -, _, readable, content, found, rfl⟩
    exact ⟨readable, content, found, rfl⟩
  · intro holds
    rcases holds with ⟨readable, content, found, rfl⟩
    exact ⟨(), exists_of_contentOf found, (), readable, content, found, rfl⟩

theorem checkInterface_eq_ok {conf : HostapdConf} {u : Unit} :
    checkInterface env conf = .ok u ↔
      ∀ interface, conf.wifiConfig.interface = some interface →
        env.interfaceExists interface = true := by
  unfold checkInterface
  cases conf.wifiConfig.interface with
  | none => simp
  | some interface => simp

theorem editedWifi_eq_ok {text : Str} :
    editedWifi env path settings fs = .ok text ↔
      ∃ content, WifiAccepted env path settings fs content ∧
        wifiEdited settings content = text := by
  simp only [editedWifi, bind_eq_ok, pure_eq_ok, mapError_eq_ok, require_eq_ok, fromPath_eq_ok,
    checkInterface_eq_ok]
  constructor
  · intro holds
    rcases holds with ⟨_, -, _, valid, _, writable, conf, read, _, interface, rfl⟩
    rcases read with ⟨readable, content, found, rfl⟩
    exact ⟨content, ⟨found, valid, writable, readable, interface⟩, rfl⟩
  · intro holds
    rcases holds with ⟨content, accepted, rfl⟩
    exact ⟨(), exists_of_contentOf accepted.found, (), accepted.valid, (), accepted.writable,
      HostapdConf.parse content, ⟨accepted.readable, content, accepted.found, rfl⟩, (),
      accepted.interface, rfl⟩

end Edited

def guestSettings (passphrase : Str) : WifiSettings where
  ssid := "guest".toList
  passphrase := passphrase
  countryCode := "DE".toList
  channel := 36

end TinyWifi
