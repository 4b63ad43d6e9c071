import Mathlib.Data.List.Lex
import Mathlib.Data.List.Sort
import Mathlib.Data.String.Basic
import TinyWifi.AwgImport
import TinyWifi.Lib.Runs
import TinyWifi.Safety
import TinyWifi.TunnelRefusal

/-! The tunnels of the config directory: `scan_tunnels`, the autostart entry, the requests that
list, import, delete and choose tunnels, and what the whole is for. -/

namespace TinyWifi

open Text Exec Checks AwgImport

namespace TunnelStore

def awgConfDir : Path := "/etc/amnezia/amneziawg".toList

inductive AwgTunnelStatus
  | up
  | down
  | missing
  deriving DecidableEq, Repr

structure AwgTunnel where
  name : Str
  configPath : Path
  iface : AwgConf.AwgInterface
  peers : List AwgConf.AwgPeer
  status : AwgTunnelStatus
  autostart : Bool
  deriving DecidableEq, Repr

/-- What `tunnel_up` looks at. -/
def AwgTunnel.forUp (tunnel : AwgTunnel) : TinyWifi.AwgTunnel :=
  ⟨tunnel.name, ⟨tunnel.iface.addresses, tunnel.iface.dns⟩,
    tunnel.peers.map fun peer => ⟨peer.allowedIps⟩⟩

/-- What the system answers to a scan: the names in the directory, in the order in which they are
read, whether a file can be read, and which odd names have a path under `/sys/class/net`. -/
structure ScanEnv where
  entries : Except IoError (List Str)
  reads : Path → Except IoError Unit
  stray : Str → Bool

def readAs (answer : Except IoError Unit) (fs : Fs) (path : Path) : Except IoError Str := do
  answer
  readToString fs path

/-- `Path::file_stem` and `Path::extension` of a file name. A dot that is its first character starts
no extension. -/
def splitExtension (file : Str) : Str × Option Str :=
  if file = "..".toList then (file, none)
  else
    match splitOnce '.' file.reverse with
    | none => (file, none)
    | some (_, []) => (file, none)
    | some (after, before) => (before.reverse, some after.reverse)

section Scan

variable (scan : ScanEnv) (host : VpnHost)

/-- One entry of the directory. Files that are no configs or cannot be read are passed over. -/
def scanEntry (autostartName : Option Str) (file : Str) : Option AwgTunnel :=
  let path := TinyWifi.joinPath awgConfDir file
  match splitExtension file with
  | (_, none) => none
  | (name, some extension) =>
    if extension = "conf".toList then
      match readAs (scan.reads path) host.fs path with
      | .error _ => none
      | .ok content =>
        some {
          name := name
          configPath := path
          iface := (AwgConf.parseConf content).1
          peers := (AwgConf.parseConf content).2
          status := if ifaceExistsInKernel (scan.stray name) host name then .up else .down
          autostart := autostartName = some name }
    else none

def autostartOf : Option Str :=
  getAutostart (readAs (scan.reads vpnAutostartPath) host.fs vpnAutostartPath)

def scanTunnels : List AwgTunnel :=
  match scan.entries with
  | .error _ => []
  | .ok files =>
    (files.filterMap (scanEntry scan host (autostartOf scan host))).insertionSort
      fun a b => a.name ≤ b.name

end Scan

def notFound (name : Str) : ApiError :=
  ⟨404, "tunnel '".toList ++ name ++ "' not found".toList⟩

def findTunnel (tunnels : List AwgTunnel) (name : Str) : Except ApiError AwgTunnel :=
  okOr (tunnels.find? fun tunnel => tunnel.name = name) (notFound name)

def setAutostart (write : WriteOutcome) (name : Str) : Exec Fs Str Unit :=
  mapError (fun e : IoError => "write ".toList ++ vpnAutostartPath ++ ": ".toList ++ e.message)
    (writeFile write vpnAutostartPath (encode (name ++ ['\n'])))

section Handlers

variable (scan : ScanEnv)

def found (name : Str) : Exec VpnHost ApiError AwgTunnel :=
  reading fun host => findTunnel (scanTunnels scan host) name

def upEnv (env : TunnelUpEnv) (fs : Fs) (tunnel : AwgTunnel) : TunnelUpEnv :=
  { env with conf := readAs (env.conf.map fun _ => ()) fs tunnel.configPath }

def deleteEnv (env : DeleteTunnelEnv) (fs : Fs) : DeleteTunnelEnv :=
  { env with autostart := readAs (env.autostart.map fun _ => ()) fs vpnAutostartPath }

def vpnUp (env : TunnelUpEnv) (name : Str) : Exec VpnHost ApiError Unit := do
  let tunnel ← found scan name
  mapError (ApiError.mk 500) (tunnelUp (upEnv env (← get).fs tunnel) tunnel.forUp)

def vpnDown (env : TunnelDownEnv) (name : Str) : Exec VpnHost ApiError Unit := do
  let tunnel ← found scan name
  if tunnel.status ≠ .up then
    throw ⟨409, "tunnel '".toList ++ name ++ "' is not up".toList⟩
  else mapError (ApiError.mk 500) (tunnelDown env name)

def vpnImport (env : ImportEnv) (name config : Str) : Exec VpnHost ApiError Unit :=
  if trim name = [] then throw ⟨400, "name is required".toList⟩
  else do
    let _ ← mapError (fun e => ApiError.mk 400 e.display)
      (onFiles (importTunnel env config (trim name) awgConfDir))

/-- The parent of a scanned path is the directory. -/
def vpnDelete (env : DeleteTunnelEnv) (name : Str) : Exec VpnHost ApiError Unit := do
  let _ ← found scan name
  mapError (ApiError.mk 500) (deleteTunnel (deleteEnv env (← get).fs) name awgConfDir)

def vpnAutostartPost (write : WriteOutcome) (name : Str) : Exec VpnHost ApiError Unit := do
  let _ ← found scan name
  mapError (ApiError.mk 500) (onFiles (setAutostart write name))

def vpnAutostartDelete (env : DeleteTunnelEnv) (name : Str) : Exec VpnHost ApiError Unit := do
  if getAutostart (deleteEnv env (← get).fs).autostart = some name then
    mapError (ApiError.mk 500) (clearAutostart env)
  else pure ()

/-- What `main` does with the tunnels when the device starts; failures are only logged. -/
def autostartVpn (env : TunnelUpEnv) : Exec VpnHost ApiError Unit := do
  let host ← get
  match autostartOf scan host with
  | none => pure ()
  | some name => attempt (vpnUp scan env name)

end Handlers

/-- A start of the device, or a request with the answers that it meets. -/
inductive VpnRequest
  | boot (scan : ScanEnv) (env : TunnelUpEnv)
  | list (scan : ScanEnv)
  | up (scan : ScanEnv) (env : TunnelUpEnv) (name : Str)
  | down (scan : ScanEnv) (env : TunnelDownEnv) (name : Str)
  | importConf (env : ImportEnv) (name config : Str)
  | delete (scan : ScanEnv) (env : DeleteTunnelEnv) (name : Str)
  | autostartPost (scan : ScanEnv) (write : WriteOutcome) (name : Str)
  | autostartDelete (env : DeleteTunnelEnv) (name : Str)

inductive VpnAnswer
  | ok
  | tunnels (list : List AwgTunnel)
  deriving DecidableEq, Repr

def done (x : Exec VpnHost ApiError Unit) : Exec VpnHost ApiError VpnAnswer := do
  x
  return .ok

def serve : VpnRequest → Exec VpnHost ApiError VpnAnswer
  | .boot scan env => done (autostartVpn scan env)
  | .list scan => reading fun host => .ok (.tunnels (scanTunnels scan host))
  | .up scan env name => done (vpnUp scan env name)
  | .down scan env name => done (vpnDown scan env name)
  | .importConf env name config => done (vpnImport env name config)
  | .delete scan env name => done (vpnDelete scan env name)
  | .autostartPost scan write name => done (vpnAutostartPost scan write name)
  | .autostartDelete env name => done (vpnAutostartDelete env name)

def step (host : VpnHost) (request : VpnRequest) : VpnHost := (outcome (serve request) host).2

/-- What the directory and the autostart entry are for: a config under each name, and the tunnel
that comes up by itself. -/
@[ext] structure Tunnels where
  confs : Str → Option Str
  autostart : Option Str

namespace Tunnels

variable (t : Tunnels)

def put (name text : Str) : Tunnels := { t with confs := Function.update t.confs name (some text) }

def remove (name : Str) : Tunnels := { t with confs := Function.update t.confs name none }

def drop (name : Str) : Tunnels :=
  ⟨(t.remove name).confs, t.autostart.filter fun chosen => chosen ≠ name⟩

/-- The entry is read back without the white space around it. -/
def choose (name : Str) : Tunnels :=
  { t with autostart := if trim name = [] then none else some (trim name) }

def unchoose (name : Str) : Tunnels :=
  { t with autostart := t.autostart.filter fun chosen => chosen ≠ name }

/-- The list shows every tunnel once, in the order of the names, with its config. -/
structure Lists (list : List AwgTunnel) : Prop where
  sorted : (list.map (·.name)).Pairwise (· < ·)
  complete : ∀ name, name ∈ list.map (·.name) ↔ (t.confs name).isSome
  right : ∀ tunnel ∈ list, ∃ text, t.confs tunnel.name = some text ∧
    (tunnel.iface, tunnel.peers) = AwgConf.parseConf text ∧
    tunnel.autostart = decide (t.autostart = some tunnel.name)

end Tunnels

/-- The tunnel that a request is about has to be there. -/
def VpnRequest.needs : VpnRequest → Option Str
  | .up _ _ name | .down _ _ name | .delete _ _ name | .autostartPost _ _ name => some name
  | _ => none

/-- Whether the scan finds the link of a tunnel. -/
def ScanEnv.sees (scan : ScanEnv) (net : NetState) (name : Str) : Bool :=
  if NetState.devValidName name then (net.links name).isSome else scan.stray name

def linkStatus (up : Bool) : AwgTunnelStatus := if up then .up else .down

/-- A request, the kernel as it finds it, and the answer. -/
abbrev Served := VpnRequest × NetState × Except ApiError VpnAnswer

def internal (message : Str) : ApiError := ⟨500, message⟩

def autostartRemains (error : IoError) : ApiError :=
  internal ("remove ".toList ++ vpnAutostartPath ++ ": ".toList ++ error.message)

def confRemains (name : Str) (error : IoError) : ApiError :=
  internal ("remove ".toList ++ TinyWifi.joinPath awgConfDir (name ++ ".conf".toList) ++
    ": ".toList ++ error.message)

inductive ImportFails (env : ImportEnv) (config : Str) : ImportError → Prop
  | text {e : ImportError} (conf : confText env config = .error e) : ImportFails env config e
  | folder {e : IoError} (made : env.createDir = .error e) : ImportFails env config (.write e)
  | file {e : IoError} (written : env.write = .refused e) : ImportFails env config (.write e)

/-- What a request may come to, by how it is answered. What is refused is refused for an answer of
the system, or because the tunnel is not there or not up. -/
inductive Serves (t : Tunnels) : Served → Tunnels → Prop
  | listed {scan net list} (shown : t.Lists list)
      (links : ∀ tunnel ∈ list, tunnel.status = linkStatus (scan.sees net tunnel.name)) :
      Serves t (.list scan, net, .ok (.tunnels list)) t
  | booted {scan env net} : Serves t (.boot scan env, net, .ok .ok) t
  | broughtUp {scan env name net} (there : (t.confs name).isSome) :
      Serves t (.up scan env name, net, .ok .ok) t
  | notUp {scan env name net message} (there : (t.confs name).isSome)
      (fails : UpFails env net name message) :
      Serves t (.up scan env name, net, .error (internal message)) t
  | takenDown {scan env name net} (there : (t.confs name).isSome)
      (up : scan.sees net name = true) : Serves t (.down scan env name, net, .ok .ok) t
  | alreadyDown {scan env name net} (there : (t.confs name).isSome)
      (down : scan.sees net name = false) :
      Serves t (.down scan env name, net,
        .error ⟨409, "tunnel '".toList ++ name ++ "' is not up".toList⟩) t
  | imported {env name config text net} (named : trim name ≠ [])
      (conf : confText env config = .ok text) (made : env.createDir = .ok ())
      (written : env.write = .done)
      (inked : ∀ c ∈ safeName env (trim name), isWhitespace c = false) :
      Serves t (.importConf env name config, net, .ok .ok)
        (t.put (safeName env (trim name)) (cleaned text))
  | nameless {env name config net} (blank : trim name = []) :
      Serves t (.importConf env name config, net, .error ⟨400, "name is required".toList⟩) t
  | notImported {env name config net e} (named : trim name ≠ [])
      (fails : ImportFails env config e) :
      Serves t (.importConf env name config, net, .error ⟨400, e.display⟩) t
  | deleted {scan env name net} (there : (t.confs name).isSome) (removed : env.removeConf = .ok ())
      (readable : env.autostart.isOk = true)
      (cleared : t.autostart = some name → env.removeAutostart = .ok ()) :
      Serves t (.delete scan env name, net, .ok .ok) (t.drop name)
  | deletedUnread {scan env name net} (there : (t.confs name).isSome)
      (removed : env.removeConf = .ok ()) (unread : env.autostart.isOk = false) :
      Serves t (.delete scan env name, net, .ok .ok) (t.remove name)
  | stranded {scan env name net e} (there : (t.confs name).isSome)
      (removed : env.removeConf = .ok ()) (chosen : t.autostart = some name)
      (kept : env.removeAutostart = .error e) :
      Serves t (.delete scan env name, net, .error (autostartRemains e)) (t.remove name)
  | notDeleted {scan env name net e} (there : (t.confs name).isSome)
      (kept : env.removeConf = .error e) :
      Serves t (.delete scan env name, net, .error (confRemains name e)) t
  | chosen {scan write name net} (there : (t.confs name).isSome) (written : write = .done) :
      Serves t (.autostartPost scan write name, net, .ok .ok) (t.choose name)
  | notChosen {scan write name net e} (there : (t.confs name).isSome)
      (refused : write = .refused e) :
      Serves t (.autostartPost scan write name, net,
        .error (internal ("write ".toList ++ vpnAutostartPath ++ ": ".toList ++ e.message))) t
  | cleared {env name net} (readable : env.autostart.isOk = true)
      (removed : t.autostart = some name → env.removeAutostart = .ok ()) :
      Serves t (.autostartDelete env name, net, .ok .ok) (t.unchoose name)
  | unread {env name net} (unread : env.autostart.isOk = false) :
      Serves t (.autostartDelete env name, net, .ok .ok) t
  | notCleared {env name net e} (chosen : t.autostart = some name)
      (kept : env.removeAutostart = .error e) :
      Serves t (.autostartDelete env name, net, .error (autostartRemains e)) t
  | missing {request name net} (needs : request.needs = some name) (gone : t.confs name = none) :
      Serves t (request, net, .error (notFound name)) t

end TunnelStore

end TinyWifi
