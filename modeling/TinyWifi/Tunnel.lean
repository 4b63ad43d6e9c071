import TinyWifi.Amnezia

/-! `amnezia.rs`: `tunnel_up`, `tunnel_down` and `delete_tunnel`, with every command that can
fail. -/

namespace TinyWifi

open Text Exec NetState

structure AwgInterface where
  addresses : List Str
  dns : List Str
  deriving DecidableEq, Repr

structure AwgPeer where
  allowedIps : List Str
  deriving DecidableEq, Repr

structure AwgTunnel where
  name : Str
  iface : AwgInterface
  peers : List AwgPeer
  deriving DecidableEq, Repr

structure TeardownEnv where
  delDefault : CmdAnswer
  delRule : PolicyRule → CmdAnswer

/-- What the system answers during one `tunnel_up`. `stray` is whether there is a path under
`/sys/class/net` for a name that no interface can have; `killed` are the userspace links that go
away when the daemons are killed. -/
structure TunnelUpEnv where
  teardown : TeardownEnv
  stray : Bool
  linkDelete : CmdAnswer
  killed : Str → Bool
  linkAdd : CmdAnswer
  spawn : Except IoError Unit
  appears : Bool
  conf : Except IoError Str
  writeTmp : WriteOutcome
  removeTmp : Except IoError Unit
  awgBinary : Option Str
  setconf : CmdAnswer
  setFwmark : CmdAnswer
  addAddress : Nat → CmdAnswer
  linkUp : CmdAnswer
  backupDns : WriteOutcome
  writeDns : WriteOutcome
  addDefault : CmdAnswer
  addRule : PolicyRule → CmdAnswer
  mainDefault : Option Str
  bypassList : Except IoError Str
  addBypass : Nat → CmdAnswer
  saveState : WriteOutcome

structure TunnelDownEnv where
  stateReadable : Bool
  delBypass : Nat → CmdAnswer
  removeState : Except IoError Unit
  teardown : TeardownEnv
  linkDelete : CmdAnswer
  killed : Str → Bool
  restoreDns : WriteOutcome
  removeDnsBackup : Except IoError Unit

structure DeleteTunnelEnv where
  stray : Bool
  down : TunnelDownEnv
  removeConf : Except IoError Unit
  autostart : Except IoError Str
  removeAutostart : Except IoError Unit

def TeardownEnv.willing : TeardownEnv := ⟨.accepted, fun _ => .accepted⟩

/-- A system with the kernel module that does whatever the kernel lets it; `wan` is the answer of
`ip route show table main default`, `bypass` the text of the bypass list. -/
def TunnelUpEnv.willing (wan : Option Str) (bypass : Str) : TunnelUpEnv where
  teardown := .willing
  stray := false
  linkDelete := .accepted
  killed _ := true
  linkAdd := .accepted
  spawn := .ok ()
  appears := true
  conf := .ok []
  writeTmp := .done
  removeTmp := .ok ()
  awgBinary := some "/usr/bin/awg".toList
  setconf := .accepted
  setFwmark := .accepted
  addAddress _ := .accepted
  linkUp := .accepted
  backupDns := .done
  writeDns := .done
  addDefault := .accepted
  addRule _ := .accepted
  mainDefault := wan
  bypassList := .ok bypass
  addBypass _ := .accepted
  saveState := .done

def TunnelDownEnv.willing : TunnelDownEnv where
  stateReadable := true
  delBypass _ := .accepted
  removeState := .ok ()
  teardown := .willing
  linkDelete := .accepted
  killed _ := true
  restoreDns := .done
  removeDnsBackup := .ok ()

def ifaceExistsInKernel (stray : Bool) (host : VpnHost) (name : Str) : Bool :=
  if devValidName name then (host.net.links name).isSome else stray

/-- All userspace daemons are killed, whichever tunnel they serve. -/
def killAwgGo (killed : Str → Bool) : Exec VpnHost Str Unit :=
  modify fun host => { host with
    net := host.net.dropLinks fun name => killed name && host.net.links name = some .userspace }

def teardownPolicyRouting (env : TeardownEnv) (name : Str) : Exec VpnHost Str Unit := do
  attempt (runCmd ip env.delDefault (·.defaultDel name))
  attempt (runCmd ip (env.delRule .notFwmark) (·.ruleDel .notFwmark))
  attempt (runCmd ip (env.delRule .suppressPrefix) (·.ruleDel .suppressPrefix))

section Up

variable (env : TunnelUpEnv)

def spawnAwgGo (name : Str) : Exec VpnHost Str Unit :=
  match env.spawn with
  | .error error => throw ("amneziawg-go: ".toList ++ error.message)
  | .ok () => modify fun host =>
    if env.appears && devValidName name && (host.net.links name).isNone then
      { host with net := host.net.addLink .userspace name }
    else host

/-- The daemon is given 5 s; then it is killed. -/
def waitForInterface (name : Str) : Exec VpnHost Str Unit := do
  if ifaceExistsInKernel env.stray (← get) name then
    pure ()
  else do
    killAwgGo env.killed
    throw ("amneziawg-go: interface ".toList ++ name ++ " did not appear within 5 s".toList)

def createAwgInterface (name : Str) : Exec VpnHost Str Unit :=
  match env.linkAdd with
  | .notRun error => throw (ip ++ ": ".toList ++ error.message)
  | answer => do
    if ← succeeds (runCmd ip answer (·.linkAdd name)) then
      pure ()
    else do
      spawnAwgGo env name
      waitForInterface env name

def stripConfKeys (content : Str) (keys : List Str) : Str :=
  unlines ((lines content).filter fun line =>
    match splitOnce '=' line with
    | some (k, _) => !keys.contains (trim k)
    | none => true)

def awgQuickKeys : List Str :=
  ["Address".toList, "DNS".toList, "MTU".toList, "Table".toList, "PreUp".toList, "PostUp".toList,
    "PreDown".toList, "PostDown".toList]

def tmpConfPath (name : Str) : Path := "/tmp/tinywifi_".toList ++ name ++ ".conf".toList

def runAwg (answer : CmdAnswer) : Exec VpnHost Str Unit :=
  match env.awgBinary with
  | none => throw "awg binary not found".toList
  | some binary => runCmd binary answer .ok

/-- Configure the interface through a temporary file, which is removed however that ends. -/
def setInterfaceConf (name : Str) : Exec VpnHost Str Unit := do
  let conf ← reading fun _ => env.conf.mapError fun e => "read config: ".toList ++ e.message
  mapError (fun e => "write tmp conf: ".toList ++ e.message)
    (onFiles (writeFile env.writeTmp (tmpConfPath name) (encode (stripConfKeys conf awgQuickKeys))))
  ensuring (runAwg env env.setconf) (onFiles (removeFileAs env.removeTmp (tmpConfPath name)))

def addAddresses (answers : Nat → CmdAnswer) (name : Str) : List Str → Exec VpnHost Str Unit
  | [] => pure ()
  | _ :: rest => do
    runCmd ip (answers 0) (·.onLink name)
    addAddresses (fun i => answers (i + 1)) name rest

def cleanUpStale (name : Str) : Exec VpnHost Str Unit := do
  teardownPolicyRouting env.teardown name
  if ifaceExistsInKernel env.stray (← get) name then do
    attempt (runCmd ip env.linkDelete (·.linkDelete name))
    killAwgGo env.killed
  else
    pure ()

/-- `tunnel_up` before it touches the DNS. -/
def bringUpInterface (tunnel : AwgTunnel) : Exec VpnHost Str Unit := do
  cleanUpStale env tunnel.name
  createAwgInterface env tunnel.name
  setInterfaceConf env tunnel.name
  runAwg env env.setFwmark
  addAddresses env.addAddress tunnel.name tunnel.iface.addresses
  runCmd ip env.linkUp (·.onLink tunnel.name)

def resolvConf : Path := "/etc/resolv.conf".toList
def resolvBackup : Path := "/etc/resolv.conf.vpn_bak".toList

def nameservers (servers : List Str) : Str :=
  servers.flatMap fun s => "nameserver ".toList ++ s ++ ['\n']

def writeDns (servers : List Str) : Exec VpnHost Str Unit :=
  if servers = [] then pure ()
  else do
    attempt (onFiles (copyFile env.backupDns resolvConf resolvBackup))
    attempt (onFiles (writeFile env.writeDns resolvConf (encode (nameservers servers))))

def setupPolicyRouting (name : Str) : Exec VpnHost Str Unit := do
  runCmd ip env.addDefault (·.defaultAdd name)
  runCmd ip (env.addRule .notFwmark) (·.ruleAdd .notFwmark)
  runCmd ip (env.addRule .suppressPrefix) (·.ruleAdd .suppressPrefix)

def readRoute : List Str → Str × Str → Str × Str
  | [], route => route
  | word :: rest, (gw, dev) =>
    readRoute rest
      (if word = "via".toList then rest.headD [] else gw,
        if word = "dev".toList then rest.headD [] else dev)

def readDefault (shown : Option Str) : Option (Str × Str) := do
  let line ← (lines (← shown)).head?
  let (gw, dev) := readRoute (splitWhitespace line) ([], [])
  if gw = [] then none else some (gw, dev)

def loadBypassList (text : Except IoError Str) : List Str :=
  ((lines (text.toOption.getD [])).map trim).filter fun l => l ≠ [] && l.head? ≠ some '#'

def AwgTunnel.isFullTunnel (tunnel : AwgTunnel) : Bool :=
  tunnel.peers.any fun p => p.allowedIps.any fun ip => "0.0.0.0/0".toList.isPrefixOf ip

/-- Add the routes one by one; what comes back are the ones that could be added. -/
def addBypassRoutes (answers : Nat → CmdAnswer) : List Str → Exec VpnHost Str (List Str)
  | [] => pure []
  | entry :: rest => do
    let added ← succeeds (runCmd ip (answers 0) (·.routeAdd entry))
    let applied ← addBypassRoutes (fun i => answers (i + 1)) rest
    pure (if added then entry :: applied else applied)

def applyBypassRoutesIfNeeded (tunnel : AwgTunnel) : Exec VpnHost Str Unit :=
  if tunnel.isFullTunnel then
    match readDefault env.mainDefault with
    | none => pure ()
    | some (gw, dev) => do
      let applied ← addBypassRoutes env.addBypass (loadBypassList env.bypassList)
      VpnRouteState.save env.saveState ⟨tunnel.name, gw, dev, [], applied, true⟩
  else pure ()

def tunnelUp (tunnel : AwgTunnel) : Exec VpnHost Str Unit := do
  bringUpInterface env tunnel
  writeDns env tunnel.iface.dns
  setupPolicyRouting env tunnel.name
  applyBypassRoutesIfNeeded env tunnel

end Up

section Down

variable (env : TunnelDownEnv)

def delBypassRoutes (answers : Nat → CmdAnswer) : List Str → Exec VpnHost Str Unit
  | [] => pure ()
  | bp :: rest => do
    attempt (runCmd ip (answers 0) (·.routeDel bp))
    delBypassRoutes (fun i => answers (i + 1)) rest

def dropBypassRoutes (name : Str) : Exec VpnHost Str Unit := do
  match VpnRouteState.load env.stateReadable (← get).fs with
  | none => pure ()
  | some state =>
    if state.tunnelName = name then do
      delBypassRoutes env.delBypass state.bypassIps
      attempt (onFiles (removeFileAs env.removeState vpnRouteStatePath))
    else pure ()

def restoreDns : Exec VpnHost Str Unit := do
  if fileExists (← get).fs resolvBackup then do
    attempt (onFiles (copyFile env.restoreDns resolvBackup resolvConf))
    attempt (onFiles (removeFileAs env.removeDnsBackup resolvBackup))
  else pure ()

def tunnelDown (name : Str) : Exec VpnHost Str Unit := do
  dropBypassRoutes env name
  teardownPolicyRouting env.teardown name
  attempt (runCmd ip env.linkDelete (·.linkDelete name))
  killAwgGo env.killed
  restoreDns env

end Down

section Delete

variable (env : DeleteTunnelEnv)

def vpnAutostartPath : Path := "/etc/tinywifi/vpn_autostart".toList

def joinPath (dir file : Path) : Path :=
  if file.head? = some '/' then file
  else if dir = [] ∨ dir.getLast? = some '/' then dir ++ file
  else dir ++ '/' :: file

def getAutostart (text : Except IoError Str) : Option Str :=
  match text with
  | .error _ => none
  | .ok s => if trim s = [] then none else some (trim s)

def clearAutostart : Exec VpnHost Str Unit :=
  match env.removeAutostart with
  | .ok () => attempt (onFiles (removeFile vpnAutostartPath))
  | .error e => throw ("remove ".toList ++ vpnAutostartPath ++ ": ".toList ++ e.message)

def removeConfFile (name : Str) (dir : Path) : Exec VpnHost Str Unit := do
  let path := joinPath dir (name ++ ".conf".toList)
  if fileExists (← get).fs path then
    mapError (fun e : IoError => "remove ".toList ++ path ++ ": ".toList ++ e.message)
      (onFiles (removeFileAs env.removeConf path))
  else pure ()

def removeTunnelConf (name : Str) (dir : Path) : Exec VpnHost Str Unit := do
  removeConfFile env name dir
  if getAutostart env.autostart = some name then clearAutostart env else pure ()

def deleteTunnel (name : Str) (dir : Path) : Exec VpnHost Str Unit := do
  if ifaceExistsInKernel env.stray (← get) name then tunnelDown env.down name else pure ()
  removeTunnelConf env name dir

end Delete

inductive TunnelCall
  | up (env : TunnelUpEnv) (tunnel : AwgTunnel)
  | down (env : TunnelDownEnv) (name : Str)

/-- The host after some calls. `outstanding` are the tunnels that were brought up, or at least
tried, and not taken down since; the code does not keep them. -/
structure TunnelHost where
  host : VpnHost
  outstanding : List Str

namespace TunnelHost

def start (host : VpnHost) : TunnelHost := ⟨host, []⟩

def step (st : TunnelHost) : TunnelCall → TunnelHost
  | .up env tunnel => ⟨(outcome (tunnelUp env tunnel) st.host).2, tunnel.name :: st.outstanding⟩
  | .down env name =>
    ⟨(outcome (tunnelDown env name) st.host).2, st.outstanding.filter (· ≠ name)⟩

end TunnelHost

end TinyWifi
