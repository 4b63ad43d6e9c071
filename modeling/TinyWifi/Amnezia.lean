import TinyWifi.Files
import TinyWifi.Lib.Lines

/-! `amnezia.rs`: what the tunnels share. The kernel's links, routes and policy rules, the commands
that change them, and the saved route state. -/

namespace TinyWifi

open Text Exec

inductive LinkKind
  | kernel
  | userspace
  deriving DecidableEq, Repr

/-- The two policy rules: `not fwmark 51820 table 51820` and
`table main suppress_prefixlength 0`. -/
inductive PolicyRule
  | notFwmark
  | suppressPrefix
  deriving DecidableEq, Repr

/-- The kernel's side: the links, the device of the default route of table 51820, the policy rules
and the destinations of the main table. -/
structure NetState where
  links : Str → Option LinkKind
  vpnDefault : Option Str
  rules : PolicyRule → Bool
  main : Str → Bool

structure VpnHost where
  net : NetState
  fs : Fs

/-- How the system takes a command: it does it if the kernel lets it, or the command fails, or it
cannot be started. -/
inductive CmdAnswer
  | accepted
  | failed (stderr : Str)
  | notRun (error : IoError)
  deriving DecidableEq, Repr

namespace NetState

variable (net : NetState)

/-- The names that a network interface can have. -/
def devValidName (name : Str) : Bool :=
  name ≠ [] && byteLen name < 16 && name ≠ ['.'] && name ≠ ['.', '.'] &&
    name.all fun c => c ≠ '/' && c ≠ ':' && !isWhitespace c

def hasLink (name : Str) : Bool := devValidName name && (net.links name).isSome

def cannotFindDevice (name : Str) : Str :=
  "Cannot find device \"".toList ++ name ++ "\"\n".toList

def fileExistsError : Str := "RTNETLINK answers: File exists\n".toList
def noSuchProcess : Str := "RTNETLINK answers: No such process\n".toList
def noSuchRule : Str := "RTNETLINK answers: No such file or directory\n".toList
def badPrefix (dest : Str) : Str :=
  "Error: any valid prefix is expected rather than \"".toList ++ dest ++ "\".\n".toList

def addLink (kind : LinkKind) (name : Str) : NetState :=
  { net with links := Function.update net.links name (some kind) }

/-- Links that go away take the routes through them along. -/
def dropLinks (gone : Str → Bool) : NetState :=
  { net with
    links := fun name => if gone name then none else net.links name
    vpnDefault := net.vpnDefault.filter fun dev => !gone dev }

def linkAdd (name : Str) : Except Str NetState :=
  if devValidName name && (net.links name).isNone then .ok (net.addLink .kernel name)
  else .error fileExistsError

def linkDelete (name : Str) : Except Str NetState :=
  if net.hasLink name then .ok (net.dropLinks fun other => other = name)
  else .error (cannotFindDevice name)

/-- `ip address add` and `ip link set`, which change nothing that is modelled. -/
def onLink (name : Str) : Except Str NetState :=
  if net.hasLink name then .ok net else .error (cannotFindDevice name)

def defaultAdd (name : Str) : Except Str NetState :=
  if net.hasLink name = false then .error (cannotFindDevice name)
  else if net.vpnDefault.isSome then .error fileExistsError
  else .ok { net with vpnDefault := some name }

def defaultDel (name : Str) : Except Str NetState :=
  if net.vpnDefault = some name then .ok { net with vpnDefault := none }
  else .error noSuchProcess

def ruleAdd (rule : PolicyRule) : Except Str NetState :=
  if net.rules rule then .error fileExistsError
  else .ok { net with rules := Function.update net.rules rule true }

def ruleDel (rule : PolicyRule) : Except Str NetState :=
  if net.rules rule then .ok { net with rules := Function.update net.rules rule false }
  else .error noSuchRule

/-- `ip` takes one address or prefix, not a list and no further words. -/
def isPrefixText (dest : Str) : Bool :=
  dest ≠ [] && dest.all fun c => c ≠ ',' && !isWhitespace c

def routeAdd (dest : Str) : Except Str NetState :=
  if isPrefixText dest = false then .error (badPrefix dest)
  else if net.main dest then .error fileExistsError
  else .ok { net with main := Function.update net.main dest true }

def routeDel (dest : Str) : Except Str NetState :=
  if net.main dest then .ok { net with main := Function.update net.main dest false }
  else .error noSuchProcess

end NetState

def runCmd (prog : Str) (answer : CmdAnswer) (change : NetState → Except Str NetState) :
    Exec VpnHost Str Unit :=
  match answer with
  | .notRun error => throw (prog ++ ": ".toList ++ error.message)
  | .failed stderr => throw (trim stderr)
  | .accepted => fun host =>
    match change host.net with
    | .error stderr => (.error (trim stderr), host)
    | .ok net => (.ok (), { host with net := net })

def onFiles {ε α : Type} (x : Exec Fs ε α) : Exec VpnHost ε α := fun host =>
  ((outcome x host.fs).1, { host with fs := (outcome x host.fs).2 })

def ip : Str := "ip".toList

structure VpnRouteState where
  tunnelName : Str
  wanGw : Str
  wanDev : Str
  endpointIps : List Str
  bypassIps : List Str
  fullTunnel : Bool
  deriving DecidableEq, Repr

def vpnRouteStatePath : Path := "/tmp/tinywifi_vpn_state".toList

namespace VpnRouteState

def keyTunnelName : Str := "tunnel_name".toList
def keyWanGw : Str := "wan_gw".toList
def keyWanDev : Str := "wan_dev".toList
def keyEndpointIps : Str := "endpoint_ips".toList
def keyBypassIps : Str := "bypass_ips".toList
def keyFullTunnel : Str := "full_tunnel".toList

def printBool (b : Bool) : Str := if b then "true".toList else "false".toList

def content (s : VpnRouteState) : Str :=
  unlines [keyTunnelName ++ '=' :: s.tunnelName, keyWanGw ++ '=' :: s.wanGw,
    keyWanDev ++ '=' :: s.wanDev, keyEndpointIps ++ '=' :: join [','] s.endpointIps,
    keyBypassIps ++ '=' :: join [','] s.bypassIps, keyFullTunnel ++ '=' :: printBool s.fullTunnel]

def save (system : WriteOutcome) (s : VpnRouteState) : Exec VpnHost Str Unit :=
  attempt (onFiles (writeFile system vpnRouteStatePath (encode s.content)))

def empty : VpnRouteState := ⟨[], [], [], [], [], false⟩

def splitIps (v : Str) : List Str := (v.splitOn ',').filter (· ≠ [])

def readLine (s : VpnRouteState) (line : Str) : VpnRouteState :=
  match splitOnce '=' line with
  | none => s
  | some (k, v) =>
    if k = keyTunnelName then { s with tunnelName := v }
    else if k = keyWanGw then { s with wanGw := v }
    else if k = keyWanDev then { s with wanDev := v }
    else if k = keyEndpointIps then { s with endpointIps := splitIps v }
    else if k = keyBypassIps then { s with bypassIps := splitIps v }
    else if k = keyFullTunnel then { s with fullTunnel := v = "true".toList }
    else s

def parse (text : Str) : Option VpnRouteState :=
  let s := (lines text).foldl readLine empty
  if s.tunnelName = [] then none else some s

def load (readable : Bool) (fs : Fs) : Option VpnRouteState :=
  if readable then (contentOf fs vpnRouteStatePath).bind parse else none

section RoundTrip

def OneLine (v : Str) : Prop := '\n' ∉ v ∧ '\r' ∉ v

theorem oneLine_of_not_whitespace {v : Str} (h : ∀ c ∈ v, isWhitespace c = false) : OneLine v :=
  ⟨not_mem_of_ink (by decide) h, not_mem_of_ink (by decide) h⟩

theorem isPrefixText_iff {dest : Str} :
    NetState.isPrefixText dest = true ↔
      dest ≠ [] ∧ ∀ c ∈ dest, c ≠ ',' ∧ isWhitespace c = false := by
  simp [NetState.isPrefixText]

theorem oneLine_join {ips : List Str} (h : ∀ ip ∈ ips, NetState.isPrefixText ip = true) :
    OneLine (join [','] ips) := by
  have blank (c : Char) (white : isWhitespace c = true) (comma : c ≠ ',') : c ∉ join [','] ips := by
    intro member
    rcases mem_join member with same | ⟨ip, listed, inner⟩
    · exact comma same
    · have shown := ((isPrefixText_iff.mp (h ip listed)).2 c inner).2
      rw [white] at shown
      cases shown
  exact ⟨blank _ (by decide) (by decide), blank _ (by decide) (by decide)⟩

theorem splitIps_join {ips : List Str} (h : ∀ ip ∈ ips, NetState.isPrefixText ip = true) :
    splitIps (join [','] ips) = ips := by
  cases ips with
  | nil => decide
  | cons ip rest =>
      have comma (other : Str) (listed : other ∈ ip :: rest) : ',' ∉ other := by
        intro member
        exact ((isPrefixText_iff.mp (h other listed)).2 ',' member).1 rfl
      rw [splitIps, join, List.splitOn_intercalate ',' comma (List.cons_ne_nil _ _)]
      apply List.filter_eq_self.mpr
      intro other listed
      simpa using (isPrefixText_iff.mp (h other listed)).1

theorem stripCr_field {key v : Str} (h : OneLine v) :
    stripCr (key ++ '=' :: v) = key ++ '=' :: v := by
  apply stripCr_of_not_endsCr
  rw [endsCr_append (List.cons_ne_nil _ _)]
  intro ends
  have last := List.mem_of_getLast? ends
  rcases List.mem_cons.mp last with same | inner
  · exact absurd same (by decide)
  · exact h.2 inner

theorem no_lf_field {key v : Str} (keyLf : '\n' ∉ key) (h : OneLine v) :
    '\n' ∉ key ++ '=' :: v := by
  simp [keyLf, h.1]

/-- The lines of `content` are read one after another, each into its own field. -/
theorem foldl_readLine (name gw dev endpoints bypass full : Str) (s : VpnRouteState) :
    [keyTunnelName ++ '=' :: name, keyWanGw ++ '=' :: gw, keyWanDev ++ '=' :: dev,
        keyEndpointIps ++ '=' :: endpoints, keyBypassIps ++ '=' :: bypass,
        keyFullTunnel ++ '=' :: full].foldl readLine s =
      ⟨name, gw, dev, splitIps endpoints, splitIps bypass, full = "true".toList⟩ := by
  have field (key v : Str) (eq : '=' ∉ key) : splitOnce '=' (key ++ '=' :: v) = some (key, v) :=
    splitOnce_append key v eq
  simp only [List.foldl_cons, List.foldl_nil, readLine, field keyTunnelName _ (by decide),
    field keyWanGw _ (by decide), field keyWanDev _ (by decide),
    field keyEndpointIps _ (by decide), field keyBypassIps _ (by decide),
    field keyFullTunnel _ (by decide)]
  rfl

theorem parse_content {s : VpnRouteState} (named : s.tunnelName ≠ []) (name : OneLine s.tunnelName)
    (gw : OneLine s.wanGw) (dev : OneLine s.wanDev)
    (endpoints : ∀ ip ∈ s.endpointIps, NetState.isPrefixText ip = true)
    (bypass : ∀ ip ∈ s.bypassIps, NetState.isPrefixText ip = true) :
    parse s.content = some s := by
  have full : OneLine (printBool s.fullTunnel) := by
    cases s.fullTunnel with
    | true => exact ⟨by decide, by decide⟩
    | false => exact ⟨by decide, by decide⟩
  have back : decide (printBool s.fullTunnel = "true".toList) = s.fullTunnel := by
    cases s.fullTunnel with
    | true => rfl
    | false => rfl
  rw [parse, content, lines_unlines]
  · simp only [List.map_cons, List.map_nil, stripCr_field name, stripCr_field gw,
      stripCr_field dev, stripCr_field (oneLine_join endpoints),
      stripCr_field (oneLine_join bypass), stripCr_field full]
    rw [foldl_readLine, splitIps_join endpoints, splitIps_join bypass, back]
    exact if_neg named
  · intro line member
    simp only [List.mem_cons, List.not_mem_nil, or_false] at member
    rcases member with rfl | rfl | rfl | rfl | rfl | rfl
    · exact no_lf_field (by decide) name
    · exact no_lf_field (by decide) gw
    · exact no_lf_field (by decide) dev
    · exact no_lf_field (by decide) (oneLine_join endpoints)
    · exact no_lf_field (by decide) (oneLine_join bypass)
    · exact no_lf_field (by decide) full

end RoundTrip

end VpnRouteState

end TinyWifi
