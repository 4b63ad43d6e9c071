import TinyWifi.Lib.Runs
import TinyWifi.TunnelFrames

/-! Whether traffic can bypass a tunnel that is up: one set of policy rules for all tunnels. -/

namespace TinyWifi

open Text Exec Runs

namespace VpnPolicy

inductive VpnCall
  | up (env : TunnelUpEnv) (tunnel : AwgTunnel)
  | down (env : TunnelDownEnv) (name : Str)
  | delete (env : DeleteTunnelEnv) (name : Str) (dir : Path)

/-- The host after some calls. `inForce` are the tunnels whose last call was a `tunnel_up` that
returned `Ok`; the code does not keep them. -/
structure VpnState where
  host : VpnHost
  inForce : List Str

namespace VpnState

def start (host : VpnHost) : VpnState := ⟨host, []⟩

def others (st : VpnState) (name : Str) : List Str := st.inForce.filter (· ≠ name)

def step (st : VpnState) : VpnCall → VpnState
  | .up env tunnel =>
    match outcome (tunnelUp env tunnel) st.host with
    | (.ok (), host) => ⟨host, tunnel.name :: st.others tunnel.name⟩
    | (.error _, host) => ⟨host, st.others tunnel.name⟩
  | .down env name => ⟨(outcome (tunnelDown env name) st.host).2, st.others name⟩
  | .delete env name dir => ⟨(outcome (deleteTunnel env name dir) st.host).2, st.others name⟩

end VpnState

/-- Both policy rules are installed, and the table they lead to has a default route through the
link of a tunnel that is in force. -/
structure Routed (net : NetState) (inForce : List Str) : Prop where
  rules : ∀ rule, net.rules rule = true
  default : ∃ dev ∈ inForce, net.vpnDefault = some dev ∧ net.hasLink dev = true

/-- While a tunnel is in force, the traffic goes through a tunnel. -/
def NoBypass (st : VpnState) : Prop := st.inForce ≠ [] → Routed st.host.net st.inForce

/-- The teardown leaves the routing of the other tunnels alone: the system refuses to delete the
rules, the default route is not this tunnel's, and the daemon that carries it is not killed. -/
structure Spares (teardown : TeardownEnv) (killed : Str → Bool) (net : NetState) (name : Str) :
    Prop where
  rules : ∀ rule, teardown.delRule rule ≠ .accepted
  default : net.vpnDefault ≠ some name
  alive : ∀ dev, net.vpnDefault = some dev →
    ¬ (killed dev = true ∧ net.links dev = some .userspace)

/-- A call that tears the policy routing down does so while no other tunnel is in force, or it
spares the others. -/
def SafeCall (st : VpnState) : VpnCall → Prop
  | .up env tunnel =>
    st.others tunnel.name = [] ∨ Spares env.teardown env.killed st.host.net tunnel.name
  | .down env name => st.others name = [] ∨ Spares env.teardown env.killed st.host.net name
  | .delete env name _ =>
    ifaceExistsInKernel env.stray st.host name = true →
      st.others name = [] ∨ Spares env.down.teardown env.down.killed st.host.net name

section Frames

theorem policy_addBypassRoutes (answers : Nat → CmdAnswer) (entries : List Str) :
    Within KeepsPolicy (addBypassRoutes answers entries) := by
  induction entries generalizing answers with
  | nil => exact within_pure KeepsPolicy.refl _
  | cons entry rest ih =>
      apply within_bind KeepsPolicy.trans
      · apply within_succeeds
        apply within_runCmd KeepsPolicy.refl
        intro host net changed
        obtain ⟨-, -, rfl⟩ := routeAdd_eq_ok.mp changed
        exact ⟨rfl, rfl, rfl⟩
      · intro added
        apply within_bind KeepsPolicy.trans (ih _)
        exact fun applied => within_pure KeepsPolicy.refl _

theorem policy_delBypassRoutes (answers : Nat → CmdAnswer) (routes : List Str) :
    Within KeepsPolicy (delBypassRoutes answers routes) := by
  induction routes generalizing answers with
  | nil => exact within_pure KeepsPolicy.refl _
  | cons bp rest ih =>
      apply within_bind KeepsPolicy.trans
      · apply within_attempt
        apply within_runCmd KeepsPolicy.refl
        intro host net changed
        obtain ⟨-, rfl⟩ := routeDel_eq_ok.mp changed
        exact ⟨rfl, rfl, rfl⟩
      · exact fun _ => ih _

theorem policy_dropBypassRoutes (env : TunnelDownEnv) (name : Str) :
    Within KeepsPolicy (dropBypassRoutes env name) := by
  apply within_bind KeepsPolicy.trans (within_of_unchanged KeepsPolicy.refl fun _ => rfl)
  intro host
  split
  · exact within_pure KeepsPolicy.refl _
  · apply within_ite
    · intro own
      apply within_bind KeepsPolicy.trans (policy_delBypassRoutes _ _)
      exact fun _ => within_attempt fun host => ⟨rfl, rfl, rfl⟩
    · exact fun _ => within_pure KeepsPolicy.refl _

theorem policy_applyBypassRoutesIfNeeded (env : TunnelUpEnv) (tunnel : AwgTunnel) :
    Within KeepsPolicy (applyBypassRoutesIfNeeded env tunnel) := by
  apply within_ite
  · intro full
    cases readDefault env.mainDefault with
    | none => exact within_pure KeepsPolicy.refl _
    | some route =>
        apply within_bind KeepsPolicy.trans (policy_addBypassRoutes _ _)
        exact fun applied => within_attempt fun host => ⟨rfl, rfl, rfl⟩
  · exact fun _ => within_pure KeepsPolicy.refl _

theorem net_removeTunnelConf (env : DeleteTunnelEnv) (name : Str) (dir : Path) :
    Within (fun host host' => host'.net = host.net) (removeTunnelConf env name dir) := by
  have refl (host : VpnHost) : host.net = host.net := rfl
  have trans (a b c : VpnHost) (first : b.net = a.net) (second : c.net = b.net) : c.net = a.net :=
    second.trans first
  apply within_bind trans
  · apply within_bind trans (within_of_unchanged refl fun _ => rfl)
    intro host
    apply within_ite
    · exact fun _ => within_mapError fun host => rfl
    · exact fun _ => within_pure refl _
  · intro _
    apply within_ite
    · intro _
      unfold clearAutostart
      split
      · exact within_attempt fun host => rfl
      · exact within_throw refl _
    · exact fun _ => within_pure refl _

end Frames

section Standing

/-- The routing goes through the device, and killing the daemons does not take it away. -/
structure Stands (dev : Str) (killed : Str → Bool) (net : NetState) : Prop where
  rules : ∀ rule, net.rules rule = true
  default : net.vpnDefault = some dev
  link : net.hasLink dev = true
  alive : ¬ (killed dev = true ∧ net.links dev = some .userspace)

def KeepsStanding (dev : Str) (killed : Str → Bool) (host host' : VpnHost) : Prop :=
  Stands dev killed host.net → Stands dev killed host'.net

variable {dev name : Str} {killed : Str → Bool}

theorem KeepsStanding.refl (host : VpnHost) : KeepsStanding dev killed host host := id

theorem KeepsStanding.trans (a b c : VpnHost) (first : KeepsStanding dev killed a b)
    (second : KeepsStanding dev killed b c) : KeepsStanding dev killed a c :=
  fun stands => second (first stands)

theorem Stands.of_links {net net' : NetState} (stands : Stands dev killed net)
    (rules : net'.rules = net.rules) (default : net'.vpnDefault = some dev)
    (links : net'.links dev = net.links dev) : Stands dev killed net' := by
  have link := stands.link
  rw [NetState.hasLink] at link
  exact ⟨fun rule => (congrFun rules rule).trans (stands.rules rule), default,
    by rw [NetState.hasLink, links]; exact link, by rw [links]; exact stands.alive⟩

theorem Stands.dropLinks {net : NetState} (stands : Stands dev killed net) {gone : Str → Bool}
    (spared : gone dev = false) : Stands dev killed (net.dropLinks gone) := by
  refine stands.of_links rfl ?_ ?_
  · rw [NetState.dropLinks, stands.default]
    simp [spared]
  · rw [NetState.dropLinks]
    simp [spared]

theorem standing_of_policy {α : Type} {x : Exec VpnHost Str α} (h : Within KeepsPolicy x) :
    Within (KeepsStanding dev killed) x := by
  intro host stands
  have kept := h host
  exact stands.of_links kept.rules (kept.vpnDefault.trans stands.default) (congrFun kept.links dev)

theorem standing_onFiles {ε α : Type} (x : Exec Fs ε α) :
    Within (KeepsStanding dev killed) (onFiles x) := fun _ stands => stands

theorem standing_teardownRule {env : TeardownEnv} (linkDelete : CmdAnswer) (apart : dev ≠ name)
    (refused : ∀ rule, env.delRule rule ≠ .accepted) :
    TeardownRule (KeepsStanding dev killed) env linkDelete killed name where
  refl := KeepsStanding.refl
  trans := KeepsStanding.trans
  delDefault := by
    apply within_runCmd KeepsStanding.refl
    intro host net deleted stands
    obtain ⟨mine, -⟩ := defaultDel_eq_ok.mp deleted
    exact absurd (Option.some_inj.mp (stands.default.symm.trans mine)) apart
  delRule rule := within_runCmd_refused KeepsStanding.refl _ (refused rule) _
  delLink := by
    apply within_runCmd KeepsStanding.refl
    intro host net deleted stands
    obtain ⟨-, rfl⟩ := linkDelete_eq_ok.mp deleted
    exact stands.dropLinks (by simpa using apart)
  kill := by
    apply within_modify
    intro host stands
    exact stands.dropLinks (by simpa using stands.alive)

theorem standing_tunnelUp {env : TunnelUpEnv} {tunnel : AwgTunnel} (apart : dev ≠ tunnel.name)
    (refused : ∀ rule, env.teardown.delRule rule ≠ .accepted) :
    Within (KeepsStanding dev env.killed) (tunnelUp env tunnel) := by
  have rule : UpRule (KeepsStanding dev env.killed) env tunnel.name := by
    refine ⟨standing_teardownRule env.linkDelete apart refused, ?_, fun x _ => standing_onFiles x⟩
    intro kind host free stands
    exact stands.of_links rfl stands.default (Function.update_of_ne apart _ _)
  apply within_bind KeepsStanding.trans rule.bringUpInterface
  intro _
  apply within_bind KeepsStanding.trans
  · apply within_ite
    · exact fun _ => within_pure KeepsStanding.refl _
    · intro _
      apply within_bind KeepsStanding.trans (within_attempt (standing_onFiles _))
      exact fun _ => within_attempt (standing_onFiles _)
  · intro _
    apply within_bind KeepsStanding.trans
    · apply within_setupPolicyRouting KeepsStanding.trans
      · apply within_runCmd KeepsStanding.refl
        intro host net added stands
        obtain ⟨-, free, -⟩ := defaultAdd_eq_ok.mp added
        cases free.symm.trans stands.default
      · intro rule
        apply within_runCmd KeepsStanding.refl
        intro host net added stands
        obtain ⟨absent, -⟩ := ruleAdd_eq_ok.mp added
        cases absent.symm.trans (stands.rules rule)
    · exact fun _ => standing_of_policy (policy_applyBypassRoutesIfNeeded _ _)

theorem standing_tunnelDown {env : TunnelDownEnv} (apart : dev ≠ name)
    (refused : ∀ rule, env.teardown.delRule rule ≠ .accepted) :
    Within (KeepsStanding dev env.killed) (tunnelDown env name) := by
  have rule : TeardownRule (KeepsStanding dev env.killed) env.teardown env.linkDelete env.killed
      name := standing_teardownRule env.linkDelete apart refused
  apply within_bind KeepsStanding.trans (standing_of_policy (policy_dropBypassRoutes _ _))
  intro _
  apply within_bind KeepsStanding.trans rule.policy
  intro _
  apply within_bind KeepsStanding.trans (within_attempt rule.delLink)
  intro _
  apply within_bind KeepsStanding.trans rule.kill
  intro _
  apply within_bind KeepsStanding.trans (within_of_unchanged KeepsStanding.refl fun _ => rfl)
  intro host
  apply within_ite
  · intro _
    apply within_bind KeepsStanding.trans (within_attempt (standing_onFiles _))
    exact fun _ => within_attempt (standing_onFiles _)
  · exact fun _ => within_pure KeepsStanding.refl _

end Standing

section Steps

variable {st : VpnState}

/-- A `tunnel_up` that returns `Ok` leaves the routing of its tunnel in place. -/
theorem routed_tunnelUp {env : TunnelUpEnv} {tunnel : AwgTunnel} {host host' : VpnHost}
    (up : outcome (tunnelUp env tunnel) host = (.ok (), host')) (others : List Str) :
    Routed host'.net (tunnel.name :: others) := by
  obtain ⟨_, middle, -, rest⟩ := outcome_bind_ok.mp up
  obtain ⟨_, switched, -, rest⟩ := outcome_bind_ok.mp rest
  obtain ⟨_, routed, routing, rest⟩ := outcome_bind_ok.mp rest
  obtain ⟨link, rfl⟩ := setupPolicyRouting_ok routing
  have kept := policy_applyBypassRoutesIfNeeded env tunnel { switched with
    net := { switched.net with vpnDefault := some tunnel.name, rules := fun _ => true } }
  rw [rest] at kept
  constructor
  · intro rule
    rw [kept.rules]
  · refine ⟨tunnel.name, List.mem_cons_self, kept.vpnDefault, ?_⟩
    rw [NetState.hasLink, kept.links]
    exact link

/-- A call that spares the other tunnels leaves their routing in place. -/
theorem NoBypass.spared {name : Str} {teardown : TeardownEnv} {killed : Str → Bool}
    {host' : VpnHost} (before : NoBypass st) (some : st.others name ≠ [])
    (spares : Spares teardown killed st.host.net name)
    (kept : ∀ dev, dev ≠ name → KeepsStanding dev killed st.host host') :
    Routed host'.net (st.others name) := by
  have forced : st.inForce ≠ [] := by
    intro none
    rw [VpnState.others, none] at some
    exact some rfl
  obtain ⟨rules, dev, member, default, link⟩ := before forced
  have apart : dev ≠ name := by
    intro same
    exact spares.default (same ▸ default)
  have stands := kept dev apart ⟨rules, default, link, spares.alive dev default⟩
  exact ⟨stands.rules, dev, List.mem_filter.mpr ⟨member, by simpa using apart⟩, stands.default,
    stands.link⟩

theorem NoBypass.up {env : TunnelUpEnv} {tunnel : AwgTunnel} (before : NoBypass st)
    (safe : SafeCall st (.up env tunnel)) : NoBypass (st.step (.up env tunnel)) := by
  rw [VpnState.step]
  rcases up : outcome (tunnelUp env tunnel) st.host with ⟨e | u, host⟩
  · intro some
    rcases safe with none | spares
    · exact absurd none some
    · apply before.spared some spares
      intro dev apart
      have kept := standing_tunnelUp apart spares.rules st.host
      rwa [up] at kept
  · exact fun _ => routed_tunnelUp up _

theorem NoBypass.down {env : TunnelDownEnv} {name : Str} (before : NoBypass st)
    (safe : SafeCall st (.down env name)) : NoBypass (st.step (.down env name)) := by
  intro some
  rcases safe with none | spares
  · exact absurd none some
  · exact before.spared some spares fun dev apart =>
      standing_tunnelDown apart spares.rules st.host

theorem net_deleteTunnel {env : DeleteTunnelEnv} {name : Str} {host : VpnHost}
    (absent : ¬ ifaceExistsInKernel env.stray host name = true) (dir : Path) :
    (outcome (deleteTunnel env name dir) host).2.net = host.net := by
  rw [deleteTunnel, outcome_bind, outcome_get]
  dsimp only
  rw [if_neg absent]
  exact net_removeTunnelConf env name dir host

/-- Deleting a tunnel that is up takes it down, and then leaves the kernel alone. -/
theorem net_deleteTunnel_down {env : DeleteTunnelEnv} {name : Str} {host : VpnHost}
    (there : ifaceExistsInKernel env.stray host name = true) (dir : Path) :
    (outcome (deleteTunnel env name dir) host).2.net =
      (outcome (tunnelDown env.down name) host).2.net := by
  rw [deleteTunnel, outcome_bind, outcome_get]
  dsimp only
  rw [if_pos there, outcome_bind]
  rcases outcome (tunnelDown env.down name) host with ⟨e | u, after⟩
  · rfl
  · exact net_removeTunnelConf env name dir after

theorem NoBypass.delete {env : DeleteTunnelEnv} {name : Str} {dir : Path} (before : NoBypass st)
    (safe : SafeCall st (.delete env name dir)) : NoBypass (st.step (.delete env name dir)) := by
  intro some
  by_cases there : ifaceExistsInKernel env.stray st.host name = true
  · rcases safe there with none | spares
    · exact absurd none some
    · rw [VpnState.step, net_deleteTunnel_down there]
      exact before.spared some spares fun dev apart =>
        standing_tunnelDown apart spares.rules st.host
  · have forced : st.inForce ≠ [] := by
      intro none
      rw [VpnState.step, VpnState.others, none] at some
      exact some rfl
    obtain ⟨rules, dev, member, default, link⟩ := before forced
    have apart : dev ≠ name := by
      rintro rfl
      rw [NetState.hasLink, Bool.and_eq_true] at link
      exact there (by rw [ifaceExistsInKernel, if_pos link.1]; exact link.2)
    rw [VpnState.step, net_deleteTunnel there]
    exact ⟨rules, dev, List.mem_filter.mpr ⟨member, by simpa using apart⟩, default, link⟩

theorem NoBypass.step {call : VpnCall} (before : NoBypass st) (safe : SafeCall st call) :
    NoBypass (st.step call) := by
  cases call with
  | up env tunnel => exact before.up safe
  | down env name => exact before.down safe
  | delete env name dir => exact before.delete safe

end Steps

section Runs

/-- In every state between the calls, no traffic bypasses a tunnel that is in force. -/
def NeverBypassed (host : VpnHost) (calls : List VpnCall) : Prop :=
  ∀ front, front <+: calls → NoBypass (run VpnState.step (.start host) front)

theorem no_bypass_of_safe (host : VpnHost) (calls : List VpnCall)
    (safe : Allowed VpnState.step SafeCall (.start host) calls) : NeverBypassed host calls := by
  intro front reached
  have start : NoBypass (.start host) := fun some => absurd rfl some
  exact invariant_prefix start (fun _ _ kept safe => kept.step safe) safe reached

def bareHost : VpnHost :=
  ⟨⟨fun _ => none, none, fun _ => false, fun _ => false⟩, fun _ => none⟩

def upCall (name : Str) : VpnCall := .up (.willing none []) ⟨name, ⟨[], []⟩, []⟩

/-- One tunnel after the other, and the first one deleted when it is down. -/
theorem no_bypass_one_after_other :
    NeverBypassed bareHost [upCall "awg0".toList, .down .willing "awg0".toList,
      upCall "awg1".toList,
      .delete ⟨false, .willing, .ok (), .ok [], .ok ()⟩ "awg0".toList []] := by
  apply no_bypass_of_safe
  refine ⟨.inl rfl, .inl (by decide +kernel), .inl (by decide +kernel), ?_, trivial⟩
  intro there
  exact absurd there (by decide +kernel)

/-- Bringing up a second tunnel deletes the rules of the first one, and then stops because there is
a default route. -/
theorem second_tunnel_opens_bypass :
    ¬ NeverBypassed bareHost [upCall "awg0".toList, upCall "awg1".toList] := by
  intro closed
  have routed := closed [upCall "awg0".toList, upCall "awg1".toList] (List.prefix_refl _)
    (by decide +kernel)
  have rule := routed.rules .notFwmark
  revert rule
  decide +kernel

end Runs

end VpnPolicy

end TinyWifi
