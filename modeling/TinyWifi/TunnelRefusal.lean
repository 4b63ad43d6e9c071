import TinyWifi.TunnelFrames

/-! Why `tunnel_up` gives up: a command, a read or a write that the system refuses, or what the
kernel has in the way of a command that it takes. -/

namespace TinyWifi

open Text Exec NetState

/-- How a command is reported that the system does not take. -/
inductive CmdFails (prog : Str) : CmdAnswer → Str → Prop
  | failed (stderr : Str) : CmdFails prog (.failed stderr) (trim stderr)
  | notRun (error : IoError) : CmdFails prog (.notRun error) (prog ++ ": ".toList ++ error.message)

/-- The answers to the `ip` commands that have to succeed. -/
inductive TunnelUpEnv.Needed (env : TunnelUpEnv) : CmdAnswer → Prop
  | address (i : Nat) : env.Needed (env.addAddress i)
  | linkUp : env.Needed env.linkUp
  | default : env.Needed env.addDefault
  | rule (rule : PolicyRule) : env.Needed (env.addRule rule)

/-- What stops `tunnel_up`, with the error that it returns. -/
inductive UpFails (env : TunnelUpEnv) (net : NetState) (name : Str) : Str → Prop
  | noIp {error : IoError} (answer : env.linkAdd = .notRun error) :
      UpFails env net name (ip ++ ": ".toList ++ error.message)
  | noDaemon {error : IoError} (answer : env.spawn = .error error) :
      UpFails env net name ("amneziawg-go: ".toList ++ error.message)
  | noLink (missing : env.appears = false ∨ devValidName name = false) :
      UpFails env net name
        ("amneziawg-go: interface ".toList ++ name ++ " did not appear within 5 s".toList)
  | noConf {error : IoError} (answer : env.conf = .error error) :
      UpFails env net name ("read config: ".toList ++ error.message)
  | noTmp {error : IoError}
      (answer : env.writeTmp = .refused error ∨ ∃ kept, env.writeTmp = .cut kept error) :
      UpFails env net name ("write tmp conf: ".toList ++ error.message)
  | noBinary (answer : env.awgBinary = none) : UpFails env net name "awg binary not found".toList
  | awg {binary message : Str} {answer : CmdAnswer} (found : env.awgBinary = some binary)
      (asked : answer = env.setconf ∨ answer = env.setFwmark)
      (fails : CmdFails binary answer message) : UpFails env net name message
  | command {message : Str} {answer : CmdAnswer} (asked : env.Needed answer)
      (fails : CmdFails ip answer message) : UpFails env net name message
  | noDevice (invalid : devValidName name = false) :
      UpFails env net name (trim (cannotFindDevice name))
  | routed {dev : Str} (there : net.vpnDefault = some dev)
      (left : dev = name → env.teardown.delDefault ≠ .accepted) :
      UpFails env net name (trim fileExistsError)
  | ruled {rule : PolicyRule} (there : net.rules rule = true)
      (left : env.teardown.delRule rule ≠ .accepted) : UpFails env net name (trim fileExistsError)

section Commands

variable {prog e : Str} {answer : CmdAnswer} {change : NetState → Except Str NetState}
  {host host' : VpnHost}

/-- A command fails because the system does not take it, or because the kernel does not. -/
theorem runCmd_error (h : outcome (runCmd prog answer change) host = (.error e, host')) :
    CmdFails prog answer e ∨ ∃ stderr, change host.net = .error stderr ∧ e = trim stderr := by
  cases answer with
  | notRun error =>
      cases h
      exact .inl (.notRun error)
  | failed stderr =>
      cases h
      exact .inl (.failed stderr)
  | accepted =>
      cases changed : change host.net with
      | error stderr =>
          simp only [runCmd, outcome, changed] at h
          cases h
          exact .inr ⟨stderr, rfl, rfl⟩
      | ok net =>
          simp only [runCmd, outcome, changed] at h
          cases h

theorem runCmd_accepted {net : NetState} (changed : change host.net = .ok net) :
    outcome (runCmd prog .accepted change) host = (.ok (), { host with net := net }) := by
  simp [runCmd, outcome, changed]

theorem onLink_error {name : Str}
    (h : outcome (runCmd ip answer (·.onLink name)) host = (.error e, host')) :
    CmdFails ip answer e ∨ host.net.hasLink name = false ∧ e = trim (cannotFindDevice name) := by
  refine (runCmd_error h).imp_right ?_
  rintro ⟨stderr, refused, rfl⟩
  dsimp only [onLink] at refused
  split at refused
  · cases refused
  · next missing =>
      cases refused
      exact ⟨by simpa using missing, rfl⟩

end Commands

structure Sheds (host host' : VpnHost) : Prop where
  vpnDefault : ∀ dev, host'.net.vpnDefault = some dev → host.net.vpnDefault = some dev
  rules : ∀ rule, host'.net.rules rule = true → host.net.rules rule = true

section Shedding

theorem Sheds.refl (host : VpnHost) : Sheds host host := ⟨fun _ => id, fun _ => id⟩

theorem Sheds.trans (a b c : VpnHost) (first : Sheds a b) (second : Sheds b c) : Sheds a c :=
  ⟨fun dev there => first.vpnDefault dev (second.vpnDefault dev there),
    fun rule there => first.rules rule (second.rules rule there)⟩

theorem sheds_dropLinks (host : VpnHost) (gone : Str → Bool) :
    Sheds host { host with net := host.net.dropLinks gone } :=
  ⟨fun _ there => (Option.filter_eq_some_iff.mp there).1, fun _ => id⟩

theorem sheds_runCmd {prog : Str} {answer : CmdAnswer} {change : NetState → Except Str NetState}
    (done : ∀ (host : VpnHost) net, change host.net = .ok net →
      Sheds host { host with net := net }) : Within Sheds (runCmd prog answer change) :=
  within_runCmd Sheds.refl prog answer done

theorem sheds_defaultDel (answer : CmdAnswer) (name : Str) :
    Within Sheds (runCmd ip answer (·.defaultDel name)) := by
  apply sheds_runCmd
  intro host net changed
  obtain ⟨-, rfl⟩ := defaultDel_eq_ok.mp changed
  exact ⟨nofun, fun _ => id⟩

theorem sheds_ruleDel (answer : CmdAnswer) (rule : PolicyRule) :
    Within Sheds (runCmd ip answer (·.ruleDel rule)) := by
  apply sheds_runCmd
  intro host net changed
  obtain ⟨-, rfl⟩ := ruleDel_eq_ok.mp changed
  refine ⟨fun _ => id, fun other there => ?_⟩
  by_cases same : other = rule
  · simp [same] at there
  · simpa [Function.update_of_ne same] using there

theorem sheds_upRule (env : TunnelUpEnv) (name : Str) : UpRule Sheds env name where
  refl := Sheds.refl
  trans := Sheds.trans
  delDefault := sheds_defaultDel _ name
  delRule rule := sheds_ruleDel _ rule
  delLink := sheds_runCmd fun host net changed => by
    obtain ⟨-, rfl⟩ := linkDelete_eq_ok.mp changed
    exact sheds_dropLinks host _
  kill := within_modify fun host => sheds_dropLinks host _
  addLink _ _ _ := ⟨fun _ => id, fun _ => id⟩
  tmpConf _ _ _ := ⟨fun _ => id, fun _ => id⟩

end Shedding

structure Left (env : TeardownEnv) (name : Str) (net net' : NetState) : Prop where
  route : ∀ dev, net'.vpnDefault = some dev →
    net.vpnDefault = some dev ∧ (dev = name → env.delDefault ≠ .accepted)
  rule : ∀ rule, net'.rules rule = true → net.rules rule = true ∧ env.delRule rule ≠ .accepted

section Teardown

variable {env : TeardownEnv} {name : Str}

theorem Left.sheds {net : NetState} {host host' : VpnHost} (left : Left env name net host.net)
    (sheds : Sheds host host') : Left env name net host'.net :=
  ⟨fun dev there => left.route dev (sheds.vpnDefault dev there),
    fun rule there => left.rule rule (sheds.rules rule there)⟩

theorem defaultDel_accepted (host : VpnHost) :
    (outcome (runCmd ip .accepted (·.defaultDel name)) host).2.net.vpnDefault ≠ some name := by
  by_cases own : host.net.vpnDefault = some name
  · have changed : host.net.defaultDel name = .ok { host.net with vpnDefault := none } :=
      defaultDel_eq_ok.mpr ⟨own, rfl⟩
    rw [runCmd_accepted changed]
    exact nofun
  · have refused : (outcome (runCmd ip .accepted (·.defaultDel name)) host).2 = host := by
      simp [runCmd, outcome, defaultDel, own]
    rwa [refused]

theorem ruleDel_accepted (rule : PolicyRule) (host : VpnHost) :
    (outcome (runCmd ip .accepted (·.ruleDel rule)) host).2.net.rules rule = false := by
  cases there : host.net.rules rule with
  | true =>
      have changed : host.net.ruleDel rule =
          .ok { host.net with rules := Function.update host.net.rules rule false } :=
        ruleDel_eq_ok.mpr ⟨there, rfl⟩
      rw [runCmd_accepted changed]
      exact Function.update_self ..
  | false =>
      have refused : (outcome (runCmd ip .accepted (·.ruleDel rule)) host).2 = host := by
        simp [runCmd, outcome, ruleDel, there]
      rwa [refused]

/-- Tearing down the routing leaves only what the system or another tunnel keeps. -/
theorem left_teardown (env : TeardownEnv) (name : Str) (host : VpnHost) :
    Left env name host.net (outcome (teardownPolicyRouting env name) host).2.net := by
  have first := sheds_defaultDel env.delDefault name host
  generalize route : (outcome (runCmd ip env.delDefault (·.defaultDel name)) host).2 = a at first
  have second := sheds_ruleDel (env.delRule .notFwmark) .notFwmark a
  generalize fwmark :
    (outcome (runCmd ip (env.delRule .notFwmark) (·.ruleDel .notFwmark)) a).2 = b at second
  have third := sheds_ruleDel (env.delRule .suppressPrefix) .suppressPrefix b
  generalize suppress :
    (outcome (runCmd ip (env.delRule .suppressPrefix) (·.ruleDel .suppressPrefix)) b).2 = c at third
  have ends : (outcome (teardownPolicyRouting env name) host).2 = c := by
    rw [teardownPolicyRouting, outcome_bind, outcome_attempt, route]
    dsimp only
    rw [outcome_bind, outcome_attempt, fwmark]
    exact suppress
  rw [ends]
  have later := Sheds.trans a b c second third
  have all := Sheds.trans host a c first later
  refine ⟨fun dev there => ⟨all.vpnDefault dev there, ?_⟩,
    fun rule there => ⟨all.rules rule there, ?_⟩⟩
  · rintro rfl accepted
    rw [accepted] at route
    exact defaultDel_accepted host (route ▸ later.vpnDefault dev there)
  · intro accepted
    cases rule with
    | notFwmark =>
        rw [accepted] at fwmark
        have gone := ruleDel_accepted .notFwmark a
        rw [fwmark, third.rules _ there] at gone
        cases gone
    | suppressPrefix =>
        rw [accepted] at suppress
        have gone := ruleDel_accepted .suppressPrefix b
        rw [suppress, there] at gone
        cases gone

end Teardown

section Up

variable {env : TunnelUpEnv} {net : NetState} {name e : Str} {host host' : VpnHost}
  {result : Except Str Unit}

theorem left_cleanUpStale (env : TunnelUpEnv) (name : Str) (host : VpnHost) :
    Left env.teardown name host.net (outcome (cleanUpStale env name) host).2.net := by
  have rule := sheds_upRule env name
  have torn := left_teardown env.teardown name host
  obtain ⟨middle, done⟩ : ∃ middle,
      outcome (teardownPolicyRouting env.teardown name) host = (.ok (), middle) := ⟨_, rfl⟩
  rw [done] at torn
  have rest := within_get_bind (f := fun host' => if ifaceExistsInKernel env.stray host' name
    then (do
      attempt (runCmd ip env.linkDelete (·.linkDelete name))
      killAwgGo env.killed)
    else pure ())
    (fun _ => within_ite (fun _ => rule.link) fun _ => within_pure Sheds.refl _) middle
  rw [cleanUpStale, outcome_bind, done]
  exact torn.sheds rest

theorem cleanUpStale_ok (env : TunnelUpEnv) (name : Str) (host : VpnHost) :
    ∃ cleaned, outcome (cleanUpStale env name) host = (.ok (), cleaned) := by
  obtain ⟨middle, done⟩ : ∃ middle,
      outcome (teardownPolicyRouting env.teardown name) host = (.ok (), middle) := ⟨_, rfl⟩
  rw [cleanUpStale, outcome_bind, done]
  dsimp only
  rw [outcome_bind, outcome_get]
  dsimp only
  split
  · exact ⟨_, rfl⟩
  · exact ⟨_, rfl⟩

theorem waitForInterface_cases (h : outcome (waitForInterface env name) host = (result, host')) :
    (ifaceExistsInKernel env.stray host name = true ∧ result = .ok () ∧ host' = host) ∨
    ifaceExistsInKernel env.stray host name = false ∧ result = .error
      ("amneziawg-go: interface ".toList ++ name ++ " did not appear within 5 s".toList) := by
  rw [waitForInterface, outcome_bind, outcome_get] at h
  dsimp only at h
  split at h
  · next there =>
      cases h
      exact .inl ⟨there, rfl, rfl⟩
  · next missing =>
      cases h
      exact .inr ⟨by simpa using missing, rfl⟩

/-- A daemon that starts under a name that a link can have brings the link up. -/
theorem exists_of_spawned (appears : env.appears = true) (valid : devValidName name = true)
    (h : outcome (spawnAwgGo env name) host = (.ok (), host')) :
    ifaceExistsInKernel env.stray host' name = true := by
  rw [ifaceExistsInKernel, if_pos valid]
  unfold spawnAwgGo at h
  split at h
  · cases h
  · rw [outcome_modify] at h
    cases h
    simp only [appears, valid, Bool.true_and]
    cases there : host.net.links name with
    | none => simp [addLink]
    | some kind => simp [there]

theorem createAwgInterface_error
    (h : outcome (createAwgInterface env name) host = (.error e, host')) :
    UpFails env net name e := by
  unfold createAwgInterface at h
  split at h
  · next error answer =>
      cases h
      exact .noIp answer
  · rcases outcome_bind_error.mp h with stopped | ⟨added, middle, -, rest⟩
    · rw [outcome_succeeds] at stopped
      split at stopped <;> cases stopped
    · rw [outcome_ite] at rest
      split at rest
      · cases rest
      · rcases outcome_bind_error.mp rest with stopped | ⟨_, spawned, starts, waits⟩
        · unfold spawnAwgGo at stopped
          split at stopped
          · next error answer =>
              cases stopped
              exact .noDaemon answer
          · cases stopped
        · rcases waitForInterface_cases waits with ⟨-, ok, -⟩ | ⟨missing, failed⟩
          · cases ok
          · cases failed
            apply UpFails.noLink
            by_contra fine
            simp only [not_or, Bool.not_eq_false] at fine
            rw [exists_of_spawned fine.1 fine.2 starts] at missing
            cases missing

theorem hasLink_createAwgInterface (valid : devValidName name = true)
    (h : outcome (createAwgInterface env name) host = (.ok (), host')) :
    host'.net.hasLink name = true := by
  unfold createAwgInterface at h
  split at h
  · cases h
  · obtain ⟨added, middle, tried, rest⟩ := outcome_bind_ok.mp h
    rw [outcome_ite] at rest
    split at rest
    · next success =>
        cases rest
        rw [outcome_succeeds] at tried
        split at tried
        · next host'' ran =>
            obtain ⟨net, changed, rfl⟩ := runCmd_ok ran
            obtain ⟨-, rfl⟩ := linkAdd_eq_ok.mp changed
            cases tried
            simp [hasLink, valid, addLink]
        · cases tried
          cases success
    · obtain ⟨_, spawned, -, waits⟩ := outcome_bind_ok.mp rest
      rcases waitForInterface_cases waits with ⟨there, -, rfl⟩ | ⟨-, failed⟩
      · rw [ifaceExistsInKernel, if_pos valid] at there
        rw [hasLink, valid, there]
        rfl
      · cases failed

def SameNet (host host' : VpnHost) : Prop := host'.net = host.net

theorem SameNet.refl (host : VpnHost) : SameNet host host := rfl

theorem SameNet.trans (a b c : VpnHost) (first : SameNet a b) (second : SameNet b c) :
    SameNet a c := Eq.trans second first

theorem sameNet_setInterfaceConf (env : TunnelUpEnv) (name : Str) :
    Within SameNet (setInterfaceConf env name) := by
  apply within_bind SameNet.trans (within_reading SameNet.refl _)
  intro conf
  apply within_bind SameNet.trans
  · exact within_mapError fun _ => rfl
  · intro _
    exact within_ensuring SameNet.trans (within_runAwg SameNet.refl _) fun _ => rfl

theorem runAwg_error {answer : CmdAnswer} (asked : answer = env.setconf ∨ answer = env.setFwmark)
    (h : outcome (runAwg env answer) host = (.error e, host')) : UpFails env net name e := by
  unfold runAwg at h
  split at h
  · next none =>
      cases h
      exact .noBinary none
  · next binary found =>
      rcases runCmd_error h with fails | ⟨stderr, refused, -⟩
      · exact .awg found asked fails
      · cases refused

theorem setInterfaceConf_error
    (h : outcome (setInterfaceConf env name) host = (.error e, host')) :
    UpFails env net name e := by
  rcases outcome_bind_error.mp h with unread | ⟨conf, middle, -, rest⟩
  · rw [outcome_reading] at unread
    cases answer : env.conf with
    | ok text =>
        rw [answer] at unread
        cases unread
    | error error =>
        rw [answer] at unread
        cases unread
        exact .noConf answer
  · rcases outcome_bind_error.mp rest with unwritten | ⟨_, written, -, last⟩
    · rw [outcome_mapError, outcome_onFiles] at unwritten
      cases answer : env.writeTmp with
      | done =>
          rw [answer, outcome_writeFile_done] at unwritten
          cases unwritten
      | refused error =>
          rw [answer] at unwritten
          cases unwritten
          exact .noTmp (.inl answer)
      | cut kept error =>
          rw [answer] at unwritten
          cases unwritten
          exact .noTmp (.inr ⟨kept, answer⟩)
    · have stopped := congrArg Prod.fst last
      change (outcome (runAwg env env.setconf) written).1 = .error e at stopped
      exact runAwg_error (.inl rfl) (Prod.ext stopped rfl)

theorem addAddresses_error {answers : Nat → CmdAnswer} {addresses : List Str}
    (h : outcome (addAddresses answers name addresses) host = (.error e, host')) :
    (∃ i, CmdFails ip (answers i) e) ∨
      host.net.hasLink name = false ∧ e = trim (cannotFindDevice name) := by
  induction addresses generalizing answers host with
  | nil => cases h
  | cons address rest ih =>
      rcases outcome_bind_error.mp h with stopped | ⟨_, middle, added, later⟩
      · exact (onLink_error stopped).imp_left fun fails => ⟨0, fails⟩
      · have same : middle.net = host.net := (within_onLink SameNet.refl _).of_outcome added
        rcases ih later with ⟨i, fails⟩ | missing
        · exact .inl ⟨i + 1, fails⟩
        · rw [same] at missing
          exact .inr missing

theorem devValidName_of_missing (created : devValidName name = true → host.net.hasLink name = true)
    (missing : host.net.hasLink name = false) : devValidName name = false := by
  by_contra valid
  rw [created (by simpa using valid)] at missing
  cases missing

def configure (env : TunnelUpEnv) (tunnel : AwgTunnel) : Exec VpnHost Str Unit := do
  setInterfaceConf env tunnel.name
  runAwg env env.setFwmark
  addAddresses env.addAddress tunnel.name tunnel.iface.addresses
  runCmd ip env.linkUp (·.onLink tunnel.name)

theorem bringUpInterface_eq (env : TunnelUpEnv) (tunnel : AwgTunnel) :
    bringUpInterface env tunnel = (do
      cleanUpStale env tunnel.name
      createAwgInterface env tunnel.name
      configure env tunnel) := rfl

theorem sameNet_configure (env : TunnelUpEnv) (tunnel : AwgTunnel) :
    Within SameNet (configure env tunnel) := by
  apply within_bind SameNet.trans (sameNet_setInterfaceConf env tunnel.name)
  intro _
  apply within_bind SameNet.trans (within_runAwg SameNet.refl _)
  intro _
  apply within_bind SameNet.trans (within_addAddresses SameNet.refl SameNet.trans _ _)
  exact fun _ => within_onLink SameNet.refl _

theorem configure_error {tunnel : AwgTunnel}
    (link : devValidName tunnel.name = true → host.net.hasLink tunnel.name = true)
    (h : outcome (configure env tunnel) host = (.error e, host')) :
    UpFails env net tunnel.name e := by
  rcases outcome_bind_error.mp h with unset | ⟨_, configured, sets, rest⟩
  · exact setInterfaceConf_error unset
  have first := (sameNet_setInterfaceConf env tunnel.name).of_outcome sets
  rcases outcome_bind_error.mp rest with unmarked | ⟨_, marked, marks, rest⟩
  · exact runAwg_error (.inr rfl) unmarked
  have second := (within_runAwg SameNet.refl env.setFwmark).of_outcome marks
  have same : marked.net = host.net := Eq.trans second first
  rcases outcome_bind_error.mp rest with unaddressed | ⟨_, addressed, addresses, last⟩
  · rcases addAddresses_error unaddressed with ⟨i, fails⟩ | ⟨missing, rfl⟩
    · exact .command (.address i) fails
    · rw [same] at missing
      exact .noDevice (devValidName_of_missing link missing)
  · have third := (within_addAddresses SameNet.refl SameNet.trans _ _).of_outcome addresses
    have unmoved : addressed.net = host.net := Eq.trans third same
    rcases onLink_error last with fails | ⟨missing, rfl⟩
    · exact .command .linkUp fails
    · rw [unmoved] at missing
      exact .noDevice (devValidName_of_missing link missing)

theorem bringUpInterface_error {tunnel : AwgTunnel}
    (h : outcome (bringUpInterface env tunnel) host = (.error e, host')) :
    UpFails env net tunnel.name e := by
  obtain ⟨cleaned, cleans⟩ := cleanUpStale_ok env tunnel.name host
  rw [bringUpInterface_eq, outcome_bind_of_ok cleans] at h
  rcases outcome_bind_error.mp h with missing | ⟨_, created, creates, rest⟩
  · exact createAwgInterface_error missing
  · exact configure_error (fun valid => hasLink_createAwgInterface valid creates) rest

/-- An interface that is up has its link, and the old routing is torn down. -/
theorem bringUpInterface_left {tunnel : AwgTunnel}
    (h : outcome (bringUpInterface env tunnel) host = (.ok (), host')) :
    (devValidName tunnel.name = true → host'.net.hasLink tunnel.name = true) ∧
      Left env.teardown tunnel.name host.net host'.net := by
  rw [bringUpInterface_eq] at h
  obtain ⟨_, cleaned, cleans, rest⟩ := outcome_bind_ok.mp h
  obtain ⟨_, created, creates, configures⟩ := outcome_bind_ok.mp rest
  have left := left_cleanUpStale env tunnel.name host
  rw [cleans] at left
  have sheds := (sheds_upRule env tunnel.name).createAwgInterface.of_outcome creates
  have same : host'.net = created.net := (sameNet_configure env tunnel).of_outcome configures
  rw [same]
  exact ⟨fun valid => hasLink_createAwgInterface valid creates, left.sheds sheds⟩

theorem ruleAdd_error {rule : PolicyRule}
    (left : host.net.rules rule = true →
      net.rules rule = true ∧ env.teardown.delRule rule ≠ .accepted)
    (h : outcome (runCmd ip (env.addRule rule) (·.ruleAdd rule)) host = (.error e, host')) :
    UpFails env net name e := by
  rcases runCmd_error h with fails | ⟨stderr, refused, rfl⟩
  · exact .command (.rule rule) fails
  · dsimp only [ruleAdd] at refused
    split at refused
    · next there =>
        cases refused
        exact .ruled (left there).1 (left there).2
    · cases refused

theorem setupPolicyRouting_error (left : Left env.teardown name net host.net)
    (link : devValidName name = true → host.net.hasLink name = true)
    (h : outcome (setupPolicyRouting env name) host = (.error e, host')) :
    UpFails env net name e := by
  rcases outcome_bind_error.mp h with unrouted | ⟨_, routed, routes, rest⟩
  · rcases runCmd_error unrouted with fails | ⟨stderr, refused, rfl⟩
    · exact .command .default fails
    · dsimp only [defaultAdd] at refused
      split at refused
      · next missing =>
          cases refused
          exact .noDevice (devValidName_of_missing link missing)
      · split at refused
        · next taken =>
            cases refused
            obtain ⟨dev, there⟩ := Option.isSome_iff_exists.mp taken
            exact .routed (left.route dev there).1 (left.route dev there).2
        · cases refused
  · obtain ⟨changed, added, rfl⟩ := runCmd_ok routes
    obtain ⟨-, -, rfl⟩ := defaultAdd_eq_ok.mp added
    rcases outcome_bind_error.mp rest with unmarked | ⟨_, marked, marks, last⟩
    · refine ruleAdd_error ?_ unmarked
      exact left.rule .notFwmark
    · obtain ⟨changed, added, rfl⟩ := runCmd_ok marks
      obtain ⟨-, rfl⟩ := ruleAdd_eq_ok.mp added
      refine ruleAdd_error (fun there => left.rule .suppressPrefix ?_) last
      simpa [Function.update] using there

/-- When a tunnel is not brought up, the answer says why. -/
theorem tunnelUp_error {tunnel : AwgTunnel}
    (h : outcome (tunnelUp env tunnel) host = (.error e, host')) :
    UpFails env host.net tunnel.name e := by
  rcases reached : outcome (bringUpInterface env tunnel) host with ⟨e' | u, middle⟩
  · rw [outcome_tunnelUp_stopped reached] at h
    cases h
    exact bringUpInterface_error reached
  · obtain ⟨link, left⟩ := bringUpInterface_left reached
    obtain ⟨fs, switched, -⟩ := outcome_writeDns env tunnel.iface.dns middle
    rw [outcome_tunnelUp_reached reached, switched] at h
    dsimp only at h
    rcases routing : outcome (setupPolicyRouting env tunnel.name) { middle with fs := fs } with
      ⟨e' | u, routed⟩
    · rw [routing] at h
      cases h
      refine setupPolicyRouting_error ?_ ?_ routing
      · exact left
      · exact link
    · rw [routing] at h
      obtain ⟨last, done, -⟩ := outcome_applyBypassRoutesIfNeeded env tunnel routed
      cases done.symm.trans h

end Up

end TinyWifi
