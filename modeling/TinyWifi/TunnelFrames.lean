import TinyWifi.Tunnel

/-! What the steps of the tunnel life cycle leave alone, wherever they stop. -/

namespace TinyWifi

open Text Exec Checks NetState

/-- The main table and the files are as before, but for the files that are listed. -/
structure Keeps (files : List Path) (host host' : VpnHost) : Prop where
  main : host'.net.main = host.net.main
  fs : ∀ p, p ∉ files → host'.fs p = host.fs p

/-- The links, the default route of the VPN and the policy rules are as before. -/
structure KeepsPolicy (host host' : VpnHost) : Prop where
  links : host'.net.links = host.net.links
  vpnDefault : host'.net.vpnDefault = host.net.vpnDefault
  rules : host'.net.rules = host.net.rules

section Relations

variable {files : List Path}

theorem Keeps.refl (host : VpnHost) : Keeps files host host := ⟨rfl, fun _ _ => rfl⟩

theorem Keeps.trans (a b c : VpnHost) (first : Keeps files a b) (second : Keeps files b c) :
    Keeps files a c :=
  ⟨second.main.trans first.main, fun p free => (second.fs p free).trans (first.fs p free)⟩

theorem Keeps.mono {more : List Path} (grow : files ⊆ more) {a b : VpnHost} (h : Keeps files a b) :
    Keeps more a b := ⟨h.main, fun p free => h.fs p fun member => free (grow member)⟩

theorem within_keeps_mono {more : List Path} {ε α : Type} {x : Exec VpnHost ε α}
    (h : Within (Keeps files) x) (grow : files ⊆ more) : Within (Keeps more) x :=
  fun host => (h host).mono grow

theorem KeepsPolicy.refl (host : VpnHost) : KeepsPolicy host host := ⟨rfl, rfl, rfl⟩

theorem KeepsPolicy.trans (a b c : VpnHost) (first : KeepsPolicy a b) (second : KeepsPolicy b c) :
    KeepsPolicy a c :=
  ⟨second.links.trans first.links, second.vpnDefault.trans first.vpnDefault,
    second.rules.trans first.rules⟩

end Relations

section Commands

/-- A command does its change, or it fails and the host stays as it is. -/
theorem outcome_runCmd (prog : Str) (answer : CmdAnswer) (change : NetState → Except Str NetState)
    (host : VpnHost) :
    (∃ e, outcome (runCmd prog answer change) host = (.error e, host)) ∨
      ∃ net, answer = .accepted ∧ change host.net = .ok net ∧
        outcome (runCmd prog answer change) host = (.ok (), { host with net := net }) := by
  cases answer with
  | notRun error => exact .inl ⟨_, rfl⟩
  | failed stderr => exact .inl ⟨_, rfl⟩
  | accepted =>
      cases changed : change host.net with
      | error stderr =>
          refine .inl ⟨trim stderr, ?_⟩
          simp [runCmd, outcome, changed]
      | ok net =>
          refine .inr ⟨net, rfl, rfl, ?_⟩
          simp [runCmd, outcome, changed]

theorem runCmd_ok {prog : Str} {answer : CmdAnswer} {change : NetState → Except Str NetState}
    {host host' : VpnHost} (h : outcome (runCmd prog answer change) host = (.ok (), host')) :
    ∃ net, change host.net = .ok net ∧ host' = { host with net := net } := by
  rcases outcome_runCmd prog answer change host with ⟨e, stopped⟩ | ⟨net, -, changed, ran⟩
  · cases stopped.symm.trans h
  · exact ⟨net, changed, congrArg Prod.snd (h.symm.trans ran)⟩

theorem within_runCmd {R : VpnHost → VpnHost → Prop} (refl : ∀ host, R host host) (prog : Str)
    (answer : CmdAnswer) {change : NetState → Except Str NetState}
    (done : ∀ (host : VpnHost) net, change host.net = .ok net → R host { host with net := net }) :
    Within R (runCmd prog answer change) := by
  intro host
  rcases outcome_runCmd prog answer change host with ⟨e, stopped⟩ | ⟨net, -, changed, ran⟩
  · rw [stopped]
    exact refl host
  · rw [ran]
    exact done host net changed

theorem within_runCmd_refused {R : VpnHost → VpnHost → Prop} (refl : ∀ host, R host host)
    (prog : Str) {answer : CmdAnswer} (refused : answer ≠ .accepted)
    (change : NetState → Except Str NetState) : Within R (runCmd prog answer change) := by
  apply within_of_unchanged refl
  intro host
  rcases outcome_runCmd prog answer change host with ⟨e, stopped⟩ | ⟨net, accepted, -, -⟩
  · rw [stopped]
  · exact absurd accepted refused

theorem outcome_onFiles {ε α : Type} (x : Exec Fs ε α) (host : VpnHost) :
    outcome (onFiles x) host =
      ((outcome x host.fs).1, { host with fs := (outcome x host.fs).2 }) := rfl

theorem removeFileAs_other {path other : Path} (h : other ≠ path) (answer : Except IoError Unit)
    (fs : Fs) : (outcome (removeFileAs answer path) fs).2 other = fs other := by
  cases answer with
  | error e => rfl
  | ok u =>
      cases found : fs path with
      | none => simp [removeFileAs, removeFile, outcome_bind, found]
      | some bytes => simp [removeFileAs, removeFile, outcome_bind, found, erase_of_ne h]

theorem copyFile_other {target other : Path} (h : other ≠ target) (system : WriteOutcome)
    (source : Path) (fs : Fs) :
    (outcome (copyFile system source target) fs).2 other = fs other := by
  cases found : fs source with
  | none => rw [outcome_copyFile_missing found]
  | some bytes =>
      rw [outcome_copyFile found]
      exact writeFile_other h system bytes fs

end Commands

section Kernel

variable {net net' : NetState} {name : Str}

theorem linkAdd_eq_ok :
    net.linkAdd name = .ok net' ↔
      (devValidName name && (net.links name).isNone) = true ∧ net' = net.addLink .kernel name :=
  guarded_eq_ok

theorem linkDelete_eq_ok :
    net.linkDelete name = .ok net' ↔
      net.hasLink name = true ∧ net' = net.dropLinks fun other => other = name := guarded_eq_ok

theorem onLink_eq_ok : net.onLink name = .ok net' ↔ net.hasLink name = true ∧ net' = net :=
  guarded_eq_ok

theorem defaultDel_eq_ok :
    net.defaultDel name = .ok net' ↔
      net.vpnDefault = some name ∧ net' = { net with vpnDefault := none } := guarded_eq_ok

theorem ruleDel_eq_ok {rule : PolicyRule} :
    net.ruleDel rule = .ok net' ↔
      net.rules rule = true ∧
        net' = { net with rules := Function.update net.rules rule false } := guarded_eq_ok

theorem defaultAdd_eq_ok :
    net.defaultAdd name = .ok net' ↔
      net.hasLink name = true ∧ net.vpnDefault = none ∧
        net' = { net with vpnDefault := some name } := by
  rw [defaultAdd]
  cases link : net.hasLink name with
  | false => simp
  | true =>
      cases dev : net.vpnDefault with
      | none => simp [eq_comm]
      | some other => simp

theorem ruleAdd_eq_ok {rule : PolicyRule} :
    net.ruleAdd rule = .ok net' ↔
      net.rules rule = false ∧
        net' = { net with rules := Function.update net.rules rule true } := by
  rw [ruleAdd]
  cases there : net.rules rule with
  | false => simp [eq_comm]
  | true => simp

end Kernel

section Rules

variable {R : VpnHost → VpnHost → Prop}

/-- What has to be known of a relation for the steps that tear a tunnel down to stay within it. -/
structure TeardownRule (R : VpnHost → VpnHost → Prop) (env : TeardownEnv) (linkDelete : CmdAnswer)
    (killed : Str → Bool) (name : Str) : Prop where
  refl : ∀ host, R host host
  trans : ∀ a b c, R a b → R b c → R a c
  delDefault : Within R (runCmd ip env.delDefault (·.defaultDel name))
  delRule : ∀ rule, Within R (runCmd ip (env.delRule rule) (·.ruleDel rule))
  delLink : Within R (runCmd ip linkDelete (·.linkDelete name))
  kill : Within R (killAwgGo killed)

structure UpRule (R : VpnHost → VpnHost → Prop) (env : TunnelUpEnv) (name : Str) : Prop
    extends TeardownRule R env.teardown env.linkDelete env.killed name where
  addLink : ∀ kind (host : VpnHost),
    (devValidName name && (host.net.links name).isNone) = true →
      R host { host with net := host.net.addLink kind name }
  tmpConf : ∀ x : Exec Fs IoError Unit,
    (∀ fs p, p ≠ tmpConfPath name → (outcome x fs).2 p = fs p) → Within R (onFiles x)

section Teardown

variable {env : TeardownEnv} {linkDelete : CmdAnswer} {killed : Str → Bool} {name : Str}

theorem TeardownRule.policy (rule : TeardownRule R env linkDelete killed name) :
    Within R (teardownPolicyRouting env name) := by
  apply within_bind rule.trans (within_attempt rule.delDefault)
  intro _
  apply within_bind rule.trans (within_attempt (rule.delRule .notFwmark))
  exact fun _ => within_attempt (rule.delRule .suppressPrefix)

theorem TeardownRule.link (rule : TeardownRule R env linkDelete killed name) :
    Within R (do
      attempt (runCmd ip linkDelete (·.linkDelete name))
      killAwgGo killed) := by
  apply within_bind rule.trans (within_attempt rule.delLink)
  exact fun _ => rule.kill

end Teardown

section Up

variable {env : TunnelUpEnv} {name : Str}

theorem within_onLink (refl : ∀ host, R host host) (answer : CmdAnswer) :
    Within R (runCmd ip answer (·.onLink name)) := by
  apply within_runCmd refl
  intro host net same
  obtain ⟨-, rfl⟩ := onLink_eq_ok.mp same
  exact refl host

theorem within_runAwg (refl : ∀ host, R host host) (answer : CmdAnswer) :
    Within R (runAwg env answer) := by
  unfold runAwg
  split
  · exact within_throw refl _
  · apply within_runCmd refl
    intro host net same
    obtain rfl := Except.ok.inj same
    exact refl host

theorem within_addAddresses (refl : ∀ host, R host host) (trans : ∀ a b c, R a b → R b c → R a c)
    (answers : Nat → CmdAnswer) (addresses : List Str) :
    Within R (addAddresses answers name addresses) := by
  induction addresses generalizing answers with
  | nil => exact within_pure refl _
  | cons addr rest ih =>
      apply within_bind trans (within_onLink refl _)
      exact fun _ => ih _

theorem UpRule.cleanUpStale (rule : UpRule R env name) : Within R (cleanUpStale env name) := by
  apply within_bind rule.trans rule.policy
  intro _
  apply within_bind rule.trans (within_of_unchanged rule.refl fun _ => rfl)
  intro host
  exact within_ite (fun _ => rule.link) fun _ => within_pure rule.refl _

theorem UpRule.spawnAwgGo (rule : UpRule R env name) : Within R (spawnAwgGo env name) := by
  unfold TinyWifi.spawnAwgGo
  split
  · exact within_throw rule.refl _
  · apply within_modify
    intro host
    split
    · next appears =>
        rw [Bool.and_assoc, Bool.and_eq_true] at appears
        exact rule.addLink .userspace host appears.2
    · exact rule.refl host

theorem UpRule.waitForInterface (rule : UpRule R env name) :
    Within R (waitForInterface env name) := by
  apply within_bind rule.trans (within_of_unchanged rule.refl fun _ => rfl)
  intro host
  apply within_ite
  · exact fun _ => within_pure rule.refl _
  · intro _
    apply within_bind rule.trans rule.kill
    exact fun _ => within_throw rule.refl _

theorem UpRule.createAwgInterface (rule : UpRule R env name) :
    Within R (createAwgInterface env name) := by
  unfold TinyWifi.createAwgInterface
  split
  · exact within_throw rule.refl _
  · apply within_bind rule.trans
    · apply within_succeeds
      apply within_runCmd rule.refl
      intro host net added
      obtain ⟨free, rfl⟩ := linkAdd_eq_ok.mp added
      exact rule.addLink .kernel host free
    · intro added
      apply within_ite
      · exact fun _ => within_pure rule.refl _
      · intro _
        apply within_bind rule.trans rule.spawnAwgGo
        exact fun _ => rule.waitForInterface

theorem UpRule.setInterfaceConf (rule : UpRule R env name) :
    Within R (setInterfaceConf env name) := by
  apply within_bind rule.trans (within_reading rule.refl _)
  intro conf
  apply within_bind rule.trans
  · apply within_mapError
    exact rule.tmpConf _ fun fs p other => writeFile_other other _ _ fs
  · intro _
    apply within_ensuring rule.trans (within_runAwg rule.refl _)
    exact rule.tmpConf _ fun fs p other => removeFileAs_other other _ fs

theorem UpRule.bringUpInterface {tunnel : AwgTunnel} (rule : UpRule R env tunnel.name) :
    Within R (bringUpInterface env tunnel) := by
  apply within_bind rule.trans rule.cleanUpStale
  intro _
  apply within_bind rule.trans rule.createAwgInterface
  intro _
  apply within_bind rule.trans rule.setInterfaceConf
  intro _
  apply within_bind rule.trans (within_runAwg rule.refl _)
  intro _
  apply within_bind rule.trans (within_addAddresses rule.refl rule.trans _ _)
  exact fun _ => within_onLink rule.refl _

theorem within_setupPolicyRouting (trans : ∀ a b c, R a b → R b c → R a c)
    (default : Within R (runCmd ip env.addDefault (·.defaultAdd name)))
    (rule : ∀ rule, Within R (runCmd ip (env.addRule rule) (·.ruleAdd rule))) :
    Within R (setupPolicyRouting env name) := by
  apply within_bind trans default
  intro _
  apply within_bind trans (rule .notFwmark)
  exact fun _ => rule .suppressPrefix

/-- Routing is set up only for a link that is there, and then all of it is. -/
theorem setupPolicyRouting_ok {host routed : VpnHost}
    (h : outcome (setupPolicyRouting env name) host = (.ok (), routed)) :
    host.net.hasLink name = true ∧
      routed = { host with
        net := { host.net with vpnDefault := some name, rules := fun _ => true } } := by
  obtain ⟨_, first, added, rest⟩ := outcome_bind_ok.mp h
  obtain ⟨_, second, marked, last⟩ := outcome_bind_ok.mp rest
  obtain ⟨net, changed, rfl⟩ := runCmd_ok added
  obtain ⟨link, -, rfl⟩ := defaultAdd_eq_ok.mp changed
  obtain ⟨net, changed, rfl⟩ := runCmd_ok marked
  obtain ⟨-, rfl⟩ := ruleAdd_eq_ok.mp changed
  obtain ⟨net, changed, rfl⟩ := runCmd_ok last
  obtain ⟨-, rfl⟩ := ruleAdd_eq_ok.mp changed
  refine ⟨link, ?_⟩
  congr 2
  funext rule
  cases rule with
  | notFwmark => simp [Function.update]
  | suppressPrefix => simp [Function.update]

end Up

end Rules

section Keeping

theorem keeps_runCmd {files : List Path} (prog : Str) (answer : CmdAnswer)
    {change : NetState → Except Str NetState}
    (main : ∀ net net', change net = .ok net' → net'.main = net.main) :
    Within (Keeps files) (runCmd prog answer change) :=
  within_runCmd Keeps.refl prog answer fun host net changed =>
    ⟨main host.net net changed, fun _ _ => rfl⟩

theorem keeps_onFiles {ε α : Type} {files : List Path} {x : Exec Fs ε α}
    (others : ∀ fs p, p ∉ files → (outcome x fs).2 p = fs p) : Within (Keeps files) (onFiles x) :=
  fun host => ⟨rfl, others host.fs⟩

theorem keeps_teardownRule (files : List Path) (env : TeardownEnv) (linkDelete : CmdAnswer)
    (killed : Str → Bool) (name : Str) :
    TeardownRule (Keeps files) env linkDelete killed name where
  refl := Keeps.refl
  trans := Keeps.trans
  delDefault := keeps_runCmd _ _ fun net net' h => by
    obtain ⟨-, rfl⟩ := defaultDel_eq_ok.mp h
    rfl
  delRule rule := keeps_runCmd _ _ fun net net' h => by
    obtain ⟨-, rfl⟩ := ruleDel_eq_ok.mp h
    rfl
  delLink := keeps_runCmd _ _ fun net net' h => by
    obtain ⟨-, rfl⟩ := linkDelete_eq_ok.mp h
    rfl
  kill := within_modify fun _ => ⟨rfl, fun _ _ => rfl⟩

/-- Before the DNS step only the temporary config was written, and no route of the main table
changed. -/
theorem keeps_bringUpInterface (env : TunnelUpEnv) (tunnel : AwgTunnel) :
    Within (Keeps [tmpConfPath tunnel.name]) (bringUpInterface env tunnel) := by
  apply UpRule.bringUpInterface
  refine ⟨keeps_teardownRule _ _ _ _ _, fun kind host free => ⟨rfl, fun _ _ => rfl⟩,
    fun x others => keeps_onFiles fun fs p free => others fs p ?_⟩
  rintro rfl
  exact free (List.mem_singleton_self _)

theorem keeps_setupPolicyRouting (env : TunnelUpEnv) (name : Str) :
    Within (Keeps []) (setupPolicyRouting env name) := by
  apply within_setupPolicyRouting Keeps.trans
  · apply keeps_runCmd
    intro net net' h
    obtain ⟨-, -, rfl⟩ := defaultAdd_eq_ok.mp h
    rfl
  · intro rule
    apply keeps_runCmd
    intro net net' h
    obtain ⟨-, rfl⟩ := ruleAdd_eq_ok.mp h
    rfl

theorem not_mem_resolv {p : Path} (free : p ∉ [resolvConf, resolvBackup]) :
    p ≠ resolvConf ∧ p ≠ resolvBackup := by
  simpa using free

theorem keeps_writeDns (env : TunnelUpEnv) (servers : List Str) :
    Within (Keeps [resolvConf, resolvBackup]) (writeDns env servers) := by
  apply within_ite
  · exact fun _ => within_pure Keeps.refl _
  · intro _
    apply within_bind Keeps.trans
    · exact within_attempt (keeps_onFiles fun fs p free =>
        copyFile_other (not_mem_resolv free).2 _ _ fs)
    · intro _
      exact within_attempt (keeps_onFiles fun fs p free =>
        writeFile_other (not_mem_resolv free).1 _ _ fs)

theorem keeps_restoreDns (env : TunnelDownEnv) :
    Within (Keeps [resolvConf, resolvBackup]) (restoreDns env) := by
  apply within_bind Keeps.trans (within_of_unchanged Keeps.refl fun _ => rfl)
  intro host
  apply within_ite
  · intro _
    apply within_bind Keeps.trans
    · exact within_attempt (keeps_onFiles fun fs p free =>
        copyFile_other (not_mem_resolv free).1 _ _ fs)
    · intro _
      exact within_attempt (keeps_onFiles fun fs p free =>
        removeFileAs_other (not_mem_resolv free).2 _ fs)
  · exact fun _ => within_pure Keeps.refl _

end Keeping

section Bypass

theorem fs_runCmd (prog : Str) (answer : CmdAnswer) (change : NetState → Except Str NetState)
    (host : VpnHost) : (outcome (runCmd prog answer change) host).2.fs = host.fs := by
  rcases outcome_runCmd prog answer change host with ⟨e, stopped⟩ | ⟨net, -, -, ran⟩
  · rw [stopped]
  · rw [ran]

theorem outcome_routeDel {answer : CmdAnswer} (accepted : answer = .accepted) (dest : Str)
    (host : VpnHost) :
    (outcome (runCmd ip answer (·.routeDel dest)) host).2.net.main =
      Function.update host.net.main dest false := by
  subst accepted
  cases there : host.net.main dest with
  | true => simp [runCmd, outcome, routeDel, there]
  | false =>
      have same : Function.update host.net.main dest false = host.net.main :=
        Function.update_eq_self_iff.mpr there.symm
      simp [runCmd, outcome, routeDel, there, same]

/-- Taking the routes of a saved state out ends without an error and changes no file. The routes
are gone if the system lets them go. -/
theorem outcome_delBypassRoutes (answers : Nat → CmdAnswer) (routes : List Str) (host : VpnHost) :
    ∃ host', outcome (delBypassRoutes answers routes) host = (.ok (), host') ∧
      host'.fs = host.fs ∧
      ((∀ i < routes.length, answers i = .accepted) →
        ∀ d, host'.net.main d = (host.net.main d && !routes.contains d)) := by
  induction routes generalizing answers host with
  | nil => exact ⟨host, rfl, rfl, fun _ d => by simp⟩
  | cons bp rest ih =>
      obtain ⟨host', done, files, gone⟩ := ih (fun i => answers (i + 1))
        (outcome (runCmd ip (answers 0) (·.routeDel bp)) host).2
      refine ⟨host', ?_, files.trans (fs_runCmd _ _ _ host), fun accepted d => ?_⟩
      · rw [delBypassRoutes, outcome_bind, outcome_attempt]
        exact done
      · have first : answers 0 = .accepted := accepted 0 (by simp)
        have later (i : Nat) (bound : i < rest.length) : answers (i + 1) = .accepted :=
          accepted (i + 1) (by simpa using bound)
        rw [gone later, outcome_routeDel first]
        by_cases same : d = bp
        · subst d
          simp
        · simp [same]

theorem outcome_dropBypassRoutes (env : TunnelDownEnv) (name : Str) (host : VpnHost) :
    ∃ host', outcome (dropBypassRoutes env name) host = (.ok (), host') ∧
      ∀ p, p ≠ vpnRouteStatePath → host'.fs p = host.fs p := by
  rw [dropBypassRoutes, outcome_bind, outcome_get]
  dsimp only
  split
  · exact ⟨host, rfl, fun _ _ => rfl⟩
  · next state loaded =>
      rw [outcome_ite]
      split
      · rcases outcome_delBypassRoutes env.delBypass state.bypassIps host with
          ⟨dropped, done, same, -⟩
        rw [outcome_bind, done]
        dsimp only
        rw [outcome_attempt, outcome_onFiles]
        refine ⟨_, rfl, fun p other => ?_⟩
        exact (removeFileAs_other other _ _).trans (congrFun same p)
      · exact ⟨host, rfl, fun _ _ => rfl⟩

theorem routeDel_eq_ok {net net' : NetState} {dest : Str} :
    net.routeDel dest = .ok net' ↔
      net.main dest = true ∧ net' = { net with main := Function.update net.main dest false } :=
  guarded_eq_ok

theorem routeAdd_eq_ok {net net' : NetState} {dest : Str} :
    net.routeAdd dest = .ok net' ↔
      isPrefixText dest = true ∧ net.main dest = false ∧
        net' = { net with main := Function.update net.main dest true } := by
  rw [routeAdd]
  cases isPrefixText dest with
  | false => simp
  | true =>
      cases there : net.main dest with
      | false => simp [eq_comm]
      | true => simp

/-- Adding the routes ends without an error and changes no file. What comes back are the routes
that are new. -/
theorem outcome_addBypassRoutes (answers : Nat → CmdAnswer) (entries : List Str)
    (host : VpnHost) :
    ∃ applied host', outcome (addBypassRoutes answers entries) host = (.ok applied, host') ∧
      host'.fs = host.fs ∧
      (∀ d, host'.net.main d = (host.net.main d || applied.contains d)) ∧
      ∀ d ∈ applied, isPrefixText d = true ∧ host.net.main d = false := by
  induction entries generalizing answers host with
  | nil => exact ⟨[], host, rfl, rfl, fun d => by simp, nofun⟩
  | cons entry rest ih =>
      rw [addBypassRoutes, outcome_bind, outcome_succeeds]
      rcases outcome_runCmd ip (answers 0) (·.routeAdd entry) host with
        ⟨e, refused⟩ | ⟨net, -, changed, ran⟩
      · obtain ⟨applied, host', done, files, main, new⟩ := ih (fun i => answers (i + 1)) host
        rw [refused]
        dsimp only
        rw [outcome_bind, done]
        exact ⟨applied, host', rfl, files, main, new⟩
      · obtain ⟨fits, absent, rfl⟩ := routeAdd_eq_ok.mp changed
        obtain ⟨applied, host', done, files, main, new⟩ := ih (fun i => answers (i + 1))
          { host with net := { host.net with main := Function.update host.net.main entry true } }
        rw [ran]
        dsimp only
        rw [outcome_bind, done]
        refine ⟨entry :: applied, host', rfl, files, fun d => ?_, fun d member => ?_⟩
        · rw [main d]
          by_cases same : d = entry
          · subst d
            simp
          · simp [same]
        · rcases List.mem_cons.mp member with rfl | later
          · exact ⟨fits, absent⟩
          · obtain ⟨fits, free⟩ := new d later
            refine ⟨fits, ?_⟩
            by_cases same : d = entry
            · subst d
              simp at free
            · simpa [Function.update_of_ne same] using free

theorem outcome_applyBypassRoutesIfNeeded (env : TunnelUpEnv) (tunnel : AwgTunnel)
    (host : VpnHost) :
    ∃ host', outcome (applyBypassRoutesIfNeeded env tunnel) host = (.ok (), host') ∧
      ∀ p, p ≠ vpnRouteStatePath → host'.fs p = host.fs p := by
  unfold applyBypassRoutesIfNeeded
  rw [outcome_ite]
  split
  · cases readDefault env.mainDefault with
    | none => exact ⟨host, rfl, fun _ _ => rfl⟩
    | some route =>
        obtain ⟨applied, host', done, same, -⟩ := outcome_addBypassRoutes env.addBypass
          (loadBypassList env.bypassList) host
        dsimp only
        rw [outcome_bind, done]
        dsimp only
        rw [VpnRouteState.save, outcome_attempt, outcome_onFiles]
        refine ⟨_, rfl, fun p other => ?_⟩
        exact (writeFile_other other _ _ _).trans (congrFun same p)
  · exact ⟨host, rfl, fun _ _ => rfl⟩

end Bypass

section Lifecycle

theorem outcome_writeDns (env : TunnelUpEnv) (servers : List Str) (host : VpnHost) :
    ∃ fs, outcome (writeDns env servers) host = (.ok (), { host with fs := fs }) ∧
      (servers = [] → fs = host.fs) ∧
      (servers ≠ [] → fs =
        (outcome (writeFile env.writeDns resolvConf (encode (nameservers servers)))
        (outcome (copyFile env.backupDns resolvConf resolvBackup) host.fs).2).2) := by
  unfold writeDns
  rw [outcome_ite]
  split
  · next none => exact ⟨host.fs, rfl, fun _ => rfl, fun some => absurd none some⟩
  · next some => exact ⟨_, rfl, fun none => absurd none some, fun _ => rfl⟩

section Up

variable {env : TunnelUpEnv} {tunnel : AwgTunnel} {host middle : VpnHost}

theorem outcome_tunnelUp_stopped {e : Str}
    (stopped : outcome (bringUpInterface env tunnel) host = (.error e, middle)) :
    outcome (tunnelUp env tunnel) host = (.error e, middle) := by
  rw [tunnelUp, outcome_bind, stopped]

/-- Once the interface is up, the DNS step cannot fail and the routing is next. -/
theorem outcome_tunnelUp_reached
    (reached : outcome (bringUpInterface env tunnel) host = (.ok (), middle)) :
    outcome (tunnelUp env tunnel) host =
      match outcome (setupPolicyRouting env tunnel.name)
        (outcome (writeDns env tunnel.iface.dns) middle).2 with
      | (.ok (), routed) => outcome (applyBypassRoutesIfNeeded env tunnel) routed
      | (.error e, routed) => (.error e, routed) := by
  obtain ⟨fs, switched, -⟩ := outcome_writeDns env tunnel.iface.dns middle
  rw [tunnelUp, outcome_bind, reached]
  dsimp only
  rw [outcome_bind, switched]
  dsimp only
  rw [outcome_bind]
  rcases outcome (setupPolicyRouting env tunnel.name) { middle with fs := fs } with ⟨e | u, routed⟩
  · rfl
  · rfl

/-- From the routing on, only the state file may change. -/
theorem files_tunnelUp_reached
    (reached : outcome (bringUpInterface env tunnel) host = (.ok (), middle)) (p : Path)
    (other : p ≠ vpnRouteStatePath) :
    (outcome (tunnelUp env tunnel) host).2.fs p =
      (outcome (writeDns env tunnel.iface.dns) middle).2.fs p := by
  have kept := (keeps_setupPolicyRouting env tunnel.name
    (outcome (writeDns env tunnel.iface.dns) middle).2).fs p List.not_mem_nil
  rw [outcome_tunnelUp_reached reached]
  revert kept
  rcases outcome (setupPolicyRouting env tunnel.name)
    (outcome (writeDns env tunnel.iface.dns) middle).2 with ⟨e | u, routed⟩
  · exact id
  · intro kept
    obtain ⟨host', done, same⟩ := outcome_applyBypassRoutesIfNeeded env tunnel routed
    dsimp only
    rw [done]
    exact (same p other).trans kept

end Up

/-- After the bypass routes are dropped, `tunnel_down` gets as far as restoring the DNS. -/
theorem outcome_tunnelDown (env : TunnelDownEnv) (name : Str) (host : VpnHost) :
    ∃ middle, Keeps [] (outcome (dropBypassRoutes env name) host).2 middle ∧
      outcome (tunnelDown env name) host = outcome (restoreDns env) middle := by
  obtain ⟨dropped, done, -⟩ := outcome_dropBypassRoutes env name host
  have rule := keeps_teardownRule [] env.teardown env.linkDelete env.killed name
  have torn := rule.policy dropped
  have gone := rule.link (outcome (teardownPolicyRouting env.teardown name) dropped).2
  rw [tunnelDown, outcome_bind, done]
  exact ⟨_, torn.trans _ _ _ gone, rfl⟩

end Lifecycle

end TinyWifi
