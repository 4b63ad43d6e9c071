import TinyWifi.TunnelFiles

/-! The tunnels over whole runs: what the requests do to the files is what the tunnels are for. -/

namespace TinyWifi

open Text Exec Checks AwgImport Runs

namespace TunnelStore

/-- What a request scans is what is there, and no write breaks off. A start of the device may read
what it likes. -/
def VpnRequest.Honest (host : VpnHost) : VpnRequest → Prop
  | .boot scan _ => scan.Directory
  | .list scan | .up scan _ _ | .down scan _ _ => scan.Honest host.fs
  | .importConf env _ _ => Alphabet env ∧ env.write.Whole
  | .delete scan _ _ => scan.Honest host.fs
  | .autostartPost scan write _ => scan.Honest host.fs ∧ write.Whole
  | .autostartDelete _ _ => True

section Served

variable {scan : ScanEnv} {host : VpnHost} {net : NetState} {name : Str} {request : VpnRequest}

def Comes (request : VpnRequest) (net : NetState) (x : Exec VpnHost ApiError Unit) (t : Tunnels)
    (host : VpnHost) : Prop :=
  Serves t (request, net, (outcome (done x) host).1) (tunnels (outcome (done x) host).2.fs)

theorem outcome_done (x : Exec VpnHost ApiError Unit) (host : VpnHost) :
    outcome (done x) host =
      match outcome x host with
      | (.ok (), host') => (.ok .ok, host')
      | (.error e, host') => (.error e, host') := by
  rw [done, outcome_bind]
  rcases outcome x host with ⟨e | u, host'⟩
  · rfl
  · rfl

theorem done_state (x : Exec VpnHost ApiError Unit) (host : VpnHost) :
    (outcome (done x) host).2 = (outcome x host).2 := by
  rw [outcome_done]
  rcases outcome x host with ⟨e | u, host'⟩
  · rfl
  · rfl

theorem comes_ok {x : Exec VpnHost ApiError Unit} {t : Tunnels} {host' : VpnHost}
    (ends : outcome x host = (.ok (), host'))
    (served : Serves t (request, net, .ok .ok) (tunnels host'.fs)) :
    Comes request net x t host := by
  rw [Comes, outcome_done, ends]
  exact served

theorem comes_error {x : Exec VpnHost ApiError Unit} {t : Tunnels} {host' : VpnHost} {e : ApiError}
    (ends : outcome x host = (.error e, host'))
    (served : Serves t (request, net, .error e) (tunnels host'.fs)) :
    Comes request net x t host := by
  rw [Comes, outcome_done, ends]
  exact served

theorem comes_congr {x y : Exec VpnHost ApiError Unit} {t : Tunnels} {host' : VpnHost}
    (same : outcome x host = outcome y host') (comes : Comes request net y t host') :
    Comes request net x t host := by
  rw [Comes, outcome_done] at comes ⊢
  rwa [same]

theorem comes_unchanged {x : Exec VpnHost ApiError Unit}
    (kept : ∀ path, Held path → Within (SameAt path) x)
    (ok : Serves (tunnels host.fs) (request, net, .ok .ok) (tunnels host.fs))
    (refused : ∀ e host', outcome x host = (.error e, host') →
      Serves (tunnels host.fs) (request, net, .error e) (tunnels host.fs)) :
    Comes request net x (tunnels host.fs) host := by
  rcases ends : outcome x host with ⟨result, host'⟩
  have same : tunnels host'.fs = tunnels host.fs := by
    apply tunnels_congr
    intro path held
    have file := kept path held host
    rwa [SameAt, ends] at file
  cases result with
  | error e =>
      apply comes_error ends
      rw [same]
      exact refused e host' ends
  | ok u =>
      apply comes_ok ends
      rw [same]
      exact ok

theorem comes_found {x : AwgTunnel → Exec VpnHost ApiError Unit} (honest : scan.Honest host.fs)
    (needs : request.needs = some name)
    (rest : ∀ text, (tunnels host.fs).confs name = some text →
      Comes request net (x (shown scan host (tunnels host.fs).autostart name text))
        (tunnels host.fs) host) :
    Comes request net (found scan name >>= x) (tunnels host.fs) host := by
  cases stored : (tunnels host.fs).confs name with
  | none =>
      have stopped : outcome (found scan name >>= x) host = (.error (notFound name), host) := by
        rw [outcome_bind, found_missing honest stored]
      exact comes_error stopped (.missing needs stored)
  | some text =>
      exact comes_congr (outcome_bind_of_ok (found_there honest stored)) (rest text stored)

end Served

section Requests

variable {scan : ScanEnv} {host : VpnHost} {name : Str}

theorem held_not_switched {path : Path} (held : Held path) (other : Str) :
    path ∉ switched other := by
  rcases held with rfl | ⟨name, rfl⟩
  · exact autostart_not_switched other
  · exact confPath_not_switched name other

theorem sameAt_vpnUp {path : Path} (env : TunnelUpEnv) (directory : scan.Directory)
    (free : ∀ other, plain other = true → path ∉ switched other) :
    Within (SameAt path) (vpnUp scan env name) := by
  apply within_found SameAt.refl directory
  rintro tunnel rfl one
  apply within_get_bind
  exact fun host => within_mapError (sameAt_tunnelUp _ (free tunnel.name one))

theorem sameAt_autostartVpn {path : Path} (env : TunnelUpEnv) (directory : scan.Directory)
    (free : ∀ other, plain other = true → path ∉ switched other) :
    Within (SameAt path) (autostartVpn scan env) := by
  apply within_get_bind
  intro host
  split
  · exact within_pure SameAt.refl _
  · exact within_attempt (sameAt_vpnUp env directory free)

theorem autostartVpn_ok (scan : ScanEnv) (env : TunnelUpEnv) (host : VpnHost) :
    (outcome (autostartVpn scan env) host).1 = .ok () := by
  rw [autostartVpn, outcome_bind, outcome_get]
  dsimp only
  split
  · rfl
  · rfl

theorem serves_boot (env : TunnelUpEnv) (directory : scan.Directory) :
    Comes (.boot scan env) host.net (autostartVpn scan env) (tunnels host.fs) host := by
  apply comes_unchanged _ .booted
  · intro e host' ends
    have fine := autostartVpn_ok scan env host
    rw [ends] at fine
    cases fine
  · intro path held
    exact sameAt_autostartVpn env directory fun other _ => held_not_switched held other

/-- A config that is there is read unless the system refuses. -/
theorem upFails_of_upEnv {env : TunnelUpEnv} {fs : Fs} {net : NetState} {message text : Str}
    {tunnel : AwgTunnel} (content : contentOf fs tunnel.configPath = some text)
    (fails : UpFails (upEnv env fs tunnel) net name message) : UpFails env net name message := by
  cases fails with
  | noConf answer =>
      change readAs (env.conf.map fun _ => ()) fs tunnel.configPath = _ at answer
      cases given : env.conf with
      | error e =>
          rw [given] at answer
          cases answer
          exact .noConf given
      | ok text' =>
          rw [given] at answer
          cases (readAs_eq_ok.mpr ⟨rfl, content⟩).symm.trans answer
  | command asked fails =>
      cases asked with
      | address i => exact .command (.address i) fails
      | linkUp => exact .command .linkUp fails
      | default => exact .command .default fails
      | rule rule => exact .command (.rule rule) fails
  | noIp answer => exact .noIp answer
  | noDaemon answer => exact .noDaemon answer
  | noLink missing => exact .noLink missing
  | noTmp answer => exact .noTmp answer
  | noBinary answer => exact .noBinary answer
  | awg binary asked fails => exact .awg binary asked fails
  | noDevice invalid => exact .noDevice invalid
  | routed there left => exact .routed there left
  | ruled there left => exact .ruled there left

theorem outcome_internal {x : Exec VpnHost Str Unit} {host host' : VpnHost} {e : ApiError}
    (ends : outcome (mapError (ApiError.mk 500) x) host = (.error e, host')) :
    ∃ message, outcome x host = (.error message, host') ∧ e = internal message := by
  rw [outcome_mapError] at ends
  rcases ran : outcome x host with ⟨message | u, after⟩
  · rw [ran] at ends
    cases ends
    exact ⟨message, rfl, rfl⟩
  · rw [ran] at ends
    cases ends

theorem serves_up (env : TunnelUpEnv) (honest : scan.Honest host.fs) :
    Comes (.up scan env name) host.net (vpnUp scan env name) (tunnels host.fs) host := by
  apply comes_found honest rfl
  intro text stored
  have there : ((tunnels host.fs).confs name).isSome := by rw [stored]; rfl
  apply comes_unchanged _ (.broughtUp there)
  · intro e host' ends
    rw [outcome_bind, outcome_get] at ends
    obtain ⟨message, stopped, rfl⟩ := outcome_internal ends
    have content := (tunnels_confs.mp stored).2
    exact .notUp there (upFails_of_upEnv content (tunnelUp_error stopped))
  · intro path held
    apply within_get_bind
    exact fun host => within_mapError (sameAt_tunnelUp _ (held_not_switched held _))

/-- `tunnel_down` does what it can and does not fail. -/
theorem tunnelDown_ok (env : TunnelDownEnv) (name : Str) (host : VpnHost) :
    (outcome (tunnelDown env name) host).1 = .ok () := by
  obtain ⟨middle, -, ends⟩ := outcome_tunnelDown env name host
  rw [ends, restoreDns, outcome_bind, outcome_get]
  dsimp only
  split
  · rfl
  · rfl

theorem serves_down (env : TunnelDownEnv) (honest : scan.Honest host.fs) :
    Comes (.down scan env name) host.net (vpnDown scan env name) (tunnels host.fs) host := by
  apply comes_found honest rfl
  intro text stored
  have there : ((tunnels host.fs).confs name).isSome := by rw [stored]; rfl
  cases up : scan.sees host.net name with
  | false =>
      have down : (shown scan host (tunnels host.fs).autostart name text).status ≠ .up := by
        change (if scan.sees host.net name then AwgTunnelStatus.up else .down) ≠ .up
        rw [up]
        decide
      rw [if_pos down]
      exact comes_error rfl (.alreadyDown there up)
  | true =>
      have running : (shown scan host (tunnels host.fs).autostart name text).status = .up := by
        change (if scan.sees host.net name then AwgTunnelStatus.up else .down) = .up
        rw [up]
        rfl
      rw [if_neg (not_not_intro running)]
      apply comes_unchanged _ (.takenDown there up)
      · intro e host' ends
        obtain ⟨message, stopped, -⟩ := outcome_internal ends
        have fine := tunnelDown_ok env name host
        rw [stopped] at fine
        cases fine
      · intro path held
        exact within_mapError (sameAt_tunnelDown env name (held_not_switched held _))

theorem plain_safeName {env : ImportEnv} (letters : ∀ c, env.isAlphanumeric c = true → c ≠ '/')
    {name : Str} (named : name ≠ []) : plain (safeName env name) = true := by
  refine plain_iff.mpr ⟨by simpa [safeName] using named, fun member => ?_⟩
  obtain ⟨c, -, same⟩ := List.mem_map.mp member
  split at same
  · next kept =>
      subst c
      have letter : env.isAlphanumeric '/' = true := by simpa using kept
      exact letters '/' letter rfl
  · exact absurd same (by decide)

theorem inked_safeName {env : ImportEnv} (alphabet : Alphabet env) (name : Str) :
    ∀ c ∈ safeName env name, isWhitespace c = false := by
  intro c member
  obtain ⟨given, -, rfl⟩ := List.mem_map.mp member
  split
  · next kept =>
      simp only [Bool.or_eq_true, decide_eq_true_eq] at kept
      rcases kept with (letter | rfl) | rfl
      · exact (alphabet given letter).2
      · decide
      · decide
  · decide

theorem joinPath_conf (name : Str) :
    AwgImport.joinPath awgConfDir (name ++ ".conf".toList) = confPath name := by
  rw [AwgImport.joinPath, if_neg (by decide)]
  rfl

theorem importTunnel_cases {env : ImportEnv} (whole : env.write.Whole) (input name : Str)
    (fs : Fs) :
    (∃ e, ImportFails env input e ∧
      outcome (importTunnel env input name awgConfDir) fs = (.error e, fs)) ∨
    ∃ conf, confText env input = .ok conf ∧ env.createDir = .ok () ∧ env.write = .done ∧
      outcome (importTunnel env input name awgConfDir) fs =
        (.ok (confPath (safeName env name)),
          put (confPath (safeName env name)) (encode (cleaned conf)) fs) := by
  unfold importTunnel
  rw [outcome_bind, outcome_reading]
  cases text : confText env input with
  | error e => exact .inl ⟨e, .text text, rfl⟩
  | ok conf =>
      dsimp only
      rw [outcome_bind, outcome_reading]
      cases made : env.createDir with
      | error e => exact .inl ⟨.write e, .folder made, rfl⟩
      | ok u =>
          simp only [joinPath_conf]
          cases written : env.write with
          | done => exact .inr ⟨conf, rfl, trivial, rfl, rfl⟩
          | refused e => exact .inl ⟨.write e, .file written, rfl⟩
          | cut kept e => exact absurd written (whole kept e)

theorem serves_import {env : ImportEnv} (config : Str) (alphabet : Alphabet env)
    (whole : env.write.Whole) :
    Comes (.importConf env name config) net (vpnImport env name config) (tunnels host.fs)
      host := by
  by_cases named : trim name = []
  · have ends : outcome (vpnImport env name config) host =
        (.error ⟨400, "name is required".toList⟩, host) := by
      rw [vpnImport, if_pos named]
      rfl
    exact comes_error ends (.nameless named)
  · rcases importTunnel_cases whole config (trim name) host.fs with
      ⟨e, fails, stops⟩ | ⟨conf, text, made, written, writes⟩
    · have ends : outcome (vpnImport env name config) host = (.error ⟨400, e.display⟩, host) := by
        rw [vpnImport, if_neg named, outcome_bind, outcome_mapError, outcome_onFiles, stops]
      exact comes_error ends (.notImported named fails)
    · have ends : outcome (vpnImport env name config) host =
          (.ok (), ⟨host.net,
            put (confPath (safeName env (trim name))) (encode (cleaned conf)) host.fs⟩) := by
        rw [vpnImport, if_neg named, outcome_bind, outcome_mapError, outcome_onFiles, writes]
        rfl
      apply comes_ok ends
      rw [tunnels_put (plain_safeName (fun c letter => (alphabet c letter).1) named)]
      exact .imported named text made written (inked_safeName alphabet _)

theorem serves_autostartPost {write : WriteOutcome} (honest : scan.Honest host.fs)
    (whole : write.Whole) :
    Comes (.autostartPost scan write name) net (vpnAutostartPost scan write name)
      (tunnels host.fs) host := by
  apply comes_found honest rfl
  intro text stored
  have there : ((tunnels host.fs).confs name).isSome := by rw [stored]; rfl
  cases answer : write with
  | done =>
      apply comes_ok rfl
      have written : Serves (tunnels host.fs) (.autostartPost scan .done name, net, .ok .ok)
          ((tunnels host.fs).choose name) := .chosen there rfl
      rwa [← tunnels_choose] at written
  | refused e => exact comes_error rfl (.notChosen there rfl)
  | cut kept e => exact absurd answer (whole kept e)

theorem outcome_clearAutostart (env : DeleteTunnelEnv) (host : VpnHost) :
    outcome (clearAutostart env) host =
      match env.removeAutostart with
      | .ok () => (.ok (), { host with fs := erase vpnAutostartPath host.fs })
      | .error e => (.error ("remove ".toList ++ vpnAutostartPath ++ ": ".toList ++ e.message),
          host) := by
  unfold clearAutostart
  cases env.removeAutostart with
  | error e => rfl
  | ok u =>
      dsimp only
      rw [outcome_attempt, outcome_onFiles, removeFile_erases]

theorem autostart_deleteEnv {env : DeleteTunnelEnv} (readable : env.autostart.isOk = true)
    (fs : Fs) : getAutostart (deleteEnv env fs).autostart = (tunnels fs).autostart := by
  rw [deleteEnv]
  cases reads : env.autostart with
  | error e =>
      rw [reads] at readable
      cases readable
  | ok text => rfl

theorem autostart_unread {env : DeleteTunnelEnv} (unread : env.autostart.isOk = false) (fs : Fs) :
    getAutostart (deleteEnv env fs).autostart = none := by
  rw [deleteEnv]
  cases reads : env.autostart with
  | error e => rfl
  | ok text =>
      rw [reads] at unread
      cases unread

theorem serves_autostartDelete (env : DeleteTunnelEnv) :
    Comes (.autostartDelete env name) net (vpnAutostartDelete env name) (tunnels host.fs)
      host := by
  have branch : outcome (vpnAutostartDelete env name) host =
      outcome (if getAutostart (deleteEnv env host.fs).autostart = some name then
        mapError (ApiError.mk 500) (clearAutostart env) else pure ()) host := rfl
  cases readable : env.autostart.isOk with
  | false =>
      rw [autostart_unread readable, if_neg nofun] at branch
      exact comes_ok branch (.unread readable)
  | true =>
      rw [autostart_deleteEnv readable] at branch
      by_cases chosen : (tunnels host.fs).autostart = some name
      · rw [if_pos chosen, outcome_mapError, outcome_clearAutostart] at branch
        cases answer : env.removeAutostart with
        | error e =>
            rw [answer] at branch
            exact comes_error branch (.notCleared chosen answer)
        | ok u =>
            rw [answer] at branch
            apply comes_ok branch
            rw [tunnels_clear chosen]
            exact .cleared readable fun _ => answer
      · rw [if_neg chosen] at branch
        apply comes_ok branch
        have same : Serves (tunnels host.fs) (.autostartDelete env name, net, .ok .ok)
            ((tunnels host.fs).unchoose name) := .cleared readable fun same => absurd same chosen
        rwa [unchoose_of_ne chosen] at same

theorem confRemains_eq (one : plain name = true) (e : IoError) :
    confRemains name e =
      internal ("remove ".toList ++ confPath name ++ ": ".toList ++ e.message) := by
  have path : TinyWifi.joinPath awgConfDir (name ++ ".conf".toList) = confPath name :=
    joinPath_plain (plain_conf (plain_iff.mp one).2)
  rw [confRemains, path]

theorem outcome_removeConfFile (env : DeleteTunnelEnv) {host : VpnHost} {text : Str}
    (stored : (tunnels host.fs).confs name = some text) :
    outcome (removeConfFile env name awgConfDir) host =
      match env.removeConf with
      | .ok () => (.ok (), ⟨host.net, erase (confPath name) host.fs⟩)
      | .error e =>
        (.error ("remove ".toList ++ confPath name ++ ": ".toList ++ e.message), host) := by
  obtain ⟨one, content⟩ := tunnels_confs.mp stored
  have path : TinyWifi.joinPath awgConfDir (name ++ ".conf".toList) = confPath name :=
    joinPath_plain (plain_conf (plain_iff.mp one).2)
  have there := exists_of_contentOf content
  rw [removeConfFile, outcome_bind, outcome_get]
  simp only [path, there, if_true]
  rw [outcome_mapError, outcome_onFiles]
  cases env.removeConf with
  | error e => rfl
  | ok u =>
      rw [fileExists, Option.isSome_iff_exists] at there
      obtain ⟨bytes, found⟩ := there
      simp [removeFileAs, removeFile, outcome_bind, found]

theorem outcome_removeTunnelConf (env : DeleteTunnelEnv) {host : VpnHost} {text : Str}
    (stored : (tunnels host.fs).confs name = some text) :
    outcome (removeTunnelConf env name awgConfDir) host =
      match env.removeConf with
      | .ok () =>
        outcome (if getAutostart env.autostart = some name then clearAutostart env else pure ())
          ⟨host.net, erase (confPath name) host.fs⟩
      | .error e =>
        (.error ("remove ".toList ++ confPath name ++ ": ".toList ++ e.message), host) := by
  rw [removeTunnelConf, outcome_bind, outcome_removeConfFile env stored]
  cases env.removeConf with
  | error e => rfl
  | ok u => rfl

theorem comes_removed {scan : ScanEnv} {env : DeleteTunnelEnv} {host : VpnHost} {fs : Fs}
    (there : ((tunnels host.fs).confs name).isSome) (same : tunnels host.fs = tunnels fs) :
    Comes (.delete scan env name) net
      (mapError (ApiError.mk 500) (removeTunnelConf (deleteEnv env fs) name awgConfDir))
      (tunnels host.fs) host := by
  obtain ⟨text, stored⟩ := Option.isSome_iff_exists.mp there
  have rest := outcome_removeTunnelConf (deleteEnv env fs) stored
  have conf : (deleteEnv env fs).removeConf = env.removeConf := rfl
  have entry : (deleteEnv env fs).removeAutostart = env.removeAutostart := rfl
  rw [conf] at rest
  cases removed : env.removeConf with
  | error e =>
      rw [removed] at rest
      have kept : Serves (tunnels host.fs)
          (.delete scan env name, net, .error (confRemains name e)) (tunnels host.fs) :=
        .notDeleted there removed
      rw [confRemains_eq (tunnels_confs.mp stored).1] at kept
      exact comes_error (by rw [outcome_mapError, rest]; rfl) kept
  | ok u =>
      rw [removed] at rest
      cases readable : env.autostart.isOk with
      | false =>
          simp only [autostart_unread readable] at rest
          apply comes_ok (by rw [outcome_mapError, rest]; rfl)
          rw [tunnels_erase]
          exact .deletedUnread there removed readable
      | true =>
          rw [autostart_deleteEnv readable, ← same] at rest
          by_cases chosen : (tunnels host.fs).autostart = some name
          · rw [if_pos chosen, outcome_clearAutostart, entry] at rest
            have still : (tunnels (erase (confPath name) host.fs)).autostart = some name := by
              rw [tunnels_erase]
              exact chosen
            cases answer : env.removeAutostart with
            | error e =>
                rw [answer] at rest
                apply comes_error (by rw [outcome_mapError, rest])
                rw [tunnels_erase]
                exact .stranded there removed chosen answer
            | ok u =>
                rw [answer] at rest
                apply comes_ok (by rw [outcome_mapError, rest])
                rw [tunnels_clear still, tunnels_erase]
                exact .deleted there removed readable fun _ => answer
          · simp only [if_neg chosen] at rest
            apply comes_ok (by rw [outcome_mapError, rest]; rfl)
            have dropped : Serves (tunnels host.fs) (.delete scan env name, net, .ok .ok)
                ((tunnels host.fs).drop name) :=
              .deleted there removed readable fun same => absurd same chosen
            have kept := unchoose_of_ne (t := (tunnels host.fs).remove name) chosen
            rw [tunnels_erase, ← kept]
            exact dropped

/-- The tunnel is taken down if it is up, which leaves the tunnels' files alone. -/
theorem deleteTunnel_down (env : DeleteTunnelEnv) (name : Str) (dir : Path) (host : VpnHost) :
    ∃ middle, tunnels middle.fs = tunnels host.fs ∧
      outcome (deleteTunnel env name dir) host =
        outcome (removeTunnelConf env name dir) middle := by
  rw [deleteTunnel, outcome_bind, outcome_get]
  dsimp only
  split
  · have fine := tunnelDown_ok env.down name host
    rcases ends : outcome (tunnelDown env.down name) host with ⟨result, middle⟩
    rw [ends] at fine
    obtain rfl : result = .ok () := fine
    refine ⟨middle, tunnels_congr fun path held => ?_, outcome_bind_of_ok ends⟩
    have file := sameAt_tunnelDown env.down name (held_not_switched held name) host
    rwa [SameAt, ends] at file
  · exact ⟨host, rfl, rfl⟩

theorem serves_delete (env : DeleteTunnelEnv) (honest : scan.Honest host.fs) :
    Comes (.delete scan env name) net (vpnDelete scan env name) (tunnels host.fs) host := by
  apply comes_found honest rfl
  intro text stored
  have there : ((tunnels host.fs).confs name).isSome := by rw [stored]; rfl
  obtain ⟨middle, same, goes⟩ := deleteTunnel_down (deleteEnv env host.fs) name awgConfDir host
  have removed : Comes (.delete scan env name) net
      (mapError (ApiError.mk 500) (removeTunnelConf (deleteEnv env host.fs) name awgConfDir))
      (tunnels middle.fs) middle := comes_removed (by rwa [same]) same
  rw [same] at removed
  apply comes_congr _ removed
  rw [outcome_bind, outcome_get]
  dsimp only
  rw [outcome_mapError, goes, outcome_mapError]

end Requests

/-- Whatever the requests are, what they do to the files is what the tunnels are for. -/
theorem serves_step {host : VpnHost} {request : VpnRequest} (honest : request.Honest host) :
    Serves (tunnels host.fs) (request, host.net, (outcome (serve request) host).1)
      (tunnels (step host request).fs) := by
  cases request with
  | boot scan env => exact serves_boot env honest
  | list scan => exact .listed (lists_scanTunnels honest) (status_scanTunnels honest)
  | up scan env name => exact serves_up env honest
  | down scan env name => exact serves_down env honest
  | importConf env name config => exact serves_import config honest.1 honest.2
  | delete scan env name => exact serves_delete env honest
  | autostartPost scan write name => exact serves_autostartPost honest.1 honest.2
  | autostartDelete env name => exact serves_autostartDelete env

def log (host : VpnHost) (requests : List VpnRequest) : List Served :=
  outputs step (fun host request => (request, host.net, (outcome (serve request) host).1)) host
    requests

theorem runs_serve {host : VpnHost} {requests : List VpnRequest}
    (honest : Allowed step (fun host request => request.Honest host) host requests) :
    Steps Serves (tunnels host.fs) (log host requests) (tunnels (run step host requests).fs) :=
  honest.simulated (fun host => tunnels host.fs) fun _ _ => serves_step

def bareHost : VpnHost := ⟨⟨fun _ => none, none, fun _ => false, fun _ => false⟩, fun _ => none⟩

def nameA : Str := "a".toList

def confA : Str := "[Interface]\nDNS = 1.1.1.1\n".toList

def scanA : ScanEnv := ⟨.ok ["a.conf".toList], fun _ => .ok (), fun _ => false⟩

def storedA : Fs := put (confPath nameA) (encode confA) fun _ => none

theorem honest_scanA {fs : Fs} (only : ∀ path, path ≠ confPath nameA → path ≠ vpnAutostartPath →
    fs path = none) : scanA.Honest fs where
  reads _ := rfl
  nodup files entries := by
    cases entries
    exact List.nodup_singleton _
  directory files entries file member := by
    cases entries
    rw [List.mem_singleton.mp member]
    decide
  all file one there := by
    refine ⟨_, rfl, ?_⟩
    by_contra absent
    have conf : awgConfDir ++ '/' :: file ≠ confPath nameA := by
      intro same
      have file_eq := (List.cons.inj (List.append_cancel_left same)).2
      exact absent (by rw [file_eq]; decide)
    have entry : awgConfDir ++ '/' :: file ≠ vpnAutostartPath := by
      intro same
      have front : (awgConfDir ++ '/' :: file).take 6 = "/etc/a".toList := rfl
      rw [same] at front
      exact absurd front (by decide)
    rw [only _ conf entry] at there
    cases there

theorem alphabet_plainImport : Alphabet plainImport := by
  intro c letter
  have range : (48 ≤ c.toNat ∧ c.toNat ≤ 57) ∨ (65 ≤ c.toNat ∧ c.toNat ≤ 90) ∨
      (97 ≤ c.toNat ∧ c.toNat ≤ 122) := by
    rcases Bool.or_eq_true_iff.mp letter with alpha | digit
    · rcases Bool.or_eq_true_iff.mp alpha with upper | lower
      · have bounds := of_decide_eq_true upper
        exact .inr (.inl ⟨bounds.1, bounds.2⟩)
      · have bounds := Bool.and_eq_true_iff.mp lower
        exact .inr (.inr ⟨of_decide_eq_true bounds.1, of_decide_eq_true bounds.2⟩)
    · have bounds := Bool.and_eq_true_iff.mp digit
      exact .inl ⟨of_decide_eq_true bounds.1, of_decide_eq_true bounds.2⟩
  refine ⟨?_, ?_⟩
  · rintro rfl
    exact absurd letter (by decide)
  · rw [← Bool.not_eq_true, isWhitespace_iff]
    simp only [List.mem_cons, List.not_mem_nil, or_false]
    omega

theorem runs_serve_import :
    Steps Serves (tunnels bareHost.fs)
      (log bareHost [.importConf plainImport nameA confA, .list scanA])
      (tunnels (run step bareHost [.importConf plainImport nameA confA, .list scanA]).fs) := by
  have stored : (step bareHost (.importConf plainImport nameA confA)).fs = storedA := rfl
  apply runs_serve
  refine ⟨⟨alphabet_plainImport, nofun⟩, ?_, trivial⟩
  change scanA.Honest (step bareHost _).fs
  rw [stored]
  exact honest_scanA fun path conf _ => put_of_ne conf ..

section Autostart

/-- The tunnel that comes up by itself is not there. -/
def Tunnels.Dangling (t : Tunnels) (name : Str) : Prop :=
  t.autostart = some name ∧ t.confs name = none

variable {t t' : Tunnels} {name : Str}

/-- What leaves the autostart entry without its tunnel: a deletion that cannot remove the entry or
cannot read it, or the choice of a tunnel whose name is read back as another one. -/
inductive Strands (name : Str) : Served → Prop
  | kept {scan env net e} (kept : env.removeAutostart = .error e) :
      Strands name (.delete scan env name, net, .error (autostartRemains e))
  | unread {scan env net} (unread : env.autostart.isOk = false) :
      Strands name (.delete scan env name, net, .ok .ok)
  | blanks {scan write other net} (apart : other ≠ name) (read : trim other = name) :
      Strands name (.autostartPost scan write other, net, .ok .ok)

theorem Serves.strands {entry : Served} (served : Serves t entry t')
    (before : ¬ t.Dangling name) (after : t'.Dangling name) : Strands name entry := by
  cases served with
  | @imported env given config text net trimmed conf made written inked =>
      refine absurd ⟨after.1, ?_⟩ before
      by_cases same : name = safeName env (trim given)
      · have there := after.2
        simp [Tunnels.put, same] at there
      · simpa [Tunnels.put, Function.update_of_ne same] using after.2
  | @deleted scan env other net there removed readable cleared =>
      obtain ⟨chosen, apart⟩ := Option.filter_eq_some_iff.mp after.1
      have apart : name ≠ other := by simpa using apart
      exact absurd ⟨chosen, by simpa [Tunnels.drop, Tunnels.remove, apart] using after.2⟩ before
  | @deletedUnread scan env other net there removed unread =>
      by_cases same : name = other
      · subst same
        exact .unread unread
      · exact absurd ⟨after.1, by simpa [Tunnels.remove, same] using after.2⟩ before
  | @stranded scan env other net e there removed chosen kept =>
      by_cases same : name = other
      · subst same
        exact .kept kept
      · exact absurd ⟨after.1, by simpa [Tunnels.remove, same] using after.2⟩ before
  | @chosen scan write other net there written =>
      have entry := after.1
      rw [Tunnels.choose] at entry
      by_cases blank : trim other = []
      · rw [if_pos blank] at entry
        cases entry
      · rw [if_neg blank] at entry
        refine .blanks ?_ (Option.some.inj entry)
        rintro rfl
        rw [show t.confs other = none from after.2] at there
        cases there
  | @cleared env other net readable removed =>
      obtain ⟨chosen, apart⟩ := Option.filter_eq_some_iff.mp after.1
      exact absurd ⟨chosen, after.2⟩ before
  | _ => exact absurd after before

/-- A tunnel that is imported or taken off the autostart does not dangle. -/
theorem Serves.settles {entry : Served} (served : Serves t entry t') (dangling : t'.Dangling name) :
    (∀ env given config net, entry = (.importConf env given config, net, .ok .ok) →
      safeName env (trim given) ≠ name) ∧
    ∀ env net, env.autostart.isOk = true → entry ≠ (.autostartDelete env name, net, .ok .ok) := by
  constructor
  · rintro env given config net rfl rfl
    cases served with
    | imported trimmed conf made written inked =>
        have there := dangling.2
        simp [Tunnels.put] at there
  · rintro env net readable rfl
    cases served with
    | cleared _ removed =>
        obtain ⟨-, apart⟩ := Option.filter_eq_some_iff.mp dangling.1
        simp at apart
    | unread unread =>
        rw [readable] at unread
        cases unread

/-- When the autostart entry names a tunnel that is not there, some request stranded it, and since
then the tunnel was neither imported nor taken off the autostart. -/
theorem dangling_cause {host : VpnHost} {requests : List VpnRequest}
    (honest : Allowed step (fun host request => request.Honest host) host requests)
    (start : ¬ (tunnels host.fs).Dangling name)
    (dangling : (tunnels (run step host requests).fs).Dangling name) :
    ∃ front entry back, log host requests = front ++ entry :: back ∧ Strands name entry ∧
      (∀ env given config net, (.importConf env given config, net, .ok .ok) ∈ back →
        safeName env (trim given) ≠ name) ∧
      ∀ env net, env.autostart.isOk = true → (.autostartDelete env name, net, .ok .ok) ∉ back := by
  obtain ⟨front, entry, back, before, after, split, early, fresh, turn, stranded, since⟩ :=
    (runs_serve honest).exists_last (P := fun t => t.Dangling name) start dangling
  refine ⟨front, entry, back, split, turn.strands fresh stranded, ?_, ?_⟩
  · intro env given config net member
    obtain ⟨_, _, -, served, held⟩ := since.of_mem dangling member
    exact (served.settles held).1 env given config net rfl
  · intro env net readable member
    obtain ⟨_, _, -, served, held⟩ := since.of_mem dangling member
    exact (served.settles held).2 env net readable rfl

def chosenA : VpnHost := ⟨bareHost.net, put vpnAutostartPath (encode (nameA ++ ['\n'])) storedA⟩

def stuckDelete : DeleteTunnelEnv :=
  ⟨false, .willing, .ok (), .ok [], .error ⟨"Read-only file system (os error 30)".toList⟩⟩

theorem tunnels_chosenA :
    tunnels chosenA.fs = ((tunnels bareHost.fs).put nameA confA).choose nameA := by
  rw [chosenA, tunnels_choose, storedA, tunnels_put (by decide)]
  rfl

theorem honest_chosenA : scanA.Honest chosenA.fs :=
  honest_scanA fun _ conf entry => (put_of_ne entry ..).trans (put_of_ne conf ..)

theorem delete_chosenA : (step chosenA (.delete scanA stuckDelete nameA)).fs =
    erase (confPath nameA) chosenA.fs := by
  have stored : (tunnels chosenA.fs).confs nameA = some confA := by
    rw [tunnels_chosenA]
    rfl
  have chosen : (tunnels chosenA.fs).autostart = some nameA := by
    rw [tunnels_chosenA]
    rfl
  have rest : outcome (deleteTunnel (deleteEnv stuckDelete chosenA.fs) nameA awgConfDir) chosenA =
      outcome (removeTunnelConf (deleteEnv stuckDelete chosenA.fs) nameA awgConfDir) chosenA := rfl
  have entry : getAutostart (deleteEnv stuckDelete chosenA.fs).autostart = some nameA := by
    rw [autostart_deleteEnv rfl, chosen]
  have removed : (deleteEnv stuckDelete chosenA.fs).removeConf = .ok () := rfl
  rw [outcome_removeTunnelConf _ stored, removed, entry] at rest
  simp only [if_true, outcome_clearAutostart] at rest
  rw [step, serve, done_state, vpnDelete, outcome_bind, found_there honest_chosenA stored]
  dsimp only
  rw [outcome_bind, outcome_get]
  dsimp only
  rw [mapError_state, rest]
  rfl

theorem dangling_cause_stuck :
    ∃ front entry back, log chosenA [.delete scanA stuckDelete nameA] = front ++ entry :: back ∧
      Strands nameA entry ∧
      (∀ env given config net, (.importConf env given config, net, .ok .ok) ∈ back →
        safeName env (trim given) ≠ nameA) ∧
      ∀ env net, env.autostart.isOk = true →
        (.autostartDelete env nameA, net, .ok .ok) ∉ back := by
  apply dangling_cause
  · exact ⟨honest_chosenA, trivial⟩
  · rw [tunnels_chosenA]
    intro dangling
    cases dangling.2
  · have gone : tunnels (step chosenA (.delete scanA stuckDelete nameA)).fs =
        (((tunnels bareHost.fs).put nameA confA).choose nameA).remove nameA := by
      rw [delete_chosenA, tunnels_erase, tunnels_chosenA]
    change (tunnels (step chosenA (.delete scanA stuckDelete nameA)).fs).Dangling nameA
    rw [gone]
    exact ⟨rfl, rfl⟩

end Autostart

end TunnelStore

end TinyWifi
