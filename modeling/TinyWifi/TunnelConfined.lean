import TinyWifi.TunnelRuns

/-! Which files the requests about tunnels leave alone, whatever names they give. -/

namespace TinyWifi

open Text Exec Checks AwgImport Runs

namespace TunnelStore

/-- The files that requests about tunnels may change: what the tunnels are made of, and what goes
with bringing one up and down. -/
def Ours (path : Path) : Prop :=
  path = vpnAutostartPath ∨
    ∃ name, plain name = true ∧ (path = confPath name ∨ path ∈ switched name)

def VpnRequest.Directory : VpnRequest → Prop
  | .boot scan _ | .list scan | .up scan _ _ | .down scan _ _ | .delete scan _ _
  | .autostartPost scan _ _ => scan.Directory
  | .importConf env _ _ => ∀ c, env.isAlphanumeric c = true → c ≠ '/'
  | .autostartDelete _ _ => True

section Confined

variable {scan : ScanEnv} {host : VpnHost} {path : Path} {name : Str}

theorem sameAt_clearAutostart (env : DeleteTunnelEnv) (entry : path ≠ vpnAutostartPath) :
    Within (SameAt path) (clearAutostart env) := by
  unfold clearAutostart
  split
  · exact within_attempt (sameAt_onFiles fun fs => removeFileAs_other entry (.ok ()) fs)
  · exact within_throw SameAt.refl _

theorem sameAt_removeTunnelConf (env : DeleteTunnelEnv) (one : plain name = true)
    (conf : path ≠ confPath name) (entry : path ≠ vpnAutostartPath) :
    Within (SameAt path) (removeTunnelConf env name awgConfDir) := by
  have target : TinyWifi.joinPath awgConfDir (name ++ ".conf".toList) = confPath name :=
    joinPath_plain (plain_conf (plain_iff.mp one).2)
  apply within_bind SameAt.trans
  · apply within_get_bind
    intro host
    simp only [target]
    apply within_ite
    · exact fun _ => within_mapError (sameAt_onFiles fun fs => removeFileAs_other conf _ fs)
    · exact fun _ => within_pure SameAt.refl _
  · intro _
    apply within_ite
    · exact fun _ => sameAt_clearAutostart env entry
    · exact fun _ => within_pure SameAt.refl _

theorem sameAt_deleteTunnel (env : DeleteTunnelEnv) (one : plain name = true)
    (foreign : ¬ Ours path) : Within (SameAt path) (deleteTunnel env name awgConfDir) := by
  have free : path ∉ switched name := fun member => foreign (.inr ⟨name, one, .inr member⟩)
  have rest := sameAt_removeTunnelConf env one
    (fun same => foreign (.inr ⟨name, one, .inl same⟩)) fun same => foreign (.inl same)
  apply within_get_bind
  intro host
  dsimp only
  split
  · exact within_bind SameAt.trans (sameAt_tunnelDown _ _ free) fun _ => rest
  · exact rest

theorem sameAt_vpnImport {env : ImportEnv} (config : Str)
    (letters : ∀ c, env.isAlphanumeric c = true → c ≠ '/') (foreign : ¬ Ours path) :
    Within (SameAt path) (vpnImport env name config) := by
  apply within_ite
  · exact fun _ => within_throw SameAt.refl _
  · intro named
    have one := plain_safeName letters named
    have conf : path ≠ confPath (safeName env (trim name)) :=
      fun same => foreign (.inr ⟨_, one, .inl same⟩)
    apply within_bind SameAt.trans
    · apply within_mapError
      apply sameAt_onFiles
      have keeps : Within (fun fs fs' : Fs => fs' path = fs path)
          (importTunnel env config (trim name) awgConfDir) := by
        have refl (fs : Fs) : fs path = fs path := rfl
        have trans (a b c : Fs) (first : b path = a path) (second : c path = b path) :
            c path = a path := second.trans first
        apply within_bind trans (within_reading refl _)
        intro conf
        apply within_bind trans (within_reading refl _)
        intro _
        simp only [joinPath_conf]
        apply within_bind trans
        · exact within_mapError fun fs => writeFile_other ‹path ≠ _› _ _ fs
        · exact fun _ => within_pure refl _
      exact keeps
    · exact fun _ => within_pure SameAt.refl _

theorem sameAt_vpnDown (env : TunnelDownEnv) (directory : scan.Directory)
    (foreign : ¬ Ours path) : Within (SameAt path) (vpnDown scan env name) := by
  apply within_found SameAt.refl directory
  intro tunnel _ one
  apply within_ite
  · exact fun _ => within_throw SameAt.refl _
  · intro _
    apply within_mapError
    exact sameAt_tunnelDown env name fun member => foreign (.inr ⟨name, one, .inr member⟩)

theorem sameAt_vpnDelete (env : DeleteTunnelEnv) (directory : scan.Directory)
    (foreign : ¬ Ours path) : Within (SameAt path) (vpnDelete scan env name) := by
  apply within_found SameAt.refl directory
  intro tunnel _ one
  apply within_get_bind
  exact fun host => within_mapError (sameAt_deleteTunnel _ one foreign)

theorem sameAt_vpnAutostartPost (write : WriteOutcome) (entry : path ≠ vpnAutostartPath) :
    Within (SameAt path) (vpnAutostartPost scan write name) := by
  apply within_bind SameAt.trans (within_reading SameAt.refl _)
  intro _
  apply within_mapError
  apply sameAt_onFiles
  intro fs
  rw [setAutostart, mapError_state]
  exact writeFile_other entry _ _ fs

theorem sameAt_vpnAutostartDelete (env : DeleteTunnelEnv) (entry : path ≠ vpnAutostartPath) :
    Within (SameAt path) (vpnAutostartDelete env name) := by
  apply within_get_bind
  intro host
  apply within_ite
  · exact fun _ => within_mapError (sameAt_clearAutostart env entry)
  · exact fun _ => within_pure SameAt.refl _

/-- Whatever a request asks for and however the system answers, no foreign file changes. -/
theorem sameAt_serve {request : VpnRequest} (directory : request.Directory)
    (foreign : ¬ Ours path) : Within (SameAt path) (serve request) := by
  have free (other : Str) (one : plain other = true) : path ∉ switched other :=
    fun member => foreign (.inr ⟨other, one, .inr member⟩)
  have entry : path ≠ vpnAutostartPath := fun same => foreign (.inl same)
  have quiet {x : Exec VpnHost ApiError Unit} (kept : Within (SameAt path) x) :
      Within (SameAt path) (done x) :=
    within_bind SameAt.trans kept fun _ => within_pure SameAt.refl _
  cases request with
  | boot scan env => exact quiet (sameAt_autostartVpn env directory free)
  | list scan => exact within_reading SameAt.refl _
  | up scan env name => exact quiet (sameAt_vpnUp env directory free)
  | down scan env name => exact quiet (sameAt_vpnDown env directory foreign)
  | importConf env name config => exact quiet (sameAt_vpnImport config directory foreign)
  | delete scan env name => exact quiet (sameAt_vpnDelete env directory foreign)
  | autostartPost scan write name => exact quiet (sameAt_vpnAutostartPost write entry)
  | autostartDelete env name => exact quiet (sameAt_vpnAutostartDelete env entry)

/-- No request about tunnels changes a file that is not theirs, under any name that it gives. -/
theorem runs_confined (host : VpnHost) (requests : List VpnRequest)
    (directory : ∀ request ∈ requests, request.Directory) (foreign : ¬ Ours path) :
    (run step host requests).fs path = host.fs path := by
  induction requests generalizing host with
  | nil => rfl
  | cons request rest ih =>
      have first := sameAt_serve (directory request List.mem_cons_self) foreign host
      have later := ih (step host request) fun other member =>
        directory other (List.mem_cons_of_mem request member)
      exact later.trans first

def passwd : Path := "/etc/passwd".toList

theorem foreign_passwd : ¬ Ours passwd := by
  rintro (same | ⟨name, -, same | member⟩)
  · exact absurd same (by decide)
  · exact confPath_ne (by decide) name same.symm
  · exact absurd (take_of_switched member) (by decide)

def climbing : Str := "../../passwd".toList

theorem runs_confined_climbing :
    (run step bareHost [.importConf plainImport climbing confA,
      .delete scanA stuckDelete climbing]).fs passwd = none := by
  apply runs_confined bareHost _ _ foreign_passwd
  intro request member
  rcases List.mem_cons.mp member with rfl | later
  · exact fun c letter => (alphabet_plainImport c letter).1
  · rw [List.mem_singleton.mp later]
    exact honest_chosenA.directory

end Confined

end TunnelStore

end TinyWifi
