import TinyWifi.Lib.Runs
import TinyWifi.TunnelFrames

/-! Whether `resolv.conf` is given back: one backup file for all tunnels. -/

namespace TinyWifi

open Text Exec Runs

namespace VpnDns

/-- The DNS switch puts the resolver config aside, or leaves an earlier backup as it is. -/
def BacksUp (env : TunnelUpEnv) (fs : Fs) : Prop :=
  match env.backupDns with
  | .done => fs resolvBackup = none ∨ fs resolvBackup = fs resolvConf
  | .refused _ => fs resolvBackup ≠ none ∨ ∃ e, env.writeDns = .refused e
  | .cut _ _ => False

/-- A call that switches the DNS finds no backup, unless it is of the same content; a call that
restores it can do so. -/
def SafeCall (st : TunnelHost) : TunnelCall → Prop
  | .up env tunnel =>
    (outcome (bringUpInterface env tunnel) st.host).1 = .ok () → tunnel.iface.dns ≠ [] →
      BacksUp env st.host.fs
  | .down env _ =>
    st.host.fs resolvBackup ≠ none → env.restoreDns = .done ∧ env.removeDnsBackup = .ok ()

/-- The content that was there at first is in place, or it is in the backup and some tunnel is not
down. -/
def Given (given : ByteArray) (st : TunnelHost) : Prop :=
  (st.host.fs resolvConf = some given ∧ st.host.fs resolvBackup = none) ∨
    (st.host.fs resolvBackup = some given ∧ st.outstanding ≠ [])

section Steps

variable {given : ByteArray} {st : TunnelHost}

theorem resolvBackup_ne : resolvBackup ≠ resolvConf := by decide

theorem tmpConfPath_ne (name : Str) :
    resolvConf ≠ tmpConfPath name ∧ resolvBackup ≠ tmpConfPath name := by
  have tmp : (tmpConfPath name).take 2 = ['/', 't'] := rfl
  constructor
  · intro same
    rw [← same] at tmp
    exact absurd tmp (by decide)
  · intro same
    rw [← same] at tmp
    exact absurd tmp (by decide)

theorem files_bringUpInterface (env : TunnelUpEnv) (tunnel : AwgTunnel) (host : VpnHost) :
    (outcome (bringUpInterface env tunnel) host).2.fs resolvConf = host.fs resolvConf ∧
      (outcome (bringUpInterface env tunnel) host).2.fs resolvBackup = host.fs resolvBackup := by
  have kept := keeps_bringUpInterface env tunnel host
  have apart := tmpConfPath_ne tunnel.name
  exact ⟨kept.fs _ fun same => apart.1 (List.mem_singleton.mp same),
    kept.fs _ fun same => apart.2 (List.mem_singleton.mp same)⟩

/-- A safe switch leaves the given content in the backup, or it does not take place. -/
theorem given_switched {env : TunnelUpEnv} {fs : Fs} (content : ByteArray)
    (given' : (fs resolvConf = some given ∧ fs resolvBackup = none) ∨
      fs resolvBackup = some given) (safe : BacksUp env fs) :
    ((outcome (writeFile env.writeDns resolvConf content)
        (outcome (copyFile env.backupDns resolvConf resolvBackup) fs).2).2 resolvConf = some given ∧
      (outcome (writeFile env.writeDns resolvConf content)
        (outcome (copyFile env.backupDns resolvConf resolvBackup) fs).2).2 resolvBackup = none) ∨
    (outcome (writeFile env.writeDns resolvConf content)
      (outcome (copyFile env.backupDns resolvConf resolvBackup) fs).2).2 resolvBackup =
        some given := by
  have aside (system : WriteOutcome) (before : Fs) (h : before resolvBackup = some given) :
      (outcome (writeFile system resolvConf content) before).2 resolvBackup = some given :=
    (writeFile_other resolvBackup_ne system content before).trans h
  unfold BacksUp at safe
  cases backup : env.backupDns with
  | cut count e =>
      rw [backup] at safe
      exact safe.elim
  | done =>
      rw [backup] at safe
      have inPlace : fs resolvConf = some given := by
        rcases given' with ⟨conf, -⟩ | found
        · exact conf
        · rcases safe with none | same
          · cases none.symm.trans found
          · exact same.symm.trans found
      right
      apply aside
      rw [outcome_copyFile inPlace, outcome_writeFile_done]
      exact put_self resolvBackup given fs
  | refused e =>
      rw [backup] at safe
      have same : (outcome (copyFile (.refused e) resolvConf resolvBackup) fs).2 = fs := by
        cases found : fs resolvConf with
        | none => rw [outcome_copyFile_missing found]
        | some bytes =>
            rw [outcome_copyFile found]
            rfl
      rw [same]
      rcases given' with ⟨conf, none⟩ | found
      · rcases safe with there | ⟨refusal, stopped⟩
        · exact absurd none there
        · rw [stopped]
          exact .inl ⟨conf, none⟩
      · exact .inr (aside _ _ found)

theorem Given.up {env : TunnelUpEnv} {tunnel : AwgTunnel} (kept : Given given st)
    (safe : SafeCall st (.up env tunnel)) : Given given (st.step (.up env tunnel)) := by
  have before : (st.host.fs resolvConf = some given ∧ st.host.fs resolvBackup = none) ∨
      st.host.fs resolvBackup = some given := kept.imp id And.left
  have files := files_bringUpInterface env tunnel st.host
  have holds (after : VpnHost) (h : (after.fs resolvConf = some given ∧
      after.fs resolvBackup = none) ∨ after.fs resolvBackup = some given) :
      Given given ⟨after, tunnel.name :: st.outstanding⟩ :=
    h.imp id fun found => ⟨found, List.cons_ne_nil _ _⟩
  apply holds
  rcases reached : outcome (bringUpInterface env tunnel) st.host with ⟨e | u, middle⟩
  · rw [reached] at files
    rw [outcome_tunnelUp_stopped reached, files.1, files.2]
    exact before
  · rw [reached] at files
    rw [files_tunnelUp_reached reached _ (by decide), files_tunnelUp_reached reached _ (by decide)]
    obtain ⟨fs, switched, untouched, written⟩ := outcome_writeDns env tunnel.iface.dns middle
    rw [switched]
    by_cases none : tunnel.iface.dns = []
    · rw [untouched none, files.1, files.2]
      exact before
    · have safe := safe (by rw [reached]) none
      rw [written none]
      apply given_switched
      · rw [files.1, files.2]
        exact before
      · unfold BacksUp at safe ⊢
        rw [files.1, files.2]
        exact safe

theorem Given.down {env : TunnelDownEnv} {name : Str} (kept : Given given st)
    (safe : SafeCall st (.down env name)) : Given given (st.step (.down env name)) := by
  obtain ⟨middle, files, restored⟩ := outcome_tunnelDown env name st.host
  obtain ⟨dropped, done, same⟩ := outcome_dropBypassRoutes env name st.host
  rw [done] at files
  have conf : middle.fs resolvConf = st.host.fs resolvConf :=
    (files.fs _ List.not_mem_nil).trans (same _ (by decide))
  have backup : middle.fs resolvBackup = st.host.fs resolvBackup :=
    (files.fs _ List.not_mem_nil).trans (same _ (by decide))
  left
  change (outcome (tunnelDown env name) st.host).2.fs resolvConf = some given ∧
    (outcome (tunnelDown env name) st.host).2.fs resolvBackup = none
  rw [restored, restoreDns, outcome_bind, outcome_get]
  dsimp only
  rcases kept with ⟨inPlace, none⟩ | ⟨aside, -⟩
  · rw [fileExists, backup, none]
    exact ⟨conf.trans inPlace, backup.trans none⟩
  · obtain ⟨restore, remove⟩ := safe (by rw [aside]; exact Option.some_ne_none _)
    have found := backup.trans aside
    rw [fileExists, found, Option.isSome_some, outcome_ite, if_pos rfl, outcome_bind,
      outcome_attempt, outcome_onFiles, outcome_copyFile found, restore, outcome_writeFile_done]
    dsimp only
    rw [outcome_attempt, outcome_onFiles, remove, removeFileAs]
    dsimp only
    rw [removeFile_erases]
    exact ⟨(erase_of_ne resolvBackup_ne.symm _).trans (put_self ..), erase_self ..⟩

theorem Given.step {call : TunnelCall} (kept : Given given st) (safe : SafeCall st call) :
    Given given (st.step call) := by
  cases call with
  | up env tunnel => exact kept.up safe
  | down env name => exact kept.down safe

end Steps

section Runs

/-- Whenever every tunnel is down again, the resolver config is the one there was at first and no
backup is left. -/
def GivesBack (host : VpnHost) (calls : List TunnelCall) : Prop :=
  ∀ front, front <+: calls → (run TunnelHost.step (.start host) front).outstanding = [] →
    (run TunnelHost.step (.start host) front).host.fs resolvConf = host.fs resolvConf ∧
      (run TunnelHost.step (.start host) front).host.fs resolvBackup = none

theorem gives_back_of_safe (host : VpnHost) (calls : List TunnelCall) {given : ByteArray}
    (inPlace : host.fs resolvConf = some given) (noBackup : host.fs resolvBackup = none)
    (safe : Allowed TunnelHost.step SafeCall (.start host) calls) : GivesBack host calls := by
  intro front reached down
  have kept : Given given (run TunnelHost.step (.start host) front) :=
    invariant_prefix (.inl ⟨inPlace, noBackup⟩) (fun _ _ kept safe => kept.step safe) safe reached
  rcases kept with ⟨conf, none⟩ | ⟨-, up⟩
  · exact ⟨conf.trans inPlace.symm, none⟩
  · exact absurd down up

def idleNet : NetState := ⟨fun _ => none, none, fun _ => false, fun _ => false⟩

def awg0 : AwgTunnel := ⟨"awg0".toList, ⟨["10.8.0.2/32".toList], ["10.8.0.1".toList]⟩, []⟩

def idleHost : VpnHost := ⟨idleNet, oneFile resolvConf "nameserver 192.168.1.1\n".toList⟩

def upAwg0 : TunnelCall := .up (.willing none []) awg0
def downAwg0 : TunnelCall := .down .willing awg0.name

theorem gives_back_up_then_down : GivesBack idleHost [upAwg0, downAwg0] := by
  have inPlace : idleHost.fs resolvConf = some (encode "nameserver 192.168.1.1\n".toList) := by
    simp [idleHost, oneFile]
  apply gives_back_of_safe idleHost _ inPlace
  · decide
  · exact ⟨fun _ _ => .inl (by decide), fun _ => ⟨rfl, rfl⟩, trivial⟩

/-- The second `tunnel_up` copies the DNS of the VPN over the backup. -/
theorem second_up_loses_resolv_conf : ¬ GivesBack idleHost [upAwg0, upAwg0, downAwg0] := by
  intro back
  have given := back [upAwg0, upAwg0, downAwg0] (List.prefix_refl _) (by decide +kernel)
  revert given
  decide +kernel

end Runs

end VpnDns

end TinyWifi
