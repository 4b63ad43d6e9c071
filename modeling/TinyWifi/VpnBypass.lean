import TinyWifi.Lib.Runs
import TinyWifi.TunnelFrames

/-! Whether the bypass routes are taken back: one saved state for all tunnels. -/

namespace TinyWifi

open Text Exec Runs

namespace VpnBypass

def savedRoutes (fs : Fs) : List Str :=
  match VpnRouteState.load true fs with
  | none => []
  | some state => state.bypassIps

/-- `tunnel_up` up to the bypass routes. -/
def connect (env : TunnelUpEnv) (tunnel : AwgTunnel) : Exec VpnHost Str Unit := do
  bringUpInterface env tunnel
  writeDns env tunnel.iface.dns
  setupPolicyRouting env tunnel.name

theorem tunnelUp_eq (env : TunnelUpEnv) (tunnel : AwgTunnel) :
    tunnelUp env tunnel = connect env tunnel >>= fun _ => applyBypassRoutesIfNeeded env tunnel := by
  simp only [tunnelUp, connect, bind_assoc]

/-- A call that gets to adding bypass routes finds none saved and can save its own; one that takes
the saved routes of its tunnel out can do so. -/
def SafeCall (st : TunnelHost) : TunnelCall → Prop
  | .up env tunnel =>
    (outcome (connect env tunnel) st.host).1 = .ok () → tunnel.isFullTunnel = true →
      (readDefault env.mainDefault).isSome = true →
        savedRoutes st.host.fs = [] ∧ env.saveState = .done
  | .down env name =>
    ∀ state, VpnRouteState.load true st.host.fs = some state → state.tunnelName = name →
      state.bypassIps ≠ [] →
        env.stateReadable = true ∧ (∀ i < state.bypassIps.length, env.delBypass i = .accepted) ∧
          env.removeState = .ok ()

/-- The main table is the initial one and the saved routes, which are new and belong to a tunnel
that is not down. -/
structure Accounted (initial : Str → Bool) (st : TunnelHost) : Prop where
  main : ∀ d, st.host.net.main d = (initial d || (savedRoutes st.host.fs).contains d)
  new : ∀ d ∈ savedRoutes st.host.fs, initial d = false
  owner : ∀ state, VpnRouteState.load true st.host.fs = some state → state.bypassIps ≠ [] →
    state.tunnelName ∈ st.outstanding

section Reading

theorem readRoute_all {P : Str → Prop} (empty : P []) {words : List Str}
    (all : ∀ word ∈ words, P word) {route : Str × Str} (gw : P route.1) (dev : P route.2) :
    P (readRoute words route).1 ∧ P (readRoute words route).2 := by
  induction words generalizing route with
  | nil => exact ⟨gw, dev⟩
  | cons word rest ih =>
      have next : P (rest.headD []) := by
        cases rest with
        | nil => exact empty
        | cons first more => exact all first (by simp)
      apply ih fun other member => all other (List.mem_cons_of_mem _ member)
      · dsimp only
        split
        · exact next
        · exact gw
      · dsimp only
        split
        · exact next
        · exact dev

theorem oneLine_readDefault {shown : Option Str} {gw dev : Str}
    (h : readDefault shown = some (gw, dev)) :
    VpnRouteState.OneLine gw ∧ VpnRouteState.OneLine dev := by
  simp only [readDefault, Option.bind_eq_bind, Option.bind_eq_some_iff] at h
  obtain ⟨text, -, line, -, route⟩ := h
  have all (word : Str) (member : word ∈ splitWhitespace line) : VpnRouteState.OneLine word :=
    VpnRouteState.oneLine_of_not_whitespace fun c inner =>
      not_whitespace_of_mem_splitWhitespace member inner
  have nil : VpnRouteState.OneLine [] := ⟨List.not_mem_nil, List.not_mem_nil⟩
  have both := readRoute_all nil all (show VpnRouteState.OneLine (([], []) : Str × Str).1 from nil)
    (show VpnRouteState.OneLine (([], []) : Str × Str).2 from nil)
  split at route
  · cases route
  · obtain ⟨rfl, rfl⟩ := Prod.mk.inj (Option.some_inj.mp route)
    exact both

end Reading

section Frames

theorem load_congr {fs fs' : Fs} (same : fs' vpnRouteStatePath = fs vpnRouteStatePath)
    (readable : Bool) : VpnRouteState.load readable fs' = VpnRouteState.load readable fs := by
  rw [VpnRouteState.load, VpnRouteState.load, contentOf, contentOf, same]

theorem vpnRouteStatePath_ne_tmpConfPath (name : Str) : vpnRouteStatePath ≠ tmpConfPath name := by
  intro same
  have conf : ".conf".toList.getLast? = some 'f' := by decide
  have last : (tmpConfPath name).getLast? = some 'f' := by
    unfold tmpConfPath
    rw [List.getLast?_append, conf, Option.some_or]
  rw [← same] at last
  exact absurd last (by decide)

theorem connect_keeps (env : TunnelUpEnv) (tunnel : AwgTunnel) (host : VpnHost) :
    (outcome (connect env tunnel) host).2.net.main = host.net.main ∧
      (outcome (connect env tunnel) host).2.fs vpnRouteStatePath = host.fs vpnRouteStatePath := by
  have kept : Within (Keeps [tmpConfPath tunnel.name, resolvConf, resolvBackup])
      (connect env tunnel) := by
    apply within_bind Keeps.trans
    · exact within_keeps_mono (keeps_bringUpInterface _ _) (by simp)
    · intro _
      apply within_bind Keeps.trans
      · exact within_keeps_mono (keeps_writeDns _ _) (by simp)
      · exact fun _ => within_keeps_mono (keeps_setupPolicyRouting _ _) (List.nil_subset _)
  refine ⟨(kept host).main, (kept host).fs _ ?_⟩
  simp only [List.mem_cons, List.not_mem_nil, or_false, not_or]
  exact ⟨vpnRouteStatePath_ne_tmpConfPath _, by decide, by decide⟩

theorem devValidName_of_connect {env : TunnelUpEnv} {tunnel : AwgTunnel} {host routed : VpnHost}
    (h : outcome (connect env tunnel) host = (.ok (), routed)) :
    NetState.devValidName tunnel.name = true := by
  obtain ⟨_, up, -, rest⟩ := outcome_bind_ok.mp h
  obtain ⟨_, switched, -, routing⟩ := outcome_bind_ok.mp rest
  have link := (setupPolicyRouting_ok routing).1
  rw [NetState.hasLink, Bool.and_eq_true] at link
  exact link.1

theorem oneLine_of_devValidName {name : Str} (h : NetState.devValidName name = true) :
    name ≠ [] ∧ VpnRouteState.OneLine name := by
  simp only [NetState.devValidName, Bool.and_eq_true, decide_eq_true_eq, List.all_eq_true] at h
  obtain ⟨⟨⟨⟨nonempty, -⟩, -⟩, -⟩, all⟩ := h
  refine ⟨by simpa using nonempty, VpnRouteState.oneLine_of_not_whitespace fun c member => ?_⟩
  simpa using (all c member).2

end Frames

section Steps

variable {initial : Str → Bool} {st : TunnelHost}

theorem Accounted.of_same {host : VpnHost} {outstanding : List Str}
    (accounted : Accounted initial st) (main : host.net.main = st.host.net.main)
    (state : host.fs vpnRouteStatePath = st.host.fs vpnRouteStatePath)
    (kept : ∀ state, VpnRouteState.load true st.host.fs = some state → state.bypassIps ≠ [] →
      state.tunnelName ∈ outstanding) : Accounted initial ⟨host, outstanding⟩ := by
  have loaded := load_congr state true
  have saved : savedRoutes host.fs = savedRoutes st.host.fs := by
    rw [savedRoutes, savedRoutes, loaded]
  constructor
  · intro d
    rw [saved, main]
    exact accounted.main d
  · intro d member
    rw [saved] at member
    exact accounted.new d member
  · intro state found
    rw [loaded] at found
    exact kept state found

theorem outcome_dropBypassRoutes_other {env : TunnelDownEnv} {name : Str} {host : VpnHost}
    (other : ∀ state, VpnRouteState.load env.stateReadable host.fs = some state →
      state.tunnelName ≠ name) : outcome (dropBypassRoutes env name) host = (.ok (), host) := by
  rw [dropBypassRoutes, outcome_bind, outcome_get]
  dsimp only
  split
  · rfl
  · next state loaded =>
      rw [if_neg (other state loaded)]
      rfl

theorem outcome_dropBypassRoutes_own {env : TunnelDownEnv} {name : Str} {host : VpnHost}
    {state : VpnRouteState} (loaded : VpnRouteState.load env.stateReadable host.fs = some state)
    (own : state.tunnelName = name)
    (accepted : ∀ i < state.bypassIps.length, env.delBypass i = .accepted) :
    ∃ dropped, outcome (dropBypassRoutes env name) host = (.ok (), dropped) ∧
      dropped.fs = (outcome (removeFileAs env.removeState vpnRouteStatePath) host.fs).2 ∧
      ∀ d, dropped.net.main d = (host.net.main d && !state.bypassIps.contains d) := by
  obtain ⟨after, done, files, gone⟩ := outcome_delBypassRoutes env.delBypass state.bypassIps host
  rw [dropBypassRoutes, outcome_bind, outcome_get]
  dsimp only
  rw [loaded]
  dsimp only
  rw [if_pos own, outcome_bind, done]
  dsimp only
  rw [outcome_attempt, outcome_onFiles, files]
  exact ⟨_, rfl, rfl, gone accepted⟩

theorem savedRoutes_of_load {fs : Fs} {state : VpnRouteState}
    (loaded : VpnRouteState.load true fs = some state) : savedRoutes fs = state.bypassIps := by
  rw [savedRoutes, loaded]

theorem savedRoutes_of_load_none {fs : Fs} (loaded : VpnRouteState.load true fs = none) :
    savedRoutes fs = [] := by
  rw [savedRoutes, loaded]

theorem load_removed (fs : Fs) :
    VpnRouteState.load true (outcome (removeFileAs (.ok ()) vpnRouteStatePath) fs).2 = none := by
  rw [removeFileAs, removeFile_erases, VpnRouteState.load, if_pos rfl, contentOf, erase_self]
  rfl

theorem Accounted.drop {env : TunnelDownEnv} {name : Str} (accounted : Accounted initial st)
    (safe : SafeCall st (.down env name)) :
    Accounted initial
      ⟨(outcome (dropBypassRoutes env name) st.host).2, st.outstanding.filter (· ≠ name)⟩ := by
  by_cases own : ∃ state, VpnRouteState.load env.stateReadable st.host.fs = some state ∧
      state.tunnelName = name
  · obtain ⟨state, loaded, named⟩ := own
    have readable : env.stateReadable = true := by
      by_contra unreadable
      rw [VpnRouteState.load, if_neg unreadable] at loaded
      cases loaded
    have found := readable ▸ loaded
    have saved := savedRoutes_of_load found
    have accepted (i : Nat) (bound : i < state.bypassIps.length) :
        env.delBypass i = .accepted := by
      have some : state.bypassIps ≠ [] := List.ne_nil_of_length_pos (Nat.zero_lt_of_lt bound)
      exact (safe state found named some).2.1 i bound
    obtain ⟨dropped, done, files, main⟩ := outcome_dropBypassRoutes_own loaded named accepted
    rw [done]
    have back (d : Str) : dropped.net.main d = initial d := by
      rw [main, accounted.main, saved]
      cases listed : state.bypassIps.contains d with
      | false => simp
      | true =>
          have new := accounted.new d (by rw [saved]; exact List.contains_iff_mem.mp listed)
          simp [new]
    have none : savedRoutes dropped.fs = [] := by
      rw [files]
      cases removed : env.removeState with
      | ok u => exact savedRoutes_of_load_none (load_removed _)
      | error e =>
          have empty : state.bypassIps = [] := by
            by_contra some
            cases removed.symm.trans (safe state found named some).2.2
          exact saved.trans empty
    constructor
    · intro d
      rw [none, back d]
      simp
    · intro d member
      rw [none] at member
      cases member
    · intro other later some
      rw [savedRoutes_of_load later] at none
      exact absurd none some
  · have other (state : VpnRouteState)
        (loaded : VpnRouteState.load env.stateReadable st.host.fs = some state) :
        state.tunnelName ≠ name := fun named => own ⟨state, loaded, named⟩
    rw [outcome_dropBypassRoutes_other other]
    refine accounted.of_same rfl rfl fun state found some => ?_
    apply List.mem_filter.mpr
    refine ⟨accounted.owner state found some, ?_⟩
    have apart : state.tunnelName ≠ name := by
      intro named
      have readable := (safe state found named some).1
      exact other state (readable ▸ found) named
    simpa using apart

theorem Accounted.down {env : TunnelDownEnv} {name : Str} (accounted : Accounted initial st)
    (safe : SafeCall st (.down env name)) : Accounted initial (st.step (.down env name)) := by
  have dropped := accounted.drop safe
  obtain ⟨middle, kept, ended⟩ := outcome_tunnelDown env name st.host
  have restored := keeps_restoreDns env middle
  rw [← ended] at restored
  apply dropped.of_same
  · exact restored.main.trans kept.main
  · exact (restored.fs _ (by decide)).trans (kept.fs _ List.not_mem_nil)
  · exact dropped.owner

theorem Accounted.apply {env : TunnelUpEnv} {tunnel : AwgTunnel} {routed : VpnHost}
    {outstanding : List Str} (accounted : Accounted initial ⟨routed, outstanding⟩)
    (mine : tunnel.name ∈ outstanding) (valid : NetState.devValidName tunnel.name = true)
    (safe : tunnel.isFullTunnel = true → (readDefault env.mainDefault).isSome = true →
      savedRoutes routed.fs = [] ∧ env.saveState = .done) :
    Accounted initial
      ⟨(outcome (applyBypassRoutesIfNeeded env tunnel) routed).2, outstanding⟩ := by
  unfold applyBypassRoutesIfNeeded
  by_cases full : tunnel.isFullTunnel = true
  · rw [if_pos full]
    cases shown : readDefault env.mainDefault with
    | none => exact accounted
    | some route =>
        obtain ⟨unsaved, saves⟩ := safe full (by rw [shown]; rfl)
        obtain ⟨gw, dev⟩ := route
        obtain ⟨gwLine, devLine⟩ := oneLine_readDefault shown
        obtain ⟨named, nameLine⟩ := oneLine_of_devValidName valid
        obtain ⟨applied, after, done, files, main, new⟩ := outcome_addBypassRoutes env.addBypass
          (loadBypassList env.bypassList) routed
        dsimp only
        rw [outcome_bind, done]
        dsimp only
        rw [VpnRouteState.save, outcome_attempt, outcome_onFiles, saves, outcome_writeFile_done]
        have loaded : VpnRouteState.load true (put vpnRouteStatePath
            (encode (VpnRouteState.mk tunnel.name gw dev [] applied true).content) after.fs) =
            some ⟨tunnel.name, gw, dev, [], applied, true⟩ := by
          rw [VpnRouteState.load, if_pos rfl, contentOf, put_self, Option.bind_some, decode_encode,
            Option.bind_some]
          exact VpnRouteState.parse_content named nameLine gwLine devLine
            (fun d member => absurd member List.not_mem_nil) fun d member => (new d member).1
        have before (d : Str) : routed.net.main d = initial d := by
          rw [accounted.main, unsaved]
          simp
        have saved := savedRoutes_of_load loaded
        dsimp only at saved
        constructor
        · intro d
          dsimp only
          rw [saved, main, before]
        · intro d member
          rw [saved] at member
          exact (before d).symm.trans (new d member).2
        · intro state found some
          obtain rfl := Option.some_inj.mp (loaded.symm.trans found)
          exact mine
  · rw [if_neg full]
    exact accounted

theorem Accounted.up {env : TunnelUpEnv} {tunnel : AwgTunnel} (accounted : Accounted initial st)
    (safe : SafeCall st (.up env tunnel)) : Accounted initial (st.step (.up env tunnel)) := by
  obtain ⟨main, state⟩ := connect_keeps env tunnel st.host
  have connected : Accounted initial
      ⟨(outcome (connect env tunnel) st.host).2, tunnel.name :: st.outstanding⟩ :=
    accounted.of_same main state fun state found some =>
      List.mem_cons_of_mem _ (accounted.owner state found some)
  rw [TunnelHost.step, tunnelUp_eq, outcome_bind]
  rcases reached : outcome (connect env tunnel) st.host with ⟨e | u, routed⟩
  · rw [reached] at connected
    exact connected
  · rw [reached] at connected state
    apply connected.apply List.mem_cons_self (devValidName_of_connect reached)
    intro full shown
    have unsaved := safe (by rw [reached]) full shown
    rwa [savedRoutes, load_congr state true]

theorem Accounted.step {call : TunnelCall} (accounted : Accounted initial st)
    (safe : SafeCall st call) : Accounted initial (st.step call) := by
  cases call with
  | up env tunnel => exact accounted.up safe
  | down env name => exact accounted.down safe

end Steps

section Runs

/-- Whenever every tunnel is down again, the main table is the one there was at first. -/
def LeavesNoRoute (host : VpnHost) (calls : List TunnelCall) : Prop :=
  ∀ front, front <+: calls → (run TunnelHost.step (.start host) front).outstanding = [] →
    (run TunnelHost.step (.start host) front).host.net.main = host.net.main

theorem leaves_no_route_of_safe (host : VpnHost) (calls : List TunnelCall)
    (unsaved : savedRoutes host.fs = [])
    (safe : Allowed TunnelHost.step SafeCall (.start host) calls) : LeavesNoRoute host calls := by
  intro front reached down
  have start : Accounted host.net.main (.start host) := by
    constructor
    · intro d
      rw [TunnelHost.start, unsaved]
      simp
    · intro d member
      rw [TunnelHost.start, unsaved] at member
      cases member
    · intro state found some
      exact absurd ((savedRoutes_of_load found).symm.trans unsaved) some
  have accounted : Accounted host.net.main (run TunnelHost.step (.start host) front) :=
    invariant_prefix start (fun _ _ accounted safe => accounted.step safe) safe reached
  have none : savedRoutes (run TunnelHost.step (.start host) front).host.fs = [] := by
    rw [savedRoutes]
    split
    · rfl
    · next state found =>
        by_contra some
        have owner := accounted.owner state found some
        rw [down] at owner
        cases owner
  funext d
  rw [accounted.main, none]
  simp

def lanHost : VpnHost :=
  ⟨⟨fun _ => none, none, fun _ => false, fun dest => dest = "192.168.1.0/24".toList⟩, fun _ => none⟩

def fullAwg0 : AwgTunnel := ⟨"awg0".toList, ⟨[], []⟩, [⟨["0.0.0.0/0".toList]⟩]⟩

def upFull : TunnelCall :=
  .up (.willing (some "default via 192.168.1.1 dev eth0\n".toList) "203.0.113.7\n".toList) fullAwg0

def downFull : TunnelCall := .down .willing fullAwg0.name

theorem leaves_no_route_up_then_down : LeavesNoRoute lanHost [upFull, downFull] := by
  apply leaves_no_route_of_safe lanHost
  · decide
  · refine ⟨fun _ _ _ => ⟨by decide, rfl⟩, ?_, trivial⟩
    exact fun _ _ _ _ => ⟨rfl, fun _ _ => rfl, rfl⟩

/-- The second `tunnel_up` cannot add the route again, and saves that it has added none. -/
theorem second_up_leaks_route : ¬ LeavesNoRoute lanHost [upFull, upFull, downFull] := by
  intro restored
  have table := restored [upFull, upFull, downFull] (List.prefix_refl _) (by decide +kernel)
  have route := congrFun table "203.0.113.7".toList
  revert route
  decide +kernel

end Runs

end VpnBypass

end TinyWifi
