import TinyWifi.DhcpEdits

/-! What `apply_dhcp` writes shows the settings it was given, and they hold together. -/

namespace TinyWifi

open Text Exec Checks

namespace DhcpEdits

/-- The view shows exactly these settings, and they hold together. -/
structure Shows (settings : DhcpSettings) (view : DhcpConfig) : Prop where
  gateway : view.gateway = settings.gateway
  rangeStart : view.rangeStart = settings.rangeStart
  rangeEnd : view.rangeEnd = settings.rangeEnd
  dns : view.dns = settings.dns
  leaseTime : view.leaseTime = settings.leaseTime
  valid : view.validate = .ok ()
  lasting : 0 < view.leaseTime
  ordered : view.rangeStart.toNat ≤ view.rangeEnd.toNat
  network : ∀ ip : Ipv4Addr, view.rangeStart.toNat ≤ ip.toNat → ip.toNat ≤ view.rangeEnd.toNat →
    ip.net24 = view.gateway.net24

section Dns

theorem mapM_parseDnsEntry (dns : List Ipv4Addr) :
    (dns.map Ipv4Addr.print).mapM DhcpConf.parseDnsEntry = .ok dns := by
  induction dns with
  | nil => rfl
  | cons ip rest ih =>
      rw [List.map_cons, List.mapM_cons, ih, DhcpConf.parseDnsEntry, Ipv4Addr.parse_print]
      rfl

theorem parseDns_joinDns (dns : List Ipv4Addr) :
    DhcpConf.parseDns (DhcpConf.joinDns dns) = .ok dns := by
  have plain : ∀ part ∈ dns.map Ipv4Addr.print, ',' ∉ part := by
    intro part member
    rcases List.mem_map.mp member with ⟨ip, _, rfl⟩
    exact ip.not_mem_print (by decide) (by decide)
  have trimmed : (dns.map Ipv4Addr.print).map trim = dns.map Ipv4Addr.print := by
    rw [List.map_map]
    exact List.map_congr_left fun ip _ => trim_of_trimmed ip.trimmed_print
  have filled : (dns.map Ipv4Addr.print).filter (· ≠ []) = dns.map Ipv4Addr.print := by
    rw [List.filter_eq_self]
    intro part member
    rcases List.mem_map.mp member with ⟨ip, _, rfl⟩
    exact decide_eq_true ip.print_ne_nil
  cases dns with
  | nil => decide
  | cons ip rest =>
      rw [DhcpConf.parseDns, DhcpConf.joinDns, join,
        List.splitOn_intercalate ',' plain (List.cons_ne_nil _ _), trimmed, filled,
        mapM_parseDnsEntry]

end Dns

section Carries

/-- The config has the values that the settings give to their keys. -/
structure Carries (conf : DhcpConf) (settings : DhcpSettings) : Prop where
  gateway : conf.get keyGateway = some settings.gateway.print
  rangeStart : conf.get keyRangeStart = some settings.rangeStart.print
  rangeEnd : conf.get keyRangeEnd = some settings.rangeEnd.print
  dns : conf.get keyDns = some (DhcpConf.joinDns settings.dns)
  leaseTime : conf.get keyLeaseTime = some (printNat settings.leaseTime.toNat)

variable {conf : DhcpConf} {settings : DhcpSettings}

theorem get_set_self (conf : DhcpConf) (key value : Str) :
    (conf.set key value).get key = some value := by
  rw [get_set, if_pos rfl]

theorem get_set_ne {key other : Str} (differs : other ≠ key) (conf : DhcpConf) (value : Str) :
    (conf.set key value).get other = conf.get other := by
  rw [get_set, if_neg differs]

/-- No edit of `apply_dhcp` touches the key of another one. -/
theorem carries_apply (conf : DhcpConf) (settings : DhcpSettings) :
    Carries (conf.apply settings) settings where
  gateway := by
    rw [DhcpConf.apply, get_set_ne (by decide), get_set_ne (by decide), get_set_ne (by decide),
      get_set_ne (by decide), get_set_self]
  rangeStart := by
    rw [DhcpConf.apply, get_set_ne (by decide), get_set_ne (by decide), get_set_ne (by decide),
      get_set_self]
  rangeEnd := by
    rw [DhcpConf.apply, get_set_ne (by decide), get_set_ne (by decide), get_set_self]
  dns := by rw [DhcpConf.apply, get_set_ne (by decide), get_set_self]
  leaseTime := by rw [DhcpConf.apply, get_set_self]

/-- The values that are set come back from the written file, whatever the file was. -/
theorem carries_written (text : Str) (settings : DhcpSettings) :
    Carries (DhcpConf.parse (dhcpEdited settings text)) settings := by
  have edited := carries_apply (DhcpConf.parse text) settings
  exact {
    gateway := (get_written_changed (by decide)).trans edited.gateway
    rangeStart := (get_written_changed (by decide)).trans edited.rangeStart
    rangeEnd := (get_written_changed (by decide)).trans edited.rangeEnd
    dns := (get_written_changed (by decide)).trans edited.dns
    leaseTime := (get_written_changed (by decide)).trans edited.leaseTime }

theorem parseIp_print {key : Str} {ip : Ipv4Addr} (found : conf.get key = some ip.print) :
    conf.parseIp key = .ok ip := by
  simp [DhcpConf.parseIp, DhcpConf.requireKey, found, Ipv4Addr.parse_print, bind, Except.bind]

/-- The view of the settings, with the other two fields as the file has them. -/
def viewOf (settings : DhcpSettings) (interface leasesFile : Str) : DhcpConfig :=
  ⟨interface, settings.rangeStart, settings.rangeEnd, settings.gateway, settings.dns,
    settings.leaseTime, leasesFile⟩

theorem fromConf_of_carries (carries : Carries conf settings) {interface : Str}
    (named : conf.get keyDhcpInterface = some interface) :
    DhcpConfig.fromConf conf = .ok (viewOf settings interface
      ((conf.get keyLeasesFile).getD "/var/lib/nanodhcp/leases".toList)) := by
  have leaseTime : conf.leaseTimeView = .ok settings.leaseTime := by
    have number := parseUnsigned_printNat settings.leaseTime.toNat_lt
    simp only [DhcpConf.leaseTimeView, DhcpConf.requireKey, carries.leaseTime, bind, Except.bind]
    rw [number]
    exact congrArg Except.ok UInt64.ofNat_toNat
  have interface : conf.requireKey keyDhcpInterface = .ok interface := by
    rw [DhcpConf.requireKey, named]
  have dns : conf.dnsView = .ok settings.dns := by
    rw [DhcpConf.dnsView, carries.dns]
    exact parseDns_joinDns settings.dns
  rw [DhcpConfig.fromConf, leaseTime, interface, parseIp_print carries.rangeStart,
    parseIp_print carries.rangeEnd, parseIp_print carries.gateway, dns]
  rfl

end Carries

section Valid

variable {view : DhcpConfig}

theorem errors_eq_nil (valid : view.validate = .ok ()) : view.errors = [] := by
  unfold DhcpConfig.validate at valid
  split at valid
  · assumption
  · cases valid

theorem valid_iff : view.validate = .ok () ↔
    view.leaseTime ≠ 0 ∧ view.rangeStart.toNat ≤ view.rangeEnd.toNat ∧
      view.gateway.net24 = view.rangeStart.net24 ∧ view.gateway.net24 = view.rangeEnd.net24 := by
  have none : view.errors = [] ↔ view.leaseTime ≠ 0 ∧
      view.rangeStart.toNat ≤ view.rangeEnd.toNat ∧
      view.gateway.net24 = view.rangeStart.net24 ∧ view.gateway.net24 = view.rangeEnd.net24 := by
    simp only [DhcpConfig.errors, List.append_eq_nil_iff, ite_eq_right_iff, List.cons_ne_nil,
      imp_false, gt_iff_lt, Nat.not_lt, not_or, ne_eq, Decidable.not_not, and_assoc]
  rw [← none]
  exact ⟨errors_eq_nil, fun clear => if_pos clear⟩

theorem shows_viewOf {settings : DhcpSettings} {interface leasesFile : Str}
    (valid : (viewOf settings interface leasesFile).validate = .ok ()) :
    Shows settings (viewOf settings interface leasesFile) := by
  rcases valid_iff.mp valid with ⟨lasting, ordered, start, stop⟩
  refine ⟨rfl, rfl, rfl, rfl, rfl, valid, UInt64.pos_iff_ne_zero.mpr lasting, ordered, ?_⟩
  intro ip first last
  exact (Ipv4Addr.net24_of_between (start.symm.trans stop) first last).trans start.symm

/-- The checks look at nothing but the settings. -/
theorem validate_viewOf (settings : DhcpSettings) (interface leasesFile other other' : Str) :
    (viewOf settings interface leasesFile).validate = (viewOf settings other other').validate :=
  rfl

end Valid

/-- A text that `apply_dhcp` comes to write reads back as the settings, within one network. -/
theorem dhcp_readback {env : EditEnv} {path : Path} {settings : DhcpSettings} {fs : Fs} {text : Str}
    (edited : editedDhcp env path settings fs = .ok text) :
    ∃ view, DhcpConfig.parse text = .ok view ∧ Shows settings view := by
  rcases editedDhcp_eq_ok.mp edited with ⟨content, accepted, rfl⟩
  rcases accepted.valid with ⟨checked, typed, valid⟩
  have named := (fromConf_named typed).1
  rw [fromConf_of_carries (carries_apply _ _) named, Except.ok.injEq] at typed
  rw [← typed] at valid
  have written : (DhcpConf.parse (dhcpEdited settings content)).get keyDhcpInterface =
      some (reread checked.interface) := by
    rw [get_written, named, Option.map_some]
  refine ⟨_, fromConf_of_carries (carries_written content settings) written, ?_⟩
  apply shows_viewOf
  rw [← valid]
  exact validate_viewOf ..

/-- Another network and one server, over a config with a quoted interface. -/
theorem dhcp_readback_office :
    ∃ view, DhcpConfig.parse (dhcpEdited officeSettings (confOn "\"wlan0\"")) = .ok view ∧
      Shows officeSettings view := by
  have accepted : DhcpAccepted .willing "nanodhcp.conf".toList officeSettings
      (oneFile "nanodhcp.conf".toList (confOn "\"wlan0\"")) (confOn "\"wlan0\"") :=
    ⟨contentOf_put .., rfl, ⟨officeConfig "wlan0", by decide +kernel, by decide⟩, rfl⟩
  exact dhcp_readback (editedDhcp_eq_ok.mpr ⟨_, accepted, rfl⟩)

end DhcpEdits

end TinyWifi
