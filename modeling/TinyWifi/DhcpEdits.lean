import TinyWifi.Nanodhcp
import TinyWifi.TrimmedLines

/-! Edits of `nanodhcp.conf`, printed and read again. The parser takes the quotes off a value and
the printer does not put them back, so a value has to stand the next reading on its own. -/

namespace TinyWifi

open Text Exec Checks

namespace DhcpEdits

inductive Edit
  | set (key value : Str)
  | append (key value : Str)
  | removeWhere (key value : Str)
  deriving DecidableEq, Repr

def Edit.key : Edit → Str
  | .set key _ | .append key _ | .removeWhere key _ => key

def Edit.value : Edit → Str
  | .set _ value | .append _ value | .removeWhere _ value => value

def Edit.apply (conf : DhcpConf) : Edit → DhcpConf
  | .set key value => conf.set key value
  | .append key value => conf.append key value
  | .removeWhere key value => conf.removeWhere key value

/-- What the parser makes of a value that is printed bare. -/
def reread (value : Str) : Str := unquote (trim value)

/-- The value reads back as it is. -/
def Stable (value : Str) : Prop := reread value = value

instance (value : Str) : Decidable (Stable value) := inferInstanceAs (Decidable (_ = _))

/-- The values of all other keys are the same after the edit is printed and parsed. -/
def Preserves (text : Str) (edit : Edit) : Prop :=
  ∀ key, key ≠ edit.key →
    (DhcpConf.parse (edit.apply (DhcpConf.parse text)).display).getAll key =
      (DhcpConf.parse text).getAll key

section Unquote

theorem unquote_subset (s : Str) : unquote s ⊆ s := by
  unfold unquote
  split
  · split
    · intro c member
      exact List.mem_cons_of_mem _ (((List.dropLast_sublist _).subset member))
    · exact List.Subset.refl _
  · exact List.Subset.refl _

theorem stable_of_plain {s : Str}
    (plain : ∀ c ∈ s, isWhitespace c = false ∧ c ≠ '\x22' ∧ c ≠ '\x27') :
    Stable s := by
  have ends : Trimmed s := trimmed_of_ink fun c member => (plain c member).1
  rw [Stable, reread, trim_of_trimmed ends]
  unfold unquote
  split
  · next q c rest =>
      have first := plain q List.mem_cons_self
      rw [if_neg]
      intro holds
      rcases holds with ⟨quote, _⟩
      rcases quote with same | same
      · exact first.2.1 same
      · exact first.2.2 same
  · rfl

end Unquote

section Reread

variable {conf : DhcpConf}

theorem parse_eq (content : Str) : DhcpConf.parse content = ⟨readTrimmed unquote content⟩ := rfl

theorem display_eq (conf : DhcpConf) : conf.display = printLines conf.lines := rfl

theorem getAll_eq (conf : DhcpConf) (key : Str) :
    conf.getAll key = Directives.values key (directives conf.lines) :=
  getLines_eq_values key conf.lines

theorem get_eq (conf : DhcpConf) (key : Str) : conf.get key = (directives conf.lines).lookup key :=
  getLine_eq_lookup key conf.lines

theorem allPrint_parse (text : Str) : AllPrint (DhcpConf.parse text).lines :=
  allPrint_readTrimmed unquote_subset text

theorem getAll_reread (h : AllPrint conf.lines) (key : Str) :
    (DhcpConf.parse conf.display).getAll key = (conf.getAll key).map reread := by
  rw [getAll_eq, getAll_eq, parse_eq, display_eq, values_reread h]
  rfl

theorem get_reread (h : AllPrint conf.lines) (key : Str) :
    (DhcpConf.parse conf.display).get key = (conf.get key).map reread := by
  rw [get_eq, get_eq, parse_eq, display_eq, lookup_reread h]
  rfl

end Reread

section Edit

variable {conf : DhcpConf} {edit : Edit}

theorem allPrint_apply (h : AllPrint conf.lines) (isKey : IsKey edit.key)
    (no_lf : '\n' ∉ edit.value) : AllPrint (edit.apply conf).lines := by
  cases edit with
  | set key value => exact h.setLine isKey no_lf
  | append key value => exact h.append isKey no_lf
  | removeWhere key value => exact h.sublist List.filter_sublist

theorem getAll_apply {key : Str} (other : key ≠ edit.key) :
    (edit.apply conf).getAll key = conf.getAll key := by
  rw [getAll_eq, getAll_eq]
  cases edit with
  | set k v =>
      rw [Edit.apply, DhcpConf.set, directives_setLine]
      exact Directives.values_put_ne k v other _
  | append k v =>
      change key ≠ k at other
      rw [Edit.apply, DhcpConf.append, directives_append, Directives.values_append,
        directives_cons_pair, Directives.values_cons_ne key v (Ne.symm other)]
      exact List.append_nil _
  | removeWhere k v =>
      rw [Edit.apply, DhcpConf.removeWhere, directives_dropWhere]
      apply Directives.values_filter
      rintro ⟨k', v'⟩ _ rfl
      exact decide_eq_true fun same => other (Prod.ext_iff.mp same).1

theorem preserves_iff_stable (text : Str) (isKey : IsKey edit.key) (no_lf : '\n' ∉ edit.value) :
    Preserves text edit ↔
      ∀ key, key ≠ edit.key → ∀ v ∈ (DhcpConf.parse text).getAll key, Stable v := by
  have printed := allPrint_apply (allPrint_parse text) isKey no_lf
  apply forall_congr'
  intro key
  apply forall_congr'
  intro other
  rw [getAll_reread printed, getAll_apply other]
  exact Decoded.map_eq_self_iff

end Edit

section View

def changes (settings : DhcpSettings) : List (Str × Str) :=
  [(keyGateway, settings.gateway.print), (keyRangeStart, settings.rangeStart.print),
    (keyRangeEnd, settings.rangeEnd.print), (keyDns, DhcpConf.joinDns settings.dns),
    (keyLeaseTime, printNat settings.leaseTime.toNat)]

def changedKeys : List Str := [keyGateway, keyRangeStart, keyRangeEnd, keyDns, keyLeaseTime]

def setAll (conf : DhcpConf) (settings : List (Str × Str)) : DhcpConf :=
  settings.foldl (fun conf change => conf.set change.1 change.2) conf

theorem apply_eq (conf : DhcpConf) (settings : DhcpSettings) :
    conf.apply settings = setAll conf (changes settings) := rfl

theorem get_set (conf : DhcpConf) (key value other : Str) :
    (conf.set key value).get other = if other = key then some value else conf.get other := by
  rw [get_eq, get_eq, DhcpConf.set, directives_setLine]
  split
  · next same => rw [same, Directives.lookup_put_self]
  · next differs => rw [Directives.lookup_put_ne key value differs]

theorem get_setAll {conf : DhcpConf} {settings : List (Str × Str)} {key value : Str}
    (found : (setAll conf settings).get key = some value) :
    (key, value) ∈ settings ∨ key ∉ Directives.keys settings := by
  induction settings using List.reverseRecOn with
  | nil => exact .inr (List.not_mem_nil)
  | append_singleton front last ih =>
      rw [setAll, List.foldl_append] at found
      rw [List.foldl_cons, List.foldl_nil, get_set] at found
      by_cases same : key = last.1
      · rw [if_pos same, Option.some_inj] at found
        refine .inl (List.mem_append_right _ (List.mem_singleton.mpr ?_))
        exact Prod.ext same found.symm
      · rw [if_neg same] at found
        rcases ih found with member | absent
        · exact .inl (List.mem_append_left _ member)
        · refine .inr ?_
          simpa [Directives.keys, same] using absent

theorem get_setAll_ne {conf : DhcpConf} {settings : List (Str × Str)} {key : Str}
    (absent : key ∉ Directives.keys settings) : (setAll conf settings).get key = conf.get key := by
  induction settings generalizing conf with
  | nil => rfl
  | cons change rest ih =>
      rw [Directives.keys, List.map_cons, List.mem_cons, not_or] at absent
      have first : (conf.set change.1 change.2).get key = conf.get key := by
        rw [get_set, if_neg absent.1]
      rw [← first]
      exact ih absent.2

theorem plain_of_digit {c : Char} (digit : c.isDigit) :
    isWhitespace c = false ∧ c ≠ '\x22' ∧ c ≠ '\x27' := by
  refine ⟨isDigit_not_whitespace digit, ?_, ?_⟩
  · rintro rfl
    exact absurd digit (by decide)
  · rintro rfl
    exact absurd digit (by decide)

theorem plain_of_mem_print {ip : Ipv4Addr} {c : Char} (member : c ∈ ip.print) :
    isWhitespace c = false ∧ c ≠ '\x22' ∧ c ≠ '\x27' := by
  rcases Ipv4Addr.digit_or_dot_of_mem_print member with digit | rfl
  · exact plain_of_digit digit
  · decide

theorem plain_changes (settings : DhcpSettings) :
    ∀ change ∈ changes settings, ∀ c ∈ change.2,
      isWhitespace c = false ∧ c ≠ '\x22' ∧ c ≠ '\x27' := by
  intro change member c inside
  simp only [changes, List.mem_cons, List.not_mem_nil, or_false] at member
  rcases member with rfl | rfl | rfl | rfl | rfl
  · exact plain_of_mem_print inside
  · exact plain_of_mem_print inside
  · exact plain_of_mem_print inside
  · rcases mem_join inside with rfl | ⟨part, listed, inner⟩
    · decide
    · rcases List.mem_map.mp listed with ⟨ip, _, rfl⟩
      exact plain_of_mem_print inner
  · exact plain_of_digit (isDigit_of_mem_printNat inside)

theorem stable_changes (settings : DhcpSettings) :
    ∀ change ∈ changes settings, Stable change.2 :=
  fun change member => stable_of_plain (plain_changes settings change member)

def viewKeys : List Str :=
  [keyDhcpInterface, keyRangeStart, keyRangeEnd, keyGateway, keyDns, keyLeaseTime, keyLeasesFile]

theorem fromConf_congr {conf other : DhcpConf}
    (same : ∀ key ∈ viewKeys, conf.get key = other.get key) :
    DhcpConfig.fromConf conf = DhcpConfig.fromConf other := by
  have interface := same keyDhcpInterface (by decide)
  have rangeStart := same keyRangeStart (by decide)
  have rangeEnd := same keyRangeEnd (by decide)
  have gateway := same keyGateway (by decide)
  have dns := same keyDns (by decide)
  have leaseTime := same keyLeaseTime (by decide)
  have leasesFile := same keyLeasesFile (by decide)
  simp only [DhcpConfig.fromConf, DhcpConf.leaseTimeView, DhcpConf.parseIp, DhcpConf.dnsView,
    DhcpConf.requireKey, interface, rangeStart, rangeEnd, gateway, dns, leaseTime, leasesFile]

theorem fromConf_named {conf : DhcpConf} {view : DhcpConfig}
    (typed : DhcpConfig.fromConf conf = .ok view) :
    conf.get keyDhcpInterface = some view.interface ∧
      view.leasesFile = (conf.get keyLeasesFile).getD "/var/lib/nanodhcp/leases".toList := by
  simp only [DhcpConfig.fromConf, bind_eq_ok, pure_eq_ok] at typed
  rcases typed with ⟨_, -, interface, named, _, -, _, -, _, -, _, -, rfl⟩
  refine ⟨?_, rfl⟩
  unfold DhcpConf.requireKey at named
  split at named
  · next value found => rw [found, ← Except.ok.inj named]
  · cases named

variable {text : Str} {settings : DhcpSettings} {view : DhcpConfig}

theorem allPrint_setAll {conf : DhcpConf} (h : AllPrint conf.lines) {changed : List (Str × Str)}
    (valid : ∀ change ∈ changed, IsKey change.1 ∧ '\n' ∉ change.2) :
    AllPrint (setAll conf changed).lines := by
  induction changed generalizing conf with
  | nil => exact h
  | cons change rest ih =>
      have first := valid change List.mem_cons_self
      apply ih
      · exact h.setLine first.1 first.2
      · exact fun later member => valid later (List.mem_cons_of_mem _ member)

theorem valid_changes (settings : DhcpSettings) :
    ∀ change ∈ changes settings, IsKey change.1 ∧ '\n' ∉ change.2 := by
  intro change member
  constructor
  · have keys : ∀ key ∈ changedKeys, IsKey key := by decide
    exact keys change.1 (List.mem_map_of_mem member)
  · intro inside
    have white := (plain_changes settings change member '\n' inside).1
    exact absurd white (by decide)

theorem get_written (key : Str) :
    (DhcpConf.parse (dhcpEdited settings text)).get key =
      (((DhcpConf.parse text).apply settings).get key).map reread := by
  apply get_reread
  rw [apply_eq]
  exact allPrint_setAll (allPrint_parse text) (valid_changes settings)

theorem get_written_of_stable {key : Str}
    (stable : ∀ v ∈ (DhcpConf.parse text).get key, Stable v) :
    (DhcpConf.parse (dhcpEdited settings text)).get key =
      ((DhcpConf.parse text).apply settings).get key := by
  rw [get_written]
  cases found : ((DhcpConf.parse text).apply settings).get key with
  | none => rfl
  | some v =>
      have same : Stable v := by
        rw [apply_eq] at found
        rcases get_setAll found with member | absent
        · exact stable_changes settings _ member
        · rw [get_setAll_ne absent] at found
          exact stable v found
      exact congrArg some same

/-- The keys of the view that `apply_dhcp` sets need nothing of the file. -/
theorem get_written_changed {key : Str} (changed : key ∈ changedKeys) :
    (DhcpConf.parse (dhcpEdited settings text)).get key =
      ((DhcpConf.parse text).apply settings).get key := by
  rw [get_written]
  cases found : ((DhcpConf.parse text).apply settings).get key with
  | none => rfl
  | some v =>
      rw [apply_eq] at found
      rcases get_setAll found with member | absent
      · exact congrArg some (stable_changes settings _ member)
      · exact absurd changed absent

theorem parse_written_iff
    (typed : DhcpConfig.fromConf ((DhcpConf.parse text).apply settings) = .ok view) :
    DhcpConfig.parse (dhcpEdited settings text) = .ok view ↔
      (∀ v ∈ (DhcpConf.parse text).get keyDhcpInterface, Stable v) ∧
        ∀ v ∈ (DhcpConf.parse text).get keyLeasesFile, Stable v := by
  have kept (key : Str) (absent : key ∉ changedKeys) :
      (DhcpConf.parse text).get key = ((DhcpConf.parse text).apply settings).get key := by
    rw [apply_eq, get_setAll_ne absent]
  have interface := kept keyDhcpInterface (by decide)
  have leasesFile := kept keyLeasesFile (by decide)
  have before := fromConf_named typed
  constructor
  · intro written
    have after := fromConf_named written
    rw [get_written, get_written] at after
    constructor
    · intro v found
      rw [interface, before.1, Option.mem_some_iff] at found
      subst found
      rw [before.1, Option.map_some, Option.some_inj] at after
      exact after.1
    · intro v found
      rw [leasesFile, Option.mem_def] at found
      have here := before.2.symm.trans after.2
      rw [found, Option.map_some, Option.getD_some, Option.getD_some] at here
      exact here.symm
  · intro holds
    rcases holds with ⟨interface_stable, leasesFile_stable⟩
    rw [← typed, DhcpConfig.parse]
    apply fromConf_congr
    intro key member
    have kinds : ∀ key ∈ viewKeys,
        key ∈ changedKeys ∨ key = keyDhcpInterface ∨ key = keyLeasesFile := by decide
    rcases kinds key member with changed | rfl | rfl
    · exact get_written_changed changed
    · exact get_written_of_stable interface_stable
    · exact get_written_of_stable leasesFile_stable

end View

/-- An edit keeps the values of the other keys, and the view that is validated is the one that is
read from the written file, exactly where the values in question read back as they are. -/
theorem edit_preserves_iff (text : Str) :
    (∀ edit : Edit, IsKey edit.key → '\n' ∉ edit.value →
      (Preserves text edit ↔
        ∀ key, key ≠ edit.key → ∀ v ∈ (DhcpConf.parse text).getAll key, Stable v)) ∧
    ∀ (settings : DhcpSettings) (view : DhcpConfig),
      DhcpConfig.fromConf ((DhcpConf.parse text).apply settings) = .ok view →
      (DhcpConfig.parse (dhcpEdited settings text) = .ok view ↔
        (∀ v ∈ (DhcpConf.parse text).get keyDhcpInterface, Stable v) ∧
          ∀ v ∈ (DhcpConf.parse text).get keyLeasesFile, Stable v) :=
  ⟨fun _ isKey no_lf => preserves_iff_stable text isKey no_lf,
    fun _ _ typed => parse_written_iff typed⟩

def confOn (interface : String) : Str :=
  ("interface=" ++ interface ++ "\npool_start=192.168.1.10\npool_end=192.168.1.20\n" ++
    "router = '192.168.1.1'\nlease_time=600\n").toList

def officeSettings : DhcpSettings :=
  ⟨⟨192, 168, 2, 1⟩, ⟨192, 168, 2, 10⟩, ⟨192, 168, 2, 20⟩, [⟨1, 1, 1, 1⟩], 3600⟩

def officeConfig (interface : String) : DhcpConfig :=
  ⟨interface.toList, ⟨192, 168, 2, 10⟩, ⟨192, 168, 2, 20⟩, ⟨192, 168, 2, 1⟩, [⟨1, 1, 1, 1⟩], 3600,
    "/var/lib/nanodhcp/leases".toList⟩

/-- Plain quotes are no harm. -/
theorem edit_preserves_quoted :
    Preserves (confOn "\"wlan0\"") (.append keyStatic "tv,aa:bb:cc:dd:ee:ff,192.168.1.5".toList) ∧
      DhcpConfig.parse (dhcpEdited officeSettings (confOn "\"wlan0\"")) =
        .ok (officeConfig "wlan0") := by
  have typed : DhcpConfig.fromConf
      ((DhcpConf.parse (confOn "\"wlan0\"")).apply officeSettings) =
        .ok (officeConfig "wlan0") := by decide +kernel
  have stable : ∀ d ∈ directives (DhcpConf.parse (confOn "\"wlan0\"")).lines, Stable d.2 := by
    decide +kernel
  have both := edit_preserves_iff (confOn "\"wlan0\"")
  constructor
  · apply (both.1 (.append keyStatic "tv,aa:bb:cc:dd:ee:ff,192.168.1.5".toList) (by decide)
      (by decide)).mpr
    intro key _ v member
    rw [getAll_eq] at member
    rcases List.mem_map.mp member with ⟨d, inside, rfl⟩
    exact stable d (List.mem_of_mem_filter inside)
  · apply (both.2 _ _ typed).mpr
    decide +kernel

/-- Blanks inside quotes are lost: the interface that is validated is not the one that is
written. -/
theorem quoted_blanks_lost :
    ¬ Preserves (confOn "\" wlan0\"") (.set keyGateway "192.168.2.1".toList) ∧
      DhcpConfig.fromConf ((DhcpConf.parse (confOn "\" wlan0\"")).apply officeSettings) =
        .ok (officeConfig " wlan0") ∧
      DhcpConfig.parse (dhcpEdited officeSettings (confOn "\" wlan0\"")) =
        .ok (officeConfig "wlan0") := by
  refine ⟨?_, by decide +kernel, by decide +kernel⟩
  intro preserves
  have same := preserves keyDhcpInterface (by decide)
  revert same
  decide +kernel

end DhcpEdits

end TinyWifi
