import TinyWifi.Wifi

/-! What the Wi-Fi settings become when the edited config is printed and read back. -/

namespace TinyWifi

open Text HostapdConf

def wifiKeys : List Str := [keySsid, keyPassphrase, keyCountry, keyChannel]

namespace HostapdConf

/-- No Wi-Fi key has to be appended to a file without a final line feed. -/
def staysOpen (conf : HostapdConf) : Bool :=
  !conf.trailingNewline && wifiKeys.all fun key => hasLine key conf.lines

/-- The lines of the original file that have a line feed after them in the edited one. -/
def endedBefore (conf : HostapdConf) : List Line :=
  if conf.staysOpen then conf.lines.dropLast else conf.lines

section Apply

variable (conf : HostapdConf) (settings : WifiSettings)

theorem directives_apply :
    (conf.apply settings).directives =
      Directives.put keyChannel (printChannel settings.channel)
        (Directives.put keyCountry settings.countryCode
          (Directives.put keyPassphrase settings.passphrase
            (Directives.put keySsid settings.ssid conf.directives))) := by
  rw [apply, directives_set, directives_set, directives_set, directives_set]

theorem lookup_apply_ssid :
    (conf.apply settings).directives.lookup keySsid = some settings.ssid := by
  rw [directives_apply, Directives.lookup_put_ne _ _ (by decide),
    Directives.lookup_put_ne _ _ (by decide), Directives.lookup_put_ne _ _ (by decide),
    Directives.lookup_put_self]

theorem lookup_apply_passphrase :
    (conf.apply settings).directives.lookup keyPassphrase = some settings.passphrase := by
  rw [directives_apply, Directives.lookup_put_ne _ _ (by decide),
    Directives.lookup_put_ne _ _ (by decide), Directives.lookup_put_self]

theorem lookup_apply_country :
    (conf.apply settings).directives.lookup keyCountry = some settings.countryCode := by
  rw [directives_apply, Directives.lookup_put_ne _ _ (by decide), Directives.lookup_put_self]

theorem lookup_apply_channel :
    (conf.apply settings).directives.lookup keyChannel =
      some (printChannel settings.channel) := by
  rw [directives_apply, Directives.lookup_put_self]

theorem others_apply :
    Directives.others wifiKeys (conf.apply settings).directives =
      Directives.others wifiKeys conf.directives := by
  rw [directives_apply, Directives.others_put _ _ (by decide),
    Directives.others_put _ _ (by decide), Directives.others_put _ _ (by decide),
    Directives.others_put _ _ (by decide)]

theorem trailingNewline_apply :
    (conf.apply settings).trailingNewline = !conf.staysOpen := by
  have step {key : Str} (earlier value : Str) (ls : List Line) (h : key ≠ earlier) :
      hasLine key (setLine earlier value ls) = hasLine key ls := hasLine_setLine_ne h value ls
  calc (conf.apply settings).trailingNewline
      = (conf.trailingNewline || !hasLine keySsid conf.lines
          || !hasLine keyPassphrase (setLine keySsid settings.ssid conf.lines)
          || !hasLine keyCountry (setLine keyPassphrase settings.passphrase
              (setLine keySsid settings.ssid conf.lines))
          || !hasLine keyChannel (setLine keyCountry settings.countryCode
              (setLine keyPassphrase settings.passphrase
                (setLine keySsid settings.ssid conf.lines)))) := rfl
    _ = !conf.staysOpen := by
        rw [step keyCountry _ _ (by decide), step keyPassphrase _ _ (by decide),
          step keyPassphrase _ _ (by decide), step keySsid _ _ (by decide),
          step keySsid _ _ (by decide), step keySsid _ _ (by decide)]
        simp [staysOpen, wifiKeys, Bool.or_assoc]

theorem lines_apply_of_staysOpen (h : conf.staysOpen = true) :
    (conf.apply settings).lines =
      updateLine keyChannel (printChannel settings.channel)
        (updateLine keyCountry settings.countryCode
          (updateLine keyPassphrase settings.passphrase
            (updateLine keySsid settings.ssid conf.lines))) := by
  simp only [staysOpen, wifiKeys, List.all_cons, List.all_nil, Bool.and_true, Bool.and_eq_true]
    at h
  obtain ⟨-, ssid, pass, country, channel⟩ := h
  have updates {key : Str} (value : Str) {ls : List Line} (present : hasLine key ls = true) :
      setLine key value ls = updateLine key value ls := setLine_of_hasLine present value
  rw [apply, set, set, set, set]
  dsimp only
  rw [updates settings.ssid ssid,
    updates settings.passphrase ((hasLine_updateLine ..).trans pass),
    updates settings.countryCode
      ((hasLine_updateLine ..).trans ((hasLine_updateLine ..).trans country)),
    updates (printChannel settings.channel) ((hasLine_updateLine ..).trans
      ((hasLine_updateLine ..).trans ((hasLine_updateLine ..).trans channel)))]

/-- The ended lines of the edited file hold the directives that the original lines held,
up to the values of the Wi-Fi keys. -/
theorem others_endedLines_apply :
    Directives.others wifiKeys (TinyWifi.directives (conf.apply settings).endedLines) =
      Directives.others wifiKeys (TinyWifi.directives conf.endedBefore) := by
  unfold endedLines endedBefore
  rw [trailingNewline_apply]
  cases stays : conf.staysOpen with
  | false => exact others_apply conf settings
  | true =>
      simp only [Bool.not_true, Bool.false_eq_true, if_false, if_true,
        lines_apply_of_staysOpen conf settings stays, dropLast_updateLine, directives_updateLine]
      rw [Directives.others_replaceFirst _ _ (by decide),
        Directives.others_replaceFirst _ _ (by decide),
        Directives.others_replaceFirst _ _ (by decide),
        Directives.others_replaceFirst _ _ (by decide)]

theorem mem_keys_endedLines_apply {key : Str} (h : key ∈ wifiKeys) :
    key ∈ Directives.keys (TinyWifi.directives (conf.apply settings).endedLines) ↔
      (conf.staysOpen = true → hasLine key conf.endedBefore = true) := by
  unfold endedLines endedBefore
  rw [trailingNewline_apply]
  cases stays : conf.staysOpen with
  | false =>
      have present : key ∈ Directives.keys (conf.apply settings).directives := by
        simp only [wifiKeys, List.mem_cons, List.not_mem_nil, or_false] at h
        rcases h with rfl | rfl | rfl | rfl
        · exact Directives.mem_keys_of_lookup (lookup_apply_ssid conf settings)
        · exact Directives.mem_keys_of_lookup (lookup_apply_passphrase conf settings)
        · exact Directives.mem_keys_of_lookup (lookup_apply_country conf settings)
        · exact Directives.mem_keys_of_lookup (lookup_apply_channel conf settings)
      simp only [Bool.not_false, if_true, Bool.false_eq_true, false_implies, iff_true]
      exact present
  | true =>
      simp only [Bool.not_true, Bool.false_eq_true, if_false, if_true, true_implies,
        lines_apply_of_staysOpen conf settings stays, dropLast_updateLine, ← hasLine_iff,
        hasLine_updateLine]

end Apply

end HostapdConf

def writtenBack (content : Str) (settings : WifiSettings) : HostapdConf :=
  parse ((parse content).apply settings).display

/-- The settings come back exactly, and every other directive is what it was. -/
structure ReadsBack (content : Str) (settings : WifiSettings) : Prop where
  ssid : (writtenBack content settings).wifiConfig.ssid = some settings.ssid
  passphrase : (writtenBack content settings).wifiConfig.wpaPassphrase = some settings.passphrase
  country : (writtenBack content settings).wifiConfig.countryCode = some settings.countryCode
  channel : (writtenBack content settings).wifiConfig.channel = some settings.channel
  others : Directives.others wifiKeys (writtenBack content settings).directives =
    Directives.others wifiKeys (parse content).directives

/-- The directive is the last line of the edited file, and no line feed follows it. -/
def KeptOpen (content key : Str) : Prop :=
  (parse content).staysOpen = true ∧ hasLine key (parse content).endedBefore = false

/-- No value ends its own line early: none holds a line feed, and none that a line feed follows
ends in a carriage return. -/
structure LineSafe (content : Str) (settings : WifiSettings) : Prop where
  ssidLf : '\n' ∉ settings.ssid
  passphraseLf : '\n' ∉ settings.passphrase
  ssidCr : EndsCr settings.ssid → KeptOpen content keySsid
  passphraseCr : EndsCr settings.passphrase → KeptOpen content keyPassphrase
  othersCr : ∀ d ∈ Directives.others wifiKeys (directives (parse content).endedBefore),
    ¬ EndsCr d.2

section WriteBack

variable {content : Str} {settings : WifiSettings}

theorem no_lf_of_get_parse {content key value : Str}
    (h : (parse content).get key = some value) : '\n' ∉ value := by
  rw [get_eq_lookup, List.lookup_eq_some_iff] at h
  obtain ⟨front, back, shape, -⟩ := h
  have member : (key, value) ∈ (parse content).directives := by
    rw [shape]
    exact List.mem_append_right front List.mem_cons_self
  exact no_lf_of_mem_directives member

theorem parseChannel_printChannel (channel : UInt16) :
    parseChannel (printChannel channel) = some channel := by
  have small : channel.toNat < 65536 := channel.toNat_lt
  rw [parseChannel, printChannel, trim_of_trimmed (trimmed_printNat _),
    parseUnsigned_printNat small, Option.map_some, UInt16.ofNat_toNat]

theorem not_mem_country {c : Char} (valid : settings.validate = .ok ()) (h : c.isAlpha = false) :
    c ∉ settings.countryCode := by
  intro member
  have := settings.alpha_of_validate valid c member
  simp [h] at this

theorem faithful_apply (valid : settings.validate = .ok ()) (ssid : '\n' ∉ settings.ssid)
    (passphrase : '\n' ∉ settings.passphrase) :
    ((parse content).apply settings).AllFaithful := by
  have country : '\n' ∉ settings.countryCode := not_mem_country valid (by decide)
  have channel : '\n' ∉ printChannel settings.channel := not_mem_printNat (by decide)
  apply AllFaithful.set
  · apply AllFaithful.set
    · apply AllFaithful.set
      · apply AllFaithful.set
        · exact faithful_parse content
        · exact ⟨by decide, ssid, by decide, by decide, by decide⟩
      · exact ⟨by decide, passphrase, by decide, by decide, by decide⟩
    · exact ⟨by decide, country, by decide, by decide, by decide⟩
  · exact ⟨by decide, channel, by decide, by decide, by decide⟩

theorem directives_writtenBack (valid : settings.validate = .ok ()) (ssid : '\n' ∉ settings.ssid)
    (passphrase : '\n' ∉ settings.passphrase) :
    (writtenBack content settings).directives =
      ((directives ((parse content).apply settings).endedLines).map
          fun d => (d.1, stripCr d.2)) ++
        directives ((parse content).apply settings).openLines := by
  rw [writtenBack, directives_parse_display _ (faithful_apply valid ssid passphrase),
    directives_map_stripCr]

theorem directives_apply_split (conf : HostapdConf) (settings : WifiSettings) :
    directives (conf.apply settings).endedLines ++ directives (conf.apply settings).openLines =
      (conf.apply settings).directives := by
  rw [← directives_append, endedLines_append_openLines]
  rfl

/-- A Wi-Fi value comes back unless it ends in a carriage return and its line is ended. -/
theorem get_writtenBack_iff {key value : Str} (valid : settings.validate = .ok ())
    (ssid : '\n' ∉ settings.ssid) (passphrase : '\n' ∉ settings.passphrase) (h : key ∈ wifiKeys)
    (found : ((parse content).apply settings).directives.lookup key = some value) :
    (writtenBack content settings).get key = some value ↔
      (EndsCr value → KeptOpen content key) := by
  rw [get_eq_lookup, directives_writtenBack valid ssid passphrase]
  rw [← directives_apply_split] at found
  rw [Directives.lookup_map_append stripCr found, mem_keys_endedLines_apply _ _ h,
    stripCr_eq_self_iff, KeptOpen]
  cases (parse content).staysOpen <;> cases hasLine key (parse content).endedBefore <;> simp

theorem others_writtenBack_iff (valid : settings.validate = .ok ()) (ssid : '\n' ∉ settings.ssid)
    (passphrase : '\n' ∉ settings.passphrase) :
    Directives.others wifiKeys (writtenBack content settings).directives =
        Directives.others wifiKeys (parse content).directives ↔
      ∀ d ∈ Directives.others wifiKeys (directives (parse content).endedBefore),
        ¬ EndsCr d.2 := by
  rw [directives_writtenBack valid ssid passphrase, ← others_apply (parse content) settings,
    ← directives_apply_split, Directives.others_map_append, others_endedLines_apply]
  simp only [stripCr_eq_self_iff]

/-- Validated settings are safe to write exactly when no value breaks out of its line. -/
theorem readsBack_iff_lineSafe (content : Str) (settings : WifiSettings)
    (valid : settings.validate = .ok ()) :
    ReadsBack content settings ↔ LineSafe content settings := by
  have ssidKey : keySsid ∈ wifiKeys := List.mem_cons_self
  have passphraseKey : keyPassphrase ∈ wifiKeys := List.mem_cons_of_mem _ List.mem_cons_self
  constructor
  · intro back
    have ssidBack := (wifiConfig_ssid _).symm.trans back.ssid
    have passphraseBack := (wifiConfig_wpaPassphrase _).symm.trans back.passphrase
    have ssid : '\n' ∉ settings.ssid := no_lf_of_get_parse ssidBack
    have passphrase : '\n' ∉ settings.passphrase := no_lf_of_get_parse passphraseBack
    have kept (key value : Str) (h : key ∈ wifiKeys)
        (found : ((parse content).apply settings).directives.lookup key = some value)
        (same : (writtenBack content settings).get key = some value) :
        EndsCr value → KeptOpen content key :=
      (get_writtenBack_iff valid ssid passphrase h found).mp same
    exact {
      ssidLf := ssid
      passphraseLf := passphrase
      ssidCr := kept keySsid settings.ssid ssidKey (lookup_apply_ssid _ settings) ssidBack
      passphraseCr := kept keyPassphrase settings.passphrase passphraseKey
        (lookup_apply_passphrase _ settings) passphraseBack
      othersCr := (others_writtenBack_iff valid ssid passphrase).mp back.others }
  · intro safe
    have read (key value : Str) (h : key ∈ wifiKeys)
        (found : ((parse content).apply settings).directives.lookup key = some value)
        (kept : EndsCr value → KeptOpen content key) :
        (writtenBack content settings).get key = some value :=
      (get_writtenBack_iff valid safe.ssidLf safe.passphraseLf h found).mpr kept
    have country : ¬ EndsCr settings.countryCode :=
      not_endsCr_of_not_mem (not_mem_country valid (by decide))
    have channel : ¬ EndsCr (printChannel settings.channel) :=
      not_endsCr_of_not_mem (not_mem_printNat (by decide))
    have printed := read keyChannel (printChannel settings.channel) (by decide)
      (lookup_apply_channel _ _) channel.elim
    have ssid := read keySsid settings.ssid ssidKey (lookup_apply_ssid _ settings) safe.ssidCr
    have passphrase := read keyPassphrase settings.passphrase passphraseKey
      (lookup_apply_passphrase _ settings) safe.passphraseCr
    have countryCode := read keyCountry settings.countryCode (by decide)
      (lookup_apply_country _ settings) country.elim
    exact {
      ssid := (wifiConfig_ssid _).trans ssid
      passphrase := (wifiConfig_wpaPassphrase _).trans passphrase
      country := (wifiConfig_countryCode _).trans countryCode
      channel := by
        rw [wifiConfig_channel, printed, Option.bind_some, parseChannel_printChannel]
      others := (others_writtenBack_iff valid safe.ssidLf safe.passphraseLf).mpr safe.othersCr }

theorem readsBack_guest :
    ReadsBack "interface=wlan0\nssid=old\n".toList (guestSettings "correct horse".toList) :=
  (readsBack_iff_lineSafe _ _ (by decide)).mpr
    ⟨by decide, by decide, fun ends => absurd ends (by decide),
      fun ends => absurd ends (by decide), by decide⟩

/-- A line feed in an accepted passphrase adds a directive of the sender's choice. -/
theorem injected_directive :
    (guestSettings "password\nap_isolate=0".toList).validate = .ok () ∧
      ¬ ReadsBack "interface=wlan0\nssid=old\n".toList
        (guestSettings "password\nap_isolate=0".toList) := by
  refine ⟨by decide, fun back => ?_⟩
  have others := back.others
  revert others
  decide

end WriteBack

end TinyWifi
