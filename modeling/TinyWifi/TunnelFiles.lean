import TinyWifi.TunnelFrames
import TinyWifi.TunnelStore

/-! The files of the tunnels: their paths, which of them bringing tunnels up and down leaves alone,
and what a scan sees of them. -/

namespace TinyWifi

open Text Exec Checks AwgImport

namespace TunnelStore

/-- A name for one entry of a directory. -/
def plain (name : Str) : Bool := name ≠ [] && name.all (· ≠ '/')

def confExtension : Str := ".conf".toList

def confPath (name : Str) : Path := awgConfDir ++ '/' :: (name ++ confExtension)

/-- The tunnels that the files stand for. -/
def tunnels (fs : Fs) : Tunnels where
  confs name := if plain name then contentOf fs (confPath name) else none
  autostart := getAutostart (readToString fs vpnAutostartPath)

def ScanEnv.Directory (scan : ScanEnv) : Prop :=
  ∀ files, scan.entries = .ok files → ∀ file ∈ files, plain file = true

/-- The directory is read in full, and so are its files. -/
structure ScanEnv.Honest (scan : ScanEnv) (fs : Fs) : Prop where
  reads : ∀ path, scan.reads path = .ok ()
  nodup : ∀ files, scan.entries = .ok files → files.Nodup
  directory : scan.Directory
  all : ∀ file, plain file = true → (fs (awgConfDir ++ '/' :: file)).isSome →
    ∃ files, scan.entries = .ok files ∧ file ∈ files

/-- A letter or a digit stands for itself in a file name and is no white space. -/
def Alphabet (env : ImportEnv) : Prop :=
  ∀ c, env.isAlphanumeric c = true → c ≠ '/' ∧ isWhitespace c = false

section Paths

theorem plain_iff {name : Str} : plain name = true ↔ name ≠ [] ∧ '/' ∉ name := by
  rw [plain, Bool.and_eq_true, decide_eq_true_iff, List.all_eq_true]
  refine and_congr_right fun _ => ⟨fun all member => ?_, fun free c member => ?_⟩
  · exact absurd (all '/' member) (by decide)
  · exact decide_eq_true fun same => free (same ▸ member)

theorem joinPath_plain {file : Str} (h : plain file = true) :
    TinyWifi.joinPath awgConfDir file = awgConfDir ++ '/' :: file := by
  have relative : file.head? ≠ some '/' := by
    intro root
    exact (plain_iff.mp h).2 (List.mem_of_head? root)
  rw [TinyWifi.joinPath, if_neg relative, if_neg (by decide)]

theorem plain_conf {name : Str} (free : '/' ∉ name) : plain (name ++ confExtension) = true := by
  refine plain_iff.mpr ⟨by simp [confExtension], fun member => ?_⟩
  rcases List.mem_append.mp member with inside | outside
  · exact free inside
  · exact absurd outside (by decide)

theorem confPath_inj {name other : Str} (same : confPath name = confPath other) : name = other := by
  have tails := List.append_cancel_left same
  exact List.append_cancel_right (List.cons.inj tails).2

theorem confPath_take (name : Str) : (confPath name).take 6 = "/etc/a".toList := rfl

theorem confPath_ne {path : Path} (h : path.take 6 ≠ "/etc/a".toList) (name : Str) :
    confPath name ≠ path := by
  rintro rfl
  exact h (confPath_take name)

theorem tmpConfPath_take (name : Str) : (tmpConfPath name).take 6 = "/tmp/t".toList := rfl

def switched (name : Str) : List Path :=
  [tmpConfPath name, resolvConf, resolvBackup, vpnRouteStatePath]

theorem take_of_switched {name : Str} {path : Path} (member : path ∈ switched name) :
    path.take 6 ∈ ["/tmp/t".toList, "/etc/r".toList] := by
  simp only [switched, List.mem_cons, List.not_mem_nil, or_false] at member
  rcases member with rfl | rfl | rfl | rfl
  · rw [tmpConfPath_take]
    decide
  · decide
  · decide
  · decide

theorem confPath_not_switched (name other : Str) : confPath name ∉ switched other := by
  intro member
  have prefixed := take_of_switched member
  rw [confPath_take] at prefixed
  exact absurd prefixed (by decide)

theorem autostart_not_switched (name : Str) : vpnAutostartPath ∉ switched name := by
  intro member
  exact absurd (take_of_switched member) (by decide)

theorem confPath_ne_autostart (name : Str) : confPath name ≠ vpnAutostartPath :=
  confPath_ne (by decide) name

end Paths

def SameAt (path : Path) (host host' : VpnHost) : Prop := host'.fs path = host.fs path

section Frames

variable {path : Path}

theorem SameAt.refl (host : VpnHost) : SameAt path host host := rfl

theorem SameAt.trans (a b c : VpnHost) (first : SameAt path a b) (second : SameAt path b c) :
    SameAt path a c := Eq.trans second first

theorem sameAt_of_keeps {ε α : Type} {files : List Path} {x : Exec VpnHost ε α}
    (kept : Within (Keeps files) x) (free : path ∉ files) : Within (SameAt path) x :=
  fun host => (kept host).fs path free

theorem sameAt_onFiles {ε α : Type} {x : Exec Fs ε α}
    (other : ∀ fs, (outcome x fs).2 path = fs path) : Within (SameAt path) (onFiles x) :=
  fun host => other host.fs

theorem sameAt_tunnelUp {tunnel : TinyWifi.AwgTunnel} (env : TunnelUpEnv)
    (free : path ∉ switched tunnel.name) : Within (SameAt path) (tunnelUp env tunnel) := by
  simp only [switched, List.mem_cons, List.not_mem_nil, or_false, not_or] at free
  have early : Within (SameAt path) (bringUpInterface env tunnel) :=
    sameAt_of_keeps (keeps_bringUpInterface env tunnel) (by simpa using free.1)
  intro host
  have before := early host
  cases reached : outcome (bringUpInterface env tunnel) host with
  | mk result middle =>
      rw [reached] at before
      cases result with
      | error e =>
          rw [outcome_tunnelUp_stopped reached]
          exact before
      | ok u =>
          have dns := (keeps_writeDns env tunnel.iface.dns middle).fs path
            (by simp [free.2.1, free.2.2.1])
          exact ((files_tunnelUp_reached reached path free.2.2.2).trans dns).trans before

theorem sameAt_tunnelDown (env : TunnelDownEnv) (name : Str) (free : path ∉ switched name) :
    Within (SameAt path) (tunnelDown env name) := by
  simp only [switched, List.mem_cons, List.not_mem_nil, or_false, not_or] at free
  intro host
  obtain ⟨middle, kept, ends⟩ := outcome_tunnelDown env name host
  obtain ⟨dropped, done, same⟩ := outcome_dropBypassRoutes env name host
  rw [done] at kept
  have dns := (keeps_restoreDns env middle).fs path (by simp [free.2.1, free.2.2.1])
  rw [SameAt, ends, dns, kept.fs path List.not_mem_nil, same path free.2.2.2]

end Frames

section Scan

theorem splitExtension_conf {file name : Str} :
    splitExtension file = (name, some "conf".toList) ↔
      name ≠ [] ∧ file = name ++ confExtension := by
  constructor
  · intro split
    unfold splitExtension at split
    split at split
    · cases split
    · split at split
      · cases split
      · cases split
      · next after before nonempty parts =>
          obtain ⟨rfl, extension⟩ := Prod.mk.inj split
          have whole := (splitOnce_eq_some parts).1
          have conf : after.reverse = "conf".toList := Option.some.inj extension
          refine ⟨by simpa using nonempty, ?_⟩
          rw [← file.reverse_reverse, whole, List.reverse_append, List.reverse_cons, conf,
            List.append_assoc]
          rfl
  · rintro ⟨named, rfl⟩
    have whole : (name ++ confExtension).reverse = "fnoc".toList ++ '.' :: name.reverse := by
      rw [List.reverse_append]
      rfl
    have long : name ++ confExtension ≠ "..".toList := by
      intro same
      have lengths := congrArg List.length same
      rw [List.length_append] at lengths
      exact absurd lengths (by simp [confExtension])
    rw [splitExtension, if_neg long, whole, splitOnce_append _ _ (by decide)]
    split
    · next none => cases none
    · next empty =>
        obtain ⟨_, reversed⟩ := Prod.mk.inj (Option.some.inj empty)
        exact absurd (List.reverse_eq_nil_iff.mp reversed) named
    · next after before _ parts =>
        obtain ⟨rfl, rfl⟩ := Prod.mk.inj (Option.some.inj parts)
        rw [List.reverse_reverse]
        rfl

def shown (scan : ScanEnv) (host : VpnHost) (autostartName : Option Str) (name text : Str) :
    AwgTunnel where
  name := name
  configPath := confPath name
  iface := (AwgConf.parseConf text).1
  peers := (AwgConf.parseConf text).2
  status := if ifaceExistsInKernel (scan.stray name) host name then .up else .down
  autostart := autostartName = some name

variable {scan : ScanEnv} {host : VpnHost} {autostartName : Option Str}

theorem readAs_eq_ok {answer : Except IoError Unit} {fs : Fs} {path : Path} {text : Str} :
    readAs answer fs path = .ok text ↔ answer = .ok () ∧ contentOf fs path = some text := by
  rw [readAs, bind_eq_ok, ← readToString_eq_ok]
  constructor
  · rintro ⟨_, answered, read⟩
    exact ⟨answered, read⟩
  · rintro ⟨answered, read⟩
    exact ⟨(), answered, read⟩

theorem scanEntry_eq_some {file : Str} (one : plain file = true) {tunnel : AwgTunnel} :
    scanEntry scan host autostartName file = some tunnel ↔
      ∃ name text, name ≠ [] ∧ file = name ++ confExtension ∧
        readAs (scan.reads (confPath name)) host.fs (confPath name) = .ok text ∧
        tunnel = shown scan host autostartName name text := by
  unfold scanEntry
  simp only [joinPath_plain one]
  constructor
  · intro listed
    split at listed
    · cases listed
    · next name extension split =>
        split at listed
        · next conf =>
            obtain ⟨named, rfl⟩ := splitExtension_conf.mp (conf ▸ split)
            split at listed
            · cases listed
            · next text content =>
                exact ⟨name, text, named, rfl, content, (Option.some.inj listed).symm⟩
        · cases listed
  · rintro ⟨name, text, named, rfl, content, rfl⟩
    rw [splitExtension_conf.mpr ⟨named, rfl⟩]
    rw [confPath] at content
    simp only [if_true, content]
    rfl

theorem tunnels_confs {fs : Fs} {name text : Str} :
    (tunnels fs).confs name = some text ↔
      plain name = true ∧ contentOf fs (confPath name) = some text := by
  simp [tunnels]

theorem autostartOf_eq (honest : scan.Honest host.fs) :
    autostartOf scan host = (tunnels host.fs).autostart := by
  rw [autostartOf, honest.reads]
  rfl

theorem mem_scanTunnels (honest : scan.Honest host.fs) {tunnel : AwgTunnel} :
    tunnel ∈ scanTunnels scan host ↔
      ∃ name text, (tunnels host.fs).confs name = some text ∧
        tunnel = shown scan host (tunnels host.fs).autostart name text := by
  unfold scanTunnels
  rw [autostartOf_eq honest]
  constructor
  · intro listed
    split at listed
    · cases listed
    · next files entries =>
        rw [List.mem_insertionSort, List.mem_filterMap] at listed
        obtain ⟨file, member, entry⟩ := listed
        have one := honest.directory files entries file member
        obtain ⟨name, text, named, rfl, content, rfl⟩ := (scanEntry_eq_some one).mp entry
        have stored := (readAs_eq_ok.mp content).2
        refine ⟨name, text, tunnels_confs.mpr ⟨plain_iff.mpr ⟨named, ?_⟩, stored⟩, rfl⟩
        exact fun inside => (plain_iff.mp one).2 (List.mem_append_left _ inside)
  · rintro ⟨name, text, stored, rfl⟩
    obtain ⟨one, content⟩ := tunnels_confs.mp stored
    have file := plain_conf (plain_iff.mp one).2
    obtain ⟨files, entries, member⟩ :=
      honest.all _ file (exists_of_contentOf content)
    rw [entries]
    simp only [List.mem_insertionSort, List.mem_filterMap]
    have read := readAs_eq_ok.mpr ⟨honest.reads (confPath name), content⟩
    exact ⟨_, member, (scanEntry_eq_some file).mpr
      ⟨name, text, (plain_iff.mp one).1, rfl, read, rfl⟩⟩

theorem plain_of_mem (directory : scan.Directory) {tunnel : AwgTunnel}
    (listed : tunnel ∈ scanTunnels scan host) : plain tunnel.name = true := by
  unfold scanTunnels at listed
  split at listed
  · cases listed
  · next files entries =>
      rw [List.mem_insertionSort, List.mem_filterMap] at listed
      obtain ⟨file, member, entry⟩ := listed
      have one := directory files entries file member
      obtain ⟨name, text, named, rfl, -, rfl⟩ := (scanEntry_eq_some one).mp entry
      refine plain_iff.mpr ⟨named, fun inside => ?_⟩
      exact (plain_iff.mp one).2 (List.mem_append_left _ inside)

def Before (a b : AwgTunnel) : Prop := a.name ≤ b.name

instance : DecidableRel Before := fun a b => inferInstanceAs (Decidable (a.name ≤ b.name))
instance : Std.Total Before := ⟨fun a b => le_total a.name b.name⟩
instance : IsTrans AwgTunnel Before := ⟨fun _ _ _ => le_trans⟩

theorem names_nodup (chosen : Option Str) (honest : scan.Honest host.fs) {files : List Str}
    (entries : scan.entries = .ok files) :
    ((files.filterMap (scanEntry scan host chosen)).map (·.name)).Nodup := by
  rw [List.Nodup, List.pairwise_map, List.pairwise_filterMap]
  apply (honest.nodup files entries).imp_of_mem
  intro file other member also apart one first two second same
  obtain ⟨name, text, -, rfl, -, rfl⟩ :=
    (scanEntry_eq_some (honest.directory files entries file member)).mp first
  obtain ⟨name', text', -, rfl, -, rfl⟩ :=
    (scanEntry_eq_some (honest.directory files entries other also)).mp second
  exact apart (congrArg (· ++ confExtension) same)

theorem sorted_scanTunnels (honest : scan.Honest host.fs) :
    ((scanTunnels scan host).map (·.name)).Pairwise (· < ·) := by
  unfold scanTunnels
  split
  · exact .nil
  · next files entries =>
      have unique := names_nodup (autostartOf scan host) honest entries
      have order := List.pairwise_insertionSort Before
        (files.filterMap (scanEntry scan host (autostartOf scan host)))
      have perm := (List.perm_insertionSort Before
        (files.filterMap (scanEntry scan host (autostartOf scan host)))).map (·.name)
      have apart := perm.nodup_iff.mpr unique
      have ordered := List.pairwise_map (f := AwgTunnel.name) (R := (· ≤ ·)) |>.mpr order
      exact (ordered.and apart).imp fun both => lt_of_le_of_ne both.1 both.2

theorem lists_scanTunnels (honest : scan.Honest host.fs) :
    (tunnels host.fs).Lists (scanTunnels scan host) where
  sorted := sorted_scanTunnels honest
  complete name := by
    rw [List.mem_map, Option.isSome_iff_exists]
    constructor
    · rintro ⟨tunnel, listed, rfl⟩
      obtain ⟨name, text, stored, rfl⟩ := (mem_scanTunnels honest).mp listed
      exact ⟨text, stored⟩
    · rintro ⟨text, stored⟩
      exact ⟨_, (mem_scanTunnels honest).mpr ⟨name, text, stored, rfl⟩, rfl⟩
  right tunnel listed := by
    obtain ⟨name, text, stored, rfl⟩ := (mem_scanTunnels honest).mp listed
    exact ⟨text, stored, rfl, rfl⟩

theorem status_scanTunnels (honest : scan.Honest host.fs) :
    ∀ tunnel ∈ scanTunnels scan host,
      tunnel.status = linkStatus (scan.sees host.net tunnel.name) := by
  intro tunnel listed
  obtain ⟨name, text, stored, rfl⟩ := (mem_scanTunnels honest).mp listed
  rfl

end Scan

section Handlers

variable {scan : ScanEnv} {host : VpnHost} {name : Str}

theorem found_there (honest : scan.Honest host.fs) {text : Str}
    (stored : (tunnels host.fs).confs name = some text) :
    outcome (found scan name) host =
      (.ok (shown scan host (tunnels host.fs).autostart name text), host) := by
  have listed := (mem_scanTunnels honest).mpr ⟨name, text, stored, rfl⟩
  have some : ((scanTunnels scan host).find? fun tunnel => tunnel.name = name).isSome :=
    List.find?_isSome.mpr ⟨_, listed, decide_eq_true rfl⟩
  obtain ⟨first, hit⟩ := Option.isSome_iff_exists.mp some
  have named : first.name = name := by simpa using List.find?_some hit
  obtain ⟨other, content, also, rfl⟩ := (mem_scanTunnels honest).mp (List.mem_of_find?_eq_some hit)
  obtain rfl : other = name := named
  obtain rfl := Option.some.inj (also.symm.trans stored)
  rw [found, outcome_reading, findTunnel, hit]
  rfl

theorem found_missing (honest : scan.Honest host.fs) (gone : (tunnels host.fs).confs name = none) :
    outcome (found scan name) host = (.error (notFound name), host) := by
  have none : (scanTunnels scan host).find? (fun tunnel => tunnel.name = name) = none := by
    apply List.find?_eq_none.mpr
    intro tunnel listed same
    have there := ((lists_scanTunnels honest).complete name).mp
      (List.mem_map.mpr ⟨tunnel, listed, of_decide_eq_true same⟩)
    rw [gone] at there
    cases there
  rw [found, outcome_reading, findTunnel, none]
  rfl

/-- What comes after a look for the tunnel is only done with the name of a tunnel. -/
theorem within_found {R : VpnHost → VpnHost → Prop} (refl : ∀ host, R host host)
    (directory : scan.Directory) {x : AwgTunnel → Exec VpnHost ApiError Unit}
    (rest : ∀ tunnel, tunnel.name = name → plain name = true → Within R (x tunnel)) :
    Within R (found scan name >>= x) := by
  intro host
  rw [outcome_bind, found, outcome_reading, findTunnel]
  cases hit : (scanTunnels scan host).find? fun tunnel => tunnel.name = name with
  | none => exact refl host
  | some tunnel =>
      have named : tunnel.name = name := by simpa using List.find?_some hit
      have one := plain_of_mem directory (List.mem_of_find?_eq_some hit)
      exact rest tunnel named (named ▸ one) host

end Handlers

section Store

variable {fs fs' : Fs} {name : Str}

theorem contentOf_congr {path : Path} (same : fs' path = fs path) :
    contentOf fs' path = contentOf fs path := by
  rw [contentOf, same, contentOf]

theorem readToString_congr {path : Path} (same : fs' path = fs path) :
    readToString fs' path = readToString fs path := by
  rw [readToString, same, readToString]

def Held (path : Path) : Prop := path = vpnAutostartPath ∨ ∃ name, path = confPath name

theorem tunnels_congr (same : ∀ path, Held path → fs' path = fs path) :
    tunnels fs' = tunnels fs := by
  ext1
  · funext name
    simp only [tunnels, contentOf_congr (same _ (.inr ⟨name, rfl⟩))]
  · simp only [tunnels, readToString_congr (same _ (.inl rfl))]

theorem tunnels_put (one : plain name = true) (text : Str) :
    tunnels (put (confPath name) (encode text) fs) = (tunnels fs).put name text := by
  ext1
  · funext other
    by_cases same : other = name
    · subst other
      simp [tunnels, Tunnels.put, one, contentOf_put]
    · have apart : confPath other ≠ confPath name := fun paths => same (confPath_inj paths)
      simp [tunnels, Tunnels.put, same, contentOf, put_of_ne apart]
  · have apart := (confPath_ne_autostart name).symm
    simp [tunnels, Tunnels.put, readToString, put_of_ne apart]

theorem tunnels_erase : tunnels (erase (confPath name) fs) = (tunnels fs).remove name := by
  ext1
  · funext other
    by_cases same : other = name
    · subst other
      simp [tunnels, Tunnels.remove, contentOf]
    · have apart : confPath other ≠ confPath name := fun paths => same (confPath_inj paths)
      simp [tunnels, Tunnels.remove, same, contentOf, erase_of_ne apart]
  · have apart := (confPath_ne_autostart name).symm
    simp [tunnels, Tunnels.remove, readToString, erase_of_ne apart]

theorem trim_append_lf (name : Str) : trim (name ++ ['\n']) = trim name := by
  obtain ⟨front, back, whole, first, last⟩ := around_trim name
  have longer : name ++ ['\n'] = front ++ trim name ++ (back ++ ['\n']) := by
    rw [← List.append_assoc, ← whole]
  rw [longer]
  apply trim_around first _ (trimmed_trim name)
  intro c member
  rcases List.mem_append.mp member with inside | after
  · exact last c inside
  · rw [List.mem_singleton.mp after]
    decide

theorem tunnels_choose :
    tunnels (put vpnAutostartPath (encode (name ++ ['\n'])) fs) = (tunnels fs).choose name := by
  ext1
  · funext other
    simp [tunnels, Tunnels.choose, contentOf, put_of_ne (confPath_ne_autostart other)]
  · have read := readToString_eq_ok.mpr (contentOf_put vpnAutostartPath (name ++ ['\n']) fs)
    simp only [tunnels, read, getAutostart, trim_append_lf]
    rfl

theorem tunnels_clear (chosen : (tunnels fs).autostart = some name) :
    tunnels (erase vpnAutostartPath fs) = (tunnels fs).unchoose name := by
  ext1
  · funext other
    simp [tunnels, Tunnels.unchoose, contentOf, erase_of_ne (confPath_ne_autostart other)]
  · have gone : (tunnels (erase vpnAutostartPath fs)).autostart = none := by
      simp [tunnels, readToString, getAutostart]
    rw [gone, Tunnels.unchoose, chosen]
    simp [Option.filter]

theorem unchoose_of_ne {t : Tunnels} (other : t.autostart ≠ some name) : t.unchoose name = t := by
  ext1
  · rfl
  · rw [Tunnels.unchoose]
    cases chosen : t.autostart with
    | none => rfl
    | some one =>
        have apart : one ≠ name := fun same => other (same ▸ chosen)
        simp [Option.filter, apart]

end Store

end TunnelStore

end TinyWifi
