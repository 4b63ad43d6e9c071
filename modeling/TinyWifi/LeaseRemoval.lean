import TinyWifi.Lib.Decoded
import TinyWifi.StaticLeases

/-! Deleting a static lease. It is found by what its line says and deleted by the line that would
be written for it. -/

namespace TinyWifi

open Text Exec Checks

namespace LeaseRemoval

section Parse

variable {u : UnicodeData} {v : Str} {lease : StaticLease}

theorem parse_eq_some : StaticLease.parse u v = some lease ↔
    ∃ name mac ip, v = name ++ ',' :: (mac ++ ',' :: ip) ∧ ',' ∉ name ∧ ',' ∉ mac ∧
      Ipv4Addr.parse (trim ip) = some lease.ip ∧ lease.name = trim name ∧
      lease.mac = u.toLowercase (trim mac) := by
  constructor
  · intro parsed
    unfold StaticLease.parse at parsed
    split at parsed
    · next name mac ip parts =>
        rcases splitN_eq_cons_cons parts with ⟨rest, whole, name_comma, parts⟩
        rcases splitN_eq_cons_cons parts with ⟨last, whole', mac_comma, parts⟩
        have same : last = ip := by simpa [splitN] using parts
        simp only [Option.bind_eq_bind, Option.bind_eq_some_iff, Option.pure_def,
          Option.some.injEq] at parsed
        rcases parsed with ⟨address, found, rfl⟩
        exact ⟨name, mac, ip, by rw [whole, whole', same], name_comma, mac_comma, found, rfl, rfl⟩
    · cases parsed
  · intro holds
    rcases holds with ⟨name, mac, ip, rfl, name_comma, mac_comma, found, named, lower⟩
    rw [StaticLease.parse, splitN_cons name_comma, splitN_cons mac_comma, splitN]
    dsimp only
    rw [found, ← named, ← lower]
    rfl

theorem parse_toConfValue (lawful : u.Lawful) (parsed : StaticLease.parse u v = some lease) :
    StaticLease.parse u (lease.toConfValue u) = some lease := by
  rcases parse_eq_some.mp parsed with
    ⟨name, mac, ip, _, name_comma, mac_comma, _, named, lower⟩
  have mac_trimmed : trim lease.mac = lease.mac := by
    rw [lower, ← lawful.toLowercase_trim, trim_trim]
  have again : u.toLowercase lease.mac = lease.mac := by
    rw [lower, lawful.toLowercase_toLowercase]
  have mac_plain : ',' ∉ lease.mac := by
    rw [lower]
    exact fun member => mac_comma (mem_of_mem_trim (lawful.comma member))
  have name_plain : ',' ∉ lease.name := by
    rw [named]
    exact fun member => name_comma (mem_of_mem_trim member)
  have name_trimmed : trim lease.name = lease.name := by rw [named, trim_trim]
  rw [StaticLease.toConfValue, again, StaticLeases.parse_value u name_plain mac_plain,
    name_trimmed, mac_trimmed, again]

theorem trimmed_fields (name : Str) {rest : Str}
    (last : ∀ c ∈ (',' :: rest).getLast?, isWhitespace c = false) :
    Trimmed (trimStart name ++ ',' :: rest) := by
  constructor
  · intro c member
    cases shown : trimStart name with
    | nil =>
        rw [shown, List.nil_append, List.head?_cons, Option.mem_some_iff] at member
        rw [← member]
        decide
    | cons first more =>
        rw [shown, List.cons_append, List.head?_cons] at member
        exact head_trimStart name c (by rw [shown]; exact member)
  · intro c member
    rw [List.getLast?_append_of_ne_nil _ (List.cons_ne_nil _ _)] at member
    exact last c member

/-- A line that is a lease is the same lease after another reading: it ends in a digit, so no
quotes are taken off. -/
theorem parse_reread (parsed : StaticLease.parse u v = some lease) :
    StaticLease.parse u (DhcpEdits.reread v) = some lease := by
  rcases parse_eq_some.mp parsed with
    ⟨name, mac, ip, rfl, name_comma, mac_comma, found, named, lower⟩
  rcases around_trim ip with ⟨front, back, shape, white_front, white_back⟩
  have address := Ipv4Addr.last_of_parse found
  have last : ∀ c ∈ (',' :: (mac ++ ',' :: (front ++ trim ip))).getLast?, c.isDigit := by
    intro c member
    have ends : ',' :: (mac ++ ',' :: (front ++ trim ip)) =
        (',' :: (mac ++ ',' :: front)) ++ trim ip := by simp
    rw [ends, List.getLast?_append_of_ne_nil _ address.1] at member
    exact address.2 c member
  have trimmed := trimmed_fields name fun c member => isDigit_not_whitespace (last c member)
  have white : ∀ c ∈ name.takeWhile isWhitespace, isWhitespace c :=
    fun c member => List.mem_takeWhile_imp member
  have whole : name ++ ',' :: (mac ++ ',' :: ip) = name.takeWhile isWhitespace ++
      (trimStart name ++ ',' :: (mac ++ ',' :: (front ++ trim ip))) ++ back := by
    have split : name = name.takeWhile isWhitespace ++ trimStart name :=
      (List.takeWhile_append_dropWhile ..).symm
    conv_lhs => rw [split, shape]
    simp only [List.append_assoc, List.cons_append]
  have bare : DhcpEdits.reread (name ++ ',' :: (mac ++ ',' :: ip)) =
      trimStart name ++ ',' :: (mac ++ ',' :: (front ++ trim ip)) := by
    rw [DhcpEdits.reread, whole, trim_around white white_back trimmed]
    apply StaticLeases.unquote_of_last
    intro c member
    rw [List.getLast?_append_of_ne_nil _ (List.cons_ne_nil _ _)] at member
    exact (DhcpEdits.plain_of_digit (last c member)).2
  have address_trimmed : trim (front ++ trim ip) = trim ip := by
    have same := trim_around white_front (List.forall_mem_nil _) (trimmed_trim ip)
    rwa [List.append_nil] at same
  rw [bare]
  refine parse_eq_some.mpr
    ⟨trimStart name, mac, front ++ trim ip, rfl, ?_, mac_comma, ?_, ?_, lower⟩
  · exact fun member => name_comma ((List.dropWhile_sublist _).subset member)
  · rw [address_trimmed, found]
  · rw [trim_trimStart, named]

end Parse

section Removed

variable {u : UnicodeData} {content : Str} {target : StaticLease} {mac : Str}

def removedText (u : UnicodeData) (content : Str) (target : StaticLease) : Str :=
  ((DhcpConf.parse content).removeWhere keyStatic (target.toConfValue u)).display

/-- The lease that a line is read as once it has been written again. -/
def reparsed (u : UnicodeData) (v : Str) : Option StaticLease :=
  StaticLease.parse u (DhcpEdits.reread v)

theorem allPrint_removed : AllPrint
    ((DhcpConf.parse content).removeWhere keyStatic (target.toConfValue u)).lines :=
  (DhcpEdits.allPrint_parse content).sublist List.filter_sublist

theorem leasesOf_removed (u : UnicodeData) (content : Str) (target : StaticLease) :
    leasesOf u (DhcpConf.parse (removedText u content target)) =
      (((DhcpConf.parse content).getAll keyStatic).filter (· ≠ target.toConfValue u)).filterMap
        (reparsed u) := by
  have values : ((DhcpConf.parse content).removeWhere keyStatic (target.toConfValue u)).getAll
      keyStatic = ((DhcpConf.parse content).getAll keyStatic).filter
        (· ≠ target.toConfValue u) := by
    rw [DhcpEdits.getAll_eq, DhcpConf.removeWhere, directives_dropWhere,
      Directives.values_filter_ne, DhcpEdits.getAll_eq]
  rw [leasesOf, removedText, DhcpEdits.getAll_reread allPrint_removed, values,
    List.filterMap_map]
  rfl

theorem others_removed (u : UnicodeData) (content : Str) (target : StaticLease) :
    Directives.others [keyStatic]
        (directives (DhcpConf.parse (removedText u content target)).lines) =
      (Directives.others [keyStatic] (directives (DhcpConf.parse content).lines)).map
        fun d => (d.1, DhcpEdits.reread d.2) := by
  have printed : directives (DhcpConf.parse (removedText u content target)).lines =
      (directives ((DhcpConf.parse content).removeWhere keyStatic
        (target.toConfValue u)).lines).map fun d => (d.1, DhcpEdits.reread d.2) :=
    directives_reread allPrint_removed
  rw [printed, Directives.others_map, DhcpConf.removeWhere, directives_dropWhere,
    Directives.others_filter_ne keyStatic _ (List.mem_singleton_self _)]

/-- A line that is deleted is a lease of the target's address, and all other leases are read
again as they were. -/
theorem kept_sublist (canonical : StaticLease.parse u (target.toConfValue u) = some target)
    (values : List Str) :
    ((values.filterMap (StaticLease.parse u)).filter (·.mac ≠ target.mac)).Sublist
      ((values.filter (· ≠ target.toConfValue u)).filterMap (reparsed u)) := by
  apply Decoded.filter_filterMap_sublist
  · intro v lease parsed other
    refine decide_eq_true fun equal => of_decide_eq_true other ?_
    rw [equal, canonical] at parsed
    exact congrArg StaticLease.mac (Option.some.inj parsed).symm
  · exact fun v lease parsed => parse_reread parsed

end Removed

/-- A deletion that succeeds leaves no lease of the address, the leases of the others in their
order, and the directives of all other keys; one that fails leaves the file. The listed addresses
are in lower case. -/
structure Deletes (u : UnicodeData) (env : FileEnv) (path : Path) (mac : Str) (fs : Fs) :
    Prop where
  accepted : ∀ fs', outcome (removeStaticLease u env path mac) fs = (.ok (), fs') →
    ∃ before after, contentOf fs path = some before ∧ contentOf fs' path = some after ∧
      (∀ lease ∈ leasesOf u (DhcpConf.parse after), lease.mac ≠ u.toLowercase mac) ∧
      ((leasesOf u (DhcpConf.parse before)).filter (·.mac ≠ u.toLowercase mac)).Sublist
        (leasesOf u (DhcpConf.parse after)) ∧
      Directives.others [keyStatic] (directives (DhcpConf.parse after).lines) =
        Directives.others [keyStatic] (directives (DhcpConf.parse before).lines)
  refused : ∀ e fs', outcome (removeStaticLease u env path mac) fs = (.error e, fs') →
    fs' path = fs path

/-- Every `static` line that is a lease of the address, or will be one when it is read again, is
the line that would be written for the first of them. -/
def Spelled (u : UnicodeData) (conf : DhcpConf) (mac : Str) (target : StaticLease) : Prop :=
  ∀ v ∈ conf.getAll keyStatic, ∀ lease, reparsed u v = some lease →
    lease.mac = u.toLowercase mac → v = target.toConfValue u

def Lasting (conf : DhcpConf) : Prop :=
  ∀ d ∈ Directives.others [keyStatic] (directives conf.lines), DhcpEdits.Stable d.2

/-- Where there is a lease to delete and the file can be edited, the lines are spelled as they
would be written, and a write that breaks off has come as far as the bytes of the old file. -/
def Deletable (u : UnicodeData) (env : FileEnv) (path : Path) (mac : Str) (fs : Fs) : Prop :=
  ∀ content target, env.readable = true → env.writable = true →
    contentOf fs path = some content →
    (leasesOf u (DhcpConf.parse content)).find? (·.mac = u.toLowercase mac) = some target →
    (env.write = .done → Spelled u (DhcpConf.parse content) mac target ∧
      Lasting (DhcpConf.parse content)) ∧
    ∀ kept e, env.write = .cut kept e →
      fs path = some ((encode (removedText u content target)).extract 0 kept)

section Outcome

variable {u : UnicodeData} {env : FileEnv} {path : Path} {mac : Str} {fs : Fs}

theorem removedLease_eq_ok {conf edited : DhcpConf} :
    removedLease u env path mac conf = .ok edited ↔
      ∃ target, (leasesOf u conf).find? (·.mac = u.toLowercase mac) = some target ∧
        env.writable = true ∧ conf.removeWhere keyStatic (target.toConfValue u) = edited := by
  unfold removedLease
  dsimp only
  cases (leasesOf u conf).find? (·.mac = u.toLowercase mac) with
  | none =>
      constructor
      · intro stopped
        cases stopped
      · intro holds
        rcases holds with ⟨_, none, _⟩
        cases none
  | some target =>
      simp only [bind_eq_ok, pure_eq_ok, require_eq_ok, Option.some.injEq]
      constructor
      · intro holds
        rcases holds with ⟨_, writable, same⟩
        exact ⟨target, rfl, writable, same⟩
      · intro holds
        rcases holds with ⟨_, rfl, writable, same⟩
        exact ⟨(), writable, same⟩

theorem leaseEdit_removed_eq_ok {text : Str} :
    leaseEdit env path (removedLease u env path mac) fs = .ok text ↔
      ∃ content target, env.readable = true ∧ env.writable = true ∧
        contentOf fs path = some content ∧
        (leasesOf u (DhcpConf.parse content)).find? (·.mac = u.toLowercase mac) = some target ∧
        removedText u content target = text := by
  rw [StaticLeases.leaseEdit_eq_ok]
  constructor
  · intro holds
    rcases holds with ⟨readable, content, found, edited, changed, same⟩
    rcases removedLease_eq_ok.mp changed with ⟨target, first, writable, rfl⟩
    exact ⟨content, target, readable, writable, found, first, same⟩
  · intro holds
    rcases holds with ⟨content, target, readable, writable, found, first, same⟩
    exact ⟨readable, content, found, _, removedLease_eq_ok.mpr ⟨target, first, writable, rfl⟩, same⟩

variable {content : Str} {target : StaticLease}

theorem mac_of_first
    (first : (leasesOf u (DhcpConf.parse content)).find? (·.mac = u.toLowercase mac) =
      some target) : target.mac = u.toLowercase mac := by
  simpa using List.find?_some first

theorem canonical_of_first (lawful : u.Lawful)
    (first : (leasesOf u (DhcpConf.parse content)).find? (·.mac = u.toLowercase mac) =
      some target) : StaticLease.parse u (target.toConfValue u) = some target := by
  rcases List.mem_filterMap.mp (List.mem_of_find?_eq_some first) with ⟨raw, _, parsed⟩
  exact parse_toConfValue lawful parsed

theorem none_left_iff :
    (∀ lease ∈ leasesOf u (DhcpConf.parse (removedText u content target)),
      lease.mac ≠ u.toLowercase mac) ↔ Spelled u (DhcpConf.parse content) mac target := by
  rw [leasesOf_removed]
  constructor
  · intro clear v member lease parsed same
    by_contra differs
    have kept : v ∈ ((DhcpConf.parse content).getAll keyStatic).filter
        (· ≠ target.toConfValue u) := List.mem_filter.mpr ⟨member, decide_eq_true differs⟩
    exact clear lease (List.mem_filterMap.mpr ⟨v, kept, parsed⟩) same
  · intro spelled lease member same
    rcases List.mem_filterMap.mp member with ⟨v, kept, parsed⟩
    have parts := List.mem_filter.mp kept
    exact of_decide_eq_true parts.2 (spelled v parts.1 lease parsed same)

theorem others_same_iff :
    Directives.others [keyStatic]
        (directives (DhcpConf.parse (removedText u content target)).lines) =
      Directives.others [keyStatic] (directives (DhcpConf.parse content).lines) ↔
        Lasting (DhcpConf.parse content) := by
  have split := Directives.others_map_append DhcpEdits.reread [keyStatic]
    (directives (DhcpConf.parse content).lines) []
  rw [List.append_nil, List.append_nil, Directives.others_map] at split
  rw [others_removed]
  exact split

theorem sublist_of_first (lawful : u.Lawful)
    (first : (leasesOf u (DhcpConf.parse content)).find? (·.mac = u.toLowercase mac) =
      some target) :
    ((leasesOf u (DhcpConf.parse content)).filter (·.mac ≠ u.toLowercase mac)).Sublist
      (leasesOf u (DhcpConf.parse (removedText u content target))) := by
  rw [leasesOf_removed, ← mac_of_first first]
  exact kept_sublist (canonical_of_first lawful first) _

/-- A lease is deleted exactly where its lines are spelled as they would be written, the rest reads
back as it is, and no write breaks off. -/
theorem deletes_iff (lawful : u.Lawful) :
    Deletes u env path mac fs ↔ Deletable u env path mac fs := by
  constructor
  · intro deletes content target readable writable found first
    have edit : leaseEdit env path (removedLease u env path mac) fs = .ok _ :=
      leaseEdit_removed_eq_ok.mpr ⟨content, target, readable, writable, found, first, rfl⟩
    refine ⟨fun whole => ?_, rewrite_refused_iff.mp deletes.refused _ edit⟩
    rcases rewrite_accepted_iff.mp deletes.accepted _ edit whole with
      ⟨before, after, here, there, none, _, others⟩
    rw [found, Option.some.injEq] at here
    rw [contentOf_put, Option.some.injEq] at there
    subst before after
    exact ⟨none_left_iff.mp none, others_same_iff.mp others⟩
  · intro deletable
    refine ⟨rewrite_accepted_iff.mpr ?_, rewrite_refused_iff.mpr ?_⟩
    · intro text edit whole
      rcases leaseEdit_removed_eq_ok.mp edit with
        ⟨content, target, readable, writable, found, first, rfl⟩
      have holds := (deletable content target readable writable found first).1 whole
      exact ⟨content, _, found, contentOf_put .., none_left_iff.mpr holds.1,
        sublist_of_first lawful first, others_same_iff.mpr holds.2⟩
    · intro text edit
      rcases leaseEdit_removed_eq_ok.mp edit with
        ⟨content, target, readable, writable, found, first, rfl⟩
      exact (deletable content target readable writable found first).2

/-- A lease that was written by the program is deleted under an address in any case. -/
theorem deletes_oneLease :
    Deletes .ascii .willing StaticLeases.etcNanodhcp "AA:BB:CC:DD:EE:FF".toList
      (oneFile StaticLeases.etcNanodhcp StaticLeases.oneLease) := by
  refine (deletes_iff UnicodeData.ascii_lawful).mpr ?_
  intro content target _ _ found first
  rw [StaticLeases.contentOf_oneLease, Option.some.injEq] at found
  subst content
  have lines : (DhcpConf.parse StaticLeases.oneLease).getAll keyStatic =
      ["tv,aa:bb:cc:dd:ee:ff,192.168.1.5".toList] := by decide +kernel
  have tv : (leasesOf .ascii (DhcpConf.parse StaticLeases.oneLease)).find?
      (·.mac = UnicodeData.ascii.toLowercase "AA:BB:CC:DD:EE:FF".toList) =
        some ⟨"tv".toList, "aa:bb:cc:dd:ee:ff".toList, ⟨192, 168, 1, 5⟩⟩ := by decide +kernel
  rw [tv, Option.some.injEq] at first
  subst target
  refine ⟨fun _ => ⟨?_, by unfold Lasting; decide +kernel⟩, fun kept e cut => nomatch cut⟩
  intro v member _ _ _
  rw [lines, List.mem_singleton] at member
  rw [member]
  decide +kernel

def spacedLease : Str := "interface=wlan0\nstatic=tv, AA:BB:CC:DD:EE:FF, 192.168.1.5\n".toList

/-- It is found, nothing is deleted, and the answer is a success. -/
theorem not_deletes_spacedLease :
    (outcome (removeStaticLease .ascii .willing StaticLeases.etcNanodhcp
        "aa:bb:cc:dd:ee:ff".toList) (oneFile StaticLeases.etcNanodhcp spacedLease)).1 = .ok () ∧
      ¬ Deletes .ascii .willing StaticLeases.etcNanodhcp "aa:bb:cc:dd:ee:ff".toList
        (oneFile StaticLeases.etcNanodhcp spacedLease) := by
  have found : contentOf (oneFile StaticLeases.etcNanodhcp spacedLease)
      StaticLeases.etcNanodhcp = some spacedLease := contentOf_put ..
  have edit : leaseEdit .willing StaticLeases.etcNanodhcp (removedLease .ascii .willing
      StaticLeases.etcNanodhcp "aa:bb:cc:dd:ee:ff".toList)
      (oneFile StaticLeases.etcNanodhcp spacedLease) = .ok _ :=
    leaseEdit_removed_eq_ok.mpr ⟨spacedLease,
      ⟨"tv".toList, "aa:bb:cc:dd:ee:ff".toList, ⟨192, 168, 1, 5⟩⟩, rfl, rfl, found,
      by decide +kernel, rfl⟩
  have done : outcome (removeStaticLease .ascii .willing StaticLeases.etcNanodhcp
      "aa:bb:cc:dd:ee:ff".toList) (oneFile StaticLeases.etcNanodhcp spacedLease) = (.ok (), _) :=
    rewrite_ok.mpr ⟨rfl, _, edit, rfl⟩
  refine ⟨congrArg Prod.fst done, fun deletes => ?_⟩
  rcases deletes.accepted _ done with ⟨_, after, _, there, none, _⟩
  rw [contentOf_put, Option.some.injEq] at there
  subst after
  revert none
  decide +kernel

end Outcome

end LeaseRemoval

end TinyWifi
