import TinyWifi.DnsRecords
import TinyWifi.Lib.Decoded

/-! Deleting a DNS record. It is found by what its line says and deleted by the line that would be
written for it. -/

namespace TinyWifi

open Text Exec Checks

namespace RecordRemoval

/-- The name and the type of the request, in any case. -/
def matching (u : CaseData) (name rtype : Str) (r : DnsRecord) : Bool :=
  u.toLowercase r.name = u.toLowercase name ∧ r.rtype = u.toUppercase rtype

section Parse

variable {u : CaseData} {raw : Str} {record : DnsRecord}

theorem no_comma_of_parse (lawful : u.LawfulCommas) (parsed : DnsRecord.parse u raw = some record) :
    ',' ∉ record.name ∧ ',' ∉ record.rtype ∧ ',' ∉ record.value := by
  unfold DnsRecord.parse at parsed
  split at parsed
  · next name rtype value ttl parts =>
      rcases splitN_eq_cons_cons parts with ⟨_, _, name_comma, parts⟩
      rcases splitN_eq_cons_cons parts with ⟨_, _, rtype_comma, parts⟩
      rcases splitN_eq_cons_cons parts with ⟨_, _, value_comma, _⟩
      rcases Option.bind_eq_some_iff.mp parsed with ⟨n, _, same⟩
      rw [← Option.some.inj same]
      exact ⟨fun member => name_comma (mem_of_mem_trim member),
        fun member => rtype_comma (mem_of_mem_trim (lawful.comma member)),
        fun member => value_comma (mem_of_mem_trim member)⟩
  · cases parsed

theorem asked_of_parse (lawful : u.Lawful) (parsed : DnsRecord.parse u raw = some record) :
    DnsRecords.asked u record = record := by
  unfold DnsRecord.parse at parsed
  split at parsed
  · next name rtype value ttl _ =>
      rcases Option.bind_eq_some_iff.mp parsed with ⟨n, _, same⟩
      rw [← Option.some.inj same, DnsRecords.asked]
      dsimp only
      rw [trim_trim, trim_trim, ← lawful.toUppercase_trim, trim_trim,
        lawful.toUppercase_toUppercase]
  · cases parsed

theorem parse_toConfValue (lawful : u.LawfulCommas)
    (parsed : DnsRecord.parse u raw = some record) :
    DnsRecord.parse u record.toConfValue = some record := by
  have plain := no_comma_of_parse lawful parsed
  rw [DnsRecords.parse_value plain.1 plain.2.1 plain.2.2,
    asked_of_parse lawful.toLawful parsed]

end Parse

section Removed

variable {u : CaseData} {content : Str} {target : DnsRecord}

def removedText (content : Str) (target : DnsRecord) : Str :=
  ((NanoDnsConf.parse content).removeWhere keyRecord target.toConfValue).display

theorem allPrint_removed :
    AllPrint ((NanoDnsConf.parse content).removeWhere keyRecord target.toConfValue).lines :=
  (NanoDnsConf.allPrint_parse content).sublist List.erase_sublist

theorem recordsOf_removed (u : CaseData) (content : Str) (target : DnsRecord) :
    recordsOf u (NanoDnsConf.parse (removedText content target)) =
      (((NanoDnsConf.parse content).getAll keyRecord).erase target.toConfValue).filterMap
        (DnsRecord.parse u) := by
  have values : ((NanoDnsConf.parse content).removeWhere keyRecord target.toConfValue).getAll
      keyRecord = ((NanoDnsConf.parse content).getAll keyRecord).erase target.toConfValue :=
    getLines_dropFirst ..
  have trimmed : ∀ v ∈ ((NanoDnsConf.parse content).getAll keyRecord).erase target.toConfValue,
      trim v = id v :=
    fun v member => NanoDnsConf.trim_of_mem_getAll (List.mem_of_mem_erase member)
  rw [recordsOf, removedText, NanoDnsConf.getAll_reread allPrint_removed, values,
    List.map_congr_left trimmed, List.map_id]

def otherEntries (content : Str) : List Line :=
  otherLines [keyRecord] (NanoDnsConf.parse content).lines

def otherTexts (content : Str) : List Str :=
  (Text.lines content).filter fun text =>
    [keyRecord].all fun key => !(parseTrimmed id text).hasKey key

def NoStrayCr (content : Str) : Prop :=
  ∀ text, Line.raw text ∈ (NanoDnsConf.parse content).lines → ¬ EndsCr text

/-- Every line besides the records stands as it is printed. -/
def AsPrinted (content : Str) : Prop :=
  ∀ text ∈ otherTexts content, stripCr (parseTrimmed id text).render = text

theorem otherEntries_removed (content : Str) (target : DnsRecord) :
    otherEntries (removedText content target) =
      (otherEntries content).map fun line => line.stripCr.mapValue trim := by
  have reread : (NanoDnsConf.parse (removedText content target)).lines =
      ((NanoDnsConf.parse content).removeWhere keyRecord target.toConfValue).lines.map
        fun line => line.stripCr.mapValue trim := readTrimmed_printLines allPrint_removed
  have keys : ∀ (line : Line) k, (line.stripCr.mapValue trim).hasKey k = line.hasKey k := by
    intro line k
    cases line <;> rfl
  rw [otherEntries, reread, otherLines_map keys, NanoDnsConf.removeWhere,
    otherLines_dropFirst (List.mem_singleton_self _)]
  rfl

theorem otherEntries_same_iff :
    otherEntries (removedText content target) = otherEntries content ↔ NoStrayCr content := by
  rw [otherEntries_removed, Decoded.map_eq_self_iff]
  constructor
  · intro same text member
    have other : Line.raw text ∈ otherEntries content := List.mem_filter.mpr ⟨member, rfl⟩
    exact (stripCr_eq_self_iff text).mp (Line.raw.inj (same _ other))
  · intro clean line member
    have inside := List.mem_of_mem_filter member
    cases line with
    | raw text => exact congrArg Line.raw (stripCr_of_not_endsCr (clean text inside))
    | pair key value =>
        rcases exists_of_mem_readTrimmed inside with ⟨raw, rfl⟩
        have same : trim (stripCr (trim raw)) = trim raw := by rw [trim_stripCr, trim_trim]
        exact congrArg (Line.pair key) same

theorem otherTexts_removed (content : Str) (target : DnsRecord) :
    otherTexts (removedText content target) =
      (otherTexts content).map fun text => stripCr (parseTrimmed id text).render := by
  have no_lf : ∀ text ∈ ((NanoDnsConf.parse content).removeWhere keyRecord
      target.toConfValue).lines.map Line.render, '\n' ∉ text := by
    intro text member
    rcases List.mem_map.mp member with ⟨line, inside, rfl⟩
    exact HostapdConf.no_lf_render (allPrint_removed line inside)
  have texts : Text.lines (removedText content target) =
      ((NanoDnsConf.parse content).removeWhere keyRecord target.toConfValue).lines.map
        fun line => stripCr line.render := by
    rw [removedText, NanoDnsConf.display, printLines, lines_unlines no_lf, List.map_map]
    rfl
  have keys : ∀ line ∈ ((NanoDnsConf.parse content).removeWhere keyRecord
      target.toConfValue).lines, ∀ k,
      (parseTrimmed id (stripCr line.render)).hasKey k = line.hasKey k := by
    intro line member k
    rw [parseTrimmed_stripCr_render (allPrint_removed line member)]
    cases line <;> rfl
  have others : otherTexts (removedText content target) =
      (otherLines [keyRecord] ((NanoDnsConf.parse content).removeWhere keyRecord
        target.toConfValue).lines).map fun line => stripCr line.render := by
    rw [otherTexts, texts, List.filter_map, otherLines]
    congr 1
    apply List.filter_congr
    intro line member
    simp only [Function.comp_apply, keys line member]
  rw [others, NanoDnsConf.removeWhere, otherLines_dropFirst (List.mem_singleton_self _)]
  change (otherLines [keyRecord] ((Text.lines content).map (parseTrimmed id))).map _ = _
  rw [otherLines, List.filter_map, List.map_map]
  rfl

theorem otherTexts_same_iff :
    otherTexts (removedText content target) = otherTexts content ↔ AsPrinted content := by
  rw [otherTexts_removed, Decoded.map_eq_self_iff]
  rfl

end Removed

/-- A deletion that succeeds takes the first matching record out of the list and leaves the lines of
the other kind; one that fails leaves the file. -/
structure Deletes {γ : Type} (others : Str → List γ) (u : CaseData) (env : FileEnv) (path : Path)
    (name rtype : Str) (fs : Fs) : Prop where
  accepted : ∀ fs', outcome (removeDnsRecord u env path name rtype) fs = (.ok (), fs') →
    ∃ before after, contentOf fs path = some before ∧ contentOf fs' path = some after ∧
      recordsOf u (NanoDnsConf.parse after) =
        (recordsOf u (NanoDnsConf.parse before)).eraseP (matching u name rtype) ∧
      others after = others before
  refused : ∀ e fs', outcome (removeDnsRecord u env path name rtype) fs = (.error e, fs') →
    fs' path = fs path

/-- The line that would be written for the record is there, and from the first matching record up
to it there are only records equal to it. -/
def Canonical (u : CaseData) (conf : NanoDnsConf) (name rtype : Str) (target : DnsRecord) : Prop :=
  target.toConfValue ∈ conf.getAll keyRecord ∧
    ∀ r ∈ (((conf.getAll keyRecord).takeWhile (· ≠ target.toConfValue)).filterMap
      (DnsRecord.parse u)).dropWhile (!matching u name rtype ·), r = target

/-- Where there is a record to delete and the file can be edited, its line is the canonical one, the
other lines stand the edit, and a write that breaks off has come as far as the bytes of the old
file. -/
def Deletable (standing : Str → Prop) (u : CaseData) (env : FileEnv) (path : Path)
    (name rtype : Str) (fs : Fs) : Prop :=
  ∀ content target, env.readable = true → env.writable = true →
    contentOf fs path = some content →
    (recordsOf u (NanoDnsConf.parse content)).find? (matching u name rtype) = some target →
    (env.write = .done →
      Canonical u (NanoDnsConf.parse content) name rtype target ∧ standing content) ∧
    ∀ kept e, env.write = .cut kept e →
      fs path = some ((encode (removedText content target)).extract 0 kept)

section Outcome

variable {u : CaseData} {env : FileEnv} {path : Path} {name rtype : Str} {fs : Fs}

theorem removedRecord_eq_ok {conf edited : NanoDnsConf} :
    removedRecord u env path name rtype conf = .ok edited ↔
      ∃ target, (recordsOf u conf).find? (matching u name rtype) = some target ∧
        env.writable = true ∧ conf.removeWhere keyRecord target.toConfValue = edited := by
  have asked : (fun r : DnsRecord => decide (u.toLowercase r.name = u.toLowercase name ∧
      r.rtype = u.toUppercase rtype)) = matching u name rtype := rfl
  rw [removedRecord, asked]
  cases (recordsOf u conf).find? (matching u name rtype) with
  | none =>
      constructor
      · intro stopped
        cases stopped
      · intro holds
        rcases holds with ⟨_, none, _⟩
        cases none
  | some target =>
      simp only [bind_eq_ok, pure_eq_ok, require_eq_ok, Option.some.injEq]
      constructor
      · intro holds
        rcases holds with ⟨_, writable, same⟩
        exact ⟨target, rfl, writable, same⟩
      · intro holds
        rcases holds with ⟨_, rfl, writable, same⟩
        exact ⟨(), writable, same⟩

theorem recordEdit_removed_eq_ok {text : Str} :
    recordEdit env path (removedRecord u env path name rtype) fs = .ok text ↔
      ∃ content target, env.readable = true ∧ env.writable = true ∧
        contentOf fs path = some content ∧
        (recordsOf u (NanoDnsConf.parse content)).find? (matching u name rtype) = some target ∧
        removedText content target = text := by
  rw [recordEdit_eq_ok]
  constructor
  · intro holds
    rcases holds with ⟨readable, content, found, edited, changed, same⟩
    rcases removedRecord_eq_ok.mp changed with ⟨target, first, writable, rfl⟩
    exact ⟨content, target, readable, writable, found, first, same⟩
  · intro holds
    rcases holds with ⟨content, target, readable, writable, found, first, same⟩
    exact ⟨readable, content, found, _, removedRecord_eq_ok.mpr ⟨target, first, writable, rfl⟩,
      same⟩

theorem erased_iff (lawful : u.LawfulCommas) {content : Str} {target : DnsRecord}
    (first : (recordsOf u (NanoDnsConf.parse content)).find? (matching u name rtype) =
      some target) :
    recordsOf u (NanoDnsConf.parse (removedText content target)) =
        (recordsOf u (NanoDnsConf.parse content)).eraseP (matching u name rtype) ↔
      Canonical u (NanoDnsConf.parse content) name rtype target := by
  rcases List.mem_filterMap.mp (List.mem_of_find?_eq_some first) with ⟨raw, _, parsed⟩
  rw [recordsOf_removed]
  exact Decoded.filterMap_erase_eq_eraseP_iff (parse_toConfValue lawful parsed) first

theorem deletes_iff_of (lawful : u.LawfulCommas) {γ : Type} {others : Str → List γ}
    {standing : Str → Prop}
    (same : ∀ content target, others (removedText content target) = others content ↔
      standing content) :
    Deletes others u env path name rtype fs ↔ Deletable standing u env path name rtype fs := by
  constructor
  · intro deletes content target readable writable found first
    have edit : recordEdit env path (removedRecord u env path name rtype) fs = .ok _ :=
      recordEdit_removed_eq_ok.mpr ⟨content, target, readable, writable, found, first, rfl⟩
    refine ⟨fun whole => ?_, rewrite_refused_iff.mp deletes.refused _ edit⟩
    rcases rewrite_accepted_iff.mp deletes.accepted _ edit whole with
      ⟨before, after, here, there, erased, kept⟩
    rw [found, Option.some.injEq] at here
    rw [contentOf_put, Option.some.injEq] at there
    subst before after
    exact ⟨(erased_iff lawful first).mp erased, (same content target).mp kept⟩
  · intro deletable
    refine ⟨rewrite_accepted_iff.mpr ?_, rewrite_refused_iff.mpr ?_⟩
    · intro text edit whole
      rcases recordEdit_removed_eq_ok.mp edit with
        ⟨content, target, readable, writable, found, first, rfl⟩
      have holds := (deletable content target readable writable found first).1 whole
      exact ⟨content, _, found, contentOf_put .., (erased_iff lawful first).mpr holds.1,
        (same content target).mpr holds.2⟩
    · intro text edit
      rcases recordEdit_removed_eq_ok.mp edit with
        ⟨content, target, readable, writable, found, first, rfl⟩
      exact (deletable content target readable writable found first).2

/-- A record is deleted exactly where the line that would be written for it comes before any other
record from the first match on, and no write breaks off; the other lines are kept by key and value
unless a comment ends in a carriage return, and as texts if they stand as they are printed. -/
theorem deletes_record_iff (lawful : u.LawfulCommas) :
    (Deletes otherEntries u env path name rtype fs ↔
      Deletable NoStrayCr u env path name rtype fs) ∧
    (Deletes otherTexts u env path name rtype fs ↔
      Deletable AsPrinted u env path name rtype fs) :=
  ⟨deletes_iff_of lawful fun _ _ => otherEntries_same_iff,
    deletes_iff_of lawful fun _ _ => otherTexts_same_iff⟩

def nasConfig : Str := "domain=lan\nrecord=nas,A,192.168.1.3,300\n".toList

/-- The record is deleted under a name and a type in any case. -/
theorem deletes_nasConfig :
    Deletes otherTexts .ascii .willing etcNanodns "NAS".toList "a".toList
      (oneFile etcNanodns nasConfig) := by
  refine (deletes_record_iff CaseData.ascii_lawfulCommas).2.mpr ?_
  intro content target _ _ found first
  have here : contentOf (oneFile etcNanodns nasConfig) etcNanodns = some nasConfig :=
    contentOf_put ..
  rw [here, Option.some.injEq] at found
  subst content
  have nas : (recordsOf .ascii (NanoDnsConf.parse nasConfig)).find?
      (matching .ascii "NAS".toList "a".toList) =
        some ⟨"nas".toList, "A".toList, "192.168.1.3".toList, 300⟩ := by decide +kernel
  rw [nas, Option.some.injEq] at first
  subst target
  refine ⟨fun _ => ⟨?_, by unfold AsPrinted; decide +kernel⟩, fun kept e cut => nomatch cut⟩
  unfold Canonical
  decide +kernel

/-- A record whose type was given in lower case, as the program writes it too. -/
def lowerConfig : Str := "domain=lan\nrecord=nas,a,192.168.1.3,300\n".toList

/-- It is found, nothing is deleted, and the answer is a success. -/
theorem not_deletes_lowerConfig :
    (outcome (removeDnsRecord .ascii .willing etcNanodns "nas".toList "A".toList)
        (oneFile etcNanodns lowerConfig)).1 = .ok () ∧
      (¬ Deletes otherEntries .ascii .willing etcNanodns "nas".toList "A".toList
        (oneFile etcNanodns lowerConfig)) ∧
      ¬ Deletes otherTexts .ascii .willing etcNanodns "nas".toList "A".toList
        (oneFile etcNanodns lowerConfig) := by
  have found : contentOf (oneFile etcNanodns lowerConfig) etcNanodns = some lowerConfig :=
    contentOf_put ..
  have edit : recordEdit .willing etcNanodns (removedRecord .ascii .willing etcNanodns
      "nas".toList "A".toList) (oneFile etcNanodns lowerConfig) = .ok _ :=
    recordEdit_removed_eq_ok.mpr ⟨lowerConfig,
      ⟨"nas".toList, "A".toList, "192.168.1.3".toList, 300⟩, rfl, rfl, found, by decide +kernel,
      rfl⟩
  have done : outcome (removeDnsRecord .ascii .willing etcNanodns "nas".toList "A".toList)
      (oneFile etcNanodns lowerConfig) = (.ok (), _) := rewrite_ok.mpr ⟨rfl, _, edit, rfl⟩
  have stays : ∀ {γ : Type} (others : Str → List γ),
      ¬ Deletes others .ascii .willing etcNanodns "nas".toList "A".toList
        (oneFile etcNanodns lowerConfig) := by
    intro γ others deletes
    rcases deletes.accepted _ done with ⟨before, after, here, there, erased, _⟩
    rw [found, Option.some.injEq] at here
    rw [contentOf_put, Option.some.injEq] at there
    subst before after
    revert erased
    decide +kernel
  exact ⟨congrArg Prod.fst done, stays otherEntries, stays otherTexts⟩

end Outcome

end RecordRemoval

end TinyWifi
