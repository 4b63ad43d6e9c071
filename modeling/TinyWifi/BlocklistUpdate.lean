import Mathlib.Data.Char
import Mathlib.Data.Finset.Sort
import Mathlib.Data.List.Lex
import TinyWifi.Blocklist

/-! `adblock.rs`: the refresh of the blocklist. The lists of the sources are downloaded in hosts
format, merged, and written with one domain a line. -/

namespace TinyWifi

open Text Exec Checks

/-- What comes of a `curl` process; the standard error is given as its lossy text. -/
inductive CurlAnswer
  | notRun (error : IoError)
  | exited (success : Bool) (status : Str) (stdout : ByteArray) (stderr : Str)

structure UpdateEnv where
  curl : Str → CurlAnswer
  utf8Error : ByteArray → Str
  createDir : Except IoError Unit
  write : WriteOutcome

section Model

def sources : List (Str × Str) :=
  [("StevenBlack".toList,
    "https://raw.githubusercontent.com/StevenBlack/hosts/master/hosts".toList)]

def fetchUrl (env : UpdateEnv) (url : Str) : Except Str Str :=
  match env.curl url with
  | .notRun error => .error ("curl: ".toList ++ error.message)
  | .exited success status stdout stderr =>
    if success then
      match decode stdout with
      | some body => .ok body
      | none => .error (env.utf8Error stdout)
    else .error ("curl exit ".toList ++ status ++ ": ".toList ++ trim stderr)

def sinkholes : List Str := ["0.0.0.0".toList, "127.0.0.1".toList]

/-- The domains that are left out: localhost and bare IPs. -/
def skipped (d : Str) : Bool :=
  d = "localhost".toList || d.all fun c => c.isDigit || c = '.'

def parseHostsLine (u : UnicodeData) (line : Str) : Option Str :=
  let line := trim line
  if line = [] ∨ line.head? = some '#' then none
  else
    let parts := splitWhitespace line
    let ip := parts.head?.getD []
    if !sinkholes.contains ip then none
    else
      match parts.tail.head? with
      | none => none
      | some domain =>
        let d := u.toLowercase domain
        if skipped d then none else some d

def parseHostsInto (u : UnicodeData) (body : Str) (set : Finset Str) : Finset Str :=
  (Text.lines body).foldl (fun set line => (parseHostsLine u line).elim set (insert · set)) set

def fetchInto (u : UnicodeData) (env : UpdateEnv) (domains : Finset Str) (source : Str × Str) :
    Except Str (Finset Str) :=
  match fetchUrl env source.2 with
  | .ok body => .ok (parseHostsInto u body domains)
  | .error e => .error ("Failed to fetch ".toList ++ source.1 ++ ": ".toList ++ e)

/-- Texts are sorted by their characters, which is the order of their bytes in UTF-8. -/
def writeBlocklist (env : UpdateEnv) (path : Path) (domains : Finset Str) : Exec Fs Str Unit := do
  reading fun _ => env.createDir.mapError IoError.message
  mapError IoError.message (writeFile env.write path (encode (unlines domains.sort)))

def updateBlocklist (u : UnicodeData) (env : UpdateEnv) : Exec Fs Str Nat := do
  let domains ← reading fun _ => sources.foldlM (fetchInto u env) ∅
  writeBlocklist env blocklistPath domains
  pure domains.card

end Model

namespace Blocklist

section Hosts

variable {u : UnicodeData}

/-- The second field of a sinkhole line. -/
def SinkField (line field : Str) : Prop :=
  ∃ ip rest, splitWhitespace line = ip :: field :: rest ∧ ip ∈ sinkholes

theorem splitWhitespace_of_trim_nil {line : Str} (blank : trim line = []) :
    splitWhitespace line = [] := by
  rw [← splitWhitespace_trim, blank]
  rfl

theorem not_sinkhole_of_comment {line : Str} (comment : (trim line).head? = some '#')
    {field : Str} : ¬ SinkField line field := by
  intro sink
  rcases sink with ⟨ip, rest, split, hole⟩
  rcases List.head?_eq_some_iff.mp comment with ⟨after, shape⟩
  rcases splitWhitespace_cons (show isWhitespace '#' = false by decide) after with
    ⟨word, more, words⟩
  rw [← splitWhitespace_trim, shape, words] at split
  rw [← (List.cons_eq_cons.mp split).1] at hole
  rcases List.mem_cons.mp hole with zeros | rest
  · cases zeros
  · cases List.mem_singleton.mp rest

theorem parseHostsLine_eq_some_iff {line d : Str} :
    parseHostsLine u line = some d ↔
      ∃ field, SinkField line field ∧ u.toLowercase field = d ∧ skipped d = false := by
  unfold parseHostsLine
  dsimp only
  split
  · next passed =>
      constructor
      · intro some
        cases some
      · intro found
        rcases found with ⟨field, sink, _⟩
        rcases passed with blank | comment
        · rcases sink with ⟨ip, rest, split, _⟩
          rw [splitWhitespace_of_trim_nil blank] at split
          cases split
        · exact absurd sink (not_sinkhole_of_comment comment)
  · rw [splitWhitespace_trim]
    constructor
    · intro found
      cases split : splitWhitespace line with
      | nil =>
          rw [split] at found
          cases found
      | cons ip rest =>
          rw [split] at found
          change (if !sinkholes.contains ip then none else _) = _ at found
          split at found
          · cases found
          · next hole =>
              have hole : ip ∈ sinkholes := by simpa using hole
              cases rest with
              | nil => cases found
              | cons field more =>
                  change (if skipped (u.toLowercase field) then none else _) = _ at found
                  split at found
                  · cases found
                  · next kept =>
                      have same := Option.some.inj found
                      refine ⟨field, ⟨ip, more, split, hole⟩, same, ?_⟩
                      rw [← same]
                      exact eq_false_of_ne_true kept
    · intro found
      rcases found with ⟨field, ⟨ip, rest, split, hole⟩, same, kept⟩
      have listed : ¬ (!sinkholes.contains ip) = true := by simpa using hole
      rw [← same] at kept
      rw [split]
      change (if !sinkholes.contains ip then none else
        if skipped (u.toLowercase field) then none else some (u.toLowercase field)) = some d
      rw [if_neg listed, if_neg (ne_true_of_eq_false kept), same]

theorem mem_parseHostsInto {body : Str} {set : Finset Str} {d : Str} :
    d ∈ parseHostsInto u body set ↔
      d ∈ set ∨ ∃ line ∈ Text.lines body, parseHostsLine u line = some d := by
  unfold parseHostsInto
  induction Text.lines body generalizing set with
  | nil => simp
  | cons line rest ih =>
      rw [List.foldl_cons, ih, List.exists_mem_cons_iff, ← or_assoc]
      apply or_congr_left
      cases parseHostsLine u line with
      | none => simp
      | some e =>
          rw [Option.elim_some, Finset.mem_insert, Option.some.injEq, or_comm, eq_comm]

def Sinkholed (u : UnicodeData) (body d : Str) : Prop :=
  ∃ line ∈ Text.lines body, ∃ field, SinkField line field ∧ u.toLowercase field = d ∧
    skipped d = false

theorem mem_downloaded {body d : Str} : d ∈ parseHostsInto u body ∅ ↔ Sinkholed u body d := by
  simp only [mem_parseHostsInto, Finset.notMem_empty, false_or, parseHostsLine_eq_some_iff,
    Sinkholed]

theorem mem_sort_downloaded {body d : Str} :
    d ∈ (parseHostsInto u body ∅).sort ↔ Sinkholed u body d := by
  rw [Finset.mem_sort, mem_downloaded]

theorem normal_of_sinkholed (lawful : u.Lawful) {body d : Str} (sinkholed : Sinkholed u body d) :
    d ≠ [] ∧ (∀ c ∈ d, isWhitespace c = false) ∧ normalize u d = d := by
  rcases sinkholed with ⟨line, _, field, ⟨ip, rest, split, _⟩, rfl, _⟩
  have member : field ∈ splitWhitespace line := by
    rw [split]
    exact List.mem_cons_of_mem ip List.mem_cons_self
  have word : field ≠ [] := of_decide_eq_true (List.mem_filter.mp member).2
  have ink := lawful.toLowercase_not_white fun c inside =>
    not_whitespace_of_mem_splitWhitespace member inside
  have trimmed := trim_of_trimmed (trimmed_of_ink ink)
  refine ⟨u.toLowercase_ne_nil word, ink, ?_⟩
  rw [normalize, trimmed, lawful.toLowercase_toLowercase]

end Hosts

section Written

variable {u : UnicodeData} {body : Str}

/-- The list is written in strictly increasing order and read back as the domains of the body that
are no comments, and the number is that of the counter and of the reader. -/
structure WrittenExactly (u : UnicodeData) (body : Str) (n : Nat) (fs' : Fs) : Prop where
  sorted : ∃ text, contentOf fs' blocklistPath = some text ∧ (Text.lines text).Pairwise (· < ·)
  same_set : ∀ d, d ∈ readBlocklistLines u fs' ↔ Sinkholed u body d ∧ d.head? ≠ some '#'
  counted : n = countDomains blocklistPath fs'
  read : n = (readBlocklistLines u fs').length

/-- No second field of a sinkhole line begins a comment. -/
def NoInlineComment (u : UnicodeData) (body : Str) : Prop :=
  ∀ line ∈ Text.lines body, ∀ field, SinkField line field →
    (u.toLowercase field).head? ≠ some '#'

def hostsBytes (u : UnicodeData) (body : Str) : ByteArray :=
  encode (unlines (parseHostsInto u body ∅).sort)

theorem countDomains_eq (fs : Fs) :
    countDomains blocklistPath fs = ((physicalLines (blocklistBytes fs)).countP fun line =>
      trim line ≠ [] ∧ (trim line).head? ≠ some '#') := by
  unfold countDomains blocklistBytes
  cases fs blocklistPath with
  | none =>
      change 0 = (physicalLines ByteArray.empty).countP _
      rw [physicalLines_empty]
      rfl
  | some bytes => rfl

variable (lawful : u.Lawful)

include lawful

theorem normal_of_mem_sort {d : Str} (member : d ∈ (parseHostsInto u body ∅).sort) :
    d ≠ [] ∧ (∀ c ∈ d, isWhitespace c = false) ∧ normalize u d = d :=
  normal_of_sinkholed lawful (mem_sort_downloaded.mp member)

theorem no_lf_of_mem_sort {d : Str} (member : d ∈ (parseHostsInto u body ∅).sort) : '\n' ∉ d := by
  intro inside
  cases (normal_of_mem_sort lawful member).2.1 '\n' inside

theorem listed_hostsBytes :
    listed u (hostsBytes u body) =
      (parseHostsInto u body ∅).sort.filter fun d => d.head? ≠ some '#' := by
  rw [hostsBytes, listed_unlines fun d member =>
    ⟨no_lf_of_mem_sort lawful member, (normal_of_mem_sort lawful member).2.2⟩]
  apply List.filter_congr
  intro d member
  simp [(normal_of_mem_sort lawful member).1]

theorem countDomains_hostsBytes (fs : Fs) :
    countDomains blocklistPath (put blocklistPath (hostsBytes u body) fs) =
      (listed u (hostsBytes u body)).length := by
  rw [countDomains_eq, blocklistBytes_put, listed_hostsBytes lawful, hostsBytes,
    physicalLines_encode, splitOn_unlines fun d member => no_lf_of_mem_sort lawful member,
    List.countP_append, List.countP_eq_length_filter]
  change _ + 0 = _
  rw [Nat.add_zero]
  apply congrArg List.length
  apply List.filter_congr
  intro d member
  have plain := normal_of_mem_sort lawful member
  have trimmed := trim_of_trimmed (trimmed_of_ink plain.2.1)
  simp [trimmed, plain.1]

theorem lines_hostsBytes :
    ∃ text, decode (hostsBytes u body) = some text ∧
      Text.lines text = (parseHostsInto u body ∅).sort := by
  refine ⟨_, decode_encode _, ?_⟩
  rw [lines_unlines fun d member => no_lf_of_mem_sort lawful member, Decoded.map_eq_self_iff]
  intro d member
  apply stripCr_of_not_endsCr
  intro ends
  cases (normal_of_mem_sort lawful member).2.1 '\r' (List.mem_of_mem_getLast? ends)

/-- A file of the downloaded domains is exact where no comment was taken for a domain. -/
theorem writtenExactly_hostsBytes_iff (fs : Fs) :
    WrittenExactly u body (parseHostsInto u body ∅).card
        (put blocklistPath (hostsBytes u body) fs) ↔ NoInlineComment u body := by
  have listing : readBlocklistLines u (put blocklistPath (hostsBytes u body) fs) =
      (parseHostsInto u body ∅).sort.filter fun d => d.head? ≠ some '#' := by
    rw [readBlocklistLines_eq, blocklistBytes_put, listed_hostsBytes lawful]
  have size : (parseHostsInto u body ∅).card = (parseHostsInto u body ∅).sort.length :=
    (Finset.length_sort _).symm
  constructor
  · intro exact_file line member field sink comment
    have full := exact_file.read
    rw [listing, size] at full
    have all := List.length_filter_eq_length_iff.mp full.symm
    have kept : skipped (u.toLowercase field) = false := by
      rcases List.head?_eq_some_iff.mp comment with ⟨rest, shape⟩
      rw [shape]
      rfl
    have sinkholed : Sinkholed u body (u.toLowercase field) :=
      ⟨line, member, field, sink, rfl, kept⟩
    exact of_decide_eq_true (all _ (mem_sort_downloaded.mpr sinkholed)) comment
  · intro clean
    have all : ∀ d ∈ (parseHostsInto u body ∅).sort, decide (d.head? ≠ some '#') = true := by
      intro d member
      rcases mem_sort_downloaded.mp member with
        ⟨line, inside, field, sink, same, _⟩
      exact decide_eq_true (same ▸ clean line inside field sink)
    have whole := listing.trans (List.filter_eq_self.mpr all)
    rcases @lines_hostsBytes u body lawful with ⟨text, found, lines⟩
    constructor
    · refine ⟨text, ?_, lines ▸ (Finset.sortedLT_sort _).pairwise⟩
      rw [contentOf, put_self, Option.bind_some, found]
    · intro d
      rw [listing, List.mem_filter, mem_sort_downloaded, decide_eq_true_eq]
    · rw [countDomains_hostsBytes lawful, ← blocklistBytes_put (hostsBytes u body) fs,
        ← readBlocklistLines_eq, whole, size]
    · rw [whole, size]

end Written

section Outcome

variable {u : UnicodeData} {env : UpdateEnv} {fs fs' : Fs}

def Fetched (env : UpdateEnv) (body : Str) : Prop :=
  ∀ source ∈ sources, fetchUrl env source.2 = .ok body

theorem updateBlocklist_ok {n : Nat} :
    outcome (updateBlocklist u env) fs = (.ok n, fs') ↔
      ∃ body, Fetched env body ∧ env.createDir = .ok () ∧ env.write = .done ∧
        (parseHostsInto u body ∅).card = n ∧
        put blocklistPath (hostsBytes u body) fs = fs' := by
  unfold updateBlocklist writeBlocklist
  rw [outcome_bind_ok]
  constructor
  · intro ran
    rcases ran with ⟨domains, _, downloaded, rest⟩
    rcases outcome_bind_ok.mp rest with ⟨_, _, written, counted⟩
    rcases outcome_bind_ok.mp written with ⟨_, _, made, wrote⟩
    rcases Prod.mk.inj downloaded with ⟨merged, rfl⟩
    rcases Prod.mk.inj made with ⟨dir, rfl⟩
    rcases Prod.mk.inj counted with ⟨number, rfl⟩
    rcases outcome_writeFile_ok.mp (outcome_mapError_ok.mp wrote) with ⟨whole, same⟩
    rcases bind_eq_ok.mp merged with ⟨first, fetched, nothing⟩
    cases nothing
    unfold fetchInto at fetched
    split at fetched
    · next body found =>
        cases fetched
        exact ⟨body, List.forall_mem_singleton.mpr found, mapError_eq_ok.mp dir, whole,
          Except.ok.inj number, same⟩
    · cases fetched
  · intro holds
    rcases holds with ⟨body, fetched, dir, whole, number, same⟩
    have found := List.forall_mem_singleton.mp fetched
    have merged : sources.foldlM (fetchInto u env) ∅ = .ok (parseHostsInto u body ∅) := by
      apply bind_eq_ok.mpr
      refine ⟨parseHostsInto u body ∅, ?_, rfl⟩
      unfold fetchInto
      rw [found]
    refine ⟨parseHostsInto u body ∅, fs, congrArg (·, fs) merged,
      outcome_bind_ok.mpr ⟨(), fs', outcome_bind_ok.mpr ⟨(), fs, ?_, ?_⟩, ?_⟩⟩
    · rw [outcome_reading, dir]
      rfl
    · rw [outcome_mapError_ok, outcome_writeFile_ok]
      exact ⟨whole, same⟩
    · rw [outcome_pure, number]

/-- The list of a body is written exactly where no second field of a sinkhole line begins a
comment. -/
theorem writtenExactly_iff (lawful : u.Lawful) {body : Str} (fetched : Fetched env body)
    (dir : env.createDir = .ok ()) (whole : env.write = .done) :
    ∃ n fs', outcome (updateBlocklist u env) fs = (.ok n, fs') ∧
      (WrittenExactly u body n fs' ↔ NoInlineComment u body) :=
  ⟨_, _, updateBlocklist_ok.mpr ⟨body, fetched, dir, whole, rfl, rfl⟩,
    writtenExactly_hostsBytes_iff lawful fs⟩

def serving (body : Str) : UpdateEnv :=
  ⟨fun _ => .exited true "exit status: 0".toList (encode body) [], fun _ => [], .ok (), .done⟩

theorem fetched_serving (body : Str) : Fetched (serving body) body := by
  intro source _
  change (match decode (encode body) with | some body => Except.ok body | none => _) = _
  rw [decode_encode]

theorem updateBlocklist_serving (body : Str) (fs : Fs) :
    outcome (updateBlocklist u (serving body)) fs =
      (.ok (parseHostsInto u body ∅).card, put blocklistPath (hostsBytes u body) fs) :=
  updateBlocklist_ok.mpr ⟨body, fetched_serving body, rfl, rfl, rfl, rfl⟩

end Outcome

def hostsBody : Str :=
  "# a list\n127.0.0.1 localhost\n0.0.0.0 Ads.com # ads\r\n0.0.0.0\tads.com\n0.0.0.0 1.1\n".toList

theorem writtenExactly_hostsBody :
    ∃ n fs', outcome (updateBlocklist .ascii (serving hostsBody)) (fun _ => none) = (.ok n, fs') ∧
      WrittenExactly .ascii hostsBody n fs' := by
  rcases writtenExactly_iff UnicodeData.ascii_lawful (fetched_serving hostsBody) rfl rfl with
    ⟨n, fs', done, written⟩
  have fields : ∀ line ∈ Text.lines hostsBody, ∀ field ∈ (splitWhitespace line).tail.head?,
      (UnicodeData.ascii.toLowercase field).head? ≠ some '#' := by decide +kernel
  refine ⟨n, fs', done, written.mpr fun line member field sink => ?_⟩
  rcases sink with ⟨ip, rest, split, _⟩
  exact fields line member field (by rw [split]; rfl)

def commentBody : Str := "0.0.0.0 # ads\n".toList

/-- The comment is written and counted as a domain, and not read back. -/
theorem not_writtenExactly_commentBody :
    ∃ n fs', outcome (updateBlocklist .ascii (serving commentBody)) (fun _ => none) = (.ok n, fs') ∧
      ¬ WrittenExactly .ascii commentBody n fs' := by
  refine ⟨_, _, updateBlocklist_serving commentBody _, ?_⟩
  rw [writtenExactly_hostsBytes_iff UnicodeData.ascii_lawful]
  intro clean
  have line : "0.0.0.0 # ads".toList ∈ Text.lines commentBody := by decide
  have sink : SinkField "0.0.0.0 # ads".toList ['#'] :=
    ⟨"0.0.0.0".toList, ["ads".toList], by decide, by decide⟩
  exact clean _ line _ sink (by decide)

end Blocklist

end TinyWifi
