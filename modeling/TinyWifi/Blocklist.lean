import TinyWifi.Adblock
import TinyWifi.Lib.Decoded
import TinyWifi.Lib.Lowercase
import TinyWifi.Lib.Utf8

/-! `adblock.rs`: the custom rules. A domain is looked up by a reader that trims and lower-cases
lines, added by bytes appended to the file, and removed by writing what was read back. -/

namespace TinyWifi

open Text Exec

section Model

/-- `BufRead::lines`, where a line that is not UTF-8 is passed over. -/
def physicalLines (bytes : ByteArray) : List Str :=
  (bytes.toList.splitOn 10).filterMap fun line => decode ⟨line.toArray⟩

def blocklistBytes (fs : Fs) : ByteArray := (fs blocklistPath).getD .empty

def normalize (u : UnicodeData) (s : Str) : Str := u.toLowercase (trim s)

/-- A file that is there can be opened. -/
def readBlocklistLines (u : UnicodeData) (fs : Fs) : List Str :=
  match fs blocklistPath with
  | none => []
  | some bytes =>
    ((physicalLines bytes).map (normalize u)).filter fun l => l ≠ [] ∧ l.head? ≠ some '#'

def addCustomBlock (u : UnicodeData) (system : WriteOutcome) (domain : Str) : Exec Fs Str Unit := do
  let domain := normalize u domain
  if domain = [] then throw "Empty domain".toList
  else
    let existing ← reading fun fs => .ok (readBlocklistLines u fs)
    if existing.any (· = domain) then pure ()
    else
      mapError IoError.message (appendFile system blocklistPath (encode (domain ++ ['\n'])))

def removeCustomBlock (u : UnicodeData) (system : WriteOutcome) (domain : Str) :
    Exec Fs Str Unit := do
  let domain := normalize u domain
  let lines ← reading fun fs => .ok (readBlocklistLines u fs)
  let filtered := lines.filter (· ≠ domain)
  mapError IoError.message (writeFile system blocklistPath (encode (unlines filtered)))

end Model

namespace Blocklist

def shown (u : UnicodeData) (lines : List Str) : List Str :=
  (lines.map (normalize u)).filter fun l => l ≠ [] ∧ l.head? ≠ some '#'

def listed (u : UnicodeData) (bytes : ByteArray) : List Str := shown u (physicalLines bytes)

section Physical

theorem bytes_encode (text : Str) :
    encode text = ⟨(text.flatMap String.utf8EncodeChar).toArray⟩ := by
  rw [encode, String.toByteArray_ofList, Utf8.utf8Encode_eq]

theorem toList_encode (text : Str) :
    (encode text).toList = text.flatMap String.utf8EncodeChar := by
  rw [encode, String.toByteArray_ofList, Utf8.toList_utf8Encode]

theorem decode_bytes (text : Str) :
    decode ⟨(text.flatMap String.utf8EncodeChar).toArray⟩ = some text := by
  rw [← bytes_encode, decode_encode]

theorem eq_encode_of_decode {bytes : ByteArray} {text : Str} (h : decode bytes = some text) :
    bytes = encode text := by
  rcases Option.map_eq_some_iff.mp h with ⟨chars, found, rfl⟩
  have valid : bytes.utf8Decode?.isSome = true := by rw [found, Option.isSome_some]
  have back := @ByteArray.utf8Encode_get_utf8Decode? bytes valid
  rw [Option.get_of_eq_some valid found] at back
  rw [encode, String.toByteArray_ofList, back]

theorem physicalLines_encode (text : Str) : physicalLines (encode text) = text.splitOn '\n' := by
  have each : ∀ line ∈ text.splitOn '\n',
      decode ⟨(line.flatMap String.utf8EncodeChar).toArray⟩ = some line :=
    fun line _ => decode_bytes line
  rw [physicalLines, toList_encode, Utf8.splitOn_flatMap, List.filterMap_map]
  exact (List.filterMap_congr each).trans List.filterMap_some

theorem physicalLines_empty : physicalLines .empty = [[]] := physicalLines_encode []

def openLine (bytes : ByteArray) : List UInt8 := (bytes.toList.splitOn 10).getLastD []

/-- Nothing but blanks comes after the last line feed. -/
def Ended (bytes : ByteArray) : Prop :=
  ∃ blanks, decode ⟨(openLine bytes).toArray⟩ = some blanks ∧ trim blanks = []

def closedLines (bytes : ByteArray) : List Str :=
  (bytes.toList.splitOn 10).dropLast.filterMap fun line => decode ⟨line.toArray⟩

theorem splitOn_eq (bytes : ByteArray) :
    bytes.toList.splitOn 10 = (bytes.toList.splitOn 10).dropLast ++ [openLine bytes] := by
  have nonempty := List.splitOn_ne_nil 10 bytes.toList
  rw [openLine, List.getLastD_eq_getLast?, List.getLast?_eq_some_getLast nonempty,
    Option.getD_some, List.dropLast_append_getLast]

theorem physicalLines_eq (bytes : ByteArray) :
    physicalLines bytes = closedLines bytes ++ (decode ⟨(openLine bytes).toArray⟩).toList := by
  rw [physicalLines, splitOn_eq, List.filterMap_append, Decoded.filterMap_singleton]
  rfl

/-- What is appended leaves the lines that are ended. -/
theorem physicalLines_append (bytes more : ByteArray) :
    physicalLines (bytes ++ more) = closedLines bytes ++
      ((more.toList.splitOn 10).modifyHead (openLine bytes ++ ·)).filterMap
        fun line => decode ⟨line.toArray⟩ := by
  rw [physicalLines, Utf8.toList_append, Utf8.splitOn_append (splitOn_eq bytes),
    List.filterMap_append]
  rfl

theorem physicalLines_append_line (bytes : ByteArray) {line : Str} (no_lf : '\n' ∉ line) :
    physicalLines (bytes ++ encode (line ++ ['\n'])) = closedLines bytes ++
      (decode (⟨(openLine bytes).toArray⟩ ++ encode line)).toList ++ [[]] := by
  have cut : (line ++ ['\n']).splitOn '\n' = [line, []] := by
    rw [Utf8.splitOn_append_of_not_mem no_lf]
    change [line ++ [], []] = _
    rw [List.append_nil]
  have joined : (⟨(openLine bytes ++ line.flatMap String.utf8EncodeChar).toArray⟩ : ByteArray) =
      ⟨(openLine bytes).toArray⟩ ++ encode line := by
    rw [bytes_encode]
    apply ByteArray.ext
    rw [ByteArray.data_append, List.append_toArray]
  have blank : [[]].filterMap (fun part : List UInt8 => decode ⟨part.toArray⟩) = [[]] := by
    rw [Decoded.filterMap_singleton]
    exact congrArg Option.toList (decode_bytes [])
  rw [physicalLines_append, toList_encode, Utf8.splitOn_flatMap, cut, List.map_cons,
    List.modifyHead_cons, ← List.singleton_append, List.filterMap_append,
    Decoded.filterMap_singleton, joined, List.append_assoc]
  refine congrArg _ (congrArg _ ?_)
  exact blank

theorem no_lf_of_mem_physicalLines {bytes : ByteArray} {line : Str}
    (h : line ∈ physicalLines bytes) : '\n' ∉ line := by
  rcases List.mem_filterMap.mp h with ⟨part, inside, decoded⟩
  have same : part = line.flatMap String.utf8EncodeChar :=
    congrArg (fun bytes => bytes.data.toList)
      ((eq_encode_of_decode decoded).trans (bytes_encode line))
  intro member
  have byte : 10 ∈ part := by
    rw [same]
    exact List.mem_flatMap.mpr ⟨'\n', member, by decide⟩
  exact absurd (not_of_mem_splitOnP inside byte) (by decide)

theorem decode_append {bytes : ByteArray} {text : Str} (h : decode bytes = some text)
    (more : Str) : decode (bytes ++ encode more) = some (text ++ more) := by
  have joined : encode (text ++ more) = encode text ++ encode more := by
    simp only [encode, String.toByteArray_ofList, List.utf8Encode_append]
  rw [eq_encode_of_decode h, ← joined, decode_encode]

theorem openLine_encode (text : Str) :
    openLine (encode text) =
      ((text.splitOn '\n').getLastD []).flatMap String.utf8EncodeChar := by
  rcases List.eq_nil_or_concat (text.splitOn '\n') with none | ⟨front, last, split⟩
  · exact absurd none (List.splitOn_ne_nil '\n' text)
  · rw [openLine, toList_encode, Utf8.splitOn_flatMap, split, List.concat_eq_append,
      List.map_append, List.map_singleton, List.getLastD_concat, List.getLastD_concat]

theorem decode_openLine {bytes : ByteArray} {text : Str} (h : decode bytes = some text) :
    decode ⟨(openLine bytes).toArray⟩ = some ((text.splitOn '\n').getLastD []) := by
  rw [eq_encode_of_decode h, openLine_encode, decode_bytes]

theorem ended_encode_iff (text : Str) :
    Ended (encode text) ↔ trim ((text.splitOn '\n').getLastD []) = [] := by
  have found := decode_openLine (decode_encode text)
  constructor
  · intro ended
    rcases ended with ⟨blanks, same, blank⟩
    rw [found, Option.some.injEq] at same
    rwa [same]
  · intro blank
    exact ⟨_, found, blank⟩

end Physical

theorem readBlocklistLines_eq (u : UnicodeData) (fs : Fs) :
    readBlocklistLines u fs = listed u (blocklistBytes fs) := by
  unfold readBlocklistLines blocklistBytes
  cases fs blocklistPath with
  | none =>
      change [] = listed u ByteArray.empty
      rw [listed, physicalLines_empty]
      rfl
  | some bytes => rfl

section Normal

variable {u : UnicodeData}

structure Named (u : UnicodeData) (l : Str) : Prop where
  nonempty : l ≠ []
  no_comment : l.head? ≠ some '#'
  no_lf : '\n' ∉ l
  normal : normalize u l = l

variable (lawful : u.Lawful)

include lawful

theorem trimmed_normalize (s : Str) : Trimmed (normalize u s) :=
  lawful.trimmed_toLowercase (trimmed_trim s)

theorem normalize_normalize (s : Str) : normalize u (normalize u s) = normalize u s := by
  calc normalize u (normalize u s)
    _ = u.toLowercase (normalize u s) :=
      congrArg u.toLowercase (trim_of_trimmed (trimmed_normalize lawful s))
    _ = normalize u s := lawful.toLowercase_toLowercase (trim s)

theorem normalize_append_iff {t s : Str} (nonempty : normalize u s ≠ []) :
    normalize u (t ++ normalize u s) = normalize u s ↔ trim t = [] := by
  rcases around_trim t with ⟨front, back, split, white_front, white_back⟩
  have ink := trimmed_normalize lawful s
  constructor
  · intro same
    by_contra text
    have last : ∀ c ∈ (trim t ++ (back ++ normalize u s)).getLast?, isWhitespace c = false := by
      rw [← List.append_assoc, List.getLast?_append_of_ne_nil _ nonempty]
      exact ink.last
    have head : ∀ c ∈ (trim t ++ (back ++ normalize u s)).head?, isWhitespace c = false := by
      rw [List.head?_append_of_ne_nil _ text]
      exact (trimmed_trim t).head
    have inner := trim_around white_front (List.forall_mem_nil _) ⟨head, last⟩
    have whole : t ++ normalize u s = front ++ (trim t ++ (back ++ normalize u s)) ++ [] := by
      nth_rewrite 1 [split]
      simp only [List.append_assoc, List.append_nil]
    rcases lawful.lowerFrom_append_lower [] (trim t ++ back) (trim s) with ⟨first, shape, empty⟩
    rw [normalize, whole, inner, ← List.append_assoc] at same
    have grown : first ++ normalize u s = normalize u s := shape.symm.trans same
    have nothing := empty (List.append_left_eq_self.mp grown)
    exact text (List.append_eq_nil_iff.mp nothing).1
  · intro blank
    have white : ∀ c ∈ t, isWhitespace c := by
      rw [split, blank]
      intro c member
      rw [List.append_nil] at member
      rcases List.mem_append.mp member with before | after
      · exact white_front c before
      · exact white_back c after
    have inner := trim_around white (List.forall_mem_nil _) ink
    rw [List.append_nil] at inner
    calc normalize u (t ++ normalize u s)
      _ = u.toLowercase (normalize u s) := congrArg u.toLowercase inner
      _ = normalize u s := lawful.toLowercase_toLowercase (trim s)

end Normal

section Listed

variable {u : UnicodeData}

theorem shown_append (front back : List Str) :
    shown u (front ++ back) = shown u front ++ shown u back := by
  rw [shown, List.map_append, List.filter_append]
  rfl

theorem mem_shown_singleton {line l : Str} :
    l ∈ shown u [line] ↔ l = normalize u line ∧ l ≠ [] ∧ l.head? ≠ some '#' := by
  rw [shown, List.mem_filter, List.map_singleton, List.mem_singleton, decide_eq_true_eq]

theorem shown_blank {line : Str} (blank : trim line = []) : shown u [line] = [] := by
  rw [shown, List.map_singleton, normalize, blank]
  rfl

variable (lawful : u.Lawful)

include lawful

theorem named_of_mem_listed {bytes : ByteArray} {l : Str} (h : l ∈ listed u bytes) : Named u l := by
  rcases List.mem_filter.mp h with ⟨inside, kept⟩
  rcases List.mem_map.mp inside with ⟨raw, physical, rfl⟩
  have kept := of_decide_eq_true kept
  exact ⟨kept.1, kept.2,
    fun member => no_lf_of_mem_physicalLines physical (mem_of_mem_trim (lawful.lf member)),
    normalize_normalize lawful raw⟩

omit lawful in
/-- Lines in normal form are read back, but for the comments and the blanks. -/
theorem listed_unlines {parts : List Str}
    (normal : ∀ l ∈ parts, '\n' ∉ l ∧ normalize u l = l) :
    listed u (encode (unlines parts)) = parts.filter fun l => l ≠ [] ∧ l.head? ≠ some '#' := by
  have same : parts.map (normalize u) = parts :=
    Decoded.map_eq_self_iff.mpr fun l member => (normal l member).2
  rw [listed, physicalLines_encode, splitOn_unlines fun l member => (normal l member).1,
    shown_append, shown_blank rfl, List.append_nil, shown, same]

omit lawful in
theorem listed_unlines_named {parts : List Str} (named : ∀ l ∈ parts, Named u l) :
    listed u (encode (unlines parts)) = parts := by
  rw [listed_unlines fun l member => ⟨(named l member).no_lf, (named l member).normal⟩]
  exact List.filter_eq_self.mpr fun l member =>
    decide_eq_true ⟨(named l member).nonempty, (named l member).no_comment⟩

def added (u : UnicodeData) (domain : Str) (bytes : ByteArray) : ByteArray :=
  bytes ++ encode (normalize u domain ++ ['\n'])

/-- The domain can be told from a comment and stays on its line, and the file has no open line. -/
structure Appendable (u : UnicodeData) (domain : Str) (bytes : ByteArray) : Prop where
  no_lf : '\n' ∉ normalize u domain
  no_comment : (normalize u domain).head? ≠ some '#'
  ended : Ended bytes

omit lawful in
theorem listed_eq {bytes : ByteArray} {last : Str}
    (found : decode ⟨(openLine bytes).toArray⟩ = some last) :
    listed u bytes = shown u (closedLines bytes) ++ shown u [last] := by
  rw [listed, physicalLines_eq, found, shown_append]
  rfl

omit lawful in
theorem listed_added {domain : Str} {bytes : ByteArray} {last : Str}
    (no_lf : '\n' ∉ normalize u domain) (found : decode ⟨(openLine bytes).toArray⟩ = some last) :
    listed u (added u domain bytes) =
      shown u (closedLines bytes) ++ shown u [last ++ normalize u domain] := by
  rw [listed, added, physicalLines_append_line bytes no_lf, decode_append found,
    Option.toList_some, shown_append, shown_append, shown_blank (show trim [] = [] from rfl),
    List.append_nil]

theorem listed_added_of_appendable {domain : Str} {bytes : ByteArray}
    (nonempty : normalize u domain ≠ []) (appendable : Appendable u domain bytes) :
    listed u (added u domain bytes) = listed u bytes ++ [normalize u domain] := by
  rcases appendable.ended with ⟨last, found, blank⟩
  have alone := (normalize_append_iff lawful nonempty).mpr blank
  have line : shown u [last ++ normalize u domain] = [normalize u domain] := by
    rw [shown, List.map_singleton, alone]
    exact List.filter_eq_self.mpr (List.forall_mem_singleton.mpr
      (decide_eq_true ⟨nonempty, appendable.no_comment⟩))
  rw [listed_eq found, listed_added appendable.no_lf found, shown_blank blank, line,
    List.append_nil]

/-- A domain that is listed after it was appended was listed before, or could be appended. -/
theorem appendable_of_mem {domain : Str} {bytes : ByteArray} {text : Str}
    (nonempty : normalize u domain ≠ []) (valid : decode bytes = some text)
    (absent : normalize u domain ∉ listed u bytes)
    (member : normalize u domain ∈ listed u (added u domain bytes)) :
    Appendable u domain bytes := by
  have named := named_of_mem_listed lawful member
  have found := decode_openLine valid
  refine ⟨named.no_lf, named.no_comment, _, found, ?_⟩
  rw [listed_added named.no_lf found] at member
  rcases List.mem_append.mp member with earlier | appended
  · rw [listed_eq found] at absent
    exact absurd (List.mem_append_left _ earlier) absent
  · have alone := (mem_shown_singleton.mp appended).1
    exact (normalize_append_iff lawful nonempty).mp alone.symm

end Listed

section Outcome

variable {u : UnicodeData} {system : WriteOutcome} {domain : Str} {fs fs' : Fs}

theorem addCustomBlock_ok :
    outcome (addCustomBlock u system domain) fs = (.ok (), fs') ↔
      normalize u domain ≠ [] ∧
        if normalize u domain ∈ listed u (blocklistBytes fs) then fs = fs'
        else system = .done ∧ put blocklistPath (added u domain (blocklistBytes fs)) fs = fs' := by
  unfold addCustomBlock
  dsimp only
  rw [outcome_ite]
  split
  · next empty =>
      constructor
      · intro stopped
        cases (Prod.mk.inj stopped).1
      · intro holds
        exact absurd empty holds.1
  · next nonempty =>
      rw [outcome_bind, outcome_reading]
      dsimp only
      rw [outcome_ite, and_iff_right nonempty, readBlocklistLines_eq]
      by_cases present : normalize u domain ∈ listed u (blocklistBytes fs)
      · rw [if_pos (List.any_eq_true.mpr ⟨_, present, decide_eq_true rfl⟩), if_pos present]
        constructor
        · intro done
          exact (Prod.mk.inj done).2
        · intro same
          rw [same]
          rfl
      · have missed : ¬ (listed u (blocklistBytes fs)).any (· = normalize u domain) = true := by
          intro found
          rcases List.any_eq_true.mp found with ⟨l, member, same⟩
          rw [of_decide_eq_true same] at member
          exact present member
        rw [if_neg missed, if_neg present, outcome_mapError_ok, outcome_appendFile_ok]
        rfl

theorem addCustomBlock_absent (nonempty : normalize u domain ≠ [])
    (absent : normalize u domain ∉ listed u (blocklistBytes fs)) :
    outcome (addCustomBlock u .done domain) fs =
      (.ok (), put blocklistPath (added u domain (blocklistBytes fs)) fs) := by
  rw [addCustomBlock_ok, if_neg absent]
  exact ⟨nonempty, rfl, rfl⟩

theorem removeCustomBlock_ok :
    outcome (removeCustomBlock u system domain) fs = (.ok (), fs') ↔
      system = .done ∧ put blocklistPath (encode (unlines
        ((listed u (blocklistBytes fs)).filter (· ≠ normalize u domain)))) fs = fs' := by
  unfold removeCustomBlock
  dsimp only
  rw [outcome_bind, outcome_reading]
  dsimp only
  rw [outcome_mapError_ok, outcome_writeFile_ok, readBlocklistLines_eq]

@[simp] theorem blocklistBytes_put (bytes : ByteArray) (fs : Fs) :
    blocklistBytes (put blocklistPath bytes fs) = bytes := by
  rw [blocklistBytes, put_self, Option.getD_some]

theorem listed_removed (lawful : u.Lawful)
    (done : outcome (removeCustomBlock u system domain) fs = (.ok (), fs')) :
    readBlocklistLines u fs' =
      (readBlocklistLines u fs).filter (· ≠ normalize u domain) := by
  rcases removeCustomBlock_ok.mp done with ⟨_, rfl⟩
  rw [readBlocklistLines_eq, readBlocklistLines_eq, blocklistBytes_put]
  exact listed_unlines_named fun l member =>
    named_of_mem_listed lawful (List.mem_of_mem_filter member)

end Outcome

/-- Adding and removing a domain does to the set that is read back what the names say. -/
structure ActsAsSet (u : UnicodeData) (domain : Str) (fs : Fs) : Prop where
  included : ∀ system fs', outcome (addCustomBlock u system domain) fs = (.ok (), fs') →
    ∀ l, l ∈ readBlocklistLines u fs' ↔ l ∈ readBlocklistLines u fs ∨ l = normalize u domain
  excluded : ∀ system fs', outcome (removeCustomBlock u system domain) fs = (.ok (), fs') →
    readBlocklistLines u fs' = (readBlocklistLines u fs).filter (· ≠ normalize u domain)
  twice : ∀ system fs', outcome (addCustomBlock u system domain) fs = (.ok (), fs') →
    ∀ again, outcome (addCustomBlock u again domain) fs' = (.ok (), fs')

theorem appendable_of_actsAsSet {u : UnicodeData} (lawful : u.Lawful) {domain : Str} {fs : Fs}
    {text : Str} (valid : decode (blocklistBytes fs) = some text)
    (nonempty : normalize u domain ≠ [])
    (absent : normalize u domain ∉ listed u (blocklistBytes fs)) (acts : ActsAsSet u domain fs) :
    Appendable u domain (blocklistBytes fs) := by
  have done := addCustomBlock_absent nonempty absent
  have member := (acts.included .done _ done (normalize u domain)).mpr (.inr rfl)
  rw [readBlocklistLines_eq, blocklistBytes_put] at member
  exact appendable_of_mem lawful nonempty valid absent member

theorem mem_listed_add {u : UnicodeData} (lawful : u.Lawful) {system : WriteOutcome} {domain : Str}
    {fs fs' : Fs} (clear : normalize u domain ∉ listed u (blocklistBytes fs) →
      Appendable u domain (blocklistBytes fs))
    (done : outcome (addCustomBlock u system domain) fs = (.ok (), fs')) (l : Str) :
    l ∈ listed u (blocklistBytes fs') ↔
      l ∈ listed u (blocklistBytes fs) ∨ l = normalize u domain := by
  rcases addCustomBlock_ok.mp done with ⟨nonempty, holds⟩
  split at holds
  · next present =>
      subst holds
      constructor
      · exact .inl
      · intro either
        rcases either with member | same
        · exact member
        · exact same ▸ present
  · next absent =>
      rcases holds with ⟨_, rfl⟩
      rw [blocklistBytes_put, listed_added_of_appendable lawful nonempty (clear absent),
        List.mem_append, List.mem_singleton]

/-- For a list in UTF-8 the domain acts on a set exactly where it is listed already, or is no
comment, stays on a line, and finds the last line of the file ended. -/
theorem actsAsSet_iff {u : UnicodeData} (lawful : u.Lawful) {domain : Str} {fs : Fs} {text : Str}
    (valid : decode (blocklistBytes fs) = some text) (nonempty : normalize u domain ≠ []) :
    ActsAsSet u domain fs ↔
      normalize u domain ∈ readBlocklistLines u fs ∨
        Appendable u domain (blocklistBytes fs) := by
  rw [readBlocklistLines_eq]
  constructor
  · intro acts
    by_cases present : normalize u domain ∈ listed u (blocklistBytes fs)
    · exact .inl present
    · exact .inr (appendable_of_actsAsSet lawful valid nonempty present acts)
  · intro clear
    refine ⟨fun system fs' done l => ?_, fun _ _ done => listed_removed lawful done,
      fun system fs' done again => ?_⟩
    · rw [readBlocklistLines_eq, readBlocklistLines_eq]
      exact mem_listed_add lawful clear.resolve_left done l
    · have present := (mem_listed_add lawful clear.resolve_left done _).mpr (.inr rfl)
      rw [addCustomBlock_ok, if_pos present]
      exact ⟨nonempty, rfl⟩

/-- A list whose last line is ended takes a domain. -/
theorem actsAsSet_endedList :
    ActsAsSet .ascii " Tracker.com".toList (oneFile blocklistPath "ads.com\n".toList) := by
  have bytes : blocklistBytes (oneFile blocklistPath "ads.com\n".toList) =
      encode "ads.com\n".toList := blocklistBytes_put _ _
  have valid : decode (blocklistBytes (oneFile blocklistPath "ads.com\n".toList)) =
      some "ads.com\n".toList := by rw [bytes, decode_encode]
  refine (actsAsSet_iff UnicodeData.ascii_lawful valid (by decide)).mpr (.inr ?_)
  refine ⟨by decide, by decide, ?_⟩
  rw [bytes, ended_encode_iff]
  decide

/-- A list whose last line is open takes it as the end of that line, and answers with a success. -/
theorem not_actsAsSet_openList :
    (outcome (addCustomBlock .ascii .done "tracker.com".toList)
        (oneFile blocklistPath "ads.com".toList)).1 = .ok () ∧
      ¬ ActsAsSet .ascii "tracker.com".toList (oneFile blocklistPath "ads.com".toList) := by
  have bytes : blocklistBytes (oneFile blocklistPath "ads.com".toList) =
      encode "ads.com".toList := blocklistBytes_put _ _
  have absent : normalize .ascii "tracker.com".toList ∉
      listed .ascii (blocklistBytes (oneFile blocklistPath "ads.com".toList)) := by
    rw [bytes, listed, physicalLines_encode]
    decide
  have nonempty : normalize .ascii "tracker.com".toList ≠ [] := by decide
  have valid : decode (blocklistBytes (oneFile blocklistPath "ads.com".toList)) =
      some "ads.com".toList := by rw [bytes, decode_encode]
  constructor
  · exact congrArg Prod.fst (addCustomBlock_absent nonempty absent)
  · intro acts
    have ended :=
      (appendable_of_actsAsSet UnicodeData.ascii_lawful valid nonempty absent acts).ended
    rw [bytes, ended_encode_iff] at ended
    revert ended
    decide

end Blocklist

end TinyWifi
