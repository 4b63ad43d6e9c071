import Mathlib.Data.Bool.AllAny
import TinyWifi.Files
import TinyWifi.Lib.Ipv4
import TinyWifi.Lib.Lines

/-! `leases.rs`: the file in which nanodhcp keeps its leases, one line for each. The reader trims a
line and splits it at single spaces; what it cannot read it leaves out. -/

namespace TinyWifi

open Text

inductive LeaseStatus
  | active
  | expired
  deriving DecidableEq, Repr

inductive LeasesState
  | active
  | stale
  | empty
  | error
  deriving DecidableEq, Repr

structure Lease where
  hostname : Option Str
  mac : Str
  ip : Ipv4Addr
  leaseExpires : UInt64
  status : LeaseStatus
  deriving DecidableEq, Repr

structure LeasesReport where
  state : LeasesState
  leases : List Lease
  error : Option Str
  deriving DecidableEq, Repr

def LeasesReport.empty : LeasesReport := ⟨.empty, [], none⟩

def LeasesReport.failed (message : Str) : LeasesReport := ⟨.error, [], some message⟩

namespace Leases

def parseLine (now : UInt64) (line : Str) : Option Lease :=
  if line = [] ∨ line.head? = some '#' then none
  else
    match splitN ' ' 4 line with
    | mac :: ip :: hostnameRaw :: rest => do
      let ip ← Ipv4Addr.parse ip
      let hostname := if hostnameRaw = [] ∨ hostnameRaw = ['*'] then none else some hostnameRaw
      let expiry := rest.head?.bind fun field => parseUnsigned 18446744073709551616 (trim field)
      let leaseExpires := UInt64.ofNat (expiry.getD 0)
      return ⟨hostname, mac, ip, leaseExpires, if leaseExpires > now then .active else .expired⟩
    | _ => none

def parseLeases (content : Str) (now : UInt64) : List Lease :=
  (Text.lines content).filterMap fun line => parseLine now (trim line)

def classify (running : Bool) (leaseCount : Nat) : LeasesState :=
  if leaseCount = 0 then .empty else if running then .active else .stale

def readAt (readable : Bool) (path : Path) (now : UInt64) (running : Bool) (fs : Fs) :
    LeasesReport :=
  if fileExists fs path = false then LeasesReport.empty
  else if readable = false then
    LeasesReport.failed ("leases file not readable: ".toList ++ path)
  else
    match readToString fs path with
    | .error e => LeasesReport.failed ("failed to read leases file: ".toList ++ e.message)
    | .ok content =>
      let leases := parseLeases content now
      ⟨classify running leases.length, leases, none⟩

structure Field (text : Str) : Prop where
  nonempty : text ≠ []
  ink : ∀ c ∈ text, isWhitespace c = false

/-- A lease as nanodhcp writes it; the hostname `*` stands for a client without one. -/
structure Entry where
  mac : Str
  ip : Ipv4Addr
  hostname : Str
  expiry : UInt64
  mac_field : Field mac
  mac_plain : mac.head? ≠ some '#'
  hostname_field : Field hostname

def Entry.render (entry : Entry) : Str :=
  entry.mac ++ ' ' :: (entry.ip.print ++ ' ' ::
    (entry.hostname ++ ' ' :: printNat entry.expiry.toNat))

def Entry.lease (now : UInt64) (entry : Entry) : Lease where
  hostname := if entry.hostname = ['*'] then none else some entry.hostname
  mac := entry.mac
  ip := entry.ip
  leaseExpires := entry.expiry
  status := if entry.expiry > now then .active else .expired

/-- The second field of a line once its indentation is trimmed, as the reader sees it. -/
def secondField (line : Str) : Option Str := ((trimStart line).splitOn ' ')[1]?

/-- A line that is no lease: blank, a comment, or without an address in its second field. -/
def Noise (line : Str) : Prop :=
  trim line = [] ∨ (trim line).head? = some '#' ∨
    ∀ field ∈ secondField line, Ipv4Addr.parse field = none

inductive FileLine
  | lease (entry : Entry)
  | noise (line : Str) (no_lf : '\n' ∉ line) (skipped : Noise line)

def FileLine.text : FileLine → Str
  | .lease entry => entry.render
  | .noise line _ _ => line

def FileLine.entry : FileLine → Option Entry
  | .lease entry => some entry
  | .noise _ _ _ => none

def entries (file : List FileLine) : List Entry := file.filterMap FileLine.entry

/-- The text of a leases file; its last line may be left open. -/
def TextOf (file : List FileLine) (content : Str) : Prop :=
  content = unlines (file.map FileLine.text) ∨ content = join ['\n'] (file.map FileLine.text)

section Entry

theorem Field.no_space {text : Str} (h : Field text) : ' ' ∉ text :=
  not_mem_of_ink (by decide) h.ink

theorem Field.no_lf {text : Str} (h : Field text) : '\n' ∉ text :=
  not_mem_of_ink (by decide) h.ink

variable (entry : Entry)

theorem Entry.head_render : entry.render.head? = entry.mac.head? :=
  List.head?_append_of_ne_nil _ entry.mac_field.nonempty

theorem Entry.trimmed_render : Trimmed entry.render := by
  constructor
  · intro c member
    rw [entry.head_render] at member
    exact entry.mac_field.ink c (List.mem_of_mem_head? member)
  · intro c member
    have front : entry.render = (entry.mac ++ ' ' :: (entry.ip.print ++ ' ' ::
        (entry.hostname ++ [' ']))) ++ printNat entry.expiry.toNat := by
      simp [Entry.render]
    have number : printNat entry.expiry.toNat ≠ [] := Nat.toDigits_ne_nil
    rw [front, List.getLast?_append_of_ne_nil _ number] at member
    exact isDigit_not_whitespace (isDigit_of_mem_printNat (List.mem_of_mem_getLast? member))

theorem Entry.splitN_render : splitN ' ' 4 entry.render =
    [entry.mac, entry.ip.print, entry.hostname, printNat entry.expiry.toNat] := by
  have ip : ' ' ∉ entry.ip.print := entry.ip.not_mem_print (by decide) (by decide)
  rw [Entry.render, splitN_cons entry.mac_field.no_space, splitN_cons ip,
    splitN_cons entry.hostname_field.no_space, splitN]

theorem Entry.no_lf_render : '\n' ∉ entry.render := by
  have mac := entry.mac_field.no_lf
  have hostname := entry.hostname_field.no_lf
  have ip : '\n' ∉ entry.ip.print := entry.ip.not_mem_print (by decide) (by decide)
  have expiry : '\n' ∉ printNat entry.expiry.toNat := not_mem_printNat (by decide)
  simp [Entry.render, mac, hostname, ip, expiry]

theorem parseLine_render (now : UInt64) : parseLine now entry.render = some (entry.lease now) := by
  have kept : ¬ (entry.render = [] ∨ entry.render.head? = some '#') := by
    intro left_out
    rcases left_out with empty | comment
    · exact entry.mac_field.nonempty (List.append_eq_nil_iff.mp empty).1
    · exact entry.mac_plain (by rw [← entry.head_render, comment])
  have number : parseUnsigned 18446744073709551616 (trim (printNat entry.expiry.toNat)) =
      some entry.expiry.toNat := by
    rw [trim_of_trimmed (trimmed_printNat _), parseUnsigned_printNat entry.expiry.toNat_lt]
  have hostname := entry.hostname_field.nonempty
  rw [parseLine, if_neg kept, entry.splitN_render]
  simp [number, hostname, Entry.lease]

end Entry

section Noise

variable {line : Str}

/-- The blanks behind a line are no address. -/
theorem secondField_of_trim {first second tail : Str}
    (h : trim line = first ++ ' ' :: (second ++ ' ' :: tail)) (plain : ' ' ∉ first)
    (plain' : ' ' ∉ second) : secondField line = some second := by
  rcases trimEnd_isPrefix (trimStart line) with ⟨back, whole⟩
  have shape : trimStart line = first ++ ' ' :: (second ++ ' ' :: (tail ++ back)) := by
    rw [← whole, ← trim, h]
    simp
  rw [secondField, shape, List.splitOn_append_cons_self_of_not_mem plain,
    List.splitOn_append_cons_self_of_not_mem plain']
  rfl

theorem parseLine_noise (now : UInt64) (h : Noise line) : parseLine now (trim line) = none := by
  unfold parseLine
  split
  · rfl
  · next kept =>
      rcases h with blank | comment | other
      · exact absurd (.inl blank) kept
      · exact absurd (.inr comment) kept
      · split
        · next mac ip hostname rest parts =>
            rcases splitN_eq_cons_cons parts with ⟨tail, whole, plain, parts⟩
            rcases splitN_eq_cons_cons parts with ⟨tail', whole', plain', _⟩
            have second := secondField_of_trim (by rw [whole, whole']) plain plain'
            rw [other ip second]
            rfl
        · rfl

end Noise

section File

variable (now : UInt64)

theorem FileLine.no_lf (line : FileLine) : '\n' ∉ line.text := by
  cases line with
  | lease entry => exact entry.no_lf_render
  | noise line no_lf skipped => exact no_lf

theorem parseLine_text (line : FileLine) :
    parseLine now (trim line.text) = line.entry.map (Entry.lease now) := by
  cases line with
  | lease entry =>
      change parseLine now (trim entry.render) = some (entry.lease now)
      rw [trim_of_trimmed entry.trimmed_render, parseLine_render]
  | noise line no_lf skipped => exact parseLine_noise now skipped

theorem parseLeases_textOf {file : List FileLine} {content : Str} (h : TextOf file content) :
    parseLeases content now = (entries file).map (Entry.lease now) := by
  have lf : ∀ text ∈ file.map FileLine.text, '\n' ∉ text := by
    intro text member
    rcases List.mem_map.mp member with ⟨line, _, rfl⟩
    exact line.no_lf
  have empty : parseLine now [] = none := rfl
  rw [parseLeases, filterMap_trim_lines empty lf h, List.filterMap_map, entries,
    List.map_filterMap]
  exact List.filterMap_congr fun line _ => parseLine_text now line

theorem readAt_text {path : Path} {fs : Fs} {content : Str}
    (found : contentOf fs path = some content) (running : Bool) :
    readAt true path now running fs = ⟨classify running (parseLeases content now).length,
      parseLeases content now, none⟩ := by
  have present := exists_of_contentOf found
  have read := readToString_eq_ok.mpr found
  rw [readAt, if_neg (by simp [present]), if_neg (by simp), read]

theorem classify_eq_empty_iff {running : Bool} {count : Nat} :
    classify running count = .empty ↔ count = 0 := by
  unfold classify
  split
  · next none => simp [none]
  · next some => cases running <;> simp [some]

theorem state_eq_empty_iff {path : Path} {fs : Fs} {content : Str}
    (found : contentOf fs path = some content) (running : Bool) :
    (readAt true path now running fs).state = .empty ↔ parseLeases content now = [] := by
  rw [readAt_text now found running, classify_eq_empty_iff, List.length_eq_zero_iff]

end File

/-- A leases file with noise between its lines is read as the leases that were written. -/
theorem leases_decoded {file : List FileLine} {content : Str} (written : TextOf file content)
    (now : UInt64) :
    parseLeases content now = (entries file).map (Entry.lease now) ∧
      (∀ entry : Entry, ((entry.lease now).hostname = none ↔ entry.hostname = ['*']) ∧
        ((entry.lease now).status = .active ↔ now < entry.expiry)) ∧
      ∀ fs path running, contentOf fs path = some content →
        (readAt true path now running fs).leases = (entries file).map (Entry.lease now) ∧
          ((readAt true path now running fs).state = .empty ↔ entries file = []) := by
  have decoded := parseLeases_textOf now written
  refine ⟨decoded, ?_, ?_⟩
  · intro entry
    constructor
    · by_cases placeholder : entry.hostname = ['*'] <;> simp [Entry.lease, placeholder]
    · by_cases later : entry.expiry > now <;> simp [Entry.lease, later]
  · intro fs path running found
    constructor
    · rw [readAt_text now found running, decoded]
    · rw [state_eq_empty_iff now found running, decoded, List.map_eq_nil_iff]

def phone : Entry where
  mac := "aa:bb:cc:dd:ee:01".toList
  ip := ⟨192, 168, 44, 100⟩
  hostname := "phone".toList
  expiry := 2000
  mac_field := ⟨by decide, List.all_iff_forall_prop.mp rfl⟩
  mac_plain := by decide
  hostname_field := ⟨by decide, List.all_iff_forall_prop.mp rfl⟩

theorem leases_decoded_phone :
    parseLeases "# leases\naa:bb:cc:dd:ee:01 192.168.44.100 phone 2000".toList 3000 =
      [phone.lease 3000] := by
  have comment : Noise "# leases".toList := .inr (.inl (by decide))
  have written : TextOf [.noise "# leases".toList (by decide) comment, .lease phone]
      "# leases\naa:bb:cc:dd:ee:01 192.168.44.100 phone 2000".toList := .inr rfl
  exact (leases_decoded written 3000).1

/-- The second field of an indented line is its MAC, and yet the line is read as a lease: the reader
trims the line first. -/
theorem indented_line_is_read :
    (" m 10.0.0.1 h 5".toList.splitOn ' ')[1]? = some "m".toList ∧
      Ipv4Addr.parse "m".toList = none ∧
      parseLeases " m 10.0.0.1 h 5".toList 3 =
        [⟨some "h".toList, "m".toList, ⟨10, 0, 0, 1⟩, 5, .active⟩] :=
  ⟨by decide +kernel, by decide +kernel, by decide +kernel⟩

end Leases

end TinyWifi
