import Mathlib.Data.Bool.AllAny
import TinyWifi.Lib.Decimal

/-! `parse_iw_scan`: the access points in the output of `iw dev <iface> scan dump`. Every line is
trimmed first, so the indentation of the dump is not seen. -/

namespace TinyWifi

open Text

structure ScannedAp where
  bssid : Str
  ssid : Str
  channel : UInt8
  signal : Int
  deriving DecidableEq, Repr

namespace IwScan

structure ScanState where
  aps : List ScannedAp
  bssid : Str
  ssid : Str
  channel : UInt8
  signal : Int
  deriving DecidableEq, Repr

def ScanState.start : ScanState := ⟨[], [], [], 0, 0⟩

/-- The entries, with the one that is being read. -/
def ScanState.pushed (s : ScanState) : List ScannedAp :=
  if s.bssid = [] then s.aps else s.aps ++ [⟨s.bssid, s.ssid, s.channel, s.signal⟩]

def bssPrefix : Str := "BSS ".toList
def ssidPrefix : Str := "SSID:".toList
def channelPrefix : Str := "DS Parameter set: channel".toList
def signalPrefix : Str := "signal:".toList

def isHeader (line : Str) : Bool := startsWith bssPrefix line && line.contains ':'

def bssidIn (line : Str) : Str := (line.drop 4).takeWhile (· ≠ ' ')

def channelIn (line : Str) : UInt8 :=
  (((splitWhitespace line).getLast?.bind (parseUnsigned 256)).map UInt8.ofNat).getD 0

section Parser

-- `parse::<f32>().unwrap_or(0.0) as i32`
variable (signalOf : Str → Int)

def scanLine (s : ScanState) (line : Str) : ScanState :=
  if isHeader line then ⟨s.pushed, bssidIn line, [], 0, 0⟩
  else if startsWith ssidPrefix line then { s with ssid := trim (line.drop 5) }
  else if startsWith channelPrefix line then { s with channel := channelIn line }
  else if startsWith signalPrefix line then
    { s with signal := signalOf (((splitWhitespace line)[1]?).getD ['0']) }
  else s

def parseIwScan (text : Str) : List ScannedAp :=
  ((Text.lines text).foldl (fun s line => scanLine signalOf s (trim line)) .start).pushed

end Parser

/-- What `iw` prints for one access point: its `BSS` line and the indented lines below. -/
structure BssBlock where
  mac : Str
  iface : Str
  associated : Bool
  attributes : List Str
  mac_colon : ':' ∈ mac
  mac_ink : ∀ c ∈ mac, isWhitespace c = false
  iface_ink : ∀ c ∈ iface, isWhitespace c = false
  one_line : ∀ attr ∈ attributes, '\n' ∉ attr

namespace BssBlock

def bssLine (block : BssBlock) : Str :=
  bssPrefix ++ block.mac ++ "(on ".toList ++ block.iface ++ ')' ::
    if block.associated then " -- associated".toList else []

def lines (block : BssBlock) : List Str := block.bssLine :: block.attributes.map ('\t' :: ·)

def ssidOf (attr : Str) : Option Str :=
  if startsWith ssidPrefix (trim attr) then some (trim ((trim attr).drop 5)) else none

def channelOf (attr : Str) : Option UInt8 :=
  if startsWith channelPrefix (trim attr) then some (channelIn (trim attr)) else none

def ssid (block : BssBlock) : Str := ((block.attributes.filterMap ssidOf).getLast?).getD []

def channel (block : BssBlock) : UInt8 := ((block.attributes.filterMap channelOf).getLast?).getD 0

def signalIn (signalOf : Str → Int) (attr : Str) : Option Int :=
  if startsWith signalPrefix (trim attr) then
    some (signalOf (((splitWhitespace (trim attr))[1]?).getD ['0']))
  else none

def signal (signalOf : Str → Int) (block : BssBlock) : Int :=
  ((block.attributes.filterMap (signalIn signalOf)).getLast?).getD 0

/-- What the parser makes of the block: the address keeps what `iw` prints right behind it. -/
def entry (signalOf : Str → Int) (block : BssBlock) : ScannedAp :=
  ⟨block.mac ++ "(on".toList, block.ssid, block.channel, block.signal signalOf⟩

def Plain (block : BssBlock) : Prop := ∀ attr ∈ block.attributes, isHeader (trim attr) = false

end BssBlock

def dump (blocks : List BssBlock) : Str := unlines (blocks.flatMap BssBlock.lines)

def shown (ap : ScannedAp) : Str × Str × UInt8 := (ap.bssid, ap.ssid, ap.channel)

/-- One entry for each access point, in order, with its address, SSID and channel. -/
def Lists (signalOf : Str → Int) (blocks : List BssBlock) : Prop :=
  (parseIwScan signalOf (dump blocks)).map shown =
    blocks.map fun block => (block.mac, block.ssid, block.channel)

section Print

variable (block : BssBlock)

theorem BssBlock.bssLine_eq : ∃ rest, block.bssLine = 'B' :: 'S' :: 'S' :: ' ' ::
    (block.mac ++ "(on".toList ++ ' ' :: rest) := by
  refine ⟨block.iface ++ ')' :: if block.associated then " -- associated".toList else [], ?_⟩
  have front : bssPrefix = ['B', 'S', 'S', ' '] := rfl
  have blank : "(on ".toList = "(on".toList ++ [' '] := rfl
  rw [BssBlock.bssLine, front, blank]
  simp only [List.append_assoc, List.cons_append, List.nil_append]

theorem BssBlock.trimmed_bssLine : Trimmed block.bssLine := by
  constructor
  · rcases block.bssLine_eq with ⟨rest, shape⟩
    rw [shape]
    intro c member
    have first : 'B' = c := by simpa using member
    rw [← first]
    decide
  · intro c member
    rw [BssBlock.bssLine, List.getLast?_append_of_ne_nil _ (List.cons_ne_nil _ _)] at member
    cases associated : block.associated with
    | false =>
        have last : ')' = c := by simpa [associated] using member
        rw [← last]
        decide
    | true =>
        have last : 'd' = c := by simpa [associated] using member
        rw [← last]
        decide

theorem BssBlock.isHeader_bssLine : isHeader block.bssLine = true := by
  rcases block.bssLine_eq with ⟨rest, shape⟩
  have colon := block.mac_colon
  rw [shape, isHeader, Bool.and_eq_true, startsWith_iff]
  exact ⟨⟨_, rfl⟩, by simp [colon]⟩

theorem BssBlock.bssidIn_bssLine : bssidIn block.bssLine = block.mac ++ "(on".toList := by
  rcases block.bssLine_eq with ⟨rest, shape⟩
  have plain : ∀ c ∈ block.mac ++ "(on".toList, decide (c ≠ ' ') = true := by
    intro c member
    rw [decide_eq_true_eq]
    rintro rfl
    rcases List.mem_append.mp member with inside | inside
    · exact not_mem_of_ink (by decide) block.mac_ink inside
    · exact absurd inside (by decide)
  rw [bssidIn, shape]
  change (block.mac ++ "(on".toList ++ ' ' :: rest).takeWhile (· ≠ ' ') = _
  rw [List.takeWhile_append_of_pos plain, List.takeWhile_cons_of_neg (by simp), List.append_nil]

theorem BssBlock.no_lf : ∀ line ∈ block.lines, '\n' ∉ line := by
  intro line member
  rcases List.mem_cons.mp member with rfl | indented
  · have mac : '\n' ∉ block.mac := not_mem_of_ink (by decide) block.mac_ink
    have iface : '\n' ∉ block.iface := not_mem_of_ink (by decide) block.iface_ink
    cases associated : block.associated with
    | false => simp [BssBlock.bssLine, bssPrefix, mac, iface, associated]
    | true => simp [BssBlock.bssLine, bssPrefix, mac, iface, associated]
  · rcases List.mem_map.mp indented with ⟨attr, listed, rfl⟩
    simpa using block.one_line attr listed

end Print

section Scan

variable (signalOf : Str → Int)

def scan (s : ScanState) (lines : List Str) : ScanState :=
  lines.foldl (fun s line => scanLine signalOf s (trim line)) s

theorem parseIwScan_dump (blocks : List BssBlock) : parseIwScan signalOf (dump blocks) =
    (scan signalOf .start (blocks.flatMap BssBlock.lines)).pushed := by
  have lf : ∀ line ∈ blocks.flatMap BssBlock.lines, '\n' ∉ line := by
    intro line member
    rcases List.mem_flatMap.mp member with ⟨block, _, inside⟩
    exact block.no_lf line inside
  rw [parseIwScan, dump, lines_unlines lf, List.foldl_map, scan]
  simp only [trim_stripCr]

theorem scanLine_bssLine (s : ScanState) (block : BssBlock) :
    scanLine signalOf s (trim block.bssLine) =
      ⟨s.pushed, block.mac ++ "(on".toList, [], 0, 0⟩ := by
  rw [trim_of_trimmed block.trimmed_bssLine, scanLine, if_pos block.isHeader_bssLine,
    block.bssidIn_bssLine]

section First

variable {bssid : Str}

/-- The first entry has this address, whether it is still being read or not. -/
def First (bssid : Str) (s : ScanState) : Prop :=
  (s.aps = [] ∧ s.bssid = bssid) ∨ s.aps.head?.map ScannedAp.bssid = some bssid

theorem head_pushed (nonempty : bssid ≠ []) {s : ScanState} (first : First bssid s) :
    s.pushed.head?.map ScannedAp.bssid = some bssid := by
  rcases first with reading | listed
  · have present : ¬ s.bssid = [] := by
      rw [reading.2]
      exact nonempty
    rw [ScanState.pushed, if_neg present, reading.1, ← reading.2]
    rfl
  · unfold ScanState.pushed
    split
    · exact listed
    · cases shape : s.aps with
      | nil => simp [shape] at listed
      | cons ap rest => simpa [shape] using listed

theorem first_scanLine (nonempty : bssid ≠ []) {s : ScanState} (first : First bssid s)
    (line : Str) : First bssid (scanLine signalOf s line) := by
  unfold scanLine
  split
  · exact .inr (head_pushed nonempty first)
  · split
    · exact first
    · split
      · exact first
      · split
        · exact first
        · exact first

theorem first_scan (nonempty : bssid ≠ []) (lines : List Str) {s : ScanState}
    (first : First bssid s) : First bssid (scan signalOf s lines) := by
  induction lines generalizing s with
  | nil => exact first
  | cons line rest ih => exact ih (first_scanLine signalOf nonempty first (trim line))

/-- The first entry of a dump has no address but the first word of its line. -/
theorem head_parseIwScan (block : BssBlock) (rest : List BssBlock) :
    (parseIwScan signalOf (dump (block :: rest))).head?.map ScannedAp.bssid =
      some (block.mac ++ "(on".toList) := by
  have nonempty : block.mac ++ "(on".toList ≠ [] := by simp
  rw [parseIwScan_dump]
  apply head_pushed nonempty
  rw [List.flatMap_cons, BssBlock.lines, List.cons_append, scan, List.foldl_cons,
    scanLine_bssLine]
  exact first_scan signalOf nonempty _ (.inl ⟨rfl, rfl⟩)

end First

section Plain

theorem trim_indented (attr : Str) : trim ('\t' :: attr) = trim attr := by
  have white : ∀ c ∈ ['\t'], isWhitespace c = true := List.forall_mem_singleton.mpr rfl
  exact trim_white_append white attr

/-- The value that the last of several lines gives. -/
theorem getLast_filterMap_cons {α β : Type} (f : α → Option β) (a : α) (rest : List α)
    (value : β) : (((a :: rest).filterMap f).getLast?).getD value =
      ((rest.filterMap f).getLast?).getD ((f a).getD value) := by
  cases found : f a with
  | none => rw [List.filterMap_cons_none found, Option.getD_none]
  | some b =>
      rw [List.filterMap_cons_some found, List.getLast?_cons, Option.getD_some, Option.getD_some]

theorem startsWith_head {c : Char} {front line : Str} (h : startsWith (c :: front) line = true) :
    line.head? = some c := by
  obtain ⟨rest, rfl⟩ := startsWith_iff.mp h
  rfl

/-- A line below the `BSS` line changes one field of its entry. -/
theorem scanLine_plain (s : ScanState) {attr : Str} (plain : isHeader (trim attr) = false) :
    scanLine signalOf s (trim ('\t' :: attr)) =
      ⟨s.aps, s.bssid, (BssBlock.ssidOf attr).getD s.ssid,
        (BssBlock.channelOf attr).getD s.channel,
        (BssBlock.signalIn signalOf attr).getD s.signal⟩ := by
  have apart {c d : Char} {front back : Str} (differ : c ≠ d)
      (first : startsWith (c :: front) (trim attr) = true) :
      startsWith (d :: back) (trim attr) = false := by
    rw [← Bool.not_eq_true]
    intro second
    exact differ (Option.some.inj ((startsWith_head first).symm.trans (startsWith_head second)))
  rw [trim_indented, scanLine, if_neg (by simp [plain]), BssBlock.ssidOf, BssBlock.channelOf,
    BssBlock.signalIn]
  by_cases ssid : startsWith ssidPrefix (trim attr) = true
  · have channel : startsWith channelPrefix (trim attr) = false := apart (by decide) ssid
    have signal : startsWith signalPrefix (trim attr) = false := apart (by decide) ssid
    simp [ssid, channel, signal]
  · by_cases channel : startsWith channelPrefix (trim attr) = true
    · have signal : startsWith signalPrefix (trim attr) = false := apart (by decide) channel
      simp [ssid, channel, signal]
    · by_cases signal : startsWith signalPrefix (trim attr) = true
      · simp [ssid, channel, signal]
      · simp [ssid, channel, signal]

theorem scan_plain (s : ScanState) {attributes : List Str}
    (plain : ∀ attr ∈ attributes, isHeader (trim attr) = false) :
    scan signalOf s (attributes.map ('\t' :: ·)) =
      ⟨s.aps, s.bssid, ((attributes.filterMap BssBlock.ssidOf).getLast?).getD s.ssid,
        ((attributes.filterMap BssBlock.channelOf).getLast?).getD s.channel,
        ((attributes.filterMap (BssBlock.signalIn signalOf)).getLast?).getD s.signal⟩ := by
  induction attributes generalizing s with
  | nil => rfl
  | cons attr rest ih =>
      have first := scanLine_plain signalOf s (plain attr List.mem_cons_self)
      have later := ih (scanLine signalOf s (trim ('\t' :: attr)))
        fun other member => plain other (List.mem_cons_of_mem attr member)
      rw [List.map_cons, scan, List.foldl_cons, getLast_filterMap_cons, getLast_filterMap_cons,
        getLast_filterMap_cons]
      rw [scan] at later
      rw [later, first]

theorem scan_block (s : ScanState) {block : BssBlock} (plain : block.Plain) :
    (scan signalOf s block.lines).pushed = s.pushed ++ [block.entry signalOf] := by
  have nonempty : ¬ block.mac ++ "(on".toList = [] := by simp
  have scanned := scan_plain signalOf ⟨s.pushed, block.mac ++ "(on".toList, [], 0, 0⟩ plain
  rw [scan] at scanned
  rw [BssBlock.lines, scan, List.foldl_cons, scanLine_bssLine, scanned, ScanState.pushed,
    if_neg nonempty]
  rfl

theorem scan_blocks (s : ScanState) {blocks : List BssBlock}
    (plain : ∀ block ∈ blocks, block.Plain) :
    (scan signalOf s (blocks.flatMap BssBlock.lines)).pushed =
      s.pushed ++ blocks.map (BssBlock.entry signalOf) := by
  induction blocks generalizing s with
  | nil => simp [scan]
  | cons block rest ih =>
      have first := scan_block signalOf s (plain block List.mem_cons_self)
      have later := ih (scan signalOf s block.lines)
        fun other member => plain other (List.mem_cons_of_mem block member)
      rw [List.flatMap_cons, scan, List.foldl_append]
      rw [scan, scan] at later
      rw [scan] at first
      rw [later, first, List.map_cons, List.append_assoc, List.singleton_append]

/-- Where no line below a `BSS` line looks like one, every access point has one entry, in order, and
all but the end of its address is right. -/
theorem parseIwScan_plain {blocks : List BssBlock} (plain : ∀ block ∈ blocks, block.Plain) :
    parseIwScan signalOf (dump blocks) = blocks.map (BssBlock.entry signalOf) := by
  rw [parseIwScan_dump, scan_blocks signalOf .start plain]
  rfl

end Plain

end Scan

/-- The list is right only where there is nothing to list. -/
theorem lists_iff (signalOf : Str → Int) (blocks : List BssBlock) :
    Lists signalOf blocks ↔ blocks = [] := by
  constructor
  · intro lists
    cases blocks with
    | nil => rfl
    | cons block rest =>
        have head := head_parseIwScan signalOf block rest
        have first := congrArg List.head? lists
        rw [List.map_cons, List.head?_cons, List.head?_map] at first
        cases parsed : (parseIwScan signalOf (dump (block :: rest))).head? with
        | none =>
            rw [parsed] at head
            cases head
        | some ap =>
            rw [parsed, Option.map_some, Option.some_inj] at head first
            have same : ap.bssid = block.mac := congrArg Prod.fst first
            rw [same] at head
            simp at head
  · intro none
    rw [none]
    rfl

def home : BssBlock where
  mac := "aa:bb:cc:dd:ee:ff".toList
  iface := "wlan1".toList
  associated := false
  attributes := ["SSID: home".toList, "DS Parameter set: channel 6".toList]
  mac_colon := by decide
  mac_ink := List.all_iff_forall_prop.mp rfl
  iface_ink := List.all_iff_forall_prop.mp rfl
  one_line := List.all_iff_forall_prop.mp rfl

theorem home_is_misread : parseIwScan (fun _ => 0) (dump [home]) =
      [⟨"aa:bb:cc:dd:ee:ff(on".toList, "home".toList, 6, 0⟩] ∧
    ¬ Lists (fun _ => 0) [home] := by
  have read : parseIwScan (fun _ => 0) (dump [home]) =
      [⟨"aa:bb:cc:dd:ee:ff(on".toList, "home".toList, 6, 0⟩] := by decide
  refine ⟨read, ?_⟩
  rw [Lists, read]
  decide

def neighbours : List BssBlock :=
  [home, { home with
    mac := "11:22:33:44:55:66".toList
    associated := true
    attributes := ["signal: -65.00 dBm".toList]
    mac_colon := by decide
    mac_ink := List.all_iff_forall_prop.mp rfl
    one_line := List.all_iff_forall_prop.mp rfl }]

theorem parseIwScan_neighbours :
    parseIwScan (fun text => -(text.length : Int)) (dump neighbours) =
      neighbours.map (BssBlock.entry fun text => -(text.length : Int)) := by
  have plain : ∀ block ∈ neighbours, ∀ attr ∈ block.attributes, isHeader (trim attr) = false := by
    decide
  exact parseIwScan_plain (fun text => -(text.length : Int)) plain

end IwScan

end TinyWifi
