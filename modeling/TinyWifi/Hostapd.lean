import TinyWifi.ConfLines
import TinyWifi.Lib.Decimal

/-! `hostapd.rs`: the ordered lines of `hostapd.conf`, and the Wi-Fi fields read from them. -/

namespace TinyWifi

open Text

def keyInterface : Str := "interface".toList
def keySsid : Str := "ssid".toList
def keyPassphrase : Str := "wpa_passphrase".toList
def keyCountry : Str := "country_code".toList
def keyChannel : Str := "channel".toList
def keyHwMode : Str := "hw_mode".toList

structure WifiSettings where
  ssid : Str
  passphrase : Str
  countryCode : Str
  channel : UInt16
  deriving DecidableEq, Repr

structure WifiConfig where
  interface : Option Str
  ssid : Option Str
  wpaPassphrase : Option Str
  countryCode : Option Str
  channel : Option UInt16
  hwMode : Option Str
  deriving DecidableEq, Repr

structure HostapdConf where
  lines : List Line
  trailingNewline : Bool
  deriving DecidableEq, Repr

namespace HostapdConf

def parseLine (line : Str) : Line :=
  let trimmed := trimStart line
  if trimmed = [] ∨ trimmed.head? = some '#' then .raw line
  else
    match splitOnce '=' line with
    | some (key, value) => .pair (trim key) value
    | none => .raw line

def parse (content : Str) : HostapdConf where
  lines := (Text.lines content).map parseLine
  trailingNewline := content.getLast? = some '\n'

/-- Update the first matching directive in place, or append a new one; only an append ends the
last line. -/
def set (conf : HostapdConf) (key value : Str) : HostapdConf where
  lines := setLine key value conf.lines
  trailingNewline := conf.trailingNewline || !hasLine key conf.lines

def removeKey (conf : HostapdConf) (key : Str) : HostapdConf :=
  { conf with lines := dropLines key conf.lines }

def get (conf : HostapdConf) (key : Str) : Option Str := getLine key conf.lines

def printChannel (channel : UInt16) : Str := printNat channel.toNat

def parseChannel (v : Str) : Option UInt16 := (parseUnsigned 65536 (trim v)).map UInt16.ofNat

def apply (conf : HostapdConf) (settings : WifiSettings) : HostapdConf :=
  (((conf.set keySsid settings.ssid).set keyPassphrase settings.passphrase).set
    keyCountry settings.countryCode).set keyChannel (printChannel settings.channel)

def wifiConfig (conf : HostapdConf) : WifiConfig where
  interface := conf.get keyInterface
  ssid := conf.get keySsid
  wpaPassphrase := conf.get keyPassphrase
  countryCode := conf.get keyCountry
  channel := (conf.get keyChannel).bind parseChannel
  hwMode := conf.get keyHwMode

/-- `Display`: a line feed between the lines, and one at the end if the file had it. -/
def display (conf : HostapdConf) : Str :=
  join ['\n'] (conf.lines.map Line.render) ++ if conf.trailingNewline then ['\n'] else []

def directives (conf : HostapdConf) : List (Str × Str) := TinyWifi.directives conf.lines

section Edit

variable (conf : HostapdConf)

theorem wifiConfig_ssid : conf.wifiConfig.ssid = conf.get keySsid := rfl

theorem wifiConfig_wpaPassphrase : conf.wifiConfig.wpaPassphrase = conf.get keyPassphrase := rfl

theorem wifiConfig_countryCode : conf.wifiConfig.countryCode = conf.get keyCountry := rfl

theorem wifiConfig_channel :
    conf.wifiConfig.channel = (conf.get keyChannel).bind parseChannel := rfl

theorem get_eq_lookup (key : Str) : conf.get key = conf.directives.lookup key :=
  getLine_eq_lookup key conf.lines

@[simp] theorem directives_set (key value : Str) :
    (conf.set key value).directives = Directives.put key value conf.directives :=
  directives_setLine key value conf.lines

@[simp] theorem directives_removeKey (key : Str) :
    (conf.removeKey key).directives = Directives.remove key conf.directives :=
  directives_dropLines key conf.lines

end Edit

section Reparse

/-- A line that prints to one line which parses back to it, whatever value it is given. -/
def Faithful : Line → Prop
  | .raw text => '\n' ∉ text ∧ parseLine text = .raw text
  | .pair key value =>
    '\n' ∉ key ∧ '\n' ∉ value ∧ trim key = key ∧ '=' ∉ key ∧ key.head? ≠ some '#'

def AllFaithful (conf : HostapdConf) : Prop := ∀ line ∈ conf.lines, Faithful line

theorem AllFaithful.set {conf : HostapdConf} {key value : Str} (h : conf.AllFaithful)
    (pair : Faithful (.pair key value)) : (conf.set key value).AllFaithful := by
  intro line member
  rcases mem_setLine member with member | rfl
  · exact h line member
  · exact pair

theorem AllFaithful.removeKey {conf : HostapdConf} (h : conf.AllFaithful) (key : Str) :
    (conf.removeKey key).AllFaithful :=
  fun line member => h line (List.mem_of_mem_filter member)

theorem parseLine_raw_iff (text : Str) :
    parseLine text = .raw text ↔
      trimStart text = [] ∨ (trimStart text).head? = some '#' ∨ '=' ∉ text := by
  unfold parseLine
  by_cases comment : trimStart text = [] ∨ (trimStart text).head? = some '#'
  · simp only [comment, if_true, true_iff]
    exact comment.imp_right .inl
  · simp only [comment, if_false]
    simp only [not_or] at comment
    cases split : splitOnce '=' text with
    | none => simp [not_mem_of_splitOnce_eq_none split]
    | some parts =>
        rcases parts with ⟨key, value⟩
        have eq : '=' ∈ text := by simp [(splitOnce_eq_some split).1]
        simp [comment.1, comment.2, eq]

theorem parseLine_pair {key : Str} (value : Str) (trimmed : trim key = key) (eq : '=' ∉ key)
    (hash : key.head? ≠ some '#') : parseLine (key ++ '=' :: value) = .pair key value := by
  have ends : Trimmed key := trimmed ▸ trimmed_trim key
  have start : trimStart (key ++ '=' :: value) = key ++ '=' :: value := by
    apply trimStart_eq_self
    cases key with
    | nil => simp [show isWhitespace '=' = false by decide]
    | cons c rest => simpa using ends.head
  have shown : ¬ (key ++ '=' :: value = [] ∨ (key ++ '=' :: value).head? = some '#') := by
    cases key with
    | nil => simp
    | cons c rest => simpa using hash
  simp only [parseLine, start, shown, if_false, splitOnce_append key value eq, trimmed]

theorem head_of_trimStart_key {line key value : Str}
    (split : splitOnce '=' line = some (key, value))
    (hash : (trimStart line).head? ≠ some '#') : (trim key).head? ≠ some '#' := by
  intro head
  obtain ⟨rest, shape⟩ := trimEnd_isPrefix (trimStart key)
  have nonempty : trim key ≠ [] := by
    intro empty
    simp [empty] at head
  have whole := (splitOnce_eq_some split).1
  have start : trimStart line = trim key ++ rest ++ '=' :: value := by
    have inner : trimStart key ≠ [] := by
      intro empty
      exact nonempty (by simp [trim, empty, trimEnd])
    rw [whole, trimStart, List.dropWhile_append, if_neg (by simpa [trimStart] using inner)]
    rw [trim, shape, trimStart]
  apply hash
  rw [start, List.append_assoc, List.head?_append_of_ne_nil _ nonempty, head]

theorem parseLine_cases (line : Str) :
    parseLine line = .raw line ∨
      ∃ key value, splitOnce '=' line = some (key, value) ∧ (trimStart line).head? ≠ some '#' ∧
        parseLine line = .pair (trim key) value := by
  by_cases comment : trimStart line = [] ∨ (trimStart line).head? = some '#'
  · exact .inl (by simp only [parseLine, comment, if_true])
  · cases split : splitOnce '=' line with
    | none => exact .inl (by simp only [parseLine, comment, if_false, split])
    | some parts =>
        rcases parts with ⟨key, value⟩
        refine .inr ⟨key, value, rfl, fun hash => comment (.inr hash), ?_⟩
        simp only [parseLine, comment, if_false, split]

theorem faithful_parseLine {line : Str} (lf : '\n' ∉ line) : Faithful (parseLine line) := by
  rcases parseLine_cases line with raw | ⟨key, value, split, hash, pair⟩
  · rw [raw]
    exact ⟨lf, raw⟩
  · obtain ⟨whole, absent⟩ := splitOnce_eq_some split
    simp only [whole, List.mem_append, List.mem_cons, not_or] at lf
    rw [pair]
    exact ⟨fun member => lf.1 (mem_of_mem_trim member), lf.2.2, trim_trim key,
      fun member => absent (mem_of_mem_trim member), head_of_trimStart_key split hash⟩

theorem mem_of_mem_render_parseLine {line : Str} {c : Char} (h : c ∈ (parseLine line).render) :
    c ∈ line := by
  rcases parseLine_cases line with raw | ⟨key, value, split, -, pair⟩
  · rwa [raw] at h
  · rw [pair] at h
    rw [(splitOnce_eq_some split).1]
    rcases List.mem_append.mp h with inner | inner
    · exact List.mem_append_left _ (mem_of_mem_trim inner)
    · exact List.mem_append_right _ inner

theorem faithful_parse (content : Str) : (parse content).AllFaithful := by
  intro line member
  obtain ⟨text, inside, rfl⟩ := List.mem_map.mp member
  exact faithful_parseLine (no_lf_of_mem_lines inside)

theorem no_lf_render {line : Line} (h : Faithful line) : '\n' ∉ line.render := by
  cases line with
  | raw text => exact h.1
  | pair key value => simp [Line.render, h.1, h.2.1]

theorem trimStart_stripCr (text : Str) : trimStart (stripCr text) = stripCr (trimStart text) := by
  by_cases ends : EndsCr text
  · obtain ⟨front, rfl⟩ : ∃ front, text = front ++ ['\r'] :=
      List.getLast?_eq_some_iff.mp ends
    have stripped : stripCr (front ++ ['\r']) = front := by
      rw [stripCr_append (by simp), show stripCr ['\r'] = [] by decide, List.append_nil]
    rw [stripped, trimStart, trimStart, List.dropWhile_append]
    by_cases blank : front.dropWhile isWhitespace = []
    · simp [blank, show isWhitespace '\r' = true by decide]
    · rw [if_neg (by simpa using blank), stripCr_append (by simp),
        show stripCr ['\r'] = [] by decide, List.append_nil]
  · rw [stripCr_of_not_endsCr ends, stripCr_of_not_endsCr]
    intro later
    apply ends
    obtain ⟨front, shape⟩ := List.dropWhile_suffix (l := text) isWhitespace
    rw [EndsCr, ← shape, List.getLast?_append]
    rw [EndsCr, trimStart] at later
    rw [later, Option.some_or]

theorem parseLine_stripCr_render {line : Line} (h : Faithful line) :
    parseLine (stripCr line.render) = line.stripCr := by
  rw [← Line.render_stripCr]
  cases line with
  | raw text =>
      rw [Line.stripCr, Line.render, parseLine_raw_iff, trimStart_stripCr]
      rcases (parseLine_raw_iff text).mp h.2 with blank | hash | eq
      · exact .inl (by rw [blank, stripCr_nil])
      · refine .inr (.inl ?_)
        cases shape : trimStart text with
        | nil => simp [shape] at hash
        | cons c rest =>
            have first : c = '#' := by simpa [shape] using hash
            subst c
            by_cases empty : rest = []
            · subst rest
              decide
            · rw [stripCr_cons '#' rest empty, List.head?_cons]
      · exact .inr (.inr fun member => eq (mem_of_mem_stripCr member))
  | pair key value => exact parseLine_pair _ h.2.2.1 h.2.2.2.1 h.2.2.2.2

theorem parseLine_render {line : Line} (h : Faithful line) : parseLine line.render = line := by
  cases line with
  | raw text => exact h.2
  | pair key value => exact parseLine_pair value h.2.2.1 h.2.2.2.1 h.2.2.2.2

def endedLines (conf : HostapdConf) : List Line :=
  if conf.trailingNewline then conf.lines else conf.lines.dropLast

/-- The last line, when no line feed ends it. -/
def openLines (conf : HostapdConf) : List Line :=
  if conf.trailingNewline then [] else conf.lines.getLast?.toList

theorem endedLines_append_openLines (conf : HostapdConf) :
    conf.endedLines ++ conf.openLines = conf.lines := by
  unfold endedLines openLines
  cases conf.trailingNewline with
  | true => simp
  | false =>
      rcases List.eq_nil_or_concat conf.lines with empty | ⟨front, last, shape⟩
      · simp [empty]
      · simp [shape]

/-- What a line that prints to nothing leaves out: it may be no line at all when it is read. -/
def shown (lines : List Line) : List Line := lines.filter fun line => line.render ≠ []

theorem shown_append (front back : List Line) : shown (front ++ back) = shown front ++ shown back :=
  List.filter_append front back

theorem directives_shown (lines : List Line) :
    TinyWifi.directives (shown lines) = TinyWifi.directives lines := by
  induction lines with
  | nil => rfl
  | cons line rest ih =>
      cases line with
      | raw text =>
          by_cases blank : text = []
          · rw [shown, List.filter_cons_of_neg (by simp [Line.render, blank])]
            exact ih
          · rw [shown, List.filter_cons_of_pos (by simp [Line.render, blank])]
            exact ih
      | pair key value =>
          rw [shown, List.filter_cons_of_pos (by simp [Line.render]), directives_cons_pair,
            directives_cons_pair]
          exact congrArg _ ih

/-- Printing a config and parsing the text gives the lines back, except that an ended line loses a
carriage return it ends in. -/
theorem shown_parse_display (conf : HostapdConf) (h : conf.AllFaithful) :
    shown (parse conf.display).lines =
      shown (conf.endedLines.map Line.stripCr ++ conf.openLines) := by
  rcases List.eq_nil_or_concat conf.lines with empty | ⟨front, last, shape⟩
  · cases ended : conf.trailingNewline <;>
      simp [shown, parse, display, endedLines, openLines, empty, ended, join, Text.lines,
        parseLine, trimStart, Line.render]
  · rw [List.concat_eq_append] at shape
    have parsed (part : List Line) (inside : part ⊆ conf.lines) :
        ((part.map Line.render).map stripCr).map parseLine = part.map Line.stripCr := by
      rw [List.map_map, List.map_map]
      apply List.map_congr_left
      intro line member
      exact parseLine_stripCr_render (h line (inside member))
    have noLf (part : List Line) (inside : part ⊆ conf.lines) :
        ∀ text ∈ part.map Line.render, '\n' ∉ text := by
      intro text member
      obtain ⟨line, present, rfl⟩ := List.mem_map.mp member
      exact no_lf_render (h line (inside present))
    have joined : join ['\n'] (conf.lines.map Line.render) =
        unlines (front.map Line.render) ++ last.render := by
      rw [shape, List.map_append, List.map_cons, List.map_nil, join_lf_concat]
    cases ended : conf.trailingNewline with
    | true =>
        have text : conf.display = unlines (conf.lines.map Line.render) := by
          rw [display, joined, ended, shape]
          simp [unlines]
        have self : conf.lines ⊆ conf.lines := List.Subset.refl _
        rw [parse, text, lines_unlines (noLf _ self), parsed _ self]
        simp [endedLines, openLines, ended]
    | false =>
        have inside : front ⊆ conf.lines := by simp [shape]
        have faithful : Faithful last := h last (by simp [shape])
        have text : conf.display = unlines (front.map Line.render) ++ last.render := by
          simp [display, joined, ended]
        rw [parse, text, lines_unlines_append (noLf _ inside) (no_lf_render faithful)]
        simp only [List.map_append, shown_append, parsed _ inside]
        simp only [endedLines, openLines, ended, Bool.false_eq_true, if_false, shape,
          List.dropLast_concat, List.getLast?_concat, Option.toList_some]
        congr 1
        by_cases blank : last.render = []
        · rw [if_pos blank, List.map_nil, shown, shown,
            List.filter_cons_of_neg (by simpa using blank)]
        · rw [if_neg blank, List.map_cons, List.map_nil, parseLine_render faithful]

/-- Printing a config and parsing the text gives the directives back, except that an ended line
loses a carriage return its value ends in. -/
theorem directives_parse_display (conf : HostapdConf) (h : conf.AllFaithful) :
    (parse conf.display).directives =
      TinyWifi.directives (conf.endedLines.map Line.stripCr) ++
        TinyWifi.directives conf.openLines := by
  rw [directives, ← directives_shown, shown_parse_display conf h, directives_shown,
    directives_append]

theorem values_parse_display {conf : HostapdConf} (h : conf.AllFaithful)
    {key : Str} (kept : ∀ value ∈ Directives.values key conf.directives, ¬ EndsCr value) :
    Directives.values key (parse conf.display).directives =
      Directives.values key conf.directives := by
  have parts : conf.directives =
      TinyWifi.directives conf.endedLines ++ TinyWifi.directives conf.openLines := by
    rw [← directives_append, endedLines_append_openLines]
    rfl
  have same : (Directives.values key (TinyWifi.directives conf.endedLines)).map Text.stripCr =
      Directives.values key (TinyWifi.directives conf.endedLines) := by
    have unbroken : ∀ value ∈ Directives.values key (TinyWifi.directives conf.endedLines),
        Text.stripCr value = id value := by
      intro value member
      apply stripCr_of_not_endsCr
      apply kept
      rw [parts, Directives.values_append]
      exact List.mem_append_left _ member
    rw [List.map_congr_left unbroken, List.map_id]
  rw [directives_parse_display conf h, directives_map_stripCr, Directives.values_append,
    Directives.values_map, same, parts, Directives.values_append]

theorem no_lf_of_mem_directives {content key value : Str}
    (h : (key, value) ∈ (parse content).directives) : '\n' ∉ value :=
  (faithful_parse content _ ((mem_directives _ key value).mp h)).2.1

end Reparse

end HostapdConf

end TinyWifi
