import TinyWifi.Hostapd

/-! The line parser that the nanodhcp and nanodns editors share: it trims a value and cleans it,
where the hostapd editor keeps the value as it stands. What is printed may then be read
otherwise. -/

namespace TinyWifi

open Text

def Line.mapValue (f : Str → Str) : Line → Line
  | .raw text => .raw text
  | .pair key value => .pair key (f value)

section Parser

variable (clean : Str → Str)

def parseTrimmed (line : Str) : Line :=
  let trimmed := trim line
  if trimmed = [] ∨ trimmed.head? = some '#' then .raw line
  else
    match splitOnce '=' line with
    | some (key, value) => .pair (trim key) (clean (trim value))
    | none => .raw line

def readTrimmed (content : Str) : List Line := (Text.lines content).map (parseTrimmed clean)

def printLines (lines : List Line) : Str := unlines (lines.map Line.render)

end Parser

section Reread

variable {clean : Str → Str}

theorem parseTrimmed_eq (line : Str) :
    parseTrimmed clean line = (HostapdConf.parseLine line).mapValue fun v => clean (trim v) := by
  unfold parseTrimmed HostapdConf.parseLine
  simp only [trim_eq_nil_iff, head_trim]
  split
  · rfl
  · cases splitOnce '=' line with
    | none => rfl
    | some parts => rfl

theorem faithful_mapValue {f : Str → Str} (subset : ∀ v, f v ⊆ v) {line : Line}
    (h : HostapdConf.Faithful line) : HostapdConf.Faithful (line.mapValue f) := by
  cases line with
  | raw text => exact h
  | pair key value => exact ⟨h.1, fun member => h.2.1 (subset value member), h.2.2⟩

def AllPrint (lines : List Line) : Prop := ∀ line ∈ lines, HostapdConf.Faithful line

theorem allPrint_readTrimmed (subset : ∀ v, clean v ⊆ v) (content : Str) :
    AllPrint (readTrimmed clean content) := by
  intro line member
  rcases List.mem_map.mp member with ⟨physical, inside, rfl⟩
  rw [parseTrimmed_eq]
  apply faithful_mapValue
  · intro v c found
    exact mem_of_mem_trim (subset (trim v) found)
  · exact HostapdConf.faithful_parseLine (no_lf_of_mem_lines inside)

theorem parseTrimmed_stripCr_render {line : Line} (h : HostapdConf.Faithful line) :
    parseTrimmed clean (stripCr line.render) =
      line.stripCr.mapValue fun v => clean (trim v) := by
  rw [parseTrimmed_eq, HostapdConf.parseLine_stripCr_render h]

theorem readTrimmed_printLines {lines : List Line} (h : AllPrint lines) :
    readTrimmed clean (printLines lines) =
      lines.map fun line => line.stripCr.mapValue fun v => clean (trim v) := by
  have no_lf : ∀ text ∈ lines.map Line.render, '\n' ∉ text := by
    intro text member
    rcases List.mem_map.mp member with ⟨line, inside, rfl⟩
    exact HostapdConf.no_lf_render (h line inside)
  rw [readTrimmed, printLines, lines_unlines no_lf, List.map_map, List.map_map]
  exact List.map_congr_left fun line member => parseTrimmed_stripCr_render (h line member)

/-- What is printed is read back with every value trimmed and cleaned once more. -/
theorem directives_reread {lines : List Line} (h : AllPrint lines) :
    directives (readTrimmed clean (printLines lines)) =
      (directives lines).map fun d => (d.1, clean (trim d.2)) := by
  rw [readTrimmed_printLines h]
  unfold directives
  rw [List.filterMap_map, List.map_filterMap]
  apply List.filterMap_congr
  intro line _
  cases line with
  | raw text => rfl
  | pair key value =>
      change some (key, clean (trim (stripCr value))) = _
      rw [trim_stripCr]
      rfl

/-- The line stands the next reading. -/
def Settled (clean : Str → Str) : Line → Prop
  | .raw text => ¬ EndsCr text
  | .pair _ value => clean (trim value) = value

theorem reread_of_settled {lines : List Line} (h : AllPrint lines)
    (settled : ∀ line ∈ lines, Settled clean line) :
    readTrimmed clean (printLines lines) = lines := by
  rw [readTrimmed_printLines h]
  have same : ∀ line ∈ lines, line.stripCr.mapValue (fun v => clean (trim v)) = id line := by
    intro line member
    have stands := settled line member
    cases line with
    | raw text => exact congrArg Line.raw (stripCr_of_not_endsCr stands)
    | pair key value =>
        have again : clean (trim (stripCr value)) = value := by
          rw [trim_stripCr]
          exact stands
        exact congrArg (Line.pair key) again
  rw [List.map_congr_left same, List.map_id]

theorem values_reread {lines : List Line} (h : AllPrint lines) (key : Str) :
    Directives.values key (directives (readTrimmed clean (printLines lines))) =
      (Directives.values key (directives lines)).map fun v => clean (trim v) := by
  rw [directives_reread h, Directives.values_map key fun v => clean (trim v)]

theorem lookup_reread {lines : List Line} (h : AllPrint lines) (key : Str) :
    (directives (readTrimmed clean (printLines lines))).lookup key =
      ((directives lines).lookup key).map fun v => clean (trim v) := by
  rw [directives_reread h, Directives.lookup_map fun v => clean (trim v)]

theorem exists_of_mem_readTrimmed {content key v : Str}
    (h : Line.pair key v ∈ readTrimmed clean content) : ∃ raw, v = clean (trim raw) := by
  rcases List.mem_map.mp h with ⟨physical, _, same⟩
  rw [parseTrimmed_eq] at same
  cases shape : HostapdConf.parseLine physical with
  | raw text =>
      rw [shape] at same
      cases same
  | pair k raw =>
      rw [shape] at same
      cases same
      exact ⟨raw, rfl⟩

theorem mem_lines_of_raw {content text : Str} (h : Line.raw text ∈ readTrimmed clean content) :
    text ∈ Text.lines content := by
  rcases List.mem_map.mp h with ⟨physical, inside, same⟩
  rw [parseTrimmed_eq] at same
  rcases HostapdConf.parseLine_cases physical with raw | ⟨key, value, _, _, pair⟩
  · rw [raw] at same
    rwa [← Line.raw.inj same]
  · rw [pair] at same
    cases same

end Reread

section Edit

variable {lines : List Line} {key value : Str}

theorem faithful_pair (isKey : IsKey key) (no_lf : '\n' ∉ value) :
    HostapdConf.Faithful (.pair key value) :=
  ⟨isKey.no_lf, no_lf, isKey.trimmed, isKey.no_eq, isKey.no_hash⟩

theorem AllPrint.setLine (h : AllPrint lines) (isKey : IsKey key) (no_lf : '\n' ∉ value) :
    AllPrint (setLine key value lines) := by
  intro line member
  rcases mem_setLine member with member | rfl
  · exact h line member
  · exact faithful_pair isKey no_lf

theorem AllPrint.append (h : AllPrint lines) (isKey : IsKey key) (no_lf : '\n' ∉ value) :
    AllPrint (lines ++ [.pair key value]) := by
  intro line member
  rcases List.mem_append.mp member with member | member
  · exact h line member
  · rw [List.mem_singleton.mp member]
    exact faithful_pair isKey no_lf

theorem AllPrint.sublist (h : AllPrint lines) {less : List Line} (part : less.Sublist lines) :
    AllPrint less := fun line member => h line (part.subset member)

end Edit

end TinyWifi
