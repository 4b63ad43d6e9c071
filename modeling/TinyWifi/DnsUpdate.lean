import TinyWifi.Adblock

/-! What `update_dns_settings` writes, read again and written again. -/

namespace TinyWifi

open Text Exec Checks

namespace DnsUpdate

/-- A text of the panel's form: without blanks around it, and in one line. -/
structure FormText (s : Str) : Prop where
  trimmed : trim s = s
  no_lf : '\n' ∉ s

/-- The settings as the panel's form sends them, with a block file. -/
structure Sent (settings : NanoDnsSettings) (file : Str) : Prop where
  domain : FormText settings.domain
  routerName : FormText settings.routerName
  upstreams : ∀ up ∈ settings.upstreams, FormText up
  blocking : settings.blockFile = some file
  blockFile : FormText file
  blockResponse : FormText settings.blockResponse

def blockKeys : List Str := [keyUpstream, keyBlockFile, keyBlockResponse]

def settingKeys : List Str := keyDomain :: keyRouterName :: blockKeys

def ownLines (settings : NanoDnsSettings) (file : Str) : List Line :=
  settings.upstreams.map (.pair keyUpstream) ++
    [.pair keyBlockFile file, .pair keyBlockResponse settings.blockResponse]

/-- The lines in front of them: what is left when the two names are set. -/
def keptLines (settings : NanoDnsSettings) (lines : List Line) : List Line :=
  otherLines blockKeys
    (setLine keyRouterName settings.routerName (setLine keyDomain settings.domain lines))

section Written

variable {settings : NanoDnsSettings} {file : Str} {conf : NanoDnsConf}

theorem lines_foldl (ups : List Str) (conf : NanoDnsConf) :
    (ups.foldl (fun conf up => conf.append keyUpstream up) conf).lines =
      conf.lines ++ ups.map (.pair keyUpstream) := by
  induction ups generalizing conf with
  | nil => exact (List.append_nil _).symm
  | cons up rest ih =>
      rw [List.foldl_cons, ih, NanoDnsConf.append, List.append_assoc]
      rfl

theorem dropLines_upstreams {key : Str} (differs : keyUpstream ≠ key) (lines : List Line)
    (ups : List Str) : dropLines key (lines ++ ups.map (.pair keyUpstream)) =
      dropLines key lines ++ ups.map (.pair keyUpstream) := by
  rw [dropLines, List.filter_append, dropLines]
  congr 1
  rw [List.filter_eq_self]
  intro line member
  rcases List.mem_map.mp member with ⟨up, _, rfl⟩
  simp [Line.hasKey, differs]

theorem otherLines_blockKeys (lines : List Line) :
    otherLines blockKeys lines =
      dropLines keyBlockResponse (dropLines keyBlockFile (dropLines keyUpstream lines)) := by
  rw [otherLines, dropLines, dropLines, dropLines, List.filter_filter, List.filter_filter]
  apply List.filter_congr
  intro line _
  simp only [blockKeys, List.all_cons, List.all_nil, Bool.and_true]
  rw [Bool.and_comm, Bool.and_comm (!line.hasKey keyBlockResponse), Bool.and_assoc]

theorem lines_withSettings (blocking : settings.blockFile = some file) (conf : NanoDnsConf) :
    (withSettings settings conf).lines =
      keptLines settings conf.lines ++ ownLines settings file := by
  rw [withSettings, blocking, ownLines, keptLines, otherLines_blockKeys]
  change dropLines _ (dropLines _ _) ++ [_] ++ [_] = _
  rw [lines_foldl, dropLines_upstreams (by decide), dropLines_upstreams (by decide)]
  simp only [List.append_assoc]
  rfl

theorem getLine_names (settings : NanoDnsSettings) (file : Str) (lines : List Line) :
    getLine keyDomain (keptLines settings lines ++ ownLines settings file) =
        some settings.domain ∧
      getLine keyRouterName (keptLines settings lines ++ ownLines settings file) =
        some settings.routerName := by
  rw [getLine_append, getLine_append, keptLines, getLine_otherLines (by decide),
    getLine_otherLines (by decide), getLine_setLine_self, getLine_setLine_ne (by decide),
    getLine_setLine_self]
  exact ⟨rfl, rfl⟩

theorem otherLines_ownLines {keys : List Str} (managed : ∀ key ∈ blockKeys, key ∈ keys)
    (settings : NanoDnsSettings) (file : Str) :
    otherLines keys (ownLines settings file) = [] := by
  have upstreams : otherLines keys (settings.upstreams.map (.pair keyUpstream)) = [] := by
    induction settings.upstreams with
    | nil => rfl
    | cons up rest ih =>
        rw [List.map_cons, otherLines_cons_pair (managed _ (by decide)), ih]
  rw [ownLines, otherLines_append, upstreams, otherLines_cons_pair (managed _ (by decide)),
    otherLines_cons_pair (managed _ (by decide))]
  rfl

theorem otherLines_written (settings : NanoDnsSettings) (file : Str) (lines : List Line) :
    otherLines settingKeys (keptLines settings lines ++ ownLines settings file) =
      otherLines settingKeys lines := by
  rw [otherLines_append, otherLines_ownLines (by decide), List.append_nil, keptLines,
    otherLines_blockKeys, otherLines_dropLines (by decide), otherLines_dropLines (by decide),
    otherLines_dropLines (by decide), otherLines_setLine (by decide),
    otherLines_setLine (by decide)]

/-- The names stand as they are set, and what was appended is removed and appended again. -/
theorem keptLines_written (settings : NanoDnsSettings) (file : Str) (lines : List Line) :
    keptLines settings (keptLines settings lines ++ ownLines settings file) =
      keptLines settings lines := by
  have names := getLine_names settings file lines
  rw [keptLines, setLine_of_getLine names.1, setLine_of_getLine names.2, otherLines_append,
    otherLines_ownLines (fun key member => member), List.append_nil]
  exact otherLines_otherLines blockKeys _

theorem getLines_upstreams (settings : NanoDnsSettings) (file : Str) (lines : List Line) :
    getLines keyUpstream (keptLines settings lines ++ ownLines settings file) =
      settings.upstreams := by
  have kept : getLines keyUpstream (keptLines settings lines) = [] := by
    rw [keptLines, otherLines_blockKeys, getLines_eq_values, directives_dropLines,
      directives_dropLines, directives_dropLines,
      Directives.values_remove_ne keyBlockResponse (by decide),
      Directives.values_remove_ne keyBlockFile (by decide), Directives.values_remove_self]
  have ups : ∀ ups : List Str, getLines keyUpstream (ups.map (.pair keyUpstream)) = ups := by
    intro ups
    induction ups with
    | nil => rfl
    | cons up rest ih =>
        rw [getLines] at ih ⊢
        rw [List.map_cons, List.filterMap_cons, ih]
        simp
  have own : getLines keyUpstream (ownLines settings file) = settings.upstreams := by
    rw [ownLines, getLines, List.filterMap_append]
    exact (congrArg (· ++ _) (ups settings.upstreams)).trans (List.append_nil _)
  rw [getLines, List.filterMap_append]
  exact congrArg₂ (· ++ ·) kept own

theorem settingsOf_withSettings (blocking : settings.blockFile = some file) (conf : NanoDnsConf) :
    settingsOf (withSettings settings conf) = settings := by
  have names := getLine_names settings file conf.lines
  have upstreams := getLines_upstreams settings file conf.lines
  rw [← lines_withSettings blocking] at names upstreams
  rcases Adblock.get_withSettings settings conf with ⟨blockFile, blockResponse⟩
  rw [blocking, Option.map_some] at blockResponse
  rw [settingsOf, blockFile, blockResponse, NanoDnsConf.get, names.1, NanoDnsConf.get, names.2,
    NanoDnsConf.getAll, upstreams]
  rfl

theorem withSettings_withSettings (blocking : settings.blockFile = some file)
    (conf : NanoDnsConf) :
    withSettings settings (withSettings settings conf) = withSettings settings conf := by
  have again := lines_withSettings blocking (withSettings settings conf)
  rw [lines_withSettings blocking conf, keptLines_written, ← lines_withSettings blocking conf]
    at again
  exact congrArg NanoDnsConf.mk again

end Written

section Reread

variable {settings : NanoDnsSettings} {file content : Str}

theorem settled_pair {key value : Str} (sent : FormText value) :
    Settled id (.pair key value) := sent.trimmed

/-- In a text without carriage returns every line stands the next reading. -/
theorem settled_of_parse (no_cr : '\r' ∉ content) :
    ∀ line ∈ (NanoDnsConf.parse content).lines, Settled id line := by
  intro line member
  cases line with
  | raw text =>
      have inside := mem_lines_of_raw member
      exact not_endsCr_of_not_mem fun cr => no_cr (mem_of_mem_lines inside cr)
  | pair key value =>
      rcases exists_of_mem_readTrimmed member with ⟨raw, rfl⟩
      exact trim_trim raw

theorem settled_ownLines (sent : Sent settings file) :
    ∀ line ∈ ownLines settings file, Settled id line := by
  intro line member
  simp only [ownLines, List.mem_append, List.mem_map, List.mem_cons, List.not_mem_nil,
    or_false] at member
  rcases member with ⟨up, listed, rfl⟩ | rfl | rfl
  · exact settled_pair (sent.upstreams up listed)
  · exact settled_pair sent.blockFile
  · exact settled_pair sent.blockResponse

theorem settled_setLine (key : Str) {value : Str} {lines : List Line} (sent : FormText value)
    (settled : ∀ line ∈ lines, Settled id line) :
    ∀ line ∈ setLine key value lines, Settled id line := by
  intro line member
  rcases mem_setLine member with old | rfl
  · exact settled line old
  · exact settled_pair sent

theorem settled_withSettings (no_cr : '\r' ∉ content) (sent : Sent settings file) :
    ∀ line ∈ (withSettings settings (NanoDnsConf.parse content)).lines, Settled id line := by
  intro line member
  rw [lines_withSettings sent.blocking, List.mem_append] at member
  rcases member with kept | own
  · have names := settled_setLine keyRouterName sent.routerName
      (settled_setLine keyDomain sent.domain (settled_of_parse no_cr))
    exact names line (List.mem_of_mem_filter kept)
  · exact settled_ownLines sent line own

theorem printable_of_sent (sent : Sent settings file) : Adblock.Printable settings where
  domain := sent.domain.no_lf
  routerName := sent.routerName.no_lf
  upstreams up member := (sent.upstreams up member).no_lf
  blockFile f member := by
    rw [sent.blocking, Option.mem_some_iff] at member
    rw [← member]
    exact sent.blockFile.no_lf
  response := sent.blockResponse.no_lf
  trimmed := sent.blockResponse.trimmed

theorem parse_written (no_cr : '\r' ∉ content) (sent : Sent settings file) :
    NanoDnsConf.parse (withSettings settings (NanoDnsConf.parse content)).display =
      withSettings settings (NanoDnsConf.parse content) := by
  have printed := Adblock.allPrint_withSettings (NanoDnsConf.allPrint_parse content)
    (printable_of_sent sent)
  exact congrArg NanoDnsConf.mk (reread_of_settled printed (settled_withSettings no_cr sent))

end Reread

/-- The settings are read back, the lines of all other keys are kept, and the same update writes
the same text again. -/
structure Updates (env : FileEnv) (path : Path) (settings : NanoDnsSettings) (fs fs' : Fs) :
    Prop where
  readBack : getDnsSettings env.readable path fs' = .ok settings
  kept : ∀ content, contentOf fs path = some content → ∃ written,
    contentOf fs' path = some written ∧
      otherLines settingKeys (NanoDnsConf.parse written).lines =
        otherLines settingKeys (NanoDnsConf.parse content).lines
  again : outcome (updateDnsSettings env path settings) fs' = (.ok (), fs')

/-- An update from the form is exact and local, and once is enough. -/
theorem update_updates {env : FileEnv} {path : Path} {settings : NanoDnsSettings} {fs fs' : Fs}
    {file content : Str} (found : contentOf fs path = some content) (no_cr : '\r' ∉ content)
    (sent : Sent settings file)
    (updated : outcome (updateDnsSettings env path settings) fs = (.ok (), fs')) :
    Updates env path settings fs fs' := by
  rcases rewrite_ok.mp updated with ⟨whole, text, edited, rfl⟩
  rcases settingsEdit_eq_ok.mp edited with ⟨readable, writable, content', found', rfl⟩
  have same : content' = content := Option.some.inj (found'.symm.trans found)
  subst content'
  have reread := parse_written no_cr sent
  have written : contentOf (put path (encode (withSettings settings
      (NanoDnsConf.parse content)).display) fs) path =
        some (withSettings settings (NanoDnsConf.parse content)).display := contentOf_put ..
  constructor
  · refine getDnsSettings_eq_ok.mpr ⟨readable, _, written, ?_⟩
    rw [reread]
    exact settingsOf_withSettings sent.blocking _
  · intro content' before
    rw [found, Option.some.injEq] at before
    refine ⟨_, written, ?_⟩
    rw [reread, ← before, lines_withSettings sent.blocking, otherLines_written]
  · have edited : settingsEdit env path settings _ = .ok _ :=
      settingsEdit_eq_ok.mpr ⟨readable, writable, _, written, rfl⟩
    refine rewrite_ok.mpr ⟨whole, _, edited, ?_⟩
    rw [reread, withSettings_withSettings sent.blocking]
    exact Function.update_idem ..

def homeConfig : Str :=
  ("# home\ndomain=home\nupstream=1.1.1.1:53\n" ++
    "record=nas,A,192.168.1.3,300\nupstream=9.9.9.9:53\n").toList

def lanSettings : NanoDnsSettings :=
  ⟨"lan".toList, "router".toList, ["8.8.8.8:53".toList], some blocklistPath, "NXDOMAIN".toList⟩

theorem update_updates_home :
    Updates .willing etcNanodns lanSettings (oneFile etcNanodns homeConfig)
      (put etcNanodns
        (encode (withSettings lanSettings (NanoDnsConf.parse homeConfig)).display)
        (oneFile etcNanodns homeConfig)) := by
  have found : contentOf (oneFile etcNanodns homeConfig) etcNanodns = some homeConfig :=
    contentOf_put ..
  have sent : Sent lanSettings blocklistPath :=
    ⟨⟨by decide, by decide⟩, ⟨by decide, by decide⟩,
      fun up member => by rw [List.mem_singleton.mp member]; exact ⟨by decide, by decide⟩,
      rfl, ⟨by decide, by decide⟩, ⟨by decide, by decide⟩⟩
  have edited : settingsEdit .willing etcNanodns lanSettings _ = .ok _ :=
    settingsEdit_eq_ok.mpr ⟨rfl, rfl, homeConfig, found, rfl⟩
  exact update_updates found (by decide +kernel) sent
    (rewrite_ok.mpr ⟨rfl, _, edited, rfl⟩)

end DnsUpdate

end TinyWifi
