import TinyWifi.ConfLines

/-! `wan.rs`: the WAN config as it is saved, and as it is read again. -/

namespace TinyWifi

open Text

inductive WanMode
  | dhcp
  | static
  | ppp
  deriving DecidableEq, Repr

/-- What the user chose; the last three are used in static mode only. -/
structure WanConfig where
  interface : Str
  mode : WanMode
  address : Option Str
  gateway : Option Str
  dns : Option (List Str)
  deriving DecidableEq, Repr

namespace WanMode

def print : WanMode → Str
  | dhcp => "dhcp".toList
  | static => "static".toList
  | ppp => "ppp".toList

/-- Any other text is `dhcp`. -/
def parse (s : Str) : WanMode :=
  if s = "static".toList then static else if s = "ppp".toList then ppp else dhcp

theorem parse_print (mode : WanMode) : parse mode.print = mode := by cases mode <;> decide

theorem trim_print (mode : WanMode) : trim mode.print = mode.print := by cases mode <;> decide

end WanMode

namespace WanConfig

def keyInterface : Str := "interface".toList
def keyMode : Str := "mode".toList
def keyAddress : Str := "address".toList
def keyGateway : Str := "gateway".toList
def keyDns : Str := "dns".toList

def toConf (config : WanConfig) : Str :=
  keyInterface ++ '=' :: config.interface ++ '\n' ::
  keyMode ++ '=' :: config.mode.print ++ ['\n'] ++
  (match config.address with
    | some address => keyAddress ++ '=' :: address ++ ['\n']
    | none => []) ++
  (match config.gateway with
    | some gateway => keyGateway ++ '=' :: gateway ++ ['\n']
    | none => []) ++
  (match config.dns with
    | some dns => keyDns ++ '=' :: join [','] dns ++ ['\n']
    | none => [])

structure Fields where
  interface : Option Str
  mode : WanMode
  address : Option Str
  gateway : Option Str
  dns : Option (List Str)
  deriving DecidableEq, Repr

namespace Fields

def empty : Fields := ⟨none, .dhcp, none, none, none⟩

def assign (fields : Fields) (key value : Str) : Fields :=
  if key = keyInterface then { fields with interface := some (trim value) }
  else if key = keyMode then { fields with mode := WanMode.parse (trim value) }
  else if key = keyAddress then { fields with address := some (trim value) }
  else if key = keyGateway then { fields with gateway := some (trim value) }
  else if key = keyDns then { fields with dns := some (((trim value).splitOn ',').map trim) }
  else fields

def readLine (fields : Fields) (line : Str) : Fields :=
  let line := trim line
  if line = [] ∨ line.head? = some '#' then fields
  else
    match splitOnce '=' line with
    | some (key, value) => fields.assign (trim key) value
    | none => fields

end Fields

end WanConfig

open WanConfig in
/-- The last line of a key counts; without an interface there is no config. -/
def parseWanConf (text : Str) : Option WanConfig := do
  let fields := (Text.lines text).foldl Fields.readLine .empty
  return {
    interface := ← fields.interface
    mode := fields.mode
    address := fields.address
    gateway := fields.gateway
    dns := fields.dns }

namespace WanConfig

/-- A value that stands in its line as it is. -/
structure Value (s : Str) : Prop where
  trimmed : trim s = s
  no_lf : '\n' ∉ s

/-- The texts of the config are values, the servers without commas. -/
structure Clean (config : WanConfig) : Prop where
  interface : Value config.interface
  address : ∀ address ∈ config.address, Value address
  gateway : ∀ gateway ∈ config.gateway, Value gateway
  dns : ∀ dns ∈ config.dns, ∀ entry ∈ dns, Value entry ∧ ',' ∉ entry

section Entries

/-- What `to_conf` writes, as one entry for each line. -/
def entries (config : WanConfig) : List (Str × Str) :=
  [(keyInterface, config.interface), (keyMode, config.mode.print)] ++
    config.address.toList.map (keyAddress, ·) ++ config.gateway.toList.map (keyGateway, ·) ++
    config.dns.toList.map fun dns => (keyDns, join [','] dns)

def entryLine (entry : Str × Str) : Str := entry.1 ++ '=' :: entry.2

theorem toConf_eq (config : WanConfig) :
    config.toConf = unlines (config.entries.map entryLine) := by
  rcases config with ⟨interface, mode, address, gateway, dns⟩
  cases address <;> cases gateway <;> cases dns <;>
    simp [toConf, entries, entryLine, unlines]

theorem trim_entryLine {key value : Str} (isKey : IsKey key) (trimmed : trim value = value) :
    trim (entryLine (key, value)) = entryLine (key, value) :=
  trim_of_trimmed (trimmed_append_cons (by decide) (trimmed_of_trim_eq isKey.trimmed)
    (trimmed_of_trim_eq trimmed))

theorem readLine_entry {key value : Str} (isKey : IsKey key) (trimmed : trim value = value)
    (fields : Fields) :
    fields.readLine (stripCr (entryLine (key, value))) = fields.assign key value := by
  have whole : trim (stripCr (entryLine (key, value))) = entryLine (key, value) := by
    rw [trim_stripCr, trim_entryLine isKey trimmed]
  have nonempty : entryLine (key, value) ≠ [] := by simp [entryLine]
  have head : (entryLine (key, value)).head? ≠ some '#' := by
    rw [entryLine, List.head?_append_of_ne_nil _ isKey.nonempty]
    exact isKey.no_hash
  rw [Fields.readLine, whole]
  simp only [nonempty, head, or_self, if_false]
  rw [entryLine, splitOnce_append key value isKey.no_eq]
  dsimp only
  rw [isKey.trimmed]

theorem foldl_readLine {entries : List (Str × Str)}
    (valid : ∀ entry ∈ entries, IsKey entry.1 ∧ Value entry.2) (fields : Fields) :
    ((entries.map entryLine).map stripCr).foldl Fields.readLine fields =
      entries.foldl (fun fields entry => fields.assign entry.1 entry.2) fields := by
  induction entries generalizing fields with
  | nil => rfl
  | cons entry rest ih =>
      have first := valid entry List.mem_cons_self
      rw [List.map_cons, List.map_cons, List.foldl_cons, List.foldl_cons,
        readLine_entry first.1 first.2.trimmed]
      exact ih (fun later member => valid later (List.mem_cons_of_mem entry member)) _

end Entries

section Assign

variable (fields : Fields) (value : Str)

theorem assign_interface :
    fields.assign keyInterface value = { fields with interface := some (trim value) } := by
  rw [Fields.assign, if_pos rfl]

theorem assign_mode :
    fields.assign keyMode value = { fields with mode := WanMode.parse (trim value) } := by
  rw [Fields.assign, if_neg (by decide), if_pos rfl]

theorem assign_address :
    fields.assign keyAddress value = { fields with address := some (trim value) } := by
  rw [Fields.assign, if_neg (by decide), if_neg (by decide), if_pos rfl]

theorem assign_gateway :
    fields.assign keyGateway value = { fields with gateway := some (trim value) } := by
  rw [Fields.assign, if_neg (by decide), if_neg (by decide), if_neg (by decide), if_pos rfl]

theorem assign_dns :
    fields.assign keyDns value =
      { fields with dns := some (((trim value).splitOn ',').map trim) } := by
  rw [Fields.assign, if_neg (by decide), if_neg (by decide), if_neg (by decide),
    if_neg (by decide), if_pos rfl]

def rereadDns (dns : List Str) : List Str := ((trim (join [','] dns)).splitOn ',').map trim

theorem foldl_entries (config : WanConfig) :
    config.entries.foldl (fun fields entry => Fields.assign fields entry.1 entry.2) Fields.empty =
      ⟨some (trim config.interface), WanMode.parse (trim config.mode.print),
        config.address.map trim, config.gateway.map trim, config.dns.map rereadDns⟩ := by
  rcases config with ⟨interface, mode, address, gateway, dns⟩
  cases address <;> cases gateway <;> cases dns <;>
    simp [entries, assign_interface, assign_mode, assign_address, assign_gateway, assign_dns,
      Fields.empty, rereadDns]

end Assign

section RoundTrip

variable {config : WanConfig} {dns : List Str}

theorem value_join (clean : ∀ entry ∈ dns, Value entry ∧ ',' ∉ entry) :
    Value (join [','] dns) where
  trimmed := trim_of_trimmed (trimmed_join (by decide) fun entry member =>
    trimmed_of_trim_eq (clean entry member).1.trimmed)
  no_lf lf := by
    rcases mem_join lf with comma | ⟨entry, listed, inside⟩
    · exact absurd comma (by decide)
    · exact (clean entry listed).1.no_lf inside

/-- An empty list of servers is read as one empty server. -/
theorem rereadDns_eq_iff (clean : ∀ entry ∈ dns, Value entry ∧ ',' ∉ entry) :
    rereadDns dns = dns ↔ dns ≠ [] := by
  cases dns with
  | nil => decide
  | cons entry rest =>
      have commas : ∀ entry' ∈ entry :: rest, ',' ∉ entry' :=
        fun entry' member => (clean entry' member).2
      have trimmed : (entry :: rest).map trim = (entry :: rest).map id :=
        List.map_congr_left fun entry' member => (clean entry' member).1.trimmed
      have same : rereadDns (entry :: rest) = entry :: rest := by
        rw [rereadDns, (value_join clean).trimmed, join,
          List.splitOn_intercalate ',' commas (List.cons_ne_nil _ _), trimmed, List.map_id]
      simp [same]

theorem value_print (mode : WanMode) : Value mode.print :=
  ⟨mode.trim_print, by cases mode <;> decide⟩

theorem valid_entries (clean : Clean config) :
    ∀ entry ∈ config.entries, IsKey entry.1 ∧ Value entry.2 := by
  intro entry member
  simp only [entries, List.mem_append, List.mem_cons, List.not_mem_nil, or_false, List.mem_map,
    Option.mem_toList] at member
  rcases member with (((rfl | rfl) | ⟨address, given, rfl⟩) | ⟨gateway, given, rfl⟩) |
    ⟨dns, given, rfl⟩
  · exact ⟨(by decide : IsKey keyInterface), clean.interface⟩
  · exact ⟨(by decide : IsKey keyMode), value_print config.mode⟩
  · exact ⟨(by decide : IsKey keyAddress), clean.address address given⟩
  · exact ⟨(by decide : IsKey keyGateway), clean.gateway gateway given⟩
  · exact ⟨(by decide : IsKey keyDns), value_join (clean.dns dns given)⟩

theorem no_lf_entryLine (clean : Clean config) :
    ∀ line ∈ config.entries.map entryLine, '\n' ∉ line := by
  intro line member
  rcases List.mem_map.mp member with ⟨entry, listed, rfl⟩
  have valid := valid_entries clean entry listed
  simp [entryLine, valid.1.no_lf, valid.2.no_lf]

theorem map_trim_of_value {given : Option Str} (values : ∀ value ∈ given, Value value) :
    given.map trim = given := by
  cases given with
  | none => rfl
  | some value => exact congrArg some (values value rfl).trimmed

/-- What is read back differs from what was saved in the list of servers at most. -/
theorem parseWanConf_toConf (clean : Clean config) :
    parseWanConf config.toConf = some { config with dns := config.dns.map rereadDns } := by
  rw [parseWanConf, toConf_eq, lines_unlines (no_lf_entryLine clean),
    foldl_readLine (valid_entries clean), foldl_entries, clean.interface.trimmed,
    config.mode.trim_print, config.mode.parse_print, map_trim_of_value clean.address,
    map_trim_of_value clean.gateway]
  rfl

/-- A saved config is read back unless its list of servers is there and empty. -/
theorem parseWanConf_toConf_iff (clean : Clean config) :
    parseWanConf config.toConf = some config ↔ config.dns ≠ some [] := by
  rw [parseWanConf_toConf clean]
  rcases config with ⟨interface, mode, address, gateway, dns⟩
  cases dns with
  | none => simp
  | some dns =>
      have same := rereadDns_eq_iff (clean.dns dns rfl)
      simpa using same

def tenNet : WanConfig :=
  ⟨"eth0".toList, .static, some "10.0.0.2/24".toList, some "10.0.0.1".toList,
    some ["1.1.1.1".toList]⟩

theorem parseWanConf_tenNet : parseWanConf tenNet.toConf = some tenNet := by
  have clean : Clean tenNet := {
    interface := ⟨by decide, by decide⟩
    address := fun _ given => Option.some.inj given ▸ ⟨by decide, by decide⟩
    gateway := fun _ given => Option.some.inj given ▸ ⟨by decide, by decide⟩
    dns := fun _ given entry member => by
      rw [← Option.some.inj given, List.mem_singleton] at member
      rw [member]
      exact ⟨⟨by decide, by decide⟩, by decide⟩ }
  exact (parseWanConf_toConf_iff clean).mpr (by decide)

/-- What the panel sends when no server is given. -/
def withoutServers : WanConfig := ⟨"eth0".toList, .dhcp, none, none, some []⟩

theorem parseWanConf_withoutServers :
    Clean withoutServers ∧
      parseWanConf withoutServers.toConf = some { withoutServers with dns := some [[]] } ∧
      parseWanConf withoutServers.toConf ≠ some withoutServers := by
  refine ⟨⟨⟨by decide, by decide⟩, ?_, ?_, ?_⟩, by decide +kernel, by decide +kernel⟩
  · exact fun _ given => nomatch given
  · exact fun _ given => nomatch given
  · intro dns given entry member
    rw [← Option.some.inj given] at member
    cases member

end RoundTrip

end WanConfig

end TinyWifi
