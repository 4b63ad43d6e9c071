import TinyWifi.AwgConf
import TinyWifi.Tunnel

/-! `import_tunnel`, and what `tunnel_up` makes of the file it writes. Both drop lines by what
stands around the first `=`. -/

namespace TinyWifi

open Text Exec

inductive ImportError
  | unknownFormat
  | decode (error : Str)
  | write (error : IoError)
  deriving DecidableEq, Repr

def ImportError.display : ImportError → Str
  | .unknownFormat => "unrecognised format (expected [Interface] or vpn://)".toList
  | .decode error => "decode error: ".toList ++ error
  | .write error => "write error: ".toList ++ error.message

/-- What one import rests on: the decoder of `vpn://` links, the alphanumeric characters, and the
answers of the system. -/
structure ImportEnv where
  decodeVpnUri : Str → Except Str Str
  isAlphanumeric : Char → Bool
  createDir : Except IoError Unit
  write : WriteOutcome

namespace AwgImport

open AwgConf

def interfaceHeader : Str := "[Interface]".toList

def joinPath (dir file : Path) : Path :=
  if dir = [] ∨ dir.getLast? = some '/' then dir ++ file else dir ++ '/' :: file

def confText (env : ImportEnv) (input : Str) : Except ImportError Str :=
  if startsWith interfaceHeader (trimStart input) then .ok input
  else if startsWith "vpn://".toList (trim input) then
    (env.decodeVpnUri ((trim input).drop 6)).mapError .decode
  else .error .unknownFormat

def safeName (env : ImportEnv) (name : Str) : Str :=
  name.map fun c => if env.isAlphanumeric c || c = '-' || c = '_' then c else '_'

def hasValue (line : Str) : Bool :=
  match splitOnce '=' line with
  | some (_, v) => trim v ≠ []
  | none => true

/-- Lines with empty values are dropped: `awg setconf` rejects them. -/
def cleaned (conf : Str) : Str := unlines ((Text.lines conf).filter hasValue)

def importTunnel (env : ImportEnv) (input name : Str) (confDir : Path) :
    Exec Fs ImportError Path := do
  let conf ← reading fun _ => confText env input
  reading fun _ => env.createDir.mapError .write
  let path := joinPath confDir (safeName env name ++ ".conf".toList)
  mapError .write (writeFile env.write path (encode (cleaned conf)))
  return path

def keyOf (line : Str) : Option Str := (splitOnce '=' line).map fun parts => trim parts.1

def forSetconf (line : Str) : Bool := (keyOf line).all fun key => !awgQuickKeys.contains key

/-- The interface without the fields that only `awg-quick` knows. -/
def bare (iface : AwgConf.AwgInterface) : AwgConf.AwgInterface :=
  { iface with addresses := [], dns := [] }

/-- The lines that `s` has to have: those of the text, without the carriage return that a line may
still end in. -/
def kept (input : Str) : List Str := ((Text.lines input).filter forSetconf).map stripCr

/-- Nothing that `awg` or the tunnel needs is lost on the way to `awg setconf`. -/
structure Preserved (input w s : Str) : Prop where
  written : parseConf w = parseConf input
  peers : (parseConf s).2 = (parseConf input).2
  iface : (parseConf s).1 = bare (parseConf input).1
  stripped : ∀ line ∈ Text.lines s, forSetconf line = true
  lines : s = unlines (kept input)

section Key

theorem keyOf_trim (line : Str) : keyOf (trim line) = keyOf line := key_trim (by decide) line

theorem keyOf_stripCr (line : Str) : keyOf (stripCr line) = keyOf line := by
  rw [← keyOf_trim, trim_stripCr, keyOf_trim]

theorem forSetconf_stripCr (line : Str) : forSetconf (stripCr line) = forSetconf line := by
  rw [forSetconf, keyOf_stripCr, forSetconf]

theorem stripConfKeys_eq (content : Str) : stripConfKeys content awgQuickKeys =
    unlines ((Text.lines content).filter forSetconf) := by
  have same : ∀ line, (match splitOnce '=' line with
      | some (k, _) => !awgQuickKeys.contains (trim k)
      | none => true) = forSetconf line := by
    intro line
    unfold forSetconf keyOf
    cases splitOnce '=' line with
    | none => rfl
    | some parts => rfl
  rw [stripConfKeys]
  congr 2
  funext line
  exact same line

def Item.isQuick : Item → Bool
  | .pair key _ => awgQuickKeys.contains key
  | _ => false

theorem forSetconf_of_item {line : Str} {item : Item} (found : itemOf line = some item) :
    forSetconf line = !Item.isQuick item := by
  have header (title : isInterfaceHeader line = true ∨ isPeerHeader line = true) :
      forSetconf line = true := by
    have none : keyOf line = none := by
      rw [← keyOf_trim, keyOf, splitOnce_eq_none_iff.mpr (no_eq_of_header title), Option.map_none]
    rw [forSetconf, none, Option.all_none]
  cases item with
  | interface => exact header (.inl (itemOf_eq_interface.mp found))
  | peer => exact header (.inr (itemOf_eq_peer.mp found))
  | pair key val =>
      rcases isOf_itemOf found with ⟨parts, split, same, _⟩
      rw [forSetconf, ← keyOf_trim, keyOf, split, Option.map_some, ← same, Option.all_some]
      rfl

theorem items_forSetconf (lines : List Str) :
    (lines.filter forSetconf).filterMap itemOf =
      (lines.filterMap itemOf).filter fun item => !Item.isQuick item := by
  induction lines with
  | nil => rfl
  | cons line rest ih =>
      cases found : itemOf line with
      | none =>
          rw [List.filterMap_cons_none found, ← ih, List.filter_cons]
          split
          · rw [List.filterMap_cons_none found]
          · rfl
      | some item =>
          rw [List.filterMap_cons_some found, List.filter_cons, List.filter_cons, ← ih,
            forSetconf_of_item found]
          split
          · rw [List.filterMap_cons_some found]
          · rfl

end Key

section Parse

theorem bare_applyIfaceKey_quick {key : Str} (quick : key ∈ awgQuickKeys)
    (iface : AwgConf.AwgInterface) (val : Str) :
    bare (applyIfaceKey iface key val) = bare iface := by
  simp only [awgQuickKeys, List.mem_cons, List.not_mem_nil, or_false] at quick
  rcases quick with rfl | rfl | rfl | rfl | rfl | rfl | rfl | rfl <;> rfl

theorem apply_quick {key : Str} (quick : key ∈ awgQuickKeys) (buf : PeerBuf) (val : Str) :
    buf.apply key val = buf := by
  simp only [awgQuickKeys, List.mem_cons, List.not_mem_nil, or_false] at quick
  rcases quick with rfl | rfl | rfl | rfl | rfl | rfl | rfl | rfl <;> rfl

theorem bare_applyIfaceKey {key : Str} (other : key ∉ awgQuickKeys)
    (iface : AwgConf.AwgInterface) (val : Str) :
    bare (applyIfaceKey iface key val) = applyIfaceKey (bare iface) key val := by
  have address : key ≠ AwgConf.keyAddress := by
    rintro rfl
    exact other (by decide)
  have dns : key ≠ AwgConf.keyDns := by
    rintro rfl
    exact other (by decide)
  unfold applyIfaceKey
  simp only [address, dns, if_false, apply_ite bare]
  rfl

def bareParser (s : Parser) : Parser := { s with iface := bare s.iface }

theorem bare_step_quick {item : Item} (quick : Item.isQuick item = true) (s : Parser) :
    bareParser (s.step item) = bareParser s := by
  cases item with
  | interface => cases quick
  | peer => cases quick
  | pair key val =>
      have member : key ∈ awgQuickKeys := by simpa [Item.isQuick] using quick
      cases current : s.current with
      | none => simp [Parser.step, current]
      | interface => simp [Parser.step, current, bareParser, bare_applyIfaceKey_quick member]
      | peer => simp [Parser.step, current, bareParser, apply_quick member]

theorem bare_step {item : Item} (other : Item.isQuick item = false) (s : Parser) :
    bareParser (s.step item) = (bareParser s).step item := by
  cases item with
  | interface => rfl
  | peer => rfl
  | pair key val =>
      have member : key ∉ awgQuickKeys := by simpa [Item.isQuick] using other
      cases current : s.current with
      | none => simp [Parser.step, current, bareParser]
      | interface => simp [Parser.step, current, bareParser, bare_applyIfaceKey member]
      | peer => simp [Parser.step, current, bareParser]

/-- The parser that is not shown `awg-quick`'s lines does the same to all the other fields. -/
theorem foldl_forSetconf (list : List Item) (s : Parser) :
    (list.filter fun item => !Item.isQuick item).foldl Parser.step (bareParser s) =
      bareParser (list.foldl Parser.step s) := by
  induction list generalizing s with
  | nil => rfl
  | cons item rest ih =>
      rw [List.foldl_cons, ← ih]
      by_cases quick : Item.isQuick item = true
      · rw [List.filter_cons_of_neg (by simp [quick]), bare_step_quick quick]
      · rw [Bool.not_eq_true] at quick
        rw [List.filter_cons_of_pos (by simp [quick]), List.foldl_cons, bare_step quick]

theorem parseItems_forSetconf (list : List Item) :
    parseItems (list.filter fun item => !Item.isQuick item) =
      (bare (parseItems list).1, (parseItems list).2) := by
  have folded := foldl_forSetconf list .start
  have start : bareParser .start = .start := rfl
  rw [start] at folded
  rw [parseItems, folded]
  rfl

end Parse

section Files

variable {input : Str}

theorem itemOf_stripCr (line : Str) : itemOf (stripCr line) = itemOf line := by
  rw [← itemOf_trim, trim_stripCr, itemOf_trim]

theorem items_unlines {list : List Str} (lf : ∀ line ∈ list, '\n' ∉ line) :
    items (unlines list) = list.filterMap itemOf := by
  rw [items, lines_unlines lf, List.filterMap_map]
  exact List.filterMap_congr fun line _ => itemOf_stripCr line

theorem cleaned_eq (full : ∀ line ∈ Text.lines input, hasValue line = true) :
    cleaned input = unlines (Text.lines input) := by
  rw [cleaned, List.filter_eq_self.mpr full]

theorem stripped_eq : stripConfKeys (unlines (Text.lines input)) awgQuickKeys =
    unlines (kept input) := by
  rw [stripConfKeys_eq, lines_unlines fun line member => no_lf_of_mem_lines member,
    List.filter_map, kept]
  congr 3
  funext line
  exact forSetconf_stripCr line

theorem no_lf_kept : ∀ line ∈ kept input, '\n' ∉ line := by
  intro line member inside
  rcases List.mem_map.mp member with ⟨old, present, rfl⟩
  exact no_lf_of_mem_lines (List.mem_of_mem_filter present) (mem_of_mem_stripCr inside)

theorem items_kept : items (unlines (kept input)) =
    (items input).filter fun item => !Item.isQuick item := by
  rw [items_unlines no_lf_kept, kept, List.filterMap_map, items, ← items_forSetconf]
  exact List.filterMap_congr fun line _ => itemOf_stripCr line

theorem preserved (full : ∀ line ∈ Text.lines input, hasValue line = true) :
    Preserved input (cleaned input) (stripConfKeys (cleaned input) awgQuickKeys) := by
  have stripped : stripConfKeys (cleaned input) awgQuickKeys = unlines (kept input) := by
    rw [cleaned_eq full, stripped_eq]
  have parsed : parseConf (unlines (kept input)) =
      (bare (parseConf input).1, (parseConf input).2) := by
    rw [parseConf, items_kept, parseItems_forSetconf]
    rfl
  constructor
  · rw [cleaned_eq full, parseConf, items_unlines fun line member => no_lf_of_mem_lines member]
    rfl
  · rw [stripped, parsed]
  · rw [stripped, parsed]
  · rw [stripped, lines_unlines no_lf_kept]
    intro line member
    rcases List.mem_map.mp member with ⟨once, inside, rfl⟩
    rcases List.mem_map.mp inside with ⟨old, present, rfl⟩
    rw [forSetconf_stripCr, forSetconf_stripCr]
    exact List.of_mem_filter present
  · exact stripped

theorem importTunnel_ok {env : ImportEnv} {name : Str} {dir path : Path} {fs fs' : Fs}
    (raw : startsWith interfaceHeader (trimStart input) = true)
    (done : outcome (importTunnel env input name dir) fs = (.ok path, fs')) :
    contentOf fs' path = some (cleaned input) := by
  have text : confText env input = .ok input := if_pos raw
  rcases outcome_bind_ok.mp done with ⟨conf, _, read, done⟩
  rw [outcome_reading, text] at read
  cases read
  rcases outcome_bind_ok.mp done with ⟨_, _, created, done⟩
  rcases outcome_bind_ok.mp done with ⟨_, written, whole, done⟩
  rcases outcome_writeFile_ok.mp (outcome_mapError_ok.mp whole) with ⟨_, rfl⟩
  cases done
  exact contentOf_put ..

end Files

/-- What is imported is the tunnel that was given, and what `awg setconf` is handed is the tunnel
without `awg-quick`'s part. -/
theorem import_preserves {env : ImportEnv} {input name : Str} {dir path : Path} {fs fs' : Fs}
    (raw : startsWith interfaceHeader (trimStart input) = true)
    (full : ∀ line ∈ Text.lines input, hasValue line = true)
    (done : outcome (importTunnel env input name dir) fs = (.ok path, fs')) :
    ∃ w, contentOf fs' path = some w ∧ Preserved input w (stripConfKeys w awgQuickKeys) :=
  ⟨cleaned input, importTunnel_ok raw done, preserved full⟩

def plainImport : ImportEnv := ⟨fun _ => .error [], Char.isAlphanum, .ok (), .done⟩

theorem import_preserves_plain :
    ∃ w, contentOf (oneFile "/c/a_b.conf".toList
        "[Interface]\nAddress = 10.0.0.2/32\n[Peer]\nPublicKey = k=\n".toList)
        "/c/a_b.conf".toList = some w ∧
      Preserved "[Interface]\nAddress = 10.0.0.2/32\n[Peer]\nPublicKey = k=\n".toList w
        (stripConfKeys w awgQuickKeys) := by
  have done : outcome (importTunnel plainImport
      "[Interface]\nAddress = 10.0.0.2/32\n[Peer]\nPublicKey = k=\n".toList "a b".toList
      "/c".toList) (fun _ => none) = (.ok "/c/a_b.conf".toList, oneFile "/c/a_b.conf".toList
        "[Interface]\nAddress = 10.0.0.2/32\n[Peer]\nPublicKey = k=\n".toList) := by
    rfl
  exact import_preserves (by decide) (by decide) done

/-- The second line still ends in a carriage return after the line end is taken off. -/
def doubleReturn : Str := "[Interface]\nPrivateKey = x\r\r\n".toList

/-- The carriage return goes when the written file is read, so the lines that are handed on are not
all lines of the text. -/
theorem doubleReturn_not_subsequence :
    startsWith interfaceHeader (trimStart doubleReturn) = true ∧
    (∀ line ∈ Text.lines doubleReturn, hasValue line = true) ∧
    outcome (importTunnel plainImport doubleReturn "a".toList "/c".toList) (fun _ => none) =
      (.ok "/c/a.conf".toList,
        oneFile "/c/a.conf".toList "[Interface]\nPrivateKey = x\r\n".toList) ∧
    ¬ (Text.lines (stripConfKeys "[Interface]\nPrivateKey = x\r\n".toList awgQuickKeys)).Sublist
      (Text.lines doubleReturn) := by
  have given : Text.lines doubleReturn = ["[Interface]".toList, "PrivateKey = x\r".toList] := by
    decide
  have handed : Text.lines (stripConfKeys "[Interface]\nPrivateKey = x\r\n".toList awgQuickKeys) =
      ["[Interface]".toList, "PrivateKey = x".toList] := by decide
  refine ⟨by decide, by decide, rfl, ?_⟩
  rw [given, handed]
  intro inside
  have member := inside.subset (List.mem_cons_of_mem _ List.mem_cons_self)
  exact absurd member (by decide)

end AwgImport

end TinyWifi
