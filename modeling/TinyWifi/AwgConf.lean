import TinyWifi.Lib.Decimal

/-! `parse_conf`: a tunnel config with all its fields. One pass over the lines, with the section
that is open and the peer that is being read. -/

namespace TinyWifi

open Text

namespace AwgConf

structure AwgInterface where
  addresses : List Str
  listenPort : Option UInt16
  dns : List Str
  jc : Option UInt32
  jmin : Option UInt32
  jmax : Option UInt32
  s1 : Option UInt32
  s2 : Option UInt32
  s3 : Option UInt32
  s4 : Option UInt32
  h1 : Option Str
  h2 : Option Str
  h3 : Option Str
  h4 : Option Str
  i1 : Option Str
  i2 : Option Str
  i3 : Option Str
  i4 : Option Str
  i5 : Option Str
  deriving DecidableEq, Repr

structure AwgPeer where
  publicKey : Str
  endpoint : Option Str
  allowedIps : List Str
  persistentKeepalive : Option UInt32
  hasPresharedKey : Bool
  deriving DecidableEq, Repr

structure PeerBuf where
  publicKey : Str
  endpoint : Option Str
  allowedIps : List Str
  persistentKeepalive : Option UInt32
  hasPresharedKey : Bool
  deriving DecidableEq, Repr

def AwgInterface.default : AwgInterface where
  addresses := []
  listenPort := none
  dns := []
  jc := none
  jmin := none
  jmax := none
  s1 := none
  s2 := none
  s3 := none
  s4 := none
  h1 := none
  h2 := none
  h3 := none
  h4 := none
  i1 := none
  i2 := none
  i3 := none
  i4 := none
  i5 := none

def PeerBuf.default : PeerBuf := ⟨[], none, [], none, false⟩

def keyAddress : Str := "Address".toList
def keyDns : Str := "DNS".toList

def parseU16 (val : Str) : Option UInt16 := (parseUnsigned 65536 val).map UInt16.ofNat

def parseU32 (val : Str) : Option UInt32 := (parseUnsigned 4294967296 val).map UInt32.ofNat

def listParts (val : Str) : List Str := ((val.splitOn ',').map trim).filter (· ≠ [])

def applyIfaceKey (iface : AwgInterface) (key val : Str) : AwgInterface :=
  if key = keyAddress then { iface with addresses := iface.addresses ++ listParts val }
  else if key = "ListenPort".toList then { iface with listenPort := parseU16 val }
  else if key = keyDns then { iface with dns := iface.dns ++ listParts val }
  else if key = "Jc".toList then { iface with jc := parseU32 val }
  else if key = "Jmin".toList then { iface with jmin := parseU32 val }
  else if key = "Jmax".toList then { iface with jmax := parseU32 val }
  else if key = "S1".toList then { iface with s1 := parseU32 val }
  else if key = "S2".toList then { iface with s2 := parseU32 val }
  else if key = "S3".toList then { iface with s3 := parseU32 val }
  else if key = "S4".toList then { iface with s4 := parseU32 val }
  else if key = "H1".toList then { iface with h1 := some val }
  else if key = "H2".toList then { iface with h2 := some val }
  else if key = "H3".toList then { iface with h3 := some val }
  else if key = "H4".toList then { iface with h4 := some val }
  else if key = "I1".toList then { iface with i1 := some val }
  else if key = "I2".toList then { iface with i2 := some val }
  else if key = "I3".toList then { iface with i3 := some val }
  else if key = "I4".toList then { iface with i4 := some val }
  else if key = "I5".toList then { iface with i5 := some val }
  else iface

namespace PeerBuf

def apply (buf : PeerBuf) (key val : Str) : PeerBuf :=
  if key = "PublicKey".toList then { buf with publicKey := val }
  else if key = "Endpoint".toList then { buf with endpoint := some val }
  else if key = "AllowedIPs".toList then
    { buf with allowedIps := buf.allowedIps ++ listParts val }
  else if key = "PersistentKeepalive".toList then { buf with persistentKeepalive := parseU32 val }
  else if key = "PresharedKey".toList then { buf with hasPresharedKey := true }
  else buf

def finish (buf : PeerBuf) : AwgPeer :=
  ⟨buf.publicKey, buf.endpoint, buf.allowedIps, buf.persistentKeepalive, buf.hasPresharedKey⟩

end PeerBuf

def eqIgnoreAsciiCase (a b : Str) : Bool := a.map Char.toLower = b.map Char.toLower

def isInterfaceHeader (line : Str) : Bool := eqIgnoreAsciiCase (trim line) "[Interface]".toList

def isPeerHeader (line : Str) : Bool := eqIgnoreAsciiCase (trim line) "[Peer]".toList

/-- What the parser sees in a line; comments and lines without `=` are passed over. -/
inductive Item
  | interface
  | peer
  | pair (key val : Str)
  deriving DecidableEq, Repr

def itemOf (line : Str) : Option Item :=
  if trim line = [] ∨ (trim line).head? = some '#' then none
  else if isInterfaceHeader line then some .interface
  else if isPeerHeader line then some .peer
  else
    match splitOnce '=' (trim line) with
    | some (k, v) => some (.pair (trim k) (trim v))
    | none => none

inductive Section
  | none
  | interface
  | peer
  deriving DecidableEq, Repr

structure Parser where
  iface : AwgInterface
  peers : List AwgPeer
  current : Section
  peerBuf : Option PeerBuf
  deriving DecidableEq, Repr

namespace Parser

def start : Parser := ⟨.default, [], .none, none⟩

def flush (s : Parser) : Parser :=
  { s with peers := s.peers ++ (s.peerBuf.map PeerBuf.finish).toList, peerBuf := none }

def step (s : Parser) : Item → Parser
  | .interface => { s.flush with current := .interface }
  | .peer => { s.flush with current := .peer, peerBuf := some .default }
  | .pair key val =>
    match s.current with
    | .interface => { s with iface := applyIfaceKey s.iface key val }
    | .peer => { s with peerBuf := s.peerBuf.map fun buf => buf.apply key val }
    | .none => s

end Parser

def items (content : Str) : List Item := (Text.lines content).filterMap itemOf

def parseItems (list : List Item) : AwgInterface × List AwgPeer :=
  let s := (list.foldl Parser.step .start).flush
  (s.iface, s.peers)

def parseConf (content : Str) : AwgInterface × List AwgPeer := parseItems (items content)

/-- A header, and the key lines up to the next one. -/
inductive Block
  | interface (pairs : List (Str × Str))
  | peer (pairs : List (Str × Str))
  deriving DecidableEq, Repr

/-- The key lines in front of all headers, and the blocks. -/
def blocks : List Item → List (Str × Str) × List Block
  | [] => ([], [])
  | .pair key val :: rest => ((key, val) :: (blocks rest).1, (blocks rest).2)
  | .interface :: rest => ([], .interface (blocks rest).1 :: (blocks rest).2)
  | .peer :: rest => ([], .peer (blocks rest).1 :: (blocks rest).2)

def setIface (iface : AwgInterface) (pairs : List (Str × Str)) : AwgInterface :=
  pairs.foldl (fun i pair => applyIfaceKey i pair.1 pair.2) iface

def setPeer (buf : PeerBuf) (pairs : List (Str × Str)) : PeerBuf :=
  pairs.foldl (fun b pair => b.apply pair.1 pair.2) buf

/-- The interface of a config: the key lines of its `[Interface]` blocks, in their order. -/
def ifaceOf (iface : AwgInterface) : List Block → AwgInterface
  | [] => iface
  | .interface pairs :: rest => ifaceOf (setIface iface pairs) rest
  | .peer _ :: rest => ifaceOf iface rest

/-- The peers of a config: one for each `[Peer]` block, from the key lines of that block. -/
def peersOf : List Block → List AwgPeer
  | [] => []
  | .interface _ :: rest => peersOf rest
  | .peer pairs :: rest => (setPeer .default pairs).finish :: peersOf rest

section Loop

namespace Parser

/-- A peer is being read only while its section is open. -/
def Consistent (s : Parser) : Prop := s.current ≠ .peer → s.peerBuf = none

theorem consistent_step {s : Parser} (h : s.Consistent) (item : Item) :
    (s.step item).Consistent := by
  cases item with
  | interface => exact fun _ => rfl
  | peer => exact fun other => absurd rfl other
  | pair key val =>
      intro other
      cases current : s.current with
      | none => simp_all [step, Consistent]
      | interface => simp_all [step, Consistent]
      | peer => simp_all [step]

def resume (s : Parser) (pairs : List (Str × Str)) : AwgInterface × List AwgPeer :=
  (if s.current = .interface then setIface s.iface pairs else s.iface,
    s.peers ++ (s.peerBuf.map fun buf => (setPeer buf pairs).finish).toList)

/-- The pass over the items gives the open section its key lines, and each block its own. -/
theorem flush_foldl {s : Parser} (h : s.Consistent) (list : List Item) :
    (list.foldl step s).flush.iface = ifaceOf (s.resume (blocks list).1).1 (blocks list).2 ∧
      (list.foldl step s).flush.peers =
        (s.resume (blocks list).1).2 ++ peersOf (blocks list).2 := by
  induction list generalizing s with
  | nil =>
      constructor
      · simp [flush, blocks, ifaceOf, resume, setIface]
      · simp [flush, blocks, peersOf, resume, setPeer]
  | cons item rest ih =>
      have later := ih (consistent_step h item)
      rw [List.foldl_cons, later.1, later.2]
      cases item with
      | interface => simp [step, blocks, resume, flush, ifaceOf, peersOf, setIface, setPeer]
      | peer => simp [step, blocks, resume, flush, ifaceOf, peersOf, setIface, setPeer]
      | pair key val =>
          cases current : s.current with
          | none => simp_all [step, blocks, resume, Consistent]
          | interface => simp_all [step, blocks, resume, Consistent, setIface]
          | peer => simp_all [step, blocks, resume, Function.comp_def, setPeer]

end Parser

theorem parseItems_eq (list : List Item) :
    parseItems list = (ifaceOf .default (blocks list).2, peersOf (blocks list).2) := by
  have consistent : Parser.start.Consistent := fun _ => rfl
  have read := Parser.flush_foldl consistent list
  rw [parseItems, read.1, read.2]
  rfl

end Loop

section Blocks

theorem blocks_append {a b : List Item} (header : (blocks b).1 = []) :
    blocks (a ++ b) = ((blocks a).1, (blocks a).2 ++ (blocks b).2) := by
  induction a with
  | nil => simp [blocks, ← header]
  | cons item rest ih => cases item <;> simp [blocks, ih]

theorem ifaceOf_append (iface : AwgInterface) (a b : List Block) :
    ifaceOf iface (a ++ b) = ifaceOf (ifaceOf iface a) b := by
  induction a generalizing iface with
  | nil => rfl
  | cons block rest ih => cases block <;> simp [ifaceOf, ih]

theorem peersOf_append (a b : List Block) : peersOf (a ++ b) = peersOf a ++ peersOf b := by
  induction a with
  | nil => rfl
  | cons block rest ih => cases block <;> simp [peersOf, ih]

theorem ifaceOf_blocks {list : List Item} (none : .interface ∉ list) (iface : AwgInterface) :
    ifaceOf iface (blocks list).2 = iface := by
  induction list with
  | nil => rfl
  | cons item rest ih =>
      simp only [List.mem_cons, not_or] at none
      cases item with
      | interface => exact absurd rfl none.1
      | peer => simpa [blocks, ifaceOf] using ih none.2
      | pair key val => exact ih none.2

theorem length_peersOf (list : List Item) :
    (peersOf (blocks list).2).length = list.countP (· = .peer) := by
  induction list with
  | nil => rfl
  | cons item rest ih => cases item <;> simp [blocks, peersOf, ih]

end Blocks

section Items

theorem itemOf_trim (line : Str) : itemOf (trim line) = itemOf line := by
  unfold itemOf isInterfaceHeader isPeerHeader
  rw [trim_trim]

theorem items_eq (content : Str) :
    items content = (Text.lines content).filterMap fun line => itemOf (trim line) := by
  simp only [itemOf_trim]
  rfl

theorem items_append (a b : Str) : items (a ++ '\n' :: b) = items a ++ items b := by
  rw [items_eq, items_eq, items_eq]
  exact filterMap_trim_append rfl a b

theorem not_comment_of_bracket {s rest : Str} (h : eqIgnoreAsciiCase s ('[' :: rest) = true) :
    ¬ (s = [] ∨ s.head? = some '#') := by
  have same : s.map Char.toLower = ('[' :: rest).map Char.toLower := by
    simpa [eqIgnoreAsciiCase] using h
  intro comment
  rcases comment with empty | hash
  · rw [empty] at same
    cases same
  · cases s with
    | nil => cases hash
    | cons c more =>
        have first : c = '#' := by simpa using hash
        have lower := (List.cons_eq_cons.mp same).1
        rw [first] at lower
        exact absurd lower (by decide)

theorem interface_not_peer {line : Str} (header : isInterfaceHeader line = true) :
    isPeerHeader line = false := by
  unfold isInterfaceHeader isPeerHeader eqIgnoreAsciiCase at *
  rw [decide_eq_true_iff] at header
  rw [header]
  decide

def Item.IsOf (line : Str) : Item → Prop
  | .interface => isInterfaceHeader line = true
  | .peer => isPeerHeader line = true
  | .pair key val =>
    ∃ parts, splitOnce '=' (trim line) = some parts ∧ key = trim parts.1 ∧ val = trim parts.2

theorem isOf_itemOf {line : Str} {item : Item} (found : itemOf line = some item) :
    item.IsOf line := by
  unfold itemOf at found
  split at found
  · cases found
  · split at found
    · next interface =>
        cases found
        exact interface
    · split at found
      · next peer =>
          cases found
          exact peer
      · split at found
        · next k v parts =>
            cases found
            exact ⟨(k, v), parts, rfl, rfl⟩
        · cases found

theorem itemOf_eq_interface {line : Str} :
    itemOf line = some .interface ↔ isInterfaceHeader line = true := by
  constructor
  · exact isOf_itemOf
  · intro header
    rw [itemOf, if_neg (not_comment_of_bracket header), if_pos header]

theorem itemOf_eq_peer {line : Str} : itemOf line = some .peer ↔ isPeerHeader line = true := by
  constructor
  · exact isOf_itemOf
  · intro header
    have single : ¬ isInterfaceHeader line = true := by
      intro also
      rw [interface_not_peer also] at header
      cases header
    rw [itemOf, if_neg (not_comment_of_bracket header), if_neg single, if_pos header]

theorem not_mem_of_title {s title : Str} {c : Char} (same : eqIgnoreAsciiCase s title = true)
    (absent : c.toLower ∉ title.map Char.toLower) : c ∉ s := by
  intro member
  have lower := @List.mem_map_of_mem _ _ _ _ Char.toLower member
  rw [eqIgnoreAsciiCase, decide_eq_true_iff] at same
  exact absent (same ▸ lower)

theorem no_eq_of_header {line : Str}
    (header : isInterfaceHeader line = true ∨ isPeerHeader line = true) : '=' ∉ trim line := by
  rcases header with interface | peer
  · exact not_mem_of_title interface (by decide)
  · exact not_mem_of_title peer (by decide)

theorem count_peers (content : Str) :
    (items content).countP (· = .peer) = (Text.lines content).countP isPeerHeader := by
  unfold items
  induction Text.lines content with
  | nil => rfl
  | cons line rest ih =>
      by_cases header : isPeerHeader line = true
      · rw [List.filterMap_cons_some (itemOf_eq_peer.mpr header), List.countP_cons, ih,
          List.countP_cons, if_pos header]
        rfl
      · rw [List.countP_cons_of_neg header, ← ih]
        cases item : itemOf line with
        | none => rw [List.filterMap_cons_none item]
        | some found =>
            have other : ¬ found = .peer := fun same => header (itemOf_eq_peer.mp (same ▸ item))
            rw [List.filterMap_cons_some item, List.countP_cons_of_neg (by simpa using other)]

theorem no_interface_item {content : Str}
    (none : ∀ line ∈ Text.lines content, isInterfaceHeader line = false) :
    .interface ∉ items content := by
  intro member
  rcases List.mem_filterMap.mp member with ⟨line, inside, item⟩
  have header := itemOf_eq_interface.mp item
  rw [none line inside] at header
  cases header

theorem blocks_of_header {content line : Str} (first : (Text.lines content).head? = some line)
    (header : isInterfaceHeader line = true ∨ isPeerHeader line = true) :
    (blocks (items content)).1 = [] := by
  unfold items
  cases shape : Text.lines content with
  | nil => simp [shape] at first
  | cons head rest =>
      have same : head = line := by simpa [shape] using first
      rw [same]
      rcases header with interface | peer
      · rw [List.filterMap_cons_some (itemOf_eq_interface.mpr interface)]
        rfl
      · rw [List.filterMap_cons_some (itemOf_eq_peer.mpr peer)]
        rfl

end Items

def StartsWithHeader (content : Str) : Prop :=
  ∃ line, (Text.lines content).head? = some line ∧
    (isInterfaceHeader line = true ∨ isPeerHeader line = true)

/-- The second part of a text that starts with a header adds its peers, and leaves the interface
alone if it has no `[Interface]`. -/
theorem parseConf_append (a : Str) {b : Str} (header : StartsWithHeader b) :
    (parseConf (a ++ '\n' :: b)).2 = (parseConf a).2 ++ (parseConf b).2 ∧
      ((∀ line ∈ Text.lines b, isInterfaceHeader line = false) →
        (parseConf (a ++ '\n' :: b)).1 = (parseConf a).1) := by
  rcases header with ⟨line, first, header⟩
  have joined : blocks (items (a ++ '\n' :: b)) =
      ((blocks (items a)).1, (blocks (items a)).2 ++ (blocks (items b)).2) := by
    rw [items_append, blocks_append (blocks_of_header first header)]
  simp only [parseConf, parseItems_eq, joined]
  constructor
  · exact peersOf_append _ _
  · intro none
    rw [ifaceOf_append, ifaceOf_blocks (no_interface_item none)]

/-- Parsing is compositional: at every header, in the number of peers, and block by block. -/
theorem parseConf_compositional :
    (∀ a b, StartsWithHeader b →
      (parseConf (a ++ '\n' :: b)).2 = (parseConf a).2 ++ (parseConf b).2 ∧
        ((∀ line ∈ Text.lines b, isInterfaceHeader line = false) →
          (parseConf (a ++ '\n' :: b)).1 = (parseConf a).1)) ∧
    (∀ content, (parseConf content).2.length = (Text.lines content).countP isPeerHeader) ∧
    ∀ content, parseConf content =
      (ifaceOf .default (blocks (items content)).2, peersOf (blocks (items content)).2) := by
  refine ⟨fun a b header => parseConf_append a header, ?_, fun content => parseItems_eq _⟩
  intro content
  rw [parseConf, parseItems_eq, length_peersOf, count_peers]

end AwgConf

end TinyWifi
