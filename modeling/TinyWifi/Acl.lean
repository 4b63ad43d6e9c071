import TinyWifi.Lib.Lowercase
import TinyWifi.Lib.Runs

/-! `acl.rs` and the requests of `api.rs` that change it: the one list of MAC addresses, and what
it means in each mode. -/

namespace TinyWifi

open Text Runs

inductive AclMode
  | disabled
  | whitelist
  | blacklist
  deriving DecidableEq, Repr

/-- The persisted list; a missing or unreadable file stands for the default. -/
structure AclState where
  mode : AclMode
  macs : List Str
  deriving DecidableEq, Repr

inductive AclRequest
  | post (mode : AclMode) (macs : List Str)
  | block (mac : Str)
  | unblock (mac : Str)

namespace AclState

variable (u : UnicodeData)

def default : AclState := ⟨.disabled, []⟩

def normalizeMac (mac : Str) : Str := u.toLowercase (trim mac)

def add (mac : Str) (s : AclState) : AclState :=
  if normalizeMac u mac ≠ [] ∧ normalizeMac u mac ∉ s.macs then
    { s with macs := s.macs ++ [normalizeMac u mac] }
  else s

def remove (mac : Str) (s : AclState) : AclState :=
  { s with macs := s.macs.filter (· ≠ normalizeMac u mac) }

def aclPost (mode : AclMode) (macs : List Str) : AclState := ⟨mode, macs.map (normalizeMac u)⟩

def aclBlock (mac : Str) (s : AclState) : AclState :=
  let s := if s.mode = .disabled then { s with mode := .blacklist } else s
  s.add u mac

def aclUnblock (mac : Str) (s : AclState) : AclState := s.remove u mac

def serve (s : AclState) : AclRequest → AclState
  | .post mode macs => aclPost u mode macs
  | .block mac => s.aclBlock u mac
  | .unblock mac => s.aclUnblock u mac

/-- Whether hostapd lets the client in. -/
def Allowed (s : AclState) (mac : Str) : Prop :=
  match s.mode with
  | .disabled => True
  | .whitelist => normalizeMac u mac ∈ s.macs
  | .blacklist => normalizeMac u mac ∉ s.macs

instance (s : AclState) (mac : Str) : Decidable (s.Allowed u mac) :=
  match s with
  | ⟨.disabled, _⟩ => .isTrue trivial
  | ⟨.whitelist, macs⟩ => inferInstanceAs (Decidable (normalizeMac u mac ∈ macs))
  | ⟨.blacklist, macs⟩ => inferInstanceAs (Decidable (¬ normalizeMac u mac ∈ macs))

def Reachable (s : AclState) : Prop := ∃ requests, run (serve u) default requests = s

/-- The client is refused after the request, and nobody else is let in or refused by it. -/
structure BlockMeans (s : AclState) (mac : Str) : Prop where
  refused : ¬ (s.aclBlock u mac).Allowed u mac
  others : ∀ other, normalizeMac u other ≠ normalizeMac u mac →
    ((s.aclBlock u mac).Allowed u other ↔ s.Allowed u other)

structure UnblockMeans (s : AclState) (mac : Str) : Prop where
  admitted : (s.aclUnblock u mac).Allowed u mac
  others : ∀ other, normalizeMac u other ≠ normalizeMac u mac →
    ((s.aclUnblock u mac).Allowed u other ↔ s.Allowed u other)

section Lists

variable {u} {mac : Str} {s : AclState}

theorem normalizeMac_ne_nil (nonblank : trim mac ≠ []) : normalizeMac u mac ≠ [] :=
  u.toLowercase_ne_nil nonblank

@[simp] theorem mode_add : (s.add u mac).mode = s.mode := by
  unfold add
  split <;> rfl

theorem mem_macs_add (nonblank : trim mac ≠ []) (entry : Str) :
    entry ∈ (s.add u mac).macs ↔ entry ∈ s.macs ∨ entry = normalizeMac u mac := by
  unfold add
  split
  · simp
  · next skipped =>
      have present : normalizeMac u mac ∈ s.macs := by
        by_contra absent
        exact skipped ⟨normalizeMac_ne_nil nonblank, absent⟩
      constructor
      · exact .inl
      · intro either
        rcases either with member | rfl
        · exact member
        · exact present

theorem mode_aclBlock :
    (s.aclBlock u mac).mode = if s.mode = .disabled then .blacklist else s.mode := by
  rw [aclBlock, mode_add]
  split <;> rfl

theorem mem_macs_aclBlock (nonblank : trim mac ≠ []) (entry : Str) :
    entry ∈ (s.aclBlock u mac).macs ↔ entry ∈ s.macs ∨ entry = normalizeMac u mac := by
  rw [aclBlock, mem_macs_add nonblank]
  split <;> rfl

theorem mem_macs_aclUnblock (entry : Str) :
    entry ∈ (s.aclUnblock u mac).macs ↔ entry ∈ s.macs ∧ entry ≠ normalizeMac u mac := by
  simp [aclUnblock, remove]

/-- Every entry of the list is the normal form of some address. -/
def Normal (u : UnicodeData) (s : AclState) : Prop :=
  ∀ entry ∈ s.macs, ∃ raw, normalizeMac u raw = entry

theorem Normal.add (normal : Normal u s) (mac : Str) : Normal u (s.add u mac) := by
  unfold AclState.add
  split
  · intro entry member
    rcases List.mem_append.mp member with member | member
    · exact normal entry member
    · exact ⟨mac, (List.mem_singleton.mp member).symm⟩
  · exact normal

theorem Normal.serve (normal : Normal u s) (request : AclRequest) :
    Normal u (s.serve u request) := by
  cases request with
  | post mode macs =>
      intro entry member
      obtain ⟨raw, -, same⟩ := List.mem_map.mp member
      exact ⟨raw, same⟩
  | block mac =>
      apply Normal.add
      intro entry member
      apply normal entry
      split at member <;> exact member
  | unblock mac =>
      intro entry member
      exact normal entry (List.mem_of_mem_filter member)

theorem normal_of_reachable (reachable : Reachable u s) : Normal u s := by
  obtain ⟨requests, rfl⟩ := reachable
  have start : Normal u default := by
    intro entry member
    cases member
  induction requests using List.reverseRecOn with
  | nil => exact start
  | append_singleton front request ih =>
      rw [run_concat]
      exact ih.serve request

end Lists

section Meaning

variable {u : UnicodeData} {mac : Str} {s : AclState}

theorem not_blockMeans_whitelist (nonblank : trim mac ≠ []) (mode : s.mode = .whitelist) :
    ¬ BlockMeans u s mac := by
  intro means
  apply means.refused
  rw [Allowed, mode_aclBlock, mode]
  exact (mem_macs_aclBlock nonblank _).mpr (.inr rfl)

theorem blockMeans_blacklist (nonblank : trim mac ≠ []) (mode : s.mode = .blacklist) :
    BlockMeans u s mac where
  refused := by
    rw [Allowed, mode_aclBlock, mode]
    exact not_not_intro ((mem_macs_aclBlock nonblank _).mpr (.inr rfl))
  others other differs := by
    have same : normalizeMac u other ∈ (s.aclBlock u mac).macs ↔
        normalizeMac u other ∈ s.macs := by
      rw [mem_macs_aclBlock nonblank]
      exact or_iff_left differs
    rw [Allowed, Allowed, mode_aclBlock, mode]
    exact not_congr same

/-- A block that turns the filter on refuses whatever the list still holds. -/
theorem blockMeans_disabled_iff (reachable : Reachable u s) (nonblank : trim mac ≠ [])
    (mode : s.mode = .disabled) :
    BlockMeans u s mac ↔ ∀ entry ∈ s.macs, entry = normalizeMac u mac := by
  have turned (other : Str) : (s.aclBlock u mac).Allowed u other ↔
      normalizeMac u other ∉ (s.aclBlock u mac).macs := by
    rw [Allowed, mode_aclBlock, mode]
    rfl
  have open_ (other : Str) : s.Allowed u other := by
    rw [Allowed, mode]
    trivial
  constructor
  · intro means entry member
    obtain ⟨raw, rfl⟩ := normal_of_reachable reachable entry member
    by_contra differs
    have admitted := (means.others raw differs).mpr (open_ raw)
    exact (turned raw).mp admitted ((mem_macs_aclBlock nonblank _).mpr (.inl member))
  · intro only
    refine ⟨?_, fun other differs => iff_of_true ?_ (open_ other)⟩
    · rw [turned]
      exact not_not_intro ((mem_macs_aclBlock nonblank _).mpr (.inr rfl))
    · rw [turned, mem_macs_aclBlock nonblank]
      intro either
      rcases either with member | same
      · exact differs (only _ member)
      · exact differs same

theorem unblockMeans_iff : UnblockMeans u s mac ↔ s.mode ≠ .whitelist := by
  have kept (other : Str) (differs : normalizeMac u other ≠ normalizeMac u mac) :
      normalizeMac u other ∈ (s.aclUnblock u mac).macs ↔ normalizeMac u other ∈ s.macs := by
    rw [mem_macs_aclUnblock]
    exact and_iff_left differs
  have gone : normalizeMac u mac ∉ (s.aclUnblock u mac).macs :=
    fun member => ((mem_macs_aclUnblock _).mp member).2 rfl
  have same : (s.aclUnblock u mac).mode = s.mode := rfl
  cases mode : s.mode with
  | disabled =>
      refine iff_of_true ⟨?_, fun other _ => ?_⟩ (by simp)
      · rw [Allowed, same, mode]
        trivial
      · rw [Allowed, Allowed, same, mode]
  | whitelist =>
      refine iff_of_false (fun means => ?_) (by simp)
      have admitted := means.admitted
      rw [Allowed, same, mode] at admitted
      exact gone admitted
  | blacklist =>
      refine iff_of_true ⟨?_, fun other differs => ?_⟩ (by simp)
      · rw [Allowed, same, mode]
        exact gone
      · rw [Allowed, Allowed, same, mode]
        exact not_congr (kept other differs)

/-- When the quick actions do what they are named after. -/
theorem quick_actions_iff (u : UnicodeData) (s : AclState) (reachable : Reachable u s)
    (mac : Str) (nonblank : trim mac ≠ []) :
    (BlockMeans u s mac ↔ s.mode = .blacklist ∨
      (s.mode = .disabled ∧ ∀ entry ∈ s.macs, entry = normalizeMac u mac)) ∧
    (UnblockMeans u s mac ↔ s.mode ≠ .whitelist) := by
  refine ⟨?_, unblockMeans_iff⟩
  cases mode : s.mode with
  | disabled => simpa using blockMeans_disabled_iff reachable nonblank mode
  | whitelist => exact iff_of_false (not_blockMeans_whitelist nonblank mode) (by simp)
  | blacklist => exact iff_of_true (blockMeans_blacklist nonblank mode) (.inl rfl)

def switchedOff : AclState := ⟨.disabled, ["aa:bb:cc:dd:ee:ff".toList]⟩

theorem quick_actions_leftover :
    BlockMeans .ascii switchedOff "AA:BB:CC:DD:EE:FF".toList ∧
      ¬ BlockMeans .ascii switchedOff "11:22:33:44:55:66".toList ∧
      UnblockMeans .ascii switchedOff "11:22:33:44:55:66".toList := by
  have reached : Reachable .ascii switchedOff :=
    ⟨[.post .blacklist ["11:22:33:44:55:66".toList],
      .post .disabled ["AA:BB:CC:DD:EE:FF".toList]], by decide⟩
  have listed := quick_actions_iff .ascii switchedOff reached "AA:BB:CC:DD:EE:FF".toList (by decide)
  have other := quick_actions_iff .ascii switchedOff reached "11:22:33:44:55:66".toList (by decide)
  refine ⟨listed.1.mpr (.inr ⟨rfl, by decide⟩), fun means => ?_, other.2.mpr (by decide)⟩
  rcases other.1.mp means with blacklist | ⟨-, only⟩
  · cases blacklist
  · exact absurd (only _ (List.mem_singleton_self _)) (by decide)

/-- The access point admits listed clients only; blocking one adds it to the list. -/
theorem block_admits_in_whitelist :
    Reachable .ascii ⟨.whitelist, ["11:22:33:44:55:66".toList]⟩ ∧
      ¬ BlockMeans .ascii ⟨.whitelist, ["11:22:33:44:55:66".toList]⟩
        "AA:BB:CC:DD:EE:FF".toList := by
  refine ⟨⟨[.post .whitelist ["11:22:33:44:55:66".toList]], by decide⟩, fun means => ?_⟩
  have refused := means.refused
  revert refused
  decide

end Meaning

end AclState

end TinyWifi
