import Mathlib.Logic.Function.Basic
import TinyWifi.IwScan
import TinyWifi.Lib.Runs

/-! The monitor switch and the scans of any number of requests at the same time. The record of
`MonitorHandle` is behind a lock; the commands that switch the adapter run between its lock
sections. -/

namespace TinyWifi

open Text Runs

inductive MonitorState
  | off
  | on
  deriving DecidableEq, Repr

structure MonitorAdapter where
  iface : Str
  supportsMonitor : Bool

structure Inner where
  state : MonitorState
  iface : Option Str
  scan : List ScannedAp
  deriving DecidableEq, Repr

def Inner.default : Inner := ⟨.off, none, []⟩

/-- What holds of the record whenever the lock is free. -/
structure Inner.Consistent (r : Inner) : Prop where
  off : r.state = .off → r.iface = none ∧ r.scan = []
  on : r.state = .on → r.iface.isSome = true

theorem Inner.Consistent.off_of_unset {r : Inner} (consistent : r.Consistent)
    (unset : r.iface = none) : r.state = .off := by
  cases state : r.state with
  | off => rfl
  | on =>
      have recorded := consistent.on state
      rw [unset] at recorded
      cases recorded

namespace MonitorRace

inductive IfaceType
  | managed
  | monitor
  deriving DecidableEq, Repr

structure Adapter where
  type : IfaceType
  up : Bool
  deriving DecidableEq, Repr

inductive Call
  | enableMonitor
  | disableMonitor
  | refreshScan
  deriving DecidableEq, Repr

/-- Where a call is: before which command, or before which section that takes the lock. -/
inductive Pc
  | detect
  | readIface
  | linkDown (target : MonitorState) (iface : Str)
  | setType (target : MonitorState) (iface : Str)
  | linkUp (target : MonitorState) (iface : Str)
  | writeOn (iface : Str)
  | writeOff
  | refresh
  | scanTrigger (iface : Str)
  | scanDump (iface : Str)
  | writeScan (aps : List ScannedAp)
  | returned (result : Except Str Unit)
  deriving DecidableEq

def Call.entry : Call → Pc
  | .enableMonitor => .detect
  | .disableMonitor => .readIface
  | .refreshScan => .refresh

structure Shared where
  inner : Inner
  adapter : Adapter
  deriving DecidableEq, Repr

structure World (ι : Type) where
  shared : Shared
  pcs : ι → Pc

def noAdapter : Str := "Нет доступного WiFi адаптера для мониторинга".toList

def unsupported (iface : Str) : Str :=
  "Адаптер ".toList ++ iface ++ " не поддерживает monitor mode".toList

def typeFor : MonitorState → IfaceType
  | .off => .managed
  | .on => .monitor

section Steps

variable (signalOf : Str → Int) (detected : Option MonitorAdapter) (dump : Str)

/-- One command, or one section under the lock. Every command succeeds; `dump` is what the call gets
from `scan dump`. -/
def advance (s : Shared) : Pc → Option (Shared × Pc)
  | .detect =>
    match detected with
    | none => some (s, .returned (.error noAdapter))
    | some adapter =>
      if adapter.supportsMonitor then some (s, .linkDown .on adapter.iface)
      else some (s, .returned (.error (unsupported adapter.iface)))
  | .readIface =>
    match s.inner.iface with
    | some iface => some (s, .linkDown .off iface)
    | none => some (s, .writeOff)
  | .linkDown target iface =>
    some ({ s with adapter := { s.adapter with up := false } }, .setType target iface)
  | .setType target iface =>
    some ({ s with adapter := { s.adapter with type := typeFor target } }, .linkUp target iface)
  | .linkUp target iface =>
    some ({ s with adapter := { s.adapter with up := true } },
      match target with
      | .on => .writeOn iface
      | .off => .writeOff)
  | .writeOn iface =>
    some ({ s with inner := { s.inner with state := .on, iface := some iface } }, .refresh)
  | .writeOff => some ({ s with inner := ⟨.off, none, []⟩ }, .returned (.ok ()))
  | .refresh =>
    match s.inner.iface with
    | some iface => some (s, .scanTrigger iface)
    | none => some (s, .returned (.ok ()))
  | .scanTrigger iface => some (s, .scanDump iface)
  | .scanDump _ => some (s, .writeScan (IwScan.parseIwScan signalOf dump))
  | .writeScan aps =>
    some (if s.inner.state = .on then { s with inner := { s.inner with scan := aps } } else s,
      .returned (.ok ()))
  | .returned _ => none

variable {ι : Type} [DecidableEq ι] (dumps : ι → Str)

def step (w : World ι) (i : ι) : Option (World ι) :=
  (advance signalOf detected (dumps i) w.shared (w.pcs i)).map fun (shared, pc) =>
    ⟨shared, Function.update w.pcs i pc⟩

end Steps

def start {ι : Type} (up : Bool) (calls : ι → Call) : World ι :=
  ⟨⟨.default, .managed, up⟩, fun i => (calls i).entry⟩

namespace Pc

/-- The call is a toggle that has begun and has not written the record yet. -/
def toggling : Pc → Bool
  | .linkDown .. | .setType .. | .linkUp .. | .writeOn _ | .writeOff => true
  | _ => false

/-- The state that the toggle writes, once it is done with the type of the adapter. -/
def settled : Pc → Option MonitorState
  | .linkUp target _ => some target
  | .writeOn _ => some .on
  | .writeOff => some .off
  | _ => none

def writes : Pc → Option MonitorState
  | .writeOn _ => some .on
  | .writeOff => some .off
  | _ => none

def begins : Pc → Bool
  | .detect | .readIface => true
  | _ => false

theorem toggling_of_settled {pc : Pc} {target : MonitorState} (settled : pc.settled = some target) :
    pc.toggling = true := by
  cases pc <;> first | rfl | cases settled

theorem idle_of_begins {pc : Pc} (begins : pc.begins = true) : pc.toggling = false := by
  cases pc <;> first | rfl | cases begins

theorem settled_of_writes {pc : Pc} {target : MonitorState} (writes : pc.writes = some target) :
    pc.settled = some target := by
  cases pc <;> first | exact writes | cases writes

end Pc

namespace World

variable {ι : Type}

def Finished (w : World ι) : Prop := ∀ i, ∃ result, w.pcs i = .returned result

/-- The adapter is in monitor mode exactly if the record says so. -/
def Agrees (w : World ι) : Prop :=
  w.shared.adapter.type = .monitor ↔ w.shared.inner.state = .on

/-- A call that is about to write the record finds the adapter in the mode that it writes. -/
def Meets (w : World ι) (i : ι) : Prop :=
  ∀ target, (w.pcs i).writes = some target → w.shared.adapter.type = typeFor target

theorem agrees_iff (w : World ι) :
    w.Agrees ↔ w.shared.adapter.type = typeFor w.shared.inner.state := by
  rw [Agrees]
  cases w.shared.adapter.type <;> cases w.shared.inner.state <;> decide

theorem Finished.not_toggling {w : World ι} (finished : w.Finished) (i : ι) :
    (w.pcs i).toggling = false := by
  rcases finished i with ⟨result, at_⟩
  rw [at_]
  rfl

end World

section Start

variable {ι : Type}

theorem start_idle (up : Bool) (calls : ι → Call) (i : ι) :
    ((start up calls).pcs i).toggling = false := by
  change (calls i).entry.toggling = false
  cases calls i <;> rfl

theorem start_consistent (up : Bool) (calls : ι → Call) :
    (start up calls).shared.inner.Consistent := ⟨fun _ => ⟨rfl, rfl⟩, nofun⟩

theorem start_agrees (up : Bool) (calls : ι → Call) : (start up calls).Agrees :=
  (World.agrees_iff _).mpr rfl

end Start

section Orderly

variable {ι : Type} {w : World ι}

/-- A toggle begins only while no other one is under way. Scans may overlap with anything. -/
def Apart (w : World ι) (i : ι) : Prop :=
  (w.pcs i).begins = true → ∀ j, (w.pcs j).toggling = false

structure Orderly (w : World ι) : Prop where
  consistent : w.shared.inner.Consistent
  single : ∀ i j, (w.pcs i).toggling = true → (w.pcs j).toggling = true → i = j
  rest : (∀ i, (w.pcs i).toggling = false) → w.Agrees
  settled : ∀ i target, (w.pcs i).settled = some target → w.shared.adapter.type = typeFor target

/-- One call at most is in the middle of a toggle. -/
theorem Orderly.of_only (i : ι) (consistent : w.shared.inner.Consistent)
    (only : ∀ j, (w.pcs j).toggling = true → j = i)
    (rest : (w.pcs i).toggling = false → w.Agrees)
    (settled : ∀ target, (w.pcs i).settled = some target →
      w.shared.adapter.type = typeFor target) : Orderly w := by
  refine ⟨consistent, fun j k first second => ?_, fun idle => rest (idle i),
    fun j target reached => ?_⟩
  · exact (only j first).trans (only k second).symm
  · have same : j = i := only j (Pc.toggling_of_settled reached)
    exact settled target (same ▸ reached)

end Orderly

section Inversion

inductive Does (s : Shared) (pc : Pc) (s' : Shared) (pc' : Pc) : Prop
  | begins (before : pc.begins = true) (same : s' = s)
      (skips : ∀ target, pc'.settled = some target → target = .off ∧ s.inner.iface = none)
  | switches (silent : pc.writes = none) (before : pc.toggling = true)
      (after : pc'.toggling = true) (inner : s'.inner = s.inner)
      (type : ∀ target, pc'.settled = some target → s'.adapter.type = typeFor target ∨
        pc.settled = some target ∧ s'.adapter.type = s.adapter.type)
  | writes (target : MonitorState) (before : pc.writes = some target)
      (after : pc'.toggling = false) (adapter : s'.adapter = s.adapter)
      (state : s'.inner.state = target)
      (consistent : s.inner.Consistent → s'.inner.Consistent)
  | scans (before : pc.toggling = false) (after : pc'.toggling = false)
      (adapter : s'.adapter = s.adapter) (state : s'.inner.state = s.inner.state)
      (consistent : s.inner.Consistent → s'.inner.Consistent)

variable {signalOf : Str → Int} {detected : Option MonitorAdapter}

theorem advance_does {dump : Str} {s s' : Shared} {pc pc' : Pc}
    (taken : advance signalOf detected dump s pc = some (s', pc')) : Does s pc s' pc' := by
  cases pc with
  | detect =>
      simp only [advance] at taken
      split at taken
      · cases taken
        exact .begins rfl rfl nofun
      · split at taken
        · cases taken
          exact .begins rfl rfl nofun
        · cases taken
          exact .begins rfl rfl nofun
  | readIface =>
      cases recorded : s.inner.iface with
      | none =>
          simp only [advance, recorded] at taken
          cases taken
          refine .begins rfl rfl fun target off => ?_
          exact ⟨(Option.some_inj.mp off).symm, recorded⟩
      | some iface =>
          simp only [advance, recorded] at taken
          cases taken
          exact .begins rfl rfl nofun
  | linkDown target iface =>
      cases taken
      exact .switches rfl rfl rfl rfl nofun
  | setType target iface =>
      cases taken
      refine .switches rfl rfl rfl rfl fun next is_next => .inl ?_
      exact congrArg typeFor (Option.some_inj.mp is_next)
  | linkUp target iface =>
      cases target <;> cases taken <;>
        exact .switches rfl rfl rfl rfl fun next is_next => .inr ⟨is_next, rfl⟩
  | writeOn iface =>
      cases taken
      exact .writes .on rfl rfl rfl rfl fun _ => ⟨nofun, fun _ => rfl⟩
  | writeOff =>
      cases taken
      exact .writes .off rfl rfl rfl rfl fun _ => ⟨fun _ => ⟨rfl, rfl⟩, nofun⟩
  | refresh =>
      simp only [advance] at taken
      split at taken <;> cases taken <;> exact .scans rfl rfl rfl rfl id
  | scanTrigger iface =>
      cases taken
      exact .scans rfl rfl rfl rfl id
  | scanDump iface =>
      cases taken
      exact .scans rfl rfl rfl rfl id
  | writeScan aps =>
      by_cases on : s.inner.state = .on
      · simp only [advance, on, if_true] at taken
        cases taken
        refine .scans rfl rfl rfl on.symm fun consistent => ⟨nofun, fun _ => consistent.on on⟩
      · simp only [advance, on, if_false] at taken
        cases taken
        exact .scans rfl rfl rfl rfl id
  | returned result => cases taken

variable {ι : Type} [DecidableEq ι] {dumps : ι → Str} {w w' : World ι} {i : ι}

theorem step_does (taken : step signalOf detected dumps w i = some w') :
    Does w.shared (w.pcs i) w'.shared (w'.pcs i) ∧ ∀ j, j ≠ i → w'.pcs j = w.pcs j := by
  obtain ⟨⟨shared, pc⟩, advanced, rfl⟩ := Option.map_eq_some_iff.mp taken
  dsimp only
  rw [Function.update_self]
  exact ⟨advance_does advanced, fun j other => Function.update_of_ne other pc w.pcs⟩

theorem step_eq_none_iff :
    step signalOf detected dumps w i = none ↔ ∃ result, w.pcs i = .returned result := by
  rw [step, Option.map_eq_none_iff]
  constructor
  · intro stuck
    cases at_ : w.pcs i with
    | returned result => exact ⟨result, rfl⟩
    | detect =>
        simp only [at_, advance] at stuck
        split at stuck
        · cases stuck
        · split at stuck <;> cases stuck
    | readIface | refresh =>
        simp only [at_, advance] at stuck
        split at stuck <;> cases stuck
    | _ =>
        rw [at_] at stuck
        cases stuck
  · intro returned
    rcases returned with ⟨result, at_⟩
    rw [at_]
    rfl

end Inversion

section Invariants

variable {signalOf : Str → Int} {detected : Option MonitorAdapter} {ι : Type} [DecidableEq ι]
  {dumps : ι → Str} {w w' : World ι} {i : ι}

theorem consistent_step (consistent : w.shared.inner.Consistent)
    (taken : step signalOf detected dumps w i = some w') : w'.shared.inner.Consistent := by
  cases (step_does taken).1 with
  | begins _ same _ => exact same ▸ consistent
  | switches _ _ _ inner _ => exact inner ▸ consistent
  | writes _ _ _ _ _ kept => exact kept consistent
  | scans _ _ _ _ kept => exact kept consistent

/-- Since the last write of the record only a toggle that is still to write has changed the type of
the adapter. -/
structure Held (type : IfaceType) (state : MonitorState) (w : World ι) : Prop where
  state : w.shared.inner.state = state
  type : w.shared.adapter.type = type ∨ ∃ i, (w.pcs i).toggling = true

theorem Held.step {type : IfaceType} {state : MonitorState} (held : Held type state w)
    (silent : (w.pcs i).writes = none) (taken : step signalOf detected dumps w i = some w') :
    Held type state w' := by
  rcases step_does taken with ⟨does, others⟩
  -- a toggle that is under way elsewhere still is
  have elsewhere (idle : (w.pcs i).toggling = false)
      (adapter : w'.shared.adapter = w.shared.adapter) :
      w'.shared.adapter.type = type ∨ ∃ j, (w'.pcs j).toggling = true := by
    rcases held.type with same | ⟨j, busy⟩
    · exact .inl (adapter ▸ same)
    · have other : j ≠ i := by
        rintro rfl
        cases idle.symm.trans busy
      exact .inr ⟨j, others j other ▸ busy⟩
  cases does with
  | begins before same _ =>
      exact ⟨same ▸ held.state, elsewhere (Pc.idle_of_begins before) (same ▸ rfl)⟩
  | switches _ _ after inner _ => exact ⟨inner ▸ held.state, .inr ⟨i, after⟩⟩
  | writes target before _ _ _ _ => cases silent.symm.trans before
  | scans before _ adapter state _ => exact ⟨state.trans held.state, elsewhere before adapter⟩

theorem Orderly.step (orderly : Orderly w) (apart : Apart w i)
    (taken : step signalOf detected dumps w i = some w') : Orderly w' := by
  rcases step_does taken with ⟨does, others⟩
  have consistent : w'.shared.inner.Consistent := consistent_step orderly.consistent taken
  have only (busy : (w.pcs i).toggling = true) (j : ι) (still : (w'.pcs j).toggling = true) :
      j = i := by
    by_contra other
    exact other (orderly.single j i (others j other ▸ still) busy)
  cases does with
  | begins before same skips =>
      have idle := apart before
      refine .of_only i consistent (fun j busy => ?_) (fun _ => ?_) fun target settled => ?_
      · by_contra other
        rw [others j other, idle j] at busy
        cases busy
      · rw [World.Agrees, same]
        exact orderly.rest idle
      · rcases skips target settled with ⟨rfl, unset⟩
        have off : w.shared.inner.state = .off := orderly.consistent.off_of_unset unset
        calc w'.shared.adapter.type
          _ = w.shared.adapter.type := by rw [same]
          _ = typeFor w.shared.inner.state := w.agrees_iff.mp (orderly.rest idle)
          _ = typeFor .off := by rw [off]
  | switches _ before after _ type =>
      refine .of_only i consistent (only before) (fun idle => ?_) fun target settled => ?_
      · cases idle.symm.trans after
      · rcases type target settled with set | ⟨earlier, same⟩
        · exact set
        · exact same.trans (orderly.settled i target earlier)
  | writes target before after adapter state _ =>
      have earlier := Pc.settled_of_writes before
      refine .of_only i consistent (only (Pc.toggling_of_settled earlier)) (fun _ => ?_)
        fun other settled => ?_
      · rw [World.agrees_iff, adapter, state]
        exact orderly.settled i target earlier
      · cases after.symm.trans (Pc.toggling_of_settled settled)
  | scans before after adapter state _ =>
      have elsewhere (j : ι) (busy : (w'.pcs j).toggling = true) : w'.pcs j = w.pcs j := by
        apply others j
        rintro rfl
        cases after.symm.trans busy
      refine ⟨consistent, fun j k first second => ?_, fun idle => ?_, fun j target settled => ?_⟩
      · exact orderly.single j k (elsewhere j first ▸ first) (elsewhere k second ▸ second)
      · rw [World.Agrees, adapter, state]
        apply orderly.rest
        intro j
        by_cases same : j = i
        · exact same ▸ before
        · exact others j same ▸ idle j
      · rw [adapter]
        have same := elsewhere j (Pc.toggling_of_settled settled)
        exact orderly.settled j target (same ▸ settled)

end Invariants

section Outcome

variable {signalOf : Str → Int} {detected : Option MonitorAdapter} {ι : Type} [DecidableEq ι]
  {dumps : ι → Str} {up : Bool} {calls : ι → Call} {order back : List ι} {w w' last : World ι}
  {i : ι}

def Silent (w : World ι) (i : ι) : Prop := (w.pcs i).writes = none

/-- While nobody writes the record up to the end of all calls, nobody changes the type of the
adapter either: such a toggle would still have to write. -/
theorem held_of_silent
    (quiet : AllowedSome (step signalOf detected dumps) Silent w order)
    (reached : runSome (step signalOf detected dumps) w order = some last)
    (finished : last.Finished) :
    last.shared.adapter.type = w.shared.adapter.type ∧
      last.shared.inner.state = w.shared.inner.state := by
  have held : Held w.shared.adapter.type w.shared.inner.state last :=
    invariant_allowedSome (fun _ _ _ held silent taken => held.step silent taken)
      ⟨rfl, .inl rfl⟩ order quiet reached
  refine ⟨?_, held.state⟩
  rcases held.type with same | ⟨j, busy⟩
  · exact same
  · cases (finished.not_toggling j).symm.trans busy

/-- The last write of the record decides. -/
theorem agrees_iff_meets {target : MonitorState} (writing : (w.pcs i).writes = some target)
    (taken : step signalOf detected dumps w i = some w')
    (quiet : AllowedSome (step signalOf detected dumps) Silent w' back)
    (reached : runSome (step signalOf detected dumps) w' back = some last)
    (finished : last.Finished) : last.Agrees ↔ w.Meets i := by
  rcases held_of_silent quiet reached finished with ⟨type, state⟩
  have written : w'.shared.adapter = w.shared.adapter ∧ w'.shared.inner.state = target := by
    cases (step_does taken).1 with
    | writes other before _ adapter state _ =>
        cases before.symm.trans writing
        exact ⟨adapter, state⟩
    | begins before _ _ =>
        have idle := Pc.idle_of_begins before
        cases idle.symm.trans (Pc.toggling_of_settled (Pc.settled_of_writes writing))
    | switches silent _ _ _ _ => cases silent.symm.trans writing
    | scans before _ _ _ _ =>
        cases before.symm.trans (Pc.toggling_of_settled (Pc.settled_of_writes writing))
  rw [World.agrees_iff, type, state, written.1, written.2]
  constructor
  · intro meets other also
    cases writing.symm.trans also
    exact meets
  · intro meets
    exact meets target writing

variable (signalOf detected dumps up calls order) in
/-- The last call that writes the record finds the adapter in the mode that it writes. -/
def LastMeets : Prop :=
  ∀ front i back w w', order = front ++ i :: back →
    runSome (step signalOf detected dumps) (start up calls) front = some w →
    step signalOf detected dumps w i = some w' →
    AllowedSome (step signalOf detected dumps) Silent w' back → w.Meets i

/-- Toggles that do not overlap leave the record and the adapter in agreement. -/
theorem agrees_of_apart
    (apart : AllowedSome (step signalOf detected dumps) Apart (start up calls) order)
    (reached : runSome (step signalOf detected dumps) (start up calls) order = some last)
    (finished : last.Finished) : last.Agrees := by
  have orderly : Orderly (start up calls) := by
    refine ⟨start_consistent up calls, fun j _ busy _ => ?_, fun _ => start_agrees up calls,
      fun j _ settled => ?_⟩
    · cases (start_idle up calls j).symm.trans busy
    · cases (start_idle up calls j).symm.trans (Pc.toggling_of_settled settled)
  have kept := invariant_allowedSome (fun _ _ _ orderly apart taken => orderly.step apart taken)
    orderly order apart reached
  exact kept.rest finished.not_toggling

/-- The record is consistent whenever the lock is free. When all calls have returned, it agrees with
the adapter exactly if the last write of a toggle found the adapter in the mode that it wrote, and
so it does whenever the toggles did not overlap. -/
theorem monitor_agrees_iff
    (reached : runSome (step signalOf detected dumps) (start up calls) order = some last) :
    last.shared.inner.Consistent ∧
      (last.Finished →
        (last.Agrees ↔ LastMeets signalOf detected dumps up calls order) ∧
          (AllowedSome (step signalOf detected dumps) Apart (start up calls) order →
            last.Agrees)) := by
  refine ⟨invariant_runSome (fun _ _ _ consistent taken => consistent_step consistent taken)
    (start_consistent up calls) order reached, fun finished => ⟨?_, fun apart =>
      agrees_of_apart apart reached finished⟩⟩
  constructor
  · intro agrees front i back w w' split before taken quiet target writing
    have ended : runSome (step signalOf detected dumps) w' back = some last := by
      rw [split, runSome_append before] at reached
      rw [← reached, runSome, runSome, List.foldlM_cons, taken]
      rfl
    exact (agrees_iff_meets writing taken quiet ended finished).mp agrees target writing
  · intro meets
    by_cases quiet : AllowedSome (step signalOf detected dumps) Silent (start up calls) order
    · rcases held_of_silent quiet reached finished with ⟨type, state⟩
      rw [World.Agrees, type, state]
      exact start_agrees up calls
    · obtain ⟨front, i, back, w, w', split, before, writing, taken, rest, ended⟩ :=
        exists_last_of_not_allowedSome reached quiet
      rcases Option.ne_none_iff_exists'.mp writing with ⟨target, writing⟩
      exact (agrees_iff_meets writing taken rest ended finished).mpr
        (meets front i back w w' split before taken rest)

end Outcome

/-- A scan runs while the monitor is switched on. -/
theorem monitor_agrees_enabled :
    let calls : Bool → Call := fun i => if i then .enableMonitor else .refreshScan
    let order := List.replicate 5 true ++ [false] ++ List.replicate 4 true ++ List.replicate 3 false
    ∃ last, runSome (step (fun _ => 0) (some ⟨"wlan1".toList, true⟩) fun _ => [])
        (start true calls) order = some last ∧ last.Finished ∧ last.shared.inner.Consistent ∧
      last.Agrees := by
  intro calls order
  have finished : ∃ last, runSome (step (fun _ => 0) (some ⟨"wlan1".toList, true⟩) fun _ => [])
      (start true calls) order = some last ∧ last.Finished :=
    ⟨_, rfl, fun i => ⟨.ok (), by cases i <;> rfl⟩⟩
  have apart : AllowedSome (step (fun _ => 0) (some ⟨"wlan1".toList, true⟩) fun _ => []) Apart
      (start true calls) order := by
    refine .cons (fun _ i => by cases i <;> rfl) rfl ?_
    repeat refine .cons nofun rfl ?_
    trivial
  rcases finished with ⟨last, reached, finished⟩
  rcases monitor_agrees_iff reached with ⟨consistent, agrees⟩
  exact ⟨last, reached, finished, consistent, (agrees finished).2 apart⟩

/-- A disable that looks at the record before an enable has written it runs no command, but it
writes the record last. -/
theorem late_disable_disagrees :
    let calls : Bool → Call := fun i => if i then .enableMonitor else .disableMonitor
    ∃ last, runSome (step (fun _ => 0) (some ⟨"wlan1".toList, true⟩) fun _ => [])
        (start true calls) ([false] ++ List.replicate 9 true ++ [false]) = some last ∧
      last.Finished ∧ ¬ last.Agrees := by
  intro calls
  refine ⟨_, rfl, fun i => ⟨.ok (), by cases i <;> rfl⟩, fun agrees => ?_⟩
  cases agrees.mp rfl

end MonitorRace

end TinyWifi
