import TinyWifi.GuardProgress
import TinyWifi.Lib.Places

/-! `PendingReverts`: the guards of the held changes, one for each key, behind a lock of their own.
Requests and timers take one step at a time, in any order. -/

namespace TinyWifi

open Runs Places

/-- To hold a change of this key until it is confirmed, or to confirm the one that is held. -/
inductive RevertRequest (κ : Type)
  | hold (key : κ)
  | confirm (key : κ)
  deriving DecidableEq, Repr

/-- Where a request is. It is recorded to the end which guard it has taken out of the map. -/
inductive RequestPc (ι : Type)
  | begun
  | locking
  | inMap
  | replacing (old : ι)
  | leaving (replaced : Option ι)
  | held (replaced : Option ι)
  | taken (guard : Option ι)
  | confirming (guard : ι)
  | closing (guard : ι) (inTime : Bool)
  | noPending
  | answered (guard : ι) (inTime : Bool)
  deriving DecidableEq, Repr

/-- The guard that a request arms has the name of the request. -/
structure PendingReverts (κ ι α : Type) where
  lock : Option ι
  map : κ → Option ι
  guards : ι → Option (Guard Unit α)
  pcs : ι → RequestPc ι

/-- The timer of a guard goes on by itself; its calls are made by requests. -/
inductive PendingEvent (ι α : Type)
  | request (i : ι)
  | worker (guard : ι)
  | timeout (guard : ι)
  | act (guard : ι) (next : Option α)
  deriving DecidableEq, Repr

namespace RevertRequest

variable {κ ι : Type}

def key : RevertRequest κ → κ
  | .hold key | .confirm key => key

def own (i : ι) : RevertRequest κ → Option ι
  | .hold _ => some i
  | .confirm _ => none

end RevertRequest

namespace RequestPc

variable {ι : Type}

def inside : RequestPc ι → Bool
  | .inMap | .replacing _ | .leaving _ | .taken _ => true
  | _ => false

def ended : RequestPc ι → Bool
  | .held _ | .noPending | .answered _ _ => true
  | _ => false

/-- The request has begun and has not been answered. -/
def underWay : RequestPc ι → Bool
  | .begun => false
  | pc => !pc.ended

def call : RequestPc ι → Option (ι × GuardCall Unit)
  | .replacing old => some (old, .drop)
  | .confirming guard => some (guard, .confirm ())
  | .closing guard _ => some (guard, .drop)
  | _ => none

def afterwards : RequestPc ι → CallPc → Option (RequestPc ι)
  | .replacing old, .dropped => some (.leaving (some old))
  | .confirming guard, .confirmed inTime => some (.closing guard inTime)
  | .closing guard inTime, .dropped => some (.answered guard inTime)
  | _, _ => none

/-- `insert` gives back what was there, and the caller drops it. -/
def inserted : Option ι → RequestPc ι
  | some old => .replacing old
  | none => .leaving none

def unlocked : RequestPc ι → Option (RequestPc ι)
  | .leaving replaced => some (.held replaced)
  | .taken (some guard) => some (.confirming guard)
  | .taken none => some .noPending
  | _ => none

def Calls {α : Type} : RequestPc ι → Guard Unit α → Prop
  | .replacing _, guard => guard.pcs (.confirm ()) = .cancelling .locking
  | .leaving _, guard | .held _, guard =>
    guard.pcs (.confirm ()) = .cancelling .locking ∧ guard.pcs .drop = .dropped
  | .confirming _, guard => guard.pcs .drop = .cancelling .locking
  | .closing _ inTime, guard => guard.pcs (.confirm ()) = .confirmed inTime
  | .answered _ inTime, guard =>
    guard.pcs (.confirm ()) = .confirmed inTime ∧ guard.pcs .drop = .dropped
  | _, guard => ∀ c, guard.pcs c = .cancelling .locking

/-- The guard that the request has, or has had last; it begins with its own. -/
def has (own : Option ι) : RequestPc ι → Option ι
  | .locking | .inMap => own
  | .replacing guard | .confirming guard | .closing guard _ | .answered guard _ => some guard
  | .leaving guard | .held guard | .taken guard => guard
  | .begun | .noPending => none

theorem has_inserted (own old : Option ι) : (inserted old).has own = old := by
  cases old <;> rfl

theorem inside_inserted (old : Option ι) : (inserted old).inside = true := by
  cases old <;> rfl

theorem calls_inserted {α : Type} {own old : Option ι} {g : ι} {guard : Guard Unit α}
    (has : (inserted old).has own = some g)
    (untouched : ∀ c, guard.pcs c = .cancelling .locking) : (inserted old).Calls guard := by
  cases old with
  | none => cases has
  | some old => exact untouched _

theorem unlocked_cases {pc later : RequestPc ι} (leaves : pc.unlocked = some later) :
    (∃ replaced, pc = .leaving replaced ∧ later = .held replaced) ∨
    (∃ guard, pc = .taken (some guard) ∧ later = .confirming guard) ∨
    (pc = .taken none ∧ later = .noPending) := by
  unfold unlocked at leaves
  split at leaves <;> cases leaves <;> simp

theorem call_cases {pc : RequestPc ι} {g : ι} {c : GuardCall Unit}
    (calls : pc.call = some (g, c)) : (pc = .replacing g ∧ c = .drop) ∨
    (pc = .confirming g ∧ c = .confirm ()) ∨ ∃ inTime, pc = .closing g inTime ∧ c = .drop := by
  unfold call at calls
  split at calls <;> cases calls <;> simp

theorem ended_cases {pc later : RequestPc ι} {g : ι} {c : GuardCall Unit} {place : CallPc}
    (calls : pc.call = some (g, c)) (after : pc.afterwards place = some later) :
    (pc = .replacing g ∧ c = .drop ∧ place = .dropped ∧ later = .leaving (some g)) ∨
    (∃ inTime, pc = .confirming g ∧ c = .confirm () ∧ place = .confirmed inTime ∧
      later = .closing g inTime) ∨
    (∃ inTime, pc = .closing g inTime ∧ c = .drop ∧ place = .dropped ∧
      later = .answered g inTime) := by
  unfold afterwards at after
  split at after <;> cases after <;> cases calls <;> simp

theorem has_of_call {pc : RequestPc ι} {g : ι} {c : GuardCall Unit} {own : Option ι}
    (calls : pc.call = some (g, c)) : pc.has own = some g := by
  obtain ⟨rfl, -⟩ | ⟨rfl, -⟩ | ⟨_, rfl, -⟩ := call_cases calls <;> rfl

end RequestPc

def RevertRequest.allows {κ ι : Type} : RevertRequest κ → RequestPc ι → Bool
  | _, .begun | _, .locking | _, .inMap => true
  | .hold _, .replacing _ | .hold _, .leaving _ | .hold _, .held _ => true
  | .confirm _, .taken _ | .confirm _, .confirming _ | .confirm _, .closing _ _ => true
  | .confirm _, .noPending | .confirm _, .answered _ _ => true
  | _, _ => false

namespace RequestPc

theorem allows_unlocked {κ ι : Type} (ask : RevertRequest κ) {pc later : RequestPc ι}
    (leaves : pc.unlocked = some later) : ask.allows later = ask.allows pc := by
  obtain ⟨_, rfl, rfl⟩ | ⟨_, rfl, rfl⟩ | ⟨rfl, rfl⟩ := unlocked_cases leaves <;> cases ask <;> rfl

theorem allows_ended {κ ι : Type} (ask : RevertRequest κ) {pc later : RequestPc ι} {g : ι}
    {c : GuardCall Unit} {place : CallPc} (calls : pc.call = some (g, c))
    (after : pc.afterwards place = some later) : ask.allows later = ask.allows pc := by
  obtain ⟨rfl, -, -, rfl⟩ | ⟨_, rfl, -, -, rfl⟩ | ⟨_, rfl, -, -, rfl⟩ :=
    ended_cases calls after <;> cases ask <;> rfl

end RequestPc

namespace PendingReverts

variable {κ ι α : Type}

def start : PendingReverts κ ι α := ⟨none, fun _ => none, fun _ => none, fun _ => .begun⟩

section Steps

variable [DecidableEq ι]

def goTo (i : ι) (pc : RequestPc ι) (s : PendingReverts κ ι α) : PendingReverts κ ι α :=
  { s with pcs := Function.update s.pcs i pc }

def setGuard (g : ι) (guard : Guard Unit α) (s : PendingReverts κ ι α) : PendingReverts κ ι α :=
  { s with guards := Function.update s.guards g (some guard) }

def lockMap (i : ι) (s : PendingReverts κ ι α) : Option (PendingReverts κ ι α) :=
  if s.lock.isNone then some ({ s with lock := some i }.goTo i .inMap) else none

def callGuard (i : ι) (pc : RequestPc ι) (g : ι) (c : GuardCall Unit)
    (s : PendingReverts κ ι α) : Option (PendingReverts κ ι α) :=
  (s.guards g).bind fun guard =>
    match pc.afterwards (guard.pcs c) with
    | some later => some (s.goTo i later)
    | none => (guard.callStep c).map fun guard => s.setGuard g guard

def timerStep (first : α) (g : ι) (event : GuardEvent Unit α) (s : PendingReverts κ ι α) :
    Option (PendingReverts κ ι α) :=
  (s.guards g).bind fun guard => (guard.step first event).map fun guard => s.setGuard g guard

theorem timerStep_inv {first : α} {s s' : PendingReverts κ ι α} {g : ι}
    {event : GuardEvent Unit α}
    (step : s.timerStep first g event = some s') :
    ∃ guard guard', s.guards g = some guard ∧ guard.step first event = some guard' ∧
      s' = s.setGuard g guard' := by
  obtain ⟨guard, armed, moved⟩ := Option.bind_eq_some_iff.mp step
  obtain ⟨guard', took, rfl⟩ := Option.map_eq_some_iff.mp moved
  exact ⟨guard, guard', armed, took, rfl⟩

variable [DecidableEq κ]

/-- `arm_revert`. The guard that `insert` gives back is dropped before the lock, as the temporaries
of one statement are dropped in reverse, so the map waits for its worker. -/
def armRevert (key : κ) (i : ι) (s : PendingReverts κ ι α) : Option (PendingReverts κ ι α) :=
  match s.pcs i with
  | .begun => some ((s.setGuard i .armed).goTo i .locking)
  | .locking => s.lockMap i
  | .inMap =>
    some ({ s with map := Function.update s.map key (some i) }.goTo i (.inserted (s.map key)))
  | .replacing old => s.callGuard i (.replacing old) old .drop
  | .leaving replaced => some ({ s with lock := none }.goTo i (.held replaced))
  | _ => none

/-- `confirm_pending`, up to the backup that a confirmation in time discards. -/
def confirmPending (key : κ) (i : ι) (s : PendingReverts κ ι α) :
    Option (PendingReverts κ ι α) :=
  match s.pcs i with
  | .begun => some (s.goTo i .locking)
  | .locking => s.lockMap i
  | .inMap => some ({ s with map := Function.update s.map key none }.goTo i (.taken (s.map key)))
  | .taken (some g) => some ({ s with lock := none }.goTo i (.confirming g))
  | .taken none => some ({ s with lock := none }.goTo i .noPending)
  | .confirming g => s.callGuard i (.confirming g) g (.confirm ())
  | .closing g inTime => s.callGuard i (.closing g inTime) g .drop
  | _ => none

def requestStep (ask : RevertRequest κ) (i : ι) (s : PendingReverts κ ι α) :
    Option (PendingReverts κ ι α) :=
  match ask with
  | .hold key => s.armRevert key i
  | .confirm key => s.confirmPending key i

/-- What each request asks for does not change. -/
def step (ask : ι → RevertRequest κ) (first : α) (s : PendingReverts κ ι α) :
    PendingEvent ι α → Option (PendingReverts κ ι α)
  | .request i => s.requestStep (ask i) i
  | .worker g => s.timerStep first g .worker
  | .timeout g => s.timerStep first g .timeout
  | .act g next => s.timerStep first g (.act next)

inductive Moves (ask : RevertRequest κ) (i : ι) (s : PendingReverts κ ι α) :
    RequestPc ι → PendingReverts κ ι α → Prop
  | arm (brings : ask.own i = some i) :
      Moves ask i s .begun ((s.setGuard i .armed).goTo i .locking)
  | begin (brings : ask.own i = none) : Moves ask i s .begun (s.goTo i .locking)
  | lock (free : s.lock.isNone = true) :
      Moves ask i s .locking ({ s with lock := some i }.goTo i .inMap)
  | swap {pc : RequestPc ι} (has : pc.has (ask.own i) = s.map ask.key) (inside : pc.inside = true)
      (own : ask.allows pc = true)
      (fits : ∀ g, ∀ guard : Guard Unit α, pc.has (ask.own i) = some g →
        (∀ c, guard.pcs c = .cancelling .locking) → pc.Calls guard) :
      Moves ask i s .inMap
        ({ s with map := Function.update s.map ask.key (ask.own i) }.goTo i pc)
  | unlock {pc later : RequestPc ι} (leaves : pc.unlocked = some later) :
      Moves ask i s pc ({ s with lock := none }.goTo i later)
  | call {pc : RequestPc ι} {g : ι} {c : GuardCall Unit} {guard guard' : Guard Unit α}
      (calls : pc.call = some (g, c)) (armed : s.guards g = some guard)
      (step : guard.callStep c = some guard') : Moves ask i s pc (s.setGuard g guard')
  | ended {pc later : RequestPc ι} {g : ι} {c : GuardCall Unit} {guard : Guard Unit α}
      (calls : pc.call = some (g, c)) (armed : s.guards g = some guard)
      (ended : pc.afterwards (guard.pcs c) = some later) : Moves ask i s pc (s.goTo i later)

variable {ask : ι → RevertRequest κ} {first : α} {s s' : PendingReverts κ ι α} {i g : ι}
  {pc : RequestPc ι}

theorem lockMap_moves {ask : RevertRequest κ} (step : s.lockMap i = some s') :
    Moves ask i s .locking s' := by
  unfold lockMap at step
  split at step
  · next free =>
      cases step
      exact .lock free
  · cases step

theorem callGuard_moves {ask : RevertRequest κ} {c : GuardCall Unit}
    (calls : pc.call = some (g, c)) (step : s.callGuard i pc g c = some s') :
    Moves ask i s pc s' := by
  obtain ⟨guard, armed, moved⟩ := Option.bind_eq_some_iff.mp step
  cases after : pc.afterwards (guard.pcs c) with
  | some later =>
      simp only [after] at moved
      cases moved
      exact .ended calls armed after
  | none =>
      simp only [after] at moved
      obtain ⟨guard', called, rfl⟩ := Option.map_eq_some_iff.mp moved
      exact .call calls armed called

theorem armRevert_moves {key : κ} (step : s.armRevert key i = some s') :
    Moves (.hold key) i s (s.pcs i) s' := by
  unfold armRevert at step
  split at step
  · next pc =>
      cases step
      rw [pc]
      exact .arm rfl
  · next pc =>
      rw [pc]
      exact lockMap_moves step
  · next pc =>
      cases step
      rw [pc]
      exact .swap (RequestPc.has_inserted _ _) (RequestPc.inside_inserted _)
        (by cases s.map key <;> rfl) fun _ _ => RequestPc.calls_inserted
  · next old pc =>
      rw [pc]
      exact callGuard_moves rfl step
  · next replaced pc =>
      cases step
      rw [pc]
      exact .unlock rfl
  · cases step

theorem confirmPending_moves {key : κ} (step : s.confirmPending key i = some s') :
    Moves (.confirm key) i s (s.pcs i) s' := by
  unfold confirmPending at step
  split at step
  · next pc =>
      cases step
      rw [pc]
      exact .begin rfl
  · next pc =>
      rw [pc]
      exact lockMap_moves step
  · next pc =>
      cases step
      rw [pc]
      exact .swap rfl rfl rfl fun _ _ _ untouched => untouched
  · next g pc =>
      cases step
      rw [pc]
      exact .unlock rfl
  · next pc =>
      cases step
      rw [pc]
      exact .unlock rfl
  · next g pc =>
      rw [pc]
      exact callGuard_moves rfl step
  · next g inTime pc =>
      rw [pc]
      exact callGuard_moves rfl step
  · cases step

theorem requestStep_moves {ask : RevertRequest κ} (step : s.requestStep ask i = some s') :
    Moves ask i s (s.pcs i) s' := by
  cases ask with
  | hold key => exact armRevert_moves step
  | confirm key => exact confirmPending_moves step

theorem step_cases {event : PendingEvent ι α} (step : s.step ask first event = some s') :
    (∃ i, event = .request i ∧ Moves (ask i) i s (s.pcs i) s') ∨
    ∃ g guard guard' timer, s.guards g = some guard ∧ (∀ c, timer ≠ .call c) ∧
      guard.step first timer = some guard' ∧ s' = s.setGuard g guard' := by
  cases event with
  | request i => exact .inl ⟨i, rfl, requestStep_moves step⟩
  | worker g =>
      obtain ⟨guard, guard', armed, took, rfl⟩ := timerStep_inv step
      exact .inr ⟨g, guard, guard', .worker, armed, by simp, took, rfl⟩
  | timeout g =>
      obtain ⟨guard, guard', armed, took, rfl⟩ := timerStep_inv step
      exact .inr ⟨g, guard, guard', .timeout, armed, by simp, took, rfl⟩
  | act g next =>
      obtain ⟨guard, guard', armed, took, rfl⟩ := timerStep_inv step
      exact .inr ⟨g, guard, guard', .act next, armed, by simp, took, rfl⟩

end Steps

/-- Where a guard can be: under its key in the map, or with a request. -/
def places (ask : ι → RevertRequest κ) (s : PendingReverts κ ι α) : κ ⊕ ι → Option ι :=
  Sum.elim s.map fun i => (s.pcs i).has ((ask i).own i)

def keyAt (ask : ι → RevertRequest κ) : κ ⊕ ι → κ := Sum.elim id fun i => (ask i).key

def callsAt (s : PendingReverts κ ι α) : κ ⊕ ι → Guard Unit α → Prop
  | .inl _, guard => ∀ c, guard.pcs c = .cancelling .locking
  | .inr i, guard => (s.pcs i).Calls guard

/-- Each armed guard is in one place, and only who has it calls it. -/
structure Sound (ask : ι → RevertRequest κ) (s : PendingReverts κ ι α) : Prop where
  lock : ∀ i, s.lock = some i ↔ (s.pcs i).inside = true
  own : ∀ i, (ask i).allows (s.pcs i) = true
  fresh : ∀ i, s.pcs i = .begun → s.guards i = none
  guards : ∀ g guard, s.guards g = some guard → guard.Sound ∧ guard.Orderly
  once : Once (s.places ask) fun g => (s.guards g).isSome = true
  keys : ∀ place g, s.places ask place = some g → ask g = .hold (keyAt ask place)
  calls : ∀ place g guard, s.places ask place = some g → s.guards g = some guard →
    s.callsAt place guard

section Invariant

variable {ask : ι → RevertRequest κ} {s s' : PendingReverts κ ι α} {i g : ι} {pc : RequestPc ι}

theorem sound_start : Sound ask (start : PendingReverts κ ι α) where
  lock i := by simp [start, RequestPc.inside]
  own i := by cases ask i <;> rfl
  fresh _ _ := rfl
  guards g guard armed := by cases armed
  once := by
    apply once_of_empty
    · rintro (key | i) <;> rfl
    · simp [start]
  keys place g found := by
    cases place <;> cases found
  calls place g guard _ armed := by cases armed

variable [DecidableEq ι]

theorem Sound.lock_kept (sound : Sound ask s) (same : pc.inside = (s.pcs i).inside) (j : ι) :
    s.lock = some j ↔ (Function.update s.pcs i pc j).inside = true := by
  by_cases own : j = i
  · subst j
    rw [Function.update_self, same, sound.lock]
  · rw [Function.update_of_ne own, sound.lock]

theorem Sound.lock_taken (sound : Sound ask s) (free : s.lock.isNone = true)
    (inside : pc.inside = true) (j : ι) :
    some i = some j ↔ (Function.update s.pcs i pc j).inside = true := by
  by_cases own : j = i
  · subst j
    rw [Function.update_self]
    exact iff_of_true rfl inside
  · rw [Function.update_of_ne own, ← sound.lock, Option.isNone_iff_eq_none.mp free]
    simpa using fun same : i = j => own same.symm

theorem Sound.own_kept (sound : Sound ask s) (own : (ask i).allows pc = true) (j : ι) :
    (ask j).allows (Function.update s.pcs i pc j) = true := by
  by_cases same : j = i
  · subst j
    rw [Function.update_self, own]
  · rw [Function.update_of_ne same, sound.own]

theorem Sound.lock_left (sound : Sound ask s) (before : (s.pcs i).inside = true)
    (outside : pc.inside = false) (j : ι) :
    none = some j ↔ (Function.update s.pcs i pc j).inside = true := by
  by_cases own : j = i
  · subst j
    simp [Function.update_self, outside]
  · rw [Function.update_of_ne own, ← sound.lock, (sound.lock i).mpr before]
    simpa using fun same : i = j => own same.symm

theorem Sound.goTo (sound : Sound ask s) {lock : Option ι} (begins : pc ≠ .begun)
    (own : (ask i).allows pc = true)
    (locked : ∀ j, lock = some j ↔ (Function.update s.pcs i pc j).inside = true)
    (has : pc.has ((ask i).own i) = (s.pcs i).has ((ask i).own i))
    (calls : ∀ g guard, (s.pcs i).has ((ask i).own i) = some g → s.guards g = some guard →
      (s.pcs i).Calls guard → pc.Calls guard) :
    Sound ask ({ s with lock := lock }.goTo i pc) := by
  have same : ({ s with lock := lock }.goTo i pc).places ask = s.places ask := by
    funext place
    cases place with
    | inl key => rfl
    | inr j =>
        by_cases own : j = i
        · subst j
          simpa [places, PendingReverts.goTo] using has
        · simp [places, PendingReverts.goTo, own]
  refine {
    lock := locked
    own := sound.own_kept own
    fresh := fun j begun => ?_
    guards := sound.guards
    once := sound.once.congr same fun _ => .rfl
    keys := by
      rw [same]
      exact sound.keys
    calls := fun place g guard found armed => ?_ }
  · by_cases own : j = i
    · subst j
      exact absurd ((Function.update_self ..).symm.trans begun) begins
    · exact sound.fresh j ((Function.update_of_ne own ..).symm.trans begun)
  · rw [same] at found
    have before := sound.calls place g guard found armed
    cases place with
    | inl key => exact before
    | inr j =>
        by_cases own : j = i
        · subst j
          simpa [callsAt, PendingReverts.goTo] using calls g guard found armed before
        · simpa [callsAt, PendingReverts.goTo, own] using before

theorem Sound.setGuard (sound : Sound ask s) {guard guard' : Guard Unit α}
    (armed : s.guards g = some guard) (later : guard'.Sound ∧ guard'.Orderly)
    (calls : ∀ place, s.places ask place = some g → s.callsAt place guard →
      s.callsAt place guard') : Sound ask (s.setGuard g guard') where
  lock := sound.lock
  own := sound.own
  fresh j begun := by
    have other : j ≠ g := by
      rintro rfl
      exact nomatch (sound.fresh j begun).symm.trans armed
    exact (Function.update_of_ne other ..).trans (sound.fresh j begun)
  guards h guard'' found := by
    by_cases own : h = g
    · subst h
      cases (Function.update_self ..).symm.trans found
      exact later
    · exact sound.guards h guard'' ((Function.update_of_ne own ..).symm.trans found)
  once := by
    refine sound.once.congr rfl fun h => ?_
    by_cases own : h = g
    · subst h
      simp [PendingReverts.setGuard, armed]
    · simp [PendingReverts.setGuard, own]
  keys := sound.keys
  calls place h guard'' found present := by
    by_cases own : h = g
    · subst h
      cases (Function.update_self ..).symm.trans present
      exact calls place found (sound.calls place _ guard found armed)
    · exact sound.calls place h guard'' found ((Function.update_of_ne own ..).symm.trans present)

theorem Sound.call {guard guard' : Guard Unit α} {c : GuardCall Unit} (sound : Sound ask s)
    (first : α) (calls : (s.pcs i).call = some (g, c)) (armed : s.guards g = some guard)
    (step : guard.step first (.call c) = some guard') : Sound ask (s.setGuard g guard') := by
  obtain ⟨kept, orderly⟩ := sound.guards g guard armed
  have others (d : GuardCall Unit) (other : d ≠ c) : guard'.pcs d = guard.pcs d :=
    Guard.step_pcs (fun same => other (GuardEvent.call.inj same).symm) step
  refine sound.setGuard armed ⟨kept.step step, orderly.step kept step⟩ ?_
  intro place found before
  cases sound.once.single found (b := .inr i) (RequestPc.has_of_call calls)
  obtain ⟨pc, rfl⟩ | ⟨pc, rfl⟩ | ⟨inTime, pc, rfl⟩ := RequestPc.call_cases calls
  · simpa [callsAt, pc, RequestPc.Calls, others] using before
  · simpa [callsAt, pc, RequestPc.Calls, others] using before
  · simpa [callsAt, pc, RequestPc.Calls, others] using before

theorem Sound.unlock {later : RequestPc ι} (sound : Sound ask s)
    (leaves : (s.pcs i).unlocked = some later) :
    Sound ask ({ s with lock := none }.goTo i later) := by
  have own := (RequestPc.allows_unlocked (ask i) leaves).trans (sound.own i)
  obtain ⟨replaced, place, rfl⟩ | ⟨guard, place, rfl⟩ | ⟨place, rfl⟩ :=
    RequestPc.unlocked_cases leaves
  · refine sound.goTo (by simp) own (sound.lock_left (by rw [place]; rfl) rfl)
      (by rw [place]; rfl) ?_
    intro g guard _ _ calls
    simpa [place, RequestPc.Calls] using calls
  · refine sound.goTo (by simp) own (sound.lock_left (by rw [place]; rfl) rfl)
      (by rw [place]; rfl) ?_
    intro g guard _ _ calls
    rw [place] at calls
    exact calls .drop
  · refine sound.goTo (by simp) own (sound.lock_left (by rw [place]; rfl) rfl)
      (by rw [place]; rfl) ?_
    intro g guard has
    simp [place, RequestPc.has] at has

theorem Sound.ended {guard : Guard Unit α} {c : GuardCall Unit} {later : RequestPc ι}
    (sound : Sound ask s) (calls : (s.pcs i).call = some (g, c)) (armed : s.guards g = some guard)
    (ended : (s.pcs i).afterwards (guard.pcs c) = some later) : Sound ask (s.goTo i later) := by
  have same {other : Guard Unit α} {h : ι} (has : (s.pcs i).has ((ask i).own i) = some h)
      (present : s.guards h = some other) : other = guard := by
    cases has.symm.trans (RequestPc.has_of_call calls)
    exact Option.some.inj (present.symm.trans armed)
  have own := (RequestPc.allows_ended (ask i) calls ended).trans (sound.own i)
  obtain ⟨place, rfl, call, rfl⟩ | ⟨inTime, place, rfl, call, rfl⟩ |
    ⟨inTime, place, rfl, call, rfl⟩ := RequestPc.ended_cases calls ended
  · refine sound.goTo (by simp) own (sound.lock_kept (by rw [place]; rfl)) (by rw [place]; rfl) ?_
    intro h other has present before
    rw [place] at before
    rw [same has present] at before ⊢
    exact ⟨before, call⟩
  · refine sound.goTo (by simp) own (sound.lock_kept (by rw [place]; rfl)) (by rw [place]; rfl) ?_
    intro h other has present _
    rw [same has present]
    exact call
  · refine sound.goTo (by simp) own (sound.lock_kept (by rw [place]; rfl)) (by rw [place]; rfl) ?_
    intro h other has present before
    rw [place] at before
    rw [same has present] at before ⊢
    exact ⟨before, call⟩

theorem Sound.timer {first : α} {guard guard' : Guard Unit α} {event : GuardEvent Unit α}
    (sound : Sound ask s) (armed : s.guards g = some guard) (alone : ∀ c, event ≠ .call c)
    (step : guard.step first event = some guard') : Sound ask (s.setGuard g guard') := by
  obtain ⟨kept, orderly⟩ := sound.guards g guard armed
  refine sound.setGuard armed ⟨kept.step step, orderly.step kept step⟩ ?_
  intro place _ before
  have same : guard'.pcs = guard.pcs := funext fun c => Guard.step_pcs (alone c) step
  cases place with
  | inl key => simpa [callsAt, same] using before
  | inr i => cases pc : s.pcs i <;> simpa [callsAt, RequestPc.Calls, pc, same] using before

variable [DecidableEq κ]

theorem Sound.arm (sound : Sound ask s) (begun : s.pcs i = .begun)
    (brings : (ask i).own i = some i) :
    Sound ask ((s.setGuard i .armed).goTo i .locking) := by
  have unarmed := sound.fresh i begun
  have places : ((s.setGuard i .armed).goTo i .locking).places ask =
      Function.update (s.places ask) (.inr i) (some i) := by
    funext place
    cases place with
    | inl key => rfl
    | inr j =>
        by_cases own : j = i
        · subst j
          simpa [PendingReverts.places, PendingReverts.goTo, RequestPc.has] using brings
        · simp [PendingReverts.places, PendingReverts.goTo, PendingReverts.setGuard, own]
  have moved (h : ι) (other : h ≠ i) :
      ((s.setGuard i .armed).goTo i .locking).guards h = s.guards h :=
    Function.update_of_ne other ..
  have mine : ((s.setGuard i .armed).goTo i .locking).guards i = some .armed :=
    Function.update_self ..
  refine {
    lock := sound.lock_kept (by rw [begun]; rfl)
    own := sound.own_kept (by cases ask i <;> rfl)
    fresh := fun j begins => ?_
    guards := fun h guard armed => ?_
    once := ?_
    keys := fun place h found => ?_
    calls := fun place h guard found armed => ?_ }
  · have other : j ≠ i := by
      rintro rfl
      cases (Function.update_self ..).symm.trans begins
    rw [moved j other]
    exact sound.fresh j ((Function.update_of_ne other ..).symm.trans begins)
  · by_cases own : h = i
    · subst h
      cases mine.symm.trans armed
      exact ⟨Guard.sound_armed, Guard.orderly_armed⟩
    · exact sound.guards h guard ((moved h own).symm.trans armed)
  · refine (Once.put sound.once (a := .inr i) (g := i) ?_ ?_).congr places fun h => ?_
    · simp [PendingReverts.places, begun, RequestPc.has]
    · simp [unarmed]
    · by_cases own : h = i
      · subst h
        simp [mine]
      · simp [moved h own, own]
  · rw [places] at found
    rcases cases_of_update found with ⟨rfl, rfl⟩ | ⟨-, before⟩
    · cases asks : ask h with
      | hold key => simp [keyAt, asks, RevertRequest.key]
      | confirm key => simp [asks, RevertRequest.own] at brings
    · exact sound.keys place h before
  · rw [places] at found
    rcases cases_of_update found with ⟨rfl, rfl⟩ | ⟨elsewhere, before⟩
    · cases mine.symm.trans armed
      simp [callsAt, PendingReverts.goTo, RequestPc.Calls, Guard.armed]
    · have other : h ≠ i := by
        rintro rfl
        have present := (sound.once.somewhere h).mpr ⟨place, before⟩
        simp [unarmed] at present
      have kept := sound.calls place h guard before ((moved h other).symm.trans armed)
      cases place with
      | inl key => exact kept
      | inr j =>
          have apart : j ≠ i := fun same => elsewhere (congrArg Sum.inr same)
          simpa [callsAt, PendingReverts.goTo, PendingReverts.setGuard, apart] using kept

/-- Under the lock, a request and the map exchange what they have for the key. -/
theorem Sound.swap (sound : Sound ask s) (here : s.pcs i = .inMap)
    (has : pc.has ((ask i).own i) = s.map (ask i).key) (inside : pc.inside = true)
    (own : (ask i).allows pc = true)
    (fits : ∀ g, ∀ guard : Guard Unit α, pc.has ((ask i).own i) = some g →
      (∀ c, guard.pcs c = .cancelling .locking) → pc.Calls guard) :
    Sound ask ({ s with map := Function.update s.map (ask i).key ((ask i).own i) }.goTo i pc) := by
  have mine : s.places ask (.inr i) = (ask i).own i := by
    simp [places, here, RequestPc.has]
  have places : ({ s with map := Function.update s.map (ask i).key ((ask i).own i) }.goTo i
      pc).places ask = s.places ask ∘ Equiv.swap (.inl (ask i).key) (.inr i) := by
    funext place
    cases place with
    | inl key =>
        by_cases own : key = (ask i).key
        · subst own
          rw [Function.comp, Equiv.swap_apply_left, mine]
          exact Function.update_self ..
        · rw [Function.comp, Equiv.swap_apply_of_ne_of_ne (by simpa using own) (by simp)]
          simp [PendingReverts.places, PendingReverts.goTo, own]
    | inr j =>
        by_cases own : j = i
        · subst own
          simpa [PendingReverts.places, PendingReverts.goTo] using has
        · rw [Function.comp, Equiv.swap_apply_of_ne_of_ne (by simp) (by simpa using own)]
          simp [PendingReverts.places, PendingReverts.goTo, own]
  have keys (place : κ ⊕ ι) :
      keyAt ask (Equiv.swap (.inl (ask i).key) (.inr i) place) = keyAt ask place := by
    by_cases first : place = .inl (ask i).key
    · simp [first, keyAt]
    · by_cases second : place = .inr i
      · simp [second, keyAt]
      · rw [Equiv.swap_apply_of_ne_of_ne first second]
  refine {
    lock := sound.lock_kept (by rw [inside, here]; rfl)
    own := sound.own_kept own
    fresh := fun j begins => ?_
    guards := sound.guards
    once := (sound.once.swap _ _).congr places fun _ => .rfl
    keys := fun place h found => ?_
    calls := fun place h guard found armed => ?_ }
  · have other : j ≠ i := by
      rintro rfl
      cases (Function.update_self ..).symm.trans begins
      cases inside
    exact sound.fresh j ((Function.update_of_ne other ..).symm.trans begins)
  · rw [places] at found
    rw [sound.keys _ h found, keys]
  · rw [places] at found
    have before := sound.calls _ h guard found armed
    by_cases first : place = .inl (ask i).key
    · subst first
      rw [Equiv.swap_apply_left] at before
      simpa [callsAt, here, RequestPc.Calls] using before
    · by_cases second : place = .inr i
      · subst second
        rw [Function.comp, Equiv.swap_apply_right] at found
        rw [Equiv.swap_apply_right] at before
        simpa [callsAt, PendingReverts.goTo] using fits h guard (has.trans found) before
      · rw [Equiv.swap_apply_of_ne_of_ne first second] at before
        cases place with
        | inl key => exact before
        | inr j =>
            have apart : j ≠ i := fun same => second (congrArg Sum.inr same)
            simpa [callsAt, PendingReverts.goTo, apart] using before

theorem Sound.request (first : α) (sound : Sound ask s)
    (moves : Moves (ask i) i s (s.pcs i) s') : Sound ask s' := by
  generalize place : s.pcs i = before at moves
  cases moves with
  | arm brings => exact sound.arm place brings
  | begin brings =>
      refine sound.goTo (by simp) (by cases ask i <;> rfl)
        (sound.lock_kept (by rw [place]; rfl)) ?_ ?_
      · simp [place, RequestPc.has, brings]
      · simp [place, RequestPc.has]
  | lock free =>
      refine sound.goTo (by simp) (by cases ask i <;> rfl) (sound.lock_taken free rfl)
        (by rw [place]; rfl) ?_
      intro g guard _ _ untouched
      simpa [place, RequestPc.Calls] using untouched
  | swap has inside own fits => exact sound.swap place has inside own fits
  | unlock leaves => exact sound.unlock (place ▸ leaves)
  | call calls armed step => exact sound.call first (place ▸ calls) armed step
  | ended calls armed ended => exact sound.ended (place ▸ calls) armed (place ▸ ended)

theorem Sound.step {first : α} {event : PendingEvent ι α} (sound : Sound ask s)
    (step : s.step ask first event = some s') : Sound ask s' := by
  obtain ⟨i, -, moves⟩ | ⟨g, guard, guard', timer, armed, alone, took, rfl⟩ := step_cases step
  · exact sound.request first moves
  · exact sound.timer armed alone took

theorem sound_reached {first : α} {events : List (PendingEvent ι α)}
    (reached : runSome (step ask first) start events = some s) : Sound ask s :=
  invariant_runSome (fun _ _ _ sound step => sound.step step) sound_start events reached

end Invariant

end PendingReverts

end TinyWifi
