import Mathlib.Data.List.Induction
import TinyWifi.Lib.Keyed

/-! The login attempts of `auth.rs`: an address that fails too often in one window is banned. As in
`RateLimit` a window opens with an attempt; the attempt that fills it starts the ban. -/

namespace TinyWifi

namespace LoginAttempts

def maxAttempts : UInt32 := 10

def attemptWindow : Nat := 60 * 1000000000

def banDuration : Nat := 300 * 1000000000

structure AttemptState where
  count : UInt32
  windowStart : Nat
  bannedUntil : Option Nat
  deriving DecidableEq, Repr

abbrev Attempts (Ip : Type) := Ip → Option AttemptState

variable {Ip : Type}

def newLoginAttempts : Attempts Ip := fun _ => none

def AttemptState.isBanned (now : Nat) (entry : Option AttemptState) : Bool :=
  match entry with
  | some s => s.bannedUntil.elim false (now < ·)
  | none => false

def AttemptState.recordFailure (now : Nat) (entry : Option AttemptState) : AttemptState :=
  let entry := entry.getD ⟨0, now, none⟩
  let entry := if attemptWindow ≤ now - entry.windowStart then
    { entry with count := 0, windowStart := now } else entry
  let entry := { entry with count := entry.count + 1 }
  if maxAttempts ≤ entry.count then ⟨0, now, some (now + banDuration)⟩ else entry

def isBanned (attempts : Attempts Ip) (ip : Ip) (now : Nat) : Bool :=
  AttemptState.isBanned now (attempts ip)

def recordFailure [DecidableEq Ip] (attempts : Attempts Ip) (ip : Ip) (now : Nat) : Attempts Ip :=
  Function.update attempts ip (some (AttemptState.recordFailure now (attempts ip)))

def recordSuccess [DecidableEq Ip] (attempts : Attempts Ip) (ip : Ip) : Attempts Ip :=
  Function.update attempts ip none

/-- A login request. The clock is read twice, for the ban and for a failure; the password is
verified between. -/
structure Login (Ip : Type) where
  ip : Ip
  correct : Bool
  checked : Nat
  verified : Nat
  recorded : Nat
  checked_first : checked ≤ verified
  recorded_last : verified ≤ recorded

inductive Answer
  | banned
  | loggedIn
  | failed
  deriving DecidableEq, Repr

def Answer.verified : Answer → Bool
  | .banned => false
  | _ => true

def loginPost [DecidableEq Ip] (attempts : Attempts Ip) (login : Login Ip) :
    Answer × Attempts Ip :=
  if isBanned attempts login.ip login.checked then (.banned, attempts)
  else if login.correct then (.loggedIn, recordSuccess attempts login.ip)
  else (.failed, recordFailure attempts login.ip login.recorded)

def serve (entry : Option AttemptState) (login : Login Ip) : Answer × Option AttemptState :=
  if AttemptState.isBanned login.checked entry then (.banned, entry)
  else if login.correct then (.loggedIn, none)
  else (.failed, some (AttemptState.recordFailure login.recorded entry))

theorem loginPost_eq [DecidableEq Ip] (attempts : Attempts Ip) (login : Login Ip) :
    loginPost attempts login =
      ((serve (attempts login.ip) login).1, Keyed.step serve Login.ip attempts login) := by
  rw [loginPost, Keyed.step, serve, isBanned]
  split
  · rw [Function.update_eq_self]
  · split <;> rfl

/-- The password of the login is verified in the half-open interval of one window's length from `t`
on. -/
def within (t : Nat) (login : Login Ip) : Bool :=
  t ≤ login.verified && login.verified < t + attemptWindow

def Sorted (logins : List (Login Ip)) : Prop := logins.Pairwise fun a b => a.recorded ≤ b.checked

section Entry

variable {answered : List (Login Ip × Answer)} {next : Login Ip} {s : AttemptState}

theorem isBanned_some {now deadline : Nat} (banned : s.bannedUntil = some deadline) :
    AttemptState.isBanned now (some s) = decide (now < deadline) := by
  rw [AttemptState.isBanned, banned]
  rfl

theorem le_of_not_banned {now deadline : Nat} (banned : s.bannedUntil = some deadline)
    (allowed : AttemptState.isBanned now (some s) = false) : deadline ≤ now := by
  rw [isBanned_some banned, decide_eq_false_iff_not] at allowed
  exact Nat.le_of_not_lt allowed

theorem recordFailure_opens {entry : Option AttemptState} {now : Nat}
    (elapsed : ∀ s ∈ entry, s.windowStart + attemptWindow ≤ now) :
    ∃ banned, AttemptState.recordFailure now entry = ⟨1, now, banned⟩ := by
  have one : 1 < maxAttempts := by decide
  cases entry with
  | none =>
      exists none
      simp [AttemptState.recordFailure, one]
  | some s =>
      have late : attemptWindow ≤ now - s.windowStart := by
        have := elapsed s rfl
        omega
      exists s.bannedUntil
      simp [AttemptState.recordFailure, late, one]

theorem not_over {now : Nat} (current : now < s.windowStart + attemptWindow) :
    ¬ attemptWindow ≤ now - s.windowStart := by
  have : 0 < attemptWindow := by decide
  omega

theorem toNat_count_add_one (few : s.count.toNat < maxAttempts.toNat) :
    (s.count + 1).toNat = s.count.toNat + 1 := by
  have small : s.count.toNat + 1 < 2 ^ 32 := by
    have : maxAttempts.toNat < 2 ^ 32 := by decide
    omega
  rw [UInt32.toNat_add, UInt32.toNat_one, Nat.mod_eq_of_lt small]

theorem recordFailure_continues {now : Nat} (current : now < s.windowStart + attemptWindow)
    (few : s.count.toNat + 1 < maxAttempts.toNat) :
    AttemptState.recordFailure now (some s) = ⟨s.count + 1, s.windowStart, s.bannedUntil⟩ := by
  have below : ¬ maxAttempts ≤ s.count + 1 := by
    rw [UInt32.le_iff_toNat_le, toNat_count_add_one (by omega)]
    omega
  simp [AttemptState.recordFailure, not_over current, below]

theorem recordFailure_bans {now : Nat} (current : now < s.windowStart + attemptWindow)
    (full : s.count.toNat + 1 = maxAttempts.toNat) :
    AttemptState.recordFailure now (some s) = ⟨0, now, some (now + banDuration)⟩ := by
  have reached : maxAttempts ≤ s.count + 1 := by
    rw [UInt32.le_iff_toNat_le, toNat_count_add_one (by omega)]
    omega
  simp [AttemptState.recordFailure, not_over current, reached]

/-- The window is open: the failures since it opened are counted, and those before it that one
interval shares with it are fewer than a ban takes. -/
structure Open (answered : List (Login Ip × Answer)) (s : AttemptState) : Prop where
  few : s.count.toNat < maxAttempts.toNat
  opened : ∃ answer ∈ answered, answer.1.recorded = s.windowStart
  inside : ∀ answer ∈ answered, answer.2.verified →
    answer.1.recorded < s.windowStart + attemptWindow
  current : Keyed.tally Answer.verified answered (fun r => s.windowStart ≤ r.recorded) =
    s.count.toNat
  earlier : ∀ t, s.windowStart < t + attemptWindow →
    Keyed.tally Answer.verified answered (fun r => t ≤ r.verified && r.recorded < s.windowStart) <
      maxAttempts.toNat

/-- The address is banned, or was and has not tried again: no failure is later than the ban. -/
structure Locked (answered : List (Login Ip × Answer)) (s : AttemptState) : Prop where
  banned : s.bannedUntil = some (s.windowStart + banDuration)
  before : ∀ answer ∈ answered, answer.2.verified → answer.1.recorded ≤ s.windowStart

def Known (answered : List (Login Ip × Answer)) : Option AttemptState → Prop
  | none => answered = []
  | some s => Open answered s ∨ Locked answered s

inductive Fails (next : Login Ip) : Option AttemptState → AttemptState → Prop
  | opens {entry : Option AttemptState} (banned : Option Nat)
      (elapsed : ∀ s ∈ entry, s.windowStart + attemptWindow ≤ next.recorded) :
      Fails next entry ⟨1, next.recorded, banned⟩
  | counts {s : AttemptState} (current : next.recorded < s.windowStart + attemptWindow)
      (few : s.count.toNat + 1 < maxAttempts.toNat) :
      Fails next (some s) ⟨s.count + 1, s.windowStart, s.bannedUntil⟩
  | bans {s : AttemptState} (current : next.recorded < s.windowStart + attemptWindow)
      (full : s.count.toNat + 1 = maxAttempts.toNat) :
      Fails next (some s) ⟨0, next.recorded, some (next.recorded + banDuration)⟩

/-- A ban outlasts a window, so who may try again finds the window over. -/
theorem over_of_locked (locked : Locked answered s)
    (allowed : AttemptState.isBanned next.checked (some s) = false) :
    s.windowStart + attemptWindow ≤ next.checked := by
  have longer : attemptWindow ≤ banDuration := Nat.mul_le_mul_right _ (by decide)
  have later : s.windowStart + banDuration ≤ next.checked := le_of_not_banned locked.banned allowed
  exact Nat.le_trans (Nat.add_le_add_left longer s.windowStart) later

theorem fails_of_known {entry : Option AttemptState} (known : Known answered entry)
    (allowed : AttemptState.isBanned next.checked entry = false) :
    Fails next entry (AttemptState.recordFailure next.recorded entry) := by
  have order : next.checked ≤ next.recorded :=
    Nat.le_trans next.checked_first next.recorded_last
  by_cases elapsed : ∀ s ∈ entry, s.windowStart + attemptWindow ≤ next.recorded
  · rcases recordFailure_opens elapsed with ⟨banned, after⟩
    rw [after]
    exact .opens banned elapsed
  · simp only [not_forall] at elapsed
    rcases elapsed with ⟨s, found, current⟩
    rw [Option.mem_def] at found
    subst found
    rcases known with opened | locked
    · have few := opened.few
      have current : next.recorded < s.windowStart + attemptWindow := by omega
      by_cases full : s.count.toNat + 1 = maxAttempts.toNat
      · rw [recordFailure_bans current full]
        exact .bans current full
      · have few : s.count.toNat + 1 < maxAttempts.toNat := by omega
        rw [recordFailure_continues current few]
        exact .counts current few
    · have := over_of_locked locked allowed
      omega

/-- In no interval more passwords are verified than one window takes that is not filled, and one
that ends with a ban. -/
def Bounded (answered : List (Login Ip × Answer)) : Prop :=
  ∀ t, Keyed.tally Answer.verified answered (within t) < 2 * maxAttempts.toNat

def Latest (answered : List (Login Ip × Answer)) (next : Login Ip) : Prop :=
  ∀ answer ∈ answered, answer.1.recorded ≤ next.checked

theorem mem_within {t : Nat} (inside : within t next) :
    t ≤ next.verified ∧ next.verified < t + attemptWindow := by
  simpa [within] using inside

theorem tally_open (opened : Open answered s) (latest : Latest answered next) {t : Nat}
    (inside : within t next) :
    Keyed.tally Answer.verified answered (within t) < s.count.toNat + maxAttempts.toNat := by
  have split := Keyed.tally_le_add Answer.verified answered (within t)
    (fun r => s.windowStart ≤ r.recorded)
    (fun r => t ≤ r.verified && r.recorded < s.windowStart) (by
      intro answer _ _ both
      have := mem_within both
      simp only [Bool.and_eq_true, decide_eq_true_eq]
      omega)
  have reaches : s.windowStart < t + attemptWindow := by
    rcases opened.opened with ⟨answer, member, same⟩
    have := latest answer member
    have := next.checked_first
    have := mem_within inside
    omega
  have := opened.earlier t reaches
  have := opened.current
  omega

theorem Open.refused (opened : Open answered s) : Open (answered ++ [(next, .banned)]) s := by
  constructor
  · exact opened.few
  · rcases opened.opened with ⟨answer, member, same⟩
    exact ⟨answer, List.mem_append_left _ member, same⟩
  · intro answer member verified
    rcases List.mem_append.mp member with member | member
    · exact opened.inside answer member verified
    · rw [List.mem_singleton.mp member] at verified
      cases verified
  · rw [Keyed.tally_concat, opened.current]
    simp [Answer.verified]
  · intro t reaches
    rw [Keyed.tally_concat]
    simpa [Answer.verified] using opened.earlier t reaches

theorem Locked.refused (locked : Locked answered s) : Locked (answered ++ [(next, .banned)]) s := by
  constructor
  · exact locked.banned
  · intro answer member verified
    rcases List.mem_append.mp member with member | member
    · exact locked.before answer member verified
    · rw [List.mem_singleton.mp member] at verified
      cases verified

theorem Bounded.refused (bounded : Bounded answered) : Bounded (answered ++ [(next, .banned)]) := by
  intro t
  rw [Keyed.tally_concat]
  simpa [Answer.verified] using bounded t

/-- With one more failure the bound holds if it leaves room in the intervals around it. -/
theorem Bounded.failed (bounded : Bounded answered)
    (room : ∀ t, within t next →
      Keyed.tally Answer.verified answered (within t) + 1 < 2 * maxAttempts.toNat) :
    Bounded (answered ++ [(next, .failed)]) := by
  intro t
  rw [Keyed.tally_concat]
  by_cases inside : within t next
  · have := room t inside
    simpa [inside, Answer.verified] using this
  · simpa [inside] using bounded t

theorem bounded_failed {entry : Option AttemptState}
    (known : Known answered entry) (bounded : Bounded answered) (latest : Latest answered next)
    (allowed : AttemptState.isBanned next.checked entry = false) :
    Bounded (answered ++ [(next, .failed)]) := by
  have several : 1 < maxAttempts.toNat := by decide
  apply bounded.failed
  intro t inside
  cases entry with
  | none =>
      rw [known, Keyed.tally_eq_zero]
      · omega
      · intro answer member
        cases member
  | some s =>
      rcases known with opened | locked
      · have := tally_open opened latest inside
        have := opened.few
        omega
      · rw [Keyed.tally_eq_zero]
        · omega
        · intro answer member verified
          have := locked.before answer member verified
          have := over_of_locked locked allowed
          have := next.checked_first
          have := answer.1.recorded_last
          have := mem_within inside
          simp only [within, Bool.and_eq_false_iff, decide_eq_false_iff_not]
          omega

theorem recorded_lt_of_over {entry : Option AttemptState} (known : Known answered entry)
    (elapsed : ∀ s ∈ entry, s.windowStart + attemptWindow ≤ next.recorded) :
    ∀ answer ∈ answered, answer.2.verified → answer.1.recorded < next.recorded := by
  have positive : 0 < attemptWindow := by decide
  intro answer member verified
  cases entry with
  | none =>
      rw [known] at member
      cases member
  | some s =>
      have := elapsed s rfl
      rcases known with opened | locked
      · have := opened.inside answer member verified
        omega
      · have := locked.before answer member verified
        omega

theorem tally_of_over {entry : Option AttemptState} (known : Known answered entry)
    (elapsed : ∀ s ∈ entry, s.windowStart + attemptWindow ≤ next.recorded) {t : Nat}
    (reaches : next.recorded < t + attemptWindow) :
    Keyed.tally Answer.verified answered (fun r => t ≤ r.verified) < maxAttempts.toNat := by
  have positive : 0 < maxAttempts.toNat := by decide
  cases entry with
  | none =>
      rw [known, Keyed.tally_eq_zero]
      · exact positive
      · intro answer member
        cases member
  | some s =>
      have := elapsed s rfl
      rcases known with opened | locked
      · have inside : Keyed.tally Answer.verified answered (fun r => t ≤ r.verified) ≤
            Keyed.tally Answer.verified answered (fun r => s.windowStart ≤ r.recorded) := by
          apply Keyed.tally_mono
          intro answer _ _ late
          have := answer.1.recorded_last
          simp only [decide_eq_true_eq] at late ⊢
          omega
        have := opened.current
        have := opened.few
        omega
      · rw [Keyed.tally_eq_zero]
        · exact positive
        · intro answer member verified
          have := locked.before answer member verified
          have := answer.1.recorded_last
          simp only [decide_eq_false_iff_not]
          omega

theorem open_new {entry : Option AttemptState} (known : Known answered entry)
    (banned : Option Nat) (elapsed : ∀ s ∈ entry, s.windowStart + attemptWindow ≤ next.recorded) :
    Open (answered ++ [(next, .failed)]) ⟨1, next.recorded, banned⟩ := by
  have before := recorded_lt_of_over known elapsed
  have positive : 0 < attemptWindow := by decide
  constructor
  · change (1 : UInt32).toNat < maxAttempts.toNat
    decide
  · exact ⟨(next, .failed), by simp, rfl⟩
  · intro answer member verified
    rcases List.mem_append.mp member with member | member
    · have := before answer member verified
      dsimp only
      omega
    · rw [List.mem_singleton.mp member]
      dsimp only
      omega
  · rw [Keyed.tally_concat, Keyed.tally_eq_zero]
    · simp [Answer.verified]
    · intro answer member verified
      have := before answer member verified
      simp only [decide_eq_false_iff_not]
      omega
  · intro t reaches
    have fits : Keyed.tally Answer.verified answered
        (fun r => t ≤ r.verified && r.recorded < next.recorded) ≤
          Keyed.tally Answer.verified answered (fun r => t ≤ r.verified) := by
      apply Keyed.tally_mono
      intro answer _ _ both
      exact (Bool.and_eq_true_iff.mp both).1
    have := tally_of_over known elapsed reaches
    rw [Keyed.tally_concat]
    simp only [Nat.lt_irrefl, decide_false, Bool.and_false, Bool.false_and, Bool.false_eq_true,
      if_false]
    omega

theorem Open.counts (opened : Open answered s) (latest : Latest answered next)
    (current : next.recorded < s.windowStart + attemptWindow)
    (few : s.count.toNat + 1 < maxAttempts.toNat) :
    Open (answered ++ [(next, .failed)]) ⟨s.count + 1, s.windowStart, s.bannedUntil⟩ := by
  have count := toNat_count_add_one opened.few
  have after : s.windowStart ≤ next.recorded := by
    rcases opened.opened with ⟨answer, member, same⟩
    have := latest answer member
    have := next.checked_first
    have := next.recorded_last
    omega
  constructor
  · rw [count]
    exact few
  · rcases opened.opened with ⟨answer, member, same⟩
    exact ⟨answer, List.mem_append_left _ member, same⟩
  · intro answer member verified
    rcases List.mem_append.mp member with member | member
    · exact opened.inside answer member verified
    · rw [List.mem_singleton.mp member]
      exact current
  · rw [Keyed.tally_concat, opened.current, count]
    simp [Answer.verified, after]
  · intro t reaches
    have late : ¬ next.recorded < s.windowStart := Nat.not_lt.mpr after
    rw [Keyed.tally_concat]
    simpa [late] using opened.earlier t reaches

theorem locked_new (latest : Latest answered next) :
    Locked (answered ++ [(next, .failed)])
      ⟨0, next.recorded, some (next.recorded + banDuration)⟩ := by
  constructor
  · rfl
  · intro answer member _
    rcases List.mem_append.mp member with member | member
    · have := latest answer member
      have := next.checked_first
      have := next.recorded_last
      dsimp only
      omega
    · cases List.mem_singleton.mp member
      exact Nat.le_refl _

theorem known_failed {entry : Option AttemptState} {after : AttemptState}
    (known : Known answered entry) (latest : Latest answered next)
    (allowed : AttemptState.isBanned next.checked entry = false)
    (fails : Fails next entry after) : Known (answered ++ [(next, .failed)]) (some after) := by
  cases fails with
  | opens banned elapsed => exact .inl (open_new known banned elapsed)
  | counts current few =>
      rcases known with opened | locked
      · exact .inl (opened.counts latest current few)
      · have := over_of_locked locked allowed
        have := next.checked_first
        have := next.recorded_last
        omega
  | bans current full => exact .inr (locked_new latest)

theorem serve_banned {entry : Option AttemptState}
    (banned : AttemptState.isBanned next.checked entry = true) :
    serve entry next = (.banned, entry) := by
  rw [serve, if_pos banned]

theorem serve_allowed {entry : Option AttemptState}
    (allowed : AttemptState.isBanned next.checked entry = false)
    (failure : (serve entry next).1 ≠ .loggedIn) :
    serve entry next = (.failed, some (AttemptState.recordFailure next.recorded entry)) := by
  rw [serve, if_neg (by simp [allowed])] at failure ⊢
  split
  · rename_i correct
    rw [if_pos correct] at failure
    exact absurd rfl failure
  · rfl

theorem known_step {entry : Option AttemptState} (known : Known answered entry)
    (bounded : Bounded answered) (latest : Latest answered next)
    (failure : (serve entry next).1 ≠ .loggedIn) :
    Known (answered ++ [(next, (serve entry next).1)]) (serve entry next).2 ∧
      Bounded (answered ++ [(next, (serve entry next).1)]) := by
  cases allowed : AttemptState.isBanned next.checked entry with
  | true =>
      rw [serve_banned allowed]
      refine ⟨?_, bounded.refused⟩
      cases entry with
      | none => cases allowed
      | some s => exact known.imp Open.refused Locked.refused
  | false =>
      rw [serve_allowed allowed failure]
      exact ⟨known_failed known latest allowed (fails_of_known known allowed),
        bounded_failed known bounded latest allowed⟩

theorem sorted_latest {front back : List (Login Ip)} (sorted : Sorted (front ++ next :: back)) :
    ∀ r ∈ front, r.recorded ≤ next.checked :=
  fun r member => (List.pairwise_append.mp sorted).2.2 r member next List.mem_cons_self

def NoSuccess (answered : List (Login Ip × Answer)) : Prop :=
  ∀ answer ∈ answered, answer.2 ≠ .loggedIn

theorem known_answersAt {front : List (Login Ip)} (sorted : Sorted front)
    (failing : NoSuccess (Keyed.answersAt serve none front)) :
    Known (Keyed.answersAt serve none front) (Keyed.entryAfter serve none front) ∧
      Bounded (Keyed.answersAt serve none front) := by
  induction front using List.reverseRecOn with
  | nil =>
      have positive : 0 < 2 * maxAttempts.toNat := by decide
      exact ⟨rfl, fun _ => positive⟩
  | append_singleton front next ih =>
      rw [Keyed.answersAt_concat] at failing ⊢
      rw [Keyed.entryAfter_append]
      have before := ih (List.pairwise_append.mp sorted).1
        (fun answer member => failing answer (List.mem_append_left _ member))
      apply known_step before.1 before.2
      · intro answer member
        exact sorted_latest sorted _ (Keyed.mem_of_mem_answersAt member)
      · exact failing _ (List.mem_append_right _ (List.mem_singleton.mpr rfl))

def failures (answered : List (Login Ip × Answer)) : Nat :=
  answered.countP fun answer => answer.2 = .failed

/-- What a window that opened at `start` has come to: the failures are counted, or they are as many
as a ban takes. -/
inductive Filling (start count : Nat) : Option AttemptState → Prop
  | counting {s : AttemptState} (same : s.windowStart = start) (counted : s.count.toNat = count)
      (few : count < maxAttempts.toNat) : Filling start count (some s)
  | banned {s : AttemptState} (r : Nat) (later : start ≤ r)
      (until_r : s.bannedUntil = some (r + banDuration)) : Filling start count (some s)

theorem isBanned_of_filled {r : Nat} (longer : next.recorded < r + attemptWindow)
    (until_r : s.bannedUntil = some (r + banDuration)) :
    AttemptState.isBanned next.checked (some s) = true := by
  have longest : attemptWindow ≤ banDuration := Nat.mul_le_mul_right _ (by decide)
  have inside : next.checked < r + attemptWindow := by
    have := next.checked_first
    have := next.recorded_last
    omega
  rw [isBanned_some until_r, decide_eq_true_iff]
  exact Nat.lt_of_lt_of_le inside (Nat.add_le_add_left longest r)

theorem failed_of_counting (current : next.recorded < s.windowStart + attemptWindow)
    (few : s.count.toNat < maxAttempts.toNat) :
    (s.count.toNat + 1 < maxAttempts.toNat ∧ ∃ banned,
      AttemptState.recordFailure next.recorded (some s) = ⟨s.count + 1, s.windowStart, banned⟩) ∨
    (s.count.toNat + 1 = maxAttempts.toNat ∧
      AttemptState.recordFailure next.recorded (some s) =
        ⟨0, next.recorded, some (next.recorded + banDuration)⟩) := by
  by_cases full : s.count.toNat + 1 = maxAttempts.toNat
  · exact .inr ⟨full, recordFailure_bans current full⟩
  · have room : s.count.toNat + 1 < maxAttempts.toNat := by omega
    exact .inl ⟨room, s.bannedUntil, recordFailure_continues current room⟩

theorem filling_step {start count : Nat} {entry : Option AttemptState}
    (filling : Filling start count entry) (after : start ≤ next.recorded)
    (current : next.recorded < start + attemptWindow)
    (failure : (serve entry next).1 ≠ .loggedIn) :
    Filling start (count + failures [(next, (serve entry next).1)]) (serve entry next).2 := by
  cases filling with
  | @counting s same counted few =>
      cases allowed : AttemptState.isBanned next.checked (some s) with
      | true =>
          rw [serve_banned allowed]
          exact .counting same counted few
      | false =>
          rw [serve_allowed allowed failure]
          rcases failed_of_counting (same ▸ current) (counted ▸ few) with
            ⟨room, banned, recorded⟩ | ⟨full, recorded⟩
          · rw [recorded]
            refine .counting same ?_ (counted ▸ room)
            rw [toNat_count_add_one (counted ▸ few), counted]
            rfl
          · rw [recorded]
            exact .banned next.recorded after rfl
  | @banned s r later until_r =>
      rw [serve_banned (isBanned_of_filled (by omega) until_r)]
      exact .banned r later until_r

theorem filling_run {start count : Nat} {entry : Option AttemptState} {logins : List (Login Ip)}
    (filling : Filling start count entry)
    (inside : ∀ r ∈ logins, start ≤ r.recorded ∧ r.recorded < start + attemptWindow)
    (failing : NoSuccess (Keyed.answersAt serve entry logins)) :
    Filling start (count + failures (Keyed.answersAt serve entry logins))
      (Keyed.entryAfter serve entry logins) := by
  induction logins generalizing count entry with
  | nil => exact filling
  | cons next rest ih =>
      have here := inside next List.mem_cons_self
      have first := filling_step filling here.1 here.2 (failing _ List.mem_cons_self)
      have later := ih first (fun r member => inside r (List.mem_cons_of_mem _ member))
        (fun answer member => failing answer (List.mem_cons_of_mem _ member))
      have count_eq : count + failures [(next, (serve entry next).1)] +
          failures (Keyed.answersAt serve (serve entry next).2 rest) =
            count + failures (Keyed.answersAt serve entry (next :: rest)) := by
        rw [Nat.add_assoc, failures, failures, ← List.countP_append]
        rfl
      rwa [count_eq] at later

theorem filled_bans {start count : Nat} {entry : Option AttemptState}
    (filling : Filling start count entry) (current : next.recorded < start + attemptWindow)
    (full : maxAttempts.toNat ≤ count + 1) (failed : (serve entry next).1 = .failed) :
    ∃ s, (serve entry next).2 = some s ∧
      s.bannedUntil = some (next.recorded + banDuration) := by
  have failure : (serve entry next).1 ≠ .loggedIn := by
    rw [failed]
    decide
  cases filling with
  | @counting s same counted few =>
      cases allowed : AttemptState.isBanned next.checked (some s) with
      | true =>
          rw [serve_banned allowed] at failed
          cases failed
      | false =>
          rw [serve_allowed allowed failure]
          rcases failed_of_counting (same ▸ current) (counted ▸ few) with
            ⟨room, _⟩ | ⟨_, recorded⟩
          · omega
          · rw [recorded]
            exact ⟨_, rfl, rfl⟩
  | @banned s r later until_r =>
      rw [serve_banned (isBanned_of_filled (by omega) until_r)] at failed
      cases failed

theorem verified_after_ban {deadline : Nat} {logins : List (Login Ip)} (sorted : Sorted logins)
    (banned : s.bannedUntil = some deadline) :
    ∀ answer ∈ Keyed.answersAt serve (some s) logins, answer.2.verified →
      deadline ≤ answer.1.checked := by
  induction logins with
  | nil =>
      intro answer member
      cases member
  | cons next rest ih =>
      intro answer member verified
      have later := (List.pairwise_cons.mp sorted).1
      by_cases elapsed : deadline ≤ next.checked
      · rcases List.mem_cons.mp (Keyed.mem_of_mem_answersAt member) with same | member
        · rwa [same]
        · have := later answer.1 member
          have := next.checked_first
          have := next.recorded_last
          omega
      · have refused : AttemptState.isBanned next.checked (some s) = true := by
          rw [isBanned_some banned, decide_eq_true_iff]
          exact Nat.lt_of_not_le elapsed
        rw [Keyed.answersAt, serve_banned refused] at member
        rcases List.mem_cons.mp member with same | member
        · rw [same] at verified
          cases verified
        · exact ih (List.pairwise_cons.mp sorted).2 answer member verified

/-- The failures of one window bring a ban: stated for the logins of one address. -/
theorem ban_holds {logins : List (Login Ip)} {front rest back : List (Login Ip × Answer)}
    {first last : Login Ip} (sorted : Sorted logins)
    (failing : NoSuccess (Keyed.answersAt serve none logins))
    (split : Keyed.answersAt serve none logins =
      front ++ (first, .failed) :: rest ++ (last, .failed) :: back)
    (opens : ∃ banned, Keyed.entryAfter serve none (front.map Prod.fst ++ [first]) =
      some ⟨1, first.recorded, banned⟩)
    (full : maxAttempts.toNat ≤ failures ((first, .failed) :: rest ++ [(last, .failed)]))
    (current : last.recorded < first.recorded + attemptWindow) :
    ∀ answer ∈ back, answer.2.verified → last.recorded + banDuration ≤ answer.1.checked := by
  rcases opens with ⟨banned, opens⟩
  rw [List.append_assoc, List.cons_append] at split
  rcases Keyed.answersAt_around split with ⟨names, -, -, after⟩
  rw [opens] at after
  rcases Keyed.answersAt_around after.symm with ⟨later, middle, last_fails, ended⟩
  rw [names, later] at sorted
  have order := List.pairwise_cons.mp (List.pairwise_append.mp sorted).2.1
  have inside : ∀ r ∈ rest.map Prod.fst,
      first.recorded ≤ r.recorded ∧ r.recorded < first.recorded + attemptWindow := by
    intro r member
    have after := order.1 r (List.mem_append_left _ member)
    have before := sorted_latest order.2 r member
    have := r.checked_first
    have := r.recorded_last
    have := last.checked_first
    have := last.recorded_last
    omega
  have quiet : NoSuccess rest := by
    intro answer member
    apply failing answer
    rw [split]
    exact List.mem_append_right _ (List.mem_cons_of_mem _ (List.mem_append_left _ member))
  have starts : Filling first.recorded 1 (some ⟨1, first.recorded, banned⟩) :=
    .counting rfl rfl (by decide)
  have filling := filling_run starts inside (middle ▸ quiet)
  rw [← middle] at filling
  have count : failures ((first, .failed) :: rest ++ [(last, .failed)]) =
      1 + failures rest + 1 := by
    simp only [failures, List.cons_append, List.countP_cons, List.countP_append]
    simp only [decide_true, if_true, List.countP_nil]
    omega
  rcases filled_bans filling current (count ▸ full) last_fails.symm with ⟨s, found, until_last⟩
  intro answer member verified
  rw [Keyed.entryAfter_append] at ended
  rw [ended] at member
  change answer ∈ Keyed.answersAt serve (serve _ last).2 _ at member
  rw [found] at member
  exact verified_after_ban (List.pairwise_cons.mp (List.pairwise_append.mp order.2).2.1).2
    until_last answer member verified

end Entry

section Logins

variable [DecidableEq Ip]

def attemptsAfter (attempts : Attempts Ip) (logins : List (Login Ip)) : Attempts Ip :=
  logins.foldl (fun attempts login => (loginPost attempts login).2) attempts

def answers (attempts : Attempts Ip) : List (Login Ip) → List (Login Ip × Answer)
  | [] => []
  | login :: rest =>
    let (answer, attempts) := loginPost attempts login
    (login, answer) :: answers attempts rest

def own (ip : Ip) (answered : List (Login Ip × Answer)) : List (Login Ip × Answer) :=
  answered.filter fun answer => answer.1.ip = ip

/-- What an address without a success is held to. In `banned`, `first` opens a window and `last` is
a failure in it, and the failures from one to the other are enough for a ban. -/
structure Protected (ip : Ip) (logins : List (Login Ip)) : Prop where
  bounded : ∀ t, (own ip (answers newLoginAttempts logins)).countP
    (fun answer => within t answer.1 && answer.2.verified) ≤ 2 * maxAttempts.toNat - 1
  banned : ∀ front first rest last back,
    answers newLoginAttempts logins =
      front ++ (first, .failed) :: rest ++ (last, .failed) :: back →
    first.ip = ip → last.ip = ip →
    (∃ banned, attemptsAfter newLoginAttempts (front.map Prod.fst ++ [first]) ip =
      some ⟨1, first.recorded, banned⟩) →
    maxAttempts.toNat ≤ failures (own ip ((first, .failed) :: rest ++ [(last, .failed)])) →
    last.recorded < first.recorded + attemptWindow →
    ∀ answer ∈ own ip back, answer.2.verified →
      last.recorded + banDuration ≤ answer.1.verified
  independent : own ip (answers newLoginAttempts logins) =
    answers newLoginAttempts (logins.filter fun login => login.ip = ip)

theorem answers_eq (attempts : Attempts Ip) (logins : List (Login Ip)) :
    answers attempts logins = Keyed.answers serve Login.ip attempts logins := by
  induction logins generalizing attempts with
  | nil => rfl
  | cons login rest ih =>
      rw [answers, Keyed.answers, loginPost_eq, ← ih]

theorem attemptsAfter_eq (attempts : Attempts Ip) (logins : List (Login Ip)) :
    attemptsAfter attempts logins = Keyed.after serve Login.ip attempts logins := by
  induction logins generalizing attempts with
  | nil => rfl
  | cons login rest ih =>
      have later := ih (loginPost attempts login).2
      rw [loginPost_eq] at later
      rw [attemptsAfter, List.foldl_cons, loginPost_eq]
      exact later

theorem own_answers (logins : List (Login Ip)) (ip : Ip) :
    own ip (answers newLoginAttempts logins) =
      Keyed.answersAt serve none (logins.filter fun login => login.ip = ip) := by
  rw [own, answers_eq, Keyed.answers_key]
  rfl

theorem own_cons {ip : Ip} {answer : Login Ip × Answer} (same : answer.1.ip = ip)
    (rest : List (Login Ip × Answer)) : own ip (answer :: rest) = answer :: own ip rest :=
  List.filter_cons_of_pos (by simpa using same)

theorem own_append (ip : Ip) (front back : List (Login Ip × Answer)) :
    own ip (front ++ back) = own ip front ++ own ip back := List.filter_append front back

theorem filter_map_fst (ip : Ip) (answered : List (Login Ip × Answer)) :
    ((answered.map Prod.fst).filter fun login => login.ip = ip) =
      (own ip answered).map Prod.fst := by
  rw [List.filter_map]
  rfl

/-- Brute force is bounded: an address that never succeeds has fewer passwords verified in an
interval than two bans take, and none while a ban holds, whatever the other addresses do. -/
theorem brute_force_bound {logins : List (Login Ip)} (sorted : Sorted logins) (ip : Ip)
    (failing : NoSuccess (own ip (answers newLoginAttempts logins))) : Protected ip logins := by
  have sorted_own : Sorted (logins.filter fun login => login.ip = ip) :=
    List.Pairwise.filter _ sorted
  have failing_own := failing
  rw [own_answers] at failing_own
  constructor
  · intro t
    have bound := (known_answersAt sorted_own failing_own).2 t
    rw [← own_answers] at bound
    exact Nat.le_sub_one_of_lt bound
  · intro front first rest last back split first_ip last_ip opens full current
    rw [attemptsAfter_eq, Keyed.after_key, List.filter_append, filter_map_fst,
      List.filter_cons_of_pos (by simpa using first_ip), List.filter_nil] at opens
    rw [own_append, own_cons first_ip, own_cons last_ip] at full
    have split_own : Keyed.answersAt serve none (logins.filter fun login => login.ip = ip) =
        own ip front ++ (first, .failed) :: own ip rest ++ (last, .failed) :: own ip back := by
      rw [← own_answers, split, own_append, own_append, own_cons first_ip, own_cons last_ip]
    intro answer member verified
    have later := ban_holds sorted_own failing_own split_own opens full current
    exact Nat.le_trans (later answer member verified) answer.1.checked_first
  · rw [own, answers_eq, answers_eq]
    exact Keyed.answers_independent newLoginAttempts logins ip

def attempt (ip now : Nat) : Login Nat := ⟨ip, false, now, now, now, Nat.le_refl _, Nat.le_refl _⟩

def guesses : List (Login Nat) :=
  List.replicate 5 (attempt 7 0) ++ attempt 8 1 :: List.replicate 5 (attempt 7 2) ++
    [attempt 7 3, attempt 7 (2 + banDuration)]

/-- Ten failures of one address with one of another between them: the next attempt is refused, and
one after the ban is not. -/
theorem brute_force_bound_guesses :
    ((answers newLoginAttempts guesses).map Prod.snd).drop 11 = [.banned, .failed] ∧
      Protected 7 guesses := by
  refine ⟨by decide +kernel, brute_force_bound ?_ 7 ?_⟩
  · unfold Sorted
    decide +kernel
  · unfold NoSuccess
    decide +kernel

end Logins

end LoginAttempts

end TinyWifi
