import Mathlib.Algebra.Group.Nat.Defs
import Mathlib.Data.List.Induction
import TinyWifi.Lib.Keyed

/-! `ratelimit.rs`: how many requests an address may make. A window opens with a request and does
not slide: the next one opens with the first request after it is over. -/

namespace TinyWifi

namespace RateLimit

/-- Ten seconds; times are in nanoseconds. -/
def window : Nat := 10 * 1000000000

def maxRequests : UInt32 := 60

structure Bucket where
  count : UInt32
  windowStart : Nat
  deriving DecidableEq, Repr

abbrev RateLimiter (Ip : Type) := Ip → Option Bucket

variable {Ip : Type}

def newRateLimiter : RateLimiter Ip := fun _ => none

/-- The bucket with one more request, in a new window if its own is over. -/
def Bucket.record (now : Nat) (entry : Option Bucket) : Bucket :=
  let entry := entry.getD ⟨0, now⟩
  let entry := if window ≤ now - entry.windowStart then ⟨0, now⟩ else entry
  ⟨entry.count + 1, entry.windowStart⟩

def isRateLimited [DecidableEq Ip] (limiter : RateLimiter Ip) (ip : Ip) (now : Nat) :
    Bool × RateLimiter Ip :=
  let entry := Bucket.record now (limiter ip)
  (maxRequests < entry.count, Function.update limiter ip (some entry))

structure Request (Ip : Type) where
  ip : Ip
  now : Nat
  deriving DecidableEq, Repr

def serve (entry : Option Bucket) (request : Request Ip) : Bool × Option Bucket :=
  let bucket := Bucket.record request.now entry
  (maxRequests < bucket.count, some bucket)

theorem isRateLimited_eq [DecidableEq Ip] (limiter : RateLimiter Ip) (request : Request Ip) :
    isRateLimited limiter request.ip request.now =
      ((serve (limiter request.ip) request).1, Keyed.step serve Request.ip limiter request) := rfl

/-- The request is in the half-open interval of one window's length from `t` on. -/
def within (t : Nat) (request : Request Ip) : Bool := t ≤ request.now && request.now < t + window

section Bucket

variable {front : List (Request Ip)} {next : Request Ip}

/-- The bucket counts the requests since its window opened, and the window is not over. -/
structure Tracks (front : List (Request Ip)) (bucket : Bucket) : Prop where
  opened : ∃ r ∈ front, r.now = bucket.windowStart
  inside : ∀ r ∈ front, r.now < bucket.windowStart + window
  counted : bucket.count.toNat = front.countP fun r => bucket.windowStart ≤ r.now

def Tracked (front : List (Request Ip)) : Option Bucket → Prop
  | none => front = []
  | some bucket => Tracks front bucket

/-- The counter does not overflow in any window. -/
def Few (requests : List (Request Ip)) : Prop := ∀ t, requests.countP (within t) < 2 ^ 32

def Sorted (requests : List (Request Ip)) : Prop := requests.Pairwise fun a b => a.now ≤ b.now

theorem Tracks.countP_within {bucket : Bucket} (tracks : Tracks front bucket) :
    front.countP (within bucket.windowStart) = bucket.count.toNat := by
  rw [tracks.counted]
  apply List.countP_congr
  intro r member
  simp [within, tracks.inside r member]

theorem record_opens {entry : Option Bucket}
    (elapsed : ∀ bucket ∈ entry, bucket.windowStart + window ≤ next.now) :
    Bucket.record next.now entry = ⟨1, next.now⟩ := by
  cases entry with
  | none => simp [Bucket.record]
  | some bucket =>
      have late : window ≤ next.now - bucket.windowStart := by
        have := elapsed bucket rfl
        omega
      simp [Bucket.record, late]

theorem record_continues {bucket : Bucket} (current : next.now < bucket.windowStart + window) :
    Bucket.record next.now (some bucket) = ⟨bucket.count + 1, bucket.windowStart⟩ := by
  have early : ¬ window ≤ next.now - bucket.windowStart := by
    have : 0 < window := by decide
    omega
  simp [Bucket.record, early]

theorem record_cases (entry : Option Bucket) (next : Request Ip) :
    ((∀ bucket ∈ entry, bucket.windowStart + window ≤ next.now) ∧
      Bucket.record next.now entry = ⟨1, next.now⟩) ∨
    ∃ bucket, entry = some bucket ∧ next.now < bucket.windowStart + window ∧
      Bucket.record next.now entry = ⟨bucket.count + 1, bucket.windowStart⟩ := by
  by_cases elapsed : ∀ bucket ∈ entry, bucket.windowStart + window ≤ next.now
  · exact .inl ⟨elapsed, record_opens elapsed⟩
  · simp only [not_forall, Nat.not_le] at elapsed
    rcases elapsed with ⟨bucket, found, current⟩
    rw [Option.mem_def] at found
    subst found
    exact .inr ⟨bucket, rfl, current, record_continues current⟩

theorem before_of_elapsed {entry : Option Bucket} (tracked : Tracked front entry)
    (elapsed : ∀ bucket ∈ entry, bucket.windowStart + window ≤ next.now) :
    ∀ r ∈ front, r.now < next.now := by
  intro r member
  cases entry with
  | none =>
      rw [tracked] at member
      cases member
  | some bucket =>
      have inside := tracked.inside r member
      have := elapsed bucket rfl
      omega

theorem tracks_opens {entry : Option Bucket} (tracked : Tracked front entry)
    (elapsed : ∀ bucket ∈ entry, bucket.windowStart + window ≤ next.now) :
    Tracks (front ++ [next]) ⟨1, next.now⟩ := by
  have before := before_of_elapsed tracked elapsed
  constructor
  · exact ⟨next, by simp, rfl⟩
  · intro r member
    have : 0 < window := by decide
    rcases List.mem_append.mp member with member | member
    · have := before r member
      dsimp only
      omega
    · rw [List.mem_singleton.mp member]
      dsimp only
      omega
  · have none_left : front.countP (fun r => next.now ≤ r.now) = 0 := by
      rw [List.countP_eq_zero]
      intro r member
      have := before r member
      simpa using this
    rw [List.countP_append, none_left]
    simp

theorem tracks_continues {bucket : Bucket} (tracks : Tracks front bucket)
    (opened : bucket.windowStart ≤ next.now) (current : next.now < bucket.windowStart + window)
    (few : Few (front ++ [next])) :
    Tracks (front ++ [next]) ⟨bucket.count + 1, bucket.windowStart⟩ := by
  have inside : ∀ r ∈ front ++ [next], r.now < bucket.windowStart + window := by
    intro r member
    rcases List.mem_append.mp member with member | member
    · exact tracks.inside r member
    · rw [List.mem_singleton.mp member]
      exact current
  have count : (front ++ [next]).countP (fun r => bucket.windowStart ≤ r.now) =
      bucket.count.toNat + 1 := by
    rw [List.countP_append, ← tracks.counted]
    simp [opened]
  constructor
  · rcases tracks.opened with ⟨r, member, same⟩
    exact ⟨r, List.mem_append_left _ member, same⟩
  · exact inside
  · have bound := few bucket.windowStart
    have all : (front ++ [next]).countP (within bucket.windowStart) = bucket.count.toNat + 1 := by
      rw [← count]
      apply List.countP_congr
      intro r member
      simp [within, inside r member]
    rw [all] at bound
    rw [count, UInt32.toNat_add, UInt32.toNat_one, Nat.mod_eq_of_lt bound]

theorem Tracks.windowStart_le {bucket : Bucket} (tracks : Tracks front bucket)
    (latest : ∀ r ∈ front, r.now ≤ next.now) : bucket.windowStart ≤ next.now := by
  rcases tracks.opened with ⟨r, member, same⟩
  exact same ▸ latest r member

theorem tracks_record {entry : Option Bucket} (tracked : Tracked front entry)
    (latest : ∀ r ∈ front, r.now ≤ next.now) (few : Few (front ++ [next])) :
    Tracks (front ++ [next]) (Bucket.record next.now entry) := by
  rcases record_cases entry next with ⟨elapsed, now⟩ | ⟨bucket, rfl, current, now⟩
  · rw [now]
    exact tracks_opens tracked elapsed
  · rw [now]
    exact tracks_continues tracked (tracked.windowStart_le latest) current few

theorem few_front {front back : List (Request Ip)} (few : Few (front ++ back)) : Few front := by
  intro t
  have bound := few t
  rw [List.countP_append] at bound
  omega

theorem sorted_front {front back : List (Request Ip)} (sorted : Sorted (front ++ back)) :
    Sorted front := (List.pairwise_append.mp sorted).1

theorem sorted_latest {front back : List (Request Ip)} (sorted : Sorted (front ++ next :: back)) :
    ∀ r ∈ front, r.now ≤ next.now :=
  fun r member => (List.pairwise_append.mp sorted).2.2 r member next List.mem_cons_self

theorem tracked_entryAfter (sorted : Sorted front) (few : Few front) :
    Tracked front (Keyed.entryAfter serve none front) := by
  induction front using List.reverseRecOn with
  | nil => rfl
  | append_singleton front next ih =>
      rw [Keyed.entryAfter_append]
      exact tracks_record (ih (sorted_front sorted) (few_front few)) (sorted_latest sorted) few

/-- No interval has more accepted requests than two windows allow: those of the current window, and
those before it, which fit in one window if the interval reaches into the current one. -/
structure Bounded (answered : List (Request Ip × Bool)) (bucket : Bucket) : Prop where
  all : ∀ t, Keyed.tally not answered (within t) ≤ 2 * maxRequests.toNat
  current : Keyed.tally not answered (fun r => bucket.windowStart ≤ r.now) ≤ maxRequests.toNat
  earlier : ∀ t, bucket.windowStart < t + window →
    Keyed.tally not answered (fun r => t ≤ r.now && r.now < bucket.windowStart) ≤
      maxRequests.toNat

theorem rejected_iff (bucket : Bucket) :
    decide (maxRequests < bucket.count) = true ↔ maxRequests.toNat < bucket.count.toNat := by
  rw [decide_eq_true_iff, UInt32.lt_iff_toNat_lt]

/-- The requests from `t` on that a new window finds behind it are of the window before it, if the
new one begins within a window's length of `t`. -/
theorem tally_before_opening {entry : Option Bucket} {answered : List (Request Ip × Bool)}
    (front_eq : answered.map Prod.fst = front) (tracked : Tracked front entry)
    (bounded : ∀ bucket ∈ entry, Bounded answered bucket)
    (elapsed : ∀ bucket ∈ entry, bucket.windowStart + window ≤ next.now) {t : Nat}
    (near : next.now < t + window) :
    Keyed.tally not answered (fun r => t ≤ r.now) ≤ maxRequests.toNat := by
  cases entry with
  | none =>
      have nothing : answered = [] := List.map_eq_nil_iff.mp (front_eq.trans tracked)
      rw [nothing]
      exact Nat.zero_le _
  | some bucket =>
      have past := elapsed bucket rfl
      calc
        _ ≤ Keyed.tally not answered (fun r => bucket.windowStart ≤ r.now) := by
          apply Keyed.tally_mono
          intro answer _ _ late
          simp only [decide_eq_true_eq] at late ⊢
          omega
        _ ≤ maxRequests.toNat := (bounded bucket rfl).current

theorem bounded_opens {entry : Option Bucket} {answered : List (Request Ip × Bool)}
    (front_eq : answered.map Prod.fst = front) (tracked : Tracked front entry)
    (bounded : ∀ bucket ∈ entry, Bounded answered bucket)
    (elapsed : ∀ bucket ∈ entry, bucket.windowStart + window ≤ next.now) :
    Bounded (answered ++ [(next, false)]) ⟨1, next.now⟩ := by
  have before : ∀ answer ∈ answered, answer.1.now < next.now := fun answer member =>
    before_of_elapsed tracked elapsed answer.1 (front_eq ▸ List.mem_map_of_mem member)
  have earlier : ∀ t, next.now < t + window →
      Keyed.tally not answered (fun r => t ≤ r.now) ≤ maxRequests.toNat :=
    fun t near => tally_before_opening front_eq tracked bounded elapsed near
  have positive : 0 < window := by decide
  have limit : 1 ≤ maxRequests.toNat := by decide
  constructor
  · intro t
    rw [Keyed.tally_concat]
    by_cases near : next.now < t + window
    · have fits : Keyed.tally not answered (within t) ≤
          Keyed.tally not answered (fun r => t ≤ r.now) := by
        apply Keyed.tally_mono
        intro answer _ _ both
        simp only [within, Bool.and_eq_true, decide_eq_true_eq] at both ⊢
        exact both.1
      have := earlier t near
      split <;> omega
    · have outside : within t next = false := by
        simp only [within, Bool.and_eq_false_iff, decide_eq_false_iff_not]
        omega
      rw [outside]
      cases entry with
      | none =>
          have nothing : answered = [] := List.map_eq_nil_iff.mp (front_eq.trans tracked)
          rw [nothing]
          exact Nat.zero_le _
      | some bucket => simpa using (bounded bucket rfl).all t
  · rw [Keyed.tally_concat, Keyed.tally_eq_zero]
    · simpa using limit
    · intro answer member _
      have := before answer member
      simp only [decide_eq_false_iff_not]
      omega
  · intro t near
    rw [Keyed.tally_concat]
    have fits : Keyed.tally not answered (fun r => t ≤ r.now && r.now < next.now) ≤
        Keyed.tally not answered (fun r => t ≤ r.now) := by
      apply Keyed.tally_mono
      intro answer _ _ both
      simp only [Bool.and_eq_true, decide_eq_true_eq] at both ⊢
      exact both.1
    have := earlier t near
    simp only [Nat.lt_irrefl, decide_false, Bool.and_false, Bool.false_and, Bool.false_eq_true,
      if_false]
    omega

theorem bounded_continues {bucket : Bucket} {answered : List (Request Ip × Bool)}
    (front_eq : answered.map Prod.fst = front) (bounded : Bounded answered bucket)
    (opened : bucket.windowStart ≤ next.now)
    (tracks : Tracks (front ++ [next]) ⟨bucket.count + 1, bucket.windowStart⟩) :
    Bounded (answered ++ [(next, decide (maxRequests < bucket.count + 1))])
      ⟨bucket.count + 1, bucket.windowStart⟩ := by
  have current : Keyed.tally not (answered ++ [(next, decide (maxRequests < bucket.count + 1))])
      (fun r => bucket.windowStart ≤ r.now) ≤ maxRequests.toNat := by
    by_cases full : maxRequests.toNat < (bucket.count + 1).toNat
    · rw [Keyed.tally_concat, (rejected_iff ⟨bucket.count + 1, bucket.windowStart⟩).mpr full]
      simpa using bounded.current
    · calc
        _ ≤ (front ++ [next]).countP (fun r => bucket.windowStart ≤ r.now) := by
          have all := Keyed.tally_le_countP not
            (answered ++ [(next, decide (maxRequests < bucket.count + 1))])
            (fun r => bucket.windowStart ≤ r.now)
          rwa [List.map_append, front_eq] at all
        _ = (bucket.count + 1).toNat := tracks.counted.symm
        _ ≤ maxRequests.toNat := by omega
  have earlier : ∀ t, bucket.windowStart < t + window →
      Keyed.tally not (answered ++ [(next, decide (maxRequests < bucket.count + 1))])
        (fun r => t ≤ r.now && r.now < bucket.windowStart) ≤ maxRequests.toNat := by
    intro t near
    have not_before : (next.now < bucket.windowStart) = False := by
      simp only [eq_iff_iff, iff_false]
      omega
    rw [Keyed.tally_concat]
    simpa [not_before] using bounded.earlier t near
  refine ⟨?_, current, earlier⟩
  intro t
  by_cases near : bucket.windowStart < t + window
  · have split := Keyed.tally_le_add not
      (answered ++ [(next, decide (maxRequests < bucket.count + 1))]) (within t)
      (fun r => bucket.windowStart ≤ r.now) (fun r => t ≤ r.now && r.now < bucket.windowStart) (by
        intro answer _ _ inside
        simp only [within, Bool.and_eq_true, decide_eq_true_eq] at inside ⊢
        omega)
    have := earlier t near
    omega
  · have outside : within t next = false := by
      simp only [within, Bool.and_eq_false_iff, decide_eq_false_iff_not]
      omega
    rw [Keyed.tally_concat, outside]
    simpa using bounded.all t

theorem bounded_step {entry : Option Bucket} {answered : List (Request Ip × Bool)}
    (front_eq : answered.map Prod.fst = front) (tracked : Tracked front entry)
    (bounded : ∀ bucket ∈ entry, Bounded answered bucket)
    (latest : ∀ r ∈ front, r.now ≤ next.now) (few : Few (front ++ [next])) :
    Bounded (answered ++ [(next, (serve entry next).1)]) (Bucket.record next.now entry) := by
  have tracks := tracks_record tracked latest few
  rw [serve]
  rcases record_cases entry next with ⟨elapsed, now⟩ | ⟨bucket, rfl, current, now⟩
  · rw [now]
    exact bounded_opens front_eq tracked bounded elapsed
  · rw [now] at tracks ⊢
    exact bounded_continues front_eq (bounded bucket rfl) (tracked.windowStart_le latest) tracks

theorem bounded_entryAfter (sorted : Sorted front) (few : Few front) :
    ∀ bucket ∈ Keyed.entryAfter serve none front,
      Bounded (Keyed.answersAt serve none front) bucket := by
  induction front using List.reverseRecOn with
  | nil =>
      intro bucket found
      cases found
  | append_singleton front next ih =>
      have sorted_before := sorted_front sorted
      have few_before := few_front few
      intro bucket found
      rw [Keyed.entryAfter_append] at found
      cases found
      rw [Keyed.answersAt_concat]
      exact bounded_step (Keyed.map_fst_answersAt none front)
        (tracked_entryAfter sorted_before few_before) (ih sorted_before few_before)
        (sorted_latest sorted) few

theorem accepted_within (sorted : Sorted front) (few : Few front) (t : Nat) :
    Keyed.tally not (Keyed.answersAt serve none front) (within t) ≤ 2 * maxRequests.toNat := by
  cases found : Keyed.entryAfter serve none front with
  | none =>
      have tracked := tracked_entryAfter sorted few
      rw [found] at tracked
      rw [tracked]
      exact Nat.zero_le _
  | some bucket => exact (bounded_entryAfter sorted few bucket found).all t

theorem serve_entryAfter (front : List (Request Ip)) (next : Request Ip) :
    Keyed.entryAfter serve none (front ++ [next]) =
      some (Bucket.record next.now (Keyed.entryAfter serve none front)) :=
  Keyed.entryAfter_append none front [next]

theorem rejected_iff_countP (sorted : Sorted (front ++ [next])) (few : Few (front ++ [next])) :
    (serve (Keyed.entryAfter serve none front) next).1 = true ↔
      ∃ bucket, Keyed.entryAfter serve none (front ++ [next]) = some bucket ∧
        maxRequests.toNat < (front ++ [next]).countP (within bucket.windowStart) := by
  have tracks := tracked_entryAfter sorted few
  rw [serve_entryAfter] at tracks ⊢
  rw [serve, rejected_iff, ← Tracks.countP_within tracks]
  simp

theorem windowStart_entryAfter {bucket : Bucket} {requests : List (Request Ip)}
    (current : ∀ r ∈ requests, r.now < bucket.windowStart + window) :
    ∃ count, Keyed.entryAfter serve (some bucket) requests = some ⟨count, bucket.windowStart⟩ := by
  induction requests generalizing bucket with
  | nil => exact ⟨bucket.count, rfl⟩
  | cons r rest ih =>
      have first := current r List.mem_cons_self
      have next : ∃ count, Keyed.entryAfter serve
          (some ⟨bucket.count + 1, bucket.windowStart⟩) rest =
            some ⟨count, bucket.windowStart⟩ := by
        apply ih
        exact fun r member => current r (List.mem_cons_of_mem _ member)
      rcases next with ⟨count, found⟩
      exists count
      rw [← found, ← record_continues first]
      rfl

/-- The counter of a window that turned a request away stays above the limit. -/
theorem rejects_while_current {first : Request Ip} {rest : List (Request Ip)} {bucket : Bucket}
    (sorted : Sorted (front ++ first :: rest ++ [next]))
    (few : Few (front ++ first :: rest ++ [next]))
    (rejected : (serve (Keyed.entryAfter serve none front) first).1 = true)
    (found : Keyed.entryAfter serve none (front ++ [first]) = some bucket)
    (current : next.now < bucket.windowStart + window) :
    (serve (Keyed.entryAfter serve none (front ++ first :: rest)) next).1 = true := by
  have split : front ++ first :: rest ++ [next] = (front ++ [first]) ++ (rest ++ [next]) := by simp
  have before : ∀ r ∈ rest ++ [next], r.now < bucket.windowStart + window := by
    intro r member
    rcases List.mem_append.mp member with member | member
    · have := sorted_latest sorted r (List.mem_append_right _ (List.mem_cons_of_mem _ member))
      omega
    · rwa [List.mem_singleton.mp member]
  rcases windowStart_entryAfter before with ⟨count, now⟩
  rw [rejected_iff_countP sorted few]
  refine ⟨⟨count, bucket.windowStart⟩, ?_, ?_⟩
  · rw [split, Keyed.entryAfter_append, found, now]
  · rw [split] at sorted few ⊢
    rw [rejected_iff_countP (sorted_front sorted) (few_front few), found] at rejected
    rcases rejected with ⟨same, equal, full⟩
    cases equal
    rw [List.countP_append]
    exact Nat.lt_of_lt_of_le full (Nat.le_add_right _ _)

theorem accepts_when_over {first : Request Ip} {rest : List (Request Ip)} {bucket : Bucket}
    (found : Keyed.entryAfter serve none (front ++ [first]) = some bucket)
    (current : ∀ r ∈ rest, r.now < bucket.windowStart + window)
    (elapsed : bucket.windowStart + window ≤ next.now) :
    (serve (Keyed.entryAfter serve none (front ++ first :: rest)) next).1 = false := by
  have split : front ++ first :: rest = (front ++ [first]) ++ rest := by simp
  rcases windowStart_entryAfter current with ⟨count, now⟩
  rw [split, Keyed.entryAfter_append, found, now, serve, record_opens]
  · rfl
  · intro bucket found
    cases found
    exact elapsed

/-- An address whose requests fit the limit in each interval is never turned away. -/
theorem quiet_accepted (sorted : Sorted (front ++ [next])) (few : Few (front ++ [next]))
    (quiet : ∀ t, (front ++ [next]).countP (within t) ≤ maxRequests.toNat) :
    (serve (Keyed.entryAfter serve none front) next).1 = false := by
  rw [← Bool.not_eq_true, rejected_iff_countP sorted few]
  intro holds
  rcases holds with ⟨bucket, _, full⟩
  have := quiet bucket.windowStart
  omega

end Bucket

section Limiter

variable [DecidableEq Ip]

def limiterAfter (limiter : RateLimiter Ip) (requests : List (Request Ip)) : RateLimiter Ip :=
  requests.foldl (fun limiter request => (isRateLimited limiter request.ip request.now).2) limiter

def decisions (limiter : RateLimiter Ip) : List (Request Ip) → List (Request Ip × Bool)
  | [] => []
  | request :: rest =>
    let (rejected, limiter) := isRateLimited limiter request.ip request.now
    (request, rejected) :: decisions limiter rest

def own (ip : Ip) (requests : List (Request Ip)) : List (Request Ip) :=
  requests.filter fun request => request.ip = ip

def rejects (front : List (Request Ip)) (next : Request Ip) : Bool :=
  (isRateLimited (limiterAfter newRateLimiter front) next.ip next.now).1

/-- The answers to the requests made so far, and what is known of the next ones. -/
structure Contract (requests : List (Request Ip)) : Prop where
  bounded : ∀ ip t,
    (decisions newRateLimiter requests).countP
      (fun answer => answer.1.ip = ip && within t answer.1 && !answer.2) ≤ 2 * maxRequests.toNat
  quiet : ∀ ip, (∀ t, (own ip requests).countP (within t) ≤ maxRequests.toNat) →
    ∀ answer ∈ decisions newRateLimiter requests, answer.1.ip = ip → answer.2 = false
  blocked : ∀ front first rest next back, requests = front ++ first :: rest ++ next :: back →
    rejects front first = true → next.ip = first.ip →
    ∃ bucket, limiterAfter newRateLimiter (front ++ [first]) first.ip = some bucket ∧
      (next.now < bucket.windowStart + window → rejects (front ++ first :: rest) next = true) ∧
      (bucket.windowStart + window ≤ next.now →
        (∀ r ∈ own first.ip rest, r.now < bucket.windowStart + window) →
        rejects (front ++ first :: rest) next = false)
  independent : ∀ ip,
    ((decisions newRateLimiter requests).filter fun answer => answer.1.ip = ip) =
      decisions newRateLimiter (own ip requests)

theorem decisions_eq (limiter : RateLimiter Ip) (requests : List (Request Ip)) :
    decisions limiter requests = Keyed.answers serve Request.ip limiter requests := by
  induction requests generalizing limiter with
  | nil => rfl
  | cons request rest ih =>
      rw [decisions, Keyed.answers, isRateLimited_eq, ← ih]

theorem limiterAfter_eq (limiter : RateLimiter Ip) (requests : List (Request Ip)) :
    limiterAfter limiter requests = Keyed.after serve Request.ip limiter requests := rfl

theorem limiterAfter_own (requests : List (Request Ip)) (ip : Ip) :
    limiterAfter newRateLimiter requests ip = Keyed.entryAfter serve none (own ip requests) := by
  rw [limiterAfter_eq, Keyed.after_key]
  rfl

theorem decisions_own (requests : List (Request Ip)) (ip : Ip) :
    ((decisions newRateLimiter requests).filter fun answer => answer.1.ip = ip) =
      Keyed.answersAt serve none (own ip requests) := by
  rw [decisions_eq, Keyed.answers_key]
  rfl

theorem rejects_own (front : List (Request Ip)) (next : Request Ip) :
    rejects front next = (serve (Keyed.entryAfter serve none (own next.ip front)) next).1 := by
  rw [rejects, isRateLimited_eq, limiterAfter_own]

theorem own_append (ip : Ip) (front back : List (Request Ip)) :
    own ip (front ++ back) = own ip front ++ own ip back := List.filter_append front back

theorem own_cons {ip : Ip} {next : Request Ip} (same : next.ip = ip) (rest : List (Request Ip)) :
    own ip (next :: rest) = next :: own ip rest :=
  List.filter_cons_of_pos (by simpa using same)

theorem sorted_own {requests : List (Request Ip)} (sorted : Sorted requests) (ip : Ip) :
    Sorted (own ip requests) := List.Pairwise.filter _ sorted

def FewOwn (requests : List (Request Ip)) : Prop := ∀ ip, Few (own ip requests)

theorem bounded_decisions {requests : List (Request Ip)} (sorted : Sorted requests)
    (few : FewOwn requests) (ip : Ip) (t : Nat) :
    (decisions newRateLimiter requests).countP
      (fun answer => answer.1.ip = ip && within t answer.1 && !answer.2) ≤
        2 * maxRequests.toNat := by
  have bound := accepted_within (sorted_own sorted ip) (few ip) t
  rw [← decisions_own, Keyed.tally, List.countP_filter] at bound
  calc
    _ = (decisions newRateLimiter requests).countP
        (fun answer => within t answer.1 && !answer.2 && answer.1.ip = ip) := by
      apply List.countP_congr
      intro answer _
      rw [Bool.and_assoc, Bool.and_comm]
    _ ≤ 2 * maxRequests.toNat := bound

theorem quiet_decisions {requests : List (Request Ip)} (sorted : Sorted requests)
    (few : FewOwn requests) (ip : Ip)
    (quiet : ∀ t, (own ip requests).countP (within t) ≤ maxRequests.toNat) :
    ∀ answer ∈ decisions newRateLimiter requests, answer.1.ip = ip → answer.2 = false := by
  intro answer member same
  have member : answer ∈ Keyed.answersAt serve none (own ip requests) := by
    rw [← decisions_own, List.mem_filter]
    exact ⟨member, by simpa using same⟩
  have sorted := sorted_own sorted ip
  have few := few ip
  generalize own ip requests = front at *
  induction front using List.reverseRecOn with
  | nil => cases member
  | append_singleton front next ih =>
      rw [Keyed.answersAt_concat] at member
      rcases List.mem_append.mp member with member | member
      · apply ih _ member (sorted_front sorted) (few_front few)
        intro t
        have := quiet t
        rw [List.countP_append] at this
        omega
      · rw [List.mem_singleton.mp member]
        exact quiet_accepted sorted few quiet

theorem limiter_contract {requests : List (Request Ip)} (sorted : Sorted requests)
    (few : FewOwn requests) : Contract requests := by
  constructor
  · exact bounded_decisions sorted few
  · exact quiet_decisions sorted few
  · intro front first rest next back split rejected same
    have sorted := sorted_own sorted first.ip
    have few := few first.ip
    have split : own first.ip requests =
        own first.ip front ++ first :: own first.ip rest ++ [next] ++ own first.ip back := by
      rw [split, own_append, own_append, own_cons rfl, own_cons same]
      simp
    rw [split] at sorted few
    have sorted := sorted_front sorted
    have few := few_front few
    have now : rejects (front ++ first :: rest) next =
        (serve (Keyed.entryAfter serve none
          (own first.ip front ++ first :: own first.ip rest)) next).1 := by
      rw [rejects_own, same, own_append, own_cons rfl]
    rw [rejects_own] at rejected
    refine ⟨Bucket.record first.now (Keyed.entryAfter serve none (own first.ip front)), ?_, ?_, ?_⟩
    · rw [limiterAfter_own, own_append, own_cons rfl]
      exact serve_entryAfter _ first
    · intro current
      rw [now]
      exact rejects_while_current sorted few rejected (serve_entryAfter _ first) current
    · intro elapsed before
      rw [now]
      exact accepts_when_over (serve_entryAfter _ first) before elapsed
  · intro ip
    rw [decisions_eq, decisions_eq]
    exact Keyed.answers_independent newRateLimiter requests ip

/-- A burst over the limit and a request when its window is over. -/
theorem contract_of_burst :
    rejects (List.replicate 60 (⟨7, 0⟩ : Request Nat)) ⟨7, 0⟩ = true ∧
      Contract (List.replicate 61 (⟨7, 0⟩ : Request Nat) ++ [⟨7, window⟩]) := by
  constructor
  · decide +kernel
  · apply limiter_contract
    · unfold Sorted
      decide +kernel
    · intro ip t
      have all : (own ip (List.replicate 61 (⟨7, 0⟩ : Request Nat) ++ [⟨7, window⟩])).length ≤ 62 :=
        List.length_filter_le _ _
      exact Nat.lt_of_le_of_lt (Nat.le_trans List.countP_le_length all) (by decide)

end Limiter

end RateLimit

end TinyWifi
