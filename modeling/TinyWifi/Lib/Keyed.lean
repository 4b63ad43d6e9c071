import Mathlib.Logic.Function.Basic
import Mathlib.Tactic.Common

/-! A table with one entry for each key that is asked one request at a time. A request sees and
changes the entry of its key alone. -/

namespace Keyed

variable {κ β ι δ : Type*} (serve : Option β → ι → δ × Option β)

section Entry

def entryAfter (entry : Option β) (requests : List ι) : Option β :=
  requests.foldl (fun entry request => (serve entry request).2) entry

def answersAt (entry : Option β) : List ι → List (ι × δ)
  | [] => []
  | request :: rest =>
    (request, (serve entry request).1) :: answersAt (serve entry request).2 rest

variable {serve}

theorem entryAfter_append (entry : Option β) (front back : List ι) :
    entryAfter serve entry (front ++ back) =
      entryAfter serve (entryAfter serve entry front) back :=
  List.foldl_append

theorem answersAt_append (entry : Option β) (front back : List ι) :
    answersAt serve entry (front ++ back) =
      answersAt serve entry front ++ answersAt serve (entryAfter serve entry front) back := by
  induction front generalizing entry with
  | nil => rfl
  | cons request rest ih =>
      rw [List.cons_append, answersAt, answersAt, ih, List.cons_append]
      rfl

theorem answersAt_concat (entry : Option β) (front : List ι) (request : ι) :
    answersAt serve entry (front ++ [request]) =
      answersAt serve entry front ++
        [(request, (serve (entryAfter serve entry front) request).1)] :=
  answersAt_append entry front [request]

theorem map_fst_answersAt (entry : Option β) (requests : List ι) :
    (answersAt serve entry requests).map Prod.fst = requests := by
  induction requests generalizing entry with
  | nil => rfl
  | cons request rest ih => rw [answersAt, List.map_cons, ih]

theorem mem_of_mem_answersAt {entry : Option β} {requests : List ι} {answer : ι × δ}
    (member : answer ∈ answersAt serve entry requests) : answer.1 ∈ requests := by
  have inside := List.mem_map_of_mem member (f := Prod.fst)
  rwa [map_fst_answersAt] at inside

/-- The answers around one request: those before it, its own, and those after it. -/
theorem answersAt_around {entry : Option β} {requests : List ι} {front back : List (ι × δ)}
    {request : ι} {answer : δ}
    (split : answersAt serve entry requests = front ++ (request, answer) :: back) :
    requests = front.map Prod.fst ++ request :: back.map Prod.fst ∧
      front = answersAt serve entry (front.map Prod.fst) ∧
      answer = (serve (entryAfter serve entry (front.map Prod.fst)) request).1 ∧
      back = answersAt serve (entryAfter serve entry (front.map Prod.fst ++ [request]))
        (back.map Prod.fst) := by
  have names : requests = front.map Prod.fst ++ request :: back.map Prod.fst := by
    rw [← @map_fst_answersAt _ _ _ serve entry requests, split, List.map_append, List.map_cons]
  have parts := split
  rw [names, answersAt_append] at parts
  have same := List.append_inj parts (by
    rw [← List.length_map Prod.fst, map_fst_answersAt, List.length_map])
  rw [answersAt, List.cons.injEq] at same
  refine ⟨names, same.1.symm, (congrArg Prod.snd same.2.1).symm, ?_⟩
  rw [entryAfter_append]
  exact same.2.2.symm

end Entry

section Tally

variable (pass : δ → Bool)

/-- How many of the requests in a set got an answer of one kind. -/
def tally (answered : List (ι × δ)) (inside : ι → Bool) : Nat :=
  answered.countP fun answer => inside answer.1 && pass answer.2

theorem tally_le_countP (answered : List (ι × δ)) (inside : ι → Bool) :
    tally pass answered inside ≤ (answered.map Prod.fst).countP inside := by
  rw [List.countP_map]
  apply List.countP_mono_left
  intro answer _ both
  exact (Bool.and_eq_true_iff.mp both).1

variable {pass}

theorem tally_concat (answered : List (ι × δ)) (request : ι) (answer : δ) (inside : ι → Bool) :
    tally pass (answered ++ [(request, answer)]) inside =
      tally pass answered inside + if inside request && pass answer then 1 else 0 := by
  rw [tally, List.countP_append, List.countP_singleton]
  rfl

theorem tally_mono {answered : List (ι × δ)} {inside other : ι → Bool}
    (weaker : ∀ answer ∈ answered, pass answer.2 → inside answer.1 → other answer.1) :
    tally pass answered inside ≤ tally pass answered other := by
  apply List.countP_mono_left
  intro answer member both
  rw [Bool.and_eq_true_iff] at both ⊢
  exact ⟨weaker answer member both.2 both.1, both.2⟩

theorem tally_le_add (pass : δ → Bool) (answered : List (ι × δ)) (inside one other : ι → Bool)
    (split : ∀ answer ∈ answered, pass answer.2 → inside answer.1 →
      one answer.1 ∨ other answer.1) :
    tally pass answered inside ≤ tally pass answered one + tally pass answered other := by
  have both : tally pass answered inside ≤ tally pass answered (fun r => one r || other r) :=
    tally_mono fun answer member passed within =>
      Bool.or_eq_true_iff.mpr (split answer member passed within)
  have apart : tally pass answered (fun r => one r || other r) ≤
      tally pass answered one + tally pass answered other := by
    clear split both
    induction answered with
    | nil => exact Nat.le_refl 0
    | cons answer rest ih =>
        simp only [tally, List.countP_cons] at ih ⊢
        cases one answer.1 <;> cases other answer.1 <;> cases pass answer.2 <;> simp <;> omega
  exact Nat.le_trans both apart

theorem tally_eq_zero {answered : List (ι × δ)} {inside : ι → Bool}
    (outside : ∀ answer ∈ answered, pass answer.2 → inside answer.1 = false) :
    tally pass answered inside = 0 := by
  rw [tally, List.countP_eq_zero]
  intro answer member both
  rw [Bool.and_eq_true_iff] at both
  rw [outside answer member both.2] at both
  cases both.1

end Tally

section Table

variable [DecidableEq κ] (key : ι → κ)

def step (table : κ → Option β) (request : ι) : κ → Option β :=
  Function.update table (key request) (serve (table (key request)) request).2

def after (table : κ → Option β) (requests : List ι) : κ → Option β :=
  requests.foldl (step serve key) table

def answers (table : κ → Option β) : List ι → List (ι × δ)
  | [] => []
  | request :: rest =>
    (request, (serve (table (key request)) request).1) ::
      answers (step serve key table request) rest

variable {serve key}

theorem map_fst_answers (table : κ → Option β) (requests : List ι) :
    (answers serve key table requests).map Prod.fst = requests := by
  induction requests generalizing table with
  | nil => rfl
  | cons request rest ih => rw [answers, List.map_cons, ih]

theorem after_key (table : κ → Option β) (requests : List ι) (k : κ) :
    after serve key table requests k =
      entryAfter serve (table k) (requests.filter fun request => key request = k) := by
  induction requests generalizing table with
  | nil => rfl
  | cons request rest ih =>
      have next := ih (step serve key table request)
      by_cases own : key request = k
      · rw [List.filter_cons_of_pos (by simpa using own)]
        subst own
        rw [step, Function.update_self] at next
        exact next
      · rw [List.filter_cons_of_neg (by simpa using own)]
        rw [step, Function.update_of_ne (Ne.symm own)] at next
        exact next

theorem answers_key (table : κ → Option β) (requests : List ι) (k : κ) :
    ((answers serve key table requests).filter fun answer => key answer.1 = k) =
      answersAt serve (table k) (requests.filter fun request => key request = k) := by
  induction requests generalizing table with
  | nil => rfl
  | cons request rest ih =>
      have next := ih (step serve key table request)
      by_cases own : key request = k
      · rw [answers, List.filter_cons_of_pos (by simpa using own),
          List.filter_cons_of_pos (by simpa using own), answersAt, next]
        subst own
        rw [step, Function.update_self]
      · rw [answers, List.filter_cons_of_neg (by simpa using own),
          List.filter_cons_of_neg (by simpa using own), next]
        rw [step, Function.update_of_ne (Ne.symm own)]

theorem answers_independent (table : κ → Option β) (requests : List ι) (k : κ) :
    ((answers serve key table requests).filter fun answer => key answer.1 = k) =
      answers serve key table (requests.filter fun request => key request = k) := by
  have again : (requests.filter fun request => key request = k).filter
      (fun request => key request = k) = requests.filter fun request => key request = k := by
    rw [List.filter_filter]
    simp only [Bool.and_self]
  rw [answers_key, ← again, ← answers_key, again, List.filter_eq_self]
  intro answer member
  have inside := List.mem_map_of_mem member (f := Prod.fst)
  rw [map_fst_answers] at inside
  simpa using (List.mem_filter.mp inside).2

end Table

end Keyed
