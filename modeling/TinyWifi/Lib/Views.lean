import TinyWifi.Lib.Exec
import TinyWifi.Lib.Runs

/-! Programs that share a state of which each works on one part. What a part becomes along a run
depends on the operations that work on it, and on no others. -/

namespace Views

open Exec Runs

section Programs

variable {σ ε ε' α β υ : Type} {view : σ → υ}

/-- What the program returns, and what it makes of the part that the view shows, it takes from that
part. -/
def Through (view : σ → υ) (x : Exec σ ε α) : Prop :=
  ∀ s s', view s = view s' →
    (outcome x s).1 = (outcome x s').1 ∧ view (outcome x s).2 = view (outcome x s').2

/-- The program leaves the part that the view shows. -/
def Leaves (view : σ → υ) (x : Exec σ ε α) : Prop := Within (fun s s' => view s' = view s) x

theorem through_reading {f : σ → Except ε α} (seen : ∀ s s', view s = view s' → f s = f s') :
    Through view (reading f) := fun s s' same => ⟨seen s s' same, same⟩

theorem through_mapError {f : ε → ε'} {x : Exec σ ε α} (h : Through view x) :
    Through view (mapError f x) := by
  intro s s' same
  have inner := h s s' same
  rw [outcome_mapError, outcome_mapError]
  revert inner
  rcases outcome x s with ⟨first, t⟩
  rcases outcome x s' with ⟨second, t'⟩
  rintro ⟨rfl, kept⟩
  cases first with
  | error e => exact ⟨rfl, kept⟩
  | ok a => exact ⟨rfl, kept⟩

/-- The second part goes on from what the first may return. -/
theorem through_bind {x : Exec σ ε α} {f : α → Exec σ ε β} (first : Through view x)
    (rest : ∀ a s, (outcome x s).1 = .ok a → Through view (f a)) : Through view (x >>= f) := by
  intro s s' same
  have front := first s s' same
  rw [outcome_bind, outcome_bind]
  have later (a : α) (found : (outcome x s).1 = .ok a) : Through view (f a) := rest a s found
  revert front later
  rcases outcome x s with ⟨result, t⟩
  rcases outcome x s' with ⟨result', t'⟩
  rintro ⟨rfl, kept⟩ later
  cases result with
  | error e => exact ⟨rfl, kept⟩
  | ok a => exact later a rfl t t' kept

theorem through_ite {c : Prop} [Decidable c] {x y : Exec σ ε α} (yes : c → Through view x)
    (no : ¬ c → Through view y) : Through view (if c then x else y) := by
  split
  · exact yes ‹_›
  · exact no ‹_›

theorem leaves_reading (f : σ → Except ε α) : Leaves view (reading f) := fun _ => rfl

theorem leaves_mapError {f : ε → ε'} {x : Exec σ ε α} (h : Leaves view x) :
    Leaves view (mapError f x) := within_mapError h

theorem leaves_bind {x : Exec σ ε α} {f : α → Exec σ ε β} (first : Leaves view x)
    (rest : ∀ a s, (outcome x s).1 = .ok a → Leaves view (f a)) : Leaves view (x >>= f) := by
  intro s
  have front := first s
  rw [outcome_bind]
  have later (a : α) (found : (outcome x s).1 = .ok a) : Leaves view (f a) := rest a s found
  revert front later
  rcases outcome x s with ⟨result, middle⟩
  intro kept later
  cases result with
  | error e => exact kept
  | ok a => exact (later a rfl middle).trans kept

end Programs

section Systems

variable {σ ι υ α : Type*} {step : σ → ι → σ} {answer : σ → ι → α} {Inv : σ → Prop}
  {ok : ι → Prop} {view : σ → υ} {own : ι → Bool}

def log (step : σ → ι → σ) (answer : σ → ι → α) (s : σ) (ops : List ι) : List (ι × α) :=
  outputs step (fun s op => (op, answer s op)) s ops

theorem log_cons (s : σ) (op : ι) (rest : List ι) :
    log step answer s (op :: rest) = (op, answer s op) :: log step answer (step s op) rest := rfl

/-- Of the operations, some work on the part that the view shows, and the others leave it. -/
structure Separate (step : σ → ι → σ) (answer : σ → ι → α) (Inv : σ → Prop) (ok : ι → Prop)
    (view : σ → υ) (own : ι → Bool) : Prop where
  kept : ∀ s op, ok op → Inv s → Inv (step s op)
  through : ∀ s s' op, ok op → own op = true → Inv s → Inv s' → view s = view s' →
    answer s op = answer s' op ∧ view (step s op) = view (step s' op)
  leaves : ∀ s op, ok op → own op = false → Inv s → view (step s op) = view s

/-- Without the others, the operations of a part come to the same. -/
theorem Separate.run_filter (separate : Separate step answer Inv ok view own) {ops : List ι}
    (fine : ∀ op ∈ ops, ok op) {s s' : σ} (start : Inv s) (start' : Inv s')
    (same : view s = view s') :
    view (run step s ops) = view (run step s' (ops.filter own)) ∧
      (log step answer s ops).filter (fun entry => own entry.1) =
        log step answer s' (ops.filter own) := by
  induction ops generalizing s s' with
  | nil => exact ⟨same, rfl⟩
  | cons op rest ih =>
      have now := fine op List.mem_cons_self
      have later : ∀ op ∈ rest, ok op :=
        fun other member => fine other (List.mem_cons_of_mem op member)
      have after := separate.kept s op now start
      cases mine : own op with
      | false =>
          obtain ⟨ended, logged⟩ :=
            ih later after start' ((separate.leaves s op now mine start).trans same)
          simp only [List.filter_cons, log_cons, mine, Bool.false_eq_true, if_false]
          exact ⟨ended, logged⟩
      | true =>
          obtain ⟨answered, kept⟩ := separate.through s s' op now mine start start' same
          obtain ⟨ended, logged⟩ := ih later after (separate.kept s' op now start') kept
          simp only [List.filter_cons, log_cons, mine, if_true, answered]
          exact ⟨ended, congrArg _ logged⟩

end Systems

end Views
