import TinyWifi.Lib.LastWrite

/-! A table of times in which entries expire. An expired entry stays until somebody looks at it, and
what is answered does not depend on that. -/

namespace Expiring

variable {κ : Type*}

inductive Op (κ : Type*)
  | issue (k : κ) (now : Nat)
  | check (k : κ) (now : Nat)
  | revoke (k : κ)
  deriving DecidableEq, Repr

namespace Op

/-- The entry that the operation is meant to change. -/
def cell : Op κ → Option κ
  | .issue k _ | .revoke k => some k
  | .check _ _ => none

def value : Op κ → Option Nat
  | .issue _ now => some now
  | .check _ _ | .revoke _ => none

/-- Revoking takes no notice of the time. -/
def within (now : Nat) : Op κ → Prop
  | .issue _ _ | .revoke _ => True
  | .check _ looked => looked ≤ now

end Op

def fresh (ttl : Nat) (entry : Option Nat) (now : Nat) : Bool :=
  entry.elim false fun t => now - t < ttl

variable [DecidableEq κ]

def check (ttl : Nat) (table : κ → Option Nat) (k : κ) (now : Nat) : Bool × (κ → Option Nat) :=
  match table k with
  | some t => if now - t < ttl then (true, table) else (false, Function.update table k none)
  | none => (false, table)

def step (ttl : Nat) (table : κ → Option Nat) : Op κ → κ → Option Nat
  | .issue k now => Function.update table k (some now)
  | .check k now => (check ttl table k now).2
  | .revoke k => Function.update table k none

/-- When the key was issued last, unless it was revoked after that. -/
def issued (ops : List (Op κ)) (k : κ) : Option Nat :=
  (LastWrite.last Op.cell Op.value ops k).getD none

/-- The table has what was issued, but for entries that have expired by now. -/
def Tracks (ttl now : Nat) (ops : List (Op κ)) (table : κ → Option Nat) : Prop :=
  ∀ k, table k = issued ops k ∨ (table k = none ∧ fresh ttl (issued ops k) now = false)

variable {ttl now later : Nat} {ops : List (Op κ)} {table : κ → Option Nat} {k : κ} {op : Op κ}

omit [DecidableEq κ] in
theorem fresh_of_later {entry : Option Nat} (after : now ≤ later)
    (stale : fresh ttl entry now = false) : fresh ttl entry later = false := by
  cases entry with
  | none => rfl
  | some t =>
      simp only [fresh, Option.elim, decide_eq_false_iff_not] at stale ⊢
      omega

theorem issued_concat (op : Op κ) :
    issued (ops ++ [op]) k = if op.cell = some k then op.value else issued ops k := by
  rw [issued, LastWrite.last, List.filter_append]
  by_cases hit : op.cell = some k
  · simp [hit]
  · simp [hit, issued, LastWrite.last]

/-- A key is valid from the time when it was issued last, if nothing was done to it since. -/
theorem issued_iff {t : Nat} : issued ops k = some t ↔
    ∃ front back, ops = front ++ .issue k t :: back ∧ ∀ op ∈ back, op.cell ≠ some k := by
  induction ops using List.reverseRecOn with
  | nil => simp [issued, LastWrite.last]
  | append_singleton front op ih =>
      rw [issued_concat]
      constructor
      · intro last
        split at last
        · next hit =>
            cases op with
            | issue there now =>
                cases hit
                cases last
                exact ⟨front, [], rfl, by simp⟩
            | check there now => cases hit
            | revoke there => cases last
        · next miss =>
            obtain ⟨before, after, rfl, untouched⟩ := ih.mp last
            refine ⟨before, after ++ [op], by simp, fun other member => ?_⟩
            obtain member | member := List.mem_append.mp member
            · exact untouched other member
            · rwa [List.mem_singleton.mp member]
      · rintro ⟨before, after, split, untouched⟩
        cases after using List.reverseRecOn with
        | nil =>
            obtain ⟨-, same⟩ := List.append_inj' split rfl
            cases same
            simp [Op.cell, Op.value]
        | append_singleton after last =>
            rw [← List.cons_append, ← List.append_assoc] at split
            obtain ⟨rest, same⟩ := List.append_inj' split rfl
            cases same
            rw [if_neg (untouched op (by simp)), ih]
            exact ⟨before, after, rest, fun other member => untouched other (by simp [member])⟩

theorem Tracks.check (tracks : Tracks ttl now ops table) (after : now ≤ later) :
    (check ttl table k later).1 = fresh ttl (issued ops k) later := by
  obtain same | ⟨missing, stale⟩ := tracks k
  · rw [← same, Expiring.check]
    cases entry : table k with
    | none => rfl
    | some t =>
        simp only [fresh, Option.elim]
        split <;> simp_all
  · rw [fresh_of_later after stale, Expiring.check, missing]

theorem check_of_ne {other : κ} (apart : other ≠ k) :
    (check ttl table k now).2 other = table other := by
  unfold check
  split
  · split
    · rfl
    · exact Function.update_of_ne apart ..
  · rfl

theorem check_self (ttl : Nat) (table : κ → Option Nat) (k : κ) (now : Nat) :
    (check ttl table k now).2 k = table k ∨
    ((check ttl table k now).2 k = none ∧ fresh ttl (table k) now = false) := by
  unfold check
  split
  · next t found =>
      split
      · exact .inl rfl
      · next stale =>
          rw [found]
          exact .inr ⟨Function.update_self .., by simpa [fresh] using stale⟩
  · exact .inl rfl

theorem Tracks.step (tracks : Tracks ttl now ops table) (after : now ≤ later)
    (timed : op.within later) :
    Tracks ttl later (ops ++ [op]) (step ttl table op) := by
  intro k
  have weaker : table k = issued ops k ∨
      (table k = none ∧ fresh ttl (issued ops k) later = false) :=
    (tracks k).imp_right fun gone => ⟨gone.1, fresh_of_later after gone.2⟩
  rw [issued_concat]
  cases op with
  | issue there now =>
      by_cases same : there = k
      · subst there
        left
        simp [Expiring.step, Op.cell, Op.value]
      · simpa [Expiring.step, Op.cell, same, Function.update_of_ne (Ne.symm same)] using weaker
  | revoke there =>
      by_cases same : there = k
      · subst there
        left
        simp [Expiring.step, Op.cell, Op.value]
      · simpa [Expiring.step, Op.cell, same, Function.update_of_ne (Ne.symm same)] using weaker
  | check there looked =>
      rw [if_neg (by simp [Op.cell])]
      by_cases same : k = there
      · subst there
        obtain kept | ⟨removed, stale⟩ := check_self ttl table k looked
        · rw [Expiring.step, kept]
          exact weaker
        · right
          obtain same | ⟨-, gone⟩ := weaker
          · exact ⟨removed, fresh_of_later timed (same ▸ stale)⟩
          · exact ⟨removed, gone⟩
      · rw [Expiring.step, check_of_ne same]
        exact weaker

end Expiring
