import Mathlib.Data.List.Induction
import Mathlib.Logic.Function.Basic

/-! A run of writes to the cells of a table: each cell holds what was written to it last. -/

namespace LastWrite

variable {ι κ α : Type*} [DecidableEq κ] (cell : ι → Option κ) (value : ι → α)

/-- One write; it may miss the table. -/
def write (table : κ → α) (op : ι) : κ → α :=
  match cell op with
  | some k => Function.update table k (value op)
  | none => table

def last (ops : List ι) (k : κ) : Option α :=
  ((ops.filter fun op => cell op = some k).getLast?).map value

variable {cell value}

theorem write_of_ne {table : κ → α} {op : ι} {k : κ} (other : cell op ≠ some k) :
    write cell value table op k = table k := by
  cases hit : cell op with
  | none => rw [write, hit]
  | some there =>
      have apart : k ≠ there := fun same => other (same ▸ hit)
      rw [write, hit]
      exact Function.update_of_ne apart (value op) table

theorem write_self {table : κ → α} {op : ι} {k : κ} (hit : cell op = some k) :
    write cell value table op k = value op := by
  rw [write, hit]
  exact Function.update_self k (value op) table

theorem foldl_write (table : κ → α) (ops : List ι) (k : κ) :
    ops.foldl (write cell value) table k = (last cell value ops k).getD (table k) := by
  induction ops using List.reverseRecOn with
  | nil => rfl
  | append_singleton front op ih =>
      rw [List.foldl_append, List.foldl_cons, List.foldl_nil, last, List.filter_append]
      by_cases hit : cell op = some k
      · rw [write_self hit]
        simp [hit]
      · rw [write_of_ne hit, ih, last]
        simp [hit]

end LastWrite
