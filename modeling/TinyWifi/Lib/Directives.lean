import Mathlib.Data.List.Basic
import Mathlib.Tactic.Common
import TinyWifi.Lib.Decoded

/-! Ordered key-value directives in which a key may occur more than once: a reader sees the first
occurrence, a writer changes the first one or appends. -/

namespace Directives

variable {κ α : Type*}

def keys (ds : List (κ × α)) : List κ := ds.map Prod.fst

section Edit

variable [DecidableEq κ]

def replaceFirst (key : κ) (value : α) : List (κ × α) → List (κ × α)
  | [] => []
  | (k, v) :: rest => if k = key then (k, value) :: rest else (k, v) :: replaceFirst key value rest

def put (key : κ) (value : α) (ds : List (κ × α)) : List (κ × α) :=
  if key ∈ keys ds then replaceFirst key value ds else ds ++ [(key, value)]

def remove (key : κ) (ds : List (κ × α)) : List (κ × α) := ds.filter fun d => d.1 ≠ key

/-- The directives a set of keys leaves out. -/
def others (chosen : List κ) (ds : List (κ × α)) : List (κ × α) :=
  ds.filter fun d => d.1 ∉ chosen

def values (key : κ) (ds : List (κ × α)) : List α := (ds.filter fun d => d.1 = key).map Prod.snd

section ReplaceFirst

variable (key : κ) (value : α)

@[simp] theorem keys_replaceFirst (ds : List (κ × α)) :
    keys (replaceFirst key value ds) = keys ds := by
  induction ds with
  | nil => rfl
  | cons d rest ih =>
      by_cases same : d.1 = key <;> simp_all [replaceFirst, keys]

theorem lookup_replaceFirst_self [BEq κ] [LawfulBEq κ] {ds : List (κ × α)} (h : key ∈ keys ds) :
    (replaceFirst key value ds).lookup key = some value := by
  induction ds with
  | nil => simp [keys] at h
  | cons d rest ih =>
      by_cases same : d.1 = key
      · simp [replaceFirst, same]
      · have later : key ∈ keys rest := by simpa [keys, Ne.symm same] using h
        rw [replaceFirst, if_neg same, List.lookup_cons, beq_false_of_ne (Ne.symm same)]
        exact ih later

theorem lookup_replaceFirst_ne [BEq κ] [LawfulBEq κ] {other : κ} (h : other ≠ key)
    (ds : List (κ × α)) :
    (replaceFirst key value ds).lookup other = ds.lookup other := by
  induction ds with
  | nil => rfl
  | cons d rest ih =>
      rcases d with ⟨k, v⟩
      by_cases same : k = key
      · simp only [replaceFirst, same, if_true, List.lookup_cons, beq_false_of_ne h]
      · rw [replaceFirst, if_neg same, List.lookup_cons, List.lookup_cons, ih]

theorem filter_replaceFirst (p : κ → Bool) (h : p key = false) (ds : List (κ × α)) :
    (replaceFirst key value ds).filter (fun d => p d.1) = ds.filter fun d => p d.1 := by
  induction ds with
  | nil => rfl
  | cons d rest ih =>
      by_cases same : d.1 = key
      · simp [replaceFirst, same, h]
      · rw [replaceFirst, if_neg same, List.filter_cons, List.filter_cons, ih]

theorem others_replaceFirst {chosen : List κ} (h : key ∈ chosen) (ds : List (κ × α)) :
    others chosen (replaceFirst key value ds) = others chosen ds :=
  filter_replaceFirst key value (fun k => k ∉ chosen) (by simpa using h) ds

end ReplaceFirst

section Put

variable (key : κ) (value : α)

theorem lookup_put_self [BEq κ] [LawfulBEq κ] (ds : List (κ × α)) :
    (put key value ds).lookup key = some value := by
  unfold put
  split
  · exact lookup_replaceFirst_self key value ‹_›
  · have absent : ds.lookup key = none := by
      rw [List.lookup_eq_none_iff]
      intro d member
      have : key ≠ d.1 := by
        rintro rfl
        exact ‹¬ _› (List.mem_map_of_mem member)
      simpa using this
    simp [List.lookup_append, absent]

theorem lookup_put_ne [BEq κ] [LawfulBEq κ] {other : κ} (h : other ≠ key) (ds : List (κ × α)) :
    (put key value ds).lookup other = ds.lookup other := by
  unfold put
  split
  · exact lookup_replaceFirst_ne key value h ds
  · rw [List.lookup_append, List.lookup_cons, beq_false_of_ne h, List.lookup_nil, Option.or_none]

theorem others_put {chosen : List κ} (h : key ∈ chosen) (ds : List (κ × α)) :
    others chosen (put key value ds) = others chosen ds := by
  unfold put
  split
  · exact others_replaceFirst key value h ds
  · simp [others, h]

theorem others_remove {chosen : List κ} (h : key ∈ chosen) (ds : List (κ × α)) :
    others chosen (remove key ds) = others chosen ds := by
  rw [others, remove, List.filter_filter, others]
  apply List.filter_congr
  intro d _
  by_cases same : d.1 = key
  · simp [same, h]
  · simp [same]

end Put

section MapValues

variable (f : α → α)

theorem others_map (chosen : List κ) (ds : List (κ × α)) :
    others chosen (ds.map fun d => (d.1, f d.2)) =
      (others chosen ds).map fun d => (d.1, f d.2) := by
  rw [others, others, List.filter_map]
  rfl

theorem others_map_append (chosen : List κ) (front back : List (κ × α)) :
    others chosen ((front.map fun d => (d.1, f d.2)) ++ back) = others chosen (front ++ back) ↔
      ∀ d ∈ others chosen front, f d.2 = d.2 := by
  have split (a b : List (κ × α)) : others chosen (a ++ b) = others chosen a ++ others chosen b :=
    List.filter_append ..
  rw [split, split, others_map, List.append_cancel_right_eq, Decoded.map_eq_self_iff]
  constructor
  · exact fun same d member => congrArg Prod.snd (same d member)
  · exact fun same d member => Prod.ext rfl (same d member)

end MapValues

section Values

variable (key : κ) (value : α)

theorem values_append (front back : List (κ × α)) :
    values key (front ++ back) = values key front ++ values key back := by
  rw [values, List.filter_append, List.map_append]
  rfl

theorem values_cons_self (ds : List (κ × α)) :
    values key ((key, value) :: ds) = value :: values key ds := by
  simp [values]

theorem values_cons_ne {other : κ} (h : other ≠ key) (ds : List (κ × α)) :
    values key ((other, value) :: ds) = values key ds := by
  simp [values, h]

theorem values_eq_nil {key : κ} {ds : List (κ × α)} (h : key ∉ keys ds) : values key ds = [] := by
  apply List.map_eq_nil_iff.mpr
  apply List.filter_eq_nil_iff.mpr
  intro d member
  have differs : d.1 ≠ key := fun same => h (same ▸ List.mem_map_of_mem member)
  simpa using differs

theorem values_replaceFirst_self (ds : List (κ × α)) (h : key ∈ keys ds) :
    values key (replaceFirst key value ds) = value :: (values key ds).tail := by
  induction ds with
  | nil => cases h
  | cons d rest ih =>
      obtain ⟨k, v⟩ := d
      by_cases same : k = key
      · subst k
        rw [replaceFirst, if_pos rfl, values_cons_self, values_cons_self, List.tail_cons]
      · have later : key ∈ keys rest := by
          simpa [keys, Ne.symm same] using h
        rw [replaceFirst, if_neg same, values_cons_ne key v same, values_cons_ne key v same]
        exact ih later

/-- A writer changes the first value of its key, or gives it one. -/
theorem values_put_self (ds : List (κ × α)) :
    values key (put key value ds) = value :: (values key ds).tail := by
  unfold put
  split
  · next present => exact values_replaceFirst_self key value ds present
  · next absent => rw [values_append, values_eq_nil absent, values_cons_self]; rfl

theorem values_put_ne {other : κ} (h : other ≠ key) (ds : List (κ × α)) :
    values other (put key value ds) = values other ds := by
  unfold put
  split
  · exact congrArg (List.map Prod.snd)
      (filter_replaceFirst key value (fun k => k = other) (by simpa using Ne.symm h) ds)
  · rw [values_append, values_cons_ne other value (Ne.symm h)]
    exact List.append_nil _

theorem values_remove_self (ds : List (κ × α)) : values key (remove key ds) = [] := by
  simp [values, remove]

theorem values_filter {key : κ} {p : κ × α → Bool} {ds : List (κ × α)}
    (kept : ∀ d ∈ ds, d.1 = key → p d) : values key (ds.filter p) = values key ds := by
  rw [values, List.filter_filter, values]
  congr 1
  apply List.filter_congr
  intro d member
  by_cases same : d.1 = key
  · simp [same, kept d member same]
  · simp [same]

theorem values_filter_ne [DecidableEq α] (ds : List (κ × α)) :
    values key (ds.filter fun d => d ≠ (key, value)) = (values key ds).filter (· ≠ value) := by
  rw [values, List.filter_filter, values, List.filter_map, List.filter_filter]
  congr 1
  apply List.filter_congr
  intro d _
  by_cases same : d.1 = key
  · subst same
    rcases d with ⟨k, v⟩
    simp
  · simp [same]

theorem others_filter_ne [DecidableEq α] {chosen : List κ} (member : key ∈ chosen)
    (ds : List (κ × α)) :
    others chosen (ds.filter fun d => d ≠ (key, value)) = others chosen ds := by
  rw [others, List.filter_filter, others]
  apply List.filter_congr
  intro d _
  by_cases inside : d.1 ∈ chosen
  · simp [inside]
  · have differs : d ≠ (key, value) := fun same => inside (same ▸ member)
    simp [inside, differs]

theorem values_remove_ne {other : κ} (h : other ≠ key) (ds : List (κ × α)) :
    values other (remove key ds) = values other ds := by
  apply values_filter
  intro d _ same
  simpa [same] using h

theorem values_map (f : α → α) (ds : List (κ × α)) :
    values key (ds.map fun d => (d.1, f d.2)) = (values key ds).map f := by
  rw [values, List.filter_map, List.map_map, values, List.map_map]
  rfl

end Values

end Edit

section Lookup

variable [BEq κ] (f : α → α)

theorem lookup_eq_none_of_not_mem [LawfulBEq κ] {key : κ} {ds : List (κ × α)} (h : key ∉ keys ds) :
    ds.lookup key = none := by
  rw [List.lookup_eq_none_iff]
  intro d member
  have differs : key ≠ d.1 := fun same => h (same ▸ List.mem_map_of_mem member)
  simpa using differs

theorem mem_keys_of_lookup [LawfulBEq κ] {key : κ} {value : α} {ds : List (κ × α)}
    (h : ds.lookup key = some value) : key ∈ keys ds := by
  by_contra absent
  rw [lookup_eq_none_of_not_mem absent] at h
  cases h

theorem lookup_remove_self [DecidableEq κ] [LawfulBEq κ] (key : κ) (ds : List (κ × α)) :
    (remove key ds).lookup key = none := by
  apply lookup_eq_none_of_not_mem
  intro member
  obtain ⟨d, inside, same⟩ := List.mem_map.mp member
  simp [remove, same] at inside

theorem lookup_remove_ne [DecidableEq κ] [LawfulBEq κ] {key other : κ} (h : other ≠ key)
    (ds : List (κ × α)) : (remove key ds).lookup other = ds.lookup other := by
  induction ds with
  | nil => rfl
  | cons d rest ih =>
      rcases d with ⟨k, v⟩
      rw [remove] at ih
      by_cases same : k = key
      · rw [remove, List.filter_cons_of_neg (by simp [same]), ih, List.lookup_cons, same,
          beq_false_of_ne h]
      · rw [remove, List.filter_cons_of_pos (by simp [same]), List.lookup_cons, List.lookup_cons,
          ih]

theorem lookup_map (key : κ) (ds : List (κ × α)) :
    (ds.map fun d => (d.1, f d.2)).lookup key = (ds.lookup key).map f := by
  induction ds with
  | nil => rfl
  | cons d rest ih =>
      rcases d with ⟨k, v⟩
      rw [List.map_cons, List.lookup_cons, List.lookup_cons, ih]
      cases key == k <;> rfl

/-- Changing the values of a front part changes what a reader sees for the keys it holds. -/
theorem lookup_map_append [LawfulBEq κ] {key : κ} {value : α} {front back : List (κ × α)}
    (found : (front ++ back).lookup key = some value) :
    ((front.map fun d => (d.1, f d.2)) ++ back).lookup key = some value ↔
      (key ∈ keys front → f value = value) := by
  rw [List.lookup_append] at found ⊢
  rw [lookup_map]
  by_cases inside : key ∈ keys front
  · cases first : front.lookup key with
    | none =>
        have absent := List.lookup_eq_none_iff.mp first
        obtain ⟨d, member, same⟩ := List.mem_map.mp inside
        exact absurd (absent d member) (by simp [same])
    | some v =>
        obtain rfl : v = value := by simpa [first] using found
        simp [inside]
  · rw [lookup_eq_none_of_not_mem inside] at found ⊢
    simpa [inside] using found

end Lookup

end Directives
