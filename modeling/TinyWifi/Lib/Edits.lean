import TinyWifi.Lib.Directives

/-! Changes of ordered key-value directives, each of the directives of one key. A list of them acts
on the directives of a class of keys as if the others were not there. -/

namespace Directives

variable {κ α : Type*}

inductive Edit (κ α : Type*)
  | put (key : κ) (value : α)
  | remove (key : κ)
  | add (key : κ) (value : α)
  | erase (key : κ) (value : α)
  | eraseAll (key : κ) (value : α)

def slice (mine : κ → Bool) (ds : List (κ × α)) : List (κ × α) := ds.filter fun d => mine d.1

namespace Edit

def key : Edit κ α → κ
  | .put key _ | .remove key | .add key _ | .erase key _ | .eraseAll key _ => key

def value? : Edit κ α → Option α
  | .put _ value | .add _ value => some value
  | .remove _ | .erase _ _ | .eraseAll _ _ => none

variable [DecidableEq κ] [DecidableEq α]

def apply : Edit κ α → List (κ × α) → List (κ × α)
  | .put key value, ds => Directives.put key value ds
  | .remove key, ds => Directives.remove key ds
  | .add key value, ds => ds ++ [(key, value)]
  | .erase key value, ds => ds.erase (key, value)
  | .eraseAll key value, ds => ds.filter fun d => d ≠ (key, value)

theorem apply_erase_cons (key : κ) (value : α) (d : κ × α) (rest : List (κ × α)) :
    (erase key value).apply (d :: rest) =
      if d = (key, value) then rest else d :: (erase key value).apply rest := by
  simp only [apply, List.erase_cons, beq_iff_eq]

end Edit

def applyAll [DecidableEq κ] [DecidableEq α] (edits : List (Edit κ α)) (ds : List (κ × α)) :
    List (κ × α) :=
  edits.foldl (fun ds edit => edit.apply ds) ds

section Slice

variable {mine : κ → Bool} {key : κ}

theorem slice_append (mine : κ → Bool) (front back : List (κ × α)) :
    slice mine (front ++ back) = slice mine front ++ slice mine back :=
  List.filter_append ..

theorem slice_cons (own : mine key = true) (value : α) (rest : List (κ × α)) :
    slice mine ((key, value) :: rest) = (key, value) :: slice mine rest :=
  List.filter_cons_of_pos own

theorem slice_cons_other (foreign : mine key = false) (value : α) (rest : List (κ × α)) :
    slice mine ((key, value) :: rest) = slice mine rest :=
  List.filter_cons_of_neg (by simp [foreign])

theorem slice_map (mine : κ → Bool) (f : α → α) (ds : List (κ × α)) :
    slice mine (ds.map fun d => (d.1, f d.2)) = (slice mine ds).map fun d => (d.1, f d.2) := by
  rw [slice, slice, List.filter_map]
  rfl

theorem mem_keys_slice (own : mine key = true) (ds : List (κ × α)) :
    key ∈ keys (slice mine ds) ↔ key ∈ keys ds := by
  constructor
  · intro member
    obtain ⟨d, inside, rfl⟩ := List.mem_map.mp member
    exact List.mem_map_of_mem (List.mem_of_mem_filter inside)
  · intro member
    obtain ⟨d, inside, rfl⟩ := List.mem_map.mp member
    exact List.mem_map_of_mem (List.mem_filter.mpr ⟨inside, own⟩)

variable [DecidableEq κ]

theorem slice_replaceFirst (own : mine key = true) (value : α) (ds : List (κ × α)) :
    slice mine (replaceFirst key value ds) = replaceFirst key value (slice mine ds) := by
  induction ds with
  | nil => rfl
  | cons d rest ih =>
      obtain ⟨k, v⟩ := d
      by_cases same : k = key
      · subst k
        rw [replaceFirst, if_pos rfl, slice_cons own, slice_cons own, replaceFirst, if_pos rfl]
      · rw [replaceFirst, if_neg same]
        cases chosen : mine k with
        | false => rw [slice_cons_other chosen, slice_cons_other chosen, ih]
        | true =>
            rw [slice_cons chosen, slice_cons chosen, ih, replaceFirst, if_neg same]

theorem slice_put (own : mine key = true) (value : α) (ds : List (κ × α)) :
    slice mine (put key value ds) = put key value (slice mine ds) := by
  unfold put
  simp only [mem_keys_slice own]
  split
  · exact slice_replaceFirst own value ds
  · rw [slice_append, slice_cons own]
    rfl

theorem slice_put_other (foreign : mine key = false) (value : α) (ds : List (κ × α)) :
    slice mine (put key value ds) = slice mine ds := by
  unfold put
  split
  · exact filter_replaceFirst key value mine foreign ds
  · rw [slice_append, slice_cons_other foreign]
    exact List.append_nil _

theorem slice_remove (ds : List (κ × α)) :
    slice mine (remove key ds) = remove key (slice mine ds) := by
  rw [slice, remove, List.filter_filter, remove, slice, List.filter_filter]
  exact List.filter_congr fun _ _ => Bool.and_comm ..

theorem slice_remove_other (foreign : mine key = false) (ds : List (κ × α)) :
    slice mine (remove key ds) = slice mine ds := by
  rw [slice, remove, List.filter_filter, slice]
  apply List.filter_congr
  intro d _
  by_cases same : d.1 = key
  · rw [same, foreign]
    rfl
  · simp [same]

variable [DecidableEq α]

theorem slice_erase (own : mine key = true) (value : α) (ds : List (κ × α)) :
    slice mine (ds.erase (key, value)) = (slice mine ds).erase (key, value) := by
  induction ds with
  | nil => rfl
  | cons d rest ih =>
      obtain ⟨k, v⟩ := d
      by_cases same : (k, v) = (key, value)
      · cases same
        rw [List.erase_cons_head, slice_cons own, List.erase_cons_head]
      · have differs : ¬ ((k, v) == (key, value)) = true := by simpa using same
        rw [List.erase_cons_tail differs]
        cases chosen : mine k with
        | false => rw [slice_cons_other chosen, slice_cons_other chosen, ih]
        | true => rw [slice_cons chosen, slice_cons chosen, ih, List.erase_cons_tail differs]

theorem slice_erase_other (foreign : mine key = false) (value : α) (ds : List (κ × α)) :
    slice mine (ds.erase (key, value)) = slice mine ds := by
  induction ds with
  | nil => rfl
  | cons d rest ih =>
      by_cases same : d = (key, value)
      · rw [same, List.erase_cons_head, slice_cons_other foreign]
      · rw [List.erase_cons_tail (by simpa using same)]
        change slice mine ([d] ++ rest.erase (key, value)) = slice mine ([d] ++ rest)
        rw [slice_append, ih, slice_append]

theorem slice_eraseAll (value : α) (ds : List (κ × α)) :
    slice mine (ds.filter fun d => d ≠ (key, value)) =
      (slice mine ds).filter fun d => d ≠ (key, value) := by
  rw [slice, List.filter_filter, slice, List.filter_filter]
  exact List.filter_congr fun _ _ => Bool.and_comm ..

theorem slice_eraseAll_other (foreign : mine key = false) (value : α) (ds : List (κ × α)) :
    slice mine (ds.filter fun d => d ≠ (key, value)) = slice mine ds := by
  rw [slice, List.filter_filter, slice]
  apply List.filter_congr
  intro d _
  by_cases same : d = (key, value)
  · rw [same, foreign]
    rfl
  · simp [same]

theorem slice_apply (edit : Edit κ α) (own : mine edit.key = true) (ds : List (κ × α)) :
    slice mine (edit.apply ds) = edit.apply (slice mine ds) := by
  cases edit with
  | put key value => exact slice_put own value ds
  | remove key => exact slice_remove ds
  | add key value =>
      change mine key = true at own
      rw [Edit.apply, slice_append, slice_cons own]
      rfl
  | erase key value => exact slice_erase own value ds
  | eraseAll key value => exact slice_eraseAll value ds

theorem slice_apply_other (edit : Edit κ α) (foreign : mine edit.key = false)
    (ds : List (κ × α)) : slice mine (edit.apply ds) = slice mine ds := by
  cases edit with
  | put key value => exact slice_put_other foreign value ds
  | remove key => exact slice_remove_other foreign ds
  | add key value =>
      change mine key = false at foreign
      rw [Edit.apply, slice_append, slice_cons_other foreign]
      exact List.append_nil _
  | erase key value => exact slice_erase_other foreign value ds
  | eraseAll key value => exact slice_eraseAll_other foreign value ds

theorem slice_applyAll {edits : List (Edit κ α)} (own : ∀ edit ∈ edits, mine edit.key = true)
    (ds : List (κ × α)) : slice mine (applyAll edits ds) = applyAll edits (slice mine ds) := by
  induction edits generalizing ds with
  | nil => rfl
  | cons edit rest ih =>
      change slice mine (applyAll rest (edit.apply ds)) =
        applyAll rest (edit.apply (slice mine ds))
      rw [ih fun other member => own other (List.mem_cons_of_mem edit member),
        slice_apply edit (own edit List.mem_cons_self)]

theorem slice_applyAll_other {edits : List (Edit κ α)}
    (foreign : ∀ edit ∈ edits, mine edit.key = false) (ds : List (κ × α)) :
    slice mine (applyAll edits ds) = slice mine ds := by
  induction edits generalizing ds with
  | nil => rfl
  | cons edit rest ih =>
      change slice mine (applyAll rest (edit.apply ds)) = slice mine ds
      rw [ih fun other member => foreign other (List.mem_cons_of_mem edit member),
        slice_apply_other edit (foreign edit List.mem_cons_self)]

end Slice

section Values

variable [DecidableEq κ] {d : κ × α}

theorem mem_replaceFirst {key : κ} {value : α} {ds : List (κ × α)}
    (member : d ∈ replaceFirst key value ds) : d ∈ ds ∨ d = (key, value) := by
  induction ds with
  | nil => cases member
  | cons first rest ih =>
      obtain ⟨k, v⟩ := first
      by_cases same : k = key
      · rw [replaceFirst, if_pos same, List.mem_cons] at member
        rcases member with rfl | inside
        · exact .inr (by rw [same])
        · exact .inl (List.mem_cons_of_mem _ inside)
      · rw [replaceFirst, if_neg same, List.mem_cons] at member
        rcases member with rfl | inside
        · exact .inl List.mem_cons_self
        · exact (ih inside).imp_left (List.mem_cons_of_mem _)

variable [DecidableEq α]

/-- A directive was there before the edit, or the edit writes it. -/
theorem mem_apply {edit : Edit κ α} {ds : List (κ × α)} (member : d ∈ edit.apply ds) :
    d ∈ ds ∨ edit.key = d.1 ∧ edit.value? = some d.2 := by
  cases edit with
  | put key value =>
      change d ∈ put key value ds at member
      unfold put at member
      split at member
      · rcases mem_replaceFirst member with old | rfl
        · exact .inl old
        · exact .inr ⟨rfl, rfl⟩
      · rcases List.mem_append.mp member with old | new
        · exact .inl old
        · rw [List.mem_singleton.mp new]
          exact .inr ⟨rfl, rfl⟩
  | remove key => exact .inl (List.mem_of_mem_filter member)
  | add key value =>
      rcases List.mem_append.mp member with old | new
      · exact .inl old
      · rw [List.mem_singleton.mp new]
        exact .inr ⟨rfl, rfl⟩
  | erase key value => exact .inl (List.mem_of_mem_erase member)
  | eraseAll key value => exact .inl (List.mem_of_mem_filter member)

/-- What holds of the directives that are there, and of those that are written, holds after the
edits. -/
theorem forall_mem_applyAll {P : κ × α → Prop} {edits : List (Edit κ α)} {ds : List (κ × α)}
    (before : ∀ d ∈ ds, P d)
    (written : ∀ edit ∈ edits, ∀ value, edit.value? = some value → P (edit.key, value)) :
    ∀ d ∈ applyAll edits ds, P d := by
  induction edits generalizing ds with
  | nil => exact before
  | cons edit rest ih =>
      refine @ih (edit.apply ds) ?_ ?_
      · intro d member
        rcases mem_apply member with old | ⟨same, given⟩
        · exact before d old
        · have fits := written edit List.mem_cons_self d.2 given
          rwa [same] at fits
      · exact fun other member => written other (List.mem_cons_of_mem edit member)

end Values

section Readers

variable {mine : κ → Bool} {key : κ}

/-- A reader of a key of the class sees in the class what it sees in the whole. -/
theorem lookup_slice [BEq κ] [LawfulBEq κ] (own : mine key = true) (ds : List (κ × α)) :
    (slice mine ds).lookup key = ds.lookup key := by
  induction ds with
  | nil => rfl
  | cons d rest ih =>
      obtain ⟨k, v⟩ := d
      cases chosen : mine k with
      | false =>
          have differs : key ≠ k := by
            rintro rfl
            rw [own] at chosen
            cases chosen
          rw [slice_cons_other chosen, ih, List.lookup_cons, beq_false_of_ne differs]
      | true => rw [slice_cons chosen, List.lookup_cons, ih, List.lookup_cons]

theorem values_slice [DecidableEq κ] (own : mine key = true) (ds : List (κ × α)) :
    values key (slice mine ds) = values key ds :=
  values_filter fun _ _ same => same ▸ own

/-- What a reader of a key of the class sees is settled by the class. -/
theorem lookup_congr [BEq κ] [LawfulBEq κ] (own : mine key = true) {ds ds' : List (κ × α)}
    (same : slice mine ds = slice mine ds') : ds.lookup key = ds'.lookup key := by
  rw [← lookup_slice own, same, lookup_slice own]

theorem values_congr [DecidableEq κ] (own : mine key = true) {ds ds' : List (κ × α)}
    (same : slice mine ds = slice mine ds') : values key ds = values key ds' := by
  rw [← values_slice own, same, values_slice own]

end Readers

end Directives
