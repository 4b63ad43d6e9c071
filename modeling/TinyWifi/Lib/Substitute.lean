import Mathlib.Data.List.Induction
import Mathlib.Data.List.Pairwise
import Mathlib.Tactic.Common

/-! Symbols that are written as words: one replacement after the other, all of them at once, and
back. -/

namespace Substitute

variable {α : Type*} [DecidableEq α]

def replace (c : α) (word : List α) (s : List α) : List α :=
  s.flatMap fun d => if d = c then word else [d]

abbrev Table (α : Type*) := List (α × List α)

def replaceAll (table : Table α) (s : List α) : List α :=
  table.foldl (fun text entry => replace entry.1 entry.2 text) s

def image : Table α → α → List α
  | [], d => [d]
  | (c, word) :: rest, d => if d = c then word else image rest d

def substitute (table : Table α) (s : List α) : List α := s.flatMap (image table)

@[simp] theorem substitute_cons (table : Table α) (d : α) (s : List α) :
    substitute table (d :: s) = image table d ++ substitute table s := List.flatMap_cons

def entryAt (table : Table α) (s : List α) : Option (α × List α) :=
  table.find? fun entry => entry.2.isPrefixOf s

def restore (table : Table α) : List α → List α
  | [] => []
  | d :: rest =>
    match entryAt table (d :: rest) with
    | some (c, word) => c :: restore table (rest.drop (word.length - 1))
    | none => d :: restore table rest
termination_by s => s.length
decreasing_by all_goals simp only [List.length_cons, List.length_drop]; omega

/-- One word after the other back into its symbol, the last one first. -/
def restoreAll (table : Table α) (s : List α) : List α :=
  table.foldr (fun entry text => restore [entry] text) s

section Order

/-- No word brings in a symbol that is replaced later, and no symbol is replaced twice. -/
def Ordered (table : Table α) : Prop :=
  table.Pairwise fun first later => later.1 ∉ first.2 ∧ later.1 ≠ first.1

instance (table : Table α) : Decidable (Ordered table) :=
  inferInstanceAs (Decidable (table.Pairwise _))

theorem image_of_not_key {table : Table α} {d : α} (other : ∀ entry ∈ table, entry.1 ≠ d) :
    image table d = [d] := by
  induction table with
  | nil => rfl
  | cons entry rest ih =>
      rw [image, if_neg (Ne.symm (other entry List.mem_cons_self))]
      exact ih fun later member => other later (List.mem_cons_of_mem entry member)

theorem substitute_of_no_key {table : Table α} {s : List α}
    (other : ∀ entry ∈ table, entry.1 ∉ s) : substitute table s = s := by
  induction s with
  | nil => rfl
  | cons d rest ih =>
      have here : image table d = [d] := by
        refine image_of_not_key fun entry member same => ?_
        exact other entry member (same ▸ List.mem_cons_self)
      have later := ih fun entry member inside =>
        other entry member (List.mem_cons_of_mem d inside)
      rw [substitute_cons, here, later, List.singleton_append]

/-- Replaced first, a symbol is as good as replaced at the same time. -/
theorem substitute_replace {c : α} {word : List α} {rest : Table α}
    (apart : ∀ later ∈ rest, later.1 ∉ word ∧ later.1 ≠ c) (s : List α) :
    substitute rest (replace c word s) = substitute ((c, word) :: rest) s := by
  rw [substitute, replace, List.flatMap_assoc, substitute]
  congr 1
  funext d
  by_cases same : d = c
  · have kept := substitute_of_no_key fun later member => (apart later member).1
    rw [if_pos same, image, if_pos same]
    exact kept
  · rw [if_neg same, image, if_neg same, List.flatMap_singleton]

/-- In a good order, one replacement after the other is the substitution. -/
theorem replaceAll_eq {table : Table α} (ordered : Ordered table) (s : List α) :
    replaceAll table s = substitute table s := by
  induction table generalizing s with
  | nil => exact (substitute_of_no_key (List.forall_mem_nil _)).symm
  | cons entry rest ih =>
      rcases List.pairwise_cons.mp ordered with ⟨apart, later⟩
      calc replaceAll (entry :: rest) s
        _ = replaceAll rest (replace entry.1 entry.2 s) := rfl
        _ = substitute rest (replace entry.1 entry.2 s) := ih later _
        _ = substitute (entry :: rest) s := substitute_replace apart s

end Order

section Escape

/-- Every word starts with the mark, which it has nowhere else and which is itself replaced; and no
word is the start of another one. -/
structure Escaping (mark : α) (table : Table α) : Prop where
  key : ∃ entry ∈ table, entry.1 = mark
  marked : ∀ entry ∈ table, entry.2.head? = some mark ∧ mark ∉ entry.2.tail
  apart : table.Pairwise fun first later => ¬ first.2 <+: later.2 ∧ ¬ later.2 <+: first.2

variable {table : Table α} {mark : α}

theorem image_cases (table : Table α) (d : α) :
    (d, image table d) ∈ table ∨ (∀ entry ∈ table, entry.1 ≠ d) ∧ image table d = [d] := by
  induction table with
  | nil => exact .inr ⟨List.forall_mem_nil _, rfl⟩
  | cons entry rest ih =>
      by_cases same : d = entry.1
      · rw [image, if_pos same, same]
        exact .inl List.mem_cons_self
      · rw [image, if_neg same]
        rcases ih with listed | ⟨other, literal⟩
        · exact .inl (List.mem_cons_of_mem entry listed)
        · exact .inr ⟨List.forall_mem_cons.mpr ⟨Ne.symm same, other⟩, literal⟩

/-- A symbol that is replaced, and that no word has, does not occur any more. -/
theorem not_mem_substitute {c : α} (key : ∃ entry ∈ table, entry.1 = c)
    (absent : ∀ entry ∈ table, c ∉ entry.2) (s : List α) : c ∉ substitute table s := by
  intro member
  rcases List.mem_flatMap.mp member with ⟨d, _, inside⟩
  rcases image_cases table d with listed | ⟨other, literal⟩
  · exact absent _ listed inside
  · rcases key with ⟨entry, present, same⟩
    rw [literal, List.mem_singleton] at inside
    exact other entry present (same.trans inside)

omit [DecidableEq α] in
/-- A symbol that is not replaced is not the mark. -/
theorem Escaping.not_mark (escaping : Escaping mark table) {d : α}
    (other : ∀ entry ∈ table, entry.1 ≠ d) : d ≠ mark := by
  rcases escaping.key with ⟨entry, present, same⟩
  exact fun is_mark => other entry present (same.trans is_mark.symm)

/-- The mark stands only where a word starts. -/
theorem word_of_mark (escaping : Escaping mark table) {s front back : List α}
    (split : substitute table s = front ++ mark :: back) :
    ∃ entry ∈ table, entry.2 <+: mark :: back := by
  induction s generalizing front with
  | nil => cases front <;> cases split
  | cons d rest ih =>
      rw [substitute_cons] at split
      rcases List.append_eq_append_iff.mp split with
        ⟨more, _, later⟩ | ⟨inside, here, later⟩
      · exact ih later
      · cases inside with
        | nil =>
            have none : substitute table rest = [] ++ mark :: back := later.symm
            exact ih none
        | cons c others =>
            have first : mark = c := (List.cons_eq_cons.mp later).1
            rw [← first] at here later
            rcases image_cases table d with listed | ⟨other, literal⟩
            · refine ⟨_, listed, ?_⟩
              cases front with
              | nil => exact ⟨_, (by rw [here]; exact later.symm)⟩
              | cons b before =>
                  have inner := (escaping.marked _ listed).2
                  rw [here] at inner
                  exact absurd (List.mem_append_right before List.mem_cons_self) inner
            · have inside : mark ∈ [d] := by
                rw [← literal, here]
                exact List.mem_append_right front List.mem_cons_self
              exact absurd (List.mem_singleton.mp inside).symm (escaping.not_mark other)

/-- Two words that the same text starts with are the same. -/
theorem Escaping.entry_unique (escaping : Escaping mark table) {s : List α}
    {first second : α × List α} (here : first ∈ table) (there : second ∈ table)
    (starts : first.2 <+: s) (starts' : second.2 <+: s) : first = second := by
  by_contra different
  have symmetric : Std.Symm fun a b : α × List α => ¬ a.2 <+: b.2 ∧ ¬ b.2 <+: a.2 :=
    ⟨fun _ _ both => both.symm⟩
  have apart := escaping.apart.forall here there different
  rcases List.prefix_or_prefix_of_prefix starts starts' with shorter | longer
  · exact apart.1 shorter
  · exact apart.2 longer

omit [DecidableEq α] in
theorem Escaping.filled (escaping : Escaping mark table) {entry : α × List α}
    (present : entry ∈ table) : entry.2 ≠ [] := by
  intro empty
  have first := (escaping.marked entry present).1
  rw [empty] at first
  cases first

theorem Escaping.entryAt_word (escaping : Escaping mark table) {entry : α × List α}
    (present : entry ∈ table) (rest : List α) :
    entryAt table (entry.2 ++ rest) = some entry := by
  cases found : entryAt table (entry.2 ++ rest) with
  | none =>
      have missed := List.find?_eq_none.mp found entry present
      exact absurd (List.isPrefixOf_iff_prefix.mpr (List.prefix_append entry.2 rest)) missed
  | some other =>
      have starts : other.2.isPrefixOf (entry.2 ++ rest) = true :=
        (List.find?_eq_some_iff_append.mp found).1
      have same := escaping.entry_unique (List.mem_of_find?_eq_some found) present
        (List.isPrefixOf_iff_prefix.mp starts) (List.prefix_append entry.2 rest)
      rw [same]

/-- No word starts with another symbol than the mark. -/
theorem entryAt_of_ne (heads : ∀ entry ∈ table, entry.2.head? = some mark) {d : α}
    (other : d ≠ mark) (rest : List α) : entryAt table (d :: rest) = none := by
  refine List.find?_eq_none.mpr fun entry present starts => ?_
  have first := heads entry present
  rcases List.isPrefixOf_iff_prefix.mp starts with ⟨more, split⟩
  cases shape : entry.2 with
  | nil => simp [shape] at first
  | cons c tail =>
      rw [shape] at first split
      have mark_first : c = mark := Option.some_inj.mp first
      exact other ((List.cons_eq_cons.mp split).1.symm.trans mark_first)

theorem restore_of_none {d : α} {rest : List α} (none : entryAt table (d :: rest) = none) :
    restore table (d :: rest) = d :: restore table rest := by
  rw [restore, none]

theorem restore_of_word {entry : α × List α} {rest : List α} (filled : entry.2 ≠ [])
    (found : entryAt table (entry.2 ++ rest) = some entry) :
    restore table (entry.2 ++ rest) = entry.1 :: restore table rest := by
  rcases entry with ⟨c, word⟩
  cases word with
  | nil => exact absurd rfl filled
  | cons d tail =>
      rw [List.cons_append] at found ⊢
      rw [restore, found]
      simp

theorem restore_substitute (escaping : Escaping mark table) (s : List α) :
    restore table (substitute table s) = s := by
  induction s with
  | nil => simp [substitute, restore]
  | cons d rest ih =>
      rw [substitute_cons]
      rcases image_cases table d with listed | ⟨other, literal⟩
      · have found := escaping.entryAt_word listed (substitute table rest)
        rw [restore_of_word (escaping.filled listed) found, ih]
      · have plain := escaping.not_mark other
        have none := entryAt_of_ne (fun entry present => (escaping.marked entry present).1) plain
        rw [literal, List.singleton_append, restore_of_none (none _), ih]

end Escape

section Undo

variable {front : Table α} {entry : α × List α} {mark : α}

theorem image_append (front back : Table α) (d : α) : image (front ++ back) d =
    if d ∈ front.map Prod.fst then image front d else image back d := by
  induction front with
  | nil => rfl
  | cons first rest ih =>
      by_cases same : d = first.1
      · simp [image, same]
      · have keys : d ∈ (first :: rest).map Prod.fst ↔ d ∈ rest.map Prod.fst := by
          rw [List.map_cons, List.mem_cons]
          exact or_iff_right same
        rw [List.cons_append, image, if_neg same, ih, image, if_neg same]
        exact if_congr keys.symm rfl rfl

omit [DecidableEq α] in
/-- The mark comes first in a table whose order is good, so what is left of it without its end still
escapes. -/
theorem Escaping.of_append (escaping : Escaping mark (front ++ [entry]))
    (ordered : Ordered (front ++ [entry])) (some : front ≠ []) : Escaping mark front where
  key := by
    rcases escaping.key with ⟨marking, present, same⟩
    rcases List.mem_append.mp present with inside | last
    · exact ⟨marking, inside, same⟩
    · obtain ⟨first, listed⟩ := List.exists_mem_of_ne_nil front some
      have apart := (List.pairwise_append.mp ordered).2.2 first listed marking last
      have starts := (escaping.marked first (List.mem_append_left _ listed)).1
      exact absurd (List.mem_of_mem_head? (same ▸ starts)) apart.1
  marked first listed := escaping.marked first (List.mem_append_left _ listed)
  apart := (List.pairwise_append.mp escaping.apart).1

theorem restore_plain (head : entry.2.head? = some mark) {part : List α} (plain : mark ∉ part)
    (rest : List α) : restore [entry] (part ++ rest) = part ++ restore [entry] rest := by
  induction part with
  | nil => rfl
  | cons d others ih =>
      rw [List.mem_cons, not_or] at plain
      have none := entryAt_of_ne (List.forall_mem_singleton.mpr head) (Ne.symm plain.1)
      rw [List.cons_append, restore_of_none (none _), ih plain.2, List.cons_append]

theorem restore_other (escaping : Escaping mark (front ++ [entry]))
    (ordered : Ordered (front ++ [entry])) {other : α × List α} (listed : other ∈ front)
    (rest : List α) : restore [entry] (other.2 ++ rest) = other.2 ++ restore [entry] rest := by
  have last : entry ∈ front ++ [entry] :=
    List.mem_append_right front (List.mem_singleton_self entry)
  have within : other ∈ front ++ [entry] := List.mem_append_left _ listed
  have none : entryAt [entry] (other.2 ++ rest) = none := by
    refine List.find?_eq_none.mpr (List.forall_mem_singleton.mpr fun starts => ?_)
    have same := escaping.entry_unique last within (List.isPrefixOf_iff_prefix.mp starts)
      (List.prefix_append other.2 rest)
    have apart := (List.pairwise_append.mp ordered).2.2 other listed entry
      (List.mem_singleton_self entry)
    exact apart.2 (congrArg Prod.fst same)
  have inner := (escaping.marked other within).2
  cases shape : other.2 with
  | nil => exact absurd shape (escaping.filled within)
  | cons d tail =>
      rw [shape, List.cons_append] at none
      rw [shape, List.tail_cons] at inner
      rw [List.cons_append, restore_of_none none,
        restore_plain (escaping.marked entry last).1 inner, List.cons_append]

/-- The word that was written last is the first to be taken back. -/
theorem restore_last (escaping : Escaping mark (front ++ [entry]))
    (ordered : Ordered (front ++ [entry])) (s : List α) :
    restore [entry] (substitute (front ++ [entry]) s) = substitute front s := by
  have last : entry ∈ front ++ [entry] :=
    List.mem_append_right front (List.mem_singleton_self entry)
  induction s with
  | nil => simp [substitute, restore]
  | cons d rest ih =>
      rw [substitute_cons, substitute_cons, image_append]
      rcases image_cases front d with listed | ⟨other, literal⟩
      · have key : d ∈ front.map Prod.fst := List.mem_map_of_mem listed
        rw [if_pos key, restore_other escaping ordered listed, ih]
      · have no_key : d ∉ front.map Prod.fst := by
          intro key
          rcases List.mem_map.mp key with ⟨first, present, same⟩
          exact other first present same
        rw [if_neg no_key, literal]
        by_cases same : d = entry.1
        · have found : entryAt [entry] (entry.2 ++ substitute (front ++ [entry]) rest) =
              some entry := by simp [entryAt]
          rw [image, if_pos same, restore_of_word (escaping.filled last) found, ih, same]
          rfl
        · have plain : d ≠ mark := escaping.not_mark fun first present => by
            rcases List.mem_append.mp present with inside | final
            · exact other first inside
            · rw [List.mem_singleton.mp final]
              exact Ne.symm same
          have none := entryAt_of_ne
            (List.forall_mem_singleton.mpr (escaping.marked entry last).1) plain
          rw [image, if_neg same, image, List.singleton_append, restore_of_none (none _), ih]
          rfl

theorem restoreAll_substitute {table : Table α} (escaping : Escaping mark table)
    (ordered : Ordered table) (s : List α) : restoreAll table (substitute table s) = s := by
  induction table using List.reverseRecOn with
  | nil => exact substitute_of_no_key (List.forall_mem_nil _)
  | append_singleton front entry ih =>
      rw [restoreAll, List.foldr_append, List.foldr_cons, List.foldr_nil,
        restore_last escaping ordered]
      by_cases some : front = []
      · rw [some]
        exact substitute_of_no_key (List.forall_mem_nil _)
      · exact ih (escaping.of_append ordered some) (List.pairwise_append.mp ordered).1

end Undo

end Substitute
