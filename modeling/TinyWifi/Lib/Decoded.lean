import Mathlib.Data.List.Basic
import Mathlib.Tactic.Common

/-! Removing from a list of codes, seen through a decoder that several codes may share and that
some codes fail. -/

namespace Decoded

variable {α β : Type*} {decode redecode : α → Option β}

theorem map_eq_self_iff {f : α → α} {xs : List α} : xs.map f = xs ↔ ∀ x ∈ xs, f x = x := by
  have pointwise : xs.map f = xs.map id ↔ ∀ x ∈ xs, f x = id x := List.map_eq_map_iff
  rwa [List.map_id] at pointwise

theorem filterMap_singleton (code : α) : [code].filterMap decode = (decode code).toList := by
  rw [List.filterMap_cons]
  cases decode code <;> rfl

/-- What is kept among the decoded values is still decoded, in its order, from any choice of codes
that holds on to it, even by another decoder that agrees on it. -/
theorem filter_filterMap_sublist {keepValue : β → Bool} {keepCode : α → Bool} (codes : List α)
    (kept : ∀ code value, decode code = some value → keepValue value → keepCode code)
    (same : ∀ code value, decode code = some value → redecode code = some value) :
    ((codes.filterMap decode).filter keepValue).Sublist
      ((codes.filter keepCode).filterMap redecode) := by
  induction codes with
  | nil => exact List.Sublist.refl _
  | cons code rest ih =>
      have more := ih.trans
        (((List.sublist_cons_self code rest).filter keepCode).filterMap redecode)
      cases found : decode code with
      | none =>
          rw [List.filterMap_cons_none found]
          exact more
      | some value =>
          rw [List.filterMap_cons_some found]
          by_cases wanted : keepValue value
          · have again := same code value found
            rw [List.filter_cons_of_pos wanted,
              List.filter_cons_of_pos (kept code value found wanted),
              List.filterMap_cons_some again]
            exact ih.cons_cons value
          · rw [List.filter_cons_of_neg wanted]
            exact more

section Erase

variable [BEq α] [LawfulBEq α] [DecidableEq α] {code : α} {target : β}

/-- A value and the values of all codes but the first of its own: they are the values of all codes
only if up to that code all are equal to it. -/
theorem filterMap_eq_cons_erase_iff (canonical : decode code = some target) (codes : List α) :
    codes.filterMap decode = target :: (codes.erase code).filterMap decode ↔
      code ∈ codes ∧ ∀ value ∈ (codes.takeWhile (· ≠ code)).filterMap decode, value = target := by
  induction codes with
  | nil => simp
  | cons first rest ih =>
      by_cases here : first = code
      · subst first
        rw [List.filterMap_cons_some canonical, List.erase_cons_head,
          List.takeWhile_cons_of_neg (by simp)]
        simp
      · have later : (code ∈ first :: rest) ↔ code ∈ rest := by simp [Ne.symm here]
        rw [later, List.erase_cons_tail (by simpa using here),
          List.takeWhile_cons_of_pos (by simp [here])]
        cases found : decode first with
        | none =>
            rw [List.filterMap_cons_none found, List.filterMap_cons_none found,
              List.filterMap_cons_none found, ih]
        | some value =>
            rw [List.filterMap_cons_some found, List.filterMap_cons_some found,
              List.filterMap_cons_some found, List.cons.injEq, List.forall_mem_cons]
            constructor
            · intro holds
              rcases holds with ⟨rfl, shifted⟩
              have both := ih.mp shifted
              exact ⟨both.1, rfl, both.2⟩
            · intro holds
              rcases holds with ⟨present, rfl, equal⟩
              exact ⟨rfl, ih.mpr ⟨present, equal⟩⟩

/-- Removing the first code of a value removes its first occurrence only if the code is there and,
from the first occurrence on, nothing else stands before it. -/
theorem filterMap_erase_eq_eraseP_iff {p : β → Bool} (canonical : decode code = some target)
    {codes : List α} (first : (codes.filterMap decode).find? p = some target) :
    (codes.erase code).filterMap decode = (codes.filterMap decode).eraseP p ↔
      code ∈ codes ∧ ∀ value ∈ ((codes.takeWhile (· ≠ code)).filterMap decode).dropWhile (!p ·),
        value = target := by
  have holds : p target := List.find?_some first
  induction codes with
  | nil => cases first
  | cons head rest ih =>
      by_cases here : head = code
      · subst head
        rw [List.filterMap_cons_some canonical, List.erase_cons_head,
          List.eraseP_cons_of_pos holds, List.takeWhile_cons_of_neg (by simp)]
        simp
      · have later : (code ∈ head :: rest) ↔ code ∈ rest := by simp [Ne.symm here]
        rw [later, List.erase_cons_tail (by simpa using here),
          List.takeWhile_cons_of_pos (by simp [here])]
        cases found : decode head with
        | none =>
            rw [List.filterMap_cons_none found] at first
            rw [List.filterMap_cons_none found, List.filterMap_cons_none found,
              List.filterMap_cons_none found]
            exact ih first
        | some value =>
            rw [List.filterMap_cons_some found] at first
            rw [List.filterMap_cons_some found, List.filterMap_cons_some found,
              List.filterMap_cons_some found]
            by_cases matching : p value
            · rw [List.find?_cons_of_pos matching, Option.some.injEq] at first
              subst value
              rw [List.eraseP_cons_of_pos holds, List.dropWhile_cons_of_neg (by simp [holds]),
                List.forall_mem_cons, eq_comm, filterMap_eq_cons_erase_iff canonical]
              simp
            · rw [List.find?_cons_of_neg matching] at first
              rw [List.eraseP_cons_of_neg matching,
                List.dropWhile_cons_of_pos (by simp [matching]), List.cons.injEq]
              simpa using ih first

end Erase

end Decoded
