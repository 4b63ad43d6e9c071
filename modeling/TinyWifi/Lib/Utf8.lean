import Mathlib.Data.List.Basic
import Mathlib.Tactic.Common

/-! Texts in UTF-8, split into lines at the level of bytes. The byte of a line feed occurs in no
other character. -/

namespace Utf8

theorem loop_eq (bytes : ByteArray) (i : Nat) (r : List UInt8) :
    ByteArray.toList.loop bytes i r = r.reverse ++ bytes.data.toList.drop i := by
  by_cases more : i < bytes.size
  · have size : i < bytes.data.toList.length := more
    have byte : bytes.get! i = bytes.data.toList[i] := by
      change bytes.data[i]! = _
      rw [getElem!_pos bytes.data i more]
      rfl
    rw [ByteArray.toList.loop, if_pos more, loop_eq bytes (i + 1), List.drop_eq_getElem_cons size,
      List.reverse_cons, List.append_assoc, byte]
    rfl
  · have size : bytes.data.toList.length ≤ i := Nat.le_of_not_lt more
    rw [ByteArray.toList.loop, if_neg more, List.drop_eq_nil_of_le size, List.append_nil]
termination_by bytes.size - i

theorem toList_eq (bytes : ByteArray) : bytes.toList = bytes.data.toList := by
  rw [ByteArray.toList, loop_eq]
  rfl

theorem toList_append (a b : ByteArray) : (a ++ b).toList = a.toList ++ b.toList := by
  rw [toList_eq, toList_eq, toList_eq, ByteArray.toList_data_append]

theorem toList_utf8Encode (s : List Char) :
    s.utf8Encode.toList = s.flatMap String.utf8EncodeChar := by
  rw [toList_eq, List.utf8Encode, List.toList_data_toByteArray]

theorem utf8Encode_eq (s : List Char) :
    s.utf8Encode = ⟨(s.flatMap String.utf8EncodeChar).toArray⟩ := by
  rw [List.utf8Encode, ← List.data_toByteArray]

theorem ofNat_ne_lf {n : Nat} (low : 128 ≤ n) (high : n < 256) : (10 : UInt8) ≠ UInt8.ofNat n := by
  intro same
  have number : (10 : UInt8).toNat = n := by rw [same, UInt8.toNat_ofNat_of_lt' high]
  have ten : (10 : UInt8).toNat = 10 := rfl
  omega

theorem eq_lf_of_mem {c : Char} (member : 10 ∈ String.utf8EncodeChar c) : c = '\n' := by
  have scalar : c.val.toNat < 1114112 := by
    rcases c.valid with low | high
    · have bound : c.val.toNat < 55296 := low
      omega
    · exact high.2
  unfold String.utf8EncodeChar at member
  dsimp only at member
  split at member
  · next ascii =>
      have bound : c.val.toNat < UInt8.size := by
        change _ < 256
        omega
      have number : (10 : UInt8).toNat = c.val.toNat := by
        rw [List.mem_singleton.mp member, UInt8.toNat_ofNat_of_lt' bound]
      exact Char.toNat_inj.mp number.symm
  · exfalso
    split at member
    · simp only [List.mem_cons, List.not_mem_nil, or_false] at member
      rcases member with byte | byte <;> exact ofNat_ne_lf (by omega) (by omega) byte
    · split at member
      · simp only [List.mem_cons, List.not_mem_nil, or_false] at member
        rcases member with byte | byte | byte <;> exact ofNat_ne_lf (by omega) (by omega) byte
      · simp only [List.mem_cons, List.not_mem_nil, or_false] at member
        rcases member with byte | byte | byte | byte <;>
          exact ofNat_ne_lf (by omega) (by omega) byte

section Split

variable {α : Type*} [BEq α]

/-- What is appended continues the last part. -/
theorem splitOn_append {d : α} {xs last : List α} {front : List (List α)}
    (h : xs.splitOn d = front ++ [last]) (more : List α) :
    (xs ++ more).splitOn d = front ++ (more.splitOn d).modifyHead (last ++ ·) := by
  induction xs generalizing front last with
  | nil =>
      rcases List.append_inj' (show [] ++ [[]] = front ++ [last] from h) rfl with ⟨rfl, same⟩
      cases same
      rw [List.nil_append, List.nil_append]
      cases more.splitOn d <;> rfl
  | cons c rest ih =>
      have tail := (List.dropLast_append_getLast (List.splitOn_ne_nil d rest)).symm
      have later := ih tail
      rw [List.cons_append, List.splitOn_cons_eq_if_modifyHead, later]
      rw [List.splitOn_cons_eq_if_modifyHead, tail] at h
      split at h
      · next sep =>
          rw [if_pos sep]
          rcases List.append_inj' (show ([] :: _) ++ [_] = front ++ [last] from h) rfl with
            ⟨rfl, same⟩
          cases same
          rfl
      · next other =>
          rw [if_neg other]
          cases before : (rest.splitOn d).dropLast with
          | nil =>
              rw [before] at h
              rcases List.append_inj' (show [] ++ [_] = front ++ [last] from h) rfl with
                ⟨rfl, same⟩
              cases same
              cases more.splitOn d <;> rfl
          | cons first others =>
              rw [before] at h
              rcases List.append_inj'
                (show ((c :: first) :: others) ++ [_] = front ++ [last] from h) rfl with ⟨rfl, same⟩
              cases same
              rfl

theorem splitOn_append_of_not_mem [LawfulBEq α] {d : α} {block : List α} (h : d ∉ block)
    (rest : List α) : (block ++ rest).splitOn d = (rest.splitOn d).modifyHead (block ++ ·) := by
  have single : block.splitOn d = [] ++ [block] := List.splitOn_eq_singleton h
  exact splitOn_append single rest

end Split

/-- The lines of the bytes are the bytes of the lines. -/
theorem splitOn_flatMap (s : List Char) :
    (s.flatMap String.utf8EncodeChar).splitOn 10 =
      (s.splitOn '\n').map fun line => line.flatMap String.utf8EncodeChar := by
  induction s with
  | nil => rfl
  | cons c rest ih =>
      rw [List.flatMap_cons, List.splitOn_cons_eq_if_modifyHead]
      by_cases lf : c = '\n'
      · subst c
        have byte : String.utf8EncodeChar '\n' = [10] := by decide
        rw [byte, if_pos (beq_self_eq_true '\n'), List.map_cons, ← ih, List.singleton_append,
          List.splitOn_cons_eq_if_modifyHead]
        rfl
      · have other : ¬ (c == '\n') = true := fun same => lf (eq_of_beq same)
        rw [if_neg other, splitOn_append_of_not_mem fun member => lf (eq_lf_of_mem member), ih]
        cases rest.splitOn '\n' <;> rfl

end Utf8
