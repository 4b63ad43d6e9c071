import TinyWifi.Lib.Lines

/-! Decimal numbers: `to_string` of the Rust integer types, and `parse` of the unsigned ones. -/

namespace Text

def printNat (n : Nat) : Str := Nat.toDigits 10 n

def printInt (n : Int) : Str :=
  if n < 0 then '-' :: printNat n.natAbs else printNat n.natAbs

def digits (s : Str) : Option Nat :=
  if s ≠ [] ∧ s.all Char.isDigit then some (Nat.ofDigitChars 10 s 0) else none

/-- `parse` of an unsigned type that holds the numbers below `bound`. -/
def parseUnsigned (bound : Nat) (s : Str) : Option Nat :=
  (match s with
    | '+' :: rest => digits rest
    | _ => digits s).filter (· < bound)

theorem isDigit_of_mem_printNat {n : Nat} {c : Char} (h : c ∈ printNat n) : c.isDigit :=
  Nat.isDigit_of_mem_toDigits (by decide) (by decide) h

theorem not_mem_printNat {n : Nat} {c : Char} (h : c.isDigit = false) : c ∉ printNat n := by
  intro member
  simp [isDigit_of_mem_printNat member] at h

theorem not_mem_printInt {n : Int} {c : Char} (digit : c.isDigit = false) (minus : c ≠ '-') :
    c ∉ printInt n := by
  have number : c ∉ printNat n.natAbs := not_mem_printNat digit
  unfold printInt
  split
  · exact List.not_mem_cons_of_ne_of_not_mem minus number
  · exact number

theorem digits_printNat (n : Nat) : digits (printNat n) = some n := by
  have nonempty : printNat n ≠ [] := Nat.toDigits_ne_nil
  have all : (printNat n).all Char.isDigit :=
    List.all_eq_true.mpr fun _ member => isDigit_of_mem_printNat member
  rw [digits, if_pos ⟨nonempty, all⟩, printNat, Nat.ofDigitChars_ten_toDigits]

theorem parseUnsigned_printNat {bound n : Nat} (h : n < bound) :
    parseUnsigned bound (printNat n) = some n := by
  have sign : ∀ rest, printNat n ≠ '+' :: rest := by
    intro rest shape
    exact not_mem_printNat (n := n) (c := '+') (by decide) (by simp [shape])
  unfold parseUnsigned
  split
  · exact absurd ‹_› (sign _)
  · simp [digits_printNat, h]

theorem isDigit_not_whitespace {c : Char} (h : c.isDigit) : isWhitespace c = false := by
  have bounds : 48 ≤ c.toNat ∧ c.toNat ≤ 57 := by
    simp only [Char.isDigit, Bool.and_eq_true, decide_eq_true_eq, ge_iff_le,
      UInt32.le_iff_toNat_le] at h
    exact h
  simp only [isWhitespace, Bool.or_eq_false_iff, Bool.and_eq_false_iff, decide_eq_false_iff_not,
    List.contains_eq_mem, List.mem_cons, List.not_mem_nil, or_false]
  omega

theorem trimmed_printNat (n : Nat) : Trimmed (printNat n) :=
  trimmed_of_ink fun _ member => isDigit_not_whitespace (isDigit_of_mem_printNat member)

example : parseUnsigned 65536 "65535".toList = some 65535 ∧
    parseUnsigned 65536 "65536".toList = none ∧ parseUnsigned 65536 "+7".toList = some 7 := by
  decide

end Text
