import TinyWifi.Lib.Decimal

/-! IPv4 addresses in dotted decimal. -/

open Text

structure Ipv4Addr where
  octets : UInt8 × UInt8 × UInt8 × UInt8
  deriving DecidableEq, Repr

namespace Ipv4Addr

/-- At most three digits, and no zero in front of another digit. -/
def parseOctet (s : Str) : Option UInt8 :=
  if s.length ≤ 3 ∧ (s.head? = some '0' → s.length = 1) then
    (digits s).bind fun n => if n < 256 then some (UInt8.ofNat n) else none
  else none

def parse (s : Str) : Option Ipv4Addr :=
  match s.splitOn '.' with
  | [a, b, c, d] => do
    return ⟨← parseOctet a, ← parseOctet b, ← parseOctet c, ← parseOctet d⟩
  | _ => none

def print (ip : Ipv4Addr) : Str :=
  join ['.'] [printNat ip.octets.1.toNat, printNat ip.octets.2.1.toNat,
    printNat ip.octets.2.2.1.toNat, printNat ip.octets.2.2.2.toNat]

def toNat (ip : Ipv4Addr) : Nat :=
  ((ip.octets.1.toNat * 256 + ip.octets.2.1.toNat) * 256 + ip.octets.2.2.1.toNat) * 256 +
    ip.octets.2.2.2.toNat

def net24 (ip : Ipv4Addr) : UInt8 × UInt8 × UInt8 :=
  (ip.octets.1, ip.octets.2.1, ip.octets.2.2.1)

theorem parseOctet_printNat (octet : UInt8) :
    parseOctet (printNat octet.toNat) = some octet := by
  have all : ∀ n, n < 256 → parseOctet (printNat n) = some (UInt8.ofNat n) := by decide +kernel
  rw [all octet.toNat octet.toNat_lt, UInt8.ofNat_toNat]

/-- What is printed is read back. -/
@[simp] theorem parse_print (ip : Ipv4Addr) : parse ip.print = some ip := by
  have plain : ∀ part ∈ [printNat ip.octets.1.toNat, printNat ip.octets.2.1.toNat,
      printNat ip.octets.2.2.1.toNat, printNat ip.octets.2.2.2.toNat], '.' ∉ part := by
    intro part member
    simp only [List.mem_cons, List.not_mem_nil, or_false] at member
    rcases member with rfl | rfl | rfl | rfl <;> exact not_mem_printNat (by decide)
  rw [parse, print, join, List.splitOn_intercalate '.' plain (List.cons_ne_nil _ _)]
  simp only [parseOctet_printNat]
  rfl

theorem digits_of_parseOctet {s : Str} {octet : UInt8} (h : parseOctet s = some octet) :
    s ≠ [] ∧ ∀ c ∈ s, c.isDigit := by
  unfold parseOctet at h
  split at h
  · rcases Option.bind_eq_some_iff.mp h with ⟨n, number, _⟩
    unfold digits at number
    split at number
    · next shape => exact ⟨shape.1, List.all_eq_true.mp shape.2⟩
    · cases number
  · cases h

theorem last_of_parse {s : Str} {ip : Ipv4Addr} (h : parse s = some ip) :
    s ≠ [] ∧ ∀ c ∈ s.getLast?, c.isDigit := by
  unfold parse at h
  split at h
  · next a b c d parts =>
      simp only [Option.bind_eq_bind, Option.bind_eq_some_iff] at h
      rcases h with ⟨_, _, _, _, _, _, _, octet, _⟩
      have last := digits_of_parseOctet octet
      have whole : s = (a ++ '.' :: b ++ '.' :: c ++ ['.']) ++ d := by
        have joined : ['.'].intercalate (s.splitOn '.') = s := List.intercalate_splitOn '.'
        rw [← joined, parts]
        simp [List.intercalate, List.intersperse]
      rw [whole]
      refine ⟨List.append_ne_nil_of_right_ne_nil _ last.1, ?_⟩
      intro ch member
      rw [List.getLast?_append_of_ne_nil _ last.1] at member
      exact last.2 ch (List.mem_of_mem_getLast? member)
  · cases h

theorem digit_or_dot_of_parse {s : Str} {ip : Ipv4Addr} (h : parse s = some ip) {c : Char}
    (member : c ∈ s) : c.isDigit ∨ c = '.' := by
  unfold parse at h
  split at h
  · next a b c' d parts =>
      simp only [Option.bind_eq_bind, Option.bind_eq_some_iff] at h
      rcases h with ⟨_, first, _, second, _, third, _, fourth, _⟩
      have joined : join ['.'] (s.splitOn '.') = s := List.intercalate_splitOn '.'
      rw [← joined, parts] at member
      rcases mem_join member with dot | ⟨part, listed, inside⟩
      · exact .inr dot
      · refine .inl ?_
        simp only [List.mem_cons, List.not_mem_nil, or_false] at listed
        rcases listed with rfl | rfl | rfl | rfl
        · exact (digits_of_parseOctet first).2 c inside
        · exact (digits_of_parseOctet second).2 c inside
        · exact (digits_of_parseOctet third).2 c inside
        · exact (digits_of_parseOctet fourth).2 c inside
  · cases h

theorem print_ne_nil (ip : Ipv4Addr) : ip.print ≠ [] := by
  intro empty
  have back := parse_print ip
  have none : parse [] = none := by decide
  rw [empty, none] at back
  cases back

theorem digit_or_dot_of_mem_print {ip : Ipv4Addr} {c : Char} (member : c ∈ ip.print) :
    c.isDigit ∨ c = '.' := by
  rcases mem_join member with dot | ⟨part, listed, inside⟩
  · exact .inr dot
  · refine .inl ?_
    simp only [List.mem_cons, List.not_mem_nil, or_false] at listed
    rcases listed with rfl | rfl | rfl | rfl <;> exact isDigit_of_mem_printNat inside

theorem not_mem_print (ip : Ipv4Addr) {c : Char} (digit : c.isDigit = false) (dot : c ≠ '.') :
    c ∉ ip.print := by
  intro member
  rcases digit_or_dot_of_mem_print member with is_digit | is_dot
  · rw [digit] at is_digit
    cases is_digit
  · exact dot is_dot

theorem trimmed_print (ip : Ipv4Addr) : Trimmed ip.print := by
  apply trimmed_of_ink
  intro c member
  rcases digit_or_dot_of_mem_print member with digit | rfl
  · exact isDigit_not_whitespace digit
  · decide

/-- Between two addresses of one /24 network there are only addresses of it. -/
theorem net24_of_between {low ip high : Ipv4Addr} (network : low.net24 = high.net24)
    (first : low.toNat ≤ ip.toNat) (last : ip.toNat ≤ high.toNat) : ip.net24 = low.net24 := by
  rcases low with ⟨a, b, c, d⟩
  rcases ip with ⟨a', b', c', d'⟩
  rcases high with ⟨a'', b'', c'', d''⟩
  simp only [net24, Prod.mk.injEq] at network
  rcases network with ⟨rfl, rfl, rfl⟩
  simp only [toNat] at first last
  have bounds := And.intro d.toNat_lt d''.toNat_lt
  have bounds' := And.intro (And.intro a'.toNat_lt b'.toNat_lt) (And.intro c'.toNat_lt d'.toNat_lt)
  have front := And.intro a.toNat_lt (And.intro b.toNat_lt c.toNat_lt)
  simp only [net24, Prod.mk.injEq, ← UInt8.toNat_inj]
  omega

example : parse "192.168.1.1".toList = some ⟨192, 168, 1, 1⟩ ∧ parse "192.168.01.1".toList = none ∧
    parse "192.168.1".toList = none ∧ parse "192.168.1.256".toList = none := by decide

end Ipv4Addr
