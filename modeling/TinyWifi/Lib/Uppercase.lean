import TinyWifi.Lib.Lowercase

/-! Upper case over a table of the character database. No character looks at its surroundings. -/

namespace Text

structure CaseData extends UnicodeData where
  upper : Char → Str
  upper_ne_nil : ∀ c, upper c ≠ []

namespace CaseData

def ascii : CaseData where
  toUnicodeData := .ascii
  upper c := [c.toUpper]
  upper_ne_nil _ := List.cons_ne_nil _ _

variable (u : CaseData)

def toUppercase (s : Str) : Str := s.flatMap u.upper

structure Lawful (u : CaseData) : Prop where
  lower : u.toUnicodeData.Lawful
  upper_white : ∀ c, isWhitespace c → u.upper c = [c]
  white_of_upper : ∀ c, ∀ d ∈ u.upper c, isWhitespace d → isWhitespace c
  upper_upper : ∀ c, ∀ d ∈ u.upper c, u.upper d = [d]

section Lawful

variable {u} (lawful : u.Lawful)

include lawful

@[simp] theorem Lawful.toUppercase_toUppercase (s : Str) :
    u.toUppercase (u.toUppercase s) = u.toUppercase s := by
  have same : ∀ d ∈ u.toUppercase s, u.upper d = [d] := by
    intro d member
    rcases List.mem_flatMap.mp member with ⟨c, _, inside⟩
    exact lawful.upper_upper c d inside
  generalize u.toUppercase s = t at same
  induction t with
  | nil => rfl
  | cons d rest ih =>
      rw [toUppercase, List.flatMap_cons, same d List.mem_cons_self, List.singleton_append]
      exact congrArg _ (ih fun e member => same e (List.mem_cons_of_mem _ member))

theorem Lawful.toUppercase_white {blanks : Str} (white : ∀ c ∈ blanks, isWhitespace c) :
    u.toUppercase blanks = blanks := by
  induction blanks with
  | nil => rfl
  | cons c rest ih =>
      rw [toUppercase, List.flatMap_cons, lawful.upper_white c (white c List.mem_cons_self),
        List.singleton_append]
      exact congrArg _ (ih fun d member => white d (List.mem_cons_of_mem _ member))

theorem Lawful.trimmed_toUppercase {s : Str} (h : Trimmed s) : Trimmed (u.toUppercase s) := by
  have ink {c : Char} (here : isWhitespace c = false) :
      ∀ d ∈ u.upper c, isWhitespace d = false := by
    intro d member
    by_contra white
    rw [lawful.white_of_upper c d member (by simpa using white)] at here
    cases here
  constructor
  · cases s with
    | nil => intro c member; cases member
    | cons c rest =>
        intro d member
        rw [toUppercase, List.flatMap_cons, List.head?_append_of_ne_nil _ (u.upper_ne_nil c)]
          at member
        exact ink (h.head c rfl) d (List.mem_of_mem_head? member)
  · rcases List.eq_nil_or_concat s with rfl | ⟨front, c, rfl⟩
    · intro c member
      cases member
    · intro d member
      rw [List.concat_eq_append] at h member
      rw [toUppercase, List.flatMap_append, List.flatMap_cons, List.flatMap_nil, List.append_nil,
        List.getLast?_append_of_ne_nil _ (u.upper_ne_nil c)] at member
      exact ink (h.last c List.getLast?_concat) d (List.mem_of_mem_getLast? member)

theorem Lawful.toUppercase_trim (s : Str) : u.toUppercase (trim s) = trim (u.toUppercase s) := by
  rcases around_trim s with ⟨front, back, split, white_front, white_back⟩
  have whole : u.toUppercase s = front ++ u.toUppercase (trim s) ++ back := by
    conv_lhs => rw [split]
    rw [toUppercase, List.flatMap_append, List.flatMap_append]
    exact congrArg₂ (· ++ ·)
      (congrArg (· ++ _) (lawful.toUppercase_white white_front))
      (lawful.toUppercase_white white_back)
  rw [whole, trim_around white_front white_back (lawful.trimmed_toUppercase (trimmed_trim s))]

end Lawful

/-- Besides, no other character has a comma in its upper case. -/
structure LawfulCommas (u : CaseData) : Prop extends u.Lawful where
  comma_of_upper : ∀ c, ',' ∈ u.upper c → c = ','

theorem LawfulCommas.comma {u : CaseData} (lawful : u.LawfulCommas) {s : Str}
    (member : ',' ∈ u.toUppercase s) : ',' ∈ s := by
  rcases List.mem_flatMap.mp member with ⟨c, inside, upper⟩
  exact lawful.comma_of_upper c upper ▸ inside

section Ascii

theorem toNat_toUpper (c : Char) :
    c.toUpper.toNat = if 97 ≤ c.toNat ∧ c.toNat ≤ 122 then c.toNat - 32 else c.toNat := by
  unfold Char.toUpper
  split
  · next lower =>
      have bounds : 97 ≤ c.toNat ∧ c.toNat ≤ 122 := lower
      rw [if_pos bounds]
      change (c.val + 4294967264).toNat = c.toNat - 32
      rw [UInt32.toNat_add]
      change (c.toNat + 4294967264) % 2 ^ 32 = c.toNat - 32
      omega
  · next other =>
      have bounds : ¬ (97 ≤ c.toNat ∧ c.toNat ≤ 122) := other
      rw [if_neg bounds]

theorem ascii_lawful : ascii.Lawful := by
  have same {c d : Char} (equal : c.toNat = d.toNat) : c = d :=
    Char.toNat_inj.mp equal
  constructor
  · exact UnicodeData.ascii_lawful
  · intro c white
    rw [isWhitespace_iff] at white
    refine congrArg (fun d => [d]) (same ?_)
    rw [toNat_toUpper]
    simp only [List.mem_cons, List.not_mem_nil, or_false] at white
    split <;> omega
  · intro c d member white
    rw [List.mem_singleton.mp member, isWhitespace_iff, toNat_toUpper] at white
    rw [isWhitespace_iff]
    simp only [List.mem_cons, List.not_mem_nil, or_false] at white ⊢
    split at white <;> omega
  · intro c d member
    rw [List.mem_singleton.mp member]
    refine congrArg (fun e => [e]) (same ?_)
    have upper : ¬ (97 ≤ c.toUpper.toNat ∧ c.toUpper.toNat ≤ 122) := by
      rw [toNat_toUpper]
      split <;> omega
    rw [toNat_toUpper, if_neg upper]

theorem ascii_lawfulCommas : ascii.LawfulCommas where
  toLawful := ascii_lawful
  comma_of_upper c member := by
    have upper : c.toUpper.toNat = 44 := congrArg Char.toNat (List.mem_singleton.mp member).symm
    rw [toNat_toUpper] at upper
    have number : c.toNat = (',' : Char).toNat := by
      change c.toNat = 44
      split at upper <;> omega
    exact Char.toNat_inj.mp number

end Ascii

end CaseData

end Text
