import TinyWifi.Lib.Text

/-! Lower case over a table of the character database. -/

namespace Text

structure UnicodeData where
  lower : Char → Str
  cased : Char → Bool
  caseIgnorable : Char → Bool
  lower_ne_nil : ∀ c, lower c ≠ []

namespace UnicodeData

def ascii : UnicodeData where
  lower c := [c.toLower]
  cased c := c.isAlpha
  caseIgnorable c := c = '.' ∨ c = ':' ∨ c = '^' ∨ c = Char.ofNat 39 ∨ c = Char.ofNat 96
  lower_ne_nil _ := List.cons_ne_nil _ _

variable (u : UnicodeData)

def caseIgnorableThenCased (s : Str) : Bool :=
  match s.dropWhile u.caseIgnorable with
  | [] => false
  | c :: _ => u.cased c

/-- Sigma alone looks at what stands around it: at the end of a word it becomes a final sigma. -/
def lowerAt (before : Str) (c : Char) (after : Str) : Str :=
  if c = 'Σ' then
    if u.caseIgnorableThenCased before && !u.caseIgnorableThenCased after then ['ς'] else ['σ']
  else u.lower c

/-- The text before the rest is given with its last character in front. -/
def lowerFrom (before : Str) : Str → Str
  | [] => []
  | c :: rest => u.lowerAt before c rest ++ lowerFrom (c :: before) rest

def toLowercase (s : Str) : Str := u.lowerFrom [] s

theorem lowerAt_ne_nil (before : Str) (c : Char) (after : Str) :
    u.lowerAt before c after ≠ [] := by
  unfold lowerAt
  split
  · split <;> exact List.cons_ne_nil _ _
  · exact u.lower_ne_nil c

theorem toLowercase_ne_nil {s : Str} (h : s ≠ []) : u.toLowercase s ≠ [] := by
  cases s with
  | nil => exact absurd rfl h
  | cons c rest =>
      intro empty
      rw [toLowercase, lowerFrom, List.append_eq_nil_iff] at empty
      exact u.lowerAt_ne_nil [] c rest empty.1

/-- What the character database says about blanks, commas and letters that are lower case
already. -/
structure Lawful (u : UnicodeData) : Prop where
  lower_white : ∀ c, isWhitespace c → u.lower c = [c]
  white_of_lower : ∀ c, ∀ d ∈ u.lower c, isWhitespace d → isWhitespace c
  comma_of_lower : ∀ c, ',' ∈ u.lower c → c = ','
  lower_lower : ∀ c, c ≠ 'Σ' → ∀ d ∈ u.lower c, u.lower d = [d] ∧ d ≠ 'Σ'
  lower_sigma : u.lower 'σ' = ['σ'] ∧ u.lower 'ς' = ['ς']
  white_not_cased : ∀ c, isWhitespace c → u.cased c = false
  white_not_ignorable : ∀ c, isWhitespace c → u.caseIgnorable c = false

section Lawful

variable {u}

theorem mem_lowerAt {before after : Str} {c d : Char} (h : d ∈ u.lowerAt before c after) :
    d = 'σ' ∨ d = 'ς' ∨ (c ≠ 'Σ' ∧ d ∈ u.lower c) := by
  unfold lowerAt at h
  by_cases sigma : c = 'Σ'
  · rw [if_pos sigma] at h
    split at h
    · exact .inr (.inl (List.mem_singleton.mp h))
    · exact .inl (List.mem_singleton.mp h)
  · rw [if_neg sigma] at h
    exact .inr (.inr ⟨sigma, h⟩)

theorem mem_lowerFrom {before s : Str} {d : Char} (h : d ∈ u.lowerFrom before s) :
    d = 'σ' ∨ d = 'ς' ∨ ∃ c ∈ s, c ≠ 'Σ' ∧ d ∈ u.lower c := by
  induction s generalizing before with
  | nil => cases h
  | cons c rest ih =>
      rcases List.mem_append.mp h with here | later
      · rcases mem_lowerAt here with sigma | final | ⟨other, inside⟩
        · exact .inl sigma
        · exact .inr (.inl final)
        · exact .inr (.inr ⟨c, List.mem_cons_self, other, inside⟩)
      · rcases ih later with sigma | final | ⟨e, member, other, inside⟩
        · exact .inl sigma
        · exact .inr (.inl final)
        · exact .inr (.inr ⟨e, List.mem_cons_of_mem _ member, other, inside⟩)

theorem mem_toLowercase {s : Str} {d : Char} (plain : d ≠ 'σ' ∧ d ≠ 'ς')
    (h : d ∈ u.toLowercase s) : ∃ c ∈ s, d ∈ u.lower c := by
  rcases mem_lowerFrom h with sigma | final | ⟨c, member, _, inside⟩
  · exact absurd sigma plain.1
  · exact absurd final plain.2
  · exact ⟨c, member, inside⟩

theorem lowerFrom_of_lower {before s : Str}
    (h : ∀ d ∈ s, u.lower d = [d] ∧ d ≠ 'Σ') : u.lowerFrom before s = s := by
  induction s generalizing before with
  | nil => rfl
  | cons c rest ih =>
      have first := h c List.mem_cons_self
      rw [lowerFrom, lowerAt, if_neg first.2, first.1,
        ih fun d member => h d (List.mem_cons_of_mem _ member), List.singleton_append]

variable (lawful : u.Lawful)

include lawful

theorem Lawful.comma {s : Str} (h : ',' ∈ u.toLowercase s) : ',' ∈ s := by
  obtain ⟨c, member, inside⟩ := mem_toLowercase (by decide) h
  rwa [lawful.comma_of_lower c inside] at member

theorem Lawful.lf {s : Str} (h : '\n' ∈ u.toLowercase s) : '\n' ∈ s := by
  obtain ⟨c, member, inside⟩ := mem_toLowercase (by decide) h
  rw [lawful.lower_white c (lawful.white_of_lower c _ inside (by decide)),
    List.mem_singleton] at inside
  rwa [← inside] at member

theorem Lawful.lower_of_mem {before s : Str} {d : Char} (member : d ∈ u.lowerFrom before s) :
    u.lower d = [d] ∧ d ≠ 'Σ' := by
  rcases mem_lowerFrom member with rfl | rfl | ⟨c, _, other, inside⟩
  · exact ⟨lawful.lower_sigma.1, by decide⟩
  · exact ⟨lawful.lower_sigma.2, by decide⟩
  · exact lawful.lower_lower c other d inside

@[simp] theorem Lawful.toLowercase_toLowercase (s : Str) :
    u.toLowercase (u.toLowercase s) = u.toLowercase s :=
  lowerFrom_of_lower fun _ member => lawful.lower_of_mem member

/-- A text in lower case stays as it is after any other text. -/
theorem Lawful.lowerFrom_append_lower (before front s : Str) :
    ∃ first, u.lowerFrom before (front ++ u.toLowercase s) = first ++ u.toLowercase s ∧
      (first = [] → front = []) := by
  induction front generalizing before with
  | nil =>
      exact ⟨[], lowerFrom_of_lower fun _ member => lawful.lower_of_mem member, fun _ => rfl⟩
  | cons c rest ih =>
      rcases ih (c :: before) with ⟨first, shape, _⟩
      refine ⟨u.lowerAt before c (rest ++ u.toLowercase s) ++ first, ?_, fun empty => ?_⟩
      · rw [List.cons_append, lowerFrom, shape, List.append_assoc]
      · exact absurd (List.append_eq_nil_iff.mp empty).1 (u.lowerAt_ne_nil _ _ _)

/-- A blank ends a word as the end of the text does. -/
theorem Lawful.ignorable_append (s : Str) {blanks : Str} (white : ∀ c ∈ blanks, isWhitespace c) :
    u.caseIgnorableThenCased (s ++ blanks) = u.caseIgnorableThenCased s := by
  induction s with
  | nil =>
      cases blanks with
      | nil => rfl
      | cons c rest =>
          have blank := white c List.mem_cons_self
          rw [List.nil_append, caseIgnorableThenCased, caseIgnorableThenCased,
            List.dropWhile_cons_of_neg (by simp [lawful.white_not_ignorable c blank])]
          exact lawful.white_not_cased c blank
  | cons c rest ih =>
      rw [caseIgnorableThenCased, caseIgnorableThenCased] at ih ⊢
      by_cases ignorable : u.caseIgnorable c
      · rw [List.cons_append, List.dropWhile_cons_of_pos ignorable,
          List.dropWhile_cons_of_pos ignorable]
        exact ih
      · rw [List.cons_append, List.dropWhile_cons_of_neg ignorable,
          List.dropWhile_cons_of_neg ignorable]

theorem Lawful.lowerFrom_before (before s : Str) {blanks : Str}
    (white : ∀ c ∈ blanks, isWhitespace c) :
    u.lowerFrom (before ++ blanks) s = u.lowerFrom before s := by
  induction s generalizing before with
  | nil => rfl
  | cons c rest ih =>
      rw [lowerFrom, lowerFrom, lowerAt, lowerAt, lawful.ignorable_append before white,
        ← List.cons_append, ih]

theorem Lawful.lowerFrom_white (before : Str) {blanks : Str}
    (white : ∀ c ∈ blanks, isWhitespace c) (s : Str) :
    u.lowerFrom before (blanks ++ s) = blanks ++ u.lowerFrom (blanks.reverse ++ before) s := by
  induction blanks generalizing before with
  | nil => rfl
  | cons c rest ih =>
      have blank := white c List.mem_cons_self
      have plain : c ≠ 'Σ' := by
        rintro rfl
        exact absurd blank (by decide)
      rw [List.cons_append, lowerFrom, lowerAt, if_neg plain, lawful.lower_white c blank,
        ih (c :: before) fun d member => white d (List.mem_cons_of_mem _ member)]
      simp

theorem Lawful.lowerFrom_append (before s : Str) {blanks : Str}
    (white : ∀ c ∈ blanks, isWhitespace c) :
    u.lowerFrom before (s ++ blanks) = u.lowerFrom before s ++ blanks := by
  induction s generalizing before with
  | nil =>
      have all := lawful.lowerFrom_white before white []
      rw [List.append_nil] at all
      rw [List.nil_append, all, lowerFrom, lowerFrom, List.append_nil, List.nil_append]
  | cons c rest ih =>
      rw [List.cons_append, lowerFrom, lowerFrom, lowerAt, lowerAt,
        lawful.ignorable_append rest white, ih, List.append_assoc]

/-- Blanks around a text stand around it in lower case. -/
theorem Lawful.toLowercase_around {front back : Str} (white_front : ∀ c ∈ front, isWhitespace c)
    (white_back : ∀ c ∈ back, isWhitespace c) (s : Str) :
    u.toLowercase (front ++ s ++ back) = front ++ u.toLowercase s ++ back := by
  have white_reverse : ∀ c ∈ front.reverse, isWhitespace c :=
    fun c member => white_front c (List.mem_reverse.mp member)
  have inner := lawful.lowerFrom_before [] s white_reverse
  rw [toLowercase, lawful.lowerFrom_append _ _ white_back, lawful.lowerFrom_white _ white_front,
    List.append_nil]
  rw [List.nil_append] at inner
  rw [inner]
  rfl

theorem Lawful.lowerAt_not_white {before after : Str} {c : Char} (ink : isWhitespace c = false) :
    ∀ d ∈ u.lowerAt before c after, isWhitespace d = false := by
  intro d member
  rcases mem_lowerAt member with rfl | rfl | ⟨_, inside⟩
  · decide
  · decide
  · by_contra white
    rw [lawful.white_of_lower c d inside (by simpa using white)] at ink
    cases ink

theorem Lawful.toLowercase_not_white {s : Str} (ink : ∀ c ∈ s, isWhitespace c = false) :
    ∀ d ∈ u.toLowercase s, isWhitespace d = false := by
  intro d member
  rcases mem_lowerFrom member with rfl | rfl | ⟨c, inside, _, lower⟩
  · decide
  · decide
  · by_contra white
    have blank := lawful.white_of_lower c d lower (by simpa using white)
    rw [ink c inside] at blank
    cases blank

omit lawful in
theorem lowerFrom_concat (before front : Str) (c : Char) :
    ∃ first behind, u.lowerFrom before (front ++ [c]) = first ++ u.lowerAt behind c [] := by
  induction front generalizing before with
  | nil => exact ⟨[], before, List.append_nil _⟩
  | cons d rest ih =>
      obtain ⟨first, behind, shape⟩ := ih (d :: before)
      refine ⟨u.lowerAt before d (rest ++ [c]) ++ first, behind, ?_⟩
      rw [List.cons_append, lowerFrom, shape, List.append_assoc]

theorem Lawful.trimmed_toLowercase {s : Str} (h : Trimmed s) : Trimmed (u.toLowercase s) := by
  constructor
  · cases s with
    | nil => intro c member; cases member
    | cons c rest =>
        intro d member
        rw [toLowercase, lowerFrom, List.head?_append_of_ne_nil _ (u.lowerAt_ne_nil [] c rest)]
          at member
        exact lawful.lowerAt_not_white (h.head c rfl) d (List.mem_of_mem_head? member)
  · rcases List.eq_nil_or_concat s with rfl | ⟨front, c, rfl⟩
    · intro c member
      cases member
    · intro d member
      rw [List.concat_eq_append] at h member
      obtain ⟨first, behind, shape⟩ := @lowerFrom_concat u [] front c
      rw [toLowercase, shape, List.getLast?_append_of_ne_nil _ (u.lowerAt_ne_nil behind c [])]
        at member
      exact lawful.lowerAt_not_white (h.last c List.getLast?_concat) d
        (List.mem_of_mem_getLast? member)

theorem Lawful.toLowercase_trim (s : Str) : u.toLowercase (trim s) = trim (u.toLowercase s) := by
  obtain ⟨front, back, split, white_front, white_back⟩ := around_trim s
  have whole := lawful.toLowercase_around white_front white_back (trim s)
  rw [← split] at whole
  rw [whole, trim_around white_front white_back (lawful.trimmed_toLowercase (trimmed_trim s))]

end Lawful

section Ascii

theorem toNat_toLower (c : Char) :
    c.toLower.toNat = if 65 ≤ c.toNat ∧ c.toNat ≤ 90 then c.toNat + 32 else c.toNat := by
  unfold Char.toLower
  split
  · next upper =>
      have bounds : 65 ≤ c.toNat ∧ c.toNat ≤ 90 := upper
      rw [if_pos bounds]
      change (c.val + 32).toNat = c.toNat + 32
      rw [UInt32.toNat_add]
      exact Nat.mod_eq_of_lt (by change c.toNat + 32 < 2 ^ 32; omega)
  · next other =>
      have bounds : ¬ (65 ≤ c.toNat ∧ c.toNat ≤ 90) := other
      rw [if_neg bounds]

theorem ascii_lawful : ascii.Lawful := by
  have same {c d : Char} (equal : c.toNat = d.toNat) : c = d :=
    Char.toNat_inj.mp equal
  constructor
  · intro c white
    rw [isWhitespace_iff] at white
    refine congrArg (fun d => [d]) (same ?_)
    rw [toNat_toLower]
    simp only [List.mem_cons, List.not_mem_nil, or_false] at white
    split <;> omega
  · intro c d member white
    rw [List.mem_singleton.mp member, isWhitespace_iff, toNat_toLower] at white
    rw [isWhitespace_iff]
    simp only [List.mem_cons, List.not_mem_nil, or_false] at white ⊢
    split at white <;> omega
  · intro c member
    have code := congrArg Char.toNat (List.mem_singleton.mp member)
    apply same
    rw [toNat_toLower] at code
    change 44 = _ at code
    change c.toNat = 44
    split at code <;> omega
  · intro c other d member
    rw [List.mem_singleton.mp member]
    have lower : ¬ (65 ≤ c.toLower.toNat ∧ c.toLower.toNat ≤ 90) := by
      rw [toNat_toLower]
      split <;> omega
    constructor
    · refine congrArg (fun e => [e]) (same ?_)
      rw [toNat_toLower, if_neg lower]
    · intro sigma
      have code := congrArg Char.toNat sigma
      rw [toNat_toLower] at code
      apply other
      apply same
      change _ = 931 at code
      change c.toNat = 931
      split at code <;> omega
  · decide
  · intro c white
    rw [isWhitespace_iff] at white
    simp only [List.mem_cons, List.not_mem_nil, or_false] at white
    have codes : ¬ (65 ≤ c.toNat ∧ c.toNat ≤ 90) ∧ ¬ (97 ≤ c.toNat ∧ c.toNat ≤ 122) := by omega
    have upper : c.isUpper = false := decide_eq_false codes.1
    have lower : c.isLower = false := by
      change (decide (97 ≤ c.toNat) && decide (c.toNat ≤ 122)) = false
      rw [← Bool.decide_and]
      exact decide_eq_false codes.2
    change (c.isUpper || c.isLower) = false
    rw [upper, lower]
    rfl
  · intro c white
    apply decide_eq_false
    intro ignorable
    rcases ignorable with rfl | rfl | rfl | rfl | rfl <;> exact absurd white (by decide)

end Ascii

end UnicodeData

end Text
