import Mathlib.Data.List.DropRight
import Mathlib.Tactic.Common

/-! Text as a list of characters, with the `str` operations of the Rust standard library. -/

namespace Text

abbrev Str := List Char

/-- The characters with the Unicode property White_Space. -/
def isWhitespace (c : Char) : Bool :=
  (9 ≤ c.toNat && c.toNat ≤ 13) || (0x2000 ≤ c.toNat && c.toNat ≤ 0x200A) ||
    [0x20, 0x85, 0xA0, 0x1680, 0x2028, 0x2029, 0x202F, 0x205F, 0x3000].contains c.toNat

def trimStart (s : Str) : Str := s.dropWhile isWhitespace

def trimEnd (s : Str) : Str := s.rdropWhile isWhitespace

def trim (s : Str) : Str := trimEnd (trimStart s)

/-- The number of bytes of the text in UTF-8. -/
def byteLen (s : Str) : Nat := s.foldr (fun c n => c.utf8Size + n) 0

def splitOnce (d : Char) : Str → Option (Str × Str)
  | [] => none
  | c :: rest =>
    if c = d then some ([], rest)
    else (splitOnce d rest).map fun (before, after) => (c :: before, after)

/-- `str::splitn` at a character: at most this many parts, the last one with all that is left. -/
def splitN (d : Char) : Nat → Str → List Str
  | 0, _ => []
  | 1, s => [s]
  | n + 2, s =>
    match splitOnce d s with
    | some (part, rest) => part :: splitN d (n + 1) rest
    | none => [s]

def splitWhitespace (s : Str) : List Str := (s.splitOnP isWhitespace).filter (· ≠ [])

def join (sep : Str) (parts : List Str) : Str := sep.intercalate parts

def startsWith {α : Type*} [DecidableEq α] (part s : List α) : Bool := part.isPrefixOf s

def contains {α : Type*} [DecidableEq α] (part : List α) : List α → Bool
  | [] => part.isEmpty
  | c :: rest => startsWith part (c :: rest) || contains part rest

theorem startsWith_iff {α : Type*} [DecidableEq α] {part s : List α} :
    startsWith part s = true ↔ part <+: s := List.isPrefixOf_iff_prefix

theorem contains_iff {α : Type*} [DecidableEq α] {part s : List α} :
    contains part s = true ↔ part <:+: s := by
  induction s with
  | nil => rw [contains, List.isEmpty_iff, List.infix_nil]
  | cons c rest ih => rw [contains, Bool.or_eq_true, startsWith_iff, ih, List.infix_cons_iff]

theorem isWhitespace_iff (c : Char) :
    isWhitespace c = true ↔ (9 ≤ c.toNat ∧ c.toNat ≤ 13) ∨ (0x2000 ≤ c.toNat ∧ c.toNat ≤ 0x200A) ∨
      c.toNat ∈ [0x20, 0x85, 0xA0, 0x1680, 0x2028, 0x2029, 0x202F, 0x205F, 0x3000] := by
  simp [isWhitespace, or_assoc]

section Trim

/-- Neither end of the text is white space. -/
structure Trimmed (s : Str) : Prop where
  head : ∀ c ∈ s.head?, isWhitespace c = false
  last : ∀ c ∈ s.getLast?, isWhitespace c = false

theorem trimmed_of_ink {s : Str} (ink : ∀ c ∈ s, isWhitespace c = false) : Trimmed s where
  head c member := ink c (List.mem_of_mem_head? member)
  last c member := ink c (List.mem_of_mem_getLast? member)

theorem not_mem_of_ink {s : Str} {c : Char} (white : isWhitespace c = true)
    (ink : ∀ d ∈ s, isWhitespace d = false) : c ∉ s := by
  intro member
  rw [ink c member] at white
  cases white

theorem trimStart_eq_self (s : Str) (h : ∀ c ∈ s.head?, isWhitespace c = false) :
    trimStart s = s := by
  cases s with
  | nil => rfl
  | cons c rest => simp [trimStart, h c (by simp)]

theorem trimEnd_eq_self (s : Str) (h : ∀ c ∈ s.getLast?, isWhitespace c = false) :
    trimEnd s = s := by
  rw [trimEnd, List.rdropWhile_eq_self_iff]
  intro nonempty
  simpa using h _ (List.getLast?_eq_some_getLast nonempty)

theorem trim_of_trimmed {s : Str} (h : Trimmed s) : trim s = s := by
  rw [trim, trimStart_eq_self s h.head, trimEnd_eq_self s h.last]

theorem head_trimStart (s : Str) : ∀ c ∈ (trimStart s).head?, isWhitespace c = false := by
  induction s with
  | nil => simp [trimStart]
  | cons c rest ih =>
      intro d member
      by_cases white : isWhitespace c
      · exact ih d (by simpa [trimStart, white] using member)
      · have same : c = d := by simpa [trimStart, white] using member
        simpa [← same] using white

theorem trimEnd_isPrefix (s : Str) : trimEnd s <+: s := List.rdropWhile_prefix _ _

theorem trimmed_trim (s : Str) : Trimmed (trim s) := by
  constructor
  · intro c member
    obtain ⟨rest, split⟩ := trimEnd_isPrefix (trimStart s)
    cases shape : trim s with
    | nil => simp [shape] at member
    | cons d more =>
        have same : d = c := by simpa [shape] using member
        have whole : trimStart s = d :: (more ++ rest) := by
          rw [← split, ← trim, shape, List.cons_append]
        exact head_trimStart s c (by simp [whole, same])
  · intro c member
    by_cases nonempty : trim s = []
    · simp [nonempty] at member
    · have last := List.rdropWhile_last_not isWhitespace (trimStart s) nonempty
      rw [List.getLast?_eq_some_getLast nonempty, Option.mem_some_iff] at member
      rw [← member]
      exact Bool.eq_false_iff.mpr last

@[simp] theorem trim_trim (s : Str) : trim (trim s) = trim s := trim_of_trimmed (trimmed_trim s)

theorem trimmed_of_trim_eq {s : Str} (same : trim s = s) : Trimmed s := same ▸ trimmed_trim s

theorem trimStart_append (a b : Str) {c : Char} (ink : isWhitespace c = false) :
    trimStart (a ++ c :: b) = trimStart a ++ c :: b := by
  rw [trimStart, trimStart, List.dropWhile_append]
  split
  · next blank =>
      rw [List.isEmpty_iff.mp blank, List.dropWhile_cons_of_neg (by simp [ink]), List.nil_append]
  · rfl

theorem trim_trimStart (s : Str) : trim (trimStart s) = trim s := by
  rw [trim, trimStart_eq_self _ (head_trimStart s), trim]

theorem around_trim (s : Str) : ∃ front back, s = front ++ trim s ++ back ∧
    (∀ c ∈ front, isWhitespace c) ∧ ∀ c ∈ back, isWhitespace c := by
  refine ⟨s.takeWhile isWhitespace, (trimStart s).rtakeWhile isWhitespace, ?_, ?_, ?_⟩
  · rw [List.append_assoc, trim, trimEnd, List.rdropWhile_append_rtakeWhile, trimStart,
      List.takeWhile_append_dropWhile]
  · exact fun c member => List.mem_takeWhile_imp member
  · exact fun c member => List.mem_rtakeWhile_imp member

theorem trim_around {front back : Str} (white_front : ∀ c ∈ front, isWhitespace c)
    (white_back : ∀ c ∈ back, isWhitespace c) {s : Str} (h : Trimmed s) :
    trim (front ++ s ++ back) = s := by
  have start : trimStart (front ++ (s ++ back)) = trimStart (s ++ back) :=
    List.dropWhile_append_of_pos white_front
  rw [List.append_assoc, trim, start]
  by_cases empty : s = []
  · have all : trimStart back = [] := List.dropWhile_eq_nil_iff.mpr white_back
    rw [empty, List.nil_append, all]
    rfl
  · have kept : trimStart (s ++ back) = s ++ back := by
      apply trimStart_eq_self
      rw [List.head?_append_of_ne_nil _ empty]
      exact h.head
    rw [kept, trimEnd, List.rdropWhile, List.reverse_append,
      List.dropWhile_append_of_pos fun c member => white_back c (List.mem_reverse.mp member),
      ← List.rdropWhile]
    exact trimEnd_eq_self s h.last

theorem trim_white_append {front : Str} (white : ∀ c ∈ front, isWhitespace c) (s : Str) :
    trim (front ++ s) = trim s := by
  have start : trimStart (front ++ s) = trimStart s := List.dropWhile_append_of_pos white
  rw [trim, start, trim]

theorem trim_eq_nil_iff (s : Str) : trim s = [] ↔ trimStart s = [] := by
  constructor
  · intro empty
    by_contra nonempty
    have head := head_trimStart s
    cases shape : trimStart s with
    | nil => exact nonempty shape
    | cons c rest =>
        rw [trim, trimEnd, List.rdropWhile_eq_nil_iff] at empty
        have white := empty c (by simp [shape])
        rw [head c (by simp [shape])] at white
        cases white
  · intro empty
    rw [trim, empty]
    rfl

theorem head_trim (s : Str) : (trim s).head? = (trimStart s).head? := by
  by_cases empty : trim s = []
  · rw [empty, (trim_eq_nil_iff s).mp empty]
  · rcases trimEnd_isPrefix (trimStart s) with ⟨rest, shape⟩
    rw [← shape, List.head?_append_of_ne_nil _ (by exact empty)]
    rfl

theorem mem_of_mem_trim {s : Str} {c : Char} (h : c ∈ trim s) : c ∈ s :=
  (List.dropWhile_sublist _).mem ((trimEnd_isPrefix (trimStart s)).sublist.mem h)

end Trim

section SplitOnce

variable {d : Char}

theorem splitOnce_append (before after : Str) (h : d ∉ before) :
    splitOnce d (before ++ d :: after) = some (before, after) := by
  induction before with
  | nil => simp [splitOnce]
  | cons c rest ih =>
      simp only [List.mem_cons, not_or] at h
      simp [splitOnce, Ne.symm h.1, ih h.2]

theorem splitOnce_eq_some {s before after : Str} (h : splitOnce d s = some (before, after)) :
    s = before ++ d :: after ∧ d ∉ before := by
  induction s generalizing before with
  | nil => simp [splitOnce] at h
  | cons c rest ih =>
      by_cases same : c = d
      · simp only [splitOnce, same, if_true, Option.some.injEq, Prod.mk.injEq] at h
        rcases h with ⟨rfl, rfl⟩
        simp [same]
      · simp only [splitOnce, same, if_false, Option.map_eq_some_iff, Prod.mk.injEq] at h
        obtain ⟨⟨front, back⟩, found, rfl, rfl⟩ := h
        obtain ⟨whole, absent⟩ := ih found
        exact ⟨by simp [whole], by simp [absent, Ne.symm same]⟩

theorem not_mem_of_splitOnce_eq_none {s : Str} (h : splitOnce d s = none) : d ∉ s := by
  induction s with
  | nil => simp
  | cons c rest ih =>
      by_cases same : c = d
      · simp [splitOnce, same] at h
      · simp only [splitOnce, same, if_false, Option.map_eq_none_iff] at h
        simp [ih h, Ne.symm same]

theorem splitOnce_eq_none_iff {s : Str} : splitOnce d s = none ↔ d ∉ s := by
  constructor
  · exact not_mem_of_splitOnce_eq_none
  · intro absent
    cases found : splitOnce d s with
    | none => rfl
    | some parts =>
        rw [(splitOnce_eq_some found).1] at absent
        exact absurd (List.mem_append_right _ List.mem_cons_self) absent

/-- What stands in front of the first separator, trimmed, is the same in a trimmed text. -/
theorem key_trim (ink : isWhitespace d = false) (s : Str) :
    (splitOnce d (trim s)).map (fun parts => trim parts.1) =
      (splitOnce d s).map fun parts => trim parts.1 := by
  rcases around_trim s with ⟨front, back, whole, white_front, white_back⟩
  have apart : ∀ {blanks : Str}, (∀ c ∈ blanks, isWhitespace c) → d ∉ blanks := by
    intro blanks white member
    have shown := white d member
    rw [ink] at shown
    cases shown
  cases found : splitOnce d (trim s) with
  | none =>
      have absent : d ∉ s := by
        rw [whole]
        simp [apart white_front, apart white_back, not_mem_of_splitOnce_eq_none found]
      rw [splitOnce_eq_none_iff.mpr absent]
  | some parts =>
      rcases splitOnce_eq_some found with ⟨split, absent⟩
      have plain : d ∉ front ++ parts.1 := by simp [apart white_front, absent]
      have shape : s = (front ++ parts.1) ++ d :: (parts.2 ++ back) := by
        rw [whole, split]
        simp
      rw [shape, splitOnce_append _ _ plain, Option.map_some, Option.map_some,
        trim_white_append white_front]

theorem splitN_cons {part : Str} (h : d ∉ part) (n : Nat) (rest : Str) :
    splitN d (n + 2) (part ++ d :: rest) = part :: splitN d (n + 1) rest := by
  rw [splitN, splitOnce_append part rest h]

theorem splitN_eq_cons_cons {n : Nat} {s part next : Str} {rest : List Str}
    (h : splitN d (n + 2) s = part :: next :: rest) :
    ∃ tail, s = part ++ d :: tail ∧ d ∉ part ∧ splitN d (n + 1) tail = next :: rest := by
  rw [splitN] at h
  cases found : splitOnce d s with
  | none =>
      rw [found] at h
      cases h
  | some parts =>
      rw [found] at h
      rcases List.cons_eq_cons.mp h with ⟨rfl, later⟩
      rcases splitOnce_eq_some found with ⟨whole, absent⟩
      exact ⟨parts.2, whole, absent, later⟩

end SplitOnce

section Split

theorem not_of_mem_splitOnP {α : Type*} {p : α → Bool} {s part : List α}
    (h : part ∈ s.splitOnP p) {c : α} (member : c ∈ part) : p c = false := by
  induction s generalizing part with
  | nil =>
      rw [List.splitOnP_nil, List.mem_singleton] at h
      subst h
      cases member
  | cons d rest ih =>
      rw [List.splitOnP_cons_eq_if_modifyHead] at h
      split at h
      · rcases List.mem_cons.mp h with rfl | later
        · cases member
        · exact ih later member
      · next kept =>
          obtain ⟨first, more, shape⟩ := List.exists_cons_of_ne_nil (List.splitOnP_ne_nil p rest)
          rw [shape, List.modifyHead_cons] at h
          rcases List.mem_cons.mp h with rfl | later
          · rcases List.mem_cons.mp member with rfl | inner
            · simpa using kept
            · exact ih (shape ▸ List.mem_cons_self) inner
          · exact ih (shape ▸ List.mem_cons_of_mem _ later) member

theorem not_whitespace_of_mem_splitWhitespace {s word : Str} (h : word ∈ splitWhitespace s)
    {c : Char} (member : c ∈ word) : isWhitespace c = false :=
  not_of_mem_splitOnP (List.mem_of_mem_filter h) member

theorem splitWhitespace_white_append {blanks : Str} (white : ∀ c ∈ blanks, isWhitespace c)
    (s : Str) : splitWhitespace (blanks ++ s) = splitWhitespace s := by
  induction blanks with
  | nil => rfl
  | cons c rest ih =>
      rw [List.cons_append, splitWhitespace, List.splitOnP_cons_eq_if_modifyHead,
        if_pos (white c List.mem_cons_self), List.filter_cons_of_neg (by simp)]
      exact ih fun d member => white d (List.mem_cons_of_mem c member)

theorem splitWhitespace_append_white {blanks : Str} (white : ∀ c ∈ blanks, isWhitespace c)
    (s : Str) : splitWhitespace (s ++ blanks) = splitWhitespace s := by
  cases blanks with
  | nil => rw [List.append_nil]
  | cons c rest =>
      have none : splitWhitespace rest = [] := by
        have all := splitWhitespace_white_append
          (fun d member => white d (List.mem_cons_of_mem c member)) []
        rwa [List.append_nil] at all
      rw [splitWhitespace, List.splitOnP_append_cons s rest (white c List.mem_cons_self),
        List.filter_append]
      change splitWhitespace s ++ splitWhitespace rest = _
      rw [none, List.append_nil]

@[simp] theorem splitWhitespace_trim (s : Str) : splitWhitespace (trim s) = splitWhitespace s := by
  rcases around_trim s with ⟨front, back, split, white_front, white_back⟩
  nth_rewrite 2 [split]
  rw [splitWhitespace_append_white white_back, splitWhitespace_white_append white_front]

/-- The first word starts where the text does. -/
theorem splitWhitespace_cons {c : Char} (ink : isWhitespace c = false) (s : Str) :
    ∃ word rest, splitWhitespace (c :: s) = (c :: word) :: rest := by
  rcases List.exists_cons_of_ne_nil (List.splitOnP_ne_nil isWhitespace s) with ⟨word, rest, split⟩
  refine ⟨word, rest.filter (· ≠ []), ?_⟩
  rw [splitWhitespace, List.splitOnP_cons_eq_if_modifyHead, if_neg (by simp [ink]), split,
    List.modifyHead_cons, List.filter_cons_of_pos (by simp)]

theorem mem_join {sep c : Char} {parts : List Str} (h : c ∈ join [sep] parts) :
    c = sep ∨ ∃ part ∈ parts, c ∈ part := by
  induction parts with
  | nil => cases h
  | cons part rest ih =>
      cases rest with
      | nil =>
          refine .inr ⟨part, List.mem_singleton_self _, ?_⟩
          simpa [join] using h
      | cons next more =>
          rw [join, List.intercalate_cons_of_ne_nil (List.cons_ne_nil _ _), List.mem_append,
            List.mem_append] at h
          rcases h with (first | comma) | later
          · exact .inr ⟨part, List.mem_cons_self, first⟩
          · exact .inl (List.mem_singleton.mp comma)
          · rcases ih later with same | ⟨other, listed, inner⟩
            · exact .inl same
            · exact .inr ⟨other, List.mem_cons_of_mem _ listed, inner⟩

/-- Trimmed texts around a separator are trimmed, empty ones too. -/
theorem trimmed_append_cons {sep : Char} (ink : isWhitespace sep = false) {a b : Str}
    (front : Trimmed a) (back : Trimmed b) : Trimmed (a ++ sep :: b) := by
  constructor
  · intro c member
    cases a with
    | nil =>
        rw [List.nil_append, List.head?_cons, Option.mem_some_iff] at member
        rw [← member]
        exact ink
    | cons first rest => exact front.head c member
  · intro c member
    rw [List.getLast?_append_of_ne_nil _ (List.cons_ne_nil _ _)] at member
    cases b with
    | nil =>
        rw [List.getLast?_singleton, Option.mem_some_iff] at member
        rw [← member]
        exact ink
    | cons first rest => exact back.last c (by rwa [List.getLast?_cons_cons] at member)

theorem trimmed_join {sep : Char} (ink : isWhitespace sep = false) {parts : List Str}
    (each : ∀ part ∈ parts, Trimmed part) : Trimmed (join [sep] parts) := by
  induction parts with
  | nil => exact ⟨by simp [join], by simp [join]⟩
  | cons part rest ih =>
      cases rest with
      | nil =>
          have single : join [sep] [part] = part := by simp [join]
          rw [single]
          exact each part List.mem_cons_self
      | cons next more =>
          rw [join, List.intercalate_cons_of_ne_nil (List.cons_ne_nil _ _), List.append_assoc,
            List.singleton_append]
          exact trimmed_append_cons ink (each part List.mem_cons_self)
            (ih fun other member => each other (List.mem_cons_of_mem part member))

end Split

end Text
