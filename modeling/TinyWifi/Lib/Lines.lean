import TinyWifi.Lib.Text

/-! Splitting a text into lines, and what is left of lines that are printed and split again. -/

namespace Text

/-- `str::lines`: a line ends at a line feed, and a carriage return right before it goes too. -/
def lines : Str → List Str
  | [] => []
  | '\n' :: rest => [] :: lines rest
  | '\r' :: '\n' :: rest => [] :: lines rest
  | c :: rest =>
    match lines rest with
    | [] => [[c]]
    | line :: more => (c :: line) :: more

def EndsCr (s : Str) : Prop := s.getLast? = some '\r'

instance (s : Str) : Decidable (EndsCr s) := inferInstanceAs (Decidable (_ = _))

def stripCr (s : Str) : Str := if EndsCr s then s.dropLast else s

def unlines (parts : List Str) : Str := parts.flatMap (· ++ ['\n'])

section StripCr

@[simp] theorem stripCr_nil : stripCr [] = [] := by decide

theorem stripCr_of_not_endsCr {s : Str} (h : ¬ EndsCr s) : stripCr s = s := if_neg h

theorem not_endsCr_of_not_mem {s : Str} (h : '\r' ∉ s) : ¬ EndsCr s :=
  fun ends => h (List.mem_of_mem_getLast? ends)

theorem stripCr_eq_self_iff (s : Str) : stripCr s = s ↔ ¬ EndsCr s := by
  constructor
  · intro same ends
    rw [stripCr, if_pos ends] at same
    have nonempty : s ≠ [] := by rintro rfl; simp [EndsCr] at ends
    have shorter := congrArg List.length same
    rw [List.length_dropLast] at shorter
    have := List.length_pos_iff.mpr nonempty
    omega
  · exact stripCr_of_not_endsCr

theorem endsCr_append {a b : Str} (h : b ≠ []) : EndsCr (a ++ b) ↔ EndsCr b := by
  rw [EndsCr, EndsCr, List.getLast?_append, List.getLast?_eq_some_getLast h, Option.some_or]

theorem stripCr_append {a b : Str} (h : b ≠ []) : stripCr (a ++ b) = a ++ stripCr b := by
  by_cases ends : EndsCr b
  · rw [stripCr, stripCr, if_pos ends, if_pos ((endsCr_append h).mpr ends),
      List.dropLast_append_of_ne_nil h]
  · rw [stripCr, stripCr, if_neg ends, if_neg (mt (endsCr_append h).mp ends)]

theorem stripCr_cons (c : Char) (s : Str) (h : s ≠ []) : stripCr (c :: s) = c :: stripCr s := by
  rw [← List.singleton_append, stripCr_append h, List.singleton_append]

theorem stripCr_sublist (s : Str) : (stripCr s).Sublist s := by
  unfold stripCr
  split
  · exact List.dropLast_sublist s
  · exact List.Sublist.refl s

theorem mem_of_mem_stripCr {s : Str} {c : Char} (h : c ∈ stripCr s) : c ∈ s :=
  (stripCr_sublist s).mem h

theorem stripCr_singleton {c : Char} (h : c ≠ '\r') : stripCr [c] = [c] :=
  stripCr_of_not_endsCr (by simpa [EndsCr] using h)

theorem trim_stripCr (s : Str) : trim (stripCr s) = trim s := by
  by_cases ends : EndsCr s
  · obtain ⟨front, rfl⟩ : ∃ front, s = front ++ ['\r'] := List.getLast?_eq_some_iff.mp ends
    have stripped : stripCr (front ++ ['\r']) = front := by
      rw [stripCr_append (by simp), show stripCr ['\r'] = [] by decide, List.append_nil]
    rw [stripped, trim, trim, trimStart, trimStart, List.dropWhile_append]
    by_cases blank : front.dropWhile isWhitespace = []
    · rw [blank]
      decide
    · rw [if_neg (by simpa using blank), trimEnd, trimEnd, List.rdropWhile_concat_pos]
      decide
  · rw [stripCr_of_not_endsCr ends]

end StripCr

section Lines

theorem lines_cons_of_ne {c : Char} {rest : Str} (lf : c ≠ '\n')
    (cr : c = '\r' → ∀ more, rest ≠ '\n' :: more) :
    lines (c :: rest) =
      match lines rest with
      | [] => [[c]]
      | line :: more => (c :: line) :: more := by
  rw [lines.eq_def]
  split
  · contradiction
  · simp_all
  · simp_all
  · simp_all

theorem lines_of_no_lf {s : Str} (lf : '\n' ∉ s) (nonempty : s ≠ []) : lines s = [s] := by
  induction s with
  | nil => contradiction
  | cons c rest ih =>
      simp only [List.mem_cons, not_or] at lf
      rw [lines_cons_of_ne (Ne.symm lf.1) (by rintro - more rfl; simp at lf)]
      by_cases last : rest = []
      · simp [last, lines]
      · rw [ih lf.2 last]

theorem lines_append_lf {a : Str} (lf : '\n' ∉ a) (b : Str) :
    lines (a ++ '\n' :: b) = stripCr a :: lines b := by
  induction a with
  | nil => simp [lines]
  | cons c rest ih =>
      simp only [List.mem_cons, not_or] at lf
      rw [List.cons_append]
      cases rest with
      | nil =>
          by_cases cr : c = '\r'
          · subst c
            simp [lines, stripCr, EndsCr]
          · rw [lines_cons_of_ne (Ne.symm lf.1) (by intro h; exact absurd h cr), ih lf.2]
            simp [stripCr_singleton cr]
      | cons d more =>
          have head : d ≠ '\n' := by
            rintro rfl
            exact lf.2 (by simp)
          rw [lines_cons_of_ne (Ne.symm lf.1) (by simp [head]), ih lf.2,
            stripCr_cons c (d :: more) (by simp)]

/-- Lines that were each ended come back without the carriage returns they ended in. -/
theorem lines_unlines {parts : List Str} (lf : ∀ p ∈ parts, '\n' ∉ p) :
    lines (unlines parts) = parts.map stripCr := by
  induction parts with
  | nil => simp [unlines, lines]
  | cons p rest ih =>
      have tail := ih (fun q member => lf q (List.mem_cons_of_mem p member))
      have shape : unlines (p :: rest) = p ++ '\n' :: unlines rest := by simp [unlines]
      rw [shape, lines_append_lf (lf p (by simp)), tail, List.map_cons]

theorem splitOn_unlines {parts : List Str} (lf : ∀ p ∈ parts, '\n' ∉ p) :
    (unlines parts).splitOn '\n' = parts ++ [[]] := by
  induction parts with
  | nil => rfl
  | cons p rest ih =>
      have shape : unlines (p :: rest) = p ++ '\n' :: unlines rest := by simp [unlines]
      rw [shape, List.splitOn_append_cons_self_of_not_mem (lf p List.mem_cons_self),
        ih fun q member => lf q (List.mem_cons_of_mem p member), List.cons_append]

/-- An open last line comes back as it is; it is no line at all when it is empty. -/
theorem lines_unlines_append {parts : List Str} {last : Str}
    (lf : ∀ p ∈ parts, '\n' ∉ p) (lastLf : '\n' ∉ last) :
    lines (unlines parts ++ last) =
      parts.map stripCr ++ if last = [] then [] else [last] := by
  induction parts with
  | nil =>
      by_cases empty : last = []
      · simp [unlines, lines, empty]
      · simp [unlines, lines_of_no_lf lastLf empty, empty]
  | cons p rest ih =>
      have tail := ih (fun q member => lf q (List.mem_cons_of_mem p member))
      have shape : unlines (p :: rest) ++ last = p ++ '\n' :: (unlines rest ++ last) := by
        simp [unlines]
      rw [shape, lines_append_lf (lf p (by simp)), tail]
      simp

theorem join_lf_concat (parts : List Str) (last : Str) :
    join ['\n'] (parts ++ [last]) = unlines parts ++ last := by
  induction parts with
  | nil => simp [join, unlines]
  | cons p rest ih =>
      rw [join] at ih
      rw [join, List.cons_append, List.intercalate_cons_of_ne_nil (by simp), ih]
      simp [unlines]

/-- Neither a carriage return at the end of a line nor an open last line makes a difference to a
reader of trimmed lines that leaves the empty ones out. -/
theorem filterMap_trim_lines {α : Type} {f : Str → Option α} (empty : f [] = none)
    {texts : List Str} (lf : ∀ text ∈ texts, '\n' ∉ text) {content : Str}
    (h : content = unlines texts ∨ content = join ['\n'] texts) :
    (lines content).filterMap (fun line => f (trim line)) =
      texts.filterMap fun line => f (trim line) := by
  have stripped : ∀ texts : List Str, (texts.map stripCr).filterMap (fun line => f (trim line)) =
      texts.filterMap fun line => f (trim line) := by
    intro texts
    simp [List.filterMap_map, trim_stripCr]
  rcases h with rfl | rfl
  · rw [lines_unlines lf, stripped]
  · rcases List.eq_nil_or_concat texts with rfl | ⟨front, last, rfl⟩
    · rfl
    · rw [List.concat_eq_append] at lf ⊢
      have front_lf : ∀ text ∈ front, '\n' ∉ text :=
        fun text member => lf text (List.mem_append_left _ member)
      have last_lf := lf last (List.mem_append_right _ (List.mem_singleton_self last))
      rw [join_lf_concat, lines_unlines_append front_lf last_lf, List.filterMap_append,
        List.filterMap_append, stripped]
      by_cases blank : last = []
      · rw [if_pos blank, blank]
        have none : f (trim []) = none := empty
        simp [none]
      · rw [if_neg blank]

/-- Such a reader sees what stands between the line feeds. -/
theorem filterMap_trim_eq {α : Type} {f : Str → Option α} (empty : f [] = none) (content : Str) :
    (lines content).filterMap (fun line => f (trim line)) =
      (content.splitOn '\n').filterMap fun line => f (trim line) := by
  have lf : ∀ text ∈ content.splitOn '\n', '\n' ∉ text := by
    intro text member inside
    have plain := not_of_mem_splitOnP member inside
    simp at plain
  exact filterMap_trim_lines empty lf (.inr (List.intercalate_splitOn '\n').symm)

theorem filterMap_trim_append {α : Type} {f : Str → Option α} (empty : f [] = none) (a b : Str) :
    (lines (a ++ '\n' :: b)).filterMap (fun line => f (trim line)) =
      (lines a).filterMap (fun line => f (trim line)) ++
        (lines b).filterMap fun line => f (trim line) := by
  rw [filterMap_trim_eq empty, filterMap_trim_eq empty, filterMap_trim_eq empty, List.splitOn,
    List.splitOnP_append_cons a b (by simp), List.filterMap_append]
  rfl

theorem no_lf_of_mem_lines {s line : Str} (h : line ∈ lines s) : '\n' ∉ line := by
  induction s using lines.induct generalizing line with
  | case1 => simp [lines] at h
  | case2 rest ih =>
      simp only [lines, List.mem_cons] at h
      rcases h with rfl | h
      · simp
      · exact ih h
  | case3 rest ih =>
      simp only [lines, List.mem_cons] at h
      rcases h with rfl | h
      · simp
      · exact ih h
  | case4 c rest lf cr none ih =>
      rw [lines_cons_of_ne lf (fun same more => cr more same), none, List.mem_singleton] at h
      simpa [h] using Ne.symm lf
  | case5 c rest lf cr first more some ih =>
      rw [lines_cons_of_ne lf (fun same more => cr more same), some, List.mem_cons] at h
      rcases h with rfl | h
      · simpa [Ne.symm lf] using ih (by simp [some])
      · exact ih (by simp [some, h])

theorem mem_of_mem_lines {s line : Str} (h : line ∈ lines s) {c : Char} (member : c ∈ line) :
    c ∈ s := by
  induction s using lines.induct generalizing line with
  | case1 => simp [lines] at h
  | case2 rest ih =>
      simp only [lines, List.mem_cons] at h
      rcases h with rfl | h
      · cases member
      · exact List.mem_cons_of_mem _ (ih h member)
  | case3 rest ih =>
      simp only [lines, List.mem_cons] at h
      rcases h with rfl | h
      · cases member
      · exact List.mem_cons_of_mem _ (List.mem_cons_of_mem _ (ih h member))
  | case4 d rest lf cr none ih =>
      rw [lines_cons_of_ne lf (fun same more => cr more same), none, List.mem_singleton] at h
      rw [h, List.mem_singleton] at member
      exact member ▸ List.mem_cons_self
  | case5 d rest lf cr first more some ih =>
      rw [lines_cons_of_ne lf (fun same more => cr more same), some, List.mem_cons] at h
      rcases h with rfl | h
      · rcases List.mem_cons.mp member with rfl | member
        · exact List.mem_cons_self
        · exact List.mem_cons_of_mem _ (ih (some ▸ List.mem_cons_self) member)
      · exact List.mem_cons_of_mem _ (ih (some ▸ List.mem_cons_of_mem _ h) member)

end Lines

example : lines "a\r\nb\r\r\n\nc\r".toList = ["a".toList, "b\r".toList, [], "c\r".toList] := by
  decide

end Text
