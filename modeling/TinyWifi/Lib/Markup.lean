import TinyWifi.Lib.Text

/-! Markup as a sequence of tags, each with the text behind it, and how a reader that knows nothing
of the writer finds them again. How a text is escaped is a parameter. -/

namespace Markup

open Text

/-- A tag, and the text up to the next one. -/
abbrev Node := Str × Str

section Writer

variable (escape : Str → Str)

def piece (node : Node) : Str := node.1 ++ '>' :: escape node.2

def render (nodes : List Node) : Str := nodes.flatMap fun node => '<' :: piece escape node

theorem render_append (front back : List Node) :
    render escape (front ++ back) = render escape front ++ render escape back :=
  List.flatMap_append

theorem intercalate_append {α : Type} (sep front back : List α) (rest : List (List α)) :
    sep.intercalate ((front ++ back) :: rest) = front ++ sep.intercalate (back :: rest) := by
  induction front with
  | nil => rfl
  | cons a front ih =>
      rw [List.cons_append, List.intercalate_cons_cons_left, ih, List.cons_append]

theorem render_eq_intercalate (nodes : List Node) :
    render escape nodes = ['<'].intercalate ([] :: nodes.map (piece escape)) := by
  induction nodes with
  | nil => rfl
  | cons node rest ih =>
      have split := intercalate_append ['<'] (piece escape node) [] (rest.map (piece escape))
      rw [List.append_nil] at split
      rw [List.map_cons, List.intercalate_cons_cons, split, ← ih]
      rfl

end Writer

section Reader

variable (unescape : Str → Str)

def readPiece (part : Str) : Node :=
  (part.takeWhile (· ≠ '>'), unescape (part.dropWhile (· ≠ '>')).tail)

/-- What stands in front of the first tag is passed over. -/
def nodes (html : Str) : List Node := (html.splitOn '<').tail.map (readPiece unescape)

variable {escape : Str → Str} {unescape : Str → Str}

theorem readPiece_piece (undone : ∀ s, unescape (escape s) = s) {node : Node}
    (closed : '>' ∉ node.1) : readPiece unescape (piece escape node) = node := by
  have inside : ∀ c ∈ node.1, decide (c ≠ '>') = true := by
    intro c member
    rw [decide_eq_true_eq]
    rintro rfl
    exact closed member
  have tag : (piece escape node).takeWhile (· ≠ '>') = node.1 := by
    rw [piece, List.takeWhile_append_of_pos inside, List.takeWhile_cons_of_neg (by simp),
      List.append_nil]
  have text : (piece escape node).dropWhile (· ≠ '>') = '>' :: escape node.2 := by
    rw [piece, List.dropWhile_append_of_pos inside, List.dropWhile_cons_of_neg (by simp)]
  rw [readPiece, tag, text, List.tail_cons, undone]

/-- What was written is found again, whatever the texts are. -/
theorem nodes_render (undone : ∀ s, unescape (escape s) = s) (plain : ∀ s, '<' ∉ escape s)
    {list : List Node} (clean : ∀ node ∈ list, '<' ∉ node.1 ∧ '>' ∉ node.1) :
    nodes unescape (render escape list) = list := by
  have opened : ∀ part ∈ [] :: list.map (piece escape), '<' ∉ part := by
    intro part member
    rcases List.mem_cons.mp member with rfl | written
    · exact List.not_mem_nil
    · obtain ⟨node, listed, rfl⟩ := List.mem_map.mp written
      simp [piece, (clean node listed).1, plain node.2]
  rw [nodes, render_eq_intercalate, List.splitOn_intercalate '<' opened (List.cons_ne_nil _ _),
    List.tail_cons, List.map_map]
  exact (List.map_congr_left fun node listed =>
    readPiece_piece undone (clean node listed).2).trans (List.map_id list)

end Reader

end Markup
