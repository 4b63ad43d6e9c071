import Mathlib.Data.List.Induction
import TinyWifi.Hostapd

/-! Any number of edits of `hostapd.conf` through its editor, printed and read again. -/

namespace TinyWifi

open Text HostapdConf

namespace HostapdEdits

inductive Edit
  | set (key value : Str)
  | removeKey (key : Str)
  deriving DecidableEq, Repr

def Edit.key : Edit → Str
  | .set key _ => key
  | .removeKey key => key

def Edit.apply (conf : HostapdConf) : Edit → HostapdConf
  | .set key value => conf.set key value
  | .removeKey key => conf.removeKey key

def Edit.Allowed : Edit → Prop
  | .set key value => IsKey key ∧ '\n' ∉ value ∧ '\r' ∉ value
  | .removeKey key => IsKey key

def edited (text : Str) (edits : List Edit) : HostapdConf := edits.foldl Edit.apply (parse text)

/-- The first value of a key when the edits are done: the last edit of the key says. -/
def valueAfter (original : Option Str) (edits : List Edit) (key : Str) : Option Str :=
  match (edits.filter fun edit => edit.key = key).getLast? with
  | none => original
  | some (.set _ value) => some value
  | some (.removeKey _) => none

/-- What a line of a file is: a comment or another line without a directive, kept as it stands, or
the key of a directive. -/
inductive Mark
  | note (text : Str)
  | directive (key : Str)
  deriving DecidableEq, Repr

/-- Blank lines have no mark. -/
def markOf (line : Str) : Option Mark :=
  if trimStart line = [] then none
  else if (trimStart line).head? = some '#' then some (.note line)
  else match splitOnce '=' line with
    | some (key, _) => some (.directive (trim key))
    | none => some (.note line)

def Mark.removed (edits : List Edit) : Mark → Bool
  | .note _ => false
  | .directive key => edits.contains (.removeKey key)

/-- The notes and the surviving directives of a text, in their order. -/
def survivors (edits : List Edit) (text : Str) : List Mark :=
  ((Text.lines text).filterMap markOf).filter fun mark => !mark.removed edits

/-- Nothing is lost: printing and parsing gives the directives of the edited config and the values
that were set, and the notes and surviving directives stand in their old order, before what was
appended. -/
structure Kept (text : Str) (edits : List Edit) : Prop where
  directives : (parse (edited text edits).display).directives = (edited text edits).directives
  values : ∀ key, (parse (edited text edits).display).get key =
    valueAfter ((parse text).get key) edits key
  order : ∃ added : List Str, survivors edits (edited text edits).display =
    survivors edits text ++ added.map Mark.directive

section Marks

def mark? : Line → Option Mark
  | .raw text => if trimStart text = [] then none else some (.note text)
  | .pair key _ => some (.directive key)

theorem markOf_eq (line : Str) : markOf line = mark? (parseLine line) := by
  unfold markOf parseLine
  by_cases blank : trimStart line = []
  · simp [blank, mark?]
  · by_cases hash : (trimStart line).head? = some '#'
    · simp [blank, hash, mark?]
    · simp only [blank, hash, false_or, if_false]
      cases splitOnce '=' line with
      | none => simp [blank, mark?]
      | some parts => rfl

def marks (lines : List Line) : List Mark := lines.filterMap mark?

theorem marks_append (front back : List Line) : marks (front ++ back) = marks front ++ marks back :=
  List.filterMap_append

theorem survivors_eq (edits : List Edit) (text : Str) :
    survivors edits text = (marks (parse text).lines).filter fun mark => !mark.removed edits := by
  rw [survivors, marks, parse, List.filterMap_map]
  congr 2
  funext line
  exact markOf_eq line

theorem marks_shown (lines : List Line) : marks (shown lines) = marks lines := by
  rw [marks, shown, List.filterMap_filter]
  apply List.filterMap_congr
  intro line _
  cases line with
  | raw text =>
      by_cases blank : text = []
      · subst text
        rfl
      · simp [Line.render, blank]
  | pair key value => simp [Line.render]

theorem marks_updateLine (key value : Str) (lines : List Line) :
    marks (updateLine key value lines) = marks lines := by
  induction lines with
  | nil => rfl
  | cons line rest ih =>
      rw [marks, marks] at ih
      cases line with
      | raw text => rw [updateLine, marks, marks, List.filterMap_cons, List.filterMap_cons, ih]
      | pair k v =>
          by_cases same : k = key
          · simp [updateLine, same, marks, mark?]
          · rw [updateLine, if_neg same, marks, marks, List.filterMap_cons, List.filterMap_cons, ih]

theorem marks_setLine (key value : Str) (lines : List Line) :
    ∃ added : List Str, marks (setLine key value lines) =
      marks lines ++ added.map Mark.directive := by
  unfold setLine
  split
  · exists []
    rw [marks_updateLine, List.map_nil, List.append_nil]
  · exists [key]
    rw [marks_append]
    rfl

theorem marks_dropLines (key : Str) (lines : List Line) :
    marks (dropLines key lines) = (marks lines).filter fun mark => mark ≠ .directive key := by
  rw [marks, dropLines, List.filterMap_filter, marks, List.filter_filterMap]
  apply List.filterMap_congr
  intro line _
  cases line with
  | raw text =>
      by_cases blank : trimStart text = [] <;>
        simp [Line.hasKey, mark?, blank, Option.filter_some]
  | pair k v => by_cases same : k = key <;> simp [Line.hasKey, mark?, same, Option.filter_some]

end Marks

section Reread

/-- The config prints and parses back, and there is no carriage return in it. -/
structure Clean (conf : HostapdConf) : Prop where
  faithful : conf.AllFaithful
  no_cr : ∀ line ∈ conf.lines, '\r' ∉ line.render

theorem stripCr_eq_self {line : Line} (no_cr : '\r' ∉ line.render) : line.stripCr = line := by
  cases line with
  | raw text => exact congrArg Line.raw (stripCr_of_not_endsCr (not_endsCr_of_not_mem no_cr))
  | pair key value =>
      have value_cr : '\r' ∉ value := by
        intro member
        exact no_cr (List.mem_append_right key (List.mem_cons_of_mem _ member))
      rw [Line.stripCr, stripCr_of_not_endsCr (not_endsCr_of_not_mem value_cr)]

theorem Clean.reread {conf : HostapdConf} (clean : Clean conf) :
    shown (parse conf.display).lines = shown conf.lines := by
  have same : conf.endedLines.map Line.stripCr = conf.endedLines := by
    have kept : ∀ line ∈ conf.endedLines, line.stripCr = id line := by
      intro line member
      apply stripCr_eq_self
      apply clean.no_cr
      rw [← endedLines_append_openLines]
      exact List.mem_append_left _ member
    rw [List.map_congr_left kept, List.map_id]
  rw [shown_parse_display conf clean.faithful, same, endedLines_append_openLines]

theorem Clean.directives_reread {conf : HostapdConf} (clean : Clean conf) :
    (parse conf.display).directives = conf.directives := by
  rw [HostapdConf.directives, ← directives_shown, clean.reread, directives_shown]
  rfl

theorem Clean.no_cr_display {conf : HostapdConf} (clean : Clean conf) : '\r' ∉ conf.display := by
  intro cr
  rcases List.mem_append.mp cr with inside | ended
  · rcases mem_join inside with lf | ⟨part, member, inner⟩
    · cases lf
    · rcases List.mem_map.mp member with ⟨line, present, rfl⟩
      exact clean.no_cr line present inner
  · split at ended
    · cases List.mem_singleton.mp ended
    · cases ended

theorem clean_parse {text : Str} (no_cr : '\r' ∉ text) : Clean (parse text) := by
  constructor
  · exact faithful_parse text
  · intro line member cr
    rcases List.mem_map.mp member with ⟨physical, inside, rfl⟩
    exact no_cr (mem_of_mem_lines inside (mem_of_mem_render_parseLine cr))

theorem Clean.apply {conf : HostapdConf} (clean : Clean conf) {edit : Edit}
    (allowed : edit.Allowed) : Clean (edit.apply conf) := by
  cases edit with
  | set key value =>
      rcases allowed with ⟨isKey, value_lf, value_cr⟩
      constructor
      · exact clean.faithful.set
          ⟨isKey.no_lf, value_lf, isKey.trimmed, isKey.no_eq, isKey.no_hash⟩
      · intro line member
        rcases mem_setLine member with member | same
        · exact clean.no_cr line member
        · simp [same, Line.render, isKey.no_cr, value_cr]
  | removeKey key =>
      constructor
      · exact clean.faithful.removeKey key
      · intro line member
        exact clean.no_cr line (List.mem_of_mem_filter member)

theorem edited_concat (text : Str) (front : List Edit) (last : Edit) :
    edited text (front ++ [last]) = last.apply (edited text front) := by
  rw [edited, List.foldl_append]
  rfl

theorem clean_edited {text : Str} (no_cr : '\r' ∉ text) {edits : List Edit}
    (allowed : ∀ edit ∈ edits, edit.Allowed) : Clean (edited text edits) := by
  induction edits using List.reverseRecOn with
  | nil => exact clean_parse no_cr
  | append_singleton front last ih =>
      rw [edited_concat]
      apply Clean.apply
      · exact ih fun edit member => allowed edit (List.mem_append_left _ member)
      · exact allowed last (List.mem_append_right _ (List.mem_singleton_self last))

end Reread

section Edits

theorem valueAfter_concat (original : Option Str) (front : List Edit) (last : Edit) (key : Str) :
    valueAfter original (front ++ [last]) key =
      if last.key = key then
        match last with
        | .set _ value => some value
        | .removeKey _ => none
      else valueAfter original front key := by
  by_cases same : last.key = key
  · rw [valueAfter, List.filter_append, List.filter_cons_of_pos (by simpa using same),
      List.filter_nil, List.getLast?_concat, if_pos same]
    cases last <;> rfl
  · rw [valueAfter, List.filter_append, List.filter_cons_of_neg (by simpa using same),
      List.filter_nil, List.append_nil, if_neg same]
    rfl

theorem get_edited (text : Str) (edits : List Edit) (key : Str) :
    (edited text edits).get key = valueAfter ((parse text).get key) edits key := by
  induction edits using List.reverseRecOn with
  | nil => rfl
  | append_singleton front last ih =>
      rw [edited_concat, valueAfter_concat, ← ih, get_eq_lookup, get_eq_lookup]
      by_cases same : last.key = key
      · rw [if_pos same, ← same]
        cases last with
        | set k v =>
            rw [Edit.apply, directives_set]
            exact Directives.lookup_put_self k v _
        | removeKey k =>
            rw [Edit.apply, directives_removeKey]
            exact Directives.lookup_remove_self k _
      · rw [if_neg same]
        cases last with
        | set k v =>
            rw [Edit.apply, directives_set]
            exact Directives.lookup_put_ne k v (Ne.symm same) _
        | removeKey k =>
            rw [Edit.apply, directives_removeKey]
            exact Directives.lookup_remove_ne (Ne.symm same) _

def survive (edits : List Edit) (ms : List Mark) : List Mark :=
  ms.filter fun mark => !mark.removed edits

theorem removed_concat (front : List Edit) (last : Edit) (mark : Mark) :
    mark.removed (front ++ [last]) = (mark.removed front || mark.removed [last]) := by
  cases mark with
  | note text => rfl
  | directive key => simp [Mark.removed]

theorem survive_concat (front : List Edit) (last : Edit) (ms : List Mark) :
    survive (front ++ [last]) ms = survive [last] (survive front ms) := by
  rw [survive, survive, survive, List.filter_filter]
  apply List.filter_congr
  intro mark _
  rw [removed_concat, Bool.not_or, Bool.and_comm]

theorem survive_append (edits : List Edit) (front back : List Mark) :
    survive edits (front ++ back) = survive edits front ++ survive edits back :=
  List.filter_append front back

theorem survive_comm (one other : List Edit) (ms : List Mark) :
    survive one (survive other ms) = survive other (survive one ms) := by
  rw [survive, survive, survive, survive, List.filter_filter, List.filter_filter]
  apply List.filter_congr
  intro mark _
  rw [Bool.and_comm]

theorem survive_directives (edits : List Edit) (keys : List Str) :
    ∃ left : List Str, survive edits (keys.map Mark.directive) = left.map Mark.directive :=
  ⟨_, List.filter_map⟩

theorem survive_set (key value : Str) (ms : List Mark) : survive [.set key value] ms = ms := by
  rw [survive, List.filter_eq_self]
  intro mark _
  cases mark with
  | note text => rfl
  | directive k => simp [Mark.removed]

theorem survive_removeKey (key : Str) (lines : List Line) :
    survive [.removeKey key] (marks (dropLines key lines)) =
      survive [.removeKey key] (marks lines) := by
  rw [marks_dropLines, survive, survive, List.filter_filter]
  apply List.filter_congr
  intro mark _
  cases mark with
  | note text => rfl
  | directive k => simp [Mark.removed]

theorem survive_edited (text : Str) (edits : List Edit) :
    ∃ added : List Str, survive edits (marks (edited text edits).lines) =
      survive edits (marks (parse text).lines) ++ added.map Mark.directive := by
  induction edits using List.reverseRecOn with
  | nil => exact ⟨[], (List.append_nil _).symm⟩
  | append_singleton front last ih =>
      rcases ih with ⟨added, before⟩
      rw [edited_concat]
      cases last with
      | set key value =>
          rcases marks_setLine key value (edited text front).lines with ⟨more, now⟩
          rcases survive_directives front more with ⟨left, kept⟩
          exists added ++ left
          calc survive (front ++ [.set key value])
                (marks (setLine key value (edited text front).lines))
              = survive front (marks (edited text front).lines) ++
                  survive front (more.map Mark.directive) := by
                rw [survive_concat, survive_set, now, survive_append]
            _ = survive front (marks (parse text).lines) ++
                  (added ++ left).map Mark.directive := by
                rw [before, kept, List.map_append, List.append_assoc]
            _ = _ := by rw [survive_concat, survive_set]
      | removeKey key =>
          rcases survive_directives [.removeKey key] added with ⟨left, kept⟩
          exists left
          calc survive (front ++ [.removeKey key]) (marks (dropLines key (edited text front).lines))
              = survive front (survive [.removeKey key] (marks (edited text front).lines)) := by
                rw [survive_concat, survive_comm, survive_removeKey]
            _ = survive [.removeKey key] (survive front (marks (parse text).lines) ++
                  added.map Mark.directive) := by
                rw [survive_comm, before]
            _ = _ := by rw [survive_append, kept, survive_concat]

/-- Editing loses nothing, for any text without carriage returns and any edits. -/
theorem edits_keep {text : Str} (no_cr : '\r' ∉ text) {edits : List Edit}
    (allowed : ∀ edit ∈ edits, edit.Allowed) : Kept text edits := by
  have clean := clean_edited no_cr allowed
  have reread := clean.directives_reread
  constructor
  · exact reread
  · intro key
    rw [get_eq_lookup, reread, ← get_eq_lookup, get_edited]
  · rw [survivors_eq, survivors_eq, ← marks_shown, clean.reread, marks_shown]
    exact survive_edited text edits

/-- A key with two lines is set and another one is removed and set again; the file does not end in
a line feed. -/
theorem edits_keep_layout :
    Kept "# net\nssid=a\n\n  channel = 6\nnote\nssid=b".toList
      [.set "ssid".toList "c=d".toList, .removeKey "channel".toList,
        .set "channel".toList "11".toList] := by
  apply edits_keep
  · decide
  · intro edit member
    have key (name : Str) (valid : name = "ssid".toList ∨ name = "channel".toList) :
        IsKey name := by
      rcases valid with rfl | rfl <;> constructor <;> decide
    simp only [List.mem_cons, List.not_mem_nil, or_false] at member
    rcases member with rfl | rfl | rfl
    · exact ⟨key _ (.inl rfl), by decide, by decide⟩
    · exact key _ (.inr rfl)
    · exact ⟨key _ (.inr rfl), by decide, by decide⟩

end Edits

end HostapdEdits

end TinyWifi
