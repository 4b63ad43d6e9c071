import TinyWifi.Lib.Substitute
import TinyWifi.Lib.Text

/-! `pages.rs`: texts from strangers in the pages. Four symbols are written as entities, one
replacement of the whole text after the other. -/

namespace TinyWifi

open Text Substitute

namespace Escape

def amp : Str := "&amp;".toList
def lt : Str := "&lt;".toList
def gt : Str := "&gt;".toList
def quot : Str := "&quot;".toList

def escape (s : Str) : Str :=
  replace '\x22' quot (replace '>' gt (replace '<' lt (replace '&' amp s)))

/-- What one character is written as. -/
def entityOf (c : Char) : Str :=
  if c = '&' then amp
  else if c = '<' then lt
  else if c = '>' then gt
  else if c = '\x22' then quot
  else [c]

def entities : Table Char := [('&', amp), ('<', lt), ('>', gt), ('\x22', quot)]

def unescape (s : Str) : Str := restore entities s

section Entities

theorem entities_ordered : Ordered entities := by decide

theorem entities_escaping : Escaping '&' entities where
  key := ⟨('&', amp), List.mem_cons_self, rfl⟩
  marked := by decide
  apart := by decide

theorem escape_eq (s : Str) : escape s = substitute entities s := replaceAll_eq entities_ordered s

theorem image_entities : image entities = entityOf := rfl

theorem not_mem_escape {c : Char} (key : ∃ entry ∈ entities, entry.1 = c)
    (absent : ∀ entry ∈ entities, c ∉ entry.2) (s : Str) : c ∉ escape s := by
  rw [escape_eq]
  exact not_mem_substitute key absent s

theorem no_markup_escape (s : Str) : '<' ∉ escape s ∧ '>' ∉ escape s ∧ '\x22' ∉ escape s := by
  have absent : ∀ entry ∈ entities, '<' ∉ entry.2 ∧ '>' ∉ entry.2 ∧ '\x22' ∉ entry.2 := by decide
  refine ⟨?_, ?_, ?_⟩
  · exact not_mem_escape ⟨('<', lt), by decide, rfl⟩ (fun entry listed => (absent entry listed).1) s
  · exact not_mem_escape ⟨('>', gt), by decide, rfl⟩
      (fun entry listed => (absent entry listed).2.1) s
  · exact not_mem_escape ⟨('\x22', quot), by decide, rfl⟩
      (fun entry listed => (absent entry listed).2.2) s

theorem unescape_escape (s : Str) : unescape (escape s) = s := by
  rw [unescape, escape_eq]
  exact restore_substitute entities_escaping s

theorem escape_of_plain {s : Str} (plain : ∀ entry ∈ entities, entry.1 ∉ s) : escape s = s := by
  rw [escape_eq, substitute_of_no_key plain]

end Entities

/-- Escaping is the substitution of each character by itself or its entity; it leaves no markup and
no bare `&`, and it can be undone, at once or by one replacement after the other. -/
theorem escape_faithful :
    (∀ s, escape s = s.flatMap entityOf ∧
      ('<' ∉ escape s ∧ '>' ∉ escape s ∧ '\x22' ∉ escape s) ∧
      (∀ front back, escape s = front ++ '&' :: back →
        ∃ entity ∈ [amp, lt, gt, quot], entity <+: '&' :: back) ∧
      unescape (escape s) = s ∧ restoreAll entities (escape s) = s) ∧
    Function.Injective escape := by
  refine ⟨fun s => ?_, Function.LeftInverse.injective unescape_escape⟩
  refine ⟨?_, no_markup_escape s, ?_, unescape_escape s, ?_⟩
  · rw [escape_eq, substitute, image_entities]
  · intro front back split
    rw [escape_eq] at split
    rcases word_of_mark entities_escaping split with ⟨entry, listed, starts⟩
    exact ⟨entry.2, List.mem_map_of_mem listed, starts⟩
  · rw [escape_eq]
    exact restoreAll_substitute entities_escaping entities_ordered s

end Escape

end TinyWifi
