import TinyWifi.Lib.Directives
import TinyWifi.Lib.Lines

/-! The line-preserving view of a `key=value` config that the hostapd and nanodhcp editors share. -/

namespace TinyWifi

open Text

inductive Line
  | raw (text : Str)
  | pair (key value : Str)
  deriving DecidableEq, Repr

namespace Line

def render : Line → Str
  | .raw text => text
  | .pair key value => key ++ '=' :: value

def directive? : Line → Option (Str × Str)
  | .raw _ => none
  | .pair key value => some (key, value)

def hasKey (key : Str) : Line → Bool
  | .raw _ => false
  | .pair k _ => k = key

/-- What is left of the line when it is printed, ended and read again. -/
def stripCr : Line → Line
  | .raw text => .raw (Text.stripCr text)
  | .pair key value => .pair key (Text.stripCr value)

theorem render_stripCr (line : Line) : line.stripCr.render = Text.stripCr line.render := by
  cases line with
  | raw text => rfl
  | pair key value =>
      have tail : Text.stripCr ('=' :: value) = '=' :: Text.stripCr value := by
        by_cases empty : value = []
        · subst value
          decide
        · exact stripCr_cons '=' value empty
      rw [stripCr, render, render, stripCr_append (by simp), tail]

end Line

/-- The key is one that a line of a file can have. -/
@[mk_iff]
structure IsKey (key : Str) : Prop where
  nonempty : key ≠ []
  trimmed : trim key = key
  no_hash : key.head? ≠ some '#'
  no_eq : '=' ∉ key
  no_lf : '\n' ∉ key
  no_cr : '\r' ∉ key

instance (key : Str) : Decidable (IsKey key) := decidable_of_iff _ (isKey_iff key).symm

section Lines

variable (key value : Str)

def getLine (lines : List Line) : Option Str :=
  lines.findSome? fun line =>
    match line with
    | .raw _ => none
    | .pair k v => if k = key then some v else none

def updateLine : List Line → List Line
  | [] => []
  | .raw text :: rest => .raw text :: updateLine rest
  | .pair k v :: rest =>
    if k = key then .pair k value :: rest else .pair k v :: updateLine rest

def hasLine (lines : List Line) : Bool := lines.any (Line.hasKey key)

def setLine (lines : List Line) : List Line :=
  if hasLine key lines then updateLine key value lines else lines ++ [.pair key value]

def dropLines (lines : List Line) : List Line := lines.filter fun line => !line.hasKey key

def dropWhere (lines : List Line) : List Line := lines.filter fun line => line ≠ .pair key value

def dropFirst (lines : List Line) : List Line := lines.erase (.pair key value)

def getLines (lines : List Line) : List Str :=
  lines.filterMap fun line =>
    match line with
    | .raw _ => none
    | .pair k v => if k = key then some v else none

def directives (lines : List Line) : List (Str × Str) := lines.filterMap Line.directive?

def otherLines (keys : List Str) (lines : List Line) : List Line :=
  lines.filter fun line => keys.all fun key => !line.hasKey key

end Lines

section Directives

@[simp] theorem directives_nil : directives [] = [] := rfl

@[simp] theorem directives_append (front back : List Line) :
    directives (front ++ back) = directives front ++ directives back :=
  List.filterMap_append

@[simp] theorem directives_cons_raw (text : Str) (rest : List Line) :
    directives (.raw text :: rest) = directives rest := rfl

@[simp] theorem directives_cons_pair (key value : Str) (rest : List Line) :
    directives (.pair key value :: rest) = (key, value) :: directives rest := rfl

theorem directives_map_stripCr (lines : List Line) :
    directives (lines.map Line.stripCr) =
      (directives lines).map fun d => (d.1, Text.stripCr d.2) := by
  induction lines with
  | nil => rfl
  | cons line rest ih => cases line <;> simp [Line.stripCr, ih]

theorem mem_directives (lines : List Line) (key value : Str) :
    (key, value) ∈ directives lines ↔ Line.pair key value ∈ lines := by
  induction lines with
  | nil => simp
  | cons line rest ih => cases line <;> simp [ih]

theorem getLine_eq_lookup (key : Str) (lines : List Line) :
    getLine key lines = (directives lines).lookup key := by
  induction lines with
  | nil => rfl
  | cons line rest ih =>
      cases line with
      | raw text => simpa [getLine] using ih
      | pair k v =>
          by_cases same : k = key
          · simp [getLine, same]
          · have tail : getLine key (.pair k v :: rest) = getLine key rest := by
              simp [getLine, same]
            rw [tail, ih, directives_cons_pair, List.lookup_cons, beq_false_of_ne (Ne.symm same)]

theorem hasLine_iff (key : Str) (lines : List Line) :
    hasLine key lines = true ↔ key ∈ Directives.keys (directives lines) := by
  induction lines with
  | nil => simp [hasLine, Directives.keys]
  | cons line rest ih =>
      cases line with
      | raw text => simpa [hasLine, Line.hasKey] using ih
      | pair k v =>
          have step : hasLine key (.pair k v :: rest) = (decide (k = key) || hasLine key rest) :=
            rfl
          rw [step, Bool.or_eq_true, ih]
          simp [Directives.keys, eq_comm]

theorem directives_updateLine (key value : Str) (lines : List Line) :
    directives (updateLine key value lines) =
      Directives.replaceFirst key value (directives lines) := by
  induction lines with
  | nil => rfl
  | cons line rest ih =>
      cases line with
      | raw text => simpa [updateLine] using ih
      | pair k v =>
          by_cases same : k = key <;> simp [updateLine, Directives.replaceFirst, same, ih]

theorem directives_setLine (key value : Str) (lines : List Line) :
    directives (setLine key value lines) = Directives.put key value (directives lines) := by
  unfold setLine Directives.put
  by_cases present : hasLine key lines
  · rw [if_pos present, if_pos ((hasLine_iff key lines).mp present), directives_updateLine]
  · rw [if_neg present, if_neg (mt (hasLine_iff key lines).mpr present)]
    simp

theorem directives_dropLines (key : Str) (lines : List Line) :
    directives (dropLines key lines) = Directives.remove key (directives lines) := by
  induction lines with
  | nil => rfl
  | cons line rest ih =>
      rw [dropLines, Directives.remove] at ih ⊢
      cases line with
      | raw text => simpa [List.filter_cons, Line.hasKey] using ih
      | pair k v =>
          by_cases same : k = key
          · rw [List.filter_cons_of_neg (by simp [Line.hasKey, same]), ih, directives_cons_pair,
              List.filter_cons_of_neg (by simp [same])]
          · rw [List.filter_cons_of_pos (by simp [Line.hasKey, same]), directives_cons_pair, ih,
              directives_cons_pair, List.filter_cons_of_pos (by simp [same])]

theorem directives_dropWhere (key value : Str) (lines : List Line) :
    directives (dropWhere key value lines) =
      (directives lines).filter fun d => d ≠ (key, value) := by
  rw [directives, dropWhere, List.filterMap_filter, directives, List.filter_filterMap]
  apply List.filterMap_congr
  intro line _
  cases line with
  | raw text => simp [Line.directive?]
  | pair k v =>
      by_cases same : k = key ∧ v = value <;> simp [Line.directive?, Option.filter_some, same]

theorem getLines_eq_values (key : Str) (lines : List Line) :
    getLines key lines = Directives.values key (directives lines) := by
  induction lines with
  | nil => rfl
  | cons line rest ih =>
      rw [getLines] at ih ⊢
      cases line with
      | raw text => exact ih
      | pair k v =>
          rw [directives_cons_pair, List.filterMap_cons]
          by_cases same : k = key
          · subst k
            rw [Directives.values_cons_self, ← ih]
            simp
          · rw [Directives.values_cons_ne key v same, ← ih]
            simp [same]

@[simp] theorem length_updateLine (key value : Str) (lines : List Line) :
    (updateLine key value lines).length = lines.length := by
  induction lines with
  | nil => rfl
  | cons line rest ih =>
      cases line with
      | raw text => simp [updateLine, ih]
      | pair k v => by_cases same : k = key <;> simp [updateLine, same, ih]

@[simp] theorem hasLine_updateLine (other key value : Str) (lines : List Line) :
    hasLine other (updateLine key value lines) = hasLine other lines := by
  rw [Bool.eq_iff_iff, hasLine_iff, hasLine_iff, directives_updateLine,
    Directives.keys_replaceFirst]

theorem hasLine_setLine_ne {other key : Str} (h : other ≠ key) (value : Str)
    (lines : List Line) : hasLine other (setLine key value lines) = hasLine other lines := by
  unfold setLine
  split
  · exact hasLine_updateLine other key value lines
  · simp [hasLine, Line.hasKey, Ne.symm h]

theorem setLine_of_hasLine {key : Str} {lines : List Line} (h : hasLine key lines) (value : Str) :
    setLine key value lines = updateLine key value lines := if_pos h

theorem dropLast_updateLine (key value : Str) (lines : List Line) :
    (updateLine key value lines).dropLast = updateLine key value lines.dropLast := by
  induction lines with
  | nil => rfl
  | cons line rest ih =>
      by_cases last : rest = []
      · subst rest
        cases line with
        | raw text => rfl
        | pair k v => by_cases same : k = key <;> simp [updateLine, same]
      · have more (ls : List Line) (size : ls.length = rest.length) : ls ≠ [] := by
          rintro rfl
          exact last (List.length_eq_zero_iff.mp size.symm)
        have updated := more _ (length_updateLine key value rest)
        rw [List.dropLast_cons_of_ne_nil last]
        cases line with
        | raw text => rw [updateLine, List.dropLast_cons_of_ne_nil updated, ih, updateLine]
        | pair k v =>
            by_cases same : k = key
            · simp only [updateLine, same, if_true, List.dropLast_cons_of_ne_nil last]
            · simp only [updateLine, same, if_false, List.dropLast_cons_of_ne_nil updated, ih]

theorem mem_updateLine {key value : Str} {lines : List Line} {line : Line}
    (h : line ∈ updateLine key value lines) : line ∈ lines ∨ line = .pair key value := by
  induction lines with
  | nil => simp [updateLine] at h
  | cons head rest ih =>
      cases head with
      | raw text =>
          simp only [updateLine, List.mem_cons] at h ⊢
          rcases h with h | h
          · exact .inl (.inl h)
          · exact (ih h).imp_left .inr
      | pair k v =>
          by_cases same : k = key
          · simp only [updateLine, same, if_true, List.mem_cons] at h ⊢
            rcases h with h | h
            · exact .inr h
            · exact .inl (.inr h)
          · simp only [updateLine, same, if_false, List.mem_cons] at h ⊢
            rcases h with h | h
            · exact .inl (.inl h)
            · exact (ih h).imp_left .inr

theorem mem_setLine {key value : Str} {lines : List Line} {line : Line}
    (h : line ∈ setLine key value lines) : line ∈ lines ∨ line = .pair key value := by
  unfold setLine at h
  split at h
  · exact mem_updateLine h
  · simpa using h

end Directives

section Other

variable {key : Str} {keys : List Str}

theorem otherLines_append (keys : List Str) (front back : List Line) :
    otherLines keys (front ++ back) = otherLines keys front ++ otherLines keys back :=
  List.filter_append ..

theorem otherLines_cons (keys : List Str) (line : Line) (rest : List Line) :
    otherLines keys (line :: rest) =
      if keys.all (fun key => !line.hasKey key) then line :: otherLines keys rest
      else otherLines keys rest := by
  rw [otherLines, List.filter_cons]
  rfl

theorem otherLines_cons_pair (member : key ∈ keys) (value : Str) (rest : List Line) :
    otherLines keys (.pair key value :: rest) = otherLines keys rest := by
  rw [otherLines_cons, if_neg]
  intro clear
  have absent := List.all_eq_true.mp clear key member
  simp [Line.hasKey] at absent

theorem otherLines_updateLine (member : key ∈ keys) (value : Str) (lines : List Line) :
    otherLines keys (updateLine key value lines) = otherLines keys lines := by
  induction lines with
  | nil => rfl
  | cons line rest ih =>
      cases line with
      | raw text => rw [updateLine, otherLines_cons, otherLines_cons, ih]
      | pair k v =>
          by_cases same : k = key
          · rw [updateLine, if_pos same, otherLines_cons_pair (same ▸ member),
              otherLines_cons_pair (same ▸ member)]
          · rw [updateLine, if_neg same, otherLines_cons, otherLines_cons, ih]

theorem otherLines_setLine (member : key ∈ keys) (value : Str) (lines : List Line) :
    otherLines keys (setLine key value lines) = otherLines keys lines := by
  unfold setLine
  split
  · exact otherLines_updateLine member value lines
  · rw [otherLines_append, otherLines_cons_pair member]
    exact List.append_nil _

theorem otherLines_dropLines (member : key ∈ keys) (lines : List Line) :
    otherLines keys (dropLines key lines) = otherLines keys lines := by
  rw [otherLines, dropLines, List.filter_filter, otherLines]
  apply List.filter_congr
  intro line _
  by_cases clear : keys.all (fun key => !line.hasKey key) = true
  · rw [clear, List.all_eq_true.mp clear key member]
    rfl
  · rw [Bool.not_eq_true] at clear
    rw [clear, Bool.false_and]

theorem otherLines_dropFirst (member : key ∈ keys) (value : Str) (lines : List Line) :
    otherLines keys (dropFirst key value lines) = otherLines keys lines := by
  induction lines with
  | nil => rfl
  | cons line rest ih =>
      rw [dropFirst] at ih ⊢
      by_cases same : line = .pair key value
      · rw [same, List.erase_cons_head, otherLines_cons_pair member]
      · rw [List.erase_cons_tail (by simpa using same), otherLines_cons, ih, otherLines_cons]

theorem getLines_cons_self (key value : Str) (rest : List Line) :
    getLines key (.pair key value :: rest) = value :: getLines key rest := by
  simp [getLines]

theorem getLines_cons_ne {k : Str} (differs : k ≠ key) (value : Str) (rest : List Line) :
    getLines key (.pair k value :: rest) = getLines key rest := by
  simp [getLines, differs]

theorem getLines_dropFirst (key value : Str) (lines : List Line) :
    getLines key (dropFirst key value lines) = (getLines key lines).erase value := by
  induction lines with
  | nil => rfl
  | cons line rest ih =>
      rw [dropFirst] at ih ⊢
      cases line with
      | raw text =>
          rw [List.erase_cons_tail (by simp)]
          exact ih
      | pair k v =>
          by_cases here : k = key
          · subst k
            rw [getLines_cons_self]
            by_cases same : v = value
            · rw [same, List.erase_cons_head, List.erase_cons_head]
            · rw [List.erase_cons_tail (by simp [same]), List.erase_cons_tail (by simp [same]),
                getLines_cons_self, ih]
          · rw [List.erase_cons_tail (by simp [here]), getLines_cons_ne here,
              getLines_cons_ne here, ih]

/-- A reading of the lines that leaves the keys leaves the choice of the others. -/
theorem otherLines_map {f : Line → Line} (same : ∀ line k, (f line).hasKey k = line.hasKey k)
    (keys : List Str) (lines : List Line) :
    otherLines keys (lines.map f) = (otherLines keys lines).map f := by
  rw [otherLines, List.filter_map, otherLines]
  congr 1
  apply List.filter_congr
  intro line _
  simp only [Function.comp_apply, same]

theorem otherLines_otherLines (keys : List Str) (lines : List Line) :
    otherLines keys (otherLines keys lines) = otherLines keys lines := by
  unfold otherLines
  rw [List.filter_filter]
  exact List.filter_congr fun _ _ => Bool.and_self _

theorem getLine_append (key : Str) (front back : List Line) :
    getLine key (front ++ back) = (getLine key front).or (getLine key back) :=
  List.findSome?_append ..

theorem getLine_otherLines (absent : key ∉ keys) (lines : List Line) :
    getLine key (otherLines keys lines) = getLine key lines := by
  induction lines with
  | nil => rfl
  | cons line rest ih =>
      rw [otherLines_cons]
      split
      · rw [← List.singleton_append, getLine_append, ih, ← getLine_append, List.singleton_append]
      · next dropped =>
          cases line with
          | raw text => exact absurd (by simp [Line.hasKey]) dropped
          | pair k v =>
              by_cases same : k = key
              · refine absurd (List.all_eq_true.mpr fun other member => ?_) dropped
                have differs : k ≠ other := fun equal => absent (same ▸ equal ▸ member)
                simp [Line.hasKey, differs]
              · rw [ih]
                simp [getLine, same]

theorem getLine_setLine_self (key value : Str) (lines : List Line) :
    getLine key (setLine key value lines) = some value := by
  rw [getLine_eq_lookup, directives_setLine, Directives.lookup_put_self]

theorem getLine_setLine_ne {other : Str} (differs : other ≠ key) (value : Str)
    (lines : List Line) : getLine other (setLine key value lines) = getLine other lines := by
  rw [getLine_eq_lookup, directives_setLine, Directives.lookup_put_ne key value differs,
    getLine_eq_lookup]

theorem setLine_of_getLine {value : Str} {lines : List Line}
    (found : getLine key lines = some value) : setLine key value lines = lines := by
  have present : hasLine key lines := by
    rw [getLine_eq_lookup] at found
    exact (hasLine_iff key lines).mpr (Directives.mem_keys_of_lookup found)
  rw [setLine_of_hasLine present]
  clear present
  induction lines with
  | nil => rfl
  | cons line rest ih =>
      cases line with
      | raw text => exact congrArg _ (ih found)
      | pair k v =>
          by_cases same : k = key
          · have value_eq : v = value := by simpa [getLine, same] using found
            rw [updateLine, if_pos same, value_eq]
          · have later : getLine key rest = some value := by simpa [getLine, same] using found
            rw [updateLine, if_neg same, ih later]

end Other

end TinyWifi
