import TinyWifi.Lib.Edits
import TinyWifi.Lib.Views
import TinyWifi.Safety
import TinyWifi.TrimmedLines

/-! A config whose keys are divided among its editors. An editor goes by the directives of its own
keys, and it writes the whole file back with edits of these keys alone. -/

namespace TinyWifi

open Text Exec Checks Directives Views

namespace SharedConf

/-- The directives of a class of keys, as a reader of the file sees them. -/
def part (clean : Str → Str) (mine : Str → Bool) (path : Path) (fs : Fs) :
    Except IoError (List (Str × Str)) :=
  (readToString fs path).map fun content => slice mine (directives (readTrimmed clean content))

def editLine : Edit Str Str → List Line → List Line
  | .put key value, lines => setLine key value lines
  | .remove key, lines => dropLines key lines
  | .add key value, lines => lines ++ [.pair key value]
  | .erase key value, lines => dropFirst key value lines
  | .eraseAll key value, lines => dropWhere key value lines

def editLines (edits : List (Edit Str Str)) (lines : List Line) : List Line :=
  edits.foldl (fun lines edit => editLine edit lines) lines

/-- The edit is of a key of the class, and what it writes can stand in a line and needs no further
cleaning once it has been read. -/
structure Fits (clean : Str → Str) (mine : Str → Bool) (edit : Edit Str Str) : Prop where
  own : mine edit.key = true
  isKey : IsKey edit.key
  no_lf : ∀ value, edit.value? = some value → '\n' ∉ value
  lasting : ∀ value, edit.value? = some value →
    clean (trim (clean (trim value))) = clean (trim value)

/-- The values of the config stand the next reading. -/
def Lasting (clean : Str → Str) (path : Path) (fs : Fs) : Prop :=
  ∀ content, contentOf fs path = some content →
    ∀ d ∈ directives (readTrimmed clean content), clean (trim d.2) = d.2

def Edited (clean : Str → Str) (edits : List (Edit Str Str)) (content text : Str) : Prop :=
  printLines (editLines edits (readTrimmed clean content)) = text

/-- The editor stops with an error, or it edits its own keys, as its part of the config has it. -/
def Planned {ε : Type} (clean : Str → Str) (mine : Str → Bool) (path : Path)
    (edited : Fs → Except ε Str) : Prop :=
  ∀ fs fs', part clean mine path fs = part clean mine path fs' →
    (∃ e, edited fs = .error e ∧ edited fs' = .error e) ∨
    ∃ edits content content' text text',
      (∀ edit ∈ edits, Fits clean mine edit) ∧ contentOf fs path = some content ∧
      contentOf fs' path = some content' ∧ Edited clean edits content text ∧
      Edited clean edits content' text' ∧ edited fs = .ok text ∧ edited fs' = .ok text'

/-- What follows the edit writes the text or leaves the config, as the system answers. -/
def Settles {ε : Type} (path : Path) (tail : Str → Exec Fs ε Unit) : Prop :=
  ∃ (answer : Except ε Unit) (writes : Bool), ∀ text fs, fileExists fs path = true →
    (outcome (tail text) fs).1 = answer ∧
      (outcome (tail text) fs).2 path = if writes then some (encode text) else fs path

section Lines

variable {clean : Str → Str} {mine : Str → Bool}

theorem directives_dropFirst (key value : Str) (lines : List Line) :
    directives (dropFirst key value lines) = (Edit.erase key value).apply (directives lines) := by
  induction lines with
  | nil => rfl
  | cons line rest ih =>
      rw [dropFirst] at ih ⊢
      cases line with
      | raw text =>
          rw [List.erase_cons_tail (by simp)]
          exact ih
      | pair k v =>
          rw [directives_cons_pair, Edit.apply_erase_cons]
          split
          · next same =>
              cases same
              rw [List.erase_cons_head]
          · next differs =>
              have unlike : ¬ (Line.pair k v == Line.pair key value) = true := by
                simpa using differs
              rw [List.erase_cons_tail unlike, directives_cons_pair, ih]

theorem directives_editLine (edit : Edit Str Str) (lines : List Line) :
    directives (editLine edit lines) = edit.apply (directives lines) := by
  cases edit with
  | put key value => exact directives_setLine key value lines
  | remove key => exact directives_dropLines key lines
  | add key value => exact directives_append lines _
  | erase key value => exact directives_dropFirst key value lines
  | eraseAll key value => exact directives_dropWhere key value lines

theorem directives_editLines (edits : List (Edit Str Str)) (lines : List Line) :
    directives (editLines edits lines) = applyAll edits (directives lines) := by
  induction edits generalizing lines with
  | nil => rfl
  | cons edit rest ih =>
      change directives (editLines rest (editLine edit lines)) = applyAll rest (edit.apply _)
      rw [ih, directives_editLine]

section Fits

variable {key value : Str} (own : mine key = true) (isKey : IsKey key)
include own isKey

theorem fits_silent {edit : Edit Str Str} (same : edit.key = key) (silent : edit.value? = none) :
    Fits clean mine edit := by
  have none {value : Str} (given : edit.value? = some value) : False := by
    rw [silent] at given
    cases given
  exact ⟨same ▸ own, same ▸ isKey, fun _ given => (none given).elim,
    fun _ given => (none given).elim⟩

variable (no_lf : '\n' ∉ value) (lasting : clean (trim (clean (trim value))) = clean (trim value))
include no_lf lasting

theorem fits_put : Fits clean mine (.put key value) :=
  ⟨own, isKey, fun _ given => Option.some_inj.mp given ▸ no_lf,
    fun _ given => Option.some_inj.mp given ▸ lasting⟩

theorem fits_add : Fits clean mine (.add key value) :=
  ⟨own, isKey, fun _ given => Option.some_inj.mp given ▸ no_lf,
    fun _ given => Option.some_inj.mp given ▸ lasting⟩

end Fits

theorem Fits.allPrint {edit : Edit Str Str} (fits : Fits clean mine edit) {lines : List Line}
    (h : AllPrint lines) : AllPrint (editLine edit lines) := by
  cases edit with
  | put key value => exact h.setLine fits.isKey (fits.no_lf value rfl)
  | remove key => exact h.sublist List.filter_sublist
  | add key value => exact h.append fits.isKey (fits.no_lf value rfl)
  | erase key value => exact h.sublist List.erase_sublist
  | eraseAll key value => exact h.sublist List.filter_sublist

theorem allPrint_editLines {edits : List (Edit Str Str)}
    (fits : ∀ edit ∈ edits, Fits clean mine edit) {lines : List Line} (h : AllPrint lines) :
    AllPrint (editLines edits lines) := by
  induction edits generalizing lines with
  | nil => exact h
  | cons edit rest ih =>
      exact ih (fun other member => fits other (List.mem_cons_of_mem edit member))
        ((fits edit List.mem_cons_self).allPrint h)

theorem editLines_append (front back : List (Edit Str Str)) (lines : List Line) :
    editLines (front ++ back) lines = editLines back (editLines front lines) :=
  List.foldl_append ..

end Lines

section Written

variable {clean : Str → Str} {mine other : Str → Bool} {path : Path} {fs fs' : Fs}
  {content text : Str} {edits : List (Edit Str Str)}

theorem part_of_content (mine : Str → Bool) (found : contentOf fs path = some content) :
    part clean mine path fs = .ok (slice mine (directives (readTrimmed clean content))) := by
  rw [part, readToString_eq_ok.mpr found]
  rfl

theorem directives_edited (subset : ∀ v, clean v ⊆ v) (fits : ∀ edit ∈ edits, Fits clean mine edit)
    (edited : Edited clean edits content text) :
    directives (readTrimmed clean text) =
      (applyAll edits (directives (readTrimmed clean content))).map
        fun d => (d.1, clean (trim d.2)) := by
  rw [← edited, directives_reread (allPrint_editLines fits (allPrint_readTrimmed subset content)),
    directives_editLines]

theorem slice_edited (subset : ∀ v, clean v ⊆ v) (fits : ∀ edit ∈ edits, Fits clean mine edit)
    (edited : Edited clean edits content text) :
    slice mine (directives (readTrimmed clean text)) =
      (applyAll edits (slice mine (directives (readTrimmed clean content)))).map
        fun d => (d.1, clean (trim d.2)) := by
  rw [directives_edited subset fits edited, slice_map _ fun v => clean (trim v),
    slice_applyAll fun edit member => (fits edit member).own]

theorem slice_edited_other (subset : ∀ v, clean v ⊆ v)
    (fits : ∀ edit ∈ edits, Fits clean mine edit) (apart : ∀ k, mine k = true → other k = false)
    (lasting : ∀ d ∈ directives (readTrimmed clean content), clean (trim d.2) = d.2)
    (edited : Edited clean edits content text) :
    slice other (directives (readTrimmed clean text)) =
      slice other (directives (readTrimmed clean content)) := by
  rw [directives_edited subset fits edited, slice_map _ fun v => clean (trim v),
    slice_applyAll_other fun edit member => apart edit.key (fits edit member).own]
  apply Decoded.map_eq_self_iff.mpr
  exact fun d member => Prod.ext rfl (lasting d (List.mem_of_mem_filter member))

theorem lasting_edited (subset : ∀ v, clean v ⊆ v) (fits : ∀ edit ∈ edits, Fits clean mine edit)
    (lasting : ∀ d ∈ directives (readTrimmed clean content), clean (trim d.2) = d.2)
    (edited : Edited clean edits content text) :
    ∀ d ∈ directives (readTrimmed clean text), clean (trim d.2) = d.2 := by
  rw [directives_edited subset fits edited]
  intro d member
  obtain ⟨d, inside, rfl⟩ := List.mem_map.mp member
  refine forall_mem_applyAll (P := fun d => clean (trim (clean (trim d.2))) = clean (trim d.2))
    ?_ ?_ d inside
  · intro d inside
    rw [lasting d inside]
    exact lasting d inside
  · exact fun edit member value given => (fits edit member).lasting value given

theorem contentOf_congr (same : fs' path = fs path) : contentOf fs' path = contentOf fs path := by
  rw [contentOf, same, contentOf]

theorem part_congr (mine : Str → Bool) (same : fs' path = fs path) :
    part clean mine path fs' = part clean mine path fs := by
  rw [part, readToString, same, part, readToString]

end Written

section Editors

variable {ε : Type} {clean : Str → Str} {mine other : Str → Bool} {path : Path} {fs fs' : Fs}
  {edited : Fs → Except ε Str} {tail : Str → Exec Fs ε Unit}

/-- An editor of a config: it makes a text out of the files, and goes on with it. -/
def editor (edited : Fs → Except ε Str) (tail : Str → Exec Fs ε Unit) : Exec Fs ε Unit := do
  let text ← reading edited
  tail text

theorem outcome_editor_error {e : ε} (stops : edited fs = .error e) :
    outcome (editor edited tail) fs = (.error e, fs) := by
  rw [editor, outcome_bind, outcome_reading, stops]

theorem outcome_editor_ok {text : Str} (goes : edited fs = .ok text) :
    outcome (editor edited tail) fs = outcome (tail text) fs := by
  rw [editor, outcome_bind, outcome_reading, goes]

/-- On two configs that agree on its part, an editor stops with one error, leaves both, or makes
the same edits of both. -/
theorem editor_cases (planned : Planned clean mine path edited) (settles : Settles path tail)
    (same : part clean mine path fs = part clean mine path fs') :
    (outcome (editor edited tail) fs).1 = (outcome (editor edited tail) fs').1 ∧
      ((outcome (editor edited tail) fs).2 path = fs path ∧
        (outcome (editor edited tail) fs').2 path = fs' path ∨
      ∃ edits content content' text text', (∀ edit ∈ edits, Fits clean mine edit) ∧
        contentOf fs path = some content ∧ contentOf fs' path = some content' ∧
        Edited clean edits content text ∧ Edited clean edits content' text' ∧
        contentOf (outcome (editor edited tail) fs).2 path = some text ∧
        contentOf (outcome (editor edited tail) fs').2 path = some text') := by
  obtain ⟨answer, writes, ends⟩ := settles
  rcases planned fs fs' same with ⟨e, stops, stops'⟩ | ⟨edits, content, content', text, text',
    fits, found, found', edit, edit', goes, goes'⟩
  · rw [outcome_editor_error stops, outcome_editor_error stops']
    exact ⟨rfl, .inl ⟨rfl, rfl⟩⟩
  · rw [outcome_editor_ok goes, outcome_editor_ok goes']
    obtain ⟨result, file⟩ := ends text fs (exists_of_contentOf found)
    obtain ⟨result', file'⟩ := ends text' fs' (exists_of_contentOf found')
    refine ⟨result.trans result'.symm, ?_⟩
    cases writes with
    | false => exact .inl ⟨file, file'⟩
    | true =>
        refine .inr ⟨edits, content, content', text, text', fits, found, found', edit, edit', ?_⟩
        rw [contentOf, file, contentOf, file', if_pos rfl, if_pos rfl, Option.bind_some,
          Option.bind_some, decode_encode, decode_encode]
        exact ⟨rfl, rfl⟩

theorem through_editor (subset : ∀ v, clean v ⊆ v) (planned : Planned clean mine path edited)
    (settles : Settles path tail) : Through (part clean mine path) (editor edited tail) := by
  intro fs fs' same
  obtain ⟨answered, kept | ⟨edits, content, content', text, text', fits, found, found', edit, edit',
    file, file'⟩⟩ := editor_cases planned settles same
  · exact ⟨answered, by rw [part_congr mine kept.1, same, part_congr mine kept.2]⟩
  · refine ⟨answered, ?_⟩
    rw [part_of_content mine found, part_of_content mine found'] at same
    rw [part_of_content mine file, part_of_content mine file', slice_edited subset fits edit,
      slice_edited subset fits edit', Except.ok.inj same]

theorem leaves_editor (subset : ∀ v, clean v ⊆ v) (planned : Planned clean mine path edited)
    (settles : Settles path tail) (apart : ∀ k, mine k = true → other k = false)
    (lasting : Lasting clean path fs) :
    part clean other path (outcome (editor edited tail) fs).2 = part clean other path fs := by
  obtain ⟨-, kept | ⟨edits, content, _, text, _, fits, found, -, edit, -, file, -⟩⟩ :=
    editor_cases planned settles (rfl : part clean mine path fs = _)
  · exact part_congr other kept.1
  · rw [part_of_content other file, part_of_content other found,
      slice_edited_other subset fits apart (lasting content found) edit]

theorem lasting_editor (subset : ∀ v, clean v ⊆ v) (planned : Planned clean mine path edited)
    (settles : Settles path tail) (lasting : Lasting clean path fs) :
    Lasting clean path (outcome (editor edited tail) fs).2 := by
  obtain ⟨-, kept | ⟨edits, content, _, text, _, fits, found, -, edit, -, file, -⟩⟩ :=
    editor_cases planned settles (rfl : part clean mine path fs = _)
  · intro content there
    rw [contentOf_congr kept.1] at there
    exact lasting content there
  · intro content there
    obtain rfl : text = content := Option.some_inj.mp (file.symm.trans there)
    exact lasting_edited subset fits (lasting _ found) edit

theorem settles_rewrite {env : FileEnv} (whole : env.write.Whole) (io : IoError → ε) :
    Settles path fun text => mapError io (writeFile env.write path (encode text)) := by
  cases answer : env.write with
  | done => exact ⟨.ok (), true, fun text fs _ => ⟨rfl, put_self path _ fs⟩⟩
  | refused e => exact ⟨.error (io e), false, fun text fs _ => ⟨rfl, rfl⟩⟩
  | cut kept e => exact absurd answer (whole kept e)

/-- What a save comes to once the backup is made and the text is written. -/
theorem outcome_saveEdited_written {env : EditEnv} {errors : SaveErrors ε} {text : Str}
    {original : ByteArray} (found : fs path = some original) (backed : env.backup = .done)
    (written : env.write = .done) (commit : Commit) :
    outcome (saveEdited env errors path text commit) fs =
      outcome (match env.restart with
        | .ok () =>
          if env.running then
            match commit with
            | .now => discardBackup env.discard path
            | .hold => pure ()
          else do
            revert env.restore path
            throw errors.rolledBack
        | .error e => do
          revert env.restore path
          throw (errors.service e))
        (put path (encode text) (put (backupPath path) original fs)) := by
  have copied : outcome (mapError errors.io (backup env.backup path)) fs =
      (.ok (), put (backupPath path) original fs) := by
    rw [outcome_mapError_ok, backup, backed]
    exact outcome_copyFile found ..
  have rewritten : outcome (mapError errors.io (writeFile env.write path (encode text)))
      (put (backupPath path) original fs) =
        (.ok (), put path (encode text) (put (backupPath path) original fs)) := by
    rw [outcome_mapError_ok, written]
    exact outcome_writeFile_done ..
  exact (outcome_bind_of_ok copied).trans (outcome_bind_of_ok rewritten)

theorem outcome_undone {env : EditEnv} {text : Str} {original : ByteArray}
    (restore : env.restore.Whole) (e : ε) :
    outcome (do
        revert env.restore path
        throw e : Exec Fs ε Unit) (put path (encode text) (put (backupPath path) original fs)) =
      (.error e, (if env.restore = .done then put path original else id)
        (put path (encode text) (put (backupPath path) original fs))) := by
  have kept : (put path (encode text) (put (backupPath path) original fs)) (backupPath path) =
      some original := by
    rw [put_self_backup, put_self]
  cases answer : env.restore with
  | done =>
      rw [outcome_bind, outcome_revert kept, if_pos rfl]
      rfl
  | refused error =>
      rw [outcome_bind, revert, outcome_attempt, restoreBackup, outcome_copyFile kept]
      rfl
  | cut count error => exact absurd answer (restore count error)

/-- The save flow puts the text in place, or the config is what it was. -/
theorem settles_saveEdited {env : EditEnv} (write : env.write.Whole) (restore : env.restore.Whole)
    (errors : SaveErrors ε) (commit : Commit) :
    Settles path fun text => saveEdited env errors path text commit := by
  -- `answer` and `writes` are read off the answers of the system, one after another
  cases backed : env.backup with
  | refused e =>
      refine ⟨.error (errors.io e), false, fun text fs there => ?_⟩
      obtain ⟨original, found⟩ := Option.isSome_iff_exists.mp there
      simp only [saveEdited, outcome_bind, outcome_mapError, backup, backed,
        outcome_copyFile found, writeFile, outcome_throw]
      exact ⟨trivial, rfl⟩
  | cut kept e =>
      refine ⟨.error (errors.io e), false, fun text fs there => ?_⟩
      obtain ⟨original, found⟩ := Option.isSome_iff_exists.mp there
      simp only [saveEdited, outcome_bind, outcome_mapError, backup, backed,
        outcome_copyFile found, writeFile, outcome_throw, outcome_modify]
      exact ⟨trivial, put_backup_self path _ fs⟩
  | done =>
      cases written : env.write with
      | cut kept e => exact absurd written (write kept e)
      | refused e =>
          refine ⟨.error (errors.io e), false, fun text fs there => ?_⟩
          obtain ⟨original, found⟩ := Option.isSome_iff_exists.mp there
          simp only [saveEdited, outcome_bind, outcome_mapError, backup, backed, written,
            outcome_copyFile found, writeFile, outcome_throw, outcome_modify]
          exact ⟨trivial, put_backup_self path _ fs⟩
      | done =>
          have undone (e : ε) (shape : ∀ text fs original, fs path = some original →
              outcome (saveEdited env errors path text commit) fs = outcome (do
                revert env.restore path
                throw e : Exec Fs ε Unit)
                  (put path (encode text) (put (backupPath path) original fs))) :
              Settles path fun text => saveEdited env errors path text commit := by
            refine ⟨.error e, env.restore ≠ .done, fun text fs there => ?_⟩
            obtain ⟨original, found⟩ := Option.isSome_iff_exists.mp there
            rw [shape text fs original found, outcome_undone restore e]
            by_cases done : env.restore = .done
            · simp [done, found]
            · simp [done]
          cases restarted : env.restart with
          | error e =>
              refine undone (errors.service e) fun text fs original found => ?_
              rw [outcome_saveEdited_written found backed written, restarted]
          | ok _ =>
              cases running : env.running with
              | false =>
                  refine undone errors.rolledBack fun text fs original found => ?_
                  rw [outcome_saveEdited_written found backed written, restarted, running]
                  rfl
              | true =>
                  refine ⟨.ok (), true, fun text fs there => ?_⟩
                  obtain ⟨original, found⟩ := Option.isSome_iff_exists.mp there
                  rw [outcome_saveEdited_ok found backed written restarted running]
                  cases commit with
                  | now => exact ⟨rfl, by simp⟩
                  | hold => exact ⟨rfl, by simp⟩

end Editors

section Loading

variable {clean : Str → Str} {mine : Str → Bool} {path : Path} {fs fs' : Fs}

theorem fileExists_of_error {e : IoError} (read : readToString fs path = .error e) :
    fileExists fs path = decide (e ≠ .notFound) := by
  have apart : IoError.invalidUtf8 ≠ IoError.notFound := by decide
  unfold readToString at read
  unfold fileExists
  cases there : fs path with
  | none =>
      rw [there] at read
      cases read
      rfl
  | some bytes =>
      rw [there] at read
      dsimp only at read
      split at read
      · cases read
        simp [apart]
      · cases read

theorem part_cases (same : part clean mine path fs = part clean mine path fs') :
    (∃ e, readToString fs path = .error e ∧ readToString fs' path = .error e) ∨
    ∃ content content', contentOf fs path = some content ∧ contentOf fs' path = some content' ∧
      slice mine (directives (readTrimmed clean content)) =
        slice mine (directives (readTrimmed clean content')) := by
  unfold part at same
  cases first : readToString fs path with
  | error e =>
      cases second : readToString fs' path with
      | error e' =>
          rw [first, second] at same
          cases same
          exact .inl ⟨e, rfl, rfl⟩
      | ok content' =>
          rw [first, second] at same
          cases same
  | ok content =>
      cases second : readToString fs' path with
      | error e' =>
          rw [first, second] at same
          cases same
      | ok content' =>
          rw [first, second] at same
          exact .inr ⟨content, content', readToString_eq_ok.mp first, readToString_eq_ok.mp second,
            Except.ok.inj same⟩

def load {δ γ : Type} (notFound notReadable : δ) (io : IoError → δ) (make : Str → γ)
    (readable : Bool) (path : Path) (fs : Fs) : Except δ γ := do
  require (fileExists fs path) notFound
  require readable notReadable
  let content ← (readToString fs path).mapError io
  return make content

theorem load_cases {δ γ : Type} (notFound notReadable : δ) (io : IoError → δ) (make : Str → γ)
    (readable : Bool) (same : part clean mine path fs = part clean mine path fs') :
    (∃ e, load notFound notReadable io make readable path fs = .error e ∧
      load notFound notReadable io make readable path fs' = .error e) ∨
    ∃ content content', contentOf fs path = some content ∧ contentOf fs' path = some content' ∧
      slice mine (directives (readTrimmed clean content)) =
        slice mine (directives (readTrimmed clean content')) ∧
      load notFound notReadable io make readable path fs = .ok (make content) ∧
      load notFound notReadable io make readable path fs' = .ok (make content') := by
  rcases part_cases same with ⟨e, first, second⟩ | ⟨content, content', found, found', slices⟩
  · left
    unfold load
    rw [first, second, fileExists_of_error first, fileExists_of_error second]
    cases decide (e ≠ IoError.notFound) with
    | false => exact ⟨notFound, rfl, rfl⟩
    | true =>
        cases readable with
        | false => exact ⟨notReadable, rfl, rfl⟩
        | true => exact ⟨io e, rfl, rfl⟩
  · unfold load
    rw [readToString_eq_ok.mpr found, readToString_eq_ok.mpr found', exists_of_contentOf found,
      exists_of_contentOf found']
    cases readable with
    | false => exact .inl ⟨notReadable, rfl, rfl⟩
    | true => exact .inr ⟨content, content', found, found', slices, rfl, rfl⟩

/-- An editor that loads the config, changes it as its part has it, and prints it. -/
theorem planned_edit {γ δ ε : Type} (make : Str → γ) (lines : γ → List Line)
    (parsed : ∀ content, lines (make content) = readTrimmed clean content)
    (notFound notReadable : δ) (io : IoError → δ) (readable : Bool) (wrap : δ → ε)
    {edit : γ → Except ε γ}
    (plan : ∀ conf conf', slice mine (directives (lines conf)) =
        slice mine (directives (lines conf')) →
      (∃ e, edit conf = .error e ∧ edit conf' = .error e) ∨
      ∃ change edited edited', Fits clean mine change ∧ edit conf = .ok edited ∧
        edit conf' = .ok edited' ∧ lines edited = editLine change (lines conf) ∧
        lines edited' = editLine change (lines conf')) :
    Planned clean mine path fun fs => do
      let conf ← (load notFound notReadable io make readable path fs).mapError wrap
      let edited ← edit conf
      return printLines (lines edited) := by
  intro fs fs' same
  beta_reduce
  rcases load_cases notFound notReadable io make readable same with ⟨e, first, second⟩ |
    ⟨content, content', found, found', slices, first, second⟩
  · rw [first, second]
    exact .inl ⟨wrap e, rfl, rfl⟩
  · rw [first, second]
    rw [← parsed, ← parsed] at slices
    rcases plan _ _ slices with ⟨e, stops, stops'⟩ |
      ⟨change, edited, edited', fits, goes, goes', shape, shape'⟩
    · refine .inl ⟨e, ?_, ?_⟩
      · change (edit _ >>= _) = _
        rw [stops]
        rfl
      · change (edit _ >>= _) = _
        rw [stops']
        rfl
    · rw [parsed] at shape shape'
      refine .inr ⟨[change], content, content', _, _, ?_, found, found',
        congrArg printLines shape.symm, congrArg printLines shape'.symm, ?_, ?_⟩
      · intro other member
        rw [List.mem_singleton.mp member]
        exact fits
      · change (edit _ >>= _) = _
        rw [goes]
        rfl
      · change (edit _ >>= _) = _
        rw [goes']
        rfl

end Loading

end SharedConf

end TinyWifi
