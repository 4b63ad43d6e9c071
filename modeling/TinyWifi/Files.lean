import Mathlib.Logic.Function.Basic
import TinyWifi.Lib.Exec
import TinyWifi.Lib.Text

/-! `file.rs`: files by path, and what reading, writing and copying them can come to. -/

namespace TinyWifi

open Text Exec

abbrev Path := Str

abbrev Fs := Path → Option ByteArray

structure IoError where
  message : Str
  deriving DecidableEq, Repr

def IoError.notFound : IoError := ⟨"No such file or directory (os error 2)".toList⟩
def IoError.invalidUtf8 : IoError := ⟨"stream did not contain valid UTF-8".toList⟩

/-- How the system answers a write: done, refused before the file is touched, or cut off with the
first `kept` bytes in the truncated file. -/
inductive WriteOutcome
  | done
  | refused (error : IoError)
  | cut (kept : Nat) (error : IoError)
  deriving DecidableEq, Repr

def WriteOutcome.Whole (system : WriteOutcome) : Prop := ∀ kept error, system ≠ .cut kept error

def encode (text : Str) : ByteArray := (String.ofList text).toByteArray

def decode (bytes : ByteArray) : Option Str := bytes.utf8Decode?.map Array.toList

def put (path : Path) (bytes : ByteArray) (fs : Fs) : Fs := Function.update fs path (some bytes)

def oneFile (path : Path) (text : Str) : Fs := put path (encode text) fun _ => none

def erase (path : Path) (fs : Fs) : Fs := Function.update fs path none

def fileExists (fs : Fs) (path : Path) : Bool := (fs path).isSome

def contentOf (fs : Fs) (path : Path) : Option Str := (fs path).bind decode

def backupPath (path : Path) : Path := path ++ ".bak".toList

def readToString (fs : Fs) (path : Path) : Except IoError Str :=
  match fs path with
  | none => .error .notFound
  | some bytes =>
    match decode bytes with
    | none => .error .invalidUtf8
    | some text => .ok text

def writeFile (system : WriteOutcome) (path : Path) (bytes : ByteArray) : Exec Fs IoError Unit :=
  match system with
  | .done => modify (put path bytes)
  | .refused error => throw error
  | .cut kept error => do
    modify (put path (bytes.extract 0 kept))
    throw error

def appendFile (system : WriteOutcome) (path : Path) (bytes : ByteArray) :
    Exec Fs IoError Unit := do
  let old := ((← get) path).getD .empty
  match system with
  | .done => modify (put path (old ++ bytes))
  | .refused error => throw error
  | .cut kept error => do
    modify (put path (old ++ bytes.extract 0 kept))
    throw error

def copyFile (system : WriteOutcome) (source target : Path) : Exec Fs IoError Unit := do
  match (← get) source with
  | none => throw .notFound
  | some bytes => writeFile system target bytes

def removeFile (path : Path) : Exec Fs IoError Unit := do
  match (← get) path with
  | none => throw .notFound
  | some _ => modify (erase path)

def removeFileAs (answer : Except IoError Unit) (path : Path) : Exec Fs IoError Unit :=
  match answer with
  | .ok () => removeFile path
  | .error error => throw error

def backup (system : WriteOutcome) (path : Path) : Exec Fs IoError Unit :=
  copyFile system path (backupPath path)

def restoreBackup (system : WriteOutcome) (path : Path) : Exec Fs IoError Unit :=
  copyFile system (backupPath path) path

/-- What the system answers while one file is read, checked and written back. -/
structure FileEnv where
  readable : Bool
  writable : Bool
  write : WriteOutcome
  deriving DecidableEq, Repr

def FileEnv.willing : FileEnv := ⟨true, true, .done⟩

def rewrite {ε : Type} (env : FileEnv) (io : IoError → ε) (path : Path)
    (edited : Fs → Except ε Str) : Exec Fs ε Unit := do
  let text ← reading edited
  mapError io (writeFile env.write path (encode text))

section Paths

@[simp] theorem decode_encode (text : Str) : decode (encode text) = some text := by
  simp [decode, encode, String.toByteArray_ofList, List.utf8Decode?_utf8Encode]

theorem backupPath_ne (path : Path) : backupPath path ≠ path := by
  intro same
  have longer := congrArg List.length same
  simp [backupPath] at longer

@[simp] theorem put_self (path : Path) (bytes : ByteArray) (fs : Fs) :
    put path bytes fs path = some bytes := Function.update_self ..

theorem put_of_ne {path other : Path} (h : other ≠ path) (bytes : ByteArray) (fs : Fs) :
    put path bytes fs other = fs other := Function.update_of_ne h ..

@[simp] theorem erase_self (path : Path) (fs : Fs) : erase path fs path = none :=
  Function.update_self ..

theorem erase_of_ne {path other : Path} (h : other ≠ path) (fs : Fs) :
    erase path fs other = fs other := Function.update_of_ne h ..

@[simp] theorem put_backup_self (path : Path) (bytes : ByteArray) (fs : Fs) :
    put (backupPath path) bytes fs path = fs path :=
  put_of_ne (backupPath_ne path).symm bytes fs

@[simp] theorem put_self_backup (path : Path) (bytes : ByteArray) (fs : Fs) :
    put path bytes fs (backupPath path) = fs (backupPath path) :=
  put_of_ne (backupPath_ne path) bytes fs

@[simp] theorem erase_backup_self (path : Path) (fs : Fs) :
    erase (backupPath path) fs path = fs path :=
  erase_of_ne (backupPath_ne path).symm fs

end Paths

section Operations

theorem readToString_eq_ok {fs : Fs} {path : Path} {text : Str} :
    readToString fs path = .ok text ↔ contentOf fs path = some text := by
  unfold readToString contentOf
  cases fs path with
  | none => simp
  | some bytes =>
      cases decoded : decode bytes with
      | none => simp [decoded]
      | some found => simp [decoded]

theorem contentOf_put (path : Path) (text : Str) (fs : Fs) :
    contentOf (put path (encode text) fs) path = some text := by
  rw [contentOf, put_self, Option.bind_some, decode_encode]

theorem exists_of_contentOf {fs : Fs} {path : Path} {text : Str}
    (h : contentOf fs path = some text) : fileExists fs path = true := by
  obtain ⟨bytes, found, -⟩ := Option.bind_eq_some_iff.mp h
  rw [fileExists, found, Option.isSome_some]

theorem outcome_writeFile_done (path : Path) (bytes : ByteArray) (fs : Fs) :
    outcome (writeFile .done path bytes) fs = (.ok (), put path bytes fs) := rfl

theorem outcome_writeFile_ok {system : WriteOutcome} {path : Path} {bytes : ByteArray}
    {fs fs' : Fs} :
    outcome (writeFile system path bytes) fs = (.ok (), fs') ↔
      system = .done ∧ put path bytes fs = fs' := by
  cases system with
  | done => simp [outcome_writeFile_done]
  | refused e => simp [writeFile]
  | cut kept e => simp [writeFile, outcome_bind]

theorem outcome_appendFile_ok {system : WriteOutcome} {path : Path} {bytes : ByteArray}
    {fs fs' : Fs} :
    outcome (appendFile system path bytes) fs = (.ok (), fs') ↔
      system = .done ∧ put path ((fs path).getD .empty ++ bytes) fs = fs' := by
  cases system with
  | done => simp [appendFile, outcome_bind]
  | refused e => simp [appendFile, outcome_bind]
  | cut kept e => simp [appendFile, outcome_bind]

theorem outcome_copyFile {fs : Fs} {source : Path} {bytes : ByteArray}
    (h : fs source = some bytes) (system : WriteOutcome) (target : Path) :
    outcome (copyFile system source target) fs = outcome (writeFile system target bytes) fs := by
  simp [copyFile, outcome_bind, h]

theorem outcome_copyFile_missing {fs : Fs} {source : Path} (h : fs source = none)
    (system : WriteOutcome) (target : Path) :
    outcome (copyFile system source target) fs = (.error .notFound, fs) := by
  simp [copyFile, outcome_bind, h]

theorem outcome_attempt_removeFile {ε : Type} (path : Path) (fs : Fs) :
    outcome (attempt (removeFile path) : Exec Fs ε Unit) fs = (.ok (), erase path fs) := by
  rw [outcome_attempt]
  cases found : fs path with
  | none =>
      have same : erase path fs = fs := Function.update_eq_self_iff.mpr found.symm
      simp [removeFile, outcome_bind, found, same]
  | some bytes => simp [removeFile, outcome_bind, found]

theorem outcome_attempt_removeFileAs {ε : Type} (answer : Except IoError Unit) (path : Path)
    (fs : Fs) :
    outcome (attempt (removeFileAs answer path) : Exec Fs ε Unit) fs =
      (.ok (), if answer = .ok () then erase path fs else fs) := by
  cases answer with
  | ok u => exact outcome_attempt_removeFile path fs
  | error e => rfl

theorem removeFile_erases (path : Path) (fs : Fs) :
    (outcome (removeFile path) fs).2 = erase path fs :=
  congrArg Prod.snd (@outcome_attempt_removeFile IoError path fs)

theorem writeFile_other {path other : Path} (h : other ≠ path) (system : WriteOutcome)
    (bytes : ByteArray) (fs : Fs) :
    (outcome (writeFile system path bytes) fs).2 other = fs other := by
  cases system with
  | done => exact put_of_ne h bytes fs
  | refused error => rfl
  | cut kept error => exact put_of_ne h _ fs

section Rewrite

variable {ε : Type} {env : FileEnv} {io : IoError → ε} {path : Path} {edited : Fs → Except ε Str}
  {fs : Fs}

/-- The edit stops without a change, or its text is written as far as the system lets it. -/
theorem outcome_rewrite (env : FileEnv) (io : IoError → ε) (path : Path)
    (edited : Fs → Except ε Str) (fs : Fs) :
    outcome (rewrite env io path edited) fs =
      match edited fs with
      | .error e => (.error e, fs)
      | .ok text =>
        match env.write with
        | .done => (.ok (), put path (encode text) fs)
        | .refused e => (.error (io e), fs)
        | .cut kept e => (.error (io e), put path ((encode text).extract 0 kept) fs) := by
  rw [rewrite, outcome_bind, outcome_reading]
  cases edited fs with
  | error e => rfl
  | ok text =>
      dsimp only
      rw [outcome_mapError]
      cases env.write with
      | done => rfl
      | refused e => rfl
      | cut kept e => rfl

/-- A rewrite stops before the write, or the write fails, or it writes the whole text. -/
theorem rewrite_cases (env : FileEnv) (io : IoError → ε) (path : Path)
    (edited : Fs → Except ε Str) (fs : Fs) :
    (∃ e, outcome (rewrite env io path edited) fs = (.error e, fs)) ∨
    (∃ e fs', outcome (rewrite env io path edited) fs = (.error (io e), fs') ∧
      (env.write.Whole → fs' = fs)) ∨
    ∃ text, edited fs = .ok text ∧
      outcome (rewrite env io path edited) fs = (.ok (), put path (encode text) fs) := by
  rw [outcome_rewrite]
  cases found : edited fs with
  | error e => exact .inl ⟨e, rfl⟩
  | ok text =>
      cases answer : env.write with
      | done => exact .inr (.inr ⟨text, rfl, rfl⟩)
      | refused e => exact .inr (.inl ⟨e, fs, rfl, fun _ => rfl⟩)
      | cut kept e => exact .inr (.inl ⟨e, _, rfl, fun whole => absurd rfl (whole kept e)⟩)

theorem rewrite_ok {fs' : Fs} :
    outcome (rewrite env io path edited) fs = (.ok (), fs') ↔
      env.write = .done ∧ ∃ text, edited fs = .ok text ∧ put path (encode text) fs = fs' := by
  rw [outcome_rewrite]
  cases edited fs with
  | error e => simp
  | ok text => cases env.write with
    | done => simp
    | refused e => simp
    | cut kept e => simp

theorem rewrite_accepted_iff {Holds : Fs → Prop} :
    (∀ fs', outcome (rewrite env io path edited) fs = (.ok (), fs') → Holds fs') ↔
      ∀ text, edited fs = .ok text → env.write = .done → Holds (put path (encode text) fs) := by
  constructor
  · intro accepted text edit whole
    exact accepted _ (rewrite_ok.mpr ⟨whole, text, edit, rfl⟩)
  · intro holds fs' done
    rcases rewrite_ok.mp done with ⟨whole, text, edit, rfl⟩
    exact holds text edit whole

/-- An error leaves the file unless the write broke off with other bytes than the old ones. -/
theorem rewrite_refused_iff :
    (∀ e fs', outcome (rewrite env io path edited) fs = (.error e, fs') → fs' path = fs path) ↔
      ∀ text, edited fs = .ok text → ∀ kept e, env.write = .cut kept e →
        fs path = some ((encode text).extract 0 kept) := by
  rw [outcome_rewrite]
  cases edited fs with
  | error error =>
      constructor
      · intro _ text edit
        cases edit
      · intro _ e fs' stopped
        rw [← (Prod.mk.inj stopped).2]
  | ok text =>
      dsimp only
      cases env.write with
      | done =>
          constructor
          · intro _ _ _ kept e cut
            cases cut
          · intro _ e fs' stopped
            cases (Prod.mk.inj stopped).1
      | refused error =>
          constructor
          · intro _ _ _ kept e cut
            cases cut
          · intro _ e fs' stopped
            rw [← (Prod.mk.inj stopped).2]
      | cut kept error =>
          constructor
          · intro refused text' edit kept' e' cut
            have same := refused _ _ rfl
            rw [put_self] at same
            rw [← Except.ok.inj edit, ← (WriteOutcome.cut.inj cut).1]
            exact same.symm
          · intro same e fs' stopped
            rw [← (Prod.mk.inj stopped).2, put_self]
            exact (same text rfl kept error rfl).symm

end Rewrite

end Operations

end TinyWifi
