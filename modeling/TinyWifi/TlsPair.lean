import TinyWifi.Files
import TinyWifi.Lib.Mortal
import TinyWifi.Lib.Runs

/-! `tls.rs`: the certificate and its key over the life of the device. `init` runs at every start;
the process may die between any two operations on files, and a write may break off. -/

namespace TinyWifi

open Text Exec Runs

namespace TlsPair

def certFile : Path := "/etc/tinywifi/tls/cert.pem".toList
def keyFile : Path := "/etc/tinywifi/tls/key.pem".toList

def selfSignedMarker : Path := "/etc/tinywifi/tls/self-signed".toList

structure CertifiedKey where
  cert : Str
  signingKey : Str
  deriving DecidableEq, Repr

structure InitEnv where
  generated : Except Str CertifiedKey
  createDir : Except IoError Unit
  writeCert : WriteOutcome
  writeKey : WriteOutcome
  writeMarker : WriteOutcome

/-- `fs::create_dir_all`; only files are modelled. -/
def createDirAll (answer : Except IoError Unit) : Exec Fs IoError Unit := reading fun _ => answer

def initAt (env : InitEnv) : Exec (Mortal Fs) (Stopped IoError) Unit := do
  let fs := (← get).state
  if fileExists fs certFile && fileExists fs keyFile then pure ()
  else do
    let generated ← reading fun _ => env.generated.mapError fun e => .failed ⟨e⟩
    trying (createDirAll env.createDir)
    trying (writeFile env.writeCert certFile (encode generated.cert))
    trying (writeFile env.writeKey keyFile (encode generated.signingKey))
    trying (writeFile env.writeMarker selfSignedMarker (encode []))

/-- A start, with the number of operations on files that the process lives to do. -/
structure Boot where
  env : InitEnv
  survives : Nat

def step (fs : Fs) (boot : Boot) : Fs := (outcome (initAt boot.env) ⟨fs, boot.survives⟩).2.state

/-- The files hold the pair that this start generated; of the key there is only the beginning if
its write broke off. -/
structure Wrote (boot : Boot) (pair : CertifiedKey) (fs : Fs) : Prop where
  generated : boot.env.generated = .ok pair
  cert : fs certFile = some (encode pair.cert)
  key : fs keyFile = some (encode pair.signingKey) ∨
    ∃ kept error, boot.env.writeKey = .cut kept error ∧
      fs keyFile = some ((encode pair.signingKey).extract 0 kept)

/-- A key is there only with the certificate that it was generated with. -/
def Matched (boots : List Boot) (fs : Fs) : Prop :=
  fs keyFile = none ∨ ∃ boot ∈ boots, ∃ pair, Wrote boot pair fs

section Steps

variable {fs : Fs} {boot : Boot} {pair : CertifiedKey}

theorem Wrote.exists (wrote : Wrote boot pair fs) :
    (fileExists fs certFile && fileExists fs keyFile) = true := by
  have key : fileExists fs keyFile = true := by
    rcases wrote.key with whole | ⟨kept, error, -, cut⟩
    · rw [fileExists, whole, Option.isSome_some]
    · rw [fileExists, cut, Option.isSome_some]
  rw [key, fileExists, wrote.cert]
  rfl

theorem initAt_of_exists (there : (fileExists fs certFile && fileExists fs keyFile) = true)
    (env : InitEnv) (survives : Nat) :
    outcome (initAt env) ⟨fs, survives⟩ = (.ok (), ⟨fs, survives⟩) := by
  rw [initAt, outcome_bind, outcome_get]
  dsimp only
  rw [if_pos there, outcome_pure]

theorem Wrote.congr {fs' : Fs} (wrote : Wrote boot pair fs) (cert : fs' certFile = fs certFile)
    (key : fs' keyFile = fs keyFile) : Wrote boot pair fs' :=
  ⟨wrote.generated, cert.trans wrote.cert, key ▸ wrote.key⟩

/-- The certificate is whole before the key is begun. -/
theorem matched_install {boots : List Boot} (member : boot ∈ boots) (free : fs keyFile = none)
    (generated : boot.env.generated = .ok pair) (survives : Nat) :
    Matched boots (outcome (do
      trying (createDirAll boot.env.createDir)
      trying (writeFile boot.env.writeCert certFile (encode pair.cert))
      trying (writeFile boot.env.writeKey keyFile (encode pair.signingKey))
      trying (writeFile boot.env.writeMarker selfSignedMarker (encode [])))
        ⟨fs, survives⟩).2.state := by
  have apart : keyFile ≠ certFile ∧ certFile ≠ selfSignedMarker ∧ keyFile ≠ selfSignedMarker := by
    decide
  apply left_trying (P := Matched boots)
  · exact .inl free
  · intro e after ends
    rw [createDirAll, outcome_reading] at ends
    exact .inl ((Prod.mk.inj ends).2 ▸ free)
  intro _ begun n ends
  rw [createDirAll, outcome_reading] at ends
  obtain rfl : fs = begun := (Prod.mk.inj ends).2
  apply left_trying (P := Matched boots)
  · exact .inl free
  · intro e after ends
    have same := writeFile_other apart.1 boot.env.writeCert (encode pair.cert) fs
    rw [ends] at same
    exact .inl (same.trans free)
  intro _ certified n ends
  obtain ⟨-, rfl⟩ := outcome_writeFile_ok.mp ends
  have still : put certFile (encode pair.cert) fs keyFile = none :=
    (put_of_ne apart.1 ..).trans free
  apply left_trying (P := Matched boots)
  · exact .inl still
  · intro e after ends
    cases answer : boot.env.writeKey with
    | done =>
        rw [answer] at ends
        cases ends
    | refused error =>
        rw [answer] at ends
        cases ends
        exact .inl still
    | cut kept error =>
        rw [answer] at ends
        obtain rfl : put keyFile ((encode pair.signingKey).extract 0 kept)
          (put certFile (encode pair.cert) fs) = after := (Prod.mk.inj ends).2
        refine .inr ⟨boot, member, pair, generated, ?_, .inr ⟨kept, error, answer, put_self ..⟩⟩
        exact (put_of_ne apart.1.symm ..).trans (put_self ..)
  intro _ installed n ends
  obtain ⟨-, rfl⟩ := outcome_writeFile_ok.mp ends
  have wrote : Wrote boot pair (put keyFile (encode pair.signingKey)
      (put certFile (encode pair.cert) fs)) :=
    ⟨generated, (put_of_ne apart.1.symm ..).trans (put_self ..), .inl (put_self ..)⟩
  apply left_trying_last (P := Matched boots)
  · exact .inr ⟨boot, member, pair, wrote⟩
  · exact .inr ⟨boot, member, pair, wrote.congr (writeFile_other apart.2.1 ..)
      (writeFile_other apart.2.2 ..)⟩

theorem matched_step {boots : List Boot} (matched : Matched boots fs) (boot : Boot) :
    Matched (boots ++ [boot]) (step fs boot) := by
  rcases matched with free | ⟨old, member, pair, wrote⟩
  · rw [step, initAt, outcome_bind, outcome_get]
    dsimp only
    have absent : (fileExists fs certFile && fileExists fs keyFile) = false := by
      simp [fileExists, free]
    rw [absent]
    simp only [Bool.false_eq_true, if_false]
    rw [outcome_bind, outcome_reading]
    cases generated : boot.env.generated with
    | error e => exact .inl free
    | ok pair => exact matched_install List.mem_concat_self free generated boot.survives
  · have same : step fs boot = fs := by rw [step, initAt_of_exists wrote.exists]
    rw [same]
    exact .inr ⟨old, List.mem_append_left _ member, pair, wrote⟩

theorem matched_run {boots : List Boot} (free : fs keyFile = none) :
    Matched boots (run step fs boots) := by
  induction boots using List.reverseRecOn with
  | nil => exact .inl free
  | append_singleton front boot ih =>
      rw [run_concat]
      exact matched_step ih boot

theorem exists_of_ok {survives : Nat} {env : InitEnv} {after : Mortal Fs}
    (ok : outcome (initAt env) ⟨fs, survives⟩ = (.ok (), after)) :
    fileExists after.state keyFile = true := by
  by_cases there : (fileExists fs certFile && fileExists fs keyFile) = true
  · rw [initAt_of_exists there] at ok
    cases ok
    exact (Bool.and_eq_true_iff.mp there).2
  · rw [initAt, outcome_bind, outcome_get] at ok
    dsimp only at ok
    rw [if_neg there] at ok
    obtain ⟨pair, _, -, ok⟩ := outcome_bind_ok.mp ok
    obtain ⟨_, _, -, ok⟩ := outcome_bind_ok.mp ok
    obtain ⟨_, _, -, ok⟩ := outcome_bind_ok.mp ok
    obtain ⟨_, keyed, key, marker⟩ := outcome_bind_ok.mp ok
    obtain ⟨-, written⟩ := outcome_writeFile_ok.mp (outcome_trying_ok key)
    obtain ⟨-, marked⟩ := outcome_writeFile_ok.mp (outcome_trying_ok marker)
    have apart : keyFile ≠ selfSignedMarker := by decide
    rw [fileExists, ← marked, put_of_ne apart, ← written, put_self, Option.isSome_some]

end Steps

/-- On a device that starts without a key, a start that ends well has one. A key that is there
belongs to the certificate that is there: one start generated both, and all later starts leave them
as they are. -/
theorem pair_kept {fs : Fs} (fresh : fs keyFile = none) (boots : List Boot) :
    (∀ env survives after, outcome (initAt env) ⟨run step fs boots, survives⟩ = (.ok (), after) →
      fileExists after.state keyFile = true) ∧
    (fileExists (run step fs boots) keyFile = true →
      ∃ boot ∈ boots, ∃ pair, Wrote boot pair (run step fs boots) ∧
        ∀ later, run step fs (boots ++ later) = run step fs boots ∧
          ∀ env survives, outcome (initAt env) ⟨run step fs (boots ++ later), survives⟩ =
            (.ok (), ⟨run step fs (boots ++ later), survives⟩)) := by
  refine ⟨fun env survives after => exists_of_ok, fun there => ?_⟩
  rcases matched_run fresh with absent | ⟨boot, member, pair, wrote⟩
  · rw [fileExists, absent] at there
    cases there
  · refine ⟨boot, member, pair, wrote, fun later => ?_⟩
    have same : run step fs (boots ++ later) = run step fs boots := by
      rw [run_append]
      induction later with
      | nil => rfl
      | cons next rest ih =>
          have quiet : step (run step fs boots) next = run step fs boots := by
            rw [step, initAt_of_exists wrote.exists]
          rw [run, List.foldl_cons, quiet]
          exact ih
    rw [same]
    exact ⟨rfl, initAt_of_exists wrote.exists⟩

/-- The first start dies after the certificate, the second one gets through. -/
def secondTry : List Boot :=
  [⟨⟨.ok ⟨"C1".toList, "K1".toList⟩, .ok (), .done, .done, .done⟩, 2⟩,
    ⟨⟨.ok ⟨"C2".toList, "K2".toList⟩, .ok (), .done, .done, .done⟩, 9⟩]

theorem pair_kept_secondTry : ∃ boot ∈ secondTry, ∃ pair,
    Wrote boot pair (run step (fun _ => none) secondTry) := by
  have fresh : (fun _ => none : Fs) keyFile = none := rfl
  have there : fileExists (run step (fun _ => none) secondTry) keyFile = true := rfl
  obtain ⟨boot, member, pair, wrote, -⟩ := (pair_kept fresh secondTry).2 there
  exact ⟨boot, member, pair, wrote⟩

end TlsPair

end TinyWifi
