import Mathlib.Data.Bool.AllAny
import TinyWifi.Lib.Decimal
import TinyWifi.Lib.Mortal
import TinyWifi.Lib.Runs
import TinyWifi.Safety

/-! The admin password over the life of the device: `auth::init` at every start, and changes of the
password. The process may die between any two operations on files. -/

namespace TinyWifi

open Text Exec Runs

namespace FirstBoot

def authFile : Path := "/etc/tinywifi/auth".toList
def defaultMarker : Path := "/etc/tinywifi/auth.default".toList
def initialPasswordFile : Path := "/etc/tinywifi/auth.initial-password".toList

def charset : Str := "23456789ABCDEFGHJKLMNPQRSTUVWXYZabcdefghjkmnpqrstuvwxyz".toList

structure InitialPassword where
  text : Str
  length_eq : text.length = 10
  plain : ∀ c ∈ text, c ∈ charset

structure Hasher where
  hash : Str → Nat → Except Str Str
  verify : Str → Str → Bool

/-- A password verifies against its hash, and a hash is one word. -/
structure Hasher.Lawful (a : Hasher) : Prop where
  verifies : ∀ {password salt hash}, a.hash password salt = .ok hash →
    a.verify password hash = true
  printed : ∀ {password salt hash}, a.hash password salt = .ok hash →
    hash ≠ [] ∧ ∀ c ∈ hash, isWhitespace c = false

/-- How a write ends. One that fails leaves the file as it was, or none. -/
inductive WriteAnswer
  | done
  | asItWas (error : IoError)
  | absent (error : IoError)
  deriving DecidableEq, Repr

/-- The files, and the generated password whose hash is stored, while it is. -/
structure AuthHost where
  fs : Fs
  generated : Option InitialPassword

structure BootEnv where
  password : InitialPassword
  salt : Nat
  writeHash : WriteAnswer
  writeMarker : WriteAnswer
  writeInitial : WriteAnswer

structure ChangeEnv where
  salt : Nat
  writeHash : WriteAnswer
  removeMarker : Except IoError Unit
  removeInitial : Except IoError Unit

section Program

def writeAs (answer : WriteAnswer) (path : Path) (text : Str) : Exec AuthHost IoError Unit :=
  match answer with
  | .done => modify fun h => { h with fs := put path (encode text) h.fs }
  | .asItWas error => throw error
  | .absent error => do
    modify fun h => { h with fs := erase path h.fs }
    throw error

def removeAs (answer : Except IoError Unit) (path : Path) : Exec AuthHost IoError Unit :=
  match answer with
  | .ok () => modify fun h => { h with fs := erase path h.fs }
  | .error error => throw error

/-- The hash is stored as one line; `origin` is the generated password it belongs to, if any. -/
def writeHash (answer : WriteAnswer) (hash : Str) (origin : Option InitialPassword) :
    Exec AuthHost IoError Unit := do
  modify fun h => { h with
    generated :=
      match answer with
      | .done => origin
      | .asItWas _ => h.generated
      | .absent _ => none }
  writeAs answer authFile (hash ++ ['\n'])

def readHash (fs : Fs) : Option Str := ((contentOf fs authFile).map trim).filter (· ≠ [])

def readInitialPassword (fs : Fs) : Option Str :=
  ((contentOf fs initialPasswordFile).map trim).filter (· ≠ [])

variable (a : Hasher)

/-- What follows when the hash of the generated password is stored; errors are ignored. -/
def publish (env : BootEnv) : Exec (Mortal AuthHost) Died Unit := do
  let _ ← live (writeAs env.writeMarker defaultMarker [])
  let _ ← live (writeAs env.writeInitial initialPasswordFile env.password.text)
  return ()

def init (env : BootEnv) : Exec (Mortal AuthHost) Died Unit := do
  if fileExists (← get).state.fs authFile then pure ()
  else
    match a.hash env.password.text env.salt with
    | .error _ => pure ()
    | .ok hash => do
      match ← live (writeHash env.writeHash hash (some env.password)) with
      | .error _ => pure ()
      | .ok () => publish env

def onPasswordChanged (env : ChangeEnv) : Exec (Mortal AuthHost) Died Unit := do
  let _ ← live (removeAs env.removeMarker defaultMarker)
  let _ ← live (removeAs env.removeInitial initialPasswordFile)
  return ()

def changePassword (env : ChangeEnv) (current new : Str) :
    Exec (Mortal AuthHost) Died (Except ApiError Unit) := do
  let hash := (readHash (← get).state.fs).getD []
  if a.verify current hash = false then return .error ⟨401, "Неверный пароль".toList⟩
  else if byteLen new < 8 then return .error ⟨400, "Пароль — минимум 8 символов".toList⟩
  else
    match a.hash new env.salt with
    | .error e => return .error ⟨500, e⟩
    | .ok newHash => do
      match ← live (writeHash env.writeHash newHash none) with
      | .error e => return .error ⟨500, "Не удалось сохранить: ".toList ++ e.message⟩
      | .ok () => do
        onPasswordChanged env
        return .ok ()

end Program

/-- A boot or a request for a new password, with the number of operations on files that the process
lives to do. -/
inductive AuthEvent
  | boot (env : BootEnv) (survives : Nat)
  | change (env : ChangeEnv) (current new : Str) (survives : Nat)

def step (a : Hasher) (h : AuthHost) : AuthEvent → AuthHost
  | .boot env survives => leaves (init a env) survives h
  | .change env current new survives => leaves (changePassword a env current new) survives h

def Ends {α : Type} (x : Exec (Mortal AuthHost) Died α) (survives : Nat) (h : AuthHost)
    (result : α) : Prop := (outcome x ⟨h, survives⟩).1 = .ok result

/-- While the hash of a generated password is stored, the password file has one that verifies. -/
def Recoverable (a : Hasher) (h : AuthHost) : Prop :=
  h.generated ≠ none → ∃ password hash, readInitialPassword h.fs = some password ∧
    readHash h.fs = some hash ∧ a.verify password hash = true

/-- A boot that stores the hash of a password goes on to store the password. -/
def Publishes (a : Hasher) (h : AuthHost) : AuthEvent → Prop
  | .boot env survives => fileExists h.fs authFile = false →
      (∃ hash, a.hash env.password.text env.salt = .ok hash) → env.writeHash = .done →
      1 ≤ survives → 3 ≤ survives ∧ env.writeInitial = .done
  | .change _ _ _ _ => True

/-- The files that belong to a generated password whose hash is stored. -/
def Stored (a : Hasher) (h : AuthHost) : Prop :=
  ∀ password ∈ h.generated, ∃ hash, a.verify password.text hash = true ∧ hash ≠ [] ∧
    (∀ c ∈ hash, isWhitespace c = false) ∧
    h.fs authFile = some (encode (hash ++ ['\n'])) ∧
    h.fs initialPasswordFile = some (encode password.text)

section Files

variable {a : Hasher} {h : AuthHost}

theorem InitialPassword.trimmed (password : InitialPassword) :
    trim password.text = password.text := by
  apply trim_of_trimmed
  apply trimmed_of_ink
  intro c member
  have ink : ∀ c ∈ charset, isWhitespace c = false := List.all_iff_forall_prop.mp rfl
  exact ink c (password.plain c member)

theorem InitialPassword.nonempty (password : InitialPassword) : password.text ≠ [] := by
  intro empty
  have length := password.length_eq
  rw [empty] at length
  cases length

theorem trim_line {hash : Str} (ink : ∀ c ∈ hash, isWhitespace c = false) :
    trim (hash ++ ['\n']) = hash := by
  have white : ∀ c ∈ ['\n'], isWhitespace c = true := List.forall_mem_singleton.mpr rfl
  have shown := trim_around (List.forall_mem_nil _) white (trimmed_of_ink ink)
  rwa [List.nil_append] at shown

theorem recoverable_of_stored (stored : Stored a h) : Recoverable a h := by
  intro some
  rcases Option.ne_none_iff_exists'.mp some with ⟨password, generated⟩
  rcases stored password generated with ⟨hash, verifies, nonempty, ink, auth, initial⟩
  refine ⟨password.text, hash, ?_, ?_, verifies⟩
  · rw [readInitialPassword, contentOf, initial, Option.bind_some, decode_encode, Option.map_some,
      password.trimmed]
    simp [password.nonempty]
  · rw [readHash, contentOf, auth, Option.bind_some, decode_encode, Option.map_some,
      trim_line ink]
    simp [nonempty]

theorem stored_of_none (none : h.generated = none) : Stored a h := by
  intro password generated
  rw [none] at generated
  cases generated

theorem writeAs_generated (answer : WriteAnswer) (path : Path) (text : Str) :
    (outcome (writeAs answer path text) h).2.generated = h.generated := by
  cases answer <;> rfl

theorem writeAs_other {path other : Path} (apart : other ≠ path) (answer : WriteAnswer)
    (text : Str) : (outcome (writeAs answer path text) h).2.fs other = h.fs other := by
  cases answer with
  | done => exact put_of_ne apart (encode text) h.fs
  | asItWas error => rfl
  | absent error => exact erase_of_ne apart h.fs

theorem writeAs_done (path : Path) (text : Str) :
    (outcome (writeAs .done path text) h).2.fs path = some (encode text) :=
  put_self path (encode text) h.fs

theorem removeAs_generated (answer : Except IoError Unit) (path : Path) :
    (outcome (removeAs answer path) h).2.generated = h.generated := by
  cases answer <;> rfl

theorem outcome_writeHash (answer : WriteAnswer) (hash : Str) (origin : Option InitialPassword) :
    outcome (writeHash answer hash origin) h =
      match answer with
      | .done => (.ok (), ⟨put authFile (encode (hash ++ ['\n'])) h.fs, origin⟩)
      | .asItWas e => (.error e, h)
      | .absent e => (.error e, ⟨erase authFile h.fs, none⟩) := by
  rw [writeHash, outcome_bind, outcome_modify]
  cases answer <;> rfl

end Files

section Step

variable {a : Hasher} {h : AuthHost}

theorem stored_publish {env : BootEnv} (initial : env.writeInitial = .done) {hash : Str}
    (verifies : a.verify env.password.text hash = true)
    (printed : hash ≠ [] ∧ ∀ c ∈ hash, isWhitespace c = false)
    (auth : h.fs authFile = some (encode (hash ++ ['\n'])))
    (generated : h.generated = some env.password) (n : Nat) :
    Stored a (leaves (publish env) (n + 2) h) := by
  have apart : authFile ≠ defaultMarker ∧ authFile ≠ initialPasswordFile := by decide
  rw [publish, leaves_live_succ, leaves_live_succ, leaves_pure, initial]
  intro password member
  have same : password = env.password := by
    have now := member
    rw [writeAs_generated, writeAs_generated, generated] at now
    exact (Option.some_inj.mp now).symm
  rw [same]
  refine ⟨hash, verifies, printed.1, printed.2, ?_, writeAs_done _ _⟩
  rw [writeAs_other apart.2, writeAs_other apart.1, auth]

theorem stored_boot (lawful : a.Lawful) {env : BootEnv} {survives : Nat} (stored : Stored a h)
    (publishes : Publishes a h (.boot env survives)) :
    Stored a (leaves (init a env) survives h) := by
  rw [init, leaves_get_bind]
  cases present : fileExists h.fs authFile with
  | true => simpa [present] using stored
  | false =>
      cases hashed : a.hash env.password.text env.salt with
      | error e => simpa [present, hashed] using stored
      | ok hash =>
          simp only [Bool.false_eq_true, if_false]
          cases survives with
          | zero =>
              rw [leaves_live_zero]
              exact stored
          | succ n =>
              rw [leaves_live_succ, outcome_writeHash]
              cases answer : env.writeHash with
              | asItWas e => exact stored
              | absent e => exact stored_of_none rfl
              | done =>
                  have enough := publishes present ⟨hash, hashed⟩ answer (Nat.le_add_left 1 n)
                  obtain ⟨m, rfl⟩ : ∃ m, n = m + 2 := ⟨n - 2, by omega⟩
                  dsimp only
                  exact stored_publish enough.2 (lawful.verifies hashed) (lawful.printed hashed)
                    (put_self authFile (encode (hash ++ ['\n'])) h.fs) rfl m

theorem generated_onPasswordChanged (env : ChangeEnv) (n : Nat) :
    (leaves (onPasswordChanged env) n h).generated = h.generated := by
  cases n with
  | zero => rw [onPasswordChanged, leaves_live_zero]
  | succ n =>
      rw [onPasswordChanged, leaves_live_succ]
      cases n with
      | zero => rw [leaves_live_zero, removeAs_generated]
      | succ n => rw [leaves_live_succ, leaves_pure, removeAs_generated, removeAs_generated]

theorem stored_change (env : ChangeEnv) (current new : Str) (survives : Nat)
    (stored : Stored a h) : Stored a (leaves (changePassword a env current new) survives h) := by
  rw [changePassword, leaves_get_bind]
  dsimp only
  split
  · exact stored
  · split
    · exact stored
    · cases a.hash new env.salt with
      | error e => exact stored
      | ok newHash =>
          dsimp only
          cases survives with
          | zero =>
              rw [leaves_live_zero]
              exact stored
          | succ n =>
              rw [leaves_live_succ, outcome_writeHash]
              cases env.writeHash with
              | asItWas e => exact stored
              | absent e => exact stored_of_none rfl
              | done =>
                  dsimp only
                  rw [leaves_bind_pure]
                  exact stored_of_none (generated_onPasswordChanged env n)

theorem stored_step (lawful : a.Lawful) (event : AuthEvent) (stored : Stored a h)
    (publishes : Publishes a h event) : Stored a (step a h event) := by
  cases event with
  | boot env survives => exact stored_boot lawful stored publishes
  | change env current new survives => exact stored_change env current new survives stored

theorem absent_of_onPasswordChanged {env : ChangeEnv} {s s' : Mortal AuthHost}
    (removed : env.removeInitial = .ok ())
    (ended : outcome (onPasswordChanged env) s = (.ok (), s')) :
    s'.state.fs initialPasswordFile = none := by
  rcases outcome_bind_ok.mp ended with ⟨_, first, _, ended⟩
  rcases outcome_bind_ok.mp ended with ⟨_, second, last, ended⟩
  rw [outcome_pure] at ended
  rw [← (Prod.mk.inj ended).2, state_of_live last, removed]
  exact erase_self initialPasswordFile first.state.fs

/-- A change that is answered with success has taken the initial password away. -/
theorem initial_absent {env : ChangeEnv} {current new : Str} {survives : Nat}
    (ended : Ends (changePassword a env current new) survives h (.ok ()))
    (removed : env.removeInitial = .ok ()) :
    (leaves (changePassword a env current new) survives h).fs initialPasswordFile = none := by
  obtain ⟨after, ran⟩ : ∃ after, outcome (changePassword a env current new) ⟨h, survives⟩ =
      (.ok (.ok ()), after) := ⟨_, Prod.ext ended rfl⟩
  rw [leaves, ran]
  rw [changePassword, outcome_bind, outcome_get] at ran
  dsimp only at ran
  split at ran
  · cases ran
  · split at ran
    · cases ran
    · cases hashed : a.hash new env.salt with
      | error e =>
          rw [hashed] at ran
          cases ran
      | ok newHash =>
          rw [hashed] at ran
          rcases outcome_bind_ok.mp ran with ⟨written, middle, _, ran⟩
          cases written with
          | error e => cases ran
          | ok u =>
              rcases outcome_bind_ok.mp ran with ⟨_, last, cleared, ran⟩
              rw [outcome_pure] at ran
              rw [← (Prod.mk.inj ran).2]
              exact absent_of_onPasswordChanged removed cleared

end Step

/-- Where every boot that stores the hash of a password also stores the password, the admin can log
in after every boot that comes to its end. And the initial password is gone after every change that
is answered with success and could remove it. -/
theorem not_locked_out {a : Hasher} (lawful : a.Lawful) {h : AuthHost} (fresh : h.generated = none)
    {events : List AuthEvent} :
    (Allowed (step a) (Publishes a) h events → ∀ front env survives,
      front ++ [.boot env survives] <+: events →
      Ends (init a env) survives (run (step a) h front) () →
      Recoverable a (run (step a) h (front ++ [.boot env survives]))) ∧
    ∀ front env current new survives, front ++ [.change env current new survives] <+: events →
      Ends (changePassword a env current new) survives (run (step a) h front) (.ok ()) →
      env.removeMarker = .ok () → env.removeInitial = .ok () →
      (run (step a) h (front ++ [.change env current new survives])).fs initialPasswordFile =
        none := by
  constructor
  · intro publishes front env survives reached _
    apply recoverable_of_stored
    exact invariant_prefix (stored_of_none fresh)
      (fun s event stored allowed => stored_step lawful event stored allowed) publishes reached
  · intro front env current new survives _ ended _ removed
    rw [run_concat]
    exact initial_absent ended removed

section Witness

/-- Every character as its number, behind a `$`. -/
def spell (password : Str) : Str := '$' :: password.flatMap fun c => printNat c.toNat ++ ['.']

def spelling : Hasher := ⟨fun password _ => .ok (spell password), fun p hash => hash = spell p⟩

theorem spelling_lawful : spelling.Lawful where
  verifies hashed := by
    cases hashed
    exact decide_eq_true rfl
  printed hashed := by
    cases hashed
    refine ⟨List.cons_ne_nil _ _, fun c member => ?_⟩
    rcases List.mem_cons.mp member with rfl | inside
    · decide
    · rcases List.mem_flatMap.mp inside with ⟨d, _, spelled⟩
      rcases List.mem_append.mp spelled with digit | dot
      · exact isDigit_not_whitespace (isDigit_of_mem_printNat digit)
      · rw [List.mem_singleton.mp dot]
        decide

def firstPassword : InitialPassword := ⟨"23456789AB".toList, rfl, List.all_iff_forall_prop.mp rfl⟩

def willing : BootEnv := ⟨firstPassword, 0, .done, .done, .done⟩

def factoryNew : AuthHost := ⟨fun _ => none, none⟩

theorem not_locked_out_factoryNew :
    Recoverable spelling (run (step spelling) factoryNew ([] ++ [.boot willing 3])) := by
  have publishes : Allowed (step spelling) (Publishes spelling) factoryNew
      ([] ++ [.boot willing 3]) := ⟨fun _ _ _ _ => ⟨Nat.le_refl 3, rfl⟩, trivial⟩
  exact (not_locked_out spelling_lawful rfl).1 publishes [] willing 3 (List.prefix_refl _) rfl

/-- Power is cut right after the hash was stored; the next boot finds it and does nothing. -/
theorem locked_out_after_power_cut :
    Ends (init spelling willing) 3 (run (step spelling) factoryNew [.boot willing 1]) () ∧
    ¬ Recoverable spelling
      (run (step spelling) factoryNew [.boot willing 1, .boot willing 3]) := by
  refine ⟨rfl, ?_⟩
  intro recoverable
  have stored : (run (step spelling) factoryNew [.boot willing 1, .boot willing 3]).generated =
      some firstPassword := rfl
  have missing : (run (step spelling) factoryNew [.boot willing 1, .boot willing 3]).fs
      initialPasswordFile = none := rfl
  rcases recoverable (by rw [stored]; exact Option.some_ne_none _) with ⟨password, _, read, _⟩
  rw [readInitialPassword, contentOf, missing] at read
  cases read

end Witness

end FirstBoot

end TinyWifi
