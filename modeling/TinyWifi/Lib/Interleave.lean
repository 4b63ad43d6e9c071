import Mathlib.Logic.Function.Iterate
import TinyWifi.Lib.Runs

/-! Two programs at one shared cell: each reads it, once or more, and ends with a write. They take
turns at single reads and writes, in any order. -/

namespace Interleave

open Runs

/-- A program at the cell: it fails, writes and ends, or reads and goes on. -/
inductive Editor (γ : Type)
  | fail
  | write (new : γ)
  | read (next : γ → Editor γ)

namespace Editor

variable {γ : Type}

def alone : Editor γ → γ → Option γ
  | .fail, _ => none
  | .write new, _ => some new
  | .read next, cell => (next cell).alone cell

def after (e : Editor γ) (cell : γ) : γ := (e.alone cell).getD cell

def writes : Editor γ → Option γ
  | .write new => some new
  | _ => none

def advance (cell : γ) : Editor γ → Editor γ
  | .read next => next cell
  | e => e

/-- The program after so many reads of the same content. -/
def reread (cell : γ) (count : Nat) (e : Editor γ) : Editor γ := (advance cell)^[count] e

/-- No sequence of reads leads to a write. -/
def Hopeless : Editor γ → Prop
  | .fail => True
  | .write _ => False
  | .read next => ∀ cell, (next cell).Hopeless

@[simp] theorem alone_advance (cell : γ) (e : Editor γ) :
    (e.advance cell).alone cell = e.alone cell := by
  cases e <;> rfl

@[simp] theorem alone_reread (cell : γ) (count : Nat) (e : Editor γ) :
    (e.reread cell count).alone cell = e.alone cell := by
  induction count generalizing e with
  | zero => rfl
  | succ n ih =>
      calc (e.reread cell (n + 1)).alone cell
        _ = ((e.advance cell).reread cell n).alone cell := rfl
        _ = (e.advance cell).alone cell := ih (e.advance cell)
        _ = e.alone cell := alone_advance cell e

theorem eq_write_of_writes {e : Editor γ} (writing : e.writes.isSome = true) :
    ∃ new, e = .write new := by
  cases e with
  | fail => cases writing
  | write new => exact ⟨new, rfl⟩
  | read next => cases writing

end Editor

inductive Side
  | left
  | right
  deriving DecidableEq, Repr

def Side.other : Side → Side
  | .left => .right
  | .right => .left

@[simp] theorem Side.other_other (side : Side) : side.other.other = side := by
  cases side <;> rfl

theorem Side.ne_iff {side s : Side} : s ≠ side ↔ s = side.other := by
  cases side <;> cases s <;> simp [Side.other]

/-- The cell, and what each program still has to do; it is gone once it has written. -/
structure Race (γ : Type) where
  cell : γ
  threads : Side → Option (Editor γ)

namespace Race

variable {γ : Type}

def start (cell : γ) (editors : Side → Editor γ) : Race γ := ⟨cell, fun side => some (editors side)⟩

def step (race : Race γ) (side : Side) : Option (Race γ) :=
  match race.threads side with
  | some (.write new) => some ⟨new, Function.update race.threads side none⟩
  | some (.read next) =>
    some ⟨race.cell, Function.update race.threads side (some (next race.cell))⟩
  | some .fail | none => none

def Ended (race : Race γ) : Prop := ∀ side, race.threads side = none

/-- The first write is made by this side, when the other one has read so many times. -/
def WritesFirst (cell : γ) (editors : Side → Editor γ) (schedule : List Side) (first : Side)
    (reads : Nat) : Prop :=
  ∃ front back race, schedule = front ++ first :: back ∧ front.count first.other = reads ∧
    runSome step (start cell editors) front = some race ∧
    ((race.threads first).bind Editor.writes).isSome = true ∧
    (race.threads first.other).isSome = true

/-- The program that writes second has read nothing when the first one writes. -/
def Apart (cell : γ) (editors : Side → Editor γ) (schedule : List Side) : Prop :=
  ∃ first, WritesFirst cell editors schedule first 0

/-- What the cell holds in the end if the second program had read so many times before the first
one wrote. -/
def late (cell : γ) (first second : Editor γ) (reads : Nat) : γ :=
  (second.reread cell reads).after (first.after cell)

section Phases

variable {cell : γ} {editors : Side → Editor γ} {race last : Race γ} {side : Side}

theorem step_cases (taken : race.step side = some last) :
    (∃ next, race.threads side = some (.read next) ∧ last.cell = race.cell ∧
      last.threads = Function.update race.threads side (some (next race.cell))) ∨
    ∃ new, race.threads side = some (.write new) ∧ last.cell = new ∧
      last.threads = Function.update race.threads side none := by
  unfold step at taken
  split at taken
  · next new writing =>
      cases taken
      exact .inr ⟨new, writing, rfl, rfl⟩
  · next next reading =>
      cases taken
      exact .inl ⟨next, reading, rfl, rfl⟩
  · cases taken
  · cases taken

theorem runSome_cons {op : Side} {rest : List Side} :
    runSome step race (op :: rest) = some last ↔
      ∃ middle, race.step op = some middle ∧ runSome step middle rest = some last :=
  Option.bind_eq_some_iff

theorem gone_of_gone {schedule : List Side} (gone : race.threads side = none)
    (reached : runSome step race schedule = some last) : last.threads side = none := by
  induction schedule generalizing race with
  | nil =>
      cases reached
      exact gone
  | cons op ops ih =>
      rcases runSome_cons.mp reached with ⟨middle, taken, later⟩
      apply ih _ later
      have differs : side ≠ op := by
        rintro rfl
        rw [step, gone] at taken
        cases taken
      rcases step_cases taken with ⟨_, _, _, threads⟩ | ⟨_, _, _, threads⟩
      · rw [threads, Function.update_of_ne differs, gone]
      · rw [threads, Function.update_of_ne differs, gone]

theorem Ended.stays {schedule : List Side} (ended : race.Ended)
    (reached : runSome step race schedule = some last) : last = race := by
  cases schedule with
  | nil =>
      cases reached
      rfl
  | cons op ops =>
      rcases runSome_cons.mp reached with ⟨_, taken, -⟩
      rw [step, ended op] at taken
      cases taken

/-- Once the other program has written, the one that is left does what it does alone. -/
theorem alone_of_gone {rest : Editor γ} {schedule : List Side}
    (gone : race.threads side.other = none) (left : race.threads side = some rest)
    (reached : runSome step race schedule = some last) (ended : last.Ended) :
    rest.alone race.cell = some last.cell := by
  have apart : side.other ≠ side := Side.ne_iff.mpr rfl
  induction schedule generalizing race rest with
  | nil =>
      cases reached
      rw [ended side] at left
      cases left
  | cons op ops ih =>
      rcases runSome_cons.mp reached with ⟨middle, taken, later⟩
      have turn : op = side := by
        by_contra differs
        rw [Side.ne_iff.mp differs, step, gone] at taken
        cases taken
      subst op
      have still : middle.threads side.other = none := by
        rcases step_cases taken with ⟨_, _, _, threads⟩ | ⟨_, _, _, threads⟩
        · rw [threads, Function.update_of_ne apart, gone]
        · rw [threads, Function.update_of_ne apart, gone]
      rcases step_cases taken with ⟨next, reading, same, threads⟩ | ⟨new, writing, same, threads⟩
      · rw [reading, Option.some_inj] at left
        subst left
        have goes : middle.threads side = some (next race.cell) := by
          rw [threads, Function.update_self]
        have rest := ih still goes later
        rw [same] at rest
        exact rest
      · rw [writing, Option.some_inj] at left
        subst left
        have finished : middle.Ended := by
          intro s
          by_cases self : s = side
          · rw [self, threads, Function.update_self]
          · rw [Side.ne_iff.mp self, still]
        rw [finished.stays later, same]
        rfl

/-- As long as nobody has written, everybody has read what was there at the start. -/
theorem threads_before {front : List Side}
    (reached : runSome step (start cell editors) front = some race)
    (unwritten : ∀ side, (race.threads side).isSome = true) :
    race.cell = cell ∧
      ∀ side, race.threads side = some ((editors side).reread cell (front.count side)) := by
  induction front generalizing editors with
  | nil =>
      cases reached
      exact ⟨rfl, fun side => rfl⟩
  | cons op ops ih =>
      rcases runSome_cons.mp reached with ⟨middle, taken, later⟩
      rcases step_cases taken with ⟨next, reading, same, threads⟩ | ⟨new, writing, same, threads⟩
      · have started : editors op = .read next := Option.some_inj.mp reading
        have rests : middle.threads = fun side =>
            some (Function.update editors op (next cell) side) := by
          funext side
          rw [threads]
          by_cases self : side = op
          · rw [self, Function.update_self, Function.update_self]
            rfl
          · rw [Function.update_of_ne self, Function.update_of_ne self]
            rfl
        have again : middle = start cell (Function.update editors op (next cell)) := by
          calc middle
            _ = ⟨middle.cell, middle.threads⟩ := rfl
            _ = start cell (Function.update editors op (next cell)) := by rw [same, rests]; rfl
        rw [again] at later
        rcases ih later with ⟨content, reads⟩
        refine ⟨content, fun side => ?_⟩
        rw [reads side]
        by_cases self : side = op
        · rw [self, Function.update_self, List.count_cons_self, started]
          rfl
        · rw [Function.update_of_ne self, List.count_cons_of_ne (Ne.symm self)]
      · have gone : race.threads op = none :=
          gone_of_gone (by rw [threads, Function.update_self]) later
        have present := unwritten op
        rw [gone] at present
        cases present

/-- Whoever has written had a way to do it. -/
theorem not_hopeless_of_ended {schedule : List Side}
    (reached : runSome step (start cell editors) schedule = some last) (ended : last.Ended)
    (side : Side) : ¬ (editors side).Hopeless := by
  intro hopeless
  have stuck : ∃ e, last.threads side = some e ∧ e.Hopeless := by
    refine @invariant_runSome _ _ step (fun race => ∃ e, race.threads side = some e ∧ e.Hopeless)
      ?_ (start cell editors) last ⟨_, rfl, hopeless⟩ schedule reached
    rintro race op race' ⟨e, thread, blocked⟩ taken
    rcases step_cases taken with ⟨next, reading, -, threads⟩ | ⟨new, writing, -, threads⟩
    · by_cases self : side = op
      · subst op
        rw [thread, Option.some_inj] at reading
        subst reading
        exact ⟨_, by rw [threads, Function.update_self], blocked race.cell⟩
      · exact ⟨e, by rw [threads, Function.update_of_ne self, thread], blocked⟩
    · by_cases self : side = op
      · subst op
        rw [thread, Option.some_inj] at writing
        subst writing
        exact absurd blocked id
      · exact ⟨e, by rw [threads, Function.update_of_ne self, thread], blocked⟩
  rcases stuck with ⟨e, thread, -⟩
  rw [ended side] at thread
  cases thread

/-- The cell ends with what the second program makes of what it has read. -/
theorem cell_of_writesFirst {schedule : List Side} {first : Side} {reads : Nat}
    (reached : runSome step (start cell editors) schedule = some last) (ended : last.Ended)
    (writesFirst : WritesFirst cell editors schedule first reads) :
    last.cell = late cell (editors first) (editors first.other) reads := by
  rcases writesFirst with ⟨front, back, race, rfl, rfl, before, writes, other⟩
  have present : ∀ side, (race.threads side).isSome = true := by
    intro side
    by_cases self : side = first
    · rw [self]
      cases thread : race.threads first with
      | none =>
          rw [thread] at writes
          cases writes
      | some e => rfl
    · rw [Side.ne_iff.mp self]
      exact other
  rcases threads_before before present with ⟨content, rests⟩
  rw [rests first, Option.bind_some] at writes
  rcases Editor.eq_write_of_writes writes with ⟨new, writing⟩
  have wrote : (editors first).after cell = new := by
    rw [Editor.after, ← Editor.alone_reread cell (front.count first), writing]
    rfl
  rw [runSome_append before] at reached
  rcases runSome_cons.mp reached with ⟨middle, taken, later⟩
  rcases step_cases taken with ⟨next, reading, same, threads⟩ | ⟨n, again, same, threads⟩
  · rw [rests first, writing] at reading
    cases reading
  · rw [rests first, writing, Option.some_inj] at again
    cases again
    have apart : first.other ≠ first := Side.ne_iff.mpr rfl
    have gone : middle.threads first.other.other = none := by
      rw [Side.other_other, threads, Function.update_self]
    have left : middle.threads first.other =
        some ((editors first.other).reread cell (front.count first.other)) := by
      rw [threads, Function.update_of_ne apart, rests]
    have finish := alone_of_gone gone left later ended
    rw [late, wrote, Editor.after, ← same, finish, Option.getD_some]

end Phases

end Race

end Interleave
