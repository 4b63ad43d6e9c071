import Mathlib.Tactic.Common

/-! Runs of a system that takes one operation after another, and what holds along them. -/

namespace Runs

variable {σ ι : Type*} (step : σ → ι → σ) (ok : σ → ι → Prop)

def run (s : σ) (ops : List ι) : σ := ops.foldl step s

/-- Every operation of the run is allowed in the state that it meets. -/
def Allowed (s : σ) : List ι → Prop
  | [] => True
  | op :: rest => ok s op ∧ Allowed (step s op) rest

variable {step ok}

theorem run_append (s : σ) (front back : List ι) :
    run step s (front ++ back) = run step (run step s front) back :=
  List.foldl_append

theorem run_concat (s : σ) (front : List ι) (op : ι) :
    run step s (front ++ [op]) = step (run step s front) op := run_append s front [op]

theorem allowed_append (s : σ) (front back : List ι) :
    Allowed step ok s (front ++ back) ↔
      Allowed step ok s front ∧ Allowed step ok (run step s front) back := by
  induction front generalizing s with
  | nil => simp [Allowed, run]
  | cons op rest ih =>
      rw [List.cons_append, Allowed, Allowed, ih (step s op), and_assoc]
      rfl

/-- What holds of every operation of the list can be asked for as well. -/
theorem Allowed.and_forall {P : ι → Prop} {s : σ} {ops : List ι} (allowed : Allowed step ok s ops)
    (all : ∀ op ∈ ops, P op) : Allowed step (fun s op => P op ∧ ok s op) s ops := by
  induction ops generalizing s with
  | nil => trivial
  | cons op rest ih =>
      exact ⟨⟨all op List.mem_cons_self, allowed.1⟩,
        ih allowed.2 fun other member => all other (List.mem_cons_of_mem op member)⟩

theorem Allowed.and {ok' : σ → ι → Prop} {s : σ} {ops : List ι} (first : Allowed step ok s ops)
    (second : Allowed step ok' s ops) : Allowed step (fun s op => ok s op ∧ ok' s op) s ops := by
  induction ops generalizing s with
  | nil => trivial
  | cons op rest ih => exact ⟨⟨first.1, second.1⟩, ih first.2 second.2⟩

theorem invariant_run {Inv : σ → Prop} {s : σ} (start : Inv s)
    (kept : ∀ s op, Inv s → ok s op → Inv (step s op)) (ops : List ι)
    (allowed : Allowed step ok s ops) : Inv (run step s ops) := by
  induction ops generalizing s with
  | nil => exact start
  | cons op rest ih => exact ih (kept s op start allowed.1) allowed.2

/-- What every step keeps holds in every state of a run. -/
theorem invariant_prefix {Inv : σ → Prop} {s : σ} (start : Inv s)
    (kept : ∀ s op, Inv s → ok s op → Inv (step s op)) {ops front : List ι}
    (allowed : Allowed step ok s ops) (reached : front <+: ops) : Inv (run step s front) := by
  obtain ⟨back, rfl⟩ := reached
  exact invariant_run start kept front ((allowed_append s front back).mp allowed).1

section Enabled

/-- A run of a system whose operations may not be enabled. -/
def runSome (next : σ → ι → Option σ) (s : σ) (ops : List ι) : Option σ := ops.foldlM next s

theorem runSome_append {next : σ → ι → Option σ} {s middle : σ} {front : List ι}
    (first : runSome next s front = some middle) (back : List ι) :
    runSome next s (front ++ back) = runSome next middle back := by
  rw [runSome] at first
  rw [runSome, List.foldlM_append, first]
  rfl

theorem runSome_concat {next : σ → ι → Option σ} {s s' : σ} {front : List ι} {op : ι}
    (reached : runSome next s (front ++ [op]) = some s') :
    ∃ middle, runSome next s front = some middle ∧ next middle op = some s' := by
  rw [runSome, List.foldlM_append] at reached
  obtain ⟨middle, first, last⟩ := Option.bind_eq_some_iff.mp reached
  obtain ⟨after, taken, ended⟩ := Option.bind_eq_some_iff.mp last
  cases ended
  exact ⟨middle, first, taken⟩

theorem invariant_runSome {next : σ → ι → Option σ} {Inv : σ → Prop}
    (kept : ∀ s op s', Inv s → next s op = some s' → Inv s') {s s' : σ} (start : Inv s)
    (ops : List ι) (reached : runSome next s ops = some s') : Inv s' := by
  induction ops generalizing s with
  | nil =>
      cases reached
      exact start
  | cons op rest ih =>
      obtain ⟨middle, first, later⟩ := Option.bind_eq_some_iff.mp reached
      exact ih (kept s op middle start first) later

/-- Every operation of the run that is taken is allowed in the state that it meets. -/
def AllowedSome (next : σ → ι → Option σ) (ok : σ → ι → Prop) (s : σ) : List ι → Prop
  | [] => True
  | op :: rest => ok s op ∧ ∀ s', next s op = some s' → AllowedSome next ok s' rest

theorem AllowedSome.cons {next : σ → ι → Option σ} {ok : σ → ι → Prop} {s s' : σ} {op : ι}
    {rest : List ι} (allowed : ok s op) (taken : next s op = some s')
    (later : AllowedSome next ok s' rest) : AllowedSome next ok s (op :: rest) := by
  refine ⟨allowed, fun other also => ?_⟩
  cases taken.symm.trans also
  exact later

theorem invariant_allowedSome {next : σ → ι → Option σ} {ok : σ → ι → Prop} {Inv : σ → Prop}
    (kept : ∀ s op s', Inv s → ok s op → next s op = some s' → Inv s') {s s' : σ} (start : Inv s)
    (ops : List ι) (allowed : AllowedSome next ok s ops) (reached : runSome next s ops = some s') :
    Inv s' := by
  induction ops generalizing s with
  | nil =>
      cases reached
      exact start
  | cons op rest ih =>
      obtain ⟨middle, first, later⟩ := Option.bind_eq_some_iff.mp reached
      exact ih (kept s op middle start allowed.1 first) (allowed.2 middle first) later

/-- A run with an operation that is not allowed gets to a state in which the next one is not. -/
theorem exists_of_not_allowedSome {next : σ → ι → Option σ} {ok : σ → ι → Prop} {s s' : σ}
    {ops : List ι} (reached : runSome next s ops = some s') (broken : ¬ AllowedSome next ok s ops) :
    ∃ front op back middle after, ops = front ++ op :: back ∧ runSome next s front = some middle ∧
      ¬ ok middle op ∧ next middle op = some after ∧ runSome next after back = some s' := by
  induction ops generalizing s with
  | nil => exact absurd trivial broken
  | cons op rest ih =>
      obtain ⟨middle, first, later⟩ := Option.bind_eq_some_iff.mp reached
      by_cases fine : ok s op
      · have inside : ¬ AllowedSome next ok middle rest := by
          intro allowed
          apply broken
          refine ⟨fine, fun other also => ?_⟩
          cases first.symm.trans also
          exact allowed
        obtain ⟨front, bad, back, met, after, split, before, refused, taken, ended⟩ :=
          ih later inside
        refine ⟨op :: front, bad, back, met, after, by rw [split, List.cons_append], ?_, refused,
          taken, ended⟩
        exact Option.bind_eq_some_iff.mpr ⟨middle, first, before⟩
      · exact ⟨[], op, rest, s, middle, rfl, rfl, fine, first, later⟩

/-- A run with an operation that is not allowed has a last one. -/
theorem exists_last_of_not_allowedSome {next : σ → ι → Option σ} {ok : σ → ι → Prop} {s s' : σ}
    {ops : List ι} (reached : runSome next s ops = some s') (broken : ¬ AllowedSome next ok s ops) :
    ∃ front op back middle after, ops = front ++ op :: back ∧ runSome next s front = some middle ∧
      ¬ ok middle op ∧ next middle op = some after ∧ AllowedSome next ok after back ∧
      runSome next after back = some s' := by
  induction ops generalizing s with
  | nil => exact absurd trivial broken
  | cons op rest ih =>
      obtain ⟨middle, first, later⟩ := Option.bind_eq_some_iff.mp reached
      by_cases fine : AllowedSome next ok middle rest
      · have refused : ¬ ok s op := fun allowed => broken (.cons allowed first fine)
        exact ⟨[], op, rest, s, middle, rfl, rfl, refused, first, fine, later⟩
      · obtain ⟨front, bad, back, met, after, split, before, refused, taken, rest_fine, ended⟩ :=
          ih later fine
        refine ⟨op :: front, bad, back, met, after, by rw [split, List.cons_append], ?_, refused,
          taken, rest_fine, ended⟩
        exact Option.bind_eq_some_iff.mpr ⟨middle, first, before⟩

def traceSome {β : Type*} (next : σ → ι → Option σ) (out : σ → ι → Option β) (s : σ) :
    List ι → List β
  | [] => []
  | op :: rest => (out s op).toList ++ (next s op).elim [] fun s' => traceSome next out s' rest

theorem traceSome_append {β : Type*} {next : σ → ι → Option σ} {out : σ → ι → Option β}
    {s middle : σ} {front : List ι} (first : runSome next s front = some middle) (back : List ι) :
    traceSome next out s (front ++ back) =
      traceSome next out s front ++ traceSome next out middle back := by
  induction front generalizing s with
  | nil =>
      cases first
      rfl
  | cons op rest ih =>
      obtain ⟨s', taken, later⟩ := Option.bind_eq_some_iff.mp first
      rw [List.cons_append, traceSome, traceSome, taken, Option.elim_some, Option.elim_some,
        ih later, List.append_assoc]

theorem traceSome_concat {β : Type*} {next : σ → ι → Option σ} {out : σ → ι → Option β}
    {s middle s' : σ} {front : List ι} {op : ι} (first : runSome next s front = some middle)
    (taken : next middle op = some s') :
    traceSome next out s (front ++ [op]) =
      traceSome next out s front ++ (out middle op).toList := by
  rw [traceSome_append first, traceSome, taken, Option.elim_some, traceSome, List.append_nil]

end Enabled

section Simulation

variable {τ ο : Type*}

/-- A run of a system that may take the same step in more than one way. -/
inductive Steps (next : τ → ο → τ → Prop) : τ → List ο → τ → Prop
  | nil (t : τ) : Steps next t [] t
  | cons {t middle t' : τ} {op : ο} {rest : List ο} (taken : next t op middle)
      (later : Steps next middle rest t') : Steps next t (op :: rest) t'

def outputs (step : σ → ι → σ) (out : σ → ι → ο) (s : σ) : List ι → List ο
  | [] => []
  | op :: rest => out s op :: outputs step out (step s op) rest

variable {next : τ → ο → τ → Prop} {t t' : τ} {log : List ο}

theorem Allowed.simulated (abs : σ → τ) {out : σ → ι → ο} {s : σ} {ops : List ι}
    (allowed : Allowed step ok s ops)
    (each : ∀ s op, ok s op → next (abs s) (out s op) (abs (step s op))) :
    Steps next (abs s) (outputs step out s ops) (abs (run step s ops)) := by
  induction ops generalizing s with
  | nil => exact .nil _
  | cons op rest ih => exact .cons (each s op allowed.1) (ih allowed.2)

def Holding (next : τ → ο → τ → Prop) (P : τ → Prop) : τ → List ο → τ → Prop :=
  Steps fun a op b => P a ∧ next a op b

theorem Holding.start {P : τ → Prop} (held : Holding next P t log t') (ended : P t') : P t := by
  cases held with
  | nil t => exact ended
  | cons first later => exact first.1

theorem Holding.of_mem {P : τ → Prop} (held : Holding next P t log t') (ended : P t') {op : ο}
    (member : op ∈ log) : ∃ before after, P before ∧ next before op after ∧ P after := by
  induction held with
  | nil t => cases member
  | @cons t middle t' first rest taken later ih =>
      rcases List.mem_cons.mp member with rfl | inside
      · exact ⟨t, middle, taken.1, taken.2, Holding.start later ended⟩
      · exact ih ended inside

/-- `P` holds along the whole run, or it came about by some step and has held since. -/
theorem Steps.held_or_last {P : τ → Prop} (taken : Steps next t log t') (ended : P t') :
    Holding next P t log t' ∨
    ∃ front op back before after, log = front ++ op :: back ∧ Steps next t front before ∧
      ¬ P before ∧ next before op after ∧ P after ∧ Holding next P after back t' := by
  induction taken with
  | nil t => exact .inl (.nil t)
  | @cons t middle t' op rest first later ih =>
      rcases ih ended with held | ⟨front, last, back, before, after, rfl, early, fresh, turn⟩
      · have now : P middle := held.start ended
        by_cases earlier : P t
        · exact .inl (.cons ⟨earlier, first⟩ held)
        · exact .inr ⟨[], op, rest, t, middle, rfl, .nil t, earlier, first, now, held⟩
      · exact .inr ⟨op :: front, last, back, before, after, rfl, .cons first early, fresh, turn⟩

/-- What does not hold at first and holds at the end came about by some step, and has held since. -/
theorem Steps.exists_last {P : τ → Prop} (taken : Steps next t log t') (start : ¬ P t)
    (ended : P t') :
    ∃ front op back before after, log = front ++ op :: back ∧ Steps next t front before ∧
      ¬ P before ∧ next before op after ∧ P after ∧ Holding next P after back t' := by
  rcases taken.held_or_last ended with held | last
  · exact absurd (held.start ended) start
  · exact last

end Simulation

end Runs
