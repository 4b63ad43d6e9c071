import TinyWifi.Lib.Ipv4
import TinyWifi.Lib.Runs

/-! The loop of `tinywifi-display`: when it draws the status, and what is on the screen then. -/

namespace TinyWifi

open Text Runs

structure DisplayStatus where
  ssid : Option Str
  ip : Option Ipv4Addr
  clients : Nat
  wan : Bool
  ramUsedPercent : Option UInt8
  cpuUsedPercent : Option UInt8
  uptimeSecs : Option UInt64
  deriving DecidableEq, Repr

def DisplayStatus.eqExceptUptime (a b : DisplayStatus) : Bool :=
  a.ssid = b.ssid && a.ip = b.ip && a.clients = b.clients && a.wan = b.wan &&
    a.ramUsedPercent = b.ramUsedPercent && a.cpuUsedPercent = b.cpuUsedPercent

namespace Display

inductive Frame
  | status (status : DisplayStatus)
  | setup (ip : Option Ipv4Addr) (password : Str)
  deriving DecidableEq, Repr

/-- The variables of the loop, and the frame on the screen. Instants are nanoseconds. -/
structure Loop where
  prev : Option DisplayStatus
  lastRender : Nat
  showingSetup : Bool
  frame : Option Frame
  deriving DecidableEq, Repr

/-- What one pass through the loop meets: the renderer and the results it would give, the files,
and the clock before and after drawing. -/
structure Tick where
  available : Bool
  status : DisplayStatus
  password : Option Str
  now : Nat
  renderedAt : Nat
  renders : Bool
  rendersSetup : Bool
  deriving DecidableEq, Repr

def uptimeOnlyInterval : Nat := 10 * 60 * 1000000000

namespace Loop

/-- The loop at its start; an instant before the clock's first one does not exist. -/
def start (now : Nat) : Loop :=
  ⟨none, if uptimeOnlyInterval ≤ now then now - uptimeOnlyInterval else now, false, none⟩

def resume (s : Loop) : Loop :=
  if s.showingSetup then { s with prev := none, showingSetup := false } else s

def shouldRender (s : Loop) (t : Tick) : Bool :=
  match s.prev with
  | none => true
  | some p => !p.eqExceptUptime t.status || uptimeOnlyInterval ≤ t.now - s.lastRender

/-- A render call; a failed one leaves the frame on the screen. -/
def render (s : Loop) (t : Tick) : Loop :=
  if t.renders then { s with frame := some (.status t.status), lastRender := t.renderedAt } else s

def renderSetup (s : Loop) (t : Tick) (password : Str) : Loop :=
  if t.rendersSetup then
    { s with frame := some (.setup t.status.ip password), showingSetup := true }
  else s

def tick (s : Loop) (t : Tick) : Loop :=
  if t.available then
    match t.password with
    | some password => if s.showingSetup then s else s.renderSetup t password
    | none =>
      let s := s.resume
      let s := if s.shouldRender t then s.render t else s
      { s with prev := some t.status }
  else s

/-- The tick is one for the status: a renderer, and no password pending. -/
def ForStatus (t : Tick) : Prop := t.available = true ∧ t.password = none

instance (t : Tick) : Decidable (ForStatus t) := inferInstanceAs (Decidable (_ ∧ _))

def Draws (s : Loop) (t : Tick) : Prop := ForStatus t ∧ s.resume.shouldRender t = true

instance (s : Loop) (t : Tick) : Decidable (s.Draws t) := inferInstanceAs (Decidable (_ ∧ _))

end Loop

/-- The loop, and whether its last `render` call failed. -/
structure History where
  loop : Loop
  failed : Bool
  deriving DecidableEq, Repr

namespace History

def start (now : Nat) : History := ⟨.start now, false⟩

def step (h : History) (t : Tick) : History :=
  ⟨h.loop.tick t, if h.loop.Draws t then !t.renders else h.failed⟩

end History

/-- The renderer is available, no setup password is pending, and no render call fails. -/
def Good (h : History) (t : Tick) : Prop :=
  Loop.ForStatus t ∧ (h.loop.Draws t → t.renders = true)

/-- A status frame that is current except possibly for its uptime. -/
def Current (status : DisplayStatus) : Option Frame → Prop
  | some (.status shown) => shown.eqExceptUptime status = true
  | _ => False

/-- What was not drawn before is not passed over: a tick for the status that skips drawing follows
a `render` call that succeeded. -/
def Catches (h : History) (t : Tick) : Prop :=
  Loop.ForStatus t → ¬ h.loop.Draws t → h.failed = false

/-- Unless the last `render` call failed, the status that was seen last is on the screen. -/
def Shown (h : History) : Prop :=
  h.failed = false → h.loop.showingSetup = false →
    ∀ p ∈ h.loop.prev, Current p h.loop.frame

section Step

variable {h : History} {t : Tick}

theorem eqExceptUptime_iff {a b : DisplayStatus} : a.eqExceptUptime b = true ↔
    a.ssid = b.ssid ∧ a.ip = b.ip ∧ a.clients = b.clients ∧ a.wan = b.wan ∧
      a.ramUsedPercent = b.ramUsedPercent ∧ a.cpuUsedPercent = b.cpuUsedPercent := by
  simp [DisplayStatus.eqExceptUptime, and_assoc]

theorem eqExceptUptime_refl (a : DisplayStatus) : a.eqExceptUptime a = true :=
  eqExceptUptime_iff.mpr ⟨rfl, rfl, rfl, rfl, rfl, rfl⟩

theorem Current.of_eq {a b : DisplayStatus} {frame : Option Frame} (current : Current a frame)
    (same : a.eqExceptUptime b = true) : Current b frame := by
  cases frame with
  | none => exact current
  | some frame =>
      cases frame with
      | setup ip password => exact current
      | status shown =>
          have first := eqExceptUptime_iff.mp current
          have second := eqExceptUptime_iff.mp same
          apply eqExceptUptime_iff.mpr
          simp_all

/-- A tick for the status either draws or leaves the screen and looks at what it saw before. -/
theorem tick_status (status : Loop.ForStatus t) :
    h.loop.tick t = { (if h.loop.resume.shouldRender t then h.loop.resume.render t
      else h.loop.resume) with prev := some t.status } := by
  rw [Loop.tick, if_pos status.1, status.2]

theorem tick_drawn (draws : h.loop.Draws t) (renders : t.renders = true) :
    (h.loop.tick t).frame = some (.status t.status) := by
  rw [tick_status draws.1, if_pos draws.2, Loop.render, if_pos renders]

theorem skip_cases (status : Loop.ForStatus t) (skips : ¬ h.loop.Draws t) :
    h.loop.showingSetup = false ∧ (h.loop.tick t).frame = h.loop.frame ∧
      ∃ p ∈ h.loop.prev, p.eqExceptUptime t.status = true := by
  have no : ¬ h.loop.resume.shouldRender t = true := fun yes => skips ⟨status, yes⟩
  cases showing : h.loop.showingSetup with
  | true => simp [Loop.resume, showing, Loop.shouldRender] at no
  | false =>
      have same : h.loop.resume = h.loop := by simp [Loop.resume, showing]
      rw [tick_status status, if_neg no, same]
      rw [same] at no
      refine ⟨rfl, rfl, ?_⟩
      cases before : h.loop.prev with
      | none => simp [Loop.shouldRender, before] at no
      | some p =>
          refine ⟨p, rfl, ?_⟩
          by_contra differs
          simp [Loop.shouldRender, before, differs] at no

/-- After a good tick of a loop that shows what it saw last, the screen is current. -/
theorem current_of_good (shown : Shown h) (catches : Catches h t) (good : Good h t) :
    Current t.status (h.loop.tick t).frame := by
  by_cases draws : h.loop.Draws t
  · rw [tick_drawn draws (good.2 draws)]
    exact eqExceptUptime_refl t.status
  · rcases skip_cases good.1 draws with ⟨showing, frame, p, seen, same⟩
    rw [frame]
    exact (shown (catches good.1 draws) showing p seen).of_eq same

theorem tick_other (other : ¬ Loop.ForStatus t) : h.loop.tick t = h.loop ∨
    (h.loop.tick t).showingSetup = true := by
  unfold Loop.tick
  split
  · next available =>
      cases pending : t.password with
      | none => exact absurd ⟨available, pending⟩ other
      | some password =>
          cases showing : h.loop.showingSetup with
          | true => exact .inl (by simp)
          | false =>
              cases drawn : t.rendersSetup with
              | true => exact .inr (by simp [Loop.renderSetup, drawn])
              | false => exact .inl (by simp [Loop.renderSetup, drawn])
  · exact .inl rfl

theorem shown_step (shown : Shown h) (catches : Catches h t) : Shown (h.step t) := by
  intro succeeded showing p seen
  by_cases status : Loop.ForStatus t
  · have good : Good h t := by
      refine ⟨status, fun draws => ?_⟩
      simpa [History.step, draws] using succeeded
    have last : p = t.status := by
      have now : (h.loop.tick t).prev = some t.status := by rw [tick_status status]
      exact (Option.some_inj.mp (now.symm.trans seen)).symm
    rw [last]
    exact current_of_good shown catches good
  · have idle : ¬ h.loop.Draws t := fun draws => status draws.1
    have before : h.failed = false := by simpa [History.step, idle] using succeeded
    rcases tick_other status with same | setup
    · have kept : (h.step t).loop = h.loop := same
      rw [kept] at showing seen ⊢
      exact shown before showing p seen
    · have hidden : (h.loop.tick t).showingSetup = false := showing
      rw [setup] at hidden
      cases hidden

end Step

/-- Where no tick passes over what could not be drawn before, the screen is current after every
good tick. -/
theorem current_after_good {now : Nat} {ticks : List Tick}
    (catches : Allowed History.step Catches (.start now) ticks) {front : List Tick} {t : Tick}
    (reached : front ++ [t] <+: ticks) (good : Good (run History.step (.start now) front) t) :
    Current t.status (run History.step (.start now) (front ++ [t])).loop.frame := by
  rcases reached with ⟨back, split⟩
  rw [← split, allowed_append, allowed_append] at catches
  have start : Shown (.start now) := by
    intro _ _ p seen
    cases seen
  have shown := invariant_run start (fun h t shown catches => shown_step shown catches) front
    catches.1.1
  rw [run_concat]
  exact current_of_good shown catches.1.2.1 good

section Witness

def quiet : DisplayStatus := ⟨some "net".toList, none, 0, true, some 20, some 5, some 100⟩

def oneClient : DisplayStatus := { quiet with clients := 1 }

def tickAt (second : Nat) (status : DisplayStatus) (renders : Bool) : Tick :=
  ⟨true, status, none, second * 1000000000, second * 1000000000, renders, true⟩

/-- A failed call is made up for at once, and then a tick has nothing new to draw. -/
theorem current_after_retry :
    Current oneClient (run History.step (.start 1000000000000)
      ([tickAt 1000 quiet false, tickAt 1010 oneClient true] ++
        [tickAt 1020 oneClient true])).loop.frame := by
  have catches : Allowed History.step Catches (.start 1000000000000)
      ([tickAt 1000 quiet false, tickAt 1010 oneClient true] ++ [tickAt 1020 oneClient true]) :=
    ⟨fun _ skips => absurd (by decide) skips, fun _ skips => absurd (by decide) skips,
      fun _ _ => rfl, trivial⟩
  have good : Good (run History.step (.start 1000000000000)
      [tickAt 1000 quiet false, tickAt 1010 oneClient true]) (tickAt 1020 oneClient true) :=
    ⟨by decide, fun draws => absurd draws (by decide)⟩
  exact current_after_good catches (List.prefix_refl _) good

/-- A client is seen while drawing fails; the next tick takes the screen for current. -/
theorem stale_after_failure :
    Good (run History.step (.start 1000000000000)
      [tickAt 1000 quiet true, tickAt 1010 oneClient false]) (tickAt 1020 oneClient true) ∧
    ¬ Current oneClient (run History.step (.start 1000000000000)
      [tickAt 1000 quiet true, tickAt 1010 oneClient false,
        tickAt 1020 oneClient true]).loop.frame := by
  refine ⟨⟨by decide, fun _ => rfl⟩, ?_⟩
  have frame : (run History.step (.start 1000000000000)
      [tickAt 1000 quiet true, tickAt 1010 oneClient false,
        tickAt 1020 oneClient true]).loop.frame = some (.status quiet) := by decide
  rw [frame]
  change ¬ quiet.eqExceptUptime oneClient = true
  decide

end Witness

end Display

end TinyWifi
