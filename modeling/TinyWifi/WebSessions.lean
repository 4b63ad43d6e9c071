import TinyWifi.WebFront

/-! Who gets in: the session check against what logins have issued and logouts have revoked, and
the device against the requests that may change it. -/

namespace TinyWifi

open Expiring Runs Text

namespace WebState

variable {Ip ι δ : Type}

def presented (request : WebRequest Ip) : Option Str := request.cookie.bind extractSessionCookie

def routeOp (request : WebRequest Ip) (now : Nat) : Option (Op Str) :=
  match request.route.bind access with
  | some .everyone =>
    if isLogin request = false && isLogout request then (presented request).map .revoke else none
  | some _ => (presented request).map fun token => .check token now
  | none => none

def sessionOp (requests : ι → WebRequest Ip) (s : WebState Ip ι δ) :
    WebEvent ι δ → Option (Op Str)
  | .request i now drawn =>
    match s.pcs i with
    | .counted => routeOp (requests i) now
    | .creating => some (.issue (sessionToken drawn) now)
    | _ => none
  | _ => none

theorem within_routeOp {request : WebRequest Ip} {now : Nat} {op : Op Str}
    (member : op ∈ routeOp request now) : op.within now := by
  unfold routeOp at member
  split at member
  · split at member
    · obtain ⟨token, -, rfl⟩ := Option.map_eq_some_iff.mp member
      trivial
    · cases member
  · obtain ⟨token, -, rfl⟩ := Option.map_eq_some_iff.mp member
    exact Nat.le_refl _
  · cases member

theorem within_sessionOp {requests : ι → WebRequest Ip} {s : WebState Ip ι δ} {i : ι} {now : Nat}
    {drawn : Vector UInt8 32} (op : Op Str)
    (member : op ∈ sessionOp requests s (.request i now drawn)) : op.within now := by
  simp only [sessionOp, Option.mem_def] at member
  split at member
  · exact within_routeOp member
  · cases member
    trivial
  · cases member

section Sessions

variable [DecidableEq ι] {s : WebState Ip ι δ} {i : ι} {now : Nat}

theorem sessions_loginPost (request : WebRequest Ip) :
    (s.loginPost i request now).sessions = s.sessions := by
  unfold loginPost
  split <;> rfl

theorem sessions_logoutPost (request : WebRequest Ip) :
    (s.logoutPost i request.cookie).sessions =
      ((presented request).map Op.revoke).toList.foldl (Expiring.step sessionTtl) s.sessions := by
  unfold logoutPost presented
  cases request.cookie.bind extractSessionCookie <;> rfl

theorem sessions_requireAuth (request : WebRequest Ip) :
    (s.requireAuth i request.cookie now).sessions =
      ((presented request).map fun token => Op.check token now).toList.foldl
        (Expiring.step sessionTtl) s.sessions := by
  unfold requireAuth presented
  cases request.cookie.bind extractSessionCookie <;> rfl

theorem sessions_route (request : WebRequest Ip) : (s.route i request now).sessions =
    (routeOp request now).toList.foldl (Expiring.step sessionTtl) s.sessions := by
  unfold route routeOp
  cases request.route.bind access with
  | none => rfl
  | some layers =>
      cases layers with
      | everyone =>
          simp only
          cases isLogin request with
          | true => simpa using sessions_loginPost request
          | false =>
              cases isLogout request with
              | true => simpa using sessions_logoutPost request
              | false => rfl
      | _ => exact sessions_requireAuth request

theorem route_of_layers {request : WebRequest Ip} {layers : Access}
    (found : request.route.bind access = some layers) (behind : layers ≠ .everyone) :
    s.route i request now = s.requireAuth i request.cookie now := by
  cases layers with
  | everyone => exact absurd rfl behind
  | _ => simp only [route, found]

theorem requireAuth_letIn (request : WebRequest Ip) :
    (s.requireAuth i request.cookie now).pcs i = .letIn ↔
      ∃ token, presented request = some token ∧ (sessionValid s.sessions token now).1 = true := by
  unfold requireAuth presented
  cases request.cookie.bind extractSessionCookie with
  | none => simp [goTo]
  | some token =>
      cases valid : (sessionValid s.sessions token now).1 <;> simp [goTo, valid]

end Sessions

variable [DecidableEq Ip] [DecidableEq ι]

def sessionOps (host : WebHost δ) (requests : ι → WebRequest Ip) (device : δ)
    (events : List (WebEvent ι δ)) : List (Op Str) :=
  traceSome (step host requests) (sessionOp requests) (start device) events

variable {host : WebHost δ} {requests : ι → WebRequest Ip} {s s' : WebState Ip ι δ} {i j : ι}
  {now : Nat} {drawn : Vector UInt8 32} {event : WebEvent ι δ} {device : δ}
  {events : List (WebEvent ι δ)}

theorem step_request (step : s.step host requests (.request i now drawn) = some s') :
    s.clock ≤ now ∧ ∃ last, s.requestStep host i (requests i) now drawn = some last ∧
      s' = { last with clock := now } := by
  simp only [WebState.step, Option.ite_none_right_eq_some] at step
  obtain ⟨after, took⟩ := step
  obtain ⟨last, moved, rfl⟩ := Option.map_eq_some_iff.mp took
  exact ⟨after, last, moved, rfl⟩

/-- A step does to the sessions what its operation says, at the time of the step. -/
theorem sessions_step (step : s.step host requests event = some s') :
    s'.sessions = (sessionOp requests s event).toList.foldl (Expiring.step sessionTtl) s.sessions ∧
      s.clock ≤ s'.clock ∧ ∀ op ∈ sessionOp requests s event, op.within s'.clock := by
  cases event with
  | handler i device =>
      simp only [WebState.step, Option.ite_none_right_eq_some, Option.some_inj] at step
      obtain ⟨-, rfl⟩ := step
      exact ⟨rfl, Nat.le_refl _, nofun⟩
  | background device =>
      cases step
      exact ⟨rfl, Nat.le_refl _, nofun⟩
  | request i now drawn =>
      obtain ⟨after, last, moved, rfl⟩ := step_request step
      refine ⟨?_, after, within_sessionOp⟩
      simp only [requestStep] at moved
      cases pc : s.pcs i with
      | counted =>
          simp only [pc, Option.some_inj] at moved
          subst moved
          simp only [sessionOp, pc]
          exact sessions_route (requests i)
      | verifying password | upgrading password | succeeded password =>
          simp only [pc, Option.some_inj] at moved
          subst moved
          simp only [sessionOp, pc]
          rfl
      | answered answer => simp [pc] at moved
      | _ =>
          simp only [pc, Option.some_inj] at moved
          subst moved
          simp only [sessionOp, pc]
          rfl

/-- The sessions are what the run has issued and not revoked, but for those that have expired. -/
theorem tracks_run (reached : runSome (step host requests) (start device) events = some s) :
    Tracks sessionTtl s.clock (sessionOps host requests device events) s.sessions := by
  induction events using List.reverseRecOn generalizing s with
  | nil =>
      cases reached
      exact fun _ => .inl rfl
  | append_singleton front event ih =>
      obtain ⟨middle, first, taken⟩ := runSome_concat reached
      obtain ⟨sessions, later, within⟩ := sessions_step taken
      have before := ih first
      rw [sessionOps, traceSome_concat first taken, sessions]
      cases op : sessionOp requests middle event with
      | none =>
          rw [Option.toList_none, List.append_nil]
          exact fun k => (before k).imp_right fun gone => ⟨gone.1, fresh_of_later later gone.2⟩
      | some op' => exact before.step later (within op' op)

/-- The session check of a request: a token that was issued, and that nothing has been done to. -/
structure Current (ops : List (Op Str)) (token : Str) (now : Nat) : Prop where
  issued : ∃ created front back, ops = front ++ .issue token created :: back ∧
    (∀ op ∈ back, op.cell ≠ some token) ∧ now - created < sessionTtl

theorem fresh_iff_current {ops : List (Op Str)} {token : Str} :
    fresh sessionTtl (Expiring.issued ops token) now = true ↔ Current ops token now := by
  constructor
  · intro valid
    cases last : Expiring.issued ops token with
    | none => simp [fresh, last] at valid
    | some created =>
        obtain ⟨front, back, split, untouched⟩ := issued_iff.mp last
        exact ⟨created, front, back, split, untouched, by simpa [fresh, last] using valid⟩
  · rintro ⟨created, front, back, split, untouched, young⟩
    rw [issued_iff.mpr ⟨front, back, split, untouched⟩]
    simpa [fresh] using young

/-- A request gets past the session check exactly if its token was issued less than a day ago and
not revoked since. -/
theorem letIn_iff (reached : runSome (step host requests) (start device) events = some s)
    (checked : s.pcs i = .counted)
    (layers : ∃ a, (requests i).route.bind access = some a ∧ a ≠ .everyone)
    (taken : s.step host requests (.request i now drawn) = some s') :
    s'.pcs i = .letIn ↔ ∃ token, presented (requests i) = some token ∧
      Current (sessionOps host requests device events) token now := by
  obtain ⟨after, last, moved, rfl⟩ := step_request taken
  obtain ⟨a, found, behind⟩ := layers
  simp only [requestStep, checked, Option.some_inj] at moved
  subst moved
  change (s.route i (requests i) now).pcs i = .letIn ↔ _
  rw [route_of_layers found behind, requireAuth_letIn]
  refine exists_congr fun token => and_congr_right fun _ => ?_
  rw [sessionValid, (tracks_run reached).check after]
  exact fresh_iff_current

/-- In this run the password of the request was found right. -/
def Verified (host : WebHost δ) (requests : ι → WebRequest Ip) (device : δ)
    (events : List (WebEvent ι δ)) (i : ι) : Prop :=
  ∃ front now drawn back t password, events = front ++ .request i now drawn :: back ∧
    runSome (step host requests) (start device) front = some t ∧
    t.pcs i = .verifying password ∧ (requests i).password = some password ∧
    host.verify t.device password = true

/-- In this run the request got past the gate of its route. -/
def Admitted (host : WebHost δ) (requests : ι → WebRequest Ip) (device : δ)
    (events : List (WebEvent ι δ)) (i : ι) : Prop :=
  ∃ front now drawn back t, events = front ++ .request i now drawn :: back ∧
    runSome (step host requests) (start device) front = some t ∧ t.pcs i = .letIn ∧
    featureOn host (requests i) t.device = true

/-- In this run the request got past the session check. -/
def Entered (host : WebHost δ) (requests : ι → WebRequest Ip) (device : δ)
    (events : List (WebEvent ι δ)) (i : ι) : Prop :=
  ∃ front now drawn back t token, events = front ++ .request i now drawn :: back ∧
    runSome (step host requests) (start device) front = some t ∧ t.pcs i = .counted ∧
    presented (requests i) = some token ∧
    Current (sessionOps host requests device front) token now

theorem Verified.append (verified : Verified host requests device events i)
    (more : List (WebEvent ι δ)) : Verified host requests device (events ++ more) i := by
  obtain ⟨front, now, drawn, back, t, password, rfl, found⟩ := verified
  exact ⟨front, now, drawn, back ++ more, t, password, by simp, found⟩

theorem Admitted.append (admitted : Admitted host requests device events i)
    (more : List (WebEvent ι δ)) : Admitted host requests device (events ++ more) i := by
  obtain ⟨front, now, drawn, back, t, rfl, found⟩ := admitted
  exact ⟨front, now, drawn, back ++ more, t, by simp, found⟩

theorem Entered.append (entered : Entered host requests device events i)
    (more : List (WebEvent ι δ)) : Entered host requests device (events ++ more) i := by
  obtain ⟨front, now, drawn, back, t, token, rfl, found⟩ := entered
  exact ⟨front, now, drawn, back ++ more, t, token, by simp, found⟩

end WebState

def WebPc.pastPassword : WebPc → Bool
  | .succeeded _ | .upgrading _ | .creating | .answered (.loggedIn _) => true
  | _ => false

def WebPc.pastSession : WebPc → Bool
  | .letIn | .handling | .answered .handled => true
  | _ => false

def WebPc.pastGate : WebPc → Bool
  | .handling | .answered .handled => true
  | _ => false

namespace WebState

variable {Ip ι δ : Type} [DecidableEq Ip] [DecidableEq ι] {host : WebHost δ}
  {requests : ι → WebRequest Ip} {s s' : WebState Ip ι δ} {i j : ι}
  {now : Nat} {drawn : Vector UInt8 32} {event : WebEvent ι δ} {device : δ}
  {events : List (WebEvent ι δ)}

/-- How the place of a request came about. -/
structure Origins (host : WebHost δ) (requests : ι → WebRequest Ip) (device : δ)
    (events : List (WebEvent ι δ)) (s : WebState Ip ι δ) : Prop where
  asked : ∀ i password, s.pcs i = .verifying password → (requests i).password = some password
  verified : ∀ i, (s.pcs i).pastPassword = true → Verified host requests device events i
  entered : ∀ i, (s.pcs i).pastSession = true → Entered host requests device events i
  admitted : ∀ i, (s.pcs i).pastGate = true → Admitted host requests device events i
  issued : ∀ token created, .issue token created ∈ sessionOps host requests device events →
    ∃ j, s.pcs j = .answered (.loggedIn token)

/-- Where a step of a request can lead: to one of the five places that say something, or on. -/
inductive Leads (host : WebHost δ) (request : WebRequest Ip) (now : Nat)
    (drawn : Vector UInt8 32) (s : WebState Ip ι δ) : WebPc → WebPc → Prop
  | ask {password : Str} (given : request.password = some password) :
      Leads host request now drawn s .counted (.verifying password)
  | letIn {token : Str} (given : presented request = some token)
      (valid : (sessionValid s.sessions token now).1 = true) :
      Leads host request now drawn s .counted .letIn
  | enter (on : featureOn host request s.device = true) :
      Leads host request now drawn s .letIn .handling
  | verify {password : Str} (right : host.verify s.device password = true) :
      Leads host request now drawn s (.verifying password) (.succeeded password)
  | create : Leads host request now drawn s .creating (.answered (.loggedIn (sessionToken drawn)))
  | onward {pc pc' : WebPc} (password : pc'.pastPassword = true → pc.pastPassword = true)
      (session : pc'.pastSession = true → pc.pastSession = true)
      (gate : pc'.pastGate = true → pc.pastGate = true)
      (asks : ∀ password, pc' ≠ .verifying password) : Leads host request now drawn s pc pc'

section Leads

variable {Ip ι δ : Type} {host : WebHost δ} {request : WebRequest Ip} {now : Nat}
  {drawn : Vector UInt8 32} {s t : WebState Ip ι δ} {pc pc' : WebPc}

theorem leads_goTo [DecidableEq ι] {i : ι} (leads : Leads host request now drawn s pc pc') :
    Leads host request now drawn s pc ((t.goTo i pc').pcs i) := by
  have same : (t.goTo i pc').pcs i = pc' := Function.update_self ..
  rwa [same]

theorem leads_answered {answer : WebAnswer} (plain : (WebPc.answered answer).pastPassword = false)
    (early : (WebPc.answered answer).pastSession = false) :
    Leads host request now drawn s pc (.answered answer) := by
  have before : (WebPc.answered answer).pastGate = false := by
    cases answer <;> first | rfl | cases early
  exact .onward (by simp [plain]) (by simp [early]) (by simp [before]) (by simp)

theorem leads_ite {c : Prop} [Decidable c] {first second : WebPc}
    (met : c → Leads host request now drawn s pc first)
    (unmet : ¬ c → Leads host request now drawn s pc second) :
    Leads host request now drawn s pc (if c then first else second) := by
  split
  · next holds => exact met holds
  · next fails => exact unmet fails

end Leads

omit [DecidableEq Ip] in
theorem route_leads (request : WebRequest Ip) :
    Leads host request now drawn s .counted ((s.route i request now).pcs i) := by
  unfold route
  split
  · exact leads_goTo (leads_answered rfl rfl)
  · split
    · unfold loginPost
      split
      · next given =>
          exact leads_goTo (leads_ite (fun _ => leads_answered rfl rfl) fun _ => .ask given)
      · exact leads_goTo (leads_answered rfl rfl)
    · split
      · unfold logoutPost
        split <;> exact leads_goTo (leads_answered rfl rfl)
      · exact leads_goTo (leads_answered rfl rfl)
  · unfold requireAuth
    split
    · next given =>
        exact leads_goTo (leads_ite (fun valid => .letIn given valid)
          fun _ => leads_answered rfl rfl)
    · exact leads_goTo (leads_answered rfl rfl)

theorem requestStep_leads {request : WebRequest Ip}
    (moved : s.requestStep host i request now drawn = some s') :
    Leads host request now drawn s (s.pcs i) (s'.pcs i) := by
  simp only [requestStep] at moved
  cases pc : s.pcs i with
  | arrived =>
      simp only [pc, Option.some_inj] at moved
      subst moved
      exact leads_goTo (leads_ite (fun _ => leads_answered rfl rfl)
        fun _ => .onward (by simp [WebPc.pastPassword]) (by simp [WebPc.pastSession])
          (by simp [WebPc.pastGate]) (by simp))
  | counted =>
      simp only [pc, Option.some_inj] at moved
      subst moved
      exact route_leads request
  | letIn =>
      simp only [pc, Option.some_inj] at moved
      subst moved
      exact leads_goTo (leads_ite (fun on => .enter on) fun _ => leads_answered rfl rfl)
  | handling =>
      simp only [pc, Option.some_inj] at moved
      subst moved
      exact leads_goTo (.onward (by simp [WebPc.pastPassword]) (fun _ => rfl) (fun _ => rfl)
        (by simp))
  | verifying password =>
      simp only [pc, Option.some_inj] at moved
      subst moved
      exact leads_goTo (leads_ite (fun right => .verify right)
        fun _ => .onward (by simp [WebPc.pastPassword]) (by simp [WebPc.pastSession])
          (by simp [WebPc.pastGate]) (by simp))
  | succeeded password =>
      simp only [pc, Option.some_inj] at moved
      subst moved
      exact leads_goTo (.onward (fun _ => rfl) (by simp [WebPc.pastSession])
        (by simp [WebPc.pastGate]) (by simp))
  | upgrading password =>
      simp only [pc, Option.some_inj] at moved
      subst moved
      exact leads_goTo (.onward (fun _ => rfl) (by simp [WebPc.pastSession])
        (by simp [WebPc.pastGate]) (by simp))
  | creating =>
      simp only [pc, Option.some_inj] at moved
      subst moved
      exact leads_goTo .create
  | failing =>
      simp only [pc, Option.some_inj] at moved
      subst moved
      exact leads_goTo (leads_answered rfl rfl)
  | answered answer => simp [pc] at moved

theorem requestStep_pcs_of_ne {request : WebRequest Ip} (other : j ≠ i)
    (moved : s.requestStep host i request now drawn = some s') : s'.pcs j = s.pcs j := by
  have went (t : WebState Ip ι δ) (pc : WebPc) : (t.goTo i pc).pcs j = t.pcs j :=
    Function.update_of_ne other ..
  simp only [requestStep] at moved
  cases pc : s.pcs i with
  | answered answer => simp [pc] at moved
  | counted =>
      simp only [pc, Option.some_inj] at moved
      subst moved
      unfold route loginPost logoutPost requireAuth
      split
      · exact went ..
      · split
        · split <;> exact went ..
        · split
          · split <;> exact went ..
          · exact went ..
      · split <;> exact went ..
  | _ =>
      simp only [pc, Option.some_inj] at moved
      subst moved
      exact went ..

omit [DecidableEq Ip] [DecidableEq ι] in
theorem issue_of_sessionOp {token : Str} {created : Nat}
    (op : sessionOp requests s event = some (.issue token created)) :
    ∃ i now drawn, event = .request i now drawn ∧ s.pcs i = .creating ∧
      token = sessionToken drawn := by
  cases event with
  | request i now drawn =>
      simp only [sessionOp] at op
      split at op
      · unfold routeOp at op
        split at op
        · split at op <;> simp at op
        · simp at op
        · cases op
      · next pc =>
          cases op
          exact ⟨i, _, drawn, rfl, pc, rfl⟩
      · cases op
  | _ => cases op

theorem created_of_step {token : Str} (taken : s.step host requests event = some s')
    {created : Nat} (op : sessionOp requests s event = some (.issue token created)) :
    ∃ j, s'.pcs j = .answered (.loggedIn token) := by
  obtain ⟨i, now, drawn, rfl, pc, rfl⟩ := issue_of_sessionOp op
  obtain ⟨-, last, moved, rfl⟩ := step_request taken
  simp only [requestStep, pc, Option.some_inj] at moved
  subst moved
  exact ⟨i, Function.update_self ..⟩

theorem answered_stays {answer : WebAnswer} (answered : s.pcs j = .answered answer)
    (taken : s.step host requests event = some s') : s'.pcs j = .answered answer := by
  cases event with
  | handler i device =>
      simp only [WebState.step, Option.ite_none_right_eq_some, Option.some_inj] at taken
      obtain ⟨-, rfl⟩ := taken
      exact answered
  | background device =>
      cases taken
      exact answered
  | request i now drawn =>
      obtain ⟨-, last, moved, rfl⟩ := step_request taken
      by_cases own : j = i
      · subst own
        simp [requestStep, answered] at moved
      · exact (requestStep_pcs_of_ne own moved).trans answered

theorem Origins.request (origins : Origins host requests device events s)
    (reached : runSome (step host requests) (start device) events = some s)
    (taken : s.step host requests (.request i now drawn) = some s') (j : ι) :
    (∀ password, s'.pcs j = .verifying password → (requests j).password = some password) ∧
    ((s'.pcs j).pastPassword = true →
      Verified host requests device (events ++ [.request i now drawn]) j) ∧
    ((s'.pcs j).pastSession = true →
      Entered host requests device (events ++ [.request i now drawn]) j) ∧
    ((s'.pcs j).pastGate = true →
      Admitted host requests device (events ++ [.request i now drawn]) j) := by
  obtain ⟨after, last, moved, rfl⟩ := step_request taken
  by_cases own : j = i
  · subst own
    have leads := requestStep_leads moved
    change (∀ password, last.pcs j = .verifying password → _) ∧
      ((last.pcs j).pastPassword = true → _) ∧ ((last.pcs j).pastSession = true → _) ∧
      ((last.pcs j).pastGate = true → _)
    generalize before : s.pcs j = pc at leads
    generalize last.pcs j = pc' at leads
    cases leads with
    | ask given => exact ⟨by simpa using given, nofun, nofun, nofun⟩
    | letIn given valid =>
        refine ⟨nofun, nofun, fun _ => ⟨events, now, drawn, [], s, _, rfl, reached, before, given,
          ?_⟩, nofun⟩
        rw [← fresh_iff_current, ← (tracks_run reached).check after]
        exact valid
    | enter on =>
        exact ⟨nofun, nofun, fun _ => (origins.entered j (by rw [before]; rfl)).append _,
          fun _ => ⟨events, now, drawn, [], s, rfl, reached, before, on⟩⟩
    | verify right =>
        exact ⟨nofun, fun _ => ⟨events, now, drawn, [], s, _, rfl, reached, before,
          origins.asked j _ before, right⟩, nofun, nofun⟩
    | create =>
        exact ⟨nofun, fun _ => (origins.verified j (by rw [before]; rfl)).append _, nofun, nofun⟩
    | onward password session gate asks =>
        refine ⟨fun given same => absurd same (asks given), fun past => ?_, fun past => ?_,
          fun past => ?_⟩
        · exact (origins.verified j (by rw [before, password past])).append _
        · exact (origins.entered j (by rw [before, session past])).append _
        · exact (origins.admitted j (by rw [before, gate past])).append _
  · have same : last.pcs j = s.pcs j := requestStep_pcs_of_ne own moved
    simp only [same]
    exact ⟨origins.asked j, fun past => (origins.verified j past).append _,
      fun past => (origins.entered j past).append _,
      fun past => (origins.admitted j past).append _⟩

theorem origins_run (reached : runSome (step host requests) (start device) events = some s) :
    Origins host requests device events s := by
  induction events using List.reverseRecOn generalizing s with
  | nil =>
      cases reached
      exact ⟨nofun, nofun, nofun, nofun, nofun⟩
  | append_singleton front event ih =>
      obtain ⟨middle, first, taken⟩ := runSome_concat reached
      have before := ih first
      have issued (token : Str) (created : Nat)
          (member : .issue token created ∈
            sessionOps host requests device (front ++ [event])) :
          ∃ j, s.pcs j = .answered (.loggedIn token) := by
        rw [sessionOps, traceSome_concat first taken] at member
        obtain member | member := List.mem_append.mp member
        · obtain ⟨j, answered⟩ := before.issued token created member
          exact ⟨j, answered_stays answered taken⟩
        · exact created_of_step taken (Option.mem_toList.mp member)
      cases event with
      | request i now drawn =>
          have each := before.request first taken
          exact ⟨fun j => (each j).1, fun j => (each j).2.1, fun j => (each j).2.2.1,
            fun j => (each j).2.2.2, issued⟩
      | handler i device =>
          simp only [WebState.step, Option.ite_none_right_eq_some, Option.some_inj] at taken
          obtain ⟨-, rfl⟩ := taken
          exact ⟨before.asked, fun j past => (before.verified j past).append _,
            fun j past => (before.entered j past).append _,
            fun j past => (before.admitted j past).append _, issued⟩
      | background device =>
          cases taken
          exact ⟨before.asked, fun j past => (before.verified j past).append _,
            fun j past => (before.entered j past).append _,
            fun j past => (before.admitted j past).append _, issued⟩

/-- What can change the device, and who can get in. -/
structure Guarded (host : WebHost δ) (requests : ι → WebRequest Ip) (device : δ)
    (events : List (WebEvent ι δ)) (s : WebState Ip ι δ) : Prop where
  changes : ∀ event s', s.step host requests event = some s' → s'.device ≠ s.device →
    (∃ other, event = .background other) ∨
    (∃ i other, event = .handler i other ∧ Entered host requests device events i ∧
      Admitted host requests device events i) ∨
    ∃ i now drawn, event = .request i now drawn ∧ Verified host requests device events i
  issued : ∀ token created, .issue token created ∈ sessionOps host requests device events →
    ∃ j, s.pcs j = .answered (.loggedIn token) ∧ Verified host requests device events j
  locked : (∀ j, ¬ Verified host requests device events j) →
    ∀ i, ¬ Entered host requests device events i

theorem device_requestStep {request : WebRequest Ip}
    (moved : s.requestStep host i request now drawn = some s') (changed : s'.device ≠ s.device) :
    (s.pcs i).pastPassword = true := by
  simp only [requestStep] at moved
  cases pc : s.pcs i with
  | upgrading password => rfl
  | succeeded password => rfl
  | creating => rfl
  | answered answer => simp [pc] at moved
  | counted =>
      simp only [pc, Option.some_inj] at moved
      subst moved
      unfold route loginPost logoutPost requireAuth at changed
      repeat' split at changed
      all_goals exact absurd rfl changed
  | _ =>
      simp only [pc, Option.some_inj] at moved
      subst moved
      exact absurd rfl changed

/-- Without a session, or with the feature off, only the background changes the device, and without
a right password nobody gets a session. -/
theorem device_guarded (reached : runSome (step host requests) (start device) events = some s) :
    Guarded host requests device events s := by
  have origins := origins_run reached
  have issued (token : Str) (created : Nat)
      (member : .issue token created ∈ sessionOps host requests device events) :
      ∃ j, s.pcs j = .answered (.loggedIn token) ∧ Verified host requests device events j := by
    obtain ⟨j, answered⟩ := origins.issued token created member
    exact ⟨j, answered, origins.verified j (by rw [answered]; rfl)⟩
  refine ⟨fun event s' taken changed => ?_, issued, fun nobody i entered => ?_⟩
  · cases event with
    | background other => exact .inl ⟨other, rfl⟩
    | handler i other =>
        simp only [WebState.step, Option.ite_none_right_eq_some] at taken
        exact .inr (.inl ⟨i, other, rfl, origins.entered i (by rw [taken.1]; rfl),
          origins.admitted i (by rw [taken.1]; rfl)⟩)
    | request i now drawn =>
        obtain ⟨-, last, moved, rfl⟩ := step_request taken
        exact .inr (.inr ⟨i, now, drawn, rfl,
          origins.verified i (device_requestStep moved changed)⟩)
  · obtain ⟨front, now, drawn, back, t, token, rfl, first, -, -, current⟩ := entered
    obtain ⟨created, before, after, split, -⟩ := current.issued
    obtain ⟨j, answered⟩ := (origins_run first).issued token created (by simp [split])
    have verified := (origins_run first).verified j (by rw [answered]; rfl)
    exact nobody j (verified.append _)

def doorHost : WebHost Nat where
  verify _ password := password = "secret".toList
  maybeUpgradeHash _ := id
  features _ := ⟨true, true⟩

def zeros : Vector UInt8 32 := Vector.replicate 32 0

def visit : Nat → WebRequest Nat
  | 0 => ⟨1, "POST".toList, some "/login".toList, none, some "secret".toList⟩
  | _ => ⟨1, "GET".toList, some "/monitor".toList,
      some (cookieHeader [(sessionCookie, sessionToken zeros)]), none⟩

def visits : List (WebEvent Nat Nat) :=
  List.replicate 6 (.request 0 5 zeros) ++ [.request 1 7 zeros]

theorem letIn_iff_visits : ∃ token, presented (visit 1) = some token ∧
    Current (sessionOps doorHost visit 0 visits) token 9 := by
  obtain ⟨s, s', reached, checked, taken, letIn⟩ :
      ∃ s s', runSome (step doorHost visit) (start 0) visits = some s ∧ s.pcs 1 = .counted ∧
        s.step doorHost visit (.request 1 9 zeros) = some s' ∧ s'.pcs 1 = .letIn :=
    ⟨_, _, rfl, rfl, rfl, rfl⟩
  exact (letIn_iff reached checked ⟨.monitor, rfl, by simp⟩ taken).mp letIn

/-- The visitor is let in, and its handler changes the device. -/
def handled : List (WebEvent Nat Nat) := visits ++ List.replicate 2 (.request 1 9 zeros)

theorem device_guarded_visits : ∃ s s',
    runSome (step doorHost visit) (start 0) handled = some s ∧
      s.step doorHost visit (.handler 1 3) = some s' ∧ s'.device ≠ s.device ∧
      Guarded doorHost visit 0 handled s := by
  obtain ⟨s, s', reached, taken, changed⟩ :
      ∃ s s', runSome (step doorHost visit) (start 0) handled = some s ∧
        s.step doorHost visit (.handler 1 3) = some s' ∧ s'.device ≠ s.device :=
    ⟨_, _, rfl, rfl, by decide⟩
  exact ⟨s, s', reached, taken, changed, device_guarded reached⟩

end WebState

end TinyWifi
