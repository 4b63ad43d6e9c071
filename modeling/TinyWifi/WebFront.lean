import TinyWifi.Lib.Runs
import TinyWifi.LoginAttempts
import TinyWifi.RateLimit
import TinyWifi.Sessions

/-! What every request passes before a handler runs: the rate limit, the session, the feature. All
requests go on one step at a time, in any order. -/

namespace TinyWifi

open Runs Text

/-- The layers around a route. -/
inductive Access
  | everyone
  | session
  | monitor
  | adblock
  deriving DecidableEq, Repr

def publicRoutes : List Str :=
  ["/health", "/login", "/logout", "/style.css", "/fonts/:name"].map String.toList

def protectedRoutes : List Str :=
  ["/", "/dashboard", "/wifi", "/dhcp", "/dns", "/leases", "/system", "/wan", "/api/wan", "/vpn",
    "/schedule", "/api/schedule", "/api/schedule/block", "/api/schedule/unblock", "/api/vpn",
    "/api/vpn/:name/up", "/api/vpn/:name/down", "/api/vpn/:name", "/api/vpn/:name/autostart",
    "/api/vpn/bypass", "/api/status", "/api/traffic", "/api/wifi", "/api/wifi/confirm",
    "/api/dhcp", "/api/dhcp/confirm", "/api/leases", "/api/dhcp/static", "/api/dhcp/static/:mac",
    "/api/acl", "/api/acl/block", "/api/acl/unblock", "/api/dns", "/api/dns/records",
    "/api/services", "/api/services/:name/restart", "/api/system/reboot", "/api/auth/password",
    "/api/features"].map String.toList

def monitorRoutes : List Str :=
  ["/monitor", "/api/monitor", "/api/monitor/detect"].map String.toList

def adblockRoutes : List Str :=
  ["/adblock", "/api/adblock", "/api/adblock/update", "/api/adblock/custom"].map String.toList

def access (pattern : Str) : Option Access :=
  if publicRoutes.any (· = pattern) then some .everyone
  else if protectedRoutes.any (· = pattern) then some .session
  else if monitorRoutes.any (· = pattern) then some .monitor
  else if adblockRoutes.any (· = pattern) then some .adblock
  else none

/-- A request: the route that the router has found for its path, the first `Cookie` header, and the
password, if the body is a form with one. -/
structure WebRequest (Ip : Type) where
  ip : Ip
  method : Str
  route : Option Str
  cookie : Option HeaderValue
  password : Option Str
  deriving DecidableEq, Repr

structure Features where
  adblock : Bool
  monitor : Bool
  deriving DecidableEq, Repr

/-- What the web server asks of the device and does to it by itself. -/
structure WebHost (δ : Type) where
  verify : δ → Str → Bool
  maybeUpgradeHash : Str → δ → δ
  features : δ → Features

inductive WebAnswer
  | tooManyRequests
  | notFound
  | toLogin
  | page
  | badForm
  | banned
  | failed
  | loggedIn (token : Str)
  | loggedOut
  | handled
  deriving DecidableEq, Repr

/-- Where a request is. A handler behind the session check takes any number of steps. -/
inductive WebPc
  | arrived
  | counted
  | letIn
  | handling
  | verifying (password : Str)
  | succeeded (password : Str)
  | upgrading (password : Str)
  | creating
  | failing
  | answered (answer : WebAnswer)
  deriving DecidableEq, Repr

structure WebState (Ip ι δ : Type) where
  clock : Nat
  limiter : RateLimit.RateLimiter Ip
  attempts : LoginAttempts.Attempts Ip
  sessions : Sessions
  device : δ
  pcs : ι → WebPc

/-- A step of a request reads the clock, and may draw a token. The device changes under a handler,
or by what runs in the background. -/
inductive WebEvent (ι δ : Type)
  | request (i : ι) (now : Nat) (drawn : Vector UInt8 32)
  | handler (i : ι) (device : δ)
  | background (device : δ)

namespace WebState

variable {Ip ι δ : Type} [DecidableEq Ip] [DecidableEq ι]

def start (device : δ) : WebState Ip ι δ :=
  ⟨0, RateLimit.newRateLimiter, LoginAttempts.newLoginAttempts, newSessions, device,
    fun _ => .arrived⟩

def goTo (i : ι) (pc : WebPc) (s : WebState Ip ι δ) : WebState Ip ι δ :=
  { s with pcs := Function.update s.pcs i pc }

def rateLimit (i : ι) (ip : Ip) (now : Nat) (s : WebState Ip ι δ) : WebState Ip ι δ :=
  let limited := RateLimit.isRateLimited s.limiter ip now
  { s with limiter := limited.2 }.goTo i
    (if limited.1 then .answered .tooManyRequests else .counted)

def requireAuth (i : ι) (cookie : Option HeaderValue) (now : Nat) (s : WebState Ip ι δ) :
    WebState Ip ι δ :=
  match cookie.bind extractSessionCookie with
  | some token =>
    let checked := sessionValid s.sessions token now
    { s with sessions := checked.2 }.goTo i (if checked.1 then .letIn else .answered .toLogin)
  | none => s.goTo i (.answered .toLogin)

def logoutPost (i : ι) (cookie : Option HeaderValue) (s : WebState Ip ι δ) : WebState Ip ι δ :=
  match cookie.bind extractSessionCookie with
  | some token =>
    { s with sessions := sessionRemove s.sessions token }.goTo i (.answered .loggedOut)
  | none => s.goTo i (.answered .loggedOut)

def loginPost (i : ι) (request : WebRequest Ip) (now : Nat) (s : WebState Ip ι δ) :
    WebState Ip ι δ :=
  match request.password with
  | some password =>
    s.goTo i (if LoginAttempts.isBanned s.attempts request.ip now then .answered .banned
      else .verifying password)
  | none => s.goTo i (.answered .badForm)

def isLogin (request : WebRequest Ip) : Bool :=
  request.route = some "/login".toList && request.method = "POST".toList

def isLogout (request : WebRequest Ip) : Bool :=
  request.route = some "/logout".toList && request.method = "POST".toList

def route (i : ι) (request : WebRequest Ip) (now : Nat) (s : WebState Ip ι δ) :
    WebState Ip ι δ :=
  match request.route.bind access with
  | none => s.goTo i (.answered .notFound)
  | some .everyone =>
    if isLogin request then s.loginPost i request now
    else if isLogout request then s.logoutPost i request.cookie
    else s.goTo i (.answered .page)
  | some _ => s.requireAuth i request.cookie now

def featureOn (host : WebHost δ) (request : WebRequest Ip) (device : δ) : Bool :=
  match request.route.bind access with
  | some .monitor => (host.features device).monitor
  | some .adblock => (host.features device).adblock
  | _ => true

def requireEnabled (host : WebHost δ) (i : ι) (request : WebRequest Ip) (s : WebState Ip ι δ) :
    WebState Ip ι δ :=
  s.goTo i (if featureOn host request s.device then .handling else .answered .notFound)

def requestStep (host : WebHost δ) (i : ι) (request : WebRequest Ip) (now : Nat)
    (drawn : Vector UInt8 32) (s : WebState Ip ι δ) : Option (WebState Ip ι δ) :=
  match s.pcs i with
  | .arrived => some (s.rateLimit i request.ip now)
  | .counted => some (s.route i request now)
  | .letIn => some (s.requireEnabled host i request)
  | .handling => some (s.goTo i (.answered .handled))
  | .verifying password =>
    some (s.goTo i (if host.verify s.device password then .succeeded password else .failing))
  | .succeeded password =>
    some ({ s with attempts := LoginAttempts.recordSuccess s.attempts request.ip }.goTo i
      (.upgrading password))
  | .upgrading password =>
    some ({ s with device := host.maybeUpgradeHash password s.device }.goTo i .creating)
  | .creating =>
    let created := sessionCreate s.sessions drawn now
    some ({ s with sessions := created.2 }.goTo i (.answered (.loggedIn created.1)))
  | .failing =>
    some ({ s with attempts := LoginAttempts.recordFailure s.attempts request.ip now }.goTo i
      (.answered .failed))
  | .answered _ => none

/-- The clock does not go back. -/
def step (host : WebHost δ) (requests : ι → WebRequest Ip) (s : WebState Ip ι δ) :
    WebEvent ι δ → Option (WebState Ip ι δ)
  | .request i now drawn =>
    if s.clock ≤ now then
      (s.requestStep host i (requests i) now drawn).map fun s => { s with clock := now }
    else none
  | .handler i device => if s.pcs i = .handling then some { s with device := device } else none
  | .background device => some { s with device := device }

end WebState

end TinyWifi
