import TinyWifi.Lib.Runs
import TinyWifi.NanoDns

/-! `adblock.rs`: blocking over the nanodns settings, and its web handler. What is reported of it is
an on-off switch with a response, of which the config keeps the response only while it is on. -/

namespace TinyWifi

open Text Exec Checks Runs

def blocklistPath : Path := "/etc/nanodns/blocklist".toList

structure AdblockStatus where
  enabled : Bool
  domainCount : Nat
  lastUpdated : Option UInt64
  blockResponse : Str
  deriving DecidableEq, Repr

structure AdblockToggleBody where
  enabled : Bool
  blockResponse : Option Str
  deriving DecidableEq, Repr

structure AdblockEnv where
  readable : Bool
  update : FileEnv
  deriving DecidableEq, Repr

def AdblockEnv.willing : AdblockEnv := ⟨true, .willing⟩

section Model

/-- The lines of the list that name a domain; a line that is not UTF-8 is passed over. -/
def countDomains (path : Path) (fs : Fs) : Nat :=
  match fs path with
  | none => 0
  | some bytes =>
    let physical := (bytes.toList.splitOn 10).filterMap fun line => decode ⟨line.toArray⟩
    physical.countP fun line => trim line ≠ [] ∧ (trim line).head? ≠ some '#'

def adblockStatus (readable : Bool) (modified : Option UInt64) (confPath : Path) (fs : Fs) :
    AdblockStatus :=
  let settings := (getDnsSettings readable confPath fs).toOption.getD default
  { enabled := settings.blockFile.isSome
    domainCount := countDomains blocklistPath fs
    lastUpdated := modified
    blockResponse := settings.blockResponse }

def adblockSet (env : AdblockEnv) (confPath : Path) (change : NanoDnsSettings → NanoDnsSettings) :
    Exec Fs Str Unit := do
  let settings ← mapError DnsError.display (reading (getDnsSettings env.readable confPath))
  mapError DnsError.display (updateDnsSettings env.update confPath (change settings))

def adblockEnable (env : AdblockEnv) (confPath : Path) : Exec Fs Str Unit :=
  adblockSet env confPath fun settings => { settings with blockFile := some blocklistPath }

def adblockDisable (env : AdblockEnv) (confPath : Path) : Exec Fs Str Unit :=
  adblockSet env confPath fun settings => { settings with blockFile := none }

def adblockSetResponse (env : AdblockEnv) (confPath : Path) (response : Str) : Exec Fs Str Unit :=
  adblockSet env confPath fun settings => { settings with blockResponse := response }

/-- The download that may follow writes the list of domains and not the config. -/
def adblockPost (response toggle : AdblockEnv) (confPath : Path) (body : AdblockToggleBody) :
    Exec Fs ApiError Unit := do
  match body.blockResponse with
  | some resp => mapError (ApiError.mk 500) (adblockSetResponse response confPath resp)
  | none => pure ()
  if body.enabled then mapError (ApiError.mk 500) (adblockEnable toggle confPath)
  else mapError (ApiError.mk 500) (adblockDisable toggle confPath)

end Model

structure Blocking where
  enabled : Bool
  response : Str
  deriving DecidableEq, Repr

namespace Blocking

def sinkhole : Str := "0.0.0.0".toList

/-- While blocking is off no response is kept. -/
def settle (b : Blocking) : Blocking := if b.enabled then b else ⟨false, sinkhole⟩

def respond (given : Option Str) (b : Blocking) : Blocking :=
  match given with
  | some response => settle { b with response := response }
  | none => b

def step (b : Blocking) (body : AdblockToggleBody) : Blocking :=
  settle { respond body.blockResponse b with enabled := body.enabled }

end Blocking

namespace Adblock

def lastGiven (bodies : List AdblockToggleBody) : Option Str :=
  bodies.reverse.findSome? AdblockToggleBody.blockResponse

def onAfter (on : Bool) (bodies : List AdblockToggleBody) : Bool :=
  (bodies.getLast?.map AdblockToggleBody.enabled).getD on

/-- Blocking is on before the request that gives the last response, and from there to the end; if
none is given, it is never turned off. -/
def OnSince (on : Bool) (bodies : List AdblockToggleBody) : Prop :=
  ((∀ body ∈ bodies, body.blockResponse = none) ∧ ∀ body ∈ bodies, body.enabled = true) ∨
  ∃ front body back, bodies = front ++ body :: back ∧ body.blockResponse ≠ none ∧
    (∀ later ∈ back, later.blockResponse = none) ∧ onAfter on front = true ∧
    ∀ later ∈ body :: back, later.enabled = true

section Toggle

variable (on : Bool) (front : List AdblockToggleBody) (body : AdblockToggleBody)

@[simp] theorem onAfter_concat : onAfter on (front ++ [body]) = body.enabled := by
  simp [onAfter]

theorem lastGiven_concat :
    lastGiven (front ++ [body]) = body.blockResponse.or (lastGiven front) := by
  rw [lastGiven, List.reverse_append, List.reverse_singleton, List.singleton_append,
    List.findSome?_cons]
  cases body.blockResponse with
  | none => rfl
  | some response => rfl

theorem forall_mem_concat {P : AdblockToggleBody → Prop} :
    (∀ b ∈ front ++ [body], P b) ↔ (∀ b ∈ front, P b) ∧ P body := by
  rw [List.forall_mem_append, List.forall_mem_singleton]

theorem onSince_concat :
    OnSince on (front ++ [body]) ↔ body.enabled = true ∧
      if body.blockResponse = none then OnSince on front else onAfter on front = true := by
  constructor
  · intro either
    rcases either with ⟨silent, all⟩ | ⟨before, first, back, split, given, silent, started, all⟩
    · rw [forall_mem_concat] at silent all
      rw [if_pos silent.2]
      exact ⟨all.2, .inl ⟨silent.1, all.1⟩⟩
    · rcases List.eq_nil_or_concat back with rfl | ⟨middle, last, rfl⟩
      · rcases List.append_inj' split rfl with ⟨rfl, same⟩
        cases same
        rw [if_neg given]
        exact ⟨all body List.mem_cons_self, started⟩
      · have whole : front ++ [body] = (before ++ first :: middle) ++ [last] := by
          simpa using split
        rcases List.append_inj' whole rfl with ⟨rfl, same⟩
        cases same
        rw [List.concat_eq_append, ← List.cons_append] at all
        rw [List.concat_eq_append] at silent
        rw [forall_mem_concat] at silent all
        rw [if_pos silent.2]
        exact ⟨all.2, .inr ⟨before, first, middle, rfl, given, silent.1, started, all.1⟩⟩
  · intro holds
    rcases holds with ⟨enabled, rest⟩
    by_cases quiet : body.blockResponse = none
    · rw [if_pos quiet] at rest
      rcases rest with ⟨silent, all⟩ | ⟨before, first, back, rfl, given, silent, started, all⟩
      · left
        rw [forall_mem_concat, forall_mem_concat]
        exact ⟨⟨silent, quiet⟩, all, enabled⟩
      · refine .inr ⟨before, first, back ++ [body], by simp, given, ?_, started, ?_⟩
        · rw [forall_mem_concat]
          exact ⟨silent, quiet⟩
        · rw [← List.cons_append, forall_mem_concat]
          exact ⟨all, enabled⟩
    · rw [if_neg quiet] at rest
      refine .inr ⟨front, body, [], rfl, quiet, List.forall_mem_nil _, rest, ?_⟩
      rw [List.forall_mem_singleton]
      exact enabled

end Toggle

section Switch

variable (b : Blocking)

theorem enabled_settle : b.settle.enabled = b.enabled := by
  unfold Blocking.settle
  split
  · rfl
  · next off => simpa using off

@[simp] theorem enabled_step (body : AdblockToggleBody) : (b.step body).enabled = body.enabled :=
  enabled_settle _

theorem response_settle : b.settle.response = if b.enabled then b.response else Blocking.sinkhole :=
  apply_ite Blocking.response _ _ _

theorem enabled_run (bodies : List AdblockToggleBody) :
    (run Blocking.step b bodies).enabled = onAfter b.enabled bodies := by
  rcases List.eq_nil_or_concat bodies with rfl | ⟨front, body, rfl⟩
  · rfl
  · rw [List.concat_eq_append, run_concat, onAfter_concat, enabled_step]

theorem response_run (bodies : List AdblockToggleBody) :
    (OnSince b.enabled bodies →
      (run Blocking.step b bodies).response = (lastGiven bodies).getD b.response) ∧
    (¬ OnSince b.enabled bodies → (run Blocking.step b bodies).response = Blocking.sinkhole) := by
  induction bodies using List.reverseRecOn with
  | nil =>
      have start : OnSince b.enabled [] := .inl ⟨List.forall_mem_nil _, List.forall_mem_nil _⟩
      exact ⟨fun _ => rfl, fun broken => absurd start broken⟩
  | append_singleton front body ih =>
      rw [onSince_concat, run_concat, lastGiven_concat, Blocking.step, response_settle]
      by_cases enabled : body.enabled = true
      · rw [if_pos enabled]
        cases given : body.blockResponse with
        | none =>
            rw [if_pos rfl]
            exact ⟨fun kept => ih.1 kept.2, fun broken => ih.2 fun kept => broken ⟨enabled, kept⟩⟩
        | some response =>
            rw [if_neg (by simp), ← enabled_run]
            change (_ → (Blocking.settle _).response = response) ∧
              (_ → (Blocking.settle _).response = _)
            rw [response_settle]
            exact ⟨fun kept => if_pos kept.2, fun broken => if_neg fun on => broken ⟨enabled, on⟩⟩
      · rw [if_neg enabled]
        exact ⟨fun kept => absurd kept.1 enabled, fun _ => rfl⟩

/-- The response survives exactly when it is the sinkhole, or blocking has been on since. -/
theorem response_run_iff (bodies : List AdblockToggleBody) :
    (run Blocking.step b bodies).response = (lastGiven bodies).getD b.response ↔
      (lastGiven bodies).getD b.response = Blocking.sinkhole ∨ OnSince b.enabled bodies := by
  by_cases kept : OnSince b.enabled bodies
  · exact ⟨fun _ => .inr kept, fun _ => (response_run b bodies).1 kept⟩
  · rw [(response_run b bodies).2 kept]
    exact ⟨fun same => .inl same.symm, fun either => (either.resolve_right kept).symm⟩

end Switch

section Reread

open NanoDnsConf

/-- The strings can stand in a line, and the response reads back as it is. -/
structure Printable (settings : NanoDnsSettings) : Prop where
  domain : '\n' ∉ settings.domain
  routerName : '\n' ∉ settings.routerName
  upstreams : ∀ up ∈ settings.upstreams, '\n' ∉ up
  blockFile : ∀ file ∈ settings.blockFile, '\n' ∉ file
  response : '\n' ∉ settings.blockResponse
  trimmed : trim settings.blockResponse = settings.blockResponse

def unblocked (settings : NanoDnsSettings) (conf : NanoDnsConf) : NanoDnsConf :=
  let conf := (conf.set keyDomain settings.domain).set keyRouterName settings.routerName
  let conf := settings.upstreams.foldl (fun conf up => conf.append keyUpstream up)
    (conf.removeAll keyUpstream)
  (conf.removeAll keyBlockFile).removeAll keyBlockResponse

theorem allPrint_foldl (ups : List Str) (no_lf : ∀ up ∈ ups, '\n' ∉ up) {conf : NanoDnsConf}
    (h : AllPrint conf.lines) :
    AllPrint (ups.foldl (fun conf up => conf.append keyUpstream up) conf).lines := by
  induction ups generalizing conf with
  | nil => exact h
  | cons up rest ih =>
      rw [List.foldl_cons]
      apply ih fun other member => no_lf other (List.mem_cons_of_mem up member)
      exact h.append (by decide) (no_lf up List.mem_cons_self)

variable {settings : NanoDnsSettings} {conf : NanoDnsConf}

theorem allPrint_unblocked (h : AllPrint conf.lines) (printable : Printable settings) :
    AllPrint (unblocked settings conf).lines := by
  have set := (h.setLine (by decide : IsKey keyDomain) printable.domain).setLine
    (by decide : IsKey keyRouterName) printable.routerName
  have removed := set.sublist (@List.filter_sublist _ (fun line => !line.hasKey keyUpstream) _)
  have added := @allPrint_foldl settings.upstreams printable.upstreams ⟨_⟩ removed
  exact (added.sublist List.filter_sublist).sublist List.filter_sublist

theorem allPrint_withSettings (h : AllPrint conf.lines) (printable : Printable settings) :
    AllPrint (withSettings settings conf).lines := by
  have base := allPrint_unblocked h printable
  have file := printable.blockFile
  unfold withSettings
  cases shape : settings.blockFile with
  | none => exact base
  | some f =>
      rw [shape] at file
      exact (base.append (by decide) (file f rfl)).append (by decide) printable.response

theorem lookup_unblocked (settings : NanoDnsSettings) (conf : NanoDnsConf) :
    (directives (unblocked settings conf).lines).lookup keyBlockFile = none ∧
      (directives (unblocked settings conf).lines).lookup keyBlockResponse = none := by
  have differ : keyBlockFile ≠ keyBlockResponse := by decide
  unfold unblocked NanoDnsConf.removeAll
  dsimp only
  rw [directives_dropLines keyBlockResponse, directives_dropLines keyBlockFile,
    Directives.lookup_remove_ne differ]
  exact ⟨Directives.lookup_remove_self _ _, Directives.lookup_remove_self _ _⟩

theorem get_withSettings (settings : NanoDnsSettings) (conf : NanoDnsConf) :
    (withSettings settings conf).get keyBlockFile = settings.blockFile ∧
      (withSettings settings conf).get keyBlockResponse =
        settings.blockFile.map fun _ => settings.blockResponse := by
  rcases lookup_unblocked settings conf with ⟨file, response⟩
  rw [get_eq, get_eq]
  cases shape : settings.blockFile with
  | none =>
      have same : withSettings settings conf = unblocked settings conf := by
        rw [withSettings, shape]
        rfl
      rw [same]
      exact ⟨file, response⟩
  | some f =>
      have lines : directives (withSettings settings conf).lines =
          directives (unblocked settings conf).lines ++
            [(keyBlockFile, f), (keyBlockResponse, settings.blockResponse)] := by
        rw [withSettings, shape]
        change directives ((_ ++ [_]) ++ [_]) = _
        rw [directives_append, directives_append, List.append_assoc]
        rfl
      rw [lines, List.lookup_append, List.lookup_append, file, response]
      exact ⟨rfl, rfl⟩

def blockingOf (settings : NanoDnsSettings) : Blocking :=
  ⟨settings.blockFile.isSome, settings.blockResponse⟩

theorem blockingOf_reread (h : AllPrint conf.lines) (printable : Printable settings) :
    blockingOf (settingsOf (parse (withSettings settings conf).display)) =
      (blockingOf settings).settle := by
  have printed := allPrint_withSettings h printable
  have file := get_reread printed keyBlockFile
  have response := get_reread printed keyBlockResponse
  rw [(get_withSettings settings conf).1] at file
  rw [(get_withSettings settings conf).2] at response
  change Blocking.mk ((parse _).get keyBlockFile).isSome
    (((parse _).get keyBlockResponse).getD Blocking.sinkhole) = _
  rw [file, response, Blocking.settle, blockingOf]
  cases shape : settings.blockFile with
  | none => rfl
  | some f =>
      dsimp only [Option.map_some, Option.isSome_some, Option.getD_some]
      rw [printable.trimmed, if_pos rfl]

theorem mem_of_get {key v : Str} (found : conf.get key = some v) :
    Line.pair key v ∈ conf.lines := by
  rcases List.exists_of_findSome?_eq_some found with ⟨line, member, same⟩
  cases line with
  | raw text => cases same
  | pair k w =>
      dsimp only at same
      split at same
      · next equal =>
          cases same
          subst k
          exact member
      · cases same

theorem no_lf_of_pair {content key v : Str} (member : Line.pair key v ∈ (parse content).lines) :
    '\n' ∉ v := (allPrint_parse content _ member).2.1

theorem getD_of_values {content key fallback : Str} {P : Str → Prop} (default : P fallback)
    (values : ∀ v, Line.pair key v ∈ (parse content).lines → P v) :
    P (((parse content).get key).getD fallback) := by
  cases found : (parse content).get key with
  | none => exact default
  | some v => exact values v (mem_of_get found)

theorem printable_settingsOf (content : Str) : Printable (settingsOf (parse content)) where
  domain := getD_of_values (by decide) fun _ => no_lf_of_pair
  routerName := getD_of_values (by decide) fun _ => no_lf_of_pair
  upstreams := by
    intro up member
    rw [settingsOf, getAll_eq] at member
    rcases List.mem_map.mp member with ⟨⟨k, v⟩, inside, rfl⟩
    exact no_lf_of_pair ((mem_directives _ k v).mp (List.mem_of_mem_filter inside))
  blockFile := fun _ member => no_lf_of_pair (mem_of_get member)
  response := getD_of_values (by decide) fun _ => no_lf_of_pair
  trimmed := by
    apply getD_of_values (P := fun v => trim v = v) (by decide)
    intro v member
    rcases exists_of_mem_readTrimmed member with ⟨raw, rfl⟩
    exact trim_trim raw

end Reread

section Post

open NanoDnsConf

variable {path : Path} {fs fs' : Fs}

def blockingAt (path : Path) (fs : Fs) : Blocking :=
  blockingOf ((getDnsSettings true path fs).toOption.getD default)

theorem blockingAt_eq {content : Str} (found : contentOf fs path = some content) :
    blockingAt path fs = blockingOf (settingsOf (parse content)) := by
  have conf : fromPath true path fs = .ok (parse content) :=
    fromPath_eq_ok.mpr ⟨rfl, content, found, rfl⟩
  rw [blockingAt, getDnsSettings, conf]
  rfl

theorem adblockSet_ok {env : AdblockEnv} {change : NanoDnsSettings → NanoDnsSettings} :
    outcome (adblockSet env path change) fs = (.ok (), fs') ↔
      (env.readable = true ∧ env.update = .willing) ∧ ∃ content, contentOf fs path = some content ∧
        put path (encode (withSettings (change (settingsOf (parse content)))
          (parse content)).display) fs = fs' := by
  simp only [adblockSet, outcome_bind_ok, outcome_mapError_ok, outcome_reading, Prod.mk.injEq,
    getDnsSettings_eq_ok, updateDnsSettings, rewrite_ok, settingsEdit_eq_ok]
  constructor
  · rintro ⟨_, _, ⟨⟨readable, content, found, rfl⟩, rfl⟩, done, _,
      ⟨legible, writable, other, again, rfl⟩, same⟩
    rw [found, Option.some_inj] at again
    subst other
    have willing : env.update = .willing := by
      rcases env with ⟨_, ⟨_, _, _⟩⟩
      cases legible
      cases writable
      cases done
      rfl
    exact ⟨⟨readable, willing⟩, content, found, same⟩
  · intro holds
    rcases holds with ⟨⟨readable, willing⟩, content, found, same⟩
    rw [willing]
    exact ⟨_, fs, ⟨⟨readable, content, found, rfl⟩, rfl⟩, rfl, _,
      ⟨rfl, rfl, content, found, rfl⟩, same⟩

/-- The change leaves settings that can be written, and is this one on what is reported. -/
structure Changes (change : NanoDnsSettings → NanoDnsSettings) (b : Blocking → Blocking) :
    Prop where
  printable : ∀ settings, Printable settings → Printable (change settings)
  reported : ∀ settings, blockingOf (change settings) = b (blockingOf settings)

theorem Changes.blockingAt {env : AdblockEnv} {change : NanoDnsSettings → NanoDnsSettings}
    {b : Blocking → Blocking} (changes : Changes change b)
    (done : outcome (adblockSet env path change) fs = (.ok (), fs')) :
    blockingAt path fs' = (b (blockingAt path fs)).settle := by
  rcases adblockSet_ok.mp done with ⟨-, content, found, rfl⟩
  rw [Adblock.blockingAt_eq found, ← changes.reported,
    Adblock.blockingAt_eq (contentOf_put path _ fs)]
  exact blockingOf_reread (allPrint_parse content)
    (changes.printable _ (printable_settingsOf content))

theorem changes_file {file : Option Str} (no_lf : ∀ f ∈ file, '\n' ∉ f) :
    Changes (fun settings => { settings with blockFile := file })
      fun b => { b with enabled := file.isSome } where
  printable _ h := ⟨h.domain, h.routerName, h.upstreams, no_lf, h.response, h.trimmed⟩
  reported _ := rfl

theorem changes_response {response : Str} (no_lf : '\n' ∉ response)
    (trimmed : trim response = response) :
    Changes (fun settings => { settings with blockResponse := response })
      fun b => { b with response := response } where
  printable _ h := ⟨h.domain, h.routerName, h.upstreams, h.blockFile, no_lf, trimmed⟩
  reported _ := rfl

theorem blockingAt_toggle {env : AdblockEnv} {body : AdblockToggleBody}
    (done : outcome (if body.enabled then mapError (ApiError.mk 500) (adblockEnable env path)
      else mapError (ApiError.mk 500) (adblockDisable env path)) fs = (.ok (), fs')) :
    blockingAt path fs' = Blocking.settle { blockingAt path fs with enabled := body.enabled } := by
  cases on : body.enabled with
  | true =>
      rw [on, if_pos rfl] at done
      have file := @changes_file (some blocklistPath) (by decide)
      exact file.blockingAt (outcome_mapError_ok.mp done)
  | false =>
      rw [on, if_neg Bool.false_ne_true] at done
      have file := @changes_file none fun _ member => (by cases member)
      exact file.blockingAt (outcome_mapError_ok.mp done)

/-- One request does to what is reported what the switch does. -/
theorem blockingAt_post {response toggle : AdblockEnv} {body : AdblockToggleBody}
    (plain : ∀ given ∈ body.blockResponse, '\n' ∉ given ∧ trim given = given)
    (done : outcome (adblockPost response toggle path body) fs = (.ok (), fs')) :
    blockingAt path fs' = (blockingAt path fs).step body := by
  unfold adblockPost at done
  unfold Blocking.step
  cases given : body.blockResponse with
  | none =>
      rw [given] at done
      exact blockingAt_toggle done
  | some text =>
      rw [given] at done
      rcases outcome_bind_ok.mp done with ⟨_, middle, first, second⟩
      have clean := plain text given
      have answered := (changes_response clean.1 clean.2).blockingAt (outcome_mapError_ok.mp first)
      rw [blockingAt_toggle second, answered]
      rfl

end Post

structure Request where
  response : AdblockEnv
  toggle : AdblockEnv
  body : AdblockToggleBody
  deriving DecidableEq, Repr

def post (path : Path) (fs : Fs) (request : Request) : Except ApiError Unit × Fs :=
  outcome (adblockPost request.response request.toggle path request.body) fs

def step (path : Path) (fs : Fs) (request : Request) : Fs := (post path fs request).2

def Succeed (path : Path) (fs : Fs) (requests : List Request) : Prop :=
  Allowed (step path) (fun fs request => (post path fs request).1 = .ok ()) fs requests

def Plain (request : Request) : Prop :=
  ∀ given ∈ request.body.blockResponse, '\n' ∉ given ∧ trim given = given

/-- The status after the requests is enabled as the last one asks, and has the last response that
was given, or the one from before. -/
def Survives (before after : AdblockStatus) (bodies : List AdblockToggleBody) : Prop :=
  after.enabled = onAfter before.enabled bodies ∧
    after.blockResponse = (lastGiven bodies).getD before.blockResponse

section Run

variable {path : Path} {fs : Fs} {requests : List Request}

theorem blockingAt_run (succeed : Succeed path fs requests)
    (plain : ∀ request ∈ requests, Plain request) :
    blockingAt path (run (step path) fs requests) =
      run Blocking.step (blockingAt path fs) (requests.map Request.body) := by
  induction requests generalizing fs with
  | nil => rfl
  | cons request rest ih =>
      have first : outcome (adblockPost request.response request.toggle path request.body) fs =
          (.ok (), step path fs request) := Prod.ext succeed.1 rfl
      have followed := blockingAt_post (plain request List.mem_cons_self) first
      have later := ih succeed.2 fun other member => plain other (List.mem_cons_of_mem _ member)
      rw [followed] at later
      exact later

end Run

/-- Over a run of requests that succeed the response survives exactly when it is the sinkhole, or
blocking has been on since it was given. -/
theorem survives_iff {path : Path} {fs : Fs} {requests : List Request}
    (succeed : Succeed path fs requests) (plain : ∀ request ∈ requests, Plain request)
    (modified : Fs → Option UInt64) :
    let status fs := adblockStatus true (modified fs) path fs
    let bodies := requests.map Request.body
    Survives (status fs) (status (run (step path) fs requests)) bodies ↔
      (lastGiven bodies).getD (status fs).blockResponse = Blocking.sinkhole ∨
        OnSince (status fs).enabled bodies := by
  intro status bodies
  have followed := blockingAt_run succeed plain
  have enabled : (status (run (step path) fs requests)).enabled =
      onAfter (status fs).enabled bodies := by
    calc (status (run (step path) fs requests)).enabled
      _ = (blockingAt path (run (step path) fs requests)).enabled := rfl
      _ = (run Blocking.step (blockingAt path fs) bodies).enabled := by rw [followed]
      _ = onAfter (status fs).enabled bodies := enabled_run (blockingAt path fs) bodies
  have response : (status (run (step path) fs requests)).blockResponse =
      (run Blocking.step (blockingAt path fs) bodies).response := by
    change (blockingAt path (run (step path) fs requests)).response = _
    rw [followed]
  rw [Survives, and_iff_right enabled, response]
  exact response_run_iff (blockingAt path fs) bodies

section Willing

def willing (body : AdblockToggleBody) : Request := ⟨.willing, .willing, body⟩

variable {path : Path} {fs : Fs}

theorem adblockSet_willing {content : Str} (found : contentOf fs path = some content)
    (change : NanoDnsSettings → NanoDnsSettings) :
    ∃ text, outcome (adblockSet .willing path change) fs =
      (.ok (), put path (encode text) fs) :=
  ⟨_, adblockSet_ok.mpr ⟨⟨rfl, rfl⟩, content, found, rfl⟩⟩

theorem toggle_willing {content : Str} (found : contentOf fs path = some content)
    (enabled : Bool) :
    ∃ text, outcome (if enabled then mapError (ApiError.mk 500) (adblockEnable .willing path)
      else mapError (ApiError.mk 500) (adblockDisable .willing path) : Exec Fs ApiError Unit) fs =
        (.ok (), put path (encode text) fs) := by
  cases enabled with
  | true =>
      rcases adblockSet_willing found fun s => { s with blockFile := some blocklistPath } with
        ⟨text, done⟩
      exact ⟨text, outcome_mapError_ok.mpr done⟩
  | false =>
      rcases adblockSet_willing found fun s => { s with blockFile := none } with ⟨text, done⟩
      exact ⟨text, outcome_mapError_ok.mpr done⟩

theorem post_willing {content : Str} (found : contentOf fs path = some content)
    (body : AdblockToggleBody) :
    (post path fs (willing body)).1 = .ok () ∧
      ∃ text, contentOf (step path fs (willing body)) path = some text := by
  have ends : ∃ fs' text, post path fs (willing body) = (.ok (), put path (encode text) fs') := by
    unfold post willing adblockPost
    dsimp only
    cases body.blockResponse with
    | none =>
        rcases toggle_willing found body.enabled with ⟨text, done⟩
        exact ⟨fs, text, done⟩
    | some response =>
        rcases adblockSet_willing found fun s => { s with blockResponse := response } with
          ⟨first, responded⟩
        rcases toggle_willing (contentOf_put path first fs) body.enabled with ⟨text, done⟩
        exact ⟨_, text, outcome_bind_ok.mpr ⟨(), _, outcome_mapError_ok.mpr responded, done⟩⟩
  rcases ends with ⟨fs', text, done⟩
  rw [step, done]
  exact ⟨rfl, text, contentOf_put path text fs'⟩

theorem succeed_willing {content : Str} (found : contentOf fs path = some content)
    (bodies : List AdblockToggleBody) : Succeed path fs (bodies.map willing) := by
  induction bodies generalizing fs content with
  | nil => trivial
  | cons body rest ih =>
      rcases post_willing found body with ⟨done, text, next⟩
      exact ⟨done, ih next⟩

end Willing

def blocking : Str :=
  "block_file=/etc/nanodns/blocklist\nblock_response=NXDOMAIN\n".toList

theorem contentOf_blocking : contentOf (oneFile etcNanodns blocking) etcNanodns = some blocking :=
  contentOf_put etcNanodns blocking _

theorem blockingAt_blocking :
    blockingAt etcNanodns (oneFile etcNanodns blocking) = ⟨true, "NXDOMAIN".toList⟩ := by
  rw [blockingAt_eq contentOf_blocking]
  decide +kernel

def answered : List AdblockToggleBody := [⟨true, some "127.0.0.1".toList⟩, ⟨true, none⟩]

def offAndOn : List AdblockToggleBody := [⟨false, none⟩, ⟨true, none⟩]

theorem answered_survives :
    let status fs := adblockStatus true none etcNanodns fs
    Survives (status (oneFile etcNanodns blocking))
      (status (run (step etcNanodns) (oneFile etcNanodns blocking) (answered.map willing)))
      ((answered.map willing).map Request.body) := by
  have plain : ∀ request ∈ answered.map willing, Plain request := by
    unfold Plain
    decide
  have on : (blockingAt etcNanodns (oneFile etcNanodns blocking)).enabled = true := by
    rw [blockingAt_blocking]
  refine (survives_iff (succeed_willing contentOf_blocking answered) plain fun _ => none).mpr
    (.inr (.inr ⟨[], _, [⟨true, none⟩], rfl, by decide, by decide, on, by decide⟩))

/-- The response that was set before is gone. -/
theorem response_lost_by_toggle :
    let status fs := adblockStatus true none etcNanodns fs
    let after := run (step etcNanodns) (oneFile etcNanodns blocking) (offAndOn.map willing)
    Succeed etcNanodns (oneFile etcNanodns blocking) (offAndOn.map willing) ∧
      (∀ request ∈ offAndOn.map willing, Plain request) ∧
      ¬ Survives (status (oneFile etcNanodns blocking)) (status after) offAndOn := by
  have plain : ∀ request ∈ offAndOn.map willing, Plain request := by
    unfold Plain
    decide
  have succeed := succeed_willing contentOf_blocking offAndOn
  refine ⟨succeed, plain, fun survives => ?_⟩
  have followed := blockingAt_run succeed plain
  rw [blockingAt_blocking] at followed
  have before : (blockingAt etcNanodns (oneFile etcNanodns blocking)).response =
      "NXDOMAIN".toList := by rw [blockingAt_blocking]
  have kept : (blockingAt etcNanodns _).response =
      (lastGiven offAndOn).getD (blockingAt etcNanodns (oneFile etcNanodns blocking)).response :=
    survives.2
  rw [followed, before] at kept
  revert kept
  decide

end Adblock

end TinyWifi
