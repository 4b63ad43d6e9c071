import TinyWifi.Lib.Ipv4
import TinyWifi.Safety
import TinyWifi.Wan

/-! `wan_post`: the WAN config is saved and then applied. The checks of a static address are part of
applying it. -/

namespace TinyWifi

open Text Exec Checks

structure CommandOutput where
  success : Bool
  stdout : Str
  stderr : Str
  deriving DecidableEq, Repr

/-- What a request does to the host besides its own config file. -/
inductive WanAction
  | run (argv : List Str)
  | writeResolv
  deriving DecidableEq, Repr

structure WanHost where
  fs : Fs
  issued : List WanAction

structure WanEnv where
  createDir : Except IoError Unit
  writeConf : WriteOutcome
  command : List Str → Except IoError CommandOutput
  spawnPppd : Except IoError Unit
  writeResolv : WriteOutcome

namespace WanApply

def wanConfPath : Path := "/etc/tinywifi/wan.conf".toList
def resolvPath : Path := "/etc/resolv.conf".toList

section Commands

def onWanFiles {ε : Type} (x : Exec Fs ε Unit) : Exec WanHost ε Unit := fun host =>
  ((outcome x host.fs).1, { host with fs := (outcome x host.fs).2 })

def issue {ε : Type} (action : WanAction) : Exec WanHost ε Unit :=
  modify fun host => { host with issued := host.issued ++ [action] }

def ip : Str := "ip".toList

def linkUp (iface : Str) : List Str := [ip, "link".toList, "set".toList, iface, "up".toList]

def addrFlush (iface : Str) : List Str := [ip, "addr".toList, "flush".toList, "dev".toList, iface]

def addrAdd (addr iface : Str) : List Str :=
  [ip, "addr".toList, "add".toList, addr, "dev".toList, iface]

def routeDel : List Str := [ip, "route".toList, "del".toList, "default".toList]

def routeAdd (gw iface : Str) : List Str :=
  [ip, "route".toList, "add".toList, "default".toList, "via".toList, gw, "dev".toList, iface]

def udhcpc (iface : Str) : List Str :=
  ["udhcpc".toList, "-i".toList, iface, "-t".toList, "15".toList, "-n".toList, "-q".toList]

variable (env : WanEnv)

def output (argv : List Str) : Exec WanHost IoError CommandOutput := do
  issue (.run argv)
  reading fun _ => env.command argv

def run (argv : List Str) : Exec WanHost Str Unit := do
  let out ← mapError (fun e => argv.headD [] ++ ": ".toList ++ e.message) (output env argv)
  if out.success then pure () else throw (trim out.stderr)

end Commands

section Apply

variable (env : WanEnv) (config : WanConfig)

def save : Exec WanHost IoError Unit := do
  reading fun _ => env.createDir
  onWanFiles (writeFile env.writeConf wanConfPath (encode config.toConf))

def applyPpp : Exec WanHost Str Unit := do
  attempt (output env ["killall".toList, "pppd".toList])
  issue (.run ["pppd".toList, "call".toList, "gprs".toList])
  reading fun _ => env.spawnPppd.mapError fun e => "pppd: ".toList ++ e.message

def applyDhcp : Exec WanHost Str Unit := do
  attempt (output env ["killall".toList, "udhcpc".toList])
  let out ← mapError (fun e => "udhcpc: ".toList ++ e.message)
    (output env (udhcpc config.interface))
  if out.success then pure ()
  else if trim out.stderr = [] then throw (trim out.stdout)
  else throw (trim out.stderr)

/-- The checks of `apply_static`: the address and the gateway to go on with. -/
def checkStatic : Except Str (Str × Str) := do
  let addr ← okOr config.address "address is required for static mode".toList
  let gw ← okOr config.gateway "gateway is required for static mode".toList
  let (ip_part, _) ← okOr (splitOnce '/' addr)
    "address must be in CIDR notation (x.x.x.x/n)".toList
  let _ ← okOr (Ipv4Addr.parse ip_part) "invalid IP address".toList
  let _ ← okOr (Ipv4Addr.parse gw) "invalid gateway".toList
  return (addr, gw)

def resolvConf (dns : List Str) : Str :=
  (dns.filter (· ≠ [])).flatMap fun d => "nameserver ".toList ++ d ++ ['\n']

def writeDns : Exec WanHost Str Unit :=
  match config.dns with
  | none => pure ()
  | some dns =>
    if resolvConf dns = [] then pure ()
    else do
      issue .writeResolv
      mapError (fun e => "resolv.conf: ".toList ++ e.message)
        (onWanFiles (writeFile env.writeResolv resolvPath (encode (resolvConf dns))))

def applyStatic : Exec WanHost Str Unit := do
  let (addr, gw) ← reading fun _ => checkStatic config
  run env (addrFlush config.interface)
  run env (addrAdd addr config.interface)
  attempt (output env routeDel)
  run env (routeAdd gw config.interface)
  writeDns env config

def applyWan : Exec WanHost Str Unit := do
  attempt (output env ["modprobe".toList, "r8152".toList])
  if config.mode = .ppp then pure () else run env (linkUp config.interface)
  match config.mode with
  | .dhcp => applyDhcp env config
  | .static => applyStatic env config
  | .ppp => applyPpp env

def wanPost : Exec WanHost ApiError Unit := do
  mapError (fun e => ⟨500, e.message⟩) (save env config)
  mapError (fun e => ⟨500, e⟩) (applyWan env config)

end Apply

/-- Dotted address, `/`, and a decimal prefix length up to 32. -/
def IsCidr (addr : Str) : Prop :=
  ∃ ip length, addr = ip ++ '/' :: length ∧ (Ipv4Addr.parse ip).isSome ∧
    ∃ n, digits length = some n ∧ n ≤ 32

def ValidStatic (config : WanConfig) : Prop :=
  (∃ addr, config.address = some addr ∧ IsCidr addr) ∧
    ∃ gw, config.gateway = some gw ∧ (Ipv4Addr.parse gw).isSome

/-- Address flush, address add, route delete and `resolv.conf`. -/
def Destructive : WanAction → Prop
  | .run argv => [ip, "addr".toList, "flush".toList] <+: argv ∨
      [ip, "addr".toList, "add".toList] <+: argv ∨ [ip, "route".toList, "del".toList] <+: argv
  | .writeResolv => True

/-- The request is answered with an error, and nothing has changed. -/
def ChangesNothing (env : WanEnv) (config : WanConfig) (fs : Fs) : Prop :=
  ∃ e host, outcome (wanPost env config) ⟨fs, []⟩ = (.error e, host) ∧
    host.fs wanConfPath = fs wanConfPath ∧ ∀ action ∈ host.issued, ¬ Destructive action

def LinkFails (env : WanEnv) (config : WanConfig) : Prop :=
  ∀ out, env.command (linkUp config.interface) = .ok out → out.success = false

/-- Everything but the length of the prefix is right. -/
def OnlyLengthWrong (config : WanConfig) : Prop :=
  (∃ ip length, config.address = some (ip ++ '/' :: length) ∧ (Ipv4Addr.parse ip).isSome ∧
    ∀ n, digits length = some n → 32 < n) ∧
  ∃ gw, config.gateway = some gw ∧ (Ipv4Addr.parse gw).isSome

/-- The config is not saved, or the file had its text before; and what is applied next stops before
the address is flushed. -/
def Spared (env : WanEnv) (config : WanConfig) (fs : Fs) : Prop :=
  env.createDir ≠ .ok () ∨
    match env.writeConf with
    | .refused _ => True
    | .cut kept _ => fs wanConfPath = some ((encode config.toConf).extract 0 kept)
    | .done => fs wanConfPath = some (encode config.toConf) ∧
        (LinkFails env config ∨ ¬ OnlyLengthWrong config)

section Checks

variable {config : WanConfig}

theorem no_slash_of_parse {s : Str} (h : (Ipv4Addr.parse s).isSome) : '/' ∉ s := by
  rcases Option.isSome_iff_exists.mp h with ⟨ip, parsed⟩
  intro slash
  rcases Ipv4Addr.digit_or_dot_of_parse parsed slash with digit | dot
  · cases digit
  · cases dot

theorem checkStatic_eq_ok {addr gw : Str} : checkStatic config = .ok (addr, gw) ↔
    config.address = some addr ∧ config.gateway = some gw ∧
      (∃ ip length, splitOnce '/' addr = some (ip, length) ∧ (Ipv4Addr.parse ip).isSome) ∧
      (Ipv4Addr.parse gw).isSome := by
  simp only [checkStatic, bind_eq_ok, okOr_eq_ok, pure_eq_ok, Prod.mk.injEq, Prod.exists]
  constructor
  · intro checks
    rcases checks with
      ⟨_, address, _, gateway, ip, length, split, ip_ok, parsed, gw_ok, gw_parsed, rfl, rfl⟩
    exact ⟨address, gateway, ⟨ip, length, split, Option.isSome_of_eq_some parsed⟩,
      Option.isSome_of_eq_some gw_parsed⟩
  · intro holds
    rcases holds with ⟨address, gateway, ⟨ip, length, split, ip_ok⟩, gw_ok⟩
    rcases Option.isSome_iff_exists.mp ip_ok with ⟨ip_addr, parsed⟩
    rcases Option.isSome_iff_exists.mp gw_ok with ⟨gw_addr, gw_parsed⟩
    exact ⟨addr, address, gw, gateway, ip, length, split, ip_addr, parsed, gw_addr, gw_parsed,
      rfl, rfl⟩

/-- The checks look at all of the address but the length of its prefix. -/
theorem checked_iff (invalid : ¬ ValidStatic config) :
    (∃ parts, checkStatic config = .ok parts) ↔ OnlyLengthWrong config := by
  constructor
  · intro checked
    rcases checked with ⟨⟨addr, gw⟩, passed⟩
    rcases checkStatic_eq_ok.mp passed with ⟨address, gateway, ⟨ip, length, split, ip_ok⟩, gw_ok⟩
    have whole := (splitOnce_eq_some split).1
    refine ⟨⟨ip, length, by rw [address, whole], ip_ok, ?_⟩, gw, gateway, gw_ok⟩
    intro n number
    by_contra small
    have valid : ValidStatic config := by
      refine ⟨⟨addr, address, ip, length, whole, ip_ok, n, number, ?_⟩, gw, gateway, gw_ok⟩
      omega
    exact invalid valid
  · intro wrong
    rcases wrong with ⟨⟨ip, length, address, ip_ok, _⟩, gw, gateway, gw_ok⟩
    have split := splitOnce_append ip length (no_slash_of_parse ip_ok)
    exact ⟨(_, gw), checkStatic_eq_ok.mpr ⟨address, gateway, ⟨ip, length, split, ip_ok⟩, gw_ok⟩⟩

end Checks

section Steps

variable {env : WanEnv} {config : WanConfig}

def runAnswer (env : WanEnv) (argv : List Str) : Except Str Unit :=
  match env.command argv with
  | .error e => .error (argv.headD [] ++ ": ".toList ++ e.message)
  | .ok out => if out.success then .ok () else .error (trim out.stderr)

def issued (host : WanHost) (action : WanAction) : WanHost :=
  { host with issued := host.issued ++ [action] }

theorem outcome_output (env : WanEnv) (argv : List Str) (host : WanHost) :
    outcome (output env argv) host = (env.command argv, issued host (.run argv)) := by
  rw [output, outcome_bind]
  rfl

theorem outcome_run (env : WanEnv) (argv : List Str) (host : WanHost) :
    outcome (run env argv) host = (runAnswer env argv, issued host (.run argv)) := by
  rw [run, outcome_bind, outcome_mapError, outcome_output, runAnswer]
  cases env.command argv with
  | error e => rfl
  | ok out =>
      cases success : out.success with
      | false => simp [success]
      | true => simp [success]

theorem linkFails_iff : LinkFails env config ↔
    ∃ e, runAnswer env (linkUp config.interface) = .error e := by
  unfold LinkFails runAnswer
  cases env.command (linkUp config.interface) with
  | error e => simp
  | ok out =>
      cases success : out.success with
      | false => simp [success]
      | true => simp [success]

def Grows (before after : WanHost) : Prop := ∀ action ∈ before.issued, action ∈ after.issued

theorem Grows.refl (host : WanHost) : Grows host host := fun _ member => member

theorem Grows.trans (a b c : WanHost) (first : Grows a b) (second : Grows b c) : Grows a c :=
  fun action member => second action (first action member)

theorem grows_issued (host : WanHost) (action : WanAction) : Grows host (issued host action) :=
  fun _ member => List.mem_append_left _ member

theorem within_run (argv : List Str) : Within Grows (run env argv) := by
  intro host
  rw [outcome_run]
  exact grows_issued host (.run argv)

theorem within_onWanFiles {ε : Type} (x : Exec Fs ε Unit) : Within Grows (onWanFiles x) :=
  fun _ _ member => member

theorem within_writeDns : Within Grows (writeDns env config) := by
  unfold writeDns
  split
  · exact within_pure Grows.refl ()
  · refine within_ite (fun _ => within_pure Grows.refl ()) fun _ => ?_
    refine within_bind Grows.trans (within_modify fun host => grows_issued host .writeResolv) ?_
    exact fun _ => within_mapError (within_onWanFiles _)

theorem applyStatic_rejected {e : Str} (rejected : checkStatic config = .error e)
    (host : WanHost) : outcome (applyStatic env config) host = (.error e, host) := by
  rw [applyStatic, outcome_bind, outcome_reading, rejected]

theorem applyStatic_flushes {parts : Str × Str} (passed : checkStatic config = .ok parts)
    (host : WanHost) : .run (addrFlush config.interface) ∈
      (outcome (applyStatic env config) host).2.issued := by
  have rest : Within Grows (do
      run env (addrAdd parts.1 config.interface)
      attempt (output env routeDel)
      run env (routeAdd parts.2 config.interface)
      writeDns env config) := by
    refine within_bind Grows.trans (within_run _) fun _ => ?_
    refine within_bind Grows.trans (within_attempt ?_) fun _ => ?_
    · intro host
      rw [outcome_output]
      exact grows_issued host _
    · exact within_bind Grows.trans (within_run _) fun _ => within_writeDns
  have flushed : .run (addrFlush config.interface) ∈
      (issued host (.run (addrFlush config.interface))).issued :=
    List.mem_append_right _ (List.mem_singleton_self _)
  rw [applyStatic, outcome_bind, outcome_reading, passed]
  dsimp only
  rw [outcome_bind, outcome_run]
  cases runAnswer env (addrFlush config.interface) with
  | error e => exact flushed
  | ok u => exact rest _ _ flushed

def linked (config : WanConfig) (host : WanHost) : WanHost :=
  issued (issued host (.run ["modprobe".toList, "r8152".toList]))
    (.run (linkUp config.interface))

theorem outcome_applyWan (static : config.mode = .static) (host : WanHost) :
    outcome (applyWan env config) host =
      match runAnswer env (linkUp config.interface) with
      | .error e => (.error e, linked config host)
      | .ok () => outcome (applyStatic env config) (linked config host) := by
  rw [applyWan, outcome_bind, outcome_attempt, outcome_output]
  dsimp only
  rw [static, if_neg (by decide), outcome_bind, outcome_run]
  cases runAnswer env (linkUp config.interface) with
  | error e => rfl
  | ok u => rfl

theorem applyWan_stops (static : config.mode = .static)
    (stops : LinkFails env config ∨ ∀ parts, checkStatic config ≠ .ok parts) (host : WanHost) :
    ∃ e, outcome (applyWan env config) host = (.error e, linked config host) := by
  rw [outcome_applyWan static]
  cases link : runAnswer env (linkUp config.interface) with
  | error e => exact ⟨e, rfl⟩
  | ok u =>
      cases check : checkStatic config with
      | error e => exact ⟨e, applyStatic_rejected check _⟩
      | ok parts =>
          rcases stops with link_fails | rejected
          · rcases linkFails_iff.mp link_fails with ⟨e, failed⟩
            rw [link] at failed
            cases failed
          · exact absurd check (rejected parts)

theorem applyWan_flushes (static : config.mode = .static) (link : ¬ LinkFails env config)
    {parts : Str × Str} (passed : checkStatic config = .ok parts) (host : WanHost) :
    .run (addrFlush config.interface) ∈ (outcome (applyWan env config) host).2.issued := by
  rw [outcome_applyWan static]
  cases answer : runAnswer env (linkUp config.interface) with
  | error e => exact absurd (linkFails_iff.mpr ⟨e, answer⟩) link
  | ok u => exact applyStatic_flushes passed _

theorem linked_not_destructive {fs : Fs} :
    ∀ action ∈ (linked config ⟨fs, []⟩).issued, ¬ Destructive action := by
  intro action member
  simp only [linked, issued, List.nil_append, List.cons_append, List.mem_cons, List.not_mem_nil,
    or_false] at member
  rcases member with rfl | rfl
  · simp [Destructive, ip, List.cons_prefix_cons]
  · simp [Destructive, ip, linkUp, List.cons_prefix_cons]

theorem destructive_flush : Destructive (.run (addrFlush config.interface)) :=
  .inl ⟨["dev".toList, config.interface], rfl⟩

end Steps

section Post

variable {env : WanEnv} {config : WanConfig} {fs : Fs}

theorem changesNothing_of_error {e : ApiError} {host : WanHost}
    (answered : outcome (wanPost env config) ⟨fs, []⟩ = (.error e, host)) :
    ChangesNothing env config fs ↔
      host.fs wanConfPath = fs wanConfPath ∧ ∀ action ∈ host.issued, ¬ Destructive action := by
  constructor
  · intro holds
    rcases holds with ⟨_, _, shown, kept, harmless⟩
    rw [answered] at shown
    rw [(Prod.mk.inj shown).2]
    exact ⟨kept, harmless⟩
  · intro holds
    exact ⟨e, host, answered, holds⟩

theorem wanPost_unsaved {e : IoError} {host : WanHost}
    (failed : outcome (save env config) ⟨fs, []⟩ = (.error e, host)) :
    outcome (wanPost env config) ⟨fs, []⟩ = (.error ⟨500, e.message⟩, host) := by
  rw [wanPost, outcome_bind, outcome_mapError, failed]

theorem wanPost_saved (created : env.createDir = .ok ()) (written : env.writeConf = .done) :
    outcome (wanPost env config) ⟨fs, []⟩ =
      outcome (mapError (fun e => (⟨500, e⟩ : ApiError)) (applyWan env config))
        ⟨put wanConfPath (encode config.toConf) fs, []⟩ := by
  have saved : outcome (save env config) ⟨fs, []⟩ =
      (.ok (), ⟨put wanConfPath (encode config.toConf) fs, []⟩) := by
    rw [save, outcome_bind, outcome_reading, created, written]
    rfl
  rw [wanPost, outcome_bind, outcome_mapError, saved]

/-- Saved, and then applied as far as the link and the checks let it. -/
theorem saved_changesNothing_iff (static : config.mode = .static) (invalid : ¬ ValidStatic config)
    (created : env.createDir = .ok ()) (written : env.writeConf = .done) :
    ChangesNothing env config fs ↔ fs wanConfPath = some (encode config.toConf) ∧
      (LinkFails env config ∨ ¬ OnlyLengthWrong config) := by
  have post := @wanPost_saved env config fs created written
  by_cases stops : LinkFails env config ∨ ¬ OnlyLengthWrong config
  · have stopped : LinkFails env config ∨ ∀ parts, checkStatic config ≠ .ok parts := by
      refine stops.imp_right fun other parts passed => ?_
      exact other ((checked_iff invalid).mp ⟨parts, passed⟩)
    rcases applyWan_stops static stopped ⟨put wanConfPath (encode config.toConf) fs, []⟩ with
      ⟨e, applied⟩
    rw [outcome_mapError, applied] at post
    have same : (linked config ⟨put wanConfPath (encode config.toConf) fs, []⟩).fs wanConfPath =
        some (encode config.toConf) := put_self wanConfPath (encode config.toConf) fs
    rw [changesNothing_of_error post, same]
    constructor
    · exact fun kept => ⟨kept.1.symm, stops⟩
    · exact fun kept => ⟨kept.1.symm, linked_not_destructive⟩
  · refine iff_of_false ?_ fun kept => stops kept.2
    intro holds
    rw [not_or, not_not] at stops
    rcases (checked_iff invalid).mpr stops.2 with ⟨parts, passed⟩
    rcases holds with ⟨e, host, answered, _, harmless⟩
    have flushed := applyWan_flushes static stops.1 passed
      ⟨put wanConfPath (encode config.toConf) fs, []⟩
    rw [← mapError_state, ← post, answered] at flushed
    exact harmless _ flushed destructive_flush

/-- An invalid static request changes nothing exactly when saving it makes no difference and what
follows stops before the flush. -/
theorem changesNothing_iff (static : config.mode = .static) (invalid : ¬ ValidStatic config) :
    ChangesNothing env config fs ↔ Spared env config fs := by
  unfold Spared
  cases created : env.createDir with
  | error e =>
      have failed : outcome (save env config) ⟨fs, []⟩ = (.error e, ⟨fs, []⟩) := by
        rw [save, outcome_bind, outcome_reading, created]
      rw [changesNothing_of_error (wanPost_unsaved failed)]
      simp
  | ok u =>
      cases written : env.writeConf with
      | done =>
          rw [saved_changesNothing_iff static invalid created written]
          simp
      | refused e =>
          have failed : outcome (save env config) ⟨fs, []⟩ = (.error e, ⟨fs, []⟩) := by
            rw [save, outcome_bind, outcome_reading, created, written]
            rfl
          rw [changesNothing_of_error (wanPost_unsaved failed)]
          simp
      | cut kept e =>
          have failed : outcome (save env config) ⟨fs, []⟩ =
              (.error e, ⟨put wanConfPath ((encode config.toConf).extract 0 kept) fs, []⟩) := by
            rw [save, outcome_bind, outcome_reading, created, written]
            rfl
          rw [changesNothing_of_error (wanPost_unsaved failed)]
          simp [eq_comm]

end Post

def willing : WanEnv := ⟨.ok (), .done, fun _ => .ok ⟨true, [], []⟩, .ok (), .done⟩

def withoutAddress : WanConfig :=
  ⟨"eth0".toList, .static, none, some "10.0.0.1".toList, none⟩

theorem withoutAddress_invalid : ¬ ValidStatic withoutAddress := by
  intro valid
  rcases valid.1 with ⟨addr, address, _⟩
  cases address

theorem withoutAddress_not_onlyLength : ¬ OnlyLengthWrong withoutAddress := by
  intro wrong
  rcases wrong.1 with ⟨ip, length, address, _⟩
  cases address

theorem resent_changesNothing :
    ChangesNothing willing withoutAddress (oneFile wanConfPath withoutAddress.toConf) :=
  (changesNothing_iff rfl withoutAddress_invalid).mpr
    (.inr ⟨put_self wanConfPath (encode withoutAddress.toConf) _,
      .inr withoutAddress_not_onlyLength⟩)

/-- The config without an address is in the file after the request was answered with an error. -/
theorem invalid_is_saved :
    ¬ ValidStatic withoutAddress ∧ ¬ ChangesNothing willing withoutAddress fun _ => none := by
  refine ⟨withoutAddress_invalid, ?_⟩
  rw [saved_changesNothing_iff rfl withoutAddress_invalid rfl rfl]
  intro kept
  cases kept.1

end WanApply

end TinyWifi
