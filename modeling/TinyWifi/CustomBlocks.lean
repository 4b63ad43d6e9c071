import TinyWifi.BlocklistUpdate
import TinyWifi.Lib.Runs

/-! Custom rules over the life of the blocklist: additions, removals and refreshes of one file, one
after the other. -/

namespace TinyWifi

open Text Exec Runs

inductive BlockOp
  | add (system : WriteOutcome) (domain : Str)
  | remove (system : WriteOutcome) (domain : Str)
  | update (env : UpdateEnv)

namespace CustomBlocks

open Blocklist

def perform (u : UnicodeData) : BlockOp → Exec Fs Str Unit
  | .add system domain => addCustomBlock u system domain
  | .remove system domain => removeCustomBlock u system domain
  | .update env => do
    let _ ← updateBlocklist u env
    pure ()

def step (u : UnicodeData) (fs : Fs) (op : BlockOp) : Fs := (outcome (perform u op) fs).2

def Done (u : UnicodeData) (fs : Fs) (op : BlockOp) : Prop :=
  (outcome (perform u op) fs).1 = .ok ()

def Blocked (u : UnicodeData) (d : Str) (fs : Fs) : Prop := d ∈ readBlocklistLines u fs

def Removes (u : UnicodeData) (d : Str) : BlockOp → Prop
  | .remove _ domain => normalize u domain = d
  | _ => False

/-- The operation leaves the line of the domain: what is added is listed already, or the domain
stands on a line that is ended; a list that is downloaded has the domain. -/
def Spares (u : UnicodeData) (d : Str) (fs : Fs) : BlockOp → Prop
  | .add _ domain =>
    Blocked u (normalize u domain) fs ∨ d ∈ shown u (closedLines (blocklistBytes fs))
  | .remove _ _ => True
  | .update env => ∀ body, Fetched env body → Sinkholed u body d

/-- What can be added so that it is listed. -/
def Lists (u : UnicodeData) (domain : Str) (fs : Fs) : Prop :=
  Blocked u (normalize u domain) fs ∨ Appendable u domain (blocklistBytes fs)

section Step

variable {u : UnicodeData} {fs fs' : Fs} {d : Str}

theorem blocked_iff : Blocked u d fs ↔ d ∈ listed u (blocklistBytes fs) := by
  rw [Blocked, readBlocklistLines_eq]

theorem mem_listed_append {bytes : ByteArray} (member : d ∈ shown u (closedLines bytes))
    (more : ByteArray) : d ∈ listed u (bytes ++ more) := by
  rw [listed, physicalLines_append, shown_append]
  exact List.mem_append_left _ member

/-- After a refresh the domains of the list that was downloaded are blocked, and no others. -/
theorem blocked_update (lawful : u.Lawful) {env : UpdateEnv} {n : Nat}
    (done : outcome (updateBlocklist u env) fs = (.ok n, fs')) :
    ∃ body, Fetched env body ∧
      ∀ d, Blocked u d fs' ↔ Sinkholed u body d ∧ d.head? ≠ some '#' := by
  rcases updateBlocklist_ok.mp done with ⟨body, fetched, _, _, _, rfl⟩
  refine ⟨body, fetched, fun d => ?_⟩
  rw [blocked_iff, blocklistBytes_put, listed_hostsBytes lawful, List.mem_filter,
    mem_sort_downloaded, decide_eq_true_eq]

/-- An operation that succeeds, does not remove the domain and spares it keeps it. -/
theorem blocked_step (lawful : u.Lawful) {op : BlockOp} (blocked : Blocked u d fs)
    (kept : ¬ Removes u d op) (done : Done u fs op) (spares : Spares u d fs op) :
    Blocked u d (step u fs op) := by
  have ran : outcome (perform u op) fs = (.ok (), step u fs op) := Prod.ext done rfl
  cases op with
  | add system domain =>
      have holds := (addCustomBlock_ok.mp ran).2
      rw [Spares, blocked_iff] at spares
      split at holds
      · rwa [← holds]
      · next absent =>
          rw [blocked_iff, ← holds.2, blocklistBytes_put]
          exact mem_listed_append (spares.resolve_left absent) _
  | remove system domain =>
      rw [Blocked, listed_removed lawful ran, List.mem_filter, decide_eq_true_eq]
      exact ⟨blocked, fun same => kept same.symm⟩
  | update env =>
      rcases outcome_bind_ok.mp ran with ⟨n, middle, updated, rest⟩
      cases rest
      rcases blocked_update lawful updated with ⟨body, fetched, after⟩
      have named := named_of_mem_listed lawful (blocked_iff.mp blocked)
      exact (after d).mpr ⟨spares body fetched, named.no_comment⟩

theorem blocked_add (lawful : u.Lawful) {system : WriteOutcome} {domain : Str}
    (done : Done u fs (.add system domain)) (lists : Lists u domain fs) :
    Blocked u (normalize u domain) (step u fs (.add system domain)) := by
  have ran : outcome (addCustomBlock u system domain) fs = (.ok (), _) := Prod.ext done rfl
  rw [Lists, blocked_iff] at lists
  exact blocked_iff.mpr ((mem_listed_add lawful lists.resolve_left ran _).mpr (.inr rfl))

end Step

section Run

variable {u : UnicodeData} {fs : Fs} {front back : List BlockOp} {system : WriteOutcome}
  {domain : Str}

/-- A domain that was added so that it is listed is in the list in every state that is reached
without its removal, as long as every later operation spares its line. -/
theorem survives (lawful : u.Lawful)
    (succeed : Allowed (step u) (Done u) fs (front ++ .add system domain :: back))
    (kept : ∀ op ∈ back, ¬ Removes u (normalize u domain) op)
    (lists : Lists u domain (run (step u) fs front))
    (spares : Allowed (step u) (Spares u (normalize u domain))
      (run (step u) fs (front ++ [.add system domain])) back)
    {reached : List BlockOp} (sooner : reached <+: back) :
    Blocked u (normalize u domain)
      (run (step u) fs (front ++ .add system domain :: reached)) := by
  rcases (allowed_append fs front _).mp succeed with ⟨_, done, later⟩
  have start := blocked_add lawful done lists
  rw [run_concat] at spares
  rw [run_append]
  exact invariant_prefix start
    (fun fs op blocked ok => blocked_step lawful blocked ok.1 ok.2.1 ok.2.2)
    ((later.and spares).and_forall kept) sooner

end Run

section Willing

variable {u : UnicodeData}

/-- The system does what the operation asks, and the domain that is added is not blank. -/
def Willing (u : UnicodeData) : BlockOp → Prop
  | .add system domain => system = .done ∧ normalize u domain ≠ []
  | .remove system _ => system = .done
  | .update env => ∃ body, env = serving body

theorem perform_serving (body : Str) (fs : Fs) :
    outcome (perform u (.update (serving body))) fs =
      (.ok (), put blocklistPath (hostsBytes u body) fs) :=
  outcome_bind_ok.mpr ⟨_, _, updateBlocklist_serving body fs, rfl⟩

theorem done_of_willing (fs : Fs) {op : BlockOp} (willing : Willing u op) : Done u fs op := by
  cases op with
  | add system domain =>
      rcases willing with ⟨rfl, nonempty⟩
      by_cases present : normalize u domain ∈ listed u (blocklistBytes fs)
      · have same : outcome (addCustomBlock u .done domain) fs = (.ok (), fs) := by
          rw [addCustomBlock_ok, if_pos present]
          exact ⟨nonempty, rfl⟩
        exact congrArg Prod.fst same
      · exact congrArg Prod.fst (addCustomBlock_absent nonempty present)
  | remove system domain =>
      have removed : outcome (removeCustomBlock u system domain) fs = (.ok (), _) :=
        removeCustomBlock_ok.mpr ⟨willing, rfl⟩
      exact congrArg Prod.fst removed
  | update env =>
      rcases willing with ⟨body, rfl⟩
      exact congrArg Prod.fst (perform_serving body fs)

theorem allowed_of_willing {fs : Fs} {ops : List BlockOp} (willing : ∀ op ∈ ops, Willing u op) :
    Allowed (step u) (Done u) fs ops := by
  induction ops generalizing fs with
  | nil => trivial
  | cons op rest ih =>
      exact ⟨done_of_willing fs (willing op List.mem_cons_self),
        ih fun other member => willing other (List.mem_cons_of_mem op member)⟩

theorem eq_of_fetched_serving {body other : Str} (fetched : Fetched (serving body) other) :
    other = body := by
  have first := fetched _ (List.mem_singleton_self _)
  rw [fetched_serving body _ (List.mem_singleton_self _)] at first
  exact (Except.ok.inj first).symm

theorem blocklistBytes_update (body : Str) (fs : Fs) :
    blocklistBytes (step u fs (.update (serving body))) = hostsBytes u body := by
  rw [step, perform_serving, blocklistBytes_put]

theorem closedLines_hostsBytes (lawful : u.Lawful) (body : Str) :
    closedLines (hostsBytes u body) = (parseHostsInto u body ∅).sort := by
  have whole : physicalLines (hostsBytes u body) = (parseHostsInto u body ∅).sort ++ [[]] := by
    rw [hostsBytes, physicalLines_encode,
      splitOn_unlines fun d member => no_lf_of_mem_sort lawful member]
  have last : decode ⟨(openLine (hostsBytes u body)).toArray⟩ = some [] := by
    rw [hostsBytes, openLine_encode,
      splitOn_unlines fun d member => no_lf_of_mem_sort lawful member, List.getLastD_concat]
    exact decode_bytes []
  rw [physicalLines_eq, last] at whole
  exact List.append_cancel_right whole

end Willing

def trackerBody : Str := "0.0.0.0 ads.com\n0.0.0.0 Tracker.com\n".toList

theorem sinkholed_trackerBody : Sinkholed .ascii trackerBody "tracker.com".toList :=
  ⟨"0.0.0.0 Tracker.com".toList, by decide, "Tracker.com".toList,
    ⟨"0.0.0.0".toList, [], by decide, by decide⟩, by decide, by decide⟩

def later : List BlockOp :=
  [.update (serving trackerBody), .add .done "shop.com".toList, .remove .done "ads.com".toList]

theorem spares_later (fs : Fs) :
    Allowed (step .ascii) (Spares .ascii "tracker.com".toList) fs later := by
  refine ⟨fun body fetched => ?_, .inr ?_, trivial, trivial⟩
  · rw [eq_of_fetched_serving fetched]
    exact sinkholed_trackerBody
  · rw [blocklistBytes_update, closedLines_hostsBytes UnicodeData.ascii_lawful, shown,
      List.mem_filter, List.mem_map]
    exact ⟨⟨"tracker.com".toList, mem_sort_downloaded.mpr sinkholed_trackerBody, by decide⟩,
      by decide⟩

/-- A rule for a missing list outlives it. -/
theorem survives_later :
    Blocked .ascii "tracker.com".toList
      (run (step .ascii) (fun _ => none) ([] ++ .add .done " Tracker.com".toList :: later)) := by
  have name : normalize .ascii " Tracker.com".toList = "tracker.com".toList := by decide
  have willing : ∀ op ∈ [] ++ .add .done " Tracker.com".toList :: later, Willing .ascii op := by
    intro op member
    simp only [later, List.nil_append, List.mem_cons, List.not_mem_nil, or_false] at member
    rcases member with rfl | rfl | rfl | rfl
    · exact ⟨rfl, by decide⟩
    · exact ⟨trackerBody, rfl⟩
    · exact ⟨rfl, by decide⟩
    · rfl
  have kept : ∀ op ∈ later, ¬ Removes .ascii (normalize .ascii " Tracker.com".toList) op := by
    intro op member
    simp only [later, List.mem_cons, List.not_mem_nil, or_false] at member
    rcases member with rfl | rfl | rfl
    · exact id
    · exact id
    · unfold Removes
      decide
  have lists : Lists .ascii " Tracker.com".toList
      (run (step .ascii) (fun _ => none) ([] : List BlockOp)) :=
    .inr ⟨by decide, by decide, (ended_encode_iff []).mpr rfl⟩
  rw [← name]
  exact survives UnicodeData.ascii_lawful (allowed_of_willing willing) kept lists
    (name ▸ spares_later _) (List.prefix_refl _)

def adsBody : Str := "0.0.0.0 ads.com\n".toList

/-- A rule that was added, and never removed, is gone after a refresh. -/
theorem rule_lost_by_update :
    let ops : List BlockOp := [.add .done "tracker.com".toList, .update (serving adsBody)]
    Allowed (step .ascii) (Done .ascii) (fun _ => none) ops ∧
      (∀ op ∈ [BlockOp.update (serving adsBody)],
        ¬ Removes .ascii (normalize .ascii "tracker.com".toList) op) ∧
      ¬ Blocked .ascii (normalize .ascii "tracker.com".toList)
        (run (step .ascii) (fun _ => none) ops) := by
  intro ops
  have willing : ∀ op ∈ ops, Willing .ascii op := by
    intro op member
    rcases List.mem_cons.mp member with rfl | later
    · exact ⟨rfl, by decide⟩
    · rw [List.mem_singleton.mp later]
      exact ⟨adsBody, rfl⟩
  refine ⟨allowed_of_willing willing, List.forall_mem_singleton.mpr id, fun blocked => ?_⟩
  change Blocked _ _ (step .ascii _ (.update (serving adsBody))) at blocked
  rw [blocked_iff, blocklistBytes_update, listed_hostsBytes UnicodeData.ascii_lawful,
    List.mem_filter, mem_sort_downloaded] at blocked
  rcases blocked.1 with ⟨line, member, field, ⟨ip, rest, split, _⟩, same, _⟩
  have lines : Text.lines adsBody = ["0.0.0.0 ads.com".toList] := by decide
  rw [lines, List.mem_singleton] at member
  have words : splitWhitespace "0.0.0.0 ads.com".toList =
      ["0.0.0.0".toList, "ads.com".toList] := by decide
  rw [member, words] at split
  cases split
  revert same
  decide

end CustomBlocks

end TinyWifi
