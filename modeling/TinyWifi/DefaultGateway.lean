import TinyWifi.Lib.Lines

/-! `wan.rs`: the gateway of an interface, taken from the output of `ip route show`. A line is
chosen by the characters in it, and the address is taken from its words. -/

namespace TinyWifi

open Text

namespace DefaultGateway

def wordDefault : Str := "default".toList
def wordDev : Str := "dev".toList
def wordVia : Str := "via".toList

/-- The loop over the words of a line: the word after the first `via` that has one. -/
def afterVia : List Str → Option Str
  | word :: next :: rest => if word = wordVia then some next else afterVia (next :: rest)
  | _ => none

def gatewayIn (line : Str) : Option Str := afterVia (splitWhitespace line)

def selects (iface line : Str) : Bool :=
  startsWith wordDefault line && contains (wordDev ++ ' ' :: iface) line

/-- `default_gateway_via`; `output` is what the command printed, if it ran. -/
def defaultGatewayVia (output : Option Str) (iface : Str) : Option Str := do
  let text ← output
  (Text.lines text).findSome? fun line => if selects iface line then gatewayIn line else none

/-- The line is a default route of the interface, by its words. -/
def RouteOf (iface line : Str) : Prop :=
  (splitWhitespace line).head? = some wordDefault ∧ [wordDev, iface] <:+: splitWhitespace line

instance (iface line : Str) : Decidable (RouteOf iface line) :=
  decidable_of_iff ((splitWhitespace line).head? = some wordDefault ∧
    contains [wordDev, iface] (splitWhitespace line) = true) (by rw [RouteOf, contains_iff])

/-- The line has the word `via` with this word after it, and it is the first such `via`. -/
def Via (gateway line : Str) : Prop :=
  ∃ front rest, splitWhitespace line = front ++ wordVia :: gateway :: rest ∧ wordVia ∉ front

/-- The first default route of the interface that has a gateway has this one. -/
def FirstRoute (iface text gateway : Str) : Prop :=
  ∃ before line after, Text.lines text = before ++ line :: after ∧
    RouteOf iface line ∧ Via gateway line ∧
    ∀ earlier ∈ before, ∀ other, ¬ (RouteOf iface earlier ∧ Via other earlier)

def Answers (iface text : Str) : Prop :=
  ∀ gateway, defaultGatewayVia (some text) iface = some gateway ↔ FirstRoute iface text gateway

def withGateway (text : Str) : List Str :=
  (Text.lines text).filter fun line => (gatewayIn line).isSome

/-- From the top, no line passes one of the two tests only, before a line passes both; or the next
line that passes the other test has the same gateway. -/
def Agree (iface : Str) : List Str → Prop
  | [] => True
  | line :: rest =>
    if selects iface line then
      RouteOf iface line ∨
        (rest.find? fun other => RouteOf iface other).bind gatewayIn = gatewayIn line
    else if RouteOf iface line then (rest.find? (selects iface)).bind gatewayIn = gatewayIn line
    else Agree iface rest

section Words

theorem afterVia_of_first {gateway : Str} {front : List Str} (rest : List Str)
    (first : wordVia ∉ front) : afterVia (front ++ wordVia :: gateway :: rest) = some gateway := by
  induction front with
  | nil => simp [afterVia]
  | cons word more ih =>
      simp only [List.mem_cons, not_or] at first
      cases more with
      | nil => simp [afterVia, Ne.symm first.1]
      | cons next others => simpa [afterVia, Ne.symm first.1] using ih first.2

theorem first_of_afterVia {gateway : Str} {words : List Str} (h : afterVia words = some gateway) :
    ∃ front rest, words = front ++ wordVia :: gateway :: rest ∧ wordVia ∉ front := by
  induction words using afterVia.induct with
  | case1 next rest =>
      have same : next = gateway := by simpa [afterVia] using h
      exact ⟨[], rest, by rw [same, List.nil_append], List.not_mem_nil⟩
  | case2 word next rest other ih =>
      have later : afterVia (next :: rest) = some gateway := by simpa [afterVia, other] using h
      rcases ih later with ⟨front, tail, shape, first⟩
      refine ⟨word :: front, tail, by rw [shape, List.cons_append], ?_⟩
      simp [first, Ne.symm other]
  | case3 words short => simp [afterVia] at h

theorem gatewayIn_eq_some {gateway line : Str} :
    gatewayIn line = some gateway ↔ Via gateway line := by
  constructor
  · exact first_of_afterVia
  · intro via
    rcases via with ⟨front, rest, shape, first⟩
    rw [gatewayIn, shape, afterVia_of_first rest first]

end Words

section Table

variable {iface : Str}

theorem findSome?_gateway (p : Str → Bool) (lines : List Str) :
    (lines.findSome? fun line => if p line then gatewayIn line else none) =
      ((lines.filter fun line => (gatewayIn line).isSome).find? p).bind gatewayIn := by
  induction lines with
  | nil => rfl
  | cons line rest ih =>
      rw [List.findSome?_cons, ih]
      cases found : gatewayIn line with
      | none => simp [found]
      | some gateway =>
          cases chosen : p line with
          | false => simp [found, chosen]
          | true => simp [found, chosen]

theorem defaultGatewayVia_eq (text : Str) : defaultGatewayVia (some text) iface =
    ((withGateway text).find? (selects iface)).bind gatewayIn :=
  findSome?_gateway (selects iface) (Text.lines text)

theorem firstRoute_iff {text gateway : Str} : FirstRoute iface text gateway ↔
    ((withGateway text).find? fun line => RouteOf iface line).bind gatewayIn = some gateway := by
  have route : ∀ line other, (if decide (RouteOf iface line) then gatewayIn line else none) =
      some other ↔ RouteOf iface line ∧ Via other line := by
    intro line other
    by_cases holds : RouteOf iface line <;> simp [holds, gatewayIn_eq_some]
  rw [withGateway, ← findSome?_gateway, List.findSome?_eq_some_iff, FirstRoute]
  constructor
  · intro first
    rcases first with ⟨before, line, after, split, of_iface, via, none⟩
    refine ⟨before, line, after, split, (route line gateway).mpr ⟨of_iface, via⟩, ?_⟩
    intro earlier member
    refine Option.eq_none_iff_forall_ne_some.mpr fun other found => ?_
    exact none earlier member other ((route earlier other).mp found)
  · intro first
    rcases first with ⟨before, line, after, split, found, none⟩
    have chosen := (route line gateway).mp found
    refine ⟨before, line, after, split, chosen.1, chosen.2, ?_⟩
    intro earlier member other holds
    have shown := (route earlier other).mpr holds
    rw [none earlier member] at shown
    cases shown

theorem agree_iff (lines : List Str) : Agree iface lines ↔
    (lines.find? (selects iface)).bind gatewayIn =
      (lines.find? fun line => RouteOf iface line).bind gatewayIn := by
  induction lines with
  | nil => simp [Agree]
  | cons line rest ih =>
      by_cases chosen : selects iface line = true
      · by_cases holds : RouteOf iface line
        · simp [Agree, chosen, holds]
        · simp [Agree, chosen, holds, eq_comm]
      · by_cases holds : RouteOf iface line
        · simp [Agree, chosen, holds]
        · simp [Agree, chosen, holds, ih]

end Table

/-- The gateway is the one of the interface exactly when the two tests agree on the table. -/
theorem answers_iff (iface text : Str) : Answers iface text ↔ Agree iface (withGateway text) := by
  rw [agree_iff, ← defaultGatewayVia_eq]
  constructor
  · intro answers
    apply Option.ext
    intro gateway
    rw [answers gateway, firstRoute_iff]
  · intro same gateway
    rw [same, firstRoute_iff]

/-- A route of another interface, whose name starts with the name that is asked for. -/
theorem longer_name_is_answered :
    ¬ Answers "eth0".toList "default via 10.0.0.1 dev eth0.100\n".toList := by
  intro answers
  have answered : defaultGatewayVia (some "default via 10.0.0.1 dev eth0.100\n".toList)
      "eth0".toList = some "10.0.0.1".toList := by decide
  have first := firstRoute_iff.mp ((answers "10.0.0.1".toList).mp answered)
  exact absurd first (by decide)

end DefaultGateway

end TinyWifi
