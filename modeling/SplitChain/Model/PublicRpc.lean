import Mathlib.Algebra.Order.Ring.Rat
import Mathlib.Data.NNRat.Defs
import Mathlib.Data.Rat.Defs
import Mathlib.Tactic.Linarith
import SplitChain.Model.Enrollment

set_option relaxedAutoImplicit false
set_option autoImplicit false

/-!
# The public gateway

The public gateway (`splitchain.public_rpc`) takes a signed transfer from a client and hands it to
one backend after the other until one of them answers that it is not `NOT_LEADER`. It waits three
seconds for each of them and ten seconds for everything. A visit that is given up ends when the
closing handshake of its connection does, and a backend that has been sent the request goes on with
it when the gateway has left. Times are seconds since the client was connected.

## Main definitions

* `SplitChain.Visit` — what a backend does while the gateway waits for it, and afterwards.
* `SplitChain.Visit.outcome`, `SplitChain.Gateway.forward`, `SplitChain.Gateway.handle`.
* `SplitChain.Gateway.contacted` — the backends that a request is handed to.
* `SplitChain.Gateway.start`, `SplitChain.Gateway.Answers` — when the gateway turns to a backend,
  and whether this one answers in time.

## Main results

* `SplitChain.Gateway.forward_settled_iff` — when a backend's answer is passed on.
* `SplitChain.Gateway.mem_visited` — which backends are visited, and when.
* `SplitChain.Gateway.unapplied_iff` — when an error of the gateway means that nothing was applied.
-/

namespace SplitChain

open Raise

variable {ν : Type} [PyNumber ν]

/-! ## Backends -/

/-- `response.get("error", {}).get("code")` -/
def errorCode (response : Json ν) : Except PyError (Json ν) := do
  let fields ← orRaise response.dict? .attribute
  (fields.getD "error" (.obj [])).get? "code"

/-- Whether a response says that the backend is not the leader. -/
def isNotLeader (response : Json ν) : Bool :=
  match errorCode response with
  | .ok code => code.eqv (.str "NOT_LEADER")
  | .error _ => false

/-- How a visit to a backend ends by itself: with a document, or with a refused or broken connection
or an answer that is no document. -/
inductive Ending (ν : Type) where
  | answered (response : Json ν)
  | failed

/-- What a backend does when the gateway turns to it: when it has been sent the request, if ever,
and whether it applies what it has been sent, then or at any later time; how long the visit takes by
itself, the closing handshake included, and how it ends; and how long the handshake takes when the
gateway gives the visit up. A backend that is not the leader applies nothing. -/
structure Visit (ν : Type) [PyNumber ν] where
  sent : Option NNRat
  applies : Bool
  lasts : NNRat
  ending : Ending ν
  closing : NNRat
  notLeader : ∀ response, ending = .answered response → isNotLeader response = true →
    applies = false

/-- What the gateway answers: the response of a backend, an error of its own, or nothing, since an
exception has left its handler. -/
inductive GatewayAnswer (ν : Type) where
  | relayed (response : Json ν)
  | own (id : Json ν) (code message : String)
  | raised (e : PyError)

/-- What comes of a visit: an answer, the next visit at a time, or nothing, since the time for
everything is over. -/
inductive VisitOutcome (ν : Type) where
  | settled (answer : GatewayAnswer ν)
  | passed (clock : ℚ)
  | outOfTime

namespace Visit

/-- How long the gateway waits for one backend. -/
def limit : ℚ := 3

/-- How long the gateway takes for everything. -/
def deadline : ℚ := 10

/-- How long a visit takes. Giving it up does not end it: the connection is closed first. -/
def length (v : Visit ν) : ℚ := if v.lasts < limit then v.lasts else limit + v.closing

/-- What comes of a visit that starts at a time. -/
def outcome (clock : ℚ) (v : Visit ν) : VisitOutcome ν :=
  if deadline ≤ clock + v.length then .outOfTime
  else if limit ≤ v.lasts then .passed (clock + v.length)
  else match v.ending with
    | .failed => .passed (clock + v.length)
    | .answered response =>
      match errorCode response with
      | .error e => .settled (.raised e)
      | .ok code =>
        if code.eqv (.str "NOT_LEADER") then .passed (clock + v.length)
        else .settled (.relayed response)

/-- How long the gateway waits before it closes the connection to a backend. -/
def stay (clock : ℚ) (v : Visit ν) : ℚ := min (min v.lasts limit) (deadline - clock)

/-- Whether a backend that is visited at a time applies the request, during the visit or afterwards:
it has been sent it before the gateway closes the connection. -/
def applied (clock : ℚ) (v : Visit ν) : Bool :=
  v.applies && v.sent.any fun t : NNRat => decide ((t : ℚ) < v.stay clock)

/-- A backend answers in time, and its answer is not that it is not the leader. -/
def Settles (clock : ℚ) (v : Visit ν) : Prop :=
  v.lasts < limit ∧ clock + v.lasts < deadline ∧
    ∃ response, v.ending = .answered response ∧ isNotLeader response = false

variable {clock : ℚ} {v : Visit ν}

/-- A visit takes its time. -/
lemma length_nonneg (v : Visit ν) : 0 ≤ v.length := by
  unfold length limit
  split_ifs
  · exact v.lasts.coe_nonneg
  · exact add_nonneg (by norm_num) v.closing.coe_nonneg

/-- **A visit settles a request** exactly when the backend answers it in time. -/
lemma outcome_settled_iff : (∃ answer, v.outcome clock = .settled answer) ↔ v.Settles clock := by
  unfold outcome Settles
  constructor
  · rintro ⟨answer, h⟩
    split_ifs at h with hdeadline hlimit
    rw [not_le] at hdeadline hlimit
    rw [length, if_pos hlimit] at hdeadline
    refine ⟨hlimit, hdeadline, ?_⟩
    cases hending : v.ending with
    | failed =>
      rw [hending] at h
      cases h
    | answered response =>
      refine ⟨response, rfl, ?_⟩
      rw [hending] at h
      unfold isNotLeader
      cases hcode : errorCode response with
      | error e => rfl
      | ok code =>
        simp only [hcode] at h ⊢
        split_ifs at h with hleader
        exact Bool.eq_false_iff.mpr hleader
  · rintro ⟨hlimit, hdeadline, response, hending, hleader⟩
    rw [length, if_pos hlimit, if_neg (not_le.mpr hdeadline), if_neg (not_le.mpr hlimit), hending]
    unfold isNotLeader at hleader
    simp only
    cases hcode : errorCode response with
    | error e => exact ⟨_, rfl⟩
    | ok code =>
      simp only [hcode] at hleader ⊢
      rw [if_neg (Bool.eq_false_iff.mp hleader)]
      exact ⟨_, rfl⟩

/-- **A visit is passed over** if it neither settles the request nor takes up the time that is left,
and the next one begins when it has ended. -/
lemma outcome_passed_iff {later : ℚ} : v.outcome clock = .passed later ↔
    ¬v.Settles clock ∧ clock + v.length < deadline ∧ later = clock + v.length := by
  rw [← outcome_settled_iff]
  unfold outcome
  constructor
  · intro h
    refine ⟨fun ⟨answer, hanswer⟩ => ?_, ?_⟩
    · cases hanswer.symm.trans h
    · split_ifs at h with hdeadline hlimit
      · exact ⟨not_le.mp hdeadline, (VisitOutcome.passed.inj h).symm⟩
      · refine ⟨not_le.mp hdeadline, ?_⟩
        split at h
        · exact (VisitOutcome.passed.inj h).symm
        · split at h
          · cases h
          · split_ifs at h
            exact (VisitOutcome.passed.inj h).symm
  · rintro ⟨hnot, hdeadline, rfl⟩
    rw [if_neg (not_le.mpr hdeadline)] at hnot ⊢
    split_ifs at hnot ⊢ with hlimit
    · rfl
    · cases hending : v.ending with
      | failed => rfl
      | answered response =>
        simp only [hending] at hnot ⊢
        cases hcode : errorCode response with
        | error e => exact absurd ⟨_, by rw [hcode]⟩ hnot
        | ok code =>
          simp only [hcode] at hnot ⊢
          split_ifs at hnot ⊢ with hleader
          · rfl
          · exact absurd ⟨_, rfl⟩ hnot

/-- A backend that applies the request is visited before the time is over. -/
lemma lt_deadline_of_applied (h : v.applied clock = true) : clock < deadline := by
  rw [applied, Bool.and_eq_true, Option.any_eq_true] at h
  obtain ⟨-, t, -, hstay⟩ := h
  have hleft := (of_decide_eq_true hstay).trans_le (min_le_right _ _)
  have hnonneg := t.coe_nonneg
  linarith

/-- An answer that settles a request is no error of the gateway. -/
lemma not_own_of_outcome {id : Json ν} {code message : String} :
    v.outcome clock ≠ .settled (.own id code message) := by
  intro h
  unfold outcome at h
  split_ifs at h
  split at h
  · cases h
  · split at h
    · cases h
    · split_ifs at h
      cases h

end Visit

/-! ## The gateway -/

namespace Gateway

/-- `PUBLIC_METHODS` -/
def publicMethods : List String := ["offer", "accept", "commit", "cancel"]

/-- `requests_by_ip`: when the window of an address began, and its requests since. -/
abbrev Windows := Dict String (ℚ × ℕ)

/-- Count a request of an address. -/
def countRequest (client : String) (now : ℚ) (windows : Windows) : Except String Unit × Windows :=
  let (started, count) := windows.getD client (now, 0)
  let (started, count) := if 60 ≤ now - started then (now, 0) else (started, count)
  let windows := windows.set client (started, count + 1)
  if 120 < count + 1 then (.error "gateway request limit reached", windows)
  else (.ok (), if 1024 < windows.size then windows.filterVal fun w => now - w.1 < 60 else windows)

/-- Check that a message is a signed transfer; the texts of the interpreter are left out. -/
def publicRequest (message : Option (Json ν)) : Except String (Dict String (Json ν)) := do
  let request ← orRaise message ""
  let fields ← orRaise request.dict? "only signed transfer methods are public"
  let method := fields.getD "method" .null
  -- membership in a set needs a hashable value
  require method.hashable ""
  require (publicMethods.any fun name => method.eqv (.str name))
    "only signed transfer methods are public"
  require ((fields.getD "params" .null).dict?.isSome && (fields.getD "auth" .null).dict?.isSome)
    "signed account request required"
  return fields

/-- Hand a request to one backend after the other. There is no result when the time is over. -/
def forward (id : Json ν) : ℚ → List (Visit ν) → Option (GatewayAnswer ν)
  | _, [] => some (.own id "UNAVAILABLE" "no certified leader accepted the request")
  | clock, v :: rest =>
    match v.outcome clock with
    | .settled answer => some answer
    | .passed clock => forward id clock rest
    | .outOfTime => none

/-- A message of a client: when it has come, from where, and the document that it is, if any. -/
structure Arrival (ν : Type) where
  waited : ℚ
  client : String
  now : ℚ
  message : Option (Json ν)

/-- The error for what the handler does not accept. -/
def invalidRequest (message : String) : GatewayAnswer ν := .own .null "INVALID_REQUEST" message

/-- What comes before a request is forwarded. -/
def receive (arrival : Arrival ν) (windows : Windows) :
    Except String (Dict String (Json ν)) × Windows :=
  if Visit.deadline ≤ arrival.waited then (.error "", windows)
  else match publicRequest arrival.message with
    | .error message => (.error message, windows)
    | .ok fields =>
      let (counted, windows) := countRequest arrival.client arrival.now windows
      (counted.map fun _ => fields, windows)

/-- `handler` -/
def handle (arrival : Arrival ν) (visits : List (Visit ν)) (windows : Windows) :
    GatewayAnswer ν × Windows :=
  let (received, windows) := receive arrival windows
  match received with
  | .error message => (invalidRequest message, windows)
  | .ok fields =>
    ((forward (fields.getD "id" .null) arrival.waited visits).getD (invalidRequest ""), windows)

/-! ## Who gets the request -/

/-- The visits that are made, with the times at which they start. -/
def visited : ℚ → List (Visit ν) → List (ℚ × Visit ν)
  | _, [] => []
  | clock, v :: rest => (clock, v) ::
    match v.outcome clock with
    | .passed clock => visited clock rest
    | _ => []

/-- The visits that are made for a message. -/
def contacted (arrival : Arrival ν) (visits : List (Visit ν)) (windows : Windows) :
    List (ℚ × Visit ν) :=
  match (receive arrival windows).1 with
  | .error _ => []
  | .ok _ => visited arrival.waited visits

/-- When the gateway turns to a backend: all visits before have ended. -/
def start (clock : ℚ) (visits : List (Visit ν)) (i : ℕ) : ℚ :=
  clock + ((visits.take i).map Visit.length).sum

/-- A backend answers in time, if the gateway turns to it. -/
def Answers (clock : ℚ) (visits : List (Visit ν)) (i : ℕ) : Prop :=
  ∃ v, visits[i]? = some v ∧ v.Settles (start clock visits i)

/-- **Every application is accounted for.** If the message is received, then each backend that
applies the request, when none before it has answered in time, answers in time itself, or one after
it does. -/
def Accounted (arrival : Arrival ν) (visits : List (Visit ν)) (windows : Windows) : Prop :=
  (receive arrival windows).1.isOk = true → ∀ i v, visits[i]? = some v →
    v.applied (start arrival.waited visits i) = true →
    (∀ k < i, ¬Answers arrival.waited visits k) → ∃ j, i ≤ j ∧ Answers arrival.waited visits j

variable {clock : ℚ} {visits : List (Visit ν)}

/-- A message that is received is forwarded. -/
lemma handle_of_received {arrival : Arrival ν} {windows : Windows} {fields : Dict String (Json ν)}
    (h : (receive arrival windows).1 = .ok fields) : (handle arrival visits windows).1 =
      (forward (fields.getD "id" .null) arrival.waited visits).getD (invalidRequest "") := by
  unfold handle
  cases hreceived : receive arrival windows with
  | mk received later =>
    rw [hreceived] at h
    subst h
    rfl

/-- **Forwarding** ends with an error of the gateway, or out of time, exactly when no backend that
is visited settles the request.

**Proof sketch.** Induction on the backends: the first one settles the request, or is passed over,
or time is over. -/
lemma forward_settled_iff (id : Json ν) : (∃ p ∈ visited clock visits, p.2.Settles p.1) ↔
    ∃ answer, forward id clock visits = some answer ∧
    ∀ id code message, answer ≠ .own id code message := by
  induction visits generalizing clock with
  | nil =>
    constructor
    · rintro ⟨p, hp, -⟩
      cases hp
    · rintro ⟨answer, h, hanswer⟩
      exact absurd (Option.some.inj h).symm (hanswer _ _ _)
  | cons v rest ih =>
    rw [visited, forward]
    cases houtcome : v.outcome clock with
    | settled answer =>
      refine ⟨fun _ => ⟨answer, rfl, fun id code message hown => ?_⟩, fun _ => ?_⟩
      · exact Visit.not_own_of_outcome (hown ▸ houtcome)
      · exact ⟨_, List.mem_cons_self, Visit.outcome_settled_iff.mp ⟨answer, houtcome⟩⟩
    | passed later =>
      have hnot : ¬v.Settles clock := fun h => by
        obtain ⟨answer, hanswer⟩ := Visit.outcome_settled_iff.mpr h
        cases houtcome.symm.trans hanswer
      rw [← ih]
      simp only [List.mem_cons, exists_eq_or_imp, hnot, false_or]
    | outOfTime =>
      have hnot : ¬v.Settles clock := fun h => by
        obtain ⟨answer, hanswer⟩ := Visit.outcome_settled_iff.mpr h
        cases houtcome.symm.trans hanswer
      simp [hnot]

@[simp] lemma start_zero : start clock visits 0 = clock := by simp [start]

/-- The visits after the first one begin when it has ended. -/
lemma start_succ {v : Visit ν} (i : ℕ) :
    start clock (v :: visits) (i + 1) = start (clock + v.length) visits i := by
  simp only [start, List.take_succ_cons, List.map_cons, List.sum_cons, add_assoc]

lemma answers_zero {v : Visit ν} : Answers clock (v :: visits) 0 ↔ v.Settles clock := by
  simp [Answers]

lemma answers_succ {v : Visit ν} (i : ℕ) :
    Answers clock (v :: visits) (i + 1) ↔ Answers (clock + v.length) visits i := by
  simp [Answers, start_succ]

/-- The gateway turns to no backend earlier than to those before. -/
lemma le_start (i : ℕ) : clock ≤ start clock visits i := by
  refine le_add_of_nonneg_right (List.sum_nonneg fun q hq => ?_)
  obtain ⟨v, -, rfl⟩ := List.mem_map.mp hq
  exact v.length_nonneg

/-- **Which backends are visited**: the gateway turns to a backend before the time is over, if none
before it has answered in time.

**Proof sketch.** Induction on the backends: the next ones are visited if the first one is passed
over. -/
lemma mem_visited {i : ℕ} {v : Visit ν} (hv : visits[i]? = some v)
    (htime : start clock visits i < Visit.deadline) (hnone : ∀ k < i, ¬Answers clock visits k) :
    (start clock visits i, v) ∈ visited clock visits := by
  induction visits generalizing clock i with
  | nil => cases hv
  | cons w rest ih =>
    cases i with
    | zero =>
      obtain rfl : w = v := Option.some.inj hv
      rw [start_zero]
      exact List.mem_cons_self
    | succ i =>
      rw [start_succ] at htime ⊢
      have hpassed : w.outcome clock = .passed (clock + w.length) :=
        Visit.outcome_passed_iff.mpr ⟨mt answers_zero.mpr (hnone 0 i.succ_pos),
          (le_start i).trans_lt htime, rfl⟩
      rw [visited, hpassed]
      refine List.mem_cons_of_mem _ (ih hv htime fun k hk => ?_)
      exact mt (answers_succ k).mpr (hnone (k + 1) (Nat.succ_lt_succ hk))

/-- A visit that is made is of one of the backends, at its time. -/
lemma exists_of_mem_visited {p : ℚ × Visit ν} (h : p ∈ visited clock visits) :
    ∃ i, visits[i]? = some p.2 ∧ p.1 = start clock visits i ∧
      ∀ k < i, ¬Answers clock visits k := by
  induction visits generalizing clock with
  | nil => cases h
  | cons w rest ih =>
    rw [visited] at h
    rcases List.mem_cons.mp h with rfl | h
    · exact ⟨0, rfl, start_zero.symm, fun k hk => absurd hk k.not_lt_zero⟩
    · cases houtcome : w.outcome clock with
      | settled answer =>
        rw [houtcome] at h
        cases h
      | outOfTime =>
        rw [houtcome] at h
        cases h
      | passed later =>
        rw [houtcome] at h
        obtain ⟨hnot, -, rfl⟩ := Visit.outcome_passed_iff.mp houtcome
        obtain ⟨i, hv, htime, hnone⟩ := ih h
        refine ⟨i + 1, hv, htime.trans (start_succ i).symm, fun k hk => ?_⟩
        cases k with
        | zero => exact mt answers_zero.mp hnot
        | succ k => exact mt (answers_succ k).mp (hnone k (Nat.lt_of_succ_lt_succ hk))

/-- **A request is settled** by a visit exactly when some backend answers in time.

**Proof sketch.** The first backend that answers in time is visited. -/
lemma exists_settles_iff :
    (∃ p ∈ visited clock visits, p.2.Settles p.1) ↔ ∃ i, Answers clock visits i := by
  classical
  constructor
  · rintro ⟨p, hp, hsettles⟩
    obtain ⟨i, hv, htime, -⟩ := exists_of_mem_visited hp
    exact ⟨i, p.2, hv, htime ▸ hsettles⟩
  · intro h
    obtain ⟨v, hv, hsettles⟩ := Nat.find_spec h
    refine ⟨_, mem_visited hv ?_ fun k hk => Nat.find_min h hk, hsettles⟩
    have hnonneg := v.lasts.coe_nonneg
    have hdeadline := hsettles.2.1
    linarith

/-- **When an error of the gateway means that nothing was applied.** For every message, every state
of the gateway and everything that the backends do, an error of the gateway means that no backend
applies the request, then or later, exactly when every backend that applies it answers in time, or
one after it does.

**Proof sketch.** The gateway answers with an error of its own exactly when no backend answers in
time. A backend that applies the request has been visited, and is one that the gateway turns to
before the time is over. -/
theorem unapplied_iff (arrival : Arrival ν) (backend : String → Visit ν) (windows : Windows) :
    (∀ id code message, (handle arrival (backends.map backend) windows).1 = .own id code message →
        ∀ p ∈ contacted arrival (backends.map backend) windows, p.2.applied p.1 = false) ↔
      Accounted arrival (backends.map backend) windows := by
  generalize backends.map backend = visits
  unfold contacted Accounted
  cases hreceived : (receive arrival windows).1 with
  | error message => simp [Except.isOk, Except.toBool]
  | ok fields =>
    have hsettled : (∃ p ∈ visited arrival.waited visits, p.2.Settles p.1) ↔ _ :=
      forward_settled_iff (fields.getD "id" .null)
    rw [exists_settles_iff] at hsettled
    simp only [handle_of_received hreceived]
    constructor
    · intro hsafe _ i v hv happlied hnone
      by_contra hlater
      -- No backend answers in time, so the error is one of the gateway.
      have hnever : ¬∃ k, Answers arrival.waited visits k := by
        rintro ⟨k, hk⟩
        rcases lt_or_ge k i with hki | hik
        · exact hnone k hki hk
        · exact hlater ⟨k, hik, hk⟩
      have hvisited := mem_visited hv (Visit.lt_deadline_of_applied happlied) hnone
      rw [hsettled] at hnever
      cases hforward : forward (fields.getD "id" .null) arrival.waited visits with
      | none =>
        rw [hforward] at hsafe
        cases happlied.symm.trans (hsafe _ _ _ rfl _ hvisited)
      | some answer =>
        refine hnever ⟨answer, hforward, fun id code message hown => ?_⟩
        rw [hforward, hown] at hsafe
        cases happlied.symm.trans (hsafe _ _ _ rfl _ hvisited)
    · intro haccounted id code message hown p hp
      refine Bool.eq_false_iff.mpr fun happlied => ?_
      obtain ⟨i, hv, htime, hnone⟩ := exists_of_mem_visited hp
      obtain ⟨j, -, hj⟩ := haccounted rfl i p.2 hv (htime ▸ happlied) hnone
      obtain ⟨answer, hforward, hnot⟩ := hsettled.mp ⟨j, hj⟩
      rw [hforward] at hown
      exact hnot _ _ _ hown

/-! ## A leader that is too slow -/

section Example

/-- A signed transfer. -/
def exampleTransfer : Arrival ℤ where
  waited := 0
  client := "client"
  now := 0
  message := some (.obj [("method", .str "offer"), ("params", .obj []), ("auth", .obj [])])

/-- The first backend applies the request and needs four seconds for its answer; the others answer
at once that they are not the leader. -/
def exampleBackend (backend : String) : Visit ℤ :=
  if backend = "ws://primary:8765" then ⟨some 0, true, 4, .failed, 0, nofun⟩
  else ⟨some 0, false, 0, .answered (.obj [("error", .obj [("code", .str "NOT_LEADER")])]),
    0, fun _ _ _ => rfl⟩

/-- **A leader that is too slow.** The gateway answers that no leader has accepted a request that
the first backend applies. -/
theorem exists_applied_unavailable : ∃ (arrival : Arrival ℤ) (backend : String → Visit ℤ)
    (windows : Windows) (message : String),
    (handle arrival (backends.map backend) windows).1 = .own .null "UNAVAILABLE" message ∧
      ∃ p ∈ contacted arrival (backends.map backend) windows, p.2.applied p.1 = true := by
  have happlied : (exampleBackend "ws://primary:8765").applied 0 = true := by decide +kernel
  have hprimary : (exampleBackend "ws://primary:8765").outcome 0 = .passed 3 := by
    norm_num [Visit.outcome, Visit.length, exampleBackend, Visit.deadline, Visit.limit]
  have hother : ∀ backend ≠ "ws://primary:8765", (exampleBackend backend).outcome 3 = .passed 3 := by
    intro backend hbackend
    have hcode : errorCode (.obj [("error", .obj [("code", .str "NOT_LEADER")])] : Json ℤ) =
        .ok (.str "NOT_LEADER") := rfl
    norm_num [Visit.outcome, Visit.length, exampleBackend, hbackend, Visit.deadline, Visit.limit,
      hcode, Json.eqv_refl]
  have hforward : forward .null 0 (backends.map exampleBackend) =
      some (.own .null "UNAVAILABLE" "no certified leader accepted the request") := by
    simp only [backends, List.map_cons, List.map_nil, forward, hprimary,
      hother "ws://secondary:8765" (by decide), hother "ws://tertiary:8765" (by decide)]
  have hmessage : publicRequest exampleTransfer.message = .ok (Dict.ofList
      [("method", .str "offer"), ("params", .obj []), ("auth", .obj [])]) := rfl
  have hcount : (countRequest exampleTransfer.client exampleTransfer.now ∅).1 = .ok () := by
    decide +kernel
  have hreceived : (receive exampleTransfer ∅).1 = .ok (Dict.ofList
      [("method", .str "offer"), ("params", .obj []), ("auth", .obj [])]) := by
    have hwaited : ¬Visit.deadline ≤ exampleTransfer.waited := by decide +kernel
    rw [receive, if_neg hwaited, hmessage]
    show (countRequest _ _ ∅).1.map _ = _
    rw [hcount]
    rfl
  refine ⟨exampleTransfer, exampleBackend, ∅,
    "no certified leader accepted the request", ?_, (0, exampleBackend "ws://primary:8765"), ?_,
    happlied⟩
  · rw [handle_of_received hreceived]
    exact congrArg (Option.getD · _) hforward
  · rw [contacted, hreceived]
    exact List.mem_cons_self

end Example

end Gateway

end SplitChain
