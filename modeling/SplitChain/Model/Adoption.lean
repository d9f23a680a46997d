import SplitChain.Model.SavedCluster
import SplitChain.Model.Signing
import SplitChain.Python.Loads

set_option relaxedAutoImplicit false
set_option autoImplicit false

/-!
# Certificates are adopted

A leadership state is changed by heartbeats, by votes and by the certificates of others, each of
which checks the transition with a formula of its own: votes are checked against the last
heartbeat, a certificate against the tick of the certificate before it. The record of every state
that these calls lead to is accepted when it is restored, and a certificate that a state forms is
adopted by every state with the record that this state had before, also after the certificate has
been written as JSON and read again.

The arguments of calls are the declared records, with integers for ticks, terms and positions; names
are strings, and those that are no roles have no key and lead no term.

## Main definitions

* `SplitChain.NamedVote`, `SplitChain.NamedCertificate` — records with names that may be no roles.
* `SplitChain.LeadershipCall`, `SplitChain.LeadershipState.after` — the calls.
* `SplitChain.LeadershipCertificate.document`, `SplitChain.NamedCertificate.ofDocument?` — a
  certificate as JSON, and back.
* `SplitChain.LeadershipState.Standing` — the invariant.

## Main results

* `SplitChain.LeadershipCertificate.received_eq` — a certificate is read back.
* `SplitChain.LeadershipState.Standing.submit` — what a vote does to a state and to its followers.
* `SplitChain.LeadershipState.records_survive` — the records of all states are restored and adopted.
-/

namespace SplitChain

open Raise PyNumber

/-! ## Arguments of calls -/

/-- The role of a name. -/
def Role.ofName? (name : String) : Option Role := Role.order.find? fun r => r.value == name

/-- A role is named by its name. -/
lemma Role.ofName?_value (r : Role) : Role.ofName? r.value = some r := by
  cases r <;> decide

/-- A vote with names that may be no roles. -/
structure NamedVote where
  voter : String
  term : ℤ
  accused : String
  candidate : String
  observedTick : ℤ
  committedNonce : ℤ
  signature : String

/-- A certificate with names that may be no roles. -/
structure NamedCertificate where
  term : ℤ
  leader : String
  committedNonce : ℤ
  votes : List NamedVote
  digest : String

/-- The vote, if its names are roles. -/
def NamedVote.vote? (v : NamedVote) : Option FailureVote := do
  let voter ← Role.ofName? v.voter
  let accused ← Role.ofName? v.accused
  let candidate ← Role.ofName? v.candidate
  some {
    voter := voter
    term := v.term
    accused := accused
    candidate := candidate
    observedTick := v.observedTick
    committedNonce := v.committedNonce
    signature := v.signature }

/-- The certificate, if its names are roles. -/
def NamedCertificate.certificate? (c : NamedCertificate) : Option LeadershipCertificate := do
  let leader ← Role.ofName? c.leader
  let votes ← c.votes.mapM NamedVote.vote?
  some {
    term := c.term
    leader := leader
    committedNonce := c.committedNonce
    votes := votes
    digest := c.digest }

/-- A vote with the names of its roles. -/
def FailureVote.named (v : FailureVote) : NamedVote where
  voter := v.voter.value
  term := v.term
  accused := v.accused.value
  candidate := v.candidate.value
  observedTick := v.observedTick
  committedNonce := v.committedNonce
  signature := v.signature

/-- A certificate with the names of its roles. -/
def LeadershipCertificate.named (c : LeadershipCertificate) : NamedCertificate where
  term := c.term
  leader := c.leader.value
  committedNonce := c.committedNonce
  votes := c.votes.map FailureVote.named
  digest := c.digest

/-- A vote is the one with its names. -/
lemma FailureVote.vote?_named (v : FailureVote) : v.named.vote? = some v := by
  simp only [named, NamedVote.vote?, Role.ofName?_value, Option.bind_eq_bind, Option.bind_some]

/-- A certificate is the one with its names. -/
lemma LeadershipCertificate.certificate?_named (c : LeadershipCertificate) :
    c.named.certificate? = some c := by
  have hvotes : (c.votes.map FailureVote.named).mapM NamedVote.vote? = some c.votes :=
    Json.mapM_map_eq FailureVote.vote?_named c.votes
  simp only [named, NamedCertificate.certificate?, Role.ofName?_value, hvotes, Option.bind_eq_bind,
    Option.bind_some]

/-- The calls that change a leadership state. -/
inductive LeadershipCall where
  | heartbeat (leader : String) (term tick committedNonce : ℤ)
  | submit (vote : NamedVote)
  | acceptCertificate (certificate : NamedCertificate)

namespace LeadershipState

variable (authority : FailoverAuthority)

/-- The state after a call, if the call does not raise. A name that is no role is not that of the
leader or of its successor, and no key verifies its signature. -/
def perform (s : LeadershipState) : LeadershipCall → Option LeadershipState
  | .heartbeat leader term tick committedNonce => do
    let leader ← Role.ofName? leader
    (s.heartbeat leader term tick committedNonce).toOption
  | .submit vote => do
    let vote ← vote.vote?
    let (t, _) ← (s.submit authority vote).toOption
    some t
  | .acceptCertificate certificate => do
    let certificate ← certificate.certificate?
    (s.acceptCertificate authority certificate).toOption

/-- The state after a call, which is the state before it if the call raises. -/
def after (s : LeadershipState) (call : LeadershipCall) : LeadershipState :=
  (s.perform authority call).getD s

/-- One step of a run. -/
def step (s : LeadershipState) (call : LeadershipCall) : Option LeadershipState :=
  some (s.after authority call)

end LeadershipState

/-! ## Certificates as documents -/

section Documents

variable {ν : Type} [PyNumber ν]

/-- `asdict(certificate)` -/
def LeadershipCertificate.document (c : LeadershipCertificate) : Json ν :=
  .obj [("term", .num (ofInt c.term)), ("leader", .str c.leader.value),
    ("committed_nonce", .num (ofInt c.committedNonce)),
    ("votes", .arr (c.votes.map FailureVote.document)), ("digest", .str c.digest)]

/-- `FailureVote(**value)`, for members of the declared types. -/
def NamedVote.ofDocument? (v : Json ν) : Option NamedVote := do
  if v.dict?.map Dict.size = some 7 then
    let voter ← (v.member? "voter").bind Json.str?
    let term ← (v.member? "term").bind Json.int?
    let accused ← (v.member? "accused").bind Json.str?
    let candidate ← (v.member? "candidate").bind Json.str?
    let observedTick ← (v.member? "observed_tick").bind Json.int?
    let committedNonce ← (v.member? "committed_nonce").bind Json.int?
    let signature ← (v.member? "signature").bind Json.str?
    some ⟨voter, term, accused, candidate, observedTick, committedNonce, signature⟩
  else none

/-- The certificate that `receive_certificate` takes from its parameters, for members of the
declared types. -/
def NamedCertificate.ofDocument? (v : Json ν) : Option NamedCertificate := do
  let term ← (v.member? "term").bind Json.int?
  let leader ← (v.member? "leader").bind Json.str?
  let committedNonce ← (v.member? "committed_nonce").bind Json.int?
  let votes ← (v.member? "votes").bind Json.arr?
  let votes ← votes.mapM NamedVote.ofDocument?
  let digest ← (v.member? "digest").bind Json.str?
  some ⟨term, leader, committedNonce, votes, digest⟩

/-- A vote is read from its document. -/
lemma FailureVote.ofDocument?_document (v : FailureVote) :
    NamedVote.ofDocument? (v.document : Json ν) = some v.named := by
  have hint : ∀ n : ℤ, (Json.num (ofInt n) : Json ν).int? = some n := fun n => int?_ofInt n
  have hkeys : ((v.document : Json ν).members.map Prod.fst).Nodup := by
    show ["voter", "term", "accused", "candidate", "observed_tick", "committed_nonce",
      "signature"].Nodup
    decide
  have hsize : (v.document : Json ν).dict?.map Dict.size = some 7 := Json.size_eq hkeys
  have hmember := Json.member?_eq hkeys
  have hvoter : (v.document : Json ν).member? "voter" = some (.str v.voter.value) := hmember _
  have hterm : (v.document : Json ν).member? "term" = some (.num (ofInt v.term)) := hmember _
  have haccused : (v.document : Json ν).member? "accused" = some (.str v.accused.value) := hmember _
  have hcandidate : (v.document : Json ν).member? "candidate" = some (.str v.candidate.value) :=
    hmember _
  have htick : (v.document : Json ν).member? "observed_tick" = some (.num (ofInt v.observedTick)) :=
    hmember _
  have hnonce : (v.document : Json ν).member? "committed_nonce" =
      some (.num (ofInt v.committedNonce)) := hmember _
  have hsignature : (v.document : Json ν).member? "signature" = some (.str v.signature) := hmember _
  unfold NamedVote.ofDocument?
  rw [if_pos hsize, hvoter, hterm, haccused, hcandidate, htick, hnonce, hsignature]
  simp only [Option.bind_eq_bind, Option.bind_some, hint, Json.str?]
  rfl

/-- A certificate is read from its document. -/
lemma LeadershipCertificate.ofDocument?_document (c : LeadershipCertificate) :
    NamedCertificate.ofDocument? (c.document : Json ν) = some c.named := by
  have hint : ∀ n : ℤ, (Json.num (ofInt n) : Json ν).int? = some n := fun n => int?_ofInt n
  have hkeys : ((c.document : Json ν).members.map Prod.fst).Nodup := by
    show ["term", "leader", "committed_nonce", "votes", "digest"].Nodup
    decide
  have hmember := Json.member?_eq hkeys
  have hterm : (c.document : Json ν).member? "term" = some (.num (ofInt c.term)) := hmember _
  have hleader : (c.document : Json ν).member? "leader" = some (.str c.leader.value) := hmember _
  have hnonce : (c.document : Json ν).member? "committed_nonce" =
      some (.num (ofInt c.committedNonce)) := hmember _
  have hvotes : (c.document : Json ν).member? "votes" =
      some (.arr (c.votes.map FailureVote.document)) := hmember _
  have hdigest : (c.document : Json ν).member? "digest" = some (.str c.digest) := hmember _
  have hread : (c.votes.map FailureVote.document).mapM (NamedVote.ofDocument? (ν := ν)) =
      some (c.votes.map FailureVote.named) := by
    induction c.votes with
    | nil => rfl
    | cons v vs ih =>
      simp only [List.map_cons, List.mapM_cons, FailureVote.ofDocument?_document, ih,
        Option.bind_eq_bind, Option.bind_some, Option.pure_def]
  unfold NamedCertificate.ofDocument?
  rw [hterm, hleader, hnonce, hvotes, hdigest]
  simp only [Option.bind_eq_bind, Option.bind_some, hint, Json.str?, Json.arr?, hread]
  rfl

section Sorted

variable {r : String → String → Prop} [DecidableRel r] {v : Json ν}

/-- A vote is read whatever the order of its members. -/
lemma NamedVote.ofDocument?_sortBy (hkeys : v.DistinctKeys) :
    NamedVote.ofDocument? (v.sortBy r) = NamedVote.ofDocument? v := by
  unfold NamedVote.ofDocument?
  simp only [Json.size_sortBy hkeys, Json.member?_sortBy hkeys.nodup, Option.bind_map,
    Function.comp_def, Json.str?_sortBy, Json.int?_sortBy]

/-- A certificate is read whatever the order of its members. -/
lemma NamedCertificate.ofDocument?_sortBy (hkeys : v.DistinctKeys) :
    NamedCertificate.ofDocument? (v.sortBy r) = NamedCertificate.ofDocument? v := by
  have hvotes : ((v.sortBy r).member? "votes").bind Json.arr? =
      ((v.member? "votes").bind Json.arr?).map fun xs => xs.map (Json.sortBy r) := by
    rw [Json.member?_sortBy hkeys.nodup, Option.bind_map]
    cases v.member? "votes" with
    | none => rfl
    | some w => exact Json.arr?_sortBy w
  have hread : ∀ xs, (v.member? "votes").bind Json.arr? = some xs →
      (xs.map (Json.sortBy r)).mapM NamedVote.ofDocument? = xs.mapM NamedVote.ofDocument? := by
    intro xs hxs
    obtain ⟨w, hw, hwxs⟩ := Option.bind_eq_some_iff.mp hxs
    have hdistinct : ∀ x ∈ xs, x.DistinctKeys := by
      cases w with
      | arr ys =>
        obtain rfl : ys = xs := Option.some.inj hwxs
        exact Json.everyObject_arr.mp (hkeys.member? hw)
      | null | bool | num | str | obj => cases hwxs
    clear hxs hwxs
    induction xs with
    | nil => rfl
    | cons x xs ih =>
      rw [List.map_cons, List.mapM_cons, List.mapM_cons,
        NamedVote.ofDocument?_sortBy (hdistinct x List.mem_cons_self),
        ih fun y hy => hdistinct y (List.mem_cons_of_mem _ hy)]
  unfold NamedCertificate.ofDocument?
  rw [hvotes]
  simp only [Json.member?_sortBy hkeys.nodup, Option.bind_map, Function.comp_def, Json.str?_sortBy,
    Json.int?_sortBy]
  cases hmembers : (v.member? "votes").bind Json.arr? with
  | none => rfl
  | some xs => simp only [Option.map_some, Option.bind_eq_bind, Option.bind_some, hread xs hmembers]

end Sorted

/-- A vote has no key twice. -/
lemma FailureVote.distinctKeys_document (v : FailureVote) :
    (v.document : Json ν).DistinctKeys := by
  refine Json.everyObject_obj.mpr ⟨?_, ?_⟩
  · show ["voter", "term", "accused", "candidate", "observed_tick", "committed_nonce",
      "signature"].Nodup
    decide
  · simp [Json.EveryObject, Json.Everywhere]

/-- A certificate has no key twice. -/
lemma LeadershipCertificate.distinctKeys_document (c : LeadershipCertificate) :
    (c.document : Json ν).DistinctKeys := by
  have hvotes : (Json.arr (c.votes.map FailureVote.document) : Json ν).DistinctKeys := by
    refine Json.everyObject_arr.mpr fun x hx => ?_
    obtain ⟨v, -, rfl⟩ := List.mem_map.mp hx
    exact v.distinctKeys_document
  refine Json.everyObject_obj.mpr ⟨?_, ?_⟩
  · show ["term", "leader", "committed_nonce", "votes", "digest"].Nodup
    decide
  · intro p hp
    simp only [List.mem_cons, List.not_mem_nil, or_false] at hp
    rcases hp with rfl | rfl | rfl | rfl | rfl
    · trivial
    · trivial
    · trivial
    · exact hvotes
    · trivial

/-- The numbers of a vote are read back. -/
lemma FailureVote.everyNumber_document (py : PyLib ν) (float : String → Option ν)
    (v : FailureVote) :
    (v.document : Json ν).EveryNumber (Json.NumberReadable float py.numberText) := by
  have hread := Json.numberReadable_ofInt py float
  refine Json.everyNumber_obj.mpr fun p hp => ?_
  simp only [List.mem_cons, List.not_mem_nil, or_false] at hp
  rcases hp with rfl | rfl | rfl | rfl | rfl | rfl | rfl
  · trivial
  · exact hread _
  · trivial
  · trivial
  · exact hread _
  · exact hread _
  · trivial

/-- The numbers of a certificate are read back. -/
lemma LeadershipCertificate.everyNumber_document (py : PyLib ν) (float : String → Option ν)
    (c : LeadershipCertificate) :
    (c.document : Json ν).EveryNumber (Json.NumberReadable float py.numberText) := by
  have hread := Json.numberReadable_ofInt py float
  have hvotes : (Json.arr (c.votes.map FailureVote.document) : Json ν).EveryNumber
      (Json.NumberReadable float py.numberText) := by
    refine Json.everyNumber_arr.mpr fun x hx => ?_
    obtain ⟨v, -, rfl⟩ := List.mem_map.mp hx
    exact v.everyNumber_document py float
  refine Json.everyNumber_obj.mpr fun p hp => ?_
  simp only [List.mem_cons, List.not_mem_nil, or_false] at hp
  rcases hp with rfl | rfl | rfl | rfl | rfl
  · exact hread _
  · trivial
  · exact hread _
  · exact hvotes
  · trivial

/-- What the receiver of a certificate makes of the text that its sender writes. -/
def LeadershipCertificate.received (py : PyLib ν) (float : String → Option ν)
    (c : LeadershipCertificate) : Option NamedCertificate :=
  (Json.loads float (Json.text py.numberText c.document)).bind NamedCertificate.ofDocument?

/-- **A certificate is read back** from the text that is written for it. -/
theorem LeadershipCertificate.received_eq (py : PyLib ν) (float : String → Option ν)
    (c : LeadershipCertificate) : c.received py float = some c.named := by
  unfold received
  rw [Json.loads_text_sorted (c.everyNumber_document py float), Option.bind_some,
    NamedCertificate.ofDocument?_sortBy c.distinctKeys_document, c.ofDocument?_document]

end Documents

/-! ## Histories that have been checked -/

namespace LeadershipState

variable {authority : FailoverAuthority} {s t : LeadershipState}

/-- The leaders of a history follow one another, and its certificates are those of its terms. -/
lemma ranked_of_checkHistory {timeoutTicks expectedTerm tick nonce tick' nonce' : ℤ}
    {leader leader' : Role} {cs : List LeadershipCertificate}
    (h : checkHistory authority timeoutTicks expectedTerm leader tick nonce cs =
      .ok (leader', tick', nonce')) {j : ℕ} (hleader : Role.order[j]? = some leader) :
    Role.order[j + cs.length]? = some leader' ∧
      ∀ (i : ℕ) (c : LeadershipCertificate), cs[i]? = some c → c.term = expectedTerm + i := by
  induction cs generalizing expectedTerm leader tick nonce j with
  | nil =>
    obtain ⟨rfl, -⟩ : leader = leader' ∧ _ := by simpa [checkHistory] using h
    exact ⟨hleader, fun i c hc => by simp at hc⟩
  | cons c cs ih =>
    simp only [checkHistory, bind_eq_ok, require_eq_ok, exists_const, orRaise_eq_ok, continues,
      Bool.and_eq_true, beq_iff_eq, decide_eq_true_iff] at h
    obtain ⟨next, hnext, hc, hrest⟩ := h
    obtain ⟨hlast, hterms⟩ := ih hrest (successor?_of_order hleader hnext)
    refine ⟨?_, fun i d hd => ?_⟩
    · rw [List.length_cons, ← hlast]
      congr 1
      omega
    · cases i with
      | zero =>
        obtain rfl : c = d := by simpa using hd
        rw [hc.1.1.1.1.1.1]
        simp
      | succ i =>
        have := hterms i d (by simpa using hd)
        push_cast
        omega

/-- A record that is accepted has the certificates of its terms. -/
lemma Valid.ranked (h : s.Valid authority) : s.Ranked := by
  obtain ⟨-, ⟨hterm, -⟩, tick, nonce, hcheck, -⟩ := valid_iff.mp h
  obtain ⟨hleader, hterms⟩ := ranked_of_checkHistory hcheck (j := 0) rfl
  refine ⟨hterm, by rwa [Nat.zero_add] at hleader, fun i c hc => ?_⟩
  rw [hterms i c hc]
  omega

/-- A history is continued by what continues its end. -/
lemma checkHistory_append {timeoutTicks expectedTerm tick nonce : ℤ} {leader : Role}
    {cs ds : List LeadershipCertificate} {last : Role × ℤ × ℤ}
    (h : checkHistory authority timeoutTicks expectedTerm leader tick nonce cs = .ok last) :
    checkHistory authority timeoutTicks expectedTerm leader tick nonce (cs ++ ds) =
      checkHistory authority timeoutTicks (expectedTerm + cs.length) last.1 last.2.1 last.2.2
        ds := by
  induction cs generalizing expectedTerm leader tick nonce with
  | nil =>
    obtain rfl : (leader, tick, nonce) = last := by simpa [checkHistory] using h
    simp
  | cons c cs ih =>
    simp only [checkHistory, bind_eq_ok, require_eq_ok, exists_const, orRaise_eq_ok] at h
    obtain ⟨next, hnext, hc, hrest⟩ := h
    have hshift : expectedTerm + 1 + (cs.length : ℤ) = expectedTerm + ((c :: cs).length : ℕ) := by
      rw [List.length_cons]
      push_cast
      omega
    rw [List.cons_append, checkHistory, hnext]
    simp only [orRaise, ok_bind, require, hc, if_true]
    rw [ih hrest, hshift]

/-! ## The votes of a state -/

/-- Every role is in the order. -/
lemma mem_order (r : Role) : r ∈ Role.order := by cases r <;> decide

/-- The certificate that the votes of a state form. -/
def certificate (authority : FailoverAuthority) (s : LeadershipState) (candidate : Role) :
    LeadershipCertificate where
  term := s.term + 1
  leader := candidate
  committedNonce := s.committedNonce
  votes := Role.order.filterMap s.votes.get?
  digest := authority.digest s.committedNonce candidate (s.term + 1)
    (Role.order.filterMap s.votes.get?)

/-- The state that goes on to the term that its votes certify. -/
def certified (authority : FailoverAuthority) (s : LeadershipState) (candidate : Role) :
    LeadershipState :=
  { s with
    term := s.term + 1
    leader := candidate
    lastHeartbeatTick := ((s.votes.values.head?.map fun v => v.observedTick).getD 0)
    votes := ∅
    certificates := s.certificates ++ [s.certificate authority candidate] }

/-- **The invariant**: the record of the state is accepted, and its votes are of the roles that they
are kept under, fit the state, and describe one timeout. -/
structure Standing (authority : FailoverAuthority) (s : LeadershipState) : Prop where
  valid : s.Valid authority
  keyed : ∀ r v, s.votes.get? r = some v → v.voter = r
  fitting : ∀ r v, s.votes.get? r = some v →
    ∃ candidate, s.leader.successor? = some candidate ∧ s.fits authority candidate v = true
  together : ∀ r v q w, s.votes.get? r = some v → s.votes.get? q = some w →
    v.observedTick = w.observedTick

/-- A state without votes stands with its record. -/
lemma standing_of_valid (h : s.Valid authority) (hvotes : s.votes = ∅) : s.Standing authority := by
  have hnone : ∀ r, s.votes.get? r = none := fun r => by rw [hvotes]; rfl
  refine ⟨h, fun r v hv => ?_, fun r v hv => ?_, fun r v q w hv => ?_⟩ <;>
  · rw [hnone] at hv
    cases hv

/-- The votes of a certificate are those of the state. -/
lemma mem_signed {v : FailureVote} :
    v ∈ Role.order.filterMap s.votes.get? ↔ ∃ r, s.votes.get? r = some v := by
  rw [List.mem_filterMap]
  exact exists_congr fun r => and_iff_right (mem_order r)

/-- The voters of a certificate are the roles that have voted. -/
lemma Standing.voters (h : s.Standing authority) :
    (Role.order.filterMap s.votes.get?).map (fun v => v.voter) =
      Role.order.filter s.votes.contains := by
  rw [List.map_filterMap, ← List.filterMap_eq_filter]
  refine List.filterMap_congr fun r _ => ?_
  cases hv : s.votes.get? r with
  | none => simp [Option.guard, Dict.contains, hv]
  | some v => simp [Option.guard, Dict.contains, hv, h.keyed r v hv]

/-- All votes of a state are in its certificate. -/
lemma Standing.length_signed (h : s.Standing authority) :
    (Role.order.filterMap s.votes.get?).length = s.votes.size := by
  have hperm : (Role.order.filter s.votes.contains).Perm s.votes.keys := by
    refine (List.perm_ext_iff_of_nodup ((by decide : Role.order.Nodup).filter _)
      s.votes.nodup_keys).mpr fun r => ?_
    rw [List.mem_filter, and_iff_right (mem_order r), Dict.contains_iff]
    exact Dict.mem_keys_iff.symm
  rw [← List.length_map (fun v : FailureVote => v.voter), h.voters, hperm.length_eq,
    Dict.size_eq_length_keys]

/-- **The certificate of a state continues its history.** -/
lemma Standing.continues (h : s.Standing authority) (hquorum : quorum ≤ s.votes.size)
    {candidate : Role} (hnext : s.leader.successor? = some candidate) {tick nonce : ℤ}
    (htick : tick ≤ s.lastHeartbeatTick) (hnonce : nonce ≤ s.committedNonce) :
    continues authority s.timeoutTicks (s.term + 1) s.leader candidate tick nonce
      (s.certificate authority candidate) = true := by
  have hvoters : ((s.certificate authority candidate).votes.map fun v => v.voter).Nodup := by
    show ((Role.order.filterMap s.votes.get?).map fun v => v.voter).Nodup
    rw [h.voters]
    exact (by decide : Role.order.Nodup).filter _
  have hlength : quorum ≤ (s.certificate authority candidate).votes.length := by
    show quorum ≤ (Role.order.filterMap s.votes.get?).length
    rw [h.length_signed]
    exact hquorum
  have hsupports : ∀ v ∈ (s.certificate authority candidate).votes,
      supports authority s.timeoutTicks s.leader tick (s.certificate authority candidate) v =
        true := by
    intro v hv
    obtain ⟨r, hr⟩ := mem_signed.mp hv
    obtain ⟨next, hsuccessor, hfits⟩ := h.fitting r v hr
    obtain rfl : candidate = next := Option.some.inj (hnext.symm.trans hsuccessor)
    simp only [fits, Bool.and_eq_true, beq_iff_eq, bne_iff_ne, decide_eq_true_iff] at hfits
    obtain ⟨⟨⟨⟨⟨⟨hverify, hterm⟩, haccused⟩, hcandidate⟩, htimeout⟩, hposition⟩, hvoter⟩ := hfits
    have hfirst : (s.certificate authority candidate).votes.head?.all
        (fun first => v.observedTick == first.observedTick) = true := by
      cases hhead : (s.certificate authority candidate).votes.head? with
      | none => rfl
      | some first =>
        obtain ⟨q, hq⟩ := mem_signed.mp (List.mem_of_mem_head? hhead)
        exact beq_iff_eq.mpr (h.together r v q first hr hq)
    have hvoter' : (v.voter != v.accused) = true := bne_iff_ne.mpr (haccused ▸ hvoter)
    simp only [supports, hverify, hfirst, hvoter', Bool.true_and, Bool.and_true, Bool.and_eq_true,
      beq_iff_eq, decide_eq_true_iff]
    exact ⟨⟨⟨⟨hterm, haccused⟩, hcandidate⟩, hposition⟩, by omega⟩
  simp only [LeadershipState.continues, Bool.and_eq_true, beq_iff_eq, decide_eq_true_iff,
    List.all_eq_true]
  exact ⟨⟨⟨⟨⟨⟨rfl, rfl⟩, hlength⟩, hvoters⟩, hnonce⟩, hsupports⟩, rfl⟩

/-- The tick on which the votes of a state agree. -/
lemma Standing.certifiedTick (h : s.Standing authority) (hquorum : quorum ≤ s.votes.size)
    (candidate : Role) : ∃ first ∈ s.votes.values.head?,
      certifiedTick (s.certificate authority candidate) = first.observedTick ∧
        (s.certificate authority candidate).votes.head?.isSome ∧
        s.lastHeartbeatTick + s.timeoutTicks ≤ first.observedTick := by
  obtain ⟨first, hfirst⟩ : ∃ first, s.votes.values.head? = some first := by
    cases hvalues : s.votes.values with
    | nil =>
      have hsize : s.votes.values.length = s.votes.size := by simp [Dict.values, Dict.size]
      rw [hvalues] at hsize
      rw [← hsize] at hquorum
      cases hquorum
    | cons first rest => exact ⟨first, rfl⟩
  obtain ⟨second, hsecond⟩ :
      ∃ second, (s.certificate authority candidate).votes.head? = some second := by
    cases hvotes : (s.certificate authority candidate).votes with
    | nil =>
      have hlength := h.length_signed
      rw [show Role.order.filterMap s.votes.get? = [] from hvotes] at hlength
      rw [← hlength] at hquorum
      cases hquorum
    | cons second rest => exact ⟨second, rfl⟩
  obtain ⟨r, hr⟩ := Dict.mem_values_iff.mp (List.mem_of_mem_head? hfirst)
  obtain ⟨q, hq⟩ := mem_signed.mp (List.mem_of_mem_head? hsecond)
  obtain ⟨next, -, hfits⟩ := h.fitting r first hr
  simp only [fits, Bool.and_eq_true, decide_eq_true_iff] at hfits
  refine ⟨first, hfirst, ?_, by rw [hsecond]; rfl, by omega⟩
  unfold LeadershipState.certifiedTick
  rw [hsecond]
  exact h.together q second r first hq hr

/-- **A certificate is adopted** by every state with the record of the state that forms it.

**Proof sketch.** The history of the record is continued by the certificate: the votes fit a state
whose last heartbeat is not before the tick of the certificate before it. -/
theorem Standing.acceptCertificate (h : s.Standing authority) (hquorum : quorum ≤ s.votes.size)
    {candidate : Role} (hnext : s.leader.successor? = some candidate)
    (hsame : t.snapshot = s.snapshot) :
    ∃ t', t.acceptCertificate authority (s.certificate authority candidate) = .ok t' ∧
      t'.snapshot = (s.certified authority candidate).snapshot := by
  obtain ⟨first, hfirst, htick, hsome, hlate⟩ := h.certifiedTick hquorum candidate
  obtain ⟨htimeout, hterm, hleader, -, hnonce, hcertificates⟩ := snapshot_eq_iff.mp hsame
  have hranked := h.valid.ranked
  obtain ⟨htwo, ⟨hlength, hpos, -, hlast, hposition⟩, tick, nonce, hcheck, htick', hnonce'⟩ :=
    valid_iff.mp h.valid
  have hfresh : s.certificate authority candidate ∉ t.certificates := by
    intro hmem
    obtain ⟨i, hi⟩ := List.mem_iff_getElem?.mp (hcertificates ▸ hmem)
    have hrange := (List.getElem?_eq_some_iff.mp hi).1
    have hdate : s.term + 1 = i + 1 := hranked.terms i _ hi
    omega
  have hbound : s.certificates.length + 1 < Role.order.length :=
    (List.getElem?_eq_some_iff.mp (successor?_of_order hranked.leader hnext)).1
  have hvalid : Valid authority { t with
      term := s.term + 1
      leader := candidate
      lastHeartbeatTick := first.observedTick
      certificates := s.certificates ++ [s.certificate authority candidate] } := by
    refine valid_iff.mpr ⟨htimeout ▸ htwo, ⟨?_, ?_, ?_, ?_, ?_⟩, first.observedTick,
      s.committedNonce, ?_, le_rfl, hnonce.ge⟩
    · rw [List.length_append, List.length_singleton, hlength]
      push_cast
      rfl
    · show 0 ≤ s.term + 1
      omega
    · show s.term + 1 < (Role.order.length : ℤ)
      omega
    · show 0 ≤ first.observedTick
      omega
    · exact hnonce ▸ hposition
    · show LeadershipState.checkHistory authority t.timeoutTicks 1 .primary 0 0
        (s.certificates ++ [s.certificate authority candidate]) = _
      have hcontinues := h.continues hquorum hnext htick' hnonce'
      rw [hlength, add_comm] at hcontinues
      rw [htimeout, checkHistory_append hcheck]
      simp only [checkHistory, orRaise, hnext, ok_bind, require, hcontinues, if_true, htick]
      rfl
  obtain ⟨second, hsecond⟩ := Option.isSome_iff_exists.mp hsome
  have hagree : second.observedTick = first.observedTick := by
    unfold LeadershipState.certifiedTick at htick
    rw [hsecond] at htick
    exact htick
  have hsuccessor : t.leader.successor? = some candidate := hleader ▸ hnext
  have hlater : (s.certified authority candidate).lastHeartbeatTick = second.observedTick := by
    show (s.votes.values.head?.map fun v => v.observedTick).getD 0 = _
    rw [Option.mem_def.mp hfirst, hagree]
    rfl
  unfold Valid at hvalid
  rw [← hagree] at hvalid
  refine ⟨{ t with
    term := s.term + 1
    leader := candidate
    lastHeartbeatTick := second.observedTick
    votes := ∅
    certificates := s.certificates ++ [s.certificate authority candidate] }, ?_, ?_⟩
  · unfold LeadershipState.acceptCertificate
    rw [if_neg hfresh, hterm, hcertificates]
    simp only [bind_eq_ok, require_eq_ok, exists_const, pure_eq_ok, orRaise_eq_ok, successor,
      Bool.and_eq_true, beq_iff_eq]
    exact ⟨candidate, hsuccessor, ⟨rfl, rfl⟩, hnonce.symm, second, hsecond, _, hvalid, rfl⟩
  · exact snapshot_eq_iff.mpr ⟨htimeout, rfl, rfl, hlater.symm, hnonce, rfl⟩

/-- A vote that is collected is one more vote of the state. -/
lemma Standing.record (h : s.Standing authority) {vote : FailureVote} {candidate : Role}
    (hnext : s.leader.successor? = some candidate)
    (hfits : s.fits authority candidate vote = true)
    (hfirst : s.votes.values.head?.all
      (fun first => first.observedTick == vote.observedTick) = true) :
    Standing authority { s with votes := s.votes.set vote.voter vote } := by
  have htick : ∀ r v, s.votes.get? r = some v → v.observedTick = vote.observedTick := by
    intro r v hv
    cases hhead : s.votes.values.head? with
    | none =>
      have hmem : v ∈ s.votes.values := Dict.mem_values_iff.mpr ⟨r, hv⟩
      rw [List.head?_eq_none_iff.mp hhead] at hmem
      cases hmem
    | some first =>
      rw [hhead] at hfirst
      obtain ⟨q, hq⟩ := Dict.mem_values_iff.mp (List.mem_of_mem_head? hhead)
      exact (h.together r v q first hv hq).trans (beq_iff_eq.mp hfirst)
  have hget : ∀ r v, (s.votes.set vote.voter vote).get? r = some v →
      s.votes.get? r = some v ∨ (r = vote.voter ∧ v = vote) := by
    intro r v hv
    rw [Dict.get?_set] at hv
    split_ifs at hv with hr
    · exact .inr ⟨hr.symm, (Option.some.inj hv).symm⟩
    · exact .inl hv
  refine ⟨h.valid.congr rfl, fun r v hv => ?_, fun r v hv => ?_, fun r v q w hv hw => ?_⟩
  · rcases hget r v hv with hold | ⟨rfl, rfl⟩
    · exact h.keyed r v hold
    · rfl
  · rcases hget r v hv with hold | ⟨rfl, rfl⟩
    · exact h.fitting r v hold
    · exact ⟨candidate, hnext, hfits⟩
  · have hone : ∀ r v, (s.votes.set vote.voter vote).get? r = some v →
        v.observedTick = vote.observedTick := by
      intro r v hv
      rcases hget r v hv with hold | ⟨-, rfl⟩
      · exact htick r v hold
      · rfl
    exact (hone r v hv).trans (hone q w hw).symm

/-- **What a vote does.** A vote that forms no certificate leaves the record of the state as it is.
With a certificate the state goes on to the term that it certifies, and so does every state that had
its record.

**Proof sketch.** The votes of the state and the new one fit the state and describe one timeout, so
that their certificate is adopted; the state that forms it has the same record afterwards. -/
theorem Standing.submit (h : s.Standing authority) {vote : FailureVote}
    {formed : Option LeadershipCertificate} (hsubmit : s.submit authority vote = .ok (t, formed)) :
    t.Standing authority ∧ match formed with
      | none => t.snapshot = s.snapshot
      | some c => ∀ u : LeadershipState, u.snapshot = s.snapshot →
          ∃ u', u.acceptCertificate authority c = .ok u' ∧ u'.snapshot = t.snapshot := by
  unfold LeadershipState.submit at hsubmit
  simp only [bind_eq_ok, require_eq_ok, exists_const, successor, orRaise_eq_ok] at hsubmit
  obtain ⟨candidate, hnext, hfits, hsubmit⟩ := hsubmit
  cases hvotes : s.votes.get? vote.voter with
  | some existing =>
    simp only [hvotes, bind_eq_ok, require_eq_ok, exists_const, pure_eq_ok] at hsubmit
    obtain ⟨-, heq⟩ := hsubmit
    cases heq
    exact ⟨h, rfl⟩
  | none =>
    simp only [hvotes, bind_eq_ok, require_eq_ok, exists_const] at hsubmit
    obtain ⟨hfirst, hsubmit⟩ := hsubmit
    have hrecord := h.record hnext hfits hfirst
    split_ifs at hsubmit with hquorum
    · cases hsubmit
      exact ⟨hrecord, rfl⟩
    · cases hsubmit
      have hadopted : ∀ u : LeadershipState, u.snapshot = s.snapshot → _ := fun u hu =>
        hrecord.acceptCertificate (not_lt.mp hquorum) hnext hu
      obtain ⟨s', haccept, hs'⟩ := hadopted s rfl
      exact ⟨standing_of_valid ((h.valid.accept haccept).congr hs'.symm) rfl, hadopted⟩

/-- A heartbeat moves the record forward and takes the votes away. -/
lemma Standing.heartbeat (h : s.Standing authority) {leader : Role} {term tick nonce : ℤ}
    (hbeat : s.heartbeat leader term tick nonce = .ok t) : t.Standing authority := by
  have hhistory := history_heartbeat hbeat
  unfold LeadershipState.heartbeat at hbeat
  simp only [bind_eq_ok, require_eq_ok, exists_const, pure_eq_ok, Bool.and_eq_true, beq_iff_eq,
    decide_eq_true_iff] at hbeat
  obtain ⟨-, ⟨htick, hnonce⟩, rfl⟩ := hbeat
  exact standing_of_valid (h.valid.advance hhistory rfl htick.le hnonce) rfl

/-- A certificate that is adopted takes the votes away, unless it is the last one already. -/
lemma Standing.accept (h : s.Standing authority) {c : LeadershipCertificate}
    (haccept : s.acceptCertificate authority c = .ok t) : t.Standing authority := by
  have hvalid := h.valid.accept haccept
  rcases acceptCertificate_eq_ok haccept with ⟨-, rfl⟩ | ⟨-, -, -, -, tick, rfl⟩
  · exact h
  · exact standing_of_valid hvalid rfl

/-- **Every call keeps the invariant.** -/
theorem Standing.step (h : s.Standing authority) {call : LeadershipCall}
    (hstep : s.step authority call = some t) : t.Standing authority := by
  obtain rfl : s.after authority call = t := Option.some.inj hstep
  unfold after
  cases hperform : s.perform authority call with
  | none => exact h
  | some u =>
    cases call with
    | heartbeat leader term tick nonce =>
      simp only [perform, Option.bind_eq_bind, Option.bind_eq_some_iff, toOption_eq_some]
        at hperform
      obtain ⟨role, -, hbeat⟩ := hperform
      exact h.heartbeat hbeat
    | submit vote =>
      simp only [perform, Option.bind_eq_bind, Option.bind_eq_some_iff, toOption_eq_some,
        Prod.exists, Option.some.injEq] at hperform
      obtain ⟨vote, -, u, formed, hsubmit, rfl⟩ := hperform
      exact (h.submit hsubmit).1
    | acceptCertificate certificate =>
      simp only [perform, Option.bind_eq_bind, Option.bind_eq_some_iff, toOption_eq_some]
        at hperform
      obtain ⟨certificate, -, haccept⟩ := hperform
      exact h.accept haccept

/-- A fresh state stands. -/
lemma standing_initial {timeoutTicks : ℤ} (h : 2 ≤ timeoutTicks) :
    (initial timeoutTicks).Standing authority := by
  have hterm : (0 : ℤ) < Role.order.length := by decide
  exact standing_of_valid (valid_iff.mpr
    ⟨h, ⟨rfl, le_rfl, hterm, le_rfl, le_rfl⟩, 0, 0, rfl, le_rfl, le_rfl⟩) rfl

/-! ## Records survive -/

variable {ν : Type} [PyNumber ν]

/-- **The records of a leadership survive** being saved and being adopted. In every state that a
run of calls leads to from a fresh one, the record is restored as it is; a vote that forms no
certificate does not change the record; and a certificate that a vote forms, or what is read from
its text, brings every state that has the record of the submitter to the record that the submitter
has now.

**Proof sketch.** Induction on the calls for the invariant, then `Standing.submit`, and the
certificate is read back from its text. -/
theorem records_survive (py : PyLib ν) (float : String → Option ν) (authority : FailoverAuthority)
    {timeoutTicks : ℤ} (htimeout : 2 ≤ timeoutTicks) {calls : List LeadershipCall}
    {s : LeadershipState}
    (hrun : Transition.run (step authority) (initial timeoutTicks) calls = some s) :
    (∃ restored, fromSnapshot authority s.snapshot = .ok restored ∧
      restored.snapshot = s.snapshot) ∧
    (∀ vote t, s.submit authority vote = .ok (t, none) → t.snapshot = s.snapshot) ∧
    ∀ vote t c, s.submit authority vote = .ok (t, some c) →
      ∀ u : LeadershipState, u.snapshot = s.snapshot →
        (∃ u', u.acceptCertificate authority c = .ok u' ∧ u'.snapshot = t.snapshot) ∧
        ∃ received, c.received py float = some received ∧
          ∃ u', u.perform authority (.acceptCertificate received) = some u' ∧
            u'.snapshot = t.snapshot := by
  have hstanding : s.Standing authority :=
    Transition.run_induction (fun _ _ _ h hstep => h.step hstep) (standing_initial htimeout) hrun
  refine ⟨⟨s.snapshot, hstanding.valid.congr rfl, rfl⟩, fun vote t hsubmit => ?_,
    fun vote t c hsubmit u hu => ?_⟩
  · exact (hstanding.submit hsubmit).2
  · obtain ⟨u', haccept, hu'⟩ := (hstanding.submit hsubmit).2 u hu
    refine ⟨⟨u', haccept, hu'⟩, c.named, c.received_eq py float, u', ?_, hu'⟩
    simp only [perform, c.certificate?_named, Option.bind_eq_bind, Option.bind_some, haccept]
    rfl

/-- A vote that fits is collected when its voter has not voted yet; the second one certifies. -/
lemma submit_of_fits {vote : FailureVote} {candidate : Role}
    (hnext : s.leader.successor? = some candidate) (hfits : s.fits authority candidate vote = true)
    (hnew : s.votes.get? vote.voter = none)
    (hfirst : s.votes.values.head?.all
      (fun first => first.observedTick == vote.observedTick) = true) :
    s.submit authority vote =
      (let t := { s with votes := s.votes.set vote.voter vote }
      if t.votes.size < quorum then .ok (t, none)
      else .ok (t.certified authority candidate, some (t.certificate authority candidate))) := by
  unfold submit
  simp only [successor, orRaise, hnext, ok_bind, require, hfits, hnew, hfirst, if_true]
  rfl

/-- A vote that is taken is the only step of its run. -/
lemma run_submit {vote : FailureVote} {formed : Option LeadershipCertificate}
    (h : s.submit authority vote = .ok (t, formed)) :
    Transition.run (step authority) s [.submit vote.named] = some t := by
  have hperform : s.perform authority (.submit vote.named) = some t := by
    simp only [perform, FailureVote.vote?_named, Option.bind_eq_bind, Option.bind_some, h]
    rfl
  refine Transition.run_cons_eq_some_iff.mpr ⟨t, ?_, rfl⟩
  unfold step after
  rw [hperform, Option.getD_some]

/-- A vote on the timeout of the first leader fits a state that has heard nothing of it. -/
lemma fits_timeoutBallot {voter : Role} (hvoter : voter ≠ .primary)
    (votes : Dict Role FailureVote) :
    fits Network.clusterKeys.failover { initial 3 with votes := votes } .secondary
      (Network.timeoutBallot voter) = true := by
  have hverify : Network.clusterKeys.failover.verifyVote (Network.timeoutBallot voter) = true := by
    simp only [Network.timeoutBallot, FailoverAuthority.vote, FailoverAuthority.verifyVote,
      FailoverAuthority.verify_sign]
  have hleader : (voter != Role.primary) = true := bne_iff_ne.mpr hvoter
  unfold fits
  rw [hverify]
  exact hleader

/-- The certificate of the second leader is adopted by a fresh state. -/
theorem records_survive_elected : ∃ c t,
    acceptCertificate Network.clusterKeys.failover (initial 3) c = .ok t ∧ t.term = 1 := by
  let voted : LeadershipState :=
    { initial 3 with votes := Dict.set ∅ .secondary (Network.timeoutBallot .secondary) }
  have hfirst : submit Network.clusterKeys.failover (initial 3)
      (Network.timeoutBallot .secondary) = .ok (voted, none) :=
    (submit_of_fits rfl (fits_timeoutBallot (by decide) ∅) rfl rfl).trans (if_pos (by decide))
  have hsecond := (submit_of_fits (s := voted) rfl
    (fits_timeoutBallot (by decide : Role.tertiary ≠ .primary) voted.votes)
    (Dict.get?_set_of_ne ∅ _ (by decide)) (beq_self_eq_true (13 : ℤ))).trans (if_neg (by decide))
  obtain ⟨⟨t, haccept, hsame⟩, -⟩ :=
    (records_survive Ledger.integerLib (fun _ => none) Network.clusterKeys.failover
      (by decide : (2 : ℤ) ≤ 3) (run_submit hfirst)).2.2 _ _ _ hsecond (initial 3) rfl
  exact ⟨_, t, haccept, (snapshot_eq_iff.mp hsame).2.1⟩

end LeadershipState

end SplitChain
