import SplitChain.Model.Enrollment

set_option relaxedAutoImplicit false
set_option autoImplicit false

/-!
# The queue of enrollments

The web intake `splitchain.enrollment_web` keeps every enrollment as a file of a queue, enrolls it
in the account registry when the operator approves it, and registers its account with the cluster.
It may be killed between any two accesses to the files and started again.

## Main definitions

* `SplitChain.EnrollmentStore.submit`, `SplitChain.EnrollmentStore.check`,
  `SplitChain.EnrollmentStore.approve`.
* `SplitChain.Site.Moves` — what a single access of the intake does to the files.
* `SplitChain.Site.Sound` — what the queue and the registry say of each other.
* `SplitChain.Intake`, `SplitChain.Intake.step` — the runs of the intake.

## Main results

* `SplitChain.Site.Moves.sound` — every access keeps the files sound.
* `SplitChain.EnrollmentStore.alone_submit`, `SplitChain.EnrollmentStore.alone_approve`.
* `SplitChain.Intake.enrollments_consistent` — what holds over whole runs.
-/

namespace SplitChain

open Raise

open FileRoutine Transition

variable {ν : Type} [PyNumber ν]

/-! ## The intake -/

/-- `MAX_PENDING` -/
def maxPending : ℕ := 200

/-- What a requester learns about an enrollment. -/
structure Submission where
  account : String
  receipt : String
  status : EnrollmentStatus
deriving DecidableEq

/-- The request file of an enrollment, with exactly the four members of a request. -/
def Enrollment.request (e : Enrollment) : Json ν :=
  .obj [("schema", .str e.schema), ("network_id", .str e.networkId), ("account", .str e.account),
    ("credential", .str e.credential)]

namespace EnrollmentStore

/-- The account and the credential of a submission. A body that is no JSON document is `none`. -/
def submission (genesis : GenesisConfig) (body : Option (Json ν)) :
    Except Failure (String × String) := do
  let document ← orRaise body (.enrollment "invalid JSON request")
  let fields ← orRaise document.dict? (.enrollment "invalid request")
  let keys := fields.keys.map (Json.str (ν := ν))
  Raise.require (Json.isSetOf keys requestKeys && matchesTestnet genesis fields)
    (.enrollment "invalid testnet request")
  orRaise (wallet? genesis fields) (.enrollment "invalid wallet ID or credential")

/-- Put a request into the queue. -/
def submit (genesis : GenesisConfig) (body : Option (Json ν)) (receipt : String) :
    FileRoutine ν Submission := do
  let (actor, credential) ← .lift (submission genesis body)
  match ← access (.readTarget actor) with
  | some saved => do
    require (saved.credential == credential) (.enrollment "wallet ID already requested")
    return ⟨actor, saved.receipt, saved.status⟩
  | none => do
    let count ← access .countQueue
    require (decide (count < maxPending)) (.enrollment "enrollment queue is full")
    access (.writeTarget actor ⟨"splitchain-wallet-enrollment/v1", genesis.networkId, actor,
      credential, receipt, .pending⟩)
    return ⟨actor, receipt, .pending⟩

/-- The account and the receipt of a query, if they are such. -/
def query? (body : Option (Json ν)) : Option (String × String) := do
  let query ← body.bind Json.dict?
  let actor ← (query.get? "account").bind Json.str?
  let receipt ← (query.get? "receipt").bind Json.str?
  if Ledger.accountPattern actor then some (actor, receipt) else none

/-- The status of an enrollment, for who knows its receipt. -/
def check (body : Option (Json ν)) : FileRoutine ν (String × EnrollmentStatus) := do
  let (actor, receipt) ← .lift (orRaise (query? body) (.enrollment "request not found"))
  match ← access (.readTarget actor) with
  | some saved => do
    require (saved.receipt == receipt) (.enrollment "request not found")
    return (actor, saved.status)
  | none => .raise (.enrollment "request not found")

/-- Enroll a saved request in the registry, through a request file that is removed again. -/
def enroll (genesis : GenesisConfig) (actor : String) (saved : Enrollment) :
    FileRoutine ν Unit := do
  access (.writeRequest (.queued actor) saved.request)
  Routine.ensuring (do
    let _ ← requestFromFile genesis (.queued actor)
    let _ ← SplitChain.approve genesis (.queued actor)
    return ()) (access (.unlinkRequest (.queued actor)))

/-- File a saved request as approved. -/
def markApproved (actor : String) (saved : Enrollment) : FileRoutine ν Unit :=
  if saved.status ≠ .approved then access (.writeTarget actor { saved with status := .approved })
  else return ()

/-- Register an account with the cluster: whether it is active now. An approved request is kept for
a later retry. -/
def activated (py : PyLib ν) (genesis : GenesisConfig) (actor : String) (ids : String → String)
    (clock : String → ℤ) : FileRoutine ν Bool :=
  Routine.handle (do
    let _ ← activate py genesis actor ids clock
    return true) fun e => match e with
      | .enrollment _ => .ret false
      | e => .raise e

/-- Approve an enrollment in the registry and register its account with the cluster. -/
def approve (py : PyLib ν) (genesis : GenesisConfig) (actor : String) (ids : String → String)
    (clock : String → ℤ) : FileRoutine ν EnrollmentStatus := do
  require (Ledger.accountPattern actor) (.enrollment "invalid account")
  match ← access (.readTarget actor) with
  | none => .raise .fileNotFound
  | some saved =>
    if saved.status = .active then return .active
    else do
      enroll genesis actor saved
      markApproved actor saved
      if ← activated py genesis actor ids clock then
        access (.writeTarget actor { saved with status := .active })
        return .active
      else return .approved

end EnrollmentStore

/-! ## Single accesses -/

/-- A well-formed enrollment of a wallet of the network. -/
structure Enrollment.Valid (genesis : GenesisConfig) (e : Enrollment) : Prop where
  schema : e.schema = "splitchain-wallet-enrollment/v1"
  networkId : e.networkId = genesis.networkId
  account : enrollable genesis e.account = true
  credential : isHex 64 e.credential = true

namespace EnrollmentStatus

/-- The status after a status. -/
def next : EnrollmentStatus → EnrollmentStatus
  | pending => approved
  | approved => active
  | active => active

end EnrollmentStatus

namespace Site

variable (genesis : GenesisConfig)

/-- What a single access of the intake does to the files. -/
inductive Moves (w t : Site ν) : Prop where
  | quiet (h : w.Quiet t)
  | requested (e : Enrollment)
      (ht : t = { w with requests := w.requests.set (.queued e.account) ⟨true, e.request⟩ })
  | unlinked (actor : String)
      (ht : t = { w with requests := w.requests.erase (.queued actor) })
  | submitted (e : Enrollment) (hvalid : e.Valid genesis) (hroom : w.queue.size < maxPending)
      (hnew : w.queue.get? e.account = none) (hstatus : e.status = .pending)
      (ht : t = { w with queue := w.queue.set e.account e })
  | enrolled (e : Enrollment) (stored : Dict String String)
      (hqueued : w.queue.get? e.account = some e) (hstored : w.stored = some stored)
      (hnew : stored.get? e.account = none)
      (ht : t = w.replaceRegistry (stored.set e.account e.credential))
  | approved (e : Enrollment) (hqueued : w.queue.get? e.account = some e)
      (hstatus : e.status = .pending) (hheld : w.credential? e.account = some e.credential)
      (ht : t = { w with queue := w.queue.set e.account { e with status := .approved } })
  | activated (e : Enrollment) (hqueued : w.queue.get? e.account = some e)
      (hstatus : e.status = .approved) (hheld : w.credential? e.account = some e.credential)
      (hconfirmed : w.Confirmed genesis e.account)
      (ht : t = { w with queue := w.queue.set e.account { e with status := .active } })

/-- What the queue and the registry say of each other: the queue is not too long, every enrollment
is well-formed and filed under its account, the registry holds the credential of those that are
approved, and a node has confirmed those that are active. -/
structure Sound (w : Site ν) : Prop where
  room : w.queue.size ≤ maxPending
  valid : ∀ a e, w.queue.get? a = some e → e.Valid genesis
  filed : ∀ a e, w.queue.get? a = some e → e.account = a
  held : ∀ a e, w.queue.get? a = some e → e.status ≠ .pending → w.credential? a = some e.credential
  confirmed : ∀ a e, w.queue.get? a = some e → e.status = .active → w.Confirmed genesis a

/-- What one access may change: an enrollment is added as pending or its status goes on to the next
one, and the registry loses no credential. -/
structure Advances (w t : Site ν) : Prop where
  fresh : ∀ a e, w.queue.get? a = none → t.queue.get? a = some e → e.status = .pending
  kept : ∀ a e, w.queue.get? a = some e → ∃ s, (s = e.status ∨ s = e.status.next) ∧
    t.queue.get? a = some { e with status := s }
  registry : ∀ a c, w.credential? a = some c → t.credential? a = some c

variable {genesis} {w t : Site ν}

omit [PyNumber ν] in
/-- What a reader finds decides the credentials. -/
lemma credential?_congr (h : t.stored = w.stored) (a : String) :
    t.credential? a = w.credential? a := by
  rw [credential?, credential?, h]

omit [PyNumber ν] in
/-- Where queue and registry are the same, nothing has changed. -/
lemma Advances.of_eq (hqueue : t.queue = w.queue) (hstored : t.stored = w.stored) :
    w.Advances t where
  fresh := fun a e hnone hsome => by
    rw [hqueue, hnone] at hsome
    cases hsome
  kept := fun a e he => ⟨e.status, .inl rfl, hqueue ▸ he⟩
  registry := fun a c hc => (credential?_congr hstored a).trans hc

omit [PyNumber ν] in
/-- The status of a queued enrollment goes on to the next one. -/
lemma Advances.of_set {e : Enrollment} {s : EnrollmentStatus}
    (hqueued : w.queue.get? e.account = some e) (hs : s = e.status.next) :
    w.Advances { w with queue := w.queue.set e.account { e with status := s } } where
  fresh := fun a f hnone hsome => by
    rw [Dict.get?_set] at hsome
    split_ifs at hsome with ha
    · rw [← ha, hqueued] at hnone
      cases hnone
    · rw [hnone] at hsome
      cases hsome
  kept := fun a f hf => by
    by_cases ha : e.account = a
    · subst ha
      obtain rfl : e = f := Option.some.inj (hqueued.symm.trans hf)
      exact ⟨s, .inr hs, Dict.get?_set_self ..⟩
    · exact ⟨f.status, .inl rfl, (Dict.get?_set_of_ne _ _ ha).trans hf⟩
  registry := fun _ _ hc => hc

/-- **What one access may change.** -/
theorem Moves.advances (h : w.Moves genesis t) : w.Advances t := by
  cases h with
  | quiet h => exact .of_eq h.queue h.stored
  | requested e ht => exact ht ▸ .of_eq rfl rfl
  | unlinked actor ht => exact ht ▸ .of_eq rfl rfl
  | submitted e hvalid hroom hnew hstatus ht =>
    subst ht
    refine ⟨fun a f hnone hsome => ?_, fun a f hf => ⟨f.status, .inl rfl, ?_⟩, fun _ _ hc => hc⟩
    · rw [Dict.get?_set] at hsome
      split_ifs at hsome with ha
      · obtain rfl := Option.some.inj hsome
        exact hstatus
      · rw [hnone] at hsome
        cases hsome
    · have hne : e.account ≠ a := fun ha => by
        rw [← ha, hnew] at hf
        cases hf
      exact (Dict.get?_set_of_ne _ _ hne).trans hf
  | enrolled e stored hqueued hstored hnew ht =>
    subst ht
    refine ⟨fun a f hnone hsome => ?_, fun a f hf => ⟨f.status, .inl rfl, hf⟩, fun a c hc => ?_⟩
    · rw [queue_replaceRegistry, hnone] at hsome
      cases hsome
    · have hne : e.account ≠ a := fun ha => by
        rw [credential?_of_stored hstored, ← ha, hnew] at hc
        cases hc
      rw [credential?_of_stored (stored_replaceRegistry _ _), Dict.get?_set_of_ne _ _ hne,
        ← credential?_of_stored hstored, hc]
  | approved e hqueued hstatus hheld ht =>
    exact ht ▸ .of_set hqueued (hstatus ▸ rfl)
  | activated e hqueued hstatus hheld hconfirmed ht =>
    exact ht ▸ .of_set hqueued (hstatus ▸ rfl)

/-- What a node has confirmed stays so when more is heard. -/
lemma Confirmed.mono {a : String} (h : w.Confirmed genesis a) (hheard : w.heard <+: t.heard) :
    t.Confirmed genesis a :=
  let ⟨x, hx, hconfirms⟩ := h
  ⟨x, hheard.subset hx, hconfirms⟩

/-- Where the queue is the same, no credential is lost and no answer forgotten, the files stay
sound. -/
lemma Sound.of_queue_eq (hw : w.Sound genesis) (hqueue : t.queue = w.queue)
    (hregistry : ∀ a c, w.credential? a = some c → t.credential? a = some c)
    (hheard : w.heard <+: t.heard) : t.Sound genesis where
  room := hqueue ▸ hw.room
  valid := fun a e he => hw.valid a e (hqueue ▸ he)
  filed := fun a e he => hw.filed a e (hqueue ▸ he)
  held := fun a e he hs => hregistry a _ (hw.held a e (hqueue ▸ he) hs)
  confirmed := fun a e he hs => (hw.confirmed a e (hqueue ▸ he) hs).mono hheard

/-- An enrollment that may stand as it is filed keeps the files sound. -/
lemma Sound.set (hw : w.Sound genesis) {e : Enrollment} (hvalid : e.Valid genesis)
    (hroom : (w.queue.set e.account e).size ≤ maxPending)
    (hheld : e.status ≠ .pending → w.credential? e.account = some e.credential)
    (hconfirmed : e.status = .active → w.Confirmed genesis e.account) :
    Sound genesis { w with queue := w.queue.set e.account e } := by
  have hcases : ∀ a f, (w.queue.set e.account e).get? a = some f →
      (e.account = a ∧ e = f) ∨ w.queue.get? a = some f := by
    intro a f hf
    rw [Dict.get?_set] at hf
    split_ifs at hf with ha
    · exact .inl ⟨ha, Option.some.inj hf⟩
    · exact .inr hf
  refine ⟨hroom, fun a f hf => ?_, fun a f hf => ?_, fun a f hf hs => ?_, fun a f hf hs => ?_⟩
  · rcases hcases a f hf with ⟨rfl, rfl⟩ | hf
    · exact hvalid
    · exact hw.valid a f hf
  · rcases hcases a f hf with ⟨rfl, rfl⟩ | hf
    · rfl
    · exact hw.filed a f hf
  · rcases hcases a f hf with ⟨rfl, rfl⟩ | hf
    · exact hheld hs
    · exact hw.held a f hf hs
  · rcases hcases a f hf with ⟨rfl, rfl⟩ | hf
    · exact hconfirmed hs
    · exact hw.confirmed a f hf hs

/-- **Every access keeps the files sound.** -/
theorem Moves.sound (h : w.Moves genesis t) (hw : w.Sound genesis) : t.Sound genesis := by
  have hadvances := h.advances
  cases h with
  | quiet h => exact hw.of_queue_eq h.queue hadvances.registry h.heard
  | requested e ht =>
    subst ht
    exact hw.of_queue_eq rfl hadvances.registry List.prefix_rfl
  | unlinked actor ht =>
    subst ht
    exact hw.of_queue_eq rfl hadvances.registry List.prefix_rfl
  | submitted e hvalid hroom hnew hstatus ht =>
    have hsize : (w.queue.set e.account e).size ≤ maxPending :=
      (Dict.size_set_of_none e hnew).trans_le hroom
    exact ht ▸ hw.set hvalid hsize (fun hs => (hs hstatus).elim) fun hs => by
      rw [hstatus] at hs
      cases hs
  | enrolled e stored hqueued hstored hnew ht =>
    subst ht
    exact hw.of_queue_eq rfl hadvances.registry List.prefix_rfl
  | approved e hqueued hstatus hheld ht =>
    have hvalid := hw.valid _ e hqueued
    exact ht ▸ hw.set (e := { e with status := .approved }) ⟨hvalid.1, hvalid.2, hvalid.3, hvalid.4⟩
      ((Dict.size_set_of_some _ hqueued).trans_le hw.room) (fun _ => hheld) nofun
  | activated e hqueued hstatus hheld hconfirmed ht =>
    have hvalid := hw.valid _ e hqueued
    exact ht ▸ hw.set (e := { e with status := .active }) ⟨hvalid.1, hvalid.2, hvalid.3, hvalid.4⟩
      ((Dict.size_set_of_some _ hqueued).trans_le hw.room) (fun _ => hheld) fun _ => hconfirmed

end Site

/-! ## The accesses of the intake -/

namespace EnrollmentStore

variable {genesis : GenesisConfig} {inode : ℕ → ℕ} {w : Site ν}

/-- The account and the credential of a submission are such. -/
lemma of_submission {body : Option (Json ν)} {wallet : String × String}
    (h : submission genesis body = .ok wallet) :
    enrollable genesis wallet.1 = true ∧ isHex 64 wallet.2 = true := by
  simp only [submission, bind_eq_ok, orRaise_eq_ok] at h
  obtain ⟨_, -, fields, -, _, -, hwallet⟩ := h
  simp only [wallet?, Option.bind_eq_bind, Option.bind_eq_some_iff] at hwallet
  obtain ⟨account, -, credential, -, hpair⟩ := hwallet
  split_ifs at hpair with hboth
  obtain rfl := Option.some.inj hpair
  exact Bool.and_eq_true_iff.mp hboth

/-- A submission adds one pending enrollment at most. -/
lemma alone_submit {body : Option (Json ν)} {receipt : String} :
    (submit genesis body receipt).Alone inode (Site.Moves genesis) w
      (fun _ t => t.requests = w.requests) fun _ t => t = w := by
  have hquiet : w.Moves genesis w := .quiet (Site.Quiet.refl w)
  refine Routine.ensures_bind.mpr (Routine.ensures_lift.mpr ⟨fun wallet hwallet => ?_, fun _ _ => rfl⟩)
  refine Routine.ensures_bind.mpr (alone_access fun _ => ⟨hquiet, ?_⟩)
  simp only [FileCall.exec]
  cases hsaved : w.queue.get? wallet.1 with
  | some saved =>
    exact Routine.ensures_bind.mpr (ensures_require.mpr ⟨fun _ => rfl, fun _ => rfl⟩)
  | none =>
    obtain ⟨haccount, hcredential⟩ := of_submission hwallet
    refine Routine.ensures_bind.mpr (alone_access fun _ => ⟨hquiet, ?_⟩)
    refine Routine.ensures_bind.mpr (ensures_require.mpr ⟨fun hcount => ?_, fun _ => rfl⟩)
    have hroom : w.queue.size < maxPending :=
      (Nat.le_add_right _ _).trans_lt (of_decide_eq_true hcount)
    refine Routine.ensures_bind.mpr (alone_access fun _ => ⟨?_, rfl⟩)
    exact .submitted ⟨_, genesis.networkId, wallet.1, wallet.2, receipt, .pending⟩
      ⟨rfl, rfl, haccount, hcredential⟩ hroom hsaved rfl rfl

/-- A query changes nothing. -/
lemma alone_check {body : Option (Json ν)} :
    (check body).Alone inode (Site.Moves genesis) w (fun _ t => t = w) fun _ t => t = w := by
  have hquiet : w.Moves genesis w := .quiet (Site.Quiet.refl w)
  refine Routine.ensures_bind.mpr (Routine.ensures_lift.mpr ⟨fun query _ => ?_, fun _ _ => rfl⟩)
  refine Routine.ensures_bind.mpr (alone_access fun _ => ⟨hquiet, ?_⟩)
  simp only [FileCall.exec]
  cases w.queue.get? query.1 with
  | some saved =>
    exact Routine.ensures_bind.mpr (ensures_require.mpr ⟨fun _ => rfl, fun _ => rfl⟩)
  | none => rfl

/-- The request that the store writes is one of the account and the credential it has filed. -/
lemma checkRequest_request {e : Enrollment} {a c : String}
    (h : checkRequest genesis ⟨true, (e.request : Json ν)⟩ = .ok (a, c)) :
    a = e.account ∧ c = e.credential := by
  simp only [checkRequest, bind_eq_ok, orRaise_eq_ok] at h
  obtain ⟨_, -, fields, hfields, _, -, _, -, hwallet⟩ := h
  obtain rfl := Option.some.inj hfields
  have hpair : (if enrollable genesis e.account && isHex 64 e.credential then
      some (e.account, e.credential) else none) = some (a, c) := hwallet
  split_ifs at hpair
  exact ⟨(congrArg Prod.fst (Option.some.inj hpair)).symm,
    (congrArg Prod.snd (Option.some.inj hpair)).symm⟩

end EnrollmentStore

namespace Site

/-- No request file is left in the queue. -/
def Clear (w : Site ν) : Prop := ∀ actor, w.requests.get? (.queued actor) = none

omit [PyNumber ν] in
/-- A request file that is removed again is not left. -/
lemma Clear.erase {w t : Site ν} (hw : w.Clear) {actor : String} {file : RequestFile ν}
    (ht : t.requests = (w.requests.set (.queued actor) file).erase (.queued actor)) : t.Clear := by
  intro other
  rw [ht, Dict.get?_erase]
  split_ifs with h
  · rfl
  · rw [Dict.get?_set_of_ne _ _ h]
    exact hw other

end Site

namespace EnrollmentStore

variable {genesis : GenesisConfig} {inode : ℕ → ℕ} {w : Site ν}

variable {saved : Enrollment} {G : Site ν → Site ν → Prop}

/-- Enrolling a saved request: the registry holds its credential then, and the request file is
removed again, whether this succeeds or fails. -/
lemma alone_enroll (hqueued : w.queue.get? saved.account = some saved) :
    (enroll genesis saved.account saved).Alone inode (Site.Moves genesis) w
      (fun _ t => t.queue = w.queue ∧ t.credential? saved.account = some saved.credential ∧
        (w.Clear → t.Clear)) fun _ t => w.Clear → t.Clear := by
  refine Routine.ensures_bind.mpr (alone_access fun _ => ⟨.requested saved rfl, ?_⟩)
  simp only [FileCall.exec]
  set v : Site ν :=
    { w with requests := w.requests.set (.queued saved.account) ⟨true, saved.request⟩ } with hv
  have hfile : v.requests.get? (.queued saved.account) = some ⟨true, saved.request⟩ :=
    Dict.get?_set_self ..
  have hclear : ∀ t : Site ν, t.requests = v.requests → w.Clear →
      Site.Clear { t with requests := t.requests.erase (.queued saved.account) } :=
    fun t ht hw => hw.erase (congrArg (·.erase (.queued saved.account)) ht)
  refine Routine.ensures_ensuring.mpr (Routine.ensures_bind.mpr (Routine.ensures_bind.mpr ?_))
  refine alone_access fun _ => ⟨.quiet (Site.Quiet.refl v), ?_⟩
  simp only [FileCall.exec, hfile, Routine.ensures_lift]
  refine ⟨fun _ _ => ?_, fun _ _ => alone_access fun _ => ⟨.unlinked _ rfl, hclear v rfl⟩⟩
  refine Routine.ensures_bind.mpr ((SplitChain.alone_approve (fun _ _ h => .quiet h) hfile
    (fun a c => checkRequest_request) fun stored hstored hnew => ?_).mono
      (fun _ t ht => ?_) fun _ t ht => ?_)
  · exact .enrolled saved stored hqueued hstored hnew rfl
  · obtain ⟨hqueue, hrequests, -, hheld⟩ := ht
    exact alone_access fun _ => ⟨.unlinked _ rfl, hqueue, hheld, hclear t hrequests⟩
  · exact alone_access fun _ => ⟨.unlinked _ rfl, hclear t ht.requests⟩

/-- Filing a saved request as approved. -/
lemma alone_markApproved (hqueued : w.queue.get? saved.account = some saved)
    (hheld : w.credential? saved.account = some saved.credential)
    (hactive : saved.status ≠ .active) {E : Failure → Site ν → Prop} :
    (markApproved saved.account saved).Alone inode (Site.Moves genesis) w
      (fun _ t => t.queue.get? saved.account = some { saved with status := .approved } ∧
        t.credential? saved.account = some saved.credential ∧ t.requests = w.requests) E := by
  unfold markApproved
  split_ifs with happroved
  · have hpending : saved.status = .pending := by
      cases hs : saved.status with
      | pending => rfl
      | approved => exact (happroved hs).elim
      | active => exact (hactive hs).elim
    exact alone_access fun _ => ⟨.approved saved hqueued hpending hheld rfl,
      Dict.get?_set_self .., hheld, rfl⟩
  · have hsame : { saved with status := .approved } = saved := by
      rw [← not_ne_iff.mp happroved]
    exact ⟨hsame ▸ hqueued, hheld, rfl⟩

/-- Registering an account with the cluster. -/
lemma alone_activated (hG : ∀ w t, w.Quiet t → G w t) {py : PyLib ν} {actor : String}
    {ids : String → String} {clock : String → ℤ} :
    (activated py genesis actor ids clock).Alone inode G w
      (fun b t => w.Quiet t ∧ (b = true → t.Confirmed genesis actor)) fun _ t => w.Quiet t := by
  refine Routine.ensures_handle.mpr (Routine.ensures_bind.mpr ((alone_activate hG).mono
    (fun _ t ht => ⟨ht.1, fun _ => ht.2⟩) fun e t ht => ?_))
  cases e with
  | enrollment message => exact ⟨ht, nofun⟩
  | distribution message | fileNotFound | fileExists message | locked | python e => exact ht

/-- **Approval** by the store. Every access is one of the moves of the intake, and no request file
is left, whether the approval succeeds or fails.

**Proof sketch.** The registry gets the credential of the enrollment before its status is changed,
and a node has confirmed the account before it becomes active. -/
lemma alone_approve (hw : w.Sound genesis) {py : PyLib ν} {actor : String}
    {ids : String → String} {clock : String → ℤ} :
    (approve py genesis actor ids clock).Alone inode (Site.Moves genesis) w
      (fun _ t => w.Clear → t.Clear) fun _ t => w.Clear → t.Clear := by
  refine Routine.ensures_bind.mpr (ensures_require.mpr ⟨fun _ => ?_, fun _ h => h⟩)
  refine Routine.ensures_bind.mpr
    (alone_access fun _ => ⟨.quiet (Site.Quiet.refl w), ?_⟩)
  simp only [FileCall.exec]
  cases hsaved : w.queue.get? actor with
  | none => exact fun h => h
  | some saved =>
    obtain rfl : saved.account = actor := hw.filed actor saved hsaved
    dsimp only
    split_ifs with hactive
    · exact fun h => h
    have hkeep : ∀ {t u : Site ν}, (w.Clear → t.Clear) → u.requests = t.requests →
        w.Clear → u.Clear := fun ht hu hw actor => hu ▸ ht hw actor
    refine (alone_enroll hsaved).bind fun _ t ht => ?_
    obtain ⟨hqueue, hheld, hclear⟩ := ht
    refine (alone_markApproved (hqueue ▸ hsaved) hheld hactive).bind fun _ u hu => ?_
    obtain ⟨hqueued, hheld, hrequests⟩ := hu
    refine ((alone_activated fun _ _ h => .quiet h).mono (fun _ _ h => h)
      fun _ v hv => hkeep hclear (hv.requests.trans hrequests)).bind fun b v hv => ?_
    obtain ⟨hquiet, hconfirmed⟩ := hv
    have hrequests : v.requests = t.requests := hquiet.requests.trans hrequests
    cases b with
    | false => exact hkeep hclear hrequests
    | true =>
      have hqueued : v.queue.get? saved.account = some { saved with status := .approved } :=
        hquiet.queue ▸ hqueued
      have hheld : v.credential? saved.account = some saved.credential :=
        (Site.credential?_congr hquiet.stored _).trans hheld
      refine Routine.ensures_bind.mpr (alone_access fun _ => ⟨?_, hkeep hclear hrequests⟩)
      exact .activated { saved with status := .approved } hqueued rfl hheld (hconfirmed rfl) rfl

end EnrollmentStore

/-- The answer of a node that has an account in its ledger. -/
def NodeReply.reporting (genesis : GenesisConfig) (account : String) : NodeReply ν :=
  .answer (.obj [("result", .obj [("genesis", genesis.publicForm),
    ("balances", .obj [(account, .null)])])])

/-! ## Runs of the intake -/

/-- The intake: its files, and the operation under way, if there is one. -/
structure Intake (ν : Type) where
  site : Site ν
  running : Option (FileRoutine ν Unit)

/-- What happens to the intake. Its lock admits one operation at a time; a query needs no lock. -/
inductive IntakeEvent (ν : Type) where
  | submit (body : Option (Json ν)) (receipt : String)
  | approve (actor : String) (ids : String → String) (clock : String → ℤ)
  | check (body : Option (Json ν))
  | step (reply : NodeReply ν)
  | kill

namespace Intake

variable (py : PyLib ν) (genesis : GenesisConfig) (inode : ℕ → ℕ)

/-- Start an operation. -/
def start {α : Type} (m : Intake ν) (x : FileRoutine ν α) : Option (Intake ν) :=
  match m.running with
  | none => some { m with running := some do let _ ← x; return () }
  | some _ => none

/-- Make the next access of an operation, or let it end. -/
def proceed (m : Intake ν) (reply : NodeReply ν) : Option (Intake ν) :=
  match m.running with
  | none => none
  | some (.call call next) =>
    let (answer, site) := call.exec inode reply m.site
    some ⟨site, some (next answer)⟩
  | some _ => some { m with running := none }

/-- One event. A kill ends the operation under way; the files stay as they are. -/
def step (m : Intake ν) : IntakeEvent ν → Option (Intake ν)
  | .submit body receipt => m.start (EnrollmentStore.submit genesis body receipt)
  | .approve actor ids clock => m.start (EnrollmentStore.approve py genesis actor ids clock)
  | .check body => some { m with site := ((EnrollmentStore.check body).run
      (FileCall.exec inode) .lost m.site).2 }
  | .step reply => m.proceed inode reply
  | .kill => some { m with running := none }

/-- The files are sound, an operation under way makes moves of the intake only and leaves `K` when
it ends, and `K` holds while none is under way. -/
structure Regular (K : Site ν → Prop) (m : Intake ν) : Prop where
  sound : m.site.Sound genesis
  ends : ∀ x, m.running = some x →
    x.Alone inode (Site.Moves genesis) m.site (fun _ => K) fun _ => K
  rests : m.running = none → K m.site

variable {py genesis inode} {K : Site ν → Prop} {m m' : Intake ν}

/-- An operation that starts leaves the intake regular. -/
lemma Regular.start {α : Type} {x : FileRoutine ν α} (h : Regular genesis inode K m)
    (hx : K m.site → x.Alone inode (Site.Moves genesis) m.site (fun _ => K) fun _ => K)
    (hstart : m.start x = some m') : Regular genesis inode K m' ∧ m'.site = m.site := by
  unfold Intake.start at hstart
  cases hrunning : m.running with
  | some y =>
    rw [hrunning] at hstart
    cases hstart
  | none =>
    rw [hrunning] at hstart
    obtain rfl := Option.some.inj hstart
    refine ⟨⟨h.sound, fun y hy => ?_, nofun⟩, rfl⟩
    obtain rfl := Option.some.inj hy
    exact Routine.ensures_bind.mpr (hx (h.rests hrunning))

/-- An access leaves the intake regular and is a move of it. -/
lemma Regular.proceed {reply : NodeReply ν} (h : Regular genesis inode K m)
    (hproceed : m.proceed inode reply = some m') :
    Regular genesis inode K m' ∧ m.site.Moves genesis m'.site := by
  unfold Intake.proceed at hproceed
  cases hrunning : m.running with
  | none =>
    rw [hrunning] at hproceed
    cases hproceed
  | some x =>
    rw [hrunning] at hproceed
    have hx := h.ends x hrunning
    cases x with
    | ret a =>
      obtain rfl := Option.some.inj hproceed
      exact ⟨⟨h.sound, nofun, fun _ => hx⟩, .quiet (Site.Quiet.refl m.site)⟩
    | raise e =>
      obtain rfl := Option.some.inj hproceed
      exact ⟨⟨h.sound, nofun, fun _ => hx⟩, .quiet (Site.Quiet.refl m.site)⟩
    | call call next =>
      obtain rfl := Option.some.inj hproceed
      obtain ⟨hmoves, hnext⟩ := hx m.site rfl trivial reply
      refine ⟨⟨hmoves.sound h.sound, fun y hy => ?_, nofun⟩, hmoves⟩
      obtain rfl := Option.some.inj hy
      exact hnext

/-- **One event.** It leaves the intake regular and is a move of it; a kill must not leave what an
operation would have removed. -/
lemma Regular.step (hK : ∀ w t, (w.Clear → t.Clear) → K w → K t) {e : IntakeEvent ν}
    (h : Regular genesis inode K m) (hkill : e = .kill → K m.site)
    (hstep : m.step py genesis inode e = some m') :
    Regular genesis inode K m' ∧ m.site.Moves genesis m'.site := by
  have hquiet : ∀ {w t : Site ν}, t = w → w.Moves genesis t :=
    fun ht => .quiet (ht ▸ Site.Quiet.refl _)
  have hsame : ∀ {w t : Site ν}, t.requests = w.requests → K w → K t :=
    fun ht => hK _ _ fun hw actor => ht ▸ hw actor
  cases e with
  | submit body receipt =>
    obtain ⟨hregular, hsite⟩ := h.start (fun hw => EnrollmentStore.alone_submit.mono
      (fun _ t ht => hsame ht hw) fun _ t ht => ht ▸ hw) hstep
    exact ⟨hregular, hquiet hsite⟩
  | approve actor ids clock =>
    obtain ⟨hregular, hsite⟩ := h.start (fun hw => (EnrollmentStore.alone_approve h.sound).mono
      (fun _ t ht => hK _ _ ht hw) fun _ t ht => hK _ _ ht hw) hstep
    exact ⟨hregular, hquiet hsite⟩
  | check body =>
    have hsite : ((EnrollmentStore.check body).run (FileCall.exec inode) .lost m.site).2 = m.site :=
      have hcheck : (EnrollmentStore.check body).Alone inode (Site.Moves genesis) m.site
          (fun _ t => t = m.site) fun _ t => t = m.site := EnrollmentStore.alone_check
      hcheck.run_snd (Q := (· = m.site)) .lost
    have hm : m = m' := by
      have hend := Option.some.inj hstep
      rwa [hsite] at hend
    exact hm ▸ ⟨h, hquiet rfl⟩
  | step reply => exact h.proceed hstep
  | kill =>
    obtain rfl := Option.some.inj hstep
    exact ⟨⟨h.sound, nofun, fun _ => hkill rfl⟩, hquiet rfl⟩

/-- An intake that starts with an empty queue is regular. -/
lemma regular_init {w : Site ν} (hqueue : w.queue = ∅) (hw : K w) :
    Regular genesis inode K ⟨w, none⟩ where
  sound := by
    have hnone : ∀ a e, w.queue.get? a ≠ some e := fun a e he => by
      rw [hqueue, Dict.get?_empty] at he
      cases he
    have hsize : w.queue.size = 0 := by
      rw [hqueue]
      rfl
    exact ⟨hsize ▸ Nat.zero_le _, fun a e he => (hnone a e he).elim,
      fun a e he => (hnone a e he).elim, fun a e he => (hnone a e he).elim,
      fun a e he => (hnone a e he).elim⟩
  ends := nofun
  rests := fun _ => hw

/-- Every run leaves the intake regular, if its kills leave nothing that an operation would have
removed. -/
lemma Regular.run (hK : ∀ w t, (w.Clear → t.Clear) → K w → K t) {es : List (IntakeEvent ν)}
    (h : Regular genesis inode K m)
    (hkill : Meets (Intake.step py genesis inode) (fun m e => e = .kill → K m.site) m es)
    (hrun : Transition.run (Intake.step py genesis inode) m es = some m') :
    Regular genesis inode K m' :=
  run_induction_of_meets (fun _ _ _ h hkill hstep => (h.step hK hkill hstep).1) h hkill hrun

/-- **Enrollments are consistent.** In every run of submissions, queries and approvals from an empty
queue, whatever the nodes answer and wherever the intake is killed: an enrollment that is approved
is in the registry with exactly its credential, and one that is active has been confirmed by a node;
every event adds an enrollment as pending at most or moves a status on to the next one, and the
registry loses nothing; and nothing but the status of an enrollment ever changes.

**Proof sketch.** Every access of an operation is one of a few moves, each of which keeps the files
sound; a kill lets the operation end between two of them. -/
theorem enrollments_consistent (py : PyLib ν) (genesis : GenesisConfig) (inode : ℕ → ℕ) (w : Site ν)
    (hqueue : w.queue = ∅) (es fs : List (IntakeEvent ν)) (m n : Intake ν)
    (hm : Transition.run (Intake.step py genesis inode) ⟨w, none⟩ es = some m)
    (hn : Transition.run (Intake.step py genesis inode) m fs = some n) :
    m.site.Sound genesis ∧
      (∀ e m', m.step py genesis inode e = some m' → m.site.Advances m'.site) ∧
      ∀ a e, m.site.queue.get? a = some e →
        ∃ s, n.site.queue.get? a = some { e with status := s } := by
  have hK : ∀ w t : Site ν, (w.Clear → t.Clear) → True → True := fun _ _ _ h => h
  have hkill : ∀ m (es : List (IntakeEvent ν)),
      Meets (Intake.step py genesis inode) (fun _ e => e = .kill → True) m es :=
    fun m es => meets_of_forall (G := fun e : IntakeEvent ν => e = .kill → True) fun _ _ _ => trivial
  have hregular : Regular genesis inode (fun _ => True) m :=
    (regular_init hqueue trivial).run hK (hkill _ _) hm
  refine ⟨hregular.sound, fun e m' hstep => (hregular.step hK (fun _ => trivial) hstep).2.advances,
    fun a e he => ?_⟩
  have hkept : ∀ (u : Intake ν) event v, (Regular genesis inode (fun _ => True) u ∧
      ∃ s, u.site.queue.get? a = some { e with status := s }) →
      u.step py genesis inode event = some v → Regular genesis inode (fun _ => True) v ∧
        ∃ s, v.site.queue.get? a = some { e with status := s } := by
    rintro u event v ⟨hu, s, hs⟩ hstep
    obtain ⟨hv, hmoves⟩ := hu.step hK (fun _ => trivial) hstep
    obtain ⟨s', -, hs'⟩ := hmoves.advances.kept a _ hs
    exact ⟨hv, s', hs'⟩
  exact (run_induction hkept ⟨hregular, e.status, he⟩ hn).2

section Example

/-- The network of the example. -/
def exampleGenesis : GenesisConfig :=
  ⟨"splitchain-testnet", 1000, Dict.ofList [("testnet_faucet", 1000)], []⟩

/-- A registry with the operator, and an empty queue. -/
def exampleSite : Site ℤ :=
  ⟨[⟨true, some (Dict.ofList [("testnet_operator", "operator-secret")])⟩], 0, ∅, ∅, [], ∅, [], none,
    ∅⟩

/-- An enrollment of the example. -/
def exampleEnrollment (account : String) (status : EnrollmentStatus) : Enrollment where
  schema := "splitchain-wallet-enrollment/v1"
  networkId := "splitchain-testnet"
  account := account
  credential := String.ofList (List.replicate 64 'a')
  receipt := String.ofList (List.replicate 48 'b')
  status := status

/-- A submission that runs to its end. -/
def exampleSubmission (account : String) : List (IntakeEvent ℤ) :=
  .submit (some (exampleEnrollment account .pending).request)
    (exampleEnrollment account .pending).receipt :: List.replicate 4 (.step .lost)

/-- An approval with so many of its accesses. -/
def exampleApproval (account : String) (count : ℕ) : List (IntakeEvent ℤ) :=
  .approve account id (fun _ => 1) :: List.replicate count (.step (.reporting exampleGenesis account))

/-- The files after an account is enrolled and active. -/
def activeSite : Site ℤ where
  files := exampleSite.files ++ [⟨true, some (Dict.ofList [("testnet_operator", "operator-secret"),
    ("alice", (exampleEnrollment "alice" .active).credential)])⟩]
  registry := 1
  queue := Dict.ofList [("alice", exampleEnrollment "alice" .active)]
  requests := ∅
  heard := [⟨"ws://primary:8765", statusMessage, .reporting exampleGenesis "alice"⟩]
  batches := ∅
  locks := []
  temporary := none
  outputs := ∅

/-- A submission and its approval run to their ends. -/
lemma run_activeSite : Transition.run (Intake.step Ledger.integerLib exampleGenesis id)
    ⟨exampleSite, none⟩ (exampleSubmission "alice" ++ exampleApproval "alice" 16) =
      some ⟨activeSite, none⟩ := by
  rfl

/-- The enrollment of the example is in the registry, and a node has confirmed it. -/
theorem enrollments_consistent_alice : activeSite.Sound exampleGenesis ∧
    (∀ e m', Intake.step Ledger.integerLib exampleGenesis id ⟨activeSite, none⟩ e = some m' →
      activeSite.Advances m'.site) ∧
    ∀ a e, activeSite.queue.get? a = some e →
      ∃ s, activeSite.queue.get? a = some { e with status := s } :=
  enrollments_consistent Ledger.integerLib exampleGenesis id exampleSite rfl _ []
    ⟨activeSite, none⟩ ⟨activeSite, none⟩ run_activeSite rfl

end Example

end Intake

end SplitChain
