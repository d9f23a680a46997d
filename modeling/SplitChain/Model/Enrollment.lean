import SplitChain.Library.Transition
import SplitChain.Model.AccountFiles
import SplitChain.Model.Auth

set_option relaxedAutoImplicit false
set_option autoImplicit false

/-!
# Enrollment of wallets

The operator approves wallets of the public testnet (`splitchain.enrollment`), and the web intake
keeps the requests in a queue of files (`splitchain.enrollment_web`).
-/

namespace SplitChain

open Raise

open FileRoutine

open PyNumber (ofInt)

variable {ν : Type} [PyNumber ν]

/-! ## The operator -/

/-- Whether a text consists of so many lower-case hexadecimal digits. -/
def isHex (count : ℕ) (text : String) : Bool :=
  text.toList.length == count &&
    text.toList.all fun c => ('0' ≤ c ∧ c ≤ '9') ∨ ('a' ≤ c ∧ c ≤ 'f')

/-- Whether an account of the network may be enrolled under a name. -/
def enrollable (genesis : GenesisConfig) (account : String) : Bool :=
  Ledger.accountPattern account && !"testnet_".isPrefixOf account &&
    !genesis.allocations.contains account

/-- The members of a request. -/
def requestKeys : List String := ["schema", "network_id", "account", "credential"]

/-- Whether a document names the schema and the network. -/
def matchesTestnet (genesis : GenesisConfig) (fields : Dict String (Json ν)) : Bool :=
  (fields.getD "schema" .null).eqv (.str "splitchain-wallet-enrollment/v1") &&
    (fields.getD "network_id" .null).eqv (.str genesis.networkId)

/-- The account and the credential of a document, if they are such. -/
def wallet? (genesis : GenesisConfig) (fields : Dict String (Json ν)) :
    Option (String × String) := do
  let account ← (fields.get? "account").bind Json.str?
  let credential ← (fields.get? "credential").bind Json.str?
  if enrollable genesis account && isHex 64 credential then some (account, credential) else none

/-- Check a request file. -/
def checkRequest (genesis : GenesisConfig) (file : RequestFile ν) :
    Except Failure (String × String) := do
  Raise.require file.isPrivate
    (.enrollment "enrollment request must be a private regular file (mode 0600)")
  let fields ← orRaise file.content.dict? (.distribution "expected JSON object")
  let keys := fields.keys.map (Json.str (ν := ν))
  Raise.require ((Json.isSetOf keys requestKeys || Json.isSetOf keys (requestKeys ++ ["receipt"])) &&
      matchesTestnet genesis fields)
    (.enrollment "enrollment request does not match this testnet")
  Raise.require (match fields.get? "receipt" with
      | some receipt => receipt.str?.any (isHex 48)
      | none => true)
    (.enrollment "invalid enrollment receipt")
  orRaise (wallet? genesis fields) (.enrollment "invalid wallet ID or credential")

/-- `request_from_file` -/
def requestFromFile (genesis : GenesisConfig) (path : RequestPath) :
    FileRoutine ν (String × String) := do
  match ← access (.readRequest path) with
  | some file => .lift (checkRequest genesis file)
  | none => .raise .fileNotFound

/-- Approve the wallet of a request file. -/
def approve (genesis : GenesisConfig) (path : RequestPath) : FileRoutine ν String := do
  let (account, secret) ← requestFromFile genesis path
  let mode ← access .statRegistry
  require mode.isPrivate (.enrollment "registry must be a private regular file")
  let original ← access .statRegistry
  let stored ← readRegistry
  match stored.get? account with
  | some credential => do
    require (credential == secret)
      (.enrollment "wallet ID already enrolled with a different credential")
    return account
  | none => do
    require (stored.contains "testnet_operator") (.enrollment "operator credential missing")
    -- recheck before replacing
    let fresh ← readRegistry
    require (fresh.eqvBy (· == ·) stored)
      (.enrollment "registry changed during enrollment; retry")
    let current ← access .statRegistry
    require (current.inode == original.inode)
      (.enrollment "registry changed during enrollment; retry")
    access (.replaceRegistry (stored.set account secret))
    return account

/-- `BACKENDS` -/
def backends : List String := ["ws://primary:8765", "ws://secondary:8765", "ws://tertiary:8765"]

/-- The question for the state of a node. -/
def statusMessage : Json ν :=
  .obj [("id", .str "enrollment-status"), ("method", .str "status"), ("params", .obj [])]

/-- The request to register an account, with its authentication. -/
def registration (account id : String) (auth : Json ν) : Json ν :=
  .obj [("id", .str id), ("method", .str "account.register"),
    ("params", .obj [("account", .str account)]), ("auth", auth)]

section Activation

variable (py : PyLib ν) (genesis : GenesisConfig) (account operator : String)
  (ids : String → String) (clock : String → ℤ)

/-- The authentication of the operator. -/
def operatorAuth (id : String) (nonce : ℤ) : Json ν :=
  Request.sign py ⟨.str id, .str "account.register", .obj [("account", .str account)], .null⟩
    "testnet_operator" nonce operator

/-- What follows the answer to a registration; `next` is what follows if the node is no leader. -/
def registered (id : String) (response : Json ν) (next : FileRoutine ν (Json ν)) :
    FileRoutine ν (Json ν) := do
  let answered ← ofPy (response.get? "id")
  require (answered.eqv (.str id))
    (.enrollment "unexpected RPC response; inspect ledger before retrying")
  let fields ← ofPy (orRaise response.dict? .attribute)
  let code ← ofPy ((fields.getD "error" (.obj [])).get? "code")
  if code.eqv (.str "NOT_LEADER") then next
  else match fields.get? "error" with
    | some error => do
      let code ← ofPy (error.field "code")
      let message ← ofPy (error.field "message")
      .raise (.enrollment ("registration rejected: " ++ py.str code ++ " (" ++ py.str message ++ ")"))
    | none => do
      let result ← ofPy (response.field "result")
      return .obj [("account", .str account), ("status", .str "active"), ("result", result)]

/-- Whether a node has the account in its ledger. -/
def reported (status : Json ν) : FileRoutine ν Bool := do
  let ledger ← ofPy (status.field "result")
  let theirs ← ofPy (ledger.get? "genesis")
  require (theirs.eqv genesis.publicForm)
    (.enrollment "connected node has a different genesis")
  let balances ← ofPy (ledger.field "balances")
  ofPy (balances.holds account)

/-- Register an account with the first node that is the leader. -/
def activateOn : List String → FileRoutine ν (Json ν)
  | [] => .raise (.enrollment "no leader accepted registration; check cluster leadership")
  | backend :: rest => do
    let status ← ask backend statusMessage
    if ← reported genesis account status then
      return .obj [("account", .str account), ("status", .str "already active")]
    else do
      let id := ids backend
      let response ← ask backend
        (registration account id (operatorAuth py account operator id (clock backend)))
      registered py account id response (activateOn rest)

end Activation

/-- Register an approved account with the cluster. -/
def activate (py : PyLib ν) (genesis : GenesisConfig) (account : String) (ids : String → String)
    (clock : String → ℤ) : FileRoutine ν (Json ν) := do
  let stored ← readRegistry
  match stored.contains account, stored.get? "testnet_operator" with
  | true, some operator => activateOn py genesis account operator ids clock backends
  | _, _ => .raise (.enrollment "approve the wallet in the registry first")

/-! ## What nodes have confirmed -/

namespace Exchange

variable (genesis : GenesisConfig) (account : String)

/-- A node with this genesis reported the account in its ledger. -/
def Reports (x : Exchange ν) : Prop :=
  x.message = statusMessage ∧ ∃ status ledger theirs balances, x.reply = .answer status ∧
    status.field "result" = .ok ledger ∧ ledger.get? "genesis" = .ok theirs ∧
    theirs.eqv genesis.publicForm = true ∧ ledger.field "balances" = .ok balances ∧
    balances.holds account = .ok true

/-- A node accepted the registration of the account. -/
def Accepts (x : Exchange ν) : Prop :=
  ∃ id auth response fields result, x.message = registration account id auth ∧
    x.reply = .answer response ∧ response.dict? = some fields ∧
    fields.get? "id" = some (.str id) ∧ fields.get? "error" = none ∧
    fields.get? "result" = some result

/-- A node reported the account or accepted its registration. -/
def Confirms (x : Exchange ν) : Prop := x.Reports genesis account ∨ x.Accepts account

end Exchange

/-- The files are as they were; more may have been heard. -/
structure Site.Quiet (w t : Site ν) : Prop where
  queue : t.queue = w.queue
  requests : t.requests = w.requests
  stored : t.stored = w.stored
  heard : w.heard <+: t.heard

namespace Site.Quiet

omit [PyNumber ν] in
lemma refl (w : Site ν) : w.Quiet w := ⟨rfl, rfl, rfl, List.prefix_rfl⟩

omit [PyNumber ν] in
lemma trans {w t u : Site ν} (hwt : w.Quiet t) (htu : t.Quiet u) : w.Quiet u :=
  ⟨htu.queue.trans hwt.queue, htu.requests.trans hwt.requests, htu.stored.trans hwt.stored,
    hwt.heard.trans htu.heard⟩

end Site.Quiet

/-- Some node confirmed the account. -/
def Site.Confirmed (w : Site ν) (genesis : GenesisConfig) (account : String) : Prop :=
  ∃ x ∈ w.heard, x.Confirms genesis account

section Alone

variable {inode : ℕ → ℕ} {G : Site ν → Site ν → Prop} {w : Site ν} {α : Type}
  {E : Failure → Site ν → Prop}

/-- What a program guarantees as the only one that changes the files. -/
abbrev FileRoutine.Alone (inode : ℕ → ℕ) (G : Site ν → Site ν → Prop) (x : FileRoutine ν α)
    (w : Site ν) (P : α → Site ν → Prop) (E : Failure → Site ν → Prop) : Prop :=
  x.Ensures (FileCall.exec inode) Eq (fun _ _ => True) G w P E

omit [PyNumber ν] in
/-- A single access. -/
lemma alone_access {call : FileCall ν} {P : call.Answer → Site ν → Prop}
    (h : ∀ reply, G w (call.exec inode reply w).2 ∧
      P (call.exec inode reply w).1 (call.exec inode reply w).2) :
    (access call).Alone inode G w P E :=
  ensures_access.mpr fun _ ht _ reply => ht ▸ h reply

omit [PyNumber ν] in
/-- A message that is sent is remembered with what comes of it. -/
lemma alone_ask (hG : ∀ w t, w.Quiet t → G w t) {backend : String} {message : Json ν}
    {P : Json ν → Site ν → Prop}
    (hP : ∀ document t, w.Quiet t → ⟨backend, message, .answer document⟩ ∈ t.heard → P document t)
    (hE : ∀ e t, w.Quiet t → E e t) : (ask backend message).Alone inode G w P E := by
  refine Routine.ensures_bind.mpr (alone_access fun reply => ?_)
  have hquiet : w.Quiet { w with heard := w.heard ++ [⟨backend, message, reply⟩] } :=
    ⟨rfl, rfl, rfl, List.prefix_append _ _⟩
  refine ⟨hG _ _ hquiet, ?_⟩
  cases reply with
  | answer document => exact hP document _ hquiet (List.mem_append_right _ List.mem_cons_self)
  | unreadable => exact hE _ _ hquiet
  | lost => exact hE _ _ hquiet

/-- A node that is asked for its state changes no file. -/
lemma alone_reported {genesis : GenesisConfig} {account : String} {status : Json ν}
    {P : Bool → Site ν → Prop}
    (hP : ∀ b, (b = true → ∃ ledger theirs balances, status.field "result" = .ok ledger ∧
      ledger.get? "genesis" = .ok theirs ∧ theirs.eqv genesis.publicForm = true ∧
      ledger.field "balances" = .ok balances ∧ balances.holds account = .ok true) → P b w)
    (hE : ∀ e, E e w) : (reported genesis account status).Alone inode G w P E := by
  simp only [reported, Alone, Routine.ensures_bind, ensures_ofPy, ensures_require, hE,
    implies_true, and_true]
  exact fun ledger hledger theirs htheirs heqv balances hbalances b hb =>
    hP b fun h => ⟨ledger, theirs, balances, hledger, htheirs, heqv, hbalances, h ▸ hb⟩

/-- What follows the answer to a registration changes no file. -/
lemma alone_registered {py : PyLib ν} {account id : String} {response : Json ν}
    {next : FileRoutine ν (Json ν)} {P : Json ν → Site ν → Prop}
    (hnext : next.Alone inode G w P E)
    (hP : ∀ fields result v, response.dict? = some fields → fields.get? "id" = some (.str id) →
      fields.get? "error" = none → fields.get? "result" = some result → P v w)
    (hE : ∀ e, E e w) : (registered py account id response next).Alone inode G w P E := by
  simp only [registered, Alone, Routine.ensures_bind, ensures_ofPy, ensures_require, hE,
    implies_true, and_true, orRaise_eq_ok]
  intro answered hanswered heqv fields hfields code _
  have hid : fields.get? "id" = some (.str id) := by
    rw [Json.eqv_str_right] at heqv
    simp only [Json.get?, hfields, Except.ok.injEq, heqv] at hanswered
    cases hget : fields.get? "id" with
    | none => simp [hget] at hanswered
    | some v => simpa [hget] using hanswered
  split
  · exact hnext
  · cases herror : fields.get? "error" with
    | some error =>
      simp only [Routine.ensures_bind, ensures_ofPy, Routine.ensures_raise, hE, implies_true,
        and_true]
    | none =>
      simp only [Routine.ensures_bind, ensures_ofPy, Routine.ensures_pure, hE, implies_true,
        and_true]
      intro result hresult
      rw [Json.field, hfields, orRaise_eq_ok] at hresult
      exact hP fields result _ hfields hid herror hresult

/-- **Activation.** It changes no file, and when it returns, a node has confirmed the account.

**Proof sketch.** Induction on the nodes: each is asked for its state, then to register the
account; a node that is no leader is passed over. -/
lemma alone_activateOn (hG : ∀ w t, w.Quiet t → G w t) {py : PyLib ν} {genesis : GenesisConfig}
    {account operator : String} {ids : String → String} {clock : String → ℤ}
    {nodes : List String} :
    (activateOn py genesis account operator ids clock nodes).Alone inode G w
      (fun _ t => w.Quiet t ∧ t.Confirmed genesis account) fun _ t => w.Quiet t := by
  induction nodes generalizing w with
  | nil => exact Site.Quiet.refl w
  | cons backend rest ih =>
    refine Routine.ensures_bind.mpr (alone_ask hG (fun status t ht hasked => ?_) fun e t ht => ht)
    refine Routine.ensures_bind.mpr (alone_reported (fun b hb => ?_) fun e => ht)
    cases b with
    | true => exact ⟨ht, _, hasked, .inl ⟨rfl, status, by
        obtain ⟨ledger, theirs, balances, h⟩ := hb rfl
        exact ⟨ledger, theirs, balances, rfl, h⟩⟩⟩
    | false =>
      refine Routine.ensures_bind.mpr
        (alone_ask hG (fun response u hu hregistered => ?_) fun e u hu => ht.trans hu)
      refine alone_registered
        (ih.mono (fun _ v h => ⟨ht.trans (hu.trans h.1), h.2⟩) fun _ v h => ht.trans (hu.trans h))
        (fun fields result v hfields hid herror hresult => ⟨ht.trans hu, _, hregistered,
          .inr ⟨_, _, response, fields, result, rfl, rfl, hfields, hid, herror, hresult⟩⟩)
        fun e => ht.trans hu

omit [PyNumber ν] in
/-- Reading the registry changes nothing. -/
lemma alone_readRegistry (hG : ∀ w t, w.Quiet t → G w t) {P : Dict String String → Site ν → Prop}
    (hP : ∀ stored, w.stored = some stored → P stored w) (hE : ∀ e, E e w) :
    readRegistry.Alone inode G w P E := by
  refine Routine.ensures_bind.mpr (alone_access fun _ => ⟨hG _ _ (Site.Quiet.refl w), ?_⟩)
  simp only [FileCall.exec]
  cases hstored : w.stored with
  | none => exact hE _
  | some stored => exact hP stored hstored

/-- **Activation** of an account in the registry. -/
lemma alone_activate (hG : ∀ w t, w.Quiet t → G w t) {py : PyLib ν} {genesis : GenesisConfig}
    {account : String} {ids : String → String} {clock : String → ℤ} :
    (activate py genesis account ids clock).Alone inode G w
      (fun _ t => w.Quiet t ∧ t.Confirmed genesis account) fun _ t => w.Quiet t := by
  refine Routine.ensures_bind.mpr
    (alone_readRegistry hG (fun stored _ => ?_) fun _ => Site.Quiet.refl w)
  split
  · exact alone_activateOn hG
  · exact Site.Quiet.refl w

/-- **Approval** by the operator: the only file that may change is the registry, where the account
gets the credential of the request if it has none. -/
lemma alone_approve (hG : ∀ w t, w.Quiet t → G w t) {genesis : GenesisConfig} {path : RequestPath}
    {file : RequestFile ν} {account secret : String} (hfile : w.requests.get? path = some file)
    (hrequest : ∀ a c, checkRequest genesis file = .ok (a, c) → a = account ∧ c = secret)
    (henroll : ∀ stored, w.stored = some stored → stored.get? account = none →
      G w (w.replaceRegistry (stored.set account secret))) :
    (approve genesis path).Alone inode G w
      (fun _ t => t.queue = w.queue ∧ t.requests = w.requests ∧ t.heard = w.heard ∧
        t.credential? account = some secret)
      fun _ t => w.Quiet t := by
  have hquiet := Site.Quiet.refl w
  refine Routine.ensures_bind.mpr (Routine.ensures_bind.mpr
    (alone_access fun _ => ⟨hG _ _ hquiet, ?_⟩))
  simp only [FileCall.exec, hfile, Routine.ensures_lift, Prod.forall]
  refine ⟨fun a c hac => ?_, fun _ _ => hquiet⟩
  obtain ⟨rfl, rfl⟩ := hrequest a c hac
  refine Routine.ensures_bind.mpr (alone_access fun _ => ⟨hG _ _ hquiet, ?_⟩)
  refine Routine.ensures_bind.mpr (ensures_require.mpr ⟨fun _ => ?_, fun _ => hquiet⟩)
  refine Routine.ensures_bind.mpr (alone_access fun _ => ⟨hG _ _ hquiet, ?_⟩)
  refine Routine.ensures_bind.mpr
    (alone_readRegistry hG (fun stored hstored => ?_) fun _ => hquiet)
  cases hget : stored.get? a with
  | some credential =>
    refine Routine.ensures_bind.mpr (ensures_require.mpr ⟨fun heq => ?_, fun _ => hquiet⟩)
    have hheld : w.credential? a = some credential :=
      (Site.credential?_of_stored hstored a).trans hget
    exact ⟨rfl, rfl, rfl, hheld.trans (congrArg some (beq_iff_eq.mp heq))⟩
  | none =>
    refine Routine.ensures_bind.mpr (ensures_require.mpr ⟨fun _ => ?_, fun _ => hquiet⟩)
    refine Routine.ensures_bind.mpr (alone_readRegistry hG (fun fresh _ => ?_) fun _ => hquiet)
    refine Routine.ensures_bind.mpr (ensures_require.mpr ⟨fun _ => ?_, fun _ => hquiet⟩)
    refine Routine.ensures_bind.mpr (alone_access fun _ => ⟨hG _ _ hquiet, ?_⟩)
    refine Routine.ensures_bind.mpr (ensures_require.mpr ⟨fun _ => ?_, fun _ => hquiet⟩)
    refine Routine.ensures_bind.mpr (alone_access fun _ => ⟨henroll stored hstored hget, ?_⟩)
    refine ⟨rfl, rfl, rfl, ?_⟩
    simp [FileCall.exec, Site.credential?]

end Alone

end SplitChain
