import Mathlib.Data.List.Sort
import SplitChain.Model.EnrollmentStore

set_option relaxedAutoImplicit false
set_option autoImplicit false

/-!
# The listing and the capacity of the queue

The operator page lists every file of the queue whose name ends in `.json`, and the intake counts
them before it accepts a request. A request file that an approval did not remove is one of them.

## Main definitions

* `SplitChain.Site.queueFiles`, `SplitChain.EnrollmentStore.pending` — the listing.
* `SplitChain.EnrollmentStore.Survives` — the listing is right, and every approval may complete.
* `SplitChain.Site.unresolved` — how many enrollments are not active.

## Main results

* `SplitChain.EnrollmentStore.run_approve` — an approval that completes.
* `SplitChain.EnrollmentStore.queue_survives` — when the queue survives crashes.
* `SplitChain.EnrollmentStore.full_iff` — when a refusal for lack of room is justified.
-/

namespace SplitChain

open Raise

open FileRoutine Transition

variable {ν : Type} [PyNumber ν]

/-! ## The listing -/

namespace EnrollmentStatus

/-- The name of a status. -/
def name : EnrollmentStatus → String
  | pending => "pending"
  | approved => "approved"
  | active => "active"

end EnrollmentStatus

/-- The document of an enrollment. -/
def Enrollment.document (e : Enrollment) : Json ν :=
  .obj [("schema", .str e.schema), ("network_id", .str e.networkId), ("account", .str e.account),
    ("credential", .str e.credential), ("receipt", .str e.receipt), ("status", .str e.status.name)]

/-- `queue.glob("*.json")`: the stems of the files with their contents. -/
def Site.queueFiles (w : Site ν) : List (String × Json ν) :=
  (w.queue.entries.map fun p => (p.1, p.2.document)) ++ w.requests.entries.filterMap fun p =>
    match p.1 with
    | .queued actor => some (actor ++ ".wallet", p.2.content)
    | .given _ => none

namespace EnrollmentStore

/-- The row of a file in the listing: its stem and its status. -/
def row (file : String × Json ν) : Except Failure (String × Json ν) := do
  let fields ← orRaise file.2.dict? (.distribution "expected JSON object")
  let status ← orRaise (fields.get? "status") (.python .key)
  return (file.1, status)

/-- List the queue, ordered by the names of the files. -/
def pending (w : Site ν) : Except Failure (List (String × Json ν)) :=
  (w.queueFiles.mergeSort fun p q => decide (p.1 ++ ".json" ≤ q.1 ++ ".json")).mapM row

/-- The rows of the enrollments. -/
def rows (w : Site ν) : List (String × Json ν) :=
  w.queue.entries.map fun p => (p.1, .str p.2.status.name)

/-- The status that a file names. -/
def statusOf (document : Json ν) : Json ν :=
  ((document.dict?.bind fun fields => fields.get? "status").getD .null)

omit [PyNumber ν] in
/-- A file that names a status has a row, any other has none. -/
lemma row_eq_ok {file v : String × Json ν} : row file = .ok v ↔ ∃ fields status,
    file.2.dict? = some fields ∧ fields.get? "status" = some status ∧ (file.1, status) = v := by
  simp only [row, bind_eq_ok, orRaise_eq_ok, pure_eq_ok, exists_and_left]

omit [PyNumber ν] in
/-- The listing fails with every file that has no row. -/
lemma row_of_pending {w : Site ν} {listed : List (String × Json ν)} (h : pending w = .ok listed)
    {file : String × Json ν} (hfile : file ∈ w.queueFiles) : ∃ v, row file = .ok v :=
  exists_of_mapM_eq_ok h (List.mem_mergeSort.mpr hfile)

omit [PyNumber ν] in
/-- Without request files the listing has exactly the rows of the enrollments. -/
lemma pending_of_clear {w : Site ν} (hw : w.Clear) :
    ∃ listed, pending w = .ok listed ∧ listed.Perm (rows w) := by
  have hfiles : w.queueFiles = w.queue.entries.map fun p => (p.1, p.2.document) := by
    have hnone : w.requests.entries.filterMap (fun p => match p.1 with
        | .queued actor => some (actor ++ ".wallet", p.2.content)
        | .given _ => none) = [] := by
      refine List.filterMap_eq_nil_iff.mpr fun ⟨path, file⟩ hp => ?_
      cases path with
      | given name => rfl
      | queued actor =>
        have hget := Dict.get?_eq_some_iff.mpr hp
        rw [hw actor] at hget
        cases hget
    rw [Site.queueFiles, hnone, List.append_nil]
  set sorted := w.queueFiles.mergeSort fun p q => decide (p.1 ++ ".json" ≤ q.1 ++ ".json") with hsorted
  have hperm : sorted.Perm w.queueFiles := List.mergeSort_perm _ _
  refine ⟨sorted.map fun file => (file.1, statusOf file.2), mapM_eq_ok.mpr ?_, ?_⟩
  · rw [List.forall₂_map_right_iff, List.forall₂_same]
    intro file hfile
    rw [hperm.mem_iff, hfiles, List.mem_map] at hfile
    obtain ⟨p, -, rfl⟩ := hfile
    rfl
  · refine (hperm.map _).trans ?_
    rw [hfiles, List.map_map]
    rfl

end EnrollmentStore

/-! ## Request files that are left -/

namespace Site

variable {genesis : GenesisConfig} {w t : Site ν}

/-- The request files in the queue are such as the store writes. -/
def Plain (w : Site ν) : Prop :=
  ∀ actor file, w.requests.get? (.queued actor) = some file →
    ∃ e : Enrollment, file.content = e.request

/-- Every access keeps the request files such. -/
lemma Moves.plain (h : w.Moves genesis t) (hw : w.Plain) : t.Plain := by
  cases h with
  | quiet h => exact fun actor file hfile => hw actor file (h.requests ▸ hfile)
  | requested e ht =>
    subst ht
    intro actor file hfile
    simp only [Dict.get?_set] at hfile
    split_ifs at hfile
    · exact ⟨e, Option.some.inj hfile ▸ rfl⟩
    · exact hw actor file hfile
  | unlinked actor ht =>
    subst ht
    intro other file hfile
    simp only [Dict.get?_erase] at hfile
    split_ifs at hfile
    exact hw other file hfile
  | submitted _ _ _ _ _ ht | enrolled _ _ _ _ _ ht | approved _ _ _ _ ht
  | activated _ _ _ _ _ ht => exact ht ▸ hw

end Site

namespace EnrollmentStore

omit [PyNumber ν] in
/-- With a request file in the queue the listing fails: it names no status. -/
lemma clear_of_pending {w : Site ν} (hw : w.Plain) {listed : List (String × Json ν)}
    (h : pending w = .ok listed) : w.Clear := by
  intro actor
  cases hfile : w.requests.get? (.queued actor) with
  | none => rfl
  | some file =>
    obtain ⟨e, he⟩ := hw actor file hfile
    have hmem : (actor ++ ".wallet", file.content) ∈ w.queueFiles :=
      List.mem_append_right _ (List.mem_filterMap.mpr
        ⟨_, Dict.get?_eq_some_iff.mp hfile, rfl⟩)
    obtain ⟨v, hv⟩ := row_of_pending h hmem
    obtain ⟨fields, status, hfields, hstatus, -⟩ := row_eq_ok.mp hv
    rw [he] at hfields
    obtain rfl := Option.some.inj hfields
    cases hstatus

end EnrollmentStore

/-! ## Approvals that complete -/

/-- The registry admits an enrollment: it is a private file that holds the credential of the
operator, and no other credential for the account. -/
def Site.Admits (w : Site ν) (e : Enrollment) : Prop :=
  ∃ stored, w.files[w.registry]? = some ⟨true, some stored⟩ ∧
    stored.contains "testnet_operator" = true ∧
    (stored.get? e.account = none ∨ stored.get? e.account = some e.credential)

section Completion

variable {py : PyLib ν} {genesis : GenesisConfig} {inode : ℕ → ℕ} {w : Site ν} {e : Enrollment}
  {reply : NodeReply ν}

omit [PyNumber ν] in
/-- A run goes on after an access. -/
lemma run_access {α : Type} {call : FileCall ν} {f : call.Answer → FileRoutine ν α} :
    (access call >>= f).run (FileCall.exec inode) reply w =
      (f (call.exec inode reply w).1).run (FileCall.exec inode) reply (call.exec inode reply w).2 :=
  rfl

omit [PyNumber ν] in
/-- A run goes on after a check that succeeds. -/
lemma run_require {α : Type} {condition : Bool} {failure : Failure} {f : Unit → FileRoutine ν α}
    (h : condition = true) :
    (FileRoutine.require condition failure >>= f).run (FileCall.exec inode) reply w =
      (f ()).run (FileCall.exec inode) reply w := by
  subst h
  rfl

omit [PyNumber ν] in
/-- A run goes on after a computation of the interpreter that returns. -/
lemma run_ofPy {α β : Type} {x : Except PyError β} {b : β} {f : β → FileRoutine ν α}
    (h : x = .ok b) : (ofPy x >>= f).run (FileCall.exec inode) reply w =
      (f b).run (FileCall.exec inode) reply w := by
  subst h
  rfl

omit [PyNumber ν] in
/-- The registry is read as it is stored. -/
lemma run_readRegistry (inode : ℕ → ℕ) (reply : NodeReply ν) {stored : Dict String String}
    (h : w.stored = some stored) :
    (readRegistry (ν := ν)).run (FileCall.exec inode) reply w = (.ok stored, w) := by
  rw [readRegistry, run_access]
  simp only [FileCall.exec, h]
  rfl

/-- The members of the request of a valid enrollment. -/
lemma request_of_valid (he : e.Valid genesis) : ∃ fields : Dict String (Json ν),
    (e.request : Json ν).dict? = some fields ∧ fields.keys = requestKeys ∧
      fields.get? "receipt" = none ∧ matchesTestnet genesis fields = true ∧
      wallet? genesis fields = some (e.account, e.credential) :=
  ⟨Dict.ofList [("schema", .str e.schema), ("network_id", .str e.networkId),
    ("account", .str e.account), ("credential", .str e.credential)], rfl, rfl, rfl,
    Bool.and_eq_true_iff.mpr ⟨Json.eqv_str_right.mpr (congrArg Json.str he.schema),
      Json.eqv_str_right.mpr (congrArg Json.str he.networkId)⟩,
    if_pos (Bool.and_eq_true_iff.mpr ⟨he.account, he.credential⟩)⟩

/-- A request of a valid enrollment passes the checks of the operator. -/
lemma checkRequest_of_valid (he : e.Valid genesis) :
    checkRequest genesis ⟨true, (e.request : Json ν)⟩ = .ok (e.account, e.credential) := by
  obtain ⟨fields, hdict, hkeys, hreceipt, hmatches, hwallet⟩ := request_of_valid (ν := ν) he
  have hset : Json.isSetOf (requestKeys.map (Json.str (ν := ν))) requestKeys = true := rfl
  simp only [checkRequest, hdict, orRaise, ok_bind, hkeys, hset, hmatches, hreceipt,
    hwallet, Raise.require, Bool.true_or, Bool.and_self, if_true]

/-- An approval by the operator that finds its request and a registry that admits it: the registry
holds the credential then. -/
lemma run_registryApprove (inode : ℕ → ℕ) (reply : NodeReply ν) (hadmits : w.Admits e)
    {path : RequestPath} {file : RequestFile ν} (hfile : w.requests.get? path = some file)
    (hrequest : checkRequest genesis file = .ok (e.account, e.credential)) :
    ∃ t, (SplitChain.approve genesis path).run (FileCall.exec inode) reply w = (.ok e.account, t) ∧
      ∃ stored, t.stored = some stored ∧ stored.contains e.account = true ∧
        stored.contains "testnet_operator" = true := by
  obtain ⟨stored, hregistry, hoperator, hheld⟩ := hadmits
  have hstored : w.stored = some stored := by rw [Site.stored, hregistry]; rfl
  have hread := run_readRegistry inode reply hstored
  have hfound : (requestFromFile genesis path).run (FileCall.exec inode) reply w =
      (.ok (e.account, e.credential), w) := by
    rw [requestFromFile, run_access]
    simp only [FileCall.exec, hfile, hrequest]
    rfl
  have hprivate : (w.files[w.registry]?.any (·.isPrivate)) = true := by rw [hregistry]; rfl
  rw [SplitChain.approve, Routine.run_bind_of_ok hfound]
  simp only
  rw [run_access]
  simp only [FileCall.exec]
  rw [run_require hprivate, run_access]
  simp only [FileCall.exec]
  rw [Routine.run_bind_of_ok hread]
  rcases hheld with hnone | hsome
  · have hsame : stored.eqvBy (· == ·) stored = true := by
      refine Dict.eqvBy_iff.mpr fun k => ?_
      cases stored.get? k with
      | none => exact .none
      | some c => exact .some (beq_self_eq_true c)
    simp only [hnone]
    rw [run_require hoperator, Routine.run_bind_of_ok hread, run_require hsame, run_access]
    simp only [FileCall.exec]
    rw [run_require (beq_self_eq_true _), run_access]
    refine ⟨_, rfl, _, Site.stored_replaceRegistry .., ?_, ?_⟩
    · exact Dict.contains_iff.mpr ⟨_, Dict.get?_set_self ..⟩
    · obtain ⟨operator, hcredential⟩ := Dict.contains_iff.mp hoperator
      rw [Dict.contains, Dict.get?_set]
      split_ifs
      · rfl
      · rw [hcredential]
        rfl
  · simp only [hsome]
    rw [run_require (beq_self_eq_true _)]
    exact ⟨w, rfl, stored, hstored, Dict.contains_iff.mpr ⟨_, hsome⟩, hoperator⟩

namespace EnrollmentStore

/-- Enrolling a request that the registry admits succeeds. -/
lemma run_enroll (inode : ℕ → ℕ) (reply : NodeReply ν) (he : e.Valid genesis)
    (hadmits : w.Admits e) :
    ∃ t, (enroll genesis e.account e).run (FileCall.exec inode) reply w = (.ok (), t) ∧
      ∃ stored, t.stored = some stored ∧ stored.contains e.account = true ∧
        stored.contains "testnet_operator" = true := by
  set v : Site ν :=
    { w with requests := w.requests.set (.queued e.account) ⟨true, e.request⟩ } with hv
  have hfile : v.requests.get? (.queued e.account) = some ⟨true, e.request⟩ :=
    Dict.get?_set_self ..
  have hfound : (requestFromFile genesis (.queued e.account)).run (FileCall.exec inode) reply v =
      (.ok (e.account, e.credential), v) := by
    rw [requestFromFile, run_access]
    simp only [FileCall.exec, hfile, checkRequest_of_valid he]
    rfl
  obtain ⟨t, happrove, hstored⟩ := run_registryApprove inode reply (w := v)
    hadmits hfile (checkRequest_of_valid he)
  refine ⟨{ t with requests := t.requests.erase (.queued e.account) }, ?_, hstored⟩
  rw [enroll, run_access]
  refine (Routine.run_ensuring_of_ok (a := ()) (t := t) ?_).trans rfl
  exact (Routine.run_bind_of_ok hfound).trans (Routine.run_bind_of_ok happrove)

/-- Registering an account that the first node has in its ledger succeeds. -/
lemma run_activated (py : PyLib ν) (genesis : GenesisConfig) (inode : ℕ → ℕ)
    (ids : String → String) (clock : String → ℤ) {account : String}
    {stored : Dict String String} (hstored : w.stored = some stored)
    (haccount : stored.contains account = true)
    (hoperator : stored.contains "testnet_operator" = true) :
    ∃ t, (activated py genesis account ids clock).run (FileCall.exec inode)
      (.reporting genesis account) w = (.ok true, t) := by
  obtain ⟨operator, hcredential⟩ := Dict.contains_iff.mp hoperator
  have hread := run_readRegistry inode (.reporting genesis account) hstored
  set balances : Json ν := .obj [(account, .null)] with hbalances
  set ledger : Json ν := .obj [("genesis", genesis.publicForm), ("balances", balances)] with hledger
  set status : Json ν := .obj [("result", ledger)] with hstatus
  have hreported : ∀ t, (reported genesis account status).run (FileCall.exec inode)
      (.reporting genesis account) t = (.ok true, t) := by
    intro t
    have hresult : status.field "result" = .ok ledger := rfl
    have htheirs : ledger.get? "genesis" = .ok genesis.publicForm := rfl
    have hfield : ledger.field "balances" = .ok balances := rfl
    have hholds : balances.holds account = .ok true := by
      simp [hbalances, Json.holds, Dict.ofList, Dict.contains]
    rw [reported, run_ofPy hresult, run_ofPy htheirs, run_require (Json.eqv_refl _),
      run_ofPy hfield, hholds]
    rfl
  have hasked : (ask "ws://primary:8765" statusMessage).run (FileCall.exec inode)
      (.reporting genesis account) w = (.ok status,
        { w with heard := w.heard ++ [⟨_, statusMessage, .reporting genesis account⟩] }) := rfl
  obtain ⟨document, t, hactivate⟩ : ∃ document t, (activate py genesis account ids clock).run
      (FileCall.exec inode) (.reporting genesis account) w = (.ok document, t) := by
    rw [activate, Routine.run_bind_of_ok hread]
    simp only [haccount, hcredential]
    rw [backends, activateOn, Routine.run_bind_of_ok hasked, Routine.run_bind_of_ok (hreported _)]
    exact ⟨_, _, rfl⟩
  exact ⟨t, Routine.run_handle_of_ok ((Routine.run_bind_of_ok hactivate).trans rfl)⟩

/-- **An approval that completes.** Where the registry admits an enrollment, its approval completes
with the answer of a node that has the account. -/
lemma run_approve (hw : w.Sound genesis) {account : String}
    (hqueued : w.queue.get? account = some e)
    (hadmits : w.Admits e) {ids : String → String} {clock : String → ℤ} :
    ((approve py genesis account ids clock).run (FileCall.exec inode)
      (.reporting genesis account) w).1 = .ok .active := by
  obtain rfl : e.account = account := hw.filed account e hqueued
  have hvalid := hw.valid _ e hqueued
  have hpattern : Ledger.accountPattern e.account = true := by
    have haccount := hvalid.account
    simp only [enrollable, Bool.and_eq_true] at haccount
    exact haccount.1.1
  rw [approve, run_require hpattern, run_access]
  simp only [FileCall.exec, hqueued]
  split_ifs with hactive
  · rfl
  · obtain ⟨t, henroll, stored, hstored, haccount, hoperator⟩ := run_enroll inode
      (.reporting genesis e.account) hvalid hadmits
    obtain ⟨u, hmark, hu⟩ : ∃ u, (markApproved e.account e).run (FileCall.exec inode)
        (.reporting genesis e.account) t = (.ok (), u) ∧ u.stored = some stored := by
      unfold markApproved
      split_ifs
      · exact ⟨_, rfl, hstored⟩
      · exact ⟨t, rfl, hstored⟩
    obtain ⟨v, hactivated⟩ := run_activated py genesis inode ids clock hu haccount hoperator
    rw [Routine.run_bind_of_ok henroll, Routine.run_bind_of_ok hmark,
      Routine.run_bind_of_ok hactivated]
    rfl

end EnrollmentStore

end Completion

/-! ## What crashes leave -/

namespace EnrollmentStore

/-- **The queue survives**: the listing has exactly the rows of the enrollments, and the approval of
every enrollment that the registry admits may still complete. -/
structure Survives (py : PyLib ν) (genesis : GenesisConfig) (inode : ℕ → ℕ) (w : Site ν) :
    Prop where
  listed : ∃ listed, pending w = .ok listed ∧ listed.Perm (rows w)
  approvals : ∀ account e, w.queue.get? account = some e → w.Admits e → ∀ ids clock, ∃ reply,
    ((approve py genesis account ids clock).run (FileCall.exec inode) reply w).1 = .ok .active

/-- **When the queue survives crashes.** In every run of submissions, queries and approvals from an
empty queue, the queue survives where nothing is under way exactly when no request file is left; and
none is left if the intake is never killed while there is one.

**Proof sketch.** An approval removes its request file however it ends. A request file that is left
is listed, but names no status. -/
theorem queue_survives (py : PyLib ν) (genesis : GenesisConfig) (inode : ℕ → ℕ) (w : Site ν)
    (hqueue : w.queue = ∅) (hclear : w.Clear) (es : List (IntakeEvent ν)) (m : Intake ν)
    (hrun : Transition.run (Intake.step py genesis inode) ⟨w, none⟩ es = some m)
    (hrest : m.running = none) :
    (Meets (Intake.step py genesis inode) (fun m e => e = .kill → m.site.Clear) ⟨w, none⟩ es →
        Survives py genesis inode m.site) ∧
      (Survives py genesis inode m.site ↔ m.site.Clear) := by
  have hK : ∀ w t : Site ν, (w.Clear → t.Clear) → True → True := fun _ _ _ h => h
  obtain ⟨hregular, hplain⟩ : Intake.Regular genesis inode (fun _ => True) m ∧ m.site.Plain :=
    run_induction (I := fun m => Intake.Regular genesis inode (fun _ => True) m ∧ m.site.Plain)
      (fun u e v hu hstep =>
        let ⟨hv, hmoves⟩ := hu.1.step hK (fun _ => trivial) hstep
        ⟨hv, hmoves.plain hu.2⟩)
      ⟨Intake.regular_init hqueue trivial, fun actor file hfile => by
        rw [hclear actor] at hfile
        cases hfile⟩ hrun
  have hiff : Survives py genesis inode m.site ↔ m.site.Clear := by
    refine ⟨fun ⟨⟨_, hlisted, _⟩, _⟩ => clear_of_pending hplain hlisted, fun hm => ?_⟩
    exact ⟨pending_of_clear hm, fun account e hqueued hadmits ids clock =>
      ⟨_, run_approve hregular.sound hqueued hadmits⟩⟩
  refine ⟨fun hkill => hiff.mpr ?_, hiff⟩
  exact ((Intake.regular_init hqueue hclear).run (K := Site.Clear) (fun _ _ h hw => h hw) hkill
    hrun).rests hrest

end EnrollmentStore

/-! ## The capacity of the queue -/

namespace Site

/-- How many enrollments are not active. -/
def unresolved (w : Site ν) : ℕ := w.queue.values.countP fun e => e.status ≠ .active

omit [PyNumber ν] in
/-- Where no enrollment is active, all of them count. -/
lemma unresolved_eq_size_iff {w : Site ν} : w.unresolved = w.queue.size ↔
    ∀ a e, w.queue.get? a = some e → e.status ≠ .active := by
  have hlength : w.queue.size = w.queue.values.length := (List.length_map ..).symm
  rw [unresolved, hlength, List.countP_eq_length]
  simp only [decide_eq_true_eq, Dict.mem_values_iff]
  exact ⟨fun h a e he => h e ⟨a, he⟩, fun h e ⟨a, he⟩ => h a e he⟩

omit [PyNumber ν] in
lemma unresolved_le_size (w : Site ν) : w.unresolved ≤ w.queue.size :=
  List.countP_le_length.trans_eq (List.length_map ..)

omit [PyNumber ν] in
/-- Without request files only the enrollments are counted. -/
lemma Clear.countQueue {w : Site ν} (hw : w.Clear) :
    w.queue.size + (w.requests.keys.filter RequestPath.isQueued).length = w.queue.size := by
  rw [Nat.add_eq_left, List.length_eq_zero_iff, List.filter_eq_nil_iff]
  intro path hpath
  cases path with
  | given name => exact Bool.false_ne_true
  | queued actor =>
    obtain ⟨file, hfile⟩ := Dict.mem_keys_iff.mp hpath
    rw [hw actor] at hfile
    cases hfile

end Site

namespace EnrollmentStore

/-- A submission of a new account is refused for lack of room exactly if so many enrollments are in
the queue, whatever their status is. -/
lemma run_submit_full_iff {genesis : GenesisConfig} {inode : ℕ → ℕ} {w : Site ν}
    {body : Option (Json ν)} {wallet : String × String} {receipt : String} {reply : NodeReply ν}
    (hw : w.Clear) (hbody : submission genesis body = .ok wallet)
    (hnew : w.queue.get? wallet.1 = none) :
    ((submit genesis body receipt).run (FileCall.exec inode) reply w).1 =
      .error (.enrollment "enrollment queue is full") ↔ maxPending ≤ w.queue.size := by
  rw [submit, hbody, Routine.run_bind_of_ok (a := wallet) (t := w) rfl]
  dsimp only
  rw [run_access]
  simp only [FileCall.exec, hnew]
  rw [run_access]
  simp only [FileCall.exec, hw.countQueue]
  by_cases hfull : maxPending ≤ w.queue.size
  · refine iff_of_true ?_ hfull
    rw [decide_eq_false (Nat.not_lt.mpr hfull)]
    rfl
  · refine iff_of_false ?_ hfull
    rw [run_require (decide_eq_true (Nat.not_le.mp hfull))]
    intro h
    cases h

/-- **When a refusal for lack of room is justified.** In every run of submissions, queries and
approvals from an empty queue, a submission for a new account is refused for lack of room only if so
many enrollments are not active, precisely when fewer are in the queue or none of them is active.

**Proof sketch.** The queue never gets longer than its bound, and no enrollment ever leaves it. -/
theorem full_iff (py : PyLib ν) (genesis : GenesisConfig) (inode : ℕ → ℕ) (w : Site ν)
    (hqueue : w.queue = ∅) (hclear : w.Clear) (es : List (IntakeEvent ν)) (m : Intake ν)
    (hkill : Meets (Intake.step py genesis inode) (fun m e => e = .kill → m.site.Clear)
      ⟨w, none⟩ es)
    (hrun : Transition.run (Intake.step py genesis inode) ⟨w, none⟩ es = some m)
    (hrest : m.running = none) (body : Option (Json ν)) (wallet : String × String)
    (receipt : String) (reply : NodeReply ν) (hbody : submission genesis body = .ok wallet)
    (hnew : m.site.queue.get? wallet.1 = none) :
    (((submit genesis body receipt).run (FileCall.exec inode) reply m.site).1 =
        .error (.enrollment "enrollment queue is full") → maxPending ≤ m.site.unresolved) ↔
      m.site.queue.size < maxPending ∨
        ∀ a e, m.site.queue.get? a = some e → e.status ≠ .active := by
  have hregular := (Intake.regular_init hqueue hclear).run (K := Site.Clear)
    (fun _ _ h hw => h hw) hkill hrun
  rw [run_submit_full_iff (hregular.rests hrest) hbody hnew, ← Site.unresolved_eq_size_iff]
  have hroom : m.site.queue.size ≤ maxPending := hregular.sound.room
  have hle := m.site.unresolved_le_size
  omega

end EnrollmentStore

/-! ## Runs to the end -/

namespace Intake

variable {py : PyLib ν} {genesis : GenesisConfig} {inode : ℕ → ℕ}

/-- A run without kills leaves nothing that an operation would have removed. -/
lemma meets_of_no_kill {K : Intake ν → Prop} {m : Intake ν} {es : List (IntakeEvent ν)}
    (h : ∀ e ∈ es, e ≠ .kill) :
    Meets (Intake.step py genesis inode) (fun m e => e = .kill → K m) m es :=
  (meets_of_forall (G := fun e : IntakeEvent ν => e ≠ .kill) h).mono
    fun _ _ hne hkill => (hne hkill).elim

/-- The operation under way may run to its end. -/
lemma run_to_end (py : PyLib ν) (genesis : GenesisConfig) (inode : ℕ → ℕ)
    (x : FileRoutine ν Unit) (reply : NodeReply ν) (w : Site ν) : ∃ count,
    Transition.run (Intake.step py genesis inode) ⟨w, some x⟩
        (List.replicate count (.step reply)) =
      some ⟨(x.run (FileCall.exec inode) reply w).2, none⟩ := by
  induction x generalizing w with
  | ret a => exact ⟨1, rfl⟩
  | raise e => exact ⟨1, rfl⟩
  | call call next ih =>
    obtain ⟨count, hcount⟩ := ih (call.exec inode reply w).1 (call.exec inode reply w).2
    exact ⟨count + 1, hcount⟩

/-- An operation may be started and run to its end. -/
lemma run_operation (py : PyLib ν) (genesis : GenesisConfig) (inode : ℕ → ℕ) {α : Type}
    {x : FileRoutine ν α} {e : IntakeEvent ν} {w t : Site ν} {a : α} {reply : NodeReply ν}
    (hstart : (⟨w, none⟩ : Intake ν).step py genesis inode e =
      (⟨w, none⟩ : Intake ν).start x)
    (hx : x.run (FileCall.exec inode) reply w = (.ok a, t)) : ∃ count,
      Transition.run (Intake.step py genesis inode) ⟨w, none⟩
        (e :: List.replicate count (.step reply)) = some ⟨t, none⟩ := by
  obtain ⟨count, hcount⟩ := run_to_end py genesis inode
    (do let _ ← x; return ()) reply w
  rw [Routine.run_bind_of_ok hx] at hcount
  exact ⟨count, run_cons_eq_some_iff.mpr ⟨_, hstart, hcount⟩⟩

end Intake

namespace EnrollmentStore

variable {genesis : GenesisConfig} {inode : ℕ → ℕ} {w : Site ν} {e : Enrollment}

/-- A request of a valid enrollment is a submission of it. -/
lemma submission_of_valid (he : e.Valid genesis) :
    submission genesis (some (e.request : Json ν)) = .ok (e.account, e.credential) := by
  obtain ⟨fields, hdict, hkeys, -, hmatches, hwallet⟩ := request_of_valid (ν := ν) he
  have hset : Json.isSetOf (requestKeys.map (Json.str (ν := ν))) requestKeys = true := rfl
  simp only [submission, hdict, orRaise, ok_bind, hkeys, hset, hmatches, hwallet,
    Raise.require, Bool.and_self, if_true]

/-- A submission of a new account that finds room is filed. -/
lemma run_submit_of_room (hw : w.Clear) (he : e.Valid genesis) (hstatus : e.status = .pending)
    (hnew : w.queue.get? e.account = none) (hroom : w.queue.size < maxPending)
    {reply : NodeReply ν} :
    (submit genesis (some e.request) e.receipt).run (FileCall.exec inode) reply w =
      (.ok ⟨e.account, e.receipt, .pending⟩, { w with queue := w.queue.set e.account e }) := by
  have hfiled : (⟨"splitchain-wallet-enrollment/v1", genesis.networkId, e.account, e.credential,
      e.receipt, .pending⟩ : Enrollment) = e := by
    rw [← he.schema, ← he.networkId, ← hstatus]
  rw [submit, submission_of_valid he, Routine.run_bind_of_ok (a := (e.account, e.credential)) (t := w)
    rfl]
  dsimp only
  rw [run_access]
  simp only [FileCall.exec, hnew]
  rw [run_access]
  simp only [FileCall.exec, hw.countQueue]
  rw [run_require (decide_eq_true hroom), run_access]
  simp only [FileCall.exec, hfiled]
  rfl

section Example

open Intake

/-- The files when an approval has registered its account and removed its request file, but has not
asked the node. -/
def approvedSite : Site ℤ :=
  { activeSite with
    queue := Dict.ofList [("alice", exampleEnrollment "alice" .approved)]
    heard := [] }

/-- An approval that is killed there. -/
def killedApproval : List (IntakeEvent ℤ) :=
  exampleSubmission "alice" ++ exampleApproval "alice" 13 ++ [.kill]

/-- The queue survives an approval that is killed after it has removed its request file. -/
theorem queue_survives_alice :
    Transition.run (Intake.step Ledger.integerLib exampleGenesis id) ⟨exampleSite, none⟩
        killedApproval = some ⟨approvedSite, none⟩ ∧
      Survives Ledger.integerLib exampleGenesis id approvedSite := by
  have hrun : Transition.run (Intake.step Ledger.integerLib exampleGenesis id) ⟨exampleSite, none⟩
      killedApproval = some ⟨approvedSite, none⟩ := by
    rfl
  exact ⟨hrun, (queue_survives Ledger.integerLib exampleGenesis id exampleSite rfl (fun _ => rfl) _
    ⟨approvedSite, none⟩ hrun rfl).2.mpr fun _ => rfl⟩

/-- **A queue that does not survive.** The intake is killed between the writing of a request file
and its removal: the listing fails. -/
theorem exists_run_not_survives : ∃ es m,
    Transition.run (Intake.step Ledger.integerLib exampleGenesis id) ⟨exampleSite, none⟩ es =
        some m ∧ m.running = none ∧
      ¬Survives Ledger.integerLib exampleGenesis id m.site := by
  refine ⟨exampleSubmission "alice" ++ exampleApproval "alice" 2 ++ [.kill],
    ⟨⟨exampleSite.files, 0, Dict.ofList [("alice", exampleEnrollment "alice" .pending)],
      Dict.ofList [(.queued "alice", ⟨true, (exampleEnrollment "alice" .pending).request⟩)], [], ∅,
      [], none, ∅⟩, none⟩, rfl, rfl, fun h => ?_⟩
  obtain ⟨listed, hlisted, -⟩ := h.listed
  obtain ⟨v, hv⟩ := row_of_pending hlisted (List.mem_append_right _ List.mem_cons_self)
  cases hv

/-- Names of accounts. -/
def exampleName (i : ℕ) : String :=
  String.ofList ['w', Char.ofNat (97 + i / 16), Char.ofNat (97 + i % 16)]

/-- The names are those of accounts that may be enrolled. -/
lemma enrollable_exampleName : ∀ i < 256, enrollable exampleGenesis (exampleName i) = true := by
  decide +kernel

/-- Different numbers have different names. -/
lemma exampleName_injective {i j : ℕ} (hi : i < 256) (hj : j < 256)
    (h : exampleName i = exampleName j) : i = j := by
  have hletter : ∀ a < 16, ∀ b < 16, Char.ofNat (97 + a) = Char.ofNat (97 + b) → a = b := by
    decide
  have hlist := congrArg String.toList h
  simp only [exampleName, String.toList_ofList, List.cons.injEq, true_and, and_true] at hlist
  have hhigh := hletter _ (by omega) _ (by omega) hlist.1
  have hlow := hletter _ (by omega) _ (by omega) hlist.2
  omega

/-- No name is the one of the first account. -/
lemma exampleName_ne_alice (i : ℕ) : exampleName i ≠ "alice" := fun h => by
  have hhead := congrArg (fun s => s.toList.head?) h
  simp only [exampleName, String.toList_ofList, List.head?_cons] at hhead
  exact absurd hhead (by decide)

/-- The enrollment of the example that has a name. -/
lemma valid_exampleEnrollment {i : ℕ} (hi : i < 256) :
    (exampleEnrollment (exampleName i) .pending).Valid exampleGenesis :=
  ⟨rfl, rfl, enrollable_exampleName i hi,
    (by decide : isHex 64 (String.ofList (List.replicate 64 'a')) = true)⟩

/-- The intake may file so many enrollments after the first, which is active. -/
lemma exists_run_filed : ∀ n < maxPending, ∃ es queue,
    Transition.run (Intake.step Ledger.integerLib exampleGenesis id) ⟨exampleSite, none⟩ es =
        some ⟨{ activeSite with queue := queue }, none⟩ ∧ (∀ e ∈ es, e ≠ .kill) ∧
      queue.size = n + 1 ∧ queue.get? "alice" = some (exampleEnrollment "alice" .active) ∧
      ∀ j, n ≤ j → j < 256 → queue.get? (exampleName j) = none := by
  intro n
  induction n with
  | zero =>
    refine fun _ => ⟨_, activeSite.queue, run_activeSite, ?_, rfl, rfl, fun j _ _ => ?_⟩
    · simp [exampleSubmission, exampleApproval]
    · exact Dict.get?_set_of_ne ∅ _ (exampleName_ne_alice j).symm
  | succ n ih =>
    intro hn
    have hsmall : n < 256 := by
      unfold maxPending at hn
      omega
    obtain ⟨es, queue, hrun, hkill, hsize, halice, hfree⟩ := ih (by omega)
    set filed := exampleEnrollment (exampleName n) .pending with hfiled
    have hnew : queue.get? filed.account = none := hfree n le_rfl hsmall
    have hroom : queue.size < maxPending := hsize.trans_lt hn
    obtain ⟨count, hcount⟩ := run_operation Ledger.integerLib exampleGenesis id
      (e := .submit (some filed.request) filed.receipt) rfl
      (run_submit_of_room (w := { activeSite with queue := queue }) (fun _ => rfl)
        (valid_exampleEnrollment hsmall) rfl hnew hroom)
    refine ⟨es ++ .submit (some filed.request) filed.receipt :: List.replicate count (.step .lost),
      queue.set filed.account filed, run_append_eq_some_iff.mpr ⟨_, hrun, hcount⟩, ?_, ?_, ?_, ?_⟩
    · intro e he
      rcases List.mem_append.mp he with he | he
      · exact hkill e he
      · rcases List.mem_cons.mp he with rfl | he
        · exact nofun
        · exact (List.eq_of_mem_replicate he) ▸ nofun
    · rw [Dict.size_set_of_none _ hnew, hsize]
    · exact (Dict.get?_set_of_ne _ _ (exampleName_ne_alice n)).trans halice
    · intro j hj hsmallj
      have hne : filed.account ≠ exampleName j := fun h => by
        have hnj := exampleName_injective hsmall hsmallj h
        omega
      exact (Dict.get?_set_of_ne _ _ hne).trans (hfree j (by omega) hsmallj)

/-- **A queue that is full of active requests.** Two hundred requests are filed, the first of them
is active, and the next submission is refused. -/
theorem exists_run_full : ∃ es m body wallet receipt,
    Transition.run (Intake.step Ledger.integerLib exampleGenesis id) ⟨exampleSite, none⟩ es =
        some m ∧ (∀ e ∈ es, e ≠ .kill) ∧ m.running = none ∧
      submission exampleGenesis body = .ok wallet ∧ m.site.queue.get? wallet.1 = none ∧
      ((submit exampleGenesis body receipt).run (FileCall.exec id) .lost m.site).1 =
        .error (.enrollment "enrollment queue is full") ∧ m.site.unresolved < maxPending := by
  obtain ⟨es, queue, hrun, hkill, hsize, halice, hfree⟩ := exists_run_filed 199 (by decide)
  have hbody := submission_of_valid (ν := ℤ) (valid_exampleEnrollment (i := 199) (by decide))
  have hnew : queue.get? (exampleName 199) = none := hfree 199 le_rfl (by decide)
  refine ⟨es, _, _, _, "", hrun, hkill, rfl, hbody, hnew, ?_, ?_⟩
  · exact (run_submit_full_iff (fun _ => rfl) hbody hnew).mpr hsize.ge
  · have hne : Site.unresolved { activeSite with queue := queue } ≠ queue.size := fun h =>
      Site.unresolved_eq_size_iff.mp h "alice" _ halice rfl
    have hle := Site.unresolved_le_size { activeSite with queue := queue }
    rw [hsize] at hne
    exact lt_of_le_of_ne (hle.trans_eq hsize) hne

/-- In the queue of the example a refusal would be justified exactly as the theorem says. -/
theorem full_iff_alice :
    (((submit exampleGenesis (some (exampleEnrollment (exampleName 0) .pending).request) "").run
        (FileCall.exec id) .lost activeSite).1 =
      .error (.enrollment "enrollment queue is full") → maxPending ≤ activeSite.unresolved) ↔
      activeSite.queue.size < maxPending ∨
        ∀ a e, activeSite.queue.get? a = some e → e.status ≠ .active :=
  full_iff Ledger.integerLib exampleGenesis id exampleSite rfl (fun _ => rfl) _
    ⟨activeSite, none⟩ (meets_of_no_kill (by simp [exampleSubmission, exampleApproval]))
    run_activeSite rfl _ _ "" .lost (submission_of_valid (valid_exampleEnrollment (by decide)))
    (Dict.get?_set_of_ne ∅ _ (exampleName_ne_alice 0).symm)

end Example

end EnrollmentStore

end SplitChain
