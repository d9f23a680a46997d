import Mathlib.Data.List.MinMax
import Mathlib.Data.Prod.Lex
import SplitChain.Model.ContainerRuntime

set_option relaxedAutoImplicit false
set_option autoImplicit false

/-!
# Scheduling of workloads

The scheduler `splitchain.distops` checks a workload and its manifest, selects a node that may run
it, marks the node as busy, computes a completion proof and returns a receipt. The fields of a
workload may be any values of the interpreter, also such as have no canonical encoding.

## Main definitions

* `SplitChain.PyAtom`, `SplitChain.PyValue.finite?` — values with and without a canonical encoding.
* `SplitChain.Workload.published` — what is hashed of a workload.
* `SplitChain.DistOps.select`, `SplitChain.DistOps.schedule`.

## Main results

* `SplitChain.DistOps.ends_schedule` — how a call ends.
* `SplitChain.DistOps.schedule_restores_iff` — when it leaves no node marked as busy.
* `SplitChain.DistOps.scheduled_not_runnable` — the runtime refuses every receipt that is returned.
-/

namespace SplitChain

open Raise Proc

open PyNumber (val ofInt)

variable {ν : Type} [PyNumber ν]

/-! ## Values -/

/-- A value without parts that is no text: a number, a float that is not finite, or an object that
is no JSON value. -/
inductive PyAtom (ν : Type) where
  | number (n : ν)
  | notANumber
  | infinity (negative : Bool)
  | object
deriving DecidableEq

/-- A value of the interpreter. -/
abbrev PyValue (ν : Type) := Json (PyAtom ν)

namespace PyValue

mutual

/-- The value as JSON, if it is. -/
def finite? : PyValue ν → Option (Json ν)
  | .null => some .null
  | .bool b => some (.bool b)
  | .num (.number n) => some (.num n)
  | .num _ => none
  | .str s => some (.str s)
  | .arr xs => (finites? xs).map .arr
  | .obj kvs => (finiteMembers? kvs).map .obj

/-- The elements of an array. -/
def finites? : List (PyValue ν) → Option (List (Json ν))
  | [] => some []
  | x :: xs => do return (← finite? x) :: (← finites? xs)

/-- The members of an object. -/
def finiteMembers? : List (String × PyValue ν) → Option (List (String × Json ν))
  | [] => some []
  | (k, x) :: kvs => do return (k, ← finite? x) :: (← finiteMembers? kvs)

end

/-- Compare a number: a finite one by its value, an infinity by its sign; a float that is no number
compares with nothing. -/
def compare (v : PyValue ν) (finite : ℚ → Bool) (infinite : Bool → Bool) : Except PyError Bool :=
  match v with
  | .bool b => .ok (finite (if b then 1 else 0))
  | .num (.number n) => .ok (finite (val n))
  | .num .notANumber => .ok false
  | .num (.infinity negative) => .ok (infinite negative)
  | _ => .error .type

/-- `v < n` -/
def lt (v : PyValue ν) (n : ℤ) : Except PyError Bool := v.compare (fun x => decide (x < n)) id

/-- `n >= v` -/
def le (v : PyValue ν) (n : ℤ) : Except PyError Bool := v.compare (fun x => decide (x ≤ n)) id

end PyValue

/-! ## Nodes and workloads -/

/-- The risk of a workload. -/
inductive Risk where
  | low | medium | high
deriving DecidableEq, Repr

namespace Risk

/-- The name of a risk in lower case. -/
def name : Risk → String
  | low => "low"
  | medium => "medium"
  | high => "high"

/-- `REPUTATION_FLOOR` -/
def reputationFloor : Risk → ℤ
  | low => 0
  | medium => 50
  | high => 80

/-- The risk with a value. -/
def ofValue? (x : ℚ) : Option Risk :=
  if x = 1 then some low else if x = 2 then some medium else if x = 3 then some high else none

end Risk

/-- The risk field of a workload: a risk or any other value. -/
inductive RiskField (ν : Type) where
  | member (risk : Risk)
  | value (v : PyValue ν)

/-- The risk that a lookup by a risk field finds: a number is found by its value. -/
def RiskField.lookup : RiskField ν → Except PyError Risk
  | member risk => .ok risk
  | value (.bool b) => orRaise (Risk.ofValue? (if b then 1 else 0)) .key
  | value (.num (.number n)) => orRaise (Risk.ofValue? (val n)) .key
  | value v => .error (if v.hashable then .key else .type)

/-- A node. -/
structure ComputeNode where
  nodeId : String
  cpu : ℤ
  memoryMb : ℤ
  reputation : ℤ
  trusted : Bool
  busy : Bool
deriving DecidableEq

/-- `asdict(node)` -/
def ComputeNode.asdict (node : ComputeNode) : Json ν :=
  .obj [("node_id", .str node.nodeId), ("cpu", .num (ofInt node.cpu)),
    ("memory_mb", .num (ofInt node.memoryMb)), ("reputation", .num (ofInt node.reputation)),
    ("trusted", .bool node.trusted), ("busy", .bool node.busy)]

/-- A workload. -/
structure Workload (ν : Type) where
  image : PyValue ν
  command : PyValue ν
  cpu : PyValue ν
  memoryMb : PyValue ν
  risk : RiskField ν
  networkAllowlist : PyValue ν
  secretNames : PyValue ν

/-- A workload whose fields have a canonical encoding. -/
structure PublicWorkload (ν : Type) where
  image : Json ν
  command : Json ν
  cpu : Json ν
  memoryMb : Json ν
  risk : Risk
  networkAllowlist : Json ν
  secretNames : Json ν

/-- The fields of a workload. -/
def PublicWorkload.json (w : PublicWorkload ν) : Json ν :=
  .obj [("image", w.image), ("command", w.command), ("cpu", w.cpu), ("memory_mb", w.memoryMb),
    ("risk", .str w.risk.name), ("network_allowlist", w.networkAllowlist),
    ("secret_names", w.secretNames)]

/-- What `canonical_json(workload.public())` encodes: the risk field has to be a risk, for its name,
and the other fields have to be JSON values. -/
def Workload.published (w : Workload ν) : Except PyError (PublicWorkload ν) :=
  match w.risk with
  | .value _ => .error .attribute
  | .member risk => orRaise (do
      let image ← w.image.finite?
      let command ← w.command.finite?
      let cpu ← w.cpu.finite?
      let memoryMb ← w.memoryMb.finite?
      let networkAllowlist ← w.networkAllowlist.finite?
      let secretNames ← w.secretNames.finite?
      return { image, command, cpu, memoryMb, risk, networkAllowlist, secretNames })
    (.protocol "payload is not canonical JSON")

/-! ## Manifests -/

/-- A signed manifest of a workload. -/
structure WorkloadManifest where
  issuer : String
  workloadDigest : String
  validFrom : ℤ
  validUntil : ℤ
  signature : String
deriving DecidableEq

/-- The part of a manifest that is signed. -/
def WorkloadManifest.unsigned (m : WorkloadManifest) : Json ν :=
  .obj [("issuer", .str m.issuer), ("workload_digest", .str m.workloadDigest),
    ("valid_from", .num (ofInt m.validFrom)), ("valid_until", .num (ofInt m.validUntil))]

/-- `asdict(manifest)` -/
def WorkloadManifest.asdict (m : WorkloadManifest) : Json ν :=
  .obj [("issuer", .str m.issuer), ("workload_digest", .str m.workloadDigest),
    ("valid_from", .num (ofInt m.validFrom)), ("valid_until", .num (ofInt m.validUntil)),
    ("signature", .str m.signature)]

/-- The domain of workload digests. -/
def HashDomain.distopsWorkload : HashDomain :=
  ⟨"splitchain/distops-workload/v1", by decide, by decide⟩

/-- An authority that signs manifests. -/
structure ManifestAuthority where
  issuer : String
  secret : String

/-- Whether a manifest is valid for a workload in a round. -/
def ManifestAuthority.verify (py : PyLib ν) (authority : ManifestAuthority) (w : Workload ν)
    (m : WorkloadManifest) (currentRound : ℤ) : Except PyError Bool := do
  let expected := protocolDigest py .distopsWorkload (← w.published).json
  if m.issuer = authority.issuer ∧ m.validFrom ≤ currentRound ∧ currentRound < m.validUntil ∧
      m.workloadDigest = expected then
    compareDigest (hmacDigest py (encodeUtf8 authority.secret.toList) m.unsigned) m.signature
  else return false

/-! ## The scheduler -/

/-- The nodes and the receipts so far. -/
structure DistOpsState (ν : Type) where
  nodes : List ComputeNode
  receipts : List (Dict String (Json ν))

/-- Mark a node as busy or not. -/
def DistOpsState.setBusy (s : DistOpsState ν) (i : ℕ) (busy : Bool) : DistOpsState ν :=
  { s with nodes := s.nodes.modify i fun node => { node with busy := busy } }

namespace DistOps

variable (py : PyLib ν) (authority : Option ManifestAuthority)

/-- `ALLOWED_IMAGES` -/
def allowedImages : List String := ["splitchain/echo:0.1", "splitchain/hash:0.1"]

/-- Whether a value is one of the allowed images. -/
def isAllowedImage (image : PyValue ν) : Except PyError Bool := do
  require image.hashable .type
  return image.str?.any (· ∈ allowedImages)

/-- Whether a node may run a workload. -/
def eligible (w : Workload ν) (node : ComputeNode) : Except PyError Bool := do
  if node.busy then return false
  else if !(← w.cpu.le node.cpu) then return false
  else if !(← w.memoryMb.le node.memoryMb) then return false
  else do
    let risk ← w.risk.lookup
    return decide (risk.reputationFloor ≤ node.reputation) && (risk == .low || node.trusted)

/-- The nodes that may run a workload, with their places. -/
def candidates (w : Workload ν) : List (ComputeNode × ℕ) → Except PyError (List (ComputeNode × ℕ))
  | [] => .ok []
  | p :: ps => do
    let chosen ← eligible w p.1
    let rest ← candidates w ps
    return if chosen then p :: rest else rest

/-- The order of what nodes are selected by. -/
@[reducible] def rankOrder : LinearOrder (ℤ ×ₗ Bool ×ₗ String) :=
  @Prod.Lex.instLinearOrder ℤ (Bool ×ₗ String) Int.instLinearOrder (Prod.Lex.instLinearOrder Bool String)

/-- By what the node is selected: reputation, trust, and last its id. -/
def rank (p : ComputeNode × ℕ) : ℤ ×ₗ Bool ×ₗ String :=
  toLex (p.1.reputation, toLex (p.1.trusted, p.1.nodeId))

/-- The best of the nodes, the first one among equals. -/
def best (nodes : List (ComputeNode × ℕ)) : Option (ComputeNode × ℕ) :=
  @List.argmax _ _ rankOrder.toPreorder rankOrder.toDecidableLT rank nodes

/-- The best of the nodes is one of them. -/
lemma mem_of_best {nodes : List (ComputeNode × ℕ)} {p : ComputeNode × ℕ}
    (h : best nodes = some p) : p ∈ nodes :=
  @List.argmax_mem _ _ rankOrder.toPreorder rankOrder.toDecidableLT rank nodes p
    (Option.mem_def.mpr h)

/-- Check a workload and its manifest. -/
def admission (w : Workload ν) (manifest : Option WorkloadManifest) (currentRound : ℤ) :
    Except PyError Unit := do
  require (← isAllowedImage w.image)
    (.value "image is not approved by the DistOPS sandbox policy")
  require (!(← w.cpu.lt 1)) (.value "invalid DistOPS resource quota")
  require (!(← w.memoryMb.lt 64)) (.value "invalid DistOPS resource quota")
  match authority, manifest with
  | none, _ => return ()
  | some _, none => .error (.value "signed workload manifest is missing or invalid")
  | some authority, some manifest => do
    require (← authority.verify py w manifest currentRound)
      (.value "signed workload manifest is missing or invalid")

/-- Select the node for a workload: everything before it is marked as busy. -/
def select (nodes : List ComputeNode) (w : Workload ν) (manifest : Option WorkloadManifest)
    (currentRound : ℤ) : Except PyError (ComputeNode × ℕ) := do
  admission py authority w manifest currentRound
  orRaise (best (← candidates w nodes.zipIdx)) (.value "no eligible sandbox node")

/-- The receipt for a workload on a node. -/
def receipt (node : ComputeNode) (w : PublicWorkload ν) (manifest : Option WorkloadManifest) :
    Dict String (Json ν) :=
  let proof := protocolDigest py .distopsCompletion
    (.obj [("node_id", .str node.nodeId), ("workload", w.json)])
  let network : Json ν :=
    if w.networkAllowlist.truthy then
      .obj [("mode", .str "allowlist"), ("destinations", w.networkAllowlist)]
    else .obj [("mode", .str "deny"), ("destinations", .arr [])]
  Dict.ofList [("node", node.asdict), ("workload", w.json),
    ("manifest", (manifest.map WorkloadManifest.asdict).getD .null),
    ("sandbox", .obj [
      ("runtime", .str (if w.risk = .high then "microvm" else "container")),
      ("rootless", .bool true), ("network", network), ("filesystem", .str "read-only"),
      ("privileges", .str "none"), ("no_new_privileges", .bool true),
      ("capabilities", .str "drop-all"), ("seccomp", .str "required"),
      ("host_pid_namespace", .bool false),
      ("quotas", .obj [("cpu", w.cpu), ("memory_mb", w.memoryMb)]),
      ("secrets", .obj [("names", w.secretNames), ("delivery", .str "ephemeral"),
        ("persisted", .bool false), ("values_exposed", .bool false)])]),
    ("result_digest", .str proof), ("completion_proof", .str proof), ("status", .str "completed")]

/-- Schedule a workload. -/
def schedule (w : Workload ν) (manifest : Option WorkloadManifest) (currentRound : ℤ) :
    EStateM PyError (DistOpsState ν) (Dict String (Json ν)) := do
  let (node, i) ← lift (select py authority (← get).nodes w manifest currentRound)
  modify (·.setBusy i true)
  let public_ ← lift w.published
  let result := receipt py { node with busy := true } public_ manifest
  modify (·.setBusy i false)
  modify fun s => { s with receipts := s.receipts ++ [result] }
  return result

/-! ## The nodes that are marked -/

section Marks

omit [PyNumber ν] in
/-- Which nodes are marked as busy. -/
def busyFlags (s : DistOpsState ν) : List Bool := s.nodes.map (·.busy)

omit [PyNumber ν] in
/-- A mark changes one flag. -/
@[simp] lemma busyFlags_setBusy (s : DistOpsState ν) (i : ℕ) (busy : Bool) :
    busyFlags (s.setBusy i busy) = (busyFlags s).set i busy := by
  apply List.ext_getElem?
  intro j
  simp only [busyFlags, DistOpsState.setBusy, List.getElem?_map, List.getElem?_modify,
    List.getElem?_set, List.length_map]
  by_cases hij : i = j
  · subst hij
    cases hnode : s.nodes[i]? with
    | none => simpa using hnode
    | some node => simp [(List.getElem?_eq_some_iff.mp hnode).1]
  · simp [hij]

omit [PyNumber ν] in
@[simp] lemma receipts_setBusy (s : DistOpsState ν) (i : ℕ) (busy : Bool) :
    (s.setBusy i busy).receipts = s.receipts := rfl

end Marks

variable {py authority} {w : Workload ν} {manifest : Option WorkloadManifest} {currentRound : ℤ}

/-- A node that may run a workload is not busy. -/
lemma not_busy_of_eligible {node : ComputeNode} (h : eligible w node = .ok true) :
    node.busy = false := by
  cases hbusy : node.busy with
  | false => rfl
  | true =>
    rw [eligible, if_pos hbusy] at h
    cases h

/-- The candidates are nodes of the list that may run the workload. -/
lemma eligible_of_mem_candidates {ps chosen : List (ComputeNode × ℕ)}
    (h : candidates w ps = .ok chosen) : ∀ p ∈ chosen, p ∈ ps ∧ eligible w p.1 = .ok true := by
  induction ps generalizing chosen with
  | nil =>
    obtain rfl : [] = chosen := Except.ok.inj h
    exact fun p hp => nomatch hp
  | cons q qs ih =>
    simp only [candidates, bind_eq_ok, pure_eq_ok] at h
    obtain ⟨fits, hfits, rest, hrest, rfl⟩ := h
    intro p hp
    cases fits with
    | false => exact (ih hrest p hp).imp_left (List.mem_cons_of_mem q)
    | true =>
      rcases List.mem_cons.mp hp with rfl | hp
      · exact ⟨List.mem_cons_self, hfits⟩
      · exact (ih hrest p hp).imp_left (List.mem_cons_of_mem q)

/-- What a selection has passed: the checks of the workload and its manifest, and the node is one of
the list that may run the workload. -/
lemma of_select {nodes : List ComputeNode} {node : ComputeNode} {i : ℕ}
    (h : select py authority nodes w manifest currentRound = .ok (node, i)) :
    admission py authority w manifest currentRound = .ok () ∧ nodes[i]? = some node ∧
      eligible w node = .ok true := by
  simp only [select, bind_eq_ok, orRaise_eq_ok] at h
  obtain ⟨⟨⟩, hpasses, chosen, hchosen, hmax⟩ := h
  obtain ⟨hmem, heligible⟩ :=
    eligible_of_mem_candidates hchosen _ (mem_of_best hmax)
  exact ⟨hpasses, List.mem_zipIdx_iff_getElem?.mp hmem, heligible⟩

/-- The node that is selected is not marked as busy. -/
lemma busyFlags_of_select {s : DistOpsState ν} {node : ComputeNode} {i : ℕ}
    (h : select py authority s.nodes w manifest currentRound = .ok (node, i)) :
    (busyFlags s)[i]? = some false := by
  obtain ⟨-, hnode, heligible⟩ := of_select h
  rw [busyFlags, List.getElem?_map, hnode, Option.map_some, not_busy_of_eligible heligible]

/-- **How a call ends.** A call that raises before a node is selected leaves everything as it was;
one that raises after it leaves the node marked as busy; one that returns removes the mark and files
the receipt. -/
lemma ends_schedule {s : DistOpsState ν} {P : Dict String (Json ν) → DistOpsState ν → Prop}
    {E : PyError → DistOpsState ν → Prop} :
    Ends (schedule py authority w manifest currentRound) s P E ↔
      match select py authority s.nodes w manifest currentRound with
      | .error e => E e s
      | .ok (node, i) =>
        match w.published with
        | .error e => E e (s.setBusy i true)
        | .ok p =>
          let r := receipt py { node with busy := true } p manifest
          let t := (s.setBusy i true).setBusy i false
          P r { t with receipts := t.receipts ++ [r] } := by
  simp only [schedule, ends_bind, ends_get]
  cases select py authority s.nodes w manifest currentRound with
  | error e => exact Iff.rfl
  | ok chosen =>
    cases w.published with
    | error e => simp
    | ok p => simp

/-- **When scheduling leaves no node marked.** After a call every flag is what it was and the
receipts have grown by one exactly if the call has returned, precisely when no node was selected or
the workload can be encoded.

**Proof sketch.** The node that is selected was not marked, so removing its mark restores the flags.
The mark stays exactly when the workload cannot be encoded for the completion proof. -/
theorem schedule_restores_iff (py : PyLib ν) (authority : Option ManifestAuthority) (w : Workload ν)
    (manifest : Option WorkloadManifest) (currentRound : ℤ) (s : DistOpsState ν) :
    Ends (schedule py authority w manifest currentRound) s
        (fun r t => busyFlags t = busyFlags s ∧ t.receipts = s.receipts ++ [r])
        (fun _ t => busyFlags t = busyFlags s ∧ t.receipts = s.receipts) ↔
      (∀ chosen, select py authority s.nodes w manifest currentRound ≠ .ok chosen) ∨
        ∃ p, w.published = .ok p := by
  rw [ends_schedule]
  cases hselect : select py authority s.nodes w manifest currentRound with
  | error e => simp
  | ok chosen =>
    obtain ⟨node, i⟩ := chosen
    have hfree := busyFlags_of_select hselect
    obtain ⟨hlt, hi⟩ := List.getElem?_eq_some_iff.mp hfree
    cases w.published with
    | error e =>
      -- the mark of the selected node stays
      refine iff_of_false (fun h => ?_) (by simp)
      have hset : ((busyFlags s).set i true)[i]? = (busyFlags s)[i]? := by
        rw [← busyFlags_setBusy]
        exact congrArg (·[i]?) h.1
      rw [List.getElem?_set_self hlt, hfree] at hset
      cases hset
    | ok p =>
      refine iff_of_true ⟨?_, rfl⟩ (Or.inr ⟨p, rfl⟩)
      calc busyFlags ((s.setBusy i true).setBusy i false)
          = (busyFlags s).set i false := by
            rw [busyFlags_setBusy, busyFlags_setBusy, List.set_set]
        _ = busyFlags s := by rw [← hi, List.set_getElem_self]

/-- With a manifest authority only workloads that can be encoded are scheduled. -/
lemma published_of_select {nodes : List ComputeNode} {chosen : ComputeNode × ℕ}
    (a : ManifestAuthority)
    (h : select py (some a) nodes w manifest currentRound = .ok chosen) :
    ∃ p, w.published = .ok p := by
  obtain ⟨hpasses, -, -⟩ := of_select (show select _ _ _ _ _ _ = .ok (chosen.1, chosen.2) from h)
  cases manifest with
  | none => simp [admission, bind_eq_ok] at hpasses
  | some m =>
    simp only [admission, ManifestAuthority.verify, bind_eq_ok] at hpasses
    obtain ⟨_, -, _, -, _, -, _, -, _, -, _, -, _, ⟨p, hp, -⟩, -⟩ := hpasses
    exact ⟨p, hp⟩

/-- **With a manifest authority no node stays marked**, whatever the workload is. -/
theorem schedule_restores (a : ManifestAuthority) (s : DistOpsState ν) :
    Ends (schedule py (some a) w manifest currentRound) s
      (fun r t => busyFlags t = busyFlags s ∧ t.receipts = s.receipts ++ [r])
      (fun _ t => busyFlags t = busyFlags s ∧ t.receipts = s.receipts) := by
  rw [schedule_restores_iff]
  by_cases h : ∃ chosen, select py (some a) s.nodes w manifest currentRound = .ok chosen
  · exact Or.inr (published_of_select a h.choose_spec)
  · exact Or.inl (not_exists.mp h)

/-! ## Receipts at the runtime -/

section Runtime

open ContainerCommandBuilder

variable {text : TextLib} {gateway : Option TrustedEgressGateway}

/-- No allowed image is pinned by a digest. -/
lemma digestImage_of_allowed {image : String} (h : image ∈ allowedImages) :
    digestImage image = false := by
  simp only [allowedImages, List.mem_cons, List.not_mem_nil, or_false] at h
  rcases h with rfl | rfl
  · decide
  · decide

omit [PyNumber ν] in
/-- A text is published as it is. -/
lemma image_of_published {p : PublicWorkload ν} {image : String} (h : w.published = .ok p)
    (himage : w.image.str? = some image) : p.image = .str image := by
  rw [Json.str?_eq_some] at himage
  unfold Workload.published at h
  split at h
  · cases h
  · simp only [orRaise_eq_ok, himage, PyValue.finite?, Option.bind_eq_bind, Option.bind_some,
      Option.bind_eq_some_iff, Option.pure_def, Option.some.injEq] at h
    obtain ⟨_, -, _, -, _, -, _, -, _, -, rfl⟩ := h
    rfl

/-- A receipt for an image that is not pinned does not pass the checks of the runtime. -/
lemma check_receipt {node : ComputeNode} {p : PublicWorkload ν} {image : String}
    (himage : p.image = .str image) (hpinned : digestImage image = false) :
    check py text (receipt py node p manifest) gateway =
      .error (.protocol "runtime requires an immutable sha256 image reference") := by
  have hget : getD (p.json) "image" (.str "") = .ok (.str image) := himage ▸ rfl
  have hcommand : getD (p.json) "command" (.arr []) = .ok p.command := rfl
  have hworkload : (receipt py node p manifest).getD "workload" (.obj []) = p.json := rfl
  rw [check, hworkload, hget, ok_bind, hcommand, ok_bind]
  simp [require, hpinned, orRaise, Json.str?]

/-- A receipt that is returned is one for an allowed image. -/
lemma of_schedule {s t : DistOpsState ν} {r : Dict String (Json ν)}
    (h : schedule py authority w manifest currentRound s = .ok r t) :
    ∃ node p image, r = receipt py node p manifest ∧ p.image = .str image ∧
      image ∈ allowedImages := by
  have hends : Ends (schedule py authority w manifest currentRound) s
      (fun r _ => ∃ node p image, r = receipt py node p manifest ∧ p.image = .str image ∧
        image ∈ allowedImages) fun _ _ => True := by
    rw [ends_schedule]
    cases hselect : select py authority s.nodes w manifest currentRound with
    | error e => trivial
    | ok chosen =>
      cases hpublished : w.published with
      | error e => trivial
      | ok p =>
        obtain ⟨hpasses, -, -⟩ :=
          of_select (show select _ _ _ _ _ _ = .ok (chosen.1, chosen.2) from hselect)
        simp only [admission, isAllowedImage, bind_eq_ok, require_eq_ok, pure_eq_ok] at hpasses
        obtain ⟨_, ⟨_, -, rfl⟩, _, hallowed, -⟩ := hpasses
        cases himage : w.image.str? with
        | none =>
          rw [himage] at hallowed
          cases hallowed
        | some image =>
          rw [himage] at hallowed
          exact ⟨_, p, image, rfl, image_of_published hpublished himage,
            of_decide_eq_true hallowed⟩
  exact (ends_of_eq_ok h).mp hends

/-- A receipt that does not pass the checks of the runtime is not executed. -/
lemma execute_eq_error {runtime : ContainerRuntime} {r : Dict String (Json ν)}
    {attestation : RuntimeAttestation} {nonces : List String} {e : PyError}
    (hvalid : runtime.authority.verify py attestation currentRound = .ok true)
    (hunused : attestation.nonce ∉ nonces) (hcheck : check py text r gateway = .error e) :
    runtime.execute py text r attestation currentRound gateway nonces = .error e nonces := by
  have hbuild : build py text r gateway = .error e := by rw [build, hcheck]; rfl
  refine eq_error_iff.mpr ?_
  simp only [ContainerRuntime.execute, ends_bind, ends_get, ends_lift, hvalid, hbuild]
  simp [require, hunused]

/-- **No scheduled work is runnable.** The runtime refuses every receipt that the scheduler returns,
whatever the workload, the attestation and the gateway are.

**Proof sketch.** The scheduler allows images that are named by a tag, the runtime only images that
are pinned by a digest. -/
theorem scheduled_not_runnable (py : PyLib ν) (authority : Option ManifestAuthority)
    (w : Workload ν) (manifest : Option WorkloadManifest) (currentRound : ℤ) (s t : DistOpsState ν)
    (r : Dict String (Json ν))
    (h : schedule py authority w manifest currentRound s = .ok r t)
    (text : TextLib) (runtime : ContainerRuntime) (attestation : RuntimeAttestation) (round : ℤ)
    (gateway : Option TrustedEgressGateway) (nonces : List String)
    (hvalid : runtime.authority.verify py attestation round = .ok true)
    (hunused : attestation.nonce ∉ nonces) :
    runtime.execute py text r attestation round gateway nonces =
      .error (.protocol "runtime requires an immutable sha256 image reference") nonces := by
  obtain ⟨node, p, image, rfl, himage, hallowed⟩ := of_schedule h
  exact execute_eq_error hvalid hunused (check_receipt himage (digestImage_of_allowed hallowed))

end Runtime

section Example

open ContainerCommandBuilder

/-- A trusted node of the tests. -/
def exampleNode : ComputeNode := ⟨"trusted-a", 8, 4096, 90, true, false⟩

/-- A workload of the tests with a given command. -/
def exampleWorkload (command : PyValue ℤ) : Workload ℤ where
  image := .str "splitchain/hash:0.1"
  command := command
  cpu := .num (.number 1)
  memoryMb := .num (.number 128)
  risk := .member .medium
  networkAllowlist := .arr []
  secretNames := .arr []

/-- **A node that stays marked.** The command holds a float that is no number, and there is no
manifest authority: the completion proof cannot be computed, and the only node stays busy. -/
theorem node_left_busy : ∃ (w : Workload ℤ) (s : DistOpsState ℤ),
    ¬Ends (schedule Ledger.integerLib none w none 0) s
      (fun r t => busyFlags t = busyFlags s ∧ t.receipts = s.receipts ++ [r])
      (fun _ t => busyFlags t = busyFlags s ∧ t.receipts = s.receipts) := by
  refine ⟨exampleWorkload (.arr [.str "hash", .num .notANumber]), ⟨[exampleNode], []⟩, fun h => ?_⟩
  have hbusy : busyFlags ⟨[{ exampleNode with busy := true }], []⟩ =
      busyFlags (⟨[exampleNode], []⟩ : DistOpsState ℤ) := h.1
  exact absurd hbusy (by decide)

/-- What is hashed of a workload of the tests. -/
def examplePublic : PublicWorkload ℤ where
  image := .str "splitchain/hash:0.1"
  command := .arr [.str "hash", .str "demo"]
  cpu := .num 1
  memoryMb := .num 128
  risk := .medium
  networkAllowlist := .arr []
  secretNames := .arr []

/-- The workload of the tests is scheduled. -/
lemma schedule_exampleWorkload :
    schedule Ledger.integerLib none (exampleWorkload (.arr [.str "hash", .str "demo"])) none 0
        ⟨[exampleNode], []⟩ =
      .ok (receipt Ledger.integerLib { exampleNode with busy := true } examplePublic none)
        ⟨[exampleNode],
          [receipt Ledger.integerLib { exampleNode with busy := true } examplePublic none]⟩ :=
  rfl

/-- The attestation of the example is valid. -/
lemma verify_exampleAttestation : ContainerRuntime.exampleRuntime.authority.verify Ledger.integerLib
    ContainerRuntime.exampleAttestation 1 = .ok true :=
  ContainerRuntime.verify_signed _ _ rfl (by decide) (by decide) (by decide) rfl rfl rfl

/-- **Scheduled work that does not run.** The workload of the tests is scheduled, and the runtime
does not execute the receipt. -/
theorem scheduled_not_executed : ∃ r t,
    schedule Ledger.integerLib none (exampleWorkload (.arr [.str "hash", .str "demo"])) none 0
      ⟨[exampleNode], []⟩ = .ok r t ∧
    ∀ result nonces, ContainerRuntime.exampleRuntime.execute Ledger.integerLib exampleText r
      ContainerRuntime.exampleAttestation 1 none [] ≠ .ok result nonces := by
  refine ⟨_, _, schedule_exampleWorkload, fun result nonces h => ?_⟩
  rw [execute_eq_error verify_exampleAttestation List.not_mem_nil (check_receipt rfl (by decide))] at h
  cases h

/-- The receipt for the workload of the tests is refused. -/
theorem scheduled_not_runnable_hash : ∃ r t,
    schedule Ledger.integerLib none (exampleWorkload (.arr [.str "hash", .str "demo"])) none 0
      ⟨[exampleNode], []⟩ = .ok r t ∧
    ContainerRuntime.exampleRuntime.execute Ledger.integerLib exampleText r
        ContainerRuntime.exampleAttestation 1 none [] =
      .error (.protocol "runtime requires an immutable sha256 image reference") [] :=
  ⟨_, _, schedule_exampleWorkload, scheduled_not_runnable _ _ _ _ _ _ _ _ schedule_exampleWorkload
    exampleText _ _ 1 none [] verify_exampleAttestation List.not_mem_nil⟩

end Example

end DistOps

end SplitChain
