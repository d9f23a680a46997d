import SplitChain.Library.Proc
import SplitChain.Model.Genesis
import SplitChain.Model.Identity
import SplitChain.Model.Runs
import SplitChain.Python.Values

set_option relaxedAutoImplicit false
set_option autoImplicit false

/-!
# The container runtime

The runtime adapter `splitchain.runtime` checks a receipt of the scheduler and an attestation of the
runtime, builds the arguments of a container command from the receipt and runs it. What it enforces
is read from one section of the receipt, what the completion proof covers is another section.

## Main definitions

* `SplitChain.RuntimeAuthority.verify`, `SplitChain.TrustedEgressGateway.authorize`.
* `SplitChain.ContainerCommandBuilder.build`, `SplitChain.ContainerRuntime.execute`.
* `SplitChain.Docker.readRun` — how the arguments of a container command are read.

## Main results

* `SplitChain.ContainerCommandBuilder.build_eq_ok` — what an accepted receipt has passed.
* `SplitChain.ContainerCommandBuilder.image_not_option_iff` — when the image is read as the image.
* `SplitChain.ContainerRuntime.enforced_iff` — when what is enforced is what the proof covers.
-/

namespace SplitChain

open Raise Proc

open PyNumber (ofInt)

variable {ν : Type} [PyNumber ν]

/-! ## Attestations -/

/-- An attestation of a runtime. -/
structure RuntimeAttestation where
  issuer : String
  engine : String
  version : String
  nonce : String
  rootless : Bool
  seccomp : Bool
  noNewPrivileges : Bool
  validFrom : ℤ
  validUntil : ℤ
  signature : String
deriving DecidableEq

/-- The part of an attestation that is signed. -/
def RuntimeAttestation.unsigned (a : RuntimeAttestation) : Json ν :=
  .obj [("issuer", .str a.issuer), ("engine", .str a.engine), ("version", .str a.version),
    ("nonce", .str a.nonce), ("rootless", .bool a.rootless), ("seccomp", .bool a.seccomp),
    ("no_new_privileges", .bool a.noNewPrivileges), ("valid_from", .num (ofInt a.validFrom)),
    ("valid_until", .num (ofInt a.validUntil))]

/-- An authority that attests runtimes. -/
structure RuntimeAuthority where
  issuer : String
  secret : String

namespace RuntimeAuthority

/-- The signature of the authority under an attestation. -/
def sign (py : PyLib ν) (authority : RuntimeAuthority) (a : RuntimeAttestation) : String :=
  hmacDigest py (encodeUtf8 authority.secret.toList) a.unsigned

/-- Whether an attestation is valid in a round. -/
def verify (py : PyLib ν) (authority : RuntimeAuthority) (a : RuntimeAttestation)
    (currentRound : ℤ) : Except PyError Bool :=
  if a.issuer = authority.issuer ∧ a.validFrom ≤ currentRound ∧ currentRound < a.validUntil ∧
      a.engine ∈ ["docker", "containerd"] ∧ a.rootless ∧ a.seccomp ∧ a.noNewPrivileges then
    compareDigest (authority.sign py a) a.signature
  else .ok false

end RuntimeAuthority

/-! ## Egress gateways -/

/-- The functions of the standard library that depend on the Unicode tables. -/
structure TextLib where
  /-- `text.lower()` -/
  lower : String → String
  /-- `text.isdigit()` -/
  isdigit : String → Bool

/-- A gateway to the outside. -/
structure TrustedEgressGateway where
  gatewayId : String
  networkName : String
  reputation : ℤ
  trusted : Bool
deriving DecidableEq

namespace TrustedEgressGateway

/-- `CONSENSUS_NAMES` -/
def consensusNames : List String := ["consensus", "validator", "finality", "overlord", "splitd"]

/-- `text.rpartition(":")`, unless there is no colon. -/
def rpartition (text : String) : Option (String × String) :=
  let port := (text.toList.reverse.takeWhile (· ≠ ':')).reverse
  match text.toList.reverse.dropWhile (· ≠ ':') with
  | [] => none
  | _ :: host => some (String.ofList host.reverse, String.ofList port)

/-- Check a destination. -/
def checkDestination (text : TextLib) (destination : Json ν) : Except PyError Unit := do
  let destination ← orRaise destination.str? .attribute
  let (host, port) ← orRaise (rpartition destination) (.protocol "invalid egress destination")
  require (host != "" && text.isdigit port) (.protocol "invalid egress destination")
  require (!consensusNames.any fun name => decide (name.toList <:+: (text.lower host).toList))
    (.protocol "sandbox workloads cannot access consensus endpoints")

/-- Authorize destinations. -/
def authorize (text : TextLib) (gateway : TrustedEgressGateway) (destinations : List (Json ν)) :
    Except PyError Unit := do
  require (gateway.trusted && decide (80 ≤ gateway.reputation))
    (.protocol "egress gateway is not trusted and high-reputation")
  require (!destinations.isEmpty) (.protocol "egress allowlist is empty")
  destinations.forM (checkDestination text)

end TrustedEgressGateway

/-! ## The arguments of a command -/

namespace ContainerCommandBuilder

/-- Whether a character may stand in the name of an image. -/
def isNameChar (c : Char) : Bool :=
  ('a' ≤ c ∧ c ≤ 'z') ∨ ('0' ≤ c ∧ c ≤ '9') ∨ c ∈ ['.', '_', '/', '-']

/-- Whether a character is a lower-case hexadecimal digit. -/
def isHexDigit (c : Char) : Bool := ('0' ≤ c ∧ c ≤ '9') ∨ ('a' ≤ c ∧ c ≤ 'f')

/-- `DIGEST_IMAGE`: a name followed by `@sha256:` and 64 hexadecimal digits. -/
def digestImage (image : String) : Bool :=
  let name := image.toList.takeWhile isNameChar
  let rest := image.toList.dropWhile isNameChar
  let digest := rest.drop "@sha256:".length
  !name.isEmpty && rest.take "@sha256:".length == "@sha256:".toList && digest.length == 64 &&
    digest.all isHexDigit

/-- The arguments of a command vector: strings that are not empty. -/
def commandParts? (command : Json ν) : Option (List String) := do
  let parts ← (← command.arr?).mapM Json.str?
  if parts.all (· != "") then some parts else none

/-- What the sandbox section of a receipt has to say. -/
def required : List (String × Json ν) :=
  [("rootless", .bool true), ("filesystem", .str "read-only"), ("privileges", .str "none"),
    ("no_new_privileges", .bool true), ("capabilities", .str "drop-all"),
    ("seccomp", .str "required"), ("host_pid_namespace", .bool false)]

/-- `int(value)` -/
def asInt (py : PyLib ν) (v : Json ν) : Except PyError ℤ :=
  orRaise (v.toInt? py) (if v.str?.isSome then .value "" else .type)

/-- `value.get(key, absent)` -/
def getD (v : Json ν) (key : String) (absent : Json ν) : Except PyError (Json ν) := do
  let fields ← orRaise v.dict? .attribute
  return fields.getD key absent

/-- The network that the sandbox section of a receipt asks for, and the destinations that the
gateway has authorized for it. -/
def networkName (text : TextLib) (sandbox : Json ν) (gateway : Option TrustedEgressGateway) :
    Except PyError (String × Option (List (Json ν))) := do
  let network ← getD sandbox "network" (.obj [])
  let mode ← getD network "mode" .null
  if mode.eqv (.str "deny") then return ("none", none)
  else match mode.eqv (.str "allowlist"), gateway with
    | true, some gateway => do
      let destinations ← (← getD network "destinations" (.arr [])).iter
      gateway.authorize text destinations
      return (gateway.networkName, some destinations)
    | _, _ => .error (.protocol "allowlist networking requires a trusted egress gateway")

/-- The options of every command. -/
def fixedOptions (network cpu memory : String) : List String :=
  ["--rm", "--read-only", "--network", network, "--pids-limit", "256", "--cpus", cpu, "--memory",
    memory, "--cap-drop", "ALL", "--security-opt", "no-new-privileges", "--security-opt",
    "seccomp=default"]

/-- What the arguments of a command are made of, and the destinations that the gateway has
authorized for it. -/
structure Parts (ν : Type) where
  network : String
  authorized : Option (List (Json ν))
  cpu : ℤ
  memoryMb : ℤ
  image : String
  command : List String

/-- The arguments of a command. -/
def Parts.argv (p : Parts ν) : List String :=
  "docker" :: "run" :: (fixedOptions p.network (toString p.cpu) (toString p.memoryMb ++ "m") ++
    p.image :: p.command)

/-- Check a receipt: what the arguments are made of. -/
def check (py : PyLib ν) (text : TextLib) (receipt : Dict String (Json ν))
    (gateway : Option TrustedEgressGateway) : Except PyError (Parts ν) := do
  let sandbox := receipt.getD "sandbox" (.obj [])
  let workload := receipt.getD "workload" (.obj [])
  let image ← getD workload "image" (.str "")
  let command ← getD workload "command" (.arr [])
  let image ← orRaise image.str? .type
  require (digestImage image)
    (.protocol "runtime requires an immutable sha256 image reference")
  let command ← orRaise (commandParts? command)
    (.protocol "runtime command must be a non-empty argument vector")
  let fields ← orRaise sandbox.dict? .attribute
  require (required.all fun p => (fields.getD p.1 .null).eqv p.2)
    (.protocol "receipt does not satisfy the runtime isolation contract")
  let (network, authorized) ← networkName text sandbox gateway
  let quotas ← getD sandbox "quotas" (.obj [])
  let cpu ← asInt py (← getD quotas "cpu" (.num (ofInt 0)))
  let memoryMb ← asInt py (← getD quotas "memory_mb" (.num (ofInt 0)))
  require (decide (1 ≤ cpu) && decide (64 ≤ memoryMb))
    (.protocol "runtime receipt has invalid quotas")
  let names ← getD (← getD sandbox "secrets" (.obj [])) "names" .null
  require (!names.truthy)
    (.protocol "secret delivery requires an external ephemeral-secret provider")
  return ⟨network, authorized, cpu, memoryMb, image, command⟩

/-- Build the arguments of a command from a receipt. -/
def build (py : PyLib ν) (text : TextLib) (receipt : Dict String (Json ν))
    (gateway : Option TrustedEgressGateway) : Except PyError (List String) :=
  Parts.argv <$> check py text receipt gateway

end ContainerCommandBuilder

/-! ## Execution -/

/-- The domain of completion proofs. -/
def HashDomain.distopsCompletion : HashDomain :=
  ⟨"splitchain/distops-completion/v1", by decide, by decide⟩

/-- The domain of runtime proofs. -/
def HashDomain.distopsRuntimeResult : HashDomain :=
  ⟨"splitchain/distops-runtime-result/v1", by decide, by decide⟩

/-- What a completion proof covers: the node and the workload section of a receipt. -/
def completionInput (receipt : Dict String (Json ν)) : Except PyError (Json ν) := do
  let node ← orRaise (receipt.get? "node") .key
  let nodeId ← node.field "node_id"
  let workload ← orRaise (receipt.get? "workload") .key
  return .obj [("node_id", nodeId), ("workload", workload)]

/-- What came of running a command. -/
structure ExecutionResult where
  command : List String
  exitCode : ℤ
  stdoutDigest : String
  stderrDigest : String
  runtimeProof : String
deriving DecidableEq

/-- A runtime with the program that runs commands, if it has one. -/
structure ContainerRuntime where
  authority : RuntimeAuthority
  runner : Option (List String → Except PyError (ℤ × List UInt8 × List UInt8))
  enableExecution : Bool

namespace ContainerRuntime

variable (py : PyLib ν) (text : TextLib) (runtime : ContainerRuntime)

/-- The result of running a command. -/
def result (attestation : RuntimeAttestation) (command : List String) (completionProof : String)
    (exitCode : ℤ) (stdout stderr : List UInt8) : ExecutionResult where
  command := command
  exitCode := exitCode
  stdoutDigest := py.sha256 stdout
  stderrDigest := py.sha256 stderr
  runtimeProof := protocolDigest py .distopsRuntimeResult (.obj [
    ("attestation", attestation.unsigned), ("command", .arr (command.map .str)),
    ("completion_proof", .str completionProof), ("exit_code", .num (ofInt exitCode)),
    ("stderr_digest", .str (py.sha256 stderr)), ("stdout_digest", .str (py.sha256 stdout))])

/-- Execute the workload of a receipt. The state are the nonces of the attestations so far. -/
def execute (receipt : Dict String (Json ν)) (attestation : RuntimeAttestation) (currentRound : ℤ)
    (gateway : Option TrustedEgressGateway) : EStateM PyError (List String) ExecutionResult := do
  let valid ← lift (runtime.authority.verify py attestation currentRound)
  lift (require valid (.protocol "runtime attestation is invalid"))
  lift (require (!(← get).contains attestation.nonce)
    (.protocol "runtime attestation nonce was already used"))
  let command ← lift (ContainerCommandBuilder.build py text receipt gateway)
  let covered ← lift (completionInput receipt)
  let expected := protocolDigest py .distopsCompletion covered
  lift (require ((receipt.getD "completion_proof" .null).eqv (.str expected))
    (.protocol "DistOPS completion proof does not match the receipt"))
  match runtime.enableExecution, runtime.runner with
  | true, some runner => do
    modify (attestation.nonce :: ·)
    let (exitCode, stdout, stderr) ← lift (runner command)
    return result py attestation command expected exitCode stdout stderr
  | _, _ => throw (.protocol "container execution is disabled")

end ContainerRuntime

/-! ## What a receipt has passed -/

namespace ContainerCommandBuilder

/-- The image that a receipt names. -/
def image? (receipt : Dict String (Json ν)) : Option String := do
  let workload ← (← receipt.get? "workload").dict?
  (← workload.get? "image").str?

/-- The command that a receipt names. -/
def command? (receipt : Dict String (Json ν)) : Option (List String) := do
  let workload ← (← receipt.get? "workload").dict?
  commandParts? (workload.getD "command" (.arr []))

omit [PyNumber ν] in
/-- A member that is read is there, or the default is returned. -/
lemma getD_eq_ok {v w absent : Json ν} {key : String} :
    getD v key absent = .ok w ↔ ∃ d, v.dict? = some d ∧ d.getD key absent = w := by
  simp only [getD, bind_eq_ok, orRaise_eq_ok, pure_eq_ok]

omit [PyNumber ν] in
/-- What is read of a dictionary that may be absent is read of a dictionary that is there, unless it
is the default. -/
lemma get?_of_getD {receipt : Dict String (Json ν)} {name key : String} {absent w : Json ν}
    (h : getD (receipt.getD name (.obj [])) key absent = .ok w) (hne : w ≠ absent) :
    ∃ v d, receipt.get? name = some v ∧ v.dict? = some d ∧ d.get? key = some w := by
  obtain ⟨d, hd, hw⟩ := getD_eq_ok.mp h
  have hget : d.get? key = some w := by
    unfold Dict.getD at hw
    cases hk : d.get? key with
    | none => exact (hne (by rw [← hw, hk]; rfl)).elim
    | some u => rw [← hw, hk]; rfl
  unfold Dict.getD at hd
  cases hname : receipt.get? name with
  | none =>
    rw [hname] at hd
    obtain rfl : Dict.ofList [] = d := Option.some.inj hd
    cases hget
  | some v =>
    rw [hname] at hd
    exact ⟨v, d, rfl, hd, hget⟩

variable {py : PyLib ν} {text : TextLib} {receipt : Dict String (Json ν)}
  {gateway : Option TrustedEgressGateway} {p : Parts ν}

/-- What a checked receipt has passed. -/
structure Passes (py : PyLib ν) (text : TextLib) (receipt : Dict String (Json ν))
    (gateway : Option TrustedEgressGateway) (p : Parts ν) : Prop where
  image : image? receipt = some p.image
  pinned : digestImage p.image = true
  command : command? receipt = some p.command
  network : networkName text (receipt.getD "sandbox" (.obj [])) gateway =
    .ok (p.network, p.authorized)
  quotas : ∃ quotas cpu memoryMb, getD (receipt.getD "sandbox" (.obj [])) "quotas" (.obj []) =
      .ok quotas ∧ getD quotas "cpu" (.num (ofInt 0)) = .ok cpu ∧ asInt py cpu = .ok p.cpu ∧
      getD quotas "memory_mb" (.num (ofInt 0)) = .ok memoryMb ∧ asInt py memoryMb = .ok p.memoryMb

/-- The image that is pinned is not empty. -/
lemma digestImage_empty : digestImage "" = false := by decide

/-- **What an accepted receipt has passed.** -/
theorem check_eq_ok (h : check py text receipt gateway = .ok p) :
    Passes py text receipt gateway p := by
  simp only [check, bind_eq_ok, orRaise_eq_ok, require_eq_ok, exists_const, pure_eq_ok] at h
  obtain ⟨imageValue, himage, commandValue, hcommand, image, hstr, hpinned, command, hparts, fields,
    hfields, hrequired, ⟨network, authorized⟩, hnetwork, quotas, hquotas, cpuValue, hcpuValue, cpu,
    hcpu, memoryValue, hmemoryValue, memoryMb, hmemory, hbounds, secrets, hsecrets, names, hnames,
    hempty, rfl⟩ := h
  obtain rfl : imageValue = .str image := Json.str?_eq_some.mp hstr
  have hne : Json.str image ≠ (.str "" : Json ν) := fun heq => by
    rw [Json.str.inj heq, digestImage_empty] at hpinned
    cases hpinned
  obtain ⟨v, d, hv, hd, hget⟩ := get?_of_getD himage hne
  refine ⟨?_, hpinned, ?_, hnetwork, quotas, cpuValue, memoryValue, hquotas, hcpuValue, hcpu,
    hmemoryValue, hmemory⟩
  · simp only [image?, hv, hd, hget, Option.bind_eq_bind, Option.bind_some]
    rfl
  · obtain ⟨d', hd', hvalue⟩ := getD_eq_ok.mp hcommand
    rw [Dict.getD, hv, Option.getD_some, hd, Option.some.injEq] at hd'
    subst hd'
    simp only [command?, hv, hd, Option.bind_eq_bind, Option.bind_some, hvalue]
    exact hparts

/-- A command that is built is made of what a check of the receipt returns. -/
lemma build_eq_ok {argv : List String} :
    build py text receipt gateway = .ok argv ↔
      ∃ p, check py text receipt gateway = .ok p ∧ p.argv = argv := by
  simp only [build, map_eq_ok]

end ContainerCommandBuilder

/-! ## How the arguments are read -/

namespace Docker

/-- The options that take the next argument as their value. -/
def valueOptions : List String :=
  ["--network", "--pids-limit", "--cpus", "--memory", "--cap-drop", "--security-opt"]

/-- Whether an argument is an option. -/
def isOption (argument : String) : Bool := argument.toList.head? == some '-'

/-- What arguments are read as. -/
structure Reading where
  options : List (String × Option String)
  image : String
  command : List String
deriving DecidableEq

/-- A reading with one more option in front. -/
def Reading.add (option : String × Option String) (r : Reading) : Reading :=
  { r with options := option :: r.options }

/-- Read the arguments after `docker run`: options with their values, then the image, which is the
first argument that is none, then the command. -/
def readOptions : List String → Option Reading
  | [] => none
  | argument :: rest =>
    if isOption argument then
      if argument ∈ valueOptions then
        match rest with
        | [] => none
        | value :: rest => (readOptions rest).map (Reading.add (argument, some value))
      else (readOptions rest).map (Reading.add (argument, none))
    else some ⟨[], argument, rest⟩

/-- Read the arguments of a command. -/
def readRun : List String → Option Reading
  | "docker" :: "run" :: rest => readOptions rest
  | _ => none

end Docker

namespace ContainerCommandBuilder

/-- The options of every command with their values. -/
def fixedReading (network cpu memory : String) : List (String × Option String) :=
  [("--rm", none), ("--read-only", none), ("--network", some network), ("--pids-limit", some "256"),
    ("--cpus", some cpu), ("--memory", some memory), ("--cap-drop", some "ALL"),
    ("--security-opt", some "no-new-privileges"), ("--security-opt", some "seccomp=default")]

section Reading

open Docker

/-- A flag is read as an option. -/
lemma readOptions_flag {argument : String} {rest : List String} (hoption : isOption argument = true)
    (hflag : argument ∉ valueOptions) :
    readOptions (argument :: rest) = (readOptions rest).map (Reading.add (argument, none)) := by
  rw [readOptions.eq_def]
  simp only [if_pos hoption, if_neg hflag]

/-- An option that takes a value is read with it. -/
lemma readOptions_value {argument value : String} {rest : List String}
    (hoption : isOption argument = true) (hvalue : argument ∈ valueOptions) :
    readOptions (argument :: value :: rest) =
      (readOptions rest).map (Reading.add (argument, some value)) := by
  rw [readOptions.eq_def]
  simp only [if_pos hoption, if_pos hvalue]

/-- What is no option is the image. -/
lemma readOptions_image {argument : String} {rest : List String} (h : isOption argument = false) :
    readOptions (argument :: rest) = some ⟨[], argument, rest⟩ := by
  rw [readOptions.eq_def]
  simp only [h, Bool.false_eq_true, if_false]

/-- What is read from an option has an option. -/
lemma options_ne_nil {argument : String} {rest : List String} (h : isOption argument = true)
    {r : Docker.Reading} (hr : readOptions (argument :: rest) = some r) : r.options ≠ [] := by
  rw [readOptions.eq_def] at hr
  simp only [if_pos h] at hr
  split_ifs at hr
  · cases rest with
    | nil => cases hr
    | cons value rest =>
      obtain ⟨r', -, rfl⟩ := Option.map_eq_some_iff.mp hr
      exact List.cons_ne_nil _ _
  · obtain ⟨r', -, rfl⟩ := Option.map_eq_some_iff.mp hr
    exact List.cons_ne_nil _ _

omit [PyNumber ν] in
/-- The options of the builder are read as such, and the rest after them. -/
lemma readRun_argv (p : Parts ν) : readRun p.argv =
    (readOptions (p.image :: p.command)).map fun r =>
      { r with options := fixedReading p.network (toString p.cpu) (toString p.memoryMb ++ "m") ++
        r.options } := by
  simp only [Parts.argv, fixedOptions, readRun, List.cons_append, List.nil_append]
  rw [readOptions_flag (by decide) (by decide), readOptions_flag (by decide) (by decide),
    readOptions_value (by decide) (by decide), readOptions_value (by decide) (by decide),
    readOptions_value (by decide) (by decide), readOptions_value (by decide) (by decide),
    readOptions_value (by decide) (by decide), readOptions_value (by decide) (by decide),
    readOptions_value (by decide) (by decide)]
  simp only [Option.map_map]
  rfl

end Reading

/-- **When the image is read as the image.** The arguments that are built from a receipt are read as
the options of the builder, the pinned image of the receipt and its command exactly when the image
does not begin with a dash.

**Proof sketch.** The options of the builder are read in any case. What follows is the image; if it
begins with a dash, it is read as one more option. -/
theorem image_not_option_iff (py : PyLib ν) (text : TextLib) (receipt : Dict String (Json ν))
    (gateway : Option TrustedEgressGateway) (argv : List String)
    (h : build py text receipt gateway = .ok argv) :
    (∃ network cpu memory image command, image? receipt = some image ∧ digestImage image = true ∧
        command? receipt = some command ∧
        Docker.readRun argv = some ⟨fixedReading network cpu memory, image, command⟩) ↔
      ∀ image, image? receipt = some image → image.toList.head? ≠ some '-' := by
  obtain ⟨p, hcheck, rfl⟩ := build_eq_ok.mp h
  have hpasses := check_eq_ok hcheck
  rw [readRun_argv]
  cases hoption : Docker.isOption p.image with
  | true =>
    refine iff_of_false ?_ fun hno => hno p.image hpasses.image (beq_iff_eq.mp hoption)
    rintro ⟨network, cpu, memory, image, command, -, -, -, hread⟩
    obtain ⟨r, hr, hreading⟩ := Option.map_eq_some_iff.mp hread
    have hlength := congrArg (fun r => r.options.length) hreading
    simp only [List.length_append, fixedReading, List.length_cons, List.length_nil] at hlength
    exact options_ne_nil hoption hr (List.length_eq_zero_iff.mp (by omega))
  | false =>
    refine iff_of_true ⟨p.network, toString p.cpu, toString p.memoryMb ++ "m", p.image, p.command,
      hpasses.image, hpasses.pinned, hpasses.command, ?_⟩ fun image himage => ?_
    · rw [readOptions_image hoption, Option.map_some, List.append_nil]
    · rw [hpasses.image, Option.some.injEq] at himage
      subst himage
      exact beq_eq_false_iff_ne.mp hoption

section Example

/-- A receipt for an image, with quotas in its sandbox section; the workload asks for one processor
and 128 megabytes. -/
def exampleReceipt (image : String) (cpu memoryMb : ℤ) : Dict String (Json ℤ) :=
  let workload : Json ℤ := .obj [("image", .str image),
    ("command", .arr [.str "hash", .str "demo"]), ("cpu", .num 1), ("memory_mb", .num 128),
    ("risk", .str "medium"), ("network_allowlist", .arr []), ("secret_names", .arr [])]
  Dict.ofList [("node", .obj [("node_id", .str "trusted-a")]), ("workload", workload),
    ("sandbox", .obj [("runtime", .str "container"), ("rootless", .bool true),
      ("network", .obj [("mode", .str "deny"), ("destinations", .arr [])]),
      ("filesystem", .str "read-only"), ("privileges", .str "none"),
      ("no_new_privileges", .bool true), ("capabilities", .str "drop-all"),
      ("seccomp", .str "required"), ("host_pid_namespace", .bool false),
      ("quotas", .obj [("cpu", .num cpu), ("memory_mb", .num memoryMb)]),
      ("secrets", .obj [("names", .arr []), ("delivery", .str "ephemeral"),
        ("persisted", .bool false)])]),
    ("completion_proof", .str (protocolDigest Ledger.integerLib .distopsCompletion
      (.obj [("node_id", .str "trusted-a"), ("workload", workload)])))]

/-- A pinned image with a given name. -/
def exampleImage (name : String) : String :=
  name ++ "@sha256:" ++ String.ofList (List.replicate 64 'a')

/-- The texts of the example are ASCII. -/
def exampleText : TextLib :=
  ⟨fun s => String.ofList (s.toList.map Char.toLower),
    fun s => s != "" && s.toList.all Char.isDigit⟩

lemma check_exampleReceipt :
    check Ledger.integerLib exampleText (exampleReceipt (exampleImage "splitchain/hash") 1 128) none =
      .ok ⟨"none", none, 1, 128, exampleImage "splitchain/hash", ["hash", "demo"]⟩ := by
  rfl

/-- **An image that is an option.** The image begins with a dash, so the first word of the command
is read as the image. -/
theorem image_read_as_option : ∃ argv,
    build Ledger.integerLib exampleText (exampleReceipt (exampleImage "-v/etc") 1 128) none =
        .ok argv ∧
      ¬∃ network cpu memory image command,
        image? (exampleReceipt (exampleImage "-v/etc") 1 128) = some image ∧
          digestImage image = true ∧
          command? (exampleReceipt (exampleImage "-v/etc") 1 128) = some command ∧
          Docker.readRun argv = some ⟨fixedReading network cpu memory, image, command⟩ := by
  refine ⟨_, build_eq_ok.mpr ⟨⟨"none", none, 1, 128, exampleImage "-v/etc", ["hash", "demo"]⟩, rfl,
    rfl⟩, ?_⟩
  rintro ⟨network, cpu, memory, image, command, himage, -, -, hread⟩
  have hdash : exampleImage "-v/etc" = image := Option.some.inj himage
  have hhash : Docker.readRun (Parts.argv (ν := ℤ) ⟨"none", none, 1, 128, exampleImage "-v/etc",
      ["hash", "demo"]⟩) = some ⟨fixedReading "none" "1" "128m" ++ [(exampleImage "-v/etc", none)],
        "hash", ["demo"]⟩ := by decide +kernel
  rw [hhash, Option.some.injEq, Docker.Reading.mk.injEq] at hread
  exact absurd (hdash.trans hread.2.1.symm) (by decide +kernel)

/-- The image of the tests is read as the image. -/
theorem image_not_option_iff_hash : ∃ network cpu memory image command,
    image? (exampleReceipt (exampleImage "splitchain/hash") 1 128) = some image ∧
      digestImage image = true ∧
      command? (exampleReceipt (exampleImage "splitchain/hash") 1 128) = some command ∧
      Docker.readRun (Parts.argv (ν := ℤ) ⟨"none", none, 1, 128, exampleImage "splitchain/hash",
        ["hash", "demo"]⟩) = some ⟨fixedReading network cpu memory, image, command⟩ := by
  refine (image_not_option_iff Ledger.integerLib exampleText _ none _
    (build_eq_ok.mpr ⟨_, check_exampleReceipt, rfl⟩)).mpr fun image himage => ?_
  obtain rfl : exampleImage "splitchain/hash" = image := Option.some.inj himage
  decide +kernel

end Example

end ContainerCommandBuilder

/-! ## What the proof covers -/

namespace ContainerRuntime

open ContainerCommandBuilder

variable {py : PyLib ν} {text : TextLib} {runtime : ContainerRuntime}
  {receipt : Dict String (Json ν)} {attestation : RuntimeAttestation} {currentRound : ℤ}
  {gateway : Option TrustedEgressGateway} {nonces nonces' : List String} {result : ExecutionResult}

/-- **Whatever is executed has been checked**, and the command is the one that was built. -/
lemma ends_execute : Ends (runtime.execute py text receipt attestation currentRound gateway) nonces
    (fun result _ => ∃ p, check py text receipt gateway = .ok p ∧ result.command = p.argv)
    fun _ _ => True := by
  simp only [execute, ends_bind, ends_lift, ends_get, implies_true, and_true]
  intro valid _ _ _ _ _ command hcommand covered _ _ _
  obtain ⟨p, hp, rfl⟩ := build_eq_ok.mp hcommand
  split
  · simp only [ends_bind, ends_modify, ends_lift, implies_true, and_true]
    exact fun _ _ => ⟨p, hp, rfl⟩
  · trivial

/-- A receipt that is executed has been checked, and the command is the one that was built. -/
lemma of_execute (h : runtime.execute py text receipt attestation currentRound gateway nonces =
    .ok result nonces') :
    ∃ p, check py text receipt gateway = .ok p ∧ result.command = p.argv :=
  (ends_of_eq_ok h).mp ends_execute

section Sections

variable (py receipt gateway)

/-- The workload section of a receipt. -/
def workload : Dict String (Json ν) := ((receipt.get? "workload").bind Json.dict?).getD ∅

/-- The sandbox section of a receipt. -/
def sandbox : Json ν := receipt.getD "sandbox" (.obj [])

/-- A quota of the sandbox section. -/
def sandboxQuota (key : String) : Except PyError ℤ := do
  let quotas ← getD (sandbox receipt) "quotas" (.obj [])
  asInt py (← getD quotas key (.num (ofInt 0)))

/-- The mode and the destinations of the network in the sandbox section. -/
def sandboxNetwork : Except PyError (Json ν × Json ν) := do
  let network ← getD (sandbox receipt) "network" (.obj [])
  return (← getD network "mode" .null, ← getD network "destinations" (.arr []))

/-- The network that the sandbox section asks for. -/
def askedNetwork (mode : Json ν) : String :=
  if mode.eqv (.str "deny") then "none" else (gateway.map (·.networkName)).getD "none"

/-- What the workload section allows to reach. -/
def allowlist : Json ν := (workload receipt).getD "network_allowlist" (.arr [])

/-- **What is enforced is what the proof covers**: the quotas are those of the workload section,
there is no network without an allowlist, one that is not `none` only after the gateway has
authorized exactly the allowlist, and there are no secrets. -/
structure Enforced (p : Parts ν) : Prop where
  cpu : ((workload receipt).getD "cpu" .null).eqv (.num (ofInt p.cpu)) = true
  memoryMb : ((workload receipt).getD "memory_mb" .null).eqv (.num (ofInt p.memoryMb)) = true
  denied : (allowlist receipt).truthy = false → p.network = "none"
  authorized : p.network ≠ "none" →
    ∃ destinations, p.authorized = some destinations ∧ (allowlist receipt).iter = .ok destinations
  secrets : ((workload receipt).getD "secret_names" (.arr [])).truthy = false

/-- The sandbox section of a receipt asks for no more than its workload section: the same quotas, no
network without an allowlist, exactly the destinations of the allowlist, and the workload section
names no secrets. -/
structure Agrees : Prop where
  cpu : ∀ n, sandboxQuota py receipt "cpu" = .ok n →
    ((workload receipt).getD "cpu" .null).eqv (.num (ofInt n)) = true
  memoryMb : ∀ n, sandboxQuota py receipt "memory_mb" = .ok n →
    ((workload receipt).getD "memory_mb" .null).eqv (.num (ofInt n)) = true
  denied : ∀ mode destinations, sandboxNetwork receipt = .ok (mode, destinations) →
    (allowlist receipt).truthy = false → askedNetwork gateway mode = "none"
  destinations : ∀ mode destinations, sandboxNetwork receipt = .ok (mode, destinations) →
    askedNetwork gateway mode ≠ "none" → (allowlist receipt).iter = destinations.iter
  secrets : ((workload receipt).getD "secret_names" (.arr [])).truthy = false

end Sections

/-- The network of a checked receipt is the one that the sandbox section asks for; one that is not
denied has been authorized by the gateway. -/
lemma of_networkName {network : String} {authorized : Option (List (Json ν))}
    (h : networkName text (sandbox receipt) gateway = .ok (network, authorized)) :
    ∃ mode destinations, sandboxNetwork receipt = .ok (mode, destinations) ∧
      network = askedNetwork gateway mode ∧ (network ≠ "none" → ∃ reached,
        destinations.iter = .ok reached ∧ authorized = some reached) := by
  rw [networkName, bind_eq_ok] at h
  obtain ⟨fields, hfields, h⟩ := h
  obtain ⟨mode, hmode, h⟩ := bind_eq_ok.mp h
  obtain ⟨d, hd, -⟩ := getD_eq_ok.mp hmode
  have hdestinations : getD fields "destinations" (.arr []) =
      .ok (d.getD "destinations" (.arr [])) := getD_eq_ok.mpr ⟨d, hd, rfl⟩
  refine ⟨mode, d.getD "destinations" (.arr []), ?_, ?_⟩
  · rw [sandboxNetwork, hfields, ok_bind, hmode, ok_bind, hdestinations, ok_bind]
    rfl
  · split_ifs at h with hdeny
    · obtain ⟨rfl, rfl⟩ := Prod.mk.inj (Except.ok.inj h)
      exact ⟨(if_pos hdeny).symm, fun hnone => (hnone rfl).elim⟩
    · cases hallow : mode.eqv (.str "allowlist") with
      | false =>
        rw [hallow] at h
        cases h
      | true =>
        rw [hallow] at h
        cases gateway with
        | none => cases h
        | some gateway =>
          simp only [bind_eq_ok, pure_eq_ok, hdestinations, Except.ok.injEq,
            exists_eq_left', Prod.mk.injEq] at h
          obtain ⟨reached, hreached, _, -, rfl, rfl⟩ := h
          exact ⟨(if_neg hdeny).symm, fun _ => ⟨reached, hreached, rfl⟩⟩

/-- **When the proof binds what is enforced.** For every receipt that is executed, what the command
enforces is what the completion proof covers exactly when the sandbox section of the receipt agrees
with its workload section.

**Proof sketch.** The command is built from the sandbox section. -/
theorem enforced_iff (py : PyLib ν) (text : TextLib) (runtime : ContainerRuntime)
    (receipt : Dict String (Json ν)) (attestation : RuntimeAttestation) (currentRound : ℤ)
    (gateway : Option TrustedEgressGateway) (nonces nonces' : List String)
    (result : ExecutionResult)
    (h : runtime.execute py text receipt attestation currentRound gateway nonces =
      .ok result nonces') :
    (∃ p, check py text receipt gateway = .ok p ∧ result.command = p.argv ∧ Enforced receipt p) ↔
      Agrees py receipt gateway := by
  obtain ⟨p, hp, hcommand⟩ := of_execute h
  have hpasses := check_eq_ok hp
  obtain ⟨quotas, cpu, memoryMb, hquotas, hcpu, hpcpu, hmemory, hpmemory⟩ := hpasses.quotas
  have hsandbox : receipt.getD "sandbox" (.obj []) = sandbox receipt := rfl
  have hcpuQuota : sandboxQuota py receipt "cpu" = .ok p.cpu := by
    rw [sandboxQuota, ← hsandbox, hquotas, ok_bind, hcpu, ok_bind, hpcpu]
  have hmemoryQuota : sandboxQuota py receipt "memory_mb" = .ok p.memoryMb := by
    rw [sandboxQuota, ← hsandbox, hquotas, ok_bind, hmemory, ok_bind, hpmemory]
  obtain ⟨mode, destinations, hnetwork, hname, hauthorized⟩ := of_networkName hpasses.network
  constructor
  · rintro ⟨q, hq, -, henforced⟩
    obtain rfl : p = q := Except.ok.inj (hp.symm.trans hq)
    refine ⟨fun n hn => ?_, fun n hn => ?_, fun m d hm hempty => ?_, fun m d hm hasked => ?_,
      henforced.secrets⟩
    · exact Except.ok.inj (hcpuQuota.symm.trans hn) ▸ henforced.cpu
    · exact Except.ok.inj (hmemoryQuota.symm.trans hn) ▸ henforced.memoryMb
    · obtain ⟨rfl, rfl⟩ := Prod.mk.inj (Except.ok.inj (hnetwork.symm.trans hm))
      exact hname ▸ henforced.denied hempty
    · obtain ⟨rfl, rfl⟩ := Prod.mk.inj (Except.ok.inj (hnetwork.symm.trans hm))
      rw [← hname] at hasked
      obtain ⟨reached, hreached, hauth⟩ := hauthorized hasked
      obtain ⟨allowed, hallowed, hallowlist⟩ := henforced.authorized hasked
      rw [hallowlist, hreached, Option.some.inj (hallowed.symm.trans hauth)]
  · intro hagrees
    refine ⟨p, hp, hcommand, hagrees.cpu _ hcpuQuota, hagrees.memoryMb _ hmemoryQuota,
      fun hempty => ?_, fun hasked => ?_, hagrees.secrets⟩
    · rw [hname]
      exact hagrees.denied mode destinations hnetwork hempty
    · obtain ⟨reached, hreached, hauth⟩ := hauthorized hasked
      refine ⟨reached, hauth, ?_⟩
      rw [hagrees.destinations mode destinations hnetwork (hname ▸ hasked), hreached]

section Example

/-- The attestation authority of the example. -/
def exampleAuthority : RuntimeAuthority := ⟨"runtime-ca", "attestation-secret"⟩

/-- An attestation for ten rounds, without a signature. -/
def exampleUnsigned : RuntimeAttestation :=
  ⟨exampleAuthority.issuer, "docker", "27.1", "nonce-1", true, true, true, 0, 10, ""⟩

/-- The attestation of the example. -/
def exampleAttestation : RuntimeAttestation :=
  { exampleUnsigned with signature := exampleAuthority.sign Ledger.integerLib exampleUnsigned }

/-- A runtime whose commands do nothing. -/
def exampleRuntime : ContainerRuntime := ⟨exampleAuthority, some fun _ => .ok (0, [], []), true⟩

/-- An attestation that its authority has signed is valid in its rounds. -/
lemma verify_signed (authority : RuntimeAuthority) (a : RuntimeAttestation) {round : ℤ}
    (hissuer : a.issuer = authority.issuer) (hfrom : a.validFrom ≤ round)
    (huntil : round < a.validUntil) (hengine : a.engine ∈ ["docker", "containerd"])
    (hrootless : a.rootless = true) (hseccomp : a.seccomp = true)
    (hprivileges : a.noNewPrivileges = true) :
    authority.verify py { a with signature := authority.sign py a } round = .ok true :=
  (if_pos ⟨hissuer, hfrom, huntil, hengine, hrootless, hseccomp, hprivileges⟩).trans
    (compareDigest_self ..)

/-- A receipt that passes its checks is executed. -/
lemma exists_execute {runner : List String → Except PyError (ℤ × List UInt8 × List UInt8)}
    {out : ℤ × List UInt8 × List UInt8} {p : Parts ν} {covered : Json ν}
    (hvalid : runtime.authority.verify py attestation currentRound = .ok true)
    (hcheck : check py text receipt gateway = .ok p)
    (hcovered : completionInput receipt = .ok covered)
    (hproof : receipt.getD "completion_proof" .null =
      .str (protocolDigest py .distopsCompletion covered))
    (henabled : runtime.enableExecution = true) (hrunner : runtime.runner = some runner)
    (hrun : ∀ argv, runner argv = .ok out) :
    ∃ result, runtime.execute py text receipt attestation currentRound gateway [] =
      .ok result [attestation.nonce] := by
  refine ⟨ContainerRuntime.result py attestation p.argv (protocolDigest py .distopsCompletion covered)
    out.1 out.2.1 out.2.2, eq_ok_iff.mpr ?_⟩
  have hbuild : build py text receipt gateway = .ok p.argv := build_eq_ok.mpr ⟨p, hcheck, rfl⟩
  have hmatches : (receipt.getD "completion_proof" .null).eqv
      (.str (protocolDigest py .distopsCompletion covered)) = true := Json.eqv_str_right.mpr hproof
  simp only [execute, ends_bind, ends_get, ends_lift, hvalid, hbuild, hcovered, henabled, hrunner,
    hrun]
  simp [require, hmatches]

/-- The receipts of the example are executed. -/
lemma exists_execute_exampleReceipt {cpu memoryMb : ℤ} {p : Parts ℤ}
    (hcheck : check Ledger.integerLib exampleText
      (exampleReceipt (exampleImage "splitchain/hash") cpu memoryMb) none = .ok p) :
    ∃ result nonces, exampleRuntime.execute Ledger.integerLib exampleText
      (exampleReceipt (exampleImage "splitchain/hash") cpu memoryMb) exampleAttestation 1 none [] =
        .ok result nonces := by
  have hvalid : exampleRuntime.authority.verify Ledger.integerLib exampleAttestation 1 = .ok true :=
    verify_signed exampleAuthority exampleUnsigned rfl (by decide) (by decide) (by decide) rfl rfl rfl
  obtain ⟨result, h⟩ : ∃ result, exampleRuntime.execute Ledger.integerLib exampleText
      (exampleReceipt (exampleImage "splitchain/hash") cpu memoryMb) exampleAttestation 1 none [] =
        .ok result [exampleAttestation.nonce] :=
    exists_execute hvalid hcheck rfl rfl rfl rfl fun _ => rfl
  exact ⟨result, _, h⟩

/-- **A proof that does not bind.** The workload asks for one processor and 128 megabytes; the
sandbox section of the receipt is changed to 64 processors and 65536 megabytes, and these are what
the command gets. -/
theorem widened_quotas_executed : ∃ result nonces, exampleRuntime.execute Ledger.integerLib exampleText
    (exampleReceipt (exampleImage "splitchain/hash") 64 65536) exampleAttestation 1 none [] =
      .ok result nonces ∧
    result.command = Parts.argv (ν := ℤ) ⟨"none", none, 64, 65536, exampleImage "splitchain/hash",
      ["hash", "demo"]⟩ ∧
    ¬∃ p, check Ledger.integerLib exampleText
        (exampleReceipt (exampleImage "splitchain/hash") 64 65536) none = .ok p ∧
      result.command = p.argv ∧
      Enforced (exampleReceipt (exampleImage "splitchain/hash") 64 65536) p := by
  have hcheck : check Ledger.integerLib exampleText
      (exampleReceipt (exampleImage "splitchain/hash") 64 65536) none =
      .ok ⟨"none", none, 64, 65536, exampleImage "splitchain/hash", ["hash", "demo"]⟩ := rfl
  obtain ⟨result, nonces, h⟩ := exists_execute_exampleReceipt hcheck
  obtain ⟨p, hp, hcommand⟩ := of_execute h
  obtain rfl := Except.ok.inj (hcheck.symm.trans hp)
  refine ⟨result, nonces, h, hcommand, ?_⟩
  rintro ⟨q, hq, -, henforced⟩
  obtain rfl := Except.ok.inj (hcheck.symm.trans hq)
  have hcpu : Json.eqv (.num 1 : Json ℤ) (.num 64) = true := henforced.cpu
  exact absurd hcpu (by decide +kernel)

/-- The receipt of the tests is executed with the quotas of its workload section. -/
theorem enforced_iff_hash : ∃ result nonces p, exampleRuntime.execute Ledger.integerLib exampleText
    (exampleReceipt (exampleImage "splitchain/hash") 1 128) exampleAttestation 1 none [] =
      .ok result nonces ∧ result.command = Parts.argv p ∧
    Enforced (exampleReceipt (exampleImage "splitchain/hash") 1 128) p := by
  obtain ⟨result, nonces, h⟩ := exists_execute_exampleReceipt check_exampleReceipt
  have hagrees : Agrees Ledger.integerLib
      (exampleReceipt (exampleImage "splitchain/hash") 1 128) none := by
    refine ⟨fun n hn => ?_, fun n hn => ?_, fun mode destinations hnetwork _ => ?_,
      fun mode destinations hnetwork hasked => ?_, rfl⟩
    · obtain rfl : 1 = n := Except.ok.inj hn
      decide +kernel
    · obtain rfl : 128 = n := Except.ok.inj hn
      decide +kernel
    · obtain rfl : Json.str "deny" = mode := congrArg Prod.fst (Except.ok.inj hnetwork)
      decide +kernel
    · obtain rfl : Json.str "deny" = mode := congrArg Prod.fst (Except.ok.inj hnetwork)
      exact (hasked (by decide +kernel)).elim
  obtain ⟨p, -, hcommand, henforced⟩ :=
    (enforced_iff Ledger.integerLib exampleText exampleRuntime _ _ 1
    none [] nonces result h).mpr hagrees
  exact ⟨result, nonces, p, h, hcommand, henforced⟩

end Example

end ContainerRuntime

end SplitChain
