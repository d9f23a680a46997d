import SplitChain.Library.Routine
import SplitChain.Python.Values

set_option relaxedAutoImplicit false
set_option autoImplicit false

/-!
# The files around the account registry

The account registry is one file that maps every enrolled account to its credential. The programs
that write it read it, check what they have read and put a whole new file in its place; each of
these is a single call here, and other programs may go on between two of them. Files are told apart
by the order in which they were made, their inode numbers being reused by the system.

## Main definitions

* `SplitChain.Site` — the registry, the files around it, and what the nodes have answered.
* `SplitChain.FileCall`, `SplitChain.FileCall.exec` — one access to them.
* `SplitChain.FileRoutine` — a program that makes such accesses.

## Main results

* `SplitChain.Site.stored_replaceRegistry` — a new registry is what its next reader finds.
-/

namespace SplitChain

open Raise

variable {ν : Type}

/-! ## The files -/

/-- A file under the name of the registry, or meant for it. A file that is not yet written as a
whole has no content. -/
structure RegistryFile where
  isPrivate : Bool
  content : Option (Dict String String)
deriving DecidableEq

/-- What `stat` says about a file. -/
structure FileStat where
  inode : ℕ
  isPrivate : Bool
deriving DecidableEq

/-- How far an enrollment has come. -/
inductive EnrollmentStatus where
  | pending | approved | active
deriving DecidableEq, Repr

/-- An enrollment in the queue. -/
structure Enrollment where
  schema : String
  networkId : String
  account : String
  credential : String
  receipt : String
  status : EnrollmentStatus
deriving DecidableEq

/-- Where a request file is: `{actor}.wallet.json` in the queue, or given to the operator. -/
inductive RequestPath where
  | queued (actor : String)
  | given (name : String)
deriving DecidableEq

namespace RequestPath

/-- Whether a request file is in the queue. -/
def isQueued : RequestPath → Bool
  | queued _ => true
  | given _ => false

end RequestPath

/-- A request file. -/
structure RequestFile (ν : Type) where
  isPrivate : Bool
  content : Json ν

/-- What came of a message to a node: a document, a text that is none, or no answer. -/
inductive NodeReply (ν : Type) where
  | answer (document : Json ν)
  | unreadable
  | lost

/-- A message to a node and what came of it. -/
structure Exchange (ν : Type) where
  backend : String
  message : Json ν
  reply : NodeReply ν

/-- A distribution directory: the recipients and the amount of its plan, and the drafts of messages
to the recipients. -/
structure Batch where
  plan : Option (List String × ℤ)
  drafts : Dict String String
deriving DecidableEq

/-- Change the draft of a message. -/
def Batch.setDraft (batch : Batch) (actor text : String) : Batch :=
  { batch with drafts := batch.drafts.set actor text }

/-- The files that the programs share, and the exchanges with nodes so far. `temporary` is the file
under the fixed name beside the registry, and `outputs` are the files with single credentials. -/
structure Site (ν : Type) where
  files : List RegistryFile
  registry : ℕ
  queue : Dict String Enrollment
  requests : Dict RequestPath (RequestFile ν)
  heard : List (Exchange ν)
  batches : Dict String Batch
  locks : List String
  temporary : Option ℕ
  outputs : Dict String String

namespace Site

/-- What a reader of the registry finds, unless it is no JSON object. -/
def stored (w : Site ν) : Option (Dict String String) := w.files[w.registry]?.bind (·.content)

/-- The credential that the registry holds for an account. -/
def credential? (w : Site ν) (account : String) : Option String :=
  w.stored.bind fun stored => stored.get? account

/-- A credential is looked up in what a reader finds. -/
lemma credential?_of_stored {w : Site ν} {stored : Dict String String}
    (h : w.stored = some stored) (account : String) :
    w.credential? account = stored.get? account := by
  rw [credential?, h, Option.bind_some]

/-- A distribution directory, which is empty before it is used. -/
def batch (w : Site ν) (output : String) : Batch := w.batches.getD output ⟨none, ∅⟩

/-- Change a distribution directory. -/
def setBatch (w : Site ν) (output : String) (batch : Batch) : Site ν :=
  { w with batches := w.batches.set output batch }

/-- Put a whole new file in the place of the registry. -/
def replaceRegistry (w : Site ν) (accounts : Dict String String) : Site ν :=
  { w with files := w.files ++ [⟨true, some accounts⟩], registry := w.files.length }

/-- A new registry is what its next reader finds. -/
@[simp] lemma stored_replaceRegistry (w : Site ν) (accounts : Dict String String) :
    (w.replaceRegistry accounts).stored = some accounts := by
  simp [stored, replaceRegistry]

@[simp] lemma queue_replaceRegistry (w : Site ν) (accounts : Dict String String) :
    (w.replaceRegistry accounts).queue = w.queue := rfl

@[simp] lemma heard_replaceRegistry (w : Site ν) (accounts : Dict String String) :
    (w.replaceRegistry accounts).heard = w.heard := rfl

@[simp] lemma batch_replaceRegistry (w : Site ν) (accounts : Dict String String) (output : String) :
    (w.replaceRegistry accounts).batch output = w.batch output := rfl

@[simp] lemma batch_setBatch (w : Site ν) (output : String) (batch : Batch) :
    (w.setBatch output batch).batch output = batch := by
  simp [Site.batch, setBatch, Dict.getD_set]

@[simp] lemma stored_setBatch (w : Site ν) (output : String) (batch : Batch) :
    (w.setBatch output batch).stored = w.stored := rfl

end Site

/-! ## Single accesses -/

/-- One access to the files, or one exchange with a node. -/
inductive FileCall (ν : Type) where
  | readTarget (actor : String)
  | countQueue
  | writeTarget (actor : String) (enrollment : Enrollment)
  | readRequest (path : RequestPath)
  | writeRequest (path : RequestPath) (document : Json ν)
  | unlinkRequest (path : RequestPath)
  | statRegistry
  | readRegistry
  | replaceRegistry (accounts : Dict String String)
  | exchange (backend : String) (message : Json ν)
  | lockBatch (output : String)
  | unlockBatch (output : String)
  | readPlan (output : String)
  | writePlan (output : String) (plan : List String × ℤ)
  | countDrafts (output : String)
  | readDraft (output actor : String)
  | createDraft (output actor : String)
  | appendDraft (output actor : String) (c : Char)
  | existsOutput (path : String)
  | createOutput (path : String)
  | writeOutput (path text : String)
  | unlinkOutput (path : String)
  | createTemporary
  | writeTemporary (file : ℕ) (accounts : Dict String String)
  | renameTemporary
  | unlinkTemporary

namespace FileCall

/-- What an access returns. -/
@[reducible] def Answer : FileCall ν → Type
  | readTarget _ => Option Enrollment
  | countQueue => ℕ
  | readRequest _ => Option (RequestFile ν)
  | statRegistry => FileStat
  | readRegistry => Option (Dict String String)
  | exchange _ _ => NodeReply ν
  | lockBatch _ => Bool
  | readPlan _ => Option (List String × ℤ)
  | countDrafts _ => ℕ
  | readDraft _ _ => Option String
  | existsOutput _ => Bool
  | createOutput _ => Bool
  | createTemporary => Option ℕ
  | renameTemporary => Bool
  | _ => Unit

/-- Make an access. The environment says what comes of a message to a node; `inode` are the inode
numbers of the files in the order in which they were made. -/
def exec (inode : ℕ → ℕ) (call : FileCall ν) (reply : NodeReply ν) (w : Site ν) :
    call.Answer × Site ν :=
  match call with
  | readTarget actor => (w.queue.get? actor, w)
  | countQueue => (w.queue.size + (w.requests.keys.filter RequestPath.isQueued).length, w)
  | writeTarget actor enrollment => ((), { w with queue := w.queue.set actor enrollment })
  | readRequest path => (w.requests.get? path, w)
  | writeRequest path document =>
    ((), { w with requests := w.requests.set path ⟨true, document⟩ })
  | unlinkRequest path => ((), { w with requests := w.requests.erase path })
  | statRegistry => (⟨inode w.registry, w.files[w.registry]?.any (·.isPrivate)⟩, w)
  | readRegistry => (w.stored, w)
  | replaceRegistry accounts => ((), w.replaceRegistry accounts)
  | exchange backend message => (reply, { w with heard := w.heard ++ [⟨backend, message, reply⟩] })
  | lockBatch output =>
    if output ∈ w.locks then (false, w) else (true, { w with locks := output :: w.locks })
  | unlockBatch output => ((), { w with locks := w.locks.filter (· ≠ output) })
  | readPlan output => ((w.batch output).plan, w)
  | writePlan output plan => ((), w.setBatch output { (w.batch output) with plan := some plan })
  | countDrafts output => ((w.batch output).drafts.size, w)
  | readDraft output actor => ((w.batch output).drafts.get? actor, w)
  | createDraft output actor =>
    ((), w.setBatch output ((w.batch output).setDraft actor ""))
  | appendDraft output actor c =>
    let text := (w.batch output).drafts.getD actor ""
    ((), w.setBatch output ((w.batch output).setDraft actor (text.push c)))
  | existsOutput path => (w.outputs.contains path, w)
  | createOutput path =>
    if w.outputs.contains path then (false, w)
    else (true, { w with outputs := w.outputs.set path "" })
  | writeOutput path text => ((), { w with outputs := w.outputs.set path text })
  | unlinkOutput path => ((), { w with outputs := w.outputs.erase path })
  | createTemporary =>
    match w.temporary with
    | some _ => (none, w)
    | none => (some w.files.length,
        { w with files := w.files ++ [⟨true, none⟩], temporary := some w.files.length })
  -- through the open file, whatever its name is by now
  | writeTemporary file accounts =>
    ((), { w with files := w.files.modify file fun f => { f with content := some accounts } })
  | renameTemporary =>
    match w.temporary with
    | some file => (true, { w with registry := file, temporary := none })
    | none => (false, w)
  | unlinkTemporary => ((), { w with temporary := none })

end FileCall

/-! ## Programs -/

/-- What a program raises. -/
inductive Failure where
  | enrollment (message : String)
  | distribution (message : String)
  | fileNotFound
  | fileExists (message : String)
  | locked
  | python (e : PyError)
deriving DecidableEq

/-- A program that accesses the files. -/
abbrev FileRoutine (ν α : Type) := Routine (FileCall ν) FileCall.Answer Failure α

namespace FileRoutine

variable {α : Type}

/-- A single access. -/
def access (call : FileCall ν) : FileRoutine ν call.Answer := .perform call

/-- A computation of the interpreter. -/
def ofPy (x : Except PyError α) : FileRoutine ν α :=
  match x with
  | .ok a => .ret a
  | .error e => .raise (.python e)

/-- `if not condition: raise …` -/
def require (condition : Bool) (e : Failure) : FileRoutine ν Unit :=
  .lift (Raise.require condition e)

/-- `read_json` of the registry. -/
def readRegistry : FileRoutine ν (Dict String String) := do
  match ← access .readRegistry with
  | some stored => return stored
  | none => .raise (.distribution "expected JSON object")

/-- Send a message to a node and read its answer. -/
def ask (backend : String) (message : Json ν) : FileRoutine ν (Json ν) := do
  match ← access (.exchange backend message) with
  | .answer document => return document
  | .unreadable => .raise (.python (.value ""))
  | .lost => .raise (.enrollment "RPC result unknown; inspect status before retrying")

section Rules

variable {ι σ : Type} {exec : (call : FileCall ν) → ι → σ → call.Answer × σ} {R : σ → σ → Prop}
  {C : FileCall ν → σ → Prop} {G : σ → σ → Prop} {s : σ} {E : Failure → σ → Prop}

/-- A check leaves everything as it is. -/
@[simp] lemma ensures_require {condition : Bool} {e : Failure} {P : Unit → σ → Prop} :
    (require condition e : FileRoutine ν Unit).Ensures exec R C G s P E ↔
      (condition = true → P () s) ∧ (condition = false → E e s) := by
  cases condition with
  | true => exact ⟨fun h => ⟨fun _ => h, nofun⟩, fun h => h.1 rfl⟩
  | false => exact ⟨fun h => ⟨nofun, fun _ => h⟩, fun h => h.2 rfl⟩

/-- A computation of the interpreter leaves everything as it is. -/
@[simp] lemma ensures_ofPy {x : Except PyError α} {P : α → σ → Prop} :
    (ofPy x : FileRoutine ν α).Ensures exec R C G s P E ↔
      (∀ a, x = .ok a → P a s) ∧ ∀ e, x = .error e → E (.python e) s := by
  cases x <;> simp [ofPy]

/-- A single access. -/
lemma ensures_access {call : FileCall ν} {P : call.Answer → σ → Prop} :
    (access call).Ensures exec R C G s P E ↔ ∀ t, R s t → C call t → ∀ i,
      G t (exec call i t).2 ∧ P (exec call i t).1 (exec call i t).2 := Iff.rfl

end Rules

end FileRoutine

end SplitChain
