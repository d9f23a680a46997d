import SplitChain.Model.Steps

set_option relaxedAutoImplicit false
set_option autoImplicit false

/-!
# Requests

A mutating request names a method and carries keyword parameters decoded from JSON. The method
tables of the node hand the parameters to the ledger operation without looking at them, so what
is checked is what the call itself checks: the keywords, and the types that the operation
compares, adds and looks up.

## Main definitions

* `SplitChain.Request` — a decoded request.
* `SplitChain.Method` — the mutating methods.
* `SplitChain.Ledger.Call.ofParams` — the call that a method makes with given parameters.
* `SplitChain.Ledger.execute` — a method table: one method on the ledger.

## Main results

* `SplitChain.Ledger.execute_eq_ok` — a method that succeeds is a call that succeeds.
-/

namespace SplitChain

open Raise

open PyNumber (val ofInt)

variable {ν : Type} [PyNumber ν]

/-! ## Methods -/

/-- `MUTATING_METHODS` -/
inductive Method where
  | offer | accept | commit | cancel | advance | accountRegister
deriving DecidableEq, Repr

namespace Method

/-- The name of a method. -/
def name : Method → String
  | offer => "offer"
  | accept => "accept"
  | commit => "commit"
  | cancel => "cancel"
  | advance => "advance"
  | accountRegister => "account.register"

/-- The mutating methods. -/
def all : List Method := [offer, accept, commit, cancel, advance, accountRegister]

/-- The mutating method with a given name. -/
def ofName? (name : String) : Option Method := all.find? fun m => m.name == name

omit [PyNumber ν] in
/-- The mutating method that a JSON value names. -/
def ofJson? : Json ν → Option Method
  | .str name => ofName? name
  | _ => none

/-- A method is found under its name. -/
lemma ofName?_name (m : Method) : ofName? m.name = some m := by
  cases m <;> decide

/-- A method is found under its name only. -/
lemma name_of_ofName? {name : String} {m : Method} (h : ofName? name = some m) :
    m.name = name := by
  simpa using List.find?_some h

end Method

/-! ## Requests -/

/-- The members of a request object that the program reads. -/
structure Request (ν : Type) where
  id : Json ν
  method : Json ν
  params : Json ν
  auth : Json ν
deriving DecidableEq

/-- The members of a request object, absent ones replaced as the program does. -/
def Request.ofDict (d : Dict String (Json ν)) : Request ν where
  id := d.getD "id" .null
  method := d.getD "method" .null
  params := d.getD "params" (.obj [])
  auth := d.getD "auth" .null

/-- What a method returns. -/
inductive Result (ν : Type) where
  | branch (b : Branch ν)
  | changed (bs : List (Branch ν))
  | account (name : String) (height : ℤ)
deriving DecidableEq

/-- The published form of a result. -/
def Result.publicForm : Result ν → Json ν
  | .branch b => b.publicForm
  | .changed bs => .arr (bs.map Branch.publicForm)
  | .account name height => .obj [("account", .str name), ("height", .num (ofInt height))]

/-! ## Keyword parameters -/

section Keywords

variable (params : Dict String (Json ν))

omit [PyNumber ν] in
/-- Refuse a call without the keywords that the operation needs, or with some that it does not
have. -/
def checkKeywords (required optional : List String) : Except PyError Unit :=
  require (required.all params.contains && params.keys.all fun k => k ∈ required ++ optional) .type

omit [PyNumber ν] in
/-- A required parameter. -/
def argument (name : String) : Except PyError (Json ν) := orRaise (params.get? name) .type

omit [PyNumber ν] in
/-- A required parameter that is used as a string, and what is raised for other values. -/
def textArgument (refusal : Json ν → PyError) (name : String) : Except PyError String := do
  match ← argument params name with
  | .str s => return s
  | value => .error (refusal value)

omit [PyNumber ν] in
/-- A required parameter that is looked up as a name. No account or branch has a name that is not a
string, so that the call is refused, for a reason that is left out; what cannot be hashed cannot be
looked up. -/
def nameArgument (name : String) : Except PyError String :=
  textArgument params (fun value => if value.hashable then .protocol "" else .type) name

omit [PyNumber ν] in
/-- A required parameter that is compared with the name of a participant, and equals none if it is
not a string. -/
def participantArgument (name : String) : Except PyError String :=
  textArgument params (fun _ => .protocol "") name

/-- A value used as a number. -/
def numberArgument (value : Json ν) : Except PyError ν := orRaise value.num? .type

/-- A number of rounds: a float is compared before `range` refuses it. -/
def roundsArgument (value : Json ν) : Except PyError ℤ := do
  let rounds ← numberArgument value
  match PyNumber.index? rounds with
  | some n => return n
  | none => .error (if val rounds < 1 then .protocol "rounds must be positive" else .type)

end Keywords

namespace Ledger

/-- The call that a method makes with the given keyword parameters. -/
def Call.ofParams (method : Method) (params : Dict String (Json ν)) : Except PyError (Call ν) :=
  match method with
  | .offer => do
    checkKeywords params ["sender", "receiver", "value"] ["ttl"]
    let sender ← nameArgument params "sender"
    let receiver ← nameArgument params "receiver"
    let value ← argument params "value"
    let value ← numberArgument value
    let ttl ← numberArgument (params.getD "ttl" (.num (ofInt 6)))
    return .offer sender receiver value ttl
  | .accept => do
    checkKeywords params ["branch_id", "receiver"] []
    return .accept (← nameArgument params "branch_id") (← participantArgument params "receiver")
  | .commit => do
    checkKeywords params ["branch_id", "sender", "payload"] []
    return .commit (← nameArgument params "branch_id") (← participantArgument params "sender")
      (← argument params "payload")
  | .cancel => do
    checkKeywords params ["branch_id", "actor"] []
    return .cancel (← nameArgument params "branch_id") (← participantArgument params "actor")
  | .advance => do
    checkKeywords params [] ["rounds"]
    return .advance (← roundsArgument (params.getD "rounds" (.num (ofInt 1))))
  | .accountRegister => do
    checkKeywords params ["account"] []
    return .register (← participantArgument params "account")

/-- A call with its result. -/
def perform (py : PyLib ν) (l : Ledger ν) : Call ν → Except PyError (Ledger ν × Result ν)
  | .register account => do
    let l' ← l.registerAccount py account
    return (l', .account account l'.canonicalHeight)
  | .offer sender receiver value ttl =>
    Prod.map id .branch <$> l.offer py sender receiver value ttl
  | .accept branchId receiver => Prod.map id .branch <$> l.accept branchId receiver
  | .commit branchId sender payload => Prod.map id .branch <$> l.commit py branchId sender payload
  | .cancel branchId actor => Prod.map id .branch <$> l.cancel branchId actor
  | .advance rounds => Prod.map id .changed <$> l.advance py rounds

/-- A method table: one mutating method on the ledger. `**params` refuses what is not an
object. -/
def execute (py : PyLib ν) (l : Ledger ν) (method : Method) (params : Json ν) :
    Except PyError (Ledger ν × Result ν) := do
  let params ← orRaise params.dict? .type
  let c ← Call.ofParams method params
  l.perform py c

/-- The ledger of a call does not depend on whether its result is kept. -/
lemma fst_perform (py : PyLib ν) (l : Ledger ν) (c : Call ν) :
    Prod.fst <$> l.perform py c = l.call py c := by
  have hmap : ∀ {α : Type} (x : Except PyError (Ledger ν × α)) (f : α → Result ν),
      Prod.fst <$> Prod.map id f <$> x = Prod.fst <$> x := by
    intro α x f
    cases x <;> rfl
  cases c with
  | register account =>
    show Prod.fst <$> (l.registerAccount py account >>= fun l' => _) = l.registerAccount py account
    cases l.registerAccount py account <;> rfl
  | offer | accept | commit | cancel | advance => exact hmap _ _

/-- **A method that succeeds** has decoded its parameters to a call, which succeeds. -/
lemma execute_eq_ok {py : PyLib ν} {l l' : Ledger ν} {method : Method} {params : Json ν}
    {r : Result ν} (h : l.execute py method params = .ok (l', r)) :
    ∃ d c, params.dict? = some d ∧ Call.ofParams method d = .ok c ∧
      l.perform py c = .ok (l', r) ∧ l.call py c = .ok l' := by
  simp only [execute, bind_eq_ok, orRaise_eq_ok] at h
  obtain ⟨d, hd, c, hc, hp⟩ := h
  refine ⟨d, c, hd, hc, hp, ?_⟩
  rw [← fst_perform, hp]
  rfl

end Ledger

end SplitChain
