import SplitChain.Library.Transition
import SplitChain.Model.Distributor
import SplitChain.Model.Enrollment
import SplitChain.Python.Canonical

set_option relaxedAutoImplicit false
set_option autoImplicit false

/-!
# Preparing a distribution

`splitchain.distributor.prepare` makes a draft of a message with a new credential for every
recipient of a plan, and then registers the credentials. It may be killed between any two accesses
to the files, also while a draft is half written, and is then run again with the same plan.

## Main definitions

* `SplitChain.splitLines` — `str.splitlines`.
* `SplitChain.accountsFor`, `SplitChain.planFor` — the recipients of a plan.
* `SplitChain.Preparation.credential`, `SplitChain.Preparation.prepare`.
* `SplitChain.Preparation.Sound` — what a killed preparation leaves.

## Main results

* `SplitChain.Preparation.credential_draft` — a draft names its credential.
* `SplitChain.Preparation.alone_prepare` — what one preparation does.
* `SplitChain.Preparation.prepare_resumes` — when a killed preparation can be resumed.
-/

namespace SplitChain

open Raise

open FileRoutine Transition

variable {ν : Type}

/-! ## Lines -/

/-- Whether a line ends at a character. -/
def isLineBreak (c : Char) : Bool :=
  c.toNat ∈ [10, 11, 12, 13, 28, 29, 30, 133, 8232, 8233]

/-- The lines of a text that goes on from `line`; `\r\n` ends one line, not two. -/
def splitLinesFrom (line : List Char) : List Char → List (List Char)
  | [] => if line.isEmpty then [] else [line]
  | c :: rest =>
    if c == '\r' && rest.head? == some '\n' then splitLinesFrom line rest
    else if isLineBreak c then line :: splitLinesFrom [] rest
    else splitLinesFrom (line ++ [c]) rest

/-- `str.splitlines` -/
def splitLines (text : String) : List (List Char) := splitLinesFrom [] text.toList

/-- A line goes to the next line break. -/
lemma splitLinesFrom_append {cs : List Char} (h : ∀ c ∈ cs, isLineBreak c = false)
    (line rest : List Char) :
    splitLinesFrom line (cs ++ '\n' :: rest) = (line ++ cs) :: splitLinesFrom [] rest := by
  induction cs generalizing line with
  | nil => simp [splitLinesFrom, isLineBreak]
  | cons c cs ih =>
    have hc : isLineBreak c = false := h c List.mem_cons_self
    have hreturn : (c == '\r') = false := by
      refine beq_eq_false_iff_ne.mpr fun hr => ?_
      rw [hr] at hc
      exact absurd hc (by decide)
    rw [List.cons_append, splitLinesFrom, hreturn, Bool.false_and, if_neg (by simp), hc,
      if_neg (by simp), ih (fun d hd => h d (List.mem_cons_of_mem c hd)), List.append_assoc,
      List.singleton_append]

/-- No line ends at a printable ASCII character. -/
lemma isLineBreak_of_printable {c : Char} (hlow : 32 ≤ c.toNat) (hhigh : c.toNat < 128) :
    isLineBreak c = false := by
  simp only [isLineBreak, List.mem_cons, List.not_mem_nil, or_false, decide_eq_false_iff_not]
  omega

/-! ## Plans -/

/-- Whether a text matches `[a-z][a-z0-9_]{1,24}`. -/
def stemPattern (stem : String) : Bool :=
  match stem.toList with
  | [] => false
  | c :: cs => c.isLower && 1 ≤ cs.length && cs.length ≤ 24 &&
      cs.all fun c => c.isLower || c.isDigit || c = '_'

/-- A number with at least three digits. -/
def padded (i : ℕ) : String := String.ofList ((toString i).toList.leftpad 3 '0')

/-- `accounts_for` -/
def accountsFor (stem : String) (count : ℤ) : Except Failure (List String) := do
  Raise.require (stemPattern stem && !"testnet_".isPrefixOf stem) (.distribution
    ("prefix must start with a lowercase letter and contain only lowercase letters, digits or " ++
      "underscore"))
  Raise.require (1 ≤ count && count ≤ 100) (.distribution "count must be between 1 and 100")
  let accounts := (List.range count.toNat).map fun i => stem ++ padded (i + 1)
  Raise.require (accounts.all Ledger.accountPattern)
    (.distribution "generated account ID exceeds 32 characters")
  return accounts

/-- `plan_for` -/
def planFor (stem : String) (count amount : ℤ) (genesis : GenesisConfig) : Except Failure Plan :=
  let refused : Failure := .distribution
    "amount must be positive and total cannot exceed the faucet allocation"
  if h : 1 ≤ amount then do
    let allocation ← orRaise (genesis.allocations.get? "testnet_faucet") (.python .key)
    Raise.require (count * amount ≤ allocation) refused
    let recipients ← accountsFor stem count
    return ⟨recipients, amount, h⟩
  else throw refused

/-- The recipients of a plan have names of accounts. -/
lemma accountPattern_of_planFor {stem : String} {count amount : ℤ} {genesis : GenesisConfig}
    {plan : Plan} (h : planFor stem count amount genesis = .ok plan) :
    ∀ actor ∈ plan.recipients, Ledger.accountPattern actor = true := by
  unfold planFor at h
  split at h
  · simp only [bind_eq_ok, accountsFor, require_eq_ok, pure_eq_ok] at h
    obtain ⟨-, -, -, -, recipients, ⟨-, -, -, -, -, hall, rfl⟩, rfl⟩ := h
    exact List.all_eq_true.mp hall
  · cases h

/-! ## Drafts -/

/-- A text of 64 hexadecimal digits, such as `secrets.token_hex(32)` makes. -/
abbrev Secret := {text : String // isHex 64 text = true}

instance : Inhabited Secret := ⟨⟨String.ofList (List.replicate 64 '0'), by decide⟩⟩

namespace Preparation

/-- The first line of a draft. -/
def heading (amount : ℤ) : String :=
  "SplitChain TESTNET (valueless) - " ++ toString amount ++ " test units"

/-- The draft of a message. -/
def draft (actor secret : String) (amount : ℤ) : String :=
  heading amount ++ "\n" ++ ("Wallet ID: " ++ actor) ++ "\n" ++ ("Credential: " ++ secret) ++ "\n" ++
    ("Wallet app or browser: https://bokiloki.ddns.net/splitchain/downloads\n" ++
    "Keep the credential private. These are sandbox units, not real coins.\n")

/-- The credential that a draft names. -/
def credential (text actor : String) : Except Failure String := do
  let lines := splitLines text
  Raise.require (3 ≤ lines.length && lines.getD 1 [] == ("Wallet ID: " ++ actor).toList &&
      "Credential: ".toList.isPrefixOf (lines.getD 2 []))
    (.distribution ("invalid SMS draft for " ++ actor))
  let secret := String.ofList ((lines.getD 2 []).drop "Credential: ".length)
  Raise.require (isHex 64 secret) (.distribution ("invalid credential for " ++ actor))
  return secret

/-- Whether the characters of a text are printable is found by looking at them. -/
lemma printable_of_all {text : String}
    (h : (text.toList.all fun c => decide (32 ≤ c.toNat ∧ c.toNat < 128)) = true) :
    ∀ c ∈ text.toList, 32 ≤ c.toNat ∧ c.toNat < 128 :=
  fun c hc => of_decide_eq_true (List.all_eq_true.mp h c hc)

/-- A digit is printable. -/
lemma printable_digit {c : Char} (h : c.isDigit = true) : 32 ≤ c.toNat ∧ c.toNat < 128 := by
  simp only [Char.isDigit, Bool.and_eq_true, decide_eq_true_eq, ge_iff_le,
    UInt32.le_iff_toNat_le] at h
  exact ⟨le_trans (by decide) h.1, lt_of_le_of_lt h.2 (by decide)⟩

/-- The characters of an amount are printable. -/
lemma printable_toString (amount : ℤ) :
    ∀ c ∈ (toString amount).toList, 32 ≤ c.toNat ∧ c.toNat < 128 := by
  intro c hc
  have hnumeral := Json.numerals_toString.numeral amount c hc
  simp only [Json.isNumeral, Bool.or_eq_true, decide_eq_true_eq] at hnumeral
  rcases hnumeral with hc | rfl
  · exact printable_digit hc
  · decide

/-- The characters of an account are printable. -/
lemma printable_account {actor : String} (h : Ledger.accountPattern actor = true) :
    ∀ c ∈ actor.toList, 32 ≤ c.toNat ∧ c.toNat < 128 := by
  have hlower : ∀ c : Char, c.isLower = true → 32 ≤ c.toNat ∧ c.toNat < 128 := by
    intro c hc
    change (decide ('a'.val ≤ c.val) && decide (c.val ≤ 'z'.val)) = true at hc
    simp only [Bool.and_eq_true, decide_eq_true_eq, UInt32.le_iff_toNat_le] at hc
    exact ⟨le_trans (by decide) hc.1, lt_of_le_of_lt hc.2 (by decide)⟩
  intro c hc
  unfold Ledger.accountPattern at h
  cases hactor : actor.toList with
  | nil =>
    rw [hactor] at hc
    cases hc
  | cons d ds =>
    simp only [hactor, Bool.and_eq_true, List.all_eq_true, Bool.or_eq_true, decide_eq_true_eq] at h
    rw [hactor, List.mem_cons] at hc
    rcases hc with rfl | hc
    · exact hlower c h.1.1.1
    · rcases h.2 c hc with (hc | hc) | rfl
      · exact hlower c hc
      · exact printable_digit hc
      · decide

/-- The characters of a credential are printable. -/
lemma printable_secret {secret : String} (h : isHex 64 secret = true) :
    ∀ c ∈ secret.toList, 32 ≤ c.toNat ∧ c.toNat < 128 := by
  intro c hc
  simp only [isHex, Bool.and_eq_true, List.all_eq_true, decide_eq_true_eq] at h
  rcases h.2 c hc with ⟨hlow, hhigh⟩ | ⟨hlow, hhigh⟩
  all_goals exact ⟨le_trans (by decide) (UInt32.le_iff_toNat_le.mp hlow),
    lt_of_le_of_lt (UInt32.le_iff_toNat_le.mp hhigh) (by decide)⟩

/-- A line of printable characters has no line break. -/
lemma isLineBreak_of_mem_append {s t : String} (hs : ∀ c ∈ s.toList, 32 ≤ c.toNat ∧ c.toNat < 128)
    (ht : ∀ c ∈ t.toList, 32 ≤ c.toNat ∧ c.toNat < 128) :
    ∀ c ∈ (s ++ t).toList, isLineBreak c = false := by
  intro c hc
  rw [String.toList_append, List.mem_append] at hc
  obtain ⟨hlow, hhigh⟩ := hc.elim (hs c) (ht c)
  exact isLineBreak_of_printable hlow hhigh

/-- A draft has its first three lines as they are meant. -/
lemma splitLines_draft {actor secret : String} (hactor : Ledger.accountPattern actor = true)
    (hsecret : isHex 64 secret = true) (amount : ℤ) : ∃ rest,
    splitLines (draft actor secret amount) =
      (heading amount).toList :: ("Wallet ID: " ++ actor).toList ::
        ("Credential: " ++ secret).toList :: rest := by
  have hfirst : ∀ c ∈ (heading amount).toList, isLineBreak c = false := by
    refine isLineBreak_of_mem_append (fun c hc => ?_) (printable_of_all rfl)
    rw [String.toList_append, List.mem_append] at hc
    exact hc.elim (printable_of_all rfl c) (printable_toString amount c)
  have hsecond := isLineBreak_of_mem_append (s := "Wallet ID: ") (printable_of_all rfl)
    (printable_account hactor)
  have hthird := isLineBreak_of_mem_append (s := "Credential: ") (printable_of_all rfl)
    (printable_secret hsecret)
  have hbreak : "\n".toList = ['\n'] := rfl
  have htext : ∃ tail, (draft actor secret amount).toList = (heading amount).toList ++ '\n' ::
      (("Wallet ID: " ++ actor).toList ++ '\n' :: (("Credential: " ++ secret).toList ++
        '\n' :: tail)) :=
    ⟨_, by simp only [draft, String.toList_append, hbreak, List.append_assoc, List.cons_append,
      List.nil_append]; rfl⟩
  obtain ⟨tail, htext⟩ := htext
  rw [splitLines, htext, splitLinesFrom_append hfirst, splitLinesFrom_append hsecond,
    splitLinesFrom_append hthird]
  exact ⟨_, rfl⟩

/-- **A draft names its credential.** -/
lemma credential_draft {actor secret : String} (hactor : Ledger.accountPattern actor = true)
    (hsecret : isHex 64 secret = true) (amount : ℤ) :
    credential (draft actor secret amount) actor = .ok secret := by
  obtain ⟨rest, hlines⟩ := splitLines_draft hactor hsecret amount
  have hlength : 3 ≤ (splitLines (draft actor secret amount)).length := by
    simp [hlines]
  have hleading : "Credential: ".toList.isPrefixOf ("Credential: " ++ secret).toList = true := by
    rw [String.toList_append, List.isPrefixOf_iff_prefix]
    exact List.prefix_append _ _
  have hdrop : String.ofList (("Credential: " ++ secret).toList.drop "Credential: ".length) = secret := by
    rw [String.toList_append, ← String.length_toList, List.drop_left, String.ofList_toList]
  have hsecond : (splitLines (draft actor secret amount)).getD 1 [] =
      ("Wallet ID: " ++ actor).toList := by rw [hlines]; rfl
  have hthird : (splitLines (draft actor secret amount)).getD 2 [] =
      ("Credential: " ++ secret).toList := by rw [hlines]; rfl
  simp only [credential, hsecond, hthird, hleading, hdrop, hsecret, hlength, Raise.require,
    decide_true, beq_self_eq_true, Bool.and_self, if_true]
  rfl

end Preparation

/-! ## The program -/

namespace Preparation

/-- Fill a draft. A kill leaves what has been written so far. -/
def writeDraft (output actor : String) : List Char → FileRoutine ν Unit
  | [] => return ()
  | c :: cs => do
    access (.appendDraft output actor c)
    writeDraft output actor cs

section Program

variable (output : String) (plan : Plan) (tokens : String → Secret)

/-- The credential of a recipient: that of its draft, or a new one with a new draft. -/
def provide (stored : Dict String String) (actor : String) : FileRoutine ν String := do
  match ← access (.readDraft output actor) with
  | some text => .lift (credential text actor)
  | none => do
    require (!stored.contains actor) (.distribution
      ("missing SMS draft for enrolled account " ++ actor ++ "; inspect before retrying"))
    access (.createDraft output actor)
    writeDraft output actor (draft actor (tokens actor).1 plan.amount).toList
    return (tokens actor).1

/-- The credentials of all recipients. -/
def collect (stored : Dict String String) :
    List String → Dict String String → FileRoutine ν (Dict String String)
  | [], additions => return additions
  | actor :: rest, additions => do
    let secret ← provide output plan tokens stored actor
    require ((stored.get? actor).all (· == secret))
      (.distribution ("registry credential mismatch for " ++ actor))
    collect stored rest (additions.set actor secret)

/-- Check the plan of the directory, or write it there. -/
def adoptPlan (stored : Dict String String) : FileRoutine ν Unit := do
  match ← access (.readPlan output) with
  | some present =>
    require (present == (plan.recipients, plan.amount))
      (.distribution "existing plan differs; use a separate directory for another batch")
  | none => do
    require (!plan.recipients.any stored.contains)
      (.distribution "one or more generated IDs already exist; change the prefix")
    let drafts ← access (.countDrafts output)
    require (drafts == 0) (.distribution "unrecognized SMS files in distribution directory")
    access (.writePlan output (plan.recipients, plan.amount))

/-- Register credentials, unless the registry has them. -/
def register (stored additions : Dict String String) : FileRoutine ν Unit := do
  if additions.entries.all fun p => stored.get? p.1 == some p.2 then return ()
  else
    let fresh ← readRegistry
    require (additions.entries.all fun p => (fresh.get? p.1).all (· == p.2))
      (.distribution "registry changed during preparation")
    access (.replaceRegistry (fresh.update additions))

/-- What is done under the lock of the directory. -/
def prepareLocked : FileRoutine ν Unit := do
  let original ← access .statRegistry
  require original.isPrivate
    (.distribution "account registry must not be readable by other users")
  let stored ← readRegistry
  require (stored.contains "testnet_faucet") (.distribution "faucet account missing from registry")
  adoptPlan output plan stored
  let additions ← collect output plan tokens stored plan.recipients ∅
  register stored additions

/-- `prepare` -/
def prepare : FileRoutine ν Unit := do
  let held ← access (.lockBatch output)
  require held .locked
  (prepareLocked output plan tokens).ensuring (access (.unlockBatch output))

end Program

/-! ## What a killed preparation leaves -/

/-- The draft of a recipient names a credential. -/
def Names (output : String) (w : Site ν) (actor secret : String) : Prop :=
  ∃ text, (w.batch output).drafts.get? actor = some text ∧ credential text actor = .ok secret

/-- Every draft names a credential. -/
def Readable (output : String) (w : Site ν) : Prop :=
  ∀ actor text, (w.batch output).drafts.get? actor = some text →
    ∃ secret, credential text actor = .ok secret

/-- The directory has the plan, and every recipient is registered with the credential of its
draft. -/
structure Completed (output : String) (plan : Plan) (w : Site ν) : Prop where
  planned : (w.batch output).plan = some (plan.recipients, plan.amount)
  registered : ∀ actor ∈ plan.recipients, ∃ secret,
    w.credential? actor = some secret ∧ Names output w actor secret

/-- What a preparation leaves whenever it is killed, if `accounts` was the registry before: a
recipient is registered with the credential of its draft only, drafts follow the plan, and the other
credentials are as they were. -/
structure Sound (accounts : Dict String String) (output : String) (plan : Plan) (w : Site ν) :
    Prop where
  isPrivate : (w.files[w.registry]?.any (·.isPrivate)) = true
  faucet : ∃ secret, w.credential? "testnet_faucet" = some secret
  others : ∀ actor ∉ plan.recipients, w.credential? actor = accounts.get? actor
  planned : (w.batch output).plan = none ∨
    (w.batch output).plan = some (plan.recipients, plan.amount)
  unplanned : (w.batch output).plan = none →
    (w.batch output).drafts.size = 0 ∧ ∀ actor ∈ plan.recipients, w.credential? actor = none
  filed : ∀ actor text, (w.batch output).drafts.get? actor = some text → actor ∈ plan.recipients
  held : ∀ actor ∈ plan.recipients, ∀ secret, w.credential? actor = some secret →
    Names output w actor secret

/-- A draft is created or written on; everything else is as it was. -/
structure Wrote (output actor text : String) (w t : Site ν) : Prop where
  files : t.files = w.files
  registry : t.registry = w.registry
  locks : t.locks = w.locks
  plan : (t.batch output).plan = (w.batch output).plan
  draft : (t.batch output).drafts.get? actor = some text
  others : ∀ a ≠ actor, (t.batch output).drafts.get? a = (w.batch output).drafts.get? a

/-- Drafts that name a credential may have been added; everything else is as it was. -/
structure Grows (output : String) (w t : Site ν) : Prop where
  files : t.files = w.files
  registry : t.registry = w.registry
  locks : t.locks = w.locks
  plan : (t.batch output).plan = (w.batch output).plan
  drafts : ∀ actor text, (w.batch output).drafts.get? actor = some text →
    (t.batch output).drafts.get? actor = some text
  added : ∀ actor text, (t.batch output).drafts.get? actor = some text →
    (w.batch output).drafts.get? actor = some text ∨ ∃ secret, credential text actor = .ok secret

section Sites

variable {accounts : Dict String String} {output actor text secret : String} {plan : Plan}
  {w t u : Site ν}

lemma Grows.refl (output : String) (w : Site ν) : Grows output w w :=
  ⟨rfl, rfl, rfl, rfl, fun _ _ h => h, fun _ _ h => .inl h⟩

lemma Grows.trans (hwt : Grows output w t) (htu : Grows output t u) : Grows output w u :=
  ⟨htu.files.trans hwt.files, htu.registry.trans hwt.registry, htu.locks.trans hwt.locks,
    htu.plan.trans hwt.plan, fun a text h => htu.drafts a text (hwt.drafts a text h),
    fun a text h => (htu.added a text h).elim (hwt.added a text) .inr⟩

/-- Readers of the registry find the same. -/
lemma Grows.stored (h : Grows output w t) : t.stored = w.stored := by
  rw [Site.stored, h.files, h.registry, Site.stored]

/-- Drafts that name a credential are added to such. -/
lemma Readable.grows (h : Readable output w) (hgrows : Grows output w t) : Readable output t :=
  fun actor text ht => (hgrows.added actor text ht).elim (h actor text) id

lemma Names.grows (h : Names output w actor secret) (hgrows : Grows output w t) :
    Names output t actor secret :=
  let ⟨text, hdraft, hsecret⟩ := h
  ⟨text, hgrows.drafts actor text hdraft, hsecret⟩

/-- A draft names one credential. -/
lemma Names.unique {other : String} (h : Names output w actor secret)
    (hother : Names output w actor other) : secret = other := by
  obtain ⟨text, hdraft, hsecret⟩ := h
  obtain ⟨text', hdraft', hsecret'⟩ := hother
  obtain rfl := Option.some.inj (hdraft.symm.trans hdraft')
  exact Except.ok.inj (hsecret.symm.trans hsecret')

/-- A draft is written as a whole. -/
lemma wrote_setDraft (output actor text : String) (w : Site ν) :
    Wrote output actor text w (w.setBatch output ((w.batch output).setDraft actor text)) where
  files := rfl
  registry := rfl
  locks := rfl
  plan := by rw [Site.batch_setBatch]; rfl
  draft := by rw [Site.batch_setBatch, Batch.setDraft, Dict.get?_set_self]
  others := fun a ha => by
    rw [Site.batch_setBatch, Batch.setDraft, Dict.get?_set_of_ne _ _ ha.symm]

lemma Wrote.trans {text' : String} (hwt : Wrote output actor text' w t)
    (htu : Wrote output actor text t u) : Wrote output actor text w u :=
  ⟨htu.files.trans hwt.files, htu.registry.trans hwt.registry, htu.locks.trans hwt.locks,
    htu.plan.trans hwt.plan, htu.draft, fun a ha => (htu.others a ha).trans (hwt.others a ha)⟩

/-- A new draft is added to those there are. -/
lemma Wrote.grows (h : Wrote output actor text w t)
    (hnone : (w.batch output).drafts.get? actor = none)
    (hsecret : credential text actor = .ok secret) : Grows output w t where
  files := h.files
  registry := h.registry
  locks := h.locks
  plan := h.plan
  drafts := by
    intro a text' ha
    have hne : a ≠ actor := fun heq => by
      rw [heq, hnone] at ha
      cases ha
    exact (h.others a hne).trans ha
  added := by
    intro a text' ha
    by_cases heq : a = actor
    · subst heq
      obtain rfl := Option.some.inj (h.draft.symm.trans ha)
      exact .inr ⟨secret, hsecret⟩
    · exact .inl ((h.others a heq).symm.trans ha)

/-- Writing a draft leaves the registry as it is. -/
lemma Wrote.credential? (h : Wrote output actor text w t) (a : String) :
    t.credential? a = w.credential? a := by
  rw [Site.credential?, Site.stored, h.files, h.registry]
  rfl

/-- The draft of a recipient that is not registered may be written at any time. -/
lemma Sound.wrote (h : Sound accounts output plan w) (hplan : (w.batch output).plan ≠ none)
    (hactor : actor ∈ plan.recipients) (hnone : w.credential? actor = none)
    (hwrote : Wrote output actor text w t) : Sound accounts output plan t := by
  constructor
  · rw [hwrote.files, hwrote.registry]
    exact h.isPrivate
  · exact hwrote.credential? _ ▸ h.faucet
  · exact fun a ha => (hwrote.credential? a).trans (h.others a ha)
  · exact hwrote.plan ▸ h.planned
  · exact fun hunplanned => absurd (hwrote.plan ▸ hunplanned) hplan
  · intro a text' ha
    by_cases heq : a = actor
    · exact heq ▸ hactor
    · exact h.filed a text' ((hwrote.others a heq).symm.trans ha)
  · intro a ha secret hsecret
    rw [hwrote.credential?] at hsecret
    have hne : a ≠ actor := fun heq => by
      rw [heq, hnone] at hsecret
      cases hsecret
    obtain ⟨text', hdraft, hnames⟩ := h.held a ha secret hsecret
    exact ⟨text', (hwrote.others a hne).trans hdraft, hnames⟩

end Sites

/-! ## One preparation -/

/-- An access that keeps what a preparation leaves. -/
def Keeps (accounts : Dict String String) (output : String) (plan : Plan) (w t : Site ν) : Prop :=
  Sound accounts output plan w → Sound accounts output plan t

section Alone

variable {accounts stored additions : Dict String String} {output actor : String} {plan : Plan}
  {tokens : String → Secret} {inode : ℕ → ℕ} {w : Site ν}

/-- Filling a draft. -/
lemma alone_writeDraft {cs : List Char} {text : String} (hw : Sound accounts output plan w)
    (hplan : (w.batch output).plan ≠ none) (hactor : actor ∈ plan.recipients)
    (hnone : w.credential? actor = none)
    (hdraft : (w.batch output).drafts.get? actor = some text) :
    (writeDraft output actor cs).Alone inode (Keeps accounts output plan) w
      (fun _ t => Wrote output actor (String.ofList (text.toList ++ cs)) w t)
      fun _ _ => False := by
  induction cs generalizing w text with
  | nil =>
    rw [List.append_nil, String.ofList_toList]
    exact ⟨rfl, rfl, rfl, rfl, hdraft, fun _ _ => rfl⟩
  | cons c cs ih =>
    have hwrote := wrote_setDraft output actor (text.push c) w
    have hsound := hw.wrote hplan hactor hnone hwrote
    refine Routine.ensures_bind.mpr (alone_access fun _ => ?_)
    simp only [FileCall.exec, Dict.getD, hdraft, Option.getD_some]
    refine ⟨fun _ => hsound, (ih hsound (hwrote.plan ▸ hplan) ((hwrote.credential? _).trans hnone)
      hwrote.draft).mono (fun _ t ht => hwrote.trans ?_) fun _ _ h => h⟩
    rwa [String.toList_push, List.append_assoc, List.singleton_append] at ht

/-- Providing a recipient with a credential. -/
lemma alone_provide (hw : Sound accounts output plan w) (hplan : (w.batch output).plan ≠ none)
    (hstored : w.stored = some stored) (hactor : actor ∈ plan.recipients)
    (hpattern : Ledger.accountPattern actor = true) :
    (provide output plan tokens stored actor).Alone inode (Keeps accounts output plan) w
      (fun secret t => Sound accounts output plan t ∧ Grows output w t ∧
        Names output t actor secret ∧
        ((∃ text, (w.batch output).drafts.get? actor = some text) → t = w))
      fun _ t => Sound accounts output plan t ∧ Grows output w t ∧ ¬Readable output t := by
  refine Routine.ensures_bind.mpr (alone_access fun _ => ⟨id, ?_⟩)
  simp only [FileCall.exec]
  cases hdraft : (w.batch output).drafts.get? actor with
  | some text =>
    refine Routine.ensures_lift.mpr ⟨fun secret hsecret => ?_, fun e he => ?_⟩
    · exact ⟨hw, .refl output w, ⟨text, hdraft, hsecret⟩, fun _ => rfl⟩
    · refine ⟨hw, .refl output w, fun hreadable => ?_⟩
      obtain ⟨secret, hsecret⟩ := hreadable actor text hdraft
      rw [he] at hsecret
      cases hsecret
  | none =>
    have hnone : w.credential? actor = none := by
      refine Option.eq_none_iff_forall_not_mem.mpr fun secret hsecret => ?_
      obtain ⟨text, htext, -⟩ := hw.held actor hactor secret hsecret
      rw [hdraft] at htext
      cases htext
    have hcontains : stored.contains actor = false := by
      rw [Dict.contains, ← Site.credential?_of_stored hstored, hnone]
      rfl
    have hcreated := wrote_setDraft output actor "" w
    have hsound := hw.wrote hplan hactor hnone hcreated
    refine Routine.ensures_bind.mpr (ensures_require.mpr ⟨fun _ => ?_, fun h => by
      rw [hcontains] at h; cases h⟩)
    refine Routine.ensures_bind.mpr (alone_access fun _ => ⟨fun _ => hsound, ?_⟩)
    have hsecret := credential_draft hpattern (tokens actor).2 plan.amount
    generalize draft actor (tokens actor).1 plan.amount = text at hsecret ⊢
    refine Routine.ensures_bind.mpr ((alone_writeDraft hsound (hcreated.plan ▸ hplan) hactor
      ((hcreated.credential? _).trans hnone) hcreated.draft).mono (fun _ t ht => ?_)
        fun _ _ h => h.elim)
    have hempty : String.ofList ("".toList ++ text.toList) = text := String.ofList_toList
    have hwrote := hcreated.trans (hempty ▸ ht)
    exact ⟨hw.wrote hplan hactor hnone hwrote, hwrote.grows hdraft hsecret,
      ⟨_, hwrote.draft, hsecret⟩, fun h => by
        obtain ⟨_, hnever⟩ := h
        cases hnever⟩

/-- **Providing** all recipients with credentials.

**Proof sketch.** Induction on the recipients that are left. The registry agrees with the draft of
a recipient, whether it was there or is new. -/
lemma alone_collect {rest : List String} (hw : Sound accounts output plan w)
    (hplan : (w.batch output).plan ≠ none) (hstored : w.stored = some stored)
    (hrest : ∀ a ∈ rest, a ∈ plan.recipients)
    (hpattern : ∀ a ∈ plan.recipients, Ledger.accountPattern a = true)
    (hadditions : ∀ a secret, additions.get? a = some secret →
      a ∈ plan.recipients ∧ Names output w a secret) :
    (collect output plan tokens stored rest additions).Alone inode (Keeps accounts output plan) w
      (fun all t => Sound accounts output plan t ∧ Grows output w t ∧
        (∀ a secret, all.get? a = some secret → a ∈ plan.recipients ∧ Names output t a secret) ∧
        (∀ a, a ∈ rest ∨ additions.contains a = true → all.contains a = true) ∧
        ((∀ a ∈ rest, ∃ text, (w.batch output).drafts.get? a = some text) → t = w))
      fun _ t => Sound accounts output plan t ∧ Grows output w t ∧ ¬Readable output t := by
  induction rest generalizing w additions with
  | nil =>
    exact ⟨hw, .refl output w, hadditions,
      fun a ha => ha.resolve_left List.not_mem_nil, fun _ => rfl⟩
  | cons actor rest ih =>
    have hactor := hrest actor List.mem_cons_self
    refine Routine.ensures_bind.mpr ((alone_provide hw hplan hstored hactor
      (hpattern actor hactor)).mono (fun secret t ht => ?_) fun _ _ h => h)
    obtain ⟨hsound, hgrows, hnames, hsame⟩ := ht
    have hagrees : (stored.get? actor).all (· == secret) = true := by
      cases hget : stored.get? actor with
      | none => rfl
      | some other =>
        have hcredential : t.credential? actor = some other :=
          (Site.credential?_of_stored (hgrows.stored.trans hstored) actor).trans hget
        exact beq_iff_eq.mpr ((hsound.held actor hactor other hcredential).unique hnames)
    refine Routine.ensures_bind.mpr (ensures_require.mpr ⟨fun _ => ?_, fun h => by
      rw [hagrees] at h; cases h⟩)
    refine (ih hsound (hgrows.plan ▸ hplan) (hgrows.stored.trans hstored)
      (fun a ha => hrest a (List.mem_cons_of_mem actor ha)) ?_).mono ?_ ?_
    · intro a other ha
      rw [Dict.get?_set] at ha
      split_ifs at ha with heq
      · obtain rfl := Option.some.inj ha
        exact heq ▸ ⟨hactor, hnames⟩
      · exact (hadditions a other ha).imp_right (·.grows hgrows)
    · rintro all u ⟨hu, htu, hall, hcontains, hstays⟩
      refine ⟨hu, hgrows.trans htu, hall, fun a ha => hcontains a ?_, fun hdrafts => ?_⟩
      · rw [List.mem_cons] at ha
        simp only [Dict.contains, Dict.get?_set] at ha ⊢
        split_ifs with heq
        · exact .inr rfl
        · exact ha.imp_left fun h => h.resolve_left fun h => heq h.symm
      · obtain rfl := hsame (hdrafts actor List.mem_cons_self)
        exact hstays fun a ha => hdrafts a (List.mem_cons_of_mem actor ha)
    · exact fun _ u hu => ⟨hu.1, hgrows.trans hu.2.1, hu.2.2⟩

/-- Adopting the plan. -/
lemma alone_adoptPlan (hw : Sound accounts output plan w) (hstored : w.stored = some stored) :
    (adoptPlan output plan stored).Alone inode (Keeps accounts output plan) w
      (fun _ t => Sound accounts output plan t ∧
        (t.batch output).plan = some (plan.recipients, plan.amount) ∧
        (t.batch output).drafts = (w.batch output).drafts ∧ t.stored = w.stored ∧
        t.locks = w.locks ∧ ((w.batch output).plan ≠ none → t = w))
      fun _ _ => False := by
  refine Routine.ensures_bind.mpr (alone_access fun _ => ⟨id, ?_⟩)
  simp only [FileCall.exec]
  rcases hw.planned with hnone | hsome
  · obtain ⟨hsize, hunregistered⟩ := hw.unplanned hnone
    have hfree : plan.recipients.any stored.contains = false := by
      refine List.any_eq_false.mpr fun a ha => ?_
      rw [Dict.contains, ← Site.credential?_of_stored hstored, hunregistered a ha]
      simp
    simp only [hnone]
    refine Routine.ensures_bind.mpr (ensures_require.mpr ⟨fun _ => ?_, fun h => by
      rw [hfree] at h; cases h⟩)
    refine Routine.ensures_bind.mpr (alone_access fun _ => ⟨id, ?_⟩)
    simp only [FileCall.exec]
    refine Routine.ensures_bind.mpr (ensures_require.mpr ⟨fun _ => ?_, fun h => by
      rw [hsize] at h; cases h⟩)
    refine alone_access fun _ => ?_
    have hsound : Sound accounts output plan (w.setBatch output
        { (w.batch output) with plan := some (plan.recipients, plan.amount) }) := by
      constructor
      · exact hw.isPrivate
      · exact hw.faucet
      · exact hw.others
      · rw [Site.batch_setBatch]
        exact .inr rfl
      · rw [Site.batch_setBatch]
        intro h
        cases h
      · rw [Site.batch_setBatch]
        exact hw.filed
      · intro a ha secret hsecret
        cases (hunregistered a ha).symm.trans hsecret
    refine ⟨fun _ => hsound, hsound, ?_, ?_, rfl, rfl, fun h => absurd rfl h⟩
    · rw [FileCall.exec, Site.batch_setBatch]
    · rw [FileCall.exec, Site.batch_setBatch]
  · simp only [hsome]
    exact ensures_require.mpr ⟨fun _ => ⟨hw, hsome, rfl, rfl, rfl, fun _ => rfl⟩, fun h => by
      simp at h⟩

/-- Replacing the registry by one with the credentials of the drafts. -/
lemma Sound.replaceRegistry (hw : Sound accounts output plan w)
    (hplan : (w.batch output).plan = some (plan.recipients, plan.amount))
    (hstored : w.stored = some stored)
    (hadditions : ∀ a secret, additions.get? a = some secret →
      a ∈ plan.recipients ∧ Names output w a secret)
    (hall : ∀ a ∈ plan.recipients, additions.contains a = true) :
    Sound accounts output plan (w.replaceRegistry (stored.update additions)) ∧
      Completed output plan (w.replaceRegistry (stored.update additions)) := by
  have hcredential : ∀ a, (w.replaceRegistry (stored.update additions)).credential? a =
      (additions.get? a).or (w.credential? a) := fun a => by
    rw [Site.credential?_of_stored (Site.stored_replaceRegistry ..), Dict.get?_update,
      Site.credential?_of_stored hstored]
  have hregistered : ∀ a ∈ plan.recipients, ∃ secret, additions.get? a = some secret ∧
      (w.replaceRegistry (stored.update additions)).credential? a = some secret := fun a ha => by
    obtain ⟨secret, hsecret⟩ := Dict.contains_iff.mp (hall a ha)
    exact ⟨secret, hsecret, by rw [hcredential, hsecret, Option.some_or]⟩
  refine ⟨⟨?_, ?_, ?_, hw.planned, ?_, hw.filed, ?_⟩, ⟨hplan, ?_⟩⟩
  · simp [Site.replaceRegistry]
  · rw [hcredential]
    obtain ⟨secret, hsecret⟩ := hw.faucet
    cases additions.get? "testnet_faucet" with
    | none => exact ⟨secret, hsecret⟩
    | some other => exact ⟨other, rfl⟩
  · intro a ha
    have hnone : additions.get? a = none :=
      Option.eq_none_iff_forall_not_mem.mpr fun secret hsecret => ha (hadditions a secret hsecret).1
    rw [hcredential, hnone, Option.none_or, hw.others a ha]
  · exact fun hunplanned => by cases hplan.symm.trans hunplanned
  · intro a ha secret hsecret
    obtain ⟨other, hother, hnew⟩ := hregistered a ha
    obtain rfl := Option.some.inj (hnew.symm.trans hsecret)
    exact (hadditions a other hother).2
  · intro a ha
    obtain ⟨secret, hsecret, hnew⟩ := hregistered a ha
    exact ⟨secret, hnew, (hadditions a secret hsecret).2⟩

/-- Registering the credentials of the drafts. -/
lemma alone_register (hw : Sound accounts output plan w)
    (hplan : (w.batch output).plan = some (plan.recipients, plan.amount))
    (hstored : w.stored = some stored)
    (hadditions : ∀ a secret, additions.get? a = some secret →
      a ∈ plan.recipients ∧ Names output w a secret)
    (hall : ∀ a ∈ plan.recipients, additions.contains a = true) :
    (register stored additions).Alone inode (Keeps accounts output plan) w
      (fun _ t => Sound accounts output plan t ∧ t.locks = w.locks ∧ Completed output plan t ∧
        (Completed output plan w → t = w))
      fun _ _ => False := by
  unfold register
  split_ifs with hsame
  · rw [List.all_eq_true] at hsame
    refine ⟨hw, rfl, ⟨hplan, fun a ha => ?_⟩, fun _ => rfl⟩
    obtain ⟨secret, hsecret⟩ := Dict.contains_iff.mp (hall a ha)
    have hget := beq_iff_eq.mp (hsame _ (Dict.get?_eq_some_iff.mp hsecret))
    exact ⟨secret, (Site.credential?_of_stored hstored a).trans hget,
      (hadditions a secret hsecret).2⟩
  · have hagrees : (additions.entries.all fun p => (stored.get? p.1).all (· == p.2)) = true := by
      refine List.all_eq_true.mpr fun p hp => ?_
      obtain ⟨hrecipient, hnames⟩ := hadditions p.1 p.2 (Dict.get?_eq_some_iff.mpr hp)
      cases hget : stored.get? p.1 with
      | none => rfl
      | some other => exact beq_iff_eq.mpr ((hw.held p.1 hrecipient other
          ((Site.credential?_of_stored hstored _).trans hget)).unique hnames)
    refine Routine.ensures_bind.mpr (Routine.ensures_bind.mpr (alone_access fun _ => ⟨id, ?_⟩))
    simp only [FileCall.exec, hstored]
    refine Routine.ensures_bind.mpr (ensures_require.mpr ⟨fun _ => ?_, fun h => by
      rw [hagrees] at h; cases h⟩)
    obtain ⟨hsound, hcompleted⟩ := hw.replaceRegistry hplan hstored hadditions hall
    refine alone_access fun _ => ⟨fun _ => hsound, hsound, rfl, hcompleted, fun hdone => ?_⟩
    refine absurd (List.all_eq_true.mpr fun p hp => ?_) hsame
    obtain ⟨hrecipient, hnames⟩ := hadditions p.1 p.2 (Dict.get?_eq_some_iff.mpr hp)
    obtain ⟨secret, hsecret, hheld⟩ := hdone.registered p.1 hrecipient
    rw [Site.credential?_of_stored hstored] at hsecret
    rw [hsecret, hheld.unique hnames]
    exact beq_self_eq_true _

/-- What is done under the lock of the directory. -/
lemma alone_prepareLocked (hw : Sound accounts output plan w)
    (hpattern : ∀ a ∈ plan.recipients, Ledger.accountPattern a = true) :
    (prepareLocked output plan tokens).Alone inode (Keeps accounts output plan) w
      (fun _ t => Sound accounts output plan t ∧ t.locks = w.locks ∧ Readable output w ∧
        Completed output plan t ∧ (Completed output plan w → t = w))
      fun _ t => Sound accounts output plan t ∧ t.locks = w.locks ∧ ¬Readable output w := by
  obtain ⟨faucet, hfaucet⟩ := hw.faucet
  obtain ⟨stored, hstored, hget⟩ := Option.bind_eq_some_iff.mp hfaucet
  refine Routine.ensures_bind.mpr (alone_access fun _ => ⟨id, ?_⟩)
  refine Routine.ensures_bind.mpr (ensures_require.mpr ⟨fun _ => ?_, fun h => by
    cases hw.isPrivate.symm.trans h⟩)
  refine Routine.ensures_bind.mpr (Routine.ensures_bind.mpr (alone_access fun _ => ⟨id, ?_⟩))
  simp only [FileCall.exec, hstored]
  refine Routine.ensures_bind.mpr (ensures_require.mpr ⟨fun _ => ?_, fun h => by
    rw [Dict.contains, hget] at h; cases h⟩)
  refine Routine.ensures_bind.mpr ((alone_adoptPlan hw hstored).mono (fun _ t ht => ?_)
    fun _ _ h => h.elim)
  obtain ⟨hsound, hplan, hdrafts, htstored, hlocks, hsame⟩ := ht
  have hreadable : Readable output t ↔ Readable output w := by rw [Readable, hdrafts, Readable]
  have hplanned : (t.batch output).plan ≠ none := by
    rw [hplan]
    exact Option.some_ne_none _
  refine Routine.ensures_bind.mpr ((alone_collect hsound hplanned (htstored.trans hstored)
    (fun a ha => ha) hpattern fun _ _ h => by cases h).mono (fun additions u hu => ?_)
      fun _ u hu => ?_)
  · obtain ⟨husound, hgrows, hadditions, hcontains, hstays⟩ := hu
    have hall : ∀ a ∈ plan.recipients, additions.contains a = true :=
      fun a ha => hcontains a (.inl ha)
    refine (alone_register husound (hgrows.plan.trans hplan)
      (hgrows.stored.trans (htstored.trans hstored)) hadditions hall).mono ?_ fun _ _ h => h.elim
    rintro - v ⟨hvsound, hvlocks, hcompleted, hunchanged⟩
    refine ⟨hvsound, hvlocks.trans (hgrows.locks.trans hlocks), hreadable.mp ?_, hcompleted, ?_⟩
    · intro a text htext
      obtain ⟨secret, hsecret⟩ := Dict.contains_iff.mp (hall a (hsound.filed a text htext))
      obtain ⟨text', htext', hcredential⟩ := (hadditions a secret hsecret).2
      obtain rfl := Option.some.inj ((hgrows.drafts a text htext).symm.trans htext')
      exact ⟨secret, hcredential⟩
    · intro hdone
      have hwplanned : (w.batch output).plan ≠ none := by
        rw [hdone.planned]
        exact Option.some_ne_none _
      obtain rfl := hsame hwplanned
      have hdrafted : ∀ a ∈ plan.recipients, ∃ text,
          (t.batch output).drafts.get? a = some text := by
        intro a ha
        obtain ⟨_, _, text, htext, -⟩ := hdone.registered a ha
        exact ⟨text, htext⟩
      obtain rfl := hstays hdrafted
      exact hunchanged hdone
  · exact ⟨hu.1, hu.2.1.locks.trans hlocks,
      fun h => hu.2.2 ((hreadable.mpr h).grows hu.2.1)⟩

/-- The locks are no part of what a preparation leaves. -/
lemma Sound.of_locks {locks : List String} (hw : Sound accounts output plan w) :
    Sound accounts output plan { w with locks := locks } :=
  ⟨hw.isPrivate, hw.faucet, hw.others, hw.planned, hw.unplanned, hw.filed, hw.held⟩

/-- **A preparation.** It completes exactly where every draft names a credential, and it changes
nothing where a preparation has completed.

**Proof sketch.** The plan is adopted, every recipient has a draft then, and the registry gets the
credentials of the drafts. The only check that may fail is that of a draft. -/
lemma alone_prepare (hw : Sound accounts output plan w) (hlock : output ∉ w.locks)
    (hpattern : ∀ a ∈ plan.recipients, Ledger.accountPattern a = true) :
    (prepare output plan tokens).Alone inode (Keeps accounts output plan) w
      (fun _ t => Sound accounts output plan t ∧ output ∉ t.locks ∧ Readable output w ∧
        Completed output plan t ∧ (Completed output plan w → t = w))
      fun _ t => Sound accounts output plan t ∧ output ∉ t.locks ∧ ¬Readable output w := by
  have hsound : Sound accounts output plan { w with locks := output :: w.locks } := hw.of_locks
  have hfree : (output :: w.locks).filter (· ≠ output) = w.locks := by
    rw [List.filter_cons_of_neg (by simp), List.filter_eq_self]
    exact fun other hother => decide_eq_true fun heq => hlock (heq ▸ hother)
  refine Routine.ensures_bind.mpr (alone_access fun _ => ?_)
  simp only [FileCall.exec, if_neg hlock]
  refine ⟨fun _ => hsound, Routine.ensures_bind.mpr (ensures_require.mpr ⟨fun _ => ?_,
    fun h => by cases h⟩)⟩
  refine Routine.ensures_ensuring.mpr ((alone_prepareLocked hsound hpattern).mono ?_ ?_)
  · rintro - t ⟨ht, hlocks, hreadable, hcompleted, hstays⟩
    refine alone_access fun _ => ⟨fun _ => ht.of_locks, ht.of_locks, ?_, hreadable,
      ⟨hcompleted.planned, hcompleted.registered⟩, fun hdone => ?_⟩
    · rw [FileCall.exec, hlocks, hfree]
      exact hlock
    · obtain rfl := hstays ⟨hdone.planned, hdone.registered⟩
      rw [FileCall.exec, hfree]
  · rintro - t ⟨ht, hlocks, hunreadable⟩
    refine alone_access fun _ => ⟨fun _ => ht.of_locks, ht.of_locks, ?_, hunreadable⟩
    rw [FileCall.exec, hlocks, hfree]
    exact hlock

/-- A preparation that completes. -/
lemma Sound.run_prepare {reply : NodeReply ν} {t : Site ν} (hw : Sound accounts output plan w)
    (hlock : output ∉ w.locks) (hpattern : ∀ a ∈ plan.recipients, Ledger.accountPattern a = true)
    (h : (prepare output plan tokens).run (FileCall.exec inode) reply w = (.ok (), t)) :
    Sound accounts output plan t ∧ output ∉ t.locks ∧ Readable output w ∧
      Completed output plan t ∧ (Completed output plan w → t = w) := by
  have hprepare : (prepare output plan tokens).Alone inode (Keeps accounts output plan) w _ _ :=
    alone_prepare hw hlock hpattern
  have hend := (hprepare.run reply).1 ()
  rw [h] at hend
  exact hend rfl

/-- Where every draft names a credential a preparation completes. -/
lemma Sound.exists_run_prepare (hw : Sound accounts output plan w) (hlock : output ∉ w.locks)
    (hpattern : ∀ a ∈ plan.recipients, Ledger.accountPattern a = true)
    (hreadable : Readable output w) (tokens : String → Secret) (reply : NodeReply ν) :
    ∃ t, (prepare output plan tokens).run (FileCall.exec inode) reply w = (.ok (), t) := by
  have hprepare : (prepare output plan tokens).Alone inode (Keeps accounts output plan) w _ _ :=
    alone_prepare hw hlock hpattern
  have hend := (hprepare.run reply).2
  cases hx : (prepare output plan tokens).run (FileCall.exec inode) reply w with
  | mk result t =>
    rw [hx] at hend
    cases result with
    | ok a => exact ⟨t, rfl⟩
    | error e => exact absurd hreadable (hend e rfl).2.2

/-- After a preparation every draft names a credential. -/
lemma Completed.readable (h : Completed output plan w) (hw : Sound accounts output plan w) :
    Readable output w := by
  intro actor text htext
  obtain ⟨secret, -, text', htext', hsecret⟩ := h.registered actor (hw.filed actor text htext)
  obtain rfl := Option.some.inj (htext.symm.trans htext')
  exact ⟨secret, hsecret⟩

end Alone

end Preparation

/-! ## Kills and reruns -/

/-- The files, and the preparation under way. -/
structure Preparation (ν : Type) where
  site : Site ν
  running : Option (FileRoutine ν Unit)

/-- What happens to a preparation: it is started with new random texts, makes an access, or is
killed. -/
inductive PreparationEvent (ν : Type) where
  | prepare (tokens : String → Secret)
  | step (reply : NodeReply ν)
  | kill

namespace Preparation

section Machine

variable (inode : ℕ → ℕ) (output : String) (plan : Plan)

/-- One event. A kill ends the preparation under way and frees its lock; the other files stay as
they are. -/
def step (m : Preparation ν) : PreparationEvent ν → Option (Preparation ν)
  | .prepare tokens =>
    match m.running with
    | none => some { m with running := some (prepare output plan tokens) }
    | some _ => none
  | .step reply =>
    match m.running with
    | none => none
    | some (.call call next) =>
      let (answer, site) := call.exec inode reply m.site
      some ⟨site, some (next answer)⟩
    | some _ => some { m with running := none }
  | .kill => some ⟨((FileCall.unlockBatch output).exec inode .lost m.site).2, none⟩

end Machine

/-- What holds however often a preparation was killed. -/
structure Regular (inode : ℕ → ℕ) (accounts : Dict String String) (output : String) (plan : Plan)
    (m : Preparation ν) : Prop where
  sound : Sound accounts output plan m.site
  ends : ∀ x, m.running = some x → x.Alone inode (Keeps accounts output plan) m.site
    (fun _ t => output ∉ t.locks) fun _ t => output ∉ t.locks
  rests : m.running = none → output ∉ m.site.locks

section Runs

variable {inode : ℕ → ℕ} {accounts : Dict String String} {output : String} {plan : Plan}
  {m m' : Preparation ν} {w : Site ν}

/-- **One event** leaves a preparation regular. -/
lemma Regular.step (h : Regular inode accounts output plan m)
    (hpattern : ∀ a ∈ plan.recipients, Ledger.accountPattern a = true) {e : PreparationEvent ν}
    (hstep : m.step inode output plan e = some m') : Regular inode accounts output plan m' := by
  cases e with
  | prepare tokens =>
    rw [Preparation.step] at hstep
    cases hrunning : m.running with
    | some x =>
      rw [hrunning] at hstep
      cases hstep
    | none =>
      rw [hrunning] at hstep
      obtain rfl := Option.some.inj hstep
      refine ⟨h.sound, fun x hx => ?_, nofun⟩
      obtain rfl := Option.some.inj hx
      exact (alone_prepare h.sound (h.rests hrunning) hpattern).mono (fun _ _ ht => ht.2.1)
        fun _ _ ht => ht.2.1
  | step reply =>
    rw [Preparation.step] at hstep
    cases hrunning : m.running with
    | none =>
      rw [hrunning] at hstep
      cases hstep
    | some x =>
      rw [hrunning] at hstep
      have hx := h.ends x hrunning
      cases x with
      | ret a =>
        obtain rfl := Option.some.inj hstep
        exact ⟨h.sound, nofun, fun _ => hx⟩
      | raise e =>
        obtain rfl := Option.some.inj hstep
        exact ⟨h.sound, nofun, fun _ => hx⟩
      | call call next =>
        obtain rfl := Option.some.inj hstep
        obtain ⟨hkeeps, hnext⟩ := hx m.site rfl trivial reply
        refine ⟨hkeeps h.sound, fun y hy => ?_, nofun⟩
        obtain rfl := Option.some.inj hy
        exact hnext
  | kill =>
    obtain rfl := Option.some.inj hstep
    refine ⟨h.sound.of_locks, nofun, fun _ => ?_⟩
    simp [FileCall.exec]

/-- Before the first preparation the registry has the faucet and none of the recipients, and the
directory is empty. -/
structure Fresh (accounts : Dict String String) (output : String) (plan : Plan) (w : Site ν) :
    Prop where
  registry : w.files[w.registry]? = some ⟨true, some accounts⟩
  faucet : accounts.contains "testnet_faucet" = true
  recipients : ∀ a ∈ plan.recipients, accounts.contains a = false
  batch : w.batch output = ⟨none, ∅⟩
  lock : output ∉ w.locks

/-- What a preparation finds the first time is what a killed one may leave. -/
lemma Fresh.sound (h : Fresh accounts output plan w) : Sound accounts output plan w := by
  have hstored : w.stored = some accounts := by rw [Site.stored, h.registry]; rfl
  have hcredential := Site.credential?_of_stored hstored
  have hnone : ∀ a ∈ plan.recipients, w.credential? a = none := fun a ha => by
    rw [hcredential]
    exact Option.isSome_eq_false_iff.mp (h.recipients a ha) |> Option.isNone_iff_eq_none.mp
  constructor
  · rw [h.registry]
    rfl
  · rw [hcredential]
    exact Dict.contains_iff.mp h.faucet
  · exact fun a _ => hcredential a
  · rw [h.batch]
    exact .inl rfl
  · exact fun _ => ⟨by rw [h.batch]; rfl, hnone⟩
  · intro a text htext
    rw [h.batch] at htext
    cases htext
  · intro a ha secret hsecret
    cases (hnone a ha).symm.trans hsecret

/-- **Resuming.** A preparation with the same plan completes, every recipient is registered with the
credential of its draft then, the other credentials are as they were in `accounts`, and one more
preparation changes nothing. -/
def Resumes (inode : ℕ → ℕ) (accounts : Dict String String) (output : String) (plan : Plan)
    (w : Site ν) : Prop :=
  ∀ tokens reply, ∃ t,
    (prepare output plan tokens).run (FileCall.exec inode) reply w = (.ok (), t) ∧
    (∀ actor ∈ plan.recipients, ∃ secret,
      t.credential? actor = some secret ∧ Names output t actor secret) ∧
    (∀ actor ∉ plan.recipients, t.credential? actor = accounts.get? actor) ∧
    ∀ tokens reply, (prepare output plan tokens).run (FileCall.exec inode) reply t = (.ok (), t)

/-- **When a killed preparation can be resumed.** After any run of preparations that were killed at
any points, a preparation with the same plan completes as it should exactly when every draft names a
credential, that is, unless a preparation was killed after it had created a draft and before it had
written the credential there.

**Proof sketch.** What a killed preparation leaves is kept by every access. From there a preparation
fails only at a draft without a credential, and the next one finds nothing to do. -/
theorem prepare_resumes (stem : String) (count amount : ℤ) (genesis : GenesisConfig)
    (hplan : planFor stem count amount genesis = .ok plan) (hfresh : Fresh accounts output plan w)
    (es : List (PreparationEvent ν))
    (hrun : Transition.run (Preparation.step inode output plan) ⟨w, none⟩ es = some m)
    (hrest : m.running = none) :
    Resumes inode accounts output plan m.site ↔ Readable output m.site := by
  have hpattern := accountPattern_of_planFor hplan
  have hregular : Regular inode accounts output plan m :=
    run_induction (I := Regular inode accounts output plan)
      (fun _ _ _ hm hstep => hm.step hpattern hstep)
      ⟨hfresh.sound, (fun _ h => by cases h), fun _ => hfresh.lock⟩ hrun
  have hlock := hregular.rests hrest
  refine ⟨fun hresumes => ?_, fun hreadable tokens reply => ?_⟩
  · obtain ⟨t, ht, -⟩ := hresumes default .lost
    exact (hregular.sound.run_prepare hlock hpattern ht).2.2.1
  · obtain ⟨t, ht⟩ := hregular.sound.exists_run_prepare hlock hpattern hreadable tokens reply
    obtain ⟨hsound, htlock, -, hcompleted, -⟩ := hregular.sound.run_prepare hlock hpattern ht
    refine ⟨t, ht, hcompleted.registered, hsound.others, fun tokens' reply' => ?_⟩
    obtain ⟨u, hu⟩ := hsound.exists_run_prepare htlock hpattern (hcompleted.readable hsound)
      tokens' reply'
    obtain rfl := (hsound.run_prepare htlock hpattern hu).2.2.2.2 hcompleted
    exact hu

end Runs

/-! ## A draft that is killed -/

section Example

/-- A network whose faucet has ten units. -/
def friendGenesis : GenesisConfig := ⟨"friends", 10, Dict.ofList [("testnet_faucet", 10)], []⟩

/-- Five units for each of two friends. -/
def friendPlan : Plan := ⟨["friend001", "friend002"], 5, by decide⟩

/-- A registry of the faucet alone. -/
def faucetAccounts : Dict String String := Dict.ofList [("testnet_faucet", "secret")]

/-- The files before the first preparation. -/
def friendSite : Site ℤ :=
  { files := [⟨true, some faucetAccounts⟩], registry := 0, queue := ∅, requests := ∅, heard := []
    batches := ∅, locks := [], temporary := none, outputs := ∅ }

/-- The plan for two friends. -/
lemma planFor_friend : planFor "friend" 2 5 friendGenesis = .ok friendPlan := by
  have haccounts : accountsFor "friend" 2 = .ok friendPlan.recipients := by decide +kernel
  rw [planFor, dif_pos (by decide : (1 : ℤ) ≤ 5), haccounts]
  rfl

/-- The directory before the first preparation. -/
lemma fresh_friendSite : Fresh faucetAccounts "distribution" friendPlan friendSite :=
  ⟨rfl, rfl, by decide, rfl, by decide⟩

/-- The draft for the first of the two friends. -/
def friendDraft : String := draft "friend001" (default : Secret).1 5

/-- A preparation that is killed when it has written its first draft. -/
def draftedEvents : List (PreparationEvent ℤ) :=
  .prepare default :: List.replicate (8 + friendDraft.length) (.step .lost) ++ [.kill]

/-- It can be resumed, since the only draft names a credential. -/
theorem prepare_resumes_friendSite : ∃ m : Preparation ℤ,
    Transition.run (Preparation.step id "distribution" friendPlan) ⟨friendSite, none⟩
        draftedEvents = some m ∧ m.running = none ∧
      m.site.batch "distribution" =
        ⟨some (friendPlan.recipients, 5), Dict.ofList [("friend001", friendDraft)]⟩ ∧
      Resumes id faucetAccounts "distribution" friendPlan m.site := by
  have hrun : (Transition.run (Preparation.step id "distribution" friendPlan) ⟨friendSite, none⟩
      draftedEvents).any (fun m => m.running.isNone && decide (m.site.batch "distribution" =
        ⟨some (friendPlan.recipients, 5), Dict.ofList [("friend001", friendDraft)]⟩)) = true := by
    decide +kernel
  obtain ⟨m, hm, hends⟩ := (Option.any_eq_true _ _).mp hrun
  rw [Bool.and_eq_true, Option.isNone_iff_eq_none, decide_eq_true_eq] at hends
  refine ⟨m, hm, hends.1, hends.2, (prepare_resumes "friend" 2 5 friendGenesis planFor_friend
    fresh_friendSite _ hm hends.1).mpr fun actor text htext => ?_⟩
  rw [hends.2] at htext
  have hentries := Dict.get?_eq_some_iff.mp htext
  obtain ⟨rfl, rfl⟩ := Prod.mk.inj (List.mem_singleton.mp hentries)
  exact ⟨_, credential_draft (by decide) (default : Secret).2 5⟩

/-- A preparation that is killed when it has created its first draft. -/
def killedEvents : List (PreparationEvent ℤ) :=
  .prepare default :: List.replicate 8 (.step .lost) ++ [.kill]

/-- **A draft that is killed.** A preparation that was killed when it had created its first draft
cannot be resumed: its next run finds no credential in the draft. -/
theorem exists_not_resumes : ∃ (m : Preparation ℤ), planFor "friend" 2 5 friendGenesis = .ok friendPlan ∧
    Fresh faucetAccounts "distribution" friendPlan friendSite ∧
    Transition.run (Preparation.step id "distribution" friendPlan) ⟨friendSite, none⟩ killedEvents =
      some m ∧ m.running = none ∧
    ¬Resumes id faucetAccounts "distribution" friendPlan m.site := by
  refine ⟨⟨friendSite.setBatch "distribution" ⟨some (friendPlan.recipients, 5),
    Dict.ofList [("friend001", "")]⟩, none⟩, planFor_friend, fresh_friendSite, rfl, rfl,
    fun h => ?_⟩
  obtain ⟨t, ht, -⟩ := h default .lost
  cases congrArg Prod.fst ht

end Example

end Preparation

end SplitChain
