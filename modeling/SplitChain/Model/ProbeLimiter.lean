import Mathlib.Data.Rat.Defs
import Mathlib.Algebra.Order.Ring.Rat
import Mathlib.Tactic.Linarith
import SplitChain.Library.Dict
import SplitChain.Library.Transition

set_option relaxedAutoImplicit false
set_option autoImplicit false

/-!
# The limiter of node probes

The public status surface (`splitchain.public_status`) grants every address a number of probes in a
window of time that begins with the first request of the address, or with its first request after
the last window. One table holds the windows of all addresses; when it holds too many, it is
emptied.

## Main definitions

* `SplitChain.ProbeLimiter.allowNodesRequest` — one request.
* `SplitChain.ProbeLimiter.Entry`, `SplitChain.ProbeLimiter.step` — the log of a run.
* `SplitChain.ProbeLimiter.Limited` — no address is granted more than its share in a window.

## Main results

* `SplitChain.ProbeLimiter.limited_of_fits` — so it is while the table is not emptied.
* `SplitChain.ProbeLimiter.exists_run_not_limited` — and not when addresses enough come in between.
-/

namespace SplitChain.ProbeLimiter

open Transition

/-! ## One request -/

/-- `_NODES_WINDOW` -/
def nodesWindow : ℚ := 60

/-- `_NODES_LIMIT` -/
def nodesLimit : ℕ := 30

/-- How many windows the table may hold. -/
def tableSize : ℕ := 2048

/-- `_nodes_limits`: when the window of an address began, and how many requests it was granted. -/
abbrev Table := Dict String (ℚ × ℕ)

/-- The window of an address for a request, and the requests it was granted there. -/
def window (limits : Table) (client : String) (current : ℚ) : ℚ × ℕ :=
  let (started, count) := limits.getD client (current, 0)
  if nodesWindow ≤ current - started then (current, 0) else (started, count)

/-- Grant or refuse a request. -/
def allowNodesRequest (client : String) (current : ℚ) (limits : Table) : Bool × Table :=
  let (started, count) := window limits client current
  if nodesLimit ≤ count then (false, limits.set client (started, count))
  else
    let limits := limits.set client (started, count + 1)
    (true, if tableSize < limits.size then ∅ else limits)

/-! ## Runs -/

/-- A request and its answer. -/
structure Entry where
  client : String
  now : ℚ
  granted : Bool
deriving DecidableEq

/-- The table and the requests so far, the newest first. -/
structure State where
  limits : Table
  log : List Entry
deriving DecidableEq

/-- The limiter before its first request. -/
def initial : State := ⟨∅, []⟩

/-- A request. The clock does not go back. -/
def step (s : State) (request : String × ℚ) : Option State :=
  if ∀ e ∈ s.log, e.now ≤ request.2 then
    some ⟨(allowNodesRequest request.1 request.2 s.limits).2,
      ⟨request.1, request.2, (allowNodesRequest request.1 request.2 s.limits).1⟩ :: s.log⟩
  else none

/-! ## Windows -/

/-- When the current window of an address began. -/
def windowStart (client : String) : List Entry → Option ℚ
  | [] => none
  | e :: log =>
    if e.client = client then
      match windowStart client log with
      | some started => if nodesWindow ≤ e.now - started then some e.now else some started
      | none => some e.now
    else windowStart client log

/-- Whether a request at this time is the first of a window of an address. -/
def Opens (client : String) (now : ℚ) (log : List Entry) : Prop :=
  ∀ started, windowStart client log = some started → nodesWindow ≤ now - started

/-- The requests of an address that were granted before a time. -/
def grantedBefore (client : String) (deadline : ℚ) (log : List Entry) : ℕ :=
  log.countP fun e => e.client = client ∧ e.granted ∧ e.now < deadline

/-- **No address is granted more than its share** between the first request of one of its windows
and the end of that window. -/
def Limited (log : List Entry) : Prop :=
  ∀ after e before, log = after ++ e :: before → Opens e.client e.now before →
    grantedBefore e.client (e.now + nodesWindow) (after ++ [e]) ≤ nodesLimit

/-- The table has room for a request: it is not emptied. -/
def Fits (s : State) (request : String × ℚ) : Prop :=
  s.limits.contains request.1 = true ∨ s.limits.size < tableSize

/-- What the table says about the log: the window of every address, and of every window that an
address has opened how many of its requests were granted. -/
structure Faithful (s : State) : Prop where
  size : s.limits.size ≤ tableSize
  started : ∀ c, (s.limits.get? c).map Prod.fst = windowStart c s.log
  past : ∀ c w, s.limits.get? c = some w → w.2 ≤ nodesLimit ∧ ∃ e ∈ s.log, e.now = w.1
  counted : ∀ after e before, s.log = after ++ e :: before → Opens e.client e.now before →
    ∃ w, s.limits.get? e.client = some w ∧
      (w.1 = e.now ∧ grantedBefore e.client (e.now + nodesWindow) (after ++ [e]) = w.2 ∨
        e.now + nodesWindow ≤ w.1 ∧
          grantedBefore e.client (e.now + nodesWindow) (after ++ [e]) ≤ nodesLimit)

/-! ## The table while it is not emptied -/

section Fits

variable {s t : State} {client : String} {now : ℚ}

/-- The entry that a request leaves. -/
def newEntry (w : ℚ × ℕ) : ℚ × ℕ := if nodesLimit ≤ w.2 then w else (w.1, w.2 + 1)

/-- An assignment for which there is room does not make the table too large. -/
lemma size_set_le (hsize : s.limits.size ≤ tableSize) (hfits : Fits s (client, now)) (w : ℚ × ℕ) :
    (s.limits.set client w).size ≤ tableSize := by
  cases hget : s.limits.get? client with
  | some v => exact (Dict.size_set_of_some w hget).trans_le hsize
  | none =>
    rcases hfits with hcontains | hlt
    · simp [Dict.contains, hget] at hcontains
    · rw [Dict.size_set_of_none w hget]
      exact hlt

/-- **A request for which there is room** counts in its window. -/
lemma allowNodesRequest_of_fits (hsize : s.limits.size ≤ tableSize) (hfits : Fits s (client, now)) :
    allowNodesRequest client now s.limits =
      (decide ((window s.limits client now).2 < nodesLimit),
        s.limits.set client (newEntry (window s.limits client now))) := by
  unfold allowNodesRequest newEntry
  by_cases h : nodesLimit ≤ (window s.limits client now).2
  · simp only [h, if_true, Nat.not_lt.mpr h, decide_false]
  · simp only [h, if_false, Nat.not_le.mp h, decide_true,
      Nat.not_lt.mpr (size_set_le hsize hfits _)]

/-- A request opens a window or counts in the one that the table has. -/
lemma window_eq (client : String) (now : ℚ) (hs : Faithful s) :
    Opens client now s.log ∧ window s.limits client now = (now, 0) ∨
      ∃ w, s.limits.get? client = some w ∧ now < w.1 + nodesWindow ∧
        window s.limits client now = w := by
  have hstarted := hs.started client
  unfold window Dict.getD
  cases hget : s.limits.get? client with
  | none =>
    rw [hget] at hstarted
    refine .inl ⟨fun started h => by simp [← hstarted] at h, ?_⟩
    simp [nodesWindow]
  | some w =>
    rw [hget] at hstarted
    simp only [Option.getD_some]
    by_cases h : nodesWindow ≤ now - w.1
    · refine .inl ⟨fun started hw => ?_, if_pos h⟩
      rw [← hstarted] at hw
      exact Option.some.inj hw ▸ h
    · exact .inr ⟨w, rfl, by linarith, if_neg h⟩

end Fits

/-! ## Runs without emptying the table -/

/-- A new request counts before a time if it is granted by then. -/
lemma grantedBefore_cons {client : String} {deadline : ℚ} {e : Entry} {log : List Entry} :
    grantedBefore client deadline (e :: log) = grantedBefore client deadline log +
      if e.client = client ∧ e.granted = true ∧ e.now < deadline then 1 else 0 := by
  unfold grantedBefore
  rw [List.countP_cons]
  simp only [decide_eq_true_eq]

section Step

variable {s t : State} {client : String} {now : ℚ}

/-- What a step does. -/
lemma step_eq_some : step s (client, now) = some t ↔ (∀ e ∈ s.log, e.now ≤ now) ∧
      t = ⟨(allowNodesRequest client now s.limits).2,
        ⟨client, now, (allowNodesRequest client now s.limits).1⟩ :: s.log⟩ := by
  by_cases h : ∀ e ∈ s.log, e.now ≤ now
  · rw [step, if_pos h, Option.some.injEq, eq_comm]
    exact (and_iff_right h).symm
  · rw [step, if_neg h]
    exact iff_of_false nofun fun hstep => h hstep.1

/-- Before the first request there is no window. -/
lemma faithful_initial : Faithful initial where
  size := Nat.zero_le _
  started _ := rfl
  past _ _ h := by cases h
  counted after e before h := by
    have hlength := congrArg List.length h
    simp [initial] at hlength

/-- The window of an address lies in the past, and not too much has been granted in it. -/
lemma Faithful.window_le (hs : Faithful s) (hclock : ∀ e ∈ s.log, e.now ≤ now) {w : ℚ × ℕ}
    (hget : s.limits.get? client = some w) : w.1 ≤ now ∧ w.2 ≤ nodesLimit := by
  obtain ⟨hle, e, he, hnow⟩ := hs.past client w hget
  exact ⟨hnow ▸ hclock e he, hle⟩

/-- The table has the start of the window that the log says. -/
lemma Faithful.windowStart_cons (hs : Faithful s) {granted : Bool} :
    windowStart client (⟨client, now, granted⟩ :: s.log) =
      some (window s.limits client now).1 := by
  have hstarted := hs.started client
  unfold windowStart window Dict.getD
  rw [if_pos rfl, ← hstarted]
  cases s.limits.get? client with
  | none => simp [nodesWindow]
  | some w =>
    simp only [Option.map_some, Option.getD_some]
    split_ifs <;> rfl

/-- An entry keeps the start of its window. -/
@[simp] lemma fst_newEntry (w : ℚ × ℕ) : (newEntry w).1 = w.1 := by
  unfold newEntry
  split_ifs <;> rfl

/-- An entry does not count more than may be granted. -/
lemma snd_newEntry_le {w : ℚ × ℕ} (h : w.2 ≤ nodesLimit) : (newEntry w).2 ≤ nodesLimit := by
  unfold newEntry
  split_ifs with hfull
  · exact h
  · exact Nat.not_le.mp hfull

/-- **What a request does to the count of a window** of its address. It opens another window, and
then the old one is over; or it counts in the window that the table has. -/
lemma Faithful.counted_step (hs : Faithful s) (hclock : ∀ e ∈ s.log, e.now ≤ now) {opened : ℚ}
    {count : ℕ} {w : ℚ × ℕ} (hget : s.limits.get? client = some w)
    (hcase : w.1 = opened ∧ count = w.2 ∨ opened + nodesWindow ≤ w.1 ∧ count ≤ nodesLimit) :
    let w' := window s.limits client now
    let count' := count +
      if w'.2 < nodesLimit ∧ now < opened + nodesWindow then 1 else 0
    (newEntry w').1 = opened ∧ count' = (newEntry w').2 ∨
      opened + nodesWindow ≤ (newEntry w').1 ∧ count' ≤ nodesLimit := by
  have hle := hs.window_le hclock hget
  have hcount : count ≤ nodesLimit := by
    rcases hcase with ⟨-, rfl⟩ | ⟨-, h⟩
    · exact hle.2
    · exact h
  have hstarted := hs.started client
  rw [hget, Option.map_some] at hstarted
  intro w' count'
  rw [fst_newEntry]
  rcases window_eq client now hs with ⟨hopens, hw⟩ | ⟨v, hv, hwithin, hw⟩
  · -- the last window is over
    have hover : nodesWindow ≤ now - w.1 := hopens w.1 hstarted.symm
    have hlate : opened + nodesWindow ≤ now := by
      rcases hcase with ⟨h, -⟩ | ⟨h, -⟩
      · linarith
      · exact h.trans hle.1
    have hsame : count' = count := by
      simp only [count', Nat.add_eq_left, ite_eq_right_iff, Nat.one_ne_zero, imp_false, not_and,
        not_lt]
      exact fun _ => hlate
    exact .inr ⟨by simp only [w', hw]; exact hlate, hsame ▸ hcount⟩
  · obtain rfl : w = v := Option.some.inj (hget.symm.trans hv)
    have hw' : w' = w := hw
    rcases hcase with ⟨h, hc⟩ | ⟨h, -⟩
    · refine .inl ⟨by rw [hw', h], ?_⟩
      have htimely : now < opened + nodesWindow := h ▸ hwithin
      simp only [count', hw', newEntry, htimely, and_true]
      split_ifs <;> omega
    · have hlate : ¬now < opened + nodesWindow := not_lt.mpr (h.trans hle.1)
      refine .inr ⟨by rw [hw']; exact h, ?_⟩
      simpa only [count', hlate, and_false, if_false, Nat.add_zero] using hcount

/-- **A request for which there is room keeps the table faithful.**

**Proof sketch.** A window that is opened by an earlier request is a window of the old log; the
request itself opens a window if the last one is over. -/
lemma Faithful.step (hs : Faithful s) (hfits : Fits s (client, now))
    (ht : step s (client, now) = some t) : Faithful t := by
  obtain ⟨hclock, rfl⟩ := step_eq_some.mp ht
  rw [allowNodesRequest_of_fits hs.size hfits]
  constructor
  · exact size_set_le hs.size hfits _
  · intro c
    by_cases hc : client = c
    · subst hc
      rw [hs.windowStart_cons, Dict.get?_set_self, Option.map_some, fst_newEntry]
    · rw [Dict.get?_set_of_ne _ _ hc, windowStart, if_neg hc]
      exact hs.started c
  · intro c w hw
    by_cases hc : client = c
    · subst hc
      rw [Dict.get?_set_self, Option.some.injEq] at hw
      subst hw
      rcases window_eq client now hs with ⟨-, hw⟩ | ⟨w, hget, -, hw⟩
      · rw [hw]
        exact ⟨snd_newEntry_le (Nat.zero_le _), _, List.mem_cons_self,
          (fst_newEntry (now, (0 : ℕ))).symm⟩
      · obtain ⟨hle, e, he, hnow⟩ := hs.past client w hget
        rw [hw]
        exact ⟨snd_newEntry_le hle, e, List.mem_cons_of_mem _ he, hnow.trans (fst_newEntry _).symm⟩
    · rw [Dict.get?_set_of_ne _ _ hc] at hw
      obtain ⟨hle, e, he, hnow⟩ := hs.past c w hw
      exact ⟨hle, e, List.mem_cons_of_mem _ he, hnow⟩
  · intro after e before hlog hopens
    cases after with
    | nil =>
      obtain ⟨rfl, rfl⟩ := List.cons.inj hlog
      refine ⟨_, Dict.get?_set_self .., .inl ?_⟩
      rcases window_eq client now hs with ⟨-, hw⟩ | ⟨w, hget, hwithin, -⟩
      · rw [hw]
        simp [grantedBefore, newEntry, nodesLimit, nodesWindow]
      · have hstarted := hs.started client
        rw [hget, Option.map_some] at hstarted
        have hover := hopens w.1 hstarted.symm
        dsimp only at hover
        linarith
    | cons x after =>
      obtain ⟨rfl, hrest⟩ := List.cons.inj hlog
      obtain ⟨w, hget, hcase⟩ := hs.counted after e before hrest hopens
      rw [List.cons_append, grantedBefore_cons]
      by_cases hc : client = e.client
      · subst hc
        refine ⟨_, Dict.get?_set_self .., ?_⟩
        have hcounted := hs.counted_step hclock hget hcase
        simpa only [true_and, decide_eq_true_eq] using hcounted
      · rw [Dict.get?_set_of_ne _ _ hc]
        exact ⟨w, hget, by simpa only [hc, false_and, if_false, Nat.add_zero] using hcase⟩

end Step

/-- **The limiter is per address** while the table is not emptied: in every run whose requests all
find room, no address is granted more than its share in one of its windows, whatever the others do.

**Proof sketch.** The table stays faithful, and it never counts more than the share. -/
theorem limited_of_fits (requests : List (String × ℚ)) (s : State)
    (hrun : Transition.run step initial requests = some s)
    (hfits : Transition.Meets step Fits initial requests) : Limited s.log := by
  have hs : Faithful s := Transition.run_induction_of_meets
    (fun s e t hs hfits ht => Faithful.step hs hfits ht) faithful_initial hfits hrun
  intro after e before hlog hopens
  obtain ⟨w, hget, ⟨-, hcount⟩ | ⟨-, hcount⟩⟩ := hs.counted after e before hlog hopens
  · exact hcount.trans_le (hs.past _ _ hget).1
  · exact hcount

/-! ## Emptying the table -/

section Example

/-- The addresses that come in between. -/
def exampleClient (n : ℕ) : String := String.ofList (List.replicate n 'x')

/-- They are distinct. -/
lemma exampleClient_injective : Function.Injective exampleClient := by
  intro m n h
  have hlength := congrArg String.length h
  simpa [exampleClient] using hlength

/-- None of them is the address of the example. -/
lemma exampleClient_ne (n : ℕ) : exampleClient n ≠ "192.0.2.1" := by
  intro h
  have hmem : '1' ∈ List.replicate n 'x' := by
    have hchars := congrArg String.toList h
    rw [exampleClient, String.toList_ofList] at hchars
    rw [hchars]
    decide
  exact absurd (List.eq_of_mem_replicate hmem) (by decide)

/-- Requests of so many others at time 0. -/
def exampleOthers (count : ℕ) : List (String × ℚ) :=
  (List.range count).map fun n => (exampleClient n, 0)

/-- An address uses up its share at time 0, as many others as the table has room for make a request,
and the address makes one more. -/
def exampleRequests : List (String × ℚ) :=
  List.replicate nodesLimit ("192.0.2.1", 0) ++ (exampleOthers tableSize ++ [("192.0.2.1", 0)])

/-- The state after the address has used up its share. -/
def exampleFull : State :=
  ⟨(∅ : Table).set "192.0.2.1" (0, nodesLimit),
    List.replicate nodesLimit ⟨"192.0.2.1", 0, true⟩⟩

lemma run_exampleFull :
    run step initial (List.replicate nodesLimit ("192.0.2.1", 0)) = some exampleFull := by
  decide +kernel

/-- The state after so many others: each has an entry of its own. -/
structure Crowded (count : ℕ) (s : State) : Prop where
  size : s.limits.size = count + 1
  fresh : ∀ n, count ≤ n → s.limits.get? (exampleClient n) = none
  clock : ∀ e ∈ s.log, e.now = 0
  log : ∃ between, s.log = between ++ exampleFull.log

/-- A new address opens a window. -/
lemma window_fresh {limits : Table} {client : String} (h : limits.get? client = none) :
    window limits client 0 = (0, 0) := by
  simp [window, Dict.getD, h, nodesWindow]

/-- One more of the others, while there is room. -/
lemma Crowded.next {count : ℕ} {s : State} (hs : Crowded count s) (hroom : count + 1 < tableSize) :
    ∃ t, step s (exampleClient count, 0) = some t ∧ Crowded (count + 1) t := by
  have hnone := hs.fresh count le_rfl
  have hfits : Fits s (exampleClient count, 0) := .inr (hs.size.trans_lt hroom)
  refine ⟨_, step_eq_some.mpr ⟨fun e he => (hs.clock e he).le, rfl⟩, ?_⟩
  rw [allowNodesRequest_of_fits (hs.size.trans_le hroom.le) hfits, window_fresh hnone]
  obtain ⟨between, hlog⟩ := hs.log
  constructor
  · rw [Dict.size_set_of_none _ hnone, hs.size]
  · intro n hn
    have hne : exampleClient count ≠ exampleClient n := fun h =>
      absurd (exampleClient_injective h) (by omega)
    rw [Dict.get?_set_of_ne _ _ hne]
    exact hs.fresh n (by omega)
  · intro e he
    rcases List.mem_cons.mp he with rfl | he
    · rfl
    · exact hs.clock e he
  · exact ⟨_ :: between, congrArg (List.cons _) hlog⟩

/-- The others, as long as there is room. -/
lemma exists_crowded {count : ℕ} (hroom : count < tableSize) :
    ∃ s, run step exampleFull (exampleOthers count) = some s ∧ Crowded count s := by
  induction count with
  | zero =>
    refine ⟨exampleFull, rfl, rfl, fun n _ => ?_, fun e he => ?_, [], rfl⟩
    · exact (Dict.get?_set_of_ne _ _ (exampleClient_ne n).symm).trans (Dict.get?_empty _)
    · rw [List.eq_of_mem_replicate he]
  | succ count ih =>
    obtain ⟨s, hrun, hs⟩ := ih (by omega)
    obtain ⟨t, hstep, ht⟩ := hs.next hroom
    refine ⟨t, ?_, ht⟩
    rw [exampleOthers, List.range_succ, List.map_append]
    exact run_append_eq_some_iff.mpr ⟨s, hrun, run_cons_eq_some_iff.mpr ⟨t, hstep, rfl⟩⟩

/-- **The others take away the limit.** With 2048 other addresses in between, an address is granted
31 requests at one time. -/
theorem exists_run_not_limited :
    ∃ s, run step initial exampleRequests = some s ∧ ¬Limited s.log := by
  obtain ⟨s, hrun, hs⟩ : ∃ s, run step exampleFull (exampleOthers 2047) = some s ∧
      Crowded 2047 s := exists_crowded (by decide)
  have hnone := hs.fresh 2047 le_rfl
  -- the request of the last one empties the table
  have hlast : allowNodesRequest (exampleClient 2047) 0 s.limits = (true, ∅) := by
    have hsize : tableSize < (s.limits.set (exampleClient 2047) (0, 1)).size := by
      rw [Dict.size_set_of_none _ hnone, hs.size]
      decide
    unfold allowNodesRequest
    rw [window_fresh hnone]
    simp only [nodesLimit, Nat.reduceLeDiff, if_false, Nat.zero_add, if_pos hsize]
  have hagain : allowNodesRequest "192.0.2.1" 0 ∅ = (true, (∅ : Table).set "192.0.2.1" (0, 1)) := by
    decide +kernel
  obtain ⟨between, hlog⟩ := hs.log
  let last : Entry := ⟨exampleClient 2047, 0, true⟩
  let again : Entry := ⟨"192.0.2.1", 0, true⟩
  refine ⟨⟨(∅ : Table).set "192.0.2.1" (0, 1), again :: last :: s.log⟩, ?_, fun hlimited => ?_⟩
  · refine run_append_eq_some_iff.mpr ⟨exampleFull, run_exampleFull, run_append_eq_some_iff.mpr
      ⟨⟨∅, last :: s.log⟩, ?_, run_cons_eq_some_iff.mpr ⟨_, ?_, rfl⟩⟩⟩
    · rw [exampleOthers, tableSize, List.range_succ, List.map_append]
      refine run_append_eq_some_iff.mpr ⟨s, hrun, run_cons_eq_some_iff.mpr ⟨_, ?_, rfl⟩⟩
      refine step_eq_some.mpr ⟨fun e he => (hs.clock e he).le, ?_⟩
      rw [hlast]
    · refine step_eq_some.mpr ⟨fun e he => ?_, ?_⟩
      · rcases List.mem_cons.mp he with rfl | he
        · exact le_rfl
        · exact (hs.clock e he).le
      · rw [hagain]
  · let entry : Entry := ⟨"192.0.2.1", 0, true⟩
    have hsplit : again :: last :: s.log =
        (again :: last :: (between ++ List.replicate 29 entry)) ++ entry :: [] := by
      have hfull : exampleFull.log = List.replicate 29 entry ++ [entry] :=
        List.replicate_succ' (n := 29)
      rw [hlog, hfull]
      simp
    have hcount := hlimited _ _ _ hsplit fun _ h => by cases h
    rw [← hsplit, hlog] at hcount
    have hmany : nodesLimit < grantedBefore entry.client (entry.now + nodesWindow)
        (again :: last :: (between ++ exampleFull.log)) := by
      rw [grantedBefore_cons, if_pos (by decide +kernel)]
      have htail : nodesLimit ≤ grantedBefore entry.client (entry.now + nodesWindow)
          (last :: (between ++ exampleFull.log)) := by
        rw [← List.cons_append, grantedBefore, List.countP_append]
        refine le_add_left (le_of_eq ?_)
        decide +kernel
      omega
    exact absurd hcount (Nat.not_le.mpr hmany)

/-- A few requests find room, whosever they are. -/
lemma meets_fits_of_size_le {requests : List (String × ℚ)} {s : State}
    (h : s.limits.size + requests.length ≤ tableSize) : Meets step Fits s requests := by
  induction requests generalizing s with
  | nil => trivial
  | cons request requests ih =>
    obtain ⟨client, now⟩ := request
    rw [List.length_cons] at h
    have hfits : Fits s (client, now) := .inr (by omega)
    refine ⟨hfits, fun t ht => ih ?_⟩
    obtain ⟨-, rfl⟩ := step_eq_some.mp ht
    have hgrows : ∀ w : ℚ × ℕ, (s.limits.set client w).size ≤ s.limits.size + 1 := fun w => by
      cases hget : s.limits.get? client with
      | some v => exact (Dict.size_set_of_some w hget).trans_le (Nat.le_succ _)
      | none => exact (Dict.size_set_of_none w hget).le
    rw [allowNodesRequest_of_fits (by omega) hfits]
    have hsize := hgrows (newEntry (window s.limits client now))
    dsimp only
    omega

/-- An address uses up its share, another one makes a request, and the first one makes one more. -/
def exampleRefused : List (String × ℚ) :=
  List.replicate nodesLimit ("192.0.2.1", 0) ++ [("198.51.100.7", 1), ("192.0.2.1", 2)]

/-- The other address is granted its request, and the first one is refused the last one. -/
theorem limited_of_fits_refused : ∃ s, run step initial exampleRefused = some s ∧
    s.log.take 2 = [⟨"192.0.2.1", 2, false⟩, ⟨"198.51.100.7", 1, true⟩] ∧ Limited s.log := by
  have hrun : (run step initial exampleRefused).any (fun s =>
      decide (s.log.take 2 = [⟨"192.0.2.1", 2, false⟩, ⟨"198.51.100.7", 1, true⟩])) = true := by
    decide +kernel
  obtain ⟨s, hs, hlog⟩ := (Option.any_eq_true _ _).mp hrun
  exact ⟨s, hs, of_decide_eq_true hlog,
    limited_of_fits _ s hs (meets_fits_of_size_le (by decide +kernel))⟩

end Example

end SplitChain.ProbeLimiter
