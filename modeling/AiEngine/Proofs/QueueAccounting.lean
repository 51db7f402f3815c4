import AiEngine.Ref.QueuePool
import Mathlib.Data.List.Nodup

/-!
# The count of busy queues

`Pop` counts a queue before it has one. So the count is the number of queues
that are out and of the allocations that failed, and each of the latter takes
a place for good. All else that a pool is to keep it keeps in any case: the
queues that are out and those on the free list are different, and what lies
on the list is empty.
-/

namespace AiEngine.Ref

open AiEngine.Lib

variable {τ : Type}

namespace QueuePool

/-- The count, the free list and the queues that are out. -/
structure Ledger (s : QueuePool τ) : Prop where
  busy : s.pools.busyQueueNum = s.out.length + s.failed
  bounded : s.pools.busyQueueNum ≤ maxQueueCount
  nodup : (s.out ++ s.pools.queues).Nodup
  made : ∀ q ∈ s.out ++ s.pools.queues, q < s.pools.queueNum
  empty : ∀ q ∈ s.pools.queues, (s.pools.queue q).blocks = []

/-- A `Pop` ends in one of four ways. -/
inductive Pops (s : QueuePool τ) (alloc : Bool) : Option Nat × Pools τ → Prop where
  | full (hfull : maxQueueCount ≤ s.pools.busyQueueNum) :
      Pops s alloc (none, s.pools)
  | failed (hroom : s.pools.busyQueueNum < maxQueueCount)
      (hnone : s.pools.queues = []) (halloc : alloc = false) :
      Pops s alloc (none,
        { s.pools with busyQueueNum := s.pools.busyQueueNum + 1 })
  | made (hroom : s.pools.busyQueueNum < maxQueueCount)
      (hnone : s.pools.queues = []) (halloc : alloc = true) :
      Pops s alloc (some s.pools.queueNum,
        { s.pools.setQueue s.pools.queueNum
            (.new s.pools.singleQueueCapacity) with
          busyQueueNum := s.pools.busyQueueNum + 1
          queueNum := s.pools.queueNum + 1 })
  | reused (hroom : s.pools.busyQueueNum < maxQueueCount) {q : Nat}
      {qs : List Nat} (hsome : s.pools.queues = q :: qs) :
      Pops s alloc (some q, { s.pools with
        busyQueueNum := s.pools.busyQueueNum + 1
        queues := qs })

theorem queuePop_pops (s : QueuePool τ) (alloc : Bool) :
    s.Pops alloc (s.pools.queuePop alloc) := by
  unfold Pools.queuePop
  split
  · next hfull => exact .full hfull
  · next hroom =>
      have hroom := Nat.not_le.mp hroom
      dsimp only
      split
      · next hnone =>
          split
          · next halloc => exact .made hroom hnone halloc
          · next halloc =>
              exact .failed hroom hnone (Bool.eq_false_iff.mpr halloc)
      · next q qs hsome => exact .reused hroom hsome

section Step

variable {s s' : QueuePool τ}

theorem Ledger.initial (singleQueueCapacity : Nat) :
    (⟨{ Pools.initial with singleQueueCapacity }, [], 0⟩ :
      QueuePool τ).Ledger where
  busy := rfl
  bounded := Nat.zero_le _
  nodup := List.nodup_nil
  made := fun _ hq => nomatch hq
  empty := fun _ hq => nomatch hq

theorem Ledger.pop (h : s.Ledger) {alloc : Bool}
    (hstep : s.take (.pop alloc) = some s') : s'.Ledger := by
  have hbusy := h.busy
  have hpops := s.queuePop_pops alloc
  rw [take] at hstep
  generalize s.pools.queuePop alloc = r at hpops hstep
  cases hpops with
  | full hfull =>
      cases hstep
      rw [if_neg fun hallocates => absurd hallocates.1 (Nat.not_lt.mpr hfull)]
      exact h
  | failed hroom hnone halloc =>
      cases hstep
      rw [if_pos ⟨hroom, hnone⟩]
      refine ⟨?_, hroom, h.nodup, h.made, h.empty⟩
      show s.pools.busyQueueNum + 1 = s.out.length + (s.failed + 1)
      omega
  | made hroom hnone halloc =>
      cases hstep
      have hnew : s.pools.queueNum ∉ s.out ++ s.pools.queues := fun hmem =>
        Nat.lt_irrefl _ (h.made _ hmem)
      refine ⟨?_, hroom, List.nodup_cons.mpr ⟨hnew, h.nodup⟩, ?_, ?_⟩
      · show s.pools.busyQueueNum + 1 = (s.out.length + 1) + s.failed
        omega
      · intro q hq
        rcases List.mem_cons.mp hq with rfl | hq
        · exact Nat.lt_succ_self _
        · exact Nat.lt_succ_of_lt (h.made q hq)
      · intro q hq
        rw [show ({ s.pools.setQueue _ _ with busyQueueNum := _, queueNum := _ } :
          Pools τ).queues = s.pools.queues from rfl, hnone] at hq
        cases hq
  | @reused hroom q qs hsome =>
      cases hstep
      have hperm : (s.out ++ s.pools.queues).Perm (q :: s.out ++ qs) := by
        rw [hsome]
        exact List.perm_middle
      refine ⟨?_, hroom, hperm.nodup_iff.mp h.nodup, ?_, ?_⟩
      · show s.pools.busyQueueNum + 1 = (s.out.length + 1) + s.failed
        omega
      · exact fun r hr => h.made r (hperm.mem_iff.mpr hr)
      · exact fun r hr => h.empty r (hsome ▸ List.mem_cons_of_mem q hr)

/-- What a holder does with a queue does not reach the free list. -/
theorem Ledger.use (h : s.Ledger) {q : Nat} {call : Queue τ → Queue τ}
    (hstep : s.take (.use q call) = some s') : s'.Ledger := by
  rw [take] at hstep
  split at hstep
  · next hout =>
      cases hstep
      refine ⟨h.busy, h.bounded, h.nodup, h.made, fun r hr => ?_⟩
      have hne : r ≠ q := by
        rintro rfl
        exact List.disjoint_of_nodup_append h.nodup hout hr
      simp only [Pools.setQueue, if_neg hne]
      exact h.empty r hr
  · cases hstep

theorem Ledger.push (h : s.Ledger) {q : Nat}
    (hstep : s.take (.push q) = some s') : s'.Ledger := by
  have hbusy := h.busy
  have hbounded := h.bounded
  rw [take] at hstep
  split at hstep
  · next hout =>
      cases hstep
      have hpos := List.length_pos_of_mem hout
      have hlen := List.length_erase_of_mem hout
      have hperm : (s.out ++ s.pools.queues).Perm
          (s.out.erase q ++ (s.pools.queues ++ [q])) := by
        refine ((List.perm_cons_erase hout).append_right _).trans ?_
        rw [← List.append_assoc]
        exact (List.perm_append_singleton q _).symm
      rw [Pools.queuePush, if_neg (by omega)]
      refine ⟨?_, ?_, hperm.nodup_iff.mp h.nodup, ?_, fun r hr => ?_⟩
      · show s.pools.busyQueueNum - 1 = (s.out.erase q).length + s.failed
        omega
      · show s.pools.busyQueueNum - 1 ≤ maxQueueCount
        omega
      · exact fun r hr => h.made r (hperm.mem_iff.mpr hr)
      · by_cases hq : r = q
        · simp only [hq, Pools.setQueue, if_true, Queue.reset]
        · simp only [Pools.setQueue, if_neg hq]
          refine h.empty r ?_
          simpa [hq] using hr
  · cases hstep

theorem Ledger.take (h : s.Ledger) {i : QueuePoolStep τ}
    (hstep : s.take i = some s') : s'.Ledger := by
  cases i with
  | pop alloc => exact h.pop hstep
  | use q call => exact h.use hstep
  | push q => exact h.push hstep

end Step

/-- The count is right, and a `Pop` is too, whether an allocation that it
makes succeeds or not. -/
structure Accounted (s : QueuePool τ) : Prop where
  busy : s.pools.busyQueueNum = s.out.length
  bounded : s.pools.busyQueueNum ≤ maxQueueCount
  different : s.out.Nodup
  refuses : ∀ alloc, (s.pools.queuePop alloc).1 = none →
    s.out.length = maxQueueCount ∨ s.pools.queues = [] ∧ alloc = false
  handsOut : ∀ alloc q, (s.pools.queuePop alloc).1 = some q →
    q ∉ s.out ∧ ((s.pools.queuePop alloc).2.queue q).blocks = []

theorem Ledger.accounted {s : QueuePool τ} (h : s.Ledger)
    (hfailed : s.failed = 0) : s.Accounted := by
  have hbusy : s.pools.busyQueueNum = s.out.length := by
    rw [h.busy, hfailed, Nat.add_zero]
  refine ⟨hbusy, h.bounded, (List.nodup_append.mp h.nodup).1,
    fun alloc hnone => ?_, fun alloc q hsome => ?_⟩
  · have hpops := s.queuePop_pops alloc
    generalize s.pools.queuePop alloc = r at hpops hnone
    cases hpops with
    | full hfull => exact .inl (by have := h.bounded; omega)
    | failed hroom hempty halloc => exact .inr ⟨hempty, halloc⟩
    | made => cases hnone
    | reused => cases hnone
  · have hpops := s.queuePop_pops alloc
    generalize s.pools.queuePop alloc = r at hpops hsome
    cases hpops with
    | full => cases hsome
    | failed => cases hsome
    | made hroom hempty halloc =>
        cases hsome
        refine ⟨fun hout => ?_, ?_⟩
        · exact Nat.lt_irrefl _ (h.made _ (List.mem_append_left _ hout))
        · simp only [Pools.setQueue, if_true, Queue.new]
    | @reused hroom p qs hlist =>
        cases hsome
        have hmem : q ∈ s.pools.queues := hlist ▸ List.mem_cons_self ..
        exact ⟨fun hout => List.disjoint_of_nodup_append h.nodup hout hmem,
          h.empty q hmem⟩

/-- A pool accounts for its queues exactly as long as no allocation has
failed. -/
theorem Ledger.accounted_iff {s : QueuePool τ} (h : s.Ledger) :
    s.Accounted ↔ s.failed = 0 := by
  refine ⟨fun hacc => ?_, h.accounted⟩
  have hbusy := h.busy
  have hright := hacc.busy
  omega

/-- A `Pop` that has to make a queue can make it. -/
def popMakes (s : QueuePool τ) : QueuePoolStep τ → Prop
  | .pop alloc => s.Allocates → alloc = true
  | .use _ _ => True
  | .push _ => True

instance (s : QueuePool τ) (i : QueuePoolStep τ) : Decidable (s.popMakes i) :=
  match i with
  | .pop alloc => inferInstanceAs (Decidable (s.Allocates → alloc = true))
  | .use _ _ => .isTrue trivial
  | .push _ => .isTrue trivial

theorem take_failed {s s' : QueuePool τ} {i : QueuePoolStep τ}
    (hok : s.popMakes i) (hstep : s.take i = some s') :
    s'.failed = s.failed := by
  cases i with
  | pop alloc =>
      have hpops := s.queuePop_pops alloc
      rw [take] at hstep
      generalize s.pools.queuePop alloc = r at hpops hstep
      cases hpops with
      | full hfull =>
          cases hstep
          exact if_neg fun h => absurd h.1 (Nat.not_lt.mpr hfull)
      | failed hroom hnone halloc =>
          rw [hok ⟨hroom, hnone⟩] at halloc
          cases halloc
      | made => cases hstep; rfl
      | reused => cases hstep; rfl
  | use q call =>
      rw [take] at hstep
      split at hstep <;> cases hstep
      rfl
  | push q =>
      rw [take] at hstep
      split at hstep <;> cases hstep
      rfl

end QueuePool

theorem reach_ledger {ok : QueuePool τ → QueuePoolStep τ → Prop}
    {s : QueuePool τ} (hs : (queuePoolMachine τ).Reach ok s) : s.Ledger :=
  hs.invariant (fun _ ⟨n, hstart⟩ => hstart ▸ .initial n)
    fun _ _ _ h _ hstep => h.take hstep

/-- As long as every `Pop` that has to make a queue can make it, a pool
accounts for its queues. -/
theorem reach_accounted {s : QueuePool τ}
    (hs : (queuePoolMachine τ).Reach QueuePool.popMakes s) : s.Accounted := by
  refine (reach_ledger hs).accounted ?_
  exact hs.invariant (fun _ ⟨_, hstart⟩ => hstart ▸ rfl)
    fun _ _ _ h hok hstep => (QueuePool.take_failed hok hstep).trans h

/-- A pool of queues of one node, at its start. -/
def smallPool : QueuePool Nat :=
  ⟨{ Pools.initial with singleQueueCapacity := 1 }, [], 0⟩

/-- A queue is pushed back with a block in it and handed out again. -/
def popTwice : List (QueuePoolStep Nat) :=
  [.pop true, .use 0 fun q => (q.pushBack 7).2, .push 0, .pop false, .pop true]

theorem reach_accounted_popTwice : ∃ s : QueuePool Nat,
    (queuePoolMachine Nat).run QueuePool.popMakes smallPool popTwice =
      some s ∧ s.out = [1, 0] ∧ s.Accounted := by
  have hrun : ((queuePoolMachine Nat).run QueuePool.popMakes smallPool
      popTwice).map QueuePool.out = some [1, 0] := by decide
  obtain ⟨s, hs, hout⟩ := Option.map_eq_some_iff.mp hrun
  exact ⟨s, hs, hout, reach_accounted (.of_run (.start ⟨1, rfl⟩) hs)⟩

/-- One allocation that fails is counted, though no queue is out. -/
theorem popFailed_not_accounted : ∃ s : QueuePool Nat,
    (queuePoolMachine Nat).Reach Machine.anyStep s ∧ ¬ s.Accounted := by
  have hreach : (queuePoolMachine Nat).Reach Machine.anyStep smallPool :=
    .start ⟨1, rfl⟩
  refine ⟨_, .step (i := .pop false) hreach trivial rfl, fun h => ?_⟩
  exact absurd h.busy (by decide)

end AiEngine.Ref
