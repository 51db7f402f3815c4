import AiEngine.Ref.EngineManager

/-!
# What is out of the pools

`threadsOut` and `queuesOut` say how often an object is missing from its free
list: once while somebody has it, not at all while it lies there, and a
negative number of times when it was given back once too often. A pop moves
one entry out, a push moves one in, and nothing else the pools can do moves
any.
-/

namespace AiEngine.Ref

open AiEngine.Lib

namespace Pools

variable {τ : Type}

/-- How often thread `t` is missing from the idle list. -/
def threadsOut (p : Pools τ) (t : Nat) : Int :=
  (if t < p.threadNum then 1 else 0) - (p.idleThreads.count t : Int)

/-- How often queue `q` is missing from the free list. -/
def queuesOut (p : Pools τ) (q : Nat) : Int :=
  (if q < p.queueNum then 1 else 0) - (p.queues.count q : Int)

/-- A pool that has made objects exists, and what is idle was stopped. -/
structure Healthy (p : Pools τ) : Prop where
  threadPool : 0 < p.threadNum → p.hasThreadPool = true
  queuePool : 0 < p.queueNum → p.hasQueuePool = true
  idle : ∀ t ∈ p.idleThreads, (p.thread t).status ≠ .running

theorem initial_healthy : (initial : Pools τ).Healthy where
  threadPool := by simp [initial]
  queuePool := by simp [initial]
  idle := by simp [initial]

theorem threadPoolInstance_has {p p' : Pools τ} {alloc : Bool}
    (h : p.threadPoolInstance alloc = (true, p')) : p'.hasThreadPool = true := by
  unfold threadPoolInstance at h
  split at h
  · next hp =>
      cases h
      exact hp
  · cases h
    rfl

theorem threadPoolInstance_of_has {p : Pools τ} {alloc : Bool}
    (h : p.hasThreadPool = true) : p.threadPoolInstance alloc = (true, p) := by
  rw [threadPoolInstance, if_pos h]

theorem threadPoolInstance_frame {p p' : Pools τ} {alloc has : Bool}
    (h : p.threadPoolInstance alloc = (has, p')) :
    (has = true ↔ p.hasThreadPool = true ∨ alloc = true) ∧
      p'.idleThreads = p.idleThreads ∧ p'.thread = p.thread ∧
      p'.hasQueuePool = p.hasQueuePool ∧ p'.queues = p.queues ∧
      p'.busyQueueNum = p.busyQueueNum := by
  unfold threadPoolInstance at h
  split at h
  · next hp =>
      cases h
      exact ⟨by simp [hp], rfl, rfl, rfl, rfl, rfl⟩
  · next hp =>
      cases h
      exact ⟨by simp [hp], rfl, rfl, rfl, rfl, rfl⟩

theorem stopThread_threadsOut (p : Pools τ) (t u : Nat) :
    (p.stopThread t).threadsOut u = p.threadsOut u := by
  unfold stopThread
  split
  · split <;> rfl
  · rfl

theorem stopThread_idleThreads (p : Pools τ) (t : Nat) :
    (p.stopThread t).idleThreads = p.idleThreads := by
  unfold stopThread
  split
  · split <;> rfl
  · rfl

theorem stopThread_thread (p : Pools τ) (t u : Nat) :
    (p.stopThread t).thread u =
      if u = t then (p.thread t).stopThread else p.thread u := by
  unfold stopThread
  split
  · split <;> rfl
  · rfl

/-- What stopping a thread leaves alone: everything but the thread itself
and the tasks its worker was to do. -/
theorem stopThread_frame (p : Pools τ) (t : Nat) :
    (p.stopThread t).hasThreadPool = p.hasThreadPool ∧
      (p.stopThread t).threadNum = p.threadNum ∧
      (p.stopThread t).hasQueuePool = p.hasQueuePool ∧
      (p.stopThread t).queues = p.queues ∧
      (p.stopThread t).busyQueueNum = p.busyQueueNum ∧
      (p.stopThread t).queueNum = p.queueNum := by
  unfold stopThread
  split
  · split <;> exact ⟨rfl, rfl, rfl, rfl, rfl, rfl⟩
  · exact ⟨rfl, rfl, rfl, rfl, rfl, rfl⟩

theorem threadPop_frame {p p' : Pools τ} {alloc : Bool} {ot : Option Nat}
    (h : p.threadPop alloc = (ot, p')) :
    (ot.isSome = true ↔ p.idleThreads ≠ [] ∨ alloc = true) ∧
      p'.hasQueuePool = p.hasQueuePool ∧ p'.queues = p.queues ∧
      p'.busyQueueNum = p.busyQueueNum := by
  unfold threadPop at h
  split at h
  · next hidle =>
      split at h
      · next halloc =>
          cases h
          exact ⟨by simp [halloc], rfl, rfl, rfl⟩
      · next halloc =>
          cases h
          exact ⟨by simp [hidle, halloc], rfl, rfl, rfl⟩
  · next hidle =>
      cases h
      exact ⟨by simp [hidle], rfl, rfl, rfl⟩

/-- The thread the next pop hands out. -/
def nextThread (p : Pools τ) : Thread :=
  match p.idleThreads with
  | [] => .new
  | t :: _ => p.thread t

theorem threadPop_thread {p p' : Pools τ} {alloc : Bool} {t : Nat}
    (h : p.threadPop alloc = (some t, p')) : p'.thread t = p.nextThread := by
  unfold threadPop at h
  split at h
  · next hidle =>
      split at h
      · cases h
        simp [setThread, nextThread, hidle]
      · cases h
  · next hidle =>
      cases h
      simp [nextThread, hidle]

theorem threadPop_none {p p' : Pools τ} {alloc : Bool}
    (h : p.threadPop alloc = (none, p')) : p' = p := by
  unfold threadPop at h
  split at h
  · split at h <;> cases h
    rfl
  · cases h

theorem threadPop_threadsOut {p p' : Pools τ} {alloc : Bool} {t : Nat}
    (h : p.threadPop alloc = (some t, p')) (u : Nat) :
    p'.threadsOut u = p.threadsOut u + if u = t then 1 else 0 := by
  unfold threadPop at h
  split at h
  · next hidle =>
      split at h
      · cases h
        simp only [threadsOut, setThread]
        split <;> split <;> split <;> omega
      · cases h
  · next t' ts hidle =>
      cases h
      simp only [threadsOut, hidle, List.count_cons]
      by_cases hu : u = t
      · simp [hu]
        omega
      · simp [hu, Ne.symm hu]

theorem threadPush_threadsOut (p : Pools τ) (t u : Nat) :
    (p.threadPush t).threadsOut u =
      p.threadsOut u - if u = t then 1 else 0 := by
  rw [← stopThread_threadsOut p t u]
  simp only [threadPush, threadsOut, List.count_append, List.count_singleton]
  by_cases hu : u = t
  · simp [hu]
    omega
  · simp [hu, Ne.symm hu]
    rfl

theorem queuePoolInstance_has {p p' : Pools τ} {capacity : Nat} {alloc : Bool}
    (h : p.queuePoolInstance capacity alloc = (true, p')) :
    p'.hasQueuePool = true := by
  unfold queuePoolInstance at h
  split at h
  · next hp =>
      cases h
      exact hp
  · cases h
    rfl

theorem queuePoolInstance_of_has {p : Pools τ} {capacity : Nat} {alloc : Bool}
    (h : p.hasQueuePool = true) :
    p.queuePoolInstance capacity alloc = (true, p) := by
  rw [queuePoolInstance, if_pos h]

theorem queuePoolInstance_frame {p p' : Pools τ} {capacity : Nat}
    {alloc has : Bool} (h : p.queuePoolInstance capacity alloc = (has, p')) :
    (has = true ↔ p.hasQueuePool = true ∨ alloc = true) ∧
      p'.thread = p.thread ∧ p'.queues = p.queues ∧
      p'.busyQueueNum = p.busyQueueNum := by
  unfold queuePoolInstance at h
  split at h
  · next hp =>
      cases h
      exact ⟨by simp [hp], rfl, rfl, rfl⟩
  · next hp =>
      cases h
      exact ⟨by simp [hp], rfl, rfl, rfl⟩

/-- A queue is refused because too many are out, or for want of memory, and
then the count stays one too high. -/
theorem queuePop_none {p p' : Pools τ} {alloc : Bool}
    (h : p.queuePop alloc = (none, p')) :
    (maxQueueCount ≤ p.busyQueueNum ∧ p' = p) ∨
      (p.busyQueueNum < maxQueueCount ∧ p.queues = [] ∧ alloc = false) := by
  unfold queuePop at h
  split at h
  · next hmax =>
      cases h
      exact .inl ⟨hmax, rfl⟩
  · next hmax =>
      dsimp only at h
      split at h
      · next hq =>
          split at h
          · cases h
          · next halloc => exact .inr ⟨by omega, hq, by simpa using halloc⟩
      · cases h

theorem queuePop_some {p p' : Pools τ} {alloc : Bool} {q : Nat}
    (h : p.queuePop alloc = (some q, p')) : p.busyQueueNum < maxQueueCount := by
  unfold queuePop at h
  split at h
  · cases h
  · omega

theorem queuePop_frame {p p' : Pools τ} {alloc : Bool} {oq : Option Nat}
    (h : p.queuePop alloc = (oq, p')) :
    p'.hasThreadPool = p.hasThreadPool ∧ p'.idleThreads = p.idleThreads ∧
      p'.thread = p.thread ∧ p'.threadNum = p.threadNum ∧
      p'.hasQueuePool = p.hasQueuePool := by
  unfold queuePop at h
  split at h
  · cases h
    exact ⟨rfl, rfl, rfl, rfl, rfl⟩
  · dsimp only at h
    split at h
    · split at h <;> cases h <;> exact ⟨rfl, rfl, rfl, rfl, rfl⟩
    · cases h
      exact ⟨rfl, rfl, rfl, rfl, rfl⟩

theorem queuePush_frame (p : Pools τ) (q : Nat) :
    (p.queuePush q).hasThreadPool = p.hasThreadPool ∧
      (p.queuePush q).idleThreads = p.idleThreads ∧
      (p.queuePush q).thread = p.thread ∧
      (p.queuePush q).threadNum = p.threadNum ∧
      (p.queuePush q).hasQueuePool = p.hasQueuePool ∧
      (p.queuePush q).queueNum = p.queueNum := by
  unfold queuePush
  split <;> exact ⟨rfl, rfl, rfl, rfl, rfl, rfl⟩

theorem queuePop_queuesOut {p p' : Pools τ} {alloc : Bool} {q : Nat}
    (h : p.queuePop alloc = (some q, p')) (r : Nat) :
    p'.queuesOut r = p.queuesOut r + (if r = q then 1 else 0) ∧
      p'.busyQueueNum = p.busyQueueNum + 1 := by
  unfold queuePop at h
  split at h
  · cases h
  · dsimp only at h
    split at h
    · next hq =>
        split at h
        · cases h
          refine ⟨?_, rfl⟩
          simp only [queuesOut, setQueue]
          split <;> split <;> split <;> omega
        · cases h
    · next q' qs hq =>
        cases h
        refine ⟨?_, rfl⟩
        simp only [queuesOut, hq, List.count_cons]
        by_cases hr : r = q
        · simp [hr]
          omega
        · simp [hr, Ne.symm hr]

theorem queuePush_queuesOut {p : Pools τ} (hbusy : p.busyQueueNum ≠ 0)
    (q r : Nat) :
    (p.queuePush q).queuesOut r = p.queuesOut r - (if r = q then 1 else 0) ∧
      (p.queuePush q).busyQueueNum + 1 = p.busyQueueNum := by
  rw [queuePush, if_neg hbusy]
  refine ⟨?_, by simp only; omega⟩
  simp only [queuesOut, setQueue, List.count_append, List.count_singleton]
  by_cases hr : r = q
  · simp [hr]
    omega
  · simp [hr, Ne.symm hr]
    rfl

end Pools

theorem Thread.stopThread_status (t : Thread) :
    t.stopThread.status ≠ .running := by
  unfold Thread.stopThread
  split
  · simp
  · assumption

end AiEngine.Ref
