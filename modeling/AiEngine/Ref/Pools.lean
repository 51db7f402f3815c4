import AiEngine.Ref.Platform

/-!
# Threads, queues and the pools they come from

`thread.cpp`, `thread_pool.cpp`, `queue.inl` and `queue_pool.inl`. An engine
borrows one thread and one queue and gives them back when it is destroyed.
Threads and queues are objects with an identity, numbered in the order they
were allocated; the pools are lists of such numbers.

Seen from the caller of `StartThread` and `StopThread`, which both wait for
the thread they act on, the thread is running or it has been joined. What its
worker does meanwhile is left to the components that care.
-/

namespace AiEngine.Ref

/-- `MAX_QUEUE_LENGTH`, the capacity of a queue nobody chose one for. -/
def maxQueueLength : Nat := 1024

/-- `MAX_QUEUE_COUNT`. -/
def maxQueueCount : Nat := 10

/-- `Queue<TYPE>` as one thread sees it: the blocks between the pop and the
push position, and the number of nodes. -/
structure Queue (τ : Type) where
  blocks : List τ
  totalNum : Nat
  deriving DecidableEq, Repr

namespace Queue

variable {τ : Type}

/-- `Queue(maxQueueSize)`. -/
def new (maxQueueSize : Nat) : Queue τ := ⟨[], maxQueueSize⟩

def count (q : Queue τ) : Nat := q.blocks.length

def pushBack (q : Queue τ) (msgBlock : τ) : Int × Queue τ :=
  if q.totalNum ≤ q.count then (Retcode.queueFull, q)
  else (Retcode.success, { q with blocks := q.blocks ++ [msgBlock] })

def popFront (q : Queue τ) : Int × Option τ × Queue τ :=
  match q.blocks with
  | [] => (Retcode.queueEmpty, none, q)
  | b :: bs => (Retcode.success, some b, { q with blocks := bs })

def reset (q : Queue τ) : Queue τ := { q with blocks := [] }

end Queue

inductive ThreadStatus where
  | stopped
  | prepared
  | running
  deriving DecidableEq, Repr

/-- What a thread runs: an `EngineWorker` with the queue it serves, or an
`AsyncProcessWorker` with the client it sends responses to. -/
inductive IWorker where
  | engineWorker (queue : Nat)
  | asyncProcessWorker (clientId : Int32)
  deriving DecidableEq, Repr

/-- `Thread`. The handle is 0 when there is no thread to join. -/
structure Thread where
  status : ThreadStatus
  handle : Nat
  worker : Option IWorker
  deriving DecidableEq, Repr

namespace Thread

/-- `Thread()`. -/
def new : Thread := ⟨.stopped, 0, none⟩

/-- `StartThread(pWorker)`; `created` is whether `pthread_create` succeeds
and `handle` what it leaves in the handle. -/
def startThread (t : Thread) (pWorker : IWorker) (created : Bool)
    (handle : Nat) : Bool × Thread :=
  if t.status = .running then (false, t)
  else
    let t := { t with worker := some pWorker, status := .prepared, handle }
    if created then (true, { t with status := .running })
    else (false, { t with status := .stopped })

/-- `StopThread()`, without what the worker does on its way out. A thread
whose status is RUNNING has not ended, so the probe of its id succeeds. -/
def stopThread (t : Thread) : Thread :=
  if t.status = .running then { t with status := .stopped, handle := 0 }
  else t

end Thread

/-! ## The pools

The thread pool and the queue pool are singletons with lists of what is idle
and what is busy. A queue or thread is made when there is none to be had. -/

/-- The two singletons, and the threads and queues that exist. -/
structure Pools (τ : Type) where
  /-- Whether `ThreadPool::instance_` is set. -/
  hasThreadPool : Bool
  idleThreads : List Nat
  busyThreads : List Nat
  thread : Nat → Thread
  threadNum : Nat
  /-- Whether `QueuePool::instance_` is set. -/
  hasQueuePool : Bool
  singleQueueCapacity : Nat
  queues : List Nat
  busyQueueNum : Nat
  queue : Nat → Queue τ
  queueNum : Nat

namespace Pools

variable {τ : Type}

/-- Before the first engine. -/
def initial : Pools τ where
  hasThreadPool := false
  idleThreads := []
  busyThreads := []
  thread := fun _ => .new
  threadNum := 0
  hasQueuePool := false
  singleQueueCapacity := maxQueueLength
  queues := []
  busyQueueNum := 0
  queue := fun _ => .new 0
  queueNum := 0

def setThread (p : Pools τ) (t : Nat) (x : Thread) : Pools τ :=
  { p with thread := fun u => if u = t then x else p.thread u }

def setQueue (p : Pools τ) (q : Nat) (x : Queue τ) : Pools τ :=
  { p with queue := fun r => if r = q then x else p.queue r }

/-- `EngineWorker::Uninitialize`, which is `ClearQueue`: it takes as many
tasks off the queue as the queue counts. -/
def clearQueue (p : Pools τ) (q : Nat) : Pools τ :=
  p.setQueue q { p.queue q with blocks := [] }

/-- `thread->StopThread()`. The worker's `Uninitialize` runs before the
thread is joined; that of an `AsyncProcessWorker` does nothing. -/
def stopThread (p : Pools τ) (t : Nat) : Pools τ :=
  let stopped := p.setThread t (p.thread t).stopThread
  if (p.thread t).status = .running then
    match (p.thread t).worker with
    | some (.engineWorker queue) => stopped.clearQueue queue
    | some (.asyncProcessWorker _) => stopped
    | none => stopped
  else stopped

/-- `ThreadPool::GetInstance()`; `alloc` is whether `new` succeeds. -/
def threadPoolInstance (p : Pools τ) (alloc : Bool) : Bool × Pools τ :=
  if p.hasThreadPool then (true, p)
  else (alloc, { p with hasThreadPool := alloc })

/-- `ThreadPool::Pop()`. -/
def threadPop (p : Pools τ) (alloc : Bool) : Option Nat × Pools τ :=
  match p.idleThreads with
  | [] =>
      if alloc then
        let t := p.threadNum
        (some t,
          { p.setThread t .new with
            threadNum := p.threadNum + 1
            busyThreads := p.busyThreads ++ [t] })
      else (none, p)
  | t :: ts =>
      (some t, { p with
        idleThreads := ts
        busyThreads := p.busyThreads ++ [t] })

/-- `ThreadPool::Push(thread)`. The thread is looked for among the busy ones
by its id, which is that of every joined thread. -/
def threadPush (p : Pools τ) (t : Nat) : Pools τ :=
  let p := p.stopThread t
  { p with
    busyThreads := p.busyThreads.eraseP fun b =>
      (p.thread b).handle = (p.thread t).handle
    idleThreads := p.idleThreads ++ [t] }

/-- `QueuePool<TYPE>::GetInstance(singleQueueCapacity)`. -/
def queuePoolInstance (p : Pools τ) (singleQueueCapacity : Nat)
    (alloc : Bool) : Bool × Pools τ :=
  if p.hasQueuePool then (true, p)
  else (alloc, { p with hasQueuePool := alloc, singleQueueCapacity })

/-- `QueuePool<TYPE>::Pop()`. The count goes up before the allocation. -/
def queuePop (p : Pools τ) (alloc : Bool) : Option Nat × Pools τ :=
  if maxQueueCount ≤ p.busyQueueNum then (none, p)
  else
    let p := { p with busyQueueNum := p.busyQueueNum + 1 }
    match p.queues with
    | [] =>
        if alloc then
          (some p.queueNum,
            { p.setQueue p.queueNum (.new p.singleQueueCapacity) with
              queueNum := p.queueNum + 1 })
        else (none, p)
    | q :: qs => (some q, { p with queues := qs })

/-- `QueuePool<TYPE>::Push(queue)`. -/
def queuePush (p : Pools τ) (q : Nat) : Pools τ :=
  if p.busyQueueNum = 0 then p
  else
    { p.setQueue q (p.queue q).reset with
      busyQueueNum := p.busyQueueNum - 1
      queues := p.queues ++ [q] }

end Pools

end AiEngine.Ref
