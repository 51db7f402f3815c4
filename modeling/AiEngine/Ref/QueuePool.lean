import AiEngine.Lib.Machine
import AiEngine.Ref.Pools

/-!
# The queue pool and those who borrow from it

`QueuePool<TYPE>` over any sequence of calls. Who pops a queue uses it as it
likes, and pushes it back with whatever is in it, once.
-/

namespace AiEngine.Ref

open AiEngine.Lib

/-- The pool, the queues that were handed out and not yet pushed back, and
how many times `Pop` could not allocate a queue. -/
structure QueuePool (τ : Type) where
  pools : Pools τ
  out : List Nat
  failed : Nat

/-- What happens to a pool. -/
inductive QueuePoolStep (τ : Type) where
  | pop (alloc : Bool)
  | use (q : Nat) (call : Queue τ → Queue τ)
  | push (q : Nat)

namespace QueuePool

variable {τ : Type}

/-- `Pop` has no queue to hand out and may still make one. -/
def Allocates (s : QueuePool τ) : Prop :=
  s.pools.busyQueueNum < maxQueueCount ∧ s.pools.queues = []

instance (s : QueuePool τ) : Decidable s.Allocates :=
  inferInstanceAs (Decidable (_ ∧ _))

def take (s : QueuePool τ) : QueuePoolStep τ → Option (QueuePool τ)
  | .pop alloc =>
      match s.pools.queuePop alloc with
      | (some q, pools) => some { s with pools, out := q :: s.out }
      | (none, pools) =>
          some { s with
            pools
            failed := if s.Allocates then s.failed + 1 else s.failed }
  | .use q call =>
      if q ∈ s.out then
        some { s with
          pools := s.pools.setQueue q (call (s.pools.queue q)) }
      else none
  | .push q =>
      if q ∈ s.out then
        some { s with pools := s.pools.queuePush q, out := s.out.erase q }
      else none

end QueuePool

/-- A pool from its start, with queues of any capacity. -/
def queuePoolMachine (τ : Type) : Machine (QueuePool τ) (QueuePoolStep τ) where
  start := fun s =>
    ∃ singleQueueCapacity,
      s = ⟨{ Pools.initial with singleQueueCapacity }, [], 0⟩
  step := QueuePool.take

end AiEngine.Ref
