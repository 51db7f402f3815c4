import Mathlib.Data.Finset.Basic
import AiEngine.Lib.Machine
import AiEngine.Ref.Pools

/-!
# A thread pool in use

The operations of `thread_pool.cpp` and `thread.cpp` in any order, with two
sets that only the callers know: the threads they have been handed out, and
those that they have given back. A thread is given back by whoever has it,
started or not.
-/

namespace AiEngine.Ref

open AiEngine.Lib

structure PoolUse (τ : Type) where
  pools : Pools τ
  /-- Popped and not pushed back. -/
  out : Finset Nat
  /-- Pushed back and not popped again. -/
  back : Finset Nat

inductive PoolStep where
  | pop (alloc : Bool)
  | startThread (t : Nat) (pWorker : IWorker) (created : Bool) (handle : Nat)
  | stopThread (t : Nat)
  /-- The worker of a thread ends by itself, and nobody joins the thread. -/
  | workerEnds (t : Nat)
  | push (t : Nat)
  deriving DecidableEq, Repr

namespace PoolUse

variable {τ : Type}

def initial : PoolUse τ := ⟨.initial, ∅, ∅⟩

def pop (s : PoolUse τ) (alloc : Bool) : PoolUse τ :=
  match s.pools.threadPop alloc with
  | (some t, pools) => ⟨pools, insert t s.out, s.back.erase t⟩
  | (none, pools) => { s with pools }

def startThread (s : PoolUse τ) (t : Nat) (pWorker : IWorker)
    (created : Bool) (handle : Nat) : PoolUse τ :=
  let thread := ((s.pools.thread t).startThread pWorker created handle).2
  { s with pools := s.pools.setThread t thread }

def workerEnds (s : PoolUse τ) (t : Nat) : PoolUse τ :=
  let thread := { s.pools.thread t with status := .stopped }
  { s with pools := s.pools.setThread t thread }

def push (s : PoolUse τ) (t : Nat) : PoolUse τ :=
  ⟨s.pools.threadPush t, s.out.erase t, insert t s.back⟩

def take (s : PoolUse τ) : PoolStep → Option (PoolUse τ)
  | .pop alloc => some (s.pop alloc)
  | .startThread t pWorker created handle =>
      some (s.startThread t pWorker created handle)
  | .stopThread t => some { s with pools := s.pools.stopThread t }
  | .workerEnds t =>
      if (s.pools.thread t).status = .running then some (s.workerEnds t)
      else none
  | .push t => if t ∈ s.out then some (s.push t) else none

end PoolUse

/-- Callers push back what they have popped, once. -/
def poolMachine (τ : Type) : Machine (PoolUse τ) PoolStep where
  start s := s = .initial
  step := PoolUse.take

end AiEngine.Ref
