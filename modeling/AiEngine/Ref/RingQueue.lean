import AiEngine.Ref.SharedQueue

/-!
# A queue and its nodes

`queue.inl` for calls that are made one at a time: two positions, of type
`size_t`, that go round the nodes and never come back but by overflow, two
counters, and a flag in each node. What such a queue is for is said by
`Queue`, which has only the blocks that are stored.
-/

namespace AiEngine.Ref

open AiEngine.Lib

/-- `Queue<TYPE>`, with the fields it has. -/
structure RingQueue (τ : Type) where
  pushPos : Nat
  popPos : Nat
  totalNum : Nat
  writeAbleCount : Nat
  readAbleCount : Nat
  queue : Nat → QueueNode τ

/-- A call that changes a queue. -/
inductive QueueCall (τ : Type) where
  | pushBack (msgBlock : τ)
  | popFront
  | reset
  deriving DecidableEq, Repr

/-- What a call returns, if it returns anything, and the block that it leaves
in its argument. -/
structure QueueAnswer (τ : Type) where
  retCode : Option Int
  msgBlock : Option τ
  deriving DecidableEq, Repr

namespace RingQueue

variable {τ : Type}

/-- `Queue(maxQueueSize)`. -/
def new [Inhabited τ] (maxQueueSize : Nat) : RingQueue τ where
  pushPos := 0
  popPos := 0
  totalNum := maxQueueSize
  writeAbleCount := maxQueueSize
  readAbleCount := 0
  queue := fun _ => ⟨true, default⟩

def setNode (q : RingQueue τ) (i : Nat) (x : QueueNode τ) : RingQueue τ :=
  { q with queue := fun j => if j = i then x else q.queue j }

def isEmpty (q : RingQueue τ) : Bool := q.readAbleCount == 0

def isFull (q : RingQueue τ) : Bool := q.totalNum == q.readAbleCount

def count (q : RingQueue τ) : Nat := q.readAbleCount

def pushBack (a : Abi) (q : RingQueue τ) (msgBlock : τ) : Int × RingQueue τ :=
  if q.writeAbleCount = 0 then (Retcode.queueFull, q)
  else
    let q := { q with writeAbleCount := a.pred q.writeAbleCount }
    let pushPos := q.pushPos % q.totalNum
    let q := { q with pushPos := a.sizeT (q.pushPos + 1) }
    let q := q.setNode pushPos { q.queue pushPos with node := msgBlock }
    let q := q.setNode pushPos { q.queue pushPos with empty := false }
    (Retcode.success,
      { q with readAbleCount := a.sizeT (q.readAbleCount + 1) })

def popFront (a : Abi) (q : RingQueue τ) : Int × Option τ × RingQueue τ :=
  if q.readAbleCount = 0 then (Retcode.queueEmpty, none, q)
  else
    let q := { q with readAbleCount := a.pred q.readAbleCount }
    let popPos := q.popPos % q.totalNum
    if (q.queue popPos).empty then
      (Retcode.queueNodeInvalid, none,
        { q with readAbleCount := a.sizeT (q.readAbleCount + 1) })
    else
      let q := { q with popPos := a.sizeT (q.popPos + 1) }
      let msgBlock := (q.queue popPos).node
      let q := q.setNode popPos { q.queue popPos with empty := true }
      (Retcode.success, some msgBlock,
        { q with writeAbleCount := a.sizeT (q.writeAbleCount + 1) })

def reset (q : RingQueue τ) : RingQueue τ :=
  { q with
    pushPos := 0
    popPos := 0
    writeAbleCount := q.totalNum
    readAbleCount := 0
    queue := fun i =>
      if i < q.totalNum then { q.queue i with empty := true } else q.queue i }

def call (a : Abi) (q : RingQueue τ) :
    QueueCall τ → QueueAnswer τ × RingQueue τ
  | .pushBack msgBlock =>
      match q.pushBack a msgBlock with
      | (retCode, q) => (⟨some retCode, none⟩, q)
  | .popFront =>
      match q.popFront a with
      | (retCode, msgBlock, q) => (⟨some retCode, msgBlock⟩, q)
  | .reset => (⟨none, none⟩, q.reset)

end RingQueue

/-- The bounded queue, called in the same way. -/
def Queue.call {τ : Type} (q : Queue τ) : QueueCall τ → QueueAnswer τ × Queue τ
  | .pushBack msgBlock =>
      match q.pushBack msgBlock with
      | (retCode, q) => (⟨some retCode, none⟩, q)
  | .popFront =>
      match q.popFront with
      | (retCode, msgBlock, q) => (⟨some retCode, msgBlock⟩, q)
  | .reset => (⟨none, none⟩, q.reset)

end AiEngine.Ref
