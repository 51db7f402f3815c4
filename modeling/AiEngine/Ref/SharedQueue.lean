import AiEngine.Lib.Machine
import AiEngine.Ref.Pools

/-!
# A queue between two threads

`queue.inl` access by access, for one thread that pushes and one that pops:
the thread that takes the requests of an engine, and the engine's worker.
Nothing but the order of the accesses keeps them apart. The counters and the
positions are atomic and of type `size_t`; the fields of a node are not
atomic.

A call begins with its first access. What it returns goes to a log, and the
bounded queue that one thread alone would see gives the answers that the log
is compared with.
-/

namespace AiEngine.Ref

open AiEngine.Lib

/-- `QueueNode`. -/
structure QueueNode (τ : Type) where
  empty : Bool
  node : τ
  deriving DecidableEq, Repr

/-- What `PushBack` does next. -/
inductive PushPhase (τ : Type) where
  | idle
  | takeWriteAble (msgBlock : τ)
  | movePushPos (msgBlock : τ)
  | writeNode (msgBlock : τ) (pushPos : Nat)
  | clearEmpty (msgBlock : τ) (pushPos : Nat)
  | giveReadAble (msgBlock : τ) (pushPos : Nat)
  deriving DecidableEq, Repr

/-- What `PopFront` does next. -/
inductive PopPhase (τ : Type) where
  | idle
  | takeReadAble
  | readPopPos
  | testEmpty (popPos : Nat)
  | giveReadAbleBack
  | movePopPos (popPos : Nat)
  | readNode (popPos : Nat)
  | setEmpty (popPos : Nat) (msgBlock : τ)
  | giveWriteAble (msgBlock : τ)
  deriving DecidableEq, Repr

/-- A call that has returned, with what it returned. -/
inductive QueueEvent (τ : Type) where
  | pushBack (msgBlock : τ) (retCode : Int)
  | popFront (retCode : Int) (msgBlock : Option τ)
  | count (n : Nat)
  | isEmpty (empty : Bool)
  deriving DecidableEq, Repr

/-- `Queue<TYPE>` and its two threads. -/
structure SharedQueue (τ : Type) where
  pushPos : Nat
  popPos : Nat
  totalNum : Nat
  writeAbleCount : Nat
  readAbleCount : Nat
  queue : Nat → QueueNode τ
  producer : PushPhase τ
  consumer : PopPhase τ
  log : List (QueueEvent τ)

inductive QueueStep (τ : Type) where
  | pushBack (msgBlock : τ)
  | producer
  | popFront
  | count
  | isEmpty
  | consumer
  deriving DecidableEq, Repr

namespace SharedQueue

variable {τ : Type}

/-- `Queue(maxQueueSize)`. -/
def new [Inhabited τ] (maxQueueSize : Nat) : SharedQueue τ where
  pushPos := 0
  popPos := 0
  totalNum := maxQueueSize
  writeAbleCount := maxQueueSize
  readAbleCount := 0
  queue := fun _ => ⟨true, default⟩
  producer := .idle
  consumer := .idle
  log := []

def setNode (s : SharedQueue τ) (i : Nat) (x : QueueNode τ) :
    SharedQueue τ :=
  { s with queue := fun j => if j = i then x else s.queue j }

def record (s : SharedQueue τ) (e : QueueEvent τ) : SharedQueue τ :=
  { s with log := s.log ++ [e] }

/-- The first access of `PushBack`. -/
def callPushBack (s : SharedQueue τ) (msgBlock : τ) : SharedQueue τ :=
  if s.writeAbleCount = 0 then
    s.record (.pushBack msgBlock Retcode.queueFull)
  else { s with producer := .takeWriteAble msgBlock }

/-- The next access of `PushBack`. -/
def pushBack (a : Abi) (s : SharedQueue τ) : Option (SharedQueue τ) :=
  match s.producer with
  | .idle => none
  | .takeWriteAble msgBlock =>
      some { s with
        writeAbleCount := a.pred s.writeAbleCount
        producer := .movePushPos msgBlock }
  | .movePushPos msgBlock =>
      some { s with
        pushPos := a.sizeT (s.pushPos + 1)
        producer := .writeNode msgBlock (s.pushPos % s.totalNum) }
  | .writeNode msgBlock pushPos =>
      some { s.setNode pushPos { s.queue pushPos with node := msgBlock } with
        producer := .clearEmpty msgBlock pushPos }
  | .clearEmpty msgBlock pushPos =>
      some { s.setNode pushPos { s.queue pushPos with empty := false } with
        producer := .giveReadAble msgBlock pushPos }
  | .giveReadAble msgBlock _ =>
      some ({ s with
        readAbleCount := a.sizeT (s.readAbleCount + 1)
        producer := .idle }.record (.pushBack msgBlock Retcode.success))

/-- The first access of `PopFront`. -/
def callPopFront (s : SharedQueue τ) : SharedQueue τ :=
  if s.readAbleCount = 0 then s.record (.popFront Retcode.queueEmpty none)
  else { s with consumer := .takeReadAble }

/-- The next access of `PopFront`. -/
def popFront (a : Abi) (s : SharedQueue τ) : Option (SharedQueue τ) :=
  match s.consumer with
  | .idle => none
  | .takeReadAble =>
      some { s with
        readAbleCount := a.pred s.readAbleCount
        consumer := .readPopPos }
  | .readPopPos =>
      some { s with consumer := .testEmpty (s.popPos % s.totalNum) }
  | .testEmpty popPos =>
      if (s.queue popPos).empty then
        some { s with consumer := .giveReadAbleBack }
      else some { s with consumer := .movePopPos popPos }
  | .giveReadAbleBack =>
      some ({ s with
        readAbleCount := a.sizeT (s.readAbleCount + 1)
        consumer := .idle }.record (.popFront Retcode.queueNodeInvalid none))
  | .movePopPos popPos =>
      some { s with
        popPos := a.sizeT (s.popPos + 1)
        consumer := .readNode popPos }
  | .readNode popPos =>
      some { s with consumer := .setEmpty popPos (s.queue popPos).node }
  | .setEmpty popPos msgBlock =>
      some { s.setNode popPos { s.queue popPos with empty := true } with
        consumer := .giveWriteAble msgBlock }
  | .giveWriteAble msgBlock =>
      some ({ s with
        writeAbleCount := a.sizeT (s.writeAbleCount + 1)
        consumer := .idle }.record (.popFront Retcode.success (some msgBlock)))

/-- A thread makes one call at a time. -/
def take (a : Abi) (s : SharedQueue τ) : QueueStep τ → Option (SharedQueue τ)
  | .pushBack msgBlock =>
      match s.producer with
      | .idle => some (s.callPushBack msgBlock)
      | _ => none
  | .producer => s.pushBack a
  | .popFront =>
      match s.consumer with
      | .idle => some s.callPopFront
      | _ => none
  | .count =>
      match s.consumer with
      | .idle => some (s.record (.count s.readAbleCount))
      | _ => none
  | .isEmpty =>
      match s.consumer with
      | .idle => some (s.record (.isEmpty (s.readAbleCount == 0)))
      | _ => none
  | .consumer => s.popFront a

end SharedQueue

/-- One producer and one consumer on a queue of `maxQueueSize` nodes. -/
def queueMachine (τ : Type) [Inhabited τ] (a : Abi) (maxQueueSize : Nat) :
    Machine (SharedQueue τ) (QueueStep τ) where
  start s := s = .new maxQueueSize
  step := SharedQueue.take a

end AiEngine.Ref
