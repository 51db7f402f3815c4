import AiEngine.Lib.Machine
import AiEngine.Lib.Table
import AiEngine.Ref.EngineManager

/-!
# Synchronous requests

`Engine::SyncExecute`, `sync_msg_handler.cpp`, `queue.inl`,
`simple_event_notifier.inl` and the synchronous half of `engine_worker.cpp`,
run by any number of threads that call the engine and by its worker.

The queue has no lock, only counters that are atomic each. A step is what a
thread does between two accesses to what other threads change: a counter, or
a node with its flag. The positions are counted without end, `size_t` wraps at
a multiple of the number of nodes. The counters of free and of filled nodes
wrap where they would fall below zero.

Every call holds the engine, so its thread is stopped after the last one. The
notifier of a call is on its stack and is gone when the call returns.
-/

namespace AiEngine.Ref

open AiEngine.Lib

/-! ## The state

A call has a notifier of its own and waits for it. The table of calls says
where each thread is, and the queue holds the tasks that no worker has taken
yet. -/

/-- A response, with the request it was made for. -/
structure SyncResponse where
  request : Nat
  retCode : Int
  deriving DecidableEq, Repr

/-- `SimpleEventNotifier`: its value and its semaphore. -/
structure Notifier where
  value : Option SyncResponse
  count : Nat
  deriving DecidableEq, Repr

namespace Notifier

def new : Notifier := ⟨none, 0⟩

def addToBack (n : Notifier) (item : SyncResponse) : Notifier :=
  ⟨some item, n.count + 1⟩

/-- `GetFromFront` without a timeout, none while it waits. -/
def getFromFront (n : Notifier) : Option (Option SyncResponse × Notifier) :=
  if n.count = 0 then none else some (n.value, ⟨none, n.count - 1⟩)

end Notifier

/-- What a call of `SyncExecute` does next: look at the count in `SendRequest`;
in `PushBack` look for room, take it, take a position, fill the node there and
count it; wait. Then it has returned. -/
inductive SyncPhase where
  | count
  | checkRoom
  | takeRoom
  | takePosition
  | fill (pushPos : Nat)
  | publish (pushPos : Nat)
  | wait (pushPos : Nat)
  | refused (retCode : Int)
  | returned (response : SyncResponse)
  deriving DecidableEq, Repr

/-- Whether the call has returned. -/
def SyncPhase.over : SyncPhase → Bool
  | .refused _ => true
  | .returned _ => true
  | _ => false

/-- A call of `SyncExecute` with a request of the same number, and how often
`AddToBack` was called on its notifier. -/
structure SyncCall where
  phase : SyncPhase
  notifier : Notifier
  added : Nat
  deriving DecidableEq, Repr

/-- `Queue<Task>`. A node that is not empty has the call its task is from. -/
structure TaskQueue where
  node : Table Nat Nat
  pushPos : Nat
  popPos : Nat
  writeAbleCount : Nat
  readAbleCount : Nat

namespace TaskQueue

def totalNum : Nat := maxSyncMsgNum

/-- `SIZE_MAX`. -/
def sizeMax : Nat := 2 ^ 64 - 1

def new : TaskQueue := ⟨∅, 0, 0, totalNum, 0⟩

/-- The counters, `size_t` each. -/
def decrement (n : Nat) : Nat := if n = 0 then sizeMax else n - 1

def increment (n : Nat) : Nat := if n = sizeMax then 0 else n + 1

end TaskQueue

/-- What the worker does next: `PopFront` has counted a task off and looks at
its node; it has the task and gives the node back; `SyncProcess` has it. -/
inductive SyncWorker where
  | idle
  | look
  | release (task : Nat)
  | process (task : Nat)
  | stopped
  deriving DecidableEq, Repr

/-- The task the worker has taken from the queue. -/
def SyncWorker.task : SyncWorker → Option Nat
  | .release c => some c
  | .process c => some c
  | _ => none

/-- A synchronous engine that was initialized, so that it has a plugin and a
handler. The engine manager lists it until it is stopped. A fault is the use
of the notifier of a call that has returned. -/
structure SyncServer where
  queue : TaskQueue
  worker : SyncWorker
  call : Table Nat SyncCall
  callNum : Nat
  listed : Bool
  fault : Option Nat

namespace SyncServer

def initial : SyncServer where
  queue := .new
  worker := .idle
  call := ∅
  callNum := 0
  listed := true
  fault := none

def setCall (s : SyncServer) (c : Nat) (call : SyncCall) : SyncServer :=
  { s with call := s.call.insert c call }

/-- The call goes on. -/
def move (s : SyncServer) (c : Nat) (call : SyncCall) (phase : SyncPhase) :
    SyncServer :=
  s.setCall c { call with phase }

/-- `ServerExecutor::SyncExecute` finds the engine and calls it. -/
def syncExecute (s : SyncServer) : Option SyncServer :=
  if s.listed then
    some { s with
      call := s.call.insert s.callNum ⟨.count, .new, 0⟩
      callNum := s.callNum + 1 }
  else none

/-- `GetFromFront`, and `SyncExecute` returns. What the semaphore counts comes
with a value. -/
def receiveResponse (s : SyncServer) (c : Nat) (call : SyncCall) :
    Option SyncServer :=
  match call.notifier.getFromFront with
  | none => none
  | some (none, _) => none
  | some (some response, notifier) =>
      some (s.setCall c { call with phase := .returned response, notifier })

/-- The next step of a call. -/
def proceed (s : SyncServer) (c : Nat) : Option SyncServer :=
  match s.call.lookup c with
  | none => none
  | some call =>
      match call.phase with
      | .count =>
          if maxSyncMsgNum ≤ s.queue.readAbleCount then
            some (s.move c call (.refused Retcode.queueFull))
          else some (s.move c call .checkRoom)
      | .checkRoom =>
          if s.queue.writeAbleCount = 0 then
            some (s.move c call (.refused Retcode.queueFull))
          else some (s.move c call .takeRoom)
      | .takeRoom =>
          let queue := { s.queue with
            writeAbleCount := TaskQueue.decrement s.queue.writeAbleCount }
          some ({ s with queue }.move c call .takePosition)
      | .takePosition =>
          let queue := { s.queue with pushPos := s.queue.pushPos + 1 }
          some ({ s with queue }.move c call (.fill s.queue.pushPos))
      | .fill pushPos =>
          let queue := { s.queue with
            node := s.queue.node.insert (pushPos % TaskQueue.totalNum) c }
          some ({ s with queue }.move c call (.publish pushPos))
      | .publish pushPos =>
          let queue := { s.queue with
            readAbleCount := TaskQueue.increment s.queue.readAbleCount }
          some ({ s with queue }.move c call (.wait pushPos))
      | .wait _ => s.receiveResponse c call
      | .refused _ => none
      | .returned _ => none

/-! ## The worker

A worker takes one task after the other, in several steps each: the semaphore,
the head of the queue, the node's lock, the plugin and the notifier. -/

/-- `PopFront` finds tasks counted. -/
def startPop (s : SyncServer) : Option SyncServer :=
  if s.queue.readAbleCount = 0 then none
  else
    some { s with
      queue := { s.queue with
        readAbleCount := TaskQueue.decrement s.queue.readAbleCount }
      worker := .look }

/-- `PopFront` takes the task out of the node, unless it is not filled yet. -/
def takeTask (s : SyncServer) : SyncServer :=
  let popPos := s.queue.popPos % TaskQueue.totalNum
  match s.queue.node.lookup popPos with
  | none =>
      { s with
        queue := { s.queue with
          readAbleCount := TaskQueue.increment s.queue.readAbleCount }
        worker := .idle }
  | some c =>
      { s with
        queue := { s.queue with
          popPos := s.queue.popPos + 1
          node := s.queue.node.erase popPos }
        worker := .release c }

/-- `PopFront` counts the node as free. -/
def releaseNode (s : SyncServer) (c : Nat) : SyncServer :=
  { s with
    queue := { s.queue with
      writeAbleCount := TaskQueue.increment s.queue.writeAbleCount }
    worker := .process c }

/-- The next step of the worker in `OneAction`, up to the plugin. -/
def oneAction (s : SyncServer) : Option SyncServer :=
  match s.worker with
  | .idle => s.startPop
  | .look => some s.takeTask
  | .release c => some (s.releaseNode c)
  | .process _ => none
  | .stopped => none

/-- `AddToBack` on the notifier of a call. -/
def addToBack (s : SyncServer) (c : Nat) (response : SyncResponse) :
    SyncServer :=
  match s.call.lookup c with
  | none => { s with fault := some c }
  | some call =>
      if call.phase.over then { s with fault := some c }
      else
        s.setCall c
          { call with
            notifier := call.notifier.addToBack response
            added := call.added + 1 }

/-- `SyncMsgHandler::Process` from the return of the plugin's `SyncProcess` on,
which left a response or not; `newResponse` is whether `IResponse::Create`
makes one. -/
def process (s : SyncServer) (processRetCode : Int)
    (response newResponse : Bool) : Option SyncServer :=
  match s.worker with
  | .process c =>
      let idle := { s with worker := .idle }
      if ¬ response ∧ ¬ newResponse then some idle
      else
        let retCode :=
          if processRetCode ≠ Retcode.success then
            Retcode.algorithmProcessError
          else Retcode.success
        some (idle.addToBack c ⟨c, retCode⟩)
  | _ => none

/-- `StopEngine` takes the engine off the list. -/
def stopEngine (s : SyncServer) : SyncServer := { s with listed := false }

/-- `~Engine` has stopped the worker. Nobody holds the engine. -/
def stopThread (s : SyncServer) : Option SyncServer :=
  if s.listed ∨ s.worker ≠ .idle ∨
      0 < Table.countWith (fun call => call.phase.over = false) s.call then none
  else some { s with worker := .stopped }

/-- One turn of the loop of `ClearQueue`. -/
def clearQueue (s : SyncServer) : Option SyncServer :=
  if s.worker ≠ .stopped ∨ s.queue.readAbleCount = 0 then none
  else
    let popPos := s.queue.popPos % TaskQueue.totalNum
    match s.queue.node.lookup popPos with
    | none => none
    | some _ =>
        some { s with
          queue :=
            { node := s.queue.node.erase popPos
              pushPos := s.queue.pushPos
              popPos := s.queue.popPos + 1
              writeAbleCount := TaskQueue.increment s.queue.writeAbleCount
              readAbleCount := TaskQueue.decrement s.queue.readAbleCount } }

end SyncServer

inductive SyncStep where
  | syncExecute
  | proceed (c : Nat)
  | oneAction
  | process (processRetCode : Int) (response newResponse : Bool)
  | stopEngine
  | stopThread
  | clearQueue

def SyncServer.take (s : SyncServer) : SyncStep → Option SyncServer
  | .syncExecute => s.syncExecute
  | .proceed c => s.proceed c
  | .oneAction => s.oneAction
  | .process processRetCode response newResponse =>
      s.process processRetCode response newResponse
  | .stopEngine => some s.stopEngine
  | .stopThread => s.stopThread
  | .clearQueue => s.clearQueue

def syncMachine : Machine SyncServer SyncStep where
  start := fun s => s = .initial
  step := fun s i => if s.fault = none then s.take i else none

end AiEngine.Ref
