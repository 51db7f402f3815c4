import AiEngine.Lib.FreshId
import AiEngine.Lib.Table
import AiEngine.Ref.DataChannel

/-!
# Futures

`future_factory.cpp` and `future.cpp`. A future stands for a response that is
still to come. The factory finds it by the sequence id it gave to the request,
and finds the listener to tell by the request's transaction id. Both maps
lead to objects that the factory deletes, so the objects are kept apart from
the maps: a number that is no longer in the table of live objects is a pointer
to a deleted one.

Requests and responses are numbered too; a future points to its request and,
while one is being delivered, to a response.
-/

namespace AiEngine.Ref

open AiEngine.Lib

def maxNumFutures : Nat := 1024
def invalidSequenceId : Int := -1
def minSequenceId : Int := 1

/-- `LLONG_MAX`. -/
def longLongMax : Int := 9223372036854775807

inductive PluginEvent where
  | onPluginSucceed
  | onPluginFail
  deriving DecidableEq, Repr

inductive FutureStatus where
  | futureOk
  | futureError
  deriving DecidableEq, Repr

/-- `Future::ConvertPluginStatus`. -/
def convertPluginStatus : PluginEvent → FutureStatus
  | .onPluginSucceed => .futureOk
  | .onPluginFail => .futureError

structure Future where
  sequenceId : Int
  transactionId : Int64
  request : Nat
  response : Option Nat
  status : FutureStatus
  deriving DecidableEq, Repr

/-- `FutureListener`, with the client it answers to. -/
structure FutureListener where
  clientId : Int32
  deriving DecidableEq, Repr

structure FutureFactory where
  /-- Whether `FutureFactory::instance_` is set. -/
  hasInstance : Bool
  sequenceId : Int
  futures : Table Int Nat
  listeners : Table Int64 Nat
  future : Table Nat Future
  futureNum : Nat
  listener : Table Nat FutureListener
  listenerNum : Nat

namespace FutureFactory

def initial : FutureFactory where
  hasInstance := false
  sequenceId := 0
  futures := ∅
  listeners := ∅
  future := ∅
  futureNum := 0
  listener := ∅
  listenerNum := 0

/-- `FutureFactory::GetInstance()`; `alloc` is whether `new` succeeds. -/
def getInstance (f : FutureFactory) (alloc : Bool) : Bool × FutureFactory :=
  if f.hasInstance then (true, f) else (alloc, { f with hasInstance := alloc })

/-- `FindSequenceId`. The loop takes a step for every id in use and one more
at most. -/
def findSequenceId (f : FutureFactory) : Int × FutureFactory :=
  if maxNumFutures < f.futures.keys.card then (invalidSequenceId, f)
  else
    let sequenceId := FreshId.search minSequenceId longLongMax f.futures.keys
      (f.futures.keys.card + 1) f.sequenceId
    (sequenceId, { f with sequenceId })

/-- `new Future(request, sequenceId, transactionId)` and `AddFuture`. -/
def addFuture (f : FutureFactory) (sequenceId : Int) (request : Nat)
    (transactionId : Int64) : FutureFactory :=
  { f with
    futures := f.futures.insert sequenceId f.futureNum
    future := f.future.insert f.futureNum
      ⟨sequenceId, transactionId, request, none, .futureOk⟩
    futureNum := f.futureNum + 1 }

/-- `CreateFuture`; the sequence id is what the request is given. -/
def createFuture (f : FutureFactory) (newFuture : Bool) (request : Nat)
    (transactionId : Int64) : Int × Option Int × FutureFactory :=
  match f.findSequenceId with
  | (sequenceId, f) =>
      if sequenceId = invalidSequenceId then (Retcode.nullParam, none, f)
      else if ¬ newFuture then (Retcode.outOfMemory, some sequenceId, f)
      else
        (Retcode.success, some sequenceId,
          f.addFuture sequenceId request transactionId)

/-- `DeleteFuture`. -/
def deleteFuture (f : FutureFactory) (sequenceId : Int) : FutureFactory :=
  match f.futures.lookup sequenceId with
  | none => f
  | some future =>
      { f with
        future := f.future.erase future
        futures := f.futures.erase sequenceId }

/-- `FetchFuture` by the response's sequence id. -/
def fetchFuture (f : FutureFactory) (sequenceId : Int) : Option Nat :=
  f.futures.lookup sequenceId

/-- `FindListener`. -/
def findListener (f : FutureFactory) (transactionId : Int64) : Option Nat :=
  f.listeners.lookup transactionId

/-- `new FutureListener(handler, clientId)` and `RegisterListener`. -/
def registerListener (f : FutureFactory) (clientId : Int32)
    (transactionId : Int64) : FutureFactory :=
  { f with
    listener := f.listener.insert f.listenerNum ⟨clientId⟩
    listeners := f.listeners.insert transactionId f.listenerNum
    listenerNum := f.listenerNum + 1 }

/-- `UnregisterListener`. -/
def unregisterListener (f : FutureFactory) (transactionId : Int64) :
    FutureFactory :=
  match f.listeners.lookup transactionId with
  | none => f
  | some listener =>
      { f with
        listener := f.listener.erase listener
        listeners := f.listeners.erase transactionId }

end FutureFactory

end AiEngine.Ref
