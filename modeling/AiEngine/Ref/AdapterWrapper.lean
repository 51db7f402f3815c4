import AiEngine.Lib.Machine
import AiEngine.Ref.ServerExecutor

/-!
# Adapters in the hands of several threads

`adapter_wrapper.cpp` with the thread of an `AsyncProcessWorker`, seen from the
adapters. Requests are served by any number of threads at once. A wrapper
finds the adapter of its client under a lock, lets go of the lock and counts
itself in, and `RemoveAdapterWrapper` deletes what it finds under the same
lock. A started worker has a pointer that nobody counts.

A step is what a thread does under one lock, or between two. Once a deleted
object is used nothing is known of what follows, so the machine stops there
with a fault.
-/

namespace AiEngine.Ref

open AiEngine.Lib

/-- `SaServerAdapter`, as far as its life goes. -/
structure CountedAdapter where
  adapterId : Int32
  refCount : Int32
  deriving DecidableEq, Repr

/-- The wrappers: the ones that pass a request on to the adapter, and the two
that start and stop the sending of responses. -/
inductive WrapperKind where
  | request
  | registerCallback
  | unregisterCallback
  deriving DecidableEq, Repr

/-- What a wrapper does next. -/
inductive WrapperPhase where
  | incRef
  | serving
  | saveEngineListener
  | findHandler
  | addHandler
  | startAsyncProcess
  | stopAsyncProcess
  | waitThread (handler worker : Nat)
  | removeHandler
  | clearEngineListener
  | decRef
  deriving DecidableEq, Repr

/-- What a wrapper does between `IncRef` and `DecRef`, to begin with. -/
def WrapperKind.body : WrapperKind → WrapperPhase
  | .request => .serving
  | .registerCallback => .saveEngineListener
  | .unregisterCallback => .stopAsyncProcess

/-- A wrapper that has found the adapter of its client. -/
structure WrapperCall where
  kind : WrapperKind
  clientId : Int32
  adapter : Nat
  phase : WrapperPhase
  deriving DecidableEq, Repr

/-- What the thread of an `AsyncProcessWorker` does next: look at `running_`
and fetch a response; in `IpcIoResponse` ask the adapter for the session; ask
it for the listener and send. -/
inductive SendPhase where
  | fetch
  | ipcIoResponse
  | getEngineListener
  | ended
  deriving DecidableEq, Repr

/-- An `AsyncProcessWorker` with its thread's `running_`. -/
structure AsyncProcessWorker where
  handler : Nat
  clientId : Int32
  adapter : Nat
  running : Bool
  phase : SendPhase
  deriving DecidableEq, Repr

/-- Uses of deleted objects. -/
inductive AdapterFault where
  | adapter (adapter : Nat)
  | handler (handler : Nat)
  deriving DecidableEq, Repr

/-- The adapters, the callbacks of their clients with the threads that send
responses, and the wrappers under way. The thread of a handler is the number of
its worker. -/
structure AdapterServer where
  adapters : Table Int32 Nat
  adapter : Table Nat CountedAdapter
  adapterNum : Nat
  clientIdAtomic : Int
  asyncHandler : SaAsyncHandler
  worker : Table Nat AsyncProcessWorker
  workerNum : Nat
  call : Table Nat WrapperCall
  callNum : Nat
  fault : Option AdapterFault

/-- What a step of a wrapper finds: what the allocator and the thread library
grant, and whether the request has been served. -/
structure WrapperEnv where
  callbacks : CallbackEnv
  newThreadPool : Bool
  newThread : Bool
  startThread : Bool
  served : Bool

/-- Everything is granted, and requests are served at once. -/
def WrapperEnv.willing : WrapperEnv := ⟨.willing, true, true, true, true⟩

namespace AdapterServer

def initial : AdapterServer where
  adapters := ∅
  adapter := ∅
  adapterNum := 0
  clientIdAtomic := 0
  asyncHandler := .initial
  worker := ∅
  workerNum := 0
  call := ∅
  callNum := 0
  fault := none

def setFault (s : AdapterServer) (fault : AdapterFault) : AdapterServer :=
  { s with fault := some fault }

def setPhase (s : AdapterServer) (k : Nat) (call : WrapperCall)
    (phase : WrapperPhase) : AdapterServer :=
  { s with call := s.call.insert k { call with phase } }

def setWorker (s : AdapterServer) (w : Nat) (worker : AsyncProcessWorker)
    (phase : SendPhase) : AdapterServer :=
  { s with worker := s.worker.insert w { worker with phase } }

def setHandler (s : AdapterServer) (h : Nat)
    (handler : ClientListenerHandler) : AdapterServer :=
  { s with asyncHandler := { s.asyncHandler with
    handler := s.asyncHandler.handler.insert h handler } }

/-- A call of a method of an adapter, which leads to `next`. -/
def useAdapter (s : AdapterServer) (a : Nat) (next : AdapterServer) :
    AdapterServer :=
  if a ∈ s.adapter then next else s.setFault (.adapter a)

/-- `FindAdapter`. -/
def findAdapter (s : AdapterServer) (clientId : Int32) : Option Nat :=
  s.adapters.lookup clientId

/-- `GenerateClient`, under `g_connectMutex`. -/
def generateClient (s : AdapterServer) (newAdapter : Bool) : AdapterServer :=
  if maxNumClients < s.adapters.keys.card then s
  else
    let used := s.adapters.keys.image Int32.toInt
    let clientId := FreshId.search startingClientId intMax used
      (used.card + 1) s.clientIdAtomic
    let s := { s with clientIdAtomic := clientId }
    if ¬ newAdapter then s
    else
      let id := Int32.ofInt clientId
      { s with
        adapters := s.adapters.insert id s.adapterNum
        adapter := s.adapter.insert s.adapterNum ⟨id, 0⟩
        adapterNum := s.adapterNum + 1 }

/-- `RemoveAdapterWrapper`, under `g_serverAdapterMutex`. -/
def removeAdapter (s : AdapterServer) (clientId : Int32) : AdapterServer :=
  match s.findAdapter clientId with
  | none => s
  | some a =>
      { s with
        adapters := s.adapters.erase clientId
        adapter := s.adapter.erase a }

/-! ## The wrappers

The wrappers share their outer half: find the adapter, count one more user of
it, do the work in one or several locked sections, and count one less.
`WrapperCall` says where a thread is on this way. -/

/-- A wrapper of the client finds the adapter. -/
def beginCall (s : AdapterServer) (kind : WrapperKind) (clientId : Int32) :
    AdapterServer :=
  match s.findAdapter clientId with
  | none => s
  | some a =>
      { s with
        call := s.call.insert s.callNum ⟨kind, clientId, a, .incRef⟩
        callNum := s.callNum + 1 }

/-- `AdapterWrapper(adapter)`. -/
def incRef (s : AdapterServer) (k : Nat) (call : WrapperCall) :
    AdapterServer :=
  match s.adapter.lookup call.adapter with
  | none => s.setFault (.adapter call.adapter)
  | some x =>
      let adapter := s.adapter.insert call.adapter
        { x with refCount := x.refCount + 1 }
      { s with adapter }.setPhase k call call.kind.body

/-- `~AdapterWrapper`, which ends the wrapper. -/
def decRef (s : AdapterServer) (k : Nat) (call : WrapperCall) :
    AdapterServer :=
  match s.adapter.lookup call.adapter with
  | none => s.setFault (.adapter call.adapter)
  | some x =>
      { s with
        adapter := s.adapter.insert call.adapter
          { x with refCount := x.refCount - 1 }
        call := s.call.erase k }

/-- `GetInstance`, and the search of `RegisterAsyncHandler`. -/
def findHandler (s : AdapterServer) (env : WrapperEnv) (k : Nat)
    (call : WrapperCall) : AdapterServer :=
  match s.asyncHandler.getInstance env.callbacks.newSaAsyncHandler with
  | (false, _) => s.setPhase k call .decRef
  | (true, asyncHandler) =>
      let s := { s with asyncHandler }
      match s.asyncHandler.findClientListenerHandler call.clientId with
      | none => s.setPhase k call .addHandler
      | some _ => s.setPhase k call .startAsyncProcess

/-- `AddClientListenerHandler`. -/
def addHandler (s : AdapterServer) (env : WrapperEnv) (k : Nat)
    (call : WrapperCall) : AdapterServer :=
  let asyncHandler := s.asyncHandler.addClientListenerHandler
    env.callbacks.newClientListenerHandler call.clientId
  { s with asyncHandler }.setPhase k call .startAsyncProcess

/-- `StartAsyncProcess` with `StartAsyncProcessThread`. -/
def startAsyncProcess (s : AdapterServer) (env : WrapperEnv) (k : Nat)
    (call : WrapperCall) : AdapterServer :=
  let s := s.setPhase k call .decRef
  match s.asyncHandler.findClientListenerHandler call.clientId with
  | none => s
  | some h =>
      match s.asyncHandler.handler.lookup h with
      | none => s
      | some handler =>
          if ¬ env.newThreadPool then s
          else if handler.asyncProcessThread ≠ none ∨
              handler.asyncProcessWorker then s
          else if ¬ env.newThread ∨ ¬ env.callbacks.newAsyncProcessWorker ∨
              ¬ env.startThread then s
          else
            { s.setHandler h { handler with
                asyncProcessThread := some s.workerNum
                asyncProcessWorker := true } with
              worker := s.worker.insert s.workerNum
                ⟨h, call.clientId, call.adapter, true, .fetch⟩
              workerNum := s.workerNum + 1 }

/-- `StopAsyncProcess` up to `StopThread`, which makes the worker leave its
loop and waits for it. -/
def stopAsyncProcess (s : AdapterServer) (env : WrapperEnv) (k : Nat)
    (call : WrapperCall) : AdapterServer :=
  match s.asyncHandler.getInstance env.callbacks.newSaAsyncHandler with
  | (false, _) => s.setPhase k call .decRef
  | (true, asyncHandler) =>
      let s := { s with asyncHandler }
      match s.asyncHandler.findClientListenerHandler call.clientId with
      | none => s.setPhase k call .removeHandler
      | some h =>
          match s.asyncHandler.handler.lookup h with
          | none => s.setPhase k call .removeHandler
          | some handler =>
              match handler.asyncProcessThread with
              | none =>
                  (s.setHandler h { handler with
                    asyncProcessWorker := false }).setPhase k call .removeHandler
              | some w =>
                  match s.worker.lookup w with
                  | none => s.setPhase k call .removeHandler
                  | some worker =>
                      (s.setWorker w { worker with running := false }
                        worker.phase).setPhase k call (.waitThread h w)

/-- The rest of `StopAsyncProcessThread`, when the worker has left its
loop. -/
def threadStopped (s : AdapterServer) (env : WrapperEnv) (k : Nat)
    (call : WrapperCall) (h w : Nat) : Option AdapterServer :=
  match s.worker.lookup w with
  | none => none
  | some worker =>
      if worker.phase ≠ .ended then none
      else if ¬ env.newThreadPool then some (s.setPhase k call .removeHandler)
      else
        match s.asyncHandler.handler.lookup h with
        | none => some (s.setFault (.handler h))
        | some handler =>
            some ((s.setHandler h { handler with
              asyncProcessThread := none
              asyncProcessWorker := false }).setPhase k call .removeHandler)

/-- `RemoveClientListenerHandler`. -/
def removeHandler (s : AdapterServer) (k : Nat) (call : WrapperCall) :
    AdapterServer :=
  let asyncHandler :=
    s.asyncHandler.removeClientListenerHandler call.clientId
  { s with asyncHandler }.setPhase k call .clearEngineListener

/-- The next step of a wrapper. -/
def serve (s : AdapterServer) (env : WrapperEnv) (k : Nat) :
    Option AdapterServer :=
  match s.call.lookup k with
  | none => none
  | some call =>
      match call.phase with
      | .incRef => some (s.incRef k call)
      | .serving =>
          let phase := if env.served then .decRef else .serving
          some (s.useAdapter call.adapter (s.setPhase k call phase))
      | .saveEngineListener =>
          some (s.useAdapter call.adapter (s.setPhase k call .findHandler))
      | .findHandler => some (s.findHandler env k call)
      | .addHandler => some (s.addHandler env k call)
      | .startAsyncProcess => some (s.startAsyncProcess env k call)
      | .stopAsyncProcess => some (s.stopAsyncProcess env k call)
      | .waitThread h w => s.threadStopped env k call h w
      | .removeHandler => some (s.removeHandler k call)
      | .clearEngineListener =>
          some (s.useAdapter call.adapter (s.setPhase k call .decRef))
      | .decRef => some (s.decRef k call)

/-- The next step of a worker's thread; `sent` is whether the client was
reached. -/
def oneAction (s : AdapterServer) (w : Nat) (sent : Bool) :
    Option AdapterServer :=
  match s.worker.lookup w with
  | none => none
  | some worker =>
      match worker.phase with
      | .fetch =>
          if ¬ worker.running then some (s.setWorker w worker .ended)
          else
            match s.asyncHandler.handler.lookup worker.handler with
            | none => some (s.setFault (.handler worker.handler))
            | some handler =>
                match handler.responses with
                | [] => some s
                | _ :: responses =>
                    some ((s.setHandler worker.handler
                      { handler with responses }).setWorker w worker
                        .ipcIoResponse)
      | .ipcIoResponse =>
          some (s.useAdapter worker.adapter
            (s.setWorker w worker .getEngineListener))
      | .getEngineListener =>
          let phase := if sent then .fetch else .ended
          some (s.useAdapter worker.adapter (s.setWorker w worker phase))
      | .ended => none

/-- `PushAsyncResponse`, by the worker of an engine. -/
def pushAsyncResponse (s : AdapterServer) (clientId : Int32) (response : Nat) :
    AdapterServer :=
  match s.asyncHandler.findClientListenerHandler clientId with
  | none => s
  | some h =>
      match s.asyncHandler.handler.lookup h with
      | none => s.setFault (.handler h)
      | some handler =>
          s.setHandler h
            { handler with responses := handler.responses ++ [response] }

end AdapterServer

inductive AdapterStep where
  | generateClient (newAdapter : Bool)
  | removeAdapter (clientId : Int32)
  | beginCall (kind : WrapperKind) (clientId : Int32)
  | serve (env : WrapperEnv) (k : Nat)
  | oneAction (w : Nat) (sent : Bool)
  | pushAsyncResponse (clientId : Int32) (response : Nat)

def AdapterServer.take (s : AdapterServer) :
    AdapterStep → Option AdapterServer
  | .generateClient newAdapter => some (s.generateClient newAdapter)
  | .removeAdapter clientId => some (s.removeAdapter clientId)
  | .beginCall kind clientId => some (s.beginCall kind clientId)
  | .serve env k => s.serve env k
  | .oneAction w sent => s.oneAction w sent
  | .pushAsyncResponse clientId response =>
      some (s.pushAsyncResponse clientId response)

def adapterMachine : Machine AdapterServer AdapterStep where
  start := fun s => s = .initial
  step := fun s i => if s.fault = none then s.take i else none

end AiEngine.Ref
