import AiEngine.Lib.Machine
import AiEngine.Ref.SaAsyncHandler
import AiEngine.Ref.SaServerAdapter
import AiEngine.Ref.ServerExecutor

/-!
# Asynchronous requests and their responses

`async_msg_handler.cpp`, the asynchronous half of `engine_worker.cpp`,
`ProcessResponse` of `future_factory.cpp`, `future_listener.cpp` and
`PushAsyncResponse` of `sa_async_handler.cpp`, run by several threads: the one
that serves the clients, the engines' workers, the plugins' own, and those
that send responses to the clients.

A step is what a thread does under one lock, or between two. A call that is
under way has a phase that says which step comes next and which pointers it
has in hand. Sections that touch only what the service thread alone reads are
part of the step before. Once a pointer to a deleted object is used nothing
is known of what follows, so the machine stops there with a fault.

A refused call changes nothing and is no step. Engines are what a transaction
leads to: a queue and a worker. That an engine is stopped when nobody holds it
any longer is all that is kept of the engine manager here.
-/

namespace AiEngine.Ref

open AiEngine.Lib

/-! ## The state

Requests, futures, responses and the calls of `OnEvent` are objects with
numbers of their own, which the maps of the source point to. What a thread has
come to in a call is a phase of that call. -/

/-- How far a request has come: counted in by `SendRequest`, given a sequence
id, given a future, queued, with the plugin, and back from it; or refused, or
dropped by `ClearQueue`. -/
inductive RequestPhase where
  | counted
  | numbered
  | added
  | queued
  | processing
  | processed
  | failed
  | refused
  | dropped
  deriving DecidableEq, Repr

/-- A request, the client and session it came from, and whether an `OnEvent`
for it has returned. -/
structure AsyncRequest where
  clientInfo : ClientInfo
  request : Request
  engine : Nat
  phase : RequestPhase
  answered : Bool
  deriving DecidableEq, Repr

/-- Who will destroy a response: the `OnEvent` call it came with, a future, or
the list it was appended to. -/
inductive ResponseOwner where
  | call
  | future (future : Nat)
  | handler (handler : Nat)
  deriving DecidableEq, Repr

/-- A response with the request it was created from. -/
structure AsyncResponse where
  request : Nat
  response : Response
  owner : ResponseOwner
  deriving DecidableEq, Repr

/-- What a call of `OnEvent` does next: the steps of `ProcessResponse`, with
`FutureListener::OnReply` and `PushAsyncResponse` in their place. -/
inductive CallPhase where
  | fetchFuture
  | setResponse (future : Nat)
  | findListener (future : Nat)
  | onReply (future listener : Nat)
  | findHandler (future : Nat) (clientId : Int32) (response : Nat)
  | addCallbackRecord (future handler response : Nat)
  | detachResponse (future : Nat)
  | deleteFuture (sequenceId : Int)
  deriving DecidableEq, Repr

namespace CallPhase

/-- The future a call has a pointer to. -/
def future : CallPhase → Option Nat
  | .fetchFuture => none
  | .setResponse f => some f
  | .findListener f => some f
  | .onReply f _ => some f
  | .findHandler f _ _ => some f
  | .addCallbackRecord f _ _ => some f
  | .detachResponse f => some f
  | .deleteFuture _ => none

/-- The listener a call has a pointer to. -/
def listener : CallPhase → Option Nat
  | .onReply _ l => some l
  | _ => none

/-- The client's handler a call has a pointer to. -/
def handler : CallPhase → Option Nat
  | .addCallbackRecord _ h _ => some h
  | _ => none

end CallPhase

/-- A call of `OnEvent`. Its response has its number. -/
structure EventCall where
  request : Nat
  event : PluginEvent
  phase : CallPhase
  deriving DecidableEq, Repr

inductive WorkerState where
  | idle
  | processing (request : Nat)
  | stopped
  deriving DecidableEq, Repr

/-- An engine with an `AsyncMsgHandler`. -/
structure AsyncEngine where
  queue : Queue Nat
  worker : WorkerState
  deriving DecidableEq, Repr

/-- That a response was appended to the list of a client. -/
structure Delivery where
  clientId : Int32
  request : Nat
  transactionId : Int64
  deriving DecidableEq, Repr

/-- Uses of deleted objects: `OnReply` of a listener, `AddCallbackRecord` of a
handler, anything of a future or a response. -/
inductive Fault where
  | onReply (listener : Nat)
  | addCallbackRecord (handler : Nat)
  | future (future : Nat)
  | response (response : Nat)
  deriving DecidableEq, Repr

structure AsyncServer where
  factory : FutureFactory
  asyncHandler : SaAsyncHandler
  clientEngines : Table Int64 Nat
  engine : Table Nat AsyncEngine
  engineNum : Nat
  request : Table Nat AsyncRequest
  requestNum : Nat
  response : Table Nat AsyncResponse
  call : Table Nat EventCall
  callNum : Nat
  delivered : List Delivery
  fault : Option Fault

namespace AsyncServer

def initial : AsyncServer where
  factory := .initial
  asyncHandler := .initial
  clientEngines := ∅
  engine := ∅
  engineNum := 0
  request := ∅
  requestNum := 0
  response := ∅
  call := ∅
  callNum := 0
  delivered := []
  fault := none

def setEngine (s : AsyncServer) (e : Nat) (engine : AsyncEngine) :
    AsyncServer :=
  { s with engine := s.engine.insert e engine }

def setRequest (s : AsyncServer) (r : Nat) (request : AsyncRequest) :
    AsyncServer :=
  { s with request := s.request.insert r request }

def setFuture (s : AsyncServer) (f : Nat) (future : Future) : AsyncServer :=
  { s with factory :=
    { s.factory with future := s.factory.future.insert f future } }

def setCall (s : AsyncServer) (c : Nat) (call : EventCall)
    (phase : CallPhase) : AsyncServer :=
  { s with call := s.call.insert c { call with phase } }

def setOwner (s : AsyncServer) (x : Nat) (owner : ResponseOwner) :
    AsyncServer :=
  match s.response.lookup x with
  | none => s
  | some response =>
      { s with response := s.response.insert x { response with owner } }

def setFault (s : AsyncServer) (fault : Fault) : AsyncServer :=
  { s with fault := some fault }

/-- `IResponse::Destroy`, when there is a response. -/
def destroyResponse (s : AsyncServer) : Option Nat → AsyncServer
  | none => s
  | some x =>
      if x ∈ s.response then { s with response := s.response.erase x }
      else s.setFault (.response x)

/-- An engine is made, with a queue from the pool. -/
def createEngine (s : AsyncServer) (singleQueueCapacity : Nat) : AsyncServer :=
  { s with
    engine := s.engine.insert s.engineNum ⟨.new singleQueueCapacity, .idle⟩
    engineNum := s.engineNum + 1 }

/-- `RecordClient`, for an engine that is not being destroyed. -/
def recordClient (s : AsyncServer) (transactionId : Int64) (e : Nat) :
    Option AsyncServer :=
  match s.engine.lookup e with
  | none => none
  | some engine =>
      if engine.worker = .stopped then none
      else
        some { s with clientEngines := s.clientEngines.insert transactionId e }

def unRecordClient (s : AsyncServer) (transactionId : Int64) : AsyncServer :=
  { s with clientEngines := s.clientEngines.erase transactionId }

/-- Whether a transaction or a `SendRequest` under way holds the engine. -/
def EngineHeld (s : AsyncServer) (e : Nat) : Prop :=
  0 < Table.countWith (· = e) s.clientEngines ∨
    0 < Table.countWith (fun q => q.engine = e ∧
      q.phase ∈ [.counted, .numbered, .added]) s.request

instance (s : AsyncServer) (e : Nat) : Decidable (s.EngineHeld e) :=
  inferInstanceAs (Decidable (_ ∨ _))

/-- `~Engine` has waited for the worker. -/
def stopThread (s : AsyncServer) (e : Nat) : Option AsyncServer :=
  match s.engine.lookup e with
  | none => none
  | some engine =>
      if s.EngineHeld e ∨ engine.worker ≠ .idle then none
      else some (s.setEngine e { engine with worker := .stopped })

/-- One turn of the loop of `ClearQueue`. -/
def clearQueue (s : AsyncServer) (e : Nat) : Option AsyncServer :=
  match s.engine.lookup e with
  | none => none
  | some engine =>
      if engine.worker ≠ .stopped then none
      else
        match engine.queue.popFront with
        | (_, none, _) => none
        | (_, some r, queue) =>
            match s.request.lookup r with
            | none => none
            | some request =>
                some ((s.setEngine e { engine with queue }).setRequest r
                  { request with phase := .dropped })

/-- `StartAsyncTransaction` for a session of a client. -/
def startAsyncTransaction (s : AsyncServer) (env : CallbackEnv)
    (clientInfo : ClientInfo) : AsyncServer :=
  match s.asyncHandler.startAsyncTransaction s.factory env
      (getTransactionId clientInfo.clientId clientInfo.sessionId)
      clientInfo.clientId with
  | (_, asyncHandler, factory) => { s with asyncHandler, factory }

def stopAsyncTransaction (s : AsyncServer) (env : CallbackEnv)
    (transactionId : Int64) : AsyncServer :=
  match s.asyncHandler.stopAsyncTransaction s.factory env transactionId with
  | (asyncHandler, factory) => { s with asyncHandler, factory }

def registerAsyncHandler (s : AsyncServer) (env : CallbackEnv)
    (clientId : Int32) : AsyncServer :=
  { s with asyncHandler := s.asyncHandler.registerAsyncHandler env clientId }

/-- `~ClientListenerHandler`. -/
def destroyResponses (s : AsyncServer) : List Nat → AsyncServer
  | [] => s
  | x :: xs => (s.destroyResponse (some x)).destroyResponses xs

/-- `StopAsyncProcess`, after the sending thread was joined. -/
def stopAsyncProcess (s : AsyncServer) (clientId : Int32) : AsyncServer :=
  let removed := { s with
    asyncHandler := s.asyncHandler.removeClientListenerHandler clientId }
  match (s.asyncHandler.findClientListenerHandler clientId).bind
      s.asyncHandler.handler.lookup with
  | none => removed
  | some handler => removed.destroyResponses handler.responses

/-- `AsyncProcessWorker::OneAction`: the first response of the list is sent
and destroyed. -/
def sendResponse (s : AsyncServer) (h : Nat) : Option AsyncServer :=
  match s.asyncHandler.handler.lookup h with
  | none => none
  | some handler =>
      match handler.responses with
      | [] => none
      | x :: responses =>
          let asyncHandler := { s.asyncHandler with
            handler :=
              s.asyncHandler.handler.insert h { handler with responses } }
          some ({ s with asyncHandler }.destroyResponse (some x))

/-! ## Requests

The three sections of `AsyncProcess`, each of which can refuse the request:
the search for a sequence id, the entry of the future, and the queue. -/

/-- The part of `AsyncMsgHandler::SendRequest` before the future, for the
engine of the session. The adapter of a client has the client's id. -/
def sendRequest (s : AsyncServer) (clientInfo : ClientInfo)
    (algoInfo : AlgorithmInfo) (inputInfo : DataInfo) : Option AsyncServer :=
  let request :=
    convertToRequest clientInfo.clientId clientInfo algoInfo inputInfo
  match s.clientEngines.lookup request.transactionId with
  | none => none
  | some e =>
      match s.engine.lookup e with
      | none => none
      | some engine =>
          if maxAsyncMsgNum ≤ engine.queue.count then none
          else
            some { s.setRequest s.requestNum
                ⟨clientInfo, request, e, .counted, false⟩ with
              requestNum := s.requestNum + 1 }

/-- `GetInstance` and `FindSequenceId`. -/
def findSequenceId (s : AsyncServer) (newFutureFactory : Bool) (r : Nat) :
    Option AsyncServer :=
  match s.request.lookup r with
  | none => none
  | some request =>
      if request.phase ≠ .counted then none
      else
        match s.factory.getInstance newFutureFactory with
        | (false, _) => some (s.setRequest r { request with phase := .refused })
        | (true, factory) =>
            match factory.findSequenceId with
            | (sequenceId, factory) =>
                let s := { s with factory }
                if sequenceId = invalidSequenceId then
                  some (s.setRequest r { request with phase := .refused })
                else
                  some (s.setRequest r { request with
                    request :=
                      { request.request with innerSequenceId := sequenceId }
                    phase := .numbered })

/-- The rest of `CreateFuture`. -/
def addFuture (s : AsyncServer) (newFuture : Bool) (r : Nat) :
    Option AsyncServer :=
  match s.request.lookup r with
  | none => none
  | some request =>
      if request.phase ≠ .numbered then none
      else if ¬ newFuture then
        some (s.setRequest r { request with phase := .refused })
      else
        let factory := s.factory.addFuture request.request.innerSequenceId r
          request.request.transactionId
        some ({ s with factory }.setRequest r { request with phase := .added })

/-- `PushBack`, whose result is that of `SendRequest`. -/
def pushBack (s : AsyncServer) (r : Nat) : Option AsyncServer :=
  match s.request.lookup r with
  | none => none
  | some request =>
      if request.phase ≠ .added then none
      else
        match s.engine.lookup request.engine with
        | none => none
        | some engine =>
            match engine.queue.pushBack r with
            | (retCode, queue) =>
                if retCode ≠ Retcode.success then
                  some (s.setRequest r { request with phase := .refused })
                else
                  some ((s.setEngine request.engine
                    { engine with queue }).setRequest r
                      { request with phase := .queued })

/-- `EngineWorker::OneAction` up to the plugin's `AsyncProcess`. -/
def popFront (s : AsyncServer) (e : Nat) : Option AsyncServer :=
  match s.engine.lookup e with
  | none => none
  | some engine =>
      if engine.worker ≠ .idle then none
      else
        match engine.queue.popFront with
        | (_, none, _) => none
        | (_, some r, queue) =>
            match s.request.lookup r with
            | none => none
            | some request =>
                some ((s.setEngine e ⟨queue, .processing r⟩).setRequest r
                  { request with phase := .processing })

/-- `AsyncProcess` returns, and the request is destroyed. -/
def asyncProcessed (s : AsyncServer) (e : Nat) (success : Bool) :
    Option AsyncServer :=
  match s.engine.lookup e with
  | none => none
  | some engine =>
      match engine.worker with
      | .idle => none
      | .stopped => none
      | .processing r =>
          match s.request.lookup r with
          | none => none
          | some request =>
              let phase := if success then .processed else .failed
              some ((s.setEngine e { engine with worker := .idle }).setRequest r
                { request with phase })

/-! ## Responses

`OnEvent` and what follows it, a step for each access to an object that other
threads know as well. The fault of a step is recorded where an object is used
that has been deleted. -/

/-- The plugin calls `OnEvent` for a request it was given, with a response
created from it. The factory exists, the request got its id there. -/
def onEvent (s : AsyncServer) (r : Nat) (event : PluginEvent) (retCode : Int)
    (result : DataInfo) : Option AsyncServer :=
  match s.request.lookup r with
  | none => none
  | some request =>
      if request.phase ∈ [.processing, .processed, .failed] then
        let response := { Response.create request.request with retCode, result }
        some { s with
          response := s.response.insert s.callNum ⟨r, response, .call⟩
          call := s.call.insert s.callNum ⟨r, event, .fetchFuture⟩
          callNum := s.callNum + 1 }
      else none

/-- `OnEvent` returns. -/
def endCall (s : AsyncServer) (c : Nat) (call : EventCall) : AsyncServer :=
  let ended := { s with call := s.call.erase c }
  match s.request.lookup call.request with
  | none => ended
  | some request => ended.setRequest call.request { request with answered := true }

/-- `FetchFuture`. -/
def fetchFuture (s : AsyncServer) (c : Nat) (call : EventCall) : AsyncServer :=
  match s.response.lookup c with
  | none => s.setFault (.response c)
  | some response =>
      match s.factory.fetchFuture response.response.innerSequenceId with
      | none => s.endCall c call
      | some f => s.setCall c call (.setResponse f)

/-- `Future::SetResponse`. -/
def setResponse (s : AsyncServer) (c : Nat) (call : EventCall) (f : Nat) :
    AsyncServer :=
  match s.factory.future.lookup f with
  | none => s.setFault (.future f)
  | some future =>
      let s := (s.destroyResponse future.response).setFuture f
        { future with
          status := convertPluginStatus call.event
          response := some c }
      (s.setOwner c (.future f)).setCall c call (.findListener f)

/-- `FindListener`. -/
def findListener (s : AsyncServer) (c : Nat) (call : EventCall) (f : Nat) :
    AsyncServer :=
  match s.response.lookup c with
  | none => s.setFault (.response c)
  | some response =>
      match s.factory.findListener response.response.transactionId with
      | none => s.endCall c call
      | some l => s.setCall c call (.onReply f l)

/-- `FutureListener::OnReply`. -/
def onReply (s : AsyncServer) (c : Nat) (call : EventCall) (f l : Nat) :
    AsyncServer :=
  match s.factory.listener.lookup l with
  | none => s.setFault (.onReply l)
  | some listener =>
      match s.factory.future.lookup f with
      | none => s.setFault (.future f)
      | some future =>
          match future.response with
          | none => s.setCall c call (.detachResponse f)
          | some x => s.setCall c call (.findHandler f listener.clientId x)

/-- `PushAsyncResponse`. -/
def findHandler (s : AsyncServer) (c : Nat) (call : EventCall) (f : Nat)
    (clientId : Int32) (x : Nat) : AsyncServer :=
  match s.asyncHandler.findClientListenerHandler clientId with
  | none => s.setCall c call (.detachResponse f)
  | some h => s.setCall c call (.addCallbackRecord f h x)

/-- `ClientListenerHandler::AddCallbackRecord`. -/
def addCallbackRecord (s : AsyncServer) (c : Nat) (call : EventCall)
    (f h x : Nat) : AsyncServer :=
  match s.asyncHandler.handler.lookup h with
  | none => s.setFault (.addCallbackRecord h)
  | some handler =>
      match s.response.lookup x with
      | none => s.setFault (.response x)
      | some response =>
          let asyncHandler := { s.asyncHandler with
            handler := s.asyncHandler.handler.insert h
              { handler with responses := handler.responses ++ [x] } }
          let delivered := s.delivered ++
            [⟨handler.clientId, response.request, response.response.transactionId⟩]
          ({ s with asyncHandler, delivered }.setOwner x (.handler h)).setCall c
            call (.detachResponse f)

/-- `Future::DetachResponse`, and the sequence id is read. -/
def detachResponse (s : AsyncServer) (c : Nat) (call : EventCall) (f : Nat) :
    AsyncServer :=
  match s.factory.future.lookup f with
  | none => s.setFault (.future f)
  | some future =>
      (s.setFuture f { future with response := none }).setCall c call
        (.deleteFuture future.sequenceId)

/-- `DeleteFuture` with `~Future`. -/
def deleteFuture (s : AsyncServer) (c : Nat) (call : EventCall)
    (sequenceId : Int) : AsyncServer :=
  match s.factory.futures.lookup sequenceId with
  | none => s.endCall c call
  | some f =>
      match s.factory.future.lookup f with
      | none => s.setFault (.future f)
      | some future =>
          let factory := s.factory.deleteFuture sequenceId
          ({ s with factory }.destroyResponse future.response).endCall c call

/-- The next step of a call. -/
def processResponse (s : AsyncServer) (c : Nat) : Option AsyncServer :=
  match s.call.lookup c with
  | none => none
  | some call =>
      match call.phase with
      | .fetchFuture => some (s.fetchFuture c call)
      | .setResponse f => some (s.setResponse c call f)
      | .findListener f => some (s.findListener c call f)
      | .onReply f l => some (s.onReply c call f l)
      | .findHandler f clientId x => some (s.findHandler c call f clientId x)
      | .addCallbackRecord f h x => some (s.addCallbackRecord c call f h x)
      | .detachResponse f => some (s.detachResponse c call f)
      | .deleteFuture sequenceId => some (s.deleteFuture c call sequenceId)

end AsyncServer

inductive AsyncStep where
  | createEngine (singleQueueCapacity : Nat)
  | recordClient (transactionId : Int64) (e : Nat)
  | unRecordClient (transactionId : Int64)
  | stopThread (e : Nat)
  | clearQueue (e : Nat)
  | startAsyncTransaction (env : CallbackEnv) (clientInfo : ClientInfo)
  | stopAsyncTransaction (env : CallbackEnv) (transactionId : Int64)
  | registerAsyncHandler (env : CallbackEnv) (clientId : Int32)
  | stopAsyncProcess (clientId : Int32)
  | sendResponse (h : Nat)
  | sendRequest (clientInfo : ClientInfo) (algoInfo : AlgorithmInfo)
      (inputInfo : DataInfo)
  | findSequenceId (newFutureFactory : Bool) (r : Nat)
  | addFuture (newFuture : Bool) (r : Nat)
  | pushBack (r : Nat)
  | popFront (e : Nat)
  | asyncProcessed (e : Nat) (success : Bool)
  | onEvent (r : Nat) (event : PluginEvent) (retCode : Int) (result : DataInfo)
  | processResponse (c : Nat)

/-- A step that is possible where nothing has gone wrong yet. -/
def AsyncServer.take (s : AsyncServer) : AsyncStep → Option AsyncServer
  | .createEngine singleQueueCapacity =>
      some (s.createEngine singleQueueCapacity)
  | .recordClient transactionId e => s.recordClient transactionId e
  | .unRecordClient transactionId => some (s.unRecordClient transactionId)
  | .stopThread e => s.stopThread e
  | .clearQueue e => s.clearQueue e
  | .startAsyncTransaction env clientInfo =>
      some (s.startAsyncTransaction env clientInfo)
  | .stopAsyncTransaction env transactionId =>
      some (s.stopAsyncTransaction env transactionId)
  | .registerAsyncHandler env clientId =>
      some (s.registerAsyncHandler env clientId)
  | .stopAsyncProcess clientId => some (s.stopAsyncProcess clientId)
  | .sendResponse h => s.sendResponse h
  | .sendRequest clientInfo algoInfo inputInfo =>
      s.sendRequest clientInfo algoInfo inputInfo
  | .findSequenceId newFutureFactory r => s.findSequenceId newFutureFactory r
  | .addFuture newFuture r => s.addFuture newFuture r
  | .pushBack r => s.pushBack r
  | .popFront e => s.popFront e
  | .asyncProcessed e success => s.asyncProcessed e success
  | .onEvent r event retCode result => s.onEvent r event retCode result
  | .processResponse c => s.processResponse c

def asyncMachine : Machine AsyncServer AsyncStep where
  start := fun s => s = .initial
  step := fun s i => if s.fault = none then s.take i else none

end AiEngine.Ref
