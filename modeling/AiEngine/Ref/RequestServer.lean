import AiEngine.Ref.AsyncServer

/-!
# Requests and their buffers

What becomes of the buffer that `InvokeSyncExecute` and `InvokeAsyncExecute`
unparcel. The wrappers may turn the call away before there is a request. From
`ConvertToRequest` on the request owns the buffer, and a guard owns the
request until the call returns. A call that was queued asynchronously detaches
the guard: its request goes with the task, to a handler or to `ClearQueue`.

Calls run in threads of their own and each engine has a worker. A step is what
one of them does at one shared object, and what was freed is kept in a list.
A synchronous caller waits without a timeout and holds its engine meanwhile.
-/

namespace AiEngine.Ref

open AiEngine.Lib

/-! ## The state

Who has to free a buffer or a request is a matter of which guard holds it. The
frees are recorded in order, so that a second free of a block shows and is not
an error. -/

/-- How far a call has come: with the unparcelled message, with a guarded
request, with an engine, past the count of the tasks, with a future, with a
task in the queue, and back with a return code. -/
inductive ExecPhase where
  | unparcelled
  | guarded
  | engineFound (engine : Nat)
  | counted (engine : Nat)
  | futureCreated (engine : Nat)
  | pushed (engine : Nat)
  | ended (retCode : Int)
  deriving DecidableEq, Repr

/-- The engine a call holds. -/
def ExecPhase.engine : ExecPhase → Option Nat
  | .engineFound e => some e
  | .counted e => some e
  | .futureCreated e => some e
  | .pushed e => some e
  | _ => none

/-- What became of a task: it is in an engine's queue, or with the engine's
handler; or a handler is done with it, or `ClearQueue` took it. -/
inductive TaskPhase where
  | queued (engine : Nat)
  | processing (engine : Nat)
  | processed (handler : MsgHandler)
  | dropped
  deriving DecidableEq, Repr

/-- A call of `InvokeSyncExecute` or `InvokeAsyncExecute`, by its kind. The
task has a notifier if the call is synchronous, which then has the code of the
response. -/
structure ExecCall where
  kind : MsgHandler
  clientInfo : ClientInfo
  algoInfo : AlgorithmInfo
  inputInfo : DataInfo
  request : Option Request
  phase : ExecPhase
  task : Option TaskPhase
  notifier : Option Int
  deriving DecidableEq, Repr

/-- What a call has on the heap. -/
inductive Block where
  | buffer (call : Nat)
  | request (call : Nat)
  deriving DecidableEq, Repr

/-- An engine that was initialized. Its tasks are numbered as the calls they
are from. -/
structure RequestEngine where
  msgHandler : MsgHandler
  queue : Queue Nat
  worker : WorkerState
  deriving DecidableEq, Repr

/-- The task that is with the handler. -/
def RequestEngine.task (engine : RequestEngine) : Option Nat :=
  match engine.worker with
  | .idle => none
  | .processing c => some c
  | .stopped => none

structure RequestServer where
  adapters : Table Int32 Int32
  clientEngines : Table Int64 Nat
  engine : Table Nat RequestEngine
  engineNum : Nat
  factory : FutureFactory
  call : Table Nat ExecCall
  callNum : Nat
  /-- What was freed, in order. -/
  freed : List Block

namespace RequestServer

def initial : RequestServer where
  adapters := ∅
  clientEngines := ∅
  engine := ∅
  engineNum := 0
  factory := .initial
  call := ∅
  callNum := 0
  freed := []

def setCall (s : RequestServer) (c : Nat) (call : ExecCall) : RequestServer :=
  { s with call := s.call.insert c call }

def setEngine (s : RequestServer) (e : Nat) (engine : RequestEngine) :
    RequestServer :=
  { s with engine := s.engine.insert e engine }

/-- `IRequest::Destroy`, which frees nothing where there is no request.
`~Request` frees the message. -/
def destroyRequest (s : RequestServer) (c : Nat) (request : Option Request) :
    RequestServer :=
  match request with
  | none => s
  | some request =>
      if request.msg.data = .null then
        { s with freed := s.freed ++ [.request c] }
      else { s with freed := s.freed ++ [.buffer c, .request c] }

/-- The call returns, and its guard destroys the request. -/
def endCall (s : RequestServer) (c : Nat) (call : ExecCall) (retCode : Int) :
    RequestServer :=
  (s.setCall c { call with phase := .ended retCode }).destroyRequest c
    call.request

/-! ## Calls

The way of an execute request through the wrapper, the adapter and the message
handler, a step for each access to what is shared. -/

/-- `UnParcelInfo` succeeds in one of the two stubs. -/
def invoke (s : RequestServer) (kind : MsgHandler) (clientInfo : ClientInfo)
    (algoInfo : AlgorithmInfo) (inputInfo : DataInfo) : RequestServer :=
  { s.setCall s.callNum ⟨kind, clientInfo, algoInfo, inputInfo, none,
      .unparcelled, none, none⟩ with
    callNum := s.callNum + 1 }

/-- Whether the message asks for the other kind of call. -/
def wrongInferMode : MsgHandler → AlgorithmInfo → Bool
  | .sync, algoInfo => algoInfo.isAsync
  | .async, algoInfo => !algoInfo.isAsync

/-- `SyncExecAlgoWrapper` and `AsyncExecAlgoWrapper`, and `ConvertToRequest`.
Without a request a synchronous call returns at once, and an asynchronous one
goes on. -/
def execAlgoWrapper (s : RequestServer) (env : ServiceEnv) (c : Nat)
    (call : ExecCall) : RequestServer :=
  if wrongInferMode call.kind call.algoInfo then
    s.endCall c call Retcode.wrongInferMode
  else
    match s.adapters.lookup call.clientInfo.clientId with
    | none => s.endCall c call Retcode.noClientFound
    | some adapterId =>
        if env.newRequest then
          s.setCall c { call with
            request := some (convertToRequest adapterId call.clientInfo
              call.algoInfo call.inputInfo)
            phase := .guarded }
        else
          match call.kind with
          | .sync => s.endCall c call Retcode.outOfMemory
          | .async => s.setCall c { call with phase := .guarded }

/-- `GetSyncTaskManager` or `GetAsyncTaskManager`, and `FindEngine`. -/
def findEngine (s : RequestServer) (env : ServiceEnv) (c : Nat)
    (call : ExecCall) : RequestServer :=
  if ¬ env.newServerExecutor then s.endCall c call Retcode.outOfMemory
  else
    match call.request with
    | none => s.endCall c call Retcode.nullParam
    | some request =>
        match s.clientEngines.lookup request.transactionId with
        | none => s.endCall c call Retcode.engineNotExist
        | some e => s.setCall c { call with phase := .engineFound e }

/-- The test of `SendRequest`, which is the same in both handlers. -/
def countTasks (s : RequestServer) (c : Nat) (call : ExecCall) (e : Nat) :
    Option RequestServer :=
  match s.engine.lookup e with
  | none => none
  | some engine =>
      if maxAsyncMsgNum ≤ engine.queue.count then
        some (s.endCall c call Retcode.queueFull)
      else some (s.setCall c { call with phase := .counted e })

/-- `CreateFuture`. -/
def createFuture (s : RequestServer) (env : ServiceEnv) (c : Nat)
    (call : ExecCall) (e : Nat) : RequestServer :=
  match s.factory.getInstance env.callbacks.newFutureFactory with
  | (false, _) => s.endCall c call Retcode.nullParam
  | (true, factory) =>
      match call.request with
      | none => s.endCall c call Retcode.nullParam
      | some request =>
          match factory.createFuture env.newFuture c request.transactionId with
          | (retCode, none, factory) =>
              { s with factory }.endCall c call retCode
          | (retCode, some sequenceId, factory) =>
              let call := { call with
                request :=
                  some { request with innerSequenceId := sequenceId } }
              if retCode ≠ Retcode.success then
                { s with factory }.endCall c call retCode
              else
                { s with factory }.setCall c
                  { call with phase := .futureCreated e }

/-- `PushBack`. -/
def pushBack (s : RequestServer) (c : Nat) (call : ExecCall) (e : Nat) :
    Option RequestServer :=
  match s.engine.lookup e with
  | none => none
  | some engine =>
      match engine.queue.pushBack c with
      | (retCode, queue) =>
          if retCode ≠ Retcode.success then some (s.endCall c call retCode)
          else
            some ((s.setEngine e { engine with queue }).setCall c
              { call with phase := .pushed e, task := some (.queued e) })

/-- `GetFromFront` returns once there is a response, and with it the call. -/
def receiveResponse (s : RequestServer) (c : Nat) (call : ExecCall) :
    Option RequestServer :=
  match call.notifier with
  | none => none
  | some retCode => some (s.endCall c call retCode)

/-- The call returns, and its guard was detached. -/
def detach (s : RequestServer) (c : Nat) (call : ExecCall) : RequestServer :=
  s.setCall c { call with phase := .ended Retcode.success }

/-- The next step of a call. -/
def proceed (s : RequestServer) (env : ServiceEnv) (c : Nat) :
    Option RequestServer :=
  match s.call.lookup c with
  | none => none
  | some call =>
      match call.phase, call.kind with
      | .unparcelled, _ => some (s.execAlgoWrapper env c call)
      | .guarded, _ => some (s.findEngine env c call)
      | .engineFound e, _ => s.countTasks c call e
      | .counted e, .sync => s.pushBack c call e
      | .counted e, .async => some (s.createFuture env c call e)
      | .futureCreated e, _ => s.pushBack c call e
      | .pushed _, .sync => s.receiveResponse c call
      | .pushed _, .async => some (s.detach c call)
      | .ended _, _ => none

/-- `OneAction` up to the handler's `Process`. -/
def popFront (s : RequestServer) (e : Nat) : Option RequestServer :=
  match s.engine.lookup e with
  | none => none
  | some engine =>
      if engine.worker ≠ .idle then none
      else
        match engine.queue.popFront with
        | (_, none, _) => none
        | (_, some c, queue) =>
            match s.call.lookup c with
            | none => none
            | some call =>
                some ((s.setEngine e
                  { engine with queue, worker := .processing c }).setCall c
                    { call with task := some (.processing e) })

/-- `SyncMsgHandler::Process` from the return of the plugin on, which left a
response or not; `newResponse` is whether `IResponse::Create` makes one. The
response goes to the notifier of the task, if it has one, and the request
stays as it is. -/
def syncProcess (s : RequestServer) (c : Nat) (call : ExecCall)
    (processRetCode : Int) (response newResponse : Bool) : RequestServer :=
  let call := { call with task := some (.processed .sync) }
  if ¬ response ∧ ¬ newResponse then s.setCall c call
  else
    let retCode :=
      if processRetCode ≠ Retcode.success then Retcode.algorithmProcessError
      else Retcode.success
    match call.kind with
    | .sync => s.setCall c { call with notifier := some retCode }
    | .async => s.setCall c call

/-- The end of `AsyncMsgHandler::Process`: its guard destroys the request. -/
def asyncProcess (s : RequestServer) (c : Nat) (call : ExecCall) :
    RequestServer :=
  (s.setCall c { call with
    task := some (.processed .async) }).destroyRequest c call.request

/-- The plugin returns, and with it `Process` of the engine's handler. -/
def process (s : RequestServer) (e : Nat) (processRetCode : Int)
    (response newResponse : Bool) : Option RequestServer :=
  match s.engine.lookup e with
  | none => none
  | some engine =>
      match engine.worker with
      | .idle => none
      | .stopped => none
      | .processing c =>
          match s.call.lookup c with
          | none => none
          | some call =>
              let s := s.setEngine e { engine with worker := .idle }
              match engine.msgHandler with
              | .sync =>
                  some (s.syncProcess c call processRetCode response
                    newResponse)
              | .async => some (s.asyncProcess c call)

/-- An engine for a plugin, with a queue from the pool. -/
def createEngine (s : RequestServer) (plugin : Plugin)
    (singleQueueCapacity : Nat) : RequestServer :=
  { s.setEngine s.engineNum
      ⟨Server.msgHandlerFor plugin, .new singleQueueCapacity, .idle⟩ with
    engineNum := s.engineNum + 1 }

/-- `RecordClient`, for an engine that is not being destroyed. -/
def recordClient (s : RequestServer) (transactionId : Int64) (e : Nat) :
    Option RequestServer :=
  match s.engine.lookup e with
  | none => none
  | some engine =>
      if engine.worker = .stopped then none
      else
        some { s with clientEngines := s.clientEngines.insert transactionId e }

/-- Whether a transaction or a call holds the engine. -/
def EngineHeld (s : RequestServer) (e : Nat) : Prop :=
  0 < Table.countWith (· = e) s.clientEngines ∨
    0 < Table.countWith (fun call => call.phase.engine = some e) s.call

instance (s : RequestServer) (e : Nat) : Decidable (s.EngineHeld e) :=
  inferInstanceAs (Decidable (_ ∨ _))

/-- `~Engine` has waited for the worker. -/
def stopThread (s : RequestServer) (e : Nat) : Option RequestServer :=
  match s.engine.lookup e with
  | none => none
  | some engine =>
      if s.EngineHeld e ∨ engine.worker ≠ .idle then none
      else some (s.setEngine e { engine with worker := .stopped })

/-- One turn of the loop of `ClearQueue`. -/
def clearQueue (s : RequestServer) (e : Nat) : Option RequestServer :=
  match s.engine.lookup e with
  | none => none
  | some engine =>
      if engine.worker ≠ .stopped then none
      else
        match engine.queue.popFront with
        | (_, none, _) => none
        | (_, some c, queue) =>
            match s.call.lookup c with
            | none => none
            | some call =>
                some (((s.setEngine e { engine with queue }).setCall c
                  { call with task := some .dropped }).destroyRequest c
                    call.request)

end RequestServer

inductive RequestStep where
  | invoke (kind : MsgHandler) (clientInfo : ClientInfo)
      (algoInfo : AlgorithmInfo) (inputInfo : DataInfo)
  | proceed (env : ServiceEnv) (c : Nat)
  | popFront (e : Nat)
  | process (e : Nat) (processRetCode : Int) (response newResponse : Bool)
  | createEngine (plugin : Plugin) (singleQueueCapacity : Nat)
  | recordClient (transactionId : Int64) (e : Nat)
  | unRecordClient (transactionId : Int64)
  | stopThread (e : Nat)
  | clearQueue (e : Nat)
  | addAdapter (clientId : Int32)
  | removeAdapter (clientId : Int32)
  | deleteFuture (sequenceId : Int)

def RequestServer.take (s : RequestServer) :
    RequestStep → Option RequestServer
  | .invoke kind clientInfo algoInfo inputInfo =>
      some (s.invoke kind clientInfo algoInfo inputInfo)
  | .proceed env c => s.proceed env c
  | .popFront e => s.popFront e
  | .process e processRetCode response newResponse =>
      s.process e processRetCode response newResponse
  | .createEngine plugin singleQueueCapacity =>
      some (s.createEngine plugin singleQueueCapacity)
  | .recordClient transactionId e => s.recordClient transactionId e
  | .unRecordClient transactionId =>
      some { s with clientEngines := s.clientEngines.erase transactionId }
  | .stopThread e => s.stopThread e
  | .clearQueue e => s.clearQueue e
  | .addAdapter clientId =>
      some { s with adapters := s.adapters.insert clientId clientId }
  | .removeAdapter clientId =>
      some { s with adapters := s.adapters.erase clientId }
  | .deleteFuture sequenceId =>
      some { s with factory := s.factory.deleteFuture sequenceId }

def requestMachine : Machine RequestServer RequestStep where
  start := fun s => s = .initial
  step := fun s i => s.take i

end AiEngine.Ref
