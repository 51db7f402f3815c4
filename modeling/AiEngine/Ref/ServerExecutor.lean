import Mathlib.Data.List.Sort
import AiEngine.Ref.SaAsyncHandler
import AiEngine.Ref.SaServerAdapter

/-!
# Requests of clients

`adapter_wrapper.cpp`, `server_executor.cpp` and the execution half of
`engine.cpp`: what the server does with a request of a client, from finding
the client's adapter to putting a task on an engine's queue.

The infer mode of a request is looked at twice. The wrappers compare the call
with a flag that came with the request. The engine takes its handler for the
one the call needs; which handler it has was decided by the plugin when the
engine was made.
-/

namespace AiEngine.Ref

open AiEngine.Lib

/-- `MAX_ASYNC_MSG_NUM`. -/
def maxAsyncMsgNum : Nat := 64

def maxNumClients : Nat := 1024
def invalidClientId : Int32 := -1
def startingClientId : Int := 1

structure SaServerAdapter where
  adapterId : Int32
  /-- The transactions that were started, in order. -/
  transactionIds : List Int64
  deriving DecidableEq, Repr

/-- The server side of the engine: the executor with its engines, the future
factory, the callbacks and the clients. -/
structure Service where
  /-- Whether `ServerExecutor::instance_` is set. -/
  hasExecutor : Bool
  server : Server
  factory : FutureFactory
  asyncHandler : SaAsyncHandler
  adapters : Table Int32 SaServerAdapter
  clientIdAtomic : Int
  /-- How many requests were made. -/
  requestNum : Nat

/-- What serving a request asks of the system besides what the engines and
the callbacks do. -/
structure ServiceEnv where
  engines : Env
  callbacks : CallbackEnv
  newServerExecutor : Bool
  newAdapter : Bool
  newRequest : Bool
  newFuture : Bool

/-- Everything asked for is granted. -/
def ServiceEnv.willing : ServiceEnv :=
  ⟨.willing, .willing, true, true, true, true⟩

/-- How an execution request ends for the thread that serves it: refused with
an error code, or with a task in a queue. -/
inductive ExecResult where
  | refused (retCode : Int)
  | queued
  deriving DecidableEq, Repr

/-- `SyncMsgHandler::SendRequest` on the handler the engine has. -/
def syncSendRequest (pools : Pools Task) (queue : Nat) (handler : MsgHandler)
    (request : Request) (notifier : Nat) : Int × Pools Task :=
  if maxSyncMsgNum ≤ (pools.queue queue).count then (Retcode.queueFull, pools)
  else
    match (pools.queue queue).pushBack
        ⟨some handler, some request, some notifier⟩ with
    | (retCode, q) => (retCode, pools.setQueue queue q)

/-- `AsyncMsgHandler::SendRequest` on the handler the engine has. The request
is number `n`. -/
def asyncSendRequest (pools : Pools Task) (f : FutureFactory)
    (env : ServiceEnv) (queue : Nat) (handler : MsgHandler)
    (request : Request) (n : Nat) : Int × Pools Task × FutureFactory :=
  if maxAsyncMsgNum ≤ (pools.queue queue).count then
    (Retcode.queueFull, pools, f)
  else
    match f.getInstance env.callbacks.newFutureFactory with
    | (false, f) => (Retcode.nullParam, pools, f)
    | (true, f) =>
        match f.createFuture env.newFuture n request.transactionId with
        | (retCode, none, f) => (retCode, pools, f)
        | (retCode, some sequenceId, f) =>
            if retCode ≠ Retcode.success then (retCode, pools, f)
            else
              let request := { request with innerSequenceId := sequenceId }
              match (pools.queue queue).pushBack
                  ⟨some handler, some request, none⟩ with
              | (retCode, q) => (retCode, pools.setQueue queue q, f)

/-- A client id that is searched for is not in use, as long as the ids in use
are few. -/
theorem searchClientId_free {ids : Finset Int32} {n : Int} (hlo : 0 ≤ n)
    (hhi : n ≤ intMax) (hroom : ids.card ≤ maxNumClients) :
    let id := FreshId.search startingClientId intMax (ids.image Int32.toInt)
      ((ids.image Int32.toInt).card + 1) n
    (0 ≤ id ∧ id ≤ intMax) ∧ Int32.ofInt id ∉ ids := by
  intro id
  have hcard : (ids.image Int32.toInt).card ≤ maxNumClients :=
    Finset.card_image_le.trans hroom
  obtain ⟨hge, hle⟩ := FreshId.search_bounds (ids.image Int32.toInt) n
    (ids.image Int32.toInt).card
    (show startingClientId ≤ (intMax : Int) by decide)
  have hfresh : id ∉ ids.image Int32.toInt := by
    refine FreshId.search_fresh ?_ hhi ?_
    · simp only [startingClientId]
      omega
    · simp only [startingClientId, intMax, maxNumClients] at hcard ⊢
      omega
  have hlow : 0 ≤ id := by
    simp only [startingClientId] at hge
    exact Int.le_trans (by decide) hge
  refine ⟨⟨hlow, hle⟩, fun hin => hfresh (Finset.mem_image.mpr ⟨_, hin, ?_⟩)⟩
  have hlt : id < 2 ^ 31 := Int.lt_add_one_of_le hle
  exact Int32.toInt_ofInt_of_le (by omega) hlt

namespace Service

def initial : Service where
  hasExecutor := false
  server := .initial
  factory := .initial
  asyncHandler := .initial
  adapters := ∅
  clientIdAtomic := 0
  requestNum := 0

/-- `ServerExecutor::GetInstance()`. -/
def getExecutor (s : Service) (alloc : Bool) : Bool × Service :=
  if s.hasExecutor then (true, s) else (alloc, { s with hasExecutor := alloc })

def findAdapter (s : Service) (clientId : Int32) : Option SaServerAdapter :=
  s.adapters.lookup clientId

/-- `FindValidClientId`. -/
def findValidClientId (s : Service) : Int × Service :=
  if maxNumClients < s.adapters.keys.card then (invalidClientId.toInt, s)
  else
    let used := s.adapters.keys.image Int32.toInt
    let clientId := FreshId.search startingClientId intMax used
      (used.card + 1) s.clientIdAtomic
    (clientId, { s with clientIdAtomic := clientId })

/-- `GenerateClient`. -/
def generateClient (s : Service) (env : ServiceEnv) : Int32 × Service :=
  match s.findValidClientId with
  | (clientId, s) =>
      if clientId = invalidClientId.toInt then (invalidClientId, s)
      else if ¬ env.newAdapter then (invalidClientId, s)
      else
        let id := Int32.ofInt s.clientIdAtomic
        (id, { s with adapters := s.adapters.insert id ⟨id, []⟩ })

/-- The loop of `SaServerAdapter::Uninitialize`. -/
def stopEngines (s : Server) (env : Env) : List Int64 → Server
  | [] => s
  | tid :: tids => stopEngines (s.stopEngine env tid ⟨.null, 0⟩).server env tids

/-- `RemoveAdapterWrapper`. -/
def removeAdapter (s : Service) (env : ServiceEnv) (clientId : Int32) :
    Int × Service :=
  match s.findAdapter clientId with
  | none => (Retcode.failure, s)
  | some adapter =>
      match s.getExecutor env.newServerExecutor with
      | (false, s) =>
          (Retcode.success, { s with adapters := s.adapters.erase clientId })
      | (true, s) =>
          (Retcode.success, { s with
            server := stopEngines s.server env.engines adapter.transactionIds
            adapters := s.adapters.erase clientId })

/-- `SaveTransaction` and `RemoveTransaction` of an adapter. -/
def saveTransaction (adapter : SaServerAdapter) (tid : Int64) :
    SaServerAdapter :=
  if tid ∈ adapter.transactionIds then adapter
  else
    { adapter with transactionIds :=
        adapter.transactionIds.orderedInsert (· ≤ ·) tid }

def removeTransaction (adapter : SaServerAdapter) (tid : Int64) :
    SaServerAdapter :=
  { adapter with transactionIds := adapter.transactionIds.erase tid }

/-- `LoadAlgoWrapper`. -/
def loadAlgo (s : Service) (env : ServiceEnv) (clientInfo : ClientInfo)
    (algoInfo : AlgorithmInfo) (inputInfo outputInfo : DataInfo) :
    Int × DataInfo × Service :=
  match s.findAdapter clientInfo.clientId with
  | none => (Retcode.noClientFound, outputInfo, s)
  | some adapter =>
      let tid := getTransactionId adapter.adapterId clientInfo.sessionId
      match s.getExecutor env.newServerExecutor with
      | (false, s) => (Retcode.outOfMemory, outputInfo, s)
      | (true, s) =>
          match s.server.startEngine env.engines tid algoInfo inputInfo
              outputInfo with
          | (retCode, outputInfo, server) =>
              let s := { s with server }
              if retCode ≠ Retcode.success then (retCode, outputInfo, s)
              else
                let saved := saveTransaction adapter tid
                let s := { s with
                  adapters := s.adapters.insert clientInfo.clientId saved }
                if ¬ algoInfo.isAsync then (retCode, outputInfo, s)
                else
                  match s.asyncHandler.getInstance
                      env.callbacks.newSaAsyncHandler with
                  | (false, _) => (Retcode.nullParam, outputInfo, s)
                  | (true, asyncHandler) =>
                      match asyncHandler.startAsyncTransaction s.factory
                          env.callbacks tid clientInfo.clientId with
                      | (retCode, asyncHandler, factory) =>
                          (retCode, outputInfo, { s with asyncHandler, factory })

/-- `UnloadAlgoWrapper`. -/
def unloadAlgo (s : Service) (env : ServiceEnv) (clientInfo : ClientInfo)
    (algoInfo : AlgorithmInfo) (inputInfo : DataInfo) : Int × Service :=
  match s.findAdapter clientInfo.clientId with
  | none => (Retcode.noClientFound, s)
  | some adapter =>
      let tid := getTransactionId adapter.adapterId clientInfo.sessionId
      let s :=
        if algoInfo.isAsync then
          match s.asyncHandler.getInstance env.callbacks.newSaAsyncHandler with
          | (false, _) => s
          | (true, asyncHandler) =>
              let (asyncHandler, factory) :=
                asyncHandler.stopAsyncTransaction s.factory env.callbacks tid
              { s with asyncHandler, factory }
        else s
      match s.getExecutor env.newServerExecutor with
      | (false, s) => (Retcode.outOfMemory, s)
      | (true, s) =>
          let stopped := s.server.stopEngine env.engines tid inputInfo
          let s := { s with server := stopped.server }
          if stopped.retCode ≠ Retcode.success then (stopped.retCode, s)
          else
            let removed := removeTransaction adapter tid
            (Retcode.success, { s with
              adapters := s.adapters.insert clientInfo.clientId removed })

/-- `RegisterCallbackWrapper`. -/
def registerCallback (s : Service) (env : ServiceEnv) (clientId : Int32) :
    Int × Service :=
  match s.findAdapter clientId with
  | none => (Retcode.noClientFound, s)
  | some _ =>
      match s.asyncHandler.getInstance env.callbacks.newSaAsyncHandler with
      | (false, _) => (Retcode.nullParam, s)
      | (true, asyncHandler) =>
          let asyncHandler :=
            asyncHandler.registerAsyncHandler env.callbacks clientId
          match asyncHandler.startAsyncProcess s.server.pools env.engines
              env.callbacks clientId with
          | (retCode, asyncHandler, pools) =>
              (retCode,
                { s with asyncHandler, server := { s.server with pools } })

/-- `UnregisterCallbackWrapper`. -/
def unregisterCallback (s : Service) (env : ServiceEnv) (clientId : Int32) :
    Int × Service :=
  match s.findAdapter clientId with
  | none => (Retcode.noClientFound, s)
  | some _ =>
      match s.asyncHandler.getInstance env.callbacks.newSaAsyncHandler with
      | (false, _) => (Retcode.nullParam, s)
      | (true, asyncHandler) =>
          match asyncHandler.stopAsyncProcess s.server.pools env.engines
              clientId with
          | (asyncHandler, pools) =>
              (Retcode.success,
                { s with asyncHandler, server := { s.server with pools } })

/-! ## Execution

From the request of a client to a task in the queue of its engine, or to the
code with which the request is refused. The two kinds of request ask for the
same things in a different order. -/

/-- `Engine::SyncExecute` up to the point where the caller waits. -/
def engineSyncExecute (s : Service) (engine : Engine) (request : Request) :
    ExecResult × Service :=
  match engine.msgHandler with
  | none => (.refused Retcode.nullParam, s)
  | some handler =>
      match syncSendRequest s.server.pools engine.queue handler request
          s.requestNum with
      | (retCode, pools) =>
          let s := { s with server := { s.server with pools } }
          if retCode ≠ Retcode.success then (.refused retCode, s)
          else (.queued, s)

/-- `Engine::AsyncExecute`. -/
def engineAsyncExecute (s : Service) (env : ServiceEnv) (engine : Engine)
    (request : Request) : ExecResult × Service :=
  match engine.msgHandler with
  | none => (.refused Retcode.nullParam, s)
  | some handler =>
      match asyncSendRequest s.server.pools s.factory env engine.queue handler
          request s.requestNum with
      | (retCode, pools, factory) =>
          let s := { s with server := { s.server with pools }, factory }
          if retCode ≠ Retcode.success then (.refused retCode, s)
          else (.queued, s)

/-- The engine `ServerExecutor` finds for a transaction. -/
def engineOf (s : Service) (transactionId : Int64) : Option Engine :=
  match s.server.findEngine transactionId with
  | none => none
  | some e => s.server.engine.lookup e

/-- `SaServerAdapter::SyncExecute` and `ServerExecutor::SyncExecute`. -/
def adapterSyncExecute (s : Service) (env : ServiceEnv) (adapterId : Int32)
    (clientInfo : ClientInfo) (algoInfo : AlgorithmInfo)
    (inputInfo : DataInfo) : ExecResult × Service :=
  if ¬ env.newRequest then (.refused Retcode.outOfMemory, s)
  else
    let request := convertToRequest adapterId clientInfo algoInfo inputInfo
    match s.getExecutor env.newServerExecutor with
    | (false, s) => (.refused Retcode.outOfMemory, s)
    | (true, s) =>
        match s.engineOf request.transactionId with
        | none => (.refused Retcode.engineNotExist, s)
        | some engine =>
            { s with requestNum := s.requestNum + 1 }.engineSyncExecute engine
              request

/-- `SaServerAdapter::AsyncExecute` and `ServerExecutor::AsyncExecute`, which
is asked also where no request could be allocated. -/
def adapterAsyncExecute (s : Service) (env : ServiceEnv) (adapterId : Int32)
    (clientInfo : ClientInfo) (algoInfo : AlgorithmInfo)
    (inputInfo : DataInfo) : ExecResult × Service :=
  match s.getExecutor env.newServerExecutor with
  | (false, s) => (.refused Retcode.outOfMemory, s)
  | (true, s) =>
      if ¬ env.newRequest then (.refused Retcode.nullParam, s)
      else
        let request := convertToRequest adapterId clientInfo algoInfo inputInfo
        match s.engineOf request.transactionId with
        | none => (.refused Retcode.engineNotExist, s)
        | some engine =>
            { s with requestNum := s.requestNum + 1 }.engineAsyncExecute env
              engine request

/-- `SyncExecAlgoWrapper`. -/
def syncExecAlgo (s : Service) (env : ServiceEnv) (clientInfo : ClientInfo)
    (algoInfo : AlgorithmInfo) (inputInfo : DataInfo) : ExecResult × Service :=
  if algoInfo.isAsync then (.refused Retcode.wrongInferMode, s)
  else
    match s.findAdapter clientInfo.clientId with
    | none => (.refused Retcode.noClientFound, s)
    | some adapter =>
        s.adapterSyncExecute env adapter.adapterId clientInfo algoInfo inputInfo

/-- `AsyncExecAlgoWrapper`. -/
def asyncExecAlgo (s : Service) (env : ServiceEnv) (clientInfo : ClientInfo)
    (algoInfo : AlgorithmInfo) (inputInfo : DataInfo) : ExecResult × Service :=
  if ¬ algoInfo.isAsync then (.refused Retcode.wrongInferMode, s)
  else
    match s.findAdapter clientInfo.clientId with
    | none => (.refused Retcode.noClientFound, s)
    | some adapter =>
        s.adapterAsyncExecute env adapter.adapterId clientInfo algoInfo
          inputInfo

/-- An execution request, by the kind of the call. -/
def execAlgo (s : Service) (kind : MsgHandler) (env : ServiceEnv)
    (clientInfo : ClientInfo) (algoInfo : AlgorithmInfo)
    (inputInfo : DataInfo) : ExecResult × Service :=
  match kind with
  | .sync => s.syncExecAlgo env clientInfo algoInfo inputInfo
  | .async => s.asyncExecAlgo env clientInfo algoInfo inputInfo

end Service

/-- What happens to the service: requests of clients, a worker taking a task
off its queue, and a future deleted when its response was delivered. -/
inductive ServiceStep where
  | generateClient (env : ServiceEnv)
  | removeAdapter (env : ServiceEnv) (clientId : Int32)
  | loadAlgo (env : ServiceEnv) (clientInfo : ClientInfo)
      (algoInfo : AlgorithmInfo) (inputInfo outputInfo : DataInfo)
  | unloadAlgo (env : ServiceEnv) (clientInfo : ClientInfo)
      (algoInfo : AlgorithmInfo) (inputInfo : DataInfo)
  | registerCallback (env : ServiceEnv) (clientId : Int32)
  | unregisterCallback (env : ServiceEnv) (clientId : Int32)
  | execAlgo (kind : MsgHandler) (env : ServiceEnv) (clientInfo : ClientInfo)
      (algoInfo : AlgorithmInfo) (inputInfo : DataInfo)
  | popFront (queue : Nat)
  | deleteFuture (sequenceId : Int)

def Service.take (s : Service) : ServiceStep → Service
  | .generateClient env => (s.generateClient env).2
  | .removeAdapter env clientId => (s.removeAdapter env clientId).2
  | .loadAlgo env clientInfo algoInfo inputInfo outputInfo =>
      (s.loadAlgo env clientInfo algoInfo inputInfo outputInfo).2.2
  | .unloadAlgo env clientInfo algoInfo inputInfo =>
      (s.unloadAlgo env clientInfo algoInfo inputInfo).2
  | .registerCallback env clientId => (s.registerCallback env clientId).2
  | .unregisterCallback env clientId => (s.unregisterCallback env clientId).2
  | .execAlgo kind env clientInfo algoInfo inputInfo =>
      (s.execAlgo kind env clientInfo algoInfo inputInfo).2
  | .popFront queue =>
      let (_, _, q) := (s.server.pools.queue queue).popFront
      { s with server :=
        { s.server with pools := s.server.pools.setQueue queue q } }
  | .deleteFuture sequenceId =>
      { s with factory := s.factory.deleteFuture sequenceId }

def serviceMachine : Machine Service ServiceStep where
  start := fun s => s = .initial
  step := fun s i => some (s.take i)

end AiEngine.Ref
