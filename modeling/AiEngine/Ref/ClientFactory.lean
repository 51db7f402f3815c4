import AiEngine.Ref.ServerExecutor

/-!
# The client

`client_factory.cpp`, `sa_client_adapter.cpp`, `sa_client.cpp` and the
client's `async_handler.cpp`: the sessions of a process and its one connection
to the server.

A process has one client id, which a worker gets from the server and gives up
when the last session is destroyed. What is per session lives in three maps:
`sessionInfos_`, and the callbacks for results and for the server's death. To
deliver to the callbacks, `SaClient` holds one function pointer for each of
the two kinds, for all sessions together.

What the server does is taken as an interface, so that the same client can be
run against any answers and against the service of this development.
-/

namespace AiEngine.Ref

open AiEngine.Lib

/-- `RETCODE_SERVER_NOT_INIT`. -/
def Retcode.serverNotInit : Int := 1005

def maximumNumberOfSession : Nat := 100
def aieSessionIdBegin : Int := 0
def invalidSessionId : Int32 := -1
def invalidUid : UInt32 := 0

/-- `InitEngine` of the server, on what `GenerateClient` answered. -/
def initEngine (clientId : Int32) : Int32 :=
  if clientId ≤ 0 then invalidClientId else clientId

/-- What one attempt to connect meets. The reply is the client id that the
server generated and the server's uid, if it came. -/
structure ConnectReply where
  newSaClient : Bool
  remoteIUnknown : Bool
  invoke : Bool
  reply : Option (Int32 × UInt32)
  addDeathRecipient : Bool
  deriving DecidableEq, Repr

/-- What a call asks of the system, and the attempts to connect that the
worker makes while the call waits. -/
structure ClientEnv where
  newThreadPool : Bool
  newThread : Bool
  newConnectMgrWorker : Bool
  startThread : Bool
  newSaClient : Bool
  newSaAsyncHandler : Bool
  attempts : List ConnectReply
  clientUid : UInt32

/-- The server as the client sees it: what it answers to a request, and what
becomes of it. -/
structure AiServer (σ : Type) where
  registerCallback : ClientInfo → σ → Int × σ
  unregisterCallback : ClientInfo → σ → Int × σ
  loadAlgorithm : ClientInfo → AlgorithmInfo → DataInfo → DataInfo → σ →
    Int × DataInfo × σ
  unloadAlgorithm : ClientInfo → AlgorithmInfo → DataInfo → σ → Int × σ

/-! ## `SaClient`

The client's end of the service: the proxy, and the two function pointers
through which messages of the server come in. Every call goes to the server as
it is. -/

/-- `SaClient`: whether it has a proxy of the server, and whether each of its
two function pointers is set. -/
structure SaClient where
  proxy : Bool
  resultCb : Bool
  deathCb : Bool
  deriving DecidableEq, Repr

namespace SaClient

variable {σ : Type}

def new : SaClient := ⟨false, false, false⟩

def registerSaClientCb (c : SaClient) : SaClient := { c with resultCb := true }

def unRegisterSaClientCb (c : SaClient) : SaClient :=
  { c with resultCb := false }

def registerSaDeathCb (c : SaClient) : SaClient := { c with deathCb := true }

def unRegisterSaDeathCb (c : SaClient) : SaClient := { c with deathCb := false }

/-- `InitSaEngine`: the return code and the client's info. -/
def initSaEngine (env : ConnectReply) (clientInfo : ClientInfo) :
    Int × ClientInfo :=
  if ¬ env.invoke then (Retcode.nullParam, clientInfo)
  else
    match env.reply with
    | none =>
        (Retcode.success,
          { clientInfo with clientId := invalidClientId, serverUid := 0 })
    | some (clientId, serverUid) =>
        (Retcode.success,
          { clientInfo with clientId := initEngine clientId, serverUid })

/-- `Init`. -/
def init (c : SaClient) (env : ConnectReply) (clientInfo : ClientInfo) :
    Int × ClientInfo × SaClient :=
  if ¬ env.remoteIUnknown then
    (Retcode.saServiceException, clientInfo, { c with proxy := false })
  else
    match initSaEngine env clientInfo with
    | (retCode, clientInfo) =>
        if retCode ≠ Retcode.success ∨ clientInfo.clientId = invalidClientId then
          (Retcode.failure, clientInfo, { c with proxy := false })
        else if ¬ env.addDeathRecipient then
          (Retcode.failure, clientInfo, { c with proxy := true })
        else (Retcode.success, clientInfo, { c with proxy := true })

/-- `RegisterCallback`. -/
def registerCallback (c : SaClient) (server : AiServer σ)
    (clientInfo : ClientInfo) (remote : σ) : Int × σ :=
  if ¬ c.proxy then (Retcode.saServiceException, remote)
  else server.registerCallback clientInfo remote

/-- `UnregisterCallback`. -/
def unregisterCallback (c : SaClient) (server : AiServer σ)
    (clientInfo : ClientInfo) (remote : σ) : Int × σ :=
  if ¬ c.proxy then (Retcode.saServiceException, remote)
  else server.unregisterCallback clientInfo remote

/-- `LoadAlgorithm`. -/
def loadAlgorithm (c : SaClient) (server : AiServer σ)
    (clientInfo : ClientInfo) (algorithmInfo : AlgorithmInfo)
    (inputInfo outputInfo : DataInfo) (remote : σ) : Int × DataInfo × σ :=
  if ¬ c.proxy then (Retcode.saServiceException, outputInfo, remote)
  else server.loadAlgorithm clientInfo algorithmInfo inputInfo outputInfo remote

/-- `UnloadAlgorithm`. -/
def unloadAlgorithm (c : SaClient) (server : AiServer σ)
    (clientInfo : ClientInfo) (algorithmInfo : AlgorithmInfo)
    (inputInfo : DataInfo) (remote : σ) : Int × σ :=
  if ¬ c.proxy then (Retcode.saServiceException, remote)
  else server.unloadAlgorithm clientInfo algorithmInfo inputInfo remote

end SaClient

/-- `AsyncHandler` of the client: the callbacks of the sessions, numbered. -/
structure AsyncHandler where
  mapCbMsg : Table Int32 Nat
  deadCbs : Table Int32 Nat

namespace AsyncHandler

def new : AsyncHandler := ⟨∅, ∅⟩

/-- `RegisterCb`. -/
def registerCb (h : AsyncHandler) (sessionId : Int32) (cb : Option Nat) :
    AsyncHandler :=
  match cb with
  | none => h
  | some cb => { h with mapCbMsg := h.mapCbMsg.insertNew sessionId cb }

/-- `UnRegisterCb`. -/
def unRegisterCb (h : AsyncHandler) (sessionId : Int32) : Int × AsyncHandler :=
  if sessionId ∈ h.mapCbMsg then
    (Retcode.success, { h with mapCbMsg := h.mapCbMsg.erase sessionId })
  else (Retcode.failure, h)

/-- `RegisterDeadCb`. -/
def registerDeadCb (h : AsyncHandler) (sessionId : Int32) (cb : Option Nat) :
    AsyncHandler :=
  match cb with
  | none => h
  | some cb => { h with deadCbs := h.deadCbs.insertNew sessionId cb }

/-- `UnRegisterDeadCb`. -/
def unRegisterDeadCb (h : AsyncHandler) (sessionId : Int32) :
    Int × AsyncHandler :=
  (Retcode.success, { h with deadCbs := h.deadCbs.erase sessionId })

end AsyncHandler

/-! ## `ClientFactory`

The factory with its maps, the connection manager and the two singletons under
it. A part is none where the source has a null pointer or no instance yet. -/

/-- `ConnectMgrWorker`, with whether its thread still runs. -/
structure ConnectMgrWorker where
  clientInfo : ClientInfo
  running : Bool
  deriving DecidableEq, Repr

/-- `SaClientAdapter`, the `ClientFactory` there is, with the singletons it
uses. The thread of the worker and the worker come and go together. -/
structure ClientFactory where
  clientId : Int32
  serverUid : UInt32
  sessionId : Int
  sessionInfos : Table Int32 Int32
  connectMgr : Option ConnectMgrWorker
  /-- Whether `ThreadPool::instance_` is set. -/
  hasThreadPool : Bool
  /-- `SaClient::instance_`. -/
  saClient : Option SaClient
  /-- `SaAsyncHandler::instance_`. -/
  saAsyncHandler : Option AsyncHandler

namespace ClientFactory

variable {σ : Type}

def initial : ClientFactory where
  clientId := invalidClientId
  serverUid := invalidUid
  sessionId := aieSessionIdBegin
  sessionInfos := ∅
  connectMgr := none
  hasThreadPool := false
  saClient := none
  saAsyncHandler := none

/-- The callbacks for results; none before there is a handler. -/
def mapCbMsg (f : ClientFactory) : Table Int32 Nat :=
  match f.saAsyncHandler with
  | none => ∅
  | some h => h.mapCbMsg

/-- The callbacks for the server's death. -/
def deadCbs (f : ClientFactory) : Table Int32 Nat :=
  match f.saAsyncHandler with
  | none => ∅
  | some h => h.deadCbs

/-- `SaClient::GetInstance()`. -/
def saClientInstance (f : ClientFactory) (alloc : Bool) : Option SaClient :=
  match f.saClient with
  | some c => some c
  | none => if alloc then some .new else none

/-- `SaAsyncHandler::GetInstance()`. -/
def saAsyncHandlerInstance (f : ClientFactory) (alloc : Bool) :
    Option AsyncHandler :=
  match f.saAsyncHandler with
  | some h => some h
  | none => if alloc then some .new else none

/-! ## The callbacks of all sessions

Each session has a handler of its own in `AsyncHandler`, and all of them share
one function pointer of `SaClient`: whoever registers sets it, and whoever
unregisters clears it. -/

/-- `RegisterAsyncClientCb`, `UnRegisterAsyncClientCb`,
`RegisterServiceDeathCb` and `UnRegisterServiceDeathCb`, by what they change
in `SaClient`. -/
def updateSaClient (f : ClientFactory) (env : ClientEnv)
    (update : SaClient → SaClient) : Int × ClientFactory :=
  match f.saClientInstance env.newSaClient with
  | none => (Retcode.nullParam, f)
  | some c => (Retcode.success, { f with saClient := some (update c) })

/-- The shape of `RegisterCb` and `RegisterDeadCb`. When the pointer cannot be
set, both take back the session's callback for results. -/
def registerWith (f : ClientFactory) (env : ClientEnv) (sessionId : Int32)
    (register : AsyncHandler → AsyncHandler) (update : SaClient → SaClient) :
    Int × ClientFactory :=
  match f.saAsyncHandlerInstance env.newSaAsyncHandler with
  | none => (Retcode.nullParam, f)
  | some h =>
      match { f with saAsyncHandler := some (register h) }.updateSaClient env
          update with
      | (retCode, f) =>
          if retCode ≠ Retcode.success then
            (Retcode.failure, { f with
              saAsyncHandler := some ((register h).unRegisterCb sessionId).2 })
          else (Retcode.success, f)

/-- The shape of `UnRegisterCb` and `UnRegisterDeadCb`. -/
def unRegisterWith (f : ClientFactory) (env : ClientEnv)
    (unRegister : AsyncHandler → Int × AsyncHandler)
    (update : SaClient → SaClient) : Int × ClientFactory :=
  match f.saAsyncHandlerInstance env.newSaAsyncHandler with
  | none => (Retcode.nullParam, f)
  | some h =>
      match { f with saAsyncHandler := some h }.updateSaClient env update with
      | (serviceCallbackRetCode, f) =>
          match unRegister h with
          | (sdkCallbackRetcode, h) =>
              let f := { f with saAsyncHandler := some h }
              if serviceCallbackRetCode ≠ Retcode.success ∨
                  sdkCallbackRetcode ≠ Retcode.success then
                (Retcode.failure, f)
              else (Retcode.success, f)

/-- `ClientFactory::RegisterCb`. -/
def registerCb (f : ClientFactory) (env : ClientEnv) (sessionId : Int32)
    (cb : Option Nat) : Int × ClientFactory :=
  f.registerWith env sessionId (·.registerCb sessionId cb)
    SaClient.registerSaClientCb

/-- `ClientFactory::UnRegisterCb`. -/
def unRegisterCb (f : ClientFactory) (env : ClientEnv) (sessionId : Int32) :
    Int × ClientFactory :=
  f.unRegisterWith env (·.unRegisterCb sessionId) SaClient.unRegisterSaClientCb

/-- `ClientFactory::RegisterDeadCb`. -/
def registerDeadCb (f : ClientFactory) (env : ClientEnv) (sessionId : Int32)
    (cb : Option Nat) : Int × ClientFactory :=
  f.registerWith env sessionId (·.registerDeadCb sessionId cb)
    SaClient.registerSaDeathCb

/-- `ClientFactory::UnRegisterDeadCb`. -/
def unRegisterDeadCb (f : ClientFactory) (env : ClientEnv)
    (sessionId : Int32) : Int × ClientFactory :=
  f.unRegisterWith env (·.unRegisterDeadCb sessionId)
    SaClient.unRegisterSaDeathCb

/-- `GenerateSessionId`. The loop takes a step for every id in use and one
more at most. -/
def generateSessionId (f : ClientFactory) : Int32 × ClientFactory :=
  if maximumNumberOfSession < f.sessionInfos.keys.card then
    (invalidSessionId, f)
  else
    let used := f.sessionInfos.keys.image Int32.toInt
    let sessionId := FreshId.search aieSessionIdBegin intMax used
      (used.card + 1) f.sessionId
    (Int32.ofInt sessionId, { f with sessionId })

/-- `AddSessionInfo`: whether the session is the first one. -/
def addSessionInfo (f : ClientFactory) (clientInfo : ClientInfo)
    (algorithmInfo : AlgorithmInfo) : Bool × ClientFactory :=
  let sessionInfos :=
    f.sessionInfos.insertNew clientInfo.sessionId algorithmInfo.algorithmType
  (f.sessionInfos.keys.card = 0, { f with sessionInfos })

/-- `EraseSessionInfo`. -/
def eraseSessionInfo (f : ClientFactory) (sessionId : Int32) :
    Int × ClientFactory :=
  if sessionId ∈ f.sessionInfos then
    (Retcode.success,
      { f with sessionInfos := f.sessionInfos.erase sessionId })
  else (Retcode.failure, f)

/-! ## The connection

A thread of its own connects: `InitAiServer` starts a worker, and
`WaitConnection` lets it make its attempts. -/

/-- `ConnectMgrWorker::OneAction`: whether the worker goes on. -/
def oneAction (f : ClientFactory) (w : ConnectMgrWorker) (env : ConnectReply) :
    Bool × ConnectMgrWorker × ClientFactory :=
  if f.clientId ≠ invalidClientId then (true, w, f)
  else
    match f.saClientInstance env.newSaClient with
    | none => (false, w, f)
    | some c =>
        match c.init env w.clientInfo with
        | (retCode, clientInfo, c) =>
            let w := { w with clientInfo }
            let f := { f with saClient := some c }
            if retCode ≠ Retcode.success ∨
                clientInfo.clientId = invalidClientId then (true, w, f)
            else
              (true, w, { f with
                clientId := clientInfo.clientId
                serverUid := clientInfo.serverUid })

/-- `ConnectMgrWorker::Uninitialize`, on the client's side of
`SaClient::Destroy`. -/
def uninitialize (f : ClientFactory) (alloc : Bool) : ClientFactory :=
  match f.saClientInstance alloc with
  | none => f
  | some c =>
      { f with
        saClient := some { c with proxy := false }
        clientId := invalidClientId }

/-- What is left when the worker's thread has ended. -/
def stopWorker (f : ClientFactory) (w : ConnectMgrWorker) (alloc : Bool) :
    ClientFactory :=
  { f.uninitialize alloc with connectMgr := some { w with running := false } }

/-- One turn of the worker's thread, which ends when the worker does not go
on. -/
def runWorker (f : ClientFactory) (env : ConnectReply) : ClientFactory :=
  match f.connectMgr with
  | none => f
  | some w =>
      if ¬ w.running then f
      else
        match f.oneAction w env with
        | (true, w, f) => { f with connectMgr := some w }
        | (false, w, f) => f.stopWorker w env.newSaClient

/-- `WaitConnection`, while the worker makes its attempts. -/
def waitConnection (f : ClientFactory) (attempts : List ConnectReply) :
    Int × ClientFactory :=
  let f := attempts.foldl runWorker f
  if f.clientId ≠ invalidClientId then (Retcode.success, f)
  else (Retcode.saServiceException, f)

/-- `InitAiServer`. -/
def initAiServer (f : ClientFactory) (env : ClientEnv)
    (clientInfo : ClientInfo) : Int × ClientFactory :=
  if ¬ (f.hasThreadPool || env.newThreadPool) then (Retcode.outOfMemory, f)
  else
    let f := { f with hasThreadPool := true }
    if ¬ env.newThread then
      (Retcode.outOfMemory, { f with connectMgr := none })
    else if ¬ env.newConnectMgrWorker then
      (Retcode.outOfMemory, { f with connectMgr := none })
    else if ¬ env.startThread then
      (Retcode.startThreadFailed, { f with connectMgr := none })
    else (Retcode.success, { f with connectMgr := some ⟨clientInfo, true⟩ })

/-- `CloseAiServer`. Stopping a thread that runs lets its worker uninitialize
first. -/
def closeAiServer (f : ClientFactory) (env : ClientEnv) :
    Int × ClientFactory :=
  match f.connectMgr with
  | none => (Retcode.failure, f)
  | some w =>
      let f := if w.running then f.stopWorker w env.newSaClient else f
      if ¬ (f.hasThreadPool || env.newThreadPool) then (Retcode.outOfMemory, f)
      else
        (Retcode.success, { f with hasThreadPool := true, connectMgr := none })

/-- `ResetClient`. -/
def resetClient (f : ClientFactory) : ClientFactory :=
  let f := { f with clientId := invalidClientId }
  let f := { f with sessionId := invalidSessionId.toInt }
  let f := { f with serverUid := invalidUid }
  { f with clientId := invalidUid.toInt32 }

/-! ## Calls of the application

The four calls of an application, each under the lock of the factory from its
first line to its last. -/

/-- `ClientInit`'s way to a connection: the first session makes it, and each
waits for it. -/
def connect (f : ClientFactory) (env : ClientEnv) (clientInfo : ClientInfo)
    (isFirstSession : Bool) : Int × ClientFactory :=
  match if isFirstSession then f.initAiServer env clientInfo
    else (Retcode.success, f) with
  | (retCode, f) =>
      if retCode ≠ Retcode.success then (retCode, f)
      else f.waitConnection env.attempts

/-- `ClientInit`: the return code and the caller's info. -/
def clientInit (f : ClientFactory) (env : ClientEnv) (clientInfo : ClientInfo)
    (algorithmInfo : AlgorithmInfo) (cb : Option Nat) :
    Int × ClientInfo × ClientFactory :=
  if clientInfo.sessionId ≠ invalidSessionId then
    (Retcode.success, clientInfo, f)
  else
    match f.generateSessionId with
    | (sessionId, f) =>
        let clientInfo := { clientInfo with sessionId }
        match f.addSessionInfo clientInfo algorithmInfo with
        | (isFirstSession, f) =>
            match f.connect env clientInfo isFirstSession with
            | (retCode, f) =>
                if retCode ≠ Retcode.success then (retCode, clientInfo, f)
                else
                  let clientInfo := { clientInfo with
                    clientId := f.clientId
                    serverUid := f.serverUid
                    clientUid := env.clientUid }
                  match f.registerDeadCb env clientInfo.sessionId cb with
                  | (retCode, f) => (retCode, clientInfo, f)

/-- `SaClientAdapter::LoadAlgorithm`. -/
def loadAlgorithm (f : ClientFactory) (env : ClientEnv) (server : AiServer σ)
    (clientInfo : ClientInfo) (algorithmInfo : AlgorithmInfo)
    (inputInfo outputInfo : DataInfo) (remote : σ) :
    Int × DataInfo × ClientFactory × σ :=
  match f.saClientInstance env.newSaClient with
  | none => (Retcode.nullParam, outputInfo, f, remote)
  | some c =>
      let f := { f with saClient := some c }
      match f.saAsyncHandlerInstance env.newSaAsyncHandler with
      | none => (Retcode.outOfMemory, outputInfo, f, remote)
      | some h =>
          let f := { f with saAsyncHandler := some h }
          match if algorithmInfo.isAsync ∧ h.mapCbMsg.keys.card = 1 then
              c.registerCallback server clientInfo remote
            else (Retcode.success, remote) with
          | (retCode, remote) =>
              if retCode ≠ Retcode.success then
                (Retcode.failure, outputInfo, f, remote)
              else
                match c.loadAlgorithm server clientInfo algorithmInfo inputInfo
                    outputInfo remote with
                | (retCode, outputInfo, remote) =>
                    (retCode, outputInfo, f, remote)

/-- `SaClientAdapter::UnLoadAlgorithm`. -/
def unLoadAlgorithm (f : ClientFactory) (env : ClientEnv) (server : AiServer σ)
    (clientInfo : ClientInfo) (algorithmInfo : AlgorithmInfo)
    (inputInfo : DataInfo) (remote : σ) : Int × ClientFactory × σ :=
  match f.saClientInstance env.newSaClient with
  | none => (Retcode.nullParam, f, remote)
  | some c =>
      let f := { f with saClient := some c }
      match f.saAsyncHandlerInstance env.newSaAsyncHandler with
      | none => (Retcode.nullParam, f, remote)
      | some h =>
          let f := { f with saAsyncHandler := some h }
          match if algorithmInfo.isAsync ∧ h.mapCbMsg.keys.card = 0 then
              c.unregisterCallback server clientInfo remote
            else (Retcode.success, remote) with
          | (retCode, remote) =>
              if retCode ≠ Retcode.success then (Retcode.failure, f, remote)
              else
                match c.unloadAlgorithm server clientInfo algorithmInfo
                    inputInfo remote with
                | (retCode, remote) => (retCode, f, remote)

/-- `ClientPrepare`. -/
def clientPrepare (f : ClientFactory) (env : ClientEnv) (server : AiServer σ)
    (clientInfo : ClientInfo) (algorithmInfo : AlgorithmInfo)
    (inputInfo outputInfo : DataInfo) (cb : Option Nat) (remote : σ) :
    Int × DataInfo × ClientFactory × σ :=
  if clientInfo.sessionId = invalidSessionId then
    (Retcode.serverNotInit, outputInfo, f, remote)
  else if algorithmInfo.isAsync ∧ cb = none then
    (Retcode.nullParam, outputInfo, f, remote)
  else
    match if algorithmInfo.isAsync then
        f.registerCb env clientInfo.sessionId cb
      else (Retcode.success, f) with
    | (retCode, f) =>
        if retCode ≠ Retcode.success then (retCode, outputInfo, f, remote)
        else
          match f.loadAlgorithm env server clientInfo algorithmInfo inputInfo
              outputInfo remote with
          | (retCode, outputInfo, f, remote) =>
              if retCode ≠ Retcode.success then
                (retCode, outputInfo,
                  (f.unRegisterCb env clientInfo.sessionId).2, remote)
              else (retCode, outputInfo, f, remote)

/-- `ClientRelease`. -/
def clientRelease (f : ClientFactory) (env : ClientEnv) (server : AiServer σ)
    (clientInfo : ClientInfo) (algorithmInfo : AlgorithmInfo)
    (inputInfo : DataInfo) (remote : σ) : Int × ClientFactory × σ :=
  if clientInfo.sessionId = invalidSessionId then
    (Retcode.success, f, remote)
  else
    match if algorithmInfo.isAsync then
        f.unRegisterCb env clientInfo.sessionId
      else (Retcode.success, f) with
    | (unRegisterCbRetCode, f) =>
        if unRegisterCbRetCode ≠ Retcode.success then
          (unRegisterCbRetCode, f, remote)
        else
          f.unLoadAlgorithm env server clientInfo algorithmInfo inputInfo remote

/-- `ClientDestroy`'s way out of the connection, which the last session
closes. -/
def disconnect (f : ClientFactory) (env : ClientEnv) : Int × ClientFactory :=
  if f.sessionInfos.keys.card = 0 then
    match f.closeAiServer env with
    | (retCode, f) =>
        if retCode ≠ Retcode.success then (retCode, f)
        else if f.clientId ≠ invalidClientId then (Retcode.failure, f)
        else (Retcode.success, f)
  else (Retcode.success, f)

/-- `ClientDestroy`. -/
def clientDestroy (f : ClientFactory) (env : ClientEnv)
    (clientInfo : ClientInfo) : Int × ClientInfo × ClientFactory :=
  if clientInfo.sessionId = invalidSessionId then
    (Retcode.failure, clientInfo, f)
  else
    match f.eraseSessionInfo clientInfo.sessionId with
    | (retCode, f) =>
        if retCode ≠ Retcode.success then (retCode, clientInfo, f)
        else
          match f.disconnect env with
          | (retCode, f) =>
              if retCode ≠ Retcode.success then (retCode, clientInfo, f)
              else
                match f.unRegisterDeadCb env clientInfo.sessionId with
                | (retCode, f) =>
                    (retCode,
                      { clientInfo with
                        sessionId := invalidSessionId
                        clientId := invalidClientId }, f)

/-- `AsyncCallback`: the callback that a result for the session is given
to. -/
def asyncCallback (f : ClientFactory) (sessionId : Int32) : Option Nat :=
  match f.saClient with
  | none => none
  | some c => if c.resultCb then f.mapCbMsg.lookup sessionId else none

/-- `OnAiDead` with `SaDeathCallback`: the callbacks that are told. -/
def onAiDead (f : ClientFactory) : Table Int32 Nat × ClientFactory :=
  match f.saClient with
  | none => (∅, f)
  | some c => if c.deathCb then (f.deadCbs, f.resetClient) else (∅, f)

end ClientFactory

/-! ## The client as a machine

The infos belong to the application, which passes any of them to any call. The
worker and the server's death come between calls. -/

/-- The client, the infos of its sessions, which the application holds, and
the server. -/
structure ClientSystem (σ : Type) where
  client : ClientFactory
  info : Nat → ClientInfo
  remote : σ

/-- What happens to a client: calls of the application, turns of the worker,
and the server's death. -/
inductive ClientStep (σ : Type) where
  | clientInit (env : ClientEnv) (i : Nat) (algorithmInfo : AlgorithmInfo)
      (cb : Option Nat)
  | clientPrepare (env : ClientEnv) (server : AiServer σ) (i : Nat)
      (algorithmInfo : AlgorithmInfo) (inputInfo outputInfo : DataInfo)
      (cb : Option Nat)
  | clientRelease (env : ClientEnv) (server : AiServer σ) (i : Nat)
      (algorithmInfo : AlgorithmInfo) (inputInfo : DataInfo)
  | clientDestroy (env : ClientEnv) (i : Nat)
  | oneAction (reply : ConnectReply)
  | onAiDead

namespace ClientSystem

variable {σ : Type}

def setInfo (s : ClientSystem σ) (i : Nat) (clientInfo : ClientInfo) :
    ClientSystem σ :=
  { s with info := Function.update s.info i clientInfo }

def take (s : ClientSystem σ) : ClientStep σ → ClientSystem σ
  | .clientInit env i algorithmInfo cb =>
      let (_, clientInfo, client) :=
        s.client.clientInit env (s.info i) algorithmInfo cb
      { s with client }.setInfo i clientInfo
  | .clientPrepare env server i algorithmInfo inputInfo outputInfo cb =>
      let (_, _, client, remote) := s.client.clientPrepare env server
        (s.info i) algorithmInfo inputInfo outputInfo cb s.remote
      { s with client, remote }
  | .clientRelease env server i algorithmInfo inputInfo =>
      let (_, client, remote) := s.client.clientRelease env server (s.info i)
        algorithmInfo inputInfo s.remote
      { s with client, remote }
  | .clientDestroy env i =>
      let (_, clientInfo, client) := s.client.clientDestroy env (s.info i)
      { s with client }.setInfo i clientInfo
  | .oneAction reply => { s with client := s.client.runWorker reply }
  | .onAiDead => { s with client := s.client.onAiDead.2 }

end ClientSystem

/-- A process from its start, with any number of infos that were not
initialized yet. -/
def clientMachine (σ : Type) : Machine (ClientSystem σ) (ClientStep σ) where
  start := fun s =>
    s.client = .initial ∧ ∀ i, (s.info i).sessionId = invalidSessionId
  step := fun s i => some (s.take i)

end AiEngine.Ref
