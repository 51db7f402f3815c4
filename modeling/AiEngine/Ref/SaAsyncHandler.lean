import AiEngine.Ref.EngineManager
import AiEngine.Ref.FutureFactory

/-!
# Callbacks to clients

`sa_async_handler.cpp` and `client_listener_handler.cpp`. Each client with a
registered callback has a `ClientListenerHandler`, a list of responses that a
thread sends to the client. A started asynchronous transaction has a listener
in the factory, which appends the transaction's responses to its client's
list.

`transactions_` and `clients_` are changed by the thread that serves the
clients' requests only. The engines' workers read `clients_`.
-/

namespace AiEngine.Ref

open AiEngine.Lib

/-- `ClientListenerHandler`: the numbers of the responses to send, the thread
that sends them, and whether there is a worker for it. The client it was made
for is kept to tell the handlers apart. -/
structure ClientListenerHandler where
  clientId : Int32
  responses : List Nat
  asyncProcessThread : Option Nat
  asyncProcessWorker : Bool
  deriving DecidableEq, Repr

structure SaAsyncHandler where
  /-- Whether `SaAsyncHandler::instance_` is set. -/
  hasInstance : Bool
  clients : Table Int32 Nat
  transactions : Finset Int64
  handler : Table Nat ClientListenerHandler
  handlerNum : Nat

/-- What a callback operation asks of the allocator. -/
structure CallbackEnv where
  newSaAsyncHandler : Bool
  newListener : Bool
  newFutureFactory : Bool
  newClientListenerHandler : Bool
  newAsyncProcessWorker : Bool

/-- Everything asked for is granted. -/
def CallbackEnv.willing : CallbackEnv := ⟨true, true, true, true, true⟩

namespace SaAsyncHandler

def initial : SaAsyncHandler where
  hasInstance := false
  clients := ∅
  transactions := ∅
  handler := ∅
  handlerNum := 0

/-- `SaAsyncHandler::GetInstance()`. -/
def getInstance (h : SaAsyncHandler) (alloc : Bool) : Bool × SaAsyncHandler :=
  if h.hasInstance then (true, h) else (alloc, { h with hasInstance := alloc })

/-- `StartAsyncTransaction`. What `RegisterListener` returns is ignored, and
a listener it could not file is lost. -/
def startAsyncTransaction (h : SaAsyncHandler) (f : FutureFactory)
    (env : CallbackEnv) (transactionId : Int64) (clientId : Int32) :
    Int × SaAsyncHandler × FutureFactory :=
  if transactionId ∈ h.transactions then (Retcode.success, h, f)
  else if ¬ env.newListener then (Retcode.outOfMemory, h, f)
  else
    let saved := { h with transactions := insert transactionId h.transactions }
    match f.getInstance env.newFutureFactory with
    | (false, f) => (Retcode.success, saved, f)
    | (true, f) =>
        (Retcode.success, saved, f.registerListener clientId transactionId)

/-- `StopAsyncTransaction`. The task manager it asks for is the one that
started the transaction. -/
def stopAsyncTransaction (h : SaAsyncHandler) (f : FutureFactory)
    (env : CallbackEnv) (transactionId : Int64) :
    SaAsyncHandler × FutureFactory :=
  if transactionId ∈ h.transactions then
    let removed :=
      { h with transactions := h.transactions.erase transactionId }
    match f.getInstance env.newFutureFactory with
    | (false, f) => (removed, f)
    | (true, f) => (removed, f.unregisterListener transactionId)
  else (h, f)

def findClientListenerHandler (h : SaAsyncHandler) (clientId : Int32) :
    Option Nat :=
  h.clients.lookup clientId

/-- `AddClientListenerHandler`. -/
def addClientListenerHandler (h : SaAsyncHandler) (alloc : Bool)
    (clientId : Int32) : SaAsyncHandler :=
  if ¬ alloc then h
  else
    { h with
      handler := h.handler.insert h.handlerNum ⟨clientId, [], none, false⟩
      clients := h.clients.insert clientId h.handlerNum
      handlerNum := h.handlerNum + 1 }

/-- `RegisterAsyncHandler`, which succeeds also where it could not. -/
def registerAsyncHandler (h : SaAsyncHandler) (env : CallbackEnv)
    (clientId : Int32) : SaAsyncHandler :=
  match h.findClientListenerHandler clientId with
  | some _ => h
  | none => h.addClientListenerHandler env.newClientListenerHandler clientId

/-- `StartAsyncProcess` with `StartAsyncProcessThread`. -/
def startAsyncProcess (h : SaAsyncHandler) (pools : Pools Task) (env : Env)
    (cenv : CallbackEnv) (clientId : Int32) :
    Int × SaAsyncHandler × Pools Task :=
  match h.findClientListenerHandler clientId with
  | none => (Retcode.saAsyncHandlerNotFound, h, pools)
  | some o =>
      match h.handler.lookup o with
      | none => (Retcode.saAsyncHandlerNotFound, h, pools)
      | some handler =>
          match pools.threadPoolInstance env.newThreadPool with
          | (false, pools) => (Retcode.outOfMemory, h, pools)
          | (true, pools) =>
              if handler.asyncProcessThread ≠ none ∨
                  handler.asyncProcessWorker then
                (Retcode.asyncCbStarted, h, pools)
              else
                match pools.threadPop env.newThread with
                | (none, pools) => (Retcode.outOfMemory, h, pools)
                | (some t, pools) =>
                    if ¬ cenv.newAsyncProcessWorker then
                      (Retcode.outOfMemory, h, pools.threadPush t)
                    else
                      let (started, thread) := (pools.thread t).startThread
                        (.asyncProcessWorker clientId) env.createThread
                        env.threadHandle
                      let pools := pools.setThread t thread
                      if ¬ started then
                        (Retcode.startThreadFailed, h, pools.threadPush t)
                      else
                        let handler :=
                          { handler with
                            asyncProcessThread := some t
                            asyncProcessWorker := true }
                        (Retcode.success,
                          { h with handler := h.handler.insert o handler },
                          pools)

/-- `StopAsyncProcessThread` of a handler, on the pools. -/
def stopAsyncProcessThread (handler : ClientListenerHandler)
    (pools : Pools Task) (env : Env) : Pools Task :=
  match handler.asyncProcessThread with
  | none => pools
  | some t =>
      match (pools.stopThread t).threadPoolInstance env.newThreadPool with
      | (false, pools) => pools
      | (true, pools) => pools.threadPush t

/-- `RemoveClientListenerHandler`: the handler is deleted. -/
def removeClientListenerHandler (h : SaAsyncHandler) (clientId : Int32) :
    SaAsyncHandler :=
  match h.findClientListenerHandler clientId with
  | none => h
  | some o =>
      { h with
        handler := h.handler.erase o
        clients := h.clients.erase clientId }

/-- `StopAsyncProcess`. -/
def stopAsyncProcess (h : SaAsyncHandler) (pools : Pools Task) (env : Env)
    (clientId : Int32) : SaAsyncHandler × Pools Task :=
  match (h.findClientListenerHandler clientId).bind h.handler.lookup with
  | none => (h.removeClientListenerHandler clientId, pools)
  | some handler =>
      (h.removeClientListenerHandler clientId,
        stopAsyncProcessThread handler pools env)

end SaAsyncHandler

end AiEngine.Ref
