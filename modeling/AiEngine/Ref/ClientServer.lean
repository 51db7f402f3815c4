import AiEngine.Ref.ClientFactory

/-!
# A client with its server

The client's requests as the wrappers of `adapter_wrapper.cpp` serve them. The
reply to a load carries the output of the plugin; where the client cannot
unparcel it, the error of `UnParcelDataInfo` takes the place of the server's
answer.
-/

namespace AiEngine.Ref

open AiEngine.Lib

/-- The service, as a client's proxy reaches it. `ipcRetCode` is what
unparcelling the reply to a load returns. -/
def Service.aiServer (env : ServiceEnv) (ipcRetCode : Int) :
    AiServer Service where
  registerCallback := fun clientInfo s =>
    s.registerCallback env clientInfo.clientId
  unregisterCallback := fun clientInfo s =>
    s.unregisterCallback env clientInfo.clientId
  loadAlgorithm := fun clientInfo algorithmInfo inputInfo outputInfo s =>
    match s.loadAlgo env clientInfo algorithmInfo inputInfo ⟨.null, 0⟩ with
    | (retCode, replyInfo, s) =>
        if ipcRetCode ≠ Retcode.success then (ipcRetCode, outputInfo, s)
        else (retCode, replyInfo, s)
  unloadAlgorithm := fun clientInfo algorithmInfo inputInfo s =>
    s.unloadAlgo env clientInfo algorithmInfo inputInfo

/-- The server has a handler for the client whose thread was started. -/
def Service.HandlerStarted (s : Service) (clientId : Int32) : Prop :=
  ∃ o handler, s.asyncHandler.findClientListenerHandler clientId = some o ∧
    s.asyncHandler.handler.lookup o = some handler ∧
    handler.asyncProcessThread ≠ none

/-- `ClientPrepare` and `ClientRelease` of a session, with what both sides
meet. -/
inductive CallbackStep where
  | clientPrepare (env : ClientEnv) (serviceEnv : ServiceEnv)
      (ipcRetCode : Int) (i : Nat) (algorithmInfo : AlgorithmInfo)
      (inputInfo outputInfo : DataInfo) (cb : Option Nat)
  | clientRelease (env : ClientEnv) (serviceEnv : ServiceEnv) (i : Nat)
      (algorithmInfo : AlgorithmInfo) (inputInfo : DataInfo)

def CallbackStep.toClientStep : CallbackStep → ClientStep Service
  | .clientPrepare env serviceEnv ipcRetCode i algorithmInfo inputInfo
      outputInfo cb =>
      .clientPrepare env (Service.aiServer serviceEnv ipcRetCode) i
        algorithmInfo inputInfo outputInfo cb
  | .clientRelease env serviceEnv i algorithmInfo inputInfo =>
      .clientRelease env (Service.aiServer serviceEnv Retcode.success) i
        algorithmInfo inputInfo

/-- A client that is connected and has no callbacks yet: the server knows it
and has no handler for it, and the infos of its sessions carry its id. -/
structure ConnectedClient (s : ClientSystem Service) : Prop where
  proxy : ∃ c, s.client.saClient = some c ∧ c.proxy = true
  mapCbMsg : s.client.mapCbMsg = ∅
  info : ∀ i, (s.info i).clientId = s.client.clientId
  adapter : s.client.clientId ∈ s.remote.adapters
  handler :
    s.remote.asyncHandler.findClientListenerHandler s.client.clientId = none

/-- The sessions of one connected client being prepared and released. -/
def callbackMachine : Machine (ClientSystem Service) CallbackStep where
  start := ConnectedClient
  step := fun s i => some (s.take i.toClientStep)

end AiEngine.Ref
