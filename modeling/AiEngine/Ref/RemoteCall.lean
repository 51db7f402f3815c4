import AiEngine.Ref.AieIpc
import AiEngine.Ref.ServerExecutor

/-!
# Calls from one process to the other

`sa_client_proxy.cpp` and the dispatch of `sa_server.c`. A proxy writes the
arguments of a call into a message, `Invoke` of the server reads them and
calls the interface, and what the interface answers goes back in a reply,
which a callback reads into an object on the proxy's stack.

The two processes share a host, and each has its own `g_shmKey`. How a
message gets from the one to the other is the business of the service
manager, so what becomes of it is a parameter of the call.
-/

namespace AiEngine.Ref

open AiEngine.Lib

/-- `FUNC_ID`. -/
inductive FuncId where
  | initEngine
  | loadAlgorithm
  | syncExecuteAlgorithm
  | asyncExecuteAlgorithm
  | unloadAlgorithm
  | destroyEngine
  | setOption
  | getOption
  | registerCallback
  | unregisterCallback
  deriving DecidableEq, Repr

/-- `SvcIdentity`, by the function that messages to it are given to. -/
abbrev SvcIdentity : Type := Nat

/-- The `IpcIo` primitives of a call: those of a payload, an empty message,
strings and the identities of objects. -/
structure CallSerializer (Io : Type) extends Serializer Io where
  init : Io
  writeString : Io → String → Io
  readString : Io → Option String × Io
  writeRemoteObject : Io → SvcIdentity → Bool × Io
  readRemoteObject : Io → Option SvcIdentity × Io

/-- `AiInterface` with `RegisterCallbackWrapper`: the functions of a server
whose state is a `σ`. The output of a call is what it makes of the empty
`DataInfo`. -/
structure AiInterface (σ : Type) where
  initEngine : Option String → σ → Int32 × σ
  loadAlgorithm : ClientInfo → AlgorithmInfo → DataInfo → σ →
    Int32 × DataInfo × σ
  syncExecuteAlgorithm : ClientInfo → AlgorithmInfo → DataInfo → σ →
    Int32 × DataInfo × σ
  asyncExecuteAlgorithm : ClientInfo → AlgorithmInfo → DataInfo → σ →
    Int32 × σ
  unloadAlgorithm : ClientInfo → AlgorithmInfo → DataInfo → σ → Int32 × σ
  destroyEngine : ClientInfo → σ → Int32 × σ
  setOption : ClientInfo → Int32 → DataInfo → σ → Int32 × σ
  getOption : ClientInfo → Int32 → DataInfo → σ → Int32 × DataInfo × σ
  registerCallback : ClientInfo → SvcIdentity → σ → Int32 × σ
  unregisterCallback : ClientInfo → σ → Int32 × σ

/-- What client and server have between them: the serializer, which system
calls are served, the server's functions and its uid, and what a variable
holds that was never assigned. -/
structure Link (Io σ : Type) where
  ser : CallSerializer Io
  served : Nat → Bool
  api : AiInterface σ
  uid : UInt32
  junk : Int32

/-- The server and the host, with the client's `g_shmKey` in the host and the
server's beside it. -/
structure Remote (σ : Type) where
  server : σ
  host : Host
  serverKey : Int

/-- What a function of the server leaves: the reply, the server and the
host. -/
structure Invoked (Io σ : Type) where
  reply : Io
  server : σ
  host : Host

namespace Link

variable {Io σ α : Type} (l : Link Io σ)

/-! ## The server's side

A function of `sa_server.c` for each message: it reads the records, calls the
interface and writes the return code and the result. What it cannot read it
does not pass on. -/

/-- `InvokeInitSaEngine`. -/
def invokeInitSaEngine (req reply : Io) (s : σ) (h : Host) :
    Ipc (Invoked Io σ) :=
  let (description, _) := l.ser.readString req
  let (clientId, s) := l.api.initEngine description s
  let reply := l.ser.writeInt32 reply clientId
  .ok ⟨l.ser.writeUint32 reply l.uid, s, h⟩

/-- The shape of the functions that reply with a code. `kept` is the payload
that is still the function's after the call. -/
def invokeCode (read : Io → Host → Ipc (UnParcelled Io α))
    (call : α → σ → Int32 × σ) (kept : α → DataInfo) (req reply : Io) (s : σ)
    (h : Host) : Ipc (Invoked Io σ) := do
  let r ← read req h
  if r.retCode ≠ Retcode.success then .ok ⟨reply, s, r.host⟩
  else
    let (retCode, s) := call r.out s
    let _ ← freeDataInfo (kept r.out)
    .ok ⟨l.ser.writeInt32 reply retCode, s, r.host⟩

/-- The shape of the functions that reply with a code and a payload, which is
for `clientUid`. -/
def invokeData (read : Io → Host → Ipc (UnParcelled Io α))
    (call : α → σ → Int32 × DataInfo × σ) (clientUid : α → UInt32)
    (kept : α → DataInfo) (req reply : Io) (s : σ) (h : Host) :
    Ipc (Invoked Io σ) := do
  let r ← read req h
  if r.retCode ≠ Retcode.success then .ok ⟨reply, s, r.host⟩
  else
    let (retCode, outputInfo, s) := call r.out s
    let reply := l.ser.writeInt32 reply retCode
    let (reply, h) ← parcelDataInfo l.ser.toSerializer l.served reply r.host
      outputInfo (clientUid r.out)
    let _ ← freeDataInfo outputInfo
    let _ ← freeDataInfo (kept r.out)
    .ok ⟨reply, s, h⟩

/-- `UnParcelInfo` of the server's three empty records. -/
def readAlgorithm (req : Io) (h : Host) :
    Ipc (UnParcelled Io (ClientInfo × AlgorithmInfo × DataInfo)) :=
  unParcelInfo l.ser.toSerializer l.served l.junk req h .zero .zero ⟨.null, 0⟩

/-- `UnParcelClientInfo` of the server's empty record. -/
def readClient (req : Io) (h : Host) : Ipc (UnParcelled Io ClientInfo) :=
  unParcelClientInfo l.ser.toSerializer l.served l.junk req h .zero

/-- What `InvokeSetOption` and `InvokeGetOption` read. When the payload cannot
be read, what is left of it is freed. -/
def readOption (req : Io) (h : Host) :
    Ipc (UnParcelled Io (ClientInfo × Int32 × DataInfo)) := do
  let c ← l.readClient req h
  if c.retCode ≠ Retcode.success then
    .ok ⟨c.retCode, (c.out, l.junk, ⟨.null, 0⟩), c.request, c.host⟩
  else
    let (optionType, req) := l.ser.readInt32 c.request
    let optionType := optionType.getD l.junk
    let d ← unParcelDataInfo l.ser.toSerializer l.served l.junk req c.host
      ⟨.null, 0⟩
    if d.retCode ≠ Retcode.success then
      let inputInfo ← freeDataInfo d.out
      .ok ⟨d.retCode, (freeClientInfo c.out, optionType, inputInfo), d.request,
        d.host⟩
    else .ok ⟨d.retCode, (c.out, optionType, d.out), d.request, d.host⟩

/-- What `InvokeRegisterCallback` reads. -/
def readCallback (req : Io) (h : Host) :
    Ipc (UnParcelled Io (ClientInfo × SvcIdentity)) := do
  match l.ser.readRemoteObject req with
  | (none, req) => .ok ⟨Retcode.nullParam, (.zero, 0), req, h⟩
  | (some sid, req) =>
      let c ← l.readClient req h
      .ok ⟨c.retCode, (c.out, sid), c.request, c.host⟩

/-- `InvokeLoadAlgorithm`. -/
def invokeLoadAlgorithm : Io → Io → σ → Host → Ipc (Invoked Io σ) :=
  l.invokeData l.readAlgorithm (fun (c, g, d) => l.api.loadAlgorithm c g d)
    (·.1.clientUid) (·.2.2)

/-- `InvokeSyncExecute`. The request keeps the input, and frees it. -/
def invokeSyncExecute : Io → Io → σ → Host → Ipc (Invoked Io σ) :=
  l.invokeData l.readAlgorithm
    (fun (c, g, d) => l.api.syncExecuteAlgorithm c g d) (·.1.clientUid)
    fun _ => ⟨.null, 0⟩

/-- `InvokeAsyncExecute`. The request keeps the input, and frees it. -/
def invokeAsyncExecute : Io → Io → σ → Host → Ipc (Invoked Io σ) :=
  l.invokeCode l.readAlgorithm
    (fun (c, g, d) => l.api.asyncExecuteAlgorithm c g d) fun _ => ⟨.null, 0⟩

/-- `InvokeUnloadAlgorithm`. -/
def invokeUnloadAlgorithm : Io → Io → σ → Host → Ipc (Invoked Io σ) :=
  l.invokeCode l.readAlgorithm (fun (c, g, d) => l.api.unloadAlgorithm c g d)
    (·.2.2)

/-- `InvokeDestroyEngine`. -/
def invokeDestroyEngine : Io → Io → σ → Host → Ipc (Invoked Io σ) :=
  l.invokeCode l.readClient l.api.destroyEngine fun _ => ⟨.null, 0⟩

/-- `InvokeSetOption`. -/
def invokeSetOption : Io → Io → σ → Host → Ipc (Invoked Io σ) :=
  l.invokeCode l.readOption (fun (c, o, d) => l.api.setOption c o d) (·.2.2)

/-- `InvokeGetOption`. -/
def invokeGetOption : Io → Io → σ → Host → Ipc (Invoked Io σ) :=
  l.invokeData l.readOption (fun (c, o, d) => l.api.getOption c o d)
    (·.1.clientUid) (·.2.2)

/-- `InvokeRegisterCallback`. -/
def invokeRegisterCallback : Io → Io → σ → Host → Ipc (Invoked Io σ) :=
  l.invokeCode l.readCallback (fun (c, sid) => l.api.registerCallback c sid)
    fun _ => ⟨.null, 0⟩

/-- `InvokeUnregisterCallback`. -/
def invokeUnregisterCallback : Io → Io → σ → Host → Ipc (Invoked Io σ) :=
  l.invokeCode l.readClient l.api.unregisterCallback fun _ => ⟨.null, 0⟩

/-- `Invoke`. -/
def invoke : FuncId → Io → Io → σ → Host → Ipc (Invoked Io σ)
  | .initEngine => l.invokeInitSaEngine
  | .loadAlgorithm => l.invokeLoadAlgorithm
  | .syncExecuteAlgorithm => l.invokeSyncExecute
  | .asyncExecuteAlgorithm => l.invokeAsyncExecute
  | .unloadAlgorithm => l.invokeUnloadAlgorithm
  | .destroyEngine => l.invokeDestroyEngine
  | .setOption => l.invokeSetOption
  | .getOption => l.invokeGetOption
  | .registerCallback => l.invokeRegisterCallback
  | .unregisterCallback => l.invokeUnregisterCallback

end Link

/-! ## The client's side

The functions of the proxy: write the message, send it, and read from the
answer what the server has written, in the function that the call was sent
with. -/

/-- What becomes of a message: it does not reach the server, the reply does
not come back, or it does. -/
inductive Transmission where
  | lost
  | unanswered
  | answered
  deriving DecidableEq, Repr

/-- What a proxy meets: whether the object has an `Invoke`, and what becomes
of the message. -/
structure ProxyEnv where
  invoke : Bool
  delivery : Transmission
  deriving DecidableEq, Repr

/-- Everything is there, and messages arrive. -/
def ProxyEnv.willing : ProxyEnv := ⟨true, .answered⟩

/-- `IClientProxy::Invoke`: the reply, if it comes back. The host is the
server's while the server has it. -/
def Remote.transact {Io σ : Type} (l : Link Io σ) (delivery : Transmission)
    (funcId : FuncId) (request : Io) (r : Remote σ) :
    Ipc (Option Io × Remote σ) :=
  match delivery with
  | .lost => .ok (none, r)
  | .unanswered => do
      let i ← l.invoke funcId request l.ser.init r.server
        { r.host with shmKey := r.serverKey }
      .ok (none, ⟨i.server, { i.host with shmKey := r.host.shmKey },
        i.host.shmKey⟩)
  | .answered => do
      let i ← l.invoke funcId request l.ser.init r.server
        { r.host with shmKey := r.serverKey }
      .ok (some i.reply, ⟨i.server, { i.host with shmKey := r.host.shmKey },
        i.host.shmKey⟩)

/-- Assign a word of an object of `n` words, if there is a value. -/
def writeWord {n : Nat} (owner : Vector UInt32 n) (i : Nat)
    (v : Option UInt32) : Ipc (Vector UInt32 n) :=
  match v with
  | none => .ok owner
  | some v => if h : i < n then .ok (owner.set i v h) else .fault

/-- `NotifyBuff`. -/
structure NotifyBuff where
  ipcRetCode : Int
  retCode : Int32
  outLen : Int
  outBuff : CPtr
  deriving DecidableEq, Repr

/-- The object of `LoadAlgorithmProxy`, `SyncExecAlgorithmProxy` and
`GetOptionProxy` before the call. -/
def NotifyBuff.initial : NotifyBuff :=
  ⟨Retcode.success, Int32.ofInt Retcode.failure, 0, .null⟩

namespace Link

variable {Io σ : Type} (l : Link Io σ)

/-- `Callback`. It takes its owner for a `NotificationInitServer`, which has
two words, also where it is a `Notify`, which has one. -/
def callback {n : Nat} (owner : Vector UInt32 n) (reply : Io) :
    Ipc (Vector UInt32 n) := do
  let (clientId, reply) := l.ser.readInt32 reply
  let owner ← writeWord owner 0 (clientId.map Int32.toUInt32)
  let (serverUid, _) := l.ser.readUint32 reply
  writeWord owner 1 serverUid

/-- `CallbackBuff`. -/
def callbackBuff (owner : NotifyBuff) (reply : Io) (h : Host) :
    Ipc (NotifyBuff × Host) := do
  let (retCode, reply) := l.ser.readInt32 reply
  let owner := { owner with retCode := retCode.getD owner.retCode }
  let r ← unParcelDataInfo l.ser.toSerializer l.served l.junk reply h
    ⟨.null, 0⟩
  if r.retCode = Retcode.success then
    .ok ({ owner with
      ipcRetCode := r.retCode, outLen := r.out.length, outBuff := r.out.data },
      r.host)
  else
    .ok ({ owner with ipcRetCode := r.retCode, outLen := 0, outBuff := .null },
      r.host)

/-- The `ClientInfo` of a call. -/
def writeClient (clientInfo : ClientInfo) (request : Io) (h : Host) :
    Ipc (Io × Host) :=
  parcelClientInfo l.ser.toSerializer l.served request h clientInfo

/-- The `ClientInfo`, the `AlgorithmInfo` and the input of a call. -/
def writeAlgorithm (clientInfo : ClientInfo) (algorithmInfo : AlgorithmInfo)
    (inputInfo : DataInfo) (request : Io) (h : Host) : Ipc (Io × Host) :=
  parcelRequest l.ser.toSerializer l.served request h clientInfo algorithmInfo
    inputInfo

/-- The `ClientInfo`, the option and the input of a call. -/
def writeOption (clientInfo : ClientInfo) (optionType : Int32)
    (inputInfo : DataInfo) (request : Io) (h : Host) : Ipc (Io × Host) := do
  let (request, h) ← l.writeClient clientInfo request h
  parcelDataInfo l.ser.toSerializer l.served
    (l.ser.writeInt32 request optionType) h inputInfo clientInfo.serverUid

/-- The shape of the proxies that are told a code, which begins as a
failure. -/
def callForCode (write : Io → Host → Ipc (Io × Host)) (funcId : FuncId)
    (env : ProxyEnv) (r : Remote σ) : Ipc (Int × Remote σ) := do
  let (request, host) ← write l.ser.init r.host
  let r := { r with host }
  if ¬ env.invoke then .ok (Retcode.nullParam, r)
  else
    let owner := #v[(Int32.ofInt Retcode.failure).toUInt32]
    match ← r.transact l env.delivery funcId request with
    | (none, r) => .ok (owner[0].toInt32.toInt, r)
    | (some reply, r) =>
        let owner ← l.callback owner reply
        .ok (owner[0].toInt32.toInt, r)

/-- The shape of the proxies that are told a code and given a payload. -/
def callForData (write : Io → Host → Ipc (Io × Host)) (funcId : FuncId)
    (env : ProxyEnv) (outputInfo : DataInfo) (r : Remote σ) :
    Ipc (Int × DataInfo × Remote σ) := do
  let (request, host) ← write l.ser.init r.host
  let r := { r with host }
  if ¬ env.invoke then .ok (Retcode.nullParam, outputInfo, r)
  else
    let (owner, r) ←
      match ← r.transact l env.delivery funcId request with
      | (none, r) => .ok (NotifyBuff.initial, r)
      | (some reply, r) => do
          let (owner, host) ← l.callbackBuff .initial reply r.host
          .ok (owner, { r with host })
    if owner.ipcRetCode ≠ Retcode.success then
      .ok (owner.ipcRetCode, outputInfo, r)
    else .ok (owner.retCode.toInt, ⟨owner.outBuff, owner.outLen⟩, r)

/-- `InitSaEngine`. -/
def initSaEngine (description : String) (env : ProxyEnv)
    (clientInfo : ClientInfo) (r : Remote σ) :
    Ipc (Int × ClientInfo × Remote σ) := do
  let request := l.ser.writeString l.ser.init description
  if ¬ env.invoke then .ok (Retcode.nullParam, clientInfo, r)
  else
    let owner := #v[invalidClientId.toUInt32, 0]
    let (owner, r) ←
      match ← r.transact l env.delivery .initEngine request with
      | (none, r) => .ok (owner, r)
      | (some reply, r) => do
          let owner ← l.callback owner reply
          .ok (owner, r)
    .ok (Retcode.success,
      { clientInfo with
        clientId := owner[0].toInt32, serverUid := owner[1] }, r)

/-- `DestroyEngineProxy`. -/
def destroyEngineProxy (clientInfo : ClientInfo) :
    ProxyEnv → Remote σ → Ipc (Int × Remote σ) :=
  l.callForCode (l.writeClient clientInfo) .destroyEngine

/-- `SyncExecAlgorithmProxy`. -/
def syncExecAlgorithmProxy (clientInfo : ClientInfo) (algoInfo : AlgorithmInfo)
    (inputInfo : DataInfo) :
    ProxyEnv → DataInfo → Remote σ → Ipc (Int × DataInfo × Remote σ) :=
  l.callForData (l.writeAlgorithm clientInfo algoInfo inputInfo)
    .syncExecuteAlgorithm

/-- `AsyncExecuteAlgorithmProxy`. -/
def asyncExecuteAlgorithmProxy (clientInfo : ClientInfo)
    (algoInfo : AlgorithmInfo) (inputInfo : DataInfo) :
    ProxyEnv → Remote σ → Ipc (Int × Remote σ) :=
  l.callForCode (l.writeAlgorithm clientInfo algoInfo inputInfo)
    .asyncExecuteAlgorithm

/-- `LoadAlgorithmProxy`. -/
def loadAlgorithmProxy (clientInfo : ClientInfo) (algoInfo : AlgorithmInfo)
    (inputInfo : DataInfo) :
    ProxyEnv → DataInfo → Remote σ → Ipc (Int × DataInfo × Remote σ) :=
  l.callForData (l.writeAlgorithm clientInfo algoInfo inputInfo) .loadAlgorithm

/-- `UnloadAlgorithmProxy`. -/
def unloadAlgorithmProxy (clientInfo : ClientInfo) (algoInfo : AlgorithmInfo)
    (inputInfo : DataInfo) : ProxyEnv → Remote σ → Ipc (Int × Remote σ) :=
  l.callForCode (l.writeAlgorithm clientInfo algoInfo inputInfo)
    .unloadAlgorithm

/-- `SetOptionProxy`. -/
def setOptionProxy (clientInfo : ClientInfo) (optionType : Int32)
    (inputInfo : DataInfo) : ProxyEnv → Remote σ → Ipc (Int × Remote σ) :=
  l.callForCode (l.writeOption clientInfo optionType inputInfo) .setOption

/-- `GetOptionProxy`. -/
def getOptionProxy (clientInfo : ClientInfo) (optionType : Int32)
    (inputInfo : DataInfo) :
    ProxyEnv → DataInfo → Remote σ → Ipc (Int × DataInfo × Remote σ) :=
  l.callForData (l.writeOption clientInfo optionType inputInfo) .getOption

/-- `RegisterCallbackProxy`, with the object whose function is `sid`. -/
def registerCallbackProxy (clientInfo : ClientInfo) (sid : SvcIdentity)
    (env : ProxyEnv) (r : Remote σ) : Ipc (Int × Remote σ) :=
  match l.ser.writeRemoteObject l.ser.init sid with
  | (written, request) =>
      if ¬ written then .ok (Retcode.failure, r)
      else
        l.callForCode (fun _ => l.writeClient clientInfo request)
          .registerCallback env r

/-- `UnregisterCallbackProxy`. -/
def unregisterCallbackProxy (clientInfo : ClientInfo) :
    ProxyEnv → Remote σ → Ipc (Int × Remote σ) :=
  l.callForCode (l.writeClient clientInfo) .unregisterCallback

end Link

/-- A call of a proxy, with what it is passed. -/
inductive ProxyCall where
  | initEngine (description : String) (clientInfo : ClientInfo)
  | destroyEngine (clientInfo : ClientInfo)
  | syncExecuteAlgorithm (clientInfo : ClientInfo) (algoInfo : AlgorithmInfo)
      (inputInfo outputInfo : DataInfo)
  | asyncExecuteAlgorithm (clientInfo : ClientInfo) (algoInfo : AlgorithmInfo)
      (inputInfo : DataInfo)
  | loadAlgorithm (clientInfo : ClientInfo) (algoInfo : AlgorithmInfo)
      (inputInfo outputInfo : DataInfo)
  | unloadAlgorithm (clientInfo : ClientInfo) (algoInfo : AlgorithmInfo)
      (inputInfo : DataInfo)
  | setOption (clientInfo : ClientInfo) (optionType : Int32)
      (inputInfo : DataInfo)
  | getOption (clientInfo : ClientInfo) (optionType : Int32)
      (inputInfo outputInfo : DataInfo)
  | registerCallback (clientInfo : ClientInfo) (sid : SvcIdentity)
  | unregisterCallback (clientInfo : ClientInfo)
  deriving DecidableEq, Repr

/-- What the caller of a proxy has afterwards. -/
inductive ProxyResult where
  | code (retCode : Int)
  | data (retCode : Int) (outputInfo : DataInfo)
  | client (retCode : Int) (clientInfo : ClientInfo)
  deriving DecidableEq, Repr

/-- The call of a proxy. -/
def Link.call {Io σ : Type} (l : Link Io σ) (env : ProxyEnv)
    (r : Remote σ) : ProxyCall → Ipc (ProxyResult × Remote σ)
  | .initEngine description c => do
      let (retCode, c, r) ← l.initSaEngine description env c r
      .ok (.client retCode c, r)
  | .destroyEngine c => do
      let (retCode, r) ← l.destroyEngineProxy c env r
      .ok (.code retCode, r)
  | .syncExecuteAlgorithm c g d out => do
      let (retCode, out, r) ← l.syncExecAlgorithmProxy c g d env out r
      .ok (.data retCode out, r)
  | .asyncExecuteAlgorithm c g d => do
      let (retCode, r) ← l.asyncExecuteAlgorithmProxy c g d env r
      .ok (.code retCode, r)
  | .loadAlgorithm c g d out => do
      let (retCode, out, r) ← l.loadAlgorithmProxy c g d env out r
      .ok (.data retCode out, r)
  | .unloadAlgorithm c g d => do
      let (retCode, r) ← l.unloadAlgorithmProxy c g d env r
      .ok (.code retCode, r)
  | .setOption c o d => do
      let (retCode, r) ← l.setOptionProxy c o d env r
      .ok (.code retCode, r)
  | .getOption c o d out => do
      let (retCode, out, r) ← l.getOptionProxy c o d env out r
      .ok (.data retCode out, r)
  | .registerCallback c sid => do
      let (retCode, r) ← l.registerCallbackProxy c sid env r
      .ok (.code retCode, r)
  | .unregisterCallback c => do
      let (retCode, r) ← l.unregisterCallbackProxy c env r
      .ok (.code retCode, r)

/-- Calls made one after the other: what the caller has after each. -/
def Link.session {Io σ : Type} (l : Link Io σ) :
    Remote σ → List (ProxyEnv × ProxyCall) →
      Ipc (List ProxyResult × Remote σ)
  | r, [] => .ok ([], r)
  | r, (env, c) :: calls => do
      let (result, r) ← l.call env r c
      let (results, r) ← l.session r calls
      .ok (result :: results, r)

end AiEngine.Ref
