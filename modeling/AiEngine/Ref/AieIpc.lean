import AiEngine.Ref.Shm

/-!
# Requests over IPC

`aie_ipc.cpp`, the field lists of `sa_client_proxy.cpp` and their readers in
`sa_server.c`. A payload travels inside the message when it is short and in a
shared memory segment when it is not.

The serializer itself is not part of the sources, so it is a parameter: a
record of the primitives the code calls. A primitive that reads answers
nothing when there is nothing of its type to read, and then leaves the
variable it was given alone. `junk` is what a variable holds that was never
assigned.
-/

namespace AiEngine.Ref

open AiEngine.Lib

/-- The `IpcIo` primitives. -/
structure Serializer (Io : Type) where
  writeInt32 : Io → Int32 → Io
  writeUint32 : Io → UInt32 → Io
  writeInt64 : Io → Int64 → Io
  writeBool : Io → Bool → Io
  writeBuffer : Io → List UInt8 → UInt32 → Io
  readInt32 : Io → Option Int32 × Io
  readUint32 : Io → Option UInt32 × Io
  readInt64 : Io → Option Int64 × Io
  readBool : Io → Option Bool × Io
  readBuffer : Io → UInt32 → Option (List UInt8) × Io

/-- A call of this file: it cannot fail but with a return code. -/
abbrev Ipc (α : Type) : Type := Outcome Empty α

/-- `IPC_MAX_TRANS_CAPACITY`. -/
def ipcMaxTransCapacity : Int := 200

/-- `MAX_SHM_DATA_SIZE`. -/
def maxShmDataSize : Int := 1024 * 1024

/-- `static_cast<int>` of a `uint32_t`. -/
def UInt32.toCInt (n : UInt32) : Int := n.toInt32.toInt

/-- `FreeDataInfo`. -/
def freeDataInfo (d : DataInfo) : Ipc DataInfo :=
  match d.data with
  | .null => .ok d
  | .block _ => .ok ⟨.null, 0⟩
  | .dangling => .fault

section

variable {Io : Type} (ser : Serializer Io) (served : Nat → Bool)

/-- The bytes a `memcpy_s` reads behind a pointer. -/
def CPtr.deref : CPtr → Ipc (List UInt8)
  | .block bytes => .ok bytes
  | .null => .fault
  | .dangling => .fault

/-- `memcpy_s` of `length` bytes into a block of at least that size, unless
the call is refused. -/
def copyBytes (h : Host) (dest src : List UInt8) (length : Nat) :
    Ipc (Option (List UInt8) × Host) :=
  match h.call served .memcpy with
  | (false, h) => .ok (none, h)
  | (true, h) =>
      match memcpyS dest 0 length src 0 length with
      | .ok bytes => .ok (some bytes, h)
      | .fail _ => .ok (none, h)
      | .fault => .fault

/-- `IpcIoPushSharedMemory`. -/
def ipcIoPushSharedMemory (request : Io) (h : Host) (dataInfo : DataInfo)
    (receiverUid : UInt32) : Ipc (Io × Host) := do
  let (shmId, h) := acquireShmSegment served h dataInfo.length.toNat
  if shmId < 0 then .ok (request, h)
  else
    match h.shmat served shmId with
    | (false, h) => .ok (request, releaseShmId served h shmId)
    | (true, h) => do
        let src ← dataInfo.data.deref
        match ← copyBytes served h ((h.seg shmId).elim [] (·.bytes)) src
          dataInfo.length.toNat with
        | (none, h) =>
            let (_, h) := h.shmdt served shmId
            .ok (request, releaseShmId served h shmId)
        | (some bytes, h) =>
            let h := h.update shmId ({ · with bytes })
            match h.shmdt served shmId with
            | (false, h) => .ok (request, releaseShmId served h shmId)
            | (true, h) =>
                match h.shmStat served shmId with
                | (false, h) => .ok (request, releaseShmId served h shmId)
                | (true, h) =>
                    match h.shmSetUid served shmId receiverUid with
                    | (false, h) => .ok (request, releaseShmId served h shmId)
                    | (true, h) =>
                        let request :=
                          ser.writeInt32 request (Int32.ofInt shmId)
                        .ok (ser.writeInt32 request
                          (Int32.ofInt dataInfo.length), h)

/-- `ParcelDataInfo` of a `dataInfo` that is there. -/
def parcelDataInfo (request : Io) (h : Host) (dataInfo : DataInfo)
    (receiverUid : UInt32) : Ipc (Io × Host) :=
  if dataInfo.data ≠ .null ∧ dataInfo.length ≤ 0 then .ok (request, h)
  else if dataInfo.data = .null ∧ dataInfo.length ≠ 0 then .ok (request, h)
  else
    let request := ser.writeInt32 request (Int32.ofInt dataInfo.length)
    if dataInfo.data = .null ∧ dataInfo.length = 0 then .ok (request, h)
    else if dataInfo.length < ipcMaxTransCapacity then do
      let request :=
        ser.writeUint32 request (UInt32.ofInt dataInfo.length)
      let bytes ← dataInfo.data.deref
      .ok (ser.writeBuffer request bytes (UInt32.ofInt dataInfo.length), h)
    else ipcIoPushSharedMemory ser served request h dataInfo receiverUid

/-- What an unparcelling call leaves: its return code, the `DataInfo` it was
given, and the rest. -/
structure UnParcelled (Io α : Type) where
  retCode : Int
  out : α
  request : Io
  host : Host

/-- `IpcIoPopSharedMemory`. The guard frees the block on every failure after
its allocation, and leaves the pointer to it in `dataInfo`. -/
def ipcIoPopSharedMemory (junk : Int32) (request : Io) (h : Host)
    (dataInfo : DataInfo) : Ipc (UnParcelled Io DataInfo) := do
  let (shmId, request) := ser.readInt32 request
  let shmId := (shmId.getD junk).toInt
  let (length, request) := ser.readInt32 request
  let dataInfo :=
    { dataInfo with length := length.elim dataInfo.length (·.toInt) }
  if shmId = -1 then .ok ⟨Retcode.failure, dataInfo, request, h⟩
  else if dataInfo.length ≤ 0 ∨ dataInfo.length > maxShmDataSize then
    .ok ⟨Retcode.failure, dataInfo, request, releaseShmId served h shmId⟩
  else
    match h.shmat served shmId with
    | (false, h) =>
        .ok ⟨Retcode.failure, dataInfo, request, releaseShmId served h shmId⟩
    | (true, h) =>
        match h.call served .malloc with
        | (false, h) =>
            let (_, h) := h.shmdt served shmId
            .ok ⟨Retcode.outOfMemory, { dataInfo with data := .null }, request,
              releaseShmId served h shmId⟩
        | (true, h) => do
            let size := dataInfo.length.toNat
            match ← copyBytes served h (List.replicate size 0)
              ((h.seg shmId).elim [] (·.bytes)) size with
            | (none, h) =>
                let (_, h) := h.shmdt served shmId
                .ok ⟨Retcode.memoryCopyFailure,
                  { dataInfo with data := .dangling }, request,
                  releaseShmId served h shmId⟩
            | (some bytes, h) =>
                match h.shmdt served shmId with
                | (false, h) =>
                    .ok ⟨Retcode.failure, { dataInfo with data := .dangling },
                      request, releaseShmId served h shmId⟩
                | (true, h) =>
                    .ok ⟨Retcode.success, { dataInfo with data := .block bytes },
                      request, releaseShmId served h shmId⟩

/-- `IpcIoPopMemory`. -/
def ipcIoPopMemory (request : Io) (h : Host) (dataInfo : DataInfo) :
    Ipc (UnParcelled Io DataInfo) := do
  let (dataBufSize, request) := ser.readUint32 request
  let dataBufSize := dataBufSize.getD 0
  let (dataBuf, request) := ser.readBuffer request dataBufSize
  match dataBuf with
  | none => .ok ⟨Retcode.nullParam, dataInfo, request, h⟩
  | some dataBuf =>
      if UInt32.toCInt dataBufSize ≠ dataInfo.length then
        .ok ⟨Retcode.nullParam, dataInfo, request, h⟩
      else
        match h.call served .malloc with
        | (false, h) =>
            .ok ⟨Retcode.outOfMemory, { dataInfo with data := .null }, request,
              h⟩
        | (true, h) => do
            let size := dataBufSize.toNat
            match ← copyBytes served h (List.replicate size 0) dataBuf
              size with
            | (none, h) =>
                .ok ⟨Retcode.memoryCopyFailure, ⟨.null, 0⟩, request, h⟩
            | (some bytes, h) =>
                .ok ⟨Retcode.success, { dataInfo with data := .block bytes },
                  request, h⟩

/-- `UnParcelDataInfo`. -/
def unParcelDataInfo (junk : Int32) (request : Io) (h : Host)
    (dataInfo : DataInfo) : Ipc (UnParcelled Io DataInfo) :=
  let (length, request) := ser.readInt32 request
  let dataInfo :=
    { dataInfo with length := length.elim dataInfo.length (·.toInt) }
  if dataInfo.length < 0 then .ok ⟨Retcode.failure, dataInfo, request, h⟩
  else if dataInfo.length = 0 then
    .ok ⟨Retcode.success, { dataInfo with data := .null }, request, h⟩
  else if dataInfo.length < ipcMaxTransCapacity then
    ipcIoPopMemory ser served request h dataInfo
  else ipcIoPopSharedMemory ser served junk request h dataInfo

/-! ## The records of a request

A record goes as its scalar fields in the order in which the source lists
them, and then its payload, which is inline or in a segment. The two sides
list the fields independently. -/

/-- `ClientInfo`. -/
structure ClientInfo where
  clientVersion : Int64
  clientId : Int32
  sessionId : Int32
  serverUid : UInt32
  clientUid : UInt32
  extendLen : Int
  extendMsg : CPtr
  deriving DecidableEq, Repr

/-- `ClientInfo clientInfo = {0}`. -/
def ClientInfo.zero : ClientInfo := ⟨0, 0, 0, 0, 0, 0, .null⟩

/-- `AlgorithmInfo`. -/
structure AlgorithmInfo where
  clientVersion : Int64
  isAsync : Bool
  algorithmType : Int32
  algorithmVersion : Int64
  isCloud : Bool
  operateId : Int32
  requestId : Int32
  extendLen : Int
  extendMsg : CPtr
  deriving DecidableEq, Repr

/-- `AlgorithmInfo algorithmInfo = {0}`. -/
def AlgorithmInfo.zero : AlgorithmInfo :=
  ⟨0, false, 0, 0, false, 0, 0, 0, .null⟩

/-- `ParcelClientInfo`. -/
def parcelClientInfo (request : Io) (h : Host) (clientInfo : ClientInfo) :
    Ipc (Io × Host) :=
  let request := ser.writeInt64 request clientInfo.clientVersion
  let request := ser.writeInt32 request clientInfo.clientId
  let request := ser.writeInt32 request clientInfo.sessionId
  let request := ser.writeUint32 request clientInfo.serverUid
  let request := ser.writeUint32 request clientInfo.clientUid
  parcelDataInfo ser served request h
    ⟨clientInfo.extendMsg, clientInfo.extendLen⟩ clientInfo.serverUid

/-- `ParcelAlgorithmInfo`. -/
def parcelAlgorithmInfo (request : Io) (h : Host)
    (algorithmInfo : AlgorithmInfo) (serverUid : UInt32) : Ipc (Io × Host) :=
  let request := ser.writeInt64 request algorithmInfo.clientVersion
  let request := ser.writeBool request algorithmInfo.isAsync
  let request := ser.writeInt32 request algorithmInfo.algorithmType
  let request := ser.writeInt64 request algorithmInfo.algorithmVersion
  let request := ser.writeBool request algorithmInfo.isCloud
  let request := ser.writeInt32 request algorithmInfo.operateId
  let request := ser.writeInt32 request algorithmInfo.requestId
  parcelDataInfo ser served request h
    ⟨algorithmInfo.extendMsg, algorithmInfo.extendLen⟩ serverUid

/-- What the client sends for one call: the two records, then the input. -/
def parcelRequest (request : Io) (h : Host) (clientInfo : ClientInfo)
    (algorithmInfo : AlgorithmInfo) (inputInfo : DataInfo) :
    Ipc (Io × Host) := do
  let (request, h) ← parcelClientInfo ser served request h clientInfo
  let (request, h) ←
    parcelAlgorithmInfo ser served request h algorithmInfo clientInfo.serverUid
  parcelDataInfo ser served request h inputInfo clientInfo.serverUid

/-- `UnParcelClientInfo`. -/
def unParcelClientInfo (junk : Int32) (request : Io) (h : Host)
    (clientInfo : ClientInfo) : Ipc (UnParcelled Io ClientInfo) := do
  let (clientVersion, request) := ser.readInt64 request
  let (clientId, request) := ser.readInt32 request
  let (sessionId, request) := ser.readInt32 request
  let (serverUid, request) := ser.readUint32 request
  let (clientUid, request) := ser.readUint32 request
  let clientInfo :=
    { clientInfo with
      clientVersion := clientVersion.getD clientInfo.clientVersion
      clientId := clientId.getD clientInfo.clientId
      sessionId := sessionId.getD clientInfo.sessionId
      serverUid := serverUid.getD clientInfo.serverUid
      clientUid := clientUid.getD clientInfo.clientUid }
  let r ← unParcelDataInfo ser served junk request h ⟨.null, 0⟩
  if r.retCode = Retcode.success then
    .ok { r with out := { clientInfo with
      extendLen := r.out.length, extendMsg := r.out.data } }
  else
    .ok { r with out := { clientInfo with
      extendLen := 0, extendMsg := .null } }

/-- `UnParcelAlgorithmInfo`. -/
def unParcelAlgorithmInfo (junk : Int32) (request : Io) (h : Host)
    (algorithmInfo : AlgorithmInfo) :
    Ipc (UnParcelled Io AlgorithmInfo) := do
  let (clientVersion, request) := ser.readInt64 request
  let (isAsync, request) := ser.readBool request
  let (algorithmType, request) := ser.readInt32 request
  let (algorithmVersion, request) := ser.readInt64 request
  let (isCloud, request) := ser.readBool request
  let (operateId, request) := ser.readInt32 request
  let (requestId, request) := ser.readInt32 request
  let algorithmInfo :=
    { algorithmInfo with
      clientVersion := clientVersion.getD algorithmInfo.clientVersion
      isAsync := isAsync.getD algorithmInfo.isAsync
      algorithmType := algorithmType.getD algorithmInfo.algorithmType
      algorithmVersion :=
        algorithmVersion.getD algorithmInfo.algorithmVersion
      isCloud := isCloud.getD algorithmInfo.isCloud
      operateId := operateId.getD algorithmInfo.operateId
      requestId := requestId.getD algorithmInfo.requestId }
  let r ← unParcelDataInfo ser served junk request h ⟨.null, 0⟩
  if r.retCode = Retcode.success then
    .ok { r with out := { algorithmInfo with
      extendLen := r.out.length, extendMsg := r.out.data } }
  else
    .ok { r with out := { algorithmInfo with
      extendLen := 0, extendMsg := .null } }

/-- `FreeClientInfo` of a record whose message is live or null. -/
def freeClientInfo (clientInfo : ClientInfo) : ClientInfo :=
  if clientInfo.extendMsg ≠ .null then
    { clientInfo with extendMsg := .null, extendLen := 0 }
  else clientInfo

/-- `FreeAlgorithmInfo`, likewise. -/
def freeAlgorithmInfo (algorithmInfo : AlgorithmInfo) : AlgorithmInfo :=
  if algorithmInfo.extendMsg ≠ .null then
    { algorithmInfo with extendMsg := .null, extendLen := 0 }
  else algorithmInfo

/-- `UnParcelInfo`. -/
def unParcelInfo (junk : Int32) (request : Io) (h : Host)
    (clientInfo : ClientInfo) (algorithmInfo : AlgorithmInfo)
    (dataInfo : DataInfo) :
    Ipc (UnParcelled Io (ClientInfo × AlgorithmInfo × DataInfo)) := do
  let c ← unParcelClientInfo ser served junk request h clientInfo
  if c.retCode ≠ Retcode.success then
    .ok ⟨c.retCode, (c.out, algorithmInfo, dataInfo), c.request, c.host⟩
  else
    let a ←
      unParcelAlgorithmInfo ser served junk c.request c.host algorithmInfo
    if a.retCode ≠ Retcode.success then
      .ok ⟨a.retCode, (freeClientInfo c.out, a.out, dataInfo), a.request,
        a.host⟩
    else
      let d ← unParcelDataInfo ser served junk a.request a.host dataInfo
      if d.retCode ≠ Retcode.success then
        .ok ⟨d.retCode,
          (freeClientInfo c.out, freeAlgorithmInfo a.out, d.out), d.request,
          d.host⟩
      else .ok ⟨d.retCode, (c.out, a.out, d.out), d.request, d.host⟩

end

end AiEngine.Ref
