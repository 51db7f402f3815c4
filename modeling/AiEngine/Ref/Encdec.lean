import AiEngine.Ref.Platform

/-!
# The encoder and the decoder

`utils/encdec`: `DataEncoder` appends parameters to one growing memory block
and closes with the number of bytes it wrote; `DataDecoder` walks a cursor
over such a block. The array specialisations are those of `plugin_helper.cpp`.

A parameter carries its static type, because the overloads of
`EncodeOneParameter` are chosen by it. A fixed-size value is its object
representation, which is all `memcpy_s` ever sees of it.

Allocation is an oracle: request number `n` of a run succeeds when `heap n`
says so. Sizes are reduced to `size_t` where the source computes them, and an
access outside a block is a fault, never a silent truncation. On a failure
the encoder and decoder objects are dropped, since every caller returns at
once.
-/

namespace AiEngine.Ref

open AiEngine.Lib

/-! ## Parameters

The template parameters of `ProcessEncode`: the kinds of types that it has an
overload for, with what a decoder writes into an object of each. -/

/-- The element types `Array<T>` is specialised for. -/
inductive ElemType where
  | uint8
  | uint16
  | uint32
  | int16
  | int32
  deriving DecidableEq, Repr

/-- `sizeof(T)`. -/
def ElemType.size : ElemType → Nat
  | .uint8 => 1
  | .uint16 => 2
  | .uint32 => 4
  | .int16 => 2
  | .int32 => 4

/-- The bits of one element. -/
abbrev ElemType.Val (t : ElemType) : Type := BitVec (8 * t.size)

/-- `Array<T>`: a pointer and an element count. A non-null pointer owns
exactly `size` elements. -/
structure CArray (t : ElemType) where
  data : Option (List t.Val)
  size : Nat
  owns : ∀ xs, data = some xs → xs.length = size
  deriving DecidableEq

/-- The static type of a parameter: a trivially copyable type of `size`
bytes, `std::string`, or `Array<T>`. -/
inductive ParamType where
  | fixed (size : Nat)
  | string
  | array (elem : ElemType)
  deriving DecidableEq, Repr

abbrev ParamType.Val : ParamType → Type
  | .fixed n => Vector UInt8 n
  | .string => List UInt8
  | .array t => CArray t

/-- A parameter with its static type. -/
abbrev Param : Type := Sigma ParamType.Val

/-- What a caller passes for a parameter it wants decoded: storage of the
type, with nothing in it. -/
def ParamType.fresh : (t : ParamType) → t.Val
  | .fixed n => Vector.replicate n 0
  | .string => []
  | .array _ => ⟨none, 0, by simp⟩

/-! ## `DataEncoder`

One buffer that grows as it is needed. The next size is computed in `size_t`,
where it wraps, and the allocation may be refused. -/

/-- `MemBlock`: the `blockSize` header and the bytes that really lie behind
it. -/
structure MemBlock where
  blockSize : Nat
  data : List UInt8

structure DataEncoder where
  buffer : Option MemBlock
  pos : Nat
  allocSuccess : Bool
  /-- Allocation requests made so far. -/
  allocs : Nat

/-- `INIT_BUFFER_SIZE`. -/
def initBufferSize : Nat := 256

/-- `CHUNK_SIZE`. -/
def chunkSize : Nat := 1024 * 15

/-- `BUFF_EXTENSION_FACTOR`. -/
def buffExtensionFactor : Nat := 2

section Encoder

variable (a : Abi) (heap : Nat → Bool)

/-- `AllocateMemBlock`, request number `n`. Storing `blockSize` into a block
too small for its own header is out of bounds. -/
def allocateMemBlock (n sz : Nat) : Outcome Int (Option MemBlock) :=
  let size := a.sizeT (sz + a.wordSize)
  if heap n then
    if size < a.wordSize then .fault
    else .ok (some ⟨sz, List.replicate (size - a.wordSize) 0⟩)
  else .ok none

/-- `DataEncoder::Init(INIT_BUFFER_SIZE)` on a new encoder. -/
def DataEncoder.init : Outcome Int DataEncoder := do
  match ← allocateMemBlock a heap 0 initBufferSize with
  | none => .fail Retcode.outOfMemory
  | some b => .ok ⟨some b, 0, true, 1⟩

/-- The copy of `ReallocBuffer`: whole chunks while at least one is left,
then the remainder. `off` is how far both pointers have moved. -/
def copyChunks (src dest : List UInt8) (off leftSize : Nat) :
    Outcome Int (List UInt8) :=
  if chunkSize ≤ leftSize then do
    let dest ← memcpyS dest off chunkSize src off chunkSize
    copyChunks src dest (off + chunkSize) (leftSize - chunkSize)
  else if 0 < leftSize then
    memcpyS dest off leftSize src off leftSize
  else .ok dest
termination_by leftSize
decreasing_by simp only [chunkSize] at *; omega

/-- `DataEncoder::ReallocBuffer` of the block `b` the encoder holds. -/
def DataEncoder.reallocBuffer (e : DataEncoder) (b : MemBlock)
    (newSize : Nat) : Outcome Int DataEncoder :=
  if !e.allocSuccess then .fail Retcode.failure
  else do
    match ← allocateMemBlock a heap e.allocs newSize with
    | none => .fail Retcode.failure
    | some p =>
        let data ← copyChunks b.data p.data 0 e.pos
        .ok { e with buffer := some { p with data }, allocs := e.allocs + 1 }

/-- `DataEncoder::Ensure`. Dereferencing a null `buffer_` is a fault. -/
def DataEncoder.ensure (e : DataEncoder) (incSize : Nat) :
    Outcome Int DataEncoder :=
  match e.buffer with
  | none => .fault
  | some b =>
      if a.sizeT (e.pos + incSize) ≤ b.blockSize then .ok e
      else e.reallocBuffer a heap b
        (a.sizeT (b.blockSize * buffExtensionFactor + incSize))

/-- The tail both `EncodeOneParameter` bodies share: make room for the bytes,
copy them to `buffer_->data + pos_`, advance. -/
def DataEncoder.append (e : DataEncoder) (bs : List UInt8) :
    Outcome Int DataEncoder := do
  let e ← (e.ensure a heap bs.length).mapFail fun _ => Retcode.failure
  match e.buffer with
  | none => .fault
  | some b =>
      let data ← (memcpyS b.data e.pos bs.length bs 0 bs.length).mapFail
        fun _ => Retcode.failure
      .ok { e with buffer := some { b with data }
                   pos := a.sizeT (e.pos + bs.length) }

/-- `EncodeOneParameter<T>`, on the bytes of the value. -/
def DataEncoder.encodeFixed (e : DataEncoder) (bs : List UInt8) :
    Outcome Int DataEncoder :=
  if !e.allocSuccess then .fail Retcode.failure
  else if bs.length = 0 then .fail Retcode.failure
  else e.append a heap bs

/-- `EncodeOneParameter` of a `size_t`. -/
def DataEncoder.encodeSize (e : DataEncoder) (n : Nat) :
    Outcome Int DataEncoder :=
  e.encodeFixed a heap (leBytes a.wordSize n)

/-- `EncodeOneParameter<std::string>`. -/
def DataEncoder.encodeString (e : DataEncoder) (val : List UInt8) :
    Outcome Int DataEncoder :=
  if !e.allocSuccess then .fail Retcode.failure
  else if val.length = 0 then e.encodeSize a heap val.length
  else do
    let e ← (e.encodeSize a heap val.length).mapFail fun _ => Retcode.failure
    e.append a heap val

/-- The element loop of `ARRAY_DATA_ENCODE_IMPL`. -/
def DataEncoder.encodeElems (t : ElemType) (e : DataEncoder) :
    List t.Val → Outcome Int DataEncoder
  | [] => .ok e
  | x :: xs => do
      let e ← e.encodeFixed a heap (leBytes t.size x.toNat)
      encodeElems t e xs

/-- `ARRAY_DATA_ENCODE_IMPL(T)`. -/
def DataEncoder.encodeArray {t : ElemType} (e : DataEncoder)
    (val : CArray t) : Outcome Int DataEncoder :=
  match val.data with
  | none => .fail Retcode.failure
  | some xs =>
      if val.size = 0 then .fail Retcode.failure
      else do
        let e ← e.encodeSize a heap val.size
        e.encodeElems a heap t xs

/-- `EncodeOneParameter`, by static type. -/
def DataEncoder.encodeOneParameter (e : DataEncoder) :
    Param → Outcome Int DataEncoder
  | ⟨.fixed _, v⟩ => e.encodeFixed a heap v.toList
  | ⟨.string, s⟩ => e.encodeString a heap s
  | ⟨.array _, val⟩ => e.encodeArray a heap val

/-- `RecursiveEncode`. -/
def DataEncoder.recursiveEncode (e : DataEncoder) :
    List Param → Outcome Int DataEncoder
  | [] => .ok e
  | p :: ps => do
      let e ← e.encodeOneParameter a heap p
      recursiveEncode e ps

/-- `GetSerializedData`. A failure comes with the caller's `dataInfo` as the
call leaves it. -/
def DataEncoder.getSerializedData (e : DataEncoder) (dataInfo : DataInfo) :
    Outcome (Int × DataInfo) DataInfo := do
  let e ← (e.encodeSize a heap e.pos).mapFail
    fun _ => (Retcode.failure, dataInfo)
  match e.buffer with
  | none => .fail (Retcode.failure, dataInfo)
  | some b =>
      if e.pos = 0 then .fail (Retcode.failure, dataInfo)
      else if intMax < e.pos then .fail (Retcode.failure, dataInfo)
      else if heap e.allocs then do
        let data ← (memcpyS (List.replicate e.pos 0) 0 e.pos b.data 0
          e.pos).mapFail fun _ => (Retcode.memoryCopyFailure, ⟨.null, 0⟩)
        .ok ⟨.block data, e.pos⟩
      else .fail (Retcode.outOfMemory, ⟨.null, e.pos⟩)

/-- `EncdecFacade::ProcessEncode`. -/
def processEncode (dataInfo : DataInfo) (args : List Param) :
    Outcome (Int × DataInfo) DataInfo := do
  let e ← (DataEncoder.init a heap).mapFail (·, dataInfo)
  let e ← (e.recursiveEncode a heap args).mapFail (·, dataInfo)
  let dataInfo ← e.getSerializedData a heap dataInfo
  if dataInfo.length ≤ 0 || dataInfo.data = .null then
    .fail (Retcode.failure, dataInfo)
  else .ok dataInfo

/-- `ProcessEncode` around any `RecursiveEncode`. -/
def processEncodeWith (dataInfo : DataInfo)
    (recursiveEncode : DataEncoder → Outcome Int DataEncoder) :
    Outcome (Int × DataInfo) DataInfo := do
  let e ← (DataEncoder.init a heap).mapFail (·, dataInfo)
  let e ← (recursiveEncode e).mapFail (·, dataInfo)
  let dataInfo ← e.getSerializedData a heap dataInfo
  if dataInfo.length ≤ 0 || dataInfo.data = .null then
    .fail (Retcode.failure, dataInfo)
  else .ok dataInfo

theorem processEncode_eq (dataInfo : DataInfo) (args : List Param) :
    processEncode a heap dataInfo args =
      processEncodeWith a heap dataInfo (·.recursiveEncode a heap args) := rfl

end Encoder

/-! ## `DataDecoder`

The decoder keeps a position in the buffer that it was given and advances it
past each parameter. It throws where a length does not fit into what is left.
-/

structure DataDecoder where
  buffer : List UInt8
  size : Nat
  pos : Nat
  /-- Allocation requests made so far. -/
  allocs : Nat

section Decoder

variable (a : Abi) (heap : Nat → Bool)

/-- `DataDecoder::Ensure`. -/
def DataDecoder.ensure (d : DataDecoder) (size : Nat) : Bool :=
  size ≤ d.size && a.sizeT (d.pos + size) ≤ d.size

/-- `DecodeOneParameter<T>` for a `T` of `n` bytes. -/
def DataDecoder.decodeFixed (d : DataDecoder) (n : Nat) :
    Outcome Int (Vector UInt8 n × DataDecoder) :=
  if n = 0 then .fail Retcode.failure
  else if !d.ensure a n then .fail Retcode.failure
  else if !memcpyOk n n then .fail Retcode.failure
  else
    match load d.buffer d.pos n with
    | none => .fault
    | some v => .ok (v, { d with pos := a.sizeT (d.pos + n) })

/-- `DecodeOneParameter` of a `size_t`. -/
def DataDecoder.decodeSize (d : DataDecoder) :
    Outcome Int (Nat × DataDecoder) := do
  let (v, d) ← d.decodeFixed a a.wordSize
  .ok (leNat v.toList, d)

/-- `DecodeOneParameter<std::string>`. -/
def DataDecoder.decodeString (d : DataDecoder) :
    Outcome Int (List UInt8 × DataDecoder) := do
  let (len, d) ← (d.decodeSize a).mapFail fun _ => Retcode.failure
  if len = 0 then .ok ([], d)
  else if !d.ensure a len then .fail Retcode.failure
  else
    match load d.buffer d.pos len with
    | none => .fault
    | some v => .ok (v.toList, { d with pos := a.sizeT (d.pos + len) })

/-- The element loop of `ARRAY_DATA_DECODE_IMPL`, `n` elements from here. -/
def DataDecoder.decodeElems (t : ElemType) (d : DataDecoder) :
    (n : Nat) → Outcome Int ({ xs : List t.Val // xs.length = n } × DataDecoder)
  | 0 => .ok (⟨[], rfl⟩, d)
  | n + 1 => do
      let (v, d) ← (d.decodeFixed a t.size).mapFail fun _ => Retcode.failure
      let (xs, d) ← decodeElems t d n
      .ok (⟨BitVec.ofNat _ (leNat v.toList) :: xs.1, by simp [xs.2]⟩, d)

/-- `ARRAY_DATA_DECODE_IMPL(T)` into `val`. The array `new` answers null when
the allocation fails and when the byte size does not fit `size_t`. -/
def DataDecoder.decodeArray {t : ElemType} (d : DataDecoder)
    (val : CArray t) : Outcome Int (CArray t × DataDecoder) :=
  if val.size ≠ 0 || val.data.isSome then .fail Retcode.failure
  else do
    let (size, d) ← (d.decodeSize a).mapFail fun _ => Retcode.failure
    if heap d.allocs && size * t.size < a.sizeMod then do
      let d := { d with allocs := d.allocs + 1 }
      let (xs, d) ← d.decodeElems a t size
      .ok (⟨some xs.1, size, by rintro _ ⟨⟩; exact xs.2⟩, d)
    else .fail Retcode.failure

/-- `DecodeOneParameter`, by static type, into the storage passed. -/
def DataDecoder.decodeOneParameter (d : DataDecoder) :
    Param → Outcome Int (Param × DataDecoder)
  | ⟨.fixed n, _⟩ => do
      let (v, d) ← d.decodeFixed a n
      .ok (⟨.fixed n, v⟩, d)
  | ⟨.string, _⟩ => do
      let (s, d) ← d.decodeString a
      .ok (⟨.string, s⟩, d)
  | ⟨.array t, val⟩ => do
      let (v, d) ← d.decodeArray a heap val
      .ok (⟨.array t, v⟩, d)

/-- `RecursiveDecode`. -/
def DataDecoder.recursiveDecode (d : DataDecoder) :
    List Param → Outcome Int (List Param × DataDecoder)
  | [] => .ok ([], d)
  | p :: ps => do
      let (p, d) ← d.decodeOneParameter a heap p
      let (ps, d) ← recursiveDecode d ps
      .ok (p :: ps, d)

/-- `CheckDataEnd`. -/
def DataDecoder.checkDataEnd (d : DataDecoder) : Outcome Int Bool :=
  match d.decodeSize a with
  | .fail _ => .ok false
  | .fault => .fault
  | .ok (dataSize, d) =>
      .ok (d.pos = d.size && d.pos = a.sizeT (dataSize + a.wordSize))

/-- `EncdecFacade::ProcessDecode` into the parameters passed. -/
def processDecode (dataInfo : DataInfo) (args : List Param) :
    Outcome Int (List Param) :=
  match dataInfo.data with
  | .null => .fail Retcode.failure
  | .dangling =>
      if dataInfo.length ≤ 0 then .fail Retcode.failure else .fault
  | .block buffer =>
      if dataInfo.length ≤ 0 then .fail Retcode.failure
      else do
        let d : DataDecoder :=
          ⟨buffer, a.sizeT dataInfo.length.toNat, 0, 0⟩
        let (args, d) ← (d.recursiveDecode a heap args).mapFail
          fun _ => Retcode.failure
        if ← d.checkDataEnd a then .ok args
        else .fail Retcode.failure

end Decoder

end AiEngine.Ref
