import AiEngine.Lib.Heap
import AiEngine.Ref.Encdec

/-!
# What the image classification plugin answers

`GetTopK` and `MakeInference` of `ic_plugin.cpp`, with the encoder of `Items`
in `plugin_helper.cpp`. The scores of the model are in memory that the
inference adapter owns, and `Invoke`, which writes them there, has returned.
An array in that memory is the list of its elements. The heap algorithms of
the standard library are a parameter.
-/

namespace AiEngine.Ref

open AiEngine.Lib

/-! ## `GetTopK`

A heap of the best items so far, over the algorithms of the standard library,
which are a parameter with their contract. -/

/-- `Item`: a label and its score. -/
abbrev IcItem : Type := Int32 × Int32

/-- `heapComparer`: the better score comes first. -/
def heapComparer (x y : IcItem) : Bool := y.2 < x.2

section TopK

variable (H : HeapAlgorithms heapComparer)

/-- The second loop of `GetTopK`, from an index on: `data` are the scores from
there to the end. It is none where `result` has no front. -/
def selectRest (result : List IcItem) (index : Nat) :
    List Int32 → Option (List IcItem)
  | [] => some result
  | score :: data =>
      match result[0]? with
      | none => none
      | some front =>
          if front.2 < score then
            let result := H.popHeap result
            let result := result.dropLast
            let result := result ++ [(Int32.ofNat index, score)]
            selectRest (H.pushHeap result) (index + 1) data
          else selectRest result (index + 1) data

/-- The first loop of `GetTopK`. -/
def firstItems (data : List Int32) : List IcItem :=
  data.mapIdx fun index score => (Int32.ofNat index, score)

/-- `GetTopK`, with the `size` elements at `data`. -/
def getTopK (data : Option (List Int32)) (topK : Nat) (result : List IcItem) :
    Option (Int × List IcItem) :=
  match data with
  | none => some (Retcode.failure, result)
  | some data =>
      let size := data.length
      let topK := if size < topK then size else topK
      let result := result ++ firstItems (data.take topK)
      match selectRest H (H.makeHeap result) topK (data.drop topK) with
      | none => none
      | some result => some (Retcode.success, H.sortHeap result)

end TopK

section Wire

variable (a : Abi) (heap : Nat → Bool)

/-- `EncodeOneParameter(Items)`: the number of labels and scores, the labels,
the scores. -/
def DataEncoder.encodeItems (e : DataEncoder) (outputData : List IcItem) :
    Outcome Int DataEncoder := do
  let e ← e.encodeSize a heap (a.sizeT (outputData.length * 2))
  let e ← e.encodeElems a heap .int32 (outputData.map (·.1.toBitVec))
  e.encodeElems a heap .int32 (outputData.map (·.2.toBitVec))

/-- `ProcessEncode(dataInfo, handle, items)`. -/
def processEncodeItems (dataInfo : DataInfo) (handle : Vector UInt8 a.wordSize)
    (items : List IcItem) : Outcome (Int × DataInfo) DataInfo :=
  processEncodeWith a heap dataInfo fun e => do
    let e ← e.encodeOneParameter a heap ⟨.fixed a.wordSize, handle⟩
    e.encodeItems a heap items

/-- What `IcSdkImpl::SyncExecute` passes to `ProcessDecode`. -/
def icResultStorage : List Param :=
  [⟨.fixed a.wordSize, ParamType.fresh _⟩, ⟨.array .int32, ParamType.fresh _⟩]

end Wire

/-- The outputs of a model: `outputAddr` with its `maxOutputSize` scores, and
`outputSize`. -/
structure ICOutputConfig where
  outputAddr : Option (List Int32)
  outputSize : Nat

/-- `MakeInference`, with the code that `Invoke` returned. It is none where
an access leaves an object. -/
def makeInference (a : Abi) (heap : Nat → Bool)
    (H : HeapAlgorithms heapComparer) (invoke : Int)
    (handle : Vector UInt8 a.wordSize) (config : ICOutputConfig)
    (outputInfo : DataInfo) : Option (Int × DataInfo) :=
  if invoke ≠ Retcode.success then some (Retcode.failure, outputInfo)
  else
    match getTopK H config.outputAddr config.outputSize [] with
    | none => none
    | some (retCode, result) =>
        if retCode ≠ Retcode.success then some (retCode, outputInfo)
        else
          match processEncodeItems a heap outputInfo handle result with
          | .fault => none
          | .fail (retCode, outputInfo) => some (retCode, outputInfo)
          | .ok outputInfo => some (Retcode.success, outputInfo)

end AiEngine.Ref
