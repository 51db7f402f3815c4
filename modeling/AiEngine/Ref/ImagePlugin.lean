import AiEngine.Lib.Table
import AiEngine.Ref.Encdec

/-!
# The guards of the image classification plugin

`ICPlugin::SyncProcess` on a message as it arrives, which need not come from
the SDK. What is kept of the copy into the model input is where it goes: the
index of the first byte, as the sender chose it, and the number of bytes. The
inference is its return code.
-/

namespace AiEngine.Ref

open AiEngine.Lib

/-- A slice that was copied: the bytes written, from `slicedIndex` on, next to
the size of the model input, and what `SyncProcess` went on to do. -/
structure SliceWrite where
  slicedIndex : Nat
  size : Nat
  inputSize : Nat
  invoked : Bool
  retCode : Int
  deriving DecidableEq, Repr

/-- What `SyncProcess` reads of an `ICPlugin`: whether there is an `adapter_`,
and the `inputSize` of each of the `handles_`. -/
structure ICPluginSizes where
  adapter : Bool
  handles : Table Nat Nat

section SyncProcess

variable (a : Abi) (heap : Nat → Bool)

/-- What `SyncProcess` passes to `ProcessDecode`: `handle`, `slicedIndex` and
`slicedImage`. -/
def slicedStorage : List Param :=
  [⟨.fixed a.wordSize, ParamType.fresh _⟩, ⟨.fixed 4, ParamType.fresh _⟩,
    ⟨.array .uint8, ParamType.fresh _⟩]

namespace ICPluginSizes

/-- `SyncProcess` from the lookup of the handle on. -/
def copySlice (p : ICPluginSizes) (doProcess : Int)
    (handle slicedIndex size : Nat) : Outcome Int SliceWrite :=
  match p.handles.lookup handle with
  | none => .fail Retcode.failure
  | some inputSize =>
      if inputSize < a.sizeT (slicedIndex + size) then .fail Retcode.failure
      else if !memcpyOk (a.sub inputSize slicedIndex) size then
        .fail Retcode.failure
      else if a.sizeT (slicedIndex + size) = inputSize then
        .ok ⟨slicedIndex, size, inputSize, true, doProcess⟩
      else .ok ⟨slicedIndex, size, inputSize, false, Retcode.success⟩

/-- `SyncProcess`. A parameter that is decoded has the type of its storage, so
there is no other case. -/
def syncProcess (p : ICPluginSizes) (doProcess : Int)
    (request : Option DataInfo) : Outcome Int SliceWrite :=
  if !p.adapter then .fail Retcode.failure
  else
    match request with
    | none => .fail Retcode.nullParam
    | some inputInfo =>
        if inputInfo.data = .null || inputInfo.length ≤ 0 then
          .fail Retcode.nullParam
        else do
          match ← processDecode a heap inputInfo (slicedStorage a) with
          | [⟨.fixed _, handle⟩, ⟨.fixed _, slicedIndex⟩,
              ⟨.array .uint8, slicedImage⟩] =>
              p.copySlice a doProcess (leNat handle.toList)
                (leNat slicedIndex.toList) slicedImage.size
          | _ => .fault

end ICPluginSizes

end SyncProcess

end AiEngine.Ref
