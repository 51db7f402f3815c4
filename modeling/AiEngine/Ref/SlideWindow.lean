import AiEngine.Ref.Platform

/-!
# The slide window processor

`slide_window_processor.cpp`, on the bytes of its work buffer. A pointer into
that buffer is an offset. Memory that a caller hands in is given by its bytes,
and is not the work buffer.
-/

namespace AiEngine.Ref

open AiEngine.Lib

/-- `DataType`. -/
inductive DataType where
  | uint8
  | uint16
  | uint32
  | int8
  | int16
  | int32
  | float
  | unknown
  deriving DecidableEq, Repr

/-- The values of the enumeration. -/
def DataType.value : DataType → Nat
  | .uint8 => 1
  | .uint16 => 2
  | .uint32 => 4
  | .int8 => 1 ||| (1 <<< 3)
  | .int16 => 2 ||| (1 <<< 3)
  | .int32 => 4 ||| (1 <<< 3)
  | .float => 4 ||| (1 <<< 4)
  | .unknown => (4 ||| (1 <<< 4)) + 1

/-- `CONVERT_DATATYPE_TO_SIZE`. -/
def DataType.size (t : DataType) : Nat := t.value &&& 7

/-- `MAX_SAMPLE_SIZE`. -/
def maxSampleSize : Nat := 20000

/-- `FeatureData`, with what a pointer that is not null leads to. -/
structure FeatureData (δ : Type) where
  dataType : DataType
  data : Option δ
  size : Nat
  deriving DecidableEq, Repr

structure SlideWindowProcessorConfig where
  dataType : DataType
  bufferMultiplier : UInt8
  stepSize : Nat
  windowSize : Nat
  deriving DecidableEq, Repr

/-- `SlideWindowProcessor`. There are no bytes where there is no buffer. -/
structure SlideWindowProcessor where
  isInitialized : Bool
  workBuffer : List UInt8
  inputFeature : Nat
  inType : DataType
  typeSize : Nat
  startIndex : Nat
  initIndex : Nat
  bufferSize : Nat
  windowSize : Nat
  stepSize : Nat
  deriving DecidableEq, Repr

namespace SlideWindowProcessor

def new : SlideWindowProcessor where
  isInitialized := false
  workBuffer := []
  inputFeature := 0
  inType := .unknown
  typeSize := 0
  startIndex := 0
  initIndex := 0
  bufferSize := 0
  windowSize := 0
  stepSize := 0

variable (a : Abi)

/-- `Init`; `newBuffer` is whether there is memory for the work buffer. -/
def init (p : SlideWindowProcessor)
    (config : Option SlideWindowProcessorConfig) (newBuffer : Bool) :
    Int × SlideWindowProcessor :=
  if p.isInitialized then (Retcode.failure, p)
  else
    match config with
    | none => (Retcode.failure, p)
    | some localConfig =>
        if localConfig.dataType = .unknown then (Retcode.failure, p)
        else if localConfig.windowSize < localConfig.stepSize then
          (Retcode.failure, p)
        else if localConfig.bufferMultiplier = 0 then (Retcode.failure, p)
        else
          let typeSize := localConfig.dataType.size
          let windowSize := localConfig.windowSize
          let stepSize := a.sizeT (localConfig.stepSize * typeSize)
          let initIndex := a.sub (a.sizeT (windowSize * typeSize)) stepSize
          let bufferSize := a.sizeT (a.sizeT
            (windowSize * localConfig.bufferMultiplier.toNat) * typeSize)
          let p := { p with
            inType := localConfig.dataType
            typeSize, windowSize, stepSize, initIndex, bufferSize
            startIndex := initIndex }
          if maxSampleSize < windowSize then (Retcode.failure, p)
          else if ¬ newBuffer then
            (Retcode.failure, { p with workBuffer := [] })
          else
            (Retcode.success, { p with
              workBuffer := List.replicate bufferSize 0
              inputFeature := 0
              isInitialized := true })

def release (p : SlideWindowProcessor) : SlideWindowProcessor :=
  { p with workBuffer := [], inputFeature := 0, isInitialized := false }

/-- The end of `Process`: there is no room for the next input. -/
def compact (p : SlideWindowProcessor) :
    Outcome Int SlideWindowProcessor := do
  let workBuffer ←
    memmoveS p.workBuffer 0 p.bufferSize p.inputFeature p.initIndex
  pure { p with workBuffer, startIndex := p.initIndex, inputFeature := 0 }

/-- `Process`. It is none where an access leaves the work buffer. -/
def process (p : SlideWindowProcessor) (input : FeatureData (List UInt8))
    (output : FeatureData Nat) :
    Option (Int × FeatureData Nat × SlideWindowProcessor) :=
  if ¬ p.isInitialized then some (Retcode.failure, output, p)
  else if input.dataType ≠ p.inType then some (Retcode.failure, output, p)
  else
    match input.data with
    | none => some (Retcode.failure, output, p)
    | some data =>
        let inputBytes := a.sizeT (input.size * p.typeSize)
        if input.size = 0 then some (Retcode.failure, output, p)
        else if inputBytes ≠ p.stepSize then some (Retcode.failure, output, p)
        else if output.data ≠ none ∨ output.size ≠ 0 then
          some (Retcode.failure, output, p)
        else
          let output := { output with dataType := p.inType }
          match memcpyS p.workBuffer p.startIndex
              (a.sub p.bufferSize p.startIndex) data 0 inputBytes with
          | .fault => none
          | .fail _ => some (Retcode.failure, output, p)
          | .ok workBuffer =>
              let output := { output with
                data := some p.inputFeature, size := p.windowSize }
              let p := { p with
                workBuffer
                startIndex := a.sizeT (p.startIndex + p.stepSize)
                inputFeature := p.inputFeature + p.stepSize }
              if a.sub p.bufferSize p.startIndex < p.stepSize then
                match p.compact with
                | .fault => none
                | .fail _ => some (Retcode.failure, output, p)
                | .ok p => some (Retcode.success, output, p)
              else some (Retcode.success, output, p)

/-- The bytes an output points to. -/
def bytesOf (p : SlideWindowProcessor) (output : FeatureData Nat) :
    Option (List UInt8) :=
  match output.data with
  | none => none
  | some data =>
      (load p.workBuffer data (output.size * p.typeSize)).map Vector.toList

/-- `Process` with one input after the other, each with an empty output that
has some type. What each call answers, and the bytes its output points to when
it has returned. -/
def processAll (p : SlideWindowProcessor) (size : Nat) :
    List (DataType × List UInt8) → Option (List (Int × Option (List UInt8)))
  | [] => some []
  | (outType, data) :: inputs => do
      let (retCode, output, p') ←
        p.process a ⟨p.inType, some data, size⟩ ⟨outType, none, 0⟩
      let rest ← p'.processAll size inputs
      pure ((retCode, p'.bytesOf output) :: rest)

end SlideWindowProcessor

end AiEngine.Ref
