import AiEngine.Lib.Machine
import AiEngine.Ref.SlideWindow

/-!
# Feature processors and their calls

`type_converter.cpp`, `norm_processor.cpp`, and the interface of
`feature_processor.h` that both share with the slide window processor. A type
converter keeps the address of its work buffer after `Release`, so here a
pointer also tells whether the memory it leads to has been given back. What
`new` puts into fresh memory is never read before it is written, and is zero
in the model.

The conversions of the language between its number types, and `atof`, are
parameters.
-/

namespace AiEngine.Ref

open AiEngine.Lib

/-- What a pointer that is not null leads to. -/
inductive WorkBuffer where
  | live (bytes : List UInt8)
  | freed
  deriving DecidableEq, Repr

/-- The bytes that can be read through a pointer. -/
def WorkBuffer.bytes : Option WorkBuffer → Option (List UInt8)
  | some (.live bytes) => some bytes
  | _ => none

/-- What the standard library throws where there is no memory. -/
inductive Thrown where
  | badAlloc
  deriving DecidableEq, Repr

/-- `static_cast` of one element, bytes to bytes. -/
abbrev Cast :=
  (inType outType : DataType) → Vector UInt8 inType.size →
    Vector UInt8 outType.size

/-! ## `TypeConverter`

Every item is read as the input type, cast, and written as the output type.
The value of a cast is a parameter; where the bytes are read and written is
not. -/

structure TypeConverterConfig where
  dataType : DataType
  size : Nat
  deriving DecidableEq, Repr

structure TypeConverter where
  isInitialized : Bool
  workBuffer : FeatureData WorkBuffer
  deriving DecidableEq, Repr

namespace TypeConverter

def new : TypeConverter where
  isInitialized := false
  workBuffer := ⟨.unknown, none, 0⟩

variable (a : Abi) (cast : Cast)

/-- `Init`; `newBuffer` is whether there is memory for the work buffer. -/
def init (p : TypeConverter) (config : Option TypeConverterConfig)
    (newBuffer : Bool) : Int × TypeConverter :=
  if p.isInitialized then (Retcode.failure, p)
  else
    match config with
    | none => (Retcode.failure, p)
    | some localConfig =>
        if localConfig.dataType = .unknown then (Retcode.failure, p)
        else
          let workBuffer := { p.workBuffer with
            dataType := localConfig.dataType, size := localConfig.size }
          let bufferSize :=
            a.sizeT (workBuffer.size * workBuffer.dataType.size)
          if maxSampleSize < bufferSize then
            (Retcode.failure, { p with workBuffer })
          else if ¬ newBuffer then
            (Retcode.failure,
              { p with workBuffer := { workBuffer with data := none } })
          else
            (Retcode.success, {
              isInitialized := true
              workBuffer := { workBuffer with
                data := some (.live (List.replicate bufferSize 0)) } })

/-- `Release`. It is a copy of the address that `AIE_DELETE_ARRAY` sets to
null. -/
def release (p : TypeConverter) : TypeConverter :=
  if p.isInitialized then {
    isInitialized := false
    workBuffer := { p.workBuffer with
      data := p.workBuffer.data.map fun _ => .freed } }
  else p

/-- `output[i] = input[i]`. -/
def convertItem (inType : DataType) (inputAddr : List UInt8)
    (outType : DataType) (outputAddr : Option WorkBuffer) (i : Nat) :
    Option (Option WorkBuffer) := do
  let value ← load inputAddr (i * inType.size) inType.size
  let bytes ← WorkBuffer.bytes outputAddr
  let bytes ←
    store bytes (i * outType.size) (cast inType outType value).toList
  pure (some (.live bytes))

/-- Whether `std::vector<size_t>` can have the length: there must be memory,
and there never is for more bytes than `size_t` counts. -/
def indicesFit (inputSize : Nat) (memory : Bool) : Prop :=
  memory = true ∧ inputSize * a.wordSize < a.sizeMod

instance (inputSize : Nat) (memory : Bool) :
    Decidable (indicesFit a inputSize memory) :=
  inferInstanceAs (Decidable (_ ∧ _))

/-- `DoCast`. -/
def doCast (inType : DataType) (inputAddr : List UInt8) (inputSize : Nat)
    (buffer : FeatureData WorkBuffer) (memory : Bool) :
    Outcome Thrown (Int × FeatureData WorkBuffer) :=
  if ¬ indicesFit a inputSize memory then .fail .badAlloc
  else if buffer.dataType = .unknown then .ok (Retcode.failure, buffer)
  else
    match (List.range inputSize).foldlM
        (convertItem cast inType inputAddr buffer.dataType) buffer.data with
    | none => .fault
    | some data => .ok (Retcode.success, { buffer with data })

/-- `InnerProcess`. -/
def innerProcess (p : TypeConverter) (inType : DataType)
    (inputAddr : List UInt8) (inputSize : Nat) (memory : Bool) :
    Outcome Thrown (Int × TypeConverter) :=
  if inType = .unknown then .ok (Retcode.failure, p)
  else do
    let (retCode, workBuffer) ←
      doCast a cast inType inputAddr inputSize p.workBuffer memory
    pure (retCode, { p with workBuffer })

/-- `Process`. It faults where an access misses the work buffer. -/
def process (p : TypeConverter) (input : FeatureData (List UInt8))
    (output : FeatureData Nat) (memory : Bool) :
    Outcome Thrown (Int × FeatureData Nat × TypeConverter) :=
  if output.data ≠ none ∨ output.size ≠ 0 then
    .ok (Retcode.failure, output, p)
  else
    match input.data with
    | none => .ok (Retcode.failure, output, p)
    | some data =>
        if input.size = 0 then .ok (Retcode.failure, output, p)
        else if input.size ≠ p.workBuffer.size then
          .ok (Retcode.failure, output, p)
        else do
          let (retCode, p) ←
            p.innerProcess a cast input.dataType data input.size memory
          if retCode ≠ Retcode.success then
            pure (Retcode.failure, output, p)
          else
            pure (Retcode.success,
              ⟨p.workBuffer.dataType, p.workBuffer.data.map fun _ => 0,
                p.workBuffer.size⟩, p)

end TypeConverter

/-! ## `NormProcessor`

The means and the deviations come from two text files, read into tables of a
fixed length. `Process` then works on every item with the entries of its
channel. -/

structure NormProcessorConfig where
  meanFilePath : String
  stdFilePath : String
  numChannels : Nat
  inputSize : Nat
  scale : Float32

structure NormProcessor where
  isInitialized : Bool
  config : NormProcessorConfig
  workBuffer : Option (List Float32)
  mean : Option (List Float32)
  std : Option (List Float32)
  converter : Option TypeConverter

/-- What a call of `NormProcessor::Init` meets: which allocations there is
memory for, and what the files that can be opened hold. -/
structure NormMemory where
  converter : Bool
  converterBuffer : Bool
  mean : Bool
  std : Bool
  workBuffer : Bool
  files : String → Option (List UInt8)

namespace NormProcessor

/-- `NUMBER_DELIMITER`. -/
def numberDelimiter : UInt8 := 32

/-- `EPSILON`. -/
def epsilon : Float32 := 1e-6

def new : NormProcessor where
  isInitialized := false
  config := ⟨"", "", 0, 0, 1⟩
  workBuffer := none
  mean := none
  std := none
  converter := none

variable (a : Abi) (cast : Cast) (atof : List UInt8 → Float32)

/-- The end of `LoadInfoFromFile`: there is nothing left to read, or the
array is full. -/
def loadRest (length : Nat) (data : List Float32) (count : Nat)
    (token : List UInt8) : Option (Nat × List Float32) :=
  if token = [] then some (count, data)
  else if length ≤ count then some (length, data)
  else do
    let data ← store data count [atof token]
    pure (count + 1, data)

/-- `LoadInfoFromFile`, from the characters of the file on that are left. -/
def loadInfoFromFile (length : Nat) :
    List UInt8 → List Float32 → Nat → List UInt8 →
      Option (Nat × List Float32)
  | [], data, count, token => loadRest atof length data count token
  | c :: fp, data, count, token =>
      if c = numberDelimiter then do
        let data ← store data count [atof token]
        if count + 1 < length then
          loadInfoFromFile length fp data (count + 1) []
        else loadRest atof length data (count + 1) []
      else if count < length then
        loadInfoFromFile length fp data count (token ++ [c])
      else loadRest atof length data count (token ++ [c])

/-- `ReadFixedLenFloatData`. -/
def readFixedLenFloatData (file : Option (List UInt8))
    (data : List Float32) (length : Nat) : Option (Int × List Float32) :=
  match file with
  | none => some (Retcode.failure, data)
  | some fp => do
      let (readLen, data) ← loadInfoFromFile atof length fp data 0 []
      pure (if readLen ≠ length then Retcode.failure else Retcode.success,
        data)

/-- `LoadMeanAndStd`. -/
def loadMeanAndStd (meanFile stdFile : Option (List UInt8))
    (mean std : List Float32) (length : Nat) :
    Option (Int × List Float32 × List Float32) := do
  let (retCode, mean) ← readFixedLenFloatData atof meanFile mean length
  if retCode ≠ Retcode.success then pure (Retcode.failure, mean, std)
  else
    let (retCode, std) ← readFixedLenFloatData atof stdFile std length
    if retCode ≠ Retcode.success then pure (Retcode.failure, mean, std)
    else pure (Retcode.success, mean, std)

/-- `AIE_NEW(array, float[length])`. -/
def newFloats (memory : Bool) (length : Nat) : Option (List Float32) :=
  if memory then some (List.replicate length 0) else none

def release (p : NormProcessor) : NormProcessor :=
  { p with
    workBuffer := none
    mean := none
    std := none
    converter := none
    isInitialized := false }

/-- `Init`. It is none where an access misses an array. -/
def init (p : NormProcessor) (config : Option NormProcessorConfig)
    (memory : NormMemory) : Option (Int × NormProcessor) :=
  if p.isInitialized then some (Retcode.failure, p)
  else
    match config with
    | none => some (Retcode.failure, p)
    | some config =>
        let p := { p with config }
        if config.inputSize = 0 ∨ config.numChannels = 0 then
          some (Retcode.failure, p)
        else if config.inputSize % config.numChannels ≠ 0 then
          some (Retcode.failure, p)
        else if ¬ memory.converter then
          some (Retcode.failure, { p with converter := none })
        else
          let (retCode, converter) := TypeConverter.new.init a
            (some ⟨.float, config.inputSize⟩) memory.converterBuffer
          let p := { p with converter := some converter }
          if retCode ≠ Retcode.success then some (Retcode.failure, p)
          else if maxSampleSize < config.numChannels ∨
              maxSampleSize < config.inputSize then
            some (Retcode.failure, p)
          else
            match newFloats memory.mean config.numChannels,
              newFloats memory.std config.numChannels,
              newFloats memory.workBuffer config.inputSize with
            | some mean, some std, some workBuffer => do
                let (retCode, mean, std) ← loadMeanAndStd atof
                  (memory.files config.meanFilePath)
                  (memory.files config.stdFilePath) mean std
                  config.numChannels
                let p := { p with
                  mean := some mean
                  std := some std
                  workBuffer := some workBuffer }
                if retCode ≠ Retcode.success then
                  pure (Retcode.failure, p.release)
                else pure (Retcode.success, { p with isInitialized := true })
            | _, _, _ => some (Retcode.failure, p.release)

/-- One round of the loop of `Process`. -/
def normItem (p : NormProcessor) (data : Option (List UInt8))
    (workBuffer : Option (List Float32)) (i : Nat) :
    Option (Option (List Float32)) := do
  let stdVal ← (← p.std)[i % p.config.numChannels]?
  let meanVal ← (← p.mean)[i % p.config.numChannels]?
  let bytes ← load (← data) (i * DataType.float.size) DataType.float.size
  let value := Float32.ofBits (UInt32.ofNat (leNat bytes.toList))
  let floats ← store (← workBuffer) i
    [if stdVal.abs < epsilon then 0
      else (value - meanVal) / stdVal * p.config.scale]
  pure (some floats)

/-- Where the loop of `Process` reads and how often: an input of floats is
read where it is, any other from the work buffer of the converter. What the
converter answers is not looked at. -/
def converted (p : NormProcessor) (input : FeatureData (List UInt8))
    (output : FeatureData Nat) (memory : Bool) :
    Outcome Thrown (Option (List UInt8) × Nat × NormProcessor) :=
  if input.dataType = .float then .ok (input.data, input.size, p)
  else
    match p.converter with
    | none => .fault
    | some converter => do
        let (_, output, converter) ←
          converter.process a cast input output memory
        pure (output.data.bind fun _ =>
            WorkBuffer.bytes converter.workBuffer.data,
          output.size, { p with converter := some converter })

/-- `Process`. It faults where an access misses a buffer. -/
def process (p : NormProcessor) (input : FeatureData (List UInt8))
    (output : FeatureData Nat) (memory : Bool) :
    Outcome Thrown (Int × FeatureData Nat × NormProcessor) :=
  if ¬ p.isInitialized then .ok (Retcode.failure, output, p)
  else if output.data ≠ none ∨ output.size ≠ 0 then
    .ok (Retcode.failure, output, p)
  else if input.data = none ∨ input.size = 0 then
    .ok (Retcode.failure, output, p)
  else if input.dataType = .unknown then .ok (Retcode.failure, output, p)
  else if input.size ≠ p.config.inputSize then
    .ok (Retcode.failure, output, p)
  else do
    let (data, size, p) ← p.converted a cast input output memory
    match (List.range size).foldlM (p.normItem data) p.workBuffer with
    | none => .fault
    | some workBuffer =>
        pure (Retcode.success,
          ⟨.float, workBuffer.map fun _ => 0, size⟩, { p with workBuffer })

end NormProcessor

/-! ## The calls of the interface

The three processors have one interface. `FeatureProcessor` is what a machine
over its calls needs of them, and each processor is an instance. -/

/-- An input of a caller: an address with the elements it is said to have. -/
structure FeatureInput extends FeatureData (List UInt8) where
  holds : dataType ≠ .unknown → ∀ bytes, data = some bytes →
    size * dataType.size ≤ bytes.length

/-- `FeatureProcessor`, a class derived from it: `κ` is a configuration with
what the call that is given it meets. -/
structure FeatureProcessor (σ κ : Type) where
  new : σ
  init : σ → κ → Option (Int × σ)
  process : σ → FeatureData (List UInt8) → FeatureData Nat → Bool →
    Outcome Thrown (Int × FeatureData Nat × σ)
  release : σ → σ

def SlideWindowProcessor.feature (a : Abi) :
    FeatureProcessor SlideWindowProcessor
      (Option SlideWindowProcessorConfig × Bool) where
  new := .new
  init p config := some (p.init a config.1 config.2)
  process p input output _ :=
    match p.process a input output with
    | none => .fault
    | some result => .ok result
  release := SlideWindowProcessor.release

def TypeConverter.feature (a : Abi) (cast : Cast) :
    FeatureProcessor TypeConverter (Option TypeConverterConfig × Bool) where
  new := .new
  init p config := some (p.init a config.1 config.2)
  process p := p.process a cast
  release := TypeConverter.release

def NormProcessor.feature (a : Abi) (cast : Cast)
    (atof : List UInt8 → Float32) :
    FeatureProcessor NormProcessor
      (Option NormProcessorConfig × NormMemory) where
  new := .new
  init p config := p.init a atof config.1 config.2
  process p := p.process a cast
  release := NormProcessor.release

inductive FeatureCall (κ : Type) where
  | init (config : κ)
  | process (input : FeatureInput) (output : FeatureData Nat) (memory : Bool)
  | release

/-- What has happened in a call. -/
inductive FeatureEvent where
  | initialized (retCode : Int)
  | processed (retCode : Int)
  | released
  | thrown
  | strayed
  deriving DecidableEq, Repr

/-- A processor, and what has happened, the last call first. -/
structure FeatureRun (σ : Type) where
  processor : σ
  log : List FeatureEvent

namespace FeatureProcessor

variable {σ κ : Type} (c : FeatureProcessor σ κ)

def call (s : FeatureRun σ) : FeatureCall κ → FeatureRun σ
  | .init config =>
      match c.init s.processor config with
      | none => ⟨s.processor, .strayed :: s.log⟩
      | some (retCode, p) => ⟨p, .initialized retCode :: s.log⟩
  | .process input output memory =>
      match c.process s.processor input.toFeatureData output memory with
      | .fault => ⟨s.processor, .strayed :: s.log⟩
      | .fail _ => ⟨s.processor, .thrown :: s.log⟩
      | .ok (retCode, _, p) => ⟨p, .processed retCode :: s.log⟩
  | .release => ⟨c.release s.processor, .released :: s.log⟩

def machine : Machine (FeatureRun σ) (FeatureCall κ) where
  start s := s = ⟨c.new, []⟩
  step s i := some (c.call s i)

end FeatureProcessor

/-- The latest of the calls of `Init` and `Release` was an `Init` that
succeeded. -/
def latestInit : List FeatureEvent → Bool
  | [] => false
  | .initialized retCode :: _ => retCode = Retcode.success
  | .released :: _ => false
  | _ :: log => latestInit log

/-- An `Init` succeeded, and there was no `Release` since. -/
def betweenCalls : List FeatureEvent → Bool
  | [] => false
  | .initialized retCode :: log =>
      retCode = Retcode.success || betweenCalls log
  | .released :: _ => false
  | _ :: log => betweenCalls log

/-- `Process` succeeded only where it may, and no access missed its buffer. -/
def WorksOnly (may : List FeatureEvent → Bool) : List FeatureEvent → Prop
  | [] => True
  | .processed retCode :: log =>
      (retCode = Retcode.success → may log = true) ∧ WorksOnly may log
  | .strayed :: _ => False
  | _ :: log => WorksOnly may log

end AiEngine.Ref
