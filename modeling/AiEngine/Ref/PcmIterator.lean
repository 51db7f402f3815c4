import AiEngine.Lib.Machine
import AiEngine.Lib.Window
import AiEngine.Ref.Platform

/-!
# The PCM iterator

`pcm_iterator.cpp`, and the loop of `kws_sdk_impl.cpp` that takes its windows.
An array in the memory of a caller is the list of its elements. The cache is a
block of cells with a size of its own, which counts from the next position on.
-/

namespace AiEngine.Ref

open AiEngine.Lib

/-- `MAX_CACHE_SIZE`. -/
def pcmMaxCacheSize : Int := 16384

/-- `memcpy_s` of `int16_t` cells, with sizes in cells. -/
def memcpyCells (dest : List Int16) (dpos destMax : Nat) (src : List Int16)
    (spos count : Nat) : Outcome Int (List Int16) :=
  if memcpyOk (destMax * 2) (count * 2) then
    match load src spos count with
    | none => .fault
    | some cells =>
        match store dest dpos cells.toList with
        | none => .fault
        | some dest => .ok dest
  else .fail eRange

/-- A `size_t` that is assigned to an `int32_t`. -/
def toInt32 (n : Int) : Int := n.bmod (2 ^ 32)

/-- `PCMIterator`. The source keeps a pointer to the last input in `pcmData_`;
here are its samples, which is the same as long as the caller's array stays
valid and unchanged until the next `SetInput` has returned. -/
structure PCMIterator where
  stepSize : Nat
  windowSize : Nat
  numCopy : Nat
  numRealCopy : Nat
  nextCachePos : Nat
  maxCacheSize : Int
  isInitialized : Bool
  hasNextFlag : Bool
  /-- `pcmCache_.data`. -/
  cells : List Int16
  /-- `pcmCache_.size`. -/
  cacheSize : Nat
  pcmData : List Int16
  deriving DecidableEq, Repr

namespace PCMIterator

def new : PCMIterator where
  stepSize := 1
  windowSize := 1
  numCopy := 0
  numRealCopy := 0
  nextCachePos := 0
  maxCacheSize := 0
  isInitialized := false
  hasNextFlag := false
  cells := []
  cacheSize := 0
  pcmData := []

variable (a : Abi)

/-- `Init` from the comparison with the limit on. A new cache of a negative
number of cells is null. -/
def endInit (it : PCMIterator) (newCells : Option (Nat → Int16)) :
    Int × PCMIterator :=
  if pcmMaxCacheSize < it.maxCacheSize then (Retcode.failure, it)
  else if it.maxCacheSize < 0 then (Retcode.outOfMemory, it)
  else
    match newCells with
    | none => (Retcode.outOfMemory, it)
    | some newCells =>
        (Retcode.success, { it with
          cells := (List.range it.maxCacheSize.toNat).map newCells
          isInitialized := true })

/-- `Init`; `newCells` is what the cells of a new cache contain, if there is
memory for them. -/
def init (it : PCMIterator) (stepSize windowSize : Nat)
    (newCells : Option (Nat → Int16)) : Int × PCMIterator :=
  if it.isInitialized then (Retcode.failure, it)
  else if stepSize = 0 ∨ windowSize = 0 then (Retcode.failure, it)
  else if windowSize < stepSize then (Retcode.failure, it)
  else
    let maxNumRemain := a.sub windowSize 1
    let maxNumSlide := a.sub maxNumRemain 1 / stepSize
    let maxCacheSize :=
      toInt32 (a.sizeT (maxNumSlide * stepSize + windowSize))
    { it with stepSize, windowSize, maxCacheSize }.endInit newCells

/-- `MoveDataToCache` from its copy on. -/
def endMove (it : PCMIterator) (cells : List Int16) (size : Nat) :
    PCMIterator :=
  let numSlide := a.sub size 1 / it.stepSize
  { it with
    cells
    cacheSize := size
    nextCachePos := 0
    numCopy := a.sub (a.sizeT (numSlide * it.stepSize + it.windowSize)) size }

/-- `MoveDataToCache` of an array that is not in the cache. -/
def moveDataToCache (it : PCMIterator) (input : List Int16) :
    Outcome Int PCMIterator :=
  match memcpyCells it.cells 0 it.maxCacheSize.toNat input 0 input.length with
  | .fault => .fault
  | .fail _ => .fail Retcode.memoryCopyFailure
  | .ok cells => .ok (it.endMove a cells input.length)

/-- `MoveDataToCache` of the rest of the cache. `memcpy_s` does not copy it
where the ranges overlap. -/
def moveCacheToFront (it : PCMIterator) : Outcome Int PCMIterator :=
  if 0 < it.nextCachePos ∧ it.nextCachePos < it.cacheSize then
    .fail Retcode.memoryCopyFailure
  else
    match memcpyCells it.cells 0 it.maxCacheSize.toNat it.cells
        it.nextCachePos it.cacheSize with
    | .fault => .fault
    | .fail _ => .fail Retcode.memoryCopyFailure
    | .ok cells => .ok (it.endMove a cells it.cacheSize)

/-- `Prepare` from the update of `hasNext_` on. -/
def endPrepare (it : PCMIterator) : Option (Int × PCMIterator) :=
  if it.windowSize ≤ it.cacheSize ∨ it.windowSize ≤ it.pcmData.length then
    some (Retcode.success, { it with hasNextFlag := true })
  else if it.cacheSize = 0 ∧ 0 < it.pcmData.length ∧
      it.pcmData.length < it.windowSize then
    match it.moveDataToCache a it.pcmData with
    | .fault => none
    | .fail retCode => some (retCode, it)
    | .ok it => some (Retcode.success, it)
  else some (Retcode.success, it)

/-- `Prepare`. It is none where an access leaves an array. -/
def prepare (it : PCMIterator) (input : List Int16) :
    Option (Int × PCMIterator) :=
  if 0 < it.numCopy then
    let numRealCopy :=
      if input.length < it.numCopy then input.length else it.numCopy
    let it := { it with numRealCopy }
    let realCacheSize := a.sizeT (it.nextCachePos + it.cacheSize)
    match memcpyCells it.cells realCacheSize
        (a.sub it.maxCacheSize.toNat realCacheSize) input 0 numRealCopy with
    | .fault => none
    | .fail _ => some (Retcode.memoryCopyFailure, it)
    | .ok cells =>
        let it := { it with
          cells
          cacheSize := a.sizeT (it.cacheSize + numRealCopy)
          numCopy := it.numCopy - numRealCopy }
        if it.numCopy = 0 then
          let diff :=
            toInt32 ((numRealCopy : Int) - it.windowSize + it.stepSize)
          { it with
            pcmData := if 0 < diff then input.drop diff.toNat else input
          }.endPrepare a
        else { it with pcmData := [] }.endPrepare a
  else { it with numRealCopy := 0, pcmData := input }.endPrepare a

/-- `HasNext`. The codes of `MoveDataToCache` and `Prepare` are not looked
at. -/
def hasNext (it : PCMIterator) : Option (Bool × PCMIterator) :=
  if 0 < it.nextCachePos ∧ it.numCopy = 0 ∧ 0 < it.cacheSize ∧
      it.cacheSize < it.windowSize then
    match it.moveCacheToFront a with
    | .fault => none
    | .fail _ =>
        (it.prepare a it.pcmData).map fun (_, it) => (it.hasNextFlag, it)
    | .ok it =>
        (it.prepare a it.pcmData).map fun (_, it) => (it.hasNextFlag, it)
  else if it.cacheSize = 0 ∧ 0 < it.pcmData.length ∧
      it.pcmData.length < it.windowSize then
    match it.moveDataToCache a it.pcmData with
    | .fault => none
    | .fail _ => some (it.hasNextFlag, { it with pcmData := [] })
    | .ok it => some (it.hasNextFlag, { it with pcmData := [] })
  else some (it.hasNextFlag, it)

/-- `SetInput`. -/
def setInput (it : PCMIterator) (input : List Int16) :
    Option (Int × PCMIterator) :=
  if ¬ it.isInitialized then some (Retcode.failure, it)
  else
    match it.hasNext a with
    | none => none
    | some (true, it) => some (Retcode.failure, it)
    | some (false, it) =>
        if input.length = 0 then some (Retcode.nullParam, it)
        else it.prepare a input

/-- A window is taken out of the cache. -/
def takeCached (it : PCMIterator) : Option (List Int16 × PCMIterator) :=
  match load it.cells it.nextCachePos it.windowSize with
  | none => none
  | some output =>
      let it := { it with
        nextCachePos := a.sizeT (it.nextCachePos + it.stepSize)
        cacheSize := it.cacheSize - it.stepSize }
      if it.numCopy = 0 ∧ it.cacheSize < it.windowSize then
        let diff :=
          toInt32 ((it.windowSize : Int) - it.stepSize - it.numRealCopy)
        some (output.toList,
          { it with cacheSize := if 0 < diff then diff.toNat else 0 })
      else some (output.toList, it)

/-- `Next` from the end of its output on. -/
def endNext (it : PCMIterator) : PCMIterator :=
  if it.cacheSize < it.windowSize ∧ it.pcmData.length < it.windowSize then
    { it with hasNextFlag := false }
  else it

/-- `Next`, with what its output contains when it returns. -/
def next (it : PCMIterator) : Option (List Int16 × PCMIterator) :=
  match it.hasNext a with
  | none => none
  | some (false, it) => some ([], it)
  | some (true, it) =>
      if it.windowSize ≤ it.cacheSize then
        match it.takeCached a with
        | none => none
        | some (output, it) => some (output, it.endNext)
      else if it.windowSize ≤ it.pcmData.length then
        some (it.pcmData.take it.windowSize,
          { it with pcmData := it.pcmData.drop it.stepSize }.endNext)
      else some ([], it.endNext)

/-- `while (HasNext())` take `Next()`, for a number of rounds. It is none
where the loop has not ended by then. -/
def takeAll (it : PCMIterator) :
    Nat → Option (List (List Int16) × PCMIterator)
  | 0 => none
  | rounds + 1 =>
      match it.hasNext a with
      | none => none
      | some (false, it) => some ([], it)
      | some (true, it) =>
          match it.next a with
          | none => none
          | some (output, it) =>
              match it.takeAll rounds with
              | none => none
              | some (windows, it) => some (output :: windows, it)

end PCMIterator

/-- An iterator, the inputs it was given, the windows it gave, and whether a
`SetInput` failed or the loop after it did not end. -/
structure PcmRun where
  iterator : PCMIterator
  samples : List Int16
  windows : List (List Int16)
  failed : Bool

/-- `SetInput`, and the loop if it succeeds. A window ends at a sample of the
input, so that there are no more rounds than samples and one. -/
def PcmRun.give (a : Abi) (s : PcmRun) (input : List Int16) : PcmRun :=
  let samples := s.samples ++ input
  match s.iterator.setInput a input with
  | none => { s with samples, failed := true }
  | some (retCode, iterator) =>
      if retCode ≠ Retcode.success then
        { s with samples, iterator, failed := true }
      else
        match iterator.takeAll a (input.length + 1) with
        | none => { s with samples, iterator, failed := true }
        | some (windows, iterator) =>
            { s with samples, iterator, windows := s.windows ++ windows }

/-- An iterator that was initialised is given inputs that are not empty. -/
def pcmMachine (a : Abi) (stepSize windowSize : Nat) :
    Machine PcmRun (List Int16) where
  start s := ∃ newCells iterator,
    PCMIterator.new.init a stepSize windowSize (some newCells) =
      (Retcode.success, iterator) ∧ s = ⟨iterator, [], [], false⟩
  step s input := if input.length = 0 then none else some (s.give a input)

end AiEngine.Ref
