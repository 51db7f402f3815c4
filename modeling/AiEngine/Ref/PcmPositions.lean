import AiEngine.Ref.PcmIterator

/-!
# Where the PCM iterator reads and writes

`pcm_iterator.cpp` again, with `Reset`, by the places of the samples. An array
is a part of a block of memory, or null. Every function is none where it would
leave a block, and where an unsigned difference would be below zero; the two
differences that the source takes for a signed one are not checked.
-/

namespace AiEngine.Ref

open AiEngine.Lib

/-- A difference of two `size_t`, if it is not below zero. -/
def sizeSub (m n : Nat) : Option Nat := if n ≤ m then some (m - n) else none

/-- A block of cells: the cache, or an array that a caller gave, which a number
tells from the others. -/
inductive PcmBlock where
  | cache (cells : Nat)
  | input (number cells : Nat)
  deriving DecidableEq, Repr

def PcmBlock.cells : PcmBlock → Nat
  | .cache cells => cells
  | .input _ cells => cells

/-- `Array<int16_t>`. A null pointer is in no block. -/
structure PcmArray where
  block : Option PcmBlock
  offset : Nat
  size : Nat
  deriving DecidableEq, Repr

def PcmArray.null : PcmArray := ⟨none, 0, 0⟩

/-- `PCMIterator`, without its samples. -/
structure PcmPositions where
  stepSize : Nat
  windowSize : Nat
  numCopy : Nat
  numRealCopy : Nat
  nextCachePos : Nat
  /-- `maxCacheSize_`, which `Init` does not leave below zero. -/
  maxCacheSize : Nat
  isInitialized : Bool
  hasNextFlag : Bool
  /-- `pcmCache_.data`. -/
  cache : Option PcmBlock
  /-- `pcmCache_.size`. -/
  cacheSize : Nat
  pcmData : PcmArray
  deriving DecidableEq, Repr

/-- The places of an iterator that has a cache and the given data. -/
def PCMIterator.positions (it : PCMIterator) (pcmData : PcmArray) :
    PcmPositions where
  stepSize := it.stepSize
  windowSize := it.windowSize
  numCopy := it.numCopy
  numRealCopy := it.numRealCopy
  nextCachePos := it.nextCachePos
  maxCacheSize := it.maxCacheSize.toNat
  isInitialized := it.isInitialized
  hasNextFlag := it.hasNextFlag
  cache := some (.cache it.cells.length)
  cacheSize := it.cacheSize
  pcmData := pcmData

namespace PcmPositions

variable (a : Abi)

/-- Whether `memcpy_s` finds that two ranges of the cache overlap. -/
def overlaps (dpos spos count : Nat) : Bool :=
  (dpos < spos && spos < dpos + count) || (spos < dpos && dpos < spos + count)

/-- `memcpy_s(pcmCache_.data + dpos, destMax, src.data, count)`, with sizes in
cells: whether it copies. Where it does not, it clears what it was told is the
destination. -/
def copyToCache (s : PcmPositions) (dpos destMax : Nat) (src : PcmArray)
    (count : Nat) : Option Bool :=
  match s.cache with
  | none => if dpos = 0 then some false else none
  | some cache =>
      if cache.cells < dpos + destMax then none
      else
        match src.block with
        | none => some false
        | some block =>
            if block.cells < src.offset + count then none
            else if block = cache ∧ overlaps dpos src.offset count then
              some false
            else some (memcpyOk (destMax * 2) (count * 2))

/-- `MoveDataToCache` from its copy on. -/
def endMove (s : PcmPositions) (size : Nat) : Option (Int × PcmPositions) :=
  match sizeSub size 1 with
  | none => none
  | some left =>
      let numSlide := left / s.stepSize
      match sizeSub (a.sizeT (numSlide * s.stepSize + s.windowSize)) size with
      | none => none
      | some numCopy =>
          some (Retcode.success,
            { s with cacheSize := size, nextCachePos := 0, numCopy })

/-- `MoveDataToCache`. -/
def moveDataToCache (s : PcmPositions) (input : PcmArray) :
    Option (Int × PcmPositions) :=
  match s.copyToCache 0 s.maxCacheSize input input.size with
  | none => none
  | some false => some (Retcode.memoryCopyFailure, s)
  | some true => s.endMove a input.size

/-- `Prepare` from the update of `hasNext_` on. -/
def endPrepare (s : PcmPositions) : Option (Int × PcmPositions) :=
  if s.windowSize ≤ s.cacheSize ∨ s.windowSize ≤ s.pcmData.size then
    some (Retcode.success, { s with hasNextFlag := true })
  else if s.cacheSize = 0 ∧ 0 < s.pcmData.size ∧
      s.pcmData.size < s.windowSize then
    s.moveDataToCache a s.pcmData
  else some (Retcode.success, s)

/-- What `Prepare` does with the data when the cache is filled up. -/
def endFill (s : PcmPositions) (input : PcmArray) :
    Option (Int × PcmPositions) :=
  let diff := toInt32 ((s.numRealCopy : Int) - s.windowSize + s.stepSize)
  if 0 < diff then
    match sizeSub input.size diff.toNat with
    | none => none
    | some size =>
        { s with
          pcmData := ⟨input.block, input.offset + diff.toNat, size⟩
        }.endPrepare a
  else { s with pcmData := input }.endPrepare a

/-- `Prepare`. -/
def prepare (s : PcmPositions) (input : PcmArray) :
    Option (Int × PcmPositions) :=
  if 0 < s.numCopy then
    let numRealCopy :=
      if input.size < s.numCopy then input.size else s.numCopy
    let s := { s with numRealCopy }
    let realCacheSize := a.sizeT (s.nextCachePos + s.cacheSize)
    match sizeSub s.maxCacheSize realCacheSize with
    | none => none
    | some destMax =>
        match s.copyToCache realCacheSize destMax input numRealCopy with
        | none => none
        | some false => some (Retcode.memoryCopyFailure, s)
        | some true =>
            match sizeSub s.numCopy numRealCopy with
            | none => none
            | some numCopy =>
                let cacheSize := a.sizeT (s.cacheSize + numRealCopy)
                let s := { s with cacheSize, numCopy }
                if numCopy = 0 then s.endFill a input
                else { s with pcmData := .null }.endPrepare a
  else { s with numRealCopy := 0, pcmData := input }.endPrepare a

/-- `Reset`. The cache is not deleted. -/
def reset (s : PcmPositions) : PcmPositions :=
  { s with
    numCopy := 0
    numRealCopy := 0
    nextCachePos := 0
    cache := none
    cacheSize := 0
    pcmData := .null
    hasNextFlag := false }

/-- `HasNext`. The codes of `MoveDataToCache` and `Prepare` are not looked
at. -/
def hasNext (s : PcmPositions) : Option (Bool × PcmPositions) :=
  if 0 < s.nextCachePos ∧ s.numCopy = 0 ∧ 0 < s.cacheSize ∧
      s.cacheSize < s.windowSize then
    match s.moveDataToCache a ⟨s.cache, s.nextCachePos, s.cacheSize⟩ with
    | none => none
    | some (_, s) =>
        (s.prepare a s.pcmData).map fun (_, s) => (s.hasNextFlag, s)
  else if s.cacheSize = 0 ∧ 0 < s.pcmData.size ∧
      s.pcmData.size < s.windowSize then
    match s.moveDataToCache a s.pcmData with
    | none => none
    | some (_, s) =>
        some (s.hasNextFlag, { s with
          pcmData := ⟨s.pcmData.block, s.pcmData.offset, 0⟩ })
  else some (s.hasNextFlag, s)

/-- `SetInput`. -/
def setInput (s : PcmPositions) (input : PcmArray) :
    Option (Int × PcmPositions) :=
  if ¬ s.isInitialized then some (Retcode.failure, s)
  else
    match s.hasNext a with
    | none => none
    | some (true, s) => some (Retcode.failure, s)
    | some (false, s) =>
        if input.block = none ∨ input.size = 0 then
          some (Retcode.nullParam, s)
        else s.prepare a input

/-- A window is taken out of the cache. -/
def takeCached (s : PcmPositions) : Option (PcmArray × PcmPositions) :=
  let output : PcmArray := ⟨s.cache, s.nextCachePos, s.windowSize⟩
  match sizeSub s.cacheSize s.stepSize with
  | none => none
  | some cacheSize =>
      let nextCachePos := a.sizeT (s.nextCachePos + s.stepSize)
      let s := { s with nextCachePos, cacheSize }
      if s.numCopy = 0 ∧ s.cacheSize < s.windowSize then
        let diff :=
          toInt32 ((s.windowSize : Int) - s.stepSize - s.numRealCopy)
        some (output,
          { s with cacheSize := if 0 < diff then diff.toNat else 0 })
      else some (output, s)

/-- A window is taken out of the input. -/
def takeGiven (s : PcmPositions) : Option (PcmArray × PcmPositions) :=
  let data := s.pcmData
  match sizeSub data.size s.stepSize with
  | none => none
  | some size =>
      some (⟨data.block, data.offset, s.windowSize⟩,
        { s with pcmData := ⟨data.block, data.offset + s.stepSize, size⟩ })

/-- `Next` from the end of its output on. -/
def endNext (s : PcmPositions) : PcmPositions :=
  if s.cacheSize < s.windowSize ∧ s.pcmData.size < s.windowSize then
    { s with hasNextFlag := false }
  else s

/-- `Next`. -/
def next (s : PcmPositions) : Option (PcmArray × PcmPositions) :=
  match s.hasNext a with
  | none => none
  | some (false, s) => some (.null, s)
  | some (true, s) =>
      if s.windowSize ≤ s.cacheSize then
        (s.takeCached a).map fun (output, s) => (output, s.endNext)
      else if s.windowSize ≤ s.pcmData.size then
        s.takeGiven.map fun (output, s) => (output, s.endNext)
      else some (.null, s.endNext)

end PcmPositions

inductive PcmCall where
  | setInput (number cells : Nat)
  | hasNext
  | next
  | reset
  deriving DecidableEq, Repr

/-- An iterator, the input it was given last, and what the last call, if it was
`Next`, has returned. -/
structure PcmCalls where
  iterator : PcmPositions
  current : Option PcmBlock
  output : PcmArray
  deriving DecidableEq, Repr

/-- A call. -/
def PcmCalls.call (a : Abi) (s : PcmCalls) : PcmCall → Option PcmCalls
  | .setInput number cells =>
      let block := some (.input number cells)
      match s.iterator.setInput a ⟨block, 0, cells⟩ with
      | none => none
      | some (retCode, iterator) =>
          some ⟨iterator, if retCode = Retcode.success then block
            else s.current, .null⟩
  | .hasNext =>
      (s.iterator.hasNext a).map fun (_, iterator) =>
        ⟨iterator, s.current, .null⟩
  | .next =>
      (s.iterator.next a).map fun (output, iterator) =>
        ⟨iterator, s.current, output⟩
  | .reset => some ⟨s.iterator.reset, none, .null⟩

/-- The calls that are made on an iterator that was initialised. -/
def pcmCallMachine (a : Abi) (stepSize windowSize : Nat) :
    Machine PcmCalls PcmCall where
  start s := ∃ newCells iterator,
    PCMIterator.new.init a stepSize windowSize (some newCells) =
      (Retcode.success, iterator) ∧ s = ⟨iterator.positions .null, none, .null⟩
  step s call := s.call a call

end AiEngine.Ref
