import AiEngine.Proofs.ItemsOnWire
import AiEngine.Proofs.KwsStreams
import AiEngine.Ref.IcPipeline

/-!
# The messages of the image classification plugin

What the SDK encodes of a slice and the plugin of its items, whatever
allocations fail: where the one side ends well, the other one decodes it or
runs out of memory. The items are those that `GetTopK` picks, of no scores
none.
-/

namespace AiEngine.Ref

open AiEngine.Lib

theorem elemBytes_byteArray (bytes : List UInt8) :
    ((byteArray bytes).data.getD []) = bytes.map (·.toBitVec) ∧
      elemBytes ((byteArray bytes).data.getD []) = bytes := by
  refine ⟨rfl, ?_⟩
  induction bytes with
  | nil => rfl
  | cons x xs ih =>
      have hx : leBytes 1 x.toBitVec.toNat = [x] := by
        simp [leBytes]
      have hcons : elemBytes ((byteArray (x :: xs)).data.getD []) =
          leBytes 1 x.toBitVec.toNat ++
            elemBytes ((byteArray xs).data.getD []) := rfl
      rw [hcons, hx, ih, List.singleton_append]

/-- The parameters of a slice. -/
def sliceParams (icHandle : Int) (offset : Nat) (bytes : List UInt8) :
    List Param :=
  [⟨.fixed Abi.ilp32.wordSize, intptr .ilp32 icHandle⟩,
    ⟨.fixed 4, uint32 offset⟩, ⟨.array .uint8, byteArray bytes⟩]

section

variable {heap heap' : Nat → Bool} {dataInfo inputInfo : DataInfo}
variable {handle : Int} {offset : Nat} {bytes : List UInt8}

variable (handle offset) in
theorem sliceParams_encodable (hbytes : 0 < bytes.length) :
    ∀ p ∈ sliceParams handle offset bytes, encodable p := by
  intro p hp
  rcases List.mem_cons.mp hp with rfl | hp
  · exact Abi.ilp32.wordSize_pos
  rcases List.mem_pair.mp hp with rfl | rfl
  · exact (by decide : 0 < 4)
  · exact ⟨hbytes, rfl⟩

theorem leNat_uint32 (hoffset : offset < 4294967296) :
    leNat (uint32 offset).toList = offset := by
  have hbytes : (uint32 offset).toList = leBytes 4 offset := rfl
  rw [hbytes, leNat_leBytes]
  exact hoffset

/-- What the plugin makes of the message of a slice where there is memory. -/
theorem decodeSlice_served (hheap' : HeapServes heap')
    (hrange : IntptrRange .ilp32 handle) (hoffset : offset < 4294967296)
    (hbytes : 0 < bytes.length)
    (hok : encodeSlice heap dataInfo handle offset bytes = .ok inputInfo) :
    decodeSlice .ilp32 heap' inputInfo =
      .ok (handle, offset, byteArray bytes) := by
  have hargs := sliceParams_encodable handle offset hbytes
  obtain ⟨rfl, hmax⟩ := processEncode_written hargs hok
  have hdec : processDecode .ilp32 heap'
      ⟨.block (encoding .ilp32 (sliceParams handle offset bytes)),
        (encoding .ilp32 (sliceParams handle offset bytes)).length⟩
      (slicedStorage .ilp32) = .ok (sliceParams handle offset bytes) :=
    processDecode_encoding hheap' hargs hmax
  have hsame : decodeSlice .ilp32 heap'
      ⟨.block (encoding .ilp32 (sliceParams handle offset bytes)),
        (encoding .ilp32 (sliceParams handle offset bytes)).length⟩ =
      .ok (intptrValue .ilp32 (intptr .ilp32 handle).toList,
        leNat (uint32 offset).toList, byteArray bytes) := by
    rw [decodeSlice, hdec]
    rfl
  rwa [intptrValue_intptr hrange, leNat_uint32 hoffset] at hsame

theorem decodeSlice_carried (hrange : IntptrRange .ilp32 handle)
    (hoffset : offset < 4294967296) (hbytes : 0 < bytes.length)
    (hok : encodeSlice heap dataInfo handle offset bytes = .ok inputInfo)
    (heap' : Nat → Bool) :
    inputInfo.data ≠ .null ∧ ¬ inputInfo.length ≤ 0 ∧
      AsServed (decodeSlice .ilp32 heap' inputInfo)
        (.ok (handle, offset, byteArray bytes)) := by
  obtain ⟨hdata, hlen, -⟩ := processEncode_carries
    (sliceParams_encodable handle offset hbytes) hok
  have heither : AsServed (decodeSlice .ilp32 heap' inputInfo)
      (decodeSlice .ilp32 (fun _ => true) inputInfo) :=
    (processDecode_asServed heap' inputInfo _).bind fun _ => .inr rfl
  rw [decodeSlice_served (fun _ => rfl) hrange hoffset hbytes hok] at heither
  exact ⟨hdata, hlen, heither⟩

variable (handle offset) in
theorem length_sliceEncoding (hbytes : 0 < bytes.length) :
    (encoding .ilp32 (sliceParams handle offset bytes)).length =
      bytes.length + 16 := by
  have hargs := sliceParams_encodable handle offset hbytes
  rw [length_encoding, ← sum_sizes hargs]
  simp only [sliceParams, List.flatMap_cons, List.flatMap_nil, paramSizes,
    byteArray, Abi.wordSize, ElemType.size, List.append_nil,
    List.sum_append, List.sum_cons, List.sum_nil, List.sum_replicate_nat]
  omega

variable (dataInfo handle offset) in
theorem encodeSlice_served (hheap : HeapServes heap)
    (hbytes : 0 < bytes.length) (hmax : bytes.length ≤ maxIpcBufferSize) :
    ∃ inputInfo, encodeSlice heap dataInfo handle offset bytes =
      .ok inputInfo := by
  have hargs := sliceParams_encodable handle offset hbytes
  have hlen := length_sliceEncoding handle offset hbytes
  simp only [maxIpcBufferSize] at hmax
  have hint : (encoding .ilp32 (sliceParams handle offset bytes)).length ≤
      intMax := by
    simp only [intMax]
    omega
  have hsmall : 3 * (encoding .ilp32
      (sliceParams handle offset bytes)).length + 8 < 4294967296 := by
    omega
  exact ⟨_, processEncode_ok hheap dataInfo hargs hint
    (growthFits_of_small hargs hsmall)⟩

end

section

variable {a : Abi} {heap : Nat → Bool} {dataInfo outputInfo : DataInfo}
variable {handle : Vector UInt8 a.wordSize} {items : List IcItem}

theorem encodeItems_appends (hcount : 2 * items.length < a.sizeMod)
    {e : DataEncoder} (hlive : e.allocSuccess = true) :
    (e.encodeOneParameter a heap ⟨.fixed a.wordSize, handle⟩ >>=
      (·.encodeItems a heap items)) =
    e.appendAll a heap
      ((itemParams handle items).flatMap (paramWrites a)) := by
  rw [encodeOneParameter_eq hlive handle_encodable]
  simp only [itemParams, List.flatMap_cons, List.flatMap_nil,
    List.append_nil, appendAll_append]
  cases happ : e.appendAll a heap
      (paramWrites a ⟨.fixed a.wordSize, handle⟩) with
  | fail c => rfl
  | fault => rfl
  | ok e₁ => exact encodeItems_eq ((appendAll_live happ).trans hlive) hcount

theorem processEncodeItems_end (hcount : 2 * items.length < a.sizeMod) :
    processEncodeItems a heap dataInfo handle items =
      encodingEnd a heap dataInfo
        ((itemParams handle items).flatMap (paramWrites a)) :=
  processEncodeWith_eq dataInfo (fun _ => encodeItems_appends hcount)
    itemWrites_ne_nil

theorem processEncodeItems_code (hcount : 2 * items.length < a.sizeMod) :
    (processEncodeItems a heap dataInfo handle items).FailsIn
      UnsuccessfulEnd := by
  rw [processEncodeItems_end hcount]
  exact encodingEnd_code dataInfo _

theorem processEncodeItems_written (hcount : 2 * items.length < a.sizeMod)
    (hok : processEncodeItems a heap dataInfo handle items = .ok outputInfo) :
    outputInfo = ⟨.block (encoding a (itemParams handle items)),
        (encoding a (itemParams handle items)).length⟩ ∧
      (encoding a (itemParams handle items)).length ≤ intMax := by
  rw [processEncodeItems_end hcount] at hok
  have hwritten := encodingEnd_written hok
  rwa [itemWrites_flatten, ← encoding.eq_1] at hwritten

theorem processDecode_items {heap' : Nat → Bool} (hheap' : HeapServes heap')
    (hcount : 2 * items.length < a.sizeMod)
    (hmax : (encoding a (itemParams handle items)).length ≤ intMax) :
    processDecode a heap'
        ⟨.block (encoding a (itemParams handle items)),
          (encoding a (itemParams handle items)).length⟩ (icResultStorage a) =
      .ok (itemParams handle items) := by
  have hstorage : ∀ p ∈ icResultStorage a, storageOk p := by
    intro p hp
    rcases List.mem_pair.mp hp with rfl | rfl
    · exact a.wordSize_pos
    · exact ⟨rfl, rfl⟩
  have hdec : Format.decFramed a.wordSize (paramFormat a)
      ((icResultStorage a).map Sigma.fst)
      (encoding a (itemParams handle items)) =
        some (itemParams handle items) :=
    Format.decFramed_eq_some.mpr ⟨rfl, rfl, itemParams_valid hcount⟩
  rw [processDecode_eq (encoding_ne_nil _) hmax hstorage
    fun _ _ _ => hheap', hdec]

/-- What the client makes of the items of the plugin where there is memory. -/
theorem decodeItems_served {heap' : Nat → Bool} (hheap' : HeapServes heap')
    {handle : Int} (hrange : IntptrRange a handle)
    (hcount : 2 * items.length < a.sizeMod)
    (hok : processEncodeItems a heap dataInfo (intptr a handle) items =
      .ok outputInfo) :
    decodeResult a heap' outputInfo = .ok (handle, itemArray items) := by
  obtain ⟨rfl, hmax⟩ := processEncodeItems_written hcount hok
  have hdec : processDecode a heap'
      ⟨.block (encoding a (itemParams (intptr a handle) items)),
        (encoding a (itemParams (intptr a handle) items)).length⟩
      [⟨.fixed a.wordSize, ParamType.fresh _⟩,
        ⟨.array .int32, ParamType.fresh _⟩] =
      .ok (itemParams (intptr a handle) items) :=
    processDecode_items hheap' hcount hmax
  have hsame : decodeResult a heap'
      ⟨.block (encoding a (itemParams (intptr a handle) items)),
        (encoding a (itemParams (intptr a handle) items)).length⟩ =
      .ok (intptrValue a (intptr a handle).toList, itemArray items) := by
    rw [decodeResult, hdec]
    rfl
  rwa [intptrValue_intptr hrange] at hsame

theorem decodeItems_carried {handle : Int} (hrange : IntptrRange a handle)
    (hcount : 2 * items.length < a.sizeMod)
    (hok : processEncodeItems a heap dataInfo (intptr a handle) items =
      .ok outputInfo) (heap' : Nat → Bool) :
    outputInfo.data ≠ .null ∧ ¬ outputInfo.length ≤ 0 ∧
      AsServed (decodeResult a heap' outputInfo)
        (.ok (handle, itemArray items)) := by
  have heither : AsServed (decodeResult a heap' outputInfo)
      (decodeResult a (fun _ => true) outputInfo) :=
    (processDecode_asServed heap' outputInfo _).bind fun _ => .inr rfl
  rw [decodeItems_served (fun _ => rfl) hrange hcount hok] at heither
  obtain ⟨rfl, -⟩ := processEncodeItems_written hcount hok
  have hpos := List.length_pos_of_ne_nil
    (encoding_ne_nil (a := a) (itemParams (intptr a handle) items))
  refine ⟨nofun, ?_, heither⟩
  show ¬ ((encoding a _).length : Int) ≤ 0
  omega

/-- The labels and the scores as the callback gets them. -/
def itemValues (items : List IcItem) : List Int32 :=
  items.map (·.1) ++ items.map (·.2)

theorem int32s_itemArray (items : List IcItem) :
    int32s ((itemArray items).data.getD []) = itemValues items := by
  have hpart (f : IcItem → Int32) (items : List IcItem) :
      int32s (items.map fun item => (f item).toBitVec) = items.map f := by
    induction items with
    | nil => rfl
    | cons item items ih => exact congrArg (f item :: ·) ih
  have hboth : int32s ((itemArray items).data.getD []) =
      int32s (itemLabels items) ++ int32s (itemScores items) :=
    List.map_append
  rw [hboth, itemLabels, itemScores, hpart, hpart, itemValues]

theorem processEncodeItems_served (hheap : HeapServes heap)
    (hmax : 3 * a.wordSize + 8 * items.length ≤ intMax) :
    ∃ outputInfo, processEncodeItems a heap dataInfo handle items =
      .ok outputInfo := by
  have hcount : 2 * items.length < a.sizeMod := by
    have := a.sizeMod_ge
    simp only [intMax] at hmax
    omega
  have hlen : ((itemParams handle items).flatMap
      (paramWrites a)).flatten.length = 2 * a.wordSize + 8 * items.length :=
    length_itemWrites
  refine ⟨_, processEncodeWith_ok hheap dataInfo
    (fun _ => encodeItems_appends hcount) itemWrites_ne_nil ?_ ?_⟩
  · omega
  · rw [itemWrites_sizes]
    exact growthFits_items hmax

end

section

variable (H : HeapAlgorithms heapComparer)

theorem getTopK_picks {data : List Int32} {topK : Nat}
    (hmax : data.length < 2 ^ 31) (hK : 1 ≤ topK) :
    ∃ result, getTopK H (some data) topK [] =
        some (Retcode.success, result) ∧ IsTopK data topK result := by
  cases data with
  | cons score data => exact getTopK_isTopK H (by simp) hmax hK
  | nil =>
      have hmake : H.makeHeap ([] : List IcItem) = [] :=
        List.perm_nil.mp (H.makeHeap_perm [])
      have hheap : IsHeap heapComparer ([] : List IcItem) := by
        rw [← hmake]
        exact H.makeHeap_isHeap []
      have hsort : H.sortHeap ([] : List IcItem) = [] :=
        List.perm_nil.mp (H.sortHeap_perm [] hheap)
      refine ⟨[], ?_, ?_⟩
      · simp [getTopK, firstItems, selectRest, hmake, hsort]
      · exact {
          length := by simp
          labels := List.nodup_nil
          scores := fun _ hitem => absurd hitem List.not_mem_nil
          best := fun _ _ _ _ _ hitem => absurd hitem List.not_mem_nil
          ordered := List.Pairwise.nil }

variable {H} {a : Abi} {handle : Int} {config : ICWorker} {env : ICProcessEnv}

/-- A result is what was encoded of the best scores. -/
theorem doProcess_ok {retCode : Int} {result : Option DataInfo}
    (hscores : config.maxOutputSize < 2 ^ 31) (hK : 1 ≤ config.outputSize)
    (hrun : ICInference.doProcess a H handle config env =
      .ok (retCode, result)) :
    retCode ≠ Retcode.success ∧ result = none ∨
      retCode = Retcode.success ∧ ∃ items outputInfo,
        IsTopK (config.scores env) config.outputSize items ∧
        result = some outputInfo ∧
        processEncodeItems a env.encodeHeap ⟨.null, 0⟩ (intptr a handle)
          items = .ok outputInfo := by
  have hfailed : Retcode.failure ≠ Retcode.success := by decide
  rw [ICInference.doProcess] at hrun
  split at hrun
  · cases hrun
  split at hrun
  · cases hrun
  next code outputInfo hinfer =>
  split at hrun
  · next hcode =>
      cases hrun
      exact .inl ⟨hcode, rfl⟩
  next hcode =>
  split at hrun
  swap
  · cases hrun
  cases hrun
  obtain rfl := not_not.mp hcode
  refine .inr ⟨rfl, ?_⟩
  rw [makeInference] at hinfer
  split at hinfer
  · cases hinfer
  dsimp only at hinfer
  by_cases haddr : config.outputAddr = 0
  · rw [if_pos haddr] at hinfer
    cases hinfer
  · rw [if_neg haddr] at hinfer
    have hlen : (config.scores env).length < 2 ^ 31 := by
      rw [ICWorker.scores, List.length_map, List.length_range]
      exact hscores
    obtain ⟨items, hget, hbest⟩ := getTopK_picks H hlen hK
    have hcount : 2 * items.length < a.sizeMod := by
      have := a.sizeMod_ge
      rw [hbest.length]
      omega
    rw [hget] at hinfer
    dsimp only at hinfer
    rw [if_neg (not_not.mpr rfl)] at hinfer
    split at hinfer
    · cases hinfer
    · next c d hencode =>
        cases hinfer
        exact absurd rfl (processEncodeItems_code hcount _ hencode)
    · next out hencode =>
        cases hinfer
        exact ⟨items, _, hbest, rfl, hencode⟩

theorem doProcess_served (hinvoke : env.invoke = Retcode.success)
    (hitems : env.newItems = true) (hheap : HeapServes env.encodeHeap)
    (hresponse : env.newResponse = true) (haddr : config.outputAddr ≠ 0)
    (hscores : config.maxOutputSize < 2 ^ 31) (hK : 1 ≤ config.outputSize)
    (hmax : 3 * a.wordSize + 8 * config.maxOutputSize ≤ intMax) :
    ∃ outputInfo, ICInference.doProcess a H handle config env =
      .ok (Retcode.success, some outputInfo) := by
  have hlen : (config.scores env).length = config.maxOutputSize := by
    rw [ICWorker.scores, List.length_map, List.length_range]
  have hfew : (config.scores env).length < 2 ^ 31 := hlen.symm ▸ hscores
  obtain ⟨items, hget, hbest⟩ := getTopK_picks H hfew hK
  have hcount : items.length ≤ config.maxOutputSize := by
    rw [hbest.length, hlen]
    exact Nat.min_le_right _ _
  obtain ⟨outputInfo, hencode⟩ : ∃ outputInfo, processEncodeItems a
      env.encodeHeap ⟨.null, 0⟩ (intptr a handle) items = .ok outputInfo :=
    processEncodeItems_served hheap (by omega)
  have hinfer : makeInference a env.encodeHeap H env.invoke
      (intptr a handle) ⟨if config.outputAddr = 0 then none
        else some (config.scores env), config.outputSize⟩ ⟨.null, 0⟩ =
      some (Retcode.success, outputInfo) := by
    simp only [makeInference, hinvoke, if_neg haddr, hget, hencode, ne_eq,
      not_true_eq_false, if_false]
  refine ⟨outputInfo, ?_⟩
  rw [ICInference.doProcess, hinfer, hitems, hresponse]
  simp

end

end AiEngine.Ref
