import AiEngine.Proofs.EncdecRoundTrip
import AiEngine.Proofs.TopKSelection

/-!
# A list of items arrives as an array

The server encodes pairs of a label and a score, the client decodes an array
of twice as many elements. The two meet because the overload for `Items`
appends just what the one for that array would append. The array overload
itself refuses an empty array, the other one does not, and the decoder takes
an array of no elements.

Every append is a word or an element. Where both have four bytes, the block
is always four bytes short of 260 times a power of two, and the last one that
has to grow before `INT_MAX` still has a successor `size_t` can express.
-/

namespace AiEngine.Ref

open AiEngine.Lib

variable {a : Abi} {heap heap' : Nat → Bool}

def itemLabels (items : List IcItem) : List (ElemType.Val .int32) :=
  items.map (·.1.toBitVec)

def itemScores (items : List IcItem) : List (ElemType.Val .int32) :=
  items.map (·.2.toBitVec)

/-- The array the client decodes: the labels, then the scores. -/
def itemArray (items : List IcItem) : CArray .int32 :=
  CArray.ofList (itemLabels items ++ itemScores items)

theorem size_itemArray (items : List IcItem) :
    (itemArray items).size = 2 * items.length := by
  have hlabels : (itemLabels items).length = items.length :=
    List.length_map _
  have hscores : (itemScores items).length = items.length :=
    List.length_map _
  simp only [itemArray, CArray.ofList, List.length_append]
  omega

theorem encodeElems_append {t : ElemType} (xs ys : List t.Val)
    (e : DataEncoder) :
    e.encodeElems a heap t (xs ++ ys) =
      (e.encodeElems a heap t xs >>= (·.encodeElems a heap t ys)) := by
  induction xs generalizing e with
  | nil => rfl
  | cons x xs ih =>
      simp only [List.cons_append, DataEncoder.encodeElems]
      cases e.encodeFixed a heap (leBytes t.size x.toNat) with
      | ok e₁ => exact ih e₁
      | fail c => rfl
      | fault => rfl

/-- The overload for `Items` appends what the array appends. -/
theorem encodeItems_eq {e : DataEncoder} (hlive : e.allocSuccess = true)
    {items : List IcItem} (hcount : 2 * items.length < a.sizeMod) :
    e.encodeItems a heap items =
      e.appendAll a heap (paramWrites a ⟨.array .int32, itemArray items⟩) := by
  have hsize : a.sizeT (items.length * 2) = (itemArray items).size := by
    rw [size_itemArray, Abi.sizeT_of_lt (by omega), Nat.mul_comm]
  rw [DataEncoder.encodeItems, encodeSize_eq hlive, hsize]
  simp only [paramWrites, DataEncoder.appendAll]
  cases happ : e.append a heap (leBytes a.wordSize (itemArray items).size) with
  | fail c => rfl
  | fault => rfl
  | ok e₁ =>
      have hlive₁ := (append_live happ).trans hlive
      have helems : e₁.encodeElems a heap .int32
          (itemLabels items ++ itemScores items) = _ :=
        encodeElems_eq hlive₁ _
      rw [encodeElems_append] at helems
      exact helems

/-- What the client is to decode. -/
def itemParams (handle : Vector UInt8 a.wordSize) (items : List IcItem) :
    List Param :=
  [⟨.fixed a.wordSize, handle⟩, ⟨.array .int32, itemArray items⟩]

section Params

variable {handle : Vector UInt8 a.wordSize} {items : List IcItem}

theorem handle_encodable : encodable ⟨.fixed a.wordSize, handle⟩ :=
  a.wordSize_pos

theorem itemWrites_ne_nil :
    ∀ bs ∈ (itemParams handle items).flatMap (paramWrites a), bs ≠ [] := by
  intro bs hbs
  rw [itemParams, List.flatMap_cons, List.flatMap_cons, List.flatMap_nil,
    List.append_nil] at hbs
  rcases List.mem_append.mp hbs with hbs | hbs
  · exact paramWrites_ne_nil handle_encodable bs hbs
  · have hword := a.wordSize_pos
    apply List.ne_nil_of_length_pos
    rcases List.mem_cons.mp hbs with rfl | hbs
    · rwa [length_leBytes]
    · obtain ⟨x, -, rfl⟩ := List.mem_map.mp hbs
      rw [length_leBytes]
      decide

theorem itemWrites_flatten :
    ((itemParams handle items).flatMap (paramWrites a)).flatten =
      Format.encAll (paramFormat a) (itemParams handle items) := by
  simp only [itemParams, Format.encAll, List.flatMap_cons, List.flatMap_nil,
    List.append_nil, List.flatten_append]
  rw [paramWrites_flatten handle_encodable]
  exact congrArg _ (arrayWrites_flatten _)

theorem itemWrites_sizes :
    ((itemParams handle items).flatMap (paramWrites a)).map List.length =
      a.wordSize :: a.wordSize ::
        List.replicate (2 * items.length) 4 := by
  have helems {xs : List (ElemType.Val .int32)} :
      (xs.map fun x => leBytes 4 x.toNat).map List.length =
        List.replicate xs.length 4 := by
    rw [List.map_map, List.eq_replicate_iff]
    refine ⟨by rw [List.length_map], fun n hn => ?_⟩
    obtain ⟨x, -, rfl⟩ := List.mem_map.mp hn
    exact length_leBytes _ _
  have hlen : (itemLabels items ++ itemScores items).length =
      2 * items.length := size_itemArray items
  simp only [itemParams, List.flatMap_cons, List.flatMap_nil,
    List.append_nil, List.map_append, length_paramWrites handle_encodable]
  simp only [paramSizes, paramWrites, itemArray, CArray.ofList,
    List.map_cons, length_leBytes, List.singleton_append]
  exact congrArg (fun l => a.wordSize :: a.wordSize :: l)
    (helems.trans (congrArg (List.replicate · 4) hlen))

theorem length_itemWrites :
    ((itemParams handle items).flatMap (paramWrites a)).flatten.length =
      2 * a.wordSize + 8 * items.length := by
  rw [List.length_flatten, itemWrites_sizes]
  simp only [List.sum_cons, List.sum_replicate_nat]
  omega

theorem itemParams_valid (hcount : 2 * items.length < a.sizeMod) :
    ∀ p ∈ itemParams handle items, (paramFormat a p.1).valid p.2 := by
  intro p hp
  rcases List.mem_cons.mp hp with rfl | hp
  · trivial
  · rw [List.mem_singleton.mp hp]
    refine arrayFormat_valid ?_
    rw [← size_itemArray] at hcount
    exact hcount

end Params

/-- Appends of four bytes to a block four bytes short of a power of two, 65
times. -/
theorem growthFits_quads {cap pos m n : Nat} (hcap : cap + 4 = 65 * 2 ^ m)
    (hmax : pos + 4 * n ≤ intMax) :
    growthFits .ilp32 cap pos (List.replicate n 4) = true := by
  induction n generalizing cap pos m with
  | zero => rfl
  | succ n ih =>
      rw [List.replicate_succ, growthFits, Bool.and_eq_true]
      have hrest : pos + 4 + 4 * n ≤ intMax := by omega
      by_cases hroom : pos + 4 ≤ cap
      · rw [grownCap, if_pos hroom]
        exact ⟨by simp [hroom], ih hcap hrest⟩
      · -- A block that is full before `INT_MAX` doubled at most 22 times.
        have hm : m ≤ 24 := by
          by_contra hbig
          have hpow := Nat.pow_le_pow_right (n := 2) (by decide)
            (show 25 ≤ m by omega)
          simp only [intMax] at hmax
          omega
        have hpow := Nat.pow_le_pow_right (n := 2) (by decide) hm
        have hfit : blockFits .ilp32 cap 4 := by
          simp only [blockFits, Abi.sizeMod, Abi.wordSize]
          omega
        rw [grownCap, if_neg hroom]
        refine ⟨by simp [hfit], ih (m := m + 1) ?_ hrest⟩
        rw [Nat.pow_succ]
        omega

/-- No growth of an encoding of items exceeds the range. -/
theorem growthFits_items {n : Nat}
    (hmax : 3 * a.wordSize + 8 * n ≤ intMax) :
    growthFits a initBufferSize 0
      (a.wordSize :: a.wordSize :: List.replicate (2 * n) 4 ++
        [a.wordSize]) = true := by
  cases a with
  | lp64 =>
      apply growthFits_lp64 (by decide)
      simp only [List.sum_append, List.sum_cons, List.sum_replicate_nat,
        List.sum_nil]
      omega
  | ilp32 =>
      have hsizes : Abi.ilp32.wordSize :: Abi.ilp32.wordSize ::
          List.replicate (2 * n) 4 ++ [Abi.ilp32.wordSize] =
            List.replicate (2 * n + 3) 4 := by
        rw [show 2 * n + 3 = 2 * n + 1 + 1 + 1 from rfl,
          List.replicate_succ, List.replicate_succ, List.replicate_succ']
        rfl
      simp only [Abi.wordSize] at hmax
      rw [hsizes]
      exact growthFits_quads (m := 2) rfl (by omega)

/-- Whatever the handle and the items, the client decodes the handle, and the
labels followed by the scores. -/
theorem items_roundTrip (hheap : HeapServes heap) (hheap' : HeapServes heap')
    (dataInfo : DataInfo) (handle : Vector UInt8 a.wordSize)
    (items : List IcItem)
    (hmax : 3 * a.wordSize + 8 * items.length ≤ intMax) :
    ∃ outputInfo, processEncodeItems a heap dataInfo handle items =
        .ok outputInfo ∧
      processDecode a heap' outputInfo (icResultStorage a) =
        .ok [⟨.fixed a.wordSize, handle⟩,
          ⟨.array .int32, itemArray items⟩] ∧
      (itemArray items).size = 2 * items.length ∧
      (itemArray items).data = some
        (items.map (·.1.toBitVec) ++ items.map (·.2.toBitVec)) := by
  have hcount : 2 * items.length < a.sizeMod := by
    have := a.sizeMod_ge
    simp only [intMax] at hmax
    omega
  have hlen : ((itemParams handle items).flatMap
      (paramWrites a)).flatten.length = 2 * a.wordSize + 8 * items.length :=
    length_itemWrites
  have hrun (e : DataEncoder) (hlive : e.allocSuccess = true) :
      (e.encodeOneParameter a heap ⟨.fixed a.wordSize, handle⟩ >>=
        (·.encodeItems a heap items)) =
      e.appendAll a heap
        ((itemParams handle items).flatMap (paramWrites a)) := by
    rw [encodeOneParameter_eq hlive handle_encodable]
    simp only [itemParams, List.flatMap_cons, List.flatMap_nil,
      List.append_nil, appendAll_append]
    cases happ : e.appendAll a heap
        (paramWrites a ⟨.fixed a.wordSize, handle⟩) with
    | fail c => rfl
    | fault => rfl
    | ok e₁ => exact encodeItems_eq ((appendAll_live happ).trans hlive) hcount
  have henc := processEncodeWith_ok hheap dataInfo hrun itemWrites_ne_nil
    (by omega) (by rw [itemWrites_sizes]; exact growthFits_items hmax)
  rw [itemWrites_flatten] at henc hlen
  have htotal : (encoding a (itemParams handle items)).length ≤ intMax := by
    rw [length_encoding]
    omega
  refine ⟨_, henc, ?_, size_itemArray items, rfl⟩
  have hstorage : ∀ p ∈ icResultStorage a, storageOk p := by
    intro p hp
    rcases List.mem_cons.mp hp with rfl | hp
    · exact a.wordSize_pos
    · rw [List.mem_singleton.mp hp]
      exact ⟨rfl, rfl⟩
  have hdec : Format.decFramed a.wordSize (paramFormat a)
      ((icResultStorage a).map Sigma.fst)
      (encoding a (itemParams handle items)) =
        some (itemParams handle items) :=
    Format.decFramed_eq_some.mpr ⟨rfl, rfl, itemParams_valid hcount⟩
  have hout := processDecode_eq (a := a) (encoding_ne_nil _) htotal hstorage
    fun _ _ _ => hheap'
  rw [hdec] at hout
  exact hout

/-- No items at all, and two. -/
theorem items_roundTrip_none_two :
    (∃ outputInfo, processEncodeItems .ilp32 (fun _ => true) ⟨.null, 0⟩
        #v[1, 0, 0, 0] [] = .ok outputInfo ∧
      processDecode .ilp32 (fun _ => true) outputInfo
          (icResultStorage .ilp32) =
        .ok [⟨.fixed 4, #v[1, 0, 0, 0]⟩, ⟨.array .int32, itemArray []⟩] ∧
      (itemArray []).size = 2 * 0 ∧ (itemArray []).data = some []) ∧
    ∃ outputInfo, processEncodeItems .lp64 (fun _ => true) ⟨.null, 0⟩
        #v[1, 0, 0, 0, 0, 0, 0, 0] [(7, -1), (2, 5)] = .ok outputInfo ∧
      processDecode .lp64 (fun _ => true) outputInfo (icResultStorage .lp64) =
        .ok [⟨.fixed 8, #v[1, 0, 0, 0, 0, 0, 0, 0]⟩,
          ⟨.array .int32, itemArray [(7, -1), (2, 5)]⟩] ∧
      (itemArray [(7, -1), (2, 5)]).size = 2 * 2 ∧
      (itemArray [(7, -1), (2, 5)]).data = some [7, 2, -1, 5] :=
  ⟨items_roundTrip (fun _ => rfl) (fun _ => rfl) _ _ [] (by decide),
    items_roundTrip (fun _ => rfl) (fun _ => rfl) _ _ [(7, -1), (2, 5)]
      (by decide)⟩

/-- An inference that succeeds: the client decodes the labels and the scores
of the best, the best one first. -/
theorem makeInference_decoded (hheap : HeapServes heap)
    (hheap' : HeapServes heap') (H : HeapAlgorithms heapComparer)
    (handle : Vector UInt8 a.wordSize) {config : ICOutputConfig}
    {data : List Int32} (hdata : config.outputAddr = some data)
    (hsize : 1 ≤ data.length) (hsizeMax : data.length < 2 ^ 31)
    (hK : 1 ≤ config.outputSize) (hmax : 3 * a.wordSize +
      8 * min config.outputSize data.length ≤ intMax)
    (outputInfo : DataInfo) :
    ∃ items outputInfo', IsTopK data config.outputSize items ∧
      makeInference a heap H Retcode.success handle config outputInfo =
        some (Retcode.success, outputInfo') ∧
      processDecode a heap' outputInfo' (icResultStorage a) =
        .ok (itemParams handle items) := by
  obtain ⟨items, hrun, hbest⟩ := getTopK_isTopK H hsize hsizeMax hK
  obtain ⟨outputInfo', henc, hdec, -⟩ := items_roundTrip hheap hheap'
    outputInfo handle items (by rw [hbest.length]; exact hmax)
  refine ⟨items, outputInfo', hbest, ?_, hdec⟩
  simp only [makeInference, hdata, hrun, henc]
  rfl

end AiEngine.Ref
