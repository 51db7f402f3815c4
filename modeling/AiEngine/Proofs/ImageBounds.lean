import AiEngine.Proofs.ImageSlices
import AiEngine.Proofs.EncdecFormat
import AiEngine.Ref.ImagePlugin

/-!
# Where a slice is written

The check of the index adds, and the size that `memcpy_s` is told subtracts,
both in `size_t`. As long as the sum stays in the range, the two agree with
exact arithmetic and the second one is redundant. When it does not, they agree
with each other: the sum wraps below the size of the model input exactly when
the difference wraps to one that has room for the slice. The only thing left
that refuses such a message is the limit of `memcpy_s` on a destination, which
a small enough difference passes.

A message holds fewer than 2 ^ 31 bytes and an index of 32 bits, so this takes
a `size_t` of 32 bits.
-/

namespace AiEngine.Ref

open AiEngine.Lib

/-- A slice within the model input, and an inference only at its end. -/
def SliceWrite.Inside (w : SliceWrite) : Prop :=
  w.slicedIndex + w.size ≤ w.inputSize ∧
    (w.invoked = true → w.slicedIndex + w.size = w.inputSize)

/-- A slice whose end leaves the range of `size_t`, and comes back low enough
for both guards. -/
def SliceWraps (a : Abi) (slicedIndex size inputSize : Nat) : Prop :=
  a.sizeMod ≤ slicedIndex + size ∧
    slicedIndex + size - a.sizeMod ≤ inputSize ∧
    inputSize + a.sizeMod - slicedIndex ≤ memcpyMax

section Guards

variable {a : Abi} {heap : Nat → Bool} {slicedIndex size inputSize : Nat}

theorem memcpyOk_iff {destMax count : Nat} : memcpyOk destMax count = true ↔
    0 < destMax ∧ destMax ≤ memcpyMax ∧ count ≤ destMax := by
  simp only [memcpyOk, Bool.and_eq_true, decide_eq_true_eq, and_assoc]

/-- While the end of the slice is a `size_t`, the first guard is exact. -/
theorem guards_exact (hend : slicedIndex + size < a.sizeMod)
    (hcheck : ¬ inputSize < a.sizeT (slicedIndex + size)) :
    slicedIndex + size ≤ inputSize := by
  rw [Abi.sizeT_of_lt hend] at hcheck
  omega

/-- Once the end of the slice is no `size_t`, both guards pass the slice or
none does. -/
theorem guards_wrapped (hindex : slicedIndex < a.sizeMod)
    (hsize : size < a.sizeMod) (hinput : inputSize < a.sizeMod)
    (hend : a.sizeMod ≤ slicedIndex + size) :
    (¬ inputSize < a.sizeT (slicedIndex + size) ∧
      memcpyOk (a.sub inputSize slicedIndex) size = true) ↔
    SliceWraps a slicedIndex size inputSize := by
  have hsum : a.sizeT (slicedIndex + size) =
      slicedIndex + size - a.sizeMod := by
    rw [Abi.sizeT, Nat.mod_eq_sub_mod hend, Nat.mod_eq_of_lt (by omega)]
  rw [hsum, memcpyOk_iff, SliceWraps]
  rcases Nat.lt_or_ge inputSize slicedIndex with hlt | hge
  · have hdiff : a.sub inputSize slicedIndex =
        inputSize + a.sizeMod - slicedIndex := by
      rw [Abi.sub, Abi.sizeT, Nat.mod_eq_of_lt (by omega)]
      omega
    rw [hdiff]
    omega
  · rw [Abi.sub_of_le hge hinput]
    have hmod := a.sizeMod_ge
    simp only [memcpyMax]
    omega

/-- The slice of a registered handle is inside, unless it wraps. -/
theorem copySlice_inside_iff {p : ICPluginSizes} {doProcess : Int}
    {handle : Nat} (hindex : slicedIndex < a.sizeMod)
    (hsize : size < a.sizeMod)
    (hlookup : p.handles.lookup handle = some inputSize)
    (hinput : inputSize < a.sizeMod) :
    (∀ w, p.copySlice a doProcess handle slicedIndex size = .ok w →
        w.Inside) ↔
      ¬ SliceWraps a slicedIndex size inputSize := by
  rw [ICPluginSizes.copySlice, hlookup]
  dsimp only
  by_cases hcheck : inputSize < a.sizeT (slicedIndex + size)
  · rw [if_pos hcheck]
    refine ⟨fun _ hwraps => ?_, fun _ _ => nofun⟩
    exact ((guards_wrapped hindex hsize hinput hwraps.1).mpr hwraps).1 hcheck
  · rw [if_neg hcheck]
    by_cases hcopy : memcpyOk (a.sub inputSize slicedIndex) size = true
    · rw [hcopy]
      simp only [Bool.not_true, Bool.false_eq_true, if_false]
      constructor
      · intro h hwraps
        have hbad (w : SliceWrite) (hw : w.Inside)
            (hi : w.slicedIndex = slicedIndex) (hs : w.size = size)
            (hn : w.inputSize = inputSize) : False := by
          have hle := hw.1
          rw [hi, hs, hn] at hle
          have := hwraps.1
          omega
        split at h
        · exact hbad _ (h _ rfl) rfl rfl rfl
        · exact hbad _ (h _ rfl) rfl rfl rfl
      · intro hwraps w hw
        have hend : slicedIndex + size < a.sizeMod := by
          by_contra hend
          exact hwraps ((guards_wrapped hindex hsize hinput
            (Nat.le_of_not_lt hend)).mp ⟨hcheck, hcopy⟩)
        have hle := guards_exact hend hcheck
        rw [Abi.sizeT_of_lt hend] at hw
        split at hw
        · next heq =>
            cases hw
            exact ⟨hle, fun _ => heq⟩
        · cases hw
          exact ⟨hle, nofun⟩
    · rw [Bool.not_eq_true] at hcopy
      rw [hcopy]
      refine ⟨fun _ hwraps => ?_, fun _ _ => nofun⟩
      have hok := ((guards_wrapped hindex hsize hinput hwraps.1).mpr hwraps).2
      rw [hcopy] at hok
      cases hok

end Guards

section Decode

variable {a : Abi} {heap : Nat → Bool} {d d' : DataDecoder}

theorem recursiveDecode_cons_ok {p : Param} {ps v : List Param}
    (h : d.recursiveDecode a heap (p :: ps) = .ok (v, d')) :
    ∃ q d₁ qs, d.decodeOneParameter a heap p = .ok (q, d₁) ∧
      d₁.recursiveDecode a heap ps = .ok (qs, d') ∧ v = q :: qs := by
  rw [DataDecoder.recursiveDecode] at h
  obtain ⟨⟨q, d₁⟩, hone, h⟩ := Outcome.bind_eq_ok.mp h
  obtain ⟨⟨qs, d₂⟩, hrest, h⟩ := Outcome.bind_eq_ok.mp h
  cases h
  exact ⟨q, d₁, qs, hone, hrest, rfl⟩

theorem decodeOneParameter_fixed {n : Nat} {x : Vector UInt8 n} {q : Param}
    (h : d.decodeOneParameter a heap ⟨.fixed n, x⟩ = .ok (q, d')) :
    ∃ v : Vector UInt8 n, q = ⟨.fixed n, v⟩ := by
  rw [DataDecoder.decodeOneParameter] at h
  obtain ⟨⟨v, d₁⟩, -, h⟩ := Outcome.bind_eq_ok.mp h
  cases h
  exact ⟨v, rfl⟩

/-- An array that was decoded was allocated, so its size is a `size_t`. -/
theorem decodeOneParameter_array {t : ElemType} {x : CArray t} {q : Param}
    (h : d.decodeOneParameter a heap ⟨.array t, x⟩ = .ok (q, d')) :
    ∃ c : CArray t, q = ⟨.array t, c⟩ ∧ c.size < a.sizeMod := by
  rw [DataDecoder.decodeOneParameter] at h
  obtain ⟨⟨c, d₁⟩, harray, h⟩ := Outcome.bind_eq_ok.mp h
  cases h
  refine ⟨c, rfl, ?_⟩
  rw [DataDecoder.decodeArray] at harray
  split at harray
  · cases harray
  · obtain ⟨⟨size, d₂⟩, -, harray⟩ := Outcome.bind_eq_ok.mp harray
    dsimp only at harray
    split at harray
    · next hserved =>
        obtain ⟨⟨xs, d₃⟩, -, harray⟩ := Outcome.bind_eq_ok.mp harray
        cases harray
        have hpos : 0 < t.size := by cases t <;> decide
        have hfits : size * t.size < a.sizeMod := by
          simpa using (Bool.and_eq_true_iff.mp hserved).2
        exact Nat.lt_of_le_of_lt (Nat.le_mul_of_pos_right size hpos) hfits
    · cases harray

theorem processDecode_sliced {inputInfo : DataInfo} {v : List Param}
    (h : processDecode a heap inputInfo (slicedStorage a) = .ok v) :
    ∃ (handle : Vector UInt8 a.wordSize) (slicedIndex : Vector UInt8 4)
        (slicedImage : CArray .uint8),
      v = [⟨.fixed a.wordSize, handle⟩, ⟨.fixed 4, slicedIndex⟩,
        ⟨.array .uint8, slicedImage⟩] ∧
      slicedImage.size < a.sizeMod := by
  rw [processDecode] at h
  split at h
  · cases h
  · split at h <;> cases h
  · split at h
    · cases h
    · obtain ⟨⟨args, d₁⟩, hargs, h⟩ := Outcome.bind_eq_ok.mp h
      obtain ⟨ended, -, h⟩ := Outcome.bind_eq_ok.mp h
      split at h
      · cases h
        rw [Outcome.mapFail_eq_ok] at hargs
        obtain ⟨q₁, _, _, h₁, htail₁, rfl⟩ := recursiveDecode_cons_ok hargs
        obtain ⟨q₂, _, _, h₂, htail₂, rfl⟩ := recursiveDecode_cons_ok htail₁
        obtain ⟨q₃, _, _, h₃, htail₃, rfl⟩ := recursiveDecode_cons_ok htail₂
        cases htail₃
        obtain ⟨handle, rfl⟩ := decodeOneParameter_fixed h₁
        obtain ⟨slicedIndex, rfl⟩ := decodeOneParameter_fixed h₂
        obtain ⟨slicedImage, rfl, hsize⟩ := decodeOneParameter_array h₃
        exact ⟨handle, slicedIndex, slicedImage, rfl, hsize⟩
      · cases h

/-- Nothing decodes from a message that the plugin refuses. -/
theorem processDecode_nonempty {inputInfo : DataInfo} {args v : List Param}
    (h : processDecode a heap inputInfo args = .ok v) :
    inputInfo.data ≠ .null ∧ ¬ inputInfo.length ≤ 0 := by
  rw [processDecode] at h
  split at h
  · cases h
  · split at h <;> cases h
  · next hdata =>
      split at h
      · cases h
      · next hlen =>
          refine ⟨fun hnull => ?_, hlen⟩
          rw [hdata] at hnull
          cases hnull

end Decode

/-! ## Any message

The decoder bounds the slice by the message it is in, but not the index. What
can go wrong is the sum of the two, in `size_t`. -/

section Message

variable {a : Abi} {heap : Nat → Bool} {p : ICPluginSizes}
  {inputInfo : DataInfo}

theorem leNat_lt_sizeMod (v : Vector UInt8 4) :
    leNat v.toList < a.sizeMod := by
  have hlt := leNat_lt v.toList
  have hmod := a.sizeMod_ge
  rw [Vector.length_toList] at hlt
  omega

theorem syncProcess_decoded {doProcess : Int}
    {handle : Vector UInt8 a.wordSize} {slicedIndex : Vector UInt8 4}
    {slicedImage : CArray .uint8} (hadapter : p.adapter = true)
    (hdec : processDecode a heap inputInfo (slicedStorage a) =
      .ok [⟨.fixed a.wordSize, handle⟩, ⟨.fixed 4, slicedIndex⟩,
        ⟨.array .uint8, slicedImage⟩]) :
    p.syncProcess a heap doProcess (some inputInfo) =
      p.copySlice a doProcess (leNat handle.toList) (leNat slicedIndex.toList)
        slicedImage.size := by
  obtain ⟨hdata, hlen⟩ := processDecode_nonempty hdec
  have hguard : (decide (inputInfo.data = .null) ||
      decide (inputInfo.length ≤ 0)) = false := by simp [hdata, hlen]
  simp only [ICPluginSizes.syncProcess, hadapter, Bool.not_true,
    Bool.false_eq_true, if_false, hguard, hdec, Outcome.ok_bind]

theorem syncProcess_refused {doProcess : Int} {w : SliceWrite}
    (h : p.syncProcess a heap doProcess (some inputInfo) = .ok w) :
    p.adapter = true ∧
      ∃ v, processDecode a heap inputInfo (slicedStorage a) = .ok v := by
  rw [ICPluginSizes.syncProcess] at h
  split at h
  · cases h
  · next hadapter =>
      split at h
      · cases h
      · obtain ⟨v, hdec, -⟩ := Outcome.bind_eq_ok.mp h
        exact ⟨by simpa using hadapter, v, hdec⟩

/-- Whatever the message: what `SyncProcess` writes is inside, and it invokes
the inference at the end only, exactly when the slice in the message does not
wrap. -/
theorem syncProcess_inside_iff (doProcess : Int)
    (hinput : ∀ handle inputSize,
      p.handles.lookup handle = some inputSize → inputSize < a.sizeMod) :
    (∀ w, p.syncProcess a heap doProcess (some inputInfo) = .ok w →
        w.Inside) ↔
      (p.adapter = true →
        ∀ (handle : Vector UInt8 a.wordSize) (slicedIndex : Vector UInt8 4)
          (slicedImage : CArray .uint8) (inputSize : Nat),
        processDecode a heap inputInfo (slicedStorage a) =
          .ok [⟨.fixed a.wordSize, handle⟩, ⟨.fixed 4, slicedIndex⟩,
            ⟨.array .uint8, slicedImage⟩] →
        p.handles.lookup (leNat handle.toList) = some inputSize →
        ¬ SliceWraps a (leNat slicedIndex.toList) slicedImage.size
          inputSize) := by
  constructor
  · intro h hadapter handle slicedIndex slicedImage inputSize hdec hlookup
    obtain ⟨_, _, _, heq, hsize⟩ := processDecode_sliced hdec
    cases heq
    rw [syncProcess_decoded hadapter hdec] at h
    exact (copySlice_inside_iff (leNat_lt_sizeMod _) hsize hlookup
      (hinput _ _ hlookup)).mp h
  · intro h w hw
    obtain ⟨hadapter, v, hdec⟩ := syncProcess_refused hw
    obtain ⟨handle, slicedIndex, slicedImage, rfl, hsize⟩ :=
      processDecode_sliced hdec
    rw [syncProcess_decoded hadapter hdec] at hw
    cases hlookup : p.handles.lookup (leNat handle.toList) with
    | none =>
        rw [ICPluginSizes.copySlice, hlookup] at hw
        cases hw
    | some inputSize =>
        have hfits := h hadapter handle slicedIndex slicedImage inputSize hdec
          hlookup
        exact (copySlice_inside_iff (leNat_lt_sizeMod _) hsize hlookup
          (hinput _ _ hlookup)).mpr hfits w hw

/-- A message of handle 1 with two bytes for the index 2 ^ 32 - 1. -/
def lastIndexMessage : List UInt8 :=
  [1, 0, 0, 0, 255, 255, 255, 255, 2, 0, 0, 0, 7, 7, 14, 0, 0, 0]

theorem lastIndexMessage_decoded :
    processDecode .ilp32 (fun _ => true) ⟨.block lastIndexMessage, 18⟩
        (slicedStorage .ilp32) =
      .ok [⟨.fixed 4, #v[1, 0, 0, 0]⟩, ⟨.fixed 4, #v[255, 255, 255, 255]⟩,
        ⟨.array .uint8, CArray.ofList [7, 7]⟩] := by
  rfl

/-- With a model input of 100 bytes both guards pass it. -/
theorem lastIndexMessage_outside :
    ∃ w, (⟨true, Finmap.singleton 1 100⟩ : ICPluginSizes).syncProcess .ilp32
        (fun _ => true) Retcode.success
        (some ⟨.block lastIndexMessage, 18⟩) = .ok w ∧
      ¬ w.Inside := by
  refine ⟨⟨4294967295, 2, 100, false, Retcode.success⟩, ?_,
    fun h => absurd h.1 (by decide)⟩
  rw [syncProcess_decoded rfl lastIndexMessage_decoded]
  rfl

/-- A message of the same two bytes for the index 98. -/
def lastBytesMessage : List UInt8 :=
  [1, 0, 0, 0, 98, 0, 0, 0, 2, 0, 0, 0, 7, 7, 14, 0, 0, 0]

theorem lastBytesMessage_decoded :
    processDecode .ilp32 (fun _ => true) ⟨.block lastBytesMessage, 18⟩
        (slicedStorage .ilp32) =
      .ok [⟨.fixed 4, #v[1, 0, 0, 0]⟩, ⟨.fixed 4, #v[98, 0, 0, 0]⟩,
        ⟨.array .uint8, CArray.ofList [7, 7]⟩] := by
  rfl

theorem lastBytesMessage_inside :
    ∃ w, (⟨true, Finmap.singleton 1 100⟩ : ICPluginSizes).syncProcess .ilp32
        (fun _ => true) Retcode.success
        (some ⟨.block lastBytesMessage, 18⟩) = .ok w ∧
      w.Inside := by
  have hsizes (handle inputSize : Nat) (hlookup :
      (Finmap.singleton 1 100 : Table Nat Nat).lookup handle =
        some inputSize) : inputSize = 100 := by
    by_cases hkey : handle = 1
    · rw [hkey, Finmap.lookup_singleton_eq] at hlookup
      exact (Option.some.inj hlookup).symm
    · have hmem := Table.mem_of_lookup hlookup
      rw [Finmap.mem_singleton] at hmem
      exact absurd hmem hkey
  have hrun : (⟨true, Finmap.singleton 1 100⟩ : ICPluginSizes).syncProcess
      .ilp32 (fun _ => true) Retcode.success
      (some ⟨.block lastBytesMessage, 18⟩) =
        .ok ⟨98, 2, 100, true, Retcode.success⟩ := by
    rw [syncProcess_decoded rfl lastBytesMessage_decoded]
    rfl
  refine ⟨_, hrun, (syncProcess_inside_iff Retcode.success
    fun handle inputSize h => ?_).mpr
      (fun _ handle slicedIndex slicedImage inputSize hdec hlookup => ?_)
      _ hrun⟩
  · rw [hsizes handle inputSize h]
    decide
  · rw [lastBytesMessage_decoded] at hdec
    cases hdec
    rw [hsizes _ _ hlookup]
    exact fun h => absurd h.1 (by decide)

/-- On a 64-bit `size_t` an index of 32 bits wraps nothing that `memcpy_s`
takes. -/
theorem not_sliceWraps_lp64 {slicedIndex size inputSize : Nat}
    (hindex : slicedIndex < 2 ^ 32) :
    ¬ SliceWraps .lp64 slicedIndex size inputSize := by
  rintro ⟨-, -, hmax⟩
  simp only [Abi.sizeMod, Abi.wordSize, memcpyMax] at hmax
  omega

end Message

/-- With the model input in memory, a slice that wraps is one that leaves it. -/
theorem ICPlugin.syncProcess_leaves_iff {ω : Type} (infer : List UInt8 → ω)
    {p : ICPlugin} {request : SlicedImage} {config : ICPluginConfig}
    (hlookup : p.handles.lookup request.handle = some config)
    (hmem : config.input.length = config.inputSize)
    (hindex : request.slicedIndex < Abi.ilp32.sizeMod)
    (hsize : request.slicedImage.length < Abi.ilp32.sizeMod)
    (hinput : config.inputSize < Abi.ilp32.sizeMod) :
    p.syncProcess infer request = none ↔
      SliceWraps .ilp32 request.slicedIndex request.slicedImage.length
        config.inputSize := by
  have hwrapped := guards_wrapped hindex hsize hinput
  simp only [ICPlugin.syncProcess, hlookup]
  by_cases hcheck : config.inputSize <
      Abi.ilp32.sizeT (request.slicedIndex + request.slicedImage.length)
  · rw [if_pos hcheck]
    refine ⟨fun hnone => ?_, fun h => absurd hcheck ((hwrapped h.1).mpr h).1⟩
    cases hnone
  · rw [if_neg hcheck]
    cases hcopy : memcpyOk
        (Abi.ilp32.sub config.inputSize request.slicedIndex)
        request.slicedImage.length with
    | false =>
        simp only [memcpyS, hcopy, Bool.false_eq_true, if_false]
        refine ⟨fun hnone => ?_, fun h => ?_⟩
        · cases hnone
        · have hok := ((hwrapped h.1).mpr h).2
          rw [hcopy] at hok
          cases hok
    | true =>
        by_cases hend : request.slicedIndex + request.slicedImage.length <
            Abi.ilp32.sizeMod
        · have hle := guards_exact hend hcheck
          have hdest : request.slicedIndex + request.slicedImage.length ≤
              config.input.length := by omega
          obtain ⟨input, hrun, -, -⟩ := memcpyS_ok config.input
            request.slicedImage hcopy (show 0 + _ ≤ _ by omega) hdest
          rw [hrun]
          dsimp only
          refine ⟨fun h => ?_, fun h => absurd h.1 (by omega)⟩
          split at h <;> cases h
        · have hwraps := (hwrapped (by omega)).mp ⟨hcheck, hcopy⟩
          rw [memcpyS_fault hcopy (by omega) (by omega)]
          exact ⟨fun _ => hwraps, fun _ => rfl⟩

end AiEngine.Ref
