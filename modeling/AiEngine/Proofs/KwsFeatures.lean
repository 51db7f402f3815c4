import AiEngine.Lib.Fill
import AiEngine.Proofs.ProcessorSafety
import AiEngine.Ref.KwsInference

/-!
# The features of a request

The norm processor and the type converters write into work buffers that they
keep from call to call. They overwrite them altogether each time, so what comes
out is a function of the request and of the mean and the deviation that were
loaded: nothing of an earlier request is left in it. Only the slide window
processor remembers, and what it remembers is the features it was given.
-/

namespace AiEngine.Ref

open AiEngine.Lib

/-- One converted element. -/
def castItem (cast : Cast) (inType outType : DataType) (data : List UInt8)
    (i : Nat) : List UInt8 :=
  match load data (i * inType.size) inType.size with
  | none => []
  | some value => (cast inType outType value).toList

/-- The first `n` elements, converted. -/
def castAll (cast : Cast) (inType outType : DataType) (data : List UInt8)
    (n : Nat) : List UInt8 :=
  (List.range n).flatMap (castItem cast inType outType data)

namespace TypeConverter

variable {a : Abi} (cast : Cast) {p : TypeConverter} {bytes : List UInt8}

theorem castItem_length {inType outType : DataType} {data : List UInt8}
    {n i : Nat} (hi : i < n) (hdata : n * inType.size ≤ data.length) :
    (castItem cast inType outType data i).length = outType.size := by
  obtain ⟨value, hload⟩ := load_isSome
    (Nat.le_trans (mul_add_le hi inType.size) hdata)
  simp [castItem, hload]

theorem castAll_length {inType outType : DataType} {data : List UInt8}
    {n : Nat} (hdata : n * inType.size ≤ data.length) :
    (castAll cast inType outType data n).length = n * outType.size :=
  length_flatMap_range fun _ hi => castItem_length cast hi hdata

/-- The loop of `DoCast` overwrites the buffer. -/
theorem convertItems_eq {inType outType : DataType} {data : List UInt8}
    {n : Nat} (hdata : n * inType.size ≤ data.length)
    (hbytes : bytes.length = n * outType.size) :
    (List.range n).foldlM (convertItem cast inType data outType)
        (some (.live bytes)) =
      some (some (.live (castAll cast inType outType data n))) := by
  refine foldlM_fill_all (e := fun mem => some (WorkBuffer.live mem))
    (fun i hi => castItem_length cast hi hdata) (fun i hi mem => ?_) hbytes
  obtain ⟨value, hload⟩ := load_isSome
    (Nat.le_trans (mul_add_le hi inType.size) hdata)
  simp only [convertItem, castItem, hload, WorkBuffer.bytes,
    Option.bind_eq_bind, Option.bind_some]
  cases store mem (i * outType.size) (cast inType outType value).toList <;> rfl

/-- A converter that has its buffer answers what passes the checks with the
converted input. -/
theorem Holds.process_eq (h : p.Holds a bytes) {input : FeatureInput}
    {output : FeatureData Nat} {memory : Bool}
    (hreach : p.Reaches a input output memory) {data : List UInt8}
    (hdata : input.data = some data) :
    p.process a cast input.toFeatureData output memory =
      .ok (Retcode.success,
        ⟨p.workBuffer.dataType, some 0, p.workBuffer.size⟩,
        { p with workBuffer := { p.workBuffer with
          data := some (.live (castAll cast input.dataType
            p.workBuffer.dataType data input.size)) } }) := by
  have hheld := input.holds hreach.inType data hdata
  have hlen := h.length_eq (hreach.sameSize ▸ hreach.indices)
  rw [← hreach.sameSize] at hlen
  rw [hreach.process_eq cast h.dataType hdata, h.data,
    convertItems_eq cast hheld hlen]
  rfl

end TypeConverter

/-- The float at an index. -/
def floatAt (data : List UInt8) (i : Nat) : Float32 :=
  match load data (i * DataType.float.size) DataType.float.size with
  | none => 0
  | some bytes => Float32.ofBits (UInt32.ofNat (leNat bytes.toList))

/-- One normalized element. -/
def normValue (config : NormProcessorConfig) (mean std : List Float32)
    (data : List UInt8) (i : Nat) : Float32 :=
  let stdVal := std.getD (i % config.numChannels) 0
  let meanVal := mean.getD (i % config.numChannels) 0
  if stdVal.abs < NormProcessor.epsilon then 0
  else (floatAt data i - meanVal) / stdVal * config.scale

/-- The input, normalized. -/
def normed (config : NormProcessorConfig) (mean std : List Float32)
    (data : List UInt8) : List Float32 :=
  (List.range config.inputSize).map (normValue config mean std data)

namespace NormProcessor

variable {a : Abi} (cast : Cast) {p : NormProcessor}

/-- A loaded processor, with the mean and the deviation it has. -/
structure LoadedWith (a : Abi) (p : NormProcessor)
    (means stds : List Float32) : Prop extends p.Loaded a where
  flag : p.isInitialized = true
  meanEq : p.mean = some means
  stdEq : p.std = some stds

/-- The loop of `Process` overwrites the work buffer. -/
theorem normItems_eq {means stds : List Float32}
    (h : p.LoadedWith a means stds)
    {data : List UInt8}
    (hdata : p.config.inputSize * DataType.float.size ≤ data.length) :
    (List.range p.config.inputSize).foldlM (p.normItem (some data))
        p.workBuffer =
      some (some (normed p.config means stds data)) := by
  obtain ⟨floats, hfloats, hlen⟩ := h.workBuffer
  obtain ⟨mean, hmean, hmeanLen⟩ := h.mean
  obtain ⟨std, hstd, hstdLen⟩ := h.std
  obtain rfl : mean = means := Option.some.inj (hmean.symm.trans h.meanEq)
  obtain rfl : std = stds := Option.some.inj (hstd.symm.trans h.stdEq)
  rw [hfloats, normed, List.map_eq_flatMap]
  refine foldlM_fill_all (k := 1) (e := some) (fun i hi => rfl)
    (fun i hi mem => ?_) (hlen.trans (Nat.mul_one _).symm)
  have hchannel := Nat.mod_lt i h.channels
  obtain ⟨bytes, hload⟩ := load_isSome
    (Nat.le_trans (TypeConverter.mul_add_le hi DataType.float.size) hdata)
  have hmeanVal : mean[i % p.config.numChannels]? =
      some (mean.getD (i % p.config.numChannels) 0) := by
    rw [List.getD_eq_getElem?_getD,
      List.getElem?_eq_getElem (show _ < mean.length by omega)]
    rfl
  have hstdVal : std[i % p.config.numChannels]? =
      some (std.getD (i % p.config.numChannels) 0) := by
    rw [List.getD_eq_getElem?_getD,
      List.getElem?_eq_getElem (show _ < std.length by omega)]
    rfl
  simp only [normItem, hmean, hstd, hmeanVal, hstdVal, hload, normValue,
    floatAt, Option.bind_eq_bind, Option.bind_some, Nat.mul_one]
  cases store mem i _ <;> rfl

/-- Elements that are not floats are converted, and then normalized. -/
theorem LoadedWith.process {means stds : List Float32}
    (h : p.LoadedWith a means stds) {input : FeatureInput}
    (hfloat : input.dataType ≠ .float) (hknown : input.dataType ≠ .unknown)
    (hpos : input.size ≠ 0) (hsame : input.size = p.config.inputSize)
    {data : List UInt8} (hdata : input.data = some data) (t : DataType)
    (memory : Bool) :
    (¬ TypeConverter.indicesFit a input.size memory ∧
        p.process a cast input.toFeatureData ⟨t, none, 0⟩ memory =
          .fail .badAlloc) ∨
      ∃ p', p.process a cast input.toFeatureData ⟨t, none, 0⟩ memory =
          .ok (Retcode.success, ⟨.float, some 0, p.config.inputSize⟩, p') ∧
        p'.LoadedWith a means stds ∧ p'.config = p.config ∧
        p'.workBuffer = some (normed p.config means stds
          (castAll cast input.dataType .float data p.config.inputSize)) := by
  obtain ⟨converter, bytes, hconverter, hholds, hctype, hcsize⟩ := h.converter
  have hpasses : converter.Passes input ⟨t, none, 0⟩ :=
    ⟨rfl, rfl, by rw [hdata]; exact nofun, hpos, hsame.trans hcsize.symm,
      hknown⟩
  have hne : p.config.inputSize ≠ 0 := hsame ▸ hpos
  have hopen : ¬ ((none : Option Nat) ≠ none ∨ 0 ≠ 0) := by simp
  have hfull : ¬ (input.data = none ∨ input.size = 0) := by
    simp [hdata, hpos]
  unfold NormProcessor.process
  rw [if_neg (not_not.mpr h.flag), if_neg hopen, if_neg hfull,
    if_neg hknown, if_neg (not_not.mpr hsame), converted, if_neg hfloat,
    hconverter]
  dsimp only
  by_cases hfit : TypeConverter.indicesFit a input.size memory
  swap
  · rw [hpasses.process_thrown cast hfit]
    exact .inl ⟨hfit, rfl⟩
  have hheld := input.holds hknown data hdata
  have hlen := hholds.length_eq (hpasses.sameSize ▸ hfit)
  rw [hholds.process_eq cast ⟨hpasses, hfit⟩ hdata, hctype, hcsize, hsame]
  rw [hsame] at hheld
  have hcast : (castAll cast input.dataType .float data
      p.config.inputSize).length = p.config.inputSize * DataType.float.size :=
    TypeConverter.castAll_length cast hheld
  have hloaded : LoadedWith a { p with
      converter := some { converter with workBuffer := {
        converter.workBuffer with
        data := some (.live (castAll cast input.dataType .float data
          p.config.inputSize)) } } } means stds :=
    { h with
      converter := ⟨_, _, rfl, ⟨rfl, hholds.dataType, by
        rw [hcast, ← hholds.length, hlen, hctype, hcsize]⟩, hctype, hcsize⟩ }
  have hloop := normItems_eq hloaded (Nat.le_of_eq hcast.symm)
  simp only [Outcome.ok_bind, Outcome.pure_eq, Option.bind_some,
    WorkBuffer.bytes]
  rw [hloop]
  refine .inr ⟨_, rfl, { hloaded with
    workBuffer := ⟨_, rfl, ?_⟩ }, rfl, rfl⟩
  simp [normed]

end NormProcessor

/-! ## The three processors of a workplace

The work buffers of the slide window, of the conversion and of the
normalization are the inputs of one another. Once the sizes fit, what comes
out is the last window of the features, cast and normed. -/

theorem elemBytes_length {t : ElemType} (xs : List t.Val) :
    (elemBytes xs).length = xs.length * t.size := by
  induction xs with
  | nil => simp [elemBytes]
  | cons x xs ih =>
      rw [elemBytes, List.flatMap_cons, List.length_append, length_leBytes]
      rw [elemBytes] at ih
      rw [ih, List.length_cons, Nat.succ_mul, Nat.add_comm]

theorem floatBytes_length (xs : List Float32) :
    (floatBytes xs).length = xs.length * DataType.float.size := by
  induction xs with
  | nil => simp [floatBytes]
  | cons x xs ih =>
      rw [floatBytes, List.flatMap_cons, List.length_append, length_leBytes]
      rw [floatBytes] at ih
      rw [ih, List.length_cons, Nat.succ_mul, Nat.add_comm]

/-- The features of the audio of a request. -/
def kwsFeatures (cast : Cast) (means stds : List Float32)
    (audio : List (ElemType.Val .uint16)) : List UInt8 :=
  castAll cast .float .int32
    (floatBytes (normed normConfig means stds
      (castAll cast .uint16 .float (elemBytes audio) defaultSlideStepSize)))
    defaultSlideStepSize

/-- A workplace as `Prepare` left it, but for the features it has been given
since. -/
structure KWSWorker.Hears (a : Abi) (w : KWSWorker)
    (means stds : List Float32) (heard : List UInt8) : Prop where
  norm : w.normProcessor.LoadedWith a means stds
  config : w.normProcessor.config = normConfig
  converter : ∃ bytes, w.typeConverter.Holds a bytes
  outType : w.typeConverter.workBuffer.dataType = .int32
  outSize : w.typeConverter.workBuffer.size = defaultSlideStepSize
  slide : w.slideProcessor.Seen slideWindowConfig heard

section

variable {a : Abi} (cast : Cast) {w : KWSWorker} {means stds : List Float32}
  {heard : List UInt8}

/-- What a processor of the plugin leaves of a window: where it lies in the
work buffer, and that it is the end of what was heard. -/
structure WindowOf (heard : List UInt8) (w : KWSWorker)
    (output : FeatureData Nat) : Prop where
  size : output.size = defaultSlideWindowSize
  bytes : w.slideProcessor.bytesOf output = some (heard.rtake
    (defaultSlideWindowSize * DataType.int32.size))

theorem getNormedFeatures_refused (h : w.Hears a means stds heard)
    {input : CArray .uint16}
    (hrefused : ∀ xs, input.data = some xs → xs.length ≠ defaultSlideStepSize)
    (env : KWSProcessEnv) :
    KWSInference.getNormedFeatures a cast w input env =
      .ok (Retcode.failure, ⟨.int32, none, 0⟩, w) := by
  have hconfig := h.config
  have hprocess : w.normProcessor.process a cast
      ⟨.uint16, input.data.map elemBytes, input.size⟩ ⟨.float, none, 0⟩
        env.normIndices =
      .ok (Retcode.failure, ⟨.float, none, 0⟩, w.normProcessor) := by
    cases hdata : input.data with
    | none => simp [NormProcessor.process, h.norm.flag]
    | some xs =>
        have hsize : ¬ input.size = defaultSlideStepSize := by
          rw [← input.owns xs hdata]
          exact hrefused xs hdata
        by_cases hzero : input.size = 0
        · simp [NormProcessor.process, h.norm.flag, hzero]
        · simp [NormProcessor.process, h.norm.flag, hzero, hconfig,
            normConfig, hsize]
  have hfailed : Retcode.failure ≠ Retcode.success := by decide
  simp only [KWSInference.getNormedFeatures, hprocess, Outcome.ok_bind,
    if_pos hfailed]

/-- The audio of a request. -/
def audioFeature (input : CArray .uint16) : FeatureInput where
  dataType := .uint16
  data := input.data.map elemBytes
  size := input.size
  holds := by
    intro _ bytes hbytes
    obtain ⟨xs, hxs, rfl⟩ := Option.map_eq_some_iff.mp hbytes
    rw [elemBytes_length, input.owns xs hxs]
    exact Nat.le_refl _

/-- An array of floats. -/
def floatFeature (floats : List Float32) : FeatureInput where
  dataType := .float
  data := some (floatBytes floats)
  size := floats.length
  holds := by
    rintro - bytes ⟨⟩
    exact Nat.le_of_eq (floatBytes_length floats).symm

theorem KWSWorker.Hears.convert (h : w.Hears a means stds heard)
    {floats : List Float32} (hlen : floats.length = defaultSlideStepSize)
    (memory : Bool) :
    (¬ TypeConverter.indicesFit a floats.length memory ∧
        w.typeConverter.process a cast (floatFeature floats).toFeatureData
          ⟨.int32, none, 0⟩ memory = .fail .badAlloc) ∨
      ∃ p', w.typeConverter.process a cast
          (floatFeature floats).toFeatureData ⟨.int32, none, 0⟩ memory =
          .ok (Retcode.success, ⟨.int32, some 0, defaultSlideStepSize⟩, p') ∧
        p'.Holds a (castAll cast .float .int32 (floatBytes floats)
          defaultSlideStepSize) ∧
        p'.workBuffer.dataType = .int32 ∧
        p'.workBuffer.size = defaultSlideStepSize := by
  obtain ⟨bytes, hholds⟩ := h.converter
  have hsize : (floatFeature floats).size = defaultSlideStepSize := hlen
  have hpasses : w.typeConverter.Passes (floatFeature floats)
      ⟨.int32, none, 0⟩ :=
    ⟨rfl, rfl, nofun, by rw [hsize]; decide, hsize.trans h.outSize.symm,
      nofun⟩
  by_cases hfit : TypeConverter.indicesFit a (floatFeature floats).size memory
  swap
  · exact .inl ⟨hfit, hpasses.process_thrown cast hfit⟩
  have hkept := hholds.length_eq (hpasses.sameSize ▸ hfit)
  rw [hholds.process_eq cast ⟨hpasses, hfit⟩ rfl, h.outType, h.outSize, hsize]
  refine .inr ⟨_, rfl, ⟨rfl, hholds.dataType, ?_⟩, h.outType, h.outSize⟩
  have hfloats : defaultSlideStepSize * DataType.float.size ≤
      (floatBytes floats).length := by
    rw [floatBytes_length, hlen]
  refine (TypeConverter.castAll_length cast hfloats).trans ?_
  rw [← hholds.length, hkept, h.outType, h.outSize]

theorem KWSWorker.Hears.slid (h : w.Hears a means stds heard)
    {features : List UInt8}
    (hlen : features.length = defaultSlideStepSize * DataType.int32.size) :
    ∃ output p', w.slideProcessor.process a
        ⟨.int32, some features, defaultSlideStepSize⟩ ⟨.int32, none, 0⟩ =
        some (Retcode.success, output, p') ∧
      p'.Seen slideWindowConfig (heard ++ features) ∧
      output.size = defaultSlideWindowSize ∧
      p'.bytesOf output = some ((heard ++ features).rtake
        (defaultSlideWindowSize * DataType.int32.size)) := by
  have hsized := h.slide.sized
  have htype : w.slideProcessor.inType = .int32 := hsized.inType
  have hstep : features.length = w.slideProcessor.stepSize :=
    hlen.trans hsized.stepSize.symm
  obtain ⟨output, p', hrun, hseen, hbytes⟩ :=
    h.slide.process (a := a)
      (show SlideWindowProcessor.KeepsWindow slideWindowConfig by decide)
      (by decide) hstep .int32
  have hstepBytes : a.sizeT (slideWindowConfig.stepSize *
      w.slideProcessor.typeSize) = w.slideProcessor.stepSize := by
    rw [hsized.typeSize, hsized.stepSize]
    exact Abi.sizeT_small (by decide)
  have heq := h.slide.process_eq (by decide) hstepBytes hstep .int32
  rw [hrun] at heq
  have hsize : output.size = w.slideProcessor.windowSize :=
    congrArg (fun r => r.2.1.size) (Option.some.inj heq)
  rw [htype] at hrun
  rw [hsized.windowSize, hsized.typeSize] at hbytes
  exact ⟨output, p', hrun, hseen, hsize.trans hsized.windowSize, hbytes⟩

/-- There are indices for an input wherever there is memory for them. -/
theorem indicesFit_step {n : Nat} (hn : n = defaultSlideStepSize)
    (memory : Bool) :
    TypeConverter.indicesFit a n memory ↔ memory = true := by
  refine and_iff_left ?_
  subst hn
  cases a <;> decide

theorem getNormedFeatures_ok (h : w.Hears a means stds heard)
    {input : CArray .uint16} {audio : List (ElemType.Val .uint16)}
    (hdata : input.data = some audio)
    (hlen : audio.length = defaultSlideStepSize) (env : KWSProcessEnv) :
    ((env.normIndices && env.convertIndices) = false ∧
        KWSInference.getNormedFeatures a cast w input env =
          .fail .badAlloc) ∨
      ∃ output w', KWSInference.getNormedFeatures a cast w input env =
          .ok (Retcode.success, output, w') ∧
        w'.toKWSWorkplace = w.toKWSWorkplace ∧
        w'.Hears a means stds (heard ++ kwsFeatures cast means stds audio) ∧
        WindowOf (heard ++ kwsFeatures cast means stds audio) w' output := by
  have hsize : (audioFeature input).size = defaultSlideStepSize :=
    (input.owns audio hdata).symm.trans hlen
  have hnormSize : w.normProcessor.config.inputSize =
      defaultSlideStepSize := by
    rw [h.config]
    rfl
  have hbytes : (audioFeature input).data = some (elemBytes audio) :=
    congrArg (Option.map elemBytes) hdata
  have hfloat : (audioFeature input).dataType ≠ .float := nofun
  have hknown : (audioFeature input).dataType ≠ .unknown := nofun
  have hpos : (audioFeature input).size ≠ 0 := by
    rw [hsize]
    decide
  rcases h.norm.process cast hfloat hknown hpos (hsize.trans hnormSize.symm)
      hbytes .float env.normIndices with
    ⟨hfit, hthrow⟩ | ⟨norm, hnorm, hloaded, hconfig, hfloats⟩
  · rw [indicesFit_step hsize, Bool.not_eq_true] at hfit
    refine .inl ⟨by rw [hfit, Bool.false_and], ?_⟩
    simp only [KWSInference.getNormedFeatures]
    exact (congrArg (· >>= _) hthrow).trans rfl
  rw [hnormSize] at hnorm hfloats
  rw [h.config] at hfloats hconfig
  obtain ⟨floats, hdef⟩ : ∃ floats, floats = normed normConfig means stds
      (castAll cast .uint16 .float (elemBytes audio) defaultSlideStepSize) :=
    ⟨_, rfl⟩
  have hfloatsLen : floats.length = defaultSlideStepSize := by
    rw [hdef]
    simp [normed, normConfig]
  rw [show (audioFeature input).dataType = .uint16 from rfl, ← hdef] at hfloats
  have hfeature : (floatFeature floats).toFeatureData =
      ⟨.float, some (floatBytes floats), defaultSlideStepSize⟩ :=
    congrArg (FeatureData.mk .float (some (floatBytes floats))) hfloatsLen
  have hnormed : w.normProcessor.process a cast
      ⟨.uint16, input.data.map elemBytes, input.size⟩ ⟨.float, none, 0⟩
        env.normIndices =
      .ok (Retcode.success, ⟨.float, some 0, defaultSlideStepSize⟩, norm) :=
    hnorm
  have hdone : ¬ Retcode.success ≠ Retcode.success := by decide
  simp only [KWSInference.getNormedFeatures, hnormed, Outcome.ok_bind, hfloats,
    Option.bind_some, Option.map_some, if_neg hdone]
  rw [← hfeature]
  rcases h.convert cast hfloatsLen env.convertIndices with
    ⟨hfit, hthrow⟩ | ⟨converter, hconvert, hholds, houtType, houtSize⟩
  · rw [indicesFit_step hfloatsLen, Bool.not_eq_true] at hfit
    refine .inl ⟨by rw [hfit, Bool.and_false], ?_⟩
    rw [hthrow]
    rfl
  right
  have hcastLen : (castAll cast .float .int32 (floatBytes floats)
      defaultSlideStepSize).length =
        defaultSlideStepSize * DataType.int32.size :=
    TypeConverter.castAll_length cast (by
      rw [floatBytes_length, hfloatsLen])
  obtain ⟨output, slide, hslide, hseen, houtput, hwindow⟩ := h.slid hcastLen
  have hfeatures : castAll cast .float .int32 (floatBytes floats)
      defaultSlideStepSize = kwsFeatures cast means stds audio := by
    rw [hdef]
    rfl
  rw [hfeatures] at hslide hseen hwindow hholds
  refine ⟨output, ⟨w.toKWSWorkplace, norm, converter, slide⟩, ?_, rfl,
    ⟨hloaded, hconfig, ⟨_, hholds⟩, houtType, houtSize, hseen⟩, houtput,
    hwindow⟩
  simp only [hconvert, Outcome.ok_bind, Option.bind_some, hholds.data,
    WorkBuffer.bytes, if_neg hdone, hslide]

end

end AiEngine.Ref
