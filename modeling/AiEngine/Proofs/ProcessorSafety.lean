import AiEngine.Proofs.SlidingWindow
import AiEngine.Ref.FeatureProcessors

/-!
# Feature processors between `Init` and `Release`

Each class says by a flag whether it is initialized, and what its sizes and
pointers are worth while it is. A refused `Init` may change the sizes, and
does so only where the flag is not set. The slide window processor and the
norm processor look at the flag first in `Process`. The type converter does
not: what it works on after `Release` is a freed buffer, so the runs in which
that call is not made are the ones that keep its promise.

A second `Init` without a `Release` is refused, and the processor works on.
-/

namespace AiEngine.Ref

open AiEngine.Lib

/-! ## What a class has to keep

A class keeps its objects closed as long as they are not ready, and its calls
inside their buffers once they are. Runs are dealt with once for all three
classes. -/

/-- The invariant of a class, and the flag that says whether `Process` may be
answered with success; `may` is a condition on the calls of `Process`. -/
structure FeatureProcessor.Keeps {σ κ : Type} (c : FeatureProcessor σ κ)
    (may : σ → FeatureInput → FeatureData Nat → Bool → Prop)
    (inv : σ → Prop) (ready : σ → Bool) : Prop where
  new : inv c.new ∧ ready c.new = false
  init : ∀ {p}, inv p → ∀ config, ∃ retCode p',
    c.init p config = some (retCode, p') ∧ inv p' ∧
      ready p' = (decide (retCode = Retcode.success) || ready p)
  release : ∀ {p}, inv p → inv (c.release p) ∧ ready (c.release p) = false
  process : ∀ {p}, inv p → ∀ input output memory,
    may p input output memory →
    c.process p input.toFeatureData output memory = .fail .badAlloc ∨
      ∃ retCode output' p',
        c.process p input.toFeatureData output memory =
          .ok (retCode, output', p') ∧
        (retCode = Retcode.success → ready p = true) ∧ inv p' ∧
        ready p' = ready p

namespace FeatureProcessor

variable {σ κ : Type} {c : FeatureProcessor σ κ}
variable {may : σ → FeatureInput → FeatureData Nat → Bool → Prop}
variable {inv : σ → Prop} {ready : σ → Bool}

/-- The calls of `Process` meet a condition. -/
def ProcessMay (may : σ → FeatureInput → FeatureData Nat → Bool → Prop)
    (s : FeatureRun σ) : FeatureCall κ → Prop
  | .process input output memory => may s.processor input output memory
  | _ => True

/-- The flag is what the log says. -/
structure Logged (inv : σ → Prop) (ready : σ → Bool) (s : FeatureRun σ) :
    Prop where
  inv : inv s.processor
  ready : ready s.processor = betweenCalls s.log
  works : WorksOnly betweenCalls s.log

theorem Keeps.call (h : c.Keeps may inv ready) {s : FeatureRun σ}
    (hs : Logged inv ready s) {i : FeatureCall κ} (hmay : ProcessMay may s i) :
    Logged inv ready (c.call s i) := by
  cases i with
  | init config =>
      obtain ⟨retCode, p', hinit, hinv, hready⟩ := h.init hs.inv config
      simp only [FeatureProcessor.call, hinit]
      exact ⟨hinv, by rw [hready, hs.ready]; rfl, hs.works⟩
  | process input output memory =>
      rcases h.process hs.inv input output memory hmay with
        hthrow | ⟨retCode, output', p', hrun, hsuccess, hinv, hready⟩
      · simp only [FeatureProcessor.call, hthrow]
        exact ⟨hs.inv, hs.ready, hs.works⟩
      · simp only [FeatureProcessor.call, hrun]
        exact ⟨hinv, hready.trans hs.ready,
          fun hret => hs.ready ▸ hsuccess hret, hs.works⟩
  | release =>
      obtain ⟨hinv, hready⟩ := h.release hs.inv
      exact ⟨hinv, hready, hs.works⟩

theorem Keeps.reach (h : c.Keeps may inv ready) {s : FeatureRun σ}
    (hs : c.machine.Reach (ProcessMay may) s) : Logged inv ready s := by
  refine hs.invariant ?_ ?_
  · intro s hstart
    obtain rfl : s = ⟨c.new, []⟩ := hstart
    exact ⟨h.new.1, h.new.2, trivial⟩
  · intro s i s' hlogged hmay hstep
    obtain rfl := Option.some.inj hstep
    exact h.call hlogged hmay

end FeatureProcessor

namespace SlideWindowProcessor

variable {a : Abi} {p : SlideWindowProcessor}

/-- Where the cursors of an initialized processor are. -/
structure Placed (p : SlideWindowProcessor) : Prop where
  start : p.startIndex = p.inputFeature + p.initIndex
  room : p.startIndex + p.stepSize ≤ p.bufferSize
  length : p.workBuffer.length = p.bufferSize
  small : p.bufferSize ≤ memcpyMax
  inType : p.inType ≠ .unknown
  typeSize : p.typeSize = p.inType.size

theorem Placed.lt_sizeMod (h : p.Placed) (a : Abi) {n : Nat}
    (hn : n ≤ p.bufferSize) : n < a.sizeMod := by
  have hmod := a.sizeMod_ge
  have hmax : p.bufferSize ≤ 2147483647 := h.small
  omega

/-- An `Init` that is refused leaves the flag, and an initialized processor
altogether. -/
theorem init_cases (config : Option SlideWindowProcessorConfig)
    (newBuffer : Bool) :
    (∃ p', p.init a config newBuffer = (Retcode.success, p') ∧
        p'.isInitialized = true ∧ p'.inType ≠ .unknown) ∨
      ∃ p', p.init a config newBuffer = (Retcode.failure, p') ∧
        p'.isInitialized = p.isInitialized ∧
        (p.isInitialized = true → p' = p) := by
  unfold init
  split
  · exact .inr ⟨p, rfl, rfl, fun _ => rfl⟩
  · next hflag =>
      have hnot {q : Prop} : p.isInitialized = true → q :=
        fun h => absurd h hflag
      split
      · exact .inr ⟨p, rfl, rfl, fun _ => rfl⟩
      · split
        · exact .inr ⟨p, rfl, rfl, fun _ => rfl⟩
        · next htype =>
            split
            · exact .inr ⟨p, rfl, rfl, fun _ => rfl⟩
            · split
              · exact .inr ⟨p, rfl, rfl, fun _ => rfl⟩
              · dsimp only
                split
                · exact .inr ⟨_, rfl, rfl, hnot⟩
                · split
                  · exact .inr ⟨_, rfl, rfl, hnot⟩
                  · exact .inl ⟨_, rfl, rfl, htype⟩

theorem init_placed {p' : SlideWindowProcessor}
    {config : SlideWindowProcessorConfig} {newBuffer : Bool}
    (hinit : p.init a (some config) newBuffer = (Retcode.success, p'))
    (htype : p'.inType ≠ .unknown) : p'.Placed := by
  obtain ⟨hle, hmax, hmul, rfl⟩ := init_eq hinit
  have hbounds := size_bounds hle hmax
  have hbuffer := window_le_buffer hmul
  have hsplit := kept_add_step hle
  exact ⟨(Nat.zero_add _).symm, hsplit ▸ hbuffer, List.length_replicate,
    Nat.le_trans hbounds.2.2.2 (by decide), htype, rfl⟩

/-- The move to the front stays inside and puts the cursors back. -/
theorem compact_placed {p' : SlideWindowProcessor} (h : p.Placed)
    {workBuffer : List UInt8} (hlen : workBuffer.length = p.bufferSize)
    (hp' : p' = { p with
      workBuffer
      startIndex := p.startIndex + p.stepSize
      inputFeature := p.inputFeature + p.stepSize })
    (hfull : p.bufferSize < p.startIndex + p.stepSize + p.stepSize) :
    ∃ p'', p'.compact = .ok p'' ∧ p''.Placed ∧
      p''.isInitialized = p.isInitialized := by
  subst hp'
  have hroom := h.room
  have hstart := h.start
  have hsmall := h.small
  have hok : memcpyOk p.bufferSize p.initIndex = true := by
    simp only [memcpyOk, Bool.and_eq_true, decide_eq_true_eq]
    omega
  obtain ⟨moved, hmove, hmoved, -⟩ := memcpyS_ok workBuffer workBuffer hok
    (show p.inputFeature + p.stepSize + p.initIndex ≤ _ by omega)
    (show 0 + p.initIndex ≤ _ by omega)
  refine ⟨_, Outcome.bind_eq_ok.mpr ⟨moved, hmove, rfl⟩,
    ⟨(Nat.zero_add _).symm, ?_, hmoved.trans hlen, hsmall, h.inType,
      h.typeSize⟩, rfl⟩
  change p.initIndex + p.stepSize ≤ p.bufferSize
  omega

theorem Placed.advance (h : p.Placed) {workBuffer : List UInt8}
    (hlen : workBuffer.length = p.bufferSize)
    (hleft : p.startIndex + p.stepSize + p.stepSize ≤ p.bufferSize) :
    Placed { p with
      workBuffer
      startIndex := p.startIndex + p.stepSize
      inputFeature := p.inputFeature + p.stepSize } where
  start := by
    have hstart := h.start
    change p.startIndex + p.stepSize =
      p.inputFeature + p.stepSize + p.initIndex
    omega
  room := hleft
  length := hlen
  small := h.small
  inType := h.inType
  typeSize := h.typeSize

/-- `Process` of an initialized processor stays inside its buffer, whatever
it is given. -/
theorem Placed.process (h : p.Placed) (input : FeatureInput)
    (output : FeatureData Nat) :
    ∃ retCode output' p',
      p.process a input.toFeatureData output =
        some (retCode, output', p') ∧
      p'.Placed ∧ p'.isInitialized = p.isInitialized := by
  have hroom := h.room
  have hlen := h.length
  simp only [SlideWindowProcessor.process]
  split
  · exact ⟨_, _, _, rfl, h, rfl⟩
  · split
    · exact ⟨_, _, _, rfl, h, rfl⟩
    · next htype =>
        split
        · exact ⟨_, _, _, rfl, h, rfl⟩
        · next data hdata =>
            split
            · exact ⟨_, _, _, rfl, h, rfl⟩
            · split
              · exact ⟨_, _, _, rfl, h, rfl⟩
              · next hbytes =>
                  split
                  · exact ⟨_, _, _, rfl, h, rfl⟩
                  · have hsame := not_not.mp htype
                    have hstep := not_not.mp hbytes
                    have hheld := input.holds (hsame ▸ h.inType) data hdata
                    rw [hsame, ← h.typeSize] at hheld
                    have hread := Nat.le_trans
                      (Nat.mod_le (input.size * p.typeSize) a.sizeMod) hheld
                    rw [← Nat.zero_add (_ % _)] at hread
                    rcases memcpyS_inside p.workBuffer data
                        (a.sub p.bufferSize p.startIndex) hread
                        (show p.startIndex +
                          a.sizeT (input.size * p.typeSize) ≤ _ by omega) with
                      hfail | ⟨copied, hcopy, hcopied⟩
                    · rw [Abi.sizeT, hfail]
                      exact ⟨_, _, _, rfl, h, rfl⟩
                    · rw [Abi.sizeT, hcopy]
                      dsimp only
                      rw [Abi.sizeT_of_lt (h.lt_sizeMod a hroom),
                        Abi.sub_of_le hroom (h.lt_sizeMod a (Nat.le_refl _))]
                      split
                      · obtain ⟨p', hcompact, hplaced, hkept⟩ :=
                          compact_placed h (hcopied.trans hlen) rfl (by omega)
                        rw [hcompact]
                        exact ⟨_, _, _, rfl, hplaced, hkept⟩
                      · exact ⟨_, _, _, rfl,
                          h.advance (hcopied.trans hlen) (by omega), rfl⟩

/-- What an initialized processor keeps. -/
def Ready (p : SlideWindowProcessor) : Prop :=
  p.isInitialized = true → p.Placed

theorem process_closed (h : p.isInitialized = false)
    (input : FeatureData (List UInt8)) (output : FeatureData Nat) :
    p.process a input output = some (Retcode.failure, output, p) :=
  if_pos (by rw [h]; decide)

theorem keeps : (feature a).Keeps (fun _ _ _ _ => True) Ready
    (·.isInitialized) where
  new := ⟨nofun, rfl⟩
  init := by
    rintro p hready ⟨config, newBuffer⟩
    rcases init_cases (a := a) (p := p) config newBuffer with
      ⟨p', hinit, hflag, htype⟩ | ⟨p', hinit, hflag, hkept⟩
    · refine ⟨_, _, congrArg some hinit, fun _ => ?_, hflag⟩
      cases config with
      | none =>
          simp only [init, ite_self] at hinit
          exact absurd (Prod.mk.inj hinit).1 (by decide)
      | some config => exact init_placed hinit htype
    · refine ⟨_, _, congrArg some hinit, fun h => ?_, hflag⟩
      have hp := hflag ▸ h
      exact hkept hp ▸ hready hp
  release := fun _ => ⟨nofun, rfl⟩
  process := by
    intro p hready input output memory _
    cases hflag : p.isInitialized with
    | false =>
        refine .inr ⟨Retcode.failure, output, p, ?_,
          fun h => absurd h (by decide), hready, hflag⟩
        simp only [feature, process_closed hflag]
    | true =>
        obtain ⟨retCode, output', p', hrun, hplaced, hkept⟩ :=
          (hready hflag).process (a := a) input output
        exact .inr ⟨retCode, output', p', by simp only [feature, hrun],
          fun _ => rfl, fun _ => hplaced, hkept.trans hflag⟩

end SlideWindowProcessor

/-! ## The type converter

Its buffer is given back by `Release` and the configuration stays, so that
what `Process` checks before it reads is not enough. `Passes` and `Reaches`
are its checks, up to that point and beyond. -/

namespace TypeConverter

variable {a : Abi} (cast : Cast) {p : TypeConverter} {bytes : List UInt8}

/-- The work buffer is there, with the size it is said to have. -/
structure Holds (a : Abi) (p : TypeConverter) (bytes : List UInt8) : Prop where
  data : p.workBuffer.data = some (.live bytes)
  dataType : p.workBuffer.dataType ≠ .unknown
  length : bytes.length =
    a.sizeT (p.workBuffer.size * p.workBuffer.dataType.size)

/-- A call of `Process` that passes the checks, none of which looks at
`isInitialized_`. -/
structure Passes (p : TypeConverter) (input : FeatureInput)
    (output : FeatureData Nat) : Prop where
  outputData : output.data = none
  outputSize : output.size = 0
  inputData : input.data ≠ none
  inputSize : input.size ≠ 0
  sameSize : input.size = p.workBuffer.size
  inType : input.dataType ≠ .unknown

/-- It goes on to the work buffer. -/
structure Reaches (a : Abi) (p : TypeConverter) (input : FeatureInput)
    (output : FeatureData Nat) (memory : Bool) : Prop
    extends p.Passes input output where
  indices : indicesFit a input.size memory

theorem size_le_wordSize {t : DataType} (h : t ≠ .unknown) (a : Abi) :
    0 < t.size ∧ t.size ≤ a.wordSize := by
  cases t <;> cases a <;> first | decide | exact absurd rfl h

/-- Where the vector of the indices has room, the size of the buffer was not
reduced. -/
theorem Holds.length_eq (h : p.Holds a bytes) {memory : Bool}
    (hfit : indicesFit a p.workBuffer.size memory) :
    bytes.length = p.workBuffer.size * p.workBuffer.dataType.size := by
  rw [h.length]
  exact Abi.sizeT_of_lt (Nat.lt_of_le_of_lt
    (Nat.mul_le_mul_left _ (size_le_wordSize h.dataType a).2) hfit.2)

theorem mul_add_le {i n : Nat} (hi : i < n) (k : Nat) :
    i * k + k ≤ n * k := by
  rw [← Nat.succ_mul]
  exact Nat.mul_le_mul_right k hi

/-- The loop of `DoCast` stays inside both buffers. -/
theorem convertItems_inside (inType outType : DataType) {n : Nat}
    {inputAddr : List UInt8} (hin : n * inType.size ≤ inputAddr.length)
    (hout : n * outType.size ≤ bytes.length) :
    ∃ bytes', (List.range n).foldlM
        (convertItem cast inType inputAddr outType) (some (.live bytes)) =
          some (some (.live bytes')) ∧
      bytes'.length = bytes.length := by
  have hitem : ∀ data : Option WorkBuffer,
      (∃ bytes' : List UInt8,
        data = some (.live bytes') ∧ bytes'.length = bytes.length) →
      ∀ i ∈ List.range n, ∃ data',
        convertItem cast inType inputAddr outType data i = some data' ∧
        ∃ bytes' : List UInt8,
          data' = some (.live bytes') ∧ bytes'.length = bytes.length := by
    rintro _ ⟨bytes', rfl, hlen⟩ i hi
    have hi' := List.mem_range.mp hi
    obtain ⟨value, hload⟩ := load_isSome
      (Nat.le_trans (mul_add_le hi' inType.size) hin)
    have hroom : i * outType.size +
        (cast inType outType value).toList.length ≤ bytes'.length := by
      rw [Vector.length_toList, hlen]
      exact Nat.le_trans (mul_add_le hi' _) hout
    obtain ⟨bytes'', hstore⟩ :=
      store_isSome (cast inType outType value).toList hroom
    refine ⟨some (.live bytes''), ?_, bytes'', rfl,
      (store_spec hstore).1.trans hlen⟩
    simp only [convertItem, hload, WorkBuffer.bytes, hstore,
      Option.bind_eq_bind, Option.bind_some]
    rfl
  obtain ⟨_, hrun, bytes', rfl, hlen⟩ :=
    foldlM_isSome hitem ⟨bytes, rfl, rfl⟩
  exact ⟨bytes', hrun, hlen⟩

/-- What `Process` makes of the loop of `DoCast`. -/
def answered (p : TypeConverter) : Option (Option WorkBuffer) →
    Outcome Thrown (Int × FeatureData Nat × TypeConverter)
  | none => .fault
  | some data =>
      .ok (Retcode.success,
        ⟨p.workBuffer.dataType, data.map fun _ => 0, p.workBuffer.size⟩,
        { p with workBuffer := { p.workBuffer with data } })

theorem Passes.process_eq {input : FeatureInput} {output : FeatureData Nat}
    (h : p.Passes input output) {inputAddr : List UInt8}
    (hinput : input.data = some inputAddr) (memory : Bool) :
    p.process a cast input.toFeatureData output memory =
      (doCast a cast input.dataType inputAddr input.size p.workBuffer
        memory >>= fun (retCode, workBuffer) =>
          if retCode ≠ Retcode.success then
            pure (Retcode.failure, output, { p with workBuffer })
          else
            pure (Retcode.success,
              ⟨workBuffer.dataType, workBuffer.data.map fun _ => 0,
                workBuffer.size⟩, { p with workBuffer })) := by
  have hout : ¬ (output.data ≠ none ∨ output.size ≠ 0) := by
    rw [h.outputData, h.outputSize]
    decide
  rw [TypeConverter.process, if_neg hout, hinput]
  dsimp only
  rw [if_neg h.inputSize, if_neg (not_not.mpr h.sameSize), innerProcess,
    if_neg h.inType, bind_assoc]
  rfl

theorem Passes.process_thrown {input : FeatureInput}
    {output : FeatureData Nat} (h : p.Passes input output) {memory : Bool}
    (hfit : ¬ indicesFit a input.size memory) :
    p.process a cast input.toFeatureData output memory = .fail .badAlloc := by
  obtain ⟨data, hinput⟩ := Option.ne_none_iff_exists'.mp h.inputData
  rw [h.process_eq cast hinput, doCast, if_pos hfit]
  rfl

theorem Reaches.process_eq {input : FeatureInput}
    {output : FeatureData Nat} {memory : Bool}
    (h : p.Reaches a input output memory)
    (htype : p.workBuffer.dataType ≠ .unknown) {inputAddr : List UInt8}
    (hinput : input.data = some inputAddr) :
    p.process a cast input.toFeatureData output memory =
      p.answered ((List.range input.size).foldlM
        (convertItem cast input.dataType inputAddr p.workBuffer.dataType)
        p.workBuffer.data) := by
  rw [h.toPasses.process_eq cast hinput, doCast,
    if_neg (not_not.mpr h.indices), if_neg htype]
  generalize (List.range input.size).foldlM
    (convertItem cast input.dataType inputAddr p.workBuffer.dataType)
    p.workBuffer.data = data
  cases data <;> rfl

/-- A converter that has its buffer answers what passes the checks with
success. -/
theorem Holds.process (h : p.Holds a bytes) {input : FeatureInput}
    {output : FeatureData Nat} {memory : Bool}
    (hreach : p.Reaches a input output memory) :
    ∃ bytes', bytes'.length = bytes.length ∧
      p.process a cast input.toFeatureData output memory =
        .ok (Retcode.success,
          ⟨p.workBuffer.dataType, some 0, p.workBuffer.size⟩,
          { p with workBuffer := { p.workBuffer with
              data := some (.live bytes') } }) := by
  obtain ⟨data, hdata⟩ := Option.ne_none_iff_exists'.mp hreach.inputData
  have hheld := input.holds hreach.inType data hdata
  have hlen := h.length_eq (hreach.sameSize ▸ hreach.indices)
  rw [← hreach.sameSize] at hlen
  obtain ⟨bytes', hloop, hlen'⟩ := convertItems_inside cast
    input.dataType p.workBuffer.dataType hheld (Nat.le_of_eq hlen.symm)
  refine ⟨bytes', hlen', ?_⟩
  rw [hreach.process_eq cast h.dataType hdata, h.data, hloop]
  rfl

theorem process_refused {input : FeatureInput} {output : FeatureData Nat}
    {memory : Bool} (hreach : ¬ p.Reaches a input output memory) :
    p.process a cast input.toFeatureData output memory = .fail .badAlloc ∨
      p.process a cast input.toFeatureData output memory =
        .ok (Retcode.failure, output, p) := by
  unfold TypeConverter.process
  split
  · exact .inr rfl
  · next hout =>
      obtain ⟨hoData, hoSize⟩ := not_or.mp hout
      split
      · exact .inr rfl
      · next data hdata =>
          split
          · exact .inr rfl
          · next hsize =>
              split
              · exact .inr rfl
              · next hsame =>
                  unfold innerProcess
                  split
                  · exact .inr rfl
                  · next htype =>
                      have hfit : ¬ indicesFit a input.size memory :=
                        fun hfit => hreach ⟨⟨not_not.mp hoData,
                          not_not.mp hoSize, by rw [hdata]; exact nofun,
                          hsize, not_not.mp hsame, htype⟩, hfit⟩
                      rw [doCast, if_pos hfit]
                      exact .inl rfl

/-- What passes the checks of a converter that has given its buffer back, or
never got one, misses it. -/
theorem Reaches.fault {input : FeatureInput} {output : FeatureData Nat}
    {memory : Bool} (hreach : p.Reaches a input output memory)
    (htype : p.workBuffer.dataType ≠ .unknown)
    (hdata : WorkBuffer.bytes p.workBuffer.data = none) :
    p.process a cast input.toFeatureData output memory = .fault := by
  obtain ⟨data, hinput⟩ := Option.ne_none_iff_exists'.mp hreach.inputData
  obtain ⟨n, hn⟩ := Nat.exists_eq_succ_of_ne_zero hreach.inputSize
  have hitem : convertItem cast input.dataType data p.workBuffer.dataType
      p.workBuffer.data 0 = none := by
    simp only [convertItem, hdata, Option.bind_eq_bind, Option.bind_none]
    cases load data _ _ <;> rfl
  rw [hreach.process_eq cast htype hinput, hn, List.range_succ_eq_map,
    List.foldlM_cons, hitem]
  rfl

/-- An `Init` gives the converter a buffer, or changes nothing, or changes
the sizes of one that is not initialized. -/
theorem init_cases (config : Option TypeConverterConfig) (newBuffer : Bool) :
    (∃ p' bytes, p.init a config newBuffer = (Retcode.success, p') ∧
        p'.isInitialized = true ∧ p'.Holds a bytes ∧
        ∀ c, config = some c → p'.workBuffer.dataType = c.dataType ∧
          p'.workBuffer.size = c.size) ∨
      p.init a config newBuffer = (Retcode.failure, p) ∨
      ∃ p', p.init a config newBuffer = (Retcode.failure, p') ∧
        p.isInitialized = false ∧ p'.isInitialized = false ∧
        p'.workBuffer.dataType ≠ .unknown ∧
        (p'.workBuffer.data = p.workBuffer.data ∨
          p'.workBuffer.data = none) := by
  unfold init
  split
  · exact .inr (.inl rfl)
  · next hflag =>
      have hclosed := Bool.eq_false_iff.mpr hflag
      split
      · exact .inr (.inl rfl)
      · split
        · exact .inr (.inl rfl)
        · next htype =>
            dsimp only
            split
            · exact .inr (.inr ⟨_, rfl, hclosed, hclosed, htype, .inl rfl⟩)
            · split
              · exact .inr (.inr ⟨_, rfl, hclosed, hclosed, htype, .inr rfl⟩)
              · refine .inl ⟨_, _, rfl, rfl,
                  ⟨rfl, htype, List.length_replicate⟩, ?_⟩
                intro c hc
                cases hc
                exact ⟨rfl, rfl⟩

/-- An initialized converter has its buffer, any other has none that can be
written. -/
structure Ready (a : Abi) (p : TypeConverter) : Prop where
  holds : p.isInitialized = true → ∃ bytes, p.Holds a bytes
  bytes : p.isInitialized = false →
    WorkBuffer.bytes p.workBuffer.data = none
  dataType : p.workBuffer.dataType = .unknown → p.workBuffer.size = 0

theorem keeps : (feature a cast).Keeps
    (fun p input output memory =>
      p.Reaches a input output memory → p.isInitialized = true)
    (Ready a) (·.isInitialized) where
  new := ⟨⟨nofun, fun _ => rfl, fun _ => rfl⟩, rfl⟩
  init := by
    rintro p hready ⟨config, newBuffer⟩
    rcases init_cases (a := a) (p := p) config newBuffer with
      ⟨p', bytes, hinit, hflag, hholds, -⟩ | hinit |
        ⟨p', hinit, hclosed, hclosed', htype, hdata⟩
    · refine ⟨_, _, congrArg some hinit, ⟨fun _ => ⟨bytes, hholds⟩, ?_,
        fun h => absurd h hholds.dataType⟩, hflag⟩
      exact fun h => absurd (h.symm.trans hflag) nofun
    · exact ⟨_, _, congrArg some hinit, hready, rfl⟩
    · refine ⟨_, _, congrArg some hinit, ⟨?_, fun _ => ?_,
        fun h => absurd h htype⟩, hclosed'.trans hclosed.symm⟩
      · exact fun h => absurd (hclosed'.symm.trans h) nofun
      · rcases hdata with hsame | hnull
        · rw [hsame]
          exact hready.bytes hclosed
        · rw [hnull]
          rfl
  release := by
    intro p hready
    change Ready a p.release ∧ p.release.isInitialized = false
    unfold TypeConverter.release
    split
    · refine ⟨⟨nofun, fun _ => ?_, hready.dataType⟩, rfl⟩
      cases p.workBuffer.data <;> rfl
    · next hflag => exact ⟨hready, Bool.eq_false_iff.mpr hflag⟩
  process := by
    intro p hready input output memory hmay
    by_cases hreach : p.Reaches a input output memory
    · have hflag := hmay hreach
      obtain ⟨bytes, hholds⟩ := hready.holds hflag
      obtain ⟨bytes', hlen, hrun⟩ := hholds.process cast hreach
      refine .inr ⟨_, _, _, hrun, fun _ => hflag,
        ⟨fun _ => ⟨bytes', rfl, hholds.dataType, hlen.trans hholds.length⟩,
          fun h => absurd (h.symm.trans hflag) nofun, hready.dataType⟩, rfl⟩
    · rcases process_refused cast hreach with hthrow | hrun
      · exact .inl hthrow
      · exact .inr ⟨_, _, _, hrun, fun h => absurd h (by decide), hready, rfl⟩

end TypeConverter

namespace NormProcessor

variable {a : Abi} (cast : Cast) (atof : List UInt8 → Float32)
variable {p : NormProcessor}

theorem loadRest_inside {length count : Nat} {data : List Float32}
    (hlen : data.length = length) (token : List UInt8) :
    ∃ count' data', loadRest atof length data count token =
      some (count', data') ∧ data'.length = length := by
  unfold loadRest
  split
  · exact ⟨_, _, rfl, hlen⟩
  · split
    · exact ⟨_, _, rfl, hlen⟩
    · next hroom =>
        obtain ⟨data', hstore⟩ := store_isSome [atof token]
          (show count + [atof token].length ≤ data.length by
            rw [List.length_singleton]
            omega)
        refine ⟨count + 1, data', ?_, (store_spec hstore).1.trans hlen⟩
        rw [hstore]
        rfl

/-- Reading a file stays inside the array, as long as the array is not full
when a character is read. -/
theorem loadInfoFromFile_inside {length : Nat} (fp : List UInt8) :
    ∀ {data : List Float32} {count : Nat} (token : List UInt8),
      data.length = length → count < length →
      ∃ count' data', loadInfoFromFile atof length fp data count token =
        some (count', data') ∧ data'.length = length := by
  induction fp with
  | nil => exact fun token hlen _ => loadRest_inside atof hlen token
  | cons c fp ih =>
      intro data count token hlen hcount
      unfold loadInfoFromFile
      split
      · obtain ⟨data', hstore⟩ := store_isSome [atof token]
          (show count + [atof token].length ≤ data.length by
            rw [List.length_singleton]
            omega)
        have hlen' := (store_spec hstore).1.trans hlen
        rw [hstore, Option.bind_eq_bind, Option.bind_some]
        split
        · next hmore => exact ih [] hlen' hmore
        · exact loadRest_inside atof hlen' []
      · exact ih _ hlen hcount

theorem readFixedLenFloatData_inside {length : Nat} {data : List Float32}
    (hlen : data.length = length) (hpos : 0 < length)
    (file : Option (List UInt8)) :
    ∃ retCode data', readFixedLenFloatData atof file data length =
      some (retCode, data') ∧ data'.length = length := by
  cases file with
  | none => exact ⟨_, _, rfl, hlen⟩
  | some fp =>
      obtain ⟨count', data', hload, hlen'⟩ :=
        loadInfoFromFile_inside atof fp [] hlen hpos
      simp only [readFixedLenFloatData, hload, Option.bind_eq_bind,
        Option.bind_some]
      exact ⟨_, _, rfl, hlen'⟩

theorem loadMeanAndStd_inside {length : Nat} {mean std : List Float32}
    (hmean : mean.length = length) (hstd : std.length = length)
    (hpos : 0 < length) (meanFile stdFile : Option (List UInt8)) :
    ∃ retCode mean' std', loadMeanAndStd atof meanFile stdFile mean std
        length = some (retCode, mean', std') ∧
      (retCode = Retcode.success ∨ retCode = Retcode.failure) ∧
      mean'.length = length ∧ std'.length = length := by
  obtain ⟨meanCode, mean', hreadMean, hmean'⟩ :=
    readFixedLenFloatData_inside atof hmean hpos meanFile
  obtain ⟨stdCode, std', hreadStd, hstd'⟩ :=
    readFixedLenFloatData_inside atof hstd hpos stdFile
  simp only [loadMeanAndStd, hreadMean, hreadStd, Option.bind_eq_bind,
    Option.bind_some]
  split
  · exact ⟨_, _, _, rfl, .inr rfl, hmean', hstd⟩
  · split
    · exact ⟨_, _, _, rfl, .inr rfl, hmean', hstd'⟩
    · exact ⟨_, _, _, rfl, .inl rfl, hmean', hstd'⟩

/-- The arrays and the converter are there, with the sizes of the
configuration. -/
structure Loaded (a : Abi) (p : NormProcessor) : Prop where
  channels : 0 < p.config.numChannels
  mean : ∃ mean, p.mean = some mean ∧ mean.length = p.config.numChannels
  std : ∃ std, p.std = some std ∧ std.length = p.config.numChannels
  workBuffer : ∃ floats, p.workBuffer = some floats ∧
    floats.length = p.config.inputSize
  converter : ∃ converter bytes, p.converter = some converter ∧
    converter.Holds a bytes ∧ converter.workBuffer.dataType = .float ∧
    converter.workBuffer.size = p.config.inputSize

theorem converter_init {config : NormProcessorConfig} {newBuffer : Bool}
    (hsuccess : (TypeConverter.new.init a (some ⟨.float, config.inputSize⟩)
      newBuffer).1 = Retcode.success) :
    ∃ bytes, (TypeConverter.new.init a (some ⟨.float, config.inputSize⟩)
        newBuffer).2.Holds a bytes ∧
      (TypeConverter.new.init a (some ⟨.float, config.inputSize⟩)
        newBuffer).2.workBuffer.dataType = .float ∧
      (TypeConverter.new.init a (some ⟨.float, config.inputSize⟩)
        newBuffer).2.workBuffer.size = config.inputSize := by
  rcases TypeConverter.init_cases (a := a) (p := .new)
      (some ⟨.float, config.inputSize⟩) newBuffer with
    ⟨p', bytes, hinit, -, hholds, hconfig⟩ | hinit | ⟨p', hinit, -⟩
  · rw [hinit]
    exact ⟨bytes, hholds, (hconfig _ rfl).1, (hconfig _ rfl).2⟩
  all_goals
    rw [hinit] at hsuccess
    exact absurd (show Retcode.failure = Retcode.success from hsuccess)
      (by decide)

theorem newFloats_length {memory : Bool} {length : Nat}
    {data : List Float32} (h : newFloats memory length = some data) :
    data.length = length := by
  unfold newFloats at h
  split at h
  · cases h
    exact List.length_replicate
  · cases h

/-- An `Init` loads the processor, or leaves an initialized one
altogether. -/
theorem init_cases (config : Option NormProcessorConfig)
    (memory : NormMemory) :
    (∃ p', p.init a atof config memory = some (Retcode.success, p') ∧
        p'.isInitialized = true ∧ p'.Loaded a) ∨
      ∃ p', p.init a atof config memory = some (Retcode.failure, p') ∧
        p'.isInitialized = p.isInitialized ∧
        (p.isInitialized = true → p' = p) := by
  unfold init
  split
  · exact .inr ⟨p, rfl, rfl, fun _ => rfl⟩
  · next hflag =>
      have hnot {q : Prop} : p.isInitialized = true → q :=
        fun h => absurd h hflag
      split
      · exact .inr ⟨p, rfl, rfl, fun _ => rfl⟩
      · next config =>
          dsimp only
          split
          · exact .inr ⟨_, rfl, rfl, hnot⟩
          · next hsizes =>
              have hpos : 0 < config.numChannels :=
                Nat.pos_of_ne_zero (not_or.mp hsizes).2
              split
              · exact .inr ⟨_, rfl, rfl, hnot⟩
              · split
                · exact .inr ⟨_, rfl, rfl, hnot⟩
                · split
                  · exact .inr ⟨_, rfl, rfl, hnot⟩
                  · next hsuccess =>
                      have hconverter := converter_init (not_not.mp hsuccess)
                      split
                      · exact .inr ⟨_, rfl, rfl, hnot⟩
                      · split
                        · next mean std floats hmean hstd hfloats =>
                            obtain ⟨retCode, mean', std', hload, hret,
                                hmean', hstd'⟩ :=
                              loadMeanAndStd_inside atof
                                (newFloats_length hmean)
                                (newFloats_length hstd) hpos
                                (memory.files config.meanFilePath)
                                (memory.files config.stdFilePath)
                            rw [hload, Option.bind_eq_bind, Option.bind_some]
                            dsimp only
                            rcases hret with rfl | rfl
                            · exact .inl ⟨_, rfl, rfl, hpos,
                                ⟨mean', rfl, hmean'⟩, ⟨std', rfl, hstd'⟩,
                                ⟨floats, rfl, newFloats_length hfloats⟩,
                                ⟨_, _, rfl, hconverter.choose_spec⟩⟩
                            · exact .inr ⟨_, rfl,
                                (Bool.eq_false_iff.mpr hflag).symm, hnot⟩
                        · exact .inr ⟨_, rfl,
                            (Bool.eq_false_iff.mpr hflag).symm, hnot⟩

/-- The loop stays inside the arrays, the input and the work buffer. -/
theorem normItems_inside (h : p.Loaded a) {data : List UInt8}
    (hdata : p.config.inputSize * DataType.float.size ≤ data.length) :
    ∃ floats, (List.range p.config.inputSize).foldlM (p.normItem (some data))
        p.workBuffer = some (some floats) ∧
      floats.length = p.config.inputSize := by
  obtain ⟨mean, hmean, hmeanLen⟩ := h.mean
  obtain ⟨std, hstd, hstdLen⟩ := h.std
  obtain ⟨floats, hfloats, hlen⟩ := h.workBuffer
  have hitem : ∀ workBuffer : Option (List Float32),
      (∃ floats : List Float32, workBuffer = some floats ∧
        floats.length = p.config.inputSize) →
      ∀ i ∈ List.range p.config.inputSize, ∃ workBuffer',
        p.normItem (some data) workBuffer i = some workBuffer' ∧
        ∃ floats : List Float32, workBuffer' = some floats ∧
          floats.length = p.config.inputSize := by
    rintro _ ⟨floats, rfl, hlen⟩ i hi
    have hi' := List.mem_range.mp hi
    have hchannel := Nat.mod_lt i h.channels
    obtain ⟨bytes, hload⟩ := load_isSome
      (Nat.le_trans (TypeConverter.mul_add_le hi' DataType.float.size) hdata)
    have hstore (x : Float32) : ∃ floats', store floats i [x] =
        some floats' ∧ floats'.length = p.config.inputSize := by
      obtain ⟨floats', hstore⟩ := store_isSome [x]
        (show i + [x].length ≤ floats.length by
          rw [List.length_singleton]
          omega)
      exact ⟨floats', hstore, (store_spec hstore).1.trans hlen⟩
    have hmeanVal : ∃ x, mean[i % p.config.numChannels]? = some x :=
      ⟨_, List.getElem?_eq_getElem (by omega)⟩
    have hstdVal : ∃ x, std[i % p.config.numChannels]? = some x :=
      ⟨_, List.getElem?_eq_getElem (by omega)⟩
    obtain ⟨meanVal, hmeanVal⟩ := hmeanVal
    obtain ⟨stdVal, hstdVal⟩ := hstdVal
    simp only [normItem, hmean, hstd, hmeanVal, hstdVal, hload,
      Option.bind_eq_bind, Option.bind_some]
    obtain ⟨floats', hwrite, hlen'⟩ := hstore _
    exact ⟨some floats', by rw [hwrite]; rfl, floats', rfl, hlen'⟩
  obtain ⟨_, hrun, floats', rfl, hlen'⟩ :=
    foldlM_isSome hitem ⟨floats, hfloats, hlen⟩
  exact ⟨floats', hrun, hlen'⟩

/-- What the loop reads is as long as it should be, and the processor is as
before. -/
theorem Loaded.converted (h : p.Loaded a) {input : FeatureInput}
    {output : FeatureData Nat} (houtData : output.data = none)
    (houtSize : output.size = 0) (hinput : input.data ≠ none)
    (hsize : input.size ≠ 0) (htype : input.dataType ≠ .unknown)
    (hsame : input.size = p.config.inputSize) (memory : Bool) :
    p.converted a cast input.toFeatureData output memory = .fail .badAlloc ∨
      ∃ data p', p.converted a cast input.toFeatureData output memory =
          .ok (some data, p.config.inputSize, p') ∧
        p.config.inputSize * DataType.float.size ≤ data.length ∧
        p'.Loaded a ∧ p'.config = p.config ∧
        p'.isInitialized = p.isInitialized := by
  unfold NormProcessor.converted
  split
  · next hfloat =>
      obtain ⟨data, hdata⟩ := Option.ne_none_iff_exists'.mp hinput
      have hheld := input.holds htype data hdata
      rw [hfloat, hsame] at hheld
      exact .inr ⟨data, p, by rw [hdata, hsame], hheld, h, rfl, rfl⟩
  · obtain ⟨converter, bytes, hconverter, hholds, hctype, hcsize⟩ :=
      h.converter
    rw [hconverter]
    dsimp only
    have hpasses : converter.Passes input output :=
      ⟨houtData, houtSize, hinput, hsize, hsame.trans hcsize.symm, htype⟩
    by_cases hfit : TypeConverter.indicesFit a input.size memory
    · have hlen := hholds.length_eq (hpasses.sameSize ▸ hfit)
      obtain ⟨bytes', hlen', hrun⟩ := hholds.process cast ⟨hpasses, hfit⟩
      refine .inr ⟨bytes', { p with converter := some { converter with
        workBuffer := { converter.workBuffer with
          data := some (.live bytes') } } }, ?_, ?_, ?_, rfl, rfl⟩
      · rw [hrun, Outcome.ok_bind, ← hcsize]
        rfl
      · rw [hlen', hlen, hctype, hcsize]
      · exact { h with
          converter := ⟨_, bytes', rfl, ⟨rfl, hholds.dataType,
            hlen'.trans hholds.length⟩, hctype, hcsize⟩ }
    · rw [hpasses.process_thrown cast hfit]
      exact .inl rfl

/-- `Process` of an initialized processor stays inside its buffers, whatever
it is given. -/
theorem Loaded.process (h : p.Loaded a) (input : FeatureInput)
    (output : FeatureData Nat) (memory : Bool) :
    p.process a cast input.toFeatureData output memory = .fail .badAlloc ∨
      ∃ retCode output' p',
        p.process a cast input.toFeatureData output memory =
          .ok (retCode, output', p') ∧
        p'.Loaded a ∧ p'.isInitialized = p.isInitialized := by
  unfold NormProcessor.process
  split
  · exact .inr ⟨_, _, _, rfl, h, rfl⟩
  · split
    · exact .inr ⟨_, _, _, rfl, h, rfl⟩
    · next hout =>
        split
        · exact .inr ⟨_, _, _, rfl, h, rfl⟩
        · next hinput =>
            split
            · exact .inr ⟨_, _, _, rfl, h, rfl⟩
            · next htype =>
                split
                · exact .inr ⟨_, _, _, rfl, h, rfl⟩
                · next hsame =>
                    obtain ⟨houtData, houtSize⟩ := not_or.mp hout
                    obtain ⟨hdata, hsize⟩ := not_or.mp hinput
                    rcases h.converted cast (not_not.mp houtData)
                        (not_not.mp houtSize) hdata hsize htype
                        (not_not.mp hsame) memory with
                      hthrow | ⟨data, p', hrun, hlen, hloaded, hconfig, hflag⟩
                    · rw [hthrow]
                      exact .inl rfl
                    · rw [hrun, ← hconfig]
                      rw [← hconfig] at hlen
                      obtain ⟨floats, hloop, hfloats⟩ :=
                        normItems_inside hloaded hlen
                      rw [Outcome.ok_bind]
                      dsimp only
                      rw [hloop]
                      exact .inr ⟨_, _, _, rfl, { hloaded with
                        workBuffer := ⟨floats, rfl, hfloats⟩ }, hflag⟩

/-- What an initialized processor keeps. -/
def Ready (a : Abi) (p : NormProcessor) : Prop :=
  p.isInitialized = true → p.Loaded a

theorem process_closed (h : p.isInitialized = false)
    (input : FeatureData (List UInt8)) (output : FeatureData Nat)
    (memory : Bool) :
    p.process a cast input output memory =
      .ok (Retcode.failure, output, p) :=
  if_pos (by rw [h]; decide)

theorem keeps : (feature a cast atof).Keeps (fun _ _ _ _ => True) (Ready a)
    (·.isInitialized) where
  new := ⟨nofun, rfl⟩
  init := by
    rintro p hready ⟨config, memory⟩
    rcases init_cases (a := a) (p := p) atof config memory with
      ⟨p', hinit, hflag, hloaded⟩ | ⟨p', hinit, hflag, hkept⟩
    · exact ⟨_, _, hinit, fun _ => hloaded, hflag⟩
    · refine ⟨_, _, hinit, fun h => ?_, hflag⟩
      have hp := hflag ▸ h
      exact hkept hp ▸ hready hp
  release := fun _ => ⟨nofun, rfl⟩
  process := by
    intro p hready input output memory _
    cases hflag : p.isInitialized with
    | false =>
        exact .inr ⟨_, _, _, process_closed cast hflag _ _ _,
          fun h => absurd h (by decide), hready, hflag⟩
    | true =>
        rcases (hready hflag).process cast input output memory with
          hthrow | ⟨retCode, output', p', hrun, hloaded, hkept⟩
        · exact .inl hthrow
        · exact .inr ⟨_, _, _, hrun, fun _ => rfl, fun _ => hloaded,
            hkept.trans hflag⟩

end NormProcessor

/-- A type converter is given what passes its checks only while it is
initialized. -/
def converterStep (a : Abi) : FeatureRun TypeConverter →
    FeatureCall (Option TypeConverterConfig × Bool) → Prop :=
  FeatureProcessor.ProcessMay fun p input output memory =>
    p.Reaches a input output memory → p.isInitialized = true

/-- After such a run, what a call does is right if and only if it is one of
these. -/
theorem converterStep_iff {a : Abi} {cast : Cast} {s : FeatureRun TypeConverter}
    (hs : (TypeConverter.feature a cast).machine.Reach (converterStep a) s)
    (i : FeatureCall (Option TypeConverterConfig × Bool)) :
    WorksOnly betweenCalls ((TypeConverter.feature a cast).call s i).log ↔
      converterStep a s i := by
  have hlogged := (TypeConverter.keeps cast).reach hs
  refine ⟨fun hworks => ?_,
    fun hmay => ((TypeConverter.keeps cast).call hlogged hmay).works⟩
  cases i with
  | init | release => trivial
  | process input output memory =>
      intro hreach
      by_contra hflag
      have htype : s.processor.workBuffer.dataType ≠ .unknown := fun h =>
        hreach.inputSize (hreach.sameSize.trans (hlogged.inv.dataType h))
      have hfault := hreach.fault cast htype
        (hlogged.inv.bytes (Bool.eq_false_iff.mpr hflag))
      simp only [FeatureProcessor.call, TypeConverter.feature, hfault,
        WorksOnly] at hworks

/-- Whatever is called, a slide window processor and a norm processor answer
`Process` with success only between an `Init` that succeeded and the next
`Release`, and never miss a buffer; so does a type converter in the runs in
which no call that passes its checks is made on one that is not
initialized. -/
theorem reach_worksOnly (a : Abi) (cast : Cast)
    (atof : List UInt8 → Float32) :
    (∀ s, (SlideWindowProcessor.feature a).machine.Reach Machine.anyStep s →
      WorksOnly betweenCalls s.log) ∧
    (∀ s, (NormProcessor.feature a cast atof).machine.Reach
        Machine.anyStep s → WorksOnly betweenCalls s.log) ∧
    (∀ s, (TypeConverter.feature a cast).machine.Reach (converterStep a) s →
      WorksOnly betweenCalls s.log) := by
  have hany {σ κ : Type} (s : FeatureRun σ) (i : FeatureCall κ)
      (_ : Machine.anyStep s i) :
      FeatureProcessor.ProcessMay (fun _ _ _ _ => True) s i := by
    cases i <;> trivial
  exact ⟨fun s hs => (SlideWindowProcessor.keeps.reach (hs.mono hany)).works,
    fun s hs => ((NormProcessor.keeps cast atof).reach (hs.mono hany)).works,
    fun s hs => ((TypeConverter.keeps cast).reach hs).works⟩

/-- Zeros in place of the converted number. -/
def sampleCast : Cast := fun _ outType _ => Vector.replicate outType.size 0

/-- One byte, and what it is. -/
def sampleInput : FeatureInput where
  dataType := .uint8
  data := some [7]
  size := 1
  holds := by
    rintro - bytes ⟨⟩
    decide

def sampleOutput : FeatureData Nat := ⟨.unknown, none, 0⟩

/-- Two calls of `Init`, the second refused, and one of `Process`. -/
def slideCalls :
    List (FeatureCall (Option SlideWindowProcessorConfig × Bool)) :=
  [.init (some ⟨.uint8, 1, 1, 1⟩, true), .init (none, true),
    .process sampleInput sampleOutput true]

/-- Files with a digit each. -/
def normCalls : List (FeatureCall (Option NormProcessorConfig × NormMemory)) :=
  [.init (some ⟨"mean", "std", 1, 1, 1⟩,
      ⟨true, true, true, true, true, fun _ => some [48]⟩),
    .process sampleInput sampleOutput true, .release]

theorem reach_worksOnly_sample :
    WorksOnly betweenCalls [.processed Retcode.success,
      .initialized Retcode.failure, .initialized Retcode.success] ∧
    WorksOnly betweenCalls [.released, .processed Retcode.success,
      .initialized Retcode.success] ∧
    WorksOnly betweenCalls [.released, .processed Retcode.success,
      .initialized Retcode.success] := by
  have h := reach_worksOnly .lp64 sampleCast fun _ => 0
  refine ⟨h.1 ⟨_, _⟩ (.of_run (.start rfl)
      (show Machine.run _ _ _ slideCalls = _ from rfl)),
    h.2.1 ⟨_, _⟩ (.of_run (.start rfl)
      (show Machine.run _ _ _ normCalls = _ from rfl)),
    h.2.2 ⟨⟨false, ⟨.float, some .freed, 1⟩⟩, _⟩ ?_⟩
  refine .step (i := .release) (.step
    (i := .process sampleInput sampleOutput true)
    (.step (i := .init (some ⟨.float, 1⟩, true)) (.start rfl) trivial rfl)
    (fun _ => rfl) rfl) trivial rfl

/-- An `Init` that is refused because the processor is initialized is the
latest one, and `Process` works on. -/
theorem initTwice_not_worksOnly :
    ¬ ∀ (a : Abi) (cast : Cast) (atof : List UInt8 → Float32),
      (∀ s, (SlideWindowProcessor.feature a).machine.Reach
          Machine.anyStep s → WorksOnly latestInit s.log) ∧
      (∀ s, (NormProcessor.feature a cast atof).machine.Reach
          Machine.anyStep s → WorksOnly latestInit s.log) ∧
      (∀ s, (TypeConverter.feature a cast).machine.Reach
          Machine.anyStep s → WorksOnly latestInit s.log) := by
  intro h
  have hworks := (h .lp64 sampleCast fun _ => 0).1 ⟨_, _⟩ (.of_run (.start rfl)
    (show Machine.run _ _ _ slideCalls = _ from rfl))
  exact absurd (hworks.1 rfl) (by decide)

end AiEngine.Ref
