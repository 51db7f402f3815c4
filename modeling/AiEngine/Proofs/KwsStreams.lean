import AiEngine.Proofs.EncdecWire
import AiEngine.Proofs.KwsExecution
import AiEngine.Proofs.KwsInference
import AiEngine.Ref.KwsPipeline

/-!
# Streams of samples and the plugin

`KwsStream` is one stream of samples as the model of its handle and the
callback of its user know it: what was heard of it, the windows of features
that the model was given, and the calls of the callback. Each window of the
samples takes it one step on, in order. It is not processed, or it is lost on
its way, or heard, or heard and given to the model; the callback gets the
model's answer to it, or one error.

The plugin keeps what was heard of a stream under its handle. Calls that leave
the handle alone leave this alone.
-/

namespace AiEngine.Ref

open AiEngine.Lib

section

variable {a : Abi} {heap : Nat → Bool} {dataInfo dataInfo' : DataInfo}

/-- The values of an `intptr_t`. -/
def IntptrRange (a : Abi) (handle : Int) : Prop :=
  -(a.sizeMod : Int) ≤ handle * 2 ∧ handle * 2 < a.sizeMod

theorem intptrValue_intptr {handle : Int} (h : IntptrRange a handle) :
    intptrValue a (intptr a handle).toList = handle := by
  have hmod := a.sizeMod_ge
  have hpos : (0 : Int) < a.sizeMod := by omega
  have hcast : ((handle % a.sizeMod).toNat : Int) = handle % a.sizeMod :=
    Int.toNat_of_nonneg (Int.emod_nonneg _ (by omega))
  have hlt : (handle % a.sizeMod).toNat < 256 ^ a.wordSize := by
    have hsize := Int.emod_lt_of_pos handle hpos
    rw [← Abi.sizeMod]
    omega
  have hbytes : (intptr a handle).toList =
      leBytes a.wordSize (handle % a.sizeMod).toNat := rfl
  rw [hbytes, intptrValue, leNat_leBytes hlt, hcast, Int.emod_bmod]
  exact Int.bmod_eq_of_le_mul_two h.1 h.2

/-- The parameters of a message that carries a handle and an array. -/
def handleArray (a : Abi) (handle : Int) {t : ElemType} (val : CArray t) :
    List Param :=
  [⟨.fixed a.wordSize, intptr a handle⟩, ⟨.array t, val⟩]

theorem handleArray_encodable (handle : Int) {t : ElemType} {val : CArray t}
    (hval : encodable ⟨.array t, val⟩) :
    ∀ p ∈ handleArray a handle val, encodable p := by
  intro p hp
  rcases List.mem_pair.mp hp with rfl | rfl
  · exact a.wordSize_pos
  · exact hval

/-- An encoding that ends well, with what another process makes of it. -/
theorem processEncode_carries {args : List Param}
    (hargs : ∀ p ∈ args, encodable p)
    (hok : processEncode a heap dataInfo args = .ok dataInfo') :
    dataInfo'.data ≠ .null ∧ ¬ dataInfo'.length ≤ 0 ∧
      ∀ heap', AsServed (processDecode a heap' dataInfo' (freshFor args))
        (.ok args) := by
  obtain ⟨rfl, hmax⟩ := processEncode_written hargs hok
  have hne := encoding_ne_nil (a := a) args
  have hpos := List.length_pos_of_ne_nil hne
  refine ⟨nofun, ?_, fun heap' => processDecode_written hargs hmax⟩
  show ¬ ((encoding a args).length : Int) ≤ 0
  omega

theorem processEncode_decoded {args : List Param}
    (hargs : ∀ p ∈ args, encodable p)
    (hok : processEncode a heap dataInfo args = .ok dataInfo')
    {heap' : Nat → Bool} (hheap' : HeapServes heap') :
    processDecode a heap' dataInfo' (freshFor args) = .ok args := by
  obtain ⟨rfl, hmax⟩ := processEncode_written hargs hok
  exact processDecode_encoding hheap' hargs hmax

/-- The message of a short array is encoded where there is memory. -/
theorem handleArray_served (hheap : HeapServes heap) (dataInfo : DataInfo)
    (handle : Int) {t : ElemType} {val : CArray t}
    (hval : encodable ⟨.array t, val⟩)
    (hsmall : val.size * t.size ≤ 2 ^ 30) :
    ∃ inputInfo, processEncode a heap dataInfo (handleArray a handle val) =
      .ok inputInfo := by
  have hargs := handleArray_encodable (a := a) handle hval
  have hword : a.wordSize ≤ 8 := by cases a <;> decide
  have hlen : (encoding a (handleArray a handle val)).length =
      val.size * t.size + 3 * a.wordSize := by
    rw [length_encoding, ← sum_sizes hargs]
    simp only [handleArray, List.flatMap_cons, List.flatMap_nil, paramSizes,
      List.append_nil, List.sum_append, List.sum_cons, List.sum_nil,
      List.sum_replicate_nat]
    omega
  exact ⟨_, processEncode_ok hheap dataInfo hargs
    (by simp only [intMax]; omega) (growthFits_of_small hargs (by omega))⟩

theorem decodeAudio_carried {handle : Int} (hrange : IntptrRange a handle)
    {input : CArray .uint16}
    (hok : encodeAudio a heap dataInfo handle input = .ok dataInfo')
    (heap' : Nat → Bool) :
    dataInfo'.data ≠ .null ∧ ¬ dataInfo'.length ≤ 0 ∧
      AsServed (decodeAudio a heap' dataInfo') (.ok (handle, input)) := by
  obtain ⟨hdata, hlen, hdec⟩ := processEncode_carries
    (handleArray_encodable handle (processEncode_refused hok)) hok
  refine ⟨hdata, hlen, ?_⟩
  have hsame : AsServed (decodeAudio a heap' dataInfo')
      (.ok (intptrValue a (intptr a handle).toList, input)) :=
    (hdec heap').bind fun _ => .inr rfl
  rwa [intptrValue_intptr hrange] at hsame

theorem decodeAudio_served {handle : Int} (hrange : IntptrRange a handle)
    {input : CArray .uint16}
    (hok : encodeAudio a heap dataInfo handle input = .ok dataInfo')
    {heap' : Nat → Bool} (hheap' : HeapServes heap') :
    decodeAudio a heap' dataInfo' = .ok (handle, input) := by
  have hdec := processEncode_decoded
    (handleArray_encodable handle (processEncode_refused hok)) hok hheap'
  have hsame : decodeAudio a heap' dataInfo' =
      .ok (intptrValue a (intptr a handle).toList, input) :=
    congrArg (· >>= _) hdec
  rwa [intptrValue_intptr hrange] at hsame

theorem decodeResult_served {handle : Int} (hrange : IntptrRange a handle)
    {kwsResult : CArray .int32}
    (hok : encodeResult a heap dataInfo handle kwsResult = .ok dataInfo')
    {heap' : Nat → Bool} (hheap' : HeapServes heap') :
    decodeResult a heap' dataInfo' = .ok (handle, kwsResult) := by
  have hdec := processEncode_decoded
    (handleArray_encodable handle (processEncode_refused hok)) hok hheap'
  have hsame : decodeResult a heap' dataInfo' =
      .ok (intptrValue a (intptr a handle).toList, kwsResult) :=
    congrArg (· >>= _) hdec
  rwa [intptrValue_intptr hrange] at hsame

theorem decodeResult_carried {handle : Int} (hrange : IntptrRange a handle)
    {kwsResult : CArray .int32}
    (hok : encodeResult a heap dataInfo handle kwsResult = .ok dataInfo')
    (heap' : Nat → Bool) :
    dataInfo'.data ≠ .null ∧ ¬ dataInfo'.length ≤ 0 ∧
      AsServed (decodeResult a heap' dataInfo') (.ok (handle, kwsResult)) := by
  obtain ⟨hdata, hlen, hdec⟩ := processEncode_carries
    (handleArray_encodable handle (processEncode_refused hok)) hok
  refine ⟨hdata, hlen, ?_⟩
  have hsame : AsServed (decodeResult a heap' dataInfo')
      (.ok (intptrValue a (intptr a handle).toList, kwsResult)) :=
    (hdec heap').bind fun _ => .inr rfl
  rwa [intptrValue_intptr hrange] at hsame

theorem decodeHandle_carried {handle : Int} (hrange : IntptrRange a handle)
    (hok : encodeHandle a heap dataInfo handle = .ok dataInfo')
    (heap' : Nat → Bool) :
    AsServed (decodeHandle a heap' dataInfo') (.ok handle) := by
  have hargs : ∀ p ∈ [(⟨.fixed a.wordSize, intptr a handle⟩ : Param)],
      encodable p := by
    intro p hp
    rw [List.mem_singleton.mp hp]
    exact a.wordSize_pos
  obtain ⟨-, -, hdec⟩ := processEncode_carries hargs hok
  have hsame : AsServed (decodeHandle a heap' dataInfo')
      (.ok (intptrValue a (intptr a handle).toList)) :=
    (hdec heap').bind fun _ => .inr rfl
  rwa [intptrValue_intptr hrange] at hsame

end

/-! ## Streams

What becomes of the windows of one handle. Each window is left unprocessed,
ends in an error at one of the places where this can happen, or is answered;
`After` has a constructor for each. -/

/-- A stream as its model and its callback know it. -/
structure KwsStream where
  heard : List UInt8
  given : List (List UInt8)
  events : List KwsEvent

namespace KwsStream

/-- What `Create` leaves. -/
def silent : KwsStream := ⟨silentFeatures, [], []⟩

def hear (st : KwsStream) (features : List UInt8) : KwsStream :=
  { st with heard := st.heard ++ features }

/-- The model is given the last window of what was heard. -/
def infer (st : KwsStream) : KwsStream :=
  { st with given := st.given ++
    [st.heard.rtake (defaultSlideWindowSize * DataType.int32.size)] }

def call (st : KwsStream) (event : KwsEvent) : KwsStream :=
  { st with events := st.events ++ [event] }

section

variable (cast : Cast) (means stds : List Float32)

/-- The features of a request, which is heard if it has the right length. -/
inductive Features (input : CArray .uint16) : List UInt8 → Prop where
  | mk {audio : List (ElemType.Val .uint16)} (hdata : input.data = some audio)
      (hlen : audio.length = defaultSlideStepSize) :
      Features input (kwsFeatures cast means stds audio)

/-- How far a request gets. -/
inductive Reaches (input : CArray .uint16) (st : KwsStream) :
    KwsStream → Prop where
  | unheard : Reaches input st st
  | heard {features : List UInt8}
      (hfeatures : Features cast means stds input features) :
      Reaches input st (st.hear features)
  | inferred {features : List UInt8}
      (hfeatures : Features cast means stds input features) :
      Reaches input st (st.hear features).infer

/-- What `Execute` does. -/
inductive Executes (output : List Int32) (input : CArray .uint16)
    (st : KwsStream) : Int → KwsStream → Prop where
  | failed {st' : KwsStream} {errorCode : Int}
      (hcode : errorCode ≠ KwsRetcode.success)
      (hreaches : Reaches cast means stds input st st') :
      Executes output input st errorCode (st'.call (.onError errorCode))
  | delivered {features : List UInt8}
      (hfeatures : Features cast means stds input features) :
      Executes output input st KwsRetcode.success
        ((st.hear features).infer.call (.onResult output))

/-- The streams that the first so many windows can make. -/
inductive After (outputSize : Nat) (envs : Nat → KwsWindowEnv)
    (window : Nat → List Int16) : Nat → KwsStream → Prop where
  | silent : After outputSize envs window 0 .silent
  | unprocessed {n : Nat} {st : KwsStream}
      (hafter : After outputSize envs window n st)
      (hmfcc : ((envs n).mfcc (window n)).1 ≠ Retcode.success) :
      After outputSize envs window (n + 1) st
  | processed {n : Nat} {st st' : KwsStream} {retCode : Int}
      (hafter : After outputSize envs window n st)
      (hmfcc : ((envs n).mfcc (window n)).1 = Retcode.success)
      (hexecutes : Executes cast means stds
        (int32s ((List.range outputSize).map (envs n).process.output))
        ((envs n).mfcc (window n)).2 st retCode st') :
      After outputSize envs window (n + 1) st'

/-- A request that is answered. -/
def answer (st : KwsStream) (audio : List (ElemType.Val .uint16))
    (output : List Int32) : KwsStream :=
  (st.hear (kwsFeatures cast means stds audio)).infer.call (.onResult output)

/-- The stream after so many windows from one on, each of which is answered. -/
inductive Answered (outputSize : Nat) (envs : Nat → KwsWindowEnv)
    (window : Nat → List Int16) (first : Nat) (st : KwsStream) :
    Nat → KwsStream → Prop where
  | none : Answered outputSize envs window first st 0 st
  | next {n : Nat} {st' : KwsStream} {audio : List (ElemType.Val .uint16)}
      (h : Answered outputSize envs window first st n st')
      (hdata : ((envs (first + n)).mfcc (window (first + n))).2.data =
        some audio) :
      Answered outputSize envs window first st (n + 1)
        (st'.answer cast means stds audio (int32s
          ((List.range outputSize).map (envs (first + n)).process.output)))

variable {cast means stds}

/-- The callback is given the model's output for each window, in order. -/
theorem Answered.events {outputSize : Nat} {envs : Nat → KwsWindowEnv}
    {window : Nat → List Int16} {first n : Nat} {st st' : KwsStream}
    (h : Answered cast means stds outputSize envs window first st n st') :
    st'.events = st.events ++ (List.range n).map fun k =>
      .onResult (int32s ((List.range outputSize).map
        (envs (first + k)).process.output)) := by
  induction h with
  | none => exact (List.append_nil _).symm
  | @next n st' audio h hdata ih =>
      show st'.events ++ [_] = _
      rw [ih, List.range_succ, List.map_append, List.append_assoc]
      rfl

theorem Answered.given {outputSize : Nat} {envs : Nat → KwsWindowEnv}
    {window : Nat → List Int16} {first n : Nat} {st st' : KwsStream}
    (h : Answered cast means stds outputSize envs window first st n st') :
    ∃ inputs, st'.given = st.given ++ inputs ∧ inputs.length = n := by
  induction h with
  | none => exact ⟨[], (List.append_nil _).symm, rfl⟩
  | @next n st' audio h hdata ih =>
      obtain ⟨inputs, hgiven, hlen⟩ := ih
      refine ⟨inputs ++ [(st'.heard ++ kwsFeatures cast means stds audio).rtake
        (defaultSlideWindowSize * DataType.int32.size)], ?_, ?_⟩
      · rw [← List.append_assoc, ← hgiven]
        rfl
      · rw [List.length_append, hlen, List.length_singleton]

theorem After.congr {outputSize : Nat} {envs : Nat → KwsWindowEnv}
    {window window' : Nat → List Int16} {n : Nat} {st : KwsStream}
    (h : After cast means stds outputSize envs window n st)
    (hsame : ∀ k, k < n → window k = window' k) :
    After cast means stds outputSize envs window' n st := by
  induction h with
  | silent => exact .silent
  | @unprocessed n st hafter hmfcc ih =>
      rw [hsame n (Nat.lt_succ_self n)] at hmfcc
      exact .unprocessed (ih fun k hk => hsame k (Nat.lt_succ_of_lt hk)) hmfcc
  | @processed n st st' retCode hafter hmfcc hexecutes ih =>
      rw [hsame n (Nat.lt_succ_self n)] at hmfcc hexecutes
      exact .processed (ih fun k hk => hsame k (Nat.lt_succ_of_lt hk)) hmfcc
        hexecutes

end

end KwsStream

/-! ## The plugin and one handle

Calls for other handles change neither the voice of this one nor what its
model was given. A call for this handle makes it hear a window or not, and
then infer or not. -/

/-- The call is a request for the handle, or releases it. -/
def KWSCall.Concerns (a : Abi) (handle : Int) : KWSCall → Prop
  | .prepare _ _ => False
  | .syncProcess none _ => False
  | .syncProcess (some inputInfo) env =>
      ∃ audio, decodeAudio a env.decodeHeap inputInfo = .ok (handle, audio)
  | .release _ inputInfo env =>
      decodeHandle a env.heap inputInfo = .ok handle

/-- The model inputs of a handle. -/
def givenTo (handle : Int) (invoked : List (Int × List UInt8)) :
    List (List UInt8) :=
  (invoked.filter (·.1 = handle)).map (·.2)

theorem givenTo_append (handle : Int) (xs ys : List (Int × List UInt8)) :
    givenTo handle (xs ++ ys) = givenTo handle xs ++ givenTo handle ys := by
  simp [givenTo]

/-- The plugin has the voice for the handle, and its models ran as before and
then, for the handle, on the inputs. -/
structure Attends (a : Abi) (handle : Int)
    (before : List (Int × List UInt8)) (voice : KwsVoice)
    (given : List (List UInt8)) (l : KwsListener) : Prop where
  voice : l.voices.lookup handle = some voice
  adapter : l.adapter = true
  invoked : ∃ more, l.invoked = before ++ more ∧ givenTo handle more = given

section

variable {a : Abi} {cast : Cast} {atof : List UInt8 → Float32}
variable {handle : Int} {before : List (Int × List UInt8)} {voice : KwsVoice}
variable {given : List (List UInt8)} {l l' : KwsListener}

theorem Attends.inferred (h : Attends a handle before voice given l)
    (input : List UInt8) {voices : Table Int KwsVoice} {voice' : KwsVoice}
    (hvoice : voices.lookup handle = some voice') :
    Attends a handle before voice' (given ++ [input])
      { l with voices, invoked := l.invoked ++ [(handle, input)] } := by
  obtain ⟨more, hinvoked, hgiven⟩ := h.invoked
  refine ⟨hvoice, h.adapter, more ++ [(handle, input)], ?_, ?_⟩
  · rw [hinvoked, List.append_assoc]
  · rw [givenTo_append, hgiven]
    simp [givenTo]

theorem Attends.insert_other (h : Attends a handle before voice given l)
    {other : Int} (hother : handle ≠ other) (v : KwsVoice) :
    Attends a handle before voice given
      { l with voices := l.voices.insert other v } := by
  refine ⟨?_, h.adapter, h.invoked⟩
  show (Finmap.insert other v l.voices).lookup handle = _
  rw [Table.lookup_insert_if, if_neg hother, h.voice]

theorem Attends.infer_other (h : Attends a handle before voice given l)
    {env : KWSProcessEnv} {other : Int} (hother : other ≠ handle)
    {v : KwsVoice} {answer : KWSAnswer}
    (hrun : l.infer a env other v = .ok (answer, l')) :
    Attends a handle before voice given l' := by
  have hran : Attends a handle before voice given
      { l with invoked := l.invoked ++ [(other, v.window)] } := by
    obtain ⟨more, hinvoked, hgiven⟩ := h.invoked
    refine ⟨h.voice, h.adapter, more ++ [(other, v.window)], ?_, ?_⟩
    · rw [hinvoked, List.append_assoc]
    · rw [givenTo_append, hgiven]
      simp [givenTo, hother]
  simp only [KwsListener.infer] at hrun
  split at hrun
  · cases hrun
    exact h
  split at hrun
  · cases hrun
    exact hran
  obtain ⟨r, -, hrun⟩ := Outcome.bind_eq_ok.mp hrun
  split at hrun
  · cases hrun
    exact hran
  · cases hrun
    exact hran

/-- A call that does not concern the handle leaves it alone. -/
theorem Attends.call_other (h : Attends a handle before voice given l)
    {c : KWSCall} (hapart : ¬ c.Concerns a handle) {answer : KWSAnswer}
    (hrun : l.call a cast atof c = .ok (answer, l')) :
    Attends a handle before voice given l' := by
  cases c with
  | prepare env outputInfo =>
      simp only [KwsListener.call, KwsListener.prepare] at hrun
      split at hrun
      · cases hrun
        exact h
      split at hrun
      · cases hrun
        exact ⟨h.voice, rfl, h.invoked⟩
      split at hrun
      · cases hrun
        exact ⟨h.voice, rfl, h.invoked⟩
      · next other hinit hnew =>
          split at hrun
          · cases hrun
            exact ⟨h.voice, rfl, h.invoked⟩
          · next v hv =>
              obtain ⟨r, -, hrun⟩ := Outcome.bind_eq_ok.mp hrun
              cases hrun
              have hne : handle ≠ other := by
                rintro rfl
                exact hnew (Finmap.lookup_isSome.mp (by rw [h.voice]; rfl))
              rw [Table.insertNew, if_neg hnew]
              exact ⟨(h.insert_other hne v).voice, rfl, h.invoked⟩
  | syncProcess request env =>
      cases request with
      | none =>
          cases hrun
          exact h
      | some inputInfo =>
          simp only [KwsListener.call, KwsListener.syncProcess] at hrun
          split at hrun
          · cases hrun
            exact h
          split at hrun
          · cases hrun
          · cases hrun
            exact h
          · next other audioInput hdecode =>
              have hne : other ≠ handle := by
                rintro rfl
                exact hapart ⟨audioInput, hdecode⟩
              split at hrun
              · cases hrun
                exact h
              · split at hrun
                · cases hrun
                  exact h
                · exact (h.insert_other (Ne.symm hne) _).infer_other hne hrun
  | release isFullUnload inputInfo env =>
      simp only [KwsListener.call, KwsListener.release] at hrun
      split at hrun
      · cases hrun
        exact h
      split at hrun
      · cases hrun
      · cases hrun
        exact h
      · next other hdecode =>
          have hne : handle ≠ other := by
            rintro rfl
            exact hapart hdecode
          split at hrun
          · cases hrun
            exact h
          · cases hrun
            refine ⟨?_, h.adapter, h.invoked⟩
            show (Finmap.erase other l.voices).lookup handle = _
            rw [Finmap.lookup_erase_ne hne, h.voice]

end

theorem encoded_success {x : Outcome (Int × DataInfo) DataInfo}
    {outputInfo : DataInfo} (hx : x.FailsIn UnsuccessfulEnd)
    (hrun : encoded x = .ok (Retcode.success, outputInfo)) :
    x = .ok outputInfo := by
  cases x with
  | ok d =>
      cases hrun
      rfl
  | fail c =>
      obtain ⟨retCode, d⟩ := c
      cases hrun
      exact absurd rfl (hx _ rfl)
  | fault => cases hrun

/-- The voice of a stream. -/
def KwsStream.voice (st : KwsStream) (config : PluginConfig)
    (means stds : List Float32) : KwsVoice := ⟨config, means, stds, st.heard⟩

section

variable {a : Abi} {cast : Cast} {atof : List UInt8 → Float32}
variable {handle : Int} {before : List (Int × List UInt8)}
variable {config : PluginConfig} {means stds : List Float32}
variable {st : KwsStream} {l l' : KwsListener}
variable {retCode : Int} {result : Option DataInfo}

theorem Attends.infer {env : KWSProcessEnv}
    (h : Attends a handle before (st.voice config means stds) st.given l)
    (hrun : l.infer a env handle (st.voice config means stds) =
      .ok (.processed retCode result, l')) :
    (retCode ≠ Retcode.success ∧
        (Attends a handle before (st.voice config means stds) st.given l' ∨
          Attends a handle before (st.voice config means stds)
            st.infer.given l')) ∨
      retCode = Retcode.success ∧
        Attends a handle before (st.voice config means stds)
          st.infer.given l' ∧
        ∃ outputInfo, result = some outputInfo ∧
          KwsListener.result a env handle (st.voice config means stds) =
            .ok outputInfo := by
  have hfailed : Retcode.failure ≠ Retcode.success := by decide
  have hran := h.inferred (st.voice config means stds).window h.voice
  simp only [KwsListener.infer] at hrun
  split at hrun
  · cases hrun
    exact .inl ⟨hfailed, .inl h⟩
  split at hrun
  · cases hrun
    exact .inl ⟨hfailed, .inr hran⟩
  obtain ⟨⟨code, outputInfo⟩, hencode, hrun⟩ := Outcome.bind_eq_ok.mp hrun
  dsimp only at hrun
  split at hrun
  · cases hrun
    exact .inl ⟨hfailed, .inr hran⟩
  · next hsuccess =>
      cases hrun
      obtain rfl := not_not.mp hsuccess
      exact .inr ⟨rfl, hran, outputInfo, rfl,
        encoded_success (processEncode_code _ _) hencode⟩

variable (a cast handle before config means stds) in
/-- How a request for the handle ends. -/
structure Requested (input : CArray .uint16) (env : KWSProcessEnv)
    (st st' : KwsStream) (retCode : Int) (result : Option DataInfo)
    (l' : KwsListener) : Prop where
  reaches : KwsStream.Reaches cast means stds input st st'
  events : st'.events = st.events
  attends :
    Attends a handle before (st'.voice config means stds) st'.given l'
  success : retCode = Retcode.success → ∃ features outputInfo,
    KwsStream.Features cast means stds input features ∧
      st' = (st.hear features).infer ∧ result = some outputInfo ∧
      KwsListener.result a env handle (st'.voice config means stds) =
        .ok outputInfo

theorem Attends.request {heap : Nat → Bool} {dataInfo inputInfo : DataInfo}
    {input : CArray .uint16} {env : KWSProcessEnv}
    (h : Attends a handle before (st.voice config means stds) st.given l)
    (hrange : IntptrRange a handle)
    (hencode : encodeAudio a heap dataInfo handle input = .ok inputInfo)
    (hrun : l.syncProcess a cast (some inputInfo) env =
      .ok (.processed retCode result, l')) :
    ∃ st', Requested a cast handle before config means stds input env st st'
      retCode result l' := by
  have hfailed : Retcode.failure ≠ Retcode.success := by decide
  have hunheard (r : Option DataInfo) :
      Requested a cast handle before config means stds input env st st
        Retcode.failure r l :=
    ⟨.unheard, rfl, h, fun hs => absurd hs hfailed⟩
  obtain ⟨hdata, hlen, hdecode⟩ :=
    decodeAudio_carried hrange hencode env.decodeHeap
  simp only [KwsListener.syncProcess] at hrun
  rw [if_neg (not_or.mpr ⟨hdata, hlen⟩)] at hrun
  rcases hdecode with hfail | hsame
  · rw [hfail] at hrun
    cases hrun
    exact ⟨st, hunheard none⟩
  rw [hsame] at hrun
  dsimp only at hrun
  rw [h.voice] at hrun
  dsimp only at hrun
  split at hrun
  · cases hrun
    exact ⟨st, hunheard none⟩
  · next hsize =>
      have hsize := not_not.mp hsize
      obtain ⟨audio, haudio⟩ : ∃ audio, input.data = some audio := by
        cases hnone : input.data with
        | none =>
            rw [hnone] at hsize
            cases hsize
        | some audio => exact ⟨audio, rfl⟩
      rw [haudio, Option.getD_some] at hsize hrun
      have hfeatures : KwsStream.Features cast means stds input
          (kwsFeatures cast means stds audio) := .mk haudio hsize
      obtain ⟨features, hdef⟩ : ∃ features,
          features = kwsFeatures cast means stds audio := ⟨_, rfl⟩
      rw [← hdef] at hfeatures
      have hheard : Attends a handle before
          ((st.hear features).voice config means stds)
          (st.hear features).given
          { l with
            voices := l.voices.insert handle
              ((st.hear features).voice config means stds) } := by
        refine ⟨?_, h.adapter, h.invoked⟩
        show (Finmap.insert handle _ l.voices).lookup handle = _
        rw [Table.lookup_insert_if, if_pos rfl]
      subst hdef
      rcases hheard.infer hrun with
        ⟨hret, hkept | hran⟩ | ⟨hret, hran, outputInfo, hresult, hencoded⟩
      · exact ⟨_, .heard hfeatures, rfl, hkept, fun hs => absurd hs hret⟩
      · exact ⟨_, .inferred hfeatures, rfl, hran, fun hs => absurd hs hret⟩
      · exact ⟨_, .inferred hfeatures, rfl, hran,
          fun _ => ⟨_, outputInfo, hfeatures, rfl, hresult, hencoded⟩⟩

end

/-! ## Requests that are answered

Where everything is there for a request, nothing but the length of its audio
can be wrong with it.
-/

/-- Everything is there for a request. -/
structure KWSProcessEnv.Serves (env : KWSProcessEnv) : Prop where
  decodeHeap : HeapServes env.decodeHeap
  encodeHeap : HeapServes env.encodeHeap
  normIndices : env.normIndices = true
  convertIndices : env.convertIndices = true
  invoke : env.invoke = Retcode.success

/-- The model takes a window of features, and has an output that is sent
back. -/
structure PluginConfig.Answers (config : PluginConfig) : Prop where
  inputAddr : config.inputAddr ≠ 0
  outputAddr : config.outputAddr ≠ 0
  inputSize : config.inputSize = defaultSlideWindowSize
  outputSize : 0 < config.outputSize
  outputSize_le : config.outputSize * ElemType.int32.size ≤ 2 ^ 30

section

variable {a : Abi} {s : KWSInference} {l : KwsListener} {w : KWSWorker}
variable {v : KwsVoice} {env : KWSProcessEnv}

theorem result_served (hanswers : v.config.Answers) (henv : env.Serves)
    (handle : Int) :
    ∃ outputInfo, KwsListener.result a env handle v = .ok outputInfo :=
  handleArray_served henv.encodeHeap ⟨.null, 0⟩ handle
    ⟨hanswers.outputSize, rfl⟩ hanswers.outputSize_le

theorem makeInference_served (hanswers : v.config.Answers)
    (henv : env.Serves) {output : FeatureData Nat}
    (hwindow : WindowOf v.heard w output)
    (hhears : w.Hears a v.means v.stds v.heard) (hconfig : w.config = v.config)
    {adapter : Option EngineAdapter} (hadapter : adapter.isSome = true)
    (handle : Int) :
    ∃ outputInfo, KWSInference.makeInference a adapter handle
      w.slideProcessor.workBuffer output w.config env ⟨.null, 0⟩ =
        .ok (Retcode.success, outputInfo, some v.window) := by
  obtain ⟨outputInfo, hresult⟩ :=
    result_served (a := a) hanswers henv handle
  have haddr : ¬ (adapter.isNone = true ∨ v.config.inputAddr = 0 ∨
      v.config.outputAddr = 0) := by
    have hsome : ¬ adapter.isNone = true := by
      rw [Option.isNone_iff_eq_none]
      exact Option.isSome_iff_ne_none.mp hadapter
    exact not_or.mpr ⟨hsome, not_or.mpr
      ⟨hanswers.inputAddr, hanswers.outputAddr⟩⟩
  refine ⟨outputInfo, ?_⟩
  rw [hconfig, makeInference_eq hwindow hhears, if_neg haddr,
    if_neg (not_not.mpr hanswers.inputSize),
    if_neg (not_not.mpr henv.invoke), hresult]
  rfl

theorem Listens.syncProcess_served (cast : Cast) (h : Listens a s l)
    {handle : Int} (hvoice : l.voices.lookup handle = some v)
    (hadapter : l.adapter = true) (hanswers : v.config.Answers)
    (henv : env.Serves) {heap : Nat → Bool} {dataInfo inputInfo : DataInfo}
    {input : CArray .uint16} (hrange : IntptrRange a handle)
    (hencode : encodeAudio a heap dataInfo handle input = .ok inputInfo)
    {audio : List (ElemType.Val .uint16)} (hdata : input.data = some audio)
    (hlen : audio.length = defaultSlideStepSize) :
    ∃ outputInfo s', s.syncProcess a cast (some inputInfo) env =
      .ok (Retcode.success, some outputInfo, s') := by
  obtain ⟨hnull, hlength, -⟩ := decodeAudio_carried hrange hencode
    env.decodeHeap
  have hdecode := decodeAudio_served hrange hencode henv.decodeHeap
  have hvoiced := h.voices handle
  rw [hvoice] at hvoiced
  generalize hw : s.plugin.handles.lookup handle = found at hvoiced
  cases hvoiced with
  | @some w _ hconfig hhears =>
      have hheld : (env.normIndices && env.convertIndices) = true := by
        rw [henv.normIndices, henv.convertIndices]
        rfl
      rcases getNormedFeatures_ok cast hhears hdata hlen env with
        ⟨hno, -⟩ | ⟨output, w', hrun, hsame, hhears', hwindow⟩
      · rw [hheld] at hno
        cases hno
      have hconfig' : w'.config = v.config :=
        (congrArg KWSWorkplace.config hsame).trans hconfig
      obtain ⟨outputInfo, hinfer⟩ := makeInference_served
        (v := { v with
          heard := v.heard ++ kwsFeatures cast v.means v.stds audio })
        hanswers henv hwindow hhears' hconfig' (h.adapter.trans hadapter)
        handle
      refine ⟨outputInfo, ?_⟩
      simp only [KWSInference.syncProcess]
      rw [if_neg (not_or.mpr ⟨hnull, hlength⟩), hdecode]
      dsimp only
      rw [hw]
      dsimp only
      rw [hrun, Outcome.ok_bind]
      dsimp only
      rw [if_neg (not_not.mpr rfl), hinfer]
      exact ⟨_, rfl⟩

end

end AiEngine.Ref
