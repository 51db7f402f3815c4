import AiEngine.Proofs.EncdecFailures

/-!
# What one process encodes and another decodes

Both may run out of memory on the way. A request that is refused ends the
encoding or the decoding with an error, and never changes what comes out of
it: if the one ends well, its output is the encoding, and if the other does,
the parameters are those that were encoded.
-/

namespace AiEngine.Ref

open AiEngine.Lib

variable {a : Abi} {heap : Nat → Bool}

/-! ## Encoding

An allocator that may refuse at any point: either the whole encoding comes
out, as if every request had been served, or the code is one of a failure and
nothing does. -/

/-- What a call that appends `ws` leaves where it ends well. -/
theorem encodingEnd_written {dataInfo dataInfo' : DataInfo}
    {ws : List (List UInt8)}
    (hok : encodingEnd a heap dataInfo ws = .ok dataInfo') :
    dataInfo' = ⟨.block (Format.encFramed a.wordSize ws.flatten),
        (Format.encFramed a.wordSize ws.flatten).length⟩ ∧
      (Format.encFramed a.wordSize ws.flatten).length ≤ intMax := by
  rw [encodingEnd] at hok
  split at hok
  · cases hrun : BlockSizes.init.run a heap
        (ws.map List.length ++ [a.wordSize]) with
    | ok s =>
        have hpos : s.pos =
            (Format.encFramed a.wordSize ws.flatten).length := by
          rw [BlockSizes.run_pos hrun, List.sum_append, length_encFramed,
            List.length_flatten]
          simp [BlockSizes.init]
        rw [hrun, serializedEnd, hpos] at hok
        split at hok
        · cases hok
        · next hmax =>
            split at hok
            · cases hok
              exact ⟨rfl, Nat.le_of_not_lt hmax⟩
            · cases hok
    | fail c =>
        rw [hrun] at hok
        cases hok
    | fault =>
        rw [hrun] at hok
        cases hok
  · cases hok

theorem processEncode_written {dataInfo dataInfo' : DataInfo}
    {args : List Param} (hargs : ∀ p ∈ args, encodable p)
    (hok : processEncode a heap dataInfo args = .ok dataInfo') :
    dataInfo' = ⟨.block (encoding a args), (encoding a args).length⟩ ∧
      (encoding a args).length ≤ intMax := by
  rw [processEncode_end hargs] at hok
  have hwritten := encodingEnd_written hok
  rwa [flatten_writes hargs, ← encoding.eq_1] at hwritten

/-- An array that is null or empty is not encoded. -/
theorem processEncode_refused {dataInfo dataInfo' : DataInfo} {n : Nat}
    {v : Vector UInt8 n} {t : ElemType} {val : CArray t}
    (hok : processEncode a heap dataInfo [⟨.fixed n, v⟩, ⟨.array t, val⟩] =
      .ok dataInfo') :
    encodable ⟨.array t, val⟩ := by
  obtain ⟨e, -, hok⟩ := Outcome.bind_eq_ok.mp hok
  obtain ⟨e₁, hrun, -⟩ := Outcome.bind_eq_ok.mp hok
  have hrun := Outcome.mapFail_eq_ok.mp hrun
  obtain ⟨e₂, -, hrun⟩ := Outcome.bind_eq_ok.mp hrun
  obtain ⟨e₃, harray, -⟩ := Outcome.bind_eq_ok.mp hrun
  simp only [DataEncoder.encodeOneParameter, DataEncoder.encodeArray]
    at harray
  split at harray
  · cases harray
  · next xs hdata =>
      split at harray
      · cases harray
      · next hsize =>
          exact ⟨Nat.pos_of_ne_zero hsize, by rw [hdata]; rfl⟩

/-- What the encoder returns when it does not succeed. -/
def Unsuccessful (c : Int) : Prop := c ≠ Retcode.success

/-- It is returned with what is left of the caller's output. -/
def UnsuccessfulEnd (r : Int × DataInfo) : Prop := Unsuccessful r.1

theorem failure_unsuccessful : Unsuccessful Retcode.failure :=
  show Retcode.failure ≠ Retcode.success by decide

theorem outOfMemory_unsuccessful : Unsuccessful Retcode.outOfMemory :=
  show Retcode.outOfMemory ≠ Retcode.success by decide

theorem memoryCopyFailure_unsuccessful :
    Unsuccessful Retcode.memoryCopyFailure :=
  show Retcode.memoryCopyFailure ≠ Retcode.success by decide

theorem mapFail_code {α ε : Type} {x : Outcome Int α} {e : ε} {P : ε → Prop}
    (he : P e) : (x.mapFail fun _ => e).FailsIn P :=
  .mapFail (P := fun _ => True) (fun _ _ => trivial) fun _ _ => he

theorem append_code (e : DataEncoder) (bs : List UInt8) :
    (e.append a heap bs).FailsIn Unsuccessful := by
  refine (mapFail_code failure_unsuccessful).bind fun e => ?_
  split
  · exact .fault
  · exact (mapFail_code failure_unsuccessful).bind fun _ => .ok _

theorem encodeFixed_code (e : DataEncoder) (bs : List UInt8) :
    (e.encodeFixed a heap bs).FailsIn Unsuccessful := by
  unfold DataEncoder.encodeFixed
  split
  · exact .fail failure_unsuccessful
  split
  · exact .fail failure_unsuccessful
  · exact append_code e bs

theorem encodeElems_code {t : ElemType} (xs : List t.Val) :
    ∀ e : DataEncoder, (e.encodeElems a heap t xs).FailsIn Unsuccessful := by
  induction xs with
  | nil => exact fun _ => .ok _
  | cons x xs ih => exact fun e => (encodeFixed_code e _).bind ih

theorem encodeOneParameter_code (e : DataEncoder) (p : Param) :
    (e.encodeOneParameter a heap p).FailsIn Unsuccessful := by
  obtain ⟨t, v⟩ := p
  cases t with
  | fixed n => exact encodeFixed_code e _
  | string =>
      simp only [DataEncoder.encodeOneParameter, DataEncoder.encodeString]
      split
      · exact .fail failure_unsuccessful
      split
      · exact encodeFixed_code e _
      · exact (mapFail_code failure_unsuccessful).bind
          fun e => append_code e v
  | array t =>
      simp only [DataEncoder.encodeOneParameter, DataEncoder.encodeArray]
      split
      · exact .fail failure_unsuccessful
      split
      · exact .fail failure_unsuccessful
      · exact (encodeFixed_code e _).bind (encodeElems_code _)

theorem recursiveEncode_code (args : List Param) :
    ∀ e : DataEncoder,
      (e.recursiveEncode a heap args).FailsIn Unsuccessful := by
  induction args with
  | nil => exact fun _ => .ok _
  | cons p ps ih => exact fun e => (encodeOneParameter_code e p).bind ih

theorem encodingEnd_code (dataInfo : DataInfo) (ws : List (List UInt8)) :
    (encodingEnd a heap dataInfo ws).FailsIn UnsuccessfulEnd := by
  rw [encodingEnd]
  split
  · cases BlockSizes.init.run a heap (ws.map List.length ++ [a.wordSize]) with
    | ok s =>
        simp only [serializedEnd]
        split
        · exact .fail failure_unsuccessful
        split
        · exact .ok _
        · exact .fail outOfMemory_unsuccessful
    | fail c => exact .fail failure_unsuccessful
    | fault => exact .fault
  · exact .fail outOfMemory_unsuccessful

theorem getSerializedData_code (e : DataEncoder) (dataInfo : DataInfo) :
    (e.getSerializedData a heap dataInfo).FailsIn UnsuccessfulEnd := by
  have hfailure : UnsuccessfulEnd (Retcode.failure, dataInfo) :=
    failure_unsuccessful
  have hcopy : UnsuccessfulEnd (Retcode.memoryCopyFailure, ⟨.null, 0⟩) :=
    memoryCopyFailure_unsuccessful
  refine (mapFail_code hfailure).bind fun e => ?_
  split
  · exact .fail failure_unsuccessful
  split
  · exact .fail failure_unsuccessful
  split
  · exact .fail failure_unsuccessful
  split
  · exact (mapFail_code hcopy).bind fun _ => .ok _
  · exact .fail outOfMemory_unsuccessful

theorem processEncode_code (dataInfo : DataInfo) (args : List Param) :
    (processEncode a heap dataInfo args).FailsIn UnsuccessfulEnd := by
  have hinit : (DataEncoder.init a heap).FailsIn Unsuccessful := by
    refine Outcome.FailsIn.bind (fun c hc => ?_) fun b => ?_
    · rw [allocateMemBlock_eq heap 0 (by
        have := a.sizeMod_ge
        simp only [initBufferSize]
        omega)] at hc
      split at hc
      · split at hc
        · cases hc
        · cases hc
      · cases hc
    · split
      · exact .fail outOfMemory_unsuccessful
      · exact .ok _
  have hpaired (c : Int) (hc : Unsuccessful c) :
      UnsuccessfulEnd (c, dataInfo) := hc
  refine (hinit.mapFail hpaired).bind fun e => ?_
  refine ((recursiveEncode_code args e).mapFail hpaired).bind fun e => ?_
  refine (getSerializedData_code e dataInfo).bind fun dataInfo => ?_
  split
  · exact .fail failure_unsuccessful
  · exact .ok _

/-! ## Decoding

Objects that are allocated for what is decoded may be refused as well. A
decoder that gets through has decoded what it would have with every request
served. -/

/-- It ends with an error, or as it does with all requests served. -/
def AsServed {α : Type} (x y : Outcome Int α) : Prop :=
  x = .fail Retcode.failure ∨ x = y

theorem AsServed.bind {α β : Type} {x y : Outcome Int α}
    {f g : α → Outcome Int β} (hxy : AsServed x y)
    (hfg : ∀ v, AsServed (f v) (g v)) : AsServed (x >>= f) (y >>= g) := by
  rcases hxy with hfail | rfl
  · rw [hfail]
    exact .inl rfl
  · cases x with
    | ok v => exact hfg v
    | fail c => exact .inr rfl
    | fault => exact .inr rfl

theorem decodeArray_asServed {t : ElemType} (d : DataDecoder)
    (val : CArray t) :
    AsServed (d.decodeArray a heap val)
      (d.decodeArray a (fun _ => true) val) := by
  unfold DataDecoder.decodeArray
  split
  · exact .inr rfl
  · refine AsServed.bind (.inr rfl) ?_
    intro r
    cases hserved : heap r.2.allocs with
    | false =>
        left
        simp [hserved]
    | true =>
        right
        simp [hserved]

theorem decodeOneParameter_asServed (d : DataDecoder) (p : Param) :
    AsServed (d.decodeOneParameter a heap p)
      (d.decodeOneParameter a (fun _ => true) p) := by
  obtain ⟨t, v⟩ := p
  cases t with
  | fixed n => exact .inr rfl
  | string => exact .inr rfl
  | array t => exact (decodeArray_asServed d v).bind fun _ => .inr rfl

theorem recursiveDecode_asServed (heap : Nat → Bool) (args : List Param) :
    ∀ d : DataDecoder, AsServed (d.recursiveDecode a heap args)
      (d.recursiveDecode a (fun _ => true) args) := by
  induction args with
  | nil => exact fun _ => .inr rfl
  | cons p ps ih =>
      intro d
      refine (decodeOneParameter_asServed d p).bind fun r => ?_
      exact (ih r.2).bind fun _ => .inr rfl

theorem processDecode_asServed (heap : Nat → Bool) (dataInfo : DataInfo)
    (args : List Param) :
    AsServed (processDecode a heap dataInfo args)
      (processDecode a (fun _ => true) dataInfo args) := by
  unfold processDecode
  split
  · exact .inr rfl
  · exact .inr rfl
  · next buffer hdata =>
      split
      · exact .inr rfl
      · refine AsServed.bind ?_ fun _ => .inr rfl
        rcases recursiveDecode_asServed heap args
          (⟨buffer, a.sizeT dataInfo.length.toNat, 0, 0⟩ : DataDecoder) with
          hfail | hsame
        · rw [hfail]
          exact .inl rfl
        · rw [hsame]
          exact .inr rfl

/-- What was encoded is refused, or decoded to what it was. -/
theorem processDecode_written {args : List Param}
    (hargs : ∀ p ∈ args, encodable p)
    (hmax : (encoding a args).length ≤ intMax) :
    AsServed (processDecode a heap
      ⟨.block (encoding a args), (encoding a args).length⟩ (freshFor args))
      (.ok args) := by
  have hserved := processDecode_encoding (a := a)
    (show HeapServes fun _ => true from fun _ => rfl) hargs hmax
  have heither := processDecode_asServed (a := a) heap
    ⟨.block (encoding a args), (encoding a args).length⟩ (freshFor args)
  rwa [hserved] at heither

end AiEngine.Ref
