import AiEngine.Lib.Format
import AiEngine.Proofs.EncdecGrowth

/-!
# The decoder reads a format

Each `DecodeOneParameter` is the reader of a self-delimiting format, applied
to the bytes behind the cursor: it answers the same value, leaves the cursor
where the format's rest begins, and fails where the format rejects. `Reads`
says so for one call, and it composes the way the calls do, so
`ProcessDecode` as a whole is the framed reader of the format library.

The point to check in each case is the cursor arithmetic, which the code
does in `size_t`. The lengths come out of the buffer and can be anything up
to the range; `Ensure` compares the length alone before it adds, and a
buffer of at most `INT_MAX` bytes leaves no room for the sum to wrap.
-/

namespace AiEngine.Ref

open AiEngine.Lib

theorem pow_elemSize (t : ElemType) : 256 ^ t.size = 2 ^ (8 * t.size) := by
  cases t <;> rfl

/-- One array element, in the bytes of its type. -/
def elemFormat (t : ElemType) : Format UInt8 t.Val :=
  (Format.word t.size).iso (BitVec.ofNat (8 * t.size)) BitVec.toNat
    (fun x hx => by
      rw [BitVec.toNat_ofNat, ← pow_elemSize, Nat.mod_eq_of_lt hx])

/-- The array that owns exactly these elements. -/
def CArray.ofList {t : ElemType} (xs : List t.Val) : CArray t :=
  ⟨some xs, xs.length, by rintro _ ⟨⟩; rfl⟩

theorem CArray.eq_ofList {t : ElemType} {c : CArray t} {xs : List t.Val}
    (h : c.data = some xs) : c = CArray.ofList xs := by
  obtain ⟨data, size, owns⟩ := c
  cases h
  obtain rfl := owns xs rfl
  rfl

/-- `Array<T>`: a count, then the elements. A null array has no spelling. -/
def arrayFormat (a : Abi) (t : ElemType) : Format UInt8 (CArray t) :=
  (Format.counted a.wordSize (elemFormat t)).iso CArray.ofList
    (fun c => c.data.getD []) (fun _ _ => rfl)

/-- The format of a parameter, by its static type. -/
def paramFormat (a : Abi) : (t : ParamType) → Format UInt8 t.Val
  | .fixed n => Format.block n
  | .string => Format.counted a.wordSize Format.symbol
  | .array t => arrayFormat a t

theorem elemFormat_valid {t : ElemType} (x : t.Val) :
    (elemFormat t).valid x := by
  refine ⟨?_, ?_⟩
  · show x.toNat < 256 ^ t.size
    rw [pow_elemSize]
    exact x.isLt
  · exact (BitVec.ofNat_toNat _ _).trans (BitVec.setWidth_eq x)

theorem length_elemFormat {t : ElemType} (x : t.Val) :
    ((elemFormat t).enc x).length = t.size :=
  length_leBytes _ _

/-! ## One read

`Reads` says that a function of the decoder agrees with a format: it takes
what the format takes and throws where the format has nothing. Sequences of
reads follow by `Reads.bind`. -/

/-- The cursor is inside a buffer of a legal size. -/
structure DataDecoder.Wf (d : DataDecoder) : Prop where
  size : d.size = d.buffer.length
  max : d.size ≤ intMax
  pos : d.pos ≤ d.size

/-- The bytes behind the cursor. -/
def DataDecoder.rest (d : DataDecoder) : List UInt8 := d.buffer.drop d.pos

/-- `x` is the call that reads what `y` is on the bytes behind the cursor of
`d`. -/
def DataDecoder.Reads {α : Type} (d : DataDecoder)
    (x : Outcome Int (α × DataDecoder)) : Option (α × List UInt8) → Prop
  | none => x = .fail Retcode.failure
  | some (v, bs) => ∃ d', x = .ok (v, d') ∧ d'.Wf ∧ d'.rest = bs ∧
      d'.buffer = d.buffer

namespace DataDecoder

variable {α β : Type} {d : DataDecoder}

theorem length_rest (hd : d.Wf) : d.rest.length = d.size - d.pos := by
  rw [rest, List.length_drop, hd.size]

theorem reads_ok (hd : d.Wf) (v : α) : d.Reads (.ok (v, d)) (some (v, d.rest)) :=
  ⟨d, rfl, hd, rfl, rfl⟩

theorem Reads.bind {x : Outcome Int (α × DataDecoder)}
    {y : Option (α × List UInt8)}
    {f : α × DataDecoder → Outcome Int (β × DataDecoder)}
    {g : α × List UInt8 → Option (β × List UInt8)} (hx : d.Reads x y)
    (hf : ∀ (v : α) (d' : DataDecoder), d'.Wf →
      d'.Reads (f (v, d')) (g (v, d'.rest))) :
    d.Reads (x >>= f) (y >>= g) := by
  rcases y with _ | ⟨v, bs⟩
  · rw [show x = .fail Retcode.failure from hx]
    rfl
  · obtain ⟨d', rfl, hd', rfl, hbuf⟩ := hx
    have hrest := hf v d' hd'
    show d.Reads (f (v, d')) (g (v, d'.rest))
    rcases hg : g (v, d'.rest) with _ | ⟨w, bs⟩
    · rw [hg] at hrest
      exact hrest
    · rw [hg] at hrest
      obtain ⟨d'', hok, hd'', hbs, hbuf'⟩ := hrest
      exact ⟨d'', hok, hd'', hbs, hbuf'.trans hbuf⟩

/-- Answering every failure with `RETCODE_FAILURE` changes nothing: that is
the only code a read fails with. -/
theorem Reads.mapFail {x : Outcome Int (α × DataDecoder)}
    {y : Option (α × List UInt8)} (hx : d.Reads x y) :
    d.Reads (x.mapFail fun _ => Retcode.failure) y := by
  rcases y with _ | ⟨v, bs⟩
  · rw [show x = .fail Retcode.failure from hx]
    rfl
  · obtain ⟨d', rfl, h⟩ := hx
    exact ⟨d', rfl, h⟩

/-- `Ensure` says whether the bytes behind the cursor suffice. -/
theorem ensure_iff {a : Abi} (hd : d.Wf) (n : Nat) :
    d.ensure a n = decide (n ≤ d.rest.length) := by
  have hlen := length_rest hd
  have hmax := hd.max
  have hpos := hd.pos
  simp only [intMax] at hmax
  by_cases hn : n ≤ d.size
  · rw [ensure, Abi.sizeT_small (by omega)]
    simp only [hn, decide_true, Bool.true_and, decide_eq_decide]
    omega
  · simp only [ensure, hn, decide_false, Bool.false_and, Bool.false_eq,
      decide_eq_false_iff_not]
    omega

theorem advance {a : Abi} (hd : d.Wf) {n : Nat} (hn : n ≤ d.rest.length) :
    ({ d with pos := a.sizeT (d.pos + n) } : DataDecoder).Wf ∧
      ({ d with pos := a.sizeT (d.pos + n) } : DataDecoder).rest =
        d.rest.drop n := by
  have hmax := hd.max
  have hpos := hd.pos
  rw [length_rest hd] at hn
  simp only [intMax] at hmax
  rw [Abi.sizeT_small (by omega)]
  refine ⟨⟨hd.size, hd.max, ?_⟩, ?_⟩
  · show d.pos + n ≤ d.size
    omega
  · simp only [rest, List.drop_drop]

theorem load_rest (hd : d.Wf) {n : Nat} (hn : n ≤ d.rest.length) :
    ∃ v, load d.buffer d.pos n = some v ∧ v.toList = d.rest.take n := by
  rw [length_rest hd] at hn
  have hpos := hd.pos
  have hfit : d.pos + n ≤ d.buffer.length := by
    rw [← hd.size]
    omega
  obtain ⟨v, hv⟩ := load_isSome hfit
  exact ⟨v, hv, (load_spec hv).2⟩

section

variable {a : Abi}

theorem decodeFixed_reads (hd : d.Wf) {n : Nat} (hn : 0 < n) :
    d.Reads (d.decodeFixed a n) ((Format.block n).dec d.rest) := by
  have hzero : n ≠ 0 := by omega
  by_cases hle : n ≤ d.rest.length
  · have hcount : memcpyOk n n = true := by
      have := length_rest hd
      have := hd.max
      exact memcpyOk_self hn (by omega)
    obtain ⟨v, hload, hv⟩ := load_rest hd hle
    obtain ⟨hwf, hrest⟩ := advance (a := a) hd hle
    have hblock : (Format.block n).dec d.rest = some (v, d.rest.drop n) := by
      simp only [Format.block, dif_pos hle, Option.some.injEq, Prod.mk.injEq,
        and_true]
      apply Vector.toList_inj.mp
      rw [hv]
      simp
    rw [hblock]
    refine ⟨_, ?_, hwf, hrest, rfl⟩
    simp [decodeFixed, hzero, ensure_iff hd, hle, hcount, hload]
  · have hblock : (Format.block n).dec d.rest = none := by
      simp only [Format.block, dif_neg hle]
    rw [hblock]
    show d.decodeFixed a n = .fail Retcode.failure
    simp [decodeFixed, hzero, ensure_iff hd, hle]

theorem word_dec_block (n : Nat) (bs : List UInt8) :
    (Format.word n).dec bs =
      ((Format.block n).dec bs >>= fun r => some (leNat r.1.toList, r.2)) := by
  simp only [Format.word, Format.block]
  split <;> simp

theorem decodeSize_reads (hd : d.Wf) :
    d.Reads (d.decodeSize a) ((Format.word a.wordSize).dec d.rest) := by
  rw [word_dec_block]
  refine (decodeFixed_reads hd a.wordSize_pos).bind ?_
  intro v d' hd'
  exact reads_ok hd' _

theorem decodeString_reads (hd : d.Wf) :
    d.Reads (d.decodeString a) ((paramFormat a .string).dec d.rest) := by
  refine (decodeSize_reads hd).mapFail.bind ?_
  rintro len d' hd'
  show d'.Reads _ (Format.symbol.decList len d'.rest)
  rw [Format.decList_symbol]
  by_cases hzero : len = 0
  · subst hzero
    simpa using reads_ok hd' []
  · by_cases hle : len ≤ d'.rest.length
    · obtain ⟨v, hload, hv⟩ := load_rest hd' hle
      obtain ⟨hwf, hrest⟩ := advance (a := a) hd' hle
      rw [if_pos hle]
      refine ⟨_, ?_, hwf, hrest, rfl⟩
      simp [hzero, ensure_iff hd', hle, hload, hv]
    · rw [if_neg hle]
      show _ = _
      simp [hzero, ensure_iff hd', hle]

theorem elem_dec_block (t : ElemType) (bs : List UInt8) :
    (elemFormat t).dec bs =
      ((Format.block t.size).dec bs >>= fun r =>
        some (BitVec.ofNat (8 * t.size) (leNat r.1.toList), r.2)) := by
  simp only [elemFormat, Format.iso, word_dec_block]
  cases (Format.block t.size).dec bs <;> rfl

/-- The element loop reads as many elements as it is told. -/
theorem decodeElems_reads (t : ElemType) (n : Nat) (hd : d.Wf) :
    d.Reads (d.decodeElems a t n >>= fun r => .ok (r.1.1, r.2))
      ((elemFormat t).decList n d.rest) := by
  induction n generalizing d with
  | zero => exact reads_ok hd _
  | succ n ih =>
      have hsize : 0 < t.size := by cases t <;> decide
      rw [Format.decList, elem_dec_block]
      simp only [decodeElems, bind_assoc]
      refine (decodeFixed_reads hd hsize).mapFail.bind ?_
      intro v d' hd'
      -- The rest of the loop is the loop for `n`, with an element in front.
      have hrest := (ih hd').bind (f := fun r =>
          .ok (BitVec.ofNat (8 * t.size) (leNat v.toList) :: r.1, r.2))
        (g := fun r =>
          some (BitVec.ofNat (8 * t.size) (leNat v.toList) :: r.1, r.2))
        fun xs d'' hd'' => reads_ok hd'' _
      simp only [bind_assoc, Outcome.ok_bind] at hrest ⊢
      exact hrest

theorem decList_elem_none {t : ElemType} {n : Nat} {bs : List UInt8}
    (h : bs.length < n * t.size) : (elemFormat t).decList n bs = none := by
  rw [Option.eq_none_iff_forall_ne_some]
  rintro ⟨xs, rest⟩ hdec
  obtain ⟨hbs, hlen, -⟩ := (elemFormat t).encList_decList hdec
  have hsize := Format.length_encList (f := elemFormat t) length_elemFormat xs
  rw [hbs, List.length_append, hsize, hlen] at h
  omega

theorem array_dec (t : ElemType) (bs : List UInt8) :
    (paramFormat a (.array t)).dec bs =
      ((Format.word a.wordSize).dec bs >>= fun r =>
        (elemFormat t).decList r.1 r.2 >>= fun s =>
          some (CArray.ofList s.1, s.2)) := by
  simp only [paramFormat, arrayFormat, Format.iso, Format.counted]
  cases hw : (Format.word a.wordSize).dec bs with
  | none => rfl
  | some r =>
      simp only [Option.bind_eq_bind, Option.bind_some]
      cases (elemFormat t).decList r.1 r.2 <;> rfl

theorem decodeArray_reads {heap : Nat → Bool} (hheap : HeapServes heap)
    {t : ElemType} {val : CArray t} (hval : val.size = 0 ∧ val.data = none)
    (hd : d.Wf) :
    d.Reads (d.decodeArray a heap val)
      ((paramFormat a (.array t)).dec d.rest) := by
  simp only [decodeArray, hval.1, hval.2, ne_eq, not_true_eq_false,
    decide_false, Option.isSome_none, Bool.or_false, Bool.false_eq_true,
    if_false]
  rw [array_dec]
  refine (decodeSize_reads hd).mapFail.bind ?_
  intro size d' hd'
  have hlen := length_rest hd'
  have hmax := hd'.max
  simp only [hheap d'.allocs, Bool.true_and, decide_eq_true_eq]
  by_cases hfit : size * t.size < a.sizeMod
  · rw [if_pos hfit]
    have hd'' : ({ d' with allocs := d'.allocs + 1 } : DataDecoder).Wf :=
      ⟨hd'.size, hd'.max, hd'.pos⟩
    have hrun := (decodeElems_reads (a := a) t size hd'').bind
      (f := fun r => .ok (CArray.ofList r.1, r.2))
      (g := fun r => some (CArray.ofList r.1, r.2))
      fun xs d₃ hd₃ => reads_ok hd₃ _
    have howned : ∀ xs : { xs : List t.Val // xs.length = size },
        (⟨some xs.1, size, by rintro _ ⟨⟩; exact xs.2⟩ : CArray t) =
          CArray.ofList xs.1 := fun xs => CArray.eq_ofList rfl
    simp only [bind_assoc, Outcome.ok_bind] at hrun
    simp only [howned]
    exact hrun
  · -- More elements than `size_t` can count bytes: `new` fails in the code,
    -- and the buffer has nowhere near that many in the format.
    rw [if_neg hfit]
    have hmod := a.sizeMod_ge
    simp only [intMax] at hmax
    have hnone : (elemFormat t).decList size d'.rest = none :=
      decList_elem_none (by omega)
    simp only [hnone]
    rfl

end

end DataDecoder

/-- Storage `DecodeOneParameter` takes: an object of at least one byte, a
string, or an array that holds nothing yet. -/
def storageOk : Param → Prop
  | ⟨.fixed n, _⟩ => 0 < n
  | ⟨.string, _⟩ => True
  | ⟨.array _, val⟩ => val.size = 0 ∧ val.data = none

/-- Reading arrays allocates; nothing else does. -/
def allocatesFor (heap : Nat → Bool) (args : List Param) : Prop :=
  ∀ t val, (⟨.array t, val⟩ : Param) ∈ args → HeapServes heap

namespace DataDecoder

variable {a : Abi} {heap : Nat → Bool} {d : DataDecoder}

theorem decodeOneParameter_reads {p : Param} (hp : storageOk p)
    (hheap : allocatesFor heap [p]) (hd : d.Wf) :
    d.Reads (d.decodeOneParameter a heap p)
      ((paramFormat a p.1).dec d.rest >>= fun r => some (⟨p.1, r.1⟩, r.2)) := by
  obtain ⟨t, v⟩ := p
  cases t with
  | fixed n => exact (decodeFixed_reads hd hp).bind fun v d' hd' => reads_ok hd' _
  | string => exact (decodeString_reads hd).bind fun v d' hd' => reads_ok hd' _
  | array t =>
      have hheap := hheap t v (by simp)
      exact (decodeArray_reads hheap hp hd).bind fun v d' hd' => reads_ok hd' _

theorem recursiveDecode_reads {args : List Param}
    (hargs : ∀ p ∈ args, storageOk p) (hheap : allocatesFor heap args)
    (hd : d.Wf) :
    d.Reads (d.recursiveDecode a heap args)
      (Format.decAll (paramFormat a) (args.map Sigma.fst) d.rest) := by
  induction args generalizing d with
  | nil => exact reads_ok hd []
  | cons p ps ih =>
      have hone := decodeOneParameter_reads (a := a) (hargs p (by simp))
        (fun t v hm => hheap t v (by simp_all)) hd
      have hrun := hone.bind (f := fun r => r.2.recursiveDecode a heap ps >>=
          fun s => .ok (r.1 :: s.1, s.2))
        (g := fun r => Format.decAll (paramFormat a) (ps.map Sigma.fst) r.2 >>=
          fun s => some (r.1 :: s.1, s.2))
        fun q d' hd' => (ih (fun q hq => hargs q (by simp [hq]))
          (fun t v hm => hheap t v (by simp [hm])) hd').bind
          fun qs d'' hd'' => reads_ok hd'' _
      simp only [bind_assoc] at hrun
      exact hrun

/-- The sum `CheckDataEnd` compares can wrap, but then it is less than a
word, which no position behind the trailer is. -/
theorem trailer_value {x pos : Nat}
    (h : a.sizeT (x + a.wordSize) = pos + a.wordSize) (hx : x < a.sizeMod) :
    x = pos := by
  have hmod := a.sizeMod_ge
  have hword := a.wordSize_le
  by_cases hfit : x + a.wordSize < a.sizeMod
  · rw [Abi.sizeT_of_lt hfit] at h
    omega
  · rw [Abi.sizeT, Nat.mod_eq_sub_mod (by omega), Nat.mod_eq_of_lt (by omega)]
      at h
    omega

/-- The trailer is the number of bytes before it, and the last word. -/
theorem checkDataEnd_iff (hd : d.Wf) :
    d.checkDataEnd a = .ok (decide (d.rest = leBytes a.wordSize d.pos)) := by
  have hread := decodeSize_reads (a := a) hd
  have hlen := length_rest hd
  have hpos := hd.pos
  have hmax := hd.max
  simp only [intMax] at hmax
  by_cases hword : a.wordSize ≤ d.rest.length
  · rw [Format.word_dec hword] at hread
    obtain ⟨d', hok, hd', hrest, hbuf⟩ := hread
    have hsize : d'.size = d.size := by rw [hd'.size, hd.size, hbuf]
    have hpos' : d'.pos = d.pos + a.wordSize := by
      have := congrArg List.length hrest
      rw [length_rest hd', List.length_drop, hlen, hsize] at this
      have := hd'.pos
      omega
    rw [checkDataEnd, hok]
    simp only [Outcome.ok.injEq, hsize, hpos', ← Bool.decide_and,
      decide_eq_decide]
    constructor
    · rintro ⟨hend, hval⟩
      have htake : d.rest.take a.wordSize = d.rest :=
        List.take_of_length_le (by omega)
      rw [htake] at hval
      have hwhole := leBytes_leNat d.rest
      rw [show d.rest.length = a.wordSize by omega] at hwhole
      rw [← hwhole]
      congr 1
      exact trailer_value hval.symm (by
        have := leNat_lt d.rest
        rwa [show d.rest.length = a.wordSize by omega] at this)
    · intro heq
      have hw : d.rest.length = a.wordSize := by rw [heq, length_leBytes]
      have hfit : d.pos < 256 ^ a.wordSize := by
        have := a.sizeMod_ge
        simp only [Abi.sizeMod] at this
        omega
      refine ⟨by omega, ?_⟩
      rw [heq, List.take_of_length_le (by rw [length_leBytes]),
        leNat_leBytes hfit, Abi.sizeT_small (by omega)]
  · rw [Format.word_dec_short hword] at hread
    rw [checkDataEnd, show d.decodeSize a = .fail Retcode.failure from hread]
    have hne : d.rest ≠ leBytes a.wordSize d.pos := by
      intro heq
      rw [heq, length_leBytes] at hword
      omega
    simp [hne]

end DataDecoder

/-- `ProcessDecode` of a block is the framed reader of the parameters'
formats. -/
theorem processDecode_eq {a : Abi} {heap : Nat → Bool} {buffer : List UInt8}
    {args : List Param} (hne : buffer ≠ []) (hmax : buffer.length ≤ intMax)
    (hargs : ∀ p ∈ args, storageOk p) (hheap : allocatesFor heap args) :
    processDecode a heap ⟨.block buffer, buffer.length⟩ args =
      match Format.decFramed a.wordSize (paramFormat a)
        (args.map Sigma.fst) buffer with
      | some ps => .ok ps
      | none => .fail Retcode.failure := by
  have hlen : 0 < buffer.length := List.length_pos_iff.mpr hne
  have hsize : a.sizeT ((buffer.length : Int).toNat) = buffer.length := by
    simp only [intMax] at hmax
    exact Abi.sizeT_small (by simp only [Int.toNat_natCast]; omega)
  have hd : (⟨buffer, buffer.length, 0, 0⟩ : DataDecoder).Wf :=
    ⟨rfl, hmax, Nat.zero_le _⟩
  have hread := (DataDecoder.recursiveDecode_reads (a := a) hargs hheap
    hd).mapFail
  have hpositive : ¬ ((buffer.length : Int) ≤ 0) := by omega
  simp only [processDecode, hpositive, if_false, hsize]
  have hrest : (⟨buffer, buffer.length, 0, 0⟩ : DataDecoder).rest = buffer :=
    rfl
  rw [hrest] at hread
  unfold Format.decFramed
  cases hall : Format.decAll (paramFormat a) (args.map Sigma.fst) buffer with
  | none =>
      rw [hall] at hread
      rw [show _ = _ from hread]
      rfl
  | some r =>
      obtain ⟨ps, bs⟩ := r
      rw [hall] at hread
      obtain ⟨d', hok, hd', hbs, hbuf⟩ := hread
      have hpos : d'.pos = buffer.length - bs.length := by
        have hleft := DataDecoder.length_rest hd'
        have hsame := hd'.size
        have hin := hd'.pos
        rw [hbs] at hleft
        rw [hbuf] at hsame
        simp only at hsame
        omega
      rw [hok, Outcome.ok_bind, DataDecoder.checkDataEnd_iff hd',
        Outcome.ok_bind, hbs, hpos]
      by_cases hend : bs = leBytes a.wordSize (buffer.length - bs.length)
      · simp only [decide_eq_true_eq, if_pos hend]
      · simp only [decide_eq_true_eq, if_neg hend]

end AiEngine.Ref
