import AiEngine.Proofs.EncdecFormat

/-!
# Encode, then decode; decode, then encode

The encoder's appends spell the formats of the parameters, the decoder reads
them, and the trailer is the frame. What is left is to say when the two
meet: always, as far as the formats go, and in the code exactly when no
block the encoder asks for on the way exceeds the range of `size_t`.
-/

namespace AiEngine.Ref

open AiEngine.Lib

/-! ## What the encoder writes

The bytes of an encoding as a list of blocks, one for each append of the
source. The growth of the buffer depends on where one append ends and the next
begins. -/

/-- A value the encoder takes: an object of at least one byte, a string, or
a non-null array with elements. -/
def encodable : Param → Prop
  | ⟨.fixed n, _⟩ => 0 < n
  | ⟨.string, _⟩ => True
  | ⟨.array _, val⟩ => 0 < val.size ∧ val.data.isSome

/-- The byte strings a parameter appends, in order. -/
def paramWrites (a : Abi) : Param → List (List UInt8)
  | ⟨.fixed _, v⟩ => [v.toList]
  | ⟨.string, s⟩ =>
      leBytes a.wordSize s.length :: if s.length = 0 then [] else [s]
  | ⟨.array t, val⟩ =>
      leBytes a.wordSize val.size ::
        (val.data.getD []).map fun x => leBytes t.size x.toNat

/-- Their sizes. -/
def paramSizes (a : Abi) : Param → List Nat
  | ⟨.fixed n, _⟩ => [n]
  | ⟨.string, s⟩ =>
      a.wordSize :: if s.length = 0 then [] else [s.length]
  | ⟨.array t, val⟩ => a.wordSize :: List.replicate val.size t.size

/-- The encoding of a parameter list: its body and the trailer. -/
def encoding (a : Abi) (args : List Param) : List UInt8 :=
  Format.encFramed a.wordSize (Format.encAll (paramFormat a) args)

/-- No block the encoder asks for on these parameters exceeds the range of
`size_t`. -/
def GrowthFits (a : Abi) (args : List Param) : Prop :=
  growthFits a initBufferSize 0
    (args.flatMap (paramSizes a) ++ [a.wordSize]) = true

section

variable {a : Abi}

theorem length_paramWrites {p : Param} (hp : encodable p) :
    (paramWrites a p).map List.length = paramSizes a p := by
  obtain ⟨t, v⟩ := p
  cases t with
  | fixed n => simp [paramWrites, paramSizes]
  | string =>
      simp only [paramWrites, paramSizes]
      split <;> simp
  | array t =>
      obtain ⟨xs, hxs⟩ := Option.isSome_iff_exists.mp hp.2
      simp [paramWrites, paramSizes, hxs, v.owns xs hxs, Function.comp_def,
        List.map_const']

theorem paramWrites_ne_nil {p : Param} (hp : encodable p) :
    ∀ bs ∈ paramWrites a p, bs ≠ [] := by
  have hword := a.wordSize_pos
  intro bs hbs hnil
  have hzero : 0 ∈ (paramWrites a p).map List.length :=
    List.mem_map.mpr ⟨bs, hbs, by simp [hnil]⟩
  rw [length_paramWrites hp] at hzero
  obtain ⟨t, v⟩ := p
  cases t with
  | fixed n =>
      have hn : 0 < n := hp
      simp only [paramSizes, List.mem_singleton] at hzero
      omega
  | string =>
      simp only [paramSizes] at hzero
      split at hzero <;> simp at hzero <;> omega
  | array t =>
      have hsize : 0 < t.size := by cases t <;> decide
      simp only [paramSizes, List.mem_cons, List.mem_replicate] at hzero
      omega

/-- The appends of an array spell its format, elements or none. -/
theorem arrayWrites_flatten {t : ElemType} (xs : List t.Val) :
    (paramWrites a ⟨.array t, CArray.ofList xs⟩).flatten =
      (arrayFormat a t).enc (CArray.ofList xs) := by
  simp [paramWrites, arrayFormat, Format.iso, Format.counted, CArray.ofList,
    Format.encList, elemFormat, Format.word, List.flatMap_def]

theorem paramWrites_flatten {p : Param} (hp : encodable p) :
    (paramWrites a p).flatten = (paramFormat a p.1).enc p.2 := by
  obtain ⟨t, v⟩ := p
  cases t with
  | fixed n => simp [paramWrites, paramFormat, Format.block]
  | string =>
      simp only [paramWrites, paramFormat, Format.counted,
        Format.encList_symbol]
      split
      · next hzero => simp [List.eq_nil_of_length_eq_zero hzero]
      · simp
  | array t =>
      obtain ⟨xs, hxs⟩ := Option.isSome_iff_exists.mp hp.2
      rw [CArray.eq_ofList hxs]
      exact arrayWrites_flatten xs

theorem flatten_writes {args : List Param} (hargs : ∀ p ∈ args, encodable p) :
    (args.flatMap (paramWrites a)).flatten =
      Format.encAll (paramFormat a) args := by
  induction args with
  | nil => rfl
  | cons p ps ih =>
      have hps := ih fun q hq => hargs q (by simp [hq])
      simp only [List.flatMap_cons, List.flatten_append,
        paramWrites_flatten (hargs p (by simp)), hps, Format.encAll]

/-- An array whose count is a `size_t` can be spelt, elements or none. -/
theorem arrayFormat_valid {t : ElemType} {xs : List t.Val}
    (hcount : xs.length < a.sizeMod) :
    (arrayFormat a t).valid (CArray.ofList xs) :=
  ⟨⟨hcount, fun x _ => elemFormat_valid x⟩, rfl⟩

/-- Values whose encoding is a legal block can be spelt. -/
theorem paramFormat_valid {p : Param} (hp : encodable p)
    (hmax : ((paramFormat a p.1).enc p.2).length ≤ intMax) :
    (paramFormat a p.1).valid p.2 := by
  have hmod := a.sizeMod_ge
  simp only [intMax, Abi.sizeMod] at hmax hmod
  obtain ⟨t, v⟩ := p
  cases t with
  | fixed n => trivial
  | string =>
      simp only [paramFormat, Format.counted, Format.encList_symbol,
        List.length_append] at hmax
      exact ⟨show v.length < 256 ^ a.wordSize by omega, fun _ _ => trivial⟩
  | array t =>
      have hsize : 0 < t.size := by cases t <;> decide
      obtain ⟨xs, hxs⟩ := Option.isSome_iff_exists.mp hp.2
      simp only [paramFormat, arrayFormat, Format.iso, Format.counted, hxs,
        Option.getD_some, List.length_append,
        Format.length_encList length_elemFormat] at hmax
      have hcount : xs.length ≤ xs.length * t.size :=
        Nat.le_mul_of_pos_right _ hsize
      rw [CArray.eq_ofList hxs]
      exact arrayFormat_valid (by rw [Abi.sizeMod]; omega)

theorem length_enc_le {args : List Param} {p : Param} (hp : p ∈ args) :
    ((paramFormat a p.1).enc p.2).length ≤
      (Format.encAll (paramFormat a) args).length := by
  obtain ⟨before, after, rfl⟩ := List.append_of_mem hp
  simp only [Format.encAll, List.flatMap_append, List.flatMap_cons,
    List.length_append]
  omega

theorem encoding_valid {args : List Param} (hargs : ∀ p ∈ args, encodable p)
    (hmax : (encoding a args).length ≤ intMax) :
    ∀ p ∈ args, (paramFormat a p.1).valid p.2 := by
  intro p hp
  have hle := length_enc_le (a := a) hp
  rw [encoding, Format.encFramed, List.length_append] at hmax
  exact paramFormat_valid (hargs p hp) (by omega)

variable {heap : Nat → Bool}

theorem append_live {e e' : DataEncoder} {bs : List UInt8}
    (h : e.append a heap bs = .ok e') : e'.allocSuccess = e.allocSuccess := by
  simp only [DataEncoder.append, Outcome.bind_eq_ok,
    Outcome.mapFail_eq_ok] at h
  obtain ⟨e₁, hens, happ⟩ := h
  have hsame : e₁.allocSuccess = e.allocSuccess := by
    simp only [DataEncoder.ensure, DataEncoder.reallocBuffer] at hens
    split at hens
    · cases hens
    · split at hens
      · cases hens; rfl
      · split at hens
        · cases hens
        · obtain ⟨p, -, hp⟩ := Outcome.bind_eq_ok.mp hens
          split at hp
          · cases hp
          · obtain ⟨data, -, hdata⟩ := Outcome.bind_eq_ok.mp hp
            cases hdata; rfl
  rw [← hsame]
  split at happ
  · cases happ
  · obtain ⟨data, -, hdata⟩ := Outcome.bind_eq_ok.mp happ
    cases hdata; rfl

/-- `append` fails with `RETCODE_FAILURE` and no other code. -/
theorem append_mapFail (e : DataEncoder) (bs : List UInt8) :
    (e.append a heap bs).mapFail (fun _ => Retcode.failure) =
      e.append a heap bs := by
  simp only [DataEncoder.append]
  cases e.ensure a heap bs.length with
  | fail c => rfl
  | fault => rfl
  | ok e₁ =>
      simp only [Outcome.mapFail_ok, Outcome.ok_bind]
      cases e₁.buffer with
      | none => rfl
      | some b =>
          dsimp only
          cases memcpyS b.data e₁.pos bs.length bs 0 bs.length <;> rfl

theorem encodeFixed_eq {e : DataEncoder} (hlive : e.allocSuccess = true)
    {bs : List UInt8} (hne : bs ≠ []) :
    e.encodeFixed a heap bs = e.append a heap bs := by
  simp [DataEncoder.encodeFixed, hlive, hne]

theorem encodeSize_eq {e : DataEncoder} (hlive : e.allocSuccess = true)
    (n : Nat) :
    e.encodeSize a heap n = e.append a heap (leBytes a.wordSize n) := by
  apply encodeFixed_eq hlive
  have := a.wordSize_pos
  intro hnil
  have := congrArg List.length hnil
  simp at this
  omega

theorem encodeElems_eq {e : DataEncoder} (hlive : e.allocSuccess = true)
    {t : ElemType} (xs : List t.Val) :
    e.encodeElems a heap t xs =
      e.appendAll a heap (xs.map fun x => leBytes t.size x.toNat) := by
  induction xs generalizing e with
  | nil => rfl
  | cons x xs ih =>
      have hne : leBytes t.size x.toNat ≠ [] := by
        cases t <;> simp [leBytes, ElemType.size]
      simp only [DataEncoder.encodeElems, List.map_cons,
        DataEncoder.appendAll, encodeFixed_eq hlive hne]
      cases happ : e.append a heap (leBytes t.size x.toNat) with
      | fail c => rfl
      | fault => rfl
      | ok e₁ => exact ih ((append_live happ).trans hlive)

theorem encodeOneParameter_eq {e : DataEncoder}
    (hlive : e.allocSuccess = true) {p : Param} (hp : encodable p) :
    e.encodeOneParameter a heap p = e.appendAll a heap (paramWrites a p) := by
  obtain ⟨t, v⟩ := p
  cases t with
  | fixed n =>
      have hne : v.toList ≠ [] := by
        intro hnil
        have hlen := congrArg List.length hnil
        have hn : 0 < n := hp
        simp at hlen
        omega
      simp only [DataEncoder.encodeOneParameter, paramWrites,
        DataEncoder.appendAll, encodeFixed_eq hlive hne]
      cases e.append a heap v.toList <;> rfl
  | string =>
      simp only [DataEncoder.encodeOneParameter, DataEncoder.encodeString,
        hlive, paramWrites, DataEncoder.appendAll, encodeSize_eq hlive,
        append_mapFail]
      by_cases hzero : v.length = 0
      · simp only [hzero, if_true, DataEncoder.appendAll]
        cases e.append a heap (leBytes a.wordSize 0) <;> rfl
      · simp only [hzero, if_false, DataEncoder.appendAll]
        cases e.append a heap (leBytes a.wordSize v.length) with
        | fail c => rfl
        | fault => rfl
        | ok e₁ =>
            simp only [Outcome.ok_bind]
            cases e₁.append a heap v <;> rfl
  | array t =>
      obtain ⟨xs, hxs⟩ := Option.isSome_iff_exists.mp hp.2
      have hsize : v.size ≠ 0 := Nat.pos_iff_ne_zero.mp hp.1
      simp only [DataEncoder.encodeOneParameter, DataEncoder.encodeArray, hxs,
        hsize, if_false, paramWrites, Option.getD_some,
        DataEncoder.appendAll, encodeSize_eq hlive]
      cases happ : e.append a heap (leBytes a.wordSize v.size) with
      | fail c => rfl
      | fault => rfl
      | ok e₁ => exact encodeElems_eq ((append_live happ).trans hlive) xs

theorem appendAll_live {e e' : DataEncoder} {ws : List (List UInt8)}
    (h : e.appendAll a heap ws = .ok e') :
    e'.allocSuccess = e.allocSuccess := by
  induction ws generalizing e with
  | nil => cases h; rfl
  | cons bs ws ih =>
      obtain ⟨e₁, happ, hrest⟩ := Outcome.bind_eq_ok.mp h
      exact (ih hrest).trans (append_live happ)

theorem recursiveEncode_eq {e : DataEncoder} (hlive : e.allocSuccess = true)
    {args : List Param} (hargs : ∀ p ∈ args, encodable p) :
    e.recursiveEncode a heap args =
      e.appendAll a heap (args.flatMap (paramWrites a)) := by
  induction args generalizing e with
  | nil => rfl
  | cons p ps ih =>
      simp only [DataEncoder.recursiveEncode, List.flatMap_cons,
        appendAll_append, encodeOneParameter_eq hlive (hargs p (by simp))]
      cases happ : e.appendAll a heap (paramWrites a p) with
      | fail c => rfl
      | fault => rfl
      | ok e₁ =>
          exact ih ((appendAll_live happ).trans hlive)
            fun q hq => hargs q (by simp [hq])

/-- `GetSerializedData` once the trailer is appended: a copy of what the
encoder then holds. -/
theorem getSerializedData_copy {e e₁ : DataEncoder} {cap : Nat}
    {out : List UInt8} (hlive : e.allocSuccess = true)
    (happ : e.append a heap (leBytes a.wordSize e.pos) = .ok e₁)
    (he₁ : e₁.Holds cap out) (hpos : 0 < out.length) (dataInfo : DataInfo) :
    e.getSerializedData a heap dataInfo =
      if intMax < out.length then .fail (Retcode.failure, dataInfo)
      else if heap e₁.allocs then .ok ⟨.block out, out.length⟩
      else .fail (Retcode.outOfMemory, ⟨.null, out.length⟩) := by
  obtain ⟨b, hb, -, hlen, htake⟩ := he₁.block
  have hpos₁ := he₁.pos
  have hle := he₁.le
  have hzero : e₁.pos ≠ 0 := by omega
  simp only [DataEncoder.getSerializedData, encodeSize_eq hlive, happ,
    Outcome.mapFail_ok, Outcome.ok_bind, hb, hzero, if_false, ← hpos₁]
  by_cases hmax : intMax < e₁.pos
  · rw [if_pos hmax, if_pos hmax]
  · obtain ⟨data, hcopy, hdlen, hdtake⟩ := memcpyS_ok
      (List.replicate e₁.pos 0) b.data
      (memcpyOk_self (n := e₁.pos) (by omega) (by omega))
      (show 0 + e₁.pos ≤ b.data.length by omega)
      (show 0 + e₁.pos ≤ _ by simp)
    have hdata : data = out := by
      rw [Nat.zero_add, List.take_zero, List.nil_append, List.drop_zero,
        hpos₁] at hdtake
      rw [List.length_replicate, hpos₁] at hdlen
      rw [List.take_of_length_le (by omega)] at hdtake
      rw [hdtake]
      exact htake
    rw [if_neg hmax, if_neg hmax, hcopy, hdata]
    rfl

theorem length_encFramed (out : List UInt8) :
    (Format.encFramed a.wordSize out).length = out.length + a.wordSize := by
  rw [Format.encFramed, List.length_append, length_leBytes]

theorem trailer_ne_nil (n : Nat) : leBytes a.wordSize n ≠ [] := by
  apply List.ne_nil_of_length_pos
  rw [length_leBytes]
  exact a.wordSize_pos

/-- `GetSerializedData` of an encoder that holds `out`: one more append, of
the trailer, and a copy of the whole. -/
theorem getSerializedData_eq (hheap : HeapServes heap) {e : DataEncoder}
    {cap : Nat} {out : List UInt8} (he : e.Holds cap out)
    (hmax : out.length + a.wordSize ≤ intMax) (dataInfo : DataInfo) :
    e.getSerializedData a heap dataInfo =
      if growthFits a cap out.length [a.wordSize] then
        .ok ⟨.block (Format.encFramed a.wordSize out),
          (Format.encFramed a.wordSize out).length⟩
      else .fault := by
  have hmax' : out.length + (leBytes a.wordSize out.length).length ≤ intMax :=
    by rwa [length_leBytes]
  by_cases hfit : out.length + (leBytes a.wordSize out.length).length ≤ cap ∨
      blockFits a cap (leBytes a.wordSize out.length).length
  · have hgrow : growthFits a cap out.length [a.wordSize] = true := by
      simpa [growthFits] using hfit
    obtain ⟨e₁, happ, he₁⟩ :=
      append_ok hheap he (trailer_ne_nil _) hmax' hfit
    have hlen := length_encFramed (a := a) out
    have hwpos := a.wordSize_pos
    rw [← he.pos] at happ
    rw [hgrow, getSerializedData_copy he.live happ he₁
      (by rw [← Format.encFramed]; omega), ← Format.encFramed,
      if_neg (by omega), if_pos (hheap _)]
    rfl
  · have hgrow : growthFits a cap out.length [a.wordSize] = false := by
      simpa [growthFits] using hfit
    rw [not_or, Nat.not_le] at hfit
    have hfault := append_fault hheap he (trailer_ne_nil _) hmax' hfit.1 hfit.2
    rw [← he.pos] at hfault
    rw [DataEncoder.getSerializedData, encodeSize_eq he.live, hfault, hgrow]
    rfl

theorem writes_ne_nil {args : List Param} (hargs : ∀ p ∈ args, encodable p) :
    ∀ bs ∈ args.flatMap (paramWrites a), bs ≠ [] := by
  intro bs hbs
  obtain ⟨p, hp, hbs⟩ := List.mem_flatMap.mp hbs
  exact paramWrites_ne_nil (hargs p hp) bs hbs

theorem writes_sizes {args : List Param} (hargs : ∀ p ∈ args, encodable p) :
    (args.flatMap (paramWrites a)).map List.length =
      args.flatMap (paramSizes a) := by
  rw [List.map_flatMap]
  exact List.flatMap_congr fun p hp => length_paramWrites (hargs p hp)

theorem sum_sizes {args : List Param} (hargs : ∀ p ∈ args, encodable p) :
    (args.flatMap (paramSizes a)).sum =
      (Format.encAll (paramFormat a) args).length := by
  rw [← writes_sizes hargs, ← List.length_flatten, flatten_writes hargs]

theorem length_encoding (args : List Param) :
    (encoding a args).length =
      (Format.encAll (paramFormat a) args).length + a.wordSize := by
  simp [encoding, Format.encFramed]

section With

variable {recursiveEncode : DataEncoder → Outcome Int DataEncoder}
  {ws : List (List UInt8)}

/-- The growths of an encoding: those of its body, and the trailer's. -/
theorem growthFits_trailer :
    growthFits a initBufferSize 0 (ws.map List.length ++ [a.wordSize]) =
        true ↔
      growthFits a initBufferSize 0 (ws.map List.length) = true ∧
      growthFits a (grownAll initBufferSize 0 (ws.map List.length))
        ws.flatten.length [a.wordSize] = true := by
  rw [growthFits_append, Bool.and_eq_true, List.length_flatten, Nat.zero_add]

/-- Where every growth fits, `ProcessEncode` produces what was appended and
the trailer. -/
theorem processEncodeWith_ok (hheap : HeapServes heap) (dataInfo : DataInfo)
    (hrun : ∀ e : DataEncoder, e.allocSuccess = true →
      recursiveEncode e = e.appendAll a heap ws)
    (hne : ∀ bs ∈ ws, bs ≠ [])
    (hmax : ws.flatten.length + a.wordSize ≤ intMax)
    (hfit : growthFits a initBufferSize 0
      (ws.map List.length ++ [a.wordSize]) = true) :
    processEncodeWith a heap dataInfo recursiveEncode =
      .ok ⟨.block (Format.encFramed a.wordSize ws.flatten),
        (Format.encFramed a.wordSize ws.flatten).length⟩ := by
  obtain ⟨e₀, hinit, he₀⟩ := holds_init (a := a) hheap
  obtain ⟨hbody, htrailer⟩ := growthFits_trailer.mp hfit
  have hwpos := a.wordSize_pos
  obtain ⟨e₁, happ, he₁⟩ := appendAll_ok (a := a) hheap he₀ hne
    (by rw [List.length_nil]; omega) hbody
  rw [List.nil_append, List.length_nil] at he₁
  have hlast := getSerializedData_eq (a := a) hheap he₁ (by omega) dataInfo
  rw [if_pos htrailer] at hlast
  have hpositive :
      ¬ ((Format.encFramed a.wordSize ws.flatten).length : Int) ≤ 0 := by
    simp only [Format.encFramed, List.length_append, length_leBytes]
    omega
  simp only [processEncodeWith, hinit, hrun e₀ he₀.live, happ,
    Outcome.mapFail_ok, Outcome.ok_bind, hlast]
  exact if_neg (by simpa using hpositive)

/-- Where some growth does not fit, it writes out of bounds. -/
theorem processEncodeWith_fault (hheap : HeapServes heap)
    {dataInfo : DataInfo}
    (hrun : ∀ e : DataEncoder, e.allocSuccess = true →
      recursiveEncode e = e.appendAll a heap ws)
    (hne : ∀ bs ∈ ws, bs ≠ [])
    (hmax : ws.flatten.length + a.wordSize ≤ intMax)
    (hfit : ¬ growthFits a initBufferSize 0
      (ws.map List.length ++ [a.wordSize]) = true) :
    processEncodeWith a heap dataInfo recursiveEncode = .fault := by
  obtain ⟨e₀, hinit, he₀⟩ := holds_init (a := a) hheap
  have hbound : ([] : List UInt8).length + ws.flatten.length ≤ intMax := by
    rw [List.length_nil]
    omega
  by_cases hbody : growthFits a initBufferSize 0 (ws.map List.length) = true
  · obtain ⟨e₁, happ, he₁⟩ :=
      appendAll_ok (a := a) hheap he₀ hne hbound hbody
    rw [List.nil_append, List.length_nil] at he₁
    have hlast := getSerializedData_eq (a := a) hheap he₁ (by omega) dataInfo
    have htrailer := fun h => hfit (growthFits_trailer.mpr ⟨hbody, h⟩)
    rw [if_neg htrailer] at hlast
    simp only [processEncodeWith, hinit, hrun e₀ he₀.live, happ,
      Outcome.mapFail_ok, Outcome.ok_bind, hlast, Outcome.fault_bind]
  · have hfault := appendAll_fault hheap he₀ hne hbound
      (by simpa using hbody)
    simp only [processEncodeWith, hinit, hrun e₀ he₀.live, hfault,
      Outcome.mapFail_ok, Outcome.ok_bind]
    rfl

end With

/-- Where every growth fits, `ProcessEncode` produces the encoding. -/
theorem processEncode_ok (hheap : HeapServes heap) (dataInfo : DataInfo)
    {args : List Param} (hargs : ∀ p ∈ args, encodable p)
    (hmax : (encoding a args).length ≤ intMax) (hfit : GrowthFits a args) :
    processEncode a heap dataInfo args =
      .ok ⟨.block (encoding a args), (encoding a args).length⟩ := by
  rw [length_encoding, ← flatten_writes hargs] at hmax
  rw [GrowthFits, ← writes_sizes hargs] at hfit
  have hok := processEncodeWith_ok hheap dataInfo
    (fun e he => recursiveEncode_eq he hargs) (writes_ne_nil hargs) hmax hfit
  rw [processEncode_eq, hok, encoding, flatten_writes hargs]

/-- Where some growth does not fit, it writes out of bounds. -/
theorem processEncode_fault (hheap : HeapServes heap) {dataInfo : DataInfo}
    {args : List Param} (hargs : ∀ p ∈ args, encodable p)
    (hmax : (encoding a args).length ≤ intMax) (hfit : ¬ GrowthFits a args) :
    processEncode a heap dataInfo args = .fault := by
  rw [length_encoding, ← flatten_writes hargs] at hmax
  rw [GrowthFits, ← writes_sizes hargs] at hfit
  exact processEncodeWith_fault hheap
    (fun e he => recursiveEncode_eq he hargs) (writes_ne_nil hargs) hmax hfit

/-- Storage of the types of `args`, with nothing in it. -/
def freshFor (args : List Param) : List Param :=
  args.map fun p => ⟨p.1, p.1.fresh⟩

theorem freshFor_types (args : List Param) :
    (freshFor args).map Sigma.fst = args.map Sigma.fst := by
  simp [freshFor]

theorem freshFor_storageOk {args : List Param}
    (hargs : ∀ p ∈ args, encodable p) : ∀ p ∈ freshFor args, storageOk p := by
  intro q hq
  obtain ⟨⟨t, v⟩, hp, rfl⟩ := List.mem_map.mp hq
  cases t with
  | fixed n => exact hargs _ hp
  | string => trivial
  | array t => exact ⟨rfl, rfl⟩

theorem encoding_ne_nil (args : List Param) : encoding a args ≠ [] := by
  have hlen := length_encoding (a := a) args
  have hwpos := a.wordSize_pos
  intro hnil
  rw [hnil, List.length_nil] at hlen
  omega

/-- An encoding decodes to what it encodes, into storage of its types. -/
theorem processDecode_encoding (hheap : HeapServes heap) {args : List Param}
    (hargs : ∀ p ∈ args, encodable p)
    (hmax : (encoding a args).length ≤ intMax) :
    processDecode a heap ⟨.block (encoding a args), (encoding a args).length⟩
      (freshFor args) = .ok args := by
  rw [processDecode_eq (encoding_ne_nil args) hmax (freshFor_storageOk hargs)
    (fun _ _ _ => hheap), freshFor_types]
  have hdec := (Format.decFramed_eq_some (n := a.wordSize)).mpr
    ⟨rfl, rfl, encoding_valid hargs hmax⟩
  rw [encoding, hdec]

/-- The round trip of one parameter list: encoding succeeds, and decoding
the result into fresh storage of its types gives the list back. -/
def RoundTrips (a : Abi) (heap heap' : Nat → Bool) (dataInfo : DataInfo)
    (args : List Param) : Prop :=
  ∃ out, processEncode a heap dataInfo args = .ok out ∧
    processDecode a heap' out (freshFor args) = .ok args

/-- Every list of values with a legal encoding survives the round trip
exactly when no growth on the way exceeds the range of `size_t`. -/
theorem roundTrips_iff {heap' : Nat → Bool} {dataInfo : DataInfo}
    {args : List Param} (hheap : HeapServes heap) (hheap' : HeapServes heap')
    (hargs : ∀ p ∈ args, encodable p)
    (hmax : (encoding a args).length ≤ intMax) :
    RoundTrips a heap heap' dataInfo args ↔ GrowthFits a args := by
  constructor
  · rintro ⟨out, henc, -⟩
    by_contra hfit
    rw [processEncode_fault hheap hargs hmax hfit] at henc
    cases henc
  · intro hfit
    exact ⟨_, processEncode_ok hheap _ hargs hmax hfit,
      processDecode_encoding hheap' hargs hmax⟩

theorem roundTrips_mixed :
    RoundTrips .ilp32 (fun _ => true) (fun _ => true) ⟨.null, 0⟩
      [⟨.string, [7, 8]⟩, ⟨.array .uint16, CArray.ofList [1, 65535]⟩,
        ⟨.string, []⟩, ⟨.fixed 3, #v[1, 2, 3]⟩] :=
  (roundTrips_iff (fun _ => rfl) (fun _ => rfl)
    (by simp [encodable, CArray.ofList]) (by decide)).mpr (by
      simp only [GrowthFits]
      decide)

/-- On a 64-bit `size_t` every growth of a legal encoding fits. -/
theorem growthFits_of_lp64 {args : List Param}
    (hargs : ∀ p ∈ args, encodable p)
    (hmax : (encoding .lp64 args).length ≤ intMax) :
    GrowthFits .lp64 args := by
  rw [length_encoding] at hmax
  apply growthFits_lp64 (by decide)
  rw [List.sum_append, sum_sizes hargs, List.sum_singleton]
  omega

/-- Whatever the width of `size_t`, every growth of an encoding of less than
a third of its smallest range fits. -/
theorem growthFits_of_small {args : List Param}
    (hargs : ∀ p ∈ args, encodable p)
    (hsmall : 3 * (encoding a args).length + 8 < 4294967296) :
    GrowthFits a args := by
  rw [length_encoding] at hsmall
  apply growthFits_small
  rw [List.sum_append, sum_sizes hargs, List.sum_singleton]
  omega

end

/-- A string of `n` zero bytes. -/
def zeroString (n : Nat) : Param := ⟨.string, List.replicate n 0⟩

theorem paramSizes_zeroString {a : Abi} {n : Nat} (hn : n ≠ 0) :
    paramSizes a (zeroString n) = [a.wordSize, n] := by
  simp [zeroString, paramSizes, hn]

theorem zeroStrings_encodable (ns : List Nat) :
    ∀ p ∈ ns.map zeroString, encodable p := by
  intro p hp
  obtain ⟨n, -, rfl⟩ := List.mem_map.mp hp
  trivial

theorem zeroStrings_sizes {a : Abi} {ns : List Nat} (hne : 0 ∉ ns) :
    (ns.map zeroString).flatMap (paramSizes a) =
      ns.flatMap fun n => [a.wordSize, n] := by
  rw [List.flatMap_map]
  refine List.flatMap_congr fun n hn => ?_
  exact paramSizes_zeroString fun hzero => hne (hzero ▸ hn)

theorem length_zeroStrings {a : Abi} {ns : List Nat} (hne : 0 ∉ ns) :
    (encoding a (ns.map zeroString)).length =
      (ns.flatMap fun n => [a.wordSize, n]).sum + a.wordSize := by
  rw [length_encoding, ← sum_sizes (zeroStrings_encodable ns),
    zeroStrings_sizes hne]

/-- Strings of zero bytes whose last growth asks for more than `size_t` can
count are written out of bounds. -/
theorem zeroStrings_fault {ns : List Nat} (hne : 0 ∉ ns)
    (hmax : (encoding .ilp32 (ns.map zeroString)).length ≤ intMax)
    (hfit : growthFits .ilp32 initBufferSize 0
      ((ns.flatMap fun n => [4, n]) ++ [4]) = false) {dataInfo : DataInfo} :
    processEncode .ilp32 (fun _ => true) dataInfo (ns.map zeroString) =
      .fault := by
  refine processEncode_fault (fun _ => rfl) (zeroStrings_encodable ns) hmax ?_
  rw [GrowthFits, zeroStrings_sizes hne]
  exact Bool.eq_false_iff.mp hfit

/-- Six strings whose encoding is exactly `INT_MAX` bytes on a 32-bit
`size_t`, and whose last growth asks for a few bytes more than 4 GiB. -/
def hugeStrings : List Param :=
  [322122547, 107374156, 429496729, 429496729, 429496729, 429496729].map
    zeroString

theorem length_hugeStrings :
    (encoding .ilp32 hugeStrings).length = intMax :=
  length_zeroStrings (by decide)

theorem hugeStrings_not_roundTrips :
    (∀ p ∈ hugeStrings, encodable p) ∧
      (encoding .ilp32 hugeStrings).length ≤ intMax ∧
      ¬ RoundTrips .ilp32 (fun _ => true) (fun _ => true) ⟨.null, 0⟩
        hugeStrings := by
  refine ⟨zeroStrings_encodable _, length_hugeStrings.le, ?_⟩
  intro h
  obtain ⟨out, henc, -⟩ := h
  rw [hugeStrings, zeroStrings_fault (by decide) length_hugeStrings.le
    (by decide)] at henc
  cases henc

/-! ## What the decoder accepts

What the decoder accepts is the encoding of the values it has read. That the
encoder can write these values is one condition more: its buffer has to grow
to their size. -/

/-- The types that read without allocating. -/
def ParamType.plain : ParamType → Prop
  | .fixed n => 0 < n
  | .string => True
  | .array _ => False

theorem plain_encodable {p : Param} (hp : p.1.plain) : encodable p := by
  obtain ⟨t, v⟩ := p
  cases t with
  | fixed n => exact hp
  | string => trivial
  | array t => exact hp.elim

theorem plain_storageOk {p : Param} (hp : p.1.plain) : storageOk p := by
  obtain ⟨t, v⟩ := p
  cases t with
  | fixed n => exact hp
  | string => trivial
  | array t => exact hp.elim

theorem plain_of_types {args v : List Param}
    (htypes : v.map Sigma.fst = args.map Sigma.fst)
    (hargs : ∀ p ∈ args, p.1.plain) : ∀ p ∈ v, p.1.plain := by
  intro p hp
  have hmem : p.1 ∈ v.map Sigma.fst := List.mem_map.mpr ⟨p, hp, rfl⟩
  rw [htypes] at hmem
  obtain ⟨q, hq, heq⟩ := List.mem_map.mp hmem
  rw [← heq]
  exact hargs q hq

section

variable {a : Abi} {heap heap' : Nat → Bool} {args : List Param}

theorem plain_allocatesFor (hargs : ∀ p ∈ args, p.1.plain) :
    allocatesFor heap args :=
  fun _ _ hp => (hargs _ hp).elim

/-- `ProcessDecode` of any block, the empty one included. -/
theorem processDecode_plain (hargs : ∀ p ∈ args, p.1.plain)
    {buffer : List UInt8} (hmax : buffer.length ≤ intMax) :
    processDecode a heap ⟨.block buffer, buffer.length⟩ args =
      match Format.decFramed a.wordSize (paramFormat a)
        (args.map Sigma.fst) buffer with
      | some ps => .ok ps
      | none => .fail Retcode.failure := by
  by_cases hne : buffer = []
  · subst hne
    have hnone : Format.decFramed a.wordSize (paramFormat a)
        (args.map Sigma.fst) [] = none := by
      rw [Option.eq_none_iff_forall_ne_some]
      intro v hv
      exact encoding_ne_nil v (Format.decFramed_eq_some.mp hv).1.symm
    rw [hnone]
    rfl
  · exact processDecode_eq hne hmax (fun p hp => plain_storageOk (hargs p hp))
      (plain_allocatesFor hargs)

/-- What was decoded has the types of the storage, and names the bytes. -/
theorem processDecode_ok (hargs : ∀ p ∈ args, p.1.plain)
    {buffer : List UInt8} (hmax : buffer.length ≤ intMax) {v : List Param} :
    processDecode a heap ⟨.block buffer, buffer.length⟩ args = .ok v ↔
      v.map Sigma.fst = args.map Sigma.fst ∧ encoding a v = buffer := by
  rw [processDecode_plain hargs hmax]
  constructor
  · intro h
    cases hdec : Format.decFramed a.wordSize (paramFormat a)
        (args.map Sigma.fst) buffer with
    | none => rw [hdec] at h; cases h
    | some w =>
        rw [hdec] at h
        cases h
        obtain ⟨hbuf, htypes, -⟩ := Format.decFramed_eq_some.mp hdec
        exact ⟨htypes, hbuf.symm⟩
  · rintro ⟨htypes, rfl⟩
    have hv : ∀ p ∈ v, encodable p := fun p hp =>
      plain_encodable (plain_of_types htypes hargs p hp)
    have hdec := (Format.decFramed_eq_some (n := a.wordSize)).mpr
      ⟨rfl, htypes, encoding_valid hv hmax⟩
    rw [encoding, hdec]

theorem processDecode_fail (hargs : ∀ p ∈ args, p.1.plain)
    {buffer : List UInt8} (hmax : buffer.length ≤ intMax)
    (hnone : Format.decFramed a.wordSize (paramFormat a)
      (args.map Sigma.fst) buffer = none) :
    processDecode a heap ⟨.block buffer, buffer.length⟩ args =
      .fail Retcode.failure := by
  rw [processDecode_plain hargs hmax, hnone]

/-- Everything the decoder promises about one buffer and one type list: it
stays inside the buffer; what it accepts is what the encoder produces from
the values it found; and next to an accepted buffer lies no other one, be it
shorter, longer or of a different trailer. -/
structure AcceptsImage (a : Abi) (heap heap' : Nat → Bool)
    (dataInfo : DataInfo) (args : List Param) (buffer : List UInt8) :
    Prop where
  inBounds : processDecode a heap' ⟨.block buffer, buffer.length⟩ args ≠ .fault
  image : ∀ v,
    processDecode a heap' ⟨.block buffer, buffer.length⟩ args = .ok v →
    processEncode a heap dataInfo v = .ok ⟨.block buffer, buffer.length⟩
  cut : ∀ v,
    processDecode a heap' ⟨.block buffer, buffer.length⟩ args = .ok v →
    ∀ short more, short ++ more = buffer → more ≠ [] →
    processDecode a heap' ⟨.block short, short.length⟩ args =
      .fail Retcode.failure
  extension : ∀ v,
    processDecode a heap' ⟨.block buffer, buffer.length⟩ args = .ok v →
    ∀ more, more ≠ [] → (buffer ++ more).length ≤ intMax →
    processDecode a heap' ⟨.block (buffer ++ more), (buffer ++ more).length⟩
      args = .fail Retcode.failure
  trailer : ∀ v,
    processDecode a heap' ⟨.block buffer, buffer.length⟩ args = .ok v →
    ∀ body word word', buffer = body ++ word → word.length = a.wordSize →
    word'.length = a.wordSize → word' ≠ word →
    processDecode a heap' ⟨.block (body ++ word'), (body ++ word').length⟩
      args = .fail Retcode.failure

/-- The decoder keeps the promise on a buffer and a type list exactly when
the encoder can grow its block for the values the buffer spells, if it
spells any. Only `image` depends on that; the rest holds of every buffer. -/
theorem acceptsImage_iff {dataInfo : DataInfo} (hheap : HeapServes heap)
    (hargs : ∀ p ∈ args, p.1.plain) {buffer : List UInt8}
    (hmax : buffer.length ≤ intMax) :
    AcceptsImage a heap heap' dataInfo args buffer ↔
      ∀ v, v.map Sigma.fst = args.map Sigma.fst → encoding a v = buffer →
        GrowthFits a v := by
  have hencodable : ∀ v : List Param, v.map Sigma.fst = args.map Sigma.fst →
      ∀ p ∈ v, encodable p := fun v htypes p hp =>
    plain_encodable (plain_of_types htypes hargs p hp)
  constructor
  · intro h v htypes hbuf
    have henc := h.image v ((processDecode_ok hargs hmax).mpr ⟨htypes, hbuf⟩)
    by_contra hfit
    rw [processEncode_fault hheap (hencodable v htypes)
      (by rw [hbuf]; exact hmax) hfit] at henc
    cases henc
  · intro hgrow
    have hspelt : ∀ v,
        processDecode a heap' ⟨.block buffer, buffer.length⟩ args = .ok v →
        v.map Sigma.fst = args.map Sigma.fst ∧ encoding a v = buffer ∧
          ∀ p ∈ v, (paramFormat a p.1).valid p.2 := by
      intro v hv
      obtain ⟨htypes, hbuf⟩ := (processDecode_ok hargs hmax).mp hv
      exact ⟨htypes, hbuf, encoding_valid (hencodable v htypes)
        (by rw [hbuf]; exact hmax)⟩
    refine ⟨?_, ?_, ?_, ?_, ?_⟩
    · rw [processDecode_plain hargs hmax]
      split <;> simp
    · intro v hv
      obtain ⟨htypes, hbuf, -⟩ := hspelt v hv
      have hok := processEncode_ok hheap dataInfo (hencodable v htypes)
        (by rw [hbuf]; exact hmax) (hgrow v htypes hbuf)
      rw [hbuf] at hok
      exact hok
    · intro v hv short more hcut hmore
      obtain ⟨htypes, hbuf, hvalid⟩ := hspelt v hv
      have hshort : short.length ≤ intMax := by
        rw [← hcut, List.length_append] at hmax
        omega
      apply processDecode_fail hargs hshort
      rw [← htypes]
      exact Format.decFramed_prefix hvalid (hcut.trans hbuf.symm) hmore
    · intro v hv more hmore hlong
      obtain ⟨htypes, hbuf, hvalid⟩ := hspelt v hv
      apply processDecode_fail hargs hlong
      rw [← htypes, ← hbuf]
      exact Format.decFramed_extension hvalid hmore
    · intro v hv body word word' hsplit hlen hlen' hne
      obtain ⟨htypes, hbuf, hvalid⟩ := hspelt v hv
      have hsame : body = Format.encAll (paramFormat a) v ∧ word =
          leBytes a.wordSize (Format.encAll (paramFormat a) v).length := by
        apply List.append_inj' (hsplit.symm.trans hbuf.symm)
        rw [hlen, length_leBytes]
      have hlong : (body ++ word').length ≤ intMax := by
        rw [hsplit, List.length_append, hlen] at hmax
        rw [List.length_append, hlen']
        exact hmax
      apply processDecode_fail hargs hlong
      rw [← htypes, hsame.1]
      exact Format.decFramed_trailer hvalid (by rw [← hsame.2]; exact hne)

end

theorem acceptsImage_pair :
    AcceptsImage .ilp32 (fun _ => true) (fun _ => true) ⟨.null, 0⟩
      [⟨.fixed 1, #v[0]⟩, ⟨.string, []⟩]
      [5, 2, 0, 0, 0, 104, 105, 7, 0, 0, 0] := by
  refine (acceptsImage_iff (fun _ => rfl) ?_ (by decide)).mpr ?_
  · simp [ParamType.plain]
  · intro v htypes hbuf
    apply growthFits_of_small
    · intro p hp
      have hplain := plain_of_types htypes (by simp [ParamType.plain]) p hp
      exact plain_encodable hplain
    · rw [hbuf]
      decide

/-- Five strings that a 32-bit process can hold beside their encoding, and
whose last growth asks for more than 4 GiB: the buffer has 330400512 bytes
after the first of them, 660801529 after the second and 1652003058 after the
fourth. -/
def largeStrings : List Param :=
  [330400000, 505, 1009, 330400000, 991202000].map zeroString

theorem length_largeStrings :
    (encoding .ilp32 largeStrings).length = 1652003538 :=
  length_zeroStrings (by decide)

theorem largeStrings_not_acceptsImage :
    (∀ p ∈ freshFor largeStrings, p.1.plain) ∧
      (encoding .ilp32 largeStrings).length ≤ intMax ∧
      ¬ AcceptsImage .ilp32 (fun _ => true) (fun _ => true) ⟨.null, 0⟩
        (freshFor largeStrings) (encoding .ilp32 largeStrings) := by
  have hmax : (encoding .ilp32 largeStrings).length ≤ intMax := by
    rw [length_largeStrings]
    decide
  refine ⟨?_, hmax, fun h => ?_⟩
  · intro p hp
    obtain ⟨q, hq, rfl⟩ := List.mem_map.mp hp
    obtain ⟨n, -, rfl⟩ := List.mem_map.mp hq
    trivial
  · have hheap : HeapServes fun _ => true := fun _ => rfl
    have hdec := processDecode_encoding hheap
      (zeroStrings_encodable [330400000, 505, 1009, 330400000, 991202000]) hmax
    have henc := h.image largeStrings hdec
    rw [largeStrings, zeroStrings_fault (by decide) hmax (by decide)] at henc
    cases henc

end AiEngine.Ref
