import AiEngine.Proofs.EncdecRoundTrip

/-!
# Encoding while allocations fail

Which requests a run makes, and how it ends, depends on the sizes of its
appends and on nothing that is in them. `BlockSizes` is the encoder without
the bytes; the encoder follows it, whatever requests fail, and holds what was
appended as long as it goes on.

Every failure on the way returns before the caller's `DataInfo` is touched.
The last request does not: `GetSerializedData` stores the length, then asks
for the memory, and returns without taking the length back.
-/

namespace AiEngine.Ref

open AiEngine.Lib

/-! ## The sizes of a run

Whether an allocation is asked for, and for how much, depends on the sizes of
the parameters only. `BlockSizes` follows these sizes, without the bytes. -/

/-- The size of an encoder's block, the bytes it holds, and the requests
made. -/
structure BlockSizes where
  cap : Nat
  pos : Nat
  allocs : Nat

namespace BlockSizes

/-- After `Init`. -/
def init : BlockSizes := ⟨initBufferSize, 0, 1⟩

variable (a : Abi) (heap : Nat → Bool)

/-- A block of twice the size and `n`, with the bytes of the old one. -/
def grow (s : BlockSizes) (n : Nat) : Outcome Unit BlockSizes :=
  if heap s.allocs then
    let cap := a.sizeT (s.cap * buffExtensionFactor + n)
    if cap + a.wordSize < a.sizeMod && s.pos ≤ cap then
      .ok { s with cap, allocs := s.allocs + 1 }
    else .fault
  else .fail ()

/-- `n` bytes at the end. -/
def put (s : BlockSizes) (n : Nat) : Outcome Unit BlockSizes :=
  if memcpyMax < n then .fail ()
  else if s.pos + n ≤ s.cap then .ok { s with pos := s.pos + n }
  else .fault

def ensure (s : BlockSizes) (n : Nat) : Outcome Unit BlockSizes :=
  if a.sizeT (s.pos + n) ≤ s.cap then .ok s else s.grow a heap n

def append (s : BlockSizes) (n : Nat) : Outcome Unit BlockSizes := do
  let s ← s.ensure a heap n
  s.put n

def run (s : BlockSizes) : List Nat → Outcome Unit BlockSizes
  | [] => .ok s
  | n :: ns => do
      let s ← s.append a heap n
      run s ns

theorem run_append {a : Abi} {heap : Nat → Bool} {s : BlockSizes}
    {ns ms : List Nat} :
    s.run a heap (ns ++ ms) = (s.run a heap ns >>= (·.run a heap ms)) := by
  induction ns generalizing s with
  | nil => rfl
  | cons n ns ih =>
      simp only [List.cons_append, run]
      cases s.append a heap n with
      | ok s' => exact ih
      | fail c => rfl
      | fault => rfl

theorem append_pos {a : Abi} {heap : Nat → Bool} {s s' : BlockSizes} {n : Nat}
    (h : s.append a heap n = .ok s') : s'.pos = s.pos + n := by
  obtain ⟨s₁, hroom, hput⟩ := Outcome.bind_eq_ok.mp h
  have hsame : s₁.pos = s.pos := by
    rw [ensure] at hroom
    split at hroom
    · cases hroom
      rfl
    · simp only [grow] at hroom
      split at hroom
      · split at hroom
        · cases hroom
          rfl
        · cases hroom
      · cases hroom
  rw [put] at hput
  split at hput
  · cases hput
  · split at hput
    · cases hput
      rw [← hsame]
    · cases hput

theorem run_pos {a : Abi} {heap : Nat → Bool} {ns : List Nat} :
    ∀ {s s' : BlockSizes}, s.run a heap ns = .ok s' →
      s'.pos = s.pos + ns.sum := by
  induction ns with
  | nil =>
      intro s s' h
      cases h
      rfl
  | cons n ns ih =>
      intro s s' h
      obtain ⟨s₁, happ, hrun⟩ := Outcome.bind_eq_ok.mp h
      rw [ih hrun, append_pos happ, List.sum_cons, Nat.add_assoc]

/-- Serving more requests changes nothing about a run that succeeded. -/
theorem append_served {a : Abi} {heap : Nat → Bool} {s s' : BlockSizes}
    {n : Nat} (h : s.append a heap n = .ok s') :
    s.append a (fun _ => true) n = .ok s' := by
  obtain ⟨s₁, hroom, hput⟩ := Outcome.bind_eq_ok.mp h
  refine Outcome.bind_eq_ok.mpr ⟨s₁, ?_, hput⟩
  rw [ensure] at hroom ⊢
  split at hroom
  · next hle => rwa [if_pos hle]
  · next hle =>
      rw [if_neg hle]
      rw [grow] at hroom ⊢
      split at hroom
      · exact hroom
      · cases hroom

theorem run_served {a : Abi} {heap : Nat → Bool} {ns : List Nat} :
    ∀ {s s' : BlockSizes}, s.run a heap ns = .ok s' →
      s.run a (fun _ => true) ns = .ok s' := by
  induction ns with
  | nil => exact fun h => h
  | cons n ns ih =>
      intro s s' h
      obtain ⟨s₁, happ, hrun⟩ := Outcome.bind_eq_ok.mp h
      exact Outcome.bind_eq_ok.mpr ⟨s₁, append_served happ, ih hrun⟩

end BlockSizes

/-- The encoder holds `out`, in a block of the sizes `s`. -/
structure DataEncoder.Tracks (a : Abi) (out : List UInt8) (e : DataEncoder)
    (s : BlockSizes) : Prop where
  holds : e.Holds s.cap out
  pos : s.pos = out.length
  allocs : e.allocs = s.allocs
  fits : s.cap + a.wordSize < a.sizeMod

/-- The calls of an encoder fail with one code only. -/
def FailsAsSizes (c : Int) (_ : Unit) : Prop := c = Retcode.failure

section Follow

variable {a : Abi} {heap : Nat → Bool}

theorem allocateMemBlock_eq (heap : Nat → Bool) (n : Nat) {sz : Nat}
    (hsz : sz < a.sizeMod) :
    allocateMemBlock a heap n sz =
      if heap n then
        if sz + a.wordSize < a.sizeMod then
          .ok (some ⟨sz, List.replicate sz 0⟩)
        else .fault
      else .ok none := by
  have hword := a.wordSize_le
  have hmod := a.sizeMod_ge
  simp only [allocateMemBlock]
  by_cases hfit : sz + a.wordSize < a.sizeMod
  · have hheader : ¬ sz + a.wordSize < a.wordSize := by omega
    rw [Abi.sizeT_of_lt hfit, if_pos hfit, if_neg hheader,
      Nat.add_sub_cancel]
  · have hwrap : a.sizeT (sz + a.wordSize) = sz + a.wordSize - a.sizeMod := by
      rw [Abi.sizeT, Nat.mod_eq_sub_mod (by omega),
        Nat.mod_eq_of_lt (by omega)]
    have hheader : sz + a.wordSize - a.sizeMod < a.wordSize := by omega
    rw [if_neg hfit, hwrap, if_pos hheader]

theorem sizeT_lt (n : Nat) : a.sizeT n < a.sizeMod :=
  Nat.mod_lt _ (by have := a.sizeMod_ge; omega)

variable {e : DataEncoder} {s : BlockSizes} {out : List UInt8}

theorem reallocBuffer_follows (h : e.Tracks a out s) {b : MemBlock}
    (hb : e.buffer = some b) (n : Nat) :
    Outcome.Rel FailsAsSizes (DataEncoder.Tracks a out)
      (e.reallocBuffer a heap b
        (a.sizeT (b.blockSize * buffExtensionFactor + n)))
      (s.grow a heap n) := by
  obtain ⟨b', hb', hsize, hlen, htake⟩ := h.holds.block
  obtain rfl : b = b' := Option.some.inj (hb.symm.trans hb')
  have hp := h.holds.pos
  have hle := h.holds.le
  have hpos := h.pos
  obtain ⟨cap, hcap⟩ :
      ∃ cap, cap = a.sizeT (s.cap * buffExtensionFactor + n) := ⟨_, rfl⟩
  have hall := allocateMemBlock_eq heap e.allocs
    (sizeT_lt (a := a) (s.cap * buffExtensionFactor + n))
  rw [DataEncoder.reallocBuffer, BlockSizes.grow, h.holds.live, hsize, hall,
    h.allocs]
  simp only [← hcap, Bool.not_true, Bool.false_eq_true, if_false]
  by_cases hserved : heap s.allocs = true
  · rw [if_pos hserved, if_pos hserved]
    by_cases hfit : cap + a.wordSize < a.sizeMod
    · rw [if_pos hfit]
      simp only [Outcome.ok_bind, hfit, decide_true, Bool.true_and,
        decide_eq_true_eq]
      by_cases hroom : s.pos ≤ cap
      · obtain ⟨data, hcopy, hdlen, hdtake⟩ := copyChunks_ok b.data
          (List.replicate cap 0) (show 0 + e.pos ≤ b.data.length by omega)
          (by rw [List.length_replicate]; omega)
        rw [hcopy, if_pos hroom]
        rw [List.length_replicate] at hdlen
        have hcapOut : out.length ≤ cap := by omega
        refine .ok ⟨⟨⟨_, rfl, rfl, hdlen, ?_⟩, hp, hcapOut, rfl⟩,
          h.pos, rfl, hfit⟩
        rw [hp, Nat.zero_add, List.take_zero, List.nil_append,
          List.drop_zero, htake] at hdtake
        exact hdtake
      · rw [copyChunks_fault (by omega)
          (by rw [List.length_replicate]; omega) (Nat.zero_le _),
          if_neg hroom]
        exact .fault
    · rw [if_neg hfit, if_neg (by simp [hfit])]
      exact .fault
  · rw [if_neg hserved, if_neg hserved]
    exact .fail rfl

theorem ensure_follows (h : e.Tracks a out s) (n : Nat) :
    Outcome.Rel FailsAsSizes (DataEncoder.Tracks a out) (e.ensure a heap n)
      (s.ensure a heap n) := by
  obtain ⟨b, hb, hsize, -, -⟩ := h.holds.block
  have hpos : e.pos = s.pos := h.holds.pos.trans h.pos.symm
  simp only [DataEncoder.ensure, BlockSizes.ensure, hb, hpos, hsize]
  split
  · exact .ok h
  · rw [← hsize]
    exact reallocBuffer_follows h hb n

theorem memcpyOk_eq {n : Nat} (hn : 0 < n) :
    memcpyOk n n = !decide (memcpyMax < n) := by
  simp only [memcpyOk, hn, decide_true, Bool.true_and, Nat.le_refl,
    Bool.and_true, ← decide_not, Nat.not_lt]

theorem append_follows (heap : Nat → Bool) (h : e.Tracks a out s)
    {bs : List UInt8} (hne : bs ≠ []) :
    Outcome.Rel FailsAsSizes (DataEncoder.Tracks a (out ++ bs))
      (e.append a heap bs) (s.append a heap bs.length) := by
  have hensure : Outcome.Rel FailsAsSizes (DataEncoder.Tracks a out)
      ((e.ensure a heap bs.length).mapFail fun _ => Retcode.failure)
      (s.ensure a heap bs.length) :=
    (ensure_follows h bs.length).mapFail fun _ _ _ => rfl
  refine hensure.bind ?_
  intro e₁ s₁ h₁
  obtain ⟨b, hb, hsize, hlen, htake⟩ := h₁.holds.block
  have hp := h₁.holds.pos
  have hpos := h₁.pos
  have hfits := h₁.fits
  have hcount := memcpyOk_eq (List.length_pos_iff.mpr hne)
  simp only [hb, BlockSizes.put]
  by_cases hmax : memcpyMax < bs.length
  · rw [if_pos hmax, memcpyS, hcount]
    simp only [hmax, decide_true, Bool.not_true, Bool.false_eq_true, if_false]
    exact .fail rfl
  · rw [if_neg hmax]
    have hok : memcpyOk bs.length bs.length = true := by simp [hcount, hmax]
    by_cases hroom : s₁.pos + bs.length ≤ s₁.cap
    · obtain ⟨data, hcopy, hdlen, hdtake⟩ := memcpyS_ok b.data bs hok
        (show 0 + bs.length ≤ bs.length by omega)
        (show e₁.pos + bs.length ≤ b.data.length by omega)
      rw [hcopy, if_pos hroom]
      have hadv : a.sizeT (e₁.pos + bs.length) = (out ++ bs).length := by
        rw [List.length_append, Abi.sizeT_of_lt (by omega)]
        omega
      refine .ok ⟨⟨⟨_, rfl, hsize, hdlen.trans hlen, ?_⟩, hadv, ?_,
        h₁.holds.live⟩, ?_, h₁.allocs, h₁.fits⟩
      · rw [List.drop_zero, List.take_length, hp, htake] at hdtake
        rw [List.length_append]
        exact hdtake
      · rw [List.length_append]
        dsimp only
        omega
      · rw [List.length_append]
        dsimp only
        omega
    · rw [if_neg hroom, memcpyS_fault hok (by omega) (by omega)]
      exact .fault

theorem appendAll_follows (heap : Nat → Bool) {ws : List (List UInt8)}
    (hne : ∀ bs ∈ ws, bs ≠ []) :
    ∀ {e : DataEncoder} {s : BlockSizes} {out : List UInt8},
      e.Tracks a out s →
      Outcome.Rel FailsAsSizes (DataEncoder.Tracks a (out ++ ws.flatten))
        (e.appendAll a heap ws) (s.run a heap (ws.map List.length)) := by
  induction ws with
  | nil =>
      intro e s out h
      rw [List.flatten_nil, List.append_nil]
      exact .ok h
  | cons bs ws ih =>
      intro e s out h
      rw [List.flatten_cons, ← List.append_assoc]
      exact (append_follows heap h (hne bs List.mem_cons_self)).bind
        fun _ _ h₁ => ih (fun w hw => hne w (List.mem_cons_of_mem _ hw)) h₁

theorem init_tracks (hserved : heap 0 = true) :
    ∃ e, DataEncoder.init a heap = .ok e ∧ e.Tracks a [] BlockSizes.init := by
  have hword := a.wordSize_le
  have hmod := a.sizeMod_ge
  have hfits : initBufferSize + a.wordSize < a.sizeMod := by
    simp only [initBufferSize]
    omega
  have hall := allocateMemBlock_eq heap 0
    (show initBufferSize < a.sizeMod by omega)
  rw [if_pos hserved, if_pos hfits] at hall
  refine ⟨⟨some ⟨initBufferSize, List.replicate initBufferSize 0⟩, 0, true, 1⟩,
    ?_, ⟨⟨_, rfl, rfl, List.length_replicate, rfl⟩, rfl, Nat.zero_le _, rfl⟩,
    rfl, rfl, hfits⟩
  rw [DataEncoder.init, hall]
  rfl

theorem init_refused (hrefused : heap 0 = false) :
    DataEncoder.init a heap = .fail Retcode.outOfMemory := by
  have hword := a.wordSize_le
  have hmod := a.sizeMod_ge
  have hsmall : initBufferSize < a.sizeMod := by
    simp only [initBufferSize]
    omega
  have hall := allocateMemBlock_eq heap 0 hsmall
  rw [hrefused] at hall
  rw [DataEncoder.init, hall]
  rfl

/-- What `GetSerializedData` makes of the end of the run that wrote `out`. -/
def serializedEnd (heap : Nat → Bool) (dataInfo : DataInfo)
    (out : List UInt8) :
    Outcome Unit BlockSizes → Outcome (Int × DataInfo) DataInfo
  | .ok s =>
      if intMax < s.pos then .fail (Retcode.failure, dataInfo)
      else if heap s.allocs then .ok ⟨.block out, s.pos⟩
      else .fail (Retcode.outOfMemory, ⟨.null, s.pos⟩)
  | .fail _ => .fail (Retcode.failure, dataInfo)
  | .fault => .fault

/-- It is a copy of something. -/
def Serialized (dataInfo : DataInfo) : Prop :=
  ¬ dataInfo.length ≤ 0 ∧ dataInfo.data ≠ .null

theorem getSerializedData_end (heap : Nat → Bool) (h : e.Tracks a out s)
    (dataInfo : DataInfo) :
    e.getSerializedData a heap dataInfo =
        serializedEnd heap dataInfo (Format.encFramed a.wordSize out)
          (s.append a heap a.wordSize) ∧
      ∀ dataInfo', e.getSerializedData a heap dataInfo = .ok dataInfo' →
        Serialized dataInfo' := by
  have hlast := append_follows heap h
    (trailer_ne_nil (a := a) e.pos)
  rw [length_leBytes] at hlast
  generalize happ : e.append a heap (leBytes a.wordSize e.pos) = x at hlast
  generalize s.append a heap a.wordSize = y at hlast ⊢
  cases hlast with
  | fail hc =>
      rw [DataEncoder.getSerializedData, encodeSize_eq h.holds.live, happ]
      exact ⟨rfl, fun _ hok => by cases hok⟩
  | fault =>
      rw [DataEncoder.getSerializedData, encodeSize_eq h.holds.live, happ]
      exact ⟨rfl, fun _ hok => by cases hok⟩
  | @ok e₁ s₁ h₁ =>
      have hout : out ++ leBytes a.wordSize e.pos =
          Format.encFramed a.wordSize out := by
        rw [Format.encFramed, h.holds.pos]
      have hlen := length_encFramed (a := a) out
      have hwpos := a.wordSize_pos
      have hpos := h₁.pos
      have hholds := h₁.holds
      rw [hout] at hholds hpos
      rw [getSerializedData_copy h.holds.live happ hholds (by omega),
        ← hpos, h₁.allocs]
      refine ⟨rfl, fun dataInfo' hok => ?_⟩
      split at hok
      · cases hok
      · split at hok
        · cases hok
          have hpositive : ¬ (s₁.pos : Int) ≤ 0 := by omega
          exact ⟨hpositive, fun hnull => by cases hnull⟩
        · cases hok

/-- How a call of `ProcessEncode` ends that appends `ws`. -/
def encodingEnd (a : Abi) (heap : Nat → Bool) (dataInfo : DataInfo)
    (ws : List (List UInt8)) : Outcome (Int × DataInfo) DataInfo :=
  if heap 0 then
    serializedEnd heap dataInfo (Format.encFramed a.wordSize ws.flatten)
      (BlockSizes.init.run a heap (ws.map List.length ++ [a.wordSize]))
  else .fail (Retcode.outOfMemory, dataInfo)

theorem processEncodeWith_eq (dataInfo : DataInfo)
    {recursiveEncode : DataEncoder → Outcome Int DataEncoder}
    {ws : List (List UInt8)}
    (hrun : ∀ e : DataEncoder, e.allocSuccess = true →
      recursiveEncode e = e.appendAll a heap ws)
    (hne : ∀ bs ∈ ws, bs ≠ []) :
    processEncodeWith a heap dataInfo recursiveEncode =
      encodingEnd a heap dataInfo ws := by
  rw [processEncodeWith, encodingEnd]
  cases hserved : heap 0 with
  | false =>
      rw [init_refused hserved]
      rfl
  | true =>
      obtain ⟨e₀, hinit, h₀⟩ := init_tracks (a := a) hserved
      have hbody := appendAll_follows heap hne h₀
      rw [hinit, if_pos rfl, BlockSizes.run_append]
      simp only [Outcome.mapFail_ok, Outcome.ok_bind, hrun e₀ h₀.holds.live]
      rw [List.nil_append] at hbody
      generalize e₀.appendAll a heap ws = x at hbody ⊢
      generalize BlockSizes.init.run a heap (ws.map List.length) = y at hbody ⊢
      cases hbody with
      | fail hc =>
          rw [hc]
          rfl
      | fault => rfl
      | @ok e₁ s₁ h₁ =>
          obtain ⟨hend, hserialized⟩ :=
            getSerializedData_end heap h₁ dataInfo
          have hone : s₁.run a heap [a.wordSize] =
              s₁.append a heap a.wordSize := by
            simp only [BlockSizes.run]
            cases s₁.append a heap a.wordSize <;> rfl
          rw [Outcome.mapFail_ok, Outcome.ok_bind, Outcome.ok_bind, hone,
            ← hend]
          cases hget : e₁.getSerializedData a heap dataInfo with
          | fail c => rfl
          | fault => rfl
          | ok dataInfo' =>
              obtain ⟨hlength, hdata⟩ := hserialized dataInfo' hget
              exact if_neg (by simp [hlength, hdata])

end Follow

/-- What `ParcelDataInfo` does not refuse: no data, and a length. -/
def DataInfo.Consistent (d : DataInfo) : Prop := d.data = .null → d.length = 0

/-- The encoding of a parameter list, or an error and the caller's `DataInfo`
as it was or empty. -/
def EncodesCleanly (a : Abi) (heap : Nat → Bool) (dataInfo : DataInfo)
    (args : List Param) : Prop :=
  match processEncode a heap dataInfo args with
  | .ok outInfo =>
      outInfo = ⟨.block (encoding a args), (encoding a args).length⟩ ∧
      processEncode a (fun _ => true) dataInfo args = .ok outInfo
  | .fail (retCode, dataInfo') =>
      retCode ≠ Retcode.success ∧
      (dataInfo' = dataInfo ∨ dataInfo' = ⟨.null, 0⟩) ∧
      (dataInfo.Consistent → dataInfo'.Consistent)
  | .fault => False

/-- No block on the way is one `size_t` cannot express, and if every request
on the way is served, the last one is as well. -/
def LastRequestServed (a : Abi) (heap : Nat → Bool) (dataInfo : DataInfo)
    (args : List Param) : Prop :=
  heap 0 = true →
    match BlockSizes.init.run a heap
        (args.flatMap (paramSizes a) ++ [a.wordSize]) with
    | .ok s =>
        s.pos ≤ intMax → heap s.allocs = true ∨ dataInfo = ⟨.null, s.pos⟩
    | .fail _ => True
    | .fault => False

section Clean

variable {a : Abi} {heap : Nat → Bool} {dataInfo : DataInfo}
  {args : List Param}

theorem processEncode_end (hargs : ∀ p ∈ args, encodable p) :
    processEncode a heap dataInfo args =
      encodingEnd a heap dataInfo (args.flatMap (paramWrites a)) := by
  rw [processEncode_eq]
  exact processEncodeWith_eq dataInfo (fun e he => recursiveEncode_eq he hargs)
    (writes_ne_nil hargs)

theorem encodesCleanly_iff (hargs : ∀ p ∈ args, encodable p) :
    EncodesCleanly a heap dataInfo args ↔
      LastRequestServed a heap dataInfo args := by
  simp only [EncodesCleanly, LastRequestServed, processEncode_end hargs,
    encodingEnd, writes_sizes hargs, flatten_writes hargs, ← encoding.eq_1]
  cases hserved : heap 0 with
  | false =>
      simp only [Bool.false_eq_true, if_false]
      refine ⟨fun _ hserved => ?_, fun _ => ⟨by decide, .inl trivial, id⟩⟩
      cases hserved
  | true =>
      simp only [if_true, forall_const]
      cases hsizes : BlockSizes.init.run a heap
          (args.flatMap (paramSizes a) ++ [a.wordSize]) with
      | fault => exact Iff.rfl
      | fail c => exact ⟨fun _ => trivial, fun _ => ⟨by decide, .inl rfl, id⟩⟩
      | ok s =>
          have hpos : s.pos = (encoding a args).length := by
            rw [BlockSizes.run_pos hsizes, List.sum_append, sum_sizes hargs,
              length_encoding]
            exact Nat.zero_add _
          have hwpos := a.wordSize_pos
          have hlen := length_encoding (a := a) args
          simp only [serializedEnd, BlockSizes.run_served hsizes]
          by_cases hmax : intMax < s.pos
          · simp only [if_pos hmax]
            exact ⟨fun _ h => by omega, fun _ => ⟨by decide, .inl trivial, id⟩⟩
          · rw [if_neg hmax, if_neg hmax]
            cases hlast : heap s.allocs with
            | true =>
                simp only [if_true, hpos]
                exact ⟨fun _ _ => .inl trivial, fun _ => ⟨trivial, trivial⟩⟩
            | false =>
                simp only [Bool.false_eq_true, if_false, false_or]
                constructor
                · rintro ⟨-, hsame | hempty, -⟩ -
                  · exact hsame.symm
                  · have := (DataInfo.mk.inj hempty).2
                    omega
                · intro h
                  have hsame := h (by omega)
                  exact ⟨by decide, .inl hsame.symm, fun hc => hsame ▸ hc⟩

/-- One byte is encoded and the last of two requests fails: there is no data,
and the length is nine. -/
theorem length_without_data :
    (∀ p ∈ [(⟨.fixed 1, #v[7]⟩ : Param)], encodable p) ∧
      processEncode .lp64 (· == 0) ⟨.null, 0⟩ [⟨.fixed 1, #v[7]⟩] =
        .fail (Retcode.outOfMemory, ⟨.null, 9⟩) ∧
      ¬ EncodesCleanly .lp64 (· == 0) ⟨.null, 0⟩ [⟨.fixed 1, #v[7]⟩] := by
  have hargs : ∀ p ∈ [(⟨.fixed 1, #v[7]⟩ : Param)], encodable p := by
    simp [encodable]
  have hrun : processEncode .lp64 (· == 0) ⟨.null, 0⟩ [⟨.fixed 1, #v[7]⟩] =
      .fail (Retcode.outOfMemory, ⟨.null, 9⟩) := by
    have hsizes : BlockSizes.init.run .lp64 (· == 0) [1, 8] =
        .ok ⟨256, 9, 1⟩ := rfl
    rw [processEncode_end hargs]
    exact congrArg
      (serializedEnd (· == 0) ⟨.null, 0⟩ (Format.encFramed 8 [7])) hsizes
  refine ⟨hargs, hrun, ?_⟩
  rw [EncodesCleanly, hrun]
  exact fun h => absurd (h.2.2 (fun _ => rfl) rfl) (by decide)

/-- The block has to grow, and that is the request that fails. -/
theorem encodesCleanly_growth :
    EncodesCleanly .lp64 (· == 0) ⟨.null, 0⟩ [zeroString 300] := by
  have hargs : ∀ p ∈ [zeroString 300], encodable p := by
    intro p hp
    rw [List.mem_singleton.mp hp]
    trivial
  have hsizes : BlockSizes.init.run .lp64 (· == 0) [8, 300, 8] =
      .fail () := by
    simp [BlockSizes.run, BlockSizes.append, BlockSizes.ensure,
      BlockSizes.put, BlockSizes.grow, BlockSizes.init, Abi.sizeT,
      Abi.sizeMod, Abi.wordSize, initBufferSize, memcpyMax]
  rw [encodesCleanly_iff hargs, LastRequestServed, List.flatMap_singleton,
    paramSizes_zeroString (by omega)]
  intro _
  exact hsizes ▸ trivial

/-! ## On a 64-bit `size_t`

Here the sizes do not wrap for any buffer that can be there, so that every
failure is that of an allocation. -/

/-- No request of a legal encoding exceeds the range. -/
theorem BlockSizes.run_lp64 {heap : Nat → Bool} {ns : List Nat} :
    ∀ {s : BlockSizes}, s.pos ≤ s.cap → s.cap ≤ 2 ^ 32 + intMax →
      s.pos + ns.sum ≤ intMax → s.run .lp64 heap ns ≠ .fault := by
  induction ns with
  | nil =>
      intro s hle hcap hmax hfault
      rw [run] at hfault
      cases hfault
  | cons n ns ih =>
      intro s hle hcap hmax
      rw [List.sum_cons] at hmax
      simp only [intMax] at hcap hmax
      have hneed : Abi.lp64.sizeT (s.pos + n) = s.pos + n :=
        Abi.sizeT_small (by omega)
      have hnew : Abi.lp64.sizeT (s.cap * buffExtensionFactor + n) =
          2 * s.cap + n := by
        rw [Abi.sizeT_of_lt] <;>
          simp only [Abi.sizeMod, Abi.wordSize, buffExtensionFactor] <;> omega
      have hmem : ¬ memcpyMax < n := by
        simp only [memcpyMax]
        omega
      rw [run, append, ensure, hneed]
      by_cases hroom : s.pos + n ≤ s.cap
      · rw [if_pos hroom, Outcome.ok_bind, put, if_neg hmem, if_pos hroom]
        exact ih hroom (by simp only [intMax]; omega)
          (by simp only [intMax]; omega)
      · rw [if_neg hroom, grow]
        split
        · have hfit : 2 * s.cap + n + Abi.lp64.wordSize < Abi.lp64.sizeMod := by
            simp only [Abi.sizeMod, Abi.wordSize]
            omega
          have hkeep : s.pos ≤ 2 * s.cap + n := by omega
          have hput : s.pos + n ≤ 2 * s.cap + n := by omega
          simp only [hnew, hfit, hkeep, decide_true, Bool.and_self, if_true,
            Outcome.ok_bind, put, if_neg hmem, if_pos hput]
          exact ih hput (by simp only [intMax]; omega)
            (by simp only [intMax]; omega)
        · intro hfault
          cases hfault

theorem lastRequestServed_lp64 (hargs : ∀ p ∈ args, encodable p)
    (hmax : (encoding .lp64 args).length ≤ intMax) :
    LastRequestServed .lp64 heap dataInfo args ↔
      ∀ s, heap 0 = true → BlockSizes.init.run .lp64 heap
        (args.flatMap (paramSizes .lp64) ++ [Abi.lp64.wordSize]) = .ok s →
      heap s.allocs = true ∨
        dataInfo = ⟨.null, (encoding .lp64 args).length⟩ := by
  have hsum : (args.flatMap (paramSizes .lp64) ++ [Abi.lp64.wordSize]).sum =
      (encoding .lp64 args).length := by
    rw [List.sum_append, sum_sizes hargs, length_encoding]
    rfl
  have hne : BlockSizes.init.run .lp64 heap
      (args.flatMap (paramSizes .lp64) ++ [Abi.lp64.wordSize]) ≠ .fault :=
    BlockSizes.run_lp64 (Nat.zero_le _) (by decide)
      (by rw [hsum]; simpa [BlockSizes.init])
  rw [LastRequestServed]
  cases hrun : BlockSizes.init.run .lp64 heap
      (args.flatMap (paramSizes .lp64) ++ [Abi.lp64.wordSize]) with
  | fault => exact absurd hrun hne
  | fail c => exact ⟨fun _ _ _ => nofun, fun _ _ => trivial⟩
  | ok s =>
      have hpos : s.pos = (encoding .lp64 args).length := by
        rw [BlockSizes.run_pos hrun, hsum]
        exact Nat.zero_add _
      rw [← hpos] at hmax ⊢
      constructor
      · rintro h s' hinit ⟨⟩
        exact h hinit hmax
      · exact fun h hinit _ => h s hinit rfl

end Clean

end AiEngine.Ref
