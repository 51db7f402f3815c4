import AiEngine.Proofs.IpcRoundTrip

/-!
# What the reader of a payload can do

The reader takes the fields of a payload from the message first and works on
them afterwards, so how far it reads depends on the leading length alone.
What it then does in shared memory is a row of calls each of which can fail,
and on every failure it has to undo what came before. `Pops` lists the ways
this can go, with the calls made on each.
-/

namespace AiEngine.Ref

open AiEngine.Lib

section

variable {Io : Type} {ser : Serializer Io} {served : Nat → Bool}

section

variable {h : Host} {id : Int} {s : Segment}

theorem shmdt_fst (served : Nat → Bool) (hs : h.seg id = some s) :
    (h.shmdt served id).1 = served h.calls.length := by
  have hs' (cs : List SysCall) : ({ h with calls := cs } : Host).seg id =
      some s := hs
  cases hserved : served h.calls.length with
  | false => simp [Host.shmdt, Host.call, hserved]
  | true =>
      simp only [Host.shmdt, Host.call, hserved, hs']
      split <;> rfl

theorem shmdt_calls (served : Nat → Bool) (id : Int) (h : Host) :
    (h.shmdt served id).2.calls = h.calls ++ [.shmdt id] := by
  cases hserved : served h.calls.length with
  | false => simp [Host.shmdt, Host.call, hserved]
  | true =>
      simp only [Host.shmdt, Host.call, hserved]
      split
      · rfl
      · split <;> rfl

theorem releaseShmId_calls (hid : id ≠ -1) :
    (releaseShmId served h id).calls = h.calls ++ [.shmRmid id] := by
  rw [releaseShmId, if_neg hid]
  cases hserved : served h.calls.length with
  | false => simp [Host.shmRmid, Host.call, hserved]
  | true =>
      simp only [Host.shmRmid, Host.call, hserved]
      split
      · rfl
      · split <;> rfl

theorem shmat_refused
    (hno : served h.calls.length = false ∨ h.seg id = none) :
    h.shmat served id =
      (false, { h with calls := h.calls ++ [.shmat id] }) := by
  cases hserved : served h.calls.length with
  | false => simp [Host.shmat, Host.call, hserved]
  | true =>
      have hseg : h.seg id = none := by simpa [hserved] using hno
      simp [Host.shmat, Host.call, hserved, hseg]

end

theorem copyBytes_refused {h : Host} (hserved : served h.calls.length = false)
    (dest src : List UInt8) (size : Nat) :
    copyBytes served h dest src size =
      .ok (none, { h with calls := h.calls ++ [.memcpy] }) := by
  simp [copyBytes, Host.call, hserved]

theorem copyBytes_overrun {h : Host} (hserved : served h.calls.length = true)
    (dest : List UInt8) {src : List UInt8} {size : Nat} (hpos : 0 < size)
    (hmax : size ≤ intMax) (hshort : src.length < size) :
    copyBytes served h dest src size = .fault := by
  have hload : load src 0 size = none := by
    rw [load_eq_none]
    omega
  simp only [copyBytes, Host.call, hserved, memcpyS, memcpyOk_self hpos hmax,
    hload, if_true]

/-! ## The ways it can go

The reader attaches, copies, detaches and removes, and each of the four can
fail. `Pops` has a constructor for each end, with the calls that were made
until then. -/

/-- The calls of an attempt that gets as far as the copy. -/
def popCalls (id : Int) : List SysCall :=
  [.shmat id, .malloc, .memcpy, .shmdt id, .shmRmid id]

/-- A length the reader of a segment takes. -/
def PopLength (n : Int) : Prop := 0 < n ∧ n ≤ maxShmDataSize

/-- What `IpcIoPopSharedMemory` leaves once it has read the identifier `id`
and has `d` with the length, and the calls it made. -/
inductive Pops (served : Nat → Bool) (request : Io) (h : Host) (id : Int)
    (d : DataInfo) : Ipc (UnParcelled Io DataInfo) → Prop where
  | noSegment (hid : id = -1) :
      Pops served request h id d (.ok ⟨Retcode.failure, d, request, h⟩)
  | badLength (hid : id ≠ -1) (hlen : ¬ PopLength d.length) {h' : Host}
      (hcalls : h'.calls = h.calls ++ [.shmRmid id]) :
      Pops served request h id d (.ok ⟨Retcode.failure, d, request, h'⟩)
  | unattached (hid : id ≠ -1) (hlen : PopLength d.length)
      (hno : served h.calls.length = false ∨ h.seg id = none) {h' : Host}
      (hcalls : h'.calls = h.calls ++ [.shmat id, .shmRmid id]) :
      Pops served request h id d (.ok ⟨Retcode.failure, d, request, h'⟩)
  | unallocated (hid : id ≠ -1) (hlen : PopLength d.length)
      (hat : served h.calls.length = true) {s : Segment}
      (hseg : h.seg id = some s)
      (hmalloc : served (h.calls.length + 1) = false) {h' : Host}
      (hcalls : h'.calls =
        h.calls ++ [.shmat id, .malloc, .shmdt id, .shmRmid id]) :
      Pops served request h id d
        (.ok ⟨Retcode.outOfMemory, { d with data := .null }, request, h'⟩)
  | uncopied (hid : id ≠ -1) (hlen : PopLength d.length)
      (hat : served h.calls.length = true) {s : Segment}
      (hseg : h.seg id = some s)
      (hmalloc : served (h.calls.length + 1) = true)
      (hcopy : served (h.calls.length + 2) = false) {h' : Host}
      (hcalls : h'.calls = h.calls ++ popCalls id) :
      Pops served request h id d (.ok ⟨Retcode.memoryCopyFailure,
        { d with data := .dangling }, request, h'⟩)
  | overrun (hid : id ≠ -1) (hlen : PopLength d.length)
      (hat : served h.calls.length = true) {s : Segment}
      (hseg : h.seg id = some s)
      (hmalloc : served (h.calls.length + 1) = true)
      (hcopy : served (h.calls.length + 2) = true)
      (hshort : (s.bytes.length : Int) < d.length) :
      Pops served request h id d .fault
  | undetached (hid : id ≠ -1) (hlen : PopLength d.length)
      (hat : served h.calls.length = true) {s : Segment}
      (hseg : h.seg id = some s)
      (hmalloc : served (h.calls.length + 1) = true)
      (hcopy : served (h.calls.length + 2) = true)
      (hfit : d.length ≤ s.bytes.length)
      (hdt : served (h.calls.length + 3) = false) {h' : Host}
      (hcalls : h'.calls = h.calls ++ popCalls id) :
      Pops served request h id d
        (.ok ⟨Retcode.failure, { d with data := .dangling }, request, h'⟩)
  | popped (hid : id ≠ -1) (hlen : PopLength d.length)
      (hat : served h.calls.length = true) {s : Segment}
      (hseg : h.seg id = some s)
      (hmalloc : served (h.calls.length + 1) = true)
      (hcopy : served (h.calls.length + 2) = true)
      (hfit : d.length ≤ s.bytes.length)
      (hdt : served (h.calls.length + 3) = true) {h' : Host}
      (hcalls : h'.calls = h.calls ++ popCalls id) :
      Pops served request h id d (.ok ⟨Retcode.success,
        { d with data := .block (s.bytes.take d.length.toNat) }, request, h'⟩)

/-- A segment that the reader may go on to read: it has an identifier, a
length that the reader takes, and it exists. -/
structure Reaches (h : Host) (id n : Int) (s : Segment) : Prop where
  named : id ≠ -1
  length : PopLength n
  seg : h.seg id = some s

/-- A reader of a segment reads too far, or leaves the message where it was
and succeeds only with the bytes of the segment. -/
theorem Pops.cases_on_success {request : Io} {h : Host} {id : Int}
    {d : DataInfo} {out : Ipc (UnParcelled Io DataInfo)}
    (hp : Pops served request h id d out) :
    (out = .fault ∧ ∃ s, Reaches h id d.length s ∧
      (s.bytes.length : Int) < d.length) ∨
    ∃ r, out = .ok r ∧ r.request = request ∧
      (r.retCode = Retcode.success → ∃ s, Reaches h id d.length s ∧
        d.length ≤ s.bytes.length ∧
        r.out = { d with data := .block (s.bytes.take d.length.toNat) }) := by
  have hfailure : Retcode.failure ≠ Retcode.success := by decide
  have hmemory : Retcode.outOfMemory ≠ Retcode.success := by decide
  have hcopied : Retcode.memoryCopyFailure ≠ Retcode.success := by decide
  cases hp with
  | noSegment => exact .inr ⟨_, rfl, rfl, fun hok => absurd hok hfailure⟩
  | badLength => exact .inr ⟨_, rfl, rfl, fun hok => absurd hok hfailure⟩
  | unattached => exact .inr ⟨_, rfl, rfl, fun hok => absurd hok hfailure⟩
  | unallocated => exact .inr ⟨_, rfl, rfl, fun hok => absurd hok hmemory⟩
  | uncopied => exact .inr ⟨_, rfl, rfl, fun hok => absurd hok hcopied⟩
  | overrun hid hlen _ hseg _ _ hshort =>
      exact .inl ⟨rfl, _, ⟨hid, hlen, hseg⟩, hshort⟩
  | undetached => exact .inr ⟨_, rfl, rfl, fun hok => absurd hok hfailure⟩
  | popped hid hlen _ hseg _ _ hfit _ _ =>
      exact .inr ⟨_, rfl, rfl, fun _ => ⟨_, ⟨hid, hlen, hseg⟩, hfit, rfl⟩⟩

/-- What `IpcIoPopSharedMemory` does with a segment that can be attached. -/
theorem popAttached_pops {h : Host} {shmId : Int} {d : DataInfo} {s : Segment}
    (hid : shmId ≠ -1) (hlen : PopLength d.length)
    (hat : served h.calls.length = true) (hseg : h.seg shmId = some s)
    (request : Io) :
    Pops served request h shmId d
      (match h.shmat served shmId with
      | (false, h) =>
          .ok ⟨Retcode.failure, d, request, releaseShmId served h shmId⟩
      | (true, h) =>
          match h.call served .malloc with
          | (false, h) =>
              .ok ⟨Retcode.outOfMemory, { d with data := .null }, request,
                releaseShmId served (h.shmdt served shmId).2 shmId⟩
          | (true, h) =>
              copyBytes served h (List.replicate d.length.toNat 0)
                ((h.seg shmId).elim [] (·.bytes)) d.length.toNat >>= fun
                | (none, h) =>
                    .ok ⟨Retcode.memoryCopyFailure, { d with data := .dangling },
                      request,
                      releaseShmId served (h.shmdt served shmId).2 shmId⟩
                | (some bytes, h) =>
                    match h.shmdt served shmId with
                    | (false, h) =>
                        .ok ⟨Retcode.failure, { d with data := .dangling },
                          request, releaseShmId served h shmId⟩
                    | (true, h) =>
                        .ok ⟨Retcode.success, { d with data := .block bytes },
                          request, releaseShmId served h shmId⟩) := by
  have hpos : 0 < d.length.toNat := by
    have := hlen.1
    omega
  have hmax : d.length.toNat ≤ intMax := by
    have := hlen.2
    simp only [maxShmDataSize, intMax] at this ⊢
    omega
  obtain ⟨h₁, hrun₁, hsets₁, hcalls₁⟩ := shmat_ok hat hseg
  have hlen₁ : h₁.calls.length = h.calls.length + 1 := by
    rw [hcalls₁, List.length_append, List.length_singleton]
  simp only [hrun₁, Host.call]
  cases hmalloc : served h₁.calls.length with
  | false =>
      refine .unallocated hid hlen hat hseg (hlen₁ ▸ hmalloc) ?_
      simp [releaseShmId_calls hid, shmdt_calls, hcalls₁]
  | true =>
  rw [hlen₁] at hmalloc
  have hseg₁ (cs : List SysCall) : ({ h₁ with calls := cs } : Host).seg shmId =
      some { s with attached := s.attached + 1 } := hsets₁.seg
  simp only [hseg₁, Option.elim_some]
  have hlen₂ : (h₁.calls ++ [SysCall.malloc]).length = h.calls.length + 2 := by
    rw [List.length_append, hlen₁, List.length_singleton]
  cases hcopy : served (h₁.calls ++ [SysCall.malloc]).length with
  | false =>
      rw [copyBytes_refused hcopy]
      refine .uncopied hid hlen hat hseg hmalloc (hlen₂ ▸ hcopy) ?_
      simp [releaseShmId_calls hid, shmdt_calls, hcalls₁, popCalls]
  | true =>
  by_cases hfit : d.length.toNat ≤ s.bytes.length
  · rw [copyBytes_take hcopy hpos hmax hfit List.length_replicate]
    rw [hlen₂] at hcopy
    simp only [Outcome.ok_bind]
    have hfst := shmdt_fst served
      (hseg₁ (h₁.calls ++ [.malloc] ++ [.memcpy]))
    have hcalls := shmdt_calls served shmId
      { h₁ with calls := h₁.calls ++ [.malloc] ++ [.memcpy] }
    have hlen₃ : (h₁.calls ++ [SysCall.malloc] ++ [SysCall.memcpy]).length =
        h.calls.length + 3 := by
      rw [List.length_append, hlen₂, List.length_singleton]
    simp only [hlen₃] at hfst
    split
    · next h₃ hrun₃ =>
        rw [hrun₃] at hfst hcalls
        dsimp only at hcalls
        refine .undetached hid hlen hat hseg hmalloc hcopy (by omega)
          hfst.symm ?_
        simp [releaseShmId_calls hid, hcalls, hcalls₁, popCalls]
    · next h₃ hrun₃ =>
        rw [hrun₃] at hfst hcalls
        dsimp only at hcalls
        refine .popped hid hlen hat hseg hmalloc hcopy (by omega) hfst.symm ?_
        simp [releaseShmId_calls hid, hcalls, hcalls₁, popCalls]
  · rw [copyBytes_overrun hcopy _ hpos hmax (Nat.not_le.mp hfit)]
    exact .overrun hid hlen hat hseg hmalloc (hlen₂ ▸ hcopy) (by omega)

/-- What `IpcIoPopSharedMemory` reads, and what it then does. -/
theorem popSharedMemory_pops (served : Nat → Bool) {request request₁ request₂ : Io}
    {id inner : Option Int32}
    (hid : ser.readInt32 request = (id, request₁))
    (hinner : ser.readInt32 request₁ = (inner, request₂))
    (junk : Int32) (h : Host) (d : DataInfo) :
    Pops served request₂ h (id.getD junk).toInt
      { d with length := inner.elim d.length (·.toInt) }
      (ipcIoPopSharedMemory ser served junk request h d) := by
  simp only [ipcIoPopSharedMemory, hid, hinner]
  generalize (id.getD junk).toInt = shmId
  generalize inner.elim d.length (·.toInt) = n
  by_cases hnone : shmId = -1
  · rw [if_pos hnone]
    exact .noSegment hnone
  rw [if_neg hnone]
  by_cases hlen : PopLength n
  · have hgood : ¬ (n ≤ 0 ∨ n > maxShmDataSize) := by
      rintro (hlow | hhigh)
      · exact Int.not_le.mpr hlen.1 hlow
      · exact Int.not_le.mpr hhigh hlen.2
    rw [if_neg hgood]
    by_cases hno : served h.calls.length = false ∨ h.seg shmId = none
    · rw [shmat_refused hno]
      exact .unattached hnone hlen hno (by simp [releaseShmId_calls hnone])
    · have hat : served h.calls.length = true :=
        Bool.eq_true_of_not_eq_false fun hf => hno (.inl hf)
      obtain ⟨s, hseg⟩ := Option.ne_none_iff_exists'.mp
        fun hn => hno (.inr hn)
      exact popAttached_pops hnone hlen hat hseg request₂
  · have hbad : n ≤ 0 ∨ n > maxShmDataSize := by
      simp only [PopLength] at hlen
      omega
    rw [if_pos hbad]
    exact .badLength hnone hlen (releaseShmId_calls hnone)

/-- A `uint32_t` that is positive as an `int` is what it was. -/
theorem toCInt_eq_iff {n : UInt32} {m : Int} (hpos : 0 < m)
    (hmax : m ≤ intMax) : UInt32.toCInt n = m ↔ (n.toNat : Int) = m := by
  have hcases : UInt32.toCInt n =
      if 2 * n.toNat < 4294967296 then (n.toNat : Int)
      else (n.toNat : Int) - 4294967296 :=
    BitVec.toInt_eq_toNat_cond n.toBitVec
  have hlt : n.toNat < 4294967296 := n.toBitVec.isLt
  rw [hcases]
  simp only [intMax] at hmax
  split <;> omega

/-- What `IpcIoPopMemory` leaves once it has read a size and a buffer. -/
inductive PopsBuffer (served : Nat → Bool) (request : Io) (h : Host)
    (size : UInt32) (buf : Option (List UInt8)) (d : DataInfo) :
    Ipc (UnParcelled Io DataInfo) → Prop where
  | refused (hno : buf = none ∨ (size.toNat : Int) ≠ d.length) :
      PopsBuffer served request h size buf d
        (.ok ⟨Retcode.nullParam, d, request, h⟩)
  | unallocated {h' : Host} (hcalls : h'.calls = h.calls ++ [.malloc]) :
      PopsBuffer served request h size buf d
        (.ok ⟨Retcode.outOfMemory, { d with data := .null }, request, h'⟩)
  | uncopied {h' : Host} (hcalls : h'.calls = h.calls ++ [.malloc, .memcpy]) :
      PopsBuffer served request h size buf d
        (.ok ⟨Retcode.memoryCopyFailure, ⟨.null, 0⟩, request, h'⟩)
  | popped {bytes : List UInt8} (hbuf : buf = some bytes)
      (hsize : (size.toNat : Int) = d.length) {h' : Host}
      (hcalls : h'.calls = h.calls ++ [.malloc, .memcpy]) :
      PopsBuffer served request h size buf d (.ok ⟨Retcode.success,
        { d with data := .block bytes }, request, h'⟩)

/-- A reader of a buffer leaves the message where it was and succeeds only
with the bytes of the buffer. -/
theorem PopsBuffer.cases_on_success {request : Io} {h : Host} {size : UInt32}
    {buf : Option (List UInt8)} {d : DataInfo}
    {out : Ipc (UnParcelled Io DataInfo)}
    (hp : PopsBuffer served request h size buf d out) :
    ∃ r, out = .ok r ∧ r.request = request ∧
      (r.retCode = Retcode.success →
        ∃ bytes, buf = some bytes ∧ (size.toNat : Int) = d.length ∧
          r.out = { d with data := .block bytes }) := by
  have hnull : Retcode.nullParam ≠ Retcode.success := by decide
  have hmemory : Retcode.outOfMemory ≠ Retcode.success := by decide
  have hcopied : Retcode.memoryCopyFailure ≠ Retcode.success := by decide
  cases hp with
  | refused => exact ⟨_, rfl, rfl, fun hok => absurd hok hnull⟩
  | unallocated => exact ⟨_, rfl, rfl, fun hok => absurd hok hmemory⟩
  | uncopied => exact ⟨_, rfl, rfl, fun hok => absurd hok hcopied⟩
  | popped hbuf hsize _ => exact ⟨_, rfl, rfl, fun _ => ⟨_, hbuf, hsize, rfl⟩⟩

/-- What `IpcIoPopMemory` reads, and what it then does, for a buffer as long
as was asked for. -/
theorem popMemory_pops (served : Nat → Bool) {request request₁ request₂ : Io}
    {size : Option UInt32} {buf : Option (List UInt8)}
    (hsize : ser.readUint32 request = (size, request₁))
    (hbuf : ser.readBuffer request₁ (size.getD 0) = (buf, request₂))
    (hexact : ∀ bytes, buf = some bytes →
      bytes.length = (size.getD 0).toNat)
    (h : Host) {d : DataInfo} (hpos : 0 < d.length)
    (hmax : d.length ≤ intMax) :
    PopsBuffer served request₂ h (size.getD 0) buf d
      (ipcIoPopMemory ser served request h d) := by
  simp only [ipcIoPopMemory, hsize, hbuf]
  generalize size.getD 0 = n at hexact
  cases buf with
  | none => exact .refused (.inl rfl)
  | some bytes =>
  dsimp only
  have hlen := hexact bytes rfl
  by_cases heq : (n.toNat : Int) = d.length
  · have hint : UInt32.toCInt n = d.length :=
      (toCInt_eq_iff hpos hmax).mpr heq
    simp only [hint, ne_eq, not_true_eq_false, if_false, Host.call]
    cases hmalloc : served h.calls.length with
    | false => exact .unallocated rfl
    | true =>
    dsimp only
    cases hcopy : served (h.calls ++ [SysCall.malloc]).length with
    | false =>
        rw [copyBytes_refused hcopy]
        exact .uncopied (by simp)
    | true =>
        rw [copyBytes_take hcopy (by omega) (by omega) hlen.ge
          List.length_replicate, ← hlen, List.take_length]
        exact .popped rfl heq (by simp)
  · have hint : UInt32.toCInt n ≠ d.length := fun hn =>
      heq ((toCInt_eq_iff hpos hmax).mp hn)
    rw [if_pos hint]
    exact .refused (.inr heq)

/-- A buffer that is read has as many bytes as were asked for. -/
def Serializer.ReadsExactly (ser : Serializer Io) : Prop :=
  ∀ io n bytes io', ser.readBuffer io n = (some bytes, io') →
    bytes.length = n.toNat

/-- The leading length, or what was there if it is missing. -/
def leadLength (ser : Serializer Io) (io : Io) (d₀ : DataInfo) : Int :=
  (ser.readInt32 io).1.elim d₀.length (·.toInt)

/-- The identifier field of a long payload. -/
def readSegmentId (ser : Serializer Io) (io : Io) : Option Int32 × Io :=
  ser.readInt32 (ser.readInt32 io).2

/-- The identifier that the reader of a long payload uses. -/
def segmentId (ser : Serializer Io) (junk : Int32) (io : Io) : Int :=
  ((readSegmentId ser io).1.getD junk).toInt

/-- The second length field of a long payload. -/
def readInnerLength (ser : Serializer Io) (io : Io) : Option Int32 × Io :=
  ser.readInt32 (readSegmentId ser io).2

/-- The length that the reader of a long payload uses. -/
def innerLength (ser : Serializer Io) (io : Io) (d₀ : DataInfo) : Int :=
  (readInnerLength ser io).1.elim (leadLength ser io d₀) (·.toInt)

theorem unParcelDataInfo_eq (ser : Serializer Io) (junk : Int32) (io : Io)
    (h : Host) (d₀ : DataInfo) :
    unParcelDataInfo ser served junk io h d₀ =
      if leadLength ser io d₀ < 0 then
        .ok ⟨Retcode.failure, ⟨d₀.data, leadLength ser io d₀⟩,
          (ser.readInt32 io).2, h⟩
      else if leadLength ser io d₀ = 0 then
        .ok ⟨Retcode.success, ⟨.null, leadLength ser io d₀⟩,
          (ser.readInt32 io).2, h⟩
      else if leadLength ser io d₀ < 200 then
        ipcIoPopMemory ser served (ser.readInt32 io).2 h
          ⟨d₀.data, leadLength ser io d₀⟩
      else
        ipcIoPopSharedMemory ser served junk (ser.readInt32 io).2 h
          ⟨d₀.data, leadLength ser io d₀⟩ := rfl

/-- What `UnParcelDataInfo` does, by the leading length. -/
theorem unParcelDataInfo_cases (ser : Serializer Io)
    (served : Nat → Bool) (junk : Int32) (io : Io) (h : Host) (d₀ : DataInfo) :
    (leadLength ser io d₀ < 0 ∧ unParcelDataInfo ser served junk io h d₀ =
      .ok ⟨Retcode.failure, ⟨d₀.data, leadLength ser io d₀⟩,
        (ser.readInt32 io).2, h⟩) ∨
    (leadLength ser io d₀ = 0 ∧ unParcelDataInfo ser served junk io h d₀ =
      .ok ⟨Retcode.success, ⟨.null, 0⟩, (ser.readInt32 io).2, h⟩) ∨
    ((0 < leadLength ser io d₀ ∧ leadLength ser io d₀ < 200) ∧
      unParcelDataInfo ser served junk io h d₀ = ipcIoPopMemory ser served
        (ser.readInt32 io).2 h ⟨d₀.data, leadLength ser io d₀⟩) ∨
    (200 ≤ leadLength ser io d₀ ∧
      Pops served (readInnerLength ser io).2 h (segmentId ser junk io)
        ⟨d₀.data, innerLength ser io d₀⟩
        (unParcelDataInfo ser served junk io h d₀)) := by
  rw [unParcelDataInfo_eq]
  rcases Int.lt_trichotomy (leadLength ser io d₀) 0 with hneg | hzero | hpos
  · exact .inl ⟨hneg, by rw [if_pos hneg]⟩
  · refine .inr (.inl ⟨hzero, ?_⟩)
    rw [if_neg (by omega), if_pos hzero, hzero]
  · rw [if_neg (by omega), if_neg (by omega)]
    by_cases hlt : leadLength ser io d₀ < 200
    · rw [if_pos hlt]
      exact .inr (.inr (.inl ⟨⟨hpos, hlt⟩, rfl⟩))
    · rw [if_neg hlt]
      have hid : ser.readInt32 (ser.readInt32 io).2 =
          ((readSegmentId ser io).1, (readSegmentId ser io).2) := rfl
      exact .inr (.inr (.inr ⟨Int.not_lt.mp hlt,
        popSharedMemory_pops served hid rfl junk h
          ⟨d₀.data, leadLength ser io d₀⟩⟩))

end

end AiEngine.Ref
