import AiEngine.Ref.AieIpc
import AiEngine.Proofs.ShmSearch

/-!
# A request arrives as it was sent

The two field lists of a request are written by hand, in two languages, and
agree. What does not agree is the range of the payloads: the writer takes
any length, and the reader refuses a shared memory payload above
`MAX_SHM_DATA_SIZE`.

The serializer is assumed to hand back what was written, in order; `InOrder`
states that for each primitive, by the items still to be read. The payload
itself is tracked by `Carries`: which items stand for it, and which segment
holds its bytes. Parcelling the next payload leaves the segments of the
earlier ones alone, because a new segment has a new identifier.
-/

namespace AiEngine.Ref

open AiEngine.Lib

/-- What one primitive writes. -/
inductive Item where
  | int32 (v : Int32)
  | uint32 (v : UInt32)
  | int64 (v : Int64)
  | bool (v : Bool)
  | buffer (bytes : List UInt8)
  deriving DecidableEq, Repr

/-- The primitives return in order what was written: `holds io q` says that
`q` is still to be read from `io`. -/
structure Serializer.InOrder {Io : Type} (ser : Serializer Io)
    (holds : Io → List Item → Prop) : Prop where
  writeInt32 : ∀ {io q v}, holds io q →
    holds (ser.writeInt32 io v) (q ++ [.int32 v])
  writeUint32 : ∀ {io q v}, holds io q →
    holds (ser.writeUint32 io v) (q ++ [.uint32 v])
  writeInt64 : ∀ {io q v}, holds io q →
    holds (ser.writeInt64 io v) (q ++ [.int64 v])
  writeBool : ∀ {io q v}, holds io q →
    holds (ser.writeBool io v) (q ++ [.bool v])
  writeBuffer : ∀ {io q bytes n}, holds io q → n.toNat = bytes.length →
    holds (ser.writeBuffer io bytes n) (q ++ [.buffer bytes])
  readInt32 : ∀ {io q v}, holds io (.int32 v :: q) →
    ∃ io', ser.readInt32 io = (some v, io') ∧ holds io' q
  readUint32 : ∀ {io q v}, holds io (.uint32 v :: q) →
    ∃ io', ser.readUint32 io = (some v, io') ∧ holds io' q
  readInt64 : ∀ {io q v}, holds io (.int64 v :: q) →
    ∃ io', ser.readInt64 io = (some v, io') ∧ holds io' q
  readBool : ∀ {io q v}, holds io (.bool v :: q) →
    ∃ io', ser.readBool io = (some v, io') ∧ holds io' q
  readBuffer : ∀ {io q bytes n}, holds io (.buffer bytes :: q) →
    n.toNat = bytes.length →
    ∃ io', ser.readBuffer io n = (some bytes, io') ∧ holds io' q

/-- The serializer that keeps the items themselves. -/
def itemQueue : Serializer (List Item) where
  writeInt32 io v := io ++ [.int32 v]
  writeUint32 io v := io ++ [.uint32 v]
  writeInt64 io v := io ++ [.int64 v]
  writeBool io v := io ++ [.bool v]
  writeBuffer io bytes n := io ++ [.buffer (bytes.take n.toNat)]
  readInt32
    | .int32 v :: io => (some v, io)
    | io => (none, io)
  readUint32
    | .uint32 v :: io => (some v, io)
    | io => (none, io)
  readInt64
    | .int64 v :: io => (some v, io)
    | io => (none, io)
  readBool
    | .bool v :: io => (some v, io)
    | io => (none, io)
  readBuffer
    | .buffer bytes :: io, n =>
        if n.toNat = bytes.length then (some bytes, io)
        else (none, .buffer bytes :: io)
    | io, _ => (none, io)

theorem itemQueue_inOrder : itemQueue.InOrder (· = ·) where
  writeInt32 := by rintro _ _ _ rfl; rfl
  writeUint32 := by rintro _ _ _ rfl; rfl
  writeInt64 := by rintro _ _ _ rfl; rfl
  writeBool := by rintro _ _ _ rfl; rfl
  writeBuffer := by rintro _ _ _ _ rfl hn; simp [itemQueue, hn]
  readInt32 := by rintro _ q _ rfl; exact ⟨q, rfl, rfl⟩
  readUint32 := by rintro _ q _ rfl; exact ⟨q, rfl, rfl⟩
  readInt64 := by rintro _ q _ rfl; exact ⟨q, rfl, rfl⟩
  readBool := by rintro _ q _ rfl; exact ⟨q, rfl, rfl⟩
  readBuffer := by
    rintro _ q _ _ rfl hn
    exact ⟨q, by simp [itemQueue, hn], rfl⟩

/-- A payload a caller passes: nothing, or a block of as many bytes as it
says. -/
def DataInfo.Proper (d : DataInfo) : Prop :=
  d = ⟨.null, 0⟩ ∨
    ∃ bytes, 0 < bytes.length ∧ bytes.length ≤ intMax ∧
      d = ⟨.block bytes, bytes.length⟩

/-- `items` stand for the payload, on a host where `slot` is the segment
that holds its bytes. -/
inductive Carries (h : Host) : DataInfo → List Item → Option Int → Prop where
  | empty : Carries h ⟨.null, 0⟩ [.int32 0] none
  | inline {bytes : List UInt8} (hpos : 0 < bytes.length)
      (hlt : bytes.length < 200) :
      Carries h ⟨.block bytes, bytes.length⟩
        [.int32 (Int32.ofInt bytes.length),
          .uint32 (UInt32.ofInt bytes.length), .buffer bytes] none
  | shared {bytes : List UInt8} {id key : Int} {uid : UInt32}
      (hge : 200 ≤ bytes.length) (hmax : bytes.length ≤ intMax)
      (hseg : h.seg id = some ⟨id, some key, bytes, uid, 0⟩)
      (hid : 0 ≤ id ∧ id < 2147483648) :
      Carries h ⟨.block bytes, bytes.length⟩
        [.int32 (Int32.ofInt bytes.length), .int32 (Int32.ofInt id),
          .int32 (Int32.ofInt bytes.length)] (some id)

theorem Carries.of_seg {h h' : Host} {d : DataInfo} {items : List Item}
    {slot : Option Int} (hc : Carries h d items slot)
    (hsame : ∀ id, slot = some id → h'.seg id = h.seg id) :
    Carries h' d items slot := by
  cases hc with
  | empty => exact .empty
  | inline hpos hlt => exact .inline hpos hlt
  | shared hge hmax hseg hid =>
      exact .shared hge hmax ((hsame _ rfl).trans hseg) hid

theorem toInt_ofInt {n : Int} (hlo : 0 ≤ n) (hhi : n < 2147483648) :
    (Int32.ofInt n).toInt = n :=
  Int32.toInt_ofInt_of_le (by simp; omega) (by simpa using hhi)

theorem toNat_ofInt {n : Nat} (h : n ≤ intMax) :
    (UInt32.ofInt n).toNat = n := by
  simp only [intMax] at h
  rw [UInt32.ofInt, UInt32.toNat_ofNat']
  omega

theorem toCInt_ofInt {n : Nat} (h : n ≤ intMax) :
    UInt32.toCInt (UInt32.ofInt n) = n := by
  have hnat : (UInt32.ofInt n).toBitVec.toNat = n := toNat_ofInt h
  have hlt : 2 * (UInt32.ofInt n).toBitVec.toNat < 2 ^ 32 := by
    simp only [intMax] at h
    omega
  have hint := BitVec.toInt_eq_toNat_of_lt hlt
  rw [hnat] at hint
  exact hint

section

variable {Io : Type} {ser : Serializer Io} {holds : Io → List Item → Prop}
  {served : Nat → Bool}

/-- A call that changes at most the segment `id`, to `s`. -/
structure Host.Sets (h h' : Host) (id : Int) (s : Option Segment) :
    Prop where
  seg : h'.seg id = s
  other : ∀ i, i ≠ id → h'.seg i = h.seg i
  length : h'.segments.length ≤ h.segments.length
  key : h'.shmKey = h.shmKey

theorem Host.Sets.trans {h h₁ h₂ : Host} {id : Int} {s s' : Option Segment}
    (h1 : h.Sets h₁ id s) (h2 : h₁.Sets h₂ id s') : h.Sets h₂ id s' :=
  ⟨h2.seg, fun i hi => (h2.other i hi).trans (h1.other i hi),
    h2.length.trans h1.length, h2.key.trans h1.key⟩

theorem Host.sets_update {h : Host} {id : Int} {s : Segment}
    (hs : h.seg id = some s) {f : Segment → Segment}
    (hf : ∀ s, (f s).id = s.id) (cs : List SysCall) :
    h.Sets ({ h with calls := cs }.update id f) id (some (f s)) := by
  refine ⟨?_, ?_, ?_, rfl⟩
  · rw [Host.seg_update hf, if_pos rfl, Host.seg_withCalls, hs, Option.map_some]
  · intro i hi
    rw [Host.seg_update hf, if_neg hi, Host.seg_withCalls]
  · rw [Host.length_update]

theorem Host.sets_remove {h : Host} {id : Int} (cs : List SysCall) :
    h.Sets ({ h with calls := cs }.remove id) id none := by
  refine ⟨?_, ?_, ?_, rfl⟩
  · rw [Host.seg_remove, if_pos rfl]
  · intro i hi
    rw [Host.seg_remove, if_neg hi, Host.seg_withCalls]
  · exact List.length_filter_le _ _

section

variable {h : Host} {id : Int} {s : Segment}

theorem shmat_ok (hserved : served h.calls.length = true)
    (hs : h.seg id = some s) :
    ∃ h', h.shmat served id = (true, h') ∧
      h.Sets h' id (some { s with attached := s.attached + 1 }) ∧
      h'.calls = h.calls ++ [.shmat id] := by
  refine ⟨_, ?_, Host.sets_update hs (f := fun s =>
    { s with attached := s.attached + 1 }) (fun _ => rfl)
    (h.calls ++ [SysCall.shmat id]), rfl⟩
  simp [Host.shmat, Host.call, hserved, hs]

theorem shmdt_ok (hserved : served h.calls.length = true)
    (hs : h.seg id = some s) (hkey : s.key ≠ none) :
    ∃ h', h.shmdt served id = (true, h') ∧
      h.Sets h' id (some { s with attached := s.attached - 1 }) ∧
      h'.calls = h.calls ++ [.shmdt id] := by
  refine ⟨_, ?_, Host.sets_update hs (f := fun s =>
    { s with attached := s.attached - 1 }) (fun _ => rfl)
    (h.calls ++ [SysCall.shmdt id]), rfl⟩
  simp [Host.shmdt, Host.call, hserved, hs, hkey]

theorem shmStat_ok (hserved : served h.calls.length = true)
    (hs : h.seg id = some s) :
    ∃ h', h.shmStat served id = (true, h') ∧ h.Sets h' id (some s) ∧
      h'.calls = h.calls ++ [.shmStat id] := by
  refine ⟨{ h with calls := h.calls ++ [SysCall.shmStat id] }, ?_,
    ⟨hs, fun _ _ => rfl, Nat.le_refl _, rfl⟩, rfl⟩
  simp [Host.shmStat, Host.call, hserved, hs]

theorem shmSetUid_ok (hserved : served h.calls.length = true)
    (hs : h.seg id = some s) (uid : UInt32) :
    ∃ h', h.shmSetUid served id uid = (true, h') ∧
      h.Sets h' id (some { s with uid }) := by
  refine ⟨_, ?_, Host.sets_update hs (f := ({ · with uid })) (fun _ => rfl)
    (h.calls ++ [SysCall.shmSet id])⟩
  simp [Host.shmSetUid, Host.call, hserved, hs]

theorem releaseShmId_ok (hserved : served h.calls.length = true)
    (hs : h.seg id = some s) (hatt : s.attached = 0) (hid : id ≠ -1) :
    h.Sets (releaseShmId served h id) id none := by
  have hrun : releaseShmId served h id =
      { h with calls := h.calls ++ [SysCall.shmRmid id] }.remove id := by
    simp [releaseShmId, hid, Host.shmRmid, Host.call, hserved, hs, hatt]
  rw [hrun]
  exact Host.sets_remove _

end

/-- A served copy of the first bytes of a block that has as many. -/
theorem copyBytes_take {h : Host} (hserved : served h.calls.length = true)
    {dest src : List UInt8} {size : Nat} (hpos : 0 < size)
    (hmax : size ≤ intMax) (hfit : size ≤ src.length)
    (hlen : dest.length = size) :
    copyBytes served h dest src size =
      .ok (some (src.take size), { h with calls := h.calls ++ [.memcpy] }) := by
  obtain ⟨copy, hcopy, hclen, htake⟩ := memcpyS_ok dest src
    (memcpyOk_self hpos hmax) (show 0 + size ≤ src.length by omega)
    (show 0 + size ≤ dest.length by omega)
  have hsame : copy = src.take size := by
    rw [Nat.zero_add, List.take_zero, List.nil_append, List.drop_zero,
      ← hlen, ← hclen, List.take_length, hclen, hlen] at htake
    exact htake
  simp only [copyBytes, Host.call, hserved, hcopy, hsame]

theorem copyBytes_ok {h : Host} (hserved : served h.calls.length = true)
    (dest src : List UInt8) (hpos : 0 < src.length)
    (hmax : src.length ≤ intMax) (hlen : dest.length = src.length) :
    copyBytes served h dest src src.length =
      .ok (some src, { h with calls := h.calls ++ [.memcpy] }) := by
  rw [copyBytes_take hserved hpos hmax (Nat.le_refl _) hlen, List.take_length]

/-- The host has fewer segments than keys, with this much to spare. -/
structure Host.Room (h : Host) (n : Nat) : Prop where
  key : h.KeyInRange
  room : h.segments.length + n ≤ 100000

/-- What parcelling a payload leaves: items that stand for it, in a segment
that was not there before, if it needs one. -/
structure Written (holds : Io → List Item → Prop) (q : List Item)
    (h : Host) (d : DataInfo) (io' : Io) (h' : Host) (items : List Item)
    (slot : Option Int) : Prop where
  holds : holds io' (q ++ items)
  carries : Carries h' d items slot
  fresh : ∀ id, slot = some id → h.seg id = none
  frame : ∀ id, slot ≠ some id → h'.seg id = h.seg id

/-- A payload was parcelled, and this much room is left. -/
structure Parcelled (holds : Io → List Item → Prop) (q : List Item)
    (h : Host) (d : DataInfo) (n : Nat) (io' : Io)
    (h' : Host) (items : List Item) (slot : Option Int) : Prop extends
    Written holds q h d io' h' items slot where
  room : h'.Room n

theorem pushSharedMemory_ok (hserved : ∀ n, served n = true)
    (hser : ser.InOrder holds) {io : Io} {q : List Item}
    (hq : holds io q) {h : Host} {n : Nat} (hroom : h.Room (n + 1))
    {bytes : List UInt8} (hge : 200 ≤ bytes.length)
    (hmax : bytes.length ≤ intMax) (uid : UInt32) :
    ∃ io' h' id, ipcIoPushSharedMemory ser served io h
        ⟨.block bytes, bytes.length⟩ uid = .ok (io', h') ∧
      holds io' (q ++ [.int32 (Int32.ofInt id),
        .int32 (Int32.ofInt bytes.length)]) ∧
      (∃ key, h'.seg id = some ⟨id, some key, bytes, uid, 0⟩) ∧
      (0 ≤ id ∧ id < 2147483648) ∧ h.seg id = none ∧
      (∀ i, i ≠ id → h'.seg i = h.seg i) ∧ h'.Room n := by
  obtain ⟨id, h₁, hacq, hnew⟩ := acquireShmSegment_ok hserved hroom.key
    (by
      have := hroom.room
      simp only [shmKeyEnd, shmKeyStart]
      omega) bytes.length
  obtain ⟨key, -, -, -, hsegs⟩ := hnew.created
  obtain ⟨hfresh, hid0, hidle⟩ := h.freshId_spec
  rw [← hnew.id] at hfresh hid0 hidle
  have hneg : ¬ id < 0 := by omega
  have hseg₁ : h₁.seg id =
      some ⟨id, some key, List.replicate bytes.length 0, 0, 0⟩ := by
    simp [Host.seg, hsegs]
  have hother₁ : ∀ i, i ≠ id → h₁.seg i = h.seg i := by
    intro i hi
    simp [Host.seg, hsegs, Ne.symm hi]
  obtain ⟨h₂, hat, hsets₂, -⟩ := shmat_ok (hserved _) hseg₁
  have hlen : (List.replicate bytes.length (0 : UInt8)).length = bytes.length :=
    List.length_replicate
  have hcopy := copyBytes_ok (hserved h₂.calls.length) _ bytes (by omega) hmax
    hlen
  have hsets₃ := Host.sets_update hsets₂.seg (f := ({ · with bytes }))
    (fun _ => rfl) (h₂.calls ++ [.memcpy])
  obtain ⟨h₄, hdt, hsets₄, -⟩ := shmdt_ok (hserved _) hsets₃.seg (by simp)
  obtain ⟨h₅, hstat, hsets₅, -⟩ := shmStat_ok (hserved _) hsets₄.seg
  obtain ⟨h₆, hset, hsets₆⟩ := shmSetUid_ok (hserved _) hsets₅.seg uid
  have hall := (((hsets₂.trans hsets₃).trans hsets₄).trans hsets₅).trans hsets₆
  refine ⟨_, h₆, id, ?_,
    by simpa using hser.writeInt32 (hser.writeInt32 hq),
    ⟨key, hall.seg⟩, ⟨by omega, ?_⟩, hfresh, ?_, ?_, ?_⟩
  · simp [ipcIoPushSharedMemory, hacq, hneg, hat, CPtr.deref, hsets₂.seg,
      hcopy, hdt, hstat, hset]
  · have := hroom.room
    omega
  · exact fun i hi => (hall.other i hi).trans (hother₁ i hi)
  · rw [Host.KeyInRange, hall.key]
    exact hnew.inRange
  · have hlen₁ : h₁.segments.length = h.segments.length + 1 := by
      rw [hsegs, List.length_cons]
    have := hall.length
    have := hroom.room
    omega

/-- A short block goes into the message. -/
theorem parcelDataInfo_inline {bytes : List UInt8} (hpos : 0 < bytes.length)
    (hlt : bytes.length < 200) (io : Io) (h : Host) (uid : UInt32) :
    parcelDataInfo ser served io h ⟨.block bytes, bytes.length⟩ uid =
      .ok (ser.writeBuffer (ser.writeUint32
        (ser.writeInt32 io (Int32.ofInt bytes.length))
        (UInt32.ofInt bytes.length)) bytes (UInt32.ofInt bytes.length), h) := by
  have hne : bytes ≠ [] := List.length_pos_iff.mp hpos
  have hcap : (bytes.length : Int) < ipcMaxTransCapacity := by
    simp only [ipcMaxTransCapacity]
    omega
  simp [parcelDataInfo, hne, hcap, CPtr.deref]

/-- A long block goes into a segment. -/
theorem parcelDataInfo_shared {bytes : List UInt8}
    (hge : 200 ≤ bytes.length) (io : Io) (h : Host) (uid : UInt32) :
    parcelDataInfo ser served io h ⟨.block bytes, bytes.length⟩ uid =
      ipcIoPushSharedMemory ser served
        (ser.writeInt32 io (Int32.ofInt bytes.length)) h
        ⟨.block bytes, bytes.length⟩ uid := by
  have hne : bytes ≠ [] := List.length_pos_iff.mp (by omega)
  have hcap : ¬ (bytes.length : Int) < ipcMaxTransCapacity := by
    simp only [ipcMaxTransCapacity]
    omega
  simp [parcelDataInfo, hne, hcap]

theorem unParcelDataInfo_inline (served : Nat → Bool) {n : Nat} (hpos : 0 < n)
    (hlt : n < 200) {io io' : Io}
    (hread : ser.readInt32 io = (some (Int32.ofInt n), io'))
    (junk : Int32) (h : Host) (d₀ : DataInfo) :
    unParcelDataInfo ser served junk io h d₀ =
      ipcIoPopMemory ser served io' h { d₀ with length := n } := by
  have hlen := toInt_ofInt (n := n) (by omega) (by omega)
  have hneg : ¬ (n : Int) < 0 := by omega
  have hzero : n ≠ 0 := by omega
  have hcap : (n : Int) < ipcMaxTransCapacity := by
    simp only [ipcMaxTransCapacity]
    omega
  simp [unParcelDataInfo, hread, hlen, hneg, hzero, hcap]

theorem unParcelDataInfo_shared (served : Nat → Bool) {n : Nat} (hge : 200 ≤ n)
    (hmax : n ≤ intMax) {io io' : Io}
    (hread : ser.readInt32 io = (some (Int32.ofInt n), io'))
    (junk : Int32) (h : Host) (d₀ : DataInfo) :
    unParcelDataInfo ser served junk io h d₀ =
      ipcIoPopSharedMemory ser served junk io' h
        { d₀ with length := n } := by
  have hlen := toInt_ofInt (n := n) (by omega)
    (by simp only [intMax] at hmax; omega)
  have hneg : ¬ (n : Int) < 0 := by omega
  have hzero : n ≠ 0 := by omega
  have hcap : ¬ (n : Int) < ipcMaxTransCapacity := by
    simp only [ipcMaxTransCapacity]
    omega
  simp [unParcelDataInfo, hread, hlen, hneg, hzero, hcap]

/-- `ParcelDataInfo` writes items that stand for the payload. -/
theorem parcelDataInfo_ok (hserved : ∀ n, served n = true)
    (hser : ser.InOrder holds) {io : Io} {q : List Item}
    (hq : holds io q) {h : Host} {n : Nat} (hroom : h.Room (n + 1))
    {d : DataInfo} (hd : d.Proper) (uid : UInt32) :
    ∃ io' h' items slot, parcelDataInfo ser served io h d uid = .ok (io', h') ∧
      Parcelled holds q h d n io' h' items slot := by
  have hroom' : h.Room n := ⟨hroom.key, by have := hroom.room; omega⟩
  rcases hd with rfl | ⟨bytes, hpos, hmax, rfl⟩
  · exact ⟨_, h, _, none, by simp [parcelDataInfo],
      ⟨hser.writeInt32 hq, .empty, by simp, by simp⟩, hroom'⟩
  · by_cases hlt : bytes.length < 200
    · have hbuf := hser.writeBuffer (hser.writeUint32 (hser.writeInt32 hq
        (v := Int32.ofInt bytes.length)) (v := UInt32.ofInt bytes.length))
        (toNat_ofInt hmax)
      simp only [List.append_assoc, List.cons_append, List.nil_append] at hbuf
      exact ⟨_, h, _, none, parcelDataInfo_inline hpos hlt io h uid,
        ⟨hbuf, .inline hpos hlt, by simp, by simp⟩, hroom'⟩
    · obtain ⟨io', h', id, hrun, hholds, ⟨key, hseg⟩, hid, hfresh, hframe,
          hroom''⟩ := pushSharedMemory_ok hserved hser
        (hser.writeInt32 hq (v := Int32.ofInt bytes.length)) hroom
        (show 200 ≤ bytes.length by omega) hmax uid
      refine ⟨io', h', _, some id,
        (parcelDataInfo_shared (Nat.not_lt.mp hlt) io h uid).trans hrun,
        ⟨by simpa using hholds, .shared (by omega) hmax hseg hid, ?_, ?_⟩,
        hroom''⟩
      · rintro _ ⟨⟩
        exact hfresh
      · exact fun i hi => hframe i fun heq => hi (by rw [heq])

/-- What unparcelling a payload leaves when it succeeds. -/
structure Unparcels {α : Type} (holds : Io → List Item → Prop)
    (q : List Item) (h : Host) (out : α) (slot : Option Int)
    (r : UnParcelled Io α) : Prop where
  retCode : r.retCode = Retcode.success
  out : r.out = out
  holds : holds r.request q
  frame : ∀ id, slot ≠ some id → r.host.seg id = h.seg id

/-- `UnParcelDataInfo` of items that stand for a payload gives the payload
back, unless it is too long for the reader. -/
theorem unParcelDataInfo_ok (hserved : ∀ n, served n = true)
    (hser : ser.InOrder holds) {io : Io} {q items : List Item}
    (hq : holds io (items ++ q)) {h : Host} {d : DataInfo}
    {slot : Option Int} (hc : Carries h d items slot)
    (hmax : d.length ≤ maxShmDataSize) (junk : Int32) (d₀ : DataInfo) :
    ∃ r, unParcelDataInfo ser served junk io h d₀ = .ok r ∧
      Unparcels holds q h d slot r := by
  cases hc with
  | empty =>
      obtain ⟨io', hread, hq'⟩ := hser.readInt32 hq
      refine ⟨⟨Retcode.success, ⟨.null, 0⟩, io', h⟩, ?_, rfl, rfl, hq',
        fun _ _ => rfl⟩
      simp [unParcelDataInfo, hread]
  | @inline bytes hpos hlt =>
      have hint : bytes.length ≤ intMax := by
        simp only [intMax]
        omega
      obtain ⟨io₁, hread₁, hq₁⟩ := hser.readInt32 hq
      obtain ⟨io₂, hread₂, hq₂⟩ := hser.readUint32 hq₁
      obtain ⟨io₃, hread₃, hq₃⟩ := hser.readBuffer hq₂ (toNat_ofInt hint)
      have hcopy := copyBytes_ok
        (h := { h with calls := h.calls ++ [SysCall.malloc] }) (hserved _)
        (List.replicate bytes.length 0) bytes hpos hint
        List.length_replicate
      refine ⟨⟨Retcode.success, ⟨.block bytes, bytes.length⟩, io₃,
        { h with calls := h.calls ++ [SysCall.malloc] ++ [SysCall.memcpy] }⟩,
        ?_, rfl, rfl, hq₃, fun _ _ => rfl⟩
      rw [unParcelDataInfo_inline served hpos hlt hread₁]
      simp [ipcIoPopMemory, hread₂, hread₃, toCInt_ofInt hint, Host.call,
        hserved, toNat_ofInt hint, hcopy]
  | @shared bytes id key uid hge hint hseg hid =>
      have hlen := toInt_ofInt (n := bytes.length) (by omega)
        (by simp only [intMax] at hint; omega)
      have hidlen := toInt_ofInt hid.1 hid.2
      obtain ⟨io₁, hread₁, hq₁⟩ := hser.readInt32 hq
      obtain ⟨io₂, hread₂, hq₂⟩ := hser.readInt32 hq₁
      obtain ⟨io₃, hread₃, hq₃⟩ := hser.readInt32 hq₂
      obtain ⟨h₁, hat, hsets₁, -⟩ := shmat_ok (hserved _) hseg
      have hsets₂ : h₁.Sets { h₁ with calls :=
          h₁.calls ++ [SysCall.malloc, SysCall.memcpy] } id
          (some ⟨id, some key, bytes, uid, 0 + 1⟩) :=
        ⟨hsets₁.seg, fun _ _ => rfl, Nat.le_refl _, rfl⟩
      have hcopy := copyBytes_ok
        (h := { h₁ with calls := h₁.calls ++ [SysCall.malloc] }) (hserved _)
        (List.replicate bytes.length 0) bytes (by omega) hint
        List.length_replicate
      obtain ⟨h₂, hdt, hsets₃, -⟩ := shmdt_ok (hserved _) hsets₂.seg (by simp)
      have hsets₄ := releaseShmId_ok (hserved _) hsets₃.seg rfl
        (show id ≠ -1 by omega)
      have hne : bytes ≠ [] := List.length_pos_iff.mp (by omega)
      have hminus : ¬ id = -1 := by omega
      have hlimit : ¬ maxShmDataSize < (bytes.length : Int) :=
        Int.not_lt.mpr hmax
      have hall := ((hsets₁.trans hsets₂).trans hsets₃).trans hsets₄
      refine ⟨⟨Retcode.success, ⟨.block bytes, bytes.length⟩, io₃,
        releaseShmId served h₂ id⟩, ?_, rfl, rfl, hq₃,
        fun i hi => hall.other i fun heq => hi (by rw [heq])⟩
      rw [unParcelDataInfo_shared served hge hint hread₁]
      simp [ipcIoPopSharedMemory, hread₂, hread₃, hlen, hidlen, hne, hminus,
        hlimit, hat, Host.call, hserved, hsets₁.seg, hcopy, hdt]

/-- The reader of a payload that is too long leaves its length. -/
theorem unParcelDataInfo_refused (served : Nat → Bool)
    (hser : ser.InOrder holds) {io : Io} {q items : List Item}
    (hq : holds io (items ++ q)) {h : Host} {d : DataInfo}
    {slot : Option Int} (hc : Carries h d items slot)
    (hmax : maxShmDataSize < d.length) (junk : Int32) (d₀ : DataInfo) :
    ∃ r, unParcelDataInfo ser served junk io h d₀ = .ok r ∧
      r.retCode = Retcode.failure ∧ r.out = ⟨d₀.data, d.length⟩ := by
  simp only [maxShmDataSize] at hmax
  cases hc with
  | empty => simp at hmax
  | inline hpos hlt =>
      simp only at hmax
      omega
  | @shared bytes id key uid hge hint hseg hid =>
      have hlen := toInt_ofInt (n := bytes.length) (by omega)
        (by simp only [intMax] at hint; omega)
      have hidlen := toInt_ofInt hid.1 hid.2
      obtain ⟨io₁, hread₁, hq₁⟩ := hser.readInt32 hq
      obtain ⟨io₂, hread₂, hq₂⟩ := hser.readInt32 hq₁
      obtain ⟨io₃, hread₃, hq₃⟩ := hser.readInt32 hq₂
      have hminus : ¬ id = -1 := by omega
      have hlimit : maxShmDataSize < (bytes.length : Int) := hmax
      refine ⟨⟨Retcode.failure, ⟨d₀.data, bytes.length⟩, io₃,
        releaseShmId served h id⟩, ?_, rfl, rfl⟩
      rw [unParcelDataInfo_shared served hge hint hread₁]
      simp [ipcIoPopSharedMemory, hread₂, hread₃, hlen, hidlen, hminus, hlimit]

theorem unParcelDataInfo_tooLong (served : Nat → Bool)
    (hser : ser.InOrder holds) {io : Io} {q items : List Item}
    (hq : holds io (items ++ q)) {h : Host} {d : DataInfo}
    {slot : Option Int} (hc : Carries h d items slot)
    (hmax : maxShmDataSize < d.length) (junk : Int32) (d₀ : DataInfo) :
    ∃ r, unParcelDataInfo ser served junk io h d₀ = .ok r ∧
      r.retCode = Retcode.failure := by
  obtain ⟨r, hrun, hret, -⟩ :=
    unParcelDataInfo_refused served hser hq hc hmax junk d₀
  exact ⟨r, hrun, hret⟩

/-! ## The records

Both records end in a payload. What is read after the scalars is the same for
the two of them, so that one lemma says what becomes of it. -/

/-- The payload of a client record. -/
def ClientInfo.extend (c : ClientInfo) : DataInfo := ⟨c.extendMsg, c.extendLen⟩

/-- The payload of an algorithm record. -/
def AlgorithmInfo.extend (g : AlgorithmInfo) : DataInfo :=
  ⟨g.extendMsg, g.extendLen⟩

/-- The scalar fields of a client record, as they are written. -/
def ClientInfo.scalars (c : ClientInfo) : List Item :=
  [.int64 c.clientVersion, .int32 c.clientId, .int32 c.sessionId,
    .uint32 c.serverUid, .uint32 c.clientUid]

/-- The scalar fields of an algorithm record, as they are written. -/
def AlgorithmInfo.scalars (g : AlgorithmInfo) : List Item :=
  [.int64 g.clientVersion, .bool g.isAsync, .int32 g.algorithmType,
    .int64 g.algorithmVersion, .bool g.isCloud, .int32 g.operateId,
    .int32 g.requestId]

theorem parcelClientInfo_eq (hser : ser.InOrder holds) {io : Io}
    {q : List Item} (hq : holds io q) (c : ClientInfo) :
    ∃ io', holds io' (q ++ c.scalars) ∧ ∀ served h,
      parcelClientInfo ser served io h c =
        parcelDataInfo ser served io' h c.extend c.serverUid := by
  have hscalars := hser.writeUint32 (hser.writeUint32 (hser.writeInt32
    (hser.writeInt32 (hser.writeInt64 hq (v := c.clientVersion))
      (v := c.clientId)) (v := c.sessionId)) (v := c.serverUid))
    (v := c.clientUid)
  simp only [List.append_assoc, List.cons_append, List.nil_append] at hscalars
  exact ⟨_, hscalars, fun _ _ => rfl⟩

theorem parcelAlgorithmInfo_eq (hser : ser.InOrder holds) {io : Io}
    {q : List Item} (hq : holds io q) (g : AlgorithmInfo) :
    ∃ io', holds io' (q ++ g.scalars) ∧ ∀ served h uid,
      parcelAlgorithmInfo ser served io h g uid =
        parcelDataInfo ser served io' h g.extend uid := by
  have hscalars := hser.writeInt32 (hser.writeInt32 (hser.writeBool
    (hser.writeInt64 (hser.writeInt32 (hser.writeBool
      (hser.writeInt64 hq (v := g.clientVersion)) (v := g.isAsync))
      (v := g.algorithmType)) (v := g.algorithmVersion)) (v := g.isCloud))
    (v := g.operateId)) (v := g.requestId)
  simp only [List.append_assoc, List.cons_append, List.nil_append] at hscalars
  exact ⟨_, hscalars, fun _ _ _ => rfl⟩

theorem parcelClientInfo_ok (hserved : ∀ n, served n = true)
    (hser : ser.InOrder holds) {io : Io} {q : List Item}
    (hq : holds io q) {h : Host} {n : Nat} (hroom : h.Room (n + 1))
    {c : ClientInfo} (hc : c.extend.Proper) :
    ∃ io' h' items slot, parcelClientInfo ser served io h c = .ok (io', h') ∧
      Parcelled holds (q ++ c.scalars) h c.extend n io' h' items slot := by
  obtain ⟨io₁, hscalars, heq⟩ := parcelClientInfo_eq hser hq c
  simp only [heq]
  exact parcelDataInfo_ok hserved hser hscalars hroom hc c.serverUid

theorem parcelAlgorithmInfo_ok (hserved : ∀ n, served n = true)
    (hser : ser.InOrder holds) {io : Io} {q : List Item}
    (hq : holds io q) {h : Host} {n : Nat} (hroom : h.Room (n + 1))
    {g : AlgorithmInfo} (hg : g.extend.Proper) (uid : UInt32) :
    ∃ io' h' items slot,
      parcelAlgorithmInfo ser served io h g uid = .ok (io', h') ∧
      Parcelled holds (q ++ g.scalars) h g.extend n io' h' items slot := by
  obtain ⟨io₁, hscalars, heq⟩ := parcelAlgorithmInfo_eq hser hq g
  simp only [heq]
  exact parcelDataInfo_ok hserved hser hscalars hroom hg uid

/-- The last part of `UnParcelClientInfo` and of `UnParcelAlgorithmInfo`: the
payload goes into its record, or nothing does where the reader refuses it. -/
def unParcelExtend {α : Type} (ser : Serializer Io) (served : Nat → Bool)
    (junk : Int32) (io : Io) (h : Host) (extend : DataInfo → α) :
    Ipc (UnParcelled Io α) := do
  let r ← unParcelDataInfo ser served junk io h ⟨.null, 0⟩
  if r.retCode = Retcode.success then .ok { r with out := extend r.out }
  else .ok { r with out := extend ⟨.null, 0⟩ }

/-- What reads a record reads its scalars, and then the payload of which the
items of `q` are the first: with the payload `d` this is the record `a`. -/
def ReadsRecord {α : Type} (ser : Serializer Io) (served : Nat → Bool)
    (holds : Io → List Item → Prop) (q : List Item) (h : Host) (a : α)
    (d : DataInfo) (run : Ipc (UnParcelled Io α)) : Prop :=
  ∃ junk io' extend, holds io' q ∧
    run = unParcelExtend ser served junk io' h extend ∧ extend d = a

theorem unParcelClientInfo_reads (served : Nat → Bool)
    (hser : ser.InOrder holds) {io : Io} {c : ClientInfo} {q : List Item}
    (hq : holds io (c.scalars ++ q))
    (junk : Int32) (h : Host) (c₀ : ClientInfo) :
    ReadsRecord ser served holds q h c c.extend
      (unParcelClientInfo ser served junk io h c₀) := by
  obtain ⟨io₁, hr₁, hq₁⟩ := hser.readInt64 hq
  obtain ⟨io₂, hr₂, hq₂⟩ := hser.readInt32 hq₁
  obtain ⟨io₃, hr₃, hq₃⟩ := hser.readInt32 hq₂
  obtain ⟨io₄, hr₄, hq₄⟩ := hser.readUint32 hq₃
  obtain ⟨io₅, hr₅, hq₅⟩ := hser.readUint32 hq₄
  refine ⟨junk, io₅, fun d => { c with
    extendLen := d.length, extendMsg := d.data }, hq₅, ?_, rfl⟩
  simp only [unParcelClientInfo, hr₁, hr₂, hr₃, hr₄, hr₅, Option.getD_some,
    unParcelExtend]

theorem unParcelAlgorithmInfo_reads (served : Nat → Bool)
    (hser : ser.InOrder holds) {io : Io}
    {g : AlgorithmInfo} {q : List Item} (hq : holds io (g.scalars ++ q))
    (junk : Int32) (h : Host) (g₀ : AlgorithmInfo) :
    ReadsRecord ser served holds q h g g.extend
      (unParcelAlgorithmInfo ser served junk io h g₀) := by
  obtain ⟨io₁, hr₁, hq₁⟩ := hser.readInt64 hq
  obtain ⟨io₂, hr₂, hq₂⟩ := hser.readBool hq₁
  obtain ⟨io₃, hr₃, hq₃⟩ := hser.readInt32 hq₂
  obtain ⟨io₄, hr₄, hq₄⟩ := hser.readInt64 hq₃
  obtain ⟨io₅, hr₅, hq₅⟩ := hser.readBool hq₄
  obtain ⟨io₆, hr₆, hq₆⟩ := hser.readInt32 hq₅
  obtain ⟨io₇, hr₇, hq₇⟩ := hser.readInt32 hq₆
  refine ⟨junk, io₇, fun d => { g with
    extendLen := d.length, extendMsg := d.data }, hq₇, ?_, rfl⟩
  simp only [unParcelAlgorithmInfo, hr₁, hr₂, hr₃, hr₄, hr₅, hr₆, hr₇,
    Option.getD_some, unParcelExtend]

namespace ReadsRecord

variable {α : Type} {q items : List Item} {h : Host} {a : α} {d : DataInfo}
  {slot : Option Int} {run : Ipc (UnParcelled Io α)}

theorem ok (hread : ReadsRecord ser served holds (items ++ q) h a d run)
    (hserved : ∀ n, served n = true) (hser : ser.InOrder holds)
    (hc : Carries h d items slot) (hmax : d.length ≤ maxShmDataSize) :
    ∃ r, run = .ok r ∧ Unparcels holds q h a slot r := by
  obtain ⟨junk, io', extend, hq, rfl, rfl⟩ := hread
  obtain ⟨r, hrun, hr⟩ :=
    unParcelDataInfo_ok hserved hser hq hc hmax junk ⟨.null, 0⟩
  refine ⟨{ r with out := extend d }, ?_, hr.retCode, rfl, hr.holds, hr.frame⟩
  rw [unParcelExtend, hrun, Outcome.ok_bind, if_pos hr.retCode, hr.out]

theorem tooLong (hread : ReadsRecord ser served holds (items ++ q) h a d run)
    (hser : ser.InOrder holds) (hc : Carries h d items slot)
    (hmax : maxShmDataSize < d.length) :
    ∃ r, run = .ok r ∧ r.retCode = Retcode.failure := by
  obtain ⟨junk, io', extend, hq, rfl, rfl⟩ := hread
  obtain ⟨r, hrun, hr⟩ :=
    unParcelDataInfo_tooLong served hser hq hc hmax junk ⟨.null, 0⟩
  refine ⟨{ r with out := extend ⟨.null, 0⟩ }, ?_, hr⟩
  rw [unParcelExtend, hrun, Outcome.ok_bind, if_neg (by rw [hr]; decide)]

end ReadsRecord

end

/-- The server reads from what the client wrote the records the client
passed. -/
def RequestRoundTrips {Io : Type} (ser : Serializer Io) (served : Nat → Bool)
    (junk : Int32) (io : Io) (h : Host) (c : ClientInfo) (g : AlgorithmInfo)
    (d : DataInfo) (c₀ : ClientInfo) (g₀ : AlgorithmInfo) (d₀ : DataInfo) :
    Prop :=
  ∃ io₁ h₁ io₂ h₂, parcelRequest ser served io h c g d = .ok (io₁, h₁) ∧
    unParcelInfo ser served junk io₁ h₁ c₀ g₀ d₀ =
      .ok ⟨Retcode.success, (c, g, d), io₂, h₂⟩

section

variable {Io : Type} {ser : Serializer Io} {holds : Io → List Item → Prop}
  {served : Nat → Bool}

/-- What the client leaves: the message, and a host where three different
segments, as far as they are needed, hold the payloads. -/
structure RequestSent (holds : Io → List Item → Prop) (c : ClientInfo)
    (g : AlgorithmInfo) (d : DataInfo) (io : Io) (h : Host)
    (ci gi di : List Item) (cs gs ds : Option Int) : Prop where
  holds : holds io (c.scalars ++ (ci ++ (g.scalars ++ (gi ++ (di ++ [])))))
  client : Carries h c.extend ci cs
  algorithm : Carries h g.extend gi gs
  data : Carries h d di ds
  distinct : (∀ id, gs = some id → cs ≠ some id) ∧
    (∀ id, ds = some id → cs ≠ some id ∧ gs ≠ some id)

theorem Carries.seg_ne_none {h : Host} {d : DataInfo} {items : List Item}
    {id : Int} (hc : Carries h d items (some id)) : h.seg id ≠ none := by
  cases hc with
  | shared _ _ hseg _ => simp [hseg]

/-- The three writers of an algorithm call, one after the other. A segment
that is in use is not the one a later payload is given. -/
theorem RequestSent.of_written {io₁ io₂ io₃ : Io} {h h₁ h₂ h₃ : Host}
    {c : ClientInfo} {g : AlgorithmInfo} {d : DataInfo}
    {ci gi di : List Item} {cs gs ds : Option Int}
    (hp₁ : Written holds c.scalars h c.extend io₁ h₁ ci cs)
    (hp₂ : Written holds (c.scalars ++ ci ++ g.scalars) h₁ g.extend io₂ h₂ gi
      gs)
    (hp₃ : Written holds (c.scalars ++ ci ++ g.scalars ++ gi) h₂ d io₃ h₃ di
      ds) :
    RequestSent holds c g d io₃ h₃ ci gi di cs gs ds := by
  have hgc : ∀ id, gs = some id → cs ≠ some id := by
    rintro id hgs rfl
    exact hp₁.carries.seg_ne_none (hp₂.fresh id hgs)
  have hc₂ : Carries h₂ c.extend ci cs :=
    hp₁.carries.of_seg fun id hcs => hp₂.frame id fun hgs => hgc id hgs hcs
  have hdist : ∀ id, ds = some id → cs ≠ some id ∧ gs ≠ some id := by
    intro id hds
    refine ⟨?_, ?_⟩
    · rintro rfl
      exact hc₂.seg_ne_none (hp₃.fresh id hds)
    · rintro rfl
      exact hp₂.carries.seg_ne_none (hp₃.fresh id hds)
  refine ⟨?_, ?_, ?_, hp₃.carries, hgc, hdist⟩
  · simpa using hp₃.holds
  · exact hc₂.of_seg fun id hcs => hp₃.frame id fun hds => (hdist id hds).1 hcs
  · exact hp₂.carries.of_seg fun id hgs =>
      hp₃.frame id fun hds => (hdist id hds).2 hgs

theorem parcelRequest_ok (hserved : ∀ n, served n = true)
    (hser : ser.InOrder holds) {io : Io} (hio : holds io []) {h : Host}
    (hroom : h.Room 3) {c : ClientInfo} {g : AlgorithmInfo} {d : DataInfo}
    (hc : c.extend.Proper) (hg : g.extend.Proper) (hd : d.Proper) :
    ∃ io' h' ci gi di cs gs ds,
      parcelRequest ser served io h c g d = .ok (io', h') ∧
      RequestSent holds c g d io' h' ci gi di cs gs ds := by
  obtain ⟨io₁, h₁, ci, cs, hrun₁, hp₁⟩ :=
    parcelClientInfo_ok hserved hser hio hroom hc
  obtain ⟨io₂, h₂, gi, gs, hrun₂, hp₂⟩ :=
    parcelAlgorithmInfo_ok hserved hser hp₁.holds hp₁.room hg c.serverUid
  obtain ⟨io₃, h₃, di, ds, hrun₃, hp₃⟩ :=
    parcelDataInfo_ok hserved hser hp₂.holds hp₂.room hd c.serverUid
  refine ⟨io₃, h₃, ci, gi, di, cs, gs, ds, ?_,
    .of_written hp₁.toWritten hp₂.toWritten hp₃.toWritten⟩
  simp [parcelRequest, hrun₁, hrun₂, hrun₃]

/-- What the server reads from the message: the three records, if none of
their payloads is too long. -/
theorem unParcelInfo_spec (hserved : ∀ n, served n = true)
    (hser : ser.InOrder holds) {io : Io} {h : Host} {c : ClientInfo}
    {g : AlgorithmInfo} {d : DataInfo} {ci gi di : List Item}
    {cs gs ds : Option Int}
    (hsent : RequestSent holds c g d io h ci gi di cs gs ds) (junk : Int32)
    (c₀ : ClientInfo) (g₀ : AlgorithmInfo) (d₀ : DataInfo) :
    ∃ r, unParcelInfo ser served junk io h c₀ g₀ d₀ = .ok r ∧
      (c.extendLen ≤ maxShmDataSize ∧ g.extendLen ≤ maxShmDataSize ∧
          d.length ≤ maxShmDataSize →
        r.retCode = Retcode.success ∧ r.out = (c, g, d)) ∧
      (r.retCode = Retcode.success →
        c.extendLen ≤ maxShmDataSize ∧ g.extendLen ≤ maxShmDataSize ∧
          d.length ≤ maxShmDataSize) := by
  have hfailed : Retcode.failure ≠ Retcode.success := by decide
  by_cases hcmax : c.extendLen ≤ maxShmDataSize
  · obtain ⟨rc, hrunc, hrc⟩ :=
      (unParcelClientInfo_reads served hser hsent.holds junk h c₀).ok hserved
        hser hsent.client hcmax
    have halgorithm : Carries rc.host g.extend gi gs :=
      hsent.algorithm.of_seg fun id hgs =>
        hrc.frame id (hsent.distinct.1 id hgs)
    by_cases hgmax : g.extendLen ≤ maxShmDataSize
    · obtain ⟨rg, hrung, hrg⟩ :=
        (unParcelAlgorithmInfo_reads served hser hrc.holds junk rc.host
          g₀).ok hserved hser halgorithm hgmax
      have hdata : Carries rg.host d di ds :=
        hsent.data.of_seg fun id hds =>
          (hrg.frame id (hsent.distinct.2 id hds).2).trans
            (hrc.frame id (hsent.distinct.2 id hds).1)
      by_cases hdmax : d.length ≤ maxShmDataSize
      · obtain ⟨rd, hrund, hrd⟩ :=
          unParcelDataInfo_ok hserved hser hrg.holds hdata hdmax junk d₀
        refine ⟨⟨rd.retCode, (rc.out, rg.out, rd.out), rd.request, rd.host⟩,
          ?_, fun _ => ⟨hrd.retCode, ?_⟩, fun _ => ⟨hcmax, hgmax, hdmax⟩⟩
        · simp [unParcelInfo, hrunc, hrc.retCode, hrung, hrg.retCode, hrund,
            hrd.retCode]
        · rw [hrc.out, hrg.out, hrd.out]
      · obtain ⟨rd, hrund, hrd⟩ := unParcelDataInfo_tooLong served hser
          hrg.holds hdata (Int.not_le.mp hdmax) junk d₀
        refine ⟨⟨rd.retCode, (freeClientInfo rc.out, freeAlgorithmInfo rg.out,
            rd.out), rd.request, rd.host⟩, ?_,
          fun hall => absurd hall.2.2 hdmax,
          fun hok => absurd (hrd.symm.trans hok) hfailed⟩
        simp [unParcelInfo, hrunc, hrc.retCode, hrung, hrg.retCode, hrund, hrd,
          hfailed]
    · obtain ⟨rg, hrung, hrg⟩ :=
        (unParcelAlgorithmInfo_reads served hser hrc.holds junk rc.host
          g₀).tooLong hser halgorithm (Int.not_le.mp hgmax)
      refine ⟨⟨rg.retCode, (freeClientInfo rc.out, rg.out, d₀), rg.request,
          rg.host⟩, ?_, fun hall => absurd hall.2.1 hgmax,
        fun hok => absurd (hrg.symm.trans hok) hfailed⟩
      simp [unParcelInfo, hrunc, hrc.retCode, hrung, hrg, hfailed]
  · obtain ⟨rc, hrunc, hrc⟩ :=
      (unParcelClientInfo_reads served hser hsent.holds junk h c₀).tooLong
        hser hsent.client (Int.not_le.mp hcmax)
    refine ⟨⟨rc.retCode, (rc.out, g₀, d₀), rc.request, rc.host⟩, ?_,
      fun hall => absurd hall.1 hcmax,
      fun hok => absurd (hrc.symm.trans hok) hfailed⟩
    simp [unParcelInfo, hrunc, hrc, hfailed]

theorem RequestRoundTrips.short (hserved : ∀ n, served n = true)
    (hser : ser.InOrder holds) {io : Io} (hio : holds io []) {h : Host}
    (hroom : h.Room 3) {c : ClientInfo} {g : AlgorithmInfo} {d : DataInfo}
    (hc : c.extend.Proper) (hg : g.extend.Proper) (hd : d.Proper)
    {junk : Int32} {c₀ : ClientInfo} {g₀ : AlgorithmInfo} {d₀ : DataInfo}
    (hround : RequestRoundTrips ser served junk io h c g d c₀ g₀ d₀) :
    c.extendLen ≤ maxShmDataSize ∧ g.extendLen ≤ maxShmDataSize ∧
      d.length ≤ maxShmDataSize := by
  obtain ⟨io', h', ci, gi, di, cs, gs, ds, hsend, hsent⟩ :=
    parcelRequest_ok hserved hser hio hroom hc hg hd
  obtain ⟨r, hrun, -, hconv⟩ :=
    unParcelInfo_spec hserved hser hsent junk c₀ g₀ d₀
  obtain ⟨io₁, h₁, io₂, h₂, hsend', hrun'⟩ := hround
  rw [hsend] at hsend'
  cases hsend'
  rw [hrun] at hrun'
  cases hrun'
  exact hconv rfl

/-- A request arrives as it was sent exactly when no payload is longer than
the reader takes. -/
theorem requestRoundTrips_iff (hserved : ∀ n, served n = true)
    (hser : ser.InOrder holds) {io : Io} (hio : holds io []) {h : Host}
    (hroom : h.Room 3) {c : ClientInfo} {g : AlgorithmInfo} {d : DataInfo}
    (hc : c.extend.Proper) (hg : g.extend.Proper) (hd : d.Proper)
    {junk : Int32} {c₀ : ClientInfo} {g₀ : AlgorithmInfo} {d₀ : DataInfo} :
    RequestRoundTrips ser served junk io h c g d c₀ g₀ d₀ ↔
      c.extendLen ≤ maxShmDataSize ∧ g.extendLen ≤ maxShmDataSize ∧
        d.length ≤ maxShmDataSize := by
  refine ⟨fun hround => hround.short hserved hser hio hroom hc hg hd,
    fun hmax => ?_⟩
  obtain ⟨io', h', ci, gi, di, cs, gs, ds, hsend, hsent⟩ :=
    parcelRequest_ok hserved hser hio hroom hc hg hd
  obtain ⟨r, hrun, hok, -⟩ :=
    unParcelInfo_spec hserved hser hsent junk c₀ g₀ d₀
  obtain ⟨hcode, hout⟩ := hok hmax
  refine ⟨io', h', r.request, r.host, hsend, ?_⟩
  rw [hrun, ← hcode, ← hout]

end

/-- A payload of `n` bytes, each of them `m`. -/
def dumpPayload (n : Nat) : DataInfo := ⟨.block (List.replicate n 109), n⟩

theorem dumpPayload_proper {n : Nat} (hpos : 0 < n) (hmax : n ≤ intMax) :
    (dumpPayload n).Proper :=
  .inr ⟨List.replicate n 109, by simpa using hpos, by simpa using hmax,
    by simp [dumpPayload]⟩

/-- A host without segments, and the sender's first key. -/
def freshHost : Host := ⟨[], shmKeyStart, []⟩

theorem freshHost_room : freshHost.Room 3 :=
  ⟨⟨by decide, by decide⟩, by decide⟩

theorem requestRoundTrips_dump :
    RequestRoundTrips itemQueue (fun _ => true) 0 [] freshHost
      { ClientInfo.zero with
        clientId := 7, extendLen := 3, extendMsg := .block [1, 2, 3] }
      { AlgorithmInfo.zero with isAsync := true, algorithmVersion := -1 }
      (dumpPayload 256) .zero .zero ⟨.null, 0⟩ :=
  (requestRoundTrips_iff (fun _ => rfl) itemQueue_inOrder rfl freshHost_room
    (.inr ⟨[1, 2, 3], by decide, by decide, rfl⟩) (.inl rfl)
    (dumpPayload_proper (by decide) (by decide))).mpr (by decide)

/-- The payload the function tests send on Linux is twice what the reader
takes. -/
theorem dump_not_requestRoundTrips :
    (dumpPayload (2 * 1024 * 1024)).Proper ∧
      ¬ RequestRoundTrips itemQueue (fun _ => true) 0 [] freshHost
        .zero .zero (dumpPayload (2 * 1024 * 1024)) .zero .zero
        ⟨.null, 0⟩ := by
  have hproper : (dumpPayload (2 * 1024 * 1024)).Proper :=
    dumpPayload_proper (by decide) (by decide)
  refine ⟨hproper, fun hround => ?_⟩
  have hshort := hround.short (fun _ => rfl) itemQueue_inOrder rfl
    freshHost_room (.inl rfl) (.inl rfl) hproper
  exact absurd hshort.2.2 (by decide)

end AiEngine.Ref
