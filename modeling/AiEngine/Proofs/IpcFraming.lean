import AiEngine.Proofs.PayloadReader

/-!
# Payloads keep to their place in a message

The writer of a payload returns nothing, so the message does not say whether
it gave up. Where it does, it has written nothing, or the length alone, and
the reader, which decides by the length how much to read, takes the fields
that follow for the rest of the payload. Where it does not give up the reader
reads what was written and no more, whatever then goes wrong on its side.
-/

namespace AiEngine.Ref

open AiEngine.Lib

section

variable {Io : Type} {ser : Serializer Io} {holds : Io → List Item → Prop}
  {served : Nat → Bool}

/-! ## The search for a key

With calls that may fail the search goes on where a segment could not be made,
and gives up after one round. It leaves the segments it has not made alone. -/

/-- `g_shmKey` after this many keys were passed over. -/
def Host.keyAfter (h : Host) (k : Nat) : Int := (Host.nextKey^[k] h).shmKey

/-- The search passes over `k` keys that are in use and takes the next, and
all its calls are served. -/
structure Host.FindsKey (served : Nat → Bool) (h : Host) (k : Nat) :
    Prop where
  used : ∀ j, j < k → h.keyInUse (h.keyAfter j) = true
  free : h.keyInUse (h.keyAfter k) = false
  served : ∀ j, j ≤ k → served (h.calls.length + j) = true

/-- The host after one more key was tried and found in use. -/
def Host.tried (h : Host) : Host :=
  Host.nextKey { h with calls := h.calls ++ [.shmget h.shmKey] }

theorem Host.nextKey_tried (h : Host) (k : Nat) :
    (Host.nextKey^[k] h.tried).shmKey = h.keyAfter (k + 1) := by
  have hsame : ∀ (k : Nat) (h₁ h₂ : Host), h₁.shmKey = h₂.shmKey →
      (Host.nextKey^[k] h₁).shmKey = (Host.nextKey^[k] h₂).shmKey := by
    intro k
    induction k with
    | zero => exact fun _ _ heq => heq
    | succ k ih =>
        intro h₁ h₂ heq
        exact ih _ _ (by simp only [Host.nextKey, heq])
  exact hsame k h.tried h.nextKey rfl

theorem Host.findsKey_tried (h : Host) (k : Nat) :
    h.FindsKey served (k + 1) ↔ h.keyInUse h.shmKey = true ∧
      served h.calls.length = true ∧ h.tried.FindsKey served k := by
  have hin (key : Int) : h.tried.keyInUse key = h.keyInUse key := rfl
  have hlen : h.tried.calls.length = h.calls.length + 1 := by
    simp [Host.tried, Host.nextKey]
  have hkey (j : Nat) : h.tried.keyAfter j = h.keyAfter (j + 1) :=
    h.nextKey_tried j
  constructor
  · intro hf
    refine ⟨hf.used 0 (by omega), hf.served 0 (by omega), ?_, ?_, ?_⟩
    · intro j hj
      rw [hin, hkey]
      exact hf.used (j + 1) (by omega)
    · rw [hin, hkey]
      exact hf.free
    · intro j hj
      rw [hlen, Nat.add_assoc, Nat.add_comm 1]
      exact hf.served (j + 1) (by omega)
  · rintro ⟨hused, hserved, hf⟩
    refine ⟨?_, ?_, ?_⟩
    · rintro (_ | j) hj
      · exact hused
      · rw [← hin, ← hkey]
        exact hf.used j (by omega)
    · rw [← hin, ← hkey]
      exact hf.free
    · rintro (_ | j) hj
      · exact hserved
      · have := hf.served j (by omega)
        rwa [hlen, Nat.add_assoc, Nat.add_comm 1] at this

/-- A segment that was acquired after `k` keys were passed over. -/
structure AcquiredAt (h : Host) (size k : Nat) (h' : Host) : Prop where
  segments : ∃ key, h'.segments =
    ⟨h.freshId, some key, List.replicate size 0, 0, 0⟩ :: h.segments
  calls : h'.calls.length = h.calls.length + k + 1

theorem acquireLoop_cases (served : Nat → Bool) (size attempts : Nat) (h : Host) :
    (∃ k h', k < attempts ∧ h.FindsKey served k ∧
      acquireLoop served size attempts h = (h.freshId, h') ∧
      AcquiredAt h size k h') ∨
    (¬ ∃ k, k < attempts ∧ h.FindsKey served k) ∧
      ∃ h', acquireLoop served size attempts h = (-1, h') := by
  induction attempts generalizing h with
  | zero => exact .inr ⟨fun ⟨k, hk, _⟩ => absurd hk (Nat.not_lt_zero k), h, rfl⟩
  | succ attempts ih =>
  simp only [acquireLoop, Host.shmget, Host.call]
  cases hserved : served h.calls.length with
  | false =>
      refine .inr ⟨?_, _, rfl⟩
      rintro ⟨k, -, hf⟩
      exact absurd (hf.served 0 (Nat.zero_le k)) (by simp [hserved])
  | true =>
  dsimp only
  by_cases hused : h.keyInUse h.shmKey = true
  · have hused' : ({ h with calls := h.calls ++ [.shmget h.shmKey] } :
        Host).keyInUse h.shmKey = true := hused
    rw [if_pos hused']
    rcases ih h.tried with ⟨k, h', hk, hf, hrun, hacq⟩ | ⟨hno, h', hrun⟩
    · refine .inl ⟨k + 1, h', by omega,
        (h.findsKey_tried k).mpr ⟨hused, hserved, hf⟩, hrun,
        hacq.segments, ?_⟩
      have hlen : h.tried.calls.length = h.calls.length + 1 := by
        simp [Host.tried, Host.nextKey]
      have := hacq.calls
      omega
    · refine .inr ⟨?_, h', hrun⟩
      rintro ⟨_ | k, hk, hf⟩
      · exact absurd hf.free (by simp [Host.keyAfter, hused])
      · exact hno ⟨k, by omega, ((h.findsKey_tried k).mp hf).2.2⟩
  · have hfree := Bool.eq_false_iff.mpr hused
    have hfree' : ({ h with calls := h.calls ++ [.shmget h.shmKey] } :
        Host).keyInUse h.shmKey = false := hfree
    rw [if_neg (by simp [hfree'])]
    refine .inl ⟨0, _, by omega, ⟨by simp, hfree, ?_⟩, rfl, ⟨_, rfl⟩, ?_⟩
    · intro j hj
      obtain rfl : j = 0 := by omega
      exact hserved
    · simp [Host.nextKey]

/-- Whether every shared-memory call that the writer of a long payload makes
is served: a key is found, and the segment is attached, filled, detached,
and given to the receiver. -/
def Host.Pushes (served : Nat → Bool) (h : Host) : Prop :=
  ∃ k : Nat, k < (shmKeyEnd - shmKeyStart).toNat ∧ h.FindsKey served k ∧
    ∀ i, i < 5 → served (h.calls.length + k + 1 + i) = true

/-- What a writer leaves that gets through. -/
structure Pushed (ser : Serializer Io) (io : Io) (h : Host)
    (bytes : List UInt8) (uid : UInt32) (io' : Io) (h' : Host) : Prop where
  io : io' = ser.writeInt32 (ser.writeInt32 io (Int32.ofInt h.freshId))
    (Int32.ofInt bytes.length)
  seg : ∃ key, h'.seg h.freshId = some ⟨h.freshId, some key, bytes, uid, 0⟩

theorem Host.FindsKey.unique {h : Host} {k k' : Nat}
    (hf : h.FindsKey served k) (hf' : h.FindsKey served k') : k' = k := by
  rcases Nat.lt_trichotomy k k' with hlt | heq | hlt
  · exact absurd hf.free (by simp [hf'.used k hlt])
  · exact heq.symm
  · exact absurd hf'.free (by simp [hf.used k' hlt])

/-- The writer of a long payload writes where it is and how long if all its
calls are served, and nothing if not. -/
theorem pushSharedMemory_cases (ser : Serializer Io) (served : Nat → Bool)
    (io : Io) (h : Host)
    {bytes : List UInt8} (hpos : 0 < bytes.length)
    (hmax : bytes.length ≤ intMax) (uid : UInt32) :
    (h.Pushes served ∧ ∃ io' h',
      ipcIoPushSharedMemory ser served io h ⟨.block bytes, bytes.length⟩ uid =
        .ok (io', h') ∧ Pushed ser io h bytes uid io' h') ∨
    (¬ h.Pushes served ∧ ∃ h',
      ipcIoPushSharedMemory ser served io h ⟨.block bytes, bytes.length⟩ uid =
        .ok (io, h')) := by
  rcases acquireLoop_cases served bytes.length
      (shmKeyEnd - shmKeyStart).toNat h with
    ⟨k, h₁, hk, hf, hrun, hacq⟩ | ⟨hnone, h₁, hrun⟩
  swap
  · refine .inr ⟨fun hpushes => ?_, h₁, ?_⟩
    · obtain ⟨k, hk, hf, -⟩ := hpushes
      exact hnone ⟨k, hk, hf⟩
    · simp [ipcIoPushSharedMemory, acquireShmSegment, hrun]
  have hneg : ¬ h.freshId < 0 := Int.not_lt.mpr h.freshId_spec.2.1
  have hno {i : Nat} (hi : i < 5)
      (hfail : served (h.calls.length + k + 1 + i) = false) :
      ¬ h.Pushes served := by
    rintro ⟨k', -, hf', hall⟩
    rw [hf.unique hf'] at hall
    exact absurd (hall i hi) (by simp [hfail])
  obtain ⟨key, hsegs⟩ := hacq.segments
  have hseg₁ : h₁.seg h.freshId =
      some ⟨h.freshId, some key, List.replicate bytes.length 0, 0, 0⟩ := by
    simp [Host.seg, hsegs]
  simp only [ipcIoPushSharedMemory, acquireShmSegment, Int.toNat_natCast, hrun,
    CPtr.deref, Outcome.ok_bind, if_neg hneg]
  cases hat : served h₁.calls.length with
  | false =>
      rw [shmat_refused (.inl hat)]
      exact .inr ⟨hno (i := 0) (by omega) (hacq.calls ▸ hat), _, rfl⟩
  | true =>
  obtain ⟨h₂, hrun₂, hsets₂, hcalls₂⟩ := shmat_ok hat hseg₁
  simp only [hrun₂, hsets₂.seg, Option.elim_some]
  have hlen₂ : h₂.calls.length = h.calls.length + k + 1 + 1 := by
    rw [hcalls₂, List.length_append, hacq.calls, List.length_singleton]
  cases hcopy : served h₂.calls.length with
  | false =>
      rw [copyBytes_refused hcopy]
      exact .inr ⟨hno (i := 1) (by omega) (hlen₂ ▸ hcopy), _, rfl⟩
  | true =>
  rw [copyBytes_ok hcopy _ bytes hpos hmax List.length_replicate]
  simp only [Outcome.ok_bind]
  have hsets₃ := Host.sets_update hsets₂.seg (f := ({ · with bytes }))
    (fun _ => rfl) (h₂.calls ++ [.memcpy])
  generalize hh₃ : ({ h₂ with calls := h₂.calls ++ [SysCall.memcpy] } :
    Host).update h.freshId ({ · with bytes }) = h₃ at hsets₃
  have hlen₃ : h₃.calls.length = h.calls.length + k + 1 + 2 := by
    rw [← hh₃]
    simp [Host.update, hlen₂]
  cases hdt : served h₃.calls.length with
  | false =>
      refine .inr ⟨hno (i := 2) (by omega) (hlen₃ ▸ hdt), ?_⟩
      simp [Host.shmdt, Host.call, hdt]
  | true =>
  obtain ⟨h₄, hrun₄, hsets₄, hcalls₄⟩ := shmdt_ok hdt hsets₃.seg (by simp)
  simp only [hrun₄]
  have hlen₄ : h₄.calls.length = h.calls.length + k + 1 + 3 := by
    rw [hcalls₄, List.length_append, hlen₃, List.length_singleton]
  cases hstat : served h₄.calls.length with
  | false =>
      refine .inr ⟨hno (i := 3) (by omega) (hlen₄ ▸ hstat), ?_⟩
      simp [Host.shmStat, Host.call, hstat]
  | true =>
  obtain ⟨h₅, hrun₅, hsets₅, hcalls₅⟩ := shmStat_ok hstat hsets₄.seg
  simp only [hrun₅]
  have hlen₅ : h₅.calls.length = h.calls.length + k + 1 + 4 := by
    rw [hcalls₅, List.length_append, hlen₄, List.length_singleton]
  cases hset : served h₅.calls.length with
  | false =>
      refine .inr ⟨hno (i := 4) (by omega) (hlen₅ ▸ hset), ?_⟩
      simp [Host.shmSetUid, Host.call, hset]
  | true =>
  obtain ⟨h₆, hrun₆, hsets₆⟩ := shmSetUid_ok hset hsets₅.seg uid
  simp only [hrun₆]
  refine .inl ⟨⟨k, hk, hf, ?_⟩, _, h₆, rfl, rfl, key, hsets₆.seg⟩
  intro i hi
  rw [hacq.calls] at hat
  rw [hlen₂] at hcopy
  rw [hlen₃] at hdt
  rw [hlen₄] at hstat
  rw [hlen₅] at hset
  obtain rfl | rfl | rfl | rfl | rfl :
      i = 0 ∨ i = 1 ∨ i = 2 ∨ i = 3 ∨ i = 4 := by omega
  · exact hat
  · exact hcopy
  · exact hdt
  · exact hstat
  · exact hset

/-- The reader takes the items that stand for a payload and no others, and
gives the payload back if it succeeds. -/
theorem unParcelDataInfo_carried (hser : ser.InOrder holds) {io : Io}
    {q items : List Item} (hq : holds io (items ++ q)) {h : Host}
    {d : DataInfo} {slot : Option Int} (hc : Carries h d items slot)
    (junk : Int32) (d₀ : DataInfo) :
    ∃ r, unParcelDataInfo ser served junk io h d₀ = .ok r ∧
      holds r.request q ∧ (r.retCode = Retcode.success → r.out = d) := by
  cases hc with
  | empty =>
      obtain ⟨io', hread, hq'⟩ := hser.readInt32 hq
      refine ⟨⟨Retcode.success, ⟨.null, 0⟩, io', h⟩, ?_, hq', fun _ => rfl⟩
      simp [unParcelDataInfo, hread]
  | @inline bytes hpos hlt =>
      have hint : bytes.length ≤ intMax := by
        simp only [intMax]
        omega
      obtain ⟨io₁, hread₁, hq₁⟩ := hser.readInt32 hq
      obtain ⟨io₂, hread₂, hq₂⟩ := hser.readUint32 hq₁
      obtain ⟨io₃, hread₃, hq₃⟩ := hser.readBuffer hq₂ (toNat_ofInt hint)
      have hpops := popMemory_pops served hread₂ hread₃
        (fun _ heq => by rw [← Option.some.inj heq]; exact (toNat_ofInt hint).symm)
        h (d := { d₀ with length := bytes.length })
        (by simpa using hpos) (by simpa using hint)
      have hrun := unParcelDataInfo_inline served hpos hlt hread₁ junk h d₀
      obtain ⟨r, hr, hreq, hok⟩ := hpops.cases_on_success
      refine ⟨r, hrun.trans hr, hreq ▸ hq₃, fun hret => ?_⟩
      obtain ⟨bytes', hbuf, -, hout⟩ := hok hret
      cases hbuf
      exact hout
  | @shared bytes id key uid hge hint hseg hid =>
      have hlen := toInt_ofInt (n := bytes.length) (by omega)
        (by simp only [intMax] at hint; omega)
      obtain ⟨io₁, hread₁, hq₁⟩ := hser.readInt32 hq
      obtain ⟨io₂, hread₂, hq₂⟩ := hser.readInt32 hq₁
      obtain ⟨io₃, hread₃, hq₃⟩ := hser.readInt32 hq₂
      have hpops := popSharedMemory_pops served hread₂ hread₃ junk
        h { d₀ with length := bytes.length }
      simp only [Option.getD_some, Option.elim_some, hlen,
        toInt_ofInt hid.1 hid.2] at hpops
      have hrun := unParcelDataInfo_shared served hge hint hread₁ junk h d₀
      rcases hpops.cases_on_success with
        ⟨-, s, hreach, hshort⟩ | ⟨r, hr, hreq, hok⟩
      · cases hseg.symm.trans hreach.seg
        exact absurd hshort (Int.lt_irrefl _)
      · refine ⟨r, hrun.trans hr, hreq ▸ hq₃, fun hret => ?_⟩
        obtain ⟨s, hreach, -, hout⟩ := hok hret
        cases hseg.symm.trans hreach.seg
        simpa using hout

/-! ## The message stays in step

What the writer of a payload has put into the message is what its reader takes
out of it, so that the next field is read where it was written. It fails where
the writer gives up between the two. -/

/-- A payload as it is passed: the block, if there is one and a length is
given, is as long as that. -/
def DataInfo.Passed (d : DataInfo) : Prop :=
  d.data = .null ∨ ∃ bytes, d.data = .block bytes ∧
    (0 < d.length → d.length = bytes.length ∧ bytes.length ≤ intMax)

theorem Carries.of_kept {h h' : Host} {d : DataInfo} {items : List Item}
    {slot : Option Int} (hc : Carries h d items slot)
    (hkept : ∀ id, h.seg id ≠ none → h'.seg id = h.seg id) :
    Carries h' d items slot := by
  refine hc.of_seg fun id hslot => hkept id ?_
  subst hslot
  cases hc with
  | shared _ _ hseg _ => simp [hseg]

/-- However the payload and the calls for it turned out, the writer leaves
items after which a reader, on a host where the segments are still what they
were, stands before whatever was written next, and if it succeeds it has the
payload. -/
def Framed (ser : Serializer Io) (holds : Io → List Item → Prop)
    (served : Nat → Bool) (io : Io) (q : List Item) (h : Host) (d : DataInfo)
    (uid : UInt32) : Prop :=
  ∃ io₁ h₁ items, parcelDataInfo ser served io h d uid = .ok (io₁, h₁) ∧
    holds io₁ (q ++ items) ∧
    ∀ (served' : Nat → Bool) junk h₂ io₂ rest d₀,
      (∀ id, h₁.seg id ≠ none → h₂.seg id = h₁.seg id) →
      holds io₂ (items ++ rest) →
      ∃ r, unParcelDataInfo ser served' junk io₂ h₂ d₀ = .ok r ∧
        holds r.request rest ∧ (r.retCode = Retcode.success → r.out = d)

/-- What the writer leaves for a payload it takes, if its calls are served. -/
theorem parcelDataInfo_carries (hser : ser.InOrder holds) {io : Io}
    {q : List Item} (hq : holds io q) {h : Host}
    (hroom : h.segments.length ≤ intMax) {d : DataInfo} (hd : d.Proper)
    (hpush : 200 ≤ d.length → h.Pushes served) (uid : UInt32) :
    ∃ io₁ h₁ items slot, parcelDataInfo ser served io h d uid =
      .ok (io₁, h₁) ∧ holds io₁ (q ++ items) ∧ Carries h₁ d items slot ∧
      ∀ id, slot = some id → id = h.freshId := by
  rcases hd with rfl | ⟨bytes, hpos, hmax, rfl⟩
  · exact ⟨_, h, _, none, by simp [parcelDataInfo], hser.writeInt32 hq, .empty,
      by simp⟩
  have hq₁ := hser.writeInt32 hq (v := Int32.ofInt bytes.length)
  by_cases hlt : bytes.length < 200
  · have hq₂ := hser.writeBuffer (hser.writeUint32 hq₁
      (v := UInt32.ofInt bytes.length)) (toNat_ofInt hmax)
    simp only [List.append_assoc, List.cons_append, List.nil_append] at hq₂
    exact ⟨_, h, _, none, parcelDataInfo_inline hpos hlt io h uid, hq₂,
      .inline hpos hlt, by simp⟩
  · have hge : 200 ≤ bytes.length := Nat.not_lt.mp hlt
    rcases pushSharedMemory_cases ser served
        (ser.writeInt32 io (Int32.ofInt bytes.length)) h hpos hmax uid with
      ⟨-, io₁, h₁, hrun, hpushed⟩ | ⟨hno, -⟩
    · obtain ⟨key, hseg⟩ := hpushed.seg
      have hid := h.freshId_spec.2
      simp only [intMax] at hroom
      have hq₃ := hser.writeInt32 (hser.writeInt32 hq₁
        (v := Int32.ofInt h.freshId)) (v := Int32.ofInt bytes.length)
      refine ⟨io₁, h₁, _, some h.freshId,
        (parcelDataInfo_shared hge io h uid).trans hrun, ?_,
        .shared hge hmax hseg ⟨hid.1, by omega⟩, by simp⟩
      rw [hpushed.io]
      simpa using hq₃
    · exact absurd (hpush (by simpa using hge)) hno

/-- What the writer leaves otherwise: nothing, or the length alone. -/
theorem parcelDataInfo_givesUp (ser : Serializer Io) (io : Io) {h : Host}
    {d : DataInfo} (hd : d.Passed) (uid : UInt32)
    (hbad : ¬ (d.Proper ∧ (200 ≤ d.length → h.Pushes served))) :
    (∃ h₁, parcelDataInfo ser served io h d uid = .ok (io, h₁)) ∨
    (200 ≤ d.length ∧ d.length ≤ intMax ∧
      ∃ h₁, parcelDataInfo ser served io h d uid =
        .ok (ser.writeInt32 io (Int32.ofInt d.length), h₁)) := by
  rcases d with ⟨data, length⟩
  rcases hd with hnull | ⟨bytes, hblock, hlen⟩
  · obtain rfl : data = .null := hnull
    by_cases hzero : length = 0
    · subst hzero
      exact absurd ⟨.inl rfl, fun hge => absurd hge (by decide)⟩ hbad
    · exact .inl ⟨h, by simp [parcelDataInfo, hzero]⟩
  · obtain rfl : data = .block bytes := hblock
    by_cases hpos : 0 < length
    · obtain ⟨rfl, hmax⟩ := hlen hpos
      have hlpos : 0 < bytes.length := by simpa using hpos
      have hproper : DataInfo.Proper ⟨.block bytes, bytes.length⟩ :=
        .inr ⟨bytes, hlpos, hmax, rfl⟩
      have hge : 200 ≤ (bytes.length : Int) := by
        refine Int.not_lt.mp fun hlt => hbad ⟨hproper, fun hge => ?_⟩
        exact absurd hge (Int.not_le.mpr hlt)
      rcases pushSharedMemory_cases ser served
          (ser.writeInt32 io (Int32.ofInt bytes.length)) h hlpos hmax uid with
        ⟨hpush, -⟩ | ⟨-, h₁, hrun⟩
      · exact absurd ⟨hproper, fun _ => hpush⟩ hbad
      · refine .inr ⟨hge, by simpa using hmax, h₁, ?_⟩
        exact (parcelDataInfo_shared (by exact_mod_cast hge) io h uid).trans
          hrun
    · exact .inl ⟨h, by simp [parcelDataInfo, Int.not_lt.mp hpos]⟩

theorem exists_holds_ints (hser : ser.InOrder holds) {io : Io}
    {q : List Item} (hq : holds io q) (vs : List Int32) :
    ∃ io', holds io' (q ++ vs.map .int32) := by
  induction vs generalizing io q with
  | nil => exact ⟨io, by simpa using hq⟩
  | cons v vs ih =>
      obtain ⟨io', hio'⟩ := ih (hser.writeInt32 hq (v := v))
      exact ⟨io', by simpa using hio'⟩

/-- A message stays in step only if the writer did not give up. -/
theorem Framed.pushes (hser : ser.InOrder holds)
    (hone : ∀ io q q', holds io q → holds io q' → q = q')
    (hempty : ∃ io, holds io []) {io : Io} {q : List Item} (hq : holds io q)
    {h : Host} {d : DataInfo} (hd : d.Passed) {uid : UInt32}
    (hframed : Framed ser holds served io q h d uid) :
    d.Proper ∧ (200 ≤ d.length → h.Pushes served) := by
  obtain ⟨nil, hnil⟩ := hempty
  obtain ⟨io₁, h₁, items, hrun, hq₁, hread⟩ := hframed
  by_contra hbad
  rcases parcelDataInfo_givesUp ser io hd uid hbad with
    ⟨h', hrun'⟩ | ⟨hge, hmax, h', hrun'⟩
  · -- Nothing was written, and the reader takes the next field.
    cases hrun.symm.trans hrun'
    obtain rfl : items = [] := by simpa using hone _ _ _ hq₁ hq
    obtain ⟨io₂, hq₂⟩ := exists_holds_ints hser hnil [0]
    obtain ⟨r, hr, hrest, -⟩ := hread (fun _ => true) 0 h₁ io₂ [.int32 0]
      ⟨.null, 0⟩ (fun _ _ => rfl) hq₂
    obtain ⟨io₃, hread₃, hq₃⟩ := hser.readInt32 hq₂
    have hrun₃ : unParcelDataInfo ser (fun _ => true) 0 io₂ h₁ ⟨.null, 0⟩ =
        .ok ⟨Retcode.success, ⟨.null, 0⟩, io₃, h₁⟩ := by
      simp [unParcelDataInfo, hread₃]
    cases hr.symm.trans hrun₃
    exact absurd (hone _ _ _ hrest hq₃) (by simp)
  · -- The length alone was written, and the reader takes two more fields.
    cases hrun.symm.trans hrun'
    obtain rfl : items = [.int32 (Int32.ofInt d.length)] := by
      simpa using hone _ _ _ hq₁ (hser.writeInt32 hq)
    obtain ⟨io₂, hq₂⟩ :=
      exists_holds_ints hser hnil [Int32.ofInt d.length, -1, 0]
    obtain ⟨r, hr, hrest, -⟩ := hread (fun _ => true) 0 h₁ io₂
      [.int32 (-1), .int32 0] ⟨.null, 0⟩ (fun _ _ => rfl) hq₂
    obtain ⟨io₃, hread₃, hq₃⟩ := hser.readInt32 hq₂
    obtain ⟨io₄, hread₄, hq₄⟩ := hser.readInt32 hq₃
    obtain ⟨io₅, hread₅, hq₅⟩ := hser.readInt32 hq₄
    have hlen := toInt_ofInt (n := d.length) (by omega)
      (by simp only [intMax] at hmax; omega)
    have hcap : ¬ d.length < ipcMaxTransCapacity := Int.not_lt.mpr hge
    have hneg : ¬ d.length < 0 := by omega
    have hzero : ¬ d.length = 0 := by omega
    have hrun₅ : unParcelDataInfo ser (fun _ => true) 0 io₂ h₁ ⟨.null, 0⟩ =
        .ok ⟨Retcode.failure, ⟨.null, 0⟩, io₅, h₁⟩ := by
      simp [unParcelDataInfo, hread₃, hlen, hneg, hzero, hcap,
        ipcIoPopSharedMemory, hread₄, hread₅]
    cases hr.symm.trans hrun₅
    exact absurd (hone _ _ _ hrest hq₅) (by simp)

/-- A message stays in step exactly where the payload is a proper one and, if
it is long, all shared memory calls of the writer are served. -/
theorem framed_iff (hser : ser.InOrder holds)
    (hone : ∀ io q q', holds io q → holds io q' → q = q')
    (hempty : ∃ io, holds io []) {io : Io} {q : List Item} (hq : holds io q)
    {h : Host} (hroom : h.segments.length ≤ intMax) {d : DataInfo}
    (hd : d.Passed) (uid : UInt32) :
    Framed ser holds served io q h d uid ↔
      d.Proper ∧ (200 ≤ d.length → h.Pushes served) := by
  refine ⟨fun hframed => hframed.pushes hser hone hempty hq hd, ?_⟩
  rintro ⟨hproper, hpush⟩
  obtain ⟨io₁, h₁, items, slot, hrun, hq₁, hcar, -⟩ :=
    parcelDataInfo_carries hser hq hroom hproper hpush uid
  exact ⟨io₁, h₁, items, hrun, hq₁, fun served' junk h₂ io₂ rest d₀ hkept
    hq₂ => unParcelDataInfo_carried hser hq₂ (hcar.of_kept hkept) junk d₀⟩

end

theorem dumpPayload_passed {n : Nat} (hmax : n ≤ intMax) :
    (dumpPayload n).Passed :=
  .inr ⟨List.replicate n 109, rfl, fun _ => by simpa [dumpPayload] using hmax⟩

/-- A payload that fits into the message needs no call. -/
theorem framed_dump : Framed itemQueue (· = ·) (fun _ => false) [] []
    freshHost (dumpPayload 100) 0 :=
  (framed_iff itemQueue_inOrder (fun _ _ _ h h' => h.symm.trans h') ⟨[], rfl⟩
    rfl (by decide) (dumpPayload_passed (by decide)) 0).mpr
    ⟨dumpPayload_proper (by decide) (by decide), fun h => absurd h (by decide)⟩

/-- Where no segment can be had, the message has the length of a payload that
is not there. -/
theorem dump_not_framed : (dumpPayload 256).Passed ∧
    ¬ Framed itemQueue (· = ·) (fun _ => false) [] [] freshHost
      (dumpPayload 256) 0 := by
  refine ⟨dumpPayload_passed (by decide), fun hframed => ?_⟩
  obtain ⟨k, -, hfinds, -⟩ := (hframed.pushes itemQueue_inOrder
    (fun _ _ _ h h' => h.symm.trans h') ⟨[], rfl⟩ rfl
    (dumpPayload_passed (by decide))).2 (by decide)
  exact absurd (hfinds.served 0 (Nat.zero_le k)) (by simp)

end AiEngine.Ref
