import AiEngine.Proofs.PayloadReader

/-!
# What the reader takes from a stranger

The message and the segments are the sender's, and the reader is privileged.
The two results here say which messages it reads as what no writer could have
written, and on which failures it leaves something behind.

A long payload says its length twice and the reader lets the second overwrite
the first without comparing them, nor does it ask the segment how long it is.
And on the failures after the allocation the guard frees the block while the
caller's record keeps the pointer.
-/

namespace AiEngine.Ref

open AiEngine.Lib

section

variable {Io : Type} {ser : Serializer Io} {served : Nat → Bool}

/-- From `io` to `io'` the message has what a writer writes for a payload of
`length` bytes, on a host where the segment it names has as many. -/
inductive WrittenPart (ser : Serializer Io) (h : Host) (io : Io)
    (length : Int) : Io → Prop where
  | empty {n : Int32} {io' : Io} (hlead : ser.readInt32 io = (some n, io'))
      (hn : n.toInt = length) (hzero : length = 0) :
      WrittenPart ser h io length io'
  | inline {n : Int32} {size : UInt32} {bytes : List UInt8} {io₁ io₂ io' : Io}
      (hlead : ser.readInt32 io = (some n, io₁)) (hn : n.toInt = length)
      (hrange : 0 < length ∧ length < 200)
      (hsize : ser.readUint32 io₁ = (some size, io₂))
      (hsame : (size.toNat : Int) = length)
      (hbuf : ser.readBuffer io₂ size = (some bytes, io'))
      (hbytes : (bytes.length : Int) = length) :
      WrittenPart ser h io length io'
  | shared {n id inner : Int32} {s : Segment} {io₁ io₂ io' : Io}
      (hlead : ser.readInt32 io = (some n, io₁)) (hn : n.toInt = length)
      (hrange : 200 ≤ length)
      (hid : ser.readInt32 io₁ = (some id, io₂))
      (hinner : ser.readInt32 io₂ = (some inner, io'))
      (hsame : inner.toInt = length)
      (hseg : h.seg id.toInt = some s)
      (hfit : length ≤ s.bytes.length) :
      WrittenPart ser h io length io'

/-- The reader stays within the segment, and what it accepts could have been
written. -/
def AcceptsWritten (ser : Serializer Io) (served : Nat → Bool) (junk : Int32)
    (io : Io) (h : Host) (d₀ : DataInfo) : Prop :=
  ∃ r, unParcelDataInfo ser served junk io h d₀ = .ok r ∧
    (r.retCode = Retcode.success →
      WrittenPart ser h io r.out.length r.request)

/-- The message has its leading length, and where that is a long one and the
rest leads to a segment, the other fields are there, the two lengths are one,
and the segment is as long. -/
def SoundMessage (ser : Serializer Io) (io : Io) (h : Host) : Prop :=
  ∃ n, (ser.readInt32 io).1 = some n ∧
    (200 ≤ n.toInt → ∀ junk s,
      Reaches h (segmentId ser junk io) (innerLength ser io ⟨.null, 0⟩) s →
      (readSegmentId ser io).1.isSome = true ∧
        (readInnerLength ser io).1 = some n ∧
        n.toInt ≤ s.bytes.length)

theorem leadLength_of_some {io : Io} {n : Int32}
    (hn : (ser.readInt32 io).1 = some n) (d₀ : DataInfo) :
    leadLength ser io d₀ = n.toInt := by
  rw [leadLength, hn, Option.elim_some]

theorem innerLength_of_some {io : Io} {n : Int32}
    (hn : (ser.readInt32 io).1 = some n) (d₀ d₁ : DataInfo) :
    innerLength ser io d₀ = innerLength ser io d₁ := by
  rw [innerLength, innerLength, leadLength_of_some hn, leadLength_of_some hn]

/-- A sound message is only accepted for what it is. -/
theorem SoundMessage.accepts (hexact : ser.ReadsExactly) {io : Io} {h : Host}
    (hsound : SoundMessage ser io h) (served : Nat → Bool) (junk : Int32)
    (d₀ : DataInfo) : AcceptsWritten ser served junk io h d₀ := by
  obtain ⟨n, hn, hlong⟩ := hsound
  have hlead := leadLength_of_some hn d₀
  have hread : ser.readInt32 io = (some n, (ser.readInt32 io).2) := by
    rw [← hn]
  rcases unParcelDataInfo_cases ser served junk io h d₀ with
    ⟨-, hrun⟩ | ⟨hzero, hrun⟩ | ⟨⟨hpos, hlt⟩, hrun⟩ | ⟨hge, hpops⟩
  · have hfailed : Retcode.failure ≠ Retcode.success := by decide
    exact ⟨_, hrun, fun hok => absurd hok hfailed⟩
  · exact ⟨_, hrun, fun _ => .empty hread (hlead.symm.trans hzero) rfl⟩
  · have hsize : ser.readUint32 (ser.readInt32 io).2 = (_, _) := rfl
    obtain ⟨r, hr, hreq, hok⟩ := (popMemory_pops served hsize rfl
      (fun bytes hbuf => hexact _ _ _ _ (Prod.ext hbuf rfl)) h
      (d := ⟨d₀.data, leadLength ser io d₀⟩) hpos
      (by simp only [intMax]; omega)).cases_on_success
    refine ⟨r, hrun.trans hr, fun hret => ?_⟩
    obtain ⟨bytes, hbuf, hsize, hout⟩ := hok hret
    rw [hout, hreq]
    dsimp only at hsize
    cases hnum : (ser.readUint32 (ser.readInt32 io).2).1 with
    | none =>
        rw [hnum] at hsize
        simp at hsize
        omega
    | some size =>
        rw [hnum] at hsize hbuf
        simp only [Option.getD_some] at hsize hbuf
        refine .inline hread hlead.symm ⟨hpos, hlt⟩ (Prod.ext hnum rfl) hsize
          (Prod.ext hbuf rfl) ?_
        rw [hexact _ _ _ _ (Prod.ext hbuf rfl), hsize]
  · have hlong' := hlong (hlead ▸ hge) junk
    rw [innerLength_of_some hn _ d₀] at hlong'
    rcases hpops.cases_on_success with
      ⟨-, s, hreach, hshort⟩ | ⟨r, hr, hreq, hok⟩
    · obtain ⟨-, hinner, hfit⟩ := hlong' s hreach
      simp only [innerLength, hinner, Option.elim_some] at hshort
      omega
    · refine ⟨r, hr, fun hret => ?_⟩
      obtain ⟨s, hreach, hfit, hout⟩ := hok hret
      obtain ⟨hid, hinner, -⟩ := hlong' s hreach
      obtain ⟨id, hid⟩ := Option.isSome_iff_exists.mp hid
      rw [hout, hreq]
      have hsame : innerLength ser io d₀ = n.toInt := by
        rw [innerLength, hinner, Option.elim_some]
      have hseg := hreach.seg
      rw [segmentId, hid, Option.getD_some] at hseg
      exact .shared hread hsame.symm (by rw [hsame, ← hlead]; exact hge)
        (Prod.ext hid rfl) (Prod.ext hinner rfl) hsame.symm hseg hfit

/-- A message that is never accepted for what it is not is sound. -/
theorem SoundMessage.of_accepts {io : Io} {h : Host}
    (haccepts : ∀ served junk d₀, AcceptsWritten ser served junk io h d₀) :
    SoundMessage ser io h := by
  cases hn : (ser.readInt32 io).1 with
  | none =>
      -- The record still has the length zero it came with.
      obtain ⟨r, hr, hok⟩ := haccepts (fun _ => true) 0 ⟨.null, 0⟩
      have hrun : unParcelDataInfo ser (fun _ => true) 0 io h ⟨.null, 0⟩ =
          .ok ⟨Retcode.success, ⟨.null, 0⟩, (ser.readInt32 io).2, h⟩ := by
        have hlead : leadLength ser io ⟨.null, 0⟩ = 0 := by
          rw [leadLength, hn, Option.elim_none]
        rw [unParcelDataInfo_eq, hlead, if_neg (by decide), if_pos rfl]
      cases hr.symm.trans hrun
      cases hok rfl with
      | empty hlead _ _ => cases hn.symm.trans (congrArg Prod.fst hlead)
      | inline hlead _ _ _ _ _ _ =>
          cases hn.symm.trans (congrArg Prod.fst hlead)
      | shared hlead _ _ _ _ _ _ _ =>
          cases hn.symm.trans (congrArg Prod.fst hlead)
  | some n =>
      refine ⟨n, hn, fun hlong junk s hreach => ?_⟩
      obtain ⟨r, hr, hok⟩ := haccepts (fun _ => true) junk ⟨.null, 0⟩
      have hlead := leadLength_of_some hn ⟨.null, 0⟩
      rcases unParcelDataInfo_cases ser (fun _ => true) junk io h
          ⟨.null, 0⟩ with
        ⟨hneg, -⟩ | ⟨hzero, -⟩ | ⟨⟨-, hlt⟩, -⟩ | ⟨-, hpops⟩
      · omega
      · omega
      · omega
      rw [hr] at hpops
      cases hpops with
      | noSegment hid => exact absurd hid hreach.named
      | badLength _ hlen _ => exact absurd hreach.length hlen
      | unattached _ _ hno _ => simp [hreach.seg] at hno
      | unallocated _ _ _ _ hmalloc _ => cases hmalloc
      | uncopied _ _ _ _ _ hcopy _ => cases hcopy
      | undetached _ _ _ _ _ _ _ hdt _ => cases hdt
      | @popped _ _ _ s' hseg _ _ hfit _ _ _ =>
          cases hreach.seg.symm.trans hseg
          cases hok rfl with
          | empty hlead' hn' hzero =>
              cases hn.symm.trans (congrArg Prod.fst hlead')
              omega
          | inline hlead' hn' hrange _ _ _ _ =>
              cases hn.symm.trans (congrArg Prod.fst hlead')
              omega
          | @shared _ id inner _ _ io₂ _ hlead' hn' hrange hid hinner hsame _
              _ =>
              cases hn.symm.trans (congrArg Prod.fst hlead')
              have hid' : readSegmentId ser io = (some id, io₂) := by
                rw [readSegmentId, hlead', hid]
              have hinner' : (readInnerLength ser io).1 = some inner := by
                rw [readInnerLength, hid', hinner]
              have heq : inner = n :=
                Int32.toInt_inj.mp (hsame.trans hn'.symm)
              refine ⟨by rw [hid']; rfl, heq ▸ hinner', ?_⟩
              dsimp only at hn' hfit
              omega

/-- The reader takes a message only for what a writer can have written
exactly where the message is sound. -/
theorem acceptsWritten_iff (hexact : ser.ReadsExactly) {io : Io} {h : Host} :
    (∀ served junk d₀, AcceptsWritten ser served junk io h d₀) ↔
      SoundMessage ser io h :=
  ⟨SoundMessage.of_accepts, fun hsound served junk d₀ =>
    hsound.accepts hexact served junk d₀⟩

/-! ## Nothing left behind

The segment that a message names is released whatever the reader returns. What
can stay behind is a pointer, where a copy or a detach fails; and nothing is
released where the segment is shorter than the payload. -/

/-- The attachments among calls that were made from `h` on. -/
def Host.attaches (served : Nat → Bool) (h : Host) (id : Int)
    (made : List SysCall) : Nat :=
  if (h.seg id).isSome then
    (made.zipIdx h.calls.length).countP fun c =>
      c.1 = .shmat id && served c.2
  else 0

/-- Between the two hosts the segment was detached as often as it was
attached, and released once. -/
def Released (served : Nat → Bool) (h h' : Host) (id : Int) : Prop :=
  ∃ made, h'.calls = h.calls ++ made ∧
    made.count (.shmdt id) = h.attaches served id made ∧
    made.count (.shmRmid id) = 1

/-- A call that fails leaves the record without a pointer, and on every way
the segment that the message names is let go. -/
def LeavesNothing (ser : Serializer Io) (served : Nat → Bool) (junk : Int32)
    (io : Io) (h : Host) (d₀ : DataInfo) : Prop :=
  ∃ r, unParcelDataInfo ser served junk io h d₀ = .ok r ∧
    (r.retCode ≠ Retcode.success → r.out.data = .null) ∧
    (200 ≤ leadLength ser io d₀ → segmentId ser junk io ≠ -1 →
      Released served h r.host (segmentId ser junk io))

/-- Once the block for a long payload is there, the copy and the detaching
are served, and the segment is long enough. -/
def CopyServed (ser : Serializer Io) (served : Nat → Bool) (junk : Int32)
    (io : Io) (h : Host) (d₀ : DataInfo) : Prop :=
  200 ≤ leadLength ser io d₀ →
  ∀ s, Reaches h (segmentId ser junk io) (innerLength ser io d₀) s →
  served h.calls.length = true → served (h.calls.length + 1) = true →
  served (h.calls.length + 2) = true ∧ served (h.calls.length + 3) = true ∧
    innerLength ser io d₀ ≤ s.bytes.length

section

variable {h h' : Host} {id : Int}

theorem released_unnamed (hcalls : h'.calls = h.calls ++ [.shmRmid id]) :
    Released served h h' id := by
  refine ⟨_, hcalls, ?_, ?_⟩
  · simp [Host.attaches]
  · simp

theorem released_unattached
    (hno : served h.calls.length = false ∨ h.seg id = none)
    (hcalls : h'.calls = h.calls ++ [.shmat id, .shmRmid id]) :
    Released served h h' id := by
  refine ⟨_, hcalls, ?_, ?_⟩
  · rcases hno with hno | hno <;> simp [Host.attaches, hno]
  · simp

theorem released_attached {s : Segment}
    (hat : served h.calls.length = true) (hseg : h.seg id = some s)
    (hcalls : h'.calls = h.calls ++ popCalls id ∨
      h'.calls = h.calls ++ [.shmat id, .malloc, .shmdt id, .shmRmid id]) :
    Released served h h' id := by
  rcases hcalls with hcalls | hcalls
  · refine ⟨_, hcalls, ?_, ?_⟩
    · simp [popCalls, Host.attaches, hseg, hat]
    · simp [popCalls]
  · refine ⟨_, hcalls, ?_, ?_⟩
    · simp [Host.attaches, hseg, hat]
    · simp

end

/-- Nothing is left behind where the copy is served. -/
theorem CopyServed.leavesNothing (hexact : ser.ReadsExactly) {junk : Int32}
    {io : Io} {h : Host} {d₀ : DataInfo} (hnull : d₀.data = .null)
    (hserved : CopyServed ser served junk io h d₀) :
    LeavesNothing ser served junk io h d₀ := by
  rcases unParcelDataInfo_cases ser served junk io h d₀ with
    ⟨hneg, hrun⟩ | ⟨hzero, hrun⟩ | ⟨⟨hpos, hlt⟩, hrun⟩ | ⟨hge, hpops⟩
  · exact ⟨_, hrun, fun _ => hnull, fun hge => by omega⟩
  · exact ⟨_, hrun, fun _ => rfl, fun hge => by omega⟩
  · have hsize : ser.readUint32 (ser.readInt32 io).2 = (_, _) := rfl
    have hpops := popMemory_pops served hsize rfl
      (fun bytes hbuf => hexact _ _ _ _ (Prod.ext hbuf rfl)) h
      (d := ⟨d₀.data, leadLength ser io d₀⟩) hpos
      (by simp only [intMax]; omega)
    rw [← hrun] at hpops
    generalize hout : unParcelDataInfo ser served junk io h d₀ = out at hpops
    have hshort (P : Prop) : 200 ≤ leadLength ser io d₀ → P := fun hge => by
      omega
    cases hpops with
    | refused => exact ⟨_, hout, fun _ => hnull, hshort _⟩
    | unallocated => exact ⟨_, hout, fun _ => rfl, hshort _⟩
    | uncopied => exact ⟨_, hout, fun _ => rfl, hshort _⟩
    | popped => exact ⟨_, hout, fun hfail => absurd rfl hfail, hshort _⟩
  · generalize hout : unParcelDataInfo ser served junk io h d₀ = out at hpops
    cases hpops with
    | noSegment hid =>
        exact ⟨_, hout, fun _ => hnull, fun _ hne => absurd hid hne⟩
    | badLength _ _ hcalls =>
        exact ⟨_, hout, fun _ => hnull, fun _ _ => released_unnamed hcalls⟩
    | unattached _ _ hno hcalls =>
        exact ⟨_, hout, fun _ => hnull, fun _ _ =>
          released_unattached hno hcalls⟩
    | unallocated _ _ hat hseg _ hcalls =>
        exact ⟨_, hout, fun _ => rfl, fun _ _ =>
          released_attached hat hseg (.inr hcalls)⟩
    | uncopied hid hlen hat hseg hmalloc hcopy _ =>
        have h₂ := (hserved hge _ ⟨hid, hlen, hseg⟩ hat hmalloc).1
        cases h₂.symm.trans hcopy
    | overrun hid hlen hat hseg hmalloc _ hshort =>
        have hfit := (hserved hge _ ⟨hid, hlen, hseg⟩ hat hmalloc).2.2
        exact absurd hshort (Int.not_lt.mpr hfit)
    | undetached hid hlen hat hseg hmalloc _ _ hdt _ =>
        have h₃ := (hserved hge _ ⟨hid, hlen, hseg⟩ hat hmalloc).2.1
        cases h₃.symm.trans hdt
    | popped _ _ hat hseg _ _ _ _ hcalls =>
        exact ⟨_, hout, fun hfail => absurd rfl hfail, fun _ _ =>
          released_attached hat hseg (.inl hcalls)⟩

/-- Nothing is left behind only where the copy is served. -/
theorem LeavesNothing.copyServed {junk : Int32} {io : Io} {h : Host}
    {d₀ : DataInfo} (hleaves : LeavesNothing ser served junk io h d₀) :
    CopyServed ser served junk io h d₀ := by
  intro hge s hreach hat hmalloc
  obtain ⟨r, hr, hnull, -⟩ := hleaves
  have hfailure : Retcode.failure ≠ Retcode.success := by decide
  have hcopied : Retcode.memoryCopyFailure ≠ Retcode.success := by decide
  rcases unParcelDataInfo_cases ser served junk io h d₀ with
    ⟨hneg, -⟩ | ⟨hzero, -⟩ | ⟨⟨-, hlt⟩, -⟩ | ⟨-, hpops⟩
  · omega
  · omega
  · omega
  rw [hr] at hpops
  cases hpops with
  | noSegment hid => exact absurd hid hreach.named
  | badLength _ hlen _ => exact absurd hreach.length hlen
  | unattached _ _ hno _ => simp [hat, hreach.seg] at hno
  | unallocated _ _ _ _ hno _ => cases hmalloc.symm.trans hno
  | uncopied => cases hnull hcopied
  | undetached => cases hnull hfailure
  | popped _ _ _ hseg _ hcopy hfit hdt _ =>
      cases hreach.seg.symm.trans hseg
      exact ⟨hcopy, hdt, hfit⟩

/-- Nothing is left behind exactly where, once the block for a long payload
is there, the copy and the detaching are served and stay in the segment. -/
theorem leavesNothing_iff (hexact : ser.ReadsExactly) {junk : Int32}
    {io : Io} {h : Host} {d₀ : DataInfo} (hnull : d₀.data = .null) :
    LeavesNothing ser served junk io h d₀ ↔
      CopyServed ser served junk io h d₀ :=
  ⟨LeavesNothing.copyServed, CopyServed.leavesNothing hexact hnull⟩

end

theorem itemQueue_readsExactly : itemQueue.ReadsExactly := by
  intro io n bytes io' hread
  simp only [itemQueue] at hread
  split at hread
  · next bs _ =>
      split at hread
      · next hlen =>
          cases hread
          exact hlen.symm
      · cases hread
  · cases hread

/-- A host with one segment, of one byte. -/
def tinyHost : Host := ⟨[⟨5, some shmKeyStart, [7], 0, 0⟩], shmKeyStart, []⟩

/-- A payload that travels in a segment of its length. -/
def soundHost : Host :=
  ⟨[⟨5, some shmKeyStart, List.replicate 200 7, 0, 0⟩], shmKeyStart, []⟩

theorem soundMessage_shared :
    SoundMessage itemQueue [.int32 200, .int32 5, .int32 200] soundHost := by
  refine ⟨200, rfl, fun _ junk s hreach => ⟨rfl, rfl, ?_⟩⟩
  have hid : segmentId itemQueue junk [.int32 200, .int32 5, .int32 200] = 5 :=
    rfl
  have hseg := hreach.seg
  rw [hid] at hseg
  simp only [soundHost, Host.seg, List.find?_cons, decide_true] at hseg
  rw [← Option.some.inj hseg]
  simp only [List.length_replicate]
  decide

theorem acceptsWritten_shared :
    AcceptsWritten itemQueue (fun _ => true) 0
      [.int32 200, .int32 5, .int32 200] soundHost ⟨.null, 0⟩ :=
  (acceptsWritten_iff itemQueue_readsExactly).mpr soundMessage_shared
    (fun _ => true) 0 ⟨.null, 0⟩

/-- The message says 256 bytes first, then two, and names a segment of one:
the copy reads behind its end. -/
theorem overrun_not_acceptsWritten :
    ¬ AcceptsWritten itemQueue (fun _ => true) 0
      [.int32 256, .int32 5, .int32 2] tinyHost ⟨.null, 0⟩ := by
  rintro ⟨r, hr, -⟩
  cases hr

theorem leavesNothing_shared :
    LeavesNothing itemQueue (fun n => n < 1) 0
      [.int32 200, .int32 5, .int32 200] soundHost ⟨.null, 0⟩ :=
  (leavesNothing_iff itemQueue_readsExactly rfl).mpr
    fun _ _ _ _ hmalloc => absurd hmalloc (by decide)

/-- Where the segment cannot be detached the caller gets an error and a
pointer to a block that is gone. -/
theorem undetached_not_leavesNothing :
    ¬ LeavesNothing itemQueue (fun n => n < 3) 0
      [.int32 256, .int32 5, .int32 1] tinyHost ⟨.null, 0⟩ := by
  rintro ⟨r, hr, hnull, -⟩
  cases hr
  exact absurd (hnull (by decide)) (by decide)

end AiEngine.Ref
