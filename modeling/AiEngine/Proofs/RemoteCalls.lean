import AiEngine.Ref.RemoteCall
import AiEngine.Proofs.IpcFraming
import AiEngine.Proofs.PayloadSegments

/-!
# A call over messages is a call

The proxy of a call and the function of the server that answers it are
written apart, in two languages. Here they are put together: what a caller
gets from a proxy is what the server's interface answers to the same
arguments, the server is left as that call leaves it, and the segments the
two messages needed are gone.

There are three shapes of request and two of reply. Each shape is followed
once, as a pair of a writer and a reader (`Link.Passes`), and the calls are
put together from the pairs.
-/

namespace AiEngine.Ref

open AiEngine.Lib

/-- The primitives of a call return in order what was written, and find
nothing in a message that was read to its end. What is written after the
identity of an object is written as if the object had been taken out. -/
structure CallSerializer.InOrder {Io : Type} (ser : CallSerializer Io)
    (holds : Io → List Item → Prop) : Prop extends
    ser.toSerializer.InOrder holds where
  init : holds ser.init []
  noInt32 : ∀ {io}, holds io [] → (ser.readInt32 io).1 = none
  noUint32 : ∀ {io}, holds io [] → (ser.readUint32 io).1 = none
  string : ∀ s, (ser.readString (ser.writeString ser.init s)).1 = some s
  object : ∀ sid, ∃ io io', ser.writeRemoteObject ser.init sid = (true, io) ∧
    ser.readRemoteObject io = (some sid, io') ∧ holds io' []
  objectInt32 : ∀ {io io' sid v},
    ser.readRemoteObject io = (some sid, io') →
    ser.readRemoteObject (ser.writeInt32 io v) =
      (some sid, ser.writeInt32 io' v)
  objectUint32 : ∀ {io io' sid v},
    ser.readRemoteObject io = (some sid, io') →
    ser.readRemoteObject (ser.writeUint32 io v) =
      (some sid, ser.writeUint32 io' v)
  objectInt64 : ∀ {io io' sid v},
    ser.readRemoteObject io = (some sid, io') →
    ser.readRemoteObject (ser.writeInt64 io v) =
      (some sid, ser.writeInt64 io' v)
  objectBuffer : ∀ {io io' sid bytes n},
    ser.readRemoteObject io = (some sid, io') →
    ser.readRemoteObject (ser.writeBuffer io bytes n) =
      (some sid, ser.writeBuffer io' bytes n)

/-- A payload that the writer and the reader take. -/
def DataInfo.Sendable (d : DataInfo) : Prop :=
  d.Proper ∧ d.length ≤ maxShmDataSize

section

variable {Io : Type} {ser : Serializer Io} {holds : Io → List Item → Prop}
  {served : Nat → Bool}

theorem Carries.withKey {h : Host} {d : DataInfo} {items : List Item}
    {slot : Option Int} (hc : Carries h d items slot) (key : Int) :
    Carries { h with shmKey := key } d items slot :=
  hc.of_seg fun _ _ => rfl

theorem Host.Room.le {h : Host} {m n : Nat} (hroom : h.Room n) (hle : m ≤ n) :
    h.Room m :=
  ⟨hroom.key, by
    have := hroom.room
    omega⟩

theorem ReadsRecord.leaves {α : Type} {h : Host} {a : α} {d : DataInfo}
    {q items : List Item} {slot : Option Int} {run : Ipc (UnParcelled Io α)}
    (hread : ReadsRecord ser served holds (items ++ q) h a d run)
    (hserved : ∀ n, served n = true) (hser : ser.InOrder holds)
    (hc : Carries h d items slot) {r : UnParcelled Io α} (hrun : run = .ok r) :
    r.host.segments = h.besides slot ∧ r.host.shmKey = h.shmKey := by
  obtain ⟨junk, io', extend, hq, rfl, -⟩ := hread
  obtain ⟨payload, hpayload, hrest⟩ := Outcome.bind_eq_ok.mp hrun
  have hhost : r.host = payload.host := by
    split at hrest <;> cases hrest <;> rfl
  rw [hhost]
  exact unParcelDataInfo_leaves hserved hser hq hc hpayload

/-- What the reader of a request leaves: everything was read, and the
segments but those of the request are still there. -/
structure RequestRead {α : Type} (h : Host) (segments : List Segment) (a : α)
    (r : UnParcelled Io α) : Prop where
  retCode : r.retCode = Retcode.success
  out : r.out = a
  segments : r.host.segments = segments
  shmKey : r.host.shmKey = h.shmKey

/-- The records of an algorithm call are read back, and their segments are
gone. -/
theorem unParcelInfo_reads (hserved : ∀ n, served n = true)
    (hser : ser.InOrder holds) {io : Io} {h : Host} {c : ClientInfo}
    {g : AlgorithmInfo} {d : DataInfo} {ci gi di : List Item}
    {cs gs ds : Option Int}
    (hsent : RequestSent holds c g d io h ci gi di cs gs ds)
    (hc : c.extendLen ≤ maxShmDataSize) (hg : g.extendLen ≤ maxShmDataSize)
    (hd : d.length ≤ maxShmDataSize) (junk : Int32) (c₀ : ClientInfo)
    (g₀ : AlgorithmInfo) (d₀ : DataInfo) :
    ∃ r, unParcelInfo ser served junk io h c₀ g₀ d₀ = .ok r ∧
      RequestRead h (((h.segments.filter fun s => cs ≠ some s.id).filter
        fun s => gs ≠ some s.id).filter fun s => ds ≠ some s.id) (c, g, d)
        r := by
  have hreadc := unParcelClientInfo_reads served hser hsent.holds junk h c₀
  obtain ⟨rc, hrunc, hrc⟩ := hreadc.ok hserved hser hsent.client hc
  obtain ⟨hsegc, hkeyc⟩ := hreadc.leaves hserved hser hsent.client hrunc
  have halgorithm : Carries rc.host g.extend gi gs :=
    hsent.algorithm.of_seg fun id hgs => hrc.frame id (hsent.distinct.1 id hgs)
  have hreadg :=
    unParcelAlgorithmInfo_reads served hser hrc.holds junk rc.host g₀
  obtain ⟨rg, hrung, hrg⟩ := hreadg.ok hserved hser halgorithm hg
  obtain ⟨hsegg, hkeyg⟩ := hreadg.leaves hserved hser halgorithm hrung
  have hdata : Carries rg.host d di ds :=
    hsent.data.of_seg fun id hds =>
      (hrg.frame id (hsent.distinct.2 id hds).2).trans
        (hrc.frame id (hsent.distinct.2 id hds).1)
  obtain ⟨rd, hrund, hrd⟩ :=
    unParcelDataInfo_ok hserved hser hrg.holds hdata hd junk d₀
  obtain ⟨hsegd, hkeyd⟩ :=
    unParcelDataInfo_leaves hserved hser hrg.holds hdata hrund
  refine ⟨⟨rd.retCode, (rc.out, rg.out, rd.out), rd.request, rd.host⟩, ?_,
    hrd.retCode, ?_, ?_, hkeyd.trans (hkeyg.trans hkeyc)⟩
  · simp [unParcelInfo, hrunc, hrc.retCode, hrung, hrg.retCode, hrund,
      hrd.retCode]
  · rw [hrc.out, hrg.out, hrd.out]
  · rw [hsegd, Host.besides, hsegg, Host.besides, hsegc, Host.besides]

theorem RequestSent.withKey {c : ClientInfo} {g : AlgorithmInfo}
    {d : DataInfo} {io : Io} {h : Host} {ci gi di : List Item}
    {cs gs ds : Option Int}
    (hsent : RequestSent holds c g d io h ci gi di cs gs ds) (key : Int) :
    RequestSent holds c g d io { h with shmKey := key } ci gi di cs gs ds :=
  ⟨hsent.holds, hsent.client.withKey key, hsent.algorithm.withKey key,
    hsent.data.withKey key, hsent.distinct⟩

/-- The writer of an algorithm call adds the segments of its three payloads
and nothing else. -/
theorem parcelRequest_adds (hserved : ∀ n, served n = true)
    (hser : ser.InOrder holds) {io : Io} (hio : holds io []) {h : Host}
    (hroom : h.Room 3) {c : ClientInfo} {g : AlgorithmInfo} {d : DataInfo}
    (hc : c.extend.Proper) (hg : g.extend.Proper) (hd : d.Proper) :
    ∃ io' h' ci gi di cs gs ds,
      parcelRequest ser served io h c g d = .ok (io', h') ∧
      RequestSent holds c g d io' h' ci gi di cs gs ds ∧ h'.KeyInRange ∧
      ((h'.segments.filter fun s => cs ≠ some s.id).filter
        fun s => gs ≠ some s.id).filter (fun s => ds ≠ some s.id) =
        h.segments := by
  obtain ⟨io₁, h₁, ci, cs, hrun₁, hp₁⟩ :=
    parcelClientInfo_ok hserved hser hio hroom hc
  obtain ⟨io₂, h₂, gi, gs, hrun₂, hp₂⟩ :=
    parcelAlgorithmInfo_ok hserved hser hp₁.holds hp₁.room hg c.serverUid
  obtain ⟨io₃, h₃, di, ds, hrun₃, hp₃⟩ :=
    parcelDataInfo_ok hserved hser hp₂.holds hp₂.room hd c.serverUid
  have hadd₁ : h₁.besides cs = h.segments :=
    hp₁.besides hserved hroom hrun₁
  have hadd₂ : h₂.besides gs = h₁.segments :=
    hp₂.besides hserved hp₁.room hrun₂
  have hadd₃ : h₃.besides ds = h₂.segments :=
    hp₃.besides hserved hp₂.room hrun₃
  refine ⟨io₃, h₃, ci, gi, di, cs, gs, ds, ?_,
    .of_written hp₁.toWritten hp₂.toWritten hp₃.toWritten, hp₃.room.key, ?_⟩
  · simp [parcelRequest, hrun₁, hrun₂, hrun₃]
  · rw [← hadd₁, Host.besides, ← hadd₂, Host.besides, ← hadd₃, Host.besides]
    simp only [List.filter_filter]
    refine List.filter_congr fun s _ => ?_
    simp only [Bool.and_assoc, Bool.and_comm]

end

section

variable {Io : Type} {ser : CallSerializer Io} {holds : Io → List Item → Prop}
  {served : Nat → Bool}

/-- Two results of a writer, on the same host: in one of the messages an
object comes first. -/
def AfterObject (ser : CallSerializer Io) (sid : SvcIdentity) :
    Io × Host → Io × Host → Prop :=
  fun a b => ser.readRemoteObject a.1 = (some sid, b.1) ∧ a.2 = b.2

theorem pushSharedMemory_afterObject (hser : ser.InOrder holds) {io io' : Io}
    {sid : SvcIdentity} (hio : ser.readRemoteObject io = (some sid, io'))
    (h : Host) (d : DataInfo) (uid : UInt32) :
    Outcome.Rel (fun _ _ => True) (AfterObject ser sid)
      (ipcIoPushSharedMemory ser.toSerializer served io h d uid)
      (ipcIoPushSharedMemory ser.toSerializer served io' h d uid) := by
  have hsame {h : Host} : Outcome.Rel (fun _ _ => True) (AfterObject ser sid)
      (.ok (io, h) : Ipc (Io × Host)) (.ok (io', h) : Ipc (Io × Host)) :=
    .ok ⟨hio, rfl⟩
  simp only [ipcIoPushSharedMemory]
  split
  · exact hsame
  split
  · exact hsame
  refine Outcome.Rel.bind (.same (fun _ => trivial) _) fun src _ heq => ?_
  obtain rfl := heq
  refine Outcome.Rel.bind (.same (fun _ => trivial) _) fun copied _ heq => ?_
  obtain rfl := heq
  split
  · exact hsame
  split
  · exact hsame
  split
  · exact hsame
  split
  · exact hsame
  · exact .ok ⟨hser.objectInt32 (hser.objectInt32 hio), rfl⟩

theorem parcelDataInfo_afterObject (served : Nat → Bool)
    (hser : ser.InOrder holds) {io io' : Io} {sid : SvcIdentity}
    (hio : ser.readRemoteObject io = (some sid, io'))
    (h : Host) (d : DataInfo) (uid : UInt32) :
    Outcome.Rel (fun _ _ => True) (AfterObject ser sid)
      (parcelDataInfo ser.toSerializer served io h d uid)
      (parcelDataInfo ser.toSerializer served io' h d uid) := by
  simp only [parcelDataInfo]
  split
  · exact .ok ⟨hio, rfl⟩
  split
  · exact .ok ⟨hio, rfl⟩
  split
  · exact .ok ⟨hser.objectInt32 hio, rfl⟩
  split
  · refine Outcome.Rel.bind (.same (fun _ => trivial) _) fun bytes _ heq => ?_
    obtain rfl := heq
    exact .ok ⟨hser.objectBuffer (hser.objectUint32 (hser.objectInt32 hio)),
      rfl⟩
  · exact pushSharedMemory_afterObject hser (hser.objectInt32 hio) h d uid

/-- A client record written after an object is the record alone, once the
object was read. -/
theorem parcelClientInfo_afterObject (hser : ser.InOrder holds) {io io' : Io}
    {sid : SvcIdentity} (hio : ser.readRemoteObject io = (some sid, io'))
    {h h₁ : Host} {c : ClientInfo} {io₁' : Io}
    (hrun : parcelClientInfo ser.toSerializer served io' h c =
      .ok (io₁', h₁)) :
    ∃ io₁, parcelClientInfo ser.toSerializer served io h c = .ok (io₁, h₁) ∧
      ser.readRemoteObject io₁ = (some sid, io₁') := by
  have hrel := parcelDataInfo_afterObject served hser
    (hser.objectUint32 (hser.objectUint32 (hser.objectInt32 (hser.objectInt32
      (hser.objectInt64 hio (v := c.clientVersion)) (v := c.clientId))
      (v := c.sessionId)) (v := c.serverUid)) (v := c.clientUid)) h
    ⟨c.extendMsg, c.extendLen⟩ c.serverUid
  simp only [parcelClientInfo] at hrun ⊢
  rw [hrun] at hrel
  cases hx : parcelDataInfo ser.toSerializer served
      (ser.writeUint32 (ser.writeUint32 (ser.writeInt32 (ser.writeInt32
        (ser.writeInt64 io c.clientVersion) c.clientId) c.sessionId)
        c.serverUid) c.clientUid) h ⟨c.extendMsg, c.extendLen⟩ c.serverUid with
  | ok a =>
      rw [hx] at hrel
      cases hrel with
      | ok hab => exact ⟨a.1, congrArg Outcome.ok (Prod.ext rfl hab.2), hab.1⟩
  | fail c => exact c.elim
  | fault =>
      rw [hx] at hrel
      cases hrel

end

/-- `g_shmKey` of a process is a key of the range. -/
def KeyOfRange (key : Int) : Prop := shmKeyStart ≤ key ∧ key < shmKeyEnd

/-- What `write` writes for `a`, `read` reads in the other process, and the
segments are then what they were. -/
def Passes {Io α : Type} (ser : CallSerializer Io)
    (write : Io → Host → Ipc (Io × Host))
    (read : Io → Host → Ipc (UnParcelled Io α)) (a : α) : Prop :=
  ∀ h key, h.Room 3 → KeyOfRange key → ∃ io h₁ r,
    write ser.init h = .ok (io, h₁) ∧ h₁.KeyInRange ∧
    read io { h₁ with shmKey := key } = .ok r ∧
    RequestRead { h₁ with shmKey := key } h.segments a r

namespace Link

variable {Io σ : Type} {l : Link Io σ} {holds : Io → List Item → Prop}

section

variable (hserved : ∀ n, l.served n = true) (hser : l.ser.InOrder holds)

include hserved hser

theorem client_read {c : ClientInfo} (hc : c.extend.Sendable) {io : Io}
    {h : Host} (hroom : h.Room 3) (hio : holds io [])
    (key : Int) :
    ∃ io₁ h₁ r, l.writeClient c io h = .ok (io₁, h₁) ∧ h₁.KeyInRange ∧
      l.readClient io₁ { h₁ with shmKey := key } = .ok r ∧
      RequestRead { h₁ with shmKey := key } h.segments c r := by
  obtain ⟨io₁, h₁, items, slot, hrun, hp⟩ :=
    parcelClientInfo_ok hserved hser.toInOrder hio hroom hc.1
  have hq : holds io₁ (c.scalars ++ (items ++ [])) := by
    simpa using hp.holds
  have hcar := hp.carries.withKey key
  have hreads := unParcelClientInfo_reads l.served hser.toInOrder hq l.junk
    { h₁ with shmKey := key } .zero
  obtain ⟨r, hread, hr⟩ := hreads.ok hserved hser.toInOrder hcar hc.2
  obtain ⟨hsegs, hkey⟩ := hreads.leaves hserved hser.toInOrder hcar hread
  refine ⟨io₁, h₁, r, hrun, hp.room.key, hread, hr.retCode, hr.out, ?_, hkey⟩
  rw [hsegs, Host.besides_withKey]
  exact hp.besides hserved hroom hrun

theorem client_passes {c : ClientInfo} (hc : c.extend.Sendable) :
    Passes l.ser (l.writeClient c) l.readClient c :=
  fun _ _ hroom _ => l.client_read hserved hser hc hroom hser.init _

theorem algorithm_passes {c : ClientInfo} {g : AlgorithmInfo} {d : DataInfo}
    (hc : c.extend.Sendable) (hg : g.extend.Sendable) (hd : d.Sendable) :
    Passes l.ser (l.writeAlgorithm c g d) l.readAlgorithm (c, g, d) := by
  intro h key hroom _
  obtain ⟨io₁, h₁, ci, gi, di, cs, gs, ds, hrun, hsent, hkey₁, hsegs⟩ :=
    parcelRequest_adds hserved hser.toInOrder hser.init hroom hc.1 hg.1 hd.1
  obtain ⟨r, hread, hr⟩ := unParcelInfo_reads hserved hser.toInOrder
    (hsent.withKey key) hc.2 hg.2 hd.2 l.junk .zero .zero ⟨.null, 0⟩
  exact ⟨io₁, h₁, r, hrun, hkey₁, hread, hr.retCode, hr.out,
    hr.segments.trans hsegs, hr.shmKey⟩

theorem option_passes {c : ClientInfo} {d : DataInfo}
    (hc : c.extend.Sendable) (hd : d.Sendable) (o : Int32) :
    Passes l.ser (l.writeOption c o d) l.readOption (c, o, d) := by
  intro h key hroom _
  obtain ⟨io₁, h₁, ci, cs, hrun₁, hp₁⟩ :=
    parcelClientInfo_ok hserved hser.toInOrder hser.init hroom hc.1
  obtain ⟨io₂, h₂, di, ds, hrun₂, hp₂⟩ := parcelDataInfo_ok hserved
    hser.toInOrder (hser.writeInt32 hp₁.holds (v := o)) hp₁.room hd.1
    c.serverUid
  have hcs : Carries h₂ c.extend ci cs := by
    refine hp₁.carries.of_seg fun id hcs => hp₂.frame id fun hds => ?_
    subst hcs
    exact hp₁.carries.seg_ne_none (hp₂.fresh id hds)
  have hq : holds io₂ (c.scalars ++ (ci ++ (.int32 o :: (di ++ [])))) := by
    simpa using hp₂.holds
  have hcar := hcs.withKey key
  have hreads := unParcelClientInfo_reads l.served hser.toInOrder hq l.junk
    { h₂ with shmKey := key } .zero
  obtain ⟨rc, hreadc, hrc⟩ := hreads.ok hserved hser.toInOrder hcar hc.2
  obtain ⟨hsegc, hkeyc⟩ := hreads.leaves hserved hser.toInOrder hcar hreadc
  obtain ⟨io₃, hreado, hq₃⟩ := hser.readInt32 hrc.holds
  have hdata : Carries rc.host d di ds := by
    refine (hp₂.carries.withKey key).of_seg fun id hds => hrc.frame id ?_
    rintro rfl
    subst hds
    exact hp₁.carries.seg_ne_none (hp₂.fresh id rfl)
  obtain ⟨rd, hreadd, hrd⟩ := unParcelDataInfo_ok hserved hser.toInOrder hq₃
    hdata hd.2 l.junk ⟨.null, 0⟩
  obtain ⟨hsegd, hkeyd⟩ :=
    unParcelDataInfo_leaves hserved hser.toInOrder hq₃ hdata hreadd
  refine ⟨io₂, h₂, ⟨rd.retCode, (rc.out, o, rd.out), rd.request, rd.host⟩,
    ?_, hp₂.room.key, ?_, hrd.retCode, ?_, ?_, hkeyd.trans hkeyc⟩
  · simp [writeOption, writeClient, hrun₁, hrun₂]
  · simp [readOption, readClient, hreadc, hrc.retCode, hreado, hreadd,
      hrd.retCode]
  · rw [hrc.out, hrd.out]
  · rw [hsegd, Host.besides, hsegc, Host.besides_withKey, Host.besides,
      ← hp₁.besides hserved hroom hrun₁, Host.besides,
      ← hp₂.besides hserved hp₁.room hrun₂, Host.besides]
    simp only [List.filter_filter]
    exact List.filter_congr fun s _ => Bool.and_comm _ _

theorem callback_passes {c : ClientInfo} (hc : c.extend.Sendable)
    (sid : SvcIdentity) :
    ∃ io, l.ser.writeRemoteObject l.ser.init sid = (true, io) ∧
      Passes l.ser (fun _ => l.writeClient c io) l.readCallback (c, sid) := by
  obtain ⟨io, io', hwrite, hobject, hio'⟩ := hser.object sid
  refine ⟨io, hwrite, fun h key hroom _ => ?_⟩
  obtain ⟨io₁', h₁, r, hrun', hkey₁, hread, hr⟩ :=
    l.client_read hserved hser hc hroom hio' key
  obtain ⟨io₁, hrun, hobject₁⟩ :=
    parcelClientInfo_afterObject hser hobject hrun'
  refine ⟨io₁, h₁, ⟨r.retCode, (r.out, sid), r.request, r.host⟩, hrun, hkey₁,
    ?_, hr.retCode, ?_, hr.segments, hr.shmKey⟩
  · simp [readCallback, hobject₁, hread]
  · rw [hr.out]

end

end Link

/-! ## Replies

The reply has a code and, where the call has a result, a payload. The client
reads what the server has written, and the server's block is freed once it is
in the message. -/

/-- The host has room for the payloads of a call, and both processes have a
key of the range. -/
structure Remote.Ready {σ : Type} (r : Remote σ) : Prop where
  room : r.host.Room 3
  serverKey : KeyOfRange r.serverKey

/-- A call has been served: the server is `s`, and the host is as it was but
for the keys. -/
structure Remote.Serves {σ : Type} (r r' : Remote σ) (s : σ) : Prop where
  server : r'.server = s
  segments : r'.host.segments = r.host.segments
  ready : r'.Ready

/-- A payload whose length contradicts its data. -/
def DataInfo.Contradicts (d : DataInfo) : Prop :=
  (d.data ≠ .null ∧ d.length ≤ 0) ∨ (d.data = .null ∧ d.length ≠ 0)

instance (d : DataInfo) : Decidable d.Contradicts :=
  inferInstanceAs (Decidable (_ ∨ _))

theorem DataInfo.Passed.proper {d : DataInfo} (hd : d.Passed)
    (hcon : ¬ d.Contradicts) : d.Proper := by
  rcases d with ⟨data, length⟩
  simp only [DataInfo.Contradicts, not_or, not_and] at hcon
  rcases hd with hnull | ⟨bytes, hblock, hlen⟩
  · obtain rfl : data = .null := hnull
    obtain rfl : length = 0 := not_not.mp (hcon.2 rfl)
    exact .inl rfl
  · obtain rfl : data = .block bytes := hblock
    have hpos : 0 < length := Int.not_le.mp (hcon.1 (by simp))
    obtain ⟨rfl, hmax⟩ := hlen hpos
    exact .inr ⟨bytes, by simpa using hpos, hmax, rfl⟩

/-- What a caller receives of an output. One that contradicts itself is not
sent, one that is too long is refused, and then the caller keeps the object it
passed. -/
def received (outputInfo : DataInfo) (retCode : Int32) (out : DataInfo) :
    ProxyResult :=
  if out.Contradicts then .data retCode.toInt ⟨.null, 0⟩
  else if maxShmDataSize < out.length then .data Retcode.failure outputInfo
  else .data retCode.toInt out

namespace Link

variable {Io σ : Type} {l : Link Io σ} {holds : Io → List Item → Prop}

/-- A reply of one word is read into a `Notify`, and nothing is written
beside it. -/
theorem callback_code (hser : l.ser.InOrder holds) {reply : Io} {v : Int32}
    (hq : holds reply [.int32 v]) (owner : Vector UInt32 1) :
    l.callback owner reply = .ok #v[v.toUInt32] := by
  obtain ⟨io', hread, hq'⟩ := hser.readInt32 hq
  have hset : owner.set 0 v.toUInt32 = #v[v.toUInt32] := by
    ext i hi
    obtain rfl : i = 0 := by omega
    simp
  simp [callback, hread, writeWord, hser.noUint32 hq', hset]

theorem freeDataInfo_ok {d : DataInfo} (hd : d.data ≠ .dangling) :
    ∃ freed, freeDataInfo d = .ok freed := by
  cases hdata : d.data with
  | null => exact ⟨d, by rw [freeDataInfo, hdata]⟩
  | block bytes => exact ⟨⟨.null, 0⟩, by rw [freeDataInfo, hdata]⟩
  | dangling => exact absurd hdata hd

theorem callForCode_ok {α : Type} (hser : l.ser.InOrder holds)
    (funcId : FuncId) {read : Io → Host → Ipc (UnParcelled Io α)}
    {call : α → σ → Int32 × σ} {kept : α → DataInfo}
    (hinvoke : l.invoke funcId = l.invokeCode read call kept)
    {write : Io → Host → Ipc (Io × Host)} {a : α}
    (hpasses : Passes l.ser write read a) (hkept : (kept a).data ≠ .dangling)
    {r : Remote σ} (hready : r.Ready) :
    ∃ r', l.callForCode write funcId .willing r =
        .ok ((call a r.server).1.toInt, r') ∧
      r.Serves r' (call a r.server).2 := by
  obtain ⟨io, h₁, q, hwrite, hkey₁, hread, hq⟩ :=
    hpasses r.host r.serverKey hready.room hready.serverKey
  obtain ⟨freed, hfree⟩ := freeDataInfo_ok hkept
  have hreply : holds (l.ser.writeInt32 l.ser.init (call a r.server).1)
      [.int32 (call a r.server).1] := hser.writeInt32 hser.init
  have hcallback := callback_code hser hreply
    #v[(Int32.ofInt Retcode.failure).toUInt32]
  have hinv : l.invoke funcId io l.ser.init r.server
      { h₁ with shmKey := r.serverKey } =
      .ok ⟨l.ser.writeInt32 l.ser.init (call a r.server).1,
        (call a r.server).2, q.host⟩ := by
    rw [hinvoke]
    simp [invokeCode, hread, hq.retCode, hq.out, hfree]
  refine ⟨⟨(call a r.server).2, { q.host with shmKey := h₁.shmKey },
    q.host.shmKey⟩, ?_, rfl, hq.segments, ⟨hkey₁, ?_⟩, ?_⟩
  · simp [callForCode, hwrite, ProxyEnv.willing, Remote.transact, hinv,
      hcallback]
  · show q.host.segments.length + 3 ≤ 100000
    rw [hq.segments]
    exact hready.room.room
  · show KeyOfRange q.host.shmKey
    rw [hq.shmKey]
    exact hready.serverKey

/-- What the two sides make of a code and an output: the server writes them,
and the client reads what it is to receive. -/
theorem reply_ok (hserved : ∀ n, l.served n = true)
    (hser : l.ser.InOrder holds) {h : Host} (hroom : h.Room 1) (uid : UInt32)
    (retCode : Int32) {out : DataInfo} (hout : out.Passed) (key : Int) :
    ∃ reply h₁ owner h₂,
      parcelDataInfo l.ser.toSerializer l.served
        (l.ser.writeInt32 l.ser.init retCode) h out uid = .ok (reply, h₁) ∧
      h₁.KeyInRange ∧
      l.callbackBuff .initial reply { h₁ with shmKey := key } =
        .ok (owner, h₂) ∧
      (∀ outputInfo, received outputInfo retCode out =
        if owner.ipcRetCode ≠ Retcode.success then
          .data owner.ipcRetCode outputInfo
        else .data owner.retCode.toInt ⟨owner.outBuff, owner.outLen⟩) ∧
      h₂.segments = h.segments ∧ h₂.shmKey = key := by
  have hq := hser.writeInt32 hser.init (v := retCode)
  by_cases hcon : out.Contradicts
  · obtain ⟨io₁, hread₁, hq₁⟩ := hser.readInt32 hq
    refine ⟨l.ser.writeInt32 l.ser.init retCode, h,
      ⟨Retcode.success, retCode, 0, .null⟩, { h with shmKey := key }, ?_,
      hroom.key, ?_, ?_, rfl, rfl⟩
    · rw [parcelDataInfo]
      rcases hcon with hcon | hcon
      · rw [if_pos hcon]
      · rw [if_neg (fun hn => hn.1 hcon.1), if_pos hcon]
    · have hnone : (l.ser.readInt32 io₁).1 = none := hser.noInt32 hq₁
      simp [callbackBuff, hread₁, unParcelDataInfo, hnone, NotifyBuff.initial]
    · intro outputInfo
      simp [received, hcon]
  have hproper := hout.proper hcon
  obtain ⟨reply, h₁, items, slot, hrun, hp⟩ :=
    parcelDataInfo_ok hserved hser.toInOrder hq hroom hproper uid
  obtain ⟨io₁, hread₁, hq₁⟩ := hser.readInt32 (q := items ++ [])
    (by simpa using hp.holds)
  have hcar := hp.carries.withKey key
  have hadd := hp.besides hserved hroom hrun
  by_cases hmax : out.length ≤ maxShmDataSize
  · obtain ⟨r, hread, hr⟩ := unParcelDataInfo_ok hserved hser.toInOrder hq₁
      hcar hmax l.junk ⟨.null, 0⟩
    obtain ⟨hsegs, hkey⟩ :=
      unParcelDataInfo_leaves hserved hser.toInOrder hq₁ hcar hread
    refine ⟨reply, h₁, ⟨r.retCode, retCode, r.out.length, r.out.data⟩, r.host,
      hrun, hp.room.key, ?_, ?_, ?_, hkey⟩
    · simp [callbackBuff, hread₁, hread, hr.retCode]
    · intro outputInfo
      simp [received, hcon, Int.not_lt.mpr hmax, hr.retCode, hr.out]
    · rw [hsegs, Host.besides_withKey, hadd]
  · obtain ⟨r, hread, hret⟩ := unParcelDataInfo_tooLong l.served
      hser.toInOrder hq₁ hcar (Int.not_le.mp hmax) l.junk ⟨.null, 0⟩
    obtain ⟨hsegs, hkey⟩ :=
      unParcelDataInfo_leaves hserved hser.toInOrder hq₁ hcar hread
    have hfailed : ¬ Retcode.failure = Retcode.success := by decide
    refine ⟨reply, h₁, ⟨r.retCode, retCode, 0, .null⟩, r.host, hrun,
      hp.room.key, ?_, ?_, ?_, hkey⟩
    · simp [callbackBuff, hread₁, hread, hret, hfailed]
    · intro outputInfo
      simp [received, hcon, Int.not_le.mp hmax, hret, hfailed]
    · rw [hsegs, Host.besides_withKey, hadd]

theorem callForData_ok {α : Type} (hserved : ∀ n, l.served n = true)
    (hser : l.ser.InOrder holds) (funcId : FuncId)
    {read : Io → Host → Ipc (UnParcelled Io α)}
    {call : α → σ → Int32 × DataInfo × σ} {clientUid : α → UInt32}
    {kept : α → DataInfo}
    (hinvoke : l.invoke funcId = l.invokeData read call clientUid kept)
    {write : Io → Host → Ipc (Io × Host)} {a : α}
    (hpasses : Passes l.ser write read a) (hkept : (kept a).data ≠ .dangling)
    {r : Remote σ} (hready : r.Ready)
    (hout : (call a r.server).2.1.Passed) (outputInfo : DataInfo) :
    ∃ retCode out r',
      l.callForData write funcId .willing outputInfo r =
        .ok (retCode, out, r') ∧
      .data retCode out =
        received outputInfo (call a r.server).1 (call a r.server).2.1 ∧
      r.Serves r' (call a r.server).2.2 := by
  obtain ⟨io, h₁, q, hwrite, hkey₁, hread, hq⟩ :=
    hpasses r.host r.serverKey hready.room hready.serverKey
  obtain ⟨freed, hfree⟩ := freeDataInfo_ok hkept
  obtain ⟨freedOut, hfreeOut⟩ : ∃ freed,
      freeDataInfo (call a r.server).2.1 = .ok freed := by
    refine freeDataInfo_ok fun hdangling => ?_
    rcases hout with hnull | ⟨bytes, hblock, -⟩
    · rw [hnull] at hdangling
      cases hdangling
    · rw [hblock] at hdangling
      cases hdangling
  have hroom : q.host.Room 3 := by
    refine ⟨?_, ?_⟩
    · show KeyOfRange q.host.shmKey
      rw [hq.shmKey]
      exact hready.serverKey
    · rw [hq.segments]
      exact hready.room.room
  obtain ⟨reply, h₂, owner, h₃, hparcel, hkey₂, hcallback, hreceived, hsegs,
      hkey₃⟩ := reply_ok hserved hser (hroom.le (show 1 ≤ 3 by omega))
    (clientUid a) (call a r.server).1 hout h₁.shmKey
  have hinv : l.invoke funcId io l.ser.init r.server
      { h₁ with shmKey := r.serverKey } =
      .ok ⟨reply, (call a r.server).2.2, h₂⟩ := by
    rw [hinvoke]
    simp [invokeData, hread, hq.retCode, hq.out, hfree, hfreeOut, hparcel]
  have hserves : r.Serves ⟨(call a r.server).2.2, h₃, h₂.shmKey⟩
      (call a r.server).2.2 := by
    refine ⟨rfl, hsegs.trans hq.segments, ⟨?_, ?_⟩, hkey₂⟩
    · show KeyOfRange h₃.shmKey
      rw [hkey₃]
      exact hkey₁
    · show h₃.segments.length + 3 ≤ 100000
      rw [hsegs, hq.segments]
      exact hready.room.room
  by_cases hok : owner.ipcRetCode = Retcode.success
  · refine ⟨owner.retCode.toInt, ⟨owner.outBuff, owner.outLen⟩, _, ?_, ?_,
      hserves⟩
    · simp [callForData, hwrite, ProxyEnv.willing, Remote.transact, hinv,
        hcallback, hok]
    · rw [hreceived, if_neg (not_not.mpr hok)]
  · refine ⟨owner.ipcRetCode, outputInfo, _, ?_, ?_, hserves⟩
    · simp [callForData, hwrite, ProxyEnv.willing, Remote.transact, hinv,
        hcallback, hok]
    · rw [hreceived, if_pos hok]

theorem initSaEngine_ok (hser : l.ser.InOrder holds) (description : String)
    (c : ClientInfo) {r : Remote σ} (hready : r.Ready) :
    ∃ r', l.initSaEngine description .willing c r =
        .ok (Retcode.success,
          { c with
            clientId := (l.api.initEngine (some description) r.server).1
            serverUid := l.uid }, r') ∧
      r.Serves r' (l.api.initEngine (some description) r.server).2 := by
  have hread := hser.string description
  obtain ⟨io₁, hread₁, hq₁⟩ := hser.readInt32
    (hser.writeUint32 (hser.writeInt32 hser.init
      (v := (l.api.initEngine (some description) r.server).1)) (v := l.uid))
  obtain ⟨io₂, hread₂, hq₂⟩ := hser.readUint32 hq₁
  refine ⟨⟨(l.api.initEngine (some description) r.server).2, r.host,
    r.serverKey⟩, ?_, rfl, rfl, hready.room, hready.serverKey⟩
  have hinv : l.invoke .initEngine
      (l.ser.writeString l.ser.init description) l.ser.init r.server
      { r.host with shmKey := r.serverKey } =
      .ok ⟨l.ser.writeUint32 (l.ser.writeInt32 l.ser.init
        (l.api.initEngine (some description) r.server).1) l.uid,
        (l.api.initEngine (some description) r.server).2,
        { r.host with shmKey := r.serverKey }⟩ := by
    simp [invoke, invokeInitSaEngine, hread]
  simp [initSaEngine, ProxyEnv.willing, Remote.transact, hinv, callback,
    hread₁, hread₂, writeWord]

end Link

/-- What the caller has after a call that needs no message: the answer of the
interface, with the output as it would be received. -/
def AiInterface.call {σ : Type} (api : AiInterface σ) (uid : UInt32) (s : σ) :
    ProxyCall → ProxyResult × σ
  | .initEngine description c =>
      let (clientId, s) := api.initEngine (some description) s
      (.client Retcode.success { c with clientId, serverUid := uid }, s)
  | .destroyEngine c =>
      let (retCode, s) := api.destroyEngine c s
      (.code retCode.toInt, s)
  | .syncExecuteAlgorithm c g d outputInfo =>
      let (retCode, out, s) := api.syncExecuteAlgorithm c g d s
      (received outputInfo retCode out, s)
  | .asyncExecuteAlgorithm c g d =>
      let (retCode, s) := api.asyncExecuteAlgorithm c g d s
      (.code retCode.toInt, s)
  | .loadAlgorithm c g d outputInfo =>
      let (retCode, out, s) := api.loadAlgorithm c g d s
      (received outputInfo retCode out, s)
  | .unloadAlgorithm c g d =>
      let (retCode, s) := api.unloadAlgorithm c g d s
      (.code retCode.toInt, s)
  | .setOption c o d =>
      let (retCode, s) := api.setOption c o d s
      (.code retCode.toInt, s)
  | .getOption c o d outputInfo =>
      let (retCode, out, s) := api.getOption c o d s
      (received outputInfo retCode out, s)
  | .registerCallback c sid =>
      let (retCode, s) := api.registerCallback c sid s
      (.code retCode.toInt, s)
  | .unregisterCallback c =>
      let (retCode, s) := api.unregisterCallback c s
      (.code retCode.toInt, s)

/-- Every payload of the call is one that the reader takes. -/
def ProxyCall.Sendable : ProxyCall → Prop
  | .initEngine _ _ => True
  | .destroyEngine c => c.extend.Sendable
  | .syncExecuteAlgorithm c g d _ =>
      c.extend.Sendable ∧ g.extend.Sendable ∧ d.Sendable
  | .asyncExecuteAlgorithm c g d =>
      c.extend.Sendable ∧ g.extend.Sendable ∧ d.Sendable
  | .loadAlgorithm c g d _ =>
      c.extend.Sendable ∧ g.extend.Sendable ∧ d.Sendable
  | .unloadAlgorithm c g d =>
      c.extend.Sendable ∧ g.extend.Sendable ∧ d.Sendable
  | .setOption c _ d => c.extend.Sendable ∧ d.Sendable
  | .getOption c _ d _ => c.extend.Sendable ∧ d.Sendable
  | .registerCallback c _ => c.extend.Sendable
  | .unregisterCallback c => c.extend.Sendable

/-- The outputs of an interface are blocks as long as they say. -/
structure AiInterface.OutputsPassed {σ : Type} (api : AiInterface σ) :
    Prop where
  loadAlgorithm : ∀ c g d s, (api.loadAlgorithm c g d s).2.1.Passed
  syncExecuteAlgorithm :
    ∀ c g d s, (api.syncExecuteAlgorithm c g d s).2.1.Passed
  getOption : ∀ c o d s, (api.getOption c o d s).2.1.Passed

theorem DataInfo.Sendable.not_dangling {d : DataInfo} (hd : d.Sendable) :
    d.data ≠ .dangling := by
  rcases hd.1 with rfl | ⟨bytes, -, -, rfl⟩
  · simp
  · simp

section

variable {Io σ : Type} {l : Link Io σ} {holds : Io → List Item → Prop}

/-- A call over messages is the call without. -/
theorem Link.call_ok (hserved : ∀ n, l.served n = true)
    (hser : l.ser.InOrder holds) (hout : l.api.OutputsPassed) {r : Remote σ}
    (hready : r.Ready) {c : ProxyCall} (hc : c.Sendable) :
    ∃ r', l.call .willing r c = .ok ((l.api.call l.uid r.server c).1, r') ∧
      r.Serves r' (l.api.call l.uid r.server c).2 := by
  cases c with
  | initEngine description c =>
      obtain ⟨r', hrun, hr⟩ := l.initSaEngine_ok hser description c hready
      exact ⟨r', by simp [Link.call, hrun, AiInterface.call], hr⟩
  | destroyEngine c =>
      obtain ⟨r', hrun, hr⟩ := l.callForCode_ok hser .destroyEngine
        (by rw [Link.invoke, Link.invokeDestroyEngine])
        (l.client_passes hserved hser hc) (by simp) hready
      refine ⟨r', ?_, hr⟩
      simp [Link.call, Link.destroyEngineProxy, hrun, AiInterface.call]
  | syncExecuteAlgorithm c g d outputInfo =>
      obtain ⟨retCode, out, r', hrun, hres, hr⟩ := l.callForData_ok hserved hser
        .syncExecuteAlgorithm
        (by rw [Link.invoke, Link.invokeSyncExecute])
        (l.algorithm_passes hserved hser hc.1 hc.2.1 hc.2.2) (by simp) hready
        (by exact hout.syncExecuteAlgorithm c g d r.server) outputInfo
      refine ⟨r', ?_, hr⟩
      simp [Link.call, Link.syncExecAlgorithmProxy, hrun, AiInterface.call,
        hres]
  | asyncExecuteAlgorithm c g d =>
      obtain ⟨r', hrun, hr⟩ := l.callForCode_ok hser .asyncExecuteAlgorithm
        (by rw [Link.invoke, Link.invokeAsyncExecute])
        (l.algorithm_passes hserved hser hc.1 hc.2.1 hc.2.2) (by simp) hready
      refine ⟨r', ?_, hr⟩
      simp [Link.call, Link.asyncExecuteAlgorithmProxy, hrun,
        AiInterface.call]
  | loadAlgorithm c g d outputInfo =>
      obtain ⟨retCode, out, r', hrun, hres, hr⟩ := l.callForData_ok hserved hser
        .loadAlgorithm
        (by rw [Link.invoke, Link.invokeLoadAlgorithm])
        (l.algorithm_passes hserved hser hc.1 hc.2.1 hc.2.2)
        (by exact hc.2.2.not_dangling) hready
        (by exact hout.loadAlgorithm c g d r.server) outputInfo
      refine ⟨r', ?_, hr⟩
      simp [Link.call, Link.loadAlgorithmProxy, hrun, AiInterface.call, hres]
  | unloadAlgorithm c g d =>
      obtain ⟨r', hrun, hr⟩ := l.callForCode_ok hser .unloadAlgorithm
        (by rw [Link.invoke, Link.invokeUnloadAlgorithm])
        (l.algorithm_passes hserved hser hc.1 hc.2.1 hc.2.2)
        (by exact hc.2.2.not_dangling) hready
      refine ⟨r', ?_, hr⟩
      simp [Link.call, Link.unloadAlgorithmProxy, hrun, AiInterface.call]
  | setOption c o d =>
      obtain ⟨r', hrun, hr⟩ := l.callForCode_ok hser .setOption
        (by rw [Link.invoke, Link.invokeSetOption])
        (l.option_passes hserved hser hc.1 hc.2 o)
        (by exact hc.2.not_dangling) hready
      refine ⟨r', ?_, hr⟩
      simp [Link.call, Link.setOptionProxy, hrun, AiInterface.call]
  | getOption c o d outputInfo =>
      obtain ⟨retCode, out, r', hrun, hres, hr⟩ := l.callForData_ok hserved hser
        .getOption (by rw [Link.invoke, Link.invokeGetOption])
        (l.option_passes hserved hser hc.1 hc.2 o)
        (by exact hc.2.not_dangling) hready
        (by exact hout.getOption c o d r.server) outputInfo
      refine ⟨r', ?_, hr⟩
      simp [Link.call, Link.getOptionProxy, hrun, AiInterface.call, hres]
  | registerCallback c sid =>
      obtain ⟨io, hwrite, hpasses⟩ := l.callback_passes hserved hser hc sid
      obtain ⟨r', hrun, hr⟩ := l.callForCode_ok hser .registerCallback
        (by rw [Link.invoke, Link.invokeRegisterCallback])
        hpasses (by simp) hready
      refine ⟨r', ?_, hr⟩
      simp [Link.call, Link.registerCallbackProxy, hwrite, hrun,
        AiInterface.call]
  | unregisterCallback c =>
      obtain ⟨r', hrun, hr⟩ := l.callForCode_ok hser .unregisterCallback
        (by rw [Link.invoke, Link.invokeUnregisterCallback])
        (l.client_passes hserved hser hc) (by simp) hready
      refine ⟨r', ?_, hr⟩
      simp [Link.call, Link.unregisterCallbackProxy, hrun, AiInterface.call]

/-- Whatever a client calls, one call after the other, it has from its
proxies what the server's interface would have answered it, and the server is
where these calls leave it. -/
theorem Link.session_eq_answers (hserved : ∀ n, l.served n = true)
    (hser : l.ser.InOrder holds) (hout : l.api.OutputsPassed) {r : Remote σ}
    (hready : r.Ready) {calls : List ProxyCall}
    (hcalls : ∀ c ∈ calls, c.Sendable) :
    ∃ r', l.session r (calls.map fun c => (.willing, c)) =
        .ok ((answers (l.api.call l.uid) r.server calls).1, r') ∧
      r.Serves r' (answers (l.api.call l.uid) r.server calls).2 := by
  induction calls generalizing r with
  | nil => exact ⟨r, rfl, rfl, rfl, hready⟩
  | cons c calls ih =>
      obtain ⟨r₁, hrun, hr₁⟩ :=
        l.call_ok hserved hser hout hready (hcalls c List.mem_cons_self)
      obtain ⟨r₂, hrest, hr₂⟩ := ih hr₁.ready fun c hc =>
        hcalls c (List.mem_cons_of_mem _ hc)
      rw [hr₁.server] at hrest hr₂
      refine ⟨r₂, ?_, hr₂.server, hr₂.segments.trans hr₁.segments, hr₂.ready⟩
      simp [Link.session, hrun, hrest, answers]

end

/-- A message by what was written: a string, the identity of an object, and
the items after it. -/
structure Message where
  string : Option String
  object : Option SvcIdentity
  items : List Item
  deriving DecidableEq, Repr

/-- The serializer that keeps what is written. -/
def messages : CallSerializer Message where
  init := ⟨none, none, []⟩
  writeString m s := { m with string := some s }
  readString m := (m.string, { m with string := none })
  writeRemoteObject m sid := (true, { m with object := some sid })
  readRemoteObject m := (m.object, { m with object := none })
  writeInt32 m v := { m with items := itemQueue.writeInt32 m.items v }
  writeUint32 m v := { m with items := itemQueue.writeUint32 m.items v }
  writeInt64 m v := { m with items := itemQueue.writeInt64 m.items v }
  writeBool m v := { m with items := itemQueue.writeBool m.items v }
  writeBuffer m bytes n :=
    { m with items := itemQueue.writeBuffer m.items bytes n }
  readInt32 m :=
    ((itemQueue.readInt32 m.items).1,
      { m with items := (itemQueue.readInt32 m.items).2 })
  readUint32 m :=
    ((itemQueue.readUint32 m.items).1,
      { m with items := (itemQueue.readUint32 m.items).2 })
  readInt64 m :=
    ((itemQueue.readInt64 m.items).1,
      { m with items := (itemQueue.readInt64 m.items).2 })
  readBool m :=
    ((itemQueue.readBool m.items).1,
      { m with items := (itemQueue.readBool m.items).2 })
  readBuffer m n :=
    ((itemQueue.readBuffer m.items n).1,
      { m with items := (itemQueue.readBuffer m.items n).2 })

theorem messages_inOrder :
    messages.InOrder fun m q => m = ⟨none, none, q⟩ where
  writeInt32 := by rintro _ _ _ rfl; rfl
  writeUint32 := by rintro _ _ _ rfl; rfl
  writeInt64 := by rintro _ _ _ rfl; rfl
  writeBool := by rintro _ _ _ rfl; rfl
  writeBuffer := by rintro _ _ _ _ rfl hn; simp [messages, itemQueue, hn]
  readInt32 := by rintro _ q _ rfl; exact ⟨⟨none, none, q⟩, rfl, rfl⟩
  readUint32 := by rintro _ q _ rfl; exact ⟨⟨none, none, q⟩, rfl, rfl⟩
  readInt64 := by rintro _ q _ rfl; exact ⟨⟨none, none, q⟩, rfl, rfl⟩
  readBool := by rintro _ q _ rfl; exact ⟨⟨none, none, q⟩, rfl, rfl⟩
  readBuffer := by
    rintro _ q _ _ rfl hn
    exact ⟨⟨none, none, q⟩, by simp [messages, itemQueue, hn], rfl⟩
  init := rfl
  noInt32 := by rintro _ rfl; rfl
  noUint32 := by rintro _ rfl; rfl
  string _ := rfl
  object sid :=
    ⟨⟨none, some sid, []⟩, ⟨none, none, []⟩, rfl, rfl, rfl⟩
  objectInt32 := by
    intro io io' sid v h
    simp only [messages, Prod.mk.injEq] at h ⊢
    exact ⟨h.1, by rw [← h.2]⟩
  objectUint32 := by
    intro io io' sid v h
    simp only [messages, Prod.mk.injEq] at h ⊢
    exact ⟨h.1, by rw [← h.2]⟩
  objectInt64 := by
    intro io io' sid v h
    simp only [messages, Prod.mk.injEq] at h ⊢
    exact ⟨h.1, by rw [← h.2]⟩
  objectBuffer := by
    intro io io' sid bytes n h
    simp only [messages, Prod.mk.injEq] at h ⊢
    exact ⟨h.1, by rw [← h.2]⟩

/-- A server that counts its calls, grants them all, and answers with a
payload of ten bytes for each call before. -/
def countingApi : AiInterface Nat where
  initEngine _ n := (7, n + 1)
  loadAlgorithm _ _ _ n := (0, dumpPayload (min (10 * n) 1000), n + 1)
  syncExecuteAlgorithm _ _ _ n := (0, dumpPayload (min (10 * n) 1000), n + 1)
  asyncExecuteAlgorithm _ _ _ n := (0, n + 1)
  unloadAlgorithm _ _ _ n := (0, n + 1)
  destroyEngine _ n := (0, n + 1)
  setOption _ _ _ n := (0, n + 1)
  getOption _ _ _ n := (0, dumpPayload (min (10 * n) 1000), n + 1)
  registerCallback _ _ n := (0, n + 1)
  unregisterCallback _ n := (0, n + 1)

theorem countingApi_outputsPassed : countingApi.OutputsPassed := by
  have hpassed (n : Nat) : (dumpPayload (min (10 * n) 1000)).Passed :=
    dumpPayload_passed (by simp only [intMax]; omega)
  exact ⟨fun _ _ _ n => hpassed n, fun _ _ _ n => hpassed n,
    fun _ _ _ n => hpassed n⟩

/-- A client and a server, on a host where every call is served. -/
def countingLink : Link Message Nat :=
  ⟨messages, fun _ => true, countingApi, 1000, 0⟩

/-- The server after twenty calls, and its host. -/
def countingRemote : Remote Nat := ⟨20, freshHost, shmKeyStart⟩

theorem countingRemote_ready : countingRemote.Ready :=
  ⟨freshHost_room, by decide, by decide⟩

theorem session_eq_answers_counting :
    ∃ r', countingLink.session countingRemote
        ([ProxyCall.initEngine "kws" .zero,
          .registerCallback { ClientInfo.zero with clientId := 7 } 3,
          .loadAlgorithm .zero .zero (dumpPayload 256) ⟨.null, 0⟩].map
            fun c => (.willing, c)) =
        .ok ((answers (countingApi.call 1000) 20
          [ProxyCall.initEngine "kws" .zero,
            .registerCallback { ClientInfo.zero with clientId := 7 } 3,
            .loadAlgorithm .zero .zero (dumpPayload 256) ⟨.null, 0⟩]).1, r') ∧
      countingRemote.Serves r' 23 := by
  have hnone : (⟨.null, 0⟩ : DataInfo).Sendable := ⟨.inl rfl, by decide⟩
  have hdump : (dumpPayload 256).Sendable :=
    ⟨dumpPayload_proper (by decide) (by decide), by decide⟩
  exact Link.session_eq_answers (l := countingLink) (fun _ => rfl)
    messages_inOrder countingApi_outputsPassed countingRemote_ready (by
      intro c hc
      simp only [List.mem_cons, List.not_mem_nil, or_false] at hc
      rcases hc with rfl | rfl | rfl
      · exact trivial
      · exact hnone
      · exact ⟨hnone, hnone, hdump⟩)

end AiEngine.Ref
