import AiEngine.Proofs.RemoteCalls

/-!
# What the server reads

A proxy writes the arguments of a call into a message, and goes on where it
could not write a payload. So what the server performs is not always the call
that was made: it is what its function reads in the message.

The two differ only where a writer gives up. Where each payload is one that
its writer takes, and the shared memory calls of the writer are served, the
reader may still fail, but if it succeeds it has what was written. Nothing is
asked of the reader's own calls, so this is not the round trip of a request:
it is what holds of it in any surroundings.
-/

namespace AiEngine.Ref

open AiEngine.Lib

/-- The writer takes the payload, and all its shared memory calls are served.
The identifiers of the host's segments are `int`s. -/
structure DataInfo.Goes (served : Nat → Bool) (d : DataInfo) (h : Host) :
    Prop where
  proper : d.Proper
  pushes : 200 ≤ d.length → h.Pushes served
  ids : h.segments.length ≤ intMax

section

variable {Io : Type} {ser : Serializer Io} {holds : Io → List Item → Prop}
  {served : Nat → Bool}

/-! ## Payloads that go

What a writer leaves that is not refused anything is what it leaves where
nothing is refused at all: items that stand for the payload, and the other
segments as they were. -/

theorem pushSharedMemory_adds {io io' : Io} {h h' : Host} {bytes : List UInt8}
    {uid : UInt32} (hpush : h.Pushes served)
    (hrun : ipcIoPushSharedMemory ser served io h
      ⟨.block bytes, bytes.length⟩ uid = .ok (io', h')) :
    h'.besides (some h.freshId) = h.segments := by
  obtain ⟨k, hk, hf, -⟩ := hpush
  rcases acquireLoop_cases served bytes.length
      (shmKeyEnd - shmKeyStart).toNat h with
    ⟨_, h₁, -, -, hrun₁, hacq⟩ | ⟨hno, -⟩
  · obtain ⟨key, hsegs⟩ := hacq.segments
    rw [pushSharedMemory_besides hrun hrun₁, Host.besides, hsegs,
      List.filter_cons_of_neg (by simp)]
    exact Host.besides_of_seg h.freshId_spec.1
  · exact absurd ⟨k, hk, hf⟩ hno

theorem parcelDataInfo_goes (hser : ser.InOrder holds) {io : Io}
    {q : List Item} (hq : holds io q) {h : Host} {d : DataInfo}
    (hgo : d.Goes served h) (uid : UInt32) :
    ∃ io' h' items slot, parcelDataInfo ser served io h d uid = .ok (io', h') ∧
      Written holds q h d io' h' items slot := by
  obtain ⟨io', h', items, slot, hrun, hq', hcar, hslot⟩ :=
    parcelDataInfo_carries hser hq hgo.ids hgo.proper hgo.pushes uid
  refine ⟨io', h', items, slot, hrun, hq', hcar, ?_, ?_⟩
  · intro id hid
    rw [hslot id hid]
    exact h.freshId_spec.1
  cases hcar with
  | empty =>
      simp only [parcelDataInfo] at hrun
      cases hrun
      exact fun _ _ => rfl
  | @inline bytes hpos hlt =>
      rw [parcelDataInfo_inline hpos hlt] at hrun
      cases hrun
      exact fun _ _ => rfl
  | @shared bytes id key uid' hge hmax hseg hid =>
      rw [parcelDataInfo_shared hge] at hrun
      have hadds :=
        pushSharedMemory_adds (hgo.pushes (by simpa using hge)) hrun
      intro i hi
      refine Host.seg_of_besides hadds fun heq => hi ?_
      rw [heq, hslot id rfl]

theorem parcelClientInfo_goes (hser : ser.InOrder holds) {io : Io}
    {q : List Item} (hq : holds io q) {h : Host} {c : ClientInfo}
    (hgo : c.extend.Goes served h) :
    ∃ io' h' items slot, parcelClientInfo ser served io h c = .ok (io', h') ∧
      Written holds (q ++ c.scalars) h c.extend io' h' items slot := by
  obtain ⟨io₁, hscalars, heq⟩ := parcelClientInfo_eq hser hq c
  simp only [heq]
  exact parcelDataInfo_goes hser hscalars hgo c.serverUid

theorem parcelAlgorithmInfo_goes (hser : ser.InOrder holds) {io : Io}
    {q : List Item} (hq : holds io q) {h : Host} {g : AlgorithmInfo}
    (hgo : g.extend.Goes served h) (uid : UInt32) :
    ∃ io' h' items slot,
      parcelAlgorithmInfo ser served io h g uid = .ok (io', h') ∧
      Written holds (q ++ g.scalars) h g.extend io' h' items slot := by
  obtain ⟨io₁, hscalars, heq⟩ := parcelAlgorithmInfo_eq hser hq g
  simp only [heq]
  exact parcelDataInfo_goes hser hscalars hgo uid

/-! ## Payloads that are read

A reader that succeeds has read what was written and touched no other
segment, whatever was refused to it on the way. -/

theorem unParcelDataInfo_reads (hser : ser.InOrder holds) {io : Io}
    {q items : List Item} (hq : holds io (items ++ q)) {h : Host}
    {d : DataInfo} {slot : Option Int} (hc : Carries h d items slot)
    {junk : Int32} {d₀ : DataInfo} {r : UnParcelled Io DataInfo}
    (hrun : unParcelDataInfo ser served junk io h d₀ = .ok r)
    (hok : r.retCode = Retcode.success) :
    Unparcels holds q h d slot r := by
  obtain ⟨r', hrun', hrest, hout⟩ :
      ∃ r', unParcelDataInfo ser served junk io h d₀ = .ok r' ∧
        holds r'.request q ∧ (r'.retCode = Retcode.success → r'.out = d) :=
    unParcelDataInfo_carried hser hq hc junk d₀
  obtain rfl : r' = r := Outcome.ok.inj (hrun'.symm.trans hrun)
  refine ⟨hok, hout hok, hrest, ?_⟩
  cases hc with
  | empty =>
      obtain ⟨io', hread, -⟩ := hser.readInt32 hq
      simp [unParcelDataInfo, hread] at hrun
      rw [← hrun]
      exact fun _ _ => rfl
  | @inline bytes hpos hlt =>
      obtain ⟨io₁, hread, -⟩ := hser.readInt32 hq
      rw [unParcelDataInfo_inline served hpos hlt hread] at hrun
      have hsegs := (popMemory_host hrun).1
      exact fun i _ => by rw [Host.seg, hsegs, Host.seg]
  | @shared bytes id key uid hge hint hseg hid =>
      obtain ⟨io₁, hread₁, hq₁⟩ := hser.readInt32 hq
      obtain ⟨io₂, hread₂, -⟩ := hser.readInt32 hq₁
      rw [unParcelDataInfo_shared served hge hint hread₁] at hrun
      have hread : id = ((ser.readInt32 io₁).1.getD junk).toInt := by
        rw [hread₂]
        exact (toInt_ofInt hid.1 hid.2).symm
      have hbes := (popSharedMemory_besides hrun hread).1
      intro i hi
      rw [← Host.seg_besides _ hi, hbes, Host.seg_besides _ hi]

theorem ReadsRecord.reads {α : Type} {q items : List Item} {h : Host} {a : α}
    {d : DataInfo} {slot : Option Int} {run : Ipc (UnParcelled Io α)}
    (hread : ReadsRecord ser served holds (items ++ q) h a d run)
    (hser : ser.InOrder holds) (hc : Carries h d items slot)
    {r : UnParcelled Io α} (hrun : run = .ok r)
    (hok : r.retCode = Retcode.success) : Unparcels holds q h a slot r := by
  obtain ⟨junk, io', extend, hq, rfl, rfl⟩ := hread
  obtain ⟨payload, hpayload, hrest⟩ := Outcome.bind_eq_ok.mp hrun
  split at hrest
  · next hsuccess =>
      cases hrest
      have hr := unParcelDataInfo_reads hser hq hc hpayload hsuccess
      exact ⟨hok, congrArg extend hr.out, hr.holds, hr.frame⟩
  · next hfailed =>
      cases hrest
      exact absurd hok hfailed

theorem unParcelInfo_out (hser : ser.InOrder holds) {io : Io} {h : Host}
    {c : ClientInfo} {g : AlgorithmInfo} {d : DataInfo}
    {ci gi di : List Item} {cs gs ds : Option Int}
    (hsent : RequestSent holds c g d io h ci gi di cs gs ds) {junk : Int32}
    {c₀ : ClientInfo} {g₀ : AlgorithmInfo} {d₀ : DataInfo}
    {r : UnParcelled Io (ClientInfo × AlgorithmInfo × DataInfo)}
    (hrun : unParcelInfo ser served junk io h c₀ g₀ d₀ = .ok r)
    (hok : r.retCode = Retcode.success) : r.out = (c, g, d) := by
  obtain ⟨rc, hrunc, hrun⟩ := Outcome.bind_eq_ok.mp hrun
  split at hrun
  · next hfailed =>
      cases hrun
      exact absurd hok hfailed
  next hokc =>
  have hrc := (unParcelClientInfo_reads served hser hsent.holds junk h
    c₀).reads hser hsent.client hrunc (not_not.mp hokc)
  have halgorithm : Carries rc.host g.extend gi gs :=
    hsent.algorithm.of_seg fun id hgs => hrc.frame id (hsent.distinct.1 id hgs)
  obtain ⟨rg, hrung, hrun⟩ := Outcome.bind_eq_ok.mp hrun
  split at hrun
  · next hfailed =>
      cases hrun
      exact absurd hok hfailed
  next hokg =>
  have hrg := (unParcelAlgorithmInfo_reads served hser hrc.holds junk rc.host
    g₀).reads hser halgorithm hrung (not_not.mp hokg)
  have hdata : Carries rg.host d di ds :=
    hsent.data.of_seg fun id hds =>
      (hrg.frame id (hsent.distinct.2 id hds).2).trans
        (hrc.frame id (hsent.distinct.2 id hds).1)
  obtain ⟨rd, hrund, hrun⟩ := Outcome.bind_eq_ok.mp hrun
  split at hrun
  · next hfailed =>
      cases hrun
      exact absurd hok hfailed
  next hokd =>
  have hrd := unParcelDataInfo_reads hser hrg.holds hdata hrund
    (not_not.mp hokd)
  cases hrun
  rw [hrc.out, hrg.out, hrd.out]

end

/-! ## Messages of a call

The message of each call, what the function that serves it has read in it, and
the condition that its payloads go. -/

namespace Link

section

variable {Io σ : Type} (l : Link Io σ)

/-- The message in which a proxy sends a call. -/
def writeCall : ProxyCall → Host → Ipc (Io × Host)
  | .initEngine description _, h =>
      .ok (l.ser.writeString l.ser.init description, h)
  | .destroyEngine c, h => l.writeClient c l.ser.init h
  | .syncExecuteAlgorithm c g d _, h => l.writeAlgorithm c g d l.ser.init h
  | .asyncExecuteAlgorithm c g d, h => l.writeAlgorithm c g d l.ser.init h
  | .loadAlgorithm c g d _, h => l.writeAlgorithm c g d l.ser.init h
  | .unloadAlgorithm c g d, h => l.writeAlgorithm c g d l.ser.init h
  | .setOption c o d, h => l.writeOption c o d l.ser.init h
  | .getOption c o d _, h => l.writeOption c o d l.ser.init h
  | .registerCallback c sid, h =>
      l.writeClient c (l.ser.writeRemoteObject l.ser.init sid).2 h
  | .unregisterCallback c, h => l.writeClient c l.ser.init h

/-- Reading succeeds, with `a`. -/
def ReadsAs {α : Type} (read : Io → Host → Ipc (UnParcelled Io α))
    (request : Io) (h : Host) (a : α) : Prop :=
  ∃ r, read request h = .ok r ∧ r.retCode = Retcode.success ∧ r.out = a

/-- The function that serves the call reads its arguments in the message. -/
def ReadsCall (request : Io) (h : Host) : ProxyCall → Prop
  | .initEngine description _ =>
      (l.ser.readString request).1 = some description
  | .destroyEngine c => ReadsAs l.readClient request h c
  | .syncExecuteAlgorithm c g d _ =>
      ReadsAs l.readAlgorithm request h (c, g, d)
  | .asyncExecuteAlgorithm c g d => ReadsAs l.readAlgorithm request h (c, g, d)
  | .loadAlgorithm c g d _ => ReadsAs l.readAlgorithm request h (c, g, d)
  | .unloadAlgorithm c g d => ReadsAs l.readAlgorithm request h (c, g, d)
  | .setOption c o d => ReadsAs l.readOption request h (c, o, d)
  | .getOption c o d _ => ReadsAs l.readOption request h (c, o, d)
  | .registerCallback c sid => ReadsAs l.readCallback request h (c, sid)
  | .unregisterCallback c => ReadsAs l.readClient request h c

/-- The payloads of an algorithm call go, one after the other. -/
def AlgorithmGoes (c : ClientInfo) (g : AlgorithmInfo) (d : DataInfo)
    (h : Host) : Prop :=
  c.extend.Goes l.served h ∧
    ∀ io₁ h₁, l.writeClient c l.ser.init h = .ok (io₁, h₁) →
      g.extend.Goes l.served h₁ ∧
        ∀ io₂ h₂, parcelAlgorithmInfo l.ser.toSerializer l.served io₁ h₁ g
          c.serverUid = .ok (io₂, h₂) → d.Goes l.served h₂

/-- The payloads of an option call go, one after the other. -/
def OptionGoes (c : ClientInfo) (d : DataInfo) (h : Host) : Prop :=
  c.extend.Goes l.served h ∧
    ∀ io₁ h₁, l.writeClient c l.ser.init h = .ok (io₁, h₁) →
      d.Goes l.served h₁

/-- No payload of the call is given up by its writer. -/
def PayloadsGo : ProxyCall → Host → Prop
  | .initEngine _ _, _ => True
  | .destroyEngine c, h => c.extend.Goes l.served h
  | .syncExecuteAlgorithm c g d _, h => l.AlgorithmGoes c g d h
  | .asyncExecuteAlgorithm c g d, h => l.AlgorithmGoes c g d h
  | .loadAlgorithm c g d _, h => l.AlgorithmGoes c g d h
  | .unloadAlgorithm c g d, h => l.AlgorithmGoes c g d h
  | .setOption c _ d, h => l.OptionGoes c d h
  | .getOption c _ d _, h => l.OptionGoes c d h
  | .registerCallback c _, h => c.extend.Goes l.served h
  | .unregisterCallback c, h => c.extend.Goes l.served h

end

/-! ## The arguments arrive

For each of the four shapes of a message: what is read of it is what was
written, if no payload was given up. -/

variable {Io σ : Type} {l : Link Io σ} {holds : Io → List Item → Prop}

theorem readClient_out (hser : l.ser.InOrder holds) {c : ClientInfo} {io : Io}
    (hio : holds io []) {h h' : Host} (hgo : c.extend.Goes l.served h)
    {request : Io} (hwrite : l.writeClient c io h = .ok (request, h'))
    {key : Int} {r : UnParcelled Io ClientInfo}
    (hread : l.readClient request { h' with shmKey := key } = .ok r)
    (hok : r.retCode = Retcode.success) : r.out = c := by
  obtain ⟨io₁, h₁, items, slot, hrun, hp⟩ :=
    parcelClientInfo_goes hser.toInOrder hio hgo
  cases hrun.symm.trans hwrite
  have hq : holds request (c.scalars ++ (items ++ [])) := by
    simpa using hp.holds
  exact ((unParcelClientInfo_reads l.served hser.toInOrder hq l.junk _
    .zero).reads hser.toInOrder (hp.carries.withKey key) hread hok).out

theorem client_own (hser : l.ser.InOrder holds) {c a : ClientInfo}
    {h h' : Host} (hgo : c.extend.Goes l.served h) {request : Io}
    (hwrite : l.writeClient c l.ser.init h = .ok (request, h')) {key : Int}
    (hread : ReadsAs l.readClient request { h' with shmKey := key } a) :
    a = c := by
  obtain ⟨r, hrun, hok, rfl⟩ := hread
  exact readClient_out hser hser.init hgo hwrite hrun hok

theorem algorithm_own (hser : l.ser.InOrder holds) {c : ClientInfo}
    {g : AlgorithmInfo} {d : DataInfo} {h h' : Host}
    (hgo : l.AlgorithmGoes c g d h) {request : Io}
    (hwrite : l.writeAlgorithm c g d l.ser.init h = .ok (request, h'))
    {key : Int} {a : ClientInfo × AlgorithmInfo × DataInfo}
    (hread : ReadsAs l.readAlgorithm request { h' with shmKey := key } a) :
    a = (c, g, d) := by
  obtain ⟨r, hrun, hok, rfl⟩ := hread
  obtain ⟨io₁, h₁, ci, cs, hrun₁, hp₁⟩ :=
    parcelClientInfo_goes hser.toInOrder hser.init hgo.1
  obtain ⟨hgo₁, hgo₂⟩ := hgo.2 io₁ h₁ hrun₁
  obtain ⟨io₂, h₂, gi, gs, hrun₂, hp₂⟩ :=
    parcelAlgorithmInfo_goes hser.toInOrder hp₁.holds hgo₁ c.serverUid
  obtain ⟨io₃, h₃, di, ds, hrun₃, hp₃⟩ :=
    parcelDataInfo_goes hser.toInOrder hp₂.holds (hgo₂ io₂ h₂ hrun₂)
      c.serverUid
  simp [writeAlgorithm, parcelRequest, hrun₁, hrun₂, hrun₃] at hwrite
  obtain ⟨rfl, rfl⟩ := hwrite
  exact unParcelInfo_out hser.toInOrder
    ((RequestSent.of_written hp₁ hp₂ hp₃).withKey key) hrun hok

theorem option_own (hser : l.ser.InOrder holds) {c : ClientInfo} {o : Int32}
    {d : DataInfo} {h h' : Host} (hgo : l.OptionGoes c d h) {request : Io}
    (hwrite : l.writeOption c o d l.ser.init h = .ok (request, h'))
    {key : Int} {a : ClientInfo × Int32 × DataInfo}
    (hread : ReadsAs l.readOption request { h' with shmKey := key } a) :
    a = (c, o, d) := by
  obtain ⟨r, hrun, hok, rfl⟩ := hread
  obtain ⟨io₁, h₁, ci, cs, hrun₁, hp₁⟩ :=
    parcelClientInfo_goes hser.toInOrder hser.init hgo.1
  obtain ⟨io₂, h₂, di, ds, hrun₂, hp₂⟩ := parcelDataInfo_goes hser.toInOrder
    (hser.writeInt32 hp₁.holds (v := o)) (hgo.2 io₁ h₁ hrun₁) c.serverUid
  simp [writeOption, writeClient, hrun₁, hrun₂] at hwrite
  obtain ⟨rfl, rfl⟩ := hwrite
  have hcs : Carries h₂ c.extend ci cs := by
    refine hp₁.carries.of_seg fun id hcs => hp₂.frame id fun hds => ?_
    subst hcs
    exact hp₁.carries.seg_ne_none (hp₂.fresh id hds)
  have hq : holds io₂ (c.scalars ++ (ci ++ (.int32 o :: (di ++ [])))) := by
    simpa using hp₂.holds
  obtain ⟨rc, hrunc, hrun⟩ := Outcome.bind_eq_ok.mp hrun
  split at hrun
  · next hfailed =>
      cases hrun
      exact absurd hok hfailed
  next hokc =>
  have hrc := (unParcelClientInfo_reads l.served hser.toInOrder hq l.junk _
    .zero).reads hser.toInOrder (hcs.withKey key) hrunc (not_not.mp hokc)
  obtain ⟨io₃, hreado, hq₃⟩ := hser.readInt32 hrc.holds
  have hdata : Carries rc.host d di ds := by
    refine (hp₂.carries.withKey key).of_seg fun id hds => hrc.frame id ?_
    rintro rfl
    subst hds
    exact hp₁.carries.seg_ne_none (hp₂.fresh id rfl)
  rw [hreado] at hrun
  obtain ⟨rd, hrund, hrun⟩ := Outcome.bind_eq_ok.mp hrun
  split at hrun
  · next hfailed =>
      obtain ⟨_, -, hrun⟩ := Outcome.bind_eq_ok.mp hrun
      cases hrun
      exact absurd hok hfailed
  next hokd =>
  have hrd := unParcelDataInfo_reads hser.toInOrder hq₃ hdata hrund
    (not_not.mp hokd)
  cases hrun
  rw [hrc.out, hrd.out]
  rfl

theorem callback_own (hser : l.ser.InOrder holds) {c : ClientInfo}
    {sid : SvcIdentity} {h h' : Host} (hgo : c.extend.Goes l.served h)
    {request : Io} (hwrite : l.writeClient c
      (l.ser.writeRemoteObject l.ser.init sid).2 h = .ok (request, h'))
    {key : Int} {a : ClientInfo × SvcIdentity}
    (hread : ReadsAs l.readCallback request { h' with shmKey := key } a) :
    a = (c, sid) := by
  obtain ⟨r, hrun, hok, rfl⟩ := hread
  obtain ⟨io, io', hobject, hfirst, hio'⟩ := hser.object sid
  obtain ⟨io₁', h₁, items, slot, hrun₁, -⟩ :=
    parcelClientInfo_goes hser.toInOrder hio' hgo
  obtain ⟨io₁, hrun₂, hfirst₁⟩ :=
    parcelClientInfo_afterObject hser hfirst hrun₁
  rw [hobject] at hwrite
  cases hrun₂.symm.trans hwrite
  simp only [readCallback, hfirst₁] at hrun
  obtain ⟨rc, hrunc, hrun⟩ := Outcome.bind_eq_ok.mp hrun
  cases hrun
  rw [readClient_out hser hio' hgo hrun₁ hrunc hok]

end Link

end AiEngine.Ref
