import AiEngine.Ref.AsyncDelivery
import AiEngine.Proofs.RemoteCalls

/-!
# Responses reach the callbacks they were sent for

Between the worker that sends a response and the callback that is given it
lie a message, often a segment, and any number of other responses on their
way. `ResponseChannel` has none of that: it holds the responses themselves,
and a callback is given what is left of one by the rules of the reader.

The two are run side by side. What carries the simulation is that each message
under way stands for one response, that no two of them need the same segment,
and that besides their segments the host has the ones it had before and at
most one for each response that was parcelled and then not sent.
-/

namespace AiEngine.Ref

open AiEngine.Lib

/-! ## The channel without messages

The upper level: responses are values in a queue, and the client gets each of
them as it was sent or not at all. -/

/-- The code of a response, as a message carries it. -/
def Response.sentCode (r : Response) : Int := (Int32.ofInt r.retCode).toInt

/-- The result and the code a callback is to be given. A result that
contradicts itself is not in the message; one that is too long comes as its
length alone. -/
def Response.delivered (r : Response) : DataInfo × Int :=
  if r.result.Contradicts then (⟨.null, 0⟩, r.sentCode)
  else if maxShmDataSize < r.result.length then
    (⟨.null, r.result.length⟩, Retcode.failure)
  else (r.result, r.sentCode)

/-- The client takes a response: the callback of its session is given it, if
the client has a callback at all and the session has one. -/
def ClientFactory.deliver (f : ClientFactory) (env : CallbackMessageEnv)
    (r : Response) : Option CallbackResult × ClientFactory :=
  match f.saClientInstance env.newSaClient with
  | none => (none, f)
  | some c =>
      let f := { f with saClient := some c }
      if ¬ c.resultCb then (none, f)
      else f.saClientCallback env.newSaAsyncHandler
        (getSessionId r.transactionId) r.delivered.1 r.delivered.2 r.requestId

/-- A worker and a client with the responses between them, and how many were
lost on the way. -/
structure ResponseChannel where
  running : Bool
  pending : List Response
  client : ClientFactory
  results : List CallbackResult
  lost : Nat

namespace ResponseChannel

def take (q : ResponseChannel) : ChannelStep → ResponseChannel
  | .oneAction response listener sendRequest =>
      if ¬ q.running then q
      else if ¬ listener then { q with lost := q.lost + 1 }
      else if ¬ sendRequest then
        { q with lost := q.lost + 1, running := false }
      else { q with pending := q.pending ++ [response] }
  | .asyncCallback env =>
      match q.pending with
      | [] => q
      | r :: pending =>
          { q with
            pending
            client := (q.client.deliver env r).2
            results := q.results ++ (q.client.deliver env r).1.toList }
  | .client f => { q with client := f }

end ResponseChannel

section

variable {Io : Type} {ser : CallSerializer Io} {holds : Io → List Item → Prop}
  {served : Nat → Bool}

/-! ## One message

What `IpcIoResponse` writes is what the client's function reads, and the
segment of its payload is gone once it was read. -/

/-- `io` stands for the response on a host where `slot` is the segment of its
result. -/
structure Posted (holds : Io → List Item → Prop) (h : Host) (io : Io)
    (r : Response) (slot : Option Int) (items : List Item) : Prop where
  holds : holds io (.int32 (Int32.ofInt r.retCode) :: .int32 r.requestId ::
    .int32 (getSessionId r.transactionId) :: items)
  result : if r.result.Contradicts then items = [] ∧ slot = none
    else Carries h r.result items slot

theorem Posted.of_seg {h h' : Host} {io : Io} {r : Response}
    {slot : Option Int} {items : List Item}
    (hsent : Posted holds h io r slot items)
    (hsame : ∀ id, slot = some id → h'.seg id = h.seg id) :
    Posted holds h' io r slot items := by
  refine ⟨hsent.holds, ?_⟩
  have hresult := hsent.result
  split at hresult
  · next hcon => rwa [if_pos hcon]
  · next hcon =>
      rw [if_neg hcon]
      exact hresult.of_seg hsame

theorem Posted.seg_ne_none {h : Host} {io : Io} {r : Response} {id : Int}
    {items : List Item} (hsent : Posted holds h io r (some id) items) :
    h.seg id ≠ none := by
  have hresult := hsent.result
  split at hresult
  · cases hresult.2
  · exact hresult.seg_ne_none

/-- What `IpcIoResponse` leaves: a message for the response, and at most one
segment more. -/
structure SentNow (holds : Io → List Item → Prop) (h : Host) (io : Io)
    (h' : Host) (r : Response) (slot : Option Int) (items : List Item) :
    Prop where
  sent : Posted holds h' io r slot items
  fresh : ∀ id, slot = some id → h.seg id = none
  frame : ∀ id, slot ≠ some id → h'.seg id = h.seg id
  key : h'.KeyInRange
  besides : h'.besides slot = h.segments
  length : h'.segments.length ≤ h.segments.length + slot.toList.length

theorem ipcIoResponse_ok (hserved : ∀ n, served n = true)
    (hser : ser.InOrder holds) {h : Host} (hroom : h.Room 1) {r : Response}
    (hr : r.result.Passed) :
    ∃ io h' slot items, ipcIoResponse ser served r h = .ok (io, h') ∧
      SentNow holds h io h' r slot items := by
  have hq := hser.writeInt32 (hser.writeInt32 (hser.writeInt32 hser.init
    (v := Int32.ofInt r.retCode)) (v := r.requestId))
    (v := getSessionId r.transactionId)
  by_cases hcon : r.result.Contradicts
  · refine ⟨_, h, none, [], ?_, ⟨hq, ?_⟩, ?_, fun _ _ => rfl, hroom.key,
      Host.besides_none, Nat.le_refl _⟩
    · rw [ipcIoResponse, parcelDataInfo]
      rcases hcon with hcon | hcon
      · rw [if_pos hcon]
      · rw [if_neg (fun hn => hn.1 hcon.1), if_pos hcon]
    · rw [if_pos hcon]
      exact ⟨rfl, rfl⟩
    · intro id hid
      cases hid
  -- All the room there is, so that the length after is exact.
  have hall : h.Room (99999 - h.segments.length + 1) := by
    refine ⟨hroom.key, ?_⟩
    have := hroom.room
    omega
  obtain ⟨io, h', items, slot, hrun, hp⟩ := parcelDataInfo_ok hserved
    hser.toInOrder hq hall (hr.proper hcon) r.clientUid
  refine ⟨io, h', slot, items, hrun, ⟨hp.holds, ?_⟩, hp.fresh, hp.frame,
    hp.room.key, hp.besides hserved hall hrun, ?_⟩
  · rw [if_neg hcon]
    exact hp.carries
  · cases hslot : slot with
    | none =>
        have hadd := hp.besides hserved hall hrun
        rw [hslot, Host.besides_none] at hadd
        rw [hadd]
        exact Nat.le_refl _
    | some id =>
        have := hp.room.room
        have := hroom.room
        simp only [Option.toList_some, List.length_singleton]
        omega

theorem Carries.data_ne_dangling {h : Host} {d : DataInfo}
    {items : List Item} {slot : Option Int} (hc : Carries h d items slot) :
    d.data ≠ .dangling := by
  cases hc <;> simp

/-- What the reader makes of the payload of a response. -/
structure ResultRead (h : Host) (r : Response) (slot : Option Int)
    (p : UnParcelled Io DataInfo) : Prop where
  out : p.out = r.delivered.1
  retCode : (if p.retCode ≠ Retcode.success then Retcode.failure
    else r.sentCode) = r.delivered.2
  data : p.out.data ≠ .dangling
  segments : p.host.segments = h.besides slot
  shmKey : p.host.shmKey = h.shmKey

theorem Posted.read (hserved : ∀ n, served n = true) (hser : ser.InOrder holds)
    {h : Host} {io io₃ : Io} {r : Response} {slot : Option Int}
    {items : List Item} (hsent : Posted holds h io r slot items)
    (hq : holds io₃ items) (junk : Int32) :
    ∃ p, unParcelDataInfo ser.toSerializer served junk io₃ h ⟨.null, 0⟩ =
      .ok p ∧ ResultRead h r slot p := by
  have hresult := hsent.result
  by_cases hcon : r.result.Contradicts
  · -- The message ends where the length would stand.
    obtain ⟨rfl, rfl⟩ := (if_pos hcon).mp hresult
    have hnone := hser.noInt32 hq
    refine ⟨⟨Retcode.success, ⟨.null, 0⟩, (ser.readInt32 io₃).2, h⟩, ?_, ?_,
      ?_, ?_, Host.besides_none.symm, rfl⟩
    · simp [unParcelDataInfo, hnone]
    · simp [Response.delivered, hcon]
    · simp [Response.delivered, hcon]
    · simp
  have hcar : Carries h r.result items slot := (if_neg hcon).mp hresult
  have hq' : holds io₃ (items ++ []) := by rwa [List.append_nil]
  by_cases hmax : maxShmDataSize < r.result.length
  · obtain ⟨p, hrun, hret, hout⟩ := unParcelDataInfo_refused served
      hser.toInOrder hq' hcar hmax junk ⟨.null, 0⟩
    obtain ⟨hsegs, hkey⟩ :=
      unParcelDataInfo_leaves hserved hser.toInOrder hq' hcar hrun
    have hfailed : ¬ Retcode.failure = Retcode.success := by decide
    refine ⟨p, hrun, ?_, ?_, ?_, hsegs, hkey⟩
    · simp [Response.delivered, hcon, hmax, hout]
    · simp [Response.delivered, hcon, hmax, hret, hfailed]
    · simp [hout]
  · obtain ⟨p, hrun, hp⟩ := unParcelDataInfo_ok hserved hser.toInOrder hq'
      hcar (Int.not_lt.mp hmax) junk ⟨.null, 0⟩
    obtain ⟨hsegs, hkey⟩ :=
      unParcelDataInfo_leaves hserved hser.toInOrder hq' hcar hrun
    refine ⟨p, hrun, ?_, ?_, ?_, hsegs, hkey⟩
    · simp [Response.delivered, hcon, hmax, hp.out]
    · simp [Response.delivered, hcon, hmax, hp.retCode]
    · rw [hp.out]
      exact hcar.data_ne_dangling

/-- A message taken is its response delivered, and its segment is gone. -/
theorem takeAsyncMessage_ok (hserved : ∀ n, served n = true)
    (hser : ser.InOrder holds) {h : Host} {io : Io} {r : Response}
    {slot : Option Int} {items : List Item}
    (hsent : Posted holds h io r slot items) (junk : Int32) (f : ClientFactory)
    (env : CallbackMessageEnv) :
    ∃ h', f.takeAsyncMessage ser served junk env io h =
        .ok ((f.deliver env r).1, (f.deliver env r).2, h') ∧
      h'.segments = h.besides slot ∧ h'.shmKey = h.shmKey := by
  obtain ⟨io₁, hread₁, hq₁⟩ := hser.readInt32 hsent.holds
  obtain ⟨io₂, hread₂, hq₂⟩ := hser.readInt32 hq₁
  obtain ⟨io₃, hread₃, hq₃⟩ := hser.readInt32 hq₂
  obtain ⟨p, hrun, hp⟩ := hsent.read hserved hser hq₃ junk
  obtain ⟨freed, hfree⟩ := Link.freeDataInfo_ok hp.data
  have hcode : (if p.retCode = Retcode.success then
      (Int32.ofInt r.retCode).toInt else Retcode.failure) =
      r.delivered.2 := by
    have hret := hp.retCode
    rw [ite_not] at hret
    exact hret
  refine ⟨p.host, ?_, hp.segments, hp.shmKey⟩
  simp only [ClientFactory.takeAsyncMessage, ClientFactory.deliver, hread₁,
    hread₂, hread₃, hrun, Outcome.ok_bind, hfree, Option.getD_some, ite_not,
    hcode]
  cases f.saClientInstance env.newSaClient with
  | none => rfl
  | some c =>
      dsimp only
      split
      · rw [hp.out]
      · rfl

/-! ## The messages under way

Each message that was sent and not read yet has at most one segment, and no
two have the same. What the host has besides is what it had at the start. -/

/-- The messages under way stand for the responses, each with a segment of
its own if it needs one. -/
inductive InFlight (holds : Io → List Item → Prop) (h : Host) :
    List Io → List Response → List (Option Int) → Prop where
  | nil : InFlight holds h [] [] []
  | cons {io : Io} {ios : List Io} {r : Response} {rs : List Response}
      {slot : Option Int} {slots : List (Option Int)} {items : List Item}
      (hsent : Posted holds h io r slot items)
      (hnew : ∀ id, slot = some id → some id ∉ slots)
      (hrest : InFlight holds h ios rs slots) :
      InFlight holds h (io :: ios) (r :: rs) (slot :: slots)

namespace InFlight

variable {h h' : Host} {ios : List Io} {rs : List Response}
  {slots : List (Option Int)}

theorem length (hin : InFlight holds h ios rs slots) :
    ios.length = rs.length ∧ slots.length = rs.length := by
  induction hin with
  | nil => exact ⟨rfl, rfl⟩
  | cons _ _ _ ih => simp [ih.1, ih.2]

theorem seg_ne_none (hin : InFlight holds h ios rs slots) {id : Int}
    (hid : some id ∈ slots) : h.seg id ≠ none := by
  induction hin with
  | nil => cases hid
  | cons hsent _ _ ih =>
      rcases List.mem_cons.mp hid with heq | hmem
      · subst heq
        exact hsent.seg_ne_none
      · exact ih hmem

theorem of_seg (hin : InFlight holds h ios rs slots)
    (hsame : ∀ id, some id ∈ slots → h'.seg id = h.seg id) :
    InFlight holds h' ios rs slots := by
  induction hin with
  | nil => exact .nil
  | cons hsent hnew _ ih =>
      refine .cons (hsent.of_seg fun id hid => hsame id ?_) hnew
        (ih fun id hid => hsame id (List.mem_cons_of_mem _ hid))
      rw [hid]
      exact List.mem_cons_self

theorem append (hin : InFlight holds h ios rs slots) {io : Io} {r : Response}
    {slot : Option Int} {items : List Item}
    (hsent : Posted holds h io r slot items)
    (hnew : ∀ id, slot = some id → some id ∉ slots) :
    InFlight holds h (ios ++ [io]) (rs ++ [r]) (slots ++ [slot]) := by
  induction hin with
  | nil => exact .cons hsent (by simp) .nil
  | cons hfirst hfresh _ ih =>
      refine .cons hfirst (fun id hid hmem => ?_)
        (ih fun id hid hmem => hnew id hid (List.mem_cons_of_mem _ hmem))
      rcases List.mem_append.mp hmem with hmem | hmem
      · exact hfresh id hid hmem
      · obtain rfl := List.mem_singleton.mp hmem
        exact hnew id rfl (by rw [← hid]; exact List.mem_cons_self)

end InFlight

/-- The segments but those of the messages under way. -/
def Host.outside (h : Host) (slots : List (Option Int)) : List Segment :=
  h.segments.filter fun s => some s.id ∉ slots

@[simp] theorem Host.outside_nil (h : Host) : h.outside [] = h.segments := by
  simp [Host.outside]

theorem Host.outside_append (h : Host) (slots : List (Option Int))
    (slot : Option Int) :
    h.outside (slots ++ [slot]) =
      (h.besides slot).filter fun s => some s.id ∉ slots := by
  simp only [Host.outside, Host.besides, List.filter_filter]
  refine List.filter_congr fun s _ => ?_
  simp only [List.mem_append, List.mem_singleton, not_or, eq_comm,
    Bool.decide_and]

theorem Host.outside_cons (h : Host) (slots : List (Option Int))
    (slot : Option Int) :
    h.outside (slot :: slots) =
      (h.besides slot).filter fun s => some s.id ∉ slots := by
  simp only [Host.outside, Host.besides, List.filter_filter]
  refine List.filter_congr fun s _ => ?_
  simp only [List.mem_cons, not_or, eq_comm, Bool.decide_and, Bool.and_comm]

/-- A segment that is there is one less when it is left out. -/
theorem Host.besides_length {h : Host} {slot : Option Int}
    (hslot : ∀ id, slot = some id → h.seg id ≠ none) :
    (h.besides slot).length + slot.toList.length ≤ h.segments.length := by
  cases slot with
  | none => simp
  | some id =>
      obtain ⟨s, hs⟩ := Option.ne_none_iff_exists'.mp (hslot id rfl)
      have hlt : (h.besides (some id)).length < h.segments.length := by
        refine List.length_filter_lt_length_iff_exists.mpr
          ⟨s, List.mem_of_find?_eq_some hs, ?_⟩
        simpa using (by simpa using List.find?_some hs : s.id = id).symm
      exact hlt

/-- The channel with messages beside the one without. -/
abbrev ChannelPair (Io : Type) : Type := Ipc (AsyncChannel Io) × ResponseChannel

/-- Both take the same steps, from a host with the segments of `base`. -/
def channelMachine (ser : CallSerializer Io) (served : Nat → Bool)
    (junk : Int32) (base : List Segment) :
    Machine (ChannelPair Io) ChannelStep where
  start s := ∃ h f, h.segments = base ∧ h.KeyInRange ∧
    s = (.ok ⟨h, true, [], f, []⟩, ⟨true, [], f, [], 0⟩)
  step s i := some (s.1 >>= fun c => c.take ser served junk i, s.2.take i)

/-- The worker is handed results as they are passed, while the host can have
another segment. -/
def ChannelOk (base : List Segment) (s : ChannelPair Io) :
    ChannelStep → Prop
  | .oneAction r _ _ => r.result.Passed ∧
      base.length + s.2.pending.length + s.2.lost < 100000
  | _ => True

/-- What joins the two. -/
structure ChannelFollows (holds : Io → List Item → Prop)
    (base : List Segment) (c : AsyncChannel Io) (q : ResponseChannel)
    (slots : List (Option Int)) : Prop where
  running : c.running = q.running
  client : c.client = q.client
  results : c.results = q.results
  inFlight : InFlight holds c.host c.inFlight q.pending slots
  key : c.host.KeyInRange
  kept : base.Sublist (c.host.outside slots)
  length : c.host.segments.length ≤
    base.length + slots.countP Option.isSome + q.lost

namespace ChannelFollows

variable {base : List Segment} {c : AsyncChannel Io} {q : ResponseChannel}
  {slots : List (Option Int)}

theorem room (hf : ChannelFollows holds base c q slots)
    (hroom : base.length + q.pending.length + q.lost < 100000) :
    c.host.Room 1 := by
  have hslots := hf.inFlight.length.2
  have hcount := slots.countP_le_length (p := Option.isSome)
  have hlength := hf.length
  exact ⟨hf.key, by omega⟩

/-- A response was parcelled: the messages already under way are as they
were. -/
theorem parcelled (hf : ChannelFollows holds base c q slots) {io : Io}
    {h' : Host} {r : Response} {slot : Option Int} {items : List Item}
    (hnow : SentNow holds c.host io h' r slot items) :
    InFlight holds h' c.inFlight q.pending slots ∧
      (∀ id, slot = some id → some id ∉ slots) := by
  have hnew : ∀ id, slot = some id → some id ∉ slots := by
    intro id hid hmem
    exact hf.inFlight.seg_ne_none hmem (hnow.fresh id hid)
  exact ⟨hf.inFlight.of_seg fun id hmem =>
    hnow.frame id fun hid => hnew id hid hmem, hnew⟩

theorem sent (hf : ChannelFollows holds base c q slots) {io : Io} {h' : Host}
    {r : Response} {slot : Option Int} {items : List Item}
    (hnow : SentNow holds c.host io h' r slot items) :
    ChannelFollows holds base
      { c with host := h', inFlight := c.inFlight ++ [io] }
      { q with pending := q.pending ++ [r] } (slots ++ [slot]) := by
  obtain ⟨hin, hnew⟩ := hf.parcelled hnow
  refine ⟨hf.running, hf.client, hf.results, hin.append hnow.sent hnew,
    hnow.key, ?_, ?_⟩
  · show base.Sublist (h'.outside (slots ++ [slot]))
    rw [Host.outside_append, hnow.besides]
    exact hf.kept
  · show h'.segments.length ≤
      base.length + (slots ++ [slot]).countP Option.isSome + q.lost
    have hgrown := hnow.length
    have hbefore := hf.length
    rw [List.countP_append]
    cases slot with
    | none =>
        simp at hgrown ⊢
        omega
    | some id =>
        simp at hgrown ⊢
        omega

/-- The response was parcelled and then not sent: if it had a segment, that
is still there. -/
theorem lost (hf : ChannelFollows holds base c q slots) {io : Io} {h' : Host}
    {r : Response} {slot : Option Int} {items : List Item}
    (hnow : SentNow holds c.host io h' r slot items) :
    ChannelFollows holds base { c with host := h' }
      { q with lost := q.lost + 1 } slots := by
  refine ⟨hf.running, hf.client, hf.results, (hf.parcelled hnow).1, hnow.key,
    ?_, ?_⟩
  · refine hf.kept.trans ?_
    simp only [Host.outside]
    rw [← hnow.besides, Host.besides]
    exact List.filter_sublist.filter _
  · show h'.segments.length ≤
      base.length + slots.countP Option.isSome + (q.lost + 1)
    have hgrown := hnow.length
    have hbefore := hf.length
    have hone : slot.toList.length ≤ 1 := by cases slot <;> simp
    omega

theorem oneAction (hserved : ∀ n, served n = true) (hser : ser.InOrder holds)
    (junk : Int32) (hf : ChannelFollows holds base c q slots) {r : Response}
    (hr : r.result.Passed)
    (hroom : base.length + q.pending.length + q.lost < 100000)
    (listener sendRequest : Bool) :
    ∃ c' slots', c.take ser served junk (.oneAction r listener sendRequest) =
        .ok c' ∧
      ChannelFollows holds base c'
        (q.take (.oneAction r listener sendRequest)) slots' := by
  have hsame := hf.running
  simp only [AsyncChannel.take, ResponseChannel.take, ite_not]
  by_cases hrunning : c.running
  swap
  · rw [if_neg hrunning, if_neg (by rwa [← hsame])]
    exact ⟨c, slots, rfl, hf⟩
  obtain ⟨io, h', slot, items, hrun, hnow⟩ :=
    ipcIoResponse_ok hserved hser (hf.room hroom) hr
  obtain ⟨freed, hfree⟩ : ∃ freed, freeDataInfo r.result = .ok freed := by
    refine Link.freeDataInfo_ok fun hdangling => ?_
    rcases hr with hnull | ⟨bytes, hblock, -⟩ <;> simp_all
  rw [if_pos hrunning, if_pos (by rwa [← hsame])]
  simp only [AsyncChannel.oneAction, hrun, Outcome.ok_bind, hfree, ite_not]
  cases listener with
  | false => exact ⟨_, slots, rfl, hf.lost hnow⟩
  | true =>
      cases sendRequest with
      | false =>
          have hlost := hf.lost hnow
          exact ⟨_, slots, rfl, rfl, hlost.client, hlost.results,
            hlost.inFlight, hlost.key, hlost.kept, hlost.length⟩
      | true => exact ⟨_, _, rfl, hf.sent hnow⟩

theorem asyncCallback (hserved : ∀ n, served n = true)
    (hser : ser.InOrder holds) (junk : Int32)
    (hf : ChannelFollows holds base c q slots) (env : CallbackMessageEnv) :
    ∃ c' slots', c.take ser served junk (.asyncCallback env) = .ok c' ∧
      ChannelFollows holds base c' (q.take (.asyncCallback env)) slots' := by
  rcases c with ⟨h, running, inFlight, client, results⟩
  rcases q with ⟨running', pending, client', results', lost⟩
  obtain ⟨rfl, rfl, rfl, hin, hkey, hkept, hlength⟩ := hf
  dsimp only at hin hkey hkept hlength
  cases hin with
  | nil => exact ⟨_, [], rfl, rfl, rfl, rfl, .nil, hkey, hkept, hlength⟩
  | @cons io ios r rs slot slots items hsent hnew hrest =>
      obtain ⟨h', hrun, hsegs, hshmKey⟩ :=
        takeAsyncMessage_ok hserved hser hsent junk client env
      refine ⟨⟨h', running, ios, (client.deliver env r).2,
        results ++ (client.deliver env r).1.toList⟩, slots, ?_, rfl, rfl, rfl,
        hrest.of_seg fun id hmem =>
          Host.seg_of_segments hsegs fun hid => hnew id hid hmem, ?_, ?_, ?_⟩
      · simp [AsyncChannel.take, hrun]
      · show KeyOfRange h'.shmKey
        rw [hshmKey]
        exact hkey
      · show base.Sublist (h'.outside slots)
        rw [Host.outside, hsegs, ← Host.outside_cons]
        exact hkept
      · show h'.segments.length ≤
          base.length + slots.countP Option.isSome + lost
        have hthere : ∀ id, slot = some id → h.seg id ≠ none := by
          intro id hid
          subst hid
          exact hsent.seg_ne_none
        have hless := Host.besides_length hthere
        rw [hsegs]
        rw [List.countP_cons] at hlength
        cases slot with
        | none =>
            simp at hless hlength ⊢
            omega
        | some id =>
            simp at hless hlength ⊢
            omega

theorem take (hserved : ∀ n, served n = true) (hser : ser.InOrder holds)
    (junk : Int32) (hf : ChannelFollows holds base c q slots)
    (i : ChannelStep) (hok : ChannelOk base ((.ok c : Ipc _), q) i) :
    ∃ c' slots', c.take ser served junk i = .ok c' ∧
      ChannelFollows holds base c' (q.take i) slots' := by
  cases i with
  | oneAction r listener sendRequest =>
      exact hf.oneAction hserved hser junk hok.1 hok.2 listener sendRequest
  | asyncCallback env => exact hf.asyncCallback hserved hser junk env
  | client f =>
      exact ⟨{ c with client := f }, slots, rfl, hf.running, rfl, hf.results,
        hf.inFlight, hf.key, hf.kept, hf.length⟩

end ChannelFollows

theorem channelFollows (hserved : ∀ n, served n = true)
    (hser : ser.InOrder holds) {junk : Int32} {base : List Segment}
    {s : ChannelPair Io}
    (hs : (channelMachine ser served junk base).Reach (ChannelOk base) s) :
    ∃ c slots, s.1 = .ok c ∧ ChannelFollows holds base c s.2 slots := by
  induction hs with
  | start hstart =>
      obtain ⟨h, f, hsegs, hkey, rfl⟩ := hstart
      refine ⟨_, [], rfl, rfl, rfl, rfl, .nil, hkey, ?_, ?_⟩
      · rw [Host.outside_nil, hsegs]
      · simp [hsegs]
  | @step s s' i _ hok hstep ih =>
      obtain ⟨x, q⟩ := s
      obtain ⟨c, slots, rfl, hf⟩ := ih
      obtain ⟨c', slots', htake, hf'⟩ := hf.take hserved hser junk i hok
      obtain rfl := Option.some.inj hstep
      exact ⟨c', slots', htake, hf'⟩

/-- However responses are sent, lost and taken while the client changes, the
callbacks are given what the channel of responses gives them, and the segments
are those from before, and one at most for each response that is under way or
was lost. -/
theorem channel_delivers (hserved : ∀ n, served n = true)
    (hser : ser.InOrder holds) {junk : Int32} {base : List Segment}
    {s : ChannelPair Io}
    (hs : (channelMachine ser served junk base).Reach (ChannelOk base) s) :
    ∃ c, s.1 = .ok c ∧ c.results = s.2.results ∧ c.client = s.2.client ∧
      c.running = s.2.running ∧ c.inFlight.length = s.2.pending.length ∧
      base.Sublist c.host.segments ∧
      c.host.segments.length ≤
        base.length + s.2.pending.length + s.2.lost := by
  obtain ⟨c, slots, hrun, hf⟩ := channelFollows hserved hser hs
  have hcount := slots.countP_le_length (p := Option.isSome)
  have hslots := hf.inFlight.length.2
  have hlength := hf.length
  exact ⟨c, hrun, hf.results, hf.client, hf.running, hf.inFlight.length.1,
    hf.kept.trans List.filter_sublist, by omega⟩

end

/-- A client whose session 5 has a callback. -/
def listeningClient : ClientFactory :=
  { ClientFactory.initial with
    saClient := some SaClient.new.registerSaClientCb
    saAsyncHandler := some (AsyncHandler.new.registerCb 5 (some 9)) }

/-- A response to a request of that session. -/
def dumpResponse (n : Nat) : Response :=
  ⟨3, 1, 5, 0, 0, 1000, dumpPayload n⟩

/-- Of three responses the second is lost, and its segment stays. -/
theorem channel_delivers_listening :
    ∃ s : ChannelPair Message,
      (channelMachine messages (fun _ => true) 0 []).Reach (ChannelOk []) s ∧
      ∃ c, s.1 = .ok c ∧
        c.results = [⟨9, dumpPayload 256, 0, 3⟩, ⟨9, dumpPayload 10, 0, 3⟩] ∧
        c.inFlight = [] ∧ c.host.segments.length ≤ 1 := by
  have hpassed (n : Nat) (hmax : n ≤ intMax) : (dumpResponse n).result.Passed :=
    dumpPayload_passed hmax
  have h₀ : (channelMachine messages (fun _ => true) 0 []).Reach
      (ChannelOk []) _ :=
    .start ⟨freshHost, listeningClient, rfl, freshHost_room.key, rfl⟩
  have h₁ := h₀.step
    (show ChannelOk [] _ (.oneAction (dumpResponse 256) true true) from
      ⟨hpassed 256 (by decide), by decide⟩) rfl
  have h₂ := h₁.step
    (show ChannelOk [] _ (.oneAction (dumpResponse 300) false true) from
      ⟨hpassed 300 (by decide), by decide⟩) rfl
  have h₃ := h₂.step
    (show ChannelOk [] _ (.oneAction (dumpResponse 10) true true) from
      ⟨hpassed 10 (by decide), by decide⟩) rfl
  have h₄ := h₃.step
    (show ChannelOk [] _ (.asyncCallback ⟨true, true⟩) from trivial) rfl
  have h₅ := h₄.step
    (show ChannelOk [] _ (.asyncCallback ⟨true, true⟩) from trivial) rfl
  obtain ⟨c, hrun, hresults, -, -, hflight, -, hlength⟩ :=
    channel_delivers (fun _ => rfl) messages_inOrder h₅
  refine ⟨_, h₅, c, hrun, ?_, List.eq_nil_of_length_eq_zero hflight,
    hlength⟩
  rw [hresults]
  rfl

end AiEngine.Ref
