import AiEngine.Proofs.ResponseOwnership

/-!
# Where a response goes

Four maps lead from a response to the list of a client: its sequence id to the
future, its transaction id to the listener, the listener to a client id and
that to the client's handler. Transaction ids carry the client id and the
session id, so the maps agree on who sent the request, whoever changes them
meanwhile.

A request has one future, and the call that delivers the response is the one
that deletes it. So a second delivery would need a second future.
-/

namespace AiEngine.Ref

open AiEngine.Lib

/-- What a client sees: no request is answered twice, what is appended to its
list answers a request of its own under the session the request came from,
and nothing that was deleted is used. -/
structure RightlyDelivered (s : AsyncServer) : Prop where
  sound : s.fault = none
  once : ∀ r, s.delivered.countP (·.request = r) ≤ 1
  routed : ∀ d ∈ s.delivered, ∃ q, s.request.lookup d.request = some q ∧
    d.clientId = q.clientInfo.clientId ∧
    getSessionId d.transactionId = q.clientInfo.sessionId

namespace AsyncServer

/-- The request came from this client and session. -/
def Sender (s : AsyncServer) (r : Nat) (clientId sessionId : Int32) : Prop :=
  ∃ q, s.request.lookup r = some q ∧ q.clientInfo.clientId = clientId ∧
    q.clientInfo.sessionId = sessionId

/-- The client a call is about to reach. -/
def target (s : AsyncServer) : CallPhase → Option Int32
  | .onReply _ l => (s.factory.listener.lookup l).map (·.clientId)
  | .findHandler _ clientId _ => some clientId
  | .addCallbackRecord _ n _ =>
      (s.asyncHandler.handler.lookup n).map (·.clientId)
  | _ => none

theorem Sender.later {s s' : AsyncServer} {r : Nat} {clientId sessionId : Int32}
    (h : s.Sender r clientId sessionId)
    (hkept : RequestsKept s.request s'.request) :
    s'.Sender r clientId sessionId := by
  obtain ⟨q, hq, hc, hs⟩ := h
  obtain ⟨q', hq', hlater⟩ := hkept r q hq
  exact ⟨q', hq', hlater.clientInfo ▸ hc, hlater.clientInfo ▸ hs⟩

end AsyncServer

/-- The maps agree on the client and the session of each request. -/
structure Routed (s : AsyncServer) : Prop where
  responses : ∀ x y, s.response.lookup x = some y → ∃ clientId sessionId,
    s.Sender y.request clientId sessionId ∧
      y.response.transactionId = getTransactionId clientId sessionId
  listeners : ∀ tid l listener, s.factory.listeners.lookup tid = some l →
    s.factory.listener.lookup l = some listener →
    ∃ sessionId, tid = getTransactionId listener.clientId sessionId
  clients : ∀ clientId n handler,
    s.asyncHandler.clients.lookup clientId = some n →
    s.asyncHandler.handler.lookup n = some handler →
    handler.clientId = clientId
  bound : ∀ c call clientId, s.call.lookup c = some call →
    s.target call.phase = some clientId →
    ∃ sessionId, s.Sender call.request clientId sessionId
  delivered : ∀ d ∈ s.delivered, ∃ sessionId,
    s.Sender d.request d.clientId sessionId ∧
      d.transactionId = getTransactionId d.clientId sessionId

/-! ## Responses that go

A response keeps its request while it is passed on, from the call to the
future and to the list of a client. So the client is the one of the request at
every place. -/

/-- Responses went or changed their owner, and that is all. -/
def ResponsesKept (t t' : Table Nat AsyncResponse) : Prop :=
  ∀ x y, t'.lookup x = some y → ∃ z, t.lookup x = some z ∧
    y.request = z.request ∧ y.response = z.response

theorem ResponsesKept.refl (t : Table Nat AsyncResponse) : ResponsesKept t t :=
  fun _ y hy => ⟨y, hy, rfl, rfl⟩

theorem ResponsesKept.trans {t u v : Table Nat AsyncResponse}
    (h : ResponsesKept t u) (h' : ResponsesKept u v) : ResponsesKept t v := by
  intro x y hy
  obtain ⟨w, hw, hwr, hwx⟩ := h' x y hy
  obtain ⟨z, hz, hzr, hzx⟩ := h x w hw
  exact ⟨z, hz, hwr.trans hzr, hwx.trans hzx⟩

namespace AsyncServer

theorem destroyResponse_kept (s : AsyncServer) (old : Option Nat) :
    ResponsesKept s.response (s.destroyResponse old).response := by
  intro x y hy
  refine ⟨y, ?_, rfl, rfl⟩
  unfold destroyResponse at hy
  split at hy
  · exact hy
  · split at hy
    · simp only at hy
      rw [Table.lookup_erase_if] at hy
      split at hy
      · cases hy
      · exact hy
    · exact hy

theorem destroyResponses_kept (s : AsyncServer) (xs : List Nat) :
    ResponsesKept s.response (s.destroyResponses xs).response := by
  induction xs generalizing s with
  | nil => exact fun x y hy => ⟨y, hy, rfl, rfl⟩
  | cons x xs ih =>
      exact (s.destroyResponse_kept (some x)).trans
        (ih (s.destroyResponse (some x)))

theorem setOwner_kept (s : AsyncServer) (x : Nat) (owner : ResponseOwner) :
    ResponsesKept s.response (s.setOwner x owner).response := by
  intro z y hy
  unfold setOwner at hy
  split at hy
  · exact ⟨y, hy, rfl, rfl⟩
  · next w hw =>
      simp only at hy
      rw [Table.lookup_insert_if] at hy
      split at hy
      · next hz =>
          cases hy
          exact ⟨w, hz ▸ hw, rfl, rfl⟩
      · exact ⟨y, hy, rfl, rfl⟩

end AsyncServer

namespace Routed

variable {s s' : AsyncServer}

theorem initial : Routed .initial where
  responses := fun _ _ h => by cases (Finmap.lookup_empty _).symm.trans h
  listeners := fun _ _ _ h => by cases (Finmap.lookup_empty _).symm.trans h
  clients := fun _ _ _ h => by cases (Finmap.lookup_empty _).symm.trans h
  bound := fun _ _ _ h => by cases (Finmap.lookup_empty _).symm.trans h
  delivered := by simp [AsyncServer.initial]

theorem later (h : Routed s) {request : Table Nat AsyncRequest}
    (hkept : RequestsKept s.request request) : Routed { s with request } where
  responses := by
    intro x y hy
    obtain ⟨clientId, sessionId, hsender, htid⟩ := h.responses x y hy
    exact ⟨clientId, sessionId, hsender.later hkept, htid⟩
  listeners := h.listeners
  clients := h.clients
  bound := by
    intro c call clientId hc htarget
    obtain ⟨sessionId, hsender⟩ := h.bound c call clientId hc htarget
    exact ⟨sessionId, hsender.later hkept⟩
  delivered := by
    intro d hd
    obtain ⟨sessionId, hsender, htid⟩ := h.delivered d hd
    exact ⟨sessionId, hsender.later hkept, htid⟩

theorem setResponses (h : Routed s) {response : Table Nat AsyncResponse}
    (hkept : ResponsesKept s.response response) : Routed { s with response } :=
  { h with
    responses := by
      intro x y hy
      obtain ⟨z, hz, hr, hresp⟩ := hkept x y hy
      obtain ⟨clientId, sessionId, hsender, htid⟩ := h.responses x z hz
      exact ⟨clientId, sessionId, hr ▸ hsender, hresp ▸ htid⟩ }

theorem setCall (h : Routed s) (c : Nat) (call : EventCall) (phase : CallPhase)
    (hb : ∀ clientId, s.target phase = some clientId →
      ∃ sessionId, s.Sender call.request clientId sessionId) :
    Routed (s.setCall c call phase) := by
  refine { h with bound := ?_ }
  intro d other clientId hd htarget
  simp only [AsyncServer.setCall] at hd
  rw [Table.lookup_insert_if] at hd
  split at hd
  · cases hd
    exact hb clientId htarget
  · exact h.bound d other clientId hd htarget

theorem endCall (h : Routed s) (c : Nat) (call : EventCall) :
    Routed (s.endCall c call) := by
  have hended : Routed { s with call := s.call.erase c } := by
    refine { h with bound := ?_ }
    intro d other clientId hd htarget
    rw [Table.lookup_erase_if] at hd
    split at hd
    · cases hd
    · exact h.bound d other clientId hd htarget
  rcases s.endCall_eq c call with ⟨-, heq⟩ | ⟨q, hq, heq⟩
  · rw [heq]
    exact hended
  · rw [heq]
    exact { hended.later (.update hq (.answered q)) with }

/-- The response in the future a call works on answers the call's request. -/
theorem request_eq (hown : ResponsesOwned s) (hfut : FuturesLive s)
    {c f : Nat} {call : EventCall} {y : AsyncResponse}
    (hc : s.call.lookup c = some call) (hcf : s.futureAt call.phase = some f)
    (hdetach : call.phase ≠ .detachResponse f)
    (hof : s.responseOf f = some c) (hy : s.response.lookup c = some y) :
    y.request = call.request := by
  obtain ⟨future, hf, hfx⟩ := Option.bind_eq_some_iff.mp hof
  obtain ⟨z, hz, -, hzr⟩ :=
    hown.held_of_atWork hfut hc hcf hdetach hf hfx
  have hpast : call.phase ≠ .fetchFuture := by
    intro hphase
    rw [hphase] at hcf
    cases hcf
  obtain ⟨g, x, hg, hx, hreq⟩ := hfut.atWork c call hc hpast
  rw [hcf] at hg
  cases hg
  rw [hf] at hx
  cases hx
  rw [hy] at hz
  cases hz
  exact hzr.trans hreq

theorem setHandler (h : Routed s) {n : Nat} {handler : ClientListenerHandler}
    (new : ClientListenerHandler)
    (hn : s.asyncHandler.handler.lookup n = some handler)
    (hid : new.clientId = handler.clientId) :
    Routed { s with asyncHandler := { s.asyncHandler with
      handler := s.asyncHandler.handler.insert n new } } := by
  have hsame : ∀ m other,
      (s.asyncHandler.handler.insert n new).lookup m = some other →
      ∃ old, s.asyncHandler.handler.lookup m = some old ∧
        other.clientId = old.clientId := by
    intro m other hm
    rw [Table.lookup_insert_if] at hm
    split at hm
    · next hmn =>
        cases hm
        exact ⟨handler, hmn ▸ hn, hid⟩
    · exact ⟨other, hm, rfl⟩
  refine { h with clients := ?_, bound := ?_ }
  · intro clientId m other hm hother
    obtain ⟨old, hold, heq⟩ := hsame m other hother
    exact heq.trans (h.clients clientId m old hm hold)
  · intro c call clientId hc htarget
    refine h.bound c call clientId hc ?_
    cases hphase : call.phase with
    | addCallbackRecord f m x =>
        rw [hphase] at htarget
        obtain ⟨other, hother, rfl⟩ := Option.map_eq_some_iff.mp htarget
        obtain ⟨old, hold, heq⟩ := hsame m other hother
        rw [AsyncServer.target, hold, Option.map_some, heq]
    | _ =>
        rw [hphase] at htarget
        exact htarget

/-- A handler that is told of a response gets one for its client. -/
theorem addCallbackRecord (h : Routed s) {n x c f : Nat} {call : EventCall}
    {handler : ClientListenerHandler} {response : AsyncResponse}
    {sessionId : Int32} (hn : s.asyncHandler.handler.lookup n = some handler)
    (hx : s.response.lookup x = some response)
    (hsender : s.Sender response.request handler.clientId sessionId) :
    Routed
      { s with
        asyncHandler :=
          { s.asyncHandler with
            handler := s.asyncHandler.handler.insert n
              { handler with responses := handler.responses ++ [x] } }
        delivered := s.delivered ++
          [⟨handler.clientId, response.request,
            response.response.transactionId⟩]
        response := s.response.insert x { response with owner := .handler n }
        call := s.call.insert c { call with phase := .detachResponse f } } := by
  have hkept := s.setOwner_kept x (.handler n)
  rw [AsyncServer.setOwner_live hx] at hkept
  have hset := (h.setResponses hkept).setHandler
    { handler with responses := handler.responses ++ [x] } hn rfl
  have hmoved := hset.setCall c call (.detachResponse f) (by rintro _ ⟨⟩)
  refine { hmoved with delivered := ?_ }
  intro d hd
  rcases List.mem_append.mp hd with hd | hd
  · exact h.delivered d hd
  · rw [List.mem_singleton.mp hd]
    obtain ⟨clientId, sessionId', hsender', htid⟩ := h.responses x _ hx
    obtain ⟨q, hq, hqc, hqs⟩ := hsender
    obtain ⟨q', hq', hqc', hqs'⟩ := hsender'
    rw [hq] at hq'
    cases hq'
    refine ⟨sessionId, ⟨q, hq, hqc, hqs⟩, ?_⟩
    rw [htid, ← hqc', ← hqs', hqc, hqs]

theorem advanced (h : Routed s) (hlive : ObjectsLive s)
    (hown : ResponsesOwned s) {c : Nat} {call : EventCall}
    (hc : s.call.lookup c = some call) (hs : s.Advanced c call s') :
    Routed s' := by
  have hfut := hlive.futures
  have hcarries := hown.carries c call hc
  simp only [AsyncServer.Carries] at hcarries
  have hbound := h.bound c call
  cases hs with
  | fault => exact { h with }
  | notFetched | noListener | notDeleted => exact h.endCall c call
  | fetched | noResponse | noHandler => exact h.setCall c call _ (by rintro _ ⟨⟩)
  | @responseSet f future response fault hphase hf hx =>
      have hkept := (s.destroyResponse_kept future.response).trans
        ((s.destroyResponse future.response).setOwner_kept c (.future f))
      rw [hx] at hkept
      have hset := (h.setResponses hkept).setCall c call (.findListener f)
        (by rintro _ ⟨⟩)
      exact { hset with }
  | @listenerFound x f l hphase hx hl =>
      simp only [hphase] at hcarries
      refine h.setCall c call _ fun clientId htarget => ?_
      obtain ⟨listener, hlistener, rfl⟩ := Option.map_eq_some_iff.mp htarget
      obtain ⟨clientId, sessionId, hsender, htid⟩ := h.responses c x hx
      obtain ⟨sessionId', htid'⟩ := h.listeners _ l listener hl hlistener
      obtain ⟨hclient, -⟩ := getTransactionId_inj (htid.symm.trans htid')
      have hreq := request_eq hown hfut hc (by rw [hphase]; rfl)
        (by simp [hphase]) hcarries hx
      exact ⟨sessionId, hreq ▸ hclient ▸ hsender⟩
  | @replied f l x future listener hphase hl hf hx =>
      refine h.setCall c call _ ?_
      rintro clientId ⟨⟩
      exact hbound _ hc (by rw [hphase, AsyncServer.target, hl]; rfl)
  | @handlerFound f x n clientId hphase hn =>
      refine h.setCall c call _ fun k htarget => ?_
      obtain ⟨handler, hhandler, rfl⟩ := Option.map_eq_some_iff.mp htarget
      rw [h.clients clientId n handler hn hhandler]
      exact hbound _ hc (by rw [hphase]; rfl)
  | @recorded f n x handler response hphase hn hx =>
      simp only [hphase] at hcarries
      obtain ⟨rfl, hof⟩ := hcarries
      have hreq := request_eq hown hfut hc (by rw [hphase]; rfl)
        (by simp [hphase]) hof hx
      obtain ⟨sessionId, hsender⟩ := hbound handler.clientId hc
        (by rw [hphase, AsyncServer.target, hn]; rfl)
      exact h.addCallbackRecord hn hx (hreq ▸ hsender)
  | detached => exact { h.setCall c call _ (by rintro _ ⟨⟩) with }
  | @deleted n f future response fault hphase hn hf hx =>
      have hkept := s.destroyResponse_kept future.response
      rw [hx] at hkept
      refine endCall ?_ c call
      exact { h.setResponses hkept with }

theorem registerListener (h : Routed s) (hcb : CallbacksLive s)
    (clientId sessionId : Int32) :
    Routed { s with
      factory := s.factory.registerListener clientId
        (getTransactionId clientId sessionId) } := by
  refine { h with listeners := ?_, bound := ?_ }
  · intro tid l listener hl hlistener
    simp only [FutureFactory.registerListener] at hl hlistener
    rw [Table.lookup_insert_if] at hl hlistener
    split at hl
    · next htid =>
        cases hl
        rw [if_pos rfl] at hlistener
        cases hlistener
        exact ⟨sessionId, htid⟩
    · rw [if_neg (Nat.ne_of_lt (hcb.listeners.lt hl))] at hlistener
      exact h.listeners tid l listener hl hlistener
  · intro c call k hc htarget
    refine h.bound c call k hc ?_
    cases hphase : call.phase with
    | onReply f l =>
        rw [hphase] at htarget
        simp only [AsyncServer.target, FutureFactory.registerListener]
          at htarget ⊢
        have hlive := hcb.replying c call l hc
          (by simp [hphase, CallPhase.listener])
        rwa [Finmap.lookup_insert_of_ne] at htarget
        exact Nat.ne_of_lt (hcb.listeners.below l hlive)
    | _ =>
        rw [hphase] at htarget
        exact htarget

theorem unregisterListener (h : Routed s) (tid : Int64) (l : Nat) :
    Routed { s with factory := { s.factory with
      listener := s.factory.listener.erase l
      listeners := s.factory.listeners.erase tid } } := by
  refine { h with listeners := ?_, bound := ?_ }
  · intro tid' m listener hm hlistener
    simp only at hm hlistener
    rw [Table.lookup_erase_if] at hm hlistener
    split at hm
    · cases hm
    · split at hlistener
      · cases hlistener
      · exact h.listeners tid' m listener hm hlistener
  · intro c call k hc htarget
    refine h.bound c call k hc ?_
    cases hphase : call.phase with
    | onReply f m =>
        rw [hphase] at htarget
        simp only [AsyncServer.target] at htarget ⊢
        rw [Table.lookup_erase_if] at htarget
        split at htarget
        · cases htarget
        · exact htarget
    | _ =>
        rw [hphase] at htarget
        exact htarget

theorem addHandler (h : Routed s) (hcb : CallbacksLive s) (clientId : Int32) :
    Routed { s with asyncHandler :=
      s.asyncHandler.addClientListenerHandler true clientId } := by
  have hadd : s.asyncHandler.addClientListenerHandler true clientId =
      { s.asyncHandler with
        handler := s.asyncHandler.handler.insert s.asyncHandler.handlerNum
          ⟨clientId, [], none, false⟩
        clients := s.asyncHandler.clients.insert clientId
          s.asyncHandler.handlerNum
        handlerNum := s.asyncHandler.handlerNum + 1 } := rfl
  rw [hadd]
  refine { h with clients := ?_, bound := ?_ }
  · intro k n handler hn hhandler
    simp only at hn hhandler
    rw [Table.lookup_insert_if] at hn hhandler
    split at hn
    · next hk =>
        cases hn
        rw [if_pos rfl] at hhandler
        cases hhandler
        exact hk.symm
    · rw [if_neg (Nat.ne_of_lt (hcb.handlers.lt hn))] at hhandler
      exact h.clients k n handler hn hhandler
  · intro c call k hc htarget
    refine h.bound c call k hc ?_
    cases hphase : call.phase with
    | addCallbackRecord f n x =>
        rw [hphase] at htarget
        simp only [AsyncServer.target] at htarget ⊢
        have hlive := hcb.recording c call n hc
          (by simp [hphase, CallPhase.handler])
        rwa [Finmap.lookup_insert_of_ne] at htarget
        exact Nat.ne_of_lt (hcb.handlers.below n hlive)
    | _ =>
        rw [hphase] at htarget
        exact htarget

theorem removeHandler (h : Routed s) (clientId : Int32) (n : Nat) :
    Routed { s with asyncHandler := { s.asyncHandler with
      handler := s.asyncHandler.handler.erase n
      clients := s.asyncHandler.clients.erase clientId } } := by
  refine { h with clients := ?_, bound := ?_ }
  · intro k m handler hm hhandler
    simp only at hm hhandler
    rw [Table.lookup_erase_if] at hm hhandler
    split at hm
    · cases hm
    · split at hhandler
      · cases hhandler
      · exact h.clients k m handler hm hhandler
  · intro c call k hc htarget
    refine h.bound c call k hc ?_
    cases hphase : call.phase with
    | addCallbackRecord f m x =>
        rw [hphase] at htarget
        simp only [AsyncServer.target] at htarget ⊢
        rw [Table.lookup_erase_if] at htarget
        split at htarget
        · cases htarget
        · exact htarget
    | _ =>
        rw [hphase] at htarget
        exact htarget

theorem took (h : Routed s) (hlive : ObjectsLive s) (hown : ResponsesOwned s)
    {i : AsyncStep} (hs : s.Took i s') : Routed s' := by
  have hkept := hs.requests hlive.requests
  cases hs with
  | clients | createEngine | stopThread | transactions => exact { h with }
  | sendRequest | refused | full | queued | popped | processed | dropped
  | numbered | addFuture => exact { h.later hkept with }
  | registerListener => exact { h.registerListener hlive.callbacks _ _ with }
  | unregisterListener => exact { h.unregisterListener _ _ with }
  | addHandler => exact { h.addHandler hlive.callbacks _ with }
  | @removeHandler clientId n response fault hn hx =>
      have hsub := s.destroyResponses_kept
        ((s.asyncHandler.handler.lookup n).elim [] (·.responses))
      rw [hx] at hsub
      exact { (h.setResponses hsub).removeHandler clientId n with }
  | @sendResponse i n x xs handler response fault hn hxs hx =>
      have hsub := s.destroyResponse_kept (some x)
      rw [hx] at hsub
      exact { (h.setResponses hsub).setHandler
        { handler with responses := xs } hn rfl with }
  | @onEvent i r event retCode result q hq hphase =>
      refine { h with responses := ?_, bound := ?_ }
      · intro x y hy
        rw [Table.lookup_insert_if] at hy
        split at hy
        · cases hy
          exact ⟨_, _, ⟨q, hq, rfl, rfl⟩, hlive.requests.named r q hq⟩
        · exact h.responses x y hy
      · intro c call clientId hc htarget
        rw [Table.lookup_insert_if] at hc
        split at hc
        · cases hc
          cases htarget
        · exact h.bound c call clientId hc htarget
  | processResponse hc hs => exact h.advanced hlive hown hc hs

end Routed

/-! ## At most once

A future is deleted at the end of the call that has found it. Until then
another call can find it as well, and that is what the condition excludes. -/

/-- The call has passed its response on and is about to delete the future. -/
def CallPhase.leaving : CallPhase → Bool
  | .detachResponse _ => true
  | .deleteFuture _ => true
  | _ => false

/-- A request whose response was delivered has no future any longer, or one
that is about to be deleted. -/
structure DeliveredOnce (s : AsyncServer) : Prop where
  once : ∀ r, s.delivered.countP (·.request = r) ≤ 1
  sent : ∀ d ∈ s.delivered, ∃ q, s.request.lookup d.request = some q ∧
    q.phase ∉ [.counted, .numbered]
  closed : ∀ d ∈ s.delivered, ∀ f future,
    s.factory.future.lookup f = some future → future.request = d.request →
    ∃ c call, s.call.lookup c = some call ∧ call.request = d.request ∧
      call.phase.leaving

namespace DeliveredOnce

variable {s s' : AsyncServer}

theorem initial : DeliveredOnce .initial where
  once := by simp [AsyncServer.initial]
  sent := by simp [AsyncServer.initial]
  closed := by simp [AsyncServer.initial]

theorem later (h : DeliveredOnce s) {request : Table Nat AsyncRequest}
    (hkept : RequestsKept s.request request) :
    DeliveredOnce { s with request } :=
  { h with
    sent := by
      intro d hd
      obtain ⟨q, hq, hsent⟩ := h.sent d hd
      obtain ⟨q', hq', hlater⟩ := hkept _ q hq
      exact ⟨q', hq', (hlater.sent hsent).1⟩ }

theorem setCall (h : DeliveredOnce s) {c : Nat} {call : EventCall}
    {phase : CallPhase} (hc : s.call.lookup c = some call)
    (hleave : call.phase.leaving → phase.leaving) :
    DeliveredOnce (s.setCall c call phase) := by
  refine { h with closed := ?_ }
  intro d hd f future hf hreq
  obtain ⟨e, other, he, heq, hleaving⟩ := h.closed d hd f future hf hreq
  by_cases hec : e = c
  · rw [hec, hc] at he
    cases he
    exact ⟨c, _, Finmap.lookup_insert _, heq, hleave hleaving⟩
  · refine ⟨e, other, ?_, heq, hleaving⟩
    simp only [AsyncServer.setCall]
    rw [Finmap.lookup_insert_of_ne _ hec, he]

theorem endCall (h : DeliveredOnce s) {c : Nat} {call : EventCall}
    (hclosed : ∀ d ∈ s.delivered, ∀ f future,
      s.factory.future.lookup f = some future → future.request = d.request →
      ∃ e other, e ≠ c ∧ s.call.lookup e = some other ∧
        other.request = d.request ∧ other.phase.leaving) :
    DeliveredOnce (s.endCall c call) := by
  have hended : DeliveredOnce { s with call := s.call.erase c } := by
    refine { h with closed := ?_ }
    intro d hd f future hf hreq
    obtain ⟨e, other, hec, he, heq, hleaving⟩ := hclosed d hd f future hf hreq
    exact ⟨e, other, by rw [Finmap.lookup_erase_ne hec, he], heq, hleaving⟩
  rcases s.endCall_eq c call with ⟨-, heq⟩ | ⟨q, hq, heq⟩
  · rw [heq]
    exact hended
  · rw [heq]
    exact { hended.later (.update hq (.answered q)) with }

theorem endCall_early (h : DeliveredOnce s) {c : Nat} {call : EventCall}
    (hc : s.call.lookup c = some call) (hleave : call.phase.leaving = false) :
    DeliveredOnce (s.endCall c call) := by
  refine h.endCall fun d hd f future hf hreq => ?_
  obtain ⟨e, other, he, heq, hleaving⟩ := h.closed d hd f future hf hreq
  refine ⟨e, other, ?_, he, heq, hleaving⟩
  rintro rfl
  rw [hc] at he
  cases he
  rw [hleave] at hleaving
  cases hleaving

theorem setFuture (h : DeliveredOnce s) {f : Nat} {x y : Future}
    (hf : s.factory.future.lookup f = some x) (hr : y.request = x.request) :
    DeliveredOnce (s.setFuture f y) := by
  refine { h with closed := ?_ }
  intro d hd g z hg hreq
  simp only [AsyncServer.setFuture] at hg
  rw [Table.lookup_insert_if] at hg
  split at hg
  · cases hg
    exact h.closed d hd f x hf (hr.symm.trans hreq)
  · exact h.closed d hd g z hg hreq

/-- A response of a request that was not delivered before is. -/
theorem deliver (h : DeliveredOnce s) {d : Delivery} {c f : Nat}
    {call : EventCall} (hc : s.call.lookup c = some call)
    (hreq : d.request = call.request)
    (hnew : ∀ d' ∈ s.delivered, d'.request ≠ d.request)
    (hsent : ∃ q, s.request.lookup d.request = some q ∧
      q.phase ∉ [.counted, .numbered]) :
    DeliveredOnce
      { s with
        delivered := s.delivered ++ [d]
        call := s.call.insert c { call with phase := .detachResponse f } } := by
  have hmoved : DeliveredOnce (s.setCall c call (.detachResponse f)) :=
    h.setCall hc fun _ => rfl
  refine ⟨fun r => ?_, fun d' hd => ?_, fun d' hd g future hg hfr => ?_⟩
  · rw [List.countP_append, List.countP_singleton]
    by_cases hr : d.request = r
    · have hzero : s.delivered.countP (·.request = r) = 0 := by
        rw [List.countP_eq_zero]
        intro d' hd'
        have hne := hnew d' hd'
        simpa [hr] using hne
      rw [hzero]
      split <;> omega
    · have hone := h.once r
      rw [if_neg (by simpa using hr)]
      exact hone
  · rcases List.mem_append.mp hd with hd | hd
    · exact h.sent d' hd
    · exact List.mem_singleton.mp hd ▸ hsent
  · rcases List.mem_append.mp hd with hd | hd
    · exact hmoved.closed d' hd g future hg hfr
    · rw [List.mem_singleton.mp hd]
      exact ⟨c, _, Finmap.lookup_insert _, hreq.symm, rfl⟩

/-- The request of a call that is about to record its response was not
delivered before. Otherwise its future would be that of a call which is
leaving. -/
theorem notDelivered (h : DeliveredOnce s) (hfut : FuturesLive s)
    {c f n x r : Nat} {call : EventCall} (hc : s.call.lookup c = some call)
    (hphase : call.phase = .addCallbackRecord f n x) (hr : r = call.request) :
    ∀ d ∈ s.delivered, d.request ≠ r := by
  intro d hd heq
  have hpast : call.phase ≠ .fetchFuture := by simp [hphase]
  obtain ⟨g, future, hg, hf, hfr⟩ := hfut.atWork c call hc hpast
  obtain ⟨e, other, he, her, hleaving⟩ :=
    h.closed d hd g future hf (hfr.trans (hr.symm.trans heq.symm))
  have hother : other.phase ≠ .fetchFuture := by
    intro hp
    rw [hp] at hleaving
    cases hleaving
  have hec := hfut.alone e c other call he hc hother hpast
    (her.trans (heq.trans hr))
  rw [hec, hc] at he
  cases he
  rw [hphase] at hleaving
  cases hleaving

/-- The requests that were delivered keep their calls when the future of `c`
goes, because another future of the same request would be the one that goes.
-/
theorem closed_erase (h : DeliveredOnce s) (hfut : FuturesLive s) {c f : Nat}
    {call : EventCall} {sequenceId : Int} (hc : s.call.lookup c = some call)
    (hphase : call.phase = .deleteFuture sequenceId)
    (hn : s.factory.futures.lookup sequenceId = some f) :
    ∀ d ∈ s.delivered, ∀ g future,
      (s.factory.future.erase f).lookup g = some future →
      future.request = d.request → ∃ e other, e ≠ c ∧
        s.call.lookup e = some other ∧ other.request = d.request ∧
        other.phase.leaving := by
  intro d hd g future hg hfr
  obtain ⟨f', x, hf', hx, hreq⟩ := hfut.atWork c call hc (by simp [hphase])
  rw [hphase, AsyncServer.futureAt, hn] at hf'
  cases hf'
  rw [Table.lookup_erase_if] at hg
  split at hg
  · cases hg
  next hgf =>
    obtain ⟨e, other, he, her, hleaving⟩ := h.closed d hd g future hg hfr
    refine ⟨e, other, ?_, he, her, hleaving⟩
    rintro rfl
    rw [hc] at he
    cases he
    exact hgf (hfut.sole g f future x hg hx
      (hfr.trans (her.symm.trans hreq.symm)))

theorem advanced (h : DeliveredOnce s) (hfut : FuturesLive s)
    (hown : ResponsesOwned s) {c : Nat} {call : EventCall}
    (hc : s.call.lookup c = some call) (hs : s.Advanced c call s') :
    DeliveredOnce s' := by
  have hcarries := hown.carries c call hc
  simp only [AsyncServer.Carries] at hcarries
  cases hs with
  | fault => exact { h with }
  | notFetched hphase | noListener hphase =>
      exact h.endCall_early hc (by rw [hphase]; rfl)
  | fetched hphase | listenerFound hphase | replied hphase
  | handlerFound hphase =>
      exact h.setCall hc (by rw [hphase]; rintro ⟨⟩)
  | noResponse | noHandler => exact h.setCall hc fun _ => rfl
  | @responseSet f future response fault hphase hf hx =>
      let set := { future with
        status := convertPluginStatus call.event
        response := some c }
      have hset : DeliveredOnce
          ((s.setFuture f set).setCall c call (.findListener f)) :=
        (h.setFuture (y := set) hf rfl).setCall hc
          (by rw [hphase]; rintro ⟨⟩)
      exact { hset with }
  | @recorded f n x handler response hphase hn hx =>
      simp only [hphase] at hcarries
      obtain ⟨rfl, hof⟩ := hcarries
      have hreq := Routed.request_eq hown hfut hc (by rw [hphase]; rfl)
        (by simp [hphase]) hof hx
      have hmoved := h.deliver (f := f)
        (d := ⟨handler.clientId, response.request,
          response.response.transactionId⟩) hc hreq
        (h.notDelivered hfut hc hphase hreq) ?_
      · exact { hmoved with }
      · obtain ⟨g, future, hg, hf, hfr⟩ :=
          hfut.atWork _ call hc (by simp [hphase])
        obtain ⟨-, q, hq, hsent, -⟩ := hfut.listed g future hf
        exact ⟨q, by rw [hreq, ← hfr, hq], hsent⟩
  | @detached f future hphase hf =>
      exact (h.setFuture (y := { future with response := none }) hf rfl).setCall
        hc fun _ => rfl
  | notDeleted hphase hn =>
      obtain ⟨f, x, hf, -⟩ := hfut.atWork c call hc (by simp [hphase])
      rw [hphase, AsyncServer.futureAt, hn] at hf
      cases hf
  | @deleted n f future response fault hphase hn hf hx =>
      have herase := h.closed_erase hfut hc hphase hn
      have herased : DeliveredOnce { s with
          factory := { s.factory with
            future := s.factory.future.erase f
            futures := s.factory.futures.erase n }
          response
          fault } := by
        refine { h with closed := ?_ }
        intro d hd g y hg hyr
        obtain ⟨e, other, -, he⟩ := herase d hd g y hg hyr
        exact ⟨e, other, he⟩
      exact herased.endCall herase

theorem took (h : DeliveredOnce s) (hlive : ObjectsLive s)
    (hown : ResponsesOwned s) {i : AsyncStep} (hs : s.Took i s') :
    DeliveredOnce s' := by
  have hkept := hs.requests hlive.requests
  cases hs with
  | clients | createEngine | stopThread | transactions | registerListener
  | unregisterListener | addHandler | removeHandler | sendResponse =>
      exact { h with }
  | sendRequest | refused | full | queued | popped | processed | dropped
  | numbered => exact { h.later hkept with }
  | @addFuture r q hq hphase =>
      refine { h.later hkept with closed := ?_ }
      intro d hd f future hf hfr
      simp only [FutureFactory.addFuture] at hf
      rw [Table.lookup_insert_if] at hf
      split at hf
      · cases hf
        obtain ⟨p, hp, hsent⟩ := h.sent d hd
        rw [← hfr, hq] at hp
        cases hp
        exact absurd (by simp [hphase]) hsent
      · exact h.closed d hd f future hf hfr
  | onEvent =>
      refine { h with closed := ?_ }
      intro d hd f future hf hfr
      obtain ⟨c, call, hc, hreq, hleaving⟩ := h.closed d hd f future hf hfr
      refine ⟨c, call, ?_, hreq, hleaving⟩
      rw [Finmap.lookup_insert_of_ne _ ?_, hc]
      rintro rfl
      exact Nat.lt_irrefl _ (hown.callBelow _ (Table.mem_of_lookup hc))
  | processResponse hc hs => exact h.advanced hlive.futures hown hc hs

end DeliveredOnce

/-- Where nothing is deleted or overwritten that is in use, each request is
answered at most once, in the list of its client, under its session. -/
theorem reach_rightlyDelivered {s : AsyncServer}
    (hs : asyncMachine.Reach keepsObjects s) : RightlyDelivered s := by
  have hbase : ∀ s, asyncMachine.Reach keepsObjects s →
      ObjectsLive s ∧ ResponsesOwned s :=
    fun _ hs => ⟨reach_objectsLive hs, reach_responsesOwned hs⟩
  have hrouted : Routed s := by
    refine hs.invariant_of hbase ?_ ?_
    · rintro s rfl
      exact .initial
    · rintro s i s' ⟨hlive, hown⟩ h _ hstep
      exact h.took hlive hown (AsyncServer.take_took (asyncMachine_step hstep).2)
  have honce : DeliveredOnce s := by
    refine hs.invariant_of hbase ?_ ?_
    · rintro s rfl
      exact .initial
    · rintro s i s' ⟨hlive, hown⟩ h _ hstep
      exact h.took hlive hown (AsyncServer.take_took (asyncMachine_step hstep).2)
  refine ⟨(reach_responsesOwned hs).sound, honce.once, fun d hd => ?_⟩
  obtain ⟨sessionId, ⟨q, hq, hclient, hsession⟩, htid⟩ := hrouted.delivered d hd
  exact ⟨q, hq, hclient.symm, by rw [htid, getSessionId_getTransactionId, hsession]⟩

set_option maxRecDepth 4000 in
theorem reach_rightlyDelivered_sample : ∃ s,
    asyncMachine.run keepsObjects .initial asyncDelivered = some s ∧
      RightlyDelivered s := by
  have hrun : (asyncMachine.run keepsObjects .initial
      asyncDelivered).isSome := by decide
  obtain ⟨s, hs⟩ := Option.isSome_iff_exists.mp hrun
  exact ⟨s, hs, reach_rightlyDelivered (.of_run (.start rfl) hs)⟩

/-- The plugin calls `OnEvent` twice, and both calls find the future. The
first comes as far as `DetachResponse` before the second goes on. -/
def asyncTwice : List AsyncStep :=
  asyncSample ++ [.onEvent 0 .onPluginSucceed 0 ⟨.null, 0⟩,
    .processResponse 0, .processResponse 1] ++
    List.replicate 6 (.processResponse 0) ++
    List.replicate 5 (.processResponse 1)

set_option maxRecDepth 4000 in
/-- One request is answered twice, with nothing deleted in between. -/
theorem asyncTwice_not_rightlyDelivered :
    ∃ s, asyncMachine.Reach Machine.anyStep s ∧ s.fault = none ∧
      ¬ RightlyDelivered s := by
  have hrun : (asyncMachine.run Machine.anyStep .initial asyncTwice).map
      (fun s => (s.fault, s.delivered.countP (·.request = 0))) =
        some (none, 2) := by decide
  obtain ⟨s, hs, heq⟩ := Option.map_eq_some_iff.mp hrun
  obtain ⟨hfault, hcount⟩ := Prod.mk.inj heq
  refine ⟨s, .of_run (.start rfl) hs, hfault, fun h => ?_⟩
  have hone := h.once 0
  omega

end AiEngine.Ref
