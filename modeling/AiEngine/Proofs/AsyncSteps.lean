import AiEngine.Ref.AsyncServer

/-!
# What a step of the asynchronous server does

One lemma for each step that can be impossible: when it was possible, and the
state it leads to. The invariants are derived from these and never look into
the steps again.
-/

namespace AiEngine.Ref

open AiEngine.Lib

namespace FutureFactory

variable {f f' : FutureFactory}

theorem getInstance_hasInstance {alloc b : Bool}
    (h : f.getInstance alloc = (b, f')) :
    ∃ b, f' = { f with hasInstance := b } := by
  unfold getInstance at h
  split at h
  · cases h
    exact ⟨f.hasInstance, rfl⟩
  · cases h
    exact ⟨alloc, rfl⟩

theorem findSequenceId_sequenceId {n : Int} (h : f.findSequenceId = (n, f')) :
    ∃ m, f' = { f with sequenceId := m } := by
  unfold findSequenceId at h
  split at h
  · cases h
    exact ⟨f.sequenceId, rfl⟩
  · cases h
    exact ⟨_, rfl⟩

end FutureFactory

namespace AsyncServer

variable {s s' : AsyncServer}

/-- Only the responses change, unless one is destroyed that is gone. -/
theorem destroyResponse_frame (s : AsyncServer) (x : Option Nat) :
    ∃ response fault, s.destroyResponse x = { s with response, fault } := by
  unfold destroyResponse
  split
  · exact ⟨s.response, s.fault, rfl⟩
  · split
    · exact ⟨_, s.fault, rfl⟩
    · exact ⟨s.response, _, rfl⟩

theorem destroyResponses_frame (s : AsyncServer) (xs : List Nat) :
    ∃ response fault, s.destroyResponses xs = { s with response, fault } := by
  induction xs generalizing s with
  | nil => exact ⟨s.response, s.fault, rfl⟩
  | cons x xs ih =>
      obtain ⟨response, fault, hx⟩ := s.destroyResponse_frame (some x)
      obtain ⟨response', fault', hxs⟩ := ih { s with response, fault }
      exact ⟨response', fault', by rw [destroyResponses, hx, hxs]⟩

theorem setOwner_frame (s : AsyncServer) (x : Nat) (owner : ResponseOwner) :
    ∃ response, s.setOwner x owner = { s with response } := by
  unfold setOwner
  split
  · exact ⟨s.response, rfl⟩
  · exact ⟨_, rfl⟩

theorem destroyResponse_with (s : AsyncServer) (factory : FutureFactory)
    (asyncHandler : SaAsyncHandler) (x : Option Nat) :
    ({ s with factory, asyncHandler } : AsyncServer).destroyResponse x =
      { s.destroyResponse x with factory, asyncHandler } := by
  unfold destroyResponse
  split
  · rfl
  · split <;> rfl

theorem destroyResponses_with (s : AsyncServer) (factory : FutureFactory)
    (asyncHandler : SaAsyncHandler) (xs : List Nat) :
    ({ s with factory, asyncHandler } : AsyncServer).destroyResponses xs =
      { s.destroyResponses xs with factory, asyncHandler } := by
  induction xs generalizing s with
  | nil => rfl
  | cons x xs ih =>
      rw [destroyResponses, destroyResponse_with, ih, destroyResponses]

theorem setOwner_with (s : AsyncServer) (factory : FutureFactory) (x : Nat)
    (owner : ResponseOwner) :
    ({ s with factory } : AsyncServer).setOwner x owner =
      { s.setOwner x owner with factory } := by
  unfold setOwner
  cases s.response.lookup x <;> rfl

theorem recordClient_eq {tid : Int64} {e : Nat}
    (h : s.recordClient tid e = some s') : ∃ engine,
    s.engine.lookup e = some engine ∧ engine.worker ≠ .stopped ∧
      s' = { s with clientEngines := s.clientEngines.insert tid e } := by
  unfold recordClient at h
  split at h
  · cases h
  · next engine he =>
      split at h
      · cases h
      · next hw =>
          cases h
          exact ⟨engine, he, hw, rfl⟩

theorem stopThread_eq {e : Nat} (h : s.stopThread e = some s') : ∃ engine,
    s.engine.lookup e = some engine ∧ engine.worker = .idle ∧
      ¬ s.EngineHeld e ∧
      s' = s.setEngine e { engine with worker := .stopped } := by
  unfold stopThread at h
  split at h
  · cases h
  · next engine he =>
      split at h
      · cases h
      · next hw =>
          cases h
          rw [not_or, not_not] at hw
          exact ⟨engine, he, hw.2, hw.1, rfl⟩

theorem clearQueue_eq {e : Nat} (h : s.clearQueue e = some s') :
    ∃ engine r rs q, s.engine.lookup e = some engine ∧
      engine.worker = .stopped ∧ engine.queue.blocks = r :: rs ∧
      s.request.lookup r = some q ∧
      s' = (s.setEngine e
        { engine with queue := { engine.queue with blocks := rs } }).setRequest
          r { q with phase := .dropped } := by
  unfold clearQueue at h
  split at h
  · cases h
  · next engine he =>
      split at h
      · cases h
      · next hw =>
          unfold Queue.popFront at h
          cases hblocks : engine.queue.blocks with
          | nil =>
              rw [hblocks] at h
              cases h
          | cons r rs =>
              rw [hblocks] at h
              dsimp only at h
              split at h
              · cases h
              · next q hq =>
                  cases h
                  exact ⟨engine, r, rs, q, he, not_not.mp hw, hblocks, hq, rfl⟩

theorem sendRequest_eq {clientInfo : ClientInfo} {algoInfo : AlgorithmInfo}
    {inputInfo : DataInfo}
    (h : s.sendRequest clientInfo algoInfo inputInfo = some s') :
    ∃ e engine,
      s.clientEngines.lookup
        (getTransactionId clientInfo.clientId clientInfo.sessionId) = some e ∧
      s.engine.lookup e = some engine ∧
      s' = { s.setRequest s.requestNum
        ⟨clientInfo, convertToRequest clientInfo.clientId clientInfo algoInfo
          inputInfo, e, .counted, false⟩ with
        requestNum := s.requestNum + 1 } := by
  unfold sendRequest at h
  dsimp only at h
  split at h
  · cases h
  · next e htid =>
      split at h
      · cases h
      · next engine he =>
          split at h
          · cases h
          · cases h
            exact ⟨e, engine, htid, he, rfl⟩

/-- The request is refused, or it gets a sequence id. -/
theorem findSequenceId_eq {alloc : Bool} {r : Nat}
    (h : s.findSequenceId alloc r = some s') :
    ∃ q hasInstance m, s.request.lookup r = some q ∧ q.phase = .counted ∧
      (s' = { s with factory :=
          { s.factory with hasInstance, sequenceId := m } }.setRequest r
            { q with phase := .refused } ∨
        ∃ n, s' = { s with factory :=
          { s.factory with hasInstance, sequenceId := m } }.setRequest r
            { q with
              request := { q.request with innerSequenceId := n }
              phase := .numbered }) := by
  unfold findSequenceId at h
  split at h
  · cases h
  · next q hq =>
      split at h
      · cases h
      · next hphase =>
          refine ⟨q, ?_⟩
          split at h
          · cases h
            exact ⟨s.factory.hasInstance, s.factory.sequenceId, hq,
              not_not.mp hphase, .inl rfl⟩
          · next factory hget =>
              obtain ⟨b, rfl⟩ := FutureFactory.getInstance_hasInstance hget
              split at h
              next n factory hfind =>
                obtain ⟨m, rfl⟩ := FutureFactory.findSequenceId_sequenceId hfind
                dsimp only at h
                split at h
                · cases h
                  exact ⟨b, m, hq, not_not.mp hphase, .inl rfl⟩
                · cases h
                  exact ⟨b, m, hq, not_not.mp hphase, .inr ⟨n, rfl⟩⟩

/-- The request is refused, or it gets a future. -/
theorem addFuture_eq {alloc : Bool} {r : Nat}
    (h : s.addFuture alloc r = some s') :
    ∃ q, s.request.lookup r = some q ∧ q.phase = .numbered ∧
      (s' = s.setRequest r { q with phase := .refused } ∨
        alloc = true ∧ s' = { s with
          factory := s.factory.addFuture q.request.innerSequenceId r
            q.request.transactionId }.setRequest r
              { q with phase := .added }) := by
  unfold addFuture at h
  split at h
  · cases h
  · next q hq =>
      split at h
      · cases h
      · next hphase =>
          refine ⟨q, hq, not_not.mp hphase, ?_⟩
          split at h
          · cases h
            exact .inl rfl
          · next halloc =>
              cases h
              exact .inr ⟨not_not.mp halloc, rfl⟩

/-- The request is refused where the queue is full, or it is queued. -/
theorem pushBack_eq {r : Nat} (h : s.pushBack r = some s') :
    ∃ q engine, s.request.lookup r = some q ∧ q.phase = .added ∧
      s.engine.lookup q.engine = some engine ∧
      (engine.queue.totalNum ≤ engine.queue.count ∧
          s' = s.setRequest r { q with phase := .refused } ∨
        s' = (s.setEngine q.engine { engine with queue :=
          { engine.queue with
            blocks := engine.queue.blocks ++ [r] } }).setRequest r
              { q with phase := .queued }) := by
  unfold pushBack at h
  split at h
  · cases h
  · next q hq =>
      split at h
      · cases h
      · next hphase =>
          split at h
          · cases h
          · next engine he =>
              refine ⟨q, engine, hq, not_not.mp hphase, he, ?_⟩
              unfold Queue.pushBack at h
              by_cases hfull : engine.queue.totalNum ≤ engine.queue.count
              · rw [if_pos hfull] at h
                cases h
                exact .inl ⟨hfull, rfl⟩
              · rw [if_neg hfull] at h
                cases h
                exact .inr rfl

theorem popFront_eq {e : Nat} (h : s.popFront e = some s') :
    ∃ engine r rs q, s.engine.lookup e = some engine ∧
      engine.worker = .idle ∧ engine.queue.blocks = r :: rs ∧
      s.request.lookup r = some q ∧
      s' = (s.setEngine e ⟨{ engine.queue with blocks := rs },
        .processing r⟩).setRequest r { q with phase := .processing } := by
  unfold popFront at h
  split at h
  · cases h
  · next engine he =>
      split at h
      · cases h
      · next hw =>
          unfold Queue.popFront at h
          cases hblocks : engine.queue.blocks with
          | nil =>
              rw [hblocks] at h
              cases h
          | cons r rs =>
              rw [hblocks] at h
              dsimp only at h
              split at h
              · cases h
              · next q hq =>
                  cases h
                  exact ⟨engine, r, rs, q, he, not_not.mp hw, hblocks, hq, rfl⟩

theorem asyncProcessed_eq {e : Nat} {success : Bool}
    (h : s.asyncProcessed e success = some s') :
    ∃ engine r q, s.engine.lookup e = some engine ∧
      engine.worker = .processing r ∧ s.request.lookup r = some q ∧
      s' = (s.setEngine e { engine with worker := .idle }).setRequest r
        { q with phase := if success then .processed else .failed } := by
  unfold asyncProcessed at h
  split at h
  · cases h
  · next engine he =>
      split at h
      · cases h
      · cases h
      · next r hw =>
          split at h
          · cases h
          · next q hq =>
              cases h
              exact ⟨engine, r, q, he, hw, hq, rfl⟩

/-! ## Calls

What `ProcessResponse` does next depends on the phase of its call. `Advanced`
has a constructor for each phase and each of its ends, with the state after
it. -/

theorem onEvent_eq {r : Nat} {event : PluginEvent} {retCode : Int}
    {result : DataInfo} (h : s.onEvent r event retCode result = some s') :
    ∃ q, s.request.lookup r = some q ∧
      q.phase ∈ [RequestPhase.processing, .processed, .failed] ∧
      s' = { s with
        response := s.response.insert s.callNum
          ⟨r, { Response.create q.request with retCode, result }, .call⟩
        call := s.call.insert s.callNum ⟨r, event, .fetchFuture⟩
        callNum := s.callNum + 1 } := by
  unfold onEvent at h
  split at h
  · cases h
  · next q hq =>
      split at h
      · next hphase =>
          cases h
          exact ⟨q, hq, hphase, rfl⟩
      · cases h

theorem sendResponse_eq {n : Nat} (h : s.sendResponse n = some s') :
    ∃ handler x xs, s.asyncHandler.handler.lookup n = some handler ∧
      handler.responses = x :: xs ∧
      s' = { s with asyncHandler := { s.asyncHandler with
        handler := s.asyncHandler.handler.insert n
          { handler with responses := xs } } }.destroyResponse (some x) := by
  unfold sendResponse at h
  split at h
  · cases h
  · next handler hn =>
      split at h
      · cases h
      · next x xs hxs =>
          cases h
          exact ⟨handler, x, xs, hn, hxs, rfl⟩

/-- A call ends for its request, if that is there. -/
theorem endCall_eq (s : AsyncServer) (c : Nat) (call : EventCall) :
    s.request.lookup call.request = none ∧
        s.endCall c call = { s with call := s.call.erase c } ∨
      ∃ q, s.request.lookup call.request = some q ∧
        s.endCall c call =
          { s with
            call := s.call.erase c
            request :=
              s.request.insert call.request { q with answered := true } } := by
  unfold endCall
  dsimp only
  split
  · next hq => exact .inl ⟨hq, rfl⟩
  · next q hq => exact .inr ⟨q, hq, rfl⟩

/-- The future a call works on after its lookup. -/
def futureAt (s : AsyncServer) : CallPhase → Option Nat
  | .deleteFuture sequenceId => s.factory.futures.lookup sequenceId
  | phase => phase.future

/-- Call `c` is about to use an object that is gone. -/
def Gone (s : AsyncServer) (c : Nat) (phase : CallPhase) : Fault → Prop
  | .onReply l =>
      phase.listener = some l ∧ s.factory.listener.lookup l = none
  | .addCallbackRecord n =>
      phase.handler = some n ∧ s.asyncHandler.handler.lookup n = none
  | .future f => s.futureAt phase = some f ∧ s.factory.future.lookup f = none
  | .response x =>
      (match phase with
        | .fetchFuture => x = c
        | .findListener _ => x = c
        | .addCallbackRecord _ _ y => x = y
        | _ => False) ∧ s.response.lookup x = none

/-- What the next step of call `c` does. -/
inductive Advanced (s : AsyncServer) (c : Nat) (call : EventCall) :
    AsyncServer → Prop where
  | fault {fault : Fault} (hgone : s.Gone c call.phase fault) :
      s.Advanced c call (s.setFault fault)
  | notFetched {x : AsyncResponse} (hphase : call.phase = .fetchFuture)
      (hx : s.response.lookup c = some x)
      (hf : s.factory.futures.lookup x.response.innerSequenceId = none) :
      s.Advanced c call (s.endCall c call)
  | fetched {x : AsyncResponse} {f : Nat} (hphase : call.phase = .fetchFuture)
      (hx : s.response.lookup c = some x)
      (hf : s.factory.futures.lookup x.response.innerSequenceId = some f) :
      s.Advanced c call (s.setCall c call (.setResponse f))
  | responseSet {f : Nat} {future : Future}
      {response : Table Nat AsyncResponse} {fault : Option Fault}
      (hphase : call.phase = .setResponse f)
      (hf : s.factory.future.lookup f = some future)
      (hx : (s.destroyResponse future.response).setOwner c (.future f) =
        { s with response, fault }) :
      s.Advanced c call
        { (s.setFuture f
          { future with
            status := convertPluginStatus call.event
            response := some c }).setCall c call (.findListener f) with
          response
          fault }
  | noListener {x : AsyncResponse} {f : Nat}
      (hphase : call.phase = .findListener f)
      (hx : s.response.lookup c = some x)
      (hl : s.factory.listeners.lookup x.response.transactionId = none) :
      s.Advanced c call (s.endCall c call)
  | listenerFound {x : AsyncResponse} {f l : Nat}
      (hphase : call.phase = .findListener f)
      (hx : s.response.lookup c = some x)
      (hl : s.factory.listeners.lookup x.response.transactionId = some l) :
      s.Advanced c call (s.setCall c call (.onReply f l))
  | noResponse {f l : Nat} {future : Future}
      (hphase : call.phase = .onReply f l)
      (hf : s.factory.future.lookup f = some future)
      (hx : future.response = none) :
      s.Advanced c call (s.setCall c call (.detachResponse f))
  | replied {f l x : Nat} {future : Future} {listener : FutureListener}
      (hphase : call.phase = .onReply f l)
      (hl : s.factory.listener.lookup l = some listener)
      (hf : s.factory.future.lookup f = some future)
      (hx : future.response = some x) :
      s.Advanced c call
        (s.setCall c call (.findHandler f listener.clientId x))
  | noHandler {f x : Nat} {clientId : Int32}
      (hphase : call.phase = .findHandler f clientId x)
      (hn : s.asyncHandler.clients.lookup clientId = none) :
      s.Advanced c call (s.setCall c call (.detachResponse f))
  | handlerFound {f x n : Nat} {clientId : Int32}
      (hphase : call.phase = .findHandler f clientId x)
      (hn : s.asyncHandler.clients.lookup clientId = some n) :
      s.Advanced c call (s.setCall c call (.addCallbackRecord f n x))
  | recorded {f n x : Nat} {handler : ClientListenerHandler}
      {response : AsyncResponse}
      (hphase : call.phase = .addCallbackRecord f n x)
      (hn : s.asyncHandler.handler.lookup n = some handler)
      (hx : s.response.lookup x = some response) :
      s.Advanced c call
        { s with
          asyncHandler :=
            { s.asyncHandler with
              handler := s.asyncHandler.handler.insert n
                { handler with responses := handler.responses ++ [x] } }
          delivered := s.delivered ++
            [⟨handler.clientId, response.request,
              response.response.transactionId⟩]
          response :=
            s.response.insert x { response with owner := .handler n }
          call := s.call.insert c { call with phase := .detachResponse f } }
  | detached {f : Nat} {future : Future}
      (hphase : call.phase = .detachResponse f)
      (hf : s.factory.future.lookup f = some future) :
      s.Advanced c call
        ((s.setFuture f { future with response := none }).setCall c call
          (.deleteFuture future.sequenceId))
  | notDeleted {sequenceId : Int}
      (hphase : call.phase = .deleteFuture sequenceId)
      (hf : s.factory.futures.lookup sequenceId = none) :
      s.Advanced c call (s.endCall c call)
  | deleted {sequenceId : Int} {f : Nat} {future : Future}
      {response : Table Nat AsyncResponse} {fault : Option Fault}
      (hphase : call.phase = .deleteFuture sequenceId)
      (hn : s.factory.futures.lookup sequenceId = some f)
      (hf : s.factory.future.lookup f = some future)
      (hx : s.destroyResponse future.response = { s with response, fault }) :
      s.Advanced c call
        (endCall
          { s with
            factory :=
              { s.factory with
                future := s.factory.future.erase f
                futures := s.factory.futures.erase sequenceId }
            response
            fault } c call)

theorem setResponse_advanced {c f : Nat} {call : EventCall}
    (hphase : call.phase = .setResponse f) :
    s.Advanced c call (s.setResponse c call f) := by
  unfold setResponse
  split
  · next hf =>
      exact .fault (by simp [Gone, hphase, futureAt, CallPhase.future, hf])
  · next future hf =>
      obtain ⟨response, fault, hd⟩ := s.destroyResponse_frame future.response
      obtain ⟨response', ho⟩ :=
        setOwner_frame { s with response, fault } c (.future f)
      have hx : (s.destroyResponse future.response).setOwner c (.future f) =
          { s with response := response', fault } := by
        rw [hd]
        exact ho
      have hset := Advanced.responseSet hphase hf hx
      have hwith := setOwner_with { s with response, fault }
        (s.setFuture f
          { future with
            status := convertPluginStatus call.event
            response := some c }).factory c (.future f)
      rw [ho] at hwith
      rw [hd]
      dsimp only
      simp only [setFuture] at hwith ⊢
      rw [hwith]
      exact hset

theorem onReply_advanced {c f l : Nat} {call : EventCall}
    (hphase : call.phase = .onReply f l) :
    s.Advanced c call (s.onReply c call f l) := by
  unfold onReply
  split
  · next hl => exact .fault (by simp [Gone, hphase, CallPhase.listener, hl])
  · next listener hl =>
      split
      · next hf =>
          exact .fault (by simp [Gone, hphase, futureAt, CallPhase.future, hf])
      · next future hf =>
          split
          · next hx => exact .noResponse hphase hf hx
          · next x hx => exact .replied hphase hl hf hx

theorem addCallbackRecord_advanced {c f n x : Nat} {call : EventCall}
    (hphase : call.phase = .addCallbackRecord f n x) :
    s.Advanced c call (s.addCallbackRecord c call f n x) := by
  unfold addCallbackRecord
  split
  · next hn => exact .fault (by simp [Gone, hphase, CallPhase.handler, hn])
  · next handler hn =>
      split
      · next hx => exact .fault (by simp [Gone, hphase, hx])
      · next response hx =>
          have hrecorded := Advanced.recorded (c := c) hphase hn hx
          simp only [setOwner, hx]
          exact hrecorded

theorem deleteFuture_advanced {c : Nat} {n : Int} {call : EventCall}
    (hphase : call.phase = .deleteFuture n) :
    s.Advanced c call (s.deleteFuture c call n) := by
  unfold deleteFuture
  split
  · next hn => exact .notDeleted hphase hn
  · next f hn =>
      split
      · next hf => exact .fault (by simp [Gone, hphase, futureAt, hn, hf])
      · next future hf =>
          obtain ⟨response, fault, hd⟩ :=
            s.destroyResponse_frame future.response
          have hdeleted := Advanced.deleted (c := c) hphase hn hf hd
          simp only [FutureFactory.deleteFuture, hn]
          rw [s.destroyResponse_with _ s.asyncHandler, hd]
          exact hdeleted

theorem processResponse_eq {c : Nat} (h : s.processResponse c = some s') :
    ∃ call, s.call.lookup c = some call ∧ s.Advanced c call s' := by
  unfold processResponse at h
  split at h
  · cases h
  · next call hc =>
      refine ⟨call, hc, ?_⟩
      split at h <;> cases h
      · next hphase =>
          unfold fetchFuture
          split
          · next hx => exact .fault (by simp [Gone, hphase, hx])
          · next x hx =>
              split
              · next hf => exact .notFetched hphase hx hf
              · next f hf => exact .fetched hphase hx hf
      · next f hphase => exact setResponse_advanced hphase
      · next f hphase =>
          unfold findListener
          split
          · next hx => exact .fault (by simp [Gone, hphase, hx])
          · next x hx =>
              split
              · next hl => exact .noListener hphase hx hl
              · next l hl => exact .listenerFound hphase hx hl
      · next f l hphase => exact onReply_advanced hphase
      · next f clientId x hphase =>
          unfold findHandler
          split
          · next hn => exact .noHandler hphase hn
          · next n hn => exact .handlerFound hphase hn
      · next f n x hphase => exact addCallbackRecord_advanced hphase
      · next f hphase =>
          unfold detachResponse
          split
          · next hf =>
              exact .fault
                (by simp [Gone, hphase, futureAt, CallPhase.future, hf])
          · next future hf => exact .detached hphase hf
      · next n hphase => exact deleteFuture_advanced hphase

/-! ## All steps

`Took` says what a step of the server can do, with the guards that were
tested. The invariants of the following modules are all proved by cases on it.
-/

/-- What the steps do. What a step looks at before is kept where something
depends on it. -/
inductive Took (s : AsyncServer) : AsyncStep → AsyncServer → Prop where
  | clients {i : AsyncStep} (clientEngines : Table Int64 Nat) :
      s.Took i { s with clientEngines }
  | createEngine {i : AsyncStep} (singleQueueCapacity : Nat) :
      s.Took i (s.createEngine singleQueueCapacity)
  | stopThread {e : Nat} {engine : AsyncEngine}
      (he : s.engine.lookup e = some engine) (hw : engine.worker = .idle) :
      s.Took (.stopThread e) (s.setEngine e { engine with worker := .stopped })
  | sendRequest {clientInfo : ClientInfo} {algoInfo : AlgorithmInfo}
      {inputInfo : DataInfo} (e : Nat) :
      s.Took (.sendRequest clientInfo algoInfo inputInfo)
        { s with
          request := s.request.insert s.requestNum
            ⟨clientInfo, convertToRequest clientInfo.clientId clientInfo
              algoInfo inputInfo, e, .counted, false⟩
          requestNum := s.requestNum + 1 }
  | refused {i : AsyncStep} {r : Nat} {q : AsyncRequest} (hasInstance : Bool)
      (sequenceId : Int) (hq : s.request.lookup r = some q)
      (hphase : q.phase ∈ [.counted, .numbered]) :
      s.Took i
        { s with
          factory := { s.factory with hasInstance, sequenceId }
          request := s.request.insert r { q with phase := .refused } }
  | full {r : Nat} {q : AsyncRequest} {engine : AsyncEngine}
      (hq : s.request.lookup r = some q) (hphase : q.phase = .added)
      (he : s.engine.lookup q.engine = some engine)
      (hfull : engine.queue.totalNum ≤ engine.queue.count) :
      s.Took (.pushBack r) (s.setRequest r { q with phase := .refused })
  | queued {r : Nat} {q : AsyncRequest} {engine : AsyncEngine}
      (hq : s.request.lookup r = some q) (hphase : q.phase = .added)
      (he : s.engine.lookup q.engine = some engine) :
      s.Took (.pushBack r)
        ((s.setEngine q.engine
          { engine with
            queue :=
              { engine.queue with
                blocks := engine.queue.blocks ++ [r] } }).setRequest r
                { q with phase := .queued })
  | popped {e r : Nat} {rs : List Nat} {q : AsyncRequest}
      {engine : AsyncEngine} (hq : s.request.lookup r = some q)
      (he : s.engine.lookup e = some engine) (hw : engine.worker = .idle)
      (hblocks : engine.queue.blocks = r :: rs) :
      s.Took (.popFront e)
        ((s.setEngine e ⟨{ engine.queue with blocks := rs },
          .processing r⟩).setRequest r { q with phase := .processing })
  | processed {e r : Nat} {success : Bool} {q : AsyncRequest}
      {engine : AsyncEngine} (hq : s.request.lookup r = some q)
      (he : s.engine.lookup e = some engine)
      (hw : engine.worker = .processing r) :
      s.Took (.asyncProcessed e success)
        ((s.setEngine e { engine with worker := .idle }).setRequest r
          { q with phase := if success then .processed else .failed })
  | dropped {e r : Nat} {rs : List Nat} {q : AsyncRequest}
      {engine : AsyncEngine} (hq : s.request.lookup r = some q)
      (he : s.engine.lookup e = some engine) (hw : engine.worker = .stopped)
      (hblocks : engine.queue.blocks = r :: rs) :
      s.Took (.clearQueue e)
        ((s.setEngine e
          { engine with
            queue := { engine.queue with blocks := rs } }).setRequest r
              { q with phase := .dropped })
  | numbered {i : AsyncStep} {r : Nat} {q : AsyncRequest} (hasInstance : Bool)
      (sequenceId n : Int) (hq : s.request.lookup r = some q)
      (hphase : q.phase = .counted) :
      s.Took i
        { s with
          factory := { s.factory with hasInstance, sequenceId }
          request := s.request.insert r
            { q with
              request := { q.request with innerSequenceId := n }
              phase := .numbered } }
  | addFuture {r : Nat} {q : AsyncRequest} (hq : s.request.lookup r = some q)
      (hphase : q.phase = .numbered) :
      s.Took (.addFuture true r)
        { s with
          factory := s.factory.addFuture q.request.innerSequenceId r
            q.request.transactionId
          request := s.request.insert r { q with phase := .added } }
  | transactions {i : AsyncStep} (hasInstance : Bool)
      (transactions : Finset Int64) :
      s.Took i
        { s with
          factory := { s.factory with hasInstance }
          asyncHandler := { s.asyncHandler with transactions } }
  | registerListener {i : AsyncStep} (hasInstance : Bool)
      (transactions : Finset Int64) (clientId sessionId : Int32) :
      s.Took i
        { s with
          factory := FutureFactory.registerListener
            { s.factory with hasInstance } clientId
            (getTransactionId clientId sessionId)
          asyncHandler := { s.asyncHandler with transactions } }
  | unregisterListener {env : CallbackEnv} {tid : Int64} {l : Nat}
      (hasInstance : Bool) (transactions : Finset Int64)
      (hin : tid ∈ s.asyncHandler.transactions)
      (hl : s.factory.listeners.lookup tid = some l) :
      s.Took (.stopAsyncTransaction env tid)
        { s with
          factory :=
            { s.factory with
              hasInstance
              listener := s.factory.listener.erase l
              listeners := s.factory.listeners.erase tid }
          asyncHandler := { s.asyncHandler with transactions } }
  | addHandler {i : AsyncStep} {clientId : Int32}
      (hfree : s.asyncHandler.clients.lookup clientId = none) :
      s.Took i
        { s with
          asyncHandler := s.asyncHandler.addClientListenerHandler true clientId }
  | removeHandler {clientId : Int32} {n : Nat}
      {response : Table Nat AsyncResponse} {fault : Option Fault}
      (hn : s.asyncHandler.clients.lookup clientId = some n)
      (hx : s.destroyResponses
          ((s.asyncHandler.handler.lookup n).elim [] (·.responses)) =
        { s with response, fault }) :
      s.Took (.stopAsyncProcess clientId)
        { s with
          asyncHandler :=
            { s.asyncHandler with
              handler := s.asyncHandler.handler.erase n
              clients := s.asyncHandler.clients.erase clientId }
          response
          fault }
  | sendResponse {i : AsyncStep} {n x : Nat} {xs : List Nat}
      {handler : ClientListenerHandler}
      {response : Table Nat AsyncResponse} {fault : Option Fault}
      (hn : s.asyncHandler.handler.lookup n = some handler)
      (hxs : handler.responses = x :: xs)
      (hx : s.destroyResponse (some x) = { s with response, fault }) :
      s.Took i
        { s with
          asyncHandler :=
            { s.asyncHandler with
              handler := s.asyncHandler.handler.insert n
                { handler with responses := xs } }
          response
          fault }
  | onEvent {i : AsyncStep} {r : Nat} {event : PluginEvent} {retCode : Int}
      {result : DataInfo} {q : AsyncRequest} (hq : s.request.lookup r = some q)
      (hphase : q.phase ∈ [.processing, .processed, .failed]) :
      s.Took i
        { s with
          response := s.response.insert s.callNum
            ⟨r, { Response.create q.request with retCode, result }, .call⟩
          call := s.call.insert s.callNum ⟨r, event, .fetchFuture⟩
          callNum := s.callNum + 1 }
  | processResponse {c : Nat} {call : EventCall} {t : AsyncServer}
      (hc : s.call.lookup c = some call) (ht : s.Advanced c call t) :
      s.Took (.processResponse c) t

/-- A listener was registered, or only the set of transactions changed. -/
theorem startAsyncTransaction_took (s : AsyncServer) (env : CallbackEnv)
    (clientInfo : ClientInfo) : s.Took (.startAsyncTransaction env clientInfo)
      (s.startAsyncTransaction env clientInfo) := by
  unfold startAsyncTransaction SaAsyncHandler.startAsyncTransaction
  split
  next heq =>
    split at heq
    · cases heq
      exact .transactions s.factory.hasInstance s.asyncHandler.transactions
    · split at heq
      · cases heq
        exact .transactions s.factory.hasInstance s.asyncHandler.transactions
      · dsimp only at heq
        split at heq
        · next hget =>
            obtain ⟨b, rfl⟩ := FutureFactory.getInstance_hasInstance hget
            cases heq
            exact .transactions b _
        · next hget =>
            obtain ⟨b, rfl⟩ := FutureFactory.getInstance_hasInstance hget
            cases heq
            exact .registerListener b _ _ _

theorem stopAsyncTransaction_took (s : AsyncServer) (env : CallbackEnv)
    (tid : Int64) : s.Took (.stopAsyncTransaction env tid)
      (s.stopAsyncTransaction env tid) := by
  unfold stopAsyncTransaction SaAsyncHandler.stopAsyncTransaction
  split
  next heq =>
    split at heq
    · next hin =>
        dsimp only at heq
        split at heq
        · next hget =>
            obtain ⟨b, rfl⟩ := FutureFactory.getInstance_hasInstance hget
            cases heq
            exact .transactions b _
        · next hget =>
            obtain ⟨b, rfl⟩ := FutureFactory.getInstance_hasInstance hget
            cases heq
            unfold FutureFactory.unregisterListener
            split
            · exact .transactions b _
            · next l hl => exact .unregisterListener b _ hin hl
    · cases heq
      exact .transactions s.factory.hasInstance s.asyncHandler.transactions

theorem registerAsyncHandler_took (s : AsyncServer) (env : CallbackEnv)
    (clientId : Int32) : s.Took (.registerAsyncHandler env clientId)
      (s.registerAsyncHandler env clientId) := by
  unfold registerAsyncHandler SaAsyncHandler.registerAsyncHandler
  split
  · exact .transactions s.factory.hasInstance s.asyncHandler.transactions
  · next hfree =>
      cases env.newClientListenerHandler with
      | false =>
          exact .transactions s.factory.hasInstance s.asyncHandler.transactions
      | true => exact .addHandler hfree

theorem stopAsyncProcess_took (s : AsyncServer) (clientId : Int32) :
    s.Took (.stopAsyncProcess clientId) (s.stopAsyncProcess clientId) := by
  unfold stopAsyncProcess SaAsyncHandler.removeClientListenerHandler
    SaAsyncHandler.findClientListenerHandler
  dsimp only
  cases hn : s.asyncHandler.clients.lookup clientId with
  | none =>
      exact .transactions s.factory.hasInstance s.asyncHandler.transactions
  | some n =>
      dsimp only [Option.bind_some]
      cases hhandler : s.asyncHandler.handler.lookup n with
      | none =>
          have hx : s.destroyResponses
              ((s.asyncHandler.handler.lookup n).elim [] (·.responses)) = s := by
            rw [hhandler]
            rfl
          exact .removeHandler hn hx
      | some handler =>
          obtain ⟨response, fault, hd⟩ :=
            s.destroyResponses_frame handler.responses
          have hx : s.destroyResponses
              ((s.asyncHandler.handler.lookup n).elim [] (·.responses)) =
                { s with response, fault } := by
            rw [hhandler]
            exact hd
          dsimp only
          rw [s.destroyResponses_with s.factory, hd]
          exact .removeHandler hn hx

theorem take_took {i : AsyncStep} (h : s.take i = some s') : s.Took i s' := by
  cases i with
  | createEngine singleQueueCapacity =>
      cases h
      exact .createEngine singleQueueCapacity
  | recordClient tid e =>
      obtain ⟨-, -, -, rfl⟩ := recordClient_eq h
      exact .clients _
  | unRecordClient tid =>
      cases h
      exact .clients _
  | stopThread e =>
      obtain ⟨engine, he, hw, -, rfl⟩ := stopThread_eq h
      exact .stopThread he hw
  | clearQueue e =>
      obtain ⟨engine, r, rs, q, he, hw, hblocks, hq, rfl⟩ := clearQueue_eq h
      exact .dropped hq he hw hblocks
  | startAsyncTransaction env clientInfo =>
      cases h
      exact s.startAsyncTransaction_took env clientInfo
  | stopAsyncTransaction env tid =>
      cases h
      exact s.stopAsyncTransaction_took env tid
  | registerAsyncHandler env clientId =>
      cases h
      exact s.registerAsyncHandler_took env clientId
  | stopAsyncProcess clientId =>
      cases h
      exact s.stopAsyncProcess_took clientId
  | sendResponse n =>
      obtain ⟨handler, x, xs, hn, hxs, rfl⟩ := sendResponse_eq h
      obtain ⟨response, fault, hd⟩ := s.destroyResponse_frame (some x)
      rw [s.destroyResponse_with s.factory, hd]
      exact .sendResponse hn hxs hd
  | sendRequest clientInfo algoInfo inputInfo =>
      obtain ⟨e, -, -, -, rfl⟩ := sendRequest_eq h
      exact .sendRequest e
  | findSequenceId alloc r =>
      obtain ⟨q, b, m, hq, hphase, rfl | ⟨n, rfl⟩⟩ := findSequenceId_eq h
      · exact .refused b m hq (by simp [hphase])
      · exact .numbered b m n hq hphase
  | addFuture alloc r =>
      obtain ⟨q, hq, hphase, rfl | ⟨rfl, rfl⟩⟩ := addFuture_eq h
      · exact .refused s.factory.hasInstance s.factory.sequenceId hq
          (by simp [hphase])
      · exact .addFuture hq hphase
  | pushBack r =>
      obtain ⟨q, engine, hq, hphase, he, ⟨hfull, rfl⟩ | rfl⟩ := pushBack_eq h
      · exact .full hq hphase he hfull
      · exact .queued hq hphase he
  | popFront e =>
      obtain ⟨engine, r, rs, q, he, hw, hblocks, hq, rfl⟩ := popFront_eq h
      exact .popped hq he hw hblocks
  | asyncProcessed e success =>
      obtain ⟨engine, r, q, he, hw, hq, rfl⟩ := asyncProcessed_eq h
      exact .processed hq he hw
  | onEvent r event retCode result =>
      obtain ⟨q, hq, hphase, rfl⟩ := onEvent_eq h
      exact .onEvent hq hphase
  | processResponse c =>
      obtain ⟨call, hc, hs⟩ := processResponse_eq h
      exact .processResponse hc hs

end AsyncServer

theorem asyncMachine_step {s s' : AsyncServer} {i : AsyncStep}
    (h : asyncMachine.step s i = some s') :
    s.fault = none ∧ s.take i = some s' := by
  simp only [asyncMachine] at h
  split at h
  · next hfault => exact ⟨hfault, h⟩
  · cases h

end AiEngine.Ref
