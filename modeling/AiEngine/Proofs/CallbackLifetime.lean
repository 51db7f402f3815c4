import AiEngine.Lib.Registry
import AiEngine.Proofs.AsyncSteps

/-!
# The lives of listeners and client handlers

A response on its way passes two lookups that hand out a pointer and then let
go of the lock: `FindListener` and `FindClientListenerHandler`. The service
thread deletes what they found when a transaction stops or a callback is
unregistered, without asking whether the pointer is still in use.

Apart from that the bookkeeping is sound. Both maps are registries, and a
step that deletes nothing keeps every pointer good.
-/

namespace AiEngine.Ref

open AiEngine.Lib

/-- No deleted listener was told of a reply, and no deleted handler was given
a response. -/
def CallbacksSafe (s : AsyncServer) : Prop :=
  ∀ n, s.fault ≠ some (.onReply n) ∧ s.fault ≠ some (.addCallbackRecord n)

/-- The service thread leaves a listener or a handler alone while a call has
a pointer to it. -/
def keepsCallbacks (s : AsyncServer) : AsyncStep → Prop
  | .stopAsyncTransaction _ transactionId =>
      transactionId ∈ s.asyncHandler.transactions →
        ∀ l ∈ s.factory.findListener transactionId,
          Table.countWith (fun call => call.phase.listener = some l) s.call = 0
  | .stopAsyncProcess clientId =>
      ∀ h ∈ s.asyncHandler.findClientListenerHandler clientId,
        Table.countWith (fun call => call.phase.handler = some h) s.call = 0
  | _ => True

instance (s : AsyncServer) (i : AsyncStep) : Decidable (keepsCallbacks s i) := by
  unfold keepsCallbacks
  split <;> infer_instance

/-- The maps are registries, and the calls' pointers are good. -/
structure CallbacksLive (s : AsyncServer) : Prop where
  listeners : Registry s.factory.listeners s.factory.listener
    s.factory.listenerNum
  handlers : Registry s.asyncHandler.clients s.asyncHandler.handler
    s.asyncHandler.handlerNum
  replying : Pinned s.call (·.phase.listener) s.factory.listener
  recording : Pinned s.call (·.phase.handler) s.asyncHandler.handler
  safe : CallbacksSafe s

theorem CallbacksLive.initial : CallbacksLive .initial where
  listeners := .empty
  handlers := .empty
  replying := .empty
  recording := .empty
  safe := by simp [CallbacksSafe, AsyncServer.initial]

namespace CallbacksLive

variable {s s' : AsyncServer}

/-- What became of a response or of a request does not matter here, nor does
a fault of another kind. -/
theorem setFault (h : CallbacksLive s) {fault : Fault}
    (hf : ∀ n, fault ≠ .onReply n ∧ fault ≠ .addCallbackRecord n) :
    CallbacksLive (s.setFault fault) :=
  { h with
    safe := fun n => ⟨fun heq => (hf n).1 (Option.some.inj heq),
      fun heq => (hf n).2 (Option.some.inj heq)⟩ }

theorem destroyResponse (h : CallbacksLive s) (x : Option Nat) :
    CallbacksLive (s.destroyResponse x) := by
  unfold AsyncServer.destroyResponse
  split
  · exact h
  · split
    · exact { h with }
    · exact h.setFault (by simp)

theorem destroyResponses (h : CallbacksLive s) (xs : List Nat) :
    CallbacksLive (s.destroyResponses xs) := by
  induction xs generalizing s with
  | nil => exact h
  | cons x xs ih => exact ih (h.destroyResponse (some x))

theorem setOwner (h : CallbacksLive s) (x : Nat) (owner : ResponseOwner) :
    CallbacksLive (s.setOwner x owner) := by
  unfold AsyncServer.setOwner
  split
  · exact h
  · exact { h with }

theorem setCall (h : CallbacksLive s) {c : Nat} {call : EventCall}
    {phase : CallPhase}
    (hl : ∀ l, phase.listener = some l → l ∈ s.factory.listener)
    (hh : ∀ n, phase.handler = some n → n ∈ s.asyncHandler.handler) :
    CallbacksLive (s.setCall c call phase) :=
  { h with
    replying := h.replying.hold hl
    recording := h.recording.hold hh }

theorem endCall (h : CallbacksLive s) (c : Nat) (call : EventCall) :
    CallbacksLive (s.endCall c call) := by
  have hended : CallbacksLive { s with call := s.call.erase c } :=
    { h with
      replying := h.replying.release c
      recording := h.recording.release c }
  rcases s.endCall_eq c call with ⟨-, heq⟩ | ⟨q, -, heq⟩
  · rw [heq]
    exact hended
  · rw [heq]
    exact { hended with }

theorem setHandler (h : CallbacksLive s) {n : Nat}
    {handler : ClientListenerHandler}
    (hn : s.asyncHandler.handler.lookup n = some handler)
    (new : ClientListenerHandler) :
    CallbacksLive { s with asyncHandler := { s.asyncHandler with
      handler := s.asyncHandler.handler.insert n new } } :=
  { h with
    handlers := h.handlers.update (Table.mem_of_lookup hn) new
    recording := h.recording.insert n new }

/-- A call has good pointers, so the only faults left are of other kinds. -/
theorem advanced (h : CallbacksLive s) {c : Nat} {call : EventCall}
    (hc : s.call.lookup c = some call) (hs : s.Advanced c call s') :
    CallbacksLive s' := by
  cases hs with
  | @fault fault hgone =>
      refine h.setFault fun n => ⟨?_, ?_⟩
      · rintro rfl
        have hlive := h.replying c call n hc hgone.1
        exact Finmap.lookup_eq_none.mp hgone.2 hlive
      · rintro rfl
        have hlive := h.recording c call n hc hgone.1
        exact Finmap.lookup_eq_none.mp hgone.2 hlive
  | notFetched | noListener | notDeleted => exact h.endCall c call
  | fetched | noResponse | replied | noHandler =>
      exact h.setCall (by simp [CallPhase.listener])
        (by simp [CallPhase.handler])
  | @responseSet f future response fault hphase hf hx =>
      have hset := hx ▸ (h.destroyResponse future.response).setOwner c _
      exact { hset with
        replying := hset.replying.hold (by simp [CallPhase.listener])
        recording := hset.recording.hold (by simp [CallPhase.handler]) }
  | listenerFound hphase hx hl =>
      refine h.setCall ?_ (by simp [CallPhase.handler])
      rintro n ⟨⟩
      exact h.listeners.listed _ _ hl
  | handlerFound hphase hn =>
      refine h.setCall (by simp [CallPhase.listener]) ?_
      rintro m ⟨⟩
      exact h.handlers.listed _ _ hn
  | @recorded f n x handler response hphase hn hx =>
      have hset := h.setHandler hn
        { handler with responses := handler.responses ++ [x] }
      exact { hset with
        replying := hset.replying.hold (by simp [CallPhase.listener])
        recording := hset.recording.hold (by simp [CallPhase.handler]) }
  | @detached f future hphase hf =>
      have hset : CallbacksLive
          (s.setFuture f { future with response := none }) := { h with }
      exact hset.setCall (by simp [CallPhase.listener])
        (by simp [CallPhase.handler])
  | @deleted n f future response fault hphase hn hf hx =>
      have hset := hx ▸ h.destroyResponse future.response
      refine endCall ?_ c call
      exact { hset with }

theorem took (h : CallbacksLive s) {i : AsyncStep} (hok : keepsCallbacks s i)
    (hs : s.Took i s') : CallbacksLive s' := by
  cases hs with
  | clients | createEngine | stopThread | sendRequest | refused | full | queued
  | popped | processed | dropped | numbered | addFuture | transactions =>
      exact { h with }
  | registerListener =>
      exact { h with
        listeners := h.listeners.insert _ _
        replying := h.replying.insert _ _ }
  | unregisterListener hasInstance transactions hin hl =>
      have hfree := (Table.countWith_eq_zero _).mp (hok hin _ hl)
      exact { h with
        listeners := h.listeners.erase hl
        replying := h.replying.erase hfree }
  | addHandler =>
      exact { h with
        handlers := h.handlers.insert _ _
        recording := h.recording.insert _ _ }
  | removeHandler hn hx =>
      have hfree := (Table.countWith_eq_zero _).mp (hok _ hn)
      have hset := hx ▸ h.destroyResponses _
      exact { hset with
        handlers := h.handlers.erase hn
        recording := h.recording.erase hfree }
  | sendResponse hn hxs hx =>
      have hset := hx ▸ h.destroyResponse _
      exact { hset.setHandler hn _ with }
  | onEvent =>
      exact { h with
        replying := h.replying.hold (by simp [CallPhase.listener])
        recording := h.recording.hold (by simp [CallPhase.handler]) }
  | processResponse hc hs => exact h.advanced hc hs

end CallbacksLive

theorem reach_callbacksLive {s : AsyncServer}
    (hs : asyncMachine.Reach keepsCallbacks s) : CallbacksLive s := by
  refine hs.invariant ?_ ?_
  · rintro s rfl
    exact .initial
  · intro s i s' h hok hstep
    exact h.took hok (AsyncServer.take_took (asyncMachine_step hstep).2)

/-- Where the service thread leaves alone what a call has in hand, no deleted
listener or handler is ever used. -/
theorem reach_callbacksSafe {s : AsyncServer}
    (hs : asyncMachine.Reach keepsCallbacks s) : CallbacksSafe s :=
  (reach_callbacksLive hs).safe

/-- Session 1 of client 1. -/
def asyncClient : ClientInfo :=
  { ClientInfo.zero with clientId := 1, sessionId := 1 }

/-- The client starts a session with a callback and sends a request. The
engine's worker gives it to the plugin, and the plugin calls `OnEvent`. -/
def asyncSample : List AsyncStep :=
  [.createEngine 64, .recordClient (getTransactionId 1 1) 0,
    .startAsyncTransaction .willing asyncClient,
    .registerAsyncHandler .willing 1,
    .sendRequest asyncClient AlgorithmInfo.zero ⟨.null, 0⟩,
    .findSequenceId true 0, .addFuture true 0, .pushBack 0, .popFront 0,
    .onEvent 0 .onPluginSucceed 0 ⟨.null, 0⟩]

/-- The response is delivered, and the session ends. -/
def asyncDelivered : List AsyncStep :=
  asyncSample ++ List.replicate 8 (.processResponse 0) ++
    [.asyncProcessed 0 true,
      .stopAsyncTransaction .willing (getTransactionId 1 1),
      .stopAsyncProcess 1]

/-- The transaction stops between `FindListener` and `OnReply`. -/
def asyncStopped : List AsyncStep :=
  asyncSample ++ List.replicate 3 (.processResponse 0) ++
    [.stopAsyncTransaction .willing (getTransactionId 1 1), .processResponse 0]

set_option maxRecDepth 4000 in
theorem reach_callbacksSafe_sample : ∃ s,
    asyncMachine.run keepsCallbacks .initial asyncDelivered = some s ∧
      CallbacksSafe s := by
  have hrun : (asyncMachine.run keepsCallbacks .initial
      asyncDelivered).isSome := by decide
  obtain ⟨s, hs⟩ := Option.isSome_iff_exists.mp hrun
  exact ⟨s, hs, reach_callbacksSafe (.of_run (.start rfl) hs)⟩

set_option maxRecDepth 4000 in
/-- `OnReply` is called on a listener that was deleted. -/
theorem asyncStopped_not_callbacksSafe :
    ∃ s, asyncMachine.Reach Machine.anyStep s ∧ ¬ CallbacksSafe s := by
  have hrun : (asyncMachine.run Machine.anyStep .initial asyncStopped).map
      (·.fault) = some (some (.onReply 0)) := by decide
  obtain ⟨s, hs, hfault⟩ := Option.map_eq_some_iff.mp hrun
  exact ⟨s, .of_run (.start rfl) hs, fun h => (h 0).1 hfault⟩

end AiEngine.Ref
