import AiEngine.Proofs.AsyncSteps

/-!
# Requests over time

A request gets a sequence id and a future on its way to the queue. From then
on it keeps both, and it keeps its client and its transaction from the start.
What the other invariants say of a request they say of what stays.
-/

namespace AiEngine.Ref

open AiEngine.Lib

/-- What stays of a request: who sent it, and once it has a future, its
sequence id. -/
structure AsyncRequest.Later (q q' : AsyncRequest) : Prop where
  clientInfo : q'.clientInfo = q.clientInfo
  transactionId : q'.request.transactionId = q.request.transactionId
  sent : q.phase ∉ [.counted, .numbered] →
    q'.phase ∉ [.counted, .numbered] ∧ q'.request = q.request

namespace AsyncRequest.Later

theorem refl (q : AsyncRequest) : q.Later q := ⟨rfl, rfl, fun h => ⟨h, rfl⟩⟩

theorem answered (q : AsyncRequest) : q.Later { q with answered := true } :=
  ⟨rfl, rfl, fun h => ⟨h, rfl⟩⟩

theorem phase (q : AsyncRequest) {phase : RequestPhase}
    (h : phase ∉ [.counted, .numbered]) : q.Later { q with phase } :=
  ⟨rfl, rfl, fun _ => ⟨h, rfl⟩⟩

theorem numbered {q : AsyncRequest} (h : q.phase = .counted) (n : Int) :
    q.Later { q with
      request := { q.request with innerSequenceId := n }
      phase := .numbered } :=
  ⟨rfl, rfl, fun hsent => absurd (by simp [h]) hsent⟩

end AsyncRequest.Later

/-- All requests are kept. -/
def RequestsKept (t t' : Table Nat AsyncRequest) : Prop :=
  ∀ r q, t.lookup r = some q → ∃ q', t'.lookup r = some q' ∧ q.Later q'

theorem RequestsKept.refl (t : Table Nat AsyncRequest) : RequestsKept t t :=
  fun _ q hq => ⟨q, hq, .refl q⟩

theorem RequestsKept.update {t : Table Nat AsyncRequest} {r : Nat}
    {q q' : AsyncRequest} (hq : t.lookup r = some q) (hlater : q.Later q') :
    RequestsKept t (t.insert r q') := by
  intro u p hp
  rw [Table.lookup_insert_if]
  split
  · next hu =>
      rw [hu, hq] at hp
      cases hp
      exact ⟨q', rfl, hlater⟩
  · exact ⟨p, hp, .refl p⟩

theorem RequestsKept.insert {t : Table Nat AsyncRequest} {r : Nat}
    (q : AsyncRequest) (hr : t.lookup r = none) :
    RequestsKept t (t.insert r q) := by
  intro u p hp
  rw [Table.lookup_insert_if]
  split
  · next hu =>
      rw [hu, hr] at hp
      cases hp
  · exact ⟨p, hp, .refl p⟩

/-- Requests are numbered, and carry the transaction id of their session. -/
structure RequestsKnown (s : AsyncServer) : Prop where
  below : ∀ r q, s.request.lookup r = some q → r < s.requestNum
  named : ∀ r q, s.request.lookup r = some q → q.request.transactionId =
    getTransactionId q.clientInfo.clientId q.clientInfo.sessionId

namespace RequestsKnown

variable {s s' : AsyncServer}

theorem initial : RequestsKnown .initial where
  below := fun _ _ h => by cases (Finmap.lookup_empty _).symm.trans h
  named := fun _ _ h => by cases (Finmap.lookup_empty _).symm.trans h

theorem fresh (h : RequestsKnown s) :
    s.request.lookup s.requestNum = none := by
  cases hq : s.request.lookup s.requestNum with
  | none => rfl
  | some q => exact absurd (h.below _ q hq) (Nat.lt_irrefl _)

theorem update (h : RequestsKnown s) {r : Nat} {q q' : AsyncRequest}
    (hq : s.request.lookup r = some q) (hlater : q.Later q') :
    RequestsKnown { s with request := s.request.insert r q' } where
  below := by
    intro u p hp
    rw [Table.lookup_insert_if] at hp
    split at hp
    · next hu => exact hu ▸ h.below r q hq
    · exact h.below u p hp
  named := by
    intro u p hp
    rw [Table.lookup_insert_if] at hp
    split at hp
    · cases hp
      rw [hlater.clientInfo, hlater.transactionId, h.named r q hq]
    · exact h.named u p hp

theorem endCall (h : RequestsKnown s) (c : Nat) (call : EventCall) :
    RequestsKnown (s.endCall c call) := by
  rcases s.endCall_eq c call with ⟨-, heq⟩ | ⟨q, hq, heq⟩
  · rw [heq]
    exact { h with }
  · rw [heq]
    exact { h.update hq (.answered q) with }

theorem advanced (h : RequestsKnown s) {c : Nat} {call : EventCall}
    (hs : s.Advanced c call s') : RequestsKnown s' := by
  cases hs with
  | notFetched | noListener | notDeleted => exact h.endCall c call
  | fault | fetched | responseSet | listenerFound | noResponse | replied
  | noHandler | handlerFound | recorded | detached => exact { h with }
  | deleted =>
      refine endCall ?_ c call
      exact { h with }

theorem took (h : RequestsKnown s) {i : AsyncStep} (hs : s.Took i s') :
    RequestsKnown s' := by
  cases hs with
  | clients | createEngine | stopThread | transactions | registerListener
  | unregisterListener | addHandler | removeHandler | sendResponse | onEvent =>
      exact { h with }
  | @sendRequest clientInfo algoInfo inputInfo e =>
      refine ⟨fun u p hp => ?_, fun u p hp => ?_⟩
      · rw [Table.lookup_insert_if] at hp
        split at hp
        · next hu => exact hu ▸ Nat.lt_succ_self _
        · exact Nat.lt_succ_of_lt (h.below u p hp)
      · rw [Table.lookup_insert_if] at hp
        split at hp
        · cases hp
          rfl
        · exact h.named u p hp
  | refused hasInstance sequenceId hq =>
      exact { h.update hq (.phase _ (by decide)) with }
  | full hq | queued hq | popped hq | dropped hq =>
      exact { h.update hq (.phase _ (by decide)) with }
  | @processed e r success q engine hq =>
      exact { h.update hq (.phase _ (by cases success <;> decide)) with }
  | numbered hasInstance sequenceId n hq hphase =>
      exact { h.update hq (.numbered hphase n) with }
  | addFuture hq hphase =>
      exact { h.update hq (.phase _ (by decide)) with }
  | processResponse hc hs => exact h.advanced hs

end RequestsKnown

theorem reach_requestsKnown {ok : AsyncServer → AsyncStep → Prop}
    {s : AsyncServer} (hs : asyncMachine.Reach ok s) : RequestsKnown s := by
  refine hs.invariant ?_ ?_
  · rintro s rfl
    exact .initial
  · intro s i s' h _ hstep
    exact h.took (AsyncServer.take_took (asyncMachine_step hstep).2)

namespace AsyncServer

variable {s s' : AsyncServer}

theorem endCall_requests (s : AsyncServer) (c : Nat) (call : EventCall) :
    RequestsKept s.request (s.endCall c call).request := by
  rcases s.endCall_eq c call with ⟨-, heq⟩ | ⟨q, hq, heq⟩
  · rw [heq]
    exact .refl _
  · rw [heq]
    exact .update hq (.answered q)

/-- No step loses a request. -/
theorem Advanced.requests {c : Nat} {call : EventCall}
    (hs : s.Advanced c call s') : RequestsKept s.request s'.request := by
  cases hs with
  | notFetched | noListener | notDeleted => exact s.endCall_requests c call
  | fault | fetched | responseSet | listenerFound | noResponse | replied
  | noHandler | handlerFound | recorded | detached => exact .refl _
  | @deleted n f future response fault =>
      exact endCall_requests { s with
        factory := { s.factory with
          future := s.factory.future.erase f
          futures := s.factory.futures.erase n }
        response
        fault } c call

theorem Took.requests (h : RequestsKnown s) {i : AsyncStep}
    (hs : s.Took i s') : RequestsKept s.request s'.request := by
  cases hs with
  | clients | createEngine | stopThread | transactions | registerListener
  | unregisterListener | addHandler | removeHandler | sendResponse | onEvent =>
      exact .refl _
  | sendRequest => exact .insert _ h.fresh
  | refused hasInstance sequenceId hq =>
      exact .update hq (.phase _ (by decide))
  | full hq | queued hq | popped hq | dropped hq =>
      exact .update hq (.phase _ (by decide))
  | @processed e r success q engine hq =>
      exact .update hq (.phase _ (by cases success <;> decide))
  | numbered hasInstance sequenceId n hq hphase =>
      exact .update hq (.numbered hphase n)
  | addFuture hq hphase => exact .update hq (.phase _ (by decide))
  | processResponse hc hs => exact hs.requests

end AsyncServer

end AiEngine.Ref
