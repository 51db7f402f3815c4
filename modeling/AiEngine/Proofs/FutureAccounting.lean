import AiEngine.Proofs.ResponseRouting

/-!
# Futures and the requests they wait for

A future is made when a request is accepted and deleted when its response was
delivered. A request can end in other ways: the queue has no room for it, its
engine is stopped first, the plugin gives up without a word, or nobody listens
to the answer. None of these deletes the future. Where none of them happens
the futures are those of the requests that still wait for an answer.
-/

namespace AiEngine.Ref

open AiEngine.Lib

/-- A call of `OnEvent` for the request is under way. -/
def AsyncServer.Called (s : AsyncServer) (r : Nat) : Prop :=
  ∃ c call, s.call.lookup c = some call ∧ call.request = r

/-- A request that was accepted waits for an answer: it is on its way to the
plugin, or with it, or the plugin took it and has not answered yet. -/
def AsyncServer.Pending (s : AsyncServer) (r : Nat) (q : AsyncRequest) : Prop :=
  q.answered = false ∧
    (q.phase ∈ [.added, .queued, .processing, .processed] ∨
      q.phase = .failed ∧ s.Called r)

/-- The ids of the futures are those of the requests that wait. -/
structure FuturesAccounted (s : AsyncServer) : Prop where
  sound : s.fault = none
  accounts : ∀ n, n ∈ s.factory.futures ↔ ∃ r q,
    s.request.lookup r = some q ∧ s.Pending r q ∧
      q.request.innerSequenceId = n

/-- The request a worker is at. -/
def WorkerState.request : WorkerState → Option Nat
  | .processing r => some r
  | _ => none

/-- Whether a call is about to look for its listener. -/
def CallPhase.findsListener : CallPhase → Bool
  | .findListener _ => true
  | _ => false

/-- No request ends in a way that leaves its future: the queue has room for
it, it is not dropped, the plugin gives up only on a request it answered or
is answering, and the answer finds a listener. -/
def keepsAccounts (s : AsyncServer) : AsyncStep → Prop
  | .pushBack r =>
      ∀ q ∈ s.request.lookup r, ∀ engine ∈ s.engine.lookup q.engine,
        engine.queue.count < engine.queue.totalNum
  | .clearQueue e =>
      ∀ engine ∈ s.engine.lookup e, engine.queue.blocks = []
  | .asyncProcessed e success =>
      success = false → ∀ engine ∈ s.engine.lookup e,
        ∀ r ∈ engine.worker.request, ∀ q ∈ s.request.lookup r,
          q.answered = true ∨ 0 < Table.countWith (·.request = r) s.call
  | .processResponse c =>
      ∀ call ∈ s.call.lookup c, call.phase.findsListener = true →
        ∀ x ∈ s.response.lookup c,
          s.factory.findListener x.response.transactionId ≠ none
  | _ => True

instance (s : AsyncServer) (i : AsyncStep) : Decidable (keepsAccounts s i) := by
  apply AsyncStep.casesOn (motive := fun i => Decidable (keepsAccounts s i)) i
  all_goals
    intros
    dsimp only [keepsAccounts]
    infer_instance

/-- The objects are kept, and no future is left behind. -/
def keepsAll (s : AsyncServer) (i : AsyncStep) : Prop :=
  keepsObjects s i ∧ keepsAccounts s i

instance (s : AsyncServer) (i : AsyncStep) : Decidable (keepsAll s i) :=
  inferInstanceAs (Decidable (_ ∧ _))

/-! ## Where a request is

A request is with its caller, in the queue of its engine, with its worker, or
done. The queue and the worker are told from the phase, and each step moves
one request. -/

/-- A request is in the queue of its engine, with the worker, or neither, as
its phase says. Only one that was with the plugin has calls and answers, and
these carry its sequence id. -/
structure RequestsPlaced (s : AsyncServer) : Prop where
  queued : ∀ e engine, s.engine.lookup e = some engine →
    engine.queue.blocks.Nodup ∧ ∀ r ∈ engine.queue.blocks,
      ∃ q, s.request.lookup r = some q ∧ q.phase = .queued ∧ q.engine = e
  working : ∀ e engine r, s.engine.lookup e = some engine →
    engine.worker = .processing r →
      ∃ q, s.request.lookup r = some q ∧ q.phase = .processing ∧ q.engine = e
  unanswered : ∀ r q, s.request.lookup r = some q →
    q.phase ∈ [.counted, .numbered, .added, .queued] → q.answered = false
  called : ∀ c call, s.call.lookup c = some call →
    ∃ q, s.request.lookup call.request = some q ∧
      q.phase ∈ [.processing, .processed, .failed]
  answers : ∀ x y, s.response.lookup x = some y →
    ∃ q, s.request.lookup y.request = some q ∧
      q.phase ∉ [.counted, .numbered] ∧
      y.response.innerSequenceId = q.request.innerSequenceId

namespace RequestsPlaced

variable {s s' : AsyncServer}

theorem initial : RequestsPlaced .initial where
  queued := fun _ _ h => by cases (Finmap.lookup_empty _).symm.trans h
  working := fun _ _ _ h => by cases (Finmap.lookup_empty _).symm.trans h
  unanswered := fun _ _ h => by cases (Finmap.lookup_empty _).symm.trans h
  called := fun _ _ h => by cases (Finmap.lookup_empty _).symm.trans h
  answers := fun _ _ h => by cases (Finmap.lookup_empty _).symm.trans h

/-- A request that is in no queue and with no worker of another engine. -/
theorem elsewhere (h : RequestsPlaced s) {r e : Nat} {q : AsyncRequest}
    (hq : s.request.lookup r = some q)
    (hout : q.phase ∉ [.queued, .processing] ∨ q.engine = e) :
    ∀ e' engine, s.engine.lookup e' = some engine → e' ≠ e →
      r ∉ engine.queue.blocks ∧ engine.worker ≠ .processing r := by
  intro e' engine he hne
  constructor
  · intro hr
    obtain ⟨p, hp, hphase, hengine⟩ := (h.queued e' engine he).2 r hr
    rw [hq] at hp
    cases hp
    rcases hout with hout | rfl
    · exact hout (by simp [hphase])
    · exact hne hengine.symm
  · intro hw
    obtain ⟨p, hp, hphase, hengine⟩ := h.working e' engine r he hw
    rw [hq] at hp
    cases hp
    rcases hout with hout | rfl
    · exact hout (by simp [hphase])
    · exact hne hengine.symm

/-- A request changes, with the engines' queues and workers. -/
theorem change (h : RequestsPlaced s) {r : Nat} {q q' : AsyncRequest}
    {engines : Table Nat AsyncEngine} (hq : s.request.lookup r = some q)
    (hlater : q.Later q')
    (hqueued : ∀ e engine, engines.lookup e = some engine →
      engine.queue.blocks.Nodup ∧ ∀ u ∈ engine.queue.blocks,
        ∃ p, (s.request.insert r q').lookup u = some p ∧
          p.phase = .queued ∧ p.engine = e)
    (hworking : ∀ e engine u, engines.lookup e = some engine →
      engine.worker = .processing u →
        ∃ p, (s.request.insert r q').lookup u = some p ∧
          p.phase = .processing ∧ p.engine = e)
    (hanswered : q'.phase ∈ [.counted, .numbered, .added, .queued] →
      q'.answered = false)
    (hcalled : q.phase ∈ [.processing, .processed, .failed] →
      q'.phase ∈ [.processing, .processed, .failed]) :
    RequestsPlaced { s with
      engine := engines
      request := s.request.insert r q' } where
  queued := hqueued
  working := hworking
  unanswered := by
    intro u p hp hphase
    rw [Table.lookup_insert_if] at hp
    split at hp
    · cases hp
      exact hanswered hphase
    · exact h.unanswered u p hp hphase
  called := by
    intro c call hc
    obtain ⟨p, hp, hphase⟩ := h.called c call hc
    rw [Table.lookup_insert_if]
    split
    · next heq =>
        rw [heq, hq] at hp
        cases hp
        exact ⟨q', rfl, hcalled hphase⟩
    · exact ⟨p, hp, hphase⟩
  answers := by
    intro x y hx
    obtain ⟨p, hp, hsent, hid⟩ := h.answers x y hx
    obtain ⟨p', hp', hlater⟩ := RequestsKept.update hq hlater _ p hp
    obtain ⟨hsent', hsame⟩ := hlater.sent hsent
    exact ⟨p', hp', hsent', hsame ▸ hid⟩

theorem move (h : RequestsPlaced s) {r e : Nat} {q q' : AsyncRequest}
    {engine' : AsyncEngine} (hq : s.request.lookup r = some q)
    (hlater : q.Later q')
    (hout : q.phase ∉ [.queued, .processing] ∨ q.engine = e)
    (hqueued : engine'.queue.blocks.Nodup ∧ ∀ u ∈ engine'.queue.blocks,
      ∃ p, (s.request.insert r q').lookup u = some p ∧ p.phase = .queued ∧
        p.engine = e)
    (hworking : ∀ u, engine'.worker = .processing u →
      ∃ p, (s.request.insert r q').lookup u = some p ∧
        p.phase = .processing ∧ p.engine = e)
    (hanswered : q'.phase ∈ [.counted, .numbered, .added, .queued] →
      q'.answered = false)
    (hcalled : q.phase ∈ [.processing, .processed, .failed] →
      q'.phase ∈ [.processing, .processed, .failed]) :
    RequestsPlaced ((s.setEngine e engine').setRequest r q') := by
  refine h.change hq hlater ?_ ?_ hanswered hcalled
  · intro e' engine he
    simp only [AsyncServer.setEngine] at he
    rw [Table.lookup_insert_if] at he
    split at he
    · next heq =>
        cases he
        exact heq ▸ hqueued
    · next hne =>
        obtain ⟨hnodup, hall⟩ := h.queued e' engine he
        refine ⟨hnodup, fun u hu => ?_⟩
        obtain ⟨p, hp, hplace⟩ := hall u hu
        refine ⟨p, ?_, hplace⟩
        rw [Finmap.lookup_insert_of_ne _ ?_, hp]
        rintro rfl
        exact (h.elsewhere hq hout e' engine he hne).1 hu
  · intro e' engine u he hw
    simp only [AsyncServer.setEngine] at he
    rw [Table.lookup_insert_if] at he
    split at he
    · next heq =>
        cases he
        exact heq ▸ hworking u hw
    · next hne =>
        obtain ⟨p, hp, hplace⟩ := h.working e' engine u he hw
        refine ⟨p, ?_, hplace⟩
        rw [Finmap.lookup_insert_of_ne _ ?_, hp]
        rintro rfl
        exact (h.elsewhere hq hout e' engine he hne).2 hw

/-- A request changes that stays where it is, or is nowhere. -/
theorem update (h : RequestsPlaced s) {r : Nat} {q p : AsyncRequest}
    (hq : s.request.lookup r = some q) (hlater : q.Later p)
    (hstays : q.phase ∈ [.queued, .processing] →
      p.phase = q.phase ∧ p.engine = q.engine)
    (hanswered : p.phase ∈ [.counted, .numbered, .added, .queued] →
      p.answered = false)
    (hcalled : q.phase ∈ [.processing, .processed, .failed] →
      p.phase ∈ [.processing, .processed, .failed]) :
    RequestsPlaced { s with request := s.request.insert r p } := by
  have hplaced : ∀ {u e phase},
      phase ∈ ([.queued, .processing] : List RequestPhase) →
      (∃ v, s.request.lookup u = some v ∧ v.phase = phase ∧ v.engine = e) →
      ∃ v, (s.request.insert r p).lookup u = some v ∧ v.phase = phase ∧
        v.engine = e := by
    rintro u e phase hin ⟨v, hv, rfl, rfl⟩
    rw [Table.lookup_insert_if]
    split
    · next heq =>
        rw [heq, hq] at hv
        cases hv
        exact ⟨p, rfl, hstays hin⟩
    · exact ⟨v, hv, rfl, rfl⟩
  refine h.change hq hlater ?_ ?_ hanswered hcalled
  · intro e engine he
    obtain ⟨hnodup, hall⟩ := h.queued e engine he
    exact ⟨hnodup, fun u hu => hplaced (by simp) (hall u hu)⟩
  · intro e engine u he hw
    exact hplaced (by simp) (h.working e engine u he hw)

/-- The calls and the responses change, but not what they are for. -/
theorem calls (h : RequestsPlaced s) {call : Table Nat EventCall}
    {response : Table Nat AsyncResponse}
    (hcalls : ∀ c x, call.lookup c = some x →
      ∃ d y, s.call.lookup d = some y ∧ x.request = y.request)
    (hkept : ResponsesKept s.response response) :
    RequestsPlaced { s with call, response } :=
  { h with
    called := by
      intro c x hc
      obtain ⟨d, y, hd, heq⟩ := hcalls c x hc
      exact heq ▸ h.called d y hd
    answers := by
      intro x y hx
      obtain ⟨z, hz, hreq, hresponse⟩ := hkept x y hx
      rw [hreq, hresponse]
      exact h.answers x z hz }

theorem setCall (h : RequestsPlaced s) {c : Nat} {call : EventCall}
    {phase : CallPhase} (hc : s.call.lookup c = some call)
    {response : Table Nat AsyncResponse}
    (hkept : ResponsesKept s.response response) :
    RequestsPlaced { s.setCall c call phase with response } := by
  refine h.calls (fun d x hd => ?_) hkept
  simp only [AsyncServer.setCall] at hd
  rw [Table.lookup_insert_if] at hd
  split at hd
  · cases hd
    exact ⟨c, call, hc, rfl⟩
  · exact ⟨d, x, hd, rfl⟩

theorem endCall (h : RequestsPlaced s) {c : Nat} {call : EventCall}
    (hc : s.call.lookup c = some call) :
    RequestsPlaced (s.endCall c call) := by
  have hended : RequestsPlaced { s with call := s.call.erase c } := by
    refine h.calls (fun d x hd => ?_) (.refl _)
    rw [Table.lookup_erase_if] at hd
    split at hd
    · cases hd
    · exact ⟨d, x, hd, rfl⟩
  rcases s.endCall_eq c call with ⟨-, heq⟩ | ⟨q, hq, heq⟩
  · rw [heq]
    exact hended
  · rw [heq]
    obtain ⟨p, hp, hphase⟩ := h.called c call hc
    rw [hq] at hp
    cases hp
    refine hended.update hq (.answered q) (fun _ => ⟨rfl, rfl⟩) ?_ id
    intro hnot
    revert hphase hnot
    cases q.phase <;> simp

theorem advanced (h : RequestsPlaced s) {c : Nat} {call : EventCall}
    (hc : s.call.lookup c = some call) (hs : s.Advanced c call s') :
    RequestsPlaced s' := by
  cases hs with
  | fault => exact { h with }
  | notFetched | noListener | notDeleted => exact h.endCall hc
  | fetched | noResponse | noHandler | listenerFound | replied
  | handlerFound => exact h.setCall hc (.refl _)
  | @responseSet f future response fault hphase hf hx =>
      have hkept := (s.destroyResponse_kept future.response).trans
        ((s.destroyResponse future.response).setOwner_kept c (.future f))
      rw [hx] at hkept
      exact { h.setCall hc hkept with }
  | @recorded f n x handler response hphase hn hx =>
      have hkept := s.setOwner_kept x (.handler n)
      rw [AsyncServer.setOwner_live hx] at hkept
      exact { h.setCall hc hkept with }
  | detached => exact { h.setCall hc (.refl _) with }
  | @deleted n f future response fault hphase hn hf hx =>
      have hkept := s.destroyResponse_kept future.response
      rw [hx] at hkept
      refine endCall ?_ hc
      exact { h.calls (fun d x hd => ⟨d, x, hd, rfl⟩) hkept with }

theorem leaveQueue (h : RequestsPlaced s) {e r : Nat} {rs : List Nat}
    {q : AsyncRequest} {engine : AsyncEngine} {phase : RequestPhase}
    {worker : WorkerState} (hq : s.request.lookup r = some q)
    (he : s.engine.lookup e = some engine)
    (hblocks : engine.queue.blocks = r :: rs)
    (hphase : phase ∈ [.processing, .dropped])
    (hw : ∀ u, worker = .processing u → u = r ∧ phase = .processing) :
    RequestsPlaced ((s.setEngine e
      ⟨{ engine.queue with blocks := rs }, worker⟩).setRequest r
        { q with phase }) := by
  obtain ⟨hnodup, hall⟩ := h.queued e engine he
  rw [hblocks] at hnodup hall
  obtain ⟨p, hp, hqueued, hengine⟩ := hall r (by simp)
  rw [hq] at hp
  cases hp
  refine h.move hq (.phase q ?_) (.inr hengine) ⟨hnodup.of_cons, ?_⟩ ?_ ?_ ?_
  · revert hphase
    cases phase <;> simp
  · intro u hu
    have hne : u ≠ r := by
      rintro rfl
      exact (List.nodup_cons.mp hnodup).1 hu
    rw [Finmap.lookup_insert_of_ne _ hne]
    exact hall u (by simp [hu])
  · intro u hu
    obtain ⟨rfl, rfl⟩ := hw u hu
    exact ⟨_, Finmap.lookup_insert _, rfl, hengine⟩
  · intro hin
    revert hphase hin
    cases phase <;> simp
  · simp [hqueued]

theorem createEngine (h : RequestsPlaced s) (singleQueueCapacity : Nat) :
    RequestsPlaced (s.createEngine singleQueueCapacity) := by
  refine { h with queued := ?_, working := ?_ }
  · intro e engine he
    simp only [AsyncServer.createEngine] at he
    rw [Table.lookup_insert_if] at he
    split at he
    · cases he
      simp [Queue.new]
    · exact h.queued e engine he
  · intro e engine r he hw
    simp only [AsyncServer.createEngine] at he
    rw [Table.lookup_insert_if] at he
    split at he
    · cases he
      cases hw
    · exact h.working e engine r he hw

theorem stopThread (h : RequestsPlaced s) {e : Nat} {engine : AsyncEngine}
    (he : s.engine.lookup e = some engine) :
    RequestsPlaced (s.setEngine e { engine with worker := .stopped }) := by
  refine { h with queued := ?_, working := ?_ }
  · intro e' other he'
    simp only [AsyncServer.setEngine] at he'
    rw [Table.lookup_insert_if] at he'
    split at he'
    · next heq =>
        cases he'
        exact heq ▸ h.queued e engine he
    · exact h.queued e' other he'
  · intro e' other r he' hw'
    simp only [AsyncServer.setEngine] at he'
    rw [Table.lookup_insert_if] at he'
    split at he'
    · cases he'
      cases hw'
    · exact h.working e' other r he' hw'

theorem sendRequest (h : RequestsPlaced s) (hk : RequestsKnown s)
    {q : AsyncRequest} (hanswered : q.answered = false) :
    RequestsPlaced { s with
      request := s.request.insert s.requestNum q
      requestNum := s.requestNum + 1 } := by
  have hkeep : ∀ {u p}, s.request.lookup u = some p →
      (s.request.insert s.requestNum q).lookup u = some p := by
    intro u p hp
    rw [Finmap.lookup_insert_of_ne _ ?_, hp]
    rintro rfl
    rw [hk.fresh] at hp
    cases hp
  refine ⟨?_, ?_, ?_, ?_, ?_⟩
  · intro e' engine he
    obtain ⟨hnodup, hall⟩ := h.queued e' engine he
    refine ⟨hnodup, fun u hu => ?_⟩
    obtain ⟨p, hp, hplace⟩ := hall u hu
    exact ⟨p, hkeep hp, hplace⟩
  · intro e' engine u he hw
    obtain ⟨p, hp, hplace⟩ := h.working e' engine u he hw
    exact ⟨p, hkeep hp, hplace⟩
  · intro u p hp hphase
    rw [Table.lookup_insert_if] at hp
    split at hp
    · cases hp
      exact hanswered
    · exact h.unanswered u p hp hphase
  · intro c call hc
    obtain ⟨p, hp, hphase⟩ := h.called c call hc
    exact ⟨p, hkeep hp, hphase⟩
  · intro x y hx
    obtain ⟨p, hp, hsent⟩ := h.answers x y hx
    exact ⟨p, hkeep hp, hsent⟩

/-- A request that was in no queue is the last of one. -/
theorem pushBack (h : RequestsPlaced s) {r : Nat} {q : AsyncRequest}
    {engine : AsyncEngine} (hq : s.request.lookup r = some q)
    (hphase : q.phase = .added) (he : s.engine.lookup q.engine = some engine) :
    RequestsPlaced ((s.setEngine q.engine { engine with queue :=
      { engine.queue with blocks := engine.queue.blocks ++ [r] } }).setRequest r
        { q with phase := .queued }) := by
  obtain ⟨hnodup, hall⟩ := h.queued _ engine he
  have hout : r ∉ engine.queue.blocks := by
    intro hr
    obtain ⟨p, hp, hqueued, -⟩ := hall r hr
    rw [hq] at hp
    cases hp
    rw [hphase] at hqueued
    cases hqueued
  refine h.move hq (.phase q (by decide)) (.inr rfl) ⟨?_, ?_⟩ ?_ ?_ ?_
  · exact List.concat_eq_append ▸ hnodup.concat hout
  · intro u hin
    rcases List.mem_append.mp hin with hu | hu
    · have hne : u ≠ r := fun heq => hout (heq ▸ hu)
      rw [Finmap.lookup_insert_of_ne _ hne]
      exact hall u hu
    · rw [List.mem_singleton.mp hu]
      exact ⟨_, Finmap.lookup_insert _, rfl, rfl⟩
  · intro u hw
    obtain ⟨p, hp, hplace⟩ := h.working _ engine u he hw
    refine ⟨p, ?_, hplace⟩
    rw [Finmap.lookup_insert_of_ne _ ?_, hp]
    rintro rfl
    rw [hq] at hp
    cases hp
    rw [hphase] at hplace
    cases hplace.1
  · intro _
    exact h.unanswered r q hq (by simp [hphase])
  · simp [hphase]

theorem asyncProcessed (h : RequestsPlaced s) {e r : Nat} (success : Bool)
    {q : AsyncRequest} {engine : AsyncEngine}
    (hq : s.request.lookup r = some q) (he : s.engine.lookup e = some engine)
    (hw : engine.worker = .processing r) :
    RequestsPlaced ((s.setEngine e { engine with worker := .idle }).setRequest r
      { q with phase := if success then .processed else .failed }) := by
  obtain ⟨p, hp, hphase, hengine⟩ := h.working e engine r he hw
  rw [hq] at hp
  cases hp
  refine h.move hq (.phase q (by cases success <;> decide)) (.inr hengine)
    ?_ (by rintro u ⟨⟩) (by cases success <;> simp)
    (by cases success <;> simp)
  obtain ⟨hnodup, hall⟩ := h.queued e engine he
  refine ⟨hnodup, fun u hu => ?_⟩
  obtain ⟨p, hp, hqueued, hplace⟩ := hall u hu
  refine ⟨p, ?_, hqueued, hplace⟩
  rw [Finmap.lookup_insert_of_ne _ ?_, hp]
  rintro rfl
  rw [hq] at hp
  cases hp
  rw [hphase] at hqueued
  cases hqueued

/-- A call and its response are for the request they were made for. -/
theorem onEvent (h : RequestsPlaced s) {r c : Nat} {q : AsyncRequest}
    {call : EventCall} {response : AsyncResponse} {callNum : Nat}
    (hq : s.request.lookup r = some q)
    (hphase : q.phase ∈ [.processing, .processed, .failed])
    (hcall : call.request = r) (hrequest : response.request = r)
    (hid : response.response.innerSequenceId = q.request.innerSequenceId) :
    RequestsPlaced { s with
      response := s.response.insert c response
      call := s.call.insert c call
      callNum } := by
  refine { h with called := ?_, answers := ?_ }
  · intro d other hd
    rw [Table.lookup_insert_if] at hd
    split at hd
    · cases hd
      exact ⟨q, hcall ▸ hq, hphase⟩
    · exact h.called d other hd
  · intro x y hx
    rw [Table.lookup_insert_if] at hx
    split at hx
    · cases hx
      refine ⟨q, hrequest ▸ hq, ?_, hid⟩
      revert hphase
      cases q.phase <;> simp
    · exact h.answers x y hx

theorem took (h : RequestsPlaced s) (hk : RequestsKnown s) {i : AsyncStep}
    (hs : s.Took i s') : RequestsPlaced s' := by
  cases hs with
  | clients | transactions | registerListener | unregisterListener
  | addHandler => exact { h with }
  | createEngine => exact h.createEngine _
  | stopThread he => exact h.stopThread he
  | sendRequest => exact h.sendRequest hk rfl
  | @refused i r q hasInstance sequenceId hq hphase =>
      refine { h.update (p := { q with phase := .refused }) hq
        (.phase q (by decide)) ?_ (by simp) ?_ with }
      all_goals
        revert hphase
        cases q.phase <;> simp
  | @full r q engine hq hphase =>
      exact h.update (p := { q with phase := .refused }) hq
        (.phase q (by decide)) (by simp [hphase]) (by simp) (by simp [hphase])
  | queued hq hphase he => exact h.pushBack hq hphase he
  | popped hq he hw hblocks =>
      refine h.leaveQueue hq he hblocks (by simp) ?_
      rintro u ⟨⟩
      exact ⟨rfl, rfl⟩
  | processed hq he hw => exact h.asyncProcessed _ hq he hw
  | dropped hq he hw hblocks =>
      refine h.leaveQueue hq he hblocks (by simp) ?_
      rw [hw]
      rintro u ⟨⟩
  | @numbered i r q hasInstance sequenceId n hq hphase =>
      exact { h.update (p := { q with
          request := { q.request with innerSequenceId := n }
          phase := .numbered }) hq (.numbered hphase n) (by simp [hphase])
        (fun _ => h.unanswered r q hq (by simp [hphase]))
        (by simp [hphase]) with }
  | @addFuture r q hq hphase =>
      exact { h.update (p := { q with phase := .added }) hq
        (.phase q (by decide)) (by simp [hphase])
        (fun _ => h.unanswered r q hq (by simp [hphase]))
        (by simp [hphase]) with }
  | @removeHandler clientId n response fault hn hx =>
      have hkept := s.destroyResponses_kept
        ((s.asyncHandler.handler.lookup n).elim [] (·.responses))
      rw [hx] at hkept
      exact { h.calls (fun d x hd => ⟨d, x, hd, rfl⟩) hkept with }
  | @sendResponse i n x xs handler response fault hn hxs hx =>
      have hkept := s.destroyResponse_kept (some x)
      rw [hx] at hkept
      exact { h.calls (fun d x hd => ⟨d, x, hd, rfl⟩) hkept with }
  | onEvent hq hphase => exact h.onEvent hq hphase rfl rfl rfl
  | processResponse hc ht => exact h.advanced hc ht

end RequestsPlaced

theorem reach_requestsPlaced {ok : AsyncServer → AsyncStep → Prop}
    {s : AsyncServer} (hs : asyncMachine.Reach ok s) : RequestsPlaced s := by
  refine hs.invariant_of (fun _ => reach_requestsKnown) ?_ ?_
  · rintro s rfl
    exact .initial
  · intro s i s' hk h _ hstep
    exact h.took hk (AsyncServer.take_took (asyncMachine_step hstep).2)

/-! ## Which requests have a future

A future is made for a request when it is added, and goes when its answer has
been passed on. In between it is what says that the request waits. -/

/-- The request was accepted and no answer to it has returned. -/
def AsyncRequest.Awaited (q : AsyncRequest) : Prop :=
  q.answered = false ∧
    q.phase ∈ [.added, .queued, .processing, .processed, .failed]

/-- The requests that wait are those with a future. The plugin gave up on
none of them without a call that is still under way. -/
structure FuturesMatched (s : AsyncServer) : Prop where
  agree : ∀ r, (∃ q, s.request.lookup r = some q ∧ q.Awaited) ↔
    ∃ f x, s.factory.future.lookup f = some x ∧ x.request = r
  failed : ∀ r q, s.request.lookup r = some q → q.phase = .failed →
    q.answered = true ∨ s.Called r

namespace FuturesMatched

variable {s s' : AsyncServer}

theorem initial : FuturesMatched .initial where
  agree := by
    intro r
    constructor
    · rintro ⟨q, hq, -⟩
      cases (Finmap.lookup_empty _).symm.trans hq
    · rintro ⟨f, x, hf, -⟩
      cases (Finmap.lookup_empty _).symm.trans hf
  failed := fun _ _ h => by cases (Finmap.lookup_empty _).symm.trans h

/-- A request changes that goes on waiting if it waited, and only then. -/
theorem update (h : FuturesMatched s) {r : Nat} {q p : AsyncRequest}
    (hq : s.request.lookup r = some q) (hsame : p.Awaited ↔ q.Awaited)
    (hfailed : p.phase = .failed → p.answered = true ∨ s.Called r) :
    FuturesMatched { s with request := s.request.insert r p } where
  agree := by
    intro u
    rw [← h.agree u]
    simp only [Table.lookup_insert_if]
    by_cases hu : u = r
    · subst hu
      simp [hq, hsame]
    · simp [hu]
  failed := by
    intro u v hv hphase
    rw [Table.lookup_insert_if] at hv
    split at hv
    · next hu =>
        cases hv
        exact hu ▸ hfailed hphase
    · exact h.failed u v hv hphase

/-- The calls change, and every request that was called still is. -/
theorem calls (h : FuturesMatched s) {call : Table Nat EventCall}
    (hcalls : ∀ r, s.Called r → ({ s with call } : AsyncServer).Called r) :
    FuturesMatched { s with call } :=
  { h with
    failed := fun r q hq hphase => (h.failed r q hq hphase).imp id (hcalls r) }

theorem setCall (h : FuturesMatched s) {c : Nat} {call : EventCall}
    {phase : CallPhase} (hc : s.call.lookup c = some call) :
    FuturesMatched (s.setCall c call phase) := by
  refine h.calls ?_
  rintro r ⟨d, other, hd, rfl⟩
  by_cases hdc : d = c
  · rw [hdc, hc] at hd
    cases hd
    exact ⟨c, _, Finmap.lookup_insert _, rfl⟩
  · exact ⟨d, other, by rw [Finmap.lookup_insert_of_ne _ hdc, hd], rfl⟩

theorem setFuture (h : FuturesMatched s) {f : Nat} {x y : Future}
    (hf : s.factory.future.lookup f = some x) (hr : y.request = x.request) :
    FuturesMatched (s.setFuture f y) := by
  refine { h with agree := fun r => (h.agree r).trans ?_ }
  simp only [AsyncServer.setFuture, Table.lookup_insert_if]
  constructor
  · rintro ⟨g, z, hg, rfl⟩
    by_cases hgf : g = f
    · rw [hgf, hf] at hg
      cases hg
      exact ⟨f, y, if_pos rfl, hr⟩
    · exact ⟨g, z, (if_neg hgf).trans hg, rfl⟩
  · rintro ⟨g, z, hg, rfl⟩
    split at hg
    · cases hg
      exact ⟨f, x, hf, hr.symm⟩
    · exact ⟨g, z, hg, rfl⟩

/-- A call ends for a request that has no future any longer. -/
theorem endCall {c : Nat} {call : EventCall}
    (hc : s.call.lookup c = some call)
    (hagree : ∀ r, r ≠ call.request →
      ((∃ q, s.request.lookup r = some q ∧ q.Awaited) ↔
        ∃ f x, s.factory.future.lookup f = some x ∧ x.request = r))
    (hnone : ∀ f x, s.factory.future.lookup f = some x →
      x.request ≠ call.request)
    (hfailed : ∀ r q, s.request.lookup r = some q → q.phase = .failed →
      q.answered = true ∨ s.Called r) :
    FuturesMatched (s.endCall c call) := by
  have hcalled : ∀ r, r ≠ call.request → s.Called r →
      ∃ d other, (s.call.erase c).lookup d = some other ∧
        other.request = r := by
    rintro r hne ⟨d, other, hd, rfl⟩
    refine ⟨d, other, ?_, rfl⟩
    rw [Finmap.lookup_erase_ne ?_, hd]
    rintro rfl
    rw [hc] at hd
    cases hd
    exact hne rfl
  have hlost : ∀ r, r = call.request →
      ¬ ∃ f x, s.factory.future.lookup f = some x ∧ x.request = r := by
    rintro r rfl ⟨f, x, hf, hr⟩
    exact hnone f x hf hr
  rcases s.endCall_eq c call with ⟨hq, heq⟩ | ⟨q, hq, heq⟩
  · rw [heq]
    refine ⟨fun r => ?_, fun r p hp hphase => ?_⟩
    · by_cases hr : r = call.request
      · refine iff_of_false ?_ (hlost r hr)
        rintro ⟨p, hp, -⟩
        rw [hr, hq] at hp
        cases hp
      · exact hagree r hr
    · refine (hfailed r p hp hphase).imp id (hcalled r ?_)
      rintro rfl
      rw [hq] at hp
      cases hp
  · rw [heq]
    refine ⟨fun r => ?_, fun r p hp hphase => ?_⟩
    · dsimp only
      rw [Table.lookup_insert_if]
      split
      · next hr =>
          refine iff_of_false ?_ (hlost r hr)
          rintro ⟨p, hp, hawaited⟩
          cases hp
          cases hawaited.1
      · next hr => exact hagree r hr
    · rw [Table.lookup_insert_if] at hp
      split at hp
      · cases hp
        exact .inl rfl
      · next hr => exact (hfailed r p hp hphase).imp id (hcalled r hr)

/-- A call that finds no future is for a request that has none. -/
theorem notFetched (hfut : FuturesLive s) (hplaced : RequestsPlaced s)
    {c : Nat} {call : EventCall} {x : AsyncResponse}
    (hcarries : s.Brought c call) (hx : s.response.lookup c = some x)
    (hnone : s.factory.futures.lookup x.response.innerSequenceId = none) :
    ∀ f y, s.factory.future.lookup f = some y →
      y.request ≠ call.request := by
  intro f y hf hreq
  obtain ⟨x', hx', -, hxr⟩ := hcarries
  rw [hx] at hx'
  cases hx'
  obtain ⟨q, hq, -, hid⟩ := hplaced.answers c x hx
  obtain ⟨hlisted, p, hp, -, hpid⟩ := hfut.listed f y hf
  rw [hreq, ← hxr, hq] at hp
  cases hp
  rw [hid, hpid, hlisted] at hnone
  cases hnone

theorem advanced (h : FuturesMatched s) (hfut : FuturesLive s)
    (hown : ResponsesOwned s) (hplaced : RequestsPlaced s) {c : Nat}
    {call : EventCall} (hc : s.call.lookup c = some call)
    (hok : keepsAccounts s (.processResponse c))
    (hs : s.Advanced c call s') : FuturesMatched s' := by
  have hcarries := hown.carries c call hc
  simp only [AsyncServer.Carries] at hcarries
  cases hs with
  | fault => exact { h with }
  | @notFetched x hphase hx hf =>
      rw [hphase] at hcarries
      exact endCall hc (fun r _ => h.agree r)
        (notFetched hfut hplaced hcarries hx hf) h.failed
  | noListener hphase hx hl =>
      exact absurd hl (hok call hc (by rw [hphase]; rfl) _ hx)
  | fetched | noResponse | noHandler | listenerFound | replied
  | handlerFound => exact h.setCall hc
  | @responseSet f future response fault hphase hf =>
      let set := { future with
        status := convertPluginStatus call.event
        response := some c }
      have hset : FuturesMatched
          ((s.setFuture f set).setCall c call (.findListener f)) :=
        (h.setFuture (y := set) hf rfl).setCall hc
      exact { hset with }
  | recorded => exact { h.setCall hc with }
  | @detached f future hphase hf =>
      exact (h.setFuture (y := { future with response := none }) hf rfl).setCall
        hc
  | notDeleted hphase hn =>
      obtain ⟨f, x, hf, -⟩ := hfut.atWork c call hc (by simp [hphase])
      rw [hphase, AsyncServer.futureAt, hn] at hf
      cases hf
  | @deleted n f future response fault hphase hn hf hx =>
      obtain ⟨g, x, hg, hx, hreq⟩ := hfut.atWork c call hc (by simp [hphase])
      rw [hphase, AsyncServer.futureAt, hn] at hg
      cases hg
      refine endCall hc ?_ ?_ h.failed
      · intro r hne
        refine (h.agree r).trans ?_
        simp only [Table.lookup_erase_if]
        constructor
        · rintro ⟨g, y, hg, rfl⟩
          refine ⟨g, y, ?_, rfl⟩
          rw [if_neg ?_, hg]
          rintro rfl
          rw [hx] at hg
          cases hg
          exact hne hreq
        · rintro ⟨g, y, hg, rfl⟩
          split at hg
          · cases hg
          · exact ⟨g, y, hg, rfl⟩
      · intro g y hg heq
        simp only [Table.lookup_erase_if] at hg
        split at hg
        · cases hg
        · next hgf => exact hgf (hfut.sole g f y x hg hx (heq.trans hreq.symm))

/-- A request that no longer waits, or goes on waiting, moves. -/
theorem move (h : FuturesMatched s) {r : Nat} {q : AsyncRequest}
    (phase : RequestPhase) (hq : s.request.lookup r = some q)
    (hsame : ({ q with phase } : AsyncRequest).Awaited ↔ q.Awaited)
    (hfailed : phase ≠ .failed) :
    FuturesMatched { s with request := s.request.insert r { q with phase } } :=
  h.update hq hsame fun heq => absurd heq hfailed

theorem addFuture (h : FuturesMatched s) (hfut : FuturesLive s) (r : Nat)
    {q : AsyncRequest} (hanswered : q.answered = false) :
    FuturesMatched { s with
      factory := s.factory.addFuture q.request.innerSequenceId r
        q.request.transactionId
      request := s.request.insert r { q with phase := .added } } where
  agree := by
    intro u
    simp only [FutureFactory.addFuture, Table.lookup_insert_if]
    by_cases hu : u = r
    · refine iff_of_true ?_ ?_
      · exact ⟨_, if_pos hu, hanswered, by simp⟩
      · exact ⟨_, _, if_pos rfl, hu.symm⟩
    · simp only [if_neg hu]
      refine (h.agree u).trans ⟨?_, ?_⟩
      · rintro ⟨f, x, hf, rfl⟩
        refine ⟨f, x, ?_, rfl⟩
        have hlt := hfut.futures.below f (Table.mem_of_lookup hf)
        rw [if_neg (Nat.ne_of_lt hlt), hf]
      · rintro ⟨f, x, hf, rfl⟩
        split at hf
        · cases hf
          exact absurd rfl hu
        · exact ⟨f, x, hf, rfl⟩
  failed := by
    intro u p hp hfailed
    rw [Table.lookup_insert_if] at hp
    split at hp
    · cases hp
      cases hfailed
    · exact h.failed u p hp hfailed

theorem sendRequest (h : FuturesMatched s) (hk : RequestsKnown s)
    {q : AsyncRequest} (hphase : q.phase = .counted) :
    FuturesMatched { s with
      request := s.request.insert s.requestNum q
      requestNum := s.requestNum + 1 } := by
  refine ⟨fun r => (Iff.trans ?_ (h.agree r)), fun r p hp hfailed => ?_⟩
  · dsimp only
    rw [Table.lookup_insert_if]
    split
    · next hr =>
        refine iff_of_false ?_ ?_
        · rintro ⟨p, hp, -, hin⟩
          cases hp
          simp [hphase] at hin
        · rintro ⟨p, hp, -⟩
          rw [hr, hk.fresh] at hp
          cases hp
    · exact .rfl
  · rw [Table.lookup_insert_if] at hp
    split at hp
    · cases hp
      rw [hphase] at hfailed
      cases hfailed
    · exact h.failed r p hp hfailed

/-- The plugin has reported to a request, in a call of its own. -/
theorem onEvent (h : FuturesMatched s) (hown : ResponsesOwned s)
    {call : EventCall} {response : AsyncResponse} {callNum : Nat} :
    FuturesMatched { s with
      response := s.response.insert s.callNum response
      call := s.call.insert s.callNum call
      callNum } := by
  refine { h.calls ?_ with }
  rintro r ⟨d, other, hd, rfl⟩
  refine ⟨d, other, ?_, rfl⟩
  dsimp only
  rw [Finmap.lookup_insert_of_ne _ ?_, hd]
  rintro rfl
  exact Nat.lt_irrefl _ (hown.callBelow _ (Table.mem_of_lookup hd))

theorem took (h : FuturesMatched s) (hlive : ObjectsLive s)
    (hown : ResponsesOwned s) (hplaced : RequestsPlaced s) {i : AsyncStep}
    (hok : keepsAccounts s i) (hs : s.Took i s') : FuturesMatched s' := by
  cases hs with
  | clients | createEngine | stopThread | transactions | registerListener
  | unregisterListener | addHandler | removeHandler | sendResponse =>
      exact { h with }
  | sendRequest => exact h.sendRequest hlive.requests rfl
  | @refused i r q hasInstance sequenceId hq hphase =>
      refine { h.move .refused hq ?_ (by decide) with }
      revert hphase
      cases hp : q.phase <;> simp [AsyncRequest.Awaited, hp]
  | full hq hphase he hfull =>
      have hroom := hok _ hq _ he
      omega
  | @queued r q engine hq hphase he =>
      exact { h.move .queued hq
        (by simp [AsyncRequest.Awaited, hphase]) (by decide) with }
  | @popped e r rs q engine hq he hw hblocks =>
      obtain ⟨p, hp, hphase, -⟩ :=
        (hplaced.queued e engine he).2 r (by simp [hblocks])
      rw [hq] at hp
      cases hp
      exact { h.move .processing hq
        (by simp [AsyncRequest.Awaited, hphase]) (by decide) with }
  | @processed e r success q engine hq he hw =>
      obtain ⟨p, hp, hphase, -⟩ := hplaced.working e engine r he hw
      rw [hq] at hp
      cases hp
      cases success with
      | true =>
          exact { h.move .processed hq
            (by simp [AsyncRequest.Awaited, hphase]) (by decide) with }
      | false =>
          have hanswer := hok rfl engine he r (by rw [hw]; rfl) q hq
          refine { h.update (p := { q with phase := .failed }) hq
            (by simp [AsyncRequest.Awaited, hphase]) ?_ with }
          exact fun _ => hanswer.imp id (Table.countWith_pos _).mp
  | dropped hq he hw hblocks =>
      rw [hok _ he] at hblocks
      cases hblocks
  | @numbered i r q hasInstance sequenceId n hq hphase =>
      exact { h.update (p := { q with
          request := { q.request with innerSequenceId := n }
          phase := .numbered }) hq
        (by simp [AsyncRequest.Awaited, hphase]) (by rintro ⟨⟩) with }
  | @addFuture r q hq hphase =>
      exact h.addFuture hlive.futures r
        (hplaced.unanswered r q hq (by simp [hphase]))
  | onEvent => exact h.onEvent hown
  | processResponse hc ht =>
      exact h.advanced hlive.futures hown hplaced hc hok ht

end FuturesMatched

/-- In runs whose steps keep what is in use and leave no future behind, the
requests that wait are those with a future. -/
theorem reach_futuresMatched {s : AsyncServer}
    (hs : asyncMachine.Reach keepsAll s) : FuturesMatched s := by
  have hbase : ∀ s, asyncMachine.Reach keepsAll s →
      ObjectsLive s ∧ ResponsesOwned s ∧ RequestsPlaced s := by
    intro s hs
    have hkeeps : asyncMachine.Reach keepsObjects s := hs.mono fun _ _ h => h.1
    exact ⟨reach_objectsLive hkeeps, reach_responsesOwned hkeeps,
      reach_requestsPlaced hs⟩
  refine hs.invariant_of hbase ?_ ?_
  · rintro s rfl
    exact .initial
  · rintro s i s' ⟨hlive, hown, hplaced⟩ h hok hstep
    exact h.took hlive hown hplaced hok.2
      (AsyncServer.take_took (asyncMachine_step hstep).2)

/-- An accepted request that waits is pending: where the plugin gave up on
it, a call is under way. -/
theorem FuturesMatched.pending {s : AsyncServer} (h : FuturesMatched s)
    {r : Nat} {q : AsyncRequest} (hq : s.request.lookup r = some q) :
    s.Pending r q ↔ q.Awaited := by
  have hfailed := h.failed r q hq
  unfold AsyncServer.Pending AsyncRequest.Awaited
  cases hphase : q.phase <;> simp [hphase] at hfailed ⊢
  intro hanswered
  exact hfailed.resolve_left (by simp [hanswered])

/-- Where no request ends in a way that leaves its future, the futures are
those of the requests that wait for an answer. -/
theorem reach_futuresAccounted {s : AsyncServer}
    (hs : asyncMachine.Reach keepsAll s) : FuturesAccounted s := by
  have hkeeps : asyncMachine.Reach keepsObjects s := hs.mono fun _ _ h => h.1
  have hfut := (reach_objectsLive hkeeps).futures
  have hmatched := reach_futuresMatched hs
  refine ⟨(reach_responsesOwned hkeeps).sound, fun n => ⟨fun hn => ?_, ?_⟩⟩
  · obtain ⟨f, hf⟩ := Finmap.mem_iff.mp hn
    obtain ⟨x, hx⟩ := Finmap.mem_iff.mp (hfut.futures.listed n f hf)
    obtain ⟨-, p, hp, -, hid⟩ := hfut.listed f x hx
    obtain ⟨q, hq, hawaited⟩ := (hmatched.agree x.request).mpr ⟨f, x, hx, rfl⟩
    rw [hp] at hq
    cases hq
    exact ⟨x.request, p, hp, (hmatched.pending hp).mpr hawaited,
      hid.trans (hfut.sequenceId_eq hf hx)⟩
  · rintro ⟨r, q, hq, hpending, rfl⟩
    obtain ⟨f, x, hx, rfl⟩ := (hmatched.agree r).mp
      ⟨q, hq, (hmatched.pending hq).mp hpending⟩
    obtain ⟨hlisted, p, hp, -, hid⟩ := hfut.listed f x hx
    rw [hq] at hp
    cases hp
    exact hid ▸ Table.mem_of_lookup hlisted

set_option maxRecDepth 4000 in
theorem reach_futuresAccounted_sample : ∃ s,
    asyncMachine.run keepsAll .initial asyncDelivered = some s ∧
      FuturesAccounted s := by
  have hrun : (asyncMachine.run keepsAll .initial asyncDelivered).isSome := by
    decide
  obtain ⟨s, hs⟩ := Option.isSome_iff_exists.mp hrun
  exact ⟨s, hs, reach_futuresAccounted (.of_run (.start rfl) hs)⟩

/-- The plugin gives up on a request without a word. -/
def asyncFailed : List AsyncStep :=
  asyncSample.dropLast ++ [.asyncProcessed 0 false]

set_option maxRecDepth 4000 in
/-- The future of the request stays. -/
theorem asyncFailed_not_futuresAccounted :
    ∃ s, asyncMachine.Reach keepsObjects s ∧ ¬ FuturesAccounted s := by
  have hrun : (asyncMachine.run keepsObjects .initial asyncFailed).map
      (fun s => (decide (1 ∈ s.factory.futures),
        Table.countWith (fun q => q.phase ≠ .failed) s.request,
        Table.countWith (fun _ => True) s.call)) = some (true, 0, 0) := by
    decide
  obtain ⟨s, hs, heq⟩ := Option.map_eq_some_iff.mp hrun
  obtain ⟨hin, heq⟩ := Prod.mk.inj heq
  obtain ⟨hphase, hcalls⟩ := Prod.mk.inj heq
  refine ⟨s, .of_run (.start rfl) hs, fun h => ?_⟩
  obtain ⟨r, q, hq, hpending, -⟩ := (h.accounts 1).mp (of_decide_eq_true hin)
  have hfailed := (Table.countWith_eq_zero _).mp hphase r q hq
  rcases hpending.2 with hwaits | ⟨-, c, call, hc, -⟩
  · rw [not_not.mp hfailed] at hwaits
    simp at hwaits
  · exact (Table.countWith_eq_zero _).mp hcalls c call hc trivial

end AiEngine.Ref
