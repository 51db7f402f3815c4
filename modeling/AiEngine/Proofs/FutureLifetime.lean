import AiEngine.Lib.Registry
import AiEngine.Proofs.AsyncRequests

/-!
# The lives of futures

`FetchFuture` hands out a pointer too, and the call that got it deletes the
future itself. What can go wrong is that two calls work on one future. They do
when a plugin reports twice on one request and the calls overlap, or when a
sequence id comes back, after 2^63 requests, while its future is still there.

Apart from that each call past its lookup works on a future of its own
request, which no other call does.
-/

namespace AiEngine.Ref

open AiEngine.Lib

/-- The future `FetchFuture` finds for call `c`. -/
def AsyncServer.fetches (s : AsyncServer) (c : Nat) : Option Nat :=
  (s.response.lookup c).bind fun x =>
    s.factory.fetchFuture x.response.innerSequenceId

/-- Futures are added under ids that have none, and a call finds the future
of its own request, while no other call for the request is past its lookup. -/
def keepsFutures (s : AsyncServer) : AsyncStep → Prop
  | .addFuture newFuture r =>
      newFuture = true → ∀ q ∈ s.request.lookup r,
        s.factory.fetchFuture q.request.innerSequenceId = none
  | .processResponse c =>
      ∀ call ∈ s.call.lookup c, call.phase = .fetchFuture →
        ∀ f ∈ s.fetches c,
          (s.factory.future.lookup f).map (·.request) = some call.request ∧
            Table.countWith (fun other => other.request = call.request ∧
              other.phase ≠ .fetchFuture) s.call = 0
  | _ => True

instance (s : AsyncServer) (i : AsyncStep) : Decidable (keepsFutures s i) := by
  unfold keepsFutures
  split <;> infer_instance

/-- The map is a registry, each future belongs to a request that has its id,
no other future does, and a call past its lookup works on the future of its
request alone. -/
structure FuturesLive (s : AsyncServer) : Prop where
  futures : Registry s.factory.futures s.factory.future s.factory.futureNum
  listed : ∀ f x, s.factory.future.lookup f = some x →
    s.factory.futures.lookup x.sequenceId = some f ∧
      ∃ q, s.request.lookup x.request = some q ∧
        q.phase ∉ [.counted, .numbered] ∧
        q.request.innerSequenceId = x.sequenceId
  sole : ∀ f g x y, s.factory.future.lookup f = some x →
    s.factory.future.lookup g = some y → x.request = y.request → f = g
  atWork : ∀ c call, s.call.lookup c = some call →
    call.phase ≠ .fetchFuture → ∃ f x, s.futureAt call.phase = some f ∧
      s.factory.future.lookup f = some x ∧ x.request = call.request
  alone : ∀ c d call other, s.call.lookup c = some call →
    s.call.lookup d = some other → call.phase ≠ .fetchFuture →
    other.phase ≠ .fetchFuture → call.request = other.request → c = d

namespace FuturesLive

variable {s s' : AsyncServer}

theorem initial : FuturesLive .initial where
  futures := .empty
  listed := fun _ _ h => by cases (Finmap.lookup_empty _).symm.trans h
  sole := fun _ _ _ _ h => by cases (Finmap.lookup_empty _).symm.trans h
  atWork := fun _ _ h => by cases (Finmap.lookup_empty _).symm.trans h
  alone := fun _ _ _ _ h => by cases (Finmap.lookup_empty _).symm.trans h

theorem later (h : FuturesLive s) {request : Table Nat AsyncRequest}
    (hkept : RequestsKept s.request request) :
    FuturesLive { s with request } :=
  { h with
    listed := by
      intro f x hf
      obtain ⟨hlisted, q, hq, hsent, hid⟩ := h.listed f x hf
      obtain ⟨q', hq', hlater⟩ := hkept _ q hq
      obtain ⟨hsent', hsame⟩ := hlater.sent hsent
      exact ⟨hlisted, q', hq', hsent', hsame ▸ hid⟩ }

theorem sequenceId_eq (h : FuturesLive s) {n : Int} {f : Nat} {x : Future}
    (hn : s.factory.futures.lookup n = some f)
    (hf : s.factory.future.lookup f = some x) : x.sequenceId = n :=
  h.futures.single _ _ f (h.listed f x hf).1 hn

theorem setFuture (h : FuturesLive s) {f : Nat} {x y : Future}
    (hf : s.factory.future.lookup f = some x) (hr : y.request = x.request)
    (hn : y.sequenceId = x.sequenceId) : FuturesLive (s.setFuture f y) := by
  have hsame : ∀ g z, (s.setFuture f y).factory.future.lookup g = some z →
      ∃ z', s.factory.future.lookup g = some z' ∧ z.request = z'.request ∧
        z.sequenceId = z'.sequenceId := by
    intro g z hg
    simp only [AsyncServer.setFuture] at hg
    rw [Table.lookup_insert_if] at hg
    split at hg
    · next hgf =>
        cases hg
        exact ⟨x, hgf ▸ hf, hr, hn⟩
    · exact ⟨z, hg, rfl, rfl⟩
  refine { h with futures := ?_, listed := ?_, sole := ?_, atWork := ?_ }
  · exact h.futures.update (Table.mem_of_lookup hf) y
  · intro g z hg
    obtain ⟨z', hg', hzr, hzn⟩ := hsame g z hg
    rw [hzr, hzn]
    exact h.listed g z' hg'
  · intro g g' z w hg hg' heq
    obtain ⟨z', hz', hzr, -⟩ := hsame g z hg
    obtain ⟨w', hw', hwr, -⟩ := hsame g' w hg'
    exact h.sole g g' z' w' hz' hw' (hzr ▸ hwr ▸ heq)
  · intro c call hc hphase
    obtain ⟨g, z, hg, hz, hzr⟩ := h.atWork c call hc hphase
    simp only [AsyncServer.setFuture]
    by_cases hgf : g = f
    · subst hgf
      rw [hf] at hz
      cases hz
      exact ⟨g, y, hg, Finmap.lookup_insert _, hr.trans hzr⟩
    · exact ⟨g, z, hg, by rw [Finmap.lookup_insert_of_ne _ hgf, hz], hzr⟩

/-- A call moves on, past its lookup, on the future of its request. -/
theorem setCall (h : FuturesLive s) {c : Nat} {call : EventCall}
    {phase : CallPhase}
    (hwork : ∃ f x, s.futureAt phase = some f ∧
      s.factory.future.lookup f = some x ∧ x.request = call.request)
    (halone : ∀ d other, s.call.lookup d = some other →
      other.phase ≠ .fetchFuture → call.request = other.request → c = d) :
    FuturesLive (s.setCall c call phase) := by
  refine { h with atWork := ?_, alone := ?_ }
  · intro d other hd hphase
    simp only [AsyncServer.setCall] at hd
    rw [Table.lookup_insert_if] at hd
    split at hd
    · cases hd
      exact hwork
    · exact h.atWork d other hd hphase
  · intro d e other another hd he hother hanother heq
    simp only [AsyncServer.setCall] at hd he
    rw [Table.lookup_insert_if] at hd he
    split at hd <;> split at he
    · next hdc hec => rw [hdc, hec]
    · next hdc hec =>
        cases hd
        exact hdc.trans (halone e another he hanother heq)
    · next hdc hec =>
        cases he
        exact (hec.trans (halone d other hd hother heq.symm)).symm
    · exact h.alone d e other another hd he hother hanother heq

/-- A call that is past its lookup moves on and keeps its future. -/
theorem move (h : FuturesLive s) {c : Nat} {call : EventCall}
    {phase : CallPhase} (hc : s.call.lookup c = some call)
    (hpast : call.phase ≠ .fetchFuture)
    (hsame : s.futureAt phase = s.futureAt call.phase) :
    FuturesLive (s.setCall c call phase) :=
  h.setCall (hsame ▸ h.atWork c call hc hpast)
    fun d other hd hother => h.alone c d call other hc hd hpast hother

theorem eraseCall (h : FuturesLive s) (c : Nat) :
    FuturesLive { s with call := s.call.erase c } := by
  refine { h with atWork := ?_, alone := ?_ }
  · intro d other hd hphase
    rw [Table.lookup_erase_if] at hd
    split at hd
    · cases hd
    · exact h.atWork d other hd hphase
  · intro d e other another hd he hother hanother heq
    rw [Table.lookup_erase_if] at hd he
    split at hd
    · cases hd
    · split at he
      · cases he
      · exact h.alone d e other another hd he hother hanother heq

theorem endCall (h : FuturesLive s) (c : Nat) (call : EventCall) :
    FuturesLive (s.endCall c call) := by
  have hkept := s.endCall_requests c call
  rcases s.endCall_eq c call with ⟨-, heq⟩ | ⟨q, -, heq⟩
  · rw [heq]
    exact h.eraseCall c
  · rw [heq] at hkept ⊢
    exact { (h.later hkept).eraseCall c with }

/-- The one call that works on a future deletes it. -/
theorem deleteFuture (h : FuturesLive s) {c f : Nat} {n : Int}
    {call : EventCall} (hc : s.call.lookup c = some call)
    (hphase : call.phase = .deleteFuture n)
    (hn : s.factory.futures.lookup n = some f) :
    FuturesLive { s with
      factory := { s.factory with
        future := s.factory.future.erase f
        futures := s.factory.futures.erase n }
      call := s.call.erase c } := by
  have hpast : call.phase ≠ .fetchFuture := by simp [hphase]
  obtain ⟨f', x, hf', hx, hreq⟩ := h.atWork c call hc hpast
  simp only [hphase, AsyncServer.futureAt, hn, Option.some.injEq] at hf'
  subst hf'
  have hsurvives : ∀ {g y}, s.factory.future.lookup g = some y → g ≠ f →
      y.sequenceId ≠ n := by
    intro g y hg hgf heq
    have hlisted := (h.listed g y hg).1
    rw [heq, hn] at hlisted
    exact hgf (Option.some.inj hlisted).symm
  refine ⟨h.futures.erase hn, ?_, ?_, ?_, (h.eraseCall c).alone⟩
  · intro g y hg
    rw [Table.lookup_erase_if] at hg
    split at hg
    · cases hg
    · next hgf =>
        rw [Table.lookup_erase_if, if_neg (hsurvives hg hgf)]
        exact h.listed g y hg
  · intro g g' y z hg hz heq
    rw [Table.lookup_erase_if] at hg hz
    split at hg
    · cases hg
    · split at hz
      · cases hz
      · exact h.sole g g' y z hg hz heq
  · intro d other hd hother
    rw [Table.lookup_erase_if] at hd
    split at hd
    · cases hd
    · next hdc =>
        obtain ⟨g, y, hg, hy, hyreq⟩ := h.atWork d other hd hother
        have hgf : g ≠ f := by
          intro heq
          subst heq
          rw [hx] at hy
          cases hy
          exact hdc (h.alone d c other call hd hc hother hpast
            (hyreq.symm.trans hreq))
        refine ⟨g, y, ?_, ?_, hyreq⟩
        · rw [← hg]
          cases hp : other.phase with
          | deleteFuture m =>
              simp only [hp, AsyncServer.futureAt] at hg ⊢
              have hm : m ≠ n := h.sequenceId_eq hg hy ▸ hsurvives hy hgf
              rw [Table.lookup_erase_if, if_neg hm]
          | _ => rfl
        · rw [Table.lookup_erase_if, if_neg hgf, hy]

/-- A request that has no future yet gets one under a free id. -/
theorem addFuture (h : FuturesLive s) {r : Nat} {q : AsyncRequest}
    (hq : s.request.lookup r = some q) (hphase : q.phase = .numbered)
    (hfree : s.factory.futures.lookup q.request.innerSequenceId = none) :
    FuturesLive { s with
      factory := s.factory.addFuture q.request.innerSequenceId r
        q.request.transactionId
      request := s.request.insert r { q with phase := .added } } := by
  have hlater := h.later
    (.update hq (.phase q (by decide : RequestPhase.added ∉ _)))
  have hnot : ∀ f x, s.factory.future.lookup f = some x → x.request ≠ r := by
    intro f x hf heq
    obtain ⟨-, p, hp, hsent, -⟩ := h.listed f x hf
    rw [heq, hq] at hp
    cases hp
    exact hsent (by simp [hphase])
  have hnew : ∀ f x, s.factory.future.lookup f = some x →
      f ≠ s.factory.futureNum := by
    rintro f x hf rfl
    exact absurd (h.futures.below _ (Table.mem_of_lookup hf)) (Nat.lt_irrefl _)
  refine ⟨h.futures.insert _ _, ?_, ?_, ?_, h.alone⟩
  · intro f x hf
    simp only [FutureFactory.addFuture] at hf ⊢
    rw [Table.lookup_insert_if] at hf
    split at hf
    · next hnum =>
        cases hf
        exact ⟨by rw [hnum, Finmap.lookup_insert], _, Finmap.lookup_insert _,
          by simp, rfl⟩
    · obtain ⟨hlisted, hsent⟩ := hlater.listed f x hf
      refine ⟨?_, hsent⟩
      rw [Table.lookup_insert_if, if_neg, hlisted]
      intro heq
      rw [heq, hfree] at hlisted
      cases hlisted
  · intro f g x y hf hg heq
    simp only [FutureFactory.addFuture] at hf hg
    rw [Table.lookup_insert_if] at hf hg
    split at hf <;> split at hg
    · next hfn hgn => rw [hfn, hgn]
    · cases hf
      exact absurd heq.symm (hnot g y hg)
    · cases hg
      exact absurd heq (hnot f x hf)
    · exact h.sole f g x y hf hg heq
  · intro c call hc hpast
    obtain ⟨f, x, hf, hx, hreq⟩ := h.atWork c call hc hpast
    refine ⟨f, x, ?_, ?_, hreq⟩
    · rw [← hf]
      cases hp : call.phase with
      | deleteFuture m =>
          simp only [hp, AsyncServer.futureAt] at hf
          simp only [AsyncServer.futureAt, FutureFactory.addFuture]
          rw [Table.lookup_insert_if, if_neg]
          intro heq
          rw [heq, hfree] at hf
          cases hf
      | _ => rfl
    · simp only [FutureFactory.addFuture]
      rw [Finmap.lookup_insert_of_ne _ (hnew f x hx), hx]

theorem advanced (h : FuturesLive s) {c : Nat} {call : EventCall}
    (hok : keepsFutures s (.processResponse c))
    (hc : s.call.lookup c = some call) (hs : s.Advanced c call s') :
    FuturesLive s' := by
  cases hs with
  | fault => exact { h with }
  | notFetched | noListener | notDeleted => exact h.endCall c call
  | @fetched x f hphase hx hf =>
      have hfetches : s.fetches c = some f := by
        rw [AsyncServer.fetches, hx]
        exact hf
      obtain ⟨hown, hnone⟩ := hok call hc hphase f hfetches
      obtain ⟨y, hy, hreq⟩ := Option.map_eq_some_iff.mp hown
      refine h.setCall ⟨f, y, rfl, hy, hreq⟩ fun d other hd hother heq => ?_
      exact absurd ⟨heq.symm, hother⟩
        ((Table.countWith_eq_zero _).mp hnone d other hd)
  | @responseSet f future response fault hphase hf =>
      let set := { future with
        status := convertPluginStatus call.event
        response := some c }
      have hset := h.setFuture (y := set) hf rfl rfl
      have hmoved : FuturesLive
          ((s.setFuture f set).setCall c call (.findListener f)) :=
        hset.move hc (by simp [hphase]) (by rw [hphase]; rfl)
      exact { hmoved with }
  | listenerFound hphase | noResponse hphase | replied hphase
  | noHandler hphase | handlerFound hphase =>
      exact h.move hc (by simp [hphase]) (by rw [hphase]; rfl)
  | recorded hphase =>
      exact { h.move hc (by simp [hphase]) (by rw [hphase]; rfl) with }
  | @detached f future hphase hf =>
      have hset := h.setFuture (y := { future with response := none }) hf rfl rfl
      refine hset.move hc (by simp [hphase]) ?_
      rw [hphase]
      exact (h.listed f future hf).1
  | @deleted n f future response fault hphase hn hf =>
      have hdeleted := h.deleteFuture hc hphase hn
      have hend := AsyncServer.endCall_eq { s with
        factory := { s.factory with
          future := s.factory.future.erase f
          futures := s.factory.futures.erase n }
        response
        fault } c call
      rcases hend with ⟨-, heq⟩ | ⟨q, hq, heq⟩
      · rw [heq]
        exact { hdeleted with }
      · rw [heq]
        exact { hdeleted.later (.update hq (.answered q)) with }

/-- No two calls work on one future. -/
theorem only (h : FuturesLive s) {c d f : Nat} {call other : EventCall}
    (hc : s.call.lookup c = some call) (hd : s.call.lookup d = some other)
    (hcf : s.futureAt call.phase = some f)
    (hdf : s.futureAt other.phase = some f) : c = d := by
  have hpast : ∀ phase, s.futureAt phase = some f → phase ≠ .fetchFuture := by
    rintro phase hp rfl
    cases hp
  obtain ⟨g, x, hg, hx, hreq⟩ := h.atWork c call hc (hpast _ hcf)
  obtain ⟨g', x', hg', hx', hreq'⟩ := h.atWork d other hd (hpast _ hdf)
  rw [hcf] at hg
  rw [hdf] at hg'
  cases hg
  cases hg'
  rw [hx] at hx'
  cases hx'
  exact h.alone c d call other hc hd (hpast _ hcf) (hpast _ hdf)
    (hreq.symm.trans hreq')

theorem took (h : FuturesLive s) (hk : RequestsKnown s) {i : AsyncStep}
    (hok : keepsFutures s i) (hs : s.Took i s') : FuturesLive s' := by
  have hkept := hs.requests hk
  cases hs with
  | clients | createEngine | stopThread | transactions | registerListener
  | unregisterListener | addHandler | removeHandler | sendResponse =>
      exact { h with }
  | sendRequest | refused | full | queued | popped | processed | dropped
  | numbered => exact { h.later hkept with }
  | addFuture hq hphase => exact h.addFuture hq hphase (hok rfl _ hq)
  | onEvent =>
      refine { h with atWork := ?_, alone := ?_ }
      · intro c call hc hpast
        rw [Table.lookup_insert_if] at hc
        split at hc
        · cases hc
          exact absurd rfl hpast
        · exact h.atWork c call hc hpast
      · intro c d call other hc hd hcall hother heq
        rw [Table.lookup_insert_if] at hc hd
        split at hc
        · cases hc
          exact absurd rfl hcall
        · split at hd
          · cases hd
            exact absurd rfl hother
          · exact h.alone c d call other hc hd hcall hother heq
  | processResponse hc hs => exact h.advanced hok hc hs

end FuturesLive

/-- In runs whose steps keep the futures apart, they are. -/
theorem reach_futuresLive {s : AsyncServer}
    (hs : asyncMachine.Reach keepsFutures s) : FuturesLive s := by
  refine hs.invariant_of (fun _ => reach_requestsKnown) ?_ ?_
  · rintro s rfl
    exact .initial
  · intro s i s' hk h hok hstep
    exact h.took hk hok (AsyncServer.take_took (asyncMachine_step hstep).2)

end AiEngine.Ref
