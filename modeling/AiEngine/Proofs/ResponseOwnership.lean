import AiEngine.Proofs.CallbackLifetime
import AiEngine.Proofs.FutureLifetime

/-!
# Who destroys a response

A response comes with a call, goes to the call's future and from there to the
list of a client. At each moment one of them is to destroy it, and the others
let go of it before. Where the callbacks and the futures are kept this is so
at every step, and then nothing that was deleted is ever used.
-/

namespace AiEngine.Ref

open AiEngine.Lib

/-! ## Destroying what is there

What `DestroyResponse` and the setting of an owner do to the memory when the
response they are given is there, and what a step must leave alone for the
other calls to carry theirs on. -/

namespace AsyncServer

variable {s s' : AsyncServer}

theorem destroyResponse_live {x : Nat} (hx : x ∈ s.response) :
    s.destroyResponse (some x) = { s with response := s.response.erase x } := by
  simp only [destroyResponse, if_pos hx]

/-- Different responses that are there are destroyed, and no others. -/
theorem destroyResponses_live {xs : List Nat} (hnodup : xs.Nodup)
    (hlive : ∀ x ∈ xs, x ∈ s.response) :
    ∃ response, s.destroyResponses xs = { s with response } ∧
      ∀ y, response.lookup y =
        if y ∈ xs then none else s.response.lookup y := by
  induction xs generalizing s with
  | nil => exact ⟨s.response, rfl, fun y => by simp⟩
  | cons x xs ih =>
      obtain ⟨hx, hxs⟩ := List.nodup_cons.mp hnodup
      rw [destroyResponses, destroyResponse_live (hlive x (by simp))]
      have hrest : ∀ y ∈ xs, y ∈ s.response.erase x := by
        intro y hy
        rw [Finmap.mem_erase]
        exact ⟨fun heq => hx (heq ▸ hy), hlive y (by simp [hy])⟩
      obtain ⟨response, heq, hlookup⟩ := ih
        (s := { s with response := s.response.erase x }) hxs hrest
      refine ⟨response, heq, fun y => ?_⟩
      rw [hlookup, Table.lookup_erase_if]
      by_cases hy : y ∈ xs
      · simp [hy]
      · by_cases hyx : y = x
        · simp [hyx]
        · simp [hy, hyx]

theorem setOwner_live {x : Nat} {y : AsyncResponse}
    (hx : s.response.lookup x = some y) (owner : ResponseOwner) :
    s.setOwner x owner =
      { s with response := s.response.insert x { y with owner } } := by
  simp only [setOwner, hx]

/-- One response is destroyed, if there is one, and another changes its
owner. -/
theorem replace_live {old : Option Nat} {c : Nat} {b : AsyncResponse}
    {owner : ResponseOwner} {response : Table Nat AsyncResponse}
    {fault : Option Fault} (hb : s.response.lookup c = some b)
    (hold : ∀ x, old = some x → x ∈ s.response ∧ x ≠ c)
    (hx : (s.destroyResponse old).setOwner c owner =
      { s with response, fault }) :
    fault = s.fault ∧ ∀ y, response.lookup y =
      if y = c then some { b with owner }
      else if old = some y then none else s.response.lookup y := by
  cases old with
  | none =>
      rw [destroyResponse, setOwner_live hb] at hx
      have hresponse : _ = response := congrArg AsyncServer.response hx
      have hfault : s.fault = fault := congrArg AsyncServer.fault hx
      refine ⟨hfault.symm, fun y => ?_⟩
      rw [← hresponse, Table.lookup_insert_if]
      simp
  | some x =>
      obtain ⟨hlive, hne⟩ := hold x rfl
      have hb' : (s.response.erase x).lookup c = some b := by
        rw [Finmap.lookup_erase_ne hne.symm, hb]
      rw [destroyResponse_live hlive,
        setOwner_live (s := { s with response := s.response.erase x }) hb'] at hx
      have hresponse : _ = response := congrArg AsyncServer.response hx
      have hfault : s.fault = fault := congrArg AsyncServer.fault hx
      refine ⟨hfault.symm, fun y => ?_⟩
      rw [← hresponse, Table.lookup_insert_if, Table.lookup_erase_if]
      simp only [Option.some.injEq, eq_comm]

/-- The response a future has. -/
def responseOf (s : AsyncServer) (f : Nat) : Option Nat :=
  (s.factory.future.lookup f).bind (·.response)

/-- The response a call came with is its own. -/
def Brought (s : AsyncServer) (c : Nat) (call : EventCall) : Prop :=
  ∃ x, s.response.lookup c = some x ∧ x.owner = .call ∧
    x.request = call.request

/-- Where the response of a call is. -/
def Carries (s : AsyncServer) (c : Nat) (call : EventCall) : Prop :=
  match call.phase with
  | .fetchFuture => s.Brought c call
  | .setResponse _ => s.Brought c call
  | .findListener f => s.responseOf f = some c
  | .onReply f _ => s.responseOf f = some c
  | .findHandler f _ x => x = c ∧ s.responseOf f = some c
  | .addCallbackRecord f _ x => x = c ∧ s.responseOf f = some c
  | .detachResponse _ => True
  | .deleteFuture n =>
      ∀ f, s.factory.futures.lookup n = some f → s.responseOf f = none

/-- A step that leaves a call's response and the call's future alone. -/
theorem Carries.frame {d : Nat} {other : EventCall} (h : s.Carries d other)
    (hb : s.Brought d other → s'.Brought d other)
    (hr : ∀ g, s.futureAt other.phase = some g →
      s'.responseOf g = s.responseOf g)
    (hn : ∀ n g, s'.factory.futures.lookup n = some g →
      s.factory.futures.lookup n = some g) : s'.Carries d other := by
  unfold Carries at h ⊢
  cases hphase : other.phase with
  | fetchFuture | setResponse =>
      simp only [hphase] at h ⊢
      exact hb h
  | findListener f | onReply f =>
      simp only [hphase] at h ⊢
      exact (hr f (by rw [hphase]; rfl)).trans h
  | findHandler f | addCallbackRecord f =>
      simp only [hphase] at h ⊢
      exact ⟨h.1, (hr f (by rw [hphase]; rfl)).trans h.2⟩
  | detachResponse f => simp only
  | deleteFuture n =>
      simp only [hphase] at h ⊢
      intro g hg
      have hg' := hn n g hg
      exact (hr g (by rw [hphase]; exact hg')).trans (h g hg')

theorem responseOf_setFuture_ne {f g : Nat} {future : Future} (hgf : g ≠ f) :
    (s.setFuture f future).responseOf g = s.responseOf g := by
  simp only [responseOf, setFuture]
  rw [Finmap.lookup_insert_of_ne _ hgf]

end AsyncServer

/-! ## The owners

Each response belongs to a call, to a future or to a list, and the owner knows
of it. A call that moves on keeps this when no other call is between taking
the response off its future and passing it on. -/

/-- Every response has one owner, which knows of it, and nothing went wrong
so far. Only a future whose call is about to detach the response may have one
that is no longer its own. -/
structure ResponsesOwned (s : AsyncServer) : Prop where
  sound : s.fault = none
  below : ∀ x, x ∈ s.response → x < s.callNum
  callBelow : ∀ c, c ∈ s.call → c < s.callNum
  carries : ∀ c call, s.call.lookup c = some call → s.Carries c call
  held : ∀ f future x, s.factory.future.lookup f = some future →
    future.response = some x →
    (∀ c call, s.call.lookup c = some call →
      call.phase ≠ .detachResponse f) →
    ∃ y, s.response.lookup x = some y ∧ y.owner = .future f ∧
      y.request = future.request
  lists : ∀ n handler, s.asyncHandler.handler.lookup n = some handler →
    handler.responses.Nodup ∧ ∀ x ∈ handler.responses,
      ∃ y, s.response.lookup x = some y ∧ y.owner = .handler n

namespace ResponsesOwned

variable {s s' : AsyncServer}

theorem initial : ResponsesOwned .initial where
  sound := rfl
  below := fun _ h => absurd h Finmap.notMem_empty
  callBelow := fun _ h => absurd h Finmap.notMem_empty
  carries := fun _ _ h => by cases (Finmap.lookup_empty _).symm.trans h
  held := fun _ _ _ h => by cases (Finmap.lookup_empty _).symm.trans h
  lists := fun _ _ h => by cases (Finmap.lookup_empty _).symm.trans h

/-- A call that changes is the number of a call that was there. -/
theorem callBelow_insert (h : ResponsesOwned s) {c : Nat}
    {call call' : EventCall} (hc : s.call.lookup c = some call) :
    ∀ d, d ∈ s.call.insert c call' → d < s.callNum := by
  intro d hd
  rcases Finmap.mem_insert.mp hd with rfl | hd
  · exact h.callBelow _ (Table.mem_of_lookup hc)
  · exact h.callBelow d hd

/-- Where no call detaches the response of a future once `c` has moved on,
none did before, unless it was `c`. -/
theorem notDetaching {c g : Nat} {call call' : EventCall}
    (hc : s.call.lookup c = some call)
    (hdetach : call.phase ≠ .detachResponse g)
    (hnot : ∀ d other, (s.call.insert c call').lookup d = some other →
      other.phase ≠ .detachResponse g) :
    ∀ d other, s.call.lookup d = some other →
      other.phase ≠ .detachResponse g := by
  intro d other hd
  by_cases hdc : d = c
  · rw [hdc, hc] at hd
    cases hd
    exact hdetach
  · refine hnot d other ?_
    rw [Finmap.lookup_insert_of_ne _ hdc, hd]

theorem setCall (h : ResponsesOwned s) {c : Nat} {call : EventCall}
    {phase : CallPhase} (hc : s.call.lookup c = some call)
    (hdetach : ∀ f, call.phase = .detachResponse f → False)
    (hcarries : s.Carries c { call with phase }) :
    ResponsesOwned (s.setCall c call phase) := by
  refine { h with
    callBelow := h.callBelow_insert hc
    carries := ?_
    held := fun f future x hf hx hnot =>
      h.held f future x hf hx (notDetaching hc (hdetach f) hnot) }
  intro d other hd
  simp only [AsyncServer.setCall] at hd
  rw [Table.lookup_insert_if] at hd
  split at hd
  · next hdc =>
      cases hd
      exact hdc ▸ hcarries
  · exact h.carries d other hd

/-- A call ends that is not about to detach a response. -/
theorem endCall (h : ResponsesOwned s) {c : Nat} {call : EventCall}
    (hc : s.call.lookup c = some call)
    (hdetach : ∀ f, call.phase = .detachResponse f → False) :
    ResponsesOwned (s.endCall c call) := by
  have hended : ResponsesOwned { s with call := s.call.erase c } := by
    refine { h with callBelow := ?_, carries := ?_, held := ?_ }
    · exact fun d hd => h.callBelow d (Finmap.mem_erase.mp hd).2
    · intro d other hd
      rw [Table.lookup_erase_if] at hd
      split at hd
      · cases hd
      · exact h.carries d other hd
    · intro f future x hf hx hnot
      refine h.held f future x hf hx fun d other hd hphase => ?_
      by_cases hdc : d = c
      · rw [hdc, hc] at hd
        cases hd
        exact hdetach f hphase
      · refine hnot d other ?_ hphase
        rw [Finmap.lookup_erase_ne hdc, hd]
  rcases s.endCall_eq c call with ⟨-, heq⟩ | ⟨q, -, heq⟩
  · rw [heq]
    exact hended
  · rw [heq]
    exact { hended with }

/-- The response of the future a call works on, unless that call is about to
detach it, is the future's. -/
theorem held_of_atWork (h : ResponsesOwned s) (hfut : FuturesLive s)
    {c f x : Nat} {call : EventCall} {future : Future}
    (hc : s.call.lookup c = some call)
    (hcf : s.futureAt call.phase = some f)
    (hdetach : call.phase ≠ .detachResponse f)
    (hf : s.factory.future.lookup f = some future)
    (hx : future.response = some x) :
    ∃ y, s.response.lookup x = some y ∧ y.owner = .future f ∧
      y.request = future.request := by
  refine h.held f future x hf hx fun d other hd hphase => ?_
  have hdf : s.futureAt other.phase = some f := by rw [hphase]; rfl
  have hsame := hfut.only hd hc hdf hcf
  rw [hsame, hc] at hd
  cases hd
  exact hdetach hphase

/-- The lists are right as long as what is in them is there. -/
theorem lists_of_kept (h : ResponsesOwned s)
    {response : Table Nat AsyncResponse}
    (hkept : ∀ x y n, s.response.lookup x = some y → y.owner = .handler n →
      response.lookup x = some y) :
    ∀ n handler, s.asyncHandler.handler.lookup n = some handler →
      handler.responses.Nodup ∧ ∀ x ∈ handler.responses,
        ∃ y, response.lookup x = some y ∧ y.owner = .handler n := by
  intro n handler hn
  obtain ⟨hnodup, hlist⟩ := h.lists n handler hn
  refine ⟨hnodup, fun x hx => ?_⟩
  obtain ⟨y, hy, hyo⟩ := hlist x hx
  exact ⟨y, hkept x y n hy hyo, hyo⟩

/-! ## Handing a response on

The three places where a response changes hands: a future gets what its call
has brought, a list gets what the future had, and a call empties its future
after that. -/

/-- The response a call has brought goes to a future: the one the future had
is gone, and the others are as they were. -/
structure Handed (s : AsyncServer) (c f : Nat) (brought : AsyncResponse)
    (response : Table Nat AsyncResponse) : Prop where
  given : response.lookup c = some { brought with owner := .future f }
  kept : ∀ x y, s.response.lookup x = some y → y.owner ≠ .call →
    y.owner ≠ .future f → response.lookup x = some y
  others : ∀ x y, s.response.lookup x = some y → x ≠ c → y.owner = .call →
    response.lookup x = some y
  old : ∀ x, x ∈ response → x ≠ c → x ∈ s.response

theorem handed (h : ResponsesOwned s) (hfut : FuturesLive s) {c f : Nat}
    {call : EventCall} {future : Future} {response : Table Nat AsyncResponse}
    {fault : Option Fault} (hc : s.call.lookup c = some call)
    (hphase : call.phase = .setResponse f)
    (hf : s.factory.future.lookup f = some future)
    (hx : (s.destroyResponse future.response).setOwner c (.future f) =
      { s with response, fault }) :
    fault = s.fault ∧ ∃ brought, brought.request = call.request ∧
      Handed s c f brought response := by
  have hbrought := h.carries c call hc
  simp only [AsyncServer.Carries, hphase] at hbrought
  obtain ⟨b, hb, howner, hreq⟩ := hbrought
  have hheld := fun x => h.held_of_atWork hfut (x := x) hc
    (by rw [hphase]; rfl) (by simp [hphase]) hf
  obtain ⟨hfault, hlookup⟩ := AsyncServer.replace_live hb (by
    intro x hxf
    obtain ⟨y, hy, hyo, -⟩ := hheld x hxf
    refine ⟨Table.mem_of_lookup hy, fun hxc => ?_⟩
    rw [hxc, hb] at hy
    cases hy
    rw [howner] at hyo
    cases hyo) hx
  -- only the call's response and the one before it change
  have hkeep : ∀ x y, s.response.lookup x = some y → x ≠ c →
      y.owner ≠ .future f → response.lookup x = some y := by
    intro x y hy hxc hyo
    rw [hlookup, if_neg hxc, if_neg, hy]
    intro hxf
    obtain ⟨z, hz, hzo, -⟩ := hheld x hxf
    rw [hy] at hz
    cases hz
    exact hyo hzo
  refine ⟨hfault, b, hreq, by rw [hlookup, if_pos rfl], ?_, ?_, ?_⟩
  · intro x y hy hyo hyf
    refine hkeep x y hy ?_ hyf
    rintro rfl
    rw [hb] at hy
    cases hy
    exact hyo howner
  · exact fun x y hy hxc hyo => hkeep x y hy hxc (by simp [hyo])
  · intro x hxin hxc
    obtain ⟨y, hy⟩ := Finmap.mem_iff.mp hxin
    rw [hlookup, if_neg hxc] at hy
    split at hy
    · cases hy
    · exact Table.mem_of_lookup hy

/-- `SetResponse` destroys the response the future had and gives it the
call's. -/
theorem setResponse (h : ResponsesOwned s) (hfut : FuturesLive s) {c f : Nat}
    {call : EventCall} {future : Future} {response : Table Nat AsyncResponse}
    {fault : Option Fault} (hc : s.call.lookup c = some call)
    (hphase : call.phase = .setResponse f)
    (hf : s.factory.future.lookup f = some future)
    (hx : (s.destroyResponse future.response).setOwner c (.future f) =
      { s with response, fault }) (status : FutureStatus) :
    ResponsesOwned
      { (s.setFuture f
        { future with status, response := some c }).setCall c call
          (.findListener f) with response, fault } := by
  have hcf : s.futureAt call.phase = some f := by rw [hphase]; rfl
  obtain ⟨hfault, brought, hrequest, hhanded⟩ := h.handed hfut hc hphase hf hx
  refine ⟨hfault.trans h.sound, ?_, h.callBelow_insert hc, ?_, ?_,
    h.lists_of_kept fun x y n hy hyo =>
      hhanded.kept x y hy (by simp [hyo]) (by simp [hyo])⟩
  · intro x hxin
    by_cases hxc : x = c
    · exact hxc ▸ h.callBelow c (Table.mem_of_lookup hc)
    · exact h.below x (hhanded.old x hxin hxc)
  · intro d other hd
    simp only [AsyncServer.setCall] at hd
    rw [Table.lookup_insert_if] at hd
    split at hd
    · next hdc =>
        cases hd
        subst hdc
        simp [AsyncServer.Carries, AsyncServer.responseOf,
          AsyncServer.setFuture, AsyncServer.setCall]
    · next hdc =>
        refine (h.carries d other hd).frame ?_ ?_ (fun n g hg => hg)
        · rintro ⟨x, hx, hxo, hxr⟩
          exact ⟨x, hhanded.others d x hx hdc hxo, hxo, hxr⟩
        · intro g hg
          refine AsyncServer.responseOf_setFuture_ne fun hgf => ?_
          exact hdc (hfut.only hd hc (hgf ▸ hg) hcf)
  · intro g y x hg hyx hnot
    simp only [AsyncServer.setFuture, AsyncServer.setCall] at hg
    rw [Table.lookup_insert_if] at hg
    split at hg
    · next hgf =>
        cases hg
        cases hyx
        obtain ⟨g', y', hg', hy', hyr⟩ :=
          hfut.atWork c call hc (by simp [hphase])
        rw [hcf] at hg'
        cases hg'
        rw [hf] at hy'
        cases hy'
        exact ⟨_, hhanded.given, hgf ▸ rfl, hrequest.trans hyr.symm⟩
    · next hgf =>
        obtain ⟨z, hz, hzo, hzr⟩ := h.held g y x hg hyx
          (notDetaching hc (by simp [hphase]) hnot)
        refine ⟨z, hhanded.kept x z hz (by simp [hzo]) ?_, hzo, hzr⟩
        simp [hzo, hgf]

/-- `AddCallbackRecord` hands the response from the future to the list. -/
theorem addCallbackRecord (h : ResponsesOwned s) (hfut : FuturesLive s)
    {c f n x : Nat} {call : EventCall} {handler : ClientListenerHandler}
    {response : AsyncResponse} (hc : s.call.lookup c = some call)
    (hphase : call.phase = .addCallbackRecord f n x)
    (hn : s.asyncHandler.handler.lookup n = some handler)
    (hx : s.response.lookup x = some response) (delivered : List Delivery) :
    ResponsesOwned
      { s with
        asyncHandler :=
          { s.asyncHandler with
            handler := s.asyncHandler.handler.insert n
              { handler with responses := handler.responses ++ [x] } }
        delivered
        response := s.response.insert x { response with owner := .handler n }
        call := s.call.insert c { call with phase := .detachResponse f } } := by
  have hcf : s.futureAt call.phase = some f := by rw [hphase]; rfl
  have hcarries := h.carries c call hc
  simp only [AsyncServer.Carries, hphase] at hcarries
  obtain ⟨rfl, hof⟩ := hcarries
  obtain ⟨future, hf, hfx⟩ := Option.bind_eq_some_iff.mp hof
  obtain ⟨y, hy, hyo, -⟩ :=
    h.held_of_atWork hfut hc hcf (by simp [hphase]) hf hfx
  rw [hx] at hy
  cases hy
  -- a response with another owner is another response
  have hown : ∀ z w, s.response.lookup z = some w → w.owner ≠ .future f →
      z ≠ x := by
    rintro z w hw hwo rfl
    rw [hx] at hw
    cases hw
    exact hwo hyo
  refine ⟨h.sound, ?_, h.callBelow_insert hc, ?_, ?_, ?_⟩
  · intro z hz
    rcases Finmap.mem_insert.mp hz with rfl | hz
    · exact h.below _ (Table.mem_of_lookup hx)
    · exact h.below z hz
  · intro d other hd
    rw [Table.lookup_insert_if] at hd
    split at hd
    · cases hd
      simp only [AsyncServer.Carries]
    · refine (h.carries d other hd).frame ?_ (fun g hg => rfl) (fun m g hg => hg)
      rintro ⟨z, hz, hzo, hzr⟩
      refine ⟨z, ?_, hzo, hzr⟩
      simp only
      rw [Finmap.lookup_insert_of_ne _ (hown d z hz (by simp [hzo])), hz]
  · intro g w z hg hwz hnot
    have hgf : g ≠ f := by
      rintro rfl
      exact hnot x _ (Finmap.lookup_insert _) rfl
    obtain ⟨v, hv, hvo, hvr⟩ :=
      h.held g w z hg hwz (notDetaching hc (by simp [hphase]) hnot)
    refine ⟨v, ?_, hvo, hvr⟩
    rw [Finmap.lookup_insert_of_ne _ (hown z v hv (by simp [hvo, hgf])), hv]
  · intro m handler' hm
    rw [Table.lookup_insert_if] at hm
    have hlist : ∀ k other, s.asyncHandler.handler.lookup k = some other →
        ∀ z ∈ other.responses, z ≠ x ∧ ∃ w,
          s.response.lookup z = some w ∧ w.owner = .handler k := by
      intro k other hk z hz
      obtain ⟨w, hw, hwo⟩ := (h.lists k other hk).2 z hz
      exact ⟨hown z w hw (by simp [hwo]), w, hw, hwo⟩
    split at hm
    · next hmn =>
        cases hm
        refine ⟨?_, fun z hz => ?_⟩
        · refine List.nodup_append.mpr ⟨(h.lists n handler hn).1, by simp, ?_⟩
          intro z hz w hw
          rw [List.mem_singleton.mp hw]
          exact (hlist n handler hn z hz).1
        · rcases List.mem_append.mp hz with hz | hz
          · obtain ⟨hzx, w, hw, hwo⟩ := hlist n handler hn z hz
            exact ⟨w, by rw [Finmap.lookup_insert_of_ne _ hzx, hw], hmn ▸ hwo⟩
          · rw [List.mem_singleton.mp hz]
            exact ⟨_, Finmap.lookup_insert _, hmn ▸ rfl⟩
    · refine ⟨(h.lists m handler' hm).1, fun z hz => ?_⟩
      obtain ⟨hzx, w, hw, hwo⟩ := hlist m handler' hm z hz
      exact ⟨w, by rw [Finmap.lookup_insert_of_ne _ hzx, hw], hwo⟩

/-- `DetachResponse` empties the future of its call. -/
theorem detachResponse (h : ResponsesOwned s) (hfut : FuturesLive s)
    {c f : Nat} {call : EventCall} {future : Future}
    (hc : s.call.lookup c = some call)
    (hphase : call.phase = .detachResponse f)
    (hf : s.factory.future.lookup f = some future) :
    ResponsesOwned ((s.setFuture f { future with response := none }).setCall c
      call (.deleteFuture future.sequenceId)) := by
  have hcf : s.futureAt call.phase = some f := by rw [hphase]; rfl
  refine ⟨h.sound, h.below, h.callBelow_insert hc, ?_, ?_, h.lists⟩
  · intro d other hd
    simp only [AsyncServer.setCall] at hd
    rw [Table.lookup_insert_if] at hd
    split at hd
    · cases hd
      simp only [AsyncServer.Carries, AsyncServer.setFuture,
        AsyncServer.setCall]
      intro g hg
      rw [(hfut.listed f future hf).1] at hg
      cases hg
      simp [AsyncServer.responseOf]
    · next hdc =>
        refine (h.carries d other hd).frame (fun hb => hb) ?_
          (fun m g hg => hg)
        intro g hg
        refine AsyncServer.responseOf_setFuture_ne ?_
        rintro rfl
        exact hdc (hfut.only hd hc hg hcf)
  · intro g y x hg hyx hnot
    simp only [AsyncServer.setFuture, AsyncServer.setCall] at hg
    rw [Table.lookup_insert_if] at hg
    split at hg
    · cases hg
      cases hyx
    · next hgf =>
        refine h.held g y x hg hyx (notDetaching hc ?_ hnot)
        rw [hphase]
        exact fun heq => hgf (CallPhase.detachResponse.inj heq).symm

/-! ## Futures and calls that come and go

A future is erased when it has no response and is added without one; a call
starts with a response of its own, and a list destroys only what it held. -/

theorem eraseFuture (h : ResponsesOwned s) {f : Nat} {n : Int}
    {future : Future} (hf : s.factory.future.lookup f = some future)
    (hempty : future.response = none) :
    ResponsesOwned { s with factory := { s.factory with
      future := s.factory.future.erase f
      futures := s.factory.futures.erase n } } := by
  refine { h with carries := ?_, held := ?_ }
  · intro d other hd
    refine (h.carries d other hd).frame (fun hb => hb) (fun g _ => ?_) ?_
    · simp only [AsyncServer.responseOf]
      rw [Table.lookup_erase_if]
      split
      · next hgf => rw [hgf, hf, Option.bind_some, hempty, Option.bind_none]
      · rfl
    · intro m g hg
      rw [Table.lookup_erase_if] at hg
      split at hg
      · cases hg
      · exact hg
  · intro g y x hg
    rw [Table.lookup_erase_if] at hg
    split at hg
    · cases hg
    · exact h.held g y x hg

theorem addFuture (h : ResponsesOwned s) (hfut : FuturesLive s) (n : Int)
    (r : Nat) (tid : Int64) :
    ResponsesOwned { s with factory := s.factory.addFuture n r tid } := by
  have hnew : s.factory.future.lookup s.factory.futureNum = none := by
    rw [Finmap.lookup_eq_none]
    exact fun hin => Nat.lt_irrefl _ (hfut.futures.below _ hin)
  have hof : ∀ g, ({ s with
      factory := s.factory.addFuture n r tid } : AsyncServer).responseOf g =
        s.responseOf g := by
    intro g
    simp only [AsyncServer.responseOf, FutureFactory.addFuture]
    rw [Table.lookup_insert_if]
    split
    · next hg => rw [hg, hnew, Option.bind_some, Option.bind_none]
    · rfl
  refine { h with carries := ?_, held := ?_ }
  · intro d other hd
    have hcarries := h.carries d other hd
    simp only [AsyncServer.Carries] at hcarries ⊢
    cases hphase : other.phase with
    | deleteFuture m =>
        simp only [hphase] at hcarries ⊢
        intro g hg
        rw [hof]
        simp only [FutureFactory.addFuture] at hg
        rw [Table.lookup_insert_if] at hg
        split at hg
        · cases hg
          rw [AsyncServer.responseOf, hnew, Option.bind_none]
        · exact hcarries g hg
    | detachResponse => simp only
    | fetchFuture | setResponse | findListener | onReply | findHandler
    | addCallbackRecord =>
        simp only [hphase, hof] at hcarries ⊢
        exact hcarries
  · intro g y x hg hyx
    simp only [FutureFactory.addFuture] at hg
    rw [Table.lookup_insert_if] at hg
    split at hg
    · cases hg
      cases hyx
    · exact h.held g y x hg hyx

theorem onEvent (h : ResponsesOwned s) {x : AsyncResponse} {call : EventCall}
    (hphase : call.phase = .fetchFuture) (howner : x.owner = .call)
    (hreq : x.request = call.request) :
    ResponsesOwned { s with
      response := s.response.insert s.callNum x
      call := s.call.insert s.callNum call
      callNum := s.callNum + 1 } := by
  have hold : ∀ z w, s.response.lookup z = some w →
      (s.response.insert s.callNum x).lookup z = some w := by
    intro z w hz
    rw [Finmap.lookup_insert_of_ne _ ?_, hz]
    rintro rfl
    exact Nat.lt_irrefl _ (h.below _ (Table.mem_of_lookup hz))
  refine ⟨h.sound, ?_, ?_, ?_, ?_, ?_⟩
  · intro z hz
    rcases Finmap.mem_insert.mp hz with rfl | hz
    · exact Nat.lt_succ_self _
    · exact Nat.lt_succ_of_lt (h.below z hz)
  · intro d hd
    rcases Finmap.mem_insert.mp hd with rfl | hd
    · exact Nat.lt_succ_self _
    · exact Nat.lt_succ_of_lt (h.callBelow d hd)
  · intro d other hd
    rw [Table.lookup_insert_if] at hd
    split at hd
    · next hdc =>
        cases hd
        simp only [AsyncServer.Carries, hphase]
        exact ⟨x, by rw [hdc, Finmap.lookup_insert], howner, hreq⟩
    · refine (h.carries d other hd).frame ?_ (fun g _ => rfl)
        (fun m g hg => hg)
      rintro ⟨z, hz, hzo, hzr⟩
      exact ⟨z, hold d z hz, hzo, hzr⟩
  · intro g y z hg hyz hnot
    obtain ⟨w, hw, hwo, hwr⟩ := h.held g y z hg hyz fun d other hd hp => by
      refine hnot d other ?_ hp
      rw [Finmap.lookup_insert_of_ne _ ?_, hd]
      rintro rfl
      exact Nat.lt_irrefl _ (h.callBelow _ (Table.mem_of_lookup hd))
    exact ⟨w, hold z w hw, hwo, hwr⟩
  · intro n handler hn
    obtain ⟨hnodup, hlist⟩ := h.lists n handler hn
    refine ⟨hnodup, fun z hz => ?_⟩
    obtain ⟨w, hw, hwo⟩ := hlist z hz
    exact ⟨w, hold z w hw, hwo⟩

/-- Responses of one list are destroyed, and the list keeps others or goes. -/
theorem dropResponses (h : ResponsesOwned s) (n : Nat) (xs : List Nat)
    {response : Table Nat AsyncResponse}
    {handler : Table Nat ClientListenerHandler}
    (hlookup : ∀ y, response.lookup y =
      if y ∈ xs then none else s.response.lookup y)
    (howned : ∀ x ∈ xs, ∃ y, s.response.lookup x = some y ∧
      y.owner = .handler n)
    (hothers : ∀ m, m ≠ n →
      handler.lookup m = s.asyncHandler.handler.lookup m)
    (hself : ∀ new, handler.lookup n = some new → new.responses.Nodup ∧
      ∀ x ∈ new.responses, x ∉ xs ∧
        ∃ y, s.response.lookup x = some y ∧ y.owner = .handler n) :
    ResponsesOwned { s with
      asyncHandler := { s.asyncHandler with handler }
      response } := by
  have hkeep : ∀ x y, s.response.lookup x = some y → y.owner ≠ .handler n →
      response.lookup x = some y := by
    intro x y hy hyo
    rw [hlookup, if_neg ?_, hy]
    intro hx
    obtain ⟨z, hz, hzo⟩ := howned x hx
    rw [hy] at hz
    cases hz
    exact hyo hzo
  refine ⟨h.sound, ?_, h.callBelow, ?_, ?_, ?_⟩
  · intro x hx
    obtain ⟨y, hy⟩ := Finmap.mem_iff.mp hx
    rw [hlookup] at hy
    split at hy
    · cases hy
    · exact h.below x (Table.mem_of_lookup hy)
  · intro d other hd
    refine (h.carries d other hd).frame ?_ (fun g _ => rfl)
      (fun m g hg => hg)
    rintro ⟨z, hz, hzo, hzr⟩
    exact ⟨z, hkeep d z hz (by simp [hzo]), hzo, hzr⟩
  · intro g y x hg hyx hnot
    obtain ⟨w, hw, hwo, hwr⟩ := h.held g y x hg hyx hnot
    exact ⟨w, hkeep x w hw (by simp [hwo]), hwo, hwr⟩
  · intro m new hm
    simp only at hm
    by_cases hmn : m = n
    · subst hmn
      obtain ⟨hnodup, hlist⟩ := hself new hm
      refine ⟨hnodup, fun x hx => ?_⟩
      obtain ⟨hout, y, hy, hyo⟩ := hlist x hx
      exact ⟨y, by rw [hlookup, if_neg hout, hy], hyo⟩
    · rw [hothers m hmn] at hm
      obtain ⟨hnodup, hlist⟩ := h.lists m new hm
      refine ⟨hnodup, fun x hx => ?_⟩
      obtain ⟨y, hy, hyo⟩ := hlist x hx
      exact ⟨y, hkeep x y hy (by simp [hyo, hmn]), hyo⟩

/-! ## Every step

No call is about to use a response that is gone, so each of its steps is one
of those above. -/

theorem not_gone (h : ResponsesOwned s) (hfut : FuturesLive s)
    (hcb : CallbacksLive s) {c : Nat} {call : EventCall} {fault : Fault}
    (hc : s.call.lookup c = some call) : ¬ s.Gone c call.phase fault := by
  cases fault with
  | onReply l =>
      rintro ⟨hl, hgone⟩
      exact Finmap.lookup_eq_none.mp hgone (hcb.replying c call l hc hl)
  | addCallbackRecord n =>
      rintro ⟨hn, hgone⟩
      exact Finmap.lookup_eq_none.mp hgone (hcb.recording c call n hc hn)
  | future f =>
      rintro ⟨hf, hgone⟩
      have hpast : call.phase ≠ .fetchFuture := by
        intro hphase
        rw [hphase] at hf
        cases hf
      obtain ⟨g, x, hg, hx, -⟩ := hfut.atWork c call hc hpast
      rw [hf] at hg
      cases hg
      rw [hgone] at hx
      cases hx
  | response x =>
      rintro ⟨huse, hgone⟩
      have hcarries := h.carries c call hc
      simp only [AsyncServer.Carries] at hcarries
      have hheld : ∀ f, s.futureAt call.phase = some f →
          call.phase ≠ .detachResponse f → s.responseOf f = some c →
          s.response.lookup c ≠ none := by
        intro f hcf hdetach hof hnone
        obtain ⟨future, hf, hfx⟩ := Option.bind_eq_some_iff.mp hof
        obtain ⟨y, hy, -⟩ := h.held_of_atWork hfut hc hcf hdetach hf hfx
        rw [hnone] at hy
        cases hy
      cases hphase : call.phase with
      | fetchFuture =>
          simp only [hphase] at huse hcarries
          subst huse
          obtain ⟨y, hy, -⟩ := hcarries
          rw [hgone] at hy
          cases hy
      | findListener f =>
          simp only [hphase] at huse hcarries
          subst huse
          exact hheld f (by rw [hphase]; rfl) (by simp [hphase]) hcarries hgone
      | addCallbackRecord f n y =>
          simp only [hphase] at huse hcarries
          rw [huse, hcarries.1] at hgone
          exact hheld f (by rw [hphase]; rfl) (by simp [hphase]) hcarries.2
            hgone
      | _ => simp only [hphase] at huse

theorem advanced (h : ResponsesOwned s) (hfut : FuturesLive s)
    (hcb : CallbacksLive s) {c : Nat} {call : EventCall}
    (hc : s.call.lookup c = some call) (hs : s.Advanced c call s') :
    ResponsesOwned s' := by
  have hcarries := h.carries c call hc
  simp only [AsyncServer.Carries] at hcarries
  cases hs with
  | fault hgone => exact absurd hgone (h.not_gone hfut hcb hc)
  | notFetched hphase | noListener hphase | notDeleted hphase =>
      exact h.endCall hc (by simp [hphase])
  | @fetched x f hphase hx hf =>
      simp only [hphase] at hcarries
      exact h.setCall hc (by simp [hphase]) hcarries
  | responseSet hphase hf hx => exact h.setResponse hfut hc hphase hf hx _
  | listenerFound hphase =>
      simp only [hphase] at hcarries
      exact h.setCall hc (by simp [hphase]) hcarries
  | @noResponse f l future hphase hf hx =>
      exact h.setCall hc (by simp [hphase]) trivial
  | @replied f l x future listener hphase hl hf hx =>
      simp only [hphase] at hcarries
      have hof := hcarries
      simp only [AsyncServer.responseOf, hf, Option.bind_some, hx] at hof
      exact h.setCall hc (by simp [hphase]) ⟨Option.some.inj hof, hcarries⟩
  | noHandler hphase => exact h.setCall hc (by simp [hphase]) trivial
  | handlerFound hphase =>
      simp only [hphase] at hcarries
      exact h.setCall hc (by simp [hphase]) hcarries
  | recorded hphase hn hx => exact h.addCallbackRecord hfut hc hphase hn hx _
  | detached hphase hf => exact h.detachResponse hfut hc hphase hf
  | @deleted n f future response fault hphase hn hf hx =>
      simp only [hphase] at hcarries
      have hempty := hcarries f hn
      simp only [AsyncServer.responseOf, hf, Option.bind_some] at hempty
      rw [hempty] at hx
      have hresponse : s.response = response :=
        congrArg AsyncServer.response hx
      have hfault : s.fault = fault := congrArg AsyncServer.fault hx
      rw [← hresponse, ← hfault]
      exact endCall (h.eraseFuture hf hempty) hc (by simp [hphase])

theorem took (h : ResponsesOwned s) (hfut : FuturesLive s)
    (hcb : CallbacksLive s) {i : AsyncStep} (hs : s.Took i s') :
    ResponsesOwned s' := by
  cases hs with
  | clients | createEngine | stopThread | sendRequest | refused | full | queued
  | popped | processed | dropped | numbered | transactions | registerListener
  | unregisterListener => exact { h with }
  | addFuture => exact { h.addFuture hfut _ _ _ with }
  | addHandler =>
      refine { h with lists := ?_ }
      intro n handler hn
      simp only [SaAsyncHandler.addClientListenerHandler, if_false,
        not_true_eq_false] at hn
      rw [Table.lookup_insert_if] at hn
      split at hn
      · cases hn
        exact ⟨List.nodup_nil, by simp⟩
      · exact h.lists n handler hn
  | @removeHandler clientId n response fault hn hx =>
      obtain ⟨handler, hhandler⟩ :=
        Finmap.mem_iff.mp (hcb.handlers.listed _ _ hn)
      obtain ⟨hnodup, hlist⟩ := h.lists n handler hhandler
      obtain ⟨response', heq, hlookup⟩ := AsyncServer.destroyResponses_live
        hnodup fun x hx => (hlist x hx).elim fun y hy =>
          Table.mem_of_lookup hy.1
      rw [hhandler, Option.elim_some, heq] at hx
      have hresponse : response' = response :=
        congrArg AsyncServer.response hx
      have hfault : s.fault = fault := congrArg AsyncServer.fault hx
      rw [← hresponse, ← hfault]
      exact { h.dropResponses _ _ hlookup hlist
        (fun m hm => Finmap.lookup_erase_ne hm)
        (fun new hnew => by cases (Finmap.lookup_erase _ _).symm.trans hnew) with }
  | @sendResponse i n x xs handler response fault hn hxs hx =>
      obtain ⟨hnodup, hlist⟩ := h.lists n handler hn
      rw [hxs] at hnodup hlist
      obtain ⟨hout, hnodup'⟩ := List.nodup_cons.mp hnodup
      obtain ⟨y, hy, hyo⟩ := hlist x (by simp)
      rw [AsyncServer.destroyResponse_live (Table.mem_of_lookup hy)] at hx
      have hresponse : s.response.erase x = response :=
        congrArg AsyncServer.response hx
      have hfault : s.fault = fault := congrArg AsyncServer.fault hx
      rw [← hresponse, ← hfault]
      refine h.dropResponses n [x] ?_ ?_ ?_ ?_
      · intro z
        rw [Table.lookup_erase_if]
        simp
      · intro z hz
        rw [List.mem_singleton.mp hz]
        exact ⟨y, hy, hyo⟩
      · exact fun m hm => Finmap.lookup_insert_of_ne _ hm
      · intro new hnew
        rw [Finmap.lookup_insert] at hnew
        cases hnew
        refine ⟨hnodup', fun z hz => ⟨?_, hlist z (by simp [hz])⟩⟩
        rw [List.mem_singleton]
        rintro rfl
        exact hout hz
  | onEvent hq hphase => exact h.onEvent rfl rfl rfl
  | processResponse hc hs => exact h.advanced hfut hcb hc hs

end ResponsesOwned

/-- The callbacks and the futures are both left alone while in use. -/
def keepsObjects (s : AsyncServer) (i : AsyncStep) : Prop :=
  keepsCallbacks s i ∧ keepsFutures s i

instance (s : AsyncServer) (i : AsyncStep) : Decidable (keepsObjects s i) :=
  inferInstanceAs (Decidable (_ ∧ _))

/-- What holds of the objects in the runs that keep them. -/
structure ObjectsLive (s : AsyncServer) : Prop where
  callbacks : CallbacksLive s
  requests : RequestsKnown s
  futures : FuturesLive s

theorem reach_objectsLive {s : AsyncServer}
    (hs : asyncMachine.Reach keepsObjects s) : ObjectsLive s where
  callbacks := reach_callbacksLive (hs.mono fun _ _ h => h.1)
  requests := reach_requestsKnown hs
  futures := reach_futuresLive (hs.mono fun _ _ h => h.2)

theorem reach_responsesOwned {s : AsyncServer}
    (hs : asyncMachine.Reach keepsObjects s) : ResponsesOwned s := by
  refine hs.invariant_of (fun _ => reach_objectsLive) ?_ ?_
  · rintro s rfl
    exact .initial
  · intro s i s' hlive h _ hstep
    exact h.took hlive.futures hlive.callbacks
      (AsyncServer.take_took (asyncMachine_step hstep).2)

end AiEngine.Ref
