import AiEngine.Lib.Registry
import AiEngine.Ref.AdapterWrapper

/-!
# The life of an adapter

`RemoveAdapterWrapper` deletes what it finds and looks neither at the
reference count nor at the worker that sends the client its responses. What
saves the adapter is the order of the client's requests: none is being served
when the adapter goes, and the thread that was started for the client has been
stopped, which takes that registering and unregistering do not overtake each
other.
-/

namespace AiEngine.Ref

open AiEngine.Lib

def WrapperKind.isCallback : WrapperKind → Bool
  | .request => false
  | .registerCallback => true
  | .unregisterCallback => true

namespace AdapterServer

/-- The thread that was started for a client, and not yet stopped for it. -/
def threadOf (s : AdapterServer) (c : Int32) : Option Nat :=
  (s.asyncHandler.clients.lookup c).bind fun h =>
    (s.asyncHandler.handler.lookup h).bind (·.asyncProcessThread)

/-- The client has no thread that is in its loop. -/
def Stopped (s : AdapterServer) (c : Int32) : Prop :=
  ∀ w ∈ s.threadOf c, ∀ worker ∈ s.worker.lookup w, worker.phase = .ended

instance (s : AdapterServer) (c : Int32) : Decidable (s.Stopped c) :=
  inferInstanceAs (Decidable (∀ w ∈ s.threadOf c, _))

/-- No request of the client is being served, and no thread sends it
responses. -/
def Idle (s : AdapterServer) (c : Int32) : Prop :=
  Table.countWith (fun call => call.clientId = c) s.call = 0 ∧ s.Stopped c

instance (s : AdapterServer) (c : Int32) : Decidable (s.Idle c) :=
  inferInstanceAs (Decidable (_ ∧ _))

/-- A wrapper has the adapter in hand, or a worker in its loop uses it. -/
def InUse (s : AdapterServer) (a : Nat) : Prop :=
  (∃ k call, s.call.lookup k = some call ∧ call.adapter = a) ∨
    ∃ w worker, s.worker.lookup w = some worker ∧ worker.phase ≠ .ended ∧
      worker.adapter = a

/-- A removal deletes an adapter that nobody uses, if any. -/
def RemovesUnused (s : AdapterServer) (c : Int32) : Prop :=
  ∀ a, s.findAdapter c = some a → ¬ s.InUse a

/-- A client's adapter is removed when the client is idle, and its callback
requests are served one after the other. -/
def removesIdle (s : AdapterServer) : AdapterStep → Prop
  | .removeAdapter c => s.Idle c
  | .beginCall kind c => kind.isCallback = true →
      Table.countWith (fun call => call.clientId = c ∧ call.kind.isCallback)
        s.call = 0
  | _ => True

instance (s : AdapterServer) (i : AdapterStep) : Decidable (s.removesIdle i) := by
  unfold removesIdle
  split <;> infer_instance

end AdapterServer

/-- The steps of the wrappers for callbacks. -/
def WrapperPhase.isCallback : WrapperPhase → Bool
  | .incRef => false
  | .serving => false
  | .decRef => false
  | _ => true

/-- What a wrapper has made sure of when it comes to a phase. -/
def PhaseOk (s : AdapterServer) (c : Int32) : WrapperPhase → Prop
  | .addHandler => s.asyncHandler.clients.lookup c = none
  | .waitThread h w => s.asyncHandler.clients.lookup c = some h ∧
      s.threadOf c = some w
  | .removeHandler => s.Stopped c
  | _ => True

/-- The wrappers under way have the adapters of their clients, and a client
has one callback request at a time. -/
structure CallsKept (s : AdapterServer) : Prop where
  calls : ∀ k call, s.call.lookup k = some call →
    s.findAdapter call.clientId = some call.adapter
  kinds : ∀ k call, s.call.lookup k = some call →
    call.phase.isCallback = true → call.kind.isCallback = true
  once : ∀ k l call call', s.call.lookup k = some call →
    s.call.lookup l = some call' → call.kind.isCallback = true →
      call'.kind.isCallback = true → call.clientId = call'.clientId → k = l

/-- The adapters are those of clients, and so are the threads: a worker in its
loop is the one its client's handler knows, with the client's adapter. -/
structure AdaptersKept (s : AdapterServer) : Prop where
  adapters : Registry s.adapters s.adapter s.adapterNum
  counter : 0 ≤ s.clientIdAtomic ∧ s.clientIdAtomic ≤ intMax
  held : CallsKept s
  phases : ∀ k call, s.call.lookup k = some call →
    PhaseOk s call.clientId call.phase
  handlers : Registry s.asyncHandler.clients s.asyncHandler.handler
    s.asyncHandler.handlerNum
  workers : ∀ w worker, s.worker.lookup w = some worker →
    worker.phase ≠ .ended →
      s.findAdapter worker.clientId = some worker.adapter ∧
        s.asyncHandler.clients.lookup worker.clientId = some worker.handler ∧
          s.threadOf worker.clientId = some w
  threads : ∀ c w, s.threadOf c = some w →
    ∃ worker, s.worker.lookup w = some worker ∧ worker.clientId = c
  below : ∀ w, w ∈ s.worker → w < s.workerNum
  fault : s.fault = none

theorem initial_adaptersKept : AdaptersKept .initial where
  adapters := .empty
  counter := by decide
  held := by
    constructor <;> simp [AdapterServer.initial]
  phases := by simp [AdapterServer.initial]
  handlers := .empty
  workers := by simp [AdapterServer.initial]
  threads := by
    simp [AdapterServer.threadOf, AdapterServer.initial, SaAsyncHandler.initial]
  below := fun w hw => absurd hw Finmap.notMem_empty
  fault := rfl

theorem setPhase_lookup {s : AdapterServer} {k l : Nat} {call x : WrapperCall}
    {phase : WrapperPhase}
    (h : (s.setPhase k call phase).call.lookup l = some x) :
    (l = k ∧ x = { call with phase }) ∨ (l ≠ k ∧ s.call.lookup l = some x) := by
  rw [AdapterServer.setPhase, Table.lookup_insert_if] at h
  split at h
  · next heq => exact .inl ⟨heq, (Option.some.inj h).symm⟩
  · next hne => exact .inr ⟨hne, h⟩

theorem CallsKept.setPhase {s : AdapterServer} {k : Nat} {call : WrapperCall}
    {phase : WrapperPhase} (hs : CallsKept s)
    (hk : s.call.lookup k = some call)
    (hkind : phase.isCallback = true → call.kind.isCallback = true) :
    CallsKept (s.setPhase k call phase) := by
  have hold (l : Nat) (x : WrapperCall)
      (hx : (s.setPhase k call phase).call.lookup l = some x) :
      ∃ y, s.call.lookup l = some y ∧ y.kind = x.kind ∧
        y.clientId = x.clientId := by
    rcases setPhase_lookup hx with ⟨rfl, rfl⟩ | ⟨-, hx⟩
    · exact ⟨call, hk, rfl, rfl⟩
    · exact ⟨x, hx, rfl, rfl⟩
  refine ⟨?_, ?_, ?_⟩
  · intro l x hx
    rcases setPhase_lookup hx with ⟨rfl, rfl⟩ | ⟨-, hx⟩
    · exact hs.calls l call hk
    · exact hs.calls l x hx
  · intro l x hx hcallback
    rcases setPhase_lookup hx with ⟨rfl, rfl⟩ | ⟨-, hx⟩
    · exact hkind hcallback
    · exact hs.kinds l x hx hcallback
  · intro l m x y hx hy hxk hyk hxy
    obtain ⟨x', hx', hxk', hxc⟩ := hold l x hx
    obtain ⟨y', hy', hyk', hyc⟩ := hold m y hy
    exact hs.once l m x' y' hx' hy' (hxk' ▸ hxk) (hyk' ▸ hyk)
      (hxc.trans (hxy.trans hyc.symm))

namespace AdaptersKept

variable {s s' : AdapterServer} {k : Nat} {call : WrapperCall}
  {phase : WrapperPhase} {env : WrapperEnv} {c : Int32} {a h w : Nat}

/-- What nobody uses is what no request and no thread of its client uses. -/
theorem removesUnused_iff (hs : AdaptersKept s) :
    s.RemovesUnused c ↔ s.Idle c := by
  constructor
  · intro hunused
    refine ⟨(Table.countWith_eq_zero _).mpr fun k call hk hc => ?_,
      fun w hw worker hworker => ?_⟩
    · subst hc
      exact hunused _ (hs.held.calls k call hk) (.inl ⟨k, call, hk, rfl⟩)
    · by_contra hlive
      obtain ⟨t, ht, hc⟩ := hs.threads c w hw
      cases hworker.symm.trans ht
      subst hc
      exact hunused _ (hs.workers w worker hworker hlive).1
        (.inr ⟨w, worker, hworker, hlive, rfl⟩)
  · rintro ⟨hcalls, hstopped⟩ a ha (⟨k, call, hk, rfl⟩ |
      ⟨w, worker, hw, hlive, rfl⟩)
    · have hc : call.clientId = c :=
        hs.adapters.single _ _ _ (hs.held.calls k call hk) ha
      exact (Table.countWith_eq_zero _).mp hcalls k call hk hc
    · obtain ⟨hfind, -, hthread⟩ := hs.workers w worker hw hlive
      have hc : worker.clientId = c := hs.adapters.single _ _ _ hfind ha
      exact hlive (hstopped w (hc ▸ hthread) worker hw)

theorem adapter_mem (hs : AdaptersKept s) (hk : s.call.lookup k = some call) :
    call.adapter ∈ s.adapter :=
  hs.adapters.listed _ _ (hs.held.calls k call hk)

theorem useAdapter (hs : AdaptersKept s) (hk : s.call.lookup k = some call)
    (next : AdapterServer) : s.useAdapter call.adapter next = next :=
  if_pos (hs.adapter_mem hk)

theorem setPhase (hs : AdaptersKept s) (hk : s.call.lookup k = some call)
    (hkind : phase.isCallback = true → call.kind.isCallback = true)
    (hphase : PhaseOk s call.clientId phase) :
    AdaptersKept (s.setPhase k call phase) := by
  refine { hs with held := hs.held.setPhase hk hkind, phases := ?_ }
  intro l x hx
  rcases setPhase_lookup hx with ⟨-, rfl⟩ | ⟨-, hx⟩
  · exact hphase
  · exact hs.phases l x hx

theorem setAdapter (hs : AdaptersKept s) {x : CountedAdapter}
    (hx : s.adapter.lookup a = some x) (x' : CountedAdapter) :
    AdaptersKept { s with adapter := s.adapter.insert a x' } :=
  { hs with
    adapters := hs.adapters.update (Table.mem_of_lookup hx) x'
    held := { hs.held with } }

theorem endCall (hs : AdaptersKept s) (k : Nat) :
    AdaptersKept { s with call := s.call.erase k } := by
  have hold (l : Nat) (x : WrapperCall)
      (hx : (s.call.erase k).lookup l = some x) :
      s.call.lookup l = some x := by
    rw [Table.lookup_erase_if] at hx
    split at hx
    · cases hx
    · exact hx
  exact { hs with
    held :=
      { calls := fun l x hx => hs.held.calls l x (hold l x hx)
        kinds := fun l x hx => hs.held.kinds l x (hold l x hx)
        once := fun l m x y hx hy =>
          hs.held.once l m x y (hold l x hx) (hold m y hy) }
    phases := fun l x hx => hs.phases l x (hold l x hx) }

theorem incRef (hs : AdaptersKept s) (hk : s.call.lookup k = some call) :
    AdaptersKept (s.incRef k call) := by
  unfold AdapterServer.incRef
  split
  · next hnone =>
      exact absurd (hs.adapter_mem hk) (Finmap.lookup_eq_none.mp hnone)
  · next x hx =>
      refine (hs.setAdapter hx _).setPhase hk ?_ ?_
      · cases call.kind <;> simp [WrapperKind.body, WrapperPhase.isCallback,
          WrapperKind.isCallback]
      · cases call.kind <;> exact trivial

theorem decRef (hs : AdaptersKept s) (hk : s.call.lookup k = some call) :
    AdaptersKept (s.decRef k call) := by
  unfold AdapterServer.decRef
  split
  · next hnone =>
      exact absurd (hs.adapter_mem hk) (Finmap.lookup_eq_none.mp hnone)
  · next x hx => exact (hs.setAdapter hx _).endCall k

/-! ## Threads and handlers

A thread that runs belongs to a handler, and the handler to a client whose
adapter is there. So a step that changes a handler or a worker has to keep the
link in both directions. -/

theorem threadOf_setHandler (hs : AdaptersKept s)
    (hc : s.asyncHandler.clients.lookup c = some h)
    (x : ClientListenerHandler) (d : Int32) :
    (s.setHandler h x).threadOf d =
      if d = c then x.asyncProcessThread else s.threadOf d := by
  simp only [AdapterServer.threadOf, AdapterServer.setHandler]
  split
  · next heq => rw [heq, hc, Option.bind_some, Finmap.lookup_insert,
      Option.bind_some]
  · next hne =>
      cases hd : s.asyncHandler.clients.lookup d with
      | none => rfl
      | some n =>
          have hn : n ≠ h := fun heq =>
            hne (hs.handlers.single d c h (heq ▸ hd) hc)
          rw [Option.bind_some, Option.bind_some,
            Finmap.lookup_insert_of_ne _ hn]

theorem threadOf_setHandler_same {x x' : ClientListenerHandler}
    (hx : s.asyncHandler.handler.lookup h = some x)
    (hsame : x'.asyncProcessThread = x.asyncProcessThread) (d : Int32) :
    (s.setHandler h x').threadOf d = s.threadOf d := by
  simp only [AdapterServer.threadOf, AdapterServer.setHandler]
  cases s.asyncHandler.clients.lookup d with
  | none => rfl
  | some n =>
      simp only [Option.bind_some, Table.lookup_insert_if]
      split
      · next heq => rw [heq, hx, Option.bind_some, Option.bind_some, hsame]
      · rfl

theorem thread_lt (hs : AdaptersKept s) (hw : s.threadOf c = some w) :
    w < s.workerNum := by
  obtain ⟨worker, hworker, -⟩ := hs.threads c w hw
  exact hs.below w (Table.mem_of_lookup hworker)

/-- What holds at a phase holds as long as nothing of the client changes. -/
theorem phaseOk_beside (h : PhaseOk s c phase)
    (hclients : s'.asyncHandler.clients.lookup c =
      s.asyncHandler.clients.lookup c)
    (hthread : s'.threadOf c = s.threadOf c)
    (hended : ∀ w, s.threadOf c = some w → ∀ worker',
      s'.worker.lookup w = some worker' → ∃ worker,
        s.worker.lookup w = some worker ∧
          (worker.phase = .ended → worker'.phase = .ended)) :
    PhaseOk s' c phase := by
  cases phase with
  | addHandler => exact hclients.trans h
  | waitThread n w => exact ⟨hclients.trans h.1, hthread.trans h.2⟩
  | removeHandler =>
      intro w hw worker' hworker'
      rw [hthread] at hw
      obtain ⟨worker, hworker, himp⟩ := hended w hw worker' hworker'
      exact himp (h w hw worker hworker)
  | _ => trivial

/-- Nothing is known at a phase of the wrappers that are no callbacks. -/
theorem phaseOk_plain (h : phase.isCallback = false) (s : AdapterServer)
    (c : Int32) : PhaseOk s c phase := by
  cases phase <;> trivial

theorem updateHandler (hs : AdaptersKept s) {x : ClientListenerHandler}
    (hx : s.asyncHandler.handler.lookup h = some x) (x' : ClientListenerHandler)
    (hsame : x'.asyncProcessThread = x.asyncProcessThread) :
    AdaptersKept (s.setHandler h x') := by
  have hthread := threadOf_setHandler_same hx hsame
  exact { hs with
    held := { hs.held with }
    phases := fun k call hk => phaseOk_beside (hs.phases k call hk) rfl
      (hthread _) fun w _ worker hw => ⟨worker, hw, id⟩
    handlers := hs.handlers.update (Table.mem_of_lookup hx) x'
    workers := fun w worker hw hlive => by
      rw [hthread]
      exact hs.workers w worker hw hlive
    threads := fun c w hw => hs.threads c w ((hthread c).symm.trans hw) }

theorem updateWorker (hs : AdaptersKept s) {x : AsyncProcessWorker}
    (hx : s.worker.lookup w = some x) (x' : AsyncProcessWorker)
    (hsame : x'.clientId = x.clientId ∧ x'.handler = x.handler ∧
      x'.adapter = x.adapter)
    (hended : x.phase = .ended → x'.phase = .ended) :
    AdaptersKept { s with worker := s.worker.insert w x' } := by
  obtain ⟨hclient, hhandler, hadapter⟩ := hsame
  have hold (v : Nat) (y : AsyncProcessWorker)
      (hy : (s.worker.insert w x').lookup v = some y) :
      ∃ z, s.worker.lookup v = some z ∧ y.clientId = z.clientId ∧
        y.handler = z.handler ∧ y.adapter = z.adapter ∧
          (z.phase = .ended → y.phase = .ended) := by
    rw [Table.lookup_insert_if] at hy
    split at hy
    · next heq =>
        cases hy
        exact ⟨x, heq ▸ hx, hclient, hhandler, hadapter, hended⟩
    · exact ⟨y, hy, rfl, rfl, rfl, id⟩
  refine { hs with
    held := { hs.held with }
    phases := ?_, workers := ?_, threads := ?_, below := ?_ }
  · intro k call hk
    refine phaseOk_beside (hs.phases k call hk) rfl rfl fun v _ y hy => ?_
    · obtain ⟨z, hz, -, -, -, himp⟩ := hold v y hy
      exact ⟨z, hz, himp⟩
  · intro v y hy hlive
    obtain ⟨z, hz, hzc, hzh, hza, himp⟩ := hold v y hy
    rw [hzc, hzh, hza]
    exact hs.workers v z hz fun hend => hlive (himp hend)
  · intro c v hv
    obtain ⟨z, hz, hzc⟩ := hs.threads c v hv
    by_cases heq : v = w
    · subst heq
      cases hx.symm.trans hz
      exact ⟨x', Finmap.lookup_insert _, hclient.trans hzc⟩
    · exact ⟨z, (Finmap.lookup_insert_of_ne _ heq).trans hz, hzc⟩
  · intro v hv
    rcases Finmap.mem_insert.mp hv with rfl | hv
    · exact hs.below v (Table.mem_of_lookup hx)
    · exact hs.below v hv

/-- A callback request changes what its client has, and moves on. The other
requests of the client are none for callbacks, so nothing is known at their
phases. -/
theorem moveOn (hs : AdaptersKept s) (hk : s.call.lookup k = some call)
    (hcallback : call.kind.isCallback = true) {asyncHandler : SaAsyncHandler}
    {worker : Table Nat AsyncProcessWorker} {workerNum : Nat}
    (hs' : s' = { s with asyncHandler, worker, workerNum })
    (hbeside : ∀ d, d ≠ call.clientId → ∀ p, PhaseOk s d p → PhaseOk s' d p)
    (hphase : PhaseOk s' call.clientId phase)
    (hhandlers : Registry asyncHandler.clients asyncHandler.handler
      asyncHandler.handlerNum)
    (hworkers : ∀ w worker, s'.worker.lookup w = some worker →
      worker.phase ≠ .ended →
        s'.findAdapter worker.clientId = some worker.adapter ∧
          s'.asyncHandler.clients.lookup worker.clientId =
            some worker.handler ∧ s'.threadOf worker.clientId = some w)
    (hthreads : ∀ c w, s'.threadOf c = some w →
      ∃ worker, s'.worker.lookup w = some worker ∧ worker.clientId = c)
    (hbelow : ∀ w, w ∈ worker → w < workerNum) :
    AdaptersKept (s'.setPhase k call phase) := by
  subst hs'
  have hheld : CallsKept { s with asyncHandler, worker, workerNum } :=
    ⟨hs.held.calls, hs.held.kinds, hs.held.once⟩
  refine ⟨hs.adapters, hs.counter, hheld.setPhase hk fun _ => hcallback, ?_,
    hhandlers, hworkers, hthreads, hbelow, hs.fault⟩
  intro l x hx
  rcases setPhase_lookup hx with ⟨-, rfl⟩ | ⟨hne, hx⟩
  · exact hphase
  · by_cases hc : x.clientId = call.clientId
    · refine phaseOk_plain (Bool.eq_false_iff.mpr fun hx' => hne ?_) _ _
      exact hs.held.once l k x call hx hk (hs.held.kinds l x hx hx') hcallback hc
    · exact hbeside _ hc _ (hs.phases l x hx)

/-- The handler of a client comes or goes while no thread of the client is in
its loop. -/
theorem moveHandler (hs : AdaptersKept s) (hk : s.call.lookup k = some call)
    (hcallback : call.kind.isCallback = true) {asyncHandler : SaAsyncHandler}
    (hclients : ∀ d, d ≠ call.clientId →
      asyncHandler.clients.lookup d = s.asyncHandler.clients.lookup d)
    (hhandler : ∀ d n, d ≠ call.clientId →
      s.asyncHandler.clients.lookup d = some n →
        asyncHandler.handler.lookup n = s.asyncHandler.handler.lookup n)
    (hself : ({ s with asyncHandler } : AdapterServer).threadOf
      call.clientId = none)
    (hidle : ∀ w worker, s.worker.lookup w = some worker →
      worker.phase ≠ .ended → worker.clientId ≠ call.clientId)
    (hhandlers : Registry asyncHandler.clients asyncHandler.handler
      asyncHandler.handlerNum)
    (hphase : PhaseOk { s with asyncHandler } call.clientId phase) :
    AdaptersKept
      (({ s with asyncHandler } : AdapterServer).setPhase k call phase) := by
  have hother (d : Int32) (hd : d ≠ call.clientId) :
      ({ s with asyncHandler } : AdapterServer).threadOf d = s.threadOf d := by
    unfold AdapterServer.threadOf
    rw [hclients d hd]
    cases hn : s.asyncHandler.clients.lookup d with
    | none => rfl
    | some n =>
        rw [Option.bind_some, Option.bind_some, hhandler d n hd hn]
  refine hs.moveOn hk hcallback rfl ?_ hphase hhandlers ?_ ?_ hs.below
  · intro d hd p hp
    exact phaseOk_beside hp (hclients d hd) (hother d hd)
      fun w _ worker hw => ⟨worker, hw, id⟩
  · intro w worker hw hlive
    obtain ⟨hadapter, hclient, hthread⟩ := hs.workers w worker hw hlive
    have hd := hidle w worker hw hlive
    exact ⟨hadapter, (hclients _ hd).trans hclient,
      (hother _ hd).trans hthread⟩
  · intro d w hw
    by_cases hd : d = call.clientId
    · rw [hd, hself] at hw
      cases hw
    · rw [hother d hd] at hw
      exact hs.threads d w hw

theorem getInstance (hs : AdaptersKept s) {alloc has : Bool}
    {asyncHandler : SaAsyncHandler}
    (h : s.asyncHandler.getInstance alloc = (has, asyncHandler)) :
    AdaptersKept { s with asyncHandler } ∧
      asyncHandler.clients = s.asyncHandler.clients ∧
        asyncHandler.handler = s.asyncHandler.handler := by
  unfold SaAsyncHandler.getInstance at h
  split at h <;> cases h
  · exact ⟨hs, rfl, rfl⟩
  · refine ⟨{ hs with
      held := { hs.held with }
      phases := fun k call hk => ?_ }, rfl, rfl⟩
    exact phaseOk_beside (hs.phases k call hk) rfl rfl
      fun w _ worker hw => ⟨worker, hw, id⟩

theorem findHandler (hs : AdaptersKept s) (hk : s.call.lookup k = some call)
    (hcallback : call.kind.isCallback = true) (env : WrapperEnv) :
    AdaptersKept (s.findHandler env k call) := by
  unfold AdapterServer.findHandler
  split
  · exact hs.setPhase hk (fun h => by cases h) trivial
  · next asyncHandler hinst =>
      obtain ⟨hs', hclients, -⟩ := hs.getInstance hinst
      dsimp only
      split
      · next hnone => exact hs'.setPhase hk (fun _ => hcallback) hnone
      · exact hs'.setPhase hk (fun _ => hcallback) trivial

theorem addHandler (hs : AdaptersKept s) (hk : s.call.lookup k = some call)
    (hcallback : call.kind.isCallback = true)
    (hnone : s.asyncHandler.clients.lookup call.clientId = none)
    (env : WrapperEnv) : AdaptersKept (s.addHandler env k call) := by
  unfold AdapterServer.addHandler SaAsyncHandler.addClientListenerHandler
  dsimp only
  split
  · exact hs.setPhase hk (fun _ => hcallback) trivial
  · refine hs.moveHandler hk hcallback
      (fun d hd => Finmap.lookup_insert_of_ne _ hd) ?_ ?_ ?_
      (hs.handlers.insert _ _) trivial
    · intro d n _ hn
      exact Finmap.lookup_insert_of_ne _ (Nat.ne_of_lt (hs.handlers.lt hn))
    · simp [AdapterServer.threadOf]
    · intro w worker hw hlive heq
      cases hnone.symm.trans (heq ▸ (hs.workers w worker hw hlive).2.1)

theorem threadOf_eq {x : ClientListenerHandler}
    (hc : s.asyncHandler.clients.lookup c = some h)
    (hx : s.asyncHandler.handler.lookup h = some x) :
    s.threadOf c = x.asyncProcessThread := by
  rw [AdapterServer.threadOf, hc, Option.bind_some, hx, Option.bind_some]

theorem workerStarted (hs : AdaptersKept s)
    (hk : s.call.lookup k = some call) (hcallback : call.kind.isCallback = true)
    (hc : s.asyncHandler.clients.lookup call.clientId = some h)
    (hidle : s.threadOf call.clientId = none) (x : ClientListenerHandler)
    (hx : x.asyncProcessThread = some s.workerNum) :
    AdaptersKept ({ s.setHandler h x with
      worker := s.worker.insert s.workerNum
        ⟨h, call.clientId, call.adapter, true, .fetch⟩
      workerNum := s.workerNum + 1 }.setPhase k call .decRef) := by
  generalize hs' : ({ s.setHandler h x with
      worker := s.worker.insert s.workerNum
        ⟨h, call.clientId, call.adapter, true, .fetch⟩
      workerNum := s.workerNum + 1 } : AdapterServer) = s'
  have hthread (d : Int32) : s'.threadOf d =
      if d = call.clientId then some s.workerNum else s.threadOf d := by
    have hset := hs.threadOf_setHandler hc x d
    rw [hx] at hset
    subst hs'
    exact hset
  have hold {w : Nat} (hw : w ≠ s.workerNum) :
      s'.worker.lookup w = s.worker.lookup w := by
    subst hs'
    exact Finmap.lookup_insert_of_ne _ hw
  have hnew : s'.worker.lookup s.workerNum =
      some ⟨h, call.clientId, call.adapter, true, .fetch⟩ := by
    subst hs'
    exact Finmap.lookup_insert _
  have hclients : s'.asyncHandler.clients = s.asyncHandler.clients := by
    subst hs'
    rfl
  have hfind (d : Int32) : s'.findAdapter d = s.findAdapter d := by
    subst hs'
    rfl
  refine hs.moveOn hk hcallback hs'.symm ?_ trivial ?_ ?_ ?_ ?_
  · intro d hd p hp
    refine phaseOk_beside hp ?_ ?_ fun w hw y hy => ⟨y, ?_, id⟩
    · rw [hclients]
    · rw [hthread, if_neg hd]
    · rw [← hold (Nat.ne_of_lt (hs.thread_lt hw))]
      exact hy
  · exact hs.handlers.update (hs.handlers.listed _ _ hc) x
  · intro w y hw hlive
    rw [hfind, hclients, hthread]
    by_cases hwn : w = s.workerNum
    · subst hwn
      cases hnew.symm.trans hw
      exact ⟨hs.held.calls k call hk, hc, if_pos rfl⟩
    · rw [hold hwn] at hw
      obtain ⟨ha, hh, ht⟩ := hs.workers w y hw hlive
      have hd : y.clientId ≠ call.clientId := by
        intro heq
        cases hidle.symm.trans (heq ▸ ht)
      rw [if_neg hd]
      exact ⟨ha, hh, ht⟩
  · intro d w hw
    rw [hthread] at hw
    split at hw
    · next heq =>
        cases hw
        exact ⟨_, hnew, heq.symm⟩
    · rw [hold (Nat.ne_of_lt (hs.thread_lt hw))]
      exact hs.threads d w hw
  · intro w hw
    rcases Finmap.mem_insert.mp hw with rfl | hw
    · exact Nat.lt_succ_self _
    · exact Nat.lt_succ_of_lt (hs.below w hw)

theorem startAsyncProcess (hs : AdaptersKept s)
    (hk : s.call.lookup k = some call) (hcallback : call.kind.isCallback = true)
    (env : WrapperEnv) : AdaptersKept (s.startAsyncProcess env k call) := by
  have hended : AdaptersKept (s.setPhase k call .decRef) :=
    hs.setPhase hk (fun h => by cases h) trivial
  unfold AdapterServer.startAsyncProcess
  dsimp only
  split
  · exact hended
  · next h hc =>
      split
      · exact hended
      · next x hx =>
          split
          · exact hended
          · split
            · exact hended
            · next hfree =>
                split
                · exact hended
                · have hc' : s.asyncHandler.clients.lookup call.clientId =
                    some h := hc
                  have hidle : s.threadOf call.clientId = none := by
                    rw [threadOf_eq hc' hx]
                    rw [not_or, not_not] at hfree
                    exact hfree.1
                  exact hs.workerStarted hk hcallback hc' hidle _ rfl

/-- A client's thread that has left its loop is forgotten. -/
theorem workerStopped (hs : AdaptersKept s)
    (hk : s.call.lookup k = some call) (hcallback : call.kind.isCallback = true)
    (hc : s.asyncHandler.clients.lookup call.clientId = some h)
    (hthread : s.threadOf call.clientId = some w) {y : AsyncProcessWorker}
    (hy : s.worker.lookup w = some y) (hend : y.phase = .ended)
    (x : ClientListenerHandler) (hx : x.asyncProcessThread = none) :
    AdaptersKept ((s.setHandler h x).setPhase k call .removeHandler) := by
  have hset (d : Int32) : (s.setHandler h x).threadOf d =
      if d = call.clientId then none else s.threadOf d := by
    rw [hs.threadOf_setHandler hc x d, hx]
  have hs' : s.setHandler h x = { s with
      asyncHandler := { s.asyncHandler with
        handler := s.asyncHandler.handler.insert h x }
      worker := s.worker
      workerNum := s.workerNum } := rfl
  refine hs.moveOn hk hcallback hs' ?_ ?_ ?_ ?_ ?_ hs.below
  · intro d hd p hp
    refine phaseOk_beside hp rfl ?_ fun v _ z hz => ⟨z, hz, id⟩
    rw [hset, if_neg hd]
  · intro v hv
    rw [hset, if_pos rfl] at hv
    cases hv
  · exact hs.handlers.update (hs.handlers.listed _ _ hc) x
  · intro v z hz hlive
    obtain ⟨ha, hh, ht⟩ := hs.workers v z hz hlive
    have hd : z.clientId ≠ call.clientId := by
      intro heq
      cases hthread.symm.trans (heq ▸ ht)
      cases hy.symm.trans hz
      exact hlive hend
    rw [hset, if_neg hd]
    exact ⟨ha, hh, ht⟩
  · intro d v hv
    rw [hset] at hv
    split at hv
    · cases hv
    · exact hs.threads d v hv

theorem handlerRemoved (hs : AdaptersKept s)
    (hk : s.call.lookup k = some call) (hcallback : call.kind.isCallback = true)
    (hstopped : s.Stopped call.clientId)
    (hc : s.asyncHandler.clients.lookup call.clientId = some h) :
    AdaptersKept ({ s with asyncHandler := { s.asyncHandler with
      handler := s.asyncHandler.handler.erase h
      clients := s.asyncHandler.clients.erase call.clientId } }.setPhase k call
        .clearEngineListener) := by
  refine hs.moveHandler hk hcallback (fun d hd => Finmap.lookup_erase_ne hd)
    ?_ ?_ ?_ (hs.handlers.erase hc) trivial
  · intro d n hd hn
    have hne : n ≠ h := fun heq =>
      hd (hs.handlers.single d _ h (heq ▸ hn) hc)
    exact Finmap.lookup_erase_ne hne
  · simp [AdapterServer.threadOf]
  · intro w worker hw hlive heq
    have hthread := (hs.workers w worker hw hlive).2.2
    exact hlive (hstopped w (heq ▸ hthread) worker hw)

theorem stopAsyncProcess (hs : AdaptersKept s)
    (hk : s.call.lookup k = some call) (hcallback : call.kind.isCallback = true)
    (env : WrapperEnv) : AdaptersKept (s.stopAsyncProcess env k call) := by
  unfold AdapterServer.stopAsyncProcess
  split
  · exact hs.setPhase hk (fun h => by cases h) trivial
  · next asyncHandler hinst =>
      obtain ⟨hs', -, -⟩ := hs.getInstance hinst
      clear hinst
      generalize hs₁ : ({ s with asyncHandler } : AdapterServer) = s₁ at hs'
      have hk₁ : s₁.call.lookup k = some call := by
        subst hs₁
        exact hk
      obtain rfl : s₁.asyncHandler = asyncHandler := by
        subst hs₁
        rfl
      dsimp only
      have hstopped (hnone : s₁.threadOf call.clientId = none) :
          AdaptersKept (s₁.setPhase k call .removeHandler) := by
        refine hs'.setPhase hk₁ (fun _ => hcallback) fun w hw => ?_
        cases hnone.symm.trans hw
      split
      · next hnone =>
          refine hstopped ?_
          rw [AdapterServer.threadOf, show s₁.asyncHandler.clients.lookup
            call.clientId = none from hnone]
          rfl
      · next h hc =>
          split
          · next hnone =>
              refine hstopped ?_
              rw [AdapterServer.threadOf, show s₁.asyncHandler.clients.lookup
                call.clientId = some h from hc, Option.bind_some, hnone]
              rfl
          · next x hx =>
              have hthread := threadOf_eq hc hx
              split
              · next hnone =>
                  have hset := hs'.updateHandler hx
                    { x with asyncProcessWorker := false } rfl
                  refine hset.setPhase hk₁ (fun _ => hcallback) fun w hw => ?_
                  have hsame := threadOf_setHandler_same hx
                    (show { x with asyncProcessWorker := false
                      }.asyncProcessThread = _ from rfl) call.clientId
                  cases (hsame.trans (hthread.trans hnone)).symm.trans hw
              · next w hw =>
                  split
                  · next hnone =>
                      refine hs'.setPhase hk₁ (fun _ => hcallback)
                        fun v hv y hy => ?_
                      rw [hthread, hw] at hv
                      cases hv
                      cases hnone.symm.trans hy
                  · next y hy =>
                      have hset := hs'.updateWorker hy
                        { y with running := false } ⟨rfl, rfl, rfl⟩ id
                      refine hset.setPhase hk₁ (fun _ => hcallback) ⟨hc, ?_⟩
                      exact hthread.trans hw

theorem threadStopped (hs : AdaptersKept s)
    (hk : s.call.lookup k = some call) (hcallback : call.kind.isCallback = true)
    (hphase : PhaseOk s call.clientId (.waitThread h w)) (env : WrapperEnv)
    (hstep : s.threadStopped env k call h w = some s') : AdaptersKept s' := by
  obtain ⟨hc, hthread⟩ := hphase
  unfold AdapterServer.threadStopped at hstep
  split at hstep
  · cases hstep
  · next y hy =>
      split at hstep
      · cases hstep
      · next hend =>
          have hend := Decidable.of_not_not hend
          split at hstep
          · cases hstep
            refine hs.setPhase hk (fun _ => hcallback) fun v hv z hz => ?_
            cases hthread.symm.trans hv
            cases hy.symm.trans hz
            exact hend
          · split at hstep
            · next hnone =>
                rw [AdapterServer.threadOf, hc, Option.bind_some, hnone]
                  at hthread
                cases hthread
            · next x hx =>
                cases hstep
                exact hs.workerStopped hk hcallback hc hthread hy hend _ rfl

theorem removeHandler (hs : AdaptersKept s)
    (hk : s.call.lookup k = some call) (hcallback : call.kind.isCallback = true)
    (hstopped : s.Stopped call.clientId) :
    AdaptersKept (s.removeHandler k call) := by
  unfold AdapterServer.removeHandler SaAsyncHandler.removeClientListenerHandler
  dsimp only
  split
  · exact hs.setPhase hk (fun _ => hcallback) trivial
  · next h hc => exact hs.handlerRemoved hk hcallback hstopped hc

theorem serve (hs : AdaptersKept s) (hstep : s.serve env k = some s') :
    AdaptersKept s' := by
  unfold AdapterServer.serve at hstep
  split at hstep
  · cases hstep
  · next call hk =>
      have hkind := hs.held.kinds k call hk
      have hphase := hs.phases k call hk
      have huse := hs.useAdapter hk
      cases hp : call.phase with
      | incRef =>
          rw [hp] at hstep
          cases hstep
          exact hs.incRef hk
      | serving =>
          simp only [hp, huse] at hstep
          cases hstep
          refine hs.setPhase hk ?_ ?_
          · split <;> exact fun h => by cases h
          · split <;> exact trivial
      | saveEngineListener =>
          simp only [hp, huse] at hstep
          cases hstep
          exact hs.setPhase hk (fun _ => hkind (hp ▸ rfl)) trivial
      | findHandler =>
          rw [hp] at hstep
          cases hstep
          exact hs.findHandler hk (hkind (hp ▸ rfl)) env
      | addHandler =>
          rw [hp] at hstep hphase
          cases hstep
          exact hs.addHandler hk (hkind (hp ▸ rfl)) hphase env
      | startAsyncProcess =>
          rw [hp] at hstep
          cases hstep
          exact hs.startAsyncProcess hk (hkind (hp ▸ rfl)) env
      | stopAsyncProcess =>
          rw [hp] at hstep
          cases hstep
          exact hs.stopAsyncProcess hk (hkind (hp ▸ rfl)) env
      | waitThread h w =>
          rw [hp] at hstep hphase
          exact hs.threadStopped hk (hkind (hp ▸ rfl)) hphase env hstep
      | removeHandler =>
          rw [hp] at hstep hphase
          cases hstep
          exact hs.removeHandler hk (hkind (hp ▸ rfl)) hphase
      | clearEngineListener =>
          simp only [hp, huse] at hstep
          cases hstep
          exact hs.setPhase hk (fun h => by cases h) trivial
      | decRef =>
          rw [hp] at hstep
          cases hstep
          exact hs.decRef hk

theorem oneAction (hs : AdaptersKept s) {sent : Bool}
    (hstep : s.oneAction w sent = some s') : AdaptersKept s' := by
  unfold AdapterServer.oneAction at hstep
  split at hstep
  · cases hstep
  · next x hx =>
      have hset (phase : SendPhase) (hlive : x.phase ≠ .ended) :
          AdaptersKept (s.setWorker w x phase) :=
        hs.updateWorker hx { x with phase } ⟨rfl, rfl, rfl⟩
          fun h => absurd h hlive
      have huse (hlive : x.phase ≠ .ended) (next : AdapterServer) :
          s.useAdapter x.adapter next = next :=
        if_pos (hs.adapters.listed _ _ (hs.workers w x hx hlive).1)
      cases hp : x.phase with
      | fetch =>
          have hlive : x.phase ≠ .ended := by
            rw [hp]
            decide
          simp only [hp] at hstep
          split at hstep
          · cases hstep
            exact hset .ended hlive
          · have hmem := hs.handlers.listed _ _ (hs.workers w x hx hlive).2.1
            split at hstep
            · next hnone => exact absurd hmem (Finmap.lookup_eq_none.mp hnone)
            · next handler hhandler =>
                split at hstep
                · cases hstep
                  exact hs
                · next y ys _ =>
                    cases hstep
                    have hs₁ := hs.updateHandler hhandler
                      { handler with responses := ys } rfl
                    exact hs₁.updateWorker hx { x with phase := .ipcIoResponse }
                      ⟨rfl, rfl, rfl⟩ fun h => absurd h hlive
      | ipcIoResponse =>
          have hlive : x.phase ≠ .ended := by
            rw [hp]
            decide
          simp only [hp, huse hlive] at hstep
          cases hstep
          exact hset _ hlive
      | getEngineListener =>
          have hlive : x.phase ≠ .ended := by
            rw [hp]
            decide
          simp only [hp, huse hlive] at hstep
          cases hstep
          exact hset _ hlive
      | ended =>
          simp only [hp] at hstep
          cases hstep

theorem pushAsyncResponse (hs : AdaptersKept s) (c : Int32) (response : Nat) :
    AdaptersKept (s.pushAsyncResponse c response) := by
  unfold AdapterServer.pushAsyncResponse
  split
  · exact hs
  · next h hc =>
      have hmem := hs.handlers.listed _ _ hc
      split
      · next hnone => exact absurd hmem (Finmap.lookup_eq_none.mp hnone)
      · next x hx => exact hs.updateHandler hx _ rfl

theorem beginCall (hs : AdaptersKept s) {kind : WrapperKind}
    (hok : s.removesIdle (.beginCall kind c)) :
    AdaptersKept (s.beginCall kind c) := by
  unfold AdapterServer.beginCall
  split
  · exact hs
  · next a ha =>
      have hlookup (l : Nat) (x : WrapperCall)
          (hx : (s.call.insert s.callNum ⟨kind, c, a, .incRef⟩).lookup l =
            some x) :
          (l = s.callNum ∧ x = ⟨kind, c, a, .incRef⟩) ∨
            s.call.lookup l = some x := by
        rw [Table.lookup_insert_if] at hx
        split at hx
        · next heq => exact .inl ⟨heq, (Option.some.inj hx).symm⟩
        · exact .inr hx
      have hfree (hkind : kind.isCallback = true) (l : Nat) (x : WrapperCall)
          (hx : s.call.lookup l = some x) (hxk : x.kind.isCallback = true) :
          x.clientId ≠ c := fun hxc =>
        (Table.countWith_eq_zero _).mp (hok hkind) l x hx ⟨hxc, hxk⟩
      refine { hs with
        held := ⟨fun l x hx => ?_, fun l x hx hcallback => ?_,
          fun l m x y hx hy hxk hyk hxy => ?_⟩
        phases := fun l x hx => ?_ }
      · rcases hlookup l x hx with ⟨-, rfl⟩ | hx
        · exact ha
        · exact hs.held.calls l x hx
      · rcases hlookup l x hx with ⟨-, rfl⟩ | hx
        · cases hcallback
        · exact hs.held.kinds l x hx hcallback
      · rcases hlookup l x hx with ⟨rfl, rfl⟩ | hx
        · rcases hlookup m y hy with ⟨rfl, -⟩ | hy
          · rfl
          · exact absurd hxy.symm (hfree hxk m y hy hyk)
        · rcases hlookup m y hy with ⟨rfl, rfl⟩ | hy
          · exact absurd hxy (hfree hyk l x hx hxk)
          · exact hs.held.once l m x y hx hy hxk hyk hxy
      · rcases hlookup l x hx with ⟨-, rfl⟩ | hx
        · trivial
        · exact hs.phases l x hx

theorem removeAdapter (hs : AdaptersKept s) (hidle : s.Idle c) :
    AdaptersKept (s.removeAdapter c) := by
  unfold AdapterServer.removeAdapter
  split
  · exact hs
  · next a ha =>
      have hfind {d : Int32} (hd : d ≠ c) :
          (s.adapters.erase c).lookup d = s.findAdapter d :=
        Finmap.lookup_erase_ne hd
      refine { hs with
        adapters := hs.adapters.erase ha
        held := { hs.held with calls := fun k call hk => ?_ }
        workers := fun w x hx hlive => ?_ }
      · have hd : call.clientId ≠ c :=
          (Table.countWith_eq_zero _).mp hidle.1 k call hk
        exact (hfind hd).trans (hs.held.calls k call hk)
      · obtain ⟨hfound, hh, ht⟩ := hs.workers w x hx hlive
        have hd : x.clientId ≠ c := fun heq =>
          hlive (hidle.2 w (heq ▸ ht) x hx)
        exact ⟨(hfind hd).trans hfound, hh, ht⟩

theorem generateClient (hs : AdaptersKept s) (newAdapter : Bool) :
    AdaptersKept (s.generateClient newAdapter) := by
  unfold AdapterServer.generateClient
  split
  · exact hs
  · next hroom =>
      obtain ⟨hbounds, hnew⟩ := searchClientId_free hs.counter.1 hs.counter.2
        (Nat.not_lt.mp hroom)
      dsimp only at hbounds hnew ⊢
      generalize FreshId.search startingClientId intMax
        (s.adapters.keys.image Int32.toInt)
        ((s.adapters.keys.image Int32.toInt).card + 1) s.clientIdAtomic = id
        at hbounds hnew ⊢
      have hfree : s.findAdapter (Int32.ofInt id) = none :=
        Finmap.lookup_eq_none.mpr fun hin => hnew (Finmap.mem_keys.mpr hin)
      have hfind {d : Int32} {a : Nat} (ha : s.findAdapter d = some a) :
          (s.adapters.insert (Int32.ofInt id) s.adapterNum).lookup d =
            some a := by
        have hd : d ≠ Int32.ofInt id := fun heq => by
          cases hfree.symm.trans (heq ▸ ha)
        exact (Finmap.lookup_insert_of_ne _ hd).trans ha
      split
      · exact { hs with
          held := { hs.held with }
          phases := fun k call hk => phaseOk_beside (hs.phases k call hk) rfl
            rfl fun w _ x hx => ⟨x, hx, fun h => h⟩
          counter := hbounds }
      · refine { hs with
          adapters := hs.adapters.insert _ _
          counter := hbounds
          held := { hs.held with calls := fun k call hk => ?_ }
          phases := fun k call hk => phaseOk_beside (hs.phases k call hk) rfl
            rfl fun w _ x hx => ⟨x, hx, fun h => h⟩
          workers := fun w x hx hlive => ?_ }
        · exact hfind (hs.held.calls k call hk)
        · obtain ⟨hfound, hh, ht⟩ := hs.workers w x hx hlive
          exact ⟨hfind hfound, hh, ht⟩

theorem take (hs : AdaptersKept s) {i : AdapterStep} (hok : s.removesIdle i)
    (hstep : s.take i = some s') : AdaptersKept s' := by
  cases i with
  | generateClient newAdapter =>
      cases hstep
      exact hs.generateClient newAdapter
  | removeAdapter c =>
      cases hstep
      exact hs.removeAdapter hok
  | beginCall kind c =>
      cases hstep
      exact hs.beginCall hok
  | serve env k => exact hs.serve hstep
  | oneAction w sent => exact hs.oneAction hstep
  | pushAsyncResponse c response =>
      cases hstep
      exact hs.pushAsyncResponse c response

end AdaptersKept

theorem reach_adaptersKept {s : AdapterServer}
    (hs : adapterMachine.Reach AdapterServer.removesIdle s) :
    AdaptersKept s := by
  refine hs.invariant ?_ ?_
  · rintro s rfl
    exact initial_adaptersKept
  · intro s i s' hinv hok hstep
    simp only [adapterMachine] at hstep
    split at hstep
    · exact hinv.take hok hstep
    · cases hstep

/-- Where adapters go only while their clients are idle, and callback requests
of a client do not overtake each other, no deleted object is used; and what
makes the next removal delete an adapter that nobody uses is exactly that its
client is idle. -/
theorem reach_removesUnused {s : AdapterServer}
    (hs : adapterMachine.Reach AdapterServer.removesIdle s) :
    s.fault = none ∧ ∀ c, s.RemovesUnused c ↔ s.Idle c :=
  ⟨(reach_adaptersKept hs).fault,
    fun _ => (reach_adaptersKept hs).removesUnused_iff⟩

/-! ## A client with a callback

A client registers a callback, which starts its thread, and goes. Removing the
adapter while that thread still runs deletes what the thread holds. -/

/-- A client connects and registers a callback, and its worker has a response
to send. -/
def adapterSample : List AdapterStep :=
  [.generateClient true, .beginCall .registerCallback 1] ++
    List.replicate 6 (.serve .willing 0) ++
    [.pushAsyncResponse 1 0, .oneAction 0 true]

/-- It unregisters the callback and goes. -/
def adapterUnregistered : List AdapterStep :=
  adapterSample ++ [.oneAction 0 true, .oneAction 0 true,
    .beginCall .unregisterCallback 1, .serve .willing 1, .serve .willing 1,
    .oneAction 0 true] ++ List.replicate 4 (.serve .willing 1) ++
    [.removeAdapter 1]

set_option maxRecDepth 4000 in
theorem reach_removesUnused_sample : ∃ s,
    adapterMachine.run AdapterServer.removesIdle .initial adapterUnregistered =
      some s ∧ s.fault = none ∧ ∀ c, s.RemovesUnused c ↔ s.Idle c := by
  have hrun : (adapterMachine.run AdapterServer.removesIdle .initial
      adapterUnregistered).isSome := by decide
  obtain ⟨s, hs⟩ := Option.isSome_iff_exists.mp hrun
  exact ⟨s, hs, reach_removesUnused (.of_run (.start rfl) hs)⟩

set_option maxRecDepth 4000 in
/-- Where the client is not idle, its adapter is deleted under its worker. -/
theorem removeAdapter_not_removesUnused :
    ¬ ∀ s, adapterMachine.Reach Machine.anyStep s → ∀ c, s.RemovesUnused c := by
  intro h
  have hrun : (adapterMachine.run Machine.anyStep .initial adapterSample).map
      (fun s => (s.findAdapter 1, s.worker.lookup 0)) =
        some (some 0, some ⟨0, 1, 0, true, .ipcIoResponse⟩) := by decide
  obtain ⟨s, hs, heq⟩ := Option.map_eq_some_iff.mp hrun
  obtain ⟨hfind, hworker⟩ := Prod.mk.inj heq
  refine h s (.of_run (.start rfl) hs) 1 0 hfind (.inr ⟨0, _, hworker, ?_, rfl⟩)
  decide

set_option maxRecDepth 4000 in
/-- The worker then asks it for the session. -/
example : (adapterMachine.run Machine.anyStep .initial
    (adapterSample ++ [.removeAdapter 1, .oneAction 0 true])).map (·.fault) =
      some (some (.adapter 0)) := by
  decide

end AiEngine.Ref
