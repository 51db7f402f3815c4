import AiEngine.Proofs.EngineCreation
import AiEngine.Proofs.FutureIds
import AiEngine.Proofs.UnloadSteps
import AiEngine.Ref.ServerExecutor

/-!
# The infer mode of a request and of an engine

An engine that a map leads to has the handler its plugin's mode asks for, in
every reachable state. A request is put on the queue by whatever handler the
engine has, as long as the flag that came with the request agrees with the
call. So a request of the wrong kind is refused exactly where something else
stops it before it gets to the handler.
-/

namespace AiEngine.Ref

open AiEngine.Lib

/-! ## Handlers of engines

The handler of an engine is made by its initialization, from the mode of its
plugin, and is never changed. So it is enough that every engine that was made
is initialized. -/

/-- The engine exists and has the handler for its plugin. -/
def Ready (s : Server) (e : Nat) : Prop :=
  ∃ x, s.engine.lookup e = some x ∧
    x.msgHandler = some (Server.msgHandlerFor x.plugin)

/-- The engines of the maps are ready. -/
structure Handled (s : Server) : Prop where
  engines : ∀ key e, s.engines.lookup key = some e → Ready s e
  clients : ∀ tid e, s.clientEngines.lookup tid = some e → Ready s e
  fresh : ∀ e, s.engineNum ≤ e → s.engine.lookup e = none

theorem initial_handled : Handled .initial where
  engines := by simp [Server.initial]
  clients := by simp [Server.initial]
  fresh := by simp [Server.initial]

namespace Handled

variable {s : Server} {tid : Int64} {key : EngineKey} {e : Nat} {x : Engine}

theorem engine_lt (h : Handled s) (hx : s.engine.lookup e = some x) :
    e < s.engineNum := by
  refine Nat.lt_of_not_le fun hle => ?_
  rw [h.fresh e hle] at hx
  cases hx

theorem dropEngine (h : Handled s) (env : Env) (e : Nat) :
    Handled (s.dropEngine env e) := by
  obtain ⟨hengines, hclients, -, hnum, hheld, hnone⟩ := s.dropEngine_frame env e
  refine ⟨?_, ?_, ?_⟩
  · intro key e' he'
    rw [hengines] at he'
    rw [Ready, hheld e' (Server.isHeld_engines he')]
    exact h.engines key e' he'
  · intro tid e' he'
    rw [hclients] at he'
    rw [Ready, hheld e' (Server.isHeld_clients he')]
    exact h.clients tid e' he'
  · intro e' he'
    exact hnone e' (h.fresh e' (hnum ▸ he'))

theorem recordClient (h : Handled s) (env : Env) (tid : Int64)
    (he : Ready s e) : Handled (s.recordClient env tid e) := by
  have hrec : Handled
      { s with clientEngines := s.clientEngines.insert tid e } := by
    refine ⟨h.engines, fun tid' e' he' => ?_, h.fresh⟩
    simp only [Table.lookup_insert_if] at he'
    split at he'
    · cases he'
      exact he
    · exact h.clients tid' e' he'
  unfold Server.recordClient
  dsimp only
  split
  · exact hrec
  · exact hrec.dropEngine env _

theorem setRefCount_ready (hx : s.engine.lookup e = some x) (n : Int32)
    {e' : Nat} (he' : Ready s e') : Ready (s.setRefCount e x n) e' := by
  obtain ⟨x', hx', hhandler⟩ := he'
  simp only [Ready, Server.setRefCount, Table.lookup_insert_if]
  split
  · next heq =>
      subst heq
      rw [hx] at hx'
      cases hx'
      exact ⟨_, rfl, hhandler⟩
  · exact ⟨x', hx', hhandler⟩

theorem setRefCount (h : Handled s) (hx : s.engine.lookup e = some x)
    (n : Int32) : Handled (s.setRefCount e x n) := by
  refine ⟨fun key e' he' => setRefCount_ready hx n (h.engines key e' he'),
    fun tid e' he' => setRefCount_ready hx n (h.clients tid e' he'), ?_⟩
  intro e' he'
  have hne : e' ≠ e := by
    rintro rfl
    exact absurd (h.engine_lt hx) (Nat.not_lt.mpr he')
  exact (Finmap.lookup_insert_of_ne _ hne).trans (h.fresh e' he')

theorem prepareEngine (h : Handled s) (he : Ready s e) (env : Env)
    (tid : Int64) (input output : DataInfo) :
    Handled (s.prepareEngine env tid e input output).2.2 := by
  unfold Server.prepareEngine
  split
  · exact h
  · next x hx =>
      split
      next ret out hprep =>
      split
      · exact h
      · exact (h.setRefCount hx _).recordClient env tid
          (setRefCount_ready hx _ he)

theorem created (h : Handled s) {env : Env} {r : Int × Option Nat × Server}
    (hr : Created s env key r) : Handled r.2.2 := by
  have hsame : ∀ e, Ready s e → Ready r.2.2 e := by
    rintro e ⟨x, hx, hhandler⟩
    refine ⟨x, ?_, hhandler⟩
    cases hoe : r.2.1 with
    | none =>
        rw [(hr.none hoe).2.1]
        exact hx
    | some e' =>
        obtain ⟨he', -, hothers, -⟩ := hr.some e' hoe
        rw [hothers e (by have := h.engine_lt hx; omega)]
        exact hx
  refine ⟨?_, ?_, ?_⟩
  · intro k e he
    rw [hr.engines] at he
    exact hsame e (h.engines k e he)
  · intro tid e he
    rw [hr.clientEngines] at he
    exact hsame e (h.clients tid e he)
  · intro e he
    cases hoe : r.2.1 with
    | none =>
        obtain ⟨-, hengine, hnum⟩ := hr.none hoe
        rw [hengine]
        exact h.fresh e (hnum ▸ he)
    | some e' =>
        obtain ⟨he', hnum, hothers, -⟩ := hr.some e' hoe
        rw [hothers e (by omega)]
        exact h.fresh e (by omega)

theorem startEngine (h : Handled s) (env : Env) (tid : Int64)
    (algo : AlgorithmInfo) (input output : DataInfo) :
    Handled (s.startEngine env tid algo input output).2.2 := by
  unfold Server.startEngine
  dsimp only
  split
  · exact h
  · generalize (⟨getAlgorithmIdByType algo.algorithmType,
      algo.algorithmVersion⟩ : EngineKey) = key
    split
    · next e he => exact h.prepareEngine (h.engines key e he) env tid _ _
    · next hnone =>
        have hr := s.createEngine_created env key
        have hcreated := h.created hr
        unfold Server.createEngineWithCheck
        simp only [hnone]
        generalize s.createEngine env key = r at hr hcreated ⊢
        obtain ⟨ret, oe, s'⟩ := r
        cases oe with
        | none => exact hcreated
        | some e =>
            obtain ⟨-, -, -, x, hx, -, -, hhandler⟩ := hr.some e rfl
            by_cases hret : ret = Retcode.success
            · simp only [hret, ne_eq, not_true, if_false]
              have hready : Ready s' e := ⟨x, hx, hhandler hret⟩
              refine Handled.prepareEngine
                (s := { s' with engines := s'.engines.insert key e })
                ⟨fun k e' he' => ?_, hcreated.clients, hcreated.fresh⟩ hready
                env tid _ _
              simp only [Table.lookup_insert_if] at he'
              split at he'
              · cases he'
                exact hready
              · exact hcreated.engines k e' he'
            · simp only [hret, ne_eq, not_false_eq_true, if_true]
              exact hcreated.dropEngine env e

theorem unRecordClient (h : Handled s) (tid : Int64) :
    Handled (s.unRecordClient tid) := by
  refine ⟨h.engines, fun tid' e' he' => ?_, h.fresh⟩
  simp only [Server.unRecordClient, Table.lookup_erase_if] at he'
  split at he'
  · cases he'
  · exact h.clients tid' e' he'

theorem delEngine (h : Handled s) (key : EngineKey) :
    Handled (s.delEngine key) := by
  refine ⟨fun k e' he' => ?_, h.clients, h.fresh⟩
  simp only [Server.delEngine, Table.lookup_erase_if] at he'
  split at he'
  · cases he'
  · exact h.engines k e' he'

theorem stopEngine (h : Handled s) (env : Env) (tid : Int64)
    (input : DataInfo) : Handled (s.stopEngine env tid input).server := by
  unfold Server.stopEngine
  split
  · exact h
  · next e he =>
      split
      · exact h
      · next x hx =>
          have hset := h.setRefCount hx (x.refCount - 1)
          dsimp only
          split
          · exact h
          · unfold Server.unloadEngine
            dsimp only
            split
            · split
              · exact hset
              · refine dropEngine (unRecordClient (delEngine ?_ _) tid) env e
                exact ⟨hset.engines, hset.clients, hset.fresh⟩
            · exact (hset.unRecordClient tid).dropEngine env e

theorem stopEngines (h : Handled s) (env : Env) (tids : List Int64) :
    Handled (Service.stopEngines s env tids) := by
  induction tids generalizing s with
  | nil => exact h
  | cons tid tids ih => exact ih (h.stopEngine env tid _)

theorem withPools (h : Handled s) (pools : Pools Task) :
    Handled { s with pools } :=
  ⟨h.engines, h.clients, h.fresh⟩

end Handled

/-- What every reachable state of the service has. -/
structure ServiceOk (s : Service) : Prop where
  handled : Handled s.server
  inRange : s.factory.InRange

namespace Service

variable {s s' : Service}

theorem getExecutor_eq {alloc has : Bool}
    (h : s.getExecutor alloc = (has, s')) :
    s' = { s with hasExecutor := has } ∧
      (has = true ↔ s.hasExecutor = true ∨ alloc = true) := by
  unfold getExecutor at h
  split at h
  · next hi =>
      cases h
      exact ⟨by rw [← hi], by simp [hi]⟩
  · next hi =>
      cases h
      exact ⟨rfl, by simp [hi]⟩

end Service

/-- What a request that is refused leaves: an error, the queues and the
futures as they were. -/
structure Refused (s : Service) (r : ExecResult × Service) : Prop where
  code : ∃ code, r.1 = .refused code ∧ code ≠ Retcode.success
  queue : r.2.server.pools.queue = s.server.pools.queue
  futures : r.2.factory.futures = s.factory.futures

/-- Whether a future can be made. -/
def FutureFactory.givesFuture (f : FutureFactory) (env : ServiceEnv) : Prop :=
  (f.hasInstance = true ∨ env.callbacks.newFutureFactory = true) ∧
    f.futures.keys.card ≤ maxNumFutures ∧ env.newFuture = true

/-- Whether the handler of a kind of call takes another request. -/
def Service.takesRequest (s : Service) (kind : MsgHandler) (env : ServiceEnv)
    (x : Engine) : Prop :=
  let queue := s.server.pools.queue x.queue
  match kind with
  | .sync => queue.count < maxSyncMsgNum ∧ queue.count < queue.totalNum
  | .async => queue.count < maxAsyncMsgNum ∧ s.factory.givesFuture env

theorem queueFull_ne : Retcode.queueFull ≠ Retcode.success := by decide

theorem nullParam_ne : Retcode.nullParam ≠ Retcode.success := by decide

theorem outOfMemory_ne : Retcode.outOfMemory ≠ Retcode.success := by decide

theorem engineSyncExecute_cases {s : Service} {x : Engine}
    {handler : MsgHandler} (hx : x.msgHandler = some handler)
    (env : ServiceEnv) (request : Request) :
    (s.takesRequest .sync env x ∧
      (s.engineSyncExecute x request).1 = .queued) ∨
    (¬ s.takesRequest .sync env x ∧
      Refused s (s.engineSyncExecute x request)) := by
  unfold Service.engineSyncExecute syncSendRequest Queue.pushBack
  simp only [hx, Service.takesRequest]
  by_cases hcount : (s.server.pools.queue x.queue).count < maxSyncMsgNum
  · by_cases htotal : (s.server.pools.queue x.queue).count <
        (s.server.pools.queue x.queue).totalNum
    · simp only [if_neg (Nat.not_le.mpr hcount), if_neg (Nat.not_le.mpr htotal)]
      exact .inl ⟨⟨hcount, htotal⟩, rfl⟩
    · simp only [if_neg (Nat.not_le.mpr hcount), if_pos (Nat.not_lt.mp htotal),
        if_pos queueFull_ne]
      refine .inr ⟨fun h => htotal h.2, ⟨_, rfl, queueFull_ne⟩, ?_, rfl⟩
      funext r
      simp only [Pools.setQueue]
      split
      · next hr => rw [hr]
      · rfl
  · simp only [if_pos (Nat.not_lt.mp hcount), if_pos queueFull_ne]
    exact .inr ⟨fun h => hcount h.1, ⟨_, rfl, queueFull_ne⟩, rfl, rfl⟩

/-- An asynchronous request that the handler takes leaves a future, even
where the queue then refuses it. -/
theorem engineAsyncExecute_cases {s : Service} {x : Engine}
    {handler : MsgHandler} (hs : s.factory.InRange)
    (hx : x.msgHandler = some handler) (env : ServiceEnv) (request : Request) :
    (s.takesRequest .async env x ∧
      (s.engineAsyncExecute env x request).2.factory.futures ≠
        s.factory.futures) ∨
    (¬ s.takesRequest .async env x ∧
      Refused s (s.engineAsyncExecute env x request)) := by
  unfold Service.engineAsyncExecute asyncSendRequest
  simp only [hx, Service.takesRequest, FutureFactory.givesFuture]
  by_cases hcount : (s.server.pools.queue x.queue).count < maxAsyncMsgNum
  · rw [if_neg (Nat.not_le.mpr hcount)]
    cases hinst : s.factory.getInstance env.callbacks.newFutureFactory with
    | mk has f =>
        obtain ⟨hseq, hfutures, hhas⟩ := FutureFactory.getInstance_frame hinst
        have hf : f.InRange := by
          rw [FutureFactory.InRange, hseq]
          exact hs
        cases has with
        | false =>
            simp only [if_pos nullParam_ne]
            refine .inr ⟨fun h => ?_, ⟨_, rfl, nullParam_ne⟩, rfl, hfutures⟩
            exact absurd (hhas.mpr h.2.1) Bool.false_ne_true
        | true =>
            have hgiven := hhas.mp rfl
            rw [← hfutures]
            rcases FutureFactory.createFuture_cases hf env.newFuture
              s.requestNum request.transactionId with
              ⟨hfull, heq⟩ | ⟨id, hroom, -, -, hfree, heq⟩
            · simp only [heq, if_pos nullParam_ne]
              refine .inr ⟨fun h => ?_, ⟨_, rfl, nullParam_ne⟩, rfl, hfutures⟩
              exact absurd h.2.2.1 (Nat.not_le.mpr hfull)
            · cases hnew : env.newFuture with
              | false =>
                  rw [hnew] at heq
                  simp only [heq, Bool.false_eq_true, if_false,
                    if_pos outOfMemory_ne]
                  refine .inr ⟨fun h => ?_, ⟨_, rfl, outOfMemory_ne⟩, rfl,
                    hfutures⟩
                  cases h.2.2.2
              | true =>
                  rw [hnew] at heq
                  refine .inl ⟨⟨hcount, hgiven, hroom, rfl⟩, ?_⟩
                  have hadd : f.futures.insert id f.futureNum ≠ f.futures := by
                    intro hsame
                    have hlookup := congrArg (Finmap.lookup id) hsame
                    rw [Finmap.lookup_insert, hfree] at hlookup
                    cases hlookup
                  simp only [heq, if_true, ne_eq, not_true, if_false]
                  split <;> exact hadd
  · simp only [if_pos (Nat.not_lt.mp hcount), if_pos queueFull_ne]
    exact .inr ⟨fun h => hcount h.1, ⟨_, rfl, queueFull_ne⟩, rfl, rfl⟩

/-! ## A request of a client

The request is refused on its way, or it gets through to the handler of its
engine. The mode of the plugin is not asked for on the way. -/

/-- The engine of the session a request names. -/
def Service.engineFor (s : Service) (clientInfo : ClientInfo) :
    Option Engine :=
  match s.findAdapter clientInfo.clientId with
  | none => none
  | some adapter =>
      s.engineOf (getTransactionId adapter.adapterId clientInfo.sessionId)

/-- Whether a request gets to the handler of the engine and is taken: the
flag agrees with the call, there is an executor, the request can be made, and
the handler takes requests. -/
def Service.getsThrough (s : Service) (kind : MsgHandler) (env : ServiceEnv)
    (algoInfo : AlgorithmInfo) (x : Engine) : Prop :=
  algoInfo.isAsync = (kind == .async) ∧
    (s.hasExecutor = true ∨ env.newServerExecutor = true) ∧
      env.newRequest = true ∧ s.takesRequest kind env x

theorem Handled.engineOf {s : Service} (h : Handled s.server) {tid : Int64}
    {x : Engine} (hx : s.engineOf tid = some x) :
    x.msgHandler = some (Server.msgHandlerFor x.plugin) := by
  unfold Service.engineOf at hx
  split at hx
  · cases hx
  · next e he =>
      obtain ⟨x', hx', hhandler⟩ := h.clients tid e he
      rw [hx] at hx'
      cases hx'
      exact hhandler

/-- A request gets through to an engine, where it is queued or at least makes
a future, or it is refused. -/
structure Through (s : Service) (kind : MsgHandler) (env : ServiceEnv)
    (clientInfo : ClientInfo) (algoInfo : AlgorithmInfo)
    (r : ExecResult × Service) : Prop where
  /-- The engine it gets to. -/
  engine : ∃ x, s.engineFor clientInfo = some x ∧
    s.getsThrough kind env algoInfo x
  trace : r.1 = .queued ∨ r.2.factory.futures ≠ s.factory.futures

/-- A request is refused, and no engine would have had it. -/
structure Stopped (s : Service) (kind : MsgHandler) (env : ServiceEnv)
    (clientInfo : ClientInfo) (algoInfo : AlgorithmInfo)
    (r : ExecResult × Service) : Prop where
  engine : ∀ x, s.engineFor clientInfo = some x →
    ¬ s.getsThrough kind env algoInfo x
  refused : Refused s r

theorem wrongInferMode_ne : Retcode.wrongInferMode ≠ Retcode.success := by
  decide

theorem noClientFound_ne : Retcode.noClientFound ≠ Retcode.success := by
  decide

theorem engineNotExist_ne : Retcode.engineNotExist ≠ Retcode.success := by
  decide

/-- Whether a request got through or was stopped. -/
def Sent (s : Service) (kind : MsgHandler) (env : ServiceEnv)
    (clientInfo : ClientInfo) (algoInfo : AlgorithmInfo)
    (r : ExecResult × Service) : Prop :=
  Through s kind env clientInfo algoInfo r ∨
    Stopped s kind env clientInfo algoInfo r

/-- The part both kinds of calls share: the executor looks for the engine. -/
theorem sent_of_engine {s : Service} (hs : ServiceOk s) {kind : MsgHandler}
    {env : ServiceEnv} {clientInfo : ClientInfo} {algoInfo : AlgorithmInfo}
    {adapter : SaServerAdapter} {r : ExecResult × Service}
    (hadapter : s.findAdapter clientInfo.clientId = some adapter)
    (hflag : algoInfo.isAsync = (kind == .async))
    (hexec : s.hasExecutor = true ∨ env.newServerExecutor = true)
    (hreq : env.newRequest = true)
    (hnone : s.engineOf (getTransactionId adapter.adapterId
      clientInfo.sessionId) = none → Refused s r)
    (hsome : ∀ x handler, s.engineOf (getTransactionId adapter.adapterId
        clientInfo.sessionId) = some x → x.msgHandler = some handler →
      (s.takesRequest kind env x ∧ (r.1 = .queued ∨
        r.2.factory.futures ≠ s.factory.futures)) ∨
      (¬ s.takesRequest kind env x ∧ Refused s r)) :
    Sent s kind env clientInfo algoInfo r := by
  have hfor : s.engineFor clientInfo =
      s.engineOf (getTransactionId adapter.adapterId clientInfo.sessionId) := by
    rw [Service.engineFor, hadapter]
  cases hx : s.engineOf
      (getTransactionId adapter.adapterId clientInfo.sessionId) with
  | none =>
      refine .inr ⟨fun x hx' => ?_, hnone hx⟩
      rw [hfor, hx] at hx'
      cases hx'
  | some x =>
      rcases hsome x _ hx (hs.handled.engineOf hx) with
        ⟨htakes, htrace⟩ | ⟨hfull, hrefused⟩
      · exact .inl ⟨⟨x, hfor.trans hx, hflag, hexec, hreq, htakes⟩, htrace⟩
      · refine .inr ⟨fun x' hx' h => ?_, hrefused⟩
        rw [hfor, hx] at hx'
        cases hx'
        exact hfull h.2.2.2

theorem syncExecAlgo_sent {s : Service} (hs : ServiceOk s) (env : ServiceEnv)
    (clientInfo : ClientInfo) (algoInfo : AlgorithmInfo) (input : DataInfo) :
    Sent s .sync env clientInfo algoInfo
      (s.syncExecAlgo env clientInfo algoInfo input) := by
  unfold Service.syncExecAlgo
  split
  · next hflag =>
      refine .inr ⟨fun x _ h => ?_, ⟨_, rfl, wrongInferMode_ne⟩, rfl, rfl⟩
      have hsame := h.1
      rw [hflag] at hsame
      exact absurd hsame (by decide)
  · next hflag =>
      simp only [Bool.not_eq_true] at hflag
      split
      · next hnone =>
          refine .inr ⟨fun x hx => ?_, ⟨_, rfl, noClientFound_ne⟩, rfl, rfl⟩
          rw [Service.engineFor, hnone] at hx
          cases hx
      · next adapter hadapter =>
          unfold Service.adapterSyncExecute
          split
          · next hreq =>
              exact .inr ⟨fun x _ h => hreq h.2.2.1,
                ⟨_, rfl, outOfMemory_ne⟩, rfl, rfl⟩
          · next hreq =>
              simp only [not_not] at hreq
              dsimp only
              split
              · next s' hexec =>
                  obtain ⟨rfl, hhas⟩ := Service.getExecutor_eq hexec
                  refine .inr ⟨fun x _ h => ?_, ⟨_, rfl, outOfMemory_ne⟩, rfl,
                    rfl⟩
                  exact absurd (hhas.mpr h.2.1) Bool.false_ne_true
              · next s' hexec =>
                  obtain ⟨rfl, hhas⟩ := Service.getExecutor_eq hexec
                  refine sent_of_engine hs hadapter hflag (hhas.mp rfl) hreq
                    (fun hx => ?_) fun x handler hx hhandler => ?_
                  · split
                    · exact ⟨⟨_, rfl, engineNotExist_ne⟩, rfl, rfl⟩
                    · next hsome => cases hx.symm.trans hsome
                  · split
                    · next hnone => cases hx.symm.trans hnone
                    · next hsome =>
                        cases hx.symm.trans hsome
                        rcases engineSyncExecute_cases (s := { s with
                          hasExecutor := true, requestNum := s.requestNum + 1 })
                          hhandler env _ with h | h
                        · exact .inl ⟨h.1, .inl h.2⟩
                        · exact .inr ⟨h.1, h.2.code, h.2.queue, h.2.futures⟩

theorem asyncExecAlgo_sent {s : Service} (hs : ServiceOk s) (env : ServiceEnv)
    (clientInfo : ClientInfo) (algoInfo : AlgorithmInfo) (input : DataInfo) :
    Sent s .async env clientInfo algoInfo
      (s.asyncExecAlgo env clientInfo algoInfo input) := by
  unfold Service.asyncExecAlgo
  split
  · next hflag =>
      refine .inr ⟨fun x _ h => ?_, ⟨_, rfl, wrongInferMode_ne⟩, rfl, rfl⟩
      exact hflag h.1
  · next hflag =>
      simp only [not_not] at hflag
      split
      · next hnone =>
          refine .inr ⟨fun x hx => ?_, ⟨_, rfl, noClientFound_ne⟩, rfl, rfl⟩
          rw [Service.engineFor, hnone] at hx
          cases hx
      · next adapter hadapter =>
          unfold Service.adapterAsyncExecute
          split
          · next s' hexec =>
              obtain ⟨rfl, hhas⟩ := Service.getExecutor_eq hexec
              refine .inr ⟨fun x _ h => ?_, ⟨_, rfl, outOfMemory_ne⟩, rfl, rfl⟩
              exact absurd (hhas.mpr h.2.1) Bool.false_ne_true
          · next s' hexec =>
              obtain ⟨rfl, hhas⟩ := Service.getExecutor_eq hexec
              split
              · next hreq =>
                  exact .inr ⟨fun x _ h => hreq h.2.2.1,
                    ⟨_, rfl, nullParam_ne⟩, rfl, rfl⟩
              · next hreq =>
                  simp only [not_not] at hreq
                  dsimp only
                  refine sent_of_engine hs hadapter hflag (hhas.mp rfl) hreq
                    (fun hx => ?_) fun x handler hx hhandler => ?_
                  · split
                    · exact ⟨⟨_, rfl, engineNotExist_ne⟩, rfl, rfl⟩
                    · next hsome => cases hx.symm.trans hsome
                  · split
                    · next hnone => cases hx.symm.trans hnone
                    · next hsome =>
                        cases hx.symm.trans hsome
                        rcases engineAsyncExecute_cases (s := { s with
                          hasExecutor := true, requestNum := s.requestNum + 1 })
                          hs.inRange hhandler env _ with h | h
                        · exact .inl ⟨h.1, .inr h.2⟩
                        · exact .inr ⟨h.1, h.2.code, h.2.queue, h.2.futures⟩

theorem execAlgo_sent {s : Service} (hs : ServiceOk s) (kind : MsgHandler)
    (env : ServiceEnv) (clientInfo : ClientInfo) (algoInfo : AlgorithmInfo)
    (input : DataInfo) :
    Sent s kind env clientInfo algoInfo
      (s.execAlgo kind env clientInfo algoInfo input) := by
  cases kind with
  | sync => exact syncExecAlgo_sent hs env clientInfo algoInfo input
  | async => exact asyncExecAlgo_sent hs env clientInfo algoInfo input

/-- What is claimed of a request: a task is queued only with a handler of the
call's kind, and where the plugin's mode is the other one the request is
refused and leaves no task and no future. -/
structure ModeAgrees (s : Service) (kind : MsgHandler) (env : ServiceEnv)
    (clientInfo : ClientInfo) (algoInfo : AlgorithmInfo) (input : DataInfo) :
    Prop where
  queued : (s.execAlgo kind env clientInfo algoInfo input).1 = .queued →
    ∃ x, s.engineFor clientInfo = some x ∧ x.msgHandler = some kind
  refused : ∀ x, s.engineFor clientInfo = some x →
    Server.msgHandlerFor x.plugin ≠ kind →
      Refused s (s.execAlgo kind env clientInfo algoInfo input)

theorem ServiceOk.inferMode_iff {s : Service} (hs : ServiceOk s)
    (kind : MsgHandler) (env : ServiceEnv) (clientInfo : ClientInfo)
    (algoInfo : AlgorithmInfo) (input : DataInfo) :
    ModeAgrees s kind env clientInfo algoInfo input ↔
      ∀ x, s.engineFor clientInfo = some x →
        s.getsThrough kind env algoInfo x →
          Server.msgHandlerFor x.plugin = kind := by
  have hsent := execAlgo_sent hs kind env clientInfo algoInfo input
  constructor
  · intro h x hx hthrough
    by_contra hmode
    obtain ⟨⟨code, hcode, -⟩, -, hfutures⟩ := h.refused x hx hmode
    rcases hsent with ⟨-, hqueued | hmade⟩ | hstopped
    · rw [hqueued] at hcode
      cases hcode
    · exact hmade hfutures
    · exact hstopped.engine x hx hthrough
  · intro h
    rcases hsent with ⟨⟨x, hx, hthrough⟩, -⟩ | hstopped
    · have hmode := h x hx hthrough
      refine ⟨fun _ => ⟨x, hx, ?_⟩, fun x' hx' hne => ?_⟩
      · unfold Service.engineFor at hx
        split at hx
        · cases hx
        · rw [hs.handled.engineOf hx, hmode]
      · rw [hx] at hx'
        cases hx'
        exact absurd hmode hne
    · refine ⟨fun hqueued => ?_, fun _ _ _ => hstopped.refused⟩
      obtain ⟨code, hcode, -⟩ := hstopped.refused.code
      rw [hqueued] at hcode
      cases hcode

theorem getInstance_inRange {f f' : FutureFactory} {alloc has : Bool}
    (h : f.InRange) (hinst : f.getInstance alloc = (has, f')) : f'.InRange := by
  rw [FutureFactory.InRange, (FutureFactory.getInstance_frame hinst).1]
  exact h

theorem startAsyncTransaction_inRange {f : FutureFactory} (hf : f.InRange)
    (h : SaAsyncHandler) (env : CallbackEnv) (tid : Int64) (clientId : Int32) :
    (h.startAsyncTransaction f env tid clientId).2.2.InRange := by
  unfold SaAsyncHandler.startAsyncTransaction
  split
  · exact hf
  · split
    · exact hf
    · dsimp only
      split
      · next f' hinst => exact getInstance_inRange hf hinst
      · next f' hinst =>
          have hf' := getInstance_inRange hf hinst
          exact hf'

theorem stopAsyncTransaction_inRange {f : FutureFactory} (hf : f.InRange)
    (h : SaAsyncHandler) (env : CallbackEnv) (tid : Int64) :
    (h.stopAsyncTransaction f env tid).2.InRange := by
  unfold SaAsyncHandler.stopAsyncTransaction
  split
  · dsimp only
    split
    · next f' hinst => exact getInstance_inRange hf hinst
    · next f' hinst =>
        rw [FutureFactory.InRange, FutureFactory.unregisterListener_sequenceId]
        exact getInstance_inRange hf hinst
  · exact hf

theorem asyncSendRequest_inRange {f : FutureFactory} (hf : f.InRange)
    (pools : Pools Task) (env : ServiceEnv) (queue : Nat)
    (handler : MsgHandler) (request : Request) (n : Nat) :
    (asyncSendRequest pools f env queue handler request n).2.2.InRange := by
  unfold asyncSendRequest
  split
  · exact hf
  · split
    · next f' hinst => exact getInstance_inRange hf hinst
    · next f' hinst =>
        have hf' := getInstance_inRange hf hinst
        have hcreate := FutureFactory.createFuture_inRange hf' env.newFuture n
          request.transactionId
        split
        · next heq =>
            rw [heq] at hcreate
            exact hcreate
        · next heq =>
            rw [heq] at hcreate
            split <;> exact hcreate

namespace ServiceOk

variable {s : Service}

theorem getExecutor {s' : Service} (hs : ServiceOk s) {alloc has : Bool}
    (h : s.getExecutor alloc = (has, s')) : ServiceOk s' := by
  obtain ⟨rfl, -⟩ := Service.getExecutor_eq h
  exact ⟨hs.handled, hs.inRange⟩

theorem generateClient (hs : ServiceOk s) (env : ServiceEnv) :
    ServiceOk (s.generateClient env).2 := by
  unfold Service.generateClient Service.findValidClientId
  split
  next clientId s' hfind =>
  have hs' : ServiceOk s' := by
    split at hfind
    · cases hfind
      exact hs
    · cases hfind
      exact ⟨hs.handled, hs.inRange⟩
  split
  · exact hs'
  · split
    · exact hs'
    · exact ⟨hs'.handled, hs'.inRange⟩

theorem removeAdapter (hs : ServiceOk s) (env : ServiceEnv)
    (clientId : Int32) : ServiceOk (s.removeAdapter env clientId).2 := by
  unfold Service.removeAdapter
  split
  · exact hs
  · split
    · next s' hexec =>
        have hs' := hs.getExecutor hexec
        exact ⟨hs'.handled, hs'.inRange⟩
    · next s' hexec =>
        have hs' := hs.getExecutor hexec
        exact ⟨hs'.handled.stopEngines env.engines _, hs'.inRange⟩

theorem loadAlgo (hs : ServiceOk s) (env : ServiceEnv)
    (clientInfo : ClientInfo) (algoInfo : AlgorithmInfo)
    (input output : DataInfo) :
    ServiceOk (s.loadAlgo env clientInfo algoInfo input output).2.2 := by
  unfold Service.loadAlgo
  split
  · exact hs
  · next adapter hadapter =>
      dsimp only
      split
      · next s' hexec => exact hs.getExecutor hexec
      · next s' hexec =>
          have hs' := hs.getExecutor hexec
          have hstart := hs'.handled.startEngine env.engines
            (getTransactionId adapter.adapterId clientInfo.sessionId) algoInfo
            input output
          split
          · exact ⟨hstart, hs'.inRange⟩
          · split
            · exact ⟨hstart, hs'.inRange⟩
            · split
              · exact ⟨hstart, hs'.inRange⟩
              · next asyncHandler hinst =>
                  have hrange := startAsyncTransaction_inRange hs'.inRange
                    asyncHandler env.callbacks (getTransactionId
                      adapter.adapterId clientInfo.sessionId)
                    clientInfo.clientId
                  exact ⟨hstart, hrange⟩

theorem unloadAlgo (hs : ServiceOk s) (env : ServiceEnv)
    (clientInfo : ClientInfo) (algoInfo : AlgorithmInfo) (input : DataInfo) :
    ServiceOk (s.unloadAlgo env clientInfo algoInfo input).2 := by
  cases hfind : s.findAdapter clientInfo.clientId with
  | none =>
      rw [Service.unloadAlgo_none hfind]
      exact hs
  | some a =>
      rw [Service.unloadAlgo_some hfind]
      generalize htid : getTransactionId a.adapterId clientInfo.sessionId = tid
      have hstopped : ServiceOk (s.stopCallbacks env algoInfo tid) := by
        rcases s.stopCallbacks_cases env algoInfo tid with
          hsame | ⟨asyncHandler, -, hstopped⟩
        · rw [hsame]
          exact hs
        · rw [hstopped]
          exact ⟨hs.handled, stopAsyncTransaction_inRange hs.inRange _ _ _⟩
      unfold Service.endUnload
      split
      · next s' hexec => exact hstopped.getExecutor hexec
      · next s' hexec =>
          have hs' := hstopped.getExecutor hexec
          rw [htid]
          have hstop := hs'.handled.stopEngine env.engines tid input
          dsimp only
          split
          · exact ⟨hstop, hs'.inRange⟩
          · exact ⟨hstop, hs'.inRange⟩

theorem registerCallback (hs : ServiceOk s) (env : ServiceEnv)
    (clientId : Int32) : ServiceOk (s.registerCallback env clientId).2 := by
  unfold Service.registerCallback
  split
  · exact hs
  · split
    · exact hs
    · exact ⟨hs.handled.withPools _, hs.inRange⟩

theorem unregisterCallback (hs : ServiceOk s) (env : ServiceEnv)
    (clientId : Int32) : ServiceOk (s.unregisterCallback env clientId).2 := by
  unfold Service.unregisterCallback
  split
  · exact hs
  · split
    · exact hs
    · exact ⟨hs.handled.withPools _, hs.inRange⟩

theorem engineSyncExecute (hs : ServiceOk s) (x : Engine) (request : Request) :
    ServiceOk (s.engineSyncExecute x request).2 := by
  unfold Service.engineSyncExecute
  split
  · exact hs
  · dsimp only
    split <;> exact ⟨hs.handled.withPools _, hs.inRange⟩

theorem engineAsyncExecute (hs : ServiceOk s) (env : ServiceEnv) (x : Engine)
    (request : Request) : ServiceOk (s.engineAsyncExecute env x request).2 := by
  unfold Service.engineAsyncExecute
  split
  · exact hs
  · next handler _ =>
      have hrange := asyncSendRequest_inRange hs.inRange s.server.pools env
        x.queue handler request s.requestNum
      dsimp only
      split <;> exact ⟨hs.handled.withPools _, hrange⟩

theorem execAlgo (hs : ServiceOk s) (kind : MsgHandler) (env : ServiceEnv)
    (clientInfo : ClientInfo) (algoInfo : AlgorithmInfo) (input : DataInfo) :
    ServiceOk (s.execAlgo kind env clientInfo algoInfo input).2 := by
  cases kind with
  | sync =>
      unfold Service.execAlgo Service.syncExecAlgo
      simp only
      split
      · exact hs
      · split
        · exact hs
        · unfold Service.adapterSyncExecute
          split
          · exact hs
          · dsimp only
            split
            · next s' hexec => exact hs.getExecutor hexec
            · next s' hexec =>
                have hs' := hs.getExecutor hexec
                split
                · exact hs'
                · exact ServiceOk.engineSyncExecute
                    (s := { s' with requestNum := s'.requestNum + 1 })
                    ⟨hs'.handled, hs'.inRange⟩ _ _
  | async =>
      unfold Service.execAlgo Service.asyncExecAlgo
      simp only
      split
      · exact hs
      · split
        · exact hs
        · unfold Service.adapterAsyncExecute
          split
          · next s' hexec => exact hs.getExecutor hexec
          · next s' hexec =>
              have hs' := hs.getExecutor hexec
              split
              · exact hs'
              · dsimp only
                split
                · exact hs'
                · exact ServiceOk.engineAsyncExecute
                    (s := { s' with requestNum := s'.requestNum + 1 })
                    ⟨hs'.handled, hs'.inRange⟩ env _ _

theorem take (hs : ServiceOk s) (i : ServiceStep) : ServiceOk (s.take i) := by
  cases i with
  | generateClient env => exact hs.generateClient env
  | removeAdapter env clientId => exact hs.removeAdapter env clientId
  | loadAlgo env clientInfo algoInfo input output =>
      exact hs.loadAlgo env clientInfo algoInfo input output
  | unloadAlgo env clientInfo algoInfo input =>
      exact hs.unloadAlgo env clientInfo algoInfo input
  | registerCallback env clientId => exact hs.registerCallback env clientId
  | unregisterCallback env clientId => exact hs.unregisterCallback env clientId
  | execAlgo kind env clientInfo algoInfo input =>
      exact hs.execAlgo kind env clientInfo algoInfo input
  | popFront queue => exact ⟨hs.handled.withPools _, hs.inRange⟩
  | deleteFuture id =>
      refine ⟨hs.handled, ?_⟩
      rw [Service.take, FutureFactory.InRange,
        FutureFactory.deleteFuture_sequenceId]
      exact hs.inRange

end ServiceOk

theorem reach_serviceOk {s : Service}
    (hs : serviceMachine.Reach Machine.anyStep s) : ServiceOk s := by
  refine hs.invariant ?_ ?_
  · rintro s rfl
    exact ⟨initial_handled, FutureFactory.initial_inRange⟩
  · intro s i s' hinv _ hstep
    cases hstep
    exact hinv.take i

/-- In every reachable state a request agrees with the mode of the engine it
gets to exactly if the plugin's mode is the kind of the call wherever the
request gets through. -/
theorem modeAgrees_iff {s : Service}
    (hs : serviceMachine.Reach Machine.anyStep s) (kind : MsgHandler)
    (env : ServiceEnv) (clientInfo : ClientInfo) (algoInfo : AlgorithmInfo)
    (input : DataInfo) :
    ModeAgrees s kind env clientInfo algoInfo input ↔
      ∀ x, s.engineFor clientInfo = some x →
        s.getsThrough kind env algoInfo x →
          Server.msgHandlerFor x.plugin = kind :=
  (reach_serviceOk hs).inferMode_iff kind env clientInfo algoInfo input

/-- The first session of the first client. -/
def sampleClient : ClientInfo := { ClientInfo.zero with
  clientId := 1, sessionId := 1 }

/-- The first sample plugin, for synchronous calls. -/
def sampleAlgo : AlgorithmInfo :=
  { AlgorithmInfo.zero with algorithmVersion := 1 }

/-- The plugin that is loaded works asynchronously. -/
def asyncPluginEnv : ServiceEnv :=
  { ServiceEnv.willing with engines := { Env.willing with
      plugins := { Env.willing.plugins with inferMode := fun _ => none } } }

/-- The client connects and loads the plugin. -/
def sampleService (env : ServiceEnv) : Service :=
  (Service.initial.take (.generateClient env)).take
    (.loadAlgo env sampleClient sampleAlgo ⟨.null, 0⟩ ⟨.null, 0⟩)

theorem sampleService_reach (env : ServiceEnv) :
    serviceMachine.Reach Machine.anyStep (sampleService env) :=
  .step (.step (.start rfl) trivial rfl) trivial rfl

theorem modeAgrees_iff_sample :
    serviceMachine.Reach Machine.anyStep (sampleService .willing) ∧
      (ModeAgrees (sampleService .willing) .sync .willing sampleClient
          sampleAlgo ⟨.null, 0⟩ ↔
        ∀ x, (sampleService .willing).engineFor sampleClient = some x →
          (sampleService .willing).getsThrough .sync .willing sampleAlgo x →
            Server.msgHandlerFor x.plugin = .sync) :=
  ⟨sampleService_reach .willing, modeAgrees_iff (sampleService_reach .willing)
    .sync .willing sampleClient sampleAlgo ⟨.null, 0⟩⟩

/-- A synchronous call to an asynchronous plugin is put on the queue by the
asynchronous handler. -/
theorem asyncPlugin_not_modeAgrees :
    ∃ s, serviceMachine.Reach Machine.anyStep s ∧
      ∃ kind env clientInfo algoInfo input,
        ¬ ModeAgrees s kind env clientInfo algoInfo input := by
  refine ⟨sampleService asyncPluginEnv, sampleService_reach asyncPluginEnv,
    .sync, .willing, sampleClient, sampleAlgo, ⟨.null, 0⟩, fun h => ?_⟩
  obtain ⟨x, hx, hhandler⟩ := h.queued (by decide)
  have hasync : ((sampleService asyncPluginEnv).engineFor sampleClient).bind
      Engine.msgHandler = some .async := by decide
  rw [hx] at hasync
  simp only [Option.bind_some, hhandler] at hasync
  cases hasync

end AiEngine.Ref
