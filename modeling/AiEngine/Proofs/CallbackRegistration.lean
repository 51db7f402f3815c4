import AiEngine.Ref.ClientServer
import AiEngine.Proofs.ClientSteps
import AiEngine.Proofs.UnloadSteps

/-!
# Registration of callbacks on both sides

The client asks for a registration when its map of callbacks gets its first
entry, and takes it back when a release has emptied the map. The server's
handler for the client is started and stopped by the two requests. A prepare
whose load fails empties the map again without a word to the server, so from
then on the server has a handler that the client does not know of.
-/

namespace AiEngine.Ref

open AiEngine.Lib

/-! ## The server's side

A client has a handler on the server from its registration until it
unregisters. Requests about algorithms leave the handlers alone. -/

namespace Service

variable {s s' : Service} {clientId : Int32} {env : ServiceEnv}

/-- The server's record of a client's handler is in order: it leads to a
handler, whose thread and worker come together. -/
structure HandlerKept (s : Service) (clientId : Int32) : Prop where
  hasInstance : ∀ o, s.asyncHandler.findClientListenerHandler clientId =
    some o → s.asyncHandler.hasInstance = true
  handler : ∀ o, s.asyncHandler.findClientListenerHandler clientId = some o →
    ∃ handler, s.asyncHandler.handler.lookup o = some handler ∧
      (handler.asyncProcessWorker = true → handler.asyncProcessThread ≠ none)

/-- What a load or an unload leaves of the clients and their handlers. -/
structure SameHandlers (s s' : Service) : Prop where
  clients : s'.asyncHandler.clients = s.asyncHandler.clients
  handler : s'.asyncHandler.handler = s.asyncHandler.handler
  hasInstance : s.asyncHandler.hasInstance = true →
    s'.asyncHandler.hasInstance = true
  adapters : ∀ c, c ∈ s.adapters → c ∈ s'.adapters

theorem SameHandlers.started (h : SameHandlers s s') :
    s'.HandlerStarted clientId ↔ s.HandlerStarted clientId := by
  simp only [HandlerStarted, SaAsyncHandler.findClientListenerHandler,
    h.clients, h.handler]

theorem SameHandlers.kept (h : SameHandlers s s')
    (hk : s.HandlerKept clientId) : s'.HandlerKept clientId where
  hasInstance := fun o ho => by
    rw [SaAsyncHandler.findClientListenerHandler, h.clients] at ho
    exact h.hasInstance (hk.hasInstance o ho)
  handler := fun o ho => by
    rw [SaAsyncHandler.findClientListenerHandler, h.clients] at ho
    rw [h.handler]
    exact hk.handler o ho

theorem SameHandlers.refl (s : Service) : SameHandlers s s :=
  ⟨rfl, rfl, id, fun _ => id⟩

theorem SameHandlers.trans {s'' : Service} (h : SameHandlers s s')
    (h' : SameHandlers s' s'') : SameHandlers s s'' where
  clients := h'.clients.trans h.clients
  handler := h'.handler.trans h.handler
  hasInstance := fun hi => h'.hasInstance (h.hasInstance hi)
  adapters := fun c hc => h'.adapters c (h.adapters c hc)

theorem getExecutor_same (alloc : Bool) :
    SameHandlers s (s.getExecutor alloc).2 := by
  unfold getExecutor
  split <;> exact ⟨rfl, rfl, id, fun _ => id⟩

/-- An instance in hand differs from what was there only in being one. -/
theorem asyncHandler_getInstance {h h' : SaAsyncHandler} {alloc : Bool}
    (hgot : h.getInstance alloc = (true, h')) :
    h'.clients = h.clients ∧ h'.handler = h.handler ∧ h'.hasInstance = true ∧
      h'.handlerNum = h.handlerNum := by
  unfold SaAsyncHandler.getInstance at hgot
  split at hgot
  · next hhas =>
      cases hgot
      exact ⟨rfl, rfl, hhas, rfl⟩
  · cases hgot
    exact ⟨rfl, rfl, rfl, rfl⟩

theorem startAsyncTransaction_same (h : SaAsyncHandler) (f : FutureFactory)
    (env : CallbackEnv) (tid : Int64) (clientId : Int32) :
    (h.startAsyncTransaction f env tid clientId).2.1.clients = h.clients ∧
      (h.startAsyncTransaction f env tid clientId).2.1.handler = h.handler ∧
      (h.startAsyncTransaction f env tid clientId).2.1.hasInstance =
        h.hasInstance := by
  unfold SaAsyncHandler.startAsyncTransaction
  repeat' split
  all_goals exact ⟨rfl, rfl, rfl⟩

theorem stopAsyncTransaction_same (h : SaAsyncHandler) (f : FutureFactory)
    (env : CallbackEnv) (tid : Int64) :
    (h.stopAsyncTransaction f env tid).1.clients = h.clients ∧
      (h.stopAsyncTransaction f env tid).1.handler = h.handler ∧
      (h.stopAsyncTransaction f env tid).1.hasInstance = h.hasInstance := by
  unfold SaAsyncHandler.stopAsyncTransaction
  repeat' split
  all_goals exact ⟨rfl, rfl, rfl⟩

theorem loadAlgo_same (env : ServiceEnv) (clientInfo : ClientInfo) (algoInfo : AlgorithmInfo)
    (inputInfo outputInfo : DataInfo) :
    SameHandlers s
      (s.loadAlgo env clientInfo algoInfo inputInfo outputInfo).2.2 := by
  unfold loadAlgo
  split
  · exact .refl s
  · next adapter _ =>
      have hexec := s.getExecutor_same env.newServerExecutor
      dsimp only
      split
      · next s₁ heq =>
          rw [heq] at hexec
          exact hexec
      · next s₁ heq =>
          rw [heq] at hexec
          refine hexec.trans ?_
          have hmore (a : SaServerAdapter) (c : Int32) (hc : c ∈ s₁.adapters) :
              c ∈ s₁.adapters.insert clientInfo.clientId a :=
            Finmap.mem_insert.mpr (.inr hc)
          split
          · exact ⟨rfl, rfl, id, fun _ => id⟩
          · split
            · exact ⟨rfl, rfl, id, hmore _⟩
            · split
              · exact ⟨rfl, rfl, id, hmore _⟩
              · next h' hgot =>
                  obtain ⟨hclients, hhandler, hhas, -⟩ :=
                    asyncHandler_getInstance hgot
                  obtain ⟨hclients', hhandler', hhas'⟩ :=
                    startAsyncTransaction_same h' s₁.factory env.callbacks
                      (getTransactionId adapter.adapterId clientInfo.sessionId)
                      clientInfo.clientId
                  exact ⟨hclients'.trans hclients, hhandler'.trans hhandler,
                    fun _ => hhas'.trans hhas, hmore _⟩

theorem unloadAlgo_same (clientInfo : ClientInfo) (algoInfo : AlgorithmInfo)
    (inputInfo : DataInfo) :
    SameHandlers s (s.unloadAlgo env clientInfo algoInfo inputInfo).2 := by
  cases hfind : s.findAdapter clientInfo.clientId with
  | none =>
      rw [unloadAlgo_none hfind]
      exact .refl s
  | some a =>
      rw [unloadAlgo_some hfind]
      generalize htid : getTransactionId a.adapterId clientInfo.sessionId = tid
      have hstop : SameHandlers s (s.stopCallbacks env algoInfo tid) := by
        rcases s.stopCallbacks_cases env algoInfo tid with
          hsame | ⟨asyncHandler, hgot, hstopped⟩
        · rw [hsame]
          exact .refl s
        · obtain ⟨hclients, hhandler, hhas, -⟩ :=
            asyncHandler_getInstance hgot
          obtain ⟨hclients', hhandler', hhas'⟩ :=
            stopAsyncTransaction_same asyncHandler s.factory env.callbacks tid
          rw [hstopped]
          exact ⟨hclients'.trans hclients, hhandler'.trans hhandler,
            fun _ => hhas'.trans hhas, fun _ => id⟩
      refine hstop.trans ?_
      generalize s.stopCallbacks env algoInfo tid = s₁
      have hexec := s₁.getExecutor_same env.newServerExecutor
      unfold endUnload
      split
      · next s₂ heq =>
          rw [heq] at hexec
          exact hexec
      · next s₂ heq =>
          rw [heq] at hexec
          refine hexec.trans ?_
          dsimp only
          split
          · exact ⟨rfl, rfl, id, fun _ => id⟩
          · exact ⟨rfl, rfl, id,
              fun c hc => Finmap.mem_insert.mpr (.inr hc)⟩

/-- How `StartAsyncProcess` ends: with an error and the handlers as they
were, or with the client's handler started. It is refused as started only
where the handler has a thread or a worker. -/
inductive StartEnd (h : SaAsyncHandler) (clientId : Int32) :
    Int × SaAsyncHandler × Pools Task → Prop where
  | failed {retCode : Int} {pools : Pools Task}
      (hne : retCode ≠ Retcode.success)
      (hother : retCode ≠ Retcode.asyncCbStarted) :
      StartEnd h clientId (retCode, h, pools)
  | again {pools : Pools Task} {o : Nat} {handler : ClientListenerHandler}
      (ho : h.findClientListenerHandler clientId = some o)
      (hhandler : h.handler.lookup o = some handler)
      (hstarted : handler.asyncProcessThread ≠ none ∨
        handler.asyncProcessWorker = true) :
      StartEnd h clientId (Retcode.asyncCbStarted, h, pools)
  | started {pools : Pools Task} {o : Nat} {handler : ClientListenerHandler}
      (ho : h.findClientListenerHandler clientId = some o)
      (hthread : handler.asyncProcessThread ≠ none) :
      StartEnd h clientId (Retcode.success,
        { h with handler := h.handler.insert o handler }, pools)

theorem startAsyncProcess_end (h : SaAsyncHandler) (pools : Pools Task)
    (env : Env) (cenv : CallbackEnv) (clientId : Int32) :
    StartEnd h clientId (h.startAsyncProcess pools env cenv clientId) := by
  unfold SaAsyncHandler.startAsyncProcess
  split
  · exact .failed (by decide) (by decide)
  · next o ho =>
      split
      · exact .failed (by decide) (by decide)
      · next handler hhandler =>
          split
          · exact .failed (by decide) (by decide)
          · split
            · next hstarted => exact .again ho hhandler hstarted
            · split
              · exact .failed (by decide) (by decide)
              · split
                · exact .failed (by decide) (by decide)
                · dsimp only
                  split
                  · exact .failed (by decide) (by decide)
                  · exact .started ho (Option.some_ne_none _)

/-- What a request for registration leaves behind. -/
structure Registered (s : Service) (clientId : Int32) (r : Int × Service) :
    Prop where
  adapters : ∀ c, c ∈ s.adapters → c ∈ r.2.adapters
  kept : r.2.HandlerKept clientId
  success : r.1 = Retcode.success → r.2.HandlerStarted clientId
  failure : r.1 ≠ Retcode.success →
    (r.2.HandlerStarted clientId ↔ s.HandlerStarted clientId)
  again : ¬ s.HandlerStarted clientId → r.1 ≠ Retcode.asyncCbStarted

theorem Registered.refused {retCode : Int} (hk : s'.HandlerKept clientId)
    (hstarted : s'.HandlerStarted clientId ↔ s.HandlerStarted clientId)
    (hadapters : ∀ c, c ∈ s.adapters → c ∈ s'.adapters)
    (hne : retCode ≠ Retcode.success)
    (hother : ¬ s.HandlerStarted clientId → retCode ≠ Retcode.asyncCbStarted) :
    Registered s clientId (retCode, s') :=
  ⟨hadapters, hk, fun h => absurd h hne, fun _ => hstarted, hother⟩

/-- A client without a handler gets one that is not started, where there is
memory for it. -/
theorem registerAsyncHandler_kept {h : SaAsyncHandler} (cenv : CallbackEnv)
    (hk : s.HandlerKept clientId)
    (hclients : h.clients = s.asyncHandler.clients)
    (hhandler : h.handler = s.asyncHandler.handler)
    (hhas : h.hasInstance = true) :
    HandlerKept { s with asyncHandler := h.registerAsyncHandler cenv clientId }
      clientId ∧
    (HandlerStarted
      { s with asyncHandler := h.registerAsyncHandler cenv clientId } clientId ↔
      s.HandlerStarted clientId) := by
  have hbase : SameHandlers s { s with asyncHandler := h } :=
    ⟨hclients, hhandler, fun _ => hhas, fun _ => id⟩
  unfold SaAsyncHandler.registerAsyncHandler
  split
  · exact ⟨hbase.kept hk, hbase.started⟩
  · next hnone =>
      unfold SaAsyncHandler.addClientListenerHandler
      split
      · exact ⟨hbase.kept hk, hbase.started⟩
      · have hself : (h.clients.insert clientId h.handlerNum).lookup clientId =
            some h.handlerNum := Finmap.lookup_insert _
        have hnew : (h.handler.insert h.handlerNum
            ⟨clientId, [], none, false⟩).lookup h.handlerNum =
            some ⟨clientId, [], none, false⟩ := Finmap.lookup_insert _
        refine ⟨⟨fun _ _ => hhas, fun o ho => ?_⟩, ?_⟩
        · cases hself.symm.trans ho
          exact ⟨_, hnew, fun hworker => nomatch hworker⟩
        · constructor
          · rintro ⟨o, handler, ho, hlookup, hthread⟩
            cases hself.symm.trans ho
            cases hnew.symm.trans hlookup
            exact absurd rfl hthread
          · rintro ⟨o, handler, ho, -⟩
            rw [SaAsyncHandler.findClientListenerHandler, ← hclients] at ho
            cases hnone.symm.trans ho

theorem registerCallback_registered (env : ServiceEnv)
    (hk : s.HandlerKept clientId) : Registered s clientId (s.registerCallback env clientId) := by
  unfold registerCallback
  split
  · exact .refused hk Iff.rfl (fun _ => id) (by decide) (fun _ => by decide)
  · split
    · exact .refused hk Iff.rfl (fun _ => id) (by decide) (fun _ => by decide)
    · next h hgot =>
        obtain ⟨hclients, hhandler, hhas, -⟩ := asyncHandler_getInstance hgot
        obtain ⟨hkept, hstarted⟩ := registerAsyncHandler_kept env.callbacks hk
          hclients hhandler hhas
        dsimp only
        generalize h.registerAsyncHandler env.callbacks clientId = h' at hkept hstarted
        have hend := startAsyncProcess_end h' s.server.pools env.engines
          env.callbacks clientId
        generalize h'.startAsyncProcess s.server.pools env.engines env.callbacks
          clientId = r at hend
        cases hend with
        | failed hne hother =>
            exact .refused { hkept with } hstarted (fun _ => id) hne
              fun _ => hother
        | again ho hl hst =>
            have hne : Retcode.asyncCbStarted ≠ Retcode.success := by decide
            refine .refused { hkept with } hstarted (fun _ => id) hne
              fun hnot => absurd (hstarted.mp ?_) hnot
            obtain ⟨handler, hl', hboth⟩ := hkept.handler _ ho
            cases hl.symm.trans hl'
            exact ⟨_, _, ho, hl, hst.elim id hboth⟩
        | @started pools o handler ho hthread =>
            have hlookup : (h'.handler.insert o handler).lookup o =
                some handler := Finmap.lookup_insert _
            exact
              { adapters := fun _ => id
                kept := ⟨hkept.hasInstance, fun o' ho' => by
                  cases ho.symm.trans ho'
                  exact ⟨handler, hlookup, fun _ => hthread⟩⟩
                success := fun _ => ⟨o, handler, ho, hlookup, hthread⟩
                failure := fun hne => absurd rfl hne
                again := fun _ =>
                  show Retcode.success ≠ Retcode.asyncCbStarted by decide }

/-- Without its handler a client has nothing that is out of order. -/
theorem HandlerKept.of_none
    (h : s.asyncHandler.findClientListenerHandler clientId = none) :
    s.HandlerKept clientId ∧ ¬ s.HandlerStarted clientId := by
  refine ⟨⟨fun o ho => ?_, fun o ho => ?_⟩, fun ⟨o, _, ho, _⟩ => ?_⟩
  all_goals cases h.symm.trans ho

theorem stopAsyncProcess_none (h : SaAsyncHandler) (pools : Pools Task)
    (env : Env) (clientId : Int32) :
    (h.stopAsyncProcess pools env clientId).1.findClientListenerHandler
      clientId = none := by
  have hgone : (h.removeClientListenerHandler clientId).findClientListenerHandler
      clientId = none := by
    unfold SaAsyncHandler.removeClientListenerHandler
    split
    · assumption
    · exact Finmap.lookup_erase _ _
  unfold SaAsyncHandler.stopAsyncProcess
  split <;> exact hgone

theorem unregisterCallback_stopped (env : ServiceEnv)
    (hk : s.HandlerKept clientId) (hknown : clientId ∈ s.adapters) :
    (∀ c, c ∈ s.adapters → c ∈ (s.unregisterCallback env clientId).2.adapters) ∧
      (s.unregisterCallback env clientId).2.HandlerKept clientId ∧
      ¬ (s.unregisterCallback env clientId).2.HandlerStarted clientId := by
  obtain ⟨adapter, hadapter⟩ := Finmap.mem_iff.mp hknown
  unfold unregisterCallback findAdapter
  rw [hadapter]
  dsimp only
  split
  · next h' hgot =>
      refine ⟨fun _ => id, HandlerKept.of_none ?_⟩
      refine Option.eq_none_iff_forall_ne_some.mpr fun o ho => ?_
      have hhas := hk.hasInstance o ho
      rw [SaAsyncHandler.getInstance, if_pos hhas] at hgot
      cases hgot
  · next h' hgot =>
      exact ⟨fun _ => id,
        HandlerKept.of_none (stopAsyncProcess_none h' _ env.engines clientId)⟩

end Service

/-! ## The client's side

Where the two singletons are there, the handlers of the sessions say which
requests a call of the application makes: the first session with a callback
registers, and the last one unregisters. -/

theorem AsyncHandler.mapCbMsg_unRegisterCb {sessionId : Int32}
    (h : AsyncHandler) :
    (h.unRegisterCb sessionId).2.mapCbMsg = h.mapCbMsg.erase sessionId := by
  unfold unRegisterCb
  split
  · rfl
  · next hnot => exact (Table.erase_of_notMem hnot).symm

namespace ClientFactory

section Ready

variable {σ : Type} {f : ClientFactory} {env : ClientEnv} {sessionId : Int32}

theorem mapCbMsg_of_none (h : f.saAsyncHandlerInstance env.newSaAsyncHandler = none) :
    f.mapCbMsg = ∅ := by
  unfold saAsyncHandlerInstance at h
  unfold mapCbMsg
  split at h
  · cases h
  · next hnone => rw [hnone]

theorem registerCb_ready (env : ClientEnv) (sessionId : Int32)
    (hready : f.HasProxy) (cb : Nat) :
    (f.saAsyncHandlerInstance env.newSaAsyncHandler = none ∧
      f.registerCb env sessionId (some cb) = (Retcode.nullParam, f)) ∨
    ((f.saAsyncHandlerInstance env.newSaAsyncHandler).isSome ∧
      (f.registerCb env sessionId (some cb)).1 = Retcode.success ∧
      (f.registerCb env sessionId (some cb)).2.mapCbMsg =
        f.mapCbMsg.insertNew sessionId cb ∧
      (f.registerCb env sessionId (some cb)).2.HasProxy ∧
      (f.registerCb env sessionId (some cb)).2.clientId = f.clientId) := by
  obtain ⟨c, hc, hproxy⟩ := hready
  unfold registerCb
  obtain ⟨hnone, heq⟩ | ⟨g, hgot, ⟨hnone, -⟩ | ⟨c', hc', heq⟩⟩ := registerWith_cases
    f env sessionId (·.registerCb sessionId (some cb))
    SaClient.registerSaClientCb
  · exact .inl ⟨hnone, heq⟩
  · cases hc.symm.trans hnone
  · rw [saClientInstance_of_some hc, Option.some.injEq] at hc'
    subst hc'
    rw [heq, (callbacks_of_instance hgot).1]
    exact .inr ⟨Option.isSome_of_eq_some hgot, rfl, rfl, ⟨_, rfl, hproxy⟩, rfl⟩

theorem unRegisterCb_ready (env : ClientEnv) (sessionId : Int32)
    (hready : f.HasProxy) :
    (f.unRegisterCb env sessionId).2.mapCbMsg = f.mapCbMsg.erase sessionId ∧
      (f.unRegisterCb env sessionId).2.HasProxy ∧
      (f.unRegisterCb env sessionId).2.clientId = f.clientId := by
  obtain ⟨c, hc, hproxy⟩ := hready
  unfold unRegisterCb
  obtain ⟨hnone, heq⟩ | ⟨g, hgot, ⟨hnone, -⟩ | ⟨c', hc', heq⟩⟩ := unRegisterWith_cases
    f env (·.unRegisterCb sessionId) SaClient.unRegisterSaClientCb
  · rw [heq, mapCbMsg_of_none hnone]
    exact ⟨rfl, ⟨c, hc, hproxy⟩, rfl⟩
  · cases hc.symm.trans hnone
  · rw [saClientInstance_of_some hc, Option.some.injEq] at hc'
    subst hc'
    rw [heq, (callbacks_of_instance hgot).1]
    exact ⟨AsyncHandler.mapCbMsg_unRegisterCb g, ⟨_, rfl, hproxy⟩, rfl⟩

theorem unRegisterCb_handler (env : ClientEnv)
    (hmem : sessionId ∈ f.mapCbMsg) :
    (f.unRegisterCb env sessionId).2.saAsyncHandler ≠ none := by
  unfold unRegisterCb
  obtain ⟨hnone, -⟩ | ⟨g, -, ⟨-, heq⟩ | ⟨c, -, heq⟩⟩ := unRegisterWith_cases
    f env (·.unRegisterCb sessionId) SaClient.unRegisterSaClientCb
  · rw [mapCbMsg_of_none hnone] at hmem
    exact absurd hmem Finmap.notMem_empty
  · rw [heq]
    exact Option.some_ne_none _
  · rw [heq]
    exact Option.some_ne_none _

/-- Taking back a callback succeeds where there is one. -/
theorem unRegisterCb_success (env : ClientEnv) (sessionId : Int32)
    (hready : f.HasProxy) :
    (f.unRegisterCb env sessionId).1 = Retcode.success ↔
      sessionId ∈ f.mapCbMsg := by
  obtain ⟨c, hc, -⟩ := hready
  have hnull : Retcode.nullParam ≠ Retcode.success := by decide
  have hfail : Retcode.failure ≠ Retcode.success := by decide
  unfold unRegisterCb unRegisterWith
  cases hgot : f.saAsyncHandlerInstance env.newSaAsyncHandler with
  | none =>
      rw [mapCbMsg_of_none hgot]
      exact ⟨fun h => absurd h hnull, fun h => absurd h Finmap.notMem_empty⟩
  | some h =>
      obtain ⟨hnone, -⟩ | ⟨c', -, heq⟩ := updateSaClient_cases
        { f with saAsyncHandler := some h } env SaClient.unRegisterSaClientCb
      · cases hc.symm.trans hnone
      · rw [(callbacks_of_instance hgot).1]
        dsimp only
        rw [heq]
        by_cases hmem : sessionId ∈ h.mapCbMsg
        · simp only [AsyncHandler.unRegisterCb, if_pos hmem]
          exact ⟨fun _ => hmem, fun _ => rfl⟩
        · simp only [AsyncHandler.unRegisterCb, if_neg hmem]
          exact ⟨fun h => absurd h hfail, fun h => absurd h hmem⟩

variable (env : ClientEnv) (server : AiServer σ) (clientInfo : ClientInfo)
  (algorithmInfo : AlgorithmInfo) (inputInfo outputInfo : DataInfo) (remote : σ)

/-- What the server answers to a prepare, and what becomes of it: it is asked
for a registration where the map has one callback, and then for the load. -/
def served (f : ClientFactory) (server : AiServer σ) (clientInfo : ClientInfo)
    (algorithmInfo : AlgorithmInfo) (inputInfo outputInfo : DataInfo)
    (remote : σ) : Int × DataInfo × σ :=
  let registered :=
    if algorithmInfo.isAsync ∧ f.mapCbMsg.keys.card = 1 then
      server.registerCallback clientInfo remote
    else (Retcode.success, remote)
  if registered.1 ≠ Retcode.success then
    (Retcode.failure, outputInfo, registered.2)
  else
    server.loadAlgorithm clientInfo algorithmInfo inputInfo outputInfo
      registered.2

theorem loadAlgorithm_ready (hready : f.HasProxy) :
    (f.saAsyncHandlerInstance env.newSaAsyncHandler = none ∧
      (f.loadAlgorithm env server clientInfo algorithmInfo inputInfo outputInfo
        remote).1 ≠ Retcode.success ∧
      (f.loadAlgorithm env server clientInfo algorithmInfo inputInfo outputInfo
        remote).2.2.2 = remote) ∨
    ((f.loadAlgorithm env server clientInfo algorithmInfo inputInfo outputInfo
        remote).1 = (f.served server clientInfo algorithmInfo inputInfo
          outputInfo remote).1 ∧
      (f.loadAlgorithm env server clientInfo algorithmInfo inputInfo outputInfo
        remote).2.2.2 = (f.served server clientInfo algorithmInfo inputInfo
          outputInfo remote).2.2) := by
  obtain ⟨c, hc, hproxy⟩ := hready
  have hsame : { f with saClient := some c } = f := by rw [← hc]
  unfold loadAlgorithm
  rw [saClientInstance_of_some hc]
  dsimp only
  rw [hsame]
  cases hgot : f.saAsyncHandlerInstance env.newSaAsyncHandler with
  | none =>
      have hne : Retcode.outOfMemory ≠ Retcode.success := by decide
      exact .inl ⟨rfl, hne, rfl⟩
  | some h =>
      refine .inr ?_
      unfold served
      rw [(callbacks_of_instance hgot).1]
      simp only [SaClient.registerCallback, SaClient.loadAlgorithm, hproxy,
        not_true_eq_false, if_false]
      split
      · split <;> exact ⟨rfl, rfl⟩
      · exact ⟨rfl, rfl⟩

/-- What the server is asked by a release: to take the registration back
where the map has no callbacks, and then to unload. -/
def unserved (f : ClientFactory) (server : AiServer σ) (clientInfo : ClientInfo)
    (algorithmInfo : AlgorithmInfo) (inputInfo : DataInfo) (remote : σ) : σ :=
  let unregistered :=
    if algorithmInfo.isAsync ∧ f.mapCbMsg.keys.card = 0 then
      server.unregisterCallback clientInfo remote
    else (Retcode.success, remote)
  if unregistered.1 ≠ Retcode.success then unregistered.2
  else
    (server.unloadAlgorithm clientInfo algorithmInfo inputInfo
      unregistered.2).2

theorem unLoadAlgorithm_ready (hready : f.HasProxy) :
    (f.saAsyncHandlerInstance env.newSaAsyncHandler = none ∧
      (f.unLoadAlgorithm env server clientInfo algorithmInfo inputInfo
        remote).2.2 = remote) ∨
    (f.unLoadAlgorithm env server clientInfo algorithmInfo inputInfo
      remote).2.2 =
        f.unserved server clientInfo algorithmInfo inputInfo remote := by
  obtain ⟨c, hc, hproxy⟩ := hready
  have hsame : { f with saClient := some c } = f := by rw [← hc]
  unfold unLoadAlgorithm
  rw [saClientInstance_of_some hc]
  dsimp only
  rw [hsame]
  cases hgot : f.saAsyncHandlerInstance env.newSaAsyncHandler with
  | none => exact .inl ⟨rfl, rfl⟩
  | some h =>
      refine .inr ?_
      unfold unserved
      rw [(callbacks_of_instance hgot).1]
      simp only [SaClient.unregisterCallback, SaClient.unloadAlgorithm, hproxy,
        not_true_eq_false, if_false]
      split
      · split <;> rfl
      · rfl

/-! The client's id is not changed by the calls on a session. -/

theorem registerWith_clientId (f : ClientFactory) (env : ClientEnv)
    (sessionId : Int32) (register : AsyncHandler → AsyncHandler)
    (update : SaClient → SaClient) :
    (f.registerWith env sessionId register update).2.clientId =
      f.clientId := by
  obtain ⟨-, heq⟩ | ⟨g, -, ⟨-, heq⟩ | ⟨c, -, heq⟩⟩ :=
    registerWith_cases f env sessionId register update
  all_goals rw [heq]

theorem unRegisterWith_clientId (f : ClientFactory) (env : ClientEnv)
    (unRegister : AsyncHandler → Int × AsyncHandler)
    (update : SaClient → SaClient) :
    (f.unRegisterWith env unRegister update).2.clientId = f.clientId := by
  obtain ⟨-, heq⟩ | ⟨g, -, ⟨-, heq⟩ | ⟨c, -, heq⟩⟩ :=
    unRegisterWith_cases f env unRegister update
  all_goals rw [heq]

theorem GotInstances.clientId {env : ClientEnv} {g : ClientFactory}
    (h : GotInstances env f g) :
    g.clientId = f.clientId := by
  cases h <;> rfl

theorem clientPrepare_clientId (f : ClientFactory) (env : ClientEnv)
    (server : AiServer σ) (clientInfo : ClientInfo)
    (algorithmInfo : AlgorithmInfo) (inputInfo outputInfo : DataInfo)
    (cb : Option Nat) (remote : σ) :
    (f.clientPrepare env server clientInfo algorithmInfo inputInfo outputInfo cb
      remote).2.2.1.clientId = f.clientId := by
  have hreg : (if algorithmInfo.isAsync = true then
      f.registerCb env clientInfo.sessionId cb
      else (Retcode.success, f)).2.clientId = f.clientId := by
    split
    · exact registerWith_clientId ..
    · rfl
  unfold clientPrepare
  generalize (if algorithmInfo.isAsync = true then
    f.registerCb env clientInfo.sessionId cb else (Retcode.success, f)) =
      registered at hreg ⊢
  obtain ⟨retCode, f₁⟩ := registered
  have hgot := (f₁.loadAlgorithm_got env server clientInfo algorithmInfo
    inputInfo outputInfo remote).clientId
  split
  · rfl
  · split
    · rfl
    · dsimp only
      split
      · exact hreg
      · split
        · exact (unRegisterWith_clientId ..).trans (hgot.trans hreg)
        · exact hgot.trans hreg

theorem clientRelease_clientId (f : ClientFactory) (env : ClientEnv)
    (server : AiServer σ) (clientInfo : ClientInfo)
    (algorithmInfo : AlgorithmInfo) (inputInfo : DataInfo) (remote : σ) :
    (f.clientRelease env server clientInfo algorithmInfo inputInfo
      remote).2.1.clientId = f.clientId := by
  have hreg : (if algorithmInfo.isAsync = true then
      f.unRegisterCb env clientInfo.sessionId
      else (Retcode.success, f)).2.clientId = f.clientId := by
    split
    · exact unRegisterWith_clientId ..
    · rfl
  unfold clientRelease
  generalize (if algorithmInfo.isAsync = true then
    f.unRegisterCb env clientInfo.sessionId else (Retcode.success, f)) =
      unregistered at hreg ⊢
  obtain ⟨retCode, f₁⟩ := unregistered
  split
  · rfl
  · dsimp only
    split
    · exact hreg
    · exact (f₁.unLoadAlgorithm_got env server clientInfo algorithmInfo
        inputInfo remote).clientId.trans hreg

theorem GotInstances.ready {env : ClientEnv} {g : ClientFactory}
    (h : GotInstances env f g)
    (hready : f.HasProxy) :
    g.mapCbMsg = f.mapCbMsg ∧ g.HasProxy ∧ g.clientId = f.clientId := by
  obtain ⟨c, hc, hproxy⟩ := hready
  cases h with
  | nothing => exact ⟨rfl, ⟨c, hc, hproxy⟩, rfl⟩
  | client hgot =>
      rw [saClientInstance_of_some hc, Option.some.injEq] at hgot
      subst hgot
      exact ⟨rfl, ⟨c, rfl, hproxy⟩, rfl⟩
  | both hgot hh =>
      rw [saClientInstance_of_some hc, Option.some.injEq] at hgot
      subst hgot
      exact ⟨(callbacks_of_instance hh).1.symm, ⟨c, rfl, hproxy⟩, rfl⟩

end Ready

end ClientFactory

/-! ## Both sides

The invariant relates the two tables. Calls of one side only have to leave the
other side as it is; a registration changes both, and the two replies that
part them are what the condition excludes. -/

theorem aiServer_loadAlgorithm_same (r : Service) (env : ServiceEnv)
    (ipcRetCode : Int) (clientInfo : ClientInfo) (algorithmInfo : AlgorithmInfo)
    (inputInfo outputInfo : DataInfo) :
    Service.SameHandlers r ((Service.aiServer env ipcRetCode).loadAlgorithm
      clientInfo algorithmInfo inputInfo outputInfo r).2.2 := by
  have hsame := r.loadAlgo_same env clientInfo algorithmInfo inputInfo
    ⟨.null, 0⟩
  simp only [Service.aiServer]
  split
  · exact hsame
  · exact hsame

/-- A client and its server agree on the registration: the server has a
started handler for the client exactly where the client has callbacks. -/
structure Agree (f : ClientFactory) (r : Service) : Prop where
  proxy : f.HasProxy
  adapter : f.clientId ∈ r.adapters
  kept : r.HandlerKept f.clientId
  started : r.HandlerStarted f.clientId ↔ f.mapCbMsg ≠ ∅

section Agree

variable {f g : ClientFactory} {r r' : Service}

/-- The server's handlers stay, and the client has callbacks where it had
some. -/
theorem Agree.same (h : Agree f r) (hsame : r.SameHandlers r')
    (hproxy : g.HasProxy) (hid : g.clientId = f.clientId)
    (hmap : g.mapCbMsg ≠ ∅ ↔ f.mapCbMsg ≠ ∅) : Agree g r' where
  proxy := hproxy
  adapter := hid ▸ hsame.adapters _ h.adapter
  kept := hid ▸ hsame.kept h.kept
  started := by rw [hid, hsame.started, h.started, hmap]

/-- How a prepare leaves the server, against the callbacks that the client
keeps or takes back. -/
structure Served (f : ClientFactory) (sessionId : Int32) (retCode : Int)
    (r : Service) : Prop where
  adapter : f.clientId ∈ r.adapters
  kept : r.HandlerKept f.clientId
  success : retCode = Retcode.success →
    (r.HandlerStarted f.clientId ↔ f.mapCbMsg ≠ ∅)
  failure : retCode ≠ Retcode.success →
    (r.HandlerStarted f.clientId ↔ f.mapCbMsg.erase sessionId ≠ ∅)

variable {env : ClientEnv} {serviceEnv : ServiceEnv} {ipcRetCode : Int}
  {clientInfo : ClientInfo} {algorithmInfo : AlgorithmInfo}
  {inputInfo outputInfo : DataInfo}

/-- Without a registration only the load counts: beside other callbacks, or
where it succeeds. -/
theorem served_unasked (h : Agree f r) (hid : g.clientId = f.clientId)
    (hasked : ¬ (algorithmInfo.isAsync ∧ g.mapCbMsg.keys.card = 1))
    (hmap : g.mapCbMsg ≠ ∅ ↔ f.mapCbMsg ≠ ∅)
    (hsole : g.mapCbMsg.keys = {clientInfo.sessionId} →
      ((Service.aiServer serviceEnv ipcRetCode).loadAlgorithm clientInfo
        algorithmInfo inputInfo outputInfo r).1 = Retcode.success) :
    let out := g.served (Service.aiServer serviceEnv ipcRetCode) clientInfo
      algorithmInfo inputInfo outputInfo r
    Served g clientInfo.sessionId out.1 out.2.2 := by
  have hsame := aiServer_loadAlgorithm_same r serviceEnv ipcRetCode clientInfo
    algorithmInfo inputInfo outputInfo
  unfold ClientFactory.served
  rw [if_neg hasked]
  simp only [ne_eq, not_true_eq_false, if_false]
  have hstarted : _ ↔ g.mapCbMsg ≠ ∅ := hsame.started.trans (h.started.trans hmap.symm)
  rw [← hid] at hstarted
  refine ⟨hid ▸ hsame.adapters _ h.adapter, hid ▸ hsame.kept h.kept,
    fun _ => hstarted, fun hne => hstarted.trans ?_⟩
  rw [ne_eq, ne_eq, Table.erase_eq_empty_iff]
  exact not_congr ⟨.inl, fun h => h.resolve_right fun hkeys => hne (hsole hkeys)⟩

/-- The first callback is registered, and stays where the load succeeds. -/
theorem served_asked (h : Agree f r) (hid : g.clientId = f.clientId)
    (hinfo : clientInfo.clientId = f.clientId) (hempty : f.mapCbMsg = ∅)
    (hasked : algorithmInfo.isAsync ∧ g.mapCbMsg.keys.card = 1)
    (hkeys : g.mapCbMsg.keys = {clientInfo.sessionId})
    (hload : (r.registerCallback serviceEnv f.clientId).1 = Retcode.success →
      ((Service.aiServer serviceEnv ipcRetCode).loadAlgorithm clientInfo
        algorithmInfo inputInfo outputInfo
        (r.registerCallback serviceEnv f.clientId).2).1 = Retcode.success) :
    let out := g.served (Service.aiServer serviceEnv ipcRetCode) clientInfo
      algorithmInfo inputInfo outputInfo r
    Served g clientInfo.sessionId out.1 out.2.2 := by
  have hreg := Service.registerCallback_registered serviceEnv h.kept
  have hnot : ¬ r.HandlerStarted f.clientId := fun hst => h.started.mp hst hempty
  have hne : g.mapCbMsg ≠ ∅ := by
    rw [ne_eq, Table.eq_empty_iff, hkeys]
    exact Finset.singleton_ne_empty _
  have herase : g.mapCbMsg.erase clientInfo.sessionId = ∅ :=
    (Table.erase_eq_empty_iff _ _).mpr (.inr hkeys)
  have hserver : (Service.aiServer serviceEnv ipcRetCode).registerCallback
      clientInfo r = r.registerCallback serviceEnv f.clientId := by
    rw [← hinfo]
    rfl
  unfold ClientFactory.served
  rw [if_pos hasked, hserver]
  generalize r.registerCallback serviceEnv f.clientId = reg at hreg hload
  dsimp only
  split
  · next hrefused =>
      refine ⟨hid ▸ hreg.adapters _ h.adapter, hid ▸ hreg.kept,
        fun h => (nomatch h), fun _ => ?_⟩
      rw [hid, hreg.failure hrefused, herase]
      exact ⟨fun h => absurd h hnot, fun h => absurd rfl h⟩
  · next hok =>
      have hok := Decidable.of_not_not hok
      have hsame := aiServer_loadAlgorithm_same reg.2 serviceEnv ipcRetCode
        clientInfo algorithmInfo inputInfo outputInfo
      refine ⟨hid ▸ hsame.adapters _ (hreg.adapters _ h.adapter),
        hid ▸ hsame.kept hreg.kept, fun _ => ?_,
        fun hne => absurd (hload hok) hne⟩
      rw [hid, hsame.started]
      exact ⟨fun _ => hne, fun _ => hreg.success hok⟩

/-- What the client is left with fits how the server was left. -/
theorem Served.agree {out : Int × DataInfo × ClientFactory × Service}
    (hserved : Served g clientInfo.sessionId out.1 out.2.2.2)
    (hproxy : out.2.2.1.HasProxy) (hid : out.2.2.1.clientId = g.clientId)
    (hmap : out.2.2.1.mapCbMsg = g.mapCbMsg) :
    Agree
      (if out.1 ≠ Retcode.success then
        (out.2.2.1.unRegisterCb env clientInfo.sessionId).2
      else out.2.2.1) out.2.2.2 := by
  split
  · next hne =>
      obtain ⟨hmap', hproxy', hid'⟩ := ClientFactory.unRegisterCb_ready env
        clientInfo.sessionId hproxy
      have hid := hid'.trans hid
      refine ⟨hproxy', hid ▸ hserved.adapter, hid ▸ hserved.kept, ?_⟩
      rw [hid, hserved.failure hne, hmap', hmap]
  · next hok =>
      refine ⟨hproxy, hid ▸ hserved.adapter, hid ▸ hserved.kept, ?_⟩
      rw [hid, hserved.success (Decidable.of_not_not hok), hmap]

end Agree

section Runs

variable {s : ClientSystem Service}

/-- What a prepare of the session gets from the server before the load: a
registration of the client where it has no callbacks yet. -/
def ClientSystem.registration (s : ClientSystem Service)
    (server : AiServer Service) (i : Nat) (algorithmInfo : AlgorithmInfo) :
    Int × Service :=
  if algorithmInfo.isAsync ∧ s.client.mapCbMsg = ∅ then
    server.registerCallback (s.info i) s.remote
  else (Retcode.success, s.remote)

/-- The session's load succeeds where a failed one would leave the server with
a registration that the client does not know of: after a registration that
went well, and where the session's callback is the only one. In the second
case the session is not prepared as an asynchronous one. -/
def SettlesRegistration (s : ClientSystem Service) (env : ClientEnv)
    (server : AiServer Service) (i : Nat) (algorithmInfo : AlgorithmInfo)
    (inputInfo outputInfo : DataInfo) : Prop :=
  let registered := s.registration server i algorithmInfo
  (s.client.mapCbMsg.keys = {(s.info i).sessionId} ∨
    algorithmInfo.isAsync ∧ s.client.mapCbMsg = ∅ ∧
      (s.client.saAsyncHandlerInstance env.newSaAsyncHandler).isSome ∧
      registered.1 = Retcode.success) →
  (s.client.mapCbMsg.keys = {(s.info i).sessionId} →
    ¬ algorithmInfo.isAsync) ∧
    (server.loadAlgorithm (s.info i) algorithmInfo inputInfo outputInfo
      registered.2).1 = Retcode.success

/-- The prepares that leave no registration behind. -/
def sparesRegistration (s : ClientSystem Service) : CallbackStep → Prop
  | .clientPrepare env serviceEnv ipcRetCode i algorithmInfo inputInfo
      outputInfo cb =>
      (s.info i).sessionId ≠ invalidSessionId →
      (algorithmInfo.isAsync → cb ≠ none) →
      SettlesRegistration s env (Service.aiServer serviceEnv ipcRetCode) i
        algorithmInfo inputInfo outputInfo
  | .clientRelease .. => True

variable {env : ClientEnv} {serviceEnv : ServiceEnv} {ipcRetCode : Int}
  {i : Nat} {algorithmInfo : AlgorithmInfo} {inputInfo outputInfo : DataInfo}
  {cb : Option Nat}

/-- What a load of the session's algorithm comes to, once its callback is
registered. -/
theorem loadAlgorithm_agree {f₁ : ClientFactory} (env : ClientEnv)
    (h : Agree s.client s.remote)
    (hproxy : f₁.HasProxy) (hid : f₁.clientId = s.client.clientId)
    (hnone : f₁.mapCbMsg = ∅ → s.client.mapCbMsg = ∅)
    (hserved :
      let out := f₁.served (Service.aiServer serviceEnv ipcRetCode) (s.info i)
        algorithmInfo inputInfo outputInfo s.remote
      Served f₁ (s.info i).sessionId out.1 out.2.2) :
    let out := f₁.loadAlgorithm env (Service.aiServer serviceEnv ipcRetCode)
      (s.info i) algorithmInfo inputInfo outputInfo s.remote
    Agree
      (if out.1 ≠ Retcode.success then
        (out.2.2.1.unRegisterCb env (s.info i).sessionId).2
      else out.2.2.1) out.2.2.2 := by
  intro out
  obtain ⟨hmap, hproxy', hid'⟩ := (ClientFactory.loadAlgorithm_got f₁ env
    (Service.aiServer serviceEnv ipcRetCode) (s.info i) algorithmInfo inputInfo
    outputInfo s.remote).ready hproxy
  refine Served.agree (g := f₁) ?_ hproxy' hid' hmap
  obtain ⟨hgot, hne, hsame⟩ | ⟨hret, hremote⟩ := ClientFactory.loadAlgorithm_ready env
    (Service.aiServer serviceEnv ipcRetCode) (s.info i) algorithmInfo inputInfo
    outputInfo s.remote hproxy
  · have hempty := ClientFactory.mapCbMsg_of_none hgot
    rw [hsame]
    refine ⟨hid ▸ h.adapter, hid ▸ h.kept, fun hok => absurd hok hne, fun _ => ?_⟩
    rw [hid, h.started, hnone hempty, hempty]
    rfl
  · rw [hret, hremote]
    exact hserved

theorem served_registered {f₁ : ClientFactory} {cb : Nat}
    (h : Agree s.client s.remote)
    (hinfo : (s.info i).clientId = s.client.clientId)
    (hasync : algorithmInfo.isAsync = true)
    (hhas : (s.client.saAsyncHandlerInstance env.newSaAsyncHandler).isSome)
    (hmap : f₁.mapCbMsg =
      s.client.mapCbMsg.insertNew (s.info i).sessionId cb)
    (hid : f₁.clientId = s.client.clientId)
    (hok : SettlesRegistration s env (Service.aiServer serviceEnv ipcRetCode) i
      algorithmInfo inputInfo outputInfo) :
    let out := f₁.served (Service.aiServer serviceEnv ipcRetCode) (s.info i)
      algorithmInfo inputInfo outputInfo s.remote
    Served f₁ (s.info i).sessionId out.1 out.2.2 := by
  by_cases hone : f₁.mapCbMsg.keys.card = 1
  · have hwas := hone
    rw [hmap, Table.card_keys_insertNew_eq_one] at hwas
    obtain hempty | hkeys := hwas
    · refine served_asked h hid hinfo hempty ⟨hasync, hone⟩ ?_ fun hreg => ?_
      · rw [hmap, hempty, Table.keys_insertNew, Finmap.keys_empty]
        rfl
      · rw [← hinfo] at hreg ⊢
        unfold SettlesRegistration ClientSystem.registration at hok
        rw [if_pos ⟨hasync, hempty⟩] at hok
        exact (hok (.inr ⟨hasync, hempty, hhas, hreg⟩)).2
    · exact absurd hasync ((hok (.inl hkeys)).1 hkeys)
  · refine served_unasked h hid (fun hasked => hone hasked.2) ?_ fun hkeys => ?_
    · refine ⟨fun _ hempty => hone ?_, fun _ => ?_⟩
      · rw [hmap, Table.card_keys_insertNew_eq_one]
        exact .inl hempty
      · rw [hmap]
        exact Table.insertNew_ne_empty _ _ _
    · exact absurd (hkeys ▸ Finset.card_singleton _) hone

/-- A session that is not asynchronous, before its load. -/
theorem served_unregistered (h : Agree s.client s.remote)
    (hasync : ¬ algorithmInfo.isAsync = true)
    (hok : SettlesRegistration s env (Service.aiServer serviceEnv ipcRetCode) i
      algorithmInfo inputInfo outputInfo) :
    let out := s.client.served (Service.aiServer serviceEnv ipcRetCode)
      (s.info i) algorithmInfo inputInfo outputInfo s.remote
    Served s.client (s.info i).sessionId out.1 out.2.2 := by
  refine served_unasked h rfl (fun hasked => hasync hasked.1) Iff.rfl
    fun hkeys => ?_
  obtain ⟨-, hload⟩ := hok (.inl hkeys)
  rw [ClientSystem.registration, if_neg fun hasked => hasync hasked.1] at hload
  exact hload

theorem prepared_agree {loaded : Int × DataInfo × ClientFactory × Service}
    {sessionId : Int32}
    (h : Agree
      (if loaded.1 ≠ Retcode.success then
        (loaded.2.2.1.unRegisterCb env sessionId).2
      else loaded.2.2.1) loaded.2.2.2) :
    let out :=
      if ¬ loaded.1 = Retcode.success then
        (loaded.1, loaded.2.1, (loaded.2.2.1.unRegisterCb env sessionId).2,
          loaded.2.2.2)
      else (loaded.1, loaded.2.1, loaded.2.2.1, loaded.2.2.2)
    Agree out.2.2.1 out.2.2.2 := by
  intro out
  unfold out
  split at h
  · next hne =>
      rw [if_pos hne]
      exact h
  · next hok =>
      rw [if_neg hok]
      exact h

theorem clientPrepare_agree (h : Agree s.client s.remote)
    (hinfo : (s.info i).clientId = s.client.clientId)
    (hok : sparesRegistration s (.clientPrepare env serviceEnv ipcRetCode i
      algorithmInfo inputInfo outputInfo cb)) :
    let out := s.client.clientPrepare env
      (Service.aiServer serviceEnv ipcRetCode) (s.info i) algorithmInfo
      inputInfo outputInfo cb s.remote
    Agree out.2.2.1 out.2.2.2 := by
  intro out
  unfold out ClientFactory.clientPrepare
  split
  · exact h
  · next hvalid =>
      split
      · exact h
      · next hcb =>
          have hcb : algorithmInfo.isAsync = true → cb ≠ none :=
            fun hasync hnone => hcb ⟨hasync, hnone⟩
          have hsettles := hok hvalid hcb
          by_cases hasync : algorithmInfo.isAsync = true
          · obtain ⟨cb, rfl⟩ := Option.ne_none_iff_exists'.mp (hcb hasync)
            rw [if_pos hasync]
            obtain ⟨-, heq⟩ | ⟨hhas, hret, hmap, hproxy, hid⟩ :=
              ClientFactory.registerCb_ready env (s.info i).sessionId h.proxy cb
            · rw [heq]
              exact h
            · have hloaded := loadAlgorithm_agree env h hproxy hid
                (fun hempty => absurd (hmap.symm.trans hempty)
                  (Table.insertNew_ne_empty _ _ _))
                (served_registered h hinfo hasync hhas hmap hid hsettles)
              generalize s.client.registerCb env (s.info i).sessionId (some cb) =
                registered at hret hloaded
              obtain ⟨retCode, f₁⟩ := registered
              cases hret
              simp only [ne_eq]
              exact prepared_agree hloaded
          · have hloaded := loadAlgorithm_agree env h h.proxy rfl id
              (served_unregistered h hasync hsettles)
            rw [if_neg hasync]
            simp only [ne_eq]
            exact prepared_agree hloaded

/-- How an unload leaves both sides, after the callbacks that the client took
back. -/
theorem unLoadAlgorithm_agree {f₁ : ClientFactory}
    (h : Agree s.client s.remote)
    (hinfo : (s.info i).clientId = s.client.clientId) (hproxy : f₁.HasProxy)
    (hid : f₁.clientId = s.client.clientId)
    (hsync : ¬ algorithmInfo.isAsync = true →
      f₁.mapCbMsg = s.client.mapCbMsg)
    (hmap : f₁.mapCbMsg ≠ ∅ → s.client.mapCbMsg ≠ ∅)
    (hhas : algorithmInfo.isAsync = true → f₁.saAsyncHandler ≠ none) :
    let out := f₁.unLoadAlgorithm env
      (Service.aiServer serviceEnv Retcode.success) (s.info i) algorithmInfo
      inputInfo s.remote
    Agree out.2.1 out.2.2 := by
  intro out
  obtain ⟨hmap', hproxy', hid'⟩ := (ClientFactory.unLoadAlgorithm_got f₁ env
    (Service.aiServer serviceEnv Retcode.success) (s.info i) algorithmInfo
    inputInfo s.remote).ready hproxy
  have hid'' : out.2.1.clientId = s.client.clientId := hid'.trans hid
  have hsame (r : Service) : r.SameHandlers
      ((Service.aiServer serviceEnv Retcode.success).unloadAlgorithm (s.info i)
        algorithmInfo inputInfo r).2 :=
    r.unloadAlgo_same (s.info i) algorithmInfo inputInfo
  obtain ⟨hgot, hremote⟩ | hremote := ClientFactory.unLoadAlgorithm_ready env
    (Service.aiServer serviceEnv Retcode.success) (s.info i) algorithmInfo
    inputInfo s.remote hproxy
  · refine h.same (hremote ▸ .refl s.remote) hproxy' hid'' ?_
    rw [hmap']
    by_cases hasync : algorithmInfo.isAsync = true
    · refine absurd ?_ (hhas hasync)
      unfold ClientFactory.saAsyncHandlerInstance at hgot
      split at hgot
      · cases hgot
      · assumption
    · rw [hsync hasync]
  · rw [hremote]
    unfold ClientFactory.unserved
    split
    · next hasked =>
        have hempty : f₁.mapCbMsg = ∅ :=
          Table.eq_empty_of_keys (Finset.card_eq_zero.mp hasked.2)
        obtain ⟨hadapters, hkept, hstopped⟩ :=
          Service.unregisterCallback_stopped serviceEnv h.kept h.adapter
        have hserver : (Service.aiServer serviceEnv
            Retcode.success).unregisterCallback (s.info i) s.remote =
            s.remote.unregisterCallback serviceEnv s.client.clientId := by
          rw [← hinfo]
          rfl
        rw [hserver]
        generalize s.remote.unregisterCallback serviceEnv s.client.clientId =
          stopped at hadapters hkept hstopped
        have hend {r : Service} (hr : stopped.2.SameHandlers r) :
            Agree out.2.1 r := by
          refine ⟨hproxy', hid'' ▸ hr.adapters _ (hadapters _ h.adapter),
            hid'' ▸ hr.kept hkept, ?_⟩
          rw [hid'', hr.started, hmap', hempty]
          exact ⟨fun hst => absurd hst hstopped, fun hne => absurd rfl hne⟩
        dsimp only
        split
        · exact hend (.refl _)
        · exact hend (hsame _)
    · next hasked =>
        refine h.same (hsame s.remote) hproxy' hid'' ?_
        rw [hmap']
        by_cases hasync : algorithmInfo.isAsync = true
        · have hne : f₁.mapCbMsg ≠ ∅ := fun hempty => hasked ⟨hasync, by
            rw [hempty, Finmap.keys_empty]
            rfl⟩
          exact ⟨fun _ => hmap hne, fun _ => hne⟩
        · rw [hsync hasync]

theorem clientRelease_agree (h : Agree s.client s.remote)
    (hinfo : (s.info i).clientId = s.client.clientId) :
    let out := s.client.clientRelease env
      (Service.aiServer serviceEnv Retcode.success) (s.info i) algorithmInfo
      inputInfo s.remote
    Agree out.2.1 out.2.2 := by
  intro out
  unfold out ClientFactory.clientRelease
  split
  · exact h
  · by_cases hasync : algorithmInfo.isAsync = true
    · rw [if_pos hasync]
      have hret := ClientFactory.unRegisterCb_success env (s.info i).sessionId
        h.proxy
      obtain ⟨hmap, hproxy, hid⟩ := ClientFactory.unRegisterCb_ready env
        (s.info i).sessionId h.proxy
      dsimp only
      split
      · next hne =>
          have hnot := fun hmem => hne (hret.mpr hmem)
          refine h.same (.refl _) hproxy hid ?_
          rw [hmap, Table.erase_of_notMem hnot]
      · next hok =>
          have hmem := hret.mp (Decidable.of_not_not hok)
          refine unLoadAlgorithm_agree h hinfo hproxy hid
            (fun hsync => absurd hasync hsync) (fun _ hempty => ?_)
            (fun _ => ClientFactory.unRegisterCb_handler env hmem)
          rw [hempty] at hmem
          exact Finmap.notMem_empty hmem
    · rw [if_neg hasync]
      exact unLoadAlgorithm_agree h hinfo h.proxy rfl (fun _ => rfl) id
        (fun hyes => absurd hyes hasync)

/-! ## Prepares are not refused

With the tables in agreement the server is not asked for a handler twice, so
that a `Prepare` fails for reasons of its own only. -/

/-- The server is asked by a prepare what `registration` says. -/
theorem served_registration {f₁ : ClientFactory}
    (hasked : algorithmInfo.isAsync = true ∧ f₁.mapCbMsg.keys.card = 1 ↔
      algorithmInfo.isAsync = true ∧ s.client.mapCbMsg = ∅)
    {server : AiServer Service}
    (hreg : (s.registration server i algorithmInfo).1 = Retcode.success) :
    f₁.served server (s.info i) algorithmInfo inputInfo outputInfo s.remote =
      server.loadAlgorithm (s.info i) algorithmInfo inputInfo outputInfo
        (s.registration server i algorithmInfo).2 := by
  unfold ClientFactory.served
  unfold ClientSystem.registration at hreg ⊢
  by_cases h : algorithmInfo.isAsync = true ∧ s.client.mapCbMsg = ∅
  · rw [if_pos h] at hreg
    rw [if_pos (hasked.mpr h), if_pos h]
    dsimp only
    rw [if_neg (not_not_intro hreg)]
  · rw [if_neg (fun hone => h (hasked.mp hone)), if_neg h]
    rfl

/-- A client whose first callback is not registered yet is not told that it
was. -/
theorem registration_success (h : Agree s.client s.remote)
    (hinfo : (s.info i).clientId = s.client.clientId)
    (hreg :
      let registered := s.registration (Service.aiServer serviceEnv ipcRetCode)
        i algorithmInfo
      registered.1 = Retcode.success ∨
        registered.1 = Retcode.asyncCbStarted) :
    (s.registration (Service.aiServer serviceEnv ipcRetCode) i
      algorithmInfo).1 = Retcode.success := by
  refine hreg.resolve_right fun hagain => ?_
  unfold ClientSystem.registration at hagain
  split at hagain
  · next hasked =>
      have hregistered := Service.registerCallback_registered serviceEnv h.kept
      rw [← hinfo] at hregistered
      refine hregistered.again (fun hst => ?_) hagain
      rw [hinfo] at hst
      exact h.started.mp hst hasked.2
  · cases hagain

/-- A load that succeeds makes the end of a prepare a success. -/
theorem loadAlgorithm_success {f₁ : ClientFactory} {server : AiServer Service}
    (env : ClientEnv) (s : ClientSystem Service) (i : Nat) (hproxy : f₁.HasProxy)
    (hhas : f₁.saAsyncHandlerInstance env.newSaAsyncHandler ≠ none)
    (hserved : (f₁.served server (s.info i) algorithmInfo inputInfo outputInfo
      s.remote).1 = Retcode.success) :
    (f₁.loadAlgorithm env server (s.info i) algorithmInfo inputInfo outputInfo
      s.remote).1 = Retcode.success := by
  obtain ⟨hnone, -⟩ | ⟨hret, -⟩ := ClientFactory.loadAlgorithm_ready env server
    (s.info i) algorithmInfo inputInfo outputInfo s.remote hproxy
  · exact absurd hnone hhas
  · exact hret.trans hserved

theorem clientPrepare_success {server : AiServer Service}
    (h : Agree s.client s.remote)
    (hvalid : (s.info i).sessionId ≠ invalidSessionId)
    (hcb : algorithmInfo.isAsync → cb ≠ none)
    (hhas : (s.client.saAsyncHandlerInstance env.newSaAsyncHandler).isSome)
    (hsole : s.client.mapCbMsg.keys = {(s.info i).sessionId} →
      ¬ algorithmInfo.isAsync)
    (hreg : (s.registration server i algorithmInfo).1 = Retcode.success)
    (hload : (server.loadAlgorithm (s.info i) algorithmInfo inputInfo outputInfo
      (s.registration server i algorithmInfo).2).1 = Retcode.success) :
    (s.client.clientPrepare env server (s.info i) algorithmInfo inputInfo
      outputInfo cb s.remote).1 = Retcode.success := by
  unfold ClientFactory.clientPrepare
  rw [if_neg hvalid, if_neg fun hnone => hcb hnone.1 hnone.2]
  by_cases hasync : algorithmInfo.isAsync = true
  · obtain ⟨cb, rfl⟩ := Option.ne_none_iff_exists'.mp (hcb hasync)
    rw [if_pos hasync]
    obtain ⟨hnone, -⟩ | ⟨-, hret, hmap, hproxy, -⟩ :=
      ClientFactory.registerCb_ready env (s.info i).sessionId h.proxy cb
    · rw [hnone] at hhas
      cases hhas
    · have hne := Table.insertNew_ne_empty s.client.mapCbMsg
        (s.info i).sessionId cb
      rw [← hmap] at hne
      have hloaded := loadAlgorithm_success env s i hproxy
        (fun hnone => hne (ClientFactory.mapCbMsg_of_none hnone)) (by
          rw [served_registration ?_ hreg, hload]
          rw [hmap, Table.card_keys_insertNew_eq_one]
          exact and_congr_right fun _ =>
            ⟨fun h => h.resolve_right fun hkeys => hsole hkeys hasync, .inl⟩)
      generalize s.client.registerCb env (s.info i).sessionId (some cb) =
        registered at hret hloaded
      obtain ⟨retCode, f₁⟩ := registered
      dsimp only at hret hloaded
      subst hret
      simp only [hloaded, ne_eq, not_true_eq_false, if_false]
  · have hloaded := loadAlgorithm_success env s i h.proxy
      (Option.isSome_iff_ne_none.mp hhas) (by
        rw [served_registration ?_ hreg, hload]
        exact and_congr_right fun hyes => absurd hyes hasync)
    rw [if_neg hasync]
    simp only [hloaded, ne_eq, not_true_eq_false, if_false]

/-- Client and server agree on the registration, so a prepare is not refused
for a registration that an earlier one left: where the server grants the
registration it is asked for or says that it was made before, and the load
succeeds, the prepare does. (A session whose own callback is the only one asks
for it a second time.) -/
structure RegistrationAgreed (s : ClientSystem Service) : Prop where
  started : s.remote.HandlerStarted s.client.clientId ↔ s.client.mapCbMsg ≠ ∅
  prepared : ∀ (env : ClientEnv) (serviceEnv : ServiceEnv) (ipcRetCode : Int)
    (i : Nat) (algorithmInfo : AlgorithmInfo) (inputInfo outputInfo : DataInfo)
    (cb : Option Nat),
    let server := Service.aiServer serviceEnv ipcRetCode
    let registered := s.registration server i algorithmInfo
    (s.info i).sessionId ≠ invalidSessionId →
    (algorithmInfo.isAsync → cb ≠ none) →
    (s.client.saAsyncHandlerInstance env.newSaAsyncHandler).isSome →
    (s.client.mapCbMsg.keys = {(s.info i).sessionId} →
      ¬ algorithmInfo.isAsync) →
    registered.1 = Retcode.success ∨ registered.1 = Retcode.asyncCbStarted →
    (server.loadAlgorithm (s.info i) algorithmInfo inputInfo outputInfo
      registered.2).1 = Retcode.success →
    (s.client.clientPrepare env server (s.info i) algorithmInfo inputInfo
      outputInfo cb s.remote).1 = Retcode.success

/-- What a run keeps: the two sides agree, and the infos carry the client's
id. -/
structure Connected (s : ClientSystem Service) : Prop where
  agree : Agree s.client s.remote
  info : ∀ i, (s.info i).clientId = s.client.clientId

theorem ConnectedClient.connected (h : ConnectedClient s) : Connected s := by
  obtain ⟨hkept, hstarted⟩ := Service.HandlerKept.of_none h.handler
  refine ⟨⟨h.proxy, h.adapter, hkept, ?_⟩, h.info⟩
  rw [h.mapCbMsg]
  exact ⟨fun hst => absurd hst hstarted, fun hne => absurd rfl hne⟩

/-- No session's prepare or release changes the client's id. -/
theorem take_clientId (i : CallbackStep) :
    (s.take i.toClientStep).client.clientId = s.client.clientId := by
  cases i with
  | clientPrepare env serviceEnv ipcRetCode i algorithmInfo inputInfo outputInfo cb =>
      exact ClientFactory.clientPrepare_clientId ..
  | clientRelease env serviceEnv i algorithmInfo inputInfo =>
      exact ClientFactory.clientRelease_clientId ..

theorem Connected.take {i : CallbackStep} (h : Connected s)
    (hok : sparesRegistration s i) : Connected (s.take i.toClientStep) := by
  have hid := take_clientId (s := s) i
  cases i with
  | clientPrepare env serviceEnv ipcRetCode i algorithmInfo inputInfo outputInfo cb =>
      exact ⟨clientPrepare_agree h.agree (h.info i) hok,
        fun j => (h.info j).trans hid.symm⟩
  | clientRelease env serviceEnv i algorithmInfo inputInfo =>
      exact ⟨clientRelease_agree h.agree (h.info i),
        fun j => (h.info j).trans hid.symm⟩

theorem reach_connected (hs : callbackMachine.Reach sparesRegistration s) :
    Connected s := by
  refine hs.invariant (fun s => ConnectedClient.connected) ?_
  intro s i s' h hok hstep
  cases hstep
  exact h.take hok

/-- Where no prepare leaves a registration behind, client and server agree. -/
theorem reach_registrationAgreed
    (hs : callbackMachine.Reach sparesRegistration s) :
    RegistrationAgreed s := by
  have h := reach_connected hs
  exact ⟨h.agree.started, fun env serviceEnv ipcRetCode i algorithmInfo
    inputInfo outputInfo cb hvalid hcb hhas hsole hreg hload =>
      clientPrepare_success h.agree hvalid hcb hhas hsole
        (registration_success h.agree (h.info i) hreg) hload⟩

end Runs

/-- The client with id 1, connected, and two sessions of it. -/
def connectedStart : ClientSystem Service where
  client := { ClientFactory.initial with
    clientId := 1
    saClient := some ⟨true, false, false⟩ }
  info := fun i =>
    { ClientInfo.zero with clientId := 1, sessionId := Int32.ofNat (i + 1) }
  remote := (Service.initial.generateClient .willing).2

theorem connectedStart_start : callbackMachine.start connectedStart where
  proxy := ⟨_, rfl, rfl⟩
  mapCbMsg := rfl
  info := fun _ => rfl
  adapter := by decide
  handler := by decide

/-- The prepare of an asynchronous session, with what unparcelling the reply
to the load returns. -/
def asyncPrepare (i : Nat) (ipcRetCode : Int) : CallbackStep :=
  .clientPrepare .connecting .willing ipcRetCode i
    { AlgorithmInfo.zero with algorithmVersion := 1, isAsync := true }
    ⟨.null, 0⟩ ⟨.null, 0⟩ (some i)

instance (s : ClientSystem Service) (env : ClientEnv)
    (server : AiServer Service) (i : Nat) (algorithmInfo : AlgorithmInfo)
    (inputInfo outputInfo : DataInfo) :
    Decidable (SettlesRegistration s env server i algorithmInfo inputInfo
      outputInfo) := by
  unfold SettlesRegistration
  infer_instance

instance (s : ClientSystem Service) (i : CallbackStep) :
    Decidable (sparesRegistration s i) := by
  unfold sparesRegistration
  split <;> infer_instance

theorem reach_registrationAgreed_sample : ∃ s,
    callbackMachine.run sparesRegistration connectedStart
      [asyncPrepare 0 Retcode.success, asyncPrepare 1 Retcode.failure] =
        some s ∧ RegistrationAgreed s := by
  have hrun : (callbackMachine.run sparesRegistration connectedStart
      [asyncPrepare 0 Retcode.success,
        asyncPrepare 1 Retcode.failure]).isSome := by decide
  obtain ⟨s, hs⟩ := Option.isSome_iff_exists.mp hrun
  exact ⟨s, hs,
    reach_registrationAgreed (.of_run (.start connectedStart_start) hs)⟩

/-- The load of the first session fails, and the server keeps the registration
that the client has given up. -/
theorem asyncPrepare_not_registrationAgreed : ∃ s,
    callbackMachine.Reach Machine.anyStep s ∧ ¬ RegistrationAgreed s := by
  have hrun : ((callbackMachine.run Machine.anyStep connectedStart
      [asyncPrepare 0 Retcode.failure]).map fun s =>
        (s.client.mapCbMsg.keys.card,
          (s.remote.asyncHandler.findClientListenerHandler
            s.client.clientId).bind s.remote.asyncHandler.handler.lookup)) =
      some (0, some ⟨1, [], some 0, true⟩) := by decide
  obtain ⟨s, hs, heq⟩ := Option.map_eq_some_iff.mp hrun
  obtain ⟨hcard, hstarted⟩ := Prod.mk.inj heq
  obtain ⟨o, ho, hlookup⟩ := Option.bind_eq_some_iff.mp hstarted
  refine ⟨s, .of_run (.start connectedStart_start) hs, fun h => ?_⟩
  exact h.started.mp ⟨o, _, ho, hlookup, Option.some_ne_none _⟩
    (Table.eq_empty_of_keys (Finset.card_eq_zero.mp hcard))

end AiEngine.Ref
