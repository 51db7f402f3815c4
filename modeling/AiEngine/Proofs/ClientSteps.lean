import AiEngine.Ref.ClientFactory

/-!
# What the client's operations do

Each operation of the client touches a few of its parts. Setting up and
closing the connection leaves the sessions and the callbacks as they are;
loading and unloading an algorithm only gets the two singletons; registering
and unregistering a callback ends in one of three ways. What the client keeps
over its runs is proved from these facts.
-/

namespace AiEngine.Ref

open AiEngine.Lib

theorem SaClient.init_keeps (c : SaClient) (env : ConnectReply)
    (clientInfo : ClientInfo) :
    (c.init env clientInfo).2.2.resultCb = c.resultCb ∧
      (c.init env clientInfo).2.2.deathCb = c.deathCb := by
  unfold SaClient.init
  split
  · exact ⟨rfl, rfl⟩
  · dsimp only
    split
    · exact ⟨rfl, rfl⟩
    · split <;> exact ⟨rfl, rfl⟩

namespace ClientFactory

/-- `ResultCb_` is set. -/
def HasResultCb (f : ClientFactory) : Prop :=
  ∃ c, f.saClient = some c ∧ c.resultCb = true

/-- `deathCb_` is set. -/
def HasDeathCb (f : ClientFactory) : Prop :=
  ∃ c, f.saClient = some c ∧ c.deathCb = true

/-- `SaClient` has a proxy of the server. -/
def HasProxy (f : ClientFactory) : Prop :=
  ∃ c, f.saClient = some c ∧ c.proxy = true

section Instances

variable {f f' : ClientFactory} {alloc : Bool}

theorem saClientInstance_of_some {c : SaClient} (h : f.saClient = some c) :
    f.saClientInstance alloc = some c := by
  rw [saClientInstance, h]

theorem saAsyncHandlerInstance_of_some {h : AsyncHandler}
    (hh : f.saAsyncHandler = some h) :
    f.saAsyncHandlerInstance alloc = some h := by
  rw [saAsyncHandlerInstance, hh]

theorem saClient_of_instance {c c' : SaClient}
    (hgot : f.saClientInstance alloc = some c) (h : f.saClient = some c') :
    c' = c :=
  Option.some.inj ((saClientInstance_of_some h).symm.trans hgot)

/-- A handler that was just made has no callbacks, as before. -/
theorem callbacks_of_instance {h : AsyncHandler}
    (hgot : f.saAsyncHandlerInstance alloc = some h) :
    f.mapCbMsg = h.mapCbMsg ∧ f.deadCbs = h.deadCbs := by
  unfold saAsyncHandlerInstance at hgot
  unfold mapCbMsg deadCbs
  split at hgot
  · next h' heq =>
      cases hgot
      simp only [heq, and_self]
  · next heq =>
      split at hgot
      · cases hgot
        simp only [heq, AsyncHandler.new, and_self]
      · cases hgot

theorem saClient_or_new {c : SaClient}
    (hgot : f.saClientInstance alloc = some c) :
    f.saClient = some c ∨ c = .new := by
  unfold saClientInstance at hgot
  split at hgot
  · next c' hc =>
      cases hgot
      exact .inl hc
  · split at hgot
    · cases hgot
      exact .inr rfl
    · cases hgot

end Instances

/-- Loading and unloading an algorithm only get the singletons. -/
inductive GotInstances (env : ClientEnv) (f : ClientFactory) :
    ClientFactory → Prop where
  | nothing : GotInstances env f f
  | client {c : SaClient} (hc : f.saClientInstance env.newSaClient = some c) :
      GotInstances env f { f with saClient := some c }
  | both {c : SaClient} {h : AsyncHandler}
      (hc : f.saClientInstance env.newSaClient = some c)
      (hh : f.saAsyncHandlerInstance env.newSaAsyncHandler = some h) :
      GotInstances env f
        { f with saClient := some c, saAsyncHandler := some h }

section Got

variable {σ : Type} (f : ClientFactory) (env : ClientEnv) (server : AiServer σ)
  (clientInfo : ClientInfo) (algorithmInfo : AlgorithmInfo)
  (inputInfo outputInfo : DataInfo) (remote : σ)

theorem loadAlgorithm_got : GotInstances env f
    (f.loadAlgorithm env server clientInfo algorithmInfo inputInfo outputInfo
      remote).2.2.1 := by
  unfold loadAlgorithm
  split
  · exact .nothing
  · next c hc =>
      dsimp only
      split
      · exact .client hc
      · next h hh =>
          repeat' split
          all_goals exact .both hc hh

theorem unLoadAlgorithm_got : GotInstances env f
    (f.unLoadAlgorithm env server clientInfo algorithmInfo inputInfo
      remote).2.1 := by
  unfold unLoadAlgorithm
  split
  · exact .nothing
  · next c hc =>
      dsimp only
      split
      · exact .client hc
      · next h hh =>
          repeat' split
          all_goals exact .both hc hh

end Got

/-! Each of the four operations ends in one of three ways: without a handler,
without `SaClient`, or with the pointer changed. -/

theorem updateSaClient_cases (f : ClientFactory) (env : ClientEnv)
    (update : SaClient → SaClient) :
    (f.saClient = none ∧
      f.updateSaClient env update = (Retcode.nullParam, f)) ∨
    ∃ c, f.saClientInstance env.newSaClient = some c ∧
      f.updateSaClient env update =
        (Retcode.success, { f with saClient := some (update c) }) := by
  unfold updateSaClient
  split
  · next hnone =>
      refine .inl ⟨?_, rfl⟩
      unfold saClientInstance at hnone
      split at hnone
      · cases hnone
      · assumption
  · next c hc => exact .inr ⟨c, hc, rfl⟩

theorem registerWith_cases (f : ClientFactory) (env : ClientEnv)
    (sessionId : Int32) (register : AsyncHandler → AsyncHandler)
    (update : SaClient → SaClient) :
    (f.saAsyncHandlerInstance env.newSaAsyncHandler = none ∧
      f.registerWith env sessionId register update = (Retcode.nullParam, f)) ∨
    ∃ h, f.saAsyncHandlerInstance env.newSaAsyncHandler = some h ∧
      ((f.saClient = none ∧ f.registerWith env sessionId register update =
        (Retcode.failure, { f with
          saAsyncHandler := some ((register h).unRegisterCb sessionId).2 })) ∨
      ∃ c, f.saClientInstance env.newSaClient = some c ∧
        f.registerWith env sessionId register update =
          (Retcode.success, { f with
            saAsyncHandler := some (register h)
            saClient := some (update c) })) := by
  unfold registerWith
  split
  · next hgot => exact .inl ⟨hgot, rfl⟩
  · next h hgot =>
      refine .inr ⟨h, hgot, ?_⟩
      obtain ⟨hnone, heq⟩ | ⟨c, hc, heq⟩ := updateSaClient_cases
        { f with saAsyncHandler := some (register h) } env update
      · refine .inl ⟨hnone, ?_⟩
        rw [heq]
        rfl
      · refine .inr ⟨c, hc, ?_⟩
        rw [heq]
        rfl

theorem unRegisterWith_cases (f : ClientFactory) (env : ClientEnv)
    (unRegister : AsyncHandler → Int × AsyncHandler)
    (update : SaClient → SaClient) :
    (f.saAsyncHandlerInstance env.newSaAsyncHandler = none ∧
      (f.unRegisterWith env unRegister update).2 = f) ∨
    ∃ h, f.saAsyncHandlerInstance env.newSaAsyncHandler = some h ∧
      ((f.saClient = none ∧ (f.unRegisterWith env unRegister update).2 =
        { f with saAsyncHandler := some (unRegister h).2 }) ∨
      ∃ c, f.saClientInstance env.newSaClient = some c ∧
        (f.unRegisterWith env unRegister update).2 = { f with
          saAsyncHandler := some (unRegister h).2
          saClient := some (update c) }) := by
  unfold unRegisterWith
  split
  · next hgot => exact .inl ⟨hgot, rfl⟩
  · next h hgot =>
      refine .inr ⟨h, hgot, ?_⟩
      obtain ⟨hnone, heq⟩ | ⟨c, hc, heq⟩ := updateSaClient_cases
        { f with saAsyncHandler := some h } env update
      · refine .inl ⟨hnone, ?_⟩
        rw [heq]
        dsimp only
        split <;> rfl
      · refine .inr ⟨c, hc, ?_⟩
        rw [heq]
        dsimp only
        split <;> rfl

/-! ## The connection

What connects and disconnects changes the proxy, the worker and the client's
id, and nothing of the sessions or the callbacks. -/

/-- A step of the connection: sessions and callbacks stay, and a client id is
got through `SaClient`. -/
structure ConnectionOnly (f f' : ClientFactory) : Prop where
  sessionInfos : f'.sessionInfos = f.sessionInfos
  sessionId : f'.sessionId = f.sessionId
  saAsyncHandler : f'.saAsyncHandler = f.saAsyncHandler
  resultCb : f'.HasResultCb ↔ f.HasResultCb
  deathCb : f'.HasDeathCb ↔ f.HasDeathCb
  saClient : f.saClient ≠ none → f'.saClient ≠ none
  clientId : f'.clientId = f.clientId ∨ f'.clientId = invalidClientId ∨
    f'.saClient ≠ none

namespace ConnectionOnly

variable {f f' f'' : ClientFactory}

theorem of_eq (hinfos : f'.sessionInfos = f.sessionInfos)
    (hcounter : f'.sessionId = f.sessionId) (hclient : f'.saClient = f.saClient)
    (hhandler : f'.saAsyncHandler = f.saAsyncHandler)
    (hid : f'.clientId = f.clientId ∨ f'.clientId = invalidClientId ∨
      f'.saClient ≠ none) : ConnectionOnly f f' where
  sessionInfos := hinfos
  sessionId := hcounter
  saAsyncHandler := hhandler
  resultCb := by rw [HasResultCb, HasResultCb, hclient]
  deathCb := by rw [HasDeathCb, HasDeathCb, hclient]
  saClient := by rw [hclient]; exact id
  clientId := hid

theorem refl (f : ClientFactory) : ConnectionOnly f f :=
  of_eq rfl rfl rfl rfl (.inl rfl)

theorem trans (h : ConnectionOnly f f') (h' : ConnectionOnly f' f'') :
    ConnectionOnly f f'' where
  sessionInfos := h'.sessionInfos.trans h.sessionInfos
  sessionId := h'.sessionId.trans h.sessionId
  saAsyncHandler := h'.saAsyncHandler.trans h.saAsyncHandler
  resultCb := h'.resultCb.trans h.resultCb
  deathCb := h'.deathCb.trans h.deathCb
  saClient := fun hc => h'.saClient (h.saClient hc)
  clientId := by
    rcases h'.clientId with hid | hid | hsome
    · rcases h.clientId with hid' | hid' | hsome
      · exact .inl (hid.trans hid')
      · exact .inr (.inl (hid.trans hid'))
      · exact .inr (.inr (h'.saClient hsome))
    · exact .inr (.inl hid)
    · exact .inr (.inr hsome)

/-- `SaClient` in hand, its pointers kept; a new one has none set. -/
theorem of_saClient {c c' : SaClient} {alloc : Bool}
    (hgot : f.saClientInstance alloc = some c)
    (hset : f'.saClient = some c') (hresult : c'.resultCb = c.resultCb)
    (hdeath : c'.deathCb = c.deathCb)
    (hinfos : f'.sessionInfos = f.sessionInfos)
    (hcounter : f'.sessionId = f.sessionId)
    (hhandler : f'.saAsyncHandler = f.saAsyncHandler) :
    ConnectionOnly f f' where
  sessionInfos := hinfos
  sessionId := hcounter
  saAsyncHandler := hhandler
  resultCb := by
    constructor
    · rintro ⟨d, hd, hr⟩
      rw [hset, Option.some.injEq] at hd
      rw [← hd, hresult] at hr
      rcases saClient_or_new hgot with hc | rfl
      · exact ⟨c, hc, hr⟩
      · cases hr
    · rintro ⟨d, hd, hr⟩
      rw [saClient_of_instance hgot hd] at hr
      exact ⟨c', hset, hresult.trans hr⟩
  deathCb := by
    constructor
    · rintro ⟨d, hd, hr⟩
      rw [hset, Option.some.injEq] at hd
      rw [← hd, hdeath] at hr
      rcases saClient_or_new hgot with hc | rfl
      · exact ⟨c, hc, hr⟩
      · cases hr
    · rintro ⟨d, hd, hr⟩
      rw [saClient_of_instance hgot hd] at hr
      exact ⟨c', hset, hdeath.trans hr⟩
  saClient := fun _ => by rw [hset]; exact Option.some_ne_none c'
  clientId := .inr (.inr (by rw [hset]; exact Option.some_ne_none c'))

end ConnectionOnly

section Connection

variable (f : ClientFactory)

theorem oneAction_connection (w : ConnectMgrWorker) (env : ConnectReply) :
    ConnectionOnly f (f.oneAction w env).2.2 := by
  unfold oneAction
  split
  · exact .refl f
  · split
    · exact .refl f
    · next c hgot =>
        have hkeeps := SaClient.init_keeps c env w.clientInfo
        dsimp only
        split
        · exact .of_saClient hgot rfl hkeeps.1 hkeeps.2 rfl rfl rfl
        · exact .of_saClient hgot rfl hkeeps.1 hkeeps.2 rfl rfl rfl

theorem uninitialize_connection (alloc : Bool) :
    ConnectionOnly f (f.uninitialize alloc) := by
  unfold uninitialize
  split
  · exact .refl f
  · next c hgot => exact .of_saClient hgot rfl rfl rfl rfl rfl rfl

theorem stopWorker_connection (w : ConnectMgrWorker) (alloc : Bool) :
    ConnectionOnly f (f.stopWorker w alloc) :=
  (f.uninitialize_connection alloc).trans (.of_eq rfl rfl rfl rfl (.inl rfl))

theorem runWorker_connection (env : ConnectReply) :
    ConnectionOnly f (f.runWorker env) := by
  unfold runWorker
  split
  · exact .refl f
  · next w _ =>
      split
      · exact .refl f
      · have hone := f.oneAction_connection w env
        split
        · next w' g heq =>
            rw [heq] at hone
            exact hone.trans (.of_eq rfl rfl rfl rfl (.inl rfl))
        · next w' g heq =>
            rw [heq] at hone
            exact hone.trans (g.stopWorker_connection w' _)

theorem foldl_runWorker_connection (attempts : List ConnectReply) :
    ConnectionOnly f (attempts.foldl runWorker f) := by
  induction attempts generalizing f with
  | nil => exact .refl f
  | cons env attempts ih =>
      exact (f.runWorker_connection env).trans (ih (f.runWorker env))

theorem waitConnection_connection (attempts : List ConnectReply) :
    ConnectionOnly f (f.waitConnection attempts).2 := by
  unfold waitConnection
  dsimp only
  split <;> exact f.foldl_runWorker_connection attempts

theorem initAiServer_connection (env : ClientEnv) (clientInfo : ClientInfo) :
    ConnectionOnly f (f.initAiServer env clientInfo).2 := by
  unfold initAiServer
  split
  · exact .refl f
  · dsimp only
    repeat' split
    all_goals exact .of_eq rfl rfl rfl rfl (.inl rfl)

theorem closeAiServer_connection (env : ClientEnv) :
    ConnectionOnly f (f.closeAiServer env).2 := by
  unfold closeAiServer
  split
  · exact .refl f
  · next w _ =>
      have hstop : ConnectionOnly f
          (if w.running then f.stopWorker w env.newSaClient else f) := by
        split
        · exact f.stopWorker_connection w _
        · exact .refl f
      generalize (if w.running then f.stopWorker w env.newSaClient else f) = g
        at hstop
      dsimp only
      split
      · exact hstop
      · exact hstop.trans (.of_eq rfl rfl rfl rfl (.inl rfl))

end Connection

section Connected

variable {f : ClientFactory} {env : ClientEnv} {clientInfo : ClientInfo}

theorem waitConnection_connected {attempts : List ConnectReply}
    (h : (f.waitConnection attempts).1 = Retcode.success) :
    (f.waitConnection attempts).2.clientId ≠ invalidClientId := by
  unfold waitConnection at h ⊢
  dsimp only at h ⊢
  split at h
  · next hid =>
      rw [if_pos hid]
      exact hid
  · cases h

theorem connect_connection (f : ClientFactory) (env : ClientEnv)
    (clientInfo : ClientInfo) (isFirstSession : Bool) :
    ConnectionOnly f (f.connect env clientInfo isFirstSession).2 := by
  unfold connect
  have hinit : ConnectionOnly f
      (if isFirstSession then f.initAiServer env clientInfo
        else (Retcode.success, f)).2 := by
    split
    · exact f.initAiServer_connection env clientInfo
    · exact .refl f
  generalize (if isFirstSession then f.initAiServer env clientInfo
    else (Retcode.success, f)) = r at hinit
  dsimp only
  split
  · exact hinit
  · exact hinit.trans (r.2.waitConnection_connection env.attempts)

theorem connect_connected {isFirstSession : Bool}
    (h : (f.connect env clientInfo isFirstSession).1 = Retcode.success) :
    (f.connect env clientInfo isFirstSession).2.clientId ≠ invalidClientId := by
  unfold connect at h ⊢
  generalize (if isFirstSession then f.initAiServer env clientInfo
    else (Retcode.success, f)) = r at h ⊢
  dsimp only at h ⊢
  split at h
  · next hne => exact absurd h hne
  · next hok =>
      rw [if_neg hok]
      exact waitConnection_connected h

theorem disconnect_connection (f : ClientFactory) (env : ClientEnv) :
    ConnectionOnly f (f.disconnect env).2 := by
  unfold disconnect
  split
  · have hclose := f.closeAiServer_connection env
    dsimp only
    split
    · exact hclose
    · split <;> exact hclose
  · exact .refl f

theorem closeAiServer_success (h : (f.closeAiServer env).1 = Retcode.success) :
    (f.hasThreadPool || env.newThreadPool) ∧ ∃ w ∈ f.connectMgr,
      (f.closeAiServer env).2.clientId =
        (if w.running then f.stopWorker w env.newSaClient else f).clientId := by
  unfold closeAiServer at h ⊢
  cases hw : f.connectMgr with
  | none =>
      rw [hw] at h
      cases h
  | some w =>
      rw [hw] at h
      have hpool : (if w.running then f.stopWorker w env.newSaClient
          else f).hasThreadPool = f.hasThreadPool := by
        unfold stopWorker uninitialize
        split
        · dsimp only
          split <;> rfl
        · rfl
      dsimp only at h ⊢
      rw [hpool] at h ⊢
      split at h
      · cases h
      · next hhas =>
          rw [if_neg hhas]
          exact ⟨Decidable.of_not_not hhas, w, rfl, rfl⟩

end Connected

end ClientFactory

/-- A server that answers loads with the code and grants everything else. -/
def answering (retCode : Int) : AiServer Unit where
  registerCallback := fun _ s => (Retcode.success, s)
  unregisterCallback := fun _ s => (Retcode.success, s)
  loadAlgorithm := fun _ _ _ outputInfo s => (retCode, outputInfo, s)
  unloadAlgorithm := fun _ _ _ s => (Retcode.success, s)

/-- Everything asked for is granted, and the server answers with client
id 7. -/
def ClientEnv.connecting : ClientEnv :=
  ⟨true, true, true, true, true, true,
    [⟨true, true, true, some (7, 0), true⟩], 0⟩

/-- A process before its first call. -/
def clientStart : ClientSystem Unit :=
  ⟨.initial, fun _ => { ClientInfo.zero with sessionId := -1 }, ()⟩

theorem clientStart_start : (clientMachine Unit).start clientStart :=
  ⟨rfl, fun _ => rfl⟩

end AiEngine.Ref
