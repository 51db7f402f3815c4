import AiEngine.Proofs.ClientSteps

/-!
# The client's callbacks and the sessions that need them

The callbacks of the sessions are delivered through two function pointers that
all sessions share. A pointer has to be set as long as one session has a
callback of its kind.

Most of the client's operations leave the callbacks alone; they may create
`SaClient`, or change its proxy, and that is all. `RegisterCb` and
`RegisterDeadCb` set the pointer of their kind. `UnRegisterCb` and
`UnRegisterDeadCb` clear it, whoever else has a callback, and so do no harm
only where no other session has one.
-/

namespace AiEngine.Ref

open AiEngine.Lib

/-! ## One session and the others

The tables of handlers change under the key of one session; what the other
sessions have is what decides whether the function pointer has to be set. -/

/-- A session besides this one has an entry. -/
def OtherSession (t : Table Int32 Nat) (sessionId : Int32) : Prop :=
  ∃ k ∈ t.keys, k ≠ sessionId

instance (t : Table Int32 Nat) (sessionId : Int32) :
    Decidable (OtherSession t sessionId) :=
  inferInstanceAs (Decidable (∃ k ∈ t.keys, k ≠ sessionId))

theorem erase_eq_empty {t : Table Int32 Nat} {sessionId : Int32}
    (h : ¬ OtherSession t sessionId) : t.erase sessionId = ∅ := by
  refine Table.eq_empty_of_keys ?_
  rw [Finmap.keys_erase]
  refine Finset.eq_empty_of_forall_notMem fun k hk => ?_
  obtain ⟨hne, hmem⟩ := Finset.mem_erase.mp hk
  exact h ⟨k, hmem, hne⟩

theorem not_otherSession_empty (sessionId : Int32) :
    ¬ OtherSession ∅ sessionId := by
  rintro ⟨k, hk, -⟩
  simp at hk

namespace AsyncHandler

variable {sessionId : Int32} {cb : Option Nat}

theorem keys_registerCb (h : AsyncHandler) (cb : Nat) :
    (h.registerCb sessionId (some cb)).mapCbMsg.keys =
      insert sessionId h.mapCbMsg.keys :=
  Table.keys_insertNew ..

theorem deadCbs_registerCb (h : AsyncHandler) :
    (h.registerCb sessionId cb).deadCbs = h.deadCbs := by
  cases cb <;> rfl

theorem other_registerCb {h : AsyncHandler}
    (hother : OtherSession (h.registerCb sessionId cb).mapCbMsg sessionId) :
    OtherSession h.mapCbMsg sessionId := by
  cases cb with
  | none => exact hother
  | some cb =>
      obtain ⟨k, hk, hne⟩ := hother
      rw [keys_registerCb, Finset.mem_insert] at hk
      exact ⟨k, hk.resolve_left hne, hne⟩

/-- Where no other session has a callback, none is left. -/
theorem unRegisterCb_empty {h : AsyncHandler}
    (hsole : ¬ OtherSession h.mapCbMsg sessionId) :
    (h.unRegisterCb sessionId).2.mapCbMsg = ∅ := by
  unfold unRegisterCb
  split
  · exact erase_eq_empty hsole
  · next hnot =>
      refine Table.eq_empty_of_keys ?_
      refine Finset.eq_empty_of_forall_notMem fun k hk => ?_
      refine hsole ⟨k, hk, ?_⟩
      rintro rfl
      exact hnot (Finmap.mem_keys.mp hk)

theorem other_unRegisterCb {h : AsyncHandler}
    (hother : OtherSession (h.unRegisterCb sessionId).2.mapCbMsg sessionId) :
    OtherSession h.mapCbMsg sessionId := by
  unfold unRegisterCb at hother
  split at hother
  · obtain ⟨k, hk, hne⟩ := hother
    rw [Finmap.keys_erase] at hk
    exact ⟨k, Finset.mem_of_mem_erase hk, hne⟩
  · exact hother

theorem deadCbs_unRegisterCb (h : AsyncHandler) :
    (h.unRegisterCb sessionId).2.deadCbs = h.deadCbs := by
  unfold unRegisterCb
  split <;> rfl

theorem mapCbMsg_registerDeadCb (h : AsyncHandler) :
    (h.registerDeadCb sessionId cb).mapCbMsg = h.mapCbMsg := by
  cases cb <;> rfl

end AsyncHandler

namespace ClientFactory

/-- The pointers are set for the sessions that have callbacks. A client id
was got through `SaClient`. -/
structure CallbacksSet (f : ClientFactory) : Prop where
  resultCb : f.mapCbMsg ≠ ∅ → f.HasResultCb
  deathCb : f.deadCbs ≠ ∅ → f.HasDeathCb
  saClient : f.clientId ≠ invalidClientId → f.saClient ≠ none

theorem CallbacksSet.initial : CallbacksSet .initial where
  resultCb := fun h => absurd rfl h
  deathCb := fun h => absurd rfl h
  saClient := fun h => absurd rfl h

/-- A step that leaves the callbacks alone. -/
structure SameCallbacks (f f' : ClientFactory) : Prop where
  mapCbMsg : f'.mapCbMsg = f.mapCbMsg
  deadCbs : f'.deadCbs = f.deadCbs
  resultCb : f.HasResultCb → f'.HasResultCb
  deathCb : f.HasDeathCb → f'.HasDeathCb
  saClient : f.saClient ≠ none → f'.saClient ≠ none
  clientId : f'.clientId = f.clientId ∨ f'.clientId = invalidClientId ∨
    f'.saClient ≠ none

namespace SameCallbacks

variable {f f' f'' : ClientFactory}

/-- What a step does to the rest of the client does not matter. -/
theorem of_eq (hclient : f'.saClient = f.saClient)
    (hhandler : f'.saAsyncHandler = f.saAsyncHandler)
    (hid : f'.clientId = f.clientId ∨ f'.clientId = invalidClientId ∨
      f'.saClient ≠ none) : SameCallbacks f f' where
  mapCbMsg := by rw [ClientFactory.mapCbMsg, hhandler, ClientFactory.mapCbMsg]
  deadCbs := by rw [ClientFactory.deadCbs, hhandler, ClientFactory.deadCbs]
  resultCb := by rw [HasResultCb, HasResultCb, hclient]; exact id
  deathCb := by rw [HasDeathCb, HasDeathCb, hclient]; exact id
  saClient := by rw [hclient]; exact id
  clientId := hid

theorem refl (f : ClientFactory) : SameCallbacks f f := of_eq rfl rfl (.inl rfl)

theorem trans (h : SameCallbacks f f') (h' : SameCallbacks f' f'') :
    SameCallbacks f f'' where
  mapCbMsg := h'.mapCbMsg.trans h.mapCbMsg
  deadCbs := h'.deadCbs.trans h.deadCbs
  resultCb := fun hr => h'.resultCb (h.resultCb hr)
  deathCb := fun hd => h'.deathCb (h.deathCb hd)
  saClient := fun hc => h'.saClient (h.saClient hc)
  clientId := by
    rcases h'.clientId with hid | hid | hsome
    · rcases h.clientId with hid' | hid' | hsome
      · exact .inl (hid.trans hid')
      · exact .inr (.inl (hid.trans hid'))
      · exact .inr (.inr (h'.saClient hsome))
    · exact .inr (.inl hid)
    · exact .inr (.inr hsome)

end SameCallbacks

theorem CallbacksSet.same {f f' : ClientFactory} (h : CallbacksSet f)
    (hsame : SameCallbacks f f') : CallbacksSet f' where
  resultCb := fun hne =>
    hsame.resultCb (h.resultCb (by rwa [hsame.mapCbMsg] at hne))
  deathCb := fun hne =>
    hsame.deathCb (h.deathCb (by rwa [hsame.deadCbs] at hne))
  saClient := fun hid => by
    rcases hsame.clientId with heq | heq | hsome
    · exact hsame.saClient (h.saClient (by rwa [heq] at hid))
    · exact absurd heq hid
    · exact hsome

section Instances

variable {f f' : ClientFactory} {alloc : Bool}

theorem SameCallbacks.of_connection (h : ConnectionOnly f f') :
    SameCallbacks f f' where
  mapCbMsg := by
    rw [ClientFactory.mapCbMsg, h.saAsyncHandler, ClientFactory.mapCbMsg]
  deadCbs := by
    rw [ClientFactory.deadCbs, h.saAsyncHandler, ClientFactory.deadCbs]
  resultCb := h.resultCb.mpr
  deathCb := h.deathCb.mpr
  saClient := h.saClient
  clientId := h.clientId

theorem SameCallbacks.of_saAsyncHandler {h : AsyncHandler}
    (hgot : f.saAsyncHandlerInstance alloc = some h) :
    SameCallbacks f { f with saAsyncHandler := some h } where
  mapCbMsg := (callbacks_of_instance hgot).1.symm
  deadCbs := (callbacks_of_instance hgot).2.symm
  resultCb := id
  deathCb := id
  saClient := id
  clientId := .inl rfl

theorem SameCallbacks.of_got {env : ClientEnv} (h : GotInstances env f f') :
    SameCallbacks f f' := by
  cases h with
  | nothing => exact .refl f
  | client hc => exact .of_connection (.of_saClient hc rfl rfl rfl rfl rfl rfl)
  | both hc hh =>
      exact (SameCallbacks.of_saAsyncHandler hh).trans
        (.of_connection (.of_saClient (f := { f with saAsyncHandler := some _ })
          hc rfl rfl rfl rfl rfl rfl))

end Instances

section Frames

variable (f : ClientFactory)

theorem generateSessionId_same : SameCallbacks f f.generateSessionId.2 := by
  unfold generateSessionId
  split
  · exact .refl f
  · exact .of_eq rfl rfl (.inl rfl)

theorem addSessionInfo_same (clientInfo : ClientInfo)
    (algorithmInfo : AlgorithmInfo) :
    SameCallbacks f (f.addSessionInfo clientInfo algorithmInfo).2 :=
  .of_eq rfl rfl (.inl rfl)

theorem onAiDead_same : SameCallbacks f f.onAiDead.2 := by
  unfold onAiDead
  split
  · exact .refl f
  · next c hc =>
      split
      · exact .of_eq rfl rfl (.inr (.inr (by simp [resetClient, hc])))
      · exact .refl f

end Frames

section Callbacks

variable {f : ClientFactory} {env : ClientEnv} {sessionId : Int32}
  {cb : Option Nat}

/-- A process without `SaClient` has no callbacks. -/
theorem CallbacksSet.empty (h : CallbacksSet f) (hnone : f.saClient = none) :
    f.mapCbMsg = ∅ ∧ f.deadCbs = ∅ := by
  constructor
  · refine Decidable.of_not_not fun hne => ?_
    obtain ⟨c, hc, -⟩ := h.resultCb hne
    rw [hnone] at hc
    cases hc
  · refine Decidable.of_not_not fun hne => ?_
    obtain ⟨c, hc, -⟩ := h.deathCb hne
    rw [hnone] at hc
    cases hc

theorem registerCb_keeps (h : CallbacksSet f) :
    CallbacksSet (f.registerCb env sessionId cb).2 := by
  obtain ⟨-, heq⟩ | ⟨g, hgot, ⟨hnone, heq⟩ | ⟨c, hc, heq⟩⟩ := registerWith_cases f env
    sessionId (·.registerCb sessionId cb) SaClient.registerSaClientCb
  · rw [registerCb, heq]
    exact h
  · obtain ⟨hmap, hdead⟩ := callbacks_of_instance hgot
    obtain ⟨hm, hd⟩ := h.empty hnone
    have hsole : ¬ OtherSession (g.registerCb sessionId cb).mapCbMsg sessionId := by
      intro hother
      have := AsyncHandler.other_registerCb hother
      rw [← hmap, hm] at this
      exact not_otherSession_empty _ this
    rw [registerCb, heq]
    exact
      { resultCb := fun hne => absurd (AsyncHandler.unRegisterCb_empty hsole) hne
        deathCb := fun hne => absurd
          (((AsyncHandler.deadCbs_unRegisterCb _).trans
            (AsyncHandler.deadCbs_registerCb g)).trans (hdead.symm.trans hd)) hne
        saClient := h.saClient }
  · obtain ⟨-, hdead⟩ := callbacks_of_instance hgot
    rw [registerCb, heq]
    exact
      { resultCb := fun _ => ⟨_, rfl, rfl⟩
        deathCb := fun hne => by
          obtain ⟨d, hdc, hcb⟩ := h.deathCb fun h => hne
            ((AsyncHandler.deadCbs_registerCb g).trans (hdead.symm.trans h))
          rw [saClient_of_instance hc hdc] at hcb
          exact ⟨_, rfl, hcb⟩
        saClient := fun _ => Option.some_ne_none _ }

theorem unRegisterCb_keeps (h : CallbacksSet f)
    (hsole : ¬ OtherSession f.mapCbMsg sessionId) :
    CallbacksSet (f.unRegisterCb env sessionId).2 := by
  obtain ⟨-, heq⟩ | ⟨g, hgot, ⟨hnone, heq⟩ | ⟨c, hc, heq⟩⟩ := unRegisterWith_cases f env
    (·.unRegisterCb sessionId) SaClient.unRegisterSaClientCb
  · rw [unRegisterCb, heq]
    exact h
  all_goals
    obtain ⟨hmap, hdead⟩ := callbacks_of_instance hgot
    rw [hmap] at hsole
    have hempty := AsyncHandler.unRegisterCb_empty hsole
    rw [unRegisterCb, heq]
  · exact
      { resultCb := fun hne => absurd hempty hne
        deathCb := fun hne => h.deathCb fun h => hne
          ((AsyncHandler.deadCbs_unRegisterCb g).trans (hdead.symm.trans h))
        saClient := h.saClient }
  · exact
      { resultCb := fun hne => absurd hempty hne
        deathCb := fun hne => by
          obtain ⟨d, hdc, hcb⟩ := h.deathCb fun h => hne
            ((AsyncHandler.deadCbs_unRegisterCb g).trans (hdead.symm.trans h))
          rw [saClient_of_instance hc hdc] at hcb
          exact ⟨_, rfl, hcb⟩
        saClient := fun _ => Option.some_ne_none _ }

/-- A connected client has `SaClient`, so the dead callback's pointer is
set. -/
theorem registerDeadCb_keeps (h : CallbacksSet f) (hsome : f.saClient ≠ none) :
    CallbacksSet (f.registerDeadCb env sessionId cb).2 := by
  obtain ⟨-, heq⟩ | ⟨g, hgot, ⟨hnone, heq⟩ | ⟨c, hc, heq⟩⟩ := registerWith_cases f env
    sessionId (·.registerDeadCb sessionId cb) SaClient.registerSaDeathCb
  · rw [registerDeadCb, heq]
    exact h
  · exact absurd hnone hsome
  · obtain ⟨hmap, -⟩ := callbacks_of_instance hgot
    rw [registerDeadCb, heq]
    exact
      { resultCb := fun hne => by
          obtain ⟨d, hdc, hcb⟩ := h.resultCb fun h => hne
            ((AsyncHandler.mapCbMsg_registerDeadCb g).trans (hmap.symm.trans h))
          rw [saClient_of_instance hc hdc] at hcb
          exact ⟨_, rfl, hcb⟩
        deathCb := fun _ => ⟨_, rfl, rfl⟩
        saClient := fun _ => Option.some_ne_none _ }

theorem unRegisterDeadCb_keeps (h : CallbacksSet f)
    (hsole : ¬ OtherSession f.deadCbs sessionId) :
    CallbacksSet (f.unRegisterDeadCb env sessionId).2 := by
  obtain ⟨-, heq⟩ | ⟨g, hgot, ⟨hnone, heq⟩ | ⟨c, hc, heq⟩⟩ := unRegisterWith_cases f env
    (·.unRegisterDeadCb sessionId) SaClient.unRegisterSaDeathCb
  · rw [unRegisterDeadCb, heq]
    exact h
  all_goals
    obtain ⟨hmap, hdead⟩ := callbacks_of_instance hgot
    rw [hdead] at hsole
    have hempty := erase_eq_empty hsole
    rw [unRegisterDeadCb, heq]
  · exact
      { resultCb := fun hne => h.resultCb fun h => hne (hmap.symm.trans h)
        deathCb := fun hne => absurd hempty hne
        saClient := h.saClient }
  · exact
      { resultCb := fun hne => by
          obtain ⟨d, hdc, hcb⟩ := h.resultCb fun h => hne (hmap.symm.trans h)
          rw [saClient_of_instance hc hdc] at hcb
          exact ⟨_, rfl, hcb⟩
        deathCb := fun hne => absurd hempty hne
        saClient := fun _ => Option.some_ne_none _ }

end Callbacks

/-! ## Calls of the application

Each call is its connection part, which does not see the callbacks, and a
registration or its reverse. A call that fails halfway has to leave the
pointer to the sessions that are left. -/

section Calls

variable {σ : Type} {f : ClientFactory} {env : ClientEnv}
  {clientInfo : ClientInfo} {algorithmInfo : AlgorithmInfo} {cb : Option Nat}

theorem clientInit_keeps (h : CallbacksSet f) :
    CallbacksSet (f.clientInit env clientInfo algorithmInfo cb).2.2 := by
  unfold clientInit
  split
  · exact h
  · have hgen := h.same f.generateSessionId_same
    dsimp only
    have hadd := hgen.same (f.generateSessionId.2.addSessionInfo_same
      { clientInfo with sessionId := f.generateSessionId.1 } algorithmInfo)
    split
    · exact hadd.same (.of_connection (connect_connection ..))
    · next hok =>
        refine registerDeadCb_keeps
          (hadd.same (.of_connection (connect_connection ..))) ?_
        refine (hadd.same (.of_connection (connect_connection ..))).saClient ?_
        exact connect_connected (Decidable.of_not_not hok)

theorem saAsyncHandler_of_other {sessionId : Int32}
    (h : OtherSession f.mapCbMsg sessionId) :
    ∃ g, f.saAsyncHandler = some g ∧ f.mapCbMsg = g.mapCbMsg := by
  unfold mapCbMsg at h ⊢
  cases hg : f.saAsyncHandler with
  | none =>
      rw [hg] at h
      exact absurd h (not_otherSession_empty _)
  | some g => exact ⟨g, rfl, rfl⟩

variable {server : AiServer σ} {inputInfo outputInfo : DataInfo} {remote : σ}

/-- What `LoadAlgorithm` answers where it does not register a callback. -/
theorem loadAlgorithm_of_ready {c : SaClient} {g : AsyncHandler}
    (hc : f.saClient = some c) (hproxy : c.proxy = true)
    (hg : f.saAsyncHandler = some g)
    (hcard : algorithmInfo.isAsync → g.mapCbMsg.keys.card ≠ 1) :
    (f.loadAlgorithm env server clientInfo algorithmInfo inputInfo outputInfo
      remote).1 =
      (server.loadAlgorithm clientInfo algorithmInfo inputInfo outputInfo
        remote).1 := by
  have hasks : ¬ (algorithmInfo.isAsync ∧ g.mapCbMsg.keys.card = 1) :=
    fun h => hcard h.1 h.2
  have hinst : ClientFactory.saAsyncHandlerInstance
      { f with saClient := some c } env.newSaAsyncHandler = some g :=
    saAsyncHandlerInstance_of_some hg
  simp only [loadAlgorithm, saClientInstance_of_some hc, hinst, if_neg hasks,
    SaClient.loadAlgorithm, hproxy]
  rfl

/-- A prepare beside the callback of another session asks for no
registration: its load decides. -/
theorem prepare_loads {c : SaClient} (env : ClientEnv)
    (hc : f.saClient = some c) (hproxy : c.proxy = true)
    (hother : OtherSession f.mapCbMsg clientInfo.sessionId)
    (hcb : algorithmInfo.isAsync → cb ≠ none) :
    ((if algorithmInfo.isAsync then f.registerCb env clientInfo.sessionId cb
        else (Retcode.success, f)).2.loadAlgorithm env server clientInfo
      algorithmInfo inputInfo outputInfo remote).1 =
      (server.loadAlgorithm clientInfo algorithmInfo inputInfo outputInfo
        remote).1 := by
  obtain ⟨g, hg, hmap⟩ := saAsyncHandler_of_other hother
  split
  · next hasync =>
      obtain ⟨n, rfl⟩ := Option.ne_none_iff_exists'.mp (hcb hasync)
      obtain ⟨hnone, -⟩ | ⟨g', hgot, ⟨hnone, -⟩ | ⟨c', hc', heq⟩⟩ :=
        registerWith_cases f env clientInfo.sessionId
          (·.registerCb clientInfo.sessionId (some n))
          SaClient.registerSaClientCb
      · rw [saAsyncHandlerInstance_of_some hg] at hnone
        cases hnone
      · rw [hc] at hnone
        cases hnone
      · rw [saAsyncHandlerInstance_of_some hg, Option.some.injEq] at hgot
        rw [saClientInstance_of_some hc, Option.some.injEq] at hc'
        subst hgot hc'
        rw [registerCb, heq]
        refine loadAlgorithm_of_ready rfl hproxy rfl fun _ hone => ?_
        obtain ⟨k, hk, hne⟩ := hother
        rw [AsyncHandler.keys_registerCb] at hone
        rw [hmap] at hk
        exact hne (Finset.card_le_one.mp (Nat.le_of_eq hone) k
          (Finset.mem_insert_of_mem hk) _ (Finset.mem_insert_self ..))
  · next hsync => exact loadAlgorithm_of_ready hc hproxy hg fun h => absurd h hsync

/-- Registering the session's callback adds no other session. -/
theorem prepare_registers (env : ClientEnv) (algorithmInfo : AlgorithmInfo)
    (sessionId : Int32) (cb : Option Nat) (h : CallbacksSet f) :
    CallbacksSet (if algorithmInfo.isAsync then f.registerCb env sessionId cb
      else (Retcode.success, f)).2 ∧
    (OtherSession (if algorithmInfo.isAsync then f.registerCb env sessionId cb
      else (Retcode.success, f)).2.mapCbMsg sessionId →
      OtherSession f.mapCbMsg sessionId) := by
  split
  · refine ⟨registerCb_keeps h, fun hother => ?_⟩
    obtain ⟨-, heq⟩ | ⟨g, hgot, ⟨hnone, heq⟩ | ⟨c, hc, heq⟩⟩ := registerWith_cases
      f env sessionId (·.registerCb sessionId cb) SaClient.registerSaClientCb
    · rw [registerCb, heq] at hother
      exact hother
    · rw [registerCb, heq] at hother
      have hkept := AsyncHandler.other_unRegisterCb hother
      rw [(callbacks_of_instance hgot).1]
      exact AsyncHandler.other_registerCb hkept
    · rw [registerCb, heq] at hother
      rw [(callbacks_of_instance hgot).1]
      exact AsyncHandler.other_registerCb hother
  · exact ⟨h, id⟩

theorem clientPrepare_keeps (h : CallbacksSet f)
    (hload : clientInfo.sessionId ≠ invalidSessionId →
      (algorithmInfo.isAsync → cb ≠ none) →
      OtherSession f.mapCbMsg clientInfo.sessionId →
      (∃ c, f.saClient = some c ∧ c.proxy = true) ∧
        (server.loadAlgorithm clientInfo algorithmInfo inputInfo outputInfo
          remote).1 = Retcode.success) :
    CallbacksSet (f.clientPrepare env server clientInfo algorithmInfo inputInfo
      outputInfo cb remote).2.2.1 := by
  unfold clientPrepare
  split
  · exact h
  · next hvalid =>
      split
      · exact h
      · next hnull =>
          have hcb : algorithmInfo.isAsync → cb ≠ none :=
            fun hasync hnone => hnull ⟨hasync, hnone⟩
          have hloads (hother : OtherSession f.mapCbMsg clientInfo.sessionId) :
              ((if algorithmInfo.isAsync then
                f.registerCb env clientInfo.sessionId cb
                else (Retcode.success, f)).2.loadAlgorithm env server clientInfo
                algorithmInfo inputInfo outputInfo remote).1 =
                  Retcode.success := by
            obtain ⟨⟨c, hc, hproxy⟩, hok⟩ := hload hvalid hcb hother
            exact (prepare_loads env hc hproxy hother hcb).trans hok
          have hreg := prepare_registers env algorithmInfo clientInfo.sessionId cb h
          generalize (if algorithmInfo.isAsync then
            f.registerCb env clientInfo.sessionId cb
            else (Retcode.success, f)) = r at hreg hloads
          obtain ⟨retCode, g⟩ := r
          obtain ⟨hset, hless⟩ := hreg
          have hsame := SameCallbacks.of_got (g.loadAlgorithm_got env server
            clientInfo algorithmInfo inputInfo outputInfo remote)
          dsimp only
          split
          · exact hset
          · split
            · next hfail =>
                refine unRegisterCb_keeps (hset.same hsame) fun hother => ?_
                rw [hsame.mapCbMsg] at hother
                exact hfail (hloads (hless hother))
            · exact hset.same hsame

theorem clientRelease_keeps (h : CallbacksSet f)
    (hsole : clientInfo.sessionId ≠ invalidSessionId → algorithmInfo.isAsync →
      ¬ OtherSession f.mapCbMsg clientInfo.sessionId) :
    CallbacksSet (f.clientRelease env server clientInfo algorithmInfo inputInfo
      remote).2.1 := by
  unfold clientRelease
  split
  · exact h
  · next hvalid =>
      have hset : CallbacksSet
          (if algorithmInfo.isAsync then
            f.unRegisterCb env clientInfo.sessionId
          else (Retcode.success, f)).2 := by
        split
        · next hasync => exact unRegisterCb_keeps h (hsole hvalid hasync)
        · exact h
      generalize (if algorithmInfo.isAsync then
        f.unRegisterCb env clientInfo.sessionId
        else (Retcode.success, f)) = r at hset
      dsimp only
      split
      · exact hset
      · exact hset.same (.of_got (r.2.unLoadAlgorithm_got ..))

/-- What it takes to close the connection: a thread, whose worker gives up
the client id on its way out. -/
def Closable (f : ClientFactory) (env : ClientEnv) : Prop :=
  (f.hasThreadPool || env.newThreadPool) ∧
    ∃ w ∈ f.connectMgr, w.running ∨ f.clientId = invalidClientId

instance (f : ClientFactory) (env : ClientEnv) : Decidable (Closable f env) :=
  inferInstanceAs (Decidable (_ ∧ _))

theorem closable_of_disconnect (f : ClientFactory) (env : ClientEnv)
    (hlast : f.sessionInfos.keys.card = 0)
    (h : (f.disconnect env).1 = Retcode.success) : Closable f env := by
  unfold disconnect at h
  rw [if_pos hlast] at h
  dsimp only at h
  split at h
  · next hne => exact absurd h hne
  · next hok =>
      obtain ⟨hpool, w, hw, hid⟩ :=
        closeAiServer_success (Decidable.of_not_not hok)
      refine ⟨hpool, w, hw, ?_⟩
      split at h
      · cases h
      · next hreset =>
          by_cases hrun : w.running
          · exact .inl hrun
          · rw [if_neg hrun] at hid
            exact .inr (hid.symm.trans (Decidable.of_not_not hreset))

theorem clientDestroy_keeps (h : CallbacksSet f)
    (hsole : clientInfo.sessionId ≠ invalidSessionId →
      clientInfo.sessionId ∈ f.sessionInfos →
      ((f.sessionInfos.erase clientInfo.sessionId).keys.card = 0 →
        Closable f env) →
      ¬ OtherSession f.deadCbs clientInfo.sessionId) :
    CallbacksSet (f.clientDestroy env clientInfo).2.2 := by
  unfold clientDestroy
  split
  · exact h
  · next hvalid =>
      unfold eraseSessionInfo
      by_cases hmem : clientInfo.sessionId ∈ f.sessionInfos
      · have hsame : SameCallbacks f { f with
            sessionInfos := f.sessionInfos.erase clientInfo.sessionId } :=
          .of_eq rfl rfl (.inl rfl)
        have hclose := closable_of_disconnect
          { f with sessionInfos := f.sessionInfos.erase clientInfo.sessionId } env
        have hdis := hsame.trans (.of_connection (disconnect_connection _ env))
        rw [if_pos hmem]
        dsimp only
        split
        · exact h.same hsame
        · split
          · exact h.same hdis
          · next hok =>
              refine unRegisterDeadCb_keeps (h.same hdis) ?_
              rw [hdis.deadCbs]
              exact hsole hvalid hmem fun hlast =>
                hclose hlast (Decidable.of_not_not hok)
      · rw [if_neg hmem]
        exact h

end Calls

/-- What the sessions count on: the pointers are set, a result for a session
is given to its callback, and the server's death is told to all callbacks for
it. -/
structure CallbacksKept (f : ClientFactory) : Prop where
  resultCb : f.mapCbMsg ≠ ∅ → f.HasResultCb
  deathCb : f.deadCbs ≠ ∅ → f.HasDeathCb
  delivered : ∀ sessionId cb, f.mapCbMsg.lookup sessionId = some cb →
    f.asyncCallback sessionId = some cb
  told : f.deadCbs ≠ ∅ → f.onAiDead.1 = f.deadCbs

theorem CallbacksSet.kept {f : ClientFactory} (h : CallbacksSet f) :
    CallbacksKept f where
  resultCb := h.resultCb
  deathCb := h.deathCb
  delivered := fun sessionId cb hcb => by
    have hne : f.mapCbMsg ≠ ∅ := by
      intro hempty
      rw [hempty, Finmap.lookup_empty] at hcb
      cases hcb
    obtain ⟨c, hc, hset⟩ := h.resultCb hne
    simp only [asyncCallback, hc, hset, if_true]
    exact hcb
  told := fun hne => by
    obtain ⟨c, hc, hset⟩ := h.deathCb hne
    simp only [onAiDead, hc, hset, if_true]

end ClientFactory

section Runs

variable {σ : Type} {s : ClientSystem σ}

/-- The steps that take no pointer from another session. Beside the callback
of another session, a prepare gets through to the server and the load
succeeds, and no asynchronous session is released; beside another session's
callback for the server's death, no session is destroyed. -/
def sparesCallbacks (s : ClientSystem σ) : ClientStep σ → Prop
  | .clientPrepare _ server i algorithmInfo inputInfo outputInfo cb =>
      (s.info i).sessionId ≠ invalidSessionId →
      (algorithmInfo.isAsync → cb ≠ none) →
      OtherSession s.client.mapCbMsg (s.info i).sessionId →
      (∃ c ∈ s.client.saClient, c.proxy = true) ∧
        (server.loadAlgorithm (s.info i) algorithmInfo inputInfo outputInfo
          s.remote).1 = Retcode.success
  | .clientRelease _ _ i algorithmInfo _ =>
      (s.info i).sessionId ≠ invalidSessionId → algorithmInfo.isAsync →
      ¬ OtherSession s.client.mapCbMsg (s.info i).sessionId
  | .clientDestroy env i =>
      (s.info i).sessionId ≠ invalidSessionId →
      (s.info i).sessionId ∈ s.client.sessionInfos →
      ((s.client.sessionInfos.erase (s.info i).sessionId).keys.card = 0 →
        s.client.Closable env) →
      ¬ OtherSession s.client.deadCbs (s.info i).sessionId
  | _ => True

instance (s : ClientSystem σ) (i : ClientStep σ) :
    Decidable (sparesCallbacks s i) := by
  unfold sparesCallbacks
  split <;> infer_instance

theorem take_callbacksSet (h : s.client.CallbacksSet) {i : ClientStep σ}
    (hok : sparesCallbacks s i) : (s.take i).client.CallbacksSet := by
  cases i with
  | clientInit env i algorithmInfo cb => exact ClientFactory.clientInit_keeps h
  | clientPrepare env server i algorithmInfo inputInfo outputInfo cb =>
      exact ClientFactory.clientPrepare_keeps h hok
  | clientRelease env server i algorithmInfo inputInfo =>
      exact ClientFactory.clientRelease_keeps h hok
  | clientDestroy env i => exact ClientFactory.clientDestroy_keeps h hok
  | oneAction reply => exact h.same (.of_connection (s.client.runWorker_connection reply))
  | onAiDead => exact h.same s.client.onAiDead_same

theorem reach_callbacksSet (hs : (clientMachine σ).Reach sparesCallbacks s) :
    s.client.CallbacksSet := by
  refine @Machine.Reach.invariant _ _ _ _ (·.client.CallbacksSet) ?_ ?_ s hs
  · rintro s ⟨hclient, -⟩
    rw [hclient]
    exact .initial
  · intro s i s' h hok hstep
    cases hstep
    exact take_callbacksSet h hok

/-- Where no step takes a pointer from another session, each session keeps
what it counts on. -/
theorem reach_callbacksKept (hs : (clientMachine σ).Reach sparesCallbacks s) :
    s.client.CallbacksKept :=
  (reach_callbacksSet hs).kept

end Runs

/-- Two sessions with callbacks, the first asynchronous, the second prepared
with the server's answer. -/
def clientPrepared (retCode : Int) : List (ClientStep Unit) :=
  [.clientInit .connecting 0 AlgorithmInfo.zero (some 0),
    .clientPrepare .connecting (answering Retcode.success) 0
      { AlgorithmInfo.zero with isAsync := true } ⟨.null, 0⟩ ⟨.null, 0⟩
      (some 0),
    .clientInit .connecting 1 AlgorithmInfo.zero none,
    .clientPrepare .connecting (answering retCode) 1 AlgorithmInfo.zero
      ⟨.null, 0⟩ ⟨.null, 0⟩ none]

theorem reach_callbacksKept_sample : ∃ s,
    (clientMachine Unit).run sparesCallbacks clientStart
      (clientPrepared Retcode.success) = some s ∧ s.client.CallbacksKept := by
  have hrun : ((clientMachine Unit).run sparesCallbacks clientStart
      (clientPrepared Retcode.success)).isSome := by decide
  obtain ⟨s, hs⟩ := Option.isSome_iff_exists.mp hrun
  exact ⟨s, hs, reach_callbacksKept (.of_run (.start clientStart_start) hs)⟩

/-- The second session's load fails, and the results of the first are thrown
away. -/
theorem clientPrepared_not_callbacksKept : ∃ s,
    (clientMachine Unit).Reach Machine.anyStep s ∧
      ¬ s.client.CallbacksKept := by
  have hrun : ((clientMachine Unit).run Machine.anyStep clientStart
      (clientPrepared Retcode.failure)).map
      (fun s => (s.client.mapCbMsg.lookup 1, s.client.asyncCallback 1)) =
      some (some 0, none) := by decide
  obtain ⟨s, hs, heq⟩ := Option.map_eq_some_iff.mp hrun
  obtain ⟨hcb, hlost⟩ := Prod.mk.inj heq
  refine ⟨s, .of_run (.start clientStart_start) hs, fun h => ?_⟩
  rw [h.delivered 1 0 hcb] at hlost
  cases hlost

end AiEngine.Ref
