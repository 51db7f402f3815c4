import AiEngine.Proofs.StartFailures
import AiEngine.Proofs.UnloadSteps

/-!
# What a failed load or unload leaves behind

A transaction is known in four places: the engine manager and the client's
adapter, and, if it is an asynchronous one, the factory's listeners and the
async handler. Loading fills them in that order and does not take back the
first two if the others cannot be filled. Unloading empties the last two
first, and then asks the plugin, which may refuse.
-/

namespace AiEngine.Ref

open AiEngine.Lib

/-- What a run keeps of the server. -/
structure ServerKept (s : Server) : Prop where
  handled : Handled s
  managed : s.Managed

namespace ServerKept

variable {s : Server}

theorem startEngine (h : ServerKept s) (env : Env) (tid : Int64)
    (algoInfo : AlgorithmInfo) (input output : DataInfo) :
    ServerKept (s.startEngine env tid algoInfo input output).2.2 := by
  refine ⟨h.handled.startEngine env tid algoInfo input output, ?_⟩
  have hr := Server.startEngine_started h.handled env tid algoInfo input output
  by_cases hok : (s.startEngine env tid algoInfo input output).1 =
      Retcode.success
  · obtain ⟨e, -, hcounts⟩ := hr.success hok
    exact hcounts.managed h.managed
  · exact (hr.failure hok).2.managed h.managed

theorem stopEngine (h : ServerKept s) (env : Env) (tid : Int64)
    (input : DataInfo) : ServerKept (s.stopEngine env tid input).server := by
  refine ⟨h.handled.stopEngine env tid input, ?_⟩
  rcases s.stopEngine_cases env tid input h.managed with
    ⟨-, hserver, -⟩ | ⟨e, x, -, -, -, -, hstopped⟩
  · rw [hserver]
    exact h.managed
  · exact hstopped.recounted.managed h.managed

theorem stopEngines (h : ServerKept s) (env : Env) (tids : List Int64) :
    ServerKept (Service.stopEngines s env tids) := by
  induction tids generalizing s with
  | nil => exact h
  | cons tid tids ih => exact ih (h.stopEngine env tid _)

theorem of_untouched {t t' : Service} (h : ServerKept t.server)
    (hsame : Untouched t t') : ServerKept t'.server := by
  obtain ⟨pools, hpools⟩ := hsame.server
  rw [hpools]
  exact ⟨h.handled.withPools pools, h.managed⟩

theorem getExecutor {t t' : Service} (h : ServerKept t.server)
    {alloc has : Bool} (hexec : t.getExecutor alloc = (has, t')) :
    ServerKept t'.server := h.of_untouched (Untouched.getExecutor hexec)

theorem loadAlgo {t : Service} (h : ServerKept t.server) (env : ServiceEnv)
    (clientInfo : ClientInfo) (algoInfo : AlgorithmInfo)
    (input output : DataInfo) :
    ServerKept
      (t.loadAlgo env clientInfo algoInfo input output).2.2.server := by
  unfold Service.loadAlgo
  split
  · exact h
  · next adapter _ =>
      dsimp only
      split
      · next t' hexec => exact h.getExecutor hexec
      · next t' hexec =>
        have hstart := (h.getExecutor hexec).startEngine env.engines
          (getTransactionId adapter.adapterId clientInfo.sessionId) algoInfo
          input output
        split
        · exact hstart
        · split
          · exact hstart
          · split <;> exact hstart

theorem unloadAlgo {t : Service} (h : ServerKept t.server) (env : ServiceEnv)
    (clientInfo : ClientInfo) (algoInfo : AlgorithmInfo) (input : DataInfo) :
    ServerKept (t.unloadAlgo env clientInfo algoInfo input).2.server := by
  cases hfind : t.findAdapter clientInfo.clientId with
  | none =>
      rw [Service.unloadAlgo_none hfind]
      exact h
  | some a =>
      rw [Service.unloadAlgo_some hfind]
      generalize htid : getTransactionId a.adapterId clientInfo.sessionId = tid
      have hstopped : ServerKept (t.stopCallbacks env algoInfo tid).server := by
        rcases t.stopCallbacks_cases env algoInfo tid with
          hsame | ⟨asyncHandler, -, hstopped⟩
        · rw [hsame]
          exact h
        · rw [hstopped]
          exact h
      unfold Service.endUnload
      split
      · next t' hexec => exact hstopped.getExecutor hexec
      · next t' hexec =>
          rw [htid]
          have hstop := (hstopped.getExecutor hexec).stopEngine env.engines tid
            input
          dsimp only
          split <;> exact hstop

theorem generateClient {t : Service} (h : ServerKept t.server)
    (env : ServiceEnv) : ServerKept (t.generateClient env).2.server := by
  unfold Service.generateClient
  have hfind : t.findValidClientId.2.server = t.server := by
    unfold Service.findValidClientId
    split <;> rfl
  dsimp only
  split
  · exact hfind ▸ h
  · split <;> exact hfind ▸ h

theorem removeAdapter {t : Service} (h : ServerKept t.server)
    (env : ServiceEnv) (clientId : Int32) :
    ServerKept (t.removeAdapter env clientId).2.server := by
  unfold Service.removeAdapter
  split
  · exact h
  · split
    · next t' hexec =>
        have hexecutor := h.getExecutor hexec
        exact hexecutor
    · next t' hexec => exact (h.getExecutor hexec).stopEngines env.engines _

theorem take {t : Service} (h : ServerKept t.server) (i : ServiceStep) :
    ServerKept (t.take i).server := by
  cases i with
  | generateClient env => exact h.generateClient env
  | removeAdapter env clientId => exact h.removeAdapter env clientId
  | loadAlgo env clientInfo algoInfo input output =>
      exact h.loadAlgo env clientInfo algoInfo input output
  | unloadAlgo env clientInfo algoInfo input =>
      exact h.unloadAlgo env clientInfo algoInfo input
  | registerCallback env clientId =>
      exact h.of_untouched (.registerCallback env clientId)
  | unregisterCallback env clientId =>
      exact h.of_untouched (.unregisterCallback env clientId)
  | execAlgo kind env clientInfo algoInfo input =>
      exact h.of_untouched (.execAlgo kind env clientInfo algoInfo input)
  | popFront queue => exact h.of_untouched (.popFront queue)
  | deleteFuture sequenceId => exact h.of_untouched (.deleteFuture sequenceId)

end ServerKept

theorem reach_serverKept {s : Service}
    (hs : serviceMachine.Reach Machine.anyStep s) : ServerKept s.server := by
  induction hs with
  | start hs =>
      cases hs
      exact ⟨initial_handled, fun e x hx => by cases hx⟩
  | step _ _ hstep ih =>
      cases hstep
      exact ih.take _

/-- What is known of a transaction: its engine, whether its client's adapter
has it, its listener, and whether it was started for callbacks. -/
structure TransactionState where
  engine : Option Nat
  saved : Bool
  listener : Option Nat
  started : Bool
  deriving DecidableEq

namespace Service

def transactionState (s : Service) (clientId : Int32) (tid : Int64) :
    TransactionState where
  engine := s.server.findEngine tid
  saved := (s.findAdapter clientId).any fun adapter =>
    tid ∈ adapter.transactionIds
  listener := s.factory.findListener tid
  started := decide (tid ∈ s.asyncHandler.transactions)

/-- A load or an unload request. -/
inductive TransactionCall where
  | loadAlgo (algoInfo : AlgorithmInfo) (inputInfo outputInfo : DataInfo)
  | unloadAlgo (algoInfo : AlgorithmInfo) (inputInfo : DataInfo)

/-- What serving a request returns, and leaves. -/
def serve (s : Service) (env : ServiceEnv) (clientInfo : ClientInfo) :
    TransactionCall → Int × Service
  | .loadAlgo algoInfo inputInfo outputInfo =>
      let r := s.loadAlgo env clientInfo algoInfo inputInfo outputInfo
      (r.1, r.2.2)
  | .unloadAlgo algoInfo inputInfo =>
      s.unloadAlgo env clientInfo algoInfo inputInfo

/-- A request that fails leaves every transaction of its client as it was. -/
def AllOrNothing (s : Service) (env : ServiceEnv) (clientInfo : ClientInfo)
    (call : TransactionCall) : Prop :=
  (s.serve env clientInfo call).1 ≠ Retcode.success → ∀ tid,
    (s.serve env clientInfo call).2.transactionState clientInfo.clientId tid =
      s.transactionState clientInfo.clientId tid

end Service

/-- Whether `StartEngine` succeeds. -/
def Server.starts (s : Server) (env : Env) (tid : Int64)
    (algoInfo : AlgorithmInfo) (input output : DataInfo) : Prop :=
  let aid := getAlgorithmIdByType algoInfo.algorithmType
  let key : EngineKey := ⟨aid, algoInfo.algorithmVersion⟩
  aid ≠ algorithmIdInvalid ∧
    (s.engines.lookup key ≠ none ∨ s.canCreate env key) ∧
    (env.prepare tid input output).1 = Retcode.success

/-- Whether `StopEngine` succeeds. -/
def Server.stops (s : Server) (env : Env) (tid : Int64) (input : DataInfo) :
    Prop :=
  ∃ e x, s.findEngine tid = some e ∧ s.engine.lookup e = some x ∧
    env.release (x.refCount == pluginNumForUnload) tid input =
      Retcode.success

/-- What a start that succeeds does to the transaction. -/
structure StartedWith (s s' : Server) (tid : Int64) (key : EngineKey) :
    Prop where
  filed : ∀ e, s.engines.lookup key = some e → s'.findEngine tid = some e
  made : s.engines.lookup key = none → s'.findEngine tid = some s.engineNum

theorem startEngine_spec {s : Server} (h : Handled s) (env : Env) (tid : Int64)
    (algoInfo : AlgorithmInfo) (input output : DataInfo) :
    ((s.startEngine env tid algoInfo input output).1 = Retcode.success ↔
      s.starts env tid algoInfo input output) ∧
    ((s.startEngine env tid algoInfo input output).1 = Retcode.success →
      StartedWith s (s.startEngine env tid algoInfo input output).2.2 tid
        ⟨getAlgorithmIdByType algoInfo.algorithmType,
          algoInfo.algorithmVersion⟩) := by
  have hinvalid : Retcode.algorithmIdInvalid ≠ Retcode.success := by decide
  unfold Server.startEngine Server.starts
  dsimp only
  by_cases haid : getAlgorithmIdByType algoInfo.algorithmType =
      algorithmIdInvalid
  · rw [if_pos haid]
    exact ⟨iff_of_false hinvalid fun hs => hs.1 haid,
      fun hok => absurd hok hinvalid⟩
  rw [if_neg haid]
  generalize (⟨getAlgorithmIdByType algoInfo.algorithmType,
    algoInfo.algorithmVersion⟩ : EngineKey) = key
  have hfound {t : Server} {e : Nat} {x : Engine}
      (hx : t.engine.lookup e = some x)
      (hok : (t.prepareEngine env tid e input output).1 = Retcode.success) :
      (t.prepareEngine env tid e input output).2.2.findEngine tid = some e := by
    rw [Server.findEngine, (Server.prepareEngine_recorded hx hok).clientEngines,
      Table.lookup_insert_if, if_pos rfl]
  cases hkey : s.engines.lookup key with
  | some e =>
      have hfind : s.findEngineByKey key = some e := hkey
      obtain ⟨x, hx, -⟩ := h.engines key e hkey
      simp only [hfind]
      refine ⟨?_, fun hok => ⟨fun e' he' => ?_, fun hnone => ?_⟩⟩
      · rw [Server.prepareEngine_retCode hx]
        exact ⟨fun hok => ⟨haid, .inl (Option.some_ne_none e), hok⟩,
          fun hs => hs.2.2⟩
      · cases hkey.symm.trans he'
        exact hfound hx hok
      · cases hkey.symm.trans hnone
  | none =>
      have hfind : s.findEngineByKey key = none := hkey
      simp only [hfind, Server.createEngineWithCheck]
      have hr := s.createEngine_created env key
      generalize s.createEngine env key = r at hr ⊢
      obtain ⟨ret, _ | e, s'⟩ := r
      · have hfail : ret ≠ Retcode.success := (hr.none rfl).1
        refine ⟨iff_of_false hfail fun hs => ?_, fun hok => absurd hok hfail⟩
        rcases hs.2.1 with hne | hcan
        · exact hne rfl
        · exact hfail (hr.success.mpr hcan)
      · by_cases hret : ret = Retcode.success
        · subst hret
          obtain ⟨hnum, -, -, x, hx, -⟩ := hr.some e rfl
          have hretCode := Server.prepareEngine_retCode
            (s := { s' with engines := s'.engines.insert key e }) hx env tid
            input output
          simp only [ne_eq, not_true_eq_false, if_false]
          refine ⟨?_, fun hok => ⟨fun e' he' => ?_, fun _ => ?_⟩⟩
          · rw [hretCode]
            exact ⟨fun hok => ⟨haid, .inr (hr.success.mp rfl), hok⟩,
              fun hs => hs.2.2⟩
          · cases hkey.symm.trans he'
          · rw [← hnum]
            exact hfound
              (t := { s' with engines := s'.engines.insert key e }) hx hok
        · simp only [ne_eq, hret, not_false_eq_true, if_true]
          refine ⟨iff_of_false id fun hs => ?_, False.elim⟩
          rcases hs.2.1 with hne | hcan
          · exact hne trivial
          · exact hret (hr.success.mpr hcan)

namespace Service

variable {s : Service} {env : ServiceEnv} {clientInfo : ClientInfo}
  {algoInfo : AlgorithmInfo} {input output : DataInfo} {a : SaServerAdapter}

/-! ## Loading

A load that has started an engine and cannot listen does not stop it again.
Every other failure leaves the four places alone. -/

/-- The session has been loaded before, with the same algorithm. -/
def alreadyLoaded (s : Service) (a : SaServerAdapter) (tid : Int64)
    (algoInfo : AlgorithmInfo) : Prop :=
  tid ∈ a.transactionIds ∧ ∃ e, s.server.findEngine tid = some e ∧
    s.server.engines.lookup ⟨getAlgorithmIdByType algoInfo.algorithmType,
      algoInfo.algorithmVersion⟩ = some e

/-- Whether a started session gets its listener. -/
def canListen (s : Service) (env : CallbackEnv) (tid : Int64) : Prop :=
  (s.asyncHandler.hasInstance = true ∨ env.newSaAsyncHandler = true) ∧
    (tid ∈ s.asyncHandler.transactions ∨ env.newListener = true)

/-- Whether a request that fails will leave no trace. A load that fails must
fail before the engine is started, or find the session loaded; an unload that
stops the callbacks must succeed. -/
def servesWhole (s : Service) (env : ServiceEnv) (clientInfo : ClientInfo) :
    TransactionCall → Prop
  | .loadAlgo algoInfo inputInfo outputInfo => ∀ a,
      s.findAdapter clientInfo.clientId = some a →
      let tid := getTransactionId a.adapterId clientInfo.sessionId
      s.hasExecutorIn env → algoInfo.isAsync = true →
      s.server.starts env.engines tid algoInfo inputInfo outputInfo →
        s.canListen env.callbacks tid ∨ s.alreadyLoaded a tid algoInfo
  | .unloadAlgo algoInfo inputInfo => ∀ a,
      s.findAdapter clientInfo.clientId = some a →
      let tid := getTransactionId a.adapterId clientInfo.sessionId
      algoInfo.isAsync = true →
      s.asyncHandler.hasInstance = true ∨
        env.callbacks.newSaAsyncHandler = true →
      tid ∈ s.asyncHandler.transactions →
        s.hasExecutorIn env ∧ s.server.stops env.engines tid inputInfo

/-- After a start, the two places filled first are as before exactly where
the session was loaded with the same algorithm already. -/
theorem started_iff (h : Handled s.server) {clientId : Int32}
    (hfind : s.findAdapter clientId = some a) {tid : Int64} {env : Env}
    (hok : (s.server.startEngine env tid algoInfo input output).1 =
      Retcode.success) :
    (∀ t, (s.server.startEngine env tid algoInfo input output).2.2.findEngine t
        = s.server.findEngine t ∧
      (((s.adapters.insert clientId (saveTransaction a tid)).lookup
        clientId).any fun a' => t ∈ a'.transactionIds) =
        (s.findAdapter clientId).any fun a' => t ∈ a'.transactionIds) ↔
      s.alreadyLoaded a tid algoInfo := by
  have hstarted := (startEngine_spec h env tid algoInfo input output).2 hok
  have hsaved : tid ∈ (saveTransaction a tid).transactionIds := by
    unfold saveTransaction
    split
    · assumption
    · exact (List.mem_orderedInsert ..).mpr (.inl rfl)
  simp only [hfind, Table.lookup_insert_if, if_true, Option.any_some,
    decide_eq_decide]
  constructor
  · intro hsame
    obtain ⟨hengine, hin⟩ := hsame tid
    refine ⟨hin.mp hsaved, ?_⟩
    cases hkey : s.server.engines.lookup
        ⟨getAlgorithmIdByType algoInfo.algorithmType,
          algoInfo.algorithmVersion⟩ with
    | some e => exact ⟨e, hengine ▸ hstarted.filed e hkey, rfl⟩
    | none =>
        have hnew : s.server.findEngine tid = some s.server.engineNum :=
          hengine ▸ hstarted.made hkey
        obtain ⟨x, hx, -⟩ := h.clients tid _ hnew
        cases (h.fresh _ (Nat.le_refl _)).symm.trans hx
  · rintro ⟨hin, e, he, hkey⟩ t
    refine ⟨?_, ?_⟩
    · by_cases ht : t = tid
      · rw [ht, he, hstarted.filed e hkey]
      · exact Server.startEngine_findEngine h ht
    · rw [saveTransaction, if_pos hin]

theorem startAsyncTransaction_cases (h : SaAsyncHandler) (f : FutureFactory)
    (env : CallbackEnv) (tid : Int64) (clientId : Int32) :
    ((tid ∈ h.transactions ∨ env.newListener = true) ∧
      (h.startAsyncTransaction f env tid clientId).1 = Retcode.success) ∨
    (¬ (tid ∈ h.transactions ∨ env.newListener = true) ∧
      h.startAsyncTransaction f env tid clientId =
        (Retcode.outOfMemory, h, f)) := by
  unfold SaAsyncHandler.startAsyncTransaction
  by_cases hin : tid ∈ h.transactions
  · rw [if_pos hin]
    exact .inl ⟨.inl hin, rfl⟩
  · rw [if_neg hin]
    by_cases hnew : env.newListener = true
    · rw [if_neg (not_not.mpr hnew)]
      refine .inl ⟨.inr hnew, ?_⟩
      dsimp only
      split <;> rfl
    · rw [if_pos hnew]
      exact .inr ⟨fun hor => hor.elim hin hnew, rfl⟩

theorem asyncInstance_has {h h' : SaAsyncHandler} {alloc has : Bool}
    (hinst : h.getInstance alloc = (has, h')) :
    has = true ↔ h.hasInstance = true ∨ alloc = true := by
  unfold SaAsyncHandler.getInstance at hinst
  split at hinst
  · next hi =>
      cases hinst
      simp [hi]
  · next hi =>
      cases hinst
      simp [hi]

/-- A load is all or nothing exactly where it is served whole. -/
theorem loadAlgo_allOrNothing_iff (h : Handled s.server) :
    s.AllOrNothing env clientInfo (.loadAlgo algoInfo input output) ↔
      s.servesWhole env clientInfo (.loadAlgo algoInfo input output) := by
  unfold AllOrNothing servesWhole serve loadAlgo
  cases hfind : s.findAdapter clientInfo.clientId with
  | none =>
      exact iff_of_true (fun _ _ => rfl) fun a ha => by cases ha
  | some a =>
  simp only [Option.some.injEq, forall_eq']
  generalize getTransactionId a.adapterId clientInfo.sessionId = tid
  obtain ⟨has, s', hexec⟩ : ∃ has s', s.getExecutor env.newServerExecutor =
    (has, s') := ⟨_, _, rfl⟩
  rw [hexec]
  obtain ⟨rfl, hhas⟩ := getExecutor_eq hexec
  cases has with
  | false =>
      refine iff_of_true (fun _ _ => rfl) fun hin => ?_
      cases hhas.mpr hin
  | true =>
  have hspec := startEngine_spec h env.engines tid algoInfo input output
  dsimp only
  by_cases hok : (s.server.startEngine env.engines tid algoInfo input
      output).1 = Retcode.success
  · rw [if_neg (not_not.mpr hok)]
    have hexecutor : s.hasExecutorIn env := hhas.mp rfl
    have hstarts := hspec.1.mp hok
    by_cases hasync : algoInfo.isAsync = true
    swap
    · rw [if_pos hasync]
      exact iff_of_true (fun hfail => absurd hok hfail) fun _ h => absurd h hasync
    rw [if_neg (not_not.mpr hasync)]
    have hsame := started_iff h hfind hok
    simp only [hexecutor, hasync, hstarts, forall_const]
    -- What is left to do is the callbacks' part.
    have hstuck (handler : SaAsyncHandler)
        (hh : handler.transactions = s.asyncHandler.transactions)
        (hno : ¬ s.canListen env.callbacks tid) :
        (∀ t, transactionState
            { s with
              hasExecutor := true
              server := (s.server.startEngine env.engines tid algoInfo input
                output).2.2
              asyncHandler := handler
              adapters := s.adapters.insert clientInfo.clientId
                (saveTransaction a tid) } clientInfo.clientId t =
            s.transactionState clientInfo.clientId t) ↔
          s.canListen env.callbacks tid ∨ s.alreadyLoaded a tid algoInfo := by
      rw [or_iff_right hno, ← hsame]
      refine forall_congr' fun t => ?_
      simp [transactionState, findAdapter, hh]
    obtain ⟨has', h', hinst⟩ : ∃ has' h', s.asyncHandler.getInstance
      env.callbacks.newSaAsyncHandler = (has', h') := ⟨_, _, rfl⟩
    rw [hinst]
    have hhandler := asyncInstance_has hinst
    cases has' with
    | false =>
        have hnull : Retcode.nullParam ≠ Retcode.success := by decide
        have hno : ¬ s.canListen env.callbacks tid := fun hc => by
          cases hhandler.mpr hc.1
        simp only [ne_eq, hnull, not_false_eq_true, forall_const]
        exact hstuck s.asyncHandler rfl hno
    | true =>
        have htransactions := AsyncKept.getInstance_transactions hinst
        dsimp only
        rcases startAsyncTransaction_cases h' s.factory env.callbacks tid
          clientInfo.clientId with ⟨hlisten, hret⟩ | ⟨hno, hret⟩
        · refine iff_of_true (fun hfail => absurd hret hfail) ?_
          exact .inl ⟨hhandler.mp rfl, htransactions ▸ hlisten⟩
        · have hmemory : Retcode.outOfMemory ≠ Retcode.success := by decide
          rw [hret]
          simp only [ne_eq, hmemory, not_false_eq_true, forall_const]
          refine hstuck h' htransactions fun hc => hno ?_
          rw [htransactions]
          exact hc.2
  · rw [if_pos hok]
    refine iff_of_true (fun _ t => ?_) fun _ _ hs => absurd (hspec.1.mpr hs) hok
    simp only [transactionState,
      Server.startEngine_findEngine_fail h hok]
    rfl

/-- Whether an unload has callbacks to stop. -/
def hasCallbacks (s : Service) (env : ServiceEnv) (algoInfo : AlgorithmInfo)
    (tid : Int64) : Prop :=
  algoInfo.isAsync = true ∧
    (s.asyncHandler.hasInstance = true ∨
      env.callbacks.newSaAsyncHandler = true) ∧
    tid ∈ s.asyncHandler.transactions

/-- Stopping the callbacks leaves the engine and the client alone, and shows
exactly where there was something to stop. -/
theorem stopCallbacks_spec (s : Service) (env : ServiceEnv)
    (algoInfo : AlgorithmInfo) (tid : Int64) (clientId : Int32) :
    (s.stopCallbacks env algoInfo tid).server = s.server ∧
      (s.stopCallbacks env algoInfo tid).adapters = s.adapters ∧
      (s.stopCallbacks env algoInfo tid).hasExecutor = s.hasExecutor ∧
      ((∀ t, (s.stopCallbacks env algoInfo tid).transactionState clientId t =
        s.transactionState clientId t) ↔ ¬ s.hasCallbacks env algoInfo tid) := by
  unfold stopCallbacks hasCallbacks
  by_cases hasync : algoInfo.isAsync = true
  swap
  · rw [if_neg hasync]
    exact ⟨rfl, rfl, rfl,
      iff_of_true (fun _ => rfl) fun h => absurd h.1 hasync⟩
  rw [if_pos hasync]
  obtain ⟨has, h', hinst⟩ : ∃ has h', s.asyncHandler.getInstance
    env.callbacks.newSaAsyncHandler = (has, h') := ⟨_, _, rfl⟩
  rw [hinst]
  have hhandler := asyncInstance_has hinst
  have hsame := AsyncKept.getInstance_transactions hinst
  cases has with
  | false =>
      refine ⟨rfl, rfl, rfl, iff_of_true (fun _ => rfl) fun h => ?_⟩
      cases hhandler.mpr h.2.1
  | true =>
      refine ⟨rfl, rfl, rfl, ?_⟩
      by_cases hin : tid ∈ s.asyncHandler.transactions
      · refine iff_of_false (fun hstate => ?_) fun hno =>
          hno ⟨hasync, hhandler.mp rfl, hin⟩
        have hstarted := congrArg TransactionState.started (hstate tid)
        simp only [transactionState, decide_eq_decide, hin, iff_true] at hstarted
        simp only [SaAsyncHandler.stopAsyncTransaction, hsame, hin,
          if_true] at hstarted
        split at hstarted <;> simp at hstarted
      · refine iff_of_true (fun t => ?_) fun h => hin h.2.2
        have hstop : h'.stopAsyncTransaction s.factory env.callbacks tid =
            (h', s.factory) := by
          rw [SaAsyncHandler.stopAsyncTransaction, if_neg (hsame ▸ hin)]
        simp only [hstop, transactionState, hsame]
        rfl

/-- An unload is all or nothing exactly where it is served whole. -/
theorem unloadAlgo_allOrNothing_iff (h : ServerKept s.server) :
    s.AllOrNothing env clientInfo (.unloadAlgo algoInfo input) ↔
      s.servesWhole env clientInfo (.unloadAlgo algoInfo input) := by
  unfold AllOrNothing servesWhole serve
  cases hfind : s.findAdapter clientInfo.clientId with
  | none =>
      simp only [unloadAlgo, hfind]
      exact iff_of_true (fun _ _ => trivial) fun a ha => by cases ha
  | some a =>
  dsimp only
  rw [unloadAlgo_some hfind]
  simp only [Option.some.injEq, forall_eq']
  generalize htid : getTransactionId a.adapterId clientInfo.sessionId = tid
  obtain ⟨hserver, hadapters, hexecutor, hstate⟩ :=
    s.stopCallbacks_spec env algoInfo tid clientInfo.clientId
  generalize s.stopCallbacks env algoInfo tid = s₁
    at hserver hadapters hexecutor hstate ⊢
  have hwhole : (algoInfo.isAsync = true →
      s.asyncHandler.hasInstance = true ∨
        env.callbacks.newSaAsyncHandler = true →
      tid ∈ s.asyncHandler.transactions →
        s.hasExecutorIn env ∧ s.server.stops env.engines tid input) ↔
      (s.hasCallbacks env algoInfo tid →
        s.hasExecutorIn env ∧ s.server.stops env.engines tid input) :=
    ⟨fun hw hc => hw hc.1 hc.2.1 hc.2.2, fun hw h₁ h₂ h₃ => hw ⟨h₁, h₂, h₃⟩⟩
  rw [hwhole]
  -- A request that fails leaves what the callbacks' part left.
  have hfailed {P : Prop} (hno : ¬ P) :
      (∀ t, s₁.transactionState clientInfo.clientId t =
        s.transactionState clientInfo.clientId t) ↔
      (s.hasCallbacks env algoInfo tid → P) := by
    rw [hstate]
    exact ⟨fun hn hc => absurd hc hn, fun hw hc => hno (hw hc)⟩
  obtain ⟨has, s₂, hexec⟩ : ∃ has s₂, s₁.getExecutor env.newServerExecutor =
    (has, s₂) := ⟨_, _, rfl⟩
  simp only [endUnload, hexec, htid]
  obtain ⟨rfl, hhas⟩ := getExecutor_eq hexec
  rw [hexecutor] at hhas
  cases has with
  | false =>
      have hmemory : Retcode.outOfMemory ≠ Retcode.success := by decide
      simp only [ne_eq, hmemory, not_false_eq_true, forall_const]
      exact hfailed fun hin => by cases hhas.mpr hin.1
  | true =>
  rcases s.server.stopEngine_cases env.engines tid input h.managed with
    ⟨hfail, hsame, hkeeps⟩ | ⟨e, x, he, hx, hrelease, hok, -⟩
  · simp only [hserver, ne_eq, hfail, not_false_eq_true, if_true,
      forall_const, hsame]
    have hback (t : Int64) : transactionState { s₁ with
          hasExecutor := true, server := s.server } clientInfo.clientId t =
        s₁.transactionState clientInfo.clientId t := by
      rw [← hserver]
      rfl
    simp only [hback]
    refine hfailed fun hin => ?_
    obtain ⟨e, x, he, hx, hrelease⟩ := hin.2
    exact hkeeps e x he hx hrelease
  · simp only [hserver, ne_eq, hok, not_true, if_false]
    exact iff_of_true (fun hfail => hfail.elim) fun _ =>
      ⟨hhas.mp rfl, e, x, he, hx, hrelease⟩

end Service

/-- In every reachable state, a load or an unload that fails leaves the
client's transactions as they were exactly where it is served whole. -/
theorem reach_allOrNothing_iff {s : Service}
    (hs : serviceMachine.Reach Machine.anyStep s) (env : ServiceEnv)
    (clientInfo : ClientInfo) (call : Service.TransactionCall) :
    s.AllOrNothing env clientInfo call ↔ s.servesWhole env clientInfo call := by
  have h := reach_serverKept hs
  cases call with
  | loadAlgo algoInfo input output =>
      exact Service.loadAlgo_allOrNothing_iff h.handled
  | unloadAlgo algoInfo input => exact Service.unloadAlgo_allOrNothing_iff h

/-- The sample session, loaded for callbacks. -/
def asyncService : Service :=
  (Service.initial.take (.generateClient .willing)).take
    (.loadAlgo .willing sampleClient { sampleAlgo with isAsync := true }
      ⟨.null, 0⟩ ⟨.null, 0⟩)

theorem asyncService_reach :
    serviceMachine.Reach Machine.anyStep asyncService :=
  .step (.step (.start rfl) trivial rfl) trivial rfl

/-- The plugin does not let go of the session. -/
def refusingEnv : ServiceEnv := { ServiceEnv.willing with
  engines := { Env.willing with release := fun _ _ _ => Retcode.failure } }

theorem reach_allOrNothing_sample :
    serviceMachine.Reach Machine.anyStep asyncService ∧
      asyncService.AllOrNothing refusingEnv sampleClient
        (.unloadAlgo sampleAlgo ⟨.null, 0⟩) :=
  ⟨asyncService_reach, (reach_allOrNothing_iff asyncService_reach refusingEnv
    sampleClient (.unloadAlgo sampleAlgo ⟨.null, 0⟩)).mpr
      fun _ _ hasync => by cases hasync⟩

/-- The session stays loaded and has lost its listener. -/
theorem refusedUnload_not_allOrNothing :
    serviceMachine.Reach Machine.anyStep asyncService ∧
      ¬ asyncService.AllOrNothing refusingEnv sampleClient
        (.unloadAlgo { sampleAlgo with isAsync := true } ⟨.null, 0⟩) := by
  refine ⟨asyncService_reach, fun h => ?_⟩
  have hlistener := congrArg TransactionState.listener
    (h (by decide) (getTransactionId 1 1))
  revert hlistener
  decide

end AiEngine.Ref
