import AiEngine.Proofs.ClientSessions

/-!
# A failed `ClientInit`

`ClientInit` gives the caller a session id and enters the session in the table
before it does anything that can fail, and takes nothing back. So a failure is
undone only where there was nothing to take back: no id was left to give, and
the table already has an entry under the invalid one.

Which calls fail is said of what they ask for: the connection manager for the
first session, a client id by one of the attempts of the worker, and the two
singletons that the callback is registered with.
-/

namespace AiEngine.Ref

open AiEngine.Lib

/-- One of the attempts gets a client id. Where `SaClient` cannot be made the
worker ends. -/
def ConnectReply.comesUp (hasSaClient : Bool) : List ConnectReply → Prop
  | [] => False
  | reply :: attempts =>
      (hasSaClient || reply.newSaClient) = true ∧
        (reply.connects ∨ ConnectReply.comesUp true attempts)

namespace ClientFactory

/-- Whether the connection manager's worker runs. -/
def workerRuns (f : ClientFactory) : Bool :=
  match f.connectMgr with
  | none => false
  | some w => w.running

/-- `InitAiServer` gets all that it asks for. -/
def startsWorker (f : ClientFactory) (env : ClientEnv) : Bool :=
  (f.hasThreadPool || env.newThreadPool) && env.newThread &&
    env.newConnectMgrWorker && env.startThread

/-- Nothing fails that `ClientInit` asks for. -/
structure CompletesInit (f : ClientFactory) (env : ClientEnv) : Prop where
  start : f.sessionInfos = ∅ → f.startsWorker env = true
  connect : f.clientId ≠ invalidClientId ∨
    (f.sessionInfos = ∅ ∨ f.workerRuns = true) ∧
      ConnectReply.comesUp f.saClient.isSome env.attempts
  saAsyncHandler : f.saAsyncHandler.isSome = true ∨
    env.newSaAsyncHandler = true
  saClient : f.clientId = invalidClientId ∨ f.saClient.isSome = true ∨
    env.newSaClient = true

/-- No id is left, and the table has an entry for that. -/
def Exhausted (f : ClientFactory) : Prop :=
  maximumNumberOfSession < f.sessionInfos.keys.card ∧
    invalidSessionId ∈ f.sessionInfos

end ClientFactory

/-! ## The connection

There is a connection where there was one already, or where a worker can be
started or runs and one of its attempts gives an id. -/

/-- Only an answer with a client id leaves one. -/
theorem SaClient.initSaEngine_connects {reply : ConnectReply}
    {clientInfo : ClientInfo}
    (hok : (initSaEngine reply clientInfo).1 = Retcode.success)
    (hid : (initSaEngine reply clientInfo).2.clientId ≠ invalidClientId) :
    reply.invoke = true ∧ ∃ r ∈ reply.reply, 0 < r.1 := by
  unfold initSaEngine at hok hid
  split at hok
  · cases hok
  · next hinvoke =>
      rw [if_neg hinvoke] at hid
      refine ⟨not_not.mp hinvoke, ?_⟩
      split at hid
      · exact absurd rfl hid
      · next r uid hreply =>
          refine ⟨(r, uid), hreply, Int32.not_le.mp fun hle => hid ?_⟩
          exact if_pos hle

/-- An attempt connects exactly where `Init` leaves a client id. -/
theorem SaClient.init_connects_iff (c : SaClient) (reply : ConnectReply)
    (clientInfo : ClientInfo) :
    ((c.init reply clientInfo).1 = Retcode.success ∧
      (c.init reply clientInfo).2.1.clientId ≠ invalidClientId) ↔
      reply.connects := by
  refine ⟨fun ⟨hok, hid⟩ => ?_, init_connects clientInfo⟩
  unfold SaClient.init at hok hid
  split at hok
  · cases hok
  · next hremote =>
      rw [if_neg hremote] at hid
      dsimp only at hok hid
      split at hok
      · cases hok
      · next hengine =>
          rw [if_neg hengine] at hid
          split at hok
          · cases hok
          · next hdeath =>
              rw [if_neg hdeath] at hid
              obtain ⟨hinvoke, hreply⟩ := initSaEngine_connects
                (not_not.mp (not_or.mp hengine).1) hid
              exact ⟨not_not.mp hremote, hinvoke, hreply, not_not.mp hdeath⟩

namespace ClientFactory

section Worker

variable {f : ClientFactory}

/-- Where there is a client id the worker has nothing to do. -/
theorem runWorker_of_clientId (hid : f.clientId ≠ invalidClientId)
    (reply : ConnectReply) : f.runWorker reply = f := by
  unfold runWorker
  split
  · rfl
  · next w hw =>
      split
      · rfl
      · rw [oneAction, if_pos hid]
        dsimp only
        rw [← hw]

theorem runWorker_of_stopped (hstop : f.workerRuns = false)
    (reply : ConnectReply) : f.runWorker reply = f := by
  unfold workerRuns at hstop
  unfold runWorker
  split
  · rfl
  · next w hw =>
      rw [hw] at hstop
      exact if_pos (by rw [show w.running = false from hstop]; decide)

theorem exists_worker (hrun : f.workerRuns = true) :
    ∃ w, f.connectMgr = some w ∧ w.running = true := by
  unfold workerRuns at hrun
  split at hrun
  · cases hrun
  · next w hw => exact ⟨w, hw, hrun⟩

theorem runWorker_ends {reply : ConnectReply}
    (hid : f.clientId = invalidClientId)
    (halloc : ¬ (f.saClient.isSome || reply.newSaClient) = true) :
    (f.runWorker reply).clientId = invalidClientId ∧
      (f.runWorker reply).workerRuns = false := by
  by_cases hrun : f.workerRuns = true
  · obtain ⟨w, hw, hw'⟩ := exists_worker hrun
    have hgot : f.saClientInstance reply.newSaClient = none := by
      unfold saClientInstance
      cases hsome : f.saClient with
      | none =>
          rw [hsome] at halloc
          exact if_neg halloc
      | some c =>
          rw [hsome] at halloc
          exact absurd rfl halloc
    have hone : f.oneAction w reply = (false, w, f) := by
      rw [oneAction, if_neg (not_not.mpr hid), hgot]
    have hturn : f.runWorker reply = f.stopWorker w reply.newSaClient := by
      rw [runWorker, hw]
      dsimp only
      rw [if_neg (not_not.mpr hw'), hone]
    rw [hturn, stopWorker, uninitialize, hgot]
    exact ⟨hid, rfl⟩
  · rw [Bool.not_eq_true] at hrun
    rw [runWorker_of_stopped hrun]
    exact ⟨hid, hrun⟩

/-- With `SaClient`, a turn of the worker that looks for a connection keeps it
running, and leaves a client id where the attempt connects. -/
theorem runWorker_looks {reply : ConnectReply}
    (hid : f.clientId = invalidClientId) (hrun : f.workerRuns = true)
    (halloc : (f.saClient.isSome || reply.newSaClient) = true) :
    (f.runWorker reply).workerRuns = true ∧
      (f.runWorker reply).saClient.isSome = true ∧
      ((f.runWorker reply).clientId ≠ invalidClientId ↔ reply.connects) := by
  obtain ⟨w, hw, hw'⟩ := exists_worker hrun
  obtain ⟨c, hc⟩ : ∃ c, f.saClientInstance reply.newSaClient = some c := by
    unfold saClientInstance
    cases hsome : f.saClient with
    | none =>
        rw [hsome] at halloc
        exact ⟨_, if_pos halloc⟩
    | some c => exact ⟨c, rfl⟩
  have hiff := SaClient.init_connects_iff c reply w.clientInfo
  rw [runWorker, hw]
  dsimp only
  rw [if_neg (not_not.mpr hw'), oneAction, if_neg (not_not.mpr hid), hc]
  dsimp only
  generalize c.init reply w.clientInfo = r at hiff
  by_cases hfail : r.1 ≠ Retcode.success ∨ r.2.1.clientId = invalidClientId
  · rw [if_pos hfail]
    refine ⟨hw', rfl, fun hne => absurd hid hne, fun hconn => ?_⟩
    exact absurd hfail (not_or.mpr ⟨not_not.mpr (hiff.mpr hconn).1,
      (hiff.mpr hconn).2⟩)
  · rw [if_neg hfail]
    obtain ⟨hok, hne⟩ := not_or.mp hfail
    exact ⟨hw', rfl, fun _ => hiff.mp ⟨not_not.mp hok, hne⟩, fun _ => hne⟩

end Worker

theorem foldl_runWorker_iff (f : ClientFactory)
    (attempts : List ConnectReply) :
    (attempts.foldl runWorker f).clientId ≠ invalidClientId ↔
      f.clientId ≠ invalidClientId ∨ f.workerRuns = true ∧
        ConnectReply.comesUp f.saClient.isSome attempts := by
  induction attempts generalizing f with
  | nil => simp only [List.foldl_nil, ConnectReply.comesUp, and_false, or_false]
  | cons reply attempts ih =>
      rw [List.foldl_cons, ih, ConnectReply.comesUp]
      by_cases hid : f.clientId = invalidClientId
      · by_cases hrun : f.workerRuns = true
        · by_cases halloc : (f.saClient.isSome || reply.newSaClient) = true
          · obtain ⟨hrun', hsome, hiff⟩ := runWorker_looks hid hrun halloc
            simp only [hiff, hrun', hsome, hid, hrun, halloc, ne_eq,
              not_true_eq_false, false_or, true_and]
          · obtain ⟨hid', hstop⟩ := runWorker_ends hid halloc
            simp only [hid', hstop, hid, halloc, ne_eq, not_true_eq_false,
              Bool.false_eq_true, false_and, and_false, or_self]
        · rw [Bool.not_eq_true] at hrun
          simp only [runWorker_of_stopped hrun, hrun, Bool.false_eq_true,
            false_and]
      · simp only [runWorker_of_clientId hid, ne_eq, hid, not_false_eq_true,
          true_or]

/-- Waiting for a client id that is there changes nothing. -/
theorem foldl_runWorker_of_clientId {f : ClientFactory}
    (hid : f.clientId ≠ invalidClientId) (attempts : List ConnectReply) :
    attempts.foldl runWorker f = f := by
  induction attempts with
  | nil => rfl
  | cons reply attempts ih => rw [List.foldl_cons, runWorker_of_clientId hid, ih]

section Connection

variable {f : ClientFactory} {env : ClientEnv} {clientInfo : ClientInfo}

theorem waitConnection_iff (attempts : List ConnectReply) :
    (f.waitConnection attempts).1 = Retcode.success ↔
      f.clientId ≠ invalidClientId ∨ f.workerRuns = true ∧
        ConnectReply.comesUp f.saClient.isSome attempts := by
  rw [← foldl_runWorker_iff]
  unfold waitConnection
  dsimp only
  split
  · next hid => exact ⟨fun _ => hid, fun _ => rfl⟩
  · next hid => exact ⟨fun h => (nomatch h), fun h => absurd h hid⟩

/-- `InitAiServer` either starts a worker, and changes nothing else, or
fails. -/
theorem initAiServer_cases (f : ClientFactory) (env : ClientEnv)
    (clientInfo : ClientInfo) :
    (f.startsWorker env = true ∧ f.initAiServer env clientInfo =
      (Retcode.success, { f with
        hasThreadPool := true
        connectMgr := some ⟨clientInfo, true⟩ })) ∨
    (f.startsWorker env = false ∧
      (f.initAiServer env clientInfo).1 ≠ Retcode.success) := by
  unfold initAiServer startsWorker
  cases (f.hasThreadPool || env.newThreadPool) with
  | false => exact .inr ⟨rfl, by simp [Retcode.outOfMemory, Retcode.success]⟩
  | true =>
      cases env.newThread with
      | false =>
          exact .inr ⟨rfl, by simp [Retcode.outOfMemory, Retcode.success]⟩
      | true =>
          cases env.newConnectMgrWorker with
          | false =>
              exact .inr ⟨rfl, by simp [Retcode.outOfMemory, Retcode.success]⟩
          | true =>
              cases env.startThread with
              | false => exact .inr ⟨rfl, by
                  simp [Retcode.startThreadFailed, Retcode.success]⟩
              | true => exact .inl ⟨rfl, by simp⟩

theorem connect_iff (isFirstSession : Bool) :
    (f.connect env clientInfo isFirstSession).1 = Retcode.success ↔
      (isFirstSession = true → f.startsWorker env = true) ∧
        (f.clientId ≠ invalidClientId ∨
          (isFirstSession = true ∨ f.workerRuns = true) ∧
            ConnectReply.comesUp f.saClient.isSome env.attempts) := by
  unfold connect
  cases isFirstSession with
  | false =>
      simp only [Bool.false_eq_true, if_false, ne_eq, not_true_eq_false,
        false_or, IsEmpty.forall_iff, true_and]
      exact waitConnection_iff env.attempts
  | true =>
      simp only [if_true, true_imp_iff, true_or, true_and]
      obtain ⟨hstart, heq⟩ | ⟨hstart, hfail⟩ :=
        f.initAiServer_cases env clientInfo
      · simp only [heq, hstart, ne_eq, not_true_eq_false, if_false, true_and]
        rw [waitConnection_iff]
        exact or_congr_right (and_iff_right rfl)
      · simp only [if_pos hfail, hstart, Bool.false_eq_true, false_and,
          iff_false]
        exact hfail

/-- A client that has an id does not ask for `SaClient`. -/
theorem connect_saClient_of_clientId (hid : f.clientId ≠ invalidClientId)
    (isFirstSession : Bool) :
    (f.connect env clientInfo isFirstSession).2.saClient = f.saClient := by
  have hinit : (f.initAiServer env clientInfo).2.saClient = f.saClient ∧
      (f.initAiServer env clientInfo).2.clientId = f.clientId := by
    unfold initAiServer
    split
    · exact ⟨rfl, rfl⟩
    · dsimp only
      repeat' split
      all_goals exact ⟨rfl, rfl⟩
  have hwait {g : ClientFactory} (hg : g.clientId ≠ invalidClientId) :
      (g.waitConnection env.attempts).2 = g := by
    rw [waitConnection, foldl_runWorker_of_clientId hg]
    rw [if_pos hg]
  unfold connect
  cases isFirstSession with
  | false =>
      simp only [Bool.false_eq_true, if_false, ne_eq, not_true_eq_false]
      rw [hwait hid]
  | true =>
      simp only [if_true]
      split
      · exact hinit.1
      · rw [hwait (hinit.2 ▸ hid)]
        exact hinit.1

/-- A client that is connected got its id through `SaClient`, if it did not
have one. -/
theorem connect_saClient_iff {isFirstSession : Bool}
    (hok : (f.connect env clientInfo isFirstSession).1 = Retcode.success) :
    (f.connect env clientInfo isFirstSession).2.saClient.isSome = true ↔
      f.clientId = invalidClientId ∨ f.saClient.isSome = true := by
  by_cases hid : f.clientId = invalidClientId
  · refine iff_of_true ?_ (.inl hid)
    have hconn := connect_connected hok
    rcases (f.connect_connection env clientInfo isFirstSession).clientId with
      heq | heq | hsome
    · exact absurd (heq.trans hid) hconn
    · exact absurd heq hconn
    · exact Option.isSome_iff_ne_none.mpr hsome
  · rw [connect_saClient_of_clientId hid, or_iff_right hid]

end Connection

section Session

variable {f : ClientFactory}

/-- `GenerateSessionId` gives the invalid id where there are too many
sessions, and nowhere else. -/
theorem generateSessionId_invalid_iff :
    f.generateSessionId.1 = invalidSessionId ↔
      maximumNumberOfSession < f.sessionInfos.keys.card := by
  unfold generateSessionId
  split
  · next hfull => exact iff_of_true rfl hfull
  · next hroom =>
      refine iff_of_false ?_ hroom
      obtain ⟨hmin, hmax⟩ := FreshId.search_bounds f.usedIds f.sessionId
        f.usedIds.card (show aieSessionIdBegin ≤ intMax by decide)
      show Int32.ofInt (FreshId.search aieSessionIdBegin intMax f.usedIds
        (f.usedIds.card + 1) f.sessionId) ≠ invalidSessionId
      generalize FreshId.search aieSessionIdBegin intMax f.usedIds
        (f.usedIds.card + 1) f.sessionId = n at hmin hmax
      intro hid
      have hint : (Int32.ofInt n).toInt = n := Int32.toInt_ofInt_of_le
        (Int.le_trans (by decide) hmin) (Int.lt_of_le_of_lt hmax (by decide))
      rw [hid] at hint
      rw [← hint] at hmin
      exact absurd hmin (by decide)

theorem generateSessionId_counter (f : ClientFactory) :
    ∃ n, f.generateSessionId.2 = { f with sessionId := n } := by
  unfold generateSessionId
  split
  · exact ⟨f.sessionId, rfl⟩
  · exact ⟨_, rfl⟩

/-- Registering the callback gets the two singletons, or fails. -/
theorem registerDeadCb_iff (env : ClientEnv) (sessionId : Int32)
    (cb : Option Nat) :
    (f.registerDeadCb env sessionId cb).1 = Retcode.success ↔
      (f.saAsyncHandler.isSome = true ∨ env.newSaAsyncHandler = true) ∧
        (f.saClient.isSome = true ∨ env.newSaClient = true) := by
  unfold registerDeadCb registerWith updateSaClient saAsyncHandlerInstance
    saClientInstance
  cases f.saAsyncHandler <;> cases env.newSaAsyncHandler <;>
    cases f.saClient <;> cases env.newSaClient <;>
    simp [Retcode.success, Retcode.nullParam, Retcode.failure]

end Session

/-- A call that fails leaves the sessions as they were, and the caller
without an id. -/
def UndoneOnFailure (f : ClientFactory) (env : ClientEnv)
    (clientInfo : ClientInfo) (algorithmInfo : AlgorithmInfo)
    (cb : Option Nat) : Prop :=
  (f.clientInit env clientInfo algorithmInfo cb).1 ≠ Retcode.success →
    (f.clientInit env clientInfo algorithmInfo cb).2.2.sessionInfos =
        f.sessionInfos ∧
      (f.clientInit env clientInfo algorithmInfo cb).2.1.sessionId =
        invalidSessionId

section Init

variable {f : ClientFactory} {env : ClientEnv} {clientInfo : ClientInfo}
  {algorithmInfo : AlgorithmInfo} {cb : Option Nat}

/-- Whatever becomes of the call, the id is given and entered. -/
theorem clientInit_entered (hnew : clientInfo.sessionId = invalidSessionId) :
    (f.clientInit env clientInfo algorithmInfo cb).2.2.sessionInfos =
        f.sessionInfos.insertNew f.generateSessionId.1
          algorithmInfo.algorithmType ∧
      (f.clientInit env clientInfo algorithmInfo cb).2.1.sessionId =
        f.generateSessionId.1 := by
  obtain ⟨n, hn⟩ := f.generateSessionId_counter
  have hgen : f.generateSessionId =
      (f.generateSessionId.1, { f with sessionId := n }) := Prod.ext rfl hn
  unfold clientInit
  rw [if_neg (not_not.mpr hnew), hgen]
  dsimp only [addSessionInfo]
  generalize hg : ({ f with
    sessionId := n
    sessionInfos := f.sessionInfos.insertNew f.generateSessionId.1
      algorithmInfo.algorithmType } : ClientFactory) = g
  have hconn := g.connect_connection env
    { clientInfo with sessionId := f.generateSessionId.1 }
    (decide (f.sessionInfos.keys.card = 0))
  have hinfos : g.sessionInfos = f.sessionInfos.insertNew
      f.generateSessionId.1 algorithmInfo.algorithmType := by rw [← hg]
  generalize g.connect env
    { clientInfo with sessionId := f.generateSessionId.1 }
    (decide (f.sessionInfos.keys.card = 0)) = r at hconn
  split
  · exact ⟨hconn.sessionInfos.trans hinfos, rfl⟩
  · have hreg : SameSessions r.2
        (r.2.registerDeadCb env f.generateSessionId.1 cb).2 :=
      registerWith_sessions fun _ => rfl
    exact ⟨hreg.sessionInfos.trans (hconn.sessionInfos.trans hinfos), rfl⟩

/-- The call succeeds exactly where nothing fails that it asks for. -/
theorem clientInit_success_iff
    (hnew : clientInfo.sessionId = invalidSessionId) :
    (f.clientInit env clientInfo algorithmInfo cb).1 = Retcode.success ↔
      f.CompletesInit env := by
  obtain ⟨n, hn⟩ := f.generateSessionId_counter
  have hgen : f.generateSessionId =
      (f.generateSessionId.1, { f with sessionId := n }) := Prod.ext rfl hn
  have hempty : f.sessionInfos.keys.card = 0 ↔ f.sessionInfos = ∅ := by
    rw [Finset.card_eq_zero, Table.eq_empty_iff]
  unfold clientInit
  rw [if_neg (not_not.mpr hnew), hgen]
  dsimp only [addSessionInfo]
  generalize hg : ({ f with
    sessionId := n
    sessionInfos := f.sessionInfos.insertNew f.generateSessionId.1
      algorithmInfo.algorithmType } : ClientFactory) = g
  generalize ({ clientInfo with sessionId := f.generateSessionId.1 } :
    ClientInfo) = given
  have hiff : (g.connect env given
      (decide (f.sessionInfos.keys.card = 0))).1 = Retcode.success ↔
      (f.sessionInfos = ∅ → f.startsWorker env = true) ∧
        (f.clientId ≠ invalidClientId ∨
          (f.sessionInfos = ∅ ∨ f.workerRuns = true) ∧
            ConnectReply.comesUp f.saClient.isSome env.attempts) := by
    rw [connect_iff, decide_eq_true_iff, hempty, ← hg]
    rfl
  have hframe := g.connect_connection env given
    (decide (f.sessionInfos.keys.card = 0))
  have hclient := @connect_saClient_iff g env given
    (decide (f.sessionInfos.keys.card = 0))
  have hsame : g.clientId = f.clientId ∧ g.saClient = f.saClient ∧
      g.saAsyncHandler = f.saAsyncHandler := by
    rw [← hg]
    exact ⟨rfl, rfl, rfl⟩
  generalize g.connect env given
    (decide (f.sessionInfos.keys.card = 0)) = r at hiff hframe hclient
  split
  · next hfail =>
      exact iff_of_false hfail fun h => hfail (hiff.mpr ⟨h.start, h.connect⟩)
  · next hok =>
      have hok := not_not.mp hok
      rw [registerDeadCb_iff, hframe.saAsyncHandler, hclient hok, hsame.1,
        hsame.2.1, hsame.2.2, or_assoc]
      obtain ⟨hstart, hconn⟩ := hiff.mp hok
      exact ⟨fun h => ⟨hstart, hconn, h.1, h.2⟩,
        fun h => ⟨h.saAsyncHandler, h.saClient⟩⟩

/-- Entering a session is not noticed only where no id was left, and that was
entered before. -/
theorem entered_unchanged_iff :
    (f.sessionInfos.insertNew f.generateSessionId.1
        algorithmInfo.algorithmType = f.sessionInfos ∧
      f.generateSessionId.1 = invalidSessionId) ↔ f.Exhausted := by
  constructor
  · rintro ⟨hsame, hid⟩
    refine ⟨generateSessionId_invalid_iff.mp hid, ?_⟩
    have hkeys := congrArg Finmap.keys hsame
    rw [Table.keys_insertNew, hid] at hkeys
    exact Finmap.mem_keys.mp (hkeys ▸ Finset.mem_insert_self _ _)
  · rintro ⟨hfull, hmem⟩
    have hid := generateSessionId_invalid_iff.mpr hfull
    rw [hid]
    exact ⟨if_pos hmem, rfl⟩

end Init

/-- A failed `ClientInit` is undone exactly where the info has an id already,
where nothing fails, or where neither an id nor an entry was new. -/
theorem undoneOnFailure_iff (f : ClientFactory) (env : ClientEnv)
    (clientInfo : ClientInfo) (algorithmInfo : AlgorithmInfo)
    (cb : Option Nat) :
    f.UndoneOnFailure env clientInfo algorithmInfo cb ↔
      clientInfo.sessionId ≠ invalidSessionId ∨ f.CompletesInit env ∨
        f.Exhausted := by
  unfold UndoneOnFailure
  by_cases hnew : clientInfo.sessionId = invalidSessionId
  · obtain ⟨hinfos, hid⟩ :=
      @clientInit_entered f env clientInfo algorithmInfo cb hnew
    rw [hinfos, hid, entered_unchanged_iff, ne_eq,
      clientInit_success_iff hnew]
    simp only [hnew, ne_eq, not_true_eq_false, false_or]
    exact or_iff_not_imp_left.symm
  · have hdone : (f.clientInit env clientInfo algorithmInfo cb).1 =
        Retcode.success := by
      rw [clientInit, if_pos hnew]
    exact iff_of_true (fun hfail => absurd hdone hfail) (.inl hnew)

/-- What a failed call leaves of a caller that was given an id: the next call
does nothing and says that the client was initialized, whatever the
connection. -/
theorem clientInit_again {f : ClientFactory} {env : ClientEnv}
    {clientInfo : ClientInfo} {algorithmInfo : AlgorithmInfo}
    {cb : Option Nat} (hnew : clientInfo.sessionId = invalidSessionId)
    (hroom : f.sessionInfos.keys.card ≤ maximumNumberOfSession)
    (env' : ClientEnv) (algorithmInfo' : AlgorithmInfo) (cb' : Option Nat) :
    let r := f.clientInit env clientInfo algorithmInfo cb
    r.2.2.clientInit env' r.2.1 algorithmInfo' cb' =
      (Retcode.success, r.2.1, r.2.2) := by
  have hid := (@clientInit_entered f env clientInfo algorithmInfo cb hnew).2
  have hne : f.generateSessionId.1 ≠ invalidSessionId := fun heq =>
    absurd (generateSessionId_invalid_iff.mp heq) (Nat.not_lt.mpr hroom)
  intro r
  rw [clientInit, if_pos (hid ▸ hne)]

end ClientFactory

/-- The worker's thread cannot be started. -/
def noThread : ClientEnv where
  newThreadPool := true
  newThread := true
  newConnectMgrWorker := true
  startThread := false
  newSaClient := true
  newSaAsyncHandler := true
  attempts := []
  clientUid := 0

/-- A first call that finds no thread leaves its session: the info has an id,
the next call says that it is initialized, and the next session will not be
the first one. -/
theorem noThread_not_undoneOnFailure :
    ¬ ∀ (f : ClientFactory) (env : ClientEnv) (clientInfo : ClientInfo)
      (algorithmInfo : AlgorithmInfo) (cb : Option Nat),
      f.UndoneOnFailure env clientInfo algorithmInfo cb := by
  intro hall
  obtain ⟨info, hnew⟩ : ∃ info : ClientInfo,
      info.sessionId = invalidSessionId :=
    ⟨{ ClientInfo.zero with sessionId := invalidSessionId }, rfl⟩
  have hundone := hall .initial noThread info .zero none
  have hfail : ¬ ClientFactory.initial.CompletesInit noThread :=
    fun hdone => absurd (hdone.start rfl) (by decide)
  have hid := (hundone (mt (ClientFactory.clientInit_success_iff hnew).mp
    hfail)).2
  rw [(ClientFactory.clientInit_entered hnew).2] at hid
  exact absurd (ClientFactory.generateSessionId_invalid_iff.mp hid) (by decide)

end AiEngine.Ref
