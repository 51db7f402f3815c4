import AiEngine.Proofs.ClientSteps

/-!
# The table of the client's sessions

`sessionInfos_` and the infos that the application holds are two records of
the same sessions. They agree as long as each id that `GenerateSessionId`
hands out is a fresh positive one. It is not where there are too many
sessions, where the counter has run to the end of its range, and where the
server's death has reset it.

The first session opens the connection and the last one closes it, so an
empty table means that there is none.
-/

namespace AiEngine.Ref

open AiEngine.Lib

/-- The attempt gets a client id of the server. -/
def ConnectReply.connects (reply : ConnectReply) : Prop :=
  reply.remoteIUnknown ∧ reply.invoke ∧ (∃ r ∈ reply.reply, 0 < r.1) ∧
    reply.addDeathRecipient

/-- The connection comes up: the worker's thread is started, and an attempt
that is made while the call waits gets a client id. -/
structure ClientEnv.ComesUp (env : ClientEnv) : Prop where
  newThreadPool : env.newThreadPool
  newThread : env.newThread
  newConnectMgrWorker : env.newConnectMgrWorker
  startThread : env.startThread
  newSaClient : ∀ reply ∈ env.attempts, reply.newSaClient
  attempts : ∃ reply ∈ env.attempts, reply.connects

theorem SaClient.init_connects {c : SaClient} {env : ConnectReply}
    (clientInfo : ClientInfo) (h : env.connects) :
    (c.init env clientInfo).1 = Retcode.success ∧
      (c.init env clientInfo).2.1.clientId ≠ invalidClientId := by
  obtain ⟨hremote, hinvoke, ⟨r, hr, hpos⟩, hdeath⟩ := h
  have hid : initEngine r.1 = r.1 := if_neg (Int32.not_le.mpr hpos)
  have hne : r.1 ≠ invalidClientId := by
    intro heq
    rw [heq] at hpos
    exact absurd hpos (by decide)
  have hsa : initSaEngine env clientInfo = (Retcode.success,
      { clientInfo with clientId := r.1, serverUid := r.2 }) := by
    unfold initSaEngine
    rw [if_neg (not_not.mpr hinvoke), Option.mem_def.mp hr]
    dsimp only
    rw [hid]
  have hok : ¬ (Retcode.success ≠ Retcode.success ∨ r.1 = invalidClientId) :=
    fun h => h.elim (absurd rfl) hne
  unfold init
  rw [if_neg (not_not.mpr hremote), hsa]
  dsimp only
  rw [if_neg hok, if_neg (not_not.mpr hdeath)]
  exact ⟨rfl, hne⟩

namespace ClientFactory

/-- There is no connection to the server. -/
structure Disconnected (f : ClientFactory) : Prop where
  connectMgr : f.connectMgr = none
  clientId : f.clientId = invalidClientId
  proxy : ¬ f.HasProxy

/-- The worker runs, and it does not look for a connection. -/
structure Connected (f : ClientFactory) : Prop where
  connectMgr : ∃ w, f.connectMgr = some w ∧ w.running = true
  clientId : f.clientId ≠ invalidClientId
  saClient : f.saClient ≠ none
  hasThreadPool : f.hasThreadPool = true

/-- There is a connection as long as there are sessions. -/
structure ConnectionKept (f : ClientFactory) : Prop where
  closed : f.sessionInfos = ∅ → f.Disconnected ∧ ¬ f.HasDeathCb
  opened : f.sessionInfos ≠ ∅ → f.Connected
  deathCb : f.HasDeathCb → f.saAsyncHandler ≠ none

/-- What the callbacks' operations do to the sessions and the connection. -/
structure SameSessions (f f' : ClientFactory) : Prop where
  sessionInfos : f'.sessionInfos = f.sessionInfos
  sessionId : f'.sessionId = f.sessionId
  clientId : f'.clientId = f.clientId
  connectMgr : f'.connectMgr = f.connectMgr
  hasThreadPool : f'.hasThreadPool = f.hasThreadPool
  saClient : f.saClient ≠ none → f'.saClient ≠ none
  saAsyncHandler : f.saAsyncHandler ≠ none → f'.saAsyncHandler ≠ none
  proxy : f'.HasProxy → f.HasProxy
  deathCb : f'.HasDeathCb → f.HasDeathCb ∨ f'.saAsyncHandler ≠ none

namespace SameSessions

variable {f f' f'' : ClientFactory}

theorem refl (f : ClientFactory) : SameSessions f f :=
  ⟨rfl, rfl, rfl, rfl, rfl, id, id, id, .inl⟩

theorem trans (h : SameSessions f f') (h' : SameSessions f' f'') :
    SameSessions f f'' where
  sessionInfos := h'.sessionInfos.trans h.sessionInfos
  sessionId := h'.sessionId.trans h.sessionId
  clientId := h'.clientId.trans h.clientId
  connectMgr := h'.connectMgr.trans h.connectMgr
  hasThreadPool := h'.hasThreadPool.trans h.hasThreadPool
  saClient := fun hc => h'.saClient (h.saClient hc)
  saAsyncHandler := fun hh => h'.saAsyncHandler (h.saAsyncHandler hh)
  proxy := fun hp => h.proxy (h'.proxy hp)
  deathCb := fun hd => by
    rcases h'.deathCb hd with hd' | hh
    · exact (h.deathCb hd').imp_right h'.saAsyncHandler
    · exact .inr hh

theorem connected (h : SameSessions f f') (hc : f.Connected) : f'.Connected where
  connectMgr := by rw [h.connectMgr]; exact hc.connectMgr
  clientId := by rw [h.clientId]; exact hc.clientId
  saClient := h.saClient hc.saClient
  hasThreadPool := h.hasThreadPool.trans hc.hasThreadPool

theorem disconnected (h : SameSessions f f') (hd : f.Disconnected) :
    f'.Disconnected where
  connectMgr := h.connectMgr.trans hd.connectMgr
  clientId := h.clientId.trans hd.clientId
  proxy := fun hp => hd.proxy (h.proxy hp)

/-- The handler in hand, whatever becomes of its callbacks. -/
theorem of_saAsyncHandler (f : ClientFactory) (h : AsyncHandler) :
    SameSessions f { f with saAsyncHandler := some h } :=
  ⟨rfl, rfl, rfl, rfl, rfl, id, fun _ => Option.some_ne_none h, id, .inl⟩

/-- `SaClient` in hand, its proxy kept. Only with a handler does it get the
callback for the server's death. -/
theorem of_saClient {c c' : SaClient} {alloc : Bool} {h : Option AsyncHandler}
    (hgot : f.saClientInstance alloc = some c) (hproxy : c'.proxy = c.proxy)
    (hh : f.saAsyncHandler ≠ none → h ≠ none)
    (hdeath : c'.deathCb = c.deathCb ∨ h ≠ none) :
    SameSessions f { f with saClient := some c', saAsyncHandler := h } where
  sessionInfos := rfl
  sessionId := rfl
  clientId := rfl
  connectMgr := rfl
  hasThreadPool := rfl
  saClient := fun _ => Option.some_ne_none c'
  saAsyncHandler := hh
  proxy := fun ⟨d, hd, hp⟩ => by
    cases hd
    rw [hproxy] at hp
    rcases saClient_or_new hgot with hc | rfl
    · exact ⟨c, hc, hp⟩
    · cases hp
  deathCb := fun ⟨d, hd, hp⟩ => by
    cases hd
    refine hdeath.imp_left fun heq => ?_
    rw [heq] at hp
    rcases saClient_or_new hgot with hc | rfl
    · exact ⟨c, hc, hp⟩
    · cases hp

end SameSessions

section Frames

variable {σ : Type} {f : ClientFactory} {env : ClientEnv}

theorem SameSessions.of_got {f' : ClientFactory} (h : GotInstances env f f') :
    SameSessions f f' := by
  cases h with
  | nothing => exact .refl f
  | client hc => exact .of_saClient hc rfl id (.inl rfl)
  | both hc hh =>
      exact .of_saClient hc rfl (fun _ => Option.some_ne_none _) (.inl rfl)

theorem registerWith_sessions {sessionId : Int32}
    {register : AsyncHandler → AsyncHandler} {update : SaClient → SaClient}
    (hproxy : ∀ c, (update c).proxy = c.proxy) :
    SameSessions f (f.registerWith env sessionId register update).2 := by
  obtain ⟨-, heq⟩ | ⟨h, -, ⟨-, heq⟩ | ⟨c, hc, heq⟩⟩ :=
    registerWith_cases f env sessionId register update
  · rw [heq]
    exact .refl f
  · rw [heq]
    exact .of_saAsyncHandler f _
  · rw [heq]
    have hsome (h : AsyncHandler) : some h ≠ none := Option.some_ne_none h
    exact .of_saClient hc (hproxy c) (fun _ => hsome _) (.inr (hsome _))

theorem unRegisterWith_sessions {unRegister : AsyncHandler → Int × AsyncHandler}
    {update : SaClient → SaClient} (hproxy : ∀ c, (update c).proxy = c.proxy) :
    SameSessions f (f.unRegisterWith env unRegister update).2 := by
  obtain ⟨-, heq⟩ | ⟨h, -, ⟨-, heq⟩ | ⟨c, hc, heq⟩⟩ :=
    unRegisterWith_cases f env unRegister update
  · rw [heq]
    exact .refl f
  · rw [heq]
    exact .of_saAsyncHandler f _
  · rw [heq]
    have hsome (h : AsyncHandler) : some h ≠ none := Option.some_ne_none h
    exact .of_saClient hc (hproxy c) (fun _ => hsome _) (.inr (hsome _))

end Frames

/-! ## Opening and closing the connection

The first session opens the connection and the last one closes it. In between
the worker makes its attempts, and whether one succeeds is all the sessions
see of it. -/

/-- A worker runs, which looks for a connection or has one. -/
structure Running (f : ClientFactory) : Prop where
  connectMgr : ∃ w, f.connectMgr = some w ∧ w.running = true
  saClient : f.clientId ≠ invalidClientId → f.saClient ≠ none
  hasThreadPool : f.hasThreadPool = true

theorem Running.connected {f : ClientFactory} (h : f.Running)
    (hid : f.clientId ≠ invalidClientId) : f.Connected :=
  ⟨h.connectMgr, hid, h.saClient hid, h.hasThreadPool⟩

section Connection

variable {f : ClientFactory} {env : ClientEnv}

theorem Connected.runWorker (h : f.Connected) (reply : ConnectReply) :
    f.runWorker reply = f := by
  obtain ⟨w, hw, hrun⟩ := h.connectMgr
  simp only [ClientFactory.runWorker, hw, hrun, oneAction, if_pos h.clientId]
  rw [← hw]
  rfl

/-- With `SaClient`, a turn of the worker keeps it running, and one that
connects leaves a client id. -/
theorem Running.runWorker (h : f.Running) {reply : ConnectReply}
    (halloc : reply.newSaClient) :
    (f.runWorker reply).Running ∧
      (reply.connects → (f.runWorker reply).clientId ≠ invalidClientId) := by
  by_cases hid : f.clientId ≠ invalidClientId
  · rw [(h.connected hid).runWorker]
    exact ⟨h, fun _ => hid⟩
  · obtain ⟨w, hw, hrun⟩ := h.connectMgr
    obtain ⟨c, hc⟩ : ∃ c, f.saClientInstance reply.newSaClient = some c := by
      unfold saClientInstance
      cases f.saClient with
      | none => exact ⟨_, if_pos halloc⟩
      | some c => exact ⟨c, rfl⟩
    have hinit (hok : reply.connects) :=
      SaClient.init_connects (c := c) w.clientInfo hok
    simp only [ClientFactory.runWorker, hw, hrun, oneAction, if_neg hid, hc]
    generalize c.init reply w.clientInfo = r at hinit
    obtain ⟨retCode, clientInfo, c'⟩ := r
    by_cases hfail :
        retCode ≠ Retcode.success ∨ clientInfo.clientId = invalidClientId
    · simp only [if_pos hfail, not_true_eq_false, if_false]
      refine ⟨⟨⟨_, rfl, rfl⟩, fun _ => Option.some_ne_none _,
        h.hasThreadPool⟩, fun hok => absurd hfail ?_⟩
      exact not_or.mpr ⟨not_not.mpr (hinit hok).1, (hinit hok).2⟩
    · simp only [if_neg hfail, not_true_eq_false, if_false]
      exact ⟨⟨⟨_, rfl, rfl⟩, fun _ => Option.some_ne_none _,
        h.hasThreadPool⟩, fun _ => (not_or.mp hfail).2⟩

theorem Running.attempts {attempts : List ConnectReply}
    (halloc : ∀ reply ∈ attempts, reply.newSaClient) (h : f.Running) :
    (attempts.foldl ClientFactory.runWorker f).Running ∧
      ((f.clientId ≠ invalidClientId ∨ ∃ reply ∈ attempts, reply.connects) →
        (attempts.foldl ClientFactory.runWorker f).clientId ≠
          invalidClientId) := by
  induction attempts generalizing f with
  | nil => exact ⟨h, fun hid => hid.elim id fun ⟨_, hnil, _⟩ => nomatch hnil⟩
  | cons reply attempts ih =>
      have hone := h.runWorker (halloc reply (List.mem_cons_self ..))
      have hrest := ih (fun r hr => halloc r (List.mem_cons_of_mem _ hr)) hone.1
      refine ⟨hrest.1, fun hid => hrest.2 ?_⟩
      rcases hid with hid | ⟨r, hr, hok⟩
      · left
        rwa [(h.connected hid).runWorker]
      · rcases List.mem_cons.mp hr with rfl | hr
        · exact .inl (hone.2 hok)
        · exact .inr ⟨r, hr, hok⟩

theorem connect_first (hup : env.ComesUp) (hid : f.clientId = invalidClientId)
    (clientInfo : ClientInfo) :
    (f.connect env clientInfo true).1 = Retcode.success ∧
      (f.connect env clientInfo true).2.Connected := by
  have hrun : ({ f with
      hasThreadPool := true
      connectMgr := some ⟨clientInfo, true⟩ } : ClientFactory).Running :=
    ⟨⟨_, rfl, rfl⟩, fun hne => absurd hid hne, rfl⟩
  have hall := hrun.attempts hup.newSaClient
  have hconn := hall.1.connected (hall.2 (.inr hup.attempts))
  have hpool : (f.hasThreadPool || env.newThreadPool) = true := by
    rw [hup.newThreadPool, Bool.or_true]
  simp only [connect, initAiServer, hpool, hup.newThread,
    hup.newConnectMgrWorker, hup.startThread, waitConnection, if_true,
    not_true_eq_false, if_false, ne_eq, hconn.clientId, not_false_eq_true]
  exact ⟨trivial, hconn⟩

theorem connect_later (h : f.Connected) (clientInfo : ClientInfo) :
    f.connect env clientInfo false = (Retcode.success, f) := by
  have hall : env.attempts.foldl ClientFactory.runWorker f = f := by
    induction env.attempts with
    | nil => rfl
    | cons reply attempts ih => rw [List.foldl_cons, h.runWorker, ih]
  have hwait : f.waitConnection env.attempts = (Retcode.success, f) := by
    rw [waitConnection, hall]
    exact if_pos h.clientId
  exact hwait

theorem disconnect_last (env : ClientEnv) (h : f.Connected) (hlast : f.sessionInfos = ∅) :
    (f.disconnect env).1 = Retcode.success ∧
      (f.disconnect env).2.Disconnected := by
  obtain ⟨w, hw, hrun⟩ := h.connectMgr
  obtain ⟨c, hc⟩ := Option.ne_none_iff_exists'.mp h.saClient
  have hpool : (f.hasThreadPool || env.newThreadPool) = true := by
    rw [h.hasThreadPool, Bool.true_or]
  have hempty : f.sessionInfos.keys.card = 0 := by
    rw [hlast]
    rfl
  have hclose : f.closeAiServer env = (Retcode.success,
      { f.stopWorker w env.newSaClient with
        hasThreadPool := true, connectMgr := none }) := by
    have hkeeps : (f.stopWorker w env.newSaClient).hasThreadPool =
        f.hasThreadPool := by
      unfold stopWorker uninitialize
      rw [saClientInstance_of_some hc]
    simp only [closeAiServer, hw, hrun, if_true, hkeeps, hpool]
    rfl
  have hstop : f.stopWorker w env.newSaClient = { f with
      saClient := some { c with proxy := false }
      clientId := invalidClientId
      connectMgr := some { w with running := false } } := by
    unfold stopWorker uninitialize
    rw [saClientInstance_of_some hc]
  rw [disconnect, if_pos hempty, hclose, hstop]
  refine ⟨rfl, rfl, rfl, ?_⟩
  rintro ⟨d, hd, hproxy⟩
  cases hd
  cases hproxy

theorem disconnect_others (hothers : f.sessionInfos ≠ ∅) :
    f.disconnect env = (Retcode.success, f) := by
  have hcard : f.sessionInfos.keys.card ≠ 0 := fun h =>
    hothers (Table.eq_empty_of_keys (Finset.card_eq_zero.mp h))
  rw [disconnect, if_neg hcard]

end Connection

/-! ## Session ids

The search goes from the last id on and wraps at the largest one. It needs a
counter that is not reset, room in the table, and a free number ahead. -/

/-- The session ids in use, as numbers. -/
def usedIds (f : ClientFactory) : Finset Int :=
  f.sessionInfos.keys.image Int32.toInt

/-- What it takes for `GenerateSessionId` to find a positive id: room for a
session, a counter that was not reset, and a free id ahead of it. -/
structure HasFreshId (f : ClientFactory) : Prop where
  room : f.sessionInfos.keys.card ≤ maximumNumberOfSession
  counter : f.sessionId ≠ invalidSessionId.toInt
  ahead : ∃ n, f.sessionId < n ∧ n ≤ intMax ∧ n ∉ f.usedIds

section SessionIds

variable {f : ClientFactory}

theorem usedIds_card : f.usedIds.card = f.sessionInfos.keys.card :=
  Finset.card_image_of_injective _ fun _ _ h => Int32.toInt_inj.mp h

theorem generateSessionId_fresh (hcounter : -1 ≤ f.sessionId)
    (h : f.HasFreshId) : ∃ n : Int, 0 < n ∧ 0 < f.generateSessionId.1 ∧
      f.generateSessionId.1 ∉ f.sessionInfos ∧
      f.generateSessionId.2 = { f with sessionId := n } := by
  obtain ⟨n, hn, hmax, hfree⟩ := h.ahead
  have hne : f.sessionId ≠ -1 := h.counter
  have hlo : aieSessionIdBegin ≤ f.sessionId + 1 := by
    unfold aieSessionIdBegin
    omega
  obtain ⟨hlt, hle, hnot⟩ := FreshId.search_spec_ahead hlo hn hmax hfree
  have hgen : f.generateSessionId =
      (let sessionId := FreshId.search aieSessionIdBegin intMax f.usedIds
        (f.usedIds.card + 1) f.sessionId
      (Int32.ofInt sessionId, { f with sessionId })) :=
    if_neg (Nat.not_lt.mpr h.room)
  generalize FreshId.search aieSessionIdBegin intMax f.usedIds
    (f.usedIds.card + 1) f.sessionId = m at hlt hle hnot hgen
  have hint : (Int32.ofInt m).toInt = m :=
    Int32.toInt_ofInt_of_le (by omega) (by unfold intMax at hle; omega)
  rw [hgen]
  refine ⟨m, by omega, ?_, ?_, rfl⟩
  · rw [Int32.lt_iff_toInt_lt, hint]
    show (0 : Int) < m
    omega
  · intro hmem
    refine hnot (Finset.mem_image.mpr ⟨Int32.ofInt m, ?_, hint⟩)
    exact Finmap.mem_keys.mpr hmem

end SessionIds

section Calls

variable {f g : ClientFactory} {env : ClientEnv} {clientInfo : ClientInfo}
  {algorithmInfo : AlgorithmInfo} {cb : Option Nat}

/-- What the callbacks' operations leave of a connected client. -/
theorem SameSessions.kept (h : SameSessions f g) (hc : f.Connected)
    (hne : f.sessionInfos ≠ ∅) (hdeath : f.HasDeathCb → f.saAsyncHandler ≠ none) :
    g.ConnectionKept where
  closed := fun hempty => absurd (h.sessionInfos.symm.trans hempty) hne
  opened := fun _ => h.connected hc
  deathCb := fun hd =>
    (h.deathCb hd).elim (fun hd => h.saAsyncHandler (hdeath hd)) id

/-- Whether it was there before or not, the connection is open once a session
was added. -/
theorem connect_added {n : Int} {t : Table Int32 Int32} (h : f.ConnectionKept)
    (hup : f.sessionInfos = ∅ → env.ComesUp)
    (hg : { f with sessionId := n, sessionInfos := t } = g)
    (clientInfo : ClientInfo) :
    (g.connect env clientInfo (decide (f.sessionInfos.keys.card = 0))).1 =
        Retcode.success ∧
      (g.connect env clientInfo
        (decide (f.sessionInfos.keys.card = 0))).2.Connected := by
  subst hg
  by_cases hempty : f.sessionInfos = ∅
  · have hcard : f.sessionInfos.keys.card = 0 := by
      rw [hempty]
      rfl
    rw [decide_eq_true hcard]
    exact connect_first (f := { f with sessionId := n, sessionInfos := t })
      (hup hempty) (h.closed hempty).1.clientId clientInfo
  · have hcard : f.sessionInfos.keys.card ≠ 0 := fun h =>
      hempty (Table.eq_empty_of_keys (Finset.card_eq_zero.mp h))
    have hc : ({ f with sessionId := n, sessionInfos := t } :
        ClientFactory).Connected := { h.opened hempty with }
    rw [decide_eq_false hcard, connect_later hc]
    exact ⟨rfl, hc⟩

/-- A session that is initialized gets a fresh positive id, which goes into
the table; then there is a connection. -/
theorem clientInit_new (algorithmInfo : AlgorithmInfo) (cb : Option Nat)
    (h : f.ConnectionKept) (hcounter : -1 ≤ f.sessionId)
    (hfresh : f.HasFreshId) (hup : f.sessionInfos = ∅ → env.ComesUp)
    (hnew : clientInfo.sessionId = invalidSessionId) :
    ∃ sessionId, 0 < sessionId ∧ sessionId ∉ f.sessionInfos ∧
      (f.clientInit env clientInfo algorithmInfo cb).2.1.sessionId = sessionId ∧
      (f.clientInit env clientInfo algorithmInfo cb).2.2.sessionInfos =
        f.sessionInfos.insertNew sessionId algorithmInfo.algorithmType ∧
      -1 ≤ (f.clientInit env clientInfo algorithmInfo cb).2.2.sessionId ∧
      (f.clientInit env clientInfo algorithmInfo cb).2.2.ConnectionKept := by
  obtain ⟨n, hn, hpos, hnot, hgen⟩ := generateSessionId_fresh hcounter hfresh
  refine ⟨f.generateSessionId.1, hpos, hnot, ?_⟩
  generalize hid : f.generateSessionId.1 = sessionId at hpos hnot
  have hboth : f.generateSessionId = (sessionId, { f with sessionId := n }) :=
    Prod.ext hid hgen
  unfold clientInit
  rw [if_neg (not_not.mpr hnew), hboth]
  dsimp only [addSessionInfo]
  generalize hadded : ({ f with
    sessionId := n
    sessionInfos := f.sessionInfos.insertNew sessionId
      algorithmInfo.algorithmType } : ClientFactory) = added
  have hconn := connect_added h hup hadded { clientInfo with sessionId }
  have hsame := connect_connection added env { clientInfo with sessionId }
    (decide (f.sessionInfos.keys.card = 0))
  generalize added.connect env { clientInfo with sessionId }
    (decide (f.sessionInfos.keys.card = 0)) = r at hconn hsame
  subst hadded
  obtain ⟨retCode, g⟩ := r
  obtain ⟨rfl, hconn⟩ := hconn
  have hreg : SameSessions g (g.registerDeadCb env sessionId cb).2 :=
    registerWith_sessions fun _ => rfl
  have hne : g.sessionInfos ≠ ∅ := by
    rw [hsame.sessionInfos]
    exact f.sessionInfos.insertNew_ne_empty _ _
  have hdeath (hd : g.HasDeathCb) : g.saAsyncHandler ≠ none := by
    rw [hsame.saAsyncHandler]
    exact h.deathCb (hsame.deathCb.mp hd)
  refine ⟨rfl, hreg.sessionInfos.trans hsame.sessionInfos, ?_,
    hreg.kept hconn hne hdeath⟩
  show -1 ≤ (g.registerDeadCb env sessionId cb).2.sessionId
  rw [hreg.sessionId, hsame.sessionId]
  show -1 ≤ n
  omega

theorem unRegisterDeadCb_clears (env : ClientEnv) (sessionId : Int32)
    (h : f.HasDeathCb → f.saAsyncHandler ≠ none) :
    ¬ (f.unRegisterDeadCb env sessionId).2.HasDeathCb := by
  unfold unRegisterDeadCb
  obtain ⟨hnone, heq⟩ | ⟨g, -, ⟨hnone, heq⟩ | ⟨c, -, heq⟩⟩ := unRegisterWith_cases
    f env (·.unRegisterDeadCb sessionId) SaClient.unRegisterSaDeathCb
  · rw [heq]
    intro hd
    obtain ⟨g, hg⟩ := Option.ne_none_iff_exists'.mp (h hd)
    rw [saAsyncHandlerInstance_of_some hg] at hnone
    cases hnone
  · rw [heq]
    rintro ⟨c, hc, -⟩
    rw [show f.saClient = some c from hc] at hnone
    cases hnone
  · rw [heq]
    rintro ⟨d, hd, hcb⟩
    cases hd
    cases hcb

/-- A session that is destroyed leaves the table, and the last one closes the
connection. -/
theorem clientDestroy_known (env : ClientEnv) (h : f.ConnectionKept)
    (hvalid : clientInfo.sessionId ≠ invalidSessionId)
    (hmem : clientInfo.sessionId ∈ f.sessionInfos) :
    (f.clientDestroy env clientInfo).2.1.sessionId = invalidSessionId ∧
      (f.clientDestroy env clientInfo).2.2.sessionInfos =
        f.sessionInfos.erase clientInfo.sessionId ∧
      (f.clientDestroy env clientInfo).2.2.sessionId = f.sessionId ∧
      (f.clientDestroy env clientInfo).2.2.ConnectionKept := by
  have hne : f.sessionInfos ≠ ∅ := by
    intro hempty
    rw [hempty] at hmem
    exact Finmap.notMem_empty hmem
  unfold clientDestroy eraseSessionInfo
  rw [if_neg hvalid, if_pos hmem]
  dsimp only
  generalize herased : ({ f with
    sessionInfos := f.sessionInfos.erase clientInfo.sessionId } :
    ClientFactory) = erased
  have hsame := disconnect_connection erased env
  have hc : erased.Connected := by
    subst herased
    exact { h.opened hne with }
  have hdeath (hd : (erased.disconnect env).2.HasDeathCb) :
      (erased.disconnect env).2.saAsyncHandler ≠ none := by
    rw [hsame.saAsyncHandler]
    subst herased
    exact h.deathCb (hsame.deathCb.mp hd)
  have hunreg : SameSessions (erased.disconnect env).2
      ((erased.disconnect env).2.unRegisterDeadCb env clientInfo.sessionId).2 :=
    unRegisterWith_sessions fun _ => rfl
  have hcleared := unRegisterDeadCb_clears env clientInfo.sessionId hdeath
  have hinfos : (erased.disconnect env).2.sessionInfos =
      f.sessionInfos.erase clientInfo.sessionId := by
    rw [hsame.sessionInfos, ← herased]
  have hcounter : (erased.disconnect env).2.sessionId = f.sessionId := by
    rw [hsame.sessionId, ← herased]
  have hdone : (erased.disconnect env).1 = Retcode.success ∧
      ((erased.disconnect env).2.sessionInfos = ∅ →
        (erased.disconnect env).2.Disconnected) ∧
      ((erased.disconnect env).2.sessionInfos ≠ ∅ →
        (erased.disconnect env).2.Connected) := by
    rw [hsame.sessionInfos]
    by_cases hlast : erased.sessionInfos = ∅
    · obtain ⟨hok, hgone⟩ := disconnect_last env hc hlast
      exact ⟨hok, fun _ => hgone, fun hne => absurd hlast hne⟩
    · rw [disconnect_others hlast]
      exact ⟨rfl, fun hempty => absurd hempty hlast, fun _ => hc⟩
  obtain ⟨hok, hgone, hstays⟩ := hdone
  rw [if_neg (not_not.mpr hok)]
  exact ⟨rfl, hunreg.sessionInfos.trans hinfos, hunreg.sessionId.trans hcounter,
    { closed := fun hempty => ⟨hunreg.disconnected
        (hgone (hunreg.sessionInfos.symm.trans hempty)), hcleared⟩
      opened := fun hne => hunreg.connected
        (hstays fun h => hne (hunreg.sessionInfos.trans h))
      deathCb := fun hd => absurd hd hcleared }⟩

end Calls

section Others

variable {σ : Type} {f : ClientFactory} {env : ClientEnv} {server : AiServer σ}
  {clientInfo : ClientInfo} {algorithmInfo : AlgorithmInfo}
  {inputInfo outputInfo : DataInfo} {cb : Option Nat} {remote : σ}

theorem clientPrepare_sessions :
    SameSessions f (f.clientPrepare env server clientInfo algorithmInfo
      inputInfo outputInfo cb remote).2.2.1 := by
  unfold clientPrepare
  split
  · exact .refl f
  · split
    · exact .refl f
    · have hreg : SameSessions f
          (if algorithmInfo.isAsync then
            f.registerCb env clientInfo.sessionId cb
          else (Retcode.success, f)).2 := by
        split
        · exact registerWith_sessions fun _ => rfl
        · exact .refl f
      generalize (if algorithmInfo.isAsync then
        f.registerCb env clientInfo.sessionId cb
        else (Retcode.success, f)) = r at hreg
      have hload := hreg.trans (.of_got (r.2.loadAlgorithm_got env server
        clientInfo algorithmInfo inputInfo outputInfo remote))
      dsimp only
      split
      · exact hreg
      · split
        · exact hload.trans (unRegisterWith_sessions fun _ => rfl)
        · exact hload

theorem clientRelease_sessions :
    SameSessions f (f.clientRelease env server clientInfo algorithmInfo
      inputInfo remote).2.1 := by
  unfold clientRelease
  split
  · exact .refl f
  · have hunreg : SameSessions f
        (if algorithmInfo.isAsync then f.unRegisterCb env clientInfo.sessionId
        else (Retcode.success, f)).2 := by
      split
      · exact unRegisterWith_sessions fun _ => rfl
      · exact .refl f
    generalize (if algorithmInfo.isAsync then
      f.unRegisterCb env clientInfo.sessionId
      else (Retcode.success, f)) = r at hunreg
    dsimp only
    split
    · exact hunreg
    · exact hunreg.trans (.of_got (r.2.unLoadAlgorithm_got ..))

/-- Without a session there is nothing to prepare or to release. -/
theorem clientPrepare_invalid (h : clientInfo.sessionId = invalidSessionId) :
    (f.clientPrepare env server clientInfo algorithmInfo inputInfo outputInfo cb
      remote).2.2.1 = f := by
  unfold clientPrepare
  rw [if_pos h]

theorem clientRelease_invalid (h : clientInfo.sessionId = invalidSessionId) :
    (f.clientRelease env server clientInfo algorithmInfo inputInfo
      remote).2.1 = f := by
  unfold clientRelease
  rw [if_pos h]

theorem ConnectionKept.runWorker (h : f.ConnectionKept) (reply : ConnectReply) :
    f.runWorker reply = f := by
  by_cases hempty : f.sessionInfos = ∅
  · rw [ClientFactory.runWorker, (h.closed hempty).1.connectMgr]
  · exact (h.opened hempty).runWorker reply

theorem ConnectionKept.onAiDead (h : f.ConnectionKept)
    (hcounter : -1 ≤ f.sessionId) :
    f.onAiDead.2.ConnectionKept ∧
      f.onAiDead.2.sessionInfos = f.sessionInfos ∧
      -1 ≤ f.onAiDead.2.sessionId := by
  unfold ClientFactory.onAiDead
  split
  · exact ⟨h, rfl, hcounter⟩
  · next c hc =>
      split
      · next hdeath =>
          have hd : f.HasDeathCb := ⟨c, hc, hdeath⟩
          have hopen (hempty : f.sessionInfos = ∅) : False :=
            (h.closed hempty).2 hd
          have hconn := h.opened hopen
          refine ⟨⟨fun hempty => (hopen hempty).elim, fun _ => ?_, h.deathCb⟩,
            rfl, Int.le_refl _⟩
          exact { hconn with clientId := show invalidUid.toInt32 ≠ _ by decide }
      · exact ⟨h, rfl, hcounter⟩

end Others

end ClientFactory

/-- The table holds the ids of the initialized infos, which are positive and
all different. -/
structure SessionTable (t : Table Int32 Int32) (info : Nat → ClientInfo) :
    Prop where
  keys : ∀ k, k ∈ t ↔ k ≠ invalidSessionId ∧ ∃ i, (info i).sessionId = k
  positive : ∀ i, (info i).sessionId ≠ invalidSessionId →
    0 < (info i).sessionId
  distinct : ∀ i j, (info i).sessionId = (info j).sessionId →
    (info i).sessionId ≠ invalidSessionId → i = j

namespace SessionTable

variable {t : Table Int32 Int32} {info : Nat → ClientInfo} {i : Nat}
  {clientInfo : ClientInfo}

theorem start (h : ∀ i, (info i).sessionId = invalidSessionId) :
    SessionTable ∅ info where
  keys := fun k => by
    refine ⟨fun hk => absurd hk Finmap.notMem_empty, ?_⟩
    rintro ⟨hne, j, rfl⟩
    exact absurd (h j) hne
  positive := fun j hne => absurd (h j) hne
  distinct := fun j _ _ hne => absurd (h j) hne

theorem insertNew (h : SessionTable t info) {v : Int32}
    (hnone : (info i).sessionId = invalidSessionId)
    (hpos : 0 < clientInfo.sessionId) (hnot : clientInfo.sessionId ∉ t) :
    SessionTable (t.insertNew clientInfo.sessionId v)
      (Function.update info i clientInfo) := by
  have hne : clientInfo.sessionId ≠ invalidSessionId := by
    intro heq
    rw [heq] at hpos
    exact absurd hpos (by decide)
  have hother (j : Nat) (hj : (info j).sessionId = clientInfo.sessionId) :
      False := hnot ((h.keys _).mpr ⟨hne, j, hj⟩)
  constructor
  · intro k
    rw [← Finmap.mem_keys, Table.keys_insertNew, Finset.mem_insert,
      Finmap.mem_keys]
    constructor
    · rintro (rfl | hk)
      · exact ⟨hne, i, by rw [Function.update_self]⟩
      · obtain ⟨hk, j, rfl⟩ := (h.keys k).mp hk
        refine ⟨hk, j, ?_⟩
        rw [Function.update_of_ne]
        rintro rfl
        exact hk hnone
    · rintro ⟨hk, j, rfl⟩
      by_cases hj : j = i
      · rw [hj, Function.update_self]
        exact .inl rfl
      · rw [Function.update_of_ne hj] at hk ⊢
        exact .inr ((h.keys _).mpr ⟨hk, j, rfl⟩)
  · intro j
    by_cases hj : j = i
    · rw [hj, Function.update_self]
      exact fun _ => hpos
    · rw [Function.update_of_ne hj]
      exact h.positive j
  · intro j k
    by_cases hj : j = i
    · by_cases hk : k = i
      · exact fun _ _ => hj.trans hk.symm
      · rw [hj, Function.update_self, Function.update_of_ne hk]
        exact fun heq => (hother k heq.symm).elim
    · by_cases hk : k = i
      · rw [hk, Function.update_self, Function.update_of_ne hj]
        exact fun heq => (hother j heq).elim
      · rw [Function.update_of_ne hj, Function.update_of_ne hk]
        exact h.distinct j k

theorem erase (h : SessionTable t info)
    (hvalid : (info i).sessionId ≠ invalidSessionId)
    (hnone : clientInfo.sessionId = invalidSessionId) :
    SessionTable (t.erase (info i).sessionId)
      (Function.update info i clientInfo) := by
  constructor
  · intro k
    rw [Finmap.mem_erase, h.keys k]
    constructor
    · rintro ⟨hne, hk, j, rfl⟩
      refine ⟨hk, j, ?_⟩
      rw [Function.update_of_ne]
      rintro rfl
      exact hne rfl
    · rintro ⟨hk, j, rfl⟩
      by_cases hj : j = i
      · rw [hj, Function.update_self] at hk
        exact absurd hnone hk
      · rw [Function.update_of_ne hj] at hk ⊢
        exact ⟨fun heq => hj (h.distinct j i heq hk), hk, j, rfl⟩
  · intro j
    by_cases hj : j = i
    · rw [hj, Function.update_self]
      exact fun hne => absurd hnone hne
    · rw [Function.update_of_ne hj]
      exact h.positive j
  · intro j k
    by_cases hj : j = i
    · rw [hj, Function.update_self]
      exact fun _ hne => absurd hnone hne
    · by_cases hk : k = i
      · rw [hk, Function.update_self, Function.update_of_ne hj]
        exact fun heq hne => absurd (heq.trans hnone) hne
      · rw [Function.update_of_ne hj, Function.update_of_ne hk]
        exact h.distinct j k

end SessionTable

section Runs

variable {σ : Type} {s : ClientSystem σ}

/-- The table is in order, and there is a connection as long as there are
sessions. -/
structure SessionsKept (s : ClientSystem σ) : Prop where
  table : SessionTable s.client.sessionInfos s.info
  counter : -1 ≤ s.client.sessionId
  connection : s.client.ConnectionKept

/-- The connection always comes up, and each session that is initialized
finds a fresh id. -/
def findsFreshIds (s : ClientSystem σ) : ClientStep σ → Prop
  | .clientInit env i _ _ =>
      (s.info i).sessionId = invalidSessionId →
      (s.client.sessionInfos = ∅ → env.ComesUp) ∧ s.client.HasFreshId
  | _ => True

namespace SessionsKept

theorem start (h : (clientMachine σ).start s) : SessionsKept s := by
  obtain ⟨hclient, hinfo⟩ := h
  refine ⟨?_, ?_, ?_⟩
  · rw [hclient]
    exact .start hinfo
  · rw [hclient]
    decide
  · rw [hclient]
    refine ⟨fun _ => ⟨⟨rfl, rfl, ?_⟩, ?_⟩, fun hne => absurd rfl hne, ?_⟩
    all_goals
      rintro ⟨c, hc, -⟩
      cases hc

theorem clientInit (h : SessionsKept s) {env : ClientEnv} {i : Nat}
    {algorithmInfo : AlgorithmInfo} {cb : Option Nat}
    (hok : findsFreshIds s (.clientInit env i algorithmInfo cb)) :
    SessionsKept (s.take (.clientInit env i algorithmInfo cb)) ∧
      0 < (s.client.clientInit env (s.info i) algorithmInfo cb).2.1.sessionId := by
  by_cases hnew : (s.info i).sessionId = invalidSessionId
  · obtain ⟨hup, hfresh⟩ := hok hnew
    obtain ⟨sessionId, hpos, hnot, rfl, hinfos, hcounter, hconn⟩ :=
      ClientFactory.clientInit_new algorithmInfo cb h.connection h.counter hfresh
        hup hnew
    refine ⟨⟨?_, hcounter, hconn⟩, hpos⟩
    show SessionTable (s.client.clientInit env (s.info i) algorithmInfo
      cb).2.2.sessionInfos (Function.update s.info i _)
    rw [hinfos]
    exact h.table.insertNew hnew hpos hnot
  · have heq : s.client.clientInit env (s.info i) algorithmInfo cb =
        (Retcode.success, s.info i, s.client) := by
      rw [ClientFactory.clientInit, if_pos hnew]
    have htake : s.take (.clientInit env i algorithmInfo cb) = s := by
      simp only [ClientSystem.take, heq, ClientSystem.setInfo,
        Function.update_eq_self]
    rw [htake, heq]
    exact ⟨h, h.table.positive i hnew⟩

theorem clientDestroy (h : SessionsKept s) (env : ClientEnv) (i : Nat) :
    SessionsKept (s.take (.clientDestroy env i)) := by
  by_cases hvalid : (s.info i).sessionId = invalidSessionId
  · have heq : s.client.clientDestroy env (s.info i) =
        (Retcode.failure, s.info i, s.client) := by
      rw [ClientFactory.clientDestroy, if_pos hvalid]
    have htake : s.take (.clientDestroy env i) = s := by
      simp only [ClientSystem.take, heq, ClientSystem.setInfo,
        Function.update_eq_self]
    rw [htake]
    exact h
  · have hmem := (h.table.keys _).mpr ⟨hvalid, i, rfl⟩
    obtain ⟨hnone, hinfos, hcounter, hconn⟩ :=
      ClientFactory.clientDestroy_known env h.connection hvalid hmem
    refine ⟨?_, ?_, hconn⟩
    · show SessionTable (s.client.clientDestroy env (s.info i)).2.2.sessionInfos
        (Function.update s.info i _)
      rw [hinfos]
      exact h.table.erase hvalid hnone
    · show -1 ≤ (s.client.clientDestroy env (s.info i)).2.2.sessionId
      rw [hcounter]
      exact h.counter

/-- A call for a session's algorithm needs the session's id, so there is a
connection, which it leaves alone. -/
theorem algorithm (h : SessionsKept s) {client : ClientFactory} {remote : σ}
    {i : Nat}
    (hnone : (s.info i).sessionId = invalidSessionId → client = s.client)
    (hsame : s.client.SameSessions client) :
    SessionsKept { s with client, remote } := by
  refine ⟨?_, ?_, ?_⟩
  · show SessionTable client.sessionInfos s.info
    rw [hsame.sessionInfos]
    exact h.table
  · show -1 ≤ client.sessionId
    rw [hsame.sessionId]
    exact h.counter
  · show client.ConnectionKept
    by_cases hvalid : (s.info i).sessionId = invalidSessionId
    · rw [hnone hvalid]
      exact h.connection
    · have hmem := (h.table.keys _).mpr ⟨hvalid, i, rfl⟩
      have hne : s.client.sessionInfos ≠ ∅ := by
        intro hempty
        rw [hempty] at hmem
        exact Finmap.notMem_empty hmem
      exact hsame.kept (h.connection.opened hne) hne h.connection.deathCb

theorem take (h : SessionsKept s) {i : ClientStep σ}
    (hok : findsFreshIds s i) : SessionsKept (s.take i) := by
  cases i with
  | clientInit env i algorithmInfo cb => exact (h.clientInit hok).1
  | clientPrepare env server i algorithmInfo inputInfo outputInfo cb =>
      exact h.algorithm (i := i) ClientFactory.clientPrepare_invalid
        ClientFactory.clientPrepare_sessions
  | clientRelease env server i algorithmInfo inputInfo =>
      exact h.algorithm (i := i) ClientFactory.clientRelease_invalid
        ClientFactory.clientRelease_sessions
  | clientDestroy env i => exact h.clientDestroy env i
  | oneAction reply =>
      have heq := h.connection.runWorker reply
      refine ⟨?_, ?_, ?_⟩
      all_goals
        simp only [ClientSystem.take, heq]
      · exact h.table
      · exact h.counter
      · exact h.connection
  | onAiDead =>
      obtain ⟨hconn, hinfos, hcounter⟩ := h.connection.onAiDead h.counter
      refine ⟨?_, hcounter, hconn⟩
      show SessionTable s.client.onAiDead.2.sessionInfos s.info
      rw [hinfos]
      exact h.table

end SessionsKept

theorem reach_sessionsKept (hs : (clientMachine σ).Reach findsFreshIds s) :
    SessionsKept s := by
  refine hs.invariant (fun s => .start) ?_
  intro s i s' h hok hstep
  cases hstep
  exact h.take hok

/-- Where each initialized session finds a fresh id, the table holds the ids
of the initialized infos, a successful call leaves a valid id, and when all
sessions were destroyed the table is empty and the connection closed. -/
theorem reach_sessionTable (hs : (clientMachine σ).Reach findsFreshIds s) :
    SessionTable s.client.sessionInfos s.info ∧
      (∀ env i algorithmInfo cb,
        findsFreshIds s (.clientInit env i algorithmInfo cb) →
        (s.client.clientInit env (s.info i) algorithmInfo cb).1 =
          Retcode.success →
        0 < (s.client.clientInit env (s.info i) algorithmInfo
          cb).2.1.sessionId) ∧
      ((∀ i, (s.info i).sessionId = invalidSessionId) →
        s.client.sessionInfos = ∅ ∧ s.client.Disconnected) := by
  have h := reach_sessionsKept hs
  refine ⟨h.table, fun env i algorithmInfo cb hok _ => (h.clientInit hok).2,
    fun hnone => ?_⟩
  have hempty : s.client.sessionInfos = ∅ := by
    refine Table.eq_empty_of_keys (Finset.eq_empty_of_forall_notMem fun k hk => ?_)
    obtain ⟨hne, i, rfl⟩ := (h.table.keys k).mp (Finmap.mem_keys.mp hk)
    exact hne (hnone i)
  exact ⟨hempty, (h.connection.closed hempty).1⟩

/-- The connection always comes up. -/
def comesUp (_ : ClientSystem σ) : ClientStep σ → Prop
  | .clientInit env _ _ _ => env.ComesUp
  | _ => True

end Runs

theorem connecting_comesUp : ClientEnv.connecting.ComesUp where
  newThreadPool := rfl
  newThread := rfl
  newConnectMgrWorker := rfl
  startThread := rfl
  newSaClient := by decide
  attempts := ⟨_, List.mem_singleton_self _, rfl, rfl, ⟨_, rfl, by decide⟩, rfl⟩

theorem reach_take {σ : Type} {s : ClientSystem σ}
    {ok : ClientSystem σ → ClientStep σ → Prop}
    (h : (clientMachine σ).Reach ok s) (i : ClientStep σ) (hok : ok s i) :
    (clientMachine σ).Reach ok (s.take i) :=
  .step h hok rfl

/-- Initialize the info. -/
def initStep (i : Nat) : ClientStep Unit :=
  .clientInit .connecting i AlgorithmInfo.zero none

/-- Where the connection comes up, a fresh id is all that an info needs. -/
theorem findsFreshIds_of (s : ClientSystem Unit) (i : Nat)
    (h : s.client.HasFreshId) : findsFreshIds s (initStep i) :=
  fun _ => ⟨fun _ => connecting_comesUp, h⟩

/-- Two infos are initialized, the first is destroyed and then initialized
again. -/
def twoInfos : List (ClientStep Unit) :=
  [initStep 0, initStep 1, .clientDestroy .connecting 0, initStep 0]

theorem twoInfos_reach :
    (clientMachine Unit).Reach findsFreshIds
      (twoInfos.foldl ClientSystem.take clientStart) := by
  have hone := reach_take (.start clientStart_start) (initStep 0)
    (findsFreshIds_of _ 0 ⟨by decide, by decide, 1, by decide, by decide,
      by decide⟩)
  have htwo := reach_take hone (initStep 1)
    (findsFreshIds_of _ 1 ⟨by decide, by decide, 2, by decide, by decide,
      by decide⟩)
  have hdestroyed := reach_take htwo (.clientDestroy .connecting 0) trivial
  exact reach_take hdestroyed (initStep 0)
    (findsFreshIds_of _ 0 ⟨by decide, by decide, 3, by decide, by decide,
      by decide⟩)

theorem reach_sessionTable_sample :
    (twoInfos.foldl ClientSystem.take clientStart).client.sessionInfos.keys =
        {2, 3} ∧
      SessionTable
        (twoInfos.foldl ClientSystem.take clientStart).client.sessionInfos
        (twoInfos.foldl ClientSystem.take clientStart).info :=
  ⟨by decide, (reach_sessionTable twoInfos_reach).1⟩

/-- After the server's death the second info gets 0. -/
theorem clientReset_not_sessionTable : ∃ s,
    (clientMachine Unit).Reach comesUp s ∧
      ¬ SessionTable s.client.sessionInfos s.info := by
  have hfirst : (clientMachine Unit).Reach comesUp _ :=
    reach_take (.start clientStart_start) (initStep 0) connecting_comesUp
  have hdead := reach_take hfirst .onAiDead trivial
  have hsecond := reach_take hdead (initStep 1) connecting_comesUp
  refine ⟨_, hsecond, fun h => ?_⟩
  exact absurd (h.positive 1 (by decide)) (by decide)

end AiEngine.Ref
