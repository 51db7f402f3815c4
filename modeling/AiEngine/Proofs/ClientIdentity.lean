import Mathlib.Logic.Relation
import AiEngine.Ref.ConnectMgr
import AiEngine.Proofs.ClientSteps

/-!
# The client's id

The client's id stands for the connection: the worker connects while it is
invalid, and who waits for a connection waits for it to be valid. Only a
worker in its loop sets a valid id, and there is at most one. `ResetClient`
breaks the rule: its last write gives the client id 0, the invalid uid, which
both take for a connection.
-/

namespace AiEngine.Ref

open AiEngine.Lib

/-- The id of the client is invalid, or the one its latest connection got; so
who finds it valid, the worker or `WaitConnection`, finds a connection. -/
structure ClientIdentity (s : ConnectState) : Prop where
  clientId : s.client.clientId = invalidClientId ∨
    ∃ id, s.latest = some id ∧ 0 < id ∧ s.client.clientId = id
  connected : ∀ n, (s.worker n).phase = .getClientId → ∀ reply s',
    s.workerStep n reply = some s' → (s'.worker n).phase = .loop →
    s.latest ≠ none
  waitConnection : (s.client.waitConnection []).1 = Retcode.success →
    s.latest ≠ none

theorem SaClient.initSaEngine_positive {env : ConnectReply}
    {clientInfo : ClientInfo}
    (hok : (initSaEngine env clientInfo).1 = Retcode.success)
    (hne : (initSaEngine env clientInfo).2.clientId ≠ invalidClientId) :
    0 < (initSaEngine env clientInfo).2.clientId := by
  revert hok hne
  unfold initSaEngine
  split
  · exact fun hok => nomatch hok
  · split
    · exact fun _ hne => absurd rfl hne
    · intro _ hne
      dsimp only at hne ⊢
      unfold initEngine at hne ⊢
      split at hne
      · exact absurd rfl hne
      · next hpos =>
          rw [if_neg hpos]
          exact Int32.not_le.mp hpos

/-- An id that the server gave is positive. -/
theorem SaClient.init_positive (c : SaClient) (env : ConnectReply)
    (clientInfo : ClientInfo)
    (hok : (c.init env clientInfo).1 = Retcode.success) :
    0 < (c.init env clientInfo).2.1.clientId := by
  revert hok
  unfold init
  split
  · exact fun hok => nomatch hok
  · dsimp only
    split
    · exact fun hok => nomatch hok
    · next hgot =>
        obtain ⟨hret, hne⟩ := not_or.mp hgot
        have hpos := initSaEngine_positive (Decidable.of_not_not hret) hne
        split
        · exact fun _ => hpos
        · exact fun _ => hpos

namespace ConnectState

variable {s s' : ConnectState} {n : Nat} {reply : ConnectReply}

theorem setWorker_self (s : ConnectState) (n : Nat) (w : ConnectThread) :
    (s.setWorker n w).worker n = w :=
  Function.update_self ..

theorem setWorker_of_ne (s : ConnectState) (w : ConnectThread) {m : Nat}
    (h : m ≠ n) : (s.setWorker n w).worker m = s.worker m :=
  Function.update_of_ne h ..

/-! ## The steps of a call

The sections of the worker, of `InitAiServer` and of `CloseAiServer`, one
access after the other, and what they come to when no other thread is in
between. -/

/-- A worker's thread goes on while the others wait. -/
def WorkerRuns (n : Nat) (reply : ConnectReply) :
    ConnectState → ConnectState → Prop :=
  Relation.ReflTransGen fun s s' => s.workerStep n reply = some s'

/-- `ResetClient` goes on while the others wait. -/
def ResetRuns : ConnectState → ConnectState → Prop :=
  Relation.ReflTransGen fun s s' => s.resetStep = some s'

theorem resetRuns_resetClient (hreset : s.reset = .clientId) :
    ResetRuns s { s with client := s.client.resetClient, reset := .idle } := by
  have hfirst : s.resetStep = some { s with
      client := { s.client with clientId := invalidClientId }
      reset := .sessionId } := by
    rw [resetStep, hreset]
  exact .head hfirst (.head rfl (.head rfl (.single rfl)))

theorem workerStep_setClientId (hphase : (s.worker n).phase = .setClientId) :
    s.workerStep n reply = some ({ s with client := { s.client with
      clientId := (s.worker n).clientInfo.clientId } }.setWorker n
        { s.worker n with phase := .setServerUid }) := by
  simp only [workerStep, hphase]

theorem workerStep_setServerUid (hphase : (s.worker n).phase = .setServerUid) :
    s.workerStep n reply = some ({ s with client := { s.client with
      serverUid := (s.worker n).clientInfo.serverUid } }.setWorker n
        { s.worker n with phase := .loop }) := by
  simp only [workerStep, hphase]

theorem workerStep_resetClientId
    (hphase : (s.worker n).phase = .resetClientId) :
    s.workerStep n reply = some ({ s with client := { s.client with
      clientId := invalidClientId } }.setWorker n
        { s.worker n with phase := .ended }) := by
  simp only [workerStep, hphase]

theorem workerRuns_uninitialize (hphase : (s.worker n).phase = .destroy) :
    ∃ s', WorkerRuns n reply s s' ∧ (s'.worker n).phase = .ended ∧
      s'.client = s.client.uninitialize reply.newSaClient := by
  unfold ClientFactory.uninitialize
  cases hgot : s.client.saClientInstance reply.newSaClient with
  | none =>
      have hend : s.workerStep n reply =
          some (s.setWorker n { s.worker n with phase := .ended }) := by
        simp only [workerStep, hphase, hgot]
      exact ⟨_, .single hend, by rw [setWorker_self], rfl⟩
  | some c =>
      have hdestroy : s.workerStep n reply = some ({ s with
          client := { s.client with saClient := some { c with proxy := false } }
          }.setWorker n { s.worker n with phase := .resetClientId }) := by
        simp only [workerStep, hphase, hgot]
      exact ⟨_, .head hdestroy (.single (workerStep_resetClientId
        (congrArg (·.phase) (setWorker_self _ n _)))),
        by rw [setWorker_self], rfl⟩

/-- What a worker's thread has done when `OneAction` returns. -/
def Acted (s s' : ConnectState) (n : Nat) (reply : ConnectReply) : Prop :=
  let w : ConnectMgrWorker := ⟨(s.worker n).clientInfo, (s.worker n).running⟩
  match s.client.oneAction w reply with
  | (goesOn, w, client) =>
      (s'.worker n).phase = (if goesOn then .loop else .destroy) ∧
        (s'.worker n).clientInfo = w.clientInfo ∧ s'.client = client

theorem workerRuns_init (reply : ConnectReply)
    (hphase : (s.worker n).phase = .init)
    (hid : ¬ s.client.clientId ≠ invalidClientId) :
    ∃ s', WorkerRuns n reply s s' ∧ Acted s s' n reply := by
  unfold Acted ClientFactory.oneAction
  dsimp only
  rw [if_neg hid]
  cases hgot : s.client.saClientInstance reply.newSaClient with
  | none =>
      have hend : s.workerStep n reply =
          some (s.setWorker n { s.worker n with phase := .destroy }) := by
        simp only [workerStep, hphase, hgot]
      refine ⟨_, .single hend, ?_⟩
      rw [setWorker_self]
      exact ⟨rfl, rfl, rfl⟩
  | some c =>
      obtain ⟨retCode, clientInfo, c', hinit⟩ : ∃ retCode clientInfo c',
          c.init reply (s.worker n).clientInfo = (retCode, clientInfo, c') :=
        ⟨_, _, _, rfl⟩
      simp only [hinit]
      by_cases hfailed : retCode ≠ Retcode.success ∨
          clientInfo.clientId = invalidClientId
      · have hback : s.workerStep n reply = some (
            { s with client := { s.client with saClient := some c' } }.setWorker
              n { s.worker n with clientInfo, phase := .loop }) := by
          simp only [workerStep, hphase, hgot, hinit, if_pos hfailed]
        refine ⟨_, .single hback, ?_⟩
        simp only [setWorker_self, if_pos hfailed, if_true]
        exact ⟨trivial, trivial, rfl⟩
      · have hgotId : s.workerStep n reply = some (
            { s with
              client := { s.client with saClient := some c' }
              latest := some clientInfo.clientId }.setWorker
                n { s.worker n with clientInfo, phase := .setClientId }) := by
          simp only [workerStep, hphase, hgot, hinit, if_neg hfailed]
        refine ⟨_, .head hgotId (.head (workerStep_setClientId
          (congrArg (·.phase) (setWorker_self _ n _))) (.single
            (workerStep_setServerUid
              (congrArg (·.phase) (setWorker_self _ n _))))), ?_⟩
        simp only [setWorker_self, if_neg hfailed, if_true]
        exact ⟨trivial, trivial, rfl⟩

/-- `OneAction` in one go, from where it looks at the client's id. -/
theorem workerRuns_oneAction (hphase : (s.worker n).phase = .getClientId) :
    ∃ s', WorkerRuns n reply s s' ∧ Acted s s' n reply := by
  by_cases hid : s.client.clientId ≠ invalidClientId
  · have hback : s.workerStep n reply =
        some (s.setWorker n { s.worker n with phase := .loop }) := by
      simp only [workerStep, hphase, if_pos hid]
    refine ⟨_, .single hback, ?_⟩
    unfold Acted ClientFactory.oneAction
    dsimp only
    rw [setWorker_self, if_pos hid]
    exact ⟨rfl, rfl, rfl⟩
  · have hcheck : s.workerStep n reply =
        some (s.setWorker n { s.worker n with phase := .init }) := by
      simp only [workerStep, hphase, if_neg hid]
    have hinit : ((s.setWorker n { s.worker n with phase := .init }).worker
        n).phase = .init := by
      rw [setWorker_self]
    obtain ⟨s', hruns, hacted⟩ := workerRuns_init reply hinit hid
    refine ⟨s', .head hcheck hruns, ?_⟩
    unfold Acted at hacted ⊢
    rw [setWorker_self] at hacted
    exact hacted

/-! ## What the threads keep

What each worker may rely on at its place in the loop, and what holds of the
id between two steps. At most one worker is active, so that a step of another
one does not take this away. -/

/-- What a worker relies on between its steps: it connects while the client's
id is invalid, and sets the id that it got last. -/
structure WorkerKept (clientId : Int32) (latest : Option Int32)
    (w : ConnectThread) : Prop where
  init : w.phase = .init → clientId = invalidClientId
  setClientId : w.phase = .setClientId → clientId = invalidClientId ∧
    latest = some w.clientInfo.clientId ∧ 0 < w.clientInfo.clientId

/-- What holds between the steps as long as no server dies. -/
structure Kept (s : ConnectState) : Prop where
  clientId : s.client.clientId = invalidClientId ∨
    s.latest = some s.client.clientId ∧ 0 < s.client.clientId
  worker : ∀ n, WorkerKept s.client.clientId s.latest (s.worker n)
  active : ∀ n, (s.worker n).phase.active → s.connectMgr = some n
  closing : ∀ n, s.closing = some n → s.connectMgr = some n
  reset : s.reset = .idle

theorem WorkerKept.of_inactive {clientId : Int32} {latest : Option Int32}
    {w : ConnectThread} (h : ¬ w.phase.active) :
    WorkerKept clientId latest w where
  init := fun hphase => absurd (hphase ▸ rfl) h
  setClientId := fun hphase => absurd (hphase ▸ rfl) h

theorem WorkerKept.invalid {clientId : Int32} {latest : Option Int32}
    {w : ConnectThread} (h : WorkerKept clientId latest w) :
    WorkerKept invalidClientId latest w where
  init := fun _ => rfl
  setClientId := fun hphase => ⟨rfl, (h.setClientId hphase).2⟩

/-- The worker in its loop is the only one, and changes what it keeps. -/
theorem Kept.active_step (h : Kept s) (hactive : (s.worker n).phase.active)
    {client : ClientFactory} {latest : Option Int32} {w : ConnectThread}
    (hid : client.clientId = invalidClientId ∨
      latest = some client.clientId ∧ 0 < client.clientId)
    (hw : WorkerKept client.clientId latest w) :
    Kept ({ s with client, latest }.setWorker n w) where
  clientId := hid
  worker := fun m => by
    by_cases hm : m = n
    · rw [hm, setWorker_self]
      exact hw
    · rw [setWorker_of_ne _ _ hm]
      refine .of_inactive fun hother => hm ?_
      have hsame := (h.active m hother).symm.trans (h.active n hactive)
      exact Option.some.inj hsame
  active := fun m hm => by
    by_cases hmn : m = n
    · rw [hmn]
      exact h.active n hactive
    · rw [setWorker_of_ne _ _ hmn] at hm
      exact h.active m hm
  closing := h.closing
  reset := h.reset

/-- A worker that left its loop can only make the id invalid. -/
theorem Kept.inactive_step (h : Kept s) {client : ClientFactory}
    {w : ConnectThread} (hw : ¬ w.phase.active)
    (hid : client.clientId = s.client.clientId ∨
      client.clientId = invalidClientId) :
    Kept ({ s with client }.setWorker n w) where
  clientId := by
    show client.clientId = invalidClientId ∨
      s.latest = some client.clientId ∧ 0 < client.clientId
    obtain hid | hid := hid
    · rw [hid]
      exact h.clientId
    · exact .inl hid
  worker := fun m => by
    by_cases hm : m = n
    · rw [hm, setWorker_self]
      exact .of_inactive hw
    · rw [setWorker_of_ne _ _ hm]
      show WorkerKept client.clientId s.latest (s.worker m)
      obtain hid | hid := hid
      · exact hid ▸ h.worker m
      · exact hid ▸ (h.worker m).invalid
  active := fun m hm => by
    by_cases hmn : m = n
    · rw [hmn, setWorker_self] at hm
      exact absurd hm hw
    · rw [setWorker_of_ne _ _ hmn] at hm
      exact h.active m hm
  closing := h.closing
  reset := h.reset

theorem Kept.workerStep (h : Kept s)
    (hstep : s.workerStep n reply = some s') : Kept s' := by
  unfold ConnectState.workerStep at hstep
  dsimp only at hstep
  have hactive {phase : WorkerPhase} (hphase : (s.worker n).phase = phase)
      (hyes : phase.active) : (s.worker n).phase.active := hphase ▸ hyes
  cases hphase : (s.worker n).phase with
  | loop =>
      rw [hphase] at hstep
      cases hstep
      refine h.active_step (hactive hphase rfl) h.clientId ?_
      split
      · exact ⟨fun heq => (nomatch heq), fun heq => (nomatch heq)⟩
      · exact .of_inactive fun heq => nomatch heq
  | getClientId =>
      rw [hphase] at hstep
      cases hstep
      refine h.active_step (hactive hphase rfl) h.clientId ?_
      split
      · exact ⟨fun heq => (nomatch heq), fun heq => (nomatch heq)⟩
      · next hinvalid =>
          exact ⟨fun _ => Decidable.of_not_not hinvalid,
            fun heq => (nomatch heq)⟩
  | init =>
      have hinvalid := (h.worker n).init hphase
      rw [hphase] at hstep
      dsimp only at hstep
      split at hstep
      · cases hstep
        exact h.inactive_step (fun hyes => nomatch hyes) (.inl rfl)
      · next c hc =>
          have hpositive := SaClient.init_positive c reply
            (s.worker n).clientInfo
          split at hstep
          · cases hstep
            refine h.active_step (hactive hphase rfl) h.clientId ?_
            exact ⟨fun heq => (nomatch heq), fun heq => (nomatch heq)⟩
          · next hgot =>
              cases hstep
              have hok := Decidable.of_not_not (not_or.mp hgot).1
              refine h.active_step (hactive hphase rfl) (.inl hinvalid) ?_
              exact ⟨fun heq => (nomatch heq),
                fun _ => ⟨hinvalid, rfl, hpositive hok⟩⟩
  | setClientId =>
      obtain ⟨-, hlatest, hpos⟩ := (h.worker n).setClientId hphase
      rw [hphase] at hstep
      cases hstep
      refine h.active_step (hactive hphase rfl) (.inr ⟨hlatest, hpos⟩) ?_
      exact ⟨fun heq => (nomatch heq), fun heq => (nomatch heq)⟩
  | setServerUid =>
      rw [hphase] at hstep
      cases hstep
      refine h.active_step (hactive hphase rfl) h.clientId ?_
      exact ⟨fun heq => (nomatch heq), fun heq => (nomatch heq)⟩
  | destroy =>
      rw [hphase] at hstep
      dsimp only at hstep
      split at hstep
      · cases hstep
        exact h.inactive_step (fun hyes => nomatch hyes) (.inl rfl)
      · cases hstep
        exact h.inactive_step (fun hyes => nomatch hyes) (.inl rfl)
  | resetClientId =>
      rw [hphase] at hstep
      cases hstep
      exact h.inactive_step (fun hyes => nomatch hyes) (.inr rfl)
  | ended =>
      rw [hphase] at hstep
      cases hstep

/-- Where the worker has left its loop, the connection can be forgotten. -/
theorem Kept.finishClose (h : Kept s) (env : ClientEnv)
    (hclosing : s.closing = none)
    (hended : ∀ n, s.connectMgr = some n → ¬ (s.worker n).phase.active) :
    Kept (s.finishClose env) := by
  unfold ConnectState.finishClose
  split
  · exact h
  · exact { h with
      active := fun n hn => absurd hn (hended n (h.active n hn))
      closing := fun n hn => nomatch hclosing.symm.trans hn }

theorem Kept.initAiServer (h : Kept s) {env : ClientEnv}
    {clientInfo : ClientInfo}
    (hstep : s.step (.initAiServer env clientInfo) = some s') : Kept s' := by
  unfold ConnectState.step at hstep
  dsimp only at hstep
  split at hstep
  · cases hstep
  · next hguard =>
      obtain ⟨hclosing, hnone⟩ := not_or.mp hguard
      have hclosing := Decidable.of_not_not hclosing
      have hinactive (n : Nat) : ¬ (s.worker n).phase.active :=
        fun hn => hnone ⟨n, h.active n hn, hn⟩
      split at hstep
      · cases hstep
        exact h
      · split at hstep
        · cases hstep
          exact { h with
            active := fun n hn => absurd hn (hinactive n)
            closing := fun n hn => nomatch hclosing.symm.trans hn }
        · cases hstep
          refine ⟨h.clientId, fun m => ?_, fun m hm => ?_,
            fun n hn => (nomatch hclosing.symm.trans hn), h.reset⟩
          · by_cases hnew : m = s.workerNum
            · rw [hnew, setWorker_self]
              exact ⟨fun heq => (nomatch heq), fun heq => (nomatch heq)⟩
            · rw [setWorker_of_ne _ _ hnew]
              exact h.worker m
          · by_cases hnew : m = s.workerNum
            · rw [hnew]
              rfl
            · rw [setWorker_of_ne _ _ hnew] at hm
              exact absurd hm (hinactive m)

theorem Kept.closeAiServer (h : Kept s) {env : ClientEnv}
    (hstep : s.step (.closeAiServer env) = some s') : Kept s' := by
  unfold ConnectState.step at hstep
  dsimp only at hstep
  split at hstep
  · cases hstep
  · next hclosing =>
      have hclosing := Decidable.of_not_not hclosing
      split at hstep
      · cases hstep
        exact h
      · next n hn =>
          split at hstep
          · next hactive =>
              cases hstep
              have hkept : Kept (s.setWorker n
                  { s.worker n with running := false }) :=
                h.active_step hactive h.clientId
                  ⟨(h.worker n).init, (h.worker n).setClientId⟩
              exact { hkept with closing := fun m hm => hm ▸ hn }
          · next hinactive =>
              cases hstep
              refine h.finishClose env hclosing fun m hm => ?_
              cases hn.symm.trans hm
              exact hinactive

theorem Kept.threadEnded (h : Kept s) {env : ClientEnv}
    (hstep : s.step (.threadEnded env) = some s') : Kept s' := by
  unfold ConnectState.step at hstep
  dsimp only at hstep
  split at hstep
  · cases hstep
  · next n hclosing =>
      split at hstep
      · next hended =>
          cases hstep
          have hkept : Kept { s with closing := none } :=
            { h with closing := fun m hm => (nomatch hm) }
          refine hkept.finishClose env rfl fun m hm hactive => ?_
          cases (h.closing n hclosing).symm.trans hm
          have hactive : (s.worker n).phase.active := hactive
          rw [hended] at hactive
          cases hactive
      · cases hstep

end ConnectState

section Runs

variable {s s' : ConnectState}

/-- No server dies. -/
def noDeath (_ : ConnectState) : ConnectStep → Prop
  | .saDeathCallback => False
  | _ => True

instance (s : ConnectState) (i : ConnectStep) : Decidable (noDeath s i) := by
  unfold noDeath
  split <;> infer_instance

theorem ConnectState.Kept.step (h : s.Kept) {i : ConnectStep}
    (hok : noDeath s i) (hstep : s.step i = some s') : s'.Kept := by
  cases i with
  | initAiServer env clientInfo => exact h.initAiServer hstep
  | worker n reply => exact h.workerStep hstep
  | closeAiServer env => exact h.closeAiServer hstep
  | threadEnded env => exact h.threadEnded hstep
  | saDeathCallback => exact hok.elim
  | resetClient =>
      have hidle : s.resetStep = none := by
        rw [ConnectState.resetStep, h.reset]
      cases hidle.symm.trans hstep

theorem reach_connectKept (hs : connectMachine.Reach noDeath s) : s.Kept := by
  refine hs.invariant ?_ fun s i s' h hok hstep => h.step hok hstep
  rintro s rfl
  exact ⟨.inl rfl, fun _ => ⟨fun heq => (nomatch heq), fun heq => (nomatch heq)⟩,
    fun _ hn => (nomatch hn), fun _ hn => (nomatch hn), rfl⟩

/-- A worker goes back to its loop from looking at the id only where it was
valid. -/
theorem getClientId_loop {n : Nat} {reply : ConnectReply}
    (hphase : (s.worker n).phase = .getClientId)
    (hstep : s.workerStep n reply = some s')
    (hloop : (s'.worker n).phase = .loop) :
    s.client.clientId ≠ invalidClientId := by
  unfold ConnectState.workerStep at hstep
  dsimp only at hstep
  rw [hphase] at hstep
  cases hstep
  rw [ConnectState.setWorker_self] at hloop
  intro hinvalid
  dsimp only at hloop
  rw [if_neg (not_not_intro hinvalid)] at hloop
  cases hloop

/-- As long as no server dies, the client's id stands for a connection. -/
theorem reach_clientIdentity (hs : connectMachine.Reach noDeath s) :
    ClientIdentity s := by
  have h := reach_connectKept hs
  have hconnected (hne : s.client.clientId ≠ invalidClientId) :
      s.latest ≠ none := by
    rw [(h.clientId.resolve_left hne).1]
    exact Option.some_ne_none _
  refine ⟨h.clientId.imp_right fun ⟨hlatest, hpos⟩ =>
    ⟨_, hlatest, hpos, rfl⟩, fun n hphase reply s' hstep hloop =>
      hconnected (getClientId_loop hphase hstep hloop), fun hwait => ?_⟩
  unfold ClientFactory.waitConnection at hwait
  dsimp only [List.foldl] at hwait
  split at hwait
  · next hne => exact hconnected hne
  · cases hwait

/-- A death that was dealt with leaves the client an id that nobody got, in
every state. -/
theorem resetClient_not_clientIdentity (hlast : s.reset = .clientIdAgain)
    (hstep : s.step .resetClient = some s') : ¬ ClientIdentity s' := by
  have hreset : s.resetStep = some s' := hstep
  rw [ConnectState.resetStep, hlast] at hreset
  cases hreset
  have hvalid : invalidUid.toInt32 ≠ invalidClientId := by decide
  have hzero : ¬ 0 < invalidUid.toInt32 := by decide
  intro h
  obtain hid | ⟨id, -, hpos, rfl⟩ := h.clientId
  · exact hvalid hid
  · exact hzero hpos

end Runs

/-- The worker is started and connects with id 1. -/
def connected : List ConnectStep :=
  .initAiServer .connecting ClientInfo.zero ::
    List.replicate 5 (.worker 0 ⟨true, true, true, some (1, 0), true⟩)

theorem reach_clientIdentity_sample : ∃ s,
    connectMachine.run noDeath .initial connected = some s ∧
      ClientIdentity s := by
  have hrun : (connectMachine.run noDeath .initial connected).isSome := by
    decide
  obtain ⟨s, hs⟩ := Option.isSome_iff_exists.mp hrun
  exact ⟨s, hs, reach_clientIdentity (.of_run (.start rfl) hs)⟩

/-- After the server's death the client has id 0 without a connection, and
`WaitConnection` reports success. -/
theorem death_not_clientIdentity : ∃ s,
    connectMachine.Reach Machine.anyStep s ∧ ¬ ClientIdentity s := by
  have hrun : (connectMachine.run Machine.anyStep .initial
      (connected ++ .saDeathCallback :: List.replicate 4 .resetClient)).map
        (fun s => ((s.client.waitConnection []).1, s.latest)) =
      some (Retcode.success, none) := by decide
  obtain ⟨s, hs, heq⟩ := Option.map_eq_some_iff.mp hrun
  obtain ⟨hwait, hlatest⟩ := Prod.mk.inj heq
  exact ⟨s, .of_run (.start rfl) hs,
    fun h => h.waitConnection hwait hlatest⟩

end AiEngine.Ref
