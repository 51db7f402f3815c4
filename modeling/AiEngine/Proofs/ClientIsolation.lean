import AiEngine.Lib.Registry
import AiEngine.Proofs.CallbackRegistration
import AiEngine.Proofs.ClientIds
import AiEngine.Proofs.LoadFailures

/-!
# Clients leave each other alone

The sessions of all clients go through one engine manager, one factory and one
handler of callbacks, and sessions with the same algorithm share an engine.
What keeps them apart are the transaction ids, which tell the client, and that
an engine is destroyed only when no map holds it: another client may take its
session from a shared engine and even make its count 0, and the engine stays
what it is for those that still have it.

So what the server holds of a client, session by session, is the same after
any requests of the others, whatever those meet and wherever they fail.
-/

namespace AiEngine.Ref

open AiEngine.Lib

/-! ## The engine of a session

What a session holds of the engine manager: the engine under its transaction
id and the plugin of that engine. A request for another transaction can count
the engine up and down, but not drop it. -/

/-- An engine as a session finds it: all but the count of its sessions. -/
structure EngineHeld where
  engine : Nat
  plugin : Plugin
  thread : Nat
  queue : Nat
  msgHandler : Option MsgHandler
  deriving DecidableEq

def Engine.held (x : Engine) (e : Nat) : EngineHeld :=
  ⟨e, x.plugin, x.thread, x.queue, x.msgHandler⟩

namespace Server

/-- The engine the manager has for a transaction. -/
def held (s : Server) (tid : Int64) : Option EngineHeld :=
  (s.findEngine tid).bind fun e => (s.engine.lookup e).map fun x => x.held e

variable {s s' : Server} {env : Env} {tid tid' : Int64} {e : Nat} {x : Engine}

theorem held_of_same (hfind : s'.findEngine tid = s.findEngine tid)
    (hengine : ∀ e, s.findEngine tid = some e →
      s'.engine.lookup e = s.engine.lookup e) :
    s'.held tid = s.held tid := by
  unfold held
  rw [hfind]
  cases he : s.findEngine tid with
  | none => rfl
  | some e => rw [Option.bind_some, Option.bind_some, hengine e he]

theorem held_dropEngine (s : Server) (env : Env) (e : Nat) (tid : Int64) :
    (s.dropEngine env e).held tid = s.held tid := by
  obtain ⟨-, hclients, -, -, hheld, -⟩ := s.dropEngine_frame env e
  refine held_of_same (by rw [findEngine, hclients, findEngine]) ?_
  intro e' he'
  exact hheld e' (isHeld_clients he')

theorem held_setRefCount (hx : s.engine.lookup e = some x) (n : Int32)
    (tid : Int64) : (s.setRefCount e x n).held tid = s.held tid := by
  have hfind : (s.setRefCount e x n).findEngine tid = s.findEngine tid := rfl
  unfold held
  rw [hfind]
  cases he : s.findEngine tid with
  | none => rfl
  | some e' =>
      simp only [Option.bind_some, setRefCount, Table.lookup_insert_if]
      split
      · next heq =>
          rw [heq, hx]
          rfl
      · rfl

theorem held_recordClient (env : Env) (e : Nat) (hne : tid' ≠ tid) :
    (s.recordClient env tid e).held tid' = s.held tid' := by
  have hrecorded : { s with
      clientEngines := s.clientEngines.insert tid e }.held tid' =
        s.held tid' := by
    refine held_of_same ?_ fun _ _ => rfl
    simp only [findEngine, Table.lookup_insert_if, if_neg hne]
  unfold recordClient
  dsimp only
  split
  · exact hrecorded
  · rw [held_dropEngine, hrecorded]

theorem held_unRecordClient (hne : tid' ≠ tid) :
    (s.unRecordClient tid).held tid' = s.held tid' := by
  refine held_of_same ?_ fun _ _ => rfl
  simp only [findEngine, unRecordClient, Table.lookup_erase_if, if_neg hne]

theorem held_prepareEngine (env : Env) (e : Nat) (input output : DataInfo)
    (hne : tid' ≠ tid) :
    (s.prepareEngine env tid e input output).2.2.held tid' = s.held tid' := by
  unfold prepareEngine
  split
  · rfl
  · next x hx =>
      dsimp only
      split
      · rfl
      · rw [held_recordClient env e hne, held_setRefCount hx]

theorem held_createEngine (h : Handled s) (env : Env) (key : EngineKey)
    (tid : Int64) : (s.createEngine env key).2.2.held tid = s.held tid := by
  have hr := s.createEngine_created env key
  refine held_of_same (by rw [findEngine, hr.clientEngines, findEngine]) ?_
  intro e he
  cases hnew : (s.createEngine env key).2.1 with
  | none => rw [(hr.none hnew).2.1]
  | some e₁ =>
      obtain ⟨hnum, -, hothers, -⟩ := hr.some e₁ hnew
      refine hothers e fun heq => ?_
      obtain ⟨x, hx, -⟩ := h.clients tid e he
      have hlt := h.engine_lt hx
      omega

theorem held_startEngine (h : Handled s) (env : Env) (algoInfo : AlgorithmInfo)
    (input output : DataInfo) (hne : tid' ≠ tid) :
    (s.startEngine env tid algoInfo input output).2.2.held tid' =
      s.held tid' := by
  unfold startEngine
  dsimp only
  split
  · rfl
  · generalize (⟨getAlgorithmIdByType algoInfo.algorithmType,
      algoInfo.algorithmVersion⟩ : EngineKey) = key
    split
    · exact held_prepareEngine env _ input output hne
    · next hnone =>
        have hcreated := held_createEngine h env key tid'
        unfold createEngineWithCheck
        simp only [hnone]
        generalize s.createEngine env key = r at hcreated ⊢
        obtain ⟨retCode, created, t⟩ := r
        cases created with
        | none => exact hcreated
        | some e =>
            by_cases hok : retCode = Retcode.success
            · simp only [hok, ne_eq, not_true, if_false]
              rw [held_prepareEngine env e input output hne]
              exact hcreated
            · simp only [hok, ne_eq, not_false_eq_true, if_true]
              rw [held_dropEngine]
              exact hcreated

theorem held_unloadEngine (env : Env) (hx : s.engine.lookup e = some x)
    (hne : tid' ≠ tid) :
    (s.unloadEngine env tid e x).2.held tid' = s.held tid' := by
  have hset := held_setRefCount hx (x.refCount - 1) tid'
  unfold unloadEngine
  dsimp only
  split
  · split
    · exact hset
    · dsimp only
      rw [held_dropEngine, held_unRecordClient hne]
      exact hset
  · dsimp only
    rw [held_dropEngine, held_unRecordClient hne]
    exact hset

theorem held_stopEngine (s : Server) (env : Env) (input : DataInfo)
    (hne : tid' ≠ tid) :
    (s.stopEngine env tid input).server.held tid' = s.held tid' := by
  unfold stopEngine
  split
  · rfl
  · split
    · rfl
    · next hx =>
        dsimp only
        split
        · rfl
        · exact held_unloadEngine env hx hne

theorem held_stopEngines (s : Server) (env : Env) {tids : List Int64}
    (hne : tid' ∉ tids) :
    (Service.stopEngines s env tids).held tid' = s.held tid' := by
  induction tids generalizing s with
  | nil => rfl
  | cons tid tids ih =>
      have hhead : tid' ≠ tid := fun heq => hne (heq ▸ List.mem_cons_self ..)
      have htail : tid' ∉ tids := fun hin => hne (List.mem_cons_of_mem _ hin)
      rw [Service.stopEngines, ih _ htail, held_stopEngine s env _ hhead]

end Server

/-! ## The listener of a transaction

The factory files a listener under the transaction it was registered for, so
that registering and unregistering another one does not find it. -/

namespace FutureFactory

variable {f : FutureFactory} {tid t : Int64}

/-- The listener that the responses of a transaction go to. -/
def held (f : FutureFactory) (tid : Int64) : Option FutureListener :=
  Registry.find f.listeners f.listener tid

/-- Each listener is filed under one transaction. -/
def Filed (f : FutureFactory) : Prop :=
  Registry f.listeners f.listener f.listenerNum

/-- What is done with futures is no business of the listeners. -/
structure SameListeners (f f' : FutureFactory) : Prop where
  listeners : f'.listeners = f.listeners
  listener : f'.listener = f.listener
  listenerNum : f'.listenerNum = f.listenerNum

namespace SameListeners

variable {f' f'' : FutureFactory}

theorem trans (h : SameListeners f f') (h' : SameListeners f' f'') :
    SameListeners f f'' :=
  ⟨h'.listeners.trans h.listeners, h'.listener.trans h.listener,
    h'.listenerNum.trans h.listenerNum⟩

theorem filed (h : SameListeners f f') (hf : f.Filed) : f'.Filed := by
  rw [Filed, h.listeners, h.listener, h.listenerNum]
  exact hf

theorem held (h : SameListeners f f') (tid : Int64) :
    f'.held tid = f.held tid := by
  rw [FutureFactory.held, FutureFactory.held, h.listeners, h.listener]

theorem getInstance {alloc has : Bool}
    (hgot : f.getInstance alloc = (has, f')) : SameListeners f f' := by
  unfold FutureFactory.getInstance at hgot
  split at hgot <;> cases hgot <;> exact ⟨rfl, rfl, rfl⟩

theorem createFuture (f : FutureFactory) (newFuture : Bool) (request : Nat)
    (tid : Int64) :
    SameListeners f (f.createFuture newFuture request tid).2.2 := by
  have hfind : SameListeners f f.findSequenceId.2 := by
    unfold findSequenceId
    split <;> exact ⟨rfl, rfl, rfl⟩
  unfold FutureFactory.createFuture
  dsimp only
  split
  · exact hfind
  · split
    · exact hfind
    · exact hfind.trans ⟨rfl, rfl, rfl⟩

theorem deleteFuture (f : FutureFactory) (sequenceId : Int) :
    SameListeners f (f.deleteFuture sequenceId) := by
  unfold FutureFactory.deleteFuture
  split <;> exact ⟨rfl, rfl, rfl⟩

end SameListeners

theorem held_registerListener (h : f.Filed) (c : Int32) (hne : t ≠ tid) :
    (f.registerListener c tid).held t = f.held t :=
  Registry.find_insert h _ hne

theorem held_unregisterListener (h : f.Filed) (hne : t ≠ tid) :
    (f.unregisterListener tid).held t = f.held t := by
  unfold unregisterListener
  split
  · rfl
  · next n hn => exact Registry.find_erase h hn hne

theorem filed_unregisterListener (h : f.Filed) (tid : Int64) :
    (f.unregisterListener tid).Filed := by
  unfold unregisterListener
  split
  · exact h
  · next n hn => exact Registry.erase h hn

end FutureFactory

namespace SaAsyncHandler

variable {h h' h'' : SaAsyncHandler} {f f' : FutureFactory} {c d : Int32}

/-- The handler of a client. -/
def held (h : SaAsyncHandler) (c : Int32) : Option ClientListenerHandler :=
  Registry.find h.clients h.handler c

/-- Each handler is filed under one client. -/
def Filed (h : SaAsyncHandler) : Prop :=
  Registry h.clients h.handler h.handlerNum

/-- Nothing but the callbacks of one transaction changes. -/
structure BesideTransaction (tid : Int64) (h h' : SaAsyncHandler)
    (f f' : FutureFactory) : Prop where
  filed : f.Filed → f'.Filed
  listener : f.Filed → ∀ t, t ≠ tid → f'.held t = f.held t
  started : ∀ t, t ≠ tid → (t ∈ h'.transactions ↔ t ∈ h.transactions)
  clients : h'.clients = h.clients
  handler : h'.handler = h.handler
  handlerNum : h'.handlerNum = h.handlerNum

theorem BesideTransaction.refl (tid : Int64) (h : SaAsyncHandler)
    (f : FutureFactory) : BesideTransaction tid h h f f :=
  ⟨id, fun _ _ _ => rfl, fun _ _ => Iff.rfl, rfl, rfl, rfl⟩

theorem startAsyncTransaction_beside (h : SaAsyncHandler) (f : FutureFactory)
    (env : CallbackEnv) (tid : Int64) (c : Int32) :
    BesideTransaction tid h (h.startAsyncTransaction f env tid c).2.1 f
      (h.startAsyncTransaction f env tid c).2.2 := by
  have hstarted (t : Int64) (hne : t ≠ tid) :
      t ∈ insert tid h.transactions ↔ t ∈ h.transactions := by
    simp [hne]
  unfold startAsyncTransaction
  split
  · exact .refl tid h f
  · split
    · exact .refl tid h f
    · dsimp only
      split
      · next f' hgot =>
          have hsame := FutureFactory.SameListeners.getInstance hgot
          exact ⟨hsame.filed, fun _ t _ => hsame.held t, hstarted, rfl, rfl,
            rfl⟩
      · next f' hgot =>
          have hsame := FutureFactory.SameListeners.getInstance hgot
          refine ⟨fun hf => Registry.insert (hsame.filed hf) tid _,
            fun hf t hne => ?_, hstarted, rfl, rfl, rfl⟩
          rw [FutureFactory.held_registerListener (hsame.filed hf) c hne,
            hsame.held t]

theorem stopAsyncTransaction_beside (h : SaAsyncHandler) (f : FutureFactory)
    (env : CallbackEnv) (tid : Int64) :
    BesideTransaction tid h (h.stopAsyncTransaction f env tid).1 f
      (h.stopAsyncTransaction f env tid).2 := by
  have hstarted (t : Int64) (hne : t ≠ tid) :
      t ∈ h.transactions.erase tid ↔ t ∈ h.transactions := by
    simp [hne]
  unfold stopAsyncTransaction
  split
  · dsimp only
    split
    · next f' hgot =>
        have hsame := FutureFactory.SameListeners.getInstance hgot
        exact ⟨hsame.filed, fun _ t _ => hsame.held t, hstarted, rfl, rfl,
          rfl⟩
    · next f' hgot =>
        have hsame := FutureFactory.SameListeners.getInstance hgot
        refine ⟨fun hf =>
            FutureFactory.filed_unregisterListener (hsame.filed hf) tid,
          fun hf t hne => ?_, hstarted, rfl, rfl, rfl⟩
        rw [FutureFactory.held_unregisterListener (hsame.filed hf) hne,
          hsame.held t]
  · exact .refl tid h f

/-- Nothing but the handler of one client changes. -/
structure BesideClient (d : Int32) (h h' : SaAsyncHandler) : Prop where
  filed : h.Filed → h'.Filed
  handler : h.Filed → ∀ c, c ≠ d → h'.held c = h.held c
  transactions : h'.transactions = h.transactions

namespace BesideClient

theorem refl (d : Int32) (h : SaAsyncHandler) : BesideClient d h h :=
  ⟨id, fun _ _ _ => rfl, rfl⟩

theorem trans (hh : BesideClient d h h') (hh' : BesideClient d h' h'') :
    BesideClient d h h'' where
  filed := fun hf => hh'.filed (hh.filed hf)
  handler := fun hf c hne =>
    (hh'.handler (hh.filed hf) c hne).trans (hh.handler hf c hne)
  transactions := hh'.transactions.trans hh.transactions

theorem getInstance {alloc : Bool} (hgot : h.getInstance alloc = (true, h')) :
    BesideClient d h h' := by
  unfold SaAsyncHandler.getInstance at hgot
  split at hgot <;> cases hgot <;> exact ⟨id, fun _ _ _ => rfl, rfl⟩

theorem registerAsyncHandler (h : SaAsyncHandler) (env : CallbackEnv)
    (d : Int32) : BesideClient d h (h.registerAsyncHandler env d) := by
  unfold SaAsyncHandler.registerAsyncHandler
  split
  · exact refl d h
  · unfold addClientListenerHandler
    split
    · exact refl d h
    · exact ⟨fun hf => Registry.insert hf d _,
        fun hf _ hne => Registry.find_insert hf _ hne, rfl⟩

theorem update {o : Nat} {handler : ClientListenerHandler}
    (hd : h.findClientListenerHandler d = some o)
    (handler' : ClientListenerHandler)
    (ho : h.handler.lookup o = some handler) :
    BesideClient d h { h with handler := h.handler.insert o handler' } :=
  ⟨fun hf => Registry.update hf (Table.mem_of_lookup ho) _,
    fun hf _ hne => Registry.find_update hf hd _ hne, rfl⟩

theorem startAsyncProcess (h : SaAsyncHandler) (pools : Pools Task) (env : Env)
    (cenv : CallbackEnv) (d : Int32) :
    BesideClient d h (h.startAsyncProcess pools env cenv d).2.1 := by
  unfold SaAsyncHandler.startAsyncProcess
  split
  · exact refl d h
  · next o hd =>
      split
      · exact refl d h
      · next handler ho =>
          split
          · exact refl d h
          · split
            · exact refl d h
            · split
              · exact refl d h
              · split
                · exact refl d h
                · dsimp only
                  split
                  · exact refl d h
                  · exact update hd _ ho

theorem removeClientListenerHandler (h : SaAsyncHandler) (d : Int32) :
    BesideClient d h (h.removeClientListenerHandler d) := by
  unfold SaAsyncHandler.removeClientListenerHandler
  split
  · exact refl d h
  · next o hd =>
      exact ⟨fun hf => Registry.erase hf hd,
        fun hf _ hne => Registry.find_erase hf hd hne, rfl⟩

theorem stopAsyncProcess (h : SaAsyncHandler) (pools : Pools Task) (env : Env)
    (d : Int32) : BesideClient d h (h.stopAsyncProcess pools env d).1 := by
  unfold SaAsyncHandler.stopAsyncProcess
  split <;> exact removeClientListenerHandler h d

end BesideClient

end SaAsyncHandler

/-- A session: its engine, whether it was started for callbacks, and who its
responses go to. -/
structure SessionHeld where
  engine : Option EngineHeld
  started : Bool
  listener : Option FutureListener
  deriving DecidableEq

/-- A client: its adapter, its handler, and its sessions. -/
structure ClientHeld where
  adapter : Option SaServerAdapter
  handler : Option ClientListenerHandler
  session : Int32 → SessionHeld

def Service.heldSession (s : Service) (tid : Int64) : SessionHeld where
  engine := s.server.held tid
  started := decide (tid ∈ s.asyncHandler.transactions)
  listener := s.factory.held tid

def Service.held (s : Service) (c : Int32) : ClientHeld where
  adapter := s.findAdapter c
  handler := s.asyncHandler.held c
  session := fun sid => s.heldSession (getTransactionId c sid)

/-- Adapters have the ids they are filed under and sessions of those clients
only, and the objects of the callbacks are filed once. -/
structure Service.Filed (s : Service) : Prop where
  named : ∀ d a, s.findAdapter d = some a → a.adapterId = d
  sessions : ∀ d a, s.findAdapter d = some a → ∀ tid ∈ a.transactionIds,
    belongsTo tid d
  factory : s.factory.Filed
  asyncHandler : s.asyncHandler.Filed

/-- Nothing changes but what is a client's own. -/
structure Beside (d : Int32) (s s' : Service) : Prop where
  filed : s'.Filed
  adapter : ∀ c, c ≠ d → s'.findAdapter c = s.findAdapter c
  handler : ∀ c, c ≠ d → s'.asyncHandler.held c = s.asyncHandler.held c
  session : ∀ tid, ¬ belongsTo tid d → s'.heldSession tid = s.heldSession tid

namespace Beside

variable {c d : Int32} {s s' s'' : Service} {tid : Int64} {a : SaServerAdapter}
  {env : ServiceEnv}

theorem refl (d : Int32) (hs : s.Filed) : Beside d s s :=
  ⟨hs, fun _ _ => rfl, fun _ _ => rfl, fun _ _ => rfl⟩

theorem trans (h : Beside d s s') (h' : Beside d s' s'') : Beside d s s'' where
  filed := h'.filed
  adapter := fun c hne => (h'.adapter c hne).trans (h.adapter c hne)
  handler := fun c hne => (h'.handler c hne).trans (h.handler c hne)
  session := fun tid hne => (h'.session tid hne).trans (h.session tid hne)

theorem held (h : Beside d s s') (hne : c ≠ d) : s'.held c = s.held c := by
  unfold Service.held
  rw [h.adapter c hne, h.handler c hne]
  congr 1
  funext sid
  refine h.session _ fun hin => hne ?_
  exact belongsTo_getTransactionId.mp hin

/-! ## The parts of the service

Each part of the service is replaced by one that is beside the client: it
holds the same of it. These steps compose, so that a request is the sequence
of its parts. -/

theorem withServer (hs : s.Filed) {server : Server}
    (hheld : ∀ tid, ¬ belongsTo tid d → server.held tid = s.server.held tid) :
    Beside d s { s with server } := by
  refine ⟨⟨hs.named, hs.sessions, hs.factory, hs.asyncHandler⟩,
    fun _ _ => rfl, fun _ _ => rfl, fun tid hne => ?_⟩
  simp only [Service.heldSession, hheld tid hne]

/-- The adapter is replaced by one with the same id and sessions of the same
client. -/
theorem withAdapter (hs : s.Filed) (hname : a.adapterId = d)
    (hsessions : ∀ tid ∈ a.transactionIds, belongsTo tid d) :
    Beside d s { s with adapters := s.adapters.insert d a } := by
  have hfind (c : Int32) (b : SaServerAdapter)
      (hb : (s.adapters.insert d a).lookup c = some b) :
      (c = d ∧ b = a) ∨ s.findAdapter c = some b := by
    rw [Table.lookup_insert_if] at hb
    split at hb
    · next heq => exact .inl ⟨heq, (Option.some.inj hb).symm⟩
    · exact .inr hb
  refine ⟨⟨?_, ?_, hs.factory, hs.asyncHandler⟩, fun c hne => ?_,
    fun _ _ => rfl, fun _ _ => rfl⟩
  · intro c b hb
    rcases hfind c b hb with ⟨heq, hba⟩ | hold
    · rw [heq, hba]
      exact hname
    · exact hs.named c b hold
  · intro c b hb
    rcases hfind c b hb with ⟨heq, hba⟩ | hold
    · rw [heq, hba]
      exact hsessions
    · exact hs.sessions c b hold
  · simp only [Service.findAdapter, Table.lookup_insert_if, if_neg hne]

theorem withoutAdapter (hs : s.Filed) (d : Int32) :
    Beside d s { s with adapters := s.adapters.erase d } := by
  have hfind (c : Int32) (b : SaServerAdapter)
      (hb : (s.adapters.erase d).lookup c = some b) :
      s.findAdapter c = some b := by
    rw [Table.lookup_erase_if] at hb
    split at hb
    · cases hb
    · exact hb
  refine ⟨⟨fun c b hb => hs.named c b (hfind c b hb),
    fun c b hb => hs.sessions c b (hfind c b hb), hs.factory,
    hs.asyncHandler⟩, fun c hne => ?_, fun _ _ => rfl, fun _ _ => rfl⟩
  simp only [Service.findAdapter, Table.lookup_erase_if, if_neg hne]

theorem withTransaction (hs : s.Filed) {h : SaAsyncHandler}
    {f : FutureFactory} (htid : belongsTo tid d)
    (hb : SaAsyncHandler.BesideTransaction tid s.asyncHandler h s.factory f) :
    Beside d s { s with asyncHandler := h, factory := f } := by
  have hne {t : Int64} (ht : ¬ belongsTo t d) : t ≠ tid :=
    fun heq => ht (heq ▸ htid)
  refine ⟨⟨hs.named, hs.sessions, hb.filed hs.factory, ?_⟩, fun _ _ => rfl,
    fun c _ => ?_, fun t ht => ?_⟩
  · rw [SaAsyncHandler.Filed, hb.clients, hb.handler, hb.handlerNum]
    exact hs.asyncHandler
  · simp only [SaAsyncHandler.held, hb.clients, hb.handler]
  · simp only [Service.heldSession, hb.listener hs.factory t (hne ht),
      hb.started t (hne ht)]

theorem withHandler (hs : s.Filed) {h : SaAsyncHandler}
    (hb : SaAsyncHandler.BesideClient d s.asyncHandler h) :
    Beside d s { s with asyncHandler := h } := by
  refine ⟨⟨hs.named, hs.sessions, hs.factory, hb.filed hs.asyncHandler⟩,
    fun _ _ => rfl, hb.handler hs.asyncHandler, fun t _ => ?_⟩
  simp only [Service.heldSession, hb.transactions]

end Beside

/-- A step that is no business of any client. -/
structure BesideAll (s s' : Service) : Prop where
  adapters : s'.adapters = s.adapters
  asyncHandler : s'.asyncHandler = s.asyncHandler
  server : ∃ pools, s'.server = { s.server with pools }
  factory : FutureFactory.SameListeners s.factory s'.factory

namespace BesideAll

variable {s s' s'' : Service}

theorem refl (s : Service) : BesideAll s s :=
  ⟨rfl, rfl, ⟨s.server.pools, rfl⟩, rfl, rfl, rfl⟩

theorem trans (h : BesideAll s s') (h' : BesideAll s' s'') :
    BesideAll s s'' where
  adapters := h'.adapters.trans h.adapters
  asyncHandler := h'.asyncHandler.trans h.asyncHandler
  server := by
    obtain ⟨pools, hpools⟩ := h.server
    obtain ⟨pools', hpools'⟩ := h'.server
    exact ⟨pools', by rw [hpools', hpools]⟩
  factory := h.factory.trans h'.factory

theorem heldSession (h : BesideAll s s') (tid : Int64) :
    s'.heldSession tid = s.heldSession tid := by
  obtain ⟨pools, hpools⟩ := h.server
  simp only [Service.heldSession, h.asyncHandler, h.factory.held tid,
    hpools]
  rfl

theorem held (h : BesideAll s s') (c : Int32) : s'.held c = s.held c := by
  simp only [Service.held, Service.findAdapter, h.adapters, h.asyncHandler,
    h.heldSession]

theorem beside (h : BesideAll s s') (hs : s.Filed) (d : Int32) :
    Beside d s s' := by
  have hfind (c : Int32) : s'.findAdapter c = s.findAdapter c := by
    rw [Service.findAdapter, h.adapters, Service.findAdapter]
  refine ⟨⟨?_, ?_, h.factory.filed hs.factory, ?_⟩, fun c _ => hfind c,
    fun c _ => ?_, fun tid _ => h.heldSession tid⟩
  · exact fun c a ha => hs.named c a (hfind c ▸ ha)
  · exact fun c a ha => hs.sessions c a (hfind c ▸ ha)
  · rw [h.asyncHandler]
    exact hs.asyncHandler
  · rw [h.asyncHandler]

theorem withPools (s : Service) (pools : Pools Task) :
    BesideAll s { s with server := { s.server with pools } } :=
  ⟨rfl, rfl, ⟨pools, rfl⟩, rfl, rfl, rfl⟩

theorem withCounter (s : Service) (n : Int) :
    BesideAll s { s with clientIdAtomic := n } :=
  ⟨rfl, rfl, ⟨s.server.pools, rfl⟩, rfl, rfl, rfl⟩

theorem getExecutor {alloc has : Bool}
    (hexec : s.getExecutor alloc = (has, s')) : BesideAll s s' := by
  obtain ⟨rfl, -⟩ := Service.getExecutor_eq hexec
  exact ⟨rfl, rfl, ⟨s.server.pools, rfl⟩, rfl, rfl, rfl⟩

theorem asyncSendRequest (pools : Pools Task) (f : FutureFactory)
    (env : ServiceEnv) (queue : Nat) (handler : MsgHandler)
    (request : Request) (n : Nat) :
    FutureFactory.SameListeners f
      (asyncSendRequest pools f env queue handler request n).2.2 := by
  unfold Ref.asyncSendRequest
  split
  · exact ⟨rfl, rfl, rfl⟩
  · split
    · next hgot => exact .getInstance hgot
    · next f' hgot =>
        have hsame := FutureFactory.SameListeners.getInstance hgot
        have hcreate := FutureFactory.SameListeners.createFuture f'
          env.newFuture n request.transactionId
        split
        · next hr =>
            rw [hr] at hcreate
            exact hsame.trans hcreate
        · next hr =>
            rw [hr] at hcreate
            split <;> exact hsame.trans hcreate

theorem engineSyncExecute (s : Service) (x : Engine) (request : Request) :
    BesideAll s (s.engineSyncExecute x request).2 := by
  unfold Service.engineSyncExecute
  split
  · exact refl s
  · dsimp only
    split <;> exact ⟨rfl, rfl, ⟨_, rfl⟩, rfl, rfl, rfl⟩

theorem engineAsyncExecute (s : Service) (env : ServiceEnv) (x : Engine)
    (request : Request) :
    BesideAll s (s.engineAsyncExecute env x request).2 := by
  unfold Service.engineAsyncExecute
  split
  · exact refl s
  · next handler _ =>
      have hsame := asyncSendRequest s.server.pools s.factory env x.queue
        handler request s.requestNum
      dsimp only
      split <;> exact ⟨rfl, rfl, ⟨_, rfl⟩, hsame⟩

/-- An execution request puts a task on a queue, and at most a future beside
it. -/
theorem execAlgo (s : Service) (kind : MsgHandler) (env : ServiceEnv)
    (clientInfo : ClientInfo) (algoInfo : AlgorithmInfo) (input : DataInfo) :
    BesideAll s (s.execAlgo kind env clientInfo algoInfo input).2 := by
  have hnumber (t : Service) (n : Nat) :
      BesideAll t { t with requestNum := n } :=
    ⟨rfl, rfl, ⟨t.server.pools, rfl⟩, rfl, rfl, rfl⟩
  cases kind with
  | sync =>
      unfold Service.execAlgo Service.syncExecAlgo
      simp only
      split
      · exact refl s
      · split
        · exact refl s
        · unfold Service.adapterSyncExecute
          split
          · exact refl s
          · dsimp only
            split
            · next hexec => exact getExecutor hexec
            · next t hexec =>
                have ht := getExecutor hexec
                split
                · exact ht
                · exact ht.trans ((hnumber t _).trans
                    (engineSyncExecute _ _ _))
  | async =>
      unfold Service.execAlgo Service.asyncExecAlgo
      simp only
      split
      · exact refl s
      · split
        · exact refl s
        · unfold Service.adapterAsyncExecute
          split
          · next hexec => exact getExecutor hexec
          · next t hexec =>
              have ht := getExecutor hexec
              split
              · exact ht
              · dsimp only
                split
                · exact ht
                · exact ht.trans ((hnumber t _).trans
                    (engineAsyncExecute _ env _ _))

theorem popFront (s : Service) (queue : Nat) :
    BesideAll s (s.take (.popFront queue)) := withPools s _

theorem deleteFuture (s : Service) (sequenceId : Int) :
    BesideAll s (s.take (.deleteFuture sequenceId)) :=
  ⟨rfl, rfl, ⟨s.server.pools, rfl⟩, .deleteFuture s.factory sequenceId⟩

end BesideAll

/-- Whose request a step is, if it is anybody's. -/
def ServiceStep.client : ServiceStep → Option Int32
  | .generateClient _ => none
  | .removeAdapter _ clientId => some clientId
  | .loadAlgo _ clientInfo .. => some clientInfo.clientId
  | .unloadAlgo _ clientInfo .. => some clientInfo.clientId
  | .registerCallback _ clientId => some clientId
  | .unregisterCallback _ clientId => some clientId
  | .execAlgo _ _ clientInfo .. => some clientInfo.clientId
  | .popFront _ => none
  | .deleteFuture _ => none

namespace Beside

variable {c d : Int32} {s s' : Service} {tid : Int64} {a : SaServerAdapter}

/-- The transactions of an adapter that is found are its client's. -/
theorem belongsTo_own (hs : s.Filed) (ha : s.findAdapter d = some a)
    (sid : Int32) : belongsTo (getTransactionId a.adapterId sid) d :=
  belongsTo_getTransactionId.mpr (hs.named d a ha)

theorem ne_of_belongsTo {t : Int64} (htid : belongsTo tid d)
    (ht : ¬ belongsTo t d) : t ≠ tid := fun heq => ht (heq ▸ htid)

theorem saveTransaction_sessions
    (hsessions : ∀ t ∈ a.transactionIds, belongsTo t d)
    (htid : belongsTo tid d) :
    ∀ t ∈ (Service.saveTransaction a tid).transactionIds, belongsTo t d := by
  intro t ht
  unfold Service.saveTransaction at ht
  split at ht
  · exact hsessions t ht
  · rcases (List.mem_orderedInsert ..).mp ht with heq | hin
    · exact heq ▸ htid
    · exact hsessions t hin

theorem saveTransaction_adapterId (a : SaServerAdapter) (tid : Int64) :
    (Service.saveTransaction a tid).adapterId = a.adapterId := by
  unfold Service.saveTransaction
  split <;> rfl

theorem loadAlgo (hs : s.Filed) (hh : Handled s.server) (env : ServiceEnv)
    (clientInfo : ClientInfo) (algoInfo : AlgorithmInfo)
    (input output : DataInfo) :
    Beside clientInfo.clientId s
      (s.loadAlgo env clientInfo algoInfo input output).2.2 := by
  unfold Service.loadAlgo
  split
  · exact refl _ hs
  · next a ha =>
      have htid := belongsTo_own hs ha clientInfo.sessionId
      have hsaved := saveTransaction_sessions (hs.sessions _ a ha) htid
      have hname := (saveTransaction_adapterId a (getTransactionId a.adapterId
        clientInfo.sessionId)).trans (hs.named _ a ha)
      dsimp only
      generalize getTransactionId a.adapterId clientInfo.sessionId = tid
        at htid hsaved hname ⊢
      split
      · next hexec => exact (BesideAll.getExecutor hexec).beside hs _
      · next t hexec =>
          have hexecuted := BesideAll.getExecutor hexec
          have ht := hexecuted.beside hs clientInfo.clientId
          have hht : Handled t.server := by
            obtain ⟨pools, hpools⟩ := hexecuted.server
            rw [hpools]
            exact hh.withPools pools
          have hstart := ht.trans (withServer ht.filed fun t' hne =>
            Server.held_startEngine hht env.engines algoInfo input output
              (ne_of_belongsTo htid hne))
          split
          · exact hstart
          · have hload := hstart.trans (withAdapter hstart.filed hname hsaved)
            split
            · exact hload
            · split
              · exact hload
              · next asyncHandler hgot =>
                  have hinst := hload.trans (withHandler hload.filed
                    (SaAsyncHandler.BesideClient.getInstance hgot))
                  exact hinst.trans (withTransaction hinst.filed htid
                    (asyncHandler.startAsyncTransaction_beside _ _ tid _))

theorem unloadAlgo (hs : s.Filed) (env : ServiceEnv) (clientInfo : ClientInfo)
    (algoInfo : AlgorithmInfo) (input : DataInfo) :
    Beside clientInfo.clientId s
      (s.unloadAlgo env clientInfo algoInfo input).2 := by
  cases ha : s.findAdapter clientInfo.clientId with
  | none =>
      rw [Service.unloadAlgo_none ha]
      exact refl _ hs
  | some a =>
      rw [Service.unloadAlgo_some ha]
      have htid := belongsTo_own hs ha clientInfo.sessionId
      have hname := hs.named _ a ha
      have hsessions := hs.sessions _ a ha
      have hstopped : Beside clientInfo.clientId s (s.stopCallbacks env
          algoInfo (getTransactionId a.adapterId clientInfo.sessionId)) := by
        rcases s.stopCallbacks_cases env algoInfo (getTransactionId
          a.adapterId clientInfo.sessionId) with hsame | ⟨h, hgot, hstop⟩
        · rw [hsame]
          exact refl _ hs
        · rw [hstop]
          have hinst := withHandler hs
            (SaAsyncHandler.BesideClient.getInstance (d := clientInfo.clientId)
              hgot)
          exact hinst.trans (withTransaction hinst.filed htid
            (h.stopAsyncTransaction_beside _ _ _))
      unfold Service.endUnload
      split
      · next hexec =>
          exact hstopped.trans
            ((BesideAll.getExecutor hexec).beside hstopped.filed _)
      · next t hexec =>
          have ht := hstopped.trans
            ((BesideAll.getExecutor hexec).beside hstopped.filed _)
          have hstop := ht.trans (withServer ht.filed fun t' hne =>
            t.server.held_stopEngine env.engines input
              (ne_of_belongsTo htid hne))
          dsimp only
          split
          · exact hstop
          · refine hstop.trans (withAdapter hstop.filed hname ?_)
            intro t' ht'
            exact hsessions t' (List.mem_of_mem_erase ht')

theorem removeAdapter (hs : s.Filed) (env : ServiceEnv) (d : Int32) :
    Beside d s (s.removeAdapter env d).2 := by
  unfold Service.removeAdapter
  split
  · exact refl d hs
  · next a ha =>
      split
      · next t hexec =>
          have ht := (BesideAll.getExecutor hexec).beside hs d
          exact ht.trans (withoutAdapter ht.filed d)
      · next t hexec =>
          have ht := (BesideAll.getExecutor hexec).beside hs d
          have hstop := ht.trans (withServer ht.filed fun t' hne =>
            t.server.held_stopEngines env.engines fun hin =>
              hne (hs.sessions d a ha t' hin))
          exact hstop.trans (withoutAdapter hstop.filed d)

theorem registerCallback (hs : s.Filed) (env : ServiceEnv) (d : Int32) :
    Beside d s (s.registerCallback env d).2 := by
  unfold Service.registerCallback
  split
  · exact refl d hs
  · split
    · exact refl d hs
    · next h hgot =>
        have hregister := (SaAsyncHandler.BesideClient.getInstance hgot).trans
          (.registerAsyncHandler h env.callbacks d)
        have hstart := hregister.trans
          (.startAsyncProcess _ s.server.pools env.engines env.callbacks d)
        have hhandler := withHandler hs hstart
        exact hhandler.trans
          ((BesideAll.withPools _ _).beside hhandler.filed d)

theorem unregisterCallback (hs : s.Filed) (env : ServiceEnv) (d : Int32) :
    Beside d s (s.unregisterCallback env d).2 := by
  unfold Service.unregisterCallback
  split
  · exact refl d hs
  · split
    · exact refl d hs
    · next h hgot =>
        have hstop := (SaAsyncHandler.BesideClient.getInstance hgot).trans
          (.stopAsyncProcess h s.server.pools env.engines d)
        have hhandler := withHandler hs hstop
        exact hhandler.trans
          ((BesideAll.withPools _ _).beside hhandler.filed d)

theorem generateClient (hs : s.Filed) (hc : ClientsKept s)
    (env : ServiceEnv) :
    (s.generateClient env).2.Filed ∧
      ∀ c ∈ s.adapters, (s.generateClient env).2.held c = s.held c := by
  unfold Service.generateClient Service.findValidClientId
  by_cases hroom : maxNumClients < s.adapters.keys.card
  · rw [if_pos hroom]
    exact ⟨hs, fun _ _ => rfl⟩
  · rw [if_neg hroom]
    have hnew := (searchClientId_free hc.counter.1 hc.counter.2
      (Nat.not_lt.mp hroom)).2
    dsimp only at hnew ⊢
    generalize FreshId.search startingClientId intMax
      (s.adapters.keys.image Int32.toInt)
      ((s.adapters.keys.image Int32.toInt).card + 1) s.clientIdAtomic = id
      at hnew ⊢
    have hcounter := BesideAll.withCounter s id
    have hfiled := (hcounter.beside hs 0).filed
    split
    · exact ⟨hfiled, fun c _ => hcounter.held c⟩
    · split
      · exact ⟨hfiled, fun c _ => hcounter.held c⟩
      · have hfirst : Beside (Int32.ofInt id) s _ :=
          (hcounter.beside hs _).trans (withAdapter (a := ⟨Int32.ofInt id, []⟩)
            hfiled rfl fun _ hin => absurd hin List.not_mem_nil)
        refine ⟨hfirst.filed, fun c hin => hfirst.held fun heq => hnew ?_⟩
        exact Finmap.mem_keys.mpr (heq ▸ hin)

end Beside

/-- What every run keeps: what a step needs to go by other clients. -/
structure Apart (s : Service) : Prop where
  filed : s.Filed
  clients : ClientsKept s
  server : ServerKept s.server

namespace Apart

variable {c : Int32} {s s' : Service}

theorem initial : Apart .initial where
  filed := {
    named := fun d a ha => by cases ha
    sessions := fun d a ha => by cases ha
    factory := Registry.empty
    asyncHandler := Registry.empty }
  clients := .initial
  server := ⟨initial_handled, fun e x hx => by cases hx⟩

/-- A step leaves everybody's what it was but for the client that asked for
it. -/
theorem beside (h : Apart s) (i : ServiceStep) :
    (s.take i).Filed ∧ ∀ c ∈ s.adapters, i.client ≠ some c →
      (s.take i).held c = s.held c := by
  have hown {d : Int32} (hb : Beside d s (s.take i))
      (hclient : i.client = some d) : (s.take i).Filed ∧
        ∀ c ∈ s.adapters, i.client ≠ some c →
          (s.take i).held c = s.held c := by
    refine ⟨hb.filed, fun c _ hother => hb.held fun heq => hother ?_⟩
    rw [hclient, heq]
  cases i with
  | generateClient env =>
      obtain ⟨hfiled, hheld⟩ := Beside.generateClient h.filed h.clients env
      exact ⟨hfiled, fun c hin _ => hheld c hin⟩
  | removeAdapter env d => exact hown (.removeAdapter h.filed env d) rfl
  | loadAlgo env clientInfo algoInfo input output =>
      exact hown (.loadAlgo h.filed h.server.handled env clientInfo algoInfo
        input output) rfl
  | unloadAlgo env clientInfo algoInfo input =>
      exact hown (.unloadAlgo h.filed env clientInfo algoInfo input) rfl
  | registerCallback env d => exact hown (.registerCallback h.filed env d) rfl
  | unregisterCallback env d =>
      exact hown (.unregisterCallback h.filed env d) rfl
  | execAlgo kind env clientInfo algoInfo input =>
      exact hown ((BesideAll.execAlgo s kind env clientInfo algoInfo
        input).beside h.filed _) rfl
  | popFront queue =>
      have hb := BesideAll.popFront s queue
      exact ⟨(hb.beside h.filed 0).filed, fun c _ _ => hb.held c⟩
  | deleteFuture sequenceId =>
      have hb := BesideAll.deleteFuture s sequenceId
      exact ⟨(hb.beside h.filed 0).filed, fun c _ _ => hb.held c⟩

theorem take (h : Apart s) (i : ServiceStep) : Apart (s.take i) :=
  ⟨(h.beside i).1, h.clients.take i, h.server.take i⟩

theorem run (h : Apart s) {is : List ServiceStep} (hin : c ∈ s.adapters)
    (hothers : ∀ i ∈ is, i.client ≠ some c)
    (hrun : serviceMachine.run Machine.anyStep s is = some s') :
    s'.held c = s.held c := by
  induction is generalizing s with
  | nil =>
      cases hrun
      rfl
  | cons i is ih =>
      simp only [Machine.run, Machine.anyStep, serviceMachine] at hrun
      have hstep := (h.beside i).2 c hin (hothers i (List.mem_cons_self ..))
      have hfind : (s.take i).findAdapter c = s.findAdapter c :=
        congrArg ClientHeld.adapter hstep
      have hin' : c ∈ (s.take i).adapters := by
        obtain ⟨a, ha⟩ := Finmap.mem_iff.mp hin
        exact Table.mem_of_lookup (hfind.trans ha)
      rw [← hstep]
      exact ih (h.take i) hin'
        (fun j hj => hothers j (List.mem_cons_of_mem _ hj)) hrun

end Apart

/-- What the server holds of a connected client, its adapter, its handler and
each session with engine and listener, is the same after any run of the others'
requests, of clients that come, of workers and of responses delivered. -/
theorem others_leave_client {c : Int32} {s s' : Service}
    (hs : serviceMachine.Reach Machine.anyStep s) (hin : c ∈ s.adapters)
    {is : List ServiceStep} (hothers : ∀ i ∈ is, i.client ≠ some c)
    (hrun : serviceMachine.run Machine.anyStep s is = some s') :
    s'.held c = s.held c := by
  have h : Apart s := hs.invariant (fun _ hstart => hstart ▸ .initial)
    fun _ i _ h _ hstep => by
      cases hstep
      exact h.take i
  exact h.run hin hothers hrun

/-- A second client loads the algorithm of the first, so that they share an
engine, and is refused by the plugin before it goes. -/
def secondClient : List ServiceStep :=
  let clientInfo := { sampleClient with clientId := 2 }
  [.generateClient .willing,
    .loadAlgo .willing clientInfo sampleAlgo ⟨.null, 0⟩ ⟨.null, 0⟩,
    .registerCallback .willing 2,
    .unloadAlgo refusingEnv clientInfo sampleAlgo ⟨.null, 0⟩,
    .removeAdapter .willing 2]

theorem others_leave_client_second :
    (secondClient.foldl Service.take asyncService).held 1 =
      asyncService.held 1 := by
  have hothers : ∀ i ∈ secondClient, i.client ≠ some 1 := by decide
  have hrun : serviceMachine.run Machine.anyStep asyncService secondClient =
      some (secondClient.foldl Service.take asyncService) := rfl
  exact others_leave_client asyncService_reach (by decide) hothers hrun

end AiEngine.Ref
