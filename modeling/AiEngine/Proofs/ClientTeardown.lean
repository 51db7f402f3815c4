import AiEngine.Proofs.ReferenceLedger

/-!
# Taking down a client

`RemoveAdapterWrapper` stops the engine of every session its adapter has, with
an empty input, and ignores what that returns. It does not touch the async
handler or the factory. What is left of the client afterwards is what its
plugins did not release, the references of sessions it loaded twice, and the
asynchronous sessions it did not unload itself.
-/

namespace AiEngine.Ref

open AiEngine.Lib

/-- A transaction has one reference at most, to the engine it is recorded
with. -/
structure CountedOnce (s : Server) (ledger : Ledger) (tid : Int64) : Prop where
  recorded : ∀ e, (tid, e) ∈ ledger → s.findEngine tid = some e
  once : ∀ e, ledger.count (tid, e) ≤ 1

namespace Server

/-- The ledger after the loop of `SaServerAdapter::Uninitialize`. -/
def stopLedgers (s : Server) (env : Env) : List Int64 → Ledger → Ledger
  | [], ledger => ledger
  | tid :: tids, ledger =>
      stopLedgers (s.stopEngine env tid ⟨.null, 0⟩).server env tids
        (s.stopLedger env tid ⟨.null, 0⟩ ledger)

/-- Whether the plugin of a transaction releases its part on the empty
input. -/
def releases (s : Server) (env : Env) (tid : Int64) : Prop :=
  ∀ e x, s.findEngine tid = some e → s.engine.lookup e = some x →
    env.release (x.refCount == pluginNumForUnload) tid ⟨.null, 0⟩ =
      Retcode.success

/-- Whether each plugin does when its turn comes. -/
def releasesAll (s : Server) (env : Env) : List Int64 → Prop
  | [] => True
  | tid :: tids => s.releases env tid ∧
      releasesAll (s.stopEngine env tid ⟨.null, 0⟩).server env tids

variable {s : Server} {env : Env} {tid tid' : Int64} {e : Nat}
  {input output : DataInfo} {algoInfo : AlgorithmInfo} {ledger : Ledger}

theorem startEngine_findEngine (h : Handled s) (hne : tid' ≠ tid) :
    (s.startEngine env tid algoInfo input output).2.2.findEngine tid' =
      s.findEngine tid' := by
  have hr := startEngine_started h env tid algoInfo input output
  unfold findEngine
  by_cases hok : (s.startEngine env tid algoInfo input output).1 =
      Retcode.success
  · obtain ⟨e, hclients, -⟩ := hr.success hok
    rw [hclients, Table.lookup_insert_if, if_neg hne]
  · rw [(hr.failure hok).1]

theorem startEngine_findEngine_fail (h : Handled s)
    (hfail : (s.startEngine env tid algoInfo input output).1 ≠
      Retcode.success) :
    (s.startEngine env tid algoInfo input output).2.2.findEngine tid' =
      s.findEngine tid' := by
  have hr := startEngine_started h env tid algoInfo input output
  unfold findEngine
  rw [(hr.failure hfail).1]

theorem stopEngine_findEngine (h : s.Managed) (hne : tid' ≠ tid) :
    (s.stopEngine env tid input).server.findEngine tid' =
      s.findEngine tid' := by
  rcases s.stopEngine_cases env tid input h with
    ⟨-, hserver, -⟩ | ⟨e, x, -, -, -, -, hclients, -⟩
  · rw [hserver]
  · rw [findEngine, hclients, Table.lookup_erase_if, if_neg hne]
    rfl

theorem stopEngine_findEngine_some (h : s.Managed)
    (he : (s.stopEngine env tid input).server.findEngine tid' = some e) :
    s.findEngine tid' = some e := by
  rcases s.stopEngine_cases env tid input h with
    ⟨-, hserver, -⟩ | ⟨e, x, -, -, -, -, hclients, -⟩
  · rw [hserver] at he
    exact he
  · rw [findEngine, hclients, Table.lookup_erase_if] at he
    split at he
    · cases he
    · exact he

/-- A stop that succeeds makes the transaction unknown. -/
theorem stopEngine_findEngine_self (h : s.Managed)
    (hok : (s.stopEngine env tid input).retCode = Retcode.success) :
    (s.stopEngine env tid input).server.findEngine tid = none := by
  rcases s.stopEngine_cases env tid input h with
    ⟨hfail, -⟩ | ⟨e, x, -, -, -, -, hclients, -⟩
  · exact absurd hok hfail
  · rw [findEngine, hclients, Table.lookup_erase_if, if_pos rfl]

theorem stopEngine_findEngine_releases (h : Handled s) (hm : s.Managed)
    (hr : s.releases env tid) :
    (s.stopEngine env tid ⟨.null, 0⟩).server.findEngine tid = none := by
  rcases s.stopEngine_cases env tid ⟨.null, 0⟩ hm with
    ⟨-, hserver, hkeeps⟩ | ⟨e, x, -, -, -, -, hclients, -⟩
  · rw [hserver]
    cases he : s.findEngine tid with
    | none => rfl
    | some e =>
        obtain ⟨x, hx, -⟩ := h.clients tid e he
        exact absurd (hr e x he hx) (hkeeps e x he hx)
  · rw [findEngine, hclients, Table.lookup_erase_if, if_pos rfl]

/-! ## What the ledger has

Starting and stopping an engine adds to the ledger and takes from it at most
the entries of that transaction, and one at a time. -/

theorem mem_startLedger {p : Int64 × Nat} {r : Int × DataInfo × Server}
    (h : p ∈ startLedger ledger tid r) :
    p ∈ ledger ∨
      (r.1 = Retcode.success ∧ p.1 = tid ∧ r.2.2.findEngine tid = some p.2) := by
  have hmem := List.mem_of_mem_filter h
  split at hmem
  · exact .inl hmem
  · next e he =>
      split at hmem
      · next hok =>
          rcases List.mem_cons.mp hmem with rfl | hold
          · exact .inr ⟨hok, rfl, he⟩
          · exact .inl hold
      · exact .inl hmem

theorem count_startLedger {r : Int × DataInfo × Server} {p : Int64 × Nat}
    (hp : p.1 ≠ tid ∨ r.1 ≠ Retcode.success) :
    (startLedger ledger tid r).count p ≤ ledger.count p := by
  refine List.Sublist.count_le p (List.filter_sublist ..) |>.trans ?_
  split
  · exact Nat.le_refl _
  · next e he =>
      split
      · next hok =>
          have hne : (tid, e) ≠ p := fun heq =>
            hp.elim (fun hne => hne (heq ▸ rfl)) fun hfail => hfail hok
          rw [List.count_cons_of_ne hne]
      · exact Nat.le_refl _

theorem stopLedger_sublist :
    (s.stopLedger env tid input ledger).Sublist ledger := by
  refine (List.filter_sublist ..).trans ?_
  split
  · exact .refl _
  · split
    · exact .refl _
    · split
      · exact List.erase_sublist
      · exact .refl _

end Server

namespace CountedOnce

variable {s : Server} {env : Env} {tid tid' : Int64} {e : Nat}
  {input output : DataInfo} {algoInfo : AlgorithmInfo} {ledger : Ledger}

/-- A transaction that has no reference and gets one has one. -/
theorem startEngine (h : CountedOnce s ledger tid') (hs : LedgerKept s ledger)
    (hnew : tid' = tid →
      (s.startEngine env tid algoInfo input output).1 = Retcode.success →
        s.findEngine tid = none) :
    CountedOnce (s.startEngine env tid algoInfo input output).2.2
      (Server.startLedger ledger tid
        (s.startEngine env tid algoInfo input output)) tid' := by
  by_cases hchange : tid' = tid ∧
      (s.startEngine env tid algoInfo input output).1 = Retcode.success
  · obtain ⟨rfl, hok⟩ := hchange
    have hnone := hnew rfl hok
    have hout (e : Nat) : (tid', e) ∉ ledger := fun hmem => by
      cases hnone.symm.trans (h.recorded e hmem)
    refine ⟨fun e he => ?_, fun e => ?_⟩
    · rcases Server.mem_startLedger he with hold | ⟨-, -, hfind⟩
      · exact absurd hold (hout e)
      · exact hfind
    · refine List.Sublist.count_le _ (List.filter_sublist ..) |>.trans ?_
      have hzero := List.count_eq_zero.mpr (hout e)
      split
      · rw [hzero]
        exact Nat.zero_le 1
      · rw [if_pos hok, List.count_cons, hzero]
        split <;> decide
  · have hother : tid' ≠ tid ∨
        (s.startEngine env tid algoInfo input output).1 ≠ Retcode.success := by
      by_cases heq : tid' = tid
      · exact .inr fun hok => hchange ⟨heq, hok⟩
      · exact .inl heq
    have hfind : (s.startEngine env tid algoInfo input output).2.2.findEngine
        tid' = s.findEngine tid' := by
      rcases hother with hne | hfail
      · exact Server.startEngine_findEngine hs.handled hne
      · exact Server.startEngine_findEngine_fail hs.handled hfail
    refine ⟨fun e he => ?_, fun e => ?_⟩
    · rcases Server.mem_startLedger he with hold | ⟨hok, heq, -⟩
      · rw [hfind]
        exact h.recorded e hold
      · exact absurd ⟨heq, hok⟩ hchange
    · exact (Server.count_startLedger hother).trans (h.once e)

/-- A transaction whose reference is taken back has none. -/
theorem stopEngine (h : CountedOnce s ledger tid') (hs : LedgerKept s ledger)
    (env : Env) (tid : Int64) (input : DataInfo) :
    CountedOnce (s.stopEngine env tid input).server
      (s.stopLedger env tid input ledger) tid' := by
  refine ⟨fun e he => ?_, fun e =>
    (Server.stopLedger_sublist.count_le _).trans (h.once e)⟩
  have hold := h.recorded e (Server.stopLedger_sublist.subset he)
  by_cases hne : tid' = tid
  · subst hne
    rcases s.stopEngine_cases env tid' input hs.managed with
      ⟨-, hserver, -⟩ | ⟨e', x, he', hx, hrelease, -⟩
    · rw [hserver]
      exact hold
    · cases hold.symm.trans he'
      have hmem := List.mem_of_mem_filter he
      simp only [hold, hx, hrelease, if_true] at hmem
      have hpos := List.count_pos_iff.mpr hmem
      have hone := h.once e
      rw [List.count_erase_self] at hpos
      omega
  · rw [Server.stopEngine_findEngine hs.managed hne]
    exact hold

end CountedOnce

/-! ## The loop

The wrapper stops the transactions of the client one after the other. A
failure for one of them does not keep it from the next. -/

namespace LedgerKept

variable {s : Server} {ledger : Ledger} {env : Env} {tid : Int64} {e : Nat}

theorem stopEngines (h : LedgerKept s ledger) (env : Env) (tids : List Int64) :
    LedgerKept (Service.stopEngines s env tids)
      (s.stopLedgers env tids ledger) := by
  induction tids generalizing s ledger with
  | nil => exact h
  | cons tid tids ih => exact ih (h.stopEngine env tid _)

theorem stopEngines_countedOnce (h : LedgerKept s ledger) (env : Env)
    (tids : List Int64) (hc : CountedOnce s ledger tid) :
    CountedOnce (Service.stopEngines s env tids)
      (s.stopLedgers env tids ledger) tid := by
  induction tids generalizing s ledger with
  | nil => exact hc
  | cons tid' tids ih =>
      exact ih (h.stopEngine env tid' _) (hc.stopEngine h env tid' _)

theorem stopEngines_findEngine_some (h : LedgerKept s ledger)
    (tids : List Int64)
    (he : (Service.stopEngines s env tids).findEngine tid = some e) :
    s.findEngine tid = some e := by
  induction tids generalizing s ledger with
  | nil => exact he
  | cons tid' tids ih =>
      exact Server.stopEngine_findEngine_some h.managed
        (ih (h.stopEngine env tid' _) he)

theorem stopEngines_findEngine (h : LedgerKept s ledger) {tids : List Int64}
    (hout : tid ∉ tids) :
    (Service.stopEngines s env tids).findEngine tid = s.findEngine tid := by
  induction tids generalizing s ledger with
  | nil => rfl
  | cons tid' tids ih =>
      rw [List.mem_cons, not_or] at hout
      rw [Service.stopEngines, ih (h.stopEngine env tid' _) hout.2,
        Server.stopEngine_findEngine h.managed hout.1]

/-- Where every plugin releases its part, the loop leaves none of its
transactions known. -/
theorem stopEngines_releasesAll (h : LedgerKept s ledger)
    {tids : List Int64} (hr : s.releasesAll env tids) (hin : tid ∈ tids) :
    (Service.stopEngines s env tids).findEngine tid = none := by
  induction tids generalizing s ledger with
  | nil => cases hin
  | cons tid' tids ih =>
      have hstop := h.stopEngine env tid' ⟨.null, 0⟩
      by_cases hlater : tid ∈ tids
      · exact ih hstop hr.2 hlater
      · obtain rfl := (List.mem_cons.mp hin).resolve_right hlater
        rw [Service.stopEngines, hstop.stopEngines_findEngine hlater]
        exact Server.stopEngine_findEngine_releases h.handled h.managed hr.1

end LedgerKept

/-- Whether a transaction is one of a client's sessions. -/
def belongsTo (tid : Int64) (c : Int32) : Prop :=
  getTransactionId c (getSessionId tid) = tid

instance (tid : Int64) (c : Int32) : Decidable (belongsTo tid c) :=
  inferInstanceAs (Decidable (getTransactionId c (getSessionId tid) = tid))

theorem belongsTo_getTransactionId {a c sid : Int32} :
    belongsTo (getTransactionId a sid) c ↔ a = c := by
  rw [belongsTo, getSessionId_getTransactionId]
  refine ⟨fun h => (getTransactionId_inj h).1.symm, ?_⟩
  rintro rfl
  rfl

structure CountedService where
  service : Service
  counted : Ledger

/-- Whether a request finds an executor, or one can be made for it. -/
abbrev Service.hasExecutorIn (s : Service) (env : ServiceEnv) : Prop :=
  s.hasExecutor = true ∨ env.newServerExecutor = true

/-- The ledger after a step, where the step gets to the engine manager. -/
def Service.countedAfter (s : Service) (counted : Ledger) :
    ServiceStep → Ledger
  | .loadAlgo env clientInfo algoInfo inputInfo outputInfo =>
      match s.findAdapter clientInfo.clientId with
      | none => counted
      | some adapter =>
          let tid := getTransactionId adapter.adapterId clientInfo.sessionId
          if s.hasExecutorIn env then
            Server.startLedger counted tid (s.server.startEngine env.engines
              tid algoInfo inputInfo outputInfo)
          else counted
  | .unloadAlgo env clientInfo _ inputInfo =>
      match s.findAdapter clientInfo.clientId with
      | none => counted
      | some adapter =>
          let tid := getTransactionId adapter.adapterId clientInfo.sessionId
          if s.hasExecutorIn env then
            s.server.stopLedger env.engines tid inputInfo counted
          else counted
  | .removeAdapter env clientId =>
      match s.findAdapter clientId with
      | none => counted
      | some adapter =>
          if s.hasExecutorIn env then
            s.server.stopLedgers env.engines adapter.transactionIds counted
          else counted
  | _ => counted

def CountedService.take (k : CountedService) (i : ServiceStep) :
    CountedService :=
  ⟨k.service.take i, k.service.countedAfter k.counted i⟩

def countedMachine : Machine CountedService ServiceStep where
  start := fun k => k = ⟨.initial, []⟩
  step := fun k i => some (k.take i)

/-- What is claimed of a client that is gone: no transaction of its is
recorded, none has a reference to an engine, where the counts of the engines
are what the ledger says, and none is left with the callbacks. -/
structure TornDown (c : Int32) (k : CountedService) : Prop where
  unrecorded : ∀ tid, belongsTo tid c → k.service.server.findEngine tid = none
  uncounted : ∀ tid e, belongsTo tid c → (tid, e) ∉ k.counted
  refCount : ∀ e, k.service.server.refCount e =
    Int32.ofNat (k.counted.references e)
  listeners : ∀ tid, belongsTo tid c → tid ∉ k.service.factory.listeners
  transactions : ∀ tid, belongsTo tid c →
    tid ∉ k.service.asyncHandler.transactions

/-- What a step must meet for the client to be taken down completely: no
session of the client is loaded once more while it is loaded, and when the
client goes its asynchronous sessions have been unloaded and the plugins of
the others release their parts on the empty input. -/
def Service.tearsDown (c : Int32) (s : Service) : ServiceStep → Prop
  | .loadAlgo env clientInfo algoInfo inputInfo outputInfo =>
      clientInfo.clientId = c →
        let tid := getTransactionId c clientInfo.sessionId
        (s.server.startEngine env.engines tid algoInfo inputInfo
            outputInfo).1 = Retcode.success →
          s.server.findEngine tid = none
  | .removeAdapter env clientId =>
      clientId = c →
        (∀ tid ∈ s.asyncHandler.transactions, ¬ belongsTo tid c) ∧
          ∀ adapter, s.findAdapter c = some adapter →
            s.server.releasesAll env.engines adapter.transactionIds
  | _ => True

/-- The transactions with a listener are started. -/
structure AsyncKept (h : SaAsyncHandler) (f : FutureFactory) : Prop where
  listeners : ∀ tid, tid ∈ f.listeners → tid ∈ h.transactions
  absent : f.hasInstance = false → f.listeners = ∅

namespace AsyncKept

variable {h h' : SaAsyncHandler} {f f' : FutureFactory}

theorem of_same (ha : AsyncKept h f)
    (htransactions : h'.transactions = h.transactions)
    (hlisteners : f'.listeners = f.listeners)
    (hinstance : f.hasInstance = true → f'.hasInstance = true) :
    AsyncKept h' f' where
  listeners := by
    rw [htransactions, hlisteners]
    exact ha.listeners
  absent := fun hnone => by
    rw [hlisteners]
    refine ha.absent ?_
    cases hf : f.hasInstance with
    | false => rfl
    | true => cases hnone.symm.trans (hinstance hf)

theorem getInstance_same {alloc has : Bool}
    (hinst : f.getInstance alloc = (has, f')) :
    f'.listeners = f.listeners ∧ f'.hasInstance = has ∧
      (f.hasInstance = true → has = true) := by
  unfold FutureFactory.getInstance at hinst
  split at hinst
  · next hi =>
      cases hinst
      exact ⟨rfl, hi, fun _ => rfl⟩
  · next hi =>
      cases hinst
      exact ⟨rfl, rfl, fun h => absurd h hi⟩

theorem getInstance_transactions {alloc has : Bool}
    (hinst : h.getInstance alloc = (has, h')) :
    h'.transactions = h.transactions := by
  unfold SaAsyncHandler.getInstance at hinst
  split at hinst <;> cases hinst <;> rfl

theorem startAsyncTransaction (ha : AsyncKept h f) (env : CallbackEnv)
    (tid : Int64) (clientId : Int32) :
    AsyncKept (h.startAsyncTransaction f env tid clientId).2.1
      (h.startAsyncTransaction f env tid clientId).2.2 := by
  unfold SaAsyncHandler.startAsyncTransaction
  split
  · exact ha
  · split
    · exact ha
    · dsimp only
      split
      · next f' hinst =>
          obtain ⟨hlisteners, -, hhas⟩ := getInstance_same hinst
          refine ⟨fun t ht => ?_, fun _ => ?_⟩
          · exact Finset.mem_insert_of_mem (ha.listeners t (hlisteners ▸ ht))
          · rw [hlisteners]
            refine ha.absent (Bool.eq_false_iff.mpr fun hf => ?_)
            cases hhas hf
      · next f' hinst =>
          obtain ⟨hlisteners, hi, -⟩ := getInstance_same hinst
          refine ⟨fun t ht => ?_, fun hnone => ?_⟩
          · rw [FutureFactory.registerListener, Finmap.mem_insert,
              hlisteners] at ht
            rcases ht with rfl | ht
            · exact Finset.mem_insert_self ..
            · exact Finset.mem_insert_of_mem (ha.listeners t ht)
          · cases hnone.symm.trans hi

theorem startAsyncTransaction_subset {tid : Int64} {clientId : Int32}
    {env : CallbackEnv} {t : Int64}
    (ht : t ∈ (h.startAsyncTransaction f env tid clientId).2.1.transactions) :
    t = tid ∨ t ∈ h.transactions := by
  unfold SaAsyncHandler.startAsyncTransaction at ht
  split at ht
  · exact .inr ht
  · split at ht
    · exact .inr ht
    · dsimp only at ht
      split at ht <;> exact Finset.mem_insert.mp ht

theorem stopAsyncTransaction (ha : AsyncKept h f) (env : CallbackEnv)
    (tid : Int64) :
    AsyncKept (h.stopAsyncTransaction f env tid).1
      (h.stopAsyncTransaction f env tid).2 := by
  unfold SaAsyncHandler.stopAsyncTransaction
  split
  · dsimp only
    split
    · next f' hinst =>
        obtain ⟨hlisteners, hi, hhas⟩ := getInstance_same hinst
        have hempty : f'.listeners = ∅ := by
          rw [hlisteners]
          refine ha.absent (Bool.eq_false_iff.mpr fun hf => ?_)
          cases hhas hf
        refine ⟨fun t ht => ?_, fun _ => hempty⟩
        rw [hempty] at ht
        exact absurd ht (Finmap.notMem_empty)
    · next f' hinst =>
        obtain ⟨hlisteners, hi, -⟩ := getInstance_same hinst
        unfold FutureFactory.unregisterListener
        split
        · next hnone =>
            refine ⟨fun t ht => ?_, fun hf => by cases hf.symm.trans hi⟩
            refine Finset.mem_erase.mpr ⟨?_, ha.listeners t (hlisteners ▸ ht)⟩
            rintro rfl
            exact Finmap.lookup_eq_none.mp hnone ht
        · refine ⟨fun t ht => ?_, fun hf => by cases hf.symm.trans hi⟩
          rw [Finmap.mem_erase, hlisteners] at ht
          exact Finset.mem_erase.mpr ⟨ht.1, ha.listeners t ht.2⟩
  · exact ha

theorem stopAsyncTransaction_subset {tid : Int64} {env : CallbackEnv}
    {t : Int64} (ht : t ∈ (h.stopAsyncTransaction f env tid).1.transactions) :
    t ∈ h.transactions := by
  unfold SaAsyncHandler.stopAsyncTransaction at ht
  split at ht
  · dsimp only at ht
    split at ht <;> exact Finset.mem_of_mem_erase ht
  · exact ht

end AsyncKept

/-! ## What every run keeps

Every transaction that is counted somewhere is in the list of its client's
adapter, so that the loop meets it. The requests of other clients have
transactions of their own. -/

/-- The adapters carry the ids they are filed under, what is recorded needs an
executor, and the sessions of the client are in its adapter's list as long as
there is an adapter. -/
structure TeardownKept (c : Int32) (s : Service) (ledger : Ledger) : Prop where
  kept : LedgerKept s.server ledger
  async : AsyncKept s.asyncHandler s.factory
  named : ∀ d a, s.findAdapter d = some a → a.adapterId = d
  executor : ∀ tid e, s.server.findEngine tid = some e → s.hasExecutor = true
  counter : 0 ≤ s.clientIdAtomic ∧ s.clientIdAtomic ≤ intMax
  listed : ∀ a tid e, s.findAdapter c = some a → belongsTo tid c →
    s.server.findEngine tid = some e → tid ∈ a.transactionIds
  gone : s.findAdapter c = none → ∀ tid, belongsTo tid c →
    s.server.findEngine tid = none ∧ tid ∉ s.asyncHandler.transactions
  once : ∀ tid, belongsTo tid c → CountedOnce s.server ledger tid

/-- A step that is no business of the sessions. -/
structure Untouched (s s' : Service) : Prop where
  server : ∃ pools, s'.server = { s.server with pools }
  transactions : s'.asyncHandler.transactions = s.asyncHandler.transactions
  listeners : s'.factory.listeners = s.factory.listeners
  factory : s.factory.hasInstance = true → s'.factory.hasInstance = true
  adapters : s'.adapters = s.adapters
  executor : s.hasExecutor = true → s'.hasExecutor = true
  counter : s'.clientIdAtomic = s.clientIdAtomic

theorem initial_teardownKept (c : Int32) : TeardownKept c .initial [] where
  kept := initial_ledgerKept
  async := by
    refine ⟨fun tid h => ?_, fun _ => rfl⟩
    exact absurd h Finmap.notMem_empty
  named := by simp [Service.findAdapter, Service.initial]
  executor := by simp [Server.findEngine, Service.initial, Server.initial]
  counter := by decide
  listed := by simp [Service.findAdapter, Service.initial]
  gone := fun _ tid _ => by
    simp [Server.findEngine, Service.initial, Server.initial,
      SaAsyncHandler.initial]
  once := fun tid _ => by
    refine ⟨fun e he => ?_, fun e => ?_⟩
    · cases he
    · exact Nat.zero_le 1

namespace Untouched

variable {s s' s'' : Service}

theorem refl (s : Service) : Untouched s s :=
  ⟨⟨s.server.pools, rfl⟩, rfl, rfl, id, rfl, id, rfl⟩

theorem trans (h : Untouched s s') (h' : Untouched s' s'') :
    Untouched s s'' where
  server := by
    obtain ⟨pools, hpools⟩ := h.server
    obtain ⟨pools', hpools'⟩ := h'.server
    exact ⟨pools', by rw [hpools', hpools]⟩
  transactions := h'.transactions.trans h.transactions
  listeners := h'.listeners.trans h.listeners
  factory := h'.factory ∘ h.factory
  adapters := h'.adapters.trans h.adapters
  executor := h'.executor ∘ h.executor
  counter := h'.counter.trans h.counter

theorem withRequestNum (s : Service) (n : Nat) :
    Untouched s { s with requestNum := n } :=
  ⟨⟨s.server.pools, rfl⟩, rfl, rfl, id, rfl, id, rfl⟩

theorem getExecutor {alloc has : Bool}
    (hexec : s.getExecutor alloc = (has, s')) : Untouched s s' := by
  obtain ⟨rfl, hhas⟩ := Service.getExecutor_eq hexec
  exact { refl s with executor := fun h => hhas.mpr (.inl h) }

theorem registerCallback (env : ServiceEnv) (clientId : Int32) :
    Untouched s (s.registerCallback env clientId).2 := by
  have hregister (h : SaAsyncHandler) :
      (h.registerAsyncHandler env.callbacks clientId).transactions =
        h.transactions := by
    unfold SaAsyncHandler.registerAsyncHandler
      SaAsyncHandler.addClientListenerHandler
    split
    · rfl
    · split <;> rfl
  have hstart (h : SaAsyncHandler) :
      (h.startAsyncProcess s.server.pools env.engines env.callbacks
        clientId).2.1.transactions = h.transactions := by
    unfold SaAsyncHandler.startAsyncProcess
    split
    · rfl
    · split
      · rfl
      · split
        · rfl
        · split
          · rfl
          · split
            · rfl
            · split
              · rfl
              · dsimp only
                split <;> rfl
  unfold Service.registerCallback
  split
  · exact refl s
  · split
    · exact refl s
    · next asyncHandler hinst =>
        refine { refl s with server := ⟨_, rfl⟩, transactions := ?_ }
        exact (hstart _).trans ((hregister _).trans
          (AsyncKept.getInstance_transactions hinst))

theorem unregisterCallback (env : ServiceEnv) (clientId : Int32) :
    Untouched s (s.unregisterCallback env clientId).2 := by
  have hremove (h : SaAsyncHandler) :
      (h.removeClientListenerHandler clientId).transactions =
        h.transactions := by
    unfold SaAsyncHandler.removeClientListenerHandler
    split <;> rfl
  have hstop (h : SaAsyncHandler) :
      (h.stopAsyncProcess s.server.pools env.engines
        clientId).1.transactions = h.transactions := by
    unfold SaAsyncHandler.stopAsyncProcess
    split <;> exact hremove h
  unfold Service.unregisterCallback
  split
  · exact refl s
  · split
    · exact refl s
    · next asyncHandler hinst =>
        refine { refl s with server := ⟨_, rfl⟩, transactions := ?_ }
        exact (hstop _).trans (AsyncKept.getInstance_transactions hinst)

theorem asyncSendRequest_listeners (pools : Pools Task) (f : FutureFactory)
    (env : ServiceEnv) (queue : Nat) (handler : MsgHandler)
    (request : Request) (n : Nat) :
    (asyncSendRequest pools f env queue handler request n).2.2.listeners =
        f.listeners ∧
      (f.hasInstance = true →
        (asyncSendRequest pools f env queue handler request
          n).2.2.hasInstance = true) := by
  have hcreate (f : FutureFactory) (r : Int × Option Int × FutureFactory)
      (hr : f.createFuture env.newFuture n request.transactionId = r) :
      r.2.2.listeners = f.listeners ∧ r.2.2.hasInstance = f.hasInstance := by
    subst hr
    unfold FutureFactory.createFuture FutureFactory.findSequenceId
    split
    next hseq =>
    split at hseq <;> cases hseq
    · split
      · exact ⟨rfl, rfl⟩
      · split <;> exact ⟨rfl, rfl⟩
    · split
      · exact ⟨rfl, rfl⟩
      · split <;> exact ⟨rfl, rfl⟩
  unfold asyncSendRequest
  split
  · exact ⟨rfl, id⟩
  · split
    · next hinst =>
        obtain ⟨hlisteners, hi, hhas⟩ := AsyncKept.getInstance_same hinst
        exact ⟨hlisteners, fun h => hi.trans (hhas h)⟩
    · next f' hinst =>
        obtain ⟨hlisteners, hi, hhas⟩ := AsyncKept.getInstance_same hinst
        split
        · next hr =>
            obtain ⟨hl, hc⟩ := hcreate f' _ hr
            exact ⟨hl.trans hlisteners, fun _ => hc.trans hi⟩
        · next hr =>
            obtain ⟨hl, hc⟩ := hcreate f' _ hr
            split
            · exact ⟨hl.trans hlisteners, fun _ => hc.trans hi⟩
            · exact ⟨hl.trans hlisteners, fun _ => hc.trans hi⟩

theorem engineSyncExecute (x : Engine) (request : Request) :
    Untouched s (s.engineSyncExecute x request).2 := by
  unfold Service.engineSyncExecute
  split
  · exact refl s
  · dsimp only
    split <;> exact { refl s with server := ⟨_, rfl⟩ }

theorem engineAsyncExecute (env : ServiceEnv) (x : Engine)
    (request : Request) :
    Untouched s (s.engineAsyncExecute env x request).2 := by
  unfold Service.engineAsyncExecute
  split
  · exact refl s
  · next handler _ =>
      obtain ⟨hlisteners, hinstance⟩ := asyncSendRequest_listeners
        s.server.pools s.factory env x.queue handler request s.requestNum
      dsimp only
      split <;> exact { refl s with
        server := ⟨_, rfl⟩, listeners := hlisteners, factory := hinstance }

theorem execAlgo (kind : MsgHandler) (env : ServiceEnv)
    (clientInfo : ClientInfo) (algoInfo : AlgorithmInfo) (input : DataInfo) :
    Untouched s (s.execAlgo kind env clientInfo algoInfo input).2 := by
  cases kind with
  | sync =>
      unfold Service.execAlgo Service.syncExecAlgo
      simp only
      split
      · exact refl s
      · split
        · exact refl s
        · unfold Service.adapterSyncExecute
          split
          · exact refl s
          · dsimp only
            split
            · next s' hexec => exact getExecutor hexec
            · next s' hexec =>
                have hs' := getExecutor hexec
                split
                · exact hs'
                · exact hs'.trans
                    ((withRequestNum s' _).trans (engineSyncExecute _ _))
  | async =>
      unfold Service.execAlgo Service.asyncExecAlgo
      simp only
      split
      · exact refl s
      · split
        · exact refl s
        · unfold Service.adapterAsyncExecute
          split
          · next s' hexec => exact getExecutor hexec
          · next s' hexec =>
              have hs' := getExecutor hexec
              split
              · exact hs'
              · dsimp only
                split
                · exact hs'
                · exact hs'.trans
                    ((withRequestNum s' _).trans (engineAsyncExecute env _ _))

theorem popFront (queue : Nat) : Untouched s (s.take (.popFront queue)) :=
  { refl s with server := ⟨_, rfl⟩ }

theorem deleteFuture (sequenceId : Int) :
    Untouched s (s.take (.deleteFuture sequenceId)) := by
  have hsame : (s.factory.deleteFuture sequenceId).listeners =
      s.factory.listeners ∧
        (s.factory.deleteFuture sequenceId).hasInstance =
          s.factory.hasInstance := by
    unfold FutureFactory.deleteFuture
    split <;> exact ⟨rfl, rfl⟩
  exact { refl s with listeners := hsame.1, factory := fun h => hsame.2.trans h }

end Untouched

namespace TeardownKept

variable {c d : Int32} {s s' : Service} {ledger : Ledger} {env : ServiceEnv}

theorem of_untouched (h : TeardownKept c s ledger) (hu : Untouched s s') :
    TeardownKept c s' ledger := by
  obtain ⟨⟨pools, hserver⟩, htransactions, hlisteners, hfactory, hadapters,
    hexecutor, hcounter⟩ := hu
  have hfind (d : Int32) : s'.findAdapter d = s.findAdapter d := by
    rw [Service.findAdapter, hadapters]
    rfl
  refine ⟨?_, h.async.of_same htransactions hlisteners hfactory, ?_, ?_,
    hcounter ▸ h.counter, ?_, ?_, ?_⟩
  · rw [hserver]
    exact h.kept.withPools pools
  · intro d a ha
    exact h.named d a (hfind d ▸ ha)
  · intro tid e he
    rw [hserver] at he
    exact hexecutor (h.executor tid e he)
  · intro a tid e ha htid he
    rw [hserver] at he
    exact h.listed a tid e (hfind c ▸ ha) htid he
  · intro hnone tid htid
    rw [hserver, htransactions]
    exact h.gone (hfind c ▸ hnone) tid htid
  · intro tid htid
    rw [hserver]
    exact ⟨(h.once tid htid).recorded, (h.once tid htid).once⟩

theorem getExecutor (h : TeardownKept c s ledger) {alloc has : Bool}
    (hexec : s.getExecutor alloc = (has, s')) : TeardownKept c s' ledger := by
  obtain ⟨rfl, hhas⟩ := Service.getExecutor_eq hexec
  exact { h with
    executor := fun tid e he => hhas.mpr (.inl (h.executor tid e he)) }

/-- The callbacks may lose sessions, and those of clients with an adapter may
be added. -/
theorem withAsync (h : TeardownKept c s ledger) {asyncHandler : SaAsyncHandler}
    {factory : FutureFactory} (ha : AsyncKept asyncHandler factory)
    (hsub : s.findAdapter c = none → ∀ tid ∈ asyncHandler.transactions,
      belongsTo tid c → tid ∈ s.asyncHandler.transactions) :
    TeardownKept c { s with asyncHandler, factory } ledger :=
  { h with
    async := ha
    gone := fun hnone tid htid =>
      ⟨(h.gone hnone tid htid).1, fun hin =>
        (h.gone hnone tid htid).2 (hsub hnone tid hin htid)⟩ }

theorem generateClient (h : TeardownKept c s ledger) (env : ServiceEnv) :
    TeardownKept c (s.generateClient env).2 ledger := by
  unfold Service.generateClient Service.findValidClientId
  by_cases hroom : maxNumClients < s.adapters.keys.card
  · rw [if_pos hroom]
    exact h
  · rw [if_neg hroom]
    obtain ⟨hbounds, hnew⟩ := searchClientId_free h.counter.1 h.counter.2
      (Nat.not_lt.mp hroom)
    dsimp only at hbounds hnew ⊢
    generalize FreshId.search startingClientId intMax
      (s.adapters.keys.image Int32.toInt)
      ((s.adapters.keys.image Int32.toInt).card + 1) s.clientIdAtomic = id
      at hbounds hnew ⊢
    have hfree : s.findAdapter (Int32.ofInt id) = none :=
      Finmap.lookup_eq_none.mpr fun hin => hnew (Finmap.mem_keys.mpr hin)
    split
    · exact { h with counter := hbounds }
    · split
      · exact { h with counter := hbounds }
      · have hfind (d : Int32) (a : SaServerAdapter)
            (ha : (s.adapters.insert (Int32.ofInt id)
              ⟨Int32.ofInt id, []⟩).lookup d = some a) :
            (d = Int32.ofInt id ∧ a = ⟨d, []⟩) ∨
              s.findAdapter d = some a := by
          rw [Table.lookup_insert_if] at ha
          split at ha
          · next heq =>
              cases ha
              exact .inl ⟨heq, heq ▸ rfl⟩
          · exact .inr ha
        refine { h with
          counter := hbounds, named := ?_, listed := ?_, gone := ?_ }
        · intro d a ha
          rcases hfind d a ha with ⟨-, rfl⟩ | hold
          · rfl
          · exact h.named d a hold
        · intro a tid e ha htid he
          rcases hfind c a ha with ⟨heq, -⟩ | hold
          · have hnone := (h.gone (heq ▸ hfree) tid htid).1
            cases hnone.symm.trans he
          · exact h.listed a tid e hold htid he
        · intro hnone tid htid
          refine h.gone ?_ tid htid
          simp only [Service.findAdapter, Table.lookup_insert_if] at hnone
          split at hnone
          · cases hnone
          · exact hnone

/-- Stopping engines takes references back and forgets sessions. -/
theorem stopEngines (h : TeardownKept c s ledger) (env : Env)
    (tids : List Int64) :
    TeardownKept c { s with server := Service.stopEngines s.server env tids }
      (s.server.stopLedgers env tids ledger) :=
  { h with
    kept := h.kept.stopEngines env tids
    executor := fun tid e he =>
      h.executor tid e (h.kept.stopEngines_findEngine_some tids he)
    listed := fun a tid e ha htid he =>
      h.listed a tid e ha htid (h.kept.stopEngines_findEngine_some tids he)
    gone := fun hnone tid htid => by
      refine ⟨?_, (h.gone hnone tid htid).2⟩
      refine Option.eq_none_iff_forall_ne_some.mpr fun e he => ?_
      have hold := h.kept.stopEngines_findEngine_some tids he
      cases (h.gone hnone tid htid).1.symm.trans hold
    once := fun tid htid =>
      h.kept.stopEngines_countedOnce env tids (h.once tid htid) }

/-- The adapter may go when nothing of the client is left. -/
theorem eraseAdapter (h : TeardownKept c s ledger) (d : Int32)
    (hgone : d = c → ∀ tid, belongsTo tid c →
      s.server.findEngine tid = none ∧ tid ∉ s.asyncHandler.transactions) :
    TeardownKept c { s with adapters := s.adapters.erase d } ledger := by
  have hfind (d' : Int32) (a : SaServerAdapter)
      (ha : (s.adapters.erase d).lookup d' = some a) :
      s.findAdapter d' = some a := by
    rw [Table.lookup_erase_if] at ha
    split at ha
    · cases ha
    · exact ha
  refine { h with named := ?_, listed := ?_, gone := ?_ }
  · exact fun d' a ha => h.named d' a (hfind d' a ha)
  · exact fun a tid e ha => h.listed a tid e (hfind c a ha)
  · intro hnone tid htid
    by_cases heq : d = c
    · exact hgone heq tid htid
    · refine h.gone ?_ tid htid
      rw [← hnone]
      exact (Finmap.lookup_erase_ne (Ne.symm heq)).symm

theorem removeAdapter (h : TeardownKept c s ledger)
    (hok : s.tearsDown c (.removeAdapter env d)) :
    TeardownKept c (s.removeAdapter env d).2
      (s.countedAfter ledger (.removeAdapter env d)) := by
  cases hfind : s.findAdapter d with
  | none =>
      simp only [Service.removeAdapter, Service.countedAfter, hfind]
      exact h
  | some a =>
      simp only [Service.removeAdapter, Service.countedAfter, hfind]
      cases hexec : s.getExecutor env.newServerExecutor with
      | mk has s' =>
          have h' := h.getExecutor hexec
          obtain ⟨rfl, hhas⟩ := Service.getExecutor_eq hexec
          cases has with
          | false =>
              rw [if_neg fun hin => by cases hhas.mpr hin]
              refine h'.eraseAdapter d fun heq tid htid => ⟨?_, fun hin => ?_⟩
              · refine Option.eq_none_iff_forall_ne_some.mpr fun e he => ?_
                cases h'.executor tid e he
              · exact (hok heq).1 tid hin htid
          | true =>
              rw [if_pos (hhas.mp rfl)]
              have hstopped := h'.stopEngines env.engines a.transactionIds
              refine hstopped.eraseAdapter d fun heq tid htid =>
                ⟨?_, fun hin => (hok heq).1 tid hin htid⟩
              subst heq
              have hr := (hok rfl).2 a hfind
              refine Option.eq_none_iff_forall_ne_some.mpr fun e he => ?_
              have hin := h.listed a tid e hfind htid
                (h.kept.stopEngines_findEngine_some a.transactionIds he)
              cases (h.kept.stopEngines_releasesAll hr hin).symm.trans he

/-- An engine that does not start leaves the sessions as they were. -/
theorem startEngine_fail (h : TeardownKept c s ledger) (env : Env)
    (tid : Int64) (algoInfo : AlgorithmInfo) (input output : DataInfo)
    (hfail : (s.server.startEngine env tid algoInfo input output).1 ≠
      Retcode.success) :
    TeardownKept c { s with server :=
        (s.server.startEngine env tid algoInfo input output).2.2 }
      (Server.startLedger ledger tid
        (s.server.startEngine env tid algoInfo input output)) := by
  have hfind (t : Int64) :
      (s.server.startEngine env tid algoInfo input output).2.2.findEngine t =
        s.server.findEngine t :=
    Server.startEngine_findEngine_fail h.kept.handled hfail
  refine { h with
    kept := h.kept.startEngine env tid algoInfo input output
    executor := ?_, listed := ?_, gone := ?_, once := ?_ }
  · exact fun t e he => h.executor t e (hfind t ▸ he)
  · exact fun a t e ha ht he => h.listed a t e ha ht (hfind t ▸ he)
  · exact fun hnone t ht => ⟨(hfind t).trans (h.gone hnone t ht).1,
      (h.gone hnone t ht).2⟩
  · exact fun t ht => (h.once t ht).startEngine h.kept fun _ hok =>
      absurd hok hfail

/-- An engine that starts is filed with the adapter of its client. -/
theorem startEngine_ok (h : TeardownKept c s ledger) (env : Env)
    {a : SaServerAdapter} {sid : Int32} (algoInfo : AlgorithmInfo)
    (input output : DataInfo) (hfind : s.findAdapter d = some a)
    (hexec : s.hasExecutor = true)
    (hnew : d = c →
      s.server.findEngine (getTransactionId a.adapterId sid) = none) :
    TeardownKept c
      { s with
        server := (s.server.startEngine env (getTransactionId a.adapterId sid)
          algoInfo input output).2.2
        adapters := s.adapters.insert d
          (Service.saveTransaction a (getTransactionId a.adapterId sid)) }
      (Server.startLedger ledger (getTransactionId a.adapterId sid)
        (s.server.startEngine env (getTransactionId a.adapterId sid) algoInfo
          input output)) := by
  have hmine (hin : belongsTo (getTransactionId a.adapterId sid) c) : d = c := by
    rw [← h.named d a hfind]
    exact belongsTo_getTransactionId.mp hin
  have hname : (Service.saveTransaction a
      (getTransactionId a.adapterId sid)).adapterId = a.adapterId := by
    unfold Service.saveTransaction
    split <;> rfl
  have hsaved (t : Int64) (ht : t = getTransactionId a.adapterId sid ∨
      t ∈ a.transactionIds) : t ∈ (Service.saveTransaction a
        (getTransactionId a.adapterId sid)).transactionIds := by
    unfold Service.saveTransaction
    split
    · next hin => exact ht.elim (fun heq => heq ▸ hin) id
    · exact (List.mem_orderedInsert ..).mpr ht
  generalize getTransactionId a.adapterId sid = tid
    at hnew hmine hname hsaved ⊢
  have hother {t : Int64} (hne : t ≠ tid) :
      (s.server.startEngine env tid algoInfo input output).2.2.findEngine t =
        s.server.findEngine t :=
    Server.startEngine_findEngine h.kept.handled hne
  refine { h with
    kept := h.kept.startEngine env tid algoInfo input output
    named := ?_, executor := fun _ _ _ => hexec, listed := ?_, gone := ?_,
    once := ?_ }
  · intro d' a' ha'
    simp only [Service.findAdapter, Table.lookup_insert_if] at ha'
    split at ha'
    · next heq =>
        cases ha'
        rw [hname, heq, h.named d a hfind]
    · exact h.named d' a' ha'
  · intro a' t e ha' ht he
    simp only [Service.findAdapter, Table.lookup_insert_if] at ha'
    by_cases heq : t = tid
    · rw [if_pos (hmine (heq ▸ ht)).symm] at ha'
      cases ha'
      exact hsaved t (.inl heq)
    · rw [hother heq] at he
      split at ha'
      · next hcd =>
          cases ha'
          exact hsaved t (.inr (h.listed a t e (hcd ▸ hfind) ht he))
      · exact h.listed a' t e ha' ht he
  · intro hnone t ht
    simp only [Service.findAdapter, Table.lookup_insert_if] at hnone
    split at hnone
    · cases hnone
    · next hcd =>
        have hne : t ≠ tid := fun heq => hcd (hmine (heq ▸ ht)).symm
        exact ⟨(hother hne).trans (h.gone hnone t ht).1,
          (h.gone hnone t ht).2⟩
  · intro t ht
    refine (h.once t ht).startEngine h.kept fun heq _ => hnew ?_
    exact hmine (heq ▸ ht)

theorem loadAlgo (h : TeardownKept c s ledger) {clientInfo : ClientInfo}
    {algoInfo : AlgorithmInfo} {input output : DataInfo}
    (hok : s.tearsDown c (.loadAlgo env clientInfo algoInfo input output)) :
    TeardownKept c (s.loadAlgo env clientInfo algoInfo input output).2.2
      (s.countedAfter ledger
        (.loadAlgo env clientInfo algoInfo input output)) := by
  cases hfind : s.findAdapter clientInfo.clientId with
  | none =>
      simp only [Service.loadAlgo, Service.countedAfter, hfind]
      exact h
  | some a =>
      simp only [Service.loadAlgo, Service.countedAfter, hfind]
      have hnew (heq : clientInfo.clientId = c) := by
        have := hok heq
        rw [← heq, ← h.named _ a hfind] at this
        exact this
      cases hexec : s.getExecutor env.newServerExecutor with
      | mk has s' =>
          have h' := h.getExecutor hexec
          obtain ⟨rfl, hhas⟩ := Service.getExecutor_eq hexec
          cases has with
          | false =>
              rw [if_neg fun hin => by cases hhas.mpr hin]
              exact h'
          | true =>
              rw [if_pos (hhas.mp rfl)]
              dsimp only
              split
              · next hfail => exact h'.startEngine_fail _ _ _ _ _ hfail
              · next hret =>
                  have hsuccess := Decidable.of_not_not hret
                  have hstarted := h'.startEngine_ok env.engines algoInfo input
                    output hfind rfl fun heq => hnew heq hsuccess
                  split
                  · exact hstarted
                  · split
                    · exact hstarted
                    · next asyncHandler hinst =>
                        have hsame := AsyncKept.getInstance_transactions hinst
                        have hasync := hstarted.async.of_same hsame rfl id
                        refine hstarted.withAsync
                          (hasync.startAsyncTransaction ..) fun hnone t ht hc => ?_
                        rcases AsyncKept.startAsyncTransaction_subset ht with
                          rfl | hin
                        · have hcd := belongsTo_getTransactionId.mp hc
                          rw [h.named _ a hfind] at hcd
                          rw [Service.findAdapter, hcd, Finmap.lookup_insert]
                            at hnone
                          cases hnone
                        · exact hsame ▸ hin

/-- Stopping an engine takes a reference back and forgets a session, or
neither. -/
theorem stopEngine (h : TeardownKept c s ledger) (env : Env) (tid : Int64)
    (input : DataInfo) :
    TeardownKept c
      { s with server := (s.server.stopEngine env tid input).server }
      (s.server.stopLedger env tid input ledger) := by
  have hsome {t : Int64} {e : Nat}
      (he : (s.server.stopEngine env tid input).server.findEngine t = some e) :
      s.server.findEngine t = some e :=
    Server.stopEngine_findEngine_some h.kept.managed he
  refine { h with
    kept := h.kept.stopEngine env tid input
    executor := fun t e he => h.executor t e (hsome he)
    listed := fun a t e ha ht he => h.listed a t e ha ht (hsome he)
    gone := fun hnone t ht => ⟨?_, (h.gone hnone t ht).2⟩
    once := fun t ht => (h.once t ht).stopEngine h.kept env tid input }
  refine Option.eq_none_iff_forall_ne_some.mpr fun e he => ?_
  cases (h.gone hnone t ht).1.symm.trans (hsome he)

theorem removeTransaction (h : TeardownKept c s ledger) {a : SaServerAdapter}
    {tid : Int64} (hfind : s.findAdapter d = some a)
    (hnone : s.server.findEngine tid = none) :
    TeardownKept c
      { s with adapters :=
          s.adapters.insert d (Service.removeTransaction a tid) } ledger := by
  refine { h with named := ?_, listed := ?_, gone := ?_ }
  · intro d' a' ha'
    simp only [Service.findAdapter, Table.lookup_insert_if] at ha'
    split at ha'
    · next heq =>
        cases ha'
        exact heq ▸ h.named d a hfind
    · exact h.named d' a' ha'
  · intro a' t e ha' ht he
    simp only [Service.findAdapter, Table.lookup_insert_if] at ha'
    split at ha'
    · next hcd =>
        cases ha'
        refine (List.mem_erase_of_ne ?_).mpr
          (h.listed a t e (hcd ▸ hfind) ht he)
        rintro rfl
        cases hnone.symm.trans he
    · exact h.listed a' t e ha' ht he
  · intro hgone t ht
    simp only [Service.findAdapter, Table.lookup_insert_if] at hgone
    split at hgone
    · cases hgone
    · exact h.gone hgone t ht

theorem unloadAlgo (h : TeardownKept c s ledger) (env : ServiceEnv)
    (clientInfo : ClientInfo) (algoInfo : AlgorithmInfo) (input : DataInfo) :
    TeardownKept c (s.unloadAlgo env clientInfo algoInfo input).2
      (s.countedAfter ledger
        (.unloadAlgo env clientInfo algoInfo input)) := by
  cases hfind : s.findAdapter clientInfo.clientId with
  | none =>
      simp only [Service.unloadAlgo, Service.countedAfter, hfind]
      exact h
  | some a =>
      simp only [Service.unloadAlgo, Service.countedAfter, hfind]
      generalize getTransactionId a.adapterId clientInfo.sessionId = tid
      generalize hs₁ : (if algoInfo.isAsync then _ else s) = s₁
      have hasync : ∃ asyncHandler factory,
          s₁ = { s with asyncHandler, factory } ∧
            AsyncKept asyncHandler factory ∧
              ∀ t ∈ asyncHandler.transactions,
                t ∈ s.asyncHandler.transactions := by
        subst hs₁
        split
        · split
          · exact ⟨_, _, rfl, h.async, fun _ => id⟩
          · next asyncHandler hinst =>
              have hsame := AsyncKept.getInstance_transactions hinst
              have hkept := h.async.of_same hsame rfl id
              refine ⟨_, _, rfl, hkept.stopAsyncTransaction .., fun t ht => ?_⟩
              exact hsame ▸ AsyncKept.stopAsyncTransaction_subset ht
        · exact ⟨_, _, rfl, h.async, fun _ => id⟩
      obtain ⟨asyncHandler, factory, rfl, hkept, hsub⟩ := hasync
      have h₁ := h.withAsync hkept fun _ t ht _ => hsub t ht
      cases hexec : Service.getExecutor _ env.newServerExecutor with
      | mk has s' =>
          have h' := h₁.getExecutor hexec
          obtain ⟨rfl, hhas⟩ := Service.getExecutor_eq hexec
          cases has with
          | false =>
              rw [if_neg fun hin => by cases hhas.mpr hin]
              exact h'
          | true =>
              rw [if_pos (hhas.mp rfl)]
              have hstopped := h'.stopEngine env.engines tid input
              dsimp only
              split
              · exact hstopped
              · next hret =>
                  have hok := Decidable.of_not_not hret
                  exact hstopped.removeTransaction hfind
                    (Server.stopEngine_findEngine_self h.kept.managed hok)

theorem take (h : TeardownKept c s ledger) {i : ServiceStep}
    (hok : s.tearsDown c i) :
    TeardownKept c (s.take i) (s.countedAfter ledger i) := by
  cases i with
  | generateClient env => exact h.generateClient env
  | removeAdapter env clientId => exact h.removeAdapter hok
  | loadAlgo env clientInfo algoInfo input output => exact h.loadAlgo hok
  | unloadAlgo env clientInfo algoInfo input =>
      exact h.unloadAlgo env clientInfo algoInfo input
  | registerCallback env clientId =>
      exact h.of_untouched (.registerCallback env clientId)
  | unregisterCallback env clientId =>
      exact h.of_untouched (.unregisterCallback env clientId)
  | execAlgo kind env clientInfo algoInfo input =>
      exact h.of_untouched (.execAlgo kind env clientInfo algoInfo input)
  | popFront queue => exact h.of_untouched (.popFront queue)
  | deleteFuture id => exact h.of_untouched (.deleteFuture id)

theorem tornDown {k : CountedService} (h : TeardownKept c k.service k.counted)
    (hnone : k.service.findAdapter c = none) : TornDown c k where
  unrecorded := fun tid htid => (h.gone hnone tid htid).1
  uncounted := fun tid e htid hin => by
    cases (h.gone hnone tid htid).1.symm.trans ((h.once tid htid).recorded e hin)
  refCount := h.kept.refCount
  listeners := fun tid htid hin =>
    (h.gone hnone tid htid).2 (h.async.listeners tid hin)
  transactions := fun tid htid => (h.gone hnone tid htid).2

end TeardownKept

theorem reach_teardownKept {c : Int32} {k : CountedService}
    (hk : countedMachine.Reach (fun k i => k.service.tearsDown c i) k) :
    TeardownKept c k.service k.counted := by
  induction hk with
  | start hs =>
      cases hs
      exact initial_teardownKept c
  | step _ hok hstep ih =>
      cases hstep
      exact ih.take hok

theorem removeAdapter_findAdapter {s : Service} {env : ServiceEnv} {c : Int32}
    (h : (s.removeAdapter env c).1 = Retcode.success) :
    (s.removeAdapter env c).2.findAdapter c = none := by
  have hne : Retcode.failure ≠ Retcode.success := by decide
  unfold Service.removeAdapter at h ⊢
  split at h
  · exact absurd h hne
  · split <;> exact Finmap.lookup_erase ..

/-- In every run in which no session of the client is loaded twice over, a
removal of its adapter that succeeds leaves nothing of the client, if its
plugins release their parts on the empty input and its asynchronous sessions
have been unloaded. -/
theorem reach_tornDown {c : Int32} {k : CountedService}
    (hk : countedMachine.Reach (fun k i => k.service.tearsDown c i) k)
    (env : ServiceEnv) (hok : k.service.tearsDown c (.removeAdapter env c))
    (hremoved : (k.service.removeAdapter env c).1 = Retcode.success) :
    TornDown c (k.take (.removeAdapter env c)) :=
  (reach_teardownKept (hk.step hok rfl)).tornDown
    (removeAdapter_findAdapter hremoved)

/-- The client connects and loads a plugin. -/
def sampleCounted : CountedService :=
  ((⟨.initial, []⟩ : CountedService).take (.generateClient .willing)).take
    (.loadAlgo .willing sampleClient sampleAlgo ⟨.null, 0⟩ ⟨.null, 0⟩)

theorem sampleCounted_reach
    {ok : CountedService → ServiceStep → Prop}
    (hgenerate : ok ⟨.initial, []⟩ (.generateClient .willing))
    (hload : ok ((⟨.initial, []⟩ : CountedService).take
      (.generateClient .willing))
      (.loadAlgo .willing sampleClient sampleAlgo ⟨.null, 0⟩ ⟨.null, 0⟩)) :
    countedMachine.Reach ok sampleCounted :=
  .step (.step (.start rfl) hgenerate rfl) hload rfl

theorem reach_tornDown_sample :
    TornDown 1 (sampleCounted.take (.removeAdapter .willing 1)) := by
  have hnone : sampleCounted.service.asyncHandler.transactions = ∅ := by decide
  refine reach_tornDown (sampleCounted_reach trivial fun _ _ => ?_)
    .willing (fun _ => ⟨?_, fun adapter _ => ?_⟩) ?_
  · decide
  · simp [hnone]
  · have hreleases (s : Server) (tids : List Int64) :
        s.releasesAll .willing tids := by
      induction tids generalizing s with
      | nil => trivial
      | cons tid tids ih => exact ⟨fun _ _ _ _ => rfl, ih _⟩
    exact hreleases _ _
  · decide

/-- A plugin that reads a handle from what it is released with. -/
def handleEnv : ServiceEnv :=
  { ServiceEnv.willing with engines := { Env.willing with
      release := fun _ _ inputInfo =>
        if inputInfo.length = 0 then Retcode.failure else Retcode.success } }

/-- On the empty input it finds none, and the session stays recorded. -/
theorem removeAdapter_not_tornDown :
    ¬ ∀ c k, countedMachine.Reach Machine.anyStep k → ∀ env,
      (k.service.removeAdapter env c).1 = Retcode.success →
        TornDown c (k.take (.removeAdapter env c)) := by
  intro h
  have hgone := h 1 sampleCounted (sampleCounted_reach trivial trivial)
    handleEnv (by decide)
  have hrecorded : (sampleCounted.take
      (.removeAdapter handleEnv 1)).service.server.findEngine
        (getTransactionId 1 1) = some 0 := by
    decide
  rw [hgone.unrecorded _ (belongsTo_getTransactionId.mpr rfl)] at hrecorded
  cases hrecorded

end AiEngine.Ref
