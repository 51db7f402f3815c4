import AiEngine.Proofs.PoolLedger

/-!
# Threads and queues over an engine's life

An engine takes a thread and a queue when it is made and gives them back when
it is destroyed. `Accounts` keeps the books while that happens: what the pools
are short of is what the engines own plus what the running call has in hand.
Every step of `CreateEngine` and of `~Engine` moves an entry from one of the
three places to another, and between calls nothing is in hand.

The books do not balance when `CreateEngine` fails after the engine was made:
it gives the thread and the queue back, and the half-built engine, which
`StartEngine` still holds, gives them back again. They do not balance either
when no queue pool or no queue can be allocated once a thread was taken.
-/

namespace AiEngine.Ref

open AiEngine.Lib

/-- The engines that own a thread. -/
abbrev threadOwners (engine : Table Nat Engine) (t : Nat) : Nat :=
  Table.countWith (fun x : Engine => x.thread = t) engine

/-- The engines that own a queue. -/
abbrev queueOwners (engine : Table Nat Engine) (q : Nat) : Nat :=
  Table.countWith (fun x : Engine => x.queue = q) engine

/-- How many engines there are. -/
abbrev liveEngines (engine : Table Nat Engine) : Nat :=
  Table.countWith (fun _ => True) engine

/-- The books, with the threads and the queues a call has in hand. -/
structure Accounts (p : Pools Task) (engine : Table Nat Engine)
    (threads queues : List Nat) : Prop where
  healthy : p.Healthy
  thread : ∀ t, p.threadsOut t = threadOwners engine t + threads.count t
  queue : ∀ q, p.queuesOut q = queueOwners engine q + queues.count q
  busy : p.busyQueueNum = liveEngines engine + queues.length

namespace Accounts

variable {p p' : Pools Task} {engine : Table Nat Engine}
  {threads queues : List Nat} {t q e : Nat} {x : Engine}

theorem initial : Accounts .initial ∅ [] [] where
  healthy := Pools.initial_healthy
  thread := by simp [Pools.threadsOut, Pools.initial, Table.countWith_empty]
  queue := by simp [Pools.queuesOut, Pools.initial, Table.countWith_empty]
  busy := by simp [Pools.initial, Table.countWith_empty]

/-! ## Operations of the pools

Every thread and queue is in an idle list, with an engine, or in the hands of
the call that is under way. Each operation moves one of them. -/

theorem threadPoolInstance (h : Accounts p engine threads queues)
    (alloc : Bool) :
    Accounts (p.threadPoolInstance alloc).2 engine threads queues := by
  unfold Pools.threadPoolInstance
  split
  · exact h
  · next hnone =>
      refine { h with healthy := { h.healthy with threadPool := ?_ } }
      intro hpos
      exact absurd (h.healthy.threadPool hpos) hnone

theorem queuePoolInstance (h : Accounts p engine threads queues)
    (capacity : Nat) (alloc : Bool) :
    Accounts (p.queuePoolInstance capacity alloc).2 engine threads queues := by
  unfold Pools.queuePoolInstance
  split
  · exact h
  · next hnone =>
      refine { h with healthy := { h.healthy with queuePool := ?_ } }
      intro hpos
      exact absurd (h.healthy.queuePool hpos) hnone

theorem threadPop (h : Accounts p engine threads queues) {alloc : Bool}
    (hpool : p.hasThreadPool = true) (hpop : p.threadPop alloc = (some t, p')) :
    Accounts p' engine (t :: threads) queues ∧
      (p'.thread t).status ≠ .running := by
  have hout := Pools.threadPop_threadsOut hpop
  unfold Pools.threadPop at hpop
  split at hpop
  · next hidle =>
      split at hpop
      · cases hpop
        refine ⟨⟨⟨fun _ => hpool, h.healthy.queuePool, ?_⟩, ?_, h.queue,
          h.busy⟩, ?_⟩
        · simp only [Pools.setThread, hidle, List.not_mem_nil,
            IsEmpty.forall_iff, implies_true]
        · intro u
          rw [hout, h.thread, List.count_cons]
          simp only [beq_iff_eq, eq_comm (a := u)]
          split <;> omega
        · simp [Pools.setThread, Thread.new]
      · cases hpop
  · next t' ts hidle =>
      cases hpop
      have hstop := h.healthy.idle
      rw [hidle] at hstop
      refine ⟨⟨⟨fun _ => hpool, h.healthy.queuePool, ?_⟩, ?_, h.queue,
        h.busy⟩, hstop t List.mem_cons_self⟩
      · exact fun u hu => hstop u (List.mem_cons_of_mem t hu)
      · intro u
        rw [hout, h.thread, List.count_cons]
        simp only [beq_iff_eq, eq_comm (a := u)]
        split <;> omega

theorem stopThread (h : Accounts p engine threads queues) (t : Nat) :
    Accounts (p.stopThread t) engine threads queues := by
  obtain ⟨hpool, hnum, hqpool, hqs, hbusy, hqnum⟩ := p.stopThread_frame t
  refine ⟨⟨?_, ?_, ?_⟩, ?_, ?_, ?_⟩
  · rw [hpool, hnum]
    exact h.healthy.threadPool
  · rw [hqpool, hqnum]
    exact h.healthy.queuePool
  · intro u hu
    rw [p.stopThread_idleThreads] at hu
    rw [p.stopThread_thread]
    split
    · exact Thread.stopThread_status _
    · exact h.healthy.idle u hu
  · intro u
    rw [p.stopThread_threadsOut]
    exact h.thread u
  · intro r
    rw [Pools.queuesOut, hqnum, hqs]
    exact h.queue r
  · rw [hbusy]
    exact h.busy

theorem threadPush (h : Accounts p engine (t :: threads) queues) :
    Accounts (p.threadPush t) engine threads queues := by
  have hout := p.threadPush_threadsOut t
  have hstop := h.stopThread t
  refine ⟨⟨hstop.healthy.threadPool, hstop.healthy.queuePool, ?_⟩, ?_,
    hstop.queue, hstop.busy⟩
  · intro u hu
    rw [Pools.threadPush, List.mem_append, List.mem_singleton] at hu
    rcases hu with hu | hu
    · exact hstop.healthy.idle u hu
    · simp only [Pools.threadPush, hu, p.stopThread_thread, if_pos]
      exact Thread.stopThread_status _
  · intro u
    rw [hout, h.thread, List.count_cons]
    simp only [beq_iff_eq, eq_comm (a := u)]
    split <;> omega

theorem queuePop (h : Accounts p engine threads queues) {alloc : Bool}
    (hpool : p.hasQueuePool = true) (hpop : p.queuePop alloc = (some q, p')) :
    Accounts p' engine threads (q :: queues) := by
  obtain ⟨htpool, hidle, hthread, htnum, hqpool⟩ := Pools.queuePop_frame hpop
  have hout := Pools.queuePop_queuesOut hpop
  refine ⟨⟨?_, ?_, ?_⟩, ?_, ?_, ?_⟩
  · rw [htpool, htnum]
    exact h.healthy.threadPool
  · intro _
    rw [hqpool]
    exact hpool
  · rw [hidle, hthread]
    exact h.healthy.idle
  · intro u
    rw [Pools.threadsOut, htnum, hidle]
    exact h.thread u
  · intro r
    rw [(hout r).1, h.queue, List.count_cons]
    simp only [beq_iff_eq, eq_comm (a := r)]
    split <;> omega
  · rw [(hout q).2, h.busy, List.length_cons]
    omega

theorem queuePush (h : Accounts p engine threads (q :: queues)) :
    Accounts (p.queuePush q) engine threads queues := by
  obtain ⟨htpool, hidle, hthread, htnum, hqpool, hqnum⟩ := p.queuePush_frame q
  have hlen := h.busy
  rw [List.length_cons] at hlen
  have hout := Pools.queuePush_queuesOut (p := p) (by omega) q
  refine ⟨⟨?_, ?_, ?_⟩, ?_, ?_, ?_⟩
  · rw [htpool, htnum]
    exact h.healthy.threadPool
  · rw [hqpool, hqnum]
    exact h.healthy.queuePool
  · rw [hidle, hthread]
    exact h.healthy.idle
  · intro u
    rw [Pools.threadsOut, htnum, hidle]
    exact h.thread u
  · intro r
    rw [(hout r).1, h.queue, List.count_cons]
    simp only [beq_iff_eq, eq_comm (a := r)]
    split <;> omega
  · have hbusy := (hout q).2
    omega

theorem newEngine (h : Accounts p engine (x.thread :: threads)
    (x.queue :: queues)) (hnew : engine.lookup e = none) :
    Accounts p (engine.insert e x) threads queues := by
  refine ⟨h.healthy, ?_, ?_, ?_⟩
  · intro u
    have hone := Table.countWith_insert (fun x : Engine => x.thread = u) x hnew
    have hout := h.thread u
    rw [List.count_cons] at hout
    simp only [threadOwners, beq_iff_eq] at hout ⊢
    omega
  · intro r
    have hone := Table.countWith_insert (fun x : Engine => x.queue = r) x hnew
    have hout := h.queue r
    rw [List.count_cons] at hout
    simp only [queueOwners, beq_iff_eq] at hout ⊢
    omega
  · have hone := Table.countWith_insert (fun _ : Engine => True) x hnew
    have hbusy := h.busy
    rw [List.length_cons] at hbusy
    simp only [liveEngines, if_true] at hone hbusy ⊢
    omega

theorem deleteEngine (h : Accounts p engine threads queues)
    (hx : engine.lookup e = some x) :
    Accounts p (engine.erase e) (x.thread :: threads) (x.queue :: queues) := by
  refine ⟨h.healthy, ?_, ?_, ?_⟩
  · intro u
    have hone := Table.countWith_erase (fun x : Engine => x.thread = u) hx
    have hout := h.thread u
    rw [List.count_cons]
    simp only [threadOwners, beq_iff_eq] at hout ⊢
    omega
  · intro r
    have hone := Table.countWith_erase (fun x : Engine => x.queue = r) hx
    have hout := h.queue r
    rw [List.count_cons]
    simp only [queueOwners, beq_iff_eq] at hout ⊢
    omega
  · have hone := Table.countWith_erase (fun _ : Engine => True) hx
    have hbusy := h.busy
    rw [List.length_cons]
    simp only [liveEngines, if_true] at hone hbusy ⊢
    omega

theorem updateEngine (h : Accounts p engine threads queues) {y : Engine}
    (hx : engine.lookup e = some x) (ht : y.thread = x.thread)
    (hq : y.queue = x.queue) :
    Accounts p (engine.insert e y) threads queues := by
  refine ⟨h.healthy, ?_, ?_, ?_⟩
  · intro u
    have hsame := Table.countWith_update (fun x : Engine => x.thread = u) y hx
    rw [ht] at hsame
    rw [h.thread, threadOwners, threadOwners, Nat.add_right_cancel hsame]
  · intro r
    have hsame := Table.countWith_update (fun x : Engine => x.queue = r) y hx
    rw [hq] at hsame
    rw [h.queue, queueOwners, queueOwners, Nat.add_right_cancel hsame]
  · have hsame := Table.countWith_update (fun _ : Engine => True) y hx
    rw [h.busy, liveEngines, liveEngines, Nat.add_right_cancel hsame]

theorem not_idle (h : Accounts p engine threads queues)
    (ht : 0 < threadOwners engine t + threads.count t) :
    t ∉ p.idleThreads := by
  have hout := h.thread t
  rw [Pools.threadsOut] at hout
  rw [← List.count_eq_zero]
  split at hout <;> omega

theorem setThread (h : Accounts p engine threads queues)
    (ht : 0 < threadOwners engine t + threads.count t) (th : Thread) :
    Accounts (p.setThread t th) engine threads queues := by
  refine ⟨⟨h.healthy.threadPool, h.healthy.queuePool, ?_⟩, h.thread, h.queue,
    h.busy⟩
  intro u hu
  have hne : u ≠ t := fun heq => h.not_idle ht (heq ▸ hu)
  simp only [Pools.setThread, if_neg hne]
  exact h.healthy.idle u hu

theorem hasThreadPool (h : Accounts p engine (t :: threads) queues) :
    p.hasThreadPool = true := by
  have hout := h.thread t
  rw [Pools.threadsOut, List.count_cons_self] at hout
  refine h.healthy.threadPool ?_
  split at hout <;> omega

theorem hasQueuePool (h : Accounts p engine threads (q :: queues)) :
    p.hasQueuePool = true := by
  have hout := h.queue q
  rw [Pools.queuesOut, List.count_cons_self] at hout
  refine h.healthy.queuePool ?_
  split at hout <;> omega

theorem releaseWorker (env : Env)
    (h : Accounts p engine (x.thread :: threads) (x.queue :: queues)) :
    Accounts (Server.engineUninitialize p env x) engine threads queues := by
  have hstop := h.stopThread x.thread
  have hpush := hstop.threadPush
  simp only [Server.engineUninitialize,
    Pools.threadPoolInstance_of_has hstop.hasThreadPool, not_true, if_false,
    Pools.queuePoolInstance_of_has hpush.hasQueuePool]
  exact hpush.queuePush

end Accounts

/-- The books between calls, and engine numbers that were not given out. -/
structure Balanced (s : Server) : Prop where
  accounts : Accounts s.pools s.engine [] []
  fresh : ∀ e, s.engineNum ≤ e → s.engine.lookup e = none

/-- Once a thread was taken: a queue can be had unless too many are out, and
an engine that can be made can be initialised. -/
def Pools.completes (p : Pools Task) (env : Env) : Prop :=
  (p.hasQueuePool = true ∨ env.newQueuePool = true) ∧
    (p.busyQueueNum < maxQueueCount →
      (p.queues ≠ [] ∨ env.newQueue = true) ∧
        (env.newEngine = true →
          env.newMsgHandler = true ∧ env.createThread = true))

/-- Whether a thread can be taken. -/
def Pools.givesThread (p : Pools Task) (env : Env) : Prop :=
  (p.hasThreadPool = true ∨ env.newThreadPool = true) ∧
    (p.idleThreads ≠ [] ∨ env.newThread = true)

/-- Whether `CreateEngine` finds the plugin. -/
def Server.hasPlugin (s : Server) (env : Env) (key : EngineKey) : Prop :=
  ∃ manager, getPluginManager s.pluginManager env.plugins.newPluginManager =
      some manager ∧
    (manager.getPlugin env.plugins key.aid key.version).2.1.isSome = true

/-- What `popResources` leaves: nothing in hand, or a thread that is not
running and a queue. -/
def Popped (env : Env) (engine : Table Nat Engine) :
    Option (Nat × Nat) × Pools Task → Prop
  | (none, p) => Accounts p engine [] []
  | (some (t, q), p) => Accounts p engine [t] [q] ∧
      (p.thread t).status ≠ .running ∧
        (env.newEngine = true →
          env.newMsgHandler = true ∧ env.createThread = true)

theorem popResources_spec {p : Pools Task} {engine : Table Nat Engine}
    {env : Env} (h : Accounts p engine [] [])
    (hok : p.givesThread env → p.completes env) :
    Popped env engine (Server.popResources p env) := by
  unfold Server.popResources
  split
  next hasThreadPool p₁ hp₁ =>
  have h₁ : Accounts p₁ engine [] [] := by
    have := h.threadPoolInstance env.newThreadPool
    rwa [hp₁] at this
  obtain ⟨hhas, hidle₁, -, hqpool₁, hqs₁, hbusy₁⟩ :=
    Pools.threadPoolInstance_frame hp₁
  split
  · exact h₁
  · next htrue =>
      simp only [Bool.not_eq_true, Bool.not_eq_false] at htrue
      subst htrue
      split
      · next p₂ hp₂ =>
          rw [Pools.threadPop_none hp₂]
          exact h₁
      · next t p₂ hp₂ =>
          obtain ⟨h₂, hstatus⟩ :=
            h₁.threadPop (Pools.threadPoolInstance_has hp₁) hp₂
          obtain ⟨hsome, hqpool₂, hqs₂, hbusy₂⟩ := Pools.threadPop_frame hp₂
          obtain ⟨hinst, hroom⟩ := hok ⟨hhas.mp rfl, hidle₁ ▸ hsome.mp rfl⟩
          rw [← hqpool₁, ← hqpool₂] at hinst
          rw [← hqs₁, ← hqs₂, ← hbusy₁, ← hbusy₂] at hroom
          split
          next hasQueuePool p₃ hp₃ =>
          obtain ⟨hhas₃, hthread₃, hqs₃, hbusy₃⟩ :=
            Pools.queuePoolInstance_frame hp₃
          have h₃ : Accounts p₃ engine [t] [] := by
            have := h₂.queuePoolInstance maxSyncMsgNum env.newQueuePool
            rwa [hp₃] at this
          rw [← hqs₃, ← hbusy₃] at hroom
          split
          · next hfalse => exact absurd (hhas₃.mpr hinst) hfalse
          · split
            · next p₄ hp₄ =>
                rcases Pools.queuePop_none hp₄ with ⟨-, hsame⟩ | hleak
                · rw [hsame]
                  exact h₃.threadPush
                · obtain ⟨hlt, hempty, hfail⟩ := hleak
                  rcases (hroom hlt).1 with hne | halloc
                  · exact absurd hempty hne
                  · rw [hfail] at halloc
                    cases halloc
            · next q p₄ hp₄ =>
                rw [hhas₃.mpr hinst] at hp₃
                refine ⟨h₃.queuePop (Pools.queuePoolInstance_has hp₃) hp₄, ?_,
                  (hroom (Pools.queuePop_some hp₄)).2⟩
                rw [(Pools.queuePop_frame hp₄).2.2.1, hthread₃]
                exact hstatus

/-- What a call that may have made an engine leaves: balanced books, and an
engine only where it succeeded. -/
def Made (r : Int × Option Nat × Server) : Prop :=
  Balanced r.2.2 ∧ ∀ e, r.2.1 = some e → r.1 = Retcode.success

theorem buildEngine_made {s : Server} {env : Env} {plugin : Plugin}
    {t q : Nat} (h : Accounts s.pools s.engine [t] [q])
    (hfresh : ∀ e, s.engineNum ≤ e → s.engine.lookup e = none)
    (hstatus : (s.pools.thread t).status ≠ .running)
    (hok : env.newEngine = true →
      env.newMsgHandler = true ∧ env.createThread = true) :
    Made (s.buildEngine env plugin t q) := by
  unfold Server.buildEngine
  split
  · exact ⟨⟨h.queuePush.threadPush, hfresh⟩, by simp⟩
  · next hnew =>
      obtain ⟨hhandler, hcreate⟩ := hok (by simpa using hnew)
      have hnone := hfresh _ (Nat.le_refl s.engineNum)
      have hown := h.newEngine (x := ⟨0, plugin, t, q, none⟩) hnone
      simp only [Server.engineInitialize, hhandler, hcreate, not_true,
        if_false, Thread.startThread, if_neg hstatus, if_true, ne_eq]
      have howned : 0 < threadOwners (s.engine.insert s.engineNum
          ⟨0, plugin, t, q, none⟩) t + ([] : List Nat).count t := by
        refine Nat.add_pos_left ((Table.countWith_pos _).mpr ?_) _
        exact ⟨_, _, Finmap.lookup_insert _, rfl⟩
      refine ⟨⟨?_, ?_⟩, fun _ _ => rfl⟩
      · exact (hown.setThread howned _).updateEngine
          (y := ⟨0, plugin, t, q, _⟩) (Finmap.lookup_insert _) rfl rfl
      · intro e he
        have hne : e ≠ s.engineNum := by
          simp only at he
          omega
        simp only [Table.lookup_insert_if, if_neg hne]
        exact hfresh e (by simp only at he; omega)

theorem Balanced.createEngine {s : Server} {env : Env} {key : EngineKey}
    (h : Balanced s)
    (hok : s.hasPlugin env key → s.pools.givesThread env →
      s.pools.completes env) :
    Made (s.createEngine env key) := by
  unfold Server.createEngine
  split
  · exact ⟨h, by simp⟩
  · next manager hmanager =>
      split
      · exact ⟨⟨h.accounts, h.fresh⟩, by simp⟩
      · next ret plugin manager' hget =>
          have hplugin : s.hasPlugin env key := ⟨manager, hmanager, by simp [hget]⟩
          have hpop := popResources_spec h.accounts (hok hplugin)
          dsimp only
          split
          · next pools hres =>
              rw [hres] at hpop
              exact ⟨⟨hpop, h.fresh⟩, by simp⟩
          · next t q pools hres =>
              rw [hres] at hpop
              obtain ⟨haccounts, hstatus, hengine⟩ := hpop
              exact buildEngine_made haccounts h.fresh hstatus hengine

theorem Balanced.dropEngine {s : Server} (h : Balanced s) (env : Env)
    (e : Nat) : Balanced (s.dropEngine env e) := by
  unfold Server.dropEngine
  split
  · exact h
  · next x hx =>
      split
      · exact h
      · refine ⟨(h.accounts.deleteEngine hx).releaseWorker env, ?_⟩
        intro e' he'
        rw [Table.lookup_erase_if, h.fresh e' he', ite_self]

theorem Balanced.recordClient {s : Server} (h : Balanced s) (env : Env)
    (tid : Int64) (e : Nat) : Balanced (s.recordClient env tid e) := by
  unfold Server.recordClient
  have hrec : Balanced
      { s with clientEngines := s.clientEngines.insert tid e } :=
    ⟨h.accounts, h.fresh⟩
  split
  · exact hrec
  · exact hrec.dropEngine env _

theorem Balanced.setRefCount {s : Server} (h : Balanced s) {e : Nat}
    {x : Engine} (hx : s.engine.lookup e = some x) (n : Int32) :
    Balanced (s.setRefCount e x n) := by
  refine ⟨h.accounts.updateEngine hx rfl rfl, ?_⟩
  intro e' he'
  have hne : e' ≠ e := by
    rintro rfl
    rw [h.fresh _ he'] at hx
    cases hx
  rw [Server.setRefCount, Table.lookup_insert_if, if_neg hne]
  exact h.fresh e' he'

theorem Balanced.prepareEngine {s : Server} (h : Balanced s) (env : Env)
    (tid : Int64) (e : Nat) (input output : DataInfo) :
    Balanced (s.prepareEngine env tid e input output).2.2 := by
  unfold Server.prepareEngine
  split
  · exact h
  · next x hx =>
      split
      next ret out hprep =>
      split
      · exact h
      · exact (h.setRefCount hx _).recordClient env tid e

/-- The resources of a `StartEngine` call are kept track of: if it makes an
engine for a key that has none, and gets as far as a thread, then a queue can
be had unless too many are out, and the engine can be initialised. -/
def keepsResources (s : Server) : ServerCall → Prop
  | .startEngine env _ algoInfo _ _ =>
      let aid := getAlgorithmIdByType algoInfo.algorithmType
      let key : EngineKey := ⟨aid, algoInfo.algorithmVersion⟩
      aid ≠ algorithmIdInvalid → s.engines.lookup key = none →
        s.hasPlugin env key → s.pools.givesThread env → s.pools.completes env
  | _ => True

theorem Balanced.createEngineWithCheck {s : Server} {env : Env}
    {key : EngineKey} (h : Balanced s)
    (hok : s.hasPlugin env key → s.pools.givesThread env →
      s.pools.completes env) :
    Made (s.createEngineWithCheck env key) := by
  unfold Server.createEngineWithCheck
  split
  · exact ⟨h, fun _ _ => rfl⟩
  · have hmade := h.createEngine hok
    split
    · next ret e s' hcreate =>
        rw [hcreate] at hmade
        split
        · exact hmade
        · exact ⟨⟨hmade.1.accounts, hmade.1.fresh⟩, fun _ _ => rfl⟩
    · next ret s' hcreate =>
        rw [hcreate] at hmade
        exact hmade

theorem Balanced.startEngine {s : Server} (h : Balanced s) {env : Env}
    {tid : Int64} {algo : AlgorithmInfo} {input output : DataInfo}
    (hok : keepsResources s (.startEngine env tid algo input output)) :
    Balanced (s.startEngine env tid algo input output).2.2 := by
  unfold Server.startEngine
  dsimp only
  split
  · exact h
  · next haid =>
      split
      · exact h.prepareEngine env tid _ input output
      · next hnone =>
          have hmade := h.createEngineWithCheck (hok haid hnone)
          split
          · next ret s' hcreate =>
              rw [hcreate] at hmade
              exact hmade.1
          · next ret e s' hcreate =>
              rw [hcreate] at hmade
              split
              · exact hmade.1.dropEngine env e
              · exact hmade.1.prepareEngine env tid e input output

theorem Balanced.stopEngine {s : Server} (h : Balanced s) (env : Env)
    (tid : Int64) (input : DataInfo) :
    Balanced (s.stopEngine env tid input).server := by
  unfold Server.stopEngine
  split
  · exact h
  · next e he =>
      split
      · exact h
      · next x hx =>
          dsimp only
          split
          · exact h
          · have hset := h.setRefCount hx (x.refCount - 1)
            unfold Server.unloadEngine
            dsimp only
            split
            · split
              · exact hset
              · refine Balanced.dropEngine ?_ env e
                exact ⟨hset.accounts, hset.fresh⟩
            · refine Balanced.dropEngine ?_ env e
              exact ⟨hset.accounts, hset.fresh⟩

theorem Server.setOption_server (s : Server) (env : Env) (tid : Int64)
    (optionType : Int32) (input : DataInfo) :
    (s.setOption env tid optionType input).2 = s := by
  unfold Server.setOption
  split <;> rfl

theorem Server.getOption_server (s : Server) (env : Env) (tid : Int64)
    (optionType : Int32) (input output : DataInfo) :
    (s.getOption env tid optionType input output).2.2 = s := by
  unfold Server.getOption
  split <;> rfl

theorem Balanced.call {s : Server} (h : Balanced s) {c : ServerCall}
    (hok : keepsResources s c) : Balanced (s.call c) := by
  cases c with
  | startEngine env tid algo input output => exact h.startEngine hok
  | stopEngine env tid input => exact h.stopEngine env tid input
  | setOption env tid optionType input =>
      rw [Server.call, Server.setOption_server]
      exact h
  | getOption env tid optionType input output =>
      rw [Server.call, Server.getOption_server]
      exact h

/-- Between calls each thread and each queue that was made is once in its
free list or owned by one engine, no two engines share one, and the pool of
queues counts the engines. -/
structure Conserved (s : Server) : Prop where
  threads : ∀ t, s.pools.idleThreads.count t + threadOwners s.engine t =
    if t < s.pools.threadNum then 1 else 0
  queues : ∀ q, s.pools.queues.count q + queueOwners s.engine q =
    if q < s.pools.queueNum then 1 else 0
  unshared : ∀ e e' x x', s.engine.lookup e = some x →
    s.engine.lookup e' = some x' →
      x.thread = x'.thread ∨ x.queue = x'.queue → e = e'
  busy : s.pools.busyQueueNum = liveEngines s.engine

theorem Balanced.conserved {s : Server} (h : Balanced s) : Conserved s := by
  have hthreads : ∀ t, s.pools.idleThreads.count t + threadOwners s.engine t =
      if t < s.pools.threadNum then 1 else 0 := by
    intro t
    have hout := h.accounts.thread t
    rw [Pools.threadsOut, List.count_nil] at hout
    split at hout <;> split <;> omega
  have hqueues : ∀ q, s.pools.queues.count q + queueOwners s.engine q =
      if q < s.pools.queueNum then 1 else 0 := by
    intro q
    have hout := h.accounts.queue q
    rw [Pools.queuesOut, List.count_nil] at hout
    split at hout <;> split <;> omega
  refine ⟨hthreads, hqueues, ?_, by simpa using h.accounts.busy⟩
  intro e e' x x' hx hx' hshare
  rcases hshare with ht | hq
  · refine Table.eq_of_countWith_le_one (fun y : Engine => y.thread = x'.thread)
      ?_ hx hx' ht rfl
    have hone := hthreads x'.thread
    rw [threadOwners] at hone
    split at hone <;> omega
  · refine Table.eq_of_countWith_le_one (fun y : Engine => y.queue = x'.queue)
      ?_ hx hx' hq rfl
    have hone := hqueues x'.queue
    rw [queueOwners] at hone
    split at hone <;> omega

/-- Threads and queues are conserved over every run whose calls keep track
of their resources. -/
theorem reach_conserved {s : Server}
    (hs : serverMachine.Reach keepsResources s) : Conserved s := by
  refine Balanced.conserved (hs.invariant ?_ ?_)
  · rintro s rfl
    exact ⟨Accounts.initial, fun _ _ => Finmap.lookup_empty _⟩
  · intro s c s' hinv hok hstep
    cases hstep
    exact hinv.call hok

/-- A call for the first sample plugin, without data. -/
def sampleStart (env : Env) (tid : Int64) : ServerCall :=
  .startEngine env tid { AlgorithmInfo.zero with algorithmVersion := 1 }
    ⟨.null, 0⟩ ⟨.null, 0⟩

/-- Two transactions of one engine are started, and the first is stopped. -/
def startTwice : List ServerCall :=
  [sampleStart .willing 1, sampleStart .willing 2,
    .stopEngine .willing 1 ⟨.null, 0⟩]

theorem reach_conserved_sample :
    (startTwice.foldl Server.call .initial).clientEngines.keys = {2} ∧
      Conserved (startTwice.foldl Server.call .initial) := by
  have hfirst : keepsResources .initial (sampleStart .willing 1) :=
    fun _ _ _ _ => ⟨.inr rfl, fun _ => ⟨.inr rfl, fun _ => ⟨rfl, rfl⟩⟩⟩
  have hone : serverMachine.Reach keepsResources
      (Server.initial.call (sampleStart .willing 1)) :=
    .step (.start rfl) hfirst rfl
  have hsecond : keepsResources (Server.initial.call (sampleStart .willing 1))
      (sampleStart .willing 2) := fun _ hnone =>
    absurd hnone (by decide)
  have htwo := Machine.Reach.step hone hsecond rfl
  have hstopped := htwo.step
    (show keepsResources _ (.stopEngine .willing 1 ⟨.null, 0⟩) from trivial) rfl
  exact ⟨by decide, reach_conserved hstopped⟩

/-- When the message handler of the first engine cannot be allocated, its
thread ends up in the idle list twice. -/
theorem noHandler_not_conserved :
    ∃ s, serverMachine.Reach Machine.anyStep s ∧ ¬ Conserved s := by
  refine ⟨Server.initial.call
    (sampleStart { Env.willing with newMsgHandler := false } 1),
    .step (.start rfl) trivial rfl, fun h => ?_⟩
  exact absurd (h.threads 0) (by decide)

end AiEngine.Ref
