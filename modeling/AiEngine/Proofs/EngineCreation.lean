import AiEngine.Proofs.EngineResources

/-!
# What making an engine does

`CreateEngine` asks for a plugin, takes a thread and a queue, makes the engine
and initialises it, and each of these can fail. This file says once what comes
out: `Created` relates the state before to the state after for all the ways
the call can end, and `canCreate` is when it succeeds. The proofs about the
maps, the counts and the handlers go by it and do not open the call again.
-/

namespace AiEngine.Ref

open AiEngine.Lib

/-! ## What making an engine takes

An engine is made if and only if each of its parts can be had. Each function
on the way has a lemma that says when it succeeds and what is in the maps and
pools either way. -/

/-- Whether `CreateEngine` succeeds. -/
def Server.canCreate (s : Server) (env : Env) (key : EngineKey) : Prop :=
  s.hasPlugin env key ∧ s.pools.givesThread env ∧
    s.pools.nextThread.status ≠ .running ∧
    (s.pools.hasQueuePool = true ∨ env.newQueuePool = true) ∧
    s.pools.busyQueueNum < maxQueueCount ∧
    (s.pools.queues ≠ [] ∨ env.newQueue = true) ∧ env.newEngine = true ∧
    env.newMsgHandler = true ∧ env.createThread = true

theorem Pools.queuePop_isSome {τ : Type} {p p' : Pools τ} {alloc : Bool}
    {oq : Option Nat} (h : p.queuePop alloc = (oq, p')) :
    oq.isSome = true ↔
      p.busyQueueNum < maxQueueCount ∧ (p.queues ≠ [] ∨ alloc = true) := by
  unfold Pools.queuePop at h
  split at h
  · next hmax =>
      cases h
      simp [hmax]
  · next hmax =>
      have hlt : p.busyQueueNum < maxQueueCount := by omega
      dsimp only at h
      split at h
      · next hq =>
          split at h
          · next halloc =>
              cases h
              simp [hlt, halloc]
          · next halloc =>
              cases h
              simp [hq, halloc]
      · next hq =>
          cases h
          simp [hlt, hq]

/-- Which resources there are, and the thread that is handed out. -/
theorem popResources_isSome {p p' : Pools Task} {env : Env}
    {res : Option (Nat × Nat)} (h : Server.popResources p env = (res, p')) :
    (res.isSome = true ↔ p.givesThread env ∧
      (p.hasQueuePool = true ∨ env.newQueuePool = true) ∧
      p.busyQueueNum < maxQueueCount ∧
      (p.queues ≠ [] ∨ env.newQueue = true)) ∧
    ∀ t q, res = some (t, q) → p'.thread t = p.nextThread := by
  unfold Server.popResources at h
  split at h
  next hasThreadPool p₁ hp₁ =>
  obtain ⟨hhas, hidle₁, hthread₁, hqpool₁, hqs₁, hbusy₁⟩ :=
    Pools.threadPoolInstance_frame hp₁
  have hnext : p₁.nextThread = p.nextThread := by
    rw [Pools.nextThread, Pools.nextThread, hidle₁, hthread₁]
  rw [Pools.givesThread, ← hhas, ← hidle₁, ← hqpool₁, ← hqs₁, ← hbusy₁]
  split at h
  · next hfalse =>
      cases h
      simp [hfalse]
  · next htrue =>
      simp only [not_not] at htrue
      split at h
      · next p₂ hp₂ =>
          cases h
          have hsome := (Pools.threadPop_frame hp₂).1
          simp only [Option.isSome_none, Bool.false_eq_true, false_iff] at hsome
          simp [hsome]
      · next t p₂ hp₂ =>
          obtain ⟨hsome, hqpool₂, hqs₂, hbusy₂⟩ := Pools.threadPop_frame hp₂
          have hthread₂ := Pools.threadPop_thread hp₂
          rw [← hsome, ← hqpool₂, ← hqs₂, ← hbusy₂]
          split at h
          next hasQueuePool p₃ hp₃ =>
          obtain ⟨hhas₃, hthread₃, hqs₃, hbusy₃⟩ :=
            Pools.queuePoolInstance_frame hp₃
          rw [← hhas₃, ← hqs₃, ← hbusy₃]
          split at h
          · next hfalse =>
              cases h
              simp [hfalse]
          · next hqtrue =>
              simp only [not_not] at hqtrue
              split at h
              · next p₄ hp₄ =>
                  have hq := Pools.queuePop_isSome hp₄
                  cases h
                  simp only [Option.isSome_none, Bool.false_eq_true,
                    false_iff] at hq
                  simp [hq]
              · next q p₄ hp₄ =>
                  have hq := Pools.queuePop_isSome hp₄
                  simp only [Option.isSome_some, true_iff] at hq
                  cases h
                  refine ⟨by simp [htrue, hqtrue, hq], ?_⟩
                  rintro t' q' ⟨rfl, rfl⟩
                  rw [(Pools.queuePop_frame hp₄).2.2.1, hthread₃, hthread₂,
                    hnext]

/-- The plugin the manager holds for a key. -/
def Server.loadedPlugin (s : Server) (key : EngineKey) : Option Plugin :=
  match s.pluginManager with
  | some manager => manager.findPlugin ⟨key.aid, key.version⟩
  | none => none

/-- A plugin is filed under its own id and version. -/
def PluginManager.Keyed (m : PluginManager) : Prop :=
  ∀ key p, m.findPlugin key = some p → p.aid = key.aid ∧ p.version = key.version

theorem loadPluginAlgorithm_key {env : PluginEnv} {aid : String}
    {version : Int64} {ret : Int} {p : Plugin}
    (h : loadPluginAlgorithm env aid version = (ret, some p)) :
    p.aid = aid ∧ p.version = version := by
  unfold loadPluginAlgorithm at h
  split at h
  · split at h
    · cases h
    · split at h
      · cases h
      · split at h
        · cases h
        · split at h
          · cases h
          · cases h
            exact ⟨rfl, rfl⟩
  · cases h

theorem loadPluginAlgorithm_none {env : PluginEnv} {aid : String}
    {version : Int64} {ret : Int}
    (h : loadPluginAlgorithm env aid version = (ret, none)) :
    ret ≠ Retcode.success := by
  unfold loadPluginAlgorithm at h
  split at h
  · split at h
    · cases h
      decide
    · split at h
      · cases h
        decide
      · split at h
        · cases h
          decide
        · split at h
          · cases h
            decide
          · cases h
  · cases h
    decide

/-- What asking for a plugin does to the manager. -/
structure Asked (m : PluginManager) (key : PluginKey)
    (r : Int × Option Plugin × PluginManager) : Prop where
  keyed : m.Keyed → r.2.2.Keyed
  kept : ∀ k p, m.findPlugin k = some p → r.2.2.findPlugin k = some p
  found : ∀ p, r.2.1 = some p → r.2.2.findPlugin key = some p
  refused : r.2.1 = none → r.1 ≠ Retcode.success

theorem PluginManager.getPlugin_asked (m : PluginManager) (env : PluginEnv)
    (aid : String) (version : Int64) :
    Asked m ⟨aid, version⟩ (m.getPlugin env aid version) := by
  unfold PluginManager.getPlugin
  split
  · next p hp =>
      exact ⟨id, fun _ _ => id, fun p' hp' => by cases hp'; exact hp, by simp⟩
  · next hnone =>
      unfold PluginManager.loadPlugin
      split
      · next ret hload =>
          exact ⟨id, fun _ _ => id, by simp,
            fun _ => loadPluginAlgorithm_none hload⟩
      · next ret p hload =>
          refine ⟨?_, ?_, ?_, by simp⟩
          · intro hkeyed k p' hk
            simp only [PluginManager.findPlugin, PluginManager.addPlugin,
              Table.lookup_insert_if] at hk
            split at hk
            · next heq =>
                cases hk
                rw [heq]
                exact loadPluginAlgorithm_key hload
            · exact hkeyed k p' hk
          · intro k p' hk
            have hne : k ≠ ⟨aid, version⟩ := by
              rintro rfl
              rw [hnone] at hk
              cases hk
            simp only [PluginManager.findPlugin, PluginManager.addPlugin,
              Table.lookup_insert_if, if_neg hne]
            exact hk
          · intro p' hp'
            cases hp'
            exact Finmap.lookup_insert _

/-- What initialising an engine does: at most its handler is set. -/
structure Initialized (s : Server) (e : Nat) (engine : Engine) (ok : Prop)
    (r : Int × Server) : Prop where
  engines : r.2.engines = s.engines
  clientEngines : r.2.clientEngines = s.clientEngines
  pluginManager : r.2.pluginManager = s.pluginManager
  engineNum : r.2.engineNum = s.engineNum
  success : r.1 = Retcode.success ↔ ok
  others : ∀ e', e' ≠ e → r.2.engine.lookup e' = s.engine.lookup e'
  self : s.engine.lookup e = some engine → ∃ handler,
    r.2.engine.lookup e = some { engine with msgHandler := handler } ∧
      (r.1 = Retcode.success →
        handler = some (Server.msgHandlerFor engine.plugin))

theorem Server.engineInitialize_initialized (s : Server) (env : Env) (e : Nat)
    (engine : Engine) :
    Initialized s e engine
      (env.newMsgHandler = true ∧ env.createThread = true ∧
        (s.pools.thread engine.thread).status ≠ .running)
      (s.engineInitialize env e engine) := by
  have hsame : ∀ ret, ret ≠ Retcode.success →
      s.engine.lookup e = some engine → ∃ handler,
        s.engine.lookup e = some { engine with msgHandler := handler } ∧
          (ret = Retcode.success →
            handler = some (Server.msgHandlerFor engine.plugin)) :=
    fun ret hret he => ⟨engine.msgHandler, he, fun hok => absurd hok hret⟩
  have hmemory : Retcode.outOfMemory ≠ Retcode.success := by decide
  have hstart : Retcode.startThreadFailed ≠ Retcode.success := by decide
  unfold Server.engineInitialize
  split
  · next hhandler =>
      exact ⟨rfl, rfl, rfl, rfl, by simp [hhandler, hmemory], fun _ _ => rfl,
        hsame _ hmemory⟩
  · next hhandler =>
      simp only [not_not] at hhandler
      unfold Thread.startThread
      dsimp only
      by_cases hrun : (s.pools.thread engine.thread).status = .running
      · simp only [if_pos hrun]
        exact ⟨rfl, rfl, rfl, rfl, by simp [hrun, hstart], fun _ _ => rfl,
          hsame _ hstart⟩
      · simp only [if_neg hrun]
        by_cases hcreate : env.createThread = true
        · simp only [if_pos hcreate, if_true]
          refine ⟨rfl, rfl, rfl, rfl, by simp [hhandler, hcreate, hrun], ?_, ?_⟩
          · intro e' hne
            exact Finmap.lookup_insert_of_ne _ hne
          · exact fun _ => ⟨_, Finmap.lookup_insert _, fun _ => rfl⟩
        · simp only [if_neg hcreate]
          exact ⟨rfl, rfl, rfl, rfl, by simp [hcreate, hstart],
            fun _ _ => rfl, hsame _ hstart⟩

/-- What making an engine does to the engines, given a plugin, a thread and
a queue. -/
structure Built (s : Server) (plugin : Plugin) (ok : Prop)
    (r : Int × Option Nat × Server) : Prop where
  engines : r.2.2.engines = s.engines
  clientEngines : r.2.2.clientEngines = s.clientEngines
  pluginManager : r.2.2.pluginManager = s.pluginManager
  success : r.1 = Retcode.success ↔ ok
  none : r.2.1 = none → r.1 ≠ Retcode.success ∧
    r.2.2.engine = s.engine ∧ r.2.2.engineNum = s.engineNum
  some : ∀ e, r.2.1 = some e → e = s.engineNum ∧ r.2.2.engineNum = e + 1 ∧
    (∀ e', e' ≠ e → r.2.2.engine.lookup e' = s.engine.lookup e') ∧
      ∃ x, r.2.2.engine.lookup e = some x ∧ x.refCount = 0 ∧
        x.plugin = plugin ∧ (r.1 = Retcode.success →
          x.msgHandler = some (Server.msgHandlerFor plugin))

theorem Server.buildEngine_built (s : Server) (env : Env) (plugin : Plugin)
    (t q : Nat) :
    Built s plugin (env.newEngine = true ∧ env.newMsgHandler = true ∧
        env.createThread = true ∧ (s.pools.thread t).status ≠ .running)
      (s.buildEngine env plugin t q) := by
  unfold Server.buildEngine
  split
  · next hnew =>
      have hfail : Retcode.engineNotExist ≠ Retcode.success := by decide
      exact ⟨rfl, rfl, rfl, by simp [hnew, hfail], fun _ => ⟨hfail, rfl, rfl⟩,
        by simp⟩
  · next hnew =>
      simp only [not_not] at hnew
      have h := Server.engineInitialize_initialized
        { s with
          engine := s.engine.insert s.engineNum ⟨0, plugin, t, q, none⟩
          engineNum := s.engineNum + 1 } env s.engineNum ⟨0, plugin, t, q, none⟩
      dsimp only at h ⊢
      generalize Server.engineInitialize _ env s.engineNum _ = r at h ⊢
      obtain ⟨ret, s'⟩ := r
      obtain ⟨handler, hself, hhandler⟩ := h.self (Finmap.lookup_insert _)
      have hsome : ∀ e, some s.engineNum = some e → e = s.engineNum ∧
          s'.engineNum = e + 1 ∧
          (∀ e', e' ≠ e → s'.engine.lookup e' = s.engine.lookup e') ∧
            ∃ x, s'.engine.lookup e = some x ∧ x.refCount = 0 ∧
              x.plugin = plugin ∧ (ret = Retcode.success →
                x.msgHandler = some (Server.msgHandlerFor plugin)) := by
        rintro e ⟨⟩
        refine ⟨rfl, h.engineNum, fun e' hne => ?_, _, hself, rfl, rfl,
          hhandler⟩
        rw [h.others e' hne]
        exact Finmap.lookup_insert_of_ne _ hne
      have hok := h.success
      split
      · next hret =>
          exact ⟨h.engines, h.clientEngines, h.pluginManager,
            by simpa [hnew] using hok, by simp, hsome⟩
      · next hret =>
          simp only [ne_eq, not_not] at hret
          subst hret
          exact ⟨h.engines, h.clientEngines, h.pluginManager,
            by simpa [hnew] using hok, by simp, hsome⟩

/-- Every loaded plugin is filed under its own id and version. -/
def Server.PluginsKeyed (s : Server) : Prop :=
  ∀ key p, s.loadedPlugin key = some p → p.aid = key.aid ∧
    p.version = key.version

/-- What `CreateEngine` does to the maps, the plugins and the engines. -/
structure Created (s : Server) (env : Env) (key : EngineKey)
    (r : Int × Option Nat × Server) : Prop where
  engines : r.2.2.engines = s.engines
  clientEngines : r.2.2.clientEngines = s.clientEngines
  keyed : s.PluginsKeyed → r.2.2.PluginsKeyed
  kept : ∀ k p, s.loadedPlugin k = some p → r.2.2.loadedPlugin k = some p
  success : r.1 = Retcode.success ↔ s.canCreate env key
  none : r.2.1 = none → r.1 ≠ Retcode.success ∧
    r.2.2.engine = s.engine ∧ r.2.2.engineNum = s.engineNum
  some : ∀ e, r.2.1 = some e → e = s.engineNum ∧ r.2.2.engineNum = e + 1 ∧
    (∀ e', e' ≠ e → r.2.2.engine.lookup e' = s.engine.lookup e') ∧
      ∃ x, r.2.2.engine.lookup e = some x ∧ x.refCount = 0 ∧
        r.2.2.loadedPlugin key = some x.plugin ∧
          (r.1 = Retcode.success →
            x.msgHandler = some (Server.msgHandlerFor x.plugin))

/-- The manager that a call works with holds what was loaded before. -/
theorem loadedPlugin_of_manager {s : Server} {newPluginManager : Bool}
    {m : PluginManager}
    (h : getPluginManager s.pluginManager newPluginManager = some m)
    (key : EngineKey) :
    m.findPlugin ⟨key.aid, key.version⟩ = s.loadedPlugin key := by
  unfold getPluginManager at h
  unfold Server.loadedPlugin
  cases hm : s.pluginManager with
  | some m' =>
      rw [hm] at h
      cases h
      rfl
  | none =>
      rw [hm] at h
      simp only at h
      split at h
      · cases h
        exact Finmap.lookup_empty _
      · cases h

theorem Server.createEngine_created (s : Server) (env : Env)
    (key : EngineKey) : Created s env key (s.createEngine env key) := by
  unfold Server.createEngine
  split
  · next hnone =>
      have hfail : Retcode.nullParam ≠ Retcode.success := by decide
      refine ⟨rfl, rfl, id, fun _ _ => id, ?_, fun _ => ⟨hfail, rfl, rfl⟩,
        by simp⟩
      refine iff_of_false hfail fun h => ?_
      obtain ⟨m, hm, -⟩ := h.1
      rw [hnone] at hm
      cases hm
  · next m hm =>
      have hask := m.getPlugin_asked env.plugins key.aid key.version
      have hload := loadedPlugin_of_manager hm
      have hkept : ∀ m' : PluginManager, (∀ k p, m.findPlugin k = some p →
          m'.findPlugin k = some p) → ∀ k p, s.loadedPlugin k = some p →
          m'.findPlugin ⟨k.aid, k.version⟩ = some p :=
        fun m' hkept k p hk => hkept _ p (by rw [hload k, hk])
      have hkeyed : ∀ m' : PluginManager, (m.Keyed → m'.Keyed) →
          s.PluginsKeyed → ∀ (key : EngineKey) (p : Plugin),
          m'.findPlugin ⟨key.aid, key.version⟩ = some p → p.aid = key.aid ∧
            p.version = key.version := by
        intro m' hm' hs key p
        refine hm' (fun k p hk => ?_) _ p
        exact hs ⟨k.aid, k.version⟩ p (by rw [← hload]; exact hk)
      split
      · next ret m' hget =>
          rw [hget] at hask
          refine ⟨rfl, rfl, hkeyed m' hask.keyed, hkept m' hask.kept, ?_,
            fun _ => ⟨hask.refused rfl, rfl, rfl⟩, by simp⟩
          refine iff_of_false (hask.refused rfl) fun h => ?_
          obtain ⟨m₂, hm₂, hsome⟩ := h.1
          rw [hm] at hm₂
          cases hm₂
          rw [hget] at hsome
          cases hsome
      · next ret plugin m' hget =>
          rw [hget] at hask
          have hplugin : s.hasPlugin env key := ⟨m, hm, by simp [hget]⟩
          dsimp only
          split
          · next pools hpop =>
              have hres := (popResources_isSome hpop).1
              have hfail : Retcode.outOfMemory ≠ Retcode.success := by decide
              refine ⟨rfl, rfl, hkeyed m' hask.keyed, hkept m' hask.kept, ?_,
                fun _ => ⟨hfail, rfl, rfl⟩, by simp⟩
              refine iff_of_false hfail fun h => ?_
              obtain ⟨-, hgives, -, hqpool, hbusy, hqueue, -⟩ := h
              exact absurd (hres.mpr ⟨hgives, hqpool, hbusy, hqueue⟩) (by simp)
          · next t q pools hpop =>
              obtain ⟨hres, hthread⟩ := popResources_isSome hpop
              have h := Server.buildEngine_built
                { s with pluginManager := some m', pools } env plugin t q
              have hloaded : ∀ k, Server.loadedPlugin
                  ({ s with pluginManager := some m', pools }.buildEngine env
                    plugin t q).2.2 k = m'.findPlugin ⟨k.aid, k.version⟩ := by
                intro k
                rw [Server.loadedPlugin, h.pluginManager]
              refine ⟨h.engines, h.clientEngines, ?_, ?_, ?_, h.none, ?_⟩
              · intro hs key p hp
                rw [hloaded] at hp
                exact hkeyed m' hask.keyed hs key p hp
              · intro k p hk
                rw [hloaded]
                exact hkept m' hask.kept k p hk
              · rw [h.success]
                simp only [Option.isSome_some, true_iff] at hres
                rw [hthread t q rfl, Server.canCreate]
                simp only [hplugin, hres, true_and]
                tauto
              · intro e he
                obtain ⟨hnum, hnum', hothers, x, hx, hcount, rfl, hhandler⟩ :=
                  h.some e he
                refine ⟨hnum, hnum', hothers, x, hx, hcount, ?_, hhandler⟩
                rw [hloaded]
                exact hask.found x.plugin rfl

theorem Server.isHeld_engines {s : Server} {key : EngineKey} {e : Nat}
    (h : s.engines.lookup key = some e) : s.isHeld e :=
  .inl ((Table.countWith_pos _).mpr ⟨key, e, h, rfl⟩)

theorem Server.isHeld_clients {s : Server} {tid : Int64} {e : Nat}
    (h : s.clientEngines.lookup tid = some e) :
    s.isHeld e :=
  .inr ((Table.countWith_pos _).mpr ⟨tid, e, h, rfl⟩)

/-- Dropping a pointer leaves the maps and what they hold. -/
theorem Server.dropEngine_frame (s : Server) (env : Env) (e : Nat) :
    (s.dropEngine env e).engines = s.engines ∧
      (s.dropEngine env e).clientEngines = s.clientEngines ∧
      (s.dropEngine env e).pluginManager = s.pluginManager ∧
      (s.dropEngine env e).engineNum = s.engineNum ∧
      (∀ e', s.isHeld e' →
        (s.dropEngine env e).engine.lookup e' = s.engine.lookup e') ∧
      ∀ e', s.engine.lookup e' = none →
        (s.dropEngine env e).engine.lookup e' = none := by
  unfold Server.dropEngine
  split
  · exact ⟨rfl, rfl, rfl, rfl, fun _ _ => rfl, fun _ => id⟩
  · split
    · exact ⟨rfl, rfl, rfl, rfl, fun _ _ => rfl, fun _ => id⟩
    · next hheld =>
        refine ⟨rfl, rfl, rfl, rfl, fun e' he' => ?_, fun e' he' => ?_⟩
        · refine Finmap.lookup_erase_ne ?_
          rintro rfl
          exact hheld he'
        · rw [Table.lookup_erase_if, he', ite_self]

end AiEngine.Ref
