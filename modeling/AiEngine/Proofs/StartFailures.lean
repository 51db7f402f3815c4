import AiEngine.Proofs.ClientTeardown

/-!
# What a failed start leaves behind

`StartEngine` changes the server in three places before it knows whether it
will succeed: the plugin manager files a plugin it had to load, the pools hand
out a thread and a queue, and a new engine is filed before its plugin is asked
to prepare. Only some of the ways out undo what came before. This file counts
them: for every call in every state, whether a failure shows afterwards.
-/

namespace AiEngine.Ref

open AiEngine.Lib

/-- The queue pool takes a count and gives no queue. -/
def Pools.leaksCount (p : Pools Task) (env : Env) : Prop :=
  p.givesThread env ∧ (p.hasQueuePool = true ∨ env.newQueuePool = true) ∧
    p.busyQueueNum < maxQueueCount ∧ p.queues = [] ∧ env.newQueue = false

/-- What `popResources` does to the number of busy queues. -/
structure PopCounted (p : Pools Task) (env : Env)
    (r : Option (Nat × Nat) × Pools Task) : Prop where
  refused : r.1 = none → (r.2.busyQueueNum = p.busyQueueNum ↔
    ¬ p.leaksCount env)
  given : r.1 ≠ none → r.2.busyQueueNum = p.busyQueueNum + 1 ∧
    r.2.hasThreadPool = true ∧ r.2.hasQueuePool = true

theorem Pools.threadPush_queues (p : Pools Task) (t : Nat) :
    (p.threadPush t).busyQueueNum = p.busyQueueNum ∧
      (p.threadPush t).hasThreadPool = p.hasThreadPool ∧
      (p.threadPush t).hasQueuePool = p.hasQueuePool := by
  obtain ⟨htpool, -, hqpool, -, hbusy, -⟩ := p.stopThread_frame t
  exact ⟨hbusy, htpool, hqpool⟩

theorem Pools.threadPop_hasThreadPool {p p' : Pools Task} {alloc : Bool}
    {ot : Option Nat} (h : p.threadPop alloc = (ot, p')) :
    p'.hasThreadPool = p.hasThreadPool := by
  unfold Pools.threadPop at h
  split at h
  · split at h <;> cases h <;> rfl
  · cases h
    rfl

theorem Pools.queuePoolInstance_hasThreadPool {p p' : Pools Task}
    {capacity : Nat} {alloc has : Bool}
    (h : p.queuePoolInstance capacity alloc = (has, p')) :
    p'.hasThreadPool = p.hasThreadPool := by
  unfold Pools.queuePoolInstance at h
  split at h <;> cases h <;> rfl

theorem Pools.queuePush_busy (p : Pools Task) (q : Nat) :
    (p.queuePush q).busyQueueNum = p.busyQueueNum - 1 := by
  unfold Pools.queuePush
  split
  · next hzero => rw [hzero]
  · rfl

theorem Pools.queuePop_counted {p p' : Pools Task} {alloc : Bool}
    {oq : Option Nat} (h : p.queuePop alloc = (oq, p')) :
    (oq = none → (p'.busyQueueNum = p.busyQueueNum ↔
      ¬ (p.busyQueueNum < maxQueueCount ∧ p.queues = [] ∧ alloc = false))) ∧
    (oq ≠ none → p'.busyQueueNum = p.busyQueueNum + 1) := by
  unfold Pools.queuePop at h
  split at h
  · next hmax =>
      cases h
      exact ⟨fun _ => by simp [Nat.not_lt.mpr hmax], fun h => absurd rfl h⟩
  · next hmax =>
      have hlt : p.busyQueueNum < maxQueueCount := Nat.not_le.mp hmax
      dsimp only at h
      split at h
      · next hq =>
          split at h
          · cases h
            exact ⟨by simp, fun _ => rfl⟩
          · next halloc =>
              cases h
              refine ⟨fun _ => ?_, fun h => absurd rfl h⟩
              simp [hlt, hq, halloc]
      · next hq =>
          cases h
          exact ⟨by simp, fun _ => rfl⟩

theorem popResources_counted (p : Pools Task) (env : Env) :
    PopCounted p env (Server.popResources p env) := by
  unfold Server.popResources
  split
  next hasThreadPool p₁ hp₁ =>
  obtain ⟨hhas, hidle₁, -, hqpool₁, hqs₁, hbusy₁⟩ :=
    Pools.threadPoolInstance_frame hp₁
  split
  · next hfalse =>
      refine ⟨fun _ => iff_of_true hbusy₁ fun hleak => ?_, fun h => absurd rfl h⟩
      exact hfalse (hhas.mpr hleak.1.1)
  · next htrue =>
      simp only [not_not] at htrue
      rw [htrue] at hp₁ hhas
      split
      · next p₂ hp₂ =>
          have hsome := (Pools.threadPop_frame hp₂).1
          rw [Pools.threadPop_none hp₂]
          refine ⟨fun _ => iff_of_true hbusy₁ fun hleak => ?_,
            fun h => absurd rfl h⟩
          simpa using hsome.mpr (hidle₁ ▸ hleak.1.2)
      · next t p₂ hp₂ =>
          obtain ⟨hsome, hqpool₂, hqs₂, hbusy₂⟩ := Pools.threadPop_frame hp₂
          have hgives : p.givesThread env :=
            ⟨hhas.mp rfl, hidle₁ ▸ hsome.mp rfl⟩
          split
          next hasQueuePool p₃ hp₃ =>
          obtain ⟨hhas₃, -, hqs₃, hbusy₃⟩ := Pools.queuePoolInstance_frame hp₃
          have hbusy : p₃.busyQueueNum = p.busyQueueNum :=
            hbusy₃.trans (hbusy₂.trans hbusy₁)
          have hqs : p₃.queues = p.queues := hqs₃.trans (hqs₂.trans hqs₁)
          rw [hqpool₂, hqpool₁] at hhas₃
          split
          · next hfalse =>
              refine ⟨fun _ => iff_of_true hbusy fun hleak => ?_,
                fun h => absurd rfl h⟩
              exact hfalse (hhas₃.mpr hleak.2.1)
          · next hqtrue =>
              simp only [not_not] at hqtrue
              split
              · next p₄ hp₄ =>
                  have hcount := (Pools.queuePop_counted hp₄).1 rfl
                  refine ⟨fun _ => ?_, fun h => absurd rfl h⟩
                  rw [(p₄.threadPush_queues t).1, ← hbusy, hcount,
                    Pools.leaksCount, hbusy, hqs]
                  simp [hgives, hhas₃.mp hqtrue]
              · next q p₄ hp₄ =>
                  obtain ⟨htpool, -, -, -, hqpool⟩ := Pools.queuePop_frame hp₄
                  refine ⟨fun h => by simp at h, fun _ => ⟨?_, ?_, ?_⟩⟩
                  · rw [(Pools.queuePop_counted hp₄).2 (by simp), hbusy]
                  · rw [htpool, Pools.queuePoolInstance_hasThreadPool hp₃,
                      Pools.threadPop_hasThreadPool hp₂]
                    exact Pools.threadPoolInstance_has hp₁
                  · rw [hqtrue] at hp₃
                    rw [hqpool]
                    exact Pools.queuePoolInstance_has hp₃

/-- `~Engine` gives a queue back, if the pools are there. -/
theorem engineUninitialize_busy {p : Pools Task} (env : Env) (x : Engine)
    (htpool : p.hasThreadPool = true) (hqpool : p.hasQueuePool = true) :
    (Server.engineUninitialize p env x).busyQueueNum = p.busyQueueNum - 1 := by
  obtain ⟨htpool', -, hqpool', -, hbusy', -⟩ := p.stopThread_frame x.thread
  obtain ⟨hbusy₂, -, hqpool₂⟩ := (p.stopThread x.thread).threadPush_queues
    x.thread
  simp only [Server.engineUninitialize,
    Pools.threadPoolInstance_of_has (htpool'.trans htpool), not_true, if_false,
    Pools.queuePoolInstance_of_has ((hqpool₂.trans hqpool').trans hqpool)]
  rw [Pools.queuePush_busy, hbusy₂, hbusy']

/-- What is left when the caller lets go of what a failed `CreateEngine`
handed out. -/
def Server.abandon (env : Env) (r : Int × Option Nat × Server) : Server :=
  match r.2.1 with
  | none => r.2.2
  | some e => r.2.2.dropEngine env e

theorem Server.abandon_frame (env : Env) (r : Int × Option Nat × Server) :
    (Server.abandon env r).engines = r.2.2.engines ∧
      (Server.abandon env r).clientEngines = r.2.2.clientEngines ∧
      (Server.abandon env r).pluginManager = r.2.2.pluginManager := by
  unfold Server.abandon
  split
  · exact ⟨rfl, rfl, rfl⟩
  · next e _ =>
      obtain ⟨hengines, hclients, hmanager, -⟩ := r.2.2.dropEngine_frame env e
      exact ⟨hengines, hclients, hmanager⟩

theorem Server.engineInitialize_pools (s : Server) (env : Env) (e : Nat)
    (x : Engine) :
    (s.engineInitialize env e x).2.pools.busyQueueNum = s.pools.busyQueueNum ∧
      (s.engineInitialize env e x).2.pools.hasThreadPool =
        s.pools.hasThreadPool ∧
      (s.engineInitialize env e x).2.pools.hasQueuePool =
        s.pools.hasQueuePool := by
  unfold Server.engineInitialize
  split
  · exact ⟨rfl, rfl, rfl⟩
  · dsimp only
    split <;> exact ⟨rfl, rfl, rfl⟩

theorem Server.dropEngine_busy {s : Server} {env : Env} {e : Nat} {x : Engine}
    (hx : s.engine.lookup e = some x) (hfree : ¬ s.isHeld e)
    (htpool : s.pools.hasThreadPool = true)
    (hqpool : s.pools.hasQueuePool = true) :
    (s.dropEngine env e).pools.busyQueueNum = s.pools.busyQueueNum - 1 := by
  simp only [Server.dropEngine, hx, if_neg hfree]
  exact engineUninitialize_busy env x htpool hqpool

/-- An engine that was never made gives one queue back, and one that could
not be initialised gives it back twice. -/
theorem buildEngine_abandoned {s : Server} {env : Env} {plugin : Plugin}
    {t q : Nat} (hfree : ¬ s.isHeld s.engineNum)
    (htpool : s.pools.hasThreadPool = true)
    (hqpool : s.pools.hasQueuePool = true)
    (hfail : (s.buildEngine env plugin t q).1 ≠ Retcode.success) :
    (Server.abandon env (s.buildEngine env plugin t q)).pools.busyQueueNum =
      if env.newEngine = true then s.pools.busyQueueNum - 1 - 1
      else s.pools.busyQueueNum - 1 := by
  have hbuilt := s.buildEngine_built env plugin t q
  unfold Server.buildEngine at hfail hbuilt ⊢
  split at hbuilt
  · next hnew =>
      rw [if_pos hnew, Server.abandon, if_neg hnew]
      dsimp only
      rw [(Pools.threadPush_queues _ t).1, Pools.queuePush_busy]
  · next hnew =>
      rw [if_neg hnew] at hfail ⊢
      simp only [not_not] at hnew
      rw [if_pos hnew]
      have hpools := Server.engineInitialize_pools
        { s with
          engine := s.engine.insert s.engineNum ⟨0, plugin, t, q, none⟩
          engineNum := s.engineNum + 1 } env s.engineNum ⟨0, plugin, t, q, none⟩
      dsimp only at hfail hbuilt hpools ⊢
      generalize Server.engineInitialize _ env s.engineNum _ = r
        at hfail hbuilt hpools ⊢
      obtain ⟨ret, s'⟩ := r
      by_cases hret : ret = Retcode.success
      · simp [hret] at hfail
      · simp only [ne_eq, hret, not_false_eq_true, if_true] at hbuilt ⊢
        obtain ⟨-, -, -, x, hx, -⟩ := hbuilt.some s.engineNum rfl
        have hfree' (pools : Pools Task) :
            ¬ Server.isHeld { s' with pools } s.engineNum := by
          rw [Server.isHeld, hbuilt.engines, hbuilt.clientEngines]
          exact hfree
        obtain ⟨hbusy, htpool', hqpool'⟩ :=
          (s'.pools.queuePush q).threadPush_queues t
        obtain ⟨htpool₂, -, -, -, hqpool₂, -⟩ := s'.pools.queuePush_frame q
        rw [Server.abandon]
        dsimp only
        rw [Server.dropEngine_busy hx (hfree' _)
          ((htpool'.trans htpool₂).trans (hpools.2.1.trans htpool))
          ((hqpool'.trans hqpool₂).trans (hpools.2.2.trans hqpool)), hbusy,
          Pools.queuePush_busy, hpools.1]

theorem PluginManager.getPlugin_cases (m : PluginManager) (env : PluginEnv)
    (aid : String) (version : Int64) :
    (∃ ret, m.getPlugin env aid version = (ret, none, m)) ∨
    (∃ ret p, m.getPlugin env aid version = (ret, some p, m) ∧
      m.findPlugin ⟨aid, version⟩ = some p) ∨
    (∃ ret p, m.getPlugin env aid version =
        (ret, some p, m.addPlugin ⟨aid, version⟩ p) ∧
      m.findPlugin ⟨aid, version⟩ = none) := by
  unfold PluginManager.getPlugin
  split
  · next p hp => exact .inr (.inl ⟨_, p, rfl, hp⟩)
  · next hnone =>
      unfold PluginManager.loadPlugin
      split
      · exact .inl ⟨_, rfl⟩
      · next ret p _ => exact .inr (.inr ⟨ret, p, rfl, hnone⟩)

/-- Whether the pools have a thread and a queue to give. -/
def Pools.gives (p : Pools Task) (env : Env) : Prop :=
  p.givesThread env ∧ (p.hasQueuePool = true ∨ env.newQueuePool = true) ∧
    p.busyQueueNum < maxQueueCount ∧ (p.queues ≠ [] ∨ env.newQueue = true)

/-- An engine that could not be made does not show in the pools: no queue was
counted in vain, and none was given back twice. -/
def Pools.quiet (p : Pools Task) (env : Env) : Prop :=
  ¬ p.leaksCount env ∧
    (p.gives env → env.newEngine = true → p.busyQueueNum = 0)

theorem popResources_abandoned {s : Server} {env : Env}
    (hfree : ¬ s.isHeld s.engineNum) (plugin : Plugin) {res : Option (Nat × Nat)}
    {pools : Pools Task}
    (hpop : Server.popResources s.pools env = (res, pools)) :
    (res = none → (pools.busyQueueNum = s.pools.busyQueueNum ↔
      s.pools.quiet env)) ∧
    ∀ t q, res = some (t, q) →
      (Server.buildEngine { s with pools } env plugin t q).1 ≠
        Retcode.success →
      ((Server.abandon env
        (Server.buildEngine { s with pools } env plugin t q)).pools.busyQueueNum =
          s.pools.busyQueueNum ↔ s.pools.quiet env) := by
  have hgives := (popResources_isSome hpop).1
  have hcount := popResources_counted s.pools env
  rw [hpop] at hcount
  refine ⟨?_, ?_⟩
  · rintro rfl
    have hno : ¬ s.pools.gives env := fun h => by simpa using hgives.mpr h
    rw [hcount.refused rfl, Pools.quiet]
    exact ⟨fun h => ⟨h, fun hg => absurd hg hno⟩, fun h => h.1⟩
  · rintro t q rfl hfail
    have hg : s.pools.gives env := hgives.mp rfl
    have hleak : ¬ s.pools.leaksCount env := by
      rintro ⟨-, -, -, hqs, hnew⟩
      rcases hg.2.2.2 with hne | halloc
      · exact hne hqs
      · rw [hnew] at halloc
        cases halloc
    obtain ⟨hbusy, htpool, hqpool⟩ := hcount.given (by simp)
    dsimp only at hbusy htpool hqpool
    rw [buildEngine_abandoned (s := { s with pools }) hfree htpool hqpool hfail,
      hbusy, Pools.quiet]
    split
    · next hnew =>
        refine ⟨fun h => ⟨hleak, fun _ _ => by omega⟩, fun h => ?_⟩
        have := h.2 hg hnew
        omega
    · next hnew =>
        refine ⟨fun _ => ⟨hleak, fun _ h => absurd h hnew⟩, fun _ => ?_⟩
        omega

/-- What a failed `CreateEngine` leaves shows neither in the plugins nor in
the queues, exactly where the plugin was there before, or could not be had,
and the pools are quiet. -/
theorem createEngine_abandoned {s : Server} {env : Env} {key : EngineKey}
    (hfree : ¬ s.isHeld s.engineNum)
    (hfail : (s.createEngine env key).1 ≠ Retcode.success) :
    ((Server.abandon env (s.createEngine env key)).loadedPlugin =
        s.loadedPlugin ∧
      (Server.abandon env (s.createEngine env key)).pools.busyQueueNum =
        s.pools.busyQueueNum) ↔
    (s.hasPlugin env key →
      s.loadedPlugin key ≠ none ∧ s.pools.quiet env) := by
  have hmanager := (Server.abandon_frame env (s.createEngine env key)).2.2
  unfold Server.createEngine at hfail hmanager ⊢
  split at hfail
  · next hnone =>
      refine iff_of_true ⟨rfl, rfl⟩ fun h => ?_
      obtain ⟨m, hm, -⟩ := h
      cases hnone.symm.trans hm
  · next m hm =>
      simp only [hm] at hmanager ⊢
      have hloaded (m' : PluginManager) (s' : Server)
          (hs' : s'.pluginManager = some m') (k : EngineKey) :
          s'.loadedPlugin k = m'.findPlugin ⟨k.aid, k.version⟩ := by
        rw [Server.loadedPlugin, hs']
      have hsame (s' : Server) (hs' : s'.pluginManager = some m) :
          s'.loadedPlugin = s.loadedPlugin := by
        funext k
        rw [hloaded m s' hs', loadedPlugin_of_manager hm]
      rcases m.getPlugin_cases env.plugins key.aid key.version with
        ⟨ret, hget⟩ | ⟨ret, p, hget, hfound⟩ | ⟨ret, p, hget, hnone⟩
      · simp only [hget]
        refine iff_of_true ⟨hsame _ rfl, rfl⟩ fun h => ?_
        obtain ⟨m', hm', hsome⟩ := h
        cases hm.symm.trans hm'
        simp [hget] at hsome
      · have hplugin : s.hasPlugin env key := ⟨m, hm, by simp [hget]⟩
        have hkey : s.loadedPlugin key = some p := by
          rw [← loadedPlugin_of_manager hm, hfound]
        have hiff : (s.hasPlugin env key → s.loadedPlugin key ≠ none ∧
            s.pools.quiet env) ↔ s.pools.quiet env := by
          simp [hplugin, hkey]
        rw [hiff]
        simp only [hget] at hfail hmanager ⊢
        rcases hpop : Server.popResources s.pools env with ⟨_ | ⟨t, q⟩, pools⟩
        · simp only [hpop] at hmanager ⊢
          rw [hsame _ hmanager, ← (popResources_abandoned hfree p hpop).1 rfl]
          simp [Server.abandon]
        · simp only [hpop] at hfail hmanager ⊢
          rw [Server.buildEngine_built _ env p t q |>.pluginManager] at hmanager
          rw [hsame _ hmanager]
          have hbusy := (popResources_abandoned
            (s := { s with pluginManager := some m }) hfree p hpop).2 t q rfl
            hfail
          simpa using hbusy
      · have hplugin : s.hasPlugin env key := ⟨m, hm, by simp [hget]⟩
        have hkey : s.loadedPlugin key = none := by
          rw [← loadedPlugin_of_manager hm, hnone]
        simp only [hget] at hmanager ⊢
        refine iff_of_false ?_ fun h => (h hplugin).1 hkey
        rintro ⟨hsame', -⟩
        have hnew : ∀ s' : Server,
            s'.pluginManager = some (m.addPlugin ⟨key.aid, key.version⟩ p) →
            s'.loadedPlugin key = some p := by
          intro s' hs'
          rw [hloaded _ s' hs']
          exact Finmap.lookup_insert _
        rw [← hsame', hnew] at hkey
        · cases hkey
        · rw [hmanager]
          rcases Server.popResources s.pools env with ⟨_ | ⟨t, q⟩, pools⟩
          · rfl
          · exact (Server.buildEngine_built _ env p t q).pluginManager

theorem Handled.isHeld_engineNum {s : Server} (h : Handled s) :
    ¬ s.isHeld s.engineNum := by
  have hnone := h.fresh s.engineNum (Nat.le_refl _)
  rintro (hpos | hpos)
  · obtain ⟨key, e, he, heq⟩ := (Table.countWith_pos _).mp hpos
    obtain ⟨x, hx, -⟩ := h.engines key e he
    cases hnone.symm.trans (heq ▸ hx)
  · obtain ⟨tid, e, he, heq⟩ := (Table.countWith_pos _).mp hpos
    obtain ⟨x, hx, -⟩ := h.clients tid e he
    cases hnone.symm.trans (heq ▸ hx)

/-- No engine is left by a failed `CreateEngine`. -/
theorem abandon_engine {s : Server} (h : Handled s) {env : Env}
    {key : EngineKey} {r : Int × Option Nat × Server}
    (hr : Created s env key r) (e : Nat) :
    (Server.abandon env r).engine.lookup e = s.engine.lookup e := by
  obtain ⟨ret, _ | e₁, s'⟩ := r
  · exact congrArg (·.lookup e) (hr.none rfl).2.1
  · obtain ⟨hnum, -, hothers, x, hx, -⟩ := hr.some e₁ rfl
    have hfree : ¬ s'.isHeld e₁ := by
      rw [Server.isHeld, hr.engines, hr.clientEngines, hnum]
      exact h.isHeld_engineNum
    simp only [Server.abandon, Server.dropEngine, hx, if_neg hfree,
      Table.lookup_erase_if]
    split
    · next heq =>
        rw [heq, hnum]
        exact (h.fresh _ (Nat.le_refl _)).symm
    · next hne => exact hothers e hne

/-- Nothing of what the manager keeps has changed. -/
structure Unchanged (s s' : Server) : Prop where
  engines : s'.engines = s.engines
  clientEngines : s'.clientEngines = s.clientEngines
  refCounts : ∀ e, (s'.engine.lookup e).map (·.refCount) =
    (s.engine.lookup e).map (·.refCount)
  pluginMap : s'.loadedPlugin = s.loadedPlugin
  busyQueues : s'.pools.busyQueueNum = s.pools.busyQueueNum

theorem Unchanged.refl (s : Server) : Unchanged s s :=
  ⟨rfl, rfl, fun _ => rfl, rfl, rfl⟩

theorem createEngine_unchanged_iff {s : Server} (h : Handled s) {env : Env}
    {key : EngineKey}
    (hfail : (s.createEngine env key).1 ≠ Retcode.success) :
    Unchanged s (Server.abandon env (s.createEngine env key)) ↔
      (s.hasPlugin env key →
        s.loadedPlugin key ≠ none ∧ s.pools.quiet env) := by
  have hr := s.createEngine_created env key
  obtain ⟨hengines, hclients, -⟩ :=
    Server.abandon_frame env (s.createEngine env key)
  rw [← createEngine_abandoned h.isHeld_engineNum hfail]
  refine ⟨fun hu => ⟨hu.pluginMap, hu.busyQueues⟩, fun hu => ?_⟩
  exact ⟨hengines.trans hr.engines, hclients.trans hr.clientEngines,
    fun e => by rw [abandon_engine h hr], hu.1, hu.2⟩

theorem Server.prepareEngine_retCode {s : Server} {e : Nat} {x : Engine}
    (hx : s.engine.lookup e = some x) (env : Env) (tid : Int64)
    (input output : DataInfo) :
    (s.prepareEngine env tid e input output).1 =
      (env.prepare tid input output).1 := by
  simp only [Server.prepareEngine, hx]
  split
  · rfl
  · next hok => exact (not_not.mp hok).symm

/-- Whether a start that fails will not show. -/
def Server.failsQuietly (s : Server) (env : Env) (tid : Int64)
    (algoInfo : AlgorithmInfo) (input output : DataInfo) : Prop :=
  let aid := getAlgorithmIdByType algoInfo.algorithmType
  let key : EngineKey := ⟨aid, algoInfo.algorithmVersion⟩
  aid ≠ algorithmIdInvalid → s.engines.lookup key = none →
    (s.canCreate env key →
      (env.prepare tid input output).1 = Retcode.success) ∧
    (¬ s.canCreate env key → s.hasPlugin env key →
      s.loadedPlugin key ≠ none ∧ s.pools.quiet env)

/-- A start from a state that the maps allow fails without a trace exactly
where no engine has to be made for it, or the engine can be made and its
plugin prepares, or it cannot be made and neither a plugin was loaded for it
nor a queue counted. -/
theorem startEngine_unchanged_iff {s : Server} (h : Handled s) (env : Env)
    (tid : Int64) (algoInfo : AlgorithmInfo) (input output : DataInfo) :
    ((s.startEngine env tid algoInfo input output).1 ≠ Retcode.success →
      Unchanged s (s.startEngine env tid algoInfo input output).2.2) ↔
    s.failsQuietly env tid algoInfo input output := by
  unfold Server.startEngine Server.failsQuietly
  dsimp only
  by_cases haid : getAlgorithmIdByType algoInfo.algorithmType =
      algorithmIdInvalid
  · rw [if_pos haid]
    exact iff_of_true (fun _ => .refl s) fun hne => absurd haid hne
  rw [if_neg haid]
  generalize (⟨getAlgorithmIdByType algoInfo.algorithmType,
    algoInfo.algorithmVersion⟩ : EngineKey) = key
  cases hkey : s.engines.lookup key with
  | some e =>
      have hfind : s.findEngineByKey key = some e := hkey
      simp only [hfind]
      refine iff_of_true (fun hfail => ?_) fun _ hno => by cases hno
      rw [Server.prepareEngine_failed hfail]
      exact .refl s
  | none =>
      have hfind : s.findEngineByKey key = none := hkey
      simp only [hfind, Server.createEngineWithCheck, ne_eq, haid,
        not_false_eq_true, forall_const]
      have hr := s.createEngine_created env key
      have hiff : (s.createEngine env key).1 ≠ Retcode.success →
          (Unchanged s (Server.abandon env (s.createEngine env key)) ↔
            (s.hasPlugin env key →
              s.loadedPlugin key ≠ none ∧ s.pools.quiet env)) :=
        fun hfail => createEngine_unchanged_iff h hfail
      by_cases hcan : s.canCreate env key
      · -- The engine is filed before its plugin prepares.
        have hok := hr.success.mpr hcan
        simp only [hcan, not_true, forall_const, false_implies, and_true]
        generalize s.createEngine env key = r at hr hok ⊢
        obtain ⟨ret, _ | e, s'⟩ := r
        · exact absurd hok (hr.none rfl).1
        obtain rfl : ret = Retcode.success := hok
        obtain ⟨-, -, -, x, hx, -⟩ := hr.some e rfl
        have hret := Server.prepareEngine_retCode
          (s := { s' with engines := s'.engines.insert key e }) hx env tid
          input output
        simp only [not_true_eq_false, if_false]
        rw [hret]
        refine ⟨fun hu => by_contra fun hprep => ?_,
          fun hprep hno => absurd hprep hno⟩
        have hengines := (hu hprep).engines
        rw [Server.prepareEngine_failed (by rwa [hret])] at hengines
        have hnew := congrArg (·.lookup key) hengines
        simp only [Table.lookup_insert_if, if_true, hkey] at hnew
        cases hnew
      · have hfail : (s.createEngine env key).1 ≠ Retcode.success :=
          fun hok => hcan (hr.success.mp hok)
        simp only [hcan, false_implies, not_false_eq_true, forall_const,
          true_and]
        rw [← hiff hfail]
        generalize s.createEngine env key = r at hr hfail ⊢
        obtain ⟨ret, _ | e, s'⟩ := r
        · exact ⟨fun hu => hu hfail, fun hu _ => hu⟩
        · have hret : ret ≠ Retcode.success := hfail
          simp only [hret, not_false_eq_true, if_true, forall_const]
          rfl

/-- In every reachable state of the service, a start that fails changes
nothing exactly where it fails quietly. -/
theorem failedStart_unchanged_iff {s : Service}
    (hs : serviceMachine.Reach Machine.anyStep s) (env : Env) (tid : Int64)
    (algoInfo : AlgorithmInfo) (input output : DataInfo) :
    ((s.server.startEngine env tid algoInfo input output).1 ≠
        Retcode.success →
      Unchanged s.server
        (s.server.startEngine env tid algoInfo input output).2.2) ↔
    s.server.failsQuietly env tid algoInfo input output :=
  startEngine_unchanged_iff (reach_serviceOk hs).handled env tid algoInfo
    input output

/-- The second sample plugin. -/
def secondAlgo : AlgorithmInfo :=
  { AlgorithmInfo.zero with algorithmVersion := 1, algorithmType := 1 }

/-- A client has an engine of the first sample plugin. The second plugin was
loaded for it, and there was no thread for an engine. -/
def pluginLeft : Service :=
  (sampleService .willing).take (.loadAlgo
    { ServiceEnv.willing with engines := { Env.willing with
      newThread := false } }
    { sampleClient with sessionId := 2 } secondAlgo ⟨.null, 0⟩ ⟨.null, 0⟩)

theorem pluginLeft_reach :
    serviceMachine.Reach Machine.anyStep pluginLeft := by
  refine .step (.step (.step (.start rfl) ?_ rfl) ?_ rfl) ?_ rfl
  all_goals trivial

/-- The engine cannot be allocated once its thread and its queue are had. -/
theorem failedStart_unchanged_sample :
    pluginLeft.server.engines.keys = {⟨"sample_plugin_1", 1⟩} ∧
      (pluginLeft.server.startEngine { Env.willing with newEngine := false } 7
        secondAlgo ⟨.null, 0⟩ ⟨.null, 0⟩).1 = Retcode.engineNotExist ∧
      Unchanged pluginLeft.server (pluginLeft.server.startEngine
        { Env.willing with newEngine := false } 7 secondAlgo ⟨.null, 0⟩
        ⟨.null, 0⟩).2.2 := by
  refine ⟨by decide, by decide, (failedStart_unchanged_iff pluginLeft_reach _ 7
    secondAlgo ⟨.null, 0⟩ ⟨.null, 0⟩).mpr ?_ (by decide)⟩
  refine fun _ _ => ⟨fun hcan => ?_, fun _ _ => ⟨by decide, ?_, ?_⟩⟩
  · obtain ⟨-, -, -, -, -, -, hnew, -⟩ := hcan
    cases hnew
  · rintro ⟨-, -, -, -, hnone⟩
    cases hnone
  · intro _ hnew
    cases hnew

/-- A plugin that was loaded for an engine without a thread stays. -/
theorem noThread_not_unchanged :
    ∃ env, serviceMachine.Reach Machine.anyStep Service.initial ∧
      (Service.initial.server.startEngine env 1 sampleAlgo ⟨.null, 0⟩
        ⟨.null, 0⟩).1 ≠ Retcode.success ∧
      ¬ Unchanged Service.initial.server (Service.initial.server.startEngine
        env 1 sampleAlgo ⟨.null, 0⟩ ⟨.null, 0⟩).2.2 := by
  refine ⟨{ Env.willing with newThread := false }, .start rfl, by decide,
    fun h => ?_⟩
  have hloaded := congrFun h.pluginMap ⟨"sample_plugin_1", 1⟩
  have hsome : ((Service.initial.server.startEngine
      { Env.willing with newThread := false } 1 sampleAlgo ⟨.null, 0⟩
      ⟨.null, 0⟩).2.2.loadedPlugin ⟨"sample_plugin_1", 1⟩).isSome = true := by
    decide
  rw [hloaded] at hsome
  cases hsome

end AiEngine.Ref
