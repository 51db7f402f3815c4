import AiEngine.Proofs.EngineCreation

/-!
# Reference counts and the maps of the engine manager

An engine's reference count is to be the number of transactions that lead to
it; that is what `StopEngine` goes by when it tells the plugin whether to
unload everything. The count and the maps are updated in separate places, and
`Counted` is what holds between calls: the count is right, the two maps agree,
and the plugin of every engine is loaded.

Three kinds of `StartEngine` calls break it. One for a transaction that is
already recorded adds to the count but not to the map. One that makes an
engine and whose `Prepare` then fails leaves the engine behind without a
transaction. And the count is an `int`.
-/

namespace AiEngine.Ref

open AiEngine.Lib

/-! ## The accounts between calls

The reference count of an engine is the number of transactions that have it,
with 32 bits. A start adds one to both, or to neither. -/

theorem toInt_add_one {n : Int32} (h : n ≠ Int32.maxValue) :
    (n + 1).toInt = n.toInt + 1 := by
  have hlt := n.toInt_lt
  have hle := n.le_toInt
  have hne : n.toInt ≠ 2147483647 := by
    intro heq
    exact h (Int32.toInt_inj.mp (by rw [heq]; decide))
  rw [Int32.toInt_add, Int32.toInt_one, Int.bmod_eq_of_le]
  all_goals omega

theorem toInt_sub_one {n : Int32} (h : 0 < n.toInt) :
    (n - 1).toInt = n.toInt - 1 := by
  have hlt := n.toInt_lt
  rw [Int32.toInt_sub, Int32.toInt_one, Int.bmod_eq_of_le]
  all_goals omega

/-- How many transactions lead to an engine. -/
abbrev Server.transactions (s : Server) (e : Nat) : Nat :=
  Table.countWith (· = e) s.clientEngines

/-- The id and the version of an engine's plugin. -/
def Engine.key (x : Engine) : EngineKey := ⟨x.plugin.aid, x.plugin.version⟩

/-- The counts are right, the maps agree, and what they need is there. -/
structure Counted (s : Server) : Prop where
  engines : ∀ key e, s.engines.lookup key = some e → ∃ x,
    s.engine.lookup e = some x ∧ x.key = key ∧
      x.refCount.toInt = s.transactions e
  clients : ∀ tid e, s.clientEngines.lookup tid = some e → ∃ x,
    s.engine.lookup e = some x ∧ s.engines.lookup x.key = some e
  fresh : ∀ e, s.engineNum ≤ e → s.engine.lookup e = none
  plugins : ∀ key e, s.engines.lookup key = some e →
    s.loadedPlugin key ≠ none
  keyed : s.PluginsKeyed

/-- Every engine of the map has a transaction. -/
def Used (s : Server) : Prop :=
  ∀ key e, s.engines.lookup key = some e → 0 < s.transactions e

theorem initial_counted : Counted .initial where
  engines := by simp [Server.initial]
  clients := by simp [Server.initial]
  fresh := by simp [Server.initial]
  plugins := by simp [Server.initial]
  keyed := by
    intro key p h
    cases h

namespace Counted

variable {s : Server} {tid : Int64} {key : EngineKey} {e : Nat} {x : Engine}

theorem engine_lt (h : Counted s) (hx : s.engine.lookup e = some x) :
    e < s.engineNum := by
  refine Nat.lt_of_not_le fun hle => ?_
  rw [h.fresh e hle] at hx
  cases hx

/-- An engine of the map is there under its own key only. -/
theorem key_unique (h : Counted s) (hkey : s.engines.lookup key = some e)
    (hx : s.engine.lookup e = some x) : x.key = key := by
  obtain ⟨x', hx', hkey', -⟩ := h.engines key e hkey
  rw [hx] at hx'
  cases hx'
  exact hkey'

theorem dropEngine (h : Counted s) (env : Env) (e : Nat) :
    Counted (s.dropEngine env e) := by
  obtain ⟨hengines, hclients, hmanager, hnum, hheld, hnone⟩ :=
    s.dropEngine_frame env e
  have hloaded : (s.dropEngine env e).loadedPlugin = s.loadedPlugin := by
    funext key
    rw [Server.loadedPlugin, hmanager, Server.loadedPlugin]
  refine ⟨?_, ?_, ?_, ?_, ?_⟩
  · intro key e' he'
    rw [hengines] at he'
    rw [hheld e' (Server.isHeld_engines he'), Server.transactions, hclients]
    exact h.engines key e' he'
  · intro tid e' he'
    rw [hclients] at he'
    rw [hheld e' (Server.isHeld_clients he'), hengines]
    exact h.clients tid e' he'
  · intro e' he'
    rw [hnum] at he'
    exact hnone e' (h.fresh e' he')
  · intro key e' he'
    rw [hengines] at he'
    rw [hloaded]
    exact h.plugins key e' he'
  · intro key p hp
    rw [hloaded] at hp
    exact h.keyed key p hp

theorem created (h : Counted s) {env : Env} {r : Int × Option Nat × Server}
    (hr : Created s env key r) : Counted r.2.2 := by
  have hsame : ∀ e x, s.engine.lookup e = some x →
      r.2.2.engine.lookup e = some x := by
    intro e x hx
    cases hoe : r.2.1 with
    | none =>
        rw [(hr.none hoe).2.1]
        exact hx
    | some e' =>
        obtain ⟨he', -, hothers, -⟩ := hr.some e' hoe
        rw [hothers e (by have := h.engine_lt hx; omega)]
        exact hx
  refine ⟨?_, ?_, ?_, ?_, hr.keyed h.keyed⟩
  · intro k e he
    rw [hr.engines] at he
    obtain ⟨x, hx, hkey, hcount⟩ := h.engines k e he
    refine ⟨x, hsame e x hx, hkey, ?_⟩
    rw [Server.transactions, hr.clientEngines]
    exact hcount
  · intro tid e he
    rw [hr.clientEngines] at he
    rw [hr.engines]
    obtain ⟨x, hx, hkey⟩ := h.clients tid e he
    exact ⟨x, hsame e x hx, hkey⟩
  · intro e he
    cases hoe : r.2.1 with
    | none =>
        obtain ⟨-, hengine, hnum⟩ := hr.none hoe
        rw [hengine]
        exact h.fresh e (hnum ▸ he)
    | some e' =>
        obtain ⟨he', hnum, hothers, -⟩ := hr.some e' hoe
        rw [hothers e (by omega)]
        exact h.fresh e (by omega)
  · intro k e he
    rw [hr.engines] at he
    have hloaded := h.plugins k e he
    rw [Option.ne_none_iff_exists'] at hloaded
    obtain ⟨p, hp⟩ := hloaded
    rw [hr.kept k p hp]
    simp

/-- A new engine is filed. No transaction leads to it yet. -/
theorem file (h : Counted s) (hnew : s.engines.lookup key = none)
    (hx : s.engine.lookup e = some x) (hkey : x.key = key)
    (hzero : x.refCount = 0)
    (hunused : ∀ tid, s.clientEngines.lookup tid ≠ some e)
    (hplugin : s.loadedPlugin key ≠ none) :
    Counted { s with engines := s.engines.insert key e } := by
  refine ⟨?_, ?_, h.fresh, ?_, h.keyed⟩
  · intro k e' he'
    simp only [Table.lookup_insert_if] at he'
    split at he'
    · next heq =>
        cases he'
        refine ⟨x, hx, hkey.trans heq.symm, ?_⟩
        have hnone : s.transactions e = 0 := by
          refine Nat.eq_zero_of_not_pos fun hpos => ?_
          obtain ⟨tid, _, hlookup, rfl⟩ := (Table.countWith_pos _).mp hpos
          exact hunused tid hlookup
        rw [hzero]
        exact congrArg Nat.cast hnone.symm
    · exact h.engines k e' he'
  · intro tid e' he'
    obtain ⟨x', hx', hkey'⟩ := h.clients tid e' he'
    refine ⟨x', hx', ?_⟩
    have hne : x'.key ≠ key := by
      intro heq
      rw [heq, hnew] at hkey'
      cases hkey'
    simp only [Table.lookup_insert_if, if_neg hne]
    exact hkey'
  · intro k e' he'
    simp only [Table.lookup_insert_if] at he'
    split at he'
    · next heq =>
        rw [heq]
        exact hplugin
    · exact h.plugins k e' he'

theorem record (h : Counted s) (hkey : s.engines.lookup key = some e)
    (hx : s.engine.lookup e = some x)
    (htid : s.clientEngines.lookup tid = none)
    (hmax : x.refCount ≠ Int32.maxValue) :
    Counted { s.setRefCount e x (x.refCount + 1) with
      clientEngines := s.clientEngines.insert tid e } := by
  have hxkey := h.key_unique hkey hx
  have hcount := fun e' => Table.countWith_insert (· = e') e htid
  refine ⟨?_, ?_, ?_, h.plugins, h.keyed⟩
  · intro k e' he'
    obtain ⟨x', hx', hkey', hcount'⟩ := h.engines k e' he'
    simp only [Server.setRefCount, Table.lookup_insert_if,
      Server.transactions, hcount e']
    split
    · next heq =>
        subst heq
        rw [hx] at hx'
        cases hx'
        refine ⟨_, rfl, hkey', ?_⟩
        rw [toInt_add_one hmax, hcount', if_pos rfl]
        rfl
    · next hne =>
        refine ⟨x', hx', hkey', ?_⟩
        rw [hcount', if_neg (Ne.symm hne)]
        rfl
  · intro tid' e' he'
    simp only [Table.lookup_insert_if] at he'
    have hold : ∃ x', s.engine.lookup e' = some x' ∧
        s.engines.lookup x'.key = some e' := by
      split at he'
      · cases he'
        exact ⟨x, hx, hxkey ▸ hkey⟩
      · exact h.clients tid' e' he'
    obtain ⟨x', hx', hkey'⟩ := hold
    simp only [Server.setRefCount, Table.lookup_insert_if]
    split
    · next heq =>
        subst heq
        rw [hx] at hx'
        cases hx'
        exact ⟨_, rfl, hkey'⟩
    · exact ⟨x', hx', hkey'⟩
  · intro e' he'
    have hne : e' ≠ e := by
      have hlt := h.engine_lt hx
      simp only [Server.setRefCount] at he'
      omega
    simp only [Server.setRefCount, Table.lookup_insert_if, if_neg hne]
    exact h.fresh e' he'

end Counted

/-- The `StartEngine` calls that keep the counts, when they get an engine:
`Prepare` succeeds for a transaction that is not recorded, and the count is
not at its limit; or it fails for an engine that was there before. -/
def keepsCounts (s : Server) : ServerCall → Prop
  | .startEngine env tid algoInfo inputInfo outputInfo =>
      let aid := getAlgorithmIdByType algoInfo.algorithmType
      let key : EngineKey := ⟨aid, algoInfo.algorithmVersion⟩
      aid ≠ algorithmIdInvalid →
        (s.engines.lookup key ≠ none ∨ s.canCreate env key) →
          if (env.prepare tid inputInfo outputInfo).1 = Retcode.success then
            s.clientEngines.lookup tid = none ∧
              ∀ e x, s.engines.lookup key = some e →
                s.engine.lookup e = some x → x.refCount ≠ Int32.maxValue
          else s.engines.lookup key ≠ none
  | _ => True

/-- The books of the engine manager between calls. -/
structure Accounted (s : Server) : Prop where
  counted : Counted s
  used : Used s

namespace Accounted

variable {s : Server} {env : Env} {tid : Int64} {key : EngineKey} {e : Nat}
  {x : Engine} {input output : DataInfo}

theorem prepareEngine_eq (hx : s.engine.lookup e = some x)
    (htid : s.clientEngines.lookup tid = none) :
    (s.prepareEngine env tid e input output).2.2 =
      if (env.prepare tid input output).1 = Retcode.success then
        { s.setRefCount e x (x.refCount + 1) with
          clientEngines := s.clientEngines.insert tid e }
      else s := by
  have hnone : (s.setRefCount e x (x.refCount + 1)).findEngine tid = none :=
    htid
  unfold Server.prepareEngine
  simp only [hx]
  by_cases hok : (env.prepare tid input output).1 = Retcode.success
  · simp only [hok, ne_eq, not_true, if_false, if_true, Server.recordClient,
      hnone]
    rfl
  · simp only [hok, ne_eq, not_false_eq_true, if_true, if_false]

theorem prepareEngine_failed
    (hfail : (env.prepare tid input output).1 ≠ Retcode.success) :
    (s.prepareEngine env tid e input output).2.2 = s := by
  unfold Server.prepareEngine
  split
  · rfl
  · simp only [if_pos hfail]

/-- The engine a transaction is recorded for is used by it; every other
engine is used as before. -/
theorem record (h : Counted s) (hkey : s.engines.lookup key = some e)
    (hused : ∀ key' e', s.engines.lookup key' = some e' → e' ≠ e →
      0 < s.transactions e')
    (hx : s.engine.lookup e = some x)
    (htid : s.clientEngines.lookup tid = none)
    (hmax : x.refCount ≠ Int32.maxValue) :
    Accounted { s.setRefCount e x (x.refCount + 1) with
      clientEngines := s.clientEngines.insert tid e } := by
  refine ⟨h.record hkey hx htid hmax, ?_⟩
  intro key' e' he'
  have hcount := Table.countWith_insert (· = e') e htid
  simp only [Server.transactions, hcount]
  by_cases heq : e = e'
  · rw [if_pos heq]
    omega
  · have hpos := hused key' e' he' (Ne.symm heq)
    rw [if_neg heq]
    exact hpos

theorem dropEngine (h : Accounted s) (env : Env) (e : Nat) :
    Accounted (s.dropEngine env e) := by
  obtain ⟨hengines, hclients, -⟩ := s.dropEngine_frame env e
  refine ⟨h.counted.dropEngine env e, ?_⟩
  intro key e' he'
  rw [hengines] at he'
  rw [Server.transactions, hclients]
  exact h.used key e' he'

theorem filed {s' : Server} {ret : Int} (h : Counted s) (h' : Counted s')
    (hr : Created s env key (ret, some e, s'))
    (hnone : s.engines.lookup key = none) :
    Counted { s' with engines := s'.engines.insert key e } := by
  obtain ⟨henum, -, -, x, hx, hzero, hloaded, -⟩ := hr.some e rfl
  obtain ⟨haid, hversion⟩ := h'.keyed key x.plugin hloaded
  refine h'.file ?_ hx ?_ hzero ?_ ?_
  · rw [hr.engines]
    exact hnone
  · rw [Engine.key, haid, hversion]
  · intro tid' htid'
    rw [hr.clientEngines] at htid'
    obtain ⟨x', hx', -⟩ := h.clients tid' e htid'
    have hlt := h.engine_lt hx'
    omega
  · rw [hloaded]
    simp

theorem startEngine (h : Accounted s) {algo : AlgorithmInfo}
    (hok : keepsCounts s (.startEngine env tid algo input output)) :
    Accounted (s.startEngine env tid algo input output).2.2 := by
  unfold Server.startEngine
  simp only [keepsCounts] at hok
  dsimp only
  split
  · exact h
  · next haid =>
      replace hok := hok haid
      generalize (⟨getAlgorithmIdByType algo.algorithmType,
        algo.algorithmVersion⟩ : EngineKey) = key at hok ⊢
      split
      · next e he =>
          have hsome : s.engines.lookup key = some e := he
          obtain ⟨x, hx, -⟩ := h.counted.engines key e hsome
          replace hok := hok (.inl (by simp [hsome]))
          split at hok
          · next hprep =>
              rw [prepareEngine_eq hx hok.1, if_pos hprep]
              exact record h.counted hsome (fun k e' he' _ => h.used k e' he')
                hx hok.1 (hok.2 e x hsome hx)
          · next hprep =>
              rw [prepareEngine_failed hprep]
              exact h
      · next hnone =>
          replace hnone : s.engines.lookup key = none := hnone
          have hr := s.createEngine_created env key
          unfold Server.createEngineWithCheck
          simp only [Server.findEngineByKey, hnone]
          have hcounted := h.counted.created hr
          have hused : Used (s.createEngine env key).2.2 := by
            intro k e he
            rw [hr.engines] at he
            rw [Server.transactions, hr.clientEngines]
            exact h.used k e he
          generalize s.createEngine env key = r at hr hcounted hused ⊢
          obtain ⟨ret, oe, s'⟩ := r
          cases oe with
          | none => exact ⟨hcounted, hused⟩
          | some e =>
              simp only
              by_cases hret : ret = Retcode.success
              · simp only [hret, ne_eq, not_true, if_false]
                replace hok := hok (.inr (hr.success.mp hret))
                split at hok
                · next hprep =>
                    have hfiled := filed h.counted hcounted hr hnone
                    obtain ⟨-, -, -, x, hx, hzero, -⟩ := hr.some e rfl
                    have htid : s'.clientEngines.lookup tid = none :=
                      hr.clientEngines ▸ hok.1
                    rw [prepareEngine_eq
                      (s := { s' with engines := s'.engines.insert key e })
                      hx htid, if_pos hprep]
                    refine record hfiled (Finmap.lookup_insert _)
                      (fun k e' he' hne => ?_) hx htid (by rw [hzero]; decide)
                    simp only [Table.lookup_insert_if] at he'
                    split at he'
                    · cases he'
                      exact absurd rfl hne
                    · exact hused k e' he'
                · exact absurd hnone hok
              · simp only [hret, ne_eq, not_false_eq_true, if_true]
                exact Accounted.dropEngine ⟨hcounted, hused⟩ env e

/-! ## Stopping

A stop takes one from both sides, and where nothing is left the plugin and the
engine go. Which of the two counts the code looks at makes no difference as
long as they agree. -/

/-- The flag `StopEngine` passes says whether the transaction is the only
one. -/
theorem isFullUnload_iff (h : Accounted s)
    (htid : s.clientEngines.lookup tid = some e)
    (hx : s.engine.lookup e = some x) :
    (x.refCount = pluginNumForUnload ↔
      ∀ tid', s.clientEngines.lookup tid' = some e → tid' = tid) ∧
      0 < x.refCount.toInt := by
  obtain ⟨x', hx', hkey⟩ := h.counted.clients tid e htid
  rw [hx] at hx'
  cases hx'
  obtain ⟨x', hx', -, hcount⟩ := h.counted.engines _ e hkey
  rw [hx] at hx'
  cases hx'
  have hpos := h.used _ e hkey
  refine ⟨?_, by omega⟩
  rw [← Int32.toInt_inj, hcount]
  have hone := Table.countWith_eq_one (· = e) htid rfl
  rw [show pluginNumForUnload.toInt = ((1 : Nat) : Int) from rfl,
    Int.ofNat_inj, hone]
  refine ⟨fun hsole tid' h' => hsole tid' e h' rfl, ?_⟩
  rintro hsole tid' _ h' rfl
  exact hsole tid' h'

theorem findPlugin_unloadPlugin (m : PluginManager) (aid : String)
    (version : Int64) (key : PluginKey) :
    (m.unloadPlugin aid version).findPlugin key =
      if key = ⟨aid, version⟩ then none else m.findPlugin key := by
  unfold PluginManager.unloadPlugin
  split
  · exact Table.lookup_erase_if ..
  · next hnone =>
      split
      · next heq =>
          rw [heq]
          exact hnone
      · rfl

/-- What the accounts say about the engine of a transaction. -/
theorem engine_of (h : Accounted s)
    (htid : s.clientEngines.lookup tid = some e)
    (hx : s.engine.lookup e = some x) :
    s.engines.lookup x.key = some e ∧ x.refCount.toInt = s.transactions e := by
  obtain ⟨x', hx', hkey⟩ := h.counted.clients tid e htid
  rw [hx] at hx'
  cases hx'
  obtain ⟨x', hx', -, hcount⟩ := h.counted.engines _ e hkey
  rw [hx] at hx'
  cases hx'
  exact ⟨hkey, hcount⟩

/-- An engine loses a transaction and keeps others. -/
theorem unRecord (h : Accounted s)
    (htid : s.clientEngines.lookup tid = some e)
    (hx : s.engine.lookup e = some x)
    (hmore : x.refCount ≠ pluginNumForUnload) :
    Accounted ((s.setRefCount e x (x.refCount - 1)).unRecordClient tid) := by
  obtain ⟨hkey, hcount⟩ := h.engine_of htid hx
  have hpos := (h.isFullUnload_iff htid hx).2
  have hsub := toInt_sub_one hpos
  have hgone := fun e' => Table.countWith_erase (· = e') htid
  refine ⟨⟨?_, ?_, ?_, h.counted.plugins, h.counted.keyed⟩, ?_⟩
  · intro k e' he'
    obtain ⟨x', hx', hkey', hcount'⟩ := h.counted.engines k e' he'
    have hgone' := hgone e'
    simp only [Server.unRecordClient, Server.setRefCount,
      Table.lookup_insert_if, Server.transactions] at hcount hcount' ⊢
    split
    · next heq =>
        subst heq
        rw [hx] at hx'
        cases hx'
        refine ⟨_, rfl, hkey', ?_⟩
        rw [if_pos rfl] at hgone'
        rw [hsub]
        omega
    · next hne =>
        refine ⟨x', hx', hkey', ?_⟩
        rw [if_neg (Ne.symm hne)] at hgone'
        omega
  · intro tid' e' he'
    simp only [Server.unRecordClient, Server.setRefCount,
      Table.lookup_erase_if] at he'
    split at he'
    · cases he'
    · obtain ⟨x', hx', hkey'⟩ := h.counted.clients tid' e' he'
      simp only [Server.unRecordClient, Server.setRefCount,
        Table.lookup_insert_if]
      split
      · next heq =>
          subst heq
          exact ⟨_, rfl, hkey⟩
      · exact ⟨x', hx', hkey'⟩
  · intro e' he'
    have hne : e' ≠ e := by
      have hlt := h.counted.engine_lt hx
      simp only [Server.unRecordClient, Server.setRefCount] at he'
      omega
    simp only [Server.unRecordClient, Server.setRefCount,
      Table.lookup_insert_if, if_neg hne]
    exact h.counted.fresh e' he'
  · intro k e' he'
    have hused := h.used k e' he'
    have hgone' := hgone e'
    simp only [Server.unRecordClient, Server.setRefCount,
      Server.transactions] at hused hcount ⊢
    by_cases heq : e = e'
    · subst heq
      rw [if_pos rfl] at hgone'
      have hne : x.refCount.toInt ≠ 1 := by
        intro hone
        exact hmore (Int32.toInt_inj.mp (by rw [hone]; decide))
      omega
    · rw [if_neg heq] at hgone'
      omega

theorem loadedPlugin_unload {t : Server} {m : PluginManager}
    (hm : s.pluginManager = some m)
    (ht : t.pluginManager =
      some (m.unloadPlugin x.plugin.aid x.plugin.version)) (k : EngineKey) :
    t.loadedPlugin k = if k = x.key then none else s.loadedPlugin k := by
  simp only [Server.loadedPlugin, hm, ht, findPlugin_unloadPlugin]
  by_cases hk : k = x.key
  · subst hk
    rw [if_pos rfl]
    exact if_pos rfl
  · rw [if_neg hk, if_neg]
    intro heq
    injection heq with haid hversion
    exact hk (by rw [Engine.key, ← haid, ← hversion])

/-- An engine loses its only transaction and goes with it. -/
theorem unload (h : Accounted s)
    (htid : s.clientEngines.lookup tid = some e)
    (hx : s.engine.lookup e = some x)
    (hlast : x.refCount = pluginNumForUnload) {m : PluginManager}
    (hm : s.pluginManager = some m) :
    Accounted (({ s.setRefCount e x (x.refCount - 1) with
      pluginManager := some (m.unloadPlugin x.plugin.aid x.plugin.version)
      }.delEngine x.key).unRecordClient tid) := by
  have hsole := (h.isFullUnload_iff htid hx).1.mp hlast
  have hgone := fun e' => Table.countWith_erase (· = e') htid
  have hloaded := loadedPlugin_unload (s := s) (t :=
    (({ s.setRefCount e x (x.refCount - 1) with
      pluginManager := some (m.unloadPlugin x.plugin.aid x.plugin.version)
      }.delEngine x.key).unRecordClient tid)) hm rfl
  have hother : ∀ k e', k ≠ x.key → s.engines.lookup k = some e' → e' ≠ e := by
    rintro k e' hk he' rfl
    exact hk (h.counted.key_unique he' hx).symm
  have hengines : ∀ k e', (s.engines.erase x.key).lookup k = some e' →
      k ≠ x.key ∧ s.engines.lookup k = some e' ∧ e' ≠ e := by
    intro k e' he'
    rw [Table.lookup_erase_if] at he'
    split at he'
    · cases he'
    · next hk => exact ⟨hk, he', hother k e' hk he'⟩
  refine ⟨⟨?_, ?_, ?_, ?_, ?_⟩, ?_⟩
  · intro k e' he'
    obtain ⟨hk, hold, hne⟩ := hengines k e' he'
    obtain ⟨x', hx', hkey', hcount'⟩ := h.counted.engines k e' hold
    refine ⟨x', ?_, hkey', ?_⟩
    · rw [← hx']
      exact Finmap.lookup_insert_of_ne _ hne
    · have hgone' := hgone e'
      rw [if_neg (Ne.symm hne)] at hgone'
      rw [hcount']
      exact congrArg Nat.cast hgone'.symm
  · intro tid' e' he'
    simp only [Server.unRecordClient, Server.delEngine, Server.setRefCount,
      Table.lookup_erase_if] at he'
    split at he'
    · cases he'
    · next hne' =>
        have hne : e' ≠ e := by
          rintro rfl
          exact hne' (hsole tid' he')
        obtain ⟨x', hx', hkey'⟩ := h.counted.clients tid' e' he'
        refine ⟨x', ?_, ?_⟩
        · rw [← hx']
          exact Finmap.lookup_insert_of_ne _ hne
        · refine (Finmap.lookup_erase_ne ?_).trans hkey'
          intro heq
          obtain ⟨hkey, -⟩ := h.engine_of htid hx
          rw [heq, hkey] at hkey'
          cases hkey'
          exact hne rfl
  · intro e' he'
    have hne : e' ≠ e := by
      rintro rfl
      exact absurd (h.counted.engine_lt hx) (Nat.not_lt.mpr he')
    exact (Finmap.lookup_insert_of_ne _ hne).trans (h.counted.fresh e' he')
  · intro k e' he'
    obtain ⟨hk, hold, -⟩ := hengines k e' he'
    rw [hloaded, if_neg hk]
    exact h.counted.plugins k e' hold
  · intro k p hp
    rw [hloaded] at hp
    split at hp
    · cases hp
    · exact h.counted.keyed k p hp
  · intro k e' he'
    obtain ⟨hk, hold, hne⟩ := hengines k e' he'
    have hgone' := hgone e'
    rw [if_neg (Ne.symm hne)] at hgone'
    exact Nat.lt_of_lt_of_eq (h.used k e' hold) hgone'.symm

/-- A released transaction leaves accounts that balance. -/
theorem unloadEngine (h : Accounted s) (env : Env)
    (htid : s.clientEngines.lookup tid = some e)
    (hx : s.engine.lookup e = some x) :
    Accounted (s.unloadEngine env tid e x).2 ∧
      ((s.unloadEngine env tid e x).2.engines.lookup x.key = none ↔
        x.refCount = pluginNumForUnload) ∧
      ((s.unloadEngine env tid e x).2.loadedPlugin x.key = none ↔
        x.refCount = pluginNumForUnload) := by
  obtain ⟨hkey, -⟩ := h.engine_of htid hx
  have hpos := (h.isFullUnload_iff htid hx).2
  have hsub := toInt_sub_one hpos
  have hloaded := h.counted.plugins _ e hkey
  have hzero : x.refCount - 1 = 0 ↔ x.refCount = pluginNumForUnload := by
    rw [← Int32.toInt_inj, hsub, ← Int32.toInt_inj]
    have hzero : (0 : Int32).toInt = 0 := rfl
    have hone : pluginNumForUnload.toInt = 1 := rfl
    omega
  unfold Server.unloadEngine
  by_cases hlast : x.refCount = pluginNumForUnload
  · obtain ⟨m, hm⟩ : ∃ m, s.pluginManager = some m := by
      cases hm : s.pluginManager with
      | some m => exact ⟨m, rfl⟩
      | none => exact absurd (by rw [Server.loadedPlugin, hm]) hloaded
    have hget : getPluginManager s.pluginManager env.plugins.newPluginManager =
        some m := by rw [hm]; rfl
    have hacc := h.unload htid hx hlast hm
    obtain ⟨hengines, -, hmanager, -⟩ := Server.dropEngine_frame
      (({ s.setRefCount e x (x.refCount - 1) with
        pluginManager := some (m.unloadPlugin x.plugin.aid x.plugin.version)
        }.delEngine x.key).unRecordClient tid) env e
    have hgone := (loadedPlugin_unload (s := s) hm hmanager x.key).trans
      (if_pos rfl)
    rw [if_pos (hzero.mpr hlast)]
    have hsame : (s.setRefCount e x (x.refCount - 1)).pluginManager =
        s.pluginManager := rfl
    simp only [hsame, hget]
    refine ⟨hacc.dropEngine env e, iff_of_true ?_ hlast, iff_of_true hgone
      hlast⟩
    exact (congrArg (Finmap.lookup x.key) hengines).trans
      (Finmap.lookup_erase x.key s.engines)
  · have hacc := h.unRecord htid hx hlast
    obtain ⟨hengines, -, hmanager, -⟩ := Server.dropEngine_frame
      ((s.setRefCount e x (x.refCount - 1)).unRecordClient tid) env e
    simp only [hzero, hlast, if_false, iff_false]
    refine ⟨hacc.dropEngine env e, ?_, ?_⟩
    · rw [hengines]
      simp only [Server.unRecordClient, Server.setRefCount, hkey]
      simp
    · rw [Server.loadedPlugin, hmanager]
      exact hloaded

theorem stopEngine (h : Accounted s) (env : Env) (tid : Int64)
    (input : DataInfo) : Accounted (s.stopEngine env tid input).server := by
  unfold Server.stopEngine
  split
  · exact h
  · next e he =>
      split
      · exact h
      · next x hx =>
          dsimp only
          split
          · exact h
          · exact (h.unloadEngine _ he hx).1

theorem call (h : Accounted s) {c : ServerCall} (hok : keepsCounts s c) :
    Accounted (s.call c) := by
  cases c with
  | startEngine env tid algo input output => exact h.startEngine hok
  | stopEngine env tid input => exact h.stopEngine env tid input
  | setOption env tid optionType input =>
      rw [Server.call, Server.setOption_server]
      exact h
  | getOption env tid optionType input output =>
      rw [Server.call, Server.getOption_server]
      exact h

end Accounted

/-- What `StopEngine` does for a transaction that leads to an engine: the
plugin is told to unload everything exactly if no other transaction leads
there, and the engine and its plugin are removed exactly if, besides, the
plugin releases its part. -/
def StopsLast (s : Server) : Prop :=
  ∀ env tid input e x, s.clientEngines.lookup tid = some e →
    s.engine.lookup e = some x →
      let r := s.stopEngine env tid input
      let last := ∀ tid', s.clientEngines.lookup tid' = some e → tid' = tid
      ∃ full, r.isFullUnload = some full ∧ (full = true ↔ last) ∧
        (r.server.engines.lookup x.key = none ↔
          last ∧ env.release full tid input = Retcode.success) ∧
        (r.server.loadedPlugin x.key = none ↔
          last ∧ env.release full tid input = Retcode.success)

theorem Accounted.stopsLast {s : Server} (h : Accounted s) : StopsLast s := by
  intro env tid input e x htid hx
  obtain ⟨hkey, -⟩ := h.engine_of htid hx
  have hloaded := h.counted.plugins _ e hkey
  have hlast := (h.isFullUnload_iff htid hx).1
  obtain ⟨-, hengines, hplugin⟩ := h.unloadEngine env htid hx
  have hfind : s.findEngine tid = some e := htid
  refine ⟨x.refCount == pluginNumForUnload, ?_, ?_, ?_⟩
  · simp only [Server.stopEngine, hfind, hx]
    split <;> rfl
  · rw [beq_iff_eq]
    exact hlast
  · simp only [Server.stopEngine, hfind, hx, ← hlast]
    split
    · next hfail => simp [hfail, hkey, hloaded]
    · next hok => simp [not_not.mp hok, hengines, hplugin]

/-- What is claimed of every state: counts and maps agree, every engine has
a transaction, and stopping goes by it. -/
structure WellCounted (s : Server) : Prop where
  refCount : ∀ key e, s.engines.lookup key = some e → ∃ x,
    s.engine.lookup e = some x ∧ x.refCount.toInt = s.transactions e ∧
      1 ≤ s.transactions e
  filed : ∀ tid e, s.clientEngines.lookup tid = some e → ∃ x,
    s.engine.lookup e = some x ∧ s.engines.lookup x.key = some e
  stop : StopsLast s

/-- The counts are right over every run whose calls keep them. -/
theorem reach_wellCounted {s : Server}
    (hs : serverMachine.Reach keepsCounts s) : WellCounted s := by
  have h : Accounted s := by
    refine hs.invariant ?_ ?_
    · rintro s rfl
      refine ⟨initial_counted, fun key e he => ?_⟩
      rw [Server.initial, Finmap.lookup_empty] at he
      cases he
    · intro s c s' hinv hok hstep
      cases hstep
      exact hinv.call hok
  refine ⟨fun key e he => ?_, h.counted.clients, h.stopsLast⟩
  obtain ⟨x, hx, -, hcount⟩ := h.counted.engines key e he
  exact ⟨x, hx, hcount, h.used key e he⟩

/-- Of the two transactions of one engine the second is left, and the engine
counts it. -/
theorem reach_wellCounted_sample :
    (startTwice.foldl Server.call .initial).clientEngines.keys = {2} ∧
      WellCounted (startTwice.foldl Server.call .initial) := by
  have hfirst : keepsCounts .initial (sampleStart .willing 1) := by
    intro _ _
    rw [if_pos (by rfl)]
    exact ⟨rfl, fun _ _ he => by cases he⟩
  have hone : serverMachine.Reach keepsCounts
      (Server.initial.call (sampleStart .willing 1)) :=
    .step (.start rfl) hfirst rfl
  have hsecond : keepsCounts (Server.initial.call (sampleStart .willing 1))
      (sampleStart .willing 2) := by
    intro _ _
    rw [if_pos (by rfl)]
    refine ⟨by decide, fun e x he hx => ?_⟩
    obtain rfl : 0 = e := Option.some.inj he
    obtain rfl := Option.some.inj hx
    decide
  have htwo := Machine.Reach.step hone hsecond rfl
  have hstopped := htwo.step
    (show keepsCounts _ (.stopEngine .willing 1 ⟨.null, 0⟩) from trivial) rfl
  exact ⟨by decide, reach_wellCounted hstopped⟩

/-- When the plugin refuses to prepare for the first transaction of a new
engine, the engine stays without one. -/
theorem refusedPrepare_not_wellCounted :
    ∃ s, serverMachine.Reach Machine.anyStep s ∧ ¬ WellCounted s := by
  refine ⟨Server.initial.call (sampleStart { Env.willing with
      prepare := fun _ _ out => (Retcode.failure, out) } 1),
    .step (.start rfl) trivial rfl, fun h => ?_⟩
  obtain ⟨x, -, -, hpos⟩ := h.refCount ⟨"sample_plugin_1", 1⟩ 0 (by decide)
  exact absurd hpos (by decide)

end AiEngine.Ref
