import AiEngine.Proofs.InferMode

/-!
# A ledger of references

An engine's reference count says how many references were taken, and not for
whom. The ledger says it: an entry for each `AddEngineReference` of a
transaction that no `DelEngineReference` of the same transaction took back, as
long as the engine exists. Whatever the clients do, the count of an engine is
the number of its entries, and a transaction that is recorded has one.
-/

namespace AiEngine.Ref

open AiEngine.Lib

/-- Transactions with the engines they hold a reference to. -/
abbrev Ledger : Type := List (Int64 × Nat)

/-- How many references to an engine the ledger has. -/
def Ledger.references (ledger : Ledger) (e : Nat) : Nat :=
  ledger.countP fun p => p.2 = e

namespace Server

/-- The entries of the engines that exist. -/
def alive (s : Server) (ledger : Ledger) : Ledger :=
  ledger.filter fun p => (s.engine.lookup p.2).isSome

/-- The ledger after `StartEngine`, from what it returned. -/
def startLedger (ledger : Ledger) (tid : Int64) (r : Int × DataInfo × Server) :
    Ledger :=
  r.2.2.alive <|
    match r.2.2.findEngine tid with
    | none => ledger
    | some e => if r.1 = Retcode.success then (tid, e) :: ledger else ledger

/-- The ledger after `StopEngine`, which takes a reference back when the
plugin has released its part. -/
def stopLedger (s : Server) (env : Env) (tid : Int64) (input : DataInfo)
    (ledger : Ledger) : Ledger :=
  (s.stopEngine env tid input).server.alive <|
    match s.findEngine tid with
    | none => ledger
    | some e =>
        match s.engine.lookup e with
        | none => ledger
        | some x =>
            if env.release (x.refCount == pluginNumForUnload) tid input =
                Retcode.success then ledger.erase (tid, e)
            else ledger

/-- The count of an engine, 0 for one that does not exist. -/
def refCount (s : Server) (e : Nat) : Int32 :=
  match s.engine.lookup e with
  | none => 0
  | some x => x.refCount

/-- Where there is an engine, there is a plugin manager. -/
def Managed (s : Server) : Prop :=
  ∀ e x, s.engine.lookup e = some x → s.pluginManager ≠ none

variable {s s' : Server} {env : Env} {tid : Int64} {e : Nat} {x : Engine}
  {input output : DataInfo}

theorem refCount_of_lookup (hx : s.engine.lookup e = some x) :
    s.refCount e = x.refCount := by
  rw [refCount, hx]

theorem refCount_of_none (hx : s.engine.lookup e = none) :
    s.refCount e = 0 := by
  rw [refCount, hx]

/-- The engines of `s'` were in `s`, and their counts changed by `d`. -/
structure Recounted (s s' : Server) (d : Nat → Int32) : Prop where
  engine : ∀ e x', s'.engine.lookup e = some x' →
    x'.refCount = s.refCount e + d e
  managed : s.Managed → s'.Managed

theorem dropEngine_lookup (s : Server) (env : Env) (e : Nat) {e' : Nat}
    {x' : Engine} (h : (s.dropEngine env e).engine.lookup e' = some x') :
    s.engine.lookup e' = some x' := by
  unfold dropEngine at h
  split at h
  · exact h
  · split at h
    · exact h
    · rw [Table.lookup_erase_if] at h
      split at h
      · cases h
      · exact h

theorem Recounted.dropEngine {d : Nat → Int32} (h : Recounted s s' d) (env : Env)
    (e : Nat) : Recounted s (s'.dropEngine env e) d where
  engine := fun e' x' hx' => h.engine e' x' (s'.dropEngine_lookup env e hx')
  managed := fun hs e' x' hx' => by
    rw [(s'.dropEngine_frame env e).2.2.1]
    exact h.managed hs e' x' (s'.dropEngine_lookup env e hx')

theorem Recounted.of_same {t : Server} {d : Nat → Int32}
    (h : Recounted s s' d) (hengine : t.engine = s'.engine)
    (hmanager : s'.pluginManager ≠ none → t.pluginManager ≠ none) :
    Recounted s t d where
  engine := fun e x' hx' => h.engine e x' (hengine ▸ hx')
  managed := fun hs e x' hx' => hmanager (h.managed hs e x' (hengine ▸ hx'))

theorem Recounted.refl (s : Server) : Recounted s s fun _ => 0 where
  engine := fun e x' hx' => by
    rw [refCount_of_lookup hx', Int32.add_zero]
  managed := id

theorem Recounted.trans {s₁ s₂ : Server} {d d' : Nat → Int32}
    (h : Recounted s s₁ d) (h' : Recounted s₁ s₂ d')
    (halive : ∀ e x, s₂.engine.lookup e = some x →
      s₁.engine.lookup e ≠ none) :
    Recounted s s₂ fun e => d e + d' e where
  engine := fun e x' hx' => by
    obtain ⟨x, hx⟩ := Option.ne_none_iff_exists'.mp (halive e x' hx')
    rw [h'.engine e x' hx', refCount_of_lookup hx, h.engine e x hx,
      Int32.add_assoc]
  managed := fun hs => h'.managed (h.managed hs)

/-- Recording an engine for a transaction takes a reference to it. -/
structure Recorded (s s' : Server) (tid : Int64) (e : Nat) : Prop where
  clientEngines : s'.clientEngines = s.clientEngines.insert tid e
  recounted : Recounted s s' fun e' => if e' = e then 1 else 0
  alive : ∀ e' x', s'.engine.lookup e' = some x' → s.engine.lookup e' ≠ none

theorem prepareEngine_recorded (hx : s.engine.lookup e = some x)
    (hok : (s.prepareEngine env tid e input output).1 = Retcode.success) :
    Recorded s (s.prepareEngine env tid e input output).2.2 tid e := by
  unfold prepareEngine at hok ⊢
  rw [hx] at hok ⊢
  dsimp only at hok ⊢
  split at hok
  · next hne => exact absurd hok hne
  · next hprep =>
      rw [if_neg hprep]
      have hset : Recounted s
          { s.setRefCount e x (x.refCount + 1) with
            clientEngines := s.clientEngines.insert tid e }
          fun e' => if e' = e then 1 else 0 := by
        refine ⟨fun e' x' hx' => ?_, fun hs e' x' _ => hs e x hx⟩
        simp only [setRefCount, Table.lookup_insert_if] at hx'
        split at hx'
        · next heq =>
            cases hx'
            rw [if_pos heq, heq, refCount_of_lookup hx]
        · next hne =>
            rw [if_neg hne, Int32.add_zero, refCount_of_lookup hx']
      have halive (e' : Nat) (x' : Engine)
          (hx' : (s.setRefCount e x (x.refCount + 1)).engine.lookup e' =
            some x') : s.engine.lookup e' ≠ none := by
        simp only [setRefCount, Table.lookup_insert_if] at hx'
        split at hx'
        · next heq =>
            rw [heq, hx]
            exact Option.some_ne_none _
        · rw [hx']
          exact Option.some_ne_none _
      unfold recordClient
      dsimp only
      split
      · exact ⟨rfl, hset, halive⟩
      · next old _ =>
          refine ⟨(dropEngine_frame _ env old).2.1, hset.dropEngine env old,
            fun e' x' hx' => ?_⟩
          have hbefore := dropEngine_lookup _ env old hx'
          exact halive e' x' hbefore

theorem prepareEngine_failed
    (hfail : (s.prepareEngine env tid e input output).1 ≠ Retcode.success) :
    (s.prepareEngine env tid e input output).2.2 = s := by
  unfold prepareEngine at hfail ⊢
  split
  · rfl
  · next x hx =>
      rw [hx] at hfail
      dsimp only at hfail ⊢
      split
      · rfl
      · next hok =>
          rw [if_neg hok] at hfail
          exact absurd rfl hfail

theorem createEngine_managed (env : Env) (key : EngineKey)
    (h : s.Managed) : (s.createEngine env key).2.2.Managed := by
  unfold createEngine
  split
  · exact h
  · next manager _ =>
      split
      · exact fun _ _ _ => Option.some_ne_none _
      · next plugin manager' _ =>
          dsimp only
          split
          · exact fun _ _ _ => Option.some_ne_none _
          · next t q pools _ =>
              intro e x _
              rw [(buildEngine_built _ env plugin t q).pluginManager]
              exact Option.some_ne_none _

/-- A new engine has no references. -/
theorem createEngine_recounted (h : Handled s) (env : Env) (key : EngineKey) :
    Recounted s (s.createEngine env key).2.2 fun _ => 0 := by
  have hr := s.createEngine_created env key
  refine ⟨fun e x' hx' => ?_, createEngine_managed env key⟩
  rw [Int32.add_zero]
  cases hoe : (s.createEngine env key).2.1 with
  | none =>
      rw [(hr.none hoe).2.1] at hx'
      exact (refCount_of_lookup hx').symm
  | some e₁ =>
      obtain ⟨hnew, -, hothers, x, hx, hzero, -⟩ := hr.some e₁ hoe
      by_cases heq : e = e₁
      · subst heq
        cases hx.symm.trans hx'
        rw [hzero, refCount_of_none (h.fresh e (Nat.le_of_eq hnew.symm))]
      · rw [hothers e heq] at hx'
        exact (refCount_of_lookup hx').symm

/-- What `StartEngine` does to the counts. -/
structure Started (s s' : Server) (tid : Int64) (retCode : Int) : Prop where
  success : retCode = Retcode.success → ∃ e,
    s'.clientEngines = s.clientEngines.insert tid e ∧
      Recounted s s' fun e' => if e' = e then 1 else 0
  failure : retCode ≠ Retcode.success →
    s'.clientEngines = s.clientEngines ∧ Recounted s s' fun _ => 0

/-- Recording an engine for the transaction, or leaving it, ends the call. -/
theorem prepareEngine_started {t : Server} {ret : Int × DataInfo × Server}
    (hclients : t.clientEngines = s.clientEngines)
    (hcounts : Recounted s t fun _ => 0) (hx : t.engine.lookup e = some x)
    (hret : t.prepareEngine env tid e input output = ret) :
    Started s ret.2.2 tid ret.1 := by
  subst hret
  refine ⟨fun hok => ?_, fun hfail => ?_⟩
  · have hrec := prepareEngine_recorded hx hok
    have htrans := hcounts.trans hrec.recounted hrec.alive
    simp only [Int32.zero_add] at htrans
    exact ⟨e, hclients ▸ hrec.clientEngines, htrans⟩
  · rw [prepareEngine_failed hfail]
    exact ⟨hclients, hcounts⟩

theorem startEngine_started (h : Handled s) (env : Env) (tid : Int64)
    (algoInfo : AlgorithmInfo) (input output : DataInfo) :
    Started s (s.startEngine env tid algoInfo input output).2.2 tid
      (s.startEngine env tid algoInfo input output).1 := by
  have hinvalid : Retcode.algorithmIdInvalid ≠ Retcode.success := by decide
  unfold startEngine
  dsimp only
  split
  · exact ⟨fun hok => absurd hok hinvalid, fun _ => ⟨rfl, .refl s⟩⟩
  · generalize (⟨getAlgorithmIdByType algoInfo.algorithmType,
      algoInfo.algorithmVersion⟩ : EngineKey) = key
    split
    · next e he =>
        obtain ⟨x, hx, -⟩ := h.engines key e he
        exact prepareEngine_started rfl (.refl s) hx rfl
    · next hnone =>
        have hr := s.createEngine_created env key
        have hcounts := createEngine_recounted h env key
        unfold createEngineWithCheck
        simp only [hnone]
        generalize s.createEngine env key = r at hr hcounts ⊢
        obtain ⟨ret, oe, t⟩ := r
        cases oe with
        | none =>
            exact ⟨fun hok => absurd hok (hr.none rfl).1,
              fun _ => ⟨hr.clientEngines, hcounts⟩⟩
        | some e =>
            obtain ⟨-, -, -, x, hx, -⟩ := hr.some e rfl
            by_cases hret : ret = Retcode.success
            · simp only [hret, ne_eq, not_true, if_false]
              have hfiled : Recounted s
                  { t with engines := t.engines.insert key e } fun _ => 0 :=
                ⟨hcounts.engine, hcounts.managed⟩
              have hclients : { t with
                  engines := t.engines.insert key e }.clientEngines =
                s.clientEngines := hr.clientEngines
              exact prepareEngine_started hclients hfiled hx rfl
            · simp only [hret, ne_eq, not_false_eq_true, if_true]
              exact ⟨fun hok => absurd hok hret, fun _ =>
                ⟨(t.dropEngine_frame env e).2.1.trans hr.clientEngines,
                  hcounts.dropEngine env e⟩⟩

/-- Where the plugin has released its part, the transaction is gone, and with
it its reference. -/
structure Stopped (s s' : Server) (tid : Int64) (e : Nat) : Prop where
  clientEngines : s'.clientEngines = s.clientEngines.erase tid
  recounted : Recounted s s' fun e' => if e' = e then -1 else 0

theorem unloadEngine_stopped (env : Env) (tid : Int64)
    (hx : s.engine.lookup e = some x)
    (hs : s.Managed) :
    (s.unloadEngine env tid e x).1 = Retcode.success ∧
      Stopped s (s.unloadEngine env tid e x).2 tid e := by
  have hset : Recounted s (s.setRefCount e x (x.refCount - 1))
      fun e' => if e' = e then -1 else 0 := by
    refine ⟨fun e' x' hx' => ?_, fun hs e' x' _ => hs e x hx⟩
    simp only [setRefCount, Table.lookup_insert_if] at hx'
    split at hx'
    · next heq =>
        cases hx'
        rw [if_pos heq, heq, refCount_of_lookup hx, Int32.sub_eq_add_neg]
    · next hne =>
        rw [if_neg hne, Int32.add_zero, refCount_of_lookup hx']
  unfold unloadEngine
  dsimp only
  split
  · split
    · next hnone =>
        refine absurd ?_ (hs e x hx)
        unfold getPluginManager at hnone
        split at hnone
        · cases hnone
        · assumption
    · refine ⟨rfl, (dropEngine_frame _ env e).2.1, ?_⟩
      refine Recounted.dropEngine (hset.of_same ?_ ?_) env e
      · rfl
      · exact fun _ => Option.some_ne_none _
  · refine ⟨rfl, (dropEngine_frame _ env e).2.1, ?_⟩
    refine Recounted.dropEngine (hset.of_same ?_ ?_) env e
    · rfl
    · exact id

theorem stopEngine_cases (s : Server) (env : Env) (tid : Int64)
    (input : DataInfo) (hs : s.Managed) :
    ((s.stopEngine env tid input).retCode ≠ Retcode.success ∧
      (s.stopEngine env tid input).server = s ∧
      ∀ e x, s.findEngine tid = some e → s.engine.lookup e = some x →
        env.release (x.refCount == pluginNumForUnload) tid input ≠
          Retcode.success) ∨
    ∃ e x, s.findEngine tid = some e ∧ s.engine.lookup e = some x ∧
      env.release (x.refCount == pluginNumForUnload) tid input =
        Retcode.success ∧
      (s.stopEngine env tid input).retCode = Retcode.success ∧
      Stopped s (s.stopEngine env tid input).server tid e := by
  have hservice : Retcode.saServiceException ≠ Retcode.success := by decide
  unfold stopEngine
  split
  · next hnone =>
      refine .inl ⟨hservice, rfl, fun e x he _ => ?_⟩
      cases hnone.symm.trans he
  · next e he =>
      split
      · next hnone =>
          refine .inl ⟨hservice, rfl, fun e' x he' hx => ?_⟩
          cases he.symm.trans he'
          cases hnone.symm.trans hx
      · next x hx =>
          dsimp only
          split
          · next hfail =>
              refine .inl ⟨hfail, rfl, fun e' x' he' hx' => ?_⟩
              cases he.symm.trans he'
              cases hx.symm.trans hx'
              exact hfail
          · next hok =>
              obtain ⟨hret, hstopped⟩ := unloadEngine_stopped env tid hx hs
              exact .inr ⟨e, x, he, hx, Decidable.of_not_not hok, hret,
                hstopped⟩

end Server

/-- The ledger says what the counts say, and has every recorded transaction. -/
structure LedgerKept (s : Server) (ledger : Ledger) : Prop where
  handled : Handled s
  managed : s.Managed
  refCount : ∀ e, s.refCount e = Int32.ofNat (ledger.references e)
  recorded : ∀ tid e, s.findEngine tid = some e → (tid, e) ∈ ledger

theorem Ledger.references_cons (ledger : Ledger) (tid : Int64) (e e' : Nat) :
    Ledger.references ((tid, e) :: ledger) e' =
      ledger.references e' + if e' = e then 1 else 0 := by
  unfold references
  rw [List.countP_cons]
  congr 1
  simp only [decide_eq_true_eq]
  by_cases h : e' = e
  · rw [if_pos h, if_pos h.symm]
  · rw [if_neg h, if_neg (Ne.symm h)]

theorem Ledger.references_erase {ledger : Ledger} {tid : Int64} {e : Nat}
    (h : (tid, e) ∈ ledger) (e' : Nat) :
    Ledger.references (ledger.erase (tid, e)) e' + (if e' = e then 1 else 0) =
      ledger.references e' := by
  rw [← references_cons]
  exact ((List.perm_cons_erase h).countP_eq _).symm

/-- An engine that exists keeps its entries, one that does not has none. -/
theorem Server.references_alive (s : Server) (ledger : Ledger) (e : Nat) :
    Ledger.references (s.alive ledger) e =
      if (s.engine.lookup e).isSome then ledger.references e else 0 := by
  unfold alive Ledger.references
  rw [List.countP_filter]
  split
  · next hsome =>
      refine List.countP_congr fun p _ => ?_
      simp only [Bool.and_eq_true, decide_eq_true_eq, and_iff_left_iff_imp]
      rintro rfl
      exact hsome
  · next hnone =>
      refine List.countP_eq_zero.mpr fun p _ hp => ?_
      simp only [Bool.and_eq_true, decide_eq_true_eq] at hp
      exact hnone (hp.1 ▸ hp.2)

namespace LedgerKept

variable {s s' : Server} {ledger ledger' : Ledger} {env : Env} {tid : Int64}
  {e : Nat}

/-- The ledger follows the counts, and loses the entries of engines that are
gone. -/
theorem follow {d : Nat → Int32} (h : LedgerKept s ledger)
    (hhandled : Handled s') (hcounts : Server.Recounted s s' d)
    (hrefs : ∀ e, Int32.ofNat (ledger'.references e) =
      Int32.ofNat (ledger.references e) + d e)
    (hrecorded : ∀ tid e, s'.findEngine tid = some e → (tid, e) ∈ ledger') :
    LedgerKept s' (s'.alive ledger') where
  handled := hhandled
  managed := hcounts.managed h.managed
  refCount := fun e => by
    rw [Server.references_alive]
    cases hx : s'.engine.lookup e with
    | none => exact Server.refCount_of_none hx
    | some x =>
        rw [Server.refCount_of_lookup hx, hcounts.engine e x hx, h.refCount,
          Option.isSome_some, if_pos rfl, hrefs]
  recorded := fun tid e he => by
    obtain ⟨x, hx, -⟩ := hhandled.clients tid e he
    refine List.mem_filter.mpr ⟨hrecorded tid e he, ?_⟩
    rw [hx]
    rfl

theorem startEngine (h : LedgerKept s ledger) (env : Env) (tid : Int64)
    (algoInfo : AlgorithmInfo) (input output : DataInfo) :
    LedgerKept (s.startEngine env tid algoInfo input output).2.2
      (Server.startLedger ledger tid
        (s.startEngine env tid algoInfo input output)) := by
  have hhandled := h.handled.startEngine env tid algoInfo input output
  have hstarted := Server.startEngine_started h.handled env tid algoInfo input
    output
  generalize s.startEngine env tid algoInfo input output = r
    at hhandled hstarted ⊢
  unfold Server.startLedger
  by_cases hok : r.1 = Retcode.success
  · obtain ⟨e₁, hclients, hcounts⟩ := hstarted.success hok
    have hfind (t : Int64) : r.2.2.findEngine t =
        if t = tid then some e₁ else s.findEngine t := by
      rw [Server.findEngine, hclients, Table.lookup_insert_if]
      rfl
    simp only [hfind tid, if_true, hok]
    refine h.follow hhandled hcounts (fun e => ?_) fun t e he => ?_
    · rw [Ledger.references_cons, Int32.ofNat_add]
      split <;> rfl
    · rw [hfind] at he
      split at he
      · next heq =>
          cases he
          exact heq ▸ List.mem_cons_self
      · exact List.mem_cons_of_mem _ (h.recorded t e he)
  · obtain ⟨hclients, hcounts⟩ := hstarted.failure hok
    have hfind (t : Int64) : r.2.2.findEngine t = s.findEngine t := by
      rw [Server.findEngine, hclients]
      rfl
    have hledger : (match r.2.2.findEngine tid with
        | none => ledger
        | some e => if r.1 = Retcode.success then (tid, e) :: ledger
            else ledger) = ledger := by
      split
      · rfl
      · exact if_neg hok
    rw [hledger]
    refine h.follow hhandled hcounts (fun e => (Int32.add_zero _).symm) ?_
    intro t e he
    exact h.recorded t e (hfind t ▸ he)

theorem stopEngine (h : LedgerKept s ledger) (env : Env) (tid : Int64)
    (input : DataInfo) :
    LedgerKept (s.stopEngine env tid input).server
      (s.stopLedger env tid input ledger) := by
  have hhandled := h.handled.stopEngine env tid input
  unfold Server.stopLedger
  rcases s.stopEngine_cases env tid input h.managed with
    ⟨-, hserver, hkeeps⟩ | ⟨e, x, he, hx, hrelease, -, hclients, hcounts⟩
  · have hledger : (match s.findEngine tid with
        | none => ledger
        | some e =>
            match s.engine.lookup e with
            | none => ledger
            | some x =>
                if env.release (x.refCount == pluginNumForUnload) tid input =
                    Retcode.success then ledger.erase (tid, e)
                else ledger) = ledger := by
      split
      · rfl
      · next e he =>
          split
          · rfl
          · next x hx => exact if_neg (hkeeps e x he hx)
    rw [hledger, hserver]
    exact h.follow h.handled (.refl s) (fun e => (Int32.add_zero _).symm)
      h.recorded
  · simp only [he, hx, hrelease, if_true]
    refine h.follow hhandled hcounts (fun e' => ?_) fun t e' he' => ?_
    · rw [← Ledger.references_erase (h.recorded tid e he) e', Int32.ofNat_add]
      split
      · have hback : Int32.ofNat 1 + -1 = 0 := rfl
        rw [Int32.add_assoc, hback, Int32.add_zero]
      · have hzero : Int32.ofNat 0 = 0 := rfl
        rw [hzero, Int32.add_zero, Int32.add_zero]
    · rw [Server.findEngine, hclients, Table.lookup_erase_if] at he'
      split at he'
      · cases he'
      · next hne =>
          have hold := h.recorded t e' he'
          refine (List.mem_erase_of_ne fun heq => hne ?_).mpr hold
          exact (Prod.mk.inj heq).1

theorem withPools (h : LedgerKept s ledger) (pools : Pools Task) :
    LedgerKept { s with pools } ledger :=
  ⟨h.handled.withPools pools, h.managed, h.refCount, h.recorded⟩

end LedgerKept

theorem initial_ledgerKept : LedgerKept .initial [] where
  handled := initial_handled
  managed := by simp [Server.Managed, Server.initial]
  refCount := fun e => rfl
  recorded := by simp [Server.findEngine, Server.initial]

end AiEngine.Ref
