import AiEngine.Proofs.ClientTeardown
import AiEngine.Proofs.UnloadSteps

/-!
# Client ids are fresh

`FindValidClientId` leaves an id in a global counter, and
`AllocateClientAdapter` makes the adapter from the counter. The loop that
counts has no bound of its own. It ends since there are more ids than live
clients, wherever the counter stands: at most one more step is taken than
there are clients, also across the overflow of the counter.
-/

namespace AiEngine.Ref

open AiEngine.Lib

/-- The body of the loop, on the counter as it is. -/
def nextClientId (clientIdAtomic : Int32) : Int32 :=
  if clientIdAtomic + 1 < 1 then 1 else clientIdAtomic + 1

/-- Counting in 32 bits starts over after the largest id. -/
theorem nextClientId_toInt {c : Int32} (hc : 0 ≤ c.toInt) :
    (nextClientId c).toInt = FreshId.next startingClientId intMax c.toInt := by
  have hmax : c.toInt < 2 ^ 31 := c.toInt_lt
  have hone : (1 : Int32).toInt = 1 := by decide
  have hsum : (c + 1).toInt = (c.toInt + 1).bmod (2 ^ 32) := by
    rw [Int32.toInt_add, hone]
  unfold nextClientId FreshId.next startingClientId intMax
  by_cases hlast : c.toInt = 2147483647
  · rw [hlast] at hsum
    have hneg : c + 1 < 1 := Int32.lt_iff_toInt_lt.mpr (by rw [hsum]; decide)
    rw [if_pos hneg, if_pos (by omega), hone]
  · rw [Int.bmod_eq_of_le (by omega) (by omega)] at hsum
    have hpos : ¬ c + 1 < 1 := by
      rw [Int32.lt_iff_toInt_lt, hsum, hone]
      omega
    rw [if_neg hpos, if_neg (by omega), hsum]

theorem iterate_nextClientId {c : Int32} (hc : 0 ≤ c.toInt) (k : Nat) :
    (nextClientId^[k] c).toInt =
        (FreshId.next startingClientId intMax)^[k] c.toInt ∧
      0 ≤ (nextClientId^[k] c).toInt := by
  induction k with
  | zero => exact ⟨rfl, hc⟩
  | succ k ih =>
      rw [Function.iterate_succ_apply', Function.iterate_succ_apply',
        nextClientId_toInt ih.2, ih.1]
      refine ⟨rfl, Int.le_trans (by decide) (FreshId.next_bounds ?_).1⟩
      decide

/-! ## What the clients keep

Ids and adapters go together: an id in the map is that of its adapter, and no
two are the same. Only `GenerateClient` makes a new one, with the search of
the loop. -/

/-- Each adapter has the id it is filed under, which is one that was counted,
and the counter stands on an id, or has not been used. -/
structure ClientsKept (s : Service) : Prop where
  named : ∀ d a, s.findAdapter d = some a → a.adapterId = d
  started : ∀ d ∈ s.adapters, 1 ≤ d
  counter : 0 ≤ s.clientIdAtomic ∧ s.clientIdAtomic ≤ intMax

namespace ClientsKept

variable {s s' : Service}

theorem initial : ClientsKept .initial where
  named := fun d a ha => nomatch ha
  started := fun d hd => absurd hd Finmap.notMem_empty
  counter := ⟨Int.le_refl 0, by decide⟩

theorem of_same (h : ClientsKept s) (hadapters : s'.adapters = s.adapters)
    (hcounter : s'.clientIdAtomic = s.clientIdAtomic) : ClientsKept s' where
  named := by
    unfold Service.findAdapter
    rw [hadapters]
    exact h.named
  started := by
    rw [hadapters]
    exact h.started
  counter := by
    rw [hcounter]
    exact h.counter

theorem of_untouched (h : ClientsKept s) (hu : Untouched s s') :
    ClientsKept s' := h.of_same hu.adapters hu.counter

/-- The adapter of a client is replaced by one with the same id. -/
theorem updateAdapter (h : ClientsKept s) {d : Int32} {a a' : SaServerAdapter}
    (ha : s.findAdapter d = some a) (hid : a'.adapterId = a.adapterId) :
    ClientsKept { s with adapters := s.adapters.insert d a' } where
  named := by
    intro e b hb
    rw [Service.findAdapter, Table.lookup_insert_if] at hb
    split at hb
    · next heq =>
        cases hb
        rw [hid, h.named d a ha, heq]
    · exact h.named e b hb
  started := by
    intro e he
    rcases (Finmap.mem_insert).mp he with rfl | he
    · exact h.started e (Table.mem_of_lookup ha)
    · exact h.started e he
  counter := h.counter

theorem eraseAdapter (h : ClientsKept s) (d : Int32) :
    ClientsKept { s with adapters := s.adapters.erase d } where
  named := by
    intro e b hb
    rw [Service.findAdapter, Table.lookup_erase_if] at hb
    split at hb
    · cases hb
    · exact h.named e b hb
  started := fun e he => h.started e (Finmap.mem_erase.mp he).2
  counter := h.counter

theorem removeAdapter (h : ClientsKept s) (env : ServiceEnv) (d : Int32) :
    ClientsKept (s.removeAdapter env d).2 := by
  unfold Service.removeAdapter
  split
  · exact h
  · split
    · next hexec => exact (h.of_untouched (.getExecutor hexec)).eraseAdapter d
    · next hexec =>
        exact { (h.of_untouched (.getExecutor hexec)).eraseAdapter d with }

theorem loadAlgo (h : ClientsKept s) (env : ServiceEnv)
    (clientInfo : ClientInfo) (algoInfo : AlgorithmInfo)
    (input output : DataInfo) :
    ClientsKept (s.loadAlgo env clientInfo algoInfo input output).2.2 := by
  unfold Service.loadAlgo
  split
  · exact h
  · next a ha =>
      dsimp only
      split
      · next hexec => exact h.of_untouched (.getExecutor hexec)
      · next s' hexec =>
          have hu := Untouched.getExecutor hexec
          have h' := h.of_untouched hu
          have ha' : s'.findAdapter clientInfo.clientId = some a := by
            rw [Service.findAdapter, hu.adapters]
            exact ha
          have hsaved : (Service.saveTransaction a (getTransactionId
              a.adapterId clientInfo.sessionId)).adapterId = a.adapterId := by
            unfold Service.saveTransaction
            split <;> rfl
          split
          · exact { h' with }
          · have hload := h'.updateAdapter ha' hsaved
            split
            · exact { hload with }
            · split
              · exact { hload with }
              · exact { hload with }

theorem unloadAlgo (h : ClientsKept s) (env : ServiceEnv)
    (clientInfo : ClientInfo) (algoInfo : AlgorithmInfo) (input : DataInfo) :
    ClientsKept (s.unloadAlgo env clientInfo algoInfo input).2 := by
  cases hfind : s.findAdapter clientInfo.clientId with
  | none =>
      rw [Service.unloadAlgo_none hfind]
      exact h
  | some a =>
      rw [Service.unloadAlgo_some hfind]
      generalize htid : getTransactionId a.adapterId clientInfo.sessionId = tid
      have ht : (s.stopCallbacks env algoInfo tid).adapters = s.adapters ∧
          (s.stopCallbacks env algoInfo tid).clientIdAtomic =
            s.clientIdAtomic := by
        rcases s.stopCallbacks_cases env algoInfo tid with
          hsame | ⟨asyncHandler, -, hstopped⟩
        · rw [hsame]
          exact ⟨rfl, rfl⟩
        · rw [hstopped]
          exact ⟨rfl, rfl⟩
      have hstopped := h.of_same ht.1 ht.2
      unfold Service.endUnload
      split
      · next hexec => exact hstopped.of_untouched (.getExecutor hexec)
      · next t' hexec =>
          have hu := Untouched.getExecutor hexec
          have h' := hstopped.of_untouched hu
          have ha' : t'.findAdapter clientInfo.clientId = some a := by
            rw [Service.findAdapter, hu.adapters, ht.1]
            exact hfind
          have hsame (tid : Int64) :
              (Service.removeTransaction a tid).adapterId = a.adapterId := rfl
          dsimp only
          split
          · exact { h' with }
          · exact { h'.updateAdapter ha' (hsame _) with }

/-- An id that is generated is a new one, and what it is filed under. -/
structure Generated (s s' : Service) (id : Int32) : Prop where
  started : 1 ≤ id
  fresh : id ∉ s.adapters
  stored : s'.adapters = s.adapters.insert id ⟨id, []⟩

theorem generateClient (h : ClientsKept s) (env : ServiceEnv) :
    ClientsKept (s.generateClient env).2 ∧
      ((s.generateClient env).1 ≠ invalidClientId →
        Generated s (s.generateClient env).2 (s.generateClient env).1) := by
  unfold Service.generateClient Service.findValidClientId
  by_cases hroom : maxNumClients < s.adapters.keys.card
  · rw [if_pos hroom]
    exact ⟨h, fun hne => absurd rfl hne⟩
  · rw [if_neg hroom]
    obtain ⟨hbounds, hnew⟩ := searchClientId_free h.counter.1 h.counter.2
      (Nat.not_lt.mp hroom)
    have hstart := (FreshId.search_bounds (s.adapters.keys.image Int32.toInt)
      s.clientIdAtomic (s.adapters.keys.image Int32.toInt).card
      (show startingClientId ≤ (intMax : Int) by decide)).1
    dsimp only at hbounds hnew ⊢
    generalize FreshId.search startingClientId intMax
      (s.adapters.keys.image Int32.toInt)
      ((s.adapters.keys.image Int32.toInt).card + 1) s.clientIdAtomic = id
      at hbounds hnew hstart ⊢
    have hint : (Int32.ofInt id).toInt = id :=
      Int32.toInt_ofInt_of_le (by omega) (Int.lt_add_one_of_le hbounds.2)
    have hone : 1 ≤ Int32.ofInt id := by
      rw [Int32.le_iff_toInt_le, hint]
      exact hstart
    split
    · exact ⟨{ h with counter := hbounds }, fun hne => absurd rfl hne⟩
    · split
      · exact ⟨{ h with counter := hbounds }, fun hne => absurd rfl hne⟩
      · refine ⟨⟨?_, ?_, hbounds⟩, fun _ => ⟨hone, fun hin => hnew
          (Finmap.mem_keys.mpr hin), rfl⟩⟩
        · intro d a ha
          rw [Service.findAdapter, Table.lookup_insert_if] at ha
          split at ha
          · next heq =>
              cases ha
              exact heq.symm
          · exact h.named d a ha
        · intro d hd
          rcases Finmap.mem_insert.mp hd with rfl | hd
          · exact hone
          · exact h.started d hd

theorem take (h : ClientsKept s) (i : ServiceStep) : ClientsKept (s.take i) := by
  cases i with
  | generateClient env => exact (h.generateClient env).1
  | removeAdapter env d => exact h.removeAdapter env d
  | loadAlgo env clientInfo algoInfo input output =>
      exact h.loadAlgo env clientInfo algoInfo input output
  | unloadAlgo env clientInfo algoInfo input =>
      exact h.unloadAlgo env clientInfo algoInfo input
  | registerCallback env d => exact h.of_untouched (.registerCallback env d)
  | unregisterCallback env d => exact h.of_untouched (.unregisterCallback env d)
  | execAlgo kind env clientInfo algoInfo input =>
      exact h.of_untouched (.execAlgo kind env clientInfo algoInfo input)
  | popFront queue => exact h.of_untouched (.popFront queue)
  | deleteFuture sequenceId => exact h.of_untouched (.deleteFuture sequenceId)

/-- The loop of `FindValidClientId`, which has no bound, ends on the id that
is returned, after at most as many used ids as there are clients. -/
theorem loop_stops (h : ClientsKept s)
    (hroom : s.adapters.keys.card ≤ maxNumClients) :
    ∃ k ≤ s.adapters.keys.card,
      FreshId.Stops nextClientId (· ∈ s.adapters)
        (Int32.ofInt s.clientIdAtomic) k ∧
      s.findValidClientId.1 =
        (nextClientId^[k + 1] (Int32.ofInt s.clientIdAtomic)).toInt := by
  have hcounter : (Int32.ofInt s.clientIdAtomic).toInt = s.clientIdAtomic :=
    Int32.toInt_ofInt_of_le (Int.le_trans (by decide) h.counter.1)
      (Int.lt_of_le_of_lt h.counter.2 (by decide))
  have hinj : Function.Injective Int32.toInt := fun _ _ => Int32.toInt_inj.mp
  have hcard : (s.adapters.keys.image Int32.toInt).card =
      s.adapters.keys.card := Finset.card_image_of_injective _ hinj
  have hfree : FreshId.search startingClientId intMax
      (s.adapters.keys.image Int32.toInt)
      ((s.adapters.keys.image Int32.toInt).card + 1) s.clientIdAtomic ∉
        s.adapters.keys.image Int32.toInt := by
    refine FreshId.search_notMem _ (by decide) ?_
    rw [hcard]
    unfold maxNumClients at hroom
    unfold startingClientId intMax
    omega
  obtain ⟨k, hk, ⟨hused, hstop⟩, hsearch⟩ := FreshId.stops_of_search hfree
  have hmem (j : Nat) : nextClientId^[j] (Int32.ofInt s.clientIdAtomic) ∈
      s.adapters ↔ (FreshId.next startingClientId intMax)^[j]
        s.clientIdAtomic ∈ s.adapters.keys.image Int32.toInt := by
    have hiter := (iterate_nextClientId (hcounter ▸ h.counter.1) j).1
    rw [hcounter] at hiter
    rw [← hiter, hinj.mem_finset_image, Finmap.mem_keys]
  refine ⟨k, hcard ▸ hk, ⟨fun j hj => (hmem _).mpr (hused j hj),
    fun hin => hstop ((hmem _).mp hin)⟩, ?_⟩
  rw [Service.findValidClientId, if_neg (Nat.not_lt.mpr hroom)]
  have hiter := (iterate_nextClientId (hcounter ▸ h.counter.1) (k + 1)).1
  rw [hcounter] at hiter
  exact hsearch.trans hiter.symm

end ClientsKept

/-- The ids of the clients, and the next one. -/
structure ClientIdsFresh (s : Service) : Prop where
  named : ∀ id adapter, s.adapters.lookup id = some adapter →
    adapter.adapterId = id ∧ 1 ≤ id
  terminates : s.adapters.keys.card ≤ maxNumClients →
    ∃ k ≤ s.adapters.keys.card,
      FreshId.Stops nextClientId (· ∈ s.adapters)
        (Int32.ofInt s.clientIdAtomic) k ∧
      s.findValidClientId.1 =
        (nextClientId^[k + 1] (Int32.ofInt s.clientIdAtomic)).toInt
  generated : ∀ env, (s.generateClient env).1 ≠ invalidClientId →
    ClientsKept.Generated s (s.generateClient env).2 (s.generateClient env).1

/-- In every run of the service, of clients that come and go and of whatever
they ask for. -/
theorem reach_clientIdsFresh {s : Service}
    (hs : serviceMachine.Reach Machine.anyStep s) : ClientIdsFresh s := by
  have h : ClientsKept s := hs.invariant (fun _ hstart => hstart ▸ .initial)
    fun _ i _ h _ hstep => by
      cases hstep
      exact h.take i
  exact ⟨fun id a ha => ⟨h.named id a ha, h.started id (Table.mem_of_lookup ha)⟩,
    h.loop_stops, fun env => (h.generateClient env).2⟩

theorem reach_clientIdsFresh_second : ClientIdsFresh
    ((Service.initial.take (.generateClient .willing)).take
      (.removeAdapter .willing 1)) :=
  reach_clientIdsFresh (.step (.step (.start rfl) trivial rfl) trivial rfl)

end AiEngine.Ref
