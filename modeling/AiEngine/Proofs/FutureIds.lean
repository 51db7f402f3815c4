import AiEngine.Ref.FutureFactory

/-!
# The ids of futures

`FindSequenceId` refuses when too many futures are there, and otherwise hands
out an id that no future has: the interval it counts through is much longer
than the table can get.
-/

namespace AiEngine.Ref

open AiEngine.Lib

namespace FutureFactory

/-- The counter is 0 or an id it gave out. -/
def InRange (f : FutureFactory) : Prop :=
  0 ≤ f.sequenceId ∧ f.sequenceId ≤ longLongMax

variable {f f' : FutureFactory}

theorem initial_inRange : initial.InRange := ⟨by decide, by decide⟩

theorem getInstance_frame {alloc has : Bool}
    (h : f.getInstance alloc = (has, f')) :
    f'.sequenceId = f.sequenceId ∧ f'.futures = f.futures ∧
      (has = true ↔ f.hasInstance = true ∨ alloc = true) := by
  unfold getInstance at h
  split at h
  · next hi =>
      cases h
      simp [hi]
  · next hi =>
      cases h
      simp [hi]

theorem findSequenceId_full (h : maxNumFutures < f.futures.keys.card) :
    f.findSequenceId = (invalidSequenceId, f) := by
  rw [findSequenceId, if_pos h]

theorem findSequenceId_room (hrange : f.InRange)
    (h : f.futures.keys.card ≤ maxNumFutures) :
    ∃ id, f.findSequenceId = (id, { f with sequenceId := id }) ∧
      minSequenceId ≤ id ∧ id ≤ longLongMax ∧ f.futures.lookup id = none := by
  have hle : minSequenceId ≤ longLongMax := by decide
  have hlo : minSequenceId - 1 ≤ f.sequenceId := hrange.1
  have hroom : (f.futures.keys.card : Int) < longLongMax - minSequenceId + 1 := by
    unfold maxNumFutures at h
    unfold longLongMax minSequenceId
    omega
  obtain ⟨hmin, hmax⟩ := FreshId.search_bounds f.futures.keys
    f.sequenceId f.futures.keys.card hle
  refine ⟨_, by rw [findSequenceId, if_neg (Nat.not_lt.mpr h)], hmin, hmax, ?_⟩
  rw [Finmap.lookup_eq_none, ← Finmap.mem_keys]
  exact FreshId.search_fresh hlo hrange.2 hroom

/-- The ways `CreateFuture` ends. Only the last adds a future, under an id
that had none. -/
theorem createFuture_cases (hrange : f.InRange) (newFuture : Bool)
    (request : Nat) (tid : Int64) :
    (maxNumFutures < f.futures.keys.card ∧
      f.createFuture newFuture request tid = (Retcode.nullParam, none, f)) ∨
    ∃ id, f.futures.keys.card ≤ maxNumFutures ∧ minSequenceId ≤ id ∧
      id ≤ longLongMax ∧ f.futures.lookup id = none ∧
      f.createFuture newFuture request tid =
        if newFuture then (Retcode.success, some id,
          { f with sequenceId := id }.addFuture id request tid)
        else (Retcode.outOfMemory, some id, { f with sequenceId := id }) := by
  by_cases hfull : maxNumFutures < f.futures.keys.card
  · refine .inl ⟨hfull, ?_⟩
    simp only [createFuture, findSequenceId_full hfull, if_true]
  · obtain ⟨id, hid, hmin, hmax, hfree⟩ :=
      findSequenceId_room hrange (Nat.not_lt.mp hfull)
    have hvalid : id ≠ invalidSequenceId := by
      unfold minSequenceId at hmin
      unfold invalidSequenceId
      omega
    refine .inr ⟨id, Nat.not_lt.mp hfull, hmin, hmax, hfree, ?_⟩
    simp only [createFuture, hid, if_neg hvalid]
    cases newFuture <;> rfl

theorem createFuture_inRange (hrange : f.InRange) (newFuture : Bool)
    (request : Nat) (tid : Int64) :
    (f.createFuture newFuture request tid).2.2.InRange := by
  rcases createFuture_cases hrange newFuture request tid with
    ⟨-, heq⟩ | ⟨id, -, hmin, hmax, -, heq⟩
  · rw [heq]
    exact hrange
  · have hnew : InRange { f with sequenceId := id } := by
      unfold minSequenceId at hmin
      exact ⟨by simp only; omega, hmax⟩
    rw [heq]
    cases newFuture <;> exact hnew

theorem deleteFuture_sequenceId (f : FutureFactory) (id : Int) :
    (f.deleteFuture id).sequenceId = f.sequenceId := by
  unfold deleteFuture
  split <;> rfl

theorem unregisterListener_sequenceId (f : FutureFactory) (tid : Int64) :
    (f.unregisterListener tid).sequenceId = f.sequenceId := by
  unfold unregisterListener
  split <;> rfl

end FutureFactory

end AiEngine.Ref
