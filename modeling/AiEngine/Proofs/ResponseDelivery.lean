import AiEngine.Ref.ResponseList

/-!
# Responses are fetched in the order they were added

The event is set while there is something to fetch. Who has the mutex may
break this and mends it before it lets go; the wait and the test of the list
that the worker makes without the mutex need only what no other thread undoes:
nobody but the worker takes a response off the list, so a list that it has
seen not to be empty still has a front when it comes to take it.
-/

namespace AiEngine.Ref

open AiEngine.Lib

variable {ρ : Type}

/-- The response that was taken off the list and not yet returned. -/
def ListMutex.inHand : ListMutex ρ → List ρ
  | .fetching (.reset response) => [response]
  | .fetching (.unlock (some response)) => [response]
  | _ => []

namespace ResponseList

/-- The event is set while the list is not empty. -/
def EventSet (s : ResponseList ρ) : Prop := s.event = true ↔ s.responses ≠ []

/-- What holds of the event and the list where the mutex is. -/
def EventKept (s : ResponseList ρ) : ListMutex ρ → Prop
  | .free => s.EventSet
  | .adding _ (.pushBack _) => s.EventSet
  | .adding _ .signal => s.responses ≠ []
  | .adding _ .unlock => s.EventSet
  | .fetching .testEmpty => s.EventSet
  | .fetching .front => s.EventSet ∧ s.responses ≠ []
  | .fetching (.reset _) => s.event = true
  | .fetching (.unlock _) => s.EventSet

/-- The worker is in its section while it has the mutex, and only takes the
mutex again for a list that is not empty. -/
def WorkerKept (s : ResponseList ρ) : FetchWorker → Prop
  | .inSection => ∃ phase, s.mutex = .fetching phase
  | .lock => s.responses ≠ [] ∧ ∀ phase, s.mutex ≠ .fetching phase
  | _ => ∀ phase, s.mutex ≠ .fetching phase

structure Kept (s : ResponseList ρ) : Prop where
  lists : s.added = s.fetched ++ s.mutex.inHand ++ s.responses
  event : s.EventKept s.mutex
  worker : s.WorkerKept s.worker
  frontOnEmpty : s.frontOnEmpty = false

theorem Kept.initial : (new : ResponseList ρ).Kept where
  lists := rfl
  event := by simp [new, EventKept, EventSet]
  worker := fun _ h => nomatch h
  frontOnEmpty := rfl

variable {s s' : ResponseList ρ}

/-- A step of another thread, which takes nothing off the list. -/
theorem WorkerKept.outside {p : FetchWorker} (h : s.WorkerKept p)
    (hnot : ∀ phase, s.mutex ≠ .fetching phase)
    (hfree : ∀ phase, s'.mutex ≠ .fetching phase)
    (hmore : s.responses ≠ [] → s'.responses ≠ []) : s'.WorkerKept p := by
  cases p with
  | inSection =>
      obtain ⟨phase, hphase⟩ := h
      exact absurd hphase (hnot phase)
  | lock => exact ⟨hmore h.1, hfree⟩
  | idle => exact hfree
  | wait => exact hfree
  | testEmpty => exact hfree

theorem Kept.callAdd (h : s.Kept) (hmutex : s.mutex = .free) (thread : Nat)
    (response : ρ) :
    { s with mutex := .adding thread (.pushBack response) }.Kept := by
  obtain ⟨hlists, hevent, hworker, hfront⟩ := h
  rw [hmutex] at hlists hevent
  refine ⟨hlists, hevent, hworker.outside ?_ (fun _ heq => nomatch heq) id,
    hfront⟩
  intro _ heq
  rw [hmutex] at heq
  cases heq

theorem Kept.addRecord {thread : Nat} {phase : AddPhase ρ} (h : s.Kept)
    (hmutex : s.mutex = .adding thread phase) :
    (s.addRecord thread phase).Kept := by
  obtain ⟨hlists, hevent, hworker, hfront⟩ := h
  have hnot : ∀ phase, s.mutex ≠ .fetching phase := by
    intro _ heq
    rw [hmutex] at heq
    cases heq
  rw [hmutex] at hlists hevent
  cases phase with
  | pushBack response =>
      refine ⟨?_, ?_, hworker.outside hnot (fun _ heq => nomatch heq)
        (fun _ => List.append_ne_nil_of_right_ne_nil _ (by simp)), hfront⟩
      · have hhand : (s.addRecord thread (.pushBack response)).mutex.inHand =
            [] := rfl
        rw [hhand]
        show s.added ++ [response] = s.fetched ++ [] ++ (s.responses ++ _)
        rw [hlists, ← List.append_assoc]
        rfl
      · -- Only on an empty list is the event still to be set.
        have hmore : s.responses ++ [response] ≠ [] := by simp
        show ResponseList.EventKept _ (.adding thread
          (if s.responses.isEmpty then .signal else .unlock))
        cases hempty : s.responses.isEmpty with
        | true => exact hmore
        | false =>
            have hne : s.responses ≠ [] := by simpa using hempty
            exact iff_of_true (hevent.mpr hne) hmore
  | signal =>
      exact ⟨hlists, iff_of_true rfl hevent,
        hworker.outside hnot (fun _ heq => nomatch heq) id, hfront⟩
  | unlock =>
      exact ⟨hlists, hevent,
        hworker.outside hnot (fun _ heq => nomatch heq) id, hfront⟩

theorem Kept.fetchRecord {phase : FetchPhase ρ} (h : s.Kept)
    (hmutex : s.mutex = .fetching phase) (hin : s.worker = .inSection) :
    (s.fetchRecord phase).Kept := by
  obtain ⟨hlists, hevent, -, hfront⟩ := h
  rw [hmutex] at hlists hevent
  have hsection (t : ResponseList ρ) (p : FetchPhase ρ)
      (hw : t.worker = s.worker) (hm : t.mutex = .fetching p) :
      t.WorkerKept t.worker := by
    rw [hw, hin]
    exact ⟨p, hm⟩
  cases phase with
  | testEmpty =>
      rw [ResponseList.fetchRecord]
      cases hempty : s.responses.isEmpty with
      | true =>
          exact ⟨hlists, hevent, hsection _ (.unlock none) rfl rfl, hfront⟩
      | false =>
          have hne : s.responses ≠ [] := by simpa using hempty
          exact ⟨hlists, ⟨hevent, hne⟩, hsection _ .front rfl rfl, hfront⟩
  | front =>
      obtain ⟨hset, hne⟩ := hevent
      obtain ⟨response, responses, hcons⟩ := List.exists_cons_of_ne_nil hne
      rw [ResponseList.fetchRecord, hcons]
      refine ⟨?_, hset.mpr hne, hsection _ _ rfl rfl, hfront⟩
      rw [hlists, hcons]
      simp [ListMutex.inHand]
  | reset response =>
      refine ⟨hlists, ?_, hsection _ _ rfl rfl, hfront⟩
      show (if s.responses.isEmpty then false else s.event) = true ↔
        s.responses ≠ []
      have hset : s.event = true := hevent
      cases hempty : s.responses.isEmpty with
      | true => simpa using hempty
      | false => simpa [hset] using hempty
  | unlock response =>
      cases response with
      | none => exact ⟨hlists, hevent, (fun _ heq => nomatch heq), hfront⟩
      | some response =>
          refine ⟨?_, hevent, (fun _ heq => nomatch heq), hfront⟩
          simpa [ListMutex.inHand, ResponseList.fetchRecord] using hlists

theorem Kept.runFetch (h : s.Kept) (hstep : s.runFetch = some s') :
    s'.Kept := by
  obtain ⟨hlists, hevent, hworker, hfront⟩ := h
  unfold ResponseList.runFetch at hstep
  cases hw : s.worker with
  | idle =>
      rw [hw] at hstep
      cases hstep
  | inSection =>
      rw [hw] at hstep hworker
      obtain ⟨phase, hmutex⟩ := hworker
      rw [hmutex] at hstep
      cases hstep
      exact Kept.fetchRecord ⟨hlists, hevent, hw ▸ ⟨phase, hmutex⟩, hfront⟩
        hmutex hw
  | wait =>
      rw [hw] at hstep hworker
      cases hstep
      refine ⟨hlists, hevent, ?_, hfront⟩
      cases s.event <;> exact hworker
  | testEmpty =>
      rw [hw] at hstep hworker
      cases hstep
      refine ⟨hlists, hevent, ?_, hfront⟩
      cases hempty : s.responses.isEmpty with
      | true => exact hworker
      | false =>
          have hne : s.responses ≠ [] := by simpa using hempty
          exact ⟨hne, hworker⟩
  | lock =>
      rw [hw] at hstep hworker
      cases hmutex : s.mutex with
      | free =>
          rw [hmutex] at hstep hlists hevent
          cases hstep
          exact ⟨hlists, ⟨hevent, hworker.1⟩, ⟨.front, rfl⟩, hfront⟩
      | adding thread phase =>
          rw [hmutex] at hstep
          cases hstep
      | fetching phase =>
          rw [hmutex] at hstep
          cases hstep

theorem Kept.callFetch (h : s.Kept) (hmutex : s.mutex = .free) :
    { s with mutex := .fetching .testEmpty, worker := .inSection }.Kept := by
  obtain ⟨hlists, hevent, -, hfront⟩ := h
  rw [hmutex] at hlists hevent
  exact ⟨hlists, hevent, ⟨.testEmpty, rfl⟩, hfront⟩

theorem Kept.take (h : s.Kept) {i : ResponseStep ρ}
    (hstep : s.take i = some s') : s'.Kept := by
  cases i with
  | addCallbackRecord thread response =>
      rw [ResponseList.take] at hstep
      split at hstep
      · next hmutex =>
          cases hstep
          exact h.callAdd hmutex thread response
      · cases hstep
  | adder =>
      rw [ResponseList.take] at hstep
      split at hstep
      · next thread phase hmutex =>
          cases hstep
          exact h.addRecord hmutex
      · cases hstep
  | fetchCallbackRecord =>
      rw [ResponseList.take] at hstep
      split at hstep
      · next hidle hmutex =>
          cases hstep
          exact h.callFetch hmutex
      · cases hstep
  | worker => exact h.runFetch hstep

/-- What was fetched is the beginning of what was added, and what is missing
is still there. The event says whether there is anything, as far as nobody
has the mutex, and no front was taken that was not there. -/
structure Delivers (s : ResponseList ρ) : Prop where
  inOrder : s.fetched <+: s.added
  kept : s.added = s.fetched ++ s.mutex.inHand ++ s.responses
  frontOnEmpty : s.frontOnEmpty = false
  event : s.mutex = .free → (s.event = true ↔ s.responses ≠ [])

theorem Kept.delivers (h : s.Kept) : s.Delivers where
  inOrder := by
    rw [h.lists, List.append_assoc]
    exact List.prefix_append _ _
  kept := h.lists
  frontOnEmpty := h.frontOnEmpty
  event := fun hfree => by
    have hevent := h.event
    rw [hfree] at hevent
    exact hevent

end ResponseList

/-- In every run of any number of threads that add and one that fetches. -/
theorem reach_delivers {s : ResponseList ρ}
    (hs : (responseMachine ρ).Reach Machine.anyStep s) : s.Delivers := by
  have hkept : s.Kept := hs.invariant (fun _ hstart => hstart ▸ .initial)
    fun _ _ _ h _ hstep => h.take hstep
  exact hkept.delivers

/-- The worker finds nothing, waits, and is woken by the first of two
responses, which it fetches while the second is added. -/
def deliverySample : List (ResponseStep Nat) :=
  .fetchCallbackRecord :: List.replicate 2 .worker ++
    .addCallbackRecord 0 7 :: List.replicate 2 .adder ++
    .worker :: .adder :: .worker :: .addCallbackRecord 1 8 ::
    List.replicate 2 .adder ++ List.replicate 4 .worker

theorem reach_delivers_sample : ∃ s : ResponseList Nat,
    (responseMachine Nat).run Machine.anyStep .new deliverySample = some s ∧
      s.fetched = [7] ∧ s.added = [7, 8] ∧ s.Delivers := by
  have hrun : ((responseMachine Nat).run Machine.anyStep .new
      deliverySample).map (fun s => (s.fetched, s.added)) =
        some ([7], [7, 8]) := by decide
  obtain ⟨s, hs, heq⟩ := Option.map_eq_some_iff.mp hrun
  obtain ⟨hfetched, hadded⟩ := Prod.mk.inj heq
  exact ⟨s, hs, hfetched, hadded, reach_delivers (.of_run (.start rfl) hs)⟩

end AiEngine.Ref
