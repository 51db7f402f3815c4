import Mathlib.Data.List.TakeWhile
import AiEngine.Proofs.PoolLedger
import AiEngine.Ref.ThreadPool

/-!
# The two lists of the thread pool

The busy list should hold the threads that are out and the idle list those
that are back. `Push` stops the thread it is given and then looks for it by
its id, which is 0 by then for a thread that ran, as it is for every thread
that was never started. It finds the thread it was given exactly if no thread
that was popped before it and is still out has that id; otherwise it takes
that other thread off the busy list, and the one it was given is in both.
-/

namespace AiEngine.Ref

open AiEngine.Lib

section

variable {p : Nat → Bool} {t : Nat}

/-- The first match is the element itself if nothing before it matches. -/
theorem eraseP_eq_erase (ht : p t = true) :
    ∀ {l : List Nat}, (∀ b ∈ l.takeWhile (· ≠ t), p b = false) →
      l.eraseP p = l.erase t := by
  intro l
  induction l with
  | nil => exact fun _ => rfl
  | cons b bs ih =>
      intro hnone
      by_cases hb : b = t
      · rw [hb, List.erase_cons_head, List.eraseP_cons_of_pos ht]
      · rw [List.takeWhile_cons_of_pos (by simpa using hb)] at hnone
        have hnot := hnone b List.mem_cons_self
        rw [List.eraseP_cons_of_neg (by simp [hnot]),
          List.erase_cons_tail (by simpa using hb),
          ih fun c hc => hnone c (List.mem_cons_of_mem b hc)]

theorem mem_eraseP_of_before :
    ∀ {l : List Nat}, t ∈ l → (∃ b ∈ l.takeWhile (· ≠ t), p b = true) →
      t ∈ l.eraseP p := by
  intro l
  induction l with
  | nil => exact fun ht => absurd ht List.not_mem_nil
  | cons b bs ih =>
      intro ht hsome
      by_cases hb : b = t
      · rw [List.takeWhile_cons_of_neg (by simpa using hb)] at hsome
        obtain ⟨c, hc, -⟩ := hsome
        exact absurd hc List.not_mem_nil
      · have htail : t ∈ bs :=
          (List.mem_cons.mp ht).resolve_left (Ne.symm hb)
        by_cases hp : p b = true
        · rw [List.eraseP_cons_of_pos hp]
          exact htail
        · rw [List.takeWhile_cons_of_pos (by simpa using hb)] at hsome
          obtain ⟨c, hc, hpc⟩ := hsome
          rw [List.eraseP_cons_of_neg hp]
          refine List.mem_cons_of_mem b (ih htail ⟨c, ?_, hpc⟩)
          rcases List.mem_cons.mp hc with heq | hmem
          · exact absurd (heq ▸ hpc) hp
          · exact hmem

end

/-- The id by which a thread is looked for once it has been stopped. -/
def Thread.idOnPush (x : Thread) : Nat :=
  if x.status = .running then 0 else x.handle

namespace PoolUse

variable {τ : Type}

/-- A thread that is pushed shares its id with no thread that was popped
before it and is still out. -/
def sharesNoId (s : PoolUse τ) : PoolStep → Prop
  | .push t => ∀ b ∈ s.pools.busyThreads.takeWhile (· ≠ t),
      (s.pools.thread b).handle ≠ (s.pools.thread t).idOnPush
  | _ => True

instance (s : PoolUse τ) : ∀ i, Decidable (s.sharesNoId i)
  | .push _ => inferInstanceAs (Decidable (∀ _ ∈ _, _))
  | .pop _ => .isTrue trivial
  | .startThread _ _ _ _ => .isTrue trivial
  | .stopThread _ => .isTrue trivial
  | .workerEnds _ => .isTrue trivial

/-- The busy threads are those that are out, the idle threads those that are
back, and no thread is listed twice. -/
structure Partitioned (s : PoolUse τ) : Prop where
  busy : ∀ t, t ∈ s.pools.busyThreads ↔ t ∈ s.out
  idle : ∀ t, t ∈ s.pools.idleThreads ↔ t ∈ s.back
  disjoint : s.pools.busyThreads.Disjoint s.pools.idleThreads
  busyOnce : s.pools.busyThreads.Nodup
  idleOnce : s.pools.idleThreads.Nodup

/-- The threads of both lists have been allocated. -/
def Allocated (s : PoolUse τ) : Prop :=
  (∀ t ∈ s.pools.busyThreads, t < s.pools.threadNum) ∧
    ∀ t ∈ s.pools.idleThreads, t < s.pools.threadNum

end PoolUse

/-! ## Pushing a thread

`Push` looks for the thread by the id that its system thread has. A thread
that was never started has none, and this is where two threads can look the
same. -/

theorem Thread.stopThread_handle (x : Thread) :
    x.stopThread.handle = x.idOnPush := by
  unfold stopThread idOnPush
  split <;> rfl

namespace Pools

variable {τ : Type}

theorem stopThread_busyThreads (p : Pools τ) (t : Nat) :
    (p.stopThread t).busyThreads = p.busyThreads := by
  unfold stopThread
  split
  · split <;> rfl
  · rfl

/-- Whether `Push` takes a busy thread for the one it was given. -/
def taken (p : Pools τ) (t b : Nat) : Bool :=
  ((p.stopThread t).thread b).handle = ((p.stopThread t).thread t).handle

theorem taken_self (p : Pools τ) (t : Nat) : p.taken t t = true :=
  decide_eq_true rfl

theorem taken_of_ne (p : Pools τ) {t b : Nat} (hb : b ≠ t) :
    p.taken t b = true ↔ (p.thread b).handle = (p.thread t).idOnPush := by
  unfold taken
  rw [stopThread_thread, stopThread_thread, if_neg hb, if_pos rfl,
    Thread.stopThread_handle, decide_eq_true_iff]

theorem threadPush_busyThreads (p : Pools τ) (t : Nat) :
    (p.threadPush t).busyThreads = p.busyThreads.eraseP (p.taken t) :=
  congrArg (List.eraseP _) (p.stopThread_busyThreads t)

theorem threadPush_idleThreads (p : Pools τ) (t : Nat) :
    (p.threadPush t).idleThreads = p.idleThreads ++ [t] :=
  congrArg (· ++ [t]) (p.stopThread_idleThreads t)

theorem threadPush_threadNum (p : Pools τ) (t : Nat) :
    (p.threadPush t).threadNum = p.threadNum :=
  (p.stopThread_frame t).2.1

end Pools

namespace PoolUse

variable {τ : Type} {s s' : PoolUse τ} {t : Nat}

theorem ne_of_before {b : Nat} {l : List Nat}
    (hb : b ∈ l.takeWhile (· ≠ t)) : b ≠ t := by
  simpa using List.mem_takeWhile_imp hb

theorem Partitioned.push (h : s.Partitioned) (ht : t ∈ s.out)
    (hok : s.sharesNoId (.push t)) : (s.push t).Partitioned := by
  have hbusy : (s.push t).pools.busyThreads = s.pools.busyThreads.erase t := by
    refine (s.pools.threadPush_busyThreads t).trans ?_
    refine eraseP_eq_erase (s.pools.taken_self t) fun b hb => ?_
    refine Bool.eq_false_iff.mpr fun htaken => hok b hb ?_
    exact (s.pools.taken_of_ne (ne_of_before hb)).mp htaken
  have hidle : (s.push t).pools.idleThreads = s.pools.idleThreads ++ [t] :=
    s.pools.threadPush_idleThreads t
  have hnot : t ∉ s.pools.idleThreads :=
    h.disjoint ((h.busy t).mpr ht)
  refine ⟨fun u => ?_, fun u => ?_, ?_, ?_, ?_⟩
  · rw [hbusy, h.busyOnce.mem_erase_iff, h.busy u]
    exact Finset.mem_erase.symm
  · rw [hidle, List.mem_append, List.mem_singleton, h.idle u]
    exact Or.comm.trans Finset.mem_insert.symm
  · rw [hbusy, hidle, List.disjoint_append_right]
    refine ⟨fun u hu => h.disjoint (List.mem_of_mem_erase hu), ?_⟩
    intro u hu heq
    rw [List.mem_singleton] at heq
    exact h.busyOnce.not_mem_erase (heq ▸ hu)
  · rw [hbusy]
    exact h.busyOnce.erase t
  · rw [hidle, List.nodup_append]
    refine ⟨h.idleOnce, List.nodup_singleton t, fun u hu v hv heq => ?_⟩
    rw [List.mem_singleton] at hv
    exact hnot (hv ▸ heq ▸ hu)

/-- A thread that shares its id stays busy. -/
theorem sharesNoId_of_push (h : s.Partitioned) (ht : t ∈ s.out)
    (hpush : (s.push t).Partitioned) : s.sharesNoId (.push t) := by
  intro b hb hsame
  have hstays : t ∈ (s.push t).pools.busyThreads := by
    refine (s.pools.threadPush_busyThreads t).symm ▸ ?_
    refine mem_eraseP_of_before ((h.busy t).mpr ht) ⟨b, hb, ?_⟩
    exact (s.pools.taken_of_ne (ne_of_before hb)).mpr hsame
  exact Finset.notMem_erase t s.out ((hpush.busy t).mp hstays)

theorem push_partitioned_iff (h : s.Partitioned) (ht : t ∈ s.out) :
    (s.push t).Partitioned ↔ s.sharesNoId (.push t) :=
  ⟨sharesNoId_of_push h ht, h.push ht⟩

/-- A thread that nobody has moves from the idle list to the busy one. -/
theorem Partitioned.handOut (h : s.Partitioned)
    (hbusy : s'.pools.busyThreads = s.pools.busyThreads ++ [t])
    (hsub : s'.pools.idleThreads.Sublist s.pools.idleThreads)
    (hidle : ∀ u, u ∈ s'.pools.idleThreads ↔ u ≠ t ∧ u ∈ s.pools.idleThreads)
    (hout : s'.out = insert t s.out) (hback : s'.back = s.back.erase t)
    (hnot : t ∉ s.pools.busyThreads) : s'.Partitioned := by
  refine ⟨fun u => ?_, fun u => ?_, ?_, ?_, hsub.nodup h.idleOnce⟩
  · rw [hbusy, hout, List.mem_append, List.mem_singleton, h.busy u]
    exact Or.comm.trans Finset.mem_insert.symm
  · rw [hidle, hback, Finset.mem_erase, h.idle u]
  · rw [hbusy, List.disjoint_append_left]
    refine ⟨fun u hu hmem => h.disjoint hu (hsub.subset hmem), ?_⟩
    intro u hu hmem
    exact ((hidle u).mp hmem).1 (List.mem_singleton.mp hu)
  · rw [hbusy, List.nodup_append]
    refine ⟨h.busyOnce, List.nodup_singleton t, fun u hu v hv heq => ?_⟩
    rw [List.mem_singleton] at hv
    exact hnot (hv ▸ heq ▸ hu)

/-- A pop hands out a new thread, or the first of the idle ones, or none. -/
theorem pop_cases (s : PoolUse τ) (alloc : Bool) :
    s.pop alloc = s ∨ ∃ t,
      (s.pop alloc).out = insert t s.out ∧
      (s.pop alloc).back = s.back.erase t ∧
      (s.pop alloc).pools.busyThreads = s.pools.busyThreads ++ [t] ∧
      ((s.pools.idleThreads = [] ∧
          (s.pop alloc).pools.idleThreads = [] ∧ t = s.pools.threadNum ∧
          (s.pop alloc).pools.threadNum = s.pools.threadNum + 1) ∨
        (s.pools.idleThreads = t :: (s.pop alloc).pools.idleThreads ∧
          (s.pop alloc).pools.threadNum = s.pools.threadNum)) := by
  unfold PoolUse.pop Pools.threadPop
  cases hidle : s.pools.idleThreads with
  | nil =>
      cases alloc with
      | false => exact .inl rfl
      | true => exact .inr ⟨_, rfl, rfl, rfl, .inl ⟨rfl, hidle, rfl, rfl⟩⟩
  | cons t ts => exact .inr ⟨t, rfl, rfl, rfl, .inr ⟨rfl, rfl⟩⟩

theorem Partitioned.pop (h : s.Partitioned) (hall : s.Allocated)
    (alloc : Bool) : (s.pop alloc).Partitioned ∧ (s.pop alloc).Allocated := by
  rcases s.pop_cases alloc with hsame |
    ⟨t, hout, hback, hbusy, ⟨hnil, hidle, hnew, hnum⟩ | ⟨hcons, hnum⟩⟩
  · rw [hsame]
    exact ⟨h, hall⟩
  · refine ⟨h.handOut hbusy ?_ (fun u => ?_) hout hback fun hmem => ?_, ?_⟩
    · rw [hidle]
      exact List.nil_sublist _
    · rw [hidle, hnil]
      exact ⟨fun hu => absurd hu List.not_mem_nil, And.right⟩
    · exact absurd (hall.1 t hmem) (by omega)
    · refine ⟨fun u hu => ?_, fun u hu => ?_⟩
      · rw [hbusy] at hu
        rw [hnum]
        rcases List.mem_append.mp hu with hu | hu
        · exact Nat.lt_succ_of_lt (hall.1 u hu)
        · rw [List.mem_singleton.mp hu, hnew]
          exact Nat.lt_succ_self _
      · rw [hidle] at hu
        exact absurd hu List.not_mem_nil
  · have honce := h.idleOnce
    rw [hcons, List.nodup_cons] at honce
    have hmem : t ∈ s.pools.idleThreads := hcons ▸ List.mem_cons_self
    refine ⟨h.handOut hbusy ?_ (fun u => ?_) hout hback
      fun hbusy => h.disjoint hbusy hmem, ?_⟩
    · rw [hcons]
      exact List.sublist_cons_self _ _
    · rw [hcons, List.mem_cons]
      refine ⟨fun hu => ⟨fun heq => honce.1 (heq ▸ hu), .inr hu⟩, ?_⟩
      exact fun ⟨hne, hor⟩ => hor.resolve_left hne
    · refine ⟨fun u hu => ?_, fun u hu => ?_⟩
      · rw [hbusy] at hu
        rw [hnum]
        rcases List.mem_append.mp hu with hu | hu
        · exact hall.1 u hu
        · rw [List.mem_singleton.mp hu]
          exact hall.2 t hmem
      · rw [hnum]
        exact hall.2 u (hcons ▸ List.mem_cons_of_mem t hu)

/-- What leaves the lists alone keeps them apart. -/
theorem Partitioned.of_same (h : s.Partitioned)
    (hbusy : s'.pools.busyThreads = s.pools.busyThreads)
    (hidle : s'.pools.idleThreads = s.pools.idleThreads)
    (hout : s'.out = s.out) (hback : s'.back = s.back) : s'.Partitioned :=
  ⟨fun u => by rw [hbusy, hout]; exact h.busy u,
    fun u => by rw [hidle, hback]; exact h.idle u,
    by rw [hbusy, hidle]; exact h.disjoint,
    by rw [hbusy]; exact h.busyOnce, by rw [hidle]; exact h.idleOnce⟩

theorem Allocated.of_subset (h : s.Allocated)
    (hbusy : ∀ u ∈ s'.pools.busyThreads, u ∈ s.pools.busyThreads)
    (hidle : ∀ u ∈ s'.pools.idleThreads,
      u ∈ s.pools.idleThreads ∨ u ∈ s.pools.busyThreads)
    (hnum : s'.pools.threadNum = s.pools.threadNum) : s'.Allocated := by
  refine ⟨fun u hu => ?_, fun u hu => ?_⟩
  · rw [hnum]
    exact h.1 u (hbusy u hu)
  · rw [hnum]
    exact (hidle u hu).elim (h.2 u) (h.1 u)

theorem Partitioned.take (h : s.Partitioned) (hall : s.Allocated)
    {i : PoolStep} (hok : s.sharesNoId i) (hstep : s.take i = some s') :
    s'.Partitioned ∧ s'.Allocated := by
  cases i with
  | pop alloc =>
      cases hstep
      exact h.pop hall alloc
  | startThread t pWorker created handle =>
      cases hstep
      exact ⟨h.of_same rfl rfl rfl rfl, hall⟩
  | stopThread t =>
      cases hstep
      have hbusy := s.pools.stopThread_busyThreads t
      have hidle := s.pools.stopThread_idleThreads t
      refine ⟨h.of_same hbusy hidle rfl rfl,
        hall.of_subset (fun u hu => hbusy ▸ hu) (fun u hu => .inl (hidle ▸ hu))
          (s.pools.stopThread_frame t).2.1⟩
  | workerEnds t =>
      simp only [PoolUse.take] at hstep
      split at hstep
      · cases hstep
        exact ⟨h.of_same rfl rfl rfl rfl, hall⟩
      · cases hstep
  | push t =>
      simp only [PoolUse.take] at hstep
      split at hstep
      · next ht =>
          cases hstep
          refine ⟨h.push ht hok, hall.of_subset (fun u hu => ?_)
            (fun u hu => ?_) (s.pools.threadPush_threadNum t)⟩
          · rw [PoolUse.push, s.pools.threadPush_busyThreads t] at hu
            exact List.mem_of_mem_eraseP hu
          · rw [PoolUse.push, s.pools.threadPush_idleThreads t] at hu
            refine (List.mem_append.mp hu).imp id fun hu => ?_
            rw [List.mem_singleton.mp hu]
            exact (h.busy t).mpr ht
      · cases hstep

end PoolUse

theorem PoolUse.initial_partitioned {τ : Type} :
    (PoolUse.initial : PoolUse τ).Partitioned where
  busy _ := ⟨fun h => absurd h List.not_mem_nil,
    fun h => absurd h (Finset.notMem_empty _)⟩
  idle _ := ⟨fun h => absurd h List.not_mem_nil,
    fun h => absurd h (Finset.notMem_empty _)⟩
  disjoint := List.disjoint_nil_left _
  busyOnce := List.nodup_nil
  idleOnce := List.nodup_nil

theorem reach_poolKept {τ : Type} {s : PoolUse τ}
    (hs : (poolMachine τ).Reach PoolUse.sharesNoId s) :
    s.Partitioned ∧ s.Allocated := by
  induction hs with
  | start hs =>
      rw [hs]
      exact ⟨PoolUse.initial_partitioned, fun _ h => absurd h List.not_mem_nil,
        fun _ h => absurd h List.not_mem_nil⟩
  | step _ hok hstep ih => exact ih.1.take ih.2 hok hstep

/-- The lists stay a partition in every run in which no thread is pushed
while one popped before it has its id, and there they stay one over the next
push exactly under that condition. -/
theorem reach_partitioned {τ : Type} {s : PoolUse τ}
    (hs : (poolMachine τ).Reach PoolUse.sharesNoId s) :
    s.Partitioned ∧ ∀ t ∈ s.out,
      ((s.push t).Partitioned ↔ s.sharesNoId (.push t)) :=
  have h := (reach_poolKept hs).1
  ⟨h, fun _ ht => PoolUse.push_partitioned_iff h ht⟩

/-- Two threads are popped, the second is started, and the first is pushed
back as it is. -/
def poolSample : List PoolStep :=
  [.pop true, .pop true, .startThread 1 (.engineWorker 0) true 7, .push 0]

theorem reach_partitioned_sample : ∃ s : PoolUse Nat,
    (poolMachine Nat).run PoolUse.sharesNoId .initial poolSample = some s ∧
      s.pools.busyThreads = [1] ∧ s.pools.idleThreads = [0] ∧
        s.Partitioned := by
  have hrun : ((poolMachine Nat).run PoolUse.sharesNoId .initial
      poolSample).map (fun s => (s.pools.busyThreads, s.pools.idleThreads)) =
        some ([1], [0]) := by decide
  obtain ⟨s, hs, heq⟩ := Option.map_eq_some_iff.mp hrun
  obtain ⟨hbusy, hidle⟩ := Prod.mk.inj heq
  exact ⟨s, hs, hbusy, hidle, (reach_partitioned (.of_run (.start rfl) hs)).1⟩

/-- Where neither has been started and the second is pushed back, the first
leaves the busy list in its place. -/
theorem unstarted_not_partitioned :
    ¬ ∀ s : PoolUse Nat, (poolMachine Nat).Reach Machine.anyStep s →
      s.Partitioned := by
  intro h
  have hrun : ((poolMachine Nat).run Machine.anyStep .initial
      [.pop true, .pop true, .push 1]).map
        (fun s => (s.pools.busyThreads, s.out)) = some ([1], {0}) := by decide
  obtain ⟨s, hs, heq⟩ := Option.map_eq_some_iff.mp hrun
  obtain ⟨hbusy, hout⟩ := Prod.mk.inj heq
  have hmem := ((h s (.of_run (.start rfl) hs)).busy 1).mp
    (hbusy ▸ List.mem_cons_self)
  rw [hout] at hmem
  exact absurd hmem (by decide)

end AiEngine.Ref
