import AiEngine.Ref.RwLock

/-!
# The lock excludes writers and strands nobody

Three numbers of threads say all there is to know of the lock between two
steps: how many read, how many write, and how many have counted themselves as
writers. The counters of the lock are the first and the last, and its flag is
the second.

Two more facts keep the waiters from being stranded. Readers are only blocked
while a writer is counted, since the last writer wakes them all. And when
nobody has the lock, a writer that is counted has been woken: whoever had the
lock last has notified one, or had nobody left to notify. A woken writer may
be overtaken by one that has just come; it then waits again, but there is a
writer with the lock.
-/

namespace AiEngine.Ref

open AiEngine.Lib

/-- A thread has the lock. -/
def LockPhase.Holds (p : LockPhase) : Prop := p = .reading ∨ p = .writing

/-- A thread waits for the lock to write, or has it. -/
def LockPhase.Writes (p : LockPhase) : Prop := p = .waitWrite ∨ p = .writing

instance : DecidablePred LockPhase.Writes := fun _ =>
  inferInstanceAs (Decidable (_ ∨ _))

namespace LockUse

def readers (s : LockUse) : Nat := Table.countWith (· = .reading) s.thread

def writers (s : LockUse) : Nat := Table.countWith (· = .writing) s.thread

/-- The writers that have the lock or wait for it. -/
def writersIn (s : LockUse) : Nat := Table.countWith LockPhase.Writes s.thread

/-- Nobody has the lock. -/
def Free (s : LockUse) : Prop :=
  ∀ t p, s.thread.lookup t = some p → ¬ p.Holds

/-- A thread that waits has been woken, and would find its predicate true. -/
def Ready (s : LockUse) (t : Nat) : Prop :=
  (s.thread.lookup t = some .waitRead ∧ t ∉ s.lock.condRead ∧ s.lock.writeCnt = 0) ∨
  (s.thread.lookup t = some .waitWrite ∧ t ∉ s.lock.condWrite ∧ s.lock.readCnt = 0 ∧
    s.lock.writeFlag = false)

/-- Readers and writers exclude each other, the counters count, and no wait
lasts while the lock is free but for a thread that is about to get it. -/
structure Sound (s : LockUse) : Prop where
  oneWriter : s.writers ≤ 1
  exclusive : 0 < s.writers → s.readers = 0
  readCnt : s.lock.readCnt = s.readers
  writeCnt : s.lock.writeCnt = s.writersIn
  notStranded : s.Free →
    (s.lock.condRead = ∅ ∧ s.lock.condWrite = ∅) ∨ ∃ t, s.Ready t

structure Kept (s : LockUse) : Prop where
  readCnt : s.lock.readCnt = s.readers
  writeCnt : s.lock.writeCnt = s.writersIn
  writeFlag : (if s.lock.writeFlag then 1 else 0) = s.writers
  exclusive : s.lock.writeFlag = true → s.lock.readCnt = 0
  blockedRead : ∀ t ∈ s.lock.condRead, s.thread.lookup t = some .waitRead
  blockedWrite : ∀ t ∈ s.lock.condWrite, s.thread.lookup t = some .waitWrite
  /-- Blocked readers wait for a writer. -/
  readersWoken : s.lock.writeCnt = 0 → s.lock.condRead = ∅
  /-- A free lock that a writer waits for has a woken one. -/
  writerWoken : s.lock.readCnt = 0 → s.lock.writeFlag = false → 0 < s.lock.writeCnt →
    ∃ t, s.thread.lookup t = some .waitWrite ∧ t ∉ s.lock.condWrite

variable {s s' : LockUse} {t : Nat}

theorem Kept.initial : LockUse.Kept ⟨.initial, ∅⟩ where
  readCnt := (Table.countWith_empty _).symm
  writeCnt := (Table.countWith_empty _).symm
  writeFlag := (Table.countWith_empty _).symm
  exclusive := fun hflag => nomatch hflag
  blockedRead := fun _ ht => absurd ht (Finset.notMem_empty _)
  blockedWrite := fun _ ht => absurd ht (Finset.notMem_empty _)
  readersWoken := fun _ => rfl
  writerWoken := fun _ _ hpos => absurd hpos (Nat.lt_irrefl 0)

/-- The flag is set while a writer has the lock. -/
theorem Kept.flag_of_writing (h : s.Kept)
    (ht : s.thread.lookup t = some .writing) : s.lock.writeFlag = true := by
  have hpos : 0 < s.writers :=
    (Table.countWith_pos _).mpr ⟨t, _, ht, rfl⟩
  have hflag := h.writeFlag
  cases hf : s.lock.writeFlag with
  | true => rfl
  | false =>
      rw [hf] at hflag
      exact absurd hflag (Nat.ne_of_lt hpos)

theorem Kept.counted (h : s.Kept) (hflag : s.lock.writeFlag = true) :
    0 < s.lock.writeCnt := by
  have hpos : 0 < s.writers := by
    have hcount := h.writeFlag
    rw [if_pos hflag] at hcount
    omega
  obtain ⟨u, p, hu, hp⟩ := (Table.countWith_pos _).mp hpos
  rw [h.writeCnt]
  exact (Table.countWith_pos _).mpr ⟨u, p, hu, .inr hp⟩

/-- A writer that is counted while the flag is down is waiting. -/
theorem exists_waitWrite (hpos : 0 < s.writersIn) (hnone : s.writers = 0) :
    ∃ u, s.thread.lookup u = some .waitWrite := by
  obtain ⟨u, p, hu, hp⟩ := (Table.countWith_pos _).mp hpos
  refine ⟨u, ?_⟩
  rcases hp with rfl | rfl
  · exact hu
  · exact absurd rfl ((Table.countWith_eq_zero _).mp hnone u _ hu)

theorem reads_true (lock : RwLock) :
    s.reads t (true, lock) = ⟨lock, s.thread.insert t .reading⟩ := rfl

theorem reads_false (lock : RwLock) :
    s.reads t (false, lock) = ⟨lock, s.thread.insert t .waitRead⟩ := rfl

theorem writes_true (lock : RwLock) :
    s.writes t (true, lock) = ⟨lock, s.thread.insert t .writing⟩ := rfl

theorem writes_false (lock : RwLock) :
    s.writes t (false, lock) = ⟨lock, s.thread.insert t .waitWrite⟩ := rfl

/-- A thread that is not done but waits for the mutex to read. -/
theorem Kept.testRead (h : s.Kept)
    (ht : ∀ p, s.thread.lookup t = some p → p = .waitRead) :
    (s.reads t (s.lock.testRead t)).Kept := by
  have hreaders (p : LockPhase) := Table.countWith_insert_of_not
    (· = LockPhase.reading) p (t := s.thread) (k := t)
    fun q hq => by rw [ht q hq]; decide
  have hwriters (p : LockPhase) := Table.countWith_insert_of_not
    (· = LockPhase.writing) p (t := s.thread) (k := t)
    fun q hq => by rw [ht q hq]; decide
  have hin (p : LockPhase) := Table.countWith_insert_of_not
    LockPhase.Writes p (t := s.thread) (k := t)
    fun q hq => by rw [ht q hq]; decide
  have hother {u : Nat} (hu : s.thread.lookup u = some .waitWrite) :
      u ≠ t := by
    rintro rfl
    exact nomatch ht _ hu
  unfold RwLock.testRead
  split
  · next hzero =>
      rw [reads_true]
      refine ⟨?_, ?_, ?_, ?_, ?_, ?_, fun _ => h.readersWoken hzero, ?_⟩
      · simp [readers, hreaders, h.readCnt]
      · simp only [writersIn, hin, h.writeCnt]
        rfl
      · simp [writers, hwriters, h.writeFlag]
      · intro hflag
        have := h.counted hflag
        omega
      · intro u hu
        rw [h.readersWoken hzero] at hu
        exact absurd hu (Finset.notMem_empty _)
      · intro u hu
        have hu := h.blockedWrite u hu
        rw [Table.lookup_insert_if, if_neg (hother hu), hu]
      · exact fun hread => absurd hread (Nat.succ_ne_zero _)
  · next hpos =>
      rw [reads_false]
      refine ⟨?_, ?_, ?_, h.exclusive, ?_, ?_, fun hzero => absurd hzero hpos,
        ?_⟩
      · simp [readers, hreaders, h.readCnt]
      · simp only [writersIn, hin, h.writeCnt]
        rfl
      · simp [writers, hwriters, h.writeFlag]
      · intro u hu
        rw [Table.lookup_insert_if]
        split
        · rfl
        · next hne =>
            exact h.blockedRead u (Finset.mem_of_mem_insert_of_ne hu hne)
      · intro u hu
        have hu := h.blockedWrite u hu
        rw [Table.lookup_insert_if, if_neg (hother hu), hu]
      · intro hread hflag hcnt
        obtain ⟨u, hu, hwoken⟩ := h.writerWoken hread hflag hcnt
        exact ⟨u, by rw [Table.lookup_insert_if, if_neg (hother hu), hu],
          hwoken⟩

/-- A thread that waits for the mutex to write, and is counted. -/
theorem Kept.testWrite (h : s.Kept) {n : Nat}
    (ht : ∀ p, s.thread.lookup t = some p → p = .waitWrite)
    (hwoken : t ∉ s.lock.condWrite)
    (hn : n = Table.countWith LockPhase.Writes
      (s.thread.insert t .waitWrite)) :
    (s.writes t ({ s.lock with writeCnt := n }.testWrite t)).Kept := by
  have hreaders (p : LockPhase) := Table.countWith_insert_of_not
    (· = LockPhase.reading) p (t := s.thread) (k := t)
    fun q hq => by rw [ht q hq]; decide
  have hwriters (p : LockPhase) := Table.countWith_insert_of_not
    (· = LockPhase.writing) p (t := s.thread) (k := t)
    fun q hq => by rw [ht q hq]; decide
  have hpos : 0 < n := hn ▸ (Table.countWith_pos _).mpr
    ⟨t, _, Finmap.lookup_insert .., .inl rfl⟩
  have hsame : n = Table.countWith LockPhase.Writes
      (s.thread.insert t .writing) := by
    rw [hn, Table.countWith, Table.countWith, Table.keysWith_insert,
      Table.keysWith_insert]
    rfl
  have hother {u : Nat} (hu : s.thread.lookup u = some .waitRead) :
      u ≠ t := by
    intro heq
    subst heq
    cases ht _ hu
  have hread : ∀ u ∈ s.lock.condRead, ∀ p,
      (s.thread.insert t p).lookup u = some .waitRead := by
    intro u hu p
    have hu := h.blockedRead u hu
    rw [Table.lookup_insert_if, if_neg (hother hu), hu]
  unfold RwLock.testWrite
  split
  · next hfree =>
      rw [writes_true]
      obtain ⟨hreadCnt, hflag⟩ := hfree
      have hnone : s.writers = 0 := by
        have hcount := h.writeFlag
        rw [show s.lock.writeFlag = false from hflag] at hcount
        exact hcount.symm
      refine ⟨?_, hsame, ?_, fun _ => hreadCnt, fun u hu => hread u hu _, ?_,
        fun hzero => absurd hzero (Nat.ne_of_gt hpos),
        fun _ hflag => by cases hflag⟩
      · simp [readers, hreaders, h.readCnt]
      · simp only [writers] at hnone
        simp [writers, hwriters, hnone]
      · intro u hu
        have hne : u ≠ t := fun heq => hwoken (heq ▸ hu)
        rw [Table.lookup_insert_if, if_neg hne]
        exact h.blockedWrite u hu
  · next hbusy =>
      rw [writes_false]
      refine ⟨?_, hn, ?_, h.exclusive, fun u hu => hread u hu _, ?_,
        fun hzero => absurd hzero (Nat.ne_of_gt hpos),
        fun hreadCnt hflag => absurd ⟨hreadCnt, hflag⟩ hbusy⟩
      · simp [readers, hreaders, h.readCnt]
      · simp [writers, hwriters, h.writeFlag]
      · intro u hu
        rw [Table.lookup_insert_if]
        split
        · rfl
        · next hne =>
            exact h.blockedWrite u (Finset.mem_of_mem_insert_of_ne hu hne)

theorem Kept.lockWrite (h : s.Kept) (ht : s.thread.lookup t = none) :
    (s.writes t (s.lock.lockWrite t)).Kept := by
  refine h.testWrite (fun _ hp => nomatch ht.symm.trans hp)
    (fun hmem => nomatch ht.symm.trans (h.blockedWrite t hmem)) ?_
  rw [Table.countWith_insert _ _ ht, if_pos (.inl rfl), h.writeCnt]
  rfl

theorem notifyOne_cases {cond cond' : Finset Nat} {notified : Option Nat}
    (h : notifyOne cond notified = some cond') :
    (cond = ∅ ∧ cond' = ∅) ∨ ∃ u ∈ cond, cond' = cond.erase u := by
  cases notified with
  | none =>
      simp only [notifyOne, Option.ite_none_right_eq_some] at h
      exact .inl ⟨h.1, (Option.some.inj h.2).symm⟩
  | some u =>
      simp only [notifyOne, Option.ite_none_right_eq_some] at h
      exact .inr ⟨u, h.1, (Option.some.inj h.2).symm⟩

theorem notifyOne_subset {cond cond' : Finset Nat} {notified : Option Nat}
    (h : notifyOne cond notified = some cond') : cond' ⊆ cond := by
  rcases notifyOne_cases h with ⟨-, rfl⟩ | ⟨u, -, rfl⟩
  · exact Finset.empty_subset cond
  · exact Finset.erase_subset u cond

/-- After `notify_one`, one of those that wait is not blocked. -/
theorem notifyOne_wakes {cond cond' : Finset Nat} {notified : Option Nat}
    (h : notifyOne cond notified = some cond') {waits : Nat → Prop}
    (hblocked : ∀ u ∈ cond, waits u) (hsome : ∃ u, waits u) :
    ∃ u, waits u ∧ u ∉ cond' := by
  rcases notifyOne_cases h with ⟨-, rfl⟩ | ⟨u, hu, rfl⟩
  · obtain ⟨u, hu⟩ := hsome
    exact ⟨u, hu, Finset.notMem_empty u⟩
  · exact ⟨u, hblocked u hu, Finset.notMem_erase u cond⟩

/-- The lock once a reader has left, before it notifies. -/
theorem Kept.readerLeaves (h : s.Kept)
    (ht : s.thread.lookup t = some .reading) :
    s.lock.readCnt - 1 = Table.countWith (· = .reading) (s.thread.erase t) ∧
    s.lock.writeFlag = false ∧
    s.writers = Table.countWith (· = .writing) (s.thread.erase t) ∧
    s.lock.writeCnt = Table.countWith LockPhase.Writes (s.thread.erase t) := by
  have hreaders := Table.countWith_erase (· = LockPhase.reading) ht
  have hwriters := Table.countWith_erase (· = LockPhase.writing) ht
  have hin := Table.countWith_erase LockPhase.Writes ht
  have hcnt := h.readCnt
  have hwriteCnt := h.writeCnt
  rw [if_pos rfl] at hreaders
  rw [if_neg (by decide)] at hwriters hin
  simp only [readers, writersIn] at hcnt hwriteCnt
  refine ⟨by omega, ?_, by simp only [writers]; omega, by omega⟩
  cases hflag : s.lock.writeFlag with
  | false => rfl
  | true =>
      have := h.exclusive hflag
      omega

theorem lookup_erase_of {p : LockPhase} {u : Nat}
    (ht : s.thread.lookup t = some p) {q : LockPhase} (hne : p ≠ q)
    (hu : s.thread.lookup u = some q) :
    (s.thread.erase t).lookup u = some q := by
  rw [Table.lookup_erase_if, if_neg, hu]
  intro heq
  rw [heq, ht] at hu
  exact hne (Option.some.inj hu)

theorem Kept.unLockRead (h : s.Kept)
    (ht : s.thread.lookup t = some .reading) {notified : Option Nat}
    (hrun : s.leaves t (s.lock.unLockRead notified) = some s') :
    s'.Kept := by
  obtain ⟨hreaders, hflag, hwriters, hin⟩ := h.readerLeaves ht
  have hread := fun u hu =>
    lookup_erase_of ht (by decide) (h.blockedRead u hu)
  have hwrite := fun u hu =>
    lookup_erase_of ht (by decide) (h.blockedWrite u hu)
  have hcount := h.writeFlag.trans hwriters
  have hexclusive : s.lock.writeFlag = true → s.lock.readCnt - 1 = 0 := by
    rw [hflag]
    exact fun hyes => nomatch hyes
  obtain ⟨lock, hlock, rfl⟩ := Option.map_eq_some_iff.mp hrun
  unfold RwLock.unLockRead at hlock
  dsimp only at hlock
  split at hlock
  · next hlast =>
      obtain ⟨cond, hcond, rfl⟩ := Option.map_eq_some_iff.mp hlock
      refine ⟨hreaders, hin, hcount, hexclusive, hread,
        fun u hu => hwrite u (notifyOne_subset hcond hu), h.readersWoken,
        fun _ _ hpos => notifyOne_wakes hcond hwrite ?_⟩
      refine exists_waitWrite (s := { s with thread := s.thread.erase t })
        (Nat.lt_of_lt_of_eq hpos hin) ?_
      rw [hflag] at hcount
      exact hcount.symm
  · next hnot =>
      cases hlock
      exact ⟨hreaders, hin, hcount, hexclusive, hread, hwrite,
        h.readersWoken, fun hzero _ hpos => absurd ⟨hzero, hpos⟩ hnot⟩

/-- The lock once a writer has left, before it notifies. -/
theorem Kept.writerLeaves (h : s.Kept)
    (ht : s.thread.lookup t = some .writing) :
    s.lock.readCnt = 0 ∧
    Table.countWith (· = .reading) (s.thread.erase t) = 0 ∧
    Table.countWith (· = .writing) (s.thread.erase t) = 0 ∧
    s.lock.writeCnt - 1 = Table.countWith LockPhase.Writes (s.thread.erase t) := by
  have hreaders := Table.countWith_erase (· = LockPhase.reading) ht
  have hwriters := Table.countWith_erase (· = LockPhase.writing) ht
  have hin := Table.countWith_erase LockPhase.Writes ht
  have hflag := h.flag_of_writing ht
  have hzero := h.exclusive hflag
  have hcnt := h.readCnt
  have hwriteCnt := h.writeCnt
  have hcount := h.writeFlag
  rw [if_neg (by decide)] at hreaders
  rw [if_pos rfl] at hwriters
  rw [if_pos (.inr rfl)] at hin
  rw [if_pos hflag] at hcount
  simp only [readers, writersIn, writers] at hcnt hwriteCnt hcount
  refine ⟨hzero, ?_, ?_, ?_⟩ <;> omega

theorem Kept.unLockWrite (h : s.Kept)
    (ht : s.thread.lookup t = some .writing) {notified : Option Nat}
    (hrun : s.leaves t (s.lock.unLockWrite notified) = some s') :
    s'.Kept := by
  obtain ⟨hzero, hreaders, hwriters, hin⟩ := h.writerLeaves ht
  have hread := fun u hu =>
    lookup_erase_of ht (by decide) (h.blockedRead u hu)
  have hwrite := fun u hu =>
    lookup_erase_of ht (by decide) (h.blockedWrite u hu)
  obtain ⟨lock, hlock, rfl⟩ := Option.map_eq_some_iff.mp hrun
  unfold RwLock.unLockWrite at hlock
  dsimp only at hlock
  obtain ⟨woken, hwoken, rfl⟩ := Option.map_eq_some_iff.mp hlock
  split at hwoken
  · next hlast =>
      cases hwoken
      exact ⟨hzero.trans hreaders.symm, hin, hwriters.symm, fun _ => hzero,
        fun u hu => absurd hu (Finset.notMem_empty u), hwrite, fun _ => rfl,
        fun _ _ hpos => absurd hlast (Nat.ne_of_gt hpos)⟩
  · next hmore =>
      obtain ⟨cond, hcond, rfl⟩ := Option.map_eq_some_iff.mp hwoken
      refine ⟨hzero.trans hreaders.symm, hin, hwriters.symm, fun _ => hzero,
        hread, fun u hu => hwrite u (notifyOne_subset hcond hu),
        fun hnone => absurd hnone hmore, fun _ _ hpos =>
          notifyOne_wakes hcond hwrite ?_⟩
      exact exists_waitWrite (s := { s with thread := s.thread.erase t })
        (Nat.lt_of_lt_of_eq hpos hin) hwriters

theorem Kept.take (h : s.Kept) {i : LockStep} (hstep : s.take i = some s') :
    s'.Kept := by
  cases i with
  | lockRead t =>
      simp only [LockUse.take] at hstep
      split at hstep
      · next ht =>
          cases hstep
          exact h.testRead fun _ hp => nomatch ht.symm.trans hp
      · cases hstep
  | lockWrite t =>
      simp only [LockUse.take] at hstep
      split at hstep
      · next ht =>
          cases hstep
          exact h.lockWrite ht
      · cases hstep
  | unLockRead t notified =>
      simp only [LockUse.take] at hstep
      split at hstep
      · next ht => exact h.unLockRead ht hstep
      · cases hstep
  | unLockWrite t notified =>
      simp only [LockUse.take] at hstep
      split at hstep
      · next ht => exact h.unLockWrite ht hstep
      · cases hstep
  | wakeRead t =>
      simp only [LockUse.take] at hstep
      split at hstep
      · cases hstep
        exact { h with
          blockedRead := fun u hu =>
            h.blockedRead u (Finset.mem_of_mem_erase hu)
          readersWoken := fun hzero => by
            rw [h.readersWoken hzero, Finset.erase_empty] }
      · cases hstep
  | wakeWrite t =>
      simp only [LockUse.take] at hstep
      split at hstep
      · cases hstep
        exact { h with
          blockedWrite := fun u hu =>
            h.blockedWrite u (Finset.mem_of_mem_erase hu)
          writerWoken := fun hread hflag hpos => by
            obtain ⟨u, hu, hwoken⟩ := h.writerWoken hread hflag hpos
            exact ⟨u, hu, fun hmem =>
              hwoken (Finset.mem_of_mem_erase hmem)⟩ }
      · cases hstep
  | resume t =>
      simp only [LockUse.take] at hstep
      split at hstep
      · next ht =>
          split at hstep
          · cases hstep
          · cases hstep
            refine h.testRead fun p hp => ?_
            exact Option.some.inj (hp.symm.trans ht)
      · next ht =>
          split at hstep
          · cases hstep
          · next hwoken =>
              cases hstep
              refine h.testWrite (fun p hp => ?_) hwoken ?_
              · exact Option.some.inj (hp.symm.trans ht)
              · have hin := Table.countWith_update LockPhase.Writes
                  .waitWrite ht
                rw [h.writeCnt]
                simp only [writersIn]
                omega
      · cases hstep
      · cases hstep
      · cases hstep

theorem Kept.sound (h : s.Kept) : s.Sound := by
  have hcount := h.writeFlag
  refine ⟨?_, ?_, h.readCnt, h.writeCnt, fun hfree => ?_⟩
  · split at hcount <;> omega
  · intro hpos
    rw [← h.readCnt]
    refine h.exclusive ?_
    cases hflag : s.lock.writeFlag with
    | true => rfl
    | false =>
        rw [hflag] at hcount
        exact absurd hcount (Nat.ne_of_lt hpos)
  have hread : s.lock.readCnt = 0 := h.readCnt.trans
    ((Table.countWith_eq_zero _).mpr fun u p hu hp => hfree u p hu (.inl hp))
  have hflag : s.lock.writeFlag = false := by
    cases hflag : s.lock.writeFlag with
    | false => rfl
    | true =>
        rw [hflag] at hcount
        obtain ⟨u, p, hu, hp⟩ :=
          (Table.countWith_pos _).mp (Nat.lt_of_lt_of_eq Nat.one_pos hcount)
        exact absurd (.inr hp) (hfree u p hu)
  rcases Nat.eq_zero_or_pos s.lock.writeCnt with hnone | hpos
  · refine .inl ⟨h.readersWoken hnone, ?_⟩
    refine Finset.eq_empty_of_forall_notMem fun u hu => ?_
    have hzero := (Table.countWith_eq_zero _).mp (h.writeCnt.symm.trans hnone)
    exact hzero u _ (h.blockedWrite u hu) (.inl rfl)
  · obtain ⟨u, hu, hwoken⟩ := h.writerWoken hread hflag hpos
    exact .inr ⟨u, .inr ⟨hu, hwoken, hread, hflag⟩⟩

/-- A thread that is ready gets the lock as soon as it has the mutex. -/
theorem Ready.acquires (h : s.Ready t) :
    ∃ s' p, s.take (.resume t) = some s' ∧ s'.thread.lookup t = some p ∧
      p.Holds := by
  rcases h with ⟨ht, hwoken, hzero⟩ | ⟨ht, hwoken, hfree⟩
  · refine ⟨s.reads t (s.lock.testRead t), .reading, ?_, ?_, .inl rfl⟩
    · simp only [LockUse.take, ht, if_neg hwoken]
    · simp only [RwLock.testRead, reads, if_pos hzero]
      exact Finmap.lookup_insert ..
  · refine ⟨s.writes t (s.lock.testWrite t), .writing, ?_, ?_, .inr rfl⟩
    · simp only [LockUse.take, ht, if_neg hwoken]
    · simp only [RwLock.testWrite, writes, if_pos hfree]
      exact Finmap.lookup_insert ..

end LockUse

theorem reach_lockKept {s : LockUse}
    (hs : lockMachine.Reach Machine.anyStep s) : s.Kept :=
  hs.invariant (fun _ hs => hs ▸ .initial)
    fun _ _ _ h _ hstep => h.take hstep

/-- Whatever the threads do, the lock excludes writers from each other and
from the readers, and strands nobody. -/
theorem reach_lockSound {s : LockUse}
    (hs : lockMachine.Reach Machine.anyStep s) : s.Sound :=
  (reach_lockKept hs).sound

/-- A writer comes while one thread reads, and a reader after it. The first
reader leaves, and the writer it wakes is overtaken by another one before it
has the mutex. -/
def lockSample : List LockStep :=
  [.lockRead 0, .lockWrite 1, .lockRead 2, .unLockRead 0 (some 1),
    .lockWrite 3, .resume 1, .unLockWrite 3 (some 1), .lockWrite 4]

theorem reach_lockSound_sample : ∃ s,
    lockMachine.run Machine.anyStep ⟨.initial, ∅⟩ lockSample = some s ∧
      s.lock.condRead = {2} ∧ s.lock.condWrite = ∅ ∧ s.Sound := by
  have hrun : (lockMachine.run Machine.anyStep ⟨.initial, ∅⟩ lockSample).map
      (fun s => (s.lock.condRead, s.lock.condWrite)) = some ({2}, ∅) := by
    decide
  obtain ⟨s, hs, heq⟩ := Option.map_eq_some_iff.mp hrun
  obtain ⟨hread, hwrite⟩ := Prod.mk.inj heq
  exact ⟨s, hs, hread, hwrite, reach_lockSound (.of_run (.start rfl) hs)⟩

end AiEngine.Ref
