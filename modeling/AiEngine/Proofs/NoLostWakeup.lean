import AiEngine.Ref.SemaphoreEvent

/-!
# No wakeup is lost

A semaphore lets through as many waits as it has units, those it began with
and those that were signalled; an event is set as often as it is reset, give
or take the one time that is not over. Neither leaves a thread asleep that
could go on: once nobody wants the lock, and every `Event::Signal` has
notified, a semaphore with a unit left and an event that is set have no
sleeping thread. For the semaphore this is because every notification goes
with a unit. For the event it is because a thread that goes to sleep while a
`Signal` has yet to notify saw the flag before that call set it.
-/

namespace AiEngine.Ref

open AiEngine.Lib

variable {τ : Type} [DecidableEq τ]

/-- Only a wait whose time was limited returns false. -/
def OnlyTimedFail (returned : List (WaitReturn τ)) : Prop :=
  ∀ r ∈ returned, r.value = false → r.timed = true

theorem OnlyTimedFail.look {returned : List (WaitReturn τ)} {m m' : Monitor τ}
    {t : τ} {condition : Bool} {l : Monitor.Look}
    (h : OnlyTimedFail returned) (hlook : m.look t condition = some (l, m')) :
    OnlyTimedFail (afterLook m t returned l) := by
  obtain ⟨-, ⟨-, rfl, -⟩ | ⟨-, htimed, rfl, -⟩ | ⟨-, rfl, -⟩⟩ :=
    Monitor.look_cases hlook
  · intro r hr hfalse
    rcases List.mem_append.mp hr with hr | hr
    · exact h r hr hfalse
    · rw [List.mem_singleton.mp hr] at hfalse
      cases hfalse
  · intro r hr hfalse
    rcases List.mem_append.mp hr with hr | hr
    · exact h r hr hfalse
    · rw [List.mem_singleton.mp hr]
      exact decide_eq_true htimed
  · exact h

/-- How many waits were let through. -/
def passed (returned : List (WaitReturn τ)) : Nat :=
  returned.countP (·.value)

/-! ## Semaphores

A signal adds a unit and wakes one thread. The thread may find that another
one has taken the unit, so it is not the thread that was woken that counts,
but that as many are awake as there are units. -/

namespace Semaphore

/-- What is true of a semaphore between two steps. -/
structure Conserves (count : UInt32) (s : Semaphore τ) : Prop where
  units : ∃ wraps, s.count.toNat + passed s.returned + 2 ^ 32 * wraps =
    count.toNat + s.signals
  onlyTimed : OnlyTimedFail s.returned
  covers : s.threads.Covers s.count.toNat

variable {count : UInt32} {s s' : Semaphore τ}

theorem Conserves.withThreads (h : s.Conserves count) {threads : Monitor τ}
    (hcovers : threads.Covers s.count.toNat) :
    Conserves count { s with threads } :=
  ⟨h.units, h.onlyTimed, hcovers⟩

theorem toNat_of_none {n : UInt32} (h : decide (0 < n) = false) :
    n.toNat = 0 := by
  have hnot := of_decide_eq_false h
  rw [UInt32.lt_iff_toNat_lt, UInt32.toNat_zero] at hnot
  omega

theorem toNat_take {n : UInt32} (h : decide (0 < n) = true) :
    (n - 1).toNat + 1 = n.toNat := by
  have hpos : 0 < n := of_decide_eq_true h
  have hone := UInt32.lt_iff_toNat_lt.mp hpos
  rw [UInt32.toNat_zero] at hone
  have hle : (1 : UInt32) ≤ n := UInt32.le_iff_toNat_le.mpr hone
  rw [UInt32.toNat_sub_of_le _ _ hle, UInt32.toNat_one]
  omega

theorem Conserves.look (h : s.Conserves count) {t : τ}
    (hstep : s.look t = some s') : s'.Conserves count := by
  simp only [Semaphore.look] at hstep
  split at hstep
  · cases hstep
  · next l threads hlook =>
      cases hstep
      have honly := h.onlyTimed.look hlook
      obtain ⟨hin, ⟨hcond, rfl, rfl⟩ | ⟨hcond, -, rfl, rfl⟩ |
        ⟨hcond, rfl, rfl⟩⟩ := Monitor.look_cases hlook
      · -- The thread is let through.
        have htake := toNat_take hcond
        obtain ⟨wraps, hunits⟩ := h.units
        refine ⟨⟨wraps, ?_⟩, honly, ?_⟩
        · show (s.count - 1).toNat + passed (s.returned ++ [_]) + _ =
            count.toNat + s.signals
          simp only [passed, List.countP_append, List.countP_singleton,
            if_true]
          rw [passed] at hunits
          omega
        · refine Monitor.Covers.leave ?_ hin
          show s.threads.Covers ((s.count - 1).toNat + 1)
          rw [htake]
          exact h.covers
      · -- Its time is up.
        obtain ⟨wraps, hunits⟩ := h.units
        refine ⟨⟨wraps, ?_⟩, honly, ?_⟩
        · show s.count.toNat + passed (s.returned ++ [_]) + _ =
            count.toNat + s.signals
          simp only [passed, List.countP_append, List.countP_singleton,
            Bool.false_eq_true, if_false]
          exact hunits
        · show (s.threads.leave t).Covers s.count.toNat
          rw [toNat_of_none hcond]
          exact .zero _
      · -- It goes to sleep.
        refine ⟨h.units, honly, ?_⟩
        show (s.threads.sleep t).Covers s.count.toNat
        rw [toNat_of_none hcond]
        exact .zero _

theorem Conserves.signal (h : s.Conserves count) {notified : Option τ}
    (hstep : s.signal notified = some s') : s'.Conserves count := by
  simp only [Semaphore.signal] at hstep
  split at hstep
  · cases hstep
  · next threads hnotify =>
      cases hstep
      have hcovers := h.covers.notifyOne hnotify
      obtain ⟨wraps, hunits⟩ := h.units
      have hadd : (s.count + 1).toNat = (s.count.toNat + 1) % 2 ^ 32 := rfl
      have hlt := s.count.toNat_lt
      by_cases hwrap : s.count.toNat + 1 = 2 ^ 32
      · -- The count is zero again.
        have hzero : (s.count + 1).toNat = 0 := by
          rw [hadd, hwrap, Nat.mod_self]
        refine ⟨⟨wraps + 1, ?_⟩, h.onlyTimed, ?_⟩
        · show (s.count + 1).toNat + passed s.returned + _ =
            count.toNat + (s.signals + 1)
          omega
        · show threads.Covers (s.count + 1).toNat
          rw [hzero]
          exact .zero _
      · have hone : (s.count + 1).toNat = s.count.toNat + 1 := by
          rw [hadd]
          exact Nat.mod_eq_of_lt (by omega)
        refine ⟨⟨wraps, ?_⟩, h.onlyTimed, ?_⟩
        · show (s.count + 1).toNat + passed s.returned + _ =
            count.toNat + (s.signals + 1)
          omega
        · show threads.Covers (s.count + 1).toNat
          rw [hone]
          exact hcovers

theorem Conserves.step (h : s.Conserves count) {i : SemaphoreStep τ}
    (hstep : s.step i = some s') : s'.Conserves count := by
  cases i with
  | wait t milliSeconds =>
      obtain ⟨threads, henter, rfl⟩ := Option.map_eq_some_iff.mp hstep
      exact h.withThreads (h.covers.enter henter)
  | look t => exact h.look hstep
  | stir t =>
      obtain ⟨threads, hstir, rfl⟩ := Option.map_eq_some_iff.mp hstep
      exact h.withThreads (h.covers.stir hstir)
  | timeUp t =>
      obtain ⟨threads, hexpire, rfl⟩ := Option.map_eq_some_iff.mp hstep
      exact h.withThreads (h.covers.expire hexpire)
  | signal notified => exact h.signal hstep

theorem makeShared_conserves :
    (makeShared count : Semaphore τ).Conserves count :=
  ⟨⟨0, rfl⟩, fun _ hr => absurd hr List.not_mem_nil, .idle _⟩

end Semaphore

/-- The units of a semaphore are those it began with and those that were
signalled, less one for each wait that was let through, as far as the count
can hold them. No wait without a limit returns false. Where no thread wants the
lock, none sleeps while there is a unit. -/
theorem semaphore_loses_nothing {count : UInt32} {s : Semaphore τ}
    (hs : (semaphoreMachine τ count).Reach Machine.anyStep s) :
    (∃ wraps, s.count.toNat + passed s.returned + 2 ^ 32 * wraps =
        count.toNat + s.signals) ∧
      OnlyTimedFail s.returned ∧
      (0 < s.count.toNat → s.threads.awake = ∅ → s.threads.asleep = ∅) := by
  have hinv : s.Conserves count := by
    refine hs.invariant ?_ ?_
    · rintro s rfl
      exact Semaphore.makeShared_conserves
    · intro s i s' h _ hstep
      exact h.step hstep
  exact ⟨hinv.units, hinv.onlyTimed, hinv.covers.quiet⟩

/-- Two threads wait, and two units come: the second finds the one that is
awake, and the first is let through. -/
theorem semaphore_loses_nothing_two :
    ∃ s : Semaphore Nat,
      (semaphoreMachine Nat 0).Reach Machine.anyStep s ∧
        s.count.toNat = 1 ∧ passed s.returned = 1 ∧
        (s.threads.awake = ∅ → s.threads.asleep = ∅) := by
  have hstart : (semaphoreMachine Nat 0).Reach Machine.anyStep
      (.makeShared 0) := .start rfl
  have hs := hstart.of_run (show (semaphoreMachine Nat 0).run Machine.anyStep _
    [.wait 1 0, .look 1, .wait 2 5, .look 2, .signal (some 1),
      .signal (some 2), .look 1] = some _ from rfl)
  exact ⟨_, hs, rfl, rfl, (semaphore_loses_nothing hs).2.2 (by decide)⟩

/-! ## Events

The flag is one unit at most. A signal to a flag that is set adds nothing, and
a reset takes it away from whoever was woken for it. -/

namespace Event

/-- What is true of an event between two steps. -/
structure Balanced (e : Event τ) : Prop where
  changes : e.signalled = e.reset + e.flag.toNat
  onlyTimed : OnlyTimedFail e.returned
  afterSignal : ∀ r ∈ e.returned, r.value = true → 0 < e.signalled
  awaited : e.flag = true → e.notifying = 0 → e.threads.asleep = ∅

variable {e e' : Event τ}

/-- Threads come and go without a look, and none goes to sleep. -/
theorem Balanced.withThreads (h : e.Balanced) {threads : Monitor τ}
    (hasleep : e.threads.asleep = ∅ → threads.asleep = ∅) :
    Balanced { e with threads } :=
  ⟨h.changes, h.onlyTimed, h.afterSignal,
    fun hflag hnone => hasleep (h.awaited hflag hnone)⟩

theorem Balanced.look (h : e.Balanced) {t : τ}
    (hstep : e.look t = some e') : e'.Balanced := by
  simp only [Event.look] at hstep
  split at hstep
  · cases hstep
  · next l threads hlook =>
      cases hstep
      have honly := h.onlyTimed.look hlook
      obtain ⟨-, ⟨hcond, rfl, rfl⟩ | ⟨hcond, -, rfl, rfl⟩ |
        ⟨hcond, rfl, rfl⟩⟩ := Monitor.look_cases hlook
      · refine ⟨h.changes, honly, ?_, h.awaited⟩
        intro _ _ _
        have hchanges := h.changes
        rw [hcond, Bool.toNat_true] at hchanges
        show 0 < e.signalled
        omega
      · refine ⟨h.changes, honly, ?_, h.awaited⟩
        intro r hr htrue
        rcases List.mem_append.mp hr with hr | hr
        · exact h.afterSignal r hr htrue
        · rw [List.mem_singleton.mp hr] at htrue
          cases htrue
      · refine ⟨h.changes, honly, h.afterSignal, ?_⟩
        intro hflag
        exact absurd (hflag.symm.trans hcond) nofun

theorem Balanced.signal (h : e.Balanced) : e.signal.2.Balanced := by
  have hchanges := h.changes
  refine ⟨?_, h.onlyTimed, fun r hr htrue => ?_, fun _ hnone => ?_⟩
  · show e.signalled + (!e.flag).toNat = e.reset + true.toNat
    cases hflag : e.flag with
    | false =>
        rw [hflag] at hchanges
        simp only [Bool.toNat_false, Bool.not_false, Bool.toNat_true]
          at hchanges ⊢
        omega
    | true =>
        rw [hflag] at hchanges
        simp only [Bool.not_true, Bool.toNat_false, Bool.toNat_true]
          at hchanges ⊢
        omega
  · have hpos := h.afterSignal r hr htrue
    show 0 < e.signalled + (!e.flag).toNat
    omega
  · exact absurd hnone (Nat.succ_ne_zero e.notifying)

theorem Balanced.doReset (h : e.Balanced) : e.doReset.2.Balanced := by
  refine ⟨?_, h.onlyTimed, h.afterSignal, fun hflag => ?_⟩
  · show e.signalled = e.reset + e.flag.toNat + false.toNat
    rw [Bool.toNat_false, Nat.add_zero]
    exact h.changes
  · cases hflag

theorem Balanced.step (h : e.Balanced) {i : EventStep τ}
    (hstep : e.step i = some e') : e'.Balanced := by
  cases i with
  | wait t milliSeconds =>
      obtain ⟨threads, henter, rfl⟩ := Option.map_eq_some_iff.mp hstep
      refine h.withThreads fun hnone => ?_
      rw [(Monitor.enter_spec henter).1, hnone]
  | look t => exact h.look hstep
  | stir t =>
      obtain ⟨threads, hstir, rfl⟩ := Option.map_eq_some_iff.mp hstep
      obtain ⟨hin, rfl⟩ := Monitor.stir_spec hstir
      refine h.withThreads fun hnone => ?_
      rw [hnone] at hin
      exact absurd hin (Finset.notMem_empty t)
  | timeUp t =>
      obtain ⟨threads, hexpire, rfl⟩ := Option.map_eq_some_iff.mp hstep
      obtain ⟨hin, -, -⟩ := Monitor.expire_spec hexpire
      refine h.withThreads fun hnone => ?_
      rw [hnone] at hin
      exact absurd hin (Finset.notMem_empty t)
  | signal =>
      cases hstep
      exact h.signal
  | notifyAll =>
      simp only [Event.step] at hstep
      split at hstep
      · cases hstep
      · cases hstep
        exact ⟨h.changes, h.onlyTimed, h.afterSignal, fun _ _ => rfl⟩
  | reset =>
      cases hstep
      exact h.doReset

end Event

/-- The flag is set by one call of `Signal`, which returns true, and reset by
one call of `Reset`, which does, in turns. Only a wait whose time was limited
returns false, and none returns true before the first signal. Where every call
of `Signal` has notified, none sleeps while the flag is set. -/
theorem event_loses_nothing {e : Event τ}
    (hs : (eventMachine τ).Reach Machine.anyStep e) :
    e.signalled = e.reset + e.flag.toNat ∧
      OnlyTimedFail e.returned ∧
      (∀ r ∈ e.returned, r.value = true → 0 < e.signalled) ∧
      (e.flag = true → e.notifying = 0 → e.threads.asleep = ∅) := by
  have hinv : e.Balanced := by
    refine hs.invariant ?_ ?_
    · rintro e rfl
      exact ⟨rfl, fun _ hr => absurd hr List.not_mem_nil,
        fun _ hr => absurd hr List.not_mem_nil, fun h => by cases h⟩
    · intro e i e' h _ hstep
      exact h.step hstep
  exact ⟨hinv.changes, hinv.onlyTimed, hinv.afterSignal, hinv.awaited⟩

/-- A thread sleeps, the flag is set, reset and set again before the first call
notifies, and the thread goes on. -/
theorem event_loses_nothing_twice :
    ∃ e : Event Nat,
      (eventMachine Nat).Reach Machine.anyStep e ∧
        e.signalled = 2 ∧ e.reset = 1 ∧ e.returned = [⟨1, false, true⟩] ∧
        e.threads.asleep = ∅ := by
  have hstart : (eventMachine Nat).Reach Machine.anyStep .makeShared :=
    .start rfl
  have hs := hstart.of_run (show (eventMachine Nat).run Machine.anyStep _
    [.wait 1 0, .look 1, .signal, .reset, .signal, .notifyAll, .look 1,
      .notifyAll] = some _ from rfl)
  exact ⟨_, hs, rfl, rfl, rfl, (event_loses_nothing hs).2.2.2 rfl rfl⟩

end AiEngine.Ref
