import Mathlib.Data.Finset.Card
import Mathlib.Data.Finset.Union

/-!
# Threads at a condition variable

A thread that waits for a condition holds the lock while it looks at it, and
goes to sleep in one step with giving the lock back. It is awake again, and
wants the lock, when it is notified, when its time is up, and now and then for
no reason. Only what happens to the threads is here; the condition and what it
is about belong to whoever uses the monitor.

A wakeup is lost if a thread sleeps on while its condition holds and nobody is
left who will look. What rules this out is that for every unit that can be
taken some thread is awake, as long as one sleeps.
-/

namespace AiEngine.Lib

/-- The threads in a wait, and those of them whose time is limited or up. -/
structure Monitor (τ : Type) [DecidableEq τ] where
  awake : Finset τ
  asleep : Finset τ
  timed : Finset τ
  expired : Finset τ
  disjoint : Disjoint awake asleep
  inTime : expired ⊆ timed

namespace Monitor

variable {τ : Type} [DecidableEq τ]

def idle : Monitor τ := ⟨∅, ∅, ∅, ∅, Finset.disjoint_empty_left _, subset_rfl⟩

/-- How a look at the condition ends: the wait returns, or goes on. -/
inductive Look where
  | returned (value : Bool)
  | sleeps
  deriving DecidableEq, Repr

/-- A thread begins to wait. -/
def enter (m : Monitor τ) (t : τ) (timed : Bool) : Option (Monitor τ) :=
  if h : t ∈ m.awake ∨ t ∈ m.asleep then none
  else some {
    awake := insert t m.awake
    asleep := m.asleep
    timed := if timed then insert t m.timed else m.timed.erase t
    expired := m.expired.erase t
    disjoint := Finset.disjoint_insert_left.mpr ⟨(not_or.mp h).2, m.disjoint⟩
    inTime := by
      intro x hx
      obtain ⟨hne, hx⟩ := Finset.mem_erase.mp hx
      have hx := m.inTime hx
      cases timed with
      | false => exact Finset.mem_erase.mpr ⟨hne, hx⟩
      | true => exact Finset.mem_insert_of_mem hx }

/-- A thread is done with its wait. -/
def leave (m : Monitor τ) (t : τ) : Monitor τ :=
  { m with
    awake := m.awake.erase t
    disjoint := m.disjoint.mono_left (Finset.erase_subset _ _) }

def sleep (m : Monitor τ) (t : τ) : Monitor τ :=
  { m with
    awake := m.awake.erase t
    asleep := insert t m.asleep
    disjoint := Finset.disjoint_insert_right.mpr
      ⟨Finset.notMem_erase _ _, m.disjoint.mono_left (Finset.erase_subset _ _)⟩ }

def wake (m : Monitor τ) (t : τ) : Monitor τ :=
  { m with
    awake := insert t m.awake
    asleep := m.asleep.erase t
    disjoint := Finset.disjoint_insert_left.mpr
      ⟨Finset.notMem_erase _ _,
        m.disjoint.mono_right (Finset.erase_subset _ _)⟩ }

/-- A thread has the lock and looks. -/
def look (m : Monitor τ) (t : τ) (condition : Bool) :
    Option (Look × Monitor τ) :=
  if t ∈ m.awake then
    if condition then some (.returned true, m.leave t)
    else if t ∈ m.expired then some (.returned false, m.leave t)
    else some (.sleeps, m.sleep t)
  else none

/-- A thread wakes up for no reason. -/
def stir (m : Monitor τ) (t : τ) : Option (Monitor τ) :=
  if t ∈ m.asleep then some (m.wake t) else none

/-- The time of a thread is up. -/
def expire (m : Monitor τ) (t : τ) : Option (Monitor τ) :=
  if h : t ∈ m.asleep ∧ t ∈ m.timed then
    some { m.wake t with
      expired := insert t m.expired
      inTime := Finset.insert_subset h.2 m.inTime }
  else none

/-- One thread is notified if any sleeps. -/
def notifyOne (m : Monitor τ) : Option τ → Option (Monitor τ)
  | some t => m.stir t
  | none => if m.asleep = ∅ then some m else none

def notifyAll (m : Monitor τ) : Monitor τ :=
  { m with
    awake := m.awake ∪ m.asleep
    asleep := ∅
    disjoint := Finset.disjoint_empty_right _ }

/-! ## What becomes of the threads

One lemma for each thing that can happen to a thread that sleeps or is about
to look at the condition, each with all it changes. -/

variable {m m' : Monitor τ} {t : τ}

theorem enter_spec {timed : Bool} (h : m.enter t timed = some m') :
    m'.asleep = m.asleep ∧ m'.awake = insert t m.awake ∧ t ∉ m.awake := by
  unfold enter at h
  split at h
  · cases h
  · next hout =>
      cases h
      exact ⟨rfl, rfl, fun hin => hout (.inl hin)⟩

theorem stir_spec (h : m.stir t = some m') : t ∈ m.asleep ∧ m' = m.wake t := by
  unfold stir at h
  split at h
  · next hin =>
      cases h
      exact ⟨hin, rfl⟩
  · cases h

theorem expire_spec (h : m.expire t = some m') :
    t ∈ m.asleep ∧ m'.asleep = (m.wake t).asleep ∧
      m'.awake = (m.wake t).awake := by
  unfold expire at h
  split at h
  · next hin =>
      cases h
      exact ⟨hin.1, rfl, rfl⟩
  · cases h

/-- A look that lets the thread through, one that refuses it, and one that
sends it to sleep. -/
theorem look_cases {condition : Bool} {l : Look}
    (h : m.look t condition = some (l, m')) :
    t ∈ m.awake ∧
      ((condition = true ∧ l = .returned true ∧ m' = m.leave t) ∨
        (condition = false ∧ t ∈ m.timed ∧ l = .returned false ∧
          m' = m.leave t) ∨
        (condition = false ∧ l = .sleeps ∧ m' = m.sleep t)) := by
  unfold look at h
  split at h
  · next hin =>
      refine ⟨hin, ?_⟩
      split at h
      · next hcond =>
          cases h
          exact .inl ⟨hcond, rfl, rfl⟩
      · next hcond =>
          have hcond := Bool.eq_false_iff.mpr hcond
          split at h
          · next hexpired =>
              cases h
              exact .inr (.inl ⟨hcond, m.inTime hexpired, rfl, rfl⟩)
          · cases h
            exact .inr (.inr ⟨hcond, rfl, rfl⟩)
  · cases h

/-! ## No unit is left to threads that sleep

As long as a thread sleeps, one is awake for each unit that is there. Every
operation on the threads keeps this, by counting who is awake before and
after. -/

/-- As long as a thread sleeps, one is awake for each of `n` units. -/
def Covers (m : Monitor τ) (n : Nat) : Prop :=
  m.asleep.Nonempty → n ≤ m.awake.card

theorem Covers.idle (n : Nat) : (idle : Monitor τ).Covers n :=
  fun h => absurd h Finset.not_nonempty_empty

theorem Covers.zero (m : Monitor τ) : m.Covers 0 := fun _ => Nat.zero_le _

theorem Covers.enter {n : Nat} {timed : Bool} (hm : m.Covers n)
    (h : m.enter t timed = some m') : m'.Covers n := by
  obtain ⟨hasleep, hawake, hout⟩ := enter_spec h
  intro hsleeps
  rw [hasleep] at hsleeps
  have hcard := hm hsleeps
  rw [hawake, Finset.card_insert_of_notMem hout]
  omega

/-- The thread that leaves has taken a unit. -/
theorem Covers.leave {n : Nat} (hm : m.Covers (n + 1)) (hin : t ∈ m.awake) :
    (m.leave t).Covers n := by
  intro hsleeps
  have hcard := hm hsleeps
  have hpos := Finset.card_pos.mpr ⟨t, hin⟩
  show n ≤ (m.awake.erase t).card
  rw [Finset.card_erase_of_mem hin]
  omega

theorem card_wake (hin : t ∈ m.asleep) :
    (m.wake t).awake.card = m.awake.card + 1 :=
  Finset.card_insert_of_notMem fun hawake =>
    Finset.disjoint_left.mp m.disjoint hawake hin

/-- A thread that is woken covers one more unit. -/
theorem Covers.wake {n : Nat} (hm : m.Covers n) (hin : t ∈ m.asleep) :
    (m.wake t).Covers (n + 1) := by
  intro _
  have hcard := hm ⟨t, hin⟩
  rw [card_wake hin]
  omega

theorem Covers.mono {n k : Nat} (hm : m.Covers n) (hle : k ≤ n) :
    m.Covers k := fun h => Nat.le_trans hle (hm h)

theorem Covers.stir {n : Nat} (hm : m.Covers n) (h : m.stir t = some m') :
    m'.Covers n := by
  obtain ⟨hin, rfl⟩ := stir_spec h
  exact (hm.wake hin).mono (Nat.le_succ n)

theorem Covers.expire {n : Nat} (hm : m.Covers n)
    (h : m.expire t = some m') : m'.Covers n := by
  obtain ⟨hin, hasleep, hawake⟩ := expire_spec h
  have hwake := (hm.wake hin).mono (Nat.le_succ n)
  intro hsleeps
  rw [hasleep] at hsleeps
  rw [hawake]
  exact hwake hsleeps

/-- A notification pays for one more unit. -/
theorem Covers.notifyOne {n : Nat} {notified : Option τ} (hm : m.Covers n)
    (h : m.notifyOne notified = some m') : m'.Covers (n + 1) := by
  cases notified with
  | some t =>
      obtain ⟨hin, rfl⟩ := stir_spec h
      exact hm.wake hin
  | none =>
      simp only [Monitor.notifyOne] at h
      split at h
      · next hempty =>
          cases h
          intro hsleeps
          rw [hempty] at hsleeps
          exact absurd hsleeps Finset.not_nonempty_empty
      · cases h

/-- Where nobody is awake, a unit that can be taken is wanted by nobody. -/
theorem Covers.quiet {n : Nat} (hm : m.Covers n) (hn : 0 < n)
    (hawake : m.awake = ∅) : m.asleep = ∅ := by
  by_contra hsleeps
  have hcard := hm (Finset.nonempty_iff_ne_empty.mpr hsleeps)
  rw [hawake, Finset.card_empty] at hcard
  omega

end Monitor

end AiEngine.Lib
