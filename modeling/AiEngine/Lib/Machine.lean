/-!
# Runs of a machine

A machine takes labelled steps, each of which may be impossible in a state.
`Reach` collects the states its runs reach when every step of the run meets
a condition on the state it is taken from; the condition that is always met
gives all runs. An invariant is proved once per step and then holds of every
state reached.
-/

namespace AiEngine.Lib

/-- A transition system: where it starts, and what a step leads to. -/
structure Machine (σ ι : Type) where
  start : σ → Prop
  step : σ → ι → Option σ

namespace Machine

variable {σ ι : Type}

/-- The states of the runs whose steps all meet `ok`. -/
inductive Reach (m : Machine σ ι) (ok : σ → ι → Prop) : σ → Prop where
  | start {s : σ} (hs : m.start s) : Reach m ok s
  | step {s s' : σ} {i : ι} (hs : Reach m ok s) (hok : ok s i)
      (hstep : m.step s i = some s') : Reach m ok s'

/-- The condition every step meets. -/
def anyStep : σ → ι → Prop := fun _ _ => True

instance (s : σ) (i : ι) : Decidable (anyStep s i) :=
  inferInstanceAs (Decidable True)

theorem Reach.invariant {m : Machine σ ι} {ok : σ → ι → Prop}
    {inv : σ → Prop} (hstart : ∀ s, m.start s → inv s)
    (hstep : ∀ s i s', inv s → ok s i → m.step s i = some s' → inv s')
    {s : σ} (hs : m.Reach ok s) : inv s := by
  induction hs with
  | start hs => exact hstart _ hs
  | step _ hok hrun ih => exact hstep _ _ _ ih hok hrun

/-- An invariant whose step needs another one, proved before. -/
theorem Reach.invariant_of {m : Machine σ ι} {ok : σ → ι → Prop}
    {base inv : σ → Prop} (hbase : ∀ s, m.Reach ok s → base s)
    (hstart : ∀ s, m.start s → inv s)
    (hstep : ∀ s i s', base s → inv s → ok s i → m.step s i = some s' →
      inv s') {s : σ} (hs : m.Reach ok s) : inv s := by
  induction hs with
  | start hs => exact hstart _ hs
  | step hs hok hrun ih => exact hstep _ _ _ (hbase _ hs) ih hok hrun

/-- Fewer conditions on the steps, more runs. -/
theorem Reach.mono {m : Machine σ ι} {ok ok' : σ → ι → Prop}
    (hle : ∀ s i, ok s i → ok' s i) {s : σ} (hs : m.Reach ok s) :
    m.Reach ok' s := by
  induction hs with
  | start hs => exact .start hs
  | step _ hok hrun ih => exact .step ih (hle _ _ hok) hrun

/-- Take the listed steps, if each is possible and meets the condition. -/
def run (m : Machine σ ι) (ok : σ → ι → Prop) [∀ s i, Decidable (ok s i)] :
    σ → List ι → Option σ
  | s, [] => some s
  | s, i :: is =>
      if ok s i then
        match m.step s i with
        | some s' => m.run ok s' is
        | none => none
      else none

theorem run_append (m : Machine σ ι) (ok : σ → ι → Prop)
    [∀ s i, Decidable (ok s i)] (is js : List ι) :
    ∀ s, m.run ok s (is ++ js) = (m.run ok s is).bind (m.run ok · js) := by
  induction is with
  | nil => exact fun _ => rfl
  | cons i is ih =>
      intro s
      simp only [List.cons_append, run]
      split
      · split
        · exact ih _
        · rfl
      · rfl

/-- What a listed run leads to is reached. -/
theorem Reach.of_run {m : Machine σ ι} {ok : σ → ι → Prop}
    [∀ s i, Decidable (ok s i)] {is : List ι} :
    ∀ {s s' : σ}, m.Reach ok s → m.run ok s is = some s' → m.Reach ok s' := by
  induction is with
  | nil =>
      intro s s' hs hrun
      cases hrun
      exact hs
  | cons i is ih =>
      intro s s' hs hrun
      simp only [run] at hrun
      split at hrun
      · next hok =>
          split at hrun
          · next s₁ hstep => exact ih (.step hs hok hstep) hrun
          · cases hrun
      · cases hrun

end Machine

/-! ## Machines that answer

Where a call has an answer, a relation between the states of two machines
carries over whole sequences of calls, answers included, once it carries over
one call. -/

section Answers

variable {σ τ ι α : Type}

/-- Make the calls one after the other: what each answers, and what they
leave. -/
def answers (call : σ → ι → α × σ) : σ → List ι → List α × σ
  | s, [] => ([], s)
  | s, i :: is =>
      ((call s i).1 :: (answers call (call s i).2 is).1,
        (answers call (call s i).2 is).2)

/-- Two machines that answer each call alike, in states that belong together,
answer all calls alike. -/
theorem answers_simulation {call : σ → ι → α × σ} {call' : τ → ι → α × τ}
    {rel : σ → τ → Prop}
    (hcall : ∀ s t i, rel s t → (call s i).1 = (call' t i).1 ∧
      rel (call s i).2 (call' t i).2) {s : σ} {t : τ} (hst : rel s t)
    (is : List ι) :
    (answers call s is).1 = (answers call' t is).1 ∧
      rel (answers call s is).2 (answers call' t is).2 := by
  induction is generalizing s t with
  | nil => exact ⟨rfl, hst⟩
  | cons i is ih =>
      obtain ⟨hanswer, hnext⟩ := hcall s t i hst
      obtain ⟨hrest, hlast⟩ := ih hnext
      exact ⟨List.cons_eq_cons.mpr ⟨hanswer, hrest⟩, hlast⟩

end Answers

end AiEngine.Lib
