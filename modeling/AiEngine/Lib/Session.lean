import AiEngine.Lib.Outcome

/-!
# Sessions

A session makes one call after the other, as long as each returns. What a
caller can see of it are the answers, so one implementation stands for another
where each call answers alike in states that belong together. An
implementation may besides give up at any call with one error: then the
session ends there.
-/

namespace AiEngine.Lib

variable {ε σ τ ι α : Type}

/-- Make the calls: what they answer, and the state after them. -/
def session (call : σ → ι → Outcome ε (α × σ)) :
    σ → List ι → Outcome ε (List α × σ)
  | s, [] => .ok ([], s)
  | s, i :: is => do
      let (answer, s) ← call s i
      let (answers, s) ← session call s is
      .ok (answer :: answers, s)

/-- What both sides of a call answer, and states that belong together. -/
def Alike (rel : σ → τ → Prop) : α × σ → α × τ → Prop :=
  fun x y => x.1 = y.1 ∧ rel x.2 y.2

/-- The one gives up with `e`, or both end alike. -/
def Follows (e : ε) (rel : σ → τ → Prop) (x : Outcome ε (α × σ))
    (y : Outcome ε (α × τ)) : Prop :=
  x = .fail e ∨ Outcome.Rel (fun _ _ => False) (Alike rel) x y

theorem Follows.ok {e : ε} {rel : σ → τ → Prop} {s : σ} {t : τ} (answer : α)
    (hst : rel s t) : Follows e rel (.ok (answer, s)) (.ok (answer, t)) :=
  .inr (.ok ⟨rfl, hst⟩)

theorem Follows.fault {e : ε} {rel : σ → τ → Prop} :
    Follows e rel (.fault : Outcome ε (α × σ)) .fault :=
  .inr .fault

/-- A call that ends well is followed by one that does. -/
theorem Follows.of_ok {e : ε} {rel : σ → τ → Prop} {answer : α} {s : σ}
    {y : Outcome ε (α × τ)} (h : Follows e rel (.ok (answer, s)) y) :
    ∃ t, y = .ok (answer, t) ∧ rel s t := by
  rcases h with hfail | hrel
  · cases hfail
  · cases hrel with
    | @ok _ b hab =>
        obtain ⟨answer', t⟩ := b
        obtain ⟨hanswer, hst⟩ := hab
        obtain rfl : answer = answer' := hanswer
        exact ⟨t, rfl, hst⟩

theorem Follows.bind {β : Type} {e : ε} {rel : σ → τ → Prop}
    {rel' : σ → τ → Prop} {x : Outcome ε (α × σ)} {y : Outcome ε (α × τ)}
    {f : α × σ → Outcome ε (β × σ)} {g : α × τ → Outcome ε (β × τ)}
    (hxy : Follows e rel x y)
    (hfg : ∀ a s t, rel s t → Follows e rel' (f (a, s)) (g (a, t))) :
    Follows e rel' (x >>= f) (y >>= g) := by
  rcases hxy with hfail | hrel
  · rw [hfail]
    exact .inl rfl
  · cases hrel with
    | @ok a b hab =>
        obtain ⟨answer, s⟩ := a
        obtain ⟨answer', t⟩ := b
        obtain ⟨hanswer, hst⟩ := hab
        obtain rfl : answer = answer' := hanswer
        exact hfg _ _ _ hst
    | fail h => exact h.elim
    | fault => exact .inr .fault

/-- Calls that follow each other make sessions that do. -/
theorem session_follows {call : σ → ι → Outcome ε (α × σ)}
    {call' : τ → ι → Outcome ε (α × τ)} {e : ε} {rel : σ → τ → Prop}
    (hcall : ∀ s t i, rel s t → Follows e rel (call s i) (call' t i))
    (is : List ι) {s : σ} {t : τ} (hst : rel s t) :
    Follows e rel (session call s is) (session call' t is) := by
  induction is generalizing s t with
  | nil => exact .ok [] hst
  | cons i is ih =>
      refine (hcall s t i hst).bind fun answer s t hst => ?_
      exact (ih hst).bind fun answers s t hst => .ok _ hst

end AiEngine.Lib
