/-!
# Outcomes of a C call

A call into C or C++ code ends in one of three ways. It hands back a value,
it returns an error code, or it leaves the language: a read or write outside
an object, a use of a freed one. The third has no result to speak of, so it
gets a constructor of its own instead of an arbitrary value, and "the call
never faults" becomes a statement one can prove.

The monad threads the first and stops at the other two, which is how code
written as a sequence of `if (f() != OK) return code;` reads.
-/

namespace AiEngine.Lib

/-- How a call ends: with a value, with an error code, or outside the
language. -/
inductive Outcome (ε α : Type) where
  | ok (value : α)
  | fail (code : ε)
  | fault
  deriving DecidableEq, Repr

namespace Outcome

variable {ε α β : Type}

def bind (x : Outcome ε α) (f : α → Outcome ε β) : Outcome ε β :=
  match x with
  | .ok a => f a
  | .fail c => .fail c
  | .fault => .fault

/-- The same call with its error codes replaced: what a caller does that
answers every failure of a callee with a code of its own. -/
def mapFail {ε' : Type} (g : ε → ε') (x : Outcome ε α) : Outcome ε' α :=
  match x with
  | .ok a => .ok a
  | .fail c => .fail (g c)
  | .fault => .fault

instance : Monad (Outcome ε) where
  pure := .ok
  bind := bind

@[simp] theorem pure_eq (a : α) : (pure a : Outcome ε α) = .ok a := rfl

@[simp] theorem ok_bind (a : α) (f : α → Outcome ε β) :
    (Outcome.ok a >>= f) = f a := rfl

@[simp] theorem fail_bind (c : ε) (f : α → Outcome ε β) :
    ((Outcome.fail c : Outcome ε α) >>= f) = .fail c := rfl

@[simp] theorem fault_bind (f : α → Outcome ε β) :
    ((Outcome.fault : Outcome ε α) >>= f) = .fault := rfl

instance : LawfulMonad (Outcome ε) :=
  LawfulMonad.mk' _ (by intro _ x; cases x <;> rfl) (fun _ _ => rfl)
    (by intro _ _ _ x _ _; cases x <;> rfl)

@[simp] theorem mapFail_ok {ε' : Type} (g : ε → ε') (a : α) :
    (Outcome.ok a : Outcome ε α).mapFail g = .ok a := rfl

theorem mapFail_eq_ok {ε' : Type} {g : ε → ε'} {x : Outcome ε α} {a : α} :
    x.mapFail g = .ok a ↔ x = .ok a := by
  cases x <;> simp [mapFail]

/-- A sequence succeeds exactly when its head does and the rest does on what
the head handed over. -/
theorem bind_eq_ok {x : Outcome ε α} {f : α → Outcome ε β} {b : β} :
    (x >>= f) = .ok b ↔ ∃ a, x = .ok a ∧ f a = .ok b := by
  cases x <;> simp

/-! ## The codes of a call

What a composed call can fail with is what one of its parts can fail with. -/

/-- A call that fails does so with a code of these. -/
def FailsIn (P : ε → Prop) (x : Outcome ε α) : Prop := ∀ c, x = .fail c → P c

namespace FailsIn

variable {P : ε → Prop} {x : Outcome ε α}

theorem ok (a : α) : FailsIn P (.ok a : Outcome ε α) := nofun

theorem fault : FailsIn P (.fault : Outcome ε α) := nofun

theorem fail {c : ε} (h : P c) : FailsIn P (.fail c : Outcome ε α) := by
  rintro _ ⟨⟩
  exact h

theorem bind {f : α → Outcome ε β} (hx : FailsIn P x)
    (hf : ∀ a, FailsIn P (f a)) : FailsIn P (x >>= f) := by
  cases x with
  | ok a => exact hf a
  | fail c => exact .fail (hx c rfl)
  | fault => exact .fault

theorem mapFail {ε' : Type} {g : ε → ε'} {Q : ε' → Prop}
    (hx : FailsIn P x) (hg : ∀ c, P c → Q (g c)) : FailsIn Q (x.mapFail g) := by
  cases x with
  | ok a => exact .ok a
  | fail c => exact .fail (hg c (hx c rfl))
  | fault => exact .fault

end FailsIn

/-! ## Two calls side by side

Two computations are related where they end in the same way and related
values. The relation goes through `bind`, so that two functions with the same
steps need no more than their steps compared. -/

/-- Two calls end the same way: with related values, with related codes, or
both outside the language. -/
inductive Rel {ε' : Type} (E : ε → ε' → Prop) (R : α → β → Prop) :
    Outcome ε α → Outcome ε' β → Prop where
  | ok {a : α} {b : β} (h : R a b) : Rel E R (.ok a) (.ok b)
  | fail {c : ε} {d : ε'} (h : E c d) : Rel E R (.fail c) (.fail d)
  | fault : Rel E R .fault .fault

namespace Rel

variable {ε' : Type} {γ δ : Type} {E : ε → ε' → Prop} {R : α → β → Prop}
  {S : γ → δ → Prop} {x : Outcome ε α} {y : Outcome ε' β}

/-- A call ends as it does itself. -/
theorem same {E : ε → ε → Prop} (hE : ∀ c, E c c) (x : Outcome ε α) :
    Rel E Eq x x := by
  cases x with
  | ok a => exact .ok rfl
  | fail c => exact .fail (hE c)
  | fault => exact .fault

/-- Related sequences: related heads, and related rests on related values. -/
theorem bind {f : α → Outcome ε γ} {g : β → Outcome ε' δ} (h : Rel E R x y)
    (hfg : ∀ a b, R a b → Rel E S (f a) (g b)) :
    Rel E S (x >>= f) (y >>= g) := by
  cases h with
  | ok h => exact hfg _ _ h
  | fail h => exact .fail h
  | fault => exact .fault

/-- Related calls stay related when the codes of one are replaced by related
ones. -/
theorem mapFail {ε'' : Type} {E' : ε'' → ε' → Prop} {k : ε → ε''}
    (h : Rel E R x y) (hk : ∀ c d, E c d → E' (k c) d) :
    Rel E' R (x.mapFail k) y := by
  cases h with
  | ok h => exact .ok h
  | fail h => exact .fail (hk _ _ h)
  | fault => exact .fault

end Rel

end Outcome

end AiEngine.Lib
