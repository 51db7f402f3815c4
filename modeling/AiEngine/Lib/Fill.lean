import AiEngine.Lib.Bytes

/-!
# Filling a block in a loop

A loop that computes cell after cell of a block, each in the place of its
index, leaves what it computed and the rest of the block, whatever was in the
cells before.
-/

namespace AiEngine.Lib

variable {α σ : Type}

theorem length_flatMap_range {f : Nat → List α} {n k : Nat}
    (hf : ∀ i < n, (f i).length = k) :
    ((List.range n).flatMap f).length = n * k := by
  induction n with
  | zero => simp
  | succ n ih =>
      have hlast := hf n (Nat.lt_succ_self n)
      have hrest := ih fun i hi => hf i (Nat.lt_succ_of_lt hi)
      rw [List.range_succ, List.flatMap_append, List.length_append, hrest]
      simp [hlast, Nat.succ_mul]

/-- A write behind what was written. -/
theorem store_append (pre mem bs : List α) (hroom : bs.length ≤ mem.length) :
    store (pre ++ mem) pre.length bs =
      some (pre ++ bs ++ mem.drop bs.length) := by
  have hfit : pre.length + bs.length ≤ (pre ++ mem).length := by
    rw [List.length_append]
    omega
  rw [store, if_pos hfit, List.take_left', List.drop_append]
  · simp
  · rfl

/-- The loop over `n` cells of `k` elements. `e` is how its state holds the
block. -/
theorem foldlM_fill {e : List α → σ} {step : σ → Nat → Option σ}
    {f : Nat → List α} {n k : Nat} (hf : ∀ i < n, (f i).length = k)
    (hstep : ∀ i < n, ∀ mem, step (e mem) i =
      (store mem (i * k) (f i)).map e)
    {mem : List α} (hroom : n * k ≤ mem.length) :
    (List.range n).foldlM step (e mem) =
      some (e ((List.range n).flatMap f ++ mem.drop (n * k))) := by
  induction n with
  | zero => simp
  | succ n ih =>
      have hlast := hf n (Nat.lt_succ_self n)
      have hlen := length_flatMap_range fun i hi =>
        hf i (Nat.lt_succ_of_lt hi)
      rw [Nat.succ_mul] at hroom ⊢
      have hrest := ih (fun i hi => hf i (Nat.lt_succ_of_lt hi))
        (fun i hi => hstep i (Nat.lt_succ_of_lt hi)) (by omega)
      have hwrite := store_append ((List.range n).flatMap f)
        (mem.drop (n * k)) (f n) (by
          rw [hlast, List.length_drop]
          omega)
      rw [hlen, hlast, List.drop_drop] at hwrite
      rw [List.range_succ, List.foldlM_append, hrest, Option.bind_eq_bind,
        Option.bind_some, List.foldlM_cons, hstep n (Nat.lt_succ_self n),
        hwrite]
      simp

/-- A block of exactly these cells is overwritten altogether. -/
theorem foldlM_fill_all {e : List α → σ} {step : σ → Nat → Option σ}
    {f : Nat → List α} {n k : Nat} (hf : ∀ i < n, (f i).length = k)
    (hstep : ∀ i < n, ∀ mem, step (e mem) i =
      (store mem (i * k) (f i)).map e)
    {mem : List α} (hlen : mem.length = n * k) :
    (List.range n).foldlM step (e mem) =
      some (e ((List.range n).flatMap f)) := by
  rw [foldlM_fill hf hstep (Nat.le_of_eq hlen.symm), ← hlen,
    List.drop_length, List.append_nil]

end AiEngine.Lib
