import Mathlib.Data.Nat.Basic
import Mathlib.Tactic.Ring

/-!
# Little-endian words and bounded memory

Two small tools every byte-level format needs. `leBytes` and `leNat` are the
fixed-width little-endian image of a number and its inverse; `store` and
`load` are a write into and a read out of a block of memory that refuse to
leave the block, so that an access out of bounds shows up as `none`.
-/

namespace AiEngine.Lib

/-! ## Little-endian words

A word of `n` bytes, lowest byte first, as a list of bytes and back. Writing
keeps what fits into the word, and any `n` bytes are the word of one number
below `2 ^ (8 * n)`. -/

/-- The `n` low bytes of `x`, least significant first. -/
def leBytes : Nat → Nat → List UInt8
  | 0, _ => []
  | n + 1, x => UInt8.ofNat x :: leBytes n (x / 256)

/-- The number a little-endian byte string spells. -/
def leNat : List UInt8 → Nat
  | [] => 0
  | b :: bs => b.toNat + 256 * leNat bs

@[simp] theorem length_leBytes (n x : Nat) : (leBytes n x).length = n := by
  induction n generalizing x with
  | zero => rfl
  | succ n ih => simp only [leBytes, List.length_cons, ih]

theorem leNat_lt (bs : List UInt8) : leNat bs < 256 ^ bs.length := by
  induction bs with
  | nil => simp [leNat]
  | cons b bs ih =>
      have hb : b.toNat < 256 := b.toNat_lt
      simp only [leNat, List.length_cons, pow_succ]
      omega

/-- Reading back what was written, for a number the width can hold. -/
theorem leNat_leBytes {n x : Nat} (h : x < 256 ^ n) :
    leNat (leBytes n x) = x := by
  induction n generalizing x with
  | zero =>
      rw [pow_zero] at h
      simp only [leBytes, leNat]
      omega
  | succ n ih =>
      have hx : x / 256 < 256 ^ n := by
        rw [pow_succ] at h
        omega
      simp only [leBytes, leNat, ih hx, UInt8.toNat_ofNat']
      omega

/-- Writing back what was read: a byte string is the image of its value. -/
theorem leBytes_leNat (bs : List UInt8) :
    leBytes bs.length (leNat bs) = bs := by
  induction bs with
  | nil => rfl
  | cons b bs ih =>
      have hb : b.toNat < 256 := b.toNat_lt
      have hdiv : (b.toNat + 256 * leNat bs) / 256 = leNat bs := by omega
      have hlow : UInt8.ofNat (b.toNat + 256 * leNat bs) = b := by
        apply UInt8.toNat_inj.mp
        rw [UInt8.toNat_ofNat']
        omega
      simp only [List.length_cons, leBytes, leNat, hdiv, hlow, ih]

/-! ## Bounded reads and writes

An array is a list of cells, and a range of it is read or overwritten only
where it is all there: outside the array there is nothing to read. A write
changes its own range and no other, so that a read elsewhere finds what it
found before. -/

variable {α : Type}

/-- Overwrite `bs.length` cells of a block from `pos` on; `none` when the
range leaves the block. -/
def store (mem : List α) (pos : Nat) (bs : List α) : Option (List α) :=
  if pos + bs.length ≤ mem.length then
    some (mem.take pos ++ bs ++ mem.drop (pos + bs.length))
  else none

/-- Read `n` cells of a block from `pos` on; `none` when the range leaves
the block. -/
def load (mem : List α) (pos n : Nat) : Option (Vector α n) :=
  if h : pos + n ≤ mem.length then
    some ⟨((mem.drop pos).take n).toArray, by simp; omega⟩
  else none

theorem store_eq_none {mem : List α} {pos : Nat} {bs : List α} :
    store mem pos bs = none ↔ mem.length < pos + bs.length := by
  unfold store
  split <;> simp <;> omega

theorem store_isSome {mem : List α} {pos : Nat} (bs : List α)
    (h : pos + bs.length ≤ mem.length) :
    ∃ mem', store mem pos bs = some mem' :=
  ⟨_, if_pos h⟩

/-- What a successful write leaves: the same size, and the cells up to the
end of the written range are the old prefix followed by the new cells. -/
theorem store_spec {mem mem' : List α} {pos : Nat} {bs : List α}
    (h : store mem pos bs = some mem') :
    mem'.length = mem.length ∧
      mem'.take (pos + bs.length) = mem.take pos ++ bs := by
  unfold store at h
  split at h
  · next hle =>
      cases h
      have hpos : (mem.take pos ++ bs).length = pos + bs.length := by
        simp only [List.length_append, List.length_take]
        omega
      refine ⟨?_, ?_⟩
      · simp only [List.length_append, List.length_take, List.length_drop]
        omega
      · rw [← hpos, List.take_left']
        rfl
  · cases h

/-- From some place on, what is there up to the end of the cells that were
written. -/
theorem take_drop_write (mem bs : List α) {c pos : Nat} (hc : c ≤ pos)
    (hpos : pos ≤ mem.length) :
    ((mem.take pos ++ bs ++ mem.drop (pos + bs.length)).drop c).take
        (pos - c + bs.length) = (mem.drop c).take (pos - c) ++ bs := by
  have hlen : (mem.take pos).length = pos := by
    rw [List.length_take]
    omega
  rw [List.append_assoc, List.drop_append_of_le_length (by omega),
    List.drop_take, ← List.append_assoc, List.take_left']
  rw [List.length_append, List.length_take, List.length_drop]
  omega

theorem load_eq_none {mem : List α} {pos n : Nat} :
    load mem pos n = none ↔ mem.length < pos + n := by
  unfold load
  split <;> simp <;> omega

theorem load_isSome {mem : List α} {pos n : Nat} (h : pos + n ≤ mem.length) :
    ∃ v, load mem pos n = some v :=
  ⟨_, dif_pos h⟩

/-- What a successful read hands over: the cells of the range. -/
theorem load_spec {mem : List α} {pos n : Nat} {v : Vector α n}
    (h : load mem pos n = some v) :
    pos + n ≤ mem.length ∧ v.toList = (mem.drop pos).take n := by
  unfold load at h
  split at h
  · next hle => cases h; exact ⟨hle, by simp⟩
  · cases h

/-- What was read within one block is written within another, and the rest of
that stays. -/
theorem load_store (dest src : List α) {dpos spos n : Nat}
    (hsrc : spos + n ≤ src.length) (hdest : dpos + n ≤ dest.length) :
    ∃ v, load src spos n = some v ∧
      store dest dpos v.toList =
        some (dest.take dpos ++ (src.drop spos).take n ++
          dest.drop (dpos + n)) := by
  obtain ⟨v, hv⟩ := load_isSome hsrc
  have hlen : v.toList.length = n := Vector.length_toList
  refine ⟨v, hv, ?_⟩
  rw [store, hlen, if_pos hdest, (load_spec hv).2]

/-- A loop of accesses that keeps an invariant, under which none of them
leaves its block, runs to its end. -/
theorem foldlM_isSome {β : Type} {f : β → α → Option β} {inv : β → Prop}
    {l : List α}
    (hf : ∀ b, inv b → ∀ x ∈ l, ∃ b', f b x = some b' ∧ inv b') {b : β}
    (hb : inv b) : ∃ b', l.foldlM f b = some b' ∧ inv b' := by
  induction l generalizing b with
  | nil => exact ⟨b, rfl, hb⟩
  | cons x l ih =>
      obtain ⟨b', hstep, hb'⟩ := hf b hb x (.head _)
      obtain ⟨b'', hrest, hb''⟩ :=
        ih (fun c hc y hy => hf c hc y (.tail _ hy)) hb'
      refine ⟨b'', ?_, hb''⟩
      rw [List.foldlM_cons, hstep]
      exact hrest

end AiEngine.Lib
