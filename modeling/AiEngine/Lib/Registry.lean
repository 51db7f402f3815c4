import AiEngine.Lib.Table

/-!
# Registries of objects

A registry owns objects and finds them by keys. Objects are numbered as they
are made; the index leads from a key to the number of an object, and what is
in the table of objects has not been deleted. Only an object that is listed
is ever deleted, and its entry goes with it, so an entry never leads to a
deleted object.

Pointers that were handed out know nothing of that. They are safe as long as
what is deleted is in nobody's hand.
-/

namespace AiEngine.Lib

open Table

variable {κ ο γ : Type} [DecidableEq κ]

/-- The index leads to live objects, each under one key, and new numbers are
new. -/
structure Registry (index : Table κ Nat) (object : Table Nat ο) (num : Nat) :
    Prop where
  listed : ∀ k n, index.lookup k = some n → n ∈ object
  single : ∀ k l n, index.lookup k = some n → index.lookup l = some n → k = l
  below : ∀ n, n ∈ object → n < num

namespace Registry

variable {index : Table κ Nat} {object : Table Nat ο} {num : Nat}

theorem empty : Registry (∅ : Table κ Nat) (∅ : Table Nat ο) num where
  listed := fun _ _ h => by cases (Finmap.lookup_empty _).symm.trans h
  single := fun _ _ _ h => by cases (Finmap.lookup_empty _).symm.trans h
  below := fun _ h => absurd h Finmap.notMem_empty

theorem lt (h : Registry index object num) {k : κ} {n : Nat}
    (hk : index.lookup k = some n) : n < num :=
  h.below n (h.listed k n hk)

/-- A new object under a key. One that was there before stays an object, but
is not listed any longer. -/
theorem insert (h : Registry index object num) (k : κ) (o : ο) :
    Registry (index.insert k num) (object.insert num o) (num + 1) where
  listed := by
    intro l n hl
    rw [lookup_insert_if] at hl
    rw [Finmap.mem_insert]
    split at hl
    · exact .inl (Option.some.inj hl).symm
    · exact .inr (h.listed l n hl)
  single := by
    intro l m n hl hm
    rw [lookup_insert_if] at hl hm
    split at hl <;> split at hm
    · next hlk hmk => rw [hlk, hmk]
    · next hlk hmk =>
        have hlt := h.lt hm
        rw [← Option.some.inj hl] at hlt
        exact absurd hlt (Nat.lt_irrefl _)
    · next hlk hmk =>
        have hlt := h.lt hl
        rw [← Option.some.inj hm] at hlt
        exact absurd hlt (Nat.lt_irrefl _)
    · exact h.single l m n hl hm
  below := by
    intro n hn
    rcases Finmap.mem_insert.mp hn with rfl | hn
    · exact Nat.lt_succ_self _
    · exact Nat.lt_succ_of_lt (h.below n hn)

/-- A listed object is deleted with its entry. -/
theorem erase (h : Registry index object num) {k : κ} {n : Nat}
    (hk : index.lookup k = some n) :
    Registry (index.erase k) (object.erase n) num where
  listed := by
    intro l m hl
    rw [lookup_erase_if] at hl
    split at hl
    · cases hl
    · next hlk =>
        rw [Finmap.mem_erase]
        refine ⟨fun hmn => hlk ?_, h.listed l m hl⟩
        exact h.single l k n (hmn ▸ hl) hk
  single := by
    intro l m n hl hm
    rw [lookup_erase_if] at hl hm
    split at hl
    · cases hl
    · split at hm
      · cases hm
      · exact h.single l m n hl hm
  below := fun m hm => h.below m (Finmap.mem_erase.mp hm).2

/-- An object that is there changes. -/
theorem update (h : Registry index object num) {n : Nat} (hn : n ∈ object)
    (o : ο) : Registry index (object.insert n o) num where
  listed := fun k m hk => Finmap.mem_insert.mpr (.inr (h.listed k m hk))
  single := h.single
  below := by
    intro m hm
    rcases Finmap.mem_insert.mp hm with rfl | hm
    · exact h.below _ hn
    · exact h.below m hm

/-! ### What a key finds

A key is affected by what is done under it, and by nothing that is done under
another. -/

/-- The object a key finds. -/
def find (index : Table κ Nat) (object : Table Nat ο) (k : κ) : Option ο :=
  (index.lookup k).bind object.lookup

variable {k l : κ} {n : Nat}

/-- An object that is not what a key leads to may be any. -/
theorem find_congr {index' : Table κ Nat} {object' : Table Nat ο}
    (hindex : index'.lookup l = index.lookup l)
    (hobject : ∀ m, index.lookup l = some m →
      object'.lookup m = object.lookup m) :
    find index' object' l = find index object l := by
  unfold find
  rw [hindex]
  cases hm : index.lookup l with
  | none => rfl
  | some m => rw [Option.bind_some, Option.bind_some, hobject m hm]

theorem find_insert (h : Registry index object num) (o : ο) (hne : l ≠ k) :
    find (index.insert k num) (object.insert num o) l =
      find index object l := by
  refine find_congr (by rw [lookup_insert_if, if_neg hne]) fun m hm => ?_
  rw [lookup_insert_if, if_neg (Nat.ne_of_lt (h.lt hm))]

theorem find_erase (h : Registry index object num)
    (hk : index.lookup k = some n) (hne : l ≠ k) :
    find (index.erase k) (object.erase n) l = find index object l := by
  refine find_congr (by rw [lookup_erase_if, if_neg hne]) fun m hm => ?_
  have hmn : m ≠ n := fun heq => hne (h.single l k n (heq ▸ hm) hk)
  rw [lookup_erase_if, if_neg hmn]

theorem find_update (h : Registry index object num)
    (hk : index.lookup k = some n) (o : ο) (hne : l ≠ k) :
    find index (object.insert n o) l = find index object l := by
  refine find_congr rfl fun m hm => ?_
  have hmn : m ≠ n := fun heq => hne (h.single l k n (heq ▸ hm) hk)
  rw [lookup_insert_if, if_neg hmn]

end Registry

/-! ## Pointers that were handed out

A pointer that somebody holds pins its entry: as long as it is held, the entry
is found under its key and is the same. -/

/-- Nobody has a deleted object in hand. -/
def Pinned (holder : Table Nat γ) (hand : γ → Option Nat)
    (object : Table Nat ο) : Prop :=
  ∀ c g n, holder.lookup c = some g → hand g = some n → n ∈ object

namespace Pinned

variable {holder : Table Nat γ} {hand : γ → Option Nat} {object : Table Nat ο}

theorem empty : Pinned (∅ : Table Nat γ) hand object :=
  fun _ _ _ h => by cases (Finmap.lookup_empty _).symm.trans h

/-- A holder takes something else in hand, or nothing. -/
theorem hold (h : Pinned holder hand object) {c : Nat} {g : γ}
    (hg : ∀ n, hand g = some n → n ∈ object) :
    Pinned (holder.insert c g) hand object := by
  intro d g' n hd hn
  rw [lookup_insert_if] at hd
  split at hd
  · cases hd
    exact hg n hn
  · exact h d g' n hd hn

theorem release (h : Pinned holder hand object) (c : Nat) :
    Pinned (holder.erase c) hand object := by
  intro d g n hd hn
  rw [lookup_erase_if] at hd
  split at hd
  · cases hd
  · exact h d g n hd hn

theorem insert (h : Pinned holder hand object) (n : Nat) (o : ο) :
    Pinned holder hand (object.insert n o) :=
  fun c g m hc hm => Finmap.mem_insert.mpr (.inr (h c g m hc hm))

/-- An object goes that is in nobody's hand. -/
theorem erase (h : Pinned holder hand object) {n : Nat}
    (hfree : ∀ c g, holder.lookup c = some g → hand g ≠ some n) :
    Pinned holder hand (object.erase n) := by
  intro c g m hc hm
  rw [Finmap.mem_erase]
  exact ⟨fun hmn => hfree c g hc (hmn ▸ hm), h c g m hc hm⟩

end Pinned

end AiEngine.Lib
