import Mathlib.Data.Finmap
import Mathlib.Data.Finset.Card

/-!
# Finite tables

A `std::map` is a finite map. Mathlib's `Finmap` has the lookups, the
insertions and the erasures; what is added here is counting: how many keys
lead to one value, and how an update of one key changes that number.
-/

namespace AiEngine.Lib

/-- A finite map without dependent values. -/
abbrev Table (α β : Type) : Type := Finmap fun _ : α => β

namespace Table

variable {α β : Type} [DecidableEq α]

theorem keys_insert (t : Table α β) (k : α) (v : β) :
    (t.insert k v).keys = insert k t.keys := by
  ext x
  rw [Finmap.mem_keys, Finmap.mem_insert, Finset.mem_insert, Finmap.mem_keys]

theorem lookup_insert_if (t : Table α β) (k x : α) (v : β) :
    (t.insert k v).lookup x = if x = k then some v else t.lookup x := by
  split
  · next h => rw [h, Finmap.lookup_insert]
  · next h => rw [Finmap.lookup_insert_of_ne t h]

theorem lookup_erase_if (t : Table α β) (k x : α) :
    (t.erase k).lookup x = if x = k then none else t.lookup x := by
  split
  · next h => rw [h, Finmap.lookup_erase]
  · next h => rw [Finmap.lookup_erase_ne h]

theorem mem_of_lookup {t : Table α β} {k : α} {v : β}
    (h : t.lookup k = some v) : k ∈ t :=
  Finmap.mem_of_lookup_eq_some h

/-! ## Insertion that keeps what is there

`std::map::insert` does nothing where the key is in use. The lemmas say what
this means for the keys, and when a table is empty. -/

/-- `std::map::insert`, which leaves a key that is in use alone. -/
def insertNew (t : Table α β) (k : α) (v : β) : Table α β :=
  if k ∈ t then t else t.insert k v

theorem keys_insertNew (t : Table α β) (k : α) (v : β) :
    (t.insertNew k v).keys = insert k t.keys := by
  unfold insertNew
  split
  · next h =>
      rw [Finset.insert_eq_of_mem]
      exact Finmap.mem_keys.mpr h
  · rw [keys_insert]

theorem insertNew_ne_empty (t : Table α β) (k : α) (v : β) :
    t.insertNew k v ≠ ∅ := by
  intro h
  have hk : k ∈ (t.insertNew k v).keys := by
    rw [keys_insertNew]
    exact Finset.mem_insert_self k _
  rw [h] at hk
  exact absurd hk (by simp)

/-- A table with no keys is the empty one. -/
theorem eq_empty_of_keys {t : Table α β} (h : t.keys = ∅) : t = ∅ := by
  refine Finmap.ext_lookup fun x => ?_
  rw [Finmap.lookup_empty, Finmap.lookup_eq_none, ← Finmap.mem_keys, h]
  exact Finset.notMem_empty x

theorem eq_empty_iff {t : Table α β} : t = ∅ ↔ t.keys = ∅ := by
  refine ⟨fun h => ?_, eq_empty_of_keys⟩
  rw [h]
  exact Finmap.keys_empty

/-- One key is left of a new one where there was nothing but that key. -/
theorem card_keys_insertNew_eq_one (t : Table α β) (k : α) (v : β) :
    (t.insertNew k v).keys.card = 1 ↔ t = ∅ ∨ t.keys = {k} := by
  rw [keys_insertNew, Finset.card_eq_one, eq_empty_iff,
    ← Finset.subset_singleton_iff]
  constructor
  · rintro ⟨a, ha⟩
    have hk : k ∈ ({a} : Finset α) := ha ▸ Finset.mem_insert_self k _
    rw [← Finset.mem_singleton.mp hk] at ha
    exact ha ▸ Finset.subset_insert k _
  · intro hsub
    exact ⟨k, Finset.Subset.antisymm
      (Finset.insert_subset (Finset.mem_singleton_self k) hsub)
      (Finset.singleton_subset_iff.mpr (Finset.mem_insert_self k _))⟩

/-- Taking a key out leaves nothing only of that key. -/
theorem erase_eq_empty_iff (t : Table α β) (k : α) :
    t.erase k = ∅ ↔ t = ∅ ∨ t.keys = {k} := by
  rw [eq_empty_iff, eq_empty_iff, Finmap.keys_erase, Finset.erase_eq_empty_iff]

theorem erase_of_notMem {t : Table α β} {k : α} (h : k ∉ t) :
    t.erase k = t := by
  refine Finmap.ext_lookup fun x => ?_
  rw [lookup_erase_if]
  split
  · next hx => rw [hx, Finmap.lookup_eq_none.mpr h]
  · rfl

/-! ## Counting the keys whose value has a property

The invariants of a table of threads or calls are often that so many of them
are in some state. One update moves the number by one at most, and by how much
depends on the old value and the new one only. -/

variable (p : β → Prop) [DecidablePred p]

/-- The keys that lead to a value with the property. -/
def keysWith (t : Table α β) : Finset α :=
  t.keys.filter fun k => ∃ v ∈ t.lookup k, p v

theorem mem_keysWith {t : Table α β} {k : α} :
    k ∈ keysWith p t ↔ ∃ v, t.lookup k = some v ∧ p v := by
  rw [keysWith, Finset.mem_filter, Finmap.mem_keys]
  refine ⟨fun ⟨_, v, hv, hp⟩ => ⟨v, hv, hp⟩, fun ⟨v, hv, hp⟩ => ?_⟩
  exact ⟨mem_of_lookup hv, v, hv, hp⟩

/-- How many keys lead to a value with the property. -/
def countWith (t : Table α β) : Nat := (keysWith p t).card

theorem countWith_pos {t : Table α β} :
    0 < countWith p t ↔ ∃ k v, t.lookup k = some v ∧ p v := by
  rw [countWith, Finset.card_pos]
  exact ⟨fun ⟨k, hk⟩ => ⟨k, (mem_keysWith p).mp hk⟩,
    fun ⟨k, hk⟩ => ⟨k, (mem_keysWith p).mpr hk⟩⟩

theorem countWith_eq_zero {t : Table α β} :
    countWith p t = 0 ↔ ∀ k v, t.lookup k = some v → ¬ p v := by
  have hpos := countWith_pos p (t := t)
  constructor
  · intro hzero k v hk hp
    have := hpos.mpr ⟨k, v, hk, hp⟩
    omega
  · intro hnone
    refine Nat.eq_zero_of_not_pos fun h => ?_
    obtain ⟨k, v, hk, hp⟩ := hpos.mp h
    exact hnone k v hk hp

theorem countWith_empty : countWith p (∅ : Table α β) = 0 := by
  refine (countWith_eq_zero p).mpr fun k v hk => ?_
  rw [Finmap.lookup_empty] at hk
  cases hk

theorem keysWith_insert (t : Table α β) (k : α) (v : β) :
    keysWith p (t.insert k v) =
      if p v then insert k (keysWith p t) else (keysWith p t).erase k := by
  ext x
  rw [mem_keysWith, lookup_insert_if]
  by_cases hp : p v
  · rw [if_pos hp, Finset.mem_insert, mem_keysWith]
    by_cases hx : x = k
    · simp [hx, hp]
    · simp [hx]
  · rw [if_neg hp, Finset.mem_erase, mem_keysWith]
    by_cases hx : x = k
    · simp [hx, hp]
    · simp [hx]

theorem keysWith_erase (t : Table α β) (k : α) :
    keysWith p (t.erase k) = (keysWith p t).erase k := by
  ext x
  rw [mem_keysWith, lookup_erase_if, Finset.mem_erase, mem_keysWith]
  by_cases hx : x = k
  · simp [hx]
  · simp [hx]

/-- Where at most one key has the property, two such keys are one. -/
theorem eq_of_countWith_le_one {t : Table α β} (h : countWith p t ≤ 1)
    {k l : α} {v w : β} (hk : t.lookup k = some v) (hl : t.lookup l = some w)
    (hv : p v) (hw : p w) : k = l :=
  Finset.card_le_one.mp h k ((mem_keysWith p).mpr ⟨v, hk, hv⟩) l
    ((mem_keysWith p).mpr ⟨w, hl, hw⟩)

/-- One key has the property exactly where no other has it. -/
theorem countWith_eq_one {t : Table α β} {k : α} {v : β}
    (hk : t.lookup k = some v) (hv : p v) :
    countWith p t = 1 ↔ ∀ l w, t.lookup l = some w → p w → l = k := by
  constructor
  · intro hone l w hl hw
    exact eq_of_countWith_le_one p (Nat.le_of_eq hone) hl hk hw hv
  · intro hsole
    have hpos := (countWith_pos p).mpr ⟨k, v, hk, hv⟩
    have hle : countWith p t ≤ 1 := by
      refine Finset.card_le_one.mpr fun a ha b hb => ?_
      obtain ⟨va, hva, hpa⟩ := (mem_keysWith p).mp ha
      obtain ⟨vb, hvb, hpb⟩ := (mem_keysWith p).mp hb
      rw [hsole a va hva hpa, hsole b vb hvb hpb]
    omega

/-- A key that was not counted adds one where its value has the property. -/
theorem countWith_insert_of_not {t : Table α β} {k : α} (v : β)
    (hk : ∀ w, t.lookup k = some w → ¬ p w) :
    countWith p (t.insert k v) = countWith p t + if p v then 1 else 0 := by
  have hnot : k ∉ keysWith p t := fun hmem => by
    obtain ⟨w, hw, hp⟩ := (mem_keysWith p).mp hmem
    exact hk w hw hp
  rw [countWith, keysWith_insert]
  split
  · exact Finset.card_insert_of_notMem hnot
  · rw [Finset.erase_eq_of_notMem hnot, Nat.add_zero, countWith]

theorem countWith_insert {t : Table α β} {k : α} (v : β)
    (hk : t.lookup k = none) :
    countWith p (t.insert k v) = countWith p t + if p v then 1 else 0 :=
  countWith_insert_of_not p v fun _ hw => nomatch hk.symm.trans hw

/-- A key that goes takes one with it where its value had the property. -/
theorem countWith_erase {t : Table α β} {k : α} {v : β}
    (hk : t.lookup k = some v) :
    countWith p (t.erase k) + (if p v then 1 else 0) = countWith p t := by
  rw [countWith, keysWith_erase]
  split
  · next hp =>
      exact Finset.card_erase_add_one ((mem_keysWith p).mpr ⟨v, hk, hp⟩)
  · next hp =>
      rw [Finset.erase_eq_of_notMem, Nat.add_zero, countWith]
      rw [mem_keysWith, hk]
      simpa using hp

/-- A key that gets another value moves its one. -/
theorem countWith_update {t : Table α β} {k : α} {v : β} (w : β)
    (hk : t.lookup k = some v) :
    countWith p (t.insert k w) + (if p v then 1 else 0) =
      countWith p t + if p w then 1 else 0 := by
  have hgone : (t.erase k).lookup k = none := Finmap.lookup_erase ..
  have hsame : t.insert k w = (t.erase k).insert k w := by
    refine Finmap.ext_lookup fun x => ?_
    rw [lookup_insert_if, lookup_insert_if, lookup_erase_if]
    split <;> rfl
  have hout := countWith_erase p hk
  rw [hsame, countWith_insert p w hgone]
  omega

end Table

end AiEngine.Lib
