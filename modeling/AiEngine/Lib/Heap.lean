import Mathlib.Data.List.Basic
import Mathlib.Data.List.Perm.Basic
import Mathlib.Data.List.Sort

/-!
# Heaps as the standard algorithms have them

`make_heap`, `push_heap`, `pop_heap` and `sort_heap` reorder a range by a
comparer. What they promise is all that is said of them here: the elements
stay the same, and what is a heap afterwards. In a heap no element comes
after its parent, which is half way to the front, so that nothing comes after
the front.
-/

namespace AiEngine.Lib

variable {α : Type}

/-- A comparer as the algorithms ask for: a strict weak order. -/
structure StrictWeakOrder (less : α → α → Bool) : Prop where
  asymm : ∀ {x y}, less x y = true → less y x = false
  negTrans : ∀ {x y z}, less x y = false → less y z = false →
    less x z = false

theorem StrictWeakOrder.irrefl {less : α → α → Bool}
    (h : StrictWeakOrder less) (x : α) : less x x = false :=
  Bool.eq_false_iff.mpr fun hx => Bool.eq_false_iff.mp (h.asymm hx) hx

/-- `is_heap`. -/
def IsHeap (less : α → α → Bool) (l : List α) : Prop :=
  ∀ i, 0 < i → ∀ x ∈ l[(i - 1) / 2]?, ∀ y ∈ l[i]?, less x y = false

/-- `is_sorted`. -/
def IsSorted (less : α → α → Bool) (l : List α) : Prop :=
  l.Pairwise fun x y => less y x = false

/-- Nothing comes after the front of a heap. -/
theorem IsHeap.front {less : α → α → Bool} (hless : StrictWeakOrder less)
    {l : List α} (h : IsHeap less l) {x : α} (hx : l[0]? = some x) :
    ∀ y ∈ l, less x y = false := by
  have hall (i : Nat) : ∀ y ∈ l[i]?, less x y = false := by
    induction i using Nat.strongRecOn with
    | ind i ih =>
        intro y hy
        rcases Nat.eq_zero_or_pos i with rfl | hi
        · cases hx.symm.trans hy
          exact hless.irrefl x
        · have hlt : i < l.length := (List.getElem?_eq_some_iff.mp hy).1
          have hparent : (i - 1) / 2 < l.length := by omega
          have hget := List.getElem?_eq_getElem hparent
          exact hless.negTrans (ih _ (by omega) _ hget)
            (h i hi _ hget _ hy)
  intro y hy
  obtain ⟨i, hi⟩ := List.mem_iff_getElem?.mp hy
  exact hall i y hi

/-- The four algorithms and what they promise for one comparer. -/
structure HeapAlgorithms (less : α → α → Bool) where
  makeHeap : List α → List α
  pushHeap : List α → List α
  popHeap : List α → List α
  sortHeap : List α → List α
  makeHeap_perm : ∀ l, (makeHeap l).Perm l
  makeHeap_isHeap : ∀ l, IsHeap less (makeHeap l)
  pushHeap_perm : ∀ l, IsHeap less l.dropLast → (pushHeap l).Perm l
  pushHeap_isHeap : ∀ l, IsHeap less l.dropLast → IsHeap less (pushHeap l)
  popHeap_perm : ∀ l, IsHeap less l → (popHeap l).Perm l
  popHeap_isHeap : ∀ l, IsHeap less l → IsHeap less (popHeap l).dropLast
  popHeap_last : ∀ l, IsHeap less l → (popHeap l).getLast? = l[0]?
  sortHeap_perm : ∀ l, IsHeap less l → (sortHeap l).Perm l
  sortHeap_sorted : ∀ l, IsHeap less l → IsSorted less (sortHeap l)

namespace HeapAlgorithms

variable {less : α → α → Bool} (H : HeapAlgorithms less)

/-- `pop_heap` and then `pop_back`: the front is gone. -/
theorem popHeap_dropLast {l : List α} {x : α} (h : IsHeap less l)
    (hx : l[0]? = some x) : (x :: (H.popHeap l).dropLast).Perm l := by
  have hlast := (H.popHeap_last l h).trans hx
  obtain ⟨ys, hys⟩ := List.getLast?_eq_some_iff.mp hlast
  have hperm := H.popHeap_perm l h
  rw [hys] at hperm ⊢
  rw [List.dropLast_concat]
  exact (List.perm_append_singleton x ys).symm.trans hperm

end HeapAlgorithms

/-! ## Algorithms that sort

A heap may be kept by sorting it. This is not how a library does it, but it
shows that the contract can be met, and it is what the runs on concrete inputs
use. -/

/-- What is sorted backwards is a heap. -/
theorem isHeap_of_pairwise {less : α → α → Bool} {l : List α}
    (h : l.Pairwise fun x y => less x y = false) : IsHeap less l := by
  intro i hi x hx y hy
  obtain ⟨hj, rfl⟩ := List.getElem?_eq_some_iff.mp hx
  obtain ⟨hi', rfl⟩ := List.getElem?_eq_some_iff.mp hy
  exact List.pairwise_iff_getElem.mp h _ _ hj hi' (by omega)

namespace StrictWeakOrder

variable {less : α → α → Bool}

/-- A list with what comes last in front. -/
def sortedDown (less : α → α → Bool) (l : List α) : List α :=
  l.mergeSort fun x y => !less x y

theorem sortedDown_perm (less : α → α → Bool) (l : List α) :
    (sortedDown less l).Perm l := List.mergeSort_perm _ _

theorem pairwise_mergeSort (h : StrictWeakOrder less) (l : List α) :
    (l.mergeSort fun x y => !less x y).Pairwise
      fun x y => less x y = false := by
  have htrans (x y z : α) (hxy : (!less x y) = true)
      (hyz : (!less y z) = true) : (!less x z) = true := by
    rw [Bool.not_eq_true'] at hxy hyz ⊢
    exact h.negTrans hxy hyz
  have htotal (x y : α) : (!less x y || !less y x) = true := by
    cases hxy : less x y with
    | false => rfl
    | true => rw [h.asymm hxy]; rfl
  exact (List.pairwise_mergeSort htrans htotal l).imp fun hxy =>
    (Bool.not_eq_true' _).mp hxy

theorem sortedDown_isHeap (h : StrictWeakOrder less) (l : List α) :
    IsHeap less (sortedDown less l) :=
  isHeap_of_pairwise (h.pairwise_mergeSort l)

/-- The other way round the order is one as well. -/
theorem flip (h : StrictWeakOrder less) :
    StrictWeakOrder fun x y => less y x :=
  ⟨h.asymm, fun hxy hyz => h.negTrans hyz hxy⟩

/-- The algorithms by sorting. -/
def sorting (h : StrictWeakOrder less) : HeapAlgorithms less where
  makeHeap := sortedDown less
  pushHeap := sortedDown less
  popHeap
    | [] => []
    | x :: rest => sortedDown less rest ++ [x]
  sortHeap := sortedDown fun x y => less y x
  makeHeap_perm := sortedDown_perm less
  makeHeap_isHeap := h.sortedDown_isHeap
  pushHeap_perm l _ := sortedDown_perm less l
  pushHeap_isHeap l _ := h.sortedDown_isHeap l
  popHeap_perm l _ := by
    cases l with
    | nil => exact .nil
    | cons x rest =>
        exact (List.perm_append_singleton _ _).trans
          ((sortedDown_perm less rest).cons x)
  popHeap_isHeap l _ := by
    cases l with
    | nil => exact isHeap_of_pairwise .nil
    | cons x rest =>
        rw [List.dropLast_concat]
        exact h.sortedDown_isHeap rest
  popHeap_last l _ := by
    cases l with
    | nil => rfl
    | cons x rest => exact List.getLast?_concat
  sortHeap_perm l _ := sortedDown_perm _ l
  sortHeap_sorted l _ := h.flip.pairwise_mergeSort l

end StrictWeakOrder

end AiEngine.Lib
