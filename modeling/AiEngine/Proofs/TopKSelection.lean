import AiEngine.Ref.IcOutput

/-!
# The best scores are selected

`heapComparer` puts the worst of the selected scores in front of the heap.
So the one comparison with the front decides: a score that is no better than
the worst selected one stays out, and a better one takes its place. Either
way what is selected are the best scores of those that were seen, with ties
kept by whoever was there first.
-/

namespace AiEngine.Ref

open AiEngine.Lib

theorem heapComparer_eq_false {x y : IcItem} :
    heapComparer x y = false ↔ x.2 ≤ y.2 := by
  rw [heapComparer, decide_eq_false_iff_not, Int32.not_lt]

theorem heapComparer_strictWeakOrder : StrictWeakOrder heapComparer where
  asymm h :=
    heapComparer_eq_false.mpr (Int32.le_of_lt (of_decide_eq_true h))
  negTrans hxy hyz :=
    heapComparer_eq_false.mpr (Int32.le_trans (heapComparer_eq_false.mp hxy)
      (heapComparer_eq_false.mp hyz))

/-- The best `k` of the scores seen, with the index of each as its label. -/
structure Selected (seen : List Int32) (k : Nat) (result : List IcItem) :
    Prop where
  length : result.length = min k seen.length
  labels : (result.map (·.1)).Nodup
  scores : ∀ item ∈ result,
    ∃ index : Nat, item.1.toInt = index ∧ seen[index]? = some item.2
  best : ∀ (index : Nat) (score : Int32), seen[index]? = some score →
    (∀ item ∈ result, item.1.toInt ≠ index) →
    ∀ item ∈ result, score ≤ item.2

/-- They are in order as well. -/
structure IsTopK (data : List Int32) (k : Nat) (result : List IcItem) :
    Prop extends Selected data k result where
  ordered : result.Pairwise fun x y => y.2 ≤ x.2

namespace Selected

variable {seen : List Int32} {k : Nat} {result result' : List IcItem}

theorem perm (h : Selected seen k result) (hperm : result'.Perm result) :
    Selected seen k result' where
  length := hperm.length_eq.trans h.length
  labels := (hperm.map (·.1)).nodup_iff.mpr h.labels
  scores item hitem := h.scores item (hperm.mem_iff.mp hitem)
  best index score hscore hnot item hitem :=
    h.best index score hscore
      (fun item hitem => hnot item (hperm.mem_iff.mpr hitem)) item
      (hperm.mem_iff.mp hitem)

theorem label_lt (h : Selected seen k result) {item : IcItem}
    (hitem : item ∈ result) : item.1.toInt < seen.length := by
  obtain ⟨index, hindex, hscore⟩ := h.scores item hitem
  have hlt := (List.getElem?_eq_some_iff.mp hscore).1
  omega

end Selected

section Step

variable {seen : List Int32} {k : Nat} {result : List IcItem}
  {front : IcItem} {score : Int32}

theorem seen_append {index : Nat} {other : Int32}
    (h : (seen ++ [score])[index]? = some other) :
    seen[index]? = some other ∨ index = seen.length ∧ score = other := by
  rcases Nat.lt_or_ge index seen.length with hlt | hge
  · exact .inl (by rwa [List.getElem?_append_left hlt] at h)
  · have hlt := (List.getElem?_eq_some_iff.mp h).1
    rw [List.length_append, List.length_singleton] at hlt
    obtain rfl : index = seen.length := by omega
    rw [List.getElem?_concat_length] at h
    exact .inr ⟨rfl, Option.some.inj h⟩

theorem seen_mono {index : Nat} {other : Int32}
    (h : seen[index]? = some other) :
    (seen ++ [score])[index]? = some other := by
  rw [List.getElem?_append_left (List.getElem?_eq_some_iff.mp h).1]
  exact h

/-- No better than the worst that is selected: nothing changes. -/
theorem Selected.keep (h : Selected seen k result) (hk : k ≤ seen.length)
    (hfront : ∀ item ∈ result, front.2 ≤ item.2) (hscore : score ≤ front.2) :
    Selected (seen ++ [score]) k result where
  length := by
    rw [h.length, List.length_append, List.length_singleton]
    omega
  labels := h.labels
  scores item hitem := by
    obtain ⟨index, hindex, hget⟩ := h.scores item hitem
    exact ⟨index, hindex, seen_mono hget⟩
  best index other hother hnot item hitem := by
    rcases seen_append hother with hother | ⟨-, rfl⟩
    · exact h.best index other hother hnot item hitem
    · exact Int32.le_trans hscore (hfront item hitem)

/-- Better than the worst that is selected: it takes that one's place. -/
theorem Selected.replace {rest : List IcItem} (h : Selected seen k result)
    (hk : k ≤ seen.length) (hmax : seen.length < 2 ^ 31)
    (hperm : (front :: rest).Perm result)
    (hfront : ∀ item ∈ result, front.2 ≤ item.2) (hscore : front.2 < score) :
    Selected (seen ++ [score]) k
      (rest ++ [(Int32.ofNat seen.length, score)]) := by
  have hmem {item : IcItem} (hitem : item ∈ rest) : item ∈ result :=
    hperm.mem_iff.mp (List.mem_cons_of_mem front hitem)
  have hlabel := Int32.toInt_ofNat_of_lt hmax
  have hfrontMem : front ∈ result :=
    hperm.mem_iff.mp List.mem_cons_self
  refine ⟨?_, ?_, ?_, ?_⟩
  · have hlen := hperm.length_eq
    have := h.length
    simp only [List.length_cons, List.length_append, List.length_nil] at *
    omega
  · have hnodup : ((front :: rest).map (·.1)).Nodup :=
      (hperm.map (·.1)).nodup_iff.mpr h.labels
    rw [List.map_cons] at hnodup
    rw [List.map_append, List.map_singleton]
    refine (List.nodup_cons.mp hnodup).2.append (List.nodup_singleton _) ?_
    intro label hrest hnew
    obtain ⟨item, hitem, rfl⟩ := List.mem_map.mp hrest
    have hlt := h.label_lt (hmem hitem)
    rw [List.mem_singleton.mp hnew, hlabel] at hlt
    omega
  · intro item hitem
    rcases List.mem_append.mp hitem with hitem | hitem
    · obtain ⟨index, hindex, hget⟩ := h.scores item (hmem hitem)
      exact ⟨index, hindex, seen_mono hget⟩
    · obtain rfl := List.mem_singleton.mp hitem
      exact ⟨seen.length, hlabel, List.getElem?_concat_length⟩
  · intro index other hother hnot
    rcases seen_append hother with hother | ⟨rfl, -⟩
    · -- Of those seen before, only the old front can have lost its place.
      have hle : ∀ item ∈ result, other ≤ item.2 := by
        obtain ⟨place, hplace, hget⟩ := h.scores front hfrontMem
        by_cases hindex : place = index
        · rw [hindex, hother] at hget
          rw [Option.some.inj hget]
          exact hfront
        · refine h.best index other hother fun item hitem => ?_
          rcases List.mem_cons.mp (hperm.mem_iff.mpr hitem) with rfl | hitem
          · rw [hplace]
            exact fun h => hindex (Int.ofNat.inj h)
          · exact hnot item (List.mem_append_left _ hitem)
      intro item hitem
      rcases List.mem_append.mp hitem with hitem | hitem
      · exact hle item (hmem hitem)
      · obtain rfl := List.mem_singleton.mp hitem
        exact Int32.le_of_lt
          (Int32.lt_of_le_of_lt (hle front hfrontMem) hscore)
    · exact absurd hlabel (hnot _
        (List.mem_append_right _ (List.mem_singleton_self _)))

end Step

theorem firstItems_selected {seen : List Int32} (hmax : seen.length < 2 ^ 31) :
    Selected seen seen.length (firstItems seen) := by
  have hitem {item : IcItem} (h : item ∈ firstItems seen) :
      ∃ index : Nat, item.1.toInt = index ∧
        seen[index]? = some item.2 := by
    obtain ⟨index, hindex, rfl⟩ := List.mem_mapIdx.mp h
    exact ⟨index, Int32.toInt_ofNat_of_lt (by omega),
      List.getElem?_eq_getElem hindex⟩
  refine ⟨?_, ?_, fun item => hitem, ?_⟩
  · rw [firstItems, List.length_mapIdx, Nat.min_self]
  · rw [firstItems, List.nodup_iff_getElem?_ne_getElem?]
    intro i j hij hj
    rw [List.length_map, List.length_mapIdx] at hj
    have hi := Nat.lt_trans hij hj
    rw [List.getElem?_map, List.getElem?_map, List.getElem?_mapIdx,
      List.getElem?_mapIdx, List.getElem?_eq_getElem hj,
      List.getElem?_eq_getElem hi]
    intro heq
    have := congrArg Int32.toInt (Option.some.inj heq)
    rw [Int32.toInt_ofNat_of_lt (by omega),
      Int32.toInt_ofNat_of_lt (by omega)] at this
    omega
  · intro index score hscore hnot
    obtain ⟨hlt, rfl⟩ := List.getElem?_eq_some_iff.mp hscore
    exact absurd (Int32.toInt_ofNat_of_lt (by omega))
      (hnot _ (List.mem_mapIdx.mpr ⟨index, hlt, rfl⟩))

section Select

variable (H : HeapAlgorithms heapComparer)

/-- The second loop, over what follows the scores seen. -/
theorem selectRest_selected {k : Nat} (hk : 0 < k) (data : List Int32) :
    ∀ {seen : List Int32} {result : List IcItem},
      (seen ++ data).length < 2 ^ 31 → k ≤ seen.length →
      Selected seen k result → IsHeap heapComparer result →
      ∃ result', selectRest H result seen.length data = some result' ∧
        Selected (seen ++ data) k result' ∧ IsHeap heapComparer result' := by
  induction data with
  | nil =>
      intro seen result _ _ h hheap
      exact ⟨result, rfl, (List.append_nil seen).symm ▸ h, hheap⟩
  | cons score data ih =>
      intro seen result hmax hseen h hheap
      have happend : seen ++ score :: data = (seen ++ [score]) ++ data := by
        rw [List.append_assoc, List.singleton_append]
      have hlen : (seen ++ [score]).length = seen.length + 1 := by
        rw [List.length_append, List.length_singleton]
      have hnext : k ≤ (seen ++ [score]).length := by omega
      rw [happend] at hmax ⊢
      have hone {result : List IcItem}
          (h : Selected (seen ++ [score]) k result)
          (hheap : IsHeap heapComparer result) := ih hmax hnext h hheap
      rw [hlen] at hone
      have hlt : 0 < result.length := by
        rw [h.length]
        omega
      have hget := List.getElem?_eq_getElem hlt
      have hfront : ∀ item ∈ result, result[0].2 ≤ item.2 := fun item hitem =>
        heapComparer_eq_false.mp
          (hheap.front heapComparer_strictWeakOrder hget item hitem)
      rw [selectRest, hget]
      dsimp only
      split
      case isTrue hless =>
        have hpop := H.popHeap_isHeap result hheap
        have hpush : IsHeap heapComparer
            ((H.popHeap result).dropLast ++
              [(Int32.ofNat seen.length, score)]).dropLast := by
          rwa [List.dropLast_concat]
        refine hone ?_ (H.pushHeap_isHeap _ hpush)
        refine (h.replace hseen ?_ (H.popHeap_dropLast hheap hget) hfront
          hless).perm (H.pushHeap_perm _ hpush)
        rw [List.length_append] at hmax
        omega
      case isFalse hless =>
        exact hone (h.keep hseen hfront (Int32.not_lt.mp hless)) hheap

/-- `GetTopK`, whatever the standard library does behind its contracts. -/
theorem getTopK_isTopK {data : List Int32} {topK : Nat}
    (hsize : 1 ≤ data.length) (hmax : data.length < 2 ^ 31)
    (hK : 1 ≤ topK) :
    ∃ result, getTopK H (some data) topK [] =
        some (Retcode.success, result) ∧ IsTopK data topK result := by
  obtain ⟨k, hk⟩ : ∃ k, k = if data.length < topK then data.length else topK :=
    ⟨_, rfl⟩
  have hmin : k = min topK data.length := by
    rw [hk]
    split <;> omega
  have hlen : (data.take k).length = k := by
    rw [List.length_take]
    omega
  have hfirst : Selected (data.take k) k
      (H.makeHeap (firstItems (data.take k))) := by
    have htake : (data.take k).length < 2 ^ 31 := by omega
    have hitems := firstItems_selected htake
    rw [hlen] at hitems
    exact hitems.perm (H.makeHeap_perm _)
  obtain ⟨result, hrun, hsel, hheap⟩ :=
    selectRest_selected H (by omega) (data.drop k)
      (by rwa [List.take_append_drop]) (Nat.le_of_eq hlen.symm) hfirst
      (H.makeHeap_isHeap _)
  rw [List.take_append_drop] at hsel
  rw [hlen] at hrun
  have hsorted := hsel.perm (H.sortHeap_perm result hheap)
  refine ⟨H.sortHeap result, ?_, { hsorted with length := ?_, ordered := ?_ }⟩
  · simp only [getTopK, ← hk, List.nil_append, hrun]
  · rw [hsorted.length]
    omega
  · exact (H.sortHeap_sorted result hheap).imp heapComparer_eq_false.mp

/-- Of three scores the two best, the better one first. -/
theorem getTopK_three :
    ∃ result, getTopK heapComparer_strictWeakOrder.sorting
        (some [3, 9, 5]) 2 [] = some (Retcode.success, result) ∧
      IsTopK [3, 9, 5] 2 result :=
  getTopK_isTopK _ (by decide) (by decide) (by decide)

end Select

end AiEngine.Ref
