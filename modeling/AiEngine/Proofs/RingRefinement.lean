import AiEngine.Lib.Ring
import AiEngine.Proofs.QueueRefinement
import AiEngine.Ref.RingQueue

/-!
# A queue is a bounded queue for good

The positions count the pushes and the pops since the last reset, as long as
they do not overflow. Where the number of nodes divides what a position can
count, an overflow changes the position and not the node it leads to, so the
invariant counts without a bound and the fields have the remainders.
-/

namespace AiEngine.Ref

open AiEngine.Lib

variable {τ : Type}

namespace RingQueue

/-- The fields, against the blocks that are stored. `pos` is the number of
blocks that were popped since the last reset. -/
structure Stores (a : Abi) (n : Nat) (q : RingQueue τ) (blocks : List τ)
    (pos : Nat) : Prop where
  totalNum : q.totalNum = n
  readAble : q.readAbleCount = blocks.length
  writeAble : q.writeAbleCount + blocks.length = n
  popPos : q.popPos = a.sizeT pos
  pushPos : q.pushPos = a.sizeT (pos + blocks.length)
  nodes : Ring.Holds n (fun i => (q.queue i).node) pos blocks
  full : ∀ i < blocks.length, (q.queue ((pos + i) % n)).empty = false

variable {a : Abi} {n : Nat}

theorem sizeT_mod (hdvd : n ∣ a.sizeMod) (pos : Nat) :
    a.sizeT pos % n = pos % n :=
  Nat.mod_mod_of_dvd pos hdvd

theorem sizeT_succ (pos : Nat) : a.sizeT (a.sizeT pos + 1) = a.sizeT (pos + 1) :=
  Nat.mod_add_mod pos a.sizeMod 1

theorem Stores.initial [Inhabited τ] : (new n : RingQueue τ).Stores a n [] 0 where
  totalNum := rfl
  readAble := rfl
  writeAble := rfl
  popPos := (Nat.zero_mod _).symm
  pushPos := (Nat.zero_mod _).symm
  nodes := Ring.holds_nil
  full := fun _ hi => absurd hi (Nat.not_lt_zero _)

variable {q : RingQueue τ} {blocks : List τ} {pos : Nat}

theorem Stores.reset (h : q.Stores a n blocks pos) : q.reset.Stores a n [] 0 where
  totalNum := h.totalNum
  readAble := rfl
  writeAble := h.totalNum
  popPos := (Nat.zero_mod _).symm
  pushPos := (Nat.zero_mod _).symm
  nodes := Ring.holds_nil
  full := fun _ hi => absurd hi (Nat.not_lt_zero _)

theorem pushBack_node (h : q.writeAbleCount ≠ 0) (x : τ) :
    q.pushBack a x = (Retcode.success,
      { q.setNode (q.pushPos % q.totalNum) ⟨false, x⟩ with
        writeAbleCount := a.pred q.writeAbleCount
        pushPos := a.sizeT (q.pushPos + 1)
        readAbleCount := a.sizeT (q.readAbleCount + 1) }) := by
  rw [pushBack, if_neg h]
  refine congrArg (Prod.mk Retcode.success) ?_
  simp only [setNode, if_true, mk.injEq, true_and]
  funext j
  split <;> rfl

theorem Stores.pushBack_full (h : q.Stores a n blocks pos)
    (hfull : n ≤ blocks.length) (x : τ) :
    q.pushBack a x = (Retcode.queueFull, q) := by
  have hcount := h.writeAble
  exact if_pos (by omega)

/-- A block goes to the node after the last one, which stores none. -/
theorem Stores.pushBack_room (h : q.Stores a n blocks pos)
    (hmax : n < a.sizeMod) (hdvd : n ∣ a.sizeMod)
    (hroom : blocks.length < n) (x : τ) :
    (q.pushBack a x).1 = Retcode.success ∧
      (q.pushBack a x).2.Stores a n (blocks ++ [x]) pos := by
  have hcount := h.writeAble
  have hlen : (blocks ++ [x]).length = blocks.length + 1 := by simp
  have hnode : q.pushPos % q.totalNum = (pos + blocks.length) % n := by
    rw [h.pushPos, h.totalNum, sizeT_mod hdvd]
  have hother : ∀ i < blocks.length,
      (pos + i) % n ≠ (pos + blocks.length) % n :=
    fun i hi => Ring.mod_ne (by omega) (by omega)
  rw [pushBack_node (by omega), hnode]
  refine ⟨rfl, h.totalNum, ?_, ?_, h.popPos, ?_, ?_, ?_⟩
  · show a.sizeT (q.readAbleCount + 1) = _
    rw [h.readAble, Abi.sizeT_of_lt (by omega), hlen]
  · show a.pred q.writeAbleCount + _ = n
    rw [Abi.pred_of_pos (by omega) (by omega), hlen]
    omega
  · show a.sizeT (q.pushPos + 1) = _
    rw [h.pushPos, sizeT_succ, hlen, Nat.add_assoc]
  · refine Ring.Holds.append (h.nodes.congr fun i hi => ?_) ?_
    · simp only [setNode, if_neg (hother i hi)]
    · simp only [setNode, if_true]
  · intro i hi
    by_cases hlast : i = blocks.length
    · simp only [hlast, setNode, if_true]
    · have hi' : i < blocks.length := by omega
      simp only [setNode, if_neg (hother i hi')]
      exact h.full i hi'

theorem popFront_node (h : q.readAbleCount ≠ 0)
    (hfull : (q.queue (q.popPos % q.totalNum)).empty = false) :
    q.popFront a = (Retcode.success,
      some (q.queue (q.popPos % q.totalNum)).node,
      { q.setNode (q.popPos % q.totalNum)
          { q.queue (q.popPos % q.totalNum) with empty := true } with
        readAbleCount := a.pred q.readAbleCount
        popPos := a.sizeT (q.popPos + 1)
        writeAbleCount := a.sizeT (q.writeAbleCount + 1) }) := by
  rw [popFront, if_neg h]
  exact if_neg (by simp [hfull])

theorem Stores.popFront_nil (h : q.Stores a n ([] : List τ) pos) :
    q.popFront a = (Retcode.queueEmpty, none, q) :=
  if_pos h.readAble

/-- The oldest block is in a node that is marked as full, so it is
returned. -/
theorem Stores.popFront_cons {x : τ} (h : q.Stores a n (x :: blocks) pos)
    (hmax : n < a.sizeMod) (hdvd : n ∣ a.sizeMod) :
    (q.popFront a).1 = Retcode.success ∧ (q.popFront a).2.1 = some x ∧
      (q.popFront a).2.2.Stores a n blocks (pos + 1) := by
  have hcount := h.writeAble
  have hread := h.readAble
  rw [List.length_cons] at hcount hread
  have hnode : q.popPos % q.totalNum = pos % n := by
    rw [h.popPos, h.totalNum, sizeT_mod hdvd]
  have hfull : (q.queue (q.popPos % q.totalNum)).empty = false := by
    rw [hnode]
    exact h.full 0 (by simp)
  have hother : ∀ i < blocks.length, (pos + 1 + i) % n ≠ pos % n :=
    fun i hi => (Ring.mod_ne (by omega) (by omega)).symm
  rw [popFront_node (by omega) hfull, hnode]
  refine ⟨rfl, congrArg some h.nodes.head, h.totalNum, ?_, ?_, ?_, ?_, ?_, ?_⟩
  · show a.pred q.readAbleCount = _
    rw [Abi.pred_of_pos (by omega) (by omega), hread]
    rfl
  · show a.sizeT (q.writeAbleCount + 1) + _ = n
    rw [Abi.sizeT_of_lt (by omega)]
    omega
  · show a.sizeT (q.popPos + 1) = _
    rw [h.popPos, sizeT_succ]
  · show q.pushPos = _
    rw [h.pushPos, List.length_cons]
    congr 1
    omega
  · refine h.nodes.tail.congr fun i hi => ?_
    simp only [setNode, if_neg (hother i hi)]
  · intro i hi
    simp only [setNode, if_neg (hother i hi)]
    have hi' := h.full (i + 1) (by simp only [List.length_cons]; omega)
    rwa [show pos + (i + 1) = pos + 1 + i by omega] at hi'

/-- The queue with fields stores what the bounded queue has. -/
def Refines (a : Abi) (n : Nat) (q : RingQueue τ) (s : Queue τ) : Prop :=
  s.totalNum = n ∧ ∃ pos, q.Stores a n s.blocks pos

/-- Every call is answered as the bounded queue answers it. -/
theorem Refines.call {s : Queue τ} (h : q.Refines a n s)
    (hmax : n < a.sizeMod) (hdvd : n ∣ a.sizeMod) (i : QueueCall τ) :
    (q.call a i).1 = (s.call i).1 ∧ (q.call a i).2.Refines a n (s.call i).2 := by
  obtain ⟨hnum, pos, hstores⟩ := h
  cases i with
  | pushBack msgBlock =>
      rcases Nat.lt_or_ge s.count s.totalNum with hroom | hfull
      · have hpush := hstores.pushBack_room hmax hdvd (hnum ▸ hroom) msgBlock
        simp only [RingQueue.call, Queue.call, Queue.pushBack_room hroom,
          hpush.1, true_and]
        exact ⟨hnum, pos, hpush.2⟩
      · have hpush := hstores.pushBack_full (hnum ▸ hfull) msgBlock
        simp only [RingQueue.call, Queue.call, Queue.pushBack_full hfull,
          hpush, true_and]
        exact ⟨hnum, pos, hstores⟩
  | popFront =>
      cases hblocks : s.blocks with
      | nil =>
          rw [hblocks] at hstores
          simp only [RingQueue.call, Queue.call, Queue.popFront_nil hblocks,
            hstores.popFront_nil, true_and]
          exact ⟨hnum, pos, hblocks ▸ hstores⟩
      | cons x xs =>
          rw [hblocks] at hstores
          obtain ⟨hret, hmsg, hrest⟩ := hstores.popFront_cons hmax hdvd
          simp only [RingQueue.call, Queue.call, Queue.popFront_cons hblocks,
            hret, hmsg, true_and]
          exact ⟨hnum, pos + 1, hrest⟩
  | reset => exact ⟨rfl, hnum, 0, hstores.reset⟩

/-- What the next call to a queue does that stores these blocks. -/
structure BoundedFifo (a : Abi) (n : Nat) (q : RingQueue τ)
    (blocks : List τ) : Prop where
  count : q.count = blocks.length
  isEmpty : q.isEmpty = true ↔ blocks = []
  isFull : q.isFull = true ↔ blocks.length = n
  pushBack_iff : ∀ x,
    (q.pushBack a x).1 = Retcode.success ↔ blocks.length < n
  pushBack_full : ∀ x, n ≤ blocks.length →
    q.pushBack a x = (Retcode.queueFull, q)
  popFront_nil : blocks = [] → q.popFront a = (Retcode.queueEmpty, none, q)
  popFront_cons : ∀ x xs, blocks = x :: xs →
    (q.popFront a).1 = Retcode.success ∧ (q.popFront a).2.1 = some x
  valid : (q.popFront a).1 ≠ Retcode.queueNodeInvalid

theorem Refines.boundedFifo {s : Queue τ} (h : q.Refines a n s)
    (hmax : n < a.sizeMod) (hdvd : n ∣ a.sizeMod) :
    q.BoundedFifo a n s.blocks := by
  obtain ⟨-, pos, hstores⟩ := h
  have hpop : ∀ x xs, s.blocks = x :: xs →
      (q.popFront a).1 = Retcode.success ∧ (q.popFront a).2.1 = some x := by
    intro x xs hblocks
    rw [hblocks] at hstores
    have hfront := hstores.popFront_cons hmax hdvd
    exact ⟨hfront.1, hfront.2.1⟩
  have hnil : s.blocks = [] →
      q.popFront a = (Retcode.queueEmpty, none, q) := fun hblocks =>
    Stores.popFront_nil (hblocks ▸ hstores)
  refine ⟨hstores.readAble, ?_, ?_, fun x => ?_,
    fun x hfull => hstores.pushBack_full hfull x, hnil, hpop, ?_⟩
  · rw [RingQueue.isEmpty, beq_iff_eq, hstores.readAble,
      List.length_eq_zero_iff]
  · rw [RingQueue.isFull, beq_iff_eq, hstores.readAble, hstores.totalNum]
    exact eq_comm
  · rcases Nat.lt_or_ge s.blocks.length n with hroom | hfull
    · exact iff_of_true (hstores.pushBack_room hmax hdvd hroom x).1 hroom
    · rw [hstores.pushBack_full hfull x]
      have hne : Retcode.queueFull ≠ Retcode.success := by decide
      exact iff_of_false hne (Nat.not_lt.mpr hfull)
  · cases hblocks : s.blocks with
    | nil =>
        rw [hnil hblocks]
        show Retcode.queueEmpty ≠ Retcode.queueNodeInvalid
        decide
    | cons x xs =>
        rw [(hpop x xs hblocks).1]
        decide

end RingQueue

/-- However many calls are made, and however often the positions overflow, a
queue answers them as the bounded queue does, and stores what that has. -/
theorem ringQueue_boundedFifo [Inhabited τ] {a : Abi} {maxQueueSize : Nat}
    (hmax : maxQueueSize < a.sizeMod) (hdvd : maxQueueSize ∣ a.sizeMod)
    (calls : List (QueueCall τ)) :
    let real := answers (RingQueue.call a) (.new maxQueueSize) calls
    let ideal := answers Queue.call (.new maxQueueSize) calls
    real.1 = ideal.1 ∧
      real.2.BoundedFifo a maxQueueSize ideal.2.blocks := by
  have hnew : (RingQueue.new maxQueueSize : RingQueue τ).Refines a maxQueueSize
      (.new maxQueueSize) := ⟨rfl, 0, .initial⟩
  obtain ⟨hanswers, hlast⟩ := answers_simulation
    (fun q s i (h : q.Refines a maxQueueSize s) => h.call hmax hdvd i) hnew
    calls
  exact ⟨hanswers, hlast.boundedFifo hmax hdvd⟩

theorem ringQueue_boundedFifo_engine :
    let calls : List (QueueCall Nat) :=
      [.pushBack 1, .pushBack 2, .popFront, .reset, .popFront]
    let real := answers (RingQueue.call .lp64) (.new 64) calls
    let ideal := answers Queue.call (.new 64) calls
    real.1 = ideal.1 ∧ real.2.BoundedFifo .lp64 64 ideal.2.blocks :=
  ringQueue_boundedFifo (by decide) (by decide) _

end AiEngine.Ref
