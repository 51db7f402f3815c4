import AiEngine.Lib.Ring
import AiEngine.Ref.SharedQueue

/-!
# Two threads see one bounded queue

The queue of one thread, `Queue`, says what the calls of the two threads
answer, in the order in which they return. A push takes place with the last
access of `PushBack`, which makes the message readable, and a pop with the
last access of `PopFront`, which makes its node writable.

What carries the proof is where the two counters are behind. The producer
has taken one off the writable nodes before it uses one, and the consumer
one off the readable nodes, so that the nodes of the messages in between are
left alone by the one, and the node of the next message by the other.
-/

namespace AiEngine.Ref

open AiEngine.Lib

variable {τ : Type}

/-- A call that a queue answers as the log says. -/
inductive Queue.Answers : Queue τ → QueueEvent τ → Queue τ → Prop where
  | pushBack (q : Queue τ) (msgBlock : τ) :
      Answers q (.pushBack msgBlock (q.pushBack msgBlock).1)
        (q.pushBack msgBlock).2
  | popFront (q : Queue τ) :
      Answers q (.popFront q.popFront.1 q.popFront.2.1) q.popFront.2.2
  | count (q : Queue τ) : Answers q (.count q.count) q
  | isEmpty (q : Queue τ) : Answers q (.isEmpty (q.count == 0)) q

/-- A queue answers a whole log of calls. -/
inductive Queue.Gives (q : Queue τ) : List (QueueEvent τ) → Queue τ → Prop where
  | nil : Gives q [] q
  | snoc {log : List (QueueEvent τ)} {e : QueueEvent τ} {q' q'' : Queue τ}
      (hlog : Gives q log q') (he : q'.Answers e q'') : Gives q (log ++ [e]) q''

/-- The message of a push that was accepted. -/
def QueueEvent.pushed : QueueEvent τ → Option τ
  | .pushBack msgBlock retCode =>
      if retCode = Retcode.success then some msgBlock else none
  | .popFront _ _ => none
  | .count _ => none
  | .isEmpty _ => none

/-- The message that a pop returned. -/
def QueueEvent.popped : QueueEvent τ → Option τ
  | .popFront retCode msgBlock =>
      if retCode = Retcode.success then msgBlock else none
  | .pushBack _ _ => none
  | .count _ => none
  | .isEmpty _ => none

theorem Queue.pushBack_full {q : Queue τ} (h : q.totalNum ≤ q.count) (x : τ) :
    q.pushBack x = (Retcode.queueFull, q) := if_pos h

theorem Queue.pushBack_room {q : Queue τ} (h : q.count < q.totalNum) (x : τ) :
    q.pushBack x =
      (Retcode.success, { q with blocks := q.blocks ++ [x] }) :=
  if_neg (Nat.not_le.mpr h)

theorem Queue.popFront_nil {q : Queue τ} (h : q.blocks = []) :
    q.popFront = (Retcode.queueEmpty, none, q) := by
  simp only [popFront, h]

theorem Queue.popFront_cons {q : Queue τ} {x : τ} {xs : List τ}
    (h : q.blocks = x :: xs) :
    q.popFront = (Retcode.success, some x, { q with blocks := xs }) := by
  simp only [popFront, h]

theorem Queue.Answers.blocks {q q' : Queue τ} {e : QueueEvent τ}
    (h : q.Answers e q') :
    e.popped.toList ++ q'.blocks = q.blocks ++ e.pushed.toList ∧
      q'.totalNum = q.totalNum := by
  have hfull : Retcode.queueFull ≠ Retcode.success := by decide
  have hempty : Retcode.queueEmpty ≠ Retcode.success := by decide
  cases h with
  | pushBack msgBlock =>
      rcases Nat.lt_or_ge q.count q.totalNum with hroom | hno
      · simp [pushBack_room hroom, QueueEvent.pushed, QueueEvent.popped]
      · simp [pushBack_full hno, QueueEvent.pushed, QueueEvent.popped, hfull]
  | popFront =>
      cases hq : q.blocks with
      | nil =>
          simp [popFront_nil hq, hq, QueueEvent.pushed, QueueEvent.popped,
            hempty]
      | cons x xs =>
          simp [popFront_cons hq, QueueEvent.pushed, QueueEvent.popped]
  | count => simp [QueueEvent.pushed, QueueEvent.popped]
  | isEmpty => simp [QueueEvent.pushed, QueueEvent.popped]

/-- What was pushed and not popped is in the queue. -/
theorem Queue.Gives.blocks {q q' : Queue τ} {log : List (QueueEvent τ)}
    (h : q.Gives log q') :
    log.filterMap QueueEvent.popped ++ q'.blocks =
      q.blocks ++ log.filterMap QueueEvent.pushed ∧
      q'.totalNum = q.totalNum := by
  have hone (f : QueueEvent τ → Option τ) (e : QueueEvent τ) :
      [e].filterMap f = (f e).toList := by
    cases hf : f e <;> simp [hf]
  induction h with
  | nil => exact ⟨(List.append_nil _).symm, rfl⟩
  | snoc hlog he ih =>
      obtain ⟨hblocks, hnum⟩ := he.blocks
      refine ⟨?_, hnum.trans ih.2⟩
      rw [List.filterMap_append, List.filterMap_append, hone, hone,
        List.append_assoc, hblocks, ← List.append_assoc, ih.1,
        List.append_assoc]

theorem Queue.Answers.valid {q q' : Queue τ} {e : QueueEvent τ}
    (h : q.Answers e q') (msgBlock : Option τ) :
    e ≠ .popFront Retcode.queueNodeInvalid msgBlock := by
  have hsuccess : Retcode.success ≠ Retcode.queueNodeInvalid := by decide
  have hempty : Retcode.queueEmpty ≠ Retcode.queueNodeInvalid := by decide
  intro heq
  cases h with
  | popFront =>
      have hret := (QueueEvent.popFront.inj heq).1
      cases hq : q.blocks with
      | nil => exact hempty (by rw [← hret, popFront_nil hq])
      | cons x xs => exact hsuccess (by rw [← hret, popFront_cons hq])
  | pushBack => cases heq
  | count => cases heq
  | isEmpty => cases heq

theorem Queue.Gives.valid {q q' : Queue τ} {log : List (QueueEvent τ)}
    (h : q.Gives log q') (msgBlock : Option τ) :
    QueueEvent.popFront Retcode.queueNodeInvalid msgBlock ∉ log := by
  induction h with
  | nil => exact List.not_mem_nil
  | snoc hlog he ih =>
      intro hmem
      rcases List.mem_append.mp hmem with hmem | hmem
      · exact ih hmem
      · exact he.valid msgBlock (List.mem_singleton.mp hmem).symm

namespace SharedQueue

/-- The messages of the pushes that were accepted. -/
def pushed (s : SharedQueue τ) : List τ := s.log.filterMap QueueEvent.pushed

/-- The messages of the pops that succeeded. -/
def popped (s : SharedQueue τ) : List τ := s.log.filterMap QueueEvent.popped

/-- The number of pushes stays below the range of a position. -/
def belowRange (a : Abi) (s : SharedQueue τ) : QueueStep τ → Prop
  | .pushBack _ => s.pushed.length + 1 < a.sizeMod
  | _ => True

instance (a : Abi) (s : SharedQueue τ) :
    ∀ i, Decidable (belowRange a s i)
  | .pushBack _ => inferInstanceAs (Decidable (_ < _))
  | .producer => .isTrue trivial
  | .popFront => .isTrue trivial
  | .count => .isTrue trivial
  | .isEmpty => .isTrue trivial
  | .consumer => .isTrue trivial

/-- The two threads see a queue of `n` messages. -/
structure Refines (n : Nat) (s : SharedQueue τ) : Prop where
  /-- Every call returned what the queue of one thread answers. -/
  gives : ∃ q, (Queue.new n).Gives s.log q
  popped : s.popped <+: s.pushed
  valid : ∀ msgBlock,
    .popFront Retcode.queueNodeInvalid msgBlock ∉ s.log
  /-- A message that has not been popped is still in its node. -/
  kept : ∀ i (h : i < s.pushed.length), s.popped.length ≤ i →
    (s.queue (i % n)).node = s.pushed[i]
  /-- The node that is about to be written was popped each time before. -/
  consumed : ∀ msgBlock pushPos, s.producer = .writeNode msgBlock pushPos →
    ∀ i < s.pushed.length, i % n = pushPos → i < s.popped.length
  readAble : s.readAbleCount ≤ n
  writeAble : s.writeAbleCount ≤ n

end SharedQueue

/-! ## The invariant

Between two accesses the producer has made some of its changes and the
consumer some of its own. The phases say which, and the contents of the queue
are those of the nodes from the one to the other. -/

/-- A push that is under way. -/
def PushPhase.begun : PushPhase τ → Nat
  | .idle => 0
  | _ => 1

/-- It has taken one off the writable nodes. -/
def PushPhase.taken : PushPhase τ → Nat
  | .idle => 0
  | .takeWriteAble _ => 0
  | _ => 1

/-- It has moved the position. -/
def PushPhase.moved : PushPhase τ → Nat
  | .idle => 0
  | .takeWriteAble _ => 0
  | .movePushPos _ => 0
  | _ => 1

/-- A pop has taken one off the readable nodes. -/
def PopPhase.taken : PopPhase τ → Nat
  | .idle => 0
  | .takeReadAble => 0
  | _ => 1

/-- It has moved the position. -/
def PopPhase.moved : PopPhase τ → Nat
  | .readNode _ => 1
  | .setEmpty _ _ => 1
  | .giveWriteAble _ => 1
  | _ => 0

/-- It has marked its node as empty. -/
def PopPhase.emptied : PopPhase τ → Bool
  | .giveWriteAble _ => true
  | _ => false

/-- What the producer knows at each access; `pos` is its node. -/
def PushPhase.Ok (s : SharedQueue τ) (pos : Nat) : PushPhase τ → Prop
  | .idle => True
  | .takeWriteAble _ => 0 < s.writeAbleCount
  | .movePushPos _ => True
  | .writeNode _ pushPos => pushPos = pos
  | .clearEmpty msgBlock pushPos =>
      pushPos = pos ∧ (s.queue pos).node = msgBlock
  | .giveReadAble msgBlock pushPos =>
      pushPos = pos ∧ s.queue pos = ⟨false, msgBlock⟩

/-- What the consumer knows at each access; `pos` is its node, and `front`
the message that is next. -/
def PopPhase.Ok (s : SharedQueue τ) (pos : Nat) (front : Option τ) :
    PopPhase τ → Prop
  | .idle => True
  | .takeReadAble => 0 < s.readAbleCount
  | .readPopPos => True
  | .testEmpty popPos => popPos = pos
  | .giveReadAbleBack => False
  | .movePopPos popPos => popPos = pos
  | .readNode popPos => popPos = pos
  | .setEmpty popPos msgBlock => popPos = pos ∧ front = some msgBlock
  | .giveWriteAble msgBlock => front = some msgBlock

section

variable {s s' : SharedQueue τ} {pos : Nat}

theorem PushPhase.Ok.frame {p : PushPhase τ} (h : p.Ok s pos)
    (hnode : p.taken = 1 → s'.queue pos = s.queue pos)
    (hcount : s.writeAbleCount ≤ s'.writeAbleCount) : p.Ok s' pos := by
  cases p with
  | idle => trivial
  | takeWriteAble _ => exact Nat.lt_of_lt_of_le h hcount
  | movePushPos _ => trivial
  | writeNode _ _ => exact h
  | clearEmpty _ _ => exact ⟨h.1, hnode rfl ▸ h.2⟩
  | giveReadAble _ _ => exact ⟨h.1, (hnode rfl).trans h.2⟩

theorem PopPhase.Ok.frame {p : PopPhase τ} {front front' : Option τ}
    (h : p.Ok s pos front) (hcount : s.readAbleCount ≤ s'.readAbleCount)
    (hfront : ∀ x, front = some x → front' = some x) :
    p.Ok s' pos front' := by
  cases p with
  | idle => trivial
  | takeReadAble => exact Nat.lt_of_lt_of_le h hcount
  | readPopPos => trivial
  | testEmpty _ => exact h
  | giveReadAbleBack => exact h
  | movePopPos _ => exact h
  | readNode _ => exact h
  | setEmpty _ _ => exact ⟨h.1, hfront _ h.2⟩
  | giveWriteAble _ => exact hfront _ h

end

namespace SharedQueue

/-- The counters, the positions and the nodes, against the queue that has
answered the calls so far. -/
structure Kept (a : Abi) (n : Nat) (s : SharedQueue τ) (q : Queue τ) :
    Prop where
  gives : (Queue.new n).Gives s.log q
  totalNum : s.totalNum = n
  range : s.pushed.length + s.producer.begun < a.sizeMod
  readAble : s.readAbleCount + s.consumer.taken = q.blocks.length
  writeAble : s.writeAbleCount + s.producer.taken + q.blocks.length = n
  pushPos : s.pushPos = s.pushed.length + s.producer.moved
  popPos : s.popPos = s.popped.length + s.consumer.moved
  nodes : Ring.Holds n (fun i => (s.queue i).node) s.popped.length q.blocks
  full : ∀ i < q.blocks.length, (0 < i ∨ s.consumer.emptied = false) →
    (s.queue ((s.popped.length + i) % n)).empty = false
  push : s.producer.Ok s (s.pushed.length % n)
  pop : s.consumer.Ok s (s.popped.length % n) q.blocks.head?

variable {a : Abi} {n : Nat} {s s' : SharedQueue τ} {q : Queue τ}

theorem Kept.initial [Inhabited τ] :
    (SharedQueue.new n : SharedQueue τ).Kept a n (.new n) where
  gives := .nil
  totalNum := rfl
  range := by
    have hge := a.sizeMod_ge
    show 0 < a.sizeMod
    omega
  readAble := rfl
  writeAble := rfl
  pushPos := rfl
  popPos := rfl
  nodes := Ring.holds_nil
  full := fun _ hi => absurd hi (Nat.not_lt_zero _)
  push := trivial
  pop := trivial

/-- The messages that were pushed are those popped and those in the queue. -/
theorem Kept.pushed_eq (h : s.Kept a n q) :
    s.pushed = s.popped ++ q.blocks := by
  have hblocks := h.gives.blocks.1
  exact hblocks.symm

theorem Kept.pushed_length (h : s.Kept a n q) :
    s.pushed.length = s.popped.length + q.blocks.length := by
  rw [h.pushed_eq, List.length_append]

theorem Kept.q_totalNum (h : s.Kept a n q) : q.totalNum = n :=
  h.gives.blocks.2

theorem Kept.record (h : s.Kept a n q) {e : QueueEvent τ}
    (he : q.Answers e q) (hpushed : e.pushed = none)
    (hpopped : e.popped = none) : (s.record e).Kept a n q := by
  have hpush : (s.record e).pushed = s.pushed := by
    simp [SharedQueue.record, SharedQueue.pushed, hpushed]
  have hpop : (s.record e).popped = s.popped := by
    simp [SharedQueue.record, SharedQueue.popped, hpopped]
  exact
    { gives := h.gives.snoc he
      totalNum := h.totalNum
      range := hpush ▸ h.range
      readAble := h.readAble
      writeAble := h.writeAble
      pushPos := hpush ▸ h.pushPos
      popPos := hpop ▸ h.popPos
      nodes := hpop ▸ h.nodes
      full := hpop ▸ h.full
      push := hpush ▸ h.push
      pop := hpop ▸ h.pop }

/-- The node that the producer is about to use holds no message. -/
theorem Kept.push_room (h : s.Kept a n q) (htaken : s.producer.taken = 1) :
    q.blocks.length < n := by
  have hcount := h.writeAble
  omega

/-- The node that the consumer uses holds the next message. -/
theorem Kept.pop_front (h : s.Kept a n q) (htaken : s.consumer.taken = 1) :
    0 < q.blocks.length := by
  have hcount := h.readAble
  omega

theorem Kept.callPushBack (h : s.Kept a n q) (hidle : s.producer = .idle)
    {msgBlock : τ} (hok : belowRange a s (.pushBack msgBlock)) :
    (s.callPushBack msgBlock).Kept a n q := by
  unfold SharedQueue.callPushBack
  split
  · next hzero =>
      have hwriteAble := h.writeAble
      rw [hidle, hzero] at hwriteAble
      have hfull : q.totalNum ≤ q.count := by
        rw [h.q_totalNum, ← hwriteAble]
        simp [PushPhase.taken, Queue.count]
      have hne : Retcode.queueFull ≠ Retcode.success := by decide
      have he := Queue.Answers.pushBack q msgBlock
      rw [Queue.pushBack_full hfull] at he
      have hpushed : QueueEvent.pushed
          (.pushBack msgBlock Retcode.queueFull) = none := by
        simp [QueueEvent.pushed, hne]
      exact h.record he hpushed rfl
  · next hpos =>
      have hwriteAble := h.writeAble
      have hpushPos := h.pushPos
      rw [hidle] at hwriteAble hpushPos
      exact { h with
        range := hok
        writeAble := hwriteAble
        pushPos := hpushPos
        push := Nat.pos_of_ne_zero hpos
        pop := h.pop.frame (Nat.le_refl _) fun _ heq => heq }

/-- The nodes in use are not those that the producer writes. -/
theorem Kept.node_ne (h : s.Kept a n q) (htaken : s.producer.taken = 1)
    {i : Nat} (hi : i < q.blocks.length) :
    (s.popped.length + i) % n ≠ s.pushed.length % n := by
  have hroom := h.push_room htaken
  rw [h.pushed_length]
  exact Ring.mod_ne (by omega) (by omega)

theorem Kept.setNode (h : s.Kept a n q) (htaken : s.producer.taken = 1)
    {x : QueueNode τ} {p : PushPhase τ} (hbegun : p.begun = s.producer.begun)
    (hp : p.taken = s.producer.taken) (hmoved : p.moved = s.producer.moved)
    (hpush : p.Ok { s.setNode (s.pushed.length % n) x with producer := p }
      (s.pushed.length % n)) :
    { s.setNode (s.pushed.length % n) x with producer := p }.Kept a n q := by
  have hsame : ∀ i < q.blocks.length,
      (s.setNode (s.pushed.length % n) x).queue
        ((s.popped.length + i) % n) =
          s.queue ((s.popped.length + i) % n) :=
    fun i hi => if_neg (h.node_ne htaken hi)
  exact
    { gives := h.gives
      totalNum := h.totalNum
      range := hbegun.symm ▸ h.range
      readAble := h.readAble
      writeAble := hp.symm ▸ h.writeAble
      pushPos := hmoved.symm ▸ h.pushPos
      popPos := h.popPos
      nodes := h.nodes.congr fun i hi => congrArg QueueNode.node (hsame i hi)
      full := fun i hi hnot => (congrArg QueueNode.empty (hsame i hi)).trans
        (h.full i hi hnot)
      push := hpush
      pop := h.pop.frame (Nat.le_refl _) fun _ heq => heq }

theorem Kept.giveReadAble (h : s.Kept a n q) (hmax : n < a.sizeMod)
    {msgBlock : τ} {pushPos : Nat}
    (hp : s.producer = .giveReadAble msgBlock pushPos) :
    ({ s with
        readAbleCount := a.sizeT (s.readAbleCount + 1)
        producer := .idle }.record
          (.pushBack msgBlock Retcode.success)).Kept a n
      { q with blocks := q.blocks ++ [msgBlock] } := by
  have htaken : s.producer.taken = 1 := by rw [hp]; rfl
  have hroom := h.push_room htaken
  have hreadAble := h.readAble
  have hwriteAble := h.writeAble
  have hrange := h.range
  have hpushPos := h.pushPos
  obtain ⟨-, hnode⟩ := hp ▸ h.push
  simp only [hp, PushPhase.begun, PushPhase.taken, PushPhase.moved]
    at hwriteAble hrange hpushPos
  have hpushed : ({ s with
      readAbleCount := a.sizeT (s.readAbleCount + 1)
      producer := .idle }.record
        (.pushBack msgBlock Retcode.success)).pushed =
          s.pushed ++ [msgBlock] := by
    simp [SharedQueue.record, SharedQueue.pushed, QueueEvent.pushed]
  have hpopped : ({ s with
      readAbleCount := a.sizeT (s.readAbleCount + 1)
      producer := .idle }.record
        (.pushBack msgBlock Retcode.success)).popped = s.popped := by
    simp [SharedQueue.record, SharedQueue.popped, QueueEvent.popped]
  have hcount : a.sizeT (s.readAbleCount + 1) = s.readAbleCount + 1 :=
    Abi.sizeT_of_lt (by omega)
  have he := Queue.Answers.pushBack q msgBlock
  rw [Queue.pushBack_room (by rw [h.q_totalNum]; exact hroom)] at he
  have hnext : (s.popped.length + q.blocks.length) % n =
      s.pushed.length % n := by rw [h.pushed_length]
  refine ⟨h.gives.snoc he, h.totalNum, ?_, ?_, ?_, ?_, ?_, ?_, ?_, trivial,
    ?_⟩
  · rw [hpushed, List.length_append]
    exact hrange
  · simp only [SharedQueue.record, hcount, List.length_append,
      List.length_singleton]
    omega
  · simp only [SharedQueue.record, PushPhase.taken, List.length_append,
      List.length_singleton]
    omega
  · rw [hpushed, List.length_append]
    exact hpushPos
  · rw [hpopped]
    exact h.popPos
  · rw [hpopped]
    refine h.nodes.append ?_
    rw [hnext]
    exact congrArg QueueNode.node hnode
  · rw [hpopped]
    intro i hi hnot
    rw [List.length_append, List.length_singleton] at hi
    rcases Nat.lt_or_ge i q.blocks.length with hlt | hge
    · exact h.full i hlt hnot
    · have heq : i = q.blocks.length := by omega
      rw [heq, hnext]
      exact congrArg QueueNode.empty hnode
  · rw [hpopped]
    refine h.pop.frame ?_ fun x hx => ?_
    · simp only [SharedQueue.record, hcount]
      omega
    · rw [List.head?_append, hx]
      rfl

theorem Kept.pushBack (h : s.Kept a n q) (hmax : n < a.sizeMod)
    (hrun : s.pushBack a = some s') : ∃ q', s'.Kept a n q' := by
  have hwriteAble := h.writeAble
  have hrange := h.range
  have hpushPos := h.pushPos
  have hpush := h.push
  unfold SharedQueue.pushBack at hrun
  split at hrun
  · cases hrun
  · next msgBlock hp =>
      cases hrun
      simp only [hp, PushPhase.begun, PushPhase.taken, PushPhase.moved,
        PushPhase.Ok] at hwriteAble hrange hpushPos hpush
      refine ⟨q, { h with
        range := hrange
        writeAble := ?_
        pushPos := hpushPos
        push := trivial
        pop := h.pop.frame (Nat.le_refl _) fun _ heq => heq }⟩
      rw [Abi.pred_of_pos hpush (by omega)]
      simp only [PushPhase.taken]
      omega
  · next msgBlock hp =>
      cases hrun
      simp only [hp, PushPhase.begun, PushPhase.taken, PushPhase.moved]
        at hwriteAble hrange hpushPos
      refine ⟨q, { h with
        range := hrange
        writeAble := hwriteAble
        pushPos := ?_
        push := ?_
        pop := h.pop.frame (Nat.le_refl _) fun _ heq => heq }⟩
      · simp only [PushPhase.moved, hpushPos]
        exact Abi.sizeT_of_lt hrange
      · show s.pushPos % s.totalNum = s.pushed.length % n
        rw [hpushPos, h.totalNum]
        rfl
  · next msgBlock pushPos hp =>
      cases hrun
      rw [hp] at hpush
      cases hpush
      exact ⟨q, h.setNode (by rw [hp]; rfl) (by rw [hp]; rfl) (by rw [hp]; rfl)
        (by rw [hp]; rfl) ⟨rfl, congrArg QueueNode.node (if_pos rfl)⟩⟩
  · next msgBlock pushPos hp =>
      cases hrun
      rw [hp] at hpush
      obtain ⟨rfl, hnode⟩ := hpush
      refine ⟨q, h.setNode (by rw [hp]; rfl) (by rw [hp]; rfl)
        (by rw [hp]; rfl) (by rw [hp]; rfl) ⟨rfl, ?_⟩⟩
      rw [← hnode]
      exact if_pos rfl
  · next msgBlock pushPos hp =>
      cases hrun
      exact ⟨_, h.giveReadAble hmax hp⟩

theorem Kept.callPopFront (h : s.Kept a n q) (hidle : s.consumer = .idle) :
    s.callPopFront.Kept a n q := by
  unfold SharedQueue.callPopFront
  have hreadAble := h.readAble
  have hpopPos := h.popPos
  have hfull := h.full
  rw [hidle] at hreadAble hpopPos hfull
  split
  · next hzero =>
      have hnil : q.blocks = [] := by
        refine List.eq_nil_of_length_eq_zero ?_
        rw [← hreadAble, hzero]
        rfl
      have hne : Retcode.queueEmpty ≠ Retcode.success := by decide
      have he := Queue.Answers.popFront q
      rw [Queue.popFront_nil hnil] at he
      have hpopped : QueueEvent.popped
          (.popFront Retcode.queueEmpty (none : Option τ)) = none := by
        simp [QueueEvent.popped]
      exact h.record he rfl hpopped
  · next hpos =>
      exact { h with
        readAble := hreadAble
        popPos := hpopPos
        full := hfull
        push := h.push.frame (fun _ => rfl) (Nat.le_refl _)
        pop := Nat.pos_of_ne_zero hpos }

theorem Kept.count (h : s.Kept a n q) (hidle : s.consumer = .idle) :
    q.count = s.readAbleCount := by
  have hreadAble := h.readAble
  rw [hidle] at hreadAble
  exact hreadAble.symm

theorem Kept.setEmpty (h : s.Kept a n q) {popPos : Nat} {msgBlock : τ}
    (hp : s.consumer = .setEmpty popPos msgBlock) :
    { s.setNode popPos { s.queue popPos with empty := true } with
      consumer := .giveWriteAble msgBlock }.Kept a n q := by
  have hpop := h.pop
  have hreadAble := h.readAble
  have hpopPos := h.popPos
  have hwriteAble := h.writeAble
  have htaken : s.consumer.taken = 1 := by rw [hp]; rfl
  have hfront := h.pop_front htaken
  rw [hp] at hpop hreadAble hpopPos
  obtain ⟨rfl, hhead⟩ := hpop
  have hle : q.blocks.length ≤ n := by omega
  have hother {i : Nat} (hpos : 0 < i) (hi : i < q.blocks.length) :
      (s.popped.length + i) % n ≠ s.popped.length % n :=
    (Ring.mod_ne (by omega) (by omega)).symm
  have hsame : ∀ i < q.blocks.length,
      ((s.setNode (s.popped.length % n)
        { s.queue (s.popped.length % n) with empty := true }).queue
          ((s.popped.length + i) % n)).node =
        (s.queue ((s.popped.length + i) % n)).node := by
    intro i hi
    unfold SharedQueue.setNode
    dsimp only
    split
    · next heq => rw [heq]
    · rfl
  refine { h with
    readAble := hreadAble
    popPos := hpopPos
    nodes := h.nodes.congr hsame
    full := fun i hi hnot => ?_
    push := ?_
    pop := hhead }
  · rcases hnot with hpos | hno
    · refine (congrArg QueueNode.empty (if_neg (hother hpos hi))).trans ?_
      exact h.full i hi (.inl hpos)
    · cases hno
  · refine h.push.frame (fun hpushing => if_neg ?_) (Nat.le_refl _)
    exact (h.node_ne hpushing hfront).symm

theorem Kept.giveWriteAble (h : s.Kept a n q) (hmax : n < a.sizeMod)
    {msgBlock : τ} (hp : s.consumer = .giveWriteAble msgBlock) :
    ({ s with
        writeAbleCount := a.sizeT (s.writeAbleCount + 1)
        consumer := .idle }.record
          (.popFront Retcode.success (some msgBlock))).Kept a n
      { q with blocks := q.blocks.tail } := by
  have htaken : s.consumer.taken = 1 := by rw [hp]; rfl
  have hfront := h.pop_front htaken
  have hreadAble := h.readAble
  have hwriteAble := h.writeAble
  have hpopPos := h.popPos
  have hhead := h.pop
  simp only [hp, PopPhase.taken, PopPhase.moved, PopPhase.Ok]
    at hreadAble hpopPos hhead
  obtain ⟨xs, hblocks⟩ : ∃ xs, q.blocks = msgBlock :: xs :=
    List.head?_eq_some_iff.mp hhead
  have hpushed : ({ s with
      writeAbleCount := a.sizeT (s.writeAbleCount + 1)
      consumer := .idle }.record
        (.popFront Retcode.success (some msgBlock))).pushed = s.pushed := by
    simp [SharedQueue.record, SharedQueue.pushed, QueueEvent.pushed]
  have hpopped : ({ s with
      writeAbleCount := a.sizeT (s.writeAbleCount + 1)
      consumer := .idle }.record
        (.popFront Retcode.success (some msgBlock))).popped =
          s.popped ++ [msgBlock] := by
    simp [SharedQueue.record, SharedQueue.popped, QueueEvent.popped]
  have hcount : a.sizeT (s.writeAbleCount + 1) = s.writeAbleCount + 1 :=
    Abi.sizeT_of_lt (by omega)
  have he := Queue.Answers.popFront q
  rw [Queue.popFront_cons hblocks] at he
  have hlen : q.blocks.length = xs.length + 1 := by rw [hblocks]; rfl
  rw [hblocks, List.tail_cons]
  refine ⟨h.gives.snoc he, h.totalNum, hpushed ▸ h.range, ?_, ?_,
    hpushed ▸ h.pushPos, ?_, ?_, ?_, ?_, trivial⟩
  · simp only [SharedQueue.record, PopPhase.taken]
    omega
  · simp only [SharedQueue.record, hcount]
    omega
  · rw [hpopped, List.length_append]
    exact hpopPos
  · rw [hpopped, List.length_append]
    exact (hblocks ▸ h.nodes).tail
  · rw [hpopped, List.length_append, List.length_singleton]
    intro i hi _
    have hnext := h.full (i + 1) (by simp only at hi; omega)
      (.inl (Nat.succ_pos i))
    rwa [show s.popped.length + (i + 1) = s.popped.length + 1 + i by omega]
      at hnext
  · rw [hpushed]
    refine h.push.frame (fun _ => rfl) ?_
    simp only [SharedQueue.record, hcount]
    omega

/-- The consumer moves on and changes nothing that is shared. -/
theorem Kept.setConsumer (h : s.Kept a n q) {p : PopPhase τ}
    (htaken : p.taken = s.consumer.taken) (hmoved : p.moved = s.consumer.moved)
    (hemptied : p.emptied = s.consumer.emptied)
    (hpop : p.Ok s (s.popped.length % n) q.blocks.head?) :
    { s with consumer := p }.Kept a n q :=
  { h with
    readAble := htaken.symm ▸ h.readAble
    popPos := hmoved.symm ▸ h.popPos
    full := fun i hi hnot => h.full i hi (hemptied ▸ hnot)
    push := h.push.frame (fun _ => rfl) (Nat.le_refl _)
    pop := hpop.frame (Nat.le_refl _) fun _ heq => heq }

theorem Kept.takeReadAble (h : s.Kept a n q) (hmax : n < a.sizeMod)
    (hp : s.consumer = .takeReadAble) :
    { s with
      readAbleCount := a.pred s.readAbleCount
      consumer := .readPopPos }.Kept a n q := by
  have hreadAble := h.readAble
  have hwriteAble := h.writeAble
  have hpopPos := h.popPos
  have hpop := h.pop
  have hfull := h.full
  rw [hp] at hreadAble hpopPos hpop hfull
  have hpos : 0 < s.readAbleCount := hpop
  refine { h with
    readAble := ?_
    popPos := hpopPos
    full := hfull
    push := h.push.frame (fun _ => rfl) (Nat.le_refl _)
    pop := trivial }
  simp only [PopPhase.taken] at hreadAble ⊢
  rw [Abi.pred_of_pos hpos (by omega)]
  omega

theorem Kept.movePopPos (h : s.Kept a n q) {popPos : Nat}
    (hp : s.consumer = .movePopPos popPos) :
    { s with
      popPos := a.sizeT (s.popPos + 1)
      consumer := .readNode popPos }.Kept a n q := by
  have hrange := h.range
  have hlen := h.pushed_length
  have hfront := h.pop_front (by rw [hp]; rfl)
  have hreadAble := h.readAble
  have hpopPos := h.popPos
  have hpop := h.pop
  have hfull := h.full
  rw [hp] at hreadAble hpopPos hpop hfull
  refine { h with
    readAble := hreadAble
    popPos := ?_
    full := hfull
    push := h.push.frame (fun _ => rfl) (Nat.le_refl _)
    pop := hpop }
  simp only [PopPhase.moved] at hpopPos ⊢
  rw [hpopPos]
  exact Abi.sizeT_of_lt (by omega)

theorem Kept.popFront (h : s.Kept a n q) (hmax : n < a.sizeMod)
    (hrun : s.popFront a = some s') : ∃ q', s'.Kept a n q' := by
  have hpop := h.pop
  unfold SharedQueue.popFront at hrun
  split at hrun
  · cases hrun
  · next hp =>
      cases hrun
      exact ⟨q, h.takeReadAble hmax hp⟩
  · next hp =>
      cases hrun
      have hpopPos := h.popPos
      rw [hp] at hpopPos
      refine ⟨q, h.setConsumer (by rw [hp]; rfl) (by rw [hp]; rfl)
        (by rw [hp]; rfl) ?_⟩
      show s.popPos % s.totalNum = s.popped.length % n
      rw [hpopPos, h.totalNum]
      rfl
  · next popPos hp =>
      rw [hp] at hpop
      obtain rfl : popPos = _ := hpop
      have hnot := h.full 0 (h.pop_front (by rw [hp]; rfl))
        (.inr (by rw [hp]; rfl))
      rw [Nat.add_zero] at hnot
      rw [hnot] at hrun
      cases hrun
      exact ⟨q, h.setConsumer (by rw [hp]; rfl) (by rw [hp]; rfl)
        (by rw [hp]; rfl) rfl⟩
  · next hp =>
      rw [hp] at hpop
      exact hpop.elim
  · next popPos hp =>
      cases hrun
      exact ⟨q, h.movePopPos hp⟩
  · next popPos hp =>
      cases hrun
      have hfront := h.pop_front (by rw [hp]; rfl)
      rw [hp] at hpop
      obtain rfl : popPos = _ := hpop
      refine ⟨q, h.setConsumer (by rw [hp]; rfl) (by rw [hp]; rfl)
        (by rw [hp]; rfl) ⟨rfl, ?_⟩⟩
      cases hq : q.blocks with
      | nil => simp [hq] at hfront
      | cons x xs => exact congrArg some (hq ▸ h.nodes).head.symm
  · next popPos msgBlock hp =>
      cases hrun
      exact ⟨q, h.setEmpty hp⟩
  · next msgBlock hp =>
      cases hrun
      exact ⟨_, h.giveWriteAble hmax hp⟩

theorem Kept.take (h : s.Kept a n q) (hmax : n < a.sizeMod)
    {i : QueueStep τ} (hok : belowRange a s i) (hstep : s.take a i = some s') :
    ∃ q', s'.Kept a n q' := by
  cases i with
  | pushBack msgBlock =>
      simp only [SharedQueue.take] at hstep
      split at hstep
      · next hidle =>
          cases hstep
          exact ⟨q, h.callPushBack hidle hok⟩
      · cases hstep
  | producer => exact h.pushBack hmax hstep
  | popFront =>
      simp only [SharedQueue.take] at hstep
      split at hstep
      · next hidle =>
          cases hstep
          exact ⟨q, h.callPopFront hidle⟩
      · cases hstep
  | count =>
      simp only [SharedQueue.take] at hstep
      split at hstep
      · next hidle =>
          cases hstep
          refine ⟨q, h.record ?_ rfl rfl⟩
          rw [← h.count hidle]
          exact .count q
      · cases hstep
  | isEmpty =>
      simp only [SharedQueue.take] at hstep
      split at hstep
      · next hidle =>
          cases hstep
          refine ⟨q, h.record ?_ rfl rfl⟩
          rw [← h.count hidle]
          exact .isEmpty q
      · cases hstep
  | consumer => exact h.popFront hmax hstep

theorem Kept.refines (h : s.Kept a n q) : s.Refines n := by
  have hreadAble := h.readAble
  have hwriteAble := h.writeAble
  have hpushed := h.pushed_eq
  have hlen := h.pushed_length
  refine ⟨⟨q, h.gives⟩, hpushed ▸ List.prefix_append _ _,
    h.gives.valid, fun i hi hge => ?_, fun msgBlock pushPos hp => ?_,
    by omega, by omega⟩
  · have hnode := h.nodes (i - s.popped.length) (by omega)
    rw [Nat.add_sub_cancel' hge] at hnode
    simp only [hpushed, List.getElem_append_right hge]
    exact hnode
  · intro i hi hpos
    refine Nat.lt_of_not_le fun hge => ?_
    have hpush := h.push
    rw [hp] at hpush
    have hne := h.node_ne (i := i - s.popped.length)
      (by rw [hp]; rfl) (by omega)
    rw [Nat.add_sub_cancel' hge] at hne
    exact hne (hpos.trans hpush)

end SharedQueue

theorem reach_queueKept [Inhabited τ] {a : Abi} {n : Nat}
    (hmax : n < a.sizeMod) {s : SharedQueue τ}
    (hs : (queueMachine τ a n).Reach (SharedQueue.belowRange a) s) :
    ∃ q, s.Kept a n q := by
  induction hs with
  | start hstart => exact ⟨.new n, hstart ▸ .initial⟩
  | step _ hok hstep ih =>
      obtain ⟨q, h⟩ := ih
      exact h.take hmax hok hstep

/-- Whatever the order of the accesses of the two threads, a queue of any
capacity answers them like the queue of one thread, as long as fewer messages
are pushed than a position can count. -/
theorem reach_queueRefines [Inhabited τ] {a : Abi} {maxQueueSize : Nat}
    (hmax : maxQueueSize < a.sizeMod) {s : SharedQueue τ}
    (hs : (queueMachine τ a maxQueueSize).Reach
      (SharedQueue.belowRange a) s) : s.Refines maxQueueSize := by
  obtain ⟨q, h⟩ := reach_queueKept hmax hs
  exact h.refines

/-- Two messages go through a queue of one node, the second of them turned
away until the consumer is done with the first. -/
def queueSample : List (QueueStep Nat) :=
  .pushBack 7 :: List.replicate 5 .producer ++
    .popFront :: .pushBack 8 :: List.replicate 7 .consumer ++
    .isEmpty :: .pushBack 8 :: List.replicate 3 .producer ++
    .popFront :: List.replicate 2 .producer ++ [.count]

theorem reach_queueRefines_sample : ∃ s : SharedQueue Nat,
    (queueMachine Nat .lp64 1).run (SharedQueue.belowRange .lp64) (.new 1)
      queueSample = some s ∧ s.pushed = [7, 8] ∧ s.popped = [7] ∧
        s.Refines 1 := by
  have hrun : ((queueMachine Nat .lp64 1).run (SharedQueue.belowRange .lp64)
      (.new 1) queueSample).map (fun s => (s.pushed, s.popped)) =
        some ([7, 8], [7]) := by decide
  obtain ⟨s, hs, heq⟩ := Option.map_eq_some_iff.mp hrun
  obtain ⟨hpushed, hpopped⟩ := Prod.mk.inj heq
  exact ⟨s, hs, hpushed, hpopped,
    reach_queueRefines (by decide) (.of_run (.start rfl) hs)⟩

end AiEngine.Ref
