import AiEngine.Ref.SyncServer

/-!
# Every synchronous request is answered

A call waits without a timeout, so its task must not be lost. There are two
ways to lose one. `Process` returns early when the plugin left no response and
none can be made. And `PushBack` looks for room before it takes it: when two
calls see the last free node both take it, the count of free nodes falls below
zero, and one of them gets a node that is still in use.

Where neither happens the positions between `popPos` and `pushPos` belong to
one call each, and there are never more of them than nodes. So a filled node
has the task of the call at that position, and the worker answers it once.
-/

namespace AiEngine.Ref

open AiEngine.Lib

/-- The call has its task in the queue, or had it there. -/
def SyncPhase.sent : SyncPhase → Bool
  | .publish _ => true
  | .wait _ => true
  | .returned _ => true
  | _ => false

namespace SyncServer

/-- The task of the call is in the queue. -/
def Queued (s : SyncServer) (c : Nat) : Prop :=
  ∃ p, s.queue.popPos ≤ p ∧ p < s.queue.pushPos ∧
    s.queue.node.lookup (p % TaskQueue.totalNum) = some c

/-- The task is in the queue or with the worker. -/
def Outstanding (s : SyncServer) (c : Nat) : Prop :=
  s.Queued c ∨ s.worker.task = some c

end SyncServer

/-- A task that left the queue was answered once, on the notifier of its call,
any other was not, a call returns with the response to its own request, and no
notifier is used that is gone. -/
structure SyncAnswered (s : SyncServer) : Prop where
  sound : s.fault = none
  unanswered : ∀ c call, s.call.lookup c = some call →
    call.phase.sent = false ∨ s.Outstanding c → call.added = 0
  answered : ∀ c call, s.call.lookup c = some call →
    call.phase.sent = true → ¬ s.Outstanding c → call.added = 1
  own : ∀ c call response, s.call.lookup c = some call →
    call.phase = .returned response → response.request = c

/-- The plugin leaves a response or one can be made, and a call that saw room
finds it still there when it takes it. -/
def keepsTasks (s : SyncServer) : SyncStep → Prop
  | .process _ response newResponse => response = false → newResponse = true
  | .proceed c =>
      ∀ call ∈ s.call.lookup c, call.phase = .takeRoom →
        s.queue.writeAbleCount ≠ 0
  | _ => True

instance (s : SyncServer) (i : SyncStep) : Decidable (keepsTasks s i) := by
  unfold keepsTasks
  split <;> infer_instance

/-! ## Positions

A call that saw room holds a position in the queue until it has its answer.
The positions tell which node a call fills and when the worker comes to it. -/

/-- The position a call has. -/
def SyncPhase.position : SyncPhase → Option Nat
  | .fill pushPos => some pushPos
  | .publish pushPos => some pushPos
  | .wait pushPos => some pushPos
  | _ => none

/-- The position of a call that filled its node. -/
def SyncPhase.filled : SyncPhase → Option Nat
  | .publish pushPos => some pushPos
  | .wait pushPos => some pushPos
  | _ => none

theorem SyncPhase.over_of_filled {phase : SyncPhase} {p : Nat}
    (h : phase.filled = some p) : phase.over = false := by
  cases phase <;> first | rfl | cases h

theorem SyncPhase.position_of_filled {phase : SyncPhase} {p : Nat}
    (h : phase.filled = some p) : phase.position = some p := by
  cases phase <;> first | exact h | cases h

/-- Whether the worker has a task and has not given the node back. -/
def SyncWorker.releasing : SyncWorker → Nat
  | .release _ => 1
  | _ => 0

namespace SyncServer

variable {s : SyncServer}

def position (s : SyncServer) (c : Nat) : Option Nat :=
  (s.call.lookup c).bind (·.phase.position)

def filled (s : SyncServer) (c : Nat) : Option Nat :=
  (s.call.lookup c).bind (·.phase.filled)

/-- What a call knows of its notifier: nothing happened to it, or it has the
response to its request. -/
def CallOk (s : SyncServer) (c : Nat) (call : SyncCall) : Prop :=
  match call.phase with
  | .refused _ => call.added = 0
  | .returned response => call.added = 1 ∧ response.request = c
  | .fill p =>
      s.queue.popPos ≤ p ∧ call.added = 0 ∧ call.notifier = .new
  | .publish p | .wait p =>
      if s.queue.popPos ≤ p ∨ s.worker.task = some c then
        call.added = 0 ∧ call.notifier = .new
      else
        call.added = 1 ∧ ∃ retCode, call.notifier = ⟨some ⟨c, retCode⟩, 1⟩
  | _ => call.added = 0 ∧ call.notifier = .new

theorem position_insert (s : SyncServer) (c : Nat) (new : SyncCall) (d : Nat) :
    (s.setCall c new).position d =
      if d = c then new.phase.position else s.position d := by
  simp only [position, setCall, Table.lookup_insert_if]
  split <;> rfl

theorem filled_insert (s : SyncServer) (c : Nat) (new : SyncCall) (d : Nat) :
    (s.setCall c new).filled d =
      if d = c then new.phase.filled else s.filled d := by
  simp only [filled, setCall, Table.lookup_insert_if]
  split <;> rfl

theorem position_eq {c : Nat} {call : SyncCall}
    (hc : s.call.lookup c = some call) : s.position c = call.phase.position := by
  rw [position, hc]
  rfl

theorem filled_eq {c : Nat} {call : SyncCall}
    (hc : s.call.lookup c = some call) : s.filled c = call.phase.filled := by
  rw [filled, hc]
  rfl

theorem position_of_filled {c p : Nat} (h : s.filled c = some p) :
    s.position c = some p := by
  obtain ⟨call, hc, hp⟩ := Option.bind_eq_some_iff.mp h
  rw [position_eq hc]
  exact SyncPhase.position_of_filled hp

end SyncServer

/-! ## The nodes between the two positions

Every position from `popPos` to `pushPos` belongs to one call, which has
filled the node or is about to. This fixes what the worker finds at the head.
-/

/-- The calls share the nodes between the two positions. -/
structure TasksKept (s : SyncServer) : Prop where
  sound : s.fault = none
  numbered : ∀ c, c ∈ s.call → c < s.callNum
  ordered : s.queue.popPos ≤ s.queue.pushPos
  room : s.queue.pushPos + s.queue.writeAbleCount +
    Table.countWith (·.phase = .takePosition) s.call +
      s.worker.releasing = TaskQueue.totalNum + s.queue.popPos
  below : ∀ c p, s.position c = some p → p < s.queue.pushPos
  alone : ∀ c d p, s.position c = some p → s.position d = some p → c = d
  covered : ∀ p, s.queue.popPos ≤ p → p < s.queue.pushPos →
    ∃ c, s.position c = some p
  node : ∀ i c, s.queue.node.lookup i = some c ↔ ∃ p, s.filled c = some p ∧
    s.queue.popPos ≤ p ∧ p % TaskQueue.totalNum = i
  busy : ∀ c, s.worker.task = some c → ∃ p, s.filled c = some p ∧
    p < s.queue.popPos
  calls : ∀ c call, s.call.lookup c = some call → s.CallOk c call
  ended : s.worker = .stopped → s.listed = false ∧
    ∀ c call, s.call.lookup c = some call → call.phase.over = true

namespace TasksKept

variable {s s' : SyncServer}

theorem initial : TasksKept .initial where
  sound := rfl
  numbered := fun _ h => absurd h Finmap.notMem_empty
  ordered := Nat.le_refl _
  room := rfl
  below := by rintro c p ⟨⟩
  alone := by rintro c d p ⟨⟩
  covered := fun p _ h => absurd h (Nat.not_lt_zero p)
  node := by
    intro i c
    constructor
    · intro h
      cases (Finmap.lookup_empty _).symm.trans h
    · rintro ⟨p, ⟨⟩, -⟩
  busy := by rintro c ⟨⟩
  calls := fun _ _ h => by cases (Finmap.lookup_empty _).symm.trans h
  ended := by rintro ⟨⟩

/-- Where a call has not returned the worker runs. -/
theorem not_stopped (h : TasksKept s) {c : Nat} {call : SyncCall}
    (hc : s.call.lookup c = some call) (hover : call.phase.over = false) :
    s.worker ≠ .stopped := by
  intro hw
  have hall := (h.ended hw).2 c call hc
  rw [hover] at hall
  cases hall

/-- Two positions in use that share a node are one. -/
theorem same (h : TasksKept s) {p q : Nat} (hp : s.queue.popPos ≤ p)
    (hq : s.queue.popPos ≤ q) (hplt : p < s.queue.pushPos)
    (hqlt : q < s.queue.pushPos)
    (heq : p % TaskQueue.totalNum = q % TaskQueue.totalNum) : p = q := by
  have hroom := h.room
  simp only [TaskQueue.totalNum, maxSyncMsgNum] at hroom heq
  omega

/-- What is known of the positions stays as long as the calls keep theirs and
no room is taken that was not there. -/
theorem frame (h : TasksKept s) (hfault : s'.fault = s.fault)
    (hpop : s'.queue.popPos = s.queue.popPos)
    (hpush : s'.queue.pushPos = s.queue.pushPos)
    (hnode : s'.queue.node = s.queue.node)
    (hposition : ∀ d, s'.position d = s.position d)
    (hfilled : ∀ d, s'.filled d = s.filled d)
    (hnumbered : ∀ d, d ∈ s'.call → d < s'.callNum)
    (hroom : s'.queue.writeAbleCount +
        Table.countWith (·.phase = .takePosition) s'.call +
          s'.worker.releasing = s.queue.writeAbleCount +
        Table.countWith (·.phase = .takePosition) s.call +
          s.worker.releasing)
    (htask : ∀ d, s'.worker.task = some d → s.worker.task = some d)
    (hcalls : ∀ d call, s'.call.lookup d = some call → s'.CallOk d call)
    (hrun : s'.worker ≠ .stopped) : TasksKept s' where
  sound := hfault.trans h.sound
  numbered := hnumbered
  ordered := hpop ▸ hpush ▸ h.ordered
  room := by
    have hold := h.room
    rw [hpush, hpop]
    omega
  below := by
    intro d p hd
    rw [hpush]
    exact h.below d p ((hposition d).symm.trans hd)
  alone := by
    intro d e p hd he
    exact h.alone d e p ((hposition d).symm.trans hd)
      ((hposition e).symm.trans he)
  covered := by
    intro p hlo hhi
    obtain ⟨d, hd⟩ := h.covered p (hpop ▸ hlo) (hpush ▸ hhi)
    exact ⟨d, (hposition d).trans hd⟩
  node := by
    intro i d
    rw [hnode, hpop, hfilled d]
    exact h.node i d
  busy := by
    intro d hd
    obtain ⟨p, hp, hlt⟩ := h.busy d (htask d hd)
    exact ⟨p, (hfilled d).trans hp, hpop ▸ hlt⟩
  calls := hcalls
  ended := fun hw => absurd hw hrun

/-- A call changes and keeps its position, and no room is taken that was not
there. The worker may be done with the task of that call. -/
theorem change (h : TasksKept s) {c w : Nat} (r : Nat) {call new : SyncCall}
    {worker : SyncWorker} (hc : s.call.lookup c = some call)
    (hposition : new.phase.position = call.phase.position)
    (hfilled : new.phase.filled = call.phase.filled)
    (hroom : w + (if new.phase = .takePosition then 1 else 0) +
        worker.releasing = s.queue.writeAbleCount +
          (if call.phase = .takePosition then 1 else 0) + s.worker.releasing)
    (htask : ∀ d, worker.task = some d → s.worker.task = some d)
    (hothers : ∀ d, d ≠ c → s.worker.task = some d → worker.task = some d)
    (hrun : worker ≠ .stopped) (hok : { s with worker }.CallOk c new) :
    TasksKept { s with
      queue := { s.queue with writeAbleCount := w, readAbleCount := r }
      worker
      call := s.call.insert c new } := by
  have hpos : ∀ d, (s.setCall c new).position d = s.position d := by
    intro d
    rw [SyncServer.position_insert]
    split
    · next hd => rw [hd, hposition, SyncServer.position_eq hc]
    · rfl
  have hfill : ∀ d, (s.setCall c new).filled d = s.filled d := by
    intro d
    rw [SyncServer.filled_insert]
    split
    · next hd => rw [hd, hfilled, SyncServer.filled_eq hc]
    · rfl
  have hcount := Table.countWith_update (·.phase = .takePosition) new hc
  refine h.frame rfl rfl rfl rfl hpos hfill ?_ ?_ htask ?_ hrun
  · intro d hd
    rcases Finmap.mem_insert.mp hd with rfl | hd
    · exact h.numbered _ (Table.mem_of_lookup hc)
    · exact h.numbered d hd
  · dsimp only
    omega
  · intro d other hd
    rw [Table.lookup_insert_if] at hd
    split at hd
    · next heq =>
        cases hd
        exact heq ▸ hok
    · next hne =>
        have hold := h.calls d other hd
        have hiff : worker.task = some d ↔ s.worker.task = some d :=
          ⟨htask d, hothers d hne⟩
        unfold SyncServer.CallOk at hold ⊢
        simp only [hiff]
        exact hold

theorem setCall (h : TasksKept s) {c w : Nat} (r : Nat) {call new : SyncCall}
    (hc : s.call.lookup c = some call) (hover : call.phase.over = false)
    (hposition : new.phase.position = call.phase.position)
    (hfilled : new.phase.filled = call.phase.filled)
    (hroom : w + (if new.phase = .takePosition then 1 else 0) =
      s.queue.writeAbleCount + if call.phase = .takePosition then 1 else 0)
    (hok : s.CallOk c new) :
    TasksKept { s with
      queue := { s.queue with writeAbleCount := w, readAbleCount := r }
      call := s.call.insert c new } :=
  h.change r hc hposition hfilled (by omega) (fun _ => id) (fun _ _ => id)
    (h.not_stopped hc hover) hok

/-! ## The steps of a call

A call takes the next position, fills the node, which is empty then, and
returns with the response to its own request. -/

theorem takePosition (h : TasksKept s) {c : Nat} {call : SyncCall}
    (hc : s.call.lookup c = some call) (hphase : call.phase = .takePosition) :
    TasksKept
      ({ s with
        queue := { s.queue with pushPos := s.queue.pushPos + 1 } }.move c call
          (.fill s.queue.pushPos)) := by
  have hold : s.position c = none := by
    rw [SyncServer.position_eq hc, hphase]
    rfl
  have hcount := Table.countWith_update (·.phase = .takePosition)
    { call with phase := .fill s.queue.pushPos } hc
  simp only [hphase, if_true, reduceCtorEq, if_false] at hcount
  have hfill : ∀ d, (s.move c call (.fill s.queue.pushPos)).filled d =
      s.filled d := by
    intro d
    rw [SyncServer.move, SyncServer.filled_insert]
    split
    · next hd => rw [hd, SyncServer.filled_eq hc, hphase]; rfl
    · rfl
  refine ⟨h.sound, ?_, ?_, ?_, ?_, ?_, ?_, ?_, ?_, ?_,
    fun hw => absurd hw (h.not_stopped hc (by rw [hphase]; rfl))⟩
  · intro d hd
    rcases Finmap.mem_insert.mp hd with rfl | hd
    · exact h.numbered _ (Table.mem_of_lookup hc)
    · exact h.numbered d hd
  · have hle := h.ordered
    simp only [SyncServer.move, SyncServer.setCall]
    omega
  · have hroom := h.room
    simp only [SyncServer.move, SyncServer.setCall]
    omega
  · intro d p hd
    have hd' := (SyncServer.position_insert s c _ d).symm.trans hd
    split at hd'
    · cases hd'
      exact Nat.lt_succ_self _
    · exact Nat.lt_succ_of_lt (h.below d p hd')
  · intro d e p hd he
    have hd' := (SyncServer.position_insert s c _ d).symm.trans hd
    have he' := (SyncServer.position_insert s c _ e).symm.trans he
    split at hd' <;> split at he'
    · next hdc hec => rw [hdc, hec]
    · cases hd'
      exact absurd (h.below e _ he') (Nat.lt_irrefl _)
    · cases he'
      exact absurd (h.below d _ hd') (Nat.lt_irrefl _)
    · exact h.alone d e p hd' he'
  · intro p hlo hhi
    by_cases hp : p = s.queue.pushPos
    · refine ⟨c, (SyncServer.position_insert s c _ c).trans ?_⟩
      rw [if_pos rfl, hp]
      rfl
    · simp only [SyncServer.move, SyncServer.setCall] at hhi
      obtain ⟨d, hd⟩ := h.covered p hlo (by omega)
      refine ⟨d, (SyncServer.position_insert s c _ d).trans ?_⟩
      rw [if_neg ?_, hd]
      rintro rfl
      rw [hold] at hd
      cases hd
  · intro i d
    refine (h.node i d).trans ?_
    rw [← hfill d]
    rfl
  · intro d hd
    obtain ⟨p, hp, hlt⟩ := h.busy d hd
    exact ⟨p, (hfill d).trans hp, hlt⟩
  · intro d other hd
    simp only [SyncServer.move, SyncServer.setCall] at hd
    rw [Table.lookup_insert_if] at hd
    split at hd
    · cases hd
      have hok := h.calls c call hc
      simp only [SyncServer.CallOk, hphase] at hok ⊢
      exact ⟨h.ordered, hok⟩
    · exact h.calls d other hd

/-- The nodes once one is filled. No other call has filled it, because it
would have the same position. -/
theorem node_fill (h : TasksKept s) {c p : Nat} {new : SyncCall}
    (hpc : s.position c = some p) (hunfilled : s.filled c = none)
    (hlo : s.queue.popPos ≤ p) (hnew : new.phase.filled = some p)
    (i d : Nat) :
    (s.queue.node.insert (p % TaskQueue.totalNum) c).lookup i = some d ↔
      ∃ q, (s.setCall c new).filled d = some q ∧ s.queue.popPos ≤ q ∧
        q % TaskQueue.totalNum = i := by
  have hfill := SyncServer.filled_insert s c new d
  rw [Table.lookup_insert_if]
  constructor
  · intro hi
    split at hi
    · next heq =>
        cases hi
        exact ⟨p, hfill.trans ((if_pos rfl).trans hnew), hlo, heq.symm⟩
    · obtain ⟨q, hq, hrest⟩ := (h.node i d).mp hi
      refine ⟨q, hfill.trans ?_, hrest⟩
      rw [if_neg ?_, hq]
      rintro rfl
      rw [hunfilled] at hq
      cases hq
  · rintro ⟨q, hq, hqlo, hqi⟩
    have hq' := hfill.symm.trans hq
    split at hq'
    · next hd =>
        cases hnew.symm.trans hq'
        rw [if_pos hqi.symm, hd]
    · next hd =>
        have hqd := SyncServer.position_of_filled hq'
        rw [if_neg ?_]
        · exact (h.node i d).mpr ⟨q, hq', hqlo, hqi⟩
        · intro heq
          have hpq := h.same hqlo hlo (h.below d q hqd) (h.below c p hpc)
            (hqi.trans heq)
          exact hd (h.alone d c q hqd (hpq ▸ hpc))

/-- A call fills the node of its position, which is empty. -/
theorem fill (h : TasksKept s) {c p : Nat} {call : SyncCall}
    (hc : s.call.lookup c = some call) (hphase : call.phase = .fill p) :
    TasksKept
      ({ s with
        queue := { s.queue with
          node := s.queue.node.insert (p % TaskQueue.totalNum) c } }.move c
            call (.publish p)) := by
  have hpc : s.position c = some p := by
    rw [SyncServer.position_eq hc, hphase]
    rfl
  have hok := h.calls c call hc
  simp only [SyncServer.CallOk, hphase] at hok
  obtain ⟨hlo, hnew⟩ := hok
  have hpos : ∀ d, (s.move c call (.publish p)).position d =
      s.position d := by
    intro d
    rw [SyncServer.move, SyncServer.position_insert]
    split
    · next hd => rw [hd, hpc]; rfl
    · rfl
  have hcount := Table.countWith_update (·.phase = .takePosition)
    { call with phase := .publish p } hc
  simp only [hphase, reduceCtorEq, if_false, Nat.add_zero] at hcount
  have hunfilled : s.filled c = none := by
    rw [SyncServer.filled_eq hc, hphase]
    rfl
  have hnotbusy : s.worker.task ≠ some c := by
    intro hw
    obtain ⟨q, hq, -⟩ := h.busy c hw
    rw [hunfilled] at hq
    cases hq
  refine ⟨h.sound, ?_, h.ordered, ?_, ?_, ?_, ?_, ?_, ?_, ?_,
    fun hw => absurd hw (h.not_stopped hc (by rw [hphase]; rfl))⟩
  · intro d hd
    rcases Finmap.mem_insert.mp hd with rfl | hd
    · exact h.numbered _ (Table.mem_of_lookup hc)
    · exact h.numbered d hd
  · have hroom := h.room
    simp only [SyncServer.move, SyncServer.setCall]
    omega
  · intro d q hd
    exact h.below d q ((hpos d).symm.trans hd)
  · intro d e q hd he
    exact h.alone d e q ((hpos d).symm.trans hd) ((hpos e).symm.trans he)
  · intro q hlo hhi
    obtain ⟨d, hd⟩ := h.covered q hlo hhi
    exact ⟨d, (hpos d).trans hd⟩
  · exact h.node_fill hpc hunfilled hlo rfl
  · intro d hd
    obtain ⟨q, hq, hlt⟩ := h.busy d hd
    refine ⟨q, (SyncServer.filled_insert s c _ d).trans ?_, hlt⟩
    rw [if_neg ?_, hq]
    rintro rfl
    exact hnotbusy hd
  · intro d other hd
    simp only [SyncServer.move, SyncServer.setCall] at hd
    rw [Table.lookup_insert_if] at hd
    split at hd
    · cases hd
      simp only [SyncServer.CallOk]
      rw [if_pos (.inl hlo)]
      exact hnew
    · exact h.calls d other hd

theorem receiveResponse (h : TasksKept s) {c p : Nat} {call : SyncCall}
    (hc : s.call.lookup c = some call) (hphase : call.phase = .wait p)
    (hs : s.receiveResponse c call = some s') : TasksKept s' := by
  have hok := h.calls c call hc
  simp only [SyncServer.CallOk, hphase] at hok
  unfold SyncServer.receiveResponse at hs
  split at hok
  · rw [hok.2] at hs
    cases hs
  next hgone =>
    obtain ⟨hadded, retCode, hnotifier⟩ := hok
    rw [hnotifier] at hs
    cases hs
    have hlo : ¬ s.queue.popPos ≤ p := fun hle => hgone (.inl hle)
    have hpc : s.position c = some p := by
      rw [SyncServer.position_eq hc, hphase]
      rfl
    let new : SyncCall := { call with
      phase := .returned ⟨c, retCode⟩
      notifier := ⟨none, 1 - 1⟩ }
    have hpos := SyncServer.position_insert s c new
    have hfill := SyncServer.filled_insert s c new
    have hcount := Table.countWith_update (·.phase = .takePosition) new hc
    simp only [new, hphase, reduceCtorEq, if_false, Nat.add_zero] at hcount
    have hkeep : ∀ d q, (s.setCall c new).position d = some q →
        s.position d = some q := by
      intro d q hd
      rw [hpos] at hd
      split at hd
      · cases hd
      · exact hd
    refine ⟨h.sound, ?_, h.ordered, ?_, ?_, ?_, ?_, ?_, ?_, ?_,
      fun hw => absurd hw (h.not_stopped hc (by rw [hphase]; rfl))⟩
    · intro d hd
      rcases Finmap.mem_insert.mp hd with rfl | hd
      · exact h.numbered _ (Table.mem_of_lookup hc)
      · exact h.numbered d hd
    · have hroom := h.room
      simp only [SyncServer.setCall]
      omega
    · exact fun d q hd => h.below d q (hkeep d q hd)
    · exact fun d e q hd he => h.alone d e q (hkeep d q hd) (hkeep e q he)
    · intro q hqlo hhi
      obtain ⟨d, hd⟩ := h.covered q hqlo hhi
      refine ⟨d, (hpos d).trans ?_⟩
      rw [if_neg ?_, hd]
      rintro rfl
      rw [hpc] at hd
      cases hd
      exact hlo hqlo
    · intro i d
      refine (h.node i d).trans ?_
      constructor
      · rintro ⟨q, hq, hqlo, hqi⟩
        refine ⟨q, (hfill d).trans ?_, hqlo, hqi⟩
        rw [if_neg ?_, hq]
        rintro rfl
        have hqd := SyncServer.position_of_filled hq
        rw [hpc] at hqd
        cases hqd
        exact hlo hqlo
      · rintro ⟨q, hq, hrest⟩
        refine ⟨q, ?_, hrest⟩
        have hq' := (hfill d).symm.trans hq
        split at hq'
        · cases hq'
        · exact hq'
    · intro d hd
      obtain ⟨q, hq, hlt⟩ := h.busy d hd
      refine ⟨q, (hfill d).trans ?_, hlt⟩
      rw [if_neg ?_, hq]
      rintro rfl
      exact hgone (.inr hd)
    · intro d other hd
      simp only [SyncServer.setCall] at hd
      rw [Table.lookup_insert_if] at hd
      split at hd
      · next heq =>
          cases hd
          exact ⟨hadded, heq.symm⟩
      · exact h.calls d other hd

/-! ## The steps of the worker

The worker takes the task at the head, which the call of that position has put
there, and answers it on the notifier of that call. -/

/-- The worker goes on with the task it has, and counts. -/
theorem setWorker (h : TasksKept s) {w : Nat} (r : Nat) (worker : SyncWorker)
    (htask : worker.task = s.worker.task)
    (hroom : w + worker.releasing = s.queue.writeAbleCount + s.worker.releasing)
    (hrun : worker ≠ .stopped) :
    TasksKept { s with
      queue := { s.queue with writeAbleCount := w, readAbleCount := r }
      worker := worker } := by
  refine { h with room := ?_, busy := ?_, calls := ?_, ended := ?_ }
  · have hold := h.room
    dsimp only
    omega
  · intro c hc
    exact h.busy c (htask ▸ hc)
  · intro c call hc
    have hok := h.calls c call hc
    unfold SyncServer.CallOk at hok ⊢
    simp only [htask]
    exact hok
  · exact fun hw => absurd hw hrun

/-- The node at the head is filled by the call that has its position. -/
theorem head (h : TasksKept s) {c : Nat} (hc : s.queue.node.lookup
    (s.queue.popPos % TaskQueue.totalNum) = some c) :
    s.filled c = some s.queue.popPos := by
  obtain ⟨p, hp, hlo, heq⟩ := (h.node _ c).mp hc
  have hlt := h.below c p (SyncServer.position_of_filled hp)
  have hsame := h.same hlo (Nat.le_refl _) hlt (Nat.lt_of_le_of_lt hlo hlt) heq
  exact hsame ▸ hp

theorem ne_head (h : TasksKept s) {c d p : Nat}
    (hc : s.position c = some s.queue.popPos) (hd : s.position d = some p)
    (hdc : d ≠ c) : p ≠ s.queue.popPos := by
  rintro rfl
  exact hdc (h.alone d c _ hd hc)

/-- What the calls know when the worker has taken the task at the head. -/
theorem callOk_popTask (h : TasksKept s) {c : Nat} {queue : TaskQueue}
    (htask : s.worker.task = none) (hc : s.filled c = some s.queue.popPos)
    (hpop : queue.popPos = s.queue.popPos + 1) {d : Nat} {call : SyncCall}
    (hd : s.call.lookup d = some call) :
    { s with queue, worker := .release c }.CallOk d call := by
  have hok := h.calls d call hd
  have hpc := SyncServer.position_of_filled hc
  have hpd := SyncServer.position_eq hd
  have hfd := SyncServer.filled_eq hd
  unfold SyncServer.CallOk at hok ⊢
  cases hphase : call.phase with
  | count | checkRoom | takeRoom | takePosition | refused | returned =>
      simpa only [hphase] using hok
  | fill p =>
      simp only [hphase, hpop] at hok ⊢
      rw [hphase] at hpd hfd
      have hdc : d ≠ c := by
        rintro rfl
        rw [hc] at hfd
        cases hfd
      have hp := h.ne_head hpc hpd hdc
      exact ⟨by omega, hok.2⟩
  | publish p | wait p =>
      simp only [hphase, hpop, htask] at hok ⊢
      rw [hphase] at hpd hfd
      by_cases hdc : d = c
      · rw [hdc, hc] at hfd
        cases hfd
        rw [if_pos (.inl (Nat.le_refl _))] at hok
        rw [if_pos (.inr (by rw [hdc]; rfl))]
        exact hok
      · have hp := h.ne_head hpc hpd hdc
        have hcd : c ≠ d := Ne.symm hdc
        have hiff : (s.queue.popPos + 1 ≤ p ∨
            (SyncWorker.release c).task = some d) ↔
              (s.queue.popPos ≤ p ∨ none = some d) := by
          simp only [SyncWorker.task, Option.some.injEq, hcd, reduceCtorEq,
            or_false]
          omega
        simpa only [hiff] using hok

theorem popTask (h : TasksKept s) {c : Nat} (hw : s.worker = .look)
    (hc : s.queue.node.lookup
      (s.queue.popPos % TaskQueue.totalNum) = some c) :
    TasksKept { s with
      queue := { s.queue with
        popPos := s.queue.popPos + 1
        node := s.queue.node.erase
          (s.queue.popPos % TaskQueue.totalNum) }
      worker := .release c } := by
  have hfilled := h.head hc
  have hlt := h.below c _ (SyncServer.position_of_filled hfilled)
  refine { h with
    ordered := hlt, room := ?_, covered := ?_, node := ?_, busy := ?_,
    calls := ?_, ended := ?_ }
  · have hroom := h.room
    simp only [hw, SyncWorker.releasing] at hroom ⊢
    omega
  · intro p hlo hhi
    exact h.covered p (Nat.le_of_succ_le hlo) hhi
  · intro i d
    dsimp only
    rw [Table.lookup_erase_if]
    split
    · next hi =>
        refine iff_of_false (by simp) ?_
        rintro ⟨p, hp, hlo, hpi⟩
        have hp' := SyncServer.position_of_filled hp
        have hsame := h.same (Nat.le_of_succ_le hlo) (Nat.le_refl _)
          (h.below d p hp') hlt (hpi.trans hi)
        omega
    · next hi =>
        refine (h.node i d).trans ⟨?_, ?_⟩
        · rintro ⟨p, hp, hlo, rfl⟩
          have hne : p ≠ s.queue.popPos := fun heq => hi (heq ▸ rfl)
          exact ⟨p, hp, by omega, rfl⟩
        · rintro ⟨p, hp, hlo, hpi⟩
          exact ⟨p, hp, by omega, hpi⟩
  · rintro d ⟨⟩
    exact ⟨_, hfilled, Nat.lt_succ_self _⟩
  · exact fun d call hd =>
      h.callOk_popTask (by rw [hw]; rfl) hfilled rfl hd
  · rintro ⟨⟩

theorem answer (h : TasksKept s) {c : Nat} (retCode : Int)
    (hw : s.worker = .process c) :
    TasksKept ({ s with worker := .idle }.addToBack c ⟨c, retCode⟩) := by
  obtain ⟨p, hp, hlt⟩ := h.busy c (by rw [hw]; rfl)
  obtain ⟨call, hc, hcp⟩ := Option.bind_eq_some_iff.mp hp
  have hover := SyncPhase.over_of_filled hcp
  have hadd : { s with worker := .idle }.addToBack c ⟨c, retCode⟩ =
      { s with worker := .idle }.setCall c
        { call with
          notifier := call.notifier.addToBack ⟨c, retCode⟩
          added := call.added + 1 } := by
    simp [SyncServer.addToBack, hc, hover]
  have hok := h.calls c call hc
  rw [hadd]
  refine h.change s.queue.readAbleCount hc rfl rfl ?_ ?_ ?_ ?_ ?_
  · rw [hw]
    rfl
  · rintro d ⟨⟩
  · intro d hdc hd
    rw [hw] at hd
    exact absurd (Option.some.inj hd).symm hdc
  · rintro ⟨⟩
  · unfold SyncServer.CallOk at hok ⊢
    cases hphase : call.phase with
    | count | checkRoom | takeRoom | takePosition | refused | returned
    | fill =>
        rw [hphase] at hcp
        cases hcp
    | publish q | wait q =>
        rw [hphase] at hcp
        cases hcp
        simp only [hphase] at hok ⊢
        rw [if_pos (.inr (by rw [hw]; rfl))] at hok
        rw [if_neg (by simp [SyncWorker.task]; omega)]
        obtain ⟨hadded, hnotifier⟩ := hok
        rw [hadded, hnotifier]
        exact ⟨rfl, retCode, rfl⟩

/-! ## Calls that come and the worker that stops

A new call has no position. The worker stops only when no call is left, so
that `ClearQueue` finds nothing to release. -/

theorem syncExecute (h : TasksKept s) (hlisted : s.listed = true) :
    TasksKept { s with
      call := s.call.insert s.callNum ⟨.count, .new, 0⟩
      callNum := s.callNum + 1 } := by
  have hfresh : s.call.lookup s.callNum = none := by
    refine Finmap.lookup_eq_none.mpr fun hin => ?_
    exact Nat.lt_irrefl _ (h.numbered _ hin)
  have hrun : s.worker ≠ .stopped := by
    intro hw
    have hgone := (h.ended hw).1
    rw [hlisted] at hgone
    cases hgone
  have hposition : s.position s.callNum = none := by
    rw [SyncServer.position, hfresh]
    rfl
  have hpos : ∀ d, (s.setCall s.callNum ⟨.count, .new, 0⟩).position d =
      s.position d := by
    intro d
    rw [SyncServer.position_insert]
    split
    · next hd =>
        rw [hd, hposition]
        rfl
    · rfl
  have hfill : ∀ d, (s.setCall s.callNum ⟨.count, .new, 0⟩).filled d =
      s.filled d := by
    intro d
    rw [SyncServer.filled_insert]
    split
    · next hd =>
        rw [hd, SyncServer.filled, hfresh]
        rfl
    · rfl
  have hcount := Table.countWith_insert (·.phase = .takePosition)
    (⟨.count, .new, 0⟩ : SyncCall) hfresh
  simp only [reduceCtorEq, if_false, Nat.add_zero] at hcount
  refine h.frame rfl rfl rfl rfl hpos hfill ?_ ?_ (fun _ => id) ?_ hrun
  · intro d hd
    rcases Finmap.mem_insert.mp hd with rfl | hd
    · exact Nat.lt_succ_self _
    · exact Nat.lt_succ_of_lt (h.numbered d hd)
  · dsimp only
    omega
  · intro d other hd
    rw [Table.lookup_insert_if] at hd
    split at hd
    · cases hd
      exact ⟨rfl, rfl⟩
    · exact h.calls d other hd

theorem move (h : TasksKept s) {c w : Nat} {call : SyncCall}
    (phase : SyncPhase) (r : Nat) (hc : s.call.lookup c = some call)
    (hsame : call.phase.over = false ∧
      phase.position = call.phase.position ∧
      phase.filled = call.phase.filled)
    (hroom : w + (if phase = .takePosition then 1 else 0) =
      s.queue.writeAbleCount + if call.phase = .takePosition then 1 else 0)
    (hok : s.CallOk c { call with phase }) :
    TasksKept ({ s with
      queue := { s.queue with
        writeAbleCount := w
        readAbleCount := r } }.move c call phase) :=
  h.setCall r hc hsame.1 hsame.2.1 hsame.2.2 hroom hok

theorem proceed (h : TasksKept s) {c : Nat} (hok : keepsTasks s (.proceed c))
    (hs : s.proceed c = some s') : TasksKept s' := by
  unfold SyncServer.proceed at hs
  split at hs
  · cases hs
  next call hc =>
    have hcall := h.calls c call hc
    simp only [SyncServer.CallOk] at hcall
    split at hs
    · next hphase =>
        simp only [hphase] at hcall
        split at hs
        · cases hs
          exact h.move (.refused _) _ hc (by rw [hphase]; exact ⟨rfl, rfl, rfl⟩)
            (by simp [hphase]) hcall.1
        · cases hs
          exact h.move .checkRoom _ hc (by rw [hphase]; exact ⟨rfl, rfl, rfl⟩)
            (by simp [hphase]) hcall
    · next hphase =>
        simp only [hphase] at hcall
        split at hs
        · cases hs
          exact h.move (.refused _) _ hc (by rw [hphase]; exact ⟨rfl, rfl, rfl⟩)
            (by simp [hphase]) hcall.1
        · cases hs
          exact h.move .takeRoom _ hc (by rw [hphase]; exact ⟨rfl, rfl, rfl⟩)
            (by simp [hphase]) hcall
    · next hphase =>
        simp only [hphase] at hcall
        cases hs
        have hroom := hok call hc hphase
        refine h.move .takePosition _ hc
          (by rw [hphase]; exact ⟨rfl, rfl, rfl⟩) ?_ hcall
        simp only [hphase, TaskQueue.decrement, if_neg hroom, if_true,
          reduceCtorEq, if_false]
        omega
    · next hphase =>
        cases hs
        exact h.takePosition hc hphase
    · next p hphase =>
        cases hs
        exact h.fill hc hphase
    · next p hphase =>
        simp only [hphase] at hcall
        cases hs
        exact h.move (.wait p) _ hc (by rw [hphase]; exact ⟨rfl, rfl, rfl⟩)
          (by simp [hphase]) hcall
    · next p hphase => exact h.receiveResponse hc hphase hs
    · cases hs
    · cases hs

theorem oneAction (h : TasksKept s) (hs : s.oneAction = some s') :
    TasksKept s' := by
  have hroom := h.room
  unfold SyncServer.oneAction at hs
  split at hs
  · next hw =>
      unfold SyncServer.startPop at hs
      split at hs
      · cases hs
      · cases hs
        exact h.setWorker _ .look (by rw [hw]; rfl) (by rw [hw]; rfl)
          (by rintro ⟨⟩)
  · next hw =>
      unfold SyncServer.takeTask at hs
      dsimp only at hs
      split at hs
      · cases hs
        exact h.setWorker _ .idle (by rw [hw]; rfl) (by rw [hw]; rfl)
          (by rintro ⟨⟩)
      · next c hc =>
          cases hs
          exact h.popTask hw hc
  · next c hw =>
      cases hs
      refine h.setWorker _ (.process c) (by rw [hw]; rfl) ?_ (by rintro ⟨⟩)
      have hle := h.ordered
      have hne : s.queue.writeAbleCount ≠ TaskQueue.sizeMax := by
        simp only [TaskQueue.totalNum, maxSyncMsgNum] at hroom
        simp only [TaskQueue.sizeMax]
        omega
      rw [hw, TaskQueue.increment, if_neg hne]
      rfl
  · cases hs
  · cases hs

theorem stopThread (h : TasksKept s) (hs : s.stopThread = some s') :
    TasksKept s' := by
  unfold SyncServer.stopThread at hs
  split at hs
  · cases hs
  next hready =>
    cases hs
    simp only [not_or, Nat.not_lt, Nat.le_zero, not_not,
      Bool.not_eq_true] at hready
    obtain ⟨hlisted, hw, hcalls⟩ := hready
    refine { h with room := ?_, busy := ?_, calls := ?_, ended := ?_ }
    · have hroom := h.room
      rw [hw] at hroom
      exact hroom
    · rintro c ⟨⟩
    · intro c call hc
      have hok := h.calls c call hc
      unfold SyncServer.CallOk at hok ⊢
      simp only [hw] at hok
      exact hok
    · refine fun _ => ⟨hlisted, fun c call hc => ?_⟩
      have hover := (Table.countWith_eq_zero _).mp hcalls c call hc
      simpa using hover

/-- `ClearQueue` finds nothing. -/
theorem clearQueue (h : TasksKept s) : s.clearQueue = none := by
  unfold SyncServer.clearQueue
  split
  · rfl
  next hready =>
    simp only [not_or, not_not] at hready
    dsimp only
    split
    · rfl
    next c hc =>
      obtain ⟨call, hcall, hp⟩ := Option.bind_eq_some_iff.mp (h.head hc)
      have hover := (h.ended hready.1).2 c call hcall
      rw [SyncPhase.over_of_filled hp] at hover
      cases hover

theorem take (h : TasksKept s) {i : SyncStep} (hok : keepsTasks s i)
    (hs : s.take i = some s') : TasksKept s' := by
  cases i with
  | syncExecute =>
      simp only [SyncServer.take, SyncServer.syncExecute] at hs
      split at hs
      · next hlisted =>
          cases hs
          exact h.syncExecute hlisted
      · cases hs
  | proceed c => exact h.proceed hok hs
  | oneAction => exact h.oneAction hs
  | process processRetCode response newResponse =>
      simp only [SyncServer.take, SyncServer.process] at hs
      split at hs
      · next c hw =>
          split at hs
          · next hlost =>
              simp only [Bool.not_eq_true] at hlost
              exact absurd (hok hlost.1) (by simp [hlost.2])
          · cases hs
            exact h.answer _ hw
      · cases hs
  | stopEngine =>
      cases hs
      exact { h with ended := fun hw => ⟨rfl, (h.ended hw).2⟩ }
  | stopThread => exact h.stopThread hs
  | clearQueue =>
      simp only [SyncServer.take, h.clearQueue] at hs
      cases hs

end TasksKept

/-- In runs that keep the tasks, the calls share the nodes. -/
theorem reach_tasksKept {s : SyncServer}
    (hs : syncMachine.Reach keepsTasks s) : TasksKept s := by
  refine hs.invariant ?_ ?_
  · rintro s rfl
    exact .initial
  · intro s i s' h hok hstep
    simp only [syncMachine] at hstep
    split at hstep
    · exact h.take hok hstep
    · cases hstep

/-! ## What is answered

A task that left the queue and that the worker has not got is answered, with
what the plugin gave. -/

/-- The tasks that are not answered are those in the queue or at the worker. -/
theorem TasksKept.outstanding {s : SyncServer} (h : TasksKept s) {c : Nat} :
    s.Outstanding c ↔ ∃ p, s.filled c = some p ∧
      (s.queue.popPos ≤ p ∨ s.worker.task = some c) := by
  constructor
  · rintro (⟨q, hlo, hlt, hq⟩ | hw)
    · obtain ⟨p, hp, hplo, -⟩ := (h.node _ c).mp hq
      exact ⟨p, hp, .inl hplo⟩
    · obtain ⟨p, hp, -⟩ := h.busy c hw
      exact ⟨p, hp, .inr hw⟩
  · rintro ⟨p, hp, hlo | hw⟩
    · have hlt := h.below c p (SyncServer.position_of_filled hp)
      exact .inl ⟨p, hlo, hlt, (h.node _ c).mpr ⟨p, hp, hlo, rfl⟩⟩
    · exact .inr hw

theorem TasksKept.answered {s : SyncServer} (h : TasksKept s) :
    SyncAnswered s where
  sound := h.sound
  unanswered := by
    intro c call hc hor
    have hok := h.calls c call hc
    have hfc := SyncServer.filled_eq hc
    rw [h.outstanding] at hor
    unfold SyncServer.CallOk at hok
    cases hphase : call.phase with
    | count | checkRoom | takeRoom | takePosition =>
        simp only [hphase] at hok
        exact hok.1
    | refused =>
        simp only [hphase] at hok
        exact hok
    | fill p =>
        simp only [hphase] at hok
        exact hok.2.1
    | publish p | wait p =>
        simp only [hphase] at hok
        rw [hphase] at hor hfc
        obtain ⟨q, hq, hout⟩ := hor.resolve_left (by simp [SyncPhase.sent])
        rw [hq] at hfc
        cases hfc
        rw [if_pos hout] at hok
        exact hok.1
    | returned response =>
        rw [hphase] at hor hfc
        obtain ⟨q, hq, -⟩ := hor.resolve_left (by simp [SyncPhase.sent])
        rw [hq] at hfc
        cases hfc
  answered := by
    intro c call hc hsent hout
    have hok := h.calls c call hc
    have hfc := SyncServer.filled_eq hc
    rw [h.outstanding] at hout
    unfold SyncServer.CallOk at hok
    cases hphase : call.phase with
    | count | checkRoom | takeRoom | takePosition | refused | fill =>
        rw [hphase] at hsent
        cases hsent
    | publish p | wait p =>
        simp only [hphase] at hok
        rw [hphase] at hfc
        rw [if_neg fun hin => hout ⟨p, hfc, hin⟩] at hok
        exact hok.1
    | returned response =>
        simp only [hphase] at hok
        exact hok.1
  own := by
    intro c call response hc hphase
    have hok := h.calls c call hc
    simp only [SyncServer.CallOk, hphase] at hok
    exact hok.2

/-- Where every task can be answered and no node is shared, every request is
answered once, and with its own response. -/
theorem reach_syncAnswered {s : SyncServer}
    (hs : syncMachine.Reach keepsTasks s) : SyncAnswered s :=
  (reach_tasksKept hs).answered

/-- Two calls come while the worker waits. The plugin leaves a response for
the first one, and none for the second. -/
def syncSample (newResponse : Bool) : List SyncStep :=
  [.syncExecute, .syncExecute] ++ List.replicate 6 (.proceed 1) ++
    List.replicate 6 (.proceed 0) ++ List.replicate 3 .oneAction ++
    [.process Retcode.success true false, .proceed 1] ++
    List.replicate 3 .oneAction ++
    [.process Retcode.failure false newResponse]

set_option maxRecDepth 4000 in
theorem reach_syncAnswered_sample : ∃ s,
    syncMachine.run keepsTasks .initial
      (syncSample true ++ [.proceed 0, .stopEngine, .stopThread]) = some s ∧
        SyncAnswered s := by
  have hrun : (syncMachine.run keepsTasks .initial
      (syncSample true ++
        [.proceed 0, .stopEngine, .stopThread])).isSome := by decide
  obtain ⟨s, hs⟩ := Option.isSome_iff_exists.mp hrun
  exact ⟨s, hs, reach_syncAnswered (.of_run (.start rfl) hs)⟩

set_option maxRecDepth 4000 in
/-- No response can be made for the second call, which waits for ever. -/
theorem syncSample_not_syncAnswered :
    ∃ s, syncMachine.Reach Machine.anyStep s ∧ ¬ SyncAnswered s := by
  have hrun : (syncMachine.run Machine.anyStep .initial
      (syncSample false)).map (fun s => (s.worker, s.queue.popPos,
        s.queue.pushPos, s.call.lookup 0)) =
      some (.idle, 2, 2, some ⟨.wait 1, .new, 0⟩) := by decide
  obtain ⟨s, hs, heq⟩ := Option.map_eq_some_iff.mp hrun
  simp only [Prod.mk.injEq] at heq
  obtain ⟨hw, hpop, hpush, hc⟩ := heq
  refine ⟨s, .of_run (.start rfl) hs, fun h => ?_⟩
  have hout : ¬ s.Outstanding 0 := by
    rintro (⟨p, hlo, hlt, -⟩ | htask)
    · omega
    · rw [hw] at htask
      cases htask
  cases h.answered 0 _ hc rfl hout

end AiEngine.Ref
