import AiEngine.Ref.RequestServer

/-!
# A request is released once

A request has two ways to its end. The guard of its call destroys it when the
call returns, unless the call was queued asynchronously; and an asynchronous
handler or `ClearQueue` destroys it with its task. What was freed is counted
from the record of the call, by these two. They never both count for a call
that has returned. Neither counts where the message never became a request,
and where a synchronous handler processed the task of an asynchronous call.
-/

namespace AiEngine.Ref

open AiEngine.Lib

/-- The task of the call was not pushed yet. -/
def ExecPhase.early : ExecPhase → Bool
  | .pushed _ => false
  | .ended _ => false
  | _ => true

namespace ExecCall

/-- The guard destroyed the request. -/
def guardFrees (call : ExecCall) : Nat :=
  match call.phase, call.kind, call.task with
  | .ended _, .sync, _ => 1
  | .ended _, .async, none => 1
  | _, _, _ => 0

/-- A handler or `ClearQueue` destroyed the request. -/
def taskFrees (call : ExecCall) : Nat :=
  match call.task with
  | some (.processed .async) => 1
  | some .dropped => 1
  | _ => 0

/-- How often the request was destroyed, if there is one. -/
def frees (call : ExecCall) : Nat :=
  if call.request = none then 0 else call.guardFrees + call.taskFrees

/-- How often the buffer was freed. -/
def bufferFrees (call : ExecCall) : Nat :=
  if call.inputInfo.data = .null then 0 else call.frees

/-- What holds of a call by itself. -/
structure Sound (call : ExecCall) : Prop where
  msg : ∀ request ∈ call.request, request.msg = call.inputInfo
  unparcelled : call.phase = .unparcelled → call.request = none
  early : call.phase.early → call.task = none
  pushed : ∀ e, call.phase = .pushed e → call.task ≠ none
  request : call.task ≠ none → call.request ≠ none
  found : ∀ e, call.phase.engine = some e → call.request ≠ none
  answered : call.notifier ≠ none → call.task = some (.processed .sync)
  ended : ∀ retCode, call.phase = .ended retCode → call.kind = .sync →
    call.task = none ∨ call.task = some (.processed .sync)

/-- What holds of a call where nothing went wrong: the buffer has an owner,
and the handler was of the kind of the call. -/
structure Right (call : ExecCall) : Prop where
  owned : call.request = none →
    call.phase = .unparcelled ∨ call.inputInfo.data = .null
  handled : call.kind = .async → call.task ≠ some (.processed .sync)

/-- The call has returned, and no task of it is queued or with a handler. -/
def Settled (call : ExecCall) : Prop :=
  (∃ retCode, call.phase = .ended retCode) ∧
    ∀ e, call.task ≠ some (.queued e) ∧ call.task ≠ some (.processing e)

variable {call call' : ExecCall}

theorem guardFrees_of_early (h : call.phase.early) : call.guardFrees = 0 := by
  rw [guardFrees]
  cases hphase : call.phase with
  | ended retCode =>
      rw [hphase] at h
      cases h
  | unparcelled | guarded | engineFound | counted | futureCreated | pushed =>
      rfl

theorem guardFrees_of_pushed {e : Nat} (h : call.phase = .pushed e) :
    call.guardFrees = 0 := by
  rw [guardFrees, h]

theorem taskFrees_of_none (h : call.task = none) : call.taskFrees = 0 := by
  rw [taskFrees, h]

/-- One of the two has destroyed the request of a call that is settled. -/
theorem Sound.frees_eq_one (h : call.Sound) (hright : call.Right)
    (hsettled : call.Settled) (hrequest : call.request ≠ none) :
    call.frees = 1 := by
  obtain ⟨⟨retCode, hover⟩, hdone⟩ := hsettled
  rw [frees, if_neg hrequest, guardFrees, taskFrees, hover]
  cases hkind : call.kind with
  | sync =>
      rcases h.ended retCode hover hkind with htask | htask
      · rw [htask]
        rfl
      · rw [htask]
        rfl
  | async =>
      rcases htask : call.task with _ | e | e | ⟨_ | _⟩ | _
      · rfl
      · exact absurd htask (hdone e).1
      · exact absurd htask (hdone e).2
      · exact absurd htask (hright.handled hkind)
      · rfl
      · rfl

end ExecCall

/-- What `IRequest::Destroy` frees. -/
def requestBlocks (c : Nat) : Option Request → List Block
  | none => []
  | some request =>
      if request.msg.data = .null then [.request c]
      else [.buffer c, .request c]

namespace RequestServer

theorem destroyRequest_eq (s : RequestServer) (c : Nat)
    (request : Option Request) :
    s.destroyRequest c request =
      { s with freed := s.freed ++ requestBlocks c request } := by
  rcases request with _ | request
  · rw [destroyRequest, requestBlocks, List.append_nil]
  · rw [destroyRequest, requestBlocks]
    split <;> rfl

end RequestServer

theorem count_requestBlocks_ne {c d : Nat} (hne : d ≠ c)
    (request : Option Request) :
    (requestBlocks c request).count (.request d) = 0 ∧
      (requestBlocks c request).count (.buffer d) = 0 := by
  have hrequest : Block.request c ≠ .request d := fun h => by
    cases h
    exact hne rfl
  have hbuffer : Block.buffer c ≠ .buffer d := fun h => by
    cases h
    exact hne rfl
  rcases request with _ | request
  · exact ⟨rfl, rfl⟩
  · rw [requestBlocks]
    split <;> simp [hrequest, hbuffer]

theorem count_requestBlocks (c : Nat) (request : Request) :
    (requestBlocks c (some request)).count (.request c) = 1 ∧
      (requestBlocks c (some request)).count (.buffer c) =
        if request.msg.data = .null then 0 else 1 := by
  rw [requestBlocks]
  split <;> simp

/-- What was freed of a call is what its record says. -/
structure ExecCallKept (freed : List Block) (c : Nat) (call : ExecCall) :
    Prop where
  sound : call.Sound
  right : call.Right
  request : freed.count (.request c) = call.frees
  buffer : freed.count (.buffer c) = call.bufferFrees

theorem ExecCallKept.beside {freed : List Block} {c d : Nat} {call : ExecCall}
    (h : ExecCallKept freed d call) (hne : d ≠ c) (request : Option Request) :
    ExecCallKept (freed ++ requestBlocks c request) d call := by
  obtain ⟨hrequest, hbuffer⟩ := count_requestBlocks_ne hne request
  refine ⟨h.sound, h.right, ?_, ?_⟩
  · rw [List.count_append, hrequest, Nat.add_zero, h.request]
  · rw [List.count_append, hbuffer, Nat.add_zero, h.buffer]

/-- The calls, which are numbered. -/
structure ExecCallsKept (call : Table Nat ExecCall) (freed : List Block)
    (callNum : Nat) : Prop where
  calls : ∀ c x, call.lookup c = some x → ExecCallKept freed c x
  fresh : ∀ c, callNum ≤ c → call.lookup c = none ∧
    freed.count (.request c) = 0 ∧ freed.count (.buffer c) = 0

variable {t : Table Nat ExecCall} {freed : List Block} {n c : Nat}
variable {call call' : ExecCall}

theorem ExecCallKept.moved (h : ExecCallKept freed c call) (hsound : call'.Sound)
    (hright : call'.Right) (hdata : call'.inputInfo = call.inputInfo)
    (hfrees : call'.frees = call.frees) : ExecCallKept freed c call' := by
  refine ⟨hsound, hright, hfrees ▸ h.request, ?_⟩
  rw [h.buffer, ExecCall.bufferFrees, ExecCall.bufferFrees, hdata, hfrees]

/-- A step that destroys the request of a call, if it has one. -/
theorem ExecCallKept.destroyed (h : ExecCallKept freed c call)
    (hsound : call'.Sound) (hright : call'.Right)
    (hdata : call'.inputInfo = call.inputInfo)
    (hrequest : call'.request = none ↔ call.request = none)
    (hfrees : call'.guardFrees + call'.taskFrees =
      call.guardFrees + call.taskFrees + 1) :
    ExecCallKept (freed ++ requestBlocks c call'.request) c call' := by
  cases hreq : call'.request with
  | none =>
      have hnone : call'.frees = call.frees := by
        rw [ExecCall.frees, ExecCall.frees, if_pos hreq,
          if_pos (hrequest.mp hreq)]
      rw [requestBlocks, List.append_nil]
      exact h.moved hsound hright hdata hnone
  | some request =>
      have hold : call.request ≠ none := fun hnone => by
        rw [hrequest.mpr hnone] at hreq
        cases hreq
      have hone : call'.frees = call.frees + 1 := by
        rw [ExecCall.frees, ExecCall.frees, if_neg (by simp [hreq]),
          if_neg hold, hfrees]
      have hmsg := hsound.msg request hreq
      obtain ⟨hcount, hbuffer⟩ := count_requestBlocks c request
      refine ⟨hsound, hright, ?_, ?_⟩
      · rw [List.count_append, hcount, h.request, hone]
      · rw [List.count_append, hbuffer, h.buffer, ExecCall.bufferFrees,
          ExecCall.bufferFrees, hmsg, hone, hdata]
        split <;> rfl

namespace ExecCallsKept

theorem initial : ExecCallsKept ∅ [] 0 where
  calls := fun _ _ h => by cases (Finmap.lookup_empty _).symm.trans h
  fresh := fun _ _ => ⟨Finmap.lookup_empty _, rfl, rfl⟩

theorem lt (h : ExecCallsKept t freed n) (hc : t.lookup c = some call) :
    c < n := by
  refine Nat.lt_of_not_le fun hle => ?_
  rw [(h.fresh c hle).1] at hc
  cases hc

theorem update (h : ExecCallsKept t freed n) (hc : t.lookup c = some call)
    (hkept : ExecCallKept freed c call') :
    ExecCallsKept (t.insert c call') freed n where
  calls := by
    intro d x hd
    rw [Table.lookup_insert_if] at hd
    split at hd
    · next heq =>
        cases hd
        exact heq ▸ hkept
    · exact h.calls d x hd
  fresh := by
    intro d hle
    have hne : d ≠ c := fun heq => Nat.not_lt.mpr hle (heq ▸ h.lt hc)
    rw [Table.lookup_insert_if, if_neg hne]
    exact h.fresh d hle

theorem destroy (h : ExecCallsKept t freed n) (hc : t.lookup c = some call)
    {request : Option Request}
    (hkept : ExecCallKept (freed ++ requestBlocks c request) c call') :
    ExecCallsKept (t.insert c call') (freed ++ requestBlocks c request) n where
  calls := by
    intro d x hd
    rw [Table.lookup_insert_if] at hd
    split at hd
    · next heq =>
        cases hd
        exact heq ▸ hkept
    · next hne => exact (h.calls d x hd).beside hne request
  fresh := by
    intro d hle
    have hne : d ≠ c := fun heq => Nat.not_lt.mpr hle (heq ▸ h.lt hc)
    obtain ⟨hrequest, hbuffer⟩ := count_requestBlocks_ne hne request
    obtain ⟨hlook, hreq, hbuf⟩ := h.fresh d hle
    rw [Table.lookup_insert_if, if_neg hne, List.count_append,
      List.count_append, hrequest, hbuffer, hreq, hbuf]
    exact ⟨hlook, rfl, rfl⟩

theorem invoke (h : ExecCallsKept t freed n) (hphase : call.phase = .unparcelled)
    (hrequest : call.request = none) (htask : call.task = none)
    (hnotifier : call.notifier = none) :
    ExecCallsKept (t.insert n call) freed (n + 1) where
  calls := by
    intro d x hd
    rw [Table.lookup_insert_if] at hd
    split at hd
    · next heq =>
        cases hd
        obtain ⟨-, hreq, hbuf⟩ := h.fresh n (Nat.le_refl n)
        have hfrees : call.frees = 0 := by rw [ExecCall.frees, if_pos hrequest]
        subst heq
        refine ⟨⟨by simp [hrequest], fun _ => hrequest, fun _ => htask,
          by simp [hphase], fun hne => absurd htask hne, ?_, fun hne =>
            absurd hnotifier hne, by simp [hphase]⟩, ⟨fun _ => .inl hphase,
              by simp [htask]⟩, hreq.trans hfrees.symm, hbuf.trans ?_⟩
        · simp [hphase, ExecPhase.engine]
        · rw [ExecCall.bufferFrees, hfrees, ite_self]
    · exact h.calls d x hd
  fresh := by
    intro d hle
    rw [Table.lookup_insert_if, if_neg (by omega)]
    exact h.fresh d (by omega)

end ExecCallsKept

/-! ## Where the tasks are

A task is in the queue, with the worker, or given up, and its request with it.
Each of them is in one place, so that only one thread at a time can free it.
-/

/-- The task of the call is at a place. -/
def TaskAt (call : Table Nat ExecCall) (c : Nat) (task : TaskPhase) : Prop :=
  ∃ x, call.lookup c = some x ∧ x.task = some task

/-- What is in a queue and with a handler is there for its call, once. -/
structure ExecTasksKept (engine : Table Nat RequestEngine)
    (call : Table Nat ExecCall) : Prop where
  queued : ∀ e x, engine.lookup e = some x → ∀ c ∈ x.queue.blocks,
    TaskAt call c (.queued e)
  processing : ∀ e x, engine.lookup e = some x → ∀ c ∈ x.task,
    TaskAt call c (.processing e)
  nodup : ∀ e x, engine.lookup e = some x → x.queue.blocks.Nodup

variable {eng : Table Nat RequestEngine} {e : Nat} {x x' : RequestEngine}

theorem TaskAt.update {d : Nat} {task : TaskPhase} (h : TaskAt t d task)
    (hc : t.lookup c = some call) (htask : call'.task = call.task) :
    TaskAt (t.insert c call') d task := by
  obtain ⟨y, hy, hat⟩ := h
  rw [TaskAt, Table.lookup_insert_if]
  split
  · next heq =>
      rw [heq, hc] at hy
      cases hy
      exact ⟨call', rfl, htask.trans hat⟩
  · exact ⟨y, hy, hat⟩

theorem TaskAt.beside {d : Nat} {task : TaskPhase} (h : TaskAt t d task)
    (hne : d ≠ c) : TaskAt (t.insert c call') d task := by
  rw [TaskAt, Table.lookup_insert_if, if_neg hne]
  exact h

theorem TaskAt.here {task : TaskPhase} (htask : call'.task = some task) :
    TaskAt (t.insert c call') c task :=
  ⟨call', Finmap.lookup_insert t, htask⟩

theorem TaskAt.eq {task : TaskPhase} (h : TaskAt t c task)
    (hc : t.lookup c = some call) : call.task = some task := by
  obtain ⟨y, hy, hat⟩ := h
  rw [hc] at hy
  cases hy
  exact hat

namespace ExecTasksKept

theorem initial : ExecTasksKept ∅ ∅ where
  queued := fun _ _ h => by cases (Finmap.lookup_empty _).symm.trans h
  processing := fun _ _ h => by cases (Finmap.lookup_empty _).symm.trans h
  nodup := fun _ _ h => by cases (Finmap.lookup_empty _).symm.trans h

theorem update (h : ExecTasksKept eng t) (hc : t.lookup c = some call)
    (htask : call'.task = call.task) : ExecTasksKept eng (t.insert c call') where
  queued := fun e x hx d hd => (h.queued e x hx d hd).update hc htask
  processing := fun e x hx d hd => (h.processing e x hx d hd).update hc htask
  nodup := h.nodup

theorem invoke (h : ExecTasksKept eng t) (hc : t.lookup c = none) :
    ExecTasksKept eng (t.insert c call') := by
  have hne {d : Nat} {task : TaskPhase} (hd : TaskAt t d task) : d ≠ c := by
    rintro rfl
    obtain ⟨y, hy, -⟩ := hd
    rw [hc] at hy
    cases hy
  refine ⟨fun e x hx d hd => ?_, fun e x hx d hd => ?_, h.nodup⟩
  · exact (h.queued e x hx d hd).beside (hne (h.queued e x hx d hd))
  · exact (h.processing e x hx d hd).beside (hne (h.processing e x hx d hd))

/-- An engine changes with the task of a call, which no other engine has. -/
theorem change (h : ExecTasksKept eng t) (hc : t.lookup c = some call)
    (helsewhere : ∀ e', e' ≠ e → call.task ≠ some (.queued e') ∧
      call.task ≠ some (.processing e'))
    (hqueued : ∀ d ∈ x'.queue.blocks,
      TaskAt (t.insert c call') d (.queued e))
    (hprocessing : ∀ d ∈ x'.task, TaskAt (t.insert c call') d (.processing e))
    (hnodup : x'.queue.blocks.Nodup) :
    ExecTasksKept (eng.insert e x') (t.insert c call') := by
  refine ⟨fun e' y hy d hd => ?_, fun e' y hy d hd => ?_, fun e' y hy => ?_⟩
  · rw [Table.lookup_insert_if] at hy
    split at hy
    · next heq =>
        cases hy
        exact heq ▸ hqueued d hd
    · next hne =>
        have hat := h.queued e' y hy d hd
        refine hat.beside ?_
        rintro rfl
        exact (helsewhere e' hne).1 (hat.eq hc)
  · rw [Table.lookup_insert_if] at hy
    split at hy
    · next heq =>
        cases hy
        exact heq ▸ hprocessing d hd
    · next hne =>
        have hat := h.processing e' y hy d hd
        refine hat.beside ?_
        rintro rfl
        exact (helsewhere e' hne).2 (hat.eq hc)
  · rw [Table.lookup_insert_if] at hy
    split at hy
    · cases hy
      exact hnodup
    · exact h.nodup e' y hy

theorem push (h : ExecTasksKept eng t) (hx : eng.lookup e = some x)
    (hc : t.lookup c = some call) (hnone : call.task = none)
    (htask : call'.task = some (.queued e)) {queue : Queue Nat}
    (hblocks : queue.blocks = x.queue.blocks ++ [c]) :
    ExecTasksKept (eng.insert e { x with queue }) (t.insert c call') := by
  have hnew {d : Nat} {task : TaskPhase} (hd : TaskAt t d task) :
      d ≠ c := by
    rintro rfl
    cases hnone.symm.trans (hd.eq hc)
  refine h.change hc (by simp [hnone]) (fun d hd => ?_) (fun d hd => ?_) ?_
  · rw [show ({ x with queue } : RequestEngine).queue.blocks =
      x.queue.blocks ++ [c] from hblocks] at hd
    rcases List.mem_append.mp hd with hd | hd
    · have hat := h.queued e x hx d hd
      exact hat.beside (hnew hat)
    · rw [List.mem_singleton.mp hd]
      exact .here htask
  · have hat := h.processing e x hx d hd
    exact hat.beside (hnew hat)
  · rw [show ({ x with queue } : RequestEngine).queue.blocks =
      x.queue.blocks ++ [c] from hblocks]
    refine List.nodup_append.mpr ⟨h.nodup e x hx, List.nodup_singleton c, ?_⟩
    rintro d hd _ hmem rfl
    exact hnew (h.queued e x hx d hd) (List.mem_singleton.mp hmem)

theorem pop_queued (h : ExecTasksKept eng t) (hx : eng.lookup e = some x)
    (hc : t.lookup c = some call) {rest : List Nat}
    (hblocks : x.queue.blocks = c :: rest) : call.task = some (.queued e) :=
  (h.queued e x hx c (by simp [hblocks])).eq hc

/-- The first task is taken off the queue. It goes to the handler, or
nowhere. -/
theorem pop (h : ExecTasksKept eng t) (hx : eng.lookup e = some x)
    (hc : t.lookup c = some call) {rest : List Nat}
    (hblocks : x.queue.blocks = c :: rest) (hqueue : x'.queue.blocks = rest)
    (htask : ∀ d ∈ x'.task, d = c ∧ call'.task = some (.processing e)) :
    ExecTasksKept (eng.insert e x') (t.insert c call') := by
  have hqueued := h.pop_queued hx hc hblocks
  have hnodup := h.nodup e x hx
  rw [hblocks] at hnodup
  obtain ⟨hhead, hrest⟩ := List.nodup_cons.mp hnodup
  refine h.change hc (fun e' hne => ?_) (fun d hd => ?_)
    (fun d hd => ?_) (hqueue ▸ hrest)
  · rw [hqueued]
    exact ⟨fun heq => by cases heq; exact hne rfl, nofun⟩
  · rw [hqueue] at hd
    refine (h.queued e x hx d (by simp [hblocks, hd])).beside ?_
    rintro rfl
    exact hhead hd
  · obtain ⟨rfl, hprocessing⟩ := htask d hd
    exact .here hprocessing

theorem process_processing (h : ExecTasksKept eng t) (hx : eng.lookup e = some x)
    (hc : t.lookup c = some call) (hworker : x.worker = .processing c) :
    call.task = some (.processing e) :=
  (h.processing e x hx c (by rw [RequestEngine.task, hworker]; rfl)).eq hc

theorem process (h : ExecTasksKept eng t) (hx : eng.lookup e = some x)
    (hc : t.lookup c = some call) (hworker : x.worker = .processing c) :
    ExecTasksKept (eng.insert e { x with worker := .idle }) (t.insert c call') := by
  have htask := h.process_processing hx hc hworker
  refine h.change hc (fun e' hne => ?_) (fun d hd => ?_) nofun
    (h.nodup e x hx)
  · rw [htask]
    exact ⟨nofun, fun heq => by cases heq; exact hne rfl⟩
  · have hqueued := h.queued e x hx d hd
    refine hqueued.beside ?_
    rintro rfl
    cases htask.symm.trans (hqueued.eq hc)

/-- A new engine, or one that changes beside its tasks. -/
theorem setEngine (h : ExecTasksKept eng t)
    (hqueue : x'.queue.blocks = [] ∨ ∃ x, eng.lookup e = some x ∧
      x'.queue = x.queue)
    (hworker : x'.task = none) : ExecTasksKept (eng.insert e x') t := by
  refine ⟨fun e' y hy d hd => ?_, fun e' y hy d hd => ?_, fun e' y hy => ?_⟩
  · rw [Table.lookup_insert_if] at hy
    split at hy
    · next heq =>
        cases hy
        rcases hqueue with hnil | ⟨x, hx, hsame⟩
        · rw [hnil] at hd
          cases hd
        · exact heq ▸ h.queued e x hx d (hsame ▸ hd)
    · exact h.queued e' y hy d hd
  · rw [Table.lookup_insert_if] at hy
    split at hy
    · cases hy
      rw [hworker] at hd
      cases hd
    · exact h.processing e' y hy d hd
  · rw [Table.lookup_insert_if] at hy
    split at hy
    · cases hy
      rcases hqueue with hnil | ⟨x, hx, hsame⟩
      · rw [hnil]
        exact List.nodup_nil
      · rw [hsame]
        exact h.nodup e x hx
    · exact h.nodup e' y hy

end ExecTasksKept

namespace ExecCall

variable {old : ExecCall}

theorem frees_of_early (h : call.phase.early) (htask : call.task = none) :
    call.frees = 0 := by
  rw [frees, guardFrees_of_early h, taskFrees_of_none htask]
  exact ite_self 0

theorem Sound.onItsWay (h : old.Sound) (hold : old.phase.early)
    {phase : ExecPhase} (hphase : phase.early) (hnew : phase ≠ .unparcelled)
    {request : Option Request}
    (hmsg : ∀ r ∈ request, r.msg = old.inputInfo)
    (hfound : ∀ e, phase.engine = some e → request ≠ none) :
    ({ old with request, phase } : ExecCall).Sound where
  msg := hmsg
  unparcelled := fun heq => absurd heq hnew
  early := fun _ => h.early hold
  pushed := fun e heq => by
    rw [show phase = .pushed e from heq] at hphase
    cases hphase
  request := fun htask => absurd (h.early hold) htask
  found := hfound
  answered := h.answered
  ended := fun retCode heq => by
    rw [show phase = .ended retCode from heq] at hphase
    cases hphase

/-- A call that returns: nothing was pushed for it, or it was answered. -/
theorem Sound.end (h : old.Sound)
    (hdone : old.task = none ∨
      old.kind = .sync ∧ old.task = some (.processed .sync))
    {request : Option Request}
    (hmsg : ∀ r ∈ request, r.msg = old.inputInfo)
    (hrequest : request = none ↔ old.request = none) (retCode : Int) :
    ({ old with request, phase := .ended retCode } : ExecCall).Sound where
  msg := hmsg
  unparcelled := nofun
  early := nofun
  pushed := nofun
  request := fun htask heq => h.request htask (hrequest.mp heq)
  found := nofun
  answered := h.answered
  ended := fun _ _ _ => hdone.imp id And.right

end ExecCall

namespace RequestServer

variable {s s' : RequestServer} {env : ServiceEnv} {old : ExecCall}

structure Kept (s : RequestServer) : Prop where
  calls : ExecCallsKept s.call s.freed s.callNum
  tasks : ExecTasksKept s.engine s.call

theorem initial_kept : initial.Kept := ⟨.initial, .initial⟩

theorem Kept.sound (h : s.Kept) (hc : s.call.lookup c = some call) :
    call.Sound :=
  (h.calls.calls c call hc).sound

theorem Kept.right (h : s.Kept) (hc : s.call.lookup c = some call) :
    call.Right :=
  (h.calls.calls c call hc).right

/-- A step that leaves the task of a call and what was freed of it. -/
theorem Kept.move (h : s.Kept) (hc : s.call.lookup c = some old)
    (hsound : call.Sound) (hright : call.Right)
    (hdata : call.inputInfo = old.inputInfo) (htask : call.task = old.task)
    (hfrees : call.frees = old.frees) : (s.setCall c call).Kept :=
  ⟨h.calls.update hc
    ((h.calls.calls c old hc).moved hsound hright hdata hfrees),
    h.tasks.update hc htask⟩

theorem Kept.onItsWay (h : s.Kept) (hc : s.call.lookup c = some old)
    (hold : old.phase.early) (phase : ExecPhase) (request : Option Request)
    (hphase : phase.early) (hnew : phase ≠ .unparcelled)
    (hmsg : ∀ r ∈ request, r.msg = old.inputInfo)
    (hfound : ∀ e, phase.engine = some e → request ≠ none)
    (howned : request = none → old.inputInfo.data = .null) :
    (s.setCall c { old with request, phase }).Kept := by
  have hnone := (h.sound hc).early hold
  have hearly : ({ old with request, phase } : ExecCall).frees = 0 :=
    ExecCall.frees_of_early hphase hnone
  refine h.move hc ((h.sound hc).onItsWay hold hphase hnew hmsg hfound)
    ⟨fun heq => .inr (howned heq), (h.right hc).handled⟩ rfl rfl ?_
  rw [hearly, ExecCall.frees_of_early hold hnone]

theorem Kept.endWith (h : s.Kept) (hc : s.call.lookup c = some old)
    (hopen : old.guardFrees = 0)
    (hdone : old.task = none ∨
      old.kind = .sync ∧ old.task = some (.processed .sync))
    {request : Option Request}
    (hmsg : ∀ r ∈ request, r.msg = old.inputInfo)
    (hrequest : request = none ↔ old.request = none)
    (howned : old.request = none → old.inputInfo.data = .null)
    (retCode : Int) : (s.endCall c { old with request } retCode).Kept := by
  have hguard : ({ old with request, phase := .ended retCode } :
      ExecCall).guardFrees = 1 := by
    simp only [ExecCall.guardFrees]
    cases hkind : old.kind with
    | sync => rfl
    | async =>
        rcases hdone with hnone | ⟨hsync, -⟩
        · rw [hnone]
        · cases hkind.symm.trans hsync
  have htask : ({ old with request, phase := .ended retCode } :
      ExecCall).taskFrees = old.taskFrees := rfl
  rw [endCall, destroyRequest_eq]
  refine ⟨h.calls.destroy hc ((h.calls.calls c old hc).destroyed
    ((h.sound hc).end hdone hmsg hrequest retCode)
    ⟨fun heq => .inr (howned (hrequest.mp heq)), (h.right hc).handled⟩ rfl
      hrequest ?_), h.tasks.update hc rfl⟩
  rw [hguard, htask, hopen, Nat.zero_add, Nat.add_comm]

theorem Kept.endEarly (h : s.Kept) (hc : s.call.lookup c = some old)
    (hold : old.phase.early)
    (howned : old.request = none → old.inputInfo.data = .null)
    (retCode : Int) : (s.endCall c old retCode).Kept :=
  h.endWith hc (ExecCall.guardFrees_of_early hold)
    (.inl ((h.sound hc).early hold)) (h.sound hc).msg .rfl howned retCode

end RequestServer

namespace RequestServer

variable {s s' : RequestServer} {env : ServiceEnv}

/-- The wrapper makes a request of a message that has a buffer. -/
def Accepts (s : RequestServer) (env : ServiceEnv) (call : ExecCall) : Prop :=
  call.phase = .unparcelled → call.inputInfo.data = .null ∨
    wrongInferMode call.kind call.algoInfo = false ∧
      call.clientInfo.clientId ∈ s.adapters ∧ env.newRequest = true

instance (s : RequestServer) (env : ServiceEnv) (call : ExecCall) :
    Decidable (s.Accepts env call) :=
  inferInstanceAs (Decidable (_ → _ ∨ _ ∧ _ ∧ _))

theorem Kept.owned (h : s.Kept) (hc : s.call.lookup c = some call)
    (hphase : call.phase ≠ .unparcelled) :
    call.request = none → call.inputInfo.data = .null :=
  fun hnone => ((h.right hc).owned hnone).resolve_left hphase

theorem Kept.execAlgoWrapper (h : s.Kept) (hc : s.call.lookup c = some call)
    (hphase : call.phase = .unparcelled) (haccepts : s.Accepts env call) :
    (s.execAlgoWrapper env c call).Kept := by
  have hearly : call.phase.early := by rw [hphase]; rfl
  have hrequest := (h.sound hc).unparcelled hphase
  have hnull (hno : ¬ (wrongInferMode call.kind call.algoInfo = false ∧
      call.clientInfo.clientId ∈ s.adapters ∧ env.newRequest = true)) :
      call.inputInfo.data = .null := (haccepts hphase).resolve_right hno
  rw [RequestServer.execAlgoWrapper]
  split
  · next hwrong =>
      exact h.endEarly hc hearly (fun _ => hnull (by simp [hwrong])) _
  · split
    · next hadapter =>
        refine h.endEarly hc hearly (fun _ => hnull fun hin => ?_) _
        rw [← Finmap.lookup_isSome, hadapter] at hin
        cases hin.2.1
    · next adapterId hadapter =>
        split
        · refine h.onItsWay hc hearly .guarded (some _) rfl nofun ?_ nofun
            nofun
          intro request heq
          cases heq
          rfl
        · next hnew =>
            have hdata := hnull fun hin => hnew hin.2.2
            split
            · exact h.endEarly hc hearly (fun _ => hdata) _
            · exact h.onItsWay hc hearly .guarded call.request rfl nofun
                (h.sound hc).msg nofun fun _ => hdata

theorem Kept.findEngine (h : s.Kept) (hc : s.call.lookup c = some call)
    (hphase : call.phase = .guarded) : (s.findEngine env c call).Kept := by
  have hearly : call.phase.early := by rw [hphase]; rfl
  have howned := h.owned hc (by rw [hphase]; nofun)
  rw [RequestServer.findEngine]
  split
  · exact h.endEarly hc hearly howned _
  · split
    · exact h.endEarly hc hearly howned _
    · next request hrequest =>
        split
        · exact h.endEarly hc hearly howned _
        · next e _ =>
            exact h.onItsWay hc hearly (.engineFound e) call.request rfl nofun
              (h.sound hc).msg (fun _ _ => by rw [hrequest]; nofun) howned

theorem Kept.countTasks (h : s.Kept) (hc : s.call.lookup c = some call)
    {e : Nat} (hphase : call.phase = .engineFound e)
    (hrun : s.countTasks c call e = some s') : s'.Kept := by
  have hearly : call.phase.early := by rw [hphase]; rfl
  have howned := h.owned hc (by rw [hphase]; nofun)
  have hrequest := (h.sound hc).found e (by rw [hphase]; rfl)
  rw [RequestServer.countTasks] at hrun
  split at hrun
  · cases hrun
  · split at hrun
    · cases hrun
      exact h.endEarly hc hearly howned _
    · cases hrun
      exact h.onItsWay hc hearly (.counted e) call.request rfl nofun
        (h.sound hc).msg (fun _ _ => hrequest) howned

theorem Kept.withFactory (h : s.Kept) (factory : FutureFactory) :
    ({ s with factory } : RequestServer).Kept := ⟨h.calls, h.tasks⟩

theorem Kept.createFuture (h : s.Kept) (hc : s.call.lookup c = some call)
    {e : Nat} (hphase : call.phase = .counted e) :
    (s.createFuture env c call e).Kept := by
  have hearly : call.phase.early := by rw [hphase]; rfl
  have howned := h.owned hc (by rw [hphase]; nofun)
  rw [RequestServer.createFuture]
  split
  · exact h.endEarly hc hearly howned _
  · split
    · exact h.endEarly hc hearly howned _
    · next request hrequest =>
        have hmsg (n : Int) : ∀ r ∈ some { request with innerSequenceId := n },
            r.msg = call.inputInfo := by
          intro r heq
          cases heq
          exact (h.sound hc).msg request hrequest
        split
        · next factory _ =>
            exact (h.withFactory factory).endEarly hc hearly howned _
        · next n factory _ =>
            dsimp only
            split
            · exact (h.withFactory factory).endWith hc
                (ExecCall.guardFrees_of_early hearly)
                (.inl ((h.sound hc).early hearly)) (hmsg n)
                (by simp [hrequest]) howned _
            · exact (h.withFactory factory).onItsWay hc hearly
                (.futureCreated e) (some _) rfl nofun (hmsg n)
                (fun _ _ => nofun) nofun

end RequestServer

/-! ## Tasks

What happens to a task happens to the call it belongs to, whose thread may be
anywhere on its way, or gone. The sums of the frees on both sides are what the
steps keep. -/

namespace RequestServer

variable {s s' : RequestServer} {env : ServiceEnv}

theorem Kept.pushBack (h : s.Kept) (hc : s.call.lookup c = some call)
    {e : Nat} (hearly : call.phase.early) (hengine : call.phase.engine = some e)
    (hrun : s.pushBack c call e = some s') : s'.Kept := by
  have hphase : call.phase ≠ .unparcelled := fun heq => by
    rw [heq] at hengine
    cases hengine
  have hnone := (h.sound hc).early hearly
  have hrequest := (h.sound hc).found e hengine
  rw [RequestServer.pushBack] at hrun
  split at hrun
  · cases hrun
  · next x hx =>
      by_cases hfull : x.queue.totalNum ≤ x.queue.count
      · simp only [Queue.pushBack, if_pos hfull] at hrun
        rw [if_pos (by decide)] at hrun
        cases hrun
        exact h.endEarly hc hearly (h.owned hc hphase) _
      · simp only [Queue.pushBack, if_neg hfull, ne_eq, not_true_eq_false,
          if_false] at hrun
        cases hrun
        refine ⟨h.calls.update hc ((h.calls.calls c call hc).moved ?_
          ⟨fun heq => absurd heq hrequest, nofun⟩ rfl ?_),
          h.tasks.push hx hc hnone rfl rfl⟩
        · exact ⟨(h.sound hc).msg, nofun, nofun, nofun, fun _ => hrequest,
            fun _ _ => hrequest, fun hne => absurd ((h.sound hc).answered hne)
              (by rw [hnone]; nofun), nofun⟩
        · rw [ExecCall.frees_of_early hearly hnone]
          exact ite_self 0

theorem Kept.receiveResponse (h : s.Kept) (hc : s.call.lookup c = some call)
    {e : Nat} (hphase : call.phase = .pushed e) (hkind : call.kind = .sync)
    (hrun : s.receiveResponse c call = some s') : s'.Kept := by
  rw [RequestServer.receiveResponse] at hrun
  split at hrun
  · cases hrun
  · next retCode hanswer =>
      cases hrun
      have htask := (h.sound hc).answered (by rw [hanswer]; nofun)
      exact h.endWith hc (ExecCall.guardFrees_of_pushed hphase)
        (.inr ⟨hkind, htask⟩) (h.sound hc).msg .rfl
        (h.owned hc (by rw [hphase]; nofun)) retCode

theorem Kept.detach (h : s.Kept) (hc : s.call.lookup c = some call)
    {e : Nat} (hphase : call.phase = .pushed e) (hkind : call.kind = .async) :
    (s.detach c call).Kept := by
  have hsound := h.sound hc
  have htask := hsound.pushed e hphase
  refine h.move hc ⟨hsound.msg, nofun, nofun, nofun, hsound.request, nofun,
    hsound.answered, fun _ _ hsync => by cases hkind.symm.trans hsync⟩
    ⟨fun hnone => absurd hnone (hsound.request htask), (h.right hc).handled⟩
    rfl rfl ?_
  have hguard : ({ call with phase := .ended Retcode.success } :
      ExecCall).guardFrees = 0 := by
    simp only [ExecCall.guardFrees, hkind]
    cases hcase : call.task with
    | none => exact absurd hcase htask
    | some task => rfl
  rw [ExecCall.frees, ExecCall.frees, hguard,
    ExecCall.guardFrees_of_pushed hphase]
  rfl

end RequestServer

namespace ExecCall

variable {old : ExecCall}

/-- The task of the call is queued or with a handler. -/
def Pending (call : ExecCall) : Prop :=
  ∃ e, call.task = some (.queued e) ∨ call.task = some (.processing e)

theorem Pending.ne_none (h : call.Pending) : call.task ≠ none := by
  obtain ⟨e, htask | htask⟩ := h
  · rw [htask]
    nofun
  · rw [htask]
    nofun

theorem Pending.ne_processed (h : call.Pending) (handler : MsgHandler) :
    call.task ≠ some (.processed handler) := by
  obtain ⟨e, htask | htask⟩ := h
  · rw [htask]
    nofun
  · rw [htask]
    nofun

theorem Pending.taskFrees (h : call.Pending) : call.taskFrees = 0 := by
  obtain ⟨e, htask | htask⟩ := h
  · rw [ExecCall.taskFrees, htask]
  · rw [ExecCall.taskFrees, htask]

theorem Pending.notifier (h : call.Pending) (hsound : call.Sound) :
    call.notifier = none := by
  by_contra hne
  exact h.ne_processed .sync (hsound.answered hne)

theorem Sound.onward (h : old.Sound) (hpending : old.Pending)
    (task : TaskPhase) (notifier : Option Int)
    (hanswered : notifier ≠ none → task = .processed .sync) :
    ({ old with task := some task, notifier } : ExecCall).Sound where
  msg := h.msg
  unparcelled := h.unparcelled
  early := fun hearly => absurd (h.early hearly) hpending.ne_none
  pushed := fun _ _ => nofun
  request := fun _ => h.request hpending.ne_none
  found := h.found
  answered := fun hne => congrArg some (hanswered hne)
  ended := fun retCode hover hkind =>
    ((h.ended retCode hover hkind).resolve_left hpending.ne_none |>
      absurd <| hpending.ne_processed .sync)

theorem guardFrees_onward (hpending : old.Pending) (task : TaskPhase)
    (notifier : Option Int) :
    ({ old with task := some task, notifier } : ExecCall).guardFrees =
      old.guardFrees := by
  have hne := hpending.ne_none
  simp only [guardFrees]
  cases hphase : old.phase <;> cases hkind : old.kind <;> try rfl
  cases htask : old.task with
  | none => exact absurd htask hne
  | some task => rfl

end ExecCall

namespace RequestServer

variable {s s' : RequestServer} {env : ServiceEnv}

theorem Kept.onward (h : s.Kept) (hc : s.call.lookup c = some call)
    (hpending : call.Pending) (task : TaskPhase) (notifier : Option Int)
    (hanswered : notifier ≠ none → task = .processed .sync)
    (htask : ({ call with task := some task, notifier } :
      ExecCall).taskFrees = 0)
    (hhandled : call.kind = .async → task ≠ .processed .sync) :
    ExecCallsKept (s.call.insert c { call with task := some task, notifier })
      s.freed s.callNum := by
  have hsound := h.sound hc
  refine h.calls.update hc ((h.calls.calls c call hc).moved
    (hsound.onward hpending task notifier hanswered)
    ⟨(h.right hc).owned, fun hkind heq => hhandled hkind (Option.some.inj heq)⟩
    rfl ?_)
  rw [ExecCall.frees, ExecCall.frees, ExecCall.guardFrees_onward hpending,
    htask, hpending.taskFrees]

/-- A pending task is done with, and takes its request along. -/
theorem Kept.destroyed (h : s.Kept) (hc : s.call.lookup c = some call)
    (hpending : call.Pending) (task : TaskPhase)
    (htask : ({ call with task := some task } : ExecCall).taskFrees = 1)
    (hhandled : task ≠ .processed .sync) :
    ExecCallsKept (s.call.insert c { call with task := some task })
      (s.freed ++ requestBlocks c call.request) s.callNum := by
  have hsound := h.sound hc
  refine h.calls.destroy hc ((h.calls.calls c call hc).destroyed
    (hsound.onward hpending task call.notifier fun hne =>
      absurd (hpending.notifier hsound) hne)
    ⟨(h.right hc).owned, fun _ heq => hhandled (Option.some.inj heq)⟩ rfl .rfl
    ?_)
  rw [ExecCall.guardFrees_onward hpending, htask, hpending.taskFrees]

theorem Kept.popFront (h : s.Kept) {e : Nat}
    (hrun : s.popFront e = some s') : s'.Kept := by
  rw [RequestServer.popFront] at hrun
  split at hrun
  · cases hrun
  · next x hx =>
      split at hrun
      · cases hrun
      · cases hblocks : x.queue.blocks with
        | nil =>
            simp only [Queue.popFront, hblocks] at hrun
            cases hrun
        | cons c rest =>
            simp only [Queue.popFront, hblocks] at hrun
            split at hrun
            · cases hrun
            · next call hc =>
                cases hrun
                have hpending : call.Pending :=
                  ⟨e, .inl (h.tasks.pop_queued hx hc hblocks)⟩
                refine ⟨h.onward hc hpending (.processing e) call.notifier
                  (fun hne => absurd (hpending.notifier (h.sound hc)) hne) rfl
                  nofun, h.tasks.pop hx hc hblocks rfl ?_⟩
                rintro d ⟨⟩
                exact ⟨rfl, rfl⟩

end RequestServer

namespace RequestServer

variable {s s' : RequestServer} {env : ServiceEnv}

/-- The worker processes with a handler of the kind of the call, unless the
call waits. -/
def RightHandler (s : RequestServer) (e : Nat) : Prop :=
  ∀ x ∈ s.engine.lookup e, ∀ c ∈ x.task, ∀ call ∈ s.call.lookup c,
    call.kind = .async → x.msgHandler = .async

instance (s : RequestServer) (e : Nat) : Decidable (s.RightHandler e) :=
  inferInstanceAs (Decidable (∀ _ ∈ _, _))

theorem Kept.syncProcess (h : s.Kept) {e : Nat} {x : RequestEngine}
    (hx : s.engine.lookup e = some x) (hc : s.call.lookup c = some call)
    (hworker : x.worker = .processing c) (hkind : call.kind = .sync)
    (processRetCode : Int) (response newResponse : Bool) :
    ((s.setEngine e { x with worker := .idle }).syncProcess c call
      processRetCode response newResponse).Kept := by
  have hpending : call.Pending :=
    ⟨e, .inr (h.tasks.process_processing hx hc hworker)⟩
  have hcalls (notifier : Option Int) := h.onward hc hpending
    (.processed .sync) notifier (fun _ => rfl) rfl
    fun hasync => by cases hkind.symm.trans hasync
  rw [RequestServer.syncProcess]
  split
  · exact ⟨hcalls call.notifier, h.tasks.process hx hc hworker⟩
  · simp only [hkind]
    exact ⟨hkind ▸ hcalls (some _), h.tasks.process hx hc hworker⟩

theorem Kept.asyncProcess (h : s.Kept) {e : Nat} {x : RequestEngine}
    (hx : s.engine.lookup e = some x) (hc : s.call.lookup c = some call)
    (hworker : x.worker = .processing c) :
    ((s.setEngine e { x with worker := .idle }).asyncProcess c call).Kept := by
  have hpending : call.Pending :=
    ⟨e, .inr (h.tasks.process_processing hx hc hworker)⟩
  rw [RequestServer.asyncProcess, destroyRequest_eq]
  exact ⟨h.destroyed hc hpending (.processed .async) rfl nofun,
    h.tasks.process hx hc hworker⟩

theorem Kept.process (h : s.Kept) {e : Nat} (hright : s.RightHandler e)
    {processRetCode : Int} {response newResponse : Bool}
    (hrun : s.process e processRetCode response newResponse = some s') :
    s'.Kept := by
  rw [RequestServer.process] at hrun
  split at hrun
  · cases hrun
  · next x hx =>
      split at hrun
      · cases hrun
      · cases hrun
      · next c hworker =>
          split at hrun
          · cases hrun
          · next call hc =>
              have hkind := hright x hx c
                (by rw [RequestEngine.task, hworker]; rfl) call hc
              dsimp only at hrun
              split at hrun
              · next hsync =>
                  cases hrun
                  have hcall : call.kind = .sync := by
                    cases hcase : call.kind with
                    | sync => rfl
                    | async => cases hsync.symm.trans (hkind hcase)
                  exact h.syncProcess hx hc hworker hcall processRetCode
                    response newResponse
              · cases hrun
                exact h.asyncProcess hx hc hworker

theorem Kept.clearQueue (h : s.Kept) {e : Nat}
    (hrun : s.clearQueue e = some s') : s'.Kept := by
  rw [RequestServer.clearQueue] at hrun
  split at hrun
  · cases hrun
  · next x hx =>
      split at hrun
      · cases hrun
      · next hstopped =>
          cases hblocks : x.queue.blocks with
          | nil =>
              simp only [Queue.popFront, hblocks] at hrun
              cases hrun
          | cons c rest =>
              simp only [Queue.popFront, hblocks] at hrun
              split at hrun
              · cases hrun
              · next call hc =>
                  cases hrun
                  have hpending : call.Pending :=
                    ⟨e, .inl (h.tasks.pop_queued hx hc hblocks)⟩
                  rw [destroyRequest_eq]
                  refine ⟨h.destroyed hc hpending .dropped rfl nofun,
                    h.tasks.pop hx hc hblocks rfl fun d hd => ?_⟩
                  rw [RequestEngine.task, not_not.mp hstopped] at hd
                  cases hd

/-- The condition on a step: a buffer gets an owner, and the task of an
asynchronous call an asynchronous handler. -/
def ReleasesRequests (s : RequestServer) : RequestStep → Prop
  | .proceed env c => ∀ call ∈ s.call.lookup c, s.Accepts env call
  | .process e _ _ _ => s.RightHandler e
  | _ => True

instance (s : RequestServer) (i : RequestStep) :
    Decidable (s.ReleasesRequests i) :=
  match i with
  | .proceed _ _ => inferInstanceAs (Decidable (∀ _ ∈ _, _))
  | .process e _ _ _ => inferInstanceAs (Decidable (s.RightHandler e))
  | .invoke _ _ _ _ | .popFront _ | .createEngine _ _ | .recordClient _ _
  | .unRecordClient _ | .stopThread _ | .clearQueue _ | .addAdapter _
  | .removeAdapter _ | .deleteFuture _ => inferInstanceAs (Decidable True)

theorem Kept.proceed (h : s.Kept) {c : Nat}
    (hok : ∀ call ∈ s.call.lookup c, s.Accepts env call)
    (hrun : s.proceed env c = some s') : s'.Kept := by
  rw [RequestServer.proceed] at hrun
  split at hrun
  · cases hrun
  · next call hc =>
      split at hrun
      · next hphase =>
          cases hrun
          exact h.execAlgoWrapper hc hphase (hok call hc)
      · next hphase =>
          cases hrun
          exact h.findEngine hc hphase
      · next e _ hphase => exact h.countTasks hc hphase hrun
      · next e hphase _ =>
          exact h.pushBack hc (by rw [hphase]; rfl) (by rw [hphase]; rfl) hrun
      · next e hphase _ =>
          cases hrun
          exact h.createFuture hc hphase
      · next e _ hphase =>
          exact h.pushBack hc (by rw [hphase]; rfl) (by rw [hphase]; rfl) hrun
      · next e hphase hkind => exact h.receiveResponse hc hphase hkind hrun
      · next e hphase hkind =>
          cases hrun
          exact h.detach hc hphase hkind
      · cases hrun

theorem Kept.take (h : s.Kept) {i : RequestStep} (hok : s.ReleasesRequests i)
    (hrun : s.take i = some s') : s'.Kept := by
  cases i with
  | invoke kind clientInfo algoInfo inputInfo =>
      cases hrun
      exact ⟨h.calls.invoke rfl rfl rfl rfl,
        h.tasks.invoke (h.calls.fresh _ (Nat.le_refl _)).1⟩
  | proceed env c => exact h.proceed hok hrun
  | popFront e => exact h.popFront hrun
  | process e processRetCode response newResponse => exact h.process hok hrun
  | createEngine plugin singleQueueCapacity =>
      cases hrun
      exact ⟨h.calls, h.tasks.setEngine (.inl rfl) rfl⟩
  | recordClient transactionId e =>
      simp only [RequestServer.take, RequestServer.recordClient] at hrun
      split at hrun
      · cases hrun
      · split at hrun
        · cases hrun
        · cases hrun
          exact ⟨h.calls, h.tasks⟩
  | stopThread e =>
      simp only [RequestServer.take, RequestServer.stopThread] at hrun
      split at hrun
      · cases hrun
      · next x hx =>
          split at hrun
          · cases hrun
          · cases hrun
            exact ⟨h.calls, h.tasks.setEngine (.inr ⟨x, hx, rfl⟩) rfl⟩
  | clearQueue e => exact h.clearQueue hrun
  | unRecordClient | addAdapter | removeAdapter | deleteFuture =>
      cases hrun
      exact ⟨h.calls, h.tasks⟩

end RequestServer

/-- The buffer of a call and the request that owns it were each freed exactly
once. -/
def RequestServer.ReleasedOnce (s : RequestServer) (c : Nat)
    (call : ExecCall) : Prop :=
  (call.inputInfo.data ≠ .null → s.freed.count (.buffer c) = 1) ∧
    (call.request ≠ none → s.freed.count (.request c) = 1)

/-- As long as every buffer gets an owner and the tasks of asynchronous calls
asynchronous handlers, what a call has is freed exactly once when the call has
returned and its task is done with. -/
theorem reach_releasedOnce {s : RequestServer}
    (hs : requestMachine.Reach RequestServer.ReleasesRequests s) {c : Nat}
    {call : ExecCall} (hc : s.call.lookup c = some call)
    (hsettled : call.Settled) : s.ReleasedOnce c call := by
  have h : s.Kept := by
    refine hs.invariant (fun s hstart => ?_)
      fun s i s' h hok hrun => h.take hok hrun
    rw [hstart]
    exact RequestServer.initial_kept
  have hkept := h.calls.calls c call hc
  have hone := hkept.sound.frees_eq_one hkept.right hsettled
  refine ⟨fun hdata => ?_, fun hrequest => hkept.request.trans (hone hrequest)⟩
  have hrequest : call.request ≠ none := fun hnone => by
    obtain ⟨retCode, hover⟩ := hsettled.1
    rcases hkept.right.owned hnone with hphase | hnull
    · cases hover.symm.trans hphase
    · exact hdata hnull
  rw [hkept.buffer, ExecCall.bufferFrees, if_neg hdata, hone hrequest]

def requestSample (isAsync : Bool) (kind : MsgHandler) : List RequestStep :=
  [.addAdapter 1, .createEngine ⟨"", 0, none⟩ 4,
    .recordClient (getTransactionId 1 1) 0,
    .invoke kind { ClientInfo.zero with clientId := 1, sessionId := 1 }
      { AlgorithmInfo.zero with isAsync } ⟨.block [7], 1⟩,
    .proceed .willing 0]

/-- An asynchronous call, whose request is destroyed by the worker before the
call returns. -/
theorem reach_releasedOnce_sample : ∃ s,
    requestMachine.run RequestServer.ReleasesRequests .initial
      (requestSample true .async ++
        [.proceed .willing 0, .proceed .willing 0, .proceed .willing 0,
          .proceed .willing 0, .popFront 0, .process 0 0 true true,
          .proceed .willing 0]) = some s ∧
      s.freed.count (.buffer 0) = 1 ∧ s.freed.count (.request 0) = 1 := by
  have hrun : (requestMachine.run RequestServer.ReleasesRequests .initial
      (requestSample true .async ++
        [.proceed .willing 0, .proceed .willing 0, .proceed .willing 0,
          .proceed .willing 0, .popFront 0, .process 0 0 true true,
          .proceed .willing 0])).map (fun s => (s.call.lookup 0).map
            fun call => (call.phase, call.task, call.inputInfo.data,
              call.request.isSome)) =
        some (some (.ended Retcode.success, some (.processed .async),
          .block [7], true)) := by decide
  obtain ⟨s, hs, hcall⟩ := Option.map_eq_some_iff.mp hrun
  obtain ⟨call, hc, heq⟩ := Option.map_eq_some_iff.mp hcall
  simp only [Prod.mk.injEq] at heq
  obtain ⟨hphase, htask, hdata, hrequest⟩ := heq
  have hreach : requestMachine.Reach RequestServer.ReleasesRequests s :=
    .of_run (.start rfl) hs
  have hsettled : call.Settled := by
    refine ⟨⟨_, hphase⟩, fun e => ?_⟩
    rw [htask]
    exact ⟨nofun, nofun⟩
  obtain ⟨hbuffer, hrelease⟩ := reach_releasedOnce hreach hc hsettled
  refine ⟨s, hs, hbuffer (by rw [hdata]; nofun), hrelease ?_⟩
  exact Option.isSome_iff_ne_none.mp hrequest

/-- A message that asks for the other kind of call is turned away, and its
buffer is never freed. -/
theorem wrongMode_not_releasedOnce :
    ¬ ∀ s, requestMachine.Reach Machine.anyStep s → ∀ c call,
      s.call.lookup c = some call → call.Settled → s.ReleasedOnce c call := by
  intro h
  have hrun : (requestMachine.run Machine.anyStep .initial
      (requestSample true .sync)).map (fun s => (s.freed,
        (s.call.lookup 0).map fun call => (call.phase, call.task,
          call.inputInfo.data))) =
        some ([], some (.ended Retcode.wrongInferMode, none, .block [7])) := by
    decide
  obtain ⟨s, hs, heq⟩ := Option.map_eq_some_iff.mp hrun
  obtain ⟨hfreed, hcall⟩ := Prod.mk.inj heq
  obtain ⟨call, hc, heq⟩ := Option.map_eq_some_iff.mp hcall
  simp only [Prod.mk.injEq] at heq
  obtain ⟨hphase, htask, hdata⟩ := heq
  have hsettled : call.Settled := by
    refine ⟨⟨_, hphase⟩, fun e => ?_⟩
    rw [htask]
    exact ⟨nofun, nofun⟩
  have hone := (h s (.of_run (.start rfl) hs) 0 call hc hsettled).1
    (by rw [hdata]; nofun)
  rw [hfreed] at hone
  cases hone

end AiEngine.Ref
