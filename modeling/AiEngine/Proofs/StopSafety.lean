import AiEngine.Ref.SharedThread

/-!
# When a stopped thread is done with its worker

`StopThread` that gets past its two tests waits for the thread: it joins the
one that was created last, which has then left `Execute`. It does not get
past them when the worker has ended by itself. The status is cleared before
the worker's `Uninitialize` is called, and `StopThread` takes a status that
is not RUNNING to mean that there is nothing to wait for.

So the thread is done with its worker whenever `StopThread` returns exactly if
each such call that finds a thread to join also finds the status RUNNING, and
the thread alive; and it is the only one that can touch the object exactly if
no thread is created while there is one to join.
-/

namespace AiEngine.Ref

open AiEngine.Lib

namespace SharedThread

/-- Every thread that was created has been joined. -/
def AllJoined (s : SharedThread) : Prop :=
  Table.countWith (fun x : Pthread => x.joined = false) s.pthread = 0

instance (s : SharedThread) : Decidable s.AllJoined :=
  inferInstanceAs (Decidable (_ = _))

/-- While there is a thread to join, `StopThread` finds it running, and
`StartThread` does not get as far as to create another one. -/
def findsRunning (s : SharedThread) : ThreadStep → Prop
  | .stopThread => ¬ s.AllJoined → s.AtRest → s.status = .running
  | .control ok =>
      ¬ s.AllJoined →
        (s.control = .probeThread → ok = true) ∧
        (s.control = .createThread → ok = false)
  | .startThread _ => True
  | .execute _ _ => True

instance (s : SharedThread) : ∀ i, Decidable (s.findsRunning i)
  | .stopThread => inferInstanceAs (Decidable (_ → _ → _))
  | .control _ => inferInstanceAs (Decidable (_ → _ ∧ _))
  | .startThread _ => .isTrue trivial
  | .execute _ _ => .isTrue trivial

/-- Once `StopThread` has returned, no thread that was started has an access
left, to its worker or to the object, and each has been joined. At any other
time only the thread that was started last has any. -/
structure StopsClean (s : SharedThread) : Prop where
  joined : s.control = .stopped →
    ∀ t x, s.pthread.lookup t = some x → x.joined = true
  current : ∀ t x, s.pthread.lookup t = some x → x.joined = false →
    s.handle = some t
  quiet : ∀ t x ok, s.pthread.lookup t = some x → x.joined = true →
    s.take (.execute t ok) = none

theorem allJoined_iff {s : SharedThread} :
    s.AllJoined ↔ ∀ t x, s.pthread.lookup t = some x → x.joined = true :=
  (Table.countWith_eq_zero _).trans
    ⟨fun h t x hx => Bool.eq_true_of_not_eq_false (h t x hx),
      fun h t x hx => Bool.not_eq_false _ ▸ h t x hx⟩

structure Kept (s : SharedThread) : Prop where
  fresh : ∀ t x, s.pthread.lookup t = some x → t < s.pthreadNum
  /-- A thread that has been joined has exited. -/
  exited : ∀ t x, s.pthread.lookup t = some x → x.joined = true →
    x.phase = .exited
  current : ∀ t x, s.pthread.lookup t = some x → x.joined = false →
    s.handle = some t
  stopped : s.control = .stopped → s.AllJoined
  handle : s.handle = none → s.AllJoined

variable {s s' : SharedThread} {t : Nat} {x : Pthread}

theorem Kept.initial : SharedThread.initial.Kept where
  fresh := fun _ _ hx => nomatch hx
  exited := fun _ _ hx => nomatch hx
  current := fun _ _ hx => nomatch hx
  stopped := fun hstopped => nomatch hstopped
  handle := fun _ => Table.countWith_empty _

theorem Kept.stopsClean (h : s.Kept) : s.StopsClean where
  joined := fun hstopped => allJoined_iff.mp (h.stopped hstopped)
  current := h.current
  quiet := fun t x ok hx hjoined => by
    have hexited := h.exited t x hx hjoined
    simp only [SharedThread.take, hx, SharedThread.execute, hexited]

/-- The controller moves on, and leaves the threads alone. -/
theorem Kept.setControl (h : s.Kept) (hpthread : s'.pthread = s.pthread)
    (hnum : s'.pthreadNum = s.pthreadNum) (hhandle : s'.handle = s.handle)
    (hstopped : s'.control = .stopped → s.AllJoined) : s'.Kept where
  fresh := by
    rw [hpthread, hnum]
    exact h.fresh
  exited := hpthread ▸ h.exited
  current := by
    rw [hpthread, hhandle]
    exact h.current
  stopped := fun hs => by
    have hall := hstopped hs
    unfold AllJoined at hall ⊢
    rw [hpthread]
    exact hall
  handle := fun hnone => by
    have hall := h.handle (hhandle ▸ hnone)
    unfold AllJoined at hall ⊢
    rw [hpthread]
    exact hall

/-! ## The controller

One thread starts and stops the others. `StopThread` waits for the end of a
thread only where it has seen that the thread is running. -/

theorem Kept.startThread (h : s.Kept) (pWorker : Option Nat) :
    (s.startThread pWorker).Kept := by
  unfold SharedThread.startThread
  split
  · exact h.setControl rfl rfl rfl fun hs => nomatch hs
  · split
    · exact h.setControl rfl rfl rfl fun hs => nomatch hs
    · exact h.setControl rfl rfl rfl fun hs => nomatch hs

theorem Kept.stopThread (h : s.Kept) (hrest : s.AtRest)
    (hok : s.findsRunning .stopThread) : s.stopThread.Kept := by
  unfold SharedThread.stopThread
  split
  · exact h.setControl rfl rfl rfl fun hs => nomatch hs
  · next hstatus =>
      refine h.setControl rfl rfl rfl fun _ => ?_
      by_contra hnot
      exact hstatus (hok hnot hrest)

theorem Kept.createThread (h : s.Kept) (hall : s.AllJoined) :
    s.createThread.Kept := by
  have hnew : ∀ t x, s.createThread.pthread.lookup t = some x →
      (t = s.pthreadNum ∧ x = ⟨.setRunning, false⟩) ∨
        s.pthread.lookup t = some x := by
    intro t x hx
    simp only [SharedThread.createThread, Table.lookup_insert_if] at hx
    split at hx
    · next heq => exact .inl ⟨heq, (Option.some.inj hx).symm⟩
    · exact .inr hx
  refine ⟨fun t x hx => ?_, fun t x hx hjoined => ?_,
    fun t x hx hjoined => ?_, fun hs => (nomatch hs),
    fun hnone => nomatch hnone⟩
  · rcases hnew t x hx with ⟨rfl, -⟩ | hold
    · exact Nat.lt_succ_self _
    · exact Nat.lt_succ_of_lt (h.fresh t x hold)
  · rcases hnew t x hx with ⟨-, rfl⟩ | hold
    · cases hjoined
    · exact h.exited t x hold hjoined
  · rcases hnew t x hx with ⟨rfl, -⟩ | hold
    · rfl
    · have := allJoined_iff.mp hall t x hold
      rw [this] at hjoined
      cases hjoined

theorem Kept.waitThread (h : s.Kept) (hrun : s.waitThread = some s') :
    s'.Kept := by
  unfold SharedThread.waitThread at hrun
  split at hrun
  · next hnone =>
      cases hrun
      exact h.setControl rfl rfl rfl fun _ => h.handle hnone
  · next u hu =>
      split at hrun
      · next hgone =>
        cases hrun
        have hjoin : ∀ t x,
            (s.pthread.insert u ⟨.exited, true⟩).lookup t = some x →
              x.joined = true ∧ (x.phase = .exited) := by
          intro t x hx
          rw [Table.lookup_insert_if] at hx
          split at hx
          · rw [← Option.some.inj hx]
            exact ⟨rfl, rfl⟩
          · next hne =>
              have hjoined : x.joined = true := by
                by_contra hnot
                have hcur := h.current t x hx (Bool.eq_false_iff.mpr hnot)
                exact hne (Option.some.inj (hcur.symm.trans hu))
              exact ⟨hjoined, h.exited t x hx hjoined⟩
        have hall : Table.countWith (fun x : Pthread => x.joined = false)
            (s.pthread.insert u ⟨.exited, true⟩) = 0 :=
          (Table.countWith_eq_zero _).mpr fun t x hx hno => by
            rw [(hjoin t x hx).1] at hno
            cases hno
        refine ⟨fun t x hx => ?_, fun t x hx _ => (hjoin t x hx).2,
          fun t x hx hno => ?_, fun _ => hall, fun _ => hall⟩
        · rw [Table.lookup_insert_if] at hx
          split at hx
          · next heq =>
              obtain ⟨y, hy, -⟩ := hgone
              exact heq ▸ h.fresh u y hy
          · exact h.fresh t x hx
        · rw [(hjoin t x hx).1] at hno
          cases hno
      · cases hrun

theorem Kept.proceed (h : s.Kept) {ok : Bool}
    (hok : s.findsRunning (.control ok)) (hrun : s.proceed ok = some s') :
    s'.Kept := by
  unfold SharedThread.proceed at hrun
  split at hrun
  · cases hrun
  · cases hrun
  · cases hrun
    exact h.setControl rfl rfl rfl fun hs => nomatch hs
  · split at hrun
    · cases hrun
      exact h.setControl rfl rfl rfl fun hs => nomatch hs
    · cases hrun
      exact h.setControl rfl rfl rfl fun hs => nomatch hs
  · cases hrun
    exact h.setControl rfl rfl rfl fun hs => nomatch hs
  · next hcontrol =>
      split at hrun
      · next hyes =>
          cases hrun
          refine h.createThread ?_
          by_contra hnot
          rw [(hok hnot).2 hcontrol] at hyes
          cases hyes
      · cases hrun
        exact h.setControl rfl rfl rfl fun hs => nomatch hs
  · cases hrun
    exact h.setControl rfl rfl rfl fun hs => nomatch hs
  · split at hrun
    · cases hrun
      exact h
    · cases hrun
      exact h.setControl rfl rfl rfl fun hs => nomatch hs
  · next hcontrol =>
      split at hrun
      · cases hrun
        exact h.setControl rfl rfl rfl fun hs => nomatch hs
      · next hno =>
          split at hrun
          · cases hrun
            refine h.setControl rfl rfl rfl fun _ => ?_
            by_contra hnot
            exact hno ((hok hnot).1 hcontrol)
          · cases hrun
  · cases hrun
    exact h.setControl rfl rfl rfl fun hs => nomatch hs
  · split at hrun
    · cases hrun
      exact h
    · cases hrun
      exact h.setControl rfl rfl rfl fun hs => nomatch hs
  · exact h.waitThread hrun

/-- An access of a thread changes its phase, and never its handle. -/
theorem execute_frame {ok : Bool} (hrun : s.execute t x ok = some s') :
    ∃ phase, s'.pthread = s.pthread.insert t { x with phase } ∧
      s'.pthreadNum = s.pthreadNum ∧ s'.handle = s.handle ∧
      s'.control = s.control := by
  unfold SharedThread.execute at hrun
  split at hrun
  · cases hrun
    exact ⟨_, rfl, rfl, rfl, rfl⟩
  · cases hrun
    exact ⟨_, rfl, rfl, rfl, rfl⟩
  · split at hrun <;> cases hrun <;> exact ⟨_, rfl, rfl, rfl, rfl⟩
  · split at hrun <;> cases hrun <;> exact ⟨_, rfl, rfl, rfl, rfl⟩
  · split at hrun <;> cases hrun <;> exact ⟨_, rfl, rfl, rfl, rfl⟩
  · split at hrun <;> cases hrun <;> exact ⟨_, rfl, rfl, rfl, rfl⟩
  · cases hrun
    exact ⟨_, rfl, rfl, rfl, rfl⟩
  · cases hrun
    exact ⟨_, rfl, rfl, rfl, rfl⟩
  · cases hrun
    exact ⟨_, rfl, rfl, rfl, rfl⟩
  · cases hrun
    exact ⟨_, rfl, rfl, rfl, rfl⟩
  · cases hrun

theorem execute_of_exited {ok : Bool} (hexited : x.phase = .exited) :
    s.execute t x ok = none := by
  simp only [SharedThread.execute, hexited]

theorem Kept.execute (h : s.Kept) (hx : s.pthread.lookup t = some x)
    {ok : Bool} (hrun : s.execute t x ok = some s') : s'.Kept := by
  have hlive : x.joined = false := by
    by_contra hnot
    rw [execute_of_exited (h.exited t x hx (Bool.eq_true_of_not_eq_false hnot))]
      at hrun
    cases hrun
  have hnotAll : ¬ s.AllJoined := fun hall => by
    rw [allJoined_iff.mp hall t x hx] at hlive
    cases hlive
  obtain ⟨phase, hpthread, hnum, hhandle, hcontrol⟩ := execute_frame hrun
  refine ⟨fun u y hy => ?_, fun u y hy hjoined => ?_, fun u y hy hno => ?_,
    fun hs => absurd (h.stopped (hcontrol ▸ hs)) hnotAll,
    fun hnone => absurd (h.handle (hhandle ▸ hnone)) hnotAll⟩
  · rw [hnum]
    rw [hpthread, Table.lookup_insert_if] at hy
    split at hy
    · next heq => exact heq ▸ h.fresh t x hx
    · exact h.fresh u y hy
  · rw [hpthread, Table.lookup_insert_if] at hy
    split at hy
    · rw [← Option.some.inj hy] at hjoined
      rw [show x.joined = true from hjoined] at hlive
      cases hlive
    · exact h.exited u y hy hjoined
  · rw [hpthread, Table.lookup_insert_if] at hy
    rw [hhandle]
    split at hy
    · next heq => exact heq ▸ h.current t x hx hlive
    · exact h.current u y hy hno

theorem Kept.take (h : s.Kept) {i : ThreadStep} (hok : s.findsRunning i)
    (hstep : s.take i = some s') : s'.Kept := by
  cases i with
  | startThread pWorker =>
      simp only [SharedThread.take] at hstep
      split at hstep
      · cases hstep
        exact h.startThread pWorker
      · cases hstep
  | stopThread =>
      simp only [SharedThread.take] at hstep
      split at hstep
      · next hrest =>
          cases hstep
          exact h.stopThread hrest hok
      · cases hstep
  | control ok => exact h.proceed hok hstep
  | execute t ok =>
      simp only [SharedThread.take] at hstep
      split at hstep
      · next x hx => exact h.execute hx hstep
      · cases hstep

/-- A step that does not find what it should leaves a thread behind. -/
theorem findsRunning_of_clean (h : s.Kept) {i : ThreadStep}
    (hstep : s.take i = some s') (hclean : s'.StopsClean) :
    s.findsRunning i := by
  have hleft (hpthread : s'.pthread = s.pthread) (hnot : ¬ s.AllJoined) :
      s'.control ≠ .stopped := fun hs =>
    hnot (allJoined_iff.mpr (hpthread ▸ hclean.joined hs))
  cases i with
  | startThread pWorker => trivial
  | execute t ok => trivial
  | stopThread =>
      intro hnot hrest
      by_contra hstatus
      simp only [SharedThread.take, if_pos hrest, SharedThread.stopThread,
        if_neg hstatus] at hstep
      cases hstep
      exact hleft rfl hnot rfl
  | control ok =>
      intro hnot
      refine ⟨fun hcontrol => ?_, fun hcontrol => ?_⟩
      · by_contra hno
        simp only [SharedThread.take, SharedThread.proceed, hcontrol,
          if_neg hno] at hstep
        split at hstep
        · cases hstep
          exact hleft rfl hnot rfl
        · cases hstep
      · by_contra hyes
        rw [Bool.not_eq_false] at hyes
        simp only [SharedThread.take, SharedThread.proceed, hcontrol,
          if_pos hyes] at hstep
        cases hstep
        -- the thread that is left is not the one whose handle is kept
        refine hnot (allJoined_iff.mpr fun t x hx => ?_)
        have hlt := h.fresh t x hx
        by_contra hno
        have hcur := hclean.current t x
          ((Finmap.lookup_insert_of_ne _ (Nat.ne_of_lt hlt)).trans hx)
          (Bool.eq_false_iff.mpr hno)
        exact Nat.ne_of_gt hlt (Option.some.inj hcur)

end SharedThread

theorem reach_threadKept {s : SharedThread}
    (hs : threadMachine.Reach SharedThread.findsRunning s) : s.Kept :=
  hs.invariant (fun _ hs => hs ▸ .initial)
    fun _ _ _ h hok hstep => h.take hok hstep

/-- In every run in which `StopThread` finds a thread that is still to be
joined running, and none is created while there is one, a thread that has been
stopped is done with its worker and with the object. There the next step keeps
to this exactly under that condition. -/
theorem reach_stopsClean {s : SharedThread}
    (hs : threadMachine.Reach SharedThread.findsRunning s) :
    s.StopsClean ∧ ∀ i s', s.take i = some s' →
      (s'.StopsClean ↔ s.findsRunning i) := by
  have h := reach_threadKept hs
  exact ⟨h.stopsClean, fun i s' hstep =>
    ⟨SharedThread.findsRunning_of_clean h hstep,
      fun hok => (h.take hok hstep).stopsClean⟩⟩

/-- A thread is started, and its worker asked for one action. -/
def startSample : List ThreadStep :=
  .startThread (some 0) :: List.replicate 4 (.control true) ++
    List.replicate 2 (.execute 0 true) ++ [.control true] ++
    List.replicate 3 (.execute 0 true)

/-- It is stopped at its action, and started again. -/
def stopSample : List ThreadStep :=
  startSample ++ [.stopThread, .control true, .control true] ++
    List.replicate 6 (.execute 0 true) ++
    [.control true, .control true, .startThread (some 1)]

set_option maxRecDepth 4000 in
theorem reach_stopsClean_sample : ∃ s,
    threadMachine.run SharedThread.findsRunning .initial stopSample = some s ∧
      s.control = .setWorker 1 ∧ s.StopsClean := by
  have hrun : (threadMachine.run SharedThread.findsRunning .initial
      stopSample).map (·.control) = some (.setWorker 1) := by decide
  obtain ⟨s, hs, hcontrol⟩ := Option.map_eq_some_iff.mp hrun
  exact ⟨s, hs, hcontrol, (reach_stopsClean (.of_run (.start rfl) hs)).1⟩

set_option maxRecDepth 4000 in
/-- The action fails, and `StopThread` is called before `Uninitialize` is. -/
theorem workerEnded_not_stopsClean :
    ¬ ∀ s, threadMachine.Reach Machine.anyStep s → s.StopsClean := by
  intro h
  have hrun : (threadMachine.run Machine.anyStep .initial
      (startSample ++ [.execute 0 false, .execute 0 true, .stopThread])).map
        (fun s => (s.control, s.pthread.lookup 0)) =
          some (.stopped, some ⟨.uninitializing 0, false⟩) := by decide
  obtain ⟨s, hs, heq⟩ := Option.map_eq_some_iff.mp hrun
  obtain ⟨hcontrol, hpthread⟩ := Prod.mk.inj heq
  have hjoined := (h s (.of_run (.start rfl) hs)).joined hcontrol 0 _ hpthread
  cases hjoined

end AiEngine.Ref
