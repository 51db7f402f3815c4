import AiEngine.Proofs.PcmWindows
import AiEngine.Ref.KwsSdk

/-!
# What a failed execution leaves behind

`SyncExecute` gives its input to the iterator and takes the windows one by
one. Where a window fails it returns at once, and the windows it has not taken
stay in the iterator, which then refuses any further input; nothing resets it.
So a failure does no harm exactly when it falls on the last window that is
complete. The sizes of the SDK leave no rest of the cache that cannot be moved
to the front, so every other call goes through whatever the lengths are.
-/

namespace AiEngine.Ref

open AiEngine.Lib

namespace PCMIterator

variable {a : Abi} {S W q : Nat} {it : PCMIterator} {xs ys : List Int16}

/-- With steps of half a window or more, a rest of the cache always fits where
it goes. -/
theorem Ready.restFits (h : it.Ready S W xs q) (hwide : W ≤ 2 * S) (n : Nat) :
    it.RestFits n := by
  intro hleft _
  rcases h with ⟨b, c, h⟩ | ⟨b, c, h⟩ | ⟨h, _⟩
  · have htarget := h.target
    have hinside := h.inside
    have hsize := h.sized.stepSize
    have hwindow := h.sized.windowSize
    omega
  · have hnone := h.numCopy
    omega
  · have hnone := h.numCopy
    omega

theorem Ready.sized (h : it.Ready S W xs q) : it.Sized S W := by
  rcases h with ⟨b, c, h⟩ | ⟨b, c, h⟩ | ⟨h, _⟩
  · exact h.sized
  · exact h.sized
  · exact h.sized

theorem Phase.sized (h : it.Phase S W xs q) : it.Sized S W := by
  rcases h with h | h | h
  · exact h.sized
  · exact h.sized
  · exact h.sized

/-- An iterator that has a window left refuses an input. -/
theorem Phase.setInput_refused (h : it.Phase S W xs q) (hv : Valid S W)
    (hmore : W ≤ xs.length - q) (ys : List Int16) :
    ∃ it', it.setInput a ys = some (Retcode.failure, it') := by
  obtain ⟨it', hhas, -⟩ := h.hasNext (a := a) hv
  rw [decide_eq_true hmore] at hhas
  refine ⟨it', ?_⟩
  rw [PCMIterator.setInput, if_neg (not_not.mpr h.sized.initialized), hhas]

theorem Phase.setInput (h : it.Phase S W xs q) (hv : Valid S W)
    (hwide : W ≤ 2 * S) (hless : ¬ W ≤ xs.length - q)
    (hys : 0 < ys.length) :
    ∃ it', it.setInput a ys = some (Retcode.success, it') ∧
      it'.Phase S W (xs ++ ys) q := by
  obtain ⟨it₁, hhas, hready⟩ := h.hasNext (a := a) hv
  have hidle := hready.hasNext (a := a) hv
  obtain ⟨it', hset, hphase⟩ := hready.setInput (a := a) hv hless hys
    (hready.restFits hwide _)
  rw [decide_eq_false hless] at hhas hidle
  rw [PCMIterator.setInput, if_neg (not_not.mpr hready.sized.initialized),
    hidle] at hset
  refine ⟨it', ?_, hphase⟩
  rw [PCMIterator.setInput, if_neg (not_not.mpr h.sized.initialized), hhas]
  exact hset

/-- An `Init` that succeeds leaves an iterator that waits for a stream to
begin. -/
theorem init_phase (hv : Valid S W) {newCells : Option (Nat → Int16)}
    (hinit : PCMIterator.new.init a S W newCells = (Retcode.success, it)) :
    it.Phase S W [] 0 :=
  .inr (.inr (init_direct hv hinit))

end PCMIterator

namespace KWSSdkImpl

variable {a : Abi} {S W : Nat} {s : KWSSdkImpl} {xs : List Int16}
variable {reply : WindowReply} {replies : Nat → WindowReply}

instance (handle : Int) : Decidable (reply.Succeeds handle) :=
  decidable_of_iff
    (reply.mfcc = Retcode.success ∧ reply.encode = Retcode.success ∧
      reply.syncProcess = Retcode.success ∧ ¬ invalidOutput reply.outputInfo ∧
      reply.decode = Retcode.success ∧ handle = reply.receivedHandle)
    ⟨fun ⟨h₁, h₂, h₃, h₄, h₅, h₆⟩ => ⟨h₁, h₂, h₃, h₄, h₅, h₆⟩,
      fun h => ⟨h.mfcc, h.encode, h.syncProcess, h.outputInfo, h.decode,
        h.receivedHandle⟩⟩

/-- `Execute` succeeds when every step of it does, and touches nothing but
the log of the callback. -/
theorem execute_spec (s : KWSSdkImpl) (reply : WindowReply) :
    ∃ retCode events, s.execute reply = (retCode, { s with events }) ∧
      (retCode = KwsRetcode.success ∧ reply.mfcc = Retcode.success ↔
        reply.Succeeds s.kwsHandle) := by
  have hfailed {code : Int} (hcode : code ≠ KwsRetcode.success)
      (h : ¬ reply.Succeeds s.kwsHandle) :
      ∃ retCode events, s.onError code = (retCode, { s with events }) ∧
        (retCode = KwsRetcode.success ∧ reply.mfcc = Retcode.success ↔
          reply.Succeeds s.kwsHandle) :=
    ⟨code, _, rfl, fun hret => absurd hret.1 hcode, fun hs => absurd hs h⟩
  unfold execute
  split
  · next hencode => exact hfailed (by decide) fun h => hencode h.encode
  · next hencode =>
      split
      · next hsync => exact hfailed (by decide) fun h => hsync h.syncProcess
      · next hsync =>
          split
          · next hout => exact hfailed (by decide) fun h => h.outputInfo hout
          · next hout =>
              split
              · next hdecode =>
                  exact hfailed (by decide) fun h => hdecode h.decode
              · next hdecode =>
                  split
                  · next hhandle =>
                      exact hfailed (by decide)
                        fun h => hhandle h.receivedHandle
                  · next hhandle =>
                      refine ⟨_, _, rfl, fun h => ⟨h.2, not_not.mp hencode,
                        not_not.mp hsync, hout, not_not.mp hdecode,
                        not_not.mp hhandle⟩, fun h => ⟨rfl, h.mfcc⟩⟩

/-! ## The loop

The loop ends with the last window, or at the first one that fails. Only in
the first case is the iterator as `SetInput` wants it, unless the one that
failed was the last. -/

/-- The SDK of a call that is under way: the next window is the `j`-th of the
stream. -/
structure Running (S W : Nat) (xs : List Int16) (j : Nat) (s : KWSSdkImpl) :
    Prop where
  kwsHandle : s.kwsHandle ≠ invalidKwsHandle
  callback : s.callback = true
  iterator : ∃ it, s.pcmIterator = some it ∧ it.Phase S W xs (j * S)
  le : j ≤ Window.count S W xs.length

/-- What is true where a window fails and the loop stops. -/
theorem stopped {j n : Nat} {handle retCode : Int} (hnext : j < n)
    (hfail : ¬ (replies 0).Succeeds handle) :
    ((∀ k, (replies k).Succeeds handle) → retCode = KwsRetcode.success) ∧
      (j + 1 = n ↔ ∀ k, j + k + 1 < n → (replies k).Succeeds handle) := by
  refine ⟨fun hs => absurd (hs 0) hfail, fun hlast k hk => ?_, fun hs => ?_⟩
  · omega
  · by_contra hmore
    exact hfail (hs 0 (by omega))

/-- The loop ends after the last window or after the first that fails. It
succeeds if no window fails, and all windows are taken if none before the last
one does. -/
theorem Running.executeAll (hv : PCMIterator.Valid S W) (rounds : Nat) :
    ∀ {s : KWSSdkImpl} {j : Nat} {replies : Nat → WindowReply},
      s.Running S W xs j →
      xs.length + 1 - (j * S + W) < rounds →
      ∃ retCode s' j', s.executeAll a replies rounds = some (retCode, s') ∧
        s'.kwsHandle = s.kwsHandle ∧ s'.Running S W xs j' ∧
        ((∀ k, (replies k).Succeeds s.kwsHandle) →
          retCode = KwsRetcode.success) ∧
        (j' = Window.count S W xs.length ↔
          ∀ k, j + k + 1 < Window.count S W xs.length →
            (replies k).Succeeds s.kwsHandle) := by
  have hS := hv.stepSize
  induction rounds with
  | zero => exact fun _ hrounds => absurd hrounds (Nat.not_lt_zero _)
  | succ rounds ih =>
      intro s j replies h hrounds
      obtain ⟨it, hit, hphase⟩ := h.iterator
      obtain ⟨it₁, hhas, hready⟩ := hphase.hasNext (a := a) hv
      have hj := h.le
      rw [KWSSdkImpl.executeAll, hit]
      dsimp only
      rw [hhas]
      by_cases hmore : W ≤ xs.length - j * S
      · have hpos := hv.windowSize
        have hnext : j < Window.count S W xs.length := by
          rw [Window.lt_count hS]
          omega
        have hfit := (Window.lt_count hS).mp hnext
        have hmul : (j + 1) * S = j * S + S := Nat.succ_mul j S
        obtain ⟨it₂, htake, hphase₂⟩ := hready.next (a := a) hv hmore
        rw [← hmul] at hphase₂
        have hrun : Running S W xs (j + 1)
            { s with pcmIterator := some it₂ } :=
          ⟨h.kwsHandle, h.callback, ⟨it₂, rfl, hphase₂⟩, hnext⟩
        obtain ⟨code, events, hexecute, hcode⟩ :=
          execute_spec { s with pcmIterator := some it₂ } (replies 0)
        simp only [decide_eq_true hmore, htake, hexecute]
        split
        · next hmfcc =>
            exact ⟨_, _, j + 1, rfl, rfl, hrun,
              stopped hnext fun hs => hmfcc hs.mfcc⟩
        · next hmfcc =>
            split
            · next hfail =>
                exact ⟨_, _, j + 1, rfl, rfl, { hrun with },
                  stopped hnext fun hs => hfail (hcode.mpr hs).1⟩
            · next hsuccess =>
                have hfirst :=
                  hcode.mp ⟨not_not.mp hsuccess, not_not.mp hmfcc⟩
                obtain ⟨retCode, s', j', hrest, hhandle, hrun', hall, hlast⟩ :=
                  @ih { s with pcmIterator := some it₂, events } _
                    (fun k => replies (k + 1)) { hrun with } (by omega)
                refine ⟨retCode, s', j', hrest, hhandle, hrun',
                  fun hs => hall fun k => hs (k + 1), hlast.trans ?_⟩
                constructor
                · intro hs k hk
                  cases k with
                  | zero => exact hfirst
                  | succ k => exact hs k (by omega)
                · intro hs k hk
                  exact hs (k + 1) (by omega)
      · have hlast : j = Window.count S W xs.length := by
          refine Nat.le_antisymm hj (Nat.le_of_not_lt fun hlt => hmore ?_)
          have hfit := (Window.lt_count hS).mp hlt
          omega
        simp only [decide_eq_false hmore]
        refine ⟨_, _, j, rfl, rfl, ⟨h.kwsHandle, h.callback,
          ⟨it₁, rfl, .inl hready⟩, hj⟩, fun _ => rfl, ?_⟩
        exact ⟨fun _ k hk => absurd hk (by omega), fun _ => hlast⟩

/-- An iterator that has no window left accepts an input. -/
theorem Running.setInput (hv : PCMIterator.Valid S W) (hwide : W ≤ 2 * S)
    (h : s.Running S W xs (Window.count S W xs.length)) {ys : List Int16}
    (hys : 0 < ys.length) :
    ∃ it it', s.pcmIterator = some it ∧
      it.setInput a ys = some (Retcode.success, it') ∧
      it'.Phase S W (xs ++ ys) (Window.count S W xs.length * S) := by
  have hW := hv.windowSize
  have hnone : ¬ Window.count S W xs.length * S + W ≤ xs.length := fun hle =>
    Nat.lt_irrefl _ ((Window.lt_count hv.stepSize).mpr hle)
  obtain ⟨it, hit, hphase⟩ := h.iterator
  obtain ⟨it', hset, hphase'⟩ := hphase.setInput (a := a) hv hwide
    (by omega) hys
  exact ⟨it, it', hit, hset, hphase'⟩

theorem Running.syncExecute (hv : PCMIterator.Valid S W) (hwide : W ≤ 2 * S)
    (h : s.Running S W xs (Window.count S W xs.length)) {ys : List Int16}
    (hys : 0 < ys.length) (replies : Nat → WindowReply) :
    ∃ retCode s' j, s.syncExecute a ys replies = some (retCode, s') ∧
      s'.kwsHandle = s.kwsHandle ∧ s'.Running S W (xs ++ ys) j ∧
      ((∀ k, (replies k).Succeeds s.kwsHandle) →
        retCode = KwsRetcode.success) ∧
      (j = Window.count S W (xs ++ ys).length ↔
        ∀ k, Window.count S W xs.length + k + 1 <
            Window.count S W (xs ++ ys).length →
          (replies k).Succeeds s.kwsHandle) := by
  have hlen : (xs ++ ys).length = xs.length + ys.length := List.length_append
  have hnone : ¬ Window.count S W xs.length * S + W ≤ xs.length := fun hle =>
    Nat.lt_irrefl _ ((Window.lt_count hv.stepSize).mpr hle)
  obtain ⟨it, it', hit, hset, hphase⟩ := h.setInput (a := a) hv hwide hys
  have hrun : Running S W (xs ++ ys) (Window.count S W xs.length)
      { s with pcmIterator := some it' } :=
    ⟨h.kwsHandle, h.callback, ⟨it', rfl, hphase⟩,
      Window.count_mono (by omega)⟩
  rw [KWSSdkImpl.syncExecute, if_neg h.kwsHandle,
    if_neg (not_not.mpr h.callback), hit]
  simp only [hset, ne_eq, not_true_eq_false, if_false]
  exact hrun.executeAll hv _ (by omega)

/-- `InitComponents` makes an iterator that waits for a stream to begin. -/
theorem initComponents_spec
    (hv : PCMIterator.Valid kwsStepSize kwsWindowSize) {env : CreateReply}
    {s' : KWSSdkImpl}
    (hinit : s.initComponents a env = (KwsRetcode.success, s')) :
    ∃ it, s'.pcmIterator = some it ∧
      it.Phase kwsStepSize kwsWindowSize [] 0 := by
  have hno {q : KWSSdkImpl}
      (h : (KwsRetcode.failure, q) = (KwsRetcode.success, s')) : False :=
    absurd (Prod.mk.inj h).1 (by decide)
  unfold initComponents at hinit
  generalize hit : PCMIterator.new.init a kwsStepSize kwsWindowSize
    env.newCells = made at hinit
  obtain ⟨retCode, it⟩ := made
  dsimp only at hinit
  split at hinit
  · exact (hno hinit).elim
  · split at hinit
    · exact (hno hinit).elim
    · split at hinit
      · exact (hno hinit).elim
      · split at hinit
        · exact (hno hinit).elim
        · next hcode =>
            obtain rfl := not_not.mp hcode
            rw [← (Prod.mk.inj hinit).2]
            exact ⟨it, rfl, PCMIterator.init_phase hv hit⟩

theorem create_running (hv : PCMIterator.Valid kwsStepSize kwsWindowSize)
    {env : CreateReply} {sdk : KWSSdkImpl}
    (hcreate : s.create a env = (KwsRetcode.success, sdk))
    (hhandle : sdk.kwsHandle ≠ invalidKwsHandle) :
    sdk.setCallback.Running kwsStepSize kwsWindowSize [] 0 := by
  have hno {code : Int} {q : KWSSdkImpl}
      (h : (code, q) = (KwsRetcode.success, sdk))
      (hcode : code ≠ KwsRetcode.success) : False :=
    hcode (Prod.mk.inj h).1
  unfold create at hcreate
  generalize hmade : s.initComponents a env = made at hcreate
  obtain ⟨retCode, s'⟩ := made
  dsimp only at hcreate
  split at hcreate
  · exact (hno hcreate (by decide)).elim
  · split at hcreate
    · exact (hno hcreate (by decide)).elim
    · next hcode =>
        obtain rfl := not_not.mp hcode
        obtain ⟨it, hit, hphase⟩ := initComponents_spec hv hmade
        split at hcreate
        · exact (hno hcreate (by decide)).elim
        · split at hcreate
          · exact (hno hcreate (by decide)).elim
          · split at hcreate
            · exact (hno hcreate (by decide)).elim
            · split at hcreate
              · exact (hno hcreate (by decide)).elim
              · split at hcreate
                · exact (hno hcreate (by decide)).elim
                · obtain rfl := (Prod.mk.inj hcreate).2
                  refine ⟨hhandle, rfl, ⟨it, hit, ?_⟩, Nat.zero_le _⟩
                  rw [Nat.zero_mul]
                  exact hphase

end KWSSdkImpl

theorem kws_valid : PCMIterator.Valid kwsStepSize kwsWindowSize :=
  ⟨by decide, by decide, by decide, by decide⟩

namespace KwsRun

variable {a : Abi} {s : KwsRun} {c : KwsCall}

/-- How many windows are complete in a number of samples. -/
def windowsOf (n : Nat) : Nat := Window.count kwsStepSize kwsWindowSize n

/-- In the call, every window but the last that becomes complete is processed
and executed with success. -/
def failsLast (s : KwsRun) (c : KwsCall) : Prop :=
  ∀ k, windowsOf s.samples.length + k + 1 <
      windowsOf (s.samples.length + c.input.length) →
    (c.replies k).Succeeds s.sdk.kwsHandle

/-- The windows before the `j`-th are taken. -/
def Taken (s : KwsRun) (j : Nat) : Prop :=
  s.sdk.Running kwsStepSize kwsWindowSize s.samples j

/-- Between two calls, an SDK is enabled exactly if no window is left. -/
theorem Taken.enabled_iff {j : Nat} (h : s.Taken j) :
    s.Enabled a ↔ j = windowsOf s.samples.length := by
  constructor
  · intro hon
    by_contra hne
    have hlt : j < windowsOf s.samples.length := Nat.lt_of_le_of_ne h.le hne
    have hfit := (Window.lt_count kws_valid.stepSize).mp hlt
    obtain ⟨it, hit, hphase⟩ := h.iterator
    obtain ⟨it₁, hrefused⟩ := hphase.setInput_refused (a := a)
      kws_valid (by omega) [0]
    obtain ⟨⟨it₂, it', hit', haccepted⟩, -⟩ :=
      hon ⟨[0], fun _ => ⟨0, 0, 0, ⟨.null, 0⟩, 0, 0, []⟩⟩ Nat.zero_lt_one
    obtain rfl := Option.some.inj (hit.symm.trans hit')
    have hcode := Option.some.inj (hrefused.symm.trans haccepted)
    exact absurd (Prod.mk.inj hcode).1 (by decide)
  · rintro rfl c hc
    obtain ⟨it, it', hit, hset, -⟩ :=
      KWSSdkImpl.Running.setInput (a := a) kws_valid (by decide) h hc
    obtain ⟨retCode, sdk, -, hrun, -, -, hall, -⟩ :=
      KWSSdkImpl.Running.syncExecute (a := a) kws_valid (by decide) h hc
        c.replies
    exact ⟨⟨it, it', hit, hset⟩, fun hs => ⟨sdk, hall hs ▸ hrun⟩⟩

/-- A call of an enabled SDK leaves windows exactly if one fails before the
last. -/
theorem Taken.call (h : s.Taken (windowsOf s.samples.length))
    (hc : 0 < c.input.length) :
    ∃ j, (s.call a c).Taken j ∧
      (j = windowsOf (s.call a c).samples.length ↔ s.failsLast c) := by
  obtain ⟨retCode, sdk, j, hrun, -, hrunning, -, hlast⟩ :=
    KWSSdkImpl.Running.syncExecute (a := a) kws_valid (by decide) h hc
      c.replies
  have hsdk : (s.call a c).sdk = sdk := by
    rw [KwsRun.call, hrun]
  refine ⟨j, ?_, ?_⟩
  · rw [Taken, hsdk]
    exact hrunning
  · refine hlast.trans ?_
    rw [failsLast, List.length_append]
    rfl

/-- No window is left. -/
def Kept (s : KwsRun) : Prop := s.Taken (windowsOf s.samples.length)

theorem reach_kept (hs : (kwsMachine a).Reach failsLast s) : s.Kept := by
  refine hs.invariant ?_ ?_
  · rintro s ⟨s₀, env, sdk, hcreate, hhandle, rfl⟩
    have hzero : windowsOf 0 = 0 := by decide
    rw [Kept, List.length_nil, hzero]
    exact KWSSdkImpl.create_running kws_valid hcreate hhandle
  · intro s c s' h hok hstep
    simp only [kwsMachine] at hstep
    split at hstep
    · cases hstep
    · next hne =>
        cases hstep
        obtain ⟨j, htaken, hlast⟩ :=
          Taken.call (a := a) h (Nat.pos_of_ne_zero hne)
        rw [hlast.mpr hok] at htaken
        exact htaken

/-- After such a run, a call leaves the SDK enabled if and only if no window
before the last fails in it. -/
theorem enabled_call_iff (hs : (kwsMachine a).Reach failsLast s)
    (hc : 0 < c.input.length) :
    (s.call a c).Enabled a ↔ s.failsLast c := by
  obtain ⟨j, htaken, hlast⟩ := Taken.call (a := a) (reach_kept hs) hc
  exact htaken.enabled_iff.trans hlast

end KwsRun

/-- In every run in which no window fails before the last of its call, the
next input is accepted, and the call succeeds if all its steps do. -/
theorem reach_enabled {a : Abi} {s : KwsRun}
    (hs : (kwsMachine a).Reach KwsRun.failsLast s) : s.Enabled a :=
  (KwsRun.Taken.enabled_iff (KwsRun.reach_kept hs)).mpr rfl

/-- A reply to a window, with the code of the MFCC processor. -/
def sampleReply (mfcc : Int) : WindowReply :=
  ⟨mfcc, 0, 0, ⟨.block [0], 1⟩, 0, 7, []⟩

/-- An SDK as `Create` leaves it. -/
def kwsSample : KwsRun :=
  ⟨((KWSSdkImpl.new.create .lp64 ⟨true, 0, true, some fun _ => 0, 0, 1, 0,
    ⟨.block [0], 1⟩, 0, 7⟩).2).setCallback, []⟩

theorem kwsSample_start : (kwsMachine .lp64).start kwsSample :=
  ⟨.new, ⟨true, 0, true, some fun _ => 0, 0, 1, 0, ⟨.block [0], 1⟩, 0, 7⟩, _,
    rfl, by decide, rfl⟩

/-- A call with silence, none of whose windows the MFCC processor can
process. -/
def silence (n : Nat) : KwsCall := ⟨List.replicate n 0, fun _ => sampleReply 1⟩

theorem length_silence (n : Nat) : (silence n).input.length = n :=
  List.length_replicate

theorem kwsSample_step {n : Nat} (hn : n ≠ 0) :
    (kwsMachine .lp64).step kwsSample (silence n) =
      some (kwsSample.call .lp64 (silence n)) :=
  if_neg (by rw [length_silence]; exact hn)

theorem failsLast_silence {n : Nat} :
    kwsSample.failsLast (silence n) ↔ KwsRun.windowsOf n ≤ 1 := by
  have hzero : KwsRun.windowsOf kwsSample.samples.length = 0 := by decide
  have hno (k : Nat) :
      ¬ ((silence n).replies k).Succeeds kwsSample.sdk.kwsHandle :=
    fun h => absurd (show (1 : Int) = 0 from h.mfcc) (by decide)
  have hlen : kwsSample.samples.length + (silence n).input.length = n := by
    rw [length_silence]
    exact Nat.zero_add n
  rw [KwsRun.failsLast, hzero, hlen]
  constructor
  · intro h
    by_contra hmore
    exact hno 0 (h 0 (by omega))
  · exact fun hle k hk => absurd hk (by omega)

/-- The one window of a call fails. -/
theorem reach_enabled_oneWindow :
    (kwsSample.call .lp64 (silence 3360)).Enabled .lp64 :=
  reach_enabled (.step (.start kwsSample_start)
    (failsLast_silence.mpr (by decide)) (kwsSample_step (by decide)))

/-- The first of two windows fails, and the second stays in the iterator. -/
theorem twoWindows_not_enabled :
    ¬ ∀ s, (kwsMachine .lp64).Reach Machine.anyStep s → s.Enabled .lp64 := by
  intro h
  have hon := h _ (.step (.start kwsSample_start) trivial
    (kwsSample_step (n := 6560) (by decide)))
  have hlast := (KwsRun.enabled_call_iff (.start kwsSample_start)
    (by rw [length_silence]; decide)).mp hon
  exact absurd (failsLast_silence.mp hlast) (by decide)

end AiEngine.Ref
