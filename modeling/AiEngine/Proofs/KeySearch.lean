import AiEngine.Proofs.ShmSearch

/-!
# The key search tries every key

The walk of `AcquireShmSegment` finds a free key if there is one. The other
half is here: where every key of the range is in use the walk comes round
with nothing, and leaves the host as it was. Between searches segments come
and go as their users like, and `g_shmKey` stays in its range. What the
process holds are different segments, since a new segment never has the
identifier of one that exists.
-/

namespace AiEngine.Ref

open AiEngine.Lib

variable {served : Nat → Bool}

namespace Host

/-- Every key of the range is in use. -/
def AllKeysInUse (h : Host) : Prop :=
  ∀ key, shmKeyStart ≤ key → key < shmKeyEnd → h.keyInUse key = true

theorem not_allKeysInUse {h : Host} (hall : ¬ h.AllKeysInUse) :
    ∃ key, shmKeyStart ≤ key ∧ key < shmKeyEnd ∧ h.keyInUse key = false := by
  unfold AllKeysInUse at hall
  push Not at hall
  obtain ⟨key, hlo, hhi, hfree⟩ := hall
  exact ⟨key, hlo, hhi, Bool.eq_false_iff.mpr hfree⟩

end Host

/-- A walk over used keys comes to nothing. -/
theorem acquireLoop_exhausted (hserved : ∀ n, served n = true)
    (size attempts : Nat) {h : Host} (hk : h.KeyInRange)
    (hall : h.AllKeysInUse) :
    (acquireLoop served size attempts h).1 = -1 ∧
      (acquireLoop served size attempts h).2.KeyInRange ∧
      (acquireLoop served size attempts h).2.segments = h.segments := by
  induction attempts generalizing h with
  | zero => exact ⟨rfl, hk, rfl⟩
  | succ attempts ih =>
      have hused : (⟨h.segments, h.shmKey, h.calls ++
          [.shmget h.shmKey]⟩ : Host).keyInUse h.shmKey = true :=
        hall h.shmKey hk.1 hk.2
      simp only [acquireLoop, Host.shmget, Host.call, hserved, hused, if_true]
      exact ih (Host.nextKey_inRange hk) hall

/-- What `AcquireShmSegment` comes to on a host. -/
structure SearchesAllKeys (served : Nat → Bool) (h : Host) (size : Nat) :
    Prop where
  inRange : (acquireShmSegment served h size).2.KeyInRange
  acquired : (∃ key, shmKeyStart ≤ key ∧ key < shmKeyEnd ∧
      h.keyInUse key = false) →
    Acquired h (acquireShmSegment served h size).2
      (acquireShmSegment served h size).1 size
  exhausted : (acquireShmSegment served h size).1 = -1 ↔ h.AllKeysInUse

theorem acquireShmSegment_finds (hserved : ∀ n, served n = true) {h : Host}
    (hk : h.KeyInRange) (size : Nat) (hfree : ∃ key, shmKeyStart ≤ key ∧
      key < shmKeyEnd ∧ h.keyInUse key = false) :
    Acquired h (acquireShmSegment served h size).2
      (acquireShmSegment served h size).1 size := by
  obtain ⟨key, hlo, hhi, hfree⟩ := hfree
  have hlt : h.ahead key < shmKeyEnd - shmKeyStart :=
    Int.emod_lt_of_pos _ (by decide)
  rw [← Int.toNat_of_nonneg (show 0 ≤ shmKeyEnd - shmKeyStart by decide)]
    at hlt
  obtain ⟨shmId, h', hrun, hacq⟩ :=
    acquireLoop_finds hserved hk hlo hhi hfree hlt
  rw [acquireShmSegment, hrun]
  exact hacq

theorem acquireShmSegment_searches (hserved : ∀ n, served n = true) {h : Host}
    (hk : h.KeyInRange) (size : Nat) : SearchesAllKeys served h size := by
  by_cases hall : h.AllKeysInUse
  · have hnone := acquireLoop_exhausted hserved size
      (shmKeyEnd - shmKeyStart).toNat hk hall
    refine ⟨hnone.2.1, fun ⟨key, hlo, hhi, hfree⟩ => ?_,
      iff_of_true hnone.1 hall⟩
    rw [hall key hlo hhi] at hfree
    cases hfree
  · have hacq := acquireShmSegment_finds hserved hk size
      (Host.not_allKeysInUse hall)
    refine ⟨hacq.inRange, fun _ => hacq, iff_of_false ?_ hall⟩
    rw [hacq.id]
    have hpos := h.freshId_spec.2.1
    omega

section Calls

variable {h : Host} {id : Int}

theorem shmget_shmKey (key : Int) (size : Nat) :
    (h.shmget served key size).2.shmKey = h.shmKey := by
  unfold Host.shmget Host.call
  cases served h.calls.length with
  | false => rfl
  | true =>
      dsimp only
      split <;> rfl

theorem shmSetUid_shmKey (uid : UInt32) :
    (h.shmSetUid served id uid).2.shmKey = h.shmKey := by
  unfold Host.shmSetUid Host.call
  cases served h.calls.length with
  | false => rfl
  | true =>
      dsimp only
      split <;> rfl

end Calls

namespace ShmSystem

/-- `g_shmKey` is in its range, and what is held are different segments that
exist. -/
structure Sound (s : ShmSystem) : Prop where
  inRange : s.host.KeyInRange
  nodup : s.held.Nodup
  exist : ∀ id ∈ s.held, (s.host.seg id).isSome = true

theorem Sound.onHost {s : ShmSystem} {host : Host} (h : s.Sound)
    (hk : host.KeyInRange) : (s.onHost host).Sound where
  inRange := hk
  nodup := h.nodup.filter _
  exist := fun _ hid => (List.mem_filter.mp hid).2

theorem Sound.onSameKey {s : ShmSystem} {host : Host} (h : s.Sound)
    (hkey : host.shmKey = s.host.shmKey) : (s.onHost host).Sound :=
  h.onHost (by rw [Host.KeyInRange, hkey]; exact h.inRange)

theorem Sound.new_notMem {s : ShmSystem} (h : s.Sound)
    (hserved : ∀ n, served n = true) {size : Nat}
    (hne : (acquireShmSegment served s.host size).1 ≠ -1) :
    (acquireShmSegment served s.host size).1 ∉ s.held := by
  have hsearch := acquireShmSegment_searches hserved h.inRange size
  have hacq := hsearch.acquired
    (Host.not_allKeysInUse (mt hsearch.exhausted.mpr hne))
  intro hmem
  have hexists := h.exist _ hmem
  rw [hacq.id, s.host.freshId_spec.1] at hexists
  cases hexists

theorem acquired_exists {h h' : Host} {shmId : Int} {size : Nat}
    (hacq : Acquired h h' shmId size) : (h'.seg shmId).isSome = true := by
  obtain ⟨key, -, -, -, hsegs⟩ := hacq.created
  rw [Host.seg, hsegs, List.find?_cons_of_pos (by simp)]
  rfl

theorem take_acquireShmSegment (s : ShmSystem) (size : Nat) :
    s.take served (.acquireShmSegment size) =
      if (acquireShmSegment served s.host size).1 = -1 then
        s.onHost (acquireShmSegment served s.host size).2
      else
        { s.onHost (acquireShmSegment served s.host size).2 with
          held := (acquireShmSegment served s.host size).1 ::
            (s.onHost (acquireShmSegment served s.host size).2).held } :=
  rfl

theorem Sound.acquire {s : ShmSystem} (h : s.Sound)
    (hserved : ∀ n, served n = true) (size : Nat) :
    (s.take served (.acquireShmSegment size)).Sound := by
  have hsearch := acquireShmSegment_searches hserved h.inRange size
  have hrest := h.onHost hsearch.inRange
  rw [take_acquireShmSegment]
  by_cases hfail : (acquireShmSegment served s.host size).1 = -1
  · rw [if_pos hfail]
    exact hrest
  · have hacq := hsearch.acquired
      (Host.not_allKeysInUse (mt hsearch.exhausted.mpr hfail))
    have hnew := h.new_notMem hserved hfail
    rw [if_neg hfail]
    refine ⟨hrest.inRange, ?_, ?_⟩
    · exact List.nodup_cons.mpr
        ⟨fun hmem => hnew (List.mem_filter.mp hmem).1, hrest.nodup⟩
    · intro id hid
      rcases List.mem_cons.mp hid with rfl | hid
      · exact acquired_exists hacq
      · exact hrest.exist id hid

theorem Sound.take {s : ShmSystem} (h : s.Sound)
    (hserved : ∀ n, served n = true) (i : ShmStep) :
    (s.take served i).Sound := by
  cases i with
  | acquireShmSegment size => exact h.acquire hserved size
  | shmget key size => exact h.onSameKey (shmget_shmKey key size)
  | shmat id => exact h.onSameKey Host.shmat_shmKey
  | shmdt id => exact h.onSameKey Host.shmdt_shmKey
  | shmSetUid id uid => exact h.onSameKey (shmSetUid_shmKey uid)
  | shmRmid id => exact h.onSameKey Host.shmRmid_shmKey

/-- The search from this state: it keeps to its range, finds a free key if
there is one, gives up only if there is none, and returns no segment that
the process holds. -/
structure KeySearch (served : Nat → Bool) (s : ShmSystem) : Prop where
  inRange : s.host.KeyInRange
  different : s.held.Nodup
  searches : ∀ size, SearchesAllKeys served s.host size
  returnsNew : ∀ size, (acquireShmSegment served s.host size).1 ≠ -1 →
    (acquireShmSegment served s.host size).1 ∉ s.held

end ShmSystem

/-- In every run, from any value of `g_shmKey` in its range and any set of
segments, the search is exhaustive. -/
theorem reach_keySearch (hserved : ∀ n, served n = true) {s : ShmSystem}
    (hs : (shmMachine served).Reach Machine.anyStep s) :
    s.KeySearch served := by
  have hsound : s.Sound := hs.invariant
    (fun s hstart => ⟨hstart.2, hstart.1 ▸ List.nodup_nil,
      fun id hid => nomatch hstart.1 ▸ hid⟩)
    fun s i s' hinv _ hstep => by
      cases hstep
      exact hinv.take hserved i
  exact ⟨hsound.inRange, hsound.nodup,
    acquireShmSegment_searches hserved hsound.inRange,
    fun _ => hsound.new_notMem hserved⟩

/-- A process whose search starts at the last key of the range, which is in
use. -/
def lastKeyUsed : ShmSystem :=
  ⟨⟨[⟨0, some 299999, [], 0, 0⟩], 299999, []⟩, []⟩

theorem reach_keySearch_lastKey :
    ((lastKeyUsed.take (fun _ => true) (.acquireShmSegment 8)).KeySearch
      fun _ => true) :=
  reach_keySearch (fun _ => rfl)
    (.step (.start ⟨rfl, by decide, by decide⟩) trivial rfl)

end AiEngine.Ref
