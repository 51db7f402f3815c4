import AiEngine.Proofs.IpcRoundTrip

/-!
# A payload that was read leaves no segment

The writer of a long payload creates one segment, and the reader removes it.
Each of them makes half a dozen calls on the way, and none of these touches a
segment but that one, whether it is served or not. So it is enough to follow
the one segment: the others are the same list before and after.
-/

namespace AiEngine.Ref

open AiEngine.Lib

namespace Host

variable {h : Host} {served : Nat → Bool} {id : Int}

/-- The segments besides the one of a slot. -/
def besides (h : Host) (slot : Option Int) : List Segment :=
  h.segments.filter fun s => slot ≠ some s.id

@[simp] theorem besides_none : h.besides none = h.segments := by
  simp [besides]

@[simp] theorem besides_withKey (k : Int) (slot : Option Int) :
    ({ h with shmKey := k } : Host).besides slot = h.besides slot := rfl

theorem besides_update {f : Segment → Segment} (hf : ∀ s, (f s).id = s.id)
    (h : Host) (id : Int) :
    (h.update id f).besides (some id) = h.besides (some id) := by
  simp only [besides, update]
  induction h.segments with
  | nil => rfl
  | cons s ss ih =>
      rw [List.map_cons]
      by_cases hid : s.id = id
      · simpa [hid, hf] using ih
      · simpa [hid, Ne.symm hid] using ih

theorem besides_remove (h : Host) (id : Int) :
    (h.remove id).besides (some id) = h.besides (some id) := by
  simp only [besides, remove, List.filter_filter]
  refine List.filter_congr fun s _ => ?_
  by_cases hid : s.id = id
  · simp [hid]
  · simp [hid, Ne.symm hid]

/-- Where the slot has no segment, there are no others to leave out. -/
theorem besides_of_seg (hseg : h.seg id = none) :
    h.besides (some id) = h.segments := by
  rw [besides, List.filter_eq_self]
  intro s hs
  have hne : s.id ≠ id := by simpa using List.find?_eq_none.mp hseg s hs
  simp [Ne.symm hne]

theorem besides_shmat {b : Bool} {h' : Host}
    (hrun : h.shmat served id = (b, h')) :
    h'.besides (some id) = h.besides (some id) := by
  obtain rfl : (h.shmat served id).2 = h' := congrArg Prod.snd hrun
  clear hrun
  simp only [shmat, call]
  cases served h.calls.length with
  | false => rfl
  | true =>
      dsimp only
      split
      · exact besides_update (by simp) _ _
      · rfl

theorem besides_shmdt {b : Bool} {h' : Host}
    (hrun : h.shmdt served id = (b, h')) :
    h'.besides (some id) = h.besides (some id) := by
  obtain rfl : (h.shmdt served id).2 = h' := congrArg Prod.snd hrun
  clear hrun
  simp only [shmdt, call]
  cases served h.calls.length with
  | false => rfl
  | true =>
      dsimp only
      split
      · rfl
      · split
        · exact besides_remove _ _
        · exact besides_update (by simp) _ _

theorem besides_shmStat {b : Bool} {h' : Host}
    (hrun : h.shmStat served id = (b, h')) (slot : Option Int) :
    h'.besides slot = h.besides slot := by
  obtain rfl : (h.shmStat served id).2 = h' := congrArg Prod.snd hrun
  clear hrun
  simp only [shmStat, call]
  cases served h.calls.length <;> rfl

theorem besides_shmSetUid {uid : UInt32} {b : Bool} {h' : Host}
    (hrun : h.shmSetUid served id uid = (b, h')) :
    h'.besides (some id) = h.besides (some id) := by
  obtain rfl : (h.shmSetUid served id uid).2 = h' := congrArg Prod.snd hrun
  clear hrun
  simp only [shmSetUid, call]
  cases served h.calls.length with
  | false => rfl
  | true =>
      dsimp only
      split
      · exact besides_update (by simp) _ _
      · rfl

theorem besides_releaseShmId :
    (releaseShmId served h id).besides (some id) = h.besides (some id) := by
  rw [releaseShmId]
  split
  · rfl
  simp only [shmRmid, call]
  cases served h.calls.length with
  | false => rfl
  | true =>
      dsimp only
      split
      · rfl
      · split
        · exact besides_remove _ _
        · exact besides_update (by simp) _ _

theorem shmKey_of_run {α : Type} {run : α × Host} {b : α} {h' : Host}
    (hrun : run = (b, h')) (hkey : run.2.shmKey = h.shmKey) :
    h'.shmKey = h.shmKey := by
  rw [hrun] at hkey
  exact hkey

theorem releaseShmId_shmKey :
    (releaseShmId served h id).shmKey = h.shmKey := by
  rw [releaseShmId]
  split
  · rfl
  · exact shmRmid_shmKey

end Host

variable {Io : Type} {ser : Serializer Io} {holds : Io → List Item → Prop}
  {served : Nat → Bool}

theorem Host.seg_besides (h : Host) {slot : Option Int} {i : Int}
    (hi : slot ≠ some i) :
    (h.besides slot).find? (fun s => s.id = i) = h.seg i := by
  rw [Host.seg, Host.besides, List.find?_filter]
  refine congrArg (fun p => List.find? p h.segments) (funext fun s => ?_)
  by_cases hs : s.id = i
  · simp [hs, hi]
  · simp [hs]

theorem Host.seg_of_besides {h h' : Host} {a : Int}
    (heq : h'.besides (some a) = h.segments) {i : Int} (hi : i ≠ a) :
    h'.seg i = h.seg i := by
  have hslot : some a ≠ some i := fun hsame => hi (Option.some.inj hsame).symm
  rw [← h'.seg_besides hslot, heq, Host.seg]

theorem Host.seg_of_segments {h h' : Host} {slot : Option Int}
    (hsegs : h'.segments = h.besides slot) {i : Int} (hi : slot ≠ some i) :
    h'.seg i = h.seg i := by
  rw [Host.seg, hsegs, h.seg_besides hi]

theorem Acquired.besides {h h' : Host} {id : Int} {size : Nat}
    (hacq : Acquired h h' id size) : h'.besides (some id) = h.segments := by
  obtain ⟨key, -, -, -, hsegs⟩ := hacq.created
  have hfresh : h.seg id = none := hacq.id ▸ h.freshId_spec.1
  rw [Host.besides, hsegs, List.filter_cons_of_neg (by simp)]
  exact Host.besides_of_seg hfresh

/-- A copy changes nothing on the host but the list of calls. -/
theorem copyBytes_host {h h' : Host} {dest src : List UInt8} {n : Nat}
    {bytes : Option (List UInt8)}
    (hrun : copyBytes served h dest src n = .ok (bytes, h')) :
    h' = { h with calls := h.calls ++ [.memcpy] } := by
  simp only [copyBytes, Host.call] at hrun
  cases hserved : served h.calls.length with
  | false =>
      rw [hserved] at hrun
      cases hrun
      rfl
  | true =>
      rw [hserved] at hrun
      dsimp only at hrun
      split at hrun <;> cases hrun <;> rfl

/-- Whatever comes of it, the writer of a long payload touches the segment it
acquired and no other. -/
theorem pushSharedMemory_besides {io io' : Io} {h h' : Host} {d : DataInfo}
    {uid : UInt32}
    (hrun : ipcIoPushSharedMemory ser served io h d uid = .ok (io', h'))
    {id : Int} {h₁ : Host}
    (hacq : acquireShmSegment served h d.length.toNat = (id, h₁)) :
    h'.besides (some id) = h₁.besides (some id) := by
  simp only [ipcIoPushSharedMemory, hacq] at hrun
  split at hrun
  · cases hrun
    rfl
  split at hrun
  · next h₂ hat =>
      cases hrun
      rw [Host.besides_releaseShmId, Host.besides_shmat hat]
  next h₂ hat =>
  have hbes₂ : h₂.besides (some id) = h₁.besides (some id) :=
    Host.besides_shmat hat
  obtain ⟨src, -, hrun⟩ := Outcome.bind_eq_ok.mp hrun
  obtain ⟨⟨copied, h₃⟩, hcopy, hrun⟩ := Outcome.bind_eq_ok.mp hrun
  obtain rfl := copyBytes_host hcopy
  split at hrun
  · next heq =>
      cases heq
      cases hrun
      rw [Host.besides_releaseShmId, Host.besides_shmdt Prod.mk.eta.symm]
      exact hbes₂
  next bytes _ heq =>
  cases heq
  have hbes : ({ h₂ with calls := h₂.calls ++ [SysCall.memcpy] }.update id
      ({ · with bytes })).besides (some id) = h₁.besides (some id) :=
    (Host.besides_update (by simp) _ _).trans hbes₂
  split at hrun
  · next hdt =>
      cases hrun
      rw [Host.besides_releaseShmId, Host.besides_shmdt hdt, hbes]
  next h₄ hdt =>
  split at hrun
  · next hstat =>
      cases hrun
      rw [Host.besides_releaseShmId, Host.besides_shmStat hstat,
        Host.besides_shmdt hdt, hbes]
  next h₅ hstat =>
  split at hrun
  · next hset =>
      cases hrun
      rw [Host.besides_releaseShmId, Host.besides_shmSetUid hset,
        Host.besides_shmStat hstat, Host.besides_shmdt hdt, hbes]
  · next hset =>
      cases hrun
      rw [Host.besides_shmSetUid hset, Host.besides_shmStat hstat,
        Host.besides_shmdt hdt, hbes]

/-- Parcelling a payload adds at most the segment of its slot. -/
theorem Parcelled.besides (hserved : ∀ n, served n = true) {io io' : Io}
    {q items : List Item} {h h' : Host} {n : Nat} (hroom : h.Room (n + 1))
    {d : DataInfo} {slot : Option Int} {uid : UInt32}
    (hrun : parcelDataInfo ser served io h d uid = .ok (io', h'))
    (hp : Parcelled holds q h d n io' h' items slot) :
    h'.besides slot = h.segments := by
  cases hp.carries with
  | empty =>
      simp only [parcelDataInfo] at hrun
      cases hrun
      exact Host.besides_none
  | @inline bytes hpos hlt =>
      rw [parcelDataInfo_inline hpos hlt] at hrun
      cases hrun
      exact Host.besides_none
  | @shared bytes id key uid' hge hmax hseg hid =>
      rw [parcelDataInfo_shared hge] at hrun
      obtain ⟨a, h₁, hacq, hnew⟩ := acquireShmSegment_ok hserved hroom.key
        (by
          have := hroom.room
          simp only [shmKeyEnd, shmKeyStart]
          omega) bytes.length
      have hbes : h'.besides (some a) = h.segments :=
        (pushSharedMemory_besides hrun hacq).trans hnew.besides
      have hsame : id = a := by
        by_contra hne
        have := Host.seg_of_besides hbes hne
        rw [hseg, hp.fresh id rfl] at this
        cases this
      rw [hsame]
      exact hbes

/-- Whatever comes of it, the reader of a long payload touches the segment it
was given and no other, and leaves `g_shmKey` alone. -/
theorem popSharedMemory_besides {junk : Int32} {io : Io} {h : Host}
    {d : DataInfo} {r : UnParcelled Io DataInfo}
    (hrun : ipcIoPopSharedMemory ser served junk io h d = .ok r) {id : Int}
    (hid : id = ((ser.readInt32 io).1.getD junk).toInt) :
    r.host.besides (some id) = h.besides (some id) ∧
      r.host.shmKey = h.shmKey := by
  subst hid
  simp only [ipcIoPopSharedMemory] at hrun
  generalize ((ser.readInt32 io).1.getD junk).toInt = id at hrun ⊢
  split at hrun
  · cases hrun
    exact ⟨rfl, rfl⟩
  split at hrun
  · cases hrun
    exact ⟨Host.besides_releaseShmId, Host.releaseShmId_shmKey⟩
  split at hrun
  · next h₁ hat =>
      cases hrun
      exact ⟨Host.besides_releaseShmId.trans (Host.besides_shmat hat),
        Host.releaseShmId_shmKey.trans (Host.shmKey_of_run hat
          Host.shmat_shmKey)⟩
  next h₁ hat =>
  have hbes₁ : h₁.besides (some id) = h.besides (some id) :=
    Host.besides_shmat hat
  have hkey₁ : h₁.shmKey = h.shmKey :=
    Host.shmKey_of_run hat Host.shmat_shmKey
  have hend : ∀ {cs : List SysCall} {b : Bool} {h₂ : Host},
      ({ h₁ with calls := cs } : Host).shmdt served id = (b, h₂) →
      (releaseShmId served h₂ id).besides (some id) = h.besides (some id) ∧
        (releaseShmId served h₂ id).shmKey = h.shmKey := by
    intro cs b h₂ hdt
    refine ⟨?_, ?_⟩
    · rw [Host.besides_releaseShmId, Host.besides_shmdt hdt, ← hbes₁]
      rfl
    · rw [Host.releaseShmId_shmKey,
        Host.shmKey_of_run hdt Host.shmdt_shmKey, ← hkey₁]
  simp only [Host.call] at hrun
  cases hmalloc : served h₁.calls.length with
  | false =>
      rw [hmalloc] at hrun
      cases hrun
      exact hend Prod.mk.eta.symm
  | true =>
  rw [hmalloc] at hrun
  obtain ⟨⟨copied, h₂⟩, hcopy, hrun⟩ := Outcome.bind_eq_ok.mp hrun
  obtain rfl := copyBytes_host hcopy
  split at hrun
  · next heq =>
      cases heq
      cases hrun
      exact hend Prod.mk.eta.symm
  next bytes _ heq =>
  cases heq
  split at hrun
  · next hdt =>
      cases hrun
      exact hend hdt
  · next hdt =>
      cases hrun
      exact hend hdt

/-- The reader of a short payload touches no segment. -/
theorem popMemory_host {io : Io} {h : Host} {d : DataInfo}
    {r : UnParcelled Io DataInfo}
    (hrun : ipcIoPopMemory ser served io h d = .ok r) :
    r.host.segments = h.segments ∧ r.host.shmKey = h.shmKey := by
  simp only [ipcIoPopMemory, Host.call] at hrun
  split at hrun
  · cases hrun
    exact ⟨rfl, rfl⟩
  split at hrun
  · cases hrun
    exact ⟨rfl, rfl⟩
  cases hmalloc : served h.calls.length with
  | false =>
      rw [hmalloc] at hrun
      cases hrun
      exact ⟨rfl, rfl⟩
  | true =>
      rw [hmalloc] at hrun
      obtain ⟨⟨copied, h₁⟩, hcopy, hrun⟩ := Outcome.bind_eq_ok.mp hrun
      obtain rfl := copyBytes_host hcopy
      split at hrun
      · next heq =>
          cases heq
          cases hrun
          exact ⟨rfl, rfl⟩
      · next heq =>
          cases heq
          cases hrun
          exact ⟨rfl, rfl⟩

/-- With all calls served, the segment of a payload is gone once the payload
was read. -/
theorem unParcelDataInfo_gone (hserved : ∀ n, served n = true)
    (hser : ser.InOrder holds) {io : Io} {q items : List Item}
    (hq : holds io (items ++ q)) {h : Host} {d : DataInfo} {id : Int}
    (hc : Carries h d items (some id)) {junk : Int32} {d₀ : DataInfo}
    {r : UnParcelled Io DataInfo}
    (hrun : unParcelDataInfo ser served junk io h d₀ = .ok r) :
    r.host.seg id = none ∧ r.host.besides (some id) = h.besides (some id) ∧
      r.host.shmKey = h.shmKey := by
  cases hc with
  | @shared bytes id key uid hge hint hseg hid =>
  have hlen := toInt_ofInt (n := bytes.length) (by omega)
    (by simp only [intMax] at hint; omega)
  have hidlen := toInt_ofInt hid.1 hid.2
  obtain ⟨io₁, hread₁, hq₁⟩ := hser.readInt32 hq
  obtain ⟨io₂, hread₂, hq₂⟩ := hser.readInt32 hq₁
  obtain ⟨io₃, hread₃, hq₃⟩ := hser.readInt32 hq₂
  have hne : bytes ≠ [] := List.length_pos_iff.mp (by omega)
  have hrun' : ipcIoPopSharedMemory ser served junk io₁ h
      { d₀ with length := bytes.length } = .ok r :=
    (unParcelDataInfo_shared served hge hint hread₁ junk h d₀).symm.trans hrun
  refine ⟨?_, popSharedMemory_besides hrun' (by rw [hread₂]; exact hidlen.symm)⟩
  obtain ⟨h₁, hat, hsets₁, -⟩ := shmat_ok (hserved _) hseg
  have hsets₂ : h₁.Sets { h₁ with calls :=
      h₁.calls ++ [SysCall.malloc, SysCall.memcpy] } id
      (some ⟨id, some key, bytes, uid, 0 + 1⟩) :=
    ⟨hsets₁.seg, fun _ _ => rfl, Nat.le_refl _, rfl⟩
  have hcopy := copyBytes_ok
    (h := { h₁ with calls := h₁.calls ++ [SysCall.malloc] }) (hserved _)
    (List.replicate bytes.length 0) bytes (by omega) hint
    List.length_replicate
  obtain ⟨h₂, hdt, hsets₃, -⟩ := shmdt_ok (hserved _) hsets₂.seg (by simp)
  have hsets₄ := releaseShmId_ok (hserved _) hsets₃.seg rfl
    (show id ≠ -1 by omega)
  have hminus : ¬ id = -1 := by omega
  by_cases hlong : maxShmDataSize < (bytes.length : Int)
  · -- The length is refused, and the segment removed unread.
    have hsets := releaseShmId_ok (hserved _) hseg rfl hminus
    simp [ipcIoPopSharedMemory, hread₂, hread₃, hidlen, hlen, hminus, hlong]
      at hrun'
    rw [← hrun']
    exact hsets.seg
  · simp [ipcIoPopSharedMemory, hread₂, hread₃, hidlen, hlen, hminus, hlong,
      hne, hat, Host.call, hserved, hsets₁.seg, hcopy, hdt] at hrun'
    rw [← hrun']
    exact hsets₄.seg

/-- A payload that was read, or refused for its length, leaves the other
segments and nothing else. -/
theorem unParcelDataInfo_leaves (hserved : ∀ n, served n = true)
    (hser : ser.InOrder holds) {io : Io} {q items : List Item}
    (hq : holds io (items ++ q)) {h : Host} {d : DataInfo} {slot : Option Int}
    (hc : Carries h d items slot) {junk : Int32} {d₀ : DataInfo}
    {r : UnParcelled Io DataInfo}
    (hrun : unParcelDataInfo ser served junk io h d₀ = .ok r) :
    r.host.segments = h.besides slot ∧ r.host.shmKey = h.shmKey := by
  cases slot with
  | none =>
      rw [Host.besides_none]
      cases hc with
      | empty =>
          obtain ⟨io', hread, -⟩ := hser.readInt32 hq
          simp [unParcelDataInfo, hread] at hrun
          rw [← hrun]
          exact ⟨rfl, rfl⟩
      | @inline bytes hpos hlt =>
          obtain ⟨io₁, hread₁, -⟩ := hser.readInt32 hq
          rw [unParcelDataInfo_inline served hpos hlt hread₁] at hrun
          exact popMemory_host hrun
  | some id =>
      obtain ⟨hgone, hbes, hkey⟩ :=
        unParcelDataInfo_gone hserved hser hq hc hrun
      exact ⟨(Host.besides_of_seg hgone).symm.trans hbes, hkey⟩

end AiEngine.Ref
