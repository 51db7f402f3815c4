import AiEngine.Ref.Encdec

/-!
# What the encoder's buffer holds

Every parameter reaches the buffer as a sequence of `append`s of non-empty
byte strings, so one statement about `append` carries the whole encoder: it
adds its bytes to what the buffer holds, provided that the block it may have
to ask for has a size `size_t` can express. The request is twice the old
block plus the new bytes plus a header, which on a 32-bit `size_t` can
exceed the range long before the encoding reaches `INT_MAX`; the block that
comes back is then too small, and the copy leaves it.

`growthFits` follows the block sizes in exact arithmetic and says whether
some request exceeds the range. The run lemma below decides every encoding
by it: the buffer holds exactly the writes, or the run faults.
-/

namespace AiEngine.Ref

open AiEngine.Lib

/-- Every allocation request of a run is served. -/
def HeapServes (heap : Nat → Bool) : Prop := ∀ n, heap n = true

/-! ## The copy

`memcpy_s` has a limit, so that the source copies in chunks with a remainder
at the end. Put together they are one copy. -/

theorem chunkSize_ok : memcpyOk chunkSize chunkSize = true :=
  memcpyOk_self (by decide) (by decide)

/-- No remainder is too large for `memcpy_s`. -/
theorem remainder_ok {leftSize : Nat} (hpos : 0 < leftSize)
    (hlt : ¬ chunkSize ≤ leftSize) : memcpyOk leftSize leftSize = true := by
  apply memcpyOk_self hpos
  simp only [chunkSize, intMax] at *
  omega

/-- The chunked copy moves the rest of the source, whatever multiple of the
chunk size it is. -/
theorem copyChunks_ok (src dest : List UInt8) {off leftSize : Nat}
    (hsrc : off + leftSize ≤ src.length)
    (hdest : off + leftSize ≤ dest.length) :
    ∃ dest', copyChunks src dest off leftSize = .ok dest' ∧
      dest'.length = dest.length ∧
      dest'.take (off + leftSize) =
        dest.take off ++ (src.drop off).take leftSize := by
  fun_induction copyChunks src dest off leftSize with
  | case1 dest off leftSize hge ih =>
      obtain ⟨mid, hmid, hlen, htake⟩ := memcpyS_ok dest src
        chunkSize_ok (show off + chunkSize ≤ src.length by omega)
        (show off + chunkSize ≤ dest.length by omega)
      obtain ⟨dest', hrun, hlen', htake'⟩ :=
        ih mid (by omega) (by omega)
      refine ⟨dest', by rw [hmid, Outcome.ok_bind, hrun], by omega, ?_⟩
      -- One chunk, then the rest: the two pieces are adjacent in the source.
      have hsplit : off + leftSize = off + chunkSize + (leftSize - chunkSize) :=
        by omega
      have hpiece : (src.drop off).take leftSize
          = (src.drop off).take chunkSize ++
            (src.drop (off + chunkSize)).take (leftSize - chunkSize) := by
        rw [← List.drop_drop, ← List.take_add, Nat.add_sub_cancel' hge]
      rw [hsplit, htake', htake, hpiece, List.append_assoc]
  | case2 dest off leftSize hlt hpos =>
      exact memcpyS_ok dest src (remainder_ok hpos hlt) hsrc hdest
  | case3 dest off leftSize hlt hzero =>
      have : leftSize = 0 := by omega
      subst this
      exact ⟨dest, rfl, rfl, by simp⟩

/-- Into a block too short for it the chunked copy runs out of the block. -/
theorem copyChunks_fault {src dest : List UInt8} {off leftSize : Nat}
    (hsrc : off + leftSize ≤ src.length)
    (hdest : dest.length < off + leftSize) (hoff : off ≤ dest.length) :
    copyChunks src dest off leftSize = .fault := by
  fun_induction copyChunks src dest off leftSize with
  | case1 dest off leftSize hge ih =>
      by_cases hfit : off + chunkSize ≤ dest.length
      · obtain ⟨mid, hmid, hlen, -⟩ := memcpyS_ok dest src
          chunkSize_ok (show off + chunkSize ≤ src.length by omega) hfit
        rw [hmid, Outcome.ok_bind]
        exact ih mid (by omega) (by omega) (by omega)
      · rw [memcpyS_fault chunkSize_ok (by omega) (by omega),
          Outcome.fault_bind]
  | case2 dest off leftSize hlt hpos =>
      exact memcpyS_fault (remainder_ok hpos hlt) hsrc hdest
  | case3 dest off leftSize hlt hzero => omega

/-! ## One append

An append makes room if there is not enough, and copies its bytes behind what
is there. The room it makes is computed in `size_t`. -/

/-- The encoder holds `out` in a block of `cap` bytes. -/
structure DataEncoder.Holds (e : DataEncoder) (cap : Nat)
    (out : List UInt8) : Prop where
  block : ∃ b, e.buffer = some b ∧ b.blockSize = cap ∧
    b.data.length = cap ∧ b.data.take out.length = out
  pos : e.pos = out.length
  le : out.length ≤ cap
  live : e.allocSuccess = true

theorem holds_init {a : Abi} {heap : Nat → Bool} (hheap : HeapServes heap) :
    ∃ e, DataEncoder.init a heap = .ok e ∧ e.Holds initBufferSize [] := by
  have hsize : a.sizeT (initBufferSize + a.wordSize)
      = initBufferSize + a.wordSize := by
    apply Abi.sizeT_small
    have := a.wordSize_le
    simp only [initBufferSize]
    omega
  refine ⟨⟨some ⟨initBufferSize, List.replicate initBufferSize 0⟩, 0, true, 1⟩,
    ?_, ⟨⟨_, rfl, rfl, by simp, by simp⟩, rfl, by simp, rfl⟩⟩
  simp [DataEncoder.init, allocateMemBlock, hsize, hheap 0]

/-- The block a growth asks for is one `size_t` can express. -/
abbrev blockFits (a : Abi) (cap n : Nat) : Prop :=
  2 * cap + n + a.wordSize < a.sizeMod

theorem allocateMemBlock_fits {a : Abi} {heap : Nat → Bool}
    (hheap : HeapServes heap) {n cap inc : Nat} (hfit : blockFits a cap inc) :
    allocateMemBlock a heap n
        (a.sizeT (cap * buffExtensionFactor + inc)) =
      .ok (some ⟨2 * cap + inc, List.replicate (2 * cap + inc) 0⟩) := by
  have hexact : a.sizeT (cap * buffExtensionFactor + inc) = 2 * cap + inc := by
    simp only [buffExtensionFactor]
    rw [Abi.sizeT_of_lt (by omega)]
    omega
  rw [allocateMemBlock, hexact, Abi.sizeT_of_lt hfit]
  simp [hheap n]

/-- A request that exceeds the range comes back as a block that cannot even
take the new bytes, or not its own header. -/
theorem allocateMemBlock_wraps {a : Abi} {heap : Nat → Bool}
    (hheap : HeapServes heap) {n cap inc : Nat} (hcap : cap < intMax)
    (hinc : inc ≤ intMax) (hwrap : ¬ blockFits a cap inc) :
    allocateMemBlock a heap n
        (a.sizeT (cap * buffExtensionFactor + inc)) = .fault ∨
    ∃ sz, sz < inc ∧ allocateMemBlock a heap n
        (a.sizeT (cap * buffExtensionFactor + inc)) =
      .ok (some ⟨sz, List.replicate sz 0⟩) := by
  -- Twice a block below `INT_MAX` and an increment below it never exceed a
  -- 64-bit range, and exceed a 32-bit one at most once.
  simp only [intMax] at hcap hinc
  cases a with
  | lp64 =>
      simp only [blockFits, Abi.sizeMod, Abi.wordSize] at hwrap
      omega
  | ilp32 =>
      simp only [blockFits, Abi.sizeMod, Abi.wordSize] at hwrap
      by_cases hheader : 4294967296 ≤ 2 * cap + inc
      · have hsz : Abi.ilp32.sizeT (cap * buffExtensionFactor + inc)
            = 2 * cap + inc - 4294967296 := by
          simp only [Abi.sizeT, Abi.sizeMod, Abi.wordSize, buffExtensionFactor]
          omega
        refine .inr ⟨2 * cap + inc - 4294967296, by omega, ?_⟩
        rw [allocateMemBlock, hsz, Abi.sizeT_small (by
          simp only [Abi.wordSize]
          omega)]
        simp [hheap n]
      · left
        have hsz : Abi.ilp32.sizeT (cap * buffExtensionFactor + inc)
            = 2 * cap + inc := by
          simp only [Abi.sizeT, Abi.sizeMod, Abi.wordSize, buffExtensionFactor]
          omega
        have hshort : Abi.ilp32.sizeT (2 * cap + inc + Abi.ilp32.wordSize) <
            Abi.ilp32.wordSize := by
          simp only [Abi.sizeT, Abi.sizeMod, Abi.wordSize]
          omega
        rw [allocateMemBlock, hsz]
        simp [hheap n, hshort]

/-- The block size after `n` more bytes. -/
def grownCap (cap pos n : Nat) : Nat :=
  if pos + n ≤ cap then cap else 2 * cap + n

section Append

variable {a : Abi} {heap : Nat → Bool}

theorem ensure_ok (hheap : HeapServes heap) {e : DataEncoder} {cap : Nat}
    {out : List UInt8} (he : e.Holds cap out) {n : Nat}
    (hmax : out.length + n ≤ intMax)
    (hfit : out.length + n ≤ cap ∨ blockFits a cap n) :
    ∃ e', e.ensure a heap n = .ok e' ∧
      e'.Holds (grownCap cap out.length n) out ∧
      out.length + n ≤ grownCap cap out.length n := by
  obtain ⟨b, hb, hbs, hlen, htake⟩ := he.block
  have hpos : a.sizeT (e.pos + n) = out.length + n := by
    rw [he.pos]
    apply Abi.sizeT_small
    simp only [intMax] at hmax
    omega
  by_cases hroom : out.length + n ≤ cap
  · refine ⟨e, ?_, ?_, ?_⟩
    · simp [DataEncoder.ensure, hb, hpos, hbs, hroom]
    · rw [grownCap, if_pos hroom]
      exact he
    · rw [grownCap, if_pos hroom]
      exact hroom
  · have hfit : blockFits a cap n := hfit.resolve_left hroom
    have hle := he.le
    have hp := he.pos
    have hsrc : 0 + e.pos ≤ b.data.length := by omega
    obtain ⟨data, hcopy, hdlen, hdtake⟩ := copyChunks_ok b.data
      (List.replicate (2 * cap + n) 0) hsrc (by simp; omega)
    refine ⟨{ e with buffer := some ⟨2 * cap + n, data⟩
                     allocs := e.allocs + 1 }, ?_, ?_, ?_⟩
    · simp [DataEncoder.ensure, hb, hpos, hbs, hroom,
        DataEncoder.reallocBuffer, he.live, allocateMemBlock_fits hheap hfit,
        hcopy]
    · rw [grownCap, if_neg hroom]
      refine ⟨⟨_, rfl, rfl, by simpa using hdlen, ?_⟩, he.pos, ?_, he.live⟩
      · simp only [hp, Nat.zero_add, List.take_zero, List.nil_append,
          List.drop_zero, htake] at hdtake
        exact hdtake
      · omega
    · rw [grownCap, if_neg hroom]
      omega

/-- `append` adds its bytes to what the buffer holds. -/
theorem append_ok (hheap : HeapServes heap) {e : DataEncoder} {cap : Nat}
    {out bs : List UInt8} (he : e.Holds cap out) (hne : bs ≠ [])
    (hmax : out.length + bs.length ≤ intMax)
    (hfit : out.length + bs.length ≤ cap ∨ blockFits a cap bs.length) :
    ∃ e', e.append a heap bs = .ok e' ∧
      e'.Holds (grownCap cap out.length bs.length) (out ++ bs) := by
  obtain ⟨e₁, hens, he₁, hroom⟩ := ensure_ok hheap he hmax hfit
  obtain ⟨b, hb, hbs, hlen, htake⟩ := he₁.block
  have hp := he₁.pos
  have hcount : memcpyOk bs.length bs.length = true :=
    memcpyOk_self (List.length_pos_iff.mpr hne) (by omega)
  obtain ⟨data, hcopy, hdlen, hdtake⟩ := memcpyS_ok b.data bs hcount
    (show 0 + bs.length ≤ bs.length by omega)
    (show e₁.pos + bs.length ≤ b.data.length by omega)
  have hadv : a.sizeT (e₁.pos + bs.length) = out.length + bs.length := by
    rw [hp]
    apply Abi.sizeT_small
    simp only [intMax] at hmax
    omega
  refine ⟨{ e₁ with buffer := some { b with data }
                    pos := out.length + bs.length }, ?_, ?_⟩
  · simp [DataEncoder.append, hens, hb, hcopy, hadv]
  · refine ⟨⟨_, rfl, hbs, hdlen.trans hlen, ?_⟩, by simp,
      by simpa using hroom, he₁.live⟩
    simp only [hp, htake, List.drop_zero, List.take_length] at hdtake
    simpa using hdtake

/-- An `append` whose block request exceeds the range leaves the block. -/
theorem append_fault (hheap : HeapServes heap) {e : DataEncoder} {cap : Nat}
    {out bs : List UInt8} (he : e.Holds cap out) (hne : bs ≠ [])
    (hmax : out.length + bs.length ≤ intMax)
    (hroom : cap < out.length + bs.length)
    (hwrap : ¬ blockFits a cap bs.length) :
    e.append a heap bs = .fault := by
  obtain ⟨b, hb, hbs, hlen, htake⟩ := he.block
  have hle := he.le
  have hp := he.pos
  have hbpos : 0 < bs.length := List.length_pos_iff.mpr hne
  have hpos : a.sizeT (e.pos + bs.length) = out.length + bs.length := by
    rw [hp]
    apply Abi.sizeT_small
    simp only [intMax] at hmax
    omega
  have hnoroom : ¬ out.length + bs.length ≤ cap := by omega
  rcases allocateMemBlock_wraps (n := e.allocs) hheap
      (show cap < intMax by omega) (by omega) hwrap with hall | ⟨sz, hsz, hall⟩
  · simp [DataEncoder.append, DataEncoder.ensure, hb, hpos, hbs, hnoroom,
      DataEncoder.reallocBuffer, he.live, hall, Outcome.mapFail]
  · by_cases hcopyfit : e.pos ≤ sz
    · -- The old bytes still fit, the new ones do not.
      have hsrc : 0 + e.pos ≤ b.data.length := by omega
      obtain ⟨data, hcopy, hdlen, -⟩ := copyChunks_ok b.data
        (List.replicate sz 0) hsrc (by simp; omega)
      have hcount : memcpyOk bs.length bs.length = true :=
        memcpyOk_self hbpos (by omega)
      have hlast : memcpyS data e.pos bs.length bs 0 bs.length = .fault := by
        apply memcpyS_fault hcount (by omega)
        rw [hdlen, List.length_replicate]
        omega
      simp [DataEncoder.append, DataEncoder.ensure, hb, hpos, hbs, hnoroom,
        DataEncoder.reallocBuffer, he.live, hall, hcopy, hlast,
        Outcome.mapFail]
    · have hcopy : copyChunks b.data (List.replicate sz 0) 0 e.pos
          = .fault := by
        apply copyChunks_fault (by omega) _ (by omega)
        rw [List.length_replicate]
        omega
      simp [DataEncoder.append, DataEncoder.ensure, hb, hpos, hbs, hnoroom,
        DataEncoder.reallocBuffer, he.live, hall, hcopy, Outcome.mapFail]

/-- The appends of a run, one after the other. -/
def DataEncoder.appendAll (a : Abi) (heap : Nat → Bool) (e : DataEncoder) :
    List (List UInt8) → Outcome Int DataEncoder
  | [] => .ok e
  | bs :: rest => do
      let e ← e.append a heap bs
      appendAll a heap e rest

theorem appendAll_append (e : DataEncoder) (ws₁ ws₂ : List (List UInt8)) :
    e.appendAll a heap (ws₁ ++ ws₂) =
      (e.appendAll a heap ws₁ >>= fun e => e.appendAll a heap ws₂) := by
  induction ws₁ generalizing e with
  | nil => rfl
  | cons bs ws₁ ih =>
      simp only [List.cons_append, DataEncoder.appendAll]
      cases e.append a heap bs with
      | ok e' => simp only [Outcome.ok_bind, ih]
      | fail c => rfl
      | fault => rfl

end Append

/-- Whether every block a run of appends of these sizes asks for is one
`size_t` can express, in exact arithmetic: `cap` is the block size so far and
`pos` the bytes it holds. -/
def growthFits (a : Abi) : (cap pos : Nat) → List Nat → Bool
  | _, _, [] => true
  | cap, pos, n :: ns =>
      (decide (pos + n ≤ cap) || decide (blockFits a cap n)) &&
        growthFits a (grownCap cap pos n) (pos + n) ns

/-- The block size after a run of appends of these sizes. -/
def grownAll : (cap pos : Nat) → List Nat → Nat
  | cap, _, [] => cap
  | cap, pos, n :: ns => grownAll (grownCap cap pos n) (pos + n) ns

theorem growthFits_append {a : Abi} {cap pos : Nat} {ns ms : List Nat} :
    growthFits a cap pos (ns ++ ms) = (growthFits a cap pos ns &&
      growthFits a (grownAll cap pos ns) (pos + ns.sum) ms) := by
  induction ns generalizing cap pos with
  | nil => simp [growthFits, grownAll]
  | cons n ns ih =>
      simp only [List.cons_append, growthFits, ih, grownAll, List.sum_cons,
        Bool.and_assoc, Nat.add_assoc]

/-- On a 64-bit `size_t` every block of a legal encoding fits. -/
theorem growthFits_lp64 {cap pos : Nat} {sizes : List Nat}
    (hcap : cap ≤ 2 ^ 32 + intMax) (hmax : pos + sizes.sum ≤ intMax) :
    growthFits .lp64 cap pos sizes = true := by
  induction sizes generalizing cap pos with
  | nil => rfl
  | cons n ns ih =>
      simp only [List.sum_cons, intMax] at hmax hcap
      have hgrown : grownCap cap pos n ≤ 2 ^ 32 + intMax := by
        simp only [grownCap, intMax]
        split <;> omega
      have hrest := ih hgrown (show pos + n + ns.sum ≤ intMax by
        simp only [intMax]
        omega)
      have hhere : blockFits .lp64 cap n := by
        simp only [blockFits, Abi.sizeMod, Abi.wordSize]
        omega
      simp [growthFits, hrest, hhere]

/-- The growths of an encoding small enough fit whatever the width of
`size_t`: a block that has to grow is smaller than the encoding, and at most
doubles. -/
theorem growthFits_small {a : Abi} {cap pos : Nat} {sizes : List Nat}
    (hmax : 3 * (pos + sizes.sum) + 8 < 4294967296) :
    growthFits a cap pos sizes = true := by
  induction sizes generalizing cap pos with
  | nil => rfl
  | cons n ns ih =>
      have hmod := a.sizeMod_ge
      have hword := a.wordSize_le
      simp only [List.sum_cons] at hmax
      have hrest : growthFits a (grownCap cap pos n) (pos + n) ns = true :=
        ih (by omega)
      have hhere : pos + n ≤ cap ∨ blockFits a cap n := by
        simp only [blockFits]
        omega
      simp [growthFits, hrest, hhere]

section Run

variable {a : Abi} {heap : Nat → Bool}

/-- A run of appends whose blocks fit leaves all of its bytes, in order, in
the buffer. -/
theorem appendAll_ok (hheap : HeapServes heap) {e : DataEncoder} {cap : Nat}
    {out : List UInt8} (he : e.Holds cap out) {ws : List (List UInt8)}
    (hne : ∀ bs ∈ ws, bs ≠ [])
    (hmax : out.length + ws.flatten.length ≤ intMax)
    (hfit : growthFits a cap out.length (ws.map List.length) = true) :
    ∃ e', e.appendAll a heap ws = .ok e' ∧
      e'.Holds (grownAll cap out.length (ws.map List.length))
        (out ++ ws.flatten) := by
  induction ws generalizing e cap out with
  | nil => exact ⟨e, rfl, by simpa [grownAll] using he⟩
  | cons bs ws ih =>
      simp only [List.flatten_cons, List.length_append] at hmax
      simp only [List.map_cons, growthFits, Bool.and_eq_true,
        Bool.or_eq_true, decide_eq_true_eq] at hfit
      obtain ⟨e₁, happ, he₁⟩ := append_ok hheap he (hne bs (by simp))
        (by omega) hfit.1
      obtain ⟨e', hrun, he'⟩ := ih he₁
        (fun w hw => hne w (by simp [hw]))
        (by rw [List.length_append]; omega)
        (by rw [List.length_append]; exact hfit.2)
      refine ⟨e', ?_, ?_⟩
      · rw [DataEncoder.appendAll, happ, Outcome.ok_bind, hrun]
      · simpa [grownAll] using he'

theorem appendAll_fault (hheap : HeapServes heap) {e : DataEncoder}
    {cap : Nat} {out : List UInt8} (he : e.Holds cap out)
    {ws : List (List UInt8)} (hne : ∀ bs ∈ ws, bs ≠ [])
    (hmax : out.length + ws.flatten.length ≤ intMax)
    (hfit : growthFits a cap out.length (ws.map List.length) = false) :
    e.appendAll a heap ws = .fault := by
  induction ws generalizing e cap out with
  | nil => cases hfit
  | cons bs ws ih =>
      simp only [List.flatten_cons, List.length_append] at hmax
      by_cases hhere :
          out.length + bs.length ≤ cap ∨ blockFits a cap bs.length
      · obtain ⟨e₁, happ, he₁⟩ := append_ok hheap he (hne bs (by simp))
          (by omega) hhere
        have hrest : growthFits a (grownCap cap out.length bs.length)
            (out.length + bs.length) (ws.map List.length) = false := by
          simpa [growthFits, hhere] using hfit
        rw [DataEncoder.appendAll, happ, Outcome.ok_bind]
        exact ih he₁ (fun w hw => hne w (by simp [hw]))
          (by rw [List.length_append]; omega)
          (by rw [List.length_append]; exact hrest)
      · rw [not_or, Nat.not_le] at hhere
        rw [DataEncoder.appendAll, append_fault hheap he (hne bs (by simp))
          (by omega) hhere.1 hhere.2, Outcome.fault_bind]

end Run

end AiEngine.Ref
