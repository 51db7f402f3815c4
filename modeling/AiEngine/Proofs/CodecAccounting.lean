import AiEngine.Ref.AudioWrapper

/-!
# What becomes of the codec's handles

A coder keeps the handle it created until it is stopped, and it is stopped
only to be deleted. So what becomes of a handle is decided in one place, by
the `Stop` before the deletion: a coder that was started gives its handle to
`CodecDestroy` or reports that it could not, a coder that was configured and
never started is deleted with its handle and nothing is reported.

The codec as a whole is shut down when the last coder goes, if the mode of
that moment asks for codecs. The mode may have been another one when the codec
was set up, and then it is not.
-/

namespace AiEngine.Ref

open AiEngine.Lib

/-- One more event: a `CodecInit` begins a new entry, a `CodecDeinit` counts
for the last one. -/
def layerStep : List (Int × Nat) → CodecEvent → List (Int × Nat)
  | layers, .codecInit retCode => (retCode, 0) :: layers
  | (retCode, n) :: layers, .codecDeinit => (retCode, n + 1) :: layers
  | layers, _ => layers

/-- The `CodecInit` calls of a record, the last one first: what each answered,
and how often `CodecDeinit` was called before the next one. -/
def layers (events : List CodecEvent) : List (Int × Nat) :=
  events.foldl layerStep []

theorem layers_append (events more : List CodecEvent) :
    layers (events ++ more) = more.foldl layerStep (layers events) :=
  List.foldl_append

/-- Every codec layer that was set up was shut down, once. -/
def ShutDown (layers : List (Int × Nat)) : Prop :=
  ∀ layer ∈ layers, layer.1 = AudioRetCode.success → layer.2 = 1

namespace AudioWrapper

/-- The handles of the coders that were stopped are destroyed, and where no
coders were left, the codec is shut down. -/
structure Balanced (w : AudioWrapper) : Prop where
  destroyed : ∀ coder handle, .codecCreate coder handle ∈ w.events →
    .removed coder AudioRetCode.success ∈ w.events →
    .codecDestroy handle ∈ w.events
  shutDown : w.events.getLast? = some .emptied → ShutDown (layers w.events)

/-- A coder that `Stop` does not pass over: it has no handle, or it was
started. -/
def Stoppable (c : DecoderWrapper) : Prop :=
  c.codeHandle = none ∨ c.started = true

/-- A codec layer that is set up is one the mode asks for. -/
def ModeAsks (w : AudioWrapper) : Prop :=
  (∃ layer ∈ layers w.events, layer = (AudioRetCode.success, 0)) →
    w.needCodec = true

/-- The condition on a call: what it deletes can be stopped, and if that
leaves no coders, the mode asks for the codec that is set up. -/
def Settles (w : AudioWrapper) : Call → Prop
  | .deinit handler _ => ∀ c, w.coders.lookup handler = some c →
      Stoppable c ∧ (w.coders.erase handler = ∅ → w.ModeAsks)
  | .release _ _ => (∀ handler c, w.coders.lookup handler = some c →
      Stoppable c) ∧ w.ModeAsks
  | _ => True

/-- Every layer but the last is shut down, and the last one is unless
`hasInitCodec_` says that it is not. -/
def Layered (hasInitCodec : Bool) (layers : List (Int × Nat)) : Prop :=
  if hasInitCodec then
    ∃ retCode rest, layers = (retCode, 0) :: rest ∧ ∀ layer ∈ rest, layer.2 = 1
  else ∀ layer ∈ layers, layer.2 = 1

/-- How the coders and the record belong together. -/
structure Accounted (w : AudioWrapper) : Prop where
  coder_lt : ∀ handler c, w.coders.lookup handler = some c →
    c.coder < w.coderCount
  distinct : ∀ handler handler' c c', w.coders.lookup handler = some c →
    w.coders.lookup handler' = some c' → c.coder = c'.coder →
    handler = handler'
  live : ∀ handler c, w.coders.lookup handler = some c →
    ∀ retCode, .removed c.coder retCode ∉ w.events
  created_lt : ∀ coder handle, .codecCreate coder handle ∈ w.events →
    coder < w.coderCount
  removed_lt : ∀ coder retCode, .removed coder retCode ∈ w.events →
    coder < w.coderCount
  held : ∀ coder handle, .codecCreate coder handle ∈ w.events →
    ∀ handler c, w.coders.lookup handler = some c → c.coder = coder →
    c.codeHandle = some handle
  destroyed : ∀ coder handle, .codecCreate coder handle ∈ w.events →
    .removed coder AudioRetCode.success ∈ w.events →
    .codecDestroy handle ∈ w.events
  layered : Layered w.hasInitCodec (layers w.events)

theorem new_accounted : new.Accounted where
  coder_lt _ _ h := nomatch h
  distinct _ _ _ _ h := nomatch h
  live _ _ h := nomatch h
  created_lt _ _ h := nomatch h
  removed_lt _ _ h := nomatch h
  held _ _ h := nomatch h
  destroyed _ _ h := nomatch h
  layered _ h := nomatch h

section Removal

variable {c : DecoderWrapper} {codecStop : Int}

theorem mem_removal {e : CodecEvent} : e ∈ c.removal codecStop ↔
    (∃ handle ∈ (c.stop codecStop).2, .codecDestroy handle = e) ∨
      e = .removed c.coder (c.stop codecStop).1 := by
  rw [DecoderWrapper.removal, List.mem_append, List.mem_singleton,
    Option.mem_toList, Option.map_eq_some_iff]
  rfl

/-- A `Stop` that succeeds on a coder that was started gives its handle
away. -/
theorem stop_gives {handle : Nat} (hhandle : c.codeHandle = some handle)
    (hstarted : c.started = true)
    (hok : (c.stop codecStop).1 = AudioRetCode.success) :
    (c.stop codecStop).2 = some handle := by
  simp only [DecoderWrapper.stop, hstarted, hhandle, Bool.not_true,
    Bool.false_eq_true, if_false] at hok ⊢
  split at hok
  · exact absurd hok (by decide)
  · next hstop => rw [if_neg hstop]

theorem layers_removal (events : List CodecEvent) :
    layers (events ++ c.removal codecStop) = layers events := by
  rw [layers_append, DecoderWrapper.removal]
  cases (c.stop codecStop).2 <;> cases layers events <;> rfl

end Removal

variable {w : AudioWrapper}

/-- A coder that can be stopped, or is not there, can be removed. -/
theorem Accounted.removeCoder (h : w.Accounted) {handler codecStop : Int}
    (hok : ∀ c, w.coders.lookup handler = some c → Stoppable c) :
    (w.removeCoder handler codecStop).Accounted := by
  rw [AudioWrapper.removeCoder]
  cases hlookup : w.coders.lookup handler with
  | none => exact h
  | some c =>
      have hkept {handler' : Int} {c' : DecoderWrapper}
          (h' : (w.coders.erase handler).lookup handler' = some c') :
          handler' ≠ handler ∧ w.coders.lookup handler' = some c' := by
        rw [Table.lookup_erase_if] at h'
        split at h'
        · cases h'
        · next hne => exact ⟨hne, h'⟩
      have hcreated {coder handle : Nat}
          (he : .codecCreate coder handle ∈ w.events ++ c.removal codecStop) :
          .codecCreate coder handle ∈ w.events := by
        rcases List.mem_append.mp he with he | he
        · exact he
        · rcases mem_removal.mp he with ⟨_, _, he⟩ | he <;> cases he
      have hremoved {coder : Nat} {retCode : Int}
          (he : .removed coder retCode ∈ w.events ++ c.removal codecStop) :
          .removed coder retCode ∈ w.events ∨
            coder = c.coder ∧ retCode = (c.stop codecStop).1 := by
        rcases List.mem_append.mp he with he | he
        · exact .inl he
        · rcases mem_removal.mp he with ⟨_, _, he⟩ | he
          · cases he
          · cases he
            exact .inr ⟨rfl, rfl⟩
      refine ⟨?_, ?_, ?_, ?_, ?_, ?_, ?_, ?_⟩
      · exact fun _ _ h' => h.coder_lt _ _ (hkept h').2
      · exact fun _ _ _ _ h₁ h₂ => h.distinct _ _ _ _ (hkept h₁).2 (hkept h₂).2
      · intro handler' c' h' retCode he
        rcases hremoved he with he | ⟨heq, -⟩
        · exact h.live _ _ (hkept h').2 retCode he
        · exact (hkept h').1 (h.distinct _ _ _ _ (hkept h').2 hlookup heq)
      · exact fun _ _ he => h.created_lt _ _ (hcreated he)
      · intro coder retCode he
        rcases hremoved he with he | ⟨rfl, -⟩
        · exact h.removed_lt _ _ he
        · exact h.coder_lt _ _ hlookup
      · exact fun _ _ he _ _ h' => h.held _ _ (hcreated he) _ _ (hkept h').2
      · intro coder handle hc hr
        rcases hremoved hr with hr | ⟨rfl, hsuccess⟩
        · exact List.mem_append_left _ (h.destroyed _ _ (hcreated hc) hr)
        · have hhandle := h.held _ _ (hcreated hc) _ _ hlookup rfl
          have hstarted : c.started = true := by
            rcases hok c hlookup with hnone | hstarted
            · rw [hnone] at hhandle
              cases hhandle
            · exact hstarted
          refine List.mem_append_right _ (mem_removal.mpr (.inl ⟨handle, ?_, rfl⟩))
          exact stop_gives hhandle hstarted hsuccess.symm
      · show Layered w.hasInitCodec (layers (w.events ++ c.removal codecStop))
        rw [layers_removal]
        exact h.layered

/-! ## The other calls

These calls delete no coder: they record what the codec library was asked to
do, or open one codec for one coder. -/

/-- An event that is about neither a handle nor a coder. -/
def Silent (e : CodecEvent) : Prop :=
  (∀ coder handle, e ≠ .codecCreate coder handle) ∧
    ∀ coder retCode, e ≠ .removed coder retCode

theorem Accounted.record (h : w.Accounted) {e : CodecEvent} (he : Silent e)
    {hasInitCodec : Bool}
    (hlayered : Layered hasInitCodec (layerStep (layers w.events) e)) :
    { w with hasInitCodec, events := w.events ++ [e] }.Accounted := by
  have hcreated {coder handle : Nat}
      (hmem : .codecCreate coder handle ∈ w.events ++ [e]) :
      .codecCreate coder handle ∈ w.events := by
    rcases List.mem_append.mp hmem with hmem | hmem
    · exact hmem
    · exact absurd (List.mem_singleton.mp hmem).symm (he.1 _ _)
  have hremoved {coder : Nat} {retCode : Int}
      (hmem : .removed coder retCode ∈ w.events ++ [e]) :
      .removed coder retCode ∈ w.events := by
    rcases List.mem_append.mp hmem with hmem | hmem
    · exact hmem
    · exact absurd (List.mem_singleton.mp hmem).symm (he.2 _ _)
  refine ⟨h.coder_lt, h.distinct, ?_, ?_, ?_, ?_, ?_, ?_⟩
  · exact fun _ _ h' _ hmem => h.live _ _ h' _ (hremoved hmem)
  · exact fun _ _ hmem => h.created_lt _ _ (hcreated hmem)
  · exact fun _ _ hmem => h.removed_lt _ _ (hremoved hmem)
  · exact fun _ _ hmem => h.held _ _ (hcreated hmem)
  · exact fun _ _ hc hr => List.mem_append_left _
      (h.destroyed _ _ (hcreated hc) (hremoved hr))
  · show Layered hasInitCodec (layers (w.events ++ [e]))
    rw [layers_append]
    exact hlayered

theorem Accounted.codecInit (h : w.Accounted) (retCode : Int) :
    (w.codecInit retCode).Accounted := by
  rw [AudioWrapper.codecInit]
  split
  · next hinit =>
      refine h.record (e := .codecInit retCode) ⟨nofun, nofun⟩ ?_
      have hlayered := h.layered
      have hno : w.hasInitCodec = false := by
        simpa using (Bool.and_eq_true_iff.mp hinit).2
      rw [hno] at hlayered
      exact ⟨retCode, layers w.events, rfl, hlayered⟩
  · exact h

theorem Accounted.initAudioDecoder (h : w.Accounted) (handler : Int)
    {converter : Option Int} (hnew : ∀ address ∈ converter,
      address ∉ w.coders) :
    (w.initAudioDecoder handler converter).2.Accounted := by
  cases converter with
  | none => exact h
  | some address =>
      have hfresh := hnew address rfl
      have hcoders : w.coders.insertNew address ⟨w.coderCount, none, false⟩ =
          w.coders.insert address ⟨w.coderCount, none, false⟩ := if_neg hfresh
      have hcases {handler : Int} {c : DecoderWrapper}
          (h' : (w.coders.insertNew address
            ⟨w.coderCount, none, false⟩).lookup handler = some c) :
          handler = address ∧ c = ⟨w.coderCount, none, false⟩ ∨
            w.coders.lookup handler = some c := by
        rw [hcoders, Table.lookup_insert_if] at h'
        split at h'
        · next heq => exact .inl ⟨heq, (Option.some.inj h').symm⟩
        · exact .inr h'
      refine ⟨?_, ?_, ?_, ?_, ?_, ?_, h.destroyed, h.layered⟩
      · intro handler c h'
        rcases hcases h' with ⟨-, rfl⟩ | h'
        · exact Nat.lt_succ_self _
        · exact Nat.lt_succ_of_lt (h.coder_lt _ _ h')
      · intro handler₁ handler₂ c₁ c₂ h₁ h₂ heq
        rcases hcases h₁ with ⟨ha₁, hc₁⟩ | hold₁ <;>
          rcases hcases h₂ with ⟨ha₂, hc₂⟩ | hold₂
        · exact ha₁.trans ha₂.symm
        · rw [hc₁] at heq
          exact absurd heq (Nat.ne_of_gt (h.coder_lt _ _ hold₂))
        · rw [hc₂] at heq
          exact absurd heq (Nat.ne_of_lt (h.coder_lt _ _ hold₁))
        · exact h.distinct _ _ _ _ hold₁ hold₂ heq
      · intro handler c h' retCode hmem
        rcases hcases h' with ⟨-, rfl⟩ | h'
        · exact absurd (h.removed_lt _ _ hmem) (Nat.lt_irrefl _)
        · exact h.live _ _ h' _ hmem
      · exact fun _ _ hmem => Nat.lt_succ_of_lt (h.created_lt _ _ hmem)
      · exact fun _ _ hmem => Nat.lt_succ_of_lt (h.removed_lt _ _ hmem)
      · intro coder handle hmem handler c h' heq
        rcases hcases h' with ⟨-, rfl⟩ | h'
        · exact absurd heq (Nat.ne_of_gt (h.created_lt _ _ hmem))
        · exact h.held _ _ hmem _ _ h' heq

theorem codecCreate_of_mem {events : List CodecEvent} {created : Option Nat}
    {coder₀ coder handle : Nat} (he : .codecCreate coder handle ∈
      events ++ (created.map (CodecEvent.codecCreate coder₀)).toList) :
    .codecCreate coder handle ∈ events ∨
      coder = coder₀ ∧ created = some handle := by
  rcases List.mem_append.mp he with he | he
  · exact .inl he
  · rw [Option.mem_toList, Option.map_eq_some_iff] at he
    obtain ⟨_, hmem, he⟩ := he
    cases he
    exact .inr ⟨rfl, hmem⟩

theorem removed_of_mem {events : List CodecEvent} {created : Option Nat}
    {coder₀ coder : Nat} {retCode : Int} (he : .removed coder retCode ∈
      events ++ (created.map (CodecEvent.codecCreate coder₀)).toList) :
    .removed coder retCode ∈ events := by
  rcases List.mem_append.mp he with he | he
  · exact he
  · rw [Option.mem_toList, Option.map_eq_some_iff] at he
    obtain ⟨_, _, he⟩ := he
    cases he

/-- A coder in another state: the one it was in, but for the handle it may
have created. -/
theorem Accounted.update (h : w.Accounted) {handler : Int}
    {c : DecoderWrapper} (hlookup : w.coders.lookup handler = some c)
    (c' : DecoderWrapper) (created : Option Nat) (hcoder : c'.coder = c.coder)
    (hnone : ∀ handle ∈ created, c.codeHandle = none)
    (hhandle : c'.codeHandle = created.or c.codeHandle) (handleCount : Nat) :
    { w with
      coders := w.coders.insert handler c', handleCount
      events := w.events ++
        (created.map (CodecEvent.codecCreate c.coder)).toList }.Accounted := by
  have hcases {handler' : Int} {c'' : DecoderWrapper}
      (h' : (w.coders.insert handler c').lookup handler' = some c'') :
      handler' = handler ∧ c'' = c' ∨
        handler' ≠ handler ∧ w.coders.lookup handler' = some c'' := by
    rw [Table.lookup_insert_if] at h'
    split at h'
    · next heq => exact .inl ⟨heq, (Option.some.inj h').symm⟩
    · next hne => exact .inr ⟨hne, h'⟩
  have hold {handler' : Int} {c'' : DecoderWrapper}
      (h' : (w.coders.insert handler c').lookup handler' = some c'') :
      ∃ c₀, w.coders.lookup handler' = some c₀ ∧ c''.coder = c₀.coder := by
    rcases hcases h' with ⟨rfl, rfl⟩ | ⟨-, h'⟩
    · exact ⟨c, hlookup, hcoder⟩
    · exact ⟨c'', h', rfl⟩
  refine ⟨?_, ?_, ?_, ?_, ?_, ?_, ?_, ?_⟩
  · intro handler' c'' h'
    obtain ⟨c₀, h₀, heq⟩ := hold h'
    rw [heq]
    exact h.coder_lt _ _ h₀
  · intro handler₁ handler₂ c₁ c₂ h₁ h₂ heq
    obtain ⟨d₁, hd₁, heq₁⟩ := hold h₁
    obtain ⟨d₂, hd₂, heq₂⟩ := hold h₂
    exact h.distinct _ _ _ _ hd₁ hd₂ (heq₁.symm.trans (heq.trans heq₂))
  · intro handler' c'' h' retCode he
    obtain ⟨c₀, h₀, heq⟩ := hold h'
    rw [heq] at he
    exact h.live _ _ h₀ _ (removed_of_mem he)
  · intro coder handle he
    rcases codecCreate_of_mem he with he | ⟨rfl, -⟩
    · exact h.created_lt _ _ he
    · exact h.coder_lt _ _ hlookup
  · exact fun _ _ he => h.removed_lt _ _ (removed_of_mem he)
  · intro coder handle he handler' c'' h' heq
    rcases hcases h' with ⟨rfl, rfl⟩ | ⟨hne, h'⟩
    · rcases codecCreate_of_mem he with he | ⟨-, hsome⟩
      · have hheld := h.held _ _ he _ _ hlookup (hcoder.symm.trans heq)
        cases created with
        | none => exact hhandle.trans hheld
        | some _ =>
            rw [hnone _ rfl] at hheld
            cases hheld
      · rw [hhandle, hsome]
        rfl
    · rcases codecCreate_of_mem he with he | ⟨rfl, -⟩
      · exact h.held _ _ he _ _ h' heq
      · exact absurd (h.distinct _ _ _ _ h' hlookup heq) hne
  · intro coder handle hc hr
    rcases codecCreate_of_mem hc with hc | ⟨rfl, -⟩
    · exact List.mem_append_left _ (h.destroyed _ _ hc (removed_of_mem hr))
    · exact absurd (removed_of_mem hr) (h.live _ _ hlookup _)
  · show Layered w.hasInitCodec (layers (w.events ++ _))
    rw [layers_append]
    cases created with
    | none => exact h.layered
    | some _ =>
        have hsame (l : List (Int × Nat)) (coder handle : Nat) :
            layerStep l (.codecCreate coder handle) = l := by
          cases l <;> rfl
        rw [Option.map_some, Option.toList_some, List.foldl_cons, hsame]
        exact h.layered

/-- `Initialize` creates a handle where there was none, or fails. -/
theorem initializeCoder_cases (c : DecoderWrapper) (isFormatSupported : Bool)
    (codecCreate : Int) (handle : Nat) :
    (c.initializeCoder isFormatSupported codecCreate handle).1 ≠
        AudioRetCode.success ∨
      c.initializeCoder isFormatSupported codecCreate handle =
          (AudioRetCode.success, { c with codeHandle := some handle }) ∧
        c.codeHandle = none := by
  have hfails : AudioRetCode.initFailure ≠ AudioRetCode.success := by decide
  rw [DecoderWrapper.initializeCoder, DecoderWrapper.initCodecAttr]
  cases isFormatSupported with
  | false => exact .inl hfails
  | true =>
      cases hhandle : c.codeHandle with
      | some _ => exact .inl hfails
      | none =>
          by_cases hcreate : codecCreate ≠ AudioRetCode.success
          · refine .inl ?_
            simp [hcreate, hfails]
          · refine .inr ⟨?_, rfl⟩
            simp [hcreate]

theorem Accounted.setConfig (h : w.Accounted) (handler : Int)
    (isFormatSupported : Bool) (codecCreate : Int) :
    (w.setConfig handler isFormatSupported codecCreate).2.Accounted := by
  rw [AudioWrapper.setConfig]
  cases hlookup : w.coders.lookup handler with
  | none => exact h
  | some c =>
      dsimp only
      rcases initializeCoder_cases c isFormatSupported codecCreate
          w.handleCount with hfails | ⟨hok, hnone⟩
      · rw [if_pos hfails]
        exact h
      · rw [hok, if_neg (not_not.mpr rfl)]
        exact h.update hlookup { c with codeHandle := some w.handleCount }
          (some w.handleCount) rfl (fun _ _ => hnone) rfl (w.handleCount + 1)

/-- `Start` changes nothing of a coder but whether it was started. -/
theorem start_keeps (c : DecoderWrapper) (codecStart : Int) :
    (c.start codecStart).2.coder = c.coder ∧
      (c.start codecStart).2.codeHandle = c.codeHandle := by
  rw [DecoderWrapper.start]
  split
  · exact ⟨rfl, rfl⟩
  · split
    · exact ⟨rfl, rfl⟩
    · split <;> exact ⟨rfl, rfl⟩

theorem Accounted.startCodec (h : w.Accounted) (handler codecStart : Int) :
    (w.startCodec handler codecStart).2.Accounted := by
  rw [AudioWrapper.startCodec]
  cases hlookup : w.coders.lookup handler with
  | none => exact h
  | some c =>
      obtain ⟨hcoder, hhandle⟩ := start_keeps c codecStart
      have hupdate := h.update hlookup _ none hcoder nofun hhandle
        w.handleCount
      rw [Option.map_none, Option.toList_none, List.append_nil] at hupdate
      dsimp only
      split <;> exact hupdate

/-! ## The calls that delete

Removing a coder stops its codec and destroys it. The library is only
deinitialised when no coder is left, and this is where the mode and the number
of initialisations have to agree. -/

/-- What the loop of `Release` and the removal in `Deinit` let be. -/
theorem removeCoder_keeps (w : AudioWrapper) (handler codecStop : Int) :
    (w.removeCoder handler codecStop).needCodec = w.needCodec ∧
      (w.removeCoder handler codecStop).hasInitCodec = w.hasInitCodec ∧
      layers (w.removeCoder handler codecStop).events = layers w.events ∧
      ∀ handler' c,
        (w.removeCoder handler codecStop).coders.lookup handler' = some c →
        w.coders.lookup handler' = some c := by
  rw [AudioWrapper.removeCoder]
  cases hlookup : w.coders.lookup handler with
  | none => exact ⟨rfl, rfl, rfl, fun _ _ h => h⟩
  | some c =>
      refine ⟨rfl, rfl, layers_removal _, fun handler' c' h => ?_⟩
      rw [Table.lookup_erase_if] at h
      split at h
      · cases h
      · exact h

theorem Accounted.removeCoders (order : List Int) (codecStop : Int → Int) :
    ∀ {w : AudioWrapper}, w.Accounted →
      (∀ handler c, w.coders.lookup handler = some c → Stoppable c) →
      let w' := order.foldl
        (fun w handler => w.removeCoder handler (codecStop handler)) w
      w'.Accounted ∧ w'.needCodec = w.needCodec ∧
        layers w'.events = layers w.events := by
  induction order with
  | nil => exact fun h _ => ⟨h, rfl, rfl⟩
  | cons handler order ih =>
      intro w h hok
      obtain ⟨hneed, -, hlayers, hkept⟩ :=
        removeCoder_keeps w handler (codecStop handler)
      obtain ⟨h', hneed', hlayers'⟩ := ih (h.removeCoder fun c => hok handler c)
        fun handler' c hc => hok handler' c (hkept handler' c hc)
      exact ⟨h', hneed'.trans hneed, hlayers'.trans hlayers⟩

/-- Without its coders, the record is accounted for as it was. -/
theorem Accounted.clear (h : w.Accounted) :
    { w with coders := ∅ }.Accounted :=
  ⟨nofun, nofun, nofun, h.created_lt, h.removed_lt, fun _ _ _ => nofun,
    h.destroyed, h.layered⟩

theorem Accounted.codecDeinit (h : w.Accounted) (isEmpty : Bool) :
    (w.codecDeinit isEmpty).Accounted := by
  rw [AudioWrapper.codecDeinit]
  split
  · next hdeinit =>
      refine h.record (e := .codecDeinit) ⟨nofun, nofun⟩ ?_
      have hlayered := h.layered
      rw [(Bool.and_eq_true_iff.mp hdeinit).2] at hlayered
      obtain ⟨retCode, rest, hlayers, hrest⟩ := hlayered
      rw [hlayers]
      intro layer hlayer
      rcases List.mem_cons.mp hlayer with rfl | hlayer
      · rfl
      · exact hrest layer hlayer
  · exact h

/-- With a mode that asks for it, the codec is shut down. -/
theorem Accounted.shutDown (h : w.Accounted) (hmode : w.ModeAsks) :
    ShutDown (layers (w.codecDeinit true).events) := by
  have hdone := (h.codecDeinit true).layered
  have hlayered := h.layered
  rw [AudioWrapper.codecDeinit] at hdone ⊢
  cases hinit : w.hasInitCodec with
  | false =>
      rw [hinit] at hlayered
      simp only [Bool.and_false, Bool.false_eq_true, if_false]
      exact fun layer hlayer _ => hlayered layer hlayer
  | true =>
      rw [hinit] at hlayered
      cases hneed : w.needCodec with
      | true =>
          simp only [hinit, hneed, Bool.and_self, if_true] at hdone ⊢
          exact fun layer hlayer _ => hdone layer hlayer
      | false =>
          simp only [Bool.and_false, Bool.false_and, Bool.false_eq_true,
            if_false]
          obtain ⟨retCode, rest, hlayers, hrest⟩ := hlayered
          intro layer hlayer hsuccess
          rw [hlayers] at hlayer
          rcases List.mem_cons.mp hlayer with rfl | hlayer
          · have hup : w.needCodec = true := hmode ⟨_, by
              rw [hlayers]
              exact List.mem_cons_self, congrArg (·, 0) hsuccess⟩
            rw [hneed] at hup
            cases hup
          · exact hrest layer hlayer

theorem layers_emptied (events : List CodecEvent) :
    layers (events ++ [.emptied]) = layers events := by
  rw [layers_append]
  cases layers events <;> rfl

theorem Accounted.recordEmptied (h : w.Accounted) :
    w.recordEmptied.Accounted := by
  rw [AudioWrapper.recordEmptied]
  split
  · refine h.record (e := .emptied) ⟨nofun, nofun⟩ ?_
    have hlayered := h.layered
    rw [← layers_emptied, layers_append] at hlayered
    exact hlayered
  · exact h

/-- What a run keeps: the coders are accounted for, and a record that ends
with no coders left is one of a codec that was shut down. -/
structure Settled (w : AudioWrapper) : Prop where
  accounted : w.Accounted
  shutDown : w.events.getLast? = some .emptied → ShutDown (layers w.events)

theorem Settled.balanced (h : w.Settled) : w.Balanced :=
  ⟨h.accounted.destroyed, h.shutDown⟩

theorem Accounted.settled (h : w.Accounted) {events : List CodecEvent}
    {e : CodecEvent} (hevents : w.events = events ++ [e])
    (he : e ≠ .emptied) : w.Settled := by
  refine ⟨h, fun hlast => ?_⟩
  rw [hevents, List.getLast?_concat] at hlast
  exact absurd (Option.some.inj hlast) he

theorem Accounted.finish (h : w.Accounted) (hmode : w.ModeAsks) :
    ((w.codecDeinit true).recordEmptied).Settled := by
  refine ⟨(h.codecDeinit true).recordEmptied, fun _ => ?_⟩
  have hshut := h.shutDown hmode
  rw [AudioWrapper.recordEmptied]
  split
  · rw [← layers_emptied] at hshut
    exact hshut
  · exact hshut

theorem ModeAsks.congr {w' : AudioWrapper} (h : w.ModeAsks)
    (hneed : w'.needCodec = w.needCodec)
    (hlayers : layers w'.events = layers w.events) : w'.ModeAsks := by
  rw [ModeAsks, hneed, hlayers]
  exact h

theorem Settled.init (h : w.Settled) (typeId : ConvertType)
    (handler codecInit : Int) {converter : Option Int}
    (hnew : ∀ address ∈ converter, address ∉ w.coders) :
    (w.init typeId handler codecInit converter).2.2.Settled := by
  have hinit : (w.codecInit codecInit).Settled := by
    have haccounted := h.accounted.codecInit codecInit
    rw [AudioWrapper.codecInit] at haccounted ⊢
    split at haccounted
    · next hneed =>
        rw [if_pos hneed]
        exact haccounted.settled rfl nofun
    · next hneed =>
        rw [if_neg hneed]
        exact h
  rw [AudioWrapper.init]
  split
  · exact h
  · cases typeId with
    | pcmToAac => exact hinit
    | other value => exact hinit
    | aacToPcm =>
        have hcoders : (w.codecInit codecInit).coders = w.coders := by
          rw [AudioWrapper.codecInit]
          split <;> rfl
        refine ⟨hinit.accounted.initAudioDecoder handler ?_, ?_⟩
        · rw [hcoders]
          exact hnew
        · cases converter with
          | none => exact hinit.shutDown
          | some address => exact hinit.shutDown

theorem Settled.setConfig (h : w.Settled) (handler : Int)
    (isFormatSupported : Bool) (codecCreate : Int) :
    (w.setConfig handler isFormatSupported codecCreate).2.Settled := by
  have haccounted :=
    h.accounted.setConfig handler isFormatSupported codecCreate
  rw [AudioWrapper.setConfig] at haccounted ⊢
  cases hlookup : w.coders.lookup handler with
  | none => exact h
  | some c =>
      rw [hlookup] at haccounted
      dsimp only at haccounted ⊢
      split at haccounted
      · next hfails =>
          rw [if_pos hfails]
          exact h
      · next hok =>
          rw [if_neg hok]
          exact haccounted.settled rfl nofun

theorem Settled.startCodec (h : w.Settled) (handler codecStart : Int) :
    (w.startCodec handler codecStart).2.Settled := by
  refine ⟨h.accounted.startCodec handler codecStart, ?_⟩
  rw [AudioWrapper.startCodec]
  cases w.coders.lookup handler with
  | none => exact h.shutDown
  | some c =>
      dsimp only
      split <;> exact h.shutDown

theorem Settled.deinit (h : w.Settled) (handler codecStop : Int)
    (hok : w.Settles (.deinit handler codecStop)) :
    (w.deinit handler codecStop).2.Settled := by
  rw [AudioWrapper.deinit]
  cases hlookup : w.coders.lookup handler with
  | none => exact h
  | some c =>
      obtain ⟨hstop, hmode⟩ := hok c hlookup
      have hremoved : (w.removeCoder handler codecStop).Accounted :=
        h.accounted.removeCoder fun c' hc' => by
          rw [hlookup] at hc'
          cases hc'
          exact hstop
      obtain ⟨hneed, -, hlayers, -⟩ := removeCoder_keeps w handler codecStop
      have heq : w.removeCoder handler codecStop =
          { w with coders := w.coders.erase handler
                   events := w.events ++ c.removal codecStop } := by
        rw [AudioWrapper.removeCoder, hlookup]
      dsimp only
      by_cases hempty : (w.removeCoder handler codecStop).coders = ∅
      · rw [decide_eq_true hempty]
        rw [heq] at hempty
        exact hremoved.finish ((hmode hempty).congr hneed hlayers)
      · have hsame : ((w.removeCoder handler codecStop).codecDeinit
            false).recordEmptied = w.removeCoder handler codecStop :=
          if_neg hempty
        rw [decide_eq_false hempty, hsame]
        have hevents : (w.removeCoder handler codecStop).events = w.events ++
            ((c.stop codecStop).2.map CodecEvent.codecDestroy).toList ++
              [.removed c.coder (c.stop codecStop).1] := by
          rw [heq, List.append_assoc]
          rfl
        exact hremoved.settled hevents nofun

theorem Settled.release (h : w.Settled) (order : List Int)
    (codecStop : Int → Int) (hok : w.Settles (.release order codecStop)) :
    (w.release order codecStop).Settled := by
  obtain ⟨hremoved, hneed, hlayers⟩ :=
    h.accounted.removeCoders order codecStop hok.1
  exact hremoved.clear.finish (hok.2.congr hneed hlayers)

theorem convert_wrapper (w : AudioWrapper) (handler : Int)
    (reply : ConvertReply) : (w.convert handler reply).2 = w := by
  unfold AudioWrapper.convert
  split
  · rfl
  · split <;> rfl

theorem Settled.call {i : Call} {w' : AudioWrapper} (h : w.Settled)
    (hok : w.Settles i) (hcall : w.call i = some w') : w'.Settled := by
  cases i with
  | setCodecMode needCodec =>
      cases hcall
      obtain ⟨ha, hshut⟩ := h
      exact ⟨⟨ha.coder_lt, ha.distinct, ha.live, ha.created_lt, ha.removed_lt,
        ha.held, ha.destroyed, ha.layered⟩, hshut⟩
  | init typeId handler codecInit converter =>
      rw [AudioWrapper.call] at hcall
      split at hcall
      · cases hcall
      · next hnew =>
          cases hcall
          exact h.init typeId handler codecInit fun address ha hmem =>
            hnew ⟨address, ha, hmem⟩
  | setConfig handler isFormatSupported codecCreate =>
      cases hcall
      exact h.setConfig handler isFormatSupported codecCreate
  | startCodec handler codecStart =>
      cases hcall
      exact h.startCodec handler codecStart
  | convert handler reply =>
      rw [AudioWrapper.call, convert_wrapper] at hcall
      cases hcall
      exact h
  | deinit handler codecStop =>
      cases hcall
      exact h.deinit handler codecStop hok
  | release order codecStop =>
      rw [AudioWrapper.call] at hcall
      split at hcall
      · cases hcall
        exact h.release order codecStop hok
      · cases hcall

/-- A run whose calls all meet the condition is balanced in every state. -/
theorem reach_balanced (h : machine.Reach Settles w) : w.Balanced := by
  have hsettled : w.Settled := by
    refine h.invariant ?_ fun _ _ _ hs hok => hs.call hok
    rintro _ rfl
    exact ⟨new_accounted, nofun⟩
  exact hsettled.balanced

/-- A coder that is configured, started and stopped. -/
theorem started_balanced :
    ∃ w : AudioWrapper, w.events = [.codecInit 0, .codecCreate 0 0, .codecDestroy 0,
        .removed 0 0, .codecDeinit, .emptied] ∧ w.Balanced := by
  have hnew : machine.Reach Settles new := .start rfl
  have hinit := hnew.step (i := Call.init .aacToPcm invalidHandler 0 (some 100))
    trivial rfl
  have hconfig := hinit.step (i := Call.setConfig 100 true 0) trivial rfl
  have hstart := hconfig.step (i := Call.startCodec 100 0) trivial rfl
  have hdeinit := hstart.step (i := Call.deinit 100 0) (fun c hc => by
    cases hc
    exact ⟨.inr rfl, fun _ _ => rfl⟩) rfl
  exact ⟨_, rfl, reach_balanced hdeinit⟩

/-- A coder that is configured and not started: its handle stays. -/
theorem configured_not_balanced :
    ∃ w : AudioWrapper, machine.Reach Machine.anyStep w ∧
      w.events = [.codecInit 0, .codecCreate 0 0, .removed 0 0, .codecDeinit,
        .emptied] ∧ ¬ w.Balanced := by
  have hnew : machine.Reach Machine.anyStep new := .start rfl
  have hinit := hnew.step (i := Call.init .aacToPcm invalidHandler 0 (some 100))
    trivial rfl
  have hconfig := hinit.step (i := Call.setConfig 100 true 0) trivial rfl
  have hdeinit := hconfig.step (i := Call.deinit 100 0) trivial rfl
  refine ⟨_, hdeinit, rfl, fun h => ?_⟩
  exact absurd (h.destroyed 0 0 (by decide) (by decide)) (by decide)

/-- A mode that changes in between: the codec stays. -/
theorem modeChanged_not_balanced :
    ∃ w : AudioWrapper, machine.Reach Machine.anyStep w ∧
      w.events = [.codecInit 0, .removed 0 0, .emptied] ∧ ¬ w.Balanced := by
  have hnew : machine.Reach Machine.anyStep new := .start rfl
  have hinit := hnew.step (i := Call.init .aacToPcm invalidHandler 0 (some 100))
    trivial rfl
  have hmode := hinit.step (i := Call.setCodecMode false) trivial rfl
  have hdeinit := hmode.step (i := Call.deinit 100 0) trivial rfl
  refine ⟨_, hdeinit, rfl, fun h => ?_⟩
  exact absurd (h.shutDown rfl (0, 0) (by decide) rfl) (by decide)

end AudioWrapper

end AiEngine.Ref
