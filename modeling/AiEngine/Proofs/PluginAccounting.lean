import AiEngine.Ref.PluginHandles

/-!
# The handles a plugin accounts for

`Prepare` opens its handle first. A step after that which fails leaves it
open, and unregistered or registered for a caller who has been told that there
is none. `Release` closes its handle and forgets it before it shuts the
adapter down, so that a release which fails there cannot be tried again. In
the runs without such a failure the adapter and the plugin agree, and a call
that fails changes nothing. The two classes differ in what they do before and
after, not in this.
-/

namespace AiEngine.Ref

open AiEngine.Lib

/-! ## What a class does to the handles

A ledger of the handles that are open, for any plugin class. What its
`Prepare` and `Release` do to it is all that a run needs to know of the class.
-/

/-- What is open and what is registered. -/
structure HandleLedger where
  opened : Finset Int
  registered : Finset Int
  deriving DecidableEq

namespace PluginHandles

variable {ω : Type} {p : PluginHandles ω}

def ledger (p : PluginHandles ω) : HandleLedger := ⟨p.opened, p.handles.keys⟩

/-- A new adapter has no open handle. -/
theorem opened_getAdapter {newAdapter : Bool} {adapter : EngineAdapter}
    (h : p.getAdapter newAdapter = some adapter) :
    adapter.opened = p.opened := by
  unfold getAdapter at h
  unfold opened
  split at h
  · next hadapter =>
      cases h
      rw [hadapter]
  · next hadapter =>
      rw [hadapter]
      split at h
      · cases h
        rfl
      · cases h

/-- The handle that a `Prepare` opens, if it opens one. -/
def opens (p : PluginHandles ω) (reply : PrepareReply) : Option Int :=
  if (p.getAdapter reply.newAdapter).isSome then reply.init else none

theorem opens_of_none {reply : PrepareReply}
    (h : p.getAdapter reply.newAdapter = none) : p.opens reply = none := by
  rw [opens, h]
  rfl

theorem opens_of_some {reply : PrepareReply} {adapter : EngineAdapter}
    (h : p.getAdapter reply.newAdapter = some adapter) :
    p.opens reply = reply.init := by
  rw [opens, h]
  rfl

/-- The call has changed nothing and says so. -/
structure Refused (p : PluginHandles ω) (answer : Int × PluginHandles ω) :
    Prop where
  retCode : answer.1 ≠ Retcode.success
  ledger : answer.2.ledger = p.ledger

/-- The call has opened a handle. It registers it if what comes before that
succeeds, and then answers what the encoding of the handle does. -/
structure Opened (p : PluginHandles ω) (handle : Int) (ready : Prop)
    (encode : Int) (answer : Int × PluginHandles ω) : Prop where
  opened : answer.2.opened = insert handle p.opened
  registered : ready → answer.1 = encode ∧
    answer.2.handles.keys = insert handle p.handles.keys
  leaked : ¬ ready → answer.1 ≠ Retcode.success ∧
    answer.2.handles.keys = p.handles.keys

/-- The call has closed a handle and forgotten it, and answers what shutting
the adapter down does. -/
structure Closed (p : PluginHandles ω) (handle : Int) (shut : Prop)
    (answer : Int × PluginHandles ω) : Prop where
  ledger : answer.2.ledger =
    ⟨p.opened.erase handle, p.handles.keys.erase handle⟩
  retCode : answer.1 = Retcode.success ↔ shut

end PluginHandles

/-- The way to `Deinit` is taken, and it succeeds. -/
def shuts (isFullUnload : Bool) (reply : ReleaseReply) : Prop :=
  isFullUnload = true → reply.deinit = Retcode.success

/-- What a class does to the handles; `ready` says that what `Prepare` does
between the opening and the registration succeeds. -/
structure PluginClass.Handles {ω ρ : Type} (c : PluginClass ω ρ)
    (ready : ρ → Prop) : Prop where
  refuses : ∀ (p : PluginHandles ω) (reply : ρ),
    p.opens (c.base reply) = none → p.Refused (c.prepare p reply)
  opens : ∀ (p : PluginHandles ω) (reply : ρ) (handle : Int),
    p.opens (c.base reply) = some handle → handle ∉ p.handles →
      p.Opened handle (ready reply) (c.base reply).encode (c.prepare p reply)
  releases : ∀ (p : PluginHandles ω) (isFullUnload : Bool)
    (reply : ReleaseReply),
    p.Closed reply.handle (shuts isFullUnload reply)
        (c.release p isFullUnload reply) ∧
        reply.decode = Retcode.success ∧
        reply.releaseHandle = Retcode.success ∨
      p.Refused (c.release p isFullUnload reply) ∧
        (p.adapter = none ∨ reply.decode ≠ Retcode.success ∨
          reply.handle ∉ p.handles ∨ reply.releaseHandle ≠ Retcode.success)

theorem failure_ne_success : Retcode.failure ≠ Retcode.success := by decide

namespace PluginHandles

variable {ω : Type} {p : PluginHandles ω}

theorem Refused.of_same {code : Int} (hcode : code ≠ Retcode.success) :
    p.Refused (code, p) := ⟨hcode, rfl⟩

theorem Refused.of_init {newAdapter : Bool} {adapter : EngineAdapter}
    (h : p.getAdapter newAdapter = some adapter) :
    p.Refused (Retcode.failure,
      { p with adapter := some (adapter.init none) }) :=
  ⟨failure_ne_success,
    congrArg (HandleLedger.mk · _) (opened_getAdapter h)⟩

theorem opened_init {newAdapter : Bool} {adapter : EngineAdapter}
    (h : p.getAdapter newAdapter = some adapter) (handle : Int)
    (handles : Table Int ω) :
    (PluginHandles.mk (some (adapter.init (some handle))) handles).opened =
      insert handle p.opened :=
  congrArg (insert handle) (opened_getAdapter h)

theorem Refused.of_releaseHandle {adapter : EngineAdapter}
    {handle code : Int} (hadapter : p.adapter = some adapter)
    (hcode : code ≠ Retcode.success) :
    p.Refused (Retcode.failure,
      { p with adapter := some (adapter.releaseHandle handle code) }) where
  retCode := failure_ne_success
  ledger := by
    rw [EngineAdapter.releaseHandle, if_neg hcode, ← hadapter]

/-- `ReleaseHandle` has closed the handle, which is then forgotten. -/
theorem Closed.of_release {adapter : EngineAdapter} {handle code : Int}
    {shut : Prop} (hadapter : p.adapter = some adapter)
    (hcode : code = Retcode.success ↔ shut) :
    p.Closed handle shut (code, ⟨some (adapter.releaseHandle handle
      Retcode.success), p.handles.erase handle⟩) where
  ledger := by
    have hopened : p.opened = adapter.opened := by
      rw [opened, hadapter]
    exact congrArg₂ HandleLedger.mk (hopened ▸ rfl)
      (Finmap.keys_erase _ _)
  retCode := hcode

/-- What both classes do in `Prepare`; `workplace` is what they set up for the
handle, if they can. -/
def prepareWith (p : PluginHandles ω) (reply : PrepareReply)
    (workplace : Option ω) : Int × PluginHandles ω :=
  match p.getAdapter reply.newAdapter with
  | none => (Retcode.failure, p)
  | some adapter =>
      let p := { p with adapter := some (adapter.init reply.init) }
      match reply.init with
      | none => (Retcode.failure, p)
      | some handle =>
          if handle ∈ p.handles then (Retcode.success, p)
          else
            match workplace with
            | none => (Retcode.failure, p)
            | some workplace =>
                (reply.encode, { p with
                  handles := p.handles.insertNew handle workplace })

theorem prepareWith_refused {reply : PrepareReply}
    (hnone : p.opens reply = none) (workplace : Option ω) :
    p.Refused (p.prepareWith reply workplace) := by
  unfold prepareWith
  split
  · exact .of_same failure_ne_success
  · next adapter hadapter =>
      have hinit : reply.init = none :=
        (opens_of_some hadapter).symm.trans hnone
      rw [hinit]
      exact .of_init hadapter

theorem prepareWith_opened {reply : PrepareReply} {handle : Int}
    (hsome : p.opens reply = some handle) (hnew : handle ∉ p.handles)
    (workplace : Option ω) :
    p.Opened handle (workplace.isSome = true) reply.encode
      (p.prepareWith reply workplace) := by
  unfold prepareWith
  split
  · next hadapter =>
      exact absurd ((opens_of_none hadapter).symm.trans hsome) nofun
  · next adapter hadapter =>
      have hinit : reply.init = some handle :=
        (opens_of_some hadapter).symm.trans hsome
      rw [hinit]
      dsimp only
      rw [if_neg hnew]
      cases workplace with
      | none =>
          exact ⟨opened_init hadapter _ _, nofun,
            fun _ => ⟨failure_ne_success, rfl⟩⟩
      | some workplace =>
          exact ⟨opened_init hadapter _ _,
            fun _ => ⟨rfl, Table.keys_insertNew _ _ _⟩,
            fun h => absurd rfl h⟩

theorem Opened.congr {handle encode : Int} {ready ready' : Prop}
    {answer : Int × PluginHandles ω} (h : p.Opened handle ready encode answer)
    (hready : ready ↔ ready') : p.Opened handle ready' encode answer :=
  propext hready ▸ h

/-- What both classes do in `Release` once they have the handle. -/
def closeHandle (p : PluginHandles ω) (adapter : EngineAdapter)
    (isFullUnload : Bool) (reply : ReleaseReply) : Int × PluginHandles ω :=
  let adapter := adapter.releaseHandle reply.handle reply.releaseHandle
  let p := { p with adapter := some adapter }
  if reply.releaseHandle ≠ Retcode.success then (Retcode.failure, p)
  else
    let p := { p with handles := p.handles.erase reply.handle }
    if isFullUnload ∧ reply.deinit ≠ Retcode.success then
      (Retcode.failure, p)
    else (Retcode.success, p)

theorem closeHandle_cases {adapter : EngineAdapter} {reply : ReleaseReply}
    (hadapter : p.adapter = some adapter) (isFullUnload : Bool) :
    p.Closed reply.handle (shuts isFullUnload reply)
        (p.closeHandle adapter isFullUnload reply) ∧
        reply.releaseHandle = Retcode.success ∨
      p.Refused (p.closeHandle adapter isFullUnload reply) ∧
        reply.releaseHandle ≠ Retcode.success := by
  unfold closeHandle
  dsimp only
  split
  · next hrelease =>
      exact .inr ⟨.of_releaseHandle hadapter hrelease, hrelease⟩
  · next hrelease =>
      have hclosed := not_not.mp hrelease
      rw [hclosed]
      refine .inl ⟨?_, rfl⟩
      split
      · next h =>
          exact .of_release hadapter
            ⟨fun h' => absurd h' failure_ne_success,
              fun h' => absurd (h' h.1) h.2⟩
      · next h =>
          exact .of_release hadapter ⟨fun _ hfull =>
            by_contra fun hdeinit => h ⟨hfull, hdeinit⟩, fun _ => rfl⟩

/-- Closing the handle is all that is left of a `Release`. -/
theorem closes_or_refuses {adapter : EngineAdapter} {reply : ReleaseReply}
    (hadapter : p.adapter = some adapter)
    (hdecode : reply.decode = Retcode.success) (isFullUnload : Bool) :
    p.Closed reply.handle (shuts isFullUnload reply)
        (p.closeHandle adapter isFullUnload reply) ∧
        reply.decode = Retcode.success ∧
        reply.releaseHandle = Retcode.success ∨
      p.Refused (p.closeHandle adapter isFullUnload reply) ∧
        (p.adapter = none ∨ reply.decode ≠ Retcode.success ∨
          reply.handle ∉ p.handles ∨
          reply.releaseHandle ≠ Retcode.success) := by
  rcases closeHandle_cases hadapter isFullUnload with
    ⟨hclosed, hrelease⟩ | ⟨hrefused, hrelease⟩
  · exact .inl ⟨hclosed, hdecode, hrelease⟩
  · exact .inr ⟨hrefused, .inr (.inr (.inr hrelease))⟩

end PluginHandles

namespace KWSPlugin

/-- `BuildConfig` and `InitComponents` succeed. -/
def ready (reply : KWSPrepareReply) : Prop :=
  reply.inputAddr.retCode = Retcode.success ∧
    reply.outputAddr.retCode = Retcode.success ∧
    reply.slideInit = Retcode.success ∧
    reply.convertInit = Retcode.success ∧ reply.normInit = Retcode.success

instance (reply : KWSPrepareReply) : Decidable (ready reply) :=
  inferInstanceAs (Decidable (_ ∧ _))

theorem buildConfig_cases (reply : PrepareReply) :
    (reply.inputAddr.retCode = Retcode.success ∧
        reply.outputAddr.retCode = Retcode.success ∧
        ∃ config, buildConfig reply = (Retcode.success, some config)) ∨
      ¬ (reply.inputAddr.retCode = Retcode.success ∧
          reply.outputAddr.retCode = Retcode.success) ∧
        buildConfig reply = (Retcode.nullParam, none) := by
  unfold buildConfig
  split
  · next hin => exact .inr ⟨fun h => hin h.1, rfl⟩
  · next hin =>
      split
      · next hout => exact .inr ⟨fun h => hout h.2, rfl⟩
      · next hout => exact .inl ⟨not_not.mp hin, not_not.mp hout, _, rfl⟩

theorem initComponents_eq_success {reply : KWSPrepareReply} :
    initComponents reply = Retcode.success ↔
      reply.slideInit = Retcode.success ∧
        reply.convertInit = Retcode.success ∧
        reply.normInit = Retcode.success := by
  unfold initComponents
  split
  · next h => exact ⟨fun h' => absurd h' (by decide), fun h' => absurd h'.1 h⟩
  · next hslide =>
      split
      · next h =>
          exact ⟨fun h' => absurd h' (by decide), fun h' => absurd h'.2.1 h⟩
      · next hconvert =>
          split
          · next h =>
              exact ⟨fun h' => absurd h' (by decide),
                fun h' => absurd h'.2.2 h⟩
          · next hnorm =>
              exact ⟨fun _ => ⟨not_not.mp hslide, not_not.mp hconvert,
                not_not.mp hnorm⟩, fun _ => rfl⟩

theorem prepare_eq (reply : KWSPrepareReply) :
    ∃ workplace : Option KWSWorkplace,
      (workplace.isSome = true ↔ ready reply) ∧
      ∀ p, prepare p reply = p.prepareWith reply.toPrepareReply workplace := by
  unfold prepare
  rcases buildConfig_cases reply.toPrepareReply with
    ⟨hin, hout, config, hbuild⟩ | ⟨hno, hbuild⟩
  · rw [hbuild]
    by_cases hcomponents : initComponents reply = Retcode.success
    · refine ⟨some ⟨config⟩, ⟨fun _ => ⟨hin, hout,
        initComponents_eq_success.mp hcomponents⟩, fun _ => rfl⟩, fun p => ?_⟩
      simp only [hcomponents, ne_eq, not_true_eq_false, if_false]
      rfl
    · refine ⟨none, ⟨nofun, fun h =>
        absurd (initComponents_eq_success.mpr h.2.2) hcomponents⟩,
        fun p => ?_⟩
      simp only [hcomponents, ne_eq, not_false_eq_true, if_true]
      rfl
  · rw [hbuild]
    exact ⟨none, ⟨nofun, fun h => absurd ⟨h.1, h.2.1⟩ hno⟩, fun _ => rfl⟩

theorem keeps_handles : kwsPlugin.Handles ready where
  refuses := by
    intro p reply hnone
    obtain ⟨workplace, -, hprepare⟩ := prepare_eq reply
    change p.Refused (prepare p reply)
    rw [hprepare]
    exact PluginHandles.prepareWith_refused hnone workplace
  opens := by
    intro p reply handle hsome hnew
    obtain ⟨workplace, hready, hprepare⟩ := prepare_eq reply
    change p.Opened handle (ready reply) reply.encode (prepare p reply)
    rw [hprepare]
    exact (PluginHandles.prepareWith_opened hsome hnew workplace).congr hready
  releases := by
    intro p isFullUnload reply
    change p.Closed _ _ (release p isFullUnload reply) ∧ _ ∨
      p.Refused (release p isFullUnload reply) ∧ _
    unfold release
    split
    · next hadapter =>
        exact .inr ⟨.of_same failure_ne_success, .inl hadapter⟩
    · next adapter hadapter =>
        split
        · next hdecode =>
            exact .inr ⟨.of_same failure_ne_success, .inr (.inl hdecode)⟩
        · next hdecode =>
            exact PluginHandles.closes_or_refuses hadapter
              (not_not.mp hdecode) isFullUnload

end KWSPlugin

namespace ICPlugin

/-- `BuildConfig` succeeds. -/
def ready (reply : PrepareReply) : Prop :=
  reply.inputAddr.retCode = Retcode.success ∧
    reply.outputAddr.retCode = Retcode.success

instance (reply : PrepareReply) : Decidable (ready reply) :=
  inferInstanceAs (Decidable (_ ∧ _))

theorem buildConfig_cases (reply : PrepareReply) :
    (ready reply ∧
        ∃ config, buildConfig reply = (Retcode.success, some config)) ∨
      ¬ ready reply ∧ buildConfig reply = (Retcode.failure, none) := by
  unfold buildConfig
  split
  · next hin => exact .inr ⟨fun h => hin h.1, rfl⟩
  · next hin =>
      split
      · next hout => exact .inr ⟨fun h => hout h.2, rfl⟩
      · next hout => exact .inl ⟨⟨not_not.mp hin, not_not.mp hout⟩, _, rfl⟩

theorem prepare_eq (reply : PrepareReply) :
    ∃ workplace : Option ICModelConfig,
      (workplace.isSome = true ↔ ready reply) ∧
      ∀ p, prepare p reply = p.prepareWith reply workplace := by
  unfold prepare
  rcases buildConfig_cases reply with
    ⟨hready, config, hbuild⟩ | ⟨hno, hbuild⟩
  · rw [hbuild]
    exact ⟨some config, ⟨fun _ => hready, fun _ => rfl⟩, fun _ => rfl⟩
  · rw [hbuild]
    exact ⟨none, ⟨nofun, fun h => absurd h hno⟩, fun _ => rfl⟩

theorem keeps_handles : icPlugin.Handles ready where
  refuses := by
    intro p reply hnone
    obtain ⟨workplace, -, hprepare⟩ := prepare_eq reply
    change p.Refused (prepare p reply)
    rw [hprepare]
    exact PluginHandles.prepareWith_refused hnone workplace
  opens := by
    intro p reply handle hsome hnew
    obtain ⟨workplace, hready, hprepare⟩ := prepare_eq reply
    change p.Opened handle (ready reply) reply.encode (prepare p reply)
    rw [hprepare]
    exact (PluginHandles.prepareWith_opened hsome hnew workplace).congr hready
  releases := by
    intro p isFullUnload reply
    change p.Closed _ _ (release p isFullUnload reply) ∧ _ ∨
      p.Refused (release p isFullUnload reply) ∧ _
    unfold release
    split
    · next hadapter =>
        exact .inr ⟨.of_same failure_ne_success, .inl hadapter⟩
    · next adapter hadapter =>
        split
        · next hdecode =>
            exact .inr ⟨.of_same failure_ne_success, .inr (.inl hdecode)⟩
        · next hdecode =>
            split
            · next hhandle =>
                exact .inr ⟨.of_same (by decide), .inr (.inr (.inl hhandle))⟩
            · exact PluginHandles.closes_or_refuses hadapter
                (not_not.mp hdecode) isFullUnload

end ICPlugin

namespace PluginClass

variable {ω ρ : Type} {c : PluginClass ω ρ} {ready : ρ → Prop}
variable {s : PluginRun ω}

/-- A `Prepare` that opens a handle succeeds, and so does the `Deinit` of a
`Release` that closes one. -/
def completes (c : PluginClass ω ρ) (ready : ρ → Prop) (s : PluginRun ω) :
    PluginCall ρ → Prop
  | .prepare reply =>
      s.plugin.opens (c.base reply) ≠ none →
        ready reply ∧ (c.base reply).encode = Retcode.success
  | .release isFullUnload reply =>
      reply.decode = Retcode.success → reply.handle ∈ s.plugin.handles →
        reply.releaseHandle = Retcode.success → shuts isFullUnload reply

theorem notMem_of_opens {reply : ρ} {handle : Int}
    (hsome : s.plugin.opens (c.base reply) = some handle)
    (hnew : c.newHandle s (.prepare reply) = true) :
    handle ∉ s.plugin.opened := by
  have hinit : (c.base reply).init = some handle := by
    unfold PluginHandles.opens at hsome
    split at hsome
    · exact hsome
    · cases hsome
  simp only [newHandle, hinit, decide_eq_true_eq] at hnew
  exact hnew

theorem Handles.prepare_iff (h : c.Handles ready) (hs : s.Accounted)
    {reply : ρ} (hnew : c.newHandle s (.prepare reply) = true) :
    (c.call s (.prepare reply)).Accounted ↔
      c.completes ready s (.prepare reply) := by
  cases hopens : s.plugin.opens (c.base reply) with
  | none =>
      obtain ⟨-, hledger⟩ := h.refuses s.plugin reply hopens
      obtain ⟨hopened, hkeys⟩ := HandleLedger.mk.inj hledger
      refine ⟨fun _ hsome => absurd hopens hsome, fun _ => ⟨?_, ?_, nofun⟩⟩
      · exact hopened.trans (hs.balanced.trans hkeys.symm)
      · rintro retCode before ⟨⟩ -
        exact hopened
  | some handle =>
      have hfree := notMem_of_opens hopens hnew
      have hunknown : handle ∉ s.plugin.handles := fun hin =>
        hfree (hs.balanced ▸ Finmap.mem_keys.mpr hin)
      obtain ⟨hopened, hregistered, hleaked⟩ :=
        h.opens s.plugin reply handle hopens hunknown
      have hgrown : (c.prepare s.plugin reply).2.opened ≠ s.plugin.opened :=
        fun hsame => hfree (hsame ▸ hopened ▸ Finset.mem_insert_self _ _)
      constructor
      · intro hacc _
        have hready : ready reply := by
          by_contra hno
          refine hgrown (hacc.balanced.trans ?_)
          rw [hs.balanced]
          exact (hleaked hno).2
        refine ⟨hready, by_contra fun hencode => hgrown ?_⟩
        exact hacc.prepared _ _ rfl ((hregistered hready).1 ▸ hencode)
      · intro hcompletes
        obtain ⟨hready, hencode⟩ :=
          hcompletes (hopens ▸ Option.some_ne_none handle)
        obtain ⟨hcode, hkeys⟩ := hregistered hready
        refine ⟨?_, ?_, nofun⟩
        · change (c.prepare s.plugin reply).2.opened =
            (c.prepare s.plugin reply).2.handles.keys
          rw [hopened, hkeys, hs.balanced]
        · rintro retCode before ⟨⟩ hfail
          exact absurd (hcode.trans hencode) hfail

theorem Handles.release_iff (h : c.Handles ready) (hs : s.Accounted)
    (isFullUnload : Bool) (reply : ReleaseReply) :
    (c.call s (.release isFullUnload reply)).Accounted ↔
      c.completes ready s (.release isFullUnload reply) := by
  have hmem : reply.handle ∈ s.plugin.handles ↔
      reply.handle ∈ s.plugin.opened := by
    rw [hs.balanced, Finmap.mem_keys]
  rcases h.releases s.plugin isFullUnload reply with
    ⟨⟨hledger, hcode⟩, hdecode, hrelease⟩ | ⟨⟨-, hledger⟩, hwhy⟩
  · obtain ⟨hopened, hkeys⟩ := HandleLedger.mk.inj hledger
    constructor
    · intro hacc _ hin _
      by_contra hshut
      have hkept := hacc.released _ _ _ rfl (fun h => hshut (hcode.mp h))
        (hmem.mp hin)
      exact Finset.notMem_erase _ _ (hopened ▸ hkept.1)
    · intro hcompletes
      refine ⟨?_, nofun, ?_⟩
      · change (c.release s.plugin isFullUnload reply).2.opened =
          (c.release s.plugin isFullUnload reply).2.handles.keys
        rw [hopened, hkeys, hs.balanced]
      · rintro retCode handle before ⟨⟩ hfail hin
        exact absurd
          (hcode.mpr (hcompletes hdecode (hmem.mpr hin) hrelease)) hfail
  · obtain ⟨hopened, hkeys⟩ := HandleLedger.mk.inj hledger
    constructor
    · intro _ hdecode hin hrelease
      rcases hwhy with hadapter | hno | hno | hno
      · rw [hmem, PluginHandles.opened, hadapter] at hin
        cases hin
      · exact absurd hdecode hno
      · exact absurd hin hno
      · exact absurd hrelease hno
    · intro _
      refine ⟨hopened.trans (hs.balanced.trans hkeys.symm), nofun, ?_⟩
      rintro retCode handle before ⟨⟩ - hin
      refine ⟨hopened ▸ hin, ?_⟩
      rw [← Finmap.mem_keys]
      exact hkeys ▸ Finmap.mem_keys.mpr (hmem.mpr hin)

/-- A call leaves the handles accounted for exactly if it completes what it
has begun. -/
theorem Handles.call_iff (h : c.Handles ready) (hs : s.Accounted)
    {i : PluginCall ρ} (hnew : c.newHandle s i = true) :
    (c.call s i).Accounted ↔ c.completes ready s i := by
  cases i with
  | prepare reply => exact h.prepare_iff hs hnew
  | release isFullUnload reply => exact h.release_iff hs isFullUnload reply

theorem Handles.reach (h : c.Handles ready)
    (hs : c.machine.Reach (c.completes ready) s) : s.Accounted := by
  refine hs.invariant ?_ ?_
  · rintro s ⟨⟩
    exact ⟨rfl, nofun, nofun⟩
  · intro s i s' hacc hok hstep
    simp only [machine] at hstep
    split at hstep
    · next hnew =>
        cases hstep
        exact (h.call_iff hacc hnew).mpr hok
    · cases hstep

end PluginClass

theorem releaseHandles_opened (retCodes : Int → Int)
    (hall : ∀ handle, retCodes handle = Retcode.success)
    (handles : List Int) (adapter : EngineAdapter) :
    (handles.foldl (fun adapter handle =>
        adapter.releaseHandle handle (retCodes handle)) adapter).opened =
      adapter.opened \ handles.toFinset := by
  induction handles generalizing adapter with
  | nil => simp
  | cons handle handles ih =>
      rw [List.foldl_cons, ih, EngineAdapter.releaseHandle,
        if_pos (hall handle), List.toFinset_cons]
      ext x
      simp only [Finset.mem_sdiff, Finset.mem_erase, Finset.mem_insert]
      tauto

/-- Where the plugin accounts for its handles and the adapter closes each,
none is open when the plugin is gone. -/
theorem PluginRun.Accounted.releaseAllHandles {ω : Type} {s : PluginRun ω}
    (hs : s.Accounted) {retCodes : Int → Int}
    (hall : ∀ handle, retCodes handle = Retcode.success)
    {p : PluginHandles ω}
    (hrelease : s.plugin.releaseAllHandles retCodes = some p) :
    p.opened = ∅ := by
  unfold PluginHandles.releaseAllHandles at hrelease
  split at hrelease
  · cases hrelease
  · next adapter hadapter =>
      have hopened : s.plugin.opened = adapter.opened := by
        rw [PluginHandles.opened, hadapter]
      cases hrelease
      refine (releaseHandles_opened retCodes hall _ adapter).trans ?_
      rw [← hopened, hs.balanced, Finset.sort_toFinset, sdiff_self]
      rfl

/-- In every run whose calls complete what they have begun, the handles that
are open are those that are registered, and a call that fails changes
nothing. -/
theorem reach_handlesAccounted (s : PluginRun KWSWorkplace)
    (t : PluginRun ICModelConfig) :
    (kwsPlugin.machine.Reach (kwsPlugin.completes KWSPlugin.ready) s →
      s.Accounted) ∧
    (icPlugin.machine.Reach (icPlugin.completes ICPlugin.ready) t →
      t.Accounted) :=
  ⟨KWSPlugin.keeps_handles.reach, ICPlugin.keeps_handles.reach⟩

/-- A `Prepare` in which every step succeeds. -/
def sampleReply7 : PrepareReply where
  newAdapter := true
  init := some 7
  inputAddr := ⟨0, 4096, 400⟩
  outputAddr := ⟨0, 8192, 12⟩
  encode := 0

theorem kwsPlugin_prepared :
    kwsPlugin.machine.Reach (kwsPlugin.completes KWSPlugin.ready)
      (kwsPlugin.call ⟨.new, none⟩ (.prepare ⟨sampleReply7, 0, 0, 0⟩)) :=
  .step (i := .prepare ⟨sampleReply7, 0, 0, 0⟩) (.start rfl)
    (fun _ => ⟨by decide, rfl⟩) rfl

theorem icPlugin_prepared :
    icPlugin.machine.Reach (icPlugin.completes ICPlugin.ready)
      (icPlugin.call ⟨.new, none⟩ (.prepare sampleReply7)) :=
  .step (i := .prepare sampleReply7) (.start rfl)
    (fun _ => ⟨by decide, rfl⟩) rfl

theorem reach_handlesAccounted_sample :
    (kwsPlugin.call (kwsPlugin.call ⟨.new, none⟩
        (.prepare ⟨sampleReply7, 0, 0, 0⟩))
      (.release true ⟨0, 7, 0, 0⟩)).Accounted ∧
    (icPlugin.call (icPlugin.call ⟨.new, none⟩ (.prepare sampleReply7))
      (.release true ⟨0, 7, -1, 0⟩)).Accounted :=
  (reach_handlesAccounted _ _).imp
    (fun h => h (.step (i := .release true ⟨0, 7, 0, 0⟩)
      kwsPlugin_prepared (fun _ _ _ _ => rfl) rfl))
    (fun h => h (.step (i := .release true ⟨0, 7, -1, 0⟩)
      icPlugin_prepared (fun _ _ _ _ => rfl) rfl))

/-- A processor cannot be initialised, and the handle stays open. -/
theorem initFails_not_accounted :
    ¬ ((∀ s, kwsPlugin.machine.Reach Machine.anyStep s → s.Accounted) ∧
      (∀ s, icPlugin.machine.Reach Machine.anyStep s → s.Accounted)) := by
  intro h
  have hacc := h.1 _ (.step (.start rfl) (i := .prepare ⟨sampleReply7, 0, 0,
    Retcode.failure⟩) trivial rfl)
  exact absurd hacc.balanced (by decide)

end AiEngine.Ref
