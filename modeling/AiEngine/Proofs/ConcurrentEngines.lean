import AiEngine.Ref.SharedManager

/-!
# One engine per algorithm, for as long as no engine is erased in use

The reference count of an engine is the number of transactions recorded for
it, but for the calls in between: a `StartEngine` that has counted itself and
not recorded itself yet, a `StopEngine` that has taken its count away and is
still recorded. A `StopEngine` whose zero test has succeeded goes on to erase
what the map has under the key of its engine, however long ago the test was.
Nothing is lost if nobody uses that: its count is zero, and no `StartEngine`
has found it that has not counted itself yet. As long as that is so, whoever
uses an engine uses the one in the map, and the rest follows.
-/

namespace AiEngine.Ref

open AiEngine.Lib

/-- `StartEngine` has an engine. -/
def EngineWork.isStart : EngineWork → Bool
  | .prepare => true
  | .addReference => true
  | .recordClient => true
  | _ => false

/-- `StartEngine` has an engine and has not counted itself. -/
def EngineWork.isUncounted : EngineWork → Bool
  | .prepare => true
  | .addReference => true
  | _ => false

/-- `StartEngine` has counted itself. -/
def EngineWork.isCounted : EngineWork → Bool
  | .recordClient => true
  | _ => false

/-- `StopEngine` has taken its count away. -/
def EngineWork.isReleased : EngineWork → Bool
  | .testReference => true
  | .findPlugin => true
  | .delPlugin => true
  | .delEngine => true
  | .unRecordClient => true
  | _ => false

theorem EngineWork.isStart_of_isReleased {phase : EngineWork}
    (h : phase.isReleased = true) : phase.isStart = false := by
  cases phase <;> simp_all [isReleased, isStart]

theorem EngineWork.isCounted_of_isStart {phase : EngineWork}
    (hstart : phase.isStart = true) (hnot : phase.isUncounted = false) :
    phase.isCounted = true := by
  cases phase <;> simp_all [isStart, isUncounted, isCounted]

/-- A call works with an engine, in a phase of some kind. -/
def EngineCall.Does (e : Nat) (p : EngineWork → Bool) : EngineCall → Prop
  | .createEngineWithCheck _ => False
  | .work engine phase => engine = e ∧ p phase = true

instance (e : Nat) (p : EngineWork → Bool) :
    DecidablePred (EngineCall.Does e p)
  | .createEngineWithCheck _ => .isFalse id
  | .work _ _ => inferInstanceAs (Decidable (_ ∧ _))

namespace SharedManager

/-- The transactions recorded for an engine. -/
def recorded (s : SharedManager) (e : Nat) : Nat :=
  Table.countWith (· = e) s.clientEngines

/-- The calls that work with an engine, in a phase of some kind. -/
def working (s : SharedManager) (e : Nat) (p : EngineWork → Bool) : Nat :=
  Table.countWith (EngineCall.Does e p) s.call

/-- The engine that `DelEngine` is about to erase, for a call that is. -/
def erasedBy (s : SharedManager) (transactionId : Int64) : Option Nat :=
  match s.call.lookup transactionId with
  | some (.work engine .delEngine) =>
      (s.engine.lookup engine).bind fun x => s.engines.lookup x.plugin.key
  | _ => none

/-- What `DelEngine` erases has a count of zero, and no `StartEngine` has
found it that has not counted itself. -/
def erasesUnused (s : SharedManager) : ManagerStep → Prop
  | .proceed transactionId _ => ∀ e ∈ s.erasedBy transactionId,
      (s.engine.lookup e).map (·.refCount) = some 0 ∧
        s.working e EngineWork.isUncounted = 0
  | .startEngine _ _ => True
  | .stopEngine _ => True

instance (s : SharedManager) : ∀ i, Decidable (s.erasesUnused i)
  | .proceed transactionId _ =>
      inferInstanceAs (Decidable (∀ e ∈ s.erasedBy transactionId, _))
  | .startEngine _ _ => .isTrue trivial
  | .stopEngine _ => .isTrue trivial

/-- Something leads to the engine. -/
def Live (s : SharedManager) (e : Nat) : Prop :=
  (∃ key, s.engines.lookup key = some e) ∨
  (∃ tid, s.clientEngines.lookup tid = some e) ∨
  ∃ tid phase, s.call.lookup tid = some (.work e phase)

/-- Something leads to the plugin. -/
def Loaded (s : SharedManager) (p : SharedPlugin) : Prop :=
  (∃ key, s.pluginMap.lookup key = some p) ∨
  ∃ e x, s.Live e ∧ s.engine.lookup e = some x ∧ x.plugin = p

/-- Recorded engines are filed under their keys, no key has two engines or
two plugins, and the engines count their transactions. -/
structure OneEach (s : SharedManager) : Prop where
  filed : ∀ tid e, s.clientEngines.lookup tid = some e →
    ∃ x, s.engine.lookup e = some x ∧ s.engines.lookup x.plugin.key = some e
  oneEngine : ∀ e f x y, s.Live e → s.Live f → s.engine.lookup e = some x →
    s.engine.lookup f = some y → x.plugin.key = y.plugin.key → e = f
  onePlugin : ∀ p q, s.Loaded p → s.Loaded q → p.key = q.key → p = q
  counted : ∀ e x, s.Live e → s.engine.lookup e = some x →
    x.refCount = s.recorded e

/-- A transaction that is not being stopped, or a `StartEngine`, uses the
engine. -/
def InUse (s : SharedManager) (e : Nat) : Prop :=
  (∃ tid, s.clientEngines.lookup tid = some e ∧
    ∀ phase, s.call.lookup tid = some (.work e phase) →
      phase.isReleased = false) ∨
  ∃ tid phase, s.call.lookup tid = some (.work e phase) ∧
    phase.isStart = true

structure Kept (s : SharedManager) : Prop where
  engineLt : ∀ e x, s.engine.lookup e = some x → e < s.engineNum
  worked : ∀ tid e phase, s.call.lookup tid = some (.work e phase) →
    ∃ x, s.engine.lookup e = some x
  recorded : ∀ tid e, s.clientEngines.lookup tid = some e →
    ∃ x, s.engine.lookup e = some x
  stopping : ∀ tid e phase, s.call.lookup tid = some (.work e phase) →
    phase.isStart = false → s.clientEngines.lookup tid = some e
  starting : ∀ tid e phase, s.call.lookup tid = some (.work e phase) →
    phase.isStart = true → s.clientEngines.lookup tid = none
  creating : ∀ tid key,
    s.call.lookup tid = some (.createEngineWithCheck key) →
      s.clientEngines.lookup tid = none
  filed : ∀ key e, s.engines.lookup key = some e →
    ∃ x, s.engine.lookup e = some x ∧ x.plugin.key = key
  loaded : ∀ key p, s.pluginMap.lookup key = some p → p.key = key
  plugin : ∀ key e x p, s.engines.lookup key = some e →
    s.engine.lookup e = some x → s.pluginMap.lookup key = some p →
      x.plugin = p
  counted : ∀ e x, s.engine.lookup e = some x →
    x.refCount + s.working e EngineWork.isReleased =
      s.recorded e + s.working e EngineWork.isCounted
  inUse : ∀ e x, s.engine.lookup e = some x → s.InUse e →
    s.engines.lookup x.plugin.key = some e

variable {s s' : SharedManager} {tid : Int64} {e : Nat} {x : SharedEngine}

theorem Kept.initial : Kept .initial where
  engineLt _ _ h := by cases h
  worked _ _ _ h := by cases h
  recorded _ _ h := by cases h
  stopping _ _ _ h := by cases h
  starting _ _ _ h := by cases h
  creating _ _ h := by cases h
  filed _ _ h := by cases h
  loaded _ _ h := by cases h
  plugin _ _ _ _ h := by cases h
  counted _ _ h := by cases h
  inUse _ _ h := by cases h

/-- Whoever has taken its count away is still recorded. -/
theorem Kept.released_subset (h : s.Kept) (e : Nat) :
    Table.keysWith (EngineCall.Does e EngineWork.isReleased) s.call ⊆
      Table.keysWith (· = e) s.clientEngines := by
  intro tid hmem
  obtain ⟨call, hcall, hdoes⟩ := (Table.mem_keysWith _).mp hmem
  refine (Table.mem_keysWith _).mpr ⟨e, ?_, rfl⟩
  cases call with
  | createEngineWithCheck key => exact hdoes.elim
  | work engine phase =>
      obtain ⟨rfl, hphase⟩ := hdoes
      exact h.stopping tid engine phase hcall
        (EngineWork.isStart_of_isReleased hphase)

theorem Kept.released_le (h : s.Kept) (e : Nat) :
    s.working e EngineWork.isReleased ≤ s.recorded e :=
  Finset.card_le_card (h.released_subset e)

/-- An engine with a count of zero that no `StartEngine` is about to count
itself for is not used. -/
theorem Kept.not_inUse (h : s.Kept) (hx : s.engine.lookup e = some x)
    (hzero : x.refCount = 0)
    (hnone : s.working e EngineWork.isUncounted = 0) : ¬ s.InUse e := by
  have hcounted := h.counted e x hx
  have hle := h.released_le e
  rintro (⟨tid, hrec, hnot⟩ | ⟨tid, phase, hcall, hstart⟩)
  · have hmem : tid ∈ Table.keysWith (· = e) s.clientEngines :=
      (Table.mem_keysWith _).mpr ⟨e, hrec, rfl⟩
    have hlt : s.working e EngineWork.isReleased < s.recorded e := by
      refine Finset.card_lt_card ⟨h.released_subset e, fun hsub => ?_⟩
      obtain ⟨call, hcall, hdoes⟩ := (Table.mem_keysWith _).mp (hsub hmem)
      cases call with
      | createEngineWithCheck key => exact hdoes
      | work engine phase =>
          obtain ⟨rfl, hphase⟩ := hdoes
          rw [hnot phase hcall] at hphase
          cases hphase
    omega
  · cases hcase : phase.isUncounted with
    | true =>
        exact (Table.countWith_eq_zero _).mp hnone tid _ hcall ⟨rfl, hcase⟩
    | false =>
        have hphase : phase.isCounted = true :=
          EngineWork.isCounted_of_isStart hstart hcase
        have hpos : 0 < s.working e EngineWork.isCounted :=
          (Table.countWith_pos _).mpr ⟨tid, _, hcall, rfl, hphase⟩
        omega

/-- With no call under way, an engine that something leads to is filed. -/
theorem Kept.filed_of_live (h : s.Kept) (hrest : s.call = ∅)
    (hlive : s.Live e) (hx : s.engine.lookup e = some x) :
    s.engines.lookup x.plugin.key = some e := by
  have hnone (tid : Int64) : s.call.lookup tid = none := hrest ▸ rfl
  obtain ⟨key, hkey⟩ | ⟨tid, hrec⟩ | ⟨tid, phase, hcall⟩ := hlive
  · obtain ⟨y, hy, rfl⟩ := h.filed key e hkey
    rw [← Option.some.inj (hx.symm.trans hy)] at hkey
    exact hkey
  · refine h.inUse e x hx (.inl ⟨tid, hrec, fun phase hcall => ?_⟩)
    rw [hnone] at hcall
    cases hcall
  · rw [hnone] at hcall
    cases hcall

theorem Kept.oneEach (h : s.Kept) (hrest : s.call = ∅) : s.OneEach where
  filed tid e hrec := by
    obtain ⟨x, hx⟩ := h.recorded tid e hrec
    exact ⟨x, hx, h.filed_of_live hrest (.inr (.inl ⟨tid, hrec⟩)) hx⟩
  oneEngine e f x y he hf hx hy hkey := by
    have hfiled := h.filed_of_live hrest he hx
    rw [hkey, h.filed_of_live hrest hf hy] at hfiled
    exact (Option.some.inj hfiled).symm
  onePlugin p q hp hq hkey := by
    obtain ⟨k, hp⟩ | ⟨e, x, he, hx, rfl⟩ := hp <;>
      obtain ⟨l, hq⟩ | ⟨f, y, hf, hy, rfl⟩ := hq
    · rw [← h.loaded k p hp, hkey, h.loaded l q hq, hq] at hp
      exact (Option.some.inj hp).symm
    · rw [← h.loaded k p hp, hkey] at hp
      exact (h.plugin _ f y p (h.filed_of_live hrest hf hy) hy hp).symm
    · rw [← h.loaded l q hq, ← hkey] at hq
      exact h.plugin _ e x q (h.filed_of_live hrest he hx) hx hq
    · have hfiled := h.filed_of_live hrest he hx
      rw [hkey, h.filed_of_live hrest hf hy] at hfiled
      obtain rfl := Option.some.inj hfiled
      rw [Option.some.inj (hx.symm.trans hy)]
  counted e x _ hx := by
    have hnone (p : EngineWork → Bool) : s.working e p = 0 := by
      rw [working, hrest]
      exact Table.countWith_empty _
    have hcounted := h.counted e x hx
    rw [hnone, hnone] at hcounted
    simpa using hcounted

/-! ## A call that goes on with its engine

A call has found its engine, or made it, and counts it a step later. Until
then the engine is held by the call, which is what the invariant counts
besides the references. -/

theorem lookup_setCall (call : EngineCall) (t : Int64) :
    (s.setCall tid call).call.lookup t =
      if t = tid then some call else s.call.lookup t :=
  Table.lookup_insert_if s.call tid t call

theorem exists_addToRefCount (n : Int) {f : Nat}
    (hf : ∃ y, s.engine.lookup f = some y) :
    ∃ y, (s.addToRefCount e x n).engine.lookup f = some y := by
  rw [addToRefCount, Table.lookup_insert_if]
  split
  · exact ⟨_, rfl⟩
  · exact hf

theorem plugin_of_addToRefCount {n : Int} (hx : s.engine.lookup e = some x)
    {f : Nat} {y : SharedEngine}
    (hy : (s.addToRefCount e x n).engine.lookup f = some y) :
    ∃ z, s.engine.lookup f = some z ∧ z.plugin = y.plugin := by
  rw [addToRefCount, Table.lookup_insert_if] at hy
  split at hy
  · next heq =>
      cases hy
      exact ⟨x, heq ▸ hx, rfl⟩
  · exact ⟨y, hy, rfl⟩

theorem working_move {phase : EngineWork}
    (hcall : s.call.lookup tid = some (.work e phase)) (next : EngineWork)
    (p : EngineWork → Bool) :
    (s.setCall tid (.work e next)).working e p + (p phase).toNat =
      s.working e p + (p next).toNat := by
  have hcount := Table.countWith_update (EngineCall.Does e p) (.work e next)
    hcall
  have htoNat (b : Bool) : b.toNat = if b then 1 else 0 := by cases b <;> rfl
  simp only [EngineCall.Does, true_and] at hcount
  rw [htoNat, htoNat]
  exact hcount

theorem working_move_of_ne {phase : EngineWork}
    (hcall : s.call.lookup tid = some (.work e phase)) (next : EngineWork)
    (p : EngineWork → Bool) {f : Nat} (hf : f ≠ e) :
    (s.setCall tid (.work e next)).working f p = s.working f p := by
  have hcount := Table.countWith_update (EngineCall.Does f p) (.work e next)
    hcall
  simp only [EngineCall.Does, hf.symm, false_and, if_false] at hcount
  exact hcount

theorem InUse.of_move {phase next : EngineWork}
    (hcall : s.call.lookup tid = some (.work e phase))
    (hstart : next.isStart = phase.isStart)
    (hreleased : phase.isReleased = true → next.isReleased = true) {f : Nat}
    (h : (s.setCall tid (.work e next)).InUse f) : s.InUse f := by
  obtain ⟨t, hrec, hnot⟩ | ⟨t, φ, ht, hφ⟩ := h
  · refine .inl ⟨t, hrec, fun φ hφ => ?_⟩
    by_cases heq : t = tid
    · subst heq
      cases hcall.symm.trans hφ
      have hnext := hnot next (by rw [lookup_setCall, if_pos rfl])
      by_contra hno
      rw [hreleased (Bool.not_eq_false _ ▸ hno)] at hnext
      cases hnext
    · exact hnot φ (by rw [lookup_setCall, if_neg heq, hφ])
  · rw [lookup_setCall] at ht
    split at ht
    · cases ht
      exact .inr ⟨tid, phase, hcall, hstart ▸ hφ⟩
    · exact .inr ⟨t, φ, ht, hφ⟩

/-- A call goes on to another phase, with a change of the count that makes up
for it. -/
theorem Kept.move (h : s.Kept) {phase next : EngineWork} {n : Int}
    (hcall : s.call.lookup tid = some (.work e phase))
    (hx : s.engine.lookup e = some x)
    (hstart : next.isStart = phase.isStart)
    (hreleased : phase.isReleased = true → next.isReleased = true)
    (hcount : n + next.isReleased.toNat + phase.isCounted.toNat =
      phase.isReleased.toNat + next.isCounted.toNat) :
    ((s.addToRefCount e x n).setCall tid (.work e next)).Kept where
  engineLt f y hy := by
    obtain ⟨z, hz, _⟩ := plugin_of_addToRefCount hx hy
    exact h.engineLt f z hz
  worked t f φ ht := by
    rw [lookup_setCall] at ht
    split at ht
    · cases ht
      exact exists_addToRefCount n ⟨x, hx⟩
    · exact exists_addToRefCount n (h.worked t f φ ht)
  recorded t f hrec := exists_addToRefCount n (h.recorded t f hrec)
  stopping t f φ ht hφ := by
    rw [lookup_setCall] at ht
    split at ht
    · next heq =>
        cases ht
        exact heq ▸ h.stopping tid e phase hcall (hstart ▸ hφ)
    · exact h.stopping t f φ ht hφ
  starting t f φ ht hφ := by
    rw [lookup_setCall] at ht
    split at ht
    · next heq =>
        cases ht
        exact heq ▸ h.starting tid e phase hcall (hstart ▸ hφ)
    · exact h.starting t f φ ht hφ
  creating t key ht := by
    rw [lookup_setCall] at ht
    split at ht
    · cases ht
    · exact h.creating t key ht
  filed key f hf := by
    obtain ⟨y, hy, hkey⟩ := h.filed key f hf
    obtain ⟨z, hz⟩ := exists_addToRefCount (e := e) (x := x) n ⟨y, hy⟩
    obtain ⟨y', hy', hplugin⟩ := plugin_of_addToRefCount hx hz
    cases hy.symm.trans hy'
    exact ⟨z, hz, hplugin ▸ hkey⟩
  loaded := h.loaded
  plugin key f y p hf hy hp := by
    obtain ⟨z, hz, hplugin⟩ := plugin_of_addToRefCount hx hy
    exact hplugin ▸ h.plugin key f z p hf hz hp
  counted f y hy := by
    have hadd : (s.addToRefCount e x n).call.lookup tid =
        some (.work e phase) := hcall
    change (s.addToRefCount e x n).engine.lookup f = some y at hy
    rw [addToRefCount, Table.lookup_insert_if] at hy
    split at hy
    · next heq =>
        cases hy
        subst heq
        have hold := h.counted f x hx
        have hrel := working_move hadd next EngineWork.isReleased
        have hcnt := working_move hadd next EngineWork.isCounted
        change _ = s.working f _ + _ at hrel hcnt
        change x.refCount + n + _ = (s.recorded f : Int) + _
        omega
    · next hne =>
        rw [working_move_of_ne hadd next _ hne,
          working_move_of_ne hadd next _ hne]
        exact h.counted f y hy
  inUse f y hy huse := by
    obtain ⟨z, hz, hplugin⟩ := plugin_of_addToRefCount hx hy
    exact hplugin ▸ h.inUse f z hz
      (InUse.of_move (s := s) hcall hstart hreleased huse)

theorem addToRefCount_zero (hx : s.engine.lookup e = some x) :
    s.addToRefCount e x 0 = s := by
  have hsame : s.engine.insert e { x with refCount := x.refCount + 0 } =
      s.engine := by
    refine Finmap.ext_lookup fun f => ?_
    rw [Table.lookup_insert_if, Int.add_zero]
    split
    · next heq => exact heq ▸ hx.symm
    · rfl
  rw [addToRefCount, hsame]

theorem Kept.moveOn (h : s.Kept) {phase next : EngineWork}
    (hcall : s.call.lookup tid = some (.work e phase))
    (hstart : next.isStart = phase.isStart)
    (hreleased : next.isReleased = phase.isReleased)
    (hcounted : next.isCounted = phase.isCounted) :
    (s.setCall tid (.work e next)).Kept := by
  obtain ⟨x, hx⟩ := h.worked tid e phase hcall
  have hmove := h.move (n := 0) hcall hx hstart
    (fun hphase => hreleased ▸ hphase)
    (by rw [hreleased, hcounted, Int.zero_add])
  rwa [addToRefCount_zero hx] at hmove

/-- A transaction has no engine in a call. -/
def NoWork (s : SharedManager) (tid : Int64) : Prop :=
  ∀ e phase, s.call.lookup tid ≠ some (.work e phase)

theorem noWork_of_notMem (h : tid ∉ s.call) : s.NoWork tid :=
  fun _ _ hcall => h (Table.mem_of_lookup hcall)

theorem noWork_of_creating {key : EngineKey}
    (h : s.call.lookup tid = some (.createEngineWithCheck key)) :
    s.NoWork tid :=
  fun _ _ hcall => nomatch h.symm.trans hcall

theorem NoWork.not_does (h : s.NoWork tid) (f : Nat)
    (p : EngineWork → Bool) :
    ∀ call, s.call.lookup tid = some call → ¬ call.Does f p
  | .createEngineWithCheck _, _ => id
  | .work e phase, hcall => (h e phase hcall).elim

/-- A call that neither has counted itself nor has taken its count away does
not matter to the count. -/
theorem NoWork.working_setCall (h : s.NoWork tid) {call : EngineCall}
    {f : Nat} {p : EngineWork → Bool} (hnot : ¬ call.Does f p) :
    (s.setCall tid call).working f p = s.working f p := by
  have hcount := Table.countWith_insert_of_not (EngineCall.Does f p) call
    (h.not_does f p)
  rw [if_neg hnot] at hcount
  exact hcount

/-- A call gets an engine that is in the map, to start or to stop it. -/
theorem Kept.enter (h : s.Kept) (hfree : s.NoWork tid) {phase : EngineWork}
    (hx : s.engine.lookup e = some x)
    (hfiled : s.engines.lookup x.plugin.key = some e)
    (hreleased : phase.isReleased = false)
    (hcounted : phase.isCounted = false)
    (hclient : s.clientEngines.lookup tid =
      if phase.isStart then none else some e) :
    (s.setCall tid (.work e phase)).Kept where
  engineLt := h.engineLt
  worked t f φ ht := by
    rw [lookup_setCall] at ht
    split at ht
    · cases ht
      exact ⟨x, hx⟩
    · exact h.worked t f φ ht
  recorded := h.recorded
  stopping t f φ ht hφ := by
    rw [lookup_setCall] at ht
    split at ht
    · next heq =>
        cases ht
        exact heq ▸ hclient.trans (by rw [hφ]; rfl)
    · exact h.stopping t f φ ht hφ
  starting t f φ ht hφ := by
    rw [lookup_setCall] at ht
    split at ht
    · next heq =>
        cases ht
        exact heq ▸ hclient.trans (by rw [hφ]; rfl)
    · exact h.starting t f φ ht hφ
  creating t key ht := by
    rw [lookup_setCall] at ht
    split at ht
    · cases ht
    · exact h.creating t key ht
  filed := h.filed
  loaded := h.loaded
  plugin := h.plugin
  counted f y hy := by
    have hnot (p : EngineWork → Bool) (hp : p phase = false) :
        ¬ (EngineCall.work e phase).Does f p := fun hdoes =>
      Bool.false_ne_true (hp.symm.trans hdoes.2)
    rw [hfree.working_setCall (hnot _ hreleased),
      hfree.working_setCall (hnot _ hcounted)]
    exact h.counted f y hy
  inUse f y hy huse := by
    by_cases hf : f = e
    · subst hf
      cases hx.symm.trans hy
      exact hfiled
    · refine h.inUse f y hy ?_
      obtain ⟨t, hrec, hnot⟩ | ⟨t, φ, ht, hφ⟩ := huse
      · refine .inl ⟨t, hrec, fun φ hφ => ?_⟩
        by_cases heq : t = tid
        · exact absurd hφ (heq ▸ hfree f φ)
        · exact hnot φ (by rw [lookup_setCall, if_neg heq, hφ])
      · rw [lookup_setCall] at ht
        split at ht
        · cases ht
          exact absurd rfl hf
        · exact .inr ⟨t, φ, ht, hφ⟩

theorem Kept.sameWork (h : s.Kept) {call : Table Int64 EngineCall}
    (hsame : ∀ t f φ, call.lookup t = some (.work f φ) ↔
      s.call.lookup t = some (.work f φ))
    (hcreating : ∀ t key,
      call.lookup t = some (.createEngineWithCheck key) →
        s.clientEngines.lookup t = none) :
    ({ s with call } : SharedManager).Kept where
  engineLt := h.engineLt
  worked t f φ ht := h.worked t f φ ((hsame t f φ).mp ht)
  recorded := h.recorded
  stopping t f φ ht := h.stopping t f φ ((hsame t f φ).mp ht)
  starting t f φ ht := h.starting t f φ ((hsame t f φ).mp ht)
  creating := hcreating
  filed := h.filed
  loaded := h.loaded
  plugin := h.plugin
  counted f y hy := by
    have hworking (p : EngineWork → Bool) :
        ({ s with call } : SharedManager).working f p = s.working f p := by
      refine congrArg Finset.card (Finset.ext fun t => ?_)
      rw [Table.mem_keysWith, Table.mem_keysWith]
      constructor <;> rintro ⟨_ | ⟨g, φ⟩, ht, hdoes⟩
      · exact hdoes.elim
      · exact ⟨_, (hsame t g φ).mp ht, hdoes⟩
      · exact hdoes.elim
      · exact ⟨_, (hsame t g φ).mpr ht, hdoes⟩
    rw [hworking, hworking]
    exact h.counted f y hy
  inUse f y hy huse := by
    refine h.inUse f y hy ?_
    obtain ⟨t, hrec, hnot⟩ | ⟨t, φ, ht, hφ⟩ := huse
    · exact .inl ⟨t, hrec, fun φ hφ => hnot φ ((hsame t f φ).mpr hφ)⟩
    · exact .inr ⟨t, φ, (hsame t f φ).mp ht, hφ⟩

theorem Kept.startCreating (h : s.Kept) (hfree : s.NoWork tid)
    (hclient : s.clientEngines.lookup tid = none) (key : EngineKey) :
    (s.setCall tid (.createEngineWithCheck key)).Kept := by
  refine h.sameWork (fun t f φ => ?_) fun t key' ht => ?_
  · rw [Table.lookup_insert_if]
    split
    · next heq =>
        exact ⟨fun hc => (nomatch hc), fun hc => (hfree f φ (heq ▸ hc)).elim⟩
    · exact Iff.rfl
  · rw [Table.lookup_insert_if] at ht
    split at ht
    · next heq => exact heq ▸ hclient
    · exact h.creating t key' ht

theorem lookup_endCall (t : Int64) :
    (s.endCall tid).call.lookup t =
      if t = tid then none else s.call.lookup t :=
  Table.lookup_erase_if s.call tid t

theorem Kept.endCreating (h : s.Kept) (hfree : s.NoWork tid) :
    (s.endCall tid).Kept := by
  refine h.sameWork (fun t f φ => ?_) fun t key ht => ?_
  · rw [Table.lookup_erase_if]
    split
    · next heq =>
        exact ⟨fun hc => (nomatch hc), fun hc => (hfree f φ (heq ▸ hc)).elim⟩
    · exact Iff.rfl
  · rw [Table.lookup_erase_if] at ht
    split at ht
    · cases ht
    · exact h.creating t key ht

/-! ## A creation

Where no engine has the key, one lock is held from the look for the plugin to
the entry of the new engine, so that no other thread comes in between. -/

theorem Kept.addPlugin (h : s.Kept) {p : SharedPlugin}
    (hnone : s.engines.lookup p.key = none) (num : Nat) :
    ({ s with
      pluginMap := s.pluginMap.insert p.key p
      pluginNum := num } : SharedManager).Kept :=
  { h with
    loaded := fun key q hq => by
      rw [Table.lookup_insert_if] at hq
      split at hq
      · next heq =>
          cases hq
          exact heq.symm
      · exact h.loaded key q hq
    plugin := fun key f y q hf hy hq => by
      rw [Table.lookup_insert_if] at hq
      split at hq
      · next heq => exact nomatch (heq ▸ hnone).symm.trans hf
      · exact h.plugin key f y q hf hy hq }

theorem Kept.getPlugin (h : s.Kept) {key : EngineKey}
    (hnone : s.engines.lookup key = none) (loaded : Bool) :
    (s.getPlugin key loaded).2.Kept := by
  simp only [SharedManager.getPlugin]
  split
  · exact h
  · split
    · exact h.addPlugin (p := ⟨s.pluginNum, key.aid, key.version⟩) hnone _
    · exact h

/-- Only the plugins change. -/
theorem getPlugin_frame {key : EngineKey} {loaded : Bool}
    {plugin : Option SharedPlugin}
    (hget : s.getPlugin key loaded = (plugin, s')) :
    s'.engines = s.engines ∧ s'.clientEngines = s.clientEngines ∧
      s'.call = s.call := by
  simp only [SharedManager.getPlugin] at hget
  split at hget
  · cases hget
    exact ⟨rfl, rfl, rfl⟩
  · split at hget <;>
      · cases hget
        exact ⟨rfl, rfl, rfl⟩

theorem Kept.lookup_getPlugin (h : s.Kept) {key : EngineKey} {loaded : Bool}
    {p : SharedPlugin} (hget : s.getPlugin key loaded = (some p, s')) :
    p.key = key ∧ s'.pluginMap.lookup key = some p := by
  simp only [SharedManager.getPlugin] at hget
  split at hget
  · next q hq =>
      cases hget
      exact ⟨h.loaded key p hq, hq⟩
  · split at hget
    · cases hget
      exact ⟨rfl, Finmap.lookup_insert _⟩
    · cases hget

/-- Nothing leads to an engine that is still to be made. -/
theorem Kept.working_engineNum (h : s.Kept) (p : EngineWork → Bool) :
    s.working s.engineNum p = 0 := by
  refine (Table.countWith_eq_zero _).mpr fun t call ht hdoes => ?_
  cases call with
  | createEngineWithCheck key => exact hdoes
  | work f φ =>
      obtain ⟨y, hy⟩ := h.worked t f φ ht
      exact Nat.ne_of_lt (h.engineLt f y hy) hdoes.1

theorem Kept.recorded_engineNum (h : s.Kept) :
    s.recorded s.engineNum = 0 := by
  refine (Table.countWith_eq_zero _).mpr fun t f ht hf => ?_
  obtain ⟨y, hy⟩ := h.recorded t f ht
  exact Nat.ne_of_lt (h.engineLt f y hy) hf

/-- `Engine(plugin, thread, queue)`, filed under the key of its plugin. -/
def addEngine (s : SharedManager) (p : SharedPlugin) : SharedManager :=
  { s with
    engine := s.engine.insert s.engineNum ⟨0, p⟩
    engineNum := s.engineNum + 1
    engines := s.engines.insert p.key s.engineNum }

theorem Kept.lookup_addEngine (h : s.Kept) {p : SharedPlugin} {f : Nat}
    {y : SharedEngine} (hy : s.engine.lookup f = some y) :
    (s.addEngine p).engine.lookup f = some y := by
  rw [addEngine, Finmap.lookup_insert_of_ne _
    (Nat.ne_of_lt (h.engineLt f y hy))]
  exact hy

theorem Kept.addEngine (h : s.Kept) {p : SharedPlugin}
    (hp : s.pluginMap.lookup p.key = some p)
    (hnone : s.engines.lookup p.key = none) : (s.addEngine p).Kept where
  engineLt f y hy := by
    rw [SharedManager.addEngine, Table.lookup_insert_if] at hy
    split at hy
    · next heq => exact heq ▸ Nat.lt_succ_self _
    · exact Nat.lt_succ_of_lt (h.engineLt f y hy)
  worked t f φ ht := by
    obtain ⟨y, hy⟩ := h.worked t f φ ht
    exact ⟨y, h.lookup_addEngine hy⟩
  recorded t f ht := by
    obtain ⟨y, hy⟩ := h.recorded t f ht
    exact ⟨y, h.lookup_addEngine hy⟩
  stopping := h.stopping
  starting := h.starting
  creating := h.creating
  filed key f hf := by
    rw [SharedManager.addEngine, Table.lookup_insert_if] at hf
    split at hf
    · next heq =>
        cases hf
        exact ⟨⟨0, p⟩, Finmap.lookup_insert _, heq.symm⟩
    · obtain ⟨y, hy, hkey⟩ := h.filed key f hf
      exact ⟨y, h.lookup_addEngine hy, hkey⟩
  loaded := h.loaded
  plugin key f y q hf hy hq := by
    rw [SharedManager.addEngine, Table.lookup_insert_if] at hf
    split at hf
    · next heq =>
        cases hf
        rw [SharedManager.addEngine, Finmap.lookup_insert] at hy
        cases hy
        exact Option.some.inj (hp.symm.trans (heq ▸ hq))
    · obtain ⟨z, hz, _⟩ := h.filed key f hf
      cases (h.lookup_addEngine (p := p) hz).symm.trans hy
      exact h.plugin key f y q hf hz hq
  counted f y hy := by
    rw [SharedManager.addEngine, Table.lookup_insert_if] at hy
    split at hy
    · next heq =>
        cases hy
        subst heq
        change (0 : Int) + s.working s.engineNum _ =
          s.recorded s.engineNum + s.working s.engineNum _
        rw [h.working_engineNum, h.working_engineNum, h.recorded_engineNum]
        rfl
    · exact h.counted f y hy
  inUse f y hy huse := by
    rw [SharedManager.addEngine, Table.lookup_insert_if] at hy
    split at hy
    · next heq =>
        cases hy
        exact heq ▸ Finmap.lookup_insert _
    · have hfiled := h.inUse f y hy huse
      rw [SharedManager.addEngine, Finmap.lookup_insert_of_ne]
      · exact hfiled
      · intro heq
        rw [heq, hnone] at hfiled
        cases hfiled

theorem Kept.createEngineWithCheck (h : s.Kept) {key : EngineKey}
    (hcall : s.call.lookup tid = some (.createEngineWithCheck key))
    (env : CreationEnv) : (s.createEngineWithCheck tid key env).Kept := by
  have hfree := noWork_of_creating hcall
  have hclient := h.creating tid key hcall
  simp only [SharedManager.createEngineWithCheck]
  split
  · next f hf =>
      obtain ⟨y, hy, rfl⟩ := h.filed key f hf
      exact h.enter hfree hy hf rfl rfl hclient
  · next hnone =>
      have hgot := h.getPlugin hnone env.loaded
      split
      · next s₁ hget =>
          rw [hget] at hgot
          obtain ⟨_, _, hsame⟩ := getPlugin_frame hget
          exact hgot.endCreating (noWork_of_creating (hsame ▸ hcall))
      · next plugin s₁ hget =>
          rw [hget] at hgot
          obtain ⟨hengines, hclients, hsame⟩ := getPlugin_frame hget
          obtain ⟨rfl, hplugin⟩ := h.lookup_getPlugin hget
          have hfree₁ := noWork_of_creating (hsame ▸ hcall)
          split
          · have hadd := hgot.addEngine hplugin (hengines ▸ hnone)
            have hwork : (s₁.addEngine plugin).NoWork tid := hfree₁
            exact hadd.enter hwork (Finmap.lookup_insert _)
              (Finmap.lookup_insert _) rfl rfl (hclients ▸ hclient)
          · exact hgot.endCreating hfree₁

theorem working_endCall {phase : EngineWork}
    (hcall : s.call.lookup tid = some (.work e phase)) (f : Nat)
    (p : EngineWork → Bool) :
    (s.endCall tid).working f p + (if e = f ∧ p phase then 1 else 0) =
      s.working f p := by
  have hcount := Table.countWith_erase (EngineCall.Does f p) hcall
  exact hcount

theorem call_of_endCall {t : Int64} {call : EngineCall}
    (ht : (s.endCall tid).call.lookup t = some call) :
    t ≠ tid ∧ s.call.lookup t = some call := by
  rw [lookup_endCall] at ht
  split at ht
  · cases ht
  · next hne => exact ⟨hne, ht⟩

theorem Kept.recordClient (h : s.Kept)
    (hcall : s.call.lookup tid = some (.work e .recordClient)) :
    ({ s.endCall tid with
      clientEngines := s.clientEngines.insert tid e } : SharedManager).Kept where
  engineLt := h.engineLt
  worked t f φ ht := h.worked t f φ (call_of_endCall ht).2
  recorded t f ht := by
    rw [Table.lookup_insert_if] at ht
    split at ht
    · cases ht
      exact h.worked tid e _ hcall
    · exact h.recorded t f ht
  stopping t f φ ht hφ := by
    obtain ⟨hne, ht⟩ := call_of_endCall ht
    rw [Table.lookup_insert_if, if_neg hne]
    exact h.stopping t f φ ht hφ
  starting t f φ ht hφ := by
    obtain ⟨hne, ht⟩ := call_of_endCall ht
    rw [Table.lookup_insert_if, if_neg hne]
    exact h.starting t f φ ht hφ
  creating t key ht := by
    obtain ⟨hne, ht⟩ := call_of_endCall ht
    rw [Table.lookup_insert_if, if_neg hne]
    exact h.creating t key ht
  filed := h.filed
  loaded := h.loaded
  plugin := h.plugin
  counted f y hy := by
    have hold := h.counted f y hy
    have hrel := working_endCall hcall f EngineWork.isReleased
    have hcnt := working_endCall hcall f EngineWork.isCounted
    have hrec : Table.countWith (· = f) (s.clientEngines.insert tid e) =
        s.recorded f + if e = f then 1 else 0 :=
      Table.countWith_insert _ e (h.starting tid e _ hcall rfl)
    simp only [EngineWork.isReleased, EngineWork.isCounted, and_true,
      Bool.false_eq_true, and_false, if_false] at hrel hcnt
    change y.refCount + (s.endCall tid).working f _ =
      (Table.countWith (· = f) (s.clientEngines.insert tid e) : Int) +
        (s.endCall tid).working f _
    omega
  inUse f y hy huse := by
    refine h.inUse f y hy ?_
    obtain ⟨t, ht, hnot⟩ | ⟨t, φ, ht, hφ⟩ := huse
    · rw [Table.lookup_insert_if] at ht
      split at ht
      · cases ht
        exact .inr ⟨tid, _, hcall, rfl⟩
      · next hne =>
          refine .inl ⟨t, ht, fun φ hφ => hnot φ ?_⟩
          exact (lookup_endCall t).trans ((if_neg hne).trans hφ)
    · exact .inr ⟨t, φ, (call_of_endCall ht).2, hφ⟩

theorem Kept.unRecordClient (h : s.Kept)
    (hcall : s.call.lookup tid = some (.work e .unRecordClient)) :
    ({ s.endCall tid with
      clientEngines := s.clientEngines.erase tid } : SharedManager).Kept where
  engineLt := h.engineLt
  worked t f φ ht := h.worked t f φ (call_of_endCall ht).2
  recorded t f ht := by
    rw [Table.lookup_erase_if] at ht
    split at ht
    · cases ht
    · exact h.recorded t f ht
  stopping t f φ ht hφ := by
    obtain ⟨hne, ht⟩ := call_of_endCall ht
    rw [Table.lookup_erase_if, if_neg hne]
    exact h.stopping t f φ ht hφ
  starting t f φ ht hφ := by
    obtain ⟨hne, ht⟩ := call_of_endCall ht
    rw [Table.lookup_erase_if, if_neg hne]
    exact h.starting t f φ ht hφ
  creating t key ht := by
    obtain ⟨hne, ht⟩ := call_of_endCall ht
    rw [Table.lookup_erase_if, if_neg hne]
    exact h.creating t key ht
  filed := h.filed
  loaded := h.loaded
  plugin := h.plugin
  counted f y hy := by
    have hold := h.counted f y hy
    have hrel := working_endCall hcall f EngineWork.isReleased
    have hcnt := working_endCall hcall f EngineWork.isCounted
    have hrec : Table.countWith (· = f) (s.clientEngines.erase tid) +
        (if e = f then 1 else 0) = s.recorded f :=
      Table.countWith_erase _ (h.stopping tid e _ hcall rfl)
    simp only [EngineWork.isReleased, EngineWork.isCounted, and_true,
      Bool.false_eq_true, and_false, if_false] at hrel hcnt
    change y.refCount + (s.endCall tid).working f _ =
      (Table.countWith (· = f) (s.clientEngines.erase tid) : Int) +
        (s.endCall tid).working f _
    omega
  inUse f y hy huse := by
    refine h.inUse f y hy ?_
    obtain ⟨t, ht, hnot⟩ | ⟨t, φ, ht, hφ⟩ := huse
    · rw [Table.lookup_erase_if] at ht
      split at ht
      · cases ht
      · next hne =>
          refine .inl ⟨t, ht, fun φ hφ => hnot φ ?_⟩
          exact (lookup_endCall t).trans ((if_neg hne).trans hφ)
    · exact .inr ⟨t, φ, (call_of_endCall ht).2, hφ⟩

theorem Kept.delPlugin (h : s.Kept) (key : EngineKey) :
    ({ s with pluginMap := s.pluginMap.erase key } : SharedManager).Kept :=
  { h with
    loaded := fun l p hp => by
      rw [Table.lookup_erase_if] at hp
      split at hp
      · cases hp
      · exact h.loaded l p hp
    plugin := fun l f y p hf hy hp => by
      rw [Table.lookup_erase_if] at hp
      split at hp
      · cases hp
      · exact h.plugin l f y p hf hy hp }

/-- `DelEngine` takes out an engine that nobody uses. -/
theorem Kept.delEngine (h : s.Kept) (key : EngineKey)
    (hunused : ∀ f, s.engines.lookup key = some f →
      (s.engine.lookup f).map (·.refCount) = some 0 ∧
        s.working f EngineWork.isUncounted = 0) :
    ({ s with engines := s.engines.erase key } : SharedManager).Kept :=
  { h with
    filed := fun l f hf => by
      rw [Table.lookup_erase_if] at hf
      split at hf
      · cases hf
      · exact h.filed l f hf
    plugin := fun l f y p hf => by
      rw [Table.lookup_erase_if] at hf
      split at hf
      · cases hf
      · exact h.plugin l f y p hf
    inUse := fun f y hy huse => by
      have hfiled := h.inUse f y hy huse
      rw [Table.lookup_erase_if, if_neg]
      · exact hfiled
      · intro heq
        obtain ⟨hzero, hnone⟩ := hunused f (heq ▸ hfiled)
        rw [hy] at hzero
        exact h.not_inUse hy (Option.some.inj hzero) hnone huse }

theorem Kept.startEngine (h : s.Kept) (hcall : tid ∉ s.call)
    (hclient : tid ∉ s.clientEngines) (algoInfo : AlgorithmInfo) :
    (s.startEngine tid algoInfo).Kept := by
  have hfree := noWork_of_notMem hcall
  have hnone := Finmap.lookup_eq_none.mpr hclient
  simp only [SharedManager.startEngine]
  split
  · exact h
  · split
    · next f hf =>
        obtain ⟨y, hy, hkey⟩ := h.filed _ f hf
        exact h.enter hfree hy (hkey ▸ hf) rfl rfl hnone
    · exact h.startCreating hfree hnone _

theorem Kept.stopEngine (h : s.Kept) (hcall : tid ∉ s.call) :
    (s.stopEngine tid).Kept := by
  have hfree := noWork_of_notMem hcall
  simp only [SharedManager.stopEngine]
  split
  · exact h
  · next f hf =>
      obtain ⟨y, hy⟩ := h.recorded tid f hf
      have hfiled := h.inUse f y hy
        (.inl ⟨tid, hf, fun φ hφ => (hfree f φ hφ).elim⟩)
      exact h.enter hfree hy hfiled rfl rfl hf

theorem Kept.proceedWith (h : s.Kept) {phase : EngineWork}
    (hcall : s.call.lookup tid = some (.work e phase))
    (hx : s.engine.lookup e = some x)
    (hunused : ∀ f ∈ s.erasedBy tid,
      (s.engine.lookup f).map (·.refCount) = some 0 ∧
        s.working f EngineWork.isUncounted = 0) :
    (s.proceedWith tid e x phase).Kept := by
  cases phase with
  | prepare => exact h.moveOn hcall rfl rfl rfl
  | addReference => exact h.move hcall hx rfl id rfl
  | recordClient => exact h.recordClient hcall
  | readReference => exact h.moveOn hcall rfl rfl rfl
  | release isFullUnload => exact h.moveOn hcall rfl rfl rfl
  | delReference => exact h.move hcall hx rfl (fun _ => rfl) rfl
  | testReference =>
      simp only [SharedManager.proceedWith]
      split <;> exact h.moveOn hcall rfl rfl rfl
  | findPlugin =>
      simp only [SharedManager.proceedWith]
      split <;> exact h.moveOn hcall rfl rfl rfl
  | delPlugin => exact (h.delPlugin x.plugin.key).moveOn hcall rfl rfl rfl
  | delEngine =>
      refine (h.delEngine x.plugin.key fun f hf => ?_).moveOn hcall
        rfl rfl rfl
      refine hunused f ?_
      rw [erasedBy, hcall]
      simp only [hx, Option.bind_some]
      exact hf
  | unRecordClient => exact h.unRecordClient hcall

theorem Kept.take (h : s.Kept) {i : ManagerStep} (hok : s.erasesUnused i)
    (hstep : s.take i = some s') : s'.Kept := by
  cases i with
  | startEngine tid algoInfo =>
      simp only [SharedManager.take] at hstep
      split at hstep
      · next hfree =>
          cases hstep
          exact h.startEngine hfree.1 hfree.2 algoInfo
      · cases hstep
  | stopEngine tid =>
      simp only [SharedManager.take] at hstep
      split at hstep
      · next hfree =>
          cases hstep
          exact h.stopEngine hfree
      · cases hstep
  | proceed tid env =>
      simp only [SharedManager.take] at hstep
      split at hstep
      · next call hcall =>
          cases call with
          | createEngineWithCheck key =>
              cases hstep
              exact h.createEngineWithCheck hcall env
          | work e phase =>
              simp only [SharedManager.proceed] at hstep
              split at hstep
              · next x hx =>
                  cases hstep
                  exact h.proceedWith hcall hx hok
              · cases hstep
      · cases hstep

end SharedManager

/-- In every run in which `DelEngine` only takes out engines that nobody uses
or has found, a manager at rest has one engine and one plugin for each key,
every recorded engine among them, and every count right. -/
theorem reach_oneEach {s : SharedManager}
    (hs : managerMachine.Reach SharedManager.erasesUnused s) :
    s.call = ∅ → s.OneEach := by
  have h : s.Kept := hs.invariant (fun _ hs => hs ▸ .initial)
    fun _ _ _ h hok hstep => h.take hok hstep
  exact h.oneEach

def sampleAlgorithm : AlgorithmInfo :=
  { AlgorithmInfo.zero with algorithmVersion := 1 }

/-- Steps of a call that find all they need. -/
def proceedSteps (tid : Int64) (n : Nat) : List ManagerStep :=
  List.replicate n (.proceed tid ⟨true, true⟩)

/-- Two transactions start the same engine and stop it, one beside the
other. -/
def managerSample : List ManagerStep :=
  [.startEngine 1 sampleAlgorithm, .startEngine 2 sampleAlgorithm] ++
    proceedSteps 1 4 ++ proceedSteps 2 4 ++ [.stopEngine 1] ++
    proceedSteps 1 3 ++ [.stopEngine 2] ++ proceedSteps 1 2 ++
    proceedSteps 2 8

theorem reach_oneEach_sample : ∃ s,
    managerMachine.run SharedManager.erasesUnused .initial managerSample =
      some s ∧ s.engineNum = 1 ∧ s.OneEach := by
  have hrun : (managerMachine.run SharedManager.erasesUnused .initial
      managerSample).map (fun s => (s.call, s.engineNum)) = some (∅, 1) := by
    decide
  obtain ⟨s, hs, heq⟩ := Option.map_eq_some_iff.mp hrun
  obtain ⟨hrest, hnum⟩ := Prod.mk.inj heq
  exact ⟨s, hs, hnum, reach_oneEach (.of_run (.start rfl) hs) hrest⟩

/-- The second transaction finds the engine of the first, which is stopped
before the second has counted itself. -/
def erasedSample : List ManagerStep :=
  .startEngine 1 sampleAlgorithm :: proceedSteps 1 4 ++
    [.startEngine 2 sampleAlgorithm, .stopEngine 1] ++ proceedSteps 1 8 ++
    proceedSteps 2 3

/-- The transaction is recorded for an engine that is not in the map any more.
-/
theorem erased_not_oneEach :
    ¬ ∀ s, managerMachine.Reach Machine.anyStep s →
      s.call = ∅ → s.OneEach := by
  intro h
  have hrun : (managerMachine.run Machine.anyStep .initial erasedSample).map
      (fun s => (s.call, s.clientEngines.lookup 2, s.engines)) =
        some (∅, some 0, ∅) := by decide
  obtain ⟨s, hs, heq⟩ := Option.map_eq_some_iff.mp hrun
  obtain ⟨hrest, heq⟩ := Prod.mk.inj heq
  obtain ⟨hrec, hengines⟩ := Prod.mk.inj heq
  obtain ⟨x, hx, hfiled⟩ :=
    (h s (.of_run (.start rfl) hs) hrest).filed 2 0 hrec
  rw [hengines] at hfiled
  cases hfiled

end AiEngine.Ref
