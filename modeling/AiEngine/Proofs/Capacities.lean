import AiEngine.Proofs.InferMode
import AiEngine.Proofs.InitFailures
import AiEngine.Ref.TableSections

/-!
# How many clients, futures and sessions there are

The allocators take a table for full when it has more entries than its
capacity. So one that is exactly full is given one more, and what an
allocator says of it is wrong. A second way past the capacity is between the
two sections: a table with room for one entry has room for each call that
looks at it before the first of them enters anything. As long as no id is
looked for when the entries and the calls on their way take all places, the
tables keep to their capacities.
-/

namespace AiEngine.Ref

open AiEngine.Lib

theorem Service.findValidClientId_exhausted_iff (s : Service) :
    s.findValidClientId.1 = invalidClientId.toInt ↔
      maxNumClients < s.adapters.keys.card := by
  unfold findValidClientId
  split
  · next hfull => exact iff_of_true rfl hfull
  · next hroom =>
      refine iff_of_false (fun hid => ?_) hroom
      have hmin := (FreshId.search_bounds (s.adapters.keys.image Int32.toInt)
        s.clientIdAtomic (s.adapters.keys.image Int32.toInt).card
        (show startingClientId ≤ (intMax : Int) by decide)).1
      dsimp only at hid
      rw [hid] at hmin
      exact absurd hmin (by decide)

theorem FutureFactory.findSequenceId_exhausted_iff (f : FutureFactory) :
    f.findSequenceId.1 = invalidSequenceId ↔
      maxNumFutures < f.futures.keys.card := by
  unfold findSequenceId
  split
  · next hfull => exact iff_of_true rfl hfull
  · next hroom =>
      refine iff_of_false (fun hid => ?_) hroom
      have hmin := (FreshId.search_bounds f.futures.keys f.sequenceId
        f.futures.keys.card (show minSequenceId ≤ longLongMax by decide)).1
      dsimp only at hid
      rw [hid] at hmin
      exact absurd hmin (by decide)

/-! ## What a section does to the number of entries

Entries are made by `AddFuture`, `AddSessionInfo` and `AllocateClientAdapter`,
one at a time. Removals only take them away.
-/

namespace Service

theorem findValidClientId_adapters (s : Service) :
    s.findValidClientId.2.adapters = s.adapters := by
  unfold findValidClientId
  split <;> rfl

theorem allocateClientAdapter_card_le (s : Service) (newAdapter : Bool) :
    (s.allocateClientAdapter newAdapter).2.adapters.keys.card ≤
      s.adapters.keys.card + 1 := by
  unfold allocateClientAdapter
  split
  · exact Nat.le_succ _
  · rw [Table.keys_insert]
    exact Finset.card_insert_le ..

theorem removeAdapter_card_le (s : Service) (env : ServiceEnv) (d : Int32) :
    (s.removeAdapter env d).2.adapters.keys.card ≤ s.adapters.keys.card := by
  unfold removeAdapter
  split
  · exact Nat.le_refl _
  · split
    · next s' hexec =>
        obtain ⟨rfl, -⟩ := getExecutor_eq hexec
        rw [Finmap.keys_erase]
        exact Finset.card_erase_le
    · next s' hexec =>
        obtain ⟨rfl, -⟩ := getExecutor_eq hexec
        rw [Finmap.keys_erase]
        exact Finset.card_erase_le

end Service

namespace FutureFactory

theorem findSequenceId_futures (f : FutureFactory) :
    f.findSequenceId.2.futures = f.futures := by
  unfold findSequenceId
  split <;> rfl

theorem addFuture_card_le (f : FutureFactory) (sequenceId : Int)
    (request : Nat) (transactionId : Int64) :
    (f.addFuture sequenceId request transactionId).futures.keys.card ≤
      f.futures.keys.card + 1 := by
  rw [addFuture, Table.keys_insert]
  exact Finset.card_insert_le ..

theorem deleteFuture_card_le (f : FutureFactory) (sequenceId : Int) :
    (f.deleteFuture sequenceId).futures.keys.card ≤ f.futures.keys.card := by
  unfold deleteFuture
  split
  · exact Nat.le_refl _
  · rw [Finmap.keys_erase]
    exact Finset.card_erase_le

end FutureFactory

namespace ClientFactory

theorem generateSessionId_sessionInfos (f : ClientFactory) :
    f.generateSessionId.2.sessionInfos = f.sessionInfos := by
  obtain ⟨n, hn⟩ := f.generateSessionId_counter
  rw [hn]

theorem addSessionInfo_card_le (f : ClientFactory) (clientInfo : ClientInfo)
    (algorithmInfo : AlgorithmInfo) :
    (f.addSessionInfo clientInfo algorithmInfo).2.sessionInfos.keys.card ≤
      f.sessionInfos.keys.card + 1 := by
  rw [addSessionInfo, Table.keys_insertNew]
  exact Finset.card_insert_le ..

theorem eraseSessionInfo_card_le (f : ClientFactory) (sessionId : Int32) :
    (f.eraseSessionInfo sessionId).2.sessionInfos.keys.card ≤
      f.sessionInfos.keys.card := by
  unfold eraseSessionInfo
  split
  · rw [Finmap.keys_erase]
    exact Finset.card_erase_le
  · exact Nat.le_refl _

end ClientFactory

namespace TableSystem

/-- The tables keep to their capacities, and the allocators say of them
whether they are full. -/
structure WithinCapacities (s : TableSystem) : Prop where
  clients : s.service.adapters.keys.card ≤ maxNumClients
  futures : s.factory.futures.keys.card ≤ maxNumFutures
  sessions : s.client.sessionInfos.keys.card ≤ maximumNumberOfSession
  reports : ∀ r ∈ s.reports, r.exhausted = true ↔ r.capacity ≤ r.size

/-! ## Places that are taken

A call that got an id has taken a place, although its entry comes in a later
section. What a table must have room for is both its entries and these calls.
-/

def clientsTaken (s : TableSystem) : Nat :=
  s.service.adapters.keys.card + s.connecting.toNat

def futuresTaken (s : TableSystem) : Nat :=
  s.factory.futures.keys.card + s.creating.length

def sessionsTaken (s : TableSystem) : Nat :=
  s.client.sessionInfos.keys.card + s.initiating.length

/-- An allocator is asked for an id only where a place is left. -/
def keepsCapacity (s : TableSystem) : TableStep → Prop
  | .findValidClientId => s.clientsTaken < maxNumClients
  | .findSequenceId => s.futuresTaken < maxNumFutures
  | .generateSessionId => s.sessionsTaken < maximumNumberOfSession
  | _ => True

instance (s : TableSystem) (i : TableStep) : Decidable (s.keepsCapacity i) :=
  match i with
  | .findValidClientId => inferInstanceAs (Decidable (_ < _))
  | .findSequenceId => inferInstanceAs (Decidable (_ < _))
  | .generateSessionId => inferInstanceAs (Decidable (_ < _))
  | .allocateClientAdapter _ => inferInstanceAs (Decidable True)
  | .removeAdapter _ _ => inferInstanceAs (Decidable True)
  | .addFuture _ _ _ => inferInstanceAs (Decidable True)
  | .futureFailed _ => inferInstanceAs (Decidable True)
  | .deleteFuture _ => inferInstanceAs (Decidable True)
  | .addSessionInfo _ _ => inferInstanceAs (Decidable True)
  | .eraseSessionInfo _ => inferInstanceAs (Decidable True)

/-- Every place that is taken is one that the table has. -/
structure CapacitiesKept (s : TableSystem) : Prop where
  clients : s.clientsTaken ≤ maxNumClients
  futures : s.futuresTaken ≤ maxNumFutures
  sessions : s.sessionsTaken ≤ maximumNumberOfSession
  reports : ∀ r ∈ s.reports, r.exhausted = true ↔ r.capacity ≤ r.size

variable {s s' : TableSystem}

theorem CapacitiesKept.within (h : s.CapacitiesKept) : s.WithinCapacities where
  clients := (Nat.le_add_right ..).trans h.clients
  futures := (Nat.le_add_right ..).trans h.futures
  sessions := (Nat.le_add_right ..).trans h.sessions
  reports := h.reports

/-- What is said of a table that is not exactly full is right. -/
theorem reports_report {capacity size : Nat} {exhausted : Bool}
    (h : ∀ r ∈ s.reports, r.exhausted = true ↔ r.capacity ≤ r.size)
    (hexhausted : exhausted = true ↔ capacity < size) (hroom : size < capacity) :
    ∀ r ∈ (s.report capacity size exhausted).reports,
      r.exhausted = true ↔ r.capacity ≤ r.size := by
  intro r hr
  rcases List.mem_append.mp hr with hr | hr
  · exact h r hr
  · rw [List.mem_singleton.mp hr]
    refine hexhausted.trans ?_
    dsimp only
    omega

/-- A call that had a place and made its entry, or gave up, has it no more. -/
theorem length_erase_add_one {α : Type} [DecidableEq α] {l : List α} {a : α}
    (h : a ∈ l) : (l.erase a).length + 1 = l.length := by
  rw [List.length_erase_of_mem h]
  have := List.length_pos_of_mem h
  omega

/-! ## The sections

Where an id is looked for a place is taken, and the condition says that there
is one. Where an entry is made its place was taken before.
-/

theorem CapacitiesKept.findValidClientId (h : s.CapacitiesKept)
    (hroom : s.clientsTaken < maxNumClients) :
    s.findValidClientId.CapacitiesKept where
  clients := by
    have hsame : s.findValidClientId.service.adapters = s.service.adapters :=
      s.service.findValidClientId_adapters
    have hone := Bool.toNat_le s.findValidClientId.connecting
    unfold clientsTaken at hroom ⊢
    rw [hsame]
    omega
  futures := h.futures
  sessions := h.sessions
  reports := by
    refine reports_report h.reports ?_ (Nat.lt_of_le_of_lt
      (Nat.le_add_right ..) hroom)
    rw [beq_iff_eq]
    exact s.service.findValidClientId_exhausted_iff

theorem CapacitiesKept.findSequenceId (h : s.CapacitiesKept)
    (hroom : s.futuresTaken < maxNumFutures) :
    s.findSequenceId.CapacitiesKept where
  clients := h.clients
  futures := by
    have hsame : s.findSequenceId.factory.futures = s.factory.futures :=
      s.factory.findSequenceId_futures
    have hone : s.findSequenceId.creating.length ≤ s.creating.length + 1 := by
      unfold TableSystem.findSequenceId report
      dsimp only
      split
      · exact Nat.le_succ _
      · exact Nat.le_refl _
    unfold futuresTaken at hroom ⊢
    rw [hsame]
    omega
  sessions := h.sessions
  reports := by
    refine reports_report h.reports ?_ (Nat.lt_of_le_of_lt
      (Nat.le_add_right ..) hroom)
    rw [beq_iff_eq]
    exact s.factory.findSequenceId_exhausted_iff

theorem CapacitiesKept.generateSessionId (h : s.CapacitiesKept)
    (hroom : s.sessionsTaken < maximumNumberOfSession) :
    s.generateSessionId.CapacitiesKept where
  clients := h.clients
  futures := h.futures
  sessions := by
    have hsame : s.generateSessionId.client.sessionInfos =
        s.client.sessionInfos := s.client.generateSessionId_sessionInfos
    have hone : s.generateSessionId.initiating.length =
        s.initiating.length + 1 := rfl
    unfold sessionsTaken at hroom ⊢
    rw [hsame]
    omega
  reports := by
    refine reports_report h.reports ?_ (Nat.lt_of_le_of_lt
      (Nat.le_add_right ..) hroom)
    rw [beq_iff_eq]
    exact ClientFactory.generateSessionId_invalid_iff

/-- A step that meets its condition keeps to the places there are. -/
theorem CapacitiesKept.take (h : s.CapacitiesKept) {i : TableStep}
    (hok : s.keepsCapacity i) (hstep : s.take i = some s') :
    s'.CapacitiesKept := by
  have hclients := h.clients
  have hfutures := h.futures
  have hsessions := h.sessions
  unfold clientsTaken at hclients
  unfold futuresTaken at hfutures
  unfold sessionsTaken at hsessions
  cases i with
  | findValidClientId =>
      rw [TableSystem.take] at hstep
      split at hstep <;> cases hstep
      exact h.findValidClientId hok
  | allocateClientAdapter newAdapter =>
      rw [TableSystem.take] at hstep
      split at hstep
      · next hconnecting =>
          cases hstep
          have hcard :=
            s.service.allocateClientAdapter_card_le newAdapter
          rw [hconnecting, Bool.toNat_true] at hclients
          exact ⟨hcard.trans hclients, h.futures, h.sessions, h.reports⟩
      · cases hstep
  | removeAdapter env d =>
      cases hstep
      have hcard := s.service.removeAdapter_card_le env d
      exact ⟨(Nat.add_le_add_right hcard _).trans hclients, h.futures,
        h.sessions, h.reports⟩
  | findSequenceId =>
      cases hstep
      exact h.findSequenceId hok
  | addFuture sequenceId request transactionId =>
      rw [TableSystem.take] at hstep
      split at hstep
      · next hmem =>
          cases hstep
          have hcard := s.factory.addFuture_card_le sequenceId request
            transactionId
          have hplace := length_erase_add_one hmem
          refine ⟨h.clients, ?_, h.sessions, h.reports⟩
          unfold futuresTaken
          dsimp only
          omega
      · cases hstep
  | futureFailed sequenceId =>
      cases hstep
      have hplace := List.length_erase_le (a := sequenceId) (l := s.creating)
      exact ⟨h.clients, (Nat.add_le_add_left hplace _).trans hfutures,
        h.sessions, h.reports⟩
  | deleteFuture sequenceId =>
      cases hstep
      have hcard := s.factory.deleteFuture_card_le sequenceId
      exact ⟨h.clients, (Nat.add_le_add_right hcard _).trans hfutures,
        h.sessions, h.reports⟩
  | generateSessionId =>
      cases hstep
      exact h.generateSessionId hok
  | addSessionInfo clientInfo algorithmInfo =>
      rw [TableSystem.take] at hstep
      split at hstep
      · next hmem =>
          cases hstep
          have hcard := s.client.addSessionInfo_card_le clientInfo
            algorithmInfo
          have hplace := length_erase_add_one hmem
          refine ⟨h.clients, h.futures, ?_, h.reports⟩
          unfold sessionsTaken
          dsimp only
          omega
      · cases hstep
  | eraseSessionInfo sessionId =>
      cases hstep
      have hcard := s.client.eraseSessionInfo_card_le sessionId
      exact ⟨h.clients, h.futures,
        (Nat.add_le_add_right hcard _).trans hsessions, h.reports⟩

theorem CapacitiesKept.initial : CapacitiesKept .initial where
  clients := Nat.zero_le _
  futures := Nat.zero_le _
  sessions := Nat.zero_le _
  reports := fun _ hr => nomatch hr

end TableSystem

/-- In every run whose steps all meet their conditions the tables keep to
their capacities, and the allocators say so. -/
theorem reach_withinCapacities {s : TableSystem}
    (hs : tableMachine.Reach TableSystem.keepsCapacity s) :
    s.WithinCapacities := by
  have hkept : s.CapacitiesKept := hs.invariant
    (fun _ hstart => hstart ▸ .initial)
    fun _ _ _ h hok hstep => h.take hok hstep
  exact hkept.within

/-- A client, a future and a session are entered, the last two each after the
other's look at its table. -/
def tablesSample : List TableStep :=
  [.findValidClientId, .allocateClientAdapter true, .findSequenceId,
    .generateSessionId, .addFuture 1 0 0,
    .addSessionInfo { ClientInfo.zero with sessionId := 1 } .zero]

theorem reach_withinCapacities_connecting : ∃ s,
    tableMachine.run TableSystem.keepsCapacity .initial tablesSample = some s ∧
      s.service.adapters.keys.card = 1 ∧ s.factory.futures.keys.card = 1 ∧
      s.client.sessionInfos.keys.card = 1 ∧ s.WithinCapacities := by
  have hrun : (tableMachine.run TableSystem.keepsCapacity .initial
      tablesSample).map (fun s => (s.service.adapters.keys.card,
        s.factory.futures.keys.card, s.client.sessionInfos.keys.card)) =
      some (1, 1, 1) := by decide
  obtain ⟨s, hs, heq⟩ := Option.map_eq_some_iff.mp hrun
  obtain ⟨hclients, heq⟩ := Prod.mk.inj heq
  obtain ⟨hfutures, hsessions⟩ := Prod.mk.inj heq
  exact ⟨s, hs, hclients, hfutures, hsessions,
    reach_withinCapacities (.of_run (.start rfl) hs)⟩

/-- A session id that is generated is not in use. -/
theorem ClientFactory.generateSessionId_notMem {f : ClientFactory}
    (hroom : f.sessionInfos.keys.card ≤ maximumNumberOfSession) :
    f.generateSessionId.1 ∉ f.sessionInfos := by
  have hle : aieSessionIdBegin ≤ intMax := by decide
  obtain ⟨hmin, hmax⟩ := FreshId.search_bounds f.usedIds f.sessionId
    f.usedIds.card hle
  have hspare : (f.usedIds.card : Int) < intMax - aieSessionIdBegin + 1 := by
    rw [usedIds_card]
    unfold maximumNumberOfSession at hroom
    unfold intMax aieSessionIdBegin
    omega
  have hfree := FreshId.search_notMem f.sessionId hle hspare
  have hid : f.generateSessionId.1 = Int32.ofInt (FreshId.search
      aieSessionIdBegin intMax f.usedIds (f.usedIds.card + 1) f.sessionId) := by
    unfold generateSessionId
    rw [if_neg (Nat.not_lt.mpr hroom)]
    rfl
  rw [hid]
  refine fun hin => hfree (Finset.mem_image.mpr
    ⟨_, Finmap.mem_keys.mpr hin, Int32.toInt_ofInt_of_le ?_ ?_⟩)
  · exact Int.le_trans (by decide) hmin
  · exact Int.lt_of_le_of_lt hmax (by decide)

theorem exists_sessions {n : Nat} (hn : n ≤ maximumNumberOfSession + 1) :
    ∃ s, tableMachine.Reach Machine.anyStep s ∧
      s.client.sessionInfos.keys.card = n := by
  induction n with
  | zero => exact ⟨.initial, .start rfl, rfl⟩
  | succ n ih =>
      obtain ⟨s, hs, hcard⟩ := ih (Nat.le_of_succ_le hn)
      have hnew := ClientFactory.generateSessionId_notMem
        (f := s.client) (by omega)
      have hgen : tableMachine.Reach Machine.anyStep s.generateSessionId :=
        .step (i := .generateSessionId) hs trivial rfl
      have hstep : tableMachine.step s.generateSessionId (.addSessionInfo
          { ClientInfo.zero with sessionId := s.client.generateSessionId.1 }
          .zero) = some _ := if_pos (List.mem_cons_self ..)
      refine ⟨_, .step hgen trivial hstep, ?_⟩
      show (s.client.generateSessionId.2.sessionInfos.insertNew
        s.client.generateSessionId.1 _).keys.card = n + 1
      rw [ClientFactory.generateSessionId_sessionInfos, Table.keys_insertNew,
        Finset.card_insert_of_notMem (mt Finmap.mem_keys.mp hnew), hcard]

theorem sessions_not_withinCapacities :
    ¬ ∀ s, tableMachine.Reach Machine.anyStep s → s.WithinCapacities := by
  intro hall
  obtain ⟨s, hs, hcard⟩ := exists_sessions (Nat.le_refl _)
  have hwithin := (hall s hs).sessions
  omega

end AiEngine.Ref
