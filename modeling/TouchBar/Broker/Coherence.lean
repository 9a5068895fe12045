import TouchBar.Broker.Runtime

/-!
# The tables of the runtime agree

Four tables are kept for the same numbers: the books of the connection, the active
operations of the executor, the resources of the manager, and the event queue.
`Coherent` is what they agree on.  Each step of the runtime is proved to keep it, from
one fact for each of the parts, and so it holds after every run.
-/

namespace TouchBar.Broker

open TouchBar.Rust TouchBar.Lib TouchBar.Policy TouchBar.Supervisor TouchBar.Protocol Outcome

/-! ## What the manager does to the event queue -/

/-- The queue after a step of the manager or of a producer. -/
inductive QueueStep (q : HostEventQueue) : HostEventQueue → Prop
  | same : QueueStep q q
  | resource (id sequence : ℕ) (result : BrokerResult) (generation : ℕ) :
      QueueStep q (q.pushResource id sequence result generation)
  | dropped (count generation : ℕ) : QueueStep q (q.recordDropped count generation)

section Queue

variable {s : Runtime} {q q' : HostEventQueue}

lemma events_enter (thread id : ℕ) (request : SinkCall) :
    (s.enter thread id request).events = s.events := by
  cases request with
  | emit payload slot =>
    rw [Runtime.enter]
    split_ifs <;> rfl
  | emitBuffered payload slot =>
    rw [Runtime.enter]
    split_ifs <;> rfl
  | complete payload =>
    rw [Runtime.enter]
    split_ifs <;> rfl
  | finish code => rfl

lemma events_resume (thread : ℕ) (pending : Pending) :
    (s.resume thread pending).1.events = s.events := by
  cases pending <;> rw [Runtime.resume] <;> split_ifs <;> rfl

lemma queueStep_resumePump (p : Pump) : QueueStep s.events (s.resumePump p).1.events := by
  cases p with
  | idle => exact .same
  | draining generation =>
    rw [Runtime.resumePump]
    split
    · exact .same
    · split
      · exact .same
      · exact .resource _ _ _ _
  | reading generation unread found => cases unread <;> exact .same
  | terminals generation pending found =>
    cases pending with
    | nil =>
      rw [Runtime.resumePump]
      dsimp only
      split_ifs
      · exact .dropped _ _
      · exact .same
    | cons id pending =>
      rw [Runtime.resumePump]
      split
      · exact .same
      · exact .resource _ _ _ _
  | closing found =>
    rw [Runtime.resumePump]
    dsimp only
    rw [(Runtime.closeMany_frame found).1]
    exact .same

/-- Only the supervisor pushes completions and capabilities, and pops. -/
def Quiet : Action → Prop
  | .popEvent => False
  | .pushCompletion _ _ _ => False
  | .pushCapability _ _ => False
  | _ => True

lemma queueStep_supervise {a : Action} (ha : Quiet a) :
    QueueStep s.events (s.supervise a).1.events := by
  cases a with
  | openResource kept =>
    rw [Runtime.supervise]
    split_ifs <;> exact .same
  | closeResource id =>
    change QueueStep s.events (s.close id).events
    rw [Runtime.close_frame.1]
    exact .same
  | revoke id generation =>
    rw [Runtime.supervise]
    split
    · exact .same
    · dsimp only
      rw [Runtime.close_frame.1]
      exact .resource _ _ _ _
  | popEvent => exact ha.elim
  | pushCompletion requestId result generation => exact ha.elim
  | pushCapability generation state => exact ha.elim
  | call thread id request => exact .same
  | resume thread => exact .same
  | startPump generation => exact .same
  | resumePump => exact .same

theorem queueStep_step {a : Action} (ha : Quiet a) : QueueStep s.events (s.step a).1.events := by
  rcases Runtime.producer_or_supervisor s a with
    ⟨thread, id, request, rfl⟩ | ⟨thread, rfl⟩ | ⟨h, -⟩ | h
  · rw [Runtime.step]
    split_ifs
    · dsimp only
      rw [events_enter]
      exact .same
    · exact .same
  · rw [Runtime.step]
    split
    · rw [events_resume]
      exact .same
    · exact .same
  · rw [h]
    exact queueStep_resumePump _
  · rw [h]
    split_ifs
    · exact queueStep_supervise ha
    · exact .same

/-- No more events wait than the maxima allow. -/
structure Bounded (q : HostEventQueue) : Prop where
  edges_le : q.edgeEvents.length ≤ q.maximumEdgeEvents
  states_le : q.stateEvents.len ≤ q.maximumStateEvents

lemma Bounded.pushEdge (h : Bounded q) (event : HostEvent) (generation : ℕ) :
    Bounded (q.pushEdge event generation) := by
  rw [HostEventQueue.pushEdge]
  split_ifs with hfull
  · exact ⟨h.edges_le, h.states_le⟩
  · refine ⟨?_, h.states_le⟩
    have hle := h.edges_le
    have hne : q.edgeEvents.length ≠ q.maximumEdgeEvents := by
      simpa [HostEventQueue.full] using hfull
    simp only [List.length_append, List.length_cons, List.length_nil]
    omega

lemma Bounded.queueStep (h : Bounded q) (hstep : QueueStep q q') : Bounded q' := by
  cases hstep with
  | same => exact h
  | resource id sequence result generation => exact h.pushEdge _ _
  | dropped count generation => exact ⟨h.edges_le, h.states_le⟩

lemma maxima_pushEdge (event : HostEvent) (generation : ℕ) :
    (q.pushEdge event generation).maximumEdgeEvents = q.maximumEdgeEvents ∧
      (q.pushEdge event generation).maximumStateEvents = q.maximumStateEvents := by
  rw [HostEventQueue.pushEdge]
  split_ifs <;> exact ⟨rfl, rfl⟩

lemma QueueStep.maxima (h : QueueStep q q') : q'.maximumEdgeEvents = q.maximumEdgeEvents ∧
    q'.maximumStateEvents = q.maximumStateEvents := by
  cases h with
  | same => exact ⟨rfl, rfl⟩
  | resource id sequence result generation => exact maxima_pushEdge _ _
  | dropped count generation => exact ⟨rfl, rfl⟩

lemma Bounded.pop (h : Bounded q) : Bounded q.pop.1 := by
  rw [HostEventQueue.pop]
  split
  · exact ⟨h.edges_le, BTreeMap.len_remove_le.trans h.states_le⟩
  · split
    · next event edges hedges =>
      refine ⟨?_, h.states_le⟩
      have hle := h.edges_le
      rw [hedges, List.length_cons] at hle
      exact Nat.le_of_succ_le hle
    · split_ifs
      · exact ⟨h.edges_le, h.states_le⟩
      · exact h

lemma maxima_pop : q.pop.1.maximumEdgeEvents = q.maximumEdgeEvents ∧
    q.pop.1.maximumStateEvents = q.maximumStateEvents := by
  rw [HostEventQueue.pop]
  split
  · exact ⟨rfl, rfl⟩
  · split
    · exact ⟨rfl, rfl⟩
    · split_ifs <;> exact ⟨rfl, rfl⟩

lemma pushCapability_eq_ok {generation : ℕ} {state : CapabilityState}
    (h : q.pushCapability generation state = ok q') :
    q' = { q with
      stateEvents := q.stateEvents.insert state.capability (generation, state) } ∧
      (q.stateEvents.containsKey state.capability = true ∨
        q.stateEvents.len < q.maximumStateEvents) := by
  rw [HostEventQueue.pushCapability] at h
  split_ifs at h with hfull
  refine ⟨(Outcome.ok.inj h).symm, ?_⟩
  simp only [Bool.and_eq_true, Bool.not_eq_true', decide_eq_true_eq, not_and, not_le] at hfull
  cases hcontains : q.stateEvents.containsKey state.capability with
  | true => exact .inl rfl
  | false => exact .inr (hfull hcontains)

lemma Bounded.pushCapability (h : Bounded q) {generation : ℕ} {state : CapabilityState}
    (hok : q.pushCapability generation state = ok q') : Bounded q' := by
  obtain ⟨rfl, hroom⟩ := pushCapability_eq_ok hok
  refine ⟨h.edges_le, ?_⟩
  dsimp only
  cases hget : q.stateEvents.get state.capability with
  | none =>
    rw [BTreeMap.len_insert hget]
    rw [← BTreeMap.containsKey_eq_false_iff] at hget
    rcases hroom with hcontains | hlt
    · rw [hget] at hcontains
      cases hcontains
    · exact hlt
  | some waiting =>
    -- the state that waits is overwritten
    have hkeys : (q.stateEvents.insert state.capability (generation, state)).keys =
        q.stateEvents.keys := by
      refine BTreeMap.keys_eq_of_containsKey fun key => ?_
      rw [BTreeMap.containsKey, BTreeMap.containsKey, BTreeMap.get_insert]
      split_ifs with hkey
      · rw [hkey, hget]
        rfl
      · rfl
    rw [← BTreeMap.length_keys, hkeys, BTreeMap.length_keys]
    exact h.states_le

end Queue

namespace AsyncBrokerRuntime

/-- The tables agree, and nothing exceeds its maximum. -/
structure Coherent (s : AsyncBrokerRuntime) : Prop where
  /-- the books are right: see `LifecycleState.Balanced` -/
  balanced : s.lifecycle.Balanced
  /-- every active operation is in flight once: see `BackendExecutor.Sound` -/
  sound : s.executor.Sound
  wellFormed : s.resources.WellFormed
  bounded : Bounded s.events
  /-- the books and the manager hold the same resources -/
  resources_eq : s.lifecycle.resources.keys = s.resources.resources.keys
  next_eq : s.lifecycle.nextResourceId = s.resources.nextResourceId
  /-- an operation in the books is active, under the same capability -/
  pending_active : ∀ id operation, s.lifecycle.pending.get id = some operation →
    ∃ active, s.executor.active.get id = some active ∧ active.capability = operation.capability

/-- The maxima of a runtime. -/
structure Configured (executorLimits : ExecutorLimits) (lifecycleLimits : LifecycleLimits)
    (states edges : ℕ) (s : AsyncBrokerRuntime) : Prop where
  executor : s.executor.limits = executorLimits
  lifecycle : s.lifecycle.limits = lifecycleLimits
  states : s.events.maximumStateEvents = states
  edges : s.events.maximumEdgeEvents = edges

variable {s : AsyncBrokerRuntime} {executorLimits : ExecutorLimits}
  {lifecycleLimits : LifecycleLimits} {states edges : ℕ}

lemma keys_eq_iff {lifecycle : LifecycleState} {resources : Runtime} :
    lifecycle.resources.keys = resources.resources.keys ↔
      ∀ id, lifecycle.resources.containsKey id = resources.managed id := by
  constructor
  · intro h id
    rw [Bool.eq_iff_iff, ← BTreeMap.mem_keys_iff_containsKey, h,
      BTreeMap.mem_keys_iff_containsKey]
    rfl
  · exact fun h => BTreeMap.keys_eq_of_containsKey h

lemma coherent_new (h : new executorLimits lifecycleLimits states edges = ok s) :
    Coherent s ∧ Configured executorLimits lifecycleLimits states edges s := by
  simp only [new, bind_eq_ok, Outcome.pure_eq, Outcome.ok.injEq] at h
  obtain ⟨executor, hexecutor, resources, hresources, rfl⟩ := h
  obtain ⟨hsound, hlimits, -⟩ := BackendExecutor.sound_new hexecutor
  have hwell := Runtime.wellFormed_new hresources
  rw [Runtime.new] at hresources
  split_ifs at hresources
  cases hresources
  refine ⟨⟨LifecycleState.balanced_new _, hsound, hwell, ⟨Nat.zero_le _, Nat.zero_le _⟩, rfl, rfl,
    fun id operation hget => ?_⟩, hlimits, rfl, rfl, rfl⟩
  cases hget

/-! ## Steps of the manager that leave the resources alone -/

/-- A step of the resources that keeps them, their numbers and the bounds of the queue. -/
lemma Coherent.of_resources (h : Coherent s) {resources : Runtime}
    (hwell : resources.WellFormed) (hbounded : Bounded resources.events)
    (hresources : ∀ id, resources.managed id = s.resources.managed id)
    (hnext : resources.nextResourceId = s.resources.nextResourceId) :
    Coherent { s with resources := resources } := by
  refine ⟨h.balanced, h.sound, hwell, hbounded, ?_, h.next_eq.trans hnext.symm,
    h.pending_active⟩
  rw [keys_eq_iff]
  intro id
  rw [hresources]
  exact keys_eq_iff.mp h.resources_eq id

lemma managed_resumePump {resources : Runtime} (id : ℕ) :
    (resources.step .resumePump).1.managed id =
      (resources.managed id && decide (id ∉ removedNext resources.pump)) := by
  change (resources.resumePump resources.pump).1.managed id = _
  cases hpump : resources.pump with
  | idle => simp [Runtime.resumePump, removedNext]
  | draining generation =>
    rw [Runtime.resumePump]
    cases hchannel : resources.channel with
    | nil => simp [Runtime.managed, removedNext]
    | cons incoming rest =>
      dsimp only
      cases hget : resources.resources.get incoming.resourceId with
      | none => simp [Runtime.managed, removedNext]
      | some sequence =>
        dsimp only
        rw [Runtime.managed_pushNext (s := { resources with channel := rest }) hget]
        simp [Runtime.managed, removedNext]
  | reading generation unread found =>
    cases unread <;> simp [Runtime.resumePump, Runtime.managed, removedNext]
  | terminals generation pending found =>
    cases pending with
    | nil => simp [Runtime.resumePump, Runtime.managed, removedNext]
    | cons i pending =>
      rw [Runtime.resumePump]
      cases hget : resources.resources.get i with
      | none => simp [Runtime.managed, removedNext]
      | some sequence =>
        dsimp only
        rw [Runtime.managed_setCells, Runtime.managed_pushNext
          (s := { resources with pump := .terminals generation pending found }) hget]
        simp [Runtime.managed, removedNext]
  | closing found =>
    rw [Runtime.resumePump]
    exact Runtime.managed_closeMany found

/-! ## The operations keep the tables in agreement -/

section Operations

variable {request : BackendRequest}

lemma Coherent.worker (h : Coherent s) (step : WorkerStep) :
    Coherent { s with executor := s.executor.work step } := by
  refine { h with
    sound := h.sound.work step
    pending_active := fun id operation hget => ?_ }
  dsimp only
  rw [BackendExecutor.active_work]
  exact h.pending_active id operation hget

lemma Coherent.producer (h : Coherent s) (thread id : ℕ) (request : SinkCall) :
    Coherent { s with resources := (s.resources.step (.call thread id request)).1 } := by
  refine h.of_resources (Runtime.wellFormed_step h.wellFormed _)
    (h.bounded.queueStep (queueStep_step trivial)) (fun i => ?_) ?_
  · rw [Runtime.step]
    split_ifs
    · simp only [Runtime.managed, (Runtime.enter_frame thread request).1]
    · rfl
  · rw [Runtime.step]
    split_ifs
    · exact (Runtime.enter_frame thread request).2.2
    · rfl

lemma Coherent.resumeProducer (h : Coherent s) (thread : ℕ) :
    Coherent { s with resources := (s.resources.step (.resume thread)).1 } := by
  refine h.of_resources (Runtime.wellFormed_step h.wellFormed _)
    (h.bounded.queueStep (queueStep_step trivial)) (fun i => ?_) ?_
  · rw [Runtime.step]
    split
    · simp only [Runtime.managed, (Runtime.resume_frame thread _).1]
    · rfl
  · rw [Runtime.step]
    split
    · exact (Runtime.resume_frame thread _).2.2
    · rfl

/-- A failed operation leaves the books as they were. -/
lemma submit_err {answers : SubmitAnswers} {deadline : ℕ} {code : BrokerErrorCode}
    (h : (s.submit request answers deadline).1 = err code) :
    (s.submit request answers deadline).2 = s := by
  rw [submit] at h ⊢
  cases hbegin : s.lifecycle.begin request.requestId request.capability deadline with
  | err code => rfl
  | panic => rfl
  | ok lifecycle =>
    rw [hbegin] at h
    dsimp only at h ⊢
    cases hsubmit : s.executor.submit request answers with
    | err code =>
      dsimp only
      rw [LifecycleState.finish_begin hbegin]
    | panic => rfl
    | ok executor =>
      rw [hsubmit] at h
      cases h

lemma submit_ne_panic {answers : SubmitAnswers} {deadline : ℕ} :
    (s.submit request answers deadline).1 ≠ .panic := by
  have hbegin : s.lifecycle.begin request.requestId request.capability deadline ≠ .panic := by
    rw [LifecycleState.begin]
    split_ifs <;> simp
  have hsubmit : s.executor.submit request answers ≠ .panic := by
    rw [BackendExecutor.submit]
    cases answers.authorized <;> split_ifs <;> simp
  rw [submit]
  cases heq : s.lifecycle.begin request.requestId request.capability deadline with
  | err code => simp
  | panic => exact absurd heq hbegin
  | ok lifecycle =>
    dsimp only
    cases heq' : s.executor.submit request answers with
    | err code => simp
    | panic => exact absurd heq' hsubmit
    | ok executor => simp

/-- What a successful `submit` does. -/
lemma submit_ok {answers : SubmitAnswers} {deadline : ℕ}
    (h : (s.submit request answers deadline).1 = ok ()) :
    ∃ lifecycle executor,
      s.lifecycle.begin request.requestId request.capability deadline = ok lifecycle ∧
      s.executor.submit request answers = ok executor ∧
      (s.submit request answers deadline).2 =
        { s with
          lifecycle := lifecycle
          executor := executor } := by
  rw [submit] at h ⊢
  cases hbegin : s.lifecycle.begin request.requestId request.capability deadline with
  | err code =>
    rw [hbegin] at h
    cases h
  | panic =>
    rw [hbegin] at h
    cases h
  | ok lifecycle =>
    rw [hbegin] at h
    dsimp only at h ⊢
    cases hsubmit : s.executor.submit request answers with
    | err code =>
      rw [hsubmit] at h
      cases h
    | panic =>
      rw [hsubmit] at h
      cases h
    | ok executor => exact ⟨lifecycle, executor, rfl, rfl, rfl⟩

lemma Coherent.submit (h : Coherent s) (request : BackendRequest) (answers : SubmitAnswers)
    (deadline : ℕ) : Coherent (s.submit request answers deadline).2 := by
  cases hrun : (s.submit request answers deadline).1 with
  | err code =>
    rw [submit_err hrun]
    exact h
  | panic => exact absurd hrun submit_ne_panic
  | ok u =>
    obtain ⟨lifecycle, executor, hbegin, hsubmit, heq⟩ := submit_ok hrun
    rw [heq]
    have hbalanced := h.balanced.begin hbegin
    have hsound := h.sound.submit hsubmit
    obtain ⟨-, -, -, rfl⟩ := LifecycleState.begin_eq_ok hbegin
    obtain ⟨-, -, -, -, rfl⟩ := BackendExecutor.submit_eq_ok hsubmit
    refine { h with
      balanced := hbalanced
      sound := hsound
      pending_active := fun id operation hget => ?_ }
    simp only [BTreeMap.get_insert] at hget ⊢
    split_ifs at hget ⊢
    · cases hget
      exact ⟨_, rfl, rfl⟩
    · exact h.pending_active id operation hget

lemma Coherent.cancel (h : Coherent s) (requestId : ℕ) : Coherent (s.cancel requestId).2 := by
  refine { h with
    sound := h.sound.cancel requestId
    pending_active := fun id operation hget => ?_ }
  obtain ⟨active, hactive, hcapability⟩ := h.pending_active id operation hget
  change ∃ active, (s.executor.cancel requestId).2.active.get id = some active ∧ _
  rw [BackendExecutor.get_cancel]
  split_ifs
  · exact ⟨active.cancel, by rw [hactive]; rfl, hcapability⟩
  · exact ⟨active, hactive, hcapability⟩

/-! ### Opening and closing a resource -/

/-- A failed `open_resource` leaves the books as they were, up to the next number. -/
lemma openResource_err (h : Coherent s) {answers : OpenAnswers} {code : BrokerErrorCode}
    (herr : (s.openResource request answers).1 = err code) :
    (s.openResource request answers).2.lifecycle = s.lifecycle ∨
      (s.openResource request answers).2.lifecycle =
        { s.lifecycle with nextResourceId := s.lifecycle.nextResourceId + 1 } := by
  rw [openResource] at herr ⊢
  cases hlimits : s.resourceLimits request answers.limits with
  | none => exact .inl rfl
  | some limits =>
    rw [hlimits] at herr
    dsimp only at herr ⊢
    cases hallocate : s.lifecycle.allocateResource request.capability
        limits.reservedBufferedBytes with
    | err code => exact .inl rfl
    | panic => exact .inl rfl
    | ok allocated =>
      obtain ⟨resourceId, lifecycle⟩ := allocated
      rw [hallocate] at herr
      dsimp only at herr ⊢
      cases hopen : s.managerOpen resourceId request limits answers with
      | err code =>
        dsimp only
        rw [LifecycleState.closeResource_allocateResource h.balanced hallocate]
        exact .inr rfl
      | panic => exact .inl rfl
      | ok payload =>
        rw [hopen] at herr
        cases herr

lemma managerOpen_ne_panic {resourceId : ℕ} {limits : ResourceLimits} {answers : OpenAnswers} :
    s.managerOpen resourceId request limits answers ≠ .panic := by
  rw [managerOpen]
  cases answers.authorized with
  | some code => split_ifs <;> simp
  | none =>
    cases answers.opened with
    | error code => split_ifs <;> simp
    | ok payload =>
      dsimp only
      split_ifs <;> simp

lemma openResource_ne_panic {answers : OpenAnswers} :
    (s.openResource request answers).1 ≠ .panic := by
  rw [openResource]
  cases s.resourceLimits request answers.limits with
  | none => simp
  | some limits =>
    dsimp only
    cases hallocate : s.lifecycle.allocateResource request.capability
        limits.reservedBufferedBytes with
    | err code => simp
    | panic => exact absurd hallocate LifecycleState.allocateResource_ne_panic
    | ok allocated =>
      dsimp only
      cases hopen : s.managerOpen allocated.1 request limits answers with
      | err code => simp
      | panic => exact absurd hopen managerOpen_ne_panic
      | ok payload => simp

/-- What the manager has after a resource was opened, or was not. -/
lemma openResource_manager {resources : Runtime} (hidle : resources.pump = .idle)
    (hnext : resources.nextResourceId + 1 < U64.size) (kept : Bool) :
    (resources.step (.openResource kept)).1.nextResourceId = resources.nextResourceId + 1 ∧
      (resources.step (.openResource kept)).1.pump = .idle ∧
      ∀ id, (resources.step (.openResource kept)).1.managed id =
        (resources.managed id || (kept && decide (id = resources.nextResourceId))) := by
  have hstep : resources.step (.openResource kept) =
      resources.supervise (.openResource kept) := if_pos hidle
  rw [hstep, Runtime.supervise, if_neg (not_le.mpr hnext)]
  cases kept with
  | false =>
    refine ⟨rfl, hidle, fun id => ?_⟩
    simp [Runtime.allocate, Runtime.managed, Runtime.setCells]
  | true =>
    refine ⟨rfl, hidle, fun id => ?_⟩
    simp only [if_true, Runtime.manage, Runtime.managed, BTreeMap.containsKey,
      BTreeMap.get_insert]
    by_cases hid : id = resources.nextResourceId
    · simp [hid]
    · simp [hid, Runtime.allocate, Runtime.setCells]

lemma Coherent.openResource (h : Coherent s) (hidle : s.resources.pump = .idle)
    (request : BackendRequest) (answers : OpenAnswers) :
    Coherent (s.openResource request answers).2 := by
  have hkeys := keys_eq_iff.mp h.resources_eq
  have hwell := fun kept => Runtime.wellFormed_step h.wellFormed (.openResource kept)
  have hbounded := fun kept =>
    h.bounded.queueStep (queueStep_step (s := s.resources) (a := .openResource kept) trivial)
  rw [AsyncBrokerRuntime.openResource]
  cases hlimits : s.resourceLimits request answers.limits with
  | none => exact h
  | some limits =>
    dsimp only
    cases hallocate : s.lifecycle.allocateResource request.capability
        limits.reservedBufferedBytes with
    | err code => exact h
    | panic => exact h
    | ok allocated =>
      obtain ⟨resourceId, lifecycle⟩ := allocated
      have hsize := (LifecycleState.allocateResource_eq_ok hallocate).2.1
      rw [h.next_eq] at hsize
      dsimp only
      cases hopen : s.managerOpen resourceId request limits answers with
      | err code =>
        obtain ⟨hnext, -, hmanaged⟩ := openResource_manager hidle hsize false
        dsimp only
        rw [LifecycleState.closeResource_allocateResource h.balanced hallocate]
        refine ⟨?_, h.sound, hwell false, hbounded false, ?_, ?_, h.pending_active⟩
        · refine { h.balanced with
            fresh := fun id hid => ?_
            next_pos := Nat.succ_pos _ }
          have hfresh := h.balanced.fresh id hid
          dsimp only
          omega
        · rw [keys_eq_iff]
          intro id
          rw [hmanaged, Bool.false_and, Bool.or_false]
          exact hkeys id
        · rw [hnext, ← h.next_eq]
      | panic => exact h
      | ok payload =>
        obtain ⟨hnext, -, hmanaged⟩ := openResource_manager hidle hsize true
        have hbalanced := h.balanced.allocateResource hallocate
        obtain ⟨rfl, -, -, -, -, rfl⟩ := LifecycleState.allocateResource_eq_ok hallocate
        refine ⟨hbalanced, h.sound, hwell true, hbounded true, ?_, ?_, h.pending_active⟩
        · rw [keys_eq_iff]
          intro id
          rw [hmanaged, Bool.true_and, ← hkeys, ← h.next_eq]
          dsimp only
          rw [BTreeMap.containsKey, BTreeMap.get_insert]
          by_cases hid : id = s.lifecycle.nextResourceId
          · simp [hid]
          · simp [hid, BTreeMap.containsKey]
        · rw [hnext, ← h.next_eq]

/-- Closing finds a resource in both tables or in neither. -/
lemma closeResource_ne_panic (h : Coherent s) (resourceId : ℕ) :
    (s.closeResource resourceId).1 = some (s.resources.managed resourceId) := by
  have hkeys := keys_eq_iff.mp h.resources_eq resourceId
  have htracked : (s.lifecycle.closeResource resourceId).1 = s.resources.managed resourceId := by
    rw [← hkeys, LifecycleState.closeResource, BTreeMap.containsKey]
    cases s.lifecycle.resources.get resourceId <;> rfl
  simp [AsyncBrokerRuntime.closeResource, htracked, assert]

lemma Coherent.closeResource (h : Coherent s) (hidle : s.resources.pump = .idle)
    (resourceId : ℕ) : Coherent (s.closeResource resourceId).2 := by
  have hkeys := keys_eq_iff.mp h.resources_eq
  have hstep : (s.resources.step (.closeResource resourceId)).1 =
      s.resources.close resourceId := by
    have hsupervise : s.resources.step (.closeResource resourceId) =
        s.resources.supervise (.closeResource resourceId) := if_pos hidle
    rw [hsupervise]
    rfl
  refine ⟨h.balanced.closeResource resourceId, h.sound,
    Runtime.wellFormed_step h.wellFormed _,
    h.bounded.queueStep (queueStep_step (a := .closeResource resourceId) trivial), ?_, ?_,
    fun id operation hget => ?_⟩
  · rw [keys_eq_iff]
    intro id
    simp only [AsyncBrokerRuntime.closeResource]
    rw [hstep, Runtime.managed_close, ← hkeys, BTreeMap.containsKey,
      LifecycleState.get_closeResource, BTreeMap.containsKey]
    by_cases hid : id = resourceId <;> simp [hid]
  · simp only [AsyncBrokerRuntime.closeResource]
    rw [hstep, Runtime.close_frame.2.2.1, LifecycleState.next_closeResource]
    exact h.next_eq
  · refine h.pending_active id operation ?_
    simp only [AsyncBrokerRuntime.closeResource, LifecycleState.pending_closeResource] at hget
    exact hget

/-! ### Revocation -/

lemma step_revoke {resources : Runtime} (hidle : resources.pump = .idle) (id generation : ℕ) :
    (resources.step (.revoke id generation)).1.pump = .idle ∧
      (resources.step (.revoke id generation)).1.nextResourceId = resources.nextResourceId ∧
      ∀ i, (resources.step (.revoke id generation)).1.managed i =
        (resources.managed i && decide (i ≠ id)) := by
  have hstep : resources.step (.revoke id generation) =
      resources.supervise (.revoke id generation) := if_pos hidle
  rw [hstep, Runtime.supervise]
  cases hget : resources.resources.get id with
  | none =>
    refine ⟨hidle, rfl, fun i => ?_⟩
    by_cases hi : i = id
    · subst hi
      simp [Runtime.managed, BTreeMap.containsKey, hget]
    · simp [hi]
  | some sequence =>
    dsimp only
    obtain ⟨-, -, hnext, -, hpump⟩ := Runtime.close_frame
      (s := { resources with
        events := resources.events.pushResource id sequence (.error .denied) generation })
      (i := id)
    refine ⟨hpump.trans hidle, hnext, fun i => ?_⟩
    rw [Runtime.managed_close]
    rfl

/-- What `ResourceManager::revoke` does, over its whole loop. -/
lemma managerRevoke_spec {resources : Runtime} (hidle : resources.pump = .idle)
    (hwell : resources.WellFormed) (hbounded : Bounded resources.events) (ids : List ℕ)
    (generation : ℕ) :
    (managerRevoke resources ids generation).pump = .idle ∧
      (managerRevoke resources ids generation).nextResourceId = resources.nextResourceId ∧
      (managerRevoke resources ids generation).WellFormed ∧
      Bounded (managerRevoke resources ids generation).events ∧
      ∀ i, (managerRevoke resources ids generation).managed i =
        (resources.managed i && decide (i ∉ ids)) := by
  induction ids generalizing resources with
  | nil => exact ⟨hidle, rfl, hwell, hbounded, fun i => by simp [managerRevoke]⟩
  | cons id ids ih =>
    obtain ⟨hpump, hnext, hmanaged⟩ := step_revoke hidle id generation
    obtain ⟨hpump', hnext', hwell', hbounded', hmanaged'⟩ := ih hpump
      (Runtime.wellFormed_step hwell _)
      (hbounded.queueStep (queueStep_step (a := .revoke id generation) trivial))
    refine ⟨hpump', hnext'.trans hnext, hwell', hbounded', fun i => ?_⟩
    refine (hmanaged' i).trans ?_
    rw [hmanaged]
    by_cases hi : i = id <;> simp [hi]

/-- A revocation of coherent tables does not overflow, and takes from each table what
belongs to the capability. -/
lemma Coherent.revoke (h : Coherent s) (hidle : s.resources.pump = .idle)
    (capability : CapabilityId) (generation : ℕ) :
    Coherent (s.revoke capability generation).2 ∧
      (s.revoke capability generation).2.resources.pump = .idle ∧
      (∃ effect, (s.revoke capability generation).1 = some effect ∧
        LifecycleState.Revoked s.lifecycle capability effect
          (s.revoke capability generation).2.lifecycle) := by
  obtain ⟨effect, lifecycle, hrevoke, hrevoked⟩ := h.balanced.revoke capability
  have hkeys := keys_eq_iff.mp h.resources_eq
  obtain ⟨hpump, hnext, hwell, hbounded, hmanaged⟩ := managerRevoke_spec hidle h.wellFormed
    h.bounded effect.closedResources generation
  rw [AsyncBrokerRuntime.revoke, hrevoke]
  refine ⟨⟨hrevoked.balanced, h.sound.revoke capability, hwell, hbounded, ?_, ?_,
    fun id operation hget => ?_⟩, hpump, effect, rfl, hrevoked⟩
  · rw [keys_eq_iff]
    intro id
    dsimp only
    rw [hmanaged, ← hkeys, BTreeMap.containsKey, hrevoked.resources, BTreeMap.containsKey]
    have hclosed := hrevoked.closed id
    cases hget : s.lifecycle.resources.get id with
    | none => simp
    | some resource =>
      rw [hget] at hclosed
      by_cases hcapability : resource.capability = capability
      · have hmem : id ∈ effect.closedResources := hclosed.mpr ⟨resource, rfl, hcapability⟩
        simp [Option.filter, hcapability, hmem]
      · have hout : id ∉ effect.closedResources := by
          intro hmem
          obtain ⟨resource', heq, hcapability'⟩ := hclosed.mp hmem
          cases heq
          exact hcapability hcapability'
        simp [Option.filter, hcapability, hout]
  · dsimp only
    rw [hnext, ← h.next_eq, hrevoked.next]
  · dsimp only at hget ⊢
    rw [hrevoked.pending, Option.filter_eq_some_iff, decide_eq_true_eq] at hget
    obtain ⟨active, hactive, heq⟩ := h.pending_active id operation hget.1
    refine ⟨active, ?_, heq⟩
    rw [BackendExecutor.revoke, BTreeMap.get_mapValues, hactive, Option.map_some,
      if_neg (heq ▸ hget.2)]

lemma wellFormed_closeMany {resources : Runtime} (hidle : resources.pump = .idle)
    (hwell : resources.WellFormed) (ids : List ℕ) :
    (resources.closeMany ids).pump = .idle ∧ (resources.closeMany ids).WellFormed := by
  induction ids generalizing resources with
  | nil => exact ⟨hidle, hwell⟩
  | cons id ids ih =>
    have hstep : (resources.step (.closeResource id)).1 = resources.close id := by
      have hsupervise : resources.step (.closeResource id) =
          resources.supervise (.closeResource id) := if_pos hidle
      rw [hsupervise]
      rfl
    have hclose := Runtime.wellFormed_step hwell (.closeResource id)
    rw [hstep] at hclose
    exact ih (Runtime.close_frame.2.2.2.2.trans hidle) hclose

lemma Coherent.revokeAll (h : Coherent s) (hidle : s.resources.pump = .idle) :
    Coherent s.revokeAll.2 := by
  obtain ⟨hevents, -, hnext, -⟩ :=
    Runtime.closeMany_frame (s := s.resources) s.lifecycle.resources.keys
  refine ⟨h.balanced.revokeAll, h.sound.cancelAll,
    (wellFormed_closeMany hidle h.wellFormed _).2, ?_, ?_, ?_, fun id operation hget => ?_⟩
  · change Bounded (s.resources.closeMany s.lifecycle.resources.keys).events
    rw [hevents]
    exact h.bounded
  · rw [keys_eq_iff]
    intro id
    change false = (s.resources.closeMany s.lifecycle.resources.keys).managed id
    rw [Runtime.managed_closeMany]
    cases hmanaged : s.resources.managed id with
    | false => rfl
    | true =>
      rw [← keys_eq_iff.mp h.resources_eq, ← BTreeMap.mem_keys_iff_containsKey] at hmanaged
      simp [hmanaged]
  · exact h.next_eq.trans hnext.symm
  · cases hget

/-! ### The operations that pump -/

lemma Coherent.pumpCompletion (h : Coherent s) (hidle : s.resources.pump = .idle)
    (generation : ℕ) : Coherent (s.pumpCompletion generation).2 := by
  have hsound := h.sound.tryCompletion
  rw [AsyncBrokerRuntime.pumpCompletion, BackendExecutor.tryCompletion] at *
  cases hcompletions : s.executor.completions with
  | nil => exact h
  | cons completion rest =>
    rw [hcompletions] at hsound
    dsimp only at hsound ⊢
    have hstep : s.resources.step
        (.pushCompletion completion.requestId completion.result generation) =
        s.resources.supervise
          (.pushCompletion completion.requestId completion.result generation) := if_pos hidle
    refine ⟨h.balanced.finish _, hsound, Runtime.wellFormed_step h.wellFormed _, ?_, ?_, ?_,
      fun id operation hget => ?_⟩
    · dsimp only [events]
      rw [hstep]
      exact h.bounded.pushEdge _ _
    · rw [hstep]
      exact h.resources_eq
    · rw [hstep]
      exact h.next_eq
    · simp only [LifecycleState.finish, BTreeMap.get_remove] at hget ⊢
      split_ifs at hget ⊢
      exact h.pending_active id operation hget

lemma balanced_closeAll {lifecycle : LifecycleState} (h : lifecycle.Balanced) (ids : List ℕ) :
    (closeAll lifecycle ids).Balanced ∧
      (closeAll lifecycle ids).pending = lifecycle.pending ∧
      (closeAll lifecycle ids).nextResourceId = lifecycle.nextResourceId ∧
      (closeAll lifecycle ids).limits = lifecycle.limits ∧
      ∀ i, (closeAll lifecycle ids).resources.get i =
        if i ∈ ids then none else lifecycle.resources.get i := by
  induction ids generalizing lifecycle with
  | nil => exact ⟨h, rfl, rfl, rfl, fun i => by simp [closeAll]⟩
  | cons id ids ih =>
    obtain ⟨hbalanced, hpending, hnext, hlimits, hget⟩ := ih (h.closeResource id)
    refine ⟨hbalanced, hpending.trans LifecycleState.pending_closeResource,
      hnext.trans LifecycleState.next_closeResource,
      hlimits.trans LifecycleState.limits_closeResource, fun i => ?_⟩
    refine (hget i).trans ?_
    rw [LifecycleState.get_closeResource]
    by_cases hi : i = id <;> by_cases hmem : i ∈ ids <;> simp [hi, hmem]

/-- The turn that ends `pump_resource_events` removes the same resources from the manager
and from the books; the others leave both alone. -/
lemma Coherent.resumePump (h : Coherent s) : Coherent s.resumePump := by
  have hkeys := keys_eq_iff.mp h.resources_eq
  have hnext : (s.resources.step .resumePump).1.nextResourceId = s.resources.nextResourceId :=
    (Runtime.resumePump_frame _).2
  obtain ⟨hbalanced, hpending, hnumber, -, hget⟩ :=
    balanced_closeAll h.balanced (removedNext s.resources.pump)
  refine ⟨hbalanced, h.sound, Runtime.wellFormed_step h.wellFormed .resumePump,
    h.bounded.queueStep (queueStep_step (s := s.resources) (a := .resumePump) trivial), ?_, ?_,
    fun id operation hop => ?_⟩
  · rw [keys_eq_iff]
    intro id
    simp only [AsyncBrokerRuntime.resumePump]
    rw [managed_resumePump, ← hkeys, BTreeMap.containsKey, hget, BTreeMap.containsKey]
    by_cases hid : id ∈ removedNext s.resources.pump <;> simp [hid]
  · simp only [AsyncBrokerRuntime.resumePump]
    rw [hnext, hnumber, h.next_eq]
  · simp only [AsyncBrokerRuntime.resumePump] at hop
    rw [hpending] at hop
    exact h.pending_active id operation hop

end Operations

/-! ## Steps and runs -/

lemma Coherent.startPump (h : Coherent s) (generation : ℕ) :
    Coherent { s with resources := (s.resources.step (.startPump generation)).1 } := by
  refine h.of_resources (Runtime.wellFormed_step h.wellFormed _)
    (h.bounded.queueStep (queueStep_step trivial)) (fun id => ?_) ?_
  · rw [Runtime.step]
    · split_ifs <;> rfl
    all_goals simp
  · rw [Runtime.step]
    · split_ifs <;> rfl
    all_goals simp

lemma Coherent.popEvent (h : Coherent s) (hidle : s.resources.pump = .idle) :
    Coherent { s with resources := (s.resources.step .popEvent).1 } := by
  have hwell := Runtime.wellFormed_step h.wellFormed .popEvent
  have hstep : (s.resources.step .popEvent).1 =
      { s.resources with events := s.resources.events.pop.1 } := by
    have hsupervise : s.resources.step .popEvent = s.resources.supervise .popEvent :=
      if_pos hidle
    rw [hsupervise]
    rfl
  rw [hstep] at hwell ⊢
  exact h.of_resources hwell h.bounded.pop (fun id => rfl) rfl

lemma Coherent.pushCapability (h : Coherent s) (hidle : s.resources.pump = .idle)
    (generation : ℕ) (state : CapabilityState) :
    Coherent { s with
      resources := (s.resources.step (.pushCapability generation state)).1 } := by
  have hwell := Runtime.wellFormed_step h.wellFormed (.pushCapability generation state)
  have hsupervise : s.resources.step (.pushCapability generation state) =
      s.resources.supervise (.pushCapability generation state) := if_pos hidle
  rw [hsupervise, Runtime.supervise] at hwell ⊢
  cases hpush : s.resources.events.pushCapability generation state with
  | ok events =>
    rw [hpush] at hwell
    exact h.of_resources hwell (h.bounded.pushCapability hpush) (fun id => rfl) rfl
  | err code => exact h
  | panic => exact h

/-- What the supervisor does between two pumps keeps the tables in agreement, and no
assertion or overflow check fails. -/
lemma coherent_perform (h : Coherent s) (hidle : s.resources.pump = .idle)
    (call : RuntimeCall) : Coherent (s.perform call).2 ∧ (s.perform call).1 ≠ .panic := by
  cases call with
  | register capability =>
    have hsound : (s.executor.register capability).Sound :=
      ⟨h.sound.flight, h.sound.active_le, h.sound.jobs_le, h.sound.workers_le⟩
    exact ⟨⟨h.balanced, hsound, h.wellFormed, h.bounded, h.resources_eq, h.next_eq,
      h.pending_active⟩, by simp [perform]⟩
  | registerResource capability =>
    exact ⟨⟨h.balanced, h.sound, h.wellFormed, h.bounded, h.resources_eq, h.next_eq,
      h.pending_active⟩, by simp [perform]⟩
  | submit request answers deadline => exact ⟨h.submit request answers deadline, submit_ne_panic⟩
  | cancel requestId => exact ⟨h.cancel requestId, by simp [perform]⟩
  | openResource request answers =>
    refine ⟨h.openResource hidle request answers, ?_⟩
    rw [perform]
    cases hopen : (s.openResource request answers).1 with
    | ok opened => exact fun hpanic => by cases hpanic
    | err code => exact fun hpanic => by cases hpanic
    | panic => exact absurd hopen openResource_ne_panic
  | closeResource resourceId =>
    refine ⟨h.closeResource hidle resourceId, ?_⟩
    rw [perform, closeResource_ne_panic h]
    simp
  | revoke capability generation =>
    obtain ⟨hcoherent, -, effect, heffect, -⟩ := h.revoke hidle capability generation
    refine ⟨hcoherent, ?_⟩
    rw [perform, heffect]
    simp
  | revokeAll => exact ⟨h.revokeAll hidle, by simp [perform]⟩
  | pumpCompletion generation => exact ⟨h.pumpCompletion hidle generation, by simp [perform]⟩
  | startPump generation => exact ⟨h.startPump generation, by simp [perform]⟩
  | popEvent => exact ⟨h.popEvent hidle, by simp [perform]⟩
  | pushCapability generation state =>
    exact ⟨h.pushCapability hidle generation state, by simp [perform]⟩
  | worker w => exact ⟨h, by simp [perform]⟩
  | producer thread id request => exact ⟨h, by simp [perform]⟩
  | resumeProducer thread => exact ⟨h, by simp [perform]⟩
  | resumePump => exact ⟨h, by simp [perform]⟩

/-- One step: the tables still agree, and no assertion or overflow check has failed. -/
theorem coherent_step (h : Coherent s) (call : RuntimeCall) :
    Coherent (s.after call) ∧ (s.step call).1 ≠ .panic := by
  rw [after]
  cases call with
  | worker w => exact ⟨h.worker w, by simp [step]⟩
  | producer thread id request => exact ⟨h.producer thread id request, by simp [step]⟩
  | resumeProducer thread => exact ⟨h.resumeProducer thread, by simp [step]⟩
  | resumePump => exact ⟨h.resumePump, by simp [step]⟩
  | _ =>
    rw [step]
    · split_ifs with hidle
      · exact coherent_perform h hidle _
      · exact ⟨h, by simp⟩
    all_goals simp

/-- The maxima of the event queue stay under every action of the manager. -/
lemma maxima_step (resources : Runtime) (a : Action) :
    (resources.step a).1.events.maximumEdgeEvents = resources.events.maximumEdgeEvents ∧
      (resources.step a).1.events.maximumStateEvents = resources.events.maximumStateEvents := by
  by_cases ha : Quiet a
  · exact (queueStep_step ha).maxima
  have hstep : resources.step a =
      if resources.pump = .idle then resources.supervise a else (resources, []) := by
    cases a with
    | popEvent => rfl
    | pushCompletion requestId result generation => rfl
    | pushCapability generation state => rfl
    | _ => exact absurd trivial ha
  rw [hstep]
  split_ifs
  · cases a with
    | popEvent => exact maxima_pop
    | pushCompletion requestId result generation => exact maxima_pushEdge _ _
    | pushCapability generation state =>
      rw [Runtime.supervise]
      cases hpush : resources.events.pushCapability generation state with
      | ok events =>
        obtain ⟨rfl, -⟩ := pushCapability_eq_ok hpush
        exact ⟨rfl, rfl⟩
      | err code => exact ⟨rfl, rfl⟩
      | panic => exact ⟨rfl, rfl⟩
    | _ => exact absurd trivial ha
  · exact ⟨rfl, rfl⟩

lemma maxima_managerRevoke (resources : Runtime) (ids : List ℕ) (generation : ℕ) :
    (managerRevoke resources ids generation).events.maximumEdgeEvents =
        resources.events.maximumEdgeEvents ∧
      (managerRevoke resources ids generation).events.maximumStateEvents =
        resources.events.maximumStateEvents := by
  induction ids generalizing resources with
  | nil => exact ⟨rfl, rfl⟩
  | cons id ids ih =>
    obtain ⟨hedges, hstates⟩ := maxima_step resources (.revoke id generation)
    obtain ⟨hedges', hstates'⟩ := ih (resources.step (.revoke id generation)).1
    exact ⟨hedges'.trans hedges, hstates'.trans hstates⟩

/-- A step that changes neither limits nor maxima. -/
lemma Configured.of_eq {s' : AsyncBrokerRuntime}
    (h : Configured executorLimits lifecycleLimits states edges s)
    (hexecutor : s'.executor.limits = s.executor.limits)
    (hlifecycle : s'.lifecycle.limits = s.lifecycle.limits)
    (hevents : s'.events.maximumEdgeEvents = s.events.maximumEdgeEvents ∧
      s'.events.maximumStateEvents = s.events.maximumStateEvents) :
    Configured executorLimits lifecycleLimits states edges s' :=
  ⟨hexecutor.trans h.executor, hlifecycle.trans h.lifecycle, hevents.2.trans h.states,
    hevents.1.trans h.edges⟩

lemma configured_step (h : Coherent s)
    (hs : Configured executorLimits lifecycleLimits states edges s) (call : RuntimeCall) :
    Configured executorLimits lifecycleLimits states edges (s.after call) := by
  have hmaxima := maxima_step s.resources
  have hperform : s.resources.pump = .idle →
      Configured executorLimits lifecycleLimits states edges (s.perform call).2 := by
    intro hidle
    cases call with
    | submit request answers deadline =>
      cases hrun : (s.submit request answers deadline).1 with
      | err code =>
        rw [perform, submit_err hrun]
        exact hs
      | panic => exact absurd hrun submit_ne_panic
      | ok u =>
        obtain ⟨lifecycle, executor, hbegin, hsubmit, heq⟩ := submit_ok hrun
        rw [perform, heq]
        obtain ⟨-, -, -, rfl⟩ := LifecycleState.begin_eq_ok hbegin
        obtain ⟨-, -, -, -, rfl⟩ := BackendExecutor.submit_eq_ok hsubmit
        exact hs.of_eq rfl rfl ⟨rfl, rfl⟩
    | cancel requestId =>
      refine hs.of_eq ?_ rfl ⟨rfl, rfl⟩
      change (s.executor.cancel requestId).2.limits = _
      rw [BackendExecutor.cancel]
      split <;> rfl
    | openResource request answers =>
      rw [perform, openResource]
      cases s.resourceLimits request answers.limits with
      | none => exact hs
      | some limits =>
        dsimp only
        cases hallocate : s.lifecycle.allocateResource request.capability
            limits.reservedBufferedBytes with
        | err code => exact hs
        | panic => exact hs
        | ok allocated =>
          obtain ⟨resourceId, lifecycle⟩ := allocated
          have hlimits : lifecycle.limits = s.lifecycle.limits := by
            obtain ⟨-, -, -, -, -, rfl⟩ := LifecycleState.allocateResource_eq_ok hallocate
            rfl
          dsimp only
          cases s.managerOpen resourceId request limits answers with
          | err code =>
            exact hs.of_eq rfl (LifecycleState.limits_closeResource.trans hlimits) (hmaxima _)
          | panic => exact hs
          | ok payload => exact hs.of_eq rfl hlimits (hmaxima _)
    | closeResource resourceId =>
      exact hs.of_eq rfl LifecycleState.limits_closeResource (hmaxima _)
    | revoke capability generation =>
      obtain ⟨effect, lifecycle, hrevoke, hrevoked⟩ := h.balanced.revoke capability
      rw [perform, revoke, hrevoke]
      exact hs.of_eq rfl hrevoked.limits (maxima_managerRevoke _ _ _)
    | revokeAll =>
      refine hs.of_eq rfl rfl ?_
      change (s.resources.closeMany s.lifecycle.resources.keys).events.maximumEdgeEvents = _ ∧
        (s.resources.closeMany s.lifecycle.resources.keys).events.maximumStateEvents = _
      rw [(Runtime.closeMany_frame _).1]
      exact ⟨rfl, rfl⟩
    | pumpCompletion generation =>
      rw [perform, pumpCompletion, BackendExecutor.tryCompletion]
      cases s.executor.completions with
      | nil => exact hs
      | cons completion rest => exact hs.of_eq rfl rfl (hmaxima _)
    | startPump generation => exact hs.of_eq rfl rfl (hmaxima _)
    | popEvent => exact hs.of_eq rfl rfl (hmaxima _)
    | pushCapability generation state => exact hs.of_eq rfl rfl (hmaxima _)
    | register capability => exact hs.of_eq rfl rfl ⟨rfl, rfl⟩
    | registerResource capability => exact hs.of_eq rfl rfl ⟨rfl, rfl⟩
    | worker w => exact hs
    | producer thread id request => exact hs
    | resumeProducer thread => exact hs
    | resumePump => exact hs
  rw [after]
  cases call with
  | worker w => exact hs.of_eq (BackendExecutor.limits_work w) rfl ⟨rfl, rfl⟩
  | producer thread id request => exact hs.of_eq rfl rfl (hmaxima _)
  | resumeProducer thread => exact hs.of_eq rfl rfl (hmaxima _)
  | resumePump =>
    obtain ⟨-, -, -, hlimits, -⟩ :=
      balanced_closeAll h.balanced (removedNext s.resources.pump)
    exact hs.of_eq rfl hlimits (hmaxima _)
  | _ =>
    rw [step]
    · split_ifs with hidle
      · exact hperform hidle
      · exact hs
    all_goals simp

/-! ## The numbers of resources -/

/-- The number that a step hands out to a new resource, whether the resource is opened with
it or not. -/
def allocated (s : AsyncBrokerRuntime) : RuntimeCall → Option ℕ
  | .openResource request answers =>
    if s.resources.pump = .idle then
      (s.resourceLimits request answers.limits).bind fun limits =>
        match s.lifecycle.allocateResource request.capability limits.reservedBufferedBytes with
        | ok (resourceId, _) => some resourceId
        | _ => none
    else none
  | _ => none

/-- `open_resource` moves the next number on exactly when it hands one out. -/
lemma next_openResource (h : Coherent s) (hidle : s.resources.pump = .idle)
    (request : BackendRequest) (answers : OpenAnswers) :
    (s.allocated (.openResource request answers) = none ∧
        (s.openResource request answers).2.lifecycle.nextResourceId =
          s.lifecycle.nextResourceId) ∨
      s.allocated (.openResource request answers) = some s.lifecycle.nextResourceId ∧
        (s.openResource request answers).2.lifecycle.nextResourceId =
          s.lifecycle.nextResourceId + 1 := by
  rw [allocated, if_pos hidle, openResource]
  cases s.resourceLimits request answers.limits with
  | none => exact .inl ⟨rfl, rfl⟩
  | some limits =>
    rw [Option.bind_some]
    dsimp only
    cases hallocate : s.lifecycle.allocateResource request.capability
        limits.reservedBufferedBytes with
    | err code => exact .inl ⟨rfl, rfl⟩
    | panic => exact .inl ⟨rfl, rfl⟩
    | ok opened =>
      obtain ⟨resourceId, lifecycle⟩ := opened
      refine .inr ?_
      have hclose := LifecycleState.closeResource_allocateResource h.balanced hallocate
      obtain ⟨rfl, -, -, -, -, rfl⟩ := LifecycleState.allocateResource_eq_ok hallocate
      dsimp only
      cases hopen : s.managerOpen s.lifecycle.nextResourceId request limits answers with
      | err code =>
        rw [hclose]
        exact ⟨rfl, rfl⟩
      | panic => exact absurd hopen managerOpen_ne_panic
      | ok payload => exact ⟨rfl, rfl⟩

/-- A number that is handed out is the next one, and the next one moves on. -/
lemma allocated_step (h : Coherent s) (call : RuntimeCall) :
    s.lifecycle.nextResourceId ≤ (s.after call).lifecycle.nextResourceId ∧
      ∀ id, s.allocated call = some id → id = s.lifecycle.nextResourceId ∧
        (s.after call).lifecycle.nextResourceId = s.lifecycle.nextResourceId + 1 := by
  have hsame : (s.after call).lifecycle.nextResourceId = s.lifecycle.nextResourceId →
      s.allocated call = none →
        s.lifecycle.nextResourceId ≤ (s.after call).lifecycle.nextResourceId ∧
          ∀ id, s.allocated call = some id → id = s.lifecycle.nextResourceId ∧
            (s.after call).lifecycle.nextResourceId = s.lifecycle.nextResourceId + 1 := by
    intro heq hnone
    refine ⟨heq.ge, fun id hid => ?_⟩
    rw [hnone] at hid
    cases hid
  by_cases hidle : s.resources.pump = .idle
  swap
  · have hnone : s.allocated call = none := by
      cases call with
      | openResource request answers => exact if_neg hidle
      | _ => rfl
    refine hsame ?_ hnone
    cases call with
    | resumePump => exact (balanced_closeAll h.balanced _).2.2.1
    | worker w => rfl
    | producer thread id request => rfl
    | resumeProducer thread => rfl
    | _ =>
      rw [after, step, if_neg hidle]
      all_goals simp
  cases call with
  | openResource request answers =>
    have hafter : s.after (.openResource request answers) =
        (s.openResource request answers).2 := by
      rw [after, step, if_pos hidle, perform]
      all_goals simp
    rw [hafter]
    rcases next_openResource h hidle request answers with ⟨hnone, hnext⟩ | ⟨hsome, hnext⟩
    · refine ⟨hnext.ge, fun id hid => ?_⟩
      rw [hnone] at hid
      cases hid
    · refine ⟨by omega, fun id hid => ?_⟩
      rw [hsome] at hid
      exact ⟨(Option.some.inj hid).symm, hnext⟩
  | resumePump => exact hsame (balanced_closeAll h.balanced _).2.2.1 rfl
  | submit request answers deadline =>
    refine hsame ?_ rfl
    have hafter : s.after (.submit request answers deadline) =
        (s.submit request answers deadline).2 := by
      rw [after, step, if_pos hidle, perform]
      all_goals simp
    rw [hafter]
    cases hrun : (s.submit request answers deadline).1 with
    | err code => rw [submit_err hrun]
    | panic => exact absurd hrun submit_ne_panic
    | ok u =>
      obtain ⟨lifecycle, executor, hbegin, -, heq⟩ := submit_ok hrun
      rw [heq]
      obtain ⟨-, -, -, rfl⟩ := LifecycleState.begin_eq_ok hbegin
      rfl
  | revoke capability generation =>
    refine hsame ?_ rfl
    have hafter : s.after (.revoke capability generation) =
        (s.revoke capability generation).2 := by
      rw [after, step, if_pos hidle, perform]
      all_goals simp
    rw [hafter]
    obtain ⟨-, -, effect, -, hrevoked⟩ := h.revoke hidle capability generation
    exact hrevoked.next
  | closeResource resourceId =>
    refine hsame ?_ rfl
    rw [after, step, if_pos hidle, perform]
    · exact LifecycleState.next_closeResource
    all_goals simp
  | pumpCompletion generation =>
    refine hsame ?_ rfl
    rw [after, step, if_pos hidle, perform, pumpCompletion]
    · cases s.executor.tryCompletion with
      | mk completion executor => cases completion <;> rfl
    all_goals simp
  | _ =>
    refine hsame ?_ rfl
    first
    | rfl
    | (rw [after, step, if_pos hidle] <;> first | rfl | simp)

/-- The numbers that a run hands out increase. -/
lemma allocated_run (h : Coherent s) (calls : List RuntimeCall) :
    (outputs after allocated s calls).Pairwise (· < ·) ∧
      ∀ id ∈ outputs after allocated s calls, s.lifecycle.nextResourceId ≤ id := by
  induction calls generalizing s with
  | nil => exact ⟨.nil, by simp [outputs]⟩
  | cons call calls ih =>
    obtain ⟨hle, hid⟩ := allocated_step h call
    obtain ⟨hpairwise, hge⟩ := ih (coherent_step h call).1
    rw [outputs]
    cases hallocated : s.allocated call with
    | none => exact ⟨hpairwise, fun id hmem => hle.trans (hge id hmem)⟩
    | some id =>
      obtain ⟨rfl, hnext⟩ := hid id hallocated
      refine ⟨List.pairwise_cons.mpr ⟨fun id hmem => ?_, hpairwise⟩, fun id hmem => ?_⟩
      · have hlater := hge id hmem
        omega
      · rcases List.mem_cons.mp hmem with rfl | hmem
        · exact le_rfl
        · exact hle.trans (hge id hmem)

/-- After every run from a new runtime the tables agree within the maxima it was made with,
resources have had increasing numbers, no step can fail an assertion or overflow, and an
operation that fails leaves the books as they were, up to the next number. -/
theorem runtime_coherent (hnew : new executorLimits lifecycleLimits states edges = ok s)
    (calls : List RuntimeCall) :
    Coherent (run after s calls) ∧
      Configured executorLimits lifecycleLimits states edges (run after s calls) ∧
      (outputs after allocated s calls).Pairwise (· < ·) ∧
      (∀ call, ((run after s calls).step call).1 ≠ .panic) ∧
      (∀ request answers deadline code,
        ((run after s calls).submit request answers deadline).1 = err code →
          ((run after s calls).submit request answers deadline).2.lifecycle =
            (run after s calls).lifecycle) ∧
      ∀ request answers code,
        ((run after s calls).openResource request answers).1 = err code →
          ((run after s calls).openResource request answers).2.lifecycle =
              (run after s calls).lifecycle ∨
            ((run after s calls).openResource request answers).2.lifecycle =
              { (run after s calls).lifecycle with
                nextResourceId := (run after s calls).lifecycle.nextResourceId + 1 } := by
  obtain ⟨hcoherent, hconfigured⟩ := coherent_new hnew
  have hrun := run_invariant (P := fun s => Coherent s ∧
    Configured executorLimits lifecycleLimits states edges s)
    (fun s call h => ⟨(coherent_step h.1 call).1, configured_step h.1 h.2 call⟩)
    ⟨hcoherent, hconfigured⟩ calls
  refine ⟨hrun.1, hrun.2, (allocated_run hcoherent calls).1,
    fun call => (coherent_step hrun.1 call).2, fun request answers deadline code herr => ?_,
    fun request answers code herr => openResource_err hrun.1 herr⟩
  rw [submit_err herr]

/-! ### A run that opens a resource and submits an operation -/

/-- A request for notifications. -/
def notification (requestId : ℕ) : BackendRequest where
  requestId := requestId
  capability := .notificationSendV1
  authorizedScope := .notificationSend ⟨.empty, .empty, false, 60⟩
  bindings := .default
  activation := none
  operation := "send"
  payload := []

def streaming : OpenAnswers where
  limits := some ⟨1024, 1⟩
  limitsAgain := some ⟨1024, 1⟩
  authorized := none
  opened := .ok []

def openAndSubmit : List RuntimeCall :=
  [.registerResource .notificationSendV1, .openResource (notification 1) streaming,
    .register .notificationSendV1, .submit (notification 2) ⟨none, true⟩ 5]

theorem runtime_coherent_openAndSubmit :
    ∃ s, new ⟨1, 1, 1⟩ ⟨1, 1, 4096⟩ 4 4 = ok s ∧ Coherent (run after s openAndSubmit) ∧
      (run after s openAndSubmit).lifecycle.resources.keys = [1] ∧
      (run after s openAndSubmit).lifecycle.pending.keys = [2] := by
  refine ⟨_, rfl, ?_, by decide, by decide⟩
  have hnew : new ⟨1, 1, 1⟩ ⟨1, 1, 4096⟩ 4 4 = ok _ := rfl
  exact (runtime_coherent hnew openAndSubmit).1

end AsyncBrokerRuntime

end TouchBar.Broker
