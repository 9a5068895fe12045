import TouchBar.Broker.Connection

/-!
# What a turn of the loop does

The thread of a connection pumps completions only into a queue that it has flushed, so
that each of them finds room.  `Serving` is the invariant that says so.  `Change` lists what
a step can do to the log and to the operations in hand: everything about requests and their
answers follows from it.
-/

namespace TouchBar.Broker

open TouchBar.Rust TouchBar.Lib TouchBar.Policy TouchBar.Supervisor TouchBar.Protocol Outcome

/-! ## Completions in the event queue -/

def completionId : HostEvent → Option ℕ
  | .completion requestId _ => some requestId
  | _ => none

/-- The operations whose completions wait in the queue. -/
def waiting (q : HostEventQueue) : List ℕ := q.edgeEvents.filterMap completionId

section Queue

variable {q q' : HostEventQueue}

lemma waiting_recordDropped (count generation : ℕ) :
    waiting (q.recordDropped count generation) = waiting q := rfl

/-- An event of a resource never takes the place of a completion. -/
lemma waiting_queueStep (h : QueueStep q q') : waiting q' = waiting q := by
  cases h with
  | same => rfl
  | resource id sequence result generation =>
    rw [waiting, HostEventQueue.pushResource, HostEventQueue.edgeEvents_pushEdge]
    split_ifs
    · rfl
    · rw [List.filterMap_append]
      exact List.append_nil _
  | dropped count generation => rfl

/-- A completion that finds room waits behind the others. -/
lemma waiting_pushCompletion {requestId generation : ℕ} {result : BrokerResult}
    (hroom : q.edgeEvents.length < q.maximumEdgeEvents) :
    waiting (q.pushCompletion requestId result generation) = waiting q ++ [requestId] ∧
      (q.pushCompletion requestId result generation).edgeEvents.length =
        q.edgeEvents.length + 1 := by
  have hfull : q.full = false := by
    rw [HostEventQueue.full, decide_eq_false_iff_not]
    omega
  have hedges : (q.pushCompletion requestId result generation).edgeEvents =
      q.edgeEvents ++ [.completion requestId result] := by
    rw [HostEventQueue.pushCompletion, HostEventQueue.edgeEvents_pushEdge, if_neg (by simp [hfull])]
  rw [waiting, hedges]
  exact ⟨List.filterMap_append, List.length_append⟩

/-- The queue is empty, or what is popped is the first completion or no completion. -/
lemma pop_cases (q : HostEventQueue) :
    (q.pop = (q, none) ∧ q.edgeEvents = []) ∨
      ∃ q' event, q.pop = (q', some event) ∧
        ((completionId event = none ∧ waiting q' = waiting q) ∨
          ∃ requestId result, event = .completion requestId result ∧
            waiting q = requestId :: waiting q') := by
  rw [HostEventQueue.pop]
  cases hstates : q.stateEvents.entries with
  | cons entry entries =>
    obtain ⟨capability, generation, state⟩ := entry
    exact .inr ⟨_, _, rfl, .inl ⟨rfl, rfl⟩⟩
  | nil =>
    dsimp only
    cases hedges : q.edgeEvents with
    | cons event edges =>
      refine .inr ⟨_, _, rfl, ?_⟩
      cases event with
      | completion requestId result =>
        refine .inr ⟨requestId, result, rfl, ?_⟩
        rw [waiting, hedges]
        rfl
      | capabilityChanged generation state =>
        refine .inl ⟨rfl, ?_⟩
        rw [waiting, waiting, hedges]
        rfl
      | resourceEvent resourceId sequence result =>
        refine .inl ⟨rfl, ?_⟩
        rw [waiting, waiting, hedges]
        rfl
      | overflow generation droppedEvents =>
        refine .inl ⟨rfl, ?_⟩
        rw [waiting, waiting, hedges]
        rfl
    | nil =>
      dsimp only
      split_ifs
      · refine .inr ⟨_, _, rfl, .inl ⟨rfl, ?_⟩⟩
        rw [waiting, waiting, hedges]
      · exact .inl ⟨rfl, rfl⟩

end Queue

/-! ## What the thread does to the runtime -/

namespace AsyncBrokerRuntime

/-- The operations in hand: those that are active, and those whose completions wait. -/
def inHand (r : AsyncBrokerRuntime) : List ℕ := r.executor.active.keys ++ waiting r.events

/-- Some calls lead from a state to another. -/
def Advances (r r' : AsyncBrokerRuntime) : Prop := ∃ calls, r' = run after r calls

variable {r r' r'' : AsyncBrokerRuntime} {executorLimits : ExecutorLimits}
  {lifecycleLimits : LifecycleLimits} {states edges : ℕ}

lemma Advances.refl (r : AsyncBrokerRuntime) : Advances r r := ⟨[], rfl⟩

lemma Advances.trans (h : Advances r r') (h' : Advances r' r'') : Advances r r'' := by
  obtain ⟨calls, rfl⟩ := h
  obtain ⟨calls', rfl⟩ := h'
  exact ⟨calls ++ calls', (run_append _ _ _).symm⟩

lemma advances_after (r : AsyncBrokerRuntime) (call : RuntimeCall) : Advances r (r.after call) :=
  ⟨[call], rfl⟩

/-- The tables agree all the way. -/
lemma Advances.coherent (h : Advances r r') (hr : Coherent r)
    (hs : Configured executorLimits lifecycleLimits states edges r) :
    Coherent r' ∧ Configured executorLimits lifecycleLimits states edges r' := by
  obtain ⟨calls, rfl⟩ := h
  exact run_invariant (P := fun r => Coherent r ∧
    Configured executorLimits lifecycleLimits states edges r)
    (fun s call hs => ⟨(coherent_step hs.1 call).1, configured_step hs.1 hs.2 call⟩) ⟨hr, hs⟩ calls

/-- What a call of the thread between two pumps keeps: no operation is added or finished,
and no completion is queued or lost. -/
structure Steady (r r' : AsyncBrokerRuntime) : Prop where
  advances : Advances r r'
  idle : r'.resources.pump = .idle
  active : r'.executor.active.keys = r.executor.active.keys
  waiting_eq : waiting r'.events = waiting r.events

lemma Steady.trans (h : Steady r r') (h' : Steady r' r'') : Steady r r'' :=
  ⟨h.advances.trans h'.advances, h'.idle, h'.active.trans h.active,
    h'.waiting_eq.trans h.waiting_eq⟩

lemma Steady.refl (hidle : r.resources.pump = .idle) : Steady r r := ⟨.refl r, hidle, rfl, rfl⟩

lemma Steady.inHand (h : Steady r r') : r'.inHand = r.inHand := by
  rw [AsyncBrokerRuntime.inHand, AsyncBrokerRuntime.inHand, h.active, h.waiting_eq]

/-- Only the start of a pump and its turns move the pump. -/
lemma pump_step {resources : Runtime} (hidle : resources.pump = .idle) {a : Action}
    (hstart : ∀ generation, a ≠ .startPump generation) :
    (resources.step a).1.pump = .idle := by
  rcases Runtime.producer_or_supervisor resources a with
    ⟨thread, id, request, rfl⟩ | ⟨thread, rfl⟩ | ⟨h, -⟩ | h
  · rw [Runtime.step]
    split_ifs
    · exact (Runtime.enter_frame thread request).2.1.trans hidle
    · exact hidle
  · rw [Runtime.step]
    split
    · exact (Runtime.resume_frame thread _).2.1.trans hidle
    · exact hidle
  · rw [h, hidle]
    exact hidle
  · rw [h, if_pos hidle]
    cases a with
    | openResource kept =>
      rw [Runtime.supervise]
      split_ifs <;> exact hidle
    | closeResource id => exact Runtime.close_frame.2.2.2.2.trans hidle
    | revoke id generation =>
      rw [Runtime.supervise]
      split
      · exact hidle
      · exact Runtime.close_frame.2.2.2.2.trans hidle
    | pushCapability generation state =>
      rw [Runtime.supervise]
      split <;> exact hidle
    | startPump generation => exact absurd rfl (hstart generation)
    | _ => exact hidle

/-- Between two pumps the thread gets to do what it calls. -/
lemma after_perform (hidle : r.resources.pump = .idle) {call : RuntimeCall}
    (hcall : ∀ r : AsyncBrokerRuntime, r.step call =
      if r.resources.pump = .idle then r.perform call else (ok (), r)) :
    r.after call = (r.perform call).2 := by
  rw [after, hcall, if_pos hidle]

lemma keys_cancel (executor : BackendExecutor) (requestId : ℕ) :
    (executor.cancel requestId).2.active.keys = executor.active.keys := by
  refine BTreeMap.keys_eq_of_containsKey fun id => ?_
  rw [BTreeMap.containsKey, BTreeMap.containsKey, BackendExecutor.get_cancel]
  split_ifs
  · exact Option.isSome_map
  · rfl

lemma steady_cancel (hidle : r.resources.pump = .idle) (requestId : ℕ) :
    Steady r (r.cancel requestId).2 ∧ (r.cancel requestId).2.events = r.events := by
  have hafter : r.after (.cancel requestId) = (r.cancel requestId).2 :=
    after_perform hidle fun _ => rfl
  exact ⟨⟨hafter ▸ advances_after r _, hidle, keys_cancel _ _, rfl⟩, rfl⟩

lemma events_closeResource (hidle : r.resources.pump = .idle) (resourceId : ℕ) :
    (r.closeResource resourceId).2.events = r.events := by
  change (r.resources.step (.closeResource resourceId)).1.events = _
  have hstep : r.resources.step (.closeResource resourceId) =
      r.resources.supervise (.closeResource resourceId) := if_pos hidle
  rw [hstep]
  exact Runtime.close_frame.1

lemma steady_closeResource (hidle : r.resources.pump = .idle) (resourceId : ℕ) :
    Steady r (r.closeResource resourceId).2 ∧
      (r.closeResource resourceId).2.events = r.events := by
  have hafter : r.after (.closeResource resourceId) = (r.closeResource resourceId).2 :=
    after_perform hidle fun _ => rfl
  have hevents := events_closeResource hidle resourceId
  exact ⟨⟨hafter ▸ advances_after r _, pump_step hidle (by simp), rfl, by rw [hevents]⟩, hevents⟩

lemma events_step_openResource {resources : Runtime} (hidle : resources.pump = .idle)
    (kept : Bool) : (resources.step (.openResource kept)).1.events = resources.events := by
  have hstep : resources.step (.openResource kept) =
      resources.supervise (.openResource kept) := if_pos hidle
  rw [hstep, Runtime.supervise]
  split_ifs <;> rfl

lemma openResource_frame (hidle : r.resources.pump = .idle) (request : BackendRequest)
    (answers : OpenAnswers) :
    (r.openResource request answers).2.events = r.events ∧
      (r.openResource request answers).2.executor = r.executor ∧
      (r.openResource request answers).2.resources.pump = .idle := by
  have hevents := events_step_openResource hidle
  have hpump : ∀ kept, (r.resources.step (.openResource kept)).1.pump = .idle :=
    fun kept => pump_step hidle (by simp)
  rw [openResource]
  cases r.resourceLimits request answers.limits with
  | none => exact ⟨rfl, rfl, hidle⟩
  | some limits =>
    dsimp only
    cases r.lifecycle.allocateResource request.capability limits.reservedBufferedBytes with
    | err code => exact ⟨rfl, rfl, hidle⟩
    | panic => exact ⟨rfl, rfl, hidle⟩
    | ok allocated =>
      dsimp only
      cases r.managerOpen allocated.1 request limits answers with
      | err code => exact ⟨hevents false, rfl, hpump false⟩
      | panic => exact ⟨rfl, rfl, hidle⟩
      | ok payload => exact ⟨hevents true, rfl, hpump true⟩

lemma steady_openResource (hidle : r.resources.pump = .idle) (request : BackendRequest)
    (answers : OpenAnswers) :
    Steady r (r.openResource request answers).2 ∧
      (r.openResource request answers).2.events = r.events := by
  have hafter : r.after (.openResource request answers) = (r.openResource request answers).2 :=
    after_perform hidle fun _ => rfl
  obtain ⟨hevents, hexecutor, hpump⟩ := openResource_frame hidle request answers
  exact ⟨⟨hafter ▸ advances_after r _, hpump, by rw [hexecutor], by rw [hevents]⟩, hevents⟩

lemma advances_submit (hidle : r.resources.pump = .idle) (request : BackendRequest)
    (answers : SubmitAnswers) (deadline : ℕ) :
    Advances r (r.submit request answers deadline).2 := by
  have hafter : r.after (.submit request answers deadline) =
      (r.submit request answers deadline).2 :=
    after_perform hidle fun _ => rfl
  exact hafter ▸ advances_after r _

/-- What a submitted operation adds. -/
lemma submit_spec {request : BackendRequest} {answers : SubmitAnswers} {deadline : ℕ}
    (h : (r.submit request answers deadline).1 = ok ()) :
    ((r.submit request answers deadline).2.executor.active.keys).Perm
        (request.requestId :: r.executor.active.keys) ∧
      (r.submit request answers deadline).2.resources = r.resources := by
  obtain ⟨lifecycle, executor, -, hsubmit, heq⟩ := submit_ok h
  obtain ⟨-, hnone, -, -, rfl⟩ := BackendExecutor.submit_eq_ok hsubmit
  rw [heq]
  exact ⟨BTreeMap.keys_insert_perm hnone, rfl⟩

lemma steady_revoke (h : Coherent r) (hidle : r.resources.pump = .idle)
    (capability : CapabilityId) (generation : ℕ) :
    (∃ effect, (r.revoke capability generation).1 = some effect) ∧
      Steady r (r.revoke capability generation).2 := by
  have hafter : r.after (.revoke capability generation) =
      (r.revoke capability generation).2 :=
    after_perform hidle fun _ => rfl
  obtain ⟨-, hpump, effect, heffect, -⟩ := h.revoke hidle capability generation
  refine ⟨⟨effect, heffect⟩, hafter ▸ advances_after r _, hpump, ?_, ?_⟩
  · rw [revoke]
    split <;> exact BTreeMap.keys_mapValues
  · rw [revoke]
    split
    · rfl
    · -- the manager queues events of resources only
      have hrevoke : ∀ (ids : List ℕ) (resources : Runtime),
          waiting (managerRevoke resources ids generation).events = waiting resources.events := by
        intro ids
        induction ids with
        | nil => exact fun resources => rfl
        | cons id ids ih =>
          intro resources
          have hstep := queueStep_step (s := resources) (a := .revoke id generation) trivial
          exact (ih _).trans (waiting_queueStep hstep)
      exact hrevoke _ _

lemma steady_revokeAll (hidle : r.resources.pump = .idle) : Steady r r.revokeAll.2 := by
  have hafter : r.after .revokeAll = r.revokeAll.2 :=
    after_perform hidle fun _ => rfl
  have hclose : ∀ (ids : List ℕ) (resources : Runtime), resources.pump = .idle →
      (resources.closeMany ids).pump = .idle := by
    intro ids
    induction ids with
    | nil => exact fun resources h => h
    | cons id ids ih => exact fun resources h => ih _ (Runtime.close_frame.2.2.2.2.trans h)
  refine ⟨hafter ▸ advances_after r _, hclose _ _ hidle, BTreeMap.keys_mapValues, ?_⟩
  change waiting (r.resources.closeMany r.lifecycle.resources.keys).events = _
  rw [(Runtime.closeMany_frame _).1]
  rfl

lemma steady_pushCapability (hidle : r.resources.pump = .idle) (generation : ℕ)
    (state : CapabilityState) :
    Steady r (r.perform (.pushCapability generation state)).2 := by
  have hafter : r.after (.pushCapability generation state) =
      (r.perform (.pushCapability generation state)).2 := after_perform hidle fun _ => rfl
  refine ⟨hafter ▸ advances_after r _,
    pump_step (a := .pushCapability generation state) hidle (by simp), rfl, ?_⟩
  have hstep : r.resources.step (.pushCapability generation state) =
      r.resources.supervise (.pushCapability generation state) := if_pos hidle
  change waiting (r.resources.step (.pushCapability generation state)).1.events = _
  rw [hstep, Runtime.supervise]
  cases hpush : r.resources.events.pushCapability generation state with
  | ok events =>
    obtain ⟨rfl, -⟩ := pushCapability_eq_ok hpush
    rfl
  | err code => rfl
  | panic => rfl

/-- A turn of the completion pump: there is no completion, or one operation goes from the
active ones to the queue, if the queue has room for every active one. -/
lemma pumpCompletion_spec (h : Coherent r) (hidle : r.resources.pump = .idle) (generation : ℕ)
    (hroom : r.events.edgeEvents.length + r.executor.active.len ≤ r.events.maximumEdgeEvents) :
    ((r.pumpCompletion generation).1 = false ∧ r.executor.completions = []) ∨
      ((r.pumpCompletion generation).1 = true ∧
        Advances r (r.pumpCompletion generation).2 ∧
        (r.pumpCompletion generation).2.resources.pump = .idle ∧
        ((r.pumpCompletion generation).2.inHand).Perm r.inHand ∧
        (r.pumpCompletion generation).2.events.edgeEvents.length +
            (r.pumpCompletion generation).2.executor.active.len ≤
          (r.pumpCompletion generation).2.events.maximumEdgeEvents ∧
        (r.pumpCompletion generation).2.executor.completions.length + 1 =
          r.executor.completions.length) := by
  have hafter : r.after (.pumpCompletion generation) = (r.pumpCompletion generation).2 :=
    after_perform hidle fun _ => rfl
  have hadvances : Advances r (r.pumpCompletion generation).2 := hafter ▸ advances_after r _
  rw [pumpCompletion, BackendExecutor.tryCompletion] at *
  cases hcompletions : r.executor.completions with
  | nil => exact .inl ⟨rfl, rfl⟩
  | cons completion rest =>
    rw [hcompletions] at hadvances
    dsimp only at hadvances ⊢
    have hcontains : r.executor.active.containsKey completion.requestId = true :=
      h.sound.containsKey_of_mem (by simp [hcompletions])
    obtain ⟨operation, hget⟩ := BTreeMap.containsKey_iff.mp hcontains
    have hkeys := BTreeMap.keys_remove_perm hget
    have hlen := hkeys.length_eq
    rw [List.length_cons, BTreeMap.length_keys, BTreeMap.length_keys] at hlen
    have hstep : r.resources.step
        (.pushCompletion completion.requestId completion.result generation) =
        r.resources.supervise
          (.pushCompletion completion.requestId completion.result generation) := if_pos hidle
    obtain ⟨hwaiting, hedges⟩ :=
      @waiting_pushCompletion r.events completion.requestId generation completion.result (by omega)
    have hmaximum := (maxima_pushEdge (q := r.events)
      (.completion completion.requestId completion.result) generation).1
    refine .inr ⟨rfl, hadvances, ?_, ?_, ?_, rfl⟩
    · rw [hstep]
      exact hidle
    · rw [inHand, inHand, events, hstep]
      change (List.Perm (_ ++ waiting (r.events.pushCompletion _ _ _)) _)
      rw [hwaiting]
      -- the number goes from the front of the one list to the back of the other
      have hmiddle : ((r.executor.active.remove completion.requestId).keys ++
          (waiting r.events ++ [completion.requestId])).Perm
          (completion.requestId :: (r.executor.active.remove completion.requestId).keys ++
            waiting r.events) := by
        rw [← List.append_assoc]
        exact List.perm_append_singleton _ _
      exact hmiddle.trans (hkeys.symm.append_right _)
    · rw [events, hstep]
      change (r.events.pushCompletion _ _ _).edgeEvents.length + _ ≤
        (r.events.pushCompletion _ _ _).maximumEdgeEvents
      rw [hedges]
      refine le_trans ?_ (hroom.trans hmaximum.ge)
      omega

/-- A turn of the pump of resource events. -/
lemma resumePump_spec (r : AsyncBrokerRuntime) :
    Advances r r.resumePump ∧ r.resumePump.executor = r.executor ∧
      waiting r.resumePump.events = waiting r.events :=
  ⟨advances_after r .resumePump, rfl,
    waiting_queueStep (queueStep_step (s := r.resources) (a := .resumePump) trivial)⟩

lemma startPump_spec (hidle : r.resources.pump = .idle) (generation : ℕ) :
    Advances r (r.perform (.startPump generation)).2 ∧
      (r.perform (.startPump generation)).2.executor = r.executor ∧
      (r.perform (.startPump generation)).2.events = r.events := by
  have hafter : r.after (.startPump generation) = (r.perform (.startPump generation)).2 :=
    after_perform hidle fun _ => rfl
  have hstep : r.resources.step (.startPump generation) =
      r.resources.supervise (.startPump generation) := if_pos hidle
  refine ⟨hafter ▸ advances_after r _, rfl, ?_⟩
  change (r.resources.step (.startPump generation)).1.events = _
  rw [hstep]
  rfl

lemma popEvent_spec (hidle : r.resources.pump = .idle) :
    Advances r (r.perform .popEvent).2 ∧ (r.perform .popEvent).2.executor = r.executor ∧
      (r.perform .popEvent).2.resources.pump = .idle ∧
      (r.perform .popEvent).2.events = r.events.pop.1 := by
  have hafter : r.after .popEvent = (r.perform .popEvent).2 :=
    after_perform hidle fun _ => rfl
  have hstep : r.resources.step .popEvent = r.resources.supervise .popEvent := if_pos hidle
  refine ⟨hafter ▸ advances_after r _, rfl, pump_step (a := .popEvent) hidle (by simp), ?_⟩
  change (r.resources.step .popEvent).1.events = _
  rw [hstep]
  rfl

end AsyncBrokerRuntime

/-! ## What `handle_request` does with a message -/

/-- The message is a call of a broker. -/
def isOperation : HostMessage → Bool
  | .request _ _ _ _ _ _ => true
  | _ => false

/-- The number of the request that a message answers. -/
def answersTo : SupervisorMessage → Option UInt64
  | .capabilities requestId _ _ => some requestId
  | .response requestId _ => some requestId
  | _ => none

namespace SupervisorConnection

variable {s : SupervisorConnection} {message : HostMessage} {handled : Handled}

/-- The record of a broker call that is answered at once; other messages have none. -/
def AuditsOf (message : HostMessage) (effects : List Effect) : Prop :=
  if isOperation message then ∃ record, effects = [.audited (requestIdOf message).toNat record]
  else effects = []

/-- The three things that can become of a message: it is refused because its number is not
fresh, answered at once, or submitted as an operation. -/
inductive Handles (s : SupervisorConnection) (message : HostMessage) (handled : Handled) : Prop
  | refused (hstale : (requestIdOf message).toNat ≤ s.lastRequestId)
      (heq : handled = ⟨s, [.violation],
        some (.refused (.response (requestIdOf message) (.error .invalidRequest)))⟩)
  | answered (runtime : AsyncBrokerRuntime) (effects : List Effect) (reply : SupervisorMessage)
      (hfresh : s.lastRequestId < (requestIdOf message).toNat)
      (hsteady : s.runtime.Steady runtime) (hevents : runtime.events = s.runtime.events)
      (haudits : AuditsOf message effects) (hreply : answersTo reply = some (requestIdOf message))
      (heq : handled = ⟨{ s with
        lastRequestId := (requestIdOf message).toNat
        runtime := runtime }, effects, some (.sent reply)⟩)
  | submitted (runtime : AsyncBrokerRuntime) (audit : PendingAudit)
      (hfresh : s.lastRequestId < (requestIdOf message).toNat) (hcall : isOperation message = true)
      (hadvances : s.runtime.Advances runtime) (hidle : runtime.resources.pump = .idle)
      (hevents : runtime.events = s.runtime.events)
      (hactive : runtime.executor.active.keys.Perm
        ((requestIdOf message).toNat :: s.runtime.executor.active.keys))
      (heq : handled = ⟨{ s with
        lastRequestId := (requestIdOf message).toNat
        runtime := runtime
        pendingAudit := s.pendingAudit.insert (requestIdOf message).toNat audit }, [], none⟩)

section Attempt

variable {requestId : UInt64} {phase : CallbackPhase} {capability operation : String}
  {payload : List UInt8} {activation : Option Protocol.ActivationContext} {a : Answers}

/-- An attempt either submits the operation and has no answer yet, or it has an answer and
adds no operation. -/
lemma attempt_spec (hidle : s.runtime.resources.pump = .idle) :
    (s.attempt requestId phase capability operation payload activation a).1 ≠ .panic ∧
      ((s.attempt requestId phase capability operation payload activation a).1 ≠ ok none →
        s.runtime.Steady (s.attempt requestId phase capability operation payload activation a).2 ∧
        (s.attempt requestId phase capability operation payload activation a).2.events =
          s.runtime.events) ∧
      ((s.attempt requestId phase capability operation payload activation a).1 = ok none →
        s.runtime.Advances
            (s.attempt requestId phase capability operation payload activation a).2 ∧
          ((s.attempt requestId phase capability operation payload activation
              a).2.executor.active.keys).Perm
            (requestId.toNat :: s.runtime.executor.active.keys) ∧
          (s.attempt requestId phase capability operation payload activation a).2.resources =
            s.runtime.resources) := by
  have hrefl : s.runtime.Steady s.runtime ∧ s.runtime.events = s.runtime.events :=
    ⟨.refl hidle, rfl⟩
  have hauthorize : ∀ id, authorizeRequest s.policy phase id operation ≠ .panic := by
    intro id
    rw [authorizeRequest]
    split_ifs
    · simp
    · simp
    · split
      · simp
      · split
        · simp
        · split <;> simp
  have henvelope : validateActivationEnvelope s.limits phase activation a.now ≠ .panic := by
    rw [validateActivationEnvelope.eq_def]
    split
    · simp
    · split_ifs
      · simp
      · simp
      · simp
      · split
        · simp
        · split_ifs <;> simp
  have hboth : (do
      let authorized ← authorizeRequest s.policy phase capability operation
      validateActivationEnvelope s.limits phase activation a.now
      ok authorized : Outcome BrokerErrorCode (CapabilityId × CapabilityScope × GrantBindings)) ≠
      .panic := by
    intro hpanic
    rcases bind_eq_panic.mp hpanic with h | ⟨authorized, -, h⟩
    · exact hauthorize _ h
    · rcases bind_eq_panic.mp h with h | ⟨u, -, h⟩
      · exact henvelope h
      · cases h
  rw [attempt]
  split
  · exact ⟨by simp, fun _ => hrefl, by simp⟩
  · next hpanic => exact absurd hpanic hboth
  · next id scope bindings hok =>
    split
    · exact ⟨by simp, fun _ => hrefl, by simp⟩
    · next now hclock =>
      dsimp only
      split_ifs with hlimits
      · -- a resource: the answer is its payload or an error
        refine ⟨?_, fun _ => AsyncBrokerRuntime.steady_openResource hidle _ _, fun h => ?_⟩
        · intro hpanic
          rw [← bind_pure_comp] at hpanic
          rcases bind_eq_panic.mp hpanic with h | ⟨opened, -, h⟩
          · exact AsyncBrokerRuntime.openResource_ne_panic h
          · cases h
        · rw [map_eq_ok] at h
          obtain ⟨opened, -, h⟩ := h
          cases h
      · refine ⟨?_, fun h => ?_, fun h => ?_⟩
        · intro hpanic
          rw [← bind_pure_comp] at hpanic
          rcases bind_eq_panic.mp hpanic with h | ⟨u, -, h⟩
          · exact AsyncBrokerRuntime.submit_ne_panic h
          · cases h
        · -- an error, which leaves the runtime alone
          dsimp only
          cases hrun : (s.runtime.submit _ a.submit _).1 with
          | ok u =>
            rw [hrun] at h
            exact absurd rfl h
          | panic => exact absurd hrun AsyncBrokerRuntime.submit_ne_panic
          | err code =>
            rw [AsyncBrokerRuntime.submit_err hrun]
            exact hrefl
        · dsimp only at h ⊢
          rw [map_eq_ok] at h
          obtain ⟨u, hrun, -⟩ := h
          obtain ⟨hkeys, hresources⟩ := AsyncBrokerRuntime.submit_spec hrun
          exact ⟨AsyncBrokerRuntime.advances_submit hidle _ _ _, hkeys, hresources⟩

end Attempt

/-- Every message is handled in one of the three ways, and never with a panic. -/
theorem handleRequest_spec (h : s.runtime.Coherent) (hidle : s.runtime.resources.pump = .idle)
    (message : HostMessage) (a : Answers) :
    ∃ handled, s.handleRequest message a = some handled ∧ Handles s message handled := by
  rw [handleRequest]
  split_ifs with hid
  · refine ⟨_, rfl, .refused ?_ rfl⟩
    rcases Bool.or_eq_true_iff.mp hid with hzero | hle
    · rw [of_decide_eq_true hzero]
      exact Nat.zero_le _
    · exact of_decide_eq_true hle
  · simp only [Bool.or_eq_true, decide_eq_true_eq, not_or, not_le] at hid
    have hfresh := hid.2
    cases message with
    | getCapabilities requestId =>
      exact ⟨_, rfl, .answered s.runtime [] _ hfresh (.refl hidle) rfl rfl rfl rfl⟩
    | cancel requestId targetRequestId =>
      obtain ⟨hsteady, hevents⟩ := AsyncBrokerRuntime.steady_cancel hidle targetRequestId.toNat
      exact ⟨_, rfl, .answered _ [] _ hfresh hsteady hevents rfl rfl rfl⟩
    | close requestId resourceId =>
      have hclosed := AsyncBrokerRuntime.closeResource_ne_panic h resourceId.toNat
      obtain ⟨hsteady, hevents⟩ := AsyncBrokerRuntime.steady_closeResource hidle resourceId.toNat
      rw [handleFresh]
      dsimp only
      rw [hclosed]
      exact ⟨_, rfl, .answered _ [] _ hfresh hsteady hevents rfl rfl rfl⟩
    | request requestId phase capability operation payload activation =>
      obtain ⟨hpanic, hanswer, hsubmit⟩ := @attempt_spec
        { s with lastRequestId := requestId.toNat } requestId phase capability operation payload
        activation a hidle
      rw [handleFresh, handleOperation]
      dsimp only [requestIdOf] at hpanic hanswer hsubmit ⊢
      generalize hattempt : SupervisorConnection.attempt _ requestId phase capability operation
        payload activation a = attempted at hpanic hanswer hsubmit ⊢
      obtain ⟨outcome, runtime⟩ := attempted
      cases outcome with
      | panic => exact absurd rfl hpanic
      | err code =>
        obtain ⟨hsteady, hevents⟩ := hanswer (by simp)
        exact ⟨_, rfl, .answered runtime _ _ hfresh hsteady hevents ⟨_, rfl⟩ rfl rfl⟩
      | ok answer =>
        cases answer with
        | some response =>
          obtain ⟨hsteady, hevents⟩ := hanswer (by simp)
          exact ⟨_, rfl, .answered runtime _ _ hfresh hsteady hevents ⟨_, rfl⟩ rfl rfl⟩
        | none =>
          obtain ⟨hadvances, hkeys, hresources⟩ := hsubmit rfl
          refine ⟨_, rfl, .submitted runtime _ hfresh rfl hadvances ?_ ?_ hkeys rfl⟩
          · rw [hresources]
            exact hidle
          · change runtime.resources.events = _
            rw [hresources]
            rfl

/-! ## What `replace_policy` does -/

lemma revokeEach_spec {runtime : AsyncBrokerRuntime} (h : runtime.Coherent)
    (hidle : runtime.resources.pump = .idle) (generation : ℕ) (capabilities : List CapabilityId) :
    ∃ revoked, revokeEach runtime generation capabilities = some revoked ∧
      runtime.Steady revoked ∧ revoked.Coherent := by
  induction capabilities generalizing runtime with
  | nil => exact ⟨runtime, rfl, .refl hidle, h⟩
  | cons capability rest ih =>
    obtain ⟨⟨effect, heffect⟩, hsteady⟩ :=
      AsyncBrokerRuntime.steady_revoke h hidle capability generation
    obtain ⟨revoked, hrest, hsteady', hcoherent⟩ :=
      ih (h.revoke hidle capability generation).1 hsteady.idle
    refine ⟨revoked, ?_, hsteady.trans hsteady', hcoherent⟩
    rw [revokeEach]
    generalize runtime.revoke capability generation = result at heffect hrest
    obtain ⟨answer, next⟩ := result
    subst heffect
    exact hrest

lemma pushStates_spec (hidle : s.runtime.resources.pump = .idle) (states : List CapabilityState) :
    (s.pushStates states).1 ≠ .panic ∧
      ∃ runtime, s.runtime.Steady runtime ∧ (s.pushStates states).2 = s.setRuntime runtime := by
  induction states generalizing s with
  | nil => exact ⟨by simp [pushStates], s.runtime, .refl hidle, rfl⟩
  | cons state rest ih =>
    have hsteady := AsyncBrokerRuntime.steady_pushCapability hidle s.generation state
    obtain ⟨hpanic, runtime, hsteady', heq⟩ := ih
      (s := s.setRuntime (s.runtime.perform (.pushCapability s.generation state)).2) hsteady.idle
    rw [pushStates, pushCapability]
    cases hpush : s.runtime.events.pushCapability s.generation state with
    | ok events => exact ⟨hpanic, runtime, hsteady.trans hsteady', heq⟩
    | err code => exact ⟨by simp [Functor.map, Outcome.bind], _, hsteady, rfl⟩
    | panic =>
      rw [HostEventQueue.pushCapability] at hpush
      split_ifs at hpush

/-- A policy is replaced without a panic, and no operation is added, finished or lost. -/
lemma replacePolicy_spec (h : s.runtime.Coherent) (hidle : s.runtime.resources.pump = .idle)
    (policy : EffectivePolicy) :
    ∃ connection : SupervisorConnection, s.runtime.Steady connection.runtime ∧
      connection.pendingAudit = s.pendingAudit ∧ connection.lastRequestId = s.lastRequestId ∧
      connection.limits = s.limits ∧
      ((∃ generation, s.replacePolicy policy =
          .blocked connection (.shutdown generation .denied)) ∨
        s.replacePolicy policy = .queued connection ∧ connection.stopped = s.stopped ∨
        s.replacePolicy policy = .exhausted connection) := by
  obtain ⟨revoked, hrevoke, hsteady, -⟩ := revokeEach_spec h hidle
    (U64.saturatingAdd s.generation 1) (revokedBy s.policy policy)
  rw [replacePolicy, hrevoke]
  dsimp only
  split_ifs with hblocked
  · exact ⟨{ s with
      policy := policy
      generation := U64.saturatingAdd s.generation 1
      runtime := revoked.revokeAll.2
      stopped := true }, hsteady.trans (AsyncBrokerRuntime.steady_revokeAll hsteady.idle), rfl, rfl,
      rfl, .inl ⟨_, rfl⟩⟩
  · obtain ⟨hpanic, runtime, hsteady', heq⟩ := pushStates_spec
      (s := { s with
        policy := policy
        generation := U64.saturatingAdd s.generation 1
        runtime := revoked }) hsteady.idle (changedStates s.policy policy)
    generalize pushStates _ (changedStates s.policy policy) = pushed at hpanic heq ⊢
    obtain ⟨outcome, connection⟩ := pushed
    dsimp only at heq
    subst heq
    refine ⟨{ s with
      policy := policy
      generation := U64.saturatingAdd s.generation 1
      runtime := runtime }, hsteady.trans hsteady', rfl, rfl, rfl, .inr ?_⟩
    cases outcome with
    | ok u => exact .inl ⟨rfl, rfl⟩
    | err code => exact .inr rfl
    | panic => exact absurd rfl hpanic

end SupervisorConnection

/-! ## What a turn keeps -/

/-- What has to come after a task. -/
def Leads : Task → List Task → Prop
  | .completions, rest => rest.head? = some .startPump ∨ rest.head? = some .flush
  | .startPump, rest => rest.head? = some .resumePump
  | .resumePump, rest => rest.head? = some .flush
  | _, _ => True

/-- What has been pumped is flushed before anything else. -/
def Orderly : List Task → Prop
  | [] => True
  | task :: rest => Leads task rest ∧ Orderly rest

/-- The queue is empty unless it is being filled or flushed, and while completions are pumped
into it there is room for every active operation. -/
def Room (tasks : List Task) (r : AsyncBrokerRuntime) : Prop :=
  match tasks.head? with
  | some .startPump => True
  | some .resumePump => True
  | some .flush => True
  | some .completions =>
    r.events.edgeEvents.length + r.executor.active.len ≤ r.events.maximumEdgeEvents
  | _ => r.events.edgeEvents = []

namespace ServeLoop

/-- The invariant of the loop. -/
structure Serving (s : ServeLoop) : Prop where
  coherent : s.runtime.Coherent
  configured : AsyncBrokerRuntime.Configured s.connection.limits.executor
    s.connection.limits.lifecycle s.connection.limits.maximumStateEvents
    s.connection.limits.maximumEdgeEvents s.runtime
  capacity : s.connection.limits.executor.maximumActiveOperations ≤
    s.connection.limits.maximumEdgeEvents
  workers : 0 < s.connection.limits.executor.workers
  orderly : Orderly s.tasks
  idle : s.tasks.head? ≠ some .resumePump → s.runtime.resources.pump = .idle
  room : s.exit = none → Room s.tasks s.runtime

variable {s s' : ServeLoop}

lemma serving_new {policy : EffectivePolicy} {limits : ConnectionLimits}
    (h : new policy limits = ok s) : Serving s ∧ s.log = [] ∧ s.exit = none ∧
      s.connection.lastRequestId = 0 ∧ s.connection.pendingAudit = .empty ∧
      s.runtime.inHand = [] := by
  rw [new, map_eq_ok] at h
  obtain ⟨connection, hnew, rfl⟩ := h
  rw [SupervisorConnection.new] at hnew
  split_ifs at hnew with hcapacity htimeout hlifetime
  cases hruntime : AsyncBrokerRuntime.new limits.executor limits.lifecycle
      limits.maximumStateEvents limits.maximumEdgeEvents with
  | err message =>
    rw [hruntime] at hnew
    cases hnew
  | panic =>
    rw [hruntime] at hnew
    cases hnew
  | ok runtime =>
    rw [hruntime] at hnew
    cases hnew
    obtain ⟨hcoherent, hconfigured⟩ := AsyncBrokerRuntime.coherent_new hruntime
    simp only [AsyncBrokerRuntime.new, bind_eq_ok, Outcome.pure_eq, Outcome.ok.injEq] at hruntime
    obtain ⟨executor, hexecutor, resources, hresources, rfl⟩ := hruntime
    obtain ⟨-, -, hactive⟩ := BackendExecutor.sound_new hexecutor
    have hworkers : 0 < limits.executor.workers := by
      rw [BackendExecutor.new] at hexecutor
      split_ifs at hexecutor with hzero
      simp only [Bool.or_eq_true, decide_eq_true_eq, not_or] at hzero
      omega
    rw [Runtime.new] at hresources
    split_ifs at hresources
    cases hresources
    refine ⟨⟨hcoherent, hconfigured, not_lt.mp hcapacity, hworkers, trivial, fun _ => rfl,
      fun _ => rfl⟩,
      rfl, rfl, rfl, rfl, ?_⟩
    change executor.active.keys ++ _ = _
    rw [hactive]
    rfl

/-- A turn that moves the runtime on by calls of its own. -/
lemma Serving.advance (h : Serving s) (hadvances : s.runtime.Advances s'.runtime)
    (hlimits : s'.connection.limits = s.connection.limits) (horderly : Orderly s'.tasks)
    (hidle : s'.tasks.head? ≠ some .resumePump → s'.runtime.resources.pump = .idle)
    (hroom : s'.exit = none → Room s'.tasks s'.runtime) : Serving s' := by
  obtain ⟨hcoherent, hconfigured⟩ := hadvances.coherent h.coherent h.configured
  rw [← hlimits] at hconfigured
  exact ⟨hcoherent, hconfigured, hlimits ▸ h.capacity, hlimits ▸ h.workers, horderly, hidle, hroom⟩

/-- The executor never has more operations than the queue has room for. -/
lemma Serving.active_le (h : Serving s) :
    s.runtime.executor.active.len ≤ s.runtime.events.maximumEdgeEvents := by
  have hactive := h.coherent.sound.active_le
  have hexecutor := h.configured.executor
  have hedges := h.configured.edges
  have hcapacity := h.capacity
  rw [hexecutor] at hactive
  omega

/-- An empty queue has room for every task. -/
lemma Serving.room_of_empty (h : Serving s) (hedges : s.runtime.events.edgeEvents = [])
    (tasks : List Task) : Room tasks s.runtime := by
  have hactive := h.active_le
  rw [Room]
  split
  · trivial
  · trivial
  · trivial
  · rw [hedges, List.length_nil]
    omega
  · exact hedges

lemma orderly_pumps {rest : List Task} (h : Orderly rest) : Orderly (pumps ++ rest) := by
  simp [pumps, Orderly, Leads, h]

lemma orderly_tasksOf (ready : Ready) : Orderly (tasksOf ready) := by
  rw [tasksOf]
  cases ready.updates <;> cases ready.completions <;> cases ready.resources <;>
    cases ready.channel <;> simp [Orderly, Leads]

end ServeLoop

end TouchBar.Broker
