import TouchBar.Broker.Accounts

/-!
# What is left when a policy is replaced

Everything that is open or pending belongs to a capability that the policy of the
connection grants.  A new policy closes and cancels what belongs to a capability that it
grants otherwise or not at all, and touches nothing else; a blocked policy leaves nothing.
-/

namespace TouchBar.Broker

open TouchBar.Rust TouchBar.Lib TouchBar.Policy TouchBar.Supervisor TouchBar.Protocol Outcome

/-- The policy grants the capability. -/
def Grants (policy : EffectivePolicy) (capability : CapabilityId) : Prop :=
  ∃ grant ∈ policy.grants, grant.request.capability = capability ∧ grant.status = .granted

/-- The new policy does not block, and has every grant for the capability that the old one has,
with the same scope and the same bindings. -/
def Keeps (old new : EffectivePolicy) (capability : CapabilityId) : Prop :=
  new.blocked = false ∧ ∀ grant ∈ old.grants, grant.request.capability = capability →
    grant.status = .granted → ∃ grant' ∈ new.grants, grant'.request.capability = capability ∧
      grant'.status = .granted ∧ grant'.request.scope = grant.request.scope ∧
      grant'.bindings = grant.bindings

instance (old new : EffectivePolicy) : DecidablePred (Keeps old new) := fun capability =>
  inferInstanceAs (Decidable (new.blocked = false ∧ ∀ grant ∈ old.grants,
    grant.request.capability = capability → grant.status = .granted →
    ∃ grant' ∈ new.grants, grant'.request.capability = capability ∧
      grant'.status = .granted ∧ grant'.request.scope = grant.request.scope ∧
      grant'.bindings = grant.bindings))

section Grants

variable {policy old new : EffectivePolicy} {capability : CapabilityId}

/-- What is granted and kept is granted by the new policy. -/
lemma Grants.keeps (h : Grants old capability) (hkeeps : Keeps old new capability) :
    Grants new capability := by
  obtain ⟨grant, hmem, hcapability, hstatus⟩ := h
  obtain ⟨grant', hmem', hcapability', hstatus', -⟩ := hkeeps.2 grant hmem hcapability hstatus
  exact ⟨grant', hmem', hcapability', hstatus'⟩

/-- Only what is granted is authorized. -/
lemma grants_of_authorizeRequest {phase : CallbackPhase} {name operation : String}
    {scope : CapabilityScope} {bindings : GrantBindings}
    (h : authorizeRequest policy phase name operation = ok (capability, scope, bindings)) :
    Grants policy capability := by
  obtain ⟨grant, hfind, hstatus, -⟩ := authorizeRequest_eq_ok h
  exact ⟨grant, List.mem_of_find?_eq_some hfind, by simpa using List.find?_some hfind, hstatus⟩

/-- The capabilities that are not revoked are those that a new policy keeps. -/
lemma notMem_revokedBy (hblocked : new.blocked = false) :
    capability ∉ SupervisorConnection.revokedBy old new ↔ Keeps old new capability := by
  simp only [SupervisorConnection.revokedBy, List.mem_map, List.mem_filter, decide_eq_true_eq,
    Bool.not_eq_true', List.any_eq_false, Bool.and_eq_true, not_and, not_exists]
  constructor
  · intro h
    refine ⟨hblocked, fun grant hmem hcapability hstatus => ?_⟩
    by_contra hnone
    refine h grant ⟨⟨hmem, hstatus⟩, fun grant' hmem' hsame hbindings => hnone ?_⟩ hcapability
    exact ⟨grant', hmem', hsame.1.1.trans hcapability, hsame.1.2, hsame.2, hbindings⟩
  · rintro ⟨-, h⟩ grant ⟨⟨hmem, hstatus⟩, hnone⟩ hcapability
    obtain ⟨grant', hmem', hcapability', hstatus', hscope, hbindings⟩ :=
      h grant hmem hcapability hstatus
    exact hnone grant' hmem' ⟨⟨hcapability'.trans hcapability.symm, hstatus'⟩, hscope⟩ hbindings

end Grants

/-! ## What belongs to whom -/

namespace AsyncBrokerRuntime

/-- Everything that is open, pending or running without having been cancelled belongs to a
capability of a set. -/
structure Within (P : CapabilityId → Prop) (r : AsyncBrokerRuntime) : Prop where
  resources : ∀ id resource, r.lifecycle.resources.get id = some resource → P resource.capability
  pending : ∀ id operation, r.lifecycle.pending.get id = some operation → P operation.capability
  active : ∀ id operation, r.executor.active.get id = some operation →
    operation.cancelled = false → P operation.capability

/-- Nothing is opened, begun or taken back from a cancellation. -/
structure Narrows (r r' : AsyncBrokerRuntime) : Prop where
  resources : ∀ id resource, r'.lifecycle.resources.get id = some resource →
    r.lifecycle.resources.get id = some resource
  pending : ∀ id operation, r'.lifecycle.pending.get id = some operation →
    r.lifecycle.pending.get id = some operation
  active : ∀ id operation, r'.executor.active.get id = some operation →
    operation.cancelled = false → r.executor.active.get id = some operation

variable {P Q : CapabilityId → Prop} {r r' : AsyncBrokerRuntime}

lemma Narrows.of_eq (hlifecycle : r'.lifecycle = r.lifecycle)
    (hactive : r'.executor.active = r.executor.active) : Narrows r r' := by
  refine ⟨fun id v h => ?_, fun id v h => ?_, fun id v h _ => ?_⟩
  · rw [← hlifecycle]
    exact h
  · rw [← hlifecycle]
    exact h
  · rw [← hactive]
    exact h

lemma Within.narrow (h : Within P r) (hnarrow : Narrows r r') : Within P r' :=
  ⟨fun id v hget => h.resources id v (hnarrow.resources id v hget),
    fun id v hget => h.pending id v (hnarrow.pending id v hget),
    fun id v hget hlive => h.active id v (hnarrow.active id v hget hlive) hlive⟩

lemma Within.imp (h : Within P r) (hPQ : ∀ capability, P capability → Q capability) :
    Within Q r :=
  ⟨fun id v hget => hPQ _ (h.resources id v hget), fun id v hget => hPQ _ (h.pending id v hget),
    fun id v hget hlive => hPQ _ (h.active id v hget hlive)⟩

lemma narrows_cancel (requestId : ℕ) : Narrows r (r.cancel requestId).2 := by
  refine ⟨fun id v h => h, fun id v h => h, fun id v h hlive => ?_⟩
  change (r.executor.cancel requestId).2.active.get id = some v at h
  rw [BackendExecutor.get_cancel] at h
  split_ifs at h
  · obtain ⟨operation, -, rfl⟩ := Option.map_eq_some_iff.mp h
    cases hlive
  · exact h

lemma narrows_closeResource (resourceId : ℕ) : Narrows r (r.closeResource resourceId).2 := by
  refine ⟨fun id v h => ?_, fun id v h => ?_, fun id v h _ => h⟩
  · change (r.lifecycle.closeResource resourceId).2.resources.get id = some v at h
    rw [LifecycleState.get_closeResource] at h
    split_ifs at h
    exact h
  · change (r.lifecycle.closeResource resourceId).2.pending.get id = some v at h
    rw [LifecycleState.pending_closeResource] at h
    exact h

lemma narrows_pumpCompletion (generation : ℕ) : Narrows r (r.pumpCompletion generation).2 := by
  rw [pumpCompletion, BackendExecutor.tryCompletion]
  cases r.executor.completions with
  | nil => exact .of_eq rfl rfl
  | cons completion rest =>
    refine ⟨fun id v h => h, fun id v h => ?_, fun id v h _ => ?_⟩
    · dsimp only [LifecycleState.finish] at h
      rw [BTreeMap.get_remove] at h
      split_ifs at h
      exact h
    · dsimp only at h
      rw [BTreeMap.get_remove] at h
      split_ifs at h
      exact h

lemma narrows_resumePump (r : AsyncBrokerRuntime) : Narrows r r.resumePump := by
  -- the books of finished resources are closed one by one
  have hclose : ∀ (ids : List ℕ) (lifecycle : LifecycleState) (id : ℕ),
      (∀ resource, (closeAll lifecycle ids).resources.get id = some resource →
        lifecycle.resources.get id = some resource) ∧
      (closeAll lifecycle ids).pending = lifecycle.pending := by
    intro ids
    induction ids with
    | nil => exact fun lifecycle id => ⟨fun resource h => h, rfl⟩
    | cons closed ids ih =>
      intro lifecycle id
      obtain ⟨hget, hpending⟩ := ih (lifecycle.closeResource closed).2 id
      refine ⟨fun resource h => ?_, hpending.trans LifecycleState.pending_closeResource⟩
      have h' := hget resource h
      rw [LifecycleState.get_closeResource] at h'
      split_ifs at h'
      exact h'
  refine ⟨fun id v h => (hclose _ _ id).1 v h, fun id v h => ?_, fun id v h _ => h⟩
  change (closeAll r.lifecycle _).pending.get id = some v at h
  rw [(hclose _ _ id).2] at h
  exact h

/-- A resource is opened for the capability of its request. -/
lemma Within.openResource (h : Within P r) (hcoherent : Coherent r) {request : BackendRequest}
    (hP : P request.capability) (answers : OpenAnswers) :
    Within P (r.openResource request answers).2 := by
  rw [AsyncBrokerRuntime.openResource]
  cases r.resourceLimits request answers.limits with
  | none => exact h
  | some limits =>
    dsimp only
    cases hallocate : r.lifecycle.allocateResource request.capability
        limits.reservedBufferedBytes with
    | err code => exact h
    | panic => exact h
    | ok allocated =>
      obtain ⟨resourceId, lifecycle⟩ := allocated
      have hclose := LifecycleState.closeResource_allocateResource hcoherent.balanced hallocate
      obtain ⟨rfl, -, -, -, -, rfl⟩ := LifecycleState.allocateResource_eq_ok hallocate
      dsimp only
      cases r.managerOpen r.lifecycle.nextResourceId request limits answers with
      | err code =>
        rw [hclose]
        exact ⟨h.resources, h.pending, h.active⟩
      | panic => exact h
      | ok payload =>
        refine ⟨fun id resource hget => ?_, h.pending, h.active⟩
        dsimp only at hget
        rw [BTreeMap.get_insert] at hget
        split_ifs at hget
        · cases hget
          exact hP
        · exact h.resources id resource hget

/-- So is an operation. -/
lemma Within.submit (h : Within P r) {request : BackendRequest} (hP : P request.capability)
    (answers : SubmitAnswers) (deadline : ℕ) :
    Within P (r.submit request answers deadline).2 := by
  cases hrun : (r.submit request answers deadline).1 with
  | err code =>
    rw [submit_err hrun]
    exact h
  | panic => exact absurd hrun submit_ne_panic
  | ok u =>
    obtain ⟨lifecycle, executor, hbegin, hsubmit, heq⟩ := submit_ok hrun
    rw [heq]
    obtain ⟨-, -, -, rfl⟩ := LifecycleState.begin_eq_ok hbegin
    obtain ⟨-, -, -, -, rfl⟩ := BackendExecutor.submit_eq_ok hsubmit
    refine ⟨h.resources, fun id operation hget => ?_, fun id operation hget hlive => ?_⟩
    · dsimp only at hget
      rw [BTreeMap.get_insert] at hget
      split_ifs at hget
      · cases hget
        exact hP
      · exact h.pending id operation hget
    · dsimp only at hget
      rw [BTreeMap.get_insert] at hget
      split_ifs at hget
      · cases hget
        exact hP
      · exact h.active id operation hget hlive

/-! ## What a revocation leaves -/

/-- What is left when the capabilities outside of a set are revoked: everything of the others,
and of these only operations that are cancelled. -/
structure LeftOf (P : CapabilityId → Prop) [DecidablePred P] (r r' : AsyncBrokerRuntime) :
    Prop where
  resources : ∀ id, r'.lifecycle.resources.get id =
    (r.lifecycle.resources.get id).filter fun resource => P resource.capability
  pending : ∀ id, r'.lifecycle.pending.get id =
    (r.lifecycle.pending.get id).filter fun operation => P operation.capability
  active : ∀ id, r'.executor.active.get id = (r.executor.active.get id).map fun operation =>
    if P operation.capability then operation else operation.cancel

section LeftOf

variable {P Q D : CapabilityId → Prop} [DecidablePred P] [DecidablePred Q]
  {r r' r'' : AsyncBrokerRuntime}

lemma LeftOf.of_eq (hP : ∀ capability, P capability) (hlifecycle : r'.lifecycle = r.lifecycle)
    (hactive : r'.executor.active = r.executor.active) : LeftOf P r r' := by
  refine ⟨fun id => ?_, fun id => ?_, fun id => ?_⟩
  · rw [hlifecycle]
    cases r.lifecycle.resources.get id <;> simp [Option.filter, hP]
  · rw [hlifecycle]
    cases r.lifecycle.pending.get id <;> simp [Option.filter, hP]
  · rw [hactive]
    cases r.executor.active.get id <;> simp [hP]

/-- One revocation after the other leaves what both leave. -/
lemma LeftOf.trans (h : LeftOf P r r') (h' : LeftOf Q r' r'') :
    LeftOf (fun capability => P capability ∧ Q capability) r r'' := by
  refine ⟨fun id => ?_, fun id => ?_, fun id => ?_⟩
  · rw [h'.resources, h.resources]
    cases r.lifecycle.resources.get id with
    | none => rfl
    | some resource => by_cases hP : P resource.capability <;> simp [Option.filter, hP]
  · rw [h'.pending, h.pending]
    cases r.lifecycle.pending.get id with
    | none => rfl
    | some operation => by_cases hP : P operation.capability <;> simp [Option.filter, hP]
  · rw [h'.active, h.active]
    cases r.executor.active.get id with
    | none => rfl
    | some operation =>
      by_cases hP : P operation.capability
      · simp [hP]
      · by_cases hQ : Q operation.capability <;>
          simp [hP, hQ, ActiveOperation.cancel]

lemma LeftOf.congr (h : LeftOf P r r') (hPQ : ∀ capability, P capability ↔ Q capability) :
    LeftOf Q r r' := by
  refine ⟨fun id => ?_, fun id => ?_, fun id => ?_⟩
  · rw [h.resources]
    congr 1
    ext resource
    rw [decide_eq_decide.mpr (hPQ resource.capability)]
  · rw [h.pending]
    congr 1
    ext operation
    rw [decide_eq_decide.mpr (hPQ operation.capability)]
  · rw [h.active]
    congr 1
    ext operation
    rw [if_congr (hPQ operation.capability) rfl rfl]

lemma LeftOf.of_runtime_eq (h : LeftOf P r r') (hlifecycle : r''.lifecycle = r'.lifecycle)
    (hactive : r''.executor.active = r'.executor.active) : LeftOf P r r'' := by
  refine ⟨fun id => ?_, fun id => ?_, fun id => ?_⟩
  · rw [hlifecycle]
    exact h.resources id
  · rw [hlifecycle]
    exact h.pending id
  · rw [hactive]
    exact h.active id

/-- What is left belongs to the capabilities that were not revoked. -/
lemma LeftOf.within (h : LeftOf P r r') (hwithin : Within D r) :
    Within (fun capability => D capability ∧ P capability) r' := by
  refine ⟨fun id resource hget => ?_, fun id operation hget => ?_, fun id operation hget hlive => ?_⟩
  · rw [h.resources, Option.filter_eq_some_iff, decide_eq_true_eq] at hget
    exact ⟨hwithin.resources id resource hget.1, hget.2⟩
  · rw [h.pending, Option.filter_eq_some_iff, decide_eq_true_eq] at hget
    exact ⟨hwithin.pending id operation hget.1, hget.2⟩
  · rw [h.active] at hget
    obtain ⟨before, hbefore, heq⟩ := Option.map_eq_some_iff.mp hget
    split_ifs at heq with hP
    · subst heq
      exact ⟨hwithin.active id before hbefore hlive, hP⟩
    · subst heq
      cases hlive

lemma leftOf_revoke (h : Coherent r) (hidle : r.resources.pump = .idle)
    (capability : CapabilityId) (generation : ℕ) :
    LeftOf (· ≠ capability) r (r.revoke capability generation).2 := by
  obtain ⟨-, -, effect, heffect, hrevoked⟩ := h.revoke hidle capability generation
  refine ⟨hrevoked.resources, hrevoked.pending, fun id => ?_⟩
  have hactive : (r.revoke capability generation).2.executor = r.executor.revoke capability := by
    rw [revoke]
    split <;> rfl
  rw [hactive, BackendExecutor.revoke, BTreeMap.get_mapValues]
  congr 1
  funext operation
  by_cases hcapability : operation.capability = capability <;> simp [hcapability]

lemma leftOf_revokeAll : LeftOf (fun _ => False) r r.revokeAll.2 := by
  refine ⟨fun id => ?_, fun id => ?_, fun id => ?_⟩
  · cases r.lifecycle.resources.get id <;> rfl
  · cases r.lifecycle.pending.get id <;> rfl
  · change (r.executor.active.mapValues ActiveOperation.cancel).get id = _
    rw [BTreeMap.get_mapValues]
    congr 1

end LeftOf

end AsyncBrokerRuntime

namespace SupervisorConnection

open AsyncBrokerRuntime

variable {s : SupervisorConnection} {runtime : AsyncBrokerRuntime}

lemma leftOf_revokeEach (h : runtime.Coherent) (hidle : runtime.resources.pump = .idle)
    (generation : ℕ) (capabilities : List CapabilityId) {revoked : AsyncBrokerRuntime}
    (hrevoked : revokeEach runtime generation capabilities = some revoked) :
    LeftOf (· ∉ capabilities) runtime revoked := by
  induction capabilities generalizing runtime with
  | nil =>
    rw [revokeEach, Option.some.injEq] at hrevoked
    subst hrevoked
    exact .of_eq (fun _ => List.not_mem_nil) rfl rfl
  | cons capability rest ih =>
    obtain ⟨hcoherent, hpump, effect, heffect, -⟩ := h.revoke hidle capability generation
    have hleft := leftOf_revoke h hidle capability generation
    rw [revokeEach] at hrevoked
    generalize runtime.revoke capability generation = result
      at hcoherent hpump heffect hleft hrevoked
    obtain ⟨answer, next⟩ := result
    subst heffect
    have hboth := hleft.trans (ih hcoherent hpump hrevoked)
    refine ⟨fun id => ?_, fun id => ?_, fun id => ?_⟩
    · rw [hboth.resources]
      simp only [List.mem_cons, not_or]
    · rw [hboth.pending]
      simp only [List.mem_cons, not_or]
    · rw [hboth.active]
      simp only [List.mem_cons, not_or]

/-- The messages of changed states touch neither books nor operations. -/
lemma frame_pushStates (s : SupervisorConnection) (states : List CapabilityState) :
    (s.pushStates states).2.policy = s.policy ∧
      (s.pushStates states).2.runtime.lifecycle = s.runtime.lifecycle ∧
      (s.pushStates states).2.runtime.executor = s.runtime.executor := by
  induction states generalizing s with
  | nil => exact ⟨rfl, rfl, rfl⟩
  | cons state rest ih =>
    rw [pushStates, pushCapability]
    cases s.runtime.events.pushCapability s.generation state with
    | ok events => exact ih _
    | err code => exact ⟨rfl, rfl, rfl⟩
    | panic => exact ⟨rfl, rfl, rfl⟩

/-- A replaced policy leaves what the new one keeps. -/
lemma leftOf_replacePolicy (h : s.runtime.Coherent) (hidle : s.runtime.resources.pump = .idle)
    (policy : EffectivePolicy) {connection : SupervisorConnection}
    (hreplaced : (∃ message, s.replacePolicy policy = .blocked connection message) ∨
      s.replacePolicy policy = .queued connection ∨
      s.replacePolicy policy = .exhausted connection) :
    connection.policy = policy ∧
      LeftOf (Keeps s.policy policy) s.runtime connection.runtime := by
  obtain ⟨revoked, hrevoke, -, -⟩ := revokeEach_spec h hidle (U64.saturatingAdd s.generation 1)
    (revokedBy s.policy policy)
  have hleft := leftOf_revokeEach h hidle _ _ hrevoke
  rw [replacePolicy, hrevoke] at hreplaced
  dsimp only at hreplaced
  cases hblocked : policy.blocked with
  | true =>
    rw [hblocked, if_pos rfl] at hreplaced
    have hconnection : connection = { s with
        policy := policy
        generation := U64.saturatingAdd s.generation 1
        runtime := revoked.revokeAll.2
        stopped := true } := by
      rcases hreplaced with ⟨message, hreplaced⟩ | hreplaced | hreplaced <;> cases hreplaced
      rfl
    subst hconnection
    refine ⟨rfl, (hleft.trans leftOf_revokeAll).congr fun capability => ?_⟩
    -- a blocked policy keeps nothing
    simp [Keeps, hblocked]
  | false =>
    rw [hblocked, if_neg (by simp)] at hreplaced
    obtain ⟨hpolicy, hlifecycle, hexecutor⟩ := frame_pushStates { s with
      policy := policy
      generation := U64.saturatingAdd s.generation 1
      runtime := revoked } (changedStates s.policy policy)
    generalize pushStates _ (changedStates s.policy policy) = pushed
      at hreplaced hpolicy hlifecycle hexecutor
    obtain ⟨outcome, pushed⟩ := pushed
    have hconnection : connection = pushed := by
      cases outcome with
      | _ => rcases hreplaced with ⟨message, hreplaced⟩ | hreplaced | hreplaced <;>
          cases hreplaced <;> rfl
    subst hconnection
    have hkept := hleft.congr fun capability => notMem_revokedBy hblocked
    exact ⟨hpolicy, hkept.of_runtime_eq hlifecycle (congrArg BackendExecutor.active hexecutor)⟩

/-! ## Requests -/

/-- A request is done for a capability that the policy grants. -/
lemma within_attempt (h : s.runtime.Coherent) (hwithin : Within (Grants s.policy) s.runtime)
    (requestId : UInt64) (phase : CallbackPhase) (capability operation : String)
    (payload : List UInt8) (activation : Option Protocol.ActivationContext) (a : Answers) :
    Within (Grants s.policy)
      (s.attempt requestId phase capability operation payload activation a).2 := by
  rw [attempt]
  split
  · exact hwithin
  · exact hwithin
  · next id scope bindings hok =>
    have hgrants : Grants s.policy id := by
      simp only [bind_eq_ok] at hok
      obtain ⟨authorized, hauthorized, u, -, heq⟩ := hok
      cases heq
      exact grants_of_authorizeRequest hauthorized
    split
    · exact hwithin
    · dsimp only
      split_ifs
      · exact hwithin.openResource h hgrants a.opened
      · exact hwithin.submit hgrants a.submit _

/-- No message changes the policy, and what one opens or begins belongs to it. -/
lemma within_handleRequest (h : s.runtime.Coherent)
    (hwithin : Within (Grants s.policy) s.runtime) {message : HostMessage} {a : Answers}
    {handled : Handled} (hhandled : s.handleRequest message a = some handled) :
    handled.connection.policy = s.policy ∧
      Within (Grants s.policy) handled.connection.runtime := by
  rw [handleRequest] at hhandled
  split_ifs at hhandled
  · cases hhandled
    exact ⟨rfl, hwithin⟩
  · cases message with
    | getCapabilities requestId =>
      cases hhandled
      exact ⟨rfl, hwithin⟩
    | cancel requestId targetRequestId =>
      cases hhandled
      exact ⟨rfl, hwithin.narrow (narrows_cancel _)⟩
    | close requestId resourceId =>
      rw [handleFresh, Option.map_eq_some_iff] at hhandled
      obtain ⟨done, -, rfl⟩ := hhandled
      exact ⟨rfl, hwithin.narrow (narrows_closeResource _)⟩
    | request requestId phase capability operation payload activation =>
      have hattempt := within_attempt (s := { s with lastRequestId := requestId.toNat }) h hwithin
        requestId phase capability operation payload activation a
      rw [handleFresh, handleOperation] at hhandled
      dsimp only [requestIdOf] at hhandled hattempt
      generalize SupervisorConnection.attempt _ requestId phase capability operation payload
        activation a = attempted at hhandled hattempt
      obtain ⟨outcome, runtime⟩ := attempted
      cases outcome with
      | panic => cases hhandled
      | err code =>
        cases hhandled
        exact ⟨rfl, hattempt⟩
      | ok answer =>
        cases answer with
        | none =>
          cases hhandled
          exact ⟨rfl, hattempt⟩
        | some response =>
          cases hhandled
          exact ⟨rfl, hattempt⟩

lemma frame_completeAudit (event : HostEvent) :
    (s.completeAudit event).1.policy = s.policy ∧
      (s.completeAudit event).1.runtime = s.runtime := by
  rw [completeAudit.eq_def]
  split
  · split <;> exact ⟨rfl, rfl⟩
  · exact ⟨rfl, rfl⟩

end SupervisorConnection

/-! ## Turns -/

namespace ServeLoop

open AsyncBrokerRuntime

variable {s : ServeLoop} {a : Answers} {rest : List Task}

/-- Everything that is open or pending belongs to a capability that the policy grants. -/
def Entitled (s : ServeLoop) : Prop := s.runtime.Within (Grants s.connection.policy)

/-- A turn with a new policy. -/
def Replaces (s : ServeLoop) (a : Answers) (policy : EffectivePolicy) : Prop :=
  s.exit = none ∧ (∃ rest, s.tasks = .reload :: rest) ∧ a.reload = .ok (some policy)

lemma Entitled.of_eq {s' : ServeLoop} (h : s.Entitled)
    (hpolicy : s'.connection.policy = s.connection.policy)
    (hlifecycle : s'.runtime.lifecycle = s.runtime.lifecycle)
    (hactive : s'.runtime.executor.active = s.runtime.executor.active) : s'.Entitled := by
  rw [Entitled, hpolicy]
  exact h.narrow (.of_eq hlifecycle hactive)

lemma connection_send (effects : List Effect) (message : Effect) (tasks : List Task) :
    (s.send effects message a tasks).connection = s.connection := by
  rw [send]
  split <;> rfl

lemma turn_replace {policy : EffectivePolicy} (h : Serving s) (hreplaces : s.Replaces a policy) :
    (s.turn a).connection.policy = policy ∧
      LeftOf (Keeps s.connection.policy policy) s.runtime (s.turn a).runtime := by
  obtain ⟨-, ⟨rest, htasks⟩, hreload⟩ := hreplaces
  have hidle := h.idle (by simp [htasks])
  obtain ⟨connection, -, -, -, -, hreplaced⟩ :=
    SupervisorConnection.replacePolicy_spec h.coherent hidle policy
  have hleft : connection.policy = policy ∧
      LeftOf (Keeps s.connection.policy policy) s.runtime connection.runtime := by
    refine SupervisorConnection.leftOf_replacePolicy h.coherent hidle policy ?_
    rcases hreplaced with ⟨generation, hreplaced⟩ | ⟨hreplaced, -⟩ | hreplaced
    · exact .inl ⟨_, hreplaced⟩
    · exact .inr (.inl hreplaced)
    · exact .inr (.inr hreplaced)
  have hconnection : (s.turn a).connection = connection := by
    rw [turn, htasks]
    dsimp only
    rw [hreload]
    dsimp only
    rw [replace]
    rcases hreplaced with ⟨generation, hreplaced⟩ | ⟨hreplaced, -⟩ | hreplaced <;> rw [hreplaced]
    · dsimp only
      split <;> rfl
    · rfl
  show (s.turn a).connection.policy = policy ∧
    LeftOf (Keeps s.connection.policy policy) s.runtime (s.turn a).connection.runtime
  rw [hconnection]
  exact hleft

lemma frame_popEvent :
    s.connection.popEvent.1.policy = s.connection.policy ∧
      s.connection.popEvent.1.runtime.lifecycle = s.runtime.lifecycle ∧
      s.connection.popEvent.1.runtime.executor = s.runtime.executor := ⟨rfl, rfl, rfl⟩

/-- A turn without a new policy keeps the policy, and what it leaves belongs to it. -/
lemma turn_within (h : Serving s) (hup : s.exit = none) (hentitled : s.Entitled)
    (hreload : ∀ policy, ¬ s.Replaces a policy) :
    (s.turn a).connection.policy = s.connection.policy ∧ (s.turn a).Entitled := by
  have hsame : ∀ s' : ServeLoop, s'.connection = s.connection →
      s'.connection.policy = s.connection.policy ∧ s'.Entitled := by
    intro s' heq
    exact ⟨by rw [heq], hentitled.of_eq (by rw [heq]) (by rw [runtime, heq]; rfl)
      (by rw [runtime, heq]; rfl)⟩
  cases htasks : s.tasks with
  | nil =>
    rw [turn, htasks]
    dsimp only
    split_ifs <;> exact hsame _ rfl
  | cons task rest =>
    rw [turn, htasks]
    cases task with
    | completions =>
      dsimp only
      split_ifs
      · exact hsame _ rfl
      · have hnarrows := narrows_pumpCompletion (r := s.runtime) s.connection.generation
        generalize s.runtime.pumpCompletion s.connection.generation = pumped at hnarrows
        obtain ⟨some_, runtime⟩ := pumped
        cases some_ with
        | false => exact hsame _ rfl
        | true => exact ⟨rfl, hentitled.narrow hnarrows⟩
    | startPump => exact ⟨rfl, hentitled.of_eq rfl rfl rfl⟩
    | resumePump =>
      dsimp only
      split_ifs
      · exact hsame _ rfl
      · exact ⟨rfl, hentitled.narrow (narrows_resumePump s.runtime)⟩
    | flush =>
      dsimp only
      rw [flush]
      split
      · exact hsame _ rfl
      · next connection event hpop =>
        obtain ⟨hpolicy, hlifecycle, hexecutor⟩ := frame_popEvent (s := s)
        rw [hpop] at hpolicy hlifecycle hexecutor
        obtain ⟨hpolicy', hruntime⟩ :=
          SupervisorConnection.frame_completeAudit (s := connection) event
        refine ⟨?_, hentitled.of_eq ?_ ?_ ?_⟩
        · rw [connection_send]
          exact hpolicy'.trans hpolicy
        · rw [connection_send]
          exact hpolicy'.trans hpolicy
        · rw [runtime, connection_send, hruntime]
          exact hlifecycle
        · rw [runtime, connection_send, hruntime]
          exact congrArg BackendExecutor.active hexecutor
    | poll =>
      dsimp only
      split
      · exact hsame _ rfl
      · exact hsame _ rfl
      · rw [afterPoll]
        split_ifs <;> exact hsame _ rfl
    | reload =>
      dsimp only
      split
      · exact hsame _ rfl
      · exact hsame _ rfl
      · next policy hpolicy => exact absurd ⟨hup, ⟨rest, htasks⟩, hpolicy⟩ (hreload policy)
    | receive =>
      dsimp only
      split
      · next message hreceived =>
        rw [receive]
        split
        · exact hsame _ rfl
        · next handled hhandled =>
          have hwithin :=
            SupervisorConnection.within_handleRequest h.coherent hentitled hhandled
          dsimp only
          split
          · exact ⟨hwithin.1, by rw [Entitled]; exact hwithin.1 ▸ hwithin.2⟩
          · rw [Entitled, runtime, connection_send]
            exact ⟨hwithin.1, hwithin.1 ▸ hwithin.2⟩
      · exact hsame _ rfl
      · exact hsame _ rfl
      · exact hsame _ rfl
      · exact hsame _ rfl
    | hangup failed closed =>
      dsimp only
      split_ifs <;> exact hsame _ rfl

lemma besides_frame (r : AsyncBrokerRuntime) (call : ServeCall) :
    (besides r call).lifecycle = r.lifecycle := by
  cases call with
  | register capability =>
    show (if r.resources.pump = .idle then r.perform (.register capability)
      else (ok (), r)).2.lifecycle = _
    split_ifs <;> rfl
  | registerResource capability =>
    show (if r.resources.pump = .idle then r.perform (.registerResource capability)
      else (ok (), r)).2.lifecycle = _
    split_ifs <;> rfl
  | _ => rfl

/-- Every step keeps what is open and pending within the policy. -/
lemma Entitled.step (h : Serving s) (hentitled : s.Entitled) (call : ServeCall) :
    (s.step call).Entitled := by
  have hbesides : ∀ call : ServeCall, ({ s with
      connection := s.connection.setRuntime (besides s.runtime call) } : ServeLoop).Entitled :=
    fun call => hentitled.of_eq rfl (besides_frame _ _) (besides_spec _ _).2.1
  cases call with
  | turn a =>
    rw [ServeLoop.step]
    split_ifs with hexit
    · exact hentitled
    · have hup : s.exit = none := by simpa using hexit
      by_cases hreplaces : ∃ policy, s.Replaces a policy
      · obtain ⟨policy, hreplaces⟩ := hreplaces
        obtain ⟨hpolicy, hleft⟩ := turn_replace h hreplaces
        rw [Entitled, hpolicy]
        exact (hleft.within hentitled).imp fun capability hboth => hboth.1.keeps hboth.2
      · exact (turn_within h hup hentitled fun policy h => hreplaces ⟨policy, h⟩).2
  | worker w => exact hbesides (.worker w)
  | producer thread id request => exact hbesides (.producer thread id request)
  | resumeProducer thread => exact hbesides (.resumeProducer thread)
  | register capability => exact hbesides (.register capability)
  | registerResource capability => exact hbesides (.registerResource capability)

lemma entitled_new {policy : EffectivePolicy} {limits : ConnectionLimits}
    (h : new policy limits = ok s) : s.Entitled := by
  rw [new, map_eq_ok] at h
  obtain ⟨connection, hnew, rfl⟩ := h
  rw [SupervisorConnection.new] at hnew
  split_ifs at hnew
  cases hruntime : AsyncBrokerRuntime.new limits.executor limits.lifecycle
      limits.maximumStateEvents limits.maximumEdgeEvents with
  | err message =>
    rw [hruntime] at hnew
    cases hnew
  | panic =>
    rw [hruntime] at hnew
    cases hnew
  | ok runtime =>
    rw [hruntime] at hnew
    cases hnew
    simp only [AsyncBrokerRuntime.new, bind_eq_ok, Outcome.pure_eq, Outcome.ok.injEq] at hruntime
    obtain ⟨executor, hexecutor, resources, hresources, rfl⟩ := hruntime
    obtain ⟨-, -, hactive⟩ := BackendExecutor.sound_new hexecutor
    refine ⟨fun id resource hget => ?_, fun id operation hget => ?_, fun id operation hget _ => ?_⟩
    · cases hget
    · cases hget
    · change executor.active.get id = some operation at hget
      rw [hactive] at hget
      cases hget

/-- In every run everything that is open, pending or still to be answered with a result belongs
to a capability that the policy of the moment grants.  A turn with a new policy leaves, of all
that is open and pending, just what belongs to the capabilities that the new policy keeps; the
resource manager then has just the resources that are left. -/
theorem revocation_complete {policy : EffectivePolicy} {limits : ConnectionLimits}
    (hnew : new policy limits = ok s) (earlier : List ServeCall) :
    (run step s earlier).Entitled ∧
      ∀ a next, (run step s earlier).Replaces a next →
        ((run step s earlier).step (.turn a)).connection.policy = next ∧
          LeftOf (Keeps (run step s earlier).connection.policy next)
            (run step s earlier).runtime ((run step s earlier).step (.turn a)).runtime ∧
          ((run step s earlier).step (.turn a)).runtime.resources.resources.keys =
            ((run step s earlier).step (.turn a)).runtime.lifecycle.resources.keys := by
  have hserving := (run_spec hnew earlier).1
  refine ⟨?_, fun a next hreplaces => ?_⟩
  · exact (run_invariant (P := fun s => Serving s ∧ s.Entitled)
      (fun s call h => ⟨(step_spec h.1 call).1, h.2.step h.1 call⟩)
      ⟨(serving_new hnew).1, entitled_new hnew⟩ earlier).2
  · have hturn : (run step s earlier).step (.turn a) = (run step s earlier).turn a := by
      rw [step, if_neg (by simp [hreplaces.1])]
    obtain ⟨hpolicy, hleft⟩ := turn_replace hserving hreplaces
    have hcoherent := (step_spec hserving (.turn a)).1.coherent
    rw [hturn] at hcoherent ⊢
    exact ⟨hpolicy, hleft, hcoherent.resources_eq.symm⟩

/-! ### A grant that is taken back -/

/-- The policy grants nothing any more. -/
def silenced : EffectivePolicy := { notifying with grants := [] }

/-- A worker has the notification when its grant is taken back: the operation is cancelled. -/
theorem revocation_complete_silenced :
    ∃ s, new notifying oneWorker = ok s ∧
      (run step s (.register .notificationSendV1 :: turns 9 ++ reading sendNotification ++
        [.turn { poll := .ready { updates := true } }])).runtime.lifecycle.pending.keys = [1] ∧
      ((run step s (.register .notificationSendV1 :: turns 9 ++ reading sendNotification ++
        [.turn { poll := .ready { updates := true } }])).step
          (.turn { reload := .ok (some silenced) })).runtime.lifecycle.pending.get 1 = none := by
  refine ⟨_, rfl, by decide, ?_⟩
  have hnew : new notifying oneWorker = ok _ := rfl
  obtain ⟨-, hreplaces⟩ := revocation_complete hnew (.register .notificationSendV1 :: turns 9 ++
    reading sendNotification ++ [.turn { poll := .ready { updates := true } }])
  obtain ⟨-, hleft, -⟩ := hreplaces { reload := .ok (some silenced) } silenced
    ⟨by decide, ⟨_, rfl⟩, rfl⟩
  rw [hleft.pending]
  decide

end ServeLoop

end TouchBar.Broker
