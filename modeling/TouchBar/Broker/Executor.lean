import TouchBar.Policy.Grant
import TouchBar.Protocol.BrokerIpc

/-!
# The worker pool

Operations go to a bounded queue, from which worker threads take them.  A worker calls
the backend, looks once at the cancellation flag and the deadline of the operation, and
sends the completion on a channel that the supervisor reads.  The supervisor knows an
operation as active from the moment it was queued until it has read its completion.

The threads touch three things that are shared: the queue, the flags, and the channel.
A step of a worker goes from one of them to the next.  What a backend answers is free.
-/

namespace TouchBar.Broker

open TouchBar.Rust TouchBar.Policy TouchBar.Supervisor TouchBar.Protocol Outcome

structure ExecutorLimits where
  workers : ℕ
  queuedOperations : ℕ
  maximumActiveOperations : ℕ
deriving DecidableEq

/-- What the supervisor hands to a backend.  The identity of the connection, which is the
same in all of its requests, is left out. -/
structure BackendRequest where
  requestId : ℕ
  capability : CapabilityId
  authorizedScope : CapabilityScope
  bindings : GrantBindings
  activation : Option Protocol.ActivationContext
  operation : String
  payload : List UInt8

structure BackendCompletion where
  requestId : ℕ
  capability : CapabilityId
  result : BrokerResult
deriving DecidableEq

/-- The operation that a request starts. -/
def BackendRequest.key (request : BackendRequest) : ℕ × CapabilityId :=
  (request.requestId, request.capability)

/-- The operation that a completion ends. -/
def BackendCompletion.key (completion : BackendCompletion) : ℕ × CapabilityId :=
  (completion.requestId, completion.capability)

structure ActiveOperation where
  capability : CapabilityId
  cancelled : Bool
deriving DecidableEq

/-- `ActiveOperation::cancelled.store(true)`. -/
def ActiveOperation.cancel (operation : ActiveOperation) : ActiveOperation :=
  { operation with cancelled := true }

/-- What the backend of an operation answers when it is asked to authorize, and whether
the clock can represent the deadline of the operation. -/
structure SubmitAnswers where
  authorized : Option BrokerErrorCode
  deadlineFits : Bool
deriving DecidableEq

/-- The executor with its worker threads. -/
structure BackendExecutor where
  backends : BTreeSet CapabilityId
  limits : ExecutorLimits
  active : BTreeMap ℕ ActiveOperation
  /-- the queue of jobs -/
  jobs : List BackendRequest
  /-- jobs in the hands of workers -/
  running : List BackendRequest
  /-- completions that workers are about to send -/
  results : List BackendCompletion
  /-- the channel of completions -/
  completions : List BackendCompletion

/-- The next step of a worker. -/
inductive WorkerStep where
  /-- `recv` on the queue -/
  | take
  /-- The backend of a job has returned (with `none` it has panicked), and the worker asks
  for the reason of a cancellation. -/
  | execute (index : ℕ) (returned : Option BrokerResult) (expired : Bool)
  /-- `send` on the channel -/
  | send (index : ℕ)
deriving DecidableEq

namespace BackendExecutor

def new (limits : ExecutorLimits) : Outcome String BackendExecutor :=
  if limits.workers = 0 || limits.queuedOperations = 0 || limits.maximumActiveOperations = 0 then
    err "executor limits must be nonzero"
  else
    ok
      { backends := .empty
        limits := limits
        active := .empty
        jobs := []
        running := []
        results := []
        completions := [] }

def register (s : BackendExecutor) (capability : CapabilityId) : BackendExecutor :=
  { s with backends := s.backends.insert capability }

/-- The state after `submit`; an error changes nothing. -/
def submit (s : BackendExecutor) (request : BackendRequest) (answers : SubmitAnswers) :
    Outcome BrokerErrorCode BackendExecutor :=
  if request.requestId = 0 || s.active.containsKey request.requestId then err .invalidRequest
  else if s.limits.maximumActiveOperations ≤ s.active.len then err .quotaExceeded
  else if !s.backends.contains request.capability then err .unavailable
  else
    match answers.authorized with
    | some code => err code
    | none =>
      if !answers.deadlineFits then err .invalidRequest
      -- `try_send` finds the queue full
      else if s.limits.queuedOperations ≤ s.jobs.length then err .quotaExceeded
      else
        ok { s with
          jobs := s.jobs ++ [request]
          active := s.active.insert request.requestId ⟨request.capability, false⟩ }

/-- Whether the operation is active, and the state afterwards. -/
def cancel (s : BackendExecutor) (requestId : ℕ) : Bool × BackendExecutor :=
  match s.active.get requestId with
  | none => (false, s)
  | some operation => (true, { s with active := s.active.insert requestId operation.cancel })

def revoke (s : BackendExecutor) (capability : CapabilityId) : BackendExecutor :=
  { s with
    active := s.active.mapValues fun operation =>
      if operation.capability = capability then operation.cancel else operation }

def cancelAll (s : BackendExecutor) : BackendExecutor :=
  { s with active := s.active.mapValues ActiveOperation.cancel }

/-- The next completion of the channel, if there is one, and the state afterwards. -/
def tryCompletion (s : BackendExecutor) : Option BackendCompletion × BackendExecutor :=
  match s.completions with
  | [] => (none, s)
  | completion :: rest =>
    (some completion,
      { s with
        completions := rest
        active := s.active.remove completion.requestId })

/-! ## Workers -/

/-- The flag of an operation, which its job shares with the table of active operations. -/
def isCancelled (s : BackendExecutor) (requestId : ℕ) : Bool :=
  (s.active.get requestId).elim false ActiveOperation.cancelled

/-- The result that a worker sends: a cancellation and a deadline override what the
backend returned. -/
def workerResult (cancelled expired : Bool) (returned : Option BrokerResult) : BrokerResult :=
  if cancelled then .error .cancelled
  else if expired then .error .timeout
  else returned.getD (.error .backendFailed)

def work (s : BackendExecutor) : WorkerStep → BackendExecutor
  | .take =>
    match s.jobs with
    | [] => s
    | job :: rest =>
      if s.running.length + s.results.length < s.limits.workers then
        { s with
          jobs := rest
          running := s.running ++ [job] }
      else s
  | .execute index returned expired =>
    match s.running[index]? with
    | none => s
    | some job =>
      { s with
        running := s.running.eraseIdx index
        results := s.results ++ [⟨job.requestId, job.capability,
          workerResult (s.isCancelled job.requestId) expired returned⟩] }
  | .send index =>
    match s.results[index]? with
    | none => s
    | some completion =>
      { s with
        results := s.results.eraseIdx index
        completions := s.completions ++ [completion] }

/-! ## What is in flight -/

/-- The operations that are queued, running, computed or sent, each with its capability. -/
def inFlightKeys (s : BackendExecutor) : List (ℕ × CapabilityId) :=
  s.jobs.map BackendRequest.key ++ s.running.map BackendRequest.key ++
    s.results.map BackendCompletion.key ++ s.completions.map BackendCompletion.key

/-- The operations in the hands of the workers: queued, running, computed or sent. -/
def inFlight (s : BackendExecutor) : List ℕ :=
  s.jobs.map BackendRequest.requestId ++ s.running.map BackendRequest.requestId ++
    s.results.map BackendCompletion.requestId ++ s.completions.map BackendCompletion.requestId

/-- Every active operation is in flight exactly once, and nothing else is. -/
structure Sound (s : BackendExecutor) : Prop where
  flight : s.inFlight.Perm s.active.keys
  active_le : s.active.len ≤ s.limits.maximumActiveOperations
  jobs_le : s.jobs.length ≤ s.limits.queuedOperations
  workers_le : s.running.length + s.results.length ≤ s.limits.workers

variable {s s' : BackendExecutor} {request : BackendRequest} {answers : SubmitAnswers}

lemma sound_new {limits : ExecutorLimits} (h : new limits = ok s) :
    Sound s ∧ s.limits = limits ∧ s.active = .empty := by
  rw [new] at h
  split_ifs at h
  cases h
  exact ⟨⟨.refl _, Nat.zero_le _, Nat.zero_le _, Nat.zero_le _⟩, rfl, rfl⟩

lemma submit_eq_ok (h : s.submit request answers = ok s') :
    request.requestId ≠ 0 ∧ s.active.get request.requestId = none ∧
      s.active.len < s.limits.maximumActiveOperations ∧
      s.jobs.length < s.limits.queuedOperations ∧
      s' = { s with
        jobs := s.jobs ++ [request]
        active := s.active.insert request.requestId ⟨request.capability, false⟩ } := by
  rw [submit] at h
  cases hauthorized : answers.authorized with
  | some code =>
    rw [hauthorized] at h
    split_ifs at h
  | none =>
    rw [hauthorized] at h
    split_ifs at h with hid hactive hbackend hdeadline hjobs
    simp only [Bool.or_eq_true, decide_eq_true_eq, not_or, Bool.not_eq_true,
      BTreeMap.containsKey_eq_false_iff] at hid
    exact ⟨hid.1, hid.2, not_le.mp hactive, not_le.mp hjobs, (Outcome.ok.inj h).symm⟩

/-- A job is put into the queue, and its operation into the table. -/
lemma Sound.enqueue (h : Sound s) (hnone : s.active.get request.requestId = none)
    (hactive : s.active.len < s.limits.maximumActiveOperations)
    (hjobs : s.jobs.length < s.limits.queuedOperations) (operation : ActiveOperation) :
    Sound { s with
      jobs := s.jobs ++ [request]
      active := s.active.insert request.requestId operation } := by
  refine ⟨?_, ?_, ?_, h.workers_le⟩
  · refine .trans ?_ (BTreeMap.keys_insert_perm hnone).symm
    have hflight := h.flight.cons request.requestId
    refine .trans ?_ hflight
    simp only [inFlight, List.map_append, List.map_cons, List.map_nil, List.append_assoc]
    exact List.perm_middle
  · dsimp only
    rw [BTreeMap.len_insert hnone]
    exact hactive
  · dsimp only
    rw [List.length_append]
    exact hjobs

lemma Sound.submit (h : Sound s) (hok : s.submit request answers = ok s') : Sound s' := by
  obtain ⟨-, hnone, hactive, hjobs, rfl⟩ := submit_eq_ok hok
  exact h.enqueue hnone hactive hjobs _

/-- A change of flags leaves the keys alone. -/
lemma Sound.of_active (h : Sound s) {active : BTreeMap ℕ ActiveOperation}
    (hkeys : active.keys = s.active.keys) : Sound { s with active := active } := by
  refine ⟨?_, ?_, h.jobs_le, h.workers_le⟩
  · dsimp only
    rw [hkeys]
    exact h.flight
  · dsimp only
    rw [← BTreeMap.length_keys, hkeys, BTreeMap.length_keys]
    exact h.active_le

lemma get_cancel {requestId id : ℕ} : (s.cancel requestId).2.active.get id =
    if id = requestId then (s.active.get id).map ActiveOperation.cancel
    else s.active.get id := by
  rw [cancel]
  cases hget : s.active.get requestId with
  | none =>
    by_cases hid : id = requestId
    · rw [if_pos hid, hid, hget]
      rfl
    · rw [if_neg hid]
  | some operation =>
    dsimp only
    rw [BTreeMap.get_insert]
    by_cases hid : id = requestId
    · rw [if_pos hid, if_pos hid, hid, hget]
      rfl
    · rw [if_neg hid, if_neg hid]

lemma Sound.cancel (h : Sound s) (requestId : ℕ) : Sound (s.cancel requestId).2 := by
  have hkeys : (s.cancel requestId).2.active.keys = s.active.keys := by
    refine BTreeMap.keys_eq_of_containsKey fun id => ?_
    rw [BTreeMap.containsKey, BTreeMap.containsKey, get_cancel]
    split_ifs
    · exact Option.isSome_map
    · rfl
  rw [BackendExecutor.cancel] at hkeys ⊢
  split at hkeys
  · exact h
  · exact h.of_active hkeys

lemma Sound.revoke (h : Sound s) (capability : CapabilityId) : Sound (s.revoke capability) :=
  h.of_active BTreeMap.keys_mapValues

lemma Sound.cancelAll (h : Sound s) : Sound s.cancelAll := h.of_active BTreeMap.keys_mapValues

/-- A completion on the channel is of an active operation. -/
lemma Sound.containsKey_of_mem (h : Sound s) {completion : BackendCompletion}
    (hmem : completion ∈ s.completions) : s.active.containsKey completion.requestId = true := by
  rw [← BTreeMap.mem_keys_iff_containsKey, ← h.flight.mem_iff]
  exact List.mem_append_right _ (List.mem_map_of_mem hmem)

lemma Sound.tryCompletion (h : Sound s) : Sound s.tryCompletion.2 := by
  rw [BackendExecutor.tryCompletion]
  cases hcompletions : s.completions with
  | nil => exact h
  | cons completion rest =>
    have hcontains : s.active.containsKey completion.requestId = true :=
      h.containsKey_of_mem (by simp [hcompletions])
    obtain ⟨operation, hget⟩ := BTreeMap.containsKey_iff.mp hcontains
    refine ⟨?_, BTreeMap.len_remove_le.trans h.active_le, h.jobs_le, h.workers_le⟩
    have hflight := h.flight.trans (BTreeMap.keys_remove_perm hget)
    rw [inFlight, hcompletions, List.map_cons] at hflight
    exact (List.perm_middle.symm.trans hflight).cons_inv

lemma perm_eraseIdx {α : Type*} {l : List α} {index : ℕ} {a : α} (h : l[index]? = some a) :
    l.Perm (a :: l.eraseIdx index) := by
  induction l generalizing index with
  | nil => cases h
  | cons b l ih =>
    cases index with
    | zero =>
      cases h
      exact .refl _
    | succ index => exact ((ih h).cons b).trans (.swap _ _ _)

lemma inFlightKeys_enqueue :
    { s with jobs := s.jobs ++ [request] }.inFlightKeys.Perm (request.key :: s.inFlightKeys) := by
  simp only [inFlightKeys, List.map_append, List.map_cons, List.map_nil, List.append_assoc]
  exact List.perm_middle

lemma map_fst_inFlightKeys : s.inFlightKeys.map Prod.fst = s.inFlight := by
  simp only [inFlightKeys, inFlight, List.map_append, List.map_map]
  rfl

/-- A worker moves one operation on. -/
lemma inFlightKeys_work (step : WorkerStep) :
    (s.work step).inFlightKeys.Perm s.inFlightKeys := by
  rw [List.perm_iff_count]
  intro key
  cases step with
  | take =>
    rw [work]
    cases hjobs : s.jobs with
    | nil => rfl
    | cons job rest =>
      dsimp only
      split_ifs with hworkers
      · simp only [inFlightKeys, hjobs, List.map_append, List.map_cons, List.map_nil,
          List.count_append, List.count_cons, List.count_nil]
        omega
      · rfl
  | execute index returned expired =>
    rw [work]
    cases hjob : s.running[index]? with
    | none => rfl
    | some job =>
      have hperm := (perm_eraseIdx hjob).map BackendRequest.key
      have hcount := List.perm_iff_count.mp hperm key
      simp only [inFlightKeys, List.map_append, List.map_cons, List.map_nil, List.count_append,
        List.count_cons, List.count_nil, BackendRequest.key, BackendCompletion.key] at hcount ⊢
      omega
  | send index =>
    rw [work]
    cases hresult : s.results[index]? with
    | none => rfl
    | some completion =>
      have hperm := (perm_eraseIdx hresult).map BackendCompletion.key
      have hcount := List.perm_iff_count.mp hperm key
      simp only [inFlightKeys, List.map_append, List.map_cons, List.map_nil, List.count_append,
        List.count_cons, List.count_nil] at hcount ⊢
      omega

lemma inFlight_work (step : WorkerStep) : (s.work step).inFlight.Perm s.inFlight := by
  have hperm := (inFlightKeys_work (s := s) step).map Prod.fst
  rwa [map_fst_inFlightKeys, map_fst_inFlightKeys] at hperm

lemma active_work (step : WorkerStep) : (s.work step).active = s.active := by
  cases step <;> rw [work] <;> split <;> [rfl; split <;> rfl; rfl; rfl; rfl; rfl]

lemma limits_work (step : WorkerStep) : (s.work step).limits = s.limits := by
  cases step <;> rw [work] <;> split <;> [rfl; split <;> rfl; rfl; rfl; rfl; rfl]

lemma Sound.work (h : Sound s) (step : WorkerStep) : Sound (s.work step) := by
  refine ⟨?_, ?_, ?_, ?_⟩
  · rw [active_work]
    exact (inFlight_work step).trans h.flight
  · rw [active_work, limits_work]
    exact h.active_le
  · have hjobs := h.jobs_le
    rw [limits_work]
    cases step with
    | take =>
      rw [BackendExecutor.work]
      cases heq : s.jobs with
      | nil => exact hjobs
      | cons job rest =>
        rw [heq, List.length_cons] at hjobs
        dsimp only
        split_ifs
        · exact Nat.le_of_succ_le hjobs
        · rw [heq]
          exact hjobs
    | execute index returned expired =>
      rw [BackendExecutor.work]
      split <;> exact hjobs
    | send index =>
      rw [BackendExecutor.work]
      split <;> exact hjobs
  · have hworkers := h.workers_le
    rw [limits_work]
    cases step with
    | take =>
      rw [BackendExecutor.work]
      split
      · exact hworkers
      · split_ifs with hroom
        · simp only [List.length_append, List.length_cons, List.length_nil]
          omega
        · exact hworkers
    | execute index returned expired =>
      rw [BackendExecutor.work]
      split
      · exact hworkers
      · next job hjob =>
        have hlength := (perm_eraseIdx hjob).length_eq
        simp only [List.length_append, List.length_cons, List.length_nil] at hlength ⊢
        omega
    | send index =>
      rw [BackendExecutor.work]
      split
      · exact hworkers
      · next completion hcompletion =>
        have hlength := (perm_eraseIdx hcompletion).length_eq
        simp only [List.length_cons] at hlength ⊢
        omega

end BackendExecutor

end TouchBar.Broker
