import TouchBar.Broker.Progress
import TouchBar.Supervisor.Request

/-!
# Admission to the worker pool

A call of `submit` checks the request against the table of active operations, asks the
backend, puts the job into the queue, and only then writes the operation into the table.
Workers run meanwhile: the job can be taken, run and completed before the table knows of
it.  This file takes the call apart into these steps and follows the pool over every
interleaving of them with the workers.

The call that is in the middle of `submit` is counted with the operation that it has
queued: `settled` is the pool as it will be when the call has returned.  It is a pool of
which all that is known of whole calls holds, so that what is active is what is queued,
running, computed or sent, and nothing else.
-/

namespace TouchBar.Broker

open TouchBar.Rust TouchBar.Lib TouchBar.Policy TouchBar.Supervisor TouchBar.Protocol Outcome

/-- How a call of `submit` ends. -/
inductive SubmitEnd where
  /-- the number of the request is zero or that of an active operation -/
  | invalidId
  | capacityExhausted
  | noBackend
  /-- the backend has refused -/
  | refused (code : BrokerErrorCode)
  /-- the clock cannot represent the deadline -/
  | noDeadline
  /-- `TrySendError::Full` -/
  | full
  | accepted
deriving DecidableEq

def SubmitEnd.result : SubmitEnd → Outcome BrokerErrorCode Unit
  | invalidId => err .invalidRequest
  | capacityExhausted => err .quotaExceeded
  | noBackend => err .unavailable
  | refused code => err code
  | noDeadline => err .invalidRequest
  | full => err .quotaExceeded
  | accepted => ok ()

/-- What a call of `submit` finds when it starts. -/
structure SubmitEntry where
  request : BackendRequest
  active : BTreeMap ℕ ActiveOperation
  ledger : ActivationLedger

/-- A call of `submit` that has returned. -/
structure SubmitCall where
  entry : SubmitEntry
  /-- `Backend::authorize` was called -/
  asked : Bool
  ending : SubmitEnd
  /-- the ledger when the call returned -/
  ledger : ActivationLedger

/-- Where the thread of the supervisor is. -/
inductive Point where
  /-- between two calls -/
  | idle
  /-- before `Backend::authorize` -/
  | authorizing (entry : SubmitEntry)
  /-- before `try_send` -/
  | sending (entry : SubmitEntry)
  /-- before `active.insert` -/
  | recording (entry : SubmitEntry)

/-- What a backend does when it is asked to authorize: it may refuse, and leaves a ledger. -/
structure Authorization where
  refused : Option BrokerErrorCode
  ledger : ActivationLedger

/-- The executor with the thread that calls it, and the history of the calls. -/
structure Admission where
  executor : BackendExecutor
  ledger : ActivationLedger
  point : Point
  /-- the calls of `submit` that have returned -/
  calls : List SubmitCall
  /-- what `try_completion` has returned -/
  delivered : List BackendCompletion

inductive AdmissionStep where
  | register (capability : CapabilityId)
  /-- `submit`, as far as it does not ask the backend -/
  | enter (request : BackendRequest)
  /-- `Backend::authorize`, and the deadline -/
  | authorize (answer : Authorization) (deadlineFits : Bool)
  | trySend
  | record
  | cancel (requestId : ℕ)
  | revoke (capability : CapabilityId)
  | cancelAll
  | tryCompletion
  | worker (step : WorkerStep)

/-- The checks of `submit` that come before the backend is asked. -/
def BackendExecutor.check (s : BackendExecutor) (request : BackendRequest) : Option SubmitEnd :=
  if request.requestId = 0 || s.active.containsKey request.requestId then some .invalidId
  else if s.limits.maximumActiveOperations ≤ s.active.len then some .capacityExhausted
  else if !s.backends.contains request.capability then some .noBackend
  else none

namespace Admission

def start (executor : BackendExecutor) (ledger : ActivationLedger) : Admission where
  executor := executor
  ledger := ledger
  point := .idle
  calls := []
  delivered := []

/-- The call of `submit` returns. -/
def finish (s : Admission) (entry : SubmitEntry) (asked : Bool) (ending : SubmitEnd) :
    Admission :=
  { s with
    point := .idle
    calls := s.calls ++ [⟨entry, asked, ending, s.ledger⟩] }

def enter (s : Admission) (request : BackendRequest) : Admission :=
  match s.executor.check request with
  | some ending => s.finish ⟨request, s.executor.active, s.ledger⟩ false ending
  | none => { s with point := .authorizing ⟨request, s.executor.active, s.ledger⟩ }

def authorize (s : Admission) (entry : SubmitEntry) (answer : Authorization)
    (deadlineFits : Bool) : Admission :=
  match answer.refused with
  | some code => { s with ledger := answer.ledger }.finish entry true (.refused code)
  | none =>
    if deadlineFits then
      { s with
        ledger := answer.ledger
        point := .sending entry }
    else { s with ledger := answer.ledger }.finish entry true .noDeadline

def trySend (s : Admission) (entry : SubmitEntry) : Admission :=
  if s.executor.limits.queuedOperations ≤ s.executor.jobs.length then s.finish entry true .full
  else
    { s with
      executor := { s.executor with jobs := s.executor.jobs ++ [entry.request] }
      point := .recording entry }

/-- `active.insert`. -/
def recorded (executor : BackendExecutor) (request : BackendRequest) : BackendExecutor :=
  { executor with
    active := executor.active.insert request.requestId ⟨request.capability, false⟩ }

def tryCompletion (s : Admission) : Admission :=
  { s with
    executor := s.executor.tryCompletion.2
    delivered := s.delivered ++ s.executor.tryCompletion.1.toList }

/-- A step that does not come at the point where the thread is does nothing. -/
def step (s : Admission) (a : AdmissionStep) : Admission :=
  match s.point, a with
  | _, .worker step => { s with executor := s.executor.work step }
  | .idle, .register capability => { s with executor := s.executor.register capability }
  | .idle, .enter request => s.enter request
  | .idle, .cancel requestId => { s with executor := (s.executor.cancel requestId).2 }
  | .idle, .revoke capability => { s with executor := s.executor.revoke capability }
  | .idle, .cancelAll => { s with executor := s.executor.cancelAll }
  | .idle, .tryCompletion => s.tryCompletion
  | .authorizing entry, .authorize answer deadlineFits => s.authorize entry answer deadlineFits
  | .sending entry, .trySend => s.trySend entry
  | .recording entry, .record =>
    { s with executor := recorded s.executor entry.request }.finish entry true .accepted
  | _, _ => s

/-! ## One call without workers -/

/-- The steps of one call of `submit`. -/
def submitSteps (request : BackendRequest) (answers : SubmitAnswers) (ledger : ActivationLedger) :
    List AdmissionStep :=
  [.enter request, .authorize ⟨answers.authorized, ledger⟩ answers.deadlineFits, .trySend,
    .record]

variable {s : Admission}

lemma step_enter (h : s.point = .idle) (request : BackendRequest) :
    s.step (.enter request) = s.enter request := by
  simp only [step, h]

lemma step_authorize {entry : SubmitEntry} (h : s.point = .authorizing entry)
    (answer : Authorization) (deadlineFits : Bool) :
    s.step (.authorize answer deadlineFits) = s.authorize entry answer deadlineFits := by
  simp only [step, h]

lemma step_trySend {entry : SubmitEntry} (h : s.point = .sending entry) :
    s.step .trySend = s.trySend entry := by
  simp only [step, h]

lemma step_record {entry : SubmitEntry} (h : s.point = .recording entry) :
    s.step .record =
      { s with executor := recorded s.executor entry.request }.finish entry true .accepted := by
  simp only [step, h]

/-- The checks come first in `submit`. -/
lemma submit_of_check {e : BackendExecutor} {request : BackendRequest} {ending : SubmitEnd}
    (h : e.check request = some ending) (answers : SubmitAnswers) :
    e.submit request answers = (do ending.result; return e) := by
  rw [BackendExecutor.check] at h
  rw [BackendExecutor.submit]
  split_ifs at h ⊢ <;> cases h <;> rfl

lemma submit_of_checked {e : BackendExecutor} {request : BackendRequest}
    (h : e.check request = none) (answers : SubmitAnswers) :
    e.submit request answers =
      match answers.authorized with
      | some code => err code
      | none =>
        if !answers.deadlineFits then err .invalidRequest
        else if e.limits.queuedOperations ≤ e.jobs.length then err .quotaExceeded
        else ok (recorded { e with jobs := e.jobs ++ [request] } request) := by
  rw [BackendExecutor.check] at h
  rw [BackendExecutor.submit]
  split_ifs at h with hid hactive hbackend
  rw [if_neg hid, if_neg hactive, if_neg hbackend]
  rfl

/-- While the workers rest, the steps of a call do what `submit` does. -/
theorem run_submitSteps (hidle : s.point = .idle) (request : BackendRequest)
    (answers : SubmitAnswers) (ledger : ActivationLedger) :
    ∃ executor asked ending ledger',
      run step s (submitSteps request answers ledger) =
        { s with executor := executor, ledger := ledger' }.finish
          ⟨request, s.executor.active, s.ledger⟩ asked ending ∧
      s.executor.submit request answers = (do ending.result; return executor) ∧
      (ending ≠ .accepted → executor = s.executor) := by
  simp only [submitSteps, run_cons, run_nil]
  rw [step_enter hidle, enter]
  cases hcheck : s.executor.check request with
  | some ending =>
    exact ⟨s.executor, false, ending, s.ledger, rfl, submit_of_check hcheck answers,
      fun _ => rfl⟩
  | none =>
    rw [submit_of_checked hcheck]
    dsimp only
    rw [step_authorize rfl, authorize]
    cases answers.authorized with
    | some code => exact ⟨s.executor, true, .refused code, ledger, rfl, rfl, fun _ => rfl⟩
    | none =>
      cases answers.deadlineFits with
      | false => exact ⟨s.executor, true, .noDeadline, ledger, rfl, rfl, fun _ => rfl⟩
      | true =>
        simp only [if_true, Bool.not_true, Bool.false_eq_true, if_false]
        rw [step_trySend rfl, trySend]
        dsimp only
        split_ifs with hfull
        · exact ⟨s.executor, true, .full, ledger, rfl, rfl, fun _ => rfl⟩
        · exact ⟨_, true, .accepted, ledger, step_record rfl, rfl, fun h => absurd rfl h⟩

/-! ## The books -/

/-- The pool as it will be when the call in progress has returned. -/
def settled (s : Admission) : BackendExecutor :=
  match s.point with
  | .recording entry => recorded s.executor entry.request
  | _ => s.executor

/-- The operation that is queued and not yet in the table of active operations. -/
def unrecorded (s : Admission) : List (ℕ × CapabilityId) :=
  match s.point with
  | .recording entry => [entry.request.key]
  | _ => []

/-- The operations for which `submit` has returned `Ok`. -/
def accepted (s : Admission) : List (ℕ × CapabilityId) :=
  (s.calls.filter fun call => call.ending = .accepted).map fun call => call.entry.request.key

end Admission

/-- The call in progress. -/
def Point.entry : Point → Option SubmitEntry
  | idle => none
  | authorizing entry => some entry
  | sending entry => some entry
  | recording entry => some entry

/-- The request of an entry was sent for an operation that is not active. -/
def SubmitEntry.Fresh (entry : SubmitEntry) : Prop :=
  entry.request.requestId ≠ 0 ∧ entry.active.containsKey entry.request.requestId = false

/-- How a call ended and what it touched, from what it found: whether the number is taken
and whether there is room is decided before the backend is asked, and afterwards only the
backend or the clock can refuse. -/
structure SubmitCall.Explained (maximum : ℕ) (call : SubmitCall) : Prop where
  invalidId : call.ending = .invalidId ↔ ¬ call.entry.Fresh
  capacityExhausted : call.ending = .capacityExhausted ↔
    call.entry.Fresh ∧ maximum ≤ call.entry.active.len
  unasked : call.asked = false ↔ call.ending = .invalidId ∨ call.ending = .capacityExhausted ∨
    call.ending = .noBackend
  /-- Without the backend no activation is used. -/
  ledger : call.asked = false → call.ledger = call.entry.ledger
  never_full : call.ending ≠ .full

/-- A call that has passed the checks. -/
structure SubmitEntry.Passed (entry : SubmitEntry) (e : BackendExecutor) : Prop where
  fresh : entry.Fresh
  active : entry.active = e.active
  room : e.active.len < e.limits.maximumActiveOperations

lemma SubmitEntry.Passed.get_eq_none {entry : SubmitEntry} {e : BackendExecutor}
    (h : entry.Passed e) : e.active.get entry.request.requestId = none := by
  have hfresh := h.fresh.2
  rwa [h.active, BTreeMap.containsKey_eq_false_iff] at hfresh

namespace Admission

/-- What holds at every point of every run. -/
structure Conserved (limits : ExecutorLimits) (s : Admission) : Prop where
  configured : s.executor.limits = limits
  sound : s.settled.Sound
  passed : ∀ entry, s.point.entry = some entry → entry.Passed s.executor
  /-- Every operation that was accepted is delivered or in flight, and no other is. -/
  books : (s.accepted ++ s.unrecorded).Perm
    (s.delivered.map BackendCompletion.key ++ s.executor.inFlightKeys)
  explained : ∀ call ∈ s.calls, call.Explained limits.maximumActiveOperations

variable {s : Admission} {limits : ExecutorLimits} {entry : SubmitEntry}

/-- Only a call between `try_send` and `active.insert` has something unrecorded. -/
lemma settled_of_ne (hpoint : ∀ entry, s.point ≠ .recording entry) :
    s.settled = s.executor ∧ s.unrecorded = [] := by
  rw [settled, unrecorded]
  cases hs : s.point with
  | recording entry => exact absurd hs (hpoint entry)
  | idle => exact ⟨rfl, rfl⟩
  | authorizing entry => exact ⟨rfl, rfl⟩
  | sending entry => exact ⟨rfl, rfl⟩

lemma settled_of_recording (hpoint : s.point = .recording entry) :
    s.settled = recorded s.executor entry.request ∧ s.unrecorded = [entry.request.key] := by
  rw [settled, unrecorded, hpoint]
  exact ⟨rfl, rfl⟩

lemma conserved_start {executor : BackendExecutor} (hnew : BackendExecutor.new limits = ok executor)
    (ledger : ActivationLedger) : Conserved limits (start executor ledger) := by
  obtain ⟨hsound, hlimits, -⟩ := BackendExecutor.sound_new hnew
  refine ⟨hlimits, hsound, fun _ h => ?_, ?_, fun _ h => ?_⟩
  · cases h
  · rw [BackendExecutor.new] at hnew
    split_ifs at hnew
    cases hnew
    exact .refl _
  · cases h

/-! ## Calls that return -/

lemma accepted_finish (entry : SubmitEntry) (asked : Bool) (ending : SubmitEnd) :
    (s.finish entry asked ending).accepted =
      s.accepted ++ if ending = .accepted then [entry.request.key] else [] := by
  rw [accepted, accepted, finish, List.filter_append, List.map_append]
  by_cases hending : ending = .accepted
  · rw [if_pos hending, List.filter_cons_of_pos (by simpa using hending)]
    rfl
  · rw [if_neg hending, List.filter_cons_of_neg (by simpa using hending)]
    rfl

lemma fresh_iff {e : BackendExecutor} {request : BackendRequest} {ledger : ActivationLedger} :
    (⟨request, e.active, ledger⟩ : SubmitEntry).Fresh ↔
      (request.requestId = 0 || e.active.containsKey request.requestId) = false := by
  simp [SubmitEntry.Fresh]

lemma explained_of_check {e : BackendExecutor} {request : BackendRequest} {ending : SubmitEnd}
    (h : e.check request = some ending) (ledger : ActivationLedger) :
    SubmitCall.Explained e.limits.maximumActiveOperations
      ⟨⟨request, e.active, ledger⟩, false, ending, ledger⟩ := by
  rw [BackendExecutor.check] at h
  split_ifs at h with hid hactive hbackend
  · have hfresh : ¬ (⟨request, e.active, ledger⟩ : SubmitEntry).Fresh := by
      rw [fresh_iff, hid]
      exact Bool.noConfusion
    cases h
    exact ⟨by simp [hfresh], by simp [hfresh], by simp, fun _ => rfl, by simp⟩
  · have hfresh : (⟨request, e.active, ledger⟩ : SubmitEntry).Fresh :=
      fresh_iff.mpr (Bool.eq_false_iff.mpr hid)
    cases h
    exact ⟨by simp [hfresh], by simp [hfresh, hactive], by simp, fun _ => rfl, by simp⟩
  · have hfresh : (⟨request, e.active, ledger⟩ : SubmitEntry).Fresh :=
      fresh_iff.mpr (Bool.eq_false_iff.mpr hid)
    cases h
    exact ⟨by simp [hfresh], by simp [hactive], by simp, fun _ => rfl, by simp⟩

lemma passed_of_check {e : BackendExecutor} {request : BackendRequest}
    (h : e.check request = none) (ledger : ActivationLedger) :
    (⟨request, e.active, ledger⟩ : SubmitEntry).Passed e := by
  rw [BackendExecutor.check] at h
  split_ifs at h with hid hactive hbackend
  exact ⟨fresh_iff.mpr (Bool.eq_false_iff.mpr hid), rfl, not_le.mp hactive⟩

/-- After the checks, only the backend and the clock can refuse. -/
lemma explained_of_passed {e : BackendExecutor} (h : entry.Passed e) {ending : SubmitEnd}
    (hending : ending = .noDeadline ∨ ending = .accepted ∨ ∃ code, ending = .refused code)
    (ledger : ActivationLedger) :
    SubmitCall.Explained e.limits.maximumActiveOperations ⟨entry, true, ending, ledger⟩ := by
  have hroom : ¬ e.limits.maximumActiveOperations ≤ entry.active.len := by
    rw [h.active]
    exact not_le.mpr h.room
  rcases hending with rfl | rfl | ⟨code, rfl⟩ <;>
    exact ⟨by simp [h.fresh], by simp [hroom], by simp, by simp, by simp⟩

/-- A call that returns with an error. -/
lemma Conserved.finish (h : Conserved limits s) (hpoint : ∀ entry, s.point ≠ .recording entry)
    {asked : Bool} {ending : SubmitEnd} {ledger : ActivationLedger} (hending : ending ≠ .accepted)
    (hexplained : SubmitCall.Explained limits.maximumActiveOperations
      ⟨entry, asked, ending, ledger⟩) :
    Conserved limits ({ s with ledger := ledger }.finish entry asked ending) := by
  obtain ⟨hsettled, hunrecorded⟩ := settled_of_ne hpoint
  refine ⟨h.configured, ?_, fun _ hentry => ?_, ?_, fun call hcall => ?_⟩
  · have hsound := h.sound
    rw [hsettled] at hsound
    exact hsound
  · cases hentry
  · have hbooks := h.books
    rw [hunrecorded, List.append_nil] at hbooks
    rw [accepted_finish, if_neg hending, List.append_nil]
    refine .trans ?_ hbooks
    exact .of_eq (List.append_nil _)
  · rcases List.mem_append.mp hcall with hold | hnew
    · exact h.explained call hold
    · rw [List.mem_singleton.mp hnew]
      exact hexplained

lemma Conserved.enter (h : Conserved limits s) (hidle : s.point = .idle)
    (request : BackendRequest) : Conserved limits (s.enter request) := by
  have hpoint : ∀ entry, s.point ≠ .recording entry := fun entry => by simp [hidle]
  rw [Admission.enter]
  cases hcheck : s.executor.check request with
  | some ending =>
    have hending : ending ≠ .accepted := by
      rintro rfl
      rw [BackendExecutor.check] at hcheck
      split_ifs at hcheck <;> cases hcheck
    have hexplained := explained_of_check hcheck s.ledger
    rw [h.configured] at hexplained
    exact h.finish hpoint hending hexplained
  | none =>
    obtain ⟨hsettled, hunrecorded⟩ := settled_of_ne hpoint
    have hsound := h.sound
    have hbooks := h.books
    rw [hsettled] at hsound
    rw [hunrecorded] at hbooks
    refine ⟨h.configured, hsound, fun entry hentry => ?_, hbooks, h.explained⟩
    cases hentry
    exact passed_of_check hcheck s.ledger

lemma Conserved.authorize (h : Conserved limits s) (hpoint : s.point = .authorizing entry)
    (answer : Authorization) (deadlineFits : Bool) :
    Conserved limits (s.authorize entry answer deadlineFits) := by
  have hne : ∀ entry, s.point ≠ .recording entry := fun entry => by simp [hpoint]
  have hpassed : entry.Passed s.executor := h.passed entry (by rw [hpoint]; rfl)
  rw [Admission.authorize]
  cases answer.refused with
  | some code =>
    refine h.finish hne (by simp) ?_
    rw [← h.configured]
    exact explained_of_passed hpassed (.inr (.inr ⟨code, rfl⟩)) answer.ledger
  | none =>
    cases deadlineFits with
    | false =>
      refine h.finish hne (by simp) ?_
      rw [← h.configured]
      exact explained_of_passed hpassed (.inl rfl) answer.ledger
    | true =>
      obtain ⟨hsettled, hunrecorded⟩ := settled_of_ne hne
      have hsound := h.sound
      have hbooks := h.books
      rw [hsettled] at hsound
      rw [hunrecorded] at hbooks
      refine ⟨h.configured, hsound, fun entry' hentry => ?_, hbooks, h.explained⟩
      cases hentry
      exact hpassed

/-- No more jobs are queued than operations are active. -/
lemma jobs_le_active {e : BackendExecutor} (h : e.Sound) : e.jobs.length ≤ e.active.len := by
  have hlength := h.flight.length_eq
  rw [BTreeMap.length_keys, BackendExecutor.inFlight] at hlength
  simp only [List.length_append, List.length_map] at hlength
  omega

lemma Conserved.trySend (h : Conserved limits s) (hpoint : s.point = .sending entry)
    (hroom : limits.maximumActiveOperations ≤ limits.queuedOperations) :
    Conserved limits (s.trySend entry) := by
  have hne : ∀ entry, s.point ≠ .recording entry := fun entry => by simp [hpoint]
  obtain ⟨hsettled, hunrecorded⟩ := settled_of_ne hne
  have hpassed : entry.Passed s.executor := h.passed entry (by rw [hpoint]; rfl)
  have hsound := h.sound
  have hbooks := h.books
  rw [hsettled] at hsound
  rw [hunrecorded, List.append_nil] at hbooks
  have hjobs : s.executor.jobs.length < s.executor.limits.queuedOperations := by
    have hle := jobs_le_active hsound
    have hlt := hpassed.room
    rw [h.configured] at hlt ⊢
    omega
  rw [Admission.trySend, if_neg (not_le.mpr hjobs)]
  refine ⟨h.configured, ?_, fun entry' hentry => ?_, ?_, h.explained⟩
  · exact hsound.enqueue hpassed.get_eq_none hpassed.room hjobs _
  · cases hentry
    exact ⟨hpassed.fresh, hpassed.active, hpassed.room⟩
  · have hqueued : (s.accepted ++ [entry.request.key]).Perm
        (entry.request.key :: (s.delivered.map BackendCompletion.key ++
          s.executor.inFlightKeys)) :=
      List.perm_append_singleton _ _ |>.trans (hbooks.cons _)
    refine hqueued.trans (List.perm_middle.symm.trans ?_)
    exact BackendExecutor.inFlightKeys_enqueue.symm.append_left _

lemma Conserved.record (h : Conserved limits s) (hpoint : s.point = .recording entry) :
    Conserved limits
      ({ s with executor := recorded s.executor entry.request }.finish entry true .accepted) := by
  obtain ⟨hsettled, hunrecorded⟩ := settled_of_recording hpoint
  have hsound := h.sound
  have hbooks := h.books
  rw [hsettled] at hsound
  rw [hunrecorded] at hbooks
  refine ⟨h.configured, hsound, fun _ hentry => ?_, ?_, fun call hcall => ?_⟩
  · cases hentry
  · rw [accepted_finish, if_pos rfl]
    refine .trans ?_ hbooks
    exact .of_eq (List.append_nil _)
  · rcases List.mem_append.mp hcall with hold | hnew
    · exact h.explained call hold
    · rw [List.mem_singleton.mp hnew, ← h.configured]
      exact explained_of_passed (h.passed entry (by rw [hpoint]; rfl)) (.inr (.inl rfl)) _

/-! ## Calls that the backend has no part in -/

/-- A call that changes flags, or the table of backends. -/
lemma Conserved.of_executor (h : Conserved limits s) (hidle : s.point = .idle)
    {e : BackendExecutor} (hsound : s.executor.Sound → e.Sound)
    (hlimits : e.limits = s.executor.limits)
    (hkeys : e.inFlightKeys = s.executor.inFlightKeys) :
    Conserved limits { s with executor := e } := by
  have hne : ∀ entry, s.point ≠ .recording entry := fun entry => by simp [hidle]
  obtain ⟨hsettled, hunrecorded⟩ := settled_of_ne hne
  obtain ⟨hsettled', hunrecorded'⟩ := settled_of_ne (s := { s with executor := e }) hne
  have hold := h.sound
  have hbooks := h.books
  rw [hsettled] at hold
  refine ⟨hlimits.trans h.configured, ?_, fun entry hentry => ?_, ?_, h.explained⟩
  · rw [hsettled']
    exact hsound hold
  · dsimp only at hentry
    rw [hidle] at hentry
    cases hentry
  · rw [hunrecorded']
    rw [hunrecorded] at hbooks
    dsimp only
    rw [hkeys]
    exact hbooks

lemma Conserved.cancel (h : Conserved limits s) (hidle : s.point = .idle) (requestId : ℕ) :
    Conserved limits { s with executor := (s.executor.cancel requestId).2 } := by
  refine h.of_executor hidle (fun hsound => hsound.cancel requestId) ?_ ?_ <;>
    rw [BackendExecutor.cancel] <;> split <;> rfl

lemma tryCompletion_nil (h : s.executor.completions = []) : s.tryCompletion = s := by
  rw [tryCompletion, BackendExecutor.tryCompletion, h]
  simp only [Option.toList_none, List.append_nil]

lemma tryCompletion_cons {completion : BackendCompletion} {rest : List BackendCompletion}
    (h : s.executor.completions = completion :: rest) :
    s.tryCompletion = { s with
      executor := { s.executor with
        completions := rest
        active := s.executor.active.remove completion.requestId }
      delivered := s.delivered ++ [completion] } := by
  rw [tryCompletion, BackendExecutor.tryCompletion, h]
  rfl

lemma Conserved.tryCompletion (h : Conserved limits s) (hidle : s.point = .idle) :
    Conserved limits s.tryCompletion := by
  have hne : ∀ entry, s.point ≠ .recording entry := fun entry => by simp [hidle]
  obtain ⟨hsettled, hunrecorded⟩ := settled_of_ne hne
  obtain ⟨hsettled', hunrecorded'⟩ := settled_of_ne (s := s.tryCompletion) hne
  have hsound := h.sound
  have hbooks := h.books
  rw [hsettled] at hsound
  rw [hunrecorded] at hbooks
  refine ⟨?_, ?_, fun entry hentry => ?_, ?_, h.explained⟩
  · rw [← h.configured, Admission.tryCompletion, BackendExecutor.tryCompletion]
    cases s.executor.completions <;> rfl
  · rw [hsettled']
    exact hsound.tryCompletion
  · rw [Admission.tryCompletion] at hentry
    dsimp only at hentry
    rw [hidle] at hentry
    cases hentry
  · rw [hunrecorded']
    refine hbooks.trans ?_
    cases hcompletions : s.executor.completions with
    | nil => rw [tryCompletion_nil hcompletions]
    | cons completion rest =>
      rw [tryCompletion_cons hcompletions, List.perm_iff_count]
      intro key
      simp only [BackendExecutor.inFlightKeys, hcompletions, List.map_append, List.map_cons,
        List.map_nil, List.count_append, List.count_cons, List.count_nil]
      omega

/-! ## Workers -/

/-- A job of which the table does not know yet is not cancelled. -/
lemma isCancelled_recorded {e : BackendExecutor} {request : BackendRequest}
    (hnone : e.active.get request.requestId = none) (requestId : ℕ) :
    (recorded e request).isCancelled requestId = e.isCancelled requestId := by
  rw [BackendExecutor.isCancelled, BackendExecutor.isCancelled, recorded]
  dsimp only
  rw [BTreeMap.get_insert]
  split_ifs with hid
  · rw [hid, hnone]
    rfl
  · rfl

/-- A worker does the same before and after `active.insert`. -/
lemma work_recorded {e : BackendExecutor} {request : BackendRequest}
    (hnone : e.active.get request.requestId = none) (step : WorkerStep) :
    (recorded e request).work step = recorded (e.work step) request := by
  obtain ⟨backends, limits, active, jobs, running, results, completions⟩ := e
  cases step with
  | take =>
    cases jobs with
    | nil => rfl
    | cons job rest =>
      by_cases hfree : running.length + results.length < limits.workers
      · simp only [BackendExecutor.work, recorded, hfree, if_true]
      · simp only [BackendExecutor.work, recorded, hfree, if_false]
  | execute index returned expired =>
    simp only [BackendExecutor.work, isCancelled_recorded hnone]
    simp only [recorded]
    cases running[index]? <;> rfl
  | send index =>
    simp only [BackendExecutor.work, recorded]
    cases results[index]? <;> rfl

lemma Conserved.worker (h : Conserved limits s) (step : WorkerStep) :
    Conserved limits { s with executor := s.executor.work step } := by
  have hsettled : ({ s with executor := s.executor.work step } : Admission).settled =
      s.settled.work step := by
    by_cases hrecording : ∃ entry, s.point = .recording entry
    · obtain ⟨entry, hpoint⟩ := hrecording
      have hpassed := h.passed entry (by rw [hpoint]; rfl)
      rw [(settled_of_recording hpoint).1, work_recorded hpassed.get_eq_none]
      exact (settled_of_recording (s := { s with executor := s.executor.work step }) hpoint).1
    · have hne : ∀ entry, s.point ≠ .recording entry := fun entry hpoint =>
        hrecording ⟨entry, hpoint⟩
      rw [(settled_of_ne hne).1]
      exact (settled_of_ne (s := { s with executor := s.executor.work step }) hne).1
  have hactive := s.executor.active_work step
  have hlimits := s.executor.limits_work step
  refine ⟨hlimits.trans h.configured, ?_, fun entry hentry => ?_, ?_, h.explained⟩
  · rw [hsettled]
    exact h.sound.work step
  · have hpassed := h.passed entry hentry
    refine ⟨hpassed.fresh, ?_, ?_⟩
    · dsimp only
      rw [hactive]
      exact hpassed.active
    · dsimp only
      rw [hactive, hlimits]
      exact hpassed.room
  · exact h.books.trans ((BackendExecutor.inFlightKeys_work step).symm.append_left _)

/-- Every step keeps the books. -/
lemma Conserved.step (h : Conserved limits s)
    (hroom : limits.maximumActiveOperations ≤ limits.queuedOperations) (a : AdmissionStep) :
    Conserved limits (s.step a) := by
  unfold Admission.step
  split
  case h_1 => exact h.worker _
  case h_2 hidle =>
    refine h.of_executor hidle (fun hsound => ?_) rfl rfl
    exact ⟨hsound.flight, hsound.active_le, hsound.jobs_le, hsound.workers_le⟩
  case h_3 hidle => exact h.enter hidle _
  case h_4 hidle => exact h.cancel hidle _
  case h_5 capability hidle =>
    exact h.of_executor hidle (fun hsound => hsound.revoke capability) rfl rfl
  case h_6 hidle => exact h.of_executor hidle (fun hsound => hsound.cancelAll) rfl rfl
  case h_7 hidle => exact h.tryCompletion hidle
  case h_8 hpoint => exact h.authorize hpoint _ _
  case h_9 hpoint => exact h.trySend hpoint hroom
  case h_10 hpoint => exact h.record hpoint
  case h_11 => exact h

/-! ## What was accepted is completed -/

end Admission

/-- The steps that deliver what was accepted: those of the workers, and `try_completion`. -/
def AdmissionStep.Drains : AdmissionStep → Prop
  | tryCompletion => True
  | worker _ => True
  | _ => False

/-- A step of a worker that does anything leaves less to do. -/
lemma BackendExecutor.workLeft_work {e : BackendExecutor} {step : WorkerStep}
    (hmoves : e.work step ≠ e) : (e.work step).workLeft < e.workLeft := by
  cases step with
  | take =>
    rw [work] at hmoves ⊢
    cases hjobs : e.jobs with
    | nil => simp [hjobs] at hmoves
    | cons job rest =>
      rw [hjobs] at hmoves
      dsimp only at hmoves ⊢
      split_ifs at hmoves ⊢ with hfree
      · simp only [workLeft, hjobs, List.length_append, List.length_cons, List.length_nil]
        omega
      · exact absurd rfl hmoves
  | execute index returned expired =>
    rw [work] at hmoves ⊢
    cases hjob : e.running[index]? with
    | none => simp [hjob] at hmoves
    | some job =>
      have hlength := (perm_eraseIdx hjob).length_eq
      rw [List.length_cons] at hlength
      simp only [workLeft, List.length_append, List.length_cons, List.length_nil]
      omega
  | send index =>
    rw [work] at hmoves ⊢
    cases hresult : e.results[index]? with
    | none => simp [hresult] at hmoves
    | some completion =>
      have hlength := (perm_eraseIdx hresult).length_eq
      rw [List.length_cons] at hlength
      simp only [workLeft]
      omega

/-- The steps until everything in flight is delivered. -/
def BackendExecutor.drainLeft (e : BackendExecutor) : ℕ := e.workLeft + e.inFlight.length

lemma BackendExecutor.drainLeft_le (e : BackendExecutor) :
    e.drainLeft ≤ 4 * e.inFlight.length := by
  simp only [drainLeft, workLeft, inFlight, List.length_append, List.length_map]
  omega

namespace Admission

variable {s : Admission} {limits : ExecutorLimits}

/-- A step that delivers, between two calls. -/
lemma drain_step (hidle : s.point = .idle) {a : AdmissionStep} (ha : a.Drains)
    (hmoves : s.step a ≠ s) :
    (s.step a).point = .idle ∧ (s.step a).accepted = s.accepted ∧
      (s.step a).executor.drainLeft < s.executor.drainLeft := by
  cases a with
  | worker step =>
    have hstep : s.step (.worker step) = { s with executor := s.executor.work step } := by
      simp only [Admission.step]
    rw [hstep] at hmoves ⊢
    refine ⟨hidle, rfl, ?_⟩
    have hwork : s.executor.work step ≠ s.executor := fun h => hmoves (by rw [h])
    have hlt := BackendExecutor.workLeft_work hwork
    have hlength := (s.executor.inFlight_work step).length_eq
    simp only [BackendExecutor.drainLeft]
    omega
  | tryCompletion =>
    have hstep : s.step .tryCompletion = s.tryCompletion := by
      simp only [Admission.step, hidle]
    rw [hstep] at hmoves ⊢
    cases hcompletions : s.executor.completions with
    | nil => exact absurd (tryCompletion_nil hcompletions) hmoves
    | cons completion rest =>
      rw [tryCompletion_cons hcompletions]
      refine ⟨hidle, rfl, ?_⟩
      simp only [BackendExecutor.drainLeft, BackendExecutor.workLeft, BackendExecutor.inFlight,
        hcompletions, List.length_append, List.length_map, List.length_cons]
      omega
  | _ => exact ha.elim

/-- The steps of a run all deliver something. -/
def Draining (s : Admission) (moves : List AdmissionStep) : Prop :=
  Meets step (fun s a => a.Drains ∧ s.step a ≠ s) s moves

lemma drain_run (hidle : s.point = .idle) {moves : List AdmissionStep} (h : Draining s moves) :
    (run step s moves).point = .idle ∧ (run step s moves).accepted = s.accepted ∧
      moves.length + (run step s moves).executor.drainLeft ≤ s.executor.drainLeft := by
  induction moves generalizing s with
  | nil => exact ⟨hidle, rfl, (Nat.zero_add _).le⟩
  | cons a moves ih =>
    obtain ⟨⟨ha, hmoves⟩, hrest⟩ := h
    obtain ⟨hidle', haccepted, hlt⟩ := drain_step hidle ha hmoves
    obtain ⟨hpoint, hsame, hle⟩ := ih hidle' hrest
    refine ⟨hpoint, hsame.trans haccepted, ?_⟩
    rw [run_cons, List.length_cons]
    omega

/-- Where no step delivers anything, everything is delivered. -/
lemma Conserved.drained (h : Conserved limits s) (hidle : s.point = .idle)
    (hworkers : 0 < limits.workers) (hstill : ∀ a : AdmissionStep, a.Drains → s.step a = s) :
    s.executor.active.len = 0 ∧ s.accepted.Perm (s.delivered.map BackendCompletion.key) := by
  have hne : ∀ entry, s.point ≠ .recording entry := fun entry => by simp [hidle]
  obtain ⟨hsettled, hunrecorded⟩ := settled_of_ne hne
  have hsound := h.sound
  have hbooks := h.books
  rw [hsettled] at hsound
  rw [hunrecorded, List.append_nil] at hbooks
  have hwork : s.executor.workLeft = 0 := by
    by_contra hpos
    obtain ⟨step, hlt⟩ := BackendExecutor.exists_step (e := s.executor)
      (by rw [h.configured]; exact hworkers) (Nat.pos_of_ne_zero hpos)
    have hstep := hstill (.worker step) trivial
    simp only [Admission.step] at hstep
    have hwork : s.executor.work step = s.executor := congrArg Admission.executor hstep
    rw [hwork] at hlt
    exact lt_irrefl _ hlt
  have hcompletions : s.executor.completions = [] := by
    have hstep := hstill .tryCompletion trivial
    simp only [Admission.step, hidle] at hstep
    cases hcompletions : s.executor.completions with
    | nil => rfl
    | cons completion rest =>
      have hdelivered := congrArg Admission.delivered hstep
      rw [tryCompletion_cons hcompletions] at hdelivered
      simp at hdelivered
  have hjobs : s.executor.jobs.length = 0 := by
    rw [BackendExecutor.workLeft] at hwork
    omega
  have hrunning : s.executor.running.length = 0 := by
    rw [BackendExecutor.workLeft] at hwork
    omega
  have hresults : s.executor.results.length = 0 := by
    rw [BackendExecutor.workLeft] at hwork
    omega
  have hkeys : s.executor.inFlightKeys = [] := by
    rw [BackendExecutor.inFlightKeys, List.length_eq_zero_iff.mp hjobs,
      List.length_eq_zero_iff.mp hrunning, List.length_eq_zero_iff.mp hresults, hcompletions]
    rfl
  constructor
  · have hlength := hsound.flight.length_eq
    rw [← BackendExecutor.map_fst_inFlightKeys, hkeys, BTreeMap.length_keys] at hlength
    exact hlength.symm
  · rw [hkeys, List.append_nil] at hbooks
    exact hbooks

/-! ## Whole runs -/

/-- What a run shows of the pool: no more jobs than active operations, every call explained
by what it found, and for each accepted operation one completion. -/
structure Accounted (limits : ExecutorLimits) (s : Admission) : Prop where
  jobs_le : s.executor.jobs.length ≤ s.executor.active.len + s.unrecorded.length
  /-- Only between `try_send` and `active.insert` an operation is unrecorded. -/
  recorded : (∀ entry, s.point ≠ .recording entry) → s.unrecorded = []
  explained : ∀ call ∈ s.calls, call.Explained limits.maximumActiveOperations
  /-- An accepted number is active, or has had its completion. -/
  once : ∀ requestId, (s.accepted.map Prod.fst).count requestId =
    (s.delivered.map BackendCompletion.requestId).count requestId +
      if s.executor.active.containsKey requestId then 1 else 0
  /-- The workers and `try_completion` come to an end, and then all is delivered. -/
  drains : s.point = .idle → ∀ moves, Draining s moves →
    moves.length ≤ 4 * s.executor.active.len ∧
      ((∀ a : AdmissionStep, a.Drains → (run step s moves).step a = run step s moves) →
        (run step s moves).executor.active.len = 0 ∧
          s.accepted.Perm ((run step s moves).delivered.map BackendCompletion.key))

/-- The numbers in flight are those of the table and the one that is not recorded yet. -/
lemma Conserved.flight (h : Conserved limits s) :
    s.executor.inFlight.Perm (s.unrecorded.map Prod.fst ++ s.executor.active.keys) := by
  by_cases hrecording : ∃ entry, s.point = .recording entry
  · obtain ⟨entry, hpoint⟩ := hrecording
    obtain ⟨hsettled, hunrecorded⟩ := settled_of_recording hpoint
    have hflight := h.sound.flight
    rw [hsettled] at hflight
    have hpassed := h.passed entry (by rw [hpoint]; rfl)
    rw [hunrecorded]
    refine .trans hflight (BTreeMap.keys_insert_perm ?_)
    exact hpassed.get_eq_none
  · have hne : ∀ entry, s.point ≠ .recording entry := fun entry hpoint =>
      hrecording ⟨entry, hpoint⟩
    obtain ⟨hsettled, hunrecorded⟩ := settled_of_ne hne
    have hflight := h.sound.flight
    rw [hsettled] at hflight
    rw [hunrecorded]
    exact hflight

lemma Conserved.once (h : Conserved limits s) (requestId : ℕ) :
    (s.accepted.map Prod.fst).count requestId =
      (s.delivered.map BackendCompletion.requestId).count requestId +
        if s.executor.active.containsKey requestId then 1 else 0 := by
  have hbooks := (h.books.map Prod.fst).count_eq requestId
  have hflight := h.flight.count_eq requestId
  have hkeys := s.executor.active.keys_nodup.count (a := requestId)
  have hmap : (s.delivered.map BackendCompletion.key).map Prod.fst =
      s.delivered.map BackendCompletion.requestId := by
    rw [List.map_map]
    rfl
  simp only [BTreeMap.mem_keys_iff_containsKey] at hkeys
  rw [List.map_append, List.map_append, List.count_append, List.count_append, hmap,
    BackendExecutor.map_fst_inFlightKeys, hflight, List.count_append, hkeys] at hbooks
  omega

/-- Admission wastes no activation for lack of room: whatever the workers and the calls do,
the queue has room for every request that has passed the checks. -/
theorem admission_accounted {executor : BackendExecutor}
    (hnew : BackendExecutor.new limits = ok executor)
    (hroom : limits.maximumActiveOperations ≤ limits.queuedOperations)
    (ledger : ActivationLedger) (steps : List AdmissionStep) :
    Accounted limits (run step (start executor ledger) steps) := by
  have hworkers : 0 < limits.workers := by
    rw [BackendExecutor.new] at hnew
    split_ifs at hnew with hzero
    simp only [Bool.or_eq_true, decide_eq_true_eq, not_or] at hzero
    omega
  have hkeep : ∀ s a, Conserved limits s → Conserved limits (s.step a) :=
    fun s a h => h.step hroom a
  have h := run_invariant hkeep (conserved_start hnew ledger) steps
  refine ⟨?_, fun hne => (settled_of_ne hne).2, h.explained, h.once, fun hidle moves hmoves => ?_⟩
  · have hlength := h.flight.length_eq
    rw [List.length_append, List.length_map, BTreeMap.length_keys, BackendExecutor.inFlight]
      at hlength
    simp only [List.length_append, List.length_map] at hlength
    omega
  · obtain ⟨hidle', hsame, hle⟩ := drain_run hidle hmoves
    refine ⟨?_, fun hstill => ?_⟩
    · have hlength := h.flight.length_eq
      rw [(settled_of_ne fun entry => by simp [hidle]).2] at hlength
      rw [List.map_nil, List.nil_append, BTreeMap.length_keys] at hlength
      have hleft := BackendExecutor.drainLeft_le (run step (start executor ledger) steps).executor
      omega
    · have h' := run_invariant hkeep h moves
      obtain ⟨hempty, hdelivered⟩ := h'.drained hidle' hworkers hstill
      rw [hsame] at hdelivered
      exact ⟨hempty, hdelivered⟩

def oneAtATime : ExecutorLimits where
  workers := 1
  queuedOperations := 1
  maximumActiveOperations := 1

def idlePool : BackendExecutor where
  backends := .empty
  limits := oneAtATime
  active := .empty
  jobs := []
  running := []
  results := []
  completions := []

/-- The worker takes the job before the table knows of the operation, and a second request
finds the pool full. -/
def twoRequests : List AdmissionStep :=
  [.register .notificationSendV1, .enter (AsyncBrokerRuntime.notification 1),
    .authorize ⟨none, ⟨.empty, 8⟩⟩ true, .trySend, .worker .take, .record,
    .enter (AsyncBrokerRuntime.notification 2), .worker (.execute 0 none false),
    .worker (.send 0), .tryCompletion]

theorem admission_accounted_twoRequests :
    Accounted oneAtATime (run step (start idlePool ⟨.empty, 8⟩) twoRequests) ∧
      ((run step (start idlePool ⟨.empty, 8⟩) twoRequests).calls.map fun call =>
        (call.asked, call.ending)) = [(true, .accepted), (false, .capacityExhausted)] :=
  ⟨@admission_accounted oneAtATime idlePool rfl (le_refl 1) ⟨.empty, 8⟩ twoRequests, by decide⟩

end Admission

end TouchBar.Broker
