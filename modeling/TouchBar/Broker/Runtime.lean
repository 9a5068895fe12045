import TouchBar.Broker.Executor
import TouchBar.Broker.Lifecycle
import TouchBar.Supervisor.ResourceStages

/-!
# The runtime of a connection

The runtime joins the worker pool, the books of the connection, the event queue and the
resource manager.  Each keeps a table of its own, and the operations of the runtime update
them one after the other.  `Coherent` says that the tables agree.

The supervisor is one thread, so its operations come one after the other; the two that
pump are split into their turns.  Between any two steps of the supervisor the workers and
the producers of the resources make steps of their own.
-/

namespace TouchBar.Broker

open TouchBar.Rust TouchBar.Lib TouchBar.Policy TouchBar.Supervisor TouchBar.Protocol Outcome

structure ResourceLimits where
  reservedBufferedBytes : ℕ
  maximumEventsPerSecond : ℕ
deriving DecidableEq

/-- What a resource backend answers to `open_resource`: its limits, which it is asked for
twice, whether it authorizes the request, and what it opens. -/
structure OpenAnswers where
  limits : Option ResourceLimits
  limitsAgain : Option ResourceLimits
  authorized : Option BrokerErrorCode
  opened : Except BrokerErrorCode (List UInt8)

structure AsyncBrokerRuntime where
  executor : BackendExecutor
  lifecycle : LifecycleState
  resourceBackends : BTreeSet CapabilityId
  /-- the event queue, and the resource manager with the producers -/
  resources : Runtime

namespace AsyncBrokerRuntime

def new (executorLimits : ExecutorLimits) (lifecycleLimits : LifecycleLimits)
    (maximumStateEvents maximumEdgeEvents : ℕ) : Outcome String AsyncBrokerRuntime := do
  let executor ← BackendExecutor.new executorLimits
  let resources ← Runtime.new maximumStateEvents maximumEdgeEvents
  return {
    executor := executor
    lifecycle := .new lifecycleLimits
    resourceBackends := .empty
    resources := resources }

/-- The event queue. -/
def events (s : AsyncBrokerRuntime) : HostEventQueue := s.resources.events

def register (s : AsyncBrokerRuntime) (capability : CapabilityId) : AsyncBrokerRuntime :=
  { s with executor := s.executor.register capability }

def registerResource (s : AsyncBrokerRuntime) (capability : CapabilityId) : AsyncBrokerRuntime :=
  { s with resourceBackends := s.resourceBackends.insert capability }

def submit (s : AsyncBrokerRuntime) (request : BackendRequest) (answers : SubmitAnswers)
    (deadline : ℕ) : Outcome BrokerErrorCode Unit × AsyncBrokerRuntime :=
  match s.lifecycle.begin request.requestId request.capability deadline with
  | err code => (err code, s)
  | .panic => (.panic, s)
  | ok lifecycle =>
    match s.executor.submit request answers with
    | err code => (err code, { s with lifecycle := lifecycle.finish request.requestId })
    | .panic => (.panic, s)
    | ok executor =>
      (ok (), { s with
        lifecycle := lifecycle
        executor := executor })

def cancel (s : AsyncBrokerRuntime) (requestId : ℕ) : Bool × AsyncBrokerRuntime :=
  ((s.executor.cancel requestId).1, { s with executor := (s.executor.cancel requestId).2 })

/-- `resource_limits`, with the answer of the backend. -/
def resourceLimits (s : AsyncBrokerRuntime) (request : BackendRequest)
    (limits : Option ResourceLimits) : Option ResourceLimits :=
  if s.resourceBackends.contains request.capability then limits else none

/-- The checks of `ResourceManager::open`, up to the entry in its table. -/
def managerOpen (s : AsyncBrokerRuntime) (resourceId : ℕ) (request : BackendRequest)
    (limits : ResourceLimits) (answers : OpenAnswers) : Outcome BrokerErrorCode (List UInt8) :=
  if resourceId = 0 || limits.maximumEventsPerSecond = 0 || s.resources.managed resourceId then
    err .invalidRequest
  else if !s.resourceBackends.contains request.capability then err .unavailable
  else if answers.limitsAgain ≠ some limits then err .invalidRequest
  else
    match answers.authorized with
    | some code => err code
    | none =>
      match answers.opened with
      | .error code => err code
      | .ok payload =>
        if maxInlinePayloadBytes < payload.length then err .quotaExceeded else ok payload

def openResource (s : AsyncBrokerRuntime) (request : BackendRequest) (answers : OpenAnswers) :
    Outcome BrokerErrorCode (ℕ × List UInt8) × AsyncBrokerRuntime :=
  match s.resourceLimits request answers.limits with
  | none => (err .unavailable, s)
  | some limits =>
    match s.lifecycle.allocateResource request.capability limits.reservedBufferedBytes with
    | err code => (err code, s)
    | .panic => (.panic, s)
    | ok (resourceId, lifecycle) =>
      match s.managerOpen resourceId request limits answers with
      | err code =>
        (err code, { s with
          lifecycle := (lifecycle.closeResource resourceId).2
          resources := (s.resources.step (.openResource false)).1 })
      | .panic => (.panic, s)
      | ok payload =>
        (ok (resourceId, payload), { s with
          lifecycle := lifecycle
          resources := (s.resources.step (.openResource true)).1 })

/-- The answer is a panic where the assertion on the two tables fails. -/
def closeResource (s : AsyncBrokerRuntime) (resourceId : ℕ) :
    Option Bool × AsyncBrokerRuntime :=
  let managed := s.resources.managed resourceId
  let tracked := s.lifecycle.closeResource resourceId
  ((assert (managed = tracked.1)).map fun _ => managed && tracked.1,
    { s with
      lifecycle := tracked.2
      resources := (s.resources.step (.closeResource resourceId)).1 })

/-- `ResourceManager::revoke`. -/
def managerRevoke (resources : Runtime) (resourceIds : List ℕ) (generation : ℕ) : Runtime :=
  resourceIds.foldl (fun resources id => (resources.step (.revoke id generation)).1) resources

def revoke (s : AsyncBrokerRuntime) (capability : CapabilityId) (generation : ℕ) :
    Option RevocationEffect × AsyncBrokerRuntime :=
  match s.lifecycle.revoke capability with
  | none => (none, { s with executor := s.executor.revoke capability })
  | some (effect, lifecycle) =>
    (some effect, { s with
      executor := s.executor.revoke capability
      lifecycle := lifecycle
      resources := managerRevoke s.resources effect.closedResources generation })

def revokeAll (s : AsyncBrokerRuntime) : RevocationEffect × AsyncBrokerRuntime :=
  let (effect, lifecycle) := s.lifecycle.revokeAll
  (effect, { s with
    executor := s.executor.cancelAll
    lifecycle := lifecycle
    resources := s.resources.closeMany effect.closedResources })

/-- One turn of the loop of `pump_completions`: the answer says whether there was one. -/
def pumpCompletion (s : AsyncBrokerRuntime) (generation : ℕ) : Bool × AsyncBrokerRuntime :=
  match s.executor.tryCompletion with
  | (none, _) => (false, s)
  | (some completion, executor) =>
    (true, { s with
      executor := executor
      lifecycle := s.lifecycle.finish completion.requestId
      resources := (s.resources.step
        (.pushCompletion completion.requestId completion.result generation)).1 })

/-- Close the books of resources that the manager has found finished. -/
def closeAll (lifecycle : LifecycleState) (resourceIds : List ℕ) : LifecycleState :=
  resourceIds.foldl (fun lifecycle id => (lifecycle.closeResource id).2) lifecycle

/-- The resources that the next turn of the pump removes. -/
def removedNext : Pump → List ℕ
  | .closing found => found
  | _ => []

/-- The next turn of `pump_resource_events`.  The last one closes the books of the resources
that the manager removes. -/
def resumePump (s : AsyncBrokerRuntime) : AsyncBrokerRuntime :=
  { s with
    resources := (s.resources.step .resumePump).1
    lifecycle := closeAll s.lifecycle (removedNext s.resources.pump) }

/-! ## Steps -/

/-- A step of the runtime: an operation of the supervisor, a turn of one that pumps, or a
step of a worker or a producer. -/
inductive RuntimeCall where
  | worker (step : WorkerStep)
  | producer (thread resourceId : ℕ) (request : SinkCall)
  | resumeProducer (thread : ℕ)
  | resumePump
  | register (capability : CapabilityId)
  | registerResource (capability : CapabilityId)
  | submit (request : BackendRequest) (answers : SubmitAnswers) (deadline : ℕ)
  | cancel (requestId : ℕ)
  | openResource (request : BackendRequest) (answers : OpenAnswers)
  | closeResource (resourceId : ℕ)
  | revoke (capability : CapabilityId) (generation : ℕ)
  | revokeAll
  | pumpCompletion (generation : ℕ)
  | startPump (generation : ℕ)
  | popEvent
  | pushCapability (generation : ℕ) (state : CapabilityState)

/-- What the supervisor thread does between two pumps of resource events. -/
def perform (s : AsyncBrokerRuntime) :
    RuntimeCall → Outcome BrokerErrorCode Unit × AsyncBrokerRuntime
  | .register capability => (ok (), s.register capability)
  | .registerResource capability => (ok (), s.registerResource capability)
  | .submit request answers deadline => s.submit request answers deadline
  | .cancel requestId => (ok (), (s.cancel requestId).2)
  | .openResource request answers =>
    ((fun _ => ()) <$> (s.openResource request answers).1, (s.openResource request answers).2)
  | .closeResource resourceId =>
    (check ((s.closeResource resourceId).1.map fun _ => ()), (s.closeResource resourceId).2)
  | .revoke capability generation =>
    (check ((s.revoke capability generation).1.map fun _ => ()),
      (s.revoke capability generation).2)
  | .revokeAll => (ok (), s.revokeAll.2)
  | .pumpCompletion generation => (ok (), (s.pumpCompletion generation).2)
  | .startPump generation =>
    (ok (), { s with resources := (s.resources.step (.startPump generation)).1 })
  | .popEvent => (ok (), { s with resources := (s.resources.step .popEvent).1 })
  | .pushCapability generation state =>
    (ok (), { s with resources := (s.resources.step (.pushCapability generation state)).1 })
  | _ => (ok (), s)

/-- One step.  The supervisor starts nothing else while it pumps resource events. -/
def step (s : AsyncBrokerRuntime) :
    RuntimeCall → Outcome BrokerErrorCode Unit × AsyncBrokerRuntime
  | .worker w => (ok (), { s with executor := s.executor.work w })
  | .producer thread id request =>
    (ok (), { s with resources := (s.resources.step (.call thread id request)).1 })
  | .resumeProducer thread =>
    (ok (), { s with resources := (s.resources.step (.resume thread)).1 })
  | .resumePump => (ok (), s.resumePump)
  | call => if s.resources.pump = .idle then s.perform call else (ok (), s)

/-- The state after a step. -/
def after (s : AsyncBrokerRuntime) (call : RuntimeCall) : AsyncBrokerRuntime := (s.step call).2

end AsyncBrokerRuntime

end TouchBar.Broker
