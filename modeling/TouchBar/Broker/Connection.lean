import TouchBar.Broker.Requests

/-!
# The connection to a component host

One thread serves a connection: it reads requests, hands them to the runtime, pumps what
the runtime has ready and writes it back, and replaces the policy when the grants change.
A step of the model is one turn of this thread, a step of a worker, or a step of a
producer.  A turn goes to the next call into the runtime or the system; what the system
answers there is an input.  The log has what the connection reads, audits and sends.
-/

namespace TouchBar.Broker

open TouchBar.Rust TouchBar.Lib TouchBar.Policy TouchBar.Supervisor TouchBar.Protocol Outcome

/-- `TransportError`, with the errors of the socket. -/
inductive ChannelError where
  | codec (error : TransportError)
  | disconnected
  | io
deriving DecidableEq, Repr

def malformed (message : String) : ChannelError := .codec (.malformed message)

inductive ConnectionExit where
  | hostDisconnected
  | policyBlocked
deriving DecidableEq, Repr

/-- How `serve_loop` has ended. -/
inductive Exit where
  | returned (exit : ConnectionExit)
  | failed (error : ChannelError)
  | panicked
deriving DecidableEq, Repr

def requestIdOf : HostMessage → UInt64
  | .getCapabilities requestId => requestId
  | .request requestId _ _ _ _ _ => requestId
  | .cancel requestId _ => requestId
  | .close requestId _ => requestId

/-- `HostEvent::into_message`. -/
def intoMessage : HostEvent → SupervisorMessage
  | .capabilityChanged generation state => .capabilityChanged (.ofNat generation) state
  | .completion requestId result => .response (.ofNat requestId) result
  | .resourceEvent resourceId sequence result =>
    .resourceEvent (.ofNat resourceId) (.ofNat sequence) result
  | .overflow generation droppedEvents => .overflow (.ofNat generation) (.ofNat droppedEvents)

/-- What a turn does, in order. -/
inductive Effect where
  | received (message : HostMessage)
  /-- a protocol violation, which the health of the connection counts -/
  | violation
  /-- a record, of the request with this number -/
  | audited (requestId : ℕ) (record : AuditInput)
  | sent (message : SupervisorMessage)
  /-- sent to refuse a message whose number is not fresh -/
  | refused (message : SupervisorMessage)
deriving DecidableEq, Repr

/-- What `poll` reports of the four descriptors.  The failures of the last three are errors
and hangups alike; the channel tells them apart. -/
structure Ready where
  completionsFailed : Bool := false
  updatesFailed : Bool := false
  resourcesFailed : Bool := false
  updates : Bool := false
  completions : Bool := false
  resources : Bool := false
  channel : Bool := false
  channelFailed : Bool := false
  channelClosed : Bool := false
deriving DecidableEq, Repr

inductive PollAnswer where
  | interrupted
  | failed
  | ready (ready : Ready)
deriving DecidableEq, Repr

/-- What the system and the backends answer in a turn; a turn reads what it asks for. -/
structure Answers where
  poll : PollAnswer := .interrupted
  /-- the error of a send -/
  sent : Option ChannelError := none
  /-- the completion signal or the completion channel fails -/
  completionsFailed : Bool := false
  reload : Except ChannelError (Option EffectivePolicy) := .ok none
  received : Except ChannelError HostMessage := .error .disconnected
  /-- the monotonic clock, for the envelope of an activation and for the backend -/
  now : Option ℕ := some 0
  clock : Option ℕ := some 0
  /-- the time since the connection was made -/
  elapsed : ℕ := 0
  /-- what the resource backend says when `handle_request` asks for its limits -/
  limits : Option ResourceLimits := none
  opened : OpenAnswers := ⟨none, none, none, .error .unavailable⟩
  submit : SubmitAnswers := ⟨none, true⟩

structure SupervisorConnection where
  policy : EffectivePolicy
  generation : ℕ
  limits : ConnectionLimits
  lastRequestId : ℕ
  runtime : AsyncBrokerRuntime
  pendingAudit : BTreeMap ℕ PendingAudit
  stopped : Bool

namespace SupervisorConnection

/-- `new`, for a peer of the same user. -/
def new (policy : EffectivePolicy) (limits : ConnectionLimits) :
    Outcome ChannelError SupervisorConnection :=
  if limits.maximumEdgeEvents < limits.executor.maximumActiveOperations then
    err (malformed "edge event capacity must cover every active backend operation")
  else if limits.backendTimeout = 0 then
    err (malformed "backend timeout must be greater than zero")
  else if limits.maximumActivationLifetime = 0 then
    err (malformed "activation lifetime must be greater than zero")
  else
    match AsyncBrokerRuntime.new limits.executor limits.lifecycle limits.maximumStateEvents
        limits.maximumEdgeEvents with
    | err message => err (malformed message)
    | .panic => .panic
    | ok runtime =>
      ok {
        policy := policy
        generation := 1
        limits := limits
        lastRequestId := 0
        runtime := runtime
        pendingAudit := .empty
        stopped := false }

variable (s : SupervisorConnection)

def setRuntime (runtime : AsyncBrokerRuntime) : SupervisorConnection :=
  { s with runtime := runtime }

/-- `events_mut().push_capability`. -/
def pushCapability (state : CapabilityState) :
    Outcome BrokerErrorCode Unit × SupervisorConnection :=
  ((fun _ => ()) <$> s.runtime.events.pushCapability s.generation state,
    s.setRuntime (s.runtime.perform (.pushCapability s.generation state)).2)

/-! ## Requests -/

/-- The closure that authorizes a request and opens a resource or submits an operation.
The answer has the payload to send when there is something to send at once. -/
def attempt (requestId : UInt64) (phase : CallbackPhase) (capability operation : String)
    (payload : List UInt8) (activation : Option Protocol.ActivationContext) (a : Answers) :
    Outcome BrokerErrorCode (Option (List UInt8)) × AsyncBrokerRuntime :=
  match (do
      let authorized ← authorizeRequest s.policy phase capability operation
      validateActivationEnvelope s.limits phase activation a.now
      ok authorized : Outcome BrokerErrorCode (CapabilityId × CapabilityScope × GrantBindings)) with
  | err code => (err code, s.runtime)
  | .panic => (.panic, s.runtime)
  | ok (capability, authorizedScope, bindings) =>
    let deadline := U64.saturatingAdd a.elapsed (min s.limits.backendTimeout (U64.size - 1))
    let request : BackendRequest :=
      { requestId := requestId.toNat
        capability := capability
        authorizedScope := authorizedScope
        bindings := bindings
        activation := activation
        operation := operation
        payload := payload }
    match a.clock with
    | none => (err .internal, s.runtime)
    | some _ =>
      if (s.runtime.resourceLimits request a.limits).isSome then
        ((fun opened => some opened.2) <$> (s.runtime.openResource request a.opened).1,
          (s.runtime.openResource request a.opened).2)
      else
        ((fun _ => none) <$> (s.runtime.submit request a.submit deadline).1,
          (s.runtime.submit request a.submit deadline).2)

/-- The record that `push_audit` writes. -/
def auditRecord (audit : PendingAudit) (decision : AuditDecision)
    (error : Option BrokerErrorCode) (responseBytes : ℕ) : AuditInput where
  capability := audit.capability
  operation := audit.operation
  activation := audit.activation
  decision := decision
  error := error
  requestBytes := audit.requestBytes
  responseBytes := responseBytes
  resourceCount := s.runtime.lifecycle.resources.len % UInt32.size

/-- What `handle_request` has done up to its send: the connection, the effects so far, and
the message to send, if there is one. -/
structure Handled where
  connection : SupervisorConnection
  effects : List Effect
  send : Option Effect

/-- The arm of `handle_request` for a request; it answers at once unless the operation was
submitted.  With `none` it has panicked. -/
def handleOperation (requestId : UInt64) (phase : CallbackPhase) (capability operation : String)
    (payload : List UInt8) (activation : Option Protocol.ActivationContext) (a : Answers) :
    Option Handled :=
  let audit : PendingAudit := ⟨auditIdentifier capability, auditIdentifier operation,
    activation.map Protocol.ActivationContext.origin, payload.length⟩
  let attempted := s.attempt requestId phase capability operation payload activation a
  let s' := s.setRuntime attempted.2
  match attempted.1 with
  | ok none =>
    some ⟨{ s' with pendingAudit := s'.pendingAudit.insert requestId.toNat audit }, [], none⟩
  | ok (some response) =>
    some ⟨s', [.audited requestId.toNat (s'.auditRecord audit .allowed none response.length)],
      some (.sent (.response requestId (.success response)))⟩
  | err code =>
    some ⟨s', [.audited requestId.toNat (s'.auditRecord audit (auditDecision code) (some code) 0)],
      some (.sent (.response requestId (.error code)))⟩
  | .panic => none

/-- The answer to a cancellation or a close. -/
def doneOrInvalid (done : Bool) : BrokerResult :=
  if done then .success [] else .error .invalidRequest

/-- The arms of `handle_request` for a message with a fresh number. -/
def handleFresh (message : HostMessage) (a : Answers) : Option Handled :=
  match message with
  | .getCapabilities requestId =>
    some ⟨s, [], some (.sent (.capabilities requestId (.ofNat s.generation)
      (capabilityStates s.policy)))⟩
  | .request requestId phase capability operation payload activation =>
    s.handleOperation requestId phase capability operation payload activation a
  | .cancel requestId targetRequestId =>
    let cancelled := s.runtime.cancel targetRequestId.toNat
    some ⟨s.setRuntime cancelled.2, [],
      some (.sent (.response requestId (doneOrInvalid cancelled.1)))⟩
  | .close requestId resourceId =>
    let closed := s.runtime.closeResource resourceId.toNat
    closed.1.map fun done => ⟨s.setRuntime closed.2, [],
      some (.sent (.response requestId (doneOrInvalid done)))⟩

def handleRequest (message : HostMessage) (a : Answers) : Option Handled :=
  let requestId := requestIdOf message
  if requestId = 0 || requestId.toNat ≤ s.lastRequestId then
    some ⟨s, [.violation],
      some (.refused (.response requestId (.error .invalidRequest)))⟩
  else
    { s with lastRequestId := requestId.toNat }.handleFresh message a

/-! ## Policy -/

/-- The capabilities that `replace_policy` revokes: those with a grant that the new policy
does not have, with the same scope and bindings. -/
def revokedBy (old new : EffectivePolicy) : List CapabilityId :=
  ((old.grants.filter fun grant => grant.status = .granted).filter fun old =>
    !new.grants.any fun new =>
      new.request.capability = old.request.capability && new.status = .granted &&
        new.request.scope = old.request.scope && new.bindings = old.bindings).map
    fun grant => grant.request.capability

/-- The loop of `replace_policy` that revokes; with `none` it has panicked. -/
def revokeEach (runtime : AsyncBrokerRuntime) (generation : ℕ) :
    List CapabilityId → Option AsyncBrokerRuntime
  | [] => some runtime
  | capability :: rest =>
    match runtime.revoke capability generation with
    | (none, _) => none
    | (some _, runtime) => revokeEach runtime generation rest

/-- The states that the host has to be told about. -/
def changedStates (old new : EffectivePolicy) : List CapabilityState :=
  (capabilityStates new).filter fun state =>
    !(capabilityStates old).contains state ||
      (revokedBy old new).any fun capability => displayCapability capability = state.capability

/-- The loop of `replace_policy` that queues the changed states. -/
def pushStates (s : SupervisorConnection) :
    List CapabilityState → Outcome BrokerErrorCode Unit × SupervisorConnection
  | [] => (ok (), s)
  | state :: rest =>
    match s.pushCapability state with
    | (ok _, s) => pushStates s rest
    | (failed, s) => (failed, s)

/-- `replace_policy` up to what it sends: the connection with the message of a blocked
policy, or with the changed states in the queue. -/
inductive Replaced where
  | blocked (connection : SupervisorConnection) (message : SupervisorMessage)
  | queued (connection : SupervisorConnection)
  | exhausted (connection : SupervisorConnection)
  | panicked

def replacePolicy (policy : EffectivePolicy) : Replaced :=
  let next := U64.saturatingAdd s.generation 1
  match revokeEach s.runtime next (revokedBy s.policy policy) with
  | none => .panicked
  | some runtime =>
    let s' : SupervisorConnection := { s with
      policy := policy
      generation := next
      runtime := runtime }
    if policy.blocked then
      -- `activations.clear()` is not in the model
      .blocked { s' with
        runtime := s'.runtime.revokeAll.2
        stopped := true } (.shutdown (.ofNat next) .denied)
    else
      match s'.pushStates (changedStates s.policy policy) with
      | (ok _, s') => .queued s'
      | (err _, s') => .exhausted s'
      | (.panic, _) => .panicked

/-! ## Events -/

/-- `pop_event`. -/
def popEvent : SupervisorConnection × Option HostEvent :=
  (s.setRuntime (s.runtime.perform .popEvent).2, s.runtime.events.pop.2)

/-- The record of an operation that has finished, when one is pending. -/
def completeAudit (event : HostEvent) : SupervisorConnection × List Effect :=
  match event with
  | .completion requestId result =>
    match s.pendingAudit.get requestId with
    | none => (s, [])
    | some audit =>
      let s' : SupervisorConnection :=
        { s with pendingAudit := s.pendingAudit.remove requestId }
      (s', [.audited requestId (match result with
        | .success payload => s'.auditRecord audit .allowed none payload.length
        | .error code => s'.auditRecord audit .allowed (some code) 0)])
  | _ => (s, [])

end SupervisorConnection

/-! ## The loop -/

/-- What the thread has still to do before it is at the head of its loop. -/
inductive Task where
  /-- `pump_completions`, a completion at a time -/
  | completions
  /-- `pump_resource_events` is called -/
  | startPump
  | resumePump
  /-- `flush_events`, an event at a time -/
  | flush
  | poll
  /-- `reload` and `replace_policy` -/
  | reload
  /-- `recv_host` and `handle_request` -/
  | receive
  /-- the tests of the channel that end the loop -/
  | hangup (failed closed : Bool)
deriving DecidableEq, Repr

/-- The pumps at the head of the loop and after a request. -/
def pumps : List Task := [.completions, .startPump, .resumePump, .flush]

/-- What is to do once `poll` has returned. -/
def tasksOf (ready : Ready) : List Task :=
  (if ready.updates then [.reload] else []) ++
    (if ready.completions then [.completions, .flush] else []) ++
    (if ready.resources then [.startPump, .resumePump, .flush] else []) ++
    (if ready.channel then [.receive] else []) ++
    [.hangup ready.channelFailed (ready.channelClosed && !ready.channel)]

/-- `serve_loop`, with the tasks of its thread; none are left at the head of the loop. -/
structure ServeLoop where
  connection : SupervisorConnection
  tasks : List Task
  exit : Option Exit
  log : List Effect

namespace ServeLoop

def new (policy : EffectivePolicy) (limits : ConnectionLimits) : Outcome ChannelError ServeLoop :=
  (fun connection => ⟨connection, [], none, []⟩) <$> SupervisorConnection.new policy limits

variable (s : ServeLoop)

def runtime : AsyncBrokerRuntime := s.connection.runtime

def leave (exit : Exit) : ServeLoop := { s with exit := some exit }

/-- Effects, and then a send that can fail. -/
def send (effects : List Effect) (message : Effect) (a : Answers) (rest : List Task) :
    ServeLoop :=
  match a.sent with
  | none => { s with
      log := s.log ++ effects ++ [message]
      tasks := rest }
  | some error => { s with log := s.log ++ effects }.leave (.failed error)

/-- A turn of `flush_events`. -/
def flush (a : Answers) (rest : List Task) : ServeLoop :=
  match s.connection.popEvent with
  | (_, none) => { s with tasks := rest }
  | (connection, some event) =>
    { s with connection := (connection.completeAudit event).1 }.send
      (connection.completeAudit event).2 (.sent (intoMessage event)) a (.flush :: rest)

def receive (message : HostMessage) (a : Answers) (rest : List Task) : ServeLoop :=
  match s.connection.handleRequest message a with
  | none => { s with log := s.log ++ [Effect.received message] }.leave .panicked
  | some handled =>
    let s' := { s with connection := handled.connection }
    match handled.send with
    | none => { s' with
        log := s.log ++ Effect.received message :: handled.effects
        tasks := pumps ++ rest }
    | some message' =>
      s'.send (Effect.received message :: handled.effects) message' a (pumps ++ rest)

def replace (policy : EffectivePolicy) (a : Answers) (rest : List Task) : ServeLoop :=
  match s.connection.replacePolicy policy with
  | .panicked => s.leave .panicked
  | .exhausted connection =>
    { s with connection }.leave (.failed (malformed "capability event queue exhausted"))
  | .queued connection => { s with
      connection := connection
      tasks := .flush :: rest }
  | .blocked connection message =>
    match a.sent with
    | none => { s with
        connection := connection
        log := s.log ++ [Effect.sent message] }.leave (.returned .policyBlocked)
    | some error => { s with connection }.leave (.failed error)

def afterPoll (ready : Ready) : ServeLoop :=
  if ready.completionsFailed then s.leave (.failed (malformed "broker completion signal failed"))
  else if ready.updatesFailed then
    s.leave (.failed (malformed "broker policy update signal failed"))
  else if ready.resourcesFailed then
    s.leave (.failed (malformed "broker resource event signal failed"))
  else { s with tasks := tasksOf ready }

/-- The next turn of the thread.  The tasks after `poll` are those that it finds. -/
def turn (a : Answers) : ServeLoop :=
  match s.tasks with
  | [] =>
    if s.connection.stopped then s.leave (.returned .policyBlocked)
    else { s with tasks := pumps ++ [.poll] }
  | .completions :: rest =>
    if a.completionsFailed then
      s.leave (.failed (malformed "broker completion channel failed"))
    else
      match s.runtime.pumpCompletion s.connection.generation with
      | (false, _) => { s with tasks := rest }
      | (true, runtime) => { s with connection := s.connection.setRuntime runtime }
  | .startPump :: rest => { s with
      connection := s.connection.setRuntime
        (s.runtime.perform (.startPump s.connection.generation)).2
      tasks := rest }
  | .resumePump :: rest =>
    if s.runtime.resources.pump = .idle then { s with tasks := rest }
    else { s with connection := s.connection.setRuntime s.runtime.resumePump }
  | .flush :: rest => s.flush a rest
  | .poll :: _ =>
    match a.poll with
    | .interrupted => { s with tasks := [] }
    | .failed => s.leave (.failed .io)
    | .ready ready => s.afterPoll ready
  | .reload :: rest =>
    match a.reload with
    | .error error => s.leave (.failed error)
    | .ok none => { s with tasks := rest }
    | .ok (some policy) => s.replace policy a rest
  | .receive :: rest =>
    match a.received with
    | .ok message => s.receive message a rest
    | .error .disconnected => s.leave (.returned .hostDisconnected)
    | .error (.codec (.unsupportedVersion version)) =>
      s.leave (.failed (.codec (.unsupportedVersion version)))
    | .error (.codec error) =>
      { s with log := s.log ++ [Effect.violation] }.leave (.failed (.codec error))
    | .error .io => s.leave (.failed .io)
  | .hangup failed closed :: rest =>
    if failed then s.leave (.failed (malformed "broker socket poll failed"))
    else if closed then s.leave (.returned .hostDisconnected)
    else { s with tasks := rest }

/-- A step: a turn of the thread while the loop runs, a step of a worker or a producer, or
the registration of a backend. -/
inductive ServeCall where
  | turn (answers : Answers)
  | worker (step : WorkerStep)
  | producer (thread resourceId : ℕ) (request : SinkCall)
  | resumeProducer (thread : ℕ)
  | register (capability : CapabilityId)
  | registerResource (capability : CapabilityId)

/-- What a step of another thread, or a registration, does to the runtime. -/
def besides (runtime : AsyncBrokerRuntime) : ServeCall → AsyncBrokerRuntime
  | .turn _ => runtime
  | .worker w => runtime.after (.worker w)
  | .producer thread id request => runtime.after (.producer thread id request)
  | .resumeProducer thread => runtime.after (.resumeProducer thread)
  | .register capability => runtime.after (.register capability)
  | .registerResource capability => runtime.after (.registerResource capability)

def step : ServeCall → ServeLoop
  | .turn a => if s.exit.isSome then s else s.turn a
  | call => { s with connection := s.connection.setRuntime (besides s.runtime call) }

end ServeLoop

end TouchBar.Broker
