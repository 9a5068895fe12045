import TouchBar.Broker.Connection
import TouchBar.Schema.Services
import TouchBar.Supervisor.Activations
import TouchBar.Supervisor.Dbus
import TouchBar.Supervisor.Desktop

/-!
# Activations on a connection

The ledger of a connection is handed to the backend of every operation that is submitted.
Four brokers need an activation; the others, and all that open a resource, leave the ledger
alone.
-/

namespace TouchBar.Broker

open TouchBar.Rust TouchBar.Lib TouchBar.Policy TouchBar.Schema TouchBar.Supervisor
  TouchBar.Protocol Outcome

/-! ## The brokers that need an activation -/

/-- An activation with its numbers. -/
def contextOf (activation : Protocol.ActivationContext) : Supervisor.ActivationContext where
  origin := activation.origin
  surfaceInstance := activation.surfaceInstance.toNat
  itemId := activation.itemId
  widgetId := activation.widgetId.toNat
  inputSequence := activation.inputSequence.toNat
  deadlineMonotonicMicros := activation.deadlineMonotonicMicros.toNat

/-- The parts of a request that the brokers without bindings read. -/
def BackendRequest.unbound (request : BackendRequest) : Supervisor.BackendRequest where
  capability := request.capability
  authorizedScope := request.authorizedScope
  activation := request.activation.map contextOf
  operation := request.operation
  payload := request.payload

/-- `DbusCallBackend::authorize` up to the ledger: the rule says whether the user has to act. -/
def decideDbusCall (names : DbusNames) (request : BackendRequest) : ActivationDecision := do
  let (call, rule) ← decodeAndMatch names request.unbound
  rejectIf (!supportedShape call) .unsupported
  return if rule.requiresUserActivation then some fun _ => ok () else none

/-- `UriOpenBackend::authorize` up to the ledger. -/
def decideUriOpen (parse : String → Option Url) (request : BackendRequest) :
    ActivationDecision := do
  let _ ← authorizeUri parse request.unbound
  return some fun _ => ok ()

def secretReadOperation : String := "read"

/-- `valid_kebab_id`. -/
def validKebabId (value : String) : Bool :=
  !Text.isEmpty value && Text.len value ≤ 64 && Text.headIs value Char.isLower &&
    value.toList.getLast?.any Char.isAlphanum &&
    Text.all value fun c => c.isLower || c.isDigit || c == '-'

/-- Both of the remaining brokers want the user's own touch. -/
def requirePhysical (origin : ActivationOrigin) : Outcome BrokerErrorCode Unit :=
  rejectIf (origin ≠ .physical) .activationRequired

/-- `authorize_secret_read_request` up to the ledger, and after it. -/
def decideSecretRead (request : BackendRequest) : ActivationDecision := do
  rejectIf (request.capability ≠ .secretReadV1 || request.operation ≠ secretReadOperation)
    .invalidRequest
  let read ← mapSchemaError (SecretReadRequest.decode request.payload)
  rejectIf (!validKebabId read.logicalName) .invalidRequest
  match request.authorizedScope with
  | .secretRead scope =>
    rejectIf (!scope.logicalNames.contains read.logicalName) .outOfScope
    rejectIf (request.bindings.secrets.get read.logicalName).isNone .outOfScope
    return some requirePhysical
  | _ => err .invalidRequest

def clipboardReadOperation : String := "read"

def clipboardWriteOperation : String := "write"

def validateMime (scope : ClipboardScope) (mimeType : String) : Outcome BrokerErrorCode Unit := do
  rejectIf (Text.isEmpty mimeType || maxClipboardMimeBytes < Text.len mimeType ||
    !Text.isAscii mimeType ||
    !(Text.all mimeType fun c => !Text.isControl c && !Text.isWhitespace c) ||
    !Text.containsChar mimeType '/') .invalidRequest
  rejectIf (!scope.mimeTypes.contains mimeType) .outOfScope

/-- `decode_and_match`: the bytes to write, if there are any. -/
def decodeAndMatchClipboard (scope : ClipboardScope) (request : BackendRequest) :
    Outcome BrokerErrorCode (List UInt8) :=
  if request.capability = .clipboardReadV1 && request.operation = clipboardReadOperation then do
    let value ← mapSchemaError (ClipboardReadRequest.decode request.payload)
    validateMime scope value.mimeType
    return []
  else if request.capability = .clipboardWriteV1 && request.operation = clipboardWriteOperation
      then do
    let value ← mapSchemaError (ClipboardWriteRequest.decode request.payload)
    validateMime scope value.mimeType
    return value.bytes
  else err .invalidRequest

/-- `ClipboardBackend::authorize` up to the ledger, and after it; `reserved` is what the quota of
operations answers. -/
def decideClipboard (reserved : Outcome BrokerErrorCode Unit) (request : BackendRequest) :
    ActivationDecision :=
  match request.authorizedScope with
  | .clipboard scope => do
    rejectIf request.bindings.clipboard.isNone .outOfScope
    let bytes ← decodeAndMatchClipboard scope request
    return some fun origin => do
      requirePhysical origin
      rejectIf (min scope.maximumBytes maxClipboardBytes < bytes.length) .quotaExceeded
      match reserved with
      | err .quotaExceeded => err .rateLimited
      | reserved => reserved
  | _ => err .invalidRequest

/-- With what is decided about a call, the authorization is the one of the backend. -/
lemma authorize_decideDbusCall (names : DbusNames) (request : BackendRequest)
    (ledger ledger' : ActivationLedger) (now : ℕ) :
    authorizeDbusCall names request.unbound ledger now = ok ledger' ↔
      authorize (decideDbusCall names request) request.unbound.activation ledger now =
        (ok (), ledger') := by
  rw [authorizeDbusCall, decideDbusCall]
  cases decodeAndMatch names request.unbound with
  | err code => simp [authorize]
  | panic => simp [authorize]
  | ok matched =>
    simp only [ok_bind]
    cases hshape : supportedShape matched.1 with
    | false => simp [rejectIf, authorize]
    | true =>
      cases hrule : matched.2.requiresUserActivation with
      | false => simp [rejectIf, authorize]
      | true =>
        have hconsume : request.unbound.consumeActivation ledger now =
            Prod.snd <$> consumeOwn request.unbound.activation ledger now := by
          rw [Supervisor.BackendRequest.consumeActivation, consumeOwn]
          cases request.unbound.activation with
          | none => rfl
          | some activation =>
            simp only [okOr, ok_bind, expectationOf]
            cases ledger.consume (some activation) ⟨activation.surfaceInstance,
              activation.itemId, activation.widgetId, now⟩ <;> rfl
        simp only [rejectIf, Bool.not_true, Bool.false_eq_true, if_false, ok_bind, if_true,
          pure_eq, authorize, hconsume]
        cases consumeOwn request.unbound.activation ledger now <;> simp

/-! ## The ledger of a connection -/

/-- An operation that was accepted with an activation, and when. -/
structure Accepted where
  request : BackendRequest
  now : ℕ

/-- The input sequence of its activation. -/
def Accepted.sequence (accepted : Accepted) : ℕ :=
  (accepted.request.activation.map fun activation => activation.inputSequence.toNat).getD 0

/-- A connection that is served, with its ledger; the input sequences that were used; and the
operations that were accepted although their backends asked for an activation. -/
structure Activating where
  loop : ServeLoop
  activations : ActivationLedger
  used : List ℕ
  accepted : List Accepted

/-- `submit` comes to the point where it asks the backend. -/
def AsyncBrokerRuntime.asksBackend (s : AsyncBrokerRuntime) (request : BackendRequest)
    (deadline : ℕ) : Bool :=
  match s.lifecycle.begin request.requestId request.capability deadline with
  | ok _ =>
    !(request.requestId = 0 || s.executor.active.containsKey request.requestId) &&
      s.executor.active.len < s.executor.limits.maximumActiveOperations &&
      s.executor.backends.contains request.capability
  | _ => false

/-- The request about which `handle_request` asks the backend of an operation, and the clock
that it hands over. -/
def SupervisorConnection.asked (s : SupervisorConnection) (message : HostMessage) (a : Answers) :
    Option (BackendRequest × ℕ) :=
  match message with
  | .request requestId phase capability operation payload activation =>
    if requestId = 0 || requestId.toNat ≤ s.lastRequestId then none
    else
      match (do
          let authorized ← authorizeRequest s.policy phase capability operation
          validateActivationEnvelope s.limits phase activation a.now
          ok authorized :
            Outcome BrokerErrorCode (CapabilityId × CapabilityScope × GrantBindings)), a.clock with
      | ok (capability, authorizedScope, bindings), some now =>
        let deadline := U64.saturatingAdd a.elapsed (min s.limits.backendTimeout (U64.size - 1))
        let request : BackendRequest :=
          { requestId := requestId.toNat
            capability := capability
            authorizedScope := authorizedScope
            bindings := bindings
            activation := activation
            operation := operation
            payload := payload }
        if (s.runtime.resourceLimits request a.limits).isNone &&
            s.runtime.asksBackend request deadline then some (request, now)
        else none
      | _, _ => none
  | _ => none

namespace Activating

open ServeLoop (ServeCall)

def new (policy : EffectivePolicy) (limits : ConnectionLimits)
    (maximumConsumedActivations : ℕ) : Outcome ChannelError Activating :=
  (fun loop => ⟨loop, .new maximumConsumedActivations, [], []⟩) <$> ServeLoop.new policy limits

variable (s : Activating)

/-- The request about which a step asks a backend. -/
def asked (call : ServeCall) : Option (BackendRequest × ℕ) :=
  match call, s.loop.exit, s.loop.tasks with
  | .turn a, none, .receive :: _ =>
    match a.received with
    | .ok message => s.loop.connection.asked message a
    | .error _ => none
  | _, _, _ => none

/-- A step replaces the policy by a blocked one, which clears the ledger. -/
def clears (call : ServeCall) : Bool :=
  match call, s.loop.exit, s.loop.tasks with
  | .turn a, none, .reload :: _ =>
    match a.reload with
    | .ok (some policy) =>
      match s.loop.connection.replacePolicy policy with
      | .blocked _ _ => true
      | _ => false
    | _ => false
  | _, _, _ => false

/-- A turn in which the backend of an operation answers. -/
def answered (call : ServeCall) (authorized : Option BrokerErrorCode) : ServeCall :=
  match call with
  | .turn a => .turn { a with submit := { a.submit with authorized := authorized } }
  | call => call

/-- The loop after the backend has answered. -/
def served (call : ServeCall) : Outcome BrokerErrorCode Unit → ServeLoop
  | ok _ => s.loop.step (answered call none)
  | err code => s.loop.step (answered call (some code))
  | .panic => s.loop.leave .panicked

def step (call : ServeCall × ActivationDecision) : Activating :=
  match s.asked call.1 with
  | none => { s with
      loop := s.loop.step call.1
      activations := if s.clears call.1 then s.activations.clear else s.activations }
  | some (request, now) =>
    let activation := request.activation.map contextOf
    let authorized := authorize call.2 activation s.activations now
    let loop := s.served call.1 authorized.1
    { loop := loop
      activations := authorized.2
      used := s.used ++ usedBy call.2 activation s.activations now
      accepted := s.accepted ++
        if call.2.demands && loop.runtime.executor.active.containsKey request.requestId then
          [⟨request, now⟩] else [] }

end Activating

/-! ## Refused operations -/

lemma ServeLoop.exit_of_step {s : ServeLoop} {call : ServeLoop.ServeCall}
    (h : (s.step call).exit = none) : s.exit = none := by
  cases call with
  | turn a =>
    rw [ServeLoop.step] at h
    split_ifs at h with hexit
    · exact h
    · rwa [Option.not_isSome_iff_eq_none] at hexit
  | worker => exact h
  | producer => exact h
  | resumeProducer => exact h
  | register => exact h
  | registerResource => exact h

lemma AsyncBrokerRuntime.asksBackend_spec {s : AsyncBrokerRuntime} {request : BackendRequest}
    {deadline : ℕ} (h : s.asksBackend request deadline = true) :
    s.executor.active.containsKey request.requestId = false ∧
      ∀ code fits, (s.submit request ⟨some code, fits⟩ deadline).1 = err code ∧
        (s.submit request ⟨some code, fits⟩ deadline).2.executor = s.executor := by
  rw [asksBackend] at h
  cases hbegin : s.lifecycle.begin request.requestId request.capability deadline with
  | err code => rw [hbegin] at h; cases h
  | panic => rw [hbegin] at h; cases h
  | ok lifecycle =>
    rw [hbegin] at h
    simp only [Bool.and_eq_true, Bool.not_eq_true', Bool.or_eq_false_iff, decide_eq_true_eq,
      decide_eq_false_iff_not] at h
    obtain ⟨⟨⟨hid, hactive⟩, hroom⟩, hbackend⟩ := h
    refine ⟨hactive, fun code fits => ?_⟩
    have hsubmit : s.executor.submit request ⟨some code, fits⟩ = err code := by
      rw [BackendExecutor.submit, if_neg (by simp [hid, hactive]), if_neg (not_le.mpr hroom),
        if_neg (by simp [hbackend])]
    rw [submit, hbegin]
    dsimp only
    rw [hsubmit]
    exact ⟨rfl, rfl⟩

/-- A request about which a backend is asked is submitted. -/
lemma SupervisorConnection.asked_spec {s : SupervisorConnection} {message : HostMessage}
    {a : Answers} {request : BackendRequest} {now : ℕ}
    (h : s.asked message a = some (request, now)) :
    ∃ requestId phase capability operation payload deadline,
      message = .request requestId phase capability operation payload request.activation ∧
      ¬ (requestId = 0 || requestId.toNat ≤ s.lastRequestId) = true ∧
      s.runtime.asksBackend request deadline = true ∧
      ∀ authorized,
        { s with lastRequestId := requestId.toNat }.attempt requestId phase capability operation
            payload request.activation
            { a with submit := { a.submit with authorized := authorized } } =
          ((fun _ => none) <$> (s.runtime.submit request
            ⟨authorized, a.submit.deadlineFits⟩ deadline).1,
            (s.runtime.submit request ⟨authorized, a.submit.deadlineFits⟩ deadline).2) := by
  cases message with
  | getCapabilities => cases h
  | cancel => cases h
  | close => cases h
  | request requestId phase capability operation payload activation =>
    rw [asked] at h
    split_ifs at h with hfresh
    split at h
    · rename_i capability' authorizedScope bindings now' hauthorized hclock
      dsimp only at h
      split_ifs at h with hasks
      obtain ⟨rfl, rfl⟩ := Prod.mk.inj (Option.some.inj h)
      rw [Bool.and_eq_true, Option.isNone_iff_eq_none] at hasks
      refine ⟨requestId, phase, capability, operation, payload, _, rfl, hfresh, hasks.2, ?_⟩
      intro authorized
      rw [attempt, hauthorized]
      dsimp only
      rw [hclock]
      dsimp only
      rw [hasks.1]
      rfl
    · cases h

namespace Activating

open ServeLoop (ServeCall)

variable {s : Activating} {call : ServeCall} {request : BackendRequest} {now : ℕ}

lemma asked_turn (h : s.asked call = some (request, now)) :
    ∃ a rest message, call = .turn a ∧ s.loop.exit = none ∧ s.loop.tasks = .receive :: rest ∧
      a.received = .ok message ∧ s.loop.connection.asked message a = some (request, now) := by
  unfold asked at h
  split at h
  · rename_i a rest hexit htasks
    cases hreceived : a.received with
    | error error => rw [hreceived] at h; cases h
    | ok message =>
      rw [hreceived] at h
      exact ⟨a, rest, message, rfl, hexit, htasks, hreceived, h⟩
  · cases h

lemma runtime_send (l : ServeLoop) (effects : List Effect) (message : Effect) (a : Answers)
    (rest : List Task) : (l.send effects message a rest).runtime = l.runtime := by
  rw [ServeLoop.send]
  cases a.sent <;> rfl

/-- An operation that its backend refuses does not become active. -/
lemma not_active_of_refused (h : s.asked call = some (request, now))
    (authorized : Outcome BrokerErrorCode Unit) (hrefused : ∀ u, authorized ≠ ok u) :
    (s.served call authorized).runtime.executor.active.containsKey request.requestId = false := by
  obtain ⟨a, rest, message, rfl, hexit, htasks, hreceived, hasked⟩ := asked_turn h
  obtain ⟨requestId, phase, capability, operation, payload, deadline, rfl, hfresh, hasks,
    hattempt⟩ := SupervisorConnection.asked_spec hasked
  obtain ⟨hactive, hsubmit⟩ := AsyncBrokerRuntime.asksBackend_spec hasks
  cases authorized with
  | ok u => exact absurd rfl (hrefused u)
  | panic => exact hactive
  | err code =>
    obtain ⟨hcode, hexecutor⟩ := hsubmit code a.submit.deadlineFits
    have hreceive : s.served (.turn a) (err code) = s.loop.receive
        (.request requestId phase capability operation payload request.activation)
        { a with submit := { a.submit with authorized := some code } } rest := by
      rw [served, answered, ServeLoop.step, hexit, if_neg (by simp), ServeLoop.turn, htasks]
      dsimp only
      rw [hreceived]
    have hhandle : s.loop.connection.handleRequest
        (.request requestId phase capability operation payload request.activation)
        { a with submit := { a.submit with authorized := some code } } =
          { s.loop.connection with lastRequestId := requestId.toNat }.handleOperation requestId
            phase capability operation payload request.activation
            { a with submit := { a.submit with authorized := some code } } :=
      if_neg hfresh
    rw [hreceive, ServeLoop.receive, hhandle, SupervisorConnection.handleOperation,
      hattempt (some code), hcode]
    show (ServeLoop.send _ _ _ _ _).runtime.executor.active.containsKey _ = false
    rw [runtime_send]
    show (s.loop.connection.runtime.submit _ _ _).2.executor.active.containsKey _ = false
    rw [hexecutor]
    exact hactive

/-- A blocked policy ends the loop. -/
lemma exit_of_clears (h : s.clears call = true) : (s.loop.step call).exit ≠ none := by
  unfold clears at h
  split at h
  · rename_i a rest hexit htasks
    split at h
    · rename_i policy hreload
      split at h
      · rename_i connection message hreplace
        rw [ServeLoop.step, hexit, if_neg (by simp), ServeLoop.turn, htasks]
        dsimp only
        rw [hreload]
        dsimp only
        rw [ServeLoop.replace, hreplace]
        dsimp only
        cases a.sent <;> exact Option.some_ne_none _
      · cases h
    · cases h
  · cases h

/-! ## Every run -/

/-- The ledger of a connection that is served has exactly the input sequences that were used, each
once, and the accepted operations have them in this order. -/
structure Sound (maximum : ℕ) (s : Activating) : Prop where
  limit : s.activations.maximumConsumedSequences = maximum
  holds : s.loop.exit = none →
    ∀ sequence, sequence ∈ s.activations.consumedSequences ↔ sequence ∈ s.used
  len : s.loop.exit = none → s.activations.consumedSequences.len = s.used.length
  nodup : s.used.Nodup
  room : s.used.length ≤ maximum
  accepted : (s.accepted.map Accepted.sequence).Sublist s.used
  usable : ∀ op ∈ s.accepted, ∃ activation, op.request.activation = some activation ∧
    Usable (contextOf activation) (expectationOf (contextOf activation) op.now)

namespace Sound

variable {maximum : ℕ}

/-- No backend is asked. -/
lemma step_unasked (h : Sound maximum s) (call : ServeCall) (ledger : ActivationLedger)
    (hledger : (s.loop.step call).exit = none → ledger = s.activations)
    (hlimit : ledger.maximumConsumedSequences = s.activations.maximumConsumedSequences) :
    Sound maximum { s with loop := s.loop.step call, activations := ledger } where
  limit := hlimit.trans h.limit
  holds hexit := by
    have hsame : ledger = s.activations := hledger hexit
    subst hsame
    exact h.holds (ServeLoop.exit_of_step hexit)
  len hexit := by
    have hsame : ledger = s.activations := hledger hexit
    subst hsame
    exact h.len (ServeLoop.exit_of_step hexit)
  nodup := h.nodup
  room := h.room
  accepted := h.accepted
  usable := h.usable

/-- A backend lets a request through without an activation, or refuses it. -/
lemma step_unused (h : Sound maximum s) (hexit : s.loop.exit = none) (loop : ServeLoop) :
    Sound maximum { s with loop := loop } where
  limit := h.limit
  holds _ := h.holds hexit
  len _ := h.len hexit
  nodup := h.nodup
  room := h.room
  accepted := h.accepted
  usable := h.usable

/-- A backend uses an activation. -/
lemma step_used (h : Sound maximum s) (hexit : s.loop.exit = none) (loop : ServeLoop)
    {activation : Protocol.ActivationContext}
    (hactivation : request.activation = some activation)
    (husable : Usable (contextOf activation) (expectationOf (contextOf activation) now))
    (hfresh : (contextOf activation).inputSequence ∉ s.activations.consumedSequences)
    (hroom : s.activations.consumedSequences.len < s.activations.maximumConsumedSequences)
    (accepted : Bool) :
    Sound maximum
      { loop := loop
        activations := s.activations.use (contextOf activation).inputSequence
        used := s.used ++ [(contextOf activation).inputSequence]
        accepted := s.accepted ++ if accepted then [⟨request, now⟩] else [] } where
  limit := h.limit
  holds _ sequence := by
    show sequence ∈ s.activations.consumedSequences.insert _ ↔ _
    rw [BTreeSet.mem_insert, h.holds hexit, List.mem_append, List.mem_singleton, or_comm]
  len _ := by
    show (s.activations.use _).consumedSequences.len = _
    rw [ActivationLedger.len_use hfresh, h.len hexit, List.length_append, List.length_singleton]
  nodup := by
    rw [h.holds hexit] at hfresh
    exact List.nodup_append.mpr ⟨h.nodup, List.nodup_singleton _, fun q hq r hr heq => by
      rw [List.mem_singleton] at hr
      exact hfresh (hr ▸ heq ▸ hq)⟩
  room := by
    rw [h.len hexit, h.limit] at hroom
    rw [List.length_append, List.length_singleton]
    omega
  accepted := by
    rw [List.map_append]
    refine h.accepted.append ?_
    cases accepted with
    | false => exact List.nil_sublist _
    | true =>
      rw [if_pos rfl, List.map_singleton, Accepted.sequence, hactivation]
      exact List.Sublist.refl _
  usable op hop := by
    rcases List.mem_append.mp hop with hop | hop
    · exact h.usable op hop
    · split_ifs at hop
      · obtain rfl := List.mem_singleton.mp hop
        exact ⟨activation, hactivation, husable⟩
      · cases hop

lemma step (h : Sound maximum s) (call : ServeCall × ActivationDecision) :
    Sound maximum (s.step call) := by
  rw [Activating.step]
  cases hasked : s.asked call.1 with
  | none =>
    refine h.step_unasked call.1 _ (fun hexit => ?_) ?_
    · rw [if_neg fun hclears => exit_of_clears hclears hexit]
    · split_ifs <;> rfl
  | some asked =>
    obtain ⟨request, now⟩ := asked
    obtain ⟨a, rest, message, hcall, hexit, -, -, -⟩ := asked_turn hasked
    dsimp only
    rcases authorize_cases call.2 (request.activation.map contextOf) s.activations now with
      ⟨hledger, hused, hrefused⟩ | ⟨used, hactivation, husable, hfresh, hroom, hledger, hused⟩
    · -- without an activation nothing is accepted that demands one
      have hnone : (call.2.demands && (s.served call.1 (authorize call.2 (request.activation.map
          contextOf) s.activations now).1).runtime.executor.active.containsKey
            request.requestId) = false := by
        cases hdemands : call.2.demands with
        | false => rfl
        | true => exact not_active_of_refused hasked _ (hrefused hdemands)
      rw [hledger, hused, hnone, if_neg Bool.false_ne_true, List.append_nil, List.append_nil]
      exact h.step_unused hexit _
    · obtain ⟨activation, hrequest, rfl⟩ := Option.map_eq_some_iff.mp hactivation
      rw [hledger, hused]
      exact h.step_used hexit _ hrequest husable hfresh hroom _

end Sound

lemma sound_new {policy : EffectivePolicy} {limits : ConnectionLimits} {maximum : ℕ}
    {start : Activating} (h : new policy limits maximum = ok start) : Sound maximum start := by
  rw [new, map_eq_ok] at h
  obtain ⟨loop, -, rfl⟩ := h
  refine ⟨rfl, fun _ sequence => ?_, fun _ => rfl, .nil, Nat.zero_le _, .slnil, by simp⟩
  simp [ActivationLedger.new]

/-- In every run of a connection each input sequence is used for at most one accepted operation,
and only a usable activation is.  While the connection is served, an activation is let through
if and only if it is usable, it was not used before, and fewer than the configured number were; a
usable and fresh one is otherwise refused for the quota. -/
theorem used_once {policy : EffectivePolicy} {limits : ConnectionLimits} {maximum : ℕ}
    {start : Activating} (hnew : new policy limits maximum = ok start)
    (calls : List (ServeCall × ActivationDecision)) :
    ((run Activating.step start calls).accepted.map Accepted.sequence).Nodup ∧
    (∀ op ∈ (run Activating.step start calls).accepted, ∃ activation,
      op.request.activation = some activation ∧
        Usable (contextOf activation) (expectationOf (contextOf activation) op.now)) ∧
    ((run Activating.step start calls).loop.exit = none → ∀ activation expected,
      ((∃ result, (run Activating.step start calls).activations.consume (some activation)
          expected = ok result) ↔
        Usable activation expected ∧
          activation.inputSequence ∉ (run Activating.step start calls).used ∧
          (run Activating.step start calls).used.length < maximum) ∧
      ((run Activating.step start calls).activations.consume (some activation) expected =
          err .quotaExceeded ↔
        Usable activation expected ∧
          activation.inputSequence ∉ (run Activating.step start calls).used ∧
          (run Activating.step start calls).used.length = maximum)) := by
  have h : Sound maximum (run Activating.step start calls) :=
    run_invariant (P := Sound maximum) (fun _ call h => h.step call) (sound_new hnew) calls
  refine ⟨h.nodup.sublist h.accepted, h.usable, fun hexit activation expected => ⟨?_, ?_⟩⟩
  · rw [← h.holds hexit, ← h.len hexit, ← h.limit]
    simp only [Prod.exists, ActivationLedger.consume_eq_ok]
    constructor
    · rintro ⟨_, _, ⟨husable, hfresh⟩, hroom, -⟩
      exact ⟨husable, hfresh, hroom⟩
    · rintro ⟨husable, hfresh, hroom⟩
      exact ⟨_, _, ⟨husable, hfresh⟩, hroom, rfl, rfl⟩
  · rw [ActivationLedger.consume_eq_quotaExceeded, h.limit, h.len hexit, h.holds hexit, and_assoc]
    have hroom := h.room
    constructor
    · rintro ⟨husable, hfresh, hfull⟩
      exact ⟨husable, hfresh, by omega⟩
    · rintro ⟨husable, hfresh, hfull⟩
      exact ⟨husable, hfresh, by omega⟩

/-! ### A touch that is sent twice -/

/-- A policy that lets a component open URIs. -/
def opening : EffectivePolicy where
  grants := [⟨⟨.uriOpenV1, true, "", .uriOpen ⟨.empty, .empty⟩⟩, .granted, none, .default, false⟩]
  blocked := false
  trust := ⟨.limited, .empty⟩

def twoOperations : ConnectionLimits where
  maximumActivationLifetime := 1
  maximumStateEvents := 4
  maximumEdgeEvents := 4
  executor := ⟨1, 2, 2⟩
  backendTimeout := 1
  lifecycle := ⟨2, 1, 4096⟩

/-- A request that comes with the touch number 12. -/
def openWithTouch (requestId : UInt64) : HostMessage :=
  .request requestId .input "uri.open.v1" "open" []
    (some ⟨.physical, 4, "media", 9, 12, 1⟩)

def turns (count : ℕ) : List (ServeCall × ActivationDecision) :=
  List.replicate count (.turn {}, ok none)

/-- The turns that read a message whose backend asks for an activation. -/
def reading (message : HostMessage) : List (ServeCall × ActivationDecision) :=
  [(.turn { poll := .ready { channel := true } }, ok none),
    (.turn { received := .ok message }, ok (some fun _ => ok ()))] ++ turns 18

/-- The second request is not accepted, and a fresh touch would be let through. -/
theorem used_once_sent_twice :
    ∃ s, new opening twoOperations 4 = ok s ∧
      (run step s ((.register .uriOpenV1, ok none) :: turns 9 ++ reading (openWithTouch 1) ++
        reading (openWithTouch 2))).accepted.map Accepted.sequence = [12] ∧
      ∃ result, (run step s ((.register .uriOpenV1, ok none) :: turns 9 ++
        reading (openWithTouch 1) ++ reading (openWithTouch 2))).activations.consume
          (some (ActivationLedger.touch 13)) ActivationLedger.touched = ok result := by
  have hnew : new opening twoOperations 4 = ok _ := rfl
  refine ⟨_, hnew, by decide +kernel, ?_⟩
  obtain ⟨-, -, h⟩ := used_once hnew ((.register .uriOpenV1, ok none) :: turns 9 ++
    reading (openWithTouch 1) ++ reading (openWithTouch 2))
  refine ((h ?_ _ _).1).mpr ⟨ActivationLedger.usable_touch (by decide), ?_, ?_⟩
  · decide +kernel
  · decide +kernel
  · decide +kernel

end Activating

end TouchBar.Broker
