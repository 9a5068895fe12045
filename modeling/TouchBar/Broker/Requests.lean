import TouchBar.Broker.Coherence
import TouchBar.Policy.Normalize

/-!
# Requests of a host

What a request of the component host has to pass before a backend sees it, and the record
that the audit log keeps of it.  The policy decides by the first grant that it has for the
capability.
-/

namespace TouchBar.Broker

open TouchBar.Rust TouchBar.Policy TouchBar.Supervisor TouchBar.Protocol Outcome

/-- The limits that the modelled code reads; durations are in microseconds. -/
structure ConnectionLimits where
  maximumActivationLifetime : ℕ
  maximumStateEvents : ℕ
  maximumEdgeEvents : ℕ
  executor : ExecutorLimits
  backendTimeout : ℕ
  lifecycle : LifecycleLimits

def validWireIdentifier (value : String) : Bool :=
  !Text.isEmpty value && Text.len value ≤ 128 && (Text.split value '.').all fun segment =>
    !Text.isEmpty segment && Text.headIs segment Char.isLower &&
      segment.toList.getLast?.any Char.isAlphanum &&
      Text.all segment fun c => c.isLower || c.isDigit || c == '-'

/-! ## What the host is told about its capabilities -/

/-- `to_string`. -/
def displayCapability : CapabilityId → String
  | .contextReadV1 => "context.read.v1"
  | .filesystemReadV1 => "filesystem.read.v1"
  | .filesystemWriteV1 => "filesystem.write.v1"
  | .httpRequestV1 => "http.request.v1"
  | .dbusCallV1 => "dbus.call.v1"
  | .dbusSubscribeV1 => "dbus.subscribe.v1"
  | .commandRunV1 => "command.run.v1"
  | .clipboardReadV1 => "clipboard.read.v1"
  | .clipboardWriteV1 => "clipboard.write.v1"
  | .secretReadV1 => "secret.read.v1"
  | .notificationSendV1 => "notification.send.v1"
  | .uriOpenV1 => "uri.open.v1"
  | .localConnectV1 => "local.connect.v1"
  | .appearanceProvideV1 => "appearance.provide.v1"
  | .unknown value => value

def wireStatus : CapabilityStatus → WireCapabilityStatus
  | .granted => .granted
  | .denied => .denied
  | .needsConsent => .needsConsent
  | .unsupported => .unsupported
  | .disclosureOnly => .disclosureOnly

def capabilityStates (policy : EffectivePolicy) : List CapabilityState :=
  policy.grants.map fun grant =>
    ⟨displayCapability grant.request.capability, grant.request.required, wireStatus grant.status⟩

/-! ## Authorization -/

def authorizeRequest (policy : EffectivePolicy) (phase : CallbackPhase)
    (capability operation : String) :
    Outcome BrokerErrorCode (CapabilityId × CapabilityScope × GrantBindings) :=
  if phase = .items || phase = .render then err .invalidPhase
  else if !validWireIdentifier operation then err .invalidRequest
  else
    match CapabilityId.ofString capability with
    | .error _ => err .invalidRequest
    | .ok capability =>
      match policy.grants.find? fun grant => grant.request.capability = capability with
      | none => err .denied
      | some grant =>
        match grant.status with
        | .granted => ok (capability, grant.request.scope, grant.bindings)
        | .unsupported => err .unsupported
        | .denied => err .denied
        | .needsConsent => err .denied
        | .disclosureOnly => err .unsupported

/-- `now` is the monotonic clock in microseconds, which may fail. -/
def validateActivationEnvelope (limits : ConnectionLimits) (phase : CallbackPhase)
    (activation : Option Protocol.ActivationContext) (now : Option ℕ) :
    Outcome BrokerErrorCode Unit :=
  match activation with
  | none => ok ()
  | some activation =>
    if phase ≠ .input then err .invalidPhase
    else if activation.surfaceInstance = 0 || activation.inputSequence = 0 ||
        !validWireIdentifier activation.itemId then
      err .invalidRequest
    else if activation.origin = .synthetic then err .activationRequired
    else
      match now with
      | none => err .internal
      | some now =>
        if activation.deadlineMonotonicMicros.toNat < now then err .activationRequired
        else if min limits.maximumActivationLifetime (U64.size - 1) <
            activation.deadlineMonotonicMicros.toNat - now then
          err .invalidRequest
        else ok ()

/-! ## Audit records -/

inductive AuditDecision where
  | allowed
  | denied
  | outOfScope
  | unavailable
  | policyBlocked
  | invalid
deriving DecidableEq, Repr

def auditDecision : BrokerErrorCode → AuditDecision
  | .unavailable => .unavailable
  | .unsupported => .unavailable
  | .denied => .denied
  | .activationRequired => .denied
  | .outOfScope => .outOfScope
  | .invalidRequest => .invalid
  | .invalidPhase => .invalid
  | .quotaExceeded => .policyBlocked
  | .rateLimited => .policyBlocked
  | .timeout => .policyBlocked
  | .cancelled => .policyBlocked
  | .backendFailed => .policyBlocked
  | .internal => .policyBlocked

def auditIdentifier (value : String) : String :=
  if validWireIdentifier value then value else "invalid"

/-- What is kept of a request until its record is written, without the clocks. -/
structure PendingAudit where
  capability : String
  operation : String
  activation : Option ActivationOrigin
  requestBytes : ℕ
deriving DecidableEq, Repr

/-- A record of the audit log, without its times. -/
structure AuditInput where
  capability : String
  operation : String
  activation : Option ActivationOrigin
  decision : AuditDecision
  error : Option BrokerErrorCode
  requestBytes : ℕ
  responseBytes : ℕ
  resourceCount : ℕ
deriving DecidableEq, Repr

variable {policy : EffectivePolicy} {phase : CallbackPhase} {capability operation : String}

/-- A request is let through exactly by a granted capability, with the scope and the
bindings of its first grant. -/
lemma authorizeRequest_eq_ok {id : CapabilityId} {scope : CapabilityScope}
    {bindings : GrantBindings}
    (h : authorizeRequest policy phase capability operation = ok (id, scope, bindings)) :
    ∃ grant, (policy.grants.find? fun grant => grant.request.capability = id) = some grant ∧
      grant.status = .granted ∧ grant.request.scope = scope ∧ grant.bindings = bindings := by
  rw [authorizeRequest] at h
  split_ifs at h with hphase hoperation
  cases hid : CapabilityId.ofString capability with
  | error message =>
    rw [hid] at h
    cases h
  | ok id' =>
    rw [hid] at h
    dsimp only at h
    cases hfind : policy.grants.find? fun grant => grant.request.capability = id' with
    | none =>
      rw [hfind] at h
      cases h
    | some grant =>
      rw [hfind] at h
      dsimp only at h
      cases hstatus : grant.status with
      | granted =>
        rw [hstatus] at h
        cases h
        exact ⟨grant, hfind, hstatus, rfl, rfl⟩
      | unsupported | denied | needsConsent | disclosureOnly =>
        rw [hstatus] at h
        cases h

end TouchBar.Broker
