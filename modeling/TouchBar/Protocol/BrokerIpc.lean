import TouchBar.Lib.Codec
import TouchBar.Supervisor.Request

/-!
# Packets between the component host and the supervisor

A packet is a header (magic number, version, kind, a reserved byte) and the fields of
one message.  Host messages and supervisor messages have kinds of their own.  The
decoder does not look at the length of the packet: the limits of the fields keep every
accepted packet below the limit that the encoder checks.
-/

namespace TouchBar.Protocol

open TouchBar.Rust TouchBar.Lib TouchBar.Supervisor Outcome

def maxBrokerPacketBytes : ℕ := 64 * 1024
def maxInlinePayloadBytes : ℕ := 60 * 1024
def maxCapabilityIdBytes : ℕ := 128
def maxOperationIdBytes : ℕ := 128
def maxItemIdBytes : ℕ := 256
def maxCapabilityStates : ℕ := 64

/-- `OTBP`. -/
def magic : List UInt8 := [0x4f, 0x54, 0x42, 0x50]

def brokerProtocolVersion : ℕ := 1

/-! ## Messages -/

inductive CallbackPhase where
  | items
  | render
  | input
  | hostEvent
  | lifecycle
deriving DecidableEq, Repr

/-- The activation of a request, with the numbers of the wire. -/
structure ActivationContext where
  origin : ActivationOrigin
  surfaceInstance : UInt64
  itemId : String
  widgetId : UInt64
  inputSequence : UInt64
  deadlineMonotonicMicros : UInt64
deriving DecidableEq, Repr

inductive WireCapabilityStatus where
  | granted
  | denied
  | needsConsent
  | unsupported
  | disclosureOnly
deriving DecidableEq, Repr

structure CapabilityState where
  capability : String
  required : Bool
  status : WireCapabilityStatus
deriving DecidableEq, Repr

inductive HostMessage where
  | getCapabilities (requestId : UInt64)
  | request (requestId : UInt64) (phase : CallbackPhase) (capability operation : String)
      (payload : List UInt8) (activation : Option ActivationContext)
  | cancel (requestId targetRequestId : UInt64)
  | close (requestId resourceId : UInt64)
deriving DecidableEq, Repr

inductive BrokerResult where
  | success (payload : List UInt8)
  | error (code : BrokerErrorCode)
deriving DecidableEq, Repr

inductive SupervisorMessage where
  | capabilities (requestId generation : UInt64) (states : List CapabilityState)
  | response (requestId : UInt64) (result : BrokerResult)
  | capabilityChanged (generation : UInt64) (state : CapabilityState)
  | shutdown (generation : UInt64) (reason : BrokerErrorCode)
  | overflow (generation droppedEvents : UInt64)
  | resourceEvent (resourceId sequence : UInt64) (result : BrokerResult)
deriving DecidableEq, Repr

/-- The errors of the codec. -/
inductive TransportError where
  | oversized
  | malformed (message : String)
  | unsupportedVersion (version : ℕ)
deriving DecidableEq, Repr

/-! ## Codes -/

def phaseCode : CallbackPhase → UInt8
  | .items => 1
  | .render => 2
  | .input => 3
  | .hostEvent => 4
  | .lifecycle => 5

def decodePhase : UInt8 → Option CallbackPhase
  | 1 => some .items
  | 2 => some .render
  | 3 => some .input
  | 4 => some .hostEvent
  | 5 => some .lifecycle
  | _ => none

def originCode : ActivationOrigin → UInt8
  | .physical => 1
  | .trustedControl => 2
  | .synthetic => 3

def decodeOrigin : UInt8 → Option ActivationOrigin
  | 1 => some .physical
  | 2 => some .trustedControl
  | 3 => some .synthetic
  | _ => none

def statusCode : WireCapabilityStatus → UInt8
  | .granted => 1
  | .denied => 2
  | .needsConsent => 3
  | .unsupported => 4
  | .disclosureOnly => 5

def decodeStatus : UInt8 → Option WireCapabilityStatus
  | 1 => some .granted
  | 2 => some .denied
  | 3 => some .needsConsent
  | 4 => some .unsupported
  | 5 => some .disclosureOnly
  | _ => none

def errorCode : BrokerErrorCode → UInt8
  | .unavailable => 1
  | .denied => 2
  | .outOfScope => 3
  | .invalidRequest => 4
  | .invalidPhase => 5
  | .activationRequired => 6
  | .quotaExceeded => 7
  | .rateLimited => 8
  | .timeout => 9
  | .cancelled => 10
  | .unsupported => 11
  | .backendFailed => 12
  | .internal => 13

def decodeError : UInt8 → Option BrokerErrorCode
  | 1 => some .unavailable
  | 2 => some .denied
  | 3 => some .outOfScope
  | 4 => some .invalidRequest
  | 5 => some .invalidPhase
  | 6 => some .activationRequired
  | 7 => some .quotaExceeded
  | 8 => some .rateLimited
  | 9 => some .timeout
  | 10 => some .cancelled
  | 11 => some .unsupported
  | 12 => some .backendFailed
  | 13 => some .internal
  | _ => none

/-- `u8::from` of a `bool`. -/
def flagCode (value : Bool) : UInt8 := if value then 1 else 0

def decodeFlag : UInt8 → Option Bool
  | 0 => some false
  | 1 => some true
  | _ => none

lemma decodePhase_eq_some {c : UInt8} {a : CallbackPhase} :
    decodePhase c = some a ↔ c = phaseCode a := by
  cases a <;> unfold decodePhase <;> split <;> simp_all [phaseCode]

lemma decodeOrigin_eq_some {c : UInt8} {a : ActivationOrigin} :
    decodeOrigin c = some a ↔ c = originCode a := by
  cases a <;> unfold decodeOrigin <;> split <;> simp_all [originCode]

lemma decodeStatus_eq_some {c : UInt8} {a : WireCapabilityStatus} :
    decodeStatus c = some a ↔ c = statusCode a := by
  cases a <;> unfold decodeStatus <;> split <;> simp_all [statusCode]

lemma decodeError_eq_some {c : UInt8} {a : BrokerErrorCode} :
    decodeError c = some a ↔ c = errorCode a := by
  cases a <;> unfold decodeError <;> split <;> simp_all [errorCode]

lemma decodeFlag_eq_some {c : UInt8} {a : Bool} : decodeFlag c = some a ↔ c = flagCode a := by
  cases a <;> unfold decodeFlag <;> split <;> simp_all [flagCode]

/-! ## The encoder -/

namespace Encoder

/-- `Encoder::new`. -/
def header (kind : UInt8) : List UInt8 := magic ++ leBytes 2 brokerProtocolVersion ++ [kind, 0]

def u64 (value : UInt64) : List UInt8 := leBytes 8 value.toNat

def string (value : String) (maximum : ℕ) : Outcome TransportError (List UInt8) :=
  if Text.isEmpty value || maximum < Text.len value || 65535 < Text.len value then
    err (.malformed "string length is outside its limit")
  else ok (leBytes 2 (Text.len value) ++ Text.asBytes value)

def bytes (value : List UInt8) : Outcome TransportError (List UInt8) :=
  if UInt32.size ≤ value.length then err .oversized else ok (leBytes 4 value.length ++ value)

def state (state : CapabilityState) : Outcome TransportError (List UInt8) := do
  let capability ← string state.capability maxCapabilityIdBytes
  return capability ++ [flagCode state.required, statusCode state.status]

def states (states : List CapabilityState) : Outcome TransportError (List UInt8) :=
  if maxCapabilityStates < states.length then err (.malformed "too many capability states")
  else do
    let items ← writeMany state states
    return leBytes 2 states.length ++ items

def activation : Option ActivationContext → Outcome TransportError (List UInt8)
  | none => ok [flagCode false]
  | some activation => do
    let itemId ← string activation.itemId maxItemIdBytes
    return [flagCode true, originCode activation.origin] ++ u64 activation.surfaceInstance ++
      itemId ++ u64 activation.widgetId ++ u64 activation.inputSequence ++
        u64 activation.deadlineMonotonicMicros

/-- `encode_result`, and the same steps inside `encode_supervisor`. -/
def result : BrokerResult → Outcome TransportError (List UInt8)
  | .success payload =>
    if maxInlinePayloadBytes < payload.length then err .oversized
    else do
      let bytes ← bytes payload
      return 0 :: bytes
  | .error code => ok [1, errorCode code]

def finish (bytes : List UInt8) : Outcome TransportError (List UInt8) :=
  if maxBrokerPacketBytes < bytes.length then err .oversized else ok bytes

end Encoder

def encodeHost : HostMessage → Outcome TransportError (List UInt8)
  | .getCapabilities requestId => Encoder.finish (Encoder.header 1 ++ Encoder.u64 requestId)
  | .request requestId phase capability operation payload activation =>
    if maxInlinePayloadBytes < payload.length then err .oversized
    else do
      let capability ← Encoder.string capability maxCapabilityIdBytes
      let operation ← Encoder.string operation maxOperationIdBytes
      let payload ← Encoder.bytes payload
      let activation ← Encoder.activation activation
      Encoder.finish (Encoder.header 2 ++ Encoder.u64 requestId ++ [phaseCode phase] ++
        capability ++ operation ++ payload ++ activation)
  | .cancel requestId targetRequestId =>
    Encoder.finish (Encoder.header 3 ++ Encoder.u64 requestId ++ Encoder.u64 targetRequestId)
  | .close requestId resourceId =>
    Encoder.finish (Encoder.header 4 ++ Encoder.u64 requestId ++ Encoder.u64 resourceId)

def encodeSupervisor : SupervisorMessage → Outcome TransportError (List UInt8)
  | .capabilities requestId generation states => do
    let states ← Encoder.states states
    Encoder.finish (Encoder.header 101 ++ Encoder.u64 requestId ++ Encoder.u64 generation ++ states)
  | .response requestId result => do
    let result ← Encoder.result result
    Encoder.finish (Encoder.header 102 ++ Encoder.u64 requestId ++ result)
  | .capabilityChanged generation state => do
    let state ← Encoder.state state
    Encoder.finish (Encoder.header 103 ++ Encoder.u64 generation ++ state)
  | .shutdown generation reason =>
    Encoder.finish (Encoder.header 104 ++ Encoder.u64 generation ++ [errorCode reason])
  | .overflow generation droppedEvents =>
    Encoder.finish (Encoder.header 105 ++ Encoder.u64 generation ++ Encoder.u64 droppedEvents)
  | .resourceEvent resourceId sequence result => do
    let result ← Encoder.result result
    Encoder.finish (Encoder.header 106 ++ Encoder.u64 resourceId ++ Encoder.u64 sequence ++ result)

/-! ## The decoder -/

/-- A step of the decoder; the state is the part of the packet after the offset. -/
abbrev Decoder (α : Type) : Type := Reader TransportError UInt8 α

namespace Decoder

def fail {α : Type} (message : String) : Decoder α := Reader.reject (.malformed message)

def take (length : ℕ) : Decoder (List UInt8) :=
  Reader.front (.malformed "truncated packet") length

def u8 : Decoder UInt8 := Reader.symbol (.malformed "truncated packet")

/-- `u16` and `u32`, which are only used as lengths and counts. -/
def length (width : ℕ) : Decoder ℕ := leValue <$> take width

def u64 : Decoder UInt64 := (fun bytes => UInt64.ofNat (leValue bytes)) <$> take 8

def string (maximum : ℕ) : Decoder String := do
  let length ← length 2
  if length = 0 || maximum < length then
    fail "string length is outside its limit"
  else
    let value ← take length
    Reader.utf8 (.malformed "string is not UTF-8") value

def bytes (maximum : ℕ) : Decoder (List UInt8) := do
  let length ← length 4
  if maximum < length then Reader.reject .oversized else take length

/-- A byte that is the code of one of some alternatives. -/
def code {α : Type} (ofCode : UInt8 → Option α) (message : String) : Decoder α :=
  Reader.coded (.malformed "truncated packet") (.malformed message) ofCode

def state : Decoder CapabilityState := do
  let capability ← string maxCapabilityIdBytes
  let required ← code decodeFlag "invalid required marker"
  let status ← code decodeStatus "invalid capability status"
  return ⟨capability, required, status⟩

def states : Decoder (List CapabilityState) := do
  let count ← length 2
  if maxCapabilityStates < count then fail "too many capability states"
  else readMany state count

def activation : Decoder (Option ActivationContext) := do
  match ← u8 with
  | 0 => return none
  | 1 =>
    let origin ← code decodeOrigin "invalid activation origin"
    let surfaceInstance ← u64
    let itemId ← string maxItemIdBytes
    let widgetId ← u64
    let inputSequence ← u64
    let deadlineMonotonicMicros ← u64
    return some ⟨origin, surfaceInstance, itemId, widgetId, inputSequence, deadlineMonotonicMicros⟩
  | _ => fail "invalid activation marker"

/-- `decode_result`, and the same steps inside `decode_supervisor` with another message. -/
def result (message : String) : Decoder BrokerResult := do
  match ← u8 with
  | 0 => .success <$> bytes maxInlinePayloadBytes
  | 1 => .error <$> code decodeError "invalid broker error code"
  | _ => fail message

/-- `Decoder::new`, then the fields, then `finish`. -/
def run {α : Type} (fields : UInt8 → Decoder α) (packet : List UInt8) :
    Outcome TransportError α :=
  match packet with
  | m₀ :: m₁ :: m₂ :: m₃ :: v₀ :: v₁ :: kind :: reserved :: remaining =>
    if [m₀, m₁, m₂, m₃] ≠ magic then err (.malformed "bad header magic")
    else if leValue [v₀, v₁] ≠ brokerProtocolVersion then
      err (.unsupportedVersion (leValue [v₀, v₁]))
    else if reserved ≠ 0 then err (.malformed "nonzero reserved header byte")
    else do
      let (value, remaining) ← fields kind remaining
      if remaining.isEmpty then ok value else err (.malformed "trailing packet bytes")
  | _ => err (.malformed "bad header magic")

end Decoder

def decodeHostFields (kind : UInt8) : Decoder HostMessage := do
  let requestId ← Decoder.u64
  match kind with
  | 1 => return .getCapabilities requestId
  | 2 =>
    let phase ← Decoder.code decodePhase "invalid callback phase"
    let capability ← Decoder.string maxCapabilityIdBytes
    let operation ← Decoder.string maxOperationIdBytes
    let payload ← Decoder.bytes maxInlinePayloadBytes
    let activation ← Decoder.activation
    return .request requestId phase capability operation payload activation
  | 3 => .cancel requestId <$> Decoder.u64
  | 4 => .close requestId <$> Decoder.u64
  | _ => Decoder.fail "unknown host message kind"

def decodeHost (packet : List UInt8) : Outcome TransportError HostMessage :=
  Decoder.run decodeHostFields packet

def decodeSupervisorFields (kind : UInt8) : Decoder SupervisorMessage :=
  match kind with
  | 101 => do
    let requestId ← Decoder.u64
    let generation ← Decoder.u64
    let states ← Decoder.states
    return .capabilities requestId generation states
  | 102 => do
    let requestId ← Decoder.u64
    let result ← Decoder.result "invalid response result"
    return .response requestId result
  | 103 => do
    let generation ← Decoder.u64
    let state ← Decoder.state
    return .capabilityChanged generation state
  | 104 => do
    let generation ← Decoder.u64
    let reason ← Decoder.code decodeError "invalid broker error code"
    return .shutdown generation reason
  | 105 => do
    let generation ← Decoder.u64
    let droppedEvents ← Decoder.u64
    return .overflow generation droppedEvents
  | 106 => do
    let resourceId ← Decoder.u64
    let sequence ← Decoder.u64
    let result ← Decoder.result "invalid broker result"
    return .resourceEvent resourceId sequence result
  | _ => Decoder.fail "unknown supervisor message kind"

def decodeSupervisor (packet : List UInt8) : Outcome TransportError SupervisorMessage :=
  Decoder.run decodeSupervisorFields packet

end TouchBar.Protocol
