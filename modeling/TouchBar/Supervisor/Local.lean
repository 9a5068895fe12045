import TouchBar.Lib.Framing
import TouchBar.Lib.Runs
import TouchBar.Policy.Grant
import TouchBar.Protocol.BrokerIpc
import TouchBar.Schema.Services

/-!
# Local connections

The broker of `local.connect.v1`.  A connection is a resource that stands for a Unix
socket; a send operation writes one frame to it.  Operations run on several threads.  A
send holds the lock of the stream while it writes, and asks before every write whether it
has been cancelled or has run out of time.

A step of the model goes from one point where a send touches shared state to the next:
its check of the request, the lock, and each turn of the write loops.
-/

namespace TouchBar.Supervisor

open TouchBar.Rust TouchBar.Lib TouchBar.Policy TouchBar.Schema TouchBar.Protocol Outcome

def localConnectOperation : String := "connect"

def localSendOperation : String := "send"

/-- A request with the bindings of its grant and the instance it comes from. -/
structure LocalRequest extends BackendRequest where
  bindings : GrantBindings
  instanceId : ℕ

structure LocalConnectionAuthorization where
  instanceId : ℕ
  endpoint : String
  protocol : String
  binding : LocalEndpointBinding
  maximumFrameBytes : ℕ
  maximumBytesPerMinute : ℕ
deriving DecidableEq, Repr

/-- A connection: the bytes that its socket has accepted and the operation that holds the
lock of its stream.  The code does not keep the log: it has the sends that got the lock, in
that order, with what each has written of its frame. -/
structure LocalConnection where
  authorization : LocalConnectionAuthorization
  closed : Bool
  stream : List UInt8
  holder : Option ℕ
  log : List Sent
deriving DecidableEq, Repr

/-! ## Authorization -/

/-- `authorize_local_connect_request`. -/
def authorizeLocalConnectRequest (request : LocalRequest) :
    Outcome BrokerErrorCode (LocalConnect × LocalConnectionAuthorization) := do
  rejectIf (request.capability ≠ .localConnectV1 || request.operation ≠ localConnectOperation)
    .invalidRequest
  let connect ← mapSchemaError (LocalConnect.decode request.payload)
  match request.authorizedScope with
  | .localConnect scope =>
    let endpoint ← okOr (scope.endpoints.toList.find? fun candidate =>
      candidate.label = connect.endpoint ∧ candidate.protocol = connect.protocol) .outOfScope
    let binding ← okOr (request.bindings.localEndpoints.get endpoint.label) .outOfScope
    return (connect,
      { instanceId := request.instanceId
        endpoint := connect.endpoint
        protocol := endpoint.protocol
        binding := binding
        maximumFrameBytes := min scope.maximumFrameBytes maxLocalFrameBytes
        maximumBytesPerMinute := scope.maximumBytesPerMinute })
  | _ => err .invalidRequest

/-- `authorize_local_send_frame`. -/
def authorizeLocalSendFrame (request : LocalRequest) (frame : LocalSendFrame)
    (authorization : LocalConnectionAuthorization) : Outcome BrokerErrorCode Unit :=
  match request.authorizedScope with
  | .localConnect scope => do
    let endpoint ← okOr (scope.endpoints.toList.find? fun candidate =>
      candidate.label = authorization.endpoint ∧ candidate.protocol = authorization.protocol)
      .outOfScope
    let binding ← okOr (request.bindings.localEndpoints.get endpoint.label) .outOfScope
    rejectIf (request.instanceId ≠ authorization.instanceId || binding ≠ authorization.binding ||
      scope.maximumBytesPerMinute ≠ authorization.maximumBytesPerMinute ||
      min scope.maximumFrameBytes maxLocalFrameBytes ≠ authorization.maximumFrameBytes ||
      authorization.maximumFrameBytes < frame.bytes.length) .outOfScope
  | _ => err .invalidRequest

/-- `reserve_traffic`; `reserve` is the answer of the persistent quota. -/
def reserveTraffic (reserve : ℕ → ℕ → Outcome BrokerErrorCode Unit) (bytes maximum : ℕ) :
    Outcome BrokerErrorCode Unit :=
  match reserve bytes maximum with
  | err .quotaExceeded => err .rateLimited
  | result => result

/-! ## The state of the broker -/

/-- The two calls of `write_all_interruptible` of a send. -/
inductive Part where
  | header
  | payload
deriving DecidableEq, Repr

/-- Where a send operation stands. -/
inductive Sending where
  | idle
  /-- before the lock of the stream -/
  | waiting (frame : LocalSendFrame)
  /-- at the head of a write loop that has more to write -/
  | writing (frame : LocalSendFrame) (part : Part) (offset : ℕ)
  | done (result : BrokerResult)
deriving DecidableEq, Repr

/-- What `stream.write` answers.  It accepts at most as many bytes as it was given. -/
inductive WriteAttempt where
  | wrote (count : ℕ)
  /-- `WouldBlock`, `TimedOut` or `Interrupted` -/
  | retry
  | failed
deriving DecidableEq, Repr

/-- The connections by their resource ids, and the send operations.  A handle that closes
sets the flag of its connection before it takes the connection out of the map.  Both make a
send unavailable and ids are not used twice, so a closed connection stays in the map. -/
structure LocalIpcBackend where
  connections : BTreeMap ℕ LocalConnection
  sends : ℕ → Sending

inductive LocalAction where
  /-- `open`, with the answers of the socket and of the reader thread's start -/
  | openConnection (resourceId : UInt64) (request : LocalRequest)
      (socket : Outcome BrokerErrorCode Unit) (spawned : Bool)
  /-- `execute`, up to the lock -/
  | execute (operation : ℕ) (request : LocalRequest) (reason : Option BrokerErrorCode)
      (reserve : ℕ → ℕ → Outcome BrokerErrorCode Unit)
  /-- the send gets the lock of the stream -/
  | lock (operation : ℕ)
  /-- one turn of a write loop -/
  | turn (operation : ℕ) (reason : Option BrokerErrorCode) (attempt : WriteAttempt)
  | close (resourceId : ℕ)

namespace LocalIpcBackend

def initial : LocalIpcBackend where
  connections := .empty
  sends := fun _ => .idle

def setSend (s : LocalIpcBackend) (operation : ℕ) (sending : Sending) : LocalIpcBackend :=
  { s with sends := Function.update s.sends operation sending }

def setConnection (s : LocalIpcBackend) (resourceId : ℕ) (connection : LocalConnection) :
    LocalIpcBackend :=
  { s with connections := s.connections.insert resourceId connection }

/-- `open`: a connection that cannot be registered or read leaves no trace. -/
def openConnection (s : LocalIpcBackend) (resourceId : UInt64) (request : LocalRequest)
    (socket : Outcome BrokerErrorCode Unit) (spawned : Bool) :
    Outcome BrokerErrorCode LocalIpcBackend := do
  let (_, authorization) ← authorizeLocalConnectRequest request
  socket
  let _ ← mapSchemaError
    (LocalConnectionOpened.encode ⟨resourceId, authorization.maximumFrameBytes.toUInt32⟩)
  rejectIf (s.connections.containsKey resourceId.toNat) .invalidRequest
  rejectIf (!spawned) .unavailable
  return s.setConnection resourceId.toNat ⟨authorization, false, [], none, []⟩

/-- `match_send`. -/
def matchSend (s : LocalIpcBackend) (request : LocalRequest) :
    Outcome BrokerErrorCode (LocalSendFrame × LocalConnection) := do
  rejectIf (request.capability ≠ .localConnectV1 || request.operation ≠ localSendOperation)
    .invalidRequest
  let frame ← mapSchemaError (LocalSendFrame.decode request.payload)
  let connection ← okOr (s.connections.get frame.resourceId.toNat) .unavailable
  rejectIf connection.closed .unavailable
  authorizeLocalSendFrame request frame connection.authorization
  return (frame, connection)

/-- `execute` up to the lock of the stream: the frame to write. -/
def beginSend (s : LocalIpcBackend) (request : LocalRequest) (reason : Option BrokerErrorCode)
    (reserve : ℕ → ℕ → Outcome BrokerErrorCode Unit) : Outcome BrokerErrorCode LocalSendFrame :=
  match reason with
  | some code => err code
  | none => do
    let (frame, connection) ← s.matchSend request
    reserveTraffic reserve frame.bytes.length connection.authorization.maximumBytesPerMinute
    rejectIf (UInt32.size ≤ frame.bytes.length) .quotaExceeded
    return frame

/-- The send is over: its result is there and the lock is free. -/
def finish (s : LocalIpcBackend) (operation : ℕ) (frame : LocalSendFrame)
    (result : BrokerResult) : LocalIpcBackend :=
  match s.connections.get frame.resourceId.toNat with
  | some connection =>
    (s.setConnection frame.resourceId.toNat { connection with holder := none }).setSend operation
      (.done result)
  | none => s.setSend operation (.done result)

/-- The bytes that a part of a send writes: `length.to_be_bytes()` and the payload. -/
def partBytes (frame : LocalSendFrame) : Part → List UInt8
  | .header => (leBytes 4 frame.bytes.length).reverse
  | .payload => frame.bytes

/-- Where a send stands after it has written a part up to an offset: a loop whose offset
has reached its end gives way to the next loop, the last one to the end of the send. -/
def nextWrite (frame : LocalSendFrame) : Part → ℕ → Option (Part × ℕ)
  | .header, offset =>
    if offset < (partBytes frame .header).length then some (.header, offset)
    else if 0 < frame.bytes.length then some (.payload, 0) else none
  | .payload, offset => if offset < frame.bytes.length then some (.payload, offset) else none

/-- The socket accepts bytes of the send that holds the lock. -/
def accept (s : LocalIpcBackend) (resourceId : ℕ) (bytes : List UInt8) : LocalIpcBackend :=
  match s.connections.get resourceId with
  | some connection =>
    s.setConnection resourceId
      { connection with
        stream := connection.stream ++ bytes
        log := connection.log.modifyLast fun e => { e with count := e.count + bytes.length } }
  | none => s

/-- One turn of `write_all_interruptible`. -/
def turn (s : LocalIpcBackend) (operation : ℕ) (frame : LocalSendFrame) (part : Part)
    (offset : ℕ) (reason : Option BrokerErrorCode) (attempt : WriteAttempt) : LocalIpcBackend :=
  match reason, attempt with
  | some code, _ => s.finish operation frame (.error code)
  | none, .wrote 0 => s.finish operation frame (.error .backendFailed)
  | none, .wrote (count + 1) =>
    let accepted := ((partBytes frame part).drop offset).take (count + 1)
    let s := s.accept frame.resourceId.toNat accepted
    match nextWrite frame part (offset + accepted.length) with
    | some (part, offset) => s.setSend operation (.writing frame part offset)
    | none => s.finish operation frame (.success [])
  | none, .retry => s
  | none, .failed => s.finish operation frame (.error .backendFailed)

/-- A send that waits gets the lock: it tests the flag of the connection again. -/
def lock (s : LocalIpcBackend) (operation : ℕ) (frame : LocalSendFrame)
    (connection : LocalConnection) : LocalIpcBackend :=
  if connection.closed then s.setSend operation (.done (.error .unavailable))
  else
    (s.setConnection frame.resourceId.toNat
      { connection with
        holder := some operation
        log := connection.log ++ [⟨frame.bytes, 0⟩] }).setSend operation
      (.writing frame .header 0)

def step (s : LocalIpcBackend) : LocalAction → LocalIpcBackend
  | .openConnection resourceId request socket spawned =>
    match s.openConnection resourceId request socket spawned with
    | ok s' => s'
    | _ => s
  | .execute operation request reason reserve =>
    match s.sends operation with
    | .idle =>
      match s.beginSend request reason reserve with
      | ok frame => s.setSend operation (.waiting frame)
      | err code => s.setSend operation (.done (.error code))
      | .panic => s
    | _ => s
  | .lock operation =>
    match s.sends operation with
    | .waiting frame =>
      match s.connections.get frame.resourceId.toNat with
      | some connection =>
        if connection.holder = none then s.lock operation frame connection else s
      | none => s
    | _ => s
  | .turn operation reason attempt =>
    match s.sends operation with
    | .writing frame part offset => s.turn operation frame part offset reason attempt
    | _ => s
  | .close resourceId =>
    match s.connections.get resourceId with
    | some connection => s.setConnection resourceId { connection with closed := true }
    | none => s

end LocalIpcBackend

end TouchBar.Supervisor
