import TouchBar.Lib.Runs
import TouchBar.Supervisor.Events

/-!
# Resources

A resource is a stream of events from a broker to the host.  The threads of the broker
hold sinks of the resource and put events on one bounded channel; the supervisor thread
pumps the channel into the event queue, looks for resources that have finished, and
removes them after their terminal event.

Threads interleave at the points where they touch shared state: the channel, the
`finished` flag and the terminal cell of a resource, and the count of dropped events.
A step of the model goes from one such point to the next.  Each step also notes what
it did to the resources, which is what statements about whole runs speak of.
-/

namespace TouchBar.Supervisor

open TouchBar.Rust TouchBar.Lib TouchBar.Protocol Outcome

def maxResourceEventBytes : ℕ := 16 * 1024

structure IncomingEvent where
  resourceId : ℕ
  result : BrokerResult
deriving DecidableEq, Repr

/-- The cells that the sinks of a resource share with the manager. -/
structure SharedCells where
  finished : Bool
  terminal : Option BrokerResult
deriving DecidableEq, Repr

/-- What a producer can call on a sink.  `slot` is the answer of `take_rate_slot`, which
depends on the clock. -/
inductive SinkCall where
  | emit (payload : List UInt8) (slot : Bool)
  | emitBuffered (payload : List UInt8) (slot : Bool)
  | complete (payload : List UInt8)
  | finish (code : BrokerErrorCode)
deriving DecidableEq, Repr

/-- Where a thread stands inside a call. -/
inductive Pending where
  /-- `emit`, before `try_send` -/
  | emitSend (resourceId : ℕ) (payload : List UInt8)
  /-- `emit_buffered`, at the head of its loop -/
  | bufferCheck (resourceId : ℕ) (payload : List UInt8)
  /-- `emit_buffered`, after the test of the flag and before `try_send` -/
  | bufferSend (resourceId : ℕ) (payload : List UInt8)
  /-- `set_terminal`, before it takes the lock -/
  | setTerminal (resourceId : ℕ) (result : BrokerResult)
deriving DecidableEq, Repr

/-- Where the supervisor stands inside `pump`. -/
inductive Pump where
  | idle
  /-- before the next `try_recv` -/
  | draining (generation : ℕ)
  /-- before the flag of the first unread resource -/
  | reading (generation : ℕ) (unread found : List ℕ)
  /-- before the terminal event of the first pending resource -/
  | terminals (generation : ℕ) (pending found : List ℕ)
  /-- before `close_many` -/
  | closing (found : List ℕ)
deriving DecidableEq, Repr

/-- The runtime with the threads of its producers.  A managed resource is known by its
next sequence number; its cells outlive it in the sinks. -/
structure Runtime where
  events : HostEventQueue
  capacity : ℕ
  channel : List IncomingEvent
  dropped : ℕ
  resources : BTreeMap ℕ ℕ
  nextResourceId : ℕ
  cells : ℕ → SharedCells
  calls : ℕ → Option Pending
  pump : Pump

/-- What a step does to a resource.  A push carries the flag that the event is terminal
and the flag that the queue had room for it. -/
inductive Note where
  | accepted (payload : List UInt8)
  | finished (result : BrokerResult)
  | pushed (terminal : Bool) (result : BrokerResult) (queued : Bool)
  | closed
deriving DecidableEq, Repr

inductive Action where
  /-- `open_resource`; the flag is false when the backend or a limit refuses it -/
  | openResource (kept : Bool)
  | call (thread resourceId : ℕ) (request : SinkCall)
  /-- the next step of a thread inside its call -/
  | resume (thread : ℕ)
  /-- `pump_resource_events` is called -/
  | startPump (generation : ℕ)
  /-- the next step of the supervisor inside `pump` -/
  | resumePump
  | popEvent
  | closeResource (resourceId : ℕ)
  /-- one turn of the loop of `ResourceManager::revoke` -/
  | revoke (resourceId generation : ℕ)
  /-- one turn of the loop of `pump_completions` -/
  | pushCompletion (requestId : ℕ) (result : BrokerResult) (generation : ℕ)
  | pushCapability (generation : ℕ) (state : CapabilityState)
deriving DecidableEq, Repr

namespace Runtime

/-- A runtime without resources.  The channel and the edge queue have the same maximum. -/
def initial (maximumStateEvents maximumEdgeEvents : ℕ) : Runtime where
  events := .new maximumStateEvents maximumEdgeEvents
  capacity := maximumEdgeEvents
  channel := []
  dropped := 0
  resources := .empty
  nextResourceId := 1
  cells := fun _ => ⟨false, none⟩
  calls := fun _ => none
  pump := .idle

/-- `AsyncBrokerRuntime::new`. -/
def new (maximumStateEvents maximumEdgeEvents : ℕ) : Outcome String Runtime :=
  if maximumEdgeEvents = 0 then err "resource event capacity must be nonzero"
  else ok (initial maximumStateEvents maximumEdgeEvents)

/-- The resource has been opened: sinks of it may exist. -/
def opened (s : Runtime) (id : ℕ) : Bool := 0 < id && id < s.nextResourceId

/-- The manager holds the resource. -/
def managed (s : Runtime) (id : ℕ) : Bool := s.resources.containsKey id

/-- `is_finished`. -/
def isFinished (s : Runtime) (id : ℕ) : Bool := (s.cells id).finished

def setCall (s : Runtime) (thread : ℕ) (pending : Option Pending) : Runtime :=
  { s with calls := Function.update s.calls thread pending }

def setCells (s : Runtime) (id : ℕ) (cells : SharedCells) : Runtime :=
  { s with cells := Function.update s.cells id cells }

/-! ## Producers -/

/-- The size tests of `emit`, `emit_buffered` and `complete`. -/
def oversized (payload : List UInt8) : Bool :=
  maxResourceEventBytes < payload.length || maxInlinePayloadBytes < payload.length

/-- A thread enters a call and runs to the first point where it touches shared state
again. -/
def enter (s : Runtime) (thread id : ℕ) : SinkCall → Runtime
  | .emit payload slot =>
    if s.isFinished id then s
    else if oversized payload then
      s.setCall thread (some (.setTerminal id (.error .quotaExceeded)))
    else if !slot then { s with dropped := (s.dropped + 1) % U64.size }
    else s.setCall thread (some (.emitSend id payload))
  | .emitBuffered payload slot =>
    if oversized payload then
      s.setCall thread (some (.setTerminal id (.error .quotaExceeded)))
    else if !slot then s.setCall thread (some (.setTerminal id (.error .rateLimited)))
    else s.setCall thread (some (.bufferCheck id payload))
  | .complete payload =>
    if oversized payload then
      s.setCall thread (some (.setTerminal id (.error .quotaExceeded)))
    else s.setCall thread (some (.setTerminal id (.success payload)))
  | .finish code => s.setCall thread (some (.setTerminal id (.error code)))

/-- `SyncSender::try_send` on a channel with room. -/
def send (s : Runtime) (id : ℕ) (payload : List UInt8) : Runtime :=
  { s with channel := s.channel ++ [⟨id, .success payload⟩] }

/-- One step of a thread inside a call. -/
def resume (s : Runtime) (thread : ℕ) : Pending → Runtime × List (ℕ × Note)
  | .emitSend id payload =>
    if s.channel.length < s.capacity then
      ((s.send id payload).setCall thread none, [(id, .accepted payload)])
    else
      ({ s with dropped := (s.dropped + 1) % U64.size }.setCall thread
        (some (.setTerminal id (.error .quotaExceeded))), [])
  | .bufferCheck id payload =>
    if s.isFinished id then (s.setCall thread none, [])
    else (s.setCall thread (some (.bufferSend id payload)), [])
  | .bufferSend id payload =>
    if s.channel.length < s.capacity then
      ((s.send id payload).setCall thread none, [(id, .accepted payload)])
    else (s.setCall thread (some (.bufferCheck id payload)), [])
  | .setTerminal id result =>
    if s.isFinished id then (s.setCall thread none, [])
    else ((s.setCells id ⟨true, some result⟩).setCall thread none, [(id, .finished result)])

/-! ## The manager -/

/-- `push_resource` for a managed resource, which takes its next sequence number. -/
def pushNext (s : Runtime) (id sequence : ℕ) (result : BrokerResult) (generation : ℕ) :
    Runtime :=
  { s with
    events := s.events.pushResource id sequence result generation
    resources := s.resources.insert id (U64.saturatingAdd sequence 1) }

/-- `ResourceManager::close`, without its answer. -/
def close (s : Runtime) (id : ℕ) : Runtime :=
  if s.managed id then
    { s with resources := s.resources.remove id }.setCells id { s.cells id with finished := true }
  else s

def closeMany (s : Runtime) (ids : List ℕ) : Runtime := ids.foldl close s

/-- One step of `ResourceManager::pump`. -/
def resumePump (s : Runtime) : Pump → Runtime × List (ℕ × Note)
  | .idle => (s, [])
  | .draining generation =>
    match s.channel with
    | [] => ({ s with pump := .reading generation s.resources.keys [] }, [])
    | incoming :: rest =>
      match s.resources.get incoming.resourceId with
      | none => ({ s with channel := rest }, [])
      | some sequence =>
        ({ s with channel := rest }.pushNext incoming.resourceId sequence incoming.result
            generation,
          [(incoming.resourceId, .pushed false incoming.result !s.events.full)])
  | .reading generation (id :: unread) found =>
    ({ s with
        pump := .reading generation unread (if s.isFinished id then found ++ [id] else found) },
      [])
  | .reading generation [] found => ({ s with pump := .terminals generation found found }, [])
  | .terminals generation (id :: pending) found =>
    match s.resources.get id with
    | none => ({ s with pump := .terminals generation pending found }, [])
    | some sequence =>
      let terminal := (s.cells id).terminal.getD (.error .internal)
      (({ s with pump := .terminals generation pending found }.pushNext id sequence terminal
          generation).setCells id { s.cells id with terminal := none },
        [(id, .pushed true terminal !s.events.full)])
  | .terminals generation [] found =>
    ({ s with
        events := if 0 < s.dropped then s.events.recordDropped s.dropped generation
          else s.events
        dropped := 0
        pump := .closing found },
      [])
  | .closing found => ({ s.closeMany found with pump := .idle }, [])

/-- `allocate_resource`, and the cells that `open` makes for the new resource. -/
def allocate (s : Runtime) : Runtime :=
  { s with nextResourceId := s.nextResourceId + 1 }.setCells s.nextResourceId ⟨false, none⟩

/-- `self.resources.insert` at the end of `open`. -/
def manage (s : Runtime) (id : ℕ) : Runtime :=
  { s with resources := s.resources.insert id 1 }

/-! ## Steps -/

/-- What the supervisor thread does between two pumps. -/
def supervise (s : Runtime) : Action → Runtime × List (ℕ × Note)
  | .openResource kept =>
    -- `checked_add` refuses the last number
    if U64.size ≤ s.nextResourceId + 1 then (s, [])
    else if kept then (s.allocate.manage s.nextResourceId, [])
    else (s.allocate, [(s.nextResourceId, .closed)])
  | .startPump generation => ({ s with pump := .draining generation }, [])
  | .popEvent => ({ s with events := s.events.pop.1 }, [])
  | .closeResource id => (s.close id, if s.managed id then [(id, .closed)] else [])
  | .revoke id generation =>
    match s.resources.get id with
    | none => (s, [])
    | some sequence =>
      ({ s with
          events := s.events.pushResource id sequence (.error .denied) generation }.close id,
        [(id, .pushed true (.error .denied) !s.events.full), (id, .closed)])
  | .pushCompletion requestId result generation =>
    ({ s with events := s.events.pushCompletion requestId result generation }, [])
  | .pushCapability generation state =>
    (match s.events.pushCapability generation state with
      | ok events => { s with events }
      | _ => s, [])
  | _ => (s, [])

/-- One step of the whole system.  The supervisor is one thread, so it starts nothing
else while it pumps; a producer thread is in one call at a time and can only call sinks
that exist. -/
def step (s : Runtime) : Action → Runtime × List (ℕ × Note)
  | .call thread id request =>
    if s.opened id && (s.calls thread).isNone then (s.enter thread id request, []) else (s, [])
  | .resume thread =>
    match s.calls thread with
    | some pending => s.resume thread pending
    | none => (s, [])
  | .resumePump => s.resumePump s.pump
  | a => if s.pump = .idle then s.supervise a else (s, [])

/-- A step, with the notes so far. -/
def stepNoting (st : Runtime × List (ℕ × Note)) (a : Action) : Runtime × List (ℕ × Note) :=
  ((st.1.step a).1, st.2 ++ (st.1.step a).2)

/-- A run from a state, with all its notes. -/
def exec (s : Runtime) (actions : List Action) : Runtime × List (ℕ × Note) :=
  run stepNoting (s, []) actions

end Runtime

end TouchBar.Supervisor
