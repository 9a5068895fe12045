import TouchBar.Protocol.BrokerIpc
import TouchBar.Rust.BTree

/-!
# The queue of events to the host

Events wait here until the supervisor writes them to the component host.  The state of
a capability is kept once, in its latest version.  All other events are edges: they
wait in order, up to a maximum, and an edge that finds the queue full is replaced by
one count of dropped events.
-/

namespace TouchBar.Supervisor

open TouchBar.Rust TouchBar.Lib TouchBar.Protocol Outcome

inductive HostEvent where
  | capabilityChanged (generation : ℕ) (state : CapabilityState)
  | completion (requestId : ℕ) (result : BrokerResult)
  | resourceEvent (resourceId sequence : ℕ) (result : BrokerResult)
  | overflow (generation droppedEvents : ℕ)
deriving DecidableEq, Repr

structure HostEventQueue where
  maximumStateEvents : ℕ
  maximumEdgeEvents : ℕ
  stateEvents : BTreeMap String (ℕ × CapabilityState)
  edgeEvents : List HostEvent
  droppedEdgeEvents : ℕ
  overflowGeneration : ℕ

namespace HostEventQueue

def new (maximumStateEvents maximumEdgeEvents : ℕ) : HostEventQueue where
  maximumStateEvents := maximumStateEvents
  maximumEdgeEvents := maximumEdgeEvents
  stateEvents := .empty
  edgeEvents := []
  droppedEdgeEvents := 0
  overflowGeneration := 0

/-- A capability that already waits is overwritten even when the map is full. -/
def pushCapability (q : HostEventQueue) (generation : ℕ) (state : CapabilityState) :
    Outcome BrokerErrorCode HostEventQueue :=
  if !q.stateEvents.containsKey state.capability
      && decide (q.maximumStateEvents ≤ q.stateEvents.len) then
    err .quotaExceeded
  else
    ok { q with stateEvents := q.stateEvents.insert state.capability (generation, state) }

def recordDropped (q : HostEventQueue) (droppedEvents generation : ℕ) : HostEventQueue :=
  { q with
    droppedEdgeEvents := U64.saturatingAdd q.droppedEdgeEvents droppedEvents
    overflowGeneration := max q.overflowGeneration generation }

/-- No further edge is taken. -/
def full (q : HostEventQueue) : Bool := q.edgeEvents.length = q.maximumEdgeEvents

def pushEdge (q : HostEventQueue) (event : HostEvent) (generation : ℕ) : HostEventQueue :=
  if q.full then q.recordDropped 1 generation
  else { q with edgeEvents := q.edgeEvents ++ [event] }

def pushCompletion (q : HostEventQueue) (requestId : ℕ) (result : BrokerResult)
    (generation : ℕ) : HostEventQueue :=
  q.pushEdge (.completion requestId result) generation

def pushResource (q : HostEventQueue) (resourceId sequence : ℕ) (result : BrokerResult)
    (generation : ℕ) : HostEventQueue :=
  q.pushEdge (.resourceEvent resourceId sequence result) generation

/-- States come before edges, and the count of dropped edges comes last. -/
def pop (q : HostEventQueue) : HostEventQueue × Option HostEvent :=
  match q.stateEvents.entries with
  | (capability, generation, state) :: _ =>
    ({ q with stateEvents := q.stateEvents.remove capability },
      some (.capabilityChanged generation state))
  | [] =>
    match q.edgeEvents with
    | event :: edges => ({ q with edgeEvents := edges }, some event)
    | [] =>
      if 0 < q.droppedEdgeEvents then
        ({ q with droppedEdgeEvents := 0, overflowGeneration := 0 },
          some (.overflow q.overflowGeneration q.droppedEdgeEvents))
      else (q, none)

/-- What a push does to the edges: one more at the back, or none when there is no room. -/
lemma edgeEvents_pushEdge (q : HostEventQueue) (event : HostEvent) (generation : ℕ) :
    (q.pushEdge event generation).edgeEvents =
      if q.full then q.edgeEvents else q.edgeEvents ++ [event] := by
  rw [pushEdge]
  split <;> rfl

end HostEventQueue

end TouchBar.Supervisor
