import TouchBar.Supervisor.EventFlow
import TouchBar.Supervisor.ResourceStages

/-!
# Events over whole runs

Each step of the runtime does at most one operation on the event queue, and a producer counts
at most one drop in it.  The notes of these operations are kept along a run: every event is
accounted for, and the numbers of the events of a resource are the numbers from one on.
-/

namespace TouchBar.Supervisor

open TouchBar.Rust TouchBar.Lib TouchBar.Protocol Outcome

namespace Runtime

variable {s : Runtime}

/-! ## What a step does to the queue -/

/-- The operation of a step inside `pump`. -/
def pumpOp (s : Runtime) : Pump → Option QueueOp
  | .draining generation =>
    match s.channel with
    | [] => none
    | incoming :: _ => (s.resources.get incoming.resourceId).map fun sequence =>
        .pushResource incoming.resourceId sequence incoming.result generation
  | .terminals generation (id :: _) _ => (s.resources.get id).map fun sequence =>
      .pushResource id sequence ((s.cells id).terminal.getD (.error .internal)) generation
  | .terminals generation [] _ =>
    if 0 < s.dropped then some (.recordDropped s.dropped generation) else none
  | _ => none

def superviseOp (s : Runtime) : Action → Option QueueOp
  | .popEvent => some .pop
  | .revoke id generation => (s.resources.get id).map fun sequence =>
      .pushResource id sequence (.error .denied) generation
  | .pushCompletion requestId result generation =>
    some (.pushCompletion requestId result generation)
  | .pushCapability generation state => some (.pushCapability generation state)
  | _ => none

/-- The operation of a step on the event queue. -/
def queueOp (s : Runtime) : Action → Option QueueOp
  | .call _ _ _ => none
  | .resume _ => none
  | .resumePump => s.pumpOp s.pump
  | a => if s.pump = .idle then s.superviseOp a else none

/-- The calls of `record_drop` on entering a call. -/
def enterDrops (s : Runtime) (id : ℕ) : SinkCall → ℕ
  | .emit payload slot =>
    if s.isFinished id then 0
    else if oversized payload then 0
    else if !slot then 1
    else 0
  | _ => 0

/-- The calls of `record_drop` inside a call. -/
def resumeDrops (s : Runtime) : Pending → ℕ
  | .emitSend _ _ => if s.channel.length < s.capacity then 0 else 1
  | _ => 0

/-- The drops that a producer counts in a step. -/
def producerDrops (s : Runtime) : Action → ℕ
  | .call thread id request =>
    if s.opened id && (s.calls thread).isNone then s.enterDrops id request else 0
  | .resume thread =>
    match s.calls thread with
    | some pending => s.resumeDrops pending
    | none => 0
  | _ => 0

/-- The kinds of steps as far as the event queue is concerned. -/
inductive QueueStep (s : Runtime) : Option QueueOp → ℕ → Runtime → Prop
  /-- Resources may go, and a new one starts at one. -/
  | quiet {s' : Runtime} (hevents : s'.events = s.events) (hdropped : s'.dropped = s.dropped)
      (hnext : s.nextResourceId ≤ s'.nextResourceId)
      (hresources : ∀ id n, s'.resources.get id = some n →
        s.resources.get id = some n ∨
          n = 1 ∧ id = s.nextResourceId ∧ s.nextResourceId < s'.nextResourceId) :
      QueueStep s none 0 s'
  | drop {s' : Runtime} (hevents : s'.events = s.events)
      (hdropped : s'.dropped = (s.dropped + 1) % U64.size)
      (hnext : s'.nextResourceId = s.nextResourceId) (hresources : s'.resources = s.resources) :
      QueueStep s none 1 s'
  | pop {s' : Runtime} (hevents : s'.events = (s.events.perform .pop).1)
      (hdropped : s'.dropped = s.dropped) (hnext : s'.nextResourceId = s.nextResourceId)
      (hresources : s'.resources = s.resources) : QueueStep s (some .pop) 0 s'
  | completion {s' : Runtime} {requestId generation : ℕ} {result : BrokerResult}
      (hevents : s'.events = s.events.pushCompletion requestId result generation)
      (hdropped : s'.dropped = s.dropped) (hnext : s'.nextResourceId = s.nextResourceId)
      (hresources : s'.resources = s.resources) :
      QueueStep s (some (.pushCompletion requestId result generation)) 0 s'
  | capability {s' : Runtime} {generation : ℕ} {state : CapabilityState}
      (hevents : s'.events = (s.events.perform (.pushCapability generation state)).1)
      (hdropped : s'.dropped = s.dropped) (hnext : s'.nextResourceId = s.nextResourceId)
      (hresources : s'.resources = s.resources) :
      QueueStep s (some (.pushCapability generation state)) 0 s'
  /-- A managed resource takes its next number, or goes. -/
  | push {s' : Runtime} {id sequence generation : ℕ} {result : BrokerResult}
      (hget : s.resources.get id = some sequence)
      (hevents : s'.events = s.events.pushResource id sequence result generation)
      (hdropped : s'.dropped = s.dropped) (hnext : s'.nextResourceId = s.nextResourceId)
      (hself : ∀ n, s'.resources.get id = some n → n = U64.saturatingAdd sequence 1)
      (hother : ∀ other n, other ≠ id → s'.resources.get other = some n →
        s.resources.get other = some n) :
      QueueStep s (some (.pushResource id sequence result generation)) 0 s'
  | record {s' : Runtime} {generation : ℕ}
      (hevents : s'.events = s.events.recordDropped s.dropped generation)
      (hdropped : s'.dropped = 0) (hnext : s'.nextResourceId = s.nextResourceId)
      (hresources : s'.resources = s.resources) :
      QueueStep s (some (.recordDropped s.dropped generation)) 0 s'

lemma queueStep_refl (s : Runtime) : QueueStep s none 0 s :=
  .quiet rfl rfl le_rfl fun _ _ h => .inl h

lemma queueStep_enter (thread id : ℕ) (request : SinkCall) :
    QueueStep s none (s.enterDrops id request) (s.enter thread id request) := by
  cases request with
  | emit payload slot =>
    rw [enter, enterDrops]
    split_ifs
    · exact queueStep_refl s
    · exact .quiet rfl rfl le_rfl fun _ _ h => .inl h
    · exact .drop rfl rfl rfl rfl
    · exact .quiet rfl rfl le_rfl fun _ _ h => .inl h
  | emitBuffered payload slot =>
    rw [enter]
    split_ifs <;> exact .quiet rfl rfl le_rfl fun _ _ h => .inl h
  | complete payload =>
    rw [enter]
    split_ifs <;> exact .quiet rfl rfl le_rfl fun _ _ h => .inl h
  | finish code => exact .quiet rfl rfl le_rfl fun _ _ h => .inl h

lemma queueStep_resume (thread : ℕ) (pending : Pending) :
    QueueStep s none (s.resumeDrops pending) (s.resume thread pending).1 := by
  cases pending with
  | emitSend id payload =>
    rw [resume, resumeDrops]
    split_ifs
    · exact .quiet rfl rfl le_rfl fun _ _ h => .inl h
    · exact .drop rfl rfl rfl rfl
  | bufferCheck id payload =>
    rw [resume]
    split_ifs <;> exact .quiet rfl rfl le_rfl fun _ _ h => .inl h
  | bufferSend id payload =>
    rw [resume]
    split_ifs <;> exact .quiet rfl rfl le_rfl fun _ _ h => .inl h
  | setTerminal id result =>
    rw [resume]
    split_ifs <;> exact .quiet rfl rfl le_rfl fun _ _ h => .inl h

lemma close_dropped (id : ℕ) : (s.close id).dropped = s.dropped := by
  rw [close]
  split_ifs <;> rfl

lemma resources_close {id other n : ℕ} (h : (s.close id).resources.get other = some n) :
    other ≠ id ∧ s.resources.get other = some n := by
  rw [close] at h
  split_ifs at h with hmanaged
  · have hremoved : (s.resources.remove id).get other = some n := h
    rw [BTreeMap.get_remove] at hremoved
    split_ifs at hremoved with hsame
    exact ⟨hsame, hremoved⟩
  · refine ⟨?_, h⟩
    rintro rfl
    exact hmanaged (managed_eq_true.mpr ⟨n, h⟩)

lemma resources_closeMany {ids : List ℕ} {other n : ℕ}
    (h : (s.closeMany ids).resources.get other = some n) : s.resources.get other = some n := by
  induction ids generalizing s with
  | nil => exact h
  | cons id ids ih => exact (resources_close (ih h)).2

lemma closeMany_dropped (ids : List ℕ) : (s.closeMany ids).dropped = s.dropped := by
  induction ids generalizing s with
  | nil => rfl
  | cons id ids ih => exact (ih (s := s.close id)).trans (close_dropped id)

/-- A push of the pump gives the resource its next number. -/
lemma queueStep_pushNext {s' : Runtime} {id sequence generation : ℕ} {result : BrokerResult}
    (hget : s.resources.get id = some sequence)
    (hevents : s'.events = s.events.pushResource id sequence result generation)
    (hdropped : s'.dropped = s.dropped) (hnext : s'.nextResourceId = s.nextResourceId)
    (hresources : s'.resources = s.resources.insert id (U64.saturatingAdd sequence 1)) :
    QueueStep s (some (.pushResource id sequence result generation)) 0 s' := by
  refine .push hget hevents hdropped hnext ?_ ?_
  · intro n hself
    rw [hresources, BTreeMap.get_insert, if_pos rfl] at hself
    exact (Option.some.inj hself).symm
  · intro other n hne hother
    rw [hresources, BTreeMap.get_insert, if_neg hne] at hother
    exact hother

lemma queueStep_resumePump (p : Pump) : QueueStep s (s.pumpOp p) 0 (s.resumePump p).1 := by
  cases p with
  | idle => exact queueStep_refl s
  | draining generation =>
    rw [resumePump, pumpOp]
    cases hchannel : s.channel with
    | nil => exact .quiet rfl rfl le_rfl fun _ _ h => .inl h
    | cons incoming rest =>
      dsimp only
      cases hget : s.resources.get incoming.resourceId with
      | none => exact .quiet rfl rfl le_rfl fun _ _ h => .inl h
      | some sequence =>
        exact queueStep_pushNext hget rfl rfl rfl rfl
  | reading generation unread found =>
    cases unread <;> exact .quiet rfl rfl le_rfl fun _ _ h => .inl h
  | terminals generation pending found =>
    cases pending with
    | nil =>
      rw [resumePump, pumpOp]
      split_ifs with hdropped
      · exact .record rfl rfl rfl rfl
      · refine .quiet rfl ?_ le_rfl fun _ _ h => .inl h
        show 0 = s.dropped
        omega
    | cons id pending =>
      rw [resumePump, pumpOp]
      cases hget : s.resources.get id with
      | none => exact .quiet rfl rfl le_rfl fun _ _ h => .inl h
      | some sequence =>
        exact queueStep_pushNext hget rfl rfl rfl rfl
  | closing found =>
    obtain ⟨hevents, -, hnext, -⟩ := closeMany_frame (s := s) found
    exact .quiet hevents (closeMany_dropped found) hnext.ge
      fun _ _ h => .inl (resources_closeMany h)

lemma queueStep_supervise (a : Action) : QueueStep s (s.superviseOp a) 0 (s.supervise a).1 := by
  cases a with
  | openResource kept =>
    rw [supervise]
    split_ifs
    · exact queueStep_refl s
    · refine .quiet rfl rfl (Nat.le_succ _) ?_
      intro id n hget
      have hinsert : (s.resources.insert s.nextResourceId 1).get id = some n := hget
      rw [BTreeMap.get_insert] at hinsert
      split_ifs at hinsert with hnew
      · exact .inr ⟨(Option.some.inj hinsert).symm, hnew, Nat.lt_succ_self _⟩
      · exact .inl hinsert
    · exact .quiet rfl rfl (Nat.le_succ _) fun _ _ h => .inl h
  | startPump generation => exact .quiet rfl rfl le_rfl fun _ _ h => .inl h
  | popEvent => exact .pop rfl rfl rfl rfl
  | closeResource id =>
    obtain ⟨hevents, -, hnext, -⟩ := close_frame (s := s) (i := id)
    exact .quiet hevents (close_dropped id) hnext.ge fun _ _ h => .inl (resources_close h).2
  | revoke id generation =>
    rw [supervise, superviseOp]
    cases hget : s.resources.get id with
    | none => exact queueStep_refl s
    | some sequence =>
      -- the event is pushed, and the resource goes
      obtain ⟨hevents, -, hnext, -⟩ := close_frame (i := id)
        (s := { s with events := s.events.pushResource id sequence (.error .denied) generation })
      refine .push hget hevents (close_dropped id) hnext ?_ ?_
      · intro n hself
        exact absurd rfl (resources_close hself).1
      · intro other n hne hother
        exact (resources_close hother).2
  | pushCompletion requestId result generation => exact .completion rfl rfl rfl rfl
  | pushCapability generation state =>
    have hevents : (s.supervise (.pushCapability generation state)).1.events =
        (s.events.perform (.pushCapability generation state)).1 := by
      rw [supervise, HostEventQueue.perform]
      cases s.events.pushCapability generation state <;> rfl
    refine .capability hevents ?_ ?_ ?_
    all_goals
      rw [supervise]
      cases s.events.pushCapability generation state <;> rfl
  | call thread id request => exact queueStep_refl s
  | resume thread => exact queueStep_refl s
  | resumePump => exact queueStep_refl s

/-- Each step of the runtime is one of the kinds. -/
theorem queueStep (s : Runtime) (a : Action) :
    QueueStep s (s.queueOp a) (s.producerDrops a) (s.step a).1 := by
  cases a with
  | call thread id request =>
    rw [queueOp, producerDrops, step]
    split_ifs
    · exact queueStep_enter thread id request
    · exact queueStep_refl s
  | resume thread =>
    rw [queueOp, producerDrops, step]
    cases s.calls thread with
    | none => exact queueStep_refl s
    | some pending => exact queueStep_resume thread pending
  | resumePump => exact queueStep_resumePump s.pump
  | _ =>
    simp only [queueOp, producerDrops, step]
    split_ifs
    · exact queueStep_supervise _
    · exact queueStep_refl s

end Runtime

/-! ## Runs with the notes of the queue -/

def HostEvent.sequenceOf (id : ℕ) : HostEvent → Option ℕ
  | resourceEvent resourceId sequence _ => if resourceId = id then some sequence else none
  | _ => none

/-- The numbers of the events of a resource, in the order in which they were pushed. -/
def pushedSequences (id : ℕ) (log : List QueueNote) : List ℕ :=
  (pushedEdges log).filterMap (HostEvent.sequenceOf id)

def poppedSequences (id : ℕ) (log : List QueueNote) : List ℕ :=
  (poppedEdges log).filterMap (HostEvent.sequenceOf id)

/-- A runtime with the notes of its queue and the drops that its producers have counted. -/
structure Observed where
  runtime : Runtime
  log : List QueueNote
  drops : ℕ

/-- The events of a run: the edges that were pushed and the drops of the producers. -/
def Observed.total (o : Observed) : ℕ := (pushedEdges o.log).length + o.drops

def notesOfOp (q : HostEventQueue) : Option QueueOp → List QueueNote
  | some op => (q.perform op).2
  | none => []

def observe (o : Observed) (a : Action) : Observed where
  runtime := (o.runtime.step a).1
  log := o.log ++ notesOfOp o.runtime.events (o.runtime.queueOp a)
  drops := o.drops + o.runtime.producerDrops a

def observed (s : Runtime) (actions : List Action) : Observed := run observe ⟨s, [], 0⟩ actions

/-- What every run keeps. -/
structure Conserving (states edges : ℕ) (o : Observed) : Prop where
  flow : Flow o.runtime.events o.log
  stateMaximum : o.runtime.events.maximumStateEvents = states
  edgeMaximum : o.runtime.events.maximumEdgeEvents = edges
  drops : recordedDrops o.log + o.runtime.dropped = o.drops
  managed_lt : ∀ id n, o.runtime.resources.get id = some n → id < o.runtime.nextResourceId
  sequences : ∀ id, pushedSequences id o.log = List.range' 1 (pushedSequences id o.log).length
  next : ∀ id n, o.runtime.resources.get id = some n →
    n = min ((pushedSequences id o.log).length + 1) (U64.size - 1)
  fresh : ∀ id, o.runtime.nextResourceId ≤ id → pushedSequences id o.log = []

section Conserving

variable {states edges : ℕ} {o : Observed} {s s' : Runtime}

lemma pushedSequences_append (id : ℕ) (log more : List QueueNote) :
    pushedSequences id (log ++ more) = pushedSequences id log ++ pushedSequences id more := by
  rw [pushedSequences, pushedEdges_append, List.filterMap_append]
  rfl

lemma length_pushedSequences_le (id : ℕ) (log : List QueueNote) :
    (pushedSequences id log).length ≤ (pushedEdges log).length :=
  List.length_filterMap_le _ _

lemma maximum_perform (q : HostEventQueue) (op : QueueOp) :
    (q.perform op).1.maximumStateEvents = q.maximumStateEvents ∧
      (q.perform op).1.maximumEdgeEvents = q.maximumEdgeEvents := by
  cases op with
  | pushCapability generation state =>
    rw [HostEventQueue.perform, HostEventQueue.pushCapability]
    split_ifs <;> exact ⟨rfl, rfl⟩
  | pushCompletion requestId result generation =>
    rw [HostEventQueue.perform, HostEventQueue.pushCompletion, HostEventQueue.pushEdge]
    split_ifs <;> exact ⟨rfl, rfl⟩
  | pushResource resourceId sequence result generation =>
    rw [HostEventQueue.perform, HostEventQueue.pushResource, HostEventQueue.pushEdge]
    split_ifs <;> exact ⟨rfl, rfl⟩
  | recordDropped droppedEvents generation => exact ⟨rfl, rfl⟩
  | pop =>
    rw [HostEventQueue.perform, HostEventQueue.pop]
    cases q.stateEvents.entries with
    | cons entry rest => exact ⟨rfl, rfl⟩
    | nil =>
      cases q.edgeEvents with
      | cons event rest => exact ⟨rfl, rfl⟩
      | nil =>
        dsimp only
        split_ifs <;> exact ⟨rfl, rfl⟩

/-- A step that pushes no event of a resource. -/
lemma Conserving.other (h : Conserving states edges o) {op : Option QueueOp} {drops : ℕ}
    (hflow : Flow s'.events (o.log ++ notesOfOp o.runtime.events op))
    (hmaximum : s'.events.maximumStateEvents = o.runtime.events.maximumStateEvents ∧
      s'.events.maximumEdgeEvents = o.runtime.events.maximumEdgeEvents)
    (hdrops : recordedDrops (o.log ++ notesOfOp o.runtime.events op) + s'.dropped =
      o.drops + drops)
    (hquiet : ∀ id, pushedSequences id (notesOfOp o.runtime.events op) = [])
    (hnext : o.runtime.nextResourceId ≤ s'.nextResourceId)
    (hresources : ∀ id n, s'.resources.get id = some n →
      o.runtime.resources.get id = some n ∨
        n = 1 ∧ id = o.runtime.nextResourceId ∧ o.runtime.nextResourceId < s'.nextResourceId) :
    Conserving states edges
      ⟨s', o.log ++ notesOfOp o.runtime.events op, o.drops + drops⟩ := by
  have hsame : ∀ id, pushedSequences id (o.log ++ notesOfOp o.runtime.events op) =
      pushedSequences id o.log := by
    intro id
    rw [pushedSequences_append, hquiet, List.append_nil]
  refine ⟨hflow, hmaximum.1.trans h.stateMaximum, hmaximum.2.trans h.edgeMaximum, hdrops, ?_, ?_,
    ?_, ?_⟩
  · intro id n hget
    rcases hresources id n hget with hold | ⟨-, rfl, hlt⟩
    · exact (h.managed_lt id n hold).trans_le hnext
    · exact hlt
  · intro id
    show pushedSequences id (o.log ++ _) = List.range' 1 (pushedSequences id (o.log ++ _)).length
    rw [hsame]
    exact h.sequences id
  · intro id n hget
    show n = min ((pushedSequences id (o.log ++ _)).length + 1) (U64.size - 1)
    rw [hsame]
    rcases hresources id n hget with hold | ⟨rfl, rfl, -⟩
    · exact h.next id n hold
    · -- a new resource has pushed nothing
      rw [h.fresh _ le_rfl]
      rfl
  · intro id hid
    show pushedSequences id (o.log ++ _) = []
    rw [hsame]
    exact h.fresh id (hnext.trans hid)

/-- A managed resource pushes an event with its next number. -/
lemma Conserving.push (h : Conserving states edges o) {id sequence generation : ℕ}
    {result : BrokerResult} (hget : o.runtime.resources.get id = some sequence)
    (hevents : s'.events = o.runtime.events.pushResource id sequence result generation)
    (hdropped : s'.dropped = o.runtime.dropped)
    (hnext : s'.nextResourceId = o.runtime.nextResourceId)
    (hself : ∀ n, s'.resources.get id = some n → n = U64.saturatingAdd sequence 1)
    (hother : ∀ other n, other ≠ id → s'.resources.get other = some n →
      o.runtime.resources.get other = some n)
    (htotal : (pushedEdges (o.log ++ [.edge (.resourceEvent id sequence result)])).length +
      o.drops < U64.size) :
    Conserving states edges
      ⟨s', o.log ++ [.edge (.resourceEvent id sequence result)], o.drops⟩ := by
  have hpushed : pushedEdges (o.log ++ [.edge (.resourceEvent id sequence result)]) =
      pushedEdges o.log ++ [.resourceEvent id sequence result] :=
    pushedEdges_append _ _
  have hmine : pushedSequences id (o.log ++ [.edge (.resourceEvent id sequence result)]) =
      pushedSequences id o.log ++ [sequence] := by
    rw [pushedSequences_append]
    simp [pushedSequences, pushedEdges, QueueNote.pushedEdge, HostEvent.sequenceOf]
  have htheirs : ∀ other, other ≠ id →
      pushedSequences other (o.log ++ [.edge (.resourceEvent id sequence result)]) =
        pushedSequences other o.log := by
    intro other hne
    rw [pushedSequences_append]
    simp [pushedSequences, pushedEdges, QueueNote.pushedEdge, HostEvent.sequenceOf, Ne.symm hne]
  rw [hpushed, List.length_append, List.length_singleton] at htotal
  -- all numbers of the resource are below the number of events, so that none saturates
  have hlength := length_pushedSequences_le id o.log
  have hnumber := h.next id sequence hget
  have hsequence : sequence = (pushedSequences id o.log).length + 1 := by omega
  have hdrops := h.drops
  refine ⟨?_, ?_, ?_, ?_, ?_, ?_, ?_, ?_⟩
  · show Flow s'.events _
    rw [hevents]
    refine h.flow.pushEdge generation rfl ?_
    have hrecorded : recordedDrops (o.log ++ [.edge (.resourceEvent id sequence result)]) =
        recordedDrops o.log := by
      simp [recordedDrops, QueueNote.recorded]
    rw [eventCount, hpushed, hrecorded, List.length_append, List.length_singleton]
    omega
  · show s'.events.maximumStateEvents = states
    rw [hevents]
    exact (maximum_perform _ (.pushResource id sequence result generation)).1.trans h.stateMaximum
  · show s'.events.maximumEdgeEvents = edges
    rw [hevents]
    exact (maximum_perform _ (.pushResource id sequence result generation)).2.trans h.edgeMaximum
  · have hrecorded : recordedDrops (o.log ++ [.edge (.resourceEvent id sequence result)]) =
        recordedDrops o.log := by
      simp [recordedDrops, QueueNote.recorded]
    show recordedDrops (o.log ++ _) + s'.dropped = o.drops
    rw [hrecorded, hdropped]
    exact hdrops
  · intro other n hget'
    show other < s'.nextResourceId
    rw [hnext]
    by_cases hne : other = id
    · rw [hne]
      exact h.managed_lt id sequence hget
    · exact h.managed_lt other n (hother other n hne hget')
  · intro other
    show pushedSequences other (o.log ++ _) =
      List.range' 1 (pushedSequences other (o.log ++ _)).length
    by_cases hne : other = id
    · subst hne
      rw [hmine, List.length_append, List.length_singleton, List.range'_1_concat,
        ← h.sequences other, hsequence, Nat.add_comm 1]
    · rw [htheirs other hne]
      exact h.sequences other
  · intro other n hget'
    show n = min ((pushedSequences other (o.log ++ _)).length + 1) (U64.size - 1)
    by_cases hne : other = id
    · subst hne
      rw [hmine, List.length_append, List.length_singleton, hself n hget', U64.saturatingAdd,
        hsequence]
    · rw [htheirs other hne]
      exact h.next other n (hother other n hne hget')
  · intro other hle
    have hle' : o.runtime.nextResourceId ≤ other := hnext.ge.trans hle
    have hne : other ≠ id := by
      rintro rfl
      exact absurd (h.managed_lt other sequence hget) hle'.not_gt
    show pushedSequences other (o.log ++ _) = []
    rw [htheirs other hne]
    exact h.fresh other hle'

/-- An operation that pushes no event of a resource, and records what the producers counted. -/
lemma Conserving.operate (h : Conserving states edges o) {op : QueueOp}
    (hquiet : ∀ id, pushedSequences id (o.runtime.events.perform op).2 = [])
    (hrecorded : recordedDrops (o.runtime.events.perform op).2 + s'.dropped = o.runtime.dropped)
    (hevents : s'.events = (o.runtime.events.perform op).1)
    (hnext : s'.nextResourceId = o.runtime.nextResourceId)
    (hresources : s'.resources = o.runtime.resources)
    (htotal : (pushedEdges (o.log ++ (o.runtime.events.perform op).2)).length + o.drops <
      U64.size) :
    Conserving states edges ⟨s', o.log ++ (o.runtime.events.perform op).2, o.drops⟩ := by
  have hdrops := h.drops
  refine @Conserving.other states edges o s' h (some op) 0 ?_ ?_ ?_ hquiet hnext.ge ?_
  · rw [hevents]
    refine h.flow.perform op ?_
    rw [eventCount, recordedDrops_append]
    omega
  · rw [hevents]
    exact maximum_perform _ op
  · show recordedDrops (o.log ++ (o.runtime.events.perform op).2) + s'.dropped = o.drops + 0
    rw [recordedDrops_append]
    omega
  · intro id n hget
    rw [hresources] at hget
    exact .inl hget

/-- Each kind of step keeps the invariant while the events can be counted. -/
lemma Conserving.step (h : Conserving states edges o) {op : Option QueueOp} {drops : ℕ}
    (hstep : o.runtime.QueueStep op drops s')
    (htotal : (pushedEdges (o.log ++ notesOfOp o.runtime.events op)).length +
      (o.drops + drops) < U64.size) :
    Conserving states edges ⟨s', o.log ++ notesOfOp o.runtime.events op, o.drops + drops⟩ := by
  have hdrops := h.drops
  cases hstep with
  | quiet hevents hdropped hnext hresources =>
    refine h.other ?_ ⟨congrArg _ hevents, congrArg _ hevents⟩ ?_ (fun _ => rfl) hnext hresources
    · show Flow s'.events (o.log ++ [])
      rw [List.append_nil, hevents]
      exact h.flow
    · show recordedDrops (o.log ++ []) + s'.dropped = o.drops + 0
      rw [List.append_nil, hdropped]
      exact hdrops
  | drop hevents hdropped hnext hresources =>
    have hpushed : pushedEdges (o.log ++ notesOfOp o.runtime.events none) = pushedEdges o.log :=
      congrArg pushedEdges (List.append_nil _)
    rw [hpushed] at htotal
    refine h.other ?_ ⟨congrArg _ hevents, congrArg _ hevents⟩ ?_ (fun _ => rfl) hnext.ge ?_
    · show Flow s'.events (o.log ++ [])
      rw [List.append_nil, hevents]
      exact h.flow
    · show recordedDrops (o.log ++ []) + s'.dropped = o.drops + 1
      rw [List.append_nil, hdropped, Nat.mod_eq_of_lt (by omega)]
      omega
    · intro id n hget
      rw [hresources] at hget
      exact .inl hget
  | pop hevents hdropped hnext hresources =>
    refine h.operate ?_ ?_ hevents hnext hresources htotal
    · intro id
      cases hpop : o.runtime.events.pop.2 <;>
        simp [HostEventQueue.perform, hpop, pushedSequences, pushedEdges, QueueNote.pushedEdge]
    · rw [hdropped]
      cases hpop : o.runtime.events.pop.2 <;>
        simp [HostEventQueue.perform, hpop, recordedDrops, QueueNote.recorded]
  | completion hevents hdropped hnext hresources =>
    refine h.operate ?_ ?_ hevents hnext hresources htotal
    · intro id
      simp [HostEventQueue.perform, pushedSequences, pushedEdges, QueueNote.pushedEdge,
        HostEvent.sequenceOf]
    · rw [hdropped]
      simp [HostEventQueue.perform, recordedDrops, QueueNote.recorded]
  | @capability _ generation state hevents hdropped hnext hresources =>
    refine h.operate ?_ ?_ hevents hnext hresources htotal
    · intro id
      cases hpush : o.runtime.events.pushCapability generation state <;>
        simp [HostEventQueue.perform, hpush, pushedSequences, pushedEdges, QueueNote.pushedEdge]
    · rw [hdropped]
      cases hpush : o.runtime.events.pushCapability generation state <;>
        simp [HostEventQueue.perform, hpush, recordedDrops, QueueNote.recorded]
  | push hget hevents hdropped hnext hself hother =>
    exact h.push hget hevents hdropped hnext hself hother htotal
  | record hevents hdropped hnext hresources =>
    refine h.operate ?_ ?_ hevents hnext hresources htotal
    · intro id
      simp [HostEventQueue.perform, pushedSequences, pushedEdges, QueueNote.pushedEdge]
    · rw [hdropped]
      simp [HostEventQueue.perform, recordedDrops, QueueNote.recorded]

lemma conserving_new (hnew : Runtime.new states edges = ok s) :
    Conserving states edges ⟨s, [], 0⟩ := by
  rw [Runtime.new] at hnew
  split_ifs at hnew
  obtain rfl := Outcome.ok.inj hnew
  refine ⟨flow_new states edges, rfl, rfl, rfl, ?_, fun _ => rfl, ?_, fun _ _ => rfl⟩
  · intro id n hget
    cases hget
  · intro id n hget
    cases hget

lemma total_le_observe (o : Observed) (a : Action) : o.total ≤ (observe o a).total := by
  show _ ≤ (pushedEdges (o.log ++ notesOfOp o.runtime.events (o.runtime.queueOp a))).length +
    (o.drops + o.runtime.producerDrops a)
  rw [Observed.total, pushedEdges_append, List.length_append]
  omega

/-- The invariant holds as long as the events of the run can be counted. -/
lemma conserving_observed (hnew : Runtime.new states edges = ok s) (actions : List Action)
    (htotal : (observed s actions).total < U64.size) :
    Conserving states edges (observed s actions) := by
  induction actions using List.reverseRecOn with
  | nil => exact conserving_new hnew
  | append_singleton actions a ih =>
    have hlast : observed s (actions ++ [a]) = observe (observed s actions) a := run_append _ _ _
    rw [hlast] at htotal ⊢
    have hbefore := ih ((total_le_observe _ a).trans_lt htotal)
    exact hbefore.step ((observed s actions).runtime.queueStep a) htotal

end Conserving

/-- The notes are kept beside the run, which they do not change. -/
lemma runtime_observed {s : Runtime} (actions : List Action) :
    (observed s actions).runtime = (s.exec actions).1 := by
  induction actions using List.reverseRecOn with
  | nil => rfl
  | append_singleton actions a ih =>
    have hobserved : observed s (actions ++ [a]) = observe (observed s actions) a :=
      run_append _ _ _
    have hexec : s.exec (actions ++ [a]) = Runtime.stepNoting (s.exec actions) a :=
      run_append _ _ _
    rw [hobserved, hexec]
    show ((observed s actions).runtime.step a).1 = ((s.exec actions).1.step a).1
    rw [ih]

/-! ## Conservation -/

/-- What has become of the events of a run. -/
structure Accounted (states edges : ℕ) (o : Observed) : Prop where
  /-- edges come out in the order in which they went in, each at most once -/
  order : (poppedEdges o.log ++ o.runtime.events.edgeEvents).Sublist (pushedEdges o.log)
  count : o.total = (poppedEdges o.log).length + o.runtime.events.edgeEvents.length +
    reportedDrops o.log + (o.runtime.events.droppedEdgeEvents + o.runtime.dropped)
  /-- a state that is popped was the last one pushed, and was not popped before -/
  latest : PoppedLatest o.log
  /-- a state that is popped later was pushed in between -/
  later : ∀ before between after generation generation' state state',
    o.log = before ++ .popped (.capabilityChanged generation state) :: (between ++
      .popped (.capabilityChanged generation' state') :: after) →
    state'.capability = state.capability → .state generation' state' ∈ between
  stateLimit : o.runtime.events.stateEvents.len ≤ states
  edgeLimit : o.runtime.events.edgeEvents.length ≤ edges
  sequences : ∀ id, (poppedSequences id o.log).Pairwise (· < ·)

lemma Conserving.accounted {states edges : ℕ} {o : Observed} (h : Conserving states edges o) :
    Accounted states edges o where
  order := h.flow.order
  count := by
    have hcount := h.flow.count
    have hdrops := h.drops
    rw [eventCount] at hcount
    rw [Observed.total]
    omega
  latest := h.flow.popped
  later := by
    intro before between after generation generation' state state' hlog hsame
    have hpopped := h.flow.popped
    rw [hlog] at hpopped
    exact hpopped.pushed_later hsame
  stateLimit := h.stateMaximum ▸ h.flow.stateLimit
  edgeLimit := h.edgeMaximum ▸ h.flow.edgeLimit
  sequences := by
    intro id
    have hincreasing : (pushedSequences id o.log).Pairwise (· < ·) := by
      rw [h.sequences id]
      exact List.pairwise_lt_range'
    have hpopped : (poppedEdges o.log).Sublist (pushedEdges o.log) :=
      (List.sublist_append_left _ _).trans h.flow.order
    exact hincreasing.sublist (hpopped.filterMap _)

/-- In every run of the runtime with fewer than 2^64 events, all events are accounted for. -/
theorem events_conserved {states edges : ℕ} {s : Runtime} (hnew : Runtime.new states edges = ok s)
    (actions : List Action) (htotal : (observed s actions).total < U64.size) :
    (observed s actions).runtime = (s.exec actions).1 ∧
      Accounted states edges (observed s actions) := by
  refine ⟨?_, (conserving_observed hnew actions htotal).accounted⟩
  exact runtime_observed actions

/-- A resource that emits once, with no slot for a second event; the queue has room for one. -/
def oneSlot : List Action :=
  [.openResource true, .call 0 1 (.emit [7] true), .resume 0, .call 0 1 (.emit [8] false),
    .pushCompletion 4 (.error .denied) 1, .startPump 1, .resumePump, .resumePump, .resumePump,
    .resumePump, .resumePump, .resumePump, .pushCapability 2 ⟨"media.read.v1", false, .granted⟩,
    .popEvent, .popEvent, .popEvent]

/-- The state comes first, then the completion; the two events of the resource are reported. -/
theorem events_conserved_oneSlot :
    (observed (.initial 1 1) oneSlot).log =
      [.edge (.completion 4 (.error .denied)), .edge (.resourceEvent 1 1 (.success [7])),
        .dropped 1, .state 2 ⟨"media.read.v1", false, .granted⟩,
        .popped (.capabilityChanged 2 ⟨"media.read.v1", false, .granted⟩),
        .popped (.completion 4 (.error .denied)), .popped (.overflow 1 2)] ∧
      Accounted 1 1 (observed (.initial 1 1) oneSlot) := by
  have hnew : Runtime.new 1 1 = ok (.initial 1 1) := rfl
  have htotal : (observed (.initial 1 1) oneSlot).total < U64.size := by
    decide
  exact ⟨by decide, (events_conserved hnew oneSlot htotal).2⟩

end TouchBar.Supervisor
