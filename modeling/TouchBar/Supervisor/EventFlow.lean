import TouchBar.Supervisor.Events

/-!
# What goes through the event queue

The queue keeps states, edges and counts of dropped edges apart.  Here its operations are put
on one list of notes: what was pushed, what was dropped before it came to the queue, and what
was popped.  An edge that was pushed has been popped, waits, or is counted as dropped; a state
that is popped is the last one that was pushed for its capability.
-/

namespace TouchBar.Supervisor

open TouchBar.Rust TouchBar.Lib TouchBar.Protocol Outcome

/-! ## Operations and notes -/

/-- The methods that change a queue. -/
inductive QueueOp where
  | pushCapability (generation : ℕ) (state : CapabilityState)
  | pushCompletion (requestId : ℕ) (result : BrokerResult) (generation : ℕ)
  | pushResource (resourceId sequence : ℕ) (result : BrokerResult) (generation : ℕ)
  | recordDropped (droppedEvents generation : ℕ)
  | pop
deriving DecidableEq, Repr

/-- What an operation has done.  A state that was refused leaves no note. -/
inductive QueueNote where
  | state (generation : ℕ) (state : CapabilityState)
  | edge (event : HostEvent)
  | dropped (droppedEvents : ℕ)
  | popped (event : HostEvent)
deriving DecidableEq, Repr

def HostEventQueue.perform (q : HostEventQueue) : QueueOp → HostEventQueue × List QueueNote
  | .pushCapability generation state =>
    match q.pushCapability generation state with
    | ok q => (q, [.state generation state])
    | _ => (q, [])
  | .pushCompletion requestId result generation =>
    (q.pushCompletion requestId result generation, [.edge (.completion requestId result)])
  | .pushResource resourceId sequence result generation =>
    (q.pushResource resourceId sequence result generation,
      [.edge (.resourceEvent resourceId sequence result)])
  | .recordDropped droppedEvents generation =>
    (q.recordDropped droppedEvents generation, [.dropped droppedEvents])
  | .pop => (q.pop.1, q.pop.2.toList.map .popped)

def HostEvent.isEdge : HostEvent → Bool
  | completion _ _ => true
  | resourceEvent _ _ _ => true
  | _ => false

namespace QueueNote

def pushedEdge : QueueNote → Option HostEvent
  | edge event => some event
  | _ => none

def poppedEdge : QueueNote → Option HostEvent
  | popped event => if event.isEdge then some event else none
  | _ => none

/-- The drops that a producer had counted. -/
def recorded : QueueNote → ℕ
  | dropped droppedEvents => droppedEvents
  | _ => 0

/-- The drops that were reported to the host. -/
def reported : QueueNote → ℕ
  | popped (.overflow _ droppedEvents) => droppedEvents
  | _ => 0

/-- The capability that a note is about. -/
def capability : QueueNote → Option String
  | state _ pushed => some pushed.capability
  | popped (.capabilityChanged _ shown) => some shown.capability
  | _ => none

end QueueNote

def pushedEdges (log : List QueueNote) : List HostEvent := log.filterMap QueueNote.pushedEdge

def poppedEdges (log : List QueueNote) : List HostEvent := log.filterMap QueueNote.poppedEdge

def recordedDrops (log : List QueueNote) : ℕ := (log.map QueueNote.recorded).sum

def reportedDrops (log : List QueueNote) : ℕ := (log.map QueueNote.reported).sum

/-- The events that have come to the queue, with those that were dropped on the way. -/
def eventCount (log : List QueueNote) : ℕ := (pushedEdges log).length + recordedDrops log

/-- The state is the last one that was pushed for its capability, and was not popped since. -/
def Latest (log : List QueueNote) (generation : ℕ) (state : CapabilityState) : Prop :=
  ∃ before after, log = before ++ .state generation state :: after ∧
    ∀ note ∈ after, note.capability ≠ some state.capability

/-- Each state that was popped was the latest one. -/
def PoppedLatest (log : List QueueNote) : Prop :=
  ∀ before after generation state,
    log = before ++ .popped (.capabilityChanged generation state) :: after →
      Latest before generation state

/-! ## One more note -/

section Append

variable {log : List QueueNote} {note : QueueNote} {generation : ℕ} {state : CapabilityState}

lemma pushedEdges_append (log more : List QueueNote) :
    pushedEdges (log ++ more) = pushedEdges log ++ pushedEdges more :=
  List.filterMap_append

lemma recordedDrops_append (log more : List QueueNote) :
    recordedDrops (log ++ more) = recordedDrops log + recordedDrops more := by
  simp [recordedDrops]

lemma reportedDrops_append (log more : List QueueNote) :
    reportedDrops (log ++ more) = reportedDrops log + reportedDrops more := by
  simp [reportedDrops]

lemma Latest.append (h : Latest log generation state)
    (hne : note.capability ≠ some state.capability) :
    Latest (log ++ [note]) generation state := by
  obtain ⟨before, after, rfl, hafter⟩ := h
  refine ⟨before, after ++ [note], by simp, ?_⟩
  intro other hother
  rcases List.mem_append.mp hother with hmem | hmem
  · exact hafter other hmem
  · rw [List.mem_singleton.mp hmem]
    exact hne

lemma latest_append_state : Latest (log ++ [.state generation state]) generation state := by
  refine ⟨log, [], rfl, ?_⟩
  intro other hother
  cases hother

lemma PoppedLatest.append (h : PoppedLatest log)
    (hnote : ∀ generation state, note = .popped (.capabilityChanged generation state) →
      Latest log generation state) : PoppedLatest (log ++ [note]) := by
  intro before after generation state heq
  rcases List.eq_nil_or_concat after with rfl | ⟨after, last, rfl⟩
  · obtain ⟨rfl, hlast⟩ := List.append_inj' heq rfl
    exact hnote generation state (List.head_eq_of_cons_eq hlast)
  · -- the pop was not the last note
    have hsplit : log ++ [note] =
        (before ++ .popped (.capabilityChanged generation state) :: after) ++ [last] := by
      rw [heq]
      simp
    obtain ⟨hlog, -⟩ := List.append_inj' hsplit rfl
    exact h before after generation state hlog

end Append

/-! ## The flow through a queue -/

/-- How a queue and its notes fit together. -/
structure Flow (q : HostEventQueue) (log : List QueueNote) : Prop where
  /-- what was popped and what waits comes in the order in which it was pushed -/
  order : (poppedEdges log ++ q.edgeEvents).Sublist (pushedEdges log)
  edges : ∀ event ∈ q.edgeEvents, event.isEdge = true
  count : eventCount log =
    (poppedEdges log).length + q.edgeEvents.length + reportedDrops log + q.droppedEdgeEvents
  states : ∀ capability generation state,
    q.stateEvents.get capability = some (generation, state) →
      capability = state.capability ∧ Latest log generation state
  popped : PoppedLatest log
  stateLimit : q.stateEvents.len ≤ q.maximumStateEvents
  edgeLimit : q.edgeEvents.length ≤ q.maximumEdgeEvents

section Steps

variable {q : HostEventQueue} {log : List QueueNote}

lemma flow_new (maximumStateEvents maximumEdgeEvents : ℕ) :
    Flow (.new maximumStateEvents maximumEdgeEvents) [] where
  order := List.Sublist.refl _
  edges := by
    intro event hevent
    cases hevent
  count := rfl
  states := by
    intro capability generation state hget
    cases hget
  popped := by
    intro before after generation state heq
    simp at heq
  stateLimit := Nat.zero_le _
  edgeLimit := Nat.zero_le _

/-- A state that is taken replaces the one before it. -/
lemma Flow.pushCapability (h : Flow q log) {generation : ℕ} {state : CapabilityState}
    {q' : HostEventQueue} (hpush : q.pushCapability generation state = ok q') :
    Flow q' (log ++ [.state generation state]) := by
  rw [HostEventQueue.pushCapability] at hpush
  split_ifs at hpush with hfull
  obtain rfl := Outcome.ok.inj hpush
  have hpushed : pushedEdges (log ++ [.state generation state]) = pushedEdges log := by
    simp [pushedEdges, QueueNote.pushedEdge]
  have hpopped : poppedEdges (log ++ [.state generation state]) = poppedEdges log := by
    simp [poppedEdges, QueueNote.poppedEdge]
  refine ⟨?_, h.edges, ?_, ?_, ?_, ?_, h.edgeLimit⟩
  · rw [hpushed, hpopped]
    exact h.order
  · have hcount := h.count
    simp only [eventCount, hpushed, hpopped, recordedDrops_append, reportedDrops_append] at hcount ⊢
    simpa [recordedDrops, reportedDrops, QueueNote.recorded, QueueNote.reported] using hcount
  · intro capability generation' state' hget
    rw [BTreeMap.get_insert] at hget
    split_ifs at hget with hsame
    · obtain ⟨rfl, rfl⟩ := Prod.mk.inj (Option.some.inj hget)
      exact ⟨hsame, latest_append_state⟩
    · obtain ⟨rfl, hlatest⟩ := h.states capability generation' state' hget
      refine ⟨rfl, hlatest.append ?_⟩
      intro heq
      exact hsame (Option.some.inj heq).symm
  · exact h.popped.append (by rintro _ _ ⟨⟩)
  · -- there was room, or the capability waits already
    show (q.stateEvents.insert state.capability (generation, state)).len ≤ q.maximumStateEvents
    cases hget : q.stateEvents.get state.capability with
    | none =>
      rw [BTreeMap.len_insert hget]
      have hnew : q.stateEvents.containsKey state.capability = false :=
        BTreeMap.containsKey_eq_false_iff.mpr hget
      simp only [hnew, Bool.not_false, Bool.true_and, decide_eq_true_eq, not_le] at hfull
      omega
    | some old =>
      have hlen := BTreeMap.countP_insert (fun _ => true) hget (generation, state)
      simp only [List.countP_true, if_true, Nat.add_right_cancel_iff] at hlen
      exact hlen.trans_le h.stateLimit

/-- An edge is queued, or counted where there is no room for it. -/
lemma Flow.pushEdge (h : Flow q log) {event : HostEvent} (generation : ℕ)
    (hedge : event.isEdge = true) (hcount : eventCount (log ++ [.edge event]) < U64.size) :
    Flow (q.pushEdge event generation) (log ++ [.edge event]) := by
  have hpushed : pushedEdges (log ++ [.edge event]) = pushedEdges log ++ [event] :=
    pushedEdges_append _ _
  have hpopped : poppedEdges (log ++ [.edge event]) = poppedEdges log := by
    simp [poppedEdges, QueueNote.poppedEdge]
  have hevents : eventCount (log ++ [.edge event]) = eventCount log + 1 := by
    simp only [eventCount, hpushed, recordedDrops_append, List.length_append]
    simp [recordedDrops, QueueNote.recorded]
    omega
  have hreported : reportedDrops (log ++ [.edge event]) = reportedDrops log := by
    simp [reportedDrops, QueueNote.reported]
  have hbefore := h.count
  have hstates : ∀ capability generation state,
      q.stateEvents.get capability = some (generation, state) →
        capability = state.capability ∧ Latest (log ++ [.edge event]) generation state := by
    intro capability generation state hget
    obtain ⟨hsame, hlatest⟩ := h.states capability generation state hget
    exact ⟨hsame, hlatest.append (by simp [QueueNote.capability])⟩
  have hpoppedLatest : PoppedLatest (log ++ [.edge event]) :=
    h.popped.append (by rintro _ _ ⟨⟩)
  rw [HostEventQueue.pushEdge]
  split_ifs with hfull
  · refine ⟨?_, h.edges, ?_, hstates, hpoppedLatest, h.stateLimit, h.edgeLimit⟩
    · rw [hpushed, hpopped]
      exact h.order.trans (List.sublist_append_left _ _)
    · rw [hevents, hpopped, hreported]
      -- the count does not saturate, as it is part of all the events
      have hsum : U64.saturatingAdd q.droppedEdgeEvents 1 = q.droppedEdgeEvents + 1 := by
        rw [U64.saturatingAdd]
        omega
      show _ = (poppedEdges log).length + q.edgeEvents.length + reportedDrops log +
        U64.saturatingAdd q.droppedEdgeEvents 1
      omega
  · refine ⟨?_, ?_, ?_, hstates, hpoppedLatest, h.stateLimit, ?_⟩
    · rw [hpushed, hpopped, ← List.append_assoc]
      exact h.order.append (List.Sublist.refl _)
    · intro other hother
      rcases List.mem_append.mp hother with hmem | hmem
      · exact h.edges other hmem
      · rw [List.mem_singleton.mp hmem]
        exact hedge
    · rw [hevents, hpopped, hreported]
      show _ = (poppedEdges log).length + (q.edgeEvents ++ [event]).length +
        reportedDrops log + q.droppedEdgeEvents
      rw [List.length_append, List.length_singleton]
      omega
    · show (q.edgeEvents ++ [event]).length ≤ q.maximumEdgeEvents
      have hroom : q.edgeEvents.length ≠ q.maximumEdgeEvents := by
        simpa [HostEventQueue.full] using hfull
      have hlimit := h.edgeLimit
      rw [List.length_append, List.length_singleton]
      omega

lemma Flow.recordDropped (h : Flow q log) {droppedEvents : ℕ} (generation : ℕ)
    (hcount : eventCount (log ++ [.dropped droppedEvents]) < U64.size) :
    Flow (q.recordDropped droppedEvents generation) (log ++ [.dropped droppedEvents]) := by
  have hpushed : pushedEdges (log ++ [.dropped droppedEvents]) = pushedEdges log := by
    simp [pushedEdges, QueueNote.pushedEdge]
  have hpopped : poppedEdges (log ++ [.dropped droppedEvents]) = poppedEdges log := by
    simp [poppedEdges, QueueNote.poppedEdge]
  have hevents : eventCount (log ++ [.dropped droppedEvents]) = eventCount log + droppedEvents := by
    simp only [eventCount, hpushed, recordedDrops_append]
    simp [recordedDrops, QueueNote.recorded]
    omega
  have hreported : reportedDrops (log ++ [.dropped droppedEvents]) = reportedDrops log := by
    simp [reportedDrops, QueueNote.reported]
  have hbefore := h.count
  refine ⟨?_, h.edges, ?_, ?_, ?_, h.stateLimit, h.edgeLimit⟩
  · rw [hpushed, hpopped]
    exact h.order
  · rw [hevents, hpopped, hreported]
    have hsum : U64.saturatingAdd q.droppedEdgeEvents droppedEvents =
        q.droppedEdgeEvents + droppedEvents := by
      rw [U64.saturatingAdd]
      omega
    show _ = (poppedEdges log).length + q.edgeEvents.length + reportedDrops log +
      U64.saturatingAdd q.droppedEdgeEvents droppedEvents
    omega
  · intro capability generation state hget
    obtain ⟨hsame, hlatest⟩ := h.states capability generation state hget
    exact ⟨hsame, hlatest.append (by simp [QueueNote.capability])⟩
  · exact h.popped.append (by rintro _ _ ⟨⟩)

/-! ### Popping -/

lemma eventCount_append_popped (log : List QueueNote) (event : HostEvent) :
    pushedEdges (log ++ [.popped event]) = pushedEdges log ∧
      eventCount (log ++ [.popped event]) = eventCount log := by
  have hpushed : pushedEdges (log ++ [.popped event]) = pushedEdges log := by
    simp [pushedEdges, QueueNote.pushedEdge]
  refine ⟨hpushed, ?_⟩
  rw [eventCount, eventCount, hpushed]
  simp [recordedDrops, QueueNote.recorded]

/-- The first state is popped, and nothing else waits for its capability. -/
lemma Flow.popState (h : Flow q log) {capability : String} {generation : ℕ}
    {state : CapabilityState}
    (hget : q.stateEvents.get capability = some (generation, state)) :
    Flow { q with stateEvents := q.stateEvents.remove capability }
      (log ++ [.popped (.capabilityChanged generation state)]) := by
  obtain ⟨hpushed, hevents⟩ :=
    eventCount_append_popped log (.capabilityChanged generation state)
  have hpopped : poppedEdges (log ++ [.popped (.capabilityChanged generation state)]) =
      poppedEdges log := by
    simp [poppedEdges, QueueNote.poppedEdge, HostEvent.isEdge]
  have hreported : reportedDrops (log ++ [.popped (.capabilityChanged generation state)]) =
      reportedDrops log := by
    simp [reportedDrops, QueueNote.reported]
  obtain ⟨hsame, hlatest⟩ := h.states capability generation state hget
  refine ⟨?_, h.edges, ?_, ?_, ?_, ?_, h.edgeLimit⟩
  · rw [hpushed, hpopped]
    exact h.order
  · rw [hevents, hpopped, hreported]
    exact h.count
  · intro other generation' state' hother
    rw [BTreeMap.get_remove] at hother
    split_ifs at hother with hne
    obtain ⟨hkey, hlatest'⟩ := h.states other generation' state' hother
    refine ⟨hkey, hlatest'.append ?_⟩
    intro heq
    have hcapability : state.capability = state'.capability := Option.some.inj heq
    exact hne (hkey.trans (hcapability.symm.trans hsame.symm))
  · refine h.popped.append ?_
    rintro _ _ ⟨⟩
    exact hlatest
  · exact BTreeMap.len_remove_le.trans h.stateLimit

/-- The first edge is popped once no state waits. -/
lemma Flow.popEdge (h : Flow q log) {event : HostEvent} {edges : List HostEvent}
    (hedges : q.edgeEvents = event :: edges) :
    Flow { q with edgeEvents := edges } (log ++ [.popped event]) := by
  have hedge : event.isEdge = true := h.edges event (by simp [hedges])
  obtain ⟨hpushed, hevents⟩ := eventCount_append_popped log event
  have hpopped : poppedEdges (log ++ [.popped event]) = poppedEdges log ++ [event] := by
    simp [poppedEdges, QueueNote.poppedEdge, hedge]
  have hreported : reportedDrops (log ++ [.popped event]) = reportedDrops log := by
    cases event <;> simp [HostEvent.isEdge] at hedge <;> simp [reportedDrops, QueueNote.reported]
  have hcapability : (QueueNote.popped event).capability = none := by
    cases event <;> simp [HostEvent.isEdge] at hedge <;> rfl
  refine ⟨?_, ?_, ?_, ?_, ?_, h.stateLimit, ?_⟩
  · have horder := h.order
    rw [hedges] at horder
    rw [hpushed, hpopped, List.append_assoc]
    exact horder
  · intro other hother
    refine h.edges other ?_
    rw [hedges]
    exact List.mem_cons_of_mem _ hother
  · have hcount := h.count
    rw [hedges, List.length_cons] at hcount
    rw [hevents, hpopped, hreported, List.length_append, List.length_singleton]
    show _ = (poppedEdges log).length + 1 + edges.length + reportedDrops log + q.droppedEdgeEvents
    omega
  · intro capability generation state hget
    obtain ⟨hsame, hlatest⟩ := h.states capability generation state hget
    exact ⟨hsame, hlatest.append (by simp [hcapability])⟩
  · refine h.popped.append ?_
    rintro generation state ⟨⟩
    cases hedge
  · have hlimit := h.edgeLimit
    rw [hedges, List.length_cons] at hlimit
    show edges.length ≤ q.maximumEdgeEvents
    omega

/-- The count of dropped edges is popped when nothing else waits. -/
lemma Flow.popOverflow (h : Flow q log) :
    Flow { q with droppedEdgeEvents := 0, overflowGeneration := 0 }
      (log ++ [.popped (.overflow q.overflowGeneration q.droppedEdgeEvents)]) := by
  obtain ⟨hpushed, hevents⟩ :=
    eventCount_append_popped log (.overflow q.overflowGeneration q.droppedEdgeEvents)
  have hpopped : poppedEdges
      (log ++ [.popped (.overflow q.overflowGeneration q.droppedEdgeEvents)]) =
        poppedEdges log := by
    simp [poppedEdges, QueueNote.poppedEdge, HostEvent.isEdge]
  have hreported : reportedDrops
      (log ++ [.popped (.overflow q.overflowGeneration q.droppedEdgeEvents)]) =
        reportedDrops log + q.droppedEdgeEvents := by
    simp [reportedDrops, QueueNote.reported]
  refine ⟨?_, h.edges, ?_, ?_, ?_, h.stateLimit, h.edgeLimit⟩
  · rw [hpushed, hpopped]
    exact h.order
  · have hcount := h.count
    rw [hevents, hpopped, hreported]
    show _ = (poppedEdges log).length + q.edgeEvents.length +
      (reportedDrops log + q.droppedEdgeEvents) + 0
    omega
  · intro capability generation state hget
    obtain ⟨hsame, hlatest⟩ := h.states capability generation state hget
    exact ⟨hsame, hlatest.append (by simp [QueueNote.capability])⟩
  · exact h.popped.append (by rintro _ _ ⟨⟩)

lemma Flow.pop (h : Flow q log) : Flow q.pop.1 (log ++ q.pop.2.toList.map .popped) := by
  rw [HostEventQueue.pop]
  cases hstates : q.stateEvents.entries with
  | cons entry rest =>
    obtain ⟨capability, generation, state⟩ := entry
    refine h.popState (BTreeMap.get_eq_some_iff.mpr ?_)
    rw [hstates]
    exact List.mem_cons_self
  | nil =>
    cases hedges : q.edgeEvents with
    | cons event edges => exact h.popEdge hedges
    | nil =>
      by_cases hdropped : 0 < q.droppedEdgeEvents
      · have hpop := h.popOverflow
        rw [hedges] at hpop
        simp only [hdropped, if_true]
        exact hpop
      · simp only [hdropped, if_false]
        show Flow q (log ++ [])
        rw [List.append_nil]
        exact h

/-- Each operation of the queue keeps the flow. -/
theorem Flow.perform (h : Flow q log) (op : QueueOp)
    (hcount : eventCount (log ++ (q.perform op).2) < U64.size) :
    Flow (q.perform op).1 (log ++ (q.perform op).2) := by
  cases op with
  | pushCapability generation state =>
    cases hpush : q.pushCapability generation state with
    | ok q' =>
      simp only [HostEventQueue.perform, hpush]
      exact h.pushCapability hpush
    | err code =>
      simp only [HostEventQueue.perform, hpush, List.append_nil]
      exact h
    | panic =>
      simp only [HostEventQueue.perform, hpush, List.append_nil]
      exact h
  | pushCompletion requestId result generation => exact h.pushEdge generation rfl hcount
  | pushResource resourceId sequence result generation => exact h.pushEdge generation rfl hcount
  | recordDropped droppedEvents generation => exact h.recordDropped generation hcount
  | pop => exact h.pop

end Steps

/-! ## States that were popped -/

/-- After a state was popped, one that is popped later was also pushed later. -/
theorem PoppedLatest.pushed_later {before between after : List QueueNote}
    {generation generation' : ℕ} {state state' : CapabilityState}
    (h : PoppedLatest (before ++ .popped (.capabilityChanged generation state) :: (between ++
      .popped (.capabilityChanged generation' state') :: after)))
    (hsame : state'.capability = state.capability) :
    QueueNote.state generation' state' ∈ between := by
  obtain ⟨front, back, hsplit, hback⟩ :=
    h (before ++ .popped (.capabilityChanged generation state) :: between) after generation' state'
      (by simp)
  rcases List.append_eq_append_iff.mp hsplit with ⟨middle, -, hrest⟩ | ⟨middle, -, hrest⟩
  · cases middle with
    | nil => cases hrest
    | cons note middle =>
      obtain ⟨-, hbetween⟩ := List.cons.inj hrest
      rw [hbetween]
      exact List.mem_append_right _ List.mem_cons_self
  · -- the push would come before the first pop, which is about the same capability
    exfalso
    cases middle with
    | nil => cases hrest
    | cons note middle =>
      obtain ⟨-, htail⟩ := List.cons.inj hrest
      refine hback (.popped (.capabilityChanged generation state)) ?_ ?_
      · rw [htail]
        exact List.mem_append_right _ List.mem_cons_self
      · exact congrArg some hsame.symm

end TouchBar.Supervisor
