import TouchBar.Broker.Serving

/-!
# What a step of the loop changes

Seen from the requests there are five kinds of step: one about no request, one that refuses
a message, one that answers a message at once, one that takes an operation in hand, and one
that finishes an operation.  Every step of the loop is one of these and keeps the invariant
`Serving`; it never panics.
-/

namespace TouchBar.Broker

open TouchBar.Rust TouchBar.Lib TouchBar.Policy TouchBar.Supervisor TouchBar.Protocol Outcome

open SupervisorConnection (AuditsOf Handled Handles handleRequest_spec replacePolicy_spec)

namespace ServeLoop

/-- A send, if the loop is still running after it. -/
def delivered (s : ServeLoop) (message : Effect) : List Effect :=
  if s.exit.isSome then [] else [message]

/-- An effect that is about no request. -/
def Neutral : Effect → Prop
  | .violation => True
  | .sent message => answersTo message = none
  | _ => False

/-- The record of an operation that has finished, if one was pending. -/
def Completes (s : ServeLoop) (requestId : ℕ) (effects : List Effect) : Prop :=
  if s.connection.pendingAudit.containsKey requestId then
    ∃ record, effects = [.audited requestId record]
  else effects = []

/-- The operations that a turn which ends the loop leaves in hand; `flush` has taken its event
from the queue when its send fails. -/
def remaining (s : ServeLoop) : List ℕ :=
  match s.tasks with
  | .flush :: _ => s.runtime.executor.active.keys ++ waiting s.runtime.events.pop.1
  | _ => s.runtime.inHand

/-- The kinds of step. -/
inductive Change (s s' : ServeLoop) : Prop
  | neutral (effects : List Effect) (heffects : ∀ effect ∈ effects, Neutral effect)
      (hlog : s'.log = s.log ++ effects) (hhand : s'.runtime.inHand.Perm s.runtime.inHand)
      (hpending : s'.connection.pendingAudit = s.connection.pendingAudit)
      (hlast : s'.connection.lastRequestId = s.connection.lastRequestId)
  | refused (message : HostMessage)
      (hstale : (requestIdOf message).toNat ≤ s.connection.lastRequestId)
      (hlog : s'.log = s.log ++ .received message :: .violation :: s'.delivered
        (.refused (.response (requestIdOf message) (.error .invalidRequest))))
      (hhand : s'.runtime.inHand.Perm s.runtime.inHand)
      (hpending : s'.connection.pendingAudit = s.connection.pendingAudit)
      (hlast : s'.connection.lastRequestId = s.connection.lastRequestId)
  | answered (message : HostMessage) (effects : List Effect) (reply : SupervisorMessage)
      (hfresh : s.connection.lastRequestId < (requestIdOf message).toNat)
      (haudits : AuditsOf message effects) (hreply : answersTo reply = some (requestIdOf message))
      (hlog : s'.log = s.log ++ .received message :: (effects ++ s'.delivered (.sent reply)))
      (hhand : s'.runtime.inHand.Perm s.runtime.inHand)
      (hpending : s'.connection.pendingAudit = s.connection.pendingAudit)
      (hlast : s'.connection.lastRequestId = (requestIdOf message).toNat)
  | submitted (message : HostMessage) (audit : PendingAudit)
      (hfresh : s.connection.lastRequestId < (requestIdOf message).toNat)
      (hcall : isOperation message = true) (hlog : s'.log = s.log ++ [.received message])
      (hhand : s'.runtime.inHand.Perm ((requestIdOf message).toNat :: s.runtime.inHand))
      (hpending : s'.connection.pendingAudit =
        s.connection.pendingAudit.insert (requestIdOf message).toNat audit)
      (hlast : s'.connection.lastRequestId = (requestIdOf message).toNat)
  | finished (requestId : ℕ) (result : BrokerResult) (effects : List Effect)
      (heffects : s.Completes requestId effects)
      (hlog : s'.log = s.log ++ (effects ++ s'.delivered
        (.sent (.response (.ofNat requestId) result))))
      (hhand : s.runtime.inHand.Perm (requestId :: s'.runtime.inHand))
      (hpending : s'.connection.pendingAudit = s.connection.pendingAudit.remove requestId)
      (hlast : s'.connection.lastRequestId = s.connection.lastRequestId)

variable {s s' : ServeLoop} {a : Answers} {rest : List Task}

/-- A step that does nothing for a request, and notes nothing. -/
lemma change_of_eq (hlog : s'.log = s.log) (hhand : s'.runtime.inHand.Perm s.runtime.inHand)
    (hpending : s'.connection.pendingAudit = s.connection.pendingAudit)
    (hlast : s'.connection.lastRequestId = s.connection.lastRequestId) : Change s s' :=
  .neutral [] (by simp) (hlog.trans (List.append_nil _).symm) hhand hpending hlast

/-- What is proved of a turn. -/
structure Turned (s s' : ServeLoop) : Prop where
  serving : Serving s'
  change : Change s s'
  no_panic : s'.exit ≠ some .panicked
  left : s'.exit ≠ none → s'.runtime.inHand.Perm s.remaining

lemma remaining_eq {task : Task} (htasks : s.tasks = task :: rest) (htask : task ≠ .flush) :
    s.remaining = s.runtime.inHand := by
  rw [remaining, htasks]
  cases task with
  | flush => exact absurd rfl htask
  | _ => rfl

/-- A turn that leaves the loop and changes nothing else. -/
lemma turned_leave (h : Serving s) {exit : Exit} (hexit : exit ≠ .panicked)
    (hleft : s.remaining = s.runtime.inHand) : Turned s (s.leave exit) where
  serving := ⟨h.coherent, h.configured, h.capacity, h.workers, h.orderly, h.idle,
    fun hup => by cases hup⟩
  change := change_of_eq rfl (.refl _) rfl rfl
  no_panic hpanic := hexit (Option.some.inj hpanic)
  left _ := by
    rw [hleft]
    exact .refl _

/-- A turn that goes on to other tasks with an empty queue. -/
lemma turned_tasks (h : Serving s) (hup : s.exit = none)
    (hedges : s.runtime.events.edgeEvents = []) (hidle : s.runtime.resources.pump = .idle)
    {tasks : List Task} (htasks : Orderly tasks) : Turned s { s with tasks := tasks } where
  serving := ⟨h.coherent, h.configured, h.capacity, h.workers, htasks, fun _ => hidle,
    fun _ => h.room_of_empty hedges tasks⟩
  change := change_of_eq rfl (.refl _) rfl rfl
  no_panic hpanic := by
    rw [show ({ s with tasks := tasks } : ServeLoop).exit = none from hup] at hpanic
    cases hpanic
  left hexit := absurd hup hexit

/-! ## One lemma for each task -/

lemma turn_completions (h : Serving s) (hup : s.exit = none)
    (htasks : s.tasks = .completions :: rest) :
    Turned s (s.turn a) := by
  have hidle := h.idle (by simp [htasks])
  have horderly := h.orderly
  have hroom := h.room hup
  have hleft := remaining_eq htasks (by simp)
  rw [htasks] at horderly hroom
  rw [turn, htasks]
  dsimp only
  split_ifs with hfails
  · exact turned_leave h (by simp) hleft
  · rcases AsyncBrokerRuntime.pumpCompletion_spec h.coherent hidle s.connection.generation hroom
      with
      ⟨hnone, -⟩ | ⟨hsome, hadvances, hidle', hhand, hroom', -⟩
    · -- the channel is empty: the next task fills or flushes the queue
      generalize s.runtime.pumpCompletion s.connection.generation = pumped at hnone ⊢
      obtain ⟨found, runtime⟩ := pumped
      subst hnone
      refine ⟨h.advance (.refl _) rfl horderly.2 (fun _ => hidle) fun _ => ?_,
        change_of_eq rfl (.refl _) rfl rfl, by simp [hup], fun hexit => absurd hup hexit⟩
      dsimp only
      rcases horderly.1 with hnext | hnext <;> rw [Room, hnext] <;> trivial
    · generalize s.runtime.pumpCompletion s.connection.generation = pumped at *
      obtain ⟨found, runtime⟩ := pumped
      subst hsome
      exact ⟨h.advance hadvances rfl horderly (fun _ => hidle') fun _ => hroom',
        change_of_eq rfl hhand rfl rfl, by simp [hup], fun hexit => absurd hup hexit⟩

lemma turn_startPump (h : Serving s) (hup : s.exit = none) (htasks : s.tasks = .startPump :: rest) :
    Turned s (s.turn a) := by
  have hidle := h.idle (by simp [htasks])
  have horderly := h.orderly
  rw [htasks] at horderly
  obtain ⟨hadvances, hexecutor, hevents⟩ :=
    AsyncBrokerRuntime.startPump_spec hidle s.connection.generation
  have hnext : rest.head? = some .resumePump := horderly.1
  rw [turn, htasks]
  refine ⟨h.advance hadvances rfl horderly.2 (fun hne => absurd hnext hne) fun _ => ?_,
    change_of_eq rfl ?_ rfl rfl, by simp [hup], fun hexit => absurd hup hexit⟩
  · dsimp only
    rw [Room, hnext]
    trivial
  · change (AsyncBrokerRuntime.inHand (s.runtime.perform _).2).Perm _
    rw [AsyncBrokerRuntime.inHand, hexecutor, hevents]
    exact .refl _

lemma turn_resumePump (h : Serving s) (hup : s.exit = none)
    (htasks : s.tasks = .resumePump :: rest) : Turned s (s.turn a) := by
  have horderly := h.orderly
  rw [htasks] at horderly
  have hnext : rest.head? = some .flush := horderly.1
  obtain ⟨hadvances, hexecutor, hwaiting⟩ := AsyncBrokerRuntime.resumePump_spec s.runtime
  rw [turn, htasks]
  dsimp only
  split_ifs with hidle
  · refine ⟨h.advance (.refl _) rfl horderly.2 (fun _ => hidle) fun _ => ?_,
      change_of_eq rfl (.refl _) rfl rfl, by simp [hup], fun hexit => absurd hup hexit⟩
    dsimp only
    rw [Room, hnext]
    trivial
  · refine ⟨h.advance hadvances rfl horderly (fun hne => absurd rfl hne) fun _ => trivial,
      change_of_eq rfl ?_ rfl rfl, by simp [hup], fun hexit => absurd hup hexit⟩
    · change (AsyncBrokerRuntime.inHand s.runtime.resumePump).Perm _
      rw [AsyncBrokerRuntime.inHand, hexecutor, hwaiting]
      exact .refl _

/-- What the record of a finished operation does to the connection. -/
lemma completeAudit_spec (c : SupervisorConnection) (event : HostEvent) :
    (c.completeAudit event).1.runtime = c.runtime ∧ (c.completeAudit event).1.limits = c.limits ∧
      (c.completeAudit event).1.lastRequestId = c.lastRequestId ∧
      (completionId event = none →
        (c.completeAudit event).1.pendingAudit = c.pendingAudit ∧
          (c.completeAudit event).2 = []) ∧
      ∀ requestId result, event = .completion requestId result →
        (c.completeAudit event).1.pendingAudit = c.pendingAudit.remove requestId ∧
          if c.pendingAudit.containsKey requestId then
            ∃ record, (c.completeAudit event).2 = [.audited requestId record]
          else (c.completeAudit event).2 = [] := by
  cases event with
  | completion requestId result =>
    rw [SupervisorConnection.completeAudit]
    cases hget : c.pendingAudit.get requestId with
    | none =>
      refine ⟨rfl, rfl, rfl, (fun h => by cases h), fun id res h => ?_⟩
      cases h
      rw [BTreeMap.containsKey, hget]
      exact ⟨(BTreeMap.remove_eq_self hget).symm, rfl⟩
    | some audit =>
      refine ⟨rfl, rfl, rfl, (fun h => by cases h), fun id res h => ?_⟩
      cases h
      rw [BTreeMap.containsKey, hget]
      exact ⟨rfl, _, rfl⟩
  | capabilityChanged generation state =>
    exact ⟨rfl, rfl, rfl, fun _ => ⟨rfl, rfl⟩, fun id res h => by cases h⟩
  | resourceEvent resourceId sequence result =>
    exact ⟨rfl, rfl, rfl, fun _ => ⟨rfl, rfl⟩, fun id res h => by cases h⟩
  | overflow generation droppedEvents =>
    exact ⟨rfl, rfl, rfl, fun _ => ⟨rfl, rfl⟩, fun id res h => by cases h⟩

/-- A send writes its message to the log and goes on, or it ends the loop. -/
lemma send_spec (hup : s.exit = none) (effects : List Effect) (message : Effect) (a : Answers)
    (rest : List Task) :
    (s.send effects message a rest).connection = s.connection ∧
      (s.send effects message a rest).log =
        s.log ++ (effects ++ (s.send effects message a rest).delivered message) ∧
      (s.send effects message a rest).exit ≠ some .panicked ∧
      ((s.send effects message a rest).exit = none ∧
          (s.send effects message a rest).tasks = rest ∨
        (s.send effects message a rest).exit ≠ none ∧
          (s.send effects message a rest).tasks = s.tasks) := by
  rw [send]
  cases a.sent with
  | none =>
    refine ⟨rfl, ?_, by simp [hup], .inl ⟨hup, rfl⟩⟩
    simp [delivered, hup]
  | some error =>
    refine ⟨rfl, ?_, by simp [leave], .inr ⟨by simp [leave], rfl⟩⟩
    simp [delivered, leave]

lemma turn_flush (h : Serving s) (hup : s.exit = none) (htasks : s.tasks = .flush :: rest) :
    Turned s (s.turn a) := by
  have hidle := h.idle (by simp [htasks])
  have horderly := h.orderly
  rw [htasks] at horderly
  obtain ⟨hadvances, hexecutor, hpump, hevents⟩ := AsyncBrokerRuntime.popEvent_spec hidle
  have hturn : s.turn a = s.flush a rest := by rw [turn, htasks]
  rw [hturn, flush, SupervisorConnection.popEvent]
  rcases pop_cases s.runtime.events with ⟨hpop, hedges⟩ | ⟨q, event, hpop, hcases⟩
  · -- nothing is left
    have hnone : s.connection.runtime.events.pop.2 = none := by
      change s.runtime.events.pop.2 = none
      rw [hpop]
    rw [hnone]
    exact turned_tasks h hup hedges hidle horderly.2
  · have hsome : s.connection.runtime.events.pop.2 = some event := by
      change s.runtime.events.pop.2 = some event
      rw [hpop]
    rw [hsome]
    dsimp only
    rw [hpop] at hevents
    dsimp only at hevents
    obtain ⟨hruntime, hlimits, hlast, hother, hcompletion⟩ := completeAudit_spec
      (s.connection.setRuntime (s.connection.runtime.perform .popEvent).2) event
    generalize SupervisorConnection.completeAudit _ event = completed at *
    obtain ⟨connection, effects⟩ := completed
    dsimp only at hruntime hlimits hlast hother hcompletion ⊢
    obtain ⟨hconnection, hlog, hpanic, hgo⟩ := send_spec (s := { s with connection := connection })
      hup effects (.sent (intoMessage event)) a (.flush :: rest)
    generalize send { s with connection := connection } effects (.sent (intoMessage event)) a
      (.flush :: rest) = s' at hconnection hlog hpanic hgo ⊢
    have hruntime' : s'.runtime = (s.runtime.perform .popEvent).2 := by
      rw [ServeLoop.runtime, hconnection]
      exact hruntime
    have hhand : s'.runtime.inHand = s.runtime.executor.active.keys ++ waiting q := by
      rw [hruntime', AsyncBrokerRuntime.inHand, hexecutor, hevents]
    refine ⟨?_, ?_, hpanic, fun _ => ?_⟩
    · have htail : s'.tasks = .flush :: rest := by
        rcases hgo with ⟨-, hgo⟩ | ⟨-, hgo⟩
        · exact hgo
        · exact hgo.trans htasks
      refine h.advance (hruntime' ▸ hadvances) ?_ ?_ (fun _ => ?_) fun _ => ?_
      · rw [hconnection]
        exact hlimits
      · rw [htail]
        exact horderly
      · rw [hruntime']
        exact hpump
      · rw [htail]
        trivial
    · rcases hcases with ⟨hnone, hwaiting⟩ | ⟨requestId, result, rfl, hwaiting⟩
      · obtain ⟨hpending, heffects⟩ := hother hnone
        subst heffects
        refine .neutral _ (fun effect heffect => ?_) hlog ?_ ?_ ?_
        · rw [List.nil_append, delivered] at heffect
          split_ifs at heffect
          · cases heffect
          · rw [List.mem_singleton.mp heffect]
            cases event with
            | completion requestId result => cases hnone
            | capabilityChanged | resourceEvent | overflow => rfl
        · rw [hhand, hwaiting]
          exact .refl _
        · rw [hconnection]
          exact hpending
        · rw [hconnection]
          exact hlast
      · obtain ⟨hpending, heffects⟩ := hcompletion requestId result rfl
        refine .finished requestId result effects heffects hlog ?_ ?_ ?_
        · rw [hhand, AsyncBrokerRuntime.inHand, hwaiting]
          exact List.perm_middle
        · rw [hconnection]
          exact hpending
        · rw [hconnection]
          exact hlast
    · rw [hhand, remaining, htasks, hpop]

/-! ### Policy and requests -/

lemma turn_reload (h : Serving s) (hup : s.exit = none) (htasks : s.tasks = .reload :: rest) :
    Turned s (s.turn a) := by
  have hleft := remaining_eq htasks (by simp)
  have hidle := h.idle (by simp [htasks])
  have horderly := h.orderly
  have hroom := h.room hup
  rw [htasks] at horderly hroom
  rw [turn, htasks]
  dsimp only
  split
  · exact turned_leave h (by simp) hleft
  · exact turned_tasks h hup hroom hidle horderly.2
  · next policy hreload =>
    obtain ⟨connection, hsteady, hpending, hlast, hlimits, hreplaced⟩ :=
      replacePolicy_spec h.coherent hidle policy
    have hhand : connection.runtime.inHand.Perm s.runtime.inHand := by
      rw [hsteady.inHand]
      exact .refl _
    rw [replace]
    rcases hreplaced with ⟨generation, hreplaced⟩ | ⟨hreplaced, -⟩ | hreplaced <;> rw [hreplaced]
    · -- a blocked policy ends the loop
      dsimp only
      cases a.sent with
      | none =>
        refine ⟨h.advance hsteady.advances hlimits h.orderly (fun _ => hsteady.idle)
          fun hnone => ?_, ?_, by simp [leave], fun _ => hleft ▸ hhand⟩
        · cases hnone
        · refine .neutral [.sent (.shutdown generation .denied)] (fun effect heffect => ?_) rfl
            hhand hpending hlast
          rw [List.mem_singleton.mp heffect]
          rfl
      | some error =>
        refine ⟨h.advance hsteady.advances hlimits h.orderly (fun _ => hsteady.idle)
          fun hnone => ?_, change_of_eq rfl hhand hpending hlast, by simp [leave],
          fun _ => hleft ▸ hhand⟩
        cases hnone
    · exact ⟨h.advance hsteady.advances hlimits ⟨trivial, horderly.2⟩ (fun _ => hsteady.idle)
        fun _ => trivial, change_of_eq rfl hhand hpending hlast, by simp [hup],
        fun hexit => absurd hup hexit⟩
    · refine ⟨h.advance hsteady.advances hlimits h.orderly (fun _ => hsteady.idle)
        fun hnone => ?_, change_of_eq rfl hhand hpending hlast, by simp [leave],
        fun _ => hleft ▸ hhand⟩
      cases hnone

lemma turn_receive (h : Serving s) (hup : s.exit = none) (htasks : s.tasks = .receive :: rest) :
    Turned s (s.turn a) := by
  have hleft := remaining_eq htasks (by simp)
  have hidle := h.idle (by simp [htasks])
  have horderly := h.orderly
  have hroom := h.room hup
  rw [htasks] at horderly hroom
  have hedges : s.runtime.events.edgeEvents = [] := hroom
  rw [turn, htasks]
  dsimp only
  split
  · next message hreceived =>
    obtain ⟨handled, hhandle, hhandles⟩ := handleRequest_spec h.coherent hidle message a
    rw [receive, hhandle]
    dsimp only
    cases hhandles with
    | refused hstale heq =>
      subst heq
      dsimp only
      obtain ⟨hconnection, hlog, hpanic, hgo⟩ :=
        send_spec (s := { s with connection := s.connection }) hup [.received message, .violation]
        (.refused (.response (requestIdOf message) (.error .invalidRequest))) a (pumps ++ rest)
      generalize send { s with connection := s.connection } _ _ a (pumps ++ rest) = s'
        at hconnection hlog hpanic hgo ⊢
      have hruntime : s'.runtime = s.runtime := by
        rw [ServeLoop.runtime, hconnection]
        rfl
      refine ⟨h.advance (hruntime ▸ .refl _) (by rw [hconnection]) ?_ (fun _ => ?_) fun hnone => ?_,
        .refused message hstale hlog ?_ (by rw [hconnection]) (by rw [hconnection]), hpanic,
        fun _ => ?_⟩
      · rcases hgo with ⟨-, hgo⟩ | ⟨-, hgo⟩ <;> rw [hgo]
        · exact orderly_pumps horderly.2
        · exact h.orderly
      · rw [hruntime]
        exact hidle
      · rw [hruntime]
        exact h.room_of_empty hedges _
      · rw [hruntime]
      · rw [hruntime, hleft]
    | answered runtime effects reply hfresh hsteady hevents haudits hreply heq =>
      subst heq
      dsimp only
      obtain ⟨hconnection, hlog, hpanic, hgo⟩ := send_spec (s := { s with
        connection := { s.connection with
          lastRequestId := (requestIdOf message).toNat
          runtime := runtime } }) hup (.received message :: effects) (.sent reply) a (pumps ++ rest)
      generalize send _ (.received message :: effects) (.sent reply) a (pumps ++ rest) = s'
        at hconnection hlog hpanic hgo ⊢
      have hruntime : s'.runtime = runtime := by rw [ServeLoop.runtime, hconnection]
      have hserving : Serving { s with
          connection := { s.connection with
            lastRequestId := (requestIdOf message).toNat
            runtime := runtime } } :=
        h.advance hsteady.advances rfl h.orderly (fun _ => hsteady.idle) fun _ => by
          change Room s.tasks runtime
          rw [htasks]
          change runtime.events.edgeEvents = []
          rw [hevents]
          exact hedges
      refine ⟨hserving.advance (hruntime ▸ .refl _) (by rw [hconnection]) ?_ (fun _ => ?_)
          fun hnone => ?_,
        .answered message effects reply hfresh haudits hreply hlog ?_ (by rw [hconnection])
          (by rw [hconnection]), hpanic, fun _ => ?_⟩
      · rcases hgo with ⟨-, hgo⟩ | ⟨-, hgo⟩ <;> rw [hgo]
        · exact orderly_pumps horderly.2
        · exact h.orderly
      · rw [hruntime]
        exact hsteady.idle
      · rw [hruntime]
        refine hserving.room_of_empty ?_ _
        change runtime.events.edgeEvents = []
        rw [hevents]
        exact hedges
      · rw [hruntime, hsteady.inHand]
        exact .refl _
      · rw [hruntime, hsteady.inHand, hleft]
        exact .refl _
    | submitted runtime audit hfresh hcall hadvances hpump hevents hactive heq =>
      subst heq
      have hserving : Serving { s with
          connection := { s.connection with
            lastRequestId := (requestIdOf message).toNat
            runtime := runtime
            pendingAudit :=
              s.connection.pendingAudit.insert (requestIdOf message).toNat audit } } :=
        h.advance hadvances rfl h.orderly (fun _ => hpump) fun _ => by
          change Room s.tasks runtime
          rw [htasks]
          change runtime.events.edgeEvents = []
          rw [hevents]
          exact hedges
      refine ⟨hserving.advance (.refl _) rfl (orderly_pumps horderly.2) (fun _ => hpump)
        fun _ => ?_,
        .submitted message audit hfresh hcall rfl ?_ rfl rfl, by simp [hup],
        fun hexit => absurd hup hexit⟩
      · refine hserving.room_of_empty ?_ _
        change runtime.events.edgeEvents = []
        rw [hevents]
        exact hedges
      · change (runtime.executor.active.keys ++ waiting runtime.events).Perm _
        rw [hevents]
        exact hactive.append_right _
  · exact turned_leave h (by simp) hleft
  · exact turned_leave h (by simp) hleft
  · -- a packet that cannot be decoded
    refine ⟨⟨h.coherent, h.configured, h.capacity, h.workers, horderly, fun _ => hidle,
        (fun hnone => by cases hnone)⟩,
      .neutral [.violation] (fun effect heffect => ?_) rfl (.refl _) rfl rfl, by simp [leave],
      fun _ => hleft ▸ .refl _⟩
    rw [List.mem_singleton.mp heffect]
    trivial
  · exact turned_leave h (by simp) hleft

/-- Every turn keeps the invariant, is of one of the kinds, and does not panic. -/
theorem turn_spec (h : Serving s) (hup : s.exit = none) (a : Answers) : Turned s (s.turn a) := by
  cases htasks : s.tasks with
  | nil =>
    have hidle := h.idle (by simp [htasks])
    have hroom := h.room hup
    have hleft : s.remaining = s.runtime.inHand := by rw [remaining, htasks]
    rw [htasks] at hroom
    rw [turn, htasks]
    dsimp only
    split_ifs
    · exact turned_leave h (by simp) hleft
    · exact turned_tasks h hup hroom hidle (orderly_pumps ⟨trivial, trivial⟩)
  | cons task rest =>
    have horderly := h.orderly
    have hroom := h.room hup
    rw [htasks] at horderly hroom
    cases task with
    | completions => exact turn_completions h hup htasks
    | startPump => exact turn_startPump h hup htasks
    | resumePump => exact turn_resumePump h hup htasks
    | flush => exact turn_flush h hup htasks
    | reload => exact turn_reload h hup htasks
    | receive => exact turn_receive h hup htasks
    | poll =>
      have hidle := h.idle (by simp [htasks])
      have hleft := remaining_eq htasks (by simp)
      rw [turn, htasks]
      dsimp only
      split
      · exact turned_tasks h hup hroom hidle trivial
      · exact turned_leave h (by simp) hleft
      · next ready hready =>
        rw [afterPoll]
        split_ifs
        · exact turned_leave h (by simp) hleft
        · exact turned_leave h (by simp) hleft
        · exact turned_leave h (by simp) hleft
        · exact turned_tasks h hup hroom hidle (orderly_tasksOf ready)
    | hangup failed closed =>
      have hidle := h.idle (by simp [htasks])
      have hleft := remaining_eq htasks (by simp)
      rw [turn, htasks]
      dsimp only
      split_ifs
      · exact turned_leave h (by simp) hleft
      · exact turned_leave h (by simp) hleft
      · exact turned_tasks h hup hroom hidle horderly.2

/-! ## Steps of the other threads -/

/-- Another thread changes neither what is active nor what waits. -/
lemma besides_spec (r : AsyncBrokerRuntime) (call : ServeCall) :
    r.Advances (besides r call) ∧ (besides r call).executor.active = r.executor.active ∧
      (besides r call).events = r.events ∧
      (besides r call).resources.pump = r.resources.pump := by
  cases call with
  | turn a => exact ⟨.refl r, rfl, rfl, rfl⟩
  | worker w =>
    exact ⟨AsyncBrokerRuntime.advances_after r _, BackendExecutor.active_work w, rfl, rfl⟩
  | producer thread id request =>
    refine ⟨AsyncBrokerRuntime.advances_after r _, rfl, ?_, ?_⟩
    · change (r.resources.step (.call thread id request)).1.events = _
      rw [Runtime.step]
      split_ifs
      · exact events_enter thread id request
      · rfl
    · change (r.resources.step (.call thread id request)).1.pump = _
      rw [Runtime.step]
      split_ifs
      · exact (Runtime.enter_frame thread request).2.1
      · rfl
  | resumeProducer thread =>
    refine ⟨AsyncBrokerRuntime.advances_after r _, rfl, ?_, ?_⟩
    · change (r.resources.step (.resume thread)).1.events = _
      rw [Runtime.step]
      split
      · exact events_resume thread _
      · rfl
    · change (r.resources.step (.resume thread)).1.pump = _
      rw [Runtime.step]
      split
      · exact (Runtime.resume_frame thread _).2.1
      · rfl
  | register capability =>
    have hafter : besides r (.register capability) = r.register capability ∨
        besides r (.register capability) = r := by
      by_cases hidle : r.resources.pump = .idle
      · exact .inl (AsyncBrokerRuntime.after_perform hidle fun _ => rfl)
      · refine .inr ?_
        change r.after (.register capability) = r
        rw [AsyncBrokerRuntime.after, AsyncBrokerRuntime.step, if_neg hidle]
        all_goals simp
    refine ⟨AsyncBrokerRuntime.advances_after r _, ?_, ?_, ?_⟩ <;>
      rcases hafter with h | h <;> rw [h] <;> rfl
  | registerResource capability =>
    have hafter : besides r (.registerResource capability) = r.registerResource capability ∨
        besides r (.registerResource capability) = r := by
      by_cases hidle : r.resources.pump = .idle
      · exact .inl (AsyncBrokerRuntime.after_perform hidle fun _ => rfl)
      · refine .inr ?_
        change r.after (.registerResource capability) = r
        rw [AsyncBrokerRuntime.after, AsyncBrokerRuntime.step, if_neg hidle]
        all_goals simp
    refine ⟨AsyncBrokerRuntime.advances_after r _, ?_, ?_, ?_⟩ <;>
      rcases hafter with h | h <;> rw [h] <;> rfl

/-- Every step keeps the invariant, is of one of the kinds, and does not panic. -/
theorem step_spec (h : Serving s) (call : ServeCall) :
    Serving (s.step call) ∧ Change s (s.step call) ∧
      (s.exit ≠ some .panicked → (s.step call).exit ≠ some .panicked) ∧
      (s.exit = none → (s.step call).exit ≠ none →
        (s.step call).runtime.inHand.Perm s.remaining) := by
  have hbesides :
      Serving { s with connection := s.connection.setRuntime (besides s.runtime call) } ∧
      Change s { s with connection := s.connection.setRuntime (besides s.runtime call) } := by
    obtain ⟨hadvances, hactive, hevents, hpump⟩ := besides_spec s.runtime call
    refine ⟨h.advance hadvances rfl h.orderly (fun hne => hpump.trans (h.idle hne)) fun hup => ?_,
      change_of_eq rfl ?_ rfl rfl⟩
    · have hroom := h.room hup
      change Room s.tasks (besides s.runtime call)
      rw [Room] at hroom ⊢
      rw [hactive, hevents]
      exact hroom
    · change (AsyncBrokerRuntime.inHand (besides s.runtime call)).Perm _
      rw [AsyncBrokerRuntime.inHand, hactive, hevents]
      exact .refl _
  cases call with
  | turn a =>
    rw [step]
    split_ifs with hexit
    · exact ⟨h, change_of_eq rfl (.refl _) rfl rfl, fun hne => hne,
        fun hup hdown => absurd hup hdown⟩
    · have hturned := turn_spec h (by simpa using hexit) a
      exact ⟨hturned.serving, hturned.change, fun _ => hturned.no_panic, fun _ => hturned.left⟩
  | worker w =>
    exact ⟨hbesides.1, hbesides.2, fun hne => hne, fun hup hdown => absurd hup hdown⟩
  | producer thread id request =>
    exact ⟨hbesides.1, hbesides.2, fun hne => hne, fun hup hdown => absurd hup hdown⟩
  | resumeProducer thread =>
    exact ⟨hbesides.1, hbesides.2, fun hne => hne, fun hup hdown => absurd hup hdown⟩
  | register capability =>
    exact ⟨hbesides.1, hbesides.2, fun hne => hne, fun hup hdown => absurd hup hdown⟩
  | registerResource capability =>
    exact ⟨hbesides.1, hbesides.2, fun hne => hne, fun hup hdown => absurd hup hdown⟩

end ServeLoop

end TouchBar.Broker
