import TouchBar.Broker.Accounts

/-!
# Every message is answered

The counts say that no message is answered twice, and that the only ones without an answer
are operations in hand.  This file has the other half: whenever the loop waits in `poll`,
the workers can finish what they have, and the next round of the loop answers all of it.
-/

namespace TouchBar.Broker

open TouchBar.Rust TouchBar.Lib TouchBar.Policy TouchBar.Supervisor TouchBar.Protocol Outcome

/-! ## The workers finish -/

namespace BackendExecutor

variable {e : BackendExecutor}

/-- No worker has anything to do. -/
def Rested (e : BackendExecutor) : Prop := e.jobs = [] ∧ e.running = [] ∧ e.results = []

/-- The steps that the workers still have to make. -/
def workLeft (e : BackendExecutor) : ℕ :=
  3 * e.jobs.length + 2 * e.running.length + e.results.length

/-- While there is work, some worker makes a step. -/
lemma exists_step (hworkers : 0 < e.limits.workers) (h : 0 < e.workLeft) :
    ∃ step, (e.work step).workLeft < e.workLeft := by
  cases hresults : e.results with
  | cons completion rest =>
    refine ⟨.send 0, ?_⟩
    rw [work, hresults]
    simp only [workLeft, hresults, List.getElem?_cons_zero, List.eraseIdx_cons_zero,
      List.length_cons]
    omega
  | nil =>
    cases hrunning : e.running with
    | cons job rest =>
      refine ⟨.execute 0 none false, ?_⟩
      rw [work, hrunning]
      simp only [workLeft, hrunning, hresults, List.getElem?_cons_zero, List.eraseIdx_cons_zero,
        List.length_cons, List.length_append, List.length_nil]
      omega
    | nil =>
      cases hjobs : e.jobs with
      | nil => simp [workLeft, hresults, hrunning, hjobs] at h
      | cons job rest =>
        refine ⟨.take, ?_⟩
        rw [work, hjobs]
        simp only [workLeft, hrunning, hresults, hjobs, List.length_cons, List.length_append,
          List.length_nil, Nat.add_zero, hworkers, if_true]
        omega

/-- The workers can finish everything that they have. -/
theorem exists_rested (hworkers : 0 < e.limits.workers) :
    ∃ steps, Rested (run work e steps) := by
  induction hleft : e.workLeft using Nat.strong_induction_on generalizing e with
  | _ left ih =>
    rcases Nat.eq_zero_or_pos e.workLeft with hzero | hpos
    · have hjobs : e.jobs.length = 0 := by
        rw [workLeft] at hzero
        omega
      have hrunning : e.running.length = 0 := by
        rw [workLeft] at hzero
        omega
      have hresults : e.results.length = 0 := by
        rw [workLeft] at hzero
        omega
      exact ⟨[], List.length_eq_zero_iff.mp hjobs, List.length_eq_zero_iff.mp hrunning,
        List.length_eq_zero_iff.mp hresults⟩
    · obtain ⟨step, hlt⟩ := exists_step hworkers hpos
      obtain ⟨steps, hrested⟩ := ih _ (hleft ▸ hlt)
        (by rw [limits_work]; exact hworkers) rfl
      exact ⟨step :: steps, hrested⟩

end BackendExecutor

/-! ## A pump of resource events ends -/

namespace AsyncBrokerRuntime

/-- The turns that are left of a pump, if the producers rest. -/
def pumpLeft (resources : Runtime) : ℕ :=
  match resources.pump with
  | .idle => 0
  | .closing _ => 1
  | .terminals _ pending _ => pending.length + 2
  | .reading _ unread found => 2 * unread.length + found.length + 3
  | .draining _ => resources.channel.length + 2 * resources.resources.len + 4

lemma pumpLeft_draining {resources : Runtime} {generation : ℕ}
    (h : resources.pump = .draining generation) :
    pumpLeft resources = resources.channel.length + 2 * resources.resources.len + 4 := by
  rw [pumpLeft, h]

lemma len_pushNext {resources : Runtime} {id sequence generation : ℕ} {result : BrokerResult}
    (h : resources.resources.get id = some sequence) :
    (resources.pushNext id sequence result generation).resources.len =
      resources.resources.len := by
  have hkeys : (resources.pushNext id sequence result generation).resources.keys =
      resources.resources.keys := by
    refine BTreeMap.keys_eq_of_containsKey fun key => ?_
    change (BTreeMap.insert _ _ _).containsKey key = _
    rw [BTreeMap.containsKey, BTreeMap.containsKey, BTreeMap.get_insert]
    split_ifs with hkey
    · rw [hkey, h]
      rfl
    · rfl
  rw [← BTreeMap.length_keys, hkeys, BTreeMap.length_keys]

lemma pumpLeft_resumePump {resources : Runtime} (h : resources.pump ≠ .idle) :
    pumpLeft (resources.step .resumePump).1 < pumpLeft resources := by
  change pumpLeft (resources.resumePump resources.pump).1 < _
  cases hpump : resources.pump with
  | idle => exact absurd hpump h
  | draining generation =>
    rw [Runtime.resumePump]
    cases hchannel : resources.channel with
    | nil =>
      simp only [pumpLeft, hpump, hchannel, BTreeMap.length_keys, List.length_nil]
      omega
    | cons incoming rest =>
      dsimp only
      cases hget : resources.resources.get incoming.resourceId with
      | none =>
        simp only [pumpLeft, hpump, hchannel, List.length_cons]
        omega
      | some sequence =>
        dsimp only
        have hlen := @len_pushNext { resources with channel := rest } incoming.resourceId sequence
          generation incoming.result hget
        have hpushed := @pumpLeft_draining ({ resources with channel := rest }.pushNext
          incoming.resourceId sequence incoming.result generation) generation hpump
        have hbefore := pumpLeft_draining hpump
        rw [hlen] at hpushed
        rw [hchannel, List.length_cons] at hbefore
        rw [hpushed, hbefore]
        change rest.length + _ + 4 < _
        dsimp only
        omega
  | reading generation unread found =>
    cases unread with
    | nil =>
      simp only [Runtime.resumePump, pumpLeft, hpump, List.length_nil]
      omega
    | cons id unread =>
      simp only [Runtime.resumePump, pumpLeft, hpump, List.length_cons]
      split_ifs
      · rw [List.length_append, List.length_singleton]
        omega
      · omega
  | terminals generation pending found =>
    cases pending with
    | nil =>
      simp only [Runtime.resumePump, pumpLeft, hpump, List.length_nil]
      omega
    | cons id pending =>
      rw [Runtime.resumePump]
      cases hget : resources.resources.get id with
      | none =>
        simp only [pumpLeft, hpump, List.length_cons]
        omega
      | some sequence =>
        simp only [pumpLeft, hpump, List.length_cons, Runtime.pushNext, Runtime.setCells]
        omega
  | closing found =>
    simp only [Runtime.resumePump, pumpLeft, hpump]
    exact Nat.one_pos

end AsyncBrokerRuntime

namespace ServeLoop

/-! ## The loop goes on -/

variable {s s' s'' : ServeLoop} {rest : List Task}

/-- The loop is stopped only by the turn that leaves it. -/
lemma stopped_turn (h : Serving s) (a : Answers) :
    (s.turn a).connection.stopped = s.connection.stopped ∨ (s.turn a).exit ≠ none := by
  have hsend : ∀ (t : ServeLoop) effects message rest,
      (t.send effects message a rest).connection = t.connection := by
    intro t effects message rest
    rw [send]
    cases a.sent <;> rfl
  rw [turn]
  cases htasks : s.tasks with
  | nil =>
    dsimp only
    split_ifs <;> exact .inl rfl
  | cons task rest =>
    have hidle : task ≠ .resumePump → s.runtime.resources.pump = .idle :=
      fun hne => h.idle (by simpa [htasks] using hne)
    cases task with
    | completions =>
      dsimp only
      split_ifs
      · exact .inl rfl
      · split <;> exact .inl rfl
    | startPump => exact .inl rfl
    | resumePump =>
      dsimp only
      split_ifs <;> exact .inl rfl
    | flush =>
      dsimp only
      rw [flush, SupervisorConnection.popEvent]
      cases s.connection.runtime.events.pop.2 with
      | none => exact .inl rfl
      | some event =>
        refine .inl ?_
        dsimp only
        rw [hsend]
        cases event with
        | completion requestId result =>
          rw [SupervisorConnection.completeAudit]
          split <;> rfl
        | _ => rfl
    | poll =>
      dsimp only
      split
      · exact .inl rfl
      · exact .inl rfl
      · rw [afterPoll]
        split_ifs <;> exact .inl rfl
    | reload =>
      dsimp only
      split
      · exact .inl rfl
      · exact .inl rfl
      · next policy hreload =>
        obtain ⟨connection, -, -, -, -, hreplaced⟩ :=
          SupervisorConnection.replacePolicy_spec h.coherent (hidle (by simp)) policy
        rw [replace]
        rcases hreplaced with ⟨generation, hreplaced⟩ | ⟨hreplaced, hstopped⟩ | hreplaced <;>
          rw [hreplaced]
        · refine .inr ?_
          dsimp only
          cases a.sent <;> simp [leave]
        · exact .inl hstopped
        · exact .inr (by simp [leave])
    | receive =>
      dsimp only
      split
      · next message hreceived =>
        obtain ⟨handled, hhandle, hhandles⟩ :=
          SupervisorConnection.handleRequest_spec h.coherent (hidle (by simp)) message a
        rw [receive, hhandle]
        refine .inl ?_
        have hstopped : handled.connection.stopped = s.connection.stopped := by
          cases hhandles with
          | refused hstale heq => rw [heq]
          | answered runtime effects reply hfresh hsteady hevents haudits hreply heq => rw [heq]
          | submitted runtime audit hfresh hcall hadvances hpump hevents hactive heq => rw [heq]
        dsimp only
        cases handled.send with
        | none => exact hstopped
        | some message' =>
          dsimp only
          rw [hsend]
          exact hstopped
      · exact .inl rfl
      · exact .inl rfl
      · exact .inl rfl
      · exact .inl rfl
    | hangup failed closed =>
      dsimp only
      split_ifs <;> exact .inl rfl

/-- A loop that runs is not stopped. -/
lemma running_step (h : Serving s) (hrunning : s.exit = none → s.connection.stopped = false)
    (call : ServeCall) (hup : (s.step call).exit = none) :
    (s.step call).connection.stopped = false := by
  have hbefore := exit_step call hup
  cases call with
  | turn a =>
    rw [step, if_neg (by simp [hbefore])] at hup ⊢
    rcases stopped_turn h a with hsame | hdown
    · exact hsame.trans (hrunning hbefore)
    · exact absurd hup hdown
  | _ => exact hrunning hbefore

lemma running_run {policy : EffectivePolicy} {limits : ConnectionLimits}
    (hnew : new policy limits = ok s) (earlier : List ServeCall)
    (hup : (run step s earlier).exit = none) :
    (run step s earlier).connection.stopped = false := by
  have hstart : s.connection.stopped = false := by
    rw [new, map_eq_ok] at hnew
    obtain ⟨connection, hconnection, rfl⟩ := hnew
    rw [SupervisorConnection.new] at hconnection
    split_ifs at hconnection
    split at hconnection
    · cases hconnection
    · cases hconnection
    · cases hconnection
      rfl
  refine (run_invariant (P := fun s => Serving s ∧
    (s.exit = none → s.connection.stopped = false)) ?_ ⟨(serving_new hnew).1, fun _ => hstart⟩
    earlier).2 hup
  rintro s call ⟨hserving, hrunning⟩
  exact ⟨(step_spec hserving call).1, running_step hserving hrunning call⟩

/-! ## A round of the loop -/

/-- Some turns in which nothing fails lead from a state to another. -/
def Reaches (s s' : ServeLoop) : Prop := ∃ count, s' = run step s (turns count)

lemma Reaches.trans (h : Reaches s s') (h' : Reaches s' s'') : Reaches s s'' := by
  obtain ⟨m, rfl⟩ := h
  obtain ⟨n, rfl⟩ := h'
  refine ⟨m + n, ?_⟩
  rw [turns, turns, turns, List.replicate_add, run_append]

/-- The loop runs while the workers rest. -/
structure Calm (s : ServeLoop) : Prop where
  serving : Serving s
  up : s.exit = none
  running : s.connection.stopped = false
  rested : s.runtime.executor.Rested

/-- A turn in which nothing fails. -/
lemma Calm.turn (h : Calm s) (hup : (s.turn {}).exit = none)
    (hrested : (s.turn {}).runtime.executor.Rested) :
    Reaches s (s.turn {}) ∧ Calm (s.turn {}) := by
  have hstep : s.step (.turn {}) = s.turn {} := by
    rw [step, if_neg (by simp [h.up])]
  refine ⟨⟨1, hstep.symm⟩, (turn_spec h.serving h.up {}).serving, hup, ?_, hrested⟩
  rw [← hstep] at hup ⊢
  exact running_step h.serving (fun _ => h.running) _ hup

/-- The completions that the workers have sent are pumped. -/
lemma Calm.completions (h : Calm s) (htasks : s.tasks = .completions :: rest) :
    ∃ s', Reaches s s' ∧ Calm s' ∧ s'.tasks = rest ∧ s'.runtime.executor.completions = [] := by
  induction hcount : s.runtime.executor.completions.length using Nat.strong_induction_on
    generalizing s with
  | _ count ih =>
    have hidle := h.serving.idle (by simp [htasks])
    have hroom := h.serving.room h.up
    rw [htasks] at hroom
    have hrested := h.rested
    rcases AsyncBrokerRuntime.pumpCompletion_spec h.serving.coherent hidle s.connection.generation
        hroom with ⟨hnone, hempty⟩ | ⟨hsome, -, -, -, -, hlength⟩
    · have hnext : s.turn {} = { s with tasks := rest } := by
        rw [ServeLoop.turn, htasks]
        dsimp only
        rw [if_neg (by simp)]
        generalize s.runtime.pumpCompletion s.connection.generation = pumped at hnone
        obtain ⟨found, runtime⟩ := pumped
        subst hnone
        rfl
      obtain ⟨hreaches, hcalm⟩ := h.turn (by rw [hnext]; exact h.up) (by rw [hnext]; exact hrested)
      exact ⟨_, hreaches, hcalm, by rw [hnext], by rw [hnext]; exact hempty⟩
    · have hnext : s.turn {} = { s with
          connection := s.connection.setRuntime
            (s.runtime.pumpCompletion s.connection.generation).2 } := by
        rw [ServeLoop.turn, htasks]
        dsimp only
        rw [if_neg (by simp)]
        generalize s.runtime.pumpCompletion s.connection.generation = pumped at hsome
        obtain ⟨found, runtime⟩ := pumped
        subst hsome
        rfl
      have hrested' : (s.runtime.pumpCompletion s.connection.generation).2.executor.Rested := by
        rw [AsyncBrokerRuntime.pumpCompletion, BackendExecutor.tryCompletion]
        cases s.runtime.executor.completions <;> exact hrested
      obtain ⟨hreaches, hcalm⟩ := h.turn (by rw [hnext]; exact h.up) (by rw [hnext]; exact hrested')
      have hlt : (s.runtime.pumpCompletion
          s.connection.generation).2.executor.completions.length < count := by omega
      obtain ⟨s', hreaches', hcalm', hrest, hempty⟩ := ih _ hlt hcalm
        (by rw [hnext]; exact htasks) (by rw [hnext]; rfl)
      exact ⟨s', hreaches.trans hreaches', hcalm', hrest, hempty⟩

/-- A pump of resource events starts. -/
lemma Calm.startPump (h : Calm s) (htasks : s.tasks = .startPump :: rest) :
    ∃ s', Reaches s s' ∧ Calm s' ∧ s'.tasks = rest ∧
      s'.runtime.executor = s.runtime.executor := by
  have hturn : s.turn {} = { s with
      connection := s.connection.setRuntime
        (s.runtime.perform (.startPump s.connection.generation)).2
      tasks := rest } := by
    rw [ServeLoop.turn, htasks]
  obtain ⟨hreaches, hcalm⟩ := h.turn (by rw [hturn]; exact h.up) (by rw [hturn]; exact h.rested)
  exact ⟨_, hreaches, hcalm, by rw [hturn], by rw [hturn]; rfl⟩

/-- It ends, since its producers rest. -/
lemma Calm.resumePump (h : Calm s) (htasks : s.tasks = .resumePump :: rest) :
    ∃ s', Reaches s s' ∧ Calm s' ∧ s'.tasks = rest ∧
      s'.runtime.executor = s.runtime.executor := by
  induction hleft : AsyncBrokerRuntime.pumpLeft s.runtime.resources using Nat.strong_induction_on
    generalizing s with
  | _ left ih =>
    by_cases hidle : s.runtime.resources.pump = .idle
    · have hturn : s.turn {} = { s with tasks := rest } := by
        rw [ServeLoop.turn, htasks]
        exact if_pos hidle
      obtain ⟨hreaches, hcalm⟩ := h.turn (by rw [hturn]; exact h.up) (by rw [hturn]; exact h.rested)
      exact ⟨_, hreaches, hcalm, by rw [hturn], by rw [hturn]; rfl⟩
    · have hturn : s.turn {} = { s with
          connection := s.connection.setRuntime s.runtime.resumePump } := by
        rw [ServeLoop.turn, htasks]
        exact if_neg hidle
      have hlt := AsyncBrokerRuntime.pumpLeft_resumePump hidle
      obtain ⟨hreaches, hcalm⟩ := h.turn (by rw [hturn]; exact h.up) (by rw [hturn]; exact h.rested)
      obtain ⟨s', hreaches', hcalm', hrest, hexecutor⟩ := ih _ (hleft ▸ hlt) hcalm
        (by rw [hturn]; exact htasks) (by rw [hturn]; rfl)
      exact ⟨s', hreaches.trans hreaches', hcalm', hrest,
        hexecutor.trans (by rw [hturn]; rfl)⟩

/-- The events that a queue still has to give out. -/
def eventsLeft (q : HostEventQueue) : ℕ :=
  q.stateEvents.len + q.edgeEvents.length + min q.droppedEdgeEvents 1

lemma eventsLeft_pop {q : HostEventQueue} {event : HostEvent} (h : q.pop.2 = some event) :
    eventsLeft q.pop.1 < eventsLeft q := by
  rw [HostEventQueue.pop] at h ⊢
  cases hstates : q.stateEvents.entries with
  | cons entry entries =>
    obtain ⟨capability, generation, state⟩ := entry
    have hmem : capability ∈ q.stateEvents.keys := by
      rw [BTreeMap.keys, hstates]
      exact List.mem_cons_self
    obtain ⟨value, hget⟩ := BTreeMap.mem_keys_iff.mp hmem
    have hlength := (BTreeMap.keys_remove_perm hget).length_eq
    rw [List.length_cons, BTreeMap.length_keys, BTreeMap.length_keys] at hlength
    simp only [eventsLeft]
    omega
  | nil =>
    rw [hstates] at h
    dsimp only at h ⊢
    cases hedges : q.edgeEvents with
    | cons event edges =>
      simp only [eventsLeft, hedges, List.length_cons]
      omega
    | nil =>
      rw [hedges] at h
      dsimp only at h ⊢
      split_ifs with hdropped
      · simp only [eventsLeft, hedges]
        omega
      · rw [if_neg hdropped] at h
        cases h

lemma Calm.flush (h : Calm s) (htasks : s.tasks = .flush :: rest) :
    ∃ s', Reaches s s' ∧ Calm s' ∧ s'.tasks = rest ∧
      s'.runtime.executor = s.runtime.executor := by
  induction hleft : eventsLeft s.runtime.events using Nat.strong_induction_on generalizing s with
  | _ left ih =>
    have hidle := h.serving.idle (by simp [htasks])
    obtain ⟨-, hexecutor, -, hevents⟩ := AsyncBrokerRuntime.popEvent_spec hidle
    have hturn : s.turn {} = s.flush {} rest := by rw [ServeLoop.turn, htasks]
    rw [ServeLoop.flush, SupervisorConnection.popEvent] at hturn
    cases hpop : s.connection.runtime.events.pop.2 with
    | none =>
      rw [hpop] at hturn
      dsimp only at hturn
      obtain ⟨hreaches, hcalm⟩ := h.turn (by rw [hturn]; exact h.up) (by rw [hturn]; exact h.rested)
      exact ⟨_, hreaches, hcalm, by rw [hturn], by rw [hturn]; rfl⟩
    | some event =>
      rw [hpop] at hturn
      dsimp only at hturn
      obtain ⟨hruntime, -⟩ := completeAudit_spec
        (s.connection.setRuntime (s.connection.runtime.perform .popEvent).2) event
      have hruntime' : (s.turn {}).runtime = (s.runtime.perform .popEvent).2 := by
        rw [hturn]
        exact hruntime
      have hexecutor' : (s.turn {}).runtime.executor = s.runtime.executor := by
        rw [hruntime', hexecutor]
      have hlt : eventsLeft (s.turn {}).runtime.events < left := by
        rw [hruntime', hevents, ← hleft]
        exact eventsLeft_pop hpop
      obtain ⟨hreaches, hcalm⟩ := h.turn (by rw [hturn]; exact h.up)
        (by rw [hexecutor']; exact h.rested)
      obtain ⟨s', hreaches', hcalm', hrest, heq⟩ := ih _ hlt hcalm (by rw [hturn]; rfl) rfl
      exact ⟨s', hreaches.trans hreaches', hcalm', hrest, heq.trans hexecutor'⟩

/-- From `poll` a round of the loop leads back to `poll`, with nothing left in hand. -/
lemma Calm.round (h : Calm s) (htasks : s.tasks.head? = some .poll) :
    ∃ s', Reaches s s' ∧ s'.exit = none ∧ s'.runtime.inHand = [] := by
  obtain ⟨tail, htail⟩ := List.head?_eq_some_iff.mp htasks
  have hpoll : s.turn {} = { s with tasks := [] } := by rw [ServeLoop.turn, htail]
  obtain ⟨hreaches₀, hcalm₀⟩ := h.turn (by rw [hpoll]; exact h.up) (by rw [hpoll]; exact h.rested)
  have hhead : (s.turn {}).turn {} = { s with tasks := pumps ++ [.poll] } := by
    rw [hpoll, ServeLoop.turn]
    exact if_neg (by simp [h.running])
  obtain ⟨hreaches₁, hcalm₁⟩ := hcalm₀.turn (by rw [hhead]; exact h.up)
    (by rw [hhead]; exact h.rested)
  have htasks₁ : ((s.turn {}).turn {}).tasks =
      .completions :: [.startPump, .resumePump, .flush, .poll] := by
    rw [hhead]
    rfl
  obtain ⟨s₂, hreaches₂, hcalm₂, htasks₂, hempty⟩ := hcalm₁.completions htasks₁
  obtain ⟨s₃, hreaches₃, hcalm₃, htasks₃, hexecutor₃⟩ := hcalm₂.startPump htasks₂
  obtain ⟨s₄, hreaches₄, hcalm₄, htasks₄, hexecutor₄⟩ := hcalm₃.resumePump htasks₃
  obtain ⟨s₅, hreaches₅, hcalm₅, htasks₅, hexecutor₅⟩ := hcalm₄.flush htasks₄
  refine ⟨s₅, hreaches₀.trans (hreaches₁.trans (hreaches₂.trans (hreaches₃.trans
    (hreaches₄.trans hreaches₅)))), hcalm₅.up, ?_⟩
  obtain ⟨hjobs, hrunning, hresults⟩ := hcalm₅.rested
  have hcompletions : s₅.runtime.executor.completions = [] := by
    rw [hexecutor₅, hexecutor₄, hexecutor₃]
    exact hempty
  have hflight := hcalm₅.serving.coherent.sound.flight
  rw [BackendExecutor.inFlight, hjobs, hrunning, hresults, hcompletions] at hflight
  have hroom := hcalm₅.serving.room hcalm₅.up
  rw [htasks₅] at hroom
  have hedges : s₅.runtime.events.edgeEvents = [] := hroom
  rw [AsyncBrokerRuntime.inHand, hflight.nil_eq.symm, waiting, hedges]
  rfl

/-! ## One response for each message -/

/-- The fresh messages of a log stay its fresh messages. -/
lemma fresh_append {log effects : List Effect} {message : HostMessage}
    (h : message ∈ (readingOf log).fresh) : message ∈ (readingOf (log ++ effects)).fresh := by
  rw [readingOf_append]
  refine run_invariant (P := fun r : Reading => message ∈ r.fresh) ?_ h effects
  intro r effect hmem
  cases effect with
  | received m =>
    rw [Reading.next]
    split_ifs
    · exact List.mem_append_left _ hmem
    · exact hmem
  | _ => exact hmem

/-- The log only grows. -/
lemma log_step (h : Serving s) (call : ServeCall) :
    ∃ effects, (s.step call).log = s.log ++ effects := by
  obtain ⟨-, hchange, -⟩ := step_spec h call
  cases hchange with
  | neutral effects heffects hlog => exact ⟨_, hlog⟩
  | refused message hstale hlog => exact ⟨_, hlog⟩
  | answered message effects reply hfresh haudits hreply hlog => exact ⟨_, hlog⟩
  | submitted message audit hfresh hcall hlog => exact ⟨_, hlog⟩
  | finished requestId result effects heffects hlog => exact ⟨_, hlog⟩

lemma fresh_run {message : HostMessage} (h : Serving s)
    (hfresh : message ∈ (readingOf s.log).fresh) (more : List ServeCall) :
    message ∈ (readingOf (run step s more).log).fresh := by
  refine (run_invariant (P := fun s => Serving s ∧ message ∈ (readingOf s.log).fresh) ?_
    ⟨h, hfresh⟩ more).2
  rintro s call ⟨hserving, hmem⟩
  obtain ⟨effects, hlog⟩ := log_step hserving call
  rw [hlog]
  exact ⟨(step_spec hserving call).1, fresh_append hmem⟩

/-- Steps of the workers move nothing but the executor. -/
lemma run_workers (s : ServeLoop) (steps : List WorkerStep) :
    (run step s (steps.map .worker)).runtime.executor =
        run BackendExecutor.work s.runtime.executor steps ∧
      (run step s (steps.map .worker)).tasks = s.tasks ∧
      (run step s (steps.map .worker)).exit = s.exit ∧
      (run step s (steps.map .worker)).connection.stopped = s.connection.stopped := by
  induction steps generalizing s with
  | nil => exact ⟨rfl, rfl, rfl, rfl⟩
  | cons w steps ih => exact ih (s.step (.worker w))

/-- The steps of workers, and turns in which nothing fails. -/
def Undisturbed : ServeCall → Prop
  | .turn a => a = {}
  | .worker _ => True
  | _ => False

/-- While the loop runs, every message with a fresh number has had one answer, unless it is an
operation in hand, which has had none.  No other message is answered, but each is refused
once.  When the loop waits in `poll` and no operation is with the workers or on the way from
them, nothing is in hand; and from `poll` the workers and the loop can always get there. -/
theorem answered_once {policy : EffectivePolicy} {limits : ConnectionLimits}
    (hnew : new policy limits = ok s) (earlier : List ServeCall)
    (hup : (run step s earlier).exit = none) :
    (∀ message ∈ (readingOf (run step s earlier).log).fresh,
      answers (run step s earlier).log (requestIdOf message).toNat +
        (run step s earlier).runtime.inHand.count (requestIdOf message).toNat = 1) ∧
      (∀ n, answers (run step s earlier).log n ≤ arrivals (run step s earlier).log n ∧
        refusals (run step s earlier).log n = repeats (run step s earlier).log n) ∧
      ((run step s earlier).tasks.head? = some .poll →
        ((run step s earlier).runtime.executor.inFlight = [] →
          ∀ message ∈ (readingOf (run step s earlier).log).fresh,
            answers (run step s earlier).log (requestIdOf message).toNat = 1) ∧
        ∃ more, (∀ call ∈ more, Undisturbed call) ∧
          ∀ message ∈ (readingOf (run step s earlier).log).fresh,
            answers (run step s (earlier ++ more)).log (requestIdOf message).toNat = 1) := by
  obtain ⟨hserving, haccounts⟩ := run_spec hnew earlier
  refine ⟨fun message hfresh => ?_, fun n => ⟨?_, haccounts.refusals_eq hup n⟩, fun hpoll =>
    ⟨fun hflight message hfresh => ?_, ?_⟩⟩
  · rw [haccounts.answers_eq hup, arrivals_eq_one hfresh]
  · have heq := haccounts.answers_eq hup n
    omega
  · have heq := haccounts.answers_eq hup (requestIdOf message).toNat
    have hnil : (run step s earlier).runtime.inHand = [] := by
      obtain ⟨tail, htail⟩ := List.head?_eq_some_iff.mp hpoll
      have hroom := hserving.room hup
      rw [htail] at hroom
      have hedges : (run step s earlier).runtime.events.edgeEvents = [] := hroom
      have hperm := hserving.coherent.sound.flight
      rw [hflight] at hperm
      rw [AsyncBrokerRuntime.inHand, hperm.nil_eq.symm, waiting, hedges]
      rfl
    rw [hnil, List.count_nil, arrivals_eq_one hfresh] at heq
    exact heq
  · -- the workers finish first
    have hworkers : 0 < (run step s earlier).runtime.executor.limits.workers := by
      rw [hserving.configured.executor]
      exact hserving.workers
    obtain ⟨steps, hrested⟩ := BackendExecutor.exists_rested hworkers
    obtain ⟨hexecutor, htasks, hexit, hstopped⟩ := run_workers (run step s earlier) steps
    have hserving' := (run_spec hnew (earlier ++ steps.map .worker)).1
    rw [run_append] at hserving'
    have hrunning := running_run hnew earlier hup
    have hcalm : Calm (run step (run step s earlier) (steps.map .worker)) :=
      ⟨hserving', hexit.trans hup, hstopped.trans hrunning, hexecutor ▸ hrested⟩
    obtain ⟨s', ⟨count, rfl⟩, hup', hnil⟩ := hcalm.round (htasks ▸ hpoll)
    refine ⟨steps.map .worker ++ turns count, fun call hcall => ?_, fun message hfresh => ?_⟩
    · rcases List.mem_append.mp hcall with hcall | hcall
      · obtain ⟨w, -, rfl⟩ := List.mem_map.mp hcall
        trivial
      · rw [(List.mem_replicate.mp hcall).2]
        rfl
    · rw [← run_append, ← run_append] at hup' hnil
      have hfresh' := fresh_run hserving hfresh (steps.map .worker ++ turns count)
      rw [← run_append] at hfresh'
      have heq := (run_spec hnew (earlier ++ (steps.map .worker ++ turns count))).2.answers_eq
        hup' (requestIdOf message).toNat
      rw [hnil, List.count_nil, arrivals_eq_one hfresh'] at heq
      exact heq

/-- The loop waits in `poll` while a worker has a notification. -/
def submitted : List ServeCall :=
  .register .notificationSendV1 :: turns 9 ++ reading sendNotification

theorem answered_once_submitted :
    ∃ s, new notifying oneWorker = ok s ∧ (run step s submitted).runtime.inHand = [1] ∧
      answers (run step s submitted).log 1 = 0 ∧
      ∃ more, (∀ call ∈ more, Undisturbed call) ∧
        answers (run step s (submitted ++ more)).log 1 = 1 := by
  refine ⟨_, rfl, by decide, by decide, ?_⟩
  have hnew : new notifying oneWorker = ok _ := rfl
  obtain ⟨-, -, hpoll⟩ := answered_once hnew submitted (by decide)
  obtain ⟨-, more, hmore, hanswers⟩ := hpoll (by decide)
  exact ⟨more, hmore, hanswers sendNotification (by decide)⟩

end ServeLoop

end TouchBar.Broker
