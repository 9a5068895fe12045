import TouchBar.Supervisor.ResourceStages

/-!
# Runs of the resource runtime

What holds of a resource in every run: its terminal event is queued once and last as
long as the pump finds room for it, and a stream with one producer loses nothing as long
as the pump finds room for its events and never reads the flag of a finished resource
while events of it still wait on the channel.  Nothing in the code keeps either
condition: the channel and the event queue have the same maximum, and the flags are read
after the channel has been drained.
-/

namespace TouchBar.Supervisor

open TouchBar.Rust TouchBar.Lib TouchBar.Protocol Outcome

namespace Runtime

variable {s : Runtime} {id : ℕ}

lemma exec_append (s : Runtime) (l m : List Action) :
    s.exec (l ++ m) = run stepNoting (s.exec l) m := run_append _ l m

/-- Notes are only added. -/
lemma notes_isPrefix_run (st : Runtime × List (ℕ × Note)) (l : List Action) :
    st.2 <+: (run stepNoting st l).2 := by
  have hstep : ∀ (st' : Runtime × List (ℕ × Note)) (a : Action), st.2 <+: st'.2 →
      st.2 <+: (stepNoting st' a).2 :=
    fun st' a h => h.trans (List.prefix_append _ _)
  exact run_invariant hstep (List.prefix_refl _) l

lemma notesOf_isPrefix {l m : List (ℕ × Note)} (h : l <+: m) (id : ℕ) :
    notesOf id l <+: notesOf id m := by
  obtain ⟨l', rfl⟩ := h
  rw [notesOf_append]
  exact List.prefix_append _ _

/-! ## Notes and the event queue -/

lemma edgeEvents_pushNext (i n : ℕ) (r : BrokerResult) (g : ℕ) :
    (s.pushNext i n r g).events.edgeEvents =
      if s.events.full then s.events.edgeEvents
      else s.events.edgeEvents ++ [.resourceEvent i n r] :=
  HostEventQueue.edgeEvents_pushEdge _ _ _

lemma edgeEvents_of_resumePump_note {p : Pump} {i : ℕ} {n : Note}
    (h : (i, n) ∈ (s.resumePump p).2) :
    ∃ terminal r sequence, n = .pushed terminal r (!s.events.full) ∧
      (s.resumePump p).1.events.edgeEvents =
        if s.events.full then s.events.edgeEvents
        else s.events.edgeEvents ++ [.resourceEvent i sequence r] := by
  cases p with
  | draining g =>
    rw [resumePump] at h ⊢
    split at h
    · simp at h
    · split at h
      · simp at h
      · simp only [List.mem_singleton, Prod.mk.injEq] at h
        obtain ⟨rfl, rfl⟩ := h
        simp only [*]
        exact ⟨_, _, _, rfl, edgeEvents_pushNext _ _ _ _⟩
  | terminals g pending found =>
    cases pending with
    | nil => simp [resumePump] at h
    | cons j pending =>
      rw [resumePump] at h ⊢
      split at h
      · simp at h
      · simp only [List.mem_singleton, Prod.mk.injEq] at h
        obtain ⟨rfl, rfl⟩ := h
        simp only [*]
        exact ⟨_, _, _, rfl, edgeEvents_pushNext _ _ _ _⟩
  | reading g unread found => cases unread <;> simp [resumePump] at h
  | idle => simp [resumePump] at h
  | closing found => simp [resumePump] at h

lemma edgeEvents_of_supervise_note {a : Action} {i : ℕ} {n : Note}
    (h : (i, n) ∈ (s.supervise a).2) : n = .closed ∨
    ∃ terminal r sequence, n = .pushed terminal r (!s.events.full) ∧
      (s.supervise a).1.events.edgeEvents =
        if s.events.full then s.events.edgeEvents
        else s.events.edgeEvents ++ [.resourceEvent i sequence r] := by
  cases a with
  | openResource kept =>
    rw [supervise] at h
    split_ifs at h <;> simp_all
  | closeResource j =>
    rw [supervise] at h
    split_ifs at h <;> simp_all
  | revoke j g =>
    rw [supervise] at h ⊢
    cases hget : s.resources.get j with
    | none => simp [hget] at h
    | some sequence =>
      simp only [hget, List.mem_cons, Prod.mk.injEq, List.not_mem_nil, or_false] at h
      rcases h with ⟨rfl, rfl⟩ | ⟨-, rfl⟩
      · refine .inr ⟨_, _, sequence, rfl, ?_⟩
        simp only
        rw [close_frame.1]
        exact HostEventQueue.edgeEvents_pushEdge _ _ _
      · exact .inl rfl
  | _ => simp [supervise] at h

/-! ## Stages along a run -/

/-- The runtime is well formed and the resource is in a stage. -/
def InStage (id : ℕ) (st : Runtime × List (ℕ × Note)) : Prop :=
  st.1.WellFormed ∧ Stage (st.1.life id) (notesOf id st.2)

lemma inStage_step (st : Runtime × List (ℕ × Note)) (a : Action) (h : InStage id st) :
    InStage id (stepNoting st a) := by
  obtain ⟨hwf, hst⟩ := h
  refine ⟨wellFormed_step hwf a, ?_⟩
  rw [stepNoting, notesOf_append]
  exact stage_step (life_step hwf a id) hst

lemma inStage_new {states edges : ℕ} (h : Runtime.new states edges = ok s) (id : ℕ) :
    InStage id (s, []) := by
  refine ⟨wellFormed_new h, ?_⟩
  rw [Runtime.new] at h
  split_ifs at h
  cases h
  refine .unopened ?_ rfl rfl rfl ?_ ?_ ?_
  · have hnone : ¬ (0 < id ∧ id < 1) := by omega
    simpa [life, initial, opened] using hnone
  all_goals simp [life, initial, Pump.phaseOf]

/-- After every run every resource is in a stage. -/
theorem inStage_exec {states edges : ℕ} (h : Runtime.new states edges = ok s) (id : ℕ)
    (l : List Action) : InStage id (s.exec l) :=
  run_invariant inStage_step (inStage_new h id) l

/-! ## The terminal event -/

/-- When the pump is about to push the terminal event of the resource, the event queue
has room. -/
def TerminalHasRoom (id : ℕ) (st : Runtime × List (ℕ × Note)) (a : Action) : Prop :=
  st.1.turn id a = .pushes → st.1.events.full = false

instance (id : ℕ) (st : Runtime × List (ℕ × Note)) (a : Action) :
    Decidable (TerminalHasRoom id st a) :=
  inferInstanceAs (Decidable (_ → _))

/-- The last push of a resource, and its only terminal one, was its terminal event, and
that event was queued. -/
def TerminalLast (ns : List Note) (r : BrokerResult) : Prop :=
  ∃ data, pushes ns = data ++ [(true, r, true)] ∧ ∀ p ∈ data, p.1 = false

/-- No terminal push was dropped, unless the resource was closed. -/
def TerminalsQueued (ns : List Note) : Prop :=
  .closed ∈ ns ∨ ∀ r, .pushed true r false ∉ ns

lemma terminalsQueued_step {full : Bool} {t : Turn} {l l' : Life} {ns prior : List Note}
    (h : Life.Step full t l ns l') (hroom : t = .pushes → full = false)
    (hprior : TerminalsQueued prior) : TerminalsQueued (prior ++ ns) := by
  rcases hprior with hc | hq
  · exact .inl (List.mem_append_left _ hc)
  cases h with
  | push => exact .inr (by simp [hq, hroom rfl])
  | close => exact .inl (by simp)
  | revoke => exact .inl (by simp)
  | openRefused => exact .inl (by simp)
  | _ => exact .inr (by simp [hq])

/-- The resource has finished, and the pump removes it before it is idle again. -/
def Due (l : Life) : Prop :=
  l.opened = true ∧ l.finished = true ∧
    (l.managed = true → l.phase ≠ .idle ∧ l.phase ≠ .skipped)

lemma due_step {full : Bool} {t : Turn} {l l' : Life} {ns : List Note}
    (h : Life.Step full t l ns l') (hl : Due l) : Due l' := by
  obtain ⟨ho, hfin, hphase⟩ := hl
  cases h with
  | stutter => exact ⟨ho, hfin, hphase⟩
  | openKept h => simp_all
  | openRefused h => simp_all
  | accept p => exact ⟨ho, hfin, hphase⟩
  | finish r => exact ⟨ho, rfl, hphase⟩
  | start h => exact ⟨ho, hfin, fun _ => by simp⟩
  | drain w rest => exact ⟨ho, hfin, hphase⟩
  | discard w rest => exact ⟨ho, hfin, hphase⟩
  | drained => exact ⟨ho, hfin, fun hm => by simp_all⟩
  | read => exact ⟨ho, hfin, fun hm => by simp_all⟩
  | push => exact ⟨ho, hfin, fun _ => by simp⟩
  | remove => exact ⟨ho, rfl, by simp⟩
  | leave h =>
    -- a managed resource that has finished is not skipped
    refine ⟨ho, hfin, fun hm => ?_⟩
    exact absurd h (hphase hm).2
  | close => exact ⟨ho, rfl, by simp⟩
  | revoke => exact ⟨ho, rfl, by simp⟩

/-- The resource was removed. -/
def Gone (l : Life) : Prop := l.opened = true ∧ l.managed = false

lemma gone_step {full : Bool} {t : Turn} {l l' : Life} {ns : List Note}
    (h : Life.Step full t l ns l') (hl : Gone l) : Gone l' := by
  obtain ⟨ho, hm⟩ := hl
  cases h <;> simp_all [Gone]

/-- What every step of a life keeps, every run keeps. -/
lemma life_invariant {P : Life → Prop}
    (hP : ∀ full t l ns l', Life.Step full t l ns l' → P l → P l')
    {st : Runtime × List (ℕ × Note)} (hst : InStage id st) (h : P (st.1.life id))
    (l : List Action) : P ((run stepNoting st l).1.life id) := by
  have hstep : ∀ (st : Runtime × List (ℕ × Note)) (a : Action),
      InStage id st ∧ P (st.1.life id) →
      InStage id (stepNoting st a) ∧ P ((stepNoting st a).1.life id) := by
    rintro st a ⟨hin, hp⟩
    exact ⟨inStage_step st a hin, hP _ _ _ _ _ (life_step hin.1 a id) hp⟩
  exact (run_invariant hstep ⟨hst, h⟩ l).2

/-- A pump that starts after a resource has finished removes it. -/
lemma gone_of_pump {states edges : ℕ} (hnew : Runtime.new states edges = ok s)
    {before during : List Action} {g : ℕ} {r : BrokerResult}
    (hidle : (s.exec before).1.pump = .idle) (hfin : (id, .finished r) ∈ (s.exec before).2)
    (hopen : (id, .closed) ∉ (s.exec before).2)
    (hpumped : (s.exec (before ++ .startPump g :: during)).1.pump = .idle) :
    Gone ((s.exec (before ++ .startPump g :: during)).1.life id) := by
  have hstage := inStage_exec hnew id before
  rw [← mem_notesOf] at hfin hopen
  -- it has finished, so it is opened and its flag is set
  have hset : ((s.exec before).1.life id).opened = true ∧
      ((s.exec before).1.life id).finished = true := by
    cases hstage.2 with
    | closed hc => exact absurd hc hopen
    | unopened ho hm hw hns =>
      rw [hns] at hfin
      cases hfin
    | running ho hm hf hp hq hno => exact absurd hfin (hno r)
    | finished r ho hm hf => exact ⟨ho, hf⟩
    | delivered r q data ho hf => exact ⟨ho, hf⟩
  rw [exec_append, run_cons] at hpumped ⊢
  have hstart : (stepNoting (s.exec before) (.startPump g)).1.life id =
      { (s.exec before).1.life id with phase := .draining } := by
    simp only [stepNoting, step, hidle, if_true]
    rfl
  have hdue : Due ((stepNoting (s.exec before) (.startPump g)).1.life id) := by
    rw [hstart]
    exact ⟨hset.1, hset.2, fun _ => by simp⟩
  have hend := life_invariant (P := Due) (fun _ _ _ _ _ h hl => due_step h hl)
    (inStage_step _ _ hstage) hdue during
  refine ⟨hend.1, Bool.eq_false_iff.mpr fun hm => ?_⟩
  have hphase := (hend.2.2 hm).1
  apply hphase
  rw [life, hpumped]
  rfl

/-- Along a run whose pumps find room for the terminal event, the event is queued at
most once and nothing follows it; and once a pump that started after the resource had finished is
over, it has been queued. -/
theorem terminal_queued_once_and_last {states edges : ℕ}
    (hnew : Runtime.new states edges = ok s) (id : ℕ) (actions : List Action)
    (hroom : Meets stepNoting (TerminalHasRoom id) (s, []) actions)
    (hopen : (id, .closed) ∉ (s.exec actions).2) :
    ((∀ p ∈ pushes (notesOf id (s.exec actions).2), p.1 = false) ∨
      ∃ r, (id, .finished r) ∈ (s.exec actions).2 ∧
        TerminalLast (notesOf id (s.exec actions).2) r) ∧
    ∀ before g during after r, actions = before ++ .startPump g :: (during ++ after) →
      (s.exec before).1.pump = .idle → (id, .finished r) ∈ (s.exec before).2 →
      (s.exec (before ++ .startPump g :: during)).1.pump = .idle →
      TerminalLast (notesOf id (s.exec actions).2) r := by
  have hstage := inStage_exec hnew id actions
  have hqueued : TerminalsQueued (notesOf id (s.exec actions).2) := by
    have hstep : ∀ (st : Runtime × List (ℕ × Note)) (a : Action),
        InStage id st ∧ TerminalsQueued (notesOf id st.2) → TerminalHasRoom id st a →
        InStage id (stepNoting st a) ∧ TerminalsQueued (notesOf id (stepNoting st a).2) := by
      rintro st a ⟨hin, hq⟩ hcond
      refine ⟨inStage_step st a hin, ?_⟩
      rw [stepNoting, notesOf_append]
      exact terminalsQueued_step (life_step hin.1 a id) hcond hq
    have hstart : TerminalsQueued (notesOf id []) := .inr (by simp)
    exact (run_invariant_of_meets hstep ⟨inStage_new hnew id, hstart⟩ hroom).2
  have hnone : ∀ r, .pushed true r false ∉ notesOf id (s.exec actions).2 :=
    hqueued.resolve_left fun hc => hopen (mem_notesOf.mp hc)
  -- a delivered terminal event was queued
  have hlast : ∀ {r : BrokerResult} {queued : Bool} {data : List (Bool × BrokerResult × Bool)},
      pushes (notesOf id (s.exec actions).2) = data ++ [(true, r, queued)] →
      (∀ p ∈ data, p.1 = false) → TerminalLast (notesOf id (s.exec actions).2) r := by
    intro r queued data hpush hdata
    cases queued with
    | true => exact ⟨data, hpush, hdata⟩
    | false => exact absurd (mem_pushes.mp (by simp [hpush])) (hnone r)
  constructor
  · cases hstage.2 with
    | closed hc => exact absurd (mem_notesOf.mp hc) hopen
    | unopened ho hm hw hns =>
      rw [hns]
      exact .inl (by simp [pushes])
    | running ho hm hf hp hq hno hdata => exact .inl hdata
    | finished r ho hm hf ht hp hres hdata => exact .inl hdata
    | delivered r q data ho hf hp hres hpush hdata =>
      exact .inr ⟨r, mem_notesOf.mp ((hres r).mpr rfl), hlast hpush hdata⟩
  · rintro before g during after r rfl hidle hfin hpumped
    have hsplit : before ++ .startPump g :: (during ++ after) =
        (before ++ .startPump g :: during) ++ after := by simp
    have hfront :
        (s.exec before).2 <+: (s.exec (before ++ .startPump g :: (during ++ after))).2 := by
      rw [exec_append]
      exact notes_isPrefix_run _ _
    have hfinEnd := mem_notesOf.mpr (hfront.subset hfin)
    have hgone : Gone ((s.exec (before ++ .startPump g :: (during ++ after))).1.life id) := by
      rw [hsplit, exec_append]
      exact life_invariant (P := Gone) (fun _ _ _ _ _ h hl => gone_step h hl)
        (inStage_exec hnew id _)
        (gone_of_pump hnew hidle hfin (fun hc => hopen (hfront.subset hc)) hpumped) after
    cases hstage.2 with
    | closed hc => exact absurd (mem_notesOf.mp hc) hopen
    | unopened ho => exact absurd hgone.1 (by simp [ho])
    | running ho hm => exact absurd hgone.2 (by simp [hm])
    | finished r ho hm => exact absurd hgone.2 (by simp [hm])
    | delivered r' q data ho hf hp hres hpush hdata =>
      obtain rfl := (hres r).mp hfinEnd
      exact hlast hpush hdata

/-- The notes of a run, from the front. -/
def trace : Runtime → List Action → List (ℕ × Note)
  | _, [] => []
  | s, a :: l => (s.step a).2 ++ trace (s.step a).1 l

lemma run_stepNoting (s : Runtime) (ns : List (ℕ × Note)) (l : List Action) :
    run stepNoting (s, ns) l = (run (fun s a => (s.step a).1) s l, ns ++ trace s l) := by
  induction l generalizing s ns with
  | nil => simp [trace]
  | cons a l ih => rw [run_cons, stepNoting, ih, run_cons, trace, List.append_assoc]

/-- Evaluating the notes from the front needs no long appends. -/
lemma exec_eq (s : Runtime) (l : List Action) :
    s.exec l = (run (fun s a => (s.step a).1) s l, trace s l) := run_stepNoting s [] l

/-- One resource gets `n` events from one thread, which then completes it. -/
def burst (n : ℕ) : List Action :=
  .openResource true ::
    (List.replicate n [Action.call 0 1 (.emit [7] true), .resume 0]).flatten ++
    [.call 0 1 (.complete []), .resume 0]

/-- The steps of one pump that finds `n` events and one finished resource. -/
def pumpSteps (n : ℕ) : List Action := List.replicate (n + 6) .resumePump

theorem terminal_queued_once_and_last_single :
    TerminalLast (notesOf 1 ((initial 64 256).exec (burst 1 ++ .startPump 1 :: pumpSteps 1)).2)
      (.success []) := by
  have hnew : Runtime.new 64 256 = ok (initial 64 256) := rfl
  refine (terminal_queued_once_and_last hnew 1
    (burst 1 ++ .startPump 1 :: pumpSteps 1) ?_ ?_).2 (burst 1) 1 (pumpSteps 1) [] _ ?_ ?_ ?_ ?_
  · decide
  · decide
  · rfl
  · decide
  · decide
  · decide

/-- With the limits that the supervisor installs, a full channel leaves no room for the
terminal event: the pump counts it as dropped and removes the resource. -/
theorem full_channel_drops_terminal :
    ((initial 64 256).exec (burst 256)).1.pump = .idle ∧
      (1, .finished (.success [])) ∈ ((initial 64 256).exec (burst 256)).2 ∧
      ((initial 64 256).exec (burst 256 ++ .startPump 1 :: pumpSteps 256)).1.pump = .idle ∧
      (1, .closed) ∉ ((initial 64 256).exec (burst 256 ++ .startPump 1 :: pumpSteps 256)).2 ∧
      ¬ TerminalLast
        (notesOf 1 ((initial 64 256).exec (burst 256 ++ .startPump 1 :: pumpSteps 256)).2)
        (.success []) := by
  have hdropped : (true, BrokerResult.success [], true) ∉ pushes
      (notesOf 1 ((initial 64 256).exec (burst 256 ++ .startPump 1 :: pumpSteps 256)).2) := by
    rw [exec_eq]
    decide +kernel
  simp only [exec_eq] at hdropped ⊢
  refine ⟨by decide +kernel, by decide +kernel, by decide +kernel, by decide +kernel, ?_⟩
  rintro ⟨data, hpush, -⟩
  exact hdropped (by simp [hpush])

end Runtime

end TouchBar.Supervisor
