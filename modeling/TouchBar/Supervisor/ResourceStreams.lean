import TouchBar.Supervisor.ResourceRuns

/-!
# Streams with one producer

A thread that is the only producer of a resource sees its events queued in the order in
which it emitted them, all before the terminal event, as long as the pump finds room for
them and reads the flag of the finished resource only when none of them is left on the
channel.
-/

namespace TouchBar.Supervisor

open TouchBar.Rust TouchBar.Lib TouchBar.Protocol Outcome

/-! ## What has been queued -/

/-- The pushes of a resource that are not terminal. -/
def dataPushes (ns : List Note) : List (Bool × BrokerResult × Bool) :=
  (pushes ns).filter fun p => !p.1

/-- The push of a payload that was queued. -/
def queuedPush (payload : List UInt8) : Bool × BrokerResult × Bool :=
  (false, .success payload, true)

lemma dataPushes_append (l m : List Note) : dataPushes (l ++ m) = dataPushes l ++ dataPushes m := by
  simp [dataPushes, pushes_append]

/-- The accepted payloads are those that were queued, followed by those that wait on the
channel. -/
def Kept (l : Life) (ns : List Note) : Prop :=
  ∃ sent rest, dataPushes ns = sent.map queuedPush ∧ l.waiting = rest.map .success ∧
    acceptedPayloads ns = sent ++ rest

/-- The accepted payloads are kept, and none waits once the pump has found the resource
finished, or while it is not managed. -/
def Intact (l : Life) (ns : List Note) : Prop :=
  Kept l ns ∧ (l.managed = false → l.waiting = []) ∧
    (l.phase = .found ∨ l.phase = .pushed → l.waiting = [])

/-- Notes that push no data and accept nothing. -/
lemma Kept.quiet {l l' : Life} {ns prior : List Note} (h : Kept l prior)
    (hwait : l'.waiting = l.waiting) (hdata : dataPushes ns = [])
    (hacc : acceptedPayloads ns = []) : Kept l' (prior ++ ns) := by
  obtain ⟨sent, rest, hs, hr, ha⟩ := h
  refine ⟨sent, rest, ?_, hwait.trans hr, ?_⟩
  · rw [dataPushes_append, hdata, List.append_nil, hs]
  · rw [acceptedPayloads_append, hacc, List.append_nil, ha]

variable {full : Bool} {t : Turn} {l l' : Life} {ns prior : List Note}

lemma intact_step (h : Life.Step full t l ns l') (hst : Stage l prior)
    (hroom : t = .drains → full = false)
    (hempty : t = .reads → l.finished = true → l.waiting = [])
    (hsole : ∀ p, .accepted p ∈ ns → l.finished = false)
    (hprior : .closed ∈ prior ∨ Intact l prior) :
    .closed ∈ prior ++ ns ∨ Intact l' (prior ++ ns) := by
  rcases hprior with hc | ⟨hkept, hgone, hfound⟩
  · exact .inl (List.mem_append_left _ hc)
  by_cases hc : .closed ∈ prior ++ ns
  · exact .inl hc
  refine .inr ?_
  have hopen : .closed ∉ prior := fun h => hc (List.mem_append_left _ h)
  cases h with
  | stutter => exact ⟨hkept.quiet rfl rfl rfl, hgone, hfound⟩
  | openKept => exact ⟨hkept.quiet rfl rfl rfl, by simp, hfound⟩
  | openRefused => exact absurd (by simp) hc
  | accept p hopened =>
    have hfin := hsole p (by simp)
    obtain ⟨sent, rest, hs, hr, ha⟩ := hkept
    refine ⟨⟨sent, rest ++ [p], ?_, ?_, ?_⟩, ?_⟩
    · simpa [dataPushes, pushes] using hs
    · simp [hr]
    · rw [acceptedPayloads_append, ha, List.append_assoc]
      rfl
    · -- an unfinished resource is managed and not found
      cases hst with
      | closed hc' => exact absurd hc' hopen
      | running ho hm hf hp hq => exact ⟨by simp [hm], by simp [hp, hq]⟩
      | _ => simp_all
  | finish r => exact ⟨hkept.quiet rfl rfl rfl, hgone, hfound⟩
  | start => exact ⟨hkept.quiet rfl rfl rfl, hgone, by simp⟩
  | drain w rest hphase hw hm =>
    have hfree := hroom rfl
    obtain ⟨sent, rest', hs, hr, ha⟩ := hkept
    rw [hw] at hr
    obtain ⟨p, rest'', rfl, rfl, rfl⟩ := List.map_eq_cons_iff.mp hr.symm
    refine ⟨⟨sent ++ [p], rest'', ?_, rfl, ?_⟩, by simp [hm], by simp [hphase]⟩
    · rw [dataPushes_append, hs, hfree, List.map_append]
      rfl
    · rw [acceptedPayloads_append, ha]
      simp [acceptedPayloads]
  | discard w rest hphase hw hm => simp_all
  | drained hphase hw => exact ⟨hkept.quiet rfl rfl rfl, hgone, fun _ => hw⟩
  | read hphase =>
    refine ⟨hkept.quiet rfl rfl rfl, hgone, fun hf => ?_⟩
    apply hempty rfl
    by_contra hfin
    simp [hfin] at hf
  | push hphase =>
    exact ⟨hkept.quiet rfl rfl rfl, hgone, fun _ => hfound (.inl hphase)⟩
  | remove hphase =>
    exact ⟨hkept.quiet rfl rfl rfl, fun _ => hfound (.inr hphase), by simp⟩
  | leave => exact ⟨hkept.quiet rfl rfl rfl, hgone, by simp⟩
  | close => exact absurd (by simp) hc
  | revoke => exact absurd (by simp) hc

/-- Data pushed by the end of a drain that began after `front` had been accepted. -/
def DrainedPast (front : List (List UInt8)) (l : Life) (ns : List Note) : Prop :=
  front <+: acceptedPayloads ns ∧
    (l.phase = .draining ∨ front.map queuedPush <+: dataPushes ns)

lemma drainedPast_step {front : List (List UInt8)} (h : Life.Step full t l ns l')
    (hkept : Kept l prior) (hl : DrainedPast front l prior) :
    DrainedPast front l' (prior ++ ns) := by
  obtain ⟨hfront, hphase⟩ := hl
  have hgrow : ∀ m, dataPushes prior <+: dataPushes (prior ++ m) := fun m => by
    rw [dataPushes_append]
    exact List.prefix_append _ _
  refine ⟨hfront.trans ?_, ?_⟩
  · rw [acceptedPayloads_append]
    exact List.prefix_append _ _
  rcases hphase with hdraining | hdone
  · cases h with
    | drained hp hw =>
      -- the channel is empty, so all that was accepted has been queued
      obtain ⟨sent, rest, hs, hr, ha⟩ := hkept
      obtain rfl : rest = [] := by simpa [hw, eq_comm] using hr
      rw [List.append_nil] at ha
      refine .inr (.trans ?_ (hgrow _))
      rw [hs, ← ha]
      exact hfront.map _
    | read hp => simp_all
    | push hp => simp_all
    | remove hp => simp_all
    | leave hp => simp_all
    | _ => exact .inl (by simp_all)
  · exact .inr (hdone.trans (hgrow ns))

/-! ## One producer -/

namespace Runtime

variable {s : Runtime} {id thread : ℕ} {a : Action}

/-- Acceptances and finishes are noted when a thread moves on in its call. -/
lemma resume_of_note {n : Note} {i : ℕ} (h : (i, n) ∈ (s.step a).2)
    (hn : (∃ p, n = .accepted p) ∨ ∃ r, n = .finished r) :
    ∃ thread pending, s.calls thread = some pending ∧
      s.step a = s.resume thread pending := by
  rcases producer_or_supervisor s a with ⟨thread, i, request, rfl⟩ | ⟨thread, rfl⟩ | ⟨hs, -⟩ | hs
  · rw [step] at h
    split_ifs at h <;> simp at h
  · rw [step] at h ⊢
    cases hcall : s.calls thread with
    | none => simp [hcall] at h
    | some pending => exact ⟨thread, pending, hcall, rfl⟩
  · rw [hs] at h
    obtain ⟨terminal, r, sequence, hp, -⟩ := edgeEvents_of_resumePump_note h
    simp_all
  · rw [hs] at h
    split_ifs at h
    · rcases edgeEvents_of_supervise_note h with hp | ⟨terminal, r, sequence, hp, -⟩ <;> simp_all
    · simp at h

lemma accepted_note {i : ℕ} {p : List UInt8} (h : (i, .accepted p) ∈ (s.step a).2) :
    ∃ thread pending, s.calls thread = some pending ∧ pending.sends = true ∧
      pending.resourceId = i := by
  obtain ⟨thread, pending, hcall, hstep⟩ := resume_of_note h (.inl ⟨p, rfl⟩)
  refine ⟨thread, pending, hcall, ?_⟩
  rw [hstep] at h
  cases pending <;> rw [resume] at h <;> split_ifs at h <;>
    simp_all [Pending.sends, Pending.resourceId]

/-- The thread that finishes a resource leaves its call. -/
lemma finished_note {i : ℕ} {r : BrokerResult} (h : (i, .finished r) ∈ (s.step a).2) :
    ∃ thread pending, s.calls thread = some pending ∧ pending.resourceId = i ∧
      (s.step a).1.calls = Function.update s.calls thread none := by
  obtain ⟨thread, pending, hcall, hstep⟩ := resume_of_note h (.inr ⟨r, rfl⟩)
  refine ⟨thread, pending, hcall, ?_⟩
  rw [hstep] at h ⊢
  cases pending with
  | setTerminal j r' =>
    rw [resume] at h ⊢
    split_ifs at h ⊢
    · simp at h
    · simp only [List.mem_singleton, Prod.mk.injEq] at h
      exact ⟨h.1.symm, rfl⟩
  | _ => rw [resume] at h; split_ifs at h <;> simp at h

/-- Only one thread is inside a call on the resource, and it is about to send only while
the resource has not finished. -/
def SoleProducer (thread id : ℕ) (s : Runtime) : Prop :=
  ∀ thread' pending, s.calls thread' = some pending → pending.resourceId = id →
    thread' = thread ∧ (pending.sends = true → s.isFinished id = false)

/-- The flag of a resource is set by a producer that finishes it, or when the host
closes it. -/
lemma finished_of_step {full : Bool} {t : Turn} {l l' : Life} {ns prior : List Note}
    (h : Life.Step full t l ns l') (hst : Stage l prior) (hopen : .closed ∉ prior ++ ns)
    (hno : ∀ r, .finished r ∉ ns) (hfin : l.finished = false) : l'.finished = false := by
  have hprior : .closed ∉ prior := fun hc => hopen (List.mem_append_left _ hc)
  cases h with
  | finish r => exact absurd (by simp) (hno r)
  | remove hphase =>
    cases hst with
    | closed hc => exact absurd hc hprior
    | _ => simp_all
  | close => exact absurd (by simp) hopen
  | revoke => exact absurd (by simp) hopen
  | openKept => rfl
  | openRefused => rfl
  | _ => exact hfin

lemma soleProducer_step {prior : List Note} (hs : s.WellFormed) (hst : Stage (s.life id) prior)
    (hopen : .closed ∉ prior ++ notesOf id (s.step a).2)
    (hcalls : ∀ thread' request, a = .call thread' id request → thread' = thread)
    (h : SoleProducer thread id s) : SoleProducer thread id (s.step a).1 := by
  intro thread' pending hcall hid
  -- before the step, this thread was on the resource and its flag was as needed
  have hbefore : thread' = thread ∧ (pending.sends = true → s.isFinished id = false) := by
    rcases calls_step s a with hsame | ⟨thread'', c, i, hupd, hc, hwho⟩
    · exact h thread' pending (hsame ▸ hcall) hid
    · rw [hupd, Function.update_apply] at hcall
      split_ifs at hcall with hth
      · obtain ⟨hi, hsends⟩ := hc pending hcall
        rw [hid] at hi
        subst hi hth
        refine ⟨?_, hsends⟩
        rcases hwho with ⟨request, ha, -⟩ | ⟨q, hq, hqid⟩
        · exact hcalls _ request ha
        · exact (h _ q hq hqid).1
      · exact h thread' pending hcall hid
  refine ⟨hbefore.1, fun hsends => ?_⟩
  apply finished_of_step (life_step hs a id) hst hopen _ (hbefore.2 hsends)
  -- the thread that would have finished it is no longer in a call
  intro r hr
  obtain ⟨th, q, hq, hqid, hupd⟩ := finished_note (mem_notesOf.mp hr)
  obtain ⟨rfl, -⟩ := h th q hq hqid
  rw [hupd, hbefore.1, Function.update_self] at hcall
  cases hcall

/-- When the pump takes an event of the resource from the channel, the event queue has
room; and when it finds the flag of the resource set, no event of it is left on the
channel. -/
def StreamUndisturbed (id : ℕ) (st : Runtime × List (ℕ × Note)) (a : Action) : Prop :=
  (st.1.turn id a = .drains → st.1.events.full = false) ∧
    (st.1.turn id a = .reads → st.1.isFinished id = true →
      ∀ e ∈ st.1.channel, e.resourceId ≠ id)

instance (id : ℕ) (st : Runtime × List (ℕ × Note)) (a : Action) :
    Decidable (StreamUndisturbed id st a) :=
  inferInstanceAs (Decidable ((_ → _) ∧ (_ → _ → _)))

/-- What a step must meet for the stream of one producer. -/
def StreamStep (thread id : ℕ) (st : Runtime × List (ℕ × Note)) (a : Action) : Prop :=
  StreamUndisturbed id st a ∧
    ∀ thread' request, a = .call thread' id request → thread' = thread

/-- The stream is intact, unless the resource was closed. -/
def StreamInvariant (thread id : ℕ) (st : Runtime × List (ℕ × Note)) : Prop :=
  InStage id st ∧ (.closed ∈ notesOf id st.2 ∨
    Intact (st.1.life id) (notesOf id st.2) ∧ SoleProducer thread id st.1)

lemma streamInvariant_step (st : Runtime × List (ℕ × Note)) (a : Action)
    (h : StreamInvariant thread id st) (ha : StreamStep thread id st a) :
    StreamInvariant thread id (stepNoting st a) := by
  obtain ⟨hin, h⟩ := h
  obtain ⟨⟨hroom, hempty⟩, hcalls⟩ := ha
  refine ⟨inStage_step st a hin, ?_⟩
  rw [stepNoting, notesOf_append]
  by_cases hopen : .closed ∈ notesOf id st.2 ++ notesOf id (st.1.step a).2
  · exact .inl hopen
  obtain ⟨hintact, hsole⟩ := h.resolve_left fun hc => hopen (List.mem_append_left _ hc)
  have hlife := life_step hin.1 a id
  refine .inr ⟨?_, soleProducer_step hin.1 hin.2 hopen hcalls hsole⟩
  refine (intact_step hlife hin.2 hroom ?_ ?_ (.inr hintact)).resolve_left hopen
  · intro hreads hfin
    have hnone : st.1.channel.filter (fun e => e.resourceId = id) = [] := by
      simpa [List.filter_eq_nil_iff] using hempty hreads hfin
    simp [life, hnone]
  · intro p hp
    obtain ⟨th, q, hq, hsends, hqid⟩ := accepted_note (mem_notesOf.mp hp)
    exact (hsole th q hq hqid).2 hsends

lemma streamInvariant_new {states edges : ℕ} (hnew : Runtime.new states edges = ok s)
    (thread id : ℕ) : StreamInvariant thread id (s, []) := by
  refine ⟨inStage_new hnew id, .inr ?_⟩
  rw [Runtime.new] at hnew
  split_ifs at hnew
  cases hnew
  refine ⟨⟨⟨[], [], rfl, rfl, rfl⟩, fun _ => rfl, fun _ => rfl⟩, ?_⟩
  intro thread' pending hcall
  simp [initial] at hcall

/-- What was accepted before a pump has been queued when the pump is over. -/
lemma accepted_queued_of_pump {before during : List Action} {g : ℕ}
    (hinv : StreamInvariant thread id (s.exec before))
    (hmeets : Meets stepNoting (StreamStep thread id) (s.exec before) (.startPump g :: during))
    (hidle : (s.exec before).1.pump = .idle)
    (hpumped : (s.exec (before ++ .startPump g :: during)).1.pump = .idle)
    (hopen : .closed ∉ notesOf id (s.exec (before ++ .startPump g :: during)).2) :
    (acceptedPayloads (notesOf id (s.exec before).2)).map queuedPush <+:
      dataPushes (notesOf id (s.exec (before ++ .startPump g :: during)).2) := by
  rw [exec_append, run_cons] at hpumped hopen ⊢
  have hstep : ∀ (st : Runtime × List (ℕ × Note)) (a : Action),
      StreamInvariant thread id st ∧ (.closed ∈ notesOf id st.2 ∨
        DrainedPast (acceptedPayloads (notesOf id (s.exec before).2)) (st.1.life id)
          (notesOf id st.2)) →
      StreamStep thread id st a →
      StreamInvariant thread id (stepNoting st a) ∧
        (.closed ∈ notesOf id (stepNoting st a).2 ∨
          DrainedPast (acceptedPayloads (notesOf id (s.exec before).2))
            ((stepNoting st a).1.life id) (notesOf id (stepNoting st a).2)) := by
    rintro st a ⟨hst, hpast⟩ ha
    refine ⟨streamInvariant_step st a hst ha, ?_⟩
    rw [stepNoting, notesOf_append]
    by_cases hc : .closed ∈ notesOf id st.2
    · exact .inl (List.mem_append_left _ hc)
    · have hkept := (hst.2.resolve_left hc).1.1
      exact .inr (drainedPast_step (life_step hst.1.1 a id) hkept (hpast.resolve_left hc))
  have hstart : stepNoting (s.exec before) (.startPump g) =
      ({ (s.exec before).1 with pump := .draining g }, (s.exec before).2) := by
    simp [stepNoting, step, hidle, supervise]
  have hpast : DrainedPast (acceptedPayloads (notesOf id (s.exec before).2))
      ((stepNoting (s.exec before) (.startPump g)).1.life id)
      (notesOf id (stepNoting (s.exec before) (.startPump g)).2) := by
    rw [hstart]
    exact ⟨List.prefix_refl _, .inl rfl⟩
  have hend := run_invariant_of_meets hstep
    ⟨streamInvariant_step _ _ hinv hmeets.1, .inr hpast⟩ hmeets.2
  refine (hend.2.resolve_left hopen).2.resolve_left ?_
  rw [life, hpumped]
  simp [Pump.phaseOf]

/-- The stream of one producer: the accepted payloads are queued in order, and those that
are not yet queued wait on the channel; a terminal event comes after all of them; and what was
accepted before a pump has been queued when the pump is over. -/
theorem stream_lossless {states edges : ℕ} (hnew : Runtime.new states edges = ok s)
    (thread id : ℕ) (actions : List Action)
    (hsole : ∀ thread' request, .call thread' id request ∈ actions → thread' = thread)
    (hmeets : Meets stepNoting (StreamUndisturbed id) (s, []) actions)
    (hopen : (id, .closed) ∉ (s.exec actions).2) :
    Kept ((s.exec actions).1.life id) (notesOf id (s.exec actions).2) ∧
    (∀ r queued, .pushed true r queued ∈ notesOf id (s.exec actions).2 →
      pushes (notesOf id (s.exec actions).2) =
        (acceptedPayloads (notesOf id (s.exec actions).2)).map queuedPush ++
          [(true, r, queued)]) ∧
    ∀ before g during after, actions = before ++ .startPump g :: (during ++ after) →
      (s.exec before).1.pump = .idle →
      (s.exec (before ++ .startPump g :: during)).1.pump = .idle →
      (acceptedPayloads (notesOf id (s.exec before).2)).map queuedPush <+:
        dataPushes (notesOf id (s.exec actions).2) := by
  have hsteps : Meets stepNoting (StreamStep thread id) (s, []) actions := by
    refine meets_and hmeets (meets_of_forall fun a ha thread' request hcall => ?_)
    exact hsole thread' request (hcall ▸ ha)
  have hinv : StreamInvariant thread id (s.exec actions) :=
    run_invariant_of_meets streamInvariant_step (streamInvariant_new hnew thread id) hsteps
  rw [← mem_notesOf] at hopen
  obtain ⟨⟨hkept, hgone, hfound⟩, -⟩ := hinv.2.resolve_left hopen
  refine ⟨hkept, fun r queued hterm => ?_, ?_⟩
  · -- the terminal event was pushed, so nothing waits any more
    have hmem := mem_pushes.mpr hterm
    cases hinv.1.2 with
    | closed hc => exact absurd hc hopen
    | unopened ho hm hw hns =>
      rw [hns] at hterm
      cases hterm
    | running ho hm hf hp hq hno hdata => exact absurd (hdata _ hmem) (by simp)
    | finished r' ho hm hf ht hp hres hdata => exact absurd (hdata _ hmem) (by simp)
    | delivered r' q data ho hf hphase hres hpush hdata =>
      have hlast : (true, r, queued) = (true, r', q) := by
        rw [hpush, List.mem_append, List.mem_singleton] at hmem
        refine hmem.resolve_left fun h => ?_
        exact absurd (hdata _ h) (by simp)
      have hwait : ((s.exec actions).1.life id).waiting = [] := by
        rcases hphase with ⟨-, hp⟩ | ⟨hm, -⟩
        · exact hfound (.inr hp)
        · exact hgone hm
      obtain ⟨sent, rest, hs, hr, ha⟩ := hkept
      obtain rfl : rest = [] := by simpa [hwait, eq_comm] using hr
      have hall : dataPushes (notesOf id (s.exec actions).2) = data := by
        have hfilter : data.filter (fun p => !p.1) = data :=
          List.filter_eq_self.mpr fun p hp => by simp [hdata p hp]
        rw [dataPushes, hpush, List.filter_append, hfilter]
        simp
      rw [hpush, ha, List.append_nil, ← hs, hall, hlast]
  · rintro before g during after rfl hidle hpumped
    have hsplit : before ++ .startPump g :: (during ++ after) =
        (before ++ .startPump g :: during) ++ after := by simp
    rw [hsplit] at hsteps hopen ⊢
    obtain ⟨hfront, -⟩ := meets_append.mp hsteps
    obtain ⟨hbefore, hduring⟩ := meets_append.mp hfront
    have hbeforeInv : StreamInvariant thread id (s.exec before) :=
      run_invariant_of_meets streamInvariant_step (streamInvariant_new hnew thread id) hbefore
    have hgrow : notesOf id (s.exec (before ++ .startPump g :: during)).2 <+:
        notesOf id (s.exec ((before ++ .startPump g :: during) ++ after)).2 := by
      rw [exec_append s (before ++ _)]
      exact notesOf_isPrefix (notes_isPrefix_run _ _) id
    have hpump := accepted_queued_of_pump hbeforeInv hduring hidle hpumped
      fun hc => hopen (hgrow.subset hc)
    obtain ⟨more, hmore⟩ := hgrow
    rw [← hmore, dataPushes_append]
    exact hpump.trans (List.prefix_append _ _)

/-- A producer that emits one chunk and completes the resource. -/
def producer : List Action :=
  [.call 0 1 (.emitBuffered [7] true), .resume 0, .resume 0, .call 0 1 (.complete []), .resume 0]

theorem stream_lossless_before_pump :
    pushes (notesOf 1 ((initial 64 256).exec
      (.openResource true :: producer ++ .startPump 1 :: pumpSteps 1)).2) =
      [queuedPush [7], (true, .success [], true)] := by
  have hnew : Runtime.new 64 256 = ok (initial 64 256) := rfl
  have h := (stream_lossless hnew 0 1
    (.openResource true :: producer ++ .startPump 1 :: pumpSteps 1) (by
      intro thread' request hcall
      simp only [producer, pumpSteps, List.cons_append, List.nil_append, List.mem_cons,
        List.mem_replicate, reduceCtorEq, Action.call.injEq, and_false, false_or, or_false] at hcall
      tauto)
    (by decide) (by decide)).2.1 (.success []) true (by decide)
  rw [h]
  decide

/-- The pump has drained the channel when the producer adds its chunk and completes the
resource, and reads the flag afterwards.  A second pump follows. -/
def lateRun : List Action :=
  .openResource true :: .startPump 1 :: .resumePump :: producer ++ pumpSteps 0 ++
    .startPump 1 :: pumpSteps 0

/-- The chunk was accepted, and it is discarded because the resource is gone. -/
theorem chunk_between_drain_and_flag_lost :
    (1, .accepted [7]) ∈ ((initial 64 256).exec lateRun).2 ∧
      (1, .finished (.success [])) ∈ ((initial 64 256).exec lateRun).2 ∧
      (1, .closed) ∉ ((initial 64 256).exec lateRun).2 ∧
      pushes (notesOf 1 ((initial 64 256).exec lateRun).2) = [(true, .success [], true)] ∧
      ((initial 64 256).exec lateRun).1.channel = [] := by
  refine ⟨?_, ?_, ?_, ?_, ?_⟩ <;> decide

end Runtime

end TouchBar.Supervisor
