import TouchBar.Supervisor.ResourceLife

/-!
# Stages of a resource

A resource is unopened, running, finished, delivered or closed by the host, and each step of
its life keeps it in its stage or takes it to the next one.  Since every step of the
runtime keeps it well formed, every resource is in a stage after every run.
-/

namespace TouchBar.Supervisor

open TouchBar.Rust TouchBar.Lib TouchBar.Protocol Outcome

/-! ## Stages -/

/-- The pushes among the notes of a resource. -/
def pushes (ns : List Note) : List (Bool × BrokerResult × Bool) :=
  ns.filterMap fun
    | .pushed terminal result queued => some (terminal, result, queued)
    | _ => none

/-- The payloads that producers were told are accepted. -/
def acceptedPayloads (ns : List Note) : List (List UInt8) :=
  ns.filterMap fun
    | .accepted payload => some payload
    | _ => none

lemma pushes_append (l m : List Note) : pushes (l ++ m) = pushes l ++ pushes m := by
  simp [pushes]

lemma acceptedPayloads_append (l m : List Note) :
    acceptedPayloads (l ++ m) = acceptedPayloads l ++ acceptedPayloads m := by
  simp [acceptedPayloads]

lemma mem_pushes {terminal queued : Bool} {r : BrokerResult} {ns : List Note} :
    (terminal, r, queued) ∈ pushes ns ↔ .pushed terminal r queued ∈ ns := by
  rw [pushes, List.mem_filterMap]
  constructor
  · rintro ⟨n, hn, hp⟩
    cases n <;> simp_all
  · intro h
    exact ⟨_, h, rfl⟩

/-- The stage of a resource, given all notes of it so far. -/
inductive Stage (l : Life) (ns : List Note) : Prop
  /-- the host closed or revoked it, or it never came to be managed -/
  | closed : .closed ∈ ns → Stage l ns
  | unopened : l.opened = false → l.managed = false → l.waiting = [] → ns = [] →
      l.phase ≠ .unread → l.phase ≠ .found → l.phase ≠ .pushed → Stage l ns
  | running : l.opened = true → l.managed = true → l.finished = false →
      l.phase ≠ .found → l.phase ≠ .pushed → (∀ r, .finished r ∉ ns) →
      (∀ p ∈ pushes ns, p.1 = false) → Stage l ns
  | finished (r : BrokerResult) : l.opened = true → l.managed = true → l.finished = true →
      l.terminal = some r → l.phase ≠ .pushed → (∀ r', .finished r' ∈ ns ↔ r' = r) →
      (∀ p ∈ pushes ns, p.1 = false) → Stage l ns
  | delivered (r : BrokerResult) (queued : Bool) (data : List (Bool × BrokerResult × Bool)) :
      l.opened = true → l.finished = true →
      (l.managed = true ∧ l.phase = .pushed ∨
        l.managed = false ∧ l.phase ≠ .unread ∧ l.phase ≠ .found ∧ l.phase ≠ .pushed) →
      (∀ r', .finished r' ∈ ns ↔ r' = r) → pushes ns = data ++ [(true, r, queued)] →
      (∀ p ∈ data, p.1 = false) → Stage l ns

variable {full : Bool} {t : Turn} {l l' : Life} {ns prior : List Note}

lemma stage_step_unopened (h : Life.Step full t l ns l') (ho : l.opened = false)
    (hm : l.managed = false) (hw : l.waiting = []) (hns : prior = []) (hu : l.phase ≠ .unread)
    (hf : l.phase ≠ .found) (hp : l.phase ≠ .pushed) : Stage l' (prior ++ ns) := by
  subst hns
  cases h with
  | stutter => exact .unopened ho hm hw rfl hu hf hp
  | openKept => exact .running rfl rfl rfl hf hp (by simp) (by simp [pushes])
  | openRefused => exact .closed (by simp)
  | start => exact .unopened ho hm hw rfl (by simp) (by simp) (by simp)
  | drained => exact .unopened ho hm hw rfl (by simp [hm]) (by simp [hm]) (by simp [hm])
  | leave => exact .unopened ho hm hw rfl (by simp) (by simp) (by simp)
  | accept => simp_all
  | finish => simp_all
  | drain => simp_all
  | discard => simp_all
  | read => contradiction
  | push => contradiction
  | remove => contradiction
  | close => simp_all
  | revoke => simp_all

lemma stage_step_running (h : Life.Step full t l ns l') (ho : l.opened = true)
    (hm : l.managed = true) (hfin : l.finished = false) (hf : l.phase ≠ .found)
    (hp : l.phase ≠ .pushed) (hno : ∀ r, .finished r ∉ prior)
    (hdata : ∀ p ∈ pushes prior, p.1 = false) : Stage l' (prior ++ ns) := by
  cases h with
  | stutter => exact .running ho hm hfin hf hp (by simpa using hno) (by simpa using hdata)
  | openKept h => simp_all
  | openRefused h => simp_all
  | accept p =>
    exact .running ho hm hfin hf hp (by simpa using hno) (by simpa [pushes] using hdata)
  | finish r =>
    refine .finished r ho hm rfl rfl hp (fun r' => ?_) (by simpa [pushes] using hdata)
    simp [hno]
  | start =>
    exact .running ho hm hfin (by simp) (by simp) (by simpa using hno) (by simpa using hdata)
  | drain w rest =>
    refine .running ho hm hfin hf hp (by simpa using hno) ?_
    rw [pushes_append]
    intro p hpush
    rcases List.mem_append.mp hpush with h | h
    · exact hdata p h
    · simp_all [pushes]
  | discard w rest _ _ h => simp_all
  | drained =>
    exact .running ho hm hfin (by simp [hm]) (by simp [hm]) (by simpa using hno)
      (by simpa using hdata)
  | read =>
    exact .running ho hm hfin (by simp [hfin]) (by simp [hfin]) (by simpa using hno)
      (by simpa using hdata)
  | push => contradiction
  | remove => contradiction
  | leave =>
    exact .running ho hm hfin (by simp) (by simp) (by simpa using hno) (by simpa using hdata)
  | close => exact .closed (by simp)
  | revoke => exact .closed (by simp)

lemma stage_step_finished {r : BrokerResult} (h : Life.Step full t l ns l')
    (ho : l.opened = true) (hm : l.managed = true) (hfin : l.finished = true)
    (hterm : l.terminal = some r) (hp : l.phase ≠ .pushed)
    (hres : ∀ r', .finished r' ∈ prior ↔ r' = r)
    (hdata : ∀ p ∈ pushes prior, p.1 = false) : Stage l' (prior ++ ns) := by
  cases h with
  | stutter =>
    exact .finished r ho hm hfin hterm hp (by simpa using hres) (by simpa using hdata)
  | openKept h => simp_all
  | openRefused h => simp_all
  | accept p =>
    exact .finished r ho hm hfin hterm hp (by simpa using hres)
      (by simpa [pushes] using hdata)
  | finish r' _ h => simp_all
  | start =>
    exact .finished r ho hm hfin hterm (by simp) (by simpa using hres) (by simpa using hdata)
  | drain w rest =>
    refine .finished r ho hm hfin hterm hp (by simpa using hres) ?_
    rw [pushes_append]
    intro p hpush
    rcases List.mem_append.mp hpush with h | h
    · exact hdata p h
    · simp_all [pushes]
  | discard w rest _ _ h => simp_all
  | drained =>
    exact .finished r ho hm hfin hterm (by simp [hm]) (by simpa using hres)
      (by simpa using hdata)
  | read =>
    exact .finished r ho hm hfin hterm (by simp [hfin]) (by simpa using hres)
      (by simpa using hdata)
  | push =>
    -- the terminal cell still holds the result, so this is the event that is pushed
    refine .delivered r (!full) (pushes prior) ho hfin (.inl ⟨hm, rfl⟩)
      (by simpa using hres) ?_ hdata
    simp [pushes, hterm]
  | remove => contradiction
  | leave =>
    exact .finished r ho hm hfin hterm (by simp) (by simpa using hres) (by simpa using hdata)
  | close => exact .closed (by simp)
  | revoke => exact .closed (by simp)

lemma stage_step_delivered {r : BrokerResult} {queued : Bool}
    {data : List (Bool × BrokerResult × Bool)} (h : Life.Step full t l ns l')
    (ho : l.opened = true) (hfin : l.finished = true)
    (hphase : l.managed = true ∧ l.phase = .pushed ∨
      l.managed = false ∧ l.phase ≠ .unread ∧ l.phase ≠ .found ∧ l.phase ≠ .pushed)
    (hres : ∀ r', .finished r' ∈ prior ↔ r' = r)
    (hlast : pushes prior = data ++ [(true, r, queued)])
    (hdata : ∀ p ∈ data, p.1 = false) : Stage l' (prior ++ ns) := by
  -- a step that pushes nothing and finishes nothing keeps what is known of the notes
  have hquiet : ∀ {l' : Life} {ns : List Note}, pushes ns = [] → (∀ r', .finished r' ∉ ns) →
      l'.opened = true → l'.finished = true →
      (l'.managed = true ∧ l'.phase = .pushed ∨
        l'.managed = false ∧ l'.phase ≠ .unread ∧ l'.phase ≠ .found ∧ l'.phase ≠ .pushed) →
      Stage l' (prior ++ ns) := by
    intro l' ns hpush hfinish ho' hfin' hphase'
    refine .delivered r queued data ho' hfin' hphase' (fun r' => ?_) ?_ hdata
    · rw [List.mem_append, hres, or_iff_left (hfinish r')]
    · rw [pushes_append, hpush, hlast, List.append_nil]
  cases h with
  | stutter => exact hquiet rfl (by simp) ho hfin hphase
  | openKept h => simp_all
  | openRefused h => simp_all
  | accept p => exact hquiet rfl (by simp) ho hfin hphase
  | finish r' _ h => simp_all
  | start h =>
    refine hquiet rfl (by simp) ho hfin (.inr ?_)
    simp_all
  | drain w rest h _ hm => simp_all
  | discard w rest => exact hquiet rfl (by simp) ho hfin hphase
  | drained h =>
    refine hquiet rfl (by simp) ho hfin (.inr ?_)
    simp_all
  | read h => simp_all
  | push h => simp_all
  | remove h => exact hquiet rfl (by simp) ho rfl (.inr ⟨rfl, by simp⟩)
  | leave h =>
    refine hquiet rfl (by simp) ho hfin (.inr ?_)
    simp_all
  | close => exact .closed (by simp)
  | revoke => exact .closed (by simp)

/-- Each step of its life takes a resource from a stage to a stage. -/
theorem stage_step (h : Life.Step full t l ns l') (hst : Stage l prior) :
    Stage l' (prior ++ ns) := by
  cases hst with
  | closed hc => exact .closed (List.mem_append_left _ hc)
  | unopened ho hm hw hns hu hf hp => exact stage_step_unopened h ho hm hw hns hu hf hp
  | running ho hm hfin hf hp hno hdata => exact stage_step_running h ho hm hfin hf hp hno hdata
  | finished r ho hm hfin hterm hp hres hdata =>
    exact stage_step_finished h ho hm hfin hterm hp hres hdata
  | delivered r queued data ho hfin hphase hres hlast hdata =>
    exact stage_step_delivered h ho hfin hphase hres hlast hdata

namespace Runtime

variable {s : Runtime} {id i : ℕ} {a : Action}

/-! ## Well-formedness -/

/-- A step keeps an opened resource opened, and manages only opened resources. -/
lemma opened_of_step {l l' : Life} {ns : List Note} (h : Life.Step full t l ns l') :
    (l.opened = true → l'.opened = true) ∧
      ((l.managed = true → l.opened = true) → l'.managed = true → l'.opened = true) := by
  cases h <;> simp_all

/-- A thread comes before `try_send` only past a test of the flag. -/
lemma calls_enter (thread : ℕ) (request : SinkCall) :
    (s.enter thread i request).calls = s.calls ∨
      ∃ p : Pending, p.resourceId = i ∧ (p.sends = true → s.isFinished i = false) ∧
        (s.enter thread i request).calls = Function.update s.calls thread (some p) := by
  cases request with
  | emit payload slot =>
    rw [enter]
    split_ifs with hfin
    · exact .inl rfl
    · exact .inr ⟨_, rfl, by simp [Pending.sends], rfl⟩
    · exact .inl rfl
    · exact .inr ⟨_, rfl, fun _ => Bool.eq_false_iff.mpr hfin, rfl⟩
  | emitBuffered payload slot =>
    rw [enter]
    split_ifs <;> exact .inr ⟨_, rfl, by simp [Pending.sends], rfl⟩
  | complete payload =>
    rw [enter]
    split_ifs <;> exact .inr ⟨_, rfl, by simp [Pending.sends], rfl⟩
  | finish code => exact .inr ⟨_, rfl, by simp [Pending.sends], rfl⟩

/-- A thread stays with its resource, and comes before `try_send` only past a test of
the flag. -/
lemma calls_resume (thread : ℕ) (pending : Pending) :
    ∃ c : Option Pending, (s.resume thread pending).1.calls = Function.update s.calls thread c ∧
      ∀ p, c = some p → p.resourceId = pending.resourceId ∧
        (p.sends = true → s.isFinished pending.resourceId = false) := by
  cases pending with
  | emitSend i payload =>
    rw [resume]
    split_ifs
    · exact ⟨none, rfl, by simp⟩
    · exact ⟨some _, rfl, by rintro p ⟨⟩; simp [Pending.resourceId, Pending.sends]⟩
  | bufferCheck i payload =>
    rw [resume]
    split_ifs with hfin
    · exact ⟨none, rfl, by simp⟩
    · refine ⟨some _, rfl, ?_⟩
      rintro p ⟨⟩
      exact ⟨rfl, fun _ => Bool.eq_false_iff.mpr hfin⟩
  | bufferSend i payload =>
    rw [resume]
    split_ifs
    · exact ⟨none, rfl, by simp⟩
    · exact ⟨some _, rfl, by rintro p ⟨⟩; simp [Pending.resourceId, Pending.sends]⟩
  | setTerminal i result =>
    rw [resume]
    split_ifs <;> exact ⟨none, rfl, by simp⟩

/-- A producer does not touch what belongs to the supervisor. -/
lemma enter_frame (thread : ℕ) (request : SinkCall) :
    (s.enter thread i request).resources = s.resources ∧
      (s.enter thread i request).pump = s.pump ∧
      (s.enter thread i request).nextResourceId = s.nextResourceId := by
  cases request with
  | emit payload slot =>
    rw [enter]
    split_ifs <;> exact ⟨rfl, rfl, rfl⟩
  | emitBuffered payload slot =>
    rw [enter]
    split_ifs <;> exact ⟨rfl, rfl, rfl⟩
  | complete payload =>
    rw [enter]
    split_ifs <;> exact ⟨rfl, rfl, rfl⟩
  | finish code => exact ⟨rfl, rfl, rfl⟩

lemma resume_frame (thread : ℕ) (pending : Pending) :
    (s.resume thread pending).1.resources = s.resources ∧
      (s.resume thread pending).1.pump = s.pump ∧
      (s.resume thread pending).1.nextResourceId = s.nextResourceId := by
  cases pending <;> rw [resume] <;> split_ifs <;> exact ⟨rfl, rfl, rfl⟩

/-- The pump does not touch the calls of the producers. -/
lemma resumePump_frame (p : Pump) : (s.resumePump p).1.calls = s.calls ∧
    (s.resumePump p).1.nextResourceId = s.nextResourceId := by
  cases p with
  | idle => exact ⟨rfl, rfl⟩
  | draining g =>
    rw [resumePump]
    split
    · exact ⟨rfl, rfl⟩
    · split <;> exact ⟨rfl, rfl⟩
  | reading g unread found => cases unread <;> exact ⟨rfl, rfl⟩
  | terminals g pending found =>
    cases pending with
    | nil => exact ⟨rfl, rfl⟩
    | cons i pending =>
      rw [resumePump]
      split <;> exact ⟨rfl, rfl⟩
  | closing found =>
    obtain ⟨-, -, hnext, hcalls⟩ := closeMany_frame (s := s) found
    exact ⟨hcalls, hnext⟩

/-- Between two pumps the supervisor can start one, and no more. -/
lemma supervise_frame (hp : s.pump = .idle) : (s.supervise a).1.calls = s.calls ∧
    s.nextResourceId ≤ (s.supervise a).1.nextResourceId ∧
    ((s.supervise a).1.pump = .idle ∨ ∃ g, (s.supervise a).1.pump = .draining g) := by
  cases a with
  | openResource kept =>
    rw [supervise]
    split_ifs
    · exact ⟨rfl, le_rfl, .inl hp⟩
    · exact ⟨rfl, Nat.le_succ _, .inl hp⟩
    · exact ⟨rfl, Nat.le_succ _, .inl hp⟩
  | closeResource i =>
    obtain ⟨-, -, hnext, hcalls, hpump⟩ := close_frame (s := s) (i := i)
    exact ⟨hcalls, hnext.ge, .inl (hpump.trans hp)⟩
  | revoke i g =>
    rw [supervise]
    split
    · exact ⟨rfl, le_rfl, .inl hp⟩
    · obtain ⟨-, -, hnext, hcalls, hpump⟩ :=
        close_frame (s := { s with events := s.events.pushResource i _ (.error .denied) g })
          (i := i)
      exact ⟨hcalls, hnext.ge, .inl (hpump.trans hp)⟩
  | pushCapability g state =>
    rw [supervise]
    cases s.events.pushCapability g state <;> exact ⟨rfl, le_rfl, .inl hp⟩
  | startPump g => exact ⟨rfl, le_rfl, .inr ⟨g, rfl⟩⟩
  | popEvent => exact ⟨rfl, le_rfl, .inl hp⟩
  | pushCompletion requestId result g => exact ⟨rfl, le_rfl, .inl hp⟩
  | call thread i request => exact ⟨rfl, le_rfl, .inl hp⟩
  | resume thread => exact ⟨rfl, le_rfl, .inl hp⟩
  | resumePump => exact ⟨rfl, le_rfl, .inl hp⟩

/-- How a step changes what the producers are doing: not at all, or for one thread, which
enters a call or moves on in its call. -/
lemma calls_step (s : Runtime) (a : Action) :
    (s.step a).1.calls = s.calls ∨
      ∃ thread c i, (s.step a).1.calls = Function.update s.calls thread c ∧
        (∀ p, c = some p → p.resourceId = i ∧ (p.sends = true → s.isFinished i = false)) ∧
        ((∃ request, a = .call thread i request ∧ s.opened i = true) ∨
          ∃ pending, s.calls thread = some pending ∧ pending.resourceId = i) := by
  rcases producer_or_supervisor s a with ⟨thread, i, request, rfl⟩ | ⟨thread, rfl⟩ | ⟨h, -⟩ | h
  · rw [step]
    split_ifs with hready
    · rcases calls_enter (s := s) (i := i) thread request with h | ⟨p, hp, hsends, h⟩
      · exact .inl h
      · refine .inr ⟨thread, some p, i, h, ?_, .inl ⟨request, rfl, ?_⟩⟩
        · rintro q ⟨⟩
          exact ⟨hp, hsends⟩
        · simp only [Bool.and_eq_true] at hready
          exact hready.1
    · exact .inl rfl
  · rw [step]
    cases hcall : s.calls thread with
    | none => exact .inl rfl
    | some pending =>
      obtain ⟨c, hc, hnext⟩ := calls_resume (s := s) thread pending
      exact .inr ⟨thread, c, _, hc, hnext, .inr ⟨pending, hcall, rfl⟩⟩
  · rw [h]
    exact .inl (resumePump_frame _).1
  · rw [h]
    split_ifs with hp
    · exact .inl (supervise_frame hp).1
    · exact .inl rfl

lemma nextResourceId_le_step (s : Runtime) (a : Action) :
    s.nextResourceId ≤ (s.step a).1.nextResourceId := by
  rcases producer_or_supervisor s a with ⟨thread, i, request, rfl⟩ | ⟨thread, rfl⟩ | ⟨h, -⟩ | h
  · rw [step]
    split_ifs
    · exact (enter_frame thread request).2.2.ge
    · exact le_rfl
  · rw [step]
    cases s.calls thread with
    | none => exact le_rfl
    | some pending => exact (resume_frame thread pending).2.2.ge
  · rw [h]
    exact (resumePump_frame _).2.ge
  · rw [h]
    split_ifs with hp
    · exact (supervise_frame hp).2.1
    · exact le_rfl

lemma nodup_keys (m : BTreeMap ℕ ℕ) : m.keys.Nodup := by
  have h : m.keys.Pairwise (· < ·) := List.pairwise_map.mpr m.sorted
  exact h.imp ne_of_lt

lemma fits_resumePump (hs : s.WellFormed) :
    (s.resumePump s.pump).1.pump.Fits (s.resumePump s.pump).1.managed := by
  have hfits := hs.fits
  cases hp : s.pump with
  | idle =>
    rw [resumePump, hp]
    trivial
  | draining g =>
    rw [resumePump]
    split
    · refine ⟨by simpa using nodup_keys s.resources, fun id hid => ?_⟩
      rw [List.append_nil] at hid
      exact mem_keys_iff.mp hid
    · split <;> simp only [pushNext, hp] <;> trivial
  | reading g unread found =>
    rw [hp] at hfits
    obtain ⟨hnodup, hmanaged⟩ := hfits
    cases unread with
    | nil => exact ⟨hnodup, fun _ h => h, hmanaged⟩
    | cons i unread =>
      rw [resumePump]
      split_ifs
      · have hperm : (unread ++ (found ++ [i])).Perm (i :: unread ++ found) := by
          rw [← List.append_assoc]
          exact List.perm_append_singleton i _
        exact ⟨hperm.nodup_iff.mpr hnodup, fun id hid => hmanaged id (hperm.mem_iff.mp hid)⟩
      · exact ⟨(List.nodup_cons.mp hnodup).2,
          fun id hid => hmanaged id (List.mem_cons_of_mem _ hid)⟩
  | terminals g pending found =>
    rw [hp] at hfits
    obtain ⟨hnodup, hsub, hmanaged⟩ := hfits
    cases pending with
    | nil => exact hmanaged
    | cons i pending =>
      have htail : pending ⊆ found := fun id hid => hsub (List.mem_cons_of_mem _ hid)
      obtain ⟨n, hget⟩ := managed_eq_true.mp (hmanaged i (hsub List.mem_cons_self))
      rw [resumePump, hget]
      refine ⟨(List.nodup_cons.mp hnodup).2, htail, fun id hid => ?_⟩
      have hpush := managed_pushNext (s := { s with pump := .terminals g pending found }) hget
        ((s.cells i).terminal.getD (.error .internal)) g
      exact (congrFun hpush id).trans (hmanaged id hid)
  | closing found => trivial

lemma fits_of_frame {s' : Runtime} (hs : s.WellFormed) (hres : s'.resources = s.resources)
    (hpump : s'.pump = s.pump) : s'.pump.Fits s'.managed := by
  have hmanaged : s'.managed = s.managed := by
    funext id
    rw [managed, hres]
    rfl
  rw [hpump, hmanaged]
  exact hs.fits

/-- Every step keeps the runtime well formed. -/
theorem wellFormed_step (hs : s.WellFormed) (a : Action) : (s.step a).1.WellFormed := by
  have hlife := fun id => opened_of_step (life_step hs a id)
  have hopened : ∀ id, s.opened id = true → (s.step a).1.opened id = true :=
    fun id => (hlife id).1
  refine ⟨hs.next_pos.trans_le (nextResourceId_le_step s a),
    fun id => (hlife id).2 (hs.managed_opened id), ?_, ?_⟩
  · intro thread pending hcall
    apply hopened
    rcases calls_step s a with h | ⟨thread', c, i, h, hc, hi⟩
    · rw [h] at hcall
      exact hs.calls_opened thread pending hcall
    · rw [h, Function.update_apply] at hcall
      split_ifs at hcall
      · rw [(hc pending hcall).1]
        rcases hi with ⟨-, -, hi⟩ | ⟨q, hq, rfl⟩
        · exact hi
        · exact hs.calls_opened thread' q hq
      · exact hs.calls_opened thread pending hcall
  · rcases producer_or_supervisor s a with
      ⟨thread, i, request, rfl⟩ | ⟨thread, rfl⟩ | ⟨h, -⟩ | h
    · rw [step]
      split_ifs
      · obtain ⟨hres, hpump, -⟩ := enter_frame (s := s) (i := i) thread request
        exact fits_of_frame hs hres hpump
      · exact hs.fits
    · rw [step]
      cases s.calls thread with
      | none => exact hs.fits
      | some pending =>
        obtain ⟨hres, hpump, -⟩ := resume_frame (s := s) thread pending
        exact fits_of_frame hs hres hpump
    · rw [h]
      exact fits_resumePump hs
    · rw [h]
      split_ifs with hp
      · rcases (supervise_frame (a := a) hp).2.2 with hidle | ⟨g, hg⟩
        · rw [hidle]
          trivial
        · rw [hg]
          trivial
      · exact hs.fits

lemma wellFormed_new {states edges : ℕ} (h : Runtime.new states edges = ok s) :
    s.WellFormed := by
  rw [Runtime.new] at h
  split_ifs at h
  cases h
  refine ⟨Nat.one_pos, ?_, ?_, trivial⟩
  · simp [initial, managed, BTreeMap.containsKey]
  · simp [initial]

end Runtime

end TouchBar.Supervisor
