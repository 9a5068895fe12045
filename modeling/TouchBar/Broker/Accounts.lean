import TouchBar.Broker.Changes

/-!
# Requests, answers and records

Each message of the host gets one answer, and each call of a broker one audit record.
`Accounts` counts them: for every number there have been as many answers as messages with
it, but for the operations that are still in hand, and as many records as calls, but for
the same operations.  What is in hand when the loop ends is never recorded.
-/

namespace TouchBar.Broker

open TouchBar.Rust TouchBar.Lib TouchBar.Policy TouchBar.Supervisor TouchBar.Protocol Outcome

open SupervisorConnection (AuditsOf)

/-! ## What the log says -/

/-- The messages of a log, split by whether their number was larger than all before. -/
structure Reading where
  last : ℕ
  fresh : List HostMessage
  stale : List HostMessage

def Reading.next (r : Reading) : Effect → Reading
  | .received message =>
    if r.last < (requestIdOf message).toNat then
      ⟨(requestIdOf message).toNat, r.fresh ++ [message], r.stale⟩
    else { r with stale := r.stale ++ [message] }
  | _ => r

def readingOf (log : List Effect) : Reading := run Reading.next ⟨0, [], []⟩ log

/-- The message has this number. -/
def hasId (n : ℕ) (message : HostMessage) : Bool := (requestIdOf message).toNat = n

/-- The fresh messages with a number. -/
def arrivals (log : List Effect) (n : ℕ) : ℕ := (readingOf log).fresh.countP (hasId n)

/-- The fresh calls of a broker with a number. -/
def calls (log : List Effect) (n : ℕ) : ℕ :=
  ((readingOf log).fresh.filter isOperation).countP (hasId n)

/-- The messages with a number that were not fresh. -/
def repeats (log : List Effect) (n : ℕ) : ℕ := (readingOf log).stale.countP (hasId n)

def isAnswer (n : ℕ) : Effect → Bool
  | .sent message => (answersTo message).any fun id => id.toNat = n
  | _ => false

def isRefusal (n : ℕ) : Effect → Bool
  | .refused message => (answersTo message).any fun id => id.toNat = n
  | _ => false

def isRecord (n : ℕ) : Effect → Bool
  | .audited requestId _ => requestId = n
  | _ => false

def answers (log : List Effect) (n : ℕ) : ℕ := log.countP (isAnswer n)

/-- The refusals of messages that were not fresh. -/
def refusals (log : List Effect) (n : ℕ) : ℕ := log.countP (isRefusal n)

def records (log : List Effect) (n : ℕ) : ℕ := log.countP (isRecord n)

section Reading

variable {log effects : List Effect} {message : HostMessage} {n : ℕ}

lemma readingOf_append (log effects : List Effect) :
    readingOf (log ++ effects) = run Reading.next (readingOf log) effects :=
  run_append _ log effects

/-- Effects other than arrivals do not count. -/
lemma run_next_eq (h : ∀ effect ∈ effects, ∀ message, effect ≠ .received message) (r : Reading) :
    run Reading.next r effects = r := by
  induction effects with
  | nil => rfl
  | cons effect effects ih =>
    rw [run_cons]
    have hnext : r.next effect = r := by
      cases effect with
      | received message => exact absurd rfl (h _ List.mem_cons_self message)
      | _ => rfl
    rw [hnext]
    exact ih fun e he => h e (List.mem_cons_of_mem _ he)

/-- One message arrives, and nothing else does. -/
lemma readingOf_received (h : ∀ effect ∈ effects, ∀ message, effect ≠ .received message) :
    readingOf (log ++ .received message :: effects) =
      (readingOf log).next (.received message) := by
  rw [readingOf_append, run_cons, run_next_eq h]

lemma readingOf_fresh (h : ∀ effect ∈ effects, ∀ message, effect ≠ .received message)
    (hfresh : (readingOf log).last < (requestIdOf message).toNat) :
    readingOf (log ++ .received message :: effects) =
      ⟨(requestIdOf message).toNat, (readingOf log).fresh ++ [message],
        (readingOf log).stale⟩ := by
  rw [readingOf_received h, Reading.next, if_pos hfresh]

/-- Fresh numbers increase, and none is above the last. -/
lemma fresh_sorted (log : List Effect) :
    ((readingOf log).fresh.map fun m => (requestIdOf m).toNat).Pairwise (· < ·) ∧
      ∀ m ∈ (readingOf log).fresh, (requestIdOf m).toNat ≤ (readingOf log).last := by
  refine run_invariant (P := fun r : Reading =>
    (r.fresh.map fun m => (requestIdOf m).toNat).Pairwise (· < ·) ∧
      ∀ m ∈ r.fresh, (requestIdOf m).toNat ≤ r.last) ?_ ⟨.nil, by simp⟩ log
  rintro r effect ⟨hsorted, hle⟩
  cases effect with
  | received message =>
    rw [Reading.next]
    split_ifs with hfresh
    · refine ⟨?_, fun m hm => ?_⟩
      · rw [List.map_append, List.pairwise_append]
        refine ⟨hsorted, List.pairwise_singleton _ _, fun i hi j hj => ?_⟩
        obtain ⟨m, hm, rfl⟩ := List.mem_map.mp hi
        rw [List.map_cons, List.map_nil, List.mem_singleton] at hj
        have hm' := hle m hm
        omega
      · rcases List.mem_append.mp hm with hm | hm
        · have hm' := hle m hm
          dsimp only
          omega
        · rw [List.mem_singleton.mp hm]
    · exact ⟨hsorted, hle⟩
  | _ => exact ⟨hsorted, hle⟩

/-- A fresh number has arrived once. -/
lemma arrivals_eq_one (h : message ∈ (readingOf log).fresh) :
    arrivals log (requestIdOf message).toNat = 1 := by
  have hsorted := (fresh_sorted log).1
  have hnodup : ((readingOf log).fresh.map fun m => (requestIdOf m).toNat).Nodup :=
    hsorted.imp fun hlt => hlt.ne
  have hcount := List.count_eq_one_of_mem hnodup
    (List.mem_map_of_mem (f := fun m => (requestIdOf m).toNat) h)
  rw [← hcount, arrivals, List.count, List.countP_map]
  refine List.countP_congr fun m _ => ?_
  simp [hasId]

lemma calls_eq_one (h : message ∈ (readingOf log).fresh) (hcall : isOperation message = true) :
    calls log (requestIdOf message).toNat = 1 := by
  have hone := arrivals_eq_one h
  have hle : calls log (requestIdOf message).toNat ≤ arrivals log (requestIdOf message).toNat :=
    List.Sublist.countP_le List.filter_sublist
  have hpos : 0 < calls log (requestIdOf message).toNat := by
    rw [calls, List.countP_pos_iff]
    exact ⟨message, List.mem_filter.mpr ⟨h, hcall⟩, by simp [hasId]⟩
  omega

/-- A number that was called is one of a fresh call. -/
lemma exists_of_calls_pos (h : 0 < calls log n) :
    ∃ m ∈ (readingOf log).fresh, isOperation m = true ∧ (requestIdOf m).toNat = n := by
  rw [calls, List.countP_pos_iff] at h
  obtain ⟨m, hm, hid⟩ := h
  obtain ⟨hfresh, hcall⟩ := List.mem_filter.mp hm
  exact ⟨m, hfresh, hcall, of_decide_eq_true hid⟩

end Reading

namespace ServeLoop

/-! ## The counts -/

/-- What is counted in a state of the loop.  Answers are counted while the loop runs: the
send that ends it may be an answer. -/
structure Accounts (s : ServeLoop) : Prop where
  last_eq : (readingOf s.log).last = s.connection.lastRequestId
  pending : s.connection.pendingAudit.keys.Perm s.runtime.inHand
  records_eq : ∀ n, records s.log n + s.runtime.inHand.count n = calls s.log n
  answers_eq : s.exit = none →
    ∀ n, answers s.log n + s.runtime.inHand.count n = arrivals s.log n
  refusals_eq : s.exit = none → ∀ n, refusals s.log n = repeats s.log n

variable {s s' : ServeLoop}

lemma accounts_new {policy : EffectivePolicy} {limits : ConnectionLimits}
    (h : new policy limits = ok s) : Accounts s := by
  obtain ⟨-, hlog, -, hlast, hpending, hhand⟩ := serving_new h
  refine ⟨?_, ?_, fun n => ?_, fun _ n => ?_, fun _ n => ?_⟩
  · rw [hlog, hlast]
    rfl
  · rw [hpending, hhand]
    exact .refl _
  · rw [hlog, hhand]
    rfl
  · rw [hlog, hhand]
    rfl
  · rw [hlog]
    rfl

/-- What is in hand was called, by a number that is not above the last. -/
lemma Accounts.le_last (h : Accounts s) {n : ℕ} (hn : n ∈ s.runtime.inHand) :
    0 < calls s.log n ∧ n ≤ s.connection.lastRequestId ∧ n < U64.size := by
  have hcount := h.records_eq n
  have hpos := List.count_pos_iff.mpr hn
  have hcalls : 0 < calls s.log n := by omega
  obtain ⟨m, hm, -, rfl⟩ := exists_of_calls_pos hcalls
  have hle := (fresh_sorted s.log).2 m hm
  rw [h.last_eq] at hle
  exact ⟨hcalls, hle, (requestIdOf m).toNat_lt⟩

/-- Effects that are neither arrivals nor answers, refusals or records. -/
lemma counts_neutral {effects : List Effect} (h : ∀ effect ∈ effects, Neutral effect) (n : ℕ) :
    (∀ effect ∈ effects, ∀ message, effect ≠ .received message) ∧
      effects.countP (isAnswer n) = 0 ∧ effects.countP (isRefusal n) = 0 ∧
      effects.countP (isRecord n) = 0 := by
  refine ⟨fun effect heffect message heq => ?_, ?_, ?_, ?_⟩
  · have hneutral := h effect heffect
    rw [heq] at hneutral
    exact hneutral
  all_goals
    rw [List.countP_eq_zero]
    intro effect heffect
    have hneutral := h effect heffect
    cases effect with
    | sent message =>
      have hnone : answersTo message = none := hneutral
      simp [isAnswer, isRefusal, isRecord, hnone]
    | violation => simp [isAnswer, isRefusal, isRecord]
    | received message => exact hneutral.elim
    | audited requestId record => exact hneutral.elim
    | refused message => exact hneutral.elim

/-- Every kind of step keeps the counts. -/
theorem accounts_change (h : Accounts s) (hchange : Change s s')
    (hup : s'.exit = none → s.exit = none) : Accounts s' := by
  have hbound := fun n (hn : n ∈ s.runtime.inHand) => h.le_last hn
  obtain ⟨hlast, hpending, hrecords, hanswers, hrefusals⟩ := h
  cases hchange with
  | neutral effects heffects hlog hhand hpending' hlast' =>
    have hreading : readingOf s'.log = readingOf s.log := by
      rw [hlog, readingOf_append, run_next_eq (counts_neutral heffects 0).1]
    refine ⟨?_, ?_, fun n => ?_, fun hnone n => ?_, fun hnone n => ?_⟩
    · rw [hreading, hlast', hlast]
    · rw [hpending']
      exact hpending.trans hhand.symm
    · have hzero := (counts_neutral heffects n).2.2.2
      have heq := hrecords n
      rw [records, hlog, List.countP_append, hzero, hhand.count_eq, calls, ← hlog, hreading]
      exact heq
    · have hzero := (counts_neutral heffects n).2.1
      have heq := hanswers (hup hnone) n
      rw [answers, hlog, List.countP_append, hzero, hhand.count_eq, arrivals, ← hlog, hreading]
      exact heq
    · have hzero := (counts_neutral heffects n).2.2.1
      have heq := hrefusals (hup hnone) n
      rw [refusals, hlog, List.countP_append, hzero, repeats, ← hlog, hreading]
      exact heq
  | refused message hstale hlog hhand hpending' hlast' =>
    have hnone : ∀ effect ∈ Effect.violation :: s'.delivered
        (.refused (.response (requestIdOf message) (.error .invalidRequest))),
        ∀ m, effect ≠ .received m := by
      intro effect heffect m heq
      rw [heq, delivered] at heffect
      split_ifs at heffect <;> simp at heffect
    have hreading : readingOf s'.log = { readingOf s.log with
        stale := (readingOf s.log).stale ++ [message] } := by
      rw [hlog, readingOf_received hnone, Reading.next, if_neg (by omega)]
    refine ⟨?_, ?_, fun n => ?_, fun hup' n => ?_, fun hup' n => ?_⟩
    · rw [hreading, hlast']
      exact hlast
    · rw [hpending']
      exact hpending.trans hhand.symm
    · have heq := hrecords n
      have hzero : (Effect.received message :: Effect.violation :: s'.delivered
          (.refused (.response (requestIdOf message) (.error .invalidRequest)))).countP
          (isRecord n) = 0 := by
        rw [delivered]
        split_ifs <;> rfl
      rw [records, hlog, List.countP_append, hzero, hhand.count_eq, calls, ← hlog, hreading]
      exact heq
    · have heq := hanswers (hup hup') n
      have hzero : (Effect.received message :: Effect.violation :: s'.delivered
          (.refused (.response (requestIdOf message) (.error .invalidRequest)))).countP
          (isAnswer n) = 0 := by
        rw [delivered]
        split_ifs <;> rfl
      rw [answers, hlog, List.countP_append, hzero, hhand.count_eq, arrivals, ← hlog, hreading]
      exact heq
    · -- the refusal is sent, since the loop goes on
      have heq := hrefusals (hup hup') n
      have hrefusal : (Effect.received message :: Effect.violation :: s'.delivered
          (.refused (.response (requestIdOf message) (.error .invalidRequest)))).countP
          (isRefusal n) = [message].countP (hasId n) := by
        rw [delivered, hup']
        simp [isRefusal, answersTo, hasId, List.countP_cons]
      rw [refusals, hlog, List.countP_append, hrefusal, repeats, ← hlog, hreading]
      dsimp only
      rw [List.countP_append]
      rw [refusals, repeats] at heq
      omega
  | answered message effects reply hfresh haudits hreply hlog hhand hpending' hlast' =>
    have hnone : ∀ effect ∈ effects ++ s'.delivered (.sent reply),
        ∀ m, effect ≠ .received m := by
      intro effect heffect m heq
      rw [heq, List.mem_append, delivered] at heffect
      rcases heffect with heffect | heffect
      · rw [AuditsOf] at haudits
        split_ifs at haudits
        · obtain ⟨record, rfl⟩ := haudits
          simp at heffect
        · rw [haudits] at heffect
          cases heffect
      · split_ifs at heffect <;> simp at heffect
    have hreading : readingOf (s.log ++ .received message ::
        (effects ++ s'.delivered (.sent reply))) = _ := readingOf_fresh hnone (by omega)
    rw [← hlog] at hreading
    refine ⟨?_, ?_, fun n => ?_, fun hup' n => ?_, fun hup' n => ?_⟩
    · rw [hreading, hlast']
    · rw [hpending']
      exact hpending.trans hhand.symm
    · have heq := hrecords n
      rw [records, hlog, List.countP_append, hhand.count_eq, calls, ← hlog, hreading]
      have hrecord : (Effect.received message :: (effects ++ s'.delivered (.sent reply))).countP
          (isRecord n) = ([message].filter isOperation).countP (hasId n) := by
        have hdelivered : (s'.delivered (.sent reply)).countP (isRecord n) = 0 := by
          rw [delivered]
          split_ifs <;> rfl
        rw [List.countP_cons, List.countP_append, hdelivered]
        rw [AuditsOf] at haudits
        split_ifs at haudits with hcall
        · obtain ⟨record, rfl⟩ := haudits
          simp [isRecord, hcall, hasId]
        · rw [haudits]
          simp [isRecord, hcall]
      dsimp only
      rw [List.filter_append, List.countP_append, hrecord]
      rw [records, calls] at heq
      omega
    · have heq := hanswers (hup hup') n
      rw [answers, hlog, List.countP_append, hhand.count_eq, arrivals, ← hlog, hreading]
      have hanswer : (Effect.received message :: (effects ++ s'.delivered (.sent reply))).countP
          (isAnswer n) = [message].countP (hasId n) := by
        have heffects : effects.countP (isAnswer n) = 0 := by
          rw [AuditsOf] at haudits
          split_ifs at haudits
          · obtain ⟨record, rfl⟩ := haudits
            rfl
          · rw [haudits]
            rfl
        rw [List.countP_cons, List.countP_append, heffects, delivered, hup']
        simp [isAnswer, hreply, hasId]
      dsimp only
      rw [List.countP_append, hanswer]
      rw [answers, arrivals] at heq
      omega
    · have heq := hrefusals (hup hup') n
      rw [refusals, hlog, List.countP_append, repeats, ← hlog, hreading]
      have hrefusal : (Effect.received message :: (effects ++ s'.delivered (.sent reply))).countP
          (isRefusal n) = 0 := by
        have heffects : effects.countP (isRefusal n) = 0 := by
          rw [AuditsOf] at haudits
          split_ifs at haudits
          · obtain ⟨record, rfl⟩ := haudits
            rfl
          · rw [haudits]
            rfl
        rw [List.countP_cons, List.countP_append, heffects, delivered, hup']
        simp [isRefusal]
      rw [hrefusal]
      exact heq
  | submitted message audit hfresh hcall hlog hhand hpending' hlast' =>
    have hreading : readingOf (s.log ++ .received message :: []) = _ :=
      readingOf_fresh (by simp) (by omega)
    rw [← hlog] at hreading
    refine ⟨?_, ?_, fun n => ?_, fun hup' n => ?_, fun hup' n => ?_⟩
    · rw [hreading, hlast']
    · -- the number is above all that are pending
      have hget : s.connection.pendingAudit.get (requestIdOf message).toNat = none := by
        rw [← BTreeMap.containsKey_eq_false_iff, Bool.eq_false_iff]
        intro hcontains
        rw [← BTreeMap.mem_keys_iff_containsKey, hpending.mem_iff] at hcontains
        have hle := (hbound _ hcontains).2.1
        omega
      rw [hpending']
      exact ((BTreeMap.keys_insert_perm hget).trans (hpending.cons _)).trans hhand.symm
    · have heq := hrecords n
      rw [records, hlog, List.countP_append, hhand.count_eq, calls, ← hlog, hreading]
      dsimp only
      rw [List.filter_append, List.countP_append]
      rw [records, calls] at heq
      simp only [List.countP_cons, List.countP_nil, isRecord, List.count_cons, List.filter_cons,
        hcall, List.filter_nil, hasId, if_true, Bool.false_eq_true, if_false, beq_iff_eq,
        decide_eq_true_eq]
      omega
    · have heq := hanswers (hup hup') n
      rw [answers, hlog, List.countP_append, hhand.count_eq, arrivals, ← hlog, hreading]
      dsimp only
      rw [List.countP_append]
      rw [answers, arrivals] at heq
      simp only [List.countP_cons, List.countP_nil, isAnswer, List.count_cons, hasId,
        Bool.false_eq_true, if_false, beq_iff_eq, decide_eq_true_eq]
      omega
    · have heq := hrefusals (hup hup') n
      rw [refusals, hlog, List.countP_append, repeats, ← hlog, hreading]
      exact heq
  | finished requestId result effects heffects hlog hhand hpending' hlast' =>
    have hmem : requestId ∈ s.runtime.inHand := hhand.mem_iff.mpr List.mem_cons_self
    have hsize := (hbound _ hmem).2.2
    have hcontains : s.connection.pendingAudit.containsKey requestId = true := by
      rw [← BTreeMap.mem_keys_iff_containsKey, hpending.mem_iff]
      exact hmem
    obtain ⟨audit, hget⟩ := BTreeMap.containsKey_iff.mp hcontains
    rw [Completes, if_pos hcontains] at heffects
    obtain ⟨record, rfl⟩ := heffects
    have hreading : readingOf s'.log = readingOf s.log := by
      rw [hlog, readingOf_append]
      refine run_next_eq (fun effect heffect m heq => ?_) _
      rw [heq, List.mem_append, delivered] at heffect
      rcases heffect with heffect | heffect
      · simp at heffect
      · split_ifs at heffect <;> simp at heffect
    have hcount := fun n => hhand.count_eq n
    refine ⟨?_, ?_, fun n => ?_, fun hup' n => ?_, fun hup' n => ?_⟩
    · rw [hreading, hlast', hlast]
    · rw [hpending']
      exact ((BTreeMap.keys_remove_perm hget).symm.trans (hpending.trans hhand)).cons_inv
    · have heq := hrecords n
      have hn := hcount n
      rw [records, hlog, List.countP_append, calls, ← hlog, hreading]
      have hrecord : ([Effect.audited requestId record] ++ s'.delivered
          (.sent (.response (.ofNat requestId) result))).countP (isRecord n) =
          if requestId = n then 1 else 0 := by
        have hdelivered : (s'.delivered (.sent (.response (.ofNat requestId) result))).countP
            (isRecord n) = 0 := by
          rw [delivered]
          split_ifs <;> rfl
        rw [List.countP_append, hdelivered]
        simp [List.countP_cons, isRecord]
      rw [hrecord]
      rw [List.count_cons] at hn
      rw [records, calls] at heq
      simp only [beq_iff_eq] at hn
      omega
    · have heq := hanswers (hup hup') n
      have hn := hcount n
      rw [answers, hlog, List.countP_append, arrivals, ← hlog, hreading]
      have hanswer : ([Effect.audited requestId record] ++ s'.delivered
          (.sent (.response (.ofNat requestId) result))).countP (isAnswer n) =
          if requestId = n then 1 else 0 := by
        have htoNat : (UInt64.ofNat requestId).toNat = requestId := by
          rw [UInt64.toNat_ofNat']
          exact Nat.mod_eq_of_lt hsize
        rw [List.countP_append, delivered, hup']
        simp [List.countP_cons, isAnswer, answersTo, htoNat]
      rw [hanswer]
      rw [List.count_cons] at hn
      rw [answers, arrivals] at heq
      simp only [beq_iff_eq] at hn
      omega
    · have heq := hrefusals (hup hup') n
      rw [refusals, hlog, List.countP_append, repeats, ← hlog, hreading]
      have hrefusal : ([Effect.audited requestId record] ++ s'.delivered
          (.sent (.response (.ofNat requestId) result))).countP (isRefusal n) = 0 := by
        rw [delivered]
        split_ifs <;> rfl
      rw [hrefusal]
      exact heq

lemma exit_step (call : ServeCall) (h : (s.step call).exit = none) : s.exit = none := by
  by_contra hexit
  have hsome : s.exit.isSome = true := Option.isSome_iff_ne_none.mpr hexit
  cases call with
  | turn a =>
    rw [step, if_pos hsome] at h
    exact hexit h
  | _ => exact hexit h

/-- The invariants of a run of the loop. -/
theorem run_spec {policy : EffectivePolicy} {limits : ConnectionLimits}
    (hnew : new policy limits = ok s) (calls : List ServeCall) :
    Serving (run step s calls) ∧ Accounts (run step s calls) := by
  refine run_invariant (P := fun s => Serving s ∧ Accounts s) (fun s call h => ?_)
    ⟨(serving_new hnew).1, accounts_new hnew⟩ calls
  obtain ⟨hserving, hchange, -⟩ := step_spec h.1 call
  exact ⟨hserving, accounts_change h.2 hchange (exit_step call)⟩

/-! ## Audit records -/

/-- Every call of a broker with a fresh number has exactly one record. -/
def Audited (s : ServeLoop) : Prop :=
  ∀ message ∈ (readingOf s.log).fresh, isOperation message = true →
    records s.log (requestIdOf message).toNat = 1

instance (s : ServeLoop) : Decidable (Audited s) :=
  inferInstanceAs (Decidable (∀ message ∈ (readingOf s.log).fresh, isOperation message = true →
    records s.log (requestIdOf message).toNat = 1))

/-- What has no record yet is in hand. -/
lemma audited_iff (h : Accounts s) : Audited s ↔ s.runtime.inHand = [] := by
  constructor
  · intro haudited
    rw [List.eq_nil_iff_forall_not_mem]
    intro n hn
    have hcalls := (h.le_last hn).1
    obtain ⟨m, hm, hcall, rfl⟩ := exists_of_calls_pos hcalls
    have hone := haudited m hm hcall
    have heq := h.records_eq (requestIdOf m).toNat
    have hcount := List.count_pos_iff.mpr hn
    rw [calls_eq_one hm hcall] at heq
    omega
  · intro hnil m hm hcall
    have heq := h.records_eq (requestIdOf m).toNat
    rw [hnil, List.count_nil, calls_eq_one hm hcall] at heq
    exact heq

/-- When the loop ends, every call has its record exactly if the turn that ends it leaves
no operation in hand. -/
theorem audited_iff_nothing_remains {policy : EffectivePolicy} {limits : ConnectionLimits}
    (hnew : new policy limits = ok s) (earlier : List ServeCall) (last : ServeCall)
    (hup : (run step s earlier).exit = none)
    (hended : ((run step s earlier).step last).exit ≠ none) :
    Audited ((run step s earlier).step last) ↔ (run step s earlier).remaining = [] := by
  obtain ⟨hserving, haccounts⟩ := run_spec hnew earlier
  obtain ⟨-, hchange, -, hleft⟩ := step_spec hserving last
  have hperm := hleft hup hended
  rw [audited_iff (accounts_change haccounts hchange (exit_step last))]
  constructor
  · intro hnil
    rw [hnil] at hperm
    exact hperm.nil_eq.symm
  · intro hnil
    rw [hnil] at hperm
    exact hperm.eq_nil

/-! ### A host that leaves -/

/-- A policy that grants notifications. -/
def notifying : EffectivePolicy where
  grants := [⟨⟨.notificationSendV1, true, "", .notificationSend ⟨.empty, .empty, false, 60⟩⟩,
    .granted, none, .default, false⟩]
  blocked := false
  trust := ⟨.limited, .empty⟩

def oneWorker : ConnectionLimits where
  maximumActivationLifetime := 1
  maximumStateEvents := 4
  maximumEdgeEvents := 4
  executor := ⟨1, 1, 1⟩
  backendTimeout := 1
  lifecycle := ⟨1, 1, 4096⟩

/-- Turns in which nothing happens. -/
def turns (count : ℕ) : List ServeCall := List.replicate count (.turn {})

/-- The turns that read a message, up to the next `poll`. -/
def reading (message : HostMessage) : List ServeCall :=
  [.turn { poll := .ready { channel := true } }, .turn { received := .ok message }] ++ turns 18

/-- The host sends a notification. -/
def sendNotification : HostMessage :=
  .request 1 .input "notification.send.v1" "send" [] none

/-- The host calls an operation that no backend is registered for, and leaves. -/
theorem audited_iff_nothing_remains_refused :
    ∃ s, new notifying oneWorker = ok s ∧
      Audited ((run step s (turns 9 ++ reading sendNotification ++
        [.turn { poll := .ready { channel := true } }])).step (.turn {})) ∧
      (readingOf (run step s (turns 9 ++ reading sendNotification)).log).fresh =
        [sendNotification] := by
  refine ⟨_, rfl, ?_, by decide⟩
  have hnew : new notifying oneWorker = ok _ := rfl
  exact (audited_iff_nothing_remains hnew _ _
    (by decide) (by decide)).mpr (by decide)

/-- A worker has the notification when the host leaves: it is never recorded. -/
theorem not_audited_when_host_leaves :
    ∃ s, new notifying oneWorker = ok s ∧
      (run step s (.register .notificationSendV1 :: turns 9 ++ reading sendNotification ++
        [.turn { poll := .ready { channel := true } }, .turn {}])).exit =
          some (.returned .hostDisconnected) ∧
      ¬ Audited (run step s (.register .notificationSendV1 :: turns 9 ++
        reading sendNotification ++
        [.turn { poll := .ready { channel := true } }, .turn {}])) :=
  ⟨_, rfl, by decide, by decide⟩

end ServeLoop

end TouchBar.Broker
