import TouchBar.Lib.Runs

/-!
# The commit budget of a client

Each client may commit a burst of frames at once and a number of frames per second after that.
The budget keeps a credit, which time refills up to the burst and an accepted commit takes
from, and counts the commits that it rejects within a second: too many of them end the
connection.

Times are in nanoseconds.  The state of a client also has a note of all its calls, which only
the theorems look at.
-/

namespace TouchBar.Session

open TouchBar.Lib

def clientCommitRate : ℕ := 120
def clientCommitBurst : ℕ := 8
def clientCommitRejectLimit : ℕ := 256

/-- A second. -/
def clientCommitRejectWindow : ℕ := 1000000000

/-- A value of `u128` that an operation saturates. -/
def saturateU128 (n : ℕ) : ℕ := min n (2 ^ 128 - 1)

/-- A value of `u32` that an operation saturates. -/
def saturateU32 (n : ℕ) : ℕ := min n (2 ^ 32 - 1)

inductive CommitAdmission where
  | accept
  | drop
  | disconnect
deriving DecidableEq

structure CommitBudget where
  credit : ℕ
  lastRefill : ℕ
  rejectedSince : ℕ
  rejected : ℕ

namespace CommitBudget

def token : ℕ := 1000000000

def new (now : ℕ) : CommitBudget where
  credit := clientCommitBurst * token
  lastRefill := now
  rejectedSince := now
  rejected := 0

/-- The first half of `admit`. -/
def refill (budget : CommitBudget) (now : ℕ) : CommitBudget :=
  -- `saturating_duration_since`
  let elapsed := now - budget.lastRefill
  { budget with
    credit := min (saturateU128 (budget.credit + saturateU128 (elapsed * clientCommitRate)))
      (clientCommitBurst * token)
    lastRefill := now }

/-- The second half of `admit`, when the credit is used up. -/
def reject (budget : CommitBudget) (now : ℕ) : CommitBudget × CommitAdmission :=
  let budget :=
    if clientCommitRejectWindow ≤ now - budget.rejectedSince then
      { budget with rejectedSince := now, rejected := 0 }
    else budget
  let budget := { budget with rejected := saturateU32 (budget.rejected + 1) }
  (budget, if clientCommitRejectLimit ≤ budget.rejected then .disconnect else .drop)

/-- `CommitBudget::admit`. -/
def admitCommit (budget : CommitBudget) (now : ℕ) : CommitBudget × CommitAdmission :=
  let budget := budget.refill now
  if token ≤ budget.credit then ({ budget with credit := budget.credit - token }, .accept)
  else budget.reject now

end CommitBudget

/-! ## Runs -/

/-- A client with its calls so far, each with the time and the answer. -/
structure BudgetedClient where
  budget : CommitBudget
  calls : List (ℕ × CommitAdmission)

namespace BudgetedClient

def new (now : ℕ) : BudgetedClient := ⟨.new now, []⟩

/-- A commit. -/
def commit (client : BudgetedClient) (now : ℕ) : BudgetedClient where
  budget := (client.budget.admitCommit now).1
  calls := client.calls ++ [(now, (client.budget.admitCommit now).2)]

end BudgetedClient

/-- The calls between two times, both included, with an answer that passes a test. -/
def callsWithin (test : CommitAdmission → Bool) (calls : List (ℕ × CommitAdmission))
    (lower upper : ℕ) : ℕ :=
  calls.countP fun call => test call.2 && (lower ≤ call.1 && call.1 ≤ upper)

def CommitAdmission.isAccept (admission : CommitAdmission) : Bool := admission = .accept

def CommitAdmission.isReject (admission : CommitAdmission) : Bool := !admission.isAccept

/-- A number of commits in the time between two instants is one that the budget allows: the
burst and what the rate gives in that time. -/
def Allowed (commits lower upper : ℕ) : Prop :=
  commits * CommitBudget.token ≤
    clientCommitBurst * CommitBudget.token + clientCommitRate * (upper - lower)

/-! ## One call -/

namespace CommitBudget

variable {budget : CommitBudget} {now : ℕ}

@[simp] lemma lastRefill_refill : (budget.refill now).lastRefill = now := rfl

@[simp] lemma rejectedSince_refill :
    (budget.refill now).rejectedSince = budget.rejectedSince := rfl

@[simp] lemma rejected_refill : (budget.refill now).rejected = budget.rejected := rfl

lemma credit_refill : (budget.refill now).credit =
    min (budget.credit + (now - budget.lastRefill) * clientCommitRate)
      (clientCommitBurst * token) := by
  simp only [refill, saturateU128, clientCommitRate, clientCommitBurst, token]
  omega

lemma reject_ne_accept : (budget.reject now).2 ≠ .accept := by
  rw [reject]
  split_ifs <;> exact fun h => by cases h

/-- A rejection leaves the credit, and counts in a window that is younger than a second. -/
lemma reject_spec (budget : CommitBudget) (now : ℕ) :
    (budget.reject now).1.credit = budget.credit ∧
      (budget.reject now).1.lastRefill = budget.lastRefill ∧
      now - (budget.reject now).1.rejectedSince < clientCommitRejectWindow ∧
      (((budget.reject now).1.rejectedSince = now ∧ (budget.reject now).1.rejected ≤ 1) ∨
        ((budget.reject now).1.rejectedSince = budget.rejectedSince ∧
          (budget.reject now).1.rejected ≤ budget.rejected + 1)) := by
  by_cases hold : clientCommitRejectWindow ≤ now - budget.rejectedSince
  · rw [reject, if_pos hold]
    refine ⟨rfl, rfl, ?_, .inl ⟨rfl, min_le_left _ _⟩⟩
    rw [Nat.sub_self]
    exact Nat.succ_pos _
  · rw [reject, if_neg hold]
    exact ⟨rfl, rfl, not_le.mp hold, .inr ⟨rfl, min_le_left _ _⟩⟩

/-- What a call does with the credit. -/
inductive Admits (budget : CommitBudget) (now : ℕ) : CommitBudget × CommitAdmission → Prop where
  | accept {credit : ℕ} (h : credit + token = (budget.refill now).credit) :
      Admits budget now ({ budget.refill now with credit := credit }, .accept)
  | reject (h : (budget.refill now).credit < token) :
      Admits budget now ((budget.refill now).reject now)

lemma admits (budget : CommitBudget) (now : ℕ) : budget.Admits now (budget.admitCommit now) := by
  rw [admitCommit]
  split_ifs with h
  · exact .accept (Nat.sub_add_cancel h)
  · exact .reject (not_le.mp h)

end CommitBudget

/-! ## Counting calls -/

section Count

variable {test : CommitAdmission → Bool} {calls : List (ℕ × CommitAdmission)}
  {call : ℕ × CommitAdmission} {lower upper last : ℕ}

lemma callsWithin_concat : callsWithin test (calls ++ [call]) lower upper =
    callsWithin test calls lower upper +
      if test call.2 && (lower ≤ call.1 && call.1 ≤ upper) then 1 else 0 := by
  rw [callsWithin, List.countP_append, List.countP_singleton, callsWithin]

/-- A call that passes the test and comes last. -/
lemma callsWithin_concat_of_test (h : test call.2 = true) (hle : lower ≤ call.1) :
    callsWithin test (calls ++ [call]) lower call.1 =
      callsWithin test calls lower call.1 + 1 := by
  rw [callsWithin_concat, h, decide_eq_true hle, decide_eq_true (le_refl call.1)]
  rfl

lemma callsWithin_concat_of_not_test (h : test call.2 = false) :
    callsWithin test (calls ++ [call]) lower upper = callsWithin test calls lower upper := by
  rw [callsWithin_concat, h]
  rfl

/-- No call came after the last one. -/
lemma callsWithin_of_le (hlast : ∀ call ∈ calls, call.1 ≤ last) (hle : last ≤ upper) :
    callsWithin test calls lower upper = callsWithin test calls lower last := by
  apply List.countP_congr
  intro call hcall
  have h := hlast call hcall
  rw [decide_eq_true h, decide_eq_true (h.trans hle)]

lemma callsWithin_eq_zero (hlast : ∀ call ∈ calls, call.1 ≤ last) (hlt : last < lower) :
    callsWithin test calls lower upper = 0 := by
  rw [callsWithin, List.countP_eq_zero]
  intro call hcall
  have h := hlast call hcall
  rw [decide_eq_false (show ¬lower ≤ call.1 by omega)]
  simp

end Count

/-! ## What a run keeps -/

/-- The credit and the count of rejections against the history.  From any instant on, the
accepted commits and the credit stay within the allowance, and since the last instant at which
the credit was full they use it up. -/
structure Tracks (client : BudgetedClient) : Prop where
  times : ∀ call ∈ client.calls, call.1 ≤ client.budget.lastRefill
  credit_le : client.budget.credit ≤ clientCommitBurst * CommitBudget.token
  within : ∀ lower ≤ client.budget.lastRefill,
    callsWithin CommitAdmission.isAccept client.calls lower client.budget.lastRefill *
          CommitBudget.token + client.budget.credit ≤
      clientCommitBurst * CommitBudget.token +
        clientCommitRate * (client.budget.lastRefill - lower)
  used : ∃ since ≤ client.budget.lastRefill,
    clientCommitBurst * CommitBudget.token +
        clientCommitRate * (client.budget.lastRefill - since) ≤
      client.budget.credit +
        callsWithin CommitAdmission.isAccept client.calls since client.budget.lastRefill *
          CommitBudget.token
  since_le : client.budget.rejectedSince ≤ client.budget.lastRefill
  rejected_le : client.budget.rejected ≤
    callsWithin CommitAdmission.isReject client.calls client.budget.rejectedSince
      client.budget.lastRefill

lemma tracks_new (start : ℕ) : Tracks (.new start) where
  times := by
    intro call hcall
    cases hcall
  credit_le := le_rfl
  within := by
    intro lower _
    show 0 * CommitBudget.token + clientCommitBurst * CommitBudget.token ≤ _
    omega
  used := by
    refine ⟨start, le_rfl, ?_⟩
    show _ + clientCommitRate * (start - start) ≤ clientCommitBurst * CommitBudget.token + _
    rw [Nat.sub_self, Nat.mul_zero]
    omega
  since_le := le_rfl
  rejected_le := Nat.zero_le _

namespace Tracks

variable {client : BudgetedClient} (h : Tracks client) {now : ℕ}

include h

/-- The times of the calls up to a call that comes now. -/
lemma times_commit (hle : client.budget.lastRefill ≤ now) (admission : CommitAdmission) :
    ∀ call ∈ client.calls ++ [(now, admission)], call.1 ≤ now := by
  intro call hcall
  rcases List.mem_append.mp hcall with hcall | hcall
  · exact (h.times call hcall).trans hle
  · rw [List.mem_singleton.mp hcall]

lemma within_refill (hle : client.budget.lastRefill ≤ now) {lower : ℕ} (hlower : lower ≤ now) :
    callsWithin CommitAdmission.isAccept client.calls lower now * CommitBudget.token +
        (client.budget.refill now).credit ≤
      clientCommitBurst * CommitBudget.token + clientCommitRate * (now - lower) := by
  rw [CommitBudget.credit_refill]
  rcases Nat.lt_or_ge client.budget.lastRefill lower with hlt | hge
  · -- the time between began after the last call
    rw [callsWithin_eq_zero h.times hlt]
    omega
  · have hwithin := h.within lower hge
    rw [callsWithin_of_le h.times hle]
    simp only [clientCommitRate, clientCommitBurst, CommitBudget.token] at hwithin ⊢
    omega

lemma used_refill (hle : client.budget.lastRefill ≤ now) : ∃ since ≤ now,
    clientCommitBurst * CommitBudget.token + clientCommitRate * (now - since) ≤
      (client.budget.refill now).credit +
        callsWithin CommitAdmission.isAccept client.calls since now * CommitBudget.token := by
  rw [CommitBudget.credit_refill]
  rcases Nat.lt_or_ge (client.budget.credit + (now - client.budget.lastRefill) *
    clientCommitRate) (clientCommitBurst * CommitBudget.token) with hlt | hge
  · obtain ⟨since, hsince, hused⟩ := h.used
    refine ⟨since, hsince.trans hle, ?_⟩
    rw [callsWithin_of_le h.times hle]
    simp only [clientCommitRate, clientCommitBurst, CommitBudget.token] at hused hlt ⊢
    omega
  · -- the credit is full now
    refine ⟨now, le_rfl, ?_⟩
    rw [min_eq_right hge, Nat.sub_self, Nat.mul_zero]
    omega

lemma commit (hle : client.budget.lastRefill ≤ now) : Tracks (client.commit now) := by
  have hwithin := @within_refill client h now hle
  have hused := h.used_refill hle
  have hcredit : (client.budget.refill now).credit ≤ clientCommitBurst * CommitBudget.token := by
    rw [CommitBudget.credit_refill]
    exact min_le_right _ _
  have hrejected : (client.budget.refill now).rejected ≤
      callsWithin CommitAdmission.isReject client.calls client.budget.rejectedSince now := by
    rw [callsWithin_of_le h.times hle]
    exact h.rejected_le
  have hadmits := client.budget.admits now
  have hcommit : client.commit now =
    ⟨(client.budget.admitCommit now).1,
      client.calls ++ [(now, (client.budget.admitCommit now).2)]⟩ := rfl
  rw [hcommit]
  generalize client.budget.admitCommit now = result at hadmits ⊢
  cases hadmits with
  | @accept credit hpaid =>
    refine ⟨h.times_commit hle _, ?_, ?_, ?_, h.since_le.trans hle, ?_⟩
    · exact le_trans (hpaid ▸ Nat.le_add_right _ _) hcredit
    · intro lower hlower
      have hbefore := hwithin hlower
      have hone := @callsWithin_concat_of_test CommitAdmission.isAccept client.calls
        (now, .accept) lower rfl hlower
      simp only [CommitBudget.lastRefill_refill] at hone ⊢
      rw [hone, Nat.add_mul]
      omega
    · obtain ⟨since, hsince, hbefore⟩ := hused
      have hone := @callsWithin_concat_of_test CommitAdmission.isAccept client.calls
        (now, .accept) since rfl hsince
      refine ⟨since, hsince, ?_⟩
      simp only [CommitBudget.lastRefill_refill] at hone ⊢
      rw [hone, Nat.add_mul]
      omega
    · simp only [CommitBudget.lastRefill_refill]
      rw [callsWithin_concat_of_not_test rfl]
      exact hrejected
  | reject hsmall =>
    have hanswer := @CommitBudget.reject_ne_accept (client.budget.refill now) now
    obtain ⟨hsame, hlast, -, hwindow⟩ := CommitBudget.reject_spec (client.budget.refill now) now
    have haccept : CommitAdmission.isAccept ((client.budget.refill now).reject now).2 = false :=
      decide_eq_false hanswer
    have hreject : CommitAdmission.isReject ((client.budget.refill now).reject now).2 = true := by
      rw [CommitAdmission.isReject, haccept]
      rfl
    generalize (client.budget.refill now).reject now = result at *
    rw [CommitBudget.lastRefill_refill] at hlast
    refine ⟨?_, ?_, ?_, ?_, ?_, ?_⟩
    · rw [hlast]
      exact h.times_commit hle _
    · rw [hsame]
      exact hcredit
    · intro lower hlower
      rw [hlast] at hlower ⊢
      rw [hsame, callsWithin_concat_of_not_test haccept]
      exact hwithin hlower
    · obtain ⟨since, hsince, hbefore⟩ := hused
      rw [hlast]
      refine ⟨since, hsince, ?_⟩
      rw [hsame, callsWithin_concat_of_not_test haccept]
      exact hbefore
    · rw [hlast]
      rcases hwindow with ⟨hnow, -⟩ | ⟨hsince, -⟩
      · rw [hnow]
      · rw [hsince]
        exact h.since_le.trans hle
    · show result.1.rejected ≤ callsWithin CommitAdmission.isReject
        (client.calls ++ [(now, result.2)]) result.1.rejectedSince result.1.lastRefill
      rw [hlast]
      rcases hwindow with ⟨hnow, hone⟩ | ⟨hsince, hone⟩
      · have hlast := @callsWithin_concat_of_test _ client.calls (now, result.2) now hreject le_rfl
        rw [hnow]
        dsimp only at hlast
        omega
      · have hsince' : client.budget.rejectedSince ≤ now := h.since_le.trans hle
        have hlast := @callsWithin_concat_of_test _ client.calls (now, result.2) _ hreject hsince'
        rw [hsince, CommitBudget.rejectedSince_refill]
        rw [CommitBudget.rejected_refill] at hone hrejected
        dsimp only at hlast
        omega

end Tracks

section Runs

variable {start now : ℕ} {times : List ℕ}

lemma calls_times (start : ℕ) (times : List ℕ) :
    (run BudgetedClient.commit (.new start) times).calls.map Prod.fst = times := by
  induction times using List.reverseRecOn with
  | nil => rfl
  | append_singleton times now ih =>
    rw [run_append, run_cons, run_nil, BudgetedClient.commit, List.map_append, ih]
    rfl

lemma lastRefill_run (start : ℕ) (times : List ℕ) (now : ℕ) :
    (run BudgetedClient.commit (.new start) (times ++ [now])).budget.lastRefill = now := by
  rw [run_append, run_cons, run_nil]
  have hadmits := (run BudgetedClient.commit (.new start) times).budget.admits now
  rw [BudgetedClient.commit]
  generalize CommitBudget.admitCommit _ now = result at hadmits ⊢
  cases hadmits with
  | accept => rfl
  | reject =>
    exact (CommitBudget.reject_spec _ now).2.1

/-- The instant of the last refill is one of the times that there have been. -/
lemma lastRefill_mem (start : ℕ) (times : List ℕ) :
    (run BudgetedClient.commit (.new start) times).budget.lastRefill ∈ start :: times := by
  induction times using List.reverseRecOn with
  | nil => exact List.mem_cons_self ..
  | append_singleton times now ih =>
    rw [lastRefill_run]
    exact List.mem_cons_of_mem _ (List.mem_append_right _ (List.mem_singleton_self now))

lemma tracks_run (h : (start :: times).Pairwise (· ≤ ·)) :
    Tracks (run BudgetedClient.commit (.new start) times) := by
  induction times using List.reverseRecOn with
  | nil => exact tracks_new start
  | append_singleton times now ih =>
    rw [← List.cons_append, List.pairwise_append] at h
    rw [run_append, run_cons, run_nil]
    exact (ih h.1).commit (h.2.2 _ (lastRefill_mem start times) now (List.mem_singleton_self now))

/-- The accepted commits of any interval are allowed. -/
lemma allowed_accepts (h : (start :: times).Pairwise (· ≤ ·)) {lower upper : ℕ} :
    Allowed (callsWithin CommitAdmission.isAccept
      (run BudgetedClient.commit (.new start) times).calls lower upper) lower upper := by
  induction times using List.reverseRecOn with
  | nil => exact (Nat.zero_mul _).trans_le (Nat.zero_le _)
  | append_singleton times now ih =>
    have htracks := tracks_run h
    have hlast := lastRefill_run start times now
    have hbefore : (start :: times).Pairwise (· ≤ ·) := by
      rw [← List.cons_append, List.pairwise_append] at h
      exact h.1
    by_cases hnow : now ≤ upper
    · -- the interval ends with the last call, or begins after it
      have htimes := htracks.times
      have hwithin := htracks.within lower
      rw [hlast] at htimes hwithin
      rcases Nat.lt_or_ge now lower with hlt | hge
      · rw [callsWithin_eq_zero htimes hlt]
        exact (Nat.zero_mul _).trans_le (Nat.zero_le _)
      · have hallowed := hwithin hge
        have hshorter : clientCommitRate * (now - lower) ≤ clientCommitRate * (upper - lower) :=
          Nat.mul_le_mul_left _ (by omega)
        rw [callsWithin_of_le htimes hnow, Allowed]
        omega
    · -- the interval ends before the last call
      have hallowed := ih hbefore
      rw [run_append, run_cons, run_nil, BudgetedClient.commit]
      dsimp only
      rw [callsWithin_concat, decide_eq_false hnow, Bool.and_false, Bool.and_false]
      exact hallowed

/-- A call that is not accepted would have broken the allowance. -/
lemma exceeds_of_ne_accept (h : (start :: (times ++ [now])).Pairwise (· ≤ ·))
    (hne : ((run BudgetedClient.commit (.new start) times).budget.admitCommit now).2 ≠ .accept) :
    ∃ lower ≤ now, ¬Allowed (callsWithin CommitAdmission.isAccept
      (run BudgetedClient.commit (.new start) times).calls lower now + 1) lower now := by
  have hle : (run BudgetedClient.commit (.new start) times).budget.lastRefill ≤ now := by
    rw [← List.cons_append, List.pairwise_append] at h
    exact h.2.2 _ (lastRefill_mem start times) now (List.mem_singleton_self now)
  rw [← List.cons_append, List.pairwise_append] at h
  obtain ⟨since, hsince, hused⟩ := (tracks_run h.1).used_refill hle
  have hadmits := (run BudgetedClient.commit (.new start) times).budget.admits now
  generalize hresult : CommitBudget.admitCommit _ now = result at hadmits hne
  cases hadmits with
  | accept => exact absurd rfl hne
  | reject hsmall =>
    refine ⟨since, hsince, ?_⟩
    rw [Allowed, Nat.add_mul]
    omega

/-- As long as the calls themselves keep to the allowance, each is accepted. -/
lemma accepted_of_allowed (h : (start :: times).Pairwise (· ≤ ·))
    (hallowed : ∀ lower upper, lower ≤ upper →
      Allowed (times.countP fun time => lower ≤ time && time ≤ upper) lower upper) :
    ∀ call ∈ (run BudgetedClient.commit (.new start) times).calls, call.2 = .accept := by
  induction times using List.reverseRecOn with
  | nil =>
    intro call hcall
    cases hcall
  | append_singleton times now ih =>
    have hbefore : (start :: times).Pairwise (· ≤ ·) := by
      rw [← List.cons_append, List.pairwise_append] at h
      exact h.1
    have hcalls := ih hbefore fun lower upper hle => by
      refine le_trans (Nat.mul_le_mul_right _ ?_) (hallowed lower upper hle)
      rw [List.countP_append]
      exact Nat.le_add_right _ _
    have haccept : ((run BudgetedClient.commit (.new start) times).budget.admitCommit now).2 =
        .accept := by
      by_contra hne
      obtain ⟨lower, hlower, hexceeds⟩ := exceeds_of_ne_accept h hne
      refine hexceeds ?_
      have hall := hallowed lower now hlower
      have hcount : callsWithin CommitAdmission.isAccept
          (run BudgetedClient.commit (.new start) times).calls lower now =
            times.countP fun time => lower ≤ time && time ≤ now := by
        nth_rewrite 2 [← calls_times start times]
        rw [callsWithin, List.countP_map]
        apply List.countP_congr
        intro call hcall
        rw [hcalls call hcall]
        rfl
      rw [hcount]
      rw [List.countP_append, List.countP_singleton, decide_eq_true hlower,
        decide_eq_true (le_refl now)] at hall
      exact hall
    intro call hcall
    rw [run_append, run_cons, run_nil] at hcall
    rcases List.mem_append.mp hcall with hcall | hcall
    · exact hcalls call hcall
    · rw [List.mem_singleton.mp hcall]
      exact haccept

/-- A disconnected client has had enough commits rejected within less than a second. -/
lemma rejections_of_disconnect (h : (start :: (times ++ [now])).Pairwise (· ≤ ·))
    (hdisconnect : ((run BudgetedClient.commit (.new start) times).budget.admitCommit now).2 =
      .disconnect) :
    ∃ since ≤ now, now - since < clientCommitRejectWindow ∧
      clientCommitRejectLimit ≤ callsWithin CommitAdmission.isReject
        (run BudgetedClient.commit (.new start) (times ++ [now])).calls since now := by
  have htracks := tracks_run h
  have hlast := lastRefill_run start times now
  have hadmits := (run BudgetedClient.commit (.new start) times).budget.admits now
  have hbudget : (run BudgetedClient.commit (.new start) (times ++ [now])).budget =
      ((run BudgetedClient.commit (.new start) times).budget.admitCommit now).1 := by
    rw [run_append]
    rfl
  have hlimit : clientCommitRejectLimit ≤
        ((run BudgetedClient.commit (.new start) times).budget.admitCommit now).1.rejected ∧
      now -
        ((run BudgetedClient.commit (.new start) times).budget.admitCommit now).1.rejectedSince <
        clientCommitRejectWindow := by
    generalize CommitBudget.admitCommit _ now = result at hadmits hdisconnect
    cases hadmits with
    | accept => cases hdisconnect
    | reject =>
      refine ⟨?_, (CommitBudget.reject_spec _ now).2.2.1⟩
      rw [CommitBudget.reject] at hdisconnect ⊢
      dsimp only at hdisconnect ⊢
      by_contra hfew
      rw [if_neg hfew] at hdisconnect
      cases hdisconnect
  rw [← hbudget] at hlimit
  have hsince := htracks.since_le
  have hrejected := htracks.rejected_le
  rw [hlast] at hsince hrejected
  exact ⟨_, hsince, hlimit.2, hlimit.1.trans hrejected⟩

/-- In every interval the accepted commits stay within the burst and the rate; a commit is
rejected only if accepting it would break that for an interval that ends with it; a client that
keeps to it has every commit accepted; and a client is disconnected only after so many rejected
commits within less than a second. -/
theorem commits_admitted_tightly (start : ℕ) (times : List ℕ)
    (h : (start :: times).Pairwise (· ≤ ·)) :
    (∀ lower upper, lower ≤ upper → Allowed (callsWithin CommitAdmission.isAccept
      (run BudgetedClient.commit (.new start) times).calls lower upper) lower upper) ∧
    (∀ front now rest, times = front ++ now :: rest →
      ((run BudgetedClient.commit (.new start) front).budget.admitCommit now).2 ≠ .accept →
        ∃ lower ≤ now, ¬Allowed (callsWithin CommitAdmission.isAccept
          (run BudgetedClient.commit (.new start) front).calls lower now + 1) lower now) ∧
    ((∀ lower upper, lower ≤ upper →
      Allowed (times.countP fun time => lower ≤ time && time ≤ upper) lower upper) →
        ∀ call ∈ (run BudgetedClient.commit (.new start) times).calls, call.2 = .accept) ∧
    ∀ front now rest, times = front ++ now :: rest →
      ((run BudgetedClient.commit (.new start) front).budget.admitCommit now).2 = .disconnect →
        ∃ since ≤ now, now - since < clientCommitRejectWindow ∧
          clientCommitRejectLimit ≤ callsWithin CommitAdmission.isReject
            (run BudgetedClient.commit (.new start) (front ++ [now])).calls since now := by
  have hfront : ∀ front now rest, times = front ++ now :: rest →
      (start :: (front ++ [now])).Pairwise (· ≤ ·) := by
    rintro front now rest rfl
    rw [List.append_cons] at h
    exact h.sublist (List.Sublist.cons_cons _ (List.sublist_append_left _ rest))
  refine ⟨?_, fun front now rest heq => exceeds_of_ne_accept (hfront front now rest heq),
    accepted_of_allowed h,
    fun front now rest heq => rejections_of_disconnect (hfront front now rest heq)⟩
  exact fun lower upper _ => allowed_accepts h

/-- The ninth commit at one instant is rejected, and nine would exceed the burst. -/
theorem commits_admitted_tightly_nine :
    ((run BudgetedClient.commit (.new 0) (List.replicate 8 0)).budget.admitCommit 0).2 = .drop ∧
      ∃ lower ≤ 0, ¬Allowed (callsWithin CommitAdmission.isAccept
        (run BudgetedClient.commit (.new 0) (List.replicate 8 0)).calls lower 0 + 1) lower 0 := by
  have hdrop : ((run BudgetedClient.commit (.new 0) (List.replicate 8 0)).budget.admitCommit 0).2 =
      .drop := by decide
  refine ⟨hdrop, ?_⟩
  refine (commits_admitted_tightly 0 (List.replicate 9 0) (by decide)).2.1 (List.replicate 8 0) 0
    [] rfl ?_
  rw [hdrop]
  exact fun h => by cases h

end Runs

end TouchBar.Session
