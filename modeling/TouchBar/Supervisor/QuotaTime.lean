import TouchBar.Supervisor.Quota

/-!
# Durable quotas and real time

A quota counts in slots, while the clock is read with its fractions of a second.  What is
less than a window old lies at most 60 slots back, but the record holds the present slot and
59 before it.  A reservation late in its slot is therefore dropped early in the slot 60 after
it, up to a slot before the window is over.

The limit holds of every run whose readings avoid that, and of the schedules that do not
avoid it each has a run that breaks it.
-/

namespace TouchBar.Supervisor

open TouchBar.Rust TouchBar.Lib Outcome

/-! ## Calls with readings of the clock -/

def nanosPerSecond : ℕ := 10 ^ 9

/-- A reading of the clock in nanoseconds since the epoch. -/
abbrev Nanos : Type := Fin (2 ^ 63 * nanosPerSecond)

/-- `as_secs`. -/
def Nanos.asSecs (reading : Nanos) : Seconds :=
  ⟨reading / nanosPerSecond,
    Nat.div_lt_of_lt_mul (reading.isLt.trans_le (Nat.mul_comm _ _).le)⟩

/-- A call of `reserve` with the full reading of its clock. -/
structure TimedCall where
  reading : Nanos
  locked : Outcome BrokerErrorCode Unit
  written : Outcome BrokerErrorCode Unit
  bytes : UInt64
deriving DecidableEq

def TimedCall.toCall (maximum : UInt64) (call : TimedCall) : QuotaCall where
  clock := some call.reading.asSecs
  locked := call.locked
  written := call.written
  bytes := call.bytes
  maximum := maximum

namespace PersistentQuota

/-- The window of a quota. -/
def windowSeconds (quota : PersistentQuota) : ℕ := quota.secondsPerSlot * quotaSlots

lemma new_windowSeconds {quotaNamespace : String} {seconds : ℕ} {quota : PersistentQuota}
    (h : new quotaNamespace seconds = ok quota) : quota.windowSeconds = seconds := by
  unfold new at h
  split_ifs at h with hempty hwindow
  obtain rfl := ok.inj h
  exact Nat.div_mul_cancel (Nat.dvd_of_mod_eq_zero (by omega))

/-- The slot of a reading, counted from the epoch. -/
def slotOf (quota : PersistentQuota) (reading : Nanos) : ℕ := quota.tick reading.asSecs

def timedStep (quota : PersistentQuota) (maximum : UInt64) (s : QuotaRun) (call : TimedCall) :
    QuotaRun :=
  quota.step s (call.toCall maximum)

/-- The calls of a run that succeed. -/
def succeededFrom (quota : PersistentQuota) (maximum : UInt64) (s : QuotaRun)
    (calls : List TimedCall) : List TimedCall :=
  accepted (quota.timedStep maximum)
    (fun s call => (quota.reserve s.file (call.toCall maximum)).isOk) s calls

def succeeded (quota : PersistentQuota) (maximum : UInt64) (calls : List TimedCall) :
    List TimedCall :=
  quota.succeededFrom maximum start calls

end PersistentQuota

/-- The bytes reserved in an interval of time. -/
def bytesWithin (first last : ℕ) (calls : List TimedCall) : ℕ :=
  ((calls.filter fun call => first ≤ call.reading ∧ call.reading ≤ last).map
    fun call => call.bytes.toNat).sum

/-- No interval shorter than the window has more than the maximum. -/
def LimitHolds (windowSeconds : ℕ) (maximum : UInt64) (calls : List TimedCall) : Prop :=
  ∀ first last : ℕ, last < first + windowSeconds * nanosPerSecond →
    bytesWithin first last calls ≤ maximum.toNat

/-! ## What a call sees of the earlier ones -/

lemma bytesWithin_append (first last : ℕ) (calls more : List TimedCall) :
    bytesWithin first last (calls ++ more) =
      bytesWithin first last calls + bytesWithin first last more := by
  simp [bytesWithin]

/-- Ticks in order are their own effective ticks. -/
lemma effective_eq_self {latest : ℕ} {reservations : List (ℕ × ℕ)}
    (hlatest : ∀ r ∈ reservations, latest ≤ r.1)
    (hsorted : reservations.Pairwise fun r r' => r.1 ≤ r'.1) :
    effective latest reservations = reservations := by
  induction reservations generalizing latest with
  | nil => rfl
  | cons r reservations ih =>
    obtain ⟨hafter, hsorted⟩ := List.pairwise_cons.mp hsorted
    have hmax : max latest r.1 = r.1 := max_eq_right (hlatest r List.mem_cons_self)
    rw [effective, hmax, ih hafter hsorted]

lemma latestTick_le {tick : ℕ} {reservations : List (ℕ × ℕ)}
    (h : ∀ r ∈ reservations, r.1 ≤ tick) : latestTick reservations ≤ tick := by
  have hfold : ∀ (l : List ℕ) (a : ℕ), a ≤ tick → (∀ b ∈ l, b ≤ tick) → l.foldl max a ≤ tick := by
    intro l
    induction l with
    | nil => exact fun a ha _ => ha
    | cons b l ih =>
      intro a ha hl
      exact ih _ (max_le ha (hl b List.mem_cons_self)) fun c hc => hl c (List.mem_cons_of_mem _ hc)
  refine hfold _ 0 (Nat.zero_le _) fun b hb => ?_
  obtain ⟨r, hr, rfl⟩ := List.mem_map.mp hb
  exact h r hr

namespace PersistentQuota

variable {quota : PersistentQuota} {maximum : UInt64} {s : QuotaRun} {call : TimedCall}
  {made calls : List TimedCall}

/-- What is recorded of a call. -/
def entry (quota : PersistentQuota) (call : TimedCall) : ℕ × ℕ :=
  (quota.slotOf call.reading, call.bytes.toNat)

lemma slotOf_mono (quota : PersistentQuota) {t t' : Nanos} (h : t ≤ t') :
    quota.slotOf t ≤ quota.slotOf t' :=
  Nat.div_le_div_right (Nat.div_le_div_right h)

/-- `s` is the state after the successful calls `made`, which came in order. -/
structure Records (quota : PersistentQuota) (s : QuotaRun) (made : List TimedCall) : Prop where
  inv : Inv s
  reservations : s.reservations = made.map quota.entry
  sorted : made.Pairwise fun c c' => c.reading ≤ c'.reading

lemma records_start (quota : PersistentQuota) : quota.Records start [] :=
  ⟨inv_start, rfl, List.Pairwise.nil⟩

variable (h : quota.Records s made) (hlast : ∀ c ∈ made, c.reading ≤ call.reading)

include h hlast in
/-- After calls in order, a call sees the earlier ones of its own slot and of the 59 before
it. -/
lemma Records.heldBy_eq (maximum : UInt64) :
    quota.heldBy s (call.toCall maximum) =
      windowSum quotaSlots (quota.slotOf call.reading) (made.map quota.entry) := by
  have hsorted : (made.map quota.entry).Pairwise fun r r' => r.1 ≤ r'.1 :=
    List.pairwise_map.mpr (h.sorted.imp fun hle => quota.slotOf_mono hle)
  have hle : latestTick (made.map quota.entry) ≤ quota.slotOf call.reading := by
    refine latestTick_le fun r hr => ?_
    obtain ⟨c, hc, rfl⟩ := List.mem_map.mp hr
    exact quota.slotOf_mono (hlast c hc)
  have htick : quota.effectiveTick s (call.toCall maximum) = quota.slotOf call.reading := by
    rw [effectiveTick, h.reservations]
    exact max_eq_right hle
  rw [heldBy, htick, h.reservations, effective_eq_self (fun r _ => Nat.zero_le r.1) hsorted]

include h hlast in
/-- Exactly when a call succeeds after calls in order. -/
lemma Records.isOk_iff (maximum : UInt64) :
    (quota.reserve s.file (call.toCall maximum)).isOk = true ↔
      call.locked = ok () ∧ call.written = ok () ∧
        windowSum quotaSlots (quota.slotOf call.reading) (made.map quota.entry) +
          call.bytes.toNat ≤ maximum.toNat := by
  rw [Outcome.isOk_iff]
  simp only [quota.reserve_eq_ok h.inv, h.heldBy_eq hlast]
  constructor
  · rintro ⟨file, hlocked, -, hwritten, hroom, -⟩
    exact ⟨hlocked, hwritten, hroom⟩
  · rintro ⟨hlocked, hwritten, hroom⟩
    exact ⟨_, hlocked, rfl, hwritten, hroom, rfl⟩

include h hlast in
lemma Records.step_ok
    (hok : (quota.reserve s.file (call.toCall maximum)).isOk = true) :
    quota.Records (quota.timedStep maximum s call) (made ++ [call]) := by
  obtain ⟨file, hfile⟩ := Outcome.isOk_iff.mp hok
  refine ⟨quota.inv_step h.inv _, ?_, ?_⟩
  · rw [timedStep, step, hfile, List.map_append, ← h.reservations]
    rfl
  · refine List.pairwise_append.mpr ⟨h.sorted, List.pairwise_singleton _ _, ?_⟩
    intro c hc c' hc'
    rw [List.mem_singleton.mp hc']
    exact hlast c hc

/-- A call that fails changes nothing. -/
lemma timedStep_of_fails (hfails : (quota.reserve s.file (call.toCall maximum)).isOk = false) :
    quota.timedStep maximum s call = s := by
  rw [timedStep, step]
  split
  · rename_i file hfile
    simp [hfile, Outcome.isOk] at hfails
  · rfl

/-! ## Readings that keep the limit -/

/-- Two readings less than a window apart are less than 60 slots apart. -/
def Apart (quota : PersistentQuota) (t t' : Nanos) : Prop :=
  (t' : ℕ) < t + quota.windowSeconds * nanosPerSecond →
    quota.slotOf t' < quota.slotOf t + quotaSlots

/-- The bytes of an interval that ends with the call are among those that the call sees, if
all readings are apart. -/
lemma bytesWithin_le_windowSum {first last : ℕ}
    (hapart : ∀ c ∈ made, quota.Apart c.reading call.reading)
    (hinterval : last < first + quota.windowSeconds * nanosPerSecond)
    (hcall : (call.reading : ℕ) ≤ last) :
    bytesWithin first last made ≤
      windowSum quotaSlots (quota.slotOf call.reading) (made.map quota.entry) := by
  rw [windowSum_map]
  refine sum_filter_le _ fun c hc hin => ?_
  obtain ⟨hfirst, -⟩ := hin
  exact hapart c hc (by omega)

/-- Calls whose readings come in order and are apart keep the limit. -/
lemma limitHolds_append (h : quota.Records s made)
    (hsorted : ((made ++ calls).map TimedCall.reading).Pairwise (· ≤ ·))
    (hapart : ((made ++ calls).map TimedCall.reading).Pairwise (quota.Apart))
    (hlimit : LimitHolds quota.windowSeconds maximum made) :
    LimitHolds quota.windowSeconds maximum (made ++ quota.succeededFrom maximum s calls) := by
  induction calls generalizing s made with
  | nil => simpa [succeededFrom, accepted] using hlimit
  | cons call calls ih =>
    have hlast : ∀ c ∈ made, c.reading ≤ call.reading := by
      intro c hc
      rw [List.map_append] at hsorted
      exact (List.pairwise_append.mp hsorted).2.2 _ (List.mem_map_of_mem hc) _ (by simp)
    have hcallApart : ∀ c ∈ made, quota.Apart c.reading call.reading := by
      intro c hc
      rw [List.map_append] at hapart
      exact (List.pairwise_append.mp hapart).2.2 _ (List.mem_map_of_mem hc) _ (by simp)
    cases hok : (quota.reserve s.file (call.toCall maximum)).isOk with
    | false =>
      have hskip : (made ++ calls).Sublist (made ++ call :: calls) :=
        (List.sublist_cons_self _ _).append_left _
      have hrest := ih h (hsorted.sublist (hskip.map _)) (hapart.sublist (hskip.map _)) hlimit
      rw [succeededFrom, accepted, hok, timedStep_of_fails hok]
      exact hrest
    | true =>
      have hassoc : made ++ call :: calls = (made ++ [call]) ++ calls := by simp
      rw [hassoc] at hsorted hapart
      have hrest := ih (h.step_ok hlast hok) hsorted hapart ?_
      · rw [succeededFrom, accepted, hok, if_pos rfl, ← List.append_assoc]
        exact hrest
      · intro first last hinterval
        obtain ⟨-, -, hroom⟩ := (h.isOk_iff hlast maximum).mp hok
        rw [bytesWithin_append]
        by_cases hin : first ≤ call.reading ∧ call.reading ≤ last
        · have hheld := bytesWithin_le_windowSum hcallApart hinterval hin.2
          have hself : bytesWithin first last [call] = call.bytes.toNat := by
            simp [bytesWithin, hin]
          omega
        · have hself : bytesWithin first last [call] = 0 := by simp [bytesWithin, hin]
          have hmade := hlimit first last hinterval
          omega

/-! ## Readings that break it -/

/-- A call for one byte that meets no failure. -/
def oneByte (reading : Nanos) : TimedCall := ⟨reading, ok (), ok (), 1⟩

/-- Some calls at all readings of a schedule do what calls at some of its readings do: the
others do not get the lock. -/
lemma exists_calls {schedule chosen : List Nanos} (hsub : chosen.Sublist schedule)
    (quota : PersistentQuota) (maximum : UInt64) (s : QuotaRun) :
    ∃ calls : List TimedCall, calls.map TimedCall.reading = schedule ∧
      quota.succeededFrom maximum s calls =
        quota.succeededFrom maximum s (chosen.map oneByte) := by
  induction hsub generalizing s with
  | slnil => exact ⟨[], rfl, rfl⟩
  | cons t _ ih =>
    obtain ⟨calls, hcalls, hsame⟩ := ih s
    let skipped : TimedCall := ⟨t, err .internal, ok (), 0⟩
    have hfails : (quota.reserve s.file (skipped.toCall maximum)).isOk = false := rfl
    refine ⟨skipped :: calls, by simp [skipped, hcalls], ?_⟩
    rw [succeededFrom, accepted, hfails, timedStep_of_fails hfails]
    exact hsame
  | cons_cons t _ ih =>
    obtain ⟨calls, hcalls, hsame⟩ := ih (quota.timedStep maximum s (oneByte t))
    refine ⟨oneByte t :: calls, by simp [oneByte, hcalls], ?_⟩
    rw [succeededFrom, accepted, List.map_cons, succeededFrom, accepted]
    exact congrArg (_ ++ ·) hsame

/-- Two bytes are reserved under a maximum of one, if the first reading has left the
record at the second. -/
lemma succeeded_pair {t t' : Nanos} (hle : t ≤ t')
    (hfar : quota.slotOf t + quotaSlots ≤ quota.slotOf t') :
    quota.succeeded 1 ([t, t'].map oneByte) = [oneByte t, oneByte t'] := by
  have hfirst : (quota.reserve start.file ((oneByte t).toCall 1)).isOk = true := by
    rw [quota.records_start.isOk_iff (by simp)]
    exact ⟨rfl, rfl, by simp [windowSum, oneByte]⟩
  have hrecords := quota.records_start.step_ok (by simp) hfirst
  have hsecond : (quota.reserve (quota.timedStep 1 start (oneByte t)).file
      ((oneByte t').toCall 1)).isOk = true := by
    rw [hrecords.isOk_iff (by simpa [oneByte] using hle)]
    refine ⟨rfl, rfl, ?_⟩
    have hgone : ¬quota.slotOf t' < quota.slotOf t + quotaSlots := by omega
    have hnone : windowSum quotaSlots (quota.slotOf (oneByte t').reading)
        (([] ++ [oneByte t]).map quota.entry) = 0 := by
      show windowSum quotaSlots (quota.slotOf t') [(quota.slotOf t, _)] = 0
      rw [windowSum_singleton, if_neg hgone]
    rw [hnone, Nat.zero_add]
    exact le_rfl
  simp only [succeeded, succeededFrom, List.map_cons, List.map_nil, accepted, hfirst, hsecond]
  rfl

/-- A quota limits every interval shorter than its window exactly for the schedules whose
readings are apart: there it does so whatever is asked for, and for any other schedule some
requests break it. -/
theorem limitHolds_iff_apart {quotaNamespace : String} {windowSeconds : ℕ}
    {quota : PersistentQuota} (hnew : new quotaNamespace windowSeconds = ok quota)
    (schedule : List Nanos) (hsorted : schedule.Pairwise (· ≤ ·)) :
    (∀ (maximum : UInt64) (calls : List TimedCall), calls.map TimedCall.reading = schedule →
        LimitHolds windowSeconds maximum (quota.succeeded maximum calls)) ↔
      schedule.Pairwise fun (t t' : Nanos) =>
        (t' : ℕ) < (t : ℕ) + windowSeconds * nanosPerSecond →
          quota.slotOf t' < quota.slotOf t + quotaSlots := by
  obtain rfl := new_windowSeconds hnew
  constructor
  · intro hlimit
    rw [List.pairwise_iff_forall_sublist]
    intro t t' hsub hnear
    by_contra hfar
    have hle : t ≤ t' := by
      rw [List.pairwise_iff_forall_sublist] at hsorted
      exact hsorted hsub
    obtain ⟨calls, hcalls, hsame⟩ := exists_calls hsub quota 1 start
    have hbroken := hlimit 1 calls hcalls t t' hnear
    rw [succeeded, hsame] at hbroken
    rw [← succeeded, succeeded_pair hle (Nat.le_of_not_lt hfar)] at hbroken
    have htwo : bytesWithin t t' [oneByte t, oneByte t'] = 2 := by
      simp [bytesWithin, oneByte, hle]
    rw [htwo] at hbroken
    exact absurd hbroken (by decide)
  · rintro hapart maximum calls rfl
    have hempty : LimitHolds quota.windowSeconds maximum [] := fun _ _ _ => Nat.zero_le _
    have hreadings : (([] ++ calls).map TimedCall.reading).Pairwise (quota.Apart) :=
      hapart
    exact limitHolds_append (records_start quota) hsorted hreadings hempty

/-- The quota of the file writes of a package. -/
def hourlyQuota : PersistentQuota := ⟨60, by decide⟩

/-- A call at a time that meets no failure. -/
def plainCall (nanos : Nanos) (bytes : UInt64) : TimedCall := ⟨nanos, ok (), ok (), bytes⟩

/-- Half an hour after the first call, the second one is refused. -/
theorem limitHolds_iff_apart_halfHour :
    LimitHolds 3600 1000 (hourlyQuota.succeeded 1000
      [plainCall ⟨0, by decide⟩ 600, plainCall ⟨1800000000000, by decide⟩ 600]) :=
  (@limitHolds_iff_apart "filesystem-write:alice" 3600 hourlyQuota rfl
    [⟨0, by decide⟩, ⟨1800000000000, by decide⟩] (by decide)).mpr (by decide)
    1000 _ rfl

/-- A thousand bytes at the end of the first minute and a thousand bytes an hour after its
beginning both pass a limit of a thousand bytes for an hour. -/
theorem hour_exceeded :
    ¬∀ (quotaNamespace : String) (windowSeconds : ℕ) (quota : PersistentQuota),
      new quotaNamespace windowSeconds = ok quota →
        ∀ (maximum : UInt64) (calls : List TimedCall),
          (calls.map TimedCall.reading).Pairwise (· ≤ ·) →
            LimitHolds windowSeconds maximum (quota.succeeded maximum calls) := by
  intro hclaim
  have hlimit := hclaim "filesystem-write:alice" 3600 hourlyQuota rfl 1000
    [plainCall ⟨59999999999, by decide⟩ 1000, plainCall ⟨3600000000000, by decide⟩ 1000]
    (by decide) 59999999999 3600000000000 (by decide)
  have htotal : bytesWithin 59999999999 3600000000000 (hourlyQuota.succeeded 1000
      [plainCall ⟨59999999999, by decide⟩ 1000,
        plainCall ⟨3600000000000, by decide⟩ 1000]) = 2000 := by
    decide +kernel
  rw [htotal] at hlimit
  exact absurd hlimit (by decide)

end PersistentQuota

end TouchBar.Supervisor
