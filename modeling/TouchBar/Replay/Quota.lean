import TouchBar.Supervisor.QuotaTime

/-!
# The byte quota of a replay

A replay keeps the reservations of the last hour one by one, where production keeps them in
a ring of slots.  What the ring still counts is less than an hour old, so that the replay
counts it too: a schedule that passes the replay passes in production.
-/

namespace TouchBar.Replay

open TouchBar.Rust TouchBar.Lib TouchBar.Schema TouchBar.Supervisor Outcome

def hourMicros : ℕ := 3600000000

/-- The times and bytes of the reservations that a replay still counts. -/
abbrev Ledger : Type := List (ℕ × ℕ)

/-- The loop that takes reservations from the front: those that are an hour old. -/
def expire (reservations : Ledger) (nowMicros : ℕ) : Ledger :=
  reservations.dropWhile fun r => U64.saturatingAdd r.1 hourMicros ≤ nowMicros

def reserveReplayByteQuota (reservations : Ledger) (nowMicros : ℕ)
    (bytes maximumPerHour : UInt64) : Outcome BrokerErrorCode Ledger := do
  let reservations := expire reservations nowMicros
  let used ← okOr (U64.sum (reservations.map Prod.snd)) .quotaExceeded
  let next ← okOr (U64.add used bytes.toNat) .quotaExceeded
  rejectIf (maximumPerHour.toNat < next) .quotaExceeded
  return if bytes.toNat ≠ 0 then reservations ++ [(nowMicros, bytes.toNat)] else reservations

/-- A request for bytes at a time of the replay. -/
structure Request where
  micros : ℕ
  bytes : UInt64
deriving DecidableEq

/-- A replay of requests under a fixed maximum. -/
def replayAll (maximum : UInt64) (ledger : Ledger) (requests : List Request) :
    Outcome BrokerErrorCode Ledger :=
  requests.foldlM (fun ledger request =>
    reserveReplayByteQuota ledger request.micros request.bytes maximum) ledger

/-- The nanoseconds since the epoch at a time of the replay whose beginning is `origin`. -/
def nanosAt (origin : ℤ) (micros : ℕ) : ℤ := origin + micros * 1000

/-- The time is one that the clock can show after the epoch. -/
def Shows (origin : ℤ) (micros : ℕ) : Prop :=
  0 ≤ nanosAt origin micros ∧ nanosAt origin micros < 2 ^ 63 * nanosPerSecond

instance (origin : ℤ) (micros : ℕ) : Decidable (Shows origin micros) :=
  inferInstanceAs (Decidable (_ ∧ _))

/-- The reading of the clock at a time of the replay. -/
def readingAt (origin : ℤ) (micros : ℕ) (h : Shows origin micros) : Nanos :=
  ⟨(nanosAt origin micros).toNat, (Int.toNat_lt h.1).mpr h.2⟩

/-- The same request in production, where no system call fails.  The clock is read at the
time of the replay, counted from `origin`. -/
def Request.call (origin : ℤ) (maximum : UInt64) (request : Request) : QuotaCall where
  clock :=
    if h : Shows origin request.micros then some (readingAt origin request.micros h).asSecs
    else none
  locked := ok ()
  written := ok ()
  bytes := request.bytes
  maximum := maximum

/-! ## What the replay counts -/

variable {reservations ledger : Ledger} {now : ℕ} {request : Request} {maximum : UInt64}

/-- The bytes of the reservations younger than an hour. -/
def youngBytes (now : ℕ) (reservations : Ledger) : ℕ :=
  ((reservations.filter fun r => now < r.1 + hourMicros).map Prod.snd).sum

lemma youngBytes_append (now : ℕ) (reservations more : Ledger) :
    youngBytes now (reservations ++ more) = youngBytes now reservations + youngBytes now more := by
  simp [youngBytes]

/-- With the times in order, what is left of the front loop is what is younger than an
hour. -/
lemma expire_eq_filter (hsorted : reservations.Pairwise fun r r' => r.1 ≤ r'.1)
    (hbound : ∀ r ∈ reservations, r.1 < 2 ^ 63) :
    expire reservations now = reservations.filter fun r => now < r.1 + hourMicros := by
  have hplain : ∀ r ∈ reservations, U64.saturatingAdd r.1 hourMicros = r.1 + hourMicros := by
    intro r hr
    have hlt := hbound r hr
    exact Nat.min_eq_left (by simp only [U64.size, hourMicros]; omega)
  rw [expire]
  induction reservations with
  | nil => rfl
  | cons r rest ih =>
    obtain ⟨hafter, hsorted⟩ := List.pairwise_cons.mp hsorted
    have hr := hplain r List.mem_cons_self
    by_cases hold : r.1 + hourMicros ≤ now
    · have hrest := ih hsorted (fun r' hr' => hbound r' (List.mem_cons_of_mem _ hr'))
        fun r' hr' => hplain r' (List.mem_cons_of_mem _ hr')
      rw [List.dropWhile_cons_of_pos (by simpa [hr] using hold),
        List.filter_cons_of_neg (by simpa using hold), hrest]
    · -- the first one that stays is the oldest of the rest
      rw [List.dropWhile_cons_of_neg (by simpa [hr] using hold)]
      refine (List.filter_eq_self.mpr fun r' hr' => ?_).symm
      rcases List.mem_cons.mp hr' with rfl | hr'
      · simpa using hold
      · have hle := hafter r' hr'
        simp only [decide_eq_true_eq]
        omega

/-- What is expired now is expired later. -/
lemma youngBytes_filter {later : ℕ} (h : now ≤ later) :
    youngBytes later (reservations.filter fun r => now < r.1 + hourMicros) =
      youngBytes later reservations := by
  rw [youngBytes, List.filter_filter, youngBytes]
  congr 2
  apply List.filter_congr
  intro r _
  have himp : later < r.1 + hourMicros → now < r.1 + hourMicros := fun hlt => by omega
  simpa using himp

/-- A ledger whose times are in order and not beyond `latest`. -/
structure Ordered (latest : ℕ) (ledger : Ledger) : Prop where
  sorted : ledger.Pairwise fun r r' => r.1 ≤ r'.1
  le : ∀ r ∈ ledger, r.1 ≤ latest

/-- A request that is accepted fits beside the young reservations, and later counts among
them. -/
lemma reserveReplayByteQuota_eq_ok {latest : ℕ} (h : Ordered latest reservations)
    (hnow : latest ≤ now) (hbound : now < 2 ^ 63) {bytes : UInt64}
    (hok : reserveReplayByteQuota reservations now bytes maximum = ok ledger) :
    youngBytes now reservations + bytes.toNat ≤ maximum.toNat ∧ Ordered now ledger ∧
      ∀ later, now ≤ later → youngBytes later ledger =
        youngBytes later reservations + youngBytes later [(now, bytes.toNat)] := by
  have hexpire : expire reservations now =
      reservations.filter fun r => now < r.1 + hourMicros := by
    refine expire_eq_filter h.sorted fun r hr => ?_
    have hle := h.le r hr
    omega
  have hfiltered : Ordered now (reservations.filter fun r => now < r.1 + hourMicros) :=
    ⟨h.sorted.sublist List.filter_sublist,
      fun r hr => (h.le r (List.mem_of_mem_filter hr)).trans hnow⟩
  simp only [reserveReplayByteQuota, hexpire, bind_eq_ok, okOr_eq_ok, rejectIf_eq_ok,
    U64.sum_eq_some, U64.add_eq_some, decide_eq_false_iff_not, Nat.not_lt, pure_eq,
    ok.injEq] at hok
  obtain ⟨_, ⟨-, rfl⟩, _, ⟨-, rfl⟩, _, hroom, rfl⟩ := hok
  refine ⟨hroom, ?_, fun later hlater => ?_⟩
  · split_ifs with hzero
    · refine ⟨List.pairwise_append.mpr ⟨hfiltered.sorted, List.pairwise_singleton _ _, ?_⟩, ?_⟩
      · intro r hr r' hr'
        rw [List.mem_singleton.mp hr']
        exact hfiltered.le r hr
      · intro r hr
        rcases List.mem_append.mp hr with hr | hr
        · exact hfiltered.le r hr
        · rw [List.mem_singleton.mp hr]
    · exact hfiltered
  · split_ifs with hzero
    · rw [youngBytes_append, youngBytes_filter hlater]
    · -- a request for no bytes is not recorded, and would not count
      have hnone : youngBytes later [(now, bytes.toNat)] = 0 := by
        rw [not_not.mp hzero, youngBytes]
        by_cases hyoung : later < now + hourMicros <;> simp [hyoung]
      rw [youngBytes_filter hlater, hnone, Nat.add_zero]

/-! ## What production counts -/

/-- The bytes of the calls that are younger than an hour at a time of the replay. -/
def bytesOfHour (origin : ℤ) (now : ℕ) (made : List TimedCall) : ℕ :=
  ((made.filter fun call => nanosAt origin now < (call.reading : ℕ) + 3600 * nanosPerSecond).map
    fun call => call.bytes.toNat).sum

/-- The slots that production looks at are less than an hour old. -/
lemma windowSum_le_bytesOfHour {quota : PersistentQuota} (hwindow : quota.windowSeconds = 3600)
    {origin : ℤ} {reading : Nanos} (hreading : ((reading : ℕ) : ℤ) = nanosAt origin now)
    (made : List TimedCall) :
    windowSum quotaSlots (quota.slotOf reading) (made.map quota.entry) ≤
      bytesOfHour origin now made := by
  have hslot : quota.secondsPerSlot = 60 := by
    rw [PersistentQuota.windowSeconds, quotaSlots] at hwindow
    omega
  rw [windowSum_map]
  refine sum_filter_le _ fun call _ hin => ?_
  simp only [PersistentQuota.entry, PersistentQuota.slotOf, PersistentQuota.tick, Nanos.asSecs,
    hslot, quotaSlots, nanosPerSecond, ← hreading] at hin ⊢
  omega

/-- The calls of production after the requests that a replay has accepted. -/
structure Follows (origin : ℤ) (quota : PersistentQuota) (latest : ℕ) (ledger : Ledger)
    (s : QuotaRun) : Prop where
  ordered : Ordered latest ledger
  records : ∃ made, quota.Records s made ∧
    (∀ call ∈ made, ((call.reading : ℕ) : ℤ) ≤ nanosAt origin latest) ∧
    ∀ now, latest ≤ now → bytesOfHour origin now made ≤ youngBytes now ledger

lemma follows_start (origin : ℤ) (quota : PersistentQuota) :
    Follows origin quota 0 [] PersistentQuota.start :=
  ⟨⟨List.Pairwise.nil, by simp⟩, [], quota.records_start, by simp,
    fun _ _ => Nat.zero_le _⟩

/-- A request that the replay accepts succeeds in production. -/
lemma Follows.step {origin : ℤ} {latest : ℕ} {quota : PersistentQuota} {s : QuotaRun}
    (hwindow : quota.windowSeconds = 3600) (h : Follows origin quota latest reservations s)
    (hlatest : latest ≤ request.micros) (hbound : request.micros < 2 ^ 63)
    (hclock : Shows origin request.micros)
    (hok : reserveReplayByteQuota reservations request.micros request.bytes maximum = ok ledger) :
    quota.Succeeds s (request.call origin maximum) ∧
      Follows origin quota request.micros ledger
        (quota.step s (request.call origin maximum)) := by
  obtain ⟨made, hrecords, hmade, hcounts⟩ := h.records
  let timed : TimedCall := ⟨readingAt origin request.micros hclock, ok (), ok (), request.bytes⟩
  have hcall : request.call origin maximum = timed.toCall maximum := by
    simp only [Request.call, hclock, dif_pos]
    rfl
  have hreading : ((timed.reading : ℕ) : ℤ) = nanosAt origin request.micros :=
    Int.toNat_of_nonneg hclock.1
  have hlast : ∀ call ∈ made, call.reading ≤ timed.reading := by
    intro call hmem
    have hle := hmade call hmem
    have hshift : nanosAt origin latest ≤ nanosAt origin request.micros := by
      simp only [nanosAt]
      omega
    show (call.reading : ℕ) ≤ timed.reading
    omega
  obtain ⟨hroom, hordered, hyoung⟩ := reserveReplayByteQuota_eq_ok h.ordered hlatest hbound hok
  have hheld := (windowSum_le_bytesOfHour hwindow hreading made).trans (hcounts _ hlatest)
  have hisOk : (quota.reserve s.file (timed.toCall maximum)).isOk = true := by
    rw [hrecords.isOk_iff hlast]
    refine ⟨rfl, rfl, ?_⟩
    show _ + request.bytes.toNat ≤ _
    omega
  rw [hcall]
  refine ⟨Outcome.isOk_iff.mp hisOk, hordered, made ++ [timed], hrecords.step_ok hlast hisOk, ?_,
    fun now hnow => ?_⟩
  · intro call hmem
    rcases List.mem_append.mp hmem with hmem | hmem
    · have hle : (call.reading : ℕ) ≤ timed.reading := hlast call hmem
      omega
    · rw [List.mem_singleton.mp hmem, hreading]
  · have hself : bytesOfHour origin now [timed] =
        youngBytes now [(request.micros, request.bytes.toNat)] := by
      have hage : nanosAt origin now < (timed.reading : ℕ) + 3600 * nanosPerSecond ↔
          now < request.micros + hourMicros := by
        rw [hreading]
        simp only [nanosAt, nanosPerSecond, hourMicros]
        omega
      by_cases hyoungRequest : now < request.micros + hourMicros
      · simp [bytesOfHour, youngBytes, hage, hyoungRequest, timed]
      · simp [bytesOfHour, youngBytes, hage, hyoungRequest]
    have happend : bytesOfHour origin now (made ++ [timed]) =
        bytesOfHour origin now made + bytesOfHour origin now [timed] := by
      simp [bytesOfHour]
    rw [happend, hself, hyoung now hnow]
    exact Nat.add_le_add_right (hcounts now (hlatest.trans hnow)) _

lemma Follows.meets {origin : ℤ} {latest : ℕ} {quota : PersistentQuota} {s : QuotaRun}
    {requests : List Request} (hwindow : quota.windowSeconds = 3600)
    (h : Follows origin quota latest reservations s)
    (hsorted : (latest :: requests.map Request.micros).Pairwise (· ≤ ·))
    (hbound : ∀ request ∈ requests, request.micros < 2 ^ 63)
    (hclock : ∀ request ∈ requests, Shows origin request.micros)
    (hok : replayAll maximum reservations requests = ok ledger) :
    Meets quota.step quota.Succeeds s (requests.map (Request.call origin maximum)) := by
  induction requests generalizing latest reservations s with
  | nil => trivial
  | cons request requests ih =>
    obtain ⟨hlatest, hsorted⟩ := List.pairwise_cons.mp hsorted
    rw [replayAll, List.foldlM_cons, bind_eq_ok] at hok
    obtain ⟨middle, hfirst, hrest⟩ := hok
    obtain ⟨hsucceeds, hfollows⟩ := h.step hwindow (hlatest _ List.mem_cons_self)
      (hbound _ List.mem_cons_self) (hclock _ List.mem_cons_self) hfirst
    exact ⟨hsucceeds, ih hfollows hsorted
      (fun request hmem => hbound request (List.mem_cons_of_mem _ hmem))
      (fun request hmem => hclock request (List.mem_cons_of_mem _ hmem)) hrest⟩

/-- The quota of a replay is as strict as that of production: requests in order that are
all accepted by a replay from an empty ledger all succeed in production from no record,
wherever its clock stands at the beginning. -/
theorem replay_as_strict {quotaNamespace : String} {quota : PersistentQuota}
    (hnew : PersistentQuota.new quotaNamespace 3600 = ok quota) (origin : ℤ) (maximum : UInt64)
    (requests : List Request) (hsorted : (requests.map Request.micros).Pairwise (· ≤ ·))
    (hbound : ∀ request ∈ requests, request.micros < 2 ^ 63)
    (hclock : ∀ request ∈ requests, Shows origin request.micros)
    (haccepted : ∃ ledger, replayAll maximum [] requests = ok ledger) :
    Meets quota.step quota.Succeeds PersistentQuota.start
      (requests.map (Request.call origin maximum)) := by
  obtain ⟨ledger, hok⟩ := haccepted
  exact (follows_start origin quota).meets (PersistentQuota.new_windowSeconds hnew)
    (List.pairwise_cons.mpr ⟨fun _ _ => Nat.zero_le _, hsorted⟩) hbound hclock hok

/-- Two requests an hour apart and one for no bytes between them. -/
def hourlyRequests : List Request := [⟨0, 1000⟩, ⟨1800000000, 0⟩, ⟨3600000000, 1000⟩]

theorem replay_as_strict_hourly :
    Meets PersistentQuota.hourlyQuota.step PersistentQuota.hourlyQuota.Succeeds
      PersistentQuota.start (hourlyRequests.map (Request.call 59999999999 1000)) :=
  @replay_as_strict "filesystem-write:alice" PersistentQuota.hourlyQuota rfl 59999999999 1000
    hourlyRequests (by decide) (by decide) (by decide) ⟨[(3600000000, 1000)], by decide⟩

end TouchBar.Replay
