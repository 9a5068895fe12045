import TouchBar.Lib.Codec
import TouchBar.Lib.Runs
import TouchBar.Lib.SlidingWindow
import TouchBar.Supervisor.Request

/-!
# Durable quotas

A quota limits the bytes that are reserved within a window of 60 slots of time.  It keeps no
state in memory: every call reads the record file, moves its window to the clock and writes
the file again if it charges it.  A restart between two calls therefore changes nothing.

The main result compares the calls of any run with the plain list of the reservations that
succeeded: a call succeeds exactly if what the window holds and what it asks for stay within
its maximum.
-/

namespace TouchBar.Supervisor

open TouchBar.Rust TouchBar.Lib TouchBar.Schema Outcome

def quotaSlots : ℕ := 60

def quotaRecordMagic : List UInt8 := magicOf "OTBWQ002"

def quotaRecordBytes : ℕ := 16 + quotaSlots * 8

structure QuotaRecord where
  latestTick : ℕ
  slots : List ℕ
deriving DecidableEq, Repr

/-- A quota, known by the length of its slots. -/
structure PersistentQuota where
  secondsPerSlot : ℕ
  secondsPerSlot_pos : 0 < secondsPerSlot

/-- A reading of the clock in seconds since the epoch: `SystemTime` has signed 64-bit
seconds. -/
abbrev Seconds : Type := Fin (2 ^ 63)

/-- A call of `reserve` with what it meets: the clock, which may stand before the epoch, the
answer of opening and locking the lock file, and the answer of writing the record. -/
structure QuotaCall where
  clock : Option Seconds
  locked : Outcome BrokerErrorCode Unit
  written : Outcome BrokerErrorCode Unit
  bytes : UInt64
  maximum : UInt64
deriving DecidableEq

namespace QuotaRecord

/-- `read_record` on the content of the file. -/
def read : Option (List UInt8) → Outcome BrokerErrorCode (Option QuotaRecord)
  | none => ok none
  | some bytes =>
    if bytes.length ≠ quotaRecordBytes then err .internal
    else if bytes.take 8 ≠ quotaRecordMagic then err .internal
    else ok (some
      { latestTick := leValue ((bytes.drop 8).take 8)
        slots := (List.range quotaSlots).map fun index =>
          leValue ((bytes.drop (16 + index * 8)).take 8) })

/-- `write_record`: the content of the file. -/
def write (record : QuotaRecord) : List UInt8 :=
  quotaRecordMagic ++ leBytes 8 record.latestTick ++ record.slots.flatMap (leBytes 8)

end QuotaRecord

namespace PersistentQuota

/-- `new`, for the window; the state directory is given by the record file. -/
def new (quotaNamespace : String) (windowSeconds : ℕ) : Outcome String PersistentQuota :=
  if quotaNamespace.isEmpty then err "durable quota namespace is empty"
  else if h : windowSeconds < quotaSlots ∨ windowSeconds % quotaSlots ≠ 0 then
    err "durable quota window must divide into 60 whole-second slots"
  else ok ⟨windowSeconds / quotaSlots, Nat.div_pos (by omega) (by decide)⟩

def tick (quota : PersistentQuota) (seconds : Seconds) : ℕ := seconds / quota.secondsPerSlot

/-- The record with its window at the current tick, and the effective tick. -/
def advance (record : QuotaRecord) (currentTick : ℕ) : QuotaRecord × ℕ :=
  if record.latestTick ≤ currentTick then
    let elapsed := currentTick - record.latestTick
    let slots :=
      if quotaSlots ≤ elapsed then List.replicate quotaSlots 0
      else clearSlots quotaSlots record.slots (List.range' (record.latestTick + 1) elapsed)
    (⟨currentTick, slots⟩, currentTick)
  else
    -- a rollback of the clock must not mint a fresh budget
    (record, record.latestTick)

/-- Charge the record: the part of `reserve` between reading and writing. -/
def charge (record : QuotaRecord) (currentTick bytes maximum : ℕ) :
    Outcome BrokerErrorCode QuotaRecord := do
  let (record, effectiveTick) := advance record currentTick
  let used ← okOr (U64.sum record.slots) .quotaExceeded
  let next ← okOr (U64.add used bytes) .quotaExceeded
  rejectIf (maximum < next) .quotaExceeded
  let slot := effectiveTick % quotaSlots
  let charged ← okOr (U64.add (record.slots.getD slot 0) bytes) .quotaExceeded
  return { record with slots := record.slots.set slot charged }

/-- `reserve`: the new content of the record file. -/
def reserve (quota : PersistentQuota) (file : Option (List UInt8)) (call : QuotaCall) :
    Outcome BrokerErrorCode (List UInt8) := do
  call.locked
  let seconds ← okOr call.clock .internal
  let currentTick := quota.tick seconds
  let found ← QuotaRecord.read file
  let record := found.getD ⟨currentTick, List.replicate quotaSlots 0⟩
  let record ← charge record currentTick call.bytes.toNat call.maximum.toNat
  call.written
  return record.write

end PersistentQuota

/-! ## The list of the reservations -/

/-- The greatest tick of a list of reservations, each with its clock tick and its bytes. -/
def latestTick (reservations : List (ℕ × ℕ)) : ℕ := (reservations.map Prod.fst).foldl max 0

/-- The reservations with their effective ticks: the greatest tick up to each of them. -/
def effective (latest : ℕ) : List (ℕ × ℕ) → List (ℕ × ℕ)
  | [] => []
  | (tick, bytes) :: reservations =>
    (max latest tick, bytes) :: effective (max latest tick) reservations

/-- The record file of a quota and the reservations that succeeded. -/
structure QuotaRun where
  file : Option (List UInt8)
  reservations : List (ℕ × ℕ)

namespace PersistentQuota

def start : QuotaRun := ⟨none, []⟩

/-- The tick of a call; a call whose clock stands before the epoch has none. -/
def callTick (quota : PersistentQuota) (call : QuotaCall) : ℕ :=
  call.clock.elim 0 quota.tick

/-- A call in a run: a failed one leaves the file as it is. -/
def step (quota : PersistentQuota) (s : QuotaRun) (call : QuotaCall) : QuotaRun :=
  match quota.reserve s.file call with
  | ok file => ⟨some file, s.reservations ++ [(quota.callTick call, call.bytes.toNat)]⟩
  | _ => s

end PersistentQuota

/-! ## The record file -/

namespace QuotaRecord

lemma length_flatMap_leBytes (slots : List ℕ) :
    (slots.flatMap (leBytes 8)).length = slots.length * 8 := by
  induction slots with
  | nil => rfl
  | cons slot slots ih =>
    rw [List.flatMap_cons, List.length_append, ih, leBytes_length, List.length_cons]
    omega

lemma take_drop_flatMap_leBytes {slots : List ℕ} {i : ℕ} (h : i < slots.length) :
    ((slots.flatMap (leBytes 8)).drop (i * 8)).take 8 = leBytes 8 slots[i] := by
  induction slots generalizing i with
  | nil => simp at h
  | cons slot slots ih =>
    rw [List.flatMap_cons]
    cases i with
    | zero => exact List.take_left' (leBytes_length 8 slot)
    | succ i =>
      have hi : i < slots.length := by simpa using h
      have hdrop : (i + 1) * 8 = (leBytes 8 slot).length + i * 8 := by
        rw [leBytes_length]
        omega
      rw [hdrop, ← List.drop_drop, List.drop_left, ih hi]
      rfl

/-- What is written is read back. -/
theorem read_write {record : QuotaRecord} (hlatest : record.latestTick < 256 ^ 8)
    (hlength : record.slots.length = quotaSlots) (hslots : ∀ slot ∈ record.slots, slot < 256 ^ 8) :
    read (some record.write) = ok (some record) := by
  have hmagic : quotaRecordMagic.length = 8 := by decide
  have hwrite : record.write =
      quotaRecordMagic ++ (leBytes 8 record.latestTick ++ record.slots.flatMap (leBytes 8)) := by
    rw [write, List.append_assoc]
  have hbytes : record.write.length = quotaRecordBytes := by
    rw [hwrite, List.length_append, List.length_append, hmagic, leBytes_length,
      length_flatMap_leBytes, hlength]
    rfl
  have htake : record.write.take 8 = quotaRecordMagic := by
    rw [hwrite]
    exact List.take_left' hmagic
  have hdrop : record.write.drop 8 =
      leBytes 8 record.latestTick ++ record.slots.flatMap (leBytes 8) := by
    rw [hwrite]
    exact List.drop_left' hmagic
  have htick : leValue ((record.write.drop 8).take 8) = record.latestTick := by
    rw [hdrop, List.take_left' (leBytes_length 8 _), leValue_leBytes hlatest]
  have hslot : ∀ i (hi : i < record.slots.length),
      leValue ((record.write.drop (16 + i * 8)).take 8) = record.slots[i] := by
    intro i hi
    have hskip : record.write.drop (16 + i * 8) =
        (record.slots.flatMap (leBytes 8)).drop (i * 8) := by
      have hsplit : 16 + i * 8 = 8 + (8 + i * 8) := by omega
      rw [hsplit, ← List.drop_drop, hdrop, ← List.drop_drop,
        List.drop_left' (leBytes_length 8 _)]
    rw [hskip, take_drop_flatMap_leBytes hi, leValue_leBytes (hslots _ (List.getElem_mem hi))]
  have hall : ((List.range quotaSlots).map fun index =>
      leValue ((record.write.drop (16 + index * 8)).take 8)) = record.slots := by
    apply List.ext_getElem
    · simp [hlength]
    · intro i hi hi'
      rw [List.getElem_map, List.getElem_range, hslot i hi']
  rw [read, if_neg (by simp [hbytes]), if_neg (by simp [htake]), htick, hall]

end QuotaRecord

/-! ## Effective ticks -/

lemma latestTick_append (reservations : List (ℕ × ℕ)) (tick bytes : ℕ) :
    latestTick (reservations ++ [(tick, bytes)]) = max (latestTick reservations) tick := by
  simp [latestTick]

lemma effective_append (latest : ℕ) (reservations : List (ℕ × ℕ)) (tick bytes : ℕ) :
    effective latest (reservations ++ [(tick, bytes)]) = effective latest reservations ++
      [(max ((reservations.map Prod.fst).foldl max latest) tick, bytes)] := by
  induction reservations generalizing latest with
  | nil => rfl
  | cons r reservations ih => simp [effective, ih]

lemma effective_le {latest : ℕ} {reservations : List (ℕ × ℕ)} :
    ∀ e ∈ effective latest reservations,
      e.1 ≤ (reservations.map Prod.fst).foldl max latest := by
  induction reservations generalizing latest with
  | nil => simp [effective]
  | cons r reservations ih =>
    intro e he
    rcases List.mem_cons.mp he with rfl | he
    · have hmono : ∀ (l : List ℕ) (a : ℕ), a ≤ l.foldl max a := by
        intro l
        induction l with
        | nil => exact fun a => le_refl a
        | cons b l ihl => exact fun a => (le_max_left a b).trans (ihl (max a b))
      exact hmono _ _
    · exact ih e he

/-! ## One call -/

namespace PersistentQuota

variable {history : List (ℕ × ℕ)} {latest currentTick bytes maximum : ℕ} {record : QuotaRecord}

/-- Moving the record to the current tick keeps the window of its effective tick. -/
lemma advance_ring (hold : ∀ e ∈ history, e.1 ≤ latest) (currentTick : ℕ) :
    advance ⟨latest, ring quotaSlots latest history⟩ currentTick =
      (⟨max latest currentTick, ring quotaSlots (max latest currentTick) history⟩,
        max latest currentTick) := by
  rw [advance]
  by_cases hle : latest ≤ currentTick
  · rw [if_pos hle, max_eq_right hle]
    have hslots : (if quotaSlots ≤ currentTick - latest then List.replicate quotaSlots 0
        else clearSlots quotaSlots (ring quotaSlots latest history)
          (List.range' (latest + 1) (currentTick - latest))) =
        ring quotaSlots currentTick history := by
      split_ifs with hfar
      · have hend : latest + quotaSlots ≤ currentTick := by omega
        exact (ring_of_le hold hend).symm
      · exact clearSlots_ring hold hle
    exact congrArg (fun slots => (QuotaRecord.mk currentTick slots, currentTick)) hslots
  · rw [if_neg hle, max_eq_left (Nat.le_of_not_le hle)]

/-- A call charges exactly if the window of its effective tick has room for it. -/
theorem charge_eq_ok (hold : ∀ e ∈ history, e.1 ≤ latest)
    (hsum : windowSum quotaSlots latest history < U64.size) (hmax : maximum < U64.size) :
    charge ⟨latest, ring quotaSlots latest history⟩ currentTick bytes maximum = ok record ↔
      windowSum quotaSlots (max latest currentTick) history + bytes ≤ maximum ∧
        record = ⟨max latest currentTick, ring quotaSlots (max latest currentTick)
          (history ++ [(max latest currentTick, bytes)])⟩ := by
  have hpos : 0 < quotaSlots := by decide
  rw [charge, advance_ring hold]
  generalize htick : max latest currentTick = tick
  have hused : windowSum quotaSlots tick history < U64.size :=
    lt_of_le_of_lt (windowSum_anti (htick ▸ le_max_left latest currentTick)) hsum
  have hslot : (ring quotaSlots tick history).getD (tick % quotaSlots) 0 =
      slotSum quotaSlots tick history (tick % quotaSlots) := by
    have hlt : tick % quotaSlots < (ring quotaSlots tick history).length := by
      rw [length_ring]
      exact Nat.mod_lt _ hpos
    rw [List.getD_eq_getElem _ _ hlt, getElem_ring]
  have hle : slotSum quotaSlots tick history (tick % quotaSlots) ≤
      windowSum quotaSlots tick history := by
    rw [← sum_ring hpos]
    refine List.single_le_sum (fun _ _ => Nat.zero_le _) _ ?_
    exact List.mem_map.mpr ⟨_, List.mem_range.mpr (Nat.mod_lt _ hpos), rfl⟩
  simp only [bind_eq_ok, okOr_eq_ok, rejectIf_eq_ok, U64.sum_eq_some, U64.add_eq_some,
    decide_eq_false_iff_not, Nat.not_lt, pure_eq, ok.injEq, sum_ring hpos, hslot]
  constructor
  · rintro ⟨used, ⟨-, rfl⟩, next, ⟨-, rfl⟩, -, hroom, charged, ⟨-, rfl⟩, rfl⟩
    exact ⟨hroom, by rw [set_ring hpos]⟩
  · rintro ⟨hroom, rfl⟩
    refine ⟨_, ⟨hused, rfl⟩, _, ⟨by omega, rfl⟩, (), hroom, _, ⟨by omega, rfl⟩, ?_⟩
    rw [set_ring hpos]

/-! ## Runs -/

/-- What the file says about the reservations that have succeeded. -/
def Inv (s : QuotaRun) : Prop :=
  (s.file = none ∧ s.reservations = []) ∨
    (s.file = some (QuotaRecord.write ⟨latestTick s.reservations,
        ring quotaSlots (latestTick s.reservations) (effective 0 s.reservations)⟩) ∧
      latestTick s.reservations < 2 ^ 63 ∧
      windowSum quotaSlots (latestTick s.reservations) (effective 0 s.reservations) < U64.size)

lemma inv_start : Inv start := .inl ⟨rfl, rfl⟩

/-- The effective tick of a call after a run. -/
def effectiveTick (quota : PersistentQuota) (s : QuotaRun) (call : QuotaCall) : ℕ :=
  max (latestTick s.reservations) (quota.callTick call)

/-- What the window of a call already holds. -/
def heldBy (quota : PersistentQuota) (s : QuotaRun) (call : QuotaCall) : ℕ :=
  windowSum quotaSlots (quota.effectiveTick s call) (effective 0 s.reservations)

lemma tick_lt (quota : PersistentQuota) (seconds : Seconds) : quota.tick seconds < 2 ^ 63 :=
  lt_of_le_of_lt (Nat.div_le_self _ _) seconds.isLt

lemma ring_lt {slot : ℕ} (hsum : windowSum quotaSlots latest history < U64.size)
    (hslot : slot ∈ ring quotaSlots latest history) : slot < 256 ^ 8 := by
  have hle : slot ≤ (ring quotaSlots latest history).sum :=
    List.single_le_sum (fun _ _ => Nat.zero_le _) _ hslot
  rw [sum_ring (by decide)] at hle
  exact lt_of_le_of_lt hle hsum

/-- Exactly when a call succeeds, and what it leaves. -/
theorem reserve_eq_ok (quota : PersistentQuota) {s : QuotaRun} (h : Inv s) (call : QuotaCall)
    (file : List UInt8) :
    quota.reserve s.file call = ok file ↔
      call.locked = ok () ∧ call.clock.isSome ∧ call.written = ok () ∧
        quota.heldBy s call + call.bytes.toNat ≤ call.maximum.toNat ∧
        file = QuotaRecord.write ⟨quota.effectiveTick s call,
          ring quotaSlots (quota.effectiveTick s call)
            (effective 0 s.reservations ++ [(quota.effectiveTick s call, call.bytes.toNat)])⟩ := by
  have hmax : call.maximum.toNat < U64.size := call.maximum.toNat_lt
  cases hclock : call.clock with
  | none => simp [reserve, hclock]
  | some seconds =>
    have htick : quota.callTick call = quota.tick seconds := by rw [callTick, hclock]; rfl
    have hcharge : ∀ record, (do
        let found ← QuotaRecord.read s.file
        charge (found.getD ⟨quota.tick seconds, List.replicate quotaSlots 0⟩) (quota.tick seconds)
          call.bytes.toNat call.maximum.toNat) = ok record ↔
        quota.heldBy s call + call.bytes.toNat ≤ call.maximum.toNat ∧
          record = ⟨quota.effectiveTick s call, ring quotaSlots (quota.effectiveTick s call)
            (effective 0 s.reservations ++
              [(quota.effectiveTick s call, call.bytes.toNat)])⟩ := by
      intro record
      rw [heldBy, effectiveTick, htick]
      rcases h with ⟨hfile, hnone⟩ | ⟨hfile, hlatest, hsum⟩
      · have hring : List.replicate quotaSlots 0 = ring quotaSlots (quota.tick seconds) [] :=
          ring_nil.symm
        have hempty : windowSum quotaSlots (quota.tick seconds) [] < U64.size :=
          Nat.two_pow_pos 64
        have hcall := @charge_eq_ok [] (quota.tick seconds) (quota.tick seconds) call.bytes.toNat
          call.maximum.toNat record (by simp) hempty hmax
        simp only [hfile, hnone, QuotaRecord.read, ok_bind, Option.getD_none, hring, hcall]
        simp [latestTick, effective]
      · have hread := @QuotaRecord.read_write ⟨latestTick s.reservations,
          ring quotaSlots (latestTick s.reservations) (effective 0 s.reservations)⟩
          (lt_trans hlatest (by decide)) length_ring fun slot hslot => ring_lt hsum hslot
        simp only [hfile, hread, ok_bind, Option.getD_some]
        exact charge_eq_ok effective_le hsum hmax
    simp only [bind_eq_ok] at hcharge
    simp only [reserve, bind_eq_ok, okOr_eq_ok, hclock, Option.some.injEq, pure_eq, ok.injEq,
      Option.isSome_some, true_and]
    constructor
    · rintro ⟨_, hlocked, _, rfl, found, hfound, record, hrecord, _, hwritten, rfl⟩
      obtain ⟨hroom, rfl⟩ := (hcharge record).mp ⟨found, hfound, hrecord⟩
      exact ⟨hlocked, hwritten, hroom, rfl⟩
    · rintro ⟨hlocked, hwritten, hroom, rfl⟩
      obtain ⟨found, hfound, hrecord⟩ := (hcharge _).mpr ⟨hroom, rfl⟩
      exact ⟨(), hlocked, seconds, rfl, found, hfound, _, hrecord, (), hwritten, rfl⟩

/-- The window of a successful call, this call included. -/
lemma windowSum_charged (quota : PersistentQuota) (s : QuotaRun) (call : QuotaCall) :
    windowSum quotaSlots (quota.effectiveTick s call) (effective 0
        (s.reservations ++ [(quota.callTick call, call.bytes.toNat)])) =
      quota.heldBy s call + call.bytes.toNat := by
  have htick : quota.effectiveTick s call < quota.effectiveTick s call + quotaSlots :=
    Nat.lt_add_of_pos_right (by decide)
  rw [effective_append, windowSum_append, windowSum_singleton, heldBy]
  exact congrArg _ (if_pos htick)

lemma inv_step (quota : PersistentQuota) {s : QuotaRun} (h : Inv s) (call : QuotaCall) :
    Inv (quota.step s call) := by
  rw [step]
  split
  · rename_i file hreserve
    obtain ⟨-, hclock, -, hroom, rfl⟩ := (quota.reserve_eq_ok h call file).mp hreserve
    have hcharged := quota.windowSum_charged s call
    have hlatest : latestTick (s.reservations ++ [(quota.callTick call, call.bytes.toNat)]) =
        quota.effectiveTick s call := latestTick_append _ _ _
    refine .inr ⟨?_, ?_, ?_⟩
    · rw [hlatest, effective_append]
      rfl
    · rw [hlatest, effectiveTick]
      refine max_lt ?_ ?_
      · rcases h with ⟨-, hnone⟩ | ⟨-, hlt, -⟩
        · rw [hnone]
          decide
        · exact hlt
      · obtain ⟨seconds, hseconds⟩ := Option.isSome_iff_exists.mp hclock
        rw [callTick, hseconds]
        exact quota.tick_lt seconds
    · rw [hlatest, hcharged]
      exact lt_of_le_of_lt hroom call.maximum.toNat_lt
  · exact h

lemma inv_run (quota : PersistentQuota) (calls : List QuotaCall) :
    Inv (run quota.step start calls) :=
  run_invariant (P := Inv) (fun _ call h => quota.inv_step h call) inv_start calls

def Succeeds (quota : PersistentQuota) (s : QuotaRun) (call : QuotaCall) : Prop :=
  ∃ file, quota.reserve s.file call = ok file

end PersistentQuota

end TouchBar.Supervisor
