import TouchBar.Supervisor.Request

/-!
# The books of a connection

The supervisor counts what a plugin has in hand: the operations that wait for an answer
and the resources that are open, each under the capability it was granted by, and the
bytes that the resources reserve.  New ones are refused at a maximum, and a capability
that is revoked takes its operations and resources with it.
-/

namespace TouchBar.Broker

open TouchBar.Rust TouchBar.Policy TouchBar.Supervisor Outcome

structure LifecycleLimits where
  maximumPendingOperations : ℕ
  maximumResources : ℕ
  maximumBufferedBytes : ℕ
deriving DecidableEq

structure PendingOperation where
  requestId : ℕ
  capability : CapabilityId
  deadlineMonotonicMicros : ℕ
deriving DecidableEq

structure BrokerResource where
  resourceId : ℕ
  capability : CapabilityId
  bufferedBytes : ℕ
deriving DecidableEq

structure RevocationEffect where
  cancelledRequests : List ℕ
  closedResources : List ℕ
  releasedBufferedBytes : ℕ
deriving DecidableEq

structure LifecycleState where
  limits : LifecycleLimits
  pending : BTreeMap ℕ PendingOperation
  resources : BTreeMap ℕ BrokerResource
  bufferedBytes : ℕ
  nextResourceId : ℕ
deriving DecidableEq

namespace LifecycleState

def new (limits : LifecycleLimits) : LifecycleState where
  limits := limits
  pending := .empty
  resources := .empty
  bufferedBytes := 0
  nextResourceId := 1

/-- The state after `begin`; an error changes nothing. -/
def begin (s : LifecycleState) (requestId : ℕ) (capability : CapabilityId)
    (deadlineMonotonicMicros : ℕ) : Outcome BrokerErrorCode LifecycleState :=
  if requestId = 0 || s.pending.containsKey requestId then err .invalidRequest
  else if s.limits.maximumPendingOperations ≤ s.pending.len then err .quotaExceeded
  else
    ok { s with
      pending := s.pending.insert requestId ⟨requestId, capability, deadlineMonotonicMicros⟩ }

def finish (s : LifecycleState) (requestId : ℕ) : LifecycleState :=
  { s with pending := s.pending.remove requestId }

/-- The number of a new resource and the state afterwards; an error changes nothing. -/
def allocateResource (s : LifecycleState) (capability : CapabilityId) (bufferedBytes : ℕ) :
    Outcome BrokerErrorCode (ℕ × LifecycleState) :=
  if decide (s.limits.maximumResources ≤ s.resources.len) ||
      (U64.add s.bufferedBytes bufferedBytes).elim true (s.limits.maximumBufferedBytes < ·) then
    err .quotaExceeded
  else
    match U64.add s.nextResourceId 1 with
    | none => err .quotaExceeded
    | some nextResourceId => do
      let total ← check (U64.add s.bufferedBytes bufferedBytes)
      ok (s.nextResourceId,
        { s with
          resources := s.resources.insert s.nextResourceId
            ⟨s.nextResourceId, capability, bufferedBytes⟩
          bufferedBytes := total
          nextResourceId := nextResourceId })

/-- Whether the resource was there, and the state afterwards. -/
def closeResource (s : LifecycleState) (resourceId : ℕ) : Bool × LifecycleState :=
  match s.resources.get resourceId with
  | none => (false, s)
  | some resource =>
    (true, { s with
      resources := s.resources.remove resourceId
      bufferedBytes := s.bufferedBytes - resource.bufferedBytes })

/-- One turn of the loop of `revoke` that removes the resources: what is left, and the
bytes released so far. -/
def release (kept : BTreeMap ℕ BrokerResource × ℕ) (resourceId : ℕ) :
    Option (BTreeMap ℕ BrokerResource × ℕ) :=
  match kept.1.get resourceId with
  | none => some kept
  | some resource =>
    (U64.add kept.2 resource.bufferedBytes).map fun released =>
      (kept.1.remove resourceId, released)

/-- `revoke`.  The sum of the released bytes has an overflow check. -/
def revoke (s : LifecycleState) (capability : CapabilityId) :
    Option (RevocationEffect × LifecycleState) := do
  let cancelled := (s.pending.values.filter fun operation =>
    operation.capability = capability).map PendingOperation.requestId
  let closed := (s.resources.values.filter fun resource =>
    resource.capability = capability).map BrokerResource.resourceId
  let (resources, released) ← closed.foldlM release (s.resources, 0)
  return (⟨cancelled, closed, released⟩,
    { s with
      pending := cancelled.foldl BTreeMap.remove s.pending
      resources := resources
      bufferedBytes := s.bufferedBytes - released })

def revokeAll (s : LifecycleState) : RevocationEffect × LifecycleState :=
  (⟨s.pending.keys, s.resources.keys, s.bufferedBytes⟩,
    { s with
      pending := .empty
      resources := .empty
      bufferedBytes := 0 })

/-! ## What the books say -/

/-- The bytes that a set of resources reserves. -/
def reserved (resources : BTreeMap ℕ BrokerResource) : ℕ :=
  (resources.values.map BrokerResource.bufferedBytes).sum

/-- The books are right: every entry is under its own number, numbers are below the next
one, nothing exceeds its maximum, and the byte count is the sum over the resources. -/
structure Balanced (s : LifecycleState) : Prop where
  pending_id : ∀ id operation, s.pending.get id = some operation → operation.requestId = id
  resource_id : ∀ id resource, s.resources.get id = some resource → resource.resourceId = id
  pending_le : s.pending.len ≤ s.limits.maximumPendingOperations
  resources_le : s.resources.len ≤ s.limits.maximumResources
  buffered_eq : s.bufferedBytes = reserved s.resources
  buffered_le : s.bufferedBytes ≤ s.limits.maximumBufferedBytes
  buffered_lt : s.bufferedBytes < U64.size
  fresh : ∀ id, s.resources.containsKey id = true → 0 < id ∧ id < s.nextResourceId
  next_pos : 0 < s.nextResourceId

section Reserved

variable {resources : BTreeMap ℕ BrokerResource} {id : ℕ} {resource : BrokerResource}

lemma reserved_insert (h : resources.get id = none) :
    reserved (resources.insert id resource) = reserved resources + resource.bufferedBytes := by
  have hperm := (BTreeMap.perm_insert (v := resource) h).map fun e => e.2.bufferedBytes
  have hsum := hperm.sum_eq
  rw [List.map_cons, List.sum_cons] at hsum
  simp only [reserved, BTreeMap.values, List.map_map]
  exact hsum.trans (Nat.add_comm _ _)

lemma reserved_remove (h : resources.get id = some resource) :
    reserved (resources.remove id) + resource.bufferedBytes = reserved resources := by
  have hperm := (BTreeMap.perm_remove h).map fun e => e.2.bufferedBytes
  have hsum := hperm.sum_eq
  rw [List.map_cons, List.sum_cons] at hsum
  simp only [reserved, BTreeMap.values, List.map_map]
  exact (Nat.add_comm _ _).trans hsum.symm

end Reserved

lemma get_foldl_remove {κ ν : Type*} [LinearOrder κ] (ids : List κ) (m : BTreeMap κ ν) (k : κ) :
    (ids.foldl BTreeMap.remove m).get k = if k ∈ ids then none else m.get k := by
  induction ids generalizing m with
  | nil => simp
  | cons id ids ih =>
    rw [List.foldl_cons, ih, BTreeMap.get_remove]
    by_cases hk : k = id <;> by_cases hmem : k ∈ ids <;> simp [hk, hmem]

lemma len_foldl_remove_le {κ ν : Type*} [LinearOrder κ] (ids : List κ) (m : BTreeMap κ ν) :
    (ids.foldl BTreeMap.remove m).len ≤ m.len := by
  induction ids generalizing m with
  | nil => exact le_rfl
  | cons id ids ih => exact (ih _).trans BTreeMap.len_remove_le

variable {s s' : LifecycleState} {capability : CapabilityId}

/-! ## The operations, once each -/

lemma balanced_new (limits : LifecycleLimits) : Balanced (new limits) where
  pending_id id operation h := by cases h
  resource_id id resource h := by cases h
  pending_le := Nat.zero_le _
  resources_le := Nat.zero_le _
  buffered_eq := rfl
  buffered_le := Nat.zero_le _
  buffered_lt := Nat.two_pow_pos 64
  fresh id h := by cases h
  next_pos := Nat.one_pos

lemma begin_eq_ok {requestId deadline : ℕ} (h : s.begin requestId capability deadline = ok s') :
    requestId ≠ 0 ∧ s.pending.get requestId = none ∧
      s.pending.len < s.limits.maximumPendingOperations ∧
        s' = { s with
          pending := s.pending.insert requestId ⟨requestId, capability, deadline⟩ } := by
  rw [begin] at h
  split_ifs at h with hid hlen
  simp only [Bool.or_eq_true, decide_eq_true_eq, not_or, Bool.not_eq_true,
    BTreeMap.containsKey_eq_false_iff] at hid
  exact ⟨hid.1, hid.2, not_le.mp hlen, (Outcome.ok.inj h).symm⟩

lemma Balanced.begin {requestId deadline : ℕ} (h : Balanced s)
    (hok : s.begin requestId capability deadline = ok s') : Balanced s' := by
  obtain ⟨-, hnone, hlen, rfl⟩ := begin_eq_ok hok
  refine { h with pending_id := fun id operation hget => ?_, pending_le := ?_ }
  · simp only [BTreeMap.get_insert] at hget
    split_ifs at hget with hid
    · cases hget
      exact hid.symm
    · exact h.pending_id id operation hget
  · change (BTreeMap.insert _ _ _).len ≤ _
    rw [BTreeMap.len_insert hnone]
    exact hlen

/-- `finish` takes back a `begin`. -/
lemma finish_begin {requestId deadline : ℕ}
    (hok : s.begin requestId capability deadline = ok s') : s'.finish requestId = s := by
  obtain ⟨-, hnone, -, rfl⟩ := begin_eq_ok hok
  rw [finish]
  dsimp only
  rw [BTreeMap.remove_insert hnone]

lemma Balanced.finish (h : Balanced s) (requestId : ℕ) : Balanced (s.finish requestId) := by
  refine { h with
    pending_id := fun id operation hget => h.pending_id id operation ?_
    pending_le := BTreeMap.len_remove_le.trans h.pending_le }
  simp only [LifecycleState.finish, BTreeMap.get_remove] at hget
  split_ifs at hget
  exact hget

/-- A new resource has the next number, and its bytes fit. -/
lemma allocateResource_eq_ok {bytes id : ℕ}
    (h : s.allocateResource capability bytes = ok (id, s')) :
    id = s.nextResourceId ∧ s.nextResourceId + 1 < U64.size ∧
      s.resources.len < s.limits.maximumResources ∧
      s.bufferedBytes + bytes ≤ s.limits.maximumBufferedBytes ∧
      s.bufferedBytes + bytes < U64.size ∧
      s' = { s with
        resources := s.resources.insert s.nextResourceId ⟨s.nextResourceId, capability, bytes⟩
        bufferedBytes := s.bufferedBytes + bytes
        nextResourceId := s.nextResourceId + 1 } := by
  rw [allocateResource] at h
  split_ifs at h with hfull
  cases hnext : U64.add s.nextResourceId 1 with
  | none =>
    rw [hnext] at h
    cases h
  | some next =>
    rw [hnext] at h
    simp only [bind_eq_ok, check_eq_ok, U64.add_eq_some] at h
    obtain ⟨total, ⟨hlt, rfl⟩, h⟩ := h
    cases h
    obtain ⟨hsize, rfl⟩ := U64.add_eq_some.mp hnext
    have hadd : U64.add s.bufferedBytes bytes = some (s.bufferedBytes + bytes) :=
      U64.add_eq_some.mpr ⟨hlt, rfl⟩
    rw [hadd] at hfull
    simp only [Option.elim_some, Bool.or_eq_true, decide_eq_true_eq, not_or, not_le,
      not_lt] at hfull
    exact ⟨rfl, hsize, hfull.1, hfull.2, hlt, rfl⟩

lemma allocateResource_ne_panic {bytes : ℕ} : s.allocateResource capability bytes ≠ .panic := by
  intro h
  rw [allocateResource] at h
  split_ifs at h with hfull
  cases hadd : U64.add s.bufferedBytes bytes with
  | none => simp [hadd] at hfull
  | some total =>
    rw [hadd] at h
    cases hnext : U64.add s.nextResourceId 1 with
    | none =>
      rw [hnext] at h
      cases h
    | some next =>
      rw [hnext] at h
      cases h

lemma Balanced.get_next (h : Balanced s) : s.resources.get s.nextResourceId = none := by
  rw [← BTreeMap.containsKey_eq_false_iff]
  by_contra hcontains
  have hfresh := (h.fresh _ (by simpa using hcontains)).2
  exact absurd hfresh (lt_irrefl _)

lemma Balanced.allocateResource {bytes id : ℕ} (h : Balanced s)
    (hok : s.allocateResource capability bytes = ok (id, s')) : Balanced s' := by
  obtain ⟨rfl, -, hlen, hbytes, hlt, rfl⟩ := allocateResource_eq_ok hok
  refine { h with
    resource_id := fun id resource hget => ?_
    resources_le := ?_
    buffered_eq := ?_
    buffered_le := hbytes
    buffered_lt := hlt
    fresh := fun id hid => ?_
    next_pos := Nat.succ_pos _ }
  · simp only [BTreeMap.get_insert] at hget
    split_ifs at hget with heq
    · cases hget
      exact heq.symm
    · exact h.resource_id id resource hget
  · change (BTreeMap.insert _ _ _).len ≤ _
    rw [BTreeMap.len_insert h.get_next]
    exact hlen
  · dsimp only
    rw [reserved_insert h.get_next, h.buffered_eq]
  · have hfresh := h.fresh id
    have hpos := h.next_pos
    simp only [BTreeMap.containsKey, BTreeMap.get_insert] at hid hfresh ⊢
    split_ifs at hid with heq
    · omega
    · have hold := hfresh hid
      omega

lemma Balanced.closeResource (h : Balanced s) (resourceId : ℕ) :
    Balanced (s.closeResource resourceId).2 := by
  rw [LifecycleState.closeResource]
  cases hget : s.resources.get resourceId with
  | none => exact h
  | some resource =>
    have hsum := reserved_remove hget
    have heq := h.buffered_eq
    have hle := h.buffered_le
    have hlt := h.buffered_lt
    refine { h with
      resource_id := fun id resource' hget' => h.resource_id id resource' ?_
      resources_le := BTreeMap.len_remove_le.trans h.resources_le
      buffered_eq := ?_
      buffered_le := ?_
      buffered_lt := ?_
      fresh := fun id hid => h.fresh id ?_ }
    · simp only [BTreeMap.get_remove] at hget'
      split_ifs at hget'
      exact hget'
    · dsimp only
      omega
    · dsimp only
      omega
    · dsimp only
      omega
    · simp only [BTreeMap.containsKey, BTreeMap.get_remove] at hid ⊢
      split_ifs at hid
      · cases hid
      · exact hid

lemma get_closeResource {resourceId id : ℕ} :
    (s.closeResource resourceId).2.resources.get id =
      if id = resourceId then none else s.resources.get id := by
  rw [closeResource]
  cases hget : s.resources.get resourceId with
  | none =>
    by_cases hid : id = resourceId
    · rw [if_pos hid, hid, hget]
    · rw [if_neg hid]
  | some resource => exact BTreeMap.get_remove

lemma pending_closeResource {resourceId : ℕ} :
    (s.closeResource resourceId).2.pending = s.pending := by
  rw [closeResource]
  split <;> rfl

lemma next_closeResource {resourceId : ℕ} :
    (s.closeResource resourceId).2.nextResourceId = s.nextResourceId := by
  rw [closeResource]
  split <;> rfl

lemma limits_closeResource {resourceId : ℕ} :
    (s.closeResource resourceId).2.limits = s.limits := by
  rw [closeResource]
  split <;> rfl

/-- Closing takes back an allocation, up to the number. -/
lemma closeResource_allocateResource {bytes id : ℕ} (h : Balanced s)
    (hok : s.allocateResource capability bytes = ok (id, s')) :
    s'.closeResource id = (true, { s with nextResourceId := s.nextResourceId + 1 }) := by
  obtain ⟨rfl, -, -, -, -, rfl⟩ := allocateResource_eq_ok hok
  rw [closeResource]
  dsimp only
  rw [BTreeMap.get_insert, if_pos rfl]
  dsimp only
  rw [BTreeMap.remove_insert h.get_next, Nat.add_sub_cancel]

/-! ### Revocation -/

/-- The loop that removes resources releases the bytes of those it finds, each once. -/
lemma foldlM_release (ids : List ℕ) (resources : BTreeMap ℕ BrokerResource) (released : ℕ)
    (hsize : released + reserved resources < U64.size) :
    ∃ released', ids.foldlM release (resources, released) =
        some (ids.foldl BTreeMap.remove resources, released') ∧
      released' + reserved (ids.foldl BTreeMap.remove resources) =
        released + reserved resources := by
  induction ids generalizing resources released with
  | nil => exact ⟨released, rfl, rfl⟩
  | cons id ids ih =>
    rw [List.foldlM_cons, List.foldl_cons, release]
    dsimp only
    cases hget : resources.get id with
    | none =>
      rw [BTreeMap.remove_eq_self hget]
      exact ih resources released hsize
    | some resource =>
      have hsum := reserved_remove hget
      have hadd : U64.add released resource.bufferedBytes =
          some (released + resource.bufferedBytes) := U64.add_eq_some.mpr ⟨by omega, rfl⟩
      obtain ⟨released', hrun, htotal⟩ := ih (resources.remove id)
        (released + resource.bufferedBytes) (by omega)
      refine ⟨released', ?_, by omega⟩
      simp only [hadd, Option.map_some, Option.bind_eq_bind, Option.bind_some]
      exact hrun

lemma mem_cancelled {id : ℕ} (h : Balanced s) :
    id ∈ ((s.pending.values.filter fun operation => operation.capability = capability).map
        PendingOperation.requestId) ↔
      ∃ operation, s.pending.get id = some operation ∧ operation.capability = capability := by
  simp only [List.mem_map, List.mem_filter, BTreeMap.mem_values_iff, decide_eq_true_eq]
  constructor
  · rintro ⟨operation, ⟨⟨key, hget⟩, hcapability⟩, rfl⟩
    have hid := h.pending_id key operation hget
    exact ⟨operation, hid ▸ hget, hcapability⟩
  · rintro ⟨operation, hget, hcapability⟩
    exact ⟨operation, ⟨⟨id, hget⟩, hcapability⟩, h.pending_id id operation hget⟩

lemma mem_closed {id : ℕ} (h : Balanced s) :
    id ∈ ((s.resources.values.filter fun resource => resource.capability = capability).map
        BrokerResource.resourceId) ↔
      ∃ resource, s.resources.get id = some resource ∧ resource.capability = capability := by
  simp only [List.mem_map, List.mem_filter, BTreeMap.mem_values_iff, decide_eq_true_eq]
  constructor
  · rintro ⟨resource, ⟨⟨key, hget⟩, hcapability⟩, rfl⟩
    have hid := h.resource_id key resource hget
    exact ⟨resource, hid ▸ hget, hcapability⟩
  · rintro ⟨resource, hget, hcapability⟩
    exact ⟨resource, ⟨⟨id, hget⟩, hcapability⟩, h.resource_id id resource hget⟩

/-- What `revoke` does to the books: it takes what belongs to the capability, with the
bytes, and leaves everything else. -/
structure Revoked (s : LifecycleState) (capability : CapabilityId) (effect : RevocationEffect)
    (s' : LifecycleState) : Prop where
  pending : ∀ id, s'.pending.get id =
    (s.pending.get id).filter fun operation => operation.capability ≠ capability
  resources : ∀ id, s'.resources.get id =
    (s.resources.get id).filter fun resource => resource.capability ≠ capability
  closed : ∀ id, id ∈ effect.closedResources ↔
    ∃ resource, s.resources.get id = some resource ∧ resource.capability = capability
  next : s'.nextResourceId = s.nextResourceId
  limits : s'.limits = s.limits
  balanced : Balanced s'

lemma get_remove_all {ν : Type*} {m : BTreeMap ℕ ν} (ids : List ℕ) {p : ν → Bool}
    (hids : ∀ id, id ∈ ids ↔ ∃ v, m.get id = some v ∧ p v = true) (id : ℕ) :
    (ids.foldl BTreeMap.remove m).get id = (m.get id).filter fun v => !p v := by
  rw [get_foldl_remove]
  cases hget : m.get id with
  | none => simp
  | some v =>
    by_cases hp : p v = true
    · rw [if_pos ((hids id).mpr ⟨v, hget, hp⟩)]
      simp [Option.filter, hp]
    · have hout : id ∉ ids := by
        intro hmem
        obtain ⟨v', hget', hp'⟩ := (hids id).mp hmem
        rw [hget] at hget'
        cases hget'
        exact hp hp'
      rw [if_neg hout]
      simp [Option.filter, hp]

/-- A revocation of balanced books does not overflow. -/
theorem Balanced.revoke (h : Balanced s) (capability : CapabilityId) :
    ∃ effect s', s.revoke capability = some (effect, s') ∧ Revoked s capability effect s' := by
  have hle := h.buffered_le
  have hlt := h.buffered_lt
  have heq := h.buffered_eq
  obtain ⟨released, hrun, htotal⟩ := foldlM_release ((s.resources.values.filter fun resource =>
    resource.capability = capability).map BrokerResource.resourceId) s.resources 0 (by omega)
  have hpending := get_remove_all (m := s.pending)
    ((s.pending.values.filter fun operation => operation.capability = capability).map
      PendingOperation.requestId)
    (p := fun operation => operation.capability = capability)
    fun id => by simpa using mem_cancelled h
  have hresources := get_remove_all (m := s.resources)
    ((s.resources.values.filter fun resource => resource.capability = capability).map
      BrokerResource.resourceId)
    (p := fun resource => resource.capability = capability)
    fun id => by simpa using mem_closed h
  simp only [← decide_not] at hpending hresources
  rw [LifecycleState.revoke, hrun]
  refine ⟨_, _, rfl, ?_⟩
  refine ⟨hpending, hresources, fun id => mem_closed h, rfl, rfl, ?_⟩
  refine { h with
    pending_id := fun id operation hget => ?_
    resource_id := fun id resource hget => ?_
    pending_le := (len_foldl_remove_le _ _).trans h.pending_le
    resources_le := (len_foldl_remove_le _ _).trans h.resources_le
    buffered_eq := ?_
    buffered_le := ?_
    buffered_lt := ?_
    fresh := fun id hid => ?_ }
  · rw [hpending, Option.filter_eq_some_iff] at hget
    exact h.pending_id id operation hget.1
  · rw [hresources, Option.filter_eq_some_iff] at hget
    exact h.resource_id id resource hget.1
  · dsimp only
    omega
  · dsimp only
    omega
  · dsimp only
    omega
  · obtain ⟨resource, hget⟩ := BTreeMap.containsKey_iff.mp hid
    rw [hresources, Option.filter_eq_some_iff] at hget
    exact h.fresh id (BTreeMap.containsKey_iff.mpr ⟨resource, hget.1⟩)

lemma Balanced.revokeAll (h : Balanced s) : Balanced s.revokeAll.2 where
  pending_id id operation hget := by cases hget
  resource_id id resource hget := by cases hget
  pending_le := Nat.zero_le _
  resources_le := Nat.zero_le _
  buffered_eq := rfl
  buffered_le := Nat.zero_le _
  buffered_lt := Nat.two_pow_pos 64
  fresh id hid := by cases hid
  next_pos := h.next_pos

end LifecycleState

end TouchBar.Broker
