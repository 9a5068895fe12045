import TouchBar.Schema.Context
import TouchBar.Supervisor.Resources

/-!
# Reading facts about the desktop

The broker of `context.read.v1` keeps the facts that the compositor reports.  A
subscription gets a snapshot of the facts it asks for when it opens, and afterwards an
event for each of them that changes; an event may be dropped because of the rate limit,
or end the subscription.

What the host decodes from the answer and from the events is compared with the facts that
the broker holds.  The thread that reads the socket of the compositor and publishes what it
finds there is left out.
-/

namespace TouchBar.Supervisor

open TouchBar.Rust TouchBar.Lib TouchBar.Policy TouchBar.Schema Outcome

def contextSubscribeOperation : String := "subscribe"

/-- What the rate limit and the channel make of an event: it is sent, it is dropped, or the
sink is finished. -/
inductive Emission where
  | sent
  | limited
  | ended
deriving DecidableEq, Repr

/-- A subscription with its sink.  `granted` are the facts of the scope, `opened` is the
answer of `open`, `events` are the payloads that were sent, and `missed` the facts whose
last event was dropped. -/
structure ContextSubscription where
  resourceId : UInt64
  facts : BTreeSet String
  finished : Bool
  granted : BTreeSet String
  opened : List UInt8
  events : List (List UInt8)
  missed : List String

structure ContextState where
  generation : UInt64
  facts : BTreeMap String ContextFactValue
  subscriptions : BTreeMap ℕ ContextSubscription

inductive ContextAction where
  | publish (key : String) (value : ContextFactValue) (emissions : UInt64 → Emission)
  | openSubscription (resourceId : UInt64) (request : BackendRequest)
  | close (resourceId : ℕ)
  /-- the resource manager finishes the sink -/
  | finish (resourceId : ℕ)

namespace ContextReadBackend

/-! ## Requests -/

def supportedFact (fact : String) : Bool := fact = "application.id" || fact = "workspace.id"

def decodeAndAuthorize (request : BackendRequest) (operation : String) :
    Outcome BrokerErrorCode (BTreeSet String) := do
  rejectIf (request.capability ≠ .contextReadV1 || request.operation ≠ operation) .invalidRequest
  let requested ← mapSchemaError (ContextReadRequest.decode request.payload)
  match request.authorizedScope with
  | .contextRead scope =>
    rejectIf (!requested.facts.isSubset scope.facts) .outOfScope
    rejectIf (requested.facts.toList.any fun fact => !supportedFact fact) .unsupported
    return requested.facts
  | _ => err .invalidRequest

/-- The facts of the scope of a request. -/
def granted (request : BackendRequest) : BTreeSet String :=
  match request.authorizedScope with
  | .contextRead scope => scope.facts
  | _ => .empty

/-! ## Publishing -/

def validValue : ContextFactValue → Bool
  | .text value => !Text.isEmpty value && Text.len value ≤ maxContextValueBytes &&
      !value.toList.any Text.isControl
  | .boolean _ => true

/-- `emit`, with whether the event was sent. -/
def emit (sub : ContextSubscription) (payload : List UInt8) (emission : Emission) :
    ContextSubscription × Bool :=
  if sub.finished then (sub, false)
  else if Runtime.oversized payload then ({ sub with finished := true }, false)
  else
    match emission with
    | .sent => ({ sub with events := sub.events ++ [payload] }, true)
    | .limited => (sub, false)
    | .ended => ({ sub with finished := true }, false)

/-- One turn of the loop of `publish`. -/
def offer (key : String) (payload : List UInt8) (emission : Emission)
    (sub : ContextSubscription) : ContextSubscription :=
  if sub.facts.contains key && !sub.finished then
    let (sub, sent) := emit sub payload emission
    { sub with missed := if sent then sub.missed.filter (· ≠ key) else key :: sub.missed }
  else sub

/-- An error of the encoder leaves the new fact in place. -/
def publish (s : ContextState) (key : String) (value : ContextFactValue)
    (emissions : UInt64 → Emission) : ContextState × Outcome BrokerErrorCode Unit :=
  if !supportedFact key || !validValue value then (s, err .invalidRequest)
  else if s.facts.get key = some value then (s, ok ())
  else
    let s := { s with
      generation := .ofNat (U64.saturatingAdd s.generation.toNat 1)
      facts := s.facts.insert key value }
    match mapSchemaError (ContextSnapshot.encode ⟨s.generation, [⟨key, value⟩]⟩) with
    | ok payload =>
      ({ s with
          subscriptions := s.subscriptions.mapValues fun sub =>
            offer key payload (emissions sub.resourceId) sub },
        ok ())
    | err code => (s, err code)
    | .panic => (s, .panic)

/-! ## Subscriptions -/

def snapshotLocked (s : ContextState) (requested : BTreeSet String) : ContextSnapshot where
  generation := s.generation
  facts := requested.toList.filterMap fun key => (s.facts.get key).map (ContextFact.mk key)

def openSubscription (s : ContextState) (resourceId : UInt64) (request : BackendRequest) :
    Outcome BrokerErrorCode (ContextState × List UInt8) := do
  let requested ← decodeAndAuthorize request contextSubscribeOperation
  rejectIf (s.subscriptions.containsKey resourceId.toNat) .invalidRequest
  let payload ← mapSchemaError
    (ContextSubscriptionOpened.encode ⟨resourceId, snapshotLocked s requested⟩)
  let sub := ⟨resourceId, requested, false, granted request, payload, [], []⟩
  return ({ s with subscriptions := s.subscriptions.insert resourceId.toNat sub }, payload)

def initial : ContextState := ⟨1, .empty, .empty⟩

def step (s : ContextState) : ContextAction → ContextState
  | .publish key value emissions => (publish s key value emissions).1
  | .openSubscription resourceId request =>
    match openSubscription s resourceId request with
    | ok (s, _) => s
    | _ => s
  | .close resourceId => { s with subscriptions := s.subscriptions.remove resourceId }
  | .finish resourceId =>
    match s.subscriptions.get resourceId with
    | some sub =>
      { s with subscriptions := s.subscriptions.insert resourceId { sub with finished := true } }
    | none => s

/-! ## What a host knows -/

/-- The facts after a list of snapshots, of which the last one of a key counts. -/
def knownFacts (snapshots : List ContextSnapshot) : BTreeMap String ContextFactValue :=
  .ofList ((snapshots.flatMap ContextSnapshot.facts).map fun fact => (fact.key, fact.value))

/-- The answer and the events of a subscription tell what was asked for and granted, in order,
and agree with the broker but for the facts whose events were dropped. -/
structure Current (s : ContextState) (sub : ContextSubscription) (answer : ContextSnapshot)
    (updates : List ContextSnapshot) : Prop where
  opened : ContextSubscriptionOpened.decode sub.opened = ok ⟨sub.resourceId, answer⟩
  events : List.Forall₂ (fun payload update => ContextSnapshot.decode payload = ok update)
    sub.events updates
  granted : ∀ key ∈ sub.facts, key ∈ sub.granted ∧ supportedFact key = true
  asked : ∀ snapshot ∈ answer :: updates, ∀ fact ∈ snapshot.facts, fact.key ∈ sub.facts
  ordered : (answer :: updates).Pairwise fun before after =>
    before.generation < after.generation ∨ after.generation.toNat = U64.size - 1
  recent : ∀ snapshot ∈ answer :: updates, snapshot.generation ≤ s.generation
  known : sub.finished = false → ∀ key ∈ sub.facts, key ∉ sub.missed →
    (knownFacts (answer :: updates)).get key = s.facts.get key

/-- Every subscription of the table is current. -/
structure Sound (s : ContextState) : Prop where
  generation : s.generation ≠ 0
  current : ∀ id sub, s.subscriptions.get id = some sub →
    sub.resourceId.toNat = id ∧ ∃ answer updates, Current s sub answer updates

variable {s : ContextState} {sub : ContextSubscription} {updates : List ContextSnapshot}
  {key : String} {value : ContextFactValue}

lemma knownFacts_concat {generation : UInt64} :
    knownFacts (updates ++ [⟨generation, [⟨key, value⟩]⟩]) =
      (knownFacts updates).insert key value := by
  simp [knownFacts, BTreeMap.ofList, List.foldl_append]

/-- A snapshot tells the facts that were asked for as they are. -/
lemma get_knownFacts_snapshotLocked {requested : BTreeSet String} (hkey : key ∈ requested) :
    (knownFacts [snapshotLocked s requested]).get key = s.facts.get key := by
  have hentries : (snapshotLocked s requested).facts.map (fun fact => (fact.key, fact.value)) =
      requested.toList.filterMap fun key => (s.facts.get key).map (Prod.mk key) := by
    rw [snapshotLocked, List.map_filterMap]
    simp only [Option.map_map, Function.comp_def]
  have hkeys : ((requested.toList.filterMap fun key =>
      (s.facts.get key).map (Prod.mk key)).map Prod.fst).Nodup := by
    rw [List.map_filterMap]
    refine List.Nodup.filterMap ?_ (requested.sorted.imp ne_of_lt)
    intro k k' found hfound hfound'
    simp only [Option.map_map, Option.mem_def, Option.map_eq_some_iff, Function.comp_apply]
      at hfound hfound'
    obtain ⟨-, -, rfl⟩ := hfound
    obtain ⟨-, -, rfl⟩ := hfound'
    rfl
  ext found
  rw [knownFacts, List.flatMap_singleton, hentries, BTreeMap.get_ofList hkeys]
  simp only [List.mem_filterMap, Option.map_eq_some_iff, Prod.mk.injEq]
  constructor
  · rintro ⟨_, -, _, hget, rfl, rfl⟩
    exact hget
  · intro hget
    exact ⟨key, hkey, found, hget, rfl, rfl⟩

/-! ## Publishing keeps it -/

/-- A supported fact with a valid value always fits into an event. -/
lemma exists_encode_update {generation : UInt64} (hgeneration : generation ≠ 0)
    (hkey : supportedFact key = true) (hvalue : validValue value = true) :
    ∃ payload, ContextSnapshot.encode ⟨generation, [⟨key, value⟩]⟩ = ok payload := by
  have hlen : Text.len key ≤ 14 := by
    rcases (by simpa [supportedFact] using hkey) with rfl | rfl <;> decide
  obtain ⟨hvalid, hwrite⟩ :
      value.Valid ∧ value.write.length ≤ maxContextValueBytes + 3 := by
    cases value with
    | text value =>
      simp only [validValue, Bool.and_eq_true, decide_eq_true_eq] at hvalue
      exact ⟨hvalue.1.2, by simpa [ContextFactValue.write] using hvalue.1.2⟩
    | boolean value => exact ⟨trivial, (by decide : 2 ≤ maxContextValueBytes + 3)⟩
  refine ⟨_, encodeContextSnapshot_eq_ok.mpr
    ⟨hgeneration, by simp [maxContextFacts], ⟨?_, by simp⟩, ?_, rfl⟩⟩
  · simp only [List.mem_singleton, forall_eq]
    exact ⟨hlen.trans (by decide), hvalid⟩
  · have hmagic : ContextSnapshot.magic.length = 8 := by decide
    simp only [List.length_append, hmagic, Option.toList_none, List.flatMap_nil, List.length_nil,
      Encoder.length_u64, Encoder.length_u16, List.flatMap_singleton, ContextFact.write,
      Encoder.length_text]
    unfold maxContextValueBytes at hwrite
    unfold maxPayloadBytes
    omega

/-- The next generation is a later one, unless the counter stands at its maximum. -/
lemma next_generation (generation : UInt64) :
    generation ≤ .ofNat (U64.saturatingAdd generation.toNat 1) ∧
      (generation < .ofNat (U64.saturatingAdd generation.toNat 1) ∨
        (UInt64.ofNat (U64.saturatingAdd generation.toNat 1)).toNat = U64.size - 1) := by
  have hlt : generation.toNat < U64.size := generation.toNat_lt
  have hnext : (UInt64.ofNat (U64.saturatingAdd generation.toNat 1)).toNat =
      min (generation.toNat + 1) (U64.size - 1) := by
    rw [UInt64.toNat_ofNat', U64.saturatingAdd]
    exact Nat.mod_eq_of_lt (lt_of_le_of_lt (min_le_right _ _) (by decide))
  rw [UInt64.le_iff_toNat_le, UInt64.lt_iff_toNat_lt, hnext]
  omega

/-- What a turn of the loop can do to a subscription. -/
lemma offer_cases (key : String) (payload : List UInt8) (emission : Emission)
    (sub : ContextSubscription) :
    ((key ∈ sub.facts → sub.finished = true) ∧ offer key payload emission sub = sub) ∨
      key ∈ sub.facts ∧ sub.finished = false ∧
        (offer key payload emission sub =
            { sub with
              events := sub.events ++ [payload]
              missed := sub.missed.filter (· ≠ key) } ∨
          ∃ finished, offer key payload emission sub =
            { sub with finished := finished, missed := key :: sub.missed }) := by
  obtain ⟨resourceId, facts, finished, granted, opened, events, missed⟩ := sub
  by_cases hkey : key ∈ facts
  · have hcontains := BTreeSet.contains_iff.mpr hkey
    cases finished with
    | true => exact .inl ⟨fun _ => rfl, by simp [ContextReadBackend.offer]⟩
    | false =>
      refine .inr ⟨hkey, rfl, ?_⟩
      simp only [ContextReadBackend.offer, emit, hcontains, Bool.not_false, Bool.and_self, if_true,
        Bool.false_eq_true, if_false]
      cases Runtime.oversized payload with
      | true => exact .inr ⟨true, rfl⟩
      | false =>
        cases emission with
        | sent => exact .inl rfl
        | limited => exact .inr ⟨false, rfl⟩
        | ended => exact .inr ⟨true, rfl⟩
  · exact .inl ⟨fun h => absurd h hkey, by simp [ContextReadBackend.offer, hkey]⟩

/-- A subscription hears of the change, or counts its fact as missed. -/
lemma Current.offer {s' : ContextState} {answer : ContextSnapshot} {payload : List UInt8}
    (emission : Emission) (h : Current s sub answer updates)
    (hgeneration : s'.generation = .ofNat (U64.saturatingAdd s.generation.toNat 1))
    (hfacts : s'.facts = s.facts.insert key value)
    (hpayload : ContextSnapshot.encode ⟨s'.generation, [⟨key, value⟩]⟩ = ok payload) :
    ∃ updates', Current s' (offer key payload emission sub) answer updates' := by
  obtain ⟨hle, hlt⟩ := next_generation s.generation
  rw [← hgeneration] at hle hlt
  have hother : ∀ k, k ≠ key → s'.facts.get k = s.facts.get k := fun k hk => by
    rw [hfacts, BTreeMap.get_insert, if_neg hk]
  have hrecent : ∀ before ∈ answer :: updates, before.generation ≤ s'.generation :=
    fun before hbefore => UInt64.le_trans (h.recent before hbefore) hle
  rcases offer_cases key payload emission sub with
    ⟨hnot, heq⟩ | ⟨hkey, hopen, heq | ⟨finished, heq⟩⟩
  · rw [heq]
    refine ⟨updates, { h with recent := hrecent, known := fun hopen k hk hmissed => ?_ }⟩
    rw [h.known hopen k hk hmissed, hother]
    rintro rfl
    rw [hnot hk] at hopen
    cases hopen
  · -- the event joins the snapshots
    rw [heq]
    refine ⟨updates ++ [⟨s'.generation, [⟨key, value⟩]⟩], h.opened,
      List.rel_append h.events (.cons (ContextSnapshot.decode_eq_ok.mpr hpayload) .nil),
      h.granted, ?_, ?_, ?_, fun _ k hk hmissed => ?_⟩ <;> rw [← List.cons_append]
    · simp only [List.forall_mem_append, List.forall_mem_singleton]
      exact ⟨h.asked, hkey⟩
    · rw [List.pairwise_append]
      refine ⟨h.ordered, List.pairwise_singleton _ _, fun before hbefore after hafter => ?_⟩
      rw [List.mem_singleton.mp hafter]
      exact hlt.imp_left fun hlt => UInt64.lt_of_le_of_lt (h.recent before hbefore) hlt
    · simp only [List.forall_mem_append, List.forall_mem_singleton]
      exact ⟨hrecent, UInt64.le_refl _⟩
    · rw [knownFacts_concat, hfacts, BTreeMap.get_insert, BTreeMap.get_insert]
      split_ifs with hsame
      · rfl
      · refine h.known hopen k hk fun hmem => hmissed ?_
        exact List.mem_filter.mpr ⟨hmem, decide_eq_true hsame⟩
  · rw [heq]
    refine ⟨updates, { h with recent := hrecent, known := fun _ k hk hmissed => ?_ }⟩
    rw [List.mem_cons, not_or] at hmissed
    rw [h.known hopen k hk hmissed.2, hother k hmissed.1]

lemma resourceId_offer {payload : List UInt8} {emission : Emission} :
    (offer key payload emission sub).resourceId = sub.resourceId := by
  rcases offer_cases key payload emission sub with ⟨-, heq⟩ | ⟨-, -, heq | ⟨_, heq⟩⟩ <;> rw [heq]

lemma sound_publish (h : Sound s) (key : String) (value : ContextFactValue)
    (emissions : UInt64 → Emission) : Sound (publish s key value emissions).1 := by
  rw [publish]
  split_ifs with hinvalid hsame
  · exact h
  · exact h
  · simp only [Bool.or_eq_true, Bool.not_eq_true', not_or, Bool.not_eq_false] at hinvalid
    have hgeneration : UInt64.ofNat (U64.saturatingAdd s.generation.toNat 1) ≠ 0 := by
      intro hzero
      have hle := (next_generation s.generation).1
      rw [hzero, UInt64.le_zero_iff] at hle
      exact h.generation hle
    obtain ⟨payload, hpayload⟩ := exists_encode_update hgeneration hinvalid.1 hinvalid.2
    simp only [hpayload, mapSchemaError]
    refine ⟨hgeneration, fun id sub hsub => ?_⟩
    rw [BTreeMap.get_mapValues, Option.map_eq_some_iff] at hsub
    obtain ⟨sub, hold, rfl⟩ := hsub
    obtain ⟨hid, answer, updates, hcurrent⟩ := h.current id sub hold
    refine ⟨by rw [resourceId_offer, hid], answer, ?_⟩
    exact hcurrent.offer (emissions sub.resourceId) rfl rfl hpayload

/-! ## Every step keeps it -/

lemma decodeAndAuthorize_eq_ok {request : BackendRequest} {operation : String}
    {requested : BTreeSet String} (h : decodeAndAuthorize request operation = ok requested) :
    ∀ key ∈ requested, key ∈ granted request ∧ supportedFact key = true := by
  simp only [decodeAndAuthorize, bind_eq_ok, rejectIf_eq_ok] at h
  obtain ⟨-, -, ⟨facts⟩, -, h⟩ := h
  split at h
  · rename_i scope hscope
    simp only [bind_eq_ok, rejectIf_eq_ok, Bool.not_eq_false', BTreeSet.isSubset_iff,
      List.any_eq_false, Bool.not_eq_true', Bool.not_eq_false] at h
    obtain ⟨-, hsubset, -, hsupported, h⟩ := h
    cases h
    refine fun key hkey => ⟨?_, hsupported key hkey⟩
    rw [granted, hscope]
    exact hsubset key hkey
  · cases h

/-- The other subscriptions stay as they are. -/
lemma Sound.insert (h : Sound s) {id : ℕ} {answer : ContextSnapshot}
    (hid : sub.resourceId.toNat = id) (hcurrent : Current s sub answer updates) :
    Sound { s with subscriptions := s.subscriptions.insert id sub } := by
  refine ⟨h.generation, fun id' sub' hsub => ?_⟩
  rw [BTreeMap.get_insert] at hsub
  split_ifs at hsub with hsame
  · cases hsub
    exact ⟨hid.trans hsame.symm, answer, updates, { hcurrent with }⟩
  · obtain ⟨hid', answer', updates', hcurrent'⟩ := h.current id' sub' hsub
    exact ⟨hid', answer', updates', { hcurrent' with }⟩

lemma sound_openSubscription (h : Sound s) {resourceId : UInt64} {request : BackendRequest}
    {s' : ContextState} {payload : List UInt8}
    (hopen : openSubscription s resourceId request = ok (s', payload)) : Sound s' := by
  simp only [openSubscription, bind_eq_ok, rejectIf_eq_ok, mapSchemaError_eq_ok] at hopen
  obtain ⟨requested, hrequested, -, -, payload, hpayload, hs'⟩ := hopen
  cases hs'
  refine h.insert rfl ⟨ContextSubscriptionOpened.decode_eq_ok.mpr hpayload, .nil,
    decodeAndAuthorize_eq_ok hrequested, ?_, List.pairwise_singleton _ _, ?_,
    fun _ key hkey _ => get_knownFacts_snapshotLocked hkey⟩
  · simp only [List.forall_mem_singleton, snapshotLocked, List.mem_filterMap,
      Option.map_eq_some_iff]
    rintro _ ⟨key, hkey, value, -, rfl⟩
    exact hkey
  · exact List.forall_mem_singleton.mpr (UInt64.le_refl _)

lemma sound_step (h : Sound s) (a : ContextAction) : Sound (step s a) := by
  cases a with
  | publish key value emissions => exact sound_publish h key value emissions
  | openSubscription resourceId request =>
    rw [step]
    split
    · rename_i hopen
      exact sound_openSubscription h hopen
    · exact h
  | close resourceId =>
    refine ⟨h.generation, fun id sub hsub => ?_⟩
    rw [step, BTreeMap.get_remove] at hsub
    split_ifs at hsub
    obtain ⟨hid, answer, updates, hcurrent⟩ := h.current id sub hsub
    exact ⟨hid, answer, updates, { hcurrent with }⟩
  | finish resourceId =>
    rw [step]
    split
    · rename_i found hfound
      obtain ⟨hid, answer, updates, hcurrent⟩ := h.current _ _ hfound
      exact h.insert hid { hcurrent with known := fun hopen => by cases hopen }
    · exact h

/-- In every run of publications, subscriptions and their ends: what the host decodes of a
subscription are only facts that it asked for and that its scope grants, under increasing
generations, and they agree with the broker on every fact but those whose last event was
dropped. -/
theorem sound_run (actions : List ContextAction) : Sound (run step initial actions) := by
  have hinitial : Sound initial := ⟨by decide, fun id sub hsub => by cases hsub⟩
  exact run_invariant (P := Sound) (fun _ a h => sound_step h a) hinitial actions

end ContextReadBackend

end TouchBar.Supervisor
