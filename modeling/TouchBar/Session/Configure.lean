import TouchBar.Lib.Episodes
import TouchBar.Rust.BTree

/-!
# Configure and acknowledge

The session asks a surface for a geometry with a numbered configure event, and the
client acknowledges it by its number.  At most 64 events may be on their way; a
further request is deferred, and the acknowledgement that makes room sends it.  The
invariant is that the last geometry asked for is never lost: it is the deferred one,
or else the one in the last event on its way, or else the acknowledged one
(`SurfaceState.target`).
-/

namespace TouchBar.Session

open TouchBar.Lib TouchBar.Rust

/-- `MAX_PENDING_CONFIGURES`. -/
def maxPendingConfigures : ℕ := 64

/-- The part of `SurfaceState` that configuration reads and writes, for geometries `γ`. -/
structure SurfaceState (γ : Type*) where
  geometry : γ
  /-- The events on their way, oldest first: serial and geometry. -/
  pendingConfigures : List (ℕ × γ)
  deferredConfigure : Option γ
  configured : Bool
  deriving DecidableEq

/-- The surfaces of the session, and the serial of the next configure event. -/
structure Surfaces (γ : Type*) where
  surfaces : BTreeMap ℕ (SurfaceState γ)
  nextConfigureSerial : ℕ

/-- What the session tells a client. -/
inductive SurfaceEvent (γ : Type*) where
  | configure (surface serial : ℕ) (geometry : γ)
  /-- `configure acknowledgement has a stale serial`. -/
  | staleSerial (surface : ℕ)
  deriving DecidableEq

variable {γ : Type*} [DecidableEq γ]

/-- `next_serial`: the serial that comes after one. -/
def serialAfter (serial : ℕ) : ℕ := max ((serial + 1) % 2 ^ 32) 1

namespace SurfaceState

/-- The surface has been asked for this geometry already. -/
def asked (s : SurfaceState γ) (geometry : γ) : Bool :=
  s.deferredConfigure.or (s.pendingConfigures.getLast?.map Prod.snd) = some geometry ||
    (s.configured && s.pendingConfigures.isEmpty && s.deferredConfigure.isNone &&
      s.geometry = geometry)

/-- `configure_surface` on the surface: the event to be sent, if any. -/
def request (s : SurfaceState γ) (serial : ℕ) (geometry : γ) :
    SurfaceState γ × Option (ℕ × γ) :=
  if s.asked geometry then (s, none)
  else if s.pendingConfigures.length ≥ maxPendingConfigures then
    ({ s with deferredConfigure := some geometry }, none)
  else
    ({ s with pendingConfigures := s.pendingConfigures ++ [(serial, geometry)] },
      some (serial, geometry))

/-- The handler of `AckConfigure` on the surface: the deferred geometry that is to be
configured now, if any; `none` if the serial is not pending. -/
def acknowledge (s : SurfaceState γ) (serial : ℕ) : Option (SurfaceState γ × Option γ) :=
  match s.pendingConfigures.dropWhile fun pending => pending.1 ≠ serial with
  | [] => none
  | (_, geometry) :: newer =>
    let room : Bool := newer.length < maxPendingConfigures
    some ({ geometry := geometry
            pendingConfigures := newer
            deferredConfigure := if room then none else s.deferredConfigure
            configured := true },
      if room then s.deferredConfigure else none)

end SurfaceState

namespace Surfaces

/-- `configure_surface`. -/
def configureSurface (st : Surfaces γ) (id : ℕ) (geometry : γ) :
    Surfaces γ × List (SurfaceEvent γ) :=
  match st.surfaces.get id with
  | none => (st, [])
  | some s =>
    match s.request st.nextConfigureSerial geometry with
    | (s, none) => ({ st with surfaces := st.surfaces.insert id s }, [])
    | (s, some (serial, geometry)) =>
      ({ surfaces := st.surfaces.insert id s
         nextConfigureSerial := serialAfter st.nextConfigureSerial },
        [.configure id serial geometry])

/-- The handler of `AckConfigure`. -/
def ackConfigure (st : Surfaces γ) (id serial : ℕ) : Surfaces γ × List (SurfaceEvent γ) :=
  match (st.surfaces.get id).bind fun s => s.acknowledge serial with
  | none => (st, [.staleSerial id])
  | some (s, deferred) =>
    let st := { st with surfaces := st.surfaces.insert id s }
    match deferred with
    | none => (st, [])
    | some geometry => st.configureSurface id geometry

/-- The handler of `Destroy`. -/
def destroy (st : Surfaces γ) (id : ℕ) : Surfaces γ :=
  match st.surfaces.get id with
  | none => st
  | some s => { st with surfaces := st.surfaces.insert id { s with configured := false } }

/-- What happens to the surfaces. -/
inductive Call (γ : Type*) where
  | configureSurface (id : ℕ) (geometry : γ)
  | ackConfigure (id serial : ℕ)
  | destroy (id : ℕ)
  deriving DecidableEq

/-- What a call does, and the events it sends. -/
def perform (st : Surfaces γ) : Call γ → Surfaces γ × List (SurfaceEvent γ)
  | .configureSurface id geometry => st.configureSurface id geometry
  | .ackConfigure id serial => st.ackConfigure id serial
  | .destroy id => (st.destroy id, [])

/-- The surfaces after a list of calls. -/
def after (st : Surfaces γ) (calls : List (Call γ)) : Surfaces γ :=
  run (fun st call => (st.perform call).1) st calls

/-- The events that a list of calls sends. -/
def sent (st : Surfaces γ) (calls : List (Call γ)) : List (SurfaceEvent γ) :=
  emitted (fun st call => (st.perform call).1) (fun st call => (st.perform call).2) st calls

end Surfaces

/-! ## One surface -/

namespace SurfaceState

variable {s t : SurfaceState γ} {serial : ℕ}

/-- The geometry that the surface was last asked for. -/
def target (s : SurfaceState γ) : γ :=
  (s.deferredConfigure.or (s.pendingConfigures.getLast?.map Prod.snd)).getD s.geometry

/-- The window holds at most 64 events, and a request waits only while it is full. -/
structure Bounded (s : SurfaceState γ) : Prop where
  length_le : s.pendingConfigures.length ≤ maxPendingConfigures
  full : s.deferredConfigure.isSome → s.pendingConfigures.length = maxPendingConfigures

/-- One, if a request waits. -/
def waiting (s : SurfaceState γ) : ℕ := if s.deferredConfigure.isSome then 1 else 0

lemma target_of_asked {geometry : γ} (h : s.asked geometry = true) : s.target = geometry := by
  rw [asked, Bool.or_eq_true, decide_eq_true_eq] at h
  rcases h with h | h
  · rw [target, h, Option.getD_some]
  · simp only [Bool.and_eq_true, List.isEmpty_iff, Option.isNone_iff_eq_none,
      decide_eq_true_eq] at h
    obtain ⟨⟨⟨-, hpending⟩, hdeferred⟩, hgeometry⟩ := h
    simp [target, hpending, hdeferred, hgeometry]

/-- A step of a surface: it drops the oldest pending events and may send one more. -/
structure Moves (s : SurfaceState γ) (serial : ℕ) (requests : ℕ) (newer : List (ℕ × γ))
    (t : SurfaceState γ) (event : Option (ℕ × γ)) : Prop where
  suffix : newer <:+ s.pendingConfigures
  pending : t.pendingConfigures = newer ++ event.toList
  event_serial : ∀ e ∈ event, e.1 = serial
  bounded : t.Bounded
  /-- Every event that is sent was asked for before or is asked for now. -/
  waiting : t.waiting + event.toList.length ≤ s.waiting + requests

/-- What a request does to a surface. -/
lemma request_moves (h : s.Bounded) (serial : ℕ) (geometry : γ) :
    Moves s serial 1 s.pendingConfigures (s.request serial geometry).1
        (s.request serial geometry).2 ∧
      (s.request serial geometry).1.target = geometry ∧
      (s.request serial geometry).1.geometry = s.geometry ∧
      (s.request serial geometry).1.configured = s.configured := by
  rw [request]
  split_ifs with hasked hfull
  · exact ⟨⟨List.suffix_rfl, by simp, by simp, h, by simp⟩, target_of_asked hasked, rfl, rfl⟩
  · refine ⟨⟨List.suffix_rfl, by simp, by simp, ⟨h.length_le, fun _ => ?_⟩, ?_⟩, rfl, rfl, rfl⟩
    · exact le_antisymm h.length_le hfull
    · simp [SurfaceState.waiting]
  · -- the window is not full, so that nothing waits
    have hnone : s.deferredConfigure = none := by
      rw [← Option.not_isSome_iff_eq_none]
      intro hsome
      exact hfull (h.full hsome).ge
    refine ⟨⟨List.suffix_rfl, rfl, by simp, ⟨?_, fun hsome => ?_⟩, ?_⟩, ?_, rfl, rfl⟩
    · simp only [List.length_append, List.length_singleton]
      omega
    · simp [hnone] at hsome
    · simp [SurfaceState.waiting, hnone]
    · simp [target, hnone]

omit [DecidableEq γ] in
/-- An accepted acknowledgement discards the event and the older ones, and hands out what
was deferred. -/
lemma acknowledge_spec {older newer : List (ℕ × γ)} {geometry : γ} (h : s.Bounded)
    (hpending : s.pendingConfigures = older ++ (serial, geometry) :: newer)
    (hserial : ∀ e ∈ older, e.1 ≠ serial) :
    s.acknowledge serial = some (⟨geometry, newer, none, true⟩, s.deferredConfigure) := by
  have hdrop : s.pendingConfigures.dropWhile (fun e => decide (e.1 ≠ serial)) =
      (serial, geometry) :: newer := by
    rw [hpending, List.dropWhile_append_of_pos (by simpa using hserial)]
    simp
  have hroom : newer.length < maxPendingConfigures := by
    have hlen := h.length_le
    rw [hpending] at hlen
    simp only [List.length_append, List.length_cons] at hlen
    omega
  rw [acknowledge, hdrop]
  simp [hroom]

omit [DecidableEq γ] in
/-- The acknowledged surface has room, and nothing waits. -/
lemma acknowledged_bounded {older newer : List (ℕ × γ)} {geometry : γ} (h : s.Bounded)
    (hpending : s.pendingConfigures = older ++ (serial, geometry) :: newer) :
    Bounded ⟨geometry, newer, none, true⟩ := by
  have hlen := h.length_le
  rw [hpending] at hlen
  simp only [List.length_append, List.length_cons] at hlen
  exact ⟨by show newer.length ≤ _; omega, by simp⟩

omit [DecidableEq γ] in
/-- If nothing was deferred, the acknowledgement leaves the target as it is. -/
lemma acknowledged_target {older newer : List (ℕ × γ)} {geometry : γ}
    (hpending : s.pendingConfigures = older ++ (serial, geometry) :: newer)
    (hdeferred : s.deferredConfigure = none) :
    target ⟨geometry, newer, none, true⟩ = s.target := by
  rw [target, target, hdeferred, hpending]
  cases hlast : newer.getLast? with
  | none => simp [List.getLast?_eq_none_iff.1 hlast]
  | some e => simp [List.getLast?_append, List.getLast?_cons, hlast]

omit [DecidableEq γ] in
/-- An acknowledgement of a serial that is not pending is not accepted. -/
lemma acknowledge_eq_none (h : ∀ e ∈ s.pendingConfigures, e.1 ≠ serial) :
    s.acknowledge serial = none := by
  have hdrop : s.pendingConfigures.dropWhile (fun e => decide (e.1 ≠ serial)) = [] := by
    rw [List.dropWhile_eq_nil_iff]
    simpa using h
  rw [acknowledge, hdrop]

omit [DecidableEq γ] in
/-- A pending serial splits the events into the older ones, its own and the newer ones. -/
lemma exists_split {l : List (ℕ × γ)} (h : ¬ ∀ e ∈ l, e.1 ≠ serial) :
    ∃ older geometry newer, l = older ++ (serial, geometry) :: newer ∧
      ∀ e ∈ older, e.1 ≠ serial := by
  induction l with
  | nil => simp at h
  | cons e l ih =>
    by_cases he : e.1 = serial
    · exact ⟨[], e.2, l, by rw [← he]; rfl, by simp⟩
    · have hl : ¬ ∀ e ∈ l, e.1 ≠ serial := fun hall => h fun e' he' => by
        rcases List.mem_cons.1 he' with rfl | hm
        · exact he
        · exact hall e' hm
      obtain ⟨older, geometry, newer, rfl, holder⟩ := ih hl
      exact ⟨e :: older, geometry, newer, rfl, by simpa [he] using holder⟩

end SurfaceState

/-! ## All surfaces -/

namespace Surfaces

variable {st : Surfaces γ}

/-- The event that a message brings to a surface. -/
def toSurface (id : ℕ) : SurfaceEvent γ → Option (ℕ × γ)
  | .configure surface serial geometry => if surface = id then some (serial, geometry) else none
  | .staleSerial _ => none

/-- The geometry that a call asks a surface for. -/
def Call.requested (id : ℕ) : Call γ → Option γ
  | .configureSurface surface geometry => if surface = id then some geometry else none
  | .ackConfigure _ _ => none
  | .destroy _ => none

/-- `configure_surface` is called. -/
def Call.isRequest : Call γ → Bool
  | .configureSurface _ _ => true
  | .ackConfigure _ _ => false
  | .destroy _ => false

/-- The surface that a call names. -/
def Call.surface : Call γ → ℕ
  | .configureSurface id _ => id
  | .ackConfigure id _ => id
  | .destroy id => id

/-- What a call does to the surface that it names. -/
structure Acts (st : Surfaces γ) (call : Call γ) (s : SurfaceState γ) (newer : List (ℕ × γ))
    (t : SurfaceState γ) (event : Option (ℕ × γ)) : Prop where
  moves : s.Moves st.nextConfigureSerial (if call.isRequest then 1 else 0) newer t event
  surfaces : (st.perform call).1.surfaces = st.surfaces.insert call.surface t
  serial : (st.perform call).1.nextConfigureSerial =
    if event.isSome then serialAfter st.nextConfigureSerial else st.nextConfigureSerial
  sent : ∀ id, (st.perform call).2.filterMap (toSurface id) =
    if call.surface = id then event.toList else []
  target : t.target = (call.requested call.surface).getD s.target
  acked : ∀ id serial, call = .ackConfigure id serial →
    (s.pendingConfigures.map Prod.fst).Nodup → ∀ e ∈ newer, e.1 ≠ serial

lemma configureSurface_eq {id : ℕ} {s : SurfaceState γ} (h : st.surfaces.get id = some s)
    (geometry : γ) :
    st.configureSurface id geometry =
      (⟨st.surfaces.insert id (s.request st.nextConfigureSerial geometry).1,
        if (s.request st.nextConfigureSerial geometry).2.isSome then
          serialAfter st.nextConfigureSerial else st.nextConfigureSerial⟩,
      (s.request st.nextConfigureSerial geometry).2.toList.map
        fun event => .configure id event.1 event.2) := by
  rw [configureSurface, h]
  dsimp only
  rcases s.request st.nextConfigureSerial geometry with ⟨t, _ | ⟨serial, geometry⟩⟩ <;> rfl

/-- The surfaces after an accepted acknowledgement, before a deferred request is taken up. -/
def acknowledged (st : Surfaces γ) (id : ℕ) (geometry : γ) (newer : List (ℕ × γ)) : Surfaces γ :=
  { st with surfaces := st.surfaces.insert id ⟨geometry, newer, none, true⟩ }

omit [DecidableEq γ] in
lemma get_acknowledged (st : Surfaces γ) (id : ℕ) (geometry : γ) (newer : List (ℕ × γ)) :
    (acknowledged st id geometry newer).surfaces.get id =
      some ⟨geometry, newer, none, true⟩ := by
  rw [acknowledged, BTreeMap.get_insert, if_pos rfl]

section Acknowledge

variable {id serial : ℕ} {s : SurfaceState γ} {older newer : List (ℕ × γ)} {geometry : γ}

lemma ackConfigure_none (hget : st.surfaces.get id = some s) (hb : s.Bounded)
    (hpending : s.pendingConfigures = older ++ (serial, geometry) :: newer)
    (holder : ∀ e ∈ older, e.1 ≠ serial) (hdeferred : s.deferredConfigure = none) :
    st.ackConfigure id serial = (acknowledged st id geometry newer, []) := by
  rw [ackConfigure, hget, Option.bind_some, SurfaceState.acknowledge_spec hb hpending holder,
    hdeferred]
  rfl

lemma ackConfigure_some {deferred : γ} (hget : st.surfaces.get id = some s) (hb : s.Bounded)
    (hpending : s.pendingConfigures = older ++ (serial, geometry) :: newer)
    (holder : ∀ e ∈ older, e.1 ≠ serial) (hdeferred : s.deferredConfigure = some deferred) :
    st.ackConfigure id serial =
      (acknowledged st id geometry newer).configureSurface id deferred := by
  rw [ackConfigure, hget, Option.bind_some, SurfaceState.acknowledge_spec hb hpending holder,
    hdeferred]
  rfl

end Acknowledge

omit [DecidableEq γ] in
lemma filterMap_toSurface (id other : ℕ) (event : Option (ℕ × γ)) :
    (event.toList.map fun e => SurfaceEvent.configure id e.1 e.2).filterMap (toSurface other) =
      if id = other then event.toList else [] := by
  cases event with
  | none => simp
  | some e => by_cases h : id = other <;> simp [toSurface, h]

/-- A call acts on a surface that exists. -/
lemma exists_acts {call : Call γ} {s : SurfaceState γ}
    (h : st.surfaces.get call.surface = some s) (hb : s.Bounded) :
    ∃ newer t event, Acts st call s newer t event := by
  cases call with
  | configureSurface id geometry =>
    have hget : st.surfaces.get id = some s := h
    have heq := configureSurface_eq hget geometry
    obtain ⟨hmoves, htarget, -⟩ :=
      SurfaceState.request_moves hb st.nextConfigureSerial geometry
    refine ⟨_, _, _, hmoves, ?_, ?_, fun other => ?_, ?_, fun _ _ hcall => by cases hcall⟩
    · rw [perform, heq]
      rfl
    · rw [perform, heq]
    · rw [perform, heq]
      exact filterMap_toSurface id other _
    · simpa [Call.requested, Call.surface] using htarget
  | ackConfigure id serial =>
    have hget : st.surfaces.get id = some s := h
    by_cases hstale : ∀ e ∈ s.pendingConfigures, e.1 ≠ serial
    · have hval : st.ackConfigure id serial = (st, [.staleSerial id]) := by
        rw [ackConfigure, hget, Option.bind_some, SurfaceState.acknowledge_eq_none hstale]
      refine ⟨s.pendingConfigures, s, none, ⟨List.suffix_rfl, by simp, by simp, hb, le_refl _⟩,
        ?_, ?_, fun other => ?_, rfl, fun _ _ hcall _ => ?_⟩
      · rw [perform, hval]
        exact (BTreeMap.insert_eq_self hget).symm
      · rw [perform, hval]
        rfl
      · rw [perform, hval]
        simp [toSurface]
      · cases hcall
        exact hstale
    · obtain ⟨older, geometry, newer, hpending, holder⟩ := SurfaceState.exists_split hstale
      have hroom := SurfaceState.acknowledged_bounded hb hpending
      have hsuffix : newer <:+ s.pendingConfigures :=
        ⟨older ++ [(serial, geometry)], by simp [hpending]⟩
      have hacked : ∀ i n, Call.ackConfigure (γ := γ) id serial = .ackConfigure i n →
          (s.pendingConfigures.map Prod.fst).Nodup → ∀ e ∈ newer, e.1 ≠ n := by
        intro i n hcall hnodup e he heq
        cases hcall
        rw [hpending, List.map_append, List.map_cons] at hnodup
        refine (List.nodup_cons.1 (List.nodup_append.1 hnodup).2.1).1 ?_
        exact List.mem_map.2 ⟨e, he, heq⟩
      cases hdeferred : s.deferredConfigure with
      | none =>
        have hval := ackConfigure_none hget hb hpending holder hdeferred
        refine ⟨newer, _, none, ⟨hsuffix, by simp, by simp, hroom, Nat.zero_le _⟩, ?_, ?_,
          fun other => ?_, SurfaceState.acknowledged_target hpending hdeferred, hacked⟩
        · rw [perform, hval]
          rfl
        · rw [perform, hval]
          rfl
        · rw [perform, hval]
          simp
      | some deferred =>
        -- the acknowledgement makes room for the deferred request
        have hval := ackConfigure_some hget hb hpending holder hdeferred
        have heq := configureSurface_eq (get_acknowledged st id geometry newer) deferred
        obtain ⟨hmoves, htarget, -⟩ :=
          SurfaceState.request_moves hroom st.nextConfigureSerial deferred
        refine ⟨newer, _, _, ⟨hsuffix, hmoves.pending, hmoves.event_serial, hmoves.bounded, ?_⟩,
          ?_, ?_, fun other => ?_, ?_, hacked⟩
        · have hwaiting := hmoves.waiting
          simpa [SurfaceState.waiting, hdeferred, Call.isRequest] using hwaiting
        · rw [perform, hval, heq]
          exact BTreeMap.insert_insert _ _ _ _
        · rw [perform, hval, heq]
          rfl
        · rw [perform, hval, heq]
          exact filterMap_toSurface id other _
        · rw [htarget]
          simp [Call.requested, SurfaceState.target, hdeferred]
  | destroy id =>
    have hmoves : s.Moves st.nextConfigureSerial 0 s.pendingConfigures
        { s with configured := false } none :=
      ⟨List.suffix_rfl, by simp, by simp, ⟨hb.length_le, hb.full⟩, le_refl _⟩
    have hval : st.destroy id =
        { st with surfaces := st.surfaces.insert id { s with configured := false } } := by
      have hget : st.surfaces.get id = some s := h
      rw [destroy, hget]
    refine ⟨_, _, _, hmoves, ?_, ?_, fun other => ?_, rfl, fun _ _ hcall => by cases hcall⟩
    · rw [perform, hval]
      rfl
    · rw [perform, hval]
      rfl
    · simp [perform]

/-- A call that names no surface changes nothing and sends no event. -/
lemma perform_of_unknown {call : Call γ} (h : st.surfaces.get call.surface = none) :
    (st.perform call).1 = st ∧ ∀ id, (st.perform call).2.filterMap (toSurface id) = [] := by
  cases call with
  | configureSurface id geometry =>
    have hget : st.surfaces.get id = none := h
    simp [perform, configureSurface, hget]
  | ackConfigure id serial =>
    have hget : st.surfaces.get id = none := h
    simp [perform, ackConfigure, hget, toSurface]
  | destroy id =>
    have hget : st.surfaces.get id = none := h
    simp [perform, destroy, hget]

/-! ## Runs -/

/-- How many calls of `configure_surface` a list has. -/
def requests (calls : List (Call γ)) : ℕ := calls.countP Call.isRequest

/-- The geometry that a surface was last asked for. -/
def lastRequest (id : ℕ) (calls : List (Call γ)) : Option γ :=
  (calls.filterMap (Call.requested id)).getLast?

/-- How many surfaces have a request waiting. -/
def waiting (st : Surfaces γ) : ℕ :=
  st.surfaces.entries.countP fun entry => entry.2.deferredConfigure.isSome

/-- Surfaces that have just been registered, whatever their geometry. -/
structure Fresh (st : Surfaces γ) : Prop where
  serial : st.nextConfigureSerial = 1
  surfaces : ∀ id s, st.surfaces.get id = some s →
    s.pendingConfigures = [] ∧ s.deferredConfigure = none

/-- The events that a list of calls brings to a surface. -/
def sentTo (st : Surfaces γ) (id : ℕ) (calls : List (Call γ)) : List (ℕ × γ) :=
  (st.sent calls).filterMap (toSurface id)

/-- What holds after a list of calls, in which `n` events have been sent. -/
structure Tracks (start : Surfaces γ) (calls : List (Call γ)) (n : ℕ) : Prop where
  issued : n + waiting (start.after calls) ≤ requests calls
  serial : (start.after calls).nextConfigureSerial = n + 1 ∨ 2 ^ 32 - 1 ≤ n
  sent_le : ∀ id, ∀ e ∈ sentTo start id calls, e.1 ≤ n
  bounded : ∀ id s, (start.after calls).surfaces.get id = some s → s.Bounded
  sorted : ∀ id s, (start.after calls).surfaces.get id = some s →
    (s.pendingConfigures.map Prod.fst).Pairwise (· < ·)
  pending_sent : ∀ id s, (start.after calls).surfaces.get id = some s →
    ∀ e ∈ s.pendingConfigures, e ∈ sentTo start id calls
  target : ∀ id s, (start.after calls).surfaces.get id = some s →
    ∀ geometry, lastRequest id calls = some geometry → s.target = geometry
  /-- No pending event has been acknowledged since it was sent. -/
  unacknowledged : ∀ id s, (start.after calls).surfaces.get id = some s →
    ∀ e ∈ s.pendingConfigures, ∀ front, front ++ [.ackConfigure id e.1] <+: calls →
      e ∉ sentTo start id front

section Runs

variable {start : Surfaces γ} {calls : List (Call γ)} {call : Call γ} {n : ℕ}

lemma after_concat (start : Surfaces γ) (calls : List (Call γ)) (call : Call γ) :
    start.after (calls ++ [call]) = ((start.after calls).perform call).1 :=
  run_append _ _ _

lemma sentTo_concat (start : Surfaces γ) (id : ℕ) (calls : List (Call γ)) (call : Call γ) :
    sentTo start id (calls ++ [call]) =
      sentTo start id calls ++ ((start.after calls).perform call).2.filterMap (toSurface id) := by
  rw [sentTo, sent, emitted_append, List.filterMap_append]
  simp [emitted, sentTo, sent, after]

lemma sentTo_subset (start : Surfaces γ) (id : ℕ) {front calls : List (Call γ)}
    (h : front <+: calls) : sentTo start id front ⊆ sentTo start id calls := by
  obtain ⟨rest, rfl⟩ := h
  rw [sentTo, sentTo, sent, sent, emitted_append, List.filterMap_append]
  exact List.subset_append_left _ _

omit [DecidableEq γ] in
lemma requests_concat (calls : List (Call γ)) (call : Call γ) :
    requests (calls ++ [call]) = requests calls + if call.isRequest then 1 else 0 := by
  rw [requests, List.countP_append, List.countP_singleton]
  rfl

omit [DecidableEq γ] in
lemma lastRequest_concat (id : ℕ) (calls : List (Call γ)) (call : Call γ) :
    lastRequest id (calls ++ [call]) = (call.requested id).or (lastRequest id calls) := by
  rw [lastRequest, List.filterMap_append, List.getLast?_append, lastRequest]
  cases h : call.requested id <;> simp [h]

omit [DecidableEq γ] in
lemma requested_eq_none {id : ℕ} (h : call.surface ≠ id) : call.requested id = none := by
  cases call with
  | configureSurface surface geometry => exact if_neg h
  | ackConfigure surface serial => rfl
  | destroy surface => rfl

omit [DecidableEq γ] in
/-- An acknowledgement inside a longer run is an earlier one or the last call. -/
lemma ack_prefix {front : List (Call γ)} {id serial : ℕ}
    (h : front ++ [.ackConfigure id serial] <+: calls ++ [call]) :
    front ++ [.ackConfigure id serial] <+: calls ∨
      front = calls ∧ call = .ackConfigure id serial := by
  rcases List.prefix_concat_iff.1 h with heq | hprefix
  · obtain ⟨hfront, hcall⟩ := List.append_inj' heq rfl
    exact .inr ⟨hfront, (List.singleton_inj.1 hcall).symm⟩
  · exact .inl hprefix

lemma tracks_nil (h : Fresh start) : Tracks start [] 0 where
  issued := by
    have hzero : waiting start = 0 := by
      refine List.countP_eq_zero.2 fun entry hentry => ?_
      have hget := BTreeMap.get_eq_some_iff.2 hentry
      simp [(h.surfaces _ _ hget).2]
    show 0 + waiting start ≤ 0
    omega
  serial := .inl h.serial
  sent_le := by simp [sentTo, sent, emitted]
  bounded := fun id s hget => by
    obtain ⟨hpending, hdeferred⟩ := h.surfaces id s hget
    exact ⟨by simp [hpending], by simp [hdeferred]⟩
  sorted := fun id s hget => by simp [(h.surfaces id s hget).1]
  pending_sent := fun id s hget => by simp [(h.surfaces id s hget).1]
  target := by simp [lastRequest]
  unacknowledged := fun id s hget => by simp [(h.surfaces id s hget).1]

/-- A call that names no surface keeps the invariant. -/
lemma Tracks.unknown (h : Tracks start calls n)
    (hnone : (start.after calls).surfaces.get call.surface = none) :
    Tracks start (calls ++ [call]) n := by
  obtain ⟨hstate, hsent⟩ := perform_of_unknown hnone
  have hafter : start.after (calls ++ [call]) = start.after calls :=
    (after_concat start calls call).trans hstate
  have hsentTo : ∀ id, sentTo start id (calls ++ [call]) = sentTo start id calls := fun id => by
    rw [sentTo_concat, hsent, List.append_nil]
  have hother : ∀ id s, (start.after calls).surfaces.get id = some s → call.surface ≠ id := by
    rintro id s hget rfl
    rw [hnone] at hget
    cases hget
  constructor
  case issued =>
    rw [hafter, requests_concat]
    exact h.issued.trans (Nat.le_add_right _ _)
  case serial => exact hafter ▸ h.serial
  case sent_le =>
    intro id
    rw [hsentTo]
    exact h.sent_le id
  all_goals rw [hafter]
  case bounded => exact h.bounded
  case sorted => exact h.sorted
  case pending_sent =>
    intro id
    rw [hsentTo]
    exact h.pending_sent id
  case target =>
    intro id s hget
    rw [lastRequest_concat, requested_eq_none (hother id s hget), Option.none_or]
    exact h.target id s hget
  case unacknowledged =>
    intro id s hget e he front hfront
    rcases ack_prefix hfront with hprefix | ⟨-, rfl⟩
    · exact h.unacknowledged id s hget e he front hprefix
    · exact absurd rfl (hother id s hget)

/-- A call on a surface keeps the invariant while serials have not run out. -/
lemma Tracks.acts (h : Tracks start calls n) {s t : SurfaceState γ} {newer : List (ℕ × γ)}
    {event : Option (ℕ × γ)}
    (hget : (start.after calls).surfaces.get call.surface = some s)
    (hacts : Acts (start.after calls) call s newer t event)
    (hlt : requests (calls ++ [call]) < 2 ^ 32) :
    Tracks start (calls ++ [call]) (n + event.toList.length) := by
  have hmoves := hacts.moves
  have hsurfaces : (start.after (calls ++ [call])).surfaces =
      (start.after calls).surfaces.insert call.surface t := by
    rw [after_concat, hacts.surfaces]
  have hsentTo : ∀ id, sentTo start id (calls ++ [call]) =
      sentTo start id calls ++ if call.surface = id then event.toList else [] := fun id => by
    rw [sentTo_concat, hacts.sent]
  have hissued : n + event.toList.length + waiting (start.after (calls ++ [call])) ≤
      requests (calls ++ [call]) := by
    have hcount := BTreeMap.countP_insert
      (fun entry => entry.2.deferredConfigure.isSome) hget t
    have hwaiting := hmoves.waiting
    have hissued := h.issued
    rw [requests_concat, waiting, hsurfaces]
    dsimp only at hcount
    simp only [SurfaceState.waiting] at hwaiting
    rw [waiting] at hissued
    omega
  -- an event that is sent has the serial after those of all earlier ones
  have hnew : ∀ e ∈ event, e.1 = n + 1 := by
    intro e he
    rw [hmoves.event_serial e he]
    rcases h.serial with hserial | hout
    · exact hserial
    · rw [Option.mem_def.1 he] at hissued
      simp only [Option.toList_some, List.length_singleton] at hissued
      omega
  have hcases : ∀ id u, (start.after (calls ++ [call])).surfaces.get id = some u →
      (id = call.surface ∧ u = t) ∨
        (call.surface ≠ id ∧ (start.after calls).surfaces.get id = some u) := by
    intro id u hu
    rw [hsurfaces, BTreeMap.get_insert] at hu
    split_ifs at hu with hid
    · exact .inl ⟨hid, (Option.some.inj hu).symm⟩
    · exact .inr ⟨Ne.symm hid, hu⟩
  have hpending : ∀ e ∈ t.pendingConfigures, e ∈ newer ∨ e ∈ event := by
    intro e he
    rw [hmoves.pending] at he
    rcases List.mem_append.1 he with hm | hm
    · exact .inl hm
    · exact .inr (Option.mem_toList.1 hm)
  have hle : ∀ e ∈ newer, e.1 ≤ n := fun e he =>
    h.sent_le _ e (h.pending_sent _ s hget e (hmoves.suffix.subset he))
  constructor
  case issued => exact hissued
  case serial =>
    rw [after_concat, hacts.serial]
    cases event with
    | none => exact h.serial
    | some e =>
      simp only [Option.isSome_some, if_true, Option.toList_some, List.length_singleton]
        at hissued ⊢
      rcases h.serial with hserial | hout
      · rw [hserial, serialAfter]
        by_cases hlast : n + 1 + 1 < 2 ^ 32
        · left
          rw [Nat.mod_eq_of_lt hlast]
          omega
        · right
          omega
      · right
        omega
  case sent_le =>
    intro id e he
    rw [hsentTo] at he
    rcases List.mem_append.1 he with hm | hm
    · exact (h.sent_le id e hm).trans (Nat.le_add_right _ _)
    · split_ifs at hm
      · rw [hnew e (Option.mem_toList.1 hm), Option.mem_toList.1 hm]
        rfl
      · simp at hm
  case bounded =>
    intro id u hu
    rcases hcases id u hu with ⟨-, rfl⟩ | ⟨-, hold⟩
    · exact hmoves.bounded
    · exact h.bounded id u hold
  case sorted =>
    intro id u hu
    rcases hcases id u hu with ⟨-, rfl⟩ | ⟨-, hold⟩
    · rw [hmoves.pending, List.map_append, List.pairwise_append]
      refine ⟨(h.sorted _ s hget).sublist (hmoves.suffix.sublist.map _), ?_, ?_⟩
      · cases event <;> simp
      · intro a ha b hb
        obtain ⟨e, he, rfl⟩ := List.mem_map.1 ha
        obtain ⟨e', he', rfl⟩ := List.mem_map.1 hb
        have hold := hle e he
        have hserial := hnew e' (Option.mem_toList.1 he')
        omega
    · exact h.sorted id u hold
  case pending_sent =>
    intro id u hu e he
    rw [hsentTo, List.mem_append]
    rcases hcases id u hu with ⟨rfl, rfl⟩ | ⟨-, hold⟩
    · rcases hpending e he with hm | hm
      · exact .inl (h.pending_sent _ s hget e (hmoves.suffix.subset hm))
      · exact .inr (by simpa using hm)
    · exact .inl (h.pending_sent id u hold e he)
  case target =>
    intro id u hu geometry hlast
    rw [lastRequest_concat] at hlast
    rcases hcases id u hu with ⟨rfl, rfl⟩ | ⟨hid, hold⟩
    · rw [hacts.target]
      cases hrequested : call.requested call.surface with
      | none =>
        rw [hrequested, Option.none_or] at hlast
        exact h.target _ s hget geometry hlast
      | some requested =>
        rw [hrequested, Option.some_or] at hlast
        exact Option.some.inj hlast
    · rw [requested_eq_none hid, Option.none_or] at hlast
      exact h.target id u hold geometry hlast
  case unacknowledged =>
    intro id u hu e he front hfront
    rcases hcases id u hu with ⟨rfl, rfl⟩ | ⟨hid, hold⟩
    · rcases hpending e he with hm | hm
      · rcases ack_prefix hfront with hprefix | ⟨-, hcall⟩
        · exact h.unacknowledged _ s hget e (hmoves.suffix.subset hm) front hprefix
        · -- the acknowledgement has discarded the event
          have hnodup : (s.pendingConfigures.map Prod.fst).Nodup :=
            (h.sorted _ s hget).imp fun hlt => hlt.ne
          exact absurd rfl (hacts.acked _ _ hcall hnodup e hm)
      · -- the event has only just been sent
        intro hsent
        have hfront' : front <+: calls := by
          rcases ack_prefix hfront with hprefix | ⟨rfl, -⟩
          · exact (List.prefix_append _ _).trans hprefix
          · exact List.prefix_rfl
        have hold := h.sent_le _ e (sentTo_subset start _ hfront' hsent)
        have hserial := hnew e hm
        omega
    · rcases ack_prefix hfront with hprefix | ⟨-, hcall⟩
      · exact h.unacknowledged id u hold e he front hprefix
      · exact absurd (by rw [hcall]; rfl) hid

/-- The invariant holds after fewer than `2 ^ 32` requests. -/
theorem exists_tracks (hfresh : Fresh start) (hlt : requests calls < 2 ^ 32) :
    ∃ n, Tracks start calls n := by
  induction calls using List.reverseRecOn with
  | nil => exact ⟨0, tracks_nil hfresh⟩
  | append_singleton calls call ih =>
    have hle : requests calls ≤ requests (calls ++ [call]) := by
      rw [requests_concat]
      exact Nat.le_add_right _ _
    obtain ⟨n, h⟩ := ih (hle.trans_lt hlt)
    cases hget : (start.after calls).surfaces.get call.surface with
    | none => exact ⟨n, h.unknown hget⟩
    | some s =>
      obtain ⟨newer, t, event, hacts⟩ := exists_acts hget (h.bounded _ s hget)
      exact ⟨_, h.acts hget hacts hlt⟩

end Runs

/-- After fewer than `2 ^ 32` requests on freshly registered surfaces: no surface has more
than 64 events on their way; an acknowledgement of a pending serial discards its event and
the older ones, makes its geometry the acknowledged one and sends at most one further event;
any other acknowledgement is rejected and changes nothing; and once the client has
acknowledged every event it was sent, the acknowledged geometry is the one last asked for. -/
theorem configure_converges {start : Surfaces γ} (hfresh : Fresh start) {calls : List (Call γ)}
    (hlt : requests calls < 2 ^ 32) {id : ℕ} {s : SurfaceState γ}
    (hget : (start.after calls).surfaces.get id = some s) :
    s.pendingConfigures.length ≤ 64 ∧
    (∀ older serial geometry newer, s.pendingConfigures = older ++ (serial, geometry) :: newer →
      ∃ t sent, (start.after (calls ++ [.ackConfigure id serial])).surfaces.get id = some t ∧
        t.pendingConfigures = newer ++ sent ∧ t.geometry = geometry ∧ t.configured = true ∧
        sent.length ≤ 1 ∧ ((start.after calls).perform (.ackConfigure id serial)).2 =
          sent.map fun event => .configure id event.1 event.2) ∧
    (∀ serial, (∀ e ∈ s.pendingConfigures, e.1 ≠ serial) →
      (start.after calls).perform (.ackConfigure id serial) =
        (start.after calls, [.staleSerial id])) ∧
    ((∀ e ∈ sentTo start id calls, ∃ front, front ++ [.ackConfigure id e.1] <+: calls ∧
        e ∈ sentTo start id front) →
      ∀ geometry, lastRequest id calls = some geometry →
        s.geometry = geometry ∧ s.deferredConfigure = none ∧ s.pendingConfigures = []) := by
  obtain ⟨n, h⟩ := exists_tracks hfresh hlt
  have hb := h.bounded id s hget
  refine ⟨hb.length_le, ?_, ?_, ?_⟩
  · intro older serial geometry newer hpending
    have holder : ∀ e ∈ older, e.1 ≠ serial := by
      intro e he
      have hsorted := h.sorted id s hget
      rw [hpending, List.map_append, List.map_cons, List.pairwise_append] at hsorted
      exact (hsorted.2.2 e.1 (List.mem_map_of_mem he) serial List.mem_cons_self).ne
    have hroom := SurfaceState.acknowledged_bounded hb hpending
    rw [after_concat, perform]
    cases hdeferred : s.deferredConfigure with
    | none =>
      rw [ackConfigure_none hget hb hpending holder hdeferred]
      exact ⟨_, [], get_acknowledged _ id geometry newer, (List.append_nil _).symm, rfl, rfl,
        Nat.zero_le _, rfl⟩
    | some deferred =>
      obtain ⟨hmoves, -, hgeometry, hconfigured⟩ := SurfaceState.request_moves hroom
        (start.after calls).nextConfigureSerial deferred
      rw [ackConfigure_some hget hb hpending holder hdeferred,
        configureSurface_eq (get_acknowledged _ id geometry newer)]
      have hgetRequested : ∀ t, ((acknowledged (start.after calls) id geometry
          newer).surfaces.insert id t).get id = some t := fun t => by
        rw [BTreeMap.get_insert, if_pos rfl]
      exact ⟨_, _, hgetRequested _, hmoves.pending, hgeometry, hconfigured,
        Option.length_toList_le, rfl⟩
  · intro serial hstale
    simp only [perform, ackConfigure, hget, Option.bind_some,
      SurfaceState.acknowledge_eq_none hstale]
  · intro hacked geometry hlast
    have hnil : s.pendingConfigures = [] := by
      refine List.eq_nil_iff_forall_not_mem.2 fun e he => ?_
      obtain ⟨front, hfront, hsent⟩ := hacked e (h.pending_sent id s hget e he)
      exact h.unacknowledged id s hget e he front hfront hsent
    have hnone : s.deferredConfigure = none := by
      rw [← Option.not_isSome_iff_eq_none]
      intro hsome
      have hfull := hb.full hsome
      rw [hnil] at hfull
      simp [maxPendingConfigures] at hfull
    have htarget := h.target id s hget geometry hlast
    rw [SurfaceState.target, hnone, hnil] at htarget
    exact ⟨htarget, hnone, hnil⟩

/-- One registered surface. -/
def oneSurface : Surfaces ℕ where
  surfaces := BTreeMap.empty.insert 1 ⟨0, [], none, false⟩
  nextConfigureSerial := 1

/-- Two requests and the acknowledgements of both. -/
def twoRequests : List (Call ℕ) :=
  [.configureSurface 1 10, .configureSurface 1 20, .ackConfigure 1 1, .ackConfigure 1 2]

theorem configure_converges_twoRequests :
    ∃ s, (oneSurface.after twoRequests).surfaces.get 1 = some s ∧
      s.geometry = 20 ∧ s.deferredConfigure = none ∧ s.pendingConfigures = [] := by
  have hfresh : Fresh oneSurface := by
    refine ⟨rfl, fun id s hget => ?_⟩
    rw [oneSurface, BTreeMap.get_insert] at hget
    split_ifs at hget
    · cases hget
      exact ⟨rfl, rfl⟩
    · cases hget
  have hget : (oneSurface.after twoRequests).surfaces.get 1 = some ⟨20, [], none, true⟩ := by
    decide
  obtain ⟨-, -, -, hconverges⟩ := configure_converges hfresh (by decide) hget
  refine ⟨_, hget, hconverges (fun e he => ?_) 20 (by decide)⟩
  have hsent : sentTo oneSurface 1 twoRequests = [(1, 10), (2, 20)] := by decide
  rw [hsent] at he
  rcases List.mem_cons.1 he with rfl | he
  · exact ⟨twoRequests.take 2, by decide, by decide⟩
  · rw [List.mem_singleton.1 he]
    exact ⟨twoRequests.take 3, by decide, by decide⟩

end Surfaces

end TouchBar.Session
