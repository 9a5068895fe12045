import Mathlib
import TouchBar.Hardware.Events
import TouchBar.Rust.BTree

/-!
# The system bar

`SystemBar` turns touches into presses and releases of system keys.  Several
fingers may hold one key, so each key has a count of the fingers that press it,
and only the first and the last of them are reported.  The invariant is that the
counts are what the contacts say (`Consistent`): every operation changes both
together, and reports a key exactly when its count leaves or reaches zero.
Which button lies under a finger is a parameter.
-/

namespace TouchBar.Hardware

open Lib Rust

/-- `SystemLayer`. -/
inductive SystemLayer where
  | media
  | function
  deriving DecidableEq, Repr

/-- `alternate`. -/
def alternate : SystemLayer → SystemLayer
  | .media => .function
  | .function => .media

/-- `KeyTransition`. -/
structure KeyTransition where
  key : SystemKey
  phase : KeyPhase
  deriving DecidableEq, Repr

/-- The part a transition plays in the life of its key. -/
def KeyTransition.role (transition : KeyTransition) : Role := transition.phase.role

/-- Hit testing: the first button of a layer whose hit bounds contain a position, and
whether given bounds contain a position. -/
structure HitTest (β : Type*) where
  button : SystemLayer → ℤ → ℤ → Option (SystemKey × β)
  contains : β → ℤ → ℤ → Bool

/-- `ContactState`. -/
structure ContactState (β : Type*) where
  key : SystemKey
  hitBounds : β
  active : Bool
  deriving DecidableEq

/-- `SystemBar`. -/
structure SystemBar (β : Type*) where
  /-- `config.default_layer`. -/
  defaultLayer : SystemLayer
  activeLayer : SystemLayer
  fnPressed : Bool
  contacts : BTreeMap ℕ (ContactState β)
  pressed : BTreeMap SystemKey ℕ

namespace SystemBar

variable {β : Type*} (hits : HitTest β)

/-- `SystemBar::new`. -/
def new (defaultLayer : SystemLayer) : SystemBar β where
  defaultLayer := defaultLayer
  activeLayer := defaultLayer
  fnPressed := false
  contacts := .empty
  pressed := .empty

/-- `activate`, on the counts. -/
def activate (pressed : BTreeMap SystemKey ℕ) (key : SystemKey) :
    BTreeMap SystemKey ℕ × List KeyTransition :=
  let count := (pressed.get key).getD 0 + 1
  (pressed.insert key count, if count = 1 then [⟨key, .pressed⟩] else [])

/-- `deactivate`, on the counts. -/
def deactivate (pressed : BTreeMap SystemKey ℕ) (key : SystemKey) :
    BTreeMap SystemKey ℕ × List KeyTransition :=
  match pressed.get key with
  | none => (pressed, [])
  | some n =>
    let count := n - 1
    if count = 0 then (pressed.remove key, [⟨key, .released⟩]) else (pressed.insert key count, [])

/-- `cancel_all`. -/
def cancelAll (bar : SystemBar β) : SystemBar β × List KeyTransition :=
  ({ bar with contacts := .empty, pressed := .empty },
    bar.pressed.keys.map fun key => ⟨key, .released⟩)

/-- `set_fn_override`. -/
def setFnOverride (bar : SystemBar β) (layer : Option SystemLayer) :
    SystemBar β × List KeyTransition :=
  let pressed := layer.isSome
  let next := layer.getD bar.defaultLayer
  if bar.fnPressed = pressed ∧ bar.activeLayer = next then (bar, [])
  else
    let (bar, releases) := bar.cancelAll
    ({ bar with fnPressed := pressed, activeLayer := next }, releases)

/-- `set_fn_pressed`. -/
def setFnPressed (bar : SystemBar β) (pressed : Bool) : SystemBar β × List KeyTransition :=
  bar.setFnOverride (if pressed then some (alternate bar.defaultLayer) else none)

/-- `handle_touch`. -/
def handleTouch (bar : SystemBar β) (event : TouchEvent) : SystemBar β × List KeyTransition :=
  let id := event.contactId
  let x := event.xMillipixels
  let y := event.yMillipixels
  match event.phase with
  | .down =>
    if bar.contacts.containsKey id then (bar, [])
    else match hits.button bar.activeLayer x y with
      | none => (bar, [])
      | some (key, hitBounds) =>
        let (pressed, transitions) := activate bar.pressed key
        let contacts := bar.contacts.insert id ⟨key, hitBounds, true⟩
        ({ bar with contacts, pressed }, transitions)
  | .motion =>
    match bar.contacts.get id with
    | none => (bar, [])
    | some state =>
      let inside := hits.contains state.hitBounds x y
      if inside = state.active then (bar, [])
      else
        let contacts := bar.contacts.insert id { state with active := inside }
        let (pressed, transitions) :=
          if inside then activate bar.pressed state.key else deactivate bar.pressed state.key
        ({ bar with contacts, pressed }, transitions)
  | .up | .cancel =>
    match bar.contacts.get id with
    | none => (bar, [])
    | some state =>
      let contacts := bar.contacts.remove id
      let (pressed, transitions) :=
        if state.active then deactivate bar.pressed state.key else (bar.pressed, [])
      ({ bar with contacts, pressed }, transitions)

/-! ## Counts -/

/-- How many active contacts hold a key. -/
def holders (contacts : BTreeMap ℕ (ContactState β)) (key : SystemKey) : ℕ :=
  contacts.entries.countP fun entry => entry.2.active && decide (entry.2.key = key)

/-- What a contact adds to the count of a key. -/
def ContactState.weight (state : ContactState β) (key : SystemKey) : ℕ :=
  if state.active = true ∧ state.key = key then 1 else 0

lemma holders_remove {contacts : BTreeMap ℕ (ContactState β)} {id : ℕ} {state : ContactState β}
    (h : contacts.get id = some state) (key : SystemKey) :
    holders contacts key = holders (contacts.remove id) key + ContactState.weight state key := by
  rw [holders, (BTreeMap.perm_remove h).countP_eq, List.countP_cons, holders, ContactState.weight]
  simp

lemma holders_insert {contacts : BTreeMap ℕ (ContactState β)} {id : ℕ}
    (h : contacts.get id = none) (state : ContactState β) (key : SystemKey) :
    holders (contacts.insert id state) key =
      holders contacts key + ContactState.weight state key := by
  rw [holders, (BTreeMap.perm_insert h).countP_eq, List.countP_cons, holders, ContactState.weight]
  simp

/-- Replacing a contact exchanges what it adds. -/
lemma holders_replace {contacts : BTreeMap ℕ (ContactState β)} {id : ℕ}
    {state : ContactState β} (h : contacts.get id = some state) (other : ContactState β)
    (key : SystemKey) :
    holders (contacts.insert id other) key + ContactState.weight state key =
      holders contacts key + ContactState.weight other key := by
  have hcount := BTreeMap.countP_insert
    (fun entry => entry.2.active && decide (entry.2.key = key)) h other
  simpa [holders, ContactState.weight] using hcount

/-- The map holds the positive values of a function. -/
def Counts (pressed : BTreeMap SystemKey ℕ) (count : SystemKey → ℕ) : Prop :=
  ∀ key, pressed.get key = if count key = 0 then none else some (count key)

/-- The reports about one key lead from its old count to its new one. -/
def Reports (key : SystemKey) (old new : ℕ) (transitions : List KeyTransition) : Prop :=
  follow KeyTransition.role (decide (0 < old)) (transitions.filter fun t => t.key = key) =
    some (decide (0 < new))

lemma Reports.nil (key : SystemKey) (n : ℕ) : Reports key n n [] := rfl

/-- A finger comes onto a key: the count grows, and the first one is reported. -/
lemma activate_counts {pressed : BTreeMap SystemKey ℕ} {count other : SystemKey → ℕ}
    {key : SystemKey} (h : Counts pressed count)
    (hother : ∀ k, other k = count k + if key = k then 1 else 0) :
    Counts (activate pressed key).1 other ∧
      ∀ k, Reports k (count k) (other k) (activate pressed key).2 := by
  have hcount : (pressed.get key).getD 0 = count key := by
    rw [h key]
    split_ifs with hzero
    · exact hzero.symm
    · rfl
  constructor
  · intro k
    simp only [activate, BTreeMap.get_insert, hcount, h k, hother k, eq_comm (a := k)]
    split_ifs with hk <;> simp_all
  · intro k
    simp only [activate, hcount, Reports, hother k]
    by_cases hk : key = k
    · subst hk
      by_cases hzero : count key = 0
      · simp [hzero, follow, KeyTransition.role, KeyPhase.role, Role.next]
      · have hpos : 0 < count key := by omega
        simp [hzero, hpos]
    · rw [if_neg hk, Nat.add_zero]
      split_ifs <;> simp [hk]

/-- A finger leaves a key: the count falls, and the last one is reported. -/
lemma deactivate_counts {pressed : BTreeMap SystemKey ℕ} {count other : SystemKey → ℕ}
    {key : SystemKey} (h : Counts pressed count)
    (hother : ∀ k, count k = other k + if key = k then 1 else 0) :
    Counts (deactivate pressed key).1 other ∧
      ∀ k, Reports k (count k) (other k) (deactivate pressed key).2 := by
  have hkey : count key = other key + 1 := by
    rw [hother key, if_pos rfl]
  have hget : pressed.get key = some (other key + 1) := by
    rw [h key, hkey, if_neg (by omega)]
  have hne : ∀ k, k ≠ key → count k = other k := fun k hk => by
    rw [hother k, if_neg (Ne.symm hk), Nat.add_zero]
  by_cases hzero : other key = 0
  · have hval : deactivate pressed key = (pressed.remove key, [⟨key, .released⟩]) := by
      simp [deactivate, hget, hzero]
    rw [hval]
    constructor
    · intro k
      rw [BTreeMap.get_remove]
      split_ifs with hk hk' hk'
      · rfl
      · exact absurd (hk ▸ hzero) hk'
      · rw [h k, hne k hk, if_pos hk']
      · rw [h k, hne k hk, if_neg hk']
    · intro k
      by_cases hk : k = key
      · subst hk
        simp [Reports, hkey, hzero, follow, KeyTransition.role, KeyPhase.role, Role.next]
      · simp [Reports, hne k hk, Ne.symm hk]
  · have hval : deactivate pressed key = (pressed.insert key (other key), []) := by
      simp [deactivate, hget, hzero]
    rw [hval]
    constructor
    · intro k
      rw [BTreeMap.get_insert]
      split_ifs with hk hk' hk'
      · exact absurd (hk ▸ hk') hzero
      · rw [hk]
      · rw [h k, hne k hk, if_pos hk']
      · rw [h k, hne k hk, if_neg hk']
    · intro k
      by_cases hk : k = key
      · subst hk
        have hpos : 0 < other k := by omega
        simp [Reports, hkey, hpos]
      · simp [Reports, hne k hk]

/-- Releasing every pressed key reports each of them once. -/
lemma reports_releases {pressed : BTreeMap SystemKey ℕ} {count : SystemKey → ℕ}
    (h : Counts pressed count) (key : SystemKey) :
    Reports key (count key) 0 (pressed.keys.map fun key => ⟨key, .released⟩) := by
  have hfilter : ((pressed.keys.map fun key => (⟨key, .released⟩ : KeyTransition)).filter
      fun t => t.key = key) = if 0 < count key then [⟨key, .released⟩] else [] := by
    rw [List.filter_map]
    have hkeys : pressed.keys.filter (fun k => decide (k = key)) =
        if 0 < count key then [key] else [] := by
      split_ifs with hpos
      · have hmem : key ∈ pressed.keys := by
          rw [BTreeMap.mem_keys_iff]
          exact ⟨count key, by rw [h key, if_neg (by omega)]⟩
        rw [List.filter_eq, List.count_eq_one_of_mem pressed.keys_nodup hmem]
        rfl
      · refine List.filter_eq_nil_iff.2 fun k hk heq => hpos ?_
        obtain ⟨n, hn⟩ := BTreeMap.mem_keys_iff.1 hk
        rw [of_decide_eq_true heq, h key] at hn
        split_ifs at hn with hzero
        omega
    show (List.filter (fun k => decide (k = key)) pressed.keys).map _ = _
    rw [hkeys]
    split_ifs <;> rfl
  rw [Reports, hfilter]
  split_ifs with hpos
  · simp [hpos, follow, KeyTransition.role, KeyPhase.role, Role.next]
  · simp [hpos]

/-! ## Calls -/

/-- The counts are what the contacts say. -/
def Consistent (bar : SystemBar β) : Prop := Counts bar.pressed (holders bar.contacts)

/-- A call of the bar. -/
inductive Call where
  | handleTouch (event : TouchEvent)
  | setFnPressed (pressed : Bool)
  | setFnOverride (layer : Option SystemLayer)
  | cancelAll
  deriving DecidableEq, Repr

/-- What a call does to the bar, and the transitions it returns. -/
def perform (bar : SystemBar β) : Call → SystemBar β × List KeyTransition
  | .handleTouch event => bar.handleTouch hits event
  | .setFnPressed pressed => bar.setFnPressed pressed
  | .setFnOverride layer => bar.setFnOverride layer
  | .cancelAll => bar.cancelAll

/-- An operation keeps the counts right and reports what it changes. -/
def Keeps (bar : SystemBar β) (result : SystemBar β × List KeyTransition) : Prop :=
  Consistent result.1 ∧
    ∀ key, Reports key (holders bar.contacts key) (holders result.1.contacts key) result.2

lemma Keeps.refl {bar : SystemBar β} (h : Consistent bar) : Keeps bar (bar, []) :=
  ⟨h, fun key => Reports.nil key _⟩

lemma keeps_cancelAll {bar : SystemBar β} (h : Consistent bar) : Keeps bar bar.cancelAll := by
  refine ⟨fun key => ?_, fun key => reports_releases h key⟩
  rw [cancelAll, BTreeMap.get_empty]
  rfl

lemma keeps_setFnOverride {bar : SystemBar β} (h : Consistent bar) (layer : Option SystemLayer) :
    Keeps bar (bar.setFnOverride layer) := by
  rw [setFnOverride]
  split_ifs
  · exact Keeps.refl h
  · exact keeps_cancelAll h

lemma keeps_down {bar : SystemBar β} (h : Consistent bar) {event : TouchEvent}
    (hphase : event.phase = .down) : Keeps bar (bar.handleTouch hits event) := by
  simp only [handleTouch, hphase]
  split_ifs with hknown
  · exact Keeps.refl h
  · cases hits.button bar.activeLayer event.xMillipixels event.yMillipixels with
    | none => exact Keeps.refl h
    | some hit =>
      have hnone : bar.contacts.get event.contactId = none :=
        BTreeMap.containsKey_eq_false_iff.1 (by simpa using hknown)
      refine activate_counts h fun k => ?_
      rw [holders_insert hnone, ContactState.weight]
      simp

lemma keeps_motion {bar : SystemBar β} (h : Consistent bar) {event : TouchEvent}
    (hphase : event.phase = .motion) : Keeps bar (bar.handleTouch hits event) := by
  simp only [handleTouch, hphase]
  cases hstate : bar.contacts.get event.contactId with
  | none => exact Keeps.refl h
  | some state =>
    dsimp only
    generalize hits.contains state.hitBounds event.xMillipixels event.yMillipixels = inside
    have hreplace := holders_replace hstate { state with active := inside }
    simp only [ContactState.weight] at hreplace
    by_cases hsame : inside = state.active
    · rw [if_pos hsame]
      exact Keeps.refl h
    · rw [if_neg hsame]
      cases inside with
      | true =>
        -- the finger slides back onto its key
        have hactive : state.active = false := by simpa using Ne.symm hsame
        refine activate_counts h fun k => ?_
        simpa [hactive] using hreplace k
      | false =>
        -- the finger slides off its key
        have hactive : state.active = true := by simpa using Ne.symm hsame
        refine deactivate_counts h fun k => ?_
        simpa [hactive] using (hreplace k).symm

lemma keeps_end {bar : SystemBar β} (h : Consistent bar) {event : TouchEvent}
    (hphase : event.phase = .up ∨ event.phase = .cancel) :
    Keeps bar (bar.handleTouch hits event) := by
  cases hstate : bar.contacts.get event.contactId with
  | none =>
    have hval : bar.handleTouch hits event = (bar, []) := by
      rcases hphase with hphase | hphase <;> simp [handleTouch, hphase, hstate]
    rw [hval]
    exact Keeps.refl h
  | some state =>
    have hremove := holders_remove hstate
    simp only [ContactState.weight] at hremove
    cases hactive : state.active with
    | true =>
      have hval : bar.handleTouch hits event =
          ({ bar with
              contacts := bar.contacts.remove event.contactId
              pressed := (deactivate bar.pressed state.key).1 },
            (deactivate bar.pressed state.key).2) := by
        rcases hphase with hphase | hphase <;> simp [handleTouch, hphase, hstate, hactive]
      rw [hval]
      refine deactivate_counts h fun k => ?_
      simpa [hactive] using hremove k
    | false =>
      -- the finger had slid off its key
      have hval : bar.handleTouch hits event =
          ({ bar with contacts := bar.contacts.remove event.contactId }, []) := by
        rcases hphase with hphase | hphase <;> simp [handleTouch, hphase, hstate, hactive]
      have hsame : holders (bar.contacts.remove event.contactId) = holders bar.contacts := by
        funext k
        simpa [hactive] using (hremove k).symm
      rw [hval]
      refine ⟨?_, fun key => ?_⟩
      · show Counts bar.pressed (holders (bar.contacts.remove event.contactId))
        rw [hsame]
        exact h
      · rw [hsame]
        exact Reports.nil key _

/-- Every call keeps the counts right and reports what it changes. -/
lemma keeps_perform {bar : SystemBar β} (h : Consistent bar) (call : Call) :
    Keeps bar (bar.perform hits call) := by
  cases call with
  | handleTouch event =>
    rw [perform]
    cases hphase : event.phase with
    | down => exact keeps_down hits h hphase
    | motion => exact keeps_motion hits h hphase
    | up => exact keeps_end hits h (.inl hphase)
    | cancel => exact keeps_end hits h (.inr hphase)
  | setFnPressed pressed => exact keeps_setFnOverride h _
  | setFnOverride layer => exact keeps_setFnOverride h layer
  | cancelAll => exact keeps_cancelAll h

/-! ## Runs -/

/-- The bar after a list of calls. -/
def after (bar : SystemBar β) (calls : List Call) : SystemBar β :=
  run (fun bar call => (bar.perform hits call).1) bar calls

/-- The phases of a key in the transitions that a list of calls returned. -/
def phases (bar : SystemBar β) (calls : List Call) (key : SystemKey) : List KeyPhase :=
  ((emitted (fun bar call => (bar.perform hits call).1)
    (fun bar call => (bar.perform hits call).2) bar calls).filter fun t => t.key = key).map
      KeyTransition.phase

lemma consistent_new (layer : SystemLayer) : Consistent (new layer : SystemBar β) :=
  fun _ => rfl

lemma consistent_after {bar : SystemBar β} (h : Consistent bar) (calls : List Call) :
    Consistent (bar.after hits calls) :=
  run_invariant (P := Consistent) (fun _ call h => (keeps_perform hits h call).1) h calls

/-- The phases of a key are episodes, and one is open while a contact holds the key. -/
lemma follow_phases (layer : SystemLayer) (calls : List Call) (key : SystemKey) :
    follow KeyPhase.role false (phases hits (new layer) calls key) =
      some (decide (0 < holders ((new layer).after hits calls).contacts key)) := by
  rw [phases, follow_map]
  refine follow_emitted (fun bar : SystemBar β => decide (0 < holders bar.contacts key))
    (P := Consistent) (C := fun _ _ => True) (fun bar call h _ => ?_)
    (consistent_new layer) (meets_of_forall fun _ _ => trivial)
  exact ⟨(keeps_perform hits h call).1, (keeps_perform hits h call).2 key⟩

lemma activate_phase {pressed : BTreeMap SystemKey ℕ} {key : SystemKey} :
    ∀ t ∈ (activate pressed key).2, t.phase ≠ .repeats := by
  intro t ht
  rw [activate] at ht
  split_ifs at ht
  · rw [List.mem_singleton.1 ht]
    simp
  · simp at ht

lemma deactivate_phase {pressed : BTreeMap SystemKey ℕ} {key : SystemKey} :
    ∀ t ∈ (deactivate pressed key).2, t.phase ≠ .repeats := by
  intro t ht
  rw [deactivate] at ht
  cases hget : pressed.get key with
  | none => simp [hget] at ht
  | some n =>
    simp only [hget] at ht
    split_ifs at ht
    · rw [List.mem_singleton.1 ht]
      simp
    · simp at ht

lemma cancelAll_phase {bar : SystemBar β} : ∀ t ∈ bar.cancelAll.2, t.phase ≠ .repeats := by
  intro t ht
  obtain ⟨key, -, rfl⟩ := List.mem_map.1 ht
  simp

lemma setFnOverride_phase {bar : SystemBar β} {layer : Option SystemLayer} :
    ∀ t ∈ (bar.setFnOverride layer).2, t.phase ≠ .repeats := by
  rw [setFnOverride]
  split_ifs
  · simp
  · exact cancelAll_phase

/-- No call repeats a key. -/
lemma perform_phase (bar : SystemBar β) (call : Call) :
    ∀ t ∈ (bar.perform hits call).2, t.phase ≠ .repeats := by
  cases call with
  | handleTouch event =>
    rw [perform, handleTouch]
    cases event.phase <;> dsimp only
    · split_ifs
      · simp
      · cases hits.button bar.activeLayer event.xMillipixels event.yMillipixels with
        | none => simp
        | some hit => exact activate_phase
    · cases bar.contacts.get event.contactId with
      | none => simp
      | some state =>
        dsimp only
        split_ifs
        · simp
        · exact activate_phase
        · exact deactivate_phase
    all_goals
      cases bar.contacts.get event.contactId with
      | none => simp
      | some state =>
        dsimp only
        split_ifs
        · exact deactivate_phase
        · simp
  | setFnPressed pressed => exact setFnOverride_phase
  | setFnOverride layer => exact setFnOverride_phase
  | cancelAll => exact cancelAll_phase

lemma phases_ne_repeats (bar : SystemBar β) (calls : List Call) (key : SystemKey) :
    ∀ phase ∈ phases hits bar calls key, phase ≠ .repeats := by
  intro phase hphase
  obtain ⟨t, ht, rfl⟩ := List.mem_map.1 hphase
  exact forall_emitted (perform_phase hits) bar calls t (List.mem_filter.1 ht).1

/-- Presses and releases that take turns, a press first. -/
structure Alternate (phases : List KeyPhase) : Prop where
  no_repeat : ∀ phase ∈ phases, phase = .pressed ∨ phase = .released
  turns : phases.IsChain fun phase next => phase ≠ next
  first : ∀ phase, phases.head? = some phase → phase = .pressed

lemma alternate_of_follow {phases : List KeyPhase} {b : Bool}
    (h : follow KeyPhase.role false phases = some b) (hr : ∀ phase ∈ phases, phase ≠ .repeats) :
    Alternate phases where
  no_repeat := by
    intro phase hphase
    have hne := hr phase hphase
    cases phase <;> simp at hne ⊢
  turns := by
    refine (isChain_of_follow h fun phase hphase => ?_).imp fun _ _ hne heq => hne (by rw [heq])
    have hne := hr phase hphase
    cases phase <;> simp [KeyPhase.role] at hne ⊢
  first := by
    intro phase hphase
    have hopens := follow_head? h phase hphase
    cases phase <;> simp [KeyPhase.role] at hopens ⊢

end SystemBar

end TouchBar.Hardware
