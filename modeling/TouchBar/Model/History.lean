import TouchBar.Lib.Lists
import TouchBar.Model.ControllerRuns

/-!
# The effective profile as a function of history

`History` is what the successful calls say about the profile to show: the last
context, the manual choice, and the leases that are held, each with the number of
the activation that made it.  The controller keeps the same information in a map
with wrapping sequence numbers; as long as fewer than `2 ^ 64` modes have been
activated it tracks the history, so the profile it shows is the one that the
history calls for.
-/

namespace TouchBar.Model

open TouchBar.Rust TouchBar.Lib Outcome

/-- A lease, and which activation made it. -/
structure HeldLease where
  key : ModeKey
  profile : ProfileId
  priority : ℤ
  activation : ℕ
deriving DecidableEq

/-- What the successful calls say about the profile to show. -/
structure History where
  context : ContextSnapshot
  manual : Option ProfileId
  leases : List HeldLease
  activations : ℕ

namespace History

def initial (context : ContextSnapshot) : History := ⟨context, none, [], 0⟩

/-- The history after one more successful call.  Activating a mode again replaces its
lease. -/
def step (h : History) : ControllerInput → History
  | .apply (.setContext context) => { h with context := context }
  | .apply (.selectProfile profile) => { h with manual := some profile }
  | .apply .useAutomaticProfile => { h with manual := none }
  | .apply (.activateMode owner mode profile priority) =>
    { h with
      leases := ⟨toLex (owner, mode), profile, priority, h.activations + 1⟩ ::
        h.leases.filter fun l => l.key ≠ toLex (owner, mode)
      activations := h.activations + 1 }
  | .apply (.releaseMode owner mode) =>
    { h with leases := h.leases.filter fun l => l.key ≠ toLex (owner, mode) }
  | .apply (.releaseOwner owner) =>
    { h with leases := h.leases.filter fun l => (ofLex l.key).1 ≠ owner }
  | .captureStarted _ => h
  | .captureEnded _ => h

/-- A lease that no other one outranks: a higher priority wins, then the more recent
activation. -/
def Leads (h : History) (l : HeldLease) : Prop :=
  l ∈ h.leases ∧ ∀ m ∈ h.leases,
    m.priority < l.priority ∨ m.priority = l.priority ∧ m.activation ≤ l.activation

/-- The profile that a history calls for. -/
inductive Effective (selector : ProfileSelector) (h : History) : ProfileId → Prop
  | manual {profile : ProfileId} (hmanual : h.manual = some profile) :
    Effective selector h profile
  | lease {l : HeldLease} (hmanual : h.manual = none) (hl : h.Leads l) :
    Effective selector h l.profile
  | automatic (hmanual : h.manual = none) (hleases : h.leases = []) :
    Effective selector h (selector.select h.context)

variable {h : History}

/-- If at most one lease leads, a history calls for at most one profile. -/
lemma Effective.unique {selector : ProfileSelector} {p q : ProfileId}
    (hlead : ∀ l m, h.Leads l → h.Leads m → l = m) (hp : h.Effective selector p)
    (hq : h.Effective selector q) : p = q := by
  cases hp with
  | manual hp =>
    cases hq with
    | manual hq => exact Option.some.inj (hp.symm.trans hq)
    | lease hq _ => cases hp.symm.trans hq
    | automatic hq _ => cases hp.symm.trans hq
  | lease hp hl =>
    cases hq with
    | manual hq => cases hp.symm.trans hq
    | lease _ hm => rw [hlead _ _ hl hm]
    | automatic _ hnil => simp [Leads, hnil] at hl
  | automatic hp hnil =>
    cases hq with
    | manual hq => cases hp.symm.trans hq
    | lease _ hm => simp [Leads, hnil] at hm
    | automatic _ _ => rfl

lemma activations_le_step (input : ControllerInput) :
    h.activations ≤ (h.step input).activations := by
  cases input with
  | apply command => cases command <;> simp [step]
  | captureStarted contact => exact le_rfl
  | captureEnded contact => exact le_rfl

end History

namespace CompositionController

/-- Whether a call succeeds; captures always do. -/
def succeeds (c : CompositionController) : ControllerInput → Bool
  | .apply command =>
    match (c.apply command).1 with
    | ok _ => true
    | _ => false
  | .captureStarted _ => true
  | .captureEnded _ => true

/-- The history of the successful calls among the inputs. -/
def history (c : CompositionController) (inputs : List ControllerInput) : History :=
  run History.step (.initial c.context) (accepted step succeeds c inputs)

/-! ## The controller tracks its history -/

/-- The selection state of a controller is that of a history. -/
structure Tracks (selector : ProfileSelector) (c : CompositionController) (h : History) : Prop where
  selector_eq : c.selector = selector
  context_eq : c.context = h.context
  manual_eq : c.manualProfile = h.manual
  leases_iff : ∀ k lease, c.modes.get k = some lease ↔
    ⟨k, lease.profile, lease.priority, lease.sequence⟩ ∈ h.leases
  activation_le : ∀ l ∈ h.leases, l.activation ≤ h.activations
  activation_inj : ∀ l ∈ h.leases, ∀ m ∈ h.leases, l.activation = m.activation → l = m
  sequence_eq : h.activations + 1 < U64.size → c.nextModeSequence = h.activations + 1

variable {c changed : CompositionController} {h : History} {selector : ProfileSelector}

lemma tracks_new {catalog : ProfileCatalog} {registry : Registry} {context : ContextSnapshot}
    (hnew : new catalog registry selector context = ok c) :
    Tracks selector c (.initial c.context) := by
  simp only [new, bind_eq_ok, pure_eq, ok.injEq] at hnew
  obtain ⟨_, -, _, -, composition, -, rfl⟩ := hnew
  exact ⟨rfl, rfl, rfl, by simp [History.initial], by simp [History.initial],
    by simp [History.initial], fun _ => rfl⟩

/-- Dropping the same leases on both sides. -/
lemma Tracks.retain {p : ModeKey → Bool} {q : HeldLease → Bool} (ht : Tracks selector c h)
    (hq : ∀ l, q l = p l.key) :
    Tracks selector { c with modes := c.modes.retain p }
      { h with leases := h.leases.filter q } where
  selector_eq := ht.selector_eq
  context_eq := ht.context_eq
  manual_eq := ht.manual_eq
  leases_iff k lease := by
    rw [BTreeMap.get_retain, List.mem_filter, ← ht.leases_iff, hq]
    split_ifs with hk <;> simp [hk]
  activation_le l hl := ht.activation_le l (List.mem_of_mem_filter hl)
  activation_inj l hl m hm :=
    ht.activation_inj l (List.mem_of_mem_filter hl) m (List.mem_of_mem_filter hm)
  sequence_eq := ht.sequence_eq

/-- A new lease takes the place of the one under its key. -/
lemma Tracks.activate {key : ModeKey} {profile : ProfileId} {priority : ℤ}
    (ht : Tracks selector c h) (hlt : h.activations + 1 < U64.size) :
    Tracks selector
      { c with
        nextModeSequence := bump c.nextModeSequence
        modes := c.modes.insert key ⟨profile, priority, c.nextModeSequence⟩ }
      { h with
        leases := ⟨key, profile, priority, h.activations + 1⟩ ::
          h.leases.filter fun l => l.key ≠ key
        activations := h.activations + 1 } where
  selector_eq := ht.selector_eq
  context_eq := ht.context_eq
  manual_eq := ht.manual_eq
  leases_iff k lease := by
    rw [BTreeMap.get_insert, ht.sequence_eq hlt, List.mem_cons, List.mem_filter, ← ht.leases_iff]
    obtain ⟨profile', priority', sequence'⟩ := lease
    by_cases hk : k = key
    · simp [hk, eq_comm]
    · simp [hk]
  activation_le l hl := by
    rcases List.mem_cons.mp hl with rfl | hl
    · exact le_rfl
    · exact (ht.activation_le l (List.mem_of_mem_filter hl)).trans (Nat.le_succ _)
  activation_inj l hl m hm heq := by
    -- the new lease has a number that no earlier one has
    have hlt : ∀ l ∈ h.leases.filter fun l => l.key ≠ key, l.activation < h.activations + 1 :=
      fun l hl => Nat.lt_succ_of_le (ht.activation_le l (List.mem_of_mem_filter hl))
    rcases List.mem_cons.mp hl with rfl | hl <;> rcases List.mem_cons.mp hm with rfl | hm
    · rfl
    · exact absurd heq (hlt m hm).ne'
    · exact absurd heq (hlt l hl).ne
    · exact ht.activation_inj l (List.mem_of_mem_filter hl) m (List.mem_of_mem_filter hm) heq
  sequence_eq hlt' := by
    have hmod : (h.activations + 1 + 1) % U64.size = h.activations + 1 + 1 := Nat.mod_eq_of_lt hlt'
    simp only [bump, ht.sequence_eq hlt, hmod]
    omega

/-- A change of the selection state is the step of the history. -/
lemma Tracks.change {command : ControllerCommand} {b : Bool} (ht : Tracks selector c h)
    (hlt : (h.step (.apply command)).activations < U64.size)
    (hchange : c.change command = ok (changed, b)) :
    Tracks selector changed (h.step (.apply command)) := by
  cases command with
  | setContext context =>
    obtain ⟨rfl, -⟩ := Prod.mk.inj (Outcome.ok.inj hchange)
    exact { ht with context_eq := rfl }
  | selectProfile profile =>
    simp only [CompositionController.change, bind_eq_ok, pure_eq, ok.injEq,
      Prod.mk.injEq] at hchange
    obtain ⟨_, -, rfl, -⟩ := hchange
    exact { ht with manual_eq := rfl }
  | useAutomaticProfile =>
    obtain ⟨rfl, -⟩ := Prod.mk.inj (Outcome.ok.inj hchange)
    exact { ht with manual_eq := rfl }
  | activateMode owner mode profile priority =>
    simp only [CompositionController.change, bind_eq_ok] at hchange
    obtain ⟨_, -, hchange⟩ := hchange
    split_ifs at hchange
    obtain ⟨rfl, -⟩ := Prod.mk.inj (Outcome.ok.inj hchange)
    exact ht.activate hlt
  | releaseMode owner mode =>
    obtain ⟨rfl, -⟩ := Prod.mk.inj (Outcome.ok.inj hchange)
    exact ht.retain fun l => by simp
  | releaseOwner owner =>
    obtain ⟨rfl, -⟩ := Prod.mk.inj (Outcome.ok.inj hchange)
    exact ht.retain fun _ => rfl

/-- Committing a snapshot leaves the selection state alone. -/
lemma Tracks.commit {candidate : ProfileCompositionSnapshot} (ht : Tracks selector c h) :
    Tracks selector (c.commit candidate).2 h := by
  simp only [CompositionController.commit]
  split_ifs
  · exact { ht with }
  · exact { ht with }

lemma Tracks.captureEnded {contact : ℕ} (ht : Tracks selector c h) :
    Tracks selector (c.captureEnded contact).2 h := by
  simp only [CompositionController.captureEnded]
  split_ifs
  · cases c.pending with
    | none => exact { ht with }
    | some p => exact { ht with }
  · exact { ht with }

/-- A successful call is a step of the history. -/
lemma Tracks.step {input : ControllerInput} (ht : Tracks selector c h)
    (hlt : (h.step input).activations < U64.size) (hsucc : c.succeeds input = true) :
    Tracks selector (c.step input) (h.step input) := by
  cases input with
  | apply command =>
    rcases c.apply_cases command with ⟨e, heq⟩ | ⟨hch, heq⟩ | ⟨changed, candidate, hch, -, heq⟩
    · simp [succeeds, heq] at hsucc
    · rw [CompositionController.step, heq]
      exact ht.change hlt hch
    · rw [CompositionController.step, heq]
      exact (ht.change hlt hch).commit
  | captureStarted contact => exact { ht with }
  | captureEnded contact => exact ht.captureEnded

lemma step_of_not_succeeds {input : ControllerInput} (hfail : c.succeeds input = false) :
    c.step input = c := by
  cases input with
  | apply command =>
    rcases c.apply_cases command with ⟨e, heq⟩ | ⟨-, heq⟩ | ⟨changed, candidate, -, -, heq⟩
    · rw [CompositionController.step, heq]
    · simp [succeeds, heq] at hfail
    · simp [succeeds, heq] at hfail
  | captureStarted contact => cases hfail
  | captureEnded contact => cases hfail

/-- While fewer than `2 ^ 64` modes have been activated, a controller tracks its history. -/
theorem tracks_history {c₀ : CompositionController} (ht : Tracks selector c₀ (.initial c₀.context))
    (inputs : List ControllerInput) (hlt : (c₀.history inputs).activations < U64.size) :
    Tracks selector (run CompositionController.step c₀ inputs) (c₀.history inputs) := by
  -- the bound is on the history at the end, so the relation carries it as a premise
  have hrel := @run_accepted _ _ _ _ History.step succeeds
    (fun c h => h.activations < U64.size → Tracks selector c h)
    (fun c h input ih hsucc hlt =>
      (ih ((History.activations_le_step input).trans_lt hlt)).step hlt hsucc)
    (fun c h input ih hfail hlt => by
      rw [step_of_not_succeeds hfail]
      exact ih hlt)
    c₀ (.initial c₀.context) (fun _ => ht) inputs
  exact hrel hlt

/-! ## The effective profile -/

lemma Tracks.modes_eq_empty_iff (ht : Tracks selector c h) :
    c.modes.values = [] ↔ h.leases = [] := by
  simp only [List.eq_nil_iff_forall_not_mem, BTreeMap.mem_values_iff, ht.leases_iff]
  constructor
  · rintro hno ⟨key, profile, priority, activation⟩ hmem
    exact hno ⟨profile, priority, activation⟩ ⟨key, hmem⟩
  · rintro hno lease ⟨key, hmem⟩
    exact hno _ hmem

/-- The lease with the highest priority and sequence number is the leading one. -/
lemma Tracks.leads_of_maxByKey {lease : ProfileLease} (ht : Tracks selector c h)
    (hmax : maxByKey (fun lease => toLex (lease.priority, lease.sequence)) c.modes.values =
      some lease) :
    ∃ l, h.Leads l ∧ l.profile = lease.profile := by
  obtain ⟨key, hget⟩ := BTreeMap.mem_values_iff.mp (maxByKey_mem hmax)
  refine ⟨_, ⟨(ht.leases_iff key lease).mp hget, ?_⟩, rfl⟩
  rintro ⟨key', profile', priority', activation'⟩ hmem
  have hle := le_maxByKey hmax ⟨profile', priority', activation'⟩
    (BTreeMap.mem_values_iff.mpr ⟨key', (ht.leases_iff _ _).mpr hmem⟩)
  exact Prod.Lex.toLex_le_toLex.mp hle

lemma Tracks.leads_unique {l m : HeldLease} (ht : Tracks selector c h) (hl : h.Leads l)
    (hm : h.Leads m) : l = m := by
  refine ht.activation_inj l hl.1 m hm.1 ?_
  have h₁ := hl.2 m hm.1
  have h₂ := hm.2 l hl.1
  omega

/-- A controller that tracks a history shows a profile that the history calls for. -/
lemma Tracks.effective (ht : Tracks selector c h) : h.Effective selector c.effectiveProfile := by
  rw [effectiveProfile]
  cases hmanual : c.manualProfile with
  | some p => exact .manual (ht.manual_eq ▸ hmanual)
  | none =>
    have hnone : h.manual = none := ht.manual_eq ▸ hmanual
    cases hmax : maxByKey (fun lease => toLex (lease.priority, lease.sequence)) c.modes.values with
    | some lease =>
      obtain ⟨l, hl, hprofile⟩ := ht.leads_of_maxByKey hmax
      simpa only [hprofile] using History.Effective.lease hnone hl
    | none =>
      simp only [ht.selector_eq, ht.context_eq]
      exact .automatic hnone (ht.modes_eq_empty_iff.mp (maxByKey_eq_none.mp hmax))

/-! ## Releasing an owner -/

/-- The keys of the leases, from the one that would be shown to the last in rank. -/
def ranking (c : CompositionController) : List ModeKey :=
  (c.modes.entries.insertionSort fun e f =>
    toLex (f.2.priority, f.2.sequence) ≤ toLex (e.2.priority, e.2.sequence)).map Prod.fst

lemma ranking_retain {p : ModeKey → Bool} :
    ranking { c with modes := c.modes.retain p } = c.ranking.filter p := by
  let below : ModeKey × ProfileLease → ModeKey × ProfileLease → Prop := fun e f =>
    toLex (f.2.priority, f.2.sequence) ≤ toLex (e.2.priority, e.2.sequence)
  have : IsTrans (ModeKey × ProfileLease) below := ⟨fun _ _ _ h₁ h₂ => le_trans h₂ h₁⟩
  have : Std.Total below := ⟨fun _ _ => le_total _ _⟩
  rw [ranking, ranking, List.filter_map]
  exact congrArg (List.map Prod.fst) (filter_insertionSort (r := below) c.modes.entries).symm

lemma modes_commit {candidate : ProfileCompositionSnapshot} :
    (c.commit candidate).2.modes = c.modes := by
  rw [CompositionController.commit]
  split_ifs <;> rfl

/-- Releasing an owner, if it succeeds, drops that owner's leases and no others. -/
lemma modes_releaseOwner {c' : CompositionController} {owner : ControlOwner}
    {o : Option ProfileCompositionSnapshot}
    (happly : c.apply (.releaseOwner owner) = (ok o, c')) :
    c'.modes = c.modes.retain fun key => (ofLex key).1 ≠ owner := by
  rcases c.apply_cases (.releaseOwner owner) with ⟨e, heq⟩ | ⟨hch, heq⟩ |
    ⟨changed, candidate, hch, -, heq⟩
  · cases heq.symm.trans happly
  · obtain ⟨hc, -⟩ := Prod.mk.inj (Outcome.ok.inj hch)
    obtain ⟨-, rfl⟩ := Prod.mk.inj (heq.symm.trans happly)
    exact congrArg CompositionController.modes hc.symm
  · obtain ⟨rfl, -⟩ := Prod.mk.inj (Outcome.ok.inj hch)
    obtain ⟨-, rfl⟩ := Prod.mk.inj (heq.symm.trans happly)
    rw [modes_commit]

/-! ## The main result -/

/-- After any calls on a new controller with fewer than `2 ^ 64` successful activations,
the effective profile is the one that the successful calls call for; and releasing an
owner drops the leases of that owner and keeps all others in their order. -/
theorem effectiveProfile_of_history {catalog : ProfileCatalog} {registry : Registry}
    {context : ContextSnapshot} {c₀ : CompositionController}
    (hnew : new catalog registry selector context = ok c₀) (inputs : List ControllerInput)
    (hlt : (c₀.history inputs).activations < U64.size) :
    (∀ profile, (c₀.history inputs).Effective selector profile ↔
      (run CompositionController.step c₀ inputs).effectiveProfile = profile) ∧
    ∀ owner o c',
      (run CompositionController.step c₀ inputs).apply (.releaseOwner owner) = (ok o, c') →
      (∀ key, c'.modes.get key =
        if (ofLex key).1 = owner then none
        else (run CompositionController.step c₀ inputs).modes.get key) ∧
      c'.ranking = (run CompositionController.step c₀ inputs).ranking.filter
        fun key => (ofLex key).1 ≠ owner := by
  have ht := tracks_history (tracks_new hnew) inputs hlt
  refine ⟨fun profile => ⟨?_, ?_⟩, fun owner o c' happly => ⟨fun key => ?_, ?_⟩⟩
  · intro heff
    exact ht.effective.unique (fun _ _ => ht.leads_unique) heff
  · rintro rfl
    exact ht.effective
  · rw [modes_releaseOwner happly, BTreeMap.get_retain]
    by_cases hkey : (ofLex key).1 = owner <;> simp [hkey]
  · rw [← ranking_retain, ranking, modes_releaseOwner happly, ranking]

/-- The first owner activates its mode a second time, which puts it ahead of the other. -/
def rivalLeases : List ControllerInput :=
  [.apply (.activateMode ⟨1⟩ "playing" ⟨"media"⟩ 5),
    .apply (.activateMode ⟨2⟩ "clock" ⟨"main"⟩ 5),
    .apply (.activateMode ⟨1⟩ "playing" ⟨"media"⟩ 5)]

theorem effectiveProfile_of_history_rivalLeases :
    ∃ c₀, sampleController = some c₀ ∧
      (c₀.history rivalLeases).Effective ⟨⟨"main"⟩, []⟩ ⟨"media"⟩ := by
  have heval : sampleController.map (fun c₀ =>
      ((run CompositionController.step c₀ rivalLeases).effectiveProfile,
        (c₀.history rivalLeases).activations)) = some (⟨"media"⟩, 3) := by
    decide
  obtain ⟨c₀, hc, hpair⟩ := Option.map_eq_some_iff.mp heval
  obtain ⟨hprofile, hactivations⟩ := Prod.mk.inj hpair
  obtain ⟨registry, catalog, hnew⟩ := new_of_sampleController hc
  exact ⟨c₀, hc, ((effectiveProfile_of_history hnew _ (hactivations ▸ by decide)).1 _).mpr hprofile⟩

end CompositionController

end TouchBar.Model
