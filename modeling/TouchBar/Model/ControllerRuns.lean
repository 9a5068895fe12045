import TouchBar.Lib.Runs
import TouchBar.Model.Controller

/-!
# Runs of the composition controller

The controller is a machine whose inputs are the calls of `apply`,
`capture_started` and `capture_ended` and whose outputs are the snapshots that
these calls commit.  `apply_cases` says everything that `apply` can do; the
invariant of the controller and the results about whole runs follow from it.
-/

namespace TouchBar.Model

open TouchBar.Rust TouchBar.Lib TouchBar.Layout Outcome

/-- The calls that change a controller. -/
inductive ControllerInput where
  | apply (command : ControllerCommand)
  | captureStarted (contact : ℕ)
  | captureEnded (contact : ℕ)
deriving DecidableEq

namespace CompositionController

/-- The controller after a call. -/
def step (c : CompositionController) : ControllerInput → CompositionController
  | .apply command => (c.apply command).2
  | .captureStarted contact => c.captureStarted contact
  | .captureEnded contact => (c.captureEnded contact).2

/-- The snapshot that a call commits. -/
def committed (c : CompositionController) : ControllerInput → Option ProfileCompositionSnapshot
  | .apply command =>
    match (c.apply command).1 with
    | ok snapshot => snapshot
    | _ => none
  | .captureStarted _ => none
  | .captureEnded contact => (c.captureEnded contact).1

/-- The newest snapshot: the pending one if there is one, else the current one. -/
def latest (c : CompositionController) : ProfileCompositionSnapshot := c.pending.getD c.current

variable {c c' changed : CompositionController}

/-! ## What `apply` can do -/

/-- Restoring the selection state undoes a change. -/
lemma restore_change {command : ControllerCommand} {b : Bool}
    (h : c.change command = ok (changed, b)) : changed.restore c = c := by
  cases command with
  | setContext context =>
    obtain ⟨rfl, -⟩ := Prod.mk.inj (Outcome.ok.inj h)
    rfl
  | selectProfile profile =>
    simp only [change, bind_eq_ok, pure_eq, ok.injEq, Prod.mk.injEq] at h
    obtain ⟨_, -, rfl, -⟩ := h
    rfl
  | useAutomaticProfile =>
    obtain ⟨rfl, -⟩ := Prod.mk.inj (Outcome.ok.inj h)
    rfl
  | activateMode owner mode profile priority =>
    simp only [change, bind_eq_ok] at h
    obtain ⟨_, -, h⟩ := h
    split_ifs at h
    obtain ⟨rfl, -⟩ := Prod.mk.inj (Outcome.ok.inj h)
    rfl
  | releaseMode owner mode =>
    obtain ⟨rfl, -⟩ := Prod.mk.inj (Outcome.ok.inj h)
    rfl
  | releaseOwner owner =>
    obtain ⟨rfl, -⟩ := Prod.mk.inj (Outcome.ok.inj h)
    rfl

/-- A change touches only the selection state. -/
lemma change_frame {command : ControllerCommand} {b : Bool}
    (h : c.change command = ok (changed, b)) :
    changed.catalog = c.catalog ∧ changed.registry = c.registry ∧
      changed.selector = c.selector ∧ changed.current = c.current ∧
      changed.pending = c.pending ∧ changed.capturedContacts = c.capturedContacts := by
  rw [← restore_change h]
  exact ⟨rfl, rfl, rfl, rfl, rfl, rfl⟩

/-- A command that reports no change leaves the controller as it is. -/
lemma eq_of_change_false {command : ControllerCommand}
    (h : c.change command = ok (changed, false)) : changed = c := by
  cases command with
  | setContext context => simp [change] at h
  | selectProfile profile => simp [change] at h
  | useAutomaticProfile =>
    obtain ⟨rfl, hb⟩ := Prod.mk.inj (Outcome.ok.inj h)
    have hnone : c.manualProfile = none := by simpa using hb
    rw [← hnone]
  | activateMode owner mode profile priority =>
    simp only [change, bind_eq_ok] at h
    obtain ⟨_, -, h⟩ := h
    split_ifs at h
    simp at h
  | releaseMode owner mode =>
    obtain ⟨rfl, hb⟩ := Prod.mk.inj (Outcome.ok.inj h)
    rw [BTreeMap.remove_eq_self (by simpa [BTreeMap.containsKey] using hb)]
  | releaseOwner owner =>
    obtain ⟨rfl, hb⟩ := Prod.mk.inj (Outcome.ok.inj h)
    rw [BTreeMap.retain_eq_self (by simpa using hb)]

lemma requireProfile_ne_panic {profile : ProfileId} : c.requireProfile profile ≠ panic := by
  rw [requireProfile]
  split_ifs <;> simp

lemma change_ne_panic {command : ControllerCommand} : c.change command ≠ panic := by
  cases command with
  | selectProfile profile => simp [change, bind_eq_panic, requireProfile_ne_panic]
  | activateMode owner mode profile priority =>
    simp only [change, ne_eq, bind_eq_panic, requireProfile_ne_panic, false_or, not_exists, not_and]
    intro _ _
    split_ifs <;> simp
  | _ => simp [change]

lemma buildSnapshot_ne_panic : c.buildSnapshot ≠ panic := by
  simp [buildSnapshot, bind_eq_panic, compose_ne_panic]

/-- Everything that `apply` can do: fail and change nothing, have nothing to do, or commit
a snapshot of the changed selection state. -/
theorem apply_cases (c : CompositionController) (command : ControllerCommand) :
    (∃ e, c.apply command = (err e, c)) ∨
    (c.change command = ok (c, false) ∧ c.apply command = (ok none, c)) ∨
    ∃ changed candidate, c.change command = ok (changed, true) ∧
      changed.buildSnapshot = ok candidate ∧
      c.apply command = (ok (changed.commit candidate).1, (changed.commit candidate).2) := by
  cases h : c.change command with
  | err e => exact .inl ⟨e, by rw [CompositionController.apply, h]⟩
  | panic => exact absurd h change_ne_panic
  | ok result =>
    obtain ⟨changed, b⟩ := result
    cases b with
    | false =>
      obtain rfl := eq_of_change_false h
      exact .inr (.inl ⟨rfl, by rw [CompositionController.apply, h]⟩)
    | true =>
      cases hb : changed.buildSnapshot with
      | err e =>
        refine .inl ⟨e, ?_⟩
        rw [CompositionController.apply, h]
        simp only [hb, restore_change h]
      | panic => exact absurd hb buildSnapshot_ne_panic
      | ok candidate =>
        refine .inr (.inr ⟨changed, candidate, rfl, hb, ?_⟩)
        rw [CompositionController.apply, h]
        simp only [hb]

/-- A failed command leaves the whole controller as it was. -/
lemma eq_of_apply_err {command : ControllerCommand} {e : ProfileError}
    (h : c.apply command = (err e, c')) : c' = c := by
  rcases c.apply_cases command with ⟨e', h'⟩ | ⟨-, h'⟩ | ⟨_, _, -, -, h'⟩
  · exact (Prod.mk.inj (h.symm.trans h')).2
  · cases (Prod.mk.inj (h.symm.trans h')).1
  · cases (Prod.mk.inj (h.symm.trans h')).1

lemma buildSnapshot_eq_ok {candidate : ProfileCompositionSnapshot}
    (h : c.buildSnapshot = ok candidate) :
    c.catalog.compose c.registry c.context c.effectiveProfile = ok candidate.composition ∧
      candidate.delta = .between (some c.current.composition.bar) candidate.composition.bar := by
  simp only [buildSnapshot, bind_eq_ok, pure_eq, ok.injEq] at h
  obtain ⟨composition, hcompose, rfl⟩ := h
  exact ⟨hcompose, rfl⟩

/-! ## The invariant -/

structure Inv (c : CompositionController) : Prop where
  /-- A snapshot is pending only during a capture. -/
  pending_captured : c.pending.isSome → c.capturedContacts.isEmpty = false
  /-- The newest snapshot shows the effective profile. -/
  latest_eq : c.catalog.compose c.registry c.context c.effectiveProfile =
    ok c.latest.composition
  /-- A pending snapshot leads on from the current one. -/
  pending_delta : ∀ p, c.pending = some p →
    p.delta = .between (some c.current.composition.bar) p.composition.bar

lemma inv_new {catalog : ProfileCatalog} {registry : Registry} {selector : ProfileSelector}
    {context : ContextSnapshot} (h : new catalog registry selector context = ok c) : c.Inv := by
  simp only [new, bind_eq_ok, pure_eq, ok.injEq] at h
  obtain ⟨_, -, _, -, composition, hcompose, rfl⟩ := h
  exact ⟨by simp, hcompose, by simp⟩

lemma Inv.pending_eq_none (h : c.Inv) (hcap : c.capturedContacts.isEmpty = true) :
    c.pending = none := by
  by_contra hne
  have := h.pending_captured (Option.isSome_iff_ne_none.mpr hne)
  rw [hcap] at this
  cases this

lemma Inv.commit {command : ControllerCommand} {candidate : ProfileCompositionSnapshot} (h : c.Inv)
    (hchange : c.change command = ok (changed, true))
    (hbuild : changed.buildSnapshot = ok candidate) : (changed.commit candidate).2.Inv := by
  obtain ⟨-, -, -, hcurrent, hpending, hcaptured⟩ := change_frame hchange
  obtain ⟨hcompose, hdelta⟩ := buildSnapshot_eq_ok hbuild
  simp only [CompositionController.commit]
  split_ifs with hcap
  · have hnone : changed.pending = none := by
      rw [hpending]
      exact h.pending_eq_none (hcaptured ▸ hcap)
    refine ⟨by simp [hnone], ?_, by simp [hnone]⟩
    simp only [latest, hnone, Option.getD_none]
    exact hcompose
  · refine ⟨fun _ => by simpa using hcap, hcompose, ?_⟩
    rintro p ⟨rfl⟩
    exact hdelta

lemma Inv.captureEnded {contact : ℕ} (h : c.Inv) : (c.captureEnded contact).2.Inv := by
  simp only [CompositionController.captureEnded]
  split_ifs with hcap
  · have hlatest := h.latest_eq
    cases hp : c.pending with
    | none =>
      simp only [latest, hp, Option.getD_none] at hlatest
      exact ⟨by simp, hlatest, by simp⟩
    | some p =>
      simp only [latest, hp, Option.getD_some] at hlatest
      exact ⟨by simp, hlatest, by simp⟩
  · exact ⟨fun _ => by simpa using hcap, h.latest_eq, h.pending_delta⟩

lemma Inv.captureStarted {contact : ℕ} (h : c.Inv) : (c.captureStarted contact).Inv where
  pending_captured _ := by
    rw [← Bool.not_eq_true, BTreeSet.isEmpty_iff, not_forall]
    exact ⟨contact, by simp [CompositionController.captureStarted]⟩
  latest_eq := h.latest_eq
  pending_delta := h.pending_delta

/-- Every call keeps the invariant. -/
lemma Inv.step (h : c.Inv) (input : ControllerInput) : (c.step input).Inv := by
  cases input with
  | apply command =>
    rcases c.apply_cases command with ⟨e, heq⟩ | ⟨-, heq⟩ | ⟨changed, candidate, hch, hb, heq⟩
    · simpa [CompositionController.step, heq] using h
    · simpa [CompositionController.step, heq] using h
    · simpa [CompositionController.step, heq] using h.commit hch hb
  | captureStarted contact => exact h.captureStarted
  | captureEnded contact => exact h.captureEnded

/-! ## Commits -/

/-- A call that ends with a touch captured does not change what is shown. -/
lemma current_step_of_captured {input : ControllerInput}
    (hcap : (c.step input).capturedContacts.isEmpty = false) :
    (c.step input).current = c.current := by
  cases input with
  | apply command =>
    rcases c.apply_cases command with ⟨e, heq⟩ | ⟨-, heq⟩ | ⟨changed, candidate, hch, hb, heq⟩
    · simp [step, heq]
    · simp [step, heq]
    · obtain ⟨-, -, -, hcurrent, -, -⟩ := change_frame hch
      simp only [step, heq, commit] at hcap ⊢
      split_ifs at hcap ⊢ with hempty
      · simp only [hempty, Bool.true_eq_false] at hcap
      · exact hcurrent
  | captureStarted contact => rfl
  | captureEnded contact =>
    simp only [step, captureEnded] at hcap ⊢
    split_ifs at hcap ⊢ with hempty
    · exfalso
      cases hp : c.pending with
      | none => simp [hp, hempty] at hcap
      | some p => simp [hp, hempty] at hcap
    · rfl

/-- A call without a commit shows the same as before. -/
lemma current_step_of_not_committed {input : ControllerInput}
    (hnone : c.committed input = none) : (c.step input).current = c.current := by
  cases input with
  | apply command =>
    rcases c.apply_cases command with ⟨e, heq⟩ | ⟨-, heq⟩ | ⟨changed, candidate, hch, hb, heq⟩
    · simp [step, heq]
    · simp [step, heq]
    · obtain ⟨-, -, -, hcurrent, -, -⟩ := change_frame hch
      simp only [committed, step, heq, commit] at hnone ⊢
      split_ifs at hnone ⊢
      exact hcurrent
  | captureStarted contact => rfl
  | captureEnded contact =>
    simp only [committed, step, captureEnded] at hnone ⊢
    split_ifs at hnone ⊢
    · cases hp : c.pending with
      | none => rfl
      | some p => simp [hp] at hnone
    · rfl

/-- A commit shows the snapshot, whose delta starts from what was shown before. -/
lemma current_step_of_committed {input : ControllerInput} {snapshot : ProfileCompositionSnapshot}
    (h : c.Inv) (hsome : c.committed input = some snapshot) :
    snapshot.delta = .between (some c.current.composition.bar) snapshot.composition.bar ∧
      (c.step input).current = snapshot := by
  cases input with
  | apply command =>
    rcases c.apply_cases command with ⟨e, heq⟩ | ⟨-, heq⟩ | ⟨changed, candidate, hch, hb, heq⟩
    · simp [committed, heq] at hsome
    · simp [committed, heq] at hsome
    · obtain ⟨-, -, -, hcurrent, -, -⟩ := change_frame hch
      obtain ⟨-, hdelta⟩ := buildSnapshot_eq_ok hb
      simp only [committed, step, heq, commit] at hsome ⊢
      split_ifs at hsome ⊢
      obtain rfl := Option.some.inj hsome
      exact ⟨hcurrent ▸ hdelta, rfl⟩
  | captureStarted contact => cases hsome
  | captureEnded contact =>
    simp only [committed, step, captureEnded] at hsome ⊢
    split_ifs at hsome ⊢
    cases hp : c.pending with
    | none => simp [hp] at hsome
    | some p =>
      obtain rfl : p = snapshot := by simpa [hp] using hsome
      exact ⟨h.pending_delta p hp, by simp⟩

/-! ## Single calls in terms of what they leave -/

lemma new_eq_ok {catalog : ProfileCatalog} {registry : Registry} {selector : ProfileSelector}
    {context : ContextSnapshot} (h : new catalog registry selector context = ok c) :
    c.selector = selector ∧ c.context = context ∧ c.manualProfile = none ∧
      c.modes = .empty ∧ c.capturedContacts = .empty := by
  simp only [new, bind_eq_ok, pure_eq, ok.injEq] at h
  obtain ⟨_, -, _, -, composition, -, rfl⟩ := h
  exact ⟨rfl, rfl, rfl, rfl, rfl⟩

lemma change_selectProfile {profile : ProfileId} {b : Bool}
    (h : c.change (.selectProfile profile) = ok (changed, b)) :
    changed = { c with manualProfile := some profile } := by
  simp only [change, bind_eq_ok, pure_eq, ok.injEq, Prod.mk.injEq] at h
  obtain ⟨_, -, rfl, -⟩ := h
  rfl

/-- Without leases the manual profile decides, and else the rules. -/
lemma effectiveProfile_of_modes_empty (h : c.modes = .empty) :
    c.effectiveProfile = c.manualProfile.getD (c.selector.select c.context) := by
  rw [effectiveProfile, h]
  cases c.manualProfile <;> rfl

/-- What a successful command does: the selection state is the changed one, the rest of
the setting stays, and the controller shows what it returned or the same as before. -/
lemma apply_eq_ok {k : ControllerCommand} {raw : Option ProfileCompositionSnapshot}
    (h : c.apply k = (ok raw, c')) (hinv : c.Inv) :
    (∃ changed b, c.change k = ok (changed, b) ∧ c'.context = changed.context ∧
      c'.manualProfile = changed.manualProfile ∧ c'.modes = changed.modes) ∧
    c'.catalog = c.catalog ∧ c'.registry = c.registry ∧ c'.selector = c.selector ∧
    c'.capturedContacts = c.capturedContacts ∧ c'.Inv ∧ c'.current = raw.getD c.current := by
  have hstep : c.step (.apply k) = c' := by rw [step, h]
  have hcommitted : c.committed (.apply k) = raw := by rw [committed, h]
  have hcurrent : c'.current = raw.getD c.current := by
    cases raw with
    | none => rw [← hstep, current_step_of_not_committed hcommitted, Option.getD_none]
    | some snapshot =>
      rw [← hstep, (current_step_of_committed hinv hcommitted).2, Option.getD_some]
  have hinv' : c'.Inv := hstep ▸ hinv.step _
  rcases c.apply_cases k with
    ⟨e, happly⟩ | ⟨hchange, happly⟩ | ⟨changed, candidate, hchange, -, happly⟩
  · rw [happly] at h
    cases (Prod.mk.inj h).1
  · obtain rfl := (Prod.mk.inj (happly.symm.trans h)).2
    exact ⟨⟨c, false, hchange, rfl, rfl, rfl⟩, rfl, rfl, rfl, rfl, hinv', hcurrent⟩
  · obtain ⟨hcat, hreg, hsel, -, -, hcap⟩ := change_frame hchange
    have hc' : c' = (changed.commit candidate).2 := (Prod.mk.inj (happly.symm.trans h)).2.symm
    have hcommit : c'.context = changed.context ∧ c'.manualProfile = changed.manualProfile ∧
        c'.modes = changed.modes ∧ c'.catalog = changed.catalog ∧
        c'.registry = changed.registry ∧ c'.selector = changed.selector ∧
        c'.capturedContacts = changed.capturedContacts := by
      rw [hc']
      simp only [commit]
      split_ifs <;> exact ⟨rfl, rfl, rfl, rfl, rfl, rfl, rfl⟩
    obtain ⟨h₁, h₂, h₃, h₄, h₅, h₆, h₇⟩ := hcommit
    exact ⟨⟨changed, true, hchange, h₁, h₂, h₃⟩, h₄.trans hcat, h₅.trans hreg, h₆.trans hsel,
      h₇.trans hcap, hinv', hcurrent⟩

/-- What the end of a capture does. -/
lemma captureEnded_frame (contact : ℕ) (hinv : c.Inv) :
    (c.captureEnded contact).2.catalog = c.catalog ∧
    (c.captureEnded contact).2.registry = c.registry ∧
    (c.captureEnded contact).2.selector = c.selector ∧
    (c.captureEnded contact).2.modes = c.modes ∧
    (c.captureEnded contact).2.context = c.context ∧
    (c.captureEnded contact).2.manualProfile = c.manualProfile ∧
    (c.captureEnded contact).2.capturedContacts = c.capturedContacts.remove contact ∧
    (c.captureEnded contact).2.Inv ∧
    (c.captureEnded contact).2.current = (c.captureEnded contact).1.getD c.current := by
  have hinv' : (c.captureEnded contact).2.Inv := hinv.captureEnded
  simp only [captureEnded] at hinv' ⊢
  split_ifs at hinv' ⊢
  · cases hp : c.pending with
    | none =>
      simp only [hp] at hinv'
      exact ⟨rfl, rfl, rfl, rfl, rfl, rfl, rfl, hinv', rfl⟩
    | some p =>
      simp only [hp] at hinv'
      exact ⟨rfl, rfl, rfl, rfl, rfl, rfl, rfl, hinv', rfl⟩
  · exact ⟨rfl, rfl, rfl, rfl, rfl, rfl, rfl, hinv', rfl⟩

/-! ## The main result -/

/-- Along a run in which a touch stays captured, the current snapshot stays the same. -/
lemma current_run_of_captured (inputs : List ControllerInput)
    (hcap : ∀ front, front <+: inputs → (run step c front).capturedContacts.isEmpty = false) :
    (run step c inputs).current = c.current := by
  induction inputs generalizing c with
  | nil => rfl
  | cons input inputs ih =>
    have hstep : (c.step input).capturedContacts.isEmpty = false :=
      hcap [input] (List.prefix_append [input] inputs)
    rw [run_cons, ih fun front hfront => hcap (input :: front) (List.cons_prefix_cons.mpr
      ⟨rfl, hfront⟩), current_step_of_captured hstep]

def sampleRegistry : Outcome ModelError Registry := do
  let registry ← Registry.default.addItem ⟨.new "clock" 40 40 40, "Clock", none, none⟩
  registry.addItem ⟨.new "play" 40 40 40, "Play", none, none⟩

/-- The profile "main" shows the clock, the profile "media" the play button. -/
def sampleCatalog : Outcome ProfileError ProfileCatalog := do
  let catalog ← ProfileCatalog.default.addContribution
    ⟨⟨"time"⟩, [.item ⟨"clock"⟩], .always, .global, 0⟩
  let catalog ← catalog.addContribution ⟨⟨"player"⟩, [.item ⟨"play"⟩], .always, .global, 0⟩
  let catalog ← catalog.addProfile
    ⟨⟨"main"⟩, [.slot ⟨⟨"status"⟩, .collect, [⟨⟨"time"⟩, 0⟩]⟩], none⟩
  catalog.addProfile ⟨⟨"media"⟩, [.slot ⟨⟨"controls"⟩, .collect, [⟨⟨"player"⟩, 0⟩]⟩], none⟩

def sampleController : Option CompositionController :=
  match sampleRegistry, sampleCatalog with
  | ok registry, ok catalog =>
    match new catalog registry ⟨⟨"main"⟩, []⟩ ⟨0, .empty⟩ with
    | ok c => some c
    | _ => none
  | _, _ => none

lemma new_of_sampleController (h : sampleController = some c) :
    ∃ registry catalog, new catalog registry ⟨⟨"main"⟩, []⟩ ⟨0, .empty⟩ = ok c := by
  rw [sampleController] at h
  split at h
  · next registry catalog _ _ =>
    split at h
    · next c' hnew =>
      obtain rfl := Option.some.inj h
      exact ⟨registry, catalog, hnew⟩
    · cases h
  · cases h

end CompositionController

end TouchBar.Model
