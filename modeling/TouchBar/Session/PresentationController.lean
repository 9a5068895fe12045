import Mathlib

/-!
# The presentation sessions of a plugin

A plugin keeps its presentation and the pages inside it in a `PresentationController`.
Calls on it queue commands for the session daemon: one to present and one to dismiss.  A
session that the plugin has asked to dismiss stays active until the daemon says that it
has ended; a new session replaces it at once.
-/

namespace TouchBar.Session

/-- `PresentationPolicy`. -/
inductive PresentationPolicy where
  | anchored
  | inPlace
  | slot (target : String)
  | region (target : String)
  | fullBar
  deriving DecidableEq, Repr

/-- `PresentationLifecycle`. -/
inductive PresentationLifecycle where
  | transient (contact : ℕ)
  | persistent
  deriving DecidableEq, Repr

/-- `DismissReason`. -/
inductive DismissReason where
  | requested
  | selection
  | outsidePress
  | timeout
  | sourceHidden
  | replaced
  deriving DecidableEq, Repr

/-- `DismissalPolicy`, with times in nanoseconds. -/
structure DismissalPolicy where
  onRelease : Bool
  onSelection : Bool
  onOutsidePress : Bool
  timeout : Option ℕ
  backAtRoot : Bool
  deriving DecidableEq, Repr

/-- `PresentationCommand`. -/
inductive PresentationCommand where
  | present (session : ℕ) (policy : PresentationPolicy) (lifecycle : PresentationLifecycle)
  | dismiss (session : ℕ) (reason : DismissReason)
  deriving DecidableEq, Repr

/-- `PresentationSession`; the pages above the root are those that were pushed. -/
structure PresentationSession (Page : Type*) where
  id : ℕ
  policy : PresentationPolicy
  lifecycle : PresentationLifecycle
  dismissal : DismissalPolicy
  root : Page
  pushed : List Page
  deadline : Option ℕ
  dismissRequested : Bool

/-- `PresentationController`. -/
structure PresentationController (Page : Type*) where
  nextSession : ℕ
  active : Option (PresentationSession Page)
  commands : List PresentationCommand

/-- `Duration::MAX`. -/
def durationMax : ℕ := (2 ^ 64 - 1) * 10 ^ 9 + (10 ^ 9 - 1)

/-- The deadline of a timeout that starts now. -/
def deadlineAfter (now : ℕ) (timeout : Option ℕ) : Option ℕ :=
  timeout.map fun timeout => min (now + timeout) durationMax

/-- The calls on a controller. -/
inductive PluginCall (Page : Type*) where
  | present (policy : PresentationPolicy) (lifecycle : PresentationLifecycle)
      (dismissal : DismissalPolicy) (root : Page) (now : ℕ)
  | push (page : Page)
  | back
  | released (contact : ℕ)
  | selected
  | outsidePressed
  | tick (now : ℕ)
  | activity (now : ℕ)
  | dismissIfCurrent (session : ℕ) (reason : DismissReason)

namespace PresentationController

variable {Page : Type*}

/-- `PresentationController::default`. -/
def default : PresentationController Page := ⟨1, none, []⟩

/-- `present`. -/
def present (c : PresentationController Page) (policy : PresentationPolicy)
    (lifecycle : PresentationLifecycle) (dismissal : DismissalPolicy) (root : Page) (now : ℕ) :
    PresentationController Page :=
  let replaced := c.active.toList.map fun previous =>
    PresentationCommand.dismiss previous.id .replaced
  let id := max c.nextSession 1
  { -- `wrapping_add(1).max(1)` on 32 bits
    nextSession := max ((c.nextSession + 1) % 2 ^ 32) 1
    active := some
      { id := id
        policy := policy
        lifecycle := lifecycle
        dismissal := dismissal
        root := root
        pushed := []
        deadline := deadlineAfter now dismissal.timeout
        dismissRequested := false }
    commands := c.commands ++ replaced ++ [.present id policy lifecycle] }

/-- `dismiss`. -/
def dismiss (c : PresentationController Page) (reason : DismissReason) :
    PresentationController Page × Bool :=
  match c.active with
  | none => (c, false)
  | some active =>
    if active.dismissRequested then (c, false)
    else
      ({ c with
          active := some { active with dismissRequested := true }
          commands := c.commands ++ [.dismiss active.id reason] }, true)

/-- `push`. -/
def push (c : PresentationController Page) (page : Page) : PresentationController Page × Bool :=
  match c.active with
  | none => (c, false)
  | some active =>
    ({ c with active := some { active with pushed := active.pushed ++ [page] } }, true)

/-- `back`. -/
def back (c : PresentationController Page) : PresentationController Page × Bool :=
  match c.active with
  | none => (c, false)
  | some active =>
    if active.pushed ≠ [] then
      ({ c with active := some { active with pushed := active.pushed.dropLast } }, true)
    else if active.dismissal.backAtRoot then c.dismiss .requested
    else (c, false)

/-- `released`. -/
def released (c : PresentationController Page) (contact : ℕ) :
    PresentationController Page × Bool :=
  if c.active.any fun active =>
      active.dismissal.onRelease && decide (active.lifecycle = .transient contact)
  then c.dismiss .requested
  else (c, false)

/-- `selected`. -/
def selected (c : PresentationController Page) : PresentationController Page × Bool :=
  if c.active.any fun active => active.dismissal.onSelection then c.dismiss .selection
  else (c, false)

/-- `outside_pressed`. -/
def outsidePressed (c : PresentationController Page) : PresentationController Page × Bool :=
  if c.active.any fun active => active.dismissal.onOutsidePress then c.dismiss .outsidePress
  else (c, false)

/-- `tick`. -/
def tick (c : PresentationController Page) (now : ℕ) : PresentationController Page × Bool :=
  if (c.active.bind PresentationSession.deadline).any fun deadline => decide (deadline ≤ now)
  then c.dismiss .timeout
  else (c, false)

/-- `activity`. -/
def activity (c : PresentationController Page) (now : ℕ) : PresentationController Page :=
  { c with
      active := c.active.map fun active =>
        { active with deadline := deadlineAfter now active.dismissal.timeout } }

/-- `dismiss_if_current`. -/
def dismissIfCurrent (c : PresentationController Page) (session : ℕ) (reason : DismissReason) :
    PresentationController Page × Bool :=
  if c.active.map PresentationSession.id ≠ some session then (c, false)
  else c.dismiss reason

/-- `compositor_dismissed`. -/
def compositorDismissed (c : PresentationController Page) (session : ℕ) :
    PresentationController Page × Bool :=
  if c.active.map PresentationSession.id ≠ some session then (c, false)
  else ({ c with active := none }, true)

/-- `take_command`. -/
def takeCommand (c : PresentationController Page) :
    PresentationController Page × Option PresentationCommand :=
  match c.commands with
  | [] => (c, none)
  | command :: commands => ({ c with commands := commands }, some command)

/-- A call. -/
def call (c : PresentationController Page) : PluginCall Page → PresentationController Page
  | .present policy lifecycle dismissal root now => c.present policy lifecycle dismissal root now
  | .push page => (c.push page).1
  | .back => c.back.1
  | .released contact => (c.released contact).1
  | .selected => c.selected.1
  | .outsidePressed => c.outsidePressed.1
  | .tick now => (c.tick now).1
  | .activity now => c.activity now
  | .dismissIfCurrent session reason => (c.dismissIfCurrent session reason).1

/-! ## What a call can do -/

/-- The active session. -/
def current (c : PresentationController Page) : Option ℕ := c.active.map PresentationSession.id

/-- The active session, if the plugin has not asked to dismiss it. -/
def kept (c : PresentationController Page) : Option ℕ :=
  c.active.bind fun active => if active.dismissRequested then none else some active.id

/-- A call that queues no command. -/
structure Quiet (c c' : PresentationController Page) : Prop where
  nextSession : c'.nextSession = c.nextSession
  commands : c'.commands = c.commands
  current : c'.current = c.current
  kept : c'.kept = c.kept

/-- A call that asks to dismiss the active session. -/
structure Dismisses (c c' : PresentationController Page) (session : ℕ) (reason : DismissReason) :
    Prop where
  nextSession : c'.nextSession = c.nextSession
  commands : c'.commands = c.commands ++ [.dismiss session reason]
  before : c.kept = some session
  current : c'.current = c.current
  kept : c'.kept = none

variable {c : PresentationController Page}

lemma Quiet.refl (c : PresentationController Page) : Quiet c c := ⟨rfl, rfl, rfl, rfl⟩

lemma current_of_kept {session : ℕ} (h : c.kept = some session) : c.current = some session := by
  rw [kept, Option.bind_eq_some_iff] at h
  obtain ⟨active, hactive, hkept⟩ := h
  rw [current, hactive, Option.map_some]
  cases hrequested : active.dismissRequested with
  | true => simp [hrequested] at hkept
  | false => simpa [hrequested] using hkept

lemma dismiss_cases (c : PresentationController Page) (reason : DismissReason) :
    Quiet c (c.dismiss reason).1 ∨ ∃ session, Dismisses c (c.dismiss reason).1 session reason := by
  rw [dismiss]
  cases hactive : c.active with
  | none => exact .inl (.refl c)
  | some active =>
    cases hrequested : active.dismissRequested with
    | true => exact .inl (by simpa [hrequested] using Quiet.refl c)
    | false =>
      refine .inr ⟨active.id, ?_⟩
      simp only [hrequested, Bool.false_eq_true, ↓reduceIte]
      exact ⟨rfl, rfl, by simp [kept, hactive, hrequested], by simp [current, hactive],
        by simp [kept]⟩

/-- A call other than `present` is quiet or asks to dismiss the active session. -/
lemma call_cases (c : PresentationController Page) (k : PluginCall Page) :
    (∃ policy lifecycle dismissal root now, k = .present policy lifecycle dismissal root now) ∨
      Quiet c (c.call k) ∨ ∃ session reason, Dismisses c (c.call k) session reason := by
  have hdismiss (reason : DismissReason) : Quiet c (c.dismiss reason).1 ∨
      ∃ session reason', Dismisses c (c.dismiss reason).1 session reason' :=
    (dismiss_cases c reason).imp_right fun ⟨session, h⟩ => ⟨session, reason, h⟩
  have hquiet : Quiet c c ∨ ∃ session reason, Dismisses c c session reason := .inl (.refl c)
  cases k with
  | present policy lifecycle dismissal root now =>
    exact .inl ⟨policy, lifecycle, dismissal, root, now, rfl⟩
  | push page =>
    refine .inr (.inl ?_)
    rw [call, push]
    cases hactive : c.active with
    | none => exact .refl c
    | some active => exact ⟨rfl, rfl, by simp [current, hactive], by simp [kept, hactive]⟩
  | back =>
    refine .inr ?_
    rw [call, back]
    cases hactive : c.active with
    | none => exact hquiet
    | some active =>
      dsimp only
      split_ifs
      · exact .inl ⟨rfl, rfl, by simp [current, hactive], by simp [kept, hactive]⟩
      · exact hdismiss .requested
      · exact hquiet
  | released contact =>
    refine .inr ?_
    rw [call, released]
    split_ifs
    · exact hdismiss .requested
    · exact hquiet
  | selected =>
    refine .inr ?_
    rw [call, selected]
    split_ifs
    · exact hdismiss .selection
    · exact hquiet
  | outsidePressed =>
    refine .inr ?_
    rw [call, outsidePressed]
    split_ifs
    · exact hdismiss .outsidePress
    · exact hquiet
  | tick now =>
    refine .inr ?_
    rw [call, tick]
    split_ifs
    · exact hdismiss .timeout
    · exact hquiet
  | activity now =>
    refine .inr (.inl ⟨rfl, rfl, ?_, ?_⟩)
    · cases hactive : c.active <;> simp [call, activity, current, hactive]
    · cases hactive : c.active with
      | none => simp [call, activity, kept, hactive]
      | some active => simp [call, activity, kept, hactive]
  | dismissIfCurrent session reason =>
    refine .inr ?_
    rw [call, dismissIfCurrent]
    split_ifs
    · exact hquiet
    · exact hdismiss reason

end PresentationController

end TouchBar.Session
