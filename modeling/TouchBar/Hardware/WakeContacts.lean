import TouchBar.Hardware.Events
import TouchBar.Rust.BTree

/-!
# Waking contacts

A touch on a dark panel only wakes it: every event of the batch that wakes the panel
is suppressed, and so are the later events of its contacts.  `WakeContacts` records
these contacts.  The waking batch is suppressed whatever its contacts have done before,
so a finger that was already delivered, and held still until the panel went dark, loses
the rest of its events.  `Unsplit` says that this has not happened, and
`unsplit_iff_noHeldContact` that it happens exactly when such a finger wakes the panel.
-/

namespace TouchBar.Hardware

open Lib Rust

/-- `BacklightState`. -/
inductive BacklightState where
  | active
  | dimmed
  | off
  deriving DecidableEq, Repr

/-- `BACKLIGHT_DIM_TIMEOUT`, in seconds. -/
def backlightDimTimeout : ℕ := 30

/-- `BACKLIGHT_OFF_TIMEOUT`, in seconds. -/
def backlightOffTimeout : ℕ := 60

/-- The event ends its contact. -/
def TouchEvent.isTerminal (event : TouchEvent) : Bool :=
  event.phase = .up || event.phase = .cancel

/-- `WakeContacts::consume`: the contacts after the event, and whether it is suppressed. -/
def consume (contacts : BTreeSet ℕ) (event : TouchEvent) (wokePanel : Bool) :
    BTreeSet ℕ × Bool :=
  if wokePanel then
    if event.isTerminal then (contacts.remove event.contactId, true)
    else (contacts.insert event.contactId, true)
  else if contacts.contains event.contactId then
    if event.isTerminal then (contacts.remove event.contactId, true)
    else (contacts, true)
  else (contacts, false)

/-- The part of `ServiceHardware` that decides about suppression. -/
structure WakePanel where
  backlightState : BacklightState
  wakeContacts : BTreeSet ℕ

namespace WakePanel

/-- `wake`: whether the panel was dark. -/
def wake (panel : WakePanel) : WakePanel × Bool :=
  ({ panel with backlightState := .active }, panel.backlightState = .off)

/-- `update_idle_backlight`, so many seconds after the last activity. -/
def updateIdleBacklight (panel : WakePanel) (elapsed : ℕ) : WakePanel :=
  if elapsed ≥ backlightOffTimeout ∧ panel.backlightState ≠ .off then
    { panel with backlightState := .off }
  else if elapsed ≥ backlightDimTimeout ∧ panel.backlightState = .active then
    { panel with backlightState := .dimmed }
  else panel

end WakePanel

/-- The panel, and the touches that have been read, each with whether it was suppressed. -/
structure WakeRun where
  panel : WakePanel
  verdicts : List (TouchEvent × Bool)

/-- What the loops of the service do to the panel. -/
inductive PanelStep where
  /-- A batch of touches is read. -/
  | touches (events : List TouchEvent)
  /-- Fn, the seat, or the first frame of a session wakes the panel. -/
  | activity
  /-- The loop ends so many seconds after the last activity. -/
  | idle (elapsed : ℕ)
  deriving DecidableEq, Repr

/-- The events of every contact are well formed. -/
def WellFormed (events : List TouchEvent) : Prop :=
  ∀ id, ∃ unfinished, Episodes TouchEvent.role unfinished (events.filter (·.contactId = id))

namespace WakeRun

/-- The panel when the service starts. -/
def new : WakeRun := ⟨⟨.active, .empty⟩, []⟩

/-- The body of the loop over a batch. -/
def consume (wokePanel : Bool) (s : WakeRun) (event : TouchEvent) : WakeRun :=
  let (contacts, suppressed) := Hardware.consume s.panel.wakeContacts event wokePanel
  ⟨{ s.panel with wakeContacts := contacts }, s.verdicts ++ [(event, suppressed)]⟩

/-- What one step does.  An empty batch does not wake the panel. -/
def step (s : WakeRun) : PanelStep → WakeRun
  | .touches events =>
    if events.isEmpty then s
    else
      let (panel, wokePanel) := s.panel.wake
      events.foldl (consume wokePanel) ⟨panel, s.verdicts⟩
  | .activity => { s with panel := s.panel.wake.1 }
  | .idle elapsed => { s with panel := s.panel.updateIdleBacklight elapsed }

/-- The run after a list of steps. -/
def after (steps : List PanelStep) : WakeRun := run step new steps

/-- The touches of one contact. -/
def verdictsOf (s : WakeRun) (id : ℕ) : List (TouchEvent × Bool) :=
  s.verdicts.filter fun v => v.1.contactId = id

/-- A list of touches ends while its contact is down. -/
def Down (l : List (TouchEvent × Bool)) : Prop := ∃ v ∈ l.getLast?, v.1.role ≠ .closes

/-- No contact has been split. -/
structure Unsplit (s : WakeRun) : Prop where
  /-- From its `Down` to its `Up` or `Cancel`, a contact is suppressed or forwarded as a whole. -/
  whole : ∀ id, UniformEpisodes TouchEvent.role (s.verdictsOf id)
  /-- A contact is recorded only while it is down. -/
  recorded : ∀ id ∈ s.panel.wakeContacts, Down (s.verdictsOf id)
  /-- A contact is down for the recipient only while it is down. -/
  released : ∀ id, Down ((s.verdictsOf id).filter fun v => v.2 = false) → Down (s.verdictsOf id)

/-- A contact that was forwarded is still down. -/
def Held (s : WakeRun) (id : ℕ) : Prop :=
  ∃ v ∈ (s.verdictsOf id).getLast?, v.1.role ≠ .closes ∧ v.2 = false

/-- If the batch wakes the panel, it has no event of a contact that was forwarded and is
still down. -/
def NoHeldContact (s : WakeRun) : PanelStep → Prop
  | .touches events => s.panel.backlightState = .off → ∀ e ∈ events, ¬ s.Held e.contactId
  | .activity => True
  | .idle _ => True

/-- The touches that the steps read. -/
def touchesOf : List PanelStep → List TouchEvent
  | [] => []
  | .touches events :: steps => events ++ touchesOf steps
  | .activity :: steps => touchesOf steps
  | .idle _ :: steps => touchesOf steps

/-! ## One event -/

/-- The touches that have been read. -/
def touches (s : WakeRun) : List TouchEvent := s.verdicts.map Prod.fst

/-- What the verdicts on one contact and the recorded contacts have to do with each other. -/
structure Sound (s : WakeRun) (id : ℕ) : Prop where
  episodes : ∃ b, follow (fun v : TouchEvent × Bool => v.1.role) false (s.verdictsOf id) = some b
  keeps : KeepsLabel TouchEvent.role (s.verdictsOf id)
  recorded : id ∈ s.panel.wakeContacts ↔
    ∃ v ∈ (s.verdictsOf id).getLast?, v.1.role ≠ .closes ∧ v.2 = true

lemma isTerminal_iff {event : TouchEvent} : event.isTerminal = true ↔ event.role = .closes := by
  rw [TouchEvent.isTerminal, TouchEvent.role]
  cases event.phase <;> simp

lemma consume_suppressed (contacts : BTreeSet ℕ) (event : TouchEvent) (wokePanel : Bool) :
    (Hardware.consume contacts event wokePanel).2 = true ↔
      wokePanel = true ∨ event.contactId ∈ contacts := by
  rw [Hardware.consume, ← BTreeSet.contains_iff]
  split_ifs with hwoke hterminal hin <;> simp_all

lemma mem_consume (contacts : BTreeSet ℕ) (event : TouchEvent) (wokePanel : Bool) (id : ℕ) :
    id ∈ (Hardware.consume contacts event wokePanel).1 ↔
      if id = event.contactId then
        event.role ≠ .closes ∧ (Hardware.consume contacts event wokePanel).2 = true
      else id ∈ contacts := by
  rw [consume_suppressed, Ne, ← isTerminal_iff, Hardware.consume]
  by_cases hin : event.contactId ∈ contacts
  · have hcontains := BTreeSet.contains_iff.2 hin
    split_ifs <;> simp_all
  · have hcontains : contacts.contains event.contactId = false := by
      simpa [← Bool.not_eq_true] using hin
    split_ifs <;> simp_all

section Consume

variable {s : WakeRun} {event : TouchEvent} {wokePanel : Bool}

lemma verdictsOf_consume (s : WakeRun) (wokePanel : Bool) (event : TouchEvent) (id : ℕ) :
    (s.consume wokePanel event).verdictsOf id = s.verdictsOf id ++
      if event.contactId = id then
        [(event, (Hardware.consume s.panel.wakeContacts event wokePanel).2)] else [] := by
  rw [verdictsOf, consume, List.filter_append, verdictsOf]
  by_cases h : event.contactId = id <;> simp [h]

lemma touches_consume (s : WakeRun) (wokePanel : Bool) (event : TouchEvent) :
    (s.consume wokePanel event).touches = s.touches ++ [event] := by
  simp [touches, consume]

lemma verdictsOf_touches (s : WakeRun) (id : ℕ) :
    s.touches.filter (·.contactId = id) = (s.verdictsOf id).map Prod.fst := by
  rw [touches, verdictsOf, List.filter_map]
  rfl

/-- An event that does not open its contact finds it down, with a verdict. -/
lemma exists_last (h : Sound s event.contactId) (hwf : WellFormed (s.touches ++ [event])) :
    (event.role = .opens ∧ ¬ Down (s.verdictsOf event.contactId)) ∨
      (event.role ≠ .opens ∧ ∃ v ∈ (s.verdictsOf event.contactId).getLast?,
        v.1.role ≠ .closes) := by
  obtain ⟨b, hb⟩ := h.episodes
  obtain ⟨c, hc⟩ := hwf event.contactId
  have hdown : b = true ↔ Down (s.verdictsOf event.contactId) := follow_getLast? hb
  rw [← follow_eq_some_iff, List.filter_append, verdictsOf_touches, follow_append, follow_map,
    hb, Option.bind_some] at hc
  simp only [decide_true, List.filter_cons_of_pos, List.filter_nil, follow_singleton] at hc
  cases b <;> cases hrole : event.role <;> rw [hrole] at hc <;> cases hc
  · exact .inl ⟨rfl, fun hd => Bool.false_ne_true (hdown.2 hd)⟩
  · exact .inr ⟨by simp, hdown.1 rfl⟩
  · exact .inr ⟨by simp, hdown.1 rfl⟩

/-- The event gets the verdict of its contact, unless it wakes the panel and the contact was
forwarded. -/
lemma keepsLabel_consume (h : Sound s event.contactId) (hwf : WellFormed (s.touches ++ [event])) :
    KeepsLabel TouchEvent.role ((s.consume wokePanel event).verdictsOf event.contactId) ↔
      (wokePanel = true → ¬ s.Held event.contactId) := by
  have hverdict := consume_suppressed s.panel.wakeContacts event wokePanel
  rw [verdictsOf_consume, if_pos rfl, keepsLabel_concat]
  rcases exists_last h hwf with ⟨hrole, hup⟩ | ⟨hrole, last, hlast, hdown⟩
  · have hheld : ¬ s.Held event.contactId := fun ⟨v, hv, hrole, _⟩ => hup ⟨v, hv, hrole⟩
    simp [h.keeps, hrole, hheld]
  · have hrecorded : event.contactId ∈ s.panel.wakeContacts ↔ last.2 = true := by
      rw [h.recorded]
      constructor
      · rintro ⟨v, hv, -, htrue⟩
        rwa [Option.mem_unique hlast hv]
      · exact fun htrue => ⟨last, hlast, hdown, htrue⟩
    have hheld : s.Held event.contactId ↔ last.2 = false := by
      constructor
      · rintro ⟨v, hv, -, hfalse⟩
        rwa [Option.mem_unique hlast hv]
      · exact fun hfalse => ⟨last, hlast, hdown, hfalse⟩
    have hchain : (∀ f ∈ (s.verdictsOf event.contactId).getLast?, event.role ≠ .opens →
        f.2 = (Hardware.consume s.panel.wakeContacts event wokePanel).2) ↔
        last.2 = (Hardware.consume s.panel.wakeContacts event wokePanel).2 := by
      constructor
      · exact fun hall => hall last hlast hrole
      · intro heq f hf _
        rwa [← Option.mem_unique hlast hf]
    rw [hrecorded] at hverdict
    rw [hchain, hheld]
    simp only [h.keeps, true_and]
    cases hlabel : last.2 <;> cases wokePanel <;> simp_all

/-- One event keeps the verdicts and the recorded contacts in agreement, unless it wakes the
panel and its contact was forwarded. -/
lemma sound_consume (h : ∀ id, Sound s id) (hwf : WellFormed (s.touches ++ [event]))
    (hheld : wokePanel = true → ¬ s.Held event.contactId) (id : ℕ) :
    Sound (s.consume wokePanel event) id := by
  have hmem := mem_consume s.panel.wakeContacts event wokePanel id
  refine ⟨?_, ?_, ?_⟩
  · obtain ⟨c, hc⟩ := hwf id
    rw [← touches_consume s wokePanel, verdictsOf_touches, ← follow_eq_some_iff, follow_map] at hc
    exact ⟨c, hc⟩
  · by_cases hid : event.contactId = id
    · subst hid
      exact (keepsLabel_consume (h _) hwf).2 hheld
    · rw [verdictsOf_consume, if_neg hid, List.append_nil]
      exact (h id).keeps
  · rw [verdictsOf_consume]
    show id ∈ (Hardware.consume s.panel.wakeContacts event wokePanel).1 ↔ _
    rw [hmem]
    by_cases hid : event.contactId = id
    · rw [if_pos hid, if_pos hid.symm]
      simp
    · rw [if_neg hid, if_neg (Ne.symm hid), List.append_nil]
      exact (h id).recorded

end Consume

/-! ## Batches -/

section Batch

variable {s : WakeRun} {events : List TouchEvent} {wokePanel : Bool}

lemma wellFormed_of_append {front rest : List TouchEvent} (h : WellFormed (front ++ rest)) :
    WellFormed front := by
  intro id
  obtain ⟨b, hb⟩ := h id
  rw [← follow_eq_some_iff, List.filter_append, follow_append, Option.bind_eq_some_iff] at hb
  obtain ⟨c, hc, -⟩ := hb
  exact ⟨c, follow_eq_some_iff.1 hc⟩

lemma wellFormed_cons {event : TouchEvent} (hwf : WellFormed (s.touches ++ event :: events)) :
    WellFormed (s.touches ++ [event]) ∧
      WellFormed ((s.consume wokePanel event).touches ++ events) := by
  rw [List.append_cons] at hwf
  exact ⟨wellFormed_of_append hwf, by rwa [touches_consume]⟩

/-- A batch that wakes the panel forwards nothing. -/
lemma held_consume {event : TouchEvent} (hheld : ¬ s.Held event.contactId) (id : ℕ) :
    (s.consume true event).Held id ↔ s.Held id := by
  rw [Held, Held, verdictsOf_consume]
  by_cases hid : event.contactId = id
  · subst hid
    have htrue := (consume_suppressed s.panel.wakeContacts event true).2 (.inl rfl)
    rw [if_pos rfl, htrue]
    refine iff_of_false ?_ hheld
    simp
  · rw [if_neg hid, List.append_nil]

lemma sound_batch (h : ∀ id, Sound s id) (hwf : WellFormed (s.touches ++ events))
    (hheld : wokePanel = true → ∀ e ∈ events, ¬ s.Held e.contactId) (id : ℕ) :
    Sound (events.foldl (consume wokePanel) s) id := by
  induction events generalizing s with
  | nil => exact h id
  | cons event events ih =>
    obtain ⟨hfirst, hrest⟩ := @wellFormed_cons _ _ wokePanel _ hwf
    have hevent : wokePanel = true → ¬ s.Held event.contactId := fun hwoke =>
      hheld hwoke event List.mem_cons_self
    refine ih (sound_consume h hfirst hevent) hrest fun hwoke e he => ?_
    subst hwoke
    rw [held_consume (hevent rfl)]
    exact hheld rfl e (List.mem_cons_of_mem event he)

lemma verdictsOf_foldl (s : WakeRun) (events : List TouchEvent) (id : ℕ) :
    s.verdictsOf id <+: (events.foldl (consume wokePanel) s).verdictsOf id := by
  induction events generalizing s with
  | nil => exact List.prefix_rfl
  | cons event events ih =>
    refine List.IsPrefix.trans ?_ (ih (s.consume wokePanel event))
    rw [verdictsOf_consume]
    exact List.prefix_append _ _

/-- If no contact is split by a batch that wakes the panel, no forwarded one was in it. -/
lemma not_held_of_keepsLabel (h : ∀ id, Sound s id) (hwf : WellFormed (s.touches ++ events))
    (hkeeps : ∀ id, KeepsLabel TouchEvent.role
      ((events.foldl (consume true) s).verdictsOf id)) :
    ∀ e ∈ events, ¬ s.Held e.contactId := by
  induction events generalizing s with
  | nil => simp
  | cons event events ih =>
    obtain ⟨hfirst, hrest⟩ := @wellFormed_cons _ _ true _ hwf
    have hevent : ¬ s.Held event.contactId := by
      have hfront : (s.consume true event).verdictsOf event.contactId <+:
          ((event :: events).foldl (consume true) s).verdictsOf event.contactId :=
        verdictsOf_foldl (s.consume true event) events event.contactId
      have hlabel := (hkeeps event.contactId).part hfront.isInfix
      exact (keepsLabel_consume (h _) hfirst).1 hlabel rfl
    have hlater := ih (sound_consume h hfirst fun _ => hevent) hrest hkeeps
    intro e he
    rcases List.mem_cons.1 he with rfl | he
    · exact hevent
    · rw [← held_consume hevent]
      exact hlater e he

end Batch

/-! ## Runs -/

lemma unsplit_of_sound {s : WakeRun} (h : ∀ id, Sound s id) : Unsplit s where
  whole := fun id => by
    obtain ⟨b, hb⟩ := (h id).episodes
    exact uniformEpisodes_iff.2 ⟨⟨b, follow_eq_some_iff.1 hb⟩, (h id).keeps⟩
  recorded := fun id hid => by
    obtain ⟨v, hv, hdown, -⟩ := (h id).recorded.1 hid
    exact ⟨v, hv, hdown⟩
  released := fun id hdown => by
    obtain ⟨b, hb⟩ := (h id).episodes
    have hforwarded := follow_getLast? (follow_filter_label false hb (h id).keeps)
    have hopen := follow_getLast? hb
    have htrue := hforwarded.2 hdown
    rw [Bool.and_eq_true] at htrue
    exact hopen.1 htrue.1

/-- The touches of a step leave every contact well formed. -/
def Valid (s : WakeRun) : PanelStep → Prop
  | .touches events => WellFormed (s.touches ++ events)
  | .activity => True
  | .idle _ => True

lemma touches_foldl (s : WakeRun) (wokePanel : Bool) (events : List TouchEvent) :
    (events.foldl (consume wokePanel) s).touches = s.touches ++ events := by
  induction events generalizing s with
  | nil => simp
  | cons event events ih => rw [List.foldl_cons, ih, touches_consume, List.append_assoc]; rfl

lemma touches_step (s : WakeRun) (step : PanelStep) :
    (s.step step).touches = s.touches ++ touchesOf [step] := by
  cases step with
  | touches events =>
    rw [WakeRun.step]
    split_ifs with hempty
    · simp [touchesOf, List.isEmpty_iff.1 hempty]
    · rw [touches_foldl]
      simp [touchesOf, touches]
  | activity => simp [WakeRun.step, touchesOf, touches]
  | idle elapsed => simp [WakeRun.step, touchesOf, touches]

lemma meets_valid {s : WakeRun} {steps : List PanelStep}
    (hwf : WellFormed (s.touches ++ touchesOf steps)) : Meets step Valid s steps := by
  induction steps generalizing s with
  | nil => trivial
  | cons first steps ih =>
    have hsplit : touchesOf (first :: steps) = touchesOf [first] ++ touchesOf steps := by
      cases first <;> simp [touchesOf]
    rw [hsplit, ← List.append_assoc] at hwf
    refine ⟨?_, ih (by rwa [touches_step])⟩
    cases first with
    | touches events =>
      have hfront := wellFormed_of_append hwf
      rwa [touchesOf, touchesOf, List.append_nil] at hfront
    | activity => trivial
    | idle elapsed => trivial

lemma Sound.congr {s t : WakeRun} {id : ℕ} (h : Sound s id) (hv : t.verdicts = s.verdicts)
    (hw : t.panel.wakeContacts = s.panel.wakeContacts) : Sound t id := by
  have hverdicts : t.verdictsOf id = s.verdictsOf id := by
    rw [verdictsOf, hv, verdictsOf]
  exact ⟨hverdicts ▸ h.episodes, hverdicts ▸ h.keeps, by rw [hw, hverdicts]; exact h.recorded⟩

/-- A step keeps the verdicts and the recorded contacts in agreement, if no contact that was
forwarded wakes the panel. -/
lemma sound_step {s : WakeRun} {a : PanelStep} (h : ∀ id, Sound s id) (hv : Valid s a)
    (hheld : NoHeldContact s a) (id : ℕ) : Sound (s.step a) id := by
  cases a with
  | touches events =>
    rw [step]
    split_ifs with hempty
    · exact h id
    · exact sound_batch (s := ⟨s.panel.wake.1, s.verdicts⟩) (fun id => (h id).congr rfl rfl)
        hv (fun hwoke => hheld (of_decide_eq_true hwoke)) id
  | activity => exact (h id).congr rfl rfl
  | idle elapsed =>
    refine (h id).congr rfl ?_
    show (s.panel.updateIdleBacklight elapsed).wakeContacts = _
    rw [WakePanel.updateIdleBacklight]
    split_ifs <;> rfl

/-- If a step splits no contact, no contact that was forwarded has woken the panel. -/
lemma noHeldContact_of_unsplit {s : WakeRun} {a : PanelStep} (h : ∀ id, Sound s id)
    (hv : Valid s a) (hunsplit : Unsplit (s.step a)) : NoHeldContact s a := by
  cases a with
  | touches events =>
    intro hoff e he
    have hempty : events.isEmpty = false := by
      cases events with
      | nil => simp at he
      | cons event events => rfl
    have hstep : s.step (.touches events) =
        events.foldl (consume true) ⟨s.panel.wake.1, s.verdicts⟩ := by
      simp [step, hempty, WakePanel.wake, hoff]
    refine not_held_of_keepsLabel (s := ⟨s.panel.wake.1, s.verdicts⟩)
      (fun id => (h id).congr rfl rfl) hv (fun id => ?_) e he
    rw [← hstep]
    exact (uniformEpisodes_iff.1 (hunsplit.whole id)).2
  | activity => trivial
  | idle elapsed => trivial

lemma sound_new (id : ℕ) : Sound new id where
  episodes := ⟨false, rfl⟩
  keeps := List.isChain_nil
  recorded := by simp [new, verdictsOf]

/-- If the touches are well formed for each contact, no state of a run has a split contact
exactly if no batch that wakes the panel has an event of a contact that was forwarded and is
still down. -/
theorem unsplit_iff_noHeldContact {steps : List PanelStep} (hwf : WellFormed (touchesOf steps)) :
    (∀ front, front <+: steps → Unsplit (after front)) ↔ Meets step NoHeldContact new steps :=
  forall_prefix_iff_meets_of_invariant (P := fun s => ∀ id, Sound s id)
    (fun _ h => unsplit_of_sound h) (fun _ _ h hv hheld id => sound_step h hv hheld id)
    (fun _ _ h hv hunsplit => noHeldContact_of_unsplit h hv hunsplit) sound_new
    (meets_valid hwf)

/-- A touch of contact 7. -/
def touch (phase : TouchPhase) : TouchEvent := ⟨phase, 7, 0, 0, 0⟩

lemma wellFormed_tap : WellFormed [touch .down, touch .up] := by
  intro id
  refine ⟨false, follow_eq_some_iff.1 ?_⟩
  by_cases hid : 7 = id
  · subst hid
    rfl
  · simp [touch, hid]

/-- A tap that wakes the panel is suppressed as a whole. -/
theorem unsplit_iff_noHeldContact_tap :
    (∀ front, front <+: [.idle 60, .touches [touch .down], .touches [touch .up]] →
        Unsplit (after front)) ↔
      Meets step NoHeldContact new [.idle 60, .touches [touch .down], .touches [touch .up]] :=
  unsplit_iff_noHeldContact wellFormed_tap

/-- A finger is held still until the panel goes dark, and its release wakes the panel. -/
theorem not_unsplit_held :
    ¬ ∀ steps, WellFormed (touchesOf steps) → Unsplit (after steps) := by
  intro h
  have hunsplit := h [.touches [touch .down], .idle 60, .touches [touch .up]] wellFormed_tap
  have hkeeps := (uniformEpisodes_iff.1 (hunsplit.whole 7)).2
  have hverdicts : (after [.touches [touch .down], .idle 60, .touches [touch .up]]).verdictsOf 7 =
      [(touch .down, false), (touch .up, true)] := by
    decide
  rw [hverdicts] at hkeeps
  have hlabel := (List.isChain_cons_cons.1 hkeeps).1 (by decide)
  exact Bool.false_ne_true hlabel

end WakeRun

end TouchBar.Hardware
