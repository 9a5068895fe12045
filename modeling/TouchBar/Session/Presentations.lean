import TouchBar.Lib.Runs
import TouchBar.Rust.Text
import TouchBar.Session.PresentationController

/-!
# Presentation sessions between a plugin and the session daemon

The daemon shows at most one presentation, of any surface.  It answers the begin of a
session by a start or a rejection, and it ends the presentation that it shows at the
request of its plugin or for reasons of its own.  A state here is the controller of one
plugin and the daemon with the requests and the events between them; the other surfaces
only send requests.

Agreement rests on three facts about the requests that the daemon has not read: they begin
the sessions in the order of their numbers, every session that they begin and the plugin
does not keep is also ended in them, and so is a session that the daemon shows.
-/

namespace TouchBar.Session

open Lib TouchBar.Rust

/-! ## The daemon -/

/-- `PresentationKind`. -/
inductive PresentationKind where
  | anchored
  | inPlace
  | slot
  | region
  | fullBar
  deriving DecidableEq, Repr

/-- `valid_presentation_target`. -/
def validPresentationTarget (policy : PresentationKind) (target : String) : Bool :=
  match policy with
  | .slot | .region =>
    !Text.isEmpty target && decide (Text.len target ≤ 128) &&
      Text.headIs target (fun c => c.isLower || c.isDigit) &&
      Text.all target fun c => c.isLower || c.isDigit || ['-', '_', '.'].contains c
  | .anchored | .inPlace | .fullBar => Text.isEmpty target

/-- Why a presentation has ended. -/
inductive EndReason where
  | dismissed (reason : DismissReason)
  | rejected
  deriving DecidableEq, Repr

/-- A request of a surface; a value of an enumeration that the daemon does not know is
`none`, and a lifecycle is whether it is persistent. -/
inductive PresentationRequest where
  | begins (session : ℕ) (policy : Option PresentationKind) (lifecycle : Option Bool)
      (contact : ℕ) (target : String)
  | ends (session : ℕ) (reason : Option EndReason)
  deriving DecidableEq, Repr

/-- An event for a surface. -/
inductive PresentationEvent where
  | started (session : ℕ) (policy : PresentationKind) (persistent : Bool) (contact : ℕ)
      (target : String)
  | ended (session : ℕ) (reason : EndReason)
  /-- A protocol error: "unknown presentation dismiss reason". -/
  | postError
  deriving DecidableEq, Repr

/-- `ActivePresentation`. -/
structure ActivePresentation where
  surface : ℕ
  sessionId : ℕ
  persistent : Bool
  policy : PresentationKind
  target : String
  deriving DecidableEq, Repr

/-- What the daemon finds when it is asked to present. -/
structure PresentAnswers where
  /-- The surface has captured the contact. -/
  captured : Bool
  /-- The surface is visible and has an expanded size. -/
  available : Bool
  /-- The presentation can be laid out. -/
  applies : Bool
  deriving DecidableEq, Repr

/-- The part of the state of the daemon that presentations use. -/
structure Presentations where
  active : Option ActivePresentation
  /-- `last_presentation_session` of each surface. -/
  lastSession : ℕ → ℕ

namespace Presentations

/-- `reject_presentation`. -/
def reject (surface session : ℕ) : List (ℕ × PresentationEvent) :=
  if session ≠ 0 then [(surface, .ended session .rejected)] else []

/-- `present`. -/
def present (d : Presentations) (surface session contact : ℕ) (persistent : Bool)
    (policy : PresentationKind) (target : String) (answers : PresentAnswers) :
    Presentations × List (ℕ × PresentationEvent) :=
  if !persistent && !answers.captured then (d, reject surface session)
  else if (persistent && contact != 0) || (!persistent && contact == 0) then
    (d, reject surface session)
  else if d.active.isSome then (d, reject surface session)
  else if !answers.available then (d, reject surface session)
  else if !answers.applies then ({ d with active := none }, reject surface session)
  else
    ({ d with active := some ⟨surface, session, persistent, policy, target⟩ },
      [(surface, .started session policy persistent contact target)])

/-- `restore_compact_with_reason`. -/
def restoreCompactWithReason (d : Presentations) (reason : EndReason) :
    Presentations × List (ℕ × PresentationEvent) :=
  match d.active with
  | none => (d, [])
  | some presentation =>
    ({ d with active := none }, [(presentation.surface, .ended presentation.sessionId reason)])

/-- A surface has this session active. -/
def Shows (d : Presentations) (surface session : ℕ) : Prop :=
  ∃ presentation, d.active = some presentation ∧ presentation.surface = surface ∧
    presentation.sessionId = session

instance (d : Presentations) (surface session : ℕ) : Decidable (d.Shows surface session) :=
  decidable_of_iff (d.active.any fun presentation =>
      decide (presentation.surface = surface ∧ presentation.sessionId = session)) <| by
    cases h : d.active <;> simp [Shows, h]

/-- The handler of `BeginPresentation`. -/
def beginPresentation (d : Presentations) (surface session : ℕ)
    (policy : Option PresentationKind) (lifecycle : Option Bool) (contact : ℕ) (target : String)
    (answers : PresentAnswers) : Presentations × List (ℕ × PresentationEvent) :=
  if d.Shows surface session then (d, [])
  else if session = 0 ∨ session ≤ d.lastSession surface then (d, reject surface session)
  else
    let d := { d with lastSession := Function.update d.lastSession surface session }
    match policy with
    | none => (d, reject surface session)
    | some policy =>
      if !validPresentationTarget policy target then (d, reject surface session)
      else
        match lifecycle with
        | none => (d, reject surface session)
        | some persistent => d.present surface session contact persistent policy target answers

/-- The handler of `EndPresentation`. -/
def endPresentation (d : Presentations) (surface session : ℕ) (reason : Option EndReason) :
    Presentations × List (ℕ × PresentationEvent) :=
  if ¬ d.Shows surface session then (d, [])
  else
    match reason with
    | some reason => d.restoreCompactWithReason reason
    | none => (d, [(surface, .postError)])

/-- A request of a surface. -/
def handle (d : Presentations) (surface : ℕ) (request : PresentationRequest)
    (answers : PresentAnswers) : Presentations × List (ℕ × PresentationEvent) :=
  match request with
  | .begins session policy lifecycle contact target =>
    d.beginPresentation surface session policy lifecycle contact target answers
  | .ends session reason => d.endPresentation surface session reason

end Presentations

/-! ### What a request can do -/

namespace Presentations

/-- An event is the start of a session. -/
def IsStart (session : ℕ) (event : PresentationEvent) : Prop :=
  ∃ policy persistent contact target, event = .started session policy persistent contact target

/-- A begin of a session is rejected, or it is the first presentation and starts. -/
structure Begins (d : Presentations) (surface session : ℕ)
    (result : Presentations × List (ℕ × PresentationEvent)) : Prop where
  lastSession : result.1.lastSession = Function.update d.lastSession surface session
  outcome :
    result.1.active = d.active ∧ result.2 = [(surface, .ended session .rejected)] ∨
    d.active = none ∧ result.1.Shows surface session ∧
      ∃ start, IsStart session start ∧ result.2 = [(surface, start)]

lemma reject_of_ne_zero {session : ℕ} (h : session ≠ 0) (surface : ℕ) :
    reject surface session = [(surface, .ended session .rejected)] := by
  rw [reject, if_pos h]

lemma present_begins (d : Presentations) (surface : ℕ) {session : ℕ} (h : session ≠ 0)
    (contact : ℕ) (persistent : Bool) (policy : PresentationKind) (target : String)
    (answers : PresentAnswers) :
    Begins d surface session
      (present { d with lastSession := Function.update d.lastSession surface session } surface
        session contact persistent policy target answers) := by
  rw [present, reject_of_ne_zero h]
  split_ifs with hcaptured hcontact hactive havailable happlies
  · exact ⟨rfl, .inl ⟨rfl, rfl⟩⟩
  · exact ⟨rfl, .inl ⟨rfl, rfl⟩⟩
  · exact ⟨rfl, .inl ⟨rfl, rfl⟩⟩
  · exact ⟨rfl, .inl ⟨rfl, rfl⟩⟩
  · -- what is shown has been tried and taken away again
    have hnone : d.active = none := by simpa using hactive
    exact ⟨rfl, .inl ⟨hnone.symm, rfl⟩⟩
  · have hnone : d.active = none := by simpa using hactive
    refine ⟨rfl, .inr ⟨hnone, ⟨_, rfl, rfl, rfl⟩, _, ?_, rfl⟩⟩
    exact ⟨policy, persistent, contact, target, rfl⟩

/-- A begin of a session that is newer than all of the surface. -/
lemma beginPresentation_begins {d : Presentations} {surface session : ℕ}
    (hshows : ¬ d.Shows surface session) (hnew : d.lastSession surface < session)
    (policy : Option PresentationKind) (lifecycle : Option Bool) (contact : ℕ) (target : String)
    (answers : PresentAnswers) :
    Begins d surface session
      (d.beginPresentation surface session policy lifecycle contact target answers) := by
  have hne : session ≠ 0 := by omega
  have hfresh : ¬ (session = 0 ∨ session ≤ d.lastSession surface) := by omega
  rw [beginPresentation, if_neg hshows, if_neg hfresh, reject_of_ne_zero hne]
  cases policy with
  | none => exact ⟨rfl, .inl ⟨rfl, rfl⟩⟩
  | some policy =>
    dsimp only
    split_ifs
    · exact ⟨rfl, .inl ⟨rfl, rfl⟩⟩
    · cases lifecycle with
      | none => exact ⟨rfl, .inl ⟨rfl, rfl⟩⟩
      | some persistent =>
        exact present_begins d surface hne contact persistent policy target answers

/-- For a surface, a step of the daemon changes nothing. -/
structure Ignores (d : Presentations) (surface : ℕ)
    (result : Presentations × List (ℕ × PresentationEvent)) : Prop where
  lastSession : result.1.lastSession surface = d.lastSession surface
  shows_iff : ∀ session, result.1.Shows surface session ↔ d.Shows surface session
  silent : result.2.filter (fun event => decide (event.1 = surface)) = []

lemma Ignores.refl (d : Presentations) (surface : ℕ) : Ignores d surface (d, []) :=
  ⟨rfl, fun _ => Iff.rfl, rfl⟩

lemma not_shows_of_none {d : Presentations} (h : d.active = none) (surface session : ℕ) :
    ¬ d.Shows surface session := by
  rintro ⟨presentation, hactive, -⟩
  rw [h] at hactive
  cases hactive

lemma reject_silent {surface other : ℕ} (h : other ≠ surface) (session : ℕ) :
    (reject other session).filter (fun event => decide (event.1 = surface)) = [] := by
  rw [reject]
  split_ifs <;> simp [h]

lemma Begins.ignores {d : Presentations} {surface other session : ℕ} (h : other ≠ surface)
    {result : Presentations × List (ℕ × PresentationEvent)} (hb : Begins d other session result) :
    Ignores d surface result := by
  refine ⟨by rw [hb.lastSession, Function.update_of_ne h.symm], fun t => ?_, ?_⟩
  · rcases hb.outcome with ⟨hactive, -⟩ | ⟨hnone, ⟨shown, hactive, hsurface, -⟩, -⟩
    · rw [Shows, Shows, hactive]
    · refine iff_of_false ?_ (not_shows_of_none hnone surface t)
      rintro ⟨presentation, hpresentation, hother, -⟩
      rw [hactive] at hpresentation
      cases hpresentation
      exact h (hsurface.symm.trans hother)
  · rcases hb.outcome with ⟨-, hevents⟩ | ⟨-, -, start, -, hevents⟩
    · simp [hevents, h]
    · simp [hevents, h]

/-- A request of another surface. -/
lemma handle_other {surface other : ℕ} (h : other ≠ surface) (d : Presentations)
    (request : PresentationRequest) (answers : PresentAnswers) :
    Ignores d surface (d.handle other request answers) := by
  cases request with
  | begins session policy lifecycle contact target =>
    rw [handle]
    by_cases hshows : d.Shows other session
    · rw [beginPresentation, if_pos hshows]
      exact .refl d surface
    · by_cases hold : session ≤ d.lastSession other
      · rw [beginPresentation, if_neg hshows, if_pos (.inr hold)]
        exact ⟨rfl, fun _ => Iff.rfl, reject_silent h session⟩
      · exact (beginPresentation_begins hshows (not_le.1 hold) _ _ _ _ _).ignores h
  | ends session reason =>
    rw [handle, endPresentation.eq_def]
    split_ifs with hshows
    · cases reason with
      | none => exact ⟨rfl, fun _ => Iff.rfl, by simp [h]⟩
      | some reason =>
        obtain ⟨presentation, hactive, hsurface, -⟩ := hshows
        dsimp only
        rw [restoreCompactWithReason, hactive]
        refine ⟨rfl, fun t => ?_, by simp [hsurface, h]⟩
        refine iff_of_false (not_shows_of_none rfl surface t) ?_
        rintro ⟨shown, hshown, hother, -⟩
        rw [hactive] at hshown
        cases hshown
        exact h (hsurface.symm.trans hother)
    · exact .refl d surface

/-- A step of the daemon ends the session of a surface. -/
structure Finishes (d : Presentations) (surface session : ℕ) (reason : EndReason)
    (result : Presentations × List (ℕ × PresentationEvent)) : Prop where
  before : d.Shows surface session
  lastSession : result.1.lastSession surface = d.lastSession surface
  after : ∀ t, ¬ result.1.Shows surface t
  events : result.2 = [(surface, .ended session reason)]

lemma restore_finishes {d : Presentations} {surface session : ℕ} (h : d.Shows surface session)
    (reason : EndReason) :
    Finishes d surface session reason (d.restoreCompactWithReason reason) := by
  have hbefore := h
  obtain ⟨presentation, hactive, rfl, rfl⟩ := h
  rw [restoreCompactWithReason, hactive]
  exact ⟨hbefore, rfl, fun t => not_shows_of_none rfl _ t, rfl⟩

lemma restore_ignores {d : Presentations} {surface : ℕ} (h : ∀ t, ¬ d.Shows surface t)
    (reason : EndReason) : Ignores d surface (d.restoreCompactWithReason reason) := by
  rw [restoreCompactWithReason]
  cases hactive : d.active with
  | none => exact .refl d surface
  | some presentation =>
    refine ⟨rfl, fun t => iff_of_false (not_shows_of_none rfl surface t) (h t), ?_⟩
    have hne : presentation.surface ≠ surface := fun heq => h _ ⟨presentation, hactive, heq, rfl⟩
    simp [hne]

end Presentations

/-! ## The plugin and the daemon -/

/-- `encode_session_policy`. -/
def encodeSessionPolicy : PresentationPolicy → PresentationKind × String
  | .anchored => (.anchored, "")
  | .inPlace => (.inPlace, "")
  | .slot target => (.slot, target)
  | .region target => (.region, target)
  | .fullBar => (.fullBar, "")

/-- `encode_session_lifecycle`: whether it is persistent, and the contact. -/
def encodeSessionLifecycle : PresentationLifecycle → Bool × ℕ
  | .transient contact => (false, contact)
  | .persistent => (true, 0)

/-- `send_presentation_request`, for a command. -/
def PresentationCommand.request : PresentationCommand → PresentationRequest
  | .present session policy lifecycle =>
    .begins session (some (encodeSessionPolicy policy).1)
      (some (encodeSessionLifecycle lifecycle).1) (encodeSessionLifecycle lifecycle).2
      (encodeSessionPolicy policy).2
  | .dismiss session reason => .ends session (some (.dismissed reason))

/-- The controller of one plugin and the daemon, with the messages between them. -/
structure PresentationLink (Page : Type*) where
  /-- The surface of the plugin. -/
  surface : ℕ
  controller : PresentationController Page
  toDaemon : List PresentationRequest
  daemon : Presentations
  toPlugin : List PresentationEvent
  /-- How many sessions the plugin has begun. -/
  presented : ℕ
  /-- The sessions whose begin the daemon has read. -/
  begun : List ℕ
  /-- All events for the plugin so far. -/
  emitted : List PresentationEvent

/-- A step of one side. -/
inductive PresentationStep (Page : Type*) where
  /-- A call on the controller. -/
  | call (call : PluginCall Page)
  /-- The plugin sends its next command. -/
  | send
  /-- The daemon reads the next request of the plugin. -/
  | receive (answers : PresentAnswers)
  /-- The daemon reads a request of another surface. -/
  | other (surface : ℕ) (request : PresentationRequest) (answers : PresentAnswers)
  /-- The daemon dismisses what it shows. -/
  | restore (reason : DismissReason)
  /-- The plugin reads the next event. -/
  | deliver

/-- The session that a request begins. -/
def PresentationRequest.beginsSession : PresentationRequest → Option ℕ
  | .begins session .. => some session
  | .ends .. => none

/-- The session that a request ends. -/
def PresentationRequest.endsSession : PresentationRequest → Option ℕ
  | .begins .. => none
  | .ends session _ => some session

/-- The session of an event. -/
def PresentationEvent.session? : PresentationEvent → Option ℕ
  | .started session .. => some session
  | .ended session _ => some session
  | .postError => none

namespace PresentationLink

variable {Page : Type*}

/-- Nothing has happened. -/
def new (surface : ℕ) : PresentationLink Page where
  surface := surface
  controller := .default
  toDaemon := []
  daemon := ⟨none, fun _ => 0⟩
  toPlugin := []
  presented := 0
  begun := []
  emitted := []

/-- The daemon takes a step; the events for the plugin are sent to it. -/
def emit (s : PresentationLink Page) (result : Presentations × List (ℕ × PresentationEvent)) :
    PresentationLink Page :=
  let events := (result.2.filter fun event => decide (event.1 = s.surface)).map Prod.snd
  { s with
      daemon := result.1
      toPlugin := s.toPlugin ++ events
      emitted := s.emitted ++ events }

/-- A step. -/
def step (s : PresentationLink Page) : PresentationStep Page → PresentationLink Page
  | .call call =>
    { s with
        controller := s.controller.call call
        presented := match call with
          | .present .. => s.presented + 1
          | _ => s.presented }
  | .send =>
    match s.controller.takeCommand with
    | (_, none) => s
    | (controller, some command) =>
      { s with controller := controller, toDaemon := s.toDaemon ++ [command.request] }
  | .receive answers =>
    match s.toDaemon with
    | [] => s
    | request :: rest =>
      { s with
          toDaemon := rest
          begun := s.begun ++ request.beginsSession.toList }.emit
        (s.daemon.handle s.surface request answers)
  | .other surface request answers =>
    if surface = s.surface then s else s.emit (s.daemon.handle surface request answers)
  | .restore reason => s.emit (s.daemon.restoreCompactWithReason (.dismissed reason))
  | .deliver =>
    match s.toPlugin with
    | [] => s
    | .ended session _ :: rest =>
      { s with toPlugin := rest, controller := (s.controller.compositorDismissed session).1 }
    | _ :: rest => { s with toPlugin := rest }

/-- The events of a session. -/
def historyOf (events : List PresentationEvent) (session : ℕ) : List PresentationEvent :=
  events.filter fun event => decide (event.session? = some session)

/-- The events of a session so far. -/
def history (s : PresentationLink Page) (session : ℕ) : List PresentationEvent :=
  historyOf s.emitted session

/-- What the two sides promise each other. -/
structure Lawful (s : PresentationLink Page) : Prop where
  /-- A begin that the daemon has read, of a session that it does not show, has been answered
  by exactly one end: at once, as rejected, or after one start. -/
  answered : ∀ t ∈ s.begun, ¬ s.daemon.Shows s.surface t →
    s.history t = [.ended t .rejected] ∨
      ∃ start reason, Presentations.IsStart t start ∧ s.history t = [start, .ended t reason]
  /-- A session that it shows has been started and not ended. -/
  showing : ∀ t, s.daemon.Shows s.surface t →
    t ∈ s.begun ∧ ∃ start, Presentations.IsStart t start ∧ s.history t = [start]
  /-- There is no event of any other session. -/
  silent : ∀ t, t ∉ s.begun → s.history t = []
  /-- An end that the plugin reads next leaves any other session, and a newer one in
  particular, active. -/
  unharmed : ∀ t reason rest, s.toPlugin = .ended t reason :: rest →
    ∀ t' ∈ s.controller.current, t' ≠ t → (s.step .deliver).controller.current = some t'
  /-- Once everything has been read, both sides have the same session. -/
  agree : s.controller.commands = [] → s.toDaemon = [] → s.toPlugin = [] →
    ∀ t, s.controller.current = some t ↔ s.daemon.Shows s.surface t

/-! ### The invariant -/

/-- The requests that the daemon has not read. -/
def requests (s : PresentationLink Page) : List PresentationRequest :=
  s.toDaemon ++ s.controller.commands.map PresentationCommand.request

/-- The sessions that some requests begin. -/
def beginsOf (l : List PresentationRequest) : List ℕ :=
  l.filterMap PresentationRequest.beginsSession

/-- The sessions that some requests end. -/
def endsOf (l : List PresentationRequest) : List ℕ :=
  l.filterMap PresentationRequest.endsSession

@[simp] lemma beginsOf_nil : beginsOf [] = [] := rfl

@[simp] lemma endsOf_nil : endsOf [] = [] := rfl

@[simp] lemma beginsOf_begins (session : ℕ) (policy : Option PresentationKind)
    (lifecycle : Option Bool) (contact : ℕ) (target : String) (l : List PresentationRequest) :
    beginsOf (.begins session policy lifecycle contact target :: l) = session :: beginsOf l := rfl

@[simp] lemma beginsOf_ends (session : ℕ) (reason : Option EndReason)
    (l : List PresentationRequest) : beginsOf (.ends session reason :: l) = beginsOf l := rfl

@[simp] lemma endsOf_begins (session : ℕ) (policy : Option PresentationKind)
    (lifecycle : Option Bool) (contact : ℕ) (target : String) (l : List PresentationRequest) :
    endsOf (.begins session policy lifecycle contact target :: l) = endsOf l := rfl

@[simp] lemma endsOf_ends (session : ℕ) (reason : Option EndReason)
    (l : List PresentationRequest) : endsOf (.ends session reason :: l) = session :: endsOf l := rfl

lemma beginsOf_append (l m : List PresentationRequest) :
    beginsOf (l ++ m) = beginsOf l ++ beginsOf m := List.filterMap_append

lemma endsOf_append (l m : List PresentationRequest) :
    endsOf (l ++ m) = endsOf l ++ endsOf m := List.filterMap_append

/-- Every session that some requests begin is kept, or ended by a later one of them. -/
def Closes (kept : Option ℕ) : List PresentationRequest → Prop
  | [] => True
  | .begins session .. :: rest =>
    (kept = some session ∨ session ∈ endsOf rest) ∧ Closes kept rest
  | .ends .. :: rest => Closes kept rest

lemma Closes.append {kept kept' : Option ℕ} {l m : List PresentationRequest} (h : Closes kept l)
    (hkept : ∀ t, kept = some t → kept' = some t ∨ t ∈ endsOf m) (hm : Closes kept' m) :
    Closes kept' (l ++ m) := by
  induction l with
  | nil => exact hm
  | cons request l ih =>
    cases request with
    | ends session reason => exact ih h
    | begins session policy lifecycle contact target =>
      refine ⟨?_, ih h.2⟩
      show kept' = some session ∨ session ∈ endsOf (l ++ m)
      rw [endsOf_append, List.mem_append]
      rcases h.1 with hnow | hlater
      · exact (hkept session hnow).imp id .inr
      · exact .inr (.inl hlater)

lemma Closes.forget {t : ℕ} {l : List PresentationRequest} (h : Closes (some t) l)
    (hnot : t ∉ beginsOf l) (kept : Option ℕ) : Closes kept l := by
  induction l with
  | nil => trivial
  | cons request l ih =>
    cases request with
    | ends session reason => exact ih h hnot
    | begins session policy lifecycle contact target =>
      have hne : t ≠ session ∧ t ∉ beginsOf l := by
        simpa using hnot
      refine ⟨?_, ih h.2 hne.2⟩
      rcases h.1 with hsame | hlater
      · exact absurd (Option.some.inj hsame) hne.1
      · exact .inr hlater

/-- The invariant of a run, but for what the daemon shows. -/
structure Core (s : PresentationLink Page) : Prop where
  /-- The sessions are numbered in the order of their begins. -/
  numbered : s.begun ++ beginsOf s.requests = List.range' 1 s.presented
  next : s.presented + 1 < 2 ^ 32 → s.controller.nextSession = s.presented + 1
  lastSession : s.daemon.lastSession s.surface = s.begun.length
  encoded : ∀ request ∈ s.toDaemon, ∃ command : PresentationCommand, request = command.request
  closes : Closes s.controller.kept s.requests
  /-- The session of the plugin has not been read, or is shown, or its end is on its way. -/
  answers : ∀ t, s.controller.current = some t → t ∈ beginsOf s.requests ∨
    s.daemon.Shows s.surface t ∨ ∃ reason, .ended t reason ∈ s.toPlugin
  delivered : s.toPlugin <:+ s.emitted
  answered : ∀ t ∈ s.begun, ¬ s.daemon.Shows s.surface t →
    s.history t = [.ended t .rejected] ∨
      ∃ start reason, Presentations.IsStart t start ∧ s.history t = [start, .ended t reason]
  showing : ∀ t, s.daemon.Shows s.surface t →
    t ∈ s.begun ∧ ∃ start, Presentations.IsStart t start ∧ s.history t = [start]
  silent : ∀ t, t ∉ s.begun → s.history t = []

/-- The invariant of a run. -/
structure Inv (s : PresentationLink Page) : Prop extends Core s where
  shown : ∀ t, s.daemon.Shows s.surface t → s.controller.kept = some t ∨ t ∈ endsOf s.requests

variable {s : PresentationLink Page}

lemma Core.nodup (h : Core s) : (s.begun ++ beginsOf s.requests).Nodup := by
  rw [h.numbered]
  exact List.nodup_range'

/-- An end that is on its way has been emitted. -/
lemma mem_history {t : ℕ} {reason : EndReason} (hdelivered : s.toPlugin <:+ s.emitted)
    (hmem : .ended t reason ∈ s.toPlugin) : .ended t reason ∈ s.history t :=
  List.mem_filter.2 ⟨hdelivered.subset hmem, by simp [PresentationEvent.session?]⟩

lemma IsStart.ne_ended {t u : ℕ} {start : PresentationEvent} (h : Presentations.IsStart t start)
    (reason : EndReason) : start ≠ .ended u reason := by
  obtain ⟨policy, persistent, contact, target, rfl⟩ := h
  simp

lemma Core.not_shows_of_ended (h : Core s) {t : ℕ} {reason : EndReason}
    (hmem : .ended t reason ∈ s.toPlugin) : ¬ s.daemon.Shows s.surface t := by
  intro hshows
  obtain ⟨-, start, hstart, hhistory⟩ := h.showing t hshows
  have hin := mem_history h.delivered hmem
  rw [hhistory, List.mem_singleton] at hin
  exact IsStart.ne_ended hstart reason hin.symm

lemma Core.begun_of_ended (h : Core s) {t : ℕ} {reason : EndReason}
    (hmem : .ended t reason ∈ s.toPlugin) : t ∈ s.begun := by
  by_contra hnot
  have hin := mem_history h.delivered hmem
  rw [h.silent t hnot] at hin
  cases hin

lemma Inv.lawful (h : Inv s) : Lawful s where
  answered := h.answered
  showing := h.showing
  silent := h.silent
  unharmed := by
    intro t reason rest hnext t' hcurrent hne
    have hkept : (s.controller.compositorDismissed t).1 = s.controller := by
      rw [PresentationController.compositorDismissed, if_pos]
      intro hsame
      rw [PresentationController.current, Option.mem_def, hsame] at hcurrent
      exact hne (Option.some.inj hcurrent).symm
    rw [step, hnext]
    dsimp only
    rw [hkept]
    exact hcurrent
  agree := by
    intro hcommands hrequests hevents t
    have hnone : s.requests = [] := by rw [requests, hcommands, hrequests]; rfl
    constructor
    · intro hcurrent
      rcases h.answers t hcurrent with hbegin | hshows | ⟨reason, hended⟩
      · rw [hnone] at hbegin
        cases hbegin
      · exact hshows
      · rw [hevents] at hended
        cases hended
    · intro hshows
      rcases h.shown t hshows with hkept | hend
      · exact PresentationController.current_of_kept hkept
      · rw [hnone] at hend
        cases hend

lemma inv_new (surface : ℕ) : Inv (new surface : PresentationLink Page) where
  numbered := rfl
  next := fun _ => rfl
  lastSession := rfl
  encoded := by simp [new]
  closes := trivial
  answers := by simp [new, PresentationController.default, PresentationController.current]
  delivered := List.suffix_rfl
  answered := by simp [new]
  showing := fun t h => absurd h (Presentations.not_shows_of_none rfl _ t)
  silent := fun _ _ => rfl
  shown := fun t h => absurd h (Presentations.not_shows_of_none rfl _ t)

/-! ### Steps of the plugin -/

/-- A step of the plugin that queues commands. -/
lemma Inv.queue (h : Inv s) {controller : PresentationController Page} {presented : ℕ}
    (added : List PresentationCommand)
    (hcommands : controller.commands = s.controller.commands ++ added)
    (hbegins : beginsOf (added.map PresentationCommand.request) =
      List.range' (s.presented + 1) (presented - s.presented)) (hle : s.presented ≤ presented)
    (hnext : presented + 1 < 2 ^ 32 → controller.nextSession = presented + 1)
    (hkept : ∀ t, s.controller.kept = some t → controller.kept = some t ∨
      t ∈ endsOf (added.map PresentationCommand.request))
    (hadded : Closes controller.kept (added.map PresentationCommand.request))
    (hcurrent : ∀ t, controller.current = some t → s.controller.current = some t ∨
      t ∈ beginsOf (added.map PresentationCommand.request)) :
    Inv { s with controller := controller, presented := presented } := by
  have hrequests : ({ s with controller := controller, presented := presented } :
      PresentationLink Page).requests =
      s.requests ++ added.map PresentationCommand.request := by
    rw [requests, hcommands, List.map_append, ← List.append_assoc]
    rfl
  refine {
    numbered := ?_
    next := hnext
    lastSession := h.lastSession
    encoded := h.encoded
    closes := ?_
    answers := ?_
    delivered := h.delivered
    answered := h.answered
    showing := h.showing
    silent := h.silent
    shown := ?_ }
  · rw [hrequests, beginsOf_append, ← List.append_assoc]
    show s.begun ++ beginsOf s.requests ++ beginsOf (added.map PresentationCommand.request) = _
    rw [h.numbered, hbegins, ← add_comm 1 s.presented, List.range'_append_1,
      Nat.add_sub_of_le hle]
  · rw [hrequests]
    exact h.closes.append hkept hadded
  · intro t ht
    rw [hrequests, beginsOf_append, List.mem_append]
    rcases hcurrent t ht with hold | hnew
    · exact (h.answers t hold).imp .inl id
    · exact .inl (.inr hnew)
  · intro t ht
    rw [hrequests, endsOf_append, List.mem_append]
    rcases h.shown t ht with hold | hend
    · exact (hkept t hold).imp id .inr
    · exact .inr (.inl hend)

lemma inv_present (h : Inv s) (hlt : s.presented + 1 < 2 ^ 32) (policy : PresentationPolicy)
    (lifecycle : PresentationLifecycle) (dismissal : DismissalPolicy) (root : Page) (now : ℕ) :
    Inv (s.step (.call (.present policy lifecycle dismissal root now))) := by
  have hnext := h.next hlt
  have hid : max s.controller.nextSession 1 = s.presented + 1 := by omega
  refine h.queue ((s.controller.active.toList.map fun previous =>
      PresentationCommand.dismiss previous.id .replaced) ++
        [.present (max s.controller.nextSession 1) policy lifecycle])
    ?_ ?_ (Nat.le_succ _) ?_ ?_ ?_ ?_
  · show s.controller.commands ++ _ ++ _ = _
    rw [List.append_assoc]
  · rw [hid]
    cases s.controller.active <;> simp [PresentationCommand.request]
  · intro hmore
    have hmore' : s.presented + 1 + 1 < 2 ^ 32 := hmore
    show max ((s.controller.nextSession + 1) % 2 ^ 32) 1 = s.presented + 1 + 1
    rw [hnext, Nat.mod_eq_of_lt hmore']
    omega
  · -- the session that was kept is replaced
    intro t ht
    refine .inr ?_
    have hcurrent := PresentationController.current_of_kept ht
    rw [PresentationController.current, Option.map_eq_some_iff] at hcurrent
    obtain ⟨active, hactive, rfl⟩ := hcurrent
    simp [hactive, PresentationCommand.request]
  · have hkept : (s.controller.present policy lifecycle dismissal root now).kept =
        some (max s.controller.nextSession 1) := by
      simp [PresentationController.kept, PresentationController.present]
    show Closes (s.controller.present policy lifecycle dismissal root now).kept _
    rw [hkept]
    cases s.controller.active <;> simp [PresentationCommand.request, Closes]
  · intro t ht
    refine .inr ?_
    obtain rfl : max s.controller.nextSession 1 = t := by
      simpa [PresentationController.call, PresentationController.current,
        PresentationController.present] using ht
    cases s.controller.active <;> simp [PresentationCommand.request]

/-- A call other than `present`. -/
lemma inv_other (h : Inv s) {controller : PresentationController Page}
    (hcase : s.controller.Quiet controller ∨
      ∃ session reason, s.controller.Dismisses controller session reason) :
    Inv { s with controller := controller } := by
  rcases hcase with hquiet | ⟨session, reason, hdismiss⟩
  · exact h.queue [] (by simp [hquiet.commands]) (by simp) le_rfl
      (fun hlt => hquiet.nextSession.trans (h.next hlt))
      (fun t ht => .inl (hquiet.kept.trans ht)) trivial
      (fun t ht => .inl (hquiet.current.symm.trans ht))
  · refine h.queue [.dismiss session reason] hdismiss.commands ?_ le_rfl
      (fun hlt => hdismiss.nextSession.trans (h.next hlt)) (fun t ht => .inr ?_) ?_
      (fun t ht => .inl (hdismiss.current.symm.trans ht))
    · simp [PresentationCommand.request]
    · rw [hdismiss.before] at ht
      simp [PresentationCommand.request, Option.some.inj ht]
    · simp [PresentationCommand.request, Closes]

lemma inv_call (h : Inv s) (k : PluginCall Page)
    (hlt : (s.step (.call k)).presented < 2 ^ 32) : Inv (s.step (.call k)) := by
  obtain ⟨policy, lifecycle, dismissal, root, now, rfl⟩ | hcase :=
    s.controller.call_cases k
  · exact inv_present h hlt policy lifecycle dismissal root now
  · cases k with
    | present policy lifecycle dismissal root now =>
      exact inv_present h hlt policy lifecycle dismissal root now
    | _ => exact inv_other h hcase

lemma inv_send (h : Inv s) : Inv (s.step .send) := by
  rw [step, PresentationController.takeCommand]
  cases hcommands : s.controller.commands with
  | nil => exact h
  | cons command commands =>
    have hrequests : ({ s with
        controller := { s.controller with commands := commands }
        toDaemon := s.toDaemon ++ [command.request] } : PresentationLink Page).requests =
        s.requests := by
      simp [requests, hcommands]
    refine {
      numbered := hrequests ▸ h.numbered
      next := h.next
      lastSession := h.lastSession
      encoded := ?_
      closes := hrequests ▸ h.closes
      answers := hrequests ▸ h.answers
      delivered := h.delivered
      answered := h.answered
      showing := h.showing
      silent := h.silent
      shown := hrequests ▸ h.shown }
    intro request hrequest
    rcases List.mem_append.1 hrequest with hold | hnew
    · exact h.encoded request hold
    · exact ⟨command, List.mem_singleton.1 hnew⟩

lemma inv_deliver (h : Inv s) : Inv (s.step .deliver) := by
  rw [step]
  cases hevents : s.toPlugin with
  | nil => exact h
  | cons event rest =>
    have hdelivered : rest <:+ s.emitted :=
      (List.suffix_cons event rest).trans (hevents ▸ h.delivered)
    -- an event that is not the end of the active session
    have hpass : (∀ t reason, s.controller.current = some t → event ≠ .ended t reason) →
        Inv { s with toPlugin := rest } := by
      intro hother
      refine { h with answers := fun t ht => ?_, delivered := hdelivered }
      rcases h.answers t ht with hbegin | hshows | ⟨reason, hended⟩
      · exact .inl hbegin
      · exact .inr (.inl hshows)
      · rw [hevents] at hended
        rcases List.mem_cons.1 hended with heq | hrest
        · exact absurd heq.symm (hother t reason ht)
        · exact .inr (.inr ⟨reason, hrest⟩)
    cases event with
    | started session policy persistent contact target => exact hpass (by simp)
    | postError => exact hpass (by simp)
    | ended session reason =>
      dsimp only
      rw [PresentationController.compositorDismissed]
      split_ifs with hcurrent
      · refine hpass fun t reason' ht heq => hcurrent ?_
        cases heq
        exact ht
      · -- the session is not kept for anything that is to come
        rw [not_not] at hcurrent
        have hmem : PresentationEvent.ended session reason ∈ s.toPlugin := by simp [hevents]
        have hread := h.begun_of_ended hmem
        have hkept : ∀ t, s.controller.kept = some t → t = session := fun t ht => by
          have hsame := PresentationController.current_of_kept ht
          rw [PresentationController.current, hcurrent] at hsame
          exact (Option.some.inj hsame).symm
        have hcloses : Closes none s.requests := by
          cases hk : s.controller.kept with
          | none => exact hk ▸ h.closes
          | some t =>
            have hclosed := h.closes
            rw [hk, hkept t hk] at hclosed
            refine hclosed.forget (fun hlater => ?_) none
            exact (List.nodup_append.1 h.nodup).2.2 session hread session hlater rfl
        refine {
          numbered := h.numbered
          next := h.next
          lastSession := h.lastSession
          encoded := h.encoded
          closes := hcloses
          answers := by simp [PresentationController.current]
          delivered := hdelivered
          answered := h.answered
          showing := h.showing
          silent := h.silent
          shown := fun t ht => ?_ }
        refine (h.shown t ht).imp (fun hk => ?_) id
        rw [hkept t hk] at ht
        exact absurd ht (h.not_shows_of_ended hmem)

/-! ### Steps of the daemon -/

lemma shows_unique {d : Presentations} {surface t u : ℕ} (ht : d.Shows surface t)
    (hu : d.Shows surface u) : t = u := by
  obtain ⟨presentation, hactive, -, rfl⟩ := ht
  obtain ⟨presentation', hactive', -, rfl⟩ := hu
  rw [hactive] at hactive'
  cases hactive'
  rfl

lemma inv_ignores (h : Inv s) {result : Presentations × List (ℕ × PresentationEvent)}
    (hi : Presentations.Ignores s.daemon s.surface result) : Inv (s.emit result) := by
  have hemit : s.emit result = { s with daemon := result.1 } := by
    simp [emit, hi.silent]
  rw [hemit]
  exact {
    numbered := h.numbered
    next := h.next
    lastSession := hi.lastSession.trans h.lastSession
    encoded := h.encoded
    closes := h.closes
    answers := fun t ht => (h.answers t ht).imp id (.imp (hi.shows_iff t).2 id)
    delivered := h.delivered
    answered := fun t ht hnot => h.answered t ht fun hshows => hnot ((hi.shows_iff t).2 hshows)
    showing := fun t ht => h.showing t ((hi.shows_iff t).1 ht)
    silent := h.silent
    shown := fun t ht => h.shown t ((hi.shows_iff t).1 ht) }

lemma historyOf_self {l : List PresentationEvent} {event : PresentationEvent} {t : ℕ}
    (h : event.session? = some t) : historyOf (l ++ [event]) t = historyOf l t ++ [event] := by
  simp [historyOf, h]

lemma historyOf_other {l : List PresentationEvent} {event : PresentationEvent} {t u : ℕ}
    (h : event.session? = some t) (hne : u ≠ t) :
    historyOf (l ++ [event]) u = historyOf l u := by
  simp [historyOf, h, Ne.symm hne]

lemma suffix_concat {l m : List PresentationEvent} (h : l <:+ m) (event : PresentationEvent) :
    l ++ [event] <:+ m ++ [event] := by
  obtain ⟨front, rfl⟩ := h
  exact ⟨front, by rw [List.append_assoc]⟩

lemma emit_single {daemon : Presentations} {event : PresentationEvent} :
    s.emit (daemon, [(s.surface, event)]) =
      { s with
          daemon := daemon
          toPlugin := s.toPlugin ++ [event]
          emitted := s.emitted ++ [event] } := by
  simp [emit]

/-- What the end of the session that is shown does. -/
lemma Core.finishes (h : Core s) {session : ℕ} {reason : EndReason}
    {result : Presentations × List (ℕ × PresentationEvent)}
    (hf : Presentations.Finishes s.daemon s.surface session reason result) :
    Inv (s.emit result) := by
  obtain ⟨daemon, events⟩ := result
  obtain ⟨hbefore, hlast, hafter, hevents⟩ := hf
  obtain rfl : events = [(s.surface, .ended session reason)] := hevents
  obtain ⟨hread, start, hstart, hhistory⟩ := h.showing session hbefore
  rw [emit_single]
  have hsession : (PresentationEvent.ended session reason).session? = some session := rfl
  refine {
    numbered := h.numbered
    next := h.next
    lastSession := hlast.trans h.lastSession
    encoded := h.encoded
    closes := h.closes
    answers := fun t ht => ?_
    delivered := suffix_concat h.delivered _
    answered := fun t ht _ => ?_
    showing := fun t ht => absurd ht (hafter t)
    silent := fun t ht => ?_
    shown := fun t ht => absurd ht (hafter t) }
  · rcases h.answers t ht with hbegin | hshows | ⟨reason', hended⟩
    · exact .inl hbegin
    · rw [shows_unique hshows hbefore]
      exact .inr (.inr ⟨reason, by simp⟩)
    · exact .inr (.inr ⟨reason', List.mem_append_left _ hended⟩)
  · by_cases hsame : t = session
    · subst hsame
      refine .inr ⟨start, reason, hstart, ?_⟩
      exact (historyOf_self hsession).trans (congrArg (· ++ _) hhistory)
    · have hnot : ¬ s.daemon.Shows s.surface t := fun hshows =>
        hsame (shows_unique hshows hbefore)
      simp only [history, historyOf_other hsession hsame]
      exact h.answered t ht hnot
  · have hne : t ≠ session := by
      rintro rfl
      exact ht hread
    exact (historyOf_other hsession hne).trans (h.silent t ht)

/-- The next begin is of the next session, which is newer than all of the surface. -/
lemma Core.next_begin (h : Core s) {session : ℕ} {rest : List ℕ}
    (hbegins : beginsOf s.requests = session :: rest) :
    session = s.begun.length + 1 ∧ session ∉ s.begun := by
  have hnumbered := h.numbered
  have hnodup := h.nodup
  rw [hbegins] at hnumbered hnodup
  constructor
  · have hat := congrArg (fun l => l[s.begun.length]?) hnumbered
    have hlt : s.begun.length < s.presented := by
      have hlength := congrArg List.length hnumbered
      simp only [List.length_append, List.length_cons, List.length_range'] at hlength
      omega
    simp only [List.getElem?_append_right le_rfl, Nat.sub_self, List.getElem?_cons_zero,
      List.getElem?_range' hlt] at hat
    have hsession := Option.some.inj hat
    omega
  · exact fun hmem => (List.nodup_append.1 hnodup).2.2 session hmem session (by simp) rfl

/-- What a begin that the daemon reads does. -/
lemma inv_begins (h : Inv s) {session : ℕ} {policy : Option PresentationKind}
    {lifecycle : Option Bool} {contact : ℕ} {target : String} {rest : List PresentationRequest}
    (hqueue : s.toDaemon = .begins session policy lifecycle contact target :: rest)
    {result : Presentations × List (ℕ × PresentationEvent)}
    (hb : Presentations.Begins s.daemon s.surface session result) :
    Inv ({ s with toDaemon := rest, begun := s.begun ++ [session] }.emit result) := by
  have hrequests : s.requests = .begins session policy lifecycle contact target ::
      (rest ++ s.controller.commands.map PresentationCommand.request) := by
    rw [requests, hqueue, List.cons_append]
  have hbegins := congrArg beginsOf hrequests
  rw [beginsOf_begins] at hbegins
  obtain ⟨hsession, hunread⟩ := h.toCore.next_begin hbegins
  have hcloses := h.closes
  have hnumbered := h.numbered
  rw [hrequests] at hcloses
  rw [hbegins, List.append_cons] at hnumbered
  have hlast : (Function.update s.daemon.lastSession s.surface session) s.surface =
      (s.begun ++ [session]).length := by
    rw [Function.update_self, List.length_append, List.length_singleton, hsession]
  have hencoded : ∀ request ∈ rest, ∃ command : PresentationCommand, request = command.request :=
    fun request hrequest =>
      h.encoded request (by rw [hqueue]; exact List.mem_cons_of_mem _ hrequest)
  have hsilent := h.silent session hunread
  have hne : ∀ t ∈ s.begun, t ≠ session := fun t ht heq => hunread (heq ▸ ht)
  obtain ⟨daemon, events⟩ := result
  obtain ⟨hupdate, ⟨hactive, hevents⟩ | ⟨hnone, hshows, start, hstart, hevents⟩⟩ := hb
  · -- rejected
    obtain rfl : events = [(s.surface, .ended session .rejected)] := hevents
    have hsame : ∀ t, daemon.Shows s.surface t ↔ s.daemon.Shows s.surface t := fun t => by
      rw [Presentations.Shows, Presentations.Shows]
      exact hactive ▸ Iff.rfl
    have hof : (PresentationEvent.ended session .rejected).session? = some session := rfl
    rw [emit_single (s := { s with toDaemon := rest, begun := s.begun ++ [session] })]
    refine {
      numbered := hnumbered
      next := h.next
      lastSession := (congrFun hupdate _).trans hlast
      encoded := hencoded
      closes := hcloses.2
      answers := fun t ht => ?_
      delivered := suffix_concat h.delivered _
      answered := fun t ht hnot => ?_
      showing := fun t ht => ?_
      silent := fun t ht => ?_
      shown := fun t ht => ?_ }
    · rcases h.answers t ht with hbegin | hold | ⟨reason, hended⟩
      · rw [hbegins] at hbegin
        rcases List.mem_cons.1 hbegin with rfl | hlater
        · exact .inr (.inr ⟨.rejected, by simp⟩)
        · exact .inl hlater
      · exact .inr (.inl ((hsame t).2 hold))
      · exact .inr (.inr ⟨reason, List.mem_append_left _ hended⟩)
    · rcases List.mem_append.1 ht with hold | hnew
      · rw [history, historyOf_other hof (hne t hold)]
        exact h.answered t hold fun hs => hnot ((hsame t).2 hs)
      · obtain rfl := List.mem_singleton.1 hnew
        left
        rw [history, historyOf_self hof]
        exact congrArg (· ++ _) hsilent
    · obtain ⟨hold, hhistory⟩ := h.showing t ((hsame t).1 ht)
      rw [history, historyOf_other hof (hne t hold)]
      exact ⟨List.mem_append_left _ hold, hhistory⟩
    · rw [List.mem_append, List.mem_singleton, not_or] at ht
      rw [history, historyOf_other hof ht.2]
      exact h.silent t ht.1
    · have hold := h.shown t ((hsame t).1 ht)
      rw [hrequests, endsOf_begins] at hold
      exact hold
  · -- started
    obtain rfl : events = [(s.surface, start)] := hevents
    have hof : start.session? = some session := by
      obtain ⟨policy, persistent, contact, target, rfl⟩ := hstart
      rfl
    have honly : ∀ t, daemon.Shows s.surface t → t = session := fun t ht =>
      shows_unique ht hshows
    rw [emit_single (s := { s with toDaemon := rest, begun := s.begun ++ [session] })]
    refine {
      numbered := hnumbered
      next := h.next
      lastSession := (congrFun hupdate _).trans hlast
      encoded := hencoded
      closes := hcloses.2
      answers := fun t ht => ?_
      delivered := suffix_concat h.delivered _
      answered := fun t ht hnot => ?_
      showing := fun t ht => ?_
      silent := fun t ht => ?_
      shown := fun t ht => ?_ }
    · rcases h.answers t ht with hbegin | hold | ⟨reason, hended⟩
      · rw [hbegins] at hbegin
        rcases List.mem_cons.1 hbegin with rfl | hlater
        · exact .inr (.inl hshows)
        · exact .inl hlater
      · exact absurd hold (Presentations.not_shows_of_none hnone _ t)
      · exact .inr (.inr ⟨reason, List.mem_append_left _ hended⟩)
    · rcases List.mem_append.1 ht with hold | hnew
      · rw [history, historyOf_other hof (hne t hold)]
        exact h.answered t hold (Presentations.not_shows_of_none hnone _ t)
      · obtain rfl := List.mem_singleton.1 hnew
        exact absurd hshows hnot
    · obtain rfl := honly t ht
      refine ⟨by simp, start, hstart, ?_⟩
      rw [history, historyOf_self hof]
      exact congrArg (· ++ _) hsilent
    · rw [List.mem_append, List.mem_singleton, not_or] at ht
      rw [history, historyOf_other hof ht.2]
      exact h.silent t ht.1
    · obtain rfl := honly t ht
      exact hcloses.1

lemma inv_receive (h : Inv s) (answers : PresentAnswers) : Inv (s.step (.receive answers)) := by
  rw [step]
  cases hqueue : s.toDaemon with
  | nil => exact h
  | cons request rest =>
    cases request with
    | begins session policy lifecycle contact target =>
      have hbegins : beginsOf s.requests = session ::
          beginsOf (rest ++ s.controller.commands.map PresentationCommand.request) := by
        rw [requests, hqueue]
        rfl
      obtain ⟨hsession, hunread⟩ := h.toCore.next_begin hbegins
      have hshows : ¬ s.daemon.Shows s.surface session := fun hs =>
        hunread (h.showing session hs).1
      have hnew : s.daemon.lastSession s.surface < session := by
        rw [h.lastSession, hsession]
        exact Nat.lt_succ_self _
      exact inv_begins h hqueue
        (Presentations.beginPresentation_begins hshows hnew policy lifecycle contact target answers)
    | ends session reason =>
      have hrequests : s.requests = .ends session reason ::
          (rest ++ s.controller.commands.map PresentationCommand.request) := by
        rw [requests, hqueue]
        rfl
      have hbegins := congrArg beginsOf hrequests
      rw [beginsOf_ends] at hbegins
      have hcloses := h.closes
      rw [hrequests] at hcloses
      have hcore : Core { s with toDaemon := rest } := {
        numbered := by
          rw [← h.numbered, hbegins]
          rfl
        next := h.next
        lastSession := h.lastSession
        encoded := fun request hrequest =>
          h.encoded request (by rw [hqueue]; exact List.mem_cons_of_mem _ hrequest)
        closes := hcloses
        answers := fun t ht => by
          have hold := h.answers t ht
          rw [hbegins] at hold
          exact hold
        delivered := h.delivered
        answered := h.answered
        showing := h.showing
        silent := h.silent }
      have hbegun : s.begun ++ (PresentationRequest.ends session reason).beginsSession.toList =
          s.begun := List.append_nil _
      dsimp only
      rw [hbegun]
      obtain ⟨command, hcommand⟩ := h.encoded _ (by rw [hqueue]; exact List.mem_cons_self)
      rw [Presentations.handle, Presentations.endPresentation.eq_def]
      split_ifs with hshows
      · -- the plugin always says why
        cases command with
        | present session policy lifecycle => cases hcommand
        | dismiss session reason =>
          cases hcommand
          exact hcore.finishes (Presentations.restore_finishes hshows _)
      · refine inv_ignores { hcore with shown := fun t ht => ?_ } (.refl _ _)
        rcases h.shown t ht with hkept | hend
        · exact .inl hkept
        · rw [hrequests, endsOf_ends] at hend
          rcases List.mem_cons.1 hend with rfl | hlater
          · exact absurd ht hshows
          · exact .inr hlater

/-- A step keeps the invariant while fewer than `2 ^ 32` sessions are begun. -/
lemma inv_step (a : PresentationStep Page) (h : s.presented < 2 ^ 32 → Inv s) :
    (s.step a).presented < 2 ^ 32 → Inv (s.step a) := by
  intro hlt
  cases a with
  | call k =>
    have hle : s.presented ≤ (s.step (.call k)).presented := by
      cases k with
      | present policy lifecycle dismissal root now => exact Nat.le_succ _
      | _ => exact le_rfl
    exact inv_call (h (hle.trans_lt hlt)) k hlt
  | send =>
    refine inv_send (h ?_)
    rw [step, PresentationController.takeCommand] at hlt
    cases hcommands : s.controller.commands with
    | nil => simpa [hcommands] using hlt
    | cons command commands => simpa [hcommands] using hlt
  | receive answers =>
    refine inv_receive (h ?_) answers
    rw [step] at hlt
    cases hqueue : s.toDaemon with
    | nil => simpa [hqueue] using hlt
    | cons request rest =>
      rw [hqueue] at hlt
      exact hlt
  | other surface request answers =>
    rw [step] at hlt ⊢
    split_ifs at hlt ⊢ with hown
    · exact h hlt
    · exact inv_ignores (h hlt) (Presentations.handle_other hown s.daemon request answers)
  | restore reason =>
    have hinv := h hlt
    by_cases hshows : ∃ t, s.daemon.Shows s.surface t
    · obtain ⟨t, ht⟩ := hshows
      exact hinv.toCore.finishes (Presentations.restore_finishes ht _)
    · exact inv_ignores hinv (Presentations.restore_ignores (not_exists.1 hshows) _)
  | deliver =>
    refine inv_deliver (h ?_)
    rw [step] at hlt
    cases hevents : s.toPlugin with
    | nil => simpa [hevents] using hlt
    | cons event rest => cases event <;> simpa [hevents] using hlt

/-- Both sides after some steps. -/
def after (surface : ℕ) (steps : List (PresentationStep Page)) : PresentationLink Page :=
  run step (new surface) steps

/-- In every state of every run in which the plugin begins fewer than `2 ^ 32` sessions, each
begin that has been read is answered by one end or is what the daemon shows, an end harms no
other session, and the two sides agree once everything has been read. -/
theorem sessions_agree (surface : ℕ) (steps : List (PresentationStep Page))
    (hpresented : (after surface steps).presented < 2 ^ 32) : Lawful (after surface steps) := by
  have hrun := run_invariant
    (P := fun s : PresentationLink Page => s.presented < 2 ^ 32 → Inv s)
    (fun _ a h => inv_step a h) (fun _ => inv_new surface) steps
  exact (hrun hpresented).lawful

/-- A session is started and replaced by one that is rejected. -/
def replacedSession : List (PresentationStep ℕ) :=
  [.call (.present .anchored .persistent ⟨false, true, true, none, true⟩ 0 0), .send,
    .receive ⟨true, true, true⟩,
    .call (.present .fullBar .persistent ⟨false, true, true, none, true⟩ 1 5), .send,
    .deliver, .send, .receive ⟨true, true, true⟩, .receive ⟨true, false, true⟩, .deliver,
    .deliver]

theorem sessions_agree_replacedSession : Lawful (after 7 replacedSession) :=
  sessions_agree 7 replacedSession (by decide)

example : (after 7 replacedSession).controller.current = none ∧
    (after 7 replacedSession).daemon.active = none := by
  decide

end PresentationLink

end TouchBar.Session
