import TouchBar.Config.Build

/-!
# Live profiles

The session daemon keeps the document of the user, the items that clients have
connected, and a controller built from both.  While a touch is captured nothing is
rebuilt: a new document and a new set of items wait in two slots of their own, and the
controller keeps its own pending snapshot for changes of context and profile.

Every method returns its result and the state afterwards, also when the result is an
error.
-/

namespace TouchBar.Session

open TouchBar.Rust TouchBar.Layout TouchBar.Model TouchBar.Config Outcome

structure LiveProfiles where
  document : ProfileDocument
  context : ContextSnapshot
  controller : Option CompositionController
  current : Option ProfileCompositionSnapshot
  connected : Connected
  pendingConnected : Option Connected
  pendingDocument : Option ProfileDocument
  capturedContacts : BTreeSet ℕ
  manualProfile : Option ProfileId
  nextGeneration : ℕ
  lastBar : Option BarSpec

/-- What a method returns: a result with the snapshot to show, and the state. -/
abbrev LiveResult : Type := Outcome ConfigError (Option ProfileCompositionSnapshot) × LiveProfiles

namespace LiveProfiles

def new (document : ProfileDocument) (context : ContextSnapshot) : LiveProfiles where
  document := document
  context := context
  controller := none
  current := none
  connected := .empty
  pendingConnected := none
  pendingDocument := none
  capturedContacts := .empty
  manualProfile := none
  nextGeneration := 1
  lastBar := none

variable (s : LiveProfiles)

/-- `normalize`, as the state afterwards; the snapshot is its current one. -/
def normalize (snapshot : ProfileCompositionSnapshot) : LiveProfiles :=
  { s with
    nextGeneration := bump s.nextGeneration
    lastBar := some snapshot.composition.bar
    current := some ⟨s.nextGeneration, s.context.generation, snapshot.composition,
      .between s.lastBar snapshot.composition.bar⟩ }

/-- `Ok(raw.map(|snapshot| self.normalize(snapshot)))`. -/
def publish : Option ProfileCompositionSnapshot → LiveResult
  | none => (ok none, s)
  | some snapshot => (ok (s.normalize snapshot).current, s.normalize snapshot)

/-- Passes a command to the controller, if there is one. -/
def command (command : ControllerCommand) : LiveResult :=
  match s.controller with
  | none => (ok none, s)
  | some controller =>
    match controller.apply command with
    | (ok raw, controller) => { s with controller := some controller }.publish raw
    | (err e, controller) => (err (.profile e), { s with controller := some controller })
    | (.panic, controller) => (.panic, { s with controller := some controller })

/-- The end of `rebuild`: the manual profile is selected in the new controller. -/
def install (controller : CompositionController) : LiveResult :=
  match s.manualProfile with
  | none => { s with controller := some controller }.publish (some controller.current)
  | some profile =>
    match controller.apply (.selectProfile profile) with
    | (ok _, controller) =>
      { s with controller := some controller }.publish (some controller.current)
    | (err e, _) => (err (.profile e), s)
    | (.panic, _) => (.panic, s)

def rebuild (connected : Connected) : LiveResult :=
  let s := { s with connected := connected, pendingConnected := none }
  if !s.document.hasRequired connected then
    (ok none, { s with controller := none, current := none, lastBar := some ⟨[], none⟩ })
  else
    match s.document.build connected s.context with
    | ok built => s.install built.controller
    | err e => (err e, s)
    | .panic => (.panic, s)

/-- The manual profile is kept if the document has it. -/
def keepManual (document : ProfileDocument) : Option ProfileId :=
  s.manualProfile.filter fun profile => document.profileIds.any fun id => id = profile.value

def tryInitialize (connected : Connected) : LiveResult :=
  let relevant := s.document.relevant connected
  if relevant = s.connected && s.pendingConnected.isNone then (ok none, s)
  else if !s.capturedContacts.isEmpty then
    (ok none, { s with pendingConnected := some relevant })
  else s.rebuild relevant

/-- The part of `replace_document` that changes the state. -/
def acceptDocument (document : ProfileDocument) (relevant : Connected) : LiveResult :=
  if !s.capturedContacts.isEmpty then
    (ok none,
      { s with pendingDocument := some document, pendingConnected := some relevant })
  else
    { s with document := document, manualProfile := s.keepManual document }.rebuild relevant

def replaceDocument (document : ProfileDocument) (connected : Connected) : LiveResult :=
  match document.validate with
  | err e => (err e, s)
  | .panic => (.panic, s)
  | ok _ =>
    let relevant := document.relevant connected
    if document.hasRequired relevant then
      match document.build relevant s.context with
      | err e => (err e, s)
      | .panic => (.panic, s)
      | ok _ => s.acceptDocument document relevant
    else s.acceptDocument document relevant

def selectProfile (profile : ProfileId) : LiveResult :=
  if !s.document.profileIds.any fun id => id = profile.value then
    (err (.invalid ("unknown profile `" ++ profile.value ++ "`")), s)
  else { s with manualProfile := some profile }.command (.selectProfile profile)

def useAutomaticProfile : LiveResult :=
  { s with manualProfile := none }.command .useAutomaticProfile

def setFact (key : String) (value : ContextValue) : LiveResult :=
  let context : ContextSnapshot :=
    ⟨bump s.context.generation, s.context.facts.insert key value⟩
  { s with context := context }.command (.setContext context)

def captureStarted (contact : ℕ) : LiveProfiles :=
  { s with
    capturedContacts := s.capturedContacts.insert contact
    controller := s.controller.map fun c => c.captureStarted contact }

/-- The waiting document becomes the live one. -/
def promoteDocument : LiveProfiles :=
  match s.pendingDocument with
  | none => s
  | some document =>
    { s with
      pendingDocument := none
      document := document
      manualProfile := s.keepManual document }

/-- The end of `capture_ended` when no contact is left. -/
def settle (snapshot : Option ProfileCompositionSnapshot) : LiveResult :=
  match s.promoteDocument.pendingConnected with
  | some connected => { s.promoteDocument with pendingConnected := none }.rebuild connected
  | none => s.promoteDocument.publish snapshot

/-- The contact is removed here and in the controller. -/
def release (contact : ℕ) : LiveProfiles :=
  { s with
    capturedContacts := s.capturedContacts.remove contact
    controller := s.controller.map fun c => (c.captureEnded contact).2 }

def captureEnded (contact : ℕ) : LiveResult :=
  let snapshot := s.controller.bind fun c => (c.captureEnded contact).1
  if (s.release contact).capturedContacts.isEmpty then (s.release contact).settle snapshot
  else (s.release contact).publish snapshot

/-! ## Calls -/

inductive Call where
  | tryInitialize (connected : Connected)
  | replaceDocument (document : ProfileDocument) (connected : Connected)
  | selectProfile (profile : ProfileId)
  | useAutomaticProfile
  | setFact (key : String) (value : ContextValue)
  | captureStarted (contact : ℕ)
  | captureEnded (contact : ℕ)

/-- The result of a call and the state afterwards. -/
def call : Call → LiveResult
  | .tryInitialize connected => s.tryInitialize connected
  | .replaceDocument document connected => s.replaceDocument document connected
  | .selectProfile profile => s.selectProfile profile
  | .useAutomaticProfile => s.useAutomaticProfile
  | .setFact key value => s.setFact key value
  | .captureStarted contact => (ok none, s.captureStarted contact)
  | .captureEnded contact => s.captureEnded contact

end LiveProfiles

end TouchBar.Session
