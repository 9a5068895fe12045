import TouchBar.Layout.Resolve
import TouchBar.Model.Compose

/-!
# The composition controller

The controller owns the context, the manual profile choice and the profile leases,
composes the effective profile on every change, and shows the result at once or,
while a touch is captured, keeps it pending.  `apply` first changes the selection
state and restores it if the composition fails.

Generation and sequence counters are `u64` with `wrapping_add(1).max(1)`.
-/

namespace TouchBar.Model

open TouchBar.Rust TouchBar.Layout Outcome

structure ProfileRule where
  profile : ProfileId
  priority : ℤ
  predicate : ContextPredicate

structure ProfileSelector where
  fallback : ProfileId
  rules : List ProfileRule

/-- The best matching rule: highest priority, then the earlier rule. -/
def ProfileSelector.select (selector : ProfileSelector) (context : ContextSnapshot) : ProfileId :=
  let candidates := selector.rules.zipIdx.filter fun rule => rule.1.predicate.matchesContext context
  match maxByKey (fun rule => toLex (rule.1.priority, OrderDual.toDual rule.2)) candidates with
  | some rule => rule.1.profile
  | none => selector.fallback

structure ControlOwner where
  value : ℕ
deriving DecidableEq, Repr

instance : LinearOrder ControlOwner :=
  LinearOrder.lift' ControlOwner.value fun a b h => by cases a; cases b; cases h; rfl

/-- A lease is held under an owner and a mode. -/
abbrev ModeKey : Type := ControlOwner ×ₗ String

inductive ControllerCommand where
  | setContext (context : ContextSnapshot)
  | selectProfile (profile : ProfileId)
  | useAutomaticProfile
  | activateMode (owner : ControlOwner) (mode : String) (profile : ProfileId) (priority : ℤ)
  | releaseMode (owner : ControlOwner) (mode : String)
  | releaseOwner (owner : ControlOwner)
deriving DecidableEq

structure CompositionDelta where
  retainedItems : List ItemId
  enteringItems : List ItemId
  leavingItems : List ItemId
deriving DecidableEq, Repr

def itemIds (bar : BarSpec) : BTreeSet ItemId := .ofList (bar.elements.flatMap collectItemIds)

def CompositionDelta.between (previous : Option BarSpec) (next : BarSpec) : CompositionDelta :=
  let previous :=
    match previous with
    | some bar => itemIds bar
    | none => .empty
  let next := itemIds next
  { retainedItems := (previous.filter next.contains).toList
    enteringItems := (next.filter fun id => !previous.contains id).toList
    leavingItems := (previous.filter fun id => !next.contains id).toList }

structure ProfileCompositionSnapshot where
  generation : ℕ
  contextGeneration : ℕ
  composition : ProfileComposition
  delta : CompositionDelta

structure ProfileLease where
  profile : ProfileId
  priority : ℤ
  sequence : ℕ
deriving DecidableEq, Repr

structure CompositionController where
  catalog : ProfileCatalog
  registry : Registry
  selector : ProfileSelector
  context : ContextSnapshot
  manualProfile : Option ProfileId
  modes : BTreeMap ModeKey ProfileLease
  current : ProfileCompositionSnapshot
  pending : Option ProfileCompositionSnapshot
  capturedContacts : BTreeSet ℕ
  nextGeneration : ℕ
  nextModeSequence : ℕ

/-- `counter.wrapping_add(1).max(1)`. -/
def bump (counter : ℕ) : ℕ := max ((counter + 1) % U64.size) 1

/-- The loop of `validate_selector`. -/
def validateRules (catalog : ProfileCatalog) : List ProfileRule → Outcome ProfileError Unit
  | [] => ok ()
  | rule :: rules =>
    if (catalog.profile rule.profile).isNone then
      err (.unknownProfile rule.profile)
    else
      validateRules catalog rules

def validateSelector (catalog : ProfileCatalog) (selector : ProfileSelector) :
    Outcome ProfileError Unit :=
  if (catalog.profile selector.fallback).isNone then
    err (.unknownProfile selector.fallback)
  else
    validateRules catalog selector.rules

namespace CompositionController

def new (catalog : ProfileCatalog) (registry : Registry) (selector : ProfileSelector)
    (context : ContextSnapshot) : Outcome ProfileError CompositionController := do
  catalog.validate registry
  validateSelector catalog selector
  let composition ← catalog.compose registry context (selector.select context)
  return {
    catalog := catalog
    registry := registry
    selector := selector
    context := context
    manualProfile := none
    modes := .empty
    current := ⟨1, context.generation, composition, .between none composition.bar⟩
    pending := none
    capturedContacts := .empty
    nextGeneration := 2
    nextModeSequence := 1 }

variable (c : CompositionController)

def effectiveProfile : ProfileId :=
  match c.manualProfile with
  | some profile => profile
  | none =>
    match maxByKey (fun lease => toLex (lease.priority, lease.sequence)) c.modes.values with
    | some lease => lease.profile
    | none => c.selector.select c.context

def buildSnapshot : Outcome ProfileError ProfileCompositionSnapshot := do
  let composition ← c.catalog.compose c.registry c.context c.effectiveProfile
  return ⟨c.nextGeneration, c.context.generation, composition,
    .between (some c.current.composition.bar) composition.bar⟩

def requireProfile (profile : ProfileId) : Outcome ProfileError Unit :=
  if (c.catalog.profile profile).isSome then ok () else err (.unknownProfile profile)

/-- The first half of `apply`: the changed selection state, and whether it changed.  All
errors here are returned before anything is written. -/
def change : ControllerCommand → Outcome ProfileError (CompositionController × Bool)
  | .setContext context => ok ({ c with context := context }, true)
  | .selectProfile profile => do
    c.requireProfile profile
    return ({ c with manualProfile := some profile }, true)
  | .useAutomaticProfile => ok ({ c with manualProfile := none }, c.manualProfile.isSome)
  | .activateMode owner mode profile priority => do
    c.requireProfile profile
    if Text.trimIsEmpty mode then
      err .emptyModeId
    else
      let lease := ⟨profile, priority, c.nextModeSequence⟩
      return ({ c with
        nextModeSequence := bump c.nextModeSequence
        modes := c.modes.insert (toLex (owner, mode)) lease }, true)
  | .releaseMode owner mode =>
    ok ({ c with modes := c.modes.remove (toLex (owner, mode)) },
      c.modes.containsKey (toLex (owner, mode)))
  | .releaseOwner owner =>
    let modes := c.modes.retain fun key => (ofLex key).1 ≠ owner
    ok ({ c with modes := modes }, modes.len ≠ c.modes.len)

/-- The selection state of an earlier controller. -/
def restore (previous : CompositionController) : CompositionController :=
  { c with
    context := previous.context
    manualProfile := previous.manualProfile
    modes := previous.modes
    nextModeSequence := previous.nextModeSequence }

/-- The end of `apply`: show the candidate, or keep it until the captures end. -/
def commit (candidate : ProfileCompositionSnapshot) :
    Option ProfileCompositionSnapshot × CompositionController :=
  let c := { c with nextGeneration := bump c.nextGeneration }
  if c.capturedContacts.isEmpty then
    (some candidate, { c with current := candidate })
  else
    (none, { c with pending := some candidate })

/-- `apply`: the result, which holds the snapshot if one was committed, and the controller
afterwards. -/
def apply (command : ControllerCommand) :
    Outcome ProfileError (Option ProfileCompositionSnapshot) × CompositionController :=
  match c.change command with
  | err e => (err e, c)
  | .panic => (.panic, c)
  | ok (changed, false) => (ok none, changed)
  | ok (changed, true) =>
    match changed.buildSnapshot with
    | err e => (err e, changed.restore c)
    | .panic => (.panic, changed)
    | ok candidate => (ok (changed.commit candidate).1, (changed.commit candidate).2)

def captureStarted (contact : ℕ) : CompositionController :=
  { c with capturedContacts := c.capturedContacts.insert contact }

/-- `capture_ended`: the snapshot that was committed, if any, and the controller afterwards. -/
def captureEnded (contact : ℕ) : Option ProfileCompositionSnapshot × CompositionController :=
  let c := { c with capturedContacts := c.capturedContacts.remove contact }
  if c.capturedContacts.isEmpty then
    match c.pending with
    | some pending => (some pending, { c with current := pending, pending := none })
    | none => (none, c)
  else
    (none, c)

end CompositionController

end TouchBar.Model
