import TouchBar.Config.Document
import TouchBar.Model.Controller

/-!
# From a document to a controller

`build` turns a document and the items that are connected into the catalog, registry
and selector of the model, and starts a controller on them.  An item that is not
connected is left out of its contributions; a required one is an error.
-/

namespace TouchBar.Config

open TouchBar.Rust TouchBar.Layout TouchBar.Model Outcome

/-! ## Translation to the model -/

def GroupLayoutConfig.toModel : GroupLayoutConfig → GroupLayout
  | .natural => .natural
  | .equalWidth => .equalWidth

def ScopeConfig.toModel : ScopeConfig → ContextScope
  | .global => .global
  | .workspace => .workspace
  | .application => .application
  | .window => .window

def SlotPolicyConfig.toModel : SlotPolicyConfig → SlotPolicy
  | .collect => .collect
  | .select => .select
  | .fixed => .fixed

mutual

def PredicateConfig.toModel : PredicateConfig → ContextPredicate
  | .always => .always
  | .present key => .present key
  | .textEquals key value => .equals key (.text value)
  | .booleanEquals key value => .equals key (.boolean value)
  | .all predicates => .all (PredicateConfig.listToModel predicates)
  | .any predicates => .any (PredicateConfig.listToModel predicates)
  | .not predicate => .not predicate.toModel

def PredicateConfig.listToModel : List PredicateConfig → List ContextPredicate
  | [] => []
  | p :: ps => p.toModel :: PredicateConfig.listToModel ps

end

/-- A slot, whose bindings keep the order of the document. -/
def slotToModel (id : String) (policy : SlotPolicyConfig) (contributions : List String) :
    SlotDefinition :=
  ⟨⟨id⟩, policy.toModel, contributions.zipIdx.map fun (contribution, order) =>
    ⟨⟨contribution⟩, order⟩⟩

mutual

def ProfileGroupElementConfig.toModel : ProfileGroupElementConfig → ProfileGroupElement
  | .slot id policy contributions => .slot (slotToModel id policy contributions)
  | .group id layout spacing visibilityPriority compressionPriority elements =>
    .group ⟨id, ProfileGroupElementConfig.listToModel elements, layout.toModel, spacing,
      visibilityPriority, compressionPriority⟩

def ProfileGroupElementConfig.listToModel :
    List ProfileGroupElementConfig → List ProfileGroupElement
  | [] => []
  | e :: es => e.toModel :: ProfileGroupElementConfig.listToModel es

end

def ProfileElementConfig.toModel : ProfileElementConfig → ProfileElement
  | .slot id policy contributions => .slot (slotToModel id policy contributions)
  | .group id layout spacing visibilityPriority compressionPriority elements =>
    .group ⟨id, ProfileGroupElementConfig.listToModel elements, layout.toModel, spacing,
      visibilityPriority, compressionPriority⟩
  | .fixedSpace width => .fixedSpace width
  | .flexibleSpace minimum weight => .flexibleSpace minimum weight

/-! ## Building -/

/-- The items that are connected, under their qualified identifiers. -/
abbrev Connected : Type := BTreeMap String ItemSpec

/-- The loop that registers the connected items. -/
def registerItems (connected : Connected) :
    List String → Registry → Outcome ConfigError Registry
  | [], registry => ok registry
  | item :: items, registry =>
    match connected.get item with
    | none => registerItems connected items registry
    | some spec => do
      bailIf (spec.id.value ≠ item) "connected item map key does not match its layout ID"
      let registry ← (registry.addItem ⟨spec, item, none, none⟩).mapErr .model
      registerItems connected items registry

/-- A contribution with its connected items. -/
def ContributionConfig.toModel (contribution : ContributionConfig) (connected : Connected) :
    ContributionDefinition where
  id := ⟨contribution.id⟩
  elements := ((contribution.items.map ProfileItemConfig.qualified).filter
    connected.containsKey).map fun item => .item ⟨item⟩
  predicate := contribution.when.toModel
  scope := contribution.scope.toModel
  priority := contribution.priority

/-- The loop over the contributions. -/
def addContributions (connected : Connected) :
    List ContributionConfig → ProfileCatalog → Outcome ConfigError ProfileCatalog
  | [], catalog => ok catalog
  | contribution :: contributions, catalog => do
    let catalog ← (catalog.addContribution (contribution.toModel connected)).mapErr .profile
    addContributions connected contributions catalog

/-- A profile; its principal item is kept only when it is connected. -/
def ProfileConfig.toModel (profile : ProfileConfig) (connected : Connected) :
    ProfileDefinition where
  id := ⟨profile.id⟩
  elements := profile.elements.map ProfileElementConfig.toModel
  principalItem := (profile.principalItem.map ProfileItemRefConfig.qualified).bind fun item =>
    if connected.containsKey item then some ⟨item⟩ else none

/-- The loop over the profiles. -/
def addProfiles (connected : Connected) :
    List ProfileConfig → ProfileCatalog → Outcome ConfigError ProfileCatalog
  | [], catalog => ok catalog
  | profile :: profiles, catalog => do
    let catalog ← (catalog.addProfile (profile.toModel connected)).mapErr .profile
    addProfiles connected profiles catalog

structure BuiltProfile where
  controller : CompositionController
  itemIds : BTreeSet String
  profileIds : List String

namespace ProfileDocument

variable (document : ProfileDocument)

/-- Every required item is connected. -/
def hasRequired (connected : Connected) : Bool :=
  document.requiredItemIds.toList.all connected.containsKey

def selector : ProfileSelector where
  fallback := ⟨document.fallback⟩
  rules := document.rules.map fun rule => ⟨⟨rule.profile⟩, rule.priority, rule.when.toModel⟩

/-- The part of `build` before the controller: it does not look at the context. -/
def assemble (connected : Connected) : Outcome ConfigError (ProfileCatalog × Registry) := do
  document.validate
  let missing := document.requiredItemIds.toList.filter fun item => !connected.containsKey item
  bailIf (!missing.isEmpty)
    ("required profile items are not connected: " ++ ", ".intercalate missing)
  let registry ← registerItems connected document.itemIds.toList Registry.default
  let catalog ← addContributions connected document.contributions ProfileCatalog.default
  let catalog ← addProfiles connected document.profiles catalog
  return (catalog, registry)

def build (connected : Connected) (context : ContextSnapshot) :
    Outcome ConfigError BuiltProfile := do
  let (catalog, registry) ← document.assemble connected
  let controller ←
    (CompositionController.new catalog registry document.selector context).mapErr .profile
  return ⟨controller, document.itemIds, document.profileIds⟩

/-- The entries of a map whose keys are items of the document. -/
def relevant (connected : Connected) : Connected := connected.retain document.itemIds.contains

/-- The composition that a document describes, for connected items, a context and a manual
profile. -/
def compositionOf (connected : Connected) (context : ContextSnapshot)
    (manual : Option ProfileId) : Outcome ConfigError ProfileComposition := do
  let (catalog, registry) ← document.assemble connected
  (catalog.compose registry context (manual.getD (document.selector.select context))).mapErr
    .profile

variable {document}

lemma build_eq_ok {connected : Connected} {context : ContextSnapshot} {built : BuiltProfile}
    (h : document.build connected context = ok built) :
    document.assemble connected = ok (built.controller.catalog, built.controller.registry) ∧
      CompositionController.new built.controller.catalog built.controller.registry
        document.selector context = ok built.controller := by
  simp only [build, bind_eq_ok, Prod.exists, mapErr_eq_ok, pure_eq, ok.injEq] at h
  obtain ⟨catalog, registry, hassemble, c, hnew, rfl⟩ := h
  have hnew' := hnew
  simp only [CompositionController.new, bind_eq_ok, pure_eq, ok.injEq] at hnew'
  obtain ⟨_, -, _, -, composition, -, rfl⟩ := hnew'
  exact ⟨hassemble, hnew⟩

end ProfileDocument

end TouchBar.Config
