import TouchBar.Model.Profiles

/-!
# Profile documents

The configuration file of the user: contributions with their items, profiles with
their slots and groups, rules that select a profile, and named regions.  `validate`
checks the document by itself, before any item is connected.  It works through the
lists in order and stops at the first problem, whose text is the error.
-/

namespace TouchBar.Config

open TouchBar.Rust TouchBar.Layout TouchBar.Model Outcome

def profileConfigVersion : ℕ := 1
def maxProfiles : ℕ := 64
def maxContributions : ℕ := 256
def maxRules : ℕ := 256
def maxRegions : ℕ := 64
def maxElements : ℕ := 512
def maxItems : ℕ := 256
def maxPredicateDepth : ℕ := 8
def maxPredicateNodes : ℕ := 128
def maxContextKeyBytes : ℕ := 128
def maxIdBytes : ℕ := 256
def maxValueBytes : ℕ := 256

/-- `MAX_CANVAS_WIDTH` of the layout crate. -/
def maxCanvasWidth : ℕ := 8192

/-- The errors that `anyhow` carries here. -/
inductive ConfigError where
  /-- `bail!` -/
  | invalid (message : String)
  | model (error : ModelError)
  | profile (error : ProfileError)
deriving DecidableEq, Repr

/-! ## Documents -/

structure ProfileItemConfig where
  plugin : String
  item : String
  required : Bool
deriving DecidableEq, Repr

structure ProfileItemRefConfig where
  plugin : String
  item : String
deriving DecidableEq, Repr

inductive PredicateConfig where
  | always
  | present (key : String)
  | textEquals (key value : String)
  | booleanEquals (key : String) (value : Bool)
  | all (predicates : List PredicateConfig)
  | any (predicates : List PredicateConfig)
  | not (predicate : PredicateConfig)

inductive ScopeConfig where
  | global
  | workspace
  | application
  | window
deriving DecidableEq, Repr

inductive SlotPolicyConfig where
  | collect
  | select
  | fixed
deriving DecidableEq, Repr

inductive GroupLayoutConfig where
  | natural
  | equalWidth
deriving DecidableEq, Repr

structure ContributionConfig where
  id : String
  items : List ProfileItemConfig
  scope : ScopeConfig
  priority : ℤ
  when : PredicateConfig

inductive ProfileGroupElementConfig where
  | slot (id : String) (policy : SlotPolicyConfig) (contributions : List String)
  | group (id : String) (layout : GroupLayoutConfig) (spacing : UInt32)
      (visibilityPriority compressionPriority : ℤ) (elements : List ProfileGroupElementConfig)

inductive ProfileElementConfig where
  | slot (id : String) (policy : SlotPolicyConfig) (contributions : List String)
  | group (id : String) (layout : GroupLayoutConfig) (spacing : UInt32)
      (visibilityPriority compressionPriority : ℤ) (elements : List ProfileGroupElementConfig)
  | fixedSpace (width : UInt32)
  | flexibleSpace (minimum weight : UInt32)

structure ProfileConfig where
  id : String
  elements : List ProfileElementConfig
  principalItem : Option ProfileItemRefConfig

structure ProfileRuleConfig where
  profile : String
  priority : ℤ
  when : PredicateConfig

/-- The edge from which a region is measured. -/
inductive RegionAnchor where
  | leading
  | center
  | trailing
deriving DecidableEq, Repr

structure RegionConfig where
  id : String
  anchor : RegionAnchor
  x : UInt32
  width : UInt32
deriving DecidableEq, Repr

structure ProfileDocument where
  version : ℕ
  fallback : String
  contributions : List ContributionConfig
  profiles : List ProfileConfig
  rules : List ProfileRuleConfig
  regions : List RegionConfig

def qualifiedItemIdUnchecked (plugin item : String) : String := plugin ++ "#" ++ item

def ProfileItemConfig.qualified (item : ProfileItemConfig) : String :=
  qualifiedItemIdUnchecked item.plugin item.item

def ProfileItemRefConfig.qualified (item : ProfileItemRefConfig) : String :=
  qualifiedItemIdUnchecked item.plugin item.item

/-! ## Checks of single values -/

/-- `if condition { bail!(message) }`. -/
def bailIf (condition : Bool) (message : String) : Outcome ConfigError Unit :=
  if condition then err (.invalid message) else ok ()

/-- Lowercase letters and digits. -/
def isIdStart (c : Char) : Bool := c.isLower || c.isDigit

def isIdChar (c : Char) : Bool := isIdStart c || c = '-' || c = '_' || c = '.'

def validateId (label value : String) : Outcome ConfigError Unit :=
  let valid := !Text.isEmpty value && decide (Text.len value ≤ maxIdBytes) &&
    Text.headIs value isIdStart && Text.all value isIdChar
  bailIf (!valid) (label ++ " `" ++ value ++ "` is not a bounded lowercase identifier")

def validatePluginId (label value : String) : Outcome ConfigError Unit :=
  let valid := !Text.isEmpty value && decide (Text.len value ≤ maxValueBytes) &&
    Text.headIs value isIdStart && Text.all value (fun c => isIdChar c || c = ':' || c = '/')
  bailIf (!valid) (label ++ " `" ++ value ++ "` is not a bounded lowercase plugin identifier")

def validateFact (label value : String) (maximum : ℕ) : Outcome ConfigError Unit :=
  bailIf (Text.isEmpty value || decide (maximum < Text.len value) ||
      value.toList.any fun c => Text.isControl c || Text.isWhitespace c)
    (label ++ " is empty, oversized, or contains whitespace/control characters")

mutual

/-- Checks a predicate and counts its nodes on top of those before it. -/
def validatePredicate : PredicateConfig → ℕ → ℕ → Outcome ConfigError ℕ
  | predicate, depth, nodes => do
    let nodes := nodes + 1
    bailIf (decide (maxPredicateDepth < depth) || decide (maxPredicateNodes < nodes))
      "context predicates exceed their depth or node budget"
    match predicate with
    | .always => return nodes
    | .present key => do
      validateFact "context key" key maxContextKeyBytes
      return nodes
    | .booleanEquals key _ => do
      validateFact "context key" key maxContextKeyBytes
      return nodes
    | .textEquals key value => do
      validateFact "context key" key maxContextKeyBytes
      validateFact "context value" value maxValueBytes
      return nodes
    | .all predicates => do
      bailIf predicates.isEmpty "all/any predicate must contain a child"
      validatePredicates predicates (depth + 1) nodes
    | .any predicates => do
      bailIf predicates.isEmpty "all/any predicate must contain a child"
      validatePredicates predicates (depth + 1) nodes
    | .not predicate => validatePredicate predicate (depth + 1) nodes

/-- The loop over the children of `all` and `any`. -/
def validatePredicates : List PredicateConfig → ℕ → ℕ → Outcome ConfigError ℕ
  | [], _, nodes => ok nodes
  | p :: ps, depth, nodes => do
    let nodes ← validatePredicate p depth nodes
    validatePredicates ps depth nodes

end

/-! ## Checks of the parts of a document -/

/-- The loop over the regions. -/
def validateRegions : List RegionConfig → BTreeSet String → Outcome ConfigError Unit
  | [], _ => ok ()
  | region :: regions, ids => do
    validateId "region id" region.id
    bailIf (ids.contains region.id) ("duplicate region `" ++ region.id ++ "`")
    -- an overflow of `checked_add` is beyond the bound as well
    bailIf (region.width = 0 || maxCanvasWidth < region.x.toNat + region.width.toNat)
      ("region `" ++ region.id ++ "` exceeds the Touch Bar bounds")
    bailIf (region.anchor = .center && region.x ≠ 0)
      ("region `" ++ region.id ++ "` is centered, so its offset must be zero")
    validateRegions regions (ids.insert region.id)

/-- The loop over the items of a contribution; it collects all items of the document. -/
def validateItems (contribution : String) :
    List ProfileItemConfig → BTreeSet String → BTreeSet String →
      Outcome ConfigError (BTreeSet String)
  | [], _, allItems => ok allItems
  | item :: items, localItems, allItems => do
    validatePluginId "plugin id" item.plugin
    validateId "item id" item.item
    bailIf (localItems.contains item.qualified)
      ("contribution `" ++ contribution ++ "` repeats item `" ++ item.plugin ++ ":" ++
        item.item ++ "`")
    validateItems contribution items (localItems.insert item.qualified)
      (allItems.insert item.qualified)

/-- What the loop over the contributions collects. -/
structure SeenContributions where
  contributionIds : BTreeSet String
  allItems : BTreeSet String
  predicateNodes : ℕ

/-- The loop over the contributions. -/
def validateContributions :
    List ContributionConfig → SeenContributions → Outcome ConfigError SeenContributions
  | [], seen => ok seen
  | contribution :: contributions, seen => do
    validateId "contribution id" contribution.id
    bailIf (seen.contributionIds.contains contribution.id)
      ("duplicate contribution `" ++ contribution.id ++ "`")
    bailIf contribution.items.isEmpty
      ("contribution `" ++ contribution.id ++ "` must contain an item")
    let allItems ← validateItems contribution.id contribution.items .empty seen.allItems
    let predicateNodes ← validatePredicate contribution.when 1 seen.predicateNodes
    validateContributions contributions
      ⟨seen.contributionIds.insert contribution.id, allItems, predicateNodes⟩

/-- What the loop over the elements of a profile collects. -/
structure SeenElements where
  slots : BTreeSet String
  groups : BTreeSet String
  elementCount : ℕ

section Elements

variable (profile : String) (contributionIds : BTreeSet String)

/-- The loop over the bindings of a slot. -/
def validateBindings (slot : String) :
    List String → BTreeSet String → Outcome ConfigError Unit
  | [], _ => ok ()
  | contribution :: contributions, bindings => do
    validateId "bound contribution" contribution
    bailIf (!contributionIds.contains contribution)
      ("profile `" ++ profile ++ "` slot `" ++ slot ++ "` references unknown contribution `" ++
        contribution ++ "`")
    bailIf (bindings.contains contribution)
      ("profile `" ++ profile ++ "` slot `" ++ slot ++ "` repeats contribution `" ++
        contribution ++ "`")
    validateBindings slot contributions (bindings.insert contribution)

def validateSlotConfig (id : String) (contributions : List String) (slots : BTreeSet String) :
    Outcome ConfigError (BTreeSet String) := do
  validateId "slot id" id
  bailIf (slots.contains id) ("profile `" ++ profile ++ "` repeats slot `" ++ id ++ "`")
  bailIf contributions.isEmpty
    ("profile `" ++ profile ++ "` slot `" ++ id ++ "` has no contributions")
  validateBindings profile contributionIds id contributions .empty
  return slots.insert id

/-- The checks of `validate_group_config` before its loop. -/
def validateGroupHead (id : String) (spacing : UInt32) (empty : Bool) (depth : ℕ)
    (seen : SeenElements) : Outcome ConfigError SeenElements := do
  validateId "group id" id
  bailIf (seen.groups.contains id) ("profile `" ++ profile ++ "` repeats group `" ++ id ++ "`")
  bailIf (maxGroupDepth < depth)
    ("profile `" ++ profile ++ "` group `" ++ id ++ "` exceeds the maximum nesting depth")
  bailIf (maxCanvasWidth < spacing.toNat)
    ("profile `" ++ profile ++ "` group `" ++ id ++ "` spacing exceeds the Touch Bar width")
  bailIf empty ("profile `" ++ profile ++ "` group `" ++ id ++ "` must contain an element")
  return { seen with groups := seen.groups.insert id }

mutual

/-- One turn of the loop of `validate_group_config` over the elements of the group `id`. -/
def validateGroupElement (id : String) (depth : ℕ) :
    ProfileGroupElementConfig → SeenElements → Outcome ConfigError SeenElements
  | .slot slot _ contributions, seen => do
    bailIf (maxGroupDepth ≤ depth)
      ("profile `" ++ profile ++ "` group `" ++ id ++
        "` cannot contain a slot beyond the maximum nesting depth")
    let slots ← validateSlotConfig profile contributionIds slot contributions seen.slots
    return { seen with slots := slots, elementCount := seen.elementCount + 1 }
  | .group id _ spacing _ _ elements, seen => do
    let seen ← validateGroupHead profile id spacing elements.isEmpty (depth + 1)
      { seen with elementCount := seen.elementCount + 1 }
    validateGroupElements id (depth + 1) elements seen

def validateGroupElements (id : String) (depth : ℕ) :
    List ProfileGroupElementConfig → SeenElements → Outcome ConfigError SeenElements
  | [], seen => ok seen
  | e :: es, seen => do
    let seen ← validateGroupElement id depth e seen
    validateGroupElements id depth es seen

end

def validateProfileElement :
    ProfileElementConfig → SeenElements → Outcome ConfigError SeenElements
  | .slot id _ contributions, seen => do
    let slots ← validateSlotConfig profile contributionIds id contributions seen.slots
    return { seen with slots := slots, elementCount := seen.elementCount + 1 }
  | .group id _ spacing _ _ elements, seen => do
    let seen ← validateGroupHead profile id spacing elements.isEmpty 1
      { seen with elementCount := seen.elementCount + 1 }
    validateGroupElements profile contributionIds id 1 elements seen
  | .fixedSpace width, seen => do
    bailIf (maxCanvasWidth < width.toNat) "fixed space exceeds the Touch Bar width"
    return { seen with elementCount := seen.elementCount + 1 }
  | .flexibleSpace minimum weight, seen => do
    bailIf (maxCanvasWidth < minimum.toNat || weight = 0)
      "flexible space has invalid minimum or zero weight"
    return { seen with elementCount := seen.elementCount + 1 }

/-- The loop over the elements of a profile. -/
def validateProfileElements :
    List ProfileElementConfig → SeenElements → Outcome ConfigError SeenElements
  | [], seen => ok seen
  | e :: es, seen => do
    let seen ← validateProfileElement profile contributionIds e seen
    validateProfileElements es seen

end Elements

/-- The loop over the profiles; it collects their identifiers and counts the elements. -/
def validateProfiles (contributionIds allItems : BTreeSet String) :
    List ProfileConfig → BTreeSet String → ℕ → Outcome ConfigError (BTreeSet String × ℕ)
  | [], profileIds, elementCount => ok (profileIds, elementCount)
  | profile :: profiles, profileIds, elementCount => do
    validateId "profile id" profile.id
    bailIf (profileIds.contains profile.id) ("duplicate profile `" ++ profile.id ++ "`")
    bailIf profile.elements.isEmpty ("profile `" ++ profile.id ++ "` must contain an element")
    match profile.principalItem with
    | none => ok ()
    | some principal => do
      validatePluginId "principal plugin id" principal.plugin
      validateId "principal item id" principal.item
      bailIf (!allItems.contains principal.qualified)
        ("profile `" ++ profile.id ++ "` principal item `" ++ principal.plugin ++ ":" ++
          principal.item ++ "` is not allowed by a contribution")
    let seen ← validateProfileElements profile.id contributionIds profile.elements
      ⟨.empty, .empty, elementCount⟩
    validateProfiles contributionIds allItems profiles (profileIds.insert profile.id)
      seen.elementCount

/-- The loop over the rules. -/
def validateRules (profileIds : BTreeSet String) :
    List ProfileRuleConfig → ℕ → Outcome ConfigError Unit
  | [], _ => ok ()
  | rule :: rules, nodes => do
    bailIf (!profileIds.contains rule.profile)
      ("rule references unknown profile `" ++ rule.profile ++ "`")
    let nodes ← validatePredicate rule.when 1 nodes
    validateRules profileIds rules nodes

namespace ProfileDocument

def validate (document : ProfileDocument) : Outcome ConfigError Unit := do
  bailIf (document.version ≠ profileConfigVersion)
    ("unsupported profile configuration version " ++ toString document.version ++
      "; expected " ++ toString profileConfigVersion)
  validateId "fallback" document.fallback
  bailIf (document.profiles.isEmpty || maxProfiles < document.profiles.length)
    ("profiles must contain 1..=" ++ toString maxProfiles ++ " entries")
  bailIf (maxContributions < document.contributions.length)
    ("contributions exceed the " ++ toString maxContributions ++ " entry limit")
  bailIf (maxRules < document.rules.length)
    ("rules exceed the " ++ toString maxRules ++ " entry limit")
  bailIf (maxRegions < document.regions.length)
    ("regions exceed the " ++ toString maxRegions ++ " entry limit")
  validateRegions document.regions .empty
  let seen ← validateContributions document.contributions ⟨.empty, .empty, 0⟩
  bailIf (maxItems < seen.allItems.len)
    ("profile configuration references more than " ++ toString maxItems ++ " items")
  let (profileIds, elementCount) ←
    validateProfiles seen.contributionIds seen.allItems document.profiles .empty 0
  bailIf (maxElements < elementCount)
    ("profile elements exceed the " ++ toString maxElements ++ " entry limit")
  bailIf (!profileIds.contains document.fallback)
    ("fallback profile `" ++ document.fallback ++ "` does not exist")
  validateRules profileIds document.rules seen.predicateNodes

def itemIds (document : ProfileDocument) : BTreeSet String :=
  .ofList (document.contributions.flatMap fun c => c.items.map ProfileItemConfig.qualified)

def requiredItemIds (document : ProfileDocument) : BTreeSet String :=
  .ofList (((document.contributions.flatMap ContributionConfig.items).filter
    ProfileItemConfig.required).map ProfileItemConfig.qualified)

def profileIds (document : ProfileDocument) : List String :=
  document.profiles.map ProfileConfig.id

end ProfileDocument

end TouchBar.Config
