import TouchBar.Model.Context
import TouchBar.Model.Registry

/-!
# Profiles and their validation

A profile is a template of slots, groups and spaces; a slot is bound to
contributions, which bring items and groups.  `ProfileCatalog.validate` checks
contributions and profiles separately.  This file has the types, the checks, and
for each check the facts that composition relies on: contributions hold no context
proxy and nest their groups at most `maxGroupDepth` deep, slots inside groups are
bound to contributions without spaces and stand at most at depth
`maxGroupDepth - 1`.
-/

namespace TouchBar.Model

open TouchBar.Rust TouchBar.Layout Outcome

structure ProfileId where
  value : String
deriving DecidableEq, Repr

instance : LinearOrder ProfileId :=
  LinearOrder.lift' ProfileId.value fun a b h => by cases a; cases b; cases h; rfl

structure SlotId where
  value : String
deriving DecidableEq, Repr

instance : LinearOrder SlotId :=
  LinearOrder.lift' SlotId.value fun a b h => by cases a; cases b; cases h; rfl

structure ContributionId where
  value : String
deriving DecidableEq, Repr

instance : LinearOrder ContributionId :=
  LinearOrder.lift' ContributionId.value fun a b h => by cases a; cases b; cases h; rfl

inductive SlotPolicy where
  /-- Include every active binding in user-defined order. -/
  | collect
  /-- Include only the highest priority active binding. -/
  | select
  /-- Include every binding regardless of its context predicate. -/
  | fixed
deriving DecidableEq, Repr

structure ContributionDefinition where
  id : ContributionId
  elements : List BarElement
  predicate : ContextPredicate
  scope : ContextScope
  priority : ℤ

structure ContributionBinding where
  contribution : ContributionId
  order : ℤ
deriving DecidableEq, Repr

structure SlotDefinition where
  id : SlotId
  policy : SlotPolicy
  bindings : List ContributionBinding
deriving DecidableEq, Repr

mutual

inductive ProfileGroupElement where
  | slot (slot : SlotDefinition)
  | group (group : ProfileGroup)

structure ProfileGroup where
  id : String
  elements : List ProfileGroupElement
  layout : GroupLayout
  spacing : UInt32
  visibilityPriority : ℤ
  compressionPriority : ℤ

end

inductive ProfileElement where
  | slot (slot : SlotDefinition)
  | group (group : ProfileGroup)
  | fixedSpace (width : UInt32)
  | flexibleSpace (minimum weight : UInt32)

structure ProfileDefinition where
  id : ProfileId
  elements : List ProfileElement
  principalItem : Option ItemId

inductive ProfileError where
  | emptyContributionId
  | emptyProfileId
  | emptySlotId (profile : ProfileId)
  | emptyModeId
  | duplicateContribution (id : ContributionId)
  | duplicateProfile (id : ProfileId)
  | duplicateSlot (profile : ProfileId) (slot : SlotId)
  | invalidGroupId (profile : ProfileId) (group : String)
  | duplicateGroup (profile : ProfileId) (group : String)
  | groupDepthExceeded (profile : ProfileId) (group : String)
  | invalidContributionGroupId (contribution : ContributionId) (group : String)
  | duplicateContributionGroup (contribution : ContributionId) (group : String)
  | contributionGroupDepthExceeded (contribution : ContributionId) (group : String)
  | duplicateComposedGroup (group : String)
  | unknownContribution (profile : ProfileId) (slot : SlotId) (contribution : ContributionId)
  | unknownProfile (profile : ProfileId)
  | unknownItem (contribution : ContributionId) (item : ItemId)
  | duplicateComposedItem (item : ItemId)
  | contextProxyInContribution (contribution : ContributionId)
  | zeroFlexibleWeightInContribution (contribution : ContributionId)
  | zeroFlexibleWeightInProfile (profile : ProfileId)
  | spaceInGroupedSlot (profile : ProfileId) (slot : SlotId) (contribution : ContributionId)
deriving DecidableEq, Repr

theorem ProfileGroup.nested_induction {P : ProfileGroup → Prop}
    (step : ∀ g : ProfileGroup,
      (∀ child, ProfileGroupElement.group child ∈ g.elements → P child) → P g)
    (g : ProfileGroup) : P g :=
  @ProfileGroup.rec (fun e => ∀ child, e = .group child → P child) P
    (fun es => ∀ child, ProfileGroupElement.group child ∈ es → P child)
    (fun _ _ h => nomatch h)
    (fun _ hg _ h => ProfileGroupElement.group.inj h ▸ hg)
    (fun id elements layout spacing v c h => step ⟨id, elements, layout, spacing, v, c⟩ h)
    (fun _ h => nomatch h)
    (fun _ _ he hes child h =>
      (List.mem_cons.mp h).elim (fun h => he child h.symm) (fun h => hes child h))
    g

/-! ## The catalog -/

/-- Contributions and profiles, each under its own identifier. -/
structure ProfileCatalog where
  contributions : BTreeMap ContributionId ContributionDefinition
  profiles : BTreeMap ProfileId ProfileDefinition
  contributions_keyed : ∀ id c, contributions.get id = some c → c.id = id
  profiles_keyed : ∀ id p, profiles.get id = some p → p.id = id

namespace ProfileCatalog

/-- `ProfileCatalog::default()`. -/
def default : ProfileCatalog := ⟨.empty, .empty, by simp, by simp⟩

def addContribution (catalog : ProfileCatalog) (contribution : ContributionDefinition) :
    Outcome ProfileError ProfileCatalog :=
  if Text.trimIsEmpty contribution.id.value then
    err .emptyContributionId
  else if catalog.contributions.containsKey contribution.id then
    err (.duplicateContribution contribution.id)
  else
    ok { catalog with
      contributions := catalog.contributions.insert contribution.id contribution
      contributions_keyed := fun id c h => by
        rw [BTreeMap.get_insert] at h
        split_ifs at h with hid
        · obtain rfl := Option.some.inj h
          exact hid.symm
        · exact catalog.contributions_keyed id c h }

def addProfile (catalog : ProfileCatalog) (profile : ProfileDefinition) :
    Outcome ProfileError ProfileCatalog :=
  if Text.trimIsEmpty profile.id.value then
    err .emptyProfileId
  else if catalog.profiles.containsKey profile.id then
    err (.duplicateProfile profile.id)
  else
    ok { catalog with
      profiles := catalog.profiles.insert profile.id profile
      profiles_keyed := fun id p h => by
        rw [BTreeMap.get_insert] at h
        split_ifs at h with hid
        · obtain rfl := Option.some.inj h
          exact hid.symm
        · exact catalog.profiles_keyed id p h }

def profile (catalog : ProfileCatalog) (id : ProfileId) : Option ProfileDefinition :=
  catalog.profiles.get id

def contribution (catalog : ProfileCatalog) (id : ContributionId) :
    Option ContributionDefinition :=
  catalog.contributions.get id

end ProfileCatalog

/-! ## Contributions -/

section Contributions

variable (registry : Registry) (contribution : ContributionDefinition)

mutual

def validateContributionGroup :
    BarGroup → ℕ → BTreeSet String → Outcome ProfileError (BTreeSet String)
  | ⟨id, elements, _, _, _, _⟩, depth, groupIds =>
    if Text.trimIsEmpty id then
      err (.invalidContributionGroupId contribution.id id)
    else if depth > maxGroupDepth then
      err (.contributionGroupDepthExceeded contribution.id id)
    else if groupIds.contains id then
      err (.duplicateContributionGroup contribution.id id)
    else
      validateContributionGroupElements elements depth (groupIds.insert id)

/-- The loop of `validate_contribution_group` over the elements of a group. -/
def validateContributionGroupElements :
    List BarGroupElement → ℕ → BTreeSet String → Outcome ProfileError (BTreeSet String)
  | [], _, groupIds => ok groupIds
  | .item id :: es, depth, groupIds =>
    if (registry.item id).isNone then
      err (.unknownItem contribution.id id)
    else
      validateContributionGroupElements es depth groupIds
  | .group g :: es, depth, groupIds => do
    let groupIds ← validateContributionGroup g (depth + 1) groupIds
    validateContributionGroupElements es depth groupIds

end

/-- The loop of `ProfileCatalog::validate` over the elements of a contribution. -/
def validateContributionElements :
    List BarElement → BTreeSet String → Outcome ProfileError Unit
  | [], _ => ok ()
  | .item id :: es, groupIds =>
    if (registry.item id).isNone then
      err (.unknownItem contribution.id id)
    else
      validateContributionElements es groupIds
  | .group g :: es, groupIds => do
    let groupIds ← validateContributionGroup registry contribution g 1 groupIds
    validateContributionElements es groupIds
  | .flexibleSpace _ weight :: es, groupIds =>
    if weight = 0 then
      err (.zeroFlexibleWeightInContribution contribution.id)
    else
      validateContributionElements es groupIds
  | .contextProxy :: _, _ => err (.contextProxyInContribution contribution.id)
  | .fixedSpace _ :: es, groupIds => validateContributionElements es groupIds

end Contributions

def validateContributions (registry : Registry) :
    List ContributionDefinition → Outcome ProfileError Unit
  | [] => ok ()
  | c :: cs => do
    validateContributionElements registry c c.elements .empty
    validateContributions registry cs

/-! ## Profiles -/

/-- `FixedSpace` and `FlexibleSpace`. -/
def BarElement.isSpace : BarElement → Bool
  | .fixedSpace _ => true
  | .flexibleSpace _ _ => true
  | _ => false

section Profiles

variable (catalog : ProfileCatalog) (profile : ProfileDefinition)

/-- The loop of `validate_slot` over the bindings of a slot. -/
def validateBindings (slot : SlotDefinition) (nested : Bool) :
    List ContributionBinding → Outcome ProfileError Unit
  | [] => ok ()
  | binding :: bindings =>
    match catalog.contributions.get binding.contribution with
    | none => err (.unknownContribution profile.id slot.id binding.contribution)
    | some contribution =>
      if nested && contribution.elements.any BarElement.isSpace then
        err (.spaceInGroupedSlot profile.id slot.id binding.contribution)
      else
        validateBindings slot nested bindings

def validateSlot (slot : SlotDefinition) (nested : Bool) (slots : BTreeSet SlotId) :
    Outcome ProfileError (BTreeSet SlotId) :=
  if Text.trimIsEmpty slot.id.value then
    err (.emptySlotId profile.id)
  else if slots.contains slot.id then
    err (.duplicateSlot profile.id slot.id)
  else do
    validateBindings catalog profile slot nested slot.bindings
    return slots.insert slot.id

mutual

def validateProfileGroup : ProfileGroup → ℕ → BTreeSet SlotId → BTreeSet String →
    Outcome ProfileError (BTreeSet SlotId × BTreeSet String)
  | ⟨id, elements, _, _, _, _⟩, depth, slots, groups =>
    if Text.trimIsEmpty id || Text.startsWith id "@slot/" then
      err (.invalidGroupId profile.id id)
    else if depth > maxGroupDepth then
      err (.groupDepthExceeded profile.id id)
    else if groups.contains id then
      err (.duplicateGroup profile.id id)
    else
      validateProfileGroupElements id elements depth slots (groups.insert id)

/-- The loop of `validate_profile_group` over the elements of the group `id`. -/
def validateProfileGroupElements (id : String) :
    List ProfileGroupElement → ℕ → BTreeSet SlotId → BTreeSet String →
      Outcome ProfileError (BTreeSet SlotId × BTreeSet String)
  | [], _, slots, groups => ok (slots, groups)
  | .slot slot :: es, depth, slots, groups =>
    if depth ≥ maxGroupDepth then
      err (.groupDepthExceeded profile.id id)
    else do
      let slots ← validateSlot catalog profile slot true slots
      validateProfileGroupElements id es depth slots groups
  | .group g :: es, depth, slots, groups => do
    let (slots, groups) ← validateProfileGroup g (depth + 1) slots groups
    validateProfileGroupElements id es depth slots groups

end

/-- The loop of `ProfileCatalog::validate` over the elements of a profile. -/
def validateProfileElements :
    List ProfileElement → BTreeSet SlotId → BTreeSet String → Outcome ProfileError Unit
  | [], _, _ => ok ()
  | .slot slot :: es, slots, groups => do
    let slots ← validateSlot catalog profile slot false slots
    validateProfileElements es slots groups
  | .group g :: es, slots, groups => do
    let (slots, groups) ← validateProfileGroup catalog profile g 1 slots groups
    validateProfileElements es slots groups
  | .flexibleSpace _ weight :: es, slots, groups =>
    if weight = 0 then
      err (.zeroFlexibleWeightInProfile profile.id)
    else
      validateProfileElements es slots groups
  | .fixedSpace _ :: es, slots, groups => validateProfileElements es slots groups

end Profiles

def validateProfiles (catalog : ProfileCatalog) :
    List ProfileDefinition → Outcome ProfileError Unit
  | [] => ok ()
  | p :: ps => do
    validateProfileElements catalog p p.elements .empty .empty
    validateProfiles catalog ps

def ProfileCatalog.validate (catalog : ProfileCatalog) (registry : Registry) :
    Outcome ProfileError Unit := do
  validateContributions registry catalog.contributions.values
  validateProfiles catalog catalog.profiles.values

/-! ## What a valid catalog guarantees -/

/-- Composition meets no context proxy in a contribution, and no group of it is deeper
than the resolver allows. -/
structure ContributionDefinition.Valid (c : ContributionDefinition) : Prop where
  no_proxy : BarElement.contextProxy ∉ c.elements
  depth_le : ∀ g, BarElement.group g ∈ c.elements → g.depth ≤ maxGroupDepth

/-- Every binding of the slot names a contribution; inside a group, one without spaces. -/
def SlotDefinition.Bound (slot : SlotDefinition) (catalog : ProfileCatalog) (nested : Bool) :
    Prop :=
  ∀ b ∈ slot.bindings, ∃ c, catalog.contributions.get b.contribution = some c ∧
    (nested = true → ∀ e ∈ c.elements, e.isSpace = false)

/-- A group of a profile at the given depth. -/
inductive ProfileGroup.ValidAt (catalog : ProfileCatalog) : ℕ → ProfileGroup → Prop where
  | mk {d : ℕ} {g : ProfileGroup} (depth_le : d ≤ maxGroupDepth)
      (slot_lt : ∀ s, ProfileGroupElement.slot s ∈ g.elements → d < maxGroupDepth)
      (slot_bound : ∀ s, ProfileGroupElement.slot s ∈ g.elements → s.Bound catalog true)
      (child : ∀ g', ProfileGroupElement.group g' ∈ g.elements → ValidAt catalog (d + 1) g') :
      ValidAt catalog d g

structure ProfileDefinition.Valid (p : ProfileDefinition) (catalog : ProfileCatalog) : Prop where
  slot : ∀ s, ProfileElement.slot s ∈ p.elements → s.Bound catalog false
  group : ∀ g, ProfileElement.group g ∈ p.elements → g.ValidAt catalog 1

section Contributions

variable {registry : Registry} {contribution : ContributionDefinition}

lemma listDepth_le_of_validate {es : List BarGroupElement}
    (hchild : ∀ g, BarGroupElement.group g ∈ es → ∀ {d ids ids'},
      validateContributionGroup registry contribution g d ids = ok ids' →
        d + g.depth ≤ maxGroupDepth + 1) :
    ∀ {d ids ids'},
      validateContributionGroupElements registry contribution es d ids = ok ids' →
        ∀ g, BarGroupElement.group g ∈ es → d + g.depth ≤ maxGroupDepth := by
  induction es with
  | nil => simp
  | cons e es ih =>
    intro d ids ids' h g hg
    replace ih := @ih fun g hg => hchild g (List.mem_cons_of_mem _ hg)
    cases e with
    | item i =>
      rw [validateContributionGroupElements] at h
      split_ifs at h
      exact ih h g (by simpa using hg)
    | group child =>
      rw [validateContributionGroupElements] at h
      simp only [bind_eq_ok] at h
      obtain ⟨_, hc, h⟩ := h
      rcases List.mem_cons.mp hg with heq | hg
      · obtain rfl := BarGroupElement.group.inj heq
        have := hchild g List.mem_cons_self hc
        omega
      · exact ih h g hg

lemma depth_le_of_validateContributionGroup (g : BarGroup) :
    ∀ {d ids ids'}, validateContributionGroup registry contribution g d ids = ok ids' →
      d + g.depth ≤ maxGroupDepth + 1 := by
  induction g using BarGroup.nested_induction with
  | step g ih =>
    intro d ids ids' h
    have hle : g.depth ≤ (maxGroupDepth - d) + 1 ∧ d ≤ maxGroupDepth := by
      rw [BarGroup.depth_le_iff]
      obtain ⟨id, elements, layout, spacing, v, c⟩ := g
      rw [validateContributionGroup] at h
      split_ifs at h with _ hd
      refine ⟨fun child hchild => ?_, not_lt.mp hd⟩
      have := listDepth_le_of_validate ih h child hchild
      omega
    omega

lemma valid_of_validateContributionElements {es : List BarElement} :
    ∀ {ids}, validateContributionElements registry contribution es ids = ok () →
      BarElement.contextProxy ∉ es ∧ ∀ g, BarElement.group g ∈ es → g.depth ≤ maxGroupDepth := by
  induction es with
  | nil => simp
  | cons e es ih =>
    intro ids h
    cases e with
    | item i =>
      rw [validateContributionElements] at h
      split_ifs at h
      simpa using ih h
    | group g =>
      rw [validateContributionElements] at h
      simp only [bind_eq_ok] at h
      obtain ⟨_, hg, h⟩ := h
      have hdepth := depth_le_of_validateContributionGroup g hg
      obtain ⟨hno, hle⟩ := ih h
      refine ⟨by simpa using hno, fun g' hg' => ?_⟩
      rcases List.mem_cons.mp hg' with heq | hg'
      · obtain rfl := BarElement.group.inj heq
        omega
      · exact hle g' hg'
    | fixedSpace w => simpa [validateContributionElements] using ih h
    | flexibleSpace m w =>
      rw [validateContributionElements] at h
      split_ifs at h
      simpa using ih h
    | contextProxy => simp [validateContributionElements] at h

lemma valid_of_validateContributions {cs : List ContributionDefinition}
    (h : validateContributions registry cs = ok ()) : ∀ c ∈ cs, c.Valid := by
  induction cs with
  | nil => simp
  | cons c cs ih =>
    simp only [validateContributions, bind_eq_ok] at h
    obtain ⟨_, hc, h⟩ := h
    have hvalid := valid_of_validateContributionElements hc
    intro d hd
    rcases List.mem_cons.mp hd with rfl | hd
    · exact ⟨hvalid.1, hvalid.2⟩
    · exact ih h d hd

end Contributions

section Profiles

variable {catalog : ProfileCatalog} {profile : ProfileDefinition}

lemma bound_of_validateBindings {slot : SlotDefinition} {nested : Bool}
    {bs : List ContributionBinding} (h : validateBindings catalog profile slot nested bs = ok ()) :
    ∀ b ∈ bs, ∃ c, catalog.contributions.get b.contribution = some c ∧
      (nested = true → ∀ e ∈ c.elements, e.isSpace = false) := by
  induction bs with
  | nil => simp
  | cons b bs ih =>
    rw [validateBindings.eq_def] at h
    simp only at h
    split at h
    · cases h
    · next c hc =>
      split_ifs at h with hsp
      intro b' hb'
      rcases List.mem_cons.mp hb' with rfl | hb'
      · exact ⟨c, hc, fun hn => by simpa [hn] using hsp⟩
      · exact ih h b' hb'

lemma bound_of_validateSlot {slot : SlotDefinition} {nested : Bool} {slots slots' : BTreeSet SlotId}
    (h : validateSlot catalog profile slot nested slots = ok slots') :
    slot.Bound catalog nested := by
  rw [validateSlot] at h
  split_ifs at h
  simp only [bind_eq_ok] at h
  obtain ⟨_, h, -⟩ := h
  exact bound_of_validateBindings h

/-- The elements of a validated group, given its child groups. -/
lemma validateProfileGroupElements_spec {id : String} {es : List ProfileGroupElement}
    (hchild : ∀ g, ProfileGroupElement.group g ∈ es → ∀ {d ss gs r},
      validateProfileGroup catalog profile g d ss gs = ok r → g.ValidAt catalog d) :
    ∀ {d ss gs r}, validateProfileGroupElements catalog profile id es d ss gs = ok r →
      (∀ s, ProfileGroupElement.slot s ∈ es → d < maxGroupDepth ∧ s.Bound catalog true) ∧
        ∀ g, ProfileGroupElement.group g ∈ es → g.ValidAt catalog (d + 1) := by
  induction es with
  | nil => simp
  | cons e es ih =>
    intro d ss gs r h
    replace ih := @ih fun g hg => hchild g (List.mem_cons_of_mem _ hg)
    cases e with
    | slot s =>
      rw [validateProfileGroupElements] at h
      split_ifs at h with hd
      simp only [bind_eq_ok] at h
      obtain ⟨_, hs, h⟩ := h
      obtain ⟨hslots, hgroups⟩ := ih h
      refine ⟨fun s' hs' => ?_, fun g hg => hgroups g (by simpa using hg)⟩
      rcases List.mem_cons.mp hs' with heq | hs'
      · obtain rfl := ProfileGroupElement.slot.inj heq
        exact ⟨not_le.mp hd, bound_of_validateSlot hs⟩
      · exact hslots s' hs'
    | group child =>
      rw [validateProfileGroupElements] at h
      simp only [bind_eq_ok, Prod.exists] at h
      obtain ⟨_, _, hg, h⟩ := h
      obtain ⟨hslots, hgroups⟩ := ih h
      refine ⟨fun s hs => hslots s (by simpa using hs), fun g hg' => ?_⟩
      rcases List.mem_cons.mp hg' with heq | hg'
      · obtain rfl := ProfileGroupElement.group.inj heq
        exact hchild g List.mem_cons_self hg
      · exact hgroups g hg'

lemma validAt_of_validateProfileGroup (g : ProfileGroup) :
    ∀ {d ss gs r}, validateProfileGroup catalog profile g d ss gs = ok r →
      g.ValidAt catalog d := by
  induction g using ProfileGroup.nested_induction with
  | step g ih =>
    intro d ss gs r h
    obtain ⟨id, elements, layout, spacing, v, c⟩ := g
    rw [validateProfileGroup] at h
    split_ifs at h with _ hd
    obtain ⟨hslots, hgroups⟩ := validateProfileGroupElements_spec ih h
    exact .mk (not_lt.mp hd) (fun s hs => (hslots s hs).1) (fun s hs => (hslots s hs).2) hgroups

lemma valid_of_validateProfileElements {es : List ProfileElement} :
    ∀ {ss gs}, validateProfileElements catalog profile es ss gs = ok () →
      (∀ s, ProfileElement.slot s ∈ es → s.Bound catalog false) ∧
        ∀ g, ProfileElement.group g ∈ es → g.ValidAt catalog 1 := by
  induction es with
  | nil => simp
  | cons e es ih =>
    intro ss gs h
    cases e with
    | slot s =>
      simp only [validateProfileElements, bind_eq_ok] at h
      obtain ⟨_, hs, h⟩ := h
      obtain ⟨hslots, hgroups⟩ := ih h
      refine ⟨fun s' hs' => ?_, fun g hg => hgroups g (by simpa using hg)⟩
      rcases List.mem_cons.mp hs' with heq | hs'
      · obtain rfl := ProfileElement.slot.inj heq
        exact bound_of_validateSlot hs
      · exact hslots s' hs'
    | group child =>
      simp only [validateProfileElements, bind_eq_ok, Prod.exists] at h
      obtain ⟨_, _, hg, h⟩ := h
      obtain ⟨hslots, hgroups⟩ := ih h
      refine ⟨fun s hs => hslots s (by simpa using hs), fun g hg' => ?_⟩
      rcases List.mem_cons.mp hg' with heq | hg'
      · obtain rfl := ProfileElement.group.inj heq
        exact validAt_of_validateProfileGroup g hg
      · exact hgroups g hg'
    | fixedSpace w => simpa using ih h
    | flexibleSpace m w =>
      rw [validateProfileElements] at h
      split_ifs at h
      simpa using ih h

lemma valid_of_validateProfiles {ps : List ProfileDefinition}
    (h : validateProfiles catalog ps = ok ()) : ∀ p ∈ ps, p.Valid catalog := by
  induction ps with
  | nil => simp
  | cons p ps ih =>
    simp only [validateProfiles, bind_eq_ok] at h
    obtain ⟨_, hp, h⟩ := h
    have hvalid := valid_of_validateProfileElements hp
    intro q hq
    rcases List.mem_cons.mp hq with rfl | hq
    · exact ⟨hvalid.1, hvalid.2⟩
    · exact ih h q hq

end Profiles

/-! ## Validation does not panic -/

section NoPanic

variable {registry : Registry} {contribution : ContributionDefinition} {catalog : ProfileCatalog}
  {profile : ProfileDefinition}

lemma validateContributionGroupElements_ne_panic {es : List BarGroupElement}
    (hchild : ∀ g, BarGroupElement.group g ∈ es → ∀ d ids,
      validateContributionGroup registry contribution g d ids ≠ panic) :
    ∀ d ids, validateContributionGroupElements registry contribution es d ids ≠ panic := by
  induction es with
  | nil => simp [validateContributionGroupElements]
  | cons e es ih =>
    intro d ids
    have ih := ih fun g hg => hchild g (List.mem_cons_of_mem _ hg)
    cases e with
    | item id =>
      rw [validateContributionGroupElements]
      split_ifs
      · simp
      · exact ih d ids
    | group g =>
      simp [validateContributionGroupElements, bind_eq_panic, hchild g List.mem_cons_self, ih]

lemma validateContributionGroup_ne_panic (g : BarGroup) :
    ∀ d ids, validateContributionGroup registry contribution g d ids ≠ panic := by
  induction g using BarGroup.nested_induction with
  | step g ih =>
    intro d ids
    obtain ⟨id, elements, layout, spacing, v, c⟩ := g
    have hels := validateContributionGroupElements_ne_panic ih
    rw [validateContributionGroup]
    split_ifs
    any_goals simp
    exact hels _ _

lemma validateContributionElements_ne_panic {es : List BarElement} :
    ∀ ids, validateContributionElements registry contribution es ids ≠ panic := by
  induction es with
  | nil => simp [validateContributionElements]
  | cons e es ih =>
    intro ids
    cases e with
    | item id =>
      rw [validateContributionElements]
      split_ifs
      · simp
      · exact ih ids
    | group g =>
      simp [validateContributionElements, bind_eq_panic, validateContributionGroup_ne_panic, ih]
    | fixedSpace w => exact ih ids
    | flexibleSpace m w =>
      rw [validateContributionElements]
      split_ifs
      · simp
      · exact ih ids
    | contextProxy => simp [validateContributionElements]

lemma validateContributions_ne_panic {cs : List ContributionDefinition} :
    validateContributions registry cs ≠ panic := by
  induction cs with
  | nil => simp [validateContributions]
  | cons c cs ih =>
    simp [validateContributions, bind_eq_panic, validateContributionElements_ne_panic, ih]

lemma validateBindings_ne_panic {slot : SlotDefinition} {nested : Bool}
    {bs : List ContributionBinding} : validateBindings catalog profile slot nested bs ≠ panic := by
  induction bs with
  | nil => simp [validateBindings]
  | cons b bs ih =>
    rw [validateBindings.eq_def]
    simp only
    split
    · simp
    · split_ifs
      · simp
      · exact ih

lemma validateSlot_ne_panic {slot : SlotDefinition} {nested : Bool} {slots : BTreeSet SlotId} :
    validateSlot catalog profile slot nested slots ≠ panic := by
  rw [validateSlot]
  split_ifs <;> simp [bind_eq_panic, validateBindings_ne_panic]

lemma validateProfileGroupElements_ne_panic {id : String} {es : List ProfileGroupElement}
    (hchild : ∀ g, ProfileGroupElement.group g ∈ es → ∀ d ss gs,
      validateProfileGroup catalog profile g d ss gs ≠ panic) :
    ∀ d ss gs, validateProfileGroupElements catalog profile id es d ss gs ≠ panic := by
  induction es with
  | nil => simp [validateProfileGroupElements]
  | cons e es ih =>
    intro d ss gs
    have ih := ih fun g hg => hchild g (List.mem_cons_of_mem _ hg)
    cases e with
    | slot s =>
      rw [validateProfileGroupElements]
      split_ifs
      · simp
      · simp [bind_eq_panic, validateSlot_ne_panic, ih]
    | group g =>
      simp [validateProfileGroupElements, bind_eq_panic, hchild g List.mem_cons_self, ih]

lemma validateProfileGroup_ne_panic (g : ProfileGroup) :
    ∀ d ss gs, validateProfileGroup catalog profile g d ss gs ≠ panic := by
  induction g using ProfileGroup.nested_induction with
  | step g ih =>
    intro d ss gs
    obtain ⟨id, elements, layout, spacing, v, c⟩ := g
    have hels := fun id => @validateProfileGroupElements_ne_panic catalog profile id elements ih
    rw [validateProfileGroup]
    split_ifs
    any_goals simp
    exact hels _ _ _ _

lemma validateProfileElements_ne_panic {es : List ProfileElement} :
    ∀ ss gs, validateProfileElements catalog profile es ss gs ≠ panic := by
  induction es with
  | nil => simp [validateProfileElements]
  | cons e es ih =>
    intro ss gs
    cases e with
    | slot s => simp [validateProfileElements, bind_eq_panic, validateSlot_ne_panic, ih]
    | group g => simp [validateProfileElements, bind_eq_panic, validateProfileGroup_ne_panic, ih]
    | fixedSpace w => exact ih ss gs
    | flexibleSpace m w =>
      rw [validateProfileElements]
      split_ifs
      · simp
      · exact ih ss gs

lemma validateProfiles_ne_panic {ps : List ProfileDefinition} :
    validateProfiles catalog ps ≠ panic := by
  induction ps with
  | nil => simp [validateProfiles]
  | cons p ps ih =>
    simp [validateProfiles, bind_eq_panic, validateProfileElements_ne_panic, ih]

lemma validate_ne_panic : catalog.validate registry ≠ panic := by
  simp [ProfileCatalog.validate, bind_eq_panic, validateContributions_ne_panic,
    validateProfiles_ne_panic]

end NoPanic

/-- Every contribution and every profile of a catalog that validates is valid. -/
theorem ProfileCatalog.valid_of_validate {catalog : ProfileCatalog} {registry : Registry}
    (h : catalog.validate registry = ok ()) :
    (∀ id c, catalog.contributions.get id = some c → c.Valid) ∧
      ∀ id p, catalog.profiles.get id = some p → p.Valid catalog := by
  simp only [ProfileCatalog.validate, bind_eq_ok] at h
  obtain ⟨_, hc, hp⟩ := h
  exact ⟨fun id c hget =>
      valid_of_validateContributions hc c (BTreeMap.mem_values_iff.mpr ⟨id, hget⟩),
    fun id p hget => valid_of_validateProfiles hp p (BTreeMap.mem_values_iff.mpr ⟨id, hget⟩)⟩

end TouchBar.Model
