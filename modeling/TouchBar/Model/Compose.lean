import TouchBar.Lib.Lists
import TouchBar.Rust.Iter
import TouchBar.Model.Profiles

/-!
# Composition of a profile

`ProfileCatalog.compose` validates the catalog and turns a profile into a bar: each
slot becomes the elements of the contributions that its policy selects in the
given context.  Slots of the bar are filled in place; a slot inside a group
becomes a group of its own.  The functions thread the lists and sets that the
source passes by mutable reference as one record, `Composing`.

The source has two kinds of `unreachable!`, for a context proxy in a contribution
and for a space in a grouped slot; both are panics here, and `compose_ne_panic`
shows that validation excludes them.
-/

namespace TouchBar.Model

open TouchBar.Rust TouchBar.Lib TouchBar.Layout Outcome

structure ComposedSlot where
  id : SlotId
  /-- Group indices from the elements of the bar to the container. -/
  path : List ℕ
  /-- The half-open range of elements in the container. -/
  elements : ℕ × ℕ
deriving DecidableEq, Repr

structure ProfileComposition where
  profile : ProfileId
  activeContributions : List ContributionId
  slots : List ComposedSlot
  bar : BarSpec

/-- What composition has collected so far. -/
structure Composing where
  activeContributions : List ContributionId
  slots : List ComposedSlot
  itemIds : BTreeSet ItemId
  groupIds : BTreeSet String

/-! ## Selection of contributions -/

/-- The order of `(binding.order, index)`. -/
def BindsBefore (l r : ContributionBinding × ℕ) : Prop :=
  l.1.order < r.1.order ∨ (l.1.order = r.1.order ∧ l.2 ≤ r.2)

instance : DecidableRel BindsBefore := fun _ _ => by
  unfold BindsBefore
  infer_instance

/-- What `Select` maximizes: priority, then scope, then the earlier binding. -/
def selectionKey (candidate : ℕ × ContributionDefinition) : ℤ ×ₗ ContextScope ×ₗ ℕᵒᵈ :=
  toLex (candidate.2.priority, toLex (candidate.2.scope, OrderDual.toDual candidate.1))

def selectBindings (catalog : ProfileCatalog) (slot : SlotDefinition)
    (context : ContextSnapshot) : List ContributionDefinition :=
  let bindings := slot.bindings.zipIdx.insertionSort BindsBefore
  let candidates := bindings.zipIdx.filterMap fun (binding, selectionIndex) =>
    (catalog.contributions.get binding.1.contribution).bind fun contribution =>
      if slot.policy = .fixed ∨ contribution.predicate.matchesContext context = true then
        some (selectionIndex, contribution)
      else
        none
  if slot.policy ≠ .select then
    candidates.map Prod.snd
  else
    match maxByKey selectionKey candidates with
    | some (_, contribution) => [contribution]
    | none => []

/-! ## Elements of a contribution -/

def insertComposedGroup (groupIds : BTreeSet String) (group : String) :
    Outcome ProfileError (BTreeSet String) :=
  if groupIds.contains group then
    err (.duplicateComposedGroup group)
  else
    ok (groupIds.insert group)

section Resolve

variable (registry : Registry) (contribution : ContributionDefinition)

def resolveItem (id : ItemId) (state : Composing) : Outcome ProfileError (ItemSpec × Composing) :=
  if state.itemIds.contains id then
    err (.duplicateComposedItem id)
  else
    match registry.item id with
    | some definition => ok (definition.layout, { state with itemIds := state.itemIds.insert id })
    | none => err (.unknownItem contribution.id id)

mutual

def resolveContributionGroup : BarGroup → Composing → Outcome ProfileError (GroupSpec × Composing)
  | ⟨id, elements, layout, spacing, visibilityPriority, compressionPriority⟩, state => do
    let groupIds ← insertComposedGroup state.groupIds id
    let (elements, state) ← resolveContributionGroupElements elements
      { state with groupIds := groupIds }
    return (⟨id, elements, layout, spacing, visibilityPriority, compressionPriority⟩, state)

def resolveContributionGroupElements :
    List BarGroupElement → Composing → Outcome ProfileError (List GroupElement × Composing)
  | [], state => ok ([], state)
  | .item id :: es, state => do
    let (i, state) ← resolveItem registry contribution id state
    let (rest, state) ← resolveContributionGroupElements es state
    return (.item i :: rest, state)
  | .group g :: es, state => do
    let (g, state) ← resolveContributionGroup g state
    let (rest, state) ← resolveContributionGroupElements es state
    return (.group g :: rest, state)

end

def resolveTopContributionElement (element : BarElement) (state : Composing) :
    Outcome ProfileError (Element × Composing) :=
  match element with
  | .item id => do
    let (i, state) ← resolveItem registry contribution id state
    return (.item i, state)
  | .group g => do
    let (g, state) ← resolveContributionGroup registry contribution g state
    return (.group g, state)
  | .fixedSpace width => ok (.fixedSpace width, state)
  | .flexibleSpace minimum weight => ok (.flexibleSpace minimum weight, state)
  | .contextProxy => panic

def resolveGroupedContributionElement (element : BarElement) (state : Composing) :
    Outcome ProfileError (GroupElement × Composing) :=
  match element with
  | .item id => do
    let (i, state) ← resolveItem registry contribution id state
    return (.item i, state)
  | .group g => do
    let (g, state) ← resolveContributionGroup registry contribution g state
    return (.group g, state)
  | .fixedSpace _ => panic
  | .flexibleSpace _ _ => panic
  | .contextProxy => panic

end Resolve

/-! ## Slots -/

section Slots

variable {α : Type} (resolve : ContributionDefinition → BarElement → Composing →
  Outcome ProfileError (α × Composing))

/-- The inner loop over the elements of one contribution. -/
def composeElements (contribution : ContributionDefinition) :
    List BarElement → Composing → Outcome ProfileError (List α × Composing)
  | [], state => ok ([], state)
  | e :: es, state => do
    let (here, state) ← resolve contribution e state
    let (rest, state) ← composeElements contribution es state
    return (here :: rest, state)

/-- The outer loop over the selected contributions. -/
def composeContributions :
    List ContributionDefinition → Composing → Outcome ProfileError (List α × Composing)
  | [], state => ok ([], state)
  | c :: cs, state => do
    let (here, state) ← composeElements resolve c c.elements
      { state with activeContributions := state.activeContributions ++ [c.id] }
    let (rest, state) ← composeContributions cs state
    return (here ++ rest, state)

end Slots

section Compose

variable (catalog : ProfileCatalog) (registry : Registry) (context : ContextSnapshot)

def composeTopSlot (slot : SlotDefinition) (state : Composing) :
    Outcome ProfileError (List Element × Composing) :=
  composeContributions (resolveTopContributionElement registry)
    (selectBindings catalog slot context) state

def composeGroupSlot (slot : SlotDefinition) (state : Composing) :
    Outcome ProfileError (List GroupElement × Composing) :=
  composeContributions (resolveGroupedContributionElement registry)
    (selectBindings catalog slot context) state

/-- The identifier of the group that stands for a slot. -/
def slotGroupId (profile : ProfileId) (slot : SlotId) : String :=
  "@slot/" ++ profile.value ++ "/" ++ slot.value

mutual

def composeProfileGroup (profile : ProfileId) :
    ProfileGroup → List ℕ → Composing → Outcome ProfileError (GroupSpec × Composing)
  | ⟨id, elements, layout, spacing, visibilityPriority, compressionPriority⟩, path, state => do
    let groupIds ← insertComposedGroup state.groupIds id
    let (elements, state) ← composeProfileGroupElements profile path 0 elements
      { state with groupIds := groupIds }
    return (⟨id, elements, layout, spacing, visibilityPriority, compressionPriority⟩, state)

/-- The loop of `compose_profile_group`, from the given number of elements on. -/
def composeProfileGroupElements (profile : ProfileId) (path : List ℕ) :
    ℕ → List ProfileGroupElement → Composing → Outcome ProfileError (List GroupElement × Composing)
  | _, [], state => ok ([], state)
  | index, .slot slot :: es, state => do
    let (elements, state) ← composeGroupSlot catalog registry context slot state
    let groupIds ← insertComposedGroup state.groupIds (slotGroupId profile slot.id)
    let state := { state with
      groupIds := groupIds
      slots := state.slots ++ [⟨slot.id, path ++ [index], (0, elements.length)⟩] }
    let (rest, state) ← composeProfileGroupElements profile path (index + 1) es state
    return (.group ⟨slotGroupId profile slot.id, elements, .natural, 0, 0, 0⟩ :: rest, state)
  | index, .group g :: es, state => do
    let (g, state) ← composeProfileGroup profile g (path ++ [index]) state
    let (rest, state) ← composeProfileGroupElements profile path (index + 1) es state
    return (.group g :: rest, state)

end

/-- The loop of `ProfileCatalog::compose`, from the given number of elements on. -/
def composeProfileElements (profile : ProfileId) :
    ℕ → List ProfileElement → Composing → Outcome ProfileError (List Element × Composing)
  | _, [], state => ok ([], state)
  | start, .fixedSpace width :: es, state => do
    let (rest, state) ← composeProfileElements profile (start + 1) es state
    return (.fixedSpace width :: rest, state)
  | start, .flexibleSpace minimum weight :: es, state => do
    let (rest, state) ← composeProfileElements profile (start + 1) es state
    return (.flexibleSpace minimum weight :: rest, state)
  | start, .slot slot :: es, state => do
    let (elements, state) ← composeTopSlot catalog registry context slot state
    let stop := start + elements.length
    let state := { state with slots := state.slots ++ [⟨slot.id, [], (start, stop)⟩] }
    let (rest, state) ← composeProfileElements profile stop es state
    return (elements ++ rest, state)
  | start, .group g :: es, state => do
    let (g, state) ← composeProfileGroup catalog registry context profile g [start] state
    let (rest, state) ← composeProfileElements profile (start + 1) es state
    return (.group g :: rest, state)

def ProfileCatalog.compose (profileId : ProfileId) : Outcome ProfileError ProfileComposition := do
  catalog.validate registry
  match catalog.profiles.get profileId with
  | none => err (.unknownProfile profileId)
  | some profile =>
    let (elements, state) ← composeProfileElements catalog registry context profile.id 0
      profile.elements ⟨[], [], .empty, .empty⟩
    return {
      profile := profile.id
      activeContributions := state.activeContributions
      slots := state.slots
      bar := ⟨elements, profile.principalItem.filter state.itemIds.contains⟩ }

end Compose

/-! ## Where the parts of a composition come from -/

/-- A selected contribution is one of those the slot is bound to. -/
lemma exists_binding_of_mem_selectBindings {catalog : ProfileCatalog} {slot : SlotDefinition}
    {context : ContextSnapshot} {c : ContributionDefinition}
    (h : c ∈ selectBindings catalog slot context) :
    ∃ b ∈ slot.bindings, catalog.contributions.get b.contribution = some c := by
  -- under every policy the selected contributions are candidates
  have hcand : ∀ i, (i, c) ∈ (slot.bindings.zipIdx.insertionSort BindsBefore).zipIdx.filterMap
      (fun (binding, selectionIndex) =>
        (catalog.contributions.get binding.1.contribution).bind fun contribution =>
          if slot.policy = .fixed ∨ contribution.predicate.matchesContext context = true then
            some (selectionIndex, contribution)
          else
            none) →
      ∃ b ∈ slot.bindings, catalog.contributions.get b.contribution = some c := by
    intro i hi
    obtain ⟨⟨⟨b, j⟩, k⟩, hmem, hsome⟩ := List.mem_filterMap.mp hi
    obtain ⟨d, hd, hsome⟩ := Option.bind_eq_some_iff.mp hsome
    split_ifs at hsome
    obtain ⟨-, rfl⟩ := Prod.mk.inj (Option.some.inj hsome)
    have hb := List.fst_mem_of_mem_zipIdx hmem
    rw [List.mem_insertionSort] at hb
    exact ⟨b, List.fst_mem_of_mem_zipIdx hb, hd⟩
  simp only [selectBindings] at h
  split_ifs at h with hp
  · obtain ⟨⟨i, d⟩, hi, rfl⟩ := List.mem_map.mp h
    exact hcand i hi
  · split at h
    · next i d hmax =>
      obtain rfl := List.mem_singleton.mp h
      exact hcand i (maxByKey_mem hmax)
    · simp at h

section Slots

variable {α : Type} {resolve : ContributionDefinition → BarElement → Composing →
  Outcome ProfileError (α × Composing)}

/-- Composed elements and elements of the contribution correspond. -/
lemma composeElements_forall₂ {c : ContributionDefinition} {es : List BarElement} :
    ∀ {state state' : Composing} {Es : List α},
      composeElements resolve c es state = ok (Es, state') →
        List.Forall₂ (fun e E => ∃ s s', resolve c e s = ok (E, s')) es Es := by
  induction es with
  | nil =>
    intro state state' Es h
    obtain ⟨rfl, -⟩ := Prod.mk.inj (Outcome.ok.inj h)
    exact .nil
  | cons e es ih =>
    intro state state' Es h
    simp only [composeElements, bind_eq_ok, Prod.exists, pure_eq, ok.injEq, Prod.mk.injEq] at h
    obtain ⟨E, s₁, hE, rest, s₂, hrest, rfl, -⟩ := h
    exact .cons ⟨_, _, hE⟩ (ih hrest)

lemma mem_composeContributions {cs : List ContributionDefinition} :
    ∀ {state state' : Composing} {Es : List α},
      composeContributions resolve cs state = ok (Es, state') →
        (∀ E ∈ Es, ∃ c ∈ cs, ∃ e ∈ c.elements, ∃ s s', resolve c e s = ok (E, s')) ∧
          ∀ c ∈ cs, ∀ e ∈ c.elements, ∃ E ∈ Es, ∃ s s', resolve c e s = ok (E, s') := by
  induction cs with
  | nil =>
    intro state state' Es h
    obtain ⟨rfl, -⟩ := Prod.mk.inj (Outcome.ok.inj h)
    simp
  | cons c cs ih =>
    intro state state' Es h
    simp only [composeContributions, bind_eq_ok, Prod.exists, pure_eq, ok.injEq,
      Prod.mk.injEq] at h
    obtain ⟨here, s₁, hhere, rest, s₂, hrest, rfl, -⟩ := h
    have hrel := composeElements_forall₂ hhere
    obtain ⟨ihl, ihr⟩ := ih hrest
    constructor
    · intro E hE
      rcases List.mem_append.mp hE with hE | hE
      · obtain ⟨e, he, hs⟩ := forall₂_exists_left hrel hE
        exact ⟨c, List.mem_cons_self, e, he, hs⟩
      · obtain ⟨d, hd, he⟩ := ihl E hE
        exact ⟨d, List.mem_cons_of_mem _ hd, he⟩
    · intro d hd e he
      rcases List.mem_cons.mp hd with rfl | hd
      · obtain ⟨E, hE, hs⟩ := forall₂_exists_right hrel he
        exact ⟨E, List.mem_append_left _ hE, hs⟩
      · obtain ⟨E, hE, hs⟩ := ihr d hd e he
        exact ⟨E, List.mem_append_right _ hE, hs⟩

end Slots

/-- What is composed is a profile of the catalog. -/
lemma exists_profile_of_compose {catalog : ProfileCatalog} {registry : Registry}
    {context : ContextSnapshot} {id : ProfileId} {c : ProfileComposition}
    (h : catalog.compose registry context id = ok c) : ∃ p, catalog.profile id = some p := by
  simp only [ProfileCatalog.compose, bind_eq_ok] at h
  obtain ⟨_, -, h⟩ := h
  split at h
  · cases h
  · next p hp => exact ⟨p, hp⟩

/-! ## Composition does not panic -/

section NoPanic

lemma insertComposedGroup_ne_panic {ids : BTreeSet String} {id : String} :
    insertComposedGroup ids id ≠ panic := by
  rw [insertComposedGroup]
  split_ifs <;> simp

variable {registry : Registry} {contribution : ContributionDefinition}

lemma resolveItem_ne_panic {id : ItemId} {state : Composing} :
    resolveItem registry contribution id state ≠ panic := by
  rw [resolveItem]
  split_ifs
  · simp
  · split <;> simp

lemma resolveContributionGroupElements_ne_panic {es : List BarGroupElement}
    (hchild : ∀ g, BarGroupElement.group g ∈ es → ∀ state,
      resolveContributionGroup registry contribution g state ≠ panic) :
    ∀ state, resolveContributionGroupElements registry contribution es state ≠ panic := by
  induction es with
  | nil => simp [resolveContributionGroupElements]
  | cons e es ih =>
    intro state
    have ih := ih fun g hg => hchild g (List.mem_cons_of_mem _ hg)
    cases e with
    | item id =>
      simp [resolveContributionGroupElements, bind_eq_panic, resolveItem_ne_panic, ih]
    | group g =>
      simp [resolveContributionGroupElements, bind_eq_panic, hchild g List.mem_cons_self, ih]

lemma resolveContributionGroup_ne_panic (g : BarGroup) :
    ∀ state, resolveContributionGroup registry contribution g state ≠ panic := by
  induction g using BarGroup.nested_induction with
  | step g ih =>
    intro state
    obtain ⟨id, elements, layout, spacing, v, c⟩ := g
    have hels := resolveContributionGroupElements_ne_panic ih
    rw [resolveContributionGroup]
    simp [bind_eq_panic, insertComposedGroup_ne_panic, hels]

lemma resolveTopContributionElement_ne_panic {e : BarElement} (he : e ≠ .contextProxy)
    (state : Composing) : resolveTopContributionElement registry contribution e state ≠ panic := by
  cases e with
  | contextProxy => exact absurd rfl he
  | _ =>
    simp [resolveTopContributionElement, bind_eq_panic, resolveItem_ne_panic,
      resolveContributionGroup_ne_panic]

lemma resolveGroupedContributionElement_ne_panic {e : BarElement} (he : e ≠ .contextProxy)
    (hsp : e.isSpace = false) (state : Composing) :
    resolveGroupedContributionElement registry contribution e state ≠ panic := by
  cases e with
  | contextProxy => exact absurd rfl he
  | fixedSpace w => simp [BarElement.isSpace] at hsp
  | flexibleSpace m w => simp [BarElement.isSpace] at hsp
  | _ =>
    simp [resolveGroupedContributionElement, bind_eq_panic, resolveItem_ne_panic,
      resolveContributionGroup_ne_panic]

variable {α : Type} {resolve : ContributionDefinition → BarElement → Composing →
  Outcome ProfileError (α × Composing)}

lemma composeElements_ne_panic {c : ContributionDefinition} {es : List BarElement}
    (h : ∀ e ∈ es, ∀ state, resolve c e state ≠ panic) :
    ∀ state, composeElements resolve c es state ≠ panic := by
  induction es with
  | nil => simp [composeElements]
  | cons e es ih =>
    intro state
    have ih := ih fun e he => h e (List.mem_cons_of_mem _ he)
    simp [composeElements, bind_eq_panic, h e List.mem_cons_self, ih]

lemma composeContributions_ne_panic {cs : List ContributionDefinition}
    (h : ∀ c ∈ cs, ∀ e ∈ c.elements, ∀ state, resolve c e state ≠ panic) :
    ∀ state, composeContributions resolve cs state ≠ panic := by
  induction cs with
  | nil => simp [composeContributions]
  | cons c cs ih =>
    intro state
    have ih := ih fun d hd => h d (List.mem_cons_of_mem _ hd)
    have hc := composeElements_ne_panic (h c List.mem_cons_self)
    simp [composeContributions, bind_eq_panic, hc, ih]

variable {catalog : ProfileCatalog} {context : ContextSnapshot}

lemma composeTopSlot_ne_panic {slot : SlotDefinition}
    (hvalid : ∀ id c, catalog.contributions.get id = some c → c.Valid) (state : Composing) :
    composeTopSlot catalog registry context slot state ≠ panic := by
  refine composeContributions_ne_panic (fun c hc e he state => ?_) state
  obtain ⟨b, -, hb⟩ := exists_binding_of_mem_selectBindings hc
  refine resolveTopContributionElement_ne_panic ?_ state
  rintro rfl
  exact (hvalid _ c hb).no_proxy he

lemma composeGroupSlot_ne_panic {slot : SlotDefinition}
    (hvalid : ∀ id c, catalog.contributions.get id = some c → c.Valid)
    (hbound : slot.Bound catalog true) (state : Composing) :
    composeGroupSlot catalog registry context slot state ≠ panic := by
  refine composeContributions_ne_panic (fun c hc e he state => ?_) state
  obtain ⟨b, hmem, hb⟩ := exists_binding_of_mem_selectBindings hc
  obtain ⟨d, hd, hsp⟩ := hbound b hmem
  obtain rfl : c = d := Option.some.inj (hb.symm.trans hd)
  refine resolveGroupedContributionElement_ne_panic ?_ (hsp rfl e he) state
  rintro rfl
  exact (hvalid _ c hb).no_proxy he

lemma composeProfileGroupElements_ne_panic {profile : ProfileId} {path : List ℕ}
    {es : List ProfileGroupElement}
    (hvalid : ∀ id c, catalog.contributions.get id = some c → c.Valid)
    (hslot : ∀ s, ProfileGroupElement.slot s ∈ es → s.Bound catalog true)
    (hchild : ∀ g, ProfileGroupElement.group g ∈ es → ∀ path state,
      composeProfileGroup catalog registry context profile g path state ≠ panic) :
    ∀ index state,
      composeProfileGroupElements catalog registry context profile path index es state ≠ panic := by
  induction es with
  | nil => simp [composeProfileGroupElements]
  | cons e es ih =>
    intro index state
    have ih := ih (fun s hs => hslot s (List.mem_cons_of_mem _ hs))
      fun g hg => hchild g (List.mem_cons_of_mem _ hg)
    cases e with
    | slot s =>
      have hs := fun state => @composeGroupSlot_ne_panic registry catalog context s hvalid
        (hslot s List.mem_cons_self) state
      simp [composeProfileGroupElements, bind_eq_panic, hs, insertComposedGroup_ne_panic, ih]
    | group g =>
      have hg := hchild g List.mem_cons_self
      simp [composeProfileGroupElements, bind_eq_panic, hg, ih]

lemma composeProfileGroup_ne_panic {profile : ProfileId} (g : ProfileGroup)
    (hvalid : ∀ id c, catalog.contributions.get id = some c → c.Valid) :
    ∀ {d : ℕ}, g.ValidAt catalog d → ∀ path state,
      composeProfileGroup catalog registry context profile g path state ≠ panic := by
  induction g using ProfileGroup.nested_induction with
  | step g ih =>
    intro d hg path state
    obtain ⟨-, -, hbound, hchild⟩ := hg
    obtain ⟨id, elements, layout, spacing, v, c⟩ := g
    have hels := fun path => @composeProfileGroupElements_ne_panic registry catalog context profile
      path elements hvalid hbound fun g hg => ih g hg (hchild g hg)
    rw [composeProfileGroup]
    simp [bind_eq_panic, insertComposedGroup_ne_panic, hels]

lemma composeProfileElements_ne_panic {profile : ProfileId} {es : List ProfileElement}
    (hvalid : ∀ id c, catalog.contributions.get id = some c → c.Valid)
    (hgroup : ∀ g, ProfileElement.group g ∈ es → g.ValidAt catalog 1) :
    ∀ start state,
      composeProfileElements catalog registry context profile start es state ≠ panic := by
  induction es with
  | nil => simp [composeProfileElements]
  | cons e es ih =>
    intro start state
    have ih := ih fun g hg => hgroup g (List.mem_cons_of_mem _ hg)
    cases e with
    | slot s =>
      have hs := fun state => @composeTopSlot_ne_panic registry catalog context s hvalid state
      simp [composeProfileElements, bind_eq_panic, hs, ih]
    | group g =>
      have hg := fun path state => @composeProfileGroup_ne_panic registry catalog context profile g
        hvalid 1 (hgroup g List.mem_cons_self) path state
      simp [composeProfileElements, bind_eq_panic, hg, ih]
    | fixedSpace w => simp [composeProfileElements, bind_eq_panic, ih]
    | flexibleSpace m w => simp [composeProfileElements, bind_eq_panic, ih]

/-- Neither of the two `unreachable!` is reached, whatever the catalog. -/
theorem compose_ne_panic (id : ProfileId) : catalog.compose registry context id ≠ panic := by
  intro h
  simp only [ProfileCatalog.compose, bind_eq_panic, validate_ne_panic, false_or] at h
  obtain ⟨_, hval, h⟩ := h
  obtain ⟨hcontributions, hprofiles⟩ := ProfileCatalog.valid_of_validate hval
  split at h
  · cases h
  · next p hp =>
    have hels := fun start state => @composeProfileElements_ne_panic registry catalog context p.id
      p.elements hcontributions (hprofiles id p hp).group start state
    simp [bind_eq_panic, hels] at h

end NoPanic

end TouchBar.Model
