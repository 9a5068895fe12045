import TouchBar.Layout.Depth
import TouchBar.Model.Compose

/-!
# The nesting depth of a composition

Validation bounds the depth of profile groups, with room for the group that a
grouped slot becomes, and separately the depth of the groups of a contribution.
Composition puts the second inside the first.  The main result is the exact
condition under which the composed bar stays within the limit of the resolver:
in every grouped slot, the depth of the slot, its own group and the groups of the
contributions that are selected for it add up to at most `maxGroupDepth`.
-/

namespace TouchBar.Model

open TouchBar.Rust TouchBar.Lib TouchBar.Layout Outcome

/-! ## Slots inside groups -/

mutual

/-- The slots of a group at the given depth, each with the depth of its container. -/
def ProfileGroup.slotsAt : ProfileGroup → ℕ → List (ℕ × SlotDefinition)
  | ⟨_, elements, _, _, _, _⟩, d => ProfileGroupElement.listSlotsAt elements d

def ProfileGroupElement.listSlotsAt : List ProfileGroupElement → ℕ → List (ℕ × SlotDefinition)
  | [], _ => []
  | .slot s :: es, d => (d, s) :: ProfileGroupElement.listSlotsAt es d
  | .group g :: es, d => g.slotsAt (d + 1) ++ ProfileGroupElement.listSlotsAt es d

end

def ProfileElement.groupedSlots : ProfileElement → List (ℕ × SlotDefinition)
  | .group g => g.slotsAt 1
  | .slot _ => []
  | .fixedSpace _ => []
  | .flexibleSpace _ _ => []

/-- The slots of a profile that stand inside groups, each with the number of groups
around it. -/
def ProfileDefinition.groupedSlots (p : ProfileDefinition) : List (ℕ × SlotDefinition) :=
  p.elements.flatMap ProfileElement.groupedSlots

/-- What is selected for a slot inside `d` groups fits under the limit, the group of the
slot included. -/
def SlotFits (catalog : ProfileCatalog) (context : ContextSnapshot) (d : ℕ)
    (slot : SlotDefinition) : Prop :=
  ∀ c ∈ selectBindings catalog slot context, ∀ g, BarElement.group g ∈ c.elements →
    d + 1 + g.depth ≤ maxGroupDepth

/-! ## Depth of composed groups -/

section Contributions

variable {registry : Registry} {contribution : ContributionDefinition}

lemma listDepth_resolveContributionGroupElements {es : List BarGroupElement}
    (hchild : ∀ g, BarGroupElement.group g ∈ es → ∀ {state state' G},
      resolveContributionGroup registry contribution g state = ok (G, state') →
        G.depth = g.depth) :
    ∀ {state state' Es},
      resolveContributionGroupElements registry contribution es state = ok (Es, state') →
        GroupElement.listDepth Es = BarGroupElement.listDepth es := by
  induction es with
  | nil =>
    intro state state' Es h
    rw [resolveContributionGroupElements] at h
    obtain ⟨rfl, -⟩ := Prod.mk.inj (Outcome.ok.inj h)
    simp [GroupElement.listDepth, BarGroupElement.listDepth]
  | cons e es ih =>
    intro state state' Es h
    replace ih := @ih fun g hg => hchild g (List.mem_cons_of_mem _ hg)
    cases e with
    | item id =>
      simp only [resolveContributionGroupElements, bind_eq_ok, Prod.exists, pure_eq, ok.injEq,
        Prod.mk.injEq] at h
      obtain ⟨i, s₁, -, rest, s₂, hrest, rfl, -⟩ := h
      rw [GroupElement.listDepth, BarGroupElement.listDepth, ih hrest]
    | group g =>
      simp only [resolveContributionGroupElements, bind_eq_ok, Prod.exists, pure_eq, ok.injEq,
        Prod.mk.injEq] at h
      obtain ⟨G, s₁, hG, rest, s₂, hrest, rfl, -⟩ := h
      rw [GroupElement.listDepth, BarGroupElement.listDepth, ih hrest,
        hchild g List.mem_cons_self hG]

/-- A group keeps its depth. -/
lemma depth_resolveContributionGroup (g : BarGroup) :
    ∀ {state state' G}, resolveContributionGroup registry contribution g state = ok (G, state') →
      G.depth = g.depth := by
  induction g using BarGroup.nested_induction with
  | step g ih =>
    intro state state' G h
    obtain ⟨id, elements, layout, spacing, v, c⟩ := g
    simp only [resolveContributionGroup, bind_eq_ok, Prod.exists, pure_eq, ok.injEq,
      Prod.mk.injEq] at h
    obtain ⟨_, -, Es, s, hEs, rfl, -⟩ := h
    rw [GroupSpec.depth, BarGroup.depth, listDepth_resolveContributionGroupElements ih hEs]

lemma resolveGroupedContributionElement_spec {e : BarElement} {E : GroupElement}
    {state state' : Composing}
    (h : resolveGroupedContributionElement registry contribution e state = ok (E, state')) :
    (∃ id i, e = .item id ∧ E = .item i) ∨
      ∃ g G, e = .group g ∧ E = .group G ∧ G.depth = g.depth := by
  cases e with
  | item id =>
    simp only [resolveGroupedContributionElement, bind_eq_ok, Prod.exists, pure_eq, ok.injEq,
      Prod.mk.injEq] at h
    obtain ⟨i, s, -, rfl, -⟩ := h
    exact .inl ⟨id, i, rfl, rfl⟩
  | group g =>
    simp only [resolveGroupedContributionElement, bind_eq_ok, Prod.exists, pure_eq, ok.injEq,
      Prod.mk.injEq] at h
    obtain ⟨G, s, hG, rfl, -⟩ := h
    exact .inr ⟨g, G, rfl, rfl, depth_resolveContributionGroup g hG⟩
  | fixedSpace w => cases h
  | flexibleSpace m w => cases h
  | contextProxy => cases h

lemma depth_resolveTopContributionElement {e : BarElement} {E : Element}
    {state state' : Composing}
    (h : resolveTopContributionElement registry contribution e state = ok (E, state')) :
    E.depth = 0 ∨ ∃ g, e = .group g ∧ E.depth = g.depth := by
  cases e with
  | item id =>
    simp only [resolveTopContributionElement, bind_eq_ok, Prod.exists, pure_eq, ok.injEq,
      Prod.mk.injEq] at h
    obtain ⟨i, s, -, rfl, -⟩ := h
    exact .inl rfl
  | group g =>
    simp only [resolveTopContributionElement, bind_eq_ok, Prod.exists, pure_eq, ok.injEq,
      Prod.mk.injEq] at h
    obtain ⟨G, s, hG, rfl, -⟩ := h
    exact .inr ⟨g, rfl, depth_resolveContributionGroup g hG⟩
  | fixedSpace w =>
    obtain ⟨rfl, -⟩ := Prod.mk.inj (Outcome.ok.inj h)
    exact .inl rfl
  | flexibleSpace m w =>
    obtain ⟨rfl, -⟩ := Prod.mk.inj (Outcome.ok.inj h)
    exact .inl rfl
  | contextProxy => cases h

end Contributions

section Slots

variable {catalog : ProfileCatalog} {registry : Registry} {context : ContextSnapshot}

/-- The depth of what fills a grouped slot. -/
lemma listDepth_composeGroupSlot_le_iff {slot : SlotDefinition} {state state' : Composing}
    {Es : List GroupElement}
    (h : composeGroupSlot catalog registry context slot state = ok (Es, state')) {n : ℕ} :
    GroupElement.listDepth Es ≤ n ↔ ∀ c ∈ selectBindings catalog slot context,
      ∀ g, BarElement.group g ∈ c.elements → g.depth ≤ n := by
  obtain ⟨hfrom, hto⟩ := mem_composeContributions h
  rw [GroupElement.listDepth_le_iff]
  constructor
  · intro hle c hc g hg
    obtain ⟨E, hE, s, s', hres⟩ := hto c hc _ hg
    rcases resolveGroupedContributionElement_spec hres with ⟨_, _, he, -⟩ | ⟨g', G, he, rfl, hd⟩
    · cases he
    · obtain rfl := BarElement.group.inj he
      rw [← hd]
      exact hle G hE
  · intro hle G hG
    obtain ⟨c, hc, e, he, s, s', hres⟩ := hfrom _ hG
    rcases resolveGroupedContributionElement_spec hres with ⟨_, _, -, hE⟩ | ⟨g, G', rfl, hE, hd⟩
    · cases hE
    · obtain rfl := GroupElement.group.inj hE
      rw [hd]
      exact hle c hc g he

/-- Contributions in a slot of the bar are within the limit on their own. -/
lemma depth_composeTopSlot_le {slot : SlotDefinition} {state state' : Composing} {Es : List Element}
    (hvalid : ∀ id c, catalog.contributions.get id = some c → c.Valid)
    (h : composeTopSlot catalog registry context slot state = ok (Es, state')) :
    ∀ E ∈ Es, E.depth ≤ maxGroupDepth := by
  intro E hE
  obtain ⟨c, hc, e, he, s, s', hres⟩ := (mem_composeContributions h).1 E hE
  obtain ⟨b, -, hb⟩ := exists_binding_of_mem_selectBindings hc
  rcases depth_resolveTopContributionElement hres with h0 | ⟨g, rfl, hd⟩
  · omega
  · rw [hd]
    exact (hvalid _ c hb).depth_le g he

lemma composeProfileGroupElements_depth_iff {profile : ProfileId} {path : List ℕ} {d : ℕ}
    {es : List ProfileGroupElement} (hd : d ≤ maxGroupDepth)
    (hslot : ∀ s, ProfileGroupElement.slot s ∈ es → d < maxGroupDepth)
    (hchild : ∀ g, ProfileGroupElement.group g ∈ es → ∀ {path state state' G},
      composeProfileGroup catalog registry context profile g path state = ok (G, state') →
        (d + 1 + G.depth ≤ maxGroupDepth + 1 ↔
          ∀ x ∈ g.slotsAt (d + 1), SlotFits catalog context x.1 x.2)) :
    ∀ {index state state' Es},
      composeProfileGroupElements catalog registry context profile path index es state =
        ok (Es, state') →
      (d + GroupElement.listDepth Es ≤ maxGroupDepth ↔
        ∀ x ∈ ProfileGroupElement.listSlotsAt es d, SlotFits catalog context x.1 x.2) := by
  induction es with
  | nil =>
    intro index state state' Es h
    rw [composeProfileGroupElements] at h
    obtain ⟨rfl, -⟩ := Prod.mk.inj (Outcome.ok.inj h)
    simp [GroupElement.listDepth, ProfileGroupElement.listSlotsAt, hd]
  | cons e es ih =>
    intro index state state' Es h
    replace ih := @ih (fun s hs => hslot s (List.mem_cons_of_mem _ hs))
      fun g hg => hchild g (List.mem_cons_of_mem _ hg)
    cases e with
    | slot s =>
      simp only [composeProfileGroupElements, bind_eq_ok, Prod.exists, pure_eq, ok.injEq,
        Prod.mk.injEq] at h
      obtain ⟨els, s₁, hels, _, -, rest, s₂, hrest, rfl, -⟩ := h
      have hlt := hslot s List.mem_cons_self
      -- the group of the slot takes one level more than its elements
      have hfits : d + (GroupElement.listDepth els + 1) ≤ maxGroupDepth ↔
          SlotFits catalog context d s := by
        have hiff := @listDepth_composeGroupSlot_le_iff catalog registry context s _ _ _ hels
          (maxGroupDepth - (d + 1))
        constructor
        · intro hle c hc g hg
          have := hiff.mp (by omega) c hc g hg
          omega
        · intro hfit
          have := hiff.mpr fun c hc g hg => by
            have := hfit c hc g hg
            omega
          omega
      rw [GroupElement.listDepth, GroupSpec.depth, ProfileGroupElement.listSlotsAt,
        List.forall_mem_cons, ← hfits, ← ih hrest]
      omega
    | group g =>
      simp only [composeProfileGroupElements, bind_eq_ok, Prod.exists, pure_eq, ok.injEq,
        Prod.mk.injEq] at h
      obtain ⟨G, s₁, hG, rest, s₂, hrest, rfl, -⟩ := h
      have hiff := hchild g List.mem_cons_self hG
      rw [GroupElement.listDepth, ProfileGroupElement.listSlotsAt, List.forall_mem_append, ← hiff,
        ← ih hrest]
      omega

/-- A composed group stays within the limit exactly if all slots inside it fit. -/
lemma composeProfileGroup_depth_iff {profile : ProfileId} (g : ProfileGroup) :
    ∀ {d : ℕ}, g.ValidAt catalog d → ∀ {path state state' G},
      composeProfileGroup catalog registry context profile g path state = ok (G, state') →
      (d + G.depth ≤ maxGroupDepth + 1 ↔
        ∀ x ∈ g.slotsAt d, SlotFits catalog context x.1 x.2) := by
  induction g using ProfileGroup.nested_induction with
  | step g ih =>
    intro d hvalid path state state' G h
    obtain ⟨hd, hslot, -, hchild⟩ := hvalid
    obtain ⟨id, elements, layout, spacing, v, c⟩ := g
    simp only [composeProfileGroup, bind_eq_ok, Prod.exists, pure_eq, ok.injEq, Prod.mk.injEq] at h
    obtain ⟨_, -, Es, s, hEs, rfl, -⟩ := h
    have hiff := composeProfileGroupElements_depth_iff hd hslot
      (fun g hg {path state state' G} hG => ih g hg (hchild g hg) hG) hEs
    rw [GroupSpec.depth, ProfileGroup.slotsAt, ← hiff]
    omega

lemma composeProfileElements_depth_iff {profile : ProfileId} {es : List ProfileElement}
    (hvalid : ∀ id c, catalog.contributions.get id = some c → c.Valid)
    (hgroup : ∀ g, ProfileElement.group g ∈ es → g.ValidAt catalog 1) :
    ∀ {start state state' Es},
      composeProfileElements catalog registry context profile start es state = ok (Es, state') →
      ((∀ E ∈ Es, E.depth ≤ maxGroupDepth) ↔
        ∀ x ∈ es.flatMap ProfileElement.groupedSlots, SlotFits catalog context x.1 x.2) := by
  induction es with
  | nil =>
    intro start state state' Es h
    obtain ⟨rfl, -⟩ := Prod.mk.inj (Outcome.ok.inj h)
    simp
  | cons e es ih =>
    intro start state state' Es h
    replace ih := @ih fun g hg => hgroup g (List.mem_cons_of_mem _ hg)
    cases e with
    | slot s =>
      simp only [composeProfileElements, bind_eq_ok, Prod.exists, pure_eq, ok.injEq,
        Prod.mk.injEq] at h
      obtain ⟨els, s₁, hels, rest, s₂, hrest, rfl, -⟩ := h
      -- no wrapper group around a slot of the bar itself
      have hle := depth_composeTopSlot_le hvalid hels
      rw [List.flatMap_cons, ProfileElement.groupedSlots, List.nil_append, ← ih hrest,
        List.forall_mem_append]
      exact and_iff_right hle
    | group g =>
      simp only [composeProfileElements, bind_eq_ok, Prod.exists, pure_eq, ok.injEq,
        Prod.mk.injEq] at h
      obtain ⟨G, s₁, hG, rest, s₂, hrest, rfl, -⟩ := h
      -- the element of the bar is one level above its group
      have hiff := composeProfileGroup_depth_iff g (hgroup g List.mem_cons_self) hG
      rw [List.flatMap_cons, ProfileElement.groupedSlots, List.forall_mem_append,
        List.forall_mem_cons, ← hiff, ← ih hrest, Element.depth, Nat.add_comm 1,
        Nat.add_le_add_iff_right]
    | fixedSpace w =>
      simp only [composeProfileElements, bind_eq_ok, Prod.exists, pure_eq, ok.injEq,
        Prod.mk.injEq] at h
      obtain ⟨rest, s₂, hrest, rfl, -⟩ := h
      rw [List.flatMap_cons, ProfileElement.groupedSlots, List.nil_append, ← ih hrest,
        List.forall_mem_cons]
      exact and_iff_right (Nat.zero_le _)
    | flexibleSpace m w =>
      simp only [composeProfileElements, bind_eq_ok, Prod.exists, pure_eq, ok.injEq,
        Prod.mk.injEq] at h
      obtain ⟨rest, s₂, hrest, rfl, -⟩ := h
      rw [List.flatMap_cons, ProfileElement.groupedSlots, List.nil_append, ← ih hrest,
        List.forall_mem_cons]
      exact and_iff_right (Nat.zero_le _)

end Slots

/-! ## The main result -/

/-- A composition is within the nesting limit, so that the resolver never reports its
depth at any width, exactly if what is selected for the grouped slots of the profile
fits there. -/
theorem compose_depth_iff {catalog : ProfileCatalog} {registry : Registry}
    {context : ContextSnapshot} {id : ProfileId} {p : ProfileDefinition} {c : ProfileComposition}
    (hp : catalog.profile id = some p) (h : catalog.compose registry context id = ok c) :
    (c.bar.depth ≤ maxGroupDepth ∧ ∀ available required group,
      resolve c.bar available required ≠ err (.groupDepthExceeded group)) ↔
      ∀ x ∈ p.groupedSlots, SlotFits catalog context x.1 x.2 := by
  simp only [ProfileCatalog.compose, bind_eq_ok] at h
  obtain ⟨_, hval, h⟩ := h
  obtain ⟨hcontributions, hprofiles⟩ := ProfileCatalog.valid_of_validate hval
  rw [ProfileCatalog.profile] at hp
  rw [hp] at h
  simp only [bind_eq_ok, Prod.exists, pure_eq, ok.injEq] at h
  obtain ⟨elements, state, hels, rfl⟩ := h
  rw [ProfileDefinition.groupedSlots,
    ← composeProfileElements_depth_iff hcontributions (hprofiles id p hp).group hels]
  constructor
  · rintro ⟨hle, -⟩
    exact BarSpec.depth_le_iff.mp hle
  · intro hle
    have hdepth : BarSpec.depth ⟨elements, p.principalItem.filter state.itemIds.contains⟩ ≤
        maxGroupDepth := BarSpec.depth_le_iff.mpr hle
    exact ⟨hdepth, resolve_ne_groupDepthExceeded hdepth⟩

/-! ## A composition that is too deep -/

/-- Groups around an element, from the outside in. -/
def nestGroups (names : List String) (inner : ProfileGroupElement) : ProfileGroupElement :=
  names.foldr (fun name e => .group ⟨name, [e], .natural, 0, 0, 0⟩) inner

def clockRegistry : Outcome ModelError Registry :=
  Registry.default.addItem ⟨.new "clock" 40 40 40, "Clock", none, none⟩

/-- A slot inside `names.length + 1` groups, bound to a contribution with one group. -/
def nestedCatalog (names : List String) : Outcome ProfileError ProfileCatalog := do
  let catalog ← ProfileCatalog.default.addContribution
    ⟨⟨"time"⟩, [.group ⟨"time", [.item ⟨"clock"⟩], .natural, 0, 0, 0⟩], .always, .global, 0⟩
  catalog.addProfile ⟨⟨"main"⟩, [.group ⟨"outer",
    [nestGroups names (.slot ⟨⟨"status"⟩, .collect, [⟨⟨"time"⟩, 0⟩]⟩)], .natural, 0, 0, 0⟩], none⟩

def composeNested (names : List String) : Option ProfileComposition :=
  match clockRegistry, nestedCatalog names with
  | ok registry, ok catalog =>
    match catalog.compose registry ⟨0, .empty⟩ ⟨"main"⟩ with
    | ok c => some c
    | _ => none
  | _, _ => none

lemma composeNested_eq_some {names : List String} {c : ProfileComposition}
    (h : composeNested names = some c) :
    ∃ registry catalog, clockRegistry = ok registry ∧ nestedCatalog names = ok catalog ∧
      catalog.compose registry ⟨0, .empty⟩ ⟨"main"⟩ = ok c := by
  rw [composeNested] at h
  split at h
  · next registry catalog hreg hcat =>
    split at h
    · next c' hcompose =>
      obtain rfl := Option.some.inj h
      exact ⟨registry, catalog, hreg, hcat, hcompose⟩
    · cases h
  · cases h

/-- With seven groups around the slot the catalog validates and composes, but its bar has
nine levels and does not resolve. -/
theorem compose_too_deep :
    ∃ registry catalog c, clockRegistry = ok registry ∧
      nestedCatalog ["b", "c", "d", "e", "f", "g"] = ok catalog ∧
      catalog.compose registry ⟨0, .empty⟩ ⟨"main"⟩ = ok c ∧ c.bar.depth = 9 ∧
      resolve c.bar 100 .empty = err (.groupDepthExceeded "time") := by
  have heval : (composeNested ["b", "c", "d", "e", "f", "g"]).map
      (fun c => (c.bar.depth, resolve c.bar 100 .empty)) =
        some (9, err (.groupDepthExceeded "time")) := by
    decide
  obtain ⟨c, hc, hpair⟩ := Option.map_eq_some_iff.mp heval
  obtain ⟨hdepth, hresolve⟩ := Prod.mk.inj hpair
  obtain ⟨registry, catalog, hreg, hcat, hcompose⟩ := composeNested_eq_some hc
  exact ⟨registry, catalog, c, hreg, hcat, hcompose, hdepth, hresolve⟩

/-- With one group around the slot the bar is within the limit. -/
theorem compose_depth_iff_one_group :
    ∃ registry catalog p c, clockRegistry = ok registry ∧ nestedCatalog [] = ok catalog ∧
      catalog.profile ⟨"main"⟩ = some p ∧
      catalog.compose registry ⟨0, .empty⟩ ⟨"main"⟩ = ok c ∧ c.bar.depth = 3 ∧
      ∀ x ∈ p.groupedSlots, SlotFits catalog ⟨0, .empty⟩ x.1 x.2 := by
  have heval : (composeNested []).map (fun c => c.bar.depth) = some 3 := by decide
  obtain ⟨c, hc, hdepth⟩ := Option.map_eq_some_iff.mp heval
  obtain ⟨registry, catalog, hreg, hcat, hcompose⟩ := composeNested_eq_some hc
  obtain ⟨p, hp⟩ := exists_profile_of_compose hcompose
  have hle : c.bar.depth ≤ maxGroupDepth := by
    rw [hdepth]
    decide
  exact ⟨registry, catalog, p, c, hreg, hcat, hp, hcompose, hdepth,
    (compose_depth_iff hp hcompose).mp ⟨hle, resolve_ne_groupDepthExceeded hle⟩⟩

end TouchBar.Model
