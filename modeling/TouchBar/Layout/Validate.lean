import TouchBar.Layout.Sizing

/-!
# Validation of a bar

`validate` walks a bar in document order with the identifiers seen so far.  A bar
that passes has well-formed items with distinct identifiers, and the required and
principal items are among them.  The nesting depth of a group is bounded by
`maxGroupDepth`, and it is the only thing that the depth error depends on.
-/

namespace TouchBar.Layout

open TouchBar.Rust TouchBar.Lib Outcome

def validateItem (i : ItemSpec) (identifiers : BTreeSet ItemId) :
    Outcome LayoutError (BTreeSet ItemId) :=
  if i.id.value = "" then
    err .emptyItemId
  else if i.minWidth = 0 ∨ i.minWidth > i.preferredWidth ∨ i.preferredWidth > i.maxWidth then
    err (.invalidSizing i.id)
  else if identifiers.contains i.id then
    err (.duplicateItem i.id)
  else
    ok (identifiers.insert i.id)

mutual

def validateGroup : GroupSpec → ℕ → BTreeSet ItemId → BTreeSet String →
    Outcome LayoutError (BTreeSet ItemId × BTreeSet String)
  | ⟨id, elements, layout, spacing, v, c⟩, depth, items, groups =>
    if id = "" then
      err .emptyGroupId
    else if depth > maxGroupDepth then
      err (.groupDepthExceeded id)
    else if groups.contains id then
      err (.duplicateGroup id)
    else do
      let (items, groups) ← validateGroupElements elements depth items (groups.insert id)
      let _ ← groupSizing ⟨id, elements, layout, spacing, v, c⟩
      return (items, groups)

/-- The loop of `validate_group` over the elements of a group at the given depth. -/
def validateGroupElements : List GroupElement → ℕ → BTreeSet ItemId → BTreeSet String →
    Outcome LayoutError (BTreeSet ItemId × BTreeSet String)
  | [], _, items, groups => ok (items, groups)
  | .item i :: es, depth, items, groups => do
    let items ← validateItem i items
    validateGroupElements es depth items groups
  | .group g :: es, depth, items, groups => do
    let (items, groups) ← validateGroup g (depth + 1) items groups
    validateGroupElements es depth items groups

end

/-- The loop of `validate` over the elements of the bar, from the given index on. -/
def validateElements : ℕ → List Element → BTreeSet ItemId → BTreeSet String →
    Outcome LayoutError (BTreeSet ItemId × BTreeSet String)
  | _, [], items, groups => ok (items, groups)
  | index, .item i :: es, items, groups => do
    let items ← validateItem i items
    validateElements (index + 1) es items groups
  | index, .group g :: es, items, groups => do
    let (items, groups) ← validateGroup g 1 items groups
    validateElements (index + 1) es items groups
  | index, .flexibleSpace _ weight :: es, items, groups =>
    if weight = 0 then
      err (.invalidFlexibleSpace index)
    else
      validateElements (index + 1) es items groups
  | index, .fixedSpace _ :: es, items, groups => validateElements (index + 1) es items groups

def validate (bar : BarSpec) (required : BTreeSet ItemId) : Outcome LayoutError Unit := do
  let (identifiers, _) ← validateElements 0 bar.elements .empty .empty
  match bar.principalItem.filter fun principal => !identifiers.contains principal with
  | some principal => err (.unknownPrincipal principal)
  | none =>
    match required.toList.find? fun item => !identifiers.contains item with
    | some unknown => err (.unknownRequired unknown)
    | none => ok ()

/-! ## The items of a validated bar -/

/-- The items of the list are well formed, and adding their identifiers to `ids`
one after the other, without a repetition, gives `ids'`. -/
structure Collects (is : List ItemSpec) (ids ids' : BTreeSet ItemId) : Prop where
  wf : ∀ i ∈ is, i.WF
  nodup : (is.map ItemSpec.id).Nodup
  fresh : ∀ i ∈ is, i.id ∉ ids
  mem_iff : ∀ a, a ∈ ids' ↔ a ∈ ids ∨ a ∈ is.map ItemSpec.id

namespace Collects

variable {is js : List ItemSpec} {ids ids' ids'' : BTreeSet ItemId}

lemma nil : Collects [] ids ids := ⟨by simp, by simp, by simp, by simp⟩

lemma append (h : Collects is ids ids') (h' : Collects js ids' ids'') :
    Collects (is ++ js) ids ids'' where
  wf i hi := (List.mem_append.mp hi).elim (h.wf i) (h'.wf i)
  nodup := by
    rw [List.map_append, List.nodup_append]
    refine ⟨h.nodup, h'.nodup, ?_⟩
    rintro a ha b hb rfl
    obtain ⟨j, hj, rfl⟩ := List.mem_map.mp hb
    exact h'.fresh j hj ((h.mem_iff _).mpr (Or.inr ha))
  fresh i hi := by
    rcases List.mem_append.mp hi with hi | hi
    · exact h.fresh i hi
    · exact fun hmem => h'.fresh i hi ((h.mem_iff _).mpr (Or.inl hmem))
  mem_iff a := by
    rw [h'.mem_iff, h.mem_iff, List.map_append, List.mem_append, or_assoc]

end Collects

lemma validateItem_collects {i : ItemSpec} {ids ids' : BTreeSet ItemId}
    (h : validateItem i ids = ok ids') : Collects [i] ids ids' := by
  rw [validateItem] at h
  split_ifs at h with _ hsize hdup
  obtain rfl := Outcome.ok.inj h
  simp only [not_or, gt_iff_lt, UInt32.lt_iff_toNat_lt, not_lt] at hsize
  obtain ⟨hne, h1, h2⟩ := hsize
  have hpos : 0 < i.minWidth.toNat := by
    rcases Nat.eq_zero_or_pos i.minWidth.toNat with h0 | h0
    · exact absurd (UInt32.toNat_inj.mp (by simpa using h0)) hne
    · exact h0
  rw [BTreeSet.contains_iff] at hdup
  exact ⟨by simpa using ⟨hpos, h1, h2⟩, by simp, by simpa using hdup,
    by simp [or_comm]⟩

/-- The elements of a group, given that its child groups collect their items. -/
lemma validateGroupElements_collects {es : List GroupElement}
    (hchild : ∀ g, GroupElement.group g ∈ es → ∀ {d ids gs ids' gs'},
      validateGroup g d ids gs = ok (ids', gs') → Collects g.items ids ids') :
    ∀ {d ids gs ids' gs'}, validateGroupElements es d ids gs = ok (ids', gs') →
      Collects (es.flatMap GroupElement.items) ids ids' := by
  induction es with
  | nil =>
    intro d ids gs ids' gs' h
    rw [validateGroupElements] at h
    obtain ⟨rfl, rfl⟩ := Prod.mk.inj (Outcome.ok.inj h)
    exact .nil
  | cons e es ih =>
    intro d ids gs ids' gs' h
    replace ih := @ih fun g hg => hchild g (List.mem_cons_of_mem _ hg)
    rw [List.flatMap_cons]
    cases e with
    | item i =>
      rw [validateGroupElements] at h
      simp only [bind_eq_ok] at h
      obtain ⟨ids₁, hi, h⟩ := h
      exact (validateItem_collects hi).append (ih h)
    | group g =>
      rw [validateGroupElements] at h
      simp only [bind_eq_ok, Prod.exists] at h
      obtain ⟨ids₁, gs₁, hg, h⟩ := h
      exact (hchild g List.mem_cons_self hg).append (ih h)

lemma validateGroup_collects (g : GroupSpec) :
    ∀ {d ids gs ids' gs'}, validateGroup g d ids gs = ok (ids', gs') →
      Collects g.items ids ids' := by
  induction g using GroupSpec.nested_induction with
  | step g ih =>
    intro d ids gs ids' gs' h
    rw [GroupSpec.items_eq]
    obtain ⟨id, elements, layout, spacing, v, c⟩ := g
    rw [validateGroup] at h
    split_ifs at h
    simp only [bind_eq_ok, Prod.exists, pure_eq, ok.injEq, Prod.mk.injEq] at h
    obtain ⟨ids₁, gs₁, hels, _, -, rfl, rfl⟩ := h
    exact validateGroupElements_collects ih hels

lemma validateElements_collects {es : List Element} :
    ∀ {n ids gs ids' gs'}, validateElements n es ids gs = ok (ids', gs') →
      Collects (es.flatMap Element.items) ids ids' := by
  induction es with
  | nil =>
    intro n ids gs ids' gs' h
    rw [validateElements] at h
    obtain ⟨rfl, rfl⟩ := Prod.mk.inj (Outcome.ok.inj h)
    exact .nil
  | cons e es ih =>
    intro n ids gs ids' gs' h
    rw [List.flatMap_cons]
    cases e with
    | item i =>
      simp only [validateElements, bind_eq_ok] at h
      obtain ⟨ids₁, hi, h⟩ := h
      exact (validateItem_collects hi).append (ih h)
    | group g =>
      simp only [validateElements, bind_eq_ok, Prod.exists] at h
      obtain ⟨ids₁, gs₁, hg, h⟩ := h
      exact (validateGroup_collects g hg).append (ih h)
    | fixedSpace w => exact ih h
    | flexibleSpace m w =>
      rw [validateElements] at h
      split_ifs at h
      exact ih h

/-- What every later step of the resolver may assume of its bar. -/
structure ValidBar (bar : BarSpec) (required : BTreeSet ItemId) : Prop where
  items_wf : ∀ i ∈ bar.items, i.WF
  ids_nodup : (bar.items.map ItemSpec.id).Nodup
  principal_mem : ∀ p, bar.principalItem = some p → p ∈ bar.items.map ItemSpec.id
  required_mem : ∀ r ∈ required, r ∈ bar.items.map ItemSpec.id

theorem validBar_of_validate {bar : BarSpec} {required : BTreeSet ItemId}
    (h : validate bar required = ok ()) : ValidBar bar required := by
  simp only [validate, bind_eq_ok, Prod.exists] at h
  obtain ⟨ids, gs, hels, h⟩ := h
  have hc := validateElements_collects hels
  have hmem : ∀ a, a ∈ ids ↔ a ∈ bar.items.map ItemSpec.id := by
    intro a
    rw [hc.mem_iff]
    simp [BarSpec.items]
  split at h
  · exact absurd h (by simp)
  · next hprin =>
    split at h
    · exact absurd h (by simp)
    · next hreq =>
      refine ⟨hc.wf, hc.nodup, fun p hp => ?_, fun r hr => ?_⟩
      · rw [hp, Option.filter_eq_none_iff] at hprin
        rw [← hmem]
        simpa using hprin p rfl
      · rw [List.find?_eq_none] at hreq
        rw [← hmem]
        simpa using hreq r hr

end TouchBar.Layout
