import TouchBar.Layout.Resolve

/-!
# Nesting depth

The resolver accepts groups down to the level `maxGroupDepth`.  This file has the
depth of groups and bars, and the result that a bar within the limit never makes
the resolver fail with `groupDepthExceeded`, whatever the width and the required
items: no later stage raises that error.
-/

namespace TouchBar.Layout

open TouchBar.Rust TouchBar.Lib Outcome

mutual

/-- The number of groups on the longest path into a group, the group itself included. -/
def GroupSpec.depth : GroupSpec → ℕ
  | ⟨_, elements, _, _, _, _⟩ => GroupElement.listDepth elements + 1

def GroupElement.listDepth : List GroupElement → ℕ
  | [] => 0
  | .item _ :: es => GroupElement.listDepth es
  | .group g :: es => max g.depth (GroupElement.listDepth es)

end

def Element.depth : Element → ℕ
  | .group g => g.depth
  | _ => 0

/-- The nesting depth of the deepest group of a bar. -/
def BarSpec.depth (bar : BarSpec) : ℕ := (bar.elements.map Element.depth).foldr max 0

lemma GroupElement.listDepth_le_iff {es : List GroupElement} {n : ℕ} :
    GroupElement.listDepth es ≤ n ↔ ∀ g, GroupElement.group g ∈ es → g.depth ≤ n := by
  induction es with
  | nil => simp [GroupElement.listDepth]
  | cons e es ih =>
    cases e with
    | item i => simp [GroupElement.listDepth, ih]
    | group g => simp [GroupElement.listDepth, ih]

lemma GroupSpec.depth_eq (g : GroupSpec) :
    g.depth = GroupElement.listDepth g.elements + 1 := by
  cases g
  rw [GroupSpec.depth]

lemma BarSpec.depth_le_iff {bar : BarSpec} {n : ℕ} :
    bar.depth ≤ n ↔ ∀ e ∈ bar.elements, e.depth ≤ n := by
  rw [BarSpec.depth]
  induction bar.elements with
  | nil => simp
  | cons e es ih => simp [ih]

/-! ## Errors of the stages -/

/-- The only error of a sizing. -/
lemma combineSizing_eq_err {id : String} {layout : GroupLayout} {spacing : UInt32}
    {children : List Sizing} {e : LayoutError}
    (h : combineSizing id layout spacing children = err e) : e = .invalidEqualWidthGroup id := by
  rw [combineSizing] at h
  split_ifs at h
  cases layout with
  | natural => simp [bind_eq_err] at h
  | equalWidth =>
    simp only [bind_eq_err, check_ne_err, false_or, check_eq_ok] at h
    obtain ⟨_, -, _, -, _, -, h⟩ := h
    split_ifs at h
    · exact (Outcome.err.inj h).symm
    · simp [bind_eq_err] at h

lemma groupElementsSizing_eq_err {es : List GroupElement} {err' : LayoutError}
    (hchild : ∀ g, GroupElement.group g ∈ es → ∀ e, groupSizing g = err e →
      ∃ id, e = .invalidEqualWidthGroup id)
    (h : groupElementsSizing es = err err') : ∃ id, err' = .invalidEqualWidthGroup id := by
  induction es with
  | nil => simp [groupElementsSizing] at h
  | cons e es ih =>
    rw [groupElementsSizing] at h
    simp only [bind_eq_err, pure_eq, reduceCtorEq, and_false, exists_const, or_false] at h
    rcases h with h | ⟨_, -, h⟩
    · cases e with
      | item i => simp at h
      | group g => exact hchild g List.mem_cons_self _ (by simpa using h)
    · exact ih (fun g hg => hchild g (List.mem_cons_of_mem _ hg)) h

lemma groupSizing_eq_err (g : GroupSpec) :
    ∀ e, groupSizing g = err e → ∃ id, e = .invalidEqualWidthGroup id := by
  induction g using GroupSpec.nested_induction with
  | step g ih =>
    intro e h
    obtain ⟨id, elements, layout, spacing, v, c⟩ := g
    rw [groupSizing] at h
    simp only [bind_eq_err] at h
    rcases h with h | ⟨_, -, h⟩
    · exact groupElementsSizing_eq_err ih h
    · exact ⟨id, combineSizing_eq_err h⟩

lemma elementsSizing_eq_err {es : List Element} {e : LayoutError}
    (h : elementsSizing es = err e) : ∃ id, e = .invalidEqualWidthGroup id := by
  induction es with
  | nil => simp [elementsSizing] at h
  | cons d es ih =>
    simp only [elementsSizing, bind_eq_err, pure_eq, reduceCtorEq, and_false, exists_const,
      or_false] at h
    rcases h with h | ⟨_, -, h⟩
    · cases d with
      | group g => exact groupSizing_eq_err g e h
      | item i => simp [elementSizing] at h
      | fixedSpace w => simp [elementSizing] at h
      | flexibleSpace m w => simp [elementSizing] at h
    · exact ih h

lemma joinUnits_eq_err {group : String} {index : ℕ} {i : ItemSpec} {r : Bool}
    {units : List VisibilityUnit} {e : LayoutError} (h : joinUnits group index i r units = err e) :
    e = .inconsistentVisibilityGroup group := by
  induction units with
  | nil => simp [joinUnits] at h
  | cons u units ih =>
    rw [joinUnits] at h
    split_ifs at h
    · exact (Outcome.err.inj h).symm
    · simp only [bind_eq_err, pure_eq, reduceCtorEq, and_false, exists_const, or_false] at h
      exact ih h

lemma addElements_eq_err {required : BTreeSet ItemId} {es : List Element} {e : LayoutError} :
    ∀ {index : ℕ} {units : List VisibilityUnit}, addElements required index es units = err e →
      ∃ group, e = .inconsistentVisibilityGroup group := by
  induction es with
  | nil => simp [addElements]
  | cons d es ih =>
    intro index units h
    simp only [addElements, bind_eq_err] at h
    rcases h with h | ⟨_, -, h⟩
    · cases d with
      | item i =>
        rw [addElement] at h
        split at h
        · exact ⟨_, joinUnits_eq_err h⟩
        · cases h
      | group g => cases h
      | fixedSpace w => cases h
      | flexibleSpace m w => cases h
    · exact ih h

/-! ## The depth check -/

lemma validateItem_ne_groupDepthExceeded {i : ItemSpec} {ids : BTreeSet ItemId} {id : String} :
    validateItem i ids ≠ err (.groupDepthExceeded id) := by
  rw [validateItem]
  split_ifs <;> simp

lemma lt_of_validateGroupElements {es : List GroupElement} {id : String}
    (hchild : ∀ g, GroupElement.group g ∈ es → ∀ {d ids gs},
      validateGroup g d ids gs = err (.groupDepthExceeded id) → maxGroupDepth + 1 < d + g.depth) :
    ∀ {d ids gs}, validateGroupElements es d ids gs = err (.groupDepthExceeded id) →
      maxGroupDepth < d + GroupElement.listDepth es := by
  induction es with
  | nil =>
    intro d ids gs h
    simp [validateGroupElements] at h
  | cons e es ih =>
    intro d ids gs h
    replace ih := @ih fun g hg => hchild g (List.mem_cons_of_mem _ hg)
    cases e with
    | item i =>
      rw [validateGroupElements] at h
      simp only [bind_eq_err, validateItem_ne_groupDepthExceeded, false_or] at h
      obtain ⟨_, -, h⟩ := h
      rw [GroupElement.listDepth]
      exact ih h
    | group g =>
      rw [validateGroupElements] at h
      simp only [bind_eq_err, Prod.exists] at h
      rw [GroupElement.listDepth]
      rcases h with h | ⟨_, _, -, h⟩
      · have := hchild g List.mem_cons_self h
        omega
      · have := ih h
        omega

lemma lt_of_validateGroup (g : GroupSpec) {id : String} :
    ∀ {d ids gs}, validateGroup g d ids gs = err (.groupDepthExceeded id) →
      maxGroupDepth + 1 < d + g.depth := by
  induction g using GroupSpec.nested_induction with
  | step g ih =>
    intro d ids gs h
    rw [GroupSpec.depth_eq]
    obtain ⟨gid, elements, layout, spacing, v, c⟩ := g
    rw [validateGroup] at h
    split_ifs at h with _ hd
    · cases h
    · change maxGroupDepth + 1 < d + (GroupElement.listDepth elements + 1)
      omega
    · cases h
    · simp only [bind_eq_err, Prod.exists, pure_eq, reduceCtorEq, and_false, exists_false,
        or_false] at h
      rcases h with h | ⟨_, _, -, h⟩
      · have hlt : maxGroupDepth < d + GroupElement.listDepth elements :=
          lt_of_validateGroupElements ih h
        change maxGroupDepth + 1 < d + (GroupElement.listDepth elements + 1)
        omega
      · obtain ⟨_, he⟩ := groupSizing_eq_err _ _ h
        cases he

lemma lt_of_validateElements {es : List Element} {id : String} :
    ∀ {n ids gs}, validateElements n es ids gs = err (.groupDepthExceeded id) →
      ∃ e ∈ es, maxGroupDepth < e.depth := by
  induction es with
  | nil =>
    intro n ids gs h
    simp [validateElements] at h
  | cons e es ih =>
    intro n ids gs h
    have hrest : ∀ {n ids gs}, validateElements n es ids gs = err (.groupDepthExceeded id) →
        ∃ e' ∈ e :: es, maxGroupDepth < e'.depth := by
      intro n ids gs h
      obtain ⟨e', he', hlt⟩ := ih h
      exact ⟨e', List.mem_cons_of_mem _ he', hlt⟩
    cases e with
    | item i =>
      simp only [validateElements, bind_eq_err, validateItem_ne_groupDepthExceeded, false_or] at h
      obtain ⟨_, -, h⟩ := h
      exact hrest h
    | group g =>
      simp only [validateElements, bind_eq_err, Prod.exists] at h
      rcases h with h | ⟨_, _, -, h⟩
      · have := lt_of_validateGroup g h
        exact ⟨_, List.mem_cons_self, by simp only [Element.depth]; omega⟩
      · exact hrest h
    | fixedSpace w => exact hrest h
    | flexibleSpace m w =>
      rw [validateElements] at h
      split_ifs at h
      · cases h
      · exact hrest h

/-- Within the limit the resolver never reports the nesting depth. -/
theorem resolve_ne_groupDepthExceeded {bar : BarSpec} (hdepth : bar.depth ≤ maxGroupDepth)
    (available : UInt32) (required : BTreeSet ItemId) (id : String) :
    resolve bar available required ≠ err (.groupDepthExceeded id) := by
  intro h
  rw [BarSpec.depth_le_iff] at hdepth
  simp only [resolve, bind_eq_err, check_ne_err, false_or, check_eq_ok, Prod.exists] at h
  rcases h with h | ⟨_, -, h | ⟨_, -, h | ⟨_, -, _, -, _, _, -, h⟩⟩⟩
  · -- validation
    simp only [validate, bind_eq_err, Prod.exists] at h
    rcases h with h | ⟨ids, gs, -, h⟩
    · obtain ⟨e, he, hlt⟩ := lt_of_validateElements h
      have := hdepth e he
      omega
    · split at h
      · cases h
      · split at h <;> cases h
  · obtain ⟨_, he⟩ := addElements_eq_err h
    cases he
  · obtain ⟨_, he⟩ := elementsSizing_eq_err h
    cases he
  · split_ifs at h
    · cases h
    · simp [bind_eq_err] at h

end TouchBar.Layout
