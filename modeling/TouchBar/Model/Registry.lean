import TouchBar.Rust.Text
import TouchBar.Layout.Spec

/-!
# The item registry and the elements of bars

Bars refer to items by identifier; the registry has the definition of each item.
Registration puts a definition under its own identifier, which is the invariant
of `Registry`.
-/

namespace TouchBar.Model

open TouchBar.Rust TouchBar.Layout Outcome

structure BarId where
  value : String
deriving DecidableEq, Repr

structure ItemDefinition where
  layout : ItemSpec
  label : String
  expandedBar : Option BarId
  pressAndHoldBar : Option BarId
deriving DecidableEq, Repr

mutual

inductive BarGroupElement where
  | item (id : ItemId)
  | group (group : BarGroup)

structure BarGroup where
  id : String
  elements : List BarGroupElement
  layout : GroupLayout
  spacing : UInt32
  visibilityPriority : ℤ
  compressionPriority : ℤ

end

inductive BarElement where
  | item (id : ItemId)
  | group (group : BarGroup)
  | fixedSpace (width : UInt32)
  | flexibleSpace (minimum weight : UInt32)
  /-- Content from the next more specific active bar is inserted here. -/
  | contextProxy

/-! ## Nesting of groups -/

theorem BarGroup.nested_induction {P : BarGroup → Prop}
    (step : ∀ g : BarGroup, (∀ child, BarGroupElement.group child ∈ g.elements → P child) → P g)
    (g : BarGroup) : P g :=
  @BarGroup.rec (fun e => ∀ child, e = .group child → P child) P
    (fun es => ∀ child, BarGroupElement.group child ∈ es → P child)
    (fun _ _ h => nomatch h)
    (fun _ hg _ h => BarGroupElement.group.inj h ▸ hg)
    (fun id elements layout spacing v c h => step ⟨id, elements, layout, spacing, v, c⟩ h)
    (fun _ h => nomatch h)
    (fun _ _ he hes child h =>
      (List.mem_cons.mp h).elim (fun h => he child h.symm) (fun h => hes child h))
    g

mutual

/-- The number of groups on the longest path into a group, the group itself included. -/
def BarGroup.depth : BarGroup → ℕ
  | ⟨_, elements, _, _, _, _⟩ => BarGroupElement.listDepth elements + 1

def BarGroupElement.listDepth : List BarGroupElement → ℕ
  | [] => 0
  | .item _ :: es => BarGroupElement.listDepth es
  | .group g :: es => max g.depth (BarGroupElement.listDepth es)

end

lemma BarGroupElement.listDepth_le_iff {es : List BarGroupElement} {n : ℕ} :
    BarGroupElement.listDepth es ≤ n ↔ ∀ g, BarGroupElement.group g ∈ es → g.depth ≤ n := by
  induction es with
  | nil => simp [BarGroupElement.listDepth]
  | cons e es ih =>
    cases e with
    | item i => simp [BarGroupElement.listDepth, ih]
    | group g => simp [BarGroupElement.listDepth, ih]

lemma BarGroup.depth_le_iff {g : BarGroup} {n : ℕ} :
    g.depth ≤ n + 1 ↔ ∀ child, BarGroupElement.group child ∈ g.elements → child.depth ≤ n := by
  cases g
  rw [BarGroup.depth, Nat.add_le_add_iff_right, BarGroupElement.listDepth_le_iff]

/-! ## The registry -/

inductive ModelError where
  | emptyItemId
  | emptyItemLabel (id : ItemId)
  | duplicateItem (id : ItemId)
deriving DecidableEq, Repr

structure Registry where
  items : BTreeMap ItemId ItemDefinition
  keyed : ∀ id item, items.get id = some item → item.layout.id = id

namespace Registry

/-- `Registry::default()`. -/
def default : Registry := ⟨.empty, by simp⟩

def addItem (registry : Registry) (item : ItemDefinition) : Outcome ModelError Registry :=
  if item.layout.id.value = "" then
    err .emptyItemId
  else if Text.trimIsEmpty item.label then
    err (.emptyItemLabel item.layout.id)
  else if registry.items.containsKey item.layout.id then
    err (.duplicateItem item.layout.id)
  else
    ok ⟨registry.items.insert item.layout.id item, fun id d h => by
      rw [BTreeMap.get_insert] at h
      split_ifs at h with hid
      · obtain rfl := Option.some.inj h
        exact hid.symm
      · exact registry.keyed id d h⟩

def item (registry : Registry) (id : ItemId) : Option ItemDefinition := registry.items.get id

end Registry

end TouchBar.Model
