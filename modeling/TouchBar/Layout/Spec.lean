import TouchBar.Rust.Outcome
import TouchBar.Rust.BTree

/-!
# The data model of the layout crate

A bar is an ordered list of items, groups and spaces; a group is an ordered
list of items and groups.  The resolver turns a bar into rectangles for the
items it shows and a list of the items it hides.  This file has the types of
`touchbar-layout` and the document order of a bar: the list of its items at
every nesting depth, from left to right.

Widths are `u32` as in the source.  Priorities are only compared, so they are
integers.
-/

namespace TouchBar.Layout

open TouchBar.Rust

/-- The deepest level at which the resolver accepts a group. -/
def maxGroupDepth : ℕ := 8

/-- The identifier of an item, ordered as its string. -/
structure ItemId where
  value : String
deriving DecidableEq, Repr

instance : LinearOrder ItemId :=
  LinearOrder.lift' ItemId.value fun a b h => by cases a; cases b; cases h; rfl

structure ItemSpec where
  id : ItemId
  minWidth : UInt32
  preferredWidth : UInt32
  maxWidth : UInt32
  visibilityPriority : ℤ
  compressionPriority : ℤ
  /-- Items with the same nonempty group disappear as one atomic unit. -/
  visibilityGroup : Option String
deriving DecidableEq, Repr

/-- `ItemSpec::new`, with the normal priorities and no visibility group. -/
def ItemSpec.new (id : String) (minWidth preferredWidth maxWidth : UInt32) : ItemSpec :=
  ⟨⟨id⟩, minWidth, preferredWidth, maxWidth, 0, 0, none⟩

inductive GroupLayout where
  | natural
  | equalWidth
deriving DecidableEq, Repr

mutual

inductive GroupElement where
  | item (item : ItemSpec)
  | group (group : GroupSpec)

structure GroupSpec where
  id : String
  elements : List GroupElement
  layout : GroupLayout
  spacing : UInt32
  visibilityPriority : ℤ
  compressionPriority : ℤ

end

inductive Element where
  | item (item : ItemSpec)
  | group (group : GroupSpec)
  | fixedSpace (width : UInt32)
  | flexibleSpace (minimum weight : UInt32)

structure BarSpec where
  elements : List Element
  principalItem : Option ItemId

structure Placement where
  id : ItemId
  x : UInt32
  width : UInt32
deriving DecidableEq, Repr

namespace Placement

/-- The first pixel of a placement. -/
def left (p : Placement) : ℕ := p.x.toNat

/-- The first pixel after a placement. -/
def right (p : Placement) : ℕ := p.x.toNat + p.width.toNat

end Placement

structure ResolvedLayout where
  placements : List Placement
  hiddenItems : List ItemId
  /-- The right edge of the last element. -/
  contentWidth : UInt32
deriving DecidableEq, Repr

inductive LayoutError where
  | emptyItemId
  | duplicateItem (id : ItemId)
  | invalidSizing (id : ItemId)
  | invalidFlexibleSpace (element : ℕ)
  | unknownPrincipal (id : ItemId)
  | unknownRequired (id : ItemId)
  | emptyGroupId
  | duplicateGroup (id : String)
  | groupDepthExceeded (id : String)
  | invalidEqualWidthGroup (id : String)
  | inconsistentVisibilityGroup (group : String)
  | insufficientWidth (available required : UInt32)
deriving DecidableEq, Repr

/-! ## Induction on groups -/

/-- Induction on the nesting of groups: a property that passes from the child
groups of a group to the group holds of every group. -/
theorem GroupSpec.nested_induction {P : GroupSpec → Prop}
    (step : ∀ g : GroupSpec, (∀ child, GroupElement.group child ∈ g.elements → P child) → P g)
    (g : GroupSpec) : P g :=
  @GroupSpec.rec (fun e => ∀ child, e = .group child → P child) P
    (fun es => ∀ child, GroupElement.group child ∈ es → P child)
    (fun _ _ h => nomatch h)
    (fun _ hg _ h => GroupElement.group.inj h ▸ hg)
    (fun id elements layout spacing v c h => step ⟨id, elements, layout, spacing, v, c⟩ h)
    (fun _ h => nomatch h)
    (fun _ _ he hes child h =>
      (List.mem_cons.mp h).elim (fun h => he child h.symm) (fun h => hes child h))
    g

/-! ## Document order -/

mutual

/-- The items of a group at every depth, from left to right. -/
def GroupSpec.items : GroupSpec → List ItemSpec
  | ⟨_, elements, _, _, _, _⟩ => GroupElement.listItems elements

def GroupElement.items : GroupElement → List ItemSpec
  | .item i => [i]
  | .group g => g.items

def GroupElement.listItems : List GroupElement → List ItemSpec
  | [] => []
  | e :: es => e.items ++ GroupElement.listItems es

end

/-- The items of an element; spaces have none. -/
def Element.items : Element → List ItemSpec
  | .item i => [i]
  | .group g => g.items
  | .fixedSpace _ => []
  | .flexibleSpace _ _ => []

/-- The items of a bar in document order. -/
def BarSpec.items (bar : BarSpec) : List ItemSpec := bar.elements.flatMap Element.items

lemma GroupElement.listItems_eq (es : List GroupElement) :
    GroupElement.listItems es = es.flatMap GroupElement.items := by
  induction es with
  | nil => rfl
  | cons e es ih => rw [GroupElement.listItems, ih, List.flatMap_cons]

lemma GroupSpec.items_eq (g : GroupSpec) : g.items = g.elements.flatMap GroupElement.items := by
  cases g
  rw [GroupSpec.items, GroupElement.listItems_eq]

@[simp] lemma GroupElement.items_item (i : ItemSpec) : (GroupElement.item i).items = [i] := rfl

@[simp] lemma GroupElement.items_group (g : GroupSpec) :
    (GroupElement.group g).items = g.items := rfl

/-! ## Sizing -/

/-- The widths an element can take and the one it asks for. -/
structure Sizing where
  minimum : ℕ
  preferred : ℕ
  maximum : ℕ
deriving DecidableEq, Repr

/-- A sizing that some element can have: the three widths are in order, and only
what can vanish altogether may be empty. -/
structure Sizing.WF (s : Sizing) : Prop where
  min_le : s.minimum ≤ s.preferred
  le_max : s.preferred ≤ s.maximum
  pos : 0 < s.maximum → 0 < s.minimum

end TouchBar.Layout
