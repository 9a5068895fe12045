import TouchBar.Layout.Spec
import TouchBar.Lib.Splice
import TouchBar.Model.Compose

/-!
# A presentation in the place of a part of the bar

A presentation is shown inside the bar: its elements take the place of the source item, or
of the elements of a slot, and items of the bar that the presentation has too are removed,
so that no surface is placed twice.  The part that is replaced can be inside nested groups.

A context is a bar with a hole, as the parts of the bar on both sides of the path to the
hole.  A splice prunes the context and fills it; where an item is, with the groups around
it, is read off the context.
-/

namespace TouchBar.Session

open TouchBar.Rust TouchBar.Layout TouchBar.Lib TouchBar.Model

/-! ## The source -/

/-- What a splice can fail with. -/
inductive SpliceError where
  /-- "presentation source is not in the active bar" -/
  | sourceNotInBar
  /-- "active profile has no slot `{target}`" -/
  | noSlot (target : String)
  /-- "active profile returned an invalid slot span" -/
  | invalidSpan
  /-- "active profile returned an invalid slot path" -/
  | invalidPath
  /-- "active profile slot path does not identify a group" -/
  | notAGroup
  /-- "a grouped presentation cannot contain top-level space elements" -/
  | groupedSpace
  deriving DecidableEq, Repr

mutual

/-- `collect_group_item_ids`. -/
def collectGroupItemIds : GroupSpec → BTreeSet ItemId → BTreeSet ItemId
  | ⟨_, elements, _, _, _, _⟩, ids => collectGroupElementItemIds elements ids

def collectGroupElementItemIds : List GroupElement → BTreeSet ItemId → BTreeSet ItemId
  | [], ids => ids
  | .item i :: es, ids => collectGroupElementItemIds es (ids.insert i.id)
  | .group g :: es, ids => collectGroupElementItemIds es (collectGroupItemIds g ids)

end

/-- `collect_element_item_ids`. -/
def collectElementItemIds (ids : BTreeSet ItemId) : Element → BTreeSet ItemId
  | .item i => ids.insert i.id
  | .group g => collectGroupItemIds g ids
  | .fixedSpace _ => ids
  | .flexibleSpace _ _ => ids

/-- `item_ids_from_elements`. -/
def itemIdsFromElements (elements : List Element) : BTreeSet ItemId :=
  elements.foldl collectElementItemIds .empty

/-- `item_ids`. -/
def itemIds (bar : BarSpec) : BTreeSet ItemId := itemIdsFromElements bar.elements

mutual

/-- `find_item_in_group`: the path inside the group, and the index. -/
def findItemInGroup (source : String) : GroupSpec → Option (List ℕ × ℕ)
  | ⟨_, elements, _, _, _, _⟩ => findItemInGroupElements source elements 0

def findItemInGroupElements (source : String) : List GroupElement → ℕ → Option (List ℕ × ℕ)
  | [], _ => none
  | .item i :: es, index =>
    if i.id.value = source then some ([], index) else findItemInGroupElements source es (index + 1)
  | .group g :: es, index =>
    match findItemInGroup source g with
    | some (path, item) => some (index :: path, item)
    | none => findItemInGroupElements source es (index + 1)

end

/-- `find_item_container`, from an index. -/
def findItemContainer (source : String) : List Element → ℕ → Option (List ℕ × ℕ)
  | [], _ => none
  | .item i :: es, index =>
    if i.id.value = source then some ([], index) else findItemContainer source es (index + 1)
  | .group g :: es, index =>
    match findItemInGroup source g with
    | some (path, item) => some (index :: path, item)
    | none => findItemContainer source es (index + 1)
  | .fixedSpace _ :: es, index => findItemContainer source es (index + 1)
  | .flexibleSpace _ _ :: es, index => findItemContainer source es (index + 1)

/-- `element_to_group_element`. -/
def elementToGroupElement : Element → Except SpliceError GroupElement
  | .item i => .ok (.item i)
  | .group g => .ok (.group g)
  | .fixedSpace _ => .error .groupedSpace
  | .flexibleSpace _ _ => .error .groupedSpace

mutual

/-- `prune_group`. -/
def pruneGroup (ids : BTreeSet ItemId) : GroupSpec → GroupSpec
  | ⟨id, elements, layout, spacing, v, c⟩ =>
    ⟨id, pruneGroupElements ids elements, layout, spacing, v, c⟩

/-- `prune_group_element`. -/
def pruneGroupElement (ids : BTreeSet ItemId) : GroupElement → Option GroupElement
  | .item i => if ids.contains i.id then none else some (.item i)
  | .group g => some (.group (pruneGroup ids g))

/-- The `filter_map` of `prune_group`. -/
def pruneGroupElements (ids : BTreeSet ItemId) : List GroupElement → List GroupElement
  | [] => []
  | e :: es => (pruneGroupElement ids e).toList ++ pruneGroupElements ids es

end

/-- `prune_element`. -/
def pruneElement (ids : BTreeSet ItemId) : Element → Option Element
  | .item i => if ids.contains i.id then none else some (.item i)
  | .group g => some (.group (pruneGroup ids g))
  | .fixedSpace width => some (.fixedSpace width)
  | .flexibleSpace minimum weight => some (.flexibleSpace minimum weight)

/-- `rewrite_group`. -/
def rewriteGroup (start stop : ℕ) (replacement : List GroupElement) (ids : BTreeSet ItemId) :
    List ℕ → GroupSpec → Except SpliceError GroupSpec
  | [], group =>
    if stop < start ∨ group.elements.length < stop then .error .invalidSpan
    else
      .ok { group with
        elements := spliceRange (pruneGroupElement ids) start stop replacement group.elements }
  | target :: path, group =>
    if group.elements.length ≤ target then .error .invalidPath
    else do
      let elements ← rewriteAt (pruneGroupElement ids)
        (fun element => match element with
          | .group child =>
            (rewriteGroup start stop replacement ids path child).map GroupElement.group
          | .item _ => .error .notAGroup)
        target 0 group.elements
      return { group with elements := elements }

/-- `rewrite_bar`. -/
def rewriteBar (elements : List Element) (path : List ℕ) (start stop : ℕ)
    (replacement : List Element) (ids : BTreeSet ItemId) : Except SpliceError (List Element) :=
  match path with
  | [] =>
    if stop < start ∨ elements.length < stop then .error .invalidSpan
    else .ok (spliceRange (pruneElement ids) start stop replacement elements)
  | target :: path => do
    let grouped ← replacement.mapM elementToGroupElement
    if elements.length ≤ target then .error .invalidPath
    else
      rewriteAt (pruneElement ids)
        (fun element => match element with
          | .group group => (rewriteGroup start stop grouped ids path group).map Element.group
          | _ => .error .notAGroup)
        target 0 elements

/-- The bar of a splice, with the principal item of the content or else of the bar. -/
def splicedBar (compact content : BarSpec) (elements : List Element) : BarSpec where
  elements := elements
  principalItem := content.principalItem.or
    (compact.principalItem.filter fun principal =>
      (itemIdsFromElements elements).contains principal)

/-- `in_place_content_bar`. -/
def inPlaceContentBar (compact : BarSpec) (source : String) (content : BarSpec) :
    Except SpliceError BarSpec :=
  match findItemContainer source compact.elements 0 with
  | none => .error .sourceNotInBar
  | some (path, index) =>
    (rewriteBar compact.elements path index (index + 1) content.elements (itemIds content)).map
      (splicedBar compact content)

/-- `slot_content_bar`. -/
def slotContentBar (compact : BarSpec) (slots : List ComposedSlot) (target : String)
    (content : BarSpec) : Except SpliceError BarSpec :=
  match slots.find? fun slot => decide (slot.id.value = target) with
  | none => .error (.noSlot target)
  | some slot =>
    (rewriteBar compact.elements slot.path slot.elements.1 slot.elements.2 content.elements
      (itemIds content)).map (splicedBar compact content)

/-! ## Where an item is -/

/-- A group without its elements. -/
def head (g : GroupSpec) : GroupSpec := { g with elements := [] }

mutual

/-- The items of a group, each with the groups around it, from the outermost one. -/
def locatedGroup (chain : List GroupSpec) : GroupSpec → List (List GroupSpec × ItemSpec)
  | ⟨id, elements, layout, spacing, v, c⟩ =>
    locatedGroupElements (chain ++ [⟨id, [], layout, spacing, v, c⟩]) elements

def locatedGroupElement (chain : List GroupSpec) :
    GroupElement → List (List GroupSpec × ItemSpec)
  | .item i => [(chain, i)]
  | .group g => locatedGroup chain g

def locatedGroupElements (chain : List GroupSpec) :
    List GroupElement → List (List GroupSpec × ItemSpec)
  | [] => []
  | e :: es => locatedGroupElement chain e ++ locatedGroupElements chain es

end

/-- The items of an element inside some groups. -/
def locatedElement (chain : List GroupSpec) : Element → List (List GroupSpec × ItemSpec)
  | .item i => [(chain, i)]
  | .group g => locatedGroup chain g
  | .fixedSpace _ => []
  | .flexibleSpace _ _ => []

/-- The items of some elements inside some groups. -/
def located (chain : List GroupSpec) (elements : List Element) :
    List (List GroupSpec × ItemSpec) :=
  elements.flatMap (locatedElement chain)

lemma locatedGroupElements_eq (chain : List GroupSpec) (es : List GroupElement) :
    locatedGroupElements chain es = es.flatMap (locatedGroupElement chain) := by
  induction es with
  | nil => rfl
  | cons e es ih => rw [locatedGroupElements, ih, List.flatMap_cons]

lemma locatedGroup_eq (chain : List GroupSpec) (g : GroupSpec) :
    locatedGroup chain g = g.elements.flatMap (locatedGroupElement (chain ++ [head g])) := by
  cases g
  rw [locatedGroup, locatedGroupElements_eq]
  rfl

lemma map_snd_locatedGroup (g : GroupSpec) (chain : List GroupSpec) :
    (locatedGroup chain g).map Prod.snd = g.items := by
  induction g using GroupSpec.nested_induction generalizing chain with
  | step g ih =>
    rw [locatedGroup_eq, GroupSpec.items_eq, List.map_flatMap]
    refine List.flatMap_congr fun e he => ?_
    cases e with
    | item i => rfl
    | group child => exact ih child he _

lemma map_snd_located (chain : List GroupSpec) (elements : List Element) :
    (located chain elements).map Prod.snd = elements.flatMap Element.items := by
  rw [located, List.map_flatMap]
  refine List.flatMap_congr fun e _ => ?_
  cases e with
  | item i => rfl
  | group g => exact map_snd_locatedGroup g chain
  | fixedSpace width => rfl
  | flexibleSpace minimum weight => rfl

/-! ### The ids of items -/

lemma mem_collectGroupElementItemIds {es : List GroupElement}
    (hchild : ∀ g, GroupElement.group g ∈ es → ∀ ids id,
      id ∈ collectGroupItemIds g ids ↔ id ∈ g.items.map ItemSpec.id ∨ id ∈ ids)
    (ids : BTreeSet ItemId) (id : ItemId) :
    id ∈ collectGroupElementItemIds es ids ↔
      id ∈ (es.flatMap GroupElement.items).map ItemSpec.id ∨ id ∈ ids := by
  induction es generalizing ids with
  | nil => simp [collectGroupElementItemIds]
  | cons e es ih =>
    have ih := ih fun g hg => hchild g (List.mem_cons_of_mem _ hg)
    rw [List.flatMap_cons, List.map_append, List.mem_append]
    cases e with
    | item i =>
      rw [collectGroupElementItemIds, ih, BTreeSet.mem_insert]
      simp only [GroupElement.items_item, List.map_cons, List.map_nil, List.mem_singleton]
      tauto
    | group g =>
      rw [collectGroupElementItemIds, ih, hchild g List.mem_cons_self, GroupElement.items_group]
      tauto

lemma mem_collectGroupItemIds (g : GroupSpec) (ids : BTreeSet ItemId) (id : ItemId) :
    id ∈ collectGroupItemIds g ids ↔ id ∈ g.items.map ItemSpec.id ∨ id ∈ ids := by
  induction g using GroupSpec.nested_induction generalizing ids id with
  | step g ih =>
    rw [GroupSpec.items_eq]
    cases g
    rw [collectGroupItemIds]
    exact mem_collectGroupElementItemIds (fun child hchild ids id => ih child hchild ids id) ids id

lemma mem_itemIdsFromElements {elements : List Element} {id : ItemId} :
    id ∈ itemIdsFromElements elements ↔
      id ∈ (elements.flatMap Element.items).map ItemSpec.id := by
  have hfold : ∀ ids : BTreeSet ItemId, id ∈ elements.foldl collectElementItemIds ids ↔
      id ∈ (elements.flatMap Element.items).map ItemSpec.id ∨ id ∈ ids := by
    induction elements with
    | nil => simp
    | cons e elements ih =>
      intro ids
      rw [List.foldl_cons, ih, List.flatMap_cons, List.map_append, List.mem_append]
      have he : id ∈ collectElementItemIds ids e ↔ id ∈ e.items.map ItemSpec.id ∨ id ∈ ids := by
        cases e with
        | item i => simp [collectElementItemIds, Element.items]
        | group g => exact mem_collectGroupItemIds g ids id
        | fixedSpace width => simp [collectElementItemIds, Element.items]
        | flexibleSpace minimum weight => simp [collectElementItemIds, Element.items]
      rw [he]
      tauto
  rw [itemIdsFromElements, hfold]
  simp

/-! ### Pruning -/

/-- An item that is not among some ids. -/
def kept (ids : BTreeSet ItemId) (p : List GroupSpec × ItemSpec) : Bool := !ids.contains p.2.id

lemma pruneGroupElements_eq (ids : BTreeSet ItemId) (es : List GroupElement) :
    pruneGroupElements ids es = es.filterMap (pruneGroupElement ids) := by
  induction es with
  | nil => rfl
  | cons e es ih =>
    rw [pruneGroupElements, ih, List.filterMap_cons]
    cases pruneGroupElement ids e <;> rfl

/-- Pruning a list drops the items among the ids, if it does so for each element. -/
lemma flatMap_filterMap {α : Type*} {prune : α → Option α} {ids : BTreeSet ItemId}
    {locate : α → List (List GroupSpec × ItemSpec)} {l : List α}
    (h : ∀ a ∈ l, ((prune a).toList.flatMap locate) = (locate a).filter (kept ids)) :
    (l.filterMap prune).flatMap locate = (l.flatMap locate).filter (kept ids) := by
  induction l with
  | nil => rfl
  | cons a l ih =>
    have hrest := ih fun b hb => h b (List.mem_cons_of_mem a hb)
    rw [List.flatMap_cons, List.filter_append, ← h a List.mem_cons_self, ← hrest,
      List.filterMap_cons]
    cases prune a <;> simp

lemma locatedGroupElement_prune_of {ids : BTreeSet ItemId} {chain : List GroupSpec}
    {e : GroupElement} (hgroup : ∀ g, e = .group g →
      locatedGroup chain (pruneGroup ids g) = (locatedGroup chain g).filter (kept ids)) :
    (pruneGroupElement ids e).toList.flatMap (locatedGroupElement chain) =
      (locatedGroupElement chain e).filter (kept ids) := by
  cases e with
  | item i =>
    rw [pruneGroupElement, locatedGroupElement]
    by_cases hin : ids.contains i.id = true
    · rw [if_pos hin]
      simp [kept, hin]
    · rw [if_neg hin]
      simp [kept, hin, locatedGroupElement]
  | group g =>
    rw [pruneGroupElement, locatedGroupElement]
    simpa [locatedGroupElement] using hgroup g rfl

lemma locatedGroup_prune (ids : BTreeSet ItemId) (g : GroupSpec) (chain : List GroupSpec) :
    locatedGroup chain (pruneGroup ids g) = (locatedGroup chain g).filter (kept ids) := by
  induction g using GroupSpec.nested_induction generalizing chain with
  | step g ih =>
    have hhead : head (pruneGroup ids g) = head g := by cases g; rfl
    have helements : (pruneGroup ids g).elements =
        g.elements.filterMap (pruneGroupElement ids) := by
      cases g
      exact pruneGroupElements_eq ids _
    rw [locatedGroup_eq, locatedGroup_eq, hhead, helements]
    refine flatMap_filterMap fun e he => locatedGroupElement_prune_of fun child hchild => ?_
    exact ih child (hchild ▸ he) _

lemma locatedGroupElement_prune (ids : BTreeSet ItemId) (chain : List GroupSpec)
    (e : GroupElement) :
    (pruneGroupElement ids e).toList.flatMap (locatedGroupElement chain) =
      (locatedGroupElement chain e).filter (kept ids) :=
  locatedGroupElement_prune_of fun g _ => locatedGroup_prune ids g chain

lemma locatedElement_prune (ids : BTreeSet ItemId) (chain : List GroupSpec) (e : Element) :
    (pruneElement ids e).toList.flatMap (locatedElement chain) =
      (locatedElement chain e).filter (kept ids) := by
  cases e with
  | item i =>
    rw [pruneElement, locatedElement]
    by_cases hin : ids.contains i.id = true
    · rw [if_pos hin]
      simp [kept, hin]
    · rw [if_neg hin]
      simp [kept, hin, locatedElement]
  | group g =>
    rw [pruneElement, locatedElement]
    simpa [locatedElement] using locatedGroup_prune ids g chain
  | fixedSpace width => simp [pruneElement, locatedElement]
  | flexibleSpace minimum weight => simp [pruneElement, locatedElement]

/-! ## Bars with a hole -/

/-- The elements of a group with a hole. -/
inductive GroupContext where
  | here (before after : List GroupElement)
  | inside (before : List GroupElement) (group : GroupSpec) (inner : GroupContext)
      (after : List GroupElement)

/-- A bar with a hole. -/
inductive BarContext where
  | top (before after : List Element)
  | inside (before : List Element) (group : GroupSpec) (inner : GroupContext)
      (after : List Element)

/-- An element inside a group. -/
def toGroupElement : Element → Option GroupElement
  | .item i => some (.item i)
  | .group g => some (.group g)
  | .fixedSpace _ => none
  | .flexibleSpace _ _ => none

namespace GroupContext

/-- The elements with others in the hole. -/
def fill : GroupContext → List GroupElement → List GroupElement
  | here before after, l => before ++ l ++ after
  | inside before group inner after, l =>
    before ++ .group { group with elements := inner.fill l } :: after

/-- The path to the hole. -/
def path : GroupContext → List ℕ
  | here _ _ => []
  | inside before _ inner _ => before.length :: inner.path

/-- The index of the hole in its group. -/
def start : GroupContext → ℕ
  | here before _ => before.length
  | inside _ _ inner _ => inner.start

/-- The groups around the hole. -/
def chain : GroupContext → List GroupSpec
  | here _ _ => []
  | inside _ group inner _ => head group :: inner.chain

/-- The context without the items of some ids. -/
def prune (ids : BTreeSet ItemId) : GroupContext → GroupContext
  | here before after =>
    here (before.filterMap (pruneGroupElement ids)) (after.filterMap (pruneGroupElement ids))
  | inside before group inner after =>
    inside (before.filterMap (pruneGroupElement ids)) group (inner.prune ids)
      (after.filterMap (pruneGroupElement ids))

/-- The items before the hole. -/
def before (outer : List GroupSpec) : GroupContext → List (List GroupSpec × ItemSpec)
  | here before _ => before.flatMap (locatedGroupElement outer)
  | inside before group inner _ =>
    before.flatMap (locatedGroupElement outer) ++ inner.before (outer ++ [head group])

/-- The items after the hole. -/
def after (outer : List GroupSpec) : GroupContext → List (List GroupSpec × ItemSpec)
  | here _ after => after.flatMap (locatedGroupElement outer)
  | inside _ group inner after =>
    inner.after (outer ++ [head group]) ++ after.flatMap (locatedGroupElement outer)

lemma located_fill (ctx : GroupContext) (outer : List GroupSpec) (l : List GroupElement) :
    (ctx.fill l).flatMap (locatedGroupElement outer) =
      ctx.before outer ++ l.flatMap (locatedGroupElement (outer ++ ctx.chain)) ++
        ctx.after outer := by
  induction ctx generalizing outer with
  | here before after => simp [fill, GroupContext.before, GroupContext.after, chain]
  | inside before group inner after ih =>
    have hgroup : locatedGroup outer { group with elements := inner.fill l } =
        (inner.fill l).flatMap (locatedGroupElement (outer ++ [head group])) :=
      locatedGroup_eq outer _
    rw [fill, List.flatMap_append, List.flatMap_cons, locatedGroupElement, hgroup, ih]
    simp [GroupContext.before, GroupContext.after, chain]

lemma chain_prune (ctx : GroupContext) (ids : BTreeSet ItemId) :
    (ctx.prune ids).chain = ctx.chain := by
  induction ctx with
  | here before after => rfl
  | inside before group inner after ih => rw [prune, chain, chain, ih]

lemma before_prune (ctx : GroupContext) (ids : BTreeSet ItemId) (outer : List GroupSpec) :
    (ctx.prune ids).before outer = (ctx.before outer).filter (kept ids) := by
  induction ctx generalizing outer with
  | here before after =>
    exact flatMap_filterMap fun e _ => locatedGroupElement_prune ids outer e
  | inside before group inner after ih =>
    rw [prune, GroupContext.before, GroupContext.before, ih, List.filter_append,
      flatMap_filterMap fun e _ => locatedGroupElement_prune ids outer e]

lemma after_prune (ctx : GroupContext) (ids : BTreeSet ItemId) (outer : List GroupSpec) :
    (ctx.prune ids).after outer = (ctx.after outer).filter (kept ids) := by
  induction ctx generalizing outer with
  | here before after =>
    exact flatMap_filterMap fun e _ => locatedGroupElement_prune ids outer e
  | inside before group inner after ih =>
    rw [prune, GroupContext.after, GroupContext.after, ih, List.filter_append,
      flatMap_filterMap fun e _ => locatedGroupElement_prune ids outer e]

end GroupContext

namespace BarContext

/-- The bar with some elements in the hole; a group takes no spaces. -/
def fill : BarContext → List Element → List Element
  | top before after, l => before ++ l ++ after
  | inside before group inner after, l =>
    before ++ .group { group with elements := inner.fill (l.filterMap toGroupElement) } :: after

/-- All of the elements can stand in the hole. -/
def Admits : BarContext → List Element → Prop
  | top _ _, _ => True
  | inside _ _ _ _, l => ∀ e ∈ l, (toGroupElement e).isSome = true

/-- The path to the hole. -/
def path : BarContext → List ℕ
  | top _ _ => []
  | inside before _ inner _ => before.length :: inner.path

/-- The index of the hole in the bar or in its group. -/
def start : BarContext → ℕ
  | top before _ => before.length
  | inside _ _ inner _ => inner.start

/-- The groups around the hole. -/
def chain : BarContext → List GroupSpec
  | top _ _ => []
  | inside _ group inner _ => head group :: inner.chain

/-- The context without the items of some ids. -/
def prune (ids : BTreeSet ItemId) : BarContext → BarContext
  | top before after =>
    top (before.filterMap (pruneElement ids)) (after.filterMap (pruneElement ids))
  | inside before group inner after =>
    inside (before.filterMap (pruneElement ids)) group (inner.prune ids)
      (after.filterMap (pruneElement ids))

/-- The items before the hole. -/
def before : BarContext → List (List GroupSpec × ItemSpec)
  | top before _ => located [] before
  | inside before group inner _ => located [] before ++ inner.before [head group]

/-- The items after the hole. -/
def after : BarContext → List (List GroupSpec × ItemSpec)
  | top _ after => located [] after
  | inside _ group inner after => inner.after [head group] ++ located [] after

lemma located_toGroupElement {chain : List GroupSpec} {l : List Element}
    (h : ∀ e ∈ l, (toGroupElement e).isSome = true) :
    (l.filterMap toGroupElement).flatMap (locatedGroupElement chain) = located chain l := by
  induction l with
  | nil => rfl
  | cons e l ih =>
    have hrest := ih fun e' he' => h e' (List.mem_cons_of_mem e he')
    have he := h e List.mem_cons_self
    rw [located, List.flatMap_cons, ← located, ← hrest]
    cases e with
    | item i => rfl
    | group g => rfl
    | fixedSpace width => cases he
    | flexibleSpace minimum weight => cases he

/-- The items of a filled context: before the hole, in it, and after it. -/
theorem located_fill {ctx : BarContext} {l : List Element} (h : ctx.Admits l) :
    located [] (ctx.fill l) = ctx.before ++ located ctx.chain l ++ ctx.after := by
  cases ctx with
  | top before after => simp [fill, located, BarContext.before, BarContext.after, chain]
  | inside before group inner after =>
    have hgroup : locatedGroup []
        { group with elements := inner.fill (l.filterMap toGroupElement) } =
        (inner.fill (l.filterMap toGroupElement)).flatMap (locatedGroupElement [head group]) :=
      locatedGroup_eq [] _
    rw [fill, located, List.flatMap_append, List.flatMap_cons, locatedElement, hgroup,
      inner.located_fill, located_toGroupElement h]
    simp [located, BarContext.before, BarContext.after, chain]

lemma chain_prune (ctx : BarContext) (ids : BTreeSet ItemId) :
    (ctx.prune ids).chain = ctx.chain := by
  cases ctx with
  | top before after => rfl
  | inside before group inner after => rw [prune, chain, chain, inner.chain_prune]

lemma before_prune (ctx : BarContext) (ids : BTreeSet ItemId) :
    (ctx.prune ids).before = ctx.before.filter (kept ids) := by
  cases ctx with
  | top before after => exact flatMap_filterMap fun e _ => locatedElement_prune ids [] e
  | inside before group inner after =>
    rw [prune, BarContext.before, BarContext.before, inner.before_prune, List.filter_append,
      located, flatMap_filterMap fun e _ => locatedElement_prune ids [] e, located]

lemma after_prune (ctx : BarContext) (ids : BTreeSet ItemId) :
    (ctx.prune ids).after = ctx.after.filter (kept ids) := by
  cases ctx with
  | top before after => exact flatMap_filterMap fun e _ => locatedElement_prune ids [] e
  | inside before group inner after =>
    rw [prune, BarContext.after, BarContext.after, inner.after_prune, List.filter_append,
      located, flatMap_filterMap fun e _ => locatedElement_prune ids [] e, located]

lemma admits_prune {ctx : BarContext} {l : List Element} (h : ctx.Admits l)
    (ids : BTreeSet ItemId) : (ctx.prune ids).Admits l := by
  cases ctx with
  | top before after => trivial
  | inside before group inner after => exact h

end BarContext

/-! ## What a splice does -/

lemma with_elements (g : GroupSpec) :
    GroupSpec.mk g.id g.elements g.layout g.spacing g.visibilityPriority g.compressionPriority =
      g := by
  cases g
  rfl

lemma map_eq_ok {ε α β : Type*} {x : Except ε α} {f : α → β} {b : β} (h : x.map f = .ok b) :
    ∃ a, x = .ok a ∧ f a = b := by
  cases x with
  | error e => cases h
  | ok a => exact ⟨a, rfl, Except.ok.inj h⟩

lemma bind_eq_ok {ε α β : Type} {x : Except ε α} {f : α → Except ε β} {b : β}
    (h : (x >>= f) = .ok b) : ∃ a, x = .ok a ∧ f a = .ok b := by
  cases x with
  | error e => cases h
  | ok a => exact ⟨a, rfl, h⟩

/-- A group is rewritten by filling a pruned context of it. -/
lemma rewriteGroup_fill {start stop : ℕ} {replacement : List GroupElement}
    {ids : BTreeSet ItemId} {path : List ℕ} {group result : GroupSpec}
    (h : rewriteGroup start stop replacement ids path group = .ok result) :
    ∃ (ctx : GroupContext) (replaced : List GroupElement), group.elements = ctx.fill replaced ∧
      ctx.path = path ∧ ctx.start = start ∧ start + replaced.length = stop ∧
      result = { group with elements := (ctx.prune ids).fill replacement } := by
  induction path generalizing group result with
  | nil =>
    rw [rewriteGroup] at h
    split_ifs at h with hspan
    rw [not_or, not_lt, not_lt] at hspan
    obtain ⟨front, middle, back, hparts, hfront, hmiddle⟩ := exists_parts hspan.1 hspan.2
    refine ⟨.here front back, middle, hparts, rfl, hfront, hmiddle, ?_⟩
    rw [← Except.ok.inj h, hparts, ← hmiddle, ← hfront, spliceRange_eq]
    rfl
  | cons target path ih =>
    rw [rewriteGroup] at h
    split_ifs at h with hlength
    obtain ⟨front, element, back, hparts, hfront⟩ := exists_at (not_le.1 hlength)
    obtain ⟨elements, helements, hresult⟩ := bind_eq_ok h
    rw [hparts, ← hfront, ← Nat.zero_add front.length, rewriteAt_eq_ok_iff] at helements
    obtain ⟨rewritten, hrewritten, rfl⟩ := helements
    cases element with
    | item i => cases hrewritten
    | group child =>
      obtain ⟨child', hchild, rfl⟩ := map_eq_ok hrewritten
      obtain ⟨ctx, replaced, hfill, hpath, hstart, hstop, rfl⟩ := ih hchild
      refine ⟨.inside front child ctx back, replaced, ?_, ?_, hstart, hstop, ?_⟩
      · rw [hparts, GroupContext.fill, ← hfill, with_elements]
      · rw [GroupContext.path, hfront, hpath]
      · exact (Except.ok.inj hresult).symm

lemma mapM_toGroupElement {l : List Element} {grouped : List GroupElement}
    (h : l.mapM elementToGroupElement = .ok grouped) :
    (∀ e ∈ l, (toGroupElement e).isSome = true) ∧ l.filterMap toGroupElement = grouped := by
  induction l generalizing grouped with
  | nil =>
    obtain rfl : [] = grouped := Except.ok.inj h
    simp
  | cons e l ih =>
    rw [List.mapM_cons] at h
    obtain ⟨first, hfirst, hrest⟩ := bind_eq_ok h
    obtain ⟨rest, hmap, hgrouped⟩ := bind_eq_ok hrest
    obtain rfl : first :: rest = grouped := Except.ok.inj hgrouped
    obtain ⟨hall, hsame⟩ := ih hmap
    have he : toGroupElement e = some first := by
      cases e with
      | item i => exact congrArg some (Except.ok.inj hfirst)
      | group g => exact congrArg some (Except.ok.inj hfirst)
      | fixedSpace width => cases hfirst
      | flexibleSpace minimum weight => cases hfirst
    refine ⟨fun e' he' => ?_, by rw [List.filterMap_cons, he, hsame]⟩
    rcases List.mem_cons.1 he' with rfl | hlater
    · rw [he]
      rfl
    · exact hall e' hlater

/-- An element of a group, in a bar. -/
def ofGroupElement : GroupElement → Element
  | .item i => .item i
  | .group g => .group g

lemma filterMap_ofGroupElement (l : List GroupElement) :
    (l.map ofGroupElement).filterMap toGroupElement = l := by
  induction l with
  | nil => rfl
  | cons e l ih => cases e <;> simp [ofGroupElement, toGroupElement, ih]

lemma isSome_ofGroupElement (e : GroupElement) :
    (toGroupElement (ofGroupElement e)).isSome = true := by
  cases e <;> rfl

/-- A bar is rewritten by filling a pruned context of it. -/
lemma rewriteBar_fill {elements : List Element} {path : List ℕ} {start stop : ℕ}
    {replacement : List Element} {ids : BTreeSet ItemId} {result : List Element}
    (h : rewriteBar elements path start stop replacement ids = .ok result) :
    ∃ (ctx : BarContext) (replaced : List Element), elements = ctx.fill replaced ∧
      ctx.Admits replaced ∧ ctx.Admits replacement ∧ ctx.path = path ∧ ctx.start = start ∧
      start + replaced.length = stop ∧ result = (ctx.prune ids).fill replacement := by
  cases path with
  | nil =>
    rw [rewriteBar] at h
    split_ifs at h with hspan
    rw [not_or, not_lt, not_lt] at hspan
    obtain ⟨front, middle, back, hparts, hfront, hmiddle⟩ := exists_parts hspan.1 hspan.2
    refine ⟨.top front back, middle, hparts, trivial, trivial, rfl, hfront, hmiddle, ?_⟩
    rw [← Except.ok.inj h, hparts, ← hmiddle, ← hfront, spliceRange_eq]
    rfl
  | cons target path =>
    rw [rewriteBar] at h
    obtain ⟨grouped, hgrouped, hrest⟩ := bind_eq_ok h
    obtain ⟨hadmits, hsame⟩ := mapM_toGroupElement hgrouped
    split_ifs at hrest with hlength
    obtain ⟨front, element, back, hparts, hfront⟩ := exists_at (not_le.1 hlength)
    rw [hparts, ← hfront, ← Nat.zero_add front.length, rewriteAt_eq_ok_iff] at hrest
    obtain ⟨rewritten, hrewritten, rfl⟩ := hrest
    cases element with
    | item i => cases hrewritten
    | fixedSpace width => cases hrewritten
    | flexibleSpace minimum weight => cases hrewritten
    | group group =>
      obtain ⟨group', hgroup, rfl⟩ := map_eq_ok hrewritten
      obtain ⟨ctx, replaced, hfill, hpath, hstart, hstop, rfl⟩ := rewriteGroup_fill hgroup
      refine ⟨.inside front group ctx back, replaced.map ofGroupElement, ?_, ?_, hadmits, ?_,
        hstart, ?_, ?_⟩
      · rw [hparts, BarContext.fill, filterMap_ofGroupElement, ← hfill, with_elements]
      · intro e he
        obtain ⟨e', -, rfl⟩ := List.mem_map.1 he
        exact isSome_ofGroupElement e'
      · rw [BarContext.path, hfront, hpath]
      · rw [List.length_map, hstop]
      · rw [← hsame]
        rfl

/-- The ids of the items of a bar. -/
def idsOf (bar : BarSpec) : List ItemId := bar.items.map ItemSpec.id

/-- A bar that has the content in the place of a part of another bar. -/
structure SplicedAt (ctx : BarContext) (replaced : List Element)
    (compact content result : BarSpec) : Prop where
  /-- The bar is the context around the part that is replaced. -/
  compact_eq : compact.elements = ctx.fill replaced
  /-- The result is the context, without the items of the content, around the content. -/
  result_eq : result.elements = (ctx.prune (itemIds content)).fill content.elements
  admits : ctx.Admits replaced ∧ ctx.Admits content.elements
  /-- The items of the bar, each with the groups around it. -/
  items_compact : located [] compact.elements =
    ctx.before ++ located ctx.chain replaced ++ ctx.after
  /-- The items of the result: all outside of the part that the content does not have are
  where they were, and those of the content are in the groups around the part. -/
  items_result : located [] result.elements =
    ctx.before.filter (kept (itemIds content)) ++ located ctx.chain content.elements ++
      ctx.after.filter (kept (itemIds content))
  /-- No item is placed twice. -/
  unique : (idsOf result).Nodup
  /-- The principal item is placed. -/
  principal : ∀ id ∈ result.principalItem, id ∈ idsOf result

lemma idsOf_eq (bar : BarSpec) :
    idsOf bar = (located [] bar.elements).map fun p => p.2.id := by
  rw [idsOf, BarSpec.items, ← map_snd_located [], List.map_map]
  rfl

lemma mem_itemIds {bar : BarSpec} {id : ItemId} : id ∈ itemIds bar ↔ id ∈ idsOf bar :=
  mem_itemIdsFromElements

lemma splicedAt_of_rewriteBar {compact content : BarSpec} {path : List ℕ} {start stop : ℕ}
    {elements : List Element} (hcompact : (idsOf compact).Nodup)
    (hcontent : (idsOf content).Nodup)
    (hprincipal : ∀ id ∈ content.principalItem, id ∈ idsOf content)
    (h : rewriteBar compact.elements path start stop content.elements (itemIds content) =
      .ok elements) :
    ∃ (ctx : BarContext) (replaced : List Element), ctx.path = path ∧ ctx.start = start ∧
      start + replaced.length = stop ∧
      SplicedAt ctx replaced compact content (splicedBar compact content elements) := by
  obtain ⟨ctx, replaced, hfill, hreplaced, hadmits, hpath, hstart, hstop, rfl⟩ :=
    rewriteBar_fill h
  have hbefore := BarContext.located_fill hreplaced
  have hafter := BarContext.located_fill (BarContext.admits_prune hadmits (itemIds content))
  rw [BarContext.chain_prune, BarContext.before_prune, BarContext.after_prune] at hafter
  rw [← hfill] at hbefore
  have hids : idsOf (splicedBar compact content ((ctx.prune (itemIds content)).fill
      content.elements)) =
      ((ctx.before.filter (kept (itemIds content)) ++ located ctx.chain content.elements ++
        ctx.after.filter (kept (itemIds content))).map fun p => p.2.id) := by
    rw [idsOf_eq, ← hafter]
    rfl
  have hmiddle : (located ctx.chain content.elements).map (fun p => p.2.id) =
      idsOf content := by
    rw [idsOf, BarSpec.items, ← map_snd_located ctx.chain, List.map_map]
    rfl
  refine ⟨ctx, replaced, hpath, hstart, hstop, hfill, rfl, ⟨hreplaced, hadmits⟩, hbefore, hafter,
    ?_, ?_⟩
  · -- what is left of the bar, and the content, which has none of it
    rw [hids, List.map_append, List.map_append, hmiddle]
    have hleft : ((ctx.before.filter (kept (itemIds content)) ++
        ctx.after.filter (kept (itemIds content))).map fun p => p.2.id).Nodup := by
      have hall := hcompact
      rw [idsOf_eq, hbefore] at hall
      refine hall.sublist (List.Sublist.map _ ?_)
      refine List.Sublist.append ?_ List.filter_sublist
      exact List.filter_sublist.trans (List.sublist_append_left _ _)
    rw [List.map_append] at hleft
    refine (List.perm_append_comm.append_right _).nodup_iff.2 ?_
    rw [List.append_assoc, List.nodup_append]
    refine ⟨hcontent, hleft, fun id hid other hother heq => ?_⟩
    subst heq
    rw [← List.map_append, ← List.filter_append] at hother
    obtain ⟨p, hp, rfl⟩ := List.mem_map.1 hother
    have hkept := (List.mem_filter.1 hp).2
    rw [kept, Bool.not_eq_true'] at hkept
    have hin : (itemIds content).contains p.2.id = true :=
      BTreeSet.contains_iff.2 (mem_itemIds.2 hid)
    rw [hin] at hkept
    cases hkept
  · intro id hid
    rw [splicedBar] at hid
    cases hown : content.principalItem with
    | some principal =>
      rw [hown] at hid
      obtain rfl : principal = id := Option.some.inj hid
      rw [hids, List.map_append, List.map_append, hmiddle]
      exact List.mem_append_left _ (List.mem_append_right _ (hprincipal principal hown))
    | none =>
      rw [hown, Option.none_or] at hid
      have hpresent := (Option.filter_eq_some_iff.1 hid).2
      exact mem_itemIds.1 (BTreeSet.contains_iff.1 hpresent)

/-! ### The source item -/

lemma findItemInGroupElements_spec {source : String} {es : List GroupElement}
    (hchild : ∀ g, GroupElement.group g ∈ es → ∀ path index,
      findItemInGroup source g = some (path, index) →
      ∃ (ctx : GroupContext) (i : ItemSpec), g.elements = ctx.fill [.item i] ∧
        ctx.path = path ∧ ctx.start = index ∧ i.id.value = source)
    {front : List GroupElement} {path : List ℕ} {index : ℕ}
    (h : findItemInGroupElements source es front.length = some (path, index)) :
    ∃ (ctx : GroupContext) (i : ItemSpec), front ++ es = ctx.fill [.item i] ∧
      ctx.path = path ∧ ctx.start = index ∧ i.id.value = source := by
  induction es generalizing front with
  | nil => cases h
  | cons e es ih =>
    have hnext : front ++ e :: es = (front ++ [e]) ++ es := by simp
    have hlength : (front ++ [e]).length = front.length + 1 := by simp
    have ih := @ih (fun g hg => hchild g (List.mem_cons_of_mem _ hg)) (front ++ [e])
    rw [hlength, ← hnext] at ih
    cases e with
    | item i =>
      rw [findItemInGroupElements] at h
      split_ifs at h with hid
      · cases h
        exact ⟨.here front es, i, by simp [GroupContext.fill], rfl, rfl, hid⟩
      · exact ih h
    | group g =>
      rw [findItemInGroupElements] at h
      cases hfound : findItemInGroup source g with
      | none =>
        rw [hfound] at h
        exact ih h
      | some found =>
        rw [hfound] at h
        cases h
        obtain ⟨ctx, i, hfill, hpath, hstart, hid⟩ :=
          hchild g List.mem_cons_self found.1 found.2 hfound
        refine ⟨.inside front g ctx es, i, ?_, ?_, hstart, hid⟩
        · rw [GroupContext.fill, ← hfill, with_elements]
        · rw [GroupContext.path, hpath]

lemma findItemInGroup_spec {source : String} (g : GroupSpec) {path : List ℕ} {index : ℕ}
    (h : findItemInGroup source g = some (path, index)) :
    ∃ (ctx : GroupContext) (i : ItemSpec), g.elements = ctx.fill [.item i] ∧
      ctx.path = path ∧ ctx.start = index ∧ i.id.value = source := by
  induction g using GroupSpec.nested_induction generalizing path index with
  | step g ih =>
    cases g
    rw [findItemInGroup] at h
    exact @findItemInGroupElements_spec source _ (fun child hchild path index => ih child hchild)
      [] path index h

lemma findItemContainer_spec {source : String} {es front : List Element} {path : List ℕ}
    {index : ℕ} (h : findItemContainer source es front.length = some (path, index)) :
    ∃ (ctx : BarContext) (i : ItemSpec), front ++ es = ctx.fill [.item i] ∧
      ctx.path = path ∧ ctx.start = index ∧ i.id.value = source := by
  induction es generalizing front with
  | nil => cases h
  | cons e es ih =>
    have hnext : front ++ e :: es = (front ++ [e]) ++ es := by simp
    have hlength : (front ++ [e]).length = front.length + 1 := by simp
    have ih := @ih (front ++ [e])
    rw [hlength, ← hnext] at ih
    cases e with
    | item i =>
      rw [findItemContainer] at h
      split_ifs at h with hid
      · cases h
        exact ⟨.top front es, i, by simp [BarContext.fill], rfl, rfl, hid⟩
      · exact ih h
    | group g =>
      rw [findItemContainer] at h
      cases hfound : findItemInGroup source g with
      | none =>
        rw [hfound] at h
        exact ih h
      | some found =>
        rw [hfound] at h
        cases h
        obtain ⟨ctx, i, hfill, hpath, hstart, hid⟩ := findItemInGroup_spec g hfound
        refine ⟨.inside front g ctx es, i, ?_, ?_, hstart, hid⟩
        · show front ++ .group g :: es =
            front ++ .group { g with elements := ctx.fill [.item i] } :: es
          rw [← hfill, with_elements]
        · rw [BarContext.path, hpath]
    | fixedSpace width => exact ih h
    | flexibleSpace minimum weight => exact ih h

/-! ### One hole at a path -/

lemma GroupContext.hole_unique {ctx ctx' : GroupContext} {l l' : List GroupElement}
    (h : ctx.fill l = ctx'.fill l') (hpath : ctx.path = ctx'.path)
    (hstart : ctx.start = ctx'.start) (hlength : l.length = l'.length) : l = l' := by
  induction ctx generalizing ctx' with
  | here before after =>
    cases ctx' with
    | inside before' group' inner' after' => cases hpath
    | here before' after' =>
      rw [fill, fill, List.append_assoc, List.append_assoc] at h
      have hrest := (List.append_inj h hstart).2
      exact (List.append_inj hrest hlength).1
  | inside before group inner after ih =>
    cases ctx' with
    | here before' after' => cases hpath
    | inside before' group' inner' after' =>
      obtain ⟨hbefore, hinner⟩ := List.cons.inj hpath
      have hrest := (List.append_inj h hbefore).2
      have hgroup := GroupElement.group.inj (List.cons.inj hrest).1
      exact ih (congrArg GroupSpec.elements hgroup) hinner hstart

lemma map_ofGroupElement {l : List Element} (h : ∀ e ∈ l, (toGroupElement e).isSome = true) :
    (l.filterMap toGroupElement).map ofGroupElement = l := by
  induction l with
  | nil => rfl
  | cons e l ih =>
    have hrest := ih fun e' he' => h e' (List.mem_cons_of_mem e he')
    have he := h e List.mem_cons_self
    cases e with
    | item i => exact congrArg (.item i :: ·) hrest
    | group g => exact congrArg (.group g :: ·) hrest
    | fixedSpace width => cases he
    | flexibleSpace minimum weight => cases he

lemma BarContext.hole_unique {ctx ctx' : BarContext} {l l' : List Element}
    (h : ctx.fill l = ctx'.fill l') (hl : ctx.Admits l) (hl' : ctx'.Admits l')
    (hpath : ctx.path = ctx'.path) (hstart : ctx.start = ctx'.start)
    (hlength : l.length = l'.length) : l = l' := by
  cases ctx with
  | top before after =>
    cases ctx' with
    | inside before' group' inner' after' => cases hpath
    | top before' after' =>
      rw [fill, fill, List.append_assoc, List.append_assoc] at h
      have hrest := (List.append_inj h hstart).2
      exact (List.append_inj hrest hlength).1
  | inside before group inner after =>
    cases ctx' with
    | top before' after' => cases hpath
    | inside before' group' inner' after' =>
      obtain ⟨hbefore, hinner⟩ := List.cons.inj hpath
      have hrest := (List.append_inj h hbefore).2
      have hgroup := Element.group.inj (List.cons.inj hrest).1
      have hleft := map_ofGroupElement hl
      have hright := map_ofGroupElement hl'
      have hsame : (l.filterMap toGroupElement).length = (l'.filterMap toGroupElement).length := by
        rw [← List.length_map (f := ofGroupElement), hleft, hlength,
          ← List.length_map (f := ofGroupElement), hright]
      rw [← hleft, ← hright, inner.hole_unique (congrArg GroupSpec.elements hgroup) hinner hstart
        hsame]

/-- Whenever a presentation can be spliced into a bar, its elements stand in the place of the
source item, or of the elements of the slot, in the same groups; every other item of the bar
that the presentation does not have is where it was; no item is placed twice; and the
principal item is placed. -/
theorem splices {compact content : BarSpec} (hcompact : (idsOf compact).Nodup)
    (hcontent : (idsOf content).Nodup)
    (hprincipal : ∀ id ∈ content.principalItem, id ∈ idsOf content) :
    (∀ source result, inPlaceContentBar compact source content = .ok result →
      ∃ (ctx : BarContext) (i : ItemSpec), i.id.value = source ∧
        SplicedAt ctx [.item i] compact content result) ∧
    ∀ slots target result, slotContentBar compact slots target content = .ok result →
      ∃ (slot : ComposedSlot) (ctx : BarContext) (replaced : List Element),
        slots.find? (fun slot => decide (slot.id.value = target)) = some slot ∧
        ctx.path = slot.path ∧ ctx.start = slot.elements.1 ∧
        slot.elements.1 + replaced.length = slot.elements.2 ∧
        SplicedAt ctx replaced compact content result := by
  constructor
  · intro source result h
    rw [inPlaceContentBar] at h
    cases hfound : findItemContainer source compact.elements 0 with
    | none =>
      rw [hfound] at h
      cases h
    | some found =>
      rw [hfound] at h
      obtain ⟨elements, helements, rfl⟩ := map_eq_ok h
      obtain ⟨ctx, i, hfill, hpath, hstart, hid⟩ :=
        @findItemContainer_spec source compact.elements [] found.1 found.2 hfound
      obtain ⟨ctx', replaced, hpath', hstart', hlength, hspliced⟩ :=
        splicedAt_of_rewriteBar hcompact hcontent hprincipal helements
      -- the part that is replaced is the item that was found
      have hitem : ctx.Admits [.item i] := by
        cases ctx with
        | top before after => trivial
        | inside before group inner after =>
          intro e he
          rw [List.mem_singleton.1 he]
          rfl
      have hpart : [Element.item i] = replaced := by
        refine BarContext.hole_unique (hfill.symm.trans hspliced.compact_eq) hitem
          hspliced.admits.1 (hpath.trans hpath'.symm) (hstart.trans hstart'.symm) ?_
        rw [List.length_singleton]
        omega
      exact ⟨ctx', i, hid, hpart ▸ hspliced⟩
  · intro slots target result h
    rw [slotContentBar] at h
    cases hslot : slots.find? fun slot => decide (slot.id.value = target) with
    | none =>
      rw [hslot] at h
      cases h
    | some slot =>
      rw [hslot] at h
      obtain ⟨elements, helements, rfl⟩ := map_eq_ok h
      obtain ⟨ctx, replaced, hpath, hstart, hlength, hspliced⟩ :=
        splicedAt_of_rewriteBar hcompact hcontent hprincipal helements
      exact ⟨slot, ctx, replaced, rfl, hpath, hstart, hlength, hspliced⟩

/-- An item of the width 80. -/
def item80 (id : String) : ItemSpec := .new id 40 80 120

/-- A bar with an item in a group, and two others. -/
def groupedBar : BarSpec where
  elements := [.item (item80 "left"),
    .group ⟨"profile-group", [.item (item80 "source"), .item (item80 "status")], .natural, 0, 0, 0⟩]
  principalItem := some ⟨"source"⟩

/-- A presentation of the source that also has an item of the bar. -/
def sourceContent : BarSpec where
  elements := [.item (item80 "source"), .item (item80 "left")]
  principalItem := some ⟨"left"⟩

theorem splices_groupedBar :
    (∀ source result, inPlaceContentBar groupedBar source sourceContent = .ok result →
      ∃ (ctx : BarContext) (i : ItemSpec), i.id.value = source ∧
        SplicedAt ctx [.item i] groupedBar sourceContent result) ∧
    ∀ slots target result, slotContentBar groupedBar slots target sourceContent = .ok result →
      ∃ (slot : ComposedSlot) (ctx : BarContext) (replaced : List Element),
        slots.find? (fun slot => decide (slot.id.value = target)) = some slot ∧
        ctx.path = slot.path ∧ ctx.start = slot.elements.1 ∧
        slot.elements.1 + replaced.length = slot.elements.2 ∧
        SplicedAt ctx replaced groupedBar sourceContent result :=
  splices (by decide) (by decide) (by decide)

example : (inPlaceContentBar groupedBar "source" sourceContent).toOption.map idsOf =
    some [⟨"source"⟩, ⟨"left"⟩, ⟨"status"⟩] := by
  decide

end TouchBar.Session
