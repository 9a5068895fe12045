import TouchBar.Layout.Geometry

/-!
# Atomic visibility groups

Items with the same nonempty visibility group are meant to disappear together.
The resolver hides top-level elements, and an item inside a group disappears with
its group, whatever visibility group the item names.  This file says which
elements a run hides, as an arithmetic condition on the bar, the width and the
required items, and derives exactly when the visibility groups of a bar are
atomic: whenever a top-level group holds a member, it has to be hidden under the
same circumstances as the other elements with members.
-/

namespace TouchBar.Layout

open TouchBar.Rust TouchBar.Lib Outcome

/-- The element shows an item of the visibility group, at any depth. -/
def Element.Carries (e : Element) (group : String) : Prop :=
  ∃ i ∈ e.items, i.visibilityGroup = some group

/-- The items of a visibility group are all placed or all hidden. -/
def Atomic (bar : BarSpec) (layout : ResolvedLayout) (group : String) : Prop :=
  (∀ i ∈ bar.items, i.visibilityGroup = some group → i.id ∈ layout.placements.map Placement.id) ∨
    ∀ i ∈ bar.items, i.visibilityGroup = some group → i.id ∈ layout.hiddenItems

/-! ## The order of hiding, on the elements of a bar -/

def Element.minimum (e : Element) : ℕ :=
  match elementSizing e with
  | ok s => s.minimum
  | _ => 0

/-- The elements that are hidden together with the one at an index. -/
def classAt (es : List Element) (k : ℕ) : List ℕ :=
  match keyAt es k with
  | some key => membersOf es key
  | none => []

def lastAt (es : List Element) (k : ℕ) : ℕ := (classAt es k).getLast?.getD 0

def priorityAt (es : List Element) (k : ℕ) : ℤ := (es[k]?.bind Element.visibilityPriority).getD 0

/-- Content whose class shows no required item. -/
def hideable (es : List Element) (required : BTreeSet ItemId) (k : ℕ) : Bool :=
  !(classAt es k).isEmpty && (classAt es k).all fun l =>
    es[l]?.all fun e => e.items.all fun i => !required.contains i.id

/-- The class of `l` can be hidden, and its turn comes before that of `k`. -/
def yieldsTo (es : List Element) (required : BTreeSet ItemId) (l k : ℕ) : Bool :=
  hideable es required l && (priorityAt es l < priorityAt es k ||
    (priorityAt es l = priorityAt es k && lastAt es k < lastAt es l))

/-- The minimum width of the bar once all classes that yield to `k` are hidden. -/
def demandBefore (es : List Element) (required : BTreeSet ItemId) (k : ℕ) : ℕ :=
  ((List.range es.length).map fun l =>
    if yieldsTo es required l k then 0 else (es[l]?.map Element.minimum).getD 0).sum

/-- The class of `k` can be hidden, and hiding those that yield to it is not enough. -/
def mustHide (bar : BarSpec) (available : UInt32) (required : BTreeSet ItemId) (k : ℕ) : Bool :=
  hideable bar.elements required k && available.toNat < demandBefore bar.elements required k

/-! ## Units and their members -/

section Units

variable {required : BTreeSet ItemId} {es : List Element} {u : VisibilityUnit} {k : ℕ}

lemma UnitOf.mem_iff (h : UnitOf required es u) : k ∈ u.elements ↔ keyAt es k = some u.key := by
  rw [h.elements_eq, mem_membersOf]

lemma UnitOf.classAt_eq (h : UnitOf required es u) (hk : k ∈ u.elements) :
    classAt es k = u.elements := by
  rw [classAt, h.mem_iff.mp hk]
  exact h.elements_eq.symm

lemma UnitOf.lastAt_eq (h : UnitOf required es u) (hk : k ∈ u.elements) :
    lastAt es k = u.trailingElement := by
  rw [lastAt, h.classAt_eq hk, h.last_eq, Option.getD_some]

lemma UnitOf.exists_getElem? (h : UnitOf required es u) (hk : k ∈ u.elements) :
    ∃ e, es[k]? = some e :=
  ⟨_, List.getElem?_eq_getElem (h.lt_length hk)⟩

lemma UnitOf.priorityAt_eq (h : UnitOf required es u) (hk : k ∈ u.elements) :
    priorityAt es k = u.priority := by
  obtain ⟨e, he⟩ := h.exists_getElem? hk
  rw [priorityAt, he, Option.bind_some, h.priority_eq k hk e he, Option.getD_some]

lemma UnitOf.hideable_iff (h : UnitOf required es u) (hk : k ∈ u.elements) :
    hideable es required k = true ↔ u.required = false := by
  have hne : u.elements.isEmpty = false := by simpa using List.ne_nil_of_mem hk
  rw [hideable, h.classAt_eq hk, hne, ← Bool.not_eq_true, h.required_iff]
  simp only [Element.HoldsAny, Bool.not_false, Bool.true_and, List.all_eq_true, not_exists,
    not_and, Option.all_eq_true, Bool.not_eq_true', ← Bool.not_eq_true, BTreeSet.contains_iff]

/-- The turn of one unit comes before that of another. -/
def StrictlyBefore (v u : VisibilityUnit) : Prop :=
  v.priority < u.priority ∨
    (v.priority = u.priority ∧ u.trailingElement < v.trailingElement)

lemma UnitOf.yieldsTo_iff {v : VisibilityUnit} {l : ℕ} (hv : UnitOf required es v)
    (hu : UnitOf required es u) (hl : l ∈ v.elements) (hk : k ∈ u.elements) :
    yieldsTo es required l k = true ↔ v.required = false ∧ StrictlyBefore v u := by
  rw [yieldsTo, hv.priorityAt_eq hl, hu.priorityAt_eq hk, hv.lastAt_eq hl, hu.lastAt_eq hk,
    Bool.and_eq_true, hv.hideable_iff hl]
  simp [StrictlyBefore]

end Units

/-! ## The units in hiding order -/

instance : Std.Total HidesBefore := ⟨fun a b => by
  unfold HidesBefore
  omega⟩

instance : IsTrans VisibilityUnit HidesBefore := ⟨fun a b c => by
  unfold HidesBefore
  omega⟩

/-- The units in the order in which the loop goes through them. -/
def hidingOrder (units : List VisibilityUnit) : List VisibilityUnit :=
  (units.insertionSort HidesBefore).filter fun unit => !unit.required

section HidingOrder

variable {required : BTreeSet ItemId} {es : List Element} {units : List VisibilityUnit}
  {u v : VisibilityUnit}

lemma mem_hidingOrder : u ∈ hidingOrder units ↔ u ∈ units ∧ u.required = false := by
  rw [hidingOrder, List.mem_filter, List.mem_insertionSort]
  simp

/-- Different units end at different elements. -/
lemma UnitsOf.eq_of_trailing_eq (h : UnitsOf required es units) (hu : u ∈ units) (hv : v ∈ units)
    (heq : u.trailingElement = v.trailingElement) : u = v := by
  have hku := (h.unit u hu).mem_iff.mp (h.unit u hu).trailing_mem
  have hkv := (h.unit v hv).mem_iff.mp (h.unit v hv).trailing_mem
  rw [heq, hkv, Option.some.injEq] at hku
  exact List.inj_on_of_nodup_map h.keys_nodup hu hv hku.symm

/-- An element belongs to one unit only. -/
lemma UnitsOf.eq_of_mem (h : UnitsOf required es units) (hu : u ∈ units) (hv : v ∈ units) {k : ℕ}
    (hku : k ∈ u.elements) (hkv : k ∈ v.elements) : u = v := by
  have h1 := (h.unit u hu).mem_iff.mp hku
  rw [(h.unit v hv).mem_iff.mp hkv, Option.some.injEq] at h1
  exact List.inj_on_of_nodup_map h.keys_nodup hu hv h1.symm

lemma UnitsOf.pairwise_hidingOrder (h : UnitsOf required es units) :
    (hidingOrder units).Pairwise StrictlyBefore := by
  have hsorted : (units.insertionSort HidesBefore).Pairwise HidesBefore :=
    List.pairwise_insertionSort HidesBefore units
  have hnd : (units.insertionSort HidesBefore).Nodup :=
    (List.perm_insertionSort HidesBefore units).nodup_iff.mpr (List.Nodup.of_map _ h.keys_nodup)
  have hstrict : (units.insertionSort HidesBefore).Pairwise StrictlyBefore := by
    refine (hsorted.and hnd).imp_of_mem ?_
    rintro a b ha hb ⟨hle, hne⟩
    rw [List.mem_insertionSort] at ha hb
    have htr : a.trailingElement ≠ b.trailingElement := fun heq =>
      hne (h.eq_of_trailing_eq ha hb heq)
    unfold HidesBefore at hle
    unfold StrictlyBefore
    omega
  exact hstrict.filter _

/-- Before a unit in the hiding order stand exactly those whose turn comes before it. -/
lemma UnitsOf.mem_front_iff (h : UnitsOf required es units) {front back : List VisibilityUnit}
    (hsplit : hidingOrder units = front ++ u :: back) :
    v ∈ front ↔ v ∈ units ∧ v.required = false ∧ StrictlyBefore v u := by
  have hpw := h.pairwise_hidingOrder
  rw [hsplit, List.pairwise_append, List.pairwise_cons] at hpw
  obtain ⟨-, ⟨hback, -⟩, hfront⟩ := hpw
  constructor
  · intro hv
    have hmem : v ∈ hidingOrder units := hsplit ▸ List.mem_append_left _ hv
    exact ⟨(mem_hidingOrder.mp hmem).1, (mem_hidingOrder.mp hmem).2,
      hfront v hv u List.mem_cons_self⟩
  · rintro ⟨hv, hreq, hlt⟩
    have hmem : v ∈ front ++ u :: back := hsplit ▸ mem_hidingOrder.mpr ⟨hv, hreq⟩
    rcases List.mem_append.mp hmem with hv | hv
    · exact hv
    · -- the unit itself and those after it do not come before it
      exfalso
      unfold StrictlyBefore at hlt
      rcases List.mem_cons.mp hv with rfl | hv
      · omega
      · have := hback v hv
        unfold StrictlyBefore at this
        omega

end HidingOrder

/-! ## What a run hides -/

/-- The width that element `l` contributes when the elements `ks` are hidden. -/
lemma getElem?_hideRow {es : List Element} {ss : List Sizing} (hsizing : elementsSizing es = ok ss)
    (ks : List ℕ) {l : ℕ} {e : Element} (he : es[l]? = some e)
    (hks : l ∈ ks → e.isContent = true) :
    (rowWidths Sizing.minimum es (hide ks (es.map Element.isContent)) ss)[l]? =
      some (if l ∈ ks then 0 else e.minimum) := by
  have hall := elementsSizing_eq_ok.mp hsizing
  obtain ⟨hl, rfl⟩ := List.getElem?_eq_some_iff.mp he
  have hls : l < ss.length := by rw [← hall.length_eq]; exact hl
  have hsz : elementSizing es[l] = ok ss[l] := hall.get hl hls
  have hmin : es[l].minimum = ss[l].minimum := by rw [Element.minimum, hsz]
  -- the visibility of `l`
  have hlv : l < (hide ks (es.map Element.isContent)).length := by simpa using hl
  obtain ⟨v, hv⟩ : ∃ v, (hide ks (es.map Element.isContent))[l]? = some v :=
    ⟨_, List.getElem?_eq_getElem hlv⟩
  refine getElem?_rowWidths.mpr ⟨_, v, _, he, hv, List.getElem?_eq_getElem hls, ?_⟩
  have hvt : v = true ↔ es[l].isContent = true ∧ l ∉ ks := by
    have hget := @getElem?_hide ks (es.map Element.isContent) l
    rw [hv] at hget
    simpa [he] using hget
  by_cases hc : es[l].isContent = true
  · rw [elementWidth_of_isContent hc, hmin]
    by_cases hlk : l ∈ ks
    · have : v = false := by simpa [hlk] using hvt
      simp [this, hlk]
    · have : v = true := hvt.mpr ⟨hc, hlk⟩
      simp [this, hlk]
  · rw [if_neg fun hlk => hc (hks hlk), hmin]
    have hfix : ∀ e : Element, e.isContent ≠ true → ∀ s, elementSizing e = ok s →
        elementWidth Sizing.minimum e v s = s.minimum := by
      intro e he s hs
      cases e <;> simp_all [Element.isContent, elementSizing, elementWidth]
      all_goals
        subst hs
        rfl
    exact hfix _ hc _ hsz

namespace Run

variable {bar : BarSpec} {available : UInt32} {required : BTreeSet ItemId}
  {layout : ResolvedLayout}

lemma unitsOf (r : Run bar available required layout) :
    UnitsOf required bar.elements r.units :=
  visibilityUnits_unitsOf r.units_eq

lemma total_eq_demand (r : Run bar available required layout) :
    r.total = demand bar.elements r.sizing (bar.elements.map Element.isContent) := by
  have htotal := r.total_eq
  rw [totalWidth, U64.sum_eq_some] at htotal
  exact htotal.2.symm

/-- Content belongs to a unit. -/
lemma exists_unit (r : Run bar available required layout) {k : ℕ} {e : Element}
    (he : bar.elements[k]? = some e) (hc : e.isContent = true) :
    ∃ u ∈ r.units, k ∈ u.elements := by
  have hkey : ∃ key, keyAt bar.elements k = some key := by
    rw [keyAt, he, Option.bind_some]
    cases e <;> simp_all [Element.unitKey, Element.isContent]
  obtain ⟨key, hkey⟩ := hkey
  obtain ⟨u, hu, rfl⟩ := r.unitsOf.complete k key hkey
  exact ⟨u, hu, (r.unitsOf.unit u hu).mem_iff.mpr hkey⟩

/-- Units have no spaces. -/
lemma isContent_of_mem_unit (r : Run bar available required layout) {u : VisibilityUnit} {k : ℕ}
    {e : Element} (hu : u ∈ r.units) (hk : k ∈ u.elements) (he : bar.elements[k]? = some e) :
    e.isContent = true := by
  have hkey := (r.unitsOf.unit u hu).mem_iff.mp hk
  rw [keyAt, he, Option.bind_some] at hkey
  cases e <;> simp_all [Element.unitKey, Element.isContent]

/-- The demand that a run sees when the turn of `k` comes. -/
lemma demand_eq_demandBefore (r : Run bar available required layout) {u : VisibilityUnit}
    {front back : List VisibilityUnit} (hsplit : hidingOrder r.units = front ++ u :: back) {k : ℕ}
    (hk : k ∈ u.elements) :
    demand bar.elements r.sizing (hide (front.flatMap VisibilityUnit.elements)
      (bar.elements.map Element.isContent)) = demandBefore bar.elements required k := by
  have hunits := r.unitsOf
  have hu : u ∈ r.units := (mem_hidingOrder.mp (hsplit ▸ by simp)).1
  -- what is hidden so far is what yields to `k`
  have hmem : ∀ l e, bar.elements[l]? = some e →
      (l ∈ front.flatMap VisibilityUnit.elements ↔ yieldsTo bar.elements required l k = true) := by
    intro l e he
    rw [List.mem_flatMap]
    constructor
    · rintro ⟨v, hv, hl⟩
      obtain ⟨hvu, hreq, hlt⟩ := (hunits.mem_front_iff hsplit).mp hv
      exact ((hunits.unit v hvu).yieldsTo_iff (hunits.unit u hu) hl hk).mpr ⟨hreq, hlt⟩
    · intro hy
      have hc : e.isContent = true := by
        have hne : classAt bar.elements l ≠ [] := by
          simp only [yieldsTo, hideable, Bool.and_eq_true] at hy
          simpa using hy.1.1
        rw [classAt, keyAt, he, Option.bind_some] at hne
        cases e <;> simp_all [Element.unitKey, Element.isContent]
      obtain ⟨v, hv, hl⟩ := r.exists_unit he hc
      have := ((hunits.unit v hv).yieldsTo_iff (hunits.unit u hu) hl hk).mp hy
      exact ⟨v, (hunits.mem_front_iff hsplit).mpr ⟨hv, this.1, this.2⟩, hl⟩
  rw [demand, demandBefore]
  congr 1
  apply List.ext_getElem?
  intro l
  by_cases hl : l < bar.elements.length
  · have he : bar.elements[l]? = some bar.elements[l] := List.getElem?_eq_getElem hl
    rw [getElem?_hideRow r.sizing_eq _ he ?_]
    · simp only [List.getElem?_map, List.getElem?_range hl, Option.map_some, he, Option.getD_some,
        hmem l _ he]
    · intro hlf
      obtain ⟨v, hv, hlv⟩ := List.mem_flatMap.mp hlf
      exact r.isContent_of_mem_unit ((hunits.mem_front_iff hsplit).mp hv).1 hlv he
  · rw [List.getElem?_eq_none, List.getElem?_eq_none]
    · simpa using hl
    · rw [length_rowWidths (by simp) r.length_sizing]
      omega

/-- Hiding more does not raise the demand. -/
lemma demand_hide_le (r : Run bar available required layout) {ks ls : List ℕ}
    (hcont : ∀ l ∈ ls, ∀ e, bar.elements[l]? = some e → e.isContent = true) (hsub : ks ⊆ ls) :
    demand bar.elements r.sizing (hide ls (bar.elements.map Element.isContent)) ≤
      demand bar.elements r.sizing (hide ks (bar.elements.map Element.isContent)) := by
  refine List.Forall₂.sum_le_sum (List.forall₂_iff_get.mpr ⟨?_, fun l hl hl' => ?_⟩)
  · rw [length_rowWidths (by simp) r.length_sizing, length_rowWidths (by simp) r.length_sizing]
  · have hlt : l < bar.elements.length := by
      rwa [length_rowWidths (by simp) r.length_sizing] at hl
    have he : bar.elements[l]? = some bar.elements[l] := List.getElem?_eq_getElem hlt
    have h1 := getElem?_hideRow r.sizing_eq ls he fun h => hcont l h _ he
    have h2 := getElem?_hideRow r.sizing_eq ks he fun h => hcont l (hsub h) _ he
    rw [List.getElem?_eq_getElem hl, Option.some.injEq] at h1
    rw [List.getElem?_eq_getElem hl', Option.some.injEq] at h2
    simp only [List.get_eq_getElem, h1, h2]
    by_cases hk : l ∈ ks
    · simp [hk, hsub hk]
    · rw [if_neg hk]
      split_ifs <;> omega

lemma hide_hidingOrder_le (r : Run bar available required layout)
    {front back : List VisibilityUnit} (hsplit : hidingOrder r.units = front ++ back)
    (ks : List ℕ) (hsub : ks ⊆ front.flatMap VisibilityUnit.elements) :
    demand bar.elements r.sizing (hide (front.flatMap VisibilityUnit.elements)
      (bar.elements.map Element.isContent)) ≤
      demand bar.elements r.sizing (hide ks (bar.elements.map Element.isContent)) := by
  refine r.demand_hide_le (fun l hl e he => ?_) hsub
  obtain ⟨v, hv, hlv⟩ := List.mem_flatMap.mp hl
  have hvu : v ∈ hidingOrder r.units := hsplit ▸ List.mem_append_left _ hv
  exact r.isContent_of_mem_unit (mem_hidingOrder.mp hvu).1 hlv he

lemma lt_length_visible (r : Run bar available required layout) {k : ℕ} {e : Element}
    (he : bar.elements[k]? = some e) : k < r.visible.length := by
  rw [r.length_visible]
  exact (List.getElem?_eq_some_iff.mp he).1

lemma visible_eq_false_iff (r : Run bar available required layout) {k : ℕ} {e : Element}
    (he : bar.elements[k]? = some e) :
    r.visible[k]? = some false ↔ ¬ r.visible[k]? = some true := by
  rw [List.getElem?_eq_getElem (r.lt_length_visible he)]
  simp

/-- Content is hidden exactly if it must be. -/
theorem hidden_iff_mustHide (r : Run bar available required layout) {k : ℕ} {e : Element}
    (he : bar.elements[k]? = some e) (hc : e.isContent = true) :
    r.visible[k]? = some false ↔ mustHide bar available required k = true := by
  obtain ⟨u, hu, hk⟩ := r.exists_unit he hc
  have hunit := r.unitsOf.unit u hu
  have hinit : (bar.elements.map Element.isContent)[k]? = some true := by simp [he, hc]
  rw [mustHide, Bool.and_eq_true, hunit.hideable_iff hk, decide_eq_true_eq,
    r.visible_eq_false_iff he]
  have h := r.hidden_eq
  rw [hideToFit] at h
  split_ifs at h with hlt
  · obtain ⟨pre, post, hsplit, hvis, htot, hpost, hpre⟩ :=
      hideLoop_eq_some h (contentOnly_map_isContent _) r.total_eq_demand hlt
    change hidingOrder r.units = pre ++ post at hsplit
    rw [hvis, getElem?_hide, and_iff_right hinit, not_not]
    constructor
    · -- the loop hid the unit while the rest before it did not fit
      intro hmem
      obtain ⟨v, hv, hkv⟩ := List.mem_flatMap.mp hmem
      have hvo := mem_hidingOrder.mp (hsplit ▸ List.mem_append_left _ hv)
      obtain rfl := r.unitsOf.eq_of_mem hvo.1 hu hkv hk
      obtain ⟨front, back, rfl⟩ := List.append_of_mem hv
      refine ⟨hvo.2, ?_⟩
      rw [← r.demand_eq_demandBefore (by simpa using hsplit) hk]
      exact hpre front v back rfl
    · rintro ⟨hreq, hdem⟩
      have hmem : u ∈ pre ++ post := hsplit ▸ mem_hidingOrder.mpr ⟨hu, hreq⟩
      rcases List.mem_append.mp hmem with hmem | hmem
      · exact List.mem_flatMap.mpr ⟨u, hmem, hk⟩
      · -- the loop stopped before the unit, for the rest did fit
        exfalso
        obtain ⟨front, back, rfl⟩ := List.append_of_mem hmem
        have hsplit' : hidingOrder r.units = (pre ++ front) ++ u :: back := by
          rw [hsplit, List.append_assoc]
        have hfit := hpost (by simp)
        have hle := r.hide_hidingOrder_le hsplit' (pre.flatMap VisibilityUnit.elements) (by simp)
        rw [r.demand_eq_demandBefore hsplit' hk] at hle
        rw [htot, hvis] at hfit
        omega
  · -- everything fits, and nothing is hidden
    obtain ⟨hvis, -⟩ := Prod.mk.inj (Option.some.inj h)
    rw [← hvis, hinit]
    simp only [not_true_eq_false, false_iff, not_and, not_lt]
    intro hreq
    obtain ⟨front, back, hsplit⟩ := List.append_of_mem (mem_hidingOrder.mpr ⟨hu, hreq⟩)
    have hle := r.hide_hidingOrder_le hsplit [] (by simp)
    rw [r.demand_eq_demandBefore hsplit hk] at hle
    have htotal := r.total_eq_demand
    change _ ≤ demand bar.elements r.sizing (bar.elements.map Element.isContent) at hle
    omega

/-- An item is placed or hidden with its element. -/
lemma mem_layout_iff (r : Run bar available required layout) {k : ℕ} {e : Element} {i : ItemSpec}
    (he : bar.elements[k]? = some e) (hi : i ∈ e.items) :
    (i.id ∈ layout.placements.map Placement.id ↔ r.visible[k]? = some true) ∧
      (i.id ∈ layout.hiddenItems ↔ r.visible[k]? = some false) := by
  obtain ⟨-, hplaces, hhidden, -⟩ := r.placed_spec
  have hnd := r.validBar.ids_nodup
  have hperm := (itemsWhere_perm r.length_visible).map ItemSpec.id
  have hsplit := hperm.nodup_iff.mpr hnd
  rw [List.map_append, List.nodup_append] at hsplit
  rw [places_map_id hplaces, hhidden]
  have hmem : ∀ shown, r.visible[k]? = some shown →
      i.id ∈ (itemsWhere shown bar.elements r.visible).map ItemSpec.id := fun shown hv =>
    List.mem_map_of_mem (mem_itemsWhere.mpr ⟨k, e, he, hv, hi⟩)
  have hlt := r.lt_length_visible he
  -- identifiers are distinct, so that no other element shows or hides the item
  cases hv : r.visible[k] with
  | true =>
    have hv' : r.visible[k]? = some true := by rw [List.getElem?_eq_getElem hlt, hv]
    have hin := hmem true hv'
    refine ⟨by simp [hv', hin], ?_⟩
    simp only [hv', Option.some.injEq, Bool.true_eq_false, iff_false]
    exact fun hin' => hsplit.2.2 _ hin _ hin' rfl
  | false =>
    have hv' : r.visible[k]? = some false := by rw [List.getElem?_eq_getElem hlt, hv]
    have hin := hmem false hv'
    refine ⟨?_, by simp [hv', hin]⟩
    simp only [hv', Option.some.injEq, Bool.false_eq_true, iff_false]
    exact fun hin' => hsplit.2.2 _ hin' _ hin rfl

/-- An item of content is placed exactly if its element need not be hidden. -/
lemma mem_placements_iff (r : Run bar available required layout) {k : ℕ} {e : Element}
    {i : ItemSpec} (he : bar.elements[k]? = some e) (hi : i ∈ e.items)
    (hc : e.isContent = true) :
    i.id ∈ layout.placements.map Placement.id ↔ mustHide bar available required k = false := by
  rw [(r.mem_layout_iff he hi).1, ← Bool.not_eq_true, ← r.hidden_iff_mustHide he hc,
    r.visible_eq_false_iff he, not_not]

lemma mem_hiddenItems_iff (r : Run bar available required layout) {k : ℕ} {e : Element}
    {i : ItemSpec} (he : bar.elements[k]? = some e) (hi : i ∈ e.items)
    (hc : e.isContent = true) :
    i.id ∈ layout.hiddenItems ↔ mustHide bar available required k = true := by
  rw [(r.mem_layout_iff he hi).2, r.hidden_iff_mustHide he hc]

/-- Top-level items of one visibility group share their fate. -/
lemma mustHide_congr (r : Run bar available required layout) {k l : ℕ} {i j : ItemSpec}
    {group : String} (hk : bar.elements[k]? = some (.item i))
    (hl : bar.elements[l]? = some (.item j)) (hi : i.visibilityGroup = some group)
    (hj : j.visibilityGroup = some group) :
    mustHide bar available required k = mustHide bar available required l := by
  obtain ⟨u, hu, hku⟩ := r.exists_unit hk rfl
  have hunit := r.unitsOf.unit u hu
  have hkey : keyAt bar.elements l = keyAt bar.elements k := by
    simp [keyAt, hk, hl, Element.unitKey, hi, hj]
  have hlu : l ∈ u.elements := by
    rw [hunit.mem_iff, hkey]
    exact hunit.mem_iff.mp hku
  have hyields : ∀ m, yieldsTo bar.elements required m k = yieldsTo bar.elements required m l := by
    intro m
    simp only [yieldsTo, hunit.priorityAt_eq hku, hunit.priorityAt_eq hlu, hunit.lastAt_eq hku,
      hunit.lastAt_eq hlu]
  have hhide : hideable bar.elements required k = hideable bar.elements required l := by
    simp only [hideable, hunit.classAt_eq hku, hunit.classAt_eq hlu]
  have hdem : demandBefore bar.elements required k = demandBefore bar.elements required l := by
    unfold demandBefore
    congr 2
    funext m
    rw [hyields]
  rw [mustHide, mustHide, hhide, hdem]

end Run

/-! ## The main result -/

lemma Element.Carries.isContent {e : Element} {group : String} (h : e.Carries group) :
    e.isContent = true := by
  obtain ⟨i, hi, -⟩ := h
  cases e <;> simp_all [Element.items, Element.isContent]

lemma BarSpec.mem_items_iff {bar : BarSpec} {i : ItemSpec} :
    i ∈ bar.items ↔ ∃ (k : ℕ) (e : Element), bar.elements[k]? = some e ∧ i ∈ e.items := by
  rw [BarSpec.items, List.mem_flatMap]
  constructor
  · rintro ⟨e, he, hi⟩
    obtain ⟨k, hk⟩ := List.getElem?_of_mem he
    exact ⟨k, e, hk, hi⟩
  · rintro ⟨k, e, hk, hi⟩
    exact ⟨e, List.mem_of_getElem? hk, hi⟩

/-- If the top-level groups with members agree with all other elements with members, any
two elements with members agree. -/
lemma Run.mustHide_eq_of_carries {bar : BarSpec} {available : UInt32}
    {required : BTreeSet ItemId} {layout : ResolvedLayout}
    (r : Run bar available required layout) {group : String}
    (hagree : ∀ (k l : ℕ) (g : GroupSpec) (e : Element), bar.elements[k]? = some (.group g) →
      (Element.group g).Carries group → bar.elements[l]? = some e → e.Carries group →
        mustHide bar available required k = mustHide bar available required l)
    {k l : ℕ} {d e : Element} (hk : bar.elements[k]? = some d) (hd : d.Carries group)
    (hl : bar.elements[l]? = some e) (he : e.Carries group) :
    mustHide bar available required k = mustHide bar available required l := by
  cases d with
  | group g => exact hagree k l g e hk hd hl he
  | item i =>
    cases e with
    | group g => exact (hagree l k g (.item i) hl he hk hd).symm
    | item j =>
      have hi : i.visibilityGroup = some group := by
        simpa [Element.Carries, Element.items] using hd
      have hj : j.visibilityGroup = some group := by
        simpa [Element.Carries, Element.items] using he
      exact r.mustHide_congr hk hl hi hj
    | fixedSpace w => exact absurd he.isContent (by simp [Element.isContent])
    | flexibleSpace m w => exact absurd he.isContent (by simp [Element.isContent])
  | fixedSpace w => exact absurd hd.isContent (by simp [Element.isContent])
  | flexibleSpace m w => exact absurd hd.isContent (by simp [Element.isContent])

/-- The visibility groups of a layout are atomic exactly if every top-level group with
members of a visibility group has to be hidden when the other elements with members of
it have to be, and only then. -/
theorem atomic_iff {bar : BarSpec} {available : UInt32} {required : BTreeSet ItemId}
    {layout : ResolvedLayout} (h : resolve bar available required = ok layout) :
    (∀ group, group ≠ "" → Atomic bar layout group) ↔
      ∀ group, group ≠ "" → ∀ (k l : ℕ) (g : GroupSpec) (e : Element),
        bar.elements[k]? = some (.group g) → (Element.group g).Carries group →
        bar.elements[l]? = some e → e.Carries group →
          mustHide bar available required k = mustHide bar available required l := by
  obtain ⟨r⟩ := resolve_eq_ok h
  constructor
  · intro hatomic group hne k l g e hk hcg hl hce
    obtain ⟨i, hi, hig⟩ := hcg
    obtain ⟨j, hj, hjg⟩ := hce
    have hmi : i ∈ bar.items := BarSpec.mem_items_iff.mpr ⟨k, _, hk, hi⟩
    have hmj : j ∈ bar.items := BarSpec.mem_items_iff.mpr ⟨l, e, hl, hj⟩
    have hce : e.isContent = true := Element.Carries.isContent ⟨j, hj, hjg⟩
    rcases hatomic group hne with hall | hall
    · rw [(r.mem_placements_iff hk hi rfl).mp (hall i hmi hig),
        (r.mem_placements_iff hl hj hce).mp (hall j hmj hjg)]
    · rw [(r.mem_hiddenItems_iff hk hi rfl).mp (hall i hmi hig),
        (r.mem_hiddenItems_iff hl hj hce).mp (hall j hmj hjg)]
  · intro hagree group hne
    -- if one member must be hidden, all are; otherwise all are placed
    by_cases hex : ∃ (k : ℕ) (e : Element), bar.elements[k]? = some e ∧ e.Carries group ∧
        mustHide bar available required k = true
    · obtain ⟨k, d, hk, hd, hmust⟩ := hex
      right
      intro i hi hig
      obtain ⟨l, e, hl, hie⟩ := BarSpec.mem_items_iff.mp hi
      have he : e.Carries group := ⟨i, hie, hig⟩
      have hsame := r.mustHide_eq_of_carries (hagree group hne) hk hd hl he
      exact (r.mem_hiddenItems_iff hl hie he.isContent).mpr (hsame ▸ hmust)
    · left
      intro i hi hig
      obtain ⟨l, e, hl, hie⟩ := BarSpec.mem_items_iff.mp hi
      have he : e.Carries group := ⟨i, hie, hig⟩
      refine (r.mem_placements_iff hl hie he.isContent).mpr ?_
      rw [← Bool.not_eq_true]
      exact fun hmust => hex ⟨l, e, hl, he, hmust⟩

/-- A visibility group with a member at the top level and one inside a group. -/
def mixedBar : BarSpec where
  elements := [
    .item { ItemSpec.new "cut" 50 50 50 with
      visibilityPriority := -1000
      visibilityGroup := some "tools" },
    .group ⟨"edit", [.item { ItemSpec.new "copy" 50 50 50 with
      visibilityPriority := -1000
      visibilityGroup := some "tools" }], .natural, 0, 0, 0⟩]
  principalItem := none

/-- The member at the top level is hidden alone. -/
theorem mixedBar_not_atomic :
    resolve mixedBar 50 .empty = ok ⟨[⟨⟨"copy"⟩, 0, 50⟩], [⟨"cut"⟩], 50⟩ ∧
      ¬ Atomic mixedBar ⟨[⟨⟨"copy"⟩, 0, 50⟩], [⟨"cut"⟩], 50⟩ "tools" := by
  refine ⟨by decide, ?_⟩
  rintro (h | h)
  · have := h _ (by simp [mixedBar, BarSpec.items, Element.items]; left; rfl) rfl
    simp [ItemSpec.new] at this
  · have := h { ItemSpec.new "copy" 50 50 50 with
      visibilityPriority := -1000
      visibilityGroup := some "tools" } (by
        simp [mixedBar, BarSpec.items, Element.items, GroupSpec.items_eq]) rfl
    simp [ItemSpec.new] at this

/-- With room for both members the bar is atomic. -/
theorem mixedBar_atomic_iff :
    (∀ group, group ≠ "" →
      Atomic mixedBar ⟨[⟨⟨"cut"⟩, 0, 50⟩, ⟨⟨"copy"⟩, 50, 50⟩], [], 100⟩ group) ↔
      ∀ group, group ≠ "" → ∀ (k l : ℕ) (g : GroupSpec) (e : Element),
        mixedBar.elements[k]? = some (.group g) → (Element.group g).Carries group →
        mixedBar.elements[l]? = some e → e.Carries group →
          mustHide mixedBar 100 .empty k = mustHide mixedBar 100 .empty l :=
  atomic_iff (by decide)

end TouchBar.Layout
