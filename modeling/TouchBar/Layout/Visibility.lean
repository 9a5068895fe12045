import TouchBar.Layout.Fit

/-!
# Visibility units

When the minimum widths do not fit, the resolver hides content.  The unit of
hiding is a top-level group, a top-level item, or all top-level items that share
a visibility group.  `visibilityUnits` builds the units from left to right; the
invariant `UnitsOf` says that they are the classes of the elements under their
`UnitKey`.
-/

namespace TouchBar.Layout

open TouchBar.Rust TouchBar.Lib Outcome

mutual

/-- Whether some item of the group, at any depth, passes the test. -/
def groupAny (test : ItemId → Bool) : GroupSpec → Bool
  | ⟨_, elements, _, _, _, _⟩ => groupElementsAny test elements

def groupElementsAny (test : ItemId → Bool) : List GroupElement → Bool
  | [] => false
  | .item i :: es => test i.id || groupElementsAny test es
  | .group g :: es => groupAny test g || groupElementsAny test es

end

def groupContainsItem (g : GroupSpec) (id : ItemId) : Bool := groupAny (fun i => i = id) g

def groupContainsRequired (g : GroupSpec) (required : BTreeSet ItemId) : Bool :=
  groupAny required.contains g

lemma groupElementsAny_iff {test : ItemId → Bool} {es : List GroupElement}
    (hchild : ∀ g, GroupElement.group g ∈ es →
      (groupAny test g = true ↔ ∃ i ∈ g.items, test i.id = true)) :
    groupElementsAny test es = true ↔ ∃ i ∈ es.flatMap GroupElement.items, test i.id = true := by
  induction es with
  | nil => simp [groupElementsAny]
  | cons e es ih =>
    have ih := ih fun g hg => hchild g (List.mem_cons_of_mem _ hg)
    simp only [List.flatMap_cons, List.mem_append, or_and_right, exists_or]
    cases e with
    | item i => simp [groupElementsAny, ih]
    | group g => simp only [groupElementsAny, Bool.or_eq_true, ih, hchild g List.mem_cons_self,
        GroupElement.items_group]

lemma groupAny_iff (test : ItemId → Bool) (g : GroupSpec) :
    groupAny test g = true ↔ ∃ i ∈ g.items, test i.id = true := by
  induction g using GroupSpec.nested_induction with
  | step g ih =>
    rw [GroupSpec.items_eq]
    obtain ⟨id, elements, layout, spacing, v, c⟩ := g
    rw [groupAny]
    exact groupElementsAny_iff ih

/-! ## Units -/

structure VisibilityUnit where
  group : Option String
  elements : List ℕ
  priority : ℤ
  trailingElement : ℕ
  required : Bool
deriving DecidableEq, Repr

/-- A further item of the same visibility group joins the unit. -/
def VisibilityUnit.join (unit : VisibilityUnit) (index : ℕ) (required : Bool) : VisibilityUnit :=
  { unit with
    elements := unit.elements ++ [index]
    trailingElement := index
    required := unit.required || required }

def itemUnit (index : ℕ) (i : ItemSpec) (required : Bool) : VisibilityUnit :=
  ⟨i.visibilityGroup, [index], i.visibilityPriority, index, required⟩

def groupUnit (index : ℕ) (g : GroupSpec) (required : Bool) : VisibilityUnit :=
  ⟨none, [index], g.visibilityPriority, index, required⟩

/-- Find the first unit of the visibility group and let the item join it; without such
a unit the item starts one at the end. -/
def joinUnits (group : String) (index : ℕ) (i : ItemSpec) (required : Bool) :
    List VisibilityUnit → Outcome LayoutError (List VisibilityUnit)
  | [] => ok [itemUnit index i required]
  | unit :: units =>
    if unit.group = some group then
      if unit.priority ≠ i.visibilityPriority then
        err (.inconsistentVisibilityGroup group)
      else
        ok (unit.join index required :: units)
    else do
      let units ← joinUnits group index i required units
      return unit :: units

/-- The body of the loop of `visibility_units`. -/
def addElement (required : BTreeSet ItemId) (index : ℕ) (units : List VisibilityUnit) :
    Element → Outcome LayoutError (List VisibilityUnit)
  | .item i =>
    match i.visibilityGroup with
    | some group => joinUnits group index i (required.contains i.id) units
    | none => ok (units ++ [itemUnit index i (required.contains i.id)])
  | .group g => ok (units ++ [groupUnit index g (groupContainsRequired g required)])
  | .fixedSpace _ => ok units
  | .flexibleSpace _ _ => ok units

/-- The loop of `visibility_units` from the given index on. -/
def addElements (required : BTreeSet ItemId) :
    ℕ → List Element → List VisibilityUnit → Outcome LayoutError (List VisibilityUnit)
  | _, [], units => ok units
  | index, e :: es, units => do
    let units ← addElement required index units e
    addElements required (index + 1) es units

def visibilityUnits (bar : BarSpec) (required : BTreeSet ItemId) :
    Outcome LayoutError (List VisibilityUnit) :=
  addElements required 0 bar.elements []

/-- The order in which units are hidden: ascending priority, and among equals the one
that ends further right first. -/
def HidesBefore (l r : VisibilityUnit) : Prop :=
  l.priority < r.priority ∨
    (l.priority = r.priority ∧ r.trailingElement ≤ l.trailingElement)

instance : DecidableRel HidesBefore := fun _ _ => by
  unfold HidesBefore
  infer_instance

/-! ## Units as classes of elements -/

/-- What decides which elements are hidden together. -/
inductive UnitKey where
  /-- The top-level items of a visibility group. -/
  | named (group : String)
  /-- One top-level element on its own. -/
  | single (index : ℕ)
deriving DecidableEq, Repr

/-- The key of an element at an index; spaces are never hidden. -/
def Element.unitKey (e : Element) (index : ℕ) : Option UnitKey :=
  match e with
  | .item i => some (match i.visibilityGroup with
    | some name => .named name
    | none => .single index)
  | .group _ => some (.single index)
  | .fixedSpace _ => none
  | .flexibleSpace _ _ => none

/-- The priority with which content is hidden. -/
def Element.visibilityPriority : Element → Option ℤ
  | .item i => some i.visibilityPriority
  | .group g => some g.visibilityPriority
  | .fixedSpace _ => none
  | .flexibleSpace _ _ => none

def keyAt (es : List Element) (k : ℕ) : Option UnitKey := es[k]?.bind fun e => e.unitKey k

/-- The elements with the given key, from left to right. -/
def membersOf (es : List Element) (key : UnitKey) : List ℕ :=
  (List.range es.length).filter fun k => keyAt es k = some key

/-- An element shows an item of the set. -/
def Element.HoldsAny (e : Element) (required : BTreeSet ItemId) : Prop :=
  ∃ i ∈ e.items, i.id ∈ required

def VisibilityUnit.key (unit : VisibilityUnit) : UnitKey :=
  match unit.group with
  | some group => .named group
  | none => .single unit.trailingElement

/-- The unit is the class of its key among the elements. -/
structure UnitOf (required : BTreeSet ItemId) (es : List Element) (unit : VisibilityUnit) :
    Prop where
  elements_eq : unit.elements = membersOf es unit.key
  last_eq : unit.elements.getLast? = some unit.trailingElement
  priority_eq : ∀ k ∈ unit.elements, ∀ e, es[k]? = some e →
    e.visibilityPriority = some unit.priority
  required_iff : unit.required = true ↔
    ∃ k ∈ unit.elements, ∃ e, es[k]? = some e ∧ e.HoldsAny required

/-- The units are the classes of all keys, each once. -/
structure UnitsOf (required : BTreeSet ItemId) (es : List Element) (units : List VisibilityUnit) :
    Prop where
  unit : ∀ u ∈ units, UnitOf required es u
  keys_nodup : (units.map VisibilityUnit.key).Nodup
  complete : ∀ k key, keyAt es k = some key → ∃ u ∈ units, u.key = key

lemma lt_length_of_keyAt {es : List Element} {k : ℕ} {key : UnitKey}
    (h : keyAt es k = some key) : k < es.length := by
  obtain ⟨e, he, -⟩ := Option.bind_eq_some_iff.mp h
  exact (List.getElem?_eq_some_iff.mp he).1

@[simp] lemma mem_membersOf {es : List Element} {key : UnitKey} {k : ℕ} :
    k ∈ membersOf es key ↔ keyAt es k = some key := by
  simp only [membersOf, List.mem_filter, List.mem_range, decide_eq_true_eq, and_iff_right_iff_imp]
  exact lt_length_of_keyAt

/-! ### One more element -/

section Snoc

variable {required : BTreeSet ItemId} {es : List Element} {e : Element} {u : VisibilityUnit}

lemma keyAt_append_left {k : ℕ} (hk : k < es.length) : keyAt (es ++ [e]) k = keyAt es k := by
  rw [keyAt, keyAt, List.getElem?_append_left hk]

@[simp] lemma keyAt_append_length : keyAt (es ++ [e]) es.length = e.unitKey es.length := by
  simp [keyAt]

lemma membersOf_append (key : UnitKey) :
    membersOf (es ++ [e]) key =
      membersOf es key ++ (if e.unitKey es.length = some key then [es.length] else []) := by
  have hleft : (List.range es.length).filter (fun k => keyAt (es ++ [e]) k = some key) =
      membersOf es key := by
    apply List.filter_congr
    intro k hk
    rw [keyAt_append_left (List.mem_range.mp hk)]
  rw [membersOf, List.length_append, List.length_singleton, List.range_succ, List.filter_append,
    hleft]
  split_ifs with h <;> simp [h]

lemma UnitOf.lt_length (h : UnitOf required es u) {k : ℕ} (hk : k ∈ u.elements) :
    k < es.length := by
  rw [h.elements_eq, mem_membersOf] at hk
  exact lt_length_of_keyAt hk

/-- An element of another class leaves the unit as it is. -/
lemma UnitOf.append_other (h : UnitOf required es u) (hkey : e.unitKey es.length ≠ some u.key) :
    UnitOf required (es ++ [e]) u where
  elements_eq := by rw [membersOf_append, if_neg hkey, List.append_nil, h.elements_eq]
  last_eq := h.last_eq
  priority_eq k hk e' he' := by
    rw [List.getElem?_append_left (h.lt_length hk)] at he'
    exact h.priority_eq k hk e' he'
  required_iff := by
    rw [h.required_iff]
    refine exists_congr fun k => and_congr_right fun hk => ?_
    rw [List.getElem?_append_left (h.lt_length hk)]

/-- A further item of the visibility group of the unit. -/
lemma UnitOf.append_join (h : UnitOf required es u) {i : ItemSpec} {group : String}
    (hi : i.visibilityGroup = some group) (hu : u.group = some group)
    (hp : u.priority = i.visibilityPriority) :
    UnitOf required (es ++ [.item i]) (u.join es.length (required.contains i.id)) where
  elements_eq := by
    have hkey : (u.join es.length (required.contains i.id)).key = .named group := by
      simp [VisibilityUnit.key, VisibilityUnit.join, hu]
    have hkey' : u.key = .named group := by simp [VisibilityUnit.key, hu]
    rw [hkey, membersOf_append, if_pos (by simp [Element.unitKey, hi]), ← hkey', ← h.elements_eq]
    rfl
  last_eq := by simp [VisibilityUnit.join]
  priority_eq k hk e' he' := by
    rcases List.mem_append.mp hk with hk | hk
    · rw [List.getElem?_append_left (h.lt_length hk)] at he'
      exact h.priority_eq k hk e' he'
    · obtain rfl := List.mem_singleton.mp hk
      obtain rfl : Element.item i = e' := by simpa using he'
      simp [Element.visibilityPriority, VisibilityUnit.join, hp]
  required_iff := by
    have hold : (∃ k ∈ u.elements, ∃ e, (es ++ [.item i])[k]? = some e ∧ e.HoldsAny required) ↔
        u.required = true := by
      rw [h.required_iff]
      refine exists_congr fun k => and_congr_right fun hk => ?_
      rw [List.getElem?_append_left (h.lt_length hk)]
    simp only [VisibilityUnit.join, Bool.or_eq_true, List.mem_append, or_and_right, exists_or, hold]
    simp [Element.HoldsAny, Element.items]

/-- An element whose class is empty so far starts a unit. -/
lemma UnitOf.append_new (hkey : e.unitKey es.length = some u.key) (hels : u.elements = [es.length])
    (hlast : u.trailingElement = es.length) (hp : e.visibilityPriority = some u.priority)
    (hreq : u.required = true ↔ e.HoldsAny required) (hfresh : membersOf es u.key = []) :
    UnitOf required (es ++ [e]) u where
  elements_eq := by rw [membersOf_append, hfresh, if_pos hkey, hels, List.nil_append]
  last_eq := by rw [hels, hlast, List.getLast?_singleton]
  priority_eq k hk e' he' := by
    rw [hels, List.mem_singleton] at hk
    subst hk
    obtain rfl : e = e' := by simpa using he'
    exact hp
  required_iff := by simp [hels, hreq]

variable {units units' : List VisibilityUnit}

lemma UnitOf.trailing_mem (h : UnitOf required es u) : u.trailingElement ∈ u.elements :=
  List.mem_of_getLast? h.last_eq

/-- A class without a unit has no member yet. -/
lemma UnitsOf.membersOf_eq_nil (h : UnitsOf required es units) {key : UnitKey}
    (hkey : key ∉ units.map VisibilityUnit.key) : membersOf es key = [] := by
  rw [List.eq_nil_iff_forall_not_mem]
  intro k hk
  obtain ⟨v, hv, hvk⟩ := h.complete k key (mem_membersOf.mp hk)
  exact hkey (List.mem_map.mpr ⟨v, hv, hvk⟩)

/-- The next index is the key of no unit. -/
lemma UnitsOf.single_length_notMem (h : UnitsOf required es units) :
    UnitKey.single es.length ∉ units.map VisibilityUnit.key := by
  intro hmem
  obtain ⟨v, hv, hkey⟩ := List.mem_map.mp hmem
  have hlt := (h.unit v hv).lt_length (h.unit v hv).trailing_mem
  rw [VisibilityUnit.key] at hkey
  split at hkey
  · cases hkey
  · rw [UnitKey.single.injEq] at hkey
    omega

lemma UnitsOf.complete_append (hold : ∀ k key, keyAt es k = some key → ∃ v ∈ units, v.key = key)
    (hnew : ∀ key, e.unitKey es.length = some key → ∃ v ∈ units, v.key = key) (k : ℕ)
    (key : UnitKey) (hk : keyAt (es ++ [e]) k = some key) : ∃ v ∈ units, v.key = key := by
  have hlt := lt_length_of_keyAt hk
  rw [List.length_append, List.length_singleton] at hlt
  rcases Nat.lt_succ_iff_lt_or_eq.mp hlt with hlt | rfl
  · exact hold k key (by rwa [keyAt_append_left hlt] at hk)
  · exact hnew key (by simpa using hk)

lemma UnitsOf.append_space (h : UnitsOf required es units) (he : e.unitKey es.length = none) :
    UnitsOf required (es ++ [e]) units where
  unit v hv := (h.unit v hv).append_other (by simp [he])
  keys_nodup := h.keys_nodup
  complete := UnitsOf.complete_append h.complete (by simp [he])

lemma UnitsOf.append_new (h : UnitsOf required es units) (hu : UnitOf required (es ++ [e]) u)
    (hkey : e.unitKey es.length = some u.key) (hfresh : u.key ∉ units.map VisibilityUnit.key) :
    UnitsOf required (es ++ [e]) (units ++ [u]) where
  unit v hv := by
    rcases List.mem_append.mp hv with hv | hv
    · refine (h.unit v hv).append_other fun heq => hfresh ?_
      rw [hkey, Option.some.injEq] at heq
      exact List.mem_map.mpr ⟨v, hv, heq.symm⟩
    · obtain rfl := List.mem_singleton.mp hv
      exact hu
  keys_nodup := by
    rw [List.map_append, List.nodup_append]
    refine ⟨h.keys_nodup, by simp, ?_⟩
    rintro a ha b hb rfl
    obtain rfl : a = u.key := by simpa using hb
    exact hfresh ha
  complete := by
    refine UnitsOf.complete_append (fun k key hk => ?_) fun key hk => ?_
    · obtain ⟨v, hv, hvk⟩ := h.complete k key hk
      exact ⟨v, List.mem_append_left _ hv, hvk⟩
    · rw [hkey, Option.some.injEq] at hk
      exact ⟨u, by simp, hk⟩

/-- The two ways an item with a visibility group is taken in. -/
lemma joinUnits_eq_ok {group : String} {index : ℕ} {i : ItemSpec} {r : Bool}
    (h : joinUnits group index i r units = ok units') :
    (∃ pre v post, units = pre ++ v :: post ∧ v.group = some group ∧
      v.priority = i.visibilityPriority ∧ units' = pre ++ v.join index r :: post) ∨
    ((∀ v ∈ units, v.group ≠ some group) ∧ units' = units ++ [itemUnit index i r]) := by
  induction units generalizing units' with
  | nil =>
    obtain rfl := Outcome.ok.inj h
    exact .inr ⟨by simp, rfl⟩
  | cons v units ih =>
    rw [joinUnits] at h
    split_ifs at h with hg hp
    · obtain rfl := Outcome.ok.inj h
      exact .inl ⟨[], v, units, rfl, hg, not_not.mp hp, rfl⟩
    · simp only [bind_eq_ok, pure_eq, ok.injEq] at h
      obtain ⟨us, hus, rfl⟩ := h
      rcases ih hus with ⟨pre, w, post, rfl, hw, hwp, rfl⟩ | ⟨hno, rfl⟩
      · exact .inl ⟨v :: pre, w, post, rfl, hw, hwp, rfl⟩
      · exact .inr ⟨by simpa [hg] using hno, rfl⟩

lemma key_join (hu : u.group ≠ none) (index : ℕ) (r : Bool) : (u.join index r).key = u.key := by
  obtain ⟨group, hg⟩ := Option.ne_none_iff_exists'.mp hu
  simp [VisibilityUnit.key, VisibilityUnit.join, hg]

lemma UnitsOf.append_join {pre post : List VisibilityUnit} {i : ItemSpec} {group : String}
    (h : UnitsOf required es (pre ++ u :: post)) (hi : i.visibilityGroup = some group)
    (hu : u.group = some group) (hp : u.priority = i.visibilityPriority) :
    UnitsOf required (es ++ [.item i])
      (pre ++ u.join es.length (required.contains i.id) :: post) := by
  have hkeys : (pre ++ u.join es.length (required.contains i.id) :: post).map VisibilityUnit.key =
      (pre ++ u :: post).map VisibilityUnit.key := by
    simp [key_join (u := u) (by simp [hu])]
  have hukey : u.key = .named group := by simp [VisibilityUnit.key, hu]
  -- keys are distinct, so that no other unit has the name
  have hother : ∀ v ∈ pre ++ post, v.key ≠ .named group := by
    intro v hv hvk
    have hnd := h.keys_nodup
    rw [List.map_append, List.map_cons, List.nodup_middle, List.nodup_cons, ← List.map_append,
      hukey] at hnd
    exact hnd.1 (List.mem_map.mpr ⟨v, hv, hvk⟩)
  have hmem : ∀ v, v ∈ pre ++ post → v ∈ pre ++ u :: post := by
    intro v hv
    rw [List.mem_append, List.mem_cons]
    rcases List.mem_append.mp hv with hv | hv <;> simp [hv]
  refine ⟨fun v hv => ?_, hkeys ▸ h.keys_nodup, ?_⟩
  · have hv' : v = u.join es.length (required.contains i.id) ∨ v ∈ pre ++ post := by
      rw [List.mem_append, List.mem_cons] at hv
      rw [List.mem_append]
      tauto
    rcases hv' with rfl | hv'
    · exact (h.unit u (by simp)).append_join hi hu hp
    · refine (h.unit v (hmem v hv')).append_other ?_
      simpa [Element.unitKey, hi] using (hother v hv').symm
  · -- every key that has a unit keeps one
    have hexists : ∀ key, (∃ v ∈ pre ++ u :: post, v.key = key) →
        ∃ v ∈ pre ++ u.join es.length (required.contains i.id) :: post, v.key = key := by
      intro key hv
      simpa only [← List.mem_map, hkeys] using hv
    refine UnitsOf.complete_append (fun k key hk => hexists key (h.complete k key hk)) ?_
    intro key hk
    simp only [Element.unitKey, hi, Option.some.injEq] at hk
    exact hexists key ⟨u, by simp, by rw [hukey, hk]⟩

lemma holdsAny_item {i : ItemSpec} :
    required.contains i.id = true ↔ (Element.item i).HoldsAny required := by
  simp [Element.HoldsAny, Element.items]

lemma holdsAny_group {g : GroupSpec} :
    groupContainsRequired g required = true ↔ (Element.group g).HoldsAny required := by
  simp [groupContainsRequired, groupAny_iff, Element.HoldsAny, Element.items]

/-- One iteration keeps the invariant. -/
lemma addElement_unitsOf (h : UnitsOf required es units)
    (hadd : addElement required es.length units e = ok units') :
    UnitsOf required (es ++ [e]) units' := by
  cases e with
  | item i =>
    cases hi : i.visibilityGroup with
    | none =>
      -- a unit of its own
      simp only [addElement, hi, ok.injEq] at hadd
      subst hadd
      have hkey : (itemUnit es.length i (required.contains i.id)).key = .single es.length := by
        simp [VisibilityUnit.key, itemUnit, hi]
      refine h.append_new (.append_new ?_ rfl rfl rfl holdsAny_item ?_) ?_ ?_
      · simp [Element.unitKey, hi, hkey]
      · exact h.membersOf_eq_nil (hkey ▸ h.single_length_notMem)
      · simp [Element.unitKey, hi, hkey]
      · exact hkey ▸ h.single_length_notMem
    | some group =>
      simp only [addElement, hi] at hadd
      rcases joinUnits_eq_ok hadd with ⟨pre, v, post, rfl, hv, hp, rfl⟩ | ⟨hno, rfl⟩
      · exact h.append_join hi hv hp
      · -- the first element with this name
        have hkey : (itemUnit es.length i (required.contains i.id)).key = .named group := by
          simp [VisibilityUnit.key, itemUnit, hi]
        have hfresh : UnitKey.named group ∉ units.map VisibilityUnit.key := by
          intro hmem
          obtain ⟨v, hv, hvk⟩ := List.mem_map.mp hmem
          rw [VisibilityUnit.key] at hvk
          split at hvk
          · cases hvk
            exact hno v hv ‹_›
          · cases hvk
        refine h.append_new (.append_new ?_ rfl rfl rfl holdsAny_item ?_) ?_ ?_
        · simp [Element.unitKey, hi, hkey]
        · exact h.membersOf_eq_nil (hkey ▸ hfresh)
        · simp [Element.unitKey, hi, hkey]
        · exact hkey ▸ hfresh
  | group g =>
    obtain rfl := Outcome.ok.inj hadd
    exact h.append_new (.append_new rfl rfl rfl rfl holdsAny_group
      (h.membersOf_eq_nil h.single_length_notMem)) rfl h.single_length_notMem
  | fixedSpace w =>
    obtain rfl := Outcome.ok.inj hadd
    exact h.append_space rfl
  | flexibleSpace m w =>
    obtain rfl := Outcome.ok.inj hadd
    exact h.append_space rfl

end Snoc

lemma addElements_unitsOf {required : BTreeSet ItemId} {es rest : List Element} :
    ∀ {units units' : List VisibilityUnit}, UnitsOf required es units →
      addElements required es.length rest units = ok units' →
        UnitsOf required (es ++ rest) units' := by
  induction rest generalizing es with
  | nil =>
    intro units units' h hadd
    obtain rfl := Outcome.ok.inj hadd
    rwa [List.append_nil]
  | cons e rest ih =>
    intro units units' h hadd
    simp only [addElements, bind_eq_ok] at hadd
    obtain ⟨us, hus, hadd⟩ := hadd
    have hstep := addElement_unitsOf h hus
    have hlen : es.length + 1 = (es ++ [e]).length := by simp
    rw [hlen] at hadd
    have hrun := ih hstep hadd
    rwa [List.append_assoc] at hrun

/-- The units of a bar are the classes of its content. -/
theorem visibilityUnits_unitsOf {bar : BarSpec} {required : BTreeSet ItemId}
    {units : List VisibilityUnit} (h : visibilityUnits bar required = ok units) :
    UnitsOf required bar.elements units := by
  have hinit : UnitsOf required [] [] := ⟨by simp, by simp, by simp [keyAt]⟩
  exact addElements_unitsOf hinit h

end TouchBar.Layout
