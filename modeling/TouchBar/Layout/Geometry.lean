import TouchBar.Layout.Resolve

/-!
# Geometry of a resolved layout

The main result says what a layout that `resolve` returns looks like: every item
of the bar is placed or hidden, the placements stand in document order, do not
overlap and lie inside the bar, each with a width its item accepts, and no
required item is hidden.
-/

namespace TouchBar.Layout

open TouchBar.Rust TouchBar.Lib Outcome

/-! ## Collected identifiers -/

lemma collectGroupElementIds_eq {es : List GroupElement}
    (hchild : ∀ g, GroupElement.group g ∈ es → collectGroupItemIds g = g.items.map ItemSpec.id) :
    collectGroupElementIds es = (es.flatMap GroupElement.items).map ItemSpec.id := by
  induction es with
  | nil => simp [collectGroupElementIds]
  | cons e es ih =>
    have ih := ih fun g hg => hchild g (List.mem_cons_of_mem _ hg)
    rw [List.flatMap_cons, List.map_append, ← ih]
    cases e with
    | item i => simp [collectGroupElementIds]
    | group g => rw [collectGroupElementIds, hchild g List.mem_cons_self, GroupElement.items_group]

lemma collectGroupItemIds_eq (g : GroupSpec) :
    collectGroupItemIds g = g.items.map ItemSpec.id := by
  induction g using GroupSpec.nested_induction with
  | step g ih =>
    rw [GroupSpec.items_eq]
    obtain ⟨id, elements, layout, spacing, v, c⟩ := g
    rw [collectGroupItemIds]
    exact collectGroupElementIds_eq ih

lemma collectItemIds_eq (e : Element) : collectItemIds e = e.items.map ItemSpec.id := by
  cases e with
  | item i => rfl
  | group g => exact collectGroupItemIds_eq g
  | fixedSpace w => rfl
  | flexibleSpace m w => rfl

/-! ## Items by visibility -/

/-- The items of the elements with the given visibility, in document order. -/
def itemsWhere (shown : Bool) : List Element → List Bool → List ItemSpec
  | e :: es, v :: vs =>
    (if v = shown then e.items else []) ++ itemsWhere shown es vs
  | _, _ => []

section ItemsWhere

variable {es : List Element} {vs : List Bool}

lemma mem_itemsWhere {shown : Bool} {i : ItemSpec} :
    i ∈ itemsWhere shown es vs ↔ ∃ (k : ℕ) (e : Element),
      es[k]? = some e ∧ vs[k]? = some shown ∧ i ∈ e.items := by
  induction es generalizing vs with
  | nil => simp [itemsWhere]
  | cons e es ih =>
    rcases vs with _ | ⟨v, vs⟩
    · simp [itemsWhere]
    rw [itemsWhere, List.mem_append, ih]
    constructor
    · rintro (h | ⟨k, e', he, hv, hi⟩)
      · split_ifs at h with hs
        · exact ⟨0, e, rfl, by simp [hs], h⟩
        · simp at h
      · exact ⟨k + 1, e', he, hv, hi⟩
    · rintro ⟨k, e', he, hv, hi⟩
      cases k with
      | zero =>
        simp only [List.getElem?_cons_zero, Option.some.injEq] at he hv
        subst he hv
        exact .inl (by simpa using hi)
      | succ k => exact .inr ⟨k, e', he, hv, hi⟩

lemma itemsWhere_sublist (shown : Bool) :
    (itemsWhere shown es vs).Sublist (es.flatMap Element.items) := by
  induction es generalizing vs with
  | nil => simp [itemsWhere]
  | cons e es ih =>
    rcases vs with _ | ⟨v, vs⟩
    · simp [itemsWhere]
    rw [itemsWhere, List.flatMap_cons]
    refine List.Sublist.append ?_ ih
    split_ifs
    · exact List.Sublist.refl _
    · exact List.nil_sublist _

/-- Every item is in exactly one of the two lists. -/
lemma itemsWhere_perm (hlen : vs.length = es.length) :
    (itemsWhere true es vs ++ itemsWhere false es vs).Perm (es.flatMap Element.items) := by
  induction es generalizing vs with
  | nil => simp [itemsWhere]
  | cons e es ih =>
    rcases vs with _ | ⟨v, vs⟩
    · simp at hlen
    have ih := @ih vs (by simpa using hlen)
    rw [itemsWhere, itemsWhere, List.flatMap_cons]
    cases v with
    | true => simpa using ih.append_left e.items
    | false =>
      simp only [Bool.false_eq_true, if_false, List.nil_append, if_true]
      refine List.Perm.trans ?_ (ih.append_left e.items)
      rw [← List.append_assoc, ← List.append_assoc]
      exact List.perm_append_comm.append_right _

end ItemsWhere

/-! ## The final loop -/

/-- The principal position is not left of what stands before it. -/
def JumpsForward (principalX : Option (ℕ × ℕ)) (index x : ℕ) (widths : List ℕ) : Prop :=
  ∀ p px, principalX = some (p, px) → index ≤ p → p < index + widths.length →
    x + (widths.take (p - index)).sum ≤ px

section Place

variable {px : Option (ℕ × ℕ)} {index x w : ℕ} {ws : List ℕ}

lemma JumpsForward.le_jump (h : JumpsForward px index x (w :: ws)) : x ≤ jump px index x := by
  rcases px with _ | ⟨p, q⟩
  · exact le_rfl
  · simp only [jump]
    split_ifs with hp
    · have := h p q rfl (by omega) (by simp; omega)
      omega
    · exact le_rfl

lemma JumpsForward.tail (h : JumpsForward px index x (w :: ws)) :
    JumpsForward px (index + 1) (jump px index x + w) ws := by
  rintro p q rfl hle hlt
  have hne : p ≠ index := by omega
  have hpi : p - index = p - (index + 1) + 1 := by omega
  have := h p q rfl (by omega) (by simp; omega)
  rw [hpi, List.take_succ_cons, List.sum_cons] at this
  simp only [jump, if_neg hne]
  omega

/-- One round of the loop: the element at the front, and the elements after it. -/
lemma placeElements_cons {e : Element} {es : List Element} {vs : List Bool} {ps : List Placement}
    {hs : List ItemId} {r : ℕ} (h : placeElements px index (e :: es) vs ws x = some (ps, hs, r))
    (hvs : vs.length = es.length + 1) (hws : ws.length = es.length + 1) :
    ∃ v vs' w ws' here ps' hs', vs = v :: vs' ∧ ws = w :: ws' ∧ vs'.length = es.length ∧
      ws'.length = es.length ∧ layoutShown e v (jump px index x) w = some here ∧
      placeElements px (index + 1) es vs' ws' (jump px index x + w) = some (ps', hs', r) ∧
      ps = here ++ ps' ∧ hs = (if v then [] else collectItemIds e) ++ hs' := by
  rcases vs with _ | ⟨v, vs⟩
  · simp at hvs
  rcases ws with _ | ⟨w, ws⟩
  · simp at hws
  rw [placeElements] at h
  simp only [bind, Option.bind_eq_some_iff, U64.add_eq_some, Prod.exists, pure,
    Option.some.injEq, Prod.mk.injEq] at h
  obtain ⟨here, hhere, _, ⟨-, rfl⟩, ps', hs', r', hrest, rfl, rfl, rfl⟩ := h
  exact ⟨v, vs, w, ws, here, ps', hs', rfl, rfl, by simpa using hvs, by simpa using hws, hhere,
    hrest, rfl, rfl⟩

/-- What the loop makes of the elements from some index on. -/
lemma placeElements_spec {es : List Element} {vs : List Bool} {ps : List Placement}
    {hs : List ItemId} {r : ℕ} (h : placeElements px index es vs ws x = some (ps, hs, r))
    (hvs : vs.length = es.length) (hws : ws.length = es.length)
    (hplace : ∀ (k : ℕ) e w, es[k]? = some e → vs[k]? = some true → ws[k]? = some w →
      ∀ {x ps}, layoutElement e x w = some ps → LaidOut e.items x w ps)
    (hjump : JumpsForward px index x ws) :
    Row Placement.left Placement.right x r ps ∧ x ≤ r ∧
      List.Forall₂ Places (itemsWhere true es vs) ps ∧
      hs = (itemsWhere false es vs).map ItemSpec.id := by
  induction es generalizing index x vs ws ps hs r with
  | nil =>
    rw [placeElements.eq_def] at h
    obtain ⟨rfl, rfl, rfl⟩ : [] = ps ∧ [] = hs ∧ x = r := by simpa using h
    exact ⟨.nil, le_rfl, by simp [itemsWhere], by simp [itemsWhere]⟩
  | cons e es ih =>
    obtain ⟨v, vs, w, ws, here, ps', hs', rfl, rfl, hvs, hws, hhere, hrest, rfl, rfl⟩ :=
      placeElements_cons h hvs hws
    obtain ⟨hrow, hle, hpl, hhid⟩ := ih hrest hvs hws
      (fun k e w he hv hw => hplace (k + 1) e w he hv hw) hjump.tail
    have hx := hjump.le_jump
    rw [itemsWhere, itemsWhere, List.map_append, ← hhid]
    cases v with
    | true =>
      simp only [layoutShown, if_true] at hhere
      have hlaid := hplace 0 e w rfl rfl rfl hhere
      refine ⟨hlaid.row.mono hx le_rfl |>.append hrow le_rfl (by omega) hle, by omega, ?_, by simp⟩
      simpa using List.rel_append hlaid.places hpl
    | false =>
      obtain rfl : [] = here := by simpa [layoutShown] using hhere
      refine ⟨by simpa using hrow.mono (by omega) le_rfl, by omega, by simpa using hpl, ?_⟩
      simp [collectItemIds_eq]

/-- The right edge without a principal element ahead. -/
lemma placeElements_right_of_no_jump {es : List Element} {vs : List Bool} {ps : List Placement}
    {hs : List ItemId} {r : ℕ} (h : placeElements px index es vs ws x = some (ps, hs, r))
    (hvs : vs.length = es.length) (hws : ws.length = es.length)
    (hno : ∀ p q, px = some (p, q) → p < index) : r = x + ws.sum := by
  induction es generalizing index x vs ws ps hs r with
  | nil =>
    obtain rfl : ws = [] := List.length_eq_zero_iff.mp hws
    rw [placeElements.eq_def] at h
    obtain ⟨-, -, rfl⟩ : [] = ps ∧ [] = hs ∧ x = r := by simpa using h
    simp
  | cons e es ih =>
    obtain ⟨v, vs, w, ws, _, _, _, rfl, rfl, hvs, hws, -, hrest, -, -⟩ :=
      placeElements_cons h hvs hws
    have hj : jump px index x = x := by
      rcases px with _ | ⟨p, q⟩
      · rfl
      · have := hno p q rfl
        exact if_neg (by omega)
    have := ih hrest hvs hws
      fun p q hpq => Nat.lt_succ_of_lt (hno p q hpq)
    rw [this, hj, List.sum_cons]
    omega

/-- The right edge with a principal element ahead: its position and what follows. -/
lemma placeElements_right_of_jump {es : List Element} {vs : List Bool} {ps : List Placement}
    {hs : List ItemId} {r p q : ℕ}
    (h : placeElements (some (p, q)) index es vs ws x = some (ps, hs, r))
    (hvs : vs.length = es.length) (hws : ws.length = es.length) (hp : index ≤ p)
    (hp' : p < index + es.length) : r = q + (ws.drop (p - index)).sum := by
  induction es generalizing index x vs ws ps hs r with
  | nil =>
    simp only [List.length_nil] at hp'
    omega
  | cons e es ih =>
    obtain ⟨v, vs, w, ws, _, _, _, rfl, rfl, hvs, hws, -, hrest, -, -⟩ :=
      placeElements_cons h hvs hws
    rcases Nat.eq_or_lt_of_le hp with rfl | hlt
    · -- the principal element: the loop jumps to its position, and only here
      have := placeElements_right_of_no_jump hrest hvs hws (by simp)
      rw [this, jump, if_pos rfl, Nat.sub_self, List.drop_zero, List.sum_cons]
      omega
    · have := ih hrest hvs hws hlt
        (by simp only [List.length_cons] at hp'; omega)
      rw [this, show p - index = p - (index + 1) + 1 by omega, List.drop_succ_cons]

end Place

/-! ## Facts about a run -/

lemma layoutElement_laidOut {e : Element} {s : Sizing} {x w : ℕ} {ps : List Placement}
    (hs : elementSizing e = ok s) (hc : e.isContent = true) (hitems : ∀ i ∈ e.items, i.WF)
    (h : layoutElement e x w = some ps) (hmin : s.minimum ≤ w) (hmax : w ≤ s.maximum) :
    LaidOut e.items x w ps := by
  cases e with
  | item i =>
    obtain rfl : itemSizing i = s := by simpa [elementSizing] using hs
    simp only [layoutElement, bind, Option.bind_eq_some_iff, pure, Option.some.injEq] at h
    obtain ⟨p, hp, rfl⟩ := h
    exact laidOut_item hp hmin hmax
  | group g => exact layoutGroup_laidOut g hs hitems h hmin hmax
  | fixedSpace w' => simp [Element.isContent] at hc
  | flexibleSpace m w' => simp [Element.isContent] at hc

lemma contentOnly_map_isContent (es : List Element) :
    ContentOnly es (es.map Element.isContent) := by
  intro k hk
  rw [List.getElem?_map, Option.map_eq_some_iff] at hk
  exact hk

/-- Hiding removes units without required items from the initial row, and the running
total is the demand of what is left. -/
lemma hideToFit_eq_some {es : List Element} {ss : List Sizing} {available : ℕ}
    {units : List VisibilityUnit} {vs vs' : List Bool} {t t' : ℕ}
    (h : hideToFit ss available units vs t = some (vs', t')) (hc : ContentOnly es vs)
    (ht : t = demand es ss vs) :
    ∃ hidden : List VisibilityUnit, (∀ u ∈ hidden, u ∈ units ∧ u.required = false) ∧
      vs' = hide (hidden.flatMap VisibilityUnit.elements) vs ∧ t' = demand es ss vs' := by
  rw [hideToFit] at h
  split_ifs at h with hlt
  · obtain ⟨pre, post, hsplit, hvs, ht', -, -⟩ := hideLoop_eq_some h hc ht hlt
    refine ⟨pre, fun u hu => ?_, hvs, ht'⟩
    have hmem : u ∈ (units.insertionSort HidesBefore).filter fun unit => !unit.required := by
      rw [hsplit]
      exact List.mem_append_left _ hu
    rw [List.mem_filter, List.mem_insertionSort] at hmem
    exact ⟨hmem.1, by simpa using hmem.2⟩
  · obtain ⟨rfl, rfl⟩ := Prod.mk.inj (Option.some.inj h)
    exact ⟨[], by simp, rfl, ht⟩

lemma take_eq_take_of_getElem? {w w' : List ℕ} {n : ℕ} (h : ∀ k < n, w'[k]? = w[k]?) :
    w'.take n = w.take n := by
  apply List.ext_getElem?
  intro k
  rw [List.getElem?_take, List.getElem?_take]
  split_ifs with hk
  · exact h k hk
  · rfl

lemma drop_eq_drop_of_getElem? {w w' : List ℕ} {n : ℕ} (h : ∀ k, n ≤ k → w'[k]? = w[k]?) :
    w'.drop n = w.drop n := by
  apply List.ext_getElem?
  intro k
  rw [List.getElem?_drop, List.getElem?_drop]
  exact h _ (by omega)

/-- Around the principal element both sides stay within the room they are given. -/
lemma centerPrincipal_spec {bar : BarSpec} {base ws : List ℕ} {available p offset width x : ℕ}
    (h : centerPrincipal bar base available p offset width = some (ws, x)) :
    ws.length = base.length ∧ p < base.length ∧ (ws.take p).sum ≤ x ∧
      x + (ws.drop p).sum ≤ available ∧
      ∀ (k : ℕ) e, bar.elements[k]? = some e → e.isContent = true → ws[k]? = base[k]? := by
  simp only [centerPrincipal, bind, Option.bind_eq_some_iff, U64.sum_eq_some, U64.sub_eq_some,
    U64.clamp_eq_some, pure, Option.some.injEq, Prod.mk.injEq] at h
  obtain ⟨_, ⟨-, rfl⟩, _, ⟨-, rfl⟩, _, ⟨-, rfl⟩, pw, hpw, _, ⟨-, rfl⟩, _, ⟨-, rfl⟩, _, ⟨-, rfl⟩,
    _, ⟨hleft, rfl⟩, w₁, h₁, _, ⟨hx, rfl⟩, _, ⟨hwidth, rfl⟩, _, ⟨hafter, rfl⟩, w₂, h₂, rfl,
    rfl⟩ := h
  obtain ⟨hlen₁, hsum₁, hout₁, hcont₁⟩ := distributeFlexibleSpace_spec h₁
  obtain ⟨hlen₂, hsum₂, hout₂, hcont₂⟩ := distributeFlexibleSpace_spec h₂
  obtain ⟨hp, hpw'⟩ := List.getElem?_eq_some_iff.mp hpw
  -- the first pass leaves the principal element and what follows it
  have hdrop₁ : w₁.drop p = base.drop p := drop_eq_drop_of_getElem? fun k hk => hout₁ k (.inr hk)
  have htake₂ : w₂.take (p + 1) = w₁.take (p + 1) :=
    take_eq_take_of_getElem? fun k hk => hout₂ k (.inl hk)
  have htake₂' : w₂.take p = w₁.take p := by
    have := congrArg (List.take p) htake₂
    simpa [List.take_take] using this
  have hbase : base.drop p = pw :: base.drop (p + 1) := by
    rw [← hpw', List.drop_eq_getElem_cons hp]
  have hs₁ := List.sum_take_add_sum_drop w₁ p
  have hs₀ := List.sum_take_add_sum_drop base p
  have hs₂ := List.sum_take_add_sum_drop w₂ p
  rw [hdrop₁] at hs₁
  rw [htake₂'] at hs₂ ⊢
  rw [hbase, List.sum_cons] at hs₀ hs₁
  refine ⟨by omega, hp, by omega, by omega, fun k e he hc => ?_⟩
  rw [hcont₂ k e he hc, hcont₁ k e he hc]

namespace Run

variable {bar : BarSpec} {available : UInt32} {required : BTreeSet ItemId}
  {layout : ResolvedLayout}

lemma validBar (r : Run bar available required layout) : ValidBar bar required :=
  validBar_of_validate r.valid

lemma sizing_forall₂ (r : Run bar available required layout) :
    List.Forall₂ (fun e s => elementSizing e = ok s) bar.elements r.sizing :=
  elementsSizing_eq_ok.mp r.sizing_eq

lemma length_sizing (r : Run bar available required layout) :
    r.sizing.length = bar.elements.length :=
  r.sizing_forall₂.length_eq.symm

lemma sizing_wf (r : Run bar available required layout) : ∀ s ∈ r.sizing, s.WF := by
  intro s hs
  obtain ⟨e, he, hes⟩ := forall₂_exists_left r.sizing_forall₂ hs
  exact elementSizing_wf hes fun i hi =>
    r.validBar.items_wf i (List.mem_flatMap.mpr ⟨e, he, hi⟩)

/-- What is hidden, and the total that is left. -/
lemma hidden_spec (r : Run bar available required layout) :
    ∃ hidden : List VisibilityUnit, (∀ u ∈ hidden, u ∈ r.units ∧ u.required = false) ∧
      r.visible = hide (hidden.flatMap VisibilityUnit.elements)
        (bar.elements.map Element.isContent) ∧
      r.minimumTotal = demand bar.elements r.sizing r.visible := by
  refine hideToFit_eq_some r.hidden_eq (contentOnly_map_isContent _) ?_
  have htotal := r.total_eq
  rw [totalWidth, U64.sum_eq_some] at htotal
  exact htotal.2.symm

lemma length_visible (r : Run bar available required layout) :
    r.visible.length = bar.elements.length := by
  obtain ⟨hidden, -, hvis, -⟩ := r.hidden_spec
  rw [hvis, length_hide, List.length_map]

lemma contentOnly (r : Run bar available required layout) :
    ContentOnly bar.elements r.visible := by
  obtain ⟨hidden, -, hvis, -⟩ := r.hidden_spec
  rw [hvis]
  exact (contentOnly_map_isContent _).hide _

/-- No element that holds a required item is hidden. -/
lemma visible_of_holdsAny (r : Run bar available required layout) {k : ℕ} {e : Element}
    (he : bar.elements[k]? = some e) (hreq : e.HoldsAny required) : r.visible[k]? = some true := by
  obtain ⟨hidden, hunits, hvis, -⟩ := r.hidden_spec
  rw [hvis, getElem?_hide]
  constructor
  · obtain ⟨i, hi, -⟩ := hreq
    rw [List.getElem?_map, he]
    cases e <;> simp_all [Element.items, Element.isContent]
  · intro hk
    obtain ⟨u, hu, hku⟩ := List.mem_flatMap.mp hk
    obtain ⟨hu, hno⟩ := hunits u hu
    have hcls := (visibilityUnits_unitsOf r.units_eq).unit u hu
    exact absurd (hcls.required_iff.mpr ⟨k, hku, e, he, hreq⟩) (by simp [hno])

lemma base_spec (r : Run bar available required layout) :
    List.Forall₂ (· ≤ ·) (rowWidths Sizing.minimum bar.elements r.visible r.sizing) r.base ∧
      List.Forall₂ (· ≤ ·) r.base
        (rowWidths Sizing.preferred bar.elements r.visible r.sizing) ∧
      r.base.sum ≤ available.toNat := by
  obtain ⟨_, -, -, htotal⟩ := r.hidden_spec
  exact compressToFit_spec r.length_visible r.length_sizing r.sizing_wf (htotal ▸ r.fits)
    r.base_eq

lemma length_base (r : Run bar available required layout) :
    r.base.length = bar.elements.length := by
  rw [← r.base_spec.1.length_eq, length_rowWidths r.length_visible r.length_sizing]

/-- The final widths: content keeps its compressed width, and the two sides of the
principal element keep within their room. -/
lemma widths_spec (r : Run bar available required layout) :
    r.widths.length = bar.elements.length ∧
      (∀ (k : ℕ) e, bar.elements[k]? = some e → e.isContent = true →
        r.widths[k]? = r.base[k]?) ∧
      (r.principalX = none → r.widths.sum ≤ available.toNat) ∧
      ∀ p x, r.principalX = some (p, x) → p < bar.elements.length ∧
        (r.widths.take p).sum ≤ x ∧ x + (r.widths.drop p).sum ≤ available.toNat := by
  have h := r.widths_eq
  have hlen := r.length_base
  have hle := r.base_spec.2.2
  rw [distribute.eq_def] at h
  split at h
  · simp only [bind, Option.bind_eq_some_iff, Prod.exists, pure, Option.some.injEq,
      Prod.mk.injEq] at h
    obtain ⟨ws, x, hcenter, rfl, hpx⟩ := h
    obtain ⟨hlen', hp, htake, hdrop, hcont⟩ := centerPrincipal_spec hcenter
    refine ⟨hlen'.trans hlen, hcont, by simp [← hpx], fun p y hpy => ?_⟩
    rw [← hpx, Option.some.injEq, Prod.mk.injEq] at hpy
    obtain ⟨rfl, rfl⟩ := hpy
    exact ⟨hlen ▸ hp, htake, hdrop⟩
  · simp only [bind, Option.bind_eq_some_iff, pure, Option.some.injEq, Prod.mk.injEq] at h
    obtain ⟨ws, hdist, rfl, hpx⟩ := h
    obtain ⟨hlen', hsum, -, hcont⟩ := distributeFlexibleSpace_spec hdist
    exact ⟨hlen'.trans hlen, hcont, fun _ => by omega, by simp [← hpx]⟩

/-- The width of visible content is one that its sizing allows. -/
lemma width_allowed (r : Run bar available required layout) {k : ℕ} {e : Element} {w : ℕ}
    (he : bar.elements[k]? = some e) (hv : r.visible[k]? = some true)
    (hw : r.widths[k]? = some w) :
    ∃ s, elementSizing e = ok s ∧ s.minimum ≤ w ∧ w ≤ s.maximum := by
  obtain ⟨e', he', hc⟩ := r.contentOnly k hv
  obtain rfl : e = e' := Option.some.inj (he.symm.trans he')
  obtain ⟨hk, rfl⟩ := List.getElem?_eq_some_iff.mp he
  have hks : k < r.sizing.length := by rw [r.length_sizing]; exact hk
  have hs : r.sizing[k]? = some r.sizing[k] := List.getElem?_eq_getElem hks
  have hsz : elementSizing bar.elements[k] = ok r.sizing[k] := r.sizing_forall₂.get hk hks
  rw [r.widths_spec.2.1 k _ he hc] at hw
  obtain ⟨hkb, rfl⟩ := List.getElem?_eq_some_iff.mp hw
  obtain ⟨hlo, hup, -⟩ := r.base_spec
  -- distribution leaves content at its compressed width, which lies between the two rows
  have hbound : ∀ f : Sizing → ℕ,
      (rowWidths f bar.elements r.visible r.sizing)[k]? = some (f r.sizing[k]) := fun f =>
    getElem?_rowWidths.mpr ⟨_, true, _, he, hv, hs, by simp [elementWidth_of_isContent hc]⟩
  obtain ⟨hk₁, hmin⟩ := List.getElem?_eq_some_iff.mp (hbound Sizing.minimum)
  obtain ⟨hk₂, hpref⟩ := List.getElem?_eq_some_iff.mp (hbound Sizing.preferred)
  refine ⟨r.sizing[k], hsz, ?_, ?_⟩
  · rw [← hmin]
    exact hlo.get hk₁ hkb
  · have := hup.get hkb hk₂
    simp only [List.get_eq_getElem] at this
    rw [hpref] at this
    exact this.trans (r.sizing_wf _ (List.getElem_mem hks)).le_max

/-- What the final loop produces, and where it ends. -/
lemma placed_spec (r : Run bar available required layout) :
    Row Placement.left Placement.right 0 r.right layout.placements ∧
      List.Forall₂ Places (itemsWhere true bar.elements r.visible) layout.placements ∧
      layout.hiddenItems = (itemsWhere false bar.elements r.visible).map ItemSpec.id ∧
      r.right ≤ available.toNat := by
  obtain ⟨hlen, -, hnone, hsome⟩ := r.widths_spec
  -- centring gives the side before the principal element enough room
  have hjump : JumpsForward r.principalX 0 0 r.widths := by
    intro p x hpx _ _
    have := (hsome p x hpx).2.1
    simpa using this
  obtain ⟨hrow, -, hplaces, hhidden⟩ := placeElements_spec r.placed_eq r.length_visible hlen
    (fun k e w he hv hw {x ps} hlay => by
      obtain ⟨s, hs, hmin, hmax⟩ := r.width_allowed he hv hw
      obtain ⟨e', he', hc⟩ := r.contentOnly k hv
      obtain rfl : e = e' := Option.some.inj (he.symm.trans he')
      refine layoutElement_laidOut hs hc (fun i hi => r.validBar.items_wf i ?_) hlay hmin hmax
      exact List.mem_flatMap.mpr ⟨e, List.mem_of_getElem? he, hi⟩) hjump
  refine ⟨hrow, hplaces, hhidden, ?_⟩
  have hplaced := r.placed_eq
  cases hpx : r.principalX with
  | none =>
    have := placeElements_right_of_no_jump hplaced r.length_visible hlen (by simp [hpx])
    have := hnone hpx
    omega
  | some px =>
    obtain ⟨p, x⟩ := px
    obtain ⟨hp, -, hdrop⟩ := hsome p x hpx
    rw [hpx] at hplaced
    have := placeElements_right_of_jump hplaced r.length_visible hlen (Nat.zero_le p) (by omega)
    rw [this]
    simpa using hdrop

lemma contentWidth_toNat (r : Run bar available required layout) :
    layout.contentWidth.toNat = r.right := by
  have hle := r.placed_spec.2.2.2
  have hlt := available.toNat_lt
  rw [r.contentWidth_eq]
  exact Nat.mod_eq_of_lt (by omega)

end Run

/-! ## The main result -/

lemma places_map_id {is : List ItemSpec} {ps : List Placement} (h : List.Forall₂ Places is ps) :
    ps.map Placement.id = is.map ItemSpec.id := by
  induction h with
  | nil => rfl
  | cons hp _ ih => rw [List.map_cons, List.map_cons, hp.id_eq, ih]

/-- A layout that the resolver returns accounts for every item of the bar exactly once;
its placements stand in document order, disjoint and inside the bar, each with a width
between the bounds of its item; no required item is hidden; and the content width covers
all placements without leaving the bar. -/
theorem resolve_geometry {bar : BarSpec} {available : UInt32} {required : BTreeSet ItemId}
    {layout : ResolvedLayout} (h : resolve bar available required = ok layout) :
    ((layout.placements.map Placement.id ++ layout.hiddenItems).Perm (bar.items.map ItemSpec.id) ∧
      (layout.placements.map Placement.id ++ layout.hiddenItems).Nodup) ∧
    ((layout.placements.map Placement.id).Sublist (bar.items.map ItemSpec.id) ∧
      layout.placements.Pairwise
        fun p q => p.x.toNat + p.width.toNat ≤ q.x.toNat) ∧
    (∀ p ∈ layout.placements, p.x.toNat + p.width.toNat ≤ available.toNat) ∧
    (∀ p ∈ layout.placements, ∀ i ∈ bar.items, i.id = p.id →
      i.minWidth ≤ p.width ∧ p.width ≤ i.maxWidth) ∧
    (∀ id ∈ required, id ∉ layout.hiddenItems) ∧
    layout.contentWidth ≤ available ∧
    (∀ p ∈ layout.placements, p.x.toNat + p.width.toNat ≤ layout.contentWidth.toNat) := by
  obtain ⟨r⟩ := resolve_eq_ok h
  obtain ⟨hrow, hplaces, hhidden, hright⟩ := r.placed_spec
  have hids := places_map_id hplaces
  have hnd := r.validBar.ids_nodup
  have hperm : (layout.placements.map Placement.id ++ layout.hiddenItems).Perm
      (bar.items.map ItemSpec.id) := by
    rw [hids, hhidden, ← List.map_append]
    exact (itemsWhere_perm r.length_visible).map _
  refine ⟨⟨hperm, hperm.nodup_iff.mpr hnd⟩, ⟨?_, hrow.ordered⟩, fun p hp =>
    (hrow.upper p hp).trans hright, fun p hp i hi hid => ?_, fun id hid hmem => ?_, ?_,
    fun p hp => ?_⟩
  · rw [hids]
    exact (itemsWhere_sublist true).map _
  · -- the item of a placement is the one with its identifier
    obtain ⟨j, hj, hpj⟩ := forall₂_exists_left hplaces hp
    have hjmem : j ∈ bar.items := (itemsWhere_sublist true).subset hj
    obtain rfl : i = j := List.inj_on_of_nodup_map hnd hi hjmem (hid.trans hpj.id_eq)
    exact ⟨UInt32.le_iff_toNat_le.mpr hpj.min_le, UInt32.le_iff_toNat_le.mpr hpj.le_max⟩
  · -- an element with a required item stays visible
    rw [hhidden] at hmem
    obtain ⟨i, hi, rfl⟩ := List.mem_map.mp hmem
    obtain ⟨k, e, he, hv, hie⟩ := mem_itemsWhere.mp hi
    have := r.visible_of_holdsAny he ⟨i, hie, hid⟩
    simp [hv] at this
  · rw [UInt32.le_iff_toNat_le, r.contentWidth_toNat]
    exact hright
  · rw [r.contentWidth_toNat]
    exact hrow.upper p hp

/-- A bar with a space, a nested group and an item that does not fit. -/
def sampleBar : BarSpec where
  elements := [
    .item (ItemSpec.new "escape" 20 30 40),
    .flexibleSpace 0 1,
    .group ⟨"media", [.item (ItemSpec.new "previous" 10 20 30),
      .group ⟨"transport", [.item (ItemSpec.new "play" 10 20 30)], .equalWidth, 0, 0, 0⟩],
      .natural, 4, 0, 0⟩,
    .item (ItemSpec.new "clock" 80 80 80)]
  principalItem := some ⟨"play"⟩

def sampleLayout : ResolvedLayout where
  placements := [⟨⟨"escape"⟩, 0, 30⟩, ⟨⟨"previous"⟩, 30, 20⟩, ⟨⟨"play"⟩, 54, 20⟩]
  hiddenItems := [⟨"clock"⟩]
  contentWidth := 74

theorem resolve_geometry_sampleBar :
    resolve sampleBar 90 (.ofList [⟨"play"⟩]) = ok sampleLayout ∧
      (∀ p ∈ sampleLayout.placements, p.x.toNat + p.width.toNat ≤ (90 : UInt32).toNat) ∧
      ∀ id ∈ BTreeSet.ofList [⟨"play"⟩], id ∉ sampleLayout.hiddenItems := by
  have h : resolve sampleBar 90 (.ofList [⟨"play"⟩]) = ok sampleLayout := by decide
  obtain ⟨-, -, hinside, -, hrequired, -⟩ := resolve_geometry h
  exact ⟨h, hinside, hrequired⟩

end TouchBar.Layout
