import TouchBar.Layout.Atomicity
import TouchBar.Layout.Totality

/-!
# The shortest prefix

The units that may be hidden have one order: ascending priority, and among equals the one
that ends further right first.  The resolver hides the shortest prefix of it after which the
minimum widths of the rest fit, and if not even hiding all of them is enough it reports an
error.  A wider bar needs a shorter prefix, so what it hides every narrower bar hides as well.
-/

namespace TouchBar.Layout

open TouchBar.Rust TouchBar.Lib Outcome

/-- The minimum width of a bar once the elements `ks` are hidden. -/
def minimumWithout (es : List Element) (ks : List ℕ) : ℕ :=
  ((List.range es.length).map fun l =>
    if l ∈ ks then 0 else (es[l]?.map Element.minimum).getD 0).sum

/-- The elements of units. -/
def elementsOf (units : List VisibilityUnit) : List ℕ := units.flatMap VisibilityUnit.elements

/-- An item of one of the elements `ks`. -/
def ShownBy (es : List Element) (ks : List ℕ) (id : ItemId) : Prop :=
  ∃ k ∈ ks, ∃ e, es[k]? = some e ∧ ∃ i ∈ e.items, i.id = id

section Demand

variable {es : List Element} {ss : List Sizing} {required : BTreeSet ItemId}
  {units : List VisibilityUnit}

/-- The demand that the loops of the resolver keep is the minimum width of what is left. -/
lemma demand_hide (hsizing : elementsSizing es = ok ss) {ks : List ℕ}
    (hcontent : ∀ k ∈ ks, ∀ e, es[k]? = some e → e.isContent = true) :
    demand es ss (hide ks (es.map Element.isContent)) = minimumWithout es ks := by
  have hlength : ss.length = es.length := (elementsSizing_eq_ok.mp hsizing).length_eq.symm
  rw [demand, minimumWithout]
  congr 1
  apply List.ext_getElem?
  intro l
  by_cases hl : l < es.length
  · have he : es[l]? = some es[l] := List.getElem?_eq_getElem hl
    rw [getElem?_hideRow hsizing ks he fun hk => hcontent l hk _ he]
    simp only [List.getElem?_map, List.getElem?_range hl, Option.map_some, he, Option.getD_some]
  · rw [List.getElem?_eq_none, List.getElem?_eq_none]
    · simpa using hl
    · rw [length_rowWidths (by simp) hlength]
      omega

/-- Units have no spaces. -/
lemma UnitsOf.isContent (h : UnitsOf required es units) {hidden : List VisibilityUnit}
    (hsub : hidden ⊆ units) :
    ∀ k ∈ elementsOf hidden, ∀ e, es[k]? = some e → e.isContent = true := by
  intro k hk e he
  obtain ⟨u, hu, hku⟩ := List.mem_flatMap.mp hk
  have hkey := (h.unit u (hsub hu)).mem_iff.mp hku
  rw [keyAt, he, Option.bind_some] at hkey
  cases e with
  | item i => rfl
  | group g => rfl
  | fixedSpace w => cases hkey
  | flexibleSpace m w => cases hkey

/-- Hiding more leaves less. -/
lemma minimumWithout_mono {ks ls : List ℕ} (hsub : ks ⊆ ls) :
    minimumWithout es ls ≤ minimumWithout es ks := by
  refine List.sum_le_sum fun l _ => ?_
  by_cases hk : l ∈ ks
  · rw [if_pos hk, if_pos (hsub hk)]
  · rw [if_neg hk]
    split_ifs
    · exact Nat.zero_le _
    · exact le_rfl

lemma elementsOf_take_subset {n m : ℕ} (h : n ≤ m) :
    elementsOf (units.take n) ⊆ elementsOf (units.take m) := by
  intro k hk
  obtain ⟨u, hu, hku⟩ := List.mem_flatMap.mp hk
  exact List.mem_flatMap.mpr ⟨u, (List.take_prefix_take_left h).subset hu, hku⟩

lemma hidingOrder_take_subset (n : ℕ) : (hidingOrder units).take n ⊆ units := fun _ hu =>
  (mem_hidingOrder.mp (List.mem_of_mem_take hu)).1

/-- What the loops do, in terms of the order: they hide its shortest sufficient prefix, or
all of it. -/
lemma hideToFit_prefix {available t : ℕ} {vs : List Bool} (hsizing : elementsSizing es = ok ss)
    (hunits : UnitsOf required es units)
    (h : hideToFit ss available units (es.map Element.isContent)
      (demand es ss (es.map Element.isContent)) = some (vs, t)) :
    ∃ n, n ≤ (hidingOrder units).length ∧
      vs = hide (elementsOf ((hidingOrder units).take n)) (es.map Element.isContent) ∧
      t = minimumWithout es (elementsOf ((hidingOrder units).take n)) ∧
      (∀ m < n, available < minimumWithout es (elementsOf ((hidingOrder units).take m))) ∧
      (n < (hidingOrder units).length → t ≤ available) := by
  have hdemand : ∀ n, demand es ss (hide (elementsOf ((hidingOrder units).take n))
      (es.map Element.isContent)) =
        minimumWithout es (elementsOf ((hidingOrder units).take n)) := fun n =>
    demand_hide hsizing (hunits.isContent (hidingOrder_take_subset n))
  rw [hideToFit] at h
  split_ifs at h with hlt
  · obtain ⟨pre, post, hsplit, hvis, ht, hpost, hpre⟩ :=
      hideLoop_eq_some h (contentOnly_map_isContent _) rfl hlt
    change hidingOrder units = pre ++ post at hsplit
    have htake : (hidingOrder units).take pre.length = pre := by rw [hsplit, List.take_left]
    refine ⟨pre.length, ?_, ?_, ?_, fun m hm => ?_, fun hn => ?_⟩
    · rw [hsplit, List.length_append]
      omega
    · rw [htake]
      exact hvis
    · rw [ht, hvis, ← hdemand, htake]
      rfl
    · -- the unit after the first `m` was hidden because the rest did not fit
      have hm' : m < pre.length := hm
      have hfront := hpre (pre.take m) pre[m] (pre.drop (m + 1)) (by
        rw [List.getElem_cons_drop, List.take_append_drop])
      have htakem : (hidingOrder units).take m = pre.take m := by
        rw [hsplit, List.take_append_of_le_length hm'.le]
      rw [← hdemand, htakem]
      exact hfront
    · refine hpost ?_
      rintro rfl
      rw [hsplit, List.append_nil] at hn
      omega
  · obtain ⟨rfl, rfl⟩ := Prod.mk.inj (Option.some.inj h)
    have hall := hdemand 0
    refine ⟨0, Nat.zero_le _, rfl, hall, fun m hm => absurd hm (Nat.not_lt_zero m), fun _ => ?_⟩
    omega

end Demand

/-! ## Which bars resolve -/

/-- Validation has sized every group. -/
lemma validateElements_sized {es : List Element} :
    ∀ {index : ℕ} {items items' : BTreeSet ItemId} {groups groups' : BTreeSet String},
      validateElements index es items groups = ok (items', groups') →
      ∃ ss, elementsSizing es = ok ss := by
  induction es with
  | nil =>
    intro index items items' groups groups' _
    exact ⟨[], rfl⟩
  | cons e es ih =>
    intro index items items' groups groups' h
    have hcons : ∀ s, elementSizing e = ok s → (∃ ss, elementsSizing es = ok ss) →
        ∃ ss, elementsSizing (e :: es) = ok ss := by
      rintro s hs ⟨ss, hss⟩
      exact ⟨s :: ss, by simp [elementsSizing, hs, hss]⟩
    cases e with
    | item i =>
      rw [validateElements] at h
      obtain ⟨ids, -, hrest⟩ := bind_eq_ok.mp h
      exact hcons _ rfl (ih hrest)
    | group g =>
      rw [validateElements] at h
      obtain ⟨⟨ids, gs⟩, hgroup, hrest⟩ := bind_eq_ok.mp h
      obtain ⟨id, elements, layout, spacing, v, c⟩ := g
      rw [validateGroup] at hgroup
      split_ifs at hgroup
      simp only [bind_eq_ok] at hgroup
      obtain ⟨_, -, s, hs, -⟩ := hgroup
      exact hcons s hs (ih hrest)
    | fixedSpace w =>
      rw [validateElements] at h
      exact hcons _ rfl (ih h)
    | flexibleSpace m w =>
      rw [validateElements] at h
      split_ifs at h
      exact hcons _ rfl (ih h)

lemma elementsSizing_of_validate {bar : BarSpec} {required : BTreeSet ItemId}
    (h : validate bar required = ok ()) : ∃ ss, elementsSizing bar.elements = ok ss := by
  rw [validate] at h
  obtain ⟨⟨identifiers, groups⟩, helements, -⟩ := bind_eq_ok.mp h
  exact validateElements_sized helements

/-- After the checks the only error is that the width is insufficient. -/
lemma lt_of_resolve_eq_err {bar : BarSpec} {available : UInt32} {required : BTreeSet ItemId}
    {units : List VisibilityUnit} {ss : List Sizing} {error : LayoutError}
    (hvalid : validate bar required = ok ()) (hunits : visibilityUnits bar required = ok units)
    (hsizing : elementsSizing bar.elements = ok ss)
    (h : resolve bar available required = err error) :
    ∃ vs t, hideToFit ss available.toNat units (bar.elements.map Element.isContent)
      (demand bar.elements ss (bar.elements.map Element.isContent)) = some (vs, t) ∧
      available.toNat < t := by
  rw [resolve, hvalid, hunits, hsizing] at h
  simp only [ok_bind, bind_eq_err, check_ne_err, false_or, check_eq_ok, Prod.exists] at h
  obtain ⟨total, htotal, vs, t, hhide, h⟩ := h
  rw [totalWidth, U64.sum_eq_some] at htotal
  obtain rfl := htotal.2
  refine ⟨vs, t, hhide, ?_⟩
  by_contra hle
  rw [if_neg hle] at h
  simp [bind_eq_err] at h

/-! ## The hidden items -/

/-- The first `n` units are enough, and fewer are not. -/
structure ShortestPrefix (es : List Element) (order : List VisibilityUnit) (available n : ℕ) :
    Prop where
  le_length : n ≤ order.length
  fits : minimumWithout es (elementsOf (order.take n)) ≤ available
  least : ∀ m < n, available < minimumWithout es (elementsOf (order.take m))

/-- A wider bar needs a shorter prefix. -/
lemma ShortestPrefix.le {es : List Element} {order : List VisibilityUnit} {w w' n n' : ℕ}
    (h : ShortestPrefix es order w n) (h' : ShortestPrefix es order w' n') (hw : w ≤ w') :
    n' ≤ n := by
  by_contra hlt
  have hleast := h'.least n (not_le.mp hlt)
  have hfits := h.fits
  omega

namespace Run

variable {bar : BarSpec} {available : UInt32} {required : BTreeSet ItemId}
  {layout : ResolvedLayout}

/-- What a run leaves visible. -/
lemma visible_prefix (r : Run bar available required layout) :
    ∃ n, ShortestPrefix bar.elements (hidingOrder r.units) available.toNat n ∧
      r.visible = hide (elementsOf ((hidingOrder r.units).take n))
        (bar.elements.map Element.isContent) := by
  have hhide := r.hidden_eq
  rw [r.total_eq_demand] at hhide
  obtain ⟨n, hn, hvisible, ht, hleast, -⟩ := hideToFit_prefix r.sizing_eq r.unitsOf hhide
  exact ⟨n, ⟨hn, ht ▸ r.fits, hleast⟩, hvisible⟩

lemma mem_hiddenItems {ks : List ℕ} (r : Run bar available required layout)
    (hvisible : r.visible = hide ks (bar.elements.map Element.isContent)) (id : ItemId) :
    id ∈ layout.hiddenItems ↔ ShownBy bar.elements ks id := by
  have hhidden : ∀ {k : ℕ} {e : Element} {i : ItemSpec}, bar.elements[k]? = some e →
      i ∈ e.items → (r.visible[k]? = some false ↔ k ∈ ks) := by
    intro k e i he hi
    have hinit : (bar.elements.map Element.isContent)[k]? = some true := by
      rw [List.getElem?_map, he]
      cases e <;> simp_all [Element.items, Element.isContent]
    rw [r.visible_eq_false_iff he, hvisible, getElem?_hide, and_iff_right hinit, not_not]
  rw [r.placed_spec.2.2.1, List.mem_map]
  constructor
  · rintro ⟨i, hi, rfl⟩
    obtain ⟨k, e, he, hv, hie⟩ := mem_itemsWhere.mp hi
    exact ⟨k, (hhidden he hie).mp hv, e, he, i, hie, rfl⟩
  · rintro ⟨k, hk, e, he, i, hi, rfl⟩
    exact ⟨i, mem_itemsWhere.mpr ⟨k, e, he, (hhidden he hi).mpr hk, hi⟩, rfl⟩

end Run

/-- For a bar that passes the checks: the resolver returns a layout exactly if the minimum
widths fit once all units that may be hidden are hidden; then it hides the items of the
shortest sufficient prefix of these units; and what it hides at some width it hides at every
smaller width at which it returns a layout. -/
theorem resolve_hides_shortest_prefix {bar : BarSpec} {required : BTreeSet ItemId}
    {units : List VisibilityUnit} (hvalid : validate bar required = ok ())
    (hunits : visibilityUnits bar required = ok units) (available : UInt32) :
    ((hidingOrder units).Pairwise StrictlyBefore ∧
      ∀ u, u ∈ hidingOrder units ↔ u ∈ units ∧ u.required = false) ∧
    ((∃ layout, resolve bar available required = ok layout) →
      minimumWithout bar.elements (elementsOf (hidingOrder units)) ≤ available.toNat) ∧
    (bar.count < 2 ^ 31 →
      minimumWithout bar.elements (elementsOf (hidingOrder units)) ≤ available.toNat →
      ∃ layout, resolve bar available required = ok layout) ∧
    (∀ layout, resolve bar available required = ok layout →
      ∃ n, ShortestPrefix bar.elements (hidingOrder units) available.toNat n ∧
        ∀ id, id ∈ layout.hiddenItems ↔
          ShownBy bar.elements (elementsOf ((hidingOrder units).take n)) id) ∧
    ∀ (wider : UInt32) (layout layout' : ResolvedLayout), available ≤ wider →
      resolve bar available required = ok layout → resolve bar wider required = ok layout' →
      layout'.hiddenItems ⊆ layout.hiddenItems := by
  have hprefix : ∀ (width : UInt32) layout, resolve bar width required = ok layout →
      ∃ n, ShortestPrefix bar.elements (hidingOrder units) width.toNat n ∧
        ∀ id, id ∈ layout.hiddenItems ↔
          ShownBy bar.elements (elementsOf ((hidingOrder units).take n)) id := by
    intro width layout h
    obtain ⟨r⟩ := resolve_eq_ok h
    obtain rfl : r.units = units := Outcome.ok.inj (r.units_eq.symm.trans hunits)
    obtain ⟨n, hshortest, hvisible⟩ := r.visible_prefix
    exact ⟨n, hshortest, r.mem_hiddenItems hvisible⟩
  have hclasses := visibilityUnits_unitsOf hunits
  refine ⟨⟨hclasses.pairwise_hidingOrder, fun u => mem_hidingOrder⟩, ?_, ?_, hprefix available,
    ?_⟩
  · rintro ⟨layout, h⟩
    obtain ⟨n, hshortest, -⟩ := hprefix available layout h
    refine le_trans (minimumWithout_mono ?_) hshortest.fits
    have hsub : elementsOf ((hidingOrder units).take n) ⊆
        elementsOf ((hidingOrder units).take (hidingOrder units).length) :=
      elementsOf_take_subset hshortest.le_length
    rwa [List.take_length] at hsub
  · intro hcount hfits
    rcases (resolve_returns bar available required hcount).1 with h | ⟨error, h⟩
    · exact h
    · -- the only error that is left needs more than what is left when all is hidden
      exfalso
      obtain ⟨ss, hsizing⟩ := elementsSizing_of_validate hvalid
      obtain ⟨vs, t, hhide, hlt⟩ := lt_of_resolve_eq_err hvalid hunits hsizing h
      obtain ⟨n, hn, -, ht, -, hstop⟩ := hideToFit_prefix hsizing hclasses hhide
      rcases Nat.lt_or_eq_of_le hn with hshort | rfl
      · have hle := hstop hshort
        omega
      · rw [List.take_length] at ht
        omega
  · intro wider layout layout' hle h h' id hid
    obtain ⟨n, hshortest, hhidden⟩ := hprefix available layout h
    obtain ⟨n', hshortest', hhidden'⟩ := hprefix wider layout' h'
    have hn := hshortest.le hshortest' (UInt32.le_iff_toNat_le.mp hle)
    obtain ⟨k, hk, hshown⟩ := (hhidden' id).mp hid
    exact (hhidden id).mpr ⟨k, elementsOf_take_subset hn hk, hshown⟩

/-- The units of the sample bar: the group holds the required item. -/
def sampleUnits : List VisibilityUnit :=
  [⟨none, [0], 0, 0, false⟩, ⟨none, [2], 0, 2, true⟩, ⟨none, [3], 0, 3, false⟩]

theorem resolve_hides_shortest_prefix_sampleBar :
    resolve sampleBar 90 (.ofList [⟨"play"⟩]) = ok sampleLayout ∧
      ∃ n, ShortestPrefix sampleBar.elements (hidingOrder sampleUnits) (90 : UInt32).toNat n := by
  have hvalid : validate sampleBar (.ofList [⟨"play"⟩]) = ok () := by decide
  have hunits : visibilityUnits sampleBar (.ofList [⟨"play"⟩]) = ok sampleUnits := by decide
  have h : resolve sampleBar 90 (.ofList [⟨"play"⟩]) = ok sampleLayout := by decide
  obtain ⟨-, -, -, hprefix, -⟩ := resolve_hides_shortest_prefix hvalid hunits 90
  obtain ⟨n, hshortest, -⟩ := hprefix sampleLayout h
  exact ⟨h, n, hshortest⟩

end TouchBar.Layout
