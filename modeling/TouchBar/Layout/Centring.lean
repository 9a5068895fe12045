import TouchBar.Layout.Atomicity
import TouchBar.Layout.Compression

/-!
# The principal item and flexible space

The element that holds the principal item is put where the item itself comes closest to the
middle of the bar, as far as its neighbours let it.  The space on either side goes to the
flexible spaces of that side, in proportion to their weights and rounded down, and the last
of them takes the remainder.  Without a visible principal item the spare width of the whole
bar is distributed like this.
-/

namespace TouchBar.Layout

open TouchBar.Rust TouchBar.Lib Outcome

/-! ## Flexible space -/

/-- The flexible spaces of a side with their weights, from left to right. -/
structure FlexibleOn (es : List Element) (lo hi : ℕ) (flexible : List (ℕ × ℕ)) : Prop where
  ordered : (flexible.map Prod.fst).Pairwise (· < ·)
  mem_iff : ∀ k weight, (k, weight) ∈ flexible ↔ lo ≤ k ∧ k < hi ∧
    ∃ minimum u, es[k]? = some (.flexibleSpace minimum u) ∧ u.toNat = weight

/-- The share of a space, rounded down. -/
def floorShare (flexible : List (ℕ × ℕ)) (extra weight : ℕ) : ℕ :=
  extra * weight / (flexible.map Prod.snd).sum

/-- The extra width has gone to the spaces: to each its share rounded down, and to the last
one the remainder. -/
structure Distributed (flexible : List (ℕ × ℕ)) (extra : ℕ) (w w' : List ℕ) : Prop where
  share : ∀ (j k weight a : ℕ), flexible[j]? = some (k, weight) → j + 1 < flexible.length →
    w[k]? = some a → w'[k]? = some (a + floorShare flexible extra weight)
  last : ∀ k weight a, flexible.getLast? = some (k, weight) → w[k]? = some a →
    w'[k]? = some (a + (extra -
      (flexible.dropLast.map fun c => floorShare flexible extra c.2).sum))
  other : ∀ k, k ∉ flexible.map Prod.fst → w'[k]? = w[k]?
  total : flexible ≠ [] → w'.sum = w.sum + extra

lemma mem_flexibleSpaces_iff {lo hi : ℕ} {es : List Element} {n k weight : ℕ} :
    (k, weight) ∈ flexibleSpaces lo hi n es ↔ lo ≤ k ∧ k < hi ∧
      ∃ j m u, k = n + j ∧ es[j]? = some (.flexibleSpace m u) ∧ u.toNat = weight := by
  induction es generalizing n with
  | nil => simp [flexibleSpaces]
  | cons e es ih =>
    -- the space at the first position, and those after it
    have hsplit : (lo ≤ k ∧ k < hi ∧ ∃ j m u, k = n + j ∧
        (e :: es)[j]? = some (.flexibleSpace m u) ∧ u.toNat = weight) ↔
        (lo ≤ n ∧ n < hi ∧ k = n ∧ ∃ m u, e = .flexibleSpace m u ∧ u.toNat = weight) ∨
          (k, weight) ∈ flexibleSpaces lo hi (n + 1) es := by
      rw [ih]
      constructor
      · rintro ⟨h1, h2, j, m, u, hk, he, hw⟩
        cases j with
        | zero =>
          obtain rfl : k = n := by omega
          exact .inl ⟨h1, h2, rfl, m, u, by simpa using he, hw⟩
        | succ j => exact .inr ⟨h1, h2, j, m, u, by omega, by simpa using he, hw⟩
      · rintro (⟨h1, h2, rfl, m, u, rfl, hw⟩ | ⟨h1, h2, j, m, u, hk, he, hw⟩)
        · exact ⟨h1, h2, 0, m, u, rfl, rfl, hw⟩
        · exact ⟨h1, h2, j + 1, m, u, by omega, by simpa using he, hw⟩
    rw [hsplit]
    cases e with
    | item i => simp [flexibleSpaces]
    | group g => simp [flexibleSpaces]
    | fixedSpace w => simp [flexibleSpaces]
    | flexibleSpace m u =>
      rw [flexibleSpaces]
      split_ifs with hrange
      · rw [List.mem_cons, Prod.mk.injEq]
        refine or_congr_left ⟨?_, ?_⟩
        · rintro ⟨rfl, rfl⟩
          exact ⟨hrange.1, hrange.2, rfl, m, u, rfl, rfl⟩
        · rintro ⟨-, -, hk, m', u', he, hw⟩
          obtain ⟨-, rfl⟩ := Element.flexibleSpace.inj he
          exact ⟨hk, hw.symm⟩
      · constructor
        · exact fun h => .inr h
        · rintro (⟨h1, h2, -⟩ | h)
          · exact absurd ⟨h1, h2⟩ hrange
          · exact h

lemma pairwise_flexibleSpaces {lo hi : ℕ} {es : List Element} {n : ℕ} :
    ((flexibleSpaces lo hi n es).map Prod.fst).Pairwise (· < ·) := by
  induction es generalizing n with
  | nil => simp [flexibleSpaces]
  | cons e es ih =>
    cases e with
    | item i => exact ih
    | group g => exact ih
    | fixedSpace w => exact ih
    | flexibleSpace m u =>
      rw [flexibleSpaces]
      split_ifs
      · rw [List.map_cons, List.pairwise_cons]
        refine ⟨fun k hk => ?_, ih⟩
        obtain ⟨⟨k', weight⟩, hmem, rfl⟩ := List.mem_map.mp hk
        obtain ⟨-, -, j, -, -, hj, -⟩ := mem_flexibleSpaces_iff.mp hmem
        change n < k'
        omega
      · exact ih

lemma flexibleOn_flexibleSpaces (es : List Element) (lo hi : ℕ) :
    FlexibleOn es lo hi (flexibleSpaces lo hi 0 es) := by
  refine ⟨pairwise_flexibleSpaces, fun k weight => ?_⟩
  rw [mem_flexibleSpaces_iff]
  simp only [Nat.zero_add, exists_eq_left', exists_and_left]

/-- What the loop hands out, with `a` handed out before. -/
lemma distributeLoop_shares {extra T : ℕ} {fl : List (ℕ × ℕ)} :
    ∀ {w w' : List ℕ} {a : ℕ}, distributeLoop extra T fl w a = some w' →
      (fl.map Prod.fst).Nodup →
      (∀ j k weight b : ℕ, fl[j]? = some (k, weight) → j + 1 < fl.length → w[k]? = some b →
        w'[k]? = some (b + extra * weight / T)) ∧
      ∀ k weight b, fl.getLast? = some (k, weight) → w[k]? = some b →
        w'[k]? = some (b + (extra - (a + (fl.dropLast.map fun c => extra * c.2 / T).sum))) := by
  induction fl with
  | nil =>
    intro w w' a _ _
    exact ⟨by simp, by simp⟩
  | cons c fl ih =>
    intro w w' a h hnd
    obtain ⟨k₀, weight₀⟩ := c
    simp only [distributeLoop, bind, Option.bind_eq_some_iff, U64.add_eq_some] at h
    obtain ⟨add, hadd, b₀, hb₀, _, ⟨-, rfl⟩, _, ⟨-, rfl⟩, h⟩ := h
    rw [List.map_cons, List.nodup_cons] at hnd
    obtain ⟨hlt, -⟩ := List.getElem?_eq_some_iff.mp hb₀
    obtain ⟨-, hframe, -⟩ := distributeLoop_spec h
    obtain ⟨hshare, hlast⟩ := ih h hnd.2
    -- the first space is not touched any more
    have hfirst : w'[k₀]? = some (b₀ + add) := by
      rw [hframe k₀ hnd.1, List.getElem?_set_self hlt]
    have hother : ∀ k weight, (k, weight) ∈ fl → (w.set k₀ (b₀ + add))[k]? = w[k]? := by
      intro k weight hmem
      refine List.getElem?_set_ne fun heq => hnd.1 ?_
      rw [heq]
      exact List.mem_map.mpr ⟨_, hmem, rfl⟩
    cases fl with
    | nil =>
      refine ⟨fun j k weight b _ hj => ?_, fun k weight b hk hb => ?_⟩
      · simp at hj
      · obtain ⟨rfl, rfl⟩ : k₀ = k ∧ weight₀ = weight := by simpa using hk
        simp only [flexibleShare, List.isEmpty_nil, if_true, U64.sub_eq_some] at hadd
        obtain rfl := Option.some.inj (hb.symm.trans hb₀)
        rw [hfirst, ← hadd.2]
        simp
    | cons d fl =>
      simp only [flexibleShare, List.isEmpty_cons, Bool.false_eq_true, if_false,
        Option.map_eq_some_iff, U64.mul_eq_some] at hadd
      obtain ⟨_, ⟨-, rfl⟩, rfl⟩ := hadd
      refine ⟨fun j k weight b hk hj hb => ?_, fun k weight b hk hb => ?_⟩
      · cases j with
        | zero =>
          obtain ⟨rfl, rfl⟩ : k₀ = k ∧ weight₀ = weight := by simpa using hk
          obtain rfl := Option.some.inj (hb.symm.trans hb₀)
          exact hfirst
        | succ j =>
          rw [List.getElem?_cons_succ] at hk
          refine hshare j k weight b hk (by simpa using hj) ?_
          rw [hother k weight (List.mem_of_getElem? hk)]
          exact hb
      · rw [List.getLast?_cons_cons] at hk
        rw [hlast k weight b hk ?_]
        · rw [List.dropLast_cons_cons, List.map_cons, List.sum_cons, Nat.add_assoc]
        · rw [hother k weight (List.mem_of_getLast? hk)]
          exact hb

/-- Weights of flexible spaces are positive. -/
def PositiveWeights (es : List Element) : Prop :=
  ∀ m u, Element.flexibleSpace m u ∈ es → u ≠ 0

lemma distributeFlexibleSpace_distributed {bar : BarSpec} {w w' : List ℕ} {lo hi extra : ℕ}
    (hweights : PositiveWeights bar.elements)
    (h : distributeFlexibleSpace bar w lo hi extra = some w') :
    Distributed (flexibleSpaces lo hi 0 bar.elements) extra w w' := by
  rw [distributeFlexibleSpace] at h
  split_ifs at h with hzero
  · obtain rfl := Option.some.inj h
    subst hzero
    refine ⟨fun _ _ _ _ _ _ ha => ?_, fun _ _ _ _ ha => ?_, fun _ _ => rfl, fun _ => rfl⟩
    · rw [ha, floorShare, Nat.zero_mul, Nat.zero_div, Nat.add_zero]
    · rw [ha, Nat.zero_sub, Nat.add_zero]
  simp only [bind, Option.bind_eq_some_iff, U64.sum_eq_some] at h
  obtain ⟨_, ⟨-, rfl⟩, h⟩ := h
  split_ifs at h with hnone
  · -- without weight there is no space
    obtain rfl := Option.some.inj h
    have hnil : flexibleSpaces lo hi 0 bar.elements = [] := by
      rw [List.eq_nil_iff_forall_not_mem]
      rintro ⟨k, weight⟩ hmem
      have hle : weight ≤ ((flexibleSpaces lo hi 0 bar.elements).map Prod.snd).sum :=
        List.single_le_sum (by simp) _ (List.mem_map.mpr ⟨_, hmem, rfl⟩)
      obtain ⟨-, -, m, u, he, hu⟩ :=
        ((flexibleOn_flexibleSpaces bar.elements lo hi).mem_iff k weight).mp hmem
      refine hweights m u (List.mem_of_getElem? he) (UInt32.toNat_inj.mp ?_)
      rw [hu]
      exact Nat.le_zero.mp (hnone ▸ hle)
    rw [hnil]
    exact ⟨by simp, by simp, fun _ _ => rfl, by simp⟩
  · obtain ⟨-, hframe, hsum⟩ := distributeLoop_spec h
    obtain ⟨hshare, hlast⟩ := distributeLoop_shares h
      (pairwise_flexibleSpaces.imp fun hlt => ne_of_lt hlt)
    refine ⟨fun j k weight a => hshare j k weight a, fun k weight a hk ha => ?_, hframe,
      fun hne => ?_⟩
    · rw [hlast k weight a hk ha, Nat.zero_add]
      rfl
    · have htotal := hsum hne
      omega

lemma validateElements_positiveWeights {es : List Element} :
    ∀ {index : ℕ} {items items' : BTreeSet ItemId} {groups groups' : BTreeSet String},
      validateElements index es items groups = ok (items', groups') → PositiveWeights es := by
  induction es with
  | nil =>
    intro index items items' groups groups' _ m u hmem
    cases hmem
  | cons e es ih =>
    intro index items items' groups groups' h m u hmem
    cases e with
    | item i =>
      rw [validateElements] at h
      obtain ⟨ids, -, hrest⟩ := bind_eq_ok.mp h
      exact ih hrest m u (by simpa using hmem)
    | group g =>
      rw [validateElements] at h
      obtain ⟨⟨ids, gs⟩, -, hrest⟩ := bind_eq_ok.mp h
      exact ih hrest m u (by simpa using hmem)
    | fixedSpace w =>
      rw [validateElements] at h
      exact ih h m u (by simpa using hmem)
    | flexibleSpace m' u' =>
      rw [validateElements] at h
      split_ifs at h with hzero
      rcases List.mem_cons.mp hmem with heq | hmem
      · obtain ⟨-, rfl⟩ := Element.flexibleSpace.inj heq
        exact hzero
      · exact ih h m u hmem

lemma positiveWeights_of_validate {bar : BarSpec} {required : BTreeSet ItemId}
    (h : validate bar required = ok ()) : PositiveWeights bar.elements := by
  rw [validate] at h
  obtain ⟨⟨identifiers, groups⟩, helements, -⟩ := bind_eq_ok.mp h
  exact validateElements_positiveWeights helements

/-! ## Moving a group -/

/-- The same placement in a group that starts at `y` instead of `x`. -/
structure Shifted (x y : ℕ) (p p' : Placement) : Prop where
  id_eq : p.id = p'.id
  x_eq : p.x.toNat + y = p'.x.toNat + x
  width_eq : p.width = p'.width

lemma Shifted.of_add {x y d : ℕ} {p p' : Placement} (h : Shifted (x + d) (y + d) p p') :
    Shifted x y p p' :=
  ⟨h.id_eq, by have hx := h.x_eq; omega, h.width_eq⟩

lemma placeItem_shifted {i : ItemSpec} {x y w : ℕ} {p p' : Placement}
    (h : placeItem i x w = some p) (h' : placeItem i y w = some p') : Shifted x y p p' := by
  obtain ⟨hid, hx, hw⟩ := placeItem_eq_some h
  obtain ⟨hid', hx', hw'⟩ := placeItem_eq_some h'
  exact ⟨hid.trans hid'.symm, by omega, UInt32.toNat_inj.mp (by omega)⟩

lemma layoutChildren_shifted {spacing : UInt32} {es : List GroupElement}
    (hchild : ∀ e ∈ es, ∀ {x y w ps ps'}, layoutGroupElement e x w = some ps →
      layoutGroupElement e y w = some ps' → List.Forall₂ (Shifted x y) ps ps') :
    ∀ {ws : List ℕ} {x y : ℕ} {ps ps' : List Placement},
      layoutChildren spacing es ws x = some ps → layoutChildren spacing es ws y = some ps' →
      List.Forall₂ (Shifted x y) ps ps' := by
  induction es with
  | nil =>
    intro ws x y ps ps' h h'
    rw [layoutChildren] at h h'
    obtain rfl := Option.some.inj h
    obtain rfl := Option.some.inj h'
    exact .nil
  | cons e es ih =>
    intro ws x y ps ps' h h'
    replace ih := @ih fun e he => hchild e (List.mem_cons_of_mem _ he)
    rw [layoutChildren.eq_def] at h h'
    simp only [bind, Option.bind_eq_some_iff] at h h'
    obtain ⟨s, hs, h⟩ := h
    obtain ⟨s', hs', h'⟩ := h'
    obtain rfl := Option.some.inj (hs.symm.trans hs')
    split_ifs at h h' with hpos
    · cases ws with
      | nil =>
        obtain rfl := Option.some.inj h
        obtain rfl := Option.some.inj h'
        exact .nil
      | cons w ws =>
        simp only [Option.bind_eq_some_iff, U64.add_eq_some, pure, Option.some.injEq] at h h'
        obtain ⟨here, hhere, _, ⟨-, rfl⟩, _, ⟨-, rfl⟩, rest, hrest, rfl⟩ := h
        obtain ⟨here', hhere', _, ⟨-, rfl⟩, _, ⟨-, rfl⟩, rest', hrest', rfl⟩ := h'
        refine List.rel_append (hchild e List.mem_cons_self hhere hhere') ?_
        exact (ih hrest hrest').imp fun _ _ hp => hp.of_add
    · exact ih h h'

/-- A group is laid out in the same way everywhere. -/
theorem layoutGroup_shifted (g : GroupSpec) :
    ∀ {x y w : ℕ} {ps ps' : List Placement}, layoutGroup g x w = some ps →
      layoutGroup g y w = some ps' → List.Forall₂ (Shifted x y) ps ps' := by
  induction g using GroupSpec.nested_induction with
  | step g ih =>
    intro x y w ps ps' h h'
    have hchild : ∀ e ∈ g.elements, ∀ {x y w ps ps'}, layoutGroupElement e x w = some ps →
        layoutGroupElement e y w = some ps' → List.Forall₂ (Shifted x y) ps ps' := by
      intro e he x y w ps ps' h h'
      cases e with
      | item i =>
        simp only [layoutGroupElement, bind, Option.bind_eq_some_iff, pure, Option.some.injEq]
          at h h'
        obtain ⟨p, hp, rfl⟩ := h
        obtain ⟨p', hp', rfl⟩ := h'
        exact .cons (placeItem_shifted hp hp') .nil
      | group child =>
        rw [layoutGroupElement] at h h'
        exact ih child he h h'
    obtain ⟨id, elements, layout, spacing, v, c⟩ := g
    rw [layoutGroup] at h h'
    simp only [bind, Option.bind_eq_some_iff] at h h'
    obtain ⟨act, hact, h⟩ := h
    obtain ⟨act', hact', h'⟩ := h'
    obtain rfl := Option.some.inj (hact.symm.trans hact')
    split_ifs at h h' with hempty
    · obtain rfl := Option.some.inj h
      obtain rfl := Option.some.inj h'
      exact .nil
    · simp only [Option.bind_eq_some_iff] at h h'
      obtain ⟨gaps, hgaps, content, hcontent, ws, hws, h⟩ := h
      obtain ⟨gaps', hgaps', content', hcontent', ws', hws', h'⟩ := h'
      obtain rfl := Option.some.inj (hgaps.symm.trans hgaps')
      obtain rfl := Option.some.inj (hcontent.symm.trans hcontent')
      obtain rfl := Option.some.inj (hws.symm.trans hws')
      exact layoutChildren_shifted hchild h h'

/-! ## Finding the principal item -/

lemma containsItem_iff {e : Element} {id : ItemId} :
    containsItem e id = true ↔ ∃ i ∈ e.items, i.id = id := by
  cases e with
  | item i => simp [containsItem, Element.items]
  | group g => simp [containsItem, groupContainsItem, groupAny_iff, Element.items]
  | fixedSpace w => simp [containsItem, Element.items]
  | flexibleSpace m u => simp [containsItem, Element.items]

lemma findVisible_eq_none {test : Element → Bool} {es : List Element} :
    ∀ {n : ℕ} {vs : List Bool}, (∀ (k : ℕ) e, es[k]? = some e → vs[k]? = some true →
      test e = false) → findVisible test n es vs = none := by
  induction es with
  | nil =>
    intro n vs _
    cases vs <;> rfl
  | cons e es ih =>
    intro n vs h
    rcases vs with _ | ⟨v, vs⟩
    · rfl
    rw [findVisible, if_neg, ih fun k e he hv => h (k + 1) e he hv]
    intro hfound
    rw [Bool.and_eq_true] at hfound
    have hno := h 0 e rfl (by simp [hfound.1])
    rw [hfound.2] at hno
    cases hno

lemma findVisible_eq_of_first {test : Element → Bool} {es : List Element} {k : ℕ} {e : Element} :
    ∀ {n : ℕ} {vs : List Bool}, es[k]? = some e → vs[k]? = some true → test e = true →
      (∀ (j : ℕ) e', es[j]? = some e' → test e' = true → j = k) →
      findVisible test n es vs = some (n + k, e) := by
  induction es generalizing k with
  | nil =>
    intro n vs he
    simp at he
  | cons e' es ih =>
    intro n vs he hv htest honly
    rcases vs with _ | ⟨v, vs⟩
    · simp at hv
    rw [findVisible]
    cases k with
    | zero =>
      obtain rfl : e' = e := by simpa using he
      obtain rfl : v = true := by simpa using hv
      rw [htest]
      rfl
    | succ k =>
      -- the first element does not hold the item
      have hfirst : test e' = false := by
        by_contra hne
        have hzero := honly 0 e' rfl (by simpa using hne)
        omega
      rw [hfirst, Bool.and_false, if_neg Bool.false_ne_true,
        ih (by simpa using he) (by simpa using hv) htest fun j e'' hj hj' => by
          have hk := honly (j + 1) e'' (by simpa using hj) hj'
          omega]
      congr 2
      omega

/-- The element at the principal position is laid out there. -/
lemma placeElements_principal {p q : ℕ} {es : List Element} :
    ∀ {index x : ℕ} {vs : List Bool} {ws : List ℕ} {ps : List Placement} {hs : List ItemId}
      {r : ℕ} {e : Element} {w : ℕ},
      placeElements (some (p, q)) index es vs ws x = some (ps, hs, r) →
      vs.length = es.length → ws.length = es.length → index ≤ p →
      es[p - index]? = some e → vs[p - index]? = some true → ws[p - index]? = some w →
      ∃ here, layoutElement e q w = some here ∧ here ⊆ ps := by
  induction es with
  | nil =>
    intro index x vs ws ps hs r e w _ _ _ _ he
    simp at he
  | cons e' es ih =>
    intro index x vs ws ps hs r e w h hvs hws hle he hv hw
    obtain ⟨v, vs, w', ws, here, ps', hs', rfl, rfl, hvs, hws, hhere, hrest, rfl, rfl⟩ :=
      placeElements_cons h hvs hws
    rcases Nat.eq_or_lt_of_le hle with rfl | hlt
    · rw [Nat.sub_self] at he hv hw
      obtain rfl : e' = e := by simpa using he
      obtain rfl : v = true := by simpa using hv
      obtain rfl : w' = w := by simpa using hw
      rw [jump, if_pos rfl] at hhere
      simp only [layoutShown, if_true] at hhere
      exact ⟨here, hhere, List.subset_append_left _ _⟩
    · have hsucc : p - index = p - (index + 1) + 1 := by omega
      rw [hsucc, List.getElem?_cons_succ] at he hv hw
      obtain ⟨here', hhere', hsub⟩ := ih hrest hvs hws hlt he hv hw
      exact ⟨here', hhere', fun a ha => List.mem_append_right _ (hsub ha)⟩

/-! ## The position of the principal element -/

/-- Of all positions that leave what stands before and after on its side of the element, `x`
brings the item, at `offset` in its element, closest to the middle. -/
structure Centred (available before elementWidth after offset width x : ℕ) : Prop where
  left : before ≤ x
  right : x + elementWidth + after ≤ available
  closest : ∀ y, before ≤ y → y + elementWidth + after ≤ available → y ≠ x →
    Nat.dist (x + offset) ((available - width) / 2) <
      Nat.dist (y + offset) ((available - width) / 2)

/-- Both sides of the principal element, with the spaces that share them. -/
structure Sides (bar : BarSpec) (available p x elementWidth : ℕ) (base ws : List ℕ)
    (left right : List (ℕ × ℕ)) : Prop where
  left_spaces : FlexibleOn bar.elements 0 p left
  right_spaces : FlexibleOn bar.elements (p + 1) bar.elements.length right
  distributed : ∃ middle, Distributed left (x - (base.take p).sum) base middle ∧
    Distributed right (available - x - elementWidth - (base.drop (p + 1)).sum) middle ws
  /-- With a space on the left, what stands there reaches the element. -/
  reaches : left ≠ [] → (ws.take p).sum = x
  /-- With a space on the right, what stands there reaches the end of the bar. -/
  fills : right ≠ [] → x + (ws.drop p).sum = available

lemma centerPrincipal_exact {bar : BarSpec} {base ws : List ℕ} {available p offset width x : ℕ}
    (hweights : PositiveWeights bar.elements)
    (h : centerPrincipal bar base available p offset width = some (ws, x)) :
    ∃ elementWidth, base[p]? = some elementWidth ∧
      Centred available (base.take p).sum elementWidth (base.drop (p + 1)).sum offset width x ∧
      ∃ left right, Sides bar available p x elementWidth base ws left right := by
  simp only [centerPrincipal, bind, Option.bind_eq_some_iff, U64.sum_eq_some, U64.sub_eq_some,
    U64.clamp_eq_some, pure, Option.some.injEq, Prod.mk.injEq] at h
  obtain ⟨_, ⟨-, rfl⟩, _, ⟨-, rfl⟩, _, ⟨hwidth, rfl⟩, pw, hpw, _, ⟨hpwle, rfl⟩, _, ⟨hafter, rfl⟩,
    y, ⟨hbounds, hy⟩, _, ⟨hleft, rfl⟩, w₁, h₁, _, ⟨hx, rfl⟩, _, ⟨hx', rfl⟩, _, ⟨hx'', rfl⟩, w₂, h₂,
    rfl, rfl⟩ := h
  obtain ⟨-, -, hout₁, -⟩ := distributeFlexibleSpace_spec h₁
  obtain ⟨-, -, hout₂, -⟩ := distributeFlexibleSpace_spec h₂
  have hdist₁ := distributeFlexibleSpace_distributed hweights h₁
  have hdist₂ := distributeFlexibleSpace_distributed hweights h₂
  obtain ⟨hp, hpw'⟩ := List.getElem?_eq_some_iff.mp hpw
  have hdrop₁ : w₁.drop p = base.drop p := drop_eq_drop_of_getElem? fun k hk => hout₁ k (.inr hk)
  have htake₂ : w₂.take p = w₁.take p :=
    take_eq_take_of_getElem? fun k hk => hout₂ k (.inl (by omega))
  have hbase : base.drop p = pw :: base.drop (p + 1) := by
    rw [← hpw', List.drop_eq_getElem_cons hp]
  have hs₀ := List.sum_take_add_sum_drop base p
  have hs₁ := List.sum_take_add_sum_drop w₁ p
  have hs₂ := List.sum_take_add_sum_drop w₂ p
  rw [hdrop₁] at hs₁
  rw [htake₂] at hs₂
  rw [hbase, List.sum_cons] at hs₀ hs₁
  refine ⟨pw, hpw, ⟨by omega, by omega, fun z hz hz' hne => ?_⟩, _, _,
    flexibleOn_flexibleSpaces _ _ _, flexibleOn_flexibleSpaces _ _ _, ⟨w₁, hdist₁, hdist₂⟩,
    fun hne => ?_, fun hne => ?_⟩
  · simp only [Nat.dist]
    omega
  · have htotal := hdist₁.total hne
    rw [htake₂]
    omega
  · have htotal := hdist₂.total hne
    omega

/-- The metrics of an item that the element holds are found, and they say where the item is
placed, wherever the element is. -/
lemma principalMetrics_placed {e : Element} {s : Sizing} {w : ℕ} {id : ItemId}
    {metrics : Option (ℕ × ℕ)} (hs : elementSizing e = ok s) (hitems : ∀ i ∈ e.items, i.WF)
    (hmin : s.minimum ≤ w) (hmax : w ≤ s.maximum) (hid : ∃ i ∈ e.items, i.id = id)
    (h : principalMetrics e w id = some metrics) :
    ∃ offset width, metrics = some (offset, width) ∧ ∀ x here, layoutElement e x w = some here →
      ∃ q ∈ here, q.id = id ∧ q.x.toNat = x + offset ∧ q.width.toNat = width := by
  obtain ⟨i, hi, rfl⟩ := hid
  cases e with
  | item j =>
    obtain rfl : i = j := by simpa [Element.items] using hi
    simp only [principalMetrics, if_true, Option.some.injEq] at h
    refine ⟨0, w, h.symm, fun x here hhere => ?_⟩
    simp only [layoutElement, bind, Option.bind_eq_some_iff, pure, Option.some.injEq] at hhere
    obtain ⟨q, hq, rfl⟩ := hhere
    obtain ⟨hqid, hqx, hqw⟩ := placeItem_eq_some hq
    exact ⟨q, List.mem_singleton_self q, hqid, hqx, hqw⟩
  | group g =>
    simp only [principalMetrics, bind, Option.bind_eq_some_iff, pure, Option.some.injEq] at h
    obtain ⟨ps, hps, rfl⟩ := h
    have hlaid := layoutGroup_laidOut g hs hitems hps hmin hmax
    obtain ⟨p₀, hp₀, hplaces⟩ := forall₂_exists_right hlaid.places hi
    obtain ⟨p, hp⟩ : ∃ p, (ps.find? fun p => p.id = i.id) = some p := by
      rw [← Option.isSome_iff_exists, List.find?_isSome]
      exact ⟨p₀, hp₀, by simpa using hplaces.id_eq⟩
    have hpid : p.id = i.id := by simpa using List.find?_some hp
    refine ⟨p.x.toNat, p.width.toNat, by rw [hp, Option.map_some], fun x here hhere => ?_⟩
    obtain ⟨q, hq, hshift⟩ :=
      forall₂_exists_right (layoutGroup_shifted g hps hhere) (List.mem_of_find?_eq_some hp)
    refine ⟨q, hq, hshift.id_eq.symm.trans hpid, ?_, by rw [hshift.width_eq]⟩
    have hqx := hshift.x_eq
    omega
  | fixedSpace w' => simp [Element.items] at hi
  | flexibleSpace m u => simp [Element.items] at hi

/-- Items of different elements have different identifiers. -/
lemma index_eq_of_id_eq {es : List Element} (hnd : ((es.flatMap Element.items).map
    ItemSpec.id).Nodup) {j k : ℕ} {e e' : Element} {i i' : ItemSpec} (hj : es[j]? = some e)
    (hk : es[k]? = some e') (hi : i ∈ e.items) (hi' : i' ∈ e'.items) (hid : i.id = i'.id) :
    j = k := by
  rw [List.map_flatMap, List.nodup_flatMap] at hnd
  obtain ⟨hjlt, rfl⟩ := List.getElem?_eq_some_iff.mp hj
  obtain ⟨hklt, rfl⟩ := List.getElem?_eq_some_iff.mp hk
  have hpairwise := List.pairwise_iff_getElem.mp hnd.2
  have hmem := List.mem_map_of_mem (f := ItemSpec.id) hi
  have hmem' := List.mem_map_of_mem (f := ItemSpec.id) hi'
  rw [hid] at hmem
  rcases Nat.lt_trichotomy j k with hlt | heq | hlt
  · exact absurd hmem' (hpairwise j k hjlt hklt hlt hmem)
  · exact heq
  · exact absurd hmem (hpairwise k j hklt hjlt hlt hmem')

namespace Run

variable {bar : BarSpec} {available : UInt32} {required : BTreeSet ItemId}
  {layout : ResolvedLayout}

/-- The compressed width of visible content is one that its sizing allows. -/
lemma base_allowed (r : Run bar available required layout) :
    RowAllowed bar r.visible r.base := by
  obtain ⟨hlow, hhigh, -⟩ := r.base_spec
  exact rowAllowed_base r.sizing_eq r.sizing_wf r.contentOnly hlow hhigh

/-- The principal item of a run that places it. -/
lemma principal_placed (r : Run bar available required layout) {id : ItemId}
    (hprincipal : bar.principalItem = some id)
    (hplaced : id ∈ layout.placements.map Placement.id) :
    ∃ p e w offset width, bar.elements[p]? = some e ∧ (∃ i ∈ e.items, i.id = id) ∧
      r.visible[p]? = some true ∧ r.base[p]? = some w ∧ r.principal = some (p, offset, width) ∧
      ∀ x here, layoutElement e x w = some here →
        ∃ q ∈ here, q.id = id ∧ q.x.toNat = x + offset ∧ q.width.toNat = width := by
  obtain ⟨i, hi, rfl⟩ := List.mem_map.mp (r.validBar.principal_mem id hprincipal)
  obtain ⟨p, e, he, hie⟩ := BarSpec.mem_items_iff.mp hi
  have hv : r.visible[p]? = some true := (r.mem_layout_iff he hie).1.mp hplaced
  have hlt : p < r.base.length := by
    rw [r.length_base]
    exact (List.getElem?_eq_some_iff.mp he).1
  have hw : r.base[p]? = some r.base[p] := List.getElem?_eq_getElem hlt
  obtain ⟨-, s, hs, hmin, hmax⟩ := r.base_allowed p e _ he hv hw
  have hitems : ∀ i ∈ e.items, i.WF := fun i hi =>
    r.validBar.items_wf i (List.mem_flatMap.mpr ⟨e, List.mem_of_getElem? he, hi⟩)
  -- the search finds the element
  have hfind : findVisible (fun e => containsItem e i.id) 0 bar.elements r.visible =
      some (p, e) := by
    rw [findVisible_eq_of_first he hv (containsItem_iff.mpr ⟨i, hie, rfl⟩), Nat.zero_add]
    intro j e' hj hcontains
    obtain ⟨i', hi', hid⟩ := containsItem_iff.mp hcontains
    exact index_eq_of_id_eq r.validBar.ids_nodup hj he hi' hie hid
  have hmetrics := r.principal_eq
  rw [findPrincipal, hprincipal] at hmetrics
  simp only [hfind, hw, bind, Option.bind_some, Option.bind_eq_some_iff, pure,
    Option.some.injEq] at hmetrics
  obtain ⟨metrics, hmetrics, hr⟩ := hmetrics
  obtain ⟨offset, width, rfl, hq⟩ :=
    principalMetrics_placed hs hitems hmin hmax ⟨i, hie, rfl⟩ hmetrics
  exact ⟨p, e, _, offset, width, he, ⟨i, hie, rfl⟩, hv, hw, by rw [← hr]; rfl, hq⟩

/-- A principal item that is not placed is not found. -/
lemma principal_eq_none (r : Run bar available required layout)
    (hnone : ∀ id, bar.principalItem = some id → id ∉ layout.placements.map Placement.id) :
    r.principal = none := by
  have hprincipal := r.principal_eq
  unfold findPrincipal at hprincipal
  split at hprincipal
  · exact (Option.some.inj hprincipal).symm
  · next id hid =>
    rw [findVisible_eq_none] at hprincipal
    · exact (Option.some.inj hprincipal).symm
    · intro k e he hv
      by_contra hcontains
      obtain ⟨i, hi, rfl⟩ := containsItem_iff.mp (by simpa using hcontains)
      exact hnone _ hid ((r.mem_layout_iff he hi).1.mpr hv)

/-- Without a principal item the extra width of the bar is distributed over all spaces. -/
lemma distributed_all (r : Run bar available required layout) (hnone : r.principal = none) :
    r.principalX = none ∧ ∃ flexible, FlexibleOn bar.elements 0 bar.elements.length flexible ∧
      Distributed flexible (available.toNat - r.base.sum) r.base r.widths := by
  have hwidths := r.widths_eq
  rw [hnone, distribute] at hwidths
  simp only [bind, Option.bind_eq_some_iff, pure, Option.some.injEq, Prod.mk.injEq] at hwidths
  obtain ⟨ws, hdistribute, hws, hx⟩ := hwidths
  rw [← hws]
  exact ⟨hx.symm, _, flexibleOn_flexibleSpaces _ _ _,
    distributeFlexibleSpace_distributed (positiveWeights_of_validate r.valid) hdistribute⟩

/-- With a space anywhere the layout then takes the whole bar. -/
lemma contentWidth_of_distributed (r : Run bar available required layout)
    {flexible : List (ℕ × ℕ)} (hx : r.principalX = none) (hne : flexible ≠ [])
    (hdist : Distributed flexible (available.toNat - r.base.sum) r.base r.widths) :
    layout.contentWidth = available := by
  have htotal := hdist.total hne
  have hle := r.base_spec.2.2
  have hright := placeElements_right_of_no_jump r.placed_eq r.length_visible r.widths_spec.1
    (by simp [hx])
  apply UInt32.toNat_inj.mp
  rw [r.contentWidth_toNat]
  omega

/-- A principal item that is found stands at its offset in the element that holds it, and
what follows the element ends where the layout ends. -/
lemma principal_position (r : Run bar available required layout) {p x w : ℕ} {e : Element}
    (hx : r.principalX = some (p, x)) (he : bar.elements[p]? = some e)
    (hv : r.visible[p]? = some true) (hw : r.base[p]? = some w) :
    (∃ here, layoutElement e x w = some here ∧ here ⊆ layout.placements) ∧
      layout.contentWidth.toNat = x + (r.widths.drop p).sum := by
  obtain ⟨hlen, hkept, -⟩ := r.widths_spec
  obtain ⟨e', he', hc⟩ := r.contentOnly p hv
  have hplaced := r.placed_eq
  rw [hx] at hplaced
  have hw' : r.widths[p]? = some w := (hkept p e' he' hc).trans hw
  have hlt : p < bar.elements.length := (List.getElem?_eq_some_iff.mp he).1
  have hright := placeElements_right_of_jump hplaced r.length_visible hlen (Nat.zero_le p)
    (by omega)
  refine ⟨placeElements_principal hplaced r.length_visible hlen (Nat.zero_le p) he hv hw', ?_⟩
  rw [r.contentWidth_toNat, hright, Nat.sub_zero]

end Run

/-! ## The main result -/

end TouchBar.Layout
