import TouchBar.Layout.Totality

/-!
# Compression in order

A row of children that does not fit at its preferred widths is compressed child by child, in
ascending compression priority and among equals the later child first, each down to its
minimum before the next one is touched.  The bar and every natural group do this with their
own children, whose sizes come from the sizing below them.  This file says what the widths
look like afterwards, at every level that a run reaches, and that they fill the row exactly.
-/

namespace TouchBar.Layout

open TouchBar.Rust TouchBar.Lib Outcome

/-- The positions with a priority, in the order in which they are compressed. -/
structure CompressionOrder (priority : ℕ → Option ℤ) (order : List ℕ) : Prop where
  mem_iff : ∀ k, k ∈ order ↔ ∃ p, priority k = some p
  ordered : order.Pairwise fun k l => ∀ p q, priority k = some p → priority l = some q →
    p < q ∨ (p = q ∧ l < k)

/-- Along the order: first widths at the minimum, then at most one width between the minimum
and the preferred one, then preferred widths. -/
def Compressed (order lo hi ws : List ℕ) : Prop :=
  ∃ front rest, order = front ++ rest ∧ (∀ k ∈ front, ws[k]? = lo[k]?) ∧
    (∀ k ∈ rest.head?, ∃ a b c, lo[k]? = some a ∧ ws[k]? = some b ∧ hi[k]? = some c ∧
      a ≤ b ∧ b ≤ c) ∧
    ∀ k ∈ rest.tail, ws[k]? = hi[k]?

/-- A greedy run leaves such widths. -/
lemma compressed_of_squeeze {cs : List (ℕ × ℕ)} {lo hi ws : List ℕ} {e e' : ℕ}
    (h : Squeeze cs hi e ws e') (hnd : (cs.map Prod.fst).Nodup)
    (hfloor : ∀ c ∈ cs, lo[c.1]? = some c.2 ∧ ∃ a, hi[c.1]? = some a ∧ c.2 ≤ a) :
    Compressed (cs.map Prod.fst) lo hi ws := by
  obtain ⟨front, rest, rfl, hfront, hhead, htail⟩ := h.shape hnd
  refine ⟨front.map Prod.fst, rest.map Prod.fst, List.map_append, ?_, ?_, ?_⟩
  · intro k hk
    obtain ⟨c, hc, rfl⟩ := List.mem_map.mp hk
    rw [hfront c hc, (hfloor c (List.mem_append_left _ hc)).1]
  · intro k hk
    rw [List.head?_map] at hk
    obtain ⟨c, hc, rfl⟩ := Option.mem_map.mp hk
    obtain ⟨hlo, a, ha, hle⟩ := hfloor c (List.mem_append_right _ (List.mem_of_mem_head? hc))
    obtain ⟨b, hb, h1, h2⟩ := hhead c hc a ha hle
    exact ⟨c.2, b, a, hlo, hb, ha, h1, h2⟩
  · intro k hk
    rw [← List.map_tail] at hk
    obtain ⟨c, hc, rfl⟩ := List.mem_map.mp hk
    exact htail c hc

/-- Only the widths along the order matter. -/
lemma Compressed.congr {order lo hi ws ws' : List ℕ} (h : Compressed order lo hi ws)
    (heq : ∀ k ∈ order, ws'[k]? = ws[k]?) : Compressed order lo hi ws' := by
  obtain ⟨front, rest, rfl, hfront, hhead, htail⟩ := h
  refine ⟨front, rest, rfl, fun k hk => ?_, fun k hk => ?_, fun k hk => ?_⟩
  · rw [heq k (List.mem_append_left _ hk), hfront k hk]
  · rw [heq k (List.mem_append_right _ (List.mem_of_mem_head? hk))]
    exact hhead k hk
  · rw [heq k (List.mem_append_right _ (List.mem_of_mem_tail hk)), htail k hk]

instance : Std.Total CompressesBefore := ⟨fun a b => by
  unfold CompressesBefore
  omega⟩

instance : IsTrans (ℤ × ℕ) CompressesBefore := ⟨fun a b c => by
  unfold CompressesBefore
  omega⟩

/-! ## The bar -/

/-- The compression priority of visible content. -/
def shownPriority (es : List Element) (vs : List Bool) (k : ℕ) : Option ℤ :=
  if vs[k]? = some true then es[k]?.bind Element.compressionPriority else none

lemma priority_of_mem_compressionCandidates {es : List Element} {c : ℤ × ℕ × ℕ} {n : ℕ} :
    ∀ {vs : List Bool} {ss : List Sizing}, c ∈ compressionCandidates n es vs ss →
      ∃ j, c.2.1 = n + j ∧ shownPriority es vs j = some c.1 := by
  induction es generalizing n with
  | nil => simp [compressionCandidates]
  | cons e es ih =>
    intro vs ss h
    rcases vs with _ | ⟨v, vs⟩
    · simp [compressionCandidates] at h
    rcases ss with _ | ⟨s, ss⟩
    · simp [compressionCandidates] at h
    -- a candidate after the first position has its index one further on
    have htail : c ∈ compressionCandidates (n + 1) es vs ss →
        ∃ j, c.2.1 = n + j ∧ shownPriority (e :: es) (v :: vs) j = some c.1 := by
      intro hmem
      obtain ⟨j, hj, hp⟩ := ih hmem
      exact ⟨j + 1, by omega, hp⟩
    rw [compressionCandidates] at h
    split at h
    · next p hp =>
      split_ifs at h with hv
      · rcases List.mem_cons.mp h with rfl | hmem
        · exact ⟨0, rfl, by simp [shownPriority, hv, hp]⟩
        · exact htail hmem
      · exact htail h
    · exact htail h

/-- The candidates of the bar in the order in which the loop takes them. -/
def sortedCandidates (es : List Element) (vs : List Bool) (ss : List Sizing) :
    List (ℤ × ℕ × ℕ) :=
  (compressionCandidates 0 es vs ss).insertionSort fun l r =>
    CompressesBefore (l.1, l.2.1) (r.1, r.2.1)

section Bar

variable {es : List Element} {vs : List Bool} {ss : List Sizing}

lemma sortedCandidates_perm :
    (sortedCandidates es vs ss).Perm (compressionCandidates 0 es vs ss) :=
  List.perm_insertionSort _ _

lemma sortedCandidates_nodup :
    (((sortedCandidates es vs ss).map Prod.snd).map Prod.fst).Nodup := by
  rw [List.map_map, (sortedCandidates_perm.map _).nodup_iff]
  exact pairwise_compressionCandidates.imp fun hlt => ne_of_lt hlt

lemma priority_of_mem_sortedCandidates {c : ℤ × ℕ × ℕ} (h : c ∈ sortedCandidates es vs ss) :
    shownPriority es vs c.2.1 = some c.1 := by
  obtain ⟨j, hj, hp⟩ :=
    priority_of_mem_compressionCandidates (sortedCandidates_perm.mem_iff.mp h)
  rw [hj, Nat.zero_add]
  exact hp

lemma compressionOrder_bar (hss : ss.length = es.length) :
    CompressionOrder (shownPriority es vs)
      (((sortedCandidates es vs ss).map Prod.snd).map Prod.fst) := by
  constructor
  · intro k
    constructor
    · intro hk
      rw [List.map_map] at hk
      obtain ⟨c, hc, rfl⟩ := List.mem_map.mp hk
      exact ⟨c.1, priority_of_mem_sortedCandidates hc⟩
    · rintro ⟨p, hp⟩
      rw [shownPriority] at hp
      split_ifs at hp with hv
      obtain ⟨e, he, hep⟩ := Option.bind_eq_some_iff.mp hp
      have hk : k < ss.length := by
        rw [hss]
        exact (List.getElem?_eq_some_iff.mp he).1
      have hmem : (k, ss[k].minimum) ∈ (compressionCandidates 0 es vs ss).map Prod.snd :=
        mem_compressionCandidates.mpr ⟨k, e, ss[k], by omega, he,
          isContent_iff_compressionPriority.mpr ⟨p, hep⟩, hv, List.getElem?_eq_getElem hk, rfl⟩
      exact List.mem_map.mpr ⟨_, (sortedCandidates_perm.map _).mem_iff.mpr hmem, rfl⟩
  · have : Std.Total fun l r : ℤ × ℕ × ℕ => CompressesBefore (l.1, l.2.1) (r.1, r.2.1) :=
      ⟨fun a b => Std.Total.total (a.1, a.2.1) (b.1, b.2.1)⟩
    have : IsTrans (ℤ × ℕ × ℕ) fun l r => CompressesBefore (l.1, l.2.1) (r.1, r.2.1) :=
      ⟨fun a b c => IsTrans.trans (a.1, a.2.1) (b.1, b.2.1) (c.1, c.2.1)⟩
    have hsorted : (sortedCandidates es vs ss).Pairwise fun l r =>
        CompressesBefore (l.1, l.2.1) (r.1, r.2.1) := List.pairwise_insertionSort _ _
    have hnd : (((sortedCandidates es vs ss).map Prod.snd).map Prod.fst).Nodup :=
      sortedCandidates_nodup
    rw [List.map_map, List.Nodup, List.pairwise_map] at hnd
    rw [List.map_map, List.pairwise_map]
    refine (hsorted.and hnd).imp_of_mem ?_
    rintro a b ha hb ⟨hle, hne⟩ p q hp hq
    have hpa := priority_of_mem_sortedCandidates ha
    have hqb := priority_of_mem_sortedCandidates hb
    simp only [Function.comp_apply] at hp hq hne
    rw [hpa, Option.some.injEq] at hp
    rw [hqb, Option.some.injEq] at hq
    unfold CompressesBefore at hle
    simp only [Function.comp_apply]
    omega

/-- What `compress_to_fit` leaves of a row whose minimums fit. -/
lemma compressToFit_compressed {bar : BarSpec} {available : ℕ} {base : List ℕ}
    (hvs : vs.length = bar.elements.length) (hss : ss.length = bar.elements.length)
    (hwf : ∀ s ∈ ss, s.WF) (hfit : demand bar.elements ss vs ≤ available)
    (h : compressToFit bar vs ss (rowWidths Sizing.preferred bar.elements vs ss) available =
      some base) :
    (∃ order, CompressionOrder (shownPriority bar.elements vs) order ∧
      Compressed order (rowWidths Sizing.minimum bar.elements vs ss)
        (rowWidths Sizing.preferred bar.elements vs ss) base) ∧
      (available < (rowWidths Sizing.preferred bar.elements vs ss).sum → base.sum = available) ∧
      ((rowWidths Sizing.preferred bar.elements vs ss).sum ≤ available →
        base = rowWidths Sizing.preferred bar.elements vs ss) := by
  have hspec := compressToFit_spec hvs hss hwf hfit h
  simp only [compressToFit, bind, Option.bind_eq_some_iff, U64.sum_eq_some, Prod.exists,
    assert_eq_some, pure, Option.some.injEq] at h
  obtain ⟨_, ⟨-, rfl⟩, w', e', hloop, -, hdone, rfl⟩ := h
  have hsq := compressLoop_squeeze hloop
  refine ⟨⟨_, compressionOrder_bar hss, compressed_of_squeeze hsq sortedCandidates_nodup ?_⟩,
    fun hlt => ?_, fun hle => ?_⟩
  · rintro ⟨k, m⟩ hc
    obtain ⟨j, e, s, hj, he, hcontent, hv, hs, rfl⟩ :=
      mem_compressionCandidates.mp ((sortedCandidates_perm.map _).mem_iff.mp hc)
    obtain rfl : k = j := by omega
    have hrow : ∀ f : Sizing → ℕ, (rowWidths f bar.elements vs ss)[k]? = some (f s) := fun f =>
      getElem?_rowWidths.mpr ⟨e, true, s, he, hv, hs, by simp [elementWidth_of_isContent hcontent]⟩
    exact ⟨hrow _, s.preferred, hrow _, (hwf s (List.mem_of_getElem? hs)).min_le⟩
  · have hsum := hsq.sum_eq
    omega
  · have hzero : (rowWidths Sizing.preferred bar.elements vs ss).sum - available = 0 := by omega
    rw [hzero] at hsq
    exact hsq.eq_of_zero

end Bar

/-! ## Natural groups -/

/-- What `natural_child_widths` leaves when the children do not fit at their preferred
widths. -/
lemma naturalChildWidths_compressed {es : List GroupElement} {ss : List Sizing} {c : ℕ}
    {ws : List ℕ} (hsized : Sized es ss) (hwf : ∀ s ∈ ss, s.WF)
    (h : naturalChildWidths es c = some ws) (hlt : c < (ss.map Sizing.preferred).sum) :
    ∃ order, CompressionOrder (fun k => es[k]?.map groupElementCompressionPriority) order ∧
      Compressed order (ss.map Sizing.minimum) (ss.map Sizing.preferred) ws := by
  have hss : groupElementsSizing es = ok ss := groupElementsSizing_eq_ok.mpr hsized
  have hlen : es.length = ss.length := hsized.length_eq
  simp only [naturalChildWidths, hss, expect, bind, Option.bind_some, Option.bind_eq_some_iff,
    U64.sum_eq_some] at h
  obtain ⟨_, ⟨-, rfl⟩, h⟩ := h
  rw [if_pos hlt] at h
  simp only [Option.bind_eq_some_iff, U64.sub_eq_some, Prod.exists, assert_eq_some, pure,
    Option.some.injEq] at h
  obtain ⟨_, ⟨-, rfl⟩, w', e', hloop, -, -, rfl⟩ := h
  have hsq := compressChildrenLoop_squeeze hloop
  have hperm := candidates_perm es
  set cs := (es.zipIdx.map fun e => (groupElementCompressionPriority e.1, e.2)).insertionSort
    CompressesBefore with hcs
  have hfst : (cs.map fun c => (c.2, (ss[c.2]?.map Sizing.minimum).getD 0)).map Prod.fst =
      cs.map Prod.snd := by
    rw [List.map_map]
    rfl
  have hpriority : ∀ c ∈ cs, es[c.2]?.map groupElementCompressionPriority = some c.1 := by
    intro c hc
    rw [hcs, List.mem_insertionSort] at hc
    obtain ⟨⟨e, k⟩, he, rfl⟩ := List.mem_map.mp hc
    rw [List.mem_zipIdx_iff_getElem?] at he
    simp only at he ⊢
    rw [he, Option.map_some]
  have hnd : (cs.map Prod.snd).Nodup := hperm.nodup_iff.mpr List.nodup_range
  refine ⟨cs.map Prod.snd, ⟨fun k => ?_, ?_⟩, ?_⟩
  · rw [hperm.mem_iff, List.mem_range]
    constructor
    · intro hk
      exact ⟨_, by rw [List.getElem?_eq_getElem hk, Option.map_some]⟩
    · rintro ⟨p, hp⟩
      obtain ⟨e, he, -⟩ := Option.map_eq_some_iff.mp hp
      exact (List.getElem?_eq_some_iff.mp he).1
  · have hsorted : cs.Pairwise CompressesBefore := List.pairwise_insertionSort _ _
    rw [List.Nodup, List.pairwise_map] at hnd
    rw [List.pairwise_map]
    refine (hsorted.and hnd).imp_of_mem ?_
    rintro a b ha hb ⟨hle, hne⟩ p q hp hq
    rw [hpriority a ha, Option.some.injEq] at hp
    rw [hpriority b hb, Option.some.injEq] at hq
    unfold CompressesBefore at hle
    omega
  · rw [← hfst]
    refine compressed_of_squeeze hsq (hfst ▸ hnd) ?_
    intro c hc
    obtain ⟨d, hd, rfl⟩ := List.mem_map.mp hc
    have hk : d.2 < ss.length := by
      rw [← hlen, ← List.mem_range, ← hperm.mem_iff]
      exact List.mem_map_of_mem hd
    have hs : ss[d.2]? = some ss[d.2] := List.getElem?_eq_getElem hk
    simp only [List.getElem?_map, hs, Option.map_some, Option.getD_some, Option.some.injEq]
    exact ⟨trivial, _, rfl, (hwf _ (List.getElem_mem hk)).min_le⟩

/-! ## The levels of a run -/

/-- A row that fills the bar leaves nothing to distribute. -/
lemma distribute_of_full {bar : BarSpec} {base ws : List ℕ} {available : ℕ}
    {principal : Option (ℕ × ℕ × ℕ)} {px : Option (ℕ × ℕ)} (hfull : base.sum = available)
    (h : distribute bar base available (available - base.sum) principal = some (ws, px)) :
    ws = base := by
  have hzero : ∀ {w w' : List ℕ} {lo hi : ℕ},
      distributeFlexibleSpace bar w lo hi 0 = some w' → w' = w := by
    intro w w' lo hi h
    rw [distributeFlexibleSpace, if_pos rfl] at h
    exact (Option.some.inj h).symm
  rw [distribute.eq_def] at h
  split at h
  · simp only [bind, Option.bind_eq_some_iff, Prod.exists, pure, Option.some.injEq,
      Prod.mk.injEq] at h
    obtain ⟨ws, x, hcenter, rfl, -⟩ := h
    simp only [centerPrincipal, bind, Option.bind_eq_some_iff, U64.sum_eq_some, U64.sub_eq_some,
      U64.clamp_eq_some, pure, Option.some.injEq, Prod.mk.injEq] at hcenter
    obtain ⟨_, ⟨-, rfl⟩, _, ⟨-, rfl⟩, _, ⟨-, rfl⟩, pw, hpw, _, ⟨-, rfl⟩, _, ⟨-, rfl⟩, y,
      ⟨hbounds, hy⟩, _, ⟨hleft, rfl⟩, w₁, h₁, _, ⟨-, rfl⟩, _, ⟨-, rfl⟩, _, ⟨-, rfl⟩, w₂, h₂, rfl,
      rfl⟩ := hcenter
    next p offset width =>
    obtain ⟨hp, rfl⟩ := List.getElem?_eq_some_iff.mp hpw
    have hsplit := List.sum_take_add_sum_drop base p
    rw [List.drop_eq_getElem_cons hp, List.sum_cons] at hsplit
    -- the two bounds of the principal element's position meet
    have hleft₀ : y - (base.take p).sum = 0 := by omega
    have hright₀ : available - y - base[p] - (base.drop (p + 1)).sum = 0 := by omega
    rw [hleft₀] at h₁
    rw [hright₀] at h₂
    exact (hzero h₂).trans (hzero h₁)
  · simp only [bind, Option.bind_eq_some_iff, pure, Option.some.injEq, Prod.mk.injEq] at h
    obtain ⟨ws, hdist, rfl, -⟩ := h
    rw [hfull, Nat.sub_self] at hdist
    exact hzero hdist

/-- The groups that a run lays out, each with the width that it is given: the visible groups
of the bar, and the children of a group that is laid out. -/
inductive Reached {bar : BarSpec} {available : UInt32} {required : BTreeSet ItemId}
    {layout : ResolvedLayout} (r : Run bar available required layout) : GroupSpec → ℕ → Prop where
  | top {k : ℕ} {g : GroupSpec} {w : ℕ} (he : bar.elements[k]? = some (.group g))
      (hv : r.visible[k]? = some true) (hw : r.widths[k]? = some w) : Reached r g w
  | child {g child : GroupSpec} {w w' k : ℕ} {active : List GroupElement} {ws : List ℕ}
      (h : Reached r g w) (hactive : activeElements g.elements = some active)
      (hws : childWidths g.layout active (w - gapsOf g.spacing active.length) = some ws)
      (he : active[k]? = some (.group child)) (hw : ws[k]? = some w') : Reached r child w'

/-- A width that a group can be laid out in. -/
structure Suits (g : GroupSpec) (w : ℕ) : Prop where
  items_wf : ∀ i ∈ g.items, i.WF
  sized : ∃ s, groupSizing g = ok s ∧ s.minimum ≤ w ∧ w ≤ s.maximum
  small : w < 2 ^ 32

lemma mem_of_mem_activeElements {es active : List GroupElement}
    (h : activeElements es = some active) : ∀ e ∈ active, e ∈ es := by
  induction es generalizing active with
  | nil =>
    obtain rfl := Option.some.inj h
    simp
  | cons d es ih =>
    simp only [activeElements, bind, Option.bind_eq_some_iff, pure, Option.some.injEq] at h
    obtain ⟨s, -, rest, hrest, h⟩ := h
    intro e he
    split_ifs at h
    · rw [← h] at he
      rcases List.mem_cons.mp he with rfl | he
      · exact List.mem_cons_self
      · exact List.mem_cons_of_mem _ (ih hrest e he)
    · rw [← h] at he
      exact List.mem_cons_of_mem _ (ih hrest e he)

/-- How a group divides a width that suits it, if it has an active child. -/
lemma Suits.divides {g : GroupSpec} {w : ℕ} (h : Suits g w) :
    ∃ active ss, activeElements g.elements = some active ∧ Sized active ss ∧
      (∀ s ∈ ss, s.WF) ∧ (∀ e ∈ active, ∀ i ∈ e.items, i.WF) ∧
      (active ≠ [] → gapsOf g.spacing active.length ≤ w ∧
        ∃ ws, childWidths g.layout active (w - gapsOf g.spacing active.length) = some ws ∧
          Allowed ss ws ∧ ws.sum = w - gapsOf g.spacing active.length) := by
  obtain ⟨s, hs, hmin, hmax⟩ := h.sized
  obtain ⟨all, hsized, hcomb⟩ := groupSizing_eq_ok.mp hs
  obtain ⟨active, hactive, hactiveSized⟩ := activeElements_sized hsized
  have hitems : ∀ e ∈ g.elements, ∀ i ∈ e.items, i.WF := fun e he i hi =>
    h.items_wf i (by rw [GroupSpec.items_eq]; exact List.mem_flatMap.mpr ⟨e, he, hi⟩)
  have hwf : ∀ t ∈ all.filter fun t => 0 < t.maximum, t.WF := by
    intro t ht
    obtain ⟨e, he, het⟩ := forall₂_exists_left hsized (List.mem_filter.mp ht).1
    exact (groupElementSizing_wf het (hitems e he)).1
  have hlen : active.length = (all.filter fun t => 0 < t.maximum).length :=
    hactiveSized.length_eq
  refine ⟨active, _, hactive, hactiveSized, hwf, ?_, fun hne => ?_⟩
  · exact fun e he => hitems e (mem_of_mem_activeElements hactive e he)
  · have hne' : (all.filter fun t => 0 < t.maximum) ≠ [] := by
      intro hnil
      rw [hnil, List.length_nil] at hlen
      exact hne (List.length_eq_zero_iff.mp hlen)
    have hcombined := combined_of_combineSizing hne' hcomb
    have hgaps : gapsOf g.spacing active.length ≤ w := by
      rw [hlen]
      generalize g.layout = layout at hcombined
      cases hcombined <;> simp only at hmin <;> omega
    have hreturns : ∃ ws, childWidths g.layout active
        (w - gapsOf g.spacing (all.filter fun t => 0 < t.maximum).length) = some ws :=
      childWidths_returns hactiveSized hwf hne' hcomb hmin hmax h.small
    obtain ⟨ws, hws⟩ := hreturns
    rw [← hlen] at hws
    have hall := childWidths_allowed hactiveSized hwf hne' hcombined hmin hmax
      (by rw [← hlen]; exact hgaps) (by rw [← hlen]; exact hws)
    rw [← hlen] at hall
    exact ⟨hgaps, ws, hws, hall.1, hall.2⟩

section Levels

variable {bar : BarSpec} {available : UInt32} {required : BTreeSet ItemId}
  {layout : ResolvedLayout}

/-- Every group is given a width that suits it. -/
lemma Reached.suits {r : Run bar available required layout} {g : GroupSpec} {w : ℕ}
    (h : Reached r g w) : Suits g w := by
  induction h with
  | @top k g w he hv hw =>
    obtain ⟨s, hs, hmin, hmax⟩ := r.width_allowed he hv hw
    have hitems : ∀ i ∈ g.items, i.WF := fun i hi =>
      r.validBar.items_wf i (List.mem_flatMap.mpr ⟨_, List.mem_of_getElem? he, hi⟩)
    refine ⟨hitems, ⟨s, hs, hmin, hmax⟩, ?_⟩
    -- no width of content exceeds the bar
    obtain ⟨e, he', hc⟩ := r.contentOnly k hv
    rw [r.widths_spec.2.1 k e he' hc] at hw
    have hle : w ≤ r.base.sum := List.single_le_sum (by simp) w (List.mem_of_getElem? hw)
    have hbase := r.base_spec.2.2
    have havailable := available.toNat_lt
    omega
  | @child g child w w' k active ws h hactive hws he hw ih =>
    obtain ⟨active', ss, hactive', hsized, -, hitems, hdivides⟩ := ih.divides
    obtain rfl : active' = active := Option.some.inj (hactive'.symm.trans hactive)
    have hmem := List.mem_of_getElem? he
    obtain ⟨-, ws', hws', hallowed, hsum⟩ := hdivides (List.ne_nil_of_mem hmem)
    obtain rfl : ws = ws' := Option.some.inj (hws.symm.trans hws')
    obtain ⟨hk, hchild⟩ := List.getElem?_eq_some_iff.mp he
    obtain ⟨hkw, rfl⟩ := List.getElem?_eq_some_iff.mp hw
    have hks : k < ss.length := by
      rw [← hsized.length_eq]
      exact hk
    have hs := hsized.get hk hks
    have hbounds := hallowed.get hks hkw
    simp only [List.get_eq_getElem, hchild, groupElementSizing_group] at hs hbounds
    refine ⟨hitems _ hmem, ⟨_, hs, hbounds⟩, ?_⟩
    have hle : ws[k] ≤ ws.sum := List.single_le_sum (by simp) _ (List.getElem_mem hkw)
    have hsmall := ih.small
    omega

/-- Compression is ordered and exact at every level that a run reaches.  On the bar, the
visible content is compressed in order; if the preferred widths do not fit, the widths with
the spaces fill the bar exactly, and if they fit they are all given.  A natural group whose
content width is below the preferred widths of its active children compresses them in order,
and their widths with the gaps fill the group exactly. -/
theorem compression_ordered_exact (r : Run bar available required layout) :
    (∃ order, CompressionOrder (shownPriority bar.elements r.visible) order ∧
      Compressed order (rowWidths Sizing.minimum bar.elements r.visible r.sizing)
        (rowWidths Sizing.preferred bar.elements r.visible r.sizing) r.widths) ∧
    (available.toNat < (rowWidths Sizing.preferred bar.elements r.visible r.sizing).sum →
      r.widths.sum = available.toNat) ∧
    ((rowWidths Sizing.preferred bar.elements r.visible r.sizing).sum ≤ available.toNat →
      ∀ k : ℕ, r.visible[k]? = some true → r.widths[k]? =
        (rowWidths Sizing.preferred bar.elements r.visible r.sizing)[k]?) ∧
    ∀ g w, Reached r g w → g.layout = .natural →
      ∃ active ss, activeElements g.elements = some active ∧ Sized active ss ∧
        (w - gapsOf g.spacing active.length < (ss.map Sizing.preferred).sum →
          ∃ ws, childWidths g.layout active (w - gapsOf g.spacing active.length) = some ws ∧
            (∃ order, CompressionOrder
                (fun k => active[k]?.map groupElementCompressionPriority) order ∧
              Compressed order (ss.map Sizing.minimum) (ss.map Sizing.preferred) ws) ∧
            ws.sum + gapsOf g.spacing active.length = w) := by
  obtain ⟨_, -, -, htotal⟩ := r.hidden_spec
  obtain ⟨⟨order, horder, hcompressed⟩, hfull, hroomy⟩ := compressToFit_compressed
    r.length_visible r.length_sizing r.sizing_wf (htotal ▸ r.fits) r.base_eq
  have hkept : ∀ k : ℕ, r.visible[k]? = some true → r.widths[k]? = r.base[k]? := by
    intro k hv
    obtain ⟨e, he, hc⟩ := r.contentOnly k hv
    exact r.widths_spec.2.1 k e he hc
  refine ⟨⟨order, horder, hcompressed.congr fun k hk => hkept k ?_⟩, fun hlt => ?_,
    fun hle k hv => ?_, fun g w hreached hnatural => ?_⟩
  · obtain ⟨p, hp⟩ := (horder.mem_iff k).mp hk
    rw [shownPriority] at hp
    split_ifs at hp with hv
    exact hv
  · have hbase := hfull hlt
    rw [distribute_of_full hbase r.widths_eq]
    exact hbase
  · rw [hkept k hv, hroomy hle]
  · have hsuits := hreached.suits
    obtain ⟨active, ss, hactive, hsized, hwf, -, hdivides⟩ := hsuits.divides
    refine ⟨active, ss, hactive, hsized, fun hlt => ?_⟩
    have hne : active ≠ [] := by
      rintro rfl
      cases hsized
      simp at hlt
    obtain ⟨hgaps, ws, hws, -, hsum⟩ := hdivides hne
    refine ⟨ws, hws, ?_, by omega⟩
    rw [hnatural, childWidths] at hws
    exact naturalChildWidths_compressed hsized hwf hws hlt

/-- A bar of two items that do not fit at their preferred widths, next to a space. -/
def tightBar : BarSpec where
  elements := [.item (ItemSpec.new "clock" 20 50 50), .fixedSpace 10,
    .item (ItemSpec.new "volume" 20 60 60)]
  principalItem := none

/-- The later item gives way first. -/
theorem compression_ordered_exact_tightBar :
    ∃ layout, resolve tightBar 100 .empty = ok layout ∧
      ∃ r : Run tightBar 100 .empty layout,
        (rowWidths Sizing.preferred tightBar.elements r.visible r.sizing).sum ≤ (100 : UInt32).toNat
          ∨ r.widths.sum = (100 : UInt32).toNat := by
  have h : ∃ layout, resolve tightBar 100 .empty = ok layout :=
    ⟨⟨[⟨⟨"clock"⟩, 0, 50⟩, ⟨⟨"volume"⟩, 60, 40⟩], [], 100⟩, by decide⟩
  obtain ⟨layout, h⟩ := h
  obtain ⟨r⟩ := resolve_eq_ok h
  refine ⟨layout, h, r, ?_⟩
  rcases Nat.lt_or_ge (100 : UInt32).toNat
    (rowWidths Sizing.preferred tightBar.elements r.visible r.sizing).sum with hlt | hge
  · exact .inr ((compression_ordered_exact r).2.1 hlt)
  · exact .inl hge

end Levels

end TouchBar.Layout
