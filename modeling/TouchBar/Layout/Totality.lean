import TouchBar.Layout.Bounds
import TouchBar.Layout.Geometry

/-!
# The resolver returns

`resolve` subtracts widths from one another, narrows them to `u32`, and asserts that its loops
have used up what they had to share out.  Each of these steps is safe by what the steps before
it did: sizes are bounded by the count of the bar, a group gets a width between its minimum and
its maximum, a compressed row fits, and the two sides of the principal item keep within their
room.  So the resolver returns a layout or one of its errors.
-/

namespace TouchBar.Layout

open TouchBar.Rust TouchBar.Lib Outcome

/-! ## The loops -/

lemma shrinkOne_eq {widths : List ℕ} {index minimum excess a : ℕ} (ha : widths[index]? = some a)
    (hle : minimum ≤ a) : shrinkOne widths index minimum excess =
      some (widths.set index (a - min (a - minimum) excess),
        excess - min (a - minimum) excess) := by
  have h1 : U64.sub a minimum = some (a - minimum) := U64.sub_eq_some.mpr ⟨hle, rfl⟩
  have h2 : U64.sub a (min (a - minimum) excess) = some (a - min (a - minimum) excess) :=
    U64.sub_eq_some.mpr ⟨by omega, rfl⟩
  have h3 : U64.sub excess (min (a - minimum) excess) =
      some (excess - min (a - minimum) excess) := U64.sub_eq_some.mpr ⟨by omega, rfl⟩
  simp [shrinkOne, ha, h1, h2, h3]

/-- Candidates at distinct positions that are at least at their minimums are compressed. -/
lemma compressLoop_returns {cs : List (ℤ × ℕ × ℕ)} :
    ∀ {w : List ℕ} {e : ℕ}, ((cs.map Prod.snd).map Prod.fst).Nodup →
      (∀ c ∈ cs.map Prod.snd, ∃ a, w[c.1]? = some a ∧ c.2 ≤ a) →
      ∃ w' e', compressLoop cs w e = some (w', e') := by
  induction cs with
  | nil => exact fun _ _ => ⟨_, _, rfl⟩
  | cons c cs ih =>
    intro w e hnodup hfloor
    obtain ⟨p, index, minimum⟩ := c
    rw [List.map_cons, List.map_cons, List.nodup_cons] at hnodup
    rw [compressLoop]
    split_ifs with he
    · exact ⟨_, _, rfl⟩
    · obtain ⟨a, ha, hle⟩ := hfloor (index, minimum) (by simp)
      rw [shrinkOne_eq ha hle]
      refine ih hnodup.2 fun c hc => ?_
      obtain ⟨b, hb, hcb⟩ := hfloor c (List.mem_cons_of_mem _ hc)
      have hne : index ≠ c.1 := by
        rintro rfl
        exact hnodup.1 (List.mem_map.mpr ⟨c, hc, rfl⟩)
      exact ⟨b, by rwa [List.getElem?_set_ne hne], hcb⟩

lemma compressChildrenLoop_returns {sizing : List Sizing} {cs : List (ℤ × ℕ)} :
    ∀ {w : List ℕ} {e : ℕ}, (cs.map Prod.snd).Nodup →
      (∀ k ∈ cs.map Prod.snd, ∃ s a, sizing[k]? = some s ∧ w[k]? = some a ∧ s.minimum ≤ a) →
      ∃ w' e', compressChildrenLoop sizing cs w e = some (w', e') := by
  induction cs with
  | nil => exact fun _ _ => ⟨_, _, rfl⟩
  | cons c cs ih =>
    intro w e hnodup hfloor
    obtain ⟨p, index⟩ := c
    rw [List.map_cons, List.nodup_cons] at hnodup
    obtain ⟨s, a, hs, ha, hle⟩ := hfloor index (by simp)
    rw [compressChildrenLoop, hs]
    simp only [bind, Option.bind_some, shrinkOne_eq ha hle]
    split_ifs with he
    · exact ⟨_, _, rfl⟩
    · refine ih hnodup.2 fun k hk => ?_
      obtain ⟨t, b, ht, hb, htb⟩ := hfloor k (List.mem_cons_of_mem _ hk)
      have hne : index ≠ k := by
        rintro rfl
        exact hnodup.1 hk
      exact ⟨t, b, ht, by rwa [List.getElem?_set_ne hne], htb⟩

/-- A round of growth assigns at most what there is, and something if a position is below its
maximum. -/
lemma growPass_returns {share extra : ℕ} (hshare : 0 < share) (hextra : extra < U64.size)
    {ss : List Sizing} (hmax : ∀ s ∈ ss, s.maximum < U64.size) :
    ∀ {w : List ℕ} {a : ℕ}, a ≤ extra →
      ∃ w' a', growPass share extra w ss a = some (w', a') ∧ a ≤ a' ∧ a' ≤ extra ∧
        (growable w ss ≠ 0 → a < extra → a < a') := by
  induction ss with
  | nil =>
    intro w a ha
    exact ⟨w, a, by simp [growPass], le_rfl, ha, by simp [growable]⟩
  | cons s ss ih =>
    intro w a ha
    cases w with
    | nil => exact ⟨[], a, by simp [growPass], le_rfl, ha, by simp [growable]⟩
    | cons b w =>
      replace ih := @ih fun t ht => hmax t (List.mem_cons_of_mem _ ht)
      have hs := hmax s List.mem_cons_self
      rw [growPass]
      split_ifs with hc
      · -- the position takes its share: at least one pixel
        have h1 : U64.sub s.maximum b = some (s.maximum - b) :=
          U64.sub_eq_some.mpr ⟨by omega, rfl⟩
        have h2 : U64.sub extra a = some (extra - a) := U64.sub_eq_some.mpr ⟨by omega, rfl⟩
        have h3 : U64.add b (min (min (s.maximum - b) share) (extra - a)) =
            some (b + min (min (s.maximum - b) share) (extra - a)) :=
          U64.add_eq_some.mpr ⟨by omega, rfl⟩
        have h4 : U64.add a (min (min (s.maximum - b) share) (extra - a)) =
            some (a + min (min (s.maximum - b) share) (extra - a)) :=
          U64.add_eq_some.mpr ⟨by omega, rfl⟩
        obtain ⟨w', a', hrest, hle, hle', -⟩ :=
          @ih w (a + min (min (s.maximum - b) share) (extra - a)) (by omega)
        refine ⟨(b + min (min (s.maximum - b) share) (extra - a)) :: w', a', ?_, by omega, hle',
          fun _ _ => by omega⟩
        simp only [h1, h2, bind, Option.bind_some]
        rw [h3, Option.bind_some, h4, Option.bind_some, hrest]
        rfl
      · obtain ⟨w', a', hrest, hle, hle', hgrow⟩ := @ih w a ha
        refine ⟨b :: w', a', by simp [hrest], hle, hle', fun hg hlt => ?_⟩
        refine hgrow ?_ hlt
        have hb : ¬ b < s.maximum := fun hb => hc ⟨hb, hlt⟩
        simpa [growable, hb] using hg

/-- `extra` rounds are enough. -/
lemma growLoop_returns {ss : List Sizing} (hmax : ∀ s ∈ ss, s.maximum < U64.size) :
    ∀ {rounds : ℕ} {w : List ℕ} {extra : ℕ}, extra ≤ rounds → extra < U64.size →
      ∃ w' e', growLoop ss rounds w extra = some (w', e') := by
  intro rounds
  induction rounds with
  | zero =>
    intro w extra hle hextra
    obtain rfl : extra = 0 := by omega
    exact ⟨w, 0, by simp [growLoop]⟩
  | succ rounds ih =>
    intro w extra hle hextra
    rw [growLoop]
    split_ifs with he hg
    · exact ⟨_, _, rfl⟩
    · exact ⟨_, _, rfl⟩
    · obtain ⟨w', a, hpass, -, ha, hpos⟩ := @growPass_returns
        (max (extra / growable w ss) 1) extra (by omega) hextra ss hmax w 0 (Nat.zero_le _)
      replace hpos := hpos hg (by omega)
      have hassert : assert (0 < a) = some () := by simp [hpos]
      have hsub : U64.sub extra a = some (extra - a) := U64.sub_eq_some.mpr ⟨ha, rfl⟩
      simp only [hpass, hassert, hsub, bind, Option.bind_some]
      exact ih (by omega) (by omega)

/-- The room between the widths and their maximums. -/
def growthRoom (widths : List ℕ) (sizing : List Sizing) : ℕ :=
  (List.zipWith (fun width s => s.maximum - width) widths sizing).sum

lemma sum_add_growthRoom {w : List ℕ} {ss : List Sizing}
    (hcap : List.Forall₂ (· ≤ ·) w (ss.map Sizing.maximum)) :
    w.sum + growthRoom w ss = (ss.map Sizing.maximum).sum := by
  induction ss generalizing w with
  | nil =>
    cases hcap
    rfl
  | cons s ss ih =>
    cases hcap with
    | @cons b _ w _ hb hcap =>
      have hrest := ih hcap
      rw [growthRoom] at hrest ⊢
      rw [List.zipWith_cons_cons, List.map_cons, List.sum_cons, List.sum_cons, List.sum_cons]
      omega

/-- The loop ends after at most `extra` rounds, with each round assigning something, and adds as
much as there is room for; the assertion after it holds exactly if there was room for all. -/
theorem growWidths_exact (widths : List ℕ) (sizing : List Sizing) (extra : ℕ)
    (hmaximum : ∀ s ∈ sizing, s.maximum < U64.size) (hextra : extra < U64.size)
    (hcap : List.Forall₂ (· ≤ ·) widths (sizing.map Sizing.maximum)) :
    ∃ grown left, growLoop sizing extra widths extra = some (grown, left) ∧
      grown.sum = widths.sum + min extra (growthRoom widths sizing) ∧
      left = extra - min extra (growthRoom widths sizing) ∧
      List.Forall₂ (· ≤ ·) widths grown ∧
      List.Forall₂ (· ≤ ·) grown (sizing.map Sizing.maximum) ∧
      (extra ≤ growthRoom widths sizing → growWidths widths sizing extra = some grown) ∧
      (growthRoom widths sizing < extra → growWidths widths sizing extra = none) := by
  obtain ⟨grown, left, hloop⟩ := @growLoop_returns sizing hmaximum extra widths extra le_rfl hextra
  have hgrow := growLoop_grow hloop hcap
  have hroom := sum_add_growthRoom hcap
  have htotal := hgrow.sum_eq
  have hmax := hgrow.le_cap.sum_le_sum
  -- what is left over shows that every position is full
  have hleft : left = extra - min extra (growthRoom widths sizing) := by
    rcases Nat.eq_zero_or_pos left with hzero | hpos
    · omega
    · have hfull := hgrow.full hpos
      subst hfull
      omega
  refine ⟨grown, left, hloop, by omega, hleft, hgrow.le, hgrow.le_cap, fun hfits => ?_,
    fun hmore => ?_⟩
  · have hzero : left = 0 := by omega
    rw [growWidths, hloop]
    simp [assert, hzero]
  · have hpos : left ≠ 0 := by omega
    rw [growWidths, hloop]
    simp [assert, hpos]

theorem growWidths_exact_full :
    ∃ grown left, growLoop [⟨0, 1, 4⟩, ⟨0, 2, 2⟩, ⟨0, 1, 3⟩] 9 [1, 2, 1] 9 = some (grown, left) ∧
      grown.sum = 4 + min 9 5 ∧ left = 9 - min 9 5 := by
  obtain ⟨grown, left, hloop, hsum, hleft, -⟩ := growWidths_exact [1, 2, 1]
    [⟨0, 1, 4⟩, ⟨0, 2, 2⟩, ⟨0, 1, 3⟩] 9 (by decide) (by decide) (by decide)
  exact ⟨grown, left, hloop, hsum, hleft⟩

lemma equalChildWidths_returns {n c : ℕ} (hn : n ≠ 0) (hc : c + 1 < U64.size) :
    ∃ w, equalChildWidths n c = some w := by
  have hdiv : c / n ≤ c := Nat.div_le_self c n
  have hmap : ∀ l : List ℕ, ∃ w,
      (l.mapM fun index => U64.add (c / n) (if index < c % n then 1 else 0)) = some w := by
    intro l
    induction l with
    | nil => exact ⟨[], rfl⟩
    | cons i l ih =>
      obtain ⟨w, hw⟩ := ih
      have hadd : U64.add (c / n) (if i < c % n then 1 else 0) =
          some (c / n + if i < c % n then 1 else 0) :=
        U64.add_eq_some.mpr ⟨by split_ifs <;> omega, rfl⟩
      exact ⟨_, by rw [List.mapM_cons, hadd, hw]; rfl⟩
  obtain ⟨w, hw⟩ := hmap (List.range n)
  exact ⟨w, by simp [equalChildWidths, assert, hn, hw]⟩

/-! ## Groups -/

/-- The sums over the children of a natural group did not overflow when it was sized. -/
lemma sum_maximum_lt_size {id : String} {spacing : UInt32} {children : List Sizing} {s : Sizing}
    (h : combineSizing id .natural spacing children = ok s) :
    (children.map Sizing.maximum).sum < U64.size := by
  by_cases hne : children = []
  · subst hne
    simp [U64.size]
  have hemp : children.isEmpty = false := by simpa using hne
  rw [combineSizing, hemp] at h
  simp only [Bool.false_eq_true, if_false, bind_eq_ok, check_eq_ok, U64.mul_eq_some,
    U64.sum_eq_some, U64.add_eq_some, pure_eq, ok.injEq] at h
  obtain ⟨_, -, _, -, _, -, _, -, _, -, _, ⟨hlt, -⟩, -⟩ := h
  exact hlt

lemma naturalChildWidths_returns {es : List GroupElement} {ss : List Sizing} {c : ℕ}
    (hsized : Sized es ss) (hwf : ∀ s ∈ ss, s.WF)
    (hmin : (ss.map Sizing.minimum).sum ≤ c) (hmax : c ≤ (ss.map Sizing.maximum).sum)
    (hsize : (ss.map Sizing.maximum).sum < U64.size) :
    ∃ ws, naturalChildWidths es c = some ws := by
  have hss : groupElementsSizing es = ok ss := groupElementsSizing_eq_ok.mpr hsized
  have hpref : (ss.map Sizing.preferred).sum ≤ (ss.map Sizing.maximum).sum :=
    List.sum_le_sum fun s hs => (hwf s hs).le_max
  have hsum : U64.sum (ss.map Sizing.preferred) = some (ss.map Sizing.preferred).sum :=
    U64.sum_eq_some.mpr ⟨by omega, rfl⟩
  have hlow : List.Forall₂ (· ≤ ·) (ss.map Sizing.minimum) (ss.map Sizing.preferred) := by
    rw [List.forall₂_map_left_iff, List.forall₂_map_right_iff, List.forall₂_same]
    exact fun s hs => (hwf s hs).min_le
  have hhigh : List.Forall₂ (· ≤ ·) (ss.map Sizing.preferred) (ss.map Sizing.maximum) := by
    rw [List.forall₂_map_left_iff, List.forall₂_map_right_iff, List.forall₂_same]
    exact fun s hs => (hwf s hs).le_max
  rw [naturalChildWidths, hss]
  simp only [expect, hsum, bind, Option.bind_some]
  split_ifs with hlt hgt
  · have hsub : U64.sub (ss.map Sizing.preferred).sum c =
        some ((ss.map Sizing.preferred).sum - c) := U64.sub_eq_some.mpr ⟨hlt.le, rfl⟩
    have hperm := candidates_perm es
    obtain ⟨w', e', hloop⟩ := @compressChildrenLoop_returns ss
      ((es.zipIdx.map fun e => (groupElementCompressionPriority e.1, e.2)).insertionSort
        CompressesBefore) (ss.map Sizing.preferred) ((ss.map Sizing.preferred).sum - c)
      (hperm.nodup_iff.mpr List.nodup_range) (by
        intro k hk
        have hlen : k < ss.length := by
          rw [← hsized.length_eq]
          exact List.mem_range.mp (hperm.mem_iff.mp hk)
        exact ⟨ss[k], ss[k].preferred, List.getElem?_eq_getElem hlen, by simp [hlen],
          (hwf _ (List.getElem_mem hlen)).min_le⟩)
    obtain ⟨-, -, htotal, hleft⟩ := compressChildren_spec hsized.length_eq hlow hloop
    -- an excess that is left over would mean that the minimums do not fit
    have hzero : e' = 0 := by
      by_contra hne
      have hw := hleft (by omega)
      subst hw
      omega
    simp only [hsub, hloop, hzero, Option.bind_some]
    exact ⟨w', by simp [assert]⟩
  · have hsub : U64.sub c (ss.map Sizing.preferred).sum =
        some (c - (ss.map Sizing.preferred).sum) := U64.sub_eq_some.mpr ⟨by omega, rfl⟩
    have hbound : ∀ s ∈ ss, s.maximum < U64.size := by
      intro s hs
      have := List.single_le_sum (by simp) _ (List.mem_map_of_mem (f := Sizing.maximum) hs)
      omega
    obtain ⟨w', e', hloop⟩ := @growLoop_returns ss hbound (c - (ss.map Sizing.preferred).sum)
      (ss.map Sizing.preferred) (c - (ss.map Sizing.preferred).sum) le_rfl (by omega)
    have hg := growLoop_grow hloop hhigh
    have htotal := hg.sum_eq
    -- something left over would mean that the maximums are too small
    have hzero : e' = 0 := by
      by_contra hne
      have hw := hg.full (by omega)
      subst hw
      omega
    simp only [hsub, growWidths, bind, hloop, hzero, Option.bind_some]
    exact ⟨w', by simp [assert]⟩
  · exact ⟨_, rfl⟩

/-- Both ways of dividing the content width of a group succeed. -/
lemma childWidths_returns {id : String} {layout : GroupLayout} {spacing : UInt32}
    {act : List GroupElement} {ss : List Sizing} {s : Sizing} {w : ℕ} (hsized : Sized act ss)
    (hwf : ∀ t ∈ ss, t.WF) (hne : ss ≠ [])
    (hcomb : combineSizing id layout spacing ss = ok s) (hmin : s.minimum ≤ w)
    (hmax : w ≤ s.maximum) (hw : w < 2 ^ 32) :
    ∃ ws, childWidths layout act (w - gapsOf spacing ss.length) = some ws := by
  cases layout with
  | natural =>
    have hsize := sum_maximum_lt_size hcomb
    cases combined_of_combineSizing hne hcomb
    simp only at hmin hmax
    exact naturalChildWidths_returns hsized hwf (by omega) (by omega) hsize
  | equalWidth =>
    have hlen : act.length ≠ 0 := by
      rw [hsized.length_eq]
      simpa using hne
    exact equalChildWidths_returns hlen (by simp only [U64.size]; omega)

lemma placeItem_returns {i : ItemSpec} {x w : ℕ} (h : x + w < 2 ^ 32) :
    ∃ p, placeItem i x w = some p := by
  have hx : U32.tryFrom x = some (UInt32.ofNat x) := if_pos (by simp only [UInt32.size]; omega)
  have hw : U32.tryFrom w = some (UInt32.ofNat w) := if_pos (by simp only [UInt32.size]; omega)
  exact ⟨⟨i.id, UInt32.ofNat x, UInt32.ofNat w⟩, by simp [placeItem, hx, hw]⟩

/-- No active child is left when no width is left. -/
lemma layoutChildren_nil_returns {spacing : UInt32} {es : List GroupElement} {ss : List Sizing}
    (hsized : Sized es ss) {x : ℕ} : ∃ ps, layoutChildren spacing es [] x = some ps := by
  induction hsized with
  | nil => exact ⟨[], by rw [layoutChildren]⟩
  | @cons e s es ss hs _ ih =>
    rw [layoutChildren]
    simp only [hs, expect, bind, Option.bind_some]
    split_ifs
    · exact ⟨[], rfl⟩
    · exact ih

/-- The final loop returns, if each active child can be laid out in its width and the row of
children ends within 32 bits. -/
lemma layoutChildren_returns {spacing : UInt32} {es : List GroupElement} {ss : List Sizing}
    (hsized : Sized es ss)
    (hchild : ∀ e ∈ es, ∀ s, groupElementSizing e = ok s → ∀ {x w}, s.minimum ≤ w →
      w ≤ s.maximum → x + w < 2 ^ 32 → ∃ ps, layoutGroupElement e x w = some ps) :
    ∀ {ws : List ℕ} {x : ℕ}, Allowed (ss.filter fun s => 0 < s.maximum) ws →
      x + ws.sum + gapsOf spacing ws.length < 2 ^ 32 →
      ∃ ps, layoutChildren spacing es ws x = some ps := by
  induction hsized with
  | nil =>
    intro ws x _ _
    exact ⟨[], by rw [layoutChildren]⟩
  | @cons e s es ss hs hrest ih =>
    intro ws x hws hfit
    replace ih := @ih fun e he => hchild e (List.mem_cons_of_mem _ he)
    rw [layoutChildren.eq_def]
    simp only [hs, expect, bind, Option.bind_some]
    split_ifs with hpos
    · rw [List.filter_cons_of_pos (by simpa using hpos)] at hws
      cases hws with
      | @cons _ w _ ws hw hws =>
        rw [List.sum_cons, List.length_cons] at hfit
        obtain ⟨here, hhere⟩ := hchild e List.mem_cons_self s hs hw.1 hw.2
          (show x + w < 2 ^ 32 by omega)
        have hspacing := toNat_le_max spacing
        have hadvance : U64.add w spacing.toNat = some (w + spacing.toNat) :=
          U64.add_eq_some.mpr ⟨by simp only [U64.size]; omega, rfl⟩
        have hnext : U64.add x (w + spacing.toNat) = some (x + (w + spacing.toNat)) :=
          U64.add_eq_some.mpr ⟨by simp only [U64.size]; omega, rfl⟩
        have hlast : ∃ ps, layoutChildren spacing es ws (x + (w + spacing.toNat)) = some ps := by
          cases ws with
          | nil => exact layoutChildren_nil_returns hrest
          | cons w' ws =>
            refine ih hws ?_
            simp only [gapsOf, List.length_cons, Nat.add_sub_cancel] at hfit ⊢
            have : spacing.toNat * (ws.length + 1) =
                spacing.toNat * ws.length + spacing.toNat := by
              ring
            omega
        obtain ⟨rest, hrest⟩ := hlast
        exact ⟨here ++ rest, by simp [hhere, hadvance, hnext, hrest]⟩
    · rw [List.filter_cons_of_neg (by simpa using hpos)] at hws
      exact ih hws hfit

/-- A group that is given a width between its minimum and its maximum, at a position from
which it ends within 32 bits, is laid out. -/
theorem layoutGroup_returns (g : GroupSpec) :
    ∀ {s : Sizing} {x w : ℕ}, groupSizing g = ok s → (∀ i ∈ g.items, i.WF) → s.minimum ≤ w →
      w ≤ s.maximum → x + w < 2 ^ 32 → ∃ ps, layoutGroup g x w = some ps := by
  induction g using GroupSpec.nested_induction with
  | step g ih =>
    intro s x w hs hitems hmin hmax hfit
    obtain ⟨ss, hsized, hcomb⟩ := groupSizing_eq_ok.mp hs
    rw [GroupSpec.items_eq] at hitems
    have hei : ∀ e ∈ g.elements, ∀ i ∈ e.items, i.WF :=
      fun e he i hi => hitems i (List.mem_flatMap.mpr ⟨e, he, hi⟩)
    have hchild : ∀ e ∈ g.elements, ∀ t, groupElementSizing e = ok t → ∀ {x w}, t.minimum ≤ w →
        w ≤ t.maximum → x + w < 2 ^ 32 → ∃ ps, layoutGroupElement e x w = some ps := by
      intro e he t ht x w h1 h2 h3
      cases e with
      | item i =>
        obtain ⟨p, hp⟩ := @placeItem_returns i x w h3
        exact ⟨[p], by simp [layoutGroupElement, hp]⟩
      | group child =>
        rw [layoutGroupElement]
        exact ih child he (by simpa using ht) (hei _ he) h1 h2 h3
    obtain ⟨act, hact, hactSized⟩ := activeElements_sized hsized
    obtain ⟨id, elements, layout, spacing, v, c⟩ := g
    rw [layoutGroup]
    simp only [hact, bind, Option.bind_some]
    by_cases hne : (ss.filter fun t => 0 < t.maximum) = []
    · have hnil : act = [] := by
        rw [hne] at hactSized
        cases hactSized
        rfl
      exact ⟨[], by simp [hnil]⟩
    · have hlen : act.length = (ss.filter fun t => 0 < t.maximum).length := hactSized.length_eq
      have hactne : act.isEmpty = false := by
        rw [List.isEmpty_eq_false_iff]
        rintro rfl
        exact hne (List.length_eq_zero_iff.mp hlen.symm)
      have hactwf : ∀ t ∈ ss.filter fun t => 0 < t.maximum, t.WF := by
        intro t ht
        obtain ⟨e, he, het⟩ := forall₂_exists_left hsized (List.mem_filter.mp ht).1
        exact (groupElementSizing_wf het (hei e he)).1
      have hcombined := combined_of_combineSizing hne hcomb
      -- the gaps are part of the minimum
      have hgaps : gapsOf spacing act.length ≤ w := by
        rw [hlen]
        cases hcombined <;> simp only at hmin <;> omega
      have hmul : U64.mul spacing.toNat (act.length - 1) = some (gapsOf spacing act.length) :=
        U64.mul_eq_some.mpr ⟨by simp only [gapsOf, U64.size] at hgaps ⊢; omega, rfl⟩
      have hsub : U64.sub w (gapsOf spacing act.length) = some (w - gapsOf spacing act.length) :=
        U64.sub_eq_some.mpr ⟨hgaps, rfl⟩
      obtain ⟨ws, hws⟩ := childWidths_returns hactSized hactwf hne hcomb hmin hmax (by omega)
      rw [← hlen] at hws
      rw [hlen] at hgaps hws
      obtain ⟨hallowed, hsum⟩ := childWidths_allowed hactSized hactwf hne hcombined hmin hmax
        hgaps hws
      have hwlen : ws.length = act.length := by rw [hlen]; exact hallowed.length_eq.symm
      rw [← hlen] at hgaps hws hsum
      simp only [hactne, Bool.false_eq_true, if_false, hmul, hsub, hws, Option.bind_some]
      refine layoutChildren_returns hsized hchild hallowed ?_
      have htotal : ws.sum = w - gapsOf spacing act.length := hsum
      rw [hwlen]
      omega

/-! ## Hiding -/

section Hiding

variable {es : List Element} {ss : List Sizing} {vs : List Bool} {t : ℕ}

/-- A unit can be hidden: what is visible is part of the total. -/
lemma hideUnit_returns (hss : ss.length = es.length) {ks : List ℕ} :
    ∀ {vs : List Bool} {t : ℕ}, (∀ k ∈ ks, k < es.length) → vs.length = es.length →
      ContentOnly es vs → t = demand es ss vs → ∃ vs' t', hideUnit ss ks vs t = some (vs', t') := by
  induction ks with
  | nil => exact fun _ _ _ _ => ⟨_, _, rfl⟩
  | cons k ks ih =>
    intro vs t hks hvs hc ht
    have hk := hks k List.mem_cons_self
    replace hks : ∀ l ∈ ks, l < es.length := fun l hl => hks l (List.mem_cons_of_mem _ hl)
    have hkv : k < vs.length := by omega
    have hshown : vs[k]? = some vs[k] := List.getElem?_eq_getElem hkv
    rw [hideUnit, hshown]
    cases hvisible : vs[k] with
    | false => simpa using ih hks hvs hc ht
    | true =>
      rw [hvisible] at hshown
      have hks' : k < ss.length := by omega
      have hs : ss[k]? = some ss[k] := List.getElem?_eq_getElem hks'
      obtain ⟨e, he, hec⟩ := hc k hshown
      have hw : (rowWidths Sizing.minimum es vs ss)[k]? = some ss[k].minimum :=
        getElem?_rowWidths.mpr ⟨e, true, ss[k], he, hshown, hs, by
          simp [elementWidth_of_isContent hec]⟩
      have hle : ss[k].minimum ≤ t := by
        obtain ⟨hlt, hget⟩ := List.getElem?_eq_some_iff.mp hw
        rw [ht, demand, ← hget]
        exact List.single_le_sum (by simp) _ (List.getElem_mem hlt)
      have hsub : U64.sub t ss[k].minimum = some (t - ss[k].minimum) :=
        U64.sub_eq_some.mpr ⟨hle, rfl⟩
      have hone : hideUnit ss [k] vs t = some (vs.set k false, t - ss[k].minimum) := by
        simp [hideUnit, hshown, hs, hsub]
      obtain ⟨hset, htotal⟩ := hideUnit_eq_some hone hc ht
      have hrest := ih hks (by rw [hset, length_hide]; exact hvs) (hset ▸ hc.hide [k]) htotal
      simpa [hs, hsub] using hrest

lemma hideLoop_returns (hss : ss.length = es.length) {available : ℕ} {us : List VisibilityUnit} :
    ∀ {vs : List Bool} {t : ℕ}, (∀ u ∈ us, ∀ k ∈ u.elements, k < es.length) →
      vs.length = es.length → ContentOnly es vs → t = demand es ss vs →
      ∃ vs' t', hideLoop ss available us vs t = some (vs', t') := by
  induction us with
  | nil => exact fun _ _ _ _ => ⟨_, _, rfl⟩
  | cons u us ih =>
    intro vs t hus hvs hc ht
    obtain ⟨v₁, t₁, hu⟩ := hideUnit_returns hss (hus u List.mem_cons_self) hvs hc ht
    obtain ⟨rfl, ht₁⟩ := hideUnit_eq_some hu hc ht
    rw [hideLoop]
    simp only [hu, bind, Option.bind_some]
    split_ifs
    · exact ⟨_, _, rfl⟩
    · exact ih (fun v hv => hus v (List.mem_cons_of_mem _ hv)) (by rw [length_hide]; exact hvs)
        (hc.hide _) ht₁

lemma hideToFit_returns (hss : ss.length = es.length) {available : ℕ}
    {units : List VisibilityUnit} (hunits : ∀ u ∈ units, ∀ k ∈ u.elements, k < es.length)
    (hvs : vs.length = es.length) (hc : ContentOnly es vs) (ht : t = demand es ss vs) :
    ∃ vs' t', hideToFit ss available units vs t = some (vs', t') := by
  rw [hideToFit]
  split_ifs
  · refine hideLoop_returns hss ?_ hvs hc ht
    intro u hu
    rw [List.mem_filter, List.mem_insertionSort] at hu
    exact hunits u hu.1
  · exact ⟨_, _, rfl⟩

end Hiding

/-! ## Compression of the bar -/

/-- The widths of a row are bounded by the count of the bar. -/
lemma sum_rowWidths_le {f : Sizing → ℕ} (hf : ∀ (s : Sizing) n, s.Within n →
    f s + 0xffffffff ≤ 2 * n * 0xffffffff) {es : List Element} {vs : List Bool}
    {ss : List Sizing} (h : List.Forall₂ (fun (e : Element) s => s.Within e.count) es ss) :
    (rowWidths f es vs ss).sum ≤ 2 * (es.map Element.count).sum * 0xffffffff := by
  induction h generalizing vs with
  | nil => simp [rowWidths]
  | @cons e s es ss hs _ ih =>
    rcases vs with _ | ⟨v, vs⟩
    · simp [rowWidths]
    have hrest := @ih vs
    have hfs := hf s e.count hs
    have hwidth : elementWidth f e v s + 0xffffffff ≤ 2 * e.count * 0xffffffff := by
      cases e with
      | item i =>
        simp only [elementWidth, Element.count] at hfs ⊢
        split_ifs <;> omega
      | group g =>
        simp only [elementWidth, Element.count] at hfs ⊢
        split_ifs <;> omega
      | fixedSpace w =>
        have hw := toNat_le_max w
        simp only [elementWidth, Element.count]
        omega
      | flexibleSpace m w =>
        have hm := toNat_le_max m
        simp only [elementWidth, Element.count]
        omega
    simp only [rowWidths, List.map_cons, List.sum_cons]
    omega

lemma compressToFit_returns {bar : BarSpec} {vs : List Bool} {ss : List Sizing} {available : ℕ}
    (hvs : vs.length = bar.elements.length) (hss : ss.length = bar.elements.length)
    (hwf : ∀ s ∈ ss, s.WF) (hfit : demand bar.elements ss vs ≤ available)
    (hsize : (rowWidths Sizing.preferred bar.elements vs ss).sum < U64.size) :
    ∃ base, compressToFit bar vs ss (rowWidths Sizing.preferred bar.elements vs ss) available =
      some base := by
  have hsum := U64.sum_eq_some.mpr ⟨hsize, rfl⟩
  have hperm := List.perm_insertionSort
    (fun l r : ℤ × ℕ × ℕ => CompressesBefore (l.1, l.2.1) (r.1, r.2.1))
    (compressionCandidates 0 bar.elements vs ss)
  have hnd : ((((compressionCandidates 0 bar.elements vs ss).insertionSort
      fun l r => CompressesBefore (l.1, l.2.1) (r.1, r.2.1)).map Prod.snd).map Prod.fst).Nodup := by
    rw [List.map_map, (hperm.map _).nodup_iff]
    exact pairwise_compressionCandidates.imp fun hlt => ne_of_lt hlt
  -- every candidate starts at its preferred width
  have hfloor : ∀ c ∈ ((compressionCandidates 0 bar.elements vs ss).insertionSort
      fun l r => CompressesBefore (l.1, l.2.1) (r.1, r.2.1)).map Prod.snd,
      ∃ a, (rowWidths Sizing.preferred bar.elements vs ss)[c.1]? = some a ∧ c.2 ≤ a := by
    rintro ⟨k, m⟩ hc
    obtain ⟨j, e, s, hk, he, hec, hv, hs, rfl⟩ :=
      mem_compressionCandidates.mp ((hperm.map _).mem_iff.mp hc)
    obtain rfl : k = j := by omega
    refine ⟨s.preferred, getElem?_rowWidths.mpr ⟨e, true, s, he, hv, hs, ?_⟩,
      (hwf s (List.mem_of_getElem? hs)).min_le⟩
    simp [elementWidth_of_isContent hec]
  obtain ⟨w', e', hloop⟩ := @compressLoop_returns _ _
    ((rowWidths Sizing.preferred bar.elements vs ss).sum - available) hnd hfloor
  have hsq := compressLoop_squeeze hloop
  have htotal := hsq.sum_eq
  have hle := hsq.left_le
  -- an excess that is left over would mean that the minimums do not fit
  have hzero : e' = 0 := by
    by_contra hne
    have hbase := hsq.eq_floors_of_left hnd (by omega)
      (by rw [length_rowWidths hvs hss, length_rowWidths hvs hss])
      fun i f => candidate_or_minimum hperm
    rw [hbase] at htotal
    rw [demand] at hfit
    omega
  rw [compressToFit]
  simp only [hsum, hloop, hzero, bind, Option.bind_some]
  exact ⟨w', by simp [assert]⟩

/-! ## Flexible space -/

lemma length_flexibleSpaces_le {lo hi : ℕ} {es : List Element} :
    ∀ {n : ℕ}, (flexibleSpaces lo hi n es).length ≤ es.length := by
  induction es with
  | nil => simp [flexibleSpaces]
  | cons e es ih =>
    intro n
    have h := @ih (n + 1)
    cases e with
    | flexibleSpace m w =>
      rw [flexibleSpaces]
      split_ifs
      · simp only [List.length_cons]
        omega
      · simp only [List.length_cons]
        omega
    | _ =>
      simp only [flexibleSpaces, List.length_cons]
      omega

lemma weight_le {lo hi : ℕ} {es : List Element} :
    ∀ {n : ℕ}, ∀ c ∈ flexibleSpaces lo hi n es, c.2 ≤ 0xffffffff := by
  induction es with
  | nil => simp [flexibleSpaces]
  | cons e es ih =>
    intro n c hc
    cases e with
    | flexibleSpace m w =>
      rw [flexibleSpaces] at hc
      split_ifs at hc
      · rcases List.mem_cons.mp hc with rfl | hc
        · exact toNat_le_max w
        · exact ih c hc
      · exact ih c hc
    | _ => exact ih c hc

/-- No space takes more than its part, so the last one finds something left or nothing. -/
lemma distributeLoop_returns {extra totalWeight : ℕ} (hextra : extra < 2 ^ 32)
    (htotal : 0 < totalWeight) {fl : List (ℕ × ℕ)} :
    ∀ {w : List ℕ} {a : ℕ}, (∀ c ∈ fl, c.1 < w.length ∧ c.2 ≤ 0xffffffff) →
      a * totalWeight + extra * (fl.map Prod.snd).sum ≤ extra * totalWeight → a ≤ extra →
      w.sum + (extra - a) < U64.size → ∃ w', distributeLoop extra totalWeight fl w a = some w' := by
  induction fl with
  | nil => exact fun _ _ _ _ => ⟨_, rfl⟩
  | cons c fl ih =>
    intro w a hfl hshare hle hsum
    obtain ⟨k, u⟩ := c
    obtain ⟨hk, hu⟩ : k < w.length ∧ u ≤ 0xffffffff := hfl (k, u) List.mem_cons_self
    have hwk : w[k] ≤ w.sum := List.single_le_sum (by simp) _ (List.getElem_mem hk)
    rw [List.map_cons, List.sum_cons, Nat.mul_add] at hshare
    -- what the space takes, and that the others still find their part
    obtain ⟨add, hadd, hfits, hrest⟩ : ∃ add,
        flexibleShare extra totalWeight u a fl.isEmpty = some add ∧ a + add ≤ extra ∧
          (a + add) * totalWeight + extra * (fl.map Prod.snd).sum ≤ extra * totalWeight := by
      cases fl with
      | nil =>
        refine ⟨extra - a, U64.sub_eq_some.mpr ⟨hle, rfl⟩, by omega, ?_⟩
        rw [Nat.add_sub_cancel' hle]
        simp
      | cons d fl =>
        have hproduct : extra * u ≤ 0xffffffff * 0xffffffff := Nat.mul_le_mul (by omega) hu
        have hmul : U64.mul extra u = some (extra * u) :=
          U64.mul_eq_some.mpr ⟨by simp only [U64.size]; omega, rfl⟩
        have hdiv : extra * u / totalWeight * totalWeight ≤ extra * u := Nat.div_mul_le_self _ _
        have hpart : (a + extra * u / totalWeight) * totalWeight +
            extra * ((d :: fl).map Prod.snd).sum ≤ extra * totalWeight := by
          calc
            _ = a * totalWeight + extra * u / totalWeight * totalWeight +
                extra * ((d :: fl).map Prod.snd).sum := by rw [Nat.add_mul]
            _ ≤ a * totalWeight + (extra * u + extra * ((d :: fl).map Prod.snd).sum) := by
              rw [Nat.add_assoc]
              exact Nat.add_le_add_left (Nat.add_le_add_right hdiv _) _
            _ ≤ extra * totalWeight := hshare
        refine ⟨extra * u / totalWeight, by simp [flexibleShare, hmul], ?_, hpart⟩
        exact Nat.le_of_mul_le_mul_right (le_trans (Nat.le_add_right _ _) hpart) htotal
    have hwidth : U64.add w[k] add = some (w[k] + add) := U64.add_eq_some.mpr ⟨by omega, rfl⟩
    have hassigned : U64.add a add = some (a + add) :=
      U64.add_eq_some.mpr ⟨by simp only [U64.size]; omega, rfl⟩
    have hset := sum_set hk (w[k] + add)
    rw [distributeLoop]
    simp only [hadd, List.getElem?_eq_getElem hk, hwidth, hassigned, bind, Option.bind_some]
    refine ih (fun c hc => ?_) hrest hfits (by omega)
    rw [List.length_set]
    exact hfl c (List.mem_cons_of_mem _ hc)

lemma distributeFlexibleSpace_returns {bar : BarSpec} (hcount : bar.count < 2 ^ 31) {w : List ℕ}
    {lo hi extra : ℕ} (hlen : w.length = bar.elements.length) (hextra : extra < 2 ^ 32)
    (hsum : w.sum + extra < U64.size) :
    ∃ w', distributeFlexibleSpace bar w lo hi extra = some w' := by
  have hbar : bar.elements.length ≤ bar.count := by
    have hone : ∀ e ∈ bar.elements, 1 ≤ e.count := by
      intro e _
      cases e with
      | group g =>
        change 1 ≤ g.count
        rw [g.count_eq]
        omega
      | _ => exact le_rfl
    have h := List.card_nsmul_le_sum (bar.elements.map Element.count) 1 (by simpa using hone)
    simpa [BarSpec.count] using h
  have hweights : ((flexibleSpaces lo hi 0 bar.elements).map Prod.snd).sum < U64.size := by
    have h := List.sum_le_card_nsmul ((flexibleSpaces lo hi 0 bar.elements).map Prod.snd)
      0xffffffff (by
        intro x hx
        obtain ⟨c, hc, rfl⟩ := List.mem_map.mp hx
        exact weight_le c hc)
    have hlength := @length_flexibleSpaces_le lo hi bar.elements 0
    rw [List.length_map, smul_eq_mul] at h
    simp only [U64.size]
    omega
  rw [distributeFlexibleSpace]
  split_ifs with hzero
  · exact ⟨_, rfl⟩
  · simp only [U64.sum_eq_some.mpr ⟨hweights, rfl⟩, bind, Option.bind_some]
    split_ifs with hnone
    · exact ⟨_, rfl⟩
    · refine distributeLoop_returns hextra (Nat.pos_of_ne_zero hnone) (fun c hc => ?_) (by simp)
        (Nat.zero_le _) (by simpa using hsum)
      obtain ⟨-, -, j, m, u, hj, he⟩ := mem_flexibleSpaces hc
      have hlt := (List.getElem?_eq_some_iff.mp he).1
      exact ⟨by omega, weight_le c hc⟩

/-! ## The principal item -/

lemma findVisible_eq_some {test : Element → Bool} {es : List Element} {k : ℕ} {e : Element} :
    ∀ {n : ℕ} {vs : List Bool}, findVisible test n es vs = some (k, e) →
      ∃ j, k = n + j ∧ es[j]? = some e ∧ vs[j]? = some true := by
  induction es with
  | nil => simp [findVisible]
  | cons e' es ih =>
    intro n vs h
    rcases vs with _ | ⟨v, vs⟩
    · simp [findVisible] at h
    rw [findVisible] at h
    split_ifs at h with htest
    · obtain ⟨rfl, rfl⟩ := Prod.mk.inj (Option.some.inj h)
      rw [Bool.and_eq_true] at htest
      exact ⟨0, rfl, rfl, by simp [htest.1]⟩
    · obtain ⟨j, rfl, he, hv⟩ := ih h
      exact ⟨j + 1, by omega, by simpa using he, by simpa using hv⟩

/-- Every visible element has a width that its sizing allows. -/
def RowAllowed (bar : BarSpec) (vs : List Bool) (ws : List ℕ) : Prop :=
  ∀ (k : ℕ) e w, bar.elements[k]? = some e → vs[k]? = some true → ws[k]? = some w →
    e.isContent = true ∧ ∃ s, elementSizing e = ok s ∧ s.minimum ≤ w ∧ w ≤ s.maximum

lemma layoutElement_returns {e : Element} {s : Sizing} {x w : ℕ}
    (hs : elementSizing e = ok s) (hitems : ∀ i ∈ e.items, i.WF) (hmin : s.minimum ≤ w)
    (hmax : w ≤ s.maximum) (hfit : x + w < 2 ^ 32) : ∃ ps, layoutElement e x w = some ps := by
  cases e with
  | item i =>
    obtain ⟨p, hp⟩ := @placeItem_returns i x w hfit
    exact ⟨[p], by simp [layoutElement, hp]⟩
  | group g => exact layoutGroup_returns g hs hitems hmin hmax hfit
  | fixedSpace w' => exact ⟨[], rfl⟩
  | flexibleSpace m w' => exact ⟨[], rfl⟩

/-- The metrics of the principal item are found, and the item is not wider than its element. -/
lemma principalMetrics_returns {e : Element} {s : Sizing} {w : ℕ} {principal : ItemId}
    (hs : elementSizing e = ok s) (hitems : ∀ i ∈ e.items, i.WF) (hmin : s.minimum ≤ w)
    (hmax : w ≤ s.maximum) (hw : w < 2 ^ 32) :
    ∃ metrics, principalMetrics e w principal = some metrics ∧
      ∀ offset width, metrics = some (offset, width) → width ≤ w := by
  cases e with
  | item i =>
    refine ⟨_, rfl, fun offset width h => ?_⟩
    split_ifs at h
    obtain ⟨rfl, rfl⟩ := Prod.mk.inj (Option.some.inj h)
    exact le_rfl
  | group g =>
    obtain ⟨ps, hps⟩ := @layoutGroup_returns g s 0 w hs hitems hmin hmax (by omega)
    have hrow := (layoutGroup_laidOut g hs hitems hps hmin hmax).row
    have hmetrics : principalMetrics (.group g) w principal =
        some ((ps.find? fun p => p.id = principal).map fun p => (p.x.toNat, p.width.toNat)) := by
      simp only [principalMetrics, hps, bind, Option.bind_some, pure]
    refine ⟨_, hmetrics, ?_⟩
    intro offset width h
    obtain ⟨p, hp, hpw⟩ := Option.map_eq_some_iff.mp h
    obtain ⟨-, rfl⟩ := Prod.mk.inj hpw
    have hright := hrow.upper p (List.mem_of_find?_eq_some hp)
    simp only [Placement.right] at hright
    omega
  | fixedSpace w' => exact ⟨none, rfl, by simp⟩
  | flexibleSpace m w' => exact ⟨none, rfl, by simp⟩

lemma findPrincipal_returns {bar : BarSpec} {vs : List Bool} {ws : List ℕ} {available : ℕ}
    (hlen : ws.length = bar.elements.length) (hitems : ∀ i ∈ bar.items, i.WF)
    (hallowed : RowAllowed bar vs ws) (hsum : ws.sum ≤ available)
    (havailable : available < 2 ^ 32) :
    ∃ principal, findPrincipal bar vs ws = some principal ∧
      ∀ p offset width, principal = some (p, offset, width) → ∃ w, ws[p]? = some w ∧ width ≤ w := by
  unfold findPrincipal
  split
  · exact ⟨none, rfl, by simp⟩
  · rename_i principal hprincipal
    split
    · exact ⟨none, rfl, by simp⟩
    · rename_i index e hfind
      obtain ⟨j, hj, he, hv⟩ := findVisible_eq_some hfind
      obtain rfl : index = j := by omega
      have hlt : index < ws.length := by
        rw [hlen]
        exact (List.getElem?_eq_some_iff.mp he).1
      have hw : ws[index]? = some ws[index] := List.getElem?_eq_getElem hlt
      have hle : ws[index] ≤ ws.sum := List.single_le_sum (by simp) _ (List.getElem_mem hlt)
      obtain ⟨-, s, hs, hmin, hmax⟩ := hallowed index e _ he hv hw
      obtain ⟨metrics, hmetrics, hwidth⟩ := @principalMetrics_returns e s ws[index] principal hs
        (fun i hi => hitems i (List.mem_flatMap.mpr ⟨e, List.mem_of_getElem? he, hi⟩)) hmin hmax
        (by omega)
      simp only [hw, hmetrics, bind, Option.bind_some, pure, Option.some.injEq, exists_eq_left']
      intro p offset width h
      obtain ⟨⟨o, v⟩, hov, hp⟩ := Option.map_eq_some_iff.mp h
      obtain ⟨rfl, rfl, rfl⟩ : index = p ∧ o = offset ∧ v = width := by simpa using hp
      exact ⟨_, hw, hwidth o v hov⟩

/-! ## Distribution -/

lemma centerPrincipal_returns {bar : BarSpec} (hcount : bar.count < 2 ^ 31) {ws : List ℕ}
    {available p offset width w : ℕ} (hlen : ws.length = bar.elements.length)
    (hsum : ws.sum ≤ available) (havailable : available < 2 ^ 32) (hw : ws[p]? = some w)
    (hwidth : width ≤ w) : ∃ r, centerPrincipal bar ws available p offset width = some r := by
  obtain ⟨hp, rfl⟩ := List.getElem?_eq_some_iff.mp hw
  -- what stands before the principal element, the element, and what follows it
  have hsplit : (ws.take p).sum + (ws[p] + (ws.drop (p + 1)).sum) = ws.sum := by
    rw [← List.sum_take_add_sum_drop ws p, List.drop_eq_getElem_cons hp, List.sum_cons]
  have hsize : available < U64.size := by
    simp only [U64.size]
    omega
  have hbefore : U64.sum (ws.take p) = some (ws.take p).sum :=
    U64.sum_eq_some.mpr ⟨by omega, rfl⟩
  have hafter : U64.sum (ws.drop (p + 1)) = some (ws.drop (p + 1)).sum :=
    U64.sum_eq_some.mpr ⟨by omega, rfl⟩
  have hroom : U64.sub available width = some (available - width) :=
    U64.sub_eq_some.mpr ⟨by omega, rfl⟩
  have hmaximum : U64.sub available ws[p] = some (available - ws[p]) :=
    U64.sub_eq_some.mpr ⟨by omega, rfl⟩
  have hmaximum' : U64.sub (available - ws[p]) (ws.drop (p + 1)).sum =
      some (available - ws[p] - (ws.drop (p + 1)).sum) := U64.sub_eq_some.mpr ⟨by omega, rfl⟩
  obtain ⟨x, hclamp, hlow, hhigh⟩ : ∃ x, U64.clamp ((available - width) / 2 - offset)
      (ws.take p).sum (available - ws[p] - (ws.drop (p + 1)).sum) = some x ∧
        (ws.take p).sum ≤ x ∧ x ≤ available - ws[p] - (ws.drop (p + 1)).sum := by
    refine ⟨_, U64.clamp_eq_some.mpr ⟨by omega, rfl⟩, le_max_left _ _, ?_⟩
    exact max_le (by omega) (min_le_right _ _)
  have hleft : U64.sub x (ws.take p).sum = some (x - (ws.take p).sum) :=
    U64.sub_eq_some.mpr ⟨hlow, rfl⟩
  obtain ⟨w₁, h₁⟩ := @distributeFlexibleSpace_returns bar hcount ws 0 p (x - (ws.take p).sum)
    hlen (by omega) (by simp only [U64.size]; omega)
  obtain ⟨hlen₁, hsum₁, -, -⟩ := distributeFlexibleSpace_spec h₁
  have hright : U64.sub available x = some (available - x) := U64.sub_eq_some.mpr ⟨by omega, rfl⟩
  have hright' : U64.sub (available - x) ws[p] = some (available - x - ws[p]) :=
    U64.sub_eq_some.mpr ⟨by omega, rfl⟩
  have hright'' : U64.sub (available - x - ws[p]) (ws.drop (p + 1)).sum =
      some (available - x - ws[p] - (ws.drop (p + 1)).sum) := U64.sub_eq_some.mpr ⟨by omega, rfl⟩
  obtain ⟨w₂, h₂⟩ := @distributeFlexibleSpace_returns bar hcount w₁ (p + 1) bar.elements.length
    (available - x - ws[p] - (ws.drop (p + 1)).sum) (hlen₁.trans hlen) (by omega)
    (by simp only [U64.size]; omega)
  refine ⟨(w₂, x), ?_⟩
  rw [centerPrincipal]
  simp only [hbefore, hafter, hroom, hw, hmaximum, hmaximum', hclamp, hleft, h₁, hright, hright',
    hright'', h₂, bind, Option.bind_some, pure]

/-- The final widths keep the widths of the content, and both sides of the principal element
keep within their room. -/
lemma distribute_returns {bar : BarSpec} (hcount : bar.count < 2 ^ 31) {ws : List ℕ}
    {available : ℕ} {principal : Option (ℕ × ℕ × ℕ)} (hlen : ws.length = bar.elements.length)
    (hsum : ws.sum ≤ available) (havailable : available < 2 ^ 32)
    (hprincipal : ∀ p offset width, principal = some (p, offset, width) →
      ∃ w, ws[p]? = some w ∧ width ≤ w) :
    ∃ widths principalX, distribute bar ws available (available - ws.sum) principal =
        some (widths, principalX) ∧ widths.length = bar.elements.length ∧
      (∀ (k : ℕ) e, bar.elements[k]? = some e → e.isContent = true → widths[k]? = ws[k]?) ∧
      (principalX = none → widths.sum ≤ available) ∧
      ∀ p x, principalX = some (p, x) → p < widths.length ∧ (widths.take p).sum ≤ x ∧
        x + (widths.drop p).sum ≤ available := by
  rcases principal with _ | ⟨p, offset, width⟩
  · obtain ⟨widths, hdistribute⟩ := @distributeFlexibleSpace_returns bar hcount ws 0
      bar.elements.length (available - ws.sum) hlen (by omega) (by simp only [U64.size]; omega)
    obtain ⟨hlen', hsum', -, hcontent⟩ := distributeFlexibleSpace_spec hdistribute
    refine ⟨widths, none, ?_, hlen'.trans hlen, hcontent, fun _ => by omega, by simp⟩
    simp only [distribute, hdistribute, bind, Option.bind_some, pure]
  · obtain ⟨w, hw, hwidth⟩ := hprincipal p offset width rfl
    obtain ⟨⟨widths, x⟩, hcenter⟩ :=
      @centerPrincipal_returns bar hcount ws available p offset width w hlen hsum havailable hw
        hwidth
    obtain ⟨hlen', hp, htake, hdrop, hcontent⟩ := centerPrincipal_spec hcenter
    refine ⟨widths, some (p, x), ?_, hlen'.trans hlen, hcontent, by simp, ?_⟩
    · simp only [distribute, hcenter, bind, Option.bind_some, pure]
    · intro q y h
      obtain ⟨rfl, rfl⟩ := Prod.mk.inj (Option.some.inj h)
      exact ⟨hlen' ▸ hp, htake, hdrop⟩

/-! ## Placement -/

/-- The elements from an index on end within the available width, before and after the jump to
the principal position. -/
structure EndsWithin (available : ℕ) (px : Option (ℕ × ℕ)) (index x : ℕ) (ws : List ℕ) :
    Prop where
  passed : (∀ p q, px = some (p, q) → p < index) → x + ws.sum ≤ available
  ahead : ∀ p q, px = some (p, q) → index ≤ p → p < index + ws.length ∧
    x + (ws.take (p - index)).sum ≤ q ∧ q + (ws.drop (p - index)).sum ≤ available

section EndsWithin

variable {available index x w : ℕ} {px : Option (ℕ × ℕ)} {ws : List ℕ}

lemma EndsWithin.jump_le (h : EndsWithin available px index x (w :: ws)) :
    jump px index x + w ≤ available := by
  rcases px with _ | ⟨p, q⟩
  · have hpassed := h.passed (by simp)
    rw [List.sum_cons] at hpassed
    simp only [jump]
    omega
  · rcases Nat.lt_trichotomy p index with hlt | rfl | hlt
    · have hpassed := h.passed fun p' q' hp => by
        obtain ⟨rfl, rfl⟩ := Prod.mk.inj (Option.some.inj hp)
        exact hlt
      rw [List.sum_cons] at hpassed
      simp only [jump, if_neg (show p ≠ index by omega)]
      omega
    · obtain ⟨-, -, hdrop⟩ := h.ahead p q rfl le_rfl
      rw [Nat.sub_self, List.drop_zero, List.sum_cons] at hdrop
      simp only [jump, if_true]
      omega
    · obtain ⟨-, htake, hdrop⟩ := h.ahead p q rfl hlt.le
      rw [show p - index = p - (index + 1) + 1 by omega, List.take_succ_cons,
        List.sum_cons] at htake
      simp only [jump, if_neg (show p ≠ index by omega)]
      omega

lemma EndsWithin.tail (h : EndsWithin available px index x (w :: ws)) :
    EndsWithin available px (index + 1) (jump px index x + w) ws := by
  constructor
  · intro hpassed
    rcases px with _ | ⟨p, q⟩
    · have hsum := h.passed (by simp)
      rw [List.sum_cons] at hsum
      simp only [jump]
      omega
    · have hle := hpassed p q rfl
      rcases Nat.eq_or_lt_of_le (Nat.le_of_lt_succ hle) with rfl | hlt
      · -- the principal element itself: the rest follows its position
        obtain ⟨-, -, hdrop⟩ := h.ahead p q rfl le_rfl
        rw [Nat.sub_self, List.drop_zero, List.sum_cons] at hdrop
        simp only [jump, if_true]
        omega
      · have hsum := h.passed fun p' q' hp => by
          obtain ⟨rfl, rfl⟩ := Prod.mk.inj (Option.some.inj hp)
          exact hlt
        rw [List.sum_cons] at hsum
        simp only [jump, if_neg (show p ≠ index by omega)]
        omega
  · rintro p q rfl hle
    obtain ⟨hlt, htake, hdrop⟩ := h.ahead p q rfl (by omega)
    have hindex : p - index = p - (index + 1) + 1 := by omega
    rw [hindex, List.take_succ_cons, List.sum_cons] at htake
    rw [hindex, List.drop_succ_cons] at hdrop
    rw [List.length_cons] at hlt
    refine ⟨by omega, ?_, hdrop⟩
    simp only [jump, if_neg (show p ≠ index by omega)]
    omega

end EndsWithin

/-- The final loop returns when every visible element has room. -/
lemma placeElements_returns {available : ℕ} (havailable : available < 2 ^ 32)
    {px : Option (ℕ × ℕ)} {es : List Element} :
    ∀ {index x : ℕ} {vs : List Bool} {ws : List ℕ},
      (∀ (k : ℕ) e w, es[k]? = some e → vs[k]? = some true → ws[k]? = some w →
        ∀ {x}, x + w < 2 ^ 32 → ∃ ps, layoutElement e x w = some ps) →
      EndsWithin available px index x ws →
      ∃ placements hidden right,
        placeElements px index es vs ws x = some (placements, hidden, right) := by
  induction es with
  | nil =>
    intro index x vs ws _ _
    exact ⟨[], [], x, by simp [placeElements]⟩
  | cons e es ih =>
    intro index x vs ws hplace hends
    rcases vs with _ | ⟨v, vs⟩
    · exact ⟨[], [], x, by simp [placeElements]⟩
    rcases ws with _ | ⟨w, ws⟩
    · exact ⟨[], [], x, by simp [placeElements]⟩
    have hle := hends.jump_le
    obtain ⟨here, hhere⟩ : ∃ here, layoutShown e v (jump px index x) w = some here := by
      cases v with
      | true => exact hplace 0 e w rfl rfl rfl (by omega)
      | false => exact ⟨[], rfl⟩
    have hadd : U64.add (jump px index x) w = some (jump px index x + w) :=
      U64.add_eq_some.mpr ⟨by simp only [U64.size]; omega, rfl⟩
    obtain ⟨placements, hidden, right, hrest⟩ := ih
      (fun k e w he hv hw => hplace (k + 1) e w he hv hw) hends.tail
    rw [placeElements]
    simp only [hhere, hadd, hrest, bind, Option.bind_some, pure]
    exact ⟨_, _, _, rfl⟩

/-! ## The main result -/

lemma joinUnits_ne_panic {group : String} {index : ℕ} {i : ItemSpec} {r : Bool}
    {units : List VisibilityUnit} : joinUnits group index i r units ≠ panic := by
  induction units with
  | nil => simp [joinUnits]
  | cons u units ih =>
    rw [joinUnits]
    split_ifs
    · simp
    · simp
    · simp [bind_eq_panic, ih]

lemma visibilityUnits_ne_panic {bar : BarSpec} {required : BTreeSet ItemId} :
    visibilityUnits bar required ≠ panic := by
  have hadd : ∀ es index units, addElements required index es units ≠ panic := by
    intro es
    induction es with
    | nil => simp [addElements]
    | cons e es ih =>
      intro index units
      have helement : addElement required index units e ≠ panic := by
        cases e with
        | item i =>
          simp only [addElement]
          split
          · exact joinUnits_ne_panic
          · simp
        | _ => simp [addElement]
      simp [addElements, bind_eq_panic, helement, ih]
  exact hadd _ _ _

/-- The row that compression leaves gives every visible element a width it allows. -/
lemma rowAllowed_base {bar : BarSpec} {vs : List Bool} {ss : List Sizing} {base : List ℕ}
    (hsizing : elementsSizing bar.elements = ok ss) (hwf : ∀ s ∈ ss, s.WF)
    (hcontent : ContentOnly bar.elements vs)
    (hlow : List.Forall₂ (· ≤ ·) (rowWidths Sizing.minimum bar.elements vs ss) base)
    (hhigh : List.Forall₂ (· ≤ ·) base (rowWidths Sizing.preferred bar.elements vs ss)) :
    RowAllowed bar vs base := by
  intro k e w he hv hw
  obtain ⟨e', he', hc⟩ := hcontent k hv
  obtain rfl : e = e' := Option.some.inj (he.symm.trans he')
  have hall := elementsSizing_eq_ok.mp hsizing
  obtain ⟨hk, rfl⟩ := List.getElem?_eq_some_iff.mp he
  have hks : k < ss.length := by rw [← hall.length_eq]; exact hk
  have hs : ss[k]? = some ss[k] := List.getElem?_eq_getElem hks
  have hbound : ∀ f : Sizing → ℕ, (rowWidths f bar.elements vs ss)[k]? = some (f ss[k]) :=
    fun f => getElem?_rowWidths.mpr ⟨_, true, _, he, hv, hs, by simp [elementWidth_of_isContent hc]⟩
  obtain ⟨hkb, rfl⟩ := List.getElem?_eq_some_iff.mp hw
  obtain ⟨hk₁, hmin⟩ := List.getElem?_eq_some_iff.mp (hbound Sizing.minimum)
  obtain ⟨hk₂, hpref⟩ := List.getElem?_eq_some_iff.mp (hbound Sizing.preferred)
  refine ⟨hc, ss[k], hall.get hk hks, ?_, ?_⟩
  · have hle := hlow.get hk₁ hkb
    rw [List.get_eq_getElem, hmin] at hle
    exact hle
  · have hle := hhigh.get hkb hk₂
    simp only [List.get_eq_getElem, hpref] at hle
    exact hle.trans (hwf _ (List.getElem_mem hks)).le_max

/-- With fewer than `2 ^ 31` items, groups and spaces, no arithmetic of the resolver overflows
and none of its assertions fails: it returns a layout, whose content width is not cut off, or
one of its errors. -/
theorem resolve_returns (bar : BarSpec) (available : UInt32) (required : BTreeSet ItemId)
    (hcount : bar.count < 2 ^ 31) :
    ((∃ layout, resolve bar available required = ok layout) ∨
      ∃ error, resolve bar available required = err error) ∧
    ∀ layout, ∀ r : Run bar available required layout, layout.contentWidth.toNat = r.right := by
  refine ⟨?_, fun layout r => r.contentWidth_toNat⟩
  have havailable := available.toNat_lt
  have hcounts : ∀ e ∈ bar.elements, e.count < 2 ^ 31 := fun e he =>
    lt_of_le_of_lt (Element.count_le he) hcount
  rw [resolve]
  cases hvalid : validate bar required with
  | panic => exact absurd hvalid (validate_ne_panic hcount)
  | err error => exact .inr ⟨error, rfl⟩
  | ok u =>
  rw [ok_bind]
  have hitems := (validBar_of_validate hvalid).items_wf
  cases hunits : visibilityUnits bar required with
  | panic => exact absurd hunits visibilityUnits_ne_panic
  | err error => exact .inr ⟨error, rfl⟩
  | ok units =>
  rw [ok_bind]
  cases hsizing : elementsSizing bar.elements with
  | panic => exact absurd hsizing (elementsSizing_within hcounts).1
  | err error => exact .inr ⟨error, rfl⟩
  | ok ss =>
  rw [ok_bind]
  have hwithin := (elementsSizing_within hcounts).2 ss hsizing
  have hall := elementsSizing_eq_ok.mp hsizing
  have hss : ss.length = bar.elements.length := hall.length_eq.symm
  have hwf : ∀ s ∈ ss, s.WF := by
    intro s hs
    obtain ⟨e, he, hes⟩ := forall₂_exists_left hall hs
    exact elementSizing_wf hes fun i hi => hitems i (List.mem_flatMap.mpr ⟨e, he, hi⟩)
  -- every row of widths of the bar is bounded by its count
  have hrow : ∀ (f : Sizing → ℕ) vs, (∀ (s : Sizing) n, s.Within n →
      f s + 0xffffffff ≤ 2 * n * 0xffffffff) →
      (rowWidths f bar.elements vs ss).sum < U64.size := by
    intro f vs hf
    have hle := @sum_rowWidths_le f hf bar.elements vs ss hwithin
    rw [BarSpec.count] at hcount
    simp only [U64.size]
    omega
  have htotal : totalWidth bar (bar.elements.map Element.isContent) ss =
      some (demand bar.elements ss (bar.elements.map Element.isContent)) :=
    U64.sum_eq_some.mpr ⟨hrow _ _ fun s n h => h.minimum_le, rfl⟩
  obtain ⟨vs, minimumTotal, hhide⟩ := @hideToFit_returns bar.elements ss
    (bar.elements.map Element.isContent) _ hss available.toNat units
    (fun u hu k hk => ((visibilityUnits_unitsOf hunits).unit u hu).lt_length hk)
    (List.length_map _) (contentOnly_map_isContent _) rfl
  obtain ⟨hidden, -, hvs, hminimum⟩ := hideToFit_eq_some hhide (contentOnly_map_isContent _) rfl
  have hlen : vs.length = bar.elements.length := by rw [hvs, length_hide, List.length_map]
  have hcontent : ContentOnly bar.elements vs := hvs ▸ (contentOnly_map_isContent _).hide _
  simp only [htotal, check_some, ok_bind, hhide]
  split_ifs with hlt
  · exact .inr ⟨_, rfl⟩
  · left
    have hfit : demand bar.elements ss vs ≤ available.toNat := hminimum ▸ not_lt.mp hlt
    obtain ⟨base, hbase⟩ := compressToFit_returns hlen hss hwf hfit
      (hrow _ vs fun s n h => h.preferred_le)
    obtain ⟨hlow, hhigh, hsum⟩ := compressToFit_spec hlen hss hwf hfit hbase
    have hbaseLen : base.length = bar.elements.length := by
      rw [← hlow.length_eq, length_rowWidths hlen hss]
    have hallowed := rowAllowed_base hsizing hwf hcontent hlow hhigh
    obtain ⟨principal, hprincipal, hmetrics⟩ :=
      findPrincipal_returns hbaseLen hitems hallowed hsum havailable
    have hbaseSum : U64.sum base = some base.sum :=
      U64.sum_eq_some.mpr ⟨by simp only [U64.size]; omega, rfl⟩
    have hextra : U64.sub available.toNat base.sum = some (available.toNat - base.sum) :=
      U64.sub_eq_some.mpr ⟨hsum, rfl⟩
    obtain ⟨widths, px, hdistribute, hwidthsLen, hkept, hnone, hsome⟩ :=
      distribute_returns hcount hbaseLen hsum havailable hmetrics
    have hends : EndsWithin available.toNat px 0 0 widths := by
      constructor
      · intro hpassed
        rcases px with _ | ⟨p, q⟩
        · simpa using hnone rfl
        · exact absurd (hpassed p q rfl) (Nat.not_lt_zero p)
      · intro p q hpq _
        simpa using hsome p q hpq
    obtain ⟨placements, hiddenItems, right, hplaced⟩ :=
      @placeElements_returns available.toNat havailable px bar.elements 0 0 vs widths (by
        intro k e w he hv hw x hfits
        obtain ⟨e', he', hc⟩ := hcontent k hv
        obtain rfl : e = e' := Option.some.inj (he.symm.trans he')
        rw [hkept k e he hc] at hw
        obtain ⟨-, s, hs, hmin, hmax⟩ := hallowed k e w he hv hw
        exact layoutElement_returns hs
          (fun i hi => hitems i (List.mem_flatMap.mpr ⟨e, List.mem_of_getElem? he, hi⟩)) hmin
          hmax hfits) hends
    simp only [hbase, hprincipal, hbaseSum, hextra, hdistribute, hplaced, check_some, ok_bind]
    exact ⟨_, rfl⟩

/-- The bar of the sample is placed, and the width of its content is not cut off. -/
theorem resolve_returns_sampleBar :
    (∃ layout, resolve sampleBar 90 .empty = ok layout) ∨
      ∃ error, resolve sampleBar 90 .empty = err error :=
  (resolve_returns sampleBar 90 .empty (by decide)).1

end TouchBar.Layout
