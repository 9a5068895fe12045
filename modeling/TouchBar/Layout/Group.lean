import TouchBar.Lib.Intervals
import TouchBar.Layout.Fit

/-!
# Laying out a group

`layout_group` divides the width of a group among its active children, natural
groups by compression or growth from the preferred widths and equal-width groups
evenly, and recurses into the child groups.  The main result of this file is
that a group which receives a width between its minimum and its maximum puts
every item of the group, in document order, into a row inside that width, and
gives each item a width that the item accepts.
-/

namespace TouchBar.Layout

open TouchBar.Rust TouchBar.Lib Outcome

def groupElementCompressionPriority : GroupElement → ℤ
  | .item i => i.compressionPriority
  | .group g => g.compressionPriority

/-- The children of a group that can have a width. -/
def activeElements : List GroupElement → Option (List GroupElement)
  | [] => some []
  | e :: es => do
    let s ← (groupElementSizing e).expect
    let rest ← activeElements es
    return if 0 < s.maximum then e :: rest else rest

def naturalChildWidths (elements : List GroupElement) (contentWidth : ℕ) : Option (List ℕ) := do
  let sizing ← (groupElementsSizing elements).expect
  let widths := sizing.map Sizing.preferred
  let preferred ← U64.sum widths
  if contentWidth < preferred then
    let excess ← U64.sub preferred contentWidth
    let candidates := elements.zipIdx.map fun e => (groupElementCompressionPriority e.1, e.2)
    let candidates := candidates.insertionSort CompressesBefore
    let (widths, excess) ← compressChildrenLoop sizing candidates widths excess
    assert (excess = 0)
    return widths
  else if contentWidth > preferred then
    let extra ← U64.sub contentWidth preferred
    growWidths widths sizing extra
  else
    return widths

/-- The division of the content width among the active children. -/
def childWidths (layout : GroupLayout) (active : List GroupElement) (contentWidth : ℕ) :
    Option (List ℕ) :=
  match layout with
  | .natural => naturalChildWidths active contentWidth
  | .equalWidth => equalChildWidths active.length contentWidth

def placeItem (i : ItemSpec) (x width : ℕ) : Option Placement := do
  let x ← U32.tryFrom x
  let width ← U32.tryFrom width
  return ⟨i.id, x, width⟩

mutual

def layoutGroup : GroupSpec → ℕ → ℕ → Option (List Placement)
  | ⟨_, elements, layout, spacing, _, _⟩, x, width => do
    let active ← activeElements elements
    if active.isEmpty then
      return []
    let gaps ← U64.mul spacing.toNat (active.length - 1)
    let contentWidth ← U64.sub width gaps
    let widths ← childWidths layout active contentWidth
    layoutChildren spacing elements widths x

def layoutGroupElement : GroupElement → ℕ → ℕ → Option (List Placement)
  | .item i, x, width => do
    let placement ← placeItem i x width
    return [placement]
  | .group g, x, width => layoutGroup g x width

/-- The final loop of `layout_group` over the active children and their widths; the
children that are not active are passed over. -/
def layoutChildren (spacing : UInt32) :
    List GroupElement → List ℕ → ℕ → Option (List Placement)
  | [], _, _ => some []
  | e :: es, widths, x => do
    let s ← (groupElementSizing e).expect
    if 0 < s.maximum then
      match widths with
      | [] => some []
      | width :: widths =>
        let here ← layoutGroupElement e x width
        let advance ← U64.add width spacing.toNat
        let next ← U64.add x advance
        let rest ← layoutChildren spacing es widths next
        return here ++ rest
    else
      layoutChildren spacing es widths x

end

/-- A placement of the item, with a width the item accepts. -/
structure Places (i : ItemSpec) (p : Placement) : Prop where
  id_eq : p.id = i.id
  min_le : i.minWidth.toNat ≤ p.width.toNat
  le_max : p.width.toNat ≤ i.maxWidth.toNat

/-- The row and the placements that a width between `x` and `x + w` is turned into. -/
structure LaidOut (items : List ItemSpec) (x w : ℕ) (ps : List Placement) : Prop where
  row : Row Placement.left Placement.right x (x + w) ps
  places : List.Forall₂ Places items ps

lemma placeItem_eq_some {i : ItemSpec} {x w : ℕ} {p : Placement}
    (h : placeItem i x w = some p) : p.id = i.id ∧ p.x.toNat = x ∧ p.width.toNat = w := by
  simp only [placeItem, bind, Option.bind_eq_some_iff, U32.tryFrom_eq_some, pure,
    Option.some.injEq] at h
  obtain ⟨a, ha, b, hb, rfl⟩ := h
  exact ⟨rfl, ha, hb⟩

lemma laidOut_item {i : ItemSpec} {x w : ℕ} {p : Placement} (h : placeItem i x w = some p)
    (hmin : i.minWidth.toNat ≤ w) (hmax : w ≤ i.maxWidth.toNat) : LaidOut [i] x w [p] := by
  obtain ⟨hid, hx, hw⟩ := placeItem_eq_some h
  refine ⟨.singleton (by simp [Placement.left, hx]) (by simp [Placement.right, hx, hw]), ?_⟩
  exact .cons ⟨hid, by omega, by omega⟩ .nil

/-! ## The widths of the active children -/

/-- `ss` are the sizings of the elements `es`. -/
def Sized (es : List GroupElement) (ss : List Sizing) : Prop :=
  List.Forall₂ (fun e s => groupElementSizing e = ok s) es ss

/-- Each width is one that the sizing at its position allows. -/
def Allowed (ss : List Sizing) (ws : List ℕ) : Prop :=
  List.Forall₂ (fun (s : Sizing) w => s.minimum ≤ w ∧ w ≤ s.maximum) ss ws

lemma activeElements_sized {es : List GroupElement} {ss : List Sizing} (h : Sized es ss) :
    ∃ act, activeElements es = some act ∧ Sized act (ss.filter fun s => 0 < s.maximum) := by
  induction h with
  | nil => exact ⟨[], rfl, .nil⟩
  | @cons e s es ss hs _ ih =>
    obtain ⟨act, hact, hsized⟩ := ih
    have hs' : (groupElementSizing e).expect = some s := expect_eq_some.mpr hs
    by_cases hpos : 0 < s.maximum
    · refine ⟨e :: act, by simp [activeElements, hs', hact, hpos], ?_⟩
      rw [List.filter_cons_of_pos (by simpa using hpos)]
      exact .cons hs hsized
    · refine ⟨act, by simp [activeElements, hs', hact, hpos], ?_⟩
      rw [List.filter_cons_of_neg (by simpa using hpos)]
      exact hsized

/-- The indices of the compression candidates of a natural group are those of its
children, each once. -/
lemma candidates_perm (es : List GroupElement) :
    ((es.zipIdx.map fun e => (groupElementCompressionPriority e.1, e.2)).insertionSort
      CompressesBefore).map Prod.snd |>.Perm (List.range es.length) := by
  have h := (List.perm_insertionSort CompressesBefore
    (es.zipIdx.map fun e => (groupElementCompressionPriority e.1, e.2))).map Prod.snd
  refine h.trans (List.Perm.of_eq ?_)
  rw [List.map_map]
  exact List.zipIdx_map_snd 0 es |>.trans (by rw [List.range_eq_range'])

/-- Compressing the children of a natural group keeps them between their minimums and their
preferred widths; something is left over only if all are at their minimums. -/
lemma compressChildren_spec {es : List GroupElement} {ss : List Sizing} {w' : List ℕ} {e e' : ℕ}
    (hlen : es.length = ss.length)
    (hlow : List.Forall₂ (· ≤ ·) (ss.map Sizing.minimum) (ss.map Sizing.preferred))
    (hloop : compressChildrenLoop ss ((es.zipIdx.map fun e =>
      (groupElementCompressionPriority e.1, e.2)).insertionSort CompressesBefore)
      (ss.map Sizing.preferred) e = some (w', e')) :
    List.Forall₂ (· ≤ ·) (ss.map Sizing.minimum) w' ∧
      List.Forall₂ (· ≤ ·) w' (ss.map Sizing.preferred) ∧
      w'.sum + e = (ss.map Sizing.preferred).sum + e' ∧
      (0 < e' → w' = ss.map Sizing.minimum) := by
  have hsq := compressChildrenLoop_squeeze hloop
  have hperm := candidates_perm es
  have hnd : ((((es.zipIdx.map fun e => (groupElementCompressionPriority e.1, e.2)).insertionSort
      CompressesBefore).map fun c => (c.2, (ss[c.2]?.map Sizing.minimum).getD 0)).map
        Prod.fst).Nodup := by
    rw [List.map_map]
    exact hperm.nodup_iff.mpr List.nodup_range
  -- every child is a candidate, with its minimum as the floor
  have hall : ∀ i f, (ss.map Sizing.minimum)[i]? = some f →
      (i, f) ∈ ((es.zipIdx.map fun e => (groupElementCompressionPriority e.1, e.2)).insertionSort
        CompressesBefore).map fun c => (c.2, (ss[c.2]?.map Sizing.minimum).getD 0) := by
    intro i f hf
    have hi : i < es.length := by
      have := (List.getElem?_eq_some_iff.mp hf).1
      simpa [hlen] using this
    obtain ⟨c, hc, hci⟩ := List.mem_map.mp (hperm.mem_iff.mpr (List.mem_range.mpr hi))
    refine List.mem_map.mpr ⟨c, hc, ?_⟩
    rw [List.getElem?_map] at hf
    simp [hci, hf]
  obtain ⟨hlo, hup⟩ := hsq.forall₂_bounds hnd hlow fun i f hf => .inl (hall i f hf)
  exact ⟨hlo, hup, hsq.sum_eq, fun he =>
    hsq.eq_floors_of_left hnd he (by simp) fun i f hf => .inl (hall i f hf)⟩

lemma allowed_of_forall₂ {ss : List Sizing} {ws : List ℕ}
    (hlow : List.Forall₂ (· ≤ ·) (ss.map Sizing.minimum) ws)
    (hhigh : List.Forall₂ (· ≤ ·) ws (ss.map Sizing.maximum)) : Allowed ss ws := by
  rw [List.forall₂_map_left_iff] at hlow
  rw [List.forall₂_map_right_iff] at hhigh
  exact List.Forall₂.mp (fun _ _ ha hb => ⟨ha, hb⟩) hlow hhigh.flip

/-- The widths of the children of a natural group: each is one its child allows, and
together they fill the content width. -/
lemma naturalChildWidths_spec {es : List GroupElement} {ss : List Sizing} {c : ℕ} {ws : List ℕ}
    (hsized : Sized es ss) (hwf : ∀ s ∈ ss, s.WF) (h : naturalChildWidths es c = some ws)
    (hmin : (ss.map Sizing.minimum).sum ≤ c) (hmax : c ≤ (ss.map Sizing.maximum).sum) :
    Allowed ss ws ∧ ws.sum = c := by
  have hss : groupElementsSizing es = ok ss := groupElementsSizing_eq_ok.mpr hsized
  have hlow : List.Forall₂ (· ≤ ·) (ss.map Sizing.minimum) (ss.map Sizing.preferred) := by
    rw [List.forall₂_map_left_iff, List.forall₂_map_right_iff, List.forall₂_same]
    exact fun s hs => (hwf s hs).min_le
  have hhigh : List.Forall₂ (· ≤ ·) (ss.map Sizing.preferred) (ss.map Sizing.maximum) := by
    rw [List.forall₂_map_left_iff, List.forall₂_map_right_iff, List.forall₂_same]
    exact fun s hs => (hwf s hs).le_max
  simp only [naturalChildWidths, hss, expect, bind, Option.bind_some, Option.bind_eq_some_iff,
    U64.sum_eq_some] at h
  obtain ⟨_, ⟨-, rfl⟩, h⟩ := h
  split_ifs at h with hlt hgt
  · -- compression
    simp only [Option.bind_eq_some_iff, U64.sub_eq_some, Prod.exists, assert_eq_some, pure,
      Option.some.injEq] at h
    obtain ⟨_, ⟨-, rfl⟩, w', e', hloop, -, -, rfl⟩ := h
    obtain ⟨hlo, hup, hsum, hleft⟩ := compressChildren_spec hsized.length_eq hlow hloop
    refine ⟨allowed_of_forall₂ hlo
      (forall₂_trans (S := (· ≤ ·)) (fun _ _ _ => Nat.le_trans) hup hhigh), ?_⟩
    -- nothing can be left over, for the minimums fit into the content width
    rcases Nat.eq_zero_or_pos e' with he | he
    · omega
    · have := hleft he
      subst this
      omega
  · -- growth
    simp only [Option.bind_eq_some_iff, U64.sub_eq_some, growWidths, Prod.exists, bind,
      assert_eq_some, pure, Option.some.injEq] at h
    obtain ⟨_, ⟨-, rfl⟩, w', e', hloop, -, -, rfl⟩ := h
    have hg := growLoop_grow hloop hhigh
    refine ⟨allowed_of_forall₂
      (forall₂_trans (S := (· ≤ ·)) (fun _ _ _ => Nat.le_trans) hlow hg.le) hg.le_cap, ?_⟩
    have hsum := hg.sum_eq
    -- something is left over only if every child is at its maximum
    rcases Nat.eq_zero_or_pos e' with he | he
    · omega
    · have := hg.full he
      subst this
      omega
  · obtain rfl := Option.some.inj h
    exact ⟨allowed_of_forall₂ hlow hhigh, by omega⟩

/-- The even split gives each child of an equal-width group a width it allows. -/
lemma equalChildWidths_allowed {ss : List Sizing} {lo hi c : ℕ} {ws : List ℕ}
    (h : equalChildWidths ss.length c = some ws) (hne : ss ≠ [])
    (hlo : ∀ s ∈ ss, s.minimum ≤ lo) (hhi : ∀ s ∈ ss, hi ≤ s.maximum)
    (hmin : lo * ss.length ≤ c) (hmax : c ≤ hi * ss.length) : Allowed ss ws ∧ ws.sum = c := by
  obtain ⟨hlen, hsum, hw⟩ := equalChildWidths_spec h
  have hpos : 0 < ss.length := List.length_pos_of_ne_nil hne
  have hbase : lo ≤ c / ss.length := (Nat.le_div_iff_mul_le hpos).mpr hmin
  have htop : ∀ a ∈ ws, a ≤ hi := by
    intro a ha
    have hdiv : c / ss.length ≤ hi := Nat.div_le_of_le_mul (by rwa [Nat.mul_comm])
    rcases (hw a ha).2 with h1 | ⟨h1, h2⟩
    · omega
    · -- a remainder means that the quotient is below the common maximum
      have hmod := Nat.div_add_mod c ss.length
      have hne' : c / ss.length ≠ hi := by
        intro heq
        rw [heq, Nat.mul_comm] at hmod
        omega
      omega
  refine ⟨?_, hsum⟩
  rw [Allowed, List.forall₂_iff_get]
  refine ⟨hlen.symm, fun i hi₁ hi₂ => ?_⟩
  have hmem : ws.get ⟨i, hi₂⟩ ∈ ws := List.get_mem _ _
  have hsmem : ss.get ⟨i, hi₁⟩ ∈ ss := List.get_mem _ _
  exact ⟨(hlo _ hsmem).trans (hbase.trans (hw _ hmem).1), (htop _ hmem).trans (hhi _ hsmem)⟩

/-- Both ways of dividing the content width give every active child a width it allows. -/
lemma childWidths_allowed {layout : GroupLayout} {spacing : UInt32} {act : List GroupElement}
    {ss : List Sizing} {s : Sizing} {w : ℕ} {ws : List ℕ} (hsized : Sized act ss)
    (hwf : ∀ t ∈ ss, t.WF) (hne : ss ≠ []) (hcombined : Combined spacing ss layout s)
    (hmin : s.minimum ≤ w) (hmax : w ≤ s.maximum) (hgaps : gapsOf spacing ss.length ≤ w)
    (h : childWidths layout act (w - gapsOf spacing ss.length) = some ws) :
    Allowed ss ws ∧ ws.sum = w - gapsOf spacing ss.length := by
  cases hcombined with
  | natural =>
    refine naturalChildWidths_spec hsized hwf h ?_ ?_
    · simp only at hmin
      omega
    · simp only at hmax
      omega
  | equalWidth hlo _ hhi _ _ _ =>
    rw [childWidths, hsized.length_eq] at h
    refine equalChildWidths_allowed h hne hlo hhi ?_ ?_
    · simp only at hmin
      omega
    · simp only at hmax
      omega

/-! ## The final loop -/

lemma layoutChildren_nil_widths {spacing : UInt32} {es : List GroupElement} {x : ℕ}
    {ps : List Placement} (h : layoutChildren spacing es [] x = some ps) : ps = [] := by
  induction es with
  | nil =>
    rw [layoutChildren] at h
    exact (Option.some.inj h).symm
  | cons e es ih =>
    rw [layoutChildren] at h
    simp only [bind, Option.bind_eq_some_iff] at h
    obtain ⟨s, -, h⟩ := h
    split_ifs at h
    · exact (Option.some.inj h).symm
    · exact ih h

/-- Laying out the children: if each active child with an allowed width is laid out in
that width, the children together are laid out in the widths and the gaps between them. -/
lemma layoutChildren_laidOut {spacing : UInt32} {es : List GroupElement} {ss : List Sizing}
    (hsized : Sized es ss) (hempty : ∀ e ∈ es, ∀ s, groupElementSizing e = ok s →
      ¬ 0 < s.maximum → e.items = [])
    (hchild : ∀ e ∈ es, ∀ s, groupElementSizing e = ok s → ∀ {x w ps},
      layoutGroupElement e x w = some ps → s.minimum ≤ w → w ≤ s.maximum →
        LaidOut e.items x w ps) :
    ∀ {ws : List ℕ} {x : ℕ} {ps : List Placement},
      Allowed (ss.filter fun s => 0 < s.maximum) ws →
      layoutChildren spacing es ws x = some ps →
      LaidOut (es.flatMap GroupElement.items) x (ws.sum + gapsOf spacing ws.length) ps := by
  induction hsized with
  | nil =>
    intro ws x ps hws h
    rw [layoutChildren] at h
    obtain rfl := Option.some.inj h
    exact ⟨.nil, .nil⟩
  | @cons e s es ss hs hrest ih =>
    intro ws x ps hws h
    replace ih := @ih (fun e he => hempty e (List.mem_cons_of_mem _ he))
      (fun e he => hchild e (List.mem_cons_of_mem _ he))
    rw [layoutChildren.eq_def] at h
    simp only [hs, expect, bind, Option.bind_some] at h
    rw [List.flatMap_cons]
    split_ifs at h with hpos
    · rw [List.filter_cons_of_pos (by simpa using hpos)] at hws
      cases hws with
      | @cons _ w _ ws hw hws =>
        simp only [Option.bind_eq_some_iff, U64.add_eq_some, pure, Option.some.injEq] at h
        obtain ⟨here, hhere, _, ⟨-, rfl⟩, _, ⟨-, rfl⟩, rest, hlay, rfl⟩ := h
        have h1 := hchild e List.mem_cons_self s hs hhere hw.1 hw.2
        have h2 := ih hws hlay
        refine ⟨?_, List.rel_append h1.places h2.places⟩
        cases ws with
        | nil =>
          -- the last active child: no gap follows it
          rw [layoutChildren_nil_widths hlay, List.append_nil]
          exact h1.row.mono le_rfl (by simp)
        | cons w' ws =>
          refine h1.row.append (h2.row.mono le_rfl ?_) (by omega) (by omega) (by simp; omega)
          simp only [gapsOf, List.sum_cons, List.length_cons, Nat.add_sub_cancel]
          have : spacing.toNat * (ws.length + 1) = spacing.toNat * ws.length + spacing.toNat := by
            ring
          omega
    · rw [List.filter_cons_of_neg (by simpa using hpos)] at hws
      rw [hempty e List.mem_cons_self s hs hpos, List.nil_append]
      exact ih hws h

/-! ## Groups -/

/-- A group that is given a width between its minimum and its maximum lays out all of
its items, in document order and without overlap, within that width, and gives each of
them a width it accepts. -/
theorem layoutGroup_laidOut (g : GroupSpec) :
    ∀ {s : Sizing} {x w : ℕ} {ps : List Placement}, groupSizing g = ok s →
      (∀ i ∈ g.items, i.WF) → layoutGroup g x w = some ps → s.minimum ≤ w → w ≤ s.maximum →
        LaidOut g.items x w ps := by
  induction g using GroupSpec.nested_induction with
  | step g ih =>
    intro s x w ps hs hitems h hmin hmax
    obtain ⟨ss, hsized, hcomb⟩ := groupSizing_eq_ok.mp hs
    rw [GroupSpec.items_eq] at hitems ⊢
    have hei : ∀ e ∈ g.elements, ∀ i ∈ e.items, i.WF :=
      fun e he i hi => hitems i (List.mem_flatMap.mpr ⟨e, he, hi⟩)
    have hwf : ∀ e ∈ g.elements, ∀ t, groupElementSizing e = ok t →
        t.WF ∧ (e.items ≠ [] → 0 < t.maximum) := by
      intro e he t ht
      exact groupElementSizing_wf ht (hei e he)
    have hempty : ∀ e ∈ g.elements, ∀ t, groupElementSizing e = ok t → ¬ 0 < t.maximum →
        e.items = [] := by
      intro e he t ht hpos
      by_contra hne
      exact hpos ((hwf e he t ht).2 hne)
    have hchild : ∀ e ∈ g.elements, ∀ t, groupElementSizing e = ok t → ∀ {x w ps},
        layoutGroupElement e x w = some ps → t.minimum ≤ w → w ≤ t.maximum →
          LaidOut e.items x w ps := by
      intro e he t ht x w ps hlay h1 h2
      cases e with
      | item i =>
        obtain rfl : itemSizing i = t := by simpa using ht
        simp only [layoutGroupElement, bind, Option.bind_eq_some_iff, pure, Option.some.injEq]
          at hlay
        obtain ⟨p, hp, rfl⟩ := hlay
        exact laidOut_item hp h1 h2
      | group child =>
        rw [layoutGroupElement] at hlay
        exact ih child he (by simpa using ht) (hei _ he) hlay h1 h2
    obtain ⟨act, hact, hactSized⟩ := activeElements_sized hsized
    obtain ⟨id, elements, layout, spacing, v, c⟩ := g
    rw [layoutGroup] at h
    simp only [hact, bind, Option.bind_some] at h
    by_cases hne : (ss.filter fun t => 0 < t.maximum) = []
    · -- every child is empty, and so is the group
      have hnil : act = [] := by
        rw [hne] at hactSized
        cases hactSized
        rfl
      simp only [hnil, List.isEmpty_nil, if_true, pure, Option.some.injEq] at h
      subst h
      have hitems0 : elements.flatMap GroupElement.items = [] := by
        rw [List.flatMap_eq_nil_iff]
        intro e he
        obtain ⟨t, ht, het⟩ := forall₂_exists_right hsized he
        refine hempty e he t het fun hpos => ?_
        have : t ∈ ss.filter fun t => 0 < t.maximum := List.mem_filter.mpr ⟨ht, by simpa using hpos⟩
        simp [hne] at this
      rw [hitems0]
      exact ⟨.nil, .nil⟩
    · have hlen : act.length = (ss.filter fun t => 0 < t.maximum).length := hactSized.length_eq
      have hactne : act.isEmpty = false := by
        rw [List.isEmpty_eq_false_iff]
        rintro rfl
        exact hne (List.length_eq_zero_iff.mp hlen.symm)
      simp only [hactne, Bool.false_eq_true, if_false, Option.bind_eq_some_iff, U64.mul_eq_some,
        U64.sub_eq_some] at h
      obtain ⟨_, ⟨-, rfl⟩, _, ⟨hgaps, rfl⟩, ws, hws, hlay⟩ := h
      have hactwf : ∀ t ∈ ss.filter fun t => 0 < t.maximum, t.WF := by
        intro t ht
        obtain ⟨e, he, het⟩ := forall₂_exists_left hsized (List.mem_filter.mp ht).1
        exact (hwf e he t het).1
      have hgapsOf : spacing.toNat * (act.length - 1) =
          gapsOf spacing (ss.filter fun t => 0 < t.maximum).length := by rw [gapsOf, hlen]
      rw [hgapsOf] at hgaps hws
      have hallowed := childWidths_allowed hactSized hactwf hne
        (combined_of_combineSizing hne hcomb) hmin hmax hgaps hws
      have hres := layoutChildren_laidOut hsized hempty hchild hallowed.1 hlay
      have hwlen : ws.length = act.length := by rw [hlen]; exact hallowed.1.length_eq.symm
      refine ⟨hres.row.mono le_rfl ?_, hres.places⟩
      rw [hallowed.2, hwlen, hlen]
      exact Nat.add_le_add_left (Nat.sub_add_cancel hgaps).le x

end TouchBar.Layout
