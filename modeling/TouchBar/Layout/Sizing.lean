import TouchBar.Lib.Lists
import TouchBar.Layout.Spec

/-!
# Intrinsic sizes of elements and groups

`group_sizing` computes the minimum, preferred and maximum width of a group from
those of its children, at every nesting depth.  Children that can only be empty
count neither for the widths nor for the spacing.  The results of this file are
the inversion of a successful sizing and the invariant `Sizing.WF`, which holds
of the sizing of every group whose items are well formed.
-/

namespace TouchBar.Layout

open TouchBar.Rust TouchBar.Lib Outcome

/-- The check of `validate_item` on the three widths of an item. -/
structure ItemSpec.WF (i : ItemSpec) : Prop where
  min_pos : 0 < i.minWidth.toNat
  min_le : i.minWidth.toNat ≤ i.preferredWidth.toNat
  le_max : i.preferredWidth.toNat ≤ i.maxWidth.toNat

def itemSizing (i : ItemSpec) : Sizing :=
  ⟨i.minWidth.toNat, i.preferredWidth.toNat, i.maxWidth.toNat⟩

def fixedSizing (width : UInt32) : Sizing := ⟨width.toNat, width.toNat, width.toNat⟩

/-- The part of `group_sizing` after the sizings of the children are known and
the empty ones are dropped. -/
def combineSizing (id : String) (layout : GroupLayout) (spacing : UInt32)
    (children : List Sizing) : Outcome LayoutError Sizing := do
  if children.isEmpty then
    return fixedSizing 0
  let gaps ← check (U64.mul spacing.toNat (children.length - 1))
  match layout with
  | .natural =>
    let minimum ← check (U64.sum (children.map Sizing.minimum))
    let minimum ← check (U64.add minimum gaps)
    let preferred ← check (U64.sum (children.map Sizing.preferred))
    let preferred ← check (U64.add preferred gaps)
    let maximum ← check (U64.sum (children.map Sizing.maximum))
    let maximum ← check (U64.add maximum gaps)
    return ⟨minimum, preferred, maximum⟩
  | .equalWidth =>
    let commonMinimum ← check (children.map Sizing.minimum).max?
    let commonMaximum ← check (children.map Sizing.maximum).min?
    if commonMinimum > commonMaximum then
      err (.invalidEqualWidthGroup id)
    else
      let widest ← check (children.map Sizing.preferred).max?
      let commonPreferred ← check (U64.clamp widest commonMinimum commonMaximum)
      let count := children.length
      let minimum ← check (U64.mul commonMinimum count)
      let minimum ← check (U64.add minimum gaps)
      let preferred ← check (U64.mul commonPreferred count)
      let preferred ← check (U64.add preferred gaps)
      let maximum ← check (U64.mul commonMaximum count)
      let maximum ← check (U64.add maximum gaps)
      return ⟨minimum, preferred, maximum⟩

mutual

def groupSizing : GroupSpec → Outcome LayoutError Sizing
  | ⟨id, elements, layout, spacing, _, _⟩ => do
    let children ← groupElementsSizing elements
    combineSizing id layout spacing (children.filter fun child => 0 < child.maximum)

def groupElementSizing : GroupElement → Outcome LayoutError Sizing
  | .item i => ok (itemSizing i)
  | .group g => groupSizing g

def groupElementsSizing : List GroupElement → Outcome LayoutError (List Sizing)
  | [] => ok []
  | e :: es => do
    let s ← groupElementSizing e
    let ss ← groupElementsSizing es
    return s :: ss

end

def elementSizing : Element → Outcome LayoutError Sizing
  | .item i => ok (itemSizing i)
  | .group g => groupSizing g
  | .fixedSpace width => ok (fixedSizing width)
  | .flexibleSpace minimum _ => ok (fixedSizing minimum)

@[simp] lemma groupElementSizing_item (i : ItemSpec) :
    groupElementSizing (.item i) = ok (itemSizing i) := by
  rw [groupElementSizing]

@[simp] lemma groupElementSizing_group (g : GroupSpec) :
    groupElementSizing (.group g) = groupSizing g := by
  rw [groupElementSizing]

/-! ## Inversion -/

/-- A successful pass over the children sizes each of them. -/
lemma groupElementsSizing_eq_ok {es : List GroupElement} {ss : List Sizing} :
    groupElementsSizing es = ok ss ↔
      List.Forall₂ (fun e s => groupElementSizing e = ok s) es ss := by
  induction es generalizing ss with
  | nil =>
    rw [groupElementsSizing]
    simp [eq_comm]
  | cons e es ih =>
    rw [groupElementsSizing]
    simp only [bind_eq_ok, pure_eq, ok.injEq, ih]
    constructor
    · rintro ⟨s, hs, ss', hss, rfl⟩
      exact .cons hs hss
    · rintro (_ | ⟨hs, hss⟩)
      exact ⟨_, hs, _, hss, rfl⟩

lemma groupSizing_eq_ok {g : GroupSpec} {s : Sizing} :
    groupSizing g = ok s ↔
      ∃ ss, List.Forall₂ (fun e t => groupElementSizing e = ok t) g.elements ss ∧
        combineSizing g.id g.layout g.spacing (ss.filter fun child => 0 < child.maximum) =
          ok s := by
  obtain ⟨id, elements, layout, spacing, v, c⟩ := g
  rw [groupSizing]
  simp only [bind_eq_ok, groupElementsSizing_eq_ok]

/-- The width that `n` children leave to the gaps between them. -/
def gapsOf (spacing : UInt32) (n : ℕ) : ℕ := spacing.toNat * (n - 1)

/-- What a successful combination of nonempty children computes. -/
inductive Combined (spacing : UInt32) (children : List Sizing) : GroupLayout → Sizing → Prop where
  | natural : Combined spacing children .natural
      ⟨(children.map Sizing.minimum).sum + gapsOf spacing children.length,
        (children.map Sizing.preferred).sum + gapsOf spacing children.length,
        (children.map Sizing.maximum).sum + gapsOf spacing children.length⟩
  | equalWidth {lo pref hi : ℕ} (hlo : ∀ c ∈ children, c.minimum ≤ lo)
      (lo_mem : ∃ c ∈ children, c.minimum = lo) (hhi : ∀ c ∈ children, hi ≤ c.maximum)
      (hi_mem : ∃ c ∈ children, c.maximum = hi) (lo_le : lo ≤ pref) (le_hi : pref ≤ hi) :
      Combined spacing children .equalWidth
        ⟨lo * children.length + gapsOf spacing children.length,
          pref * children.length + gapsOf spacing children.length,
          hi * children.length + gapsOf spacing children.length⟩

lemma combineSizing_nil (id : String) (layout : GroupLayout) (spacing : UInt32) :
    combineSizing id layout spacing [] = ok (fixedSizing 0) := rfl

lemma combined_of_combineSizing {id : String} {layout : GroupLayout} {spacing : UInt32}
    {children : List Sizing} {s : Sizing} (hne : children ≠ [])
    (h : combineSizing id layout spacing children = ok s) : Combined spacing children layout s := by
  have hemp : children.isEmpty = false := by simpa using hne
  rw [combineSizing, hemp] at h
  cases layout with
  | natural =>
    simp only [Bool.false_eq_true, if_false, bind_eq_ok, check_eq_ok, U64.mul_eq_some,
      U64.sum_eq_some, U64.add_eq_some, pure_eq, ok.injEq] at h
    obtain ⟨gaps, ⟨-, rfl⟩, _, ⟨-, rfl⟩, _, ⟨-, rfl⟩, _, ⟨-, rfl⟩, _, ⟨-, rfl⟩, _, ⟨-, rfl⟩, _,
      ⟨-, rfl⟩, rfl⟩ := h
    exact .natural
  | equalWidth =>
    simp only [Bool.false_eq_true, if_false, bind_eq_ok, check_eq_ok, U64.mul_eq_some] at h
    obtain ⟨gaps, ⟨-, rfl⟩, lo, hlo, hi, hhi, h⟩ := h
    split_ifs at h with hlt
    simp only [bind_eq_ok, check_eq_ok, U64.mul_eq_some, U64.clamp_eq_some, U64.add_eq_some,
      pure_eq, ok.injEq] at h
    obtain ⟨wide, -, pref, ⟨-, rfl⟩, _, ⟨-, rfl⟩, _, ⟨-, rfl⟩, _, ⟨-, rfl⟩, _, ⟨-, rfl⟩, _,
      ⟨-, rfl⟩, _, ⟨-, rfl⟩, rfl⟩ := h
    rw [List.max?_eq_some_iff] at hlo
    rw [List.min?_eq_some_iff] at hhi
    refine .equalWidth (fun c hc => hlo.2 _ (List.mem_map_of_mem hc)) (by simpa using hlo.1)
      (fun c hc => hhi.2 _ (List.mem_map_of_mem hc)) (by simpa using hhi.1) (le_max_left _ _) ?_
    exact max_le (not_lt.mp hlt) (min_le_right _ _)

/-! ## Well-formedness -/

lemma itemSizing_wf {i : ItemSpec} (h : i.WF) : (itemSizing i).WF :=
  ⟨h.min_le, h.le_max, fun _ => h.min_pos⟩

lemma fixedSizing_wf (w : UInt32) : (fixedSizing w).WF := ⟨le_rfl, le_rfl, id⟩

/-- The combination of well-formed, nonempty children is well formed and nonempty. -/
lemma Combined.wf {spacing : UInt32} {children : List Sizing} {layout : GroupLayout} {s : Sizing}
    (h : Combined spacing children layout s) (hne : children ≠ [])
    (hwf : ∀ c ∈ children, c.WF) (hpos : ∀ c ∈ children, 0 < c.maximum) :
    s.WF ∧ 0 < s.maximum := by
  obtain ⟨c, hc⟩ := List.exists_mem_of_ne_nil children hne
  have hmin : 0 < c.minimum := (hwf c hc).pos (hpos c hc)
  have hlen : 0 < children.length := List.length_pos_of_mem hc
  cases h with
  | natural =>
    have hle : (children.map Sizing.minimum).sum ≤ (children.map Sizing.preferred).sum :=
      List.sum_le_sum fun d hd => (hwf d hd).min_le
    have hle' : (children.map Sizing.preferred).sum ≤ (children.map Sizing.maximum).sum :=
      List.sum_le_sum fun d hd => (hwf d hd).le_max
    have hsum : 0 < (children.map Sizing.minimum).sum :=
      lt_of_lt_of_le hmin (List.single_le_sum (by simp) _ (List.mem_map_of_mem hc))
    exact ⟨⟨by simp only; omega, by simp only; omega, fun _ => by simp only; omega⟩,
      by simp only; omega⟩
  | equalWidth hlo lo_mem hhi hi_mem lo_le le_hi =>
    have hlo' := hlo c hc
    have h1 := Nat.mul_le_mul_right children.length lo_le
    have h2 := Nat.mul_le_mul_right children.length le_hi
    have h3 : 0 < _ * children.length := Nat.mul_pos (lt_of_lt_of_le hmin hlo') hlen
    exact ⟨⟨by simp only; omega, by simp only; omega, fun _ => by simp only; omega⟩,
      by simp only; omega⟩

/-- The sizing of a group with well-formed items is well formed, and it is empty
only if the group has no item at any depth. -/
theorem groupSizing_wf (g : GroupSpec) :
    ∀ {s : Sizing}, groupSizing g = ok s → (∀ i ∈ g.items, i.WF) →
      s.WF ∧ (g.items ≠ [] → 0 < s.maximum) := by
  induction g using GroupSpec.nested_induction with
  | step g ih =>
    intro s hs hitems
    obtain ⟨ss, hss, hcomb⟩ := groupSizing_eq_ok.mp hs
    rw [GroupSpec.items_eq] at hitems ⊢
    -- each child separately
    have hchild : ∀ e ∈ g.elements, ∀ t, groupElementSizing e = ok t →
        t.WF ∧ (e.items ≠ [] → 0 < t.maximum) := by
      intro e he t ht
      have hei : ∀ i ∈ e.items, i.WF := fun i hi => hitems i (List.mem_flatMap.mpr ⟨e, he, hi⟩)
      cases e with
      | item i =>
        obtain rfl : itemSizing i = t := by simpa using ht
        have hi : i.WF := hei i (by simp)
        exact ⟨itemSizing_wf hi, fun _ => lt_of_lt_of_le hi.min_pos (hi.min_le.trans hi.le_max)⟩
      | group child =>
        exact ih child he (by simpa using ht) hei
    have hall : ∀ t ∈ ss, t.WF := by
      intro t ht
      obtain ⟨e, he, het⟩ := forall₂_exists_left hss ht
      exact (hchild e he t het).1
    by_cases hne : (ss.filter fun child => 0 < child.maximum) = []
    · rw [hne, combineSizing_nil] at hcomb
      obtain rfl : fixedSizing 0 = s := by simpa using hcomb
      refine ⟨fixedSizing_wf 0, fun hcon => absurd ?_ hcon⟩
      rw [List.flatMap_eq_nil_iff]
      intro e he
      obtain ⟨t, ht, het⟩ := forall₂_exists_right hss he
      by_contra hcon
      have hpos := (hchild e he t het).2 hcon
      have hmem : t ∈ ss.filter fun child => 0 < child.maximum :=
        List.mem_filter.mpr ⟨ht, by simpa using hpos⟩
      simp [hne] at hmem
    · have h := (combined_of_combineSizing hne hcomb).wf hne
        (fun c hc => hall c (List.mem_filter.mp hc).1)
        (fun c hc => by simpa using (List.mem_filter.mp hc).2)
      exact ⟨h.1, fun _ => h.2⟩

lemma groupElementSizing_wf {e : GroupElement} {s : Sizing} (h : groupElementSizing e = ok s)
    (hitems : ∀ i ∈ e.items, i.WF) : s.WF ∧ (e.items ≠ [] → 0 < s.maximum) := by
  cases e with
  | item i =>
    obtain rfl : itemSizing i = s := by simpa using h
    have hi : i.WF := hitems i (by simp)
    exact ⟨itemSizing_wf hi, fun _ => lt_of_lt_of_le hi.min_pos (hi.min_le.trans hi.le_max)⟩
  | group g => exact groupSizing_wf g (by simpa using h) hitems

lemma elementSizing_wf {e : Element} {s : Sizing} (h : elementSizing e = ok s)
    (hitems : ∀ i ∈ e.items, i.WF) : s.WF := by
  cases e with
  | item i =>
    obtain rfl : itemSizing i = s := by simpa [elementSizing] using h
    exact itemSizing_wf (hitems i (by simp [Element.items]))
  | group g => exact (groupSizing_wf g h hitems).1
  | fixedSpace w =>
    obtain rfl : fixedSizing w = s := by simpa [elementSizing] using h
    exact fixedSizing_wf w
  | flexibleSpace w _ =>
    obtain rfl : fixedSizing w = s := by simpa [elementSizing] using h
    exact fixedSizing_wf w

end TouchBar.Layout
