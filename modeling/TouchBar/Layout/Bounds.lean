import TouchBar.Layout.Resolve

/-!
# Bounds of the widths of a bar

The widths of a bar are sums and products of `u32` numbers at every nesting depth.  This file
counts the items, groups and spaces of a bar and bounds every width of an element by its count:
an element of count `n` is at most `(2 * n - 1)` times the largest `u32` wide, for each item,
each space and each gap between two children adds at most that.  With fewer than `2 ^ 31` of
them every sum stays below `2 ^ 64`, and sizing and validation do not overflow.
-/

namespace TouchBar.Layout

open TouchBar.Rust TouchBar.Lib Outcome

/-! ## The count of a bar -/

mutual

/-- The items and groups of a group at every depth, with the group itself. -/
def GroupSpec.count : GroupSpec → ℕ
  | ⟨_, elements, _, _, _, _⟩ => GroupElement.listCount elements + 1

def GroupElement.count : GroupElement → ℕ
  | .item _ => 1
  | .group g => g.count

def GroupElement.listCount : List GroupElement → ℕ
  | [] => 0
  | e :: es => e.count + GroupElement.listCount es

end

def Element.count : Element → ℕ
  | .item _ => 1
  | .group g => g.count
  | .fixedSpace _ => 1
  | .flexibleSpace _ _ => 1

/-- The items, groups and spaces of a bar. -/
def BarSpec.count (bar : BarSpec) : ℕ := (bar.elements.map Element.count).sum

lemma GroupElement.listCount_eq (es : List GroupElement) :
    GroupElement.listCount es = (es.map GroupElement.count).sum := by
  induction es with
  | nil => rfl
  | cons e es ih => rw [GroupElement.listCount, ih, List.map_cons, List.sum_cons]

lemma GroupSpec.count_eq (g : GroupSpec) :
    g.count = (g.elements.map GroupElement.count).sum + 1 := by
  cases g
  rw [GroupSpec.count, GroupElement.listCount_eq]

@[simp] lemma GroupElement.count_item (i : ItemSpec) : (GroupElement.item i).count = 1 := rfl

@[simp] lemma GroupElement.count_group (g : GroupSpec) : (GroupElement.group g).count = g.count :=
  rfl

lemma GroupElement.count_le {g : GroupSpec} {e : GroupElement} (he : e ∈ g.elements) :
    e.count < g.count := by
  have h := List.single_le_sum (by simp) _ (List.mem_map_of_mem (f := GroupElement.count) he)
  rw [GroupSpec.count_eq]
  omega

lemma Element.count_le {bar : BarSpec} {e : Element} (he : e ∈ bar.elements) :
    e.count ≤ bar.count :=
  List.single_le_sum (by simp) _ (List.mem_map_of_mem (f := Element.count) he)

/-! ## Bounded sizings -/

/-- The widths of a sizing are at most those of `n` elements and the gaps between them. -/
structure Sizing.Within (n : ℕ) (s : Sizing) : Prop where
  minimum_le : s.minimum + 0xffffffff ≤ 2 * n * 0xffffffff
  preferred_le : s.preferred + 0xffffffff ≤ 2 * n * 0xffffffff
  maximum_le : s.maximum + 0xffffffff ≤ 2 * n * 0xffffffff

lemma toNat_le_max (n : UInt32) : n.toNat ≤ 0xffffffff := by
  have := n.toNat_lt
  omega

lemma itemSizing_within (i : ItemSpec) : (itemSizing i).Within 1 := by
  have hmin := toNat_le_max i.minWidth
  have hpref := toNat_le_max i.preferredWidth
  have hmax := toNat_le_max i.maxWidth
  constructor <;> simp only [itemSizing] <;> omega

lemma fixedSizing_within (w : UInt32) {n : ℕ} (hn : 0 < n) : (fixedSizing w).Within n := by
  have hw := toNat_le_max w
  constructor <;> simp only [fixedSizing] <;> omega

/-- The three sums over the children of a group, with a gap after each of them. -/
structure SumsWithin (n : ℕ) (children : List Sizing) : Prop where
  minimum_le : (children.map Sizing.minimum).sum + children.length * 0xffffffff ≤
    2 * n * 0xffffffff
  preferred_le : (children.map Sizing.preferred).sum + children.length * 0xffffffff ≤
    2 * n * 0xffffffff
  maximum_le : (children.map Sizing.maximum).sum + children.length * 0xffffffff ≤
    2 * n * 0xffffffff

lemma sumsWithin_of_forall₂ {es : List GroupElement} {ss : List Sizing}
    (h : List.Forall₂ (fun (e : GroupElement) s => s.Within e.count) es ss) :
    SumsWithin (es.map GroupElement.count).sum ss := by
  induction h with
  | nil => constructor <;> simp
  | @cons e s es ss hs _ ih =>
    obtain ⟨h1, h2, h3⟩ := ih
    obtain ⟨h4, h5, h6⟩ := hs
    constructor <;> simp only [List.map_cons, List.sum_cons, List.length_cons] <;> omega

lemma SumsWithin.filter {n : ℕ} {ss : List Sizing} (h : SumsWithin n ss) (p : Sizing → Bool) :
    SumsWithin n (ss.filter p) := by
  have hsub : (ss.filter p).Sublist ss := List.filter_sublist
  have hlen := hsub.length_le
  have hsum : ∀ f : Sizing → ℕ, ((ss.filter p).map f).sum ≤ (ss.map f).sum := fun f =>
    (hsub.map f).sum_le_sum (by simp)
  have h1 := hsum Sizing.minimum
  have h2 := hsum Sizing.preferred
  have h3 := hsum Sizing.maximum
  obtain ⟨h4, h5, h6⟩ := h
  constructor <;> omega

lemma SumsWithin.mono {n m : ℕ} {ss : List Sizing} (h : SumsWithin n ss) (hle : n ≤ m) :
    SumsWithin m ss := by
  have hwide : 2 * n * 0xffffffff ≤ 2 * m * 0xffffffff :=
    Nat.mul_le_mul_right _ (Nat.mul_le_mul_left _ hle)
  exact ⟨h.minimum_le.trans hwide, h.preferred_le.trans hwide, h.maximum_le.trans hwide⟩

lemma gapsOf_le (spacing : UInt32) (n : ℕ) : gapsOf spacing n ≤ (n - 1) * 0xffffffff := by
  rw [gapsOf, Nat.mul_comm]
  exact Nat.mul_le_mul_left _ (toNat_le_max spacing)

/-- Every width of an equal-width group is at most that of its children side by side. -/
lemma mul_length_le_sum {l : List ℕ} {a : ℕ} (h : ∀ b ∈ l, a ≤ b) : a * l.length ≤ l.sum := by
  rw [Nat.mul_comm, ← smul_eq_mul]
  exact List.card_nsmul_le_sum l a h

lemma Combined.within {spacing : UInt32} {children : List Sizing} {layout : GroupLayout}
    {s : Sizing} {n : ℕ} (h : Combined spacing children layout s) (hne : children ≠ [])
    (hsums : SumsWithin n children) : s.Within n := by
  have hlen : 0 < children.length := List.length_pos_of_ne_nil hne
  have hgaps := gapsOf_le spacing children.length
  obtain ⟨h1, h2, h3⟩ := hsums
  cases h with
  | natural => constructor <;> simp only <;> omega
  | @equalWidth lo pref hi hlo _ hhi _ lo_le le_hi =>
    have hall : hi * (children.map Sizing.maximum).length ≤ (children.map Sizing.maximum).sum :=
      mul_length_le_sum fun b hb => by
        obtain ⟨c, hc, rfl⟩ := List.mem_map.mp hb
        exact hhi c hc
    rw [List.length_map] at hall
    have hpref := Nat.mul_le_mul_right children.length le_hi
    have hlow := Nat.mul_le_mul_right children.length lo_le
    constructor <;> simp only <;> omega

/-! ## Sizing does not overflow -/

lemma combineSizing_ne_panic {id : String} {layout : GroupLayout} {spacing : UInt32}
    {children : List Sizing} {n : ℕ} (hsums : SumsWithin n children) (hn : n < 2 ^ 31) :
    combineSizing id layout spacing children ≠ panic := by
  by_cases hne : children = []
  · subst hne
    simp [combineSizing]
  have hemp : children.isEmpty = false := by simpa using hne
  have hlen : 0 < children.length := List.length_pos_of_ne_nil hne
  have hgaps : spacing.toNat * (children.length - 1) ≤ (children.length - 1) * 0xffffffff :=
    gapsOf_le spacing children.length
  obtain ⟨h1, h2, h3⟩ := hsums
  have hmul : U64.mul spacing.toNat (children.length - 1) =
      some (spacing.toNat * (children.length - 1)) :=
    U64.mul_eq_some.mpr ⟨by simp only [U64.size]; omega, rfl⟩
  rw [combineSizing, hemp, hmul]
  cases layout with
  | natural =>
    have hsum : ∀ f : Sizing → ℕ,
        (children.map f).sum + children.length * 0xffffffff ≤ 2 * n * 0xffffffff →
        U64.sum (children.map f) = some (children.map f).sum ∧
          U64.add (children.map f).sum (spacing.toNat * (children.length - 1)) =
            some ((children.map f).sum + spacing.toNat * (children.length - 1)) := by
      intro f hf
      exact ⟨U64.sum_eq_some.mpr ⟨by simp only [U64.size]; omega, rfl⟩,
        U64.add_eq_some.mpr ⟨by simp only [U64.size]; omega, rfl⟩⟩
    obtain ⟨ha, hb⟩ := hsum _ h1
    obtain ⟨hc, hd⟩ := hsum _ h2
    obtain ⟨he, hf⟩ := hsum _ h3
    simp [check, ha, hb, hc, hd, he, hf]
  | equalWidth =>
    -- the largest minimum and the smallest maximum of the children
    obtain ⟨lo, hlo⟩ : ∃ lo, (children.map Sizing.minimum).max? = some lo := by
      rw [← Option.ne_none_iff_exists']
      simpa using hne
    obtain ⟨hi, hhi⟩ : ∃ hi, (children.map Sizing.maximum).min? = some hi := by
      rw [← Option.ne_none_iff_exists']
      simpa using hne
    obtain ⟨wide, hwide⟩ : ∃ wide, (children.map Sizing.preferred).max? = some wide := by
      rw [← Option.ne_none_iff_exists']
      simpa using hne
    have hall : hi * (children.map Sizing.maximum).length ≤ (children.map Sizing.maximum).sum :=
      mul_length_le_sum (List.min?_eq_some_iff.mp hhi).2
    rw [List.length_map] at hall
    simp only [check, hlo, hhi, hwide, ok_bind, Bool.false_eq_true, if_false]
    by_cases hlt : lo > hi
    · simp [hlt]
    · rw [if_neg hlt]
      have hclamp : U64.clamp wide lo hi = some (max lo (min wide hi)) :=
        U64.clamp_eq_some.mpr ⟨not_lt.mp hlt, rfl⟩
      have hproduct : ∀ a, a ≤ hi →
          U64.mul a children.length = some (a * children.length) ∧
            U64.add (a * children.length) (spacing.toNat * (children.length - 1)) =
              some (a * children.length + spacing.toNat * (children.length - 1)) := by
        intro a ha
        have hle := Nat.mul_le_mul_right children.length ha
        exact ⟨U64.mul_eq_some.mpr ⟨by simp only [U64.size]; omega, rfl⟩,
          U64.add_eq_some.mpr ⟨by simp only [U64.size]; omega, rfl⟩⟩
      obtain ⟨ha, hb⟩ := hproduct lo (not_lt.mp hlt)
      obtain ⟨hc, hd⟩ := hproduct (max lo (min wide hi))
        (max_le (not_lt.mp hlt) (min_le_right _ _))
      obtain ⟨he, hf⟩ := hproduct hi le_rfl
      simp [hclamp, ha, hb, hc, hd, he, hf]

/-- The children of a group, given that each of them is sized without an overflow. -/
lemma groupElementsSizing_within {es : List GroupElement}
    (h : ∀ e ∈ es, groupElementSizing e ≠ panic ∧
      ∀ s, groupElementSizing e = ok s → s.Within e.count) :
    groupElementsSizing es ≠ panic ∧ ∀ ss, groupElementsSizing es = ok ss →
      List.Forall₂ (fun (e : GroupElement) s => s.Within e.count) es ss := by
  induction es with
  | nil => simp [groupElementsSizing]
  | cons e es ih =>
    obtain ⟨hne, hwithin⟩ := h e List.mem_cons_self
    obtain ⟨hrest, hall⟩ := ih fun e' he' => h e' (List.mem_cons_of_mem _ he')
    rw [groupElementsSizing]
    refine ⟨by simp [bind_eq_panic, hne, hrest], fun ss hss => ?_⟩
    simp only [bind_eq_ok, pure_eq, ok.injEq] at hss
    obtain ⟨s, hs, ss', hss', rfl⟩ := hss
    exact .cons (hwithin s hs) (hall ss' hss')

/-- The sizing of a group is computed without an overflow, and its widths are bounded. -/
theorem groupSizing_within (g : GroupSpec) (hcount : g.count < 2 ^ 31) :
    groupSizing g ≠ panic ∧ ∀ s, groupSizing g = ok s → s.Within g.count := by
  induction g using GroupSpec.nested_induction with
  | step g ih =>
    have hchild : ∀ e ∈ g.elements, groupElementSizing e ≠ panic ∧
        ∀ s, groupElementSizing e = ok s → s.Within e.count := by
      intro e he
      cases e with
      | item i =>
        refine ⟨by simp, fun s hs => ?_⟩
        obtain rfl : itemSizing i = s := by simpa using hs
        exact itemSizing_within i
      | group child =>
        have hlt := GroupElement.count_le he
        rw [GroupElement.count_group] at hlt
        simpa using ih child he (by omega)
    obtain ⟨hne, hall⟩ := groupElementsSizing_within hchild
    have hsum := g.count_eq
    have hsums : ∀ ss, groupElementsSizing g.elements = ok ss →
        SumsWithin g.count (ss.filter fun child => 0 < child.maximum) := by
      intro ss hss
      have hle : (g.elements.map GroupElement.count).sum ≤ g.count := by omega
      exact ((sumsWithin_of_forall₂ (hall ss hss)).filter _).mono hle
    obtain ⟨id, elements, layout, spacing, v, c⟩ := g
    rw [groupSizing]
    constructor
    · intro hpanic
      rcases bind_eq_panic.mp hpanic with hpanic | ⟨ss, hss, hpanic⟩
      · exact hne hpanic
      · exact combineSizing_ne_panic (hsums ss hss) hcount hpanic
    · intro s hs
      simp only [bind_eq_ok] at hs
      obtain ⟨ss, hss, hcomb⟩ := hs
      by_cases hnil : (ss.filter fun child => 0 < child.maximum) = []
      · rw [hnil, combineSizing_nil] at hcomb
        obtain rfl := ok.inj hcomb
        exact fixedSizing_within 0 (by rw [hsum]; omega)
      · exact (combined_of_combineSizing hnil hcomb).within hnil (hsums ss hss)

lemma elementSizing_within (e : Element) (hcount : e.count < 2 ^ 31) :
    elementSizing e ≠ panic ∧ ∀ s, elementSizing e = ok s → s.Within e.count := by
  cases e with
  | item i =>
    refine ⟨by simp [elementSizing], fun s hs => ?_⟩
    obtain rfl := ok.inj hs
    exact itemSizing_within i
  | group g => exact groupSizing_within g hcount
  | fixedSpace w =>
    refine ⟨by simp [elementSizing], fun s hs => ?_⟩
    obtain rfl := ok.inj hs
    exact fixedSizing_within w Nat.one_pos
  | flexibleSpace w _ =>
    refine ⟨by simp [elementSizing], fun s hs => ?_⟩
    obtain rfl := ok.inj hs
    exact fixedSizing_within w Nat.one_pos

/-- The elements of a bar. -/
lemma elementsSizing_within {es : List Element} (hcount : ∀ e ∈ es, e.count < 2 ^ 31) :
    elementsSizing es ≠ panic ∧ ∀ ss, elementsSizing es = ok ss →
      List.Forall₂ (fun (e : Element) s => s.Within e.count) es ss := by
  induction es with
  | nil => simp [elementsSizing]
  | cons e es ih =>
    obtain ⟨hne, hwithin⟩ := elementSizing_within e (hcount e List.mem_cons_self)
    obtain ⟨hrest, hall⟩ := ih fun e' he' => hcount e' (List.mem_cons_of_mem _ he')
    rw [elementsSizing]
    refine ⟨by simp [bind_eq_panic, hne, hrest], fun ss hss => ?_⟩
    simp only [bind_eq_ok, pure_eq, ok.injEq] at hss
    obtain ⟨s, hs, ss', hss', rfl⟩ := hss
    exact .cons (hwithin s hs) (hall ss' hss')

/-! ## Validation does not overflow -/

lemma validateItem_ne_panic {i : ItemSpec} {ids : BTreeSet ItemId} :
    validateItem i ids ≠ panic := by
  unfold validateItem
  split_ifs <;> simp

lemma validateGroupElements_ne_panic {es : List GroupElement}
    (hchild : ∀ g, GroupElement.group g ∈ es → ∀ {d ids gs}, validateGroup g d ids gs ≠ panic) :
    ∀ {d ids gs}, validateGroupElements es d ids gs ≠ panic := by
  induction es with
  | nil => simp [validateGroupElements]
  | cons e es ih =>
    intro d ids gs
    replace ih := @ih fun g hg => hchild g (List.mem_cons_of_mem _ hg)
    cases e with
    | item i =>
      rw [validateGroupElements]
      simp [bind_eq_panic, validateItem_ne_panic, ih]
    | group g =>
      rw [validateGroupElements]
      simp [bind_eq_panic, hchild g List.mem_cons_self, ih]

lemma validateGroup_ne_panic (g : GroupSpec) (hcount : g.count < 2 ^ 31) :
    ∀ {d ids gs}, validateGroup g d ids gs ≠ panic := by
  induction g using GroupSpec.nested_induction with
  | step g ih =>
    intro d ids gs
    have hchild : ∀ child, GroupElement.group child ∈ g.elements → ∀ {d ids gs},
        validateGroup child d ids gs ≠ panic := by
      intro child hmem
      have hlt := GroupElement.count_le hmem
      rw [GroupElement.count_group] at hlt
      intro d ids gs
      exact ih child hmem (by omega)
    have hsizing := (groupSizing_within g hcount).1
    obtain ⟨id, elements, layout, spacing, v, c⟩ := g
    rw [validateGroup]
    split_ifs
    · simp
    · simp
    · simp
    · simp [bind_eq_panic, validateGroupElements_ne_panic hchild, hsizing]

lemma validateElements_ne_panic {es : List Element} (hcount : ∀ e ∈ es, e.count < 2 ^ 31) :
    ∀ {n ids gs}, validateElements n es ids gs ≠ panic := by
  induction es with
  | nil => simp [validateElements]
  | cons e es ih =>
    intro n ids gs
    replace ih := @ih fun e' he' => hcount e' (List.mem_cons_of_mem _ he')
    cases e with
    | item i => simp [validateElements, bind_eq_panic, validateItem_ne_panic, ih]
    | group g =>
      have hgroup : ∀ {d ids gs}, validateGroup g d ids gs ≠ panic :=
        validateGroup_ne_panic g (hcount _ List.mem_cons_self)
      simp [validateElements, bind_eq_panic, hgroup, ih]
    | fixedSpace w => exact ih
    | flexibleSpace m w =>
      rw [validateElements]
      split_ifs
      · simp
      · exact ih

lemma validate_ne_panic {bar : BarSpec} {required : BTreeSet ItemId}
    (hcount : bar.count < 2 ^ 31) : validate bar required ≠ panic := by
  have helements : ∀ {n ids gs}, validateElements n bar.elements ids gs ≠ panic :=
    validateElements_ne_panic fun e he => lt_of_le_of_lt (Element.count_le he) hcount
  unfold validate
  intro h
  rcases bind_eq_panic.mp h with h | ⟨⟨ids, gs⟩, -, h⟩
  · exact helements h
  · dsimp only at h
    split at h
    · cases h
    · split at h <;> cases h

end TouchBar.Layout
