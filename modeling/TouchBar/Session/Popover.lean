import TouchBar.Layout.Resolve

/-!
# Anchored presentations

A popover is resolved as a bar of its one item, centered on the compact item it
belongs to, and clamped to the bar.  The session then reports where the compact
item lies inside it, with an unchecked `u32` subtraction.  `resolve_single` is the
closed form of the resolver on a bar of one item: it has its preferred width as far
as there is room, and it is hidden where not even its minimum fits.
-/

namespace TouchBar.Session

open TouchBar.Rust TouchBar.Layout Outcome

/-- `valid_item_spec`. -/
def validItemSpec (spec : ItemSpec) : Bool :=
  spec.id.value ≠ "" && 0 < spec.minWidth && spec.minWidth ≤ spec.preferredWidth &&
    spec.preferredWidth ≤ spec.maxWidth

/-- `Anchor`: the interval of the compact item. -/
structure Anchor where
  x : UInt32
  width : UInt32
  deriving DecidableEq, Repr

/-- `a.saturating_add(b)` on `u32`. -/
def saturatingAdd (a b : UInt32) : UInt32 :=
  UInt32.ofNat (min (a.toNat + b.toNat) (UInt32.size - 1))

/-- `a.saturating_sub(b)` on `u32`. -/
def saturatingSub (a b : UInt32) : UInt32 := UInt32.ofNat (a.toNat - b.toNat)

/-- `a - b` on `u32`, which panics where it leaves the range. -/
def checkedSub (a b : UInt32) : Option UInt32 := if b ≤ a then some (a - b) else none

/-- `resolve_popover`. -/
def resolvePopover (anchor : Anchor) (item : ItemSpec) (availableWidth : UInt32) :
    Outcome LayoutError Placement := do
  let bar : BarSpec := { elements := [.item item], principalItem := none }
  let layout ← resolve bar availableWidth .empty
  -- `expect("a valid one-item bar always produces one placement")`
  let placement ← check layout.placements.head?
  let center := saturatingAdd anchor.x (anchor.width / 2)
  let room ← check (checkedSub availableWidth placement.width)
  return { placement with x := min (saturatingSub center (placement.width / 2)) room }

/-- The anchored branch of `apply_active_presentation`: the placement, and the offset of the
compact item that `presentation_anchor` reports. -/
def anchoredPresentation (compact : Anchor) (containerSizing : ItemSpec) (canvasWidth : UInt32) :
    Outcome LayoutError (Placement × UInt32) := do
  let placement ← resolvePopover compact containerSizing canvasWidth
  let offset ← check (checkedSub compact.x placement.x)
  return (placement, offset)

/-! ## A bar of one item -/

section Single

variable {item : ItemSpec} {available : UInt32}

lemma validItemSpec_iff : validItemSpec item = true ↔ item.id.value ≠ "" ∧
    0 < item.minWidth.toNat ∧ item.minWidth.toNat ≤ item.preferredWidth.toNat ∧
      item.preferredWidth.toNat ≤ item.maxWidth.toNat := by
  simp [validItemSpec, UInt32.lt_iff_toNat_lt, UInt32.le_iff_toNat_le, and_assoc]

lemma validate_single (h : validItemSpec item = true) :
    validate { elements := [.item item], principalItem := none } .empty = ok () := by
  obtain ⟨hid, hpos, hmin, hmax⟩ := validItemSpec_iff.1 h
  have hitem : validateItem item .empty = ok (BTreeSet.empty.insert item.id) := by
    have hzero : item.minWidth ≠ 0 := by
      rintro h0
      simp [h0] at hpos
    have hsize : ¬ (item.minWidth = 0 ∨ item.minWidth > item.preferredWidth ∨
        item.preferredWidth > item.maxWidth) := by
      simp only [not_or, gt_iff_lt, UInt32.lt_iff_toNat_lt, not_lt]
      exact ⟨hzero, hmin, hmax⟩
    rw [validateItem, if_neg hid, if_neg hsize, if_neg]
    simp
  rw [validate, validateElements, hitem]
  rfl

lemma sum_single {n : ℕ} (h : n < U64.size) : U64.sum [n] = some n := by
  simp [h]

lemma lt_u64 (n : UInt32) : n.toNat < U64.size := by
  have := n.toNat_lt
  simp only [U64.size]
  omega

lemma toNat_min (a b : UInt32) : (min a b).toNat = min a.toNat b.toNat := by
  show (if a ≤ b then a else b).toNat = _
  split_ifs with h <;> rw [UInt32.le_iff_toNat_le] at h <;> omega

/-- The only unit of the bar, which is hidden if its minimum does not fit. -/
lemma hideToFit_single (s : Sizing) (unit : VisibilityUnit) (n : ℕ)
    (helements : unit.elements = [0]) (hrequired : unit.required = false) :
    hideToFit [s] n [unit] [true] s.minimum =
      if s.minimum ≤ n then some ([true], s.minimum) else some ([false], 0) := by
  rw [hideToFit]
  by_cases hfits : s.minimum ≤ n
  · rw [if_neg (by omega), if_pos hfits]
  · rw [if_pos (by omega), if_neg hfits]
    simp [hrequired, hideLoop, helements, hideUnit, U64.sub]

/-- The item gives up what exceeds the bar, which is not more than it can. -/
lemma compressToFit_single {n : ℕ} (hmin : item.minWidth.toNat ≤ item.preferredWidth.toNat)
    (hfits : item.minWidth.toNat ≤ n) :
    compressToFit { elements := [.item item], principalItem := none } [true] [itemSizing item]
      [item.preferredWidth.toNat] n = some [min item.preferredWidth.toNat n] := by
  have hcandidates : compressionCandidates 0 [.item item] [true] [itemSizing item] =
      [(item.compressionPriority, 0, item.minWidth.toNat)] := rfl
  simp only [compressToFit, sum_single (lt_u64 _), Option.bind_eq_bind, Option.bind_some,
    hcandidates, List.insertionSort_cons, List.insertionSort_nil, List.orderedInsert_nil]
  rw [compressLoop]
  by_cases hexcess : item.preferredWidth.toNat - n = 0
  · have hle : item.preferredWidth.toNat ≤ n := by omega
    simp [hexcess, assert, hle]
  · have hslack : min (item.preferredWidth.toNat - item.minWidth.toNat)
        (item.preferredWidth.toNat - n) = item.preferredWidth.toNat - n := by
      omega
    have hwidth : item.preferredWidth.toNat - (item.preferredWidth.toNat - n) =
        min item.preferredWidth.toNat n := by
      omega
    simp [hexcess, shrinkOne, U64.sub, hmin, hslack, hwidth, compressLoop, assert]

/-- The resolver on a bar of one item. -/
lemma resolve_single (h : validItemSpec item = true) :
    resolve { elements := [.item item], principalItem := none } available .empty =
      if item.minWidth ≤ available then
        ok ⟨[⟨item.id, 0, min item.preferredWidth available⟩], [],
          min item.preferredWidth available⟩
      else ok ⟨[], [item.id], 0⟩ := by
  obtain ⟨-, -, hmin, -⟩ := validItemSpec_iff.1 h
  have hunits : ∃ unit : VisibilityUnit, unit.elements = [0] ∧ unit.required = false ∧
      visibilityUnits { elements := [.item item], principalItem := none } .empty = ok [unit] := by
    refine ⟨itemUnit 0 item false, rfl, rfl, ?_⟩
    rw [visibilityUnits, addElements, addElement]
    cases item.visibilityGroup <;> rfl
  obtain ⟨unit, helements, hrequired, hunits⟩ := hunits
  have hsizing : elementsSizing [.item item] = ok [itemSizing item] := rfl
  have htotal : totalWidth { elements := [.item item], principalItem := none } [true]
      [itemSizing item] = some item.minWidth.toNat := sum_single (lt_u64 _)
  have hhide := hideToFit_single (itemSizing item) unit available.toNat helements hrequired
  have hmap : [Element.item item].map Element.isContent = [true] := rfl
  simp only [resolve, validate_single h, hunits, hsizing, hmap, htotal, check_some, ok_bind]
  rw [show (itemSizing item).minimum = item.minWidth.toNat from rfl] at hhide
  rw [hhide]
  simp only [UInt32.le_iff_toNat_le]
  by_cases hfits : item.minWidth.toNat ≤ available.toNat
  · have hrow : rowWidths Sizing.preferred [.item item] [true] [itemSizing item] =
        [item.preferredWidth.toNat] := rfl
    have hwidth := toNat_min item.preferredWidth available
    have hle : (min item.preferredWidth available).toNat ≤ available.toNat := by omega
    have hsize : (min item.preferredWidth available).toNat < UInt32.size := UInt32.toNat_lt _
    rw [if_pos hfits, if_pos hfits]
    simp only [check_some, ok_bind, gt_iff_lt, if_neg (not_lt.2 hfits), hrow,
      compressToFit_single hmin hfits, ← hwidth, findPrincipal, sum_single (lt_u64 _)]
    simp [U64.sub, hle, distribute, distributeFlexibleSpace, flexibleSpaces, U64.sum,
      placeElements, layoutShown, layoutElement, placeItem, jump, U64.add, lt_u64, U32.tryFrom]
    exact ⟨_, by simp [hsize], UInt32.ofNat_toNat⟩
  · rw [if_neg hfits, if_neg hfits]
    simp [compressToFit, rowWidths, elementWidth, U64.sum, U64.add, U64.size, findPrincipal,
      compressionCandidates, compressLoop, Element.compressionPriority, assert, U64.sub, distribute,
      distributeFlexibleSpace, flexibleSpaces, placeElements, layoutShown, collectItemIds, jump]

end Single

/-! ## The interval of a popover -/

/-- The popover lies in the bar, and the compact item lies inside it at the offset that the
session computes. -/
def AnchoredInside (compact : Anchor) (containerSizing : ItemSpec) (canvasWidth : UInt32) : Prop :=
  ∃ placement offset,
    anchoredPresentation compact containerSizing canvasWidth = ok (placement, offset) ∧
      placement.x.toNat + placement.width.toNat ≤ canvasWidth.toNat ∧
      placement.x.toNat + offset.toNat = compact.x.toNat ∧
      offset.toNat + compact.width.toNat ≤ placement.width.toNat

section Interval

variable {compact : Anchor} {item : ItemSpec} {canvas : UInt32}

lemma checkedSub_of_le {a b : UInt32} (h : b.toNat ≤ a.toNat) : checkedSub a b = some (a - b) :=
  if_pos (UInt32.le_iff_toNat_le.2 h)

/-- Where `resolve_popover` puts the left edge. -/
lemma toNat_popover (hbar : compact.x.toNat + compact.width.toNat ≤ canvas.toNat) (width : UInt32)
    (hwidth : width.toNat ≤ canvas.toNat) :
    (min (saturatingSub (saturatingAdd compact.x (compact.width / 2)) (width / 2))
      (canvas - width)).toNat =
        min (compact.x.toNat + compact.width.toNat / 2 - width.toNat / 2)
          (canvas.toNat - width.toNat) := by
  have hcanvas := canvas.toNat_lt
  have hhalf : (compact.width / 2).toNat = compact.width.toNat / 2 := UInt32.toNat_div _ _
  have hhalf' : (width / 2).toNat = width.toNat / 2 := UInt32.toNat_div _ _
  have hcenter : (saturatingAdd compact.x (compact.width / 2)).toNat =
      compact.x.toNat + compact.width.toNat / 2 := by
    rw [saturatingAdd, UInt32.toNat_ofNat', hhalf]
    simp only [UInt32.size]
    omega
  have hleft : (saturatingSub (saturatingAdd compact.x (compact.width / 2)) (width / 2)).toNat =
      compact.x.toNat + compact.width.toNat / 2 - width.toNat / 2 := by
    rw [saturatingSub, UInt32.toNat_ofNat', hcenter, hhalf']
    omega
  rw [toNat_min, hleft, UInt32.toNat_sub_of_le _ _ (UInt32.le_iff_toNat_le.2 hwidth)]

/-- The outcome of `resolve_popover`: a panic where the minimum does not fit, and else the
clamped interval. -/
lemma resolvePopover_eq (hitem : validItemSpec item = true) :
    resolvePopover compact item canvas =
      if item.minWidth ≤ canvas then
        let width := min item.preferredWidth canvas
        ok ⟨item.id, min (saturatingSub (saturatingAdd compact.x (compact.width / 2)) (width / 2))
          (canvas - width), width⟩
      else .panic := by
  rw [resolvePopover]
  simp only [resolve_single hitem]
  split_ifs with hfits
  · have hle : (min item.preferredWidth canvas).toNat ≤ canvas.toNat := by
      rw [toNat_min]
      omega
    simp [checkedSub_of_le hle]
  · simp

/-- On a compact item inside the bar, an admitted sizing gives a popover in the bar with the
compact item inside it exactly if its minimum fits the bar and it prefers to be at least as
wide as the compact item. -/
theorem anchoredInside_iff (hitem : validItemSpec item = true)
    (hbar : compact.x.toNat + compact.width.toNat ≤ canvas.toNat) :
    AnchoredInside compact item canvas ↔
      item.minWidth ≤ canvas ∧ compact.width ≤ item.preferredWidth := by
  rw [AnchoredInside, anchoredPresentation, resolvePopover_eq hitem]
  by_cases hfits : item.minWidth ≤ canvas
  · rw [if_pos hfits]
    have hwidth := toNat_min item.preferredWidth canvas
    have hx := toNat_popover hbar (min item.preferredWidth canvas) (by omega)
    generalize min item.preferredWidth canvas = width at hwidth hx
    simp only [ok_bind, hfits, true_and, UInt32.le_iff_toNat_le]
    constructor
    · rintro ⟨placement, offset, hok, -, -, hbox⟩
      simp only [bind_eq_ok, check_eq_ok, pure_eq, ok.injEq, Prod.mk.injEq] at hok
      obtain ⟨-, -, rfl, -⟩ := hok
      simp only at hbox
      omega
    · intro hwide
      -- the popover is at least as wide as the compact item, so its left edge is not to the
      -- right of it, wherever the clamp puts it
      have hle : min (compact.x.toNat + compact.width.toNat / 2 - width.toNat / 2)
          (canvas.toNat - width.toNat) ≤ compact.x.toNat := by
        omega
      rw [← hx] at hle
      refine ⟨_, _, by rw [checkedSub_of_le hle]; rfl, ?_, ?_, ?_⟩
      · show _ + width.toNat ≤ canvas.toNat
        rw [hx]
        omega
      · rw [UInt32.toNat_sub_of_le _ _ (UInt32.le_iff_toNat_le.2 hle)]
        exact Nat.add_sub_cancel' hle
      · show _ + compact.width.toNat ≤ width.toNat
        rw [UInt32.toNat_sub_of_le _ _ (UInt32.le_iff_toNat_le.2 hle), hx]
        omega
  · rw [if_neg hfits]
    simp [hfits]

/-- A popover that prefers to be half as wide as its compact item. -/
theorem anchoredInside_iff_narrow :
    AnchoredInside ⟨0, 100⟩ (ItemSpec.new "volume" 20 50 50) 1004 ↔
      (20 : UInt32) ≤ 1004 ∧ (100 : UInt32) ≤ 50 :=
  anchoredInside_iff (by decide) (by decide)

/-- Neither do the admitted sizings keep the offset from underflowing at the left end of the
bar, nor does a minimum beyond the width of the bar give a placement. -/
theorem not_anchoredInside :
    ¬ ∀ (compact : Anchor) (item : ItemSpec) (canvas : UInt32), validItemSpec item = true →
      compact.x.toNat + compact.width.toNat ≤ canvas.toNat →
        AnchoredInside compact item canvas := by
  intro h
  obtain ⟨placement, offset, hok, -⟩ :=
    h ⟨0, 100⟩ (ItemSpec.new "volume" 20 50 50) 1004 (by decide) (by decide)
  have hpanic : anchoredPresentation ⟨0, 100⟩ (ItemSpec.new "volume" 20 50 50) 1004 = .panic := by
    decide
  rw [hpanic] at hok
  cases hok

end Interval

end TouchBar.Session
