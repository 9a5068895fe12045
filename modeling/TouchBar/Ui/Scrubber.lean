import TouchBar.Lib.Runs
import TouchBar.Ui.Gesture

/-!
# The scrubber

A scrubber scrolls a row of items of equal width under a viewport.  A pan moves the row and
highlights an item; the state from before the pan is kept, and a cancelled pan puts it back.
The application may change the selection and the number of items at any time.

Widths and offsets are exact numbers.  The items that the application draws, and the overscan
that only the drawing uses, are left out.
-/

namespace TouchBar.Ui

open TouchBar.Lib

inductive ScrubberMovement where
  | free
  | snapToItem
deriving DecidableEq

inductive ScrubberSelection where
  | continuous
  | onRelease
deriving DecidableEq

inductive ScrubberEvent (K : Type*) where
  | offsetChanged (offset : K)
  | selectionChanged (index : ℕ)
  | interactionEnded
  | cancelled

structure DragSnapshot (K : Type*) where
  offset : K
  selected : Option ℕ
  highlighted : Option ℕ

structure Scrubber (K : Type*) where
  id : ℕ
  itemCount : ℕ
  itemExtent : K
  gap : K
  movement : ScrubberMovement
  selection : ScrubberSelection
  offset : K
  selected : Option ℕ
  highlighted : Option ℕ
  drag : Option (DragSnapshot K)

/-- `event_id`. -/
def GestureEvent.id {K : Type*} : GestureEvent K → ℕ
  | pressed id _ _ | tap id _ _ | longPressBegan id _ _ | longPressEnded id _ _
  | panBegan id _ _ | panChanged id _ _ _ _ | panEnded id _ _ _ _ | swipe id _ _ _
  | released id _ _ | cancelled id _ => id

variable {K : Type*} [Field K] [LinearOrder K]

/-- `f32::clamp`, for bounds in order. -/
def clamp (lower upper x : K) : K := max lower (min x upper)

lemma clamp_nonneg {upper x : K} : 0 ≤ clamp 0 upper x := le_max_left _ _

lemma clamp_le {upper x : K} (h : 0 ≤ upper) : clamp 0 upper x ≤ upper :=
  max_le h (min_le_right _ _)

/-- `0.5`. -/
def half : K := 1 / (2 : ℕ)

namespace Scrubber

variable (s : Scrubber K)

def new (id itemCount : ℕ) (itemExtent : K) : Scrubber K where
  id := id
  itemCount := itemCount
  itemExtent := max itemExtent 1
  gap := 4
  movement := .free
  selection := .onRelease
  offset := 0
  selected := none
  highlighted := none
  drag := none

/-- The builder `gap`. -/
def withGap (gap : K) : Scrubber K := { s with gap := max gap 0 }

/-- The builder `movement`. -/
def withMovement (movement : ScrubberMovement) : Scrubber K := { s with movement := movement }

def selectionBehavior (selection : ScrubberSelection) : Scrubber K :=
  { s with selection := selection }

/-! ## Offsets -/

def stride : K := s.itemExtent + s.gap

def edgeInset (viewportWidth : K) : K :=
  if s.movement = .snapToItem then max ((viewportWidth - s.itemExtent) * half) 0 else 0

def contentWidth (viewportWidth : K) : K :=
  if s.itemCount = 0 then 0
  else s.edgeInset viewportWidth * (2 : ℕ) + s.itemCount * s.itemExtent +
    ((s.itemCount - 1 : ℕ) : K) * s.gap

def maximumOffset (viewportWidth : K) : K := max (s.contentWidth viewportWidth - viewportWidth) 0

def centeredOffset (index : ℕ) (viewportWidth : K) : K :=
  clamp 0 (s.maximumOffset viewportWidth)
    (s.edgeInset viewportWidth + index * s.stride + s.itemExtent * half -
      viewportWidth * half)

variable {s} {w : K}

lemma maximumOffset_nonneg : 0 ≤ s.maximumOffset w := le_max_right _ _

lemma centeredOffset_le {index : ℕ} : s.centeredOffset index w ≤ s.maximumOffset w :=
  clamp_le maximumOffset_nonneg

end Scrubber

/-- The selected and the highlighted item exist, and the row is scrolled no further than it can
be. -/
structure Scrubber.Valid (viewportWidth : K) (s : Scrubber K) : Prop where
  selected : ∀ index ∈ s.selected, index < s.itemCount
  highlighted : ∀ index ∈ s.highlighted, index < s.itemCount
  offset_nonneg : 0 ≤ s.offset
  offset_le : s.offset ≤ s.maximumOffset viewportWidth

/-- The state from before the pan still fits the items that there are now. -/
structure DragSnapshot.Fits (viewportWidth : K) (s : Scrubber K) (drag : DragSnapshot K) :
    Prop where
  selected : ∀ index ∈ drag.selected, index < s.itemCount
  highlighted : ∀ index ∈ drag.highlighted, index < s.itemCount
  offset_nonneg : 0 ≤ drag.offset
  offset_le : drag.offset ≤ s.maximumOffset viewportWidth

namespace Scrubber

variable (s : Scrubber K)

/-! ## Selection and count -/

def setSelected (index : Option ℕ) (viewportWidth : K) : Scrubber K :=
  let selected := index.filter (· < s.itemCount)
  let s := { s with selected := selected, highlighted := selected }
  match s.movement, s.selected with
  | .snapToItem, some index => { s with offset := s.centeredOffset index viewportWidth }
  | _, _ => s

def setItemCount (itemCount : ℕ) (viewportWidth : K) : Scrubber K :=
  let s := { s with
    itemCount := itemCount
    selected := s.selected.filter (· < itemCount)
    highlighted := s.highlighted.filter (· < itemCount) }
  { s with offset := clamp 0 (s.maximumOffset viewportWidth) s.offset }

/-! ## What gestures do -/

def commitSelection (index : ℕ) (viewportWidth : K) : Scrubber K × List (ScrubberEvent K) :=
  let s := { s with selected := some index, highlighted := some index }
  match s.movement with
  | .snapToItem =>
    let offset := s.centeredOffset index viewportWidth
    ({ s with offset := offset }, [.selectionChanged index, .offsetChanged offset])
  | .free => (s, [.selectionChanged index])

/-- The end of the arm of `PanChanged`. -/
def highlight (index : Option ℕ) : Scrubber K × List (ScrubberEvent K) :=
  let s := { s with highlighted := index }
  match index with
  | some index =>
    if s.selection = .continuous ∧ s.selected ≠ some index then
      ({ s with selected := some index }, [.offsetChanged s.offset, .selectionChanged index])
    else (s, [.offsetChanged s.offset])
  | none => (s, [.offsetChanged s.offset])

/-- What a finished pan does with the highlighted item. -/
def releaseOn (index : ℕ) (viewportWidth : K) : Scrubber K × List (ScrubberEvent K) :=
  let selects := s.selection = .onRelease ∧ s.selected ≠ some index
  let s := if selects then { s with selected := some index } else s
  let events : List (ScrubberEvent K) := if selects then [.selectionChanged index] else []
  match s.movement with
  | .snapToItem =>
    let offset := s.centeredOffset index viewportWidth
    ({ s with offset := offset }, events ++ [.offsetChanged offset])
  | .free => (s, events)

/-- The arm of `PanEnded`. -/
def panEnded (viewportWidth : K) : Scrubber K × List (ScrubberEvent K) :=
  match s.highlighted with
  | some index =>
    let (s, events) := s.releaseOn index viewportWidth
    ({ s with drag := none }, events ++ [.interactionEnded])
  | none => ({ s with drag := none }, [.interactionEnded])

/-- The arm of `Cancelled`. -/
def cancelled : Scrubber K × List (ScrubberEvent K) :=
  match s.drag with
  | some drag =>
    ({ s with
      offset := drag.offset
      selected := drag.selected
      highlighted := drag.highlighted
      drag := none }, [.cancelled])
  | none => (s, [.cancelled])

section Valid

variable {s : Scrubber K} {w : K}

lemma mem_filter_lt {index : ℕ} {selected : Option ℕ} {itemCount : ℕ}
    (h : index ∈ selected.filter (· < itemCount)) : index < itemCount := by
  rw [Option.mem_def, Option.filter_eq_some_iff] at h
  exact of_decide_eq_true h.2

lemma valid_setSelected (h : s.Valid w) (index : Option ℕ) : (s.setSelected index w).Valid w := by
  have hselected : ∀ i ∈ index.filter (· < s.itemCount), i < s.itemCount :=
    fun i hi => mem_filter_lt hi
  rw [setSelected]
  dsimp only
  split
  · exact ⟨hselected, hselected, clamp_nonneg, centeredOffset_le⟩
  · exact ⟨hselected, hselected, h.offset_nonneg, h.offset_le⟩

lemma valid_setItemCount (itemCount : ℕ) : (s.setItemCount itemCount w).Valid w :=
  ⟨fun _ hi => mem_filter_lt hi, fun _ hi => mem_filter_lt hi, clamp_nonneg,
    clamp_le maximumOffset_nonneg⟩

lemma valid_commitSelection (h : s.Valid w) {index : ℕ} (hindex : index < s.itemCount) :
    (s.commitSelection index w).1.Valid w := by
  have hall : ∀ i ∈ some index, i < s.itemCount := by
    rintro i hi
    obtain rfl := Option.some.inj hi
    exact hindex
  rw [commitSelection]
  dsimp only
  split
  · exact ⟨hall, hall, clamp_nonneg, centeredOffset_le⟩
  · exact ⟨hall, hall, h.offset_nonneg, h.offset_le⟩

lemma valid_highlight (h : s.Valid w) {index : Option ℕ} (hindex : ∀ i ∈ index, i < s.itemCount) :
    (s.highlight index).1.Valid w := by
  cases index with
  | some index =>
    rw [highlight]
    split_ifs
    · exact ⟨hindex, hindex, h.offset_nonneg, h.offset_le⟩
    · exact ⟨h.selected, hindex, h.offset_nonneg, h.offset_le⟩
  | none => exact ⟨h.selected, hindex, h.offset_nonneg, h.offset_le⟩

lemma valid_releaseOn (h : s.Valid w) {index : ℕ} (hindex : index < s.itemCount) :
    (s.releaseOn index w).1.Valid w := by
  have hall : ∀ i ∈ some index, i < s.itemCount := by
    rintro i hi
    obtain rfl := Option.some.inj hi
    exact hindex
  -- the selection may move to the highlighted item
  have hselects : ∀ (p : Prop) [Decidable p],
      (if p then { s with selected := some index } else s).Valid w := by
    intro p _
    split_ifs
    · exact ⟨hall, h.highlighted, h.offset_nonneg, h.offset_le⟩
    · exact h
  rw [releaseOn]
  dsimp only
  split
  · have hmoved := hselects (s.selection = .onRelease ∧ s.selected ≠ some index)
    exact ⟨hmoved.selected, hmoved.highlighted, clamp_nonneg, centeredOffset_le⟩
  · exact hselects _

lemma valid_panEnded (h : s.Valid w) : (s.panEnded w).1.Valid w := by
  rw [panEnded]
  split
  · rename_i index hsome
    have hreleased := valid_releaseOn h (h.highlighted index hsome)
    exact ⟨hreleased.selected, hreleased.highlighted, hreleased.offset_nonneg,
      hreleased.offset_le⟩
  · exact ⟨h.selected, h.highlighted, h.offset_nonneg, h.offset_le⟩

/-- A cancelled pan leaves a valid state exactly when the state that comes back fits. -/
lemma valid_cancelled_iff (h : s.Valid w) :
    s.cancelled.1.Valid w ↔ ∀ drag ∈ s.drag, drag.Fits w s := by
  rw [cancelled]
  split
  · rename_i drag hdrag
    constructor
    · intro hvalid other hother
      obtain rfl : drag = other := Option.some.inj (hdrag.symm.trans hother)
      exact ⟨hvalid.selected, hvalid.highlighted, hvalid.offset_nonneg, hvalid.offset_le⟩
    · intro hfits
      obtain ⟨hselected, hhighlighted, hnonneg, hle⟩ := hfits drag hdrag
      exact ⟨hselected, hhighlighted, hnonneg, hle⟩
  · rename_i hnone
    refine iff_of_true h fun drag hdrag => ?_
    rw [hnone] at hdrag
    cases hdrag

end Valid

end Scrubber

/-! ## Gestures -/

variable [FloorRing K]

/-- `f32::round`, which takes halves away from zero. -/
def roundAway (x : K) : K := if 0 ≤ x then (⌊x + half⌋ : K) else -(⌊-x + half⌋ : K)

/-- `as usize`. -/
def asIndex (x : K) : ℕ := ⌊x⌋.toNat

namespace Scrubber

variable (s : Scrubber K)

def itemAt (localX viewportWidth : K) : Option ℕ :=
  let contentX := localX + s.offset - s.edgeInset viewportWidth
  if contentX < 0 then none
  else
    let index := asIndex (contentX / s.stride)
    if index < s.itemCount ∧ contentX - index * s.stride ≤ s.itemExtent then some index else none

def nearestToCenter (viewportWidth : K) : Option ℕ :=
  if s.itemCount = 0 then none
  else
    let contentCenter := viewportWidth * half + s.offset - s.edgeInset viewportWidth
    some (asIndex (clamp 0 ((s.itemCount - 1 : ℕ) : K)
      (roundAway ((contentCenter - s.itemExtent * half) / s.stride))))

/-- The item that a pan highlights. -/
def panIndex (position : Point K) (viewport : Rect K) : Option ℕ :=
  match s.movement with
  | .free => s.itemAt (position.x - viewport.x) viewport.width
  | .snapToItem => s.nearestToCenter viewport.width

/-- The arm of `PanChanged`. -/
def panChanged (position translation : Point K) (viewport : Rect K) :
    Scrubber K × List (ScrubberEvent K) :=
  let origin := (s.drag.map DragSnapshot.offset).getD s.offset
  let s := { s with
    offset := clamp 0 (s.maximumOffset viewport.width) (origin - translation.x) }
  s.highlight (s.panIndex position viewport)

def handle (event : GestureEvent K) (viewport : Rect K) : Scrubber K × List (ScrubberEvent K) :=
  if event.id ≠ s.id then (s, [])
  else
    match event with
    | .pressed _ _ _ => (s, [])
    | .tap _ _ position =>
      match s.itemAt (position.x - viewport.x) viewport.width with
      | none => (s, [])
      | some index => s.commitSelection index viewport.width
    | .panBegan _ _ _ =>
      ({ s with drag := some ⟨s.offset, s.selected, s.highlighted⟩ }, [])
    | .panChanged _ _ position translation _ => s.panChanged position translation viewport
    | .panEnded _ _ _ _ _ => s.panEnded viewport.width
    | .cancelled _ _ => s.cancelled
    | .longPressBegan _ _ _ | .longPressEnded _ _ _ | .swipe _ _ _ _ | .released _ _ _ => (s, [])

end Scrubber

/-! ## Runs -/

/-- A call of the application, or an event of the gesture arena. -/
inductive ScrubberStep (K : Type*) where
  | setSelected (index : Option ℕ)
  | setItemCount (itemCount : ℕ)
  /-- The event, with the place and the height of the viewport. -/
  | handle (event : GestureEvent K) (x y height : K)

/-- A step under a viewport of a fixed width. -/
def Scrubber.step (viewportWidth : K) (s : Scrubber K) : ScrubberStep K → Scrubber K
  | .setSelected index => s.setSelected index viewportWidth
  | .setItemCount itemCount => s.setItemCount itemCount viewportWidth
  | .handle event x y height => (s.handle event ⟨x, y, viewportWidth, height⟩).1

/-- If the step cancels a pan, the state that comes back fits. -/
def Scrubber.RestoresFitting (viewportWidth : K) (s : Scrubber K) : ScrubberStep K → Prop
  | .handle (.cancelled id _) _ _ _ => id = s.id → ∀ drag ∈ s.drag, drag.Fits viewportWidth s
  | _ => True

namespace Scrubber

variable {s : Scrubber K} {w : K}

lemma itemAt_lt {localX : K} {index : ℕ} (h : index ∈ s.itemAt localX w) :
    index < s.itemCount := by
  rw [itemAt, Option.mem_def] at h
  dsimp only at h
  split_ifs at h with hleft hinside
  obtain rfl := Option.some.inj h
  exact hinside.1

/-- The clamp keeps the index of the nearest item below the count. -/
lemma nearestToCenter_lt [IsStrictOrderedRing K] {index : ℕ} (h : index ∈ s.nearestToCenter w) :
    index < s.itemCount := by
  rw [nearestToCenter, Option.mem_def] at h
  split_ifs at h with hempty
  obtain rfl := Option.some.inj h
  have hle : ∀ x : K, ⌊clamp 0 ((s.itemCount - 1 : ℕ) : K) x⌋ ≤ ((s.itemCount - 1 : ℕ) : ℤ) := by
    intro x
    have h := Int.floor_mono (@clamp_le K _ _ ((s.itemCount - 1 : ℕ) : K) x (Nat.cast_nonneg _))
    rwa [Int.floor_natCast] at h
  have h := hle (roundAway ((w * half + s.offset - s.edgeInset w - s.itemExtent * half) /
    s.stride))
  rw [asIndex]
  omega

lemma panIndex_lt [IsStrictOrderedRing K] {position : Point K} {viewport : Rect K} {index : ℕ}
    (h : index ∈ s.panIndex position viewport) : index < s.itemCount := by
  rw [panIndex] at h
  split at h
  · exact itemAt_lt h
  · exact nearestToCenter_lt h

lemma valid_panChanged [IsStrictOrderedRing K] (h : s.Valid w) (position translation : Point K)
    (x y height : K) : (s.panChanged position translation ⟨x, y, w, height⟩).1.Valid w := by
  rw [panChanged]
  refine valid_highlight ?_ fun i hi => panIndex_lt hi
  exact ⟨h.selected, h.highlighted, clamp_nonneg, clamp_le maximumOffset_nonneg⟩

/-- One step keeps the state valid exactly when a cancelled pan brings back a state that
fits. -/
theorem valid_step_iff [IsStrictOrderedRing K] (h : s.Valid w) (a : ScrubberStep K) :
    (s.step w a).Valid w ↔ s.RestoresFitting w a := by
  cases a with
  | setSelected index => exact iff_of_true (valid_setSelected h index) trivial
  | setItemCount itemCount => exact iff_of_true (valid_setItemCount itemCount) trivial
  | handle event x y height =>
    by_cases hid : event.id = s.id
    · rw [step, handle.eq_def, if_neg (not_not.mpr hid)]
      cases event with
      | pressed id contact position => exact iff_of_true h trivial
      | tap id contact position =>
        refine iff_of_true ?_ trivial
        dsimp only
        split
        · exact h
        · rename_i index hsome
          exact valid_commitSelection h (itemAt_lt hsome)
      | longPressBegan id contact position => exact iff_of_true h trivial
      | longPressEnded id contact position => exact iff_of_true h trivial
      | panBegan id contact position =>
        exact iff_of_true ⟨h.selected, h.highlighted, h.offset_nonneg, h.offset_le⟩ trivial
      | panChanged id contact position translation delta =>
        exact iff_of_true (valid_panChanged h position translation x y height) trivial
      | panEnded id contact position translation velocity =>
        exact iff_of_true (valid_panEnded h) trivial
      | swipe id contact translation velocity => exact iff_of_true h trivial
      | released id contact position => exact iff_of_true h trivial
      | cancelled id contact =>
        rw [RestoresFitting]
        exact (valid_cancelled_iff h).trans ⟨fun hfits _ => hfits, fun hfits => hfits hid⟩
    · -- an event for another widget
      rw [step, handle.eq_def, if_pos hid]
      refine iff_of_true h ?_
      cases event <;> first | trivial | exact fun heq => absurd heq hid

/-- A scrubber as the application builds it. -/
def built (id itemCount : ℕ) (itemExtent gap : K) (movement : ScrubberMovement)
    (selection : ScrubberSelection) : Scrubber K :=
  (((new id itemCount itemExtent).withGap gap).withMovement movement).selectionBehavior selection

/-- Along every run the scrubber stays valid exactly when each cancelled pan brings back a
state that fits the items there are then. -/
theorem valid_along_run_iff [IsStrictOrderedRing K] (viewportWidth : K) (id itemCount : ℕ)
    (itemExtent gap : K) (movement : ScrubberMovement) (selection : ScrubberSelection)
    (steps : List (ScrubberStep K)) :
    (∀ front, front <+: steps → (run (step viewportWidth)
        (built id itemCount itemExtent gap movement selection) front).Valid viewportWidth) ↔
      Meets (step viewportWidth) (RestoresFitting viewportWidth)
        (built id itemCount itemExtent gap movement selection) steps := by
  have hnone : ∀ i ∈ (none : Option ℕ), i < itemCount := by
    intro i hi
    cases hi
  have hbuilt : (built id itemCount itemExtent gap movement selection).Valid viewportWidth := by
    refine ⟨hnone, hnone, le_rfl, ?_⟩
    show (0 : K) ≤ _
    exact maximumOffset_nonneg
  have hstep : ∀ (s : Scrubber K) (a : ScrubberStep K), s.Valid viewportWidth →
      ((s.step viewportWidth a).Valid viewportWidth ↔ s.RestoresFitting viewportWidth a) :=
    fun _ a h => valid_step_iff h a
  exact forall_prefix_iff_meets hstep hbuilt steps

/-- Item 19 of 20 is selected when a pan begins; the application leaves 5 items, and the pan is
cancelled. -/
def shrinkingPan : List (ScrubberStep ℚ) := [
  .setSelected (some 19),
  .handle (.panBegan 1 0 ⟨0, 0⟩) 0 0 40,
  .setItemCount 5,
  .handle (.cancelled 1 0) 0 0 40]

theorem valid_along_run_iff_shrinking :
    (∀ front, front <+: shrinkingPan → (run (step 120)
        (built 1 20 40 4 .free .onRelease) front).Valid 120) ↔
      Meets (step 120) (RestoresFitting 120) (built 1 20 40 4 .free .onRelease) shrinkingPan :=
  valid_along_run_iff 120 1 20 40 4 .free .onRelease shrinkingPan

/-- The cancelled pan selects an item that no longer exists. -/
theorem cancel_restores_missing_item :
    ¬ ∀ (viewportWidth : ℚ) (id itemCount : ℕ) (itemExtent gap : ℚ) (movement : ScrubberMovement)
      (selection : ScrubberSelection) (steps : List (ScrubberStep ℚ)) (front : List _),
      front <+: steps → (run (step viewportWidth)
        (built id itemCount itemExtent gap movement selection) front).Valid viewportWidth := by
  intro h
  have hvalid := h 120 1 20 40 4 .free .onRelease shrinkingPan _ List.prefix_rfl
  have hmissing : ¬ 19 < 5 := by decide
  exact hmissing (hvalid.selected 19 rfl)

end Scrubber

end TouchBar.Ui
