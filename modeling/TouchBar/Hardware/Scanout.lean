import TouchBar.Lib.Blocks
import TouchBar.Lib.Overwrite

/-!
# Copying a scene to the display

The display of the Touch Bar stands upright: its rows are the columns of the scene.  The daemon
turns a scene by a quarter, centres it, and writes every pixel as blue, green, red and a byte
of `0xff`, with the colours multiplied by the alpha.  Offsets are of type `usize`, dimensions of
type `u32`; a sum or product that leaves its type, and an index outside a buffer, panics.
-/

namespace TouchBar.Hardware

open TouchBar.Rust TouchBar.Lib Outcome

inductive SceneError where
  | dimensionsOverflow
  | bufferTooSmall
  | exceedsMode
  | exceedsDumbBuffer
deriving DecidableEq

/-- `a + b` of type `u32`. -/
def addU32 (a b : ℕ) : Option ℕ := if a + b < 2 ^ 32 then some (a + b) else none

/-- `target[index] = value`. -/
def setByte (target : List UInt8) (index : ℕ) (value : UInt8) : Option (List UInt8) :=
  if index < target.length then some (target.set index value) else none

/-- A component multiplied by the alpha. -/
def premultiplied (component alpha : UInt8) : UInt8 :=
  (component.toNat * alpha.toNat / 255).toUInt8

/-- The product fits a byte. -/
lemma toNat_premultiplied (component alpha : UInt8) :
    (premultiplied component alpha).toNat = component.toNat * alpha.toNat / 255 := by
  have hcomponent := component.toNat_lt
  have halpha := alpha.toNat_lt
  have hproduct : component.toNat * alpha.toNat ≤ 255 * 255 :=
    Nat.mul_le_mul (by omega) (by omega)
  rw [premultiplied, Nat.toUInt8_eq, UInt8.toNat_ofNat']
  omega

/-- The arguments of `draw_logical_rgba` but for the two buffers. -/
structure SceneLayout where
  pitch : ℕ
  physicalWidth : UInt32
  physicalHeight : UInt32
  logicalWidth : UInt32
  logicalHeight : UInt32
  sourceStride : ℕ
  bottomUp : Bool

namespace SceneLayout

variable (scene : SceneLayout)

/-- The row of the source for a row of the scene. -/
def sourceRow (y : ℕ) : Option ℕ :=
  if scene.bottomUp then do
    let last ← U64.sub scene.logicalHeight.toNat 1
    U64.sub last y
  else some y

def logicalLeft : ℕ := (scene.physicalHeight.toNat - scene.logicalWidth.toNat) / 2

def logicalTop : ℕ := (scene.physicalWidth.toNat - scene.logicalHeight.toNat) / 2

/-- The body of the inner loop. -/
def drawPixel (pixels : List UInt8) (y : ℕ) (target : List UInt8) (x : ℕ) :
    Outcome SceneError (List UInt8) := do
  let sourceY ← check (scene.sourceRow y)
  let row ← check (U64.mul sourceY scene.sourceStride)
  let source ← check (U64.add row (x * 4))
  let alpha ← check pixels[source + 3]?
  let logicalX ← check (addU32 scene.logicalLeft x)
  let logicalY ← check (addU32 scene.logicalTop y)
  let lastColumn ← check (U64.sub scene.physicalWidth.toNat 1)
  let physicalX ← check (U64.sub lastColumn logicalY)
  let physicalY := logicalX
  let line ← check (U64.mul physicalY scene.pitch)
  let destination ← check (U64.add line (physicalX * 4))
  let stop ← check (U64.add destination 4)
  if target.length < stop then err .exceedsDumbBuffer
  else
    let blue ← check pixels[source + 2]?
    let target ← check (setByte target destination (premultiplied blue alpha))
    let green ← check pixels[source + 1]?
    let target ← check (setByte target (destination + 1) (premultiplied green alpha))
    let red ← check pixels[source]?
    let target ← check (setByte target (destination + 2) (premultiplied red alpha))
    check (setByte target (destination + 3) 0xff)

def drawLogicalRgba (target pixels : List UInt8) : Outcome SceneError (List UInt8) := do
  let required := scene.sourceStride * scene.logicalHeight.toNat
  if U64.size ≤ required then err .dimensionsOverflow
  else if scene.sourceStride < scene.logicalWidth.toNat * 4 ∨ pixels.length < required then
    err .bufferTooSmall
  else if scene.physicalHeight < scene.logicalWidth ∨ scene.physicalWidth < scene.logicalHeight then
    err .exceedsMode
  else
    (List.range scene.logicalHeight.toNat).foldlM
      (fun target y => (List.range scene.logicalWidth.toNat).foldlM
        (fun target x => scene.drawPixel pixels y target x) target)
      (target.map fun _ => 0)

/-! ## Where the pixels go -/

/-- The offset of a pixel in the target. -/
def place (pixel : ℕ × ℕ) : ℕ :=
  (scene.logicalLeft + pixel.1) * scene.pitch +
    (scene.physicalWidth.toNat - 1 - (scene.logicalTop + pixel.2)) * 4

/-- The offset of a pixel in the source. -/
def sourceOffset (pixel : ℕ × ℕ) : ℕ :=
  (if scene.bottomUp then scene.logicalHeight.toNat - 1 - pixel.2 else pixel.2) *
    scene.sourceStride + pixel.1 * 4

/-- The four bytes of a pixel of the scene on the display. -/
def pixelBytes (pixels : List UInt8) (pixel : ℕ × ℕ) : List UInt8 :=
  let component (i : ℕ) : UInt8 := (pixels[scene.sourceOffset pixel + i]?).getD 0
  [premultiplied (component 2) (component 3), premultiplied (component 1) (component 3),
    premultiplied (component 0) (component 3), 0xff]

/-- The pixel is one of the scene. -/
def Inside (pixel : ℕ × ℕ) : Prop :=
  pixel.1 < scene.logicalWidth.toNat ∧ pixel.2 < scene.logicalHeight.toNat

/-- What the checks of `draw_logical_rgba` accept. -/
structure Accepts (pixels : List UInt8) : Prop where
  required_lt : scene.sourceStride * scene.logicalHeight.toNat < U64.size
  stride_le : scene.logicalWidth.toNat * 4 ≤ scene.sourceStride
  required_le : scene.sourceStride * scene.logicalHeight.toNat ≤ pixels.length
  width_le : scene.logicalWidth ≤ scene.physicalHeight
  height_le : scene.logicalHeight ≤ scene.physicalWidth

/-- The target holds the rows of the display. -/
structure Holds (size : ℕ) : Prop where
  pitch_le : 4 * scene.physicalWidth.toNat ≤ scene.pitch
  rows_le : scene.pitch * scene.physicalHeight.toNat ≤ size
  size_lt : size < U64.size

variable {scene} {pixels : List UInt8} {size : ℕ} {pixel pixel' : ℕ × ℕ}

lemma column_lt (h : scene.Accepts pixels) (hpixel : scene.Inside pixel) :
    scene.logicalTop + pixel.2 < scene.physicalWidth.toNat := by
  have hheight := UInt32.le_iff_toNat_le.mp h.height_le
  have hy := hpixel.2
  rw [logicalTop]
  omega

lemma row_lt (h : scene.Accepts pixels) (hpixel : scene.Inside pixel) :
    scene.logicalLeft + pixel.1 < scene.physicalHeight.toNat := by
  have hwidth := UInt32.le_iff_toNat_le.mp h.width_le
  have hx := hpixel.1
  rw [logicalLeft]
  omega

/-- The bytes of a pixel stay inside its row. -/
lemma columnBytes_lt (h : scene.Accepts pixels) (hholds : scene.Holds size)
    (hpixel : scene.Inside pixel) {j : ℕ} (hj : j < 4) :
    (scene.physicalWidth.toNat - 1 - (scene.logicalTop + pixel.2)) * 4 + j < scene.pitch := by
  have hcolumn := column_lt h hpixel
  have hpitch := hholds.pitch_le
  omega

lemma place_add_le (h : scene.Accepts pixels) (hholds : scene.Holds size)
    (hpixel : scene.Inside pixel) : scene.place pixel + 4 ≤ size := by
  have hcolumn := columnBytes_lt h hholds hpixel (by decide : 3 < 4)
  have hrow := row_lt h hpixel
  have hrows := hholds.rows_le
  have hline : (scene.logicalLeft + pixel.1 + 1) * scene.pitch ≤
      scene.physicalHeight.toNat * scene.pitch := Nat.mul_le_mul_right _ hrow
  rw [Nat.add_mul, Nat.one_mul, Nat.mul_comm scene.physicalHeight.toNat] at hline
  rw [place]
  omega

/-- Different bytes of the scene go to different bytes of the target. -/
lemma place_inj (h : scene.Accepts pixels) (hholds : scene.Holds size)
    (hpixel : scene.Inside pixel) (hpixel' : scene.Inside pixel') {j j' : ℕ} (hj : j < 4)
    (hj' : j' < 4) (heq : scene.place pixel + j = scene.place pixel' + j') :
    pixel = pixel' ∧ j = j' := by
  have hcolumn := columnBytes_lt h hholds hpixel hj
  have hcolumn' := columnBytes_lt h hholds hpixel' hj'
  rw [place, place, Nat.add_assoc, Nat.add_assoc] at heq
  obtain ⟨hrow, hbyte⟩ := (mul_add_inj hcolumn hcolumn').mp heq
  have hx : pixel.1 = pixel'.1 := by omega
  have hlt := column_lt h hpixel
  have hlt' := column_lt h hpixel'
  have hy : pixel.2 = pixel'.2 := by omega
  exact ⟨Prod.ext hx hy, by omega⟩

lemma sourceOffset_add_le (h : scene.Accepts pixels) (hpixel : scene.Inside pixel) :
    scene.sourceOffset pixel + 4 ≤ scene.sourceStride * scene.logicalHeight.toNat := by
  obtain ⟨hx, hy⟩ := hpixel
  have hstride := h.stride_le
  have hrow : (if scene.bottomUp then scene.logicalHeight.toNat - 1 - pixel.2 else pixel.2) <
      scene.logicalHeight.toNat := by
    split_ifs <;> omega
  rw [sourceOffset]
  generalize (if scene.bottomUp then scene.logicalHeight.toNat - 1 - pixel.2 else pixel.2) = row
    at hrow ⊢
  have hline : (row + 1) * scene.sourceStride ≤
      scene.logicalHeight.toNat * scene.sourceStride := Nat.mul_le_mul_right _ hrow
  rw [Nat.add_mul, Nat.one_mul, Nat.mul_comm scene.logicalHeight.toNat] at hline
  omega

/-! ## One pixel -/

lemma sourceRow_eq (hy : pixel.2 < scene.logicalHeight.toNat) :
    scene.sourceRow pixel.2 =
      some (if scene.bottomUp then scene.logicalHeight.toNat - 1 - pixel.2 else pixel.2) := by
  rw [sourceRow]
  split_ifs
  · have hlast : U64.sub scene.logicalHeight.toNat 1 = some (scene.logicalHeight.toNat - 1) :=
      U64.sub_eq_some.mpr ⟨by omega, rfl⟩
    rw [hlast]
    exact U64.sub_eq_some.mpr ⟨by omega, rfl⟩
  · rfl

lemma setByte_eq {target : List UInt8} {index : ℕ} (h : index < target.length) (value : UInt8) :
    setByte target index value = some (target.set index value) := if_pos h

/-- No operation of the loop's body leaves its type or a buffer. -/
theorem drawPixel_eq (h : scene.Accepts pixels) {target : List UInt8}
    (hholds : scene.Holds target.length) (hpixel : scene.Inside pixel) :
    scene.drawPixel pixels pixel.2 target pixel.1 =
      ok (overwrite target (scene.place pixel) (scene.pixelBytes pixels pixel)) := by
  have hsource := sourceOffset_add_le h hpixel
  have hrequired := h.required_lt
  have hpixels := h.required_le
  have hplace := place_add_le h hholds hpixel
  have hsize := hholds.size_lt
  have hcolumn := column_lt h hpixel
  have hrow := row_lt h hpixel
  have hwidth := scene.physicalWidth.toNat_lt
  have hheight := scene.physicalHeight.toNat_lt
  have hbyte : ∀ i < 4, ∃ byte, pixels[scene.sourceOffset pixel + i]? = some byte := by
    intro i hi
    exact ⟨_, List.getElem?_eq_getElem (by omega)⟩
  obtain ⟨red, hred⟩ := hbyte 0 (by decide)
  obtain ⟨green, hgreen⟩ := hbyte 1 (by decide)
  obtain ⟨blue, hblue⟩ := hbyte 2 (by decide)
  obtain ⟨alpha, halpha⟩ := hbyte 3 (by decide)
  have hbytes : scene.pixelBytes pixels pixel = [premultiplied blue alpha,
      premultiplied green alpha, premultiplied red alpha, 0xff] := by
    simp only [pixelBytes, hred, hgreen, hblue, halpha, Option.getD_some]
  -- the checked operations, in the order of the source
  have hmul : U64.mul (if scene.bottomUp then scene.logicalHeight.toNat - 1 - pixel.2
      else pixel.2) scene.sourceStride = some ((if scene.bottomUp then
        scene.logicalHeight.toNat - 1 - pixel.2 else pixel.2) * scene.sourceStride) := by
    rw [sourceOffset] at hsource
    exact U64.mul_eq_some.mpr ⟨by omega, rfl⟩
  have hadd : U64.add ((if scene.bottomUp then scene.logicalHeight.toNat - 1 - pixel.2
      else pixel.2) * scene.sourceStride) (pixel.1 * 4) = some (scene.sourceOffset pixel) := by
    rw [sourceOffset] at hsource ⊢
    exact U64.add_eq_some.mpr ⟨by omega, rfl⟩
  have hx : addU32 scene.logicalLeft pixel.1 = some (scene.logicalLeft + pixel.1) :=
    if_pos (by omega)
  have hy : addU32 scene.logicalTop pixel.2 = some (scene.logicalTop + pixel.2) :=
    if_pos (by omega)
  have hlast : U64.sub scene.physicalWidth.toNat 1 = some (scene.physicalWidth.toNat - 1) :=
    U64.sub_eq_some.mpr ⟨by omega, rfl⟩
  have hphysical : U64.sub (scene.physicalWidth.toNat - 1) (scene.logicalTop + pixel.2) =
      some (scene.physicalWidth.toNat - 1 - (scene.logicalTop + pixel.2)) :=
    U64.sub_eq_some.mpr ⟨by omega, rfl⟩
  have hline : U64.mul (scene.logicalLeft + pixel.1) scene.pitch =
      some ((scene.logicalLeft + pixel.1) * scene.pitch) := by
    rw [place] at hplace
    exact U64.mul_eq_some.mpr ⟨by omega, rfl⟩
  have hdestination : U64.add ((scene.logicalLeft + pixel.1) * scene.pitch)
      ((scene.physicalWidth.toNat - 1 - (scene.logicalTop + pixel.2)) * 4) =
      some (scene.place pixel) := by
    rw [place] at hplace ⊢
    exact U64.add_eq_some.mpr ⟨by omega, rfl⟩
  have hstop : U64.add (scene.place pixel) 4 = some (scene.place pixel + 4) :=
    U64.add_eq_some.mpr ⟨by omega, rfl⟩
  rw [Nat.add_zero] at hred
  simp only [drawPixel, sourceRow_eq hpixel.2, hmul, hadd, hx, hy, hlast, hphysical, hline,
    hdestination, hstop, check_some, ok_bind, hred, hgreen, hblue, halpha]
  rw [if_neg (by omega)]
  simp only [setByte_eq, List.length_set, (by omega : scene.place pixel < target.length),
    (by omega : scene.place pixel + 1 < target.length),
    (by omega : scene.place pixel + 2 < target.length),
    (by omega : scene.place pixel + 3 < target.length), check_some, ok_bind]
  rw [hbytes]
  rfl

/-! ## The whole scene -/

variable (scene) in
/-- The pixels of the scene, as the loops come to them. -/
def scenePixels : List (ℕ × ℕ) :=
  (List.range scene.logicalHeight.toNat).flatMap fun y =>
    (List.range scene.logicalWidth.toNat).map fun x => (x, y)

lemma mem_scenePixels : pixel ∈ scene.scenePixels ↔ scene.Inside pixel := by
  rw [scenePixels, List.mem_flatMap]
  constructor
  · rintro ⟨y, hy, hpixel⟩
    obtain ⟨x, hx, rfl⟩ := List.mem_map.mp hpixel
    exact ⟨List.mem_range.mp hx, List.mem_range.mp hy⟩
  · rintro ⟨hx, hy⟩
    exact ⟨pixel.2, List.mem_range.mpr hy, List.mem_map.mpr ⟨pixel.1, List.mem_range.mpr hx, rfl⟩⟩

lemma nodup_scenePixels : scene.scenePixels.Nodup := by
  rw [scenePixels, List.nodup_flatMap]
  constructor
  · intro y _
    exact List.nodup_range.map fun x x' heq => congrArg Prod.fst heq
  · refine List.nodup_range.imp fun {y y'} hne => ?_
    intro pixel hpixel hpixel'
    obtain ⟨x, -, rfl⟩ := List.mem_map.mp hpixel
    obtain ⟨x', -, heq⟩ := List.mem_map.mp hpixel'
    exact hne (congrArg Prod.snd heq).symm

/-- Accepted arguments draw every pixel at its place, over zeros. -/
theorem drawLogicalRgba_eq (h : scene.Accepts pixels) {target : List UInt8}
    (hholds : scene.Holds target.length) :
    scene.drawLogicalRgba target pixels = ok (overwriteAll scene.place (scene.pixelBytes pixels)
      (target.map fun _ => 0) scene.scenePixels) := by
  have hstart : (target.map fun _ => (0 : UInt8)).length = target.length := List.length_map _
  -- the inner loop, and around it the outer one, keep the length of the target
  have hline : ∀ y ∈ List.range scene.logicalHeight.toNat, ∀ t : List UInt8,
      t.length = target.length →
      (List.range scene.logicalWidth.toNat).foldlM
          (fun t x => scene.drawPixel pixels y t x) t =
        ok ((List.range scene.logicalWidth.toNat).foldl
          (fun t x => overwrite t (scene.place (x, y)) (scene.pixelBytes pixels (x, y))) t) ∧
      ((List.range scene.logicalWidth.toNat).foldl
          (fun t x => overwrite t (scene.place (x, y)) (scene.pixelBytes pixels (x, y))) t).length =
        target.length := by
    intro y hy t ht
    refine @foldlM_eq_ok SceneError (List UInt8) ℕ _ _ (fun t => t.length = target.length) _
      (fun x hx t ht => ⟨?_, (length_overwrite t _ _).trans ht⟩) t ht
    have hpixel : scene.Inside (x, y) := ⟨List.mem_range.mp hx, List.mem_range.mp hy⟩
    exact drawPixel_eq h (ht.symm ▸ hholds) hpixel
  have hall := (@foldlM_eq_ok SceneError (List UInt8) ℕ _ _ (fun t => t.length = target.length)
    (List.range scene.logicalHeight.toNat) hline (target.map fun _ => 0) hstart).1
  rw [drawLogicalRgba]
  have hwidth := UInt32.not_lt.mpr h.width_le
  have hheight := UInt32.not_lt.mpr h.height_le
  have hrequired := h.required_lt
  have hstride := h.stride_le
  have hpixels := h.required_le
  rw [if_neg (by omega), if_neg (by omega), if_neg (not_or.mpr ⟨hwidth, hheight⟩), hall,
    overwriteAll, scenePixels, List.foldl_flatMap]
  simp only [List.foldl_map]

/-- Every argument that the checks accept, on a target that holds the rows of the display, is
drawn without an error: each pixel of the scene has its four bytes at its place, different
pixels have different places, and the rest is zero. -/
theorem drawn_exactly (scene : SceneLayout) (target pixels : List UInt8)
    (haccepted : scene.Accepts pixels) (hholds : scene.Holds target.length) :
    ∃ drawn, scene.drawLogicalRgba target pixels = ok drawn ∧ drawn.length = target.length ∧
      (∀ x < scene.logicalWidth.toNat, ∀ y < scene.logicalHeight.toNat, ∀ j < 4,
        drawn[(scene.logicalLeft + x) * scene.pitch +
            (scene.physicalWidth.toNat - 1 - (scene.logicalTop + y)) * 4 + j]? =
          (scene.pixelBytes pixels (x, y))[j]?) ∧
      (∀ component alpha : UInt8,
        (premultiplied component alpha).toNat = component.toNat * alpha.toNat / 255) ∧
      (∀ pixel pixel', scene.Inside pixel → scene.Inside pixel' →
        scene.logicalLeft + pixel.1 = scene.logicalLeft + pixel'.1 →
        scene.physicalWidth.toNat - 1 - (scene.logicalTop + pixel.2) =
          scene.physicalWidth.toNat - 1 - (scene.logicalTop + pixel'.2) → pixel = pixel') ∧
      ∀ k < target.length,
        (∀ x < scene.logicalWidth.toNat, ∀ y < scene.logicalHeight.toNat, ∀ j < 4,
          k ≠ (scene.logicalLeft + x) * scene.pitch +
            (scene.physicalWidth.toNat - 1 - (scene.logicalTop + y)) * 4 + j) →
        drawn[k]? = some 0 := by
  have hwidth : ∀ pixel, (scene.pixelBytes pixels pixel).length = 4 := fun _ => rfl
  refine ⟨_, drawLogicalRgba_eq haccepted hholds, ?_, ?_, toNat_premultiplied, ?_, ?_⟩
  · rw [length_overwriteAll, List.length_map]
  · intro x hx y hy j hj
    refine @getElem?_overwriteAll _ _ scene.place (scene.pixelBytes pixels) _ _
      (fun pixel hpixel => ?_) ?_ (x, y) (mem_scenePixels.mpr ⟨hx, hy⟩) j hj
    · rw [hwidth, List.length_map]
      exact place_add_le haccepted hholds (mem_scenePixels.mp hpixel)
    · refine nodup_scenePixels.imp_of_mem fun {pixel pixel'} hpixel hpixel' hne => ?_
      intro j hj j' hj' heq
      exact hne (place_inj haccepted hholds (mem_scenePixels.mp hpixel)
        (mem_scenePixels.mp hpixel') hj hj' heq).1
  · intro pixel pixel' hpixel hpixel' hrow hcolumn
    have hplace : scene.place pixel + 0 = scene.place pixel' + 0 := by
      rw [place, place, hrow, hcolumn]
    exact (place_inj haccepted hholds hpixel hpixel' (by decide) (by decide) hplace).1
  · intro k hk hother
    rw [getElem?_overwriteAll_of_ne, List.getElem?_map, List.getElem?_eq_getElem hk]
    · rfl
    · intro pixel hpixel j hj
      obtain ⟨hx, hy⟩ := mem_scenePixels.mp hpixel
      exact hother pixel.1 hx pixel.2 hy j hj

/-- A scene of two by two pixels, given from the bottom, on a display of three columns and two
rows. -/
def twoByTwo : SceneLayout where
  pitch := 12
  physicalWidth := 3
  physicalHeight := 2
  logicalWidth := 2
  logicalHeight := 2
  sourceStride := 8
  bottomUp := true

theorem drawn_exactly_twoByTwo :
    ∃ drawn, twoByTwo.drawLogicalRgba (List.replicate 24 7)
      [0, 255, 0, 255, 255, 255, 255, 255, 255, 0, 0, 255, 0, 0, 255, 255] = ok drawn ∧
        drawn.length = 24 := by
  obtain ⟨drawn, hdrawn, hlength, -⟩ := drawn_exactly twoByTwo (List.replicate 24 7)
    [0, 255, 0, 255, 255, 255, 255, 255, 255, 0, 0, 255, 0, 0, 255, 255]
    ⟨by decide, by decide, by decide, by decide, by decide⟩ ⟨by decide, by decide, by decide⟩
  exact ⟨drawn, hdrawn, hlength⟩

end SceneLayout

end TouchBar.Hardware
