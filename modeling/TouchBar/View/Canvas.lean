import TouchBar.Rust.Outcome
import TouchBar.View.Node

/-!
# Paths of a canvas

A path is flattened to points, and a filled path is cut into triangles by clipping ears.  What
is computed with coordinates is not in the model: the points of a curve, the cross product of
three points and the area of a polygon are parameters.  Whatever they are, a polygon that is
triangulated has two triangles less than it has vertices.
-/

namespace TouchBar.View

open TouchBar.Rust Outcome

/-- A bound in the source, with its text. -/
structure Literal where
  value : F32
  text : String

namespace Literal

instance {n : ℕ} : OfNat Literal n := ⟨⟨F32.ofNat n, toString n⟩⟩

instance : Neg Literal := ⟨fun n => ⟨-n.value, "-" ++ n.text⟩⟩

/-- `0.25`. -/
def quarter : Literal := ⟨⟨0x3e800000⟩, "0.25"⟩

end Literal

def inRange (value : F32) (minimum maximum : Literal) : Bool :=
  value.isFinite && minimum.value.le value && value.le maximum.value

def finiteRange (label : String) (value : F32) (minimum maximum : Literal) :
    Outcome String Unit :=
  if inRange value minimum maximum then ok ()
  else err (label ++ " must be finite and between " ++ minimum.text ++ " and " ++ maximum.text)

/-! ## Coordinates and paints -/

def canvasCoordinate (label : String) (value : F32) : Outcome String F32 := do
  finiteRange label value (-4096) 8192
  return value

def canvasPoint (point : Point) : Outcome String Point := do
  let x ← canvasCoordinate "canvas point x" point.x
  let y ← canvasCoordinate "canvas point y" point.y
  return ⟨x, y⟩

def canvasRect (rect : Rect) : Outcome String Unit := do
  let _ ← canvasCoordinate "canvas rect x" rect.x
  let _ ← canvasCoordinate "canvas rect y" rect.y
  finiteRange "canvas rect width" rect.width 0 4096
  finiteRange "canvas rect height" rect.height 0 4096

def canvasStrokeWidth (width : F32) : Outcome String F32 := do
  finiteRange "canvas stroke width" width .quarter 256
  return width

def canvasPaint (paint : CanvasPaint) : Outcome String CanvasPaint := do
  finiteRange "canvas paint opacity" paint.opacity 0 1
  match paint.color with
  | .role _ => return paint
  | .rgba color =>
    finiteRange "canvas RGBA red" color.red 0 1
    finiteRange "canvas RGBA green" color.green 0 1
    finiteRange "canvas RGBA blue" color.blue 0 1
    finiteRange "canvas RGBA alpha" color.alpha 0 1
    return paint

/-! ## Flattening -/

/-- What the source computes with coordinates. -/
structure Arithmetic where
  /-- the point of a quadratic curve at a step of eight -/
  quadratic : Point → Point → Point → ℕ → Point
  /-- the point of a cubic curve at a step of twelve -/
  cubic : Point → Point → Point → Point → ℕ → Point
  polygonCross : Point → Point → Point → F32
  polygonArea : List Point → F32

variable (arithmetic : Arithmetic)

/-- The points that a curve from the given point adds. -/
def quadraticPoints (origin control endpoint : Point) : List Point :=
  (List.range' 1 8).map (arithmetic.quadratic origin control endpoint)

def cubicPoints (origin controlOne controlTwo endpoint : Point) : List Point :=
  (List.range' 1 12).map (arithmetic.cubic origin controlOne controlTwo endpoint)

/-- What `canvas_path` has collected before a segment. -/
structure PathState where
  subpaths : List (List Point)
  points : List Point
  current : Option Point
  start : Option Point

/-- The closure `flush`. -/
def PathState.flush (s : PathState) : PathState :=
  if 2 ≤ s.points.length then { s with
    subpaths := s.subpaths ++ [s.points]
    points := [] }
  else { s with points := [] }

/-- A turn of the loop of `canvas_path`. -/
def PathState.segment (s : PathState) : PathSegment → Outcome String PathState
  | .moveTo point => do
    let s := s.flush
    let value ← canvasPoint point
    return { s with
      points := s.points ++ [value]
      current := some value
      start := some value }
  | .lineTo point =>
    match s.current with
    | none => err "canvas path must begin each subpath with move-to"
    | some _ => do
      let value ← canvasPoint point
      return { s with
        points := s.points ++ [value]
        current := some value }
  | .quadraticTo control endpoint =>
    match s.current with
    | none => err "canvas path must begin with move-to"
    | some origin => do
      let control ← canvasPoint control
      let endpoint ← canvasPoint endpoint
      return { s with
        points := s.points ++ quadraticPoints arithmetic origin control endpoint
        current := some endpoint }
  | .cubicTo controlOne controlTwo endpoint =>
    match s.current with
    | none => err "canvas path must begin with move-to"
    | some origin => do
      let controlOne ← canvasPoint controlOne
      let controlTwo ← canvasPoint controlTwo
      let endpoint ← canvasPoint endpoint
      return { s with
        points := s.points ++ cubicPoints arithmetic origin controlOne controlTwo endpoint
        current := some endpoint }
  | .close =>
    match s.start with
    | none => err "canvas path close requires an open subpath"
    | some first =>
      let points := if s.current.any fun current => current.eq first then s.points
        else s.points ++ [first]
      let s := { s with points := points }.flush
      ok { s with
        current := none
        start := none }

/-- The subpaths of a path, flattened. -/
def flattenPath (segments : List PathSegment) : Outcome String (List (List Point)) := do
  let s ← segments.foldlM (PathState.segment arithmetic) ⟨[], [], none, none⟩
  let s := s.flush
  if s.subpaths.isEmpty then
    err "canvas path contains no drawable subpath"
  else
    return s.subpaths

/-- What `canvas_fill_path` has collected before a segment. -/
structure FillState where
  points : List Point
  current : Option Point
  start : Option Point
  closed : Bool

/-- A turn of the loop of `canvas_fill_path`. -/
def FillState.segment (s : FillState) (segment : PathSegment) : Outcome String FillState :=
  if s.closed then
    err "canvas fill path must contain exactly one closed subpath"
  else
    match segment with
    | .moveTo point =>
      if s.current.isSome || !s.points.isEmpty then
        err "canvas fill path must contain exactly one subpath"
      else do
        let value ← canvasPoint point
        return { s with
          points := s.points ++ [value]
          current := some value
          start := some value }
    | .lineTo point =>
      match s.current with
      | none => err "canvas fill path must begin with move-to"
      | some _ => do
        let value ← canvasPoint point
        return { s with
          points := s.points ++ [value]
          current := some value }
    | .quadraticTo control endpoint =>
      match s.current with
      | none => err "canvas fill path must begin with move-to"
      | some origin => do
        let control ← canvasPoint control
        let endpoint ← canvasPoint endpoint
        return { s with
          points := s.points ++ quadraticPoints arithmetic origin control endpoint
          current := some endpoint }
    | .cubicTo controlOne controlTwo endpoint =>
      match s.current with
      | none => err "canvas fill path must begin with move-to"
      | some origin => do
        let controlOne ← canvasPoint controlOne
        let controlTwo ← canvasPoint controlTwo
        let endpoint ← canvasPoint endpoint
        return { s with
          points := s.points ++ cubicPoints arithmetic origin controlOne controlTwo endpoint
          current := some endpoint }
    | .close =>
      if s.current.isNone || s.start.isNone then
        err "canvas fill path close requires an open subpath"
      else
        ok { s with
          closed := true
          current := none }

/-! ## Polygons -/

/-- A turn of the loop of `simplify_collinear_polygon`: the first vertex that repeats a
neighbour or lies on the line through them is removed. -/
def removeCollinear (points : List Point) : Option (List Point) :=
  ((List.range points.length).find? fun index =>
    let previous := points.getD ((index + points.length - 1) % points.length) ⟨0, 0⟩
    let current := points.getD index ⟨0, 0⟩
    let next := points.getD ((index + 1) % points.length) ⟨0, 0⟩
    current.eq previous || current.eq next ||
      (arithmetic.polygonCross previous current next).eq 0).map points.eraseIdx

/-- `simplify_collinear_polygon`; each turn removes a vertex. -/
def simplifyCollinearPolygon : ℕ → List Point → List Point
  | 0, points => points
  | turns + 1, points =>
    if points.length ≤ 3 then points
    else
      match removeCollinear arithmetic points with
      | some points => simplifyCollinearPolygon turns points
      | none => points

def pointOnSegment (point start stop : Point) : Bool :=
  (start.x.min stop.x).le point.x && point.x.le (start.x.max stop.x) &&
    (start.y.min stop.y).le point.y && point.y.le (start.y.max stop.y)

def segmentsIntersect (a b c d : Point) : Bool :=
  let abC := arithmetic.polygonCross a b c
  let abD := arithmetic.polygonCross a b d
  let cdA := arithmetic.polygonCross c d a
  let cdB := arithmetic.polygonCross c d b
  (abC.eq 0 && pointOnSegment c a b) || (abD.eq 0 && pointOnSegment d a b) ||
    (cdA.eq 0 && pointOnSegment a c d) || (cdB.eq 0 && pointOnSegment b c d) ||
    ((F32.lt 0 abC != F32.lt 0 abD) && (F32.lt 0 cdA != F32.lt 0 cdB))

/-- The pairs of indices below a bound, the smaller one first. -/
def indexPairs (count : ℕ) : List (ℕ × ℕ) :=
  (List.range count).flatMap fun left =>
    (List.range' (left + 1) (count - (left + 1))).map fun right => (left, right)

/-- `0.0001`. -/
def smallArea : F32 := ⟨0x38d1b717⟩

def validateSimplePolygon (points : List Point) : Outcome String Unit :=
  let point (index : ℕ) := points.getD index ⟨0, 0⟩
  let count := points.length
  if (indexPairs count).any fun p => (point p.1).eq (point p.2) then
    err "canvas fill path repeats a vertex"
  else if (indexPairs count).any fun p =>
      let leftNext := (p.1 + 1) % count
      let rightNext := (p.2 + 1) % count
      !(p.1 = p.2 || leftNext = p.2 || rightNext = p.1) &&
        segmentsIntersect arithmetic (point p.1) (point leftNext) (point p.2) (point rightNext) then
    err "canvas fill path self-intersects"
  else if (arithmetic.polygonArea points).abs.lt smallArea then
    err "canvas fill path has zero area"
  else
    ok ()

def pointInTriangle (point a b c : Point) (counterClockwise : Bool) : Bool :=
  [arithmetic.polygonCross a b point, arithmetic.polygonCross b c point,
    arithmetic.polygonCross c a point].all fun value =>
      if counterClockwise then F32.le 0 value else value.le 0

/-- The ear that a turn of `triangulate_simple_polygon` finds: its position among the remaining
indices and its corners. -/
def findEar (points : List Point) (counterClockwise : Bool) (indices : List ℕ) :
    Option (ℕ × Point × Point × Point) :=
  let point (index : ℕ) := points.getD index ⟨0, 0⟩
  (List.range indices.length).findSome? fun position =>
    let previous := indices.getD ((position + indices.length - 1) % indices.length) 0
    let current := indices.getD position 0
    let next := indices.getD ((position + 1) % indices.length) 0
    let cross := arithmetic.polygonCross (point previous) (point current) (point next)
    if (counterClockwise && cross.le 0) || (!counterClockwise && F32.le 0 cross) then none
    else if indices.any fun candidate =>
        candidate != previous && candidate != current && candidate != next &&
          pointInTriangle arithmetic (point candidate) (point previous) (point current)
            (point next) counterClockwise then none
    else some (position, point previous, point current, point next)

/-- The loop of `triangulate_simple_polygon`; each turn clips an ear. -/
def clipEars (points : List Point) (counterClockwise : Bool) :
    ℕ → List ℕ → List Point → Outcome String (List Point)
  | turns, indices, triangles =>
    if 3 < indices.length then
      match findEar arithmetic points counterClockwise indices, turns with
      | some (position, previous, current, next), turns + 1 =>
        clipEars points counterClockwise turns (indices.eraseIdx position)
          (triangles ++ [previous, current, next])
      | _, _ => err "canvas fill path could not be triangulated"
    else
      let point (position : ℕ) := points.getD (indices.getD position 0) ⟨0, 0⟩
      ok (triangles ++ [point 0, point 1, point 2])

def triangulateSimplePolygon (points : List Point) : Outcome String (List Point) :=
  clipEars arithmetic points (F32.lt 0 (arithmetic.polygonArea points)) points.length
    (List.range points.length) []

/-- The points without the last one, if it repeats the first one. -/
def dropRepeated (points : List Point) : List Point :=
  match points.getLast?, points.head? with
  | some last, some first => if last.eq first then points.dropLast else points
  | _, _ => points

/-- The vertices that `canvas_fill_path` triangulates. -/
def fillVertices (segments : List PathSegment) : Outcome String (List Point) := do
  let s ← segments.foldlM (FillState.segment arithmetic) ⟨[], none, none, false⟩
  if !s.closed then
    err "canvas fill path must end with close"
  else
    let points := dropRepeated s.points
    let points := simplifyCollinearPolygon arithmetic points.length points
    if points.length < 3 || 258 < points.length then
      err "canvas fill path must flatten to between 3 and 258 vertices"
    else
      return points

/-! ## Triangles -/

variable {arithmetic}

lemma findEar_lt {points : List Point} {counterClockwise : Bool} {indices : List ℕ}
    {ear : ℕ × Point × Point × Point}
    (h : findEar arithmetic points counterClockwise indices = some ear) :
    ear.1 < indices.length := by
  obtain ⟨position, hmem, hsome⟩ := List.exists_of_findSome?_eq_some h
  dsimp only at hsome
  split_ifs at hsome
  cases hsome
  exact List.mem_range.mp hmem

/-- Every turn adds a triangle and removes a vertex. -/
lemma length_clipEars {points : List Point} {counterClockwise : Bool} {turns : ℕ}
    {indices : List ℕ} {triangles triangles' : List Point} (hlength : 3 ≤ indices.length)
    (h : clipEars arithmetic points counterClockwise turns indices triangles = ok triangles') :
    triangles'.length = triangles.length + 3 * (indices.length - 2) := by
  induction turns generalizing indices triangles with
  | zero =>
    rw [clipEars.eq_def] at h
    dsimp only at h
    split_ifs at h with hmore
    · split at h
      · next heq => cases heq
      · cases h
    · cases h
      rw [List.length_append]
      have hthree : indices.length = 3 := by omega
      simp [hthree]
  | succ turns ih =>
    rw [clipEars.eq_def] at h
    dsimp only at h
    split_ifs at h with hmore
    · split at h
      · next position previous current next turns' hear heq =>
        cases heq
        have hlt : position < indices.length := findEar_lt hear
        have herase := List.length_eraseIdx_of_lt hlt
        have hrest := ih (by omega) h
        rw [hrest, List.length_append, herase]
        simp only [List.length_cons, List.length_nil]
        omega
      · cases h
    · cases h
      rw [List.length_append]
      have hthree : indices.length = 3 := by omega
      simp [hthree]

/-- A triangulation has two triangles less than the polygon has vertices. -/
theorem length_triangulateSimplePolygon {points triangles : List Point}
    (hlength : 3 ≤ points.length)
    (h : triangulateSimplePolygon arithmetic points = ok triangles) :
    triangles.length = 3 * (points.length - 2) := by
  have hrange : 3 ≤ (List.range points.length).length := by rwa [List.length_range]
  have hclip := length_clipEars hrange h
  rwa [List.length_nil, Nat.zero_add, List.length_range] at hclip

/-- So a fill path never has more than 256 triangles. -/
lemma triangles_le {segments : List PathSegment} {points triangles : List Point}
    (hpoints : fillVertices arithmetic segments = ok points)
    (h : triangulateSimplePolygon arithmetic points = ok triangles) :
    triangles.length / 3 = points.length - 2 ∧ triangles.length / 3 ≤ 256 := by
  simp only [fillVertices, bind_eq_ok] at hpoints
  obtain ⟨s, -, hpoints⟩ := hpoints
  split_ifs at hpoints with hclosed hcount
  cases hpoints
  simp only [Bool.or_eq_true, decide_eq_true_eq, not_or, not_lt] at hcount
  have hlength := length_triangulateSimplePolygon hcount.1 h
  omega

end TouchBar.View
