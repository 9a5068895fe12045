import TouchBar.View.Steps

/-!
# What a node demands

A node of a view has to be valid by itself, it makes notes, it has children, and it becomes a
node of the host.  `does_decodeNode` says that this is all that the decoder does about a node.
The order in which it checks the parts of a node only decides which error comes first.
-/

namespace TouchBar.View

open TouchBar.Rust Outcome

/-! ## Valid parts -/

def Point.Valid (p : Point) : Prop :=
  inRange p.x (-4096) 8192 = true ∧ inRange p.y (-4096) 8192 = true

def Rect.Valid (r : Rect) : Prop :=
  inRange r.x (-4096) 8192 = true ∧ inRange r.y (-4096) 8192 = true ∧
    inRange r.width 0 4096 = true ∧ inRange r.height 0 4096 = true

def CanvasColor.Valid : CanvasColor → Prop
  | .role _ => True
  | .rgba c => inRange c.red 0 1 = true ∧ inRange c.green 0 1 = true ∧ inRange c.blue 0 1 = true ∧
      inRange c.alpha 0 1 = true

def CanvasPaint.Valid (p : CanvasPaint) : Prop := inRange p.opacity 0 1 = true ∧ p.color.Valid

def CanvasLinearGradient.Valid (g : CanvasLinearGradient) : Prop :=
  g.start.Valid ∧ g.stop.Valid ∧ ¬ g.start.eq g.stop = true ∧ g.startColor.Valid ∧
    g.endColor.Valid

def VisualTransform.Valid (t : VisualTransform) : Prop :=
  inRange t.translation.x (-4096) 4096 = true ∧ inRange t.translation.y (-4096) 4096 = true ∧
    inRange t.scale 0 8 = true ∧ inRange t.opacity 0 1 = true

def Flex.Valid (f : Flex) : Prop :=
  inRange f.minimum 0 maxTouchbarWidth = true ∧ inRange f.basis 0 maxTouchbarWidth = true ∧
    inRange f.maximum 0 maxTouchbarWidth = true ∧ inRange f.grow 0 1000 = true ∧
    inRange f.shrink 0 1000 = true ∧ ¬ (f.basis.lt f.minimum || f.maximum.lt f.basis) = true

lemma finiteRange_eq_ok {label : String} {value : F32} {minimum maximum : Literal} :
    finiteRange label value minimum maximum = ok () ↔ inRange value minimum maximum = true := by
  rw [finiteRange]
  split_ifs with h <;> simp [h]

@[simp] lemma finiteRange_bind_eq_ok {α : Type} {label : String} {value : F32}
    {minimum maximum : Literal} {f : Unit → Outcome String α} {a : α} :
    (finiteRange label value minimum maximum >>= f) = ok a ↔
      inRange value minimum maximum = true ∧ f () = ok a := by
  rw [finiteRange]
  split_ifs with h <;> simp [h]

lemma canvasCoordinate_eq_ok {label : String} {value x : F32} :
    canvasCoordinate label value = ok x ↔ inRange value (-4096) 8192 = true ∧ x = value := by
  simp only [canvasCoordinate, finiteRange_bind_eq_ok, pure_eq, Outcome.ok.injEq,
    eq_comm (a := value)]

lemma canvasPoint_eq_ok {p q : Point} : canvasPoint p = ok q ↔ p.Valid ∧ q = p := by
  simp only [canvasPoint, bind_eq_ok, canvasCoordinate_eq_ok, pure_eq, Outcome.ok.injEq,
    Point.Valid]
  constructor
  · rintro ⟨x, ⟨hx, rfl⟩, y, ⟨hy, rfl⟩, rfl⟩
    exact ⟨⟨hx, hy⟩, rfl⟩
  · rintro ⟨⟨hx, hy⟩, rfl⟩
    exact ⟨_, ⟨hx, rfl⟩, _, ⟨hy, rfl⟩, rfl⟩

lemma canvasRect_eq_ok {r : Rect} : canvasRect r = ok () ↔ r.Valid := by
  rw [canvasRect]
  simp only [bind_eq_ok, canvasCoordinate_eq_ok, finiteRange_eq_ok, Rect.Valid]
  constructor
  · rintro ⟨x, ⟨hx, -⟩, y, ⟨hy, -⟩, u, hwidth, hheight⟩
    exact ⟨hx, hy, finiteRange_eq_ok.mp hwidth, hheight⟩
  · rintro ⟨hx, hy, hwidth, hheight⟩
    exact ⟨_, ⟨hx, rfl⟩, _, ⟨hy, rfl⟩, (), finiteRange_eq_ok.mpr hwidth, hheight⟩

lemma canvasStrokeWidth_eq_ok {width w : F32} :
    canvasStrokeWidth width = ok w ↔ inRange width .quarter 256 = true ∧ w = width := by
  simp only [canvasStrokeWidth, finiteRange_bind_eq_ok, pure_eq, Outcome.ok.injEq,
    eq_comm (a := width)]

lemma canvasPaint_eq_ok {p q : CanvasPaint} : canvasPaint p = ok q ↔ p.Valid ∧ q = p := by
  rw [canvasPaint, finiteRange_bind_eq_ok, CanvasPaint.Valid]
  cases hcolor : p.color with
  | role role =>
    simp only [pure_eq, Outcome.ok.injEq, CanvasColor.Valid, and_true, eq_comm (a := p)]
  | rgba color =>
    simp only [finiteRange_bind_eq_ok, pure_eq, Outcome.ok.injEq, CanvasColor.Valid, and_assoc,
      eq_comm (a := p)]

lemma visualTransform_eq_ok {label : String} {t u : VisualTransform} :
    visualTransform label t = ok u ↔ t.Valid ∧ u = t := by
  simp only [visualTransform, finiteRange_bind_eq_ok, pure_eq, Outcome.ok.injEq,
    VisualTransform.Valid, and_assoc, eq_comm (a := t)]

lemma validateFlex_eq_ok {f : Flex} : validateFlex f = ok () ↔ f.Valid := by
  simp only [validateFlex, finiteRange_bind_eq_ok, Flex.Valid]
  split_ifs with h <;> simp [h]

lemma validateId_eq_ok {label value : String} :
    validateId label value = ok () ↔ validId value = true := by
  rw [validateId]
  split_ifs with h <;> simp [h]

variable {Image Program : Type} {input : DecoderInput Image Program}

lemma does_range {label : String} {value : F32} {minimum maximum : Literal} :
    Does input (liftM (finiteRange label value minimum maximum) : Decode Program Unit)
      (inRange value minimum maximum = true) [] (Returns ()) :=
  does_check finiteRange_eq_ok

/-! ## Canvases -/

namespace Wit.CanvasCommand

variable (arithmetic : Arithmetic)

def subpaths (segments : List PathSegment) : List (List Point) :=
  (flattenPath arithmetic segments).expect.getD []

def vertices (segments : List PathSegment) : List Point :=
  (fillVertices arithmetic segments).expect.getD []

def triangles (segments : List PathSegment) : List Point :=
  (triangulateSimplePolygon arithmetic (vertices arithmetic segments)).expect.getD []

def Valid : CanvasCommand → Prop
  | .fillRect rect radius paint => rect.Valid ∧ inRange radius 0 2048 = true ∧ paint.Valid
  | .line start stop width paint =>
    start.Valid ∧ stop.Valid ∧ inRange width .quarter 256 = true ∧ paint.Valid
  | .polyline points width paint =>
    (2 ≤ points.length ∧ points.length ≤ 256) ∧ (∀ p ∈ points, p.Valid) ∧
      inRange width .quarter 256 = true ∧ paint.Valid
  | .fillCircle center radius paint => center.Valid ∧ inRange radius 0 2048 = true ∧ paint.Valid
  | .text rect _ size color _ => rect.Valid ∧ inRange size 1 256 = true ∧ color.Valid
  | .fillLinearGradientRect rect radius gradient =>
    rect.Valid ∧ inRange radius 0 2048 = true ∧ gradient.Valid
  | .strokePath segments width paint =>
    (2 ≤ segments.length ∧ segments.length ≤ 128) ∧
      (flattenPath arithmetic segments).isOk = true ∧ inRange width .quarter 256 = true ∧
      paint.Valid
  | .fillPath segments paint =>
    (4 ≤ segments.length ∧ segments.length ≤ 128) ∧
      (fillVertices arithmetic segments).isOk = true ∧
      validateSimplePolygon arithmetic (vertices arithmetic segments) = ok () ∧
      (triangulateSimplePolygon arithmetic (vertices arithmetic segments)).isOk = true ∧
      paint.Valid

def notes : CanvasCommand → List Note
  | .polyline points _ _ => [.pay .points points.length]
  | .text _ content _ _ _ => [.pay .text (Text.len content)]
  | .strokePath segments _ _ =>
    [.pay .segments segments.length,
      .pay .points ((subpaths arithmetic segments).map List.length).sum]
  | .fillPath segments _ =>
    [.pay .segments segments.length, .pay .points (vertices arithmetic segments).length,
      .pay .triangles ((triangles arithmetic segments).length / 3)]
  | _ => []

/-- The command of the host. -/
def build : CanvasCommand → View.CanvasCommand
  | .fillRect rect radius paint => .fillRect rect radius paint
  | .line start stop width paint => .line start stop width paint
  | .polyline points width paint => .polyline points width paint
  | .fillCircle center radius paint => .fillCircle center radius paint
  | .text rect content size color align => .text rect content size color align
  | .fillLinearGradientRect rect radius gradient => .fillLinearGradientRect rect radius gradient
  | .strokePath segments width paint => .strokePath (subpaths arithmetic segments) width paint
  | .fillPath segments paint => .fillPath (triangles arithmetic segments) paint

end Wit.CanvasCommand

lemma mapM_canvasPoint_eq_ok {ps qs : List Point} :
    (ps.mapM canvasPoint : Outcome String (List Point)) = ok qs ↔
      (∀ p ∈ ps, p.Valid) ∧ qs = ps := by
  induction ps generalizing qs with
  | nil => simp [List.mapM_nil, eq_comm]
  | cons p ps ih =>
    simp only [List.mapM_cons, bind_eq_ok, canvasPoint_eq_ok, ih, pure_eq, Outcome.ok.injEq,
      List.forall_mem_cons]
    constructor
    · rintro ⟨p', ⟨hp, rfl⟩, ps', ⟨hps, rfl⟩, rfl⟩
      exact ⟨⟨hp, hps⟩, rfl⟩
    · rintro ⟨⟨hp, hps⟩, rfl⟩
      exact ⟨_, ⟨hp, rfl⟩, _, ⟨hps, rfl⟩, rfl⟩

/-- A call that may fail, and its value where it does not. -/
lemma eq_ok_iff_isOk {α : Type} {x : Outcome String α} {d a : α} :
    x = ok a ↔ x.isOk = true ∧ a = x.expect.getD d := by
  cases x with
  | ok b =>
    simp only [Outcome.ok.injEq, isOk, expect, Option.getD_some, true_and]
    exact eq_comm
  | err e => simp [isOk]
  | panic => simp [isOk]

/-- The test of a length. -/
lemma not_outside_iff {n lo hi : ℕ} :
    ¬ (n < lo || hi < n : Bool) = true ↔ lo ≤ n ∧ n ≤ hi := by
  rw [Bool.or_eq_true, decide_eq_true_eq, decide_eq_true_eq]
  omega

lemma does_canvasPath (segments : List PathSegment) (width : F32) (paint : CanvasPaint) :
    Does input (canvasPath input segments width paint)
      ((Wit.CanvasCommand.strokePath segments width paint).Valid input.arithmetic)
      ((Wit.CanvasCommand.strokePath segments width paint).notes input.arithmetic)
      (Returns ((Wit.CanvasCommand.strokePath segments width paint).build input.arithmetic)) := by
  refine .congr (.guard (.bind (does_countPathSegments _)
    (.bind (does_lift fun _ => eq_ok_iff_isOk)
      (.bind (does_countPoints _)
        (.bind (does_lift fun _ => canvasStrokeWidth_eq_ok)
          (.bind (does_lift fun _ => canvasPaint_eq_ok)
            (does_pure _))))))) ?_ rfl
  simp only [Wit.CanvasCommand.Valid, not_outside_iff, true_and, and_true]

lemma does_canvasFillPath (segments : List PathSegment) (paint : CanvasPaint) :
    Does input (canvasFillPath input segments paint)
      ((Wit.CanvasCommand.fillPath segments paint).Valid input.arithmetic)
      ((Wit.CanvasCommand.fillPath segments paint).notes input.arithmetic)
      (Returns ((Wit.CanvasCommand.fillPath segments paint).build input.arithmetic)) := by
  refine .congr (.guard (.bind (does_countPathSegments _)
    (.bind (does_lift fun _ => eq_ok_iff_isOk)
      (.bind (does_countPoints _)
        (.bind (does_check Iff.rfl)
          (.bind (does_lift fun _ => eq_ok_iff_isOk)
            (.guard (.bind (does_countFillTriangles _)
              (.bind (does_lift fun _ => canvasPaint_eq_ok)
                (does_pure _)))))))))) ?_ rfl
  simp only [Wit.CanvasCommand.Valid, not_outside_iff, true_and, and_true]
  -- the number of triangles is bounded by that of the vertices
  refine and_congr_right fun _ => and_congr_right fun hvertices => and_congr_right fun _ =>
    and_congr_right fun htriangles => and_iff_right ?_
  obtain ⟨points, hpoints⟩ := isOk_iff.mp hvertices
  obtain ⟨triangles, hclip⟩ := isOk_iff.mp htriangles
  have hle := triangles_le hpoints
    (by simpa [Wit.CanvasCommand.vertices, hpoints, expect] using hclip)
  rw [hclip]
  exact not_lt.mpr hle.2

lemma does_canvasCommand (command : Wit.CanvasCommand) :
    Does input (canvasCommand input command) (command.Valid input.arithmetic)
      (command.notes input.arithmetic) (Returns (command.build input.arithmetic)) := by
  cases command with
  | fillRect rect radius paint =>
    exact .congr (.bind (does_check canvasRect_eq_ok)
      (.bind (does_range)
        (.bind (does_lift fun _ => canvasPaint_eq_ok) (does_pure _))))
      (by simp only [Wit.CanvasCommand.Valid, and_true]) rfl
  | line start stop width paint =>
    exact .congr (.bind (does_lift fun _ => canvasPoint_eq_ok)
      (.bind (does_lift fun _ => canvasPoint_eq_ok)
        (.bind (does_lift fun _ => canvasStrokeWidth_eq_ok)
          (.bind (does_lift fun _ => canvasPaint_eq_ok) (does_pure _)))))
      (by simp only [Wit.CanvasCommand.Valid, and_true]) rfl
  | polyline points width paint =>
    exact .congr (.guard (.bind (does_countPoints _)
      (.bind (does_lift fun _ => mapM_canvasPoint_eq_ok)
        (.bind (does_lift fun _ => canvasStrokeWidth_eq_ok)
          (.bind (does_lift fun _ => canvasPaint_eq_ok) (does_pure _))))))
      (by simp only [Wit.CanvasCommand.Valid, not_outside_iff, true_and, and_true]) rfl
  | fillCircle center radius paint =>
    exact .congr (.bind (does_lift fun _ => canvasPoint_eq_ok)
      (.bind (does_range)
        (.bind (does_lift fun _ => canvasPaint_eq_ok) (does_pure _))))
      (by simp only [Wit.CanvasCommand.Valid, and_true]) rfl
  | text rect content size color align =>
    exact .congr (.bind (does_check canvasRect_eq_ok)
      (.bind (does_range)
        (.bind (does_text content)
          (.bind (does_lift fun _ => canvasPaint_eq_ok) (does_pure _)))))
      (by simp only [Wit.CanvasCommand.Valid, true_and, and_true]) rfl
  | fillLinearGradientRect rect radius gradient =>
    exact .congr (.bind (does_check canvasRect_eq_ok)
      (.bind (does_range)
        (.bind (does_lift fun _ => canvasPoint_eq_ok)
          (.bind (does_lift fun _ => canvasPoint_eq_ok)
            (.guard (.bind (does_lift fun _ => canvasPaint_eq_ok)
              (.bind (does_lift fun _ => canvasPaint_eq_ok)
                (does_pure _))))))))
      (by simp only [Wit.CanvasCommand.Valid, CanvasLinearGradient.Valid, and_true]) rfl
  | strokePath segments width paint => exact does_canvasPath segments width paint
  | fillPath segments paint => exact does_canvasFillPath segments paint

/-! ## Nodes -/

namespace Wit

def ContainerNode.Valid (c : ContainerNode) : Prop :=
  inRange c.gap 0 maxTouchbarWidth = true ∧ inRange c.padding 0 502 = true ∧
    ∀ child ∈ c.children, child.layout.Valid

def CanvasNode.Valid (arithmetic : Arithmetic) (c : CanvasNode) : Prop :=
  inRange c.viewboxWidth 1 4096 = true ∧ inRange c.viewboxHeight 1 4096 = true ∧
    ∀ command ∈ c.commands, command.Valid arithmetic

def ShaderEffectNode.Valid (e : ShaderEffectNode) : Prop :=
  e.effectId ≠ 0 ∧ inRange e.opacity 0 1 = true ∧ inRange e.preferredWidth 1 4096 = true ∧
    inRange e.preferredHeight 1 4096 = true ∧ e.parameters.length ≤ 8 ∧
    (∀ value ∈ e.parameters, inRange value (-1000000) 1000000 = true) ∧
    ∀ ms ∈ e.animationPeriodMs, 100 ≤ ms ∧ ms ≤ 60000

def ShaderEffectNode.period (e : ShaderEffectNode) : Option ℕ :=
  e.animationPeriodMs.map (· * millisecond)

def PressableNode.Valid (p : PressableNode) : Prop :=
  inRange p.padding 0 60 = true ∧ (∀ radius ∈ p.cornerRadius, inRange radius 0 60 = true) ∧
    ∀ ms ∈ p.holdMs, 100 ≤ ms ∧ ms ≤ 10000

def MotionNode.Valid (m : MotionNode) : Prop :=
  m.animationId ≠ 0 ∧ (1 ≤ m.durationMs ∧ m.durationMs ≤ 60000) ∧ m.startTransform.Valid ∧
    m.endTransform.Valid

def MotionNode.signature (m : MotionNode) : AnimationSignature :=
  ⟨m.startTransform, m.endTransform, m.durationMs * millisecond, m.easing, m.playback⟩

namespace Node

def children : Node → List ℕ
  | .layer children => children
  | .row c => c.children.map FlexChild.node
  | .column c => c.children.map FlexChild.node
  | .panel _ _ _ child => [child]
  | .pressable p => [p.child]
  | .opacity _ child => [child]
  | .motion m => [m.child]
  | .responsive _ variants => variants.map ResponsiveVariant.node
  | _ => []

def Valid (input : DecoderInput Image Program) : Node → Prop
  | .label _ size _ _ => inRange size 1 64 = true
  | .image assetId _ value _ _ =>
    validId assetId = true ∧ inRange value 0 1 = true ∧ (input.assets assetId).isSome = true
  | .row c => c.Valid
  | .column c => c.Valid
  | .panel radius _ padding _ => inRange radius 0 60 = true ∧ inRange padding 0 60 = true
  | .pressable p => p.Valid
  | .slider _ _ value => inRange value 0 1 = true
  | .meter _ value peak => inRange value 0 1 = true ∧ ∀ p ∈ peak, inRange p 0 1 = true
  | .progress _ value _ _ => inRange value 0 1 = true
  | .opacity value _ => inRange value 0 1 = true
  | .motion m => m.Valid
  | .canvas c => c.Valid input.arithmetic
  | .shaderEffect e => e.Valid
  | .responsive _ variants =>
    ∀ variant ∈ variants, inRange variant.minimumWidth 0 maxTouchbarWidth = true
  | _ => True

/-- What the node notes before its children do. -/
def notes (input : DecoderInput Image Program) : Node → List Note
  | .label content _ _ _ => [.pay .text (Text.len content)]
  | .icon _ _ name => [.pay .text (Text.len name)]
  | .image assetId name _ _ _ =>
    [.pay .text (Text.len assetId), .pay .text (Text.len name)]
  | .button _ name _ _ _ => [.pay .text (Text.len name)]
  | .pressable p => [.pay .text (Text.len p.label)]
  | .slider _ name _ => [.pay .text (Text.len name)]
  | .meter name _ _ => [.pay .text (Text.len name)]
  | .progress name _ _ _ => [.pay .text (Text.len name)]
  | .motion m => [.animation m.animationId m.signature]
  | .canvas c =>
    .pay .text (Text.len c.label) :: .pay .commands c.commands.length ::
      c.commands.flatMap (CanvasCommand.notes input.arithmetic)
  | .shaderEffect e =>
    [.pay .text (Text.len e.label), .pay .effects 1, .effect e.effectId ⟨e.source, e.period⟩]
  | _ => []

/-- The node of the host, with the starts that the registries have. -/
def build (input : DecoderInput Image Program) (animations : AnimationRegistry)
    (effects : EffectRegistry Program) (node : Node) (children : List (UiNode Image Program)) :
    UiNode Image Program :=
  let child := children.headD .empty
  match node with
  | .empty => .empty
  | .layer _ => .layer children
  | .label content size color align => .label content size color align
  | .icon glyph color name => .icon glyph color name
  | .image assetId name value fit tint =>
    match input.assets assetId with
    | some asset => .image asset value fit tint name
    | none => .empty
  | .button widgetId name glyph pressed selected =>
    if selected then .toggle widgetId name glyph true pressed
    else .button widgetId name glyph pressed
  | .row c =>
    .row c.gap c.padding c.align ((c.children.zip children).map fun e => (e.1.layout, e.2))
  | .column c =>
    .column c.gap c.padding c.align ((c.children.zip children).map fun e => (e.1.layout, e.2))
  | .panel radius color padding _ => .panel radius color padding child
  | .pressable p =>
    .pressable p.widgetId p.label p.pressed (p.holdMs.map (· * millisecond)) p.selected
      ⟨p.background, p.pressedBackground, p.cornerRadius, p.padding, p.contentForeground⟩ child
  | .slider widgetId name value => .slider widgetId name value
  | .meter name value peak => .meter name value peak
  | .progress name value trackRole fillRole => .progress name value trackRole fillRole
  | .opacity value _ => .opacity value child
  | .motion m =>
    .motion ⟨m.animationId, m.startTransform, m.endTransform,
      animations.startOf input.itemId m.animationId, m.durationMs * millisecond, m.easing,
      m.playback⟩ child
  | .canvas c =>
    .canvas c.label c.viewboxWidth c.viewboxHeight
      (c.commands.map (CanvasCommand.build input.arithmetic))
  | .shaderEffect e =>
    match effects.programs.get e.source with
    | some program =>
      .shaderEffect e.label e.preferredWidth e.preferredHeight
        ⟨program, effectParameters e.parameters, e.opacity,
          effects.startOf input.itemId e.effectId, e.period⟩
    | none => .empty
  | .responsive widgetId variants =>
    .responsive widgetId ((variants.zip children).map fun e =>
      (e.1.representation, e.1.minimumWidth, e.2))

end Node

end Wit

variable {α β : Type} {p : Prop} {notes : List Note}

lemma Does.rest {m : Decode Program α}
    {rest rest' : ViewDecoder Program → α → ViewDecoder Program → Prop}
    (hm : Does input m p notes rest)
    (h : ∀ s₀ s a s', settle input notes s₀ = some s → (rest s a s' ↔ rest' s a s')) :
    Does input m p notes rest' := by
  intro s a s'
  rw [hm s a s']
  refine and_congr_right fun _ => exists_congr fun s₁ => and_congr_right fun hnotes => ?_
  exact h s s₁ a s' hnotes

variable {child : ℕ → Decode Program (UiNode Image Program)}

/-- A node without children. -/
lemma returns_iff {ui a : UiNode Image Program} {s s' : ViewDecoder Program} :
    Returns ui s a s' ↔ ∃ kids, ([].mapM child) s = ok (kids, s') ∧ a = ui := by
  rw [List.mapM_nil]
  constructor
  · rintro ⟨rfl, rfl⟩
    exact ⟨[], rfl, rfl⟩
  · rintro ⟨kids, h, rfl⟩
    cases h
    exact ⟨rfl, rfl⟩

lemma does_leaf {ui : UiNode Image Program} :
    Does input (pure ui) True [] fun s₁ a s' =>
      ∃ kids, ([].mapM child) s₁ = ok (kids, s') ∧ a = ui :=
  (does_pure ui).rest fun _ _ _ _ _ => returns_iff

lemma does_asset {assetId message : String} (f : Image → UiNode Image Program) :
    Does input
      (match input.assets assetId with
      | none => bail message
      | some asset => pure (f asset))
      ((input.assets assetId).isSome = true) [] fun s₁ a s' =>
        ∃ kids, ([].mapM child) s₁ = ok (kids, s') ∧
          a = match input.assets assetId with
            | some asset => f asset
            | none => .empty := by
  cases input.assets assetId with
  | none => exact .congr (does_bail message) (by simp) rfl
  | some asset => exact .congr (does_leaf) (by simp) rfl

/-- What is done with the only child. -/
lemma child_eq_ok {index : ℕ} {f : UiNode Image Program → UiNode Image Program}
    {s s' : ViewDecoder Program} {ui : UiNode Image Program} :
    (child index >>= fun n => pure (f n)) s = ok (ui, s') ↔
      ∃ kids, ([index].mapM child) s = ok (kids, s') ∧ ui = f (kids.headD .empty) := by
  rw [List.mapM_cons, List.mapM_nil]
  simp only [pure_bind, bind_eq_ok_iff]
  constructor
  · rintro ⟨n, s₁, hn, h⟩
    cases h
    exact ⟨[n], ⟨n, _, hn, rfl⟩, rfl⟩
  · rintro ⟨kids, ⟨n, s₁, hn, h⟩, rfl⟩
    cases h
    exact ⟨n, _, hn, rfl⟩

lemma does_child {index : ℕ} {f : UiNode Image Program → UiNode Image Program} :
    Does input (child index >>= fun n => pure (f n)) True [] fun s₁ ui s' =>
      ∃ kids, ([index].mapM child) s₁ = ok (kids, s') ∧ ui = f (kids.headD .empty) :=
  (does_run _).rest fun _ _ _ _ _ => child_eq_ok

variable (input child) in
/-- The children of a node are decoded in turn, with a check in front of each. -/
lemma does_children {check : β → Outcome String Unit} {P : β → Prop}
    (hcheck : ∀ x, check x = ok () ↔ P x) (index : β → ℕ) (f : β → UiNode Image Program → α)
    (xs : List β) :
    Does input
      (xs.mapM fun x => do
        check x
        let node ← child (index x)
        return f x node)
      (∀ x ∈ xs, P x) [] fun s₁ result s' =>
        ∃ kids, ((xs.map index).mapM child) s₁ = ok (kids, s') ∧
          result = (xs.zip kids).map fun e => f e.1 e.2 := by
  induction xs with
  | nil =>
    refine .congr (.rest (does_pure []) fun _ s₁ a s' _ => ?_) (by simp) rfl
    rw [List.map_nil, List.mapM_nil]
    constructor
    · rintro ⟨rfl, rfl⟩
      exact ⟨[], rfl, rfl⟩
    · rintro ⟨kids, h, rfl⟩
      cases h
      exact ⟨rfl, rfl⟩
  | cons x xs ih =>
    have hdoes : Does input (liftM (check x) : Decode Program Unit) (P x) [] (Returns ()) :=
      does_check (hcheck x)
    intro s r s'
    simp only [List.mapM_cons, List.map_cons, bind_eq_ok_iff, List.forall_mem_cons]
    constructor
    · rintro ⟨y, s₃, ⟨u, s₁, hx, n, s₂, hn, hy⟩, ys, s₄, hys, hr⟩
      cases hy
      cases hr
      obtain ⟨hp, s₁', hnil, -, rfl⟩ := (hdoes s u s₁).mp hx
      cases hnil
      obtain ⟨hP, s₅, hnil, kids, hkids, rfl⟩ := (ih _ _ _).mp hys
      cases hnil
      exact ⟨⟨hp, hP⟩, s, rfl, n :: kids, ⟨n, _, hn, kids, _, hkids, rfl⟩, rfl⟩
    · rintro ⟨⟨hp, hP⟩, s₁, hnil, kids, ⟨n, s₂, hn, ks, s₃, hks, hr⟩, rfl⟩
      cases hnil
      cases hr
      have hx := (hdoes s () s).mpr ⟨hp, s, rfl, rfl, rfl⟩
      have hxs := (ih s₂ _ s').mpr ⟨hP, s₂, rfl, ks, hks, rfl⟩
      exact ⟨_, s₂, ⟨(), s, hx, n, s₂, hn, rfl⟩, _, s', hxs, rfl⟩

lemma Does.map {m : Decode Program α} {f : α → β}
    {rest : ViewDecoder Program → α → ViewDecoder Program → Prop}
    (hm : Does input m p notes rest) :
    Does input (m >>= fun a => pure (f a)) p notes fun s b s' => ∃ a, rest s a s' ∧ b = f a := by
  intro s b s'
  rw [bind_eq_ok_iff]
  constructor
  · rintro ⟨a, s₁, ha, hb⟩
    cases hb
    obtain ⟨hp, s₂, hnotes, hrest⟩ := (hm s a _).mp ha
    exact ⟨hp, s₂, hnotes, a, hrest, rfl⟩
  · rintro ⟨hp, s₂, hnotes, a, hrest, rfl⟩
    exact ⟨a, s', (hm s a s').mpr ⟨hp, s₂, hnotes, hrest⟩, rfl⟩

lemma exists_map_iff {γ : Type} {f : α → β} {b : β} {P : γ → Prop} {g : γ → α} :
    (∃ a, (∃ kids, P kids ∧ a = g kids) ∧ b = f a) ↔ ∃ kids, P kids ∧ b = f (g kids) := by
  constructor
  · rintro ⟨_, ⟨kids, hkids, rfl⟩, rfl⟩
    exact ⟨kids, hkids, rfl⟩
  · rintro ⟨kids, hkids, rfl⟩
    exact ⟨_, ⟨kids, hkids, rfl⟩, rfl⟩

lemma does_container (c : Wit.ContainerNode) :
    Does input (container child c) c.Valid [] fun s₁ result s' =>
      ∃ kids, ((c.children.map Wit.FlexChild.node).mapM child) s₁ = ok (kids, s') ∧
        result = (c.children.zip kids).map fun e => (e.1.layout, e.2) := by
  have hchildren := does_children input child (P := fun x => x.layout.Valid)
    (fun _ => validateFlex_eq_ok) Wit.FlexChild.node (fun x n => (x.layout, n)) c.children
  refine .congr (.bind (does_range) (.bind (does_range)
    hchildren)) ?_ rfl
  rw [Wit.ContainerNode.Valid]

lemma optionalRange_eq_ok {label : String} {value : Option F32} {minimum maximum : Literal} :
    optionalRange label value minimum maximum = ok () ↔
      ∀ v ∈ value, inRange v minimum maximum = true := by
  cases value with
  | none => simp [optionalRange]
  | some v => simp [optionalRange, finiteRange_eq_ok]

lemma validateHold_eq_ok {hold : Option ℕ} :
    validateHold hold = ok () ↔ ∀ ms ∈ hold, 100 ≤ ms ∧ ms ≤ 10000 := by
  cases hold with
  | none => simp [validateHold]
  | some ms =>
    rw [validateHold]
    split_ifs with h
    · simp only [Option.mem_some_iff, forall_eq', false_iff, ← not_outside_iff,
        not_not]
      exact h
    · simp only [Option.mem_some_iff, forall_eq', true_iff, ← not_outside_iff]
      exact h

lemma effectPeriod_eq_ok {period result : Option ℕ} :
    effectPeriod period = ok result ↔
      (∀ ms ∈ period, 100 ≤ ms ∧ ms ≤ 60000) ∧ result = period.map (· * millisecond) := by
  cases period with
  | none => simp [effectPeriod, eq_comm]
  | some ms =>
    rw [effectPeriod]
    split_ifs with h
    · simp only [Option.mem_some_iff, forall_eq', false_iff, ← not_outside_iff,
        not_and]
      exact fun hnot => absurd h hnot
    · simp only [Outcome.ok.injEq, Option.mem_some_iff, forall_eq', ← not_outside_iff, h,
        not_false_eq_true, true_and, Option.map_some, eq_comm (a := result), Bool.false_eq_true]

lemma validateParameters_eq_ok {parameters : List F32} :
    validateParameters parameters = ok () ↔
      ∀ value ∈ parameters, inRange value (-1000000) 1000000 = true := by
  induction parameters with
  | nil => simp [validateParameters]
  | cons v vs ih =>
    rw [List.forall_mem_cons, ← ih]
    exact finiteRange_bind_eq_ok

lemma does_canvas (c : Wit.CanvasNode) :
    Does input (canvas input c) (c.Valid input.arithmetic)
      (.pay .text (Text.len c.label) :: .pay .commands c.commands.length ::
        c.commands.flatMap (Wit.CanvasCommand.notes input.arithmetic))
      (Returns (.canvas c.label c.viewboxWidth c.viewboxHeight
        (c.commands.map (Wit.CanvasCommand.build input.arithmetic)))) := by
  refine .congr (.bind (does_text _) (.bind (does_range)
    (.bind (does_range) (.bind (does_countCommands _)
      (.bind (does_mapM (does_canvasCommand) c.commands)
        (does_pure _)))))) ?_ ?_
  · simp only [Wit.CanvasNode.Valid, true_and, and_true]
  · rw [List.append_nil]
    rfl

lemma does_shaderEffect (e : Wit.ShaderEffectNode) :
    Does input (shaderEffect input e) e.Valid
      [.pay .text (Text.len e.label), .pay .effects 1, .effect e.effectId ⟨e.source, e.period⟩]
      fun s₁ ui s' => ∃ kids, ([].mapM child) s₁ = ok (kids, s') ∧
        ui = (Wit.Node.shaderEffect e).build input s₁.animations s₁.effects kids := by
  refine .rest (.congr (.guard (.bind (does_text _)
    (.bind (does_range) (.bind (does_range)
      (.bind (does_range) (.guard
        (.bind (does_check validateParameters_eq_ok)
          (.bind (does_lift fun _ => effectPeriod_eq_ok)
            (.bind (does_countEffect) (does_bindEffect _ _ _)))))))))) ?_ rfl) ?_
  · simp only [Wit.ShaderEffectNode.Valid, true_and, and_true, not_lt]
  · intro s₀ s₁ ui s' hnotes
    obtain ⟨s₂, -, hlast⟩ := (settle_append [_, _] [_]).mp hnotes
    rw [settle_singleton] at hlast
    obtain ⟨program, hprogram⟩ := get_program_of_enter hlast
    rw [List.mapM_nil]
    constructor
    · rintro ⟨program', hprogram', h⟩
      cases h
      refine ⟨[], rfl, ?_⟩
      rw [Wit.Node.build, hprogram']
      rfl
    · rintro ⟨kids, h, rfl⟩
      cases h
      refine ⟨program, hprogram, ?_⟩
      rw [Wit.Node.build, hprogram]
      rfl

/-- The decoder does nothing else about a node. -/
theorem does_decodeNode (v : Wit.Node) :
    Does input (decodeNode input child v) (v.Valid input) (v.notes input) fun s₁ ui s' =>
      ∃ kids, (v.children.mapM child) s₁ = ok (kids, s') ∧
        ui = v.build input s₁.animations s₁.effects kids := by
  cases v with
  | empty => exact does_leaf
  | layer children =>
    refine .rest (.map (does_run _)) fun _ s₁ ui s' _ => Iff.rfl
  | label content size color align =>
    exact .congr (.bind (does_text _) (.bind (does_range)
      (does_leaf))) (by simp only [Wit.Node.Valid, true_and, and_true]) rfl
  | icon icon color label =>
    exact .congr (.bind (does_text _) (does_leaf))
      (by simp only [Wit.Node.Valid, true_and]) rfl
  | image assetId label opacity fit tint =>
    refine .congr (.bind (does_text _) (.bind (does_text _)
      (.bind (does_check validateId_eq_ok) (.bind (does_range)
        (does_asset fun asset => .image asset opacity fit tint label))))) ?_ rfl
    simp only [Wit.Node.Valid, true_and]
  | button widgetId label icon pressed selected =>
    refine .congr (.bind (q := True) (does_text _) ?_)
      (by simp only [Wit.Node.Valid, true_and]) rfl
    cases selected
    · exact does_leaf
    · exact does_leaf
  | row c =>
    refine .rest (.map (does_container c)) fun _ s₁ ui s' _ => ?_
    exact exists_map_iff
  | column c =>
    refine .rest (.map (does_container c)) fun _ s₁ ui s' _ => ?_
    exact exists_map_iff
  | panel radius color padding index =>
    exact .congr (.bind (does_range) (.bind (does_range)
      (does_child))) (by simp only [Wit.Node.Valid, and_true]) rfl
  | pressable p =>
    exact .congr (.bind (does_text _) (.bind (does_range)
      (.bind (does_check optionalRange_eq_ok)
        (.bind (does_check validateHold_eq_ok) (does_child)))))
      (by simp only [Wit.Node.Valid, Wit.PressableNode.Valid, true_and, and_true]) rfl
  | slider widgetId label value =>
    exact .congr (.bind (does_text _) (.bind (does_range)
      (does_leaf))) (by simp only [Wit.Node.Valid, true_and, and_true]) rfl
  | meter label value peak =>
    exact .congr (.bind (does_text _) (.bind (does_range)
      (.bind (does_check optionalRange_eq_ok) (does_leaf))))
      (by simp only [Wit.Node.Valid, true_and, and_true]) rfl
  | progress label value trackRole fillRole =>
    exact .congr (.bind (does_text _) (.bind (does_range)
      (does_leaf))) (by simp only [Wit.Node.Valid, true_and, and_true]) rfl
  | opacity opacity index =>
    exact .congr (.bind (does_range) (does_child))
      (by simp only [Wit.Node.Valid, and_true]) rfl
  | motion m =>
    refine .congr (.guard (.guard
      (.bind (does_lift fun _ => visualTransform_eq_ok)
        (.bind (does_lift fun _ => visualTransform_eq_ok)
          (.rest (does_bindAnimation m.animationId m.signature _)
            fun _ _ _ _ _ => child_eq_ok))))) ?_ rfl
    simp only [Wit.Node.Valid, Wit.MotionNode.Valid, not_outside_iff, and_true]
  | canvas c =>
    refine .rest (does_canvas c) fun _ s₁ ui s' _ => ?_
    exact returns_iff
  | shaderEffect e => exact does_shaderEffect e
  | responsive widgetId variants =>
    have hcheck : ∀ v : Wit.ResponsiveVariant,
        finiteRange "responsive minimum width" v.minimumWidth 0 maxTouchbarWidth = ok () ↔
          inRange v.minimumWidth 0 maxTouchbarWidth = true := fun _ => finiteRange_eq_ok
    have hchildren := does_children input child hcheck Wit.ResponsiveVariant.node
      (fun v n => (v.representation, v.minimumWidth, n)) variants
    exact .rest (.map hchildren) fun _ s₁ ui s' _ => exists_map_iff

end TouchBar.View
