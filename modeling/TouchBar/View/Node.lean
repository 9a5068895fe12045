import TouchBar.Rust.Float
import TouchBar.Rust.BTree

/-!
# Views of components

A component returns a view as an arena of nodes that refer to each other by index; the host
decodes it into a tree of its own nodes.  This file has the types of both sides, without the
nodes of the host that no view decodes to.  The enumerations and plain records that both
sides have are one type here, since the host maps them case by case.

Identifiers are `u64` and indices `u32`; they are only compared, so they are natural numbers.
A duration is in nanoseconds.
-/

namespace TouchBar.View

open TouchBar.Rust

/-! ## What both sides have -/

inductive ColorRole where
  | background
  | control
  | controlPressed
  | track
  | foreground
  | muted
  | accent
  | destructive
  | onAccent
  | onDestructive
deriving DecidableEq, Repr

inductive TextAlign where
  | leading
  | center
  | trailing
deriving DecidableEq, Repr

inductive Icon where
  | volume
  | muted
  | play
  | pause
  | check
  | chevronLeft
  | chevronRight
deriving DecidableEq, Repr

inductive ImageFit where
  | contain
  | cover
  | stretch
deriving DecidableEq, Repr

inductive ImageTint where
  | none
  | multiply (role : ColorRole)
  | mask (role : ColorRole)
deriving DecidableEq, Repr

inductive CrossAxisAlignment where
  | start
  | center
  | endOf
  | stretch
deriving DecidableEq, Repr

inductive Representation where
  | minimal
  | compact
  | full
deriving DecidableEq, Repr

inductive Easing where
  | linear
  | easeInOut
deriving DecidableEq, Repr

inductive MotionPlayback where
  | once
  | loop
  | alternate
deriving DecidableEq, Repr

structure Point where
  x : F32
  y : F32
deriving DecidableEq, Repr

/-- `==` of points. -/
def Point.eq (a b : Point) : Bool := a.x.eq b.x && a.y.eq b.y

structure Rect where
  x : F32
  y : F32
  width : F32
  height : F32

structure Color where
  red : F32
  green : F32
  blue : F32
  alpha : F32

inductive CanvasColor where
  | role (role : ColorRole)
  | rgba (color : Color)

structure CanvasPaint where
  color : CanvasColor
  opacity : F32

structure CanvasLinearGradient where
  start : Point
  stop : Point
  startColor : CanvasPaint
  endColor : CanvasPaint

structure VisualTransform where
  translation : Point
  scale : F32
  opacity : F32
deriving DecidableEq, Repr

/-- `==` of transforms. -/
def VisualTransform.eq (a b : VisualTransform) : Bool :=
  a.translation.eq b.translation && a.scale.eq b.scale && a.opacity.eq b.opacity

structure Flex where
  minimum : F32
  basis : F32
  maximum : F32
  grow : F32
  shrink : F32
  visibilityPriority : ℤ
  required : Bool
  intrinsic : Bool

/-! ## Views -/

inductive PathSegment where
  | moveTo (point : Point)
  | lineTo (point : Point)
  | quadraticTo (control endpoint : Point)
  | cubicTo (controlOne controlTwo endpoint : Point)
  | close

namespace Wit

inductive CanvasCommand where
  | fillRect (rect : Rect) (radius : F32) (paint : CanvasPaint)
  | line (start stop : Point) (width : F32) (paint : CanvasPaint)
  | polyline (points : List Point) (width : F32) (paint : CanvasPaint)
  | fillCircle (center : Point) (radius : F32) (paint : CanvasPaint)
  | text (rect : Rect) (text : String) (size : F32) (color : CanvasPaint) (align : TextAlign)
  | fillLinearGradientRect (rect : Rect) (radius : F32) (gradient : CanvasLinearGradient)
  | strokePath (segments : List PathSegment) (width : F32) (paint : CanvasPaint)
  | fillPath (segments : List PathSegment) (paint : CanvasPaint)

structure CanvasNode where
  label : String
  viewboxWidth : F32
  viewboxHeight : F32
  commands : List CanvasCommand

structure ShaderEffectNode where
  effectId : ℕ
  label : String
  source : String
  parameters : List F32
  opacity : F32
  preferredWidth : F32
  preferredHeight : F32
  animationPeriodMs : Option ℕ

structure MotionNode where
  animationId : ℕ
  startTransform : VisualTransform
  endTransform : VisualTransform
  durationMs : ℕ
  easing : Easing
  playback : MotionPlayback
  child : ℕ

structure PressableNode where
  widgetId : ℕ
  label : String
  pressed : Bool
  selected : Option Bool
  holdMs : Option ℕ
  background : Option ColorRole
  pressedBackground : Option ColorRole
  contentForeground : Option ColorRole
  cornerRadius : Option F32
  padding : F32
  child : ℕ

structure FlexChild where
  node : ℕ
  layout : Flex

structure ContainerNode where
  gap : F32
  padding : F32
  align : CrossAxisAlignment
  children : List FlexChild

structure ResponsiveVariant where
  representation : Representation
  minimumWidth : F32
  node : ℕ

inductive Node where
  | empty
  | layer (children : List ℕ)
  | label (text : String) (size : F32) (color : ColorRole) (align : TextAlign)
  | icon (icon : Icon) (color : ColorRole) (label : String)
  | image (assetId label : String) (opacity : F32) (fit : ImageFit) (tint : ImageTint)
  | button (widgetId : ℕ) (label : String) (icon : Option Icon) (pressed selected : Bool)
  | row (container : ContainerNode)
  | column (container : ContainerNode)
  | panel (radius : F32) (color : ColorRole) (padding : F32) (child : ℕ)
  | pressable (pressable : PressableNode)
  | slider (widgetId : ℕ) (label : String) (value : F32)
  | meter (label : String) (value : F32) (peak : Option F32)
  | progress (label : String) (value : F32) (trackRole fillRole : ColorRole)
  | opacity (opacity : F32) (child : ℕ)
  | motion (motion : MotionNode)
  | canvas (canvas : CanvasNode)
  | shaderEffect (effect : ShaderEffectNode)
  | responsive (widgetId : ℕ) (variants : List ResponsiveVariant)

end Wit

/-! ## Nodes of the host -/

inductive CanvasCommand where
  | fillRect (rect : Rect) (radius : F32) (paint : CanvasPaint)
  | line (start stop : Point) (width : F32) (paint : CanvasPaint)
  | polyline (points : List Point) (width : F32) (paint : CanvasPaint)
  | fillCircle (center : Point) (radius : F32) (paint : CanvasPaint)
  | text (rect : Rect) (text : String) (size : F32) (paint : CanvasPaint) (align : TextAlign)
  | fillLinearGradientRect (rect : Rect) (radius : F32) (gradient : CanvasLinearGradient)
  | strokePath (subpaths : List (List Point)) (width : F32) (paint : CanvasPaint)
  | fillPath (triangles : List Point) (paint : CanvasPaint)

structure Motion where
  id : ℕ
  start : VisualTransform
  stop : VisualTransform
  started : ℕ
  duration : ℕ
  easing : Easing
  playback : MotionPlayback

structure ShaderEffect (Program : Type) where
  program : Program
  parameters : List F32
  opacity : F32
  started : ℕ
  period : Option ℕ

/-- The fields of a `PressableStyle` that a view sets; its minimum size is zero. -/
structure PressableStyle where
  background : Option ColorRole
  pressedBackground : Option ColorRole
  cornerRadius : Option F32
  padding : F32
  contentForeground : Option ColorRole

/-- `touchbar_ui::Node`.  A label has an ellipsis and is measured by its content, a button has
no hold, a slider, a meter and a progress have the unit range and the default style. -/
inductive UiNode (Image Program : Type) where
  | empty
  | layer (children : List (UiNode Image Program))
  | label (text : String) (size : F32) (color : ColorRole) (align : TextAlign)
  | icon (icon : Icon) (color : ColorRole) (label : String)
  | image (image : Image) (opacity : F32) (fit : ImageFit) (tint : ImageTint) (label : String)
  | toggle (id : ℕ) (label : String) (icon : Option Icon) (selected pressed : Bool)
  | button (id : ℕ) (label : String) (icon : Option Icon) (pressed : Bool)
  | row (gap padding : F32) (align : CrossAxisAlignment)
      (children : List (Flex × UiNode Image Program))
  | column (gap padding : F32) (align : CrossAxisAlignment)
      (children : List (Flex × UiNode Image Program))
  | panel (radius : F32) (color : ColorRole) (padding : F32) (child : UiNode Image Program)
  | pressable (id : ℕ) (label : String) (pressed : Bool) (hold : Option ℕ)
      (selected : Option Bool) (style : PressableStyle) (child : UiNode Image Program)
  | slider (id : ℕ) (label : String) (value : F32)
  | meter (label : String) (value : F32) (peak : Option F32)
  | progress (label : String) (value : F32) (trackRole fillRole : ColorRole)
  | opacity (opacity : F32) (child : UiNode Image Program)
  | motion (motion : Motion) (child : UiNode Image Program)
  | canvas (label : String) (width height : F32) (commands : List CanvasCommand)
  | shaderEffect (label : String) (width height : F32) (effect : ShaderEffect Program)
  | responsive (id : ℕ) (variants : List (Representation × F32 × UiNode Image Program))

end TouchBar.View
