import TouchBar.Rust.Text
import TouchBar.View.Canvas

/-!
# Decoding a view

`ViewDecoder` walks the arena of a view from its root.  It counts what the view spends
(expanded nodes, text, canvas commands, points, path segments, triangles and effects), refuses
an index that is on its own path, and binds animations and effects to the registries of the
host, which remember when each of them has started.

The decoder is dropped when it fails, so a failure has no state.  The depth of a node is given
by the levels that are left below the limit.
-/

namespace TouchBar.View

open TouchBar.Rust Outcome

/-! ## Registries -/

structure AnimationSignature where
  start : VisualTransform
  stop : VisualTransform
  duration : ℕ
  easing : Easing
  playback : MotionPlayback

/-- `==` of signatures. -/
def AnimationSignature.eq (a b : AnimationSignature) : Bool :=
  a.start.eq b.start && a.stop.eq b.stop && a.duration = b.duration && a.easing = b.easing &&
    a.playback = b.playback

structure AnimationState where
  signature : AnimationSignature
  started : ℕ

/-- The animations of all items, by item and identifier. -/
structure AnimationRegistry where
  entries : BTreeMap (String ×ₗ ℕ) AnimationState

namespace AnimationRegistry

def default : AnimationRegistry := ⟨.empty⟩

def bind (r : AnimationRegistry) (itemId : String) (animationId : ℕ)
    (signature : AnimationSignature) (now : ℕ) : ℕ × AnimationRegistry :=
  match (r.entries.get (toLex (itemId, animationId))).filter fun state =>
      state.signature.eq signature with
  | some state => (state.started, r)
  | none => (now, ⟨r.entries.insert (toLex (itemId, animationId)) ⟨signature, now⟩⟩)

def retainItem (r : AnimationRegistry) (itemId : String) (present : List ℕ) :
    AnimationRegistry :=
  ⟨r.entries.retain fun key => (ofLex key).1 ≠ itemId || present.contains (ofLex key).2⟩

end AnimationRegistry

structure EffectSignature where
  source : String
  period : Option ℕ
deriving DecidableEq, Repr

structure EffectState where
  signature : EffectSignature
  started : ℕ
deriving DecidableEq, Repr

/-- The effects of all items, and the programs that have been compiled. -/
structure EffectRegistry (Program : Type) where
  programs : BTreeMap String Program
  entries : BTreeMap (String ×ₗ ℕ) EffectState

namespace EffectRegistry

variable {Program : Type}

def default : EffectRegistry Program := ⟨.empty, .empty⟩

/-- The program of a source, compiled if it is new. -/
def program (compile : String → Outcome String Program) (r : EffectRegistry Program)
    (source : String) (maxPrograms : ℕ) : Outcome String (Program × BTreeMap String Program) :=
  match r.programs.get source with
  | some program => ok (program, r.programs)
  | none =>
    if maxPrograms ≤ r.programs.len then
      err "component exceeds its lifetime shader-effect program budget"
    else do
      let program ← compile source
      return (program, r.programs.insert source program)

def bind (compile : String → Outcome String Program) (r : EffectRegistry Program)
    (itemId : String) (effectId : ℕ) (source : String) (period : Option ℕ) (now : ℕ)
    (maxPrograms : ℕ) : Outcome String (Program × ℕ × EffectRegistry Program) := do
  let signature : EffectSignature := ⟨source, period⟩
  let key := toLex (itemId, effectId)
  let started := match (r.entries.get key).filter fun state => state.signature = signature with
    | some state => state.started
    | none => now
  let (program, programs) ← r.program compile source maxPrograms
  return (program, started, ⟨programs, r.entries.insert key ⟨signature, started⟩⟩)

def retainItem (r : EffectRegistry Program) (itemId : String) (present : List ℕ) :
    EffectRegistry Program :=
  { r with
    entries := r.entries.retain fun key =>
      (ofLex key).1 ≠ itemId || present.contains (ofLex key).2 }

end EffectRegistry

/-! ## The decoder -/

/-- The limits that the decoder reads, `usize` each. -/
structure HostLimits where
  maxNodes : UInt64
  maxExpandedNodes : UInt64
  maxTreeDepth : UInt64
  maxTextBytes : UInt64
  maxCanvasCommands : UInt64
  maxCanvasPoints : UInt64
  maxCanvasPathSegments : UInt64
  maxCanvasFillTriangles : UInt64
  maxAnimations : UInt64
  maxEffectNodes : UInt64
  maxEffectPrograms : UInt64

/-- `HostLimits::default()`. -/
def HostLimits.default : HostLimits where
  maxNodes := 256
  maxExpandedNodes := 512
  maxTreeDepth := 32
  maxTextBytes := 16 * 1024
  maxCanvasCommands := 512
  maxCanvasPoints := 2048
  maxCanvasPathSegments := 256
  maxCanvasFillTriangles := 512
  maxAnimations := 64
  maxEffectNodes := 4
  maxEffectPrograms := 8

/-- The fields of a `ViewDecoder` that stay as they are, and what it calls. -/
structure DecoderInput (Image Program : Type) where
  nodes : List Wit.Node
  limits : HostLimits
  itemId : String
  now : ℕ
  assets : String → Option Image
  /-- `EffectProgram::compile` -/
  compile : String → Outcome String Program
  arithmetic : Arithmetic

/-- The fields that change. -/
structure ViewDecoder (Program : Type) where
  animations : AnimationRegistry
  effects : EffectRegistry Program
  animationSignatures : BTreeMap ℕ AnimationSignature
  effectSignatures : BTreeMap ℕ EffectSignature
  visiting : BTreeSet ℕ
  expandedNodes : ℕ
  textBytes : ℕ
  canvasCommands : ℕ
  canvasPoints : ℕ
  canvasPathSegments : ℕ
  canvasFillTriangles : ℕ
  effectNodes : ℕ

def ViewDecoder.new {Program : Type} (animations : AnimationRegistry)
    (effects : EffectRegistry Program) : ViewDecoder Program :=
  ⟨animations, effects, .empty, .empty, .empty, 0, 0, 0, 0, 0, 0, 0⟩

/-- A step of the decoder: it fails, or it returns a value and moves on. -/
abbrev Decode (Program : Type) := StateT (ViewDecoder Program) (Outcome String)

variable {Image Program : Type}

def bail {α : Type} (message : String) : Decode Program α := fun _ => err message

/-- `checked_add` of an amount, and the check of its limit. -/
def charge (used amount : ℕ) (limit : UInt64) (overflow exceeded : String) : Outcome String ℕ :=
  if U64.size ≤ used + amount then err overflow
  else if limit.toNat < used + amount then err exceeded
  else ok (used + amount)

section Decode

variable (input : DecoderInput Image Program)

def text (text : String) : Decode Program Unit := fun s => do
  let textBytes ← charge s.textBytes (Text.len text) input.limits.maxTextBytes
    "component text budget overflow" "component view exceeds text budget"
  return ((), { s with textBytes := textBytes })

def countCommands (count : ℕ) : Decode Program Unit := fun s => do
  let canvasCommands ← charge s.canvasCommands count input.limits.maxCanvasCommands
    "component canvas command budget overflow" "component view exceeds canvas command budget"
  return ((), { s with canvasCommands := canvasCommands })

def countPoints (count : ℕ) : Decode Program Unit := fun s => do
  let canvasPoints ← charge s.canvasPoints count input.limits.maxCanvasPoints
    "component canvas point budget overflow" "component view exceeds canvas point budget"
  return ((), { s with canvasPoints := canvasPoints })

def countPathSegments (count : ℕ) : Decode Program Unit := fun s => do
  let canvasPathSegments ← charge s.canvasPathSegments count input.limits.maxCanvasPathSegments
    "component canvas path segment budget overflow"
    "component view exceeds canvas path segment budget"
  return ((), { s with canvasPathSegments := canvasPathSegments })

def countFillTriangles (count : ℕ) : Decode Program Unit := fun s => do
  let canvasFillTriangles ← charge s.canvasFillTriangles count
    input.limits.maxCanvasFillTriangles "component canvas fill triangle budget overflow"
    "component view exceeds canvas fill triangle budget"
  return ((), { s with canvasFillTriangles := canvasFillTriangles })

/-! ### Canvases -/

def canvasPath (segments : List PathSegment) (width : F32) (paint : CanvasPaint) :
    Decode Program CanvasCommand := do
  if segments.length < 2 || 128 < segments.length then
    bail "canvas path must contain between 2 and 128 segments"
  else
    countPathSegments input segments.length
    let subpaths ← flattenPath input.arithmetic segments
    countPoints input (subpaths.map List.length).sum
    let width ← canvasStrokeWidth width
    let paint ← canvasPaint paint
    return .strokePath subpaths width paint

def canvasFillPath (segments : List PathSegment) (paint : CanvasPaint) :
    Decode Program CanvasCommand := do
  if segments.length < 4 || 128 < segments.length then
    bail "canvas fill path must contain between 4 and 128 segments"
  else
    countPathSegments input segments.length
    let points ← fillVertices input.arithmetic segments
    countPoints input points.length
    validateSimplePolygon input.arithmetic points
    let triangles ← triangulateSimplePolygon input.arithmetic points
    if 256 < triangles.length / 3 then
      bail "canvas fill path exceeds its 256-triangle limit"
    else
      countFillTriangles input (triangles.length / 3)
      let paint ← canvasPaint paint
      return .fillPath triangles paint

def canvasCommand (command : Wit.CanvasCommand) : Decode Program CanvasCommand :=
  match command with
  | .fillRect rect radius paint => do
    canvasRect rect
    finiteRange "canvas corner radius" radius 0 2048
    let paint ← canvasPaint paint
    return .fillRect rect radius paint
  | .line start stop width paint => do
    let start ← canvasPoint start
    let stop ← canvasPoint stop
    let width ← canvasStrokeWidth width
    let paint ← canvasPaint paint
    return .line start stop width paint
  | .polyline points width paint => do
    if points.length < 2 || 256 < points.length then
      bail "canvas polyline must contain between 2 and 256 points"
    else
      countPoints input points.length
      let points ← (points.mapM canvasPoint : Outcome String (List Point))
      let width ← canvasStrokeWidth width
      let paint ← canvasPaint paint
      return .polyline points width paint
  | .fillCircle center radius paint => do
    let center ← canvasPoint center
    finiteRange "canvas circle radius" radius 0 2048
    let paint ← canvasPaint paint
    return .fillCircle center radius paint
  | .text rect content size color align => do
    canvasRect rect
    finiteRange "canvas text size" size 1 256
    text input content
    let paint ← canvasPaint color
    return .text rect content size paint align
  | .fillLinearGradientRect rect radius gradient => do
    canvasRect rect
    finiteRange "canvas gradient corner radius" radius 0 2048
    let start ← canvasPoint gradient.start
    let stop ← canvasPoint gradient.stop
    if start.eq stop then
      bail "canvas linear gradient must have a nonzero axis"
    else
      let startColor ← canvasPaint gradient.startColor
      let endColor ← canvasPaint gradient.endColor
      return .fillLinearGradientRect rect radius ⟨start, stop, startColor, endColor⟩
  | .strokePath segments width paint => canvasPath input segments width paint
  | .fillPath segments paint => canvasFillPath input segments paint

def canvas (canvas : Wit.CanvasNode) : Decode Program (UiNode Image Program) := do
  text input canvas.label
  finiteRange "canvas viewbox width" canvas.viewboxWidth 1 4096
  finiteRange "canvas viewbox height" canvas.viewboxHeight 1 4096
  countCommands input canvas.commands.length
  let commands ← canvas.commands.mapM (canvasCommand input)
  return .canvas canvas.label canvas.viewboxWidth canvas.viewboxHeight commands

/-! ### Effects and animations -/

def millisecond : ℕ := 1000000

/-- The period of an effect. -/
def effectPeriod : Option ℕ → Outcome String (Option ℕ)
  | none => ok none
  | some milliseconds =>
    if milliseconds < 100 || 60000 < milliseconds then
      err "shader-effect period must be between 100 and 60000 milliseconds"
    else
      ok (some (milliseconds * millisecond))

/-- The parameters of an effect, with zeros up to the maximum of eight. -/
def effectParameters (parameters : List F32) : List F32 :=
  parameters ++ List.replicate (8 - parameters.length) 0

def validateParameters (parameters : List F32) : Outcome String Unit :=
  parameters.forM fun value => finiteRange "shader-effect parameter" value (-1000000) 1000000

def countEffect : Decode Program Unit := fun s =>
  if input.limits.maxEffectNodes.toNat < s.effectNodes + 1 then
    err "component view exceeds shader-effect node budget"
  else
    ok ((), { s with effectNodes := s.effectNodes + 1 })

/-- The description of an effect, and its program and start in the registry. -/
def bindEffect (effectId : ℕ) (signature : EffectSignature) : Decode Program (Program × ℕ) :=
  fun s =>
    if (s.effectSignatures.get effectId).any fun existing => existing ≠ signature then
      err "shader-effect ID has conflicting descriptions in one view"
    else do
      let (program, started, effects) ← s.effects.bind input.compile input.itemId effectId
        signature.source signature.period input.now input.limits.maxEffectPrograms.toNat
      return ((program, started), { s with
        effectSignatures := s.effectSignatures.insert effectId signature
        effects := effects })

def shaderEffect (effect : Wit.ShaderEffectNode) : Decode Program (UiNode Image Program) := do
  if effect.effectId = 0 then
    bail "shader-effect ID must be nonzero"
  else
    text input effect.label
    finiteRange "shader-effect opacity" effect.opacity 0 1
    finiteRange "shader-effect preferred width" effect.preferredWidth 1 4096
    finiteRange "shader-effect preferred height" effect.preferredHeight 1 4096
    if 8 < effect.parameters.length then
      bail "shader effect has more than eight scalar parameters"
    else
      validateParameters effect.parameters
      let period ← effectPeriod effect.animationPeriodMs
      countEffect input
      let (program, started) ← bindEffect input effect.effectId ⟨effect.source, period⟩
      return .shaderEffect effect.label effect.preferredWidth effect.preferredHeight
        ⟨program, effectParameters effect.parameters, effect.opacity, started, period⟩

def visualTransform (label : String) (transform : VisualTransform) :
    Outcome String VisualTransform := do
  finiteRange (label ++ " translation x") transform.translation.x (-4096) 4096
  finiteRange (label ++ " translation y") transform.translation.y (-4096) 4096
  finiteRange (label ++ " scale") transform.scale 0 8
  finiteRange (label ++ " opacity") transform.opacity 0 1
  return transform

/-- The description of an animation, and its start in the registry. -/
def bindAnimation (animationId : ℕ) (signature : AnimationSignature) : Decode Program ℕ :=
  fun s =>
    if (s.animationSignatures.get animationId).any fun existing => !existing.eq signature then
      err "animation ID has conflicting descriptions in one view"
    else
      let animationSignatures := s.animationSignatures.insert animationId signature
      if input.limits.maxAnimations.toNat < animationSignatures.len then
        err "component view exceeds animation budget"
      else
        let (started, animations) :=
          s.animations.bind input.itemId animationId signature input.now
        ok (started, { s with
          animationSignatures := animationSignatures
          animations := animations })

/-! ### Nodes -/

def validId (value : String) : Bool :=
  !Text.isEmpty value && Text.headIs value Char.isLower && !Text.startsWith value "-" &&
    !Text.endsWith value "-" && !Text.containsStr value "--" &&
    Text.all value fun c => c.isLower || c.isDigit || c = '-'

def validateId (label value : String) : Outcome String Unit :=
  if validId value then ok () else err (label ++ " must be a lowercase kebab-case identifier")

/-- `MAX_TOUCHBAR_WIDTH`. -/
def maxTouchbarWidth : Literal := 8192

def validateFlex (flex : Flex) : Outcome String Unit := do
  finiteRange "flex minimum" flex.minimum 0 maxTouchbarWidth
  finiteRange "flex basis" flex.basis 0 maxTouchbarWidth
  finiteRange "flex maximum" flex.maximum 0 maxTouchbarWidth
  finiteRange "flex grow" flex.grow 0 1000
  finiteRange "flex shrink" flex.shrink 0 1000
  if flex.basis.lt flex.minimum || flex.maximum.lt flex.basis then
    err "flex values must satisfy minimum <= basis <= maximum"
  else
    return ()

/-- A range check of a value that may be missing. -/
def optionalRange (label : String) (value : Option F32) (minimum maximum : Literal) :
    Outcome String Unit :=
  match value with
  | none => ok ()
  | some value => finiteRange label value minimum maximum

def validateHold : Option ℕ → Outcome String Unit
  | none => ok ()
  | some holdMs =>
    if holdMs < 100 || 10000 < holdMs then
      err "pressable hold must be between 100 and 10000 milliseconds"
    else
      ok ()

/-- The children of a container, where `child` decodes a node of the next level. -/
def container (child : ℕ → Decode Program (UiNode Image Program))
    (container : Wit.ContainerNode) : Decode Program (List (Flex × UiNode Image Program)) := do
  finiteRange "container gap" container.gap 0 maxTouchbarWidth
  finiteRange "container padding" container.padding 0 502
  container.children.mapM fun found => do
    validateFlex found.layout
    let node ← child found.node
    return (found.layout, node)

/-- The match of `node` on the node that it has found. -/
def decodeNode (child : ℕ → Decode Program (UiNode Image Program)) (node : Wit.Node) :
    Decode Program (UiNode Image Program) :=
  match node with
  | .empty => return .empty
  | .layer children => do
    let children ← children.mapM child
    return .layer children
  | .label content size color align => do
    text input content
    finiteRange "label size" size 1 64
    return .label content size color align
  | .icon icon color label => do
    text input label
    return .icon icon color label
  | .image assetId label opacity fit tint => do
    text input assetId
    text input label
    validateId "asset ID" assetId
    finiteRange "image opacity" opacity 0 1
    match input.assets assetId with
    | none => bail ("component references unknown asset `" ++ assetId ++ "`")
    | some asset => return .image asset opacity fit tint label
  | .button widgetId label icon pressed selected => do
    text input label
    if selected then
      return .toggle widgetId label icon true pressed
    else
      return .button widgetId label icon pressed
  | .row c => do
    let children ← container child c
    return .row c.gap c.padding c.align children
  | .column c => do
    let children ← container child c
    return .column c.gap c.padding c.align children
  | .panel radius color padding index => do
    finiteRange "panel radius" radius 0 60
    finiteRange "panel padding" padding 0 60
    let node ← child index
    return .panel radius color padding node
  | .pressable p => do
    text input p.label
    finiteRange "pressable padding" p.padding 0 60
    optionalRange "pressable corner radius" p.cornerRadius 0 60
    validateHold p.holdMs
    let node ← child p.child
    return .pressable p.widgetId p.label p.pressed (p.holdMs.map (· * millisecond)) p.selected
      ⟨p.background, p.pressedBackground, p.cornerRadius, p.padding, p.contentForeground⟩ node
  | .slider widgetId label value => do
    text input label
    finiteRange "slider value" value 0 1
    return .slider widgetId label value
  | .meter label value peak => do
    text input label
    finiteRange "meter value" value 0 1
    optionalRange "meter peak" peak 0 1
    return .meter label value peak
  | .progress label value trackRole fillRole => do
    text input label
    finiteRange "progress value" value 0 1
    return .progress label value trackRole fillRole
  | .opacity opacity index => do
    finiteRange "opacity" opacity 0 1
    let node ← child index
    return .opacity opacity node
  | .motion m => do
    if m.animationId = 0 then
      bail "animation ID must be nonzero"
    else if m.durationMs < 1 || 60000 < m.durationMs then
      bail "animation duration must be between 1 and 60000 milliseconds"
    else
      let start ← visualTransform "animation start" m.startTransform
      let stop ← visualTransform "animation end" m.endTransform
      let started ← bindAnimation input m.animationId
        ⟨start, stop, m.durationMs * millisecond, m.easing, m.playback⟩
      let node ← child m.child
      return .motion ⟨m.animationId, start, stop, started, m.durationMs * millisecond, m.easing,
        m.playback⟩ node
  | .canvas c => canvas input c
  | .shaderEffect effect => shaderEffect input effect
  | .responsive widgetId variants => do
    let variants ← variants.mapM fun variant => do
      finiteRange "responsive minimum width" variant.minimumWidth 0 maxTouchbarWidth
      let node ← child variant.node
      return (variant.representation, variant.minimumWidth, node)
    return .responsive widgetId variants

/-- The count of an expanded node. -/
def countNode : Decode Program Unit := fun s =>
  if input.limits.maxExpandedNodes.toNat < s.expandedNodes + 1 then
    err "component view exceeds expanded node budget"
  else
    ok ((), { s with expandedNodes := s.expandedNodes + 1 })

/-- `visiting.insert`, which refuses an index that is on its own path. -/
def visit (index : ℕ) : Decode Program Unit := fun s =>
  if s.visiting.contains index then
    err ("component view contains a cycle at node " ++ toString index)
  else
    ok ((), { s with visiting := s.visiting.insert index })

def leave (index : ℕ) : Decode Program Unit := fun s =>
  ok ((), { s with visiting := s.visiting.remove index })

/-- `ViewDecoder::node`, with the levels that are left for the node and those below it. -/
def node : ℕ → ℕ → Decode Program (UiNode Image Program)
  | 0, _ => bail "component view exceeds maximum tree depth"
  | levels + 1, index => do
    countNode input
    match input.nodes[index]? with
    | none => bail ("component view references missing node " ++ toString index)
    | some found => do
      visit index
      let decoded ← decodeNode input (node levels) found
      leave index
      return decoded

def decode (root : ℕ) (animations : AnimationRegistry) (effects : EffectRegistry Program) :
    Outcome String (UiNode Image Program × AnimationRegistry × EffectRegistry Program) :=
  if input.nodes.isEmpty then
    err "component returned an empty node arena"
  else if input.limits.maxNodes.toNat < input.nodes.length then
    err ("component returned " ++ toString input.nodes.length ++ " nodes; limit is " ++
      toString input.limits.maxNodes)
  else do
    let (root, s) ← node input (input.limits.maxTreeDepth.toNat + 1) root (.new animations effects)
    return (root, s.animations.retainItem input.itemId s.animationSignatures.keys,
      s.effects.retainItem input.itemId s.effectSignatures.keys)

end Decode

end TouchBar.View
