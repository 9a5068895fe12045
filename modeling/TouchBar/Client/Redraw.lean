import TouchBar.Lib.Runs

/-!
# Redraws of a client

The client runtime draws when the compositor or the application asks for it.  Drawing is
paced by the frame callbacks of the compositor: while one is outstanding a requested redraw
waits.  The condition for drawing is written out in each handler, over the flags `visible`,
`redraw_pending` and `frame_pending`, and one handler leaves a part of it out: when the
surface is hidden, the handler of the visibility event draws a pending redraw all the same.

The application, the graphics and the connection answer as they like.  Two ghost fields
count the outstanding frame callbacks and record the visibility at each call of
`Application::render`.
-/

namespace TouchBar.Client

open TouchBar.Lib

/-! ## The runtime -/

inductive FrameFlow where
  | wait
  | animate
  | exit
deriving DecidableEq

structure SurfaceConfig where
  width : UInt32
  height : UInt32
  refreshMillihz : UInt32
deriving DecidableEq

structure Runtime where
  /-- The size that the graphics have, if they exist. -/
  graphics : Option (UInt32 × UInt32)
  config : Option SurfaceConfig
  frames : ℕ
  framePending : Bool
  visible : Bool
  redrawPending : Bool
  lastFlow : FrameFlow
  running : Bool
  error : Option String
  /-- The frame callbacks that were requested and have not come. -/
  callbacks : ℕ
  /-- The visibility at each call of `Application::render`. -/
  renders : List Bool
deriving DecidableEq

/-- `new`. -/
def Runtime.new : Runtime where
  graphics := none
  config := none
  frames := 0
  framePending := false
  visible := true
  redrawPending := false
  lastFlow := .wait
  running := true
  error := none
  callbacks := 0
  renders := []

/-- The answers while a frame is drawn. -/
structure Drawing where
  render : Except String FrameFlow
  exportAcquireFence : Except String Unit
  present : Except String Unit

/-- The answers while a configuration is taken over. -/
structure Configuring where
  flush : Except String Unit
  newGraphics : Except String Unit
  configured : Except String Unit
  drawing : Drawing

/-- The events that the runtime handles, with the answers that its handler gets.  The
verdict on the snapshot of an appearance is part of its event. -/
inductive Event where
  | configure (config : SurfaceConfig) (answers : Configuring)
  | visibility (visible : Bool) (redraw : Except String Bool) (drawing : Drawing)
  | touch (redraw : Except String Bool) (drawing : Drawing)
  | externalEvent (redraw : Except String Bool) (drawing : Drawing)
  | appearanceDone (snapshot : Except String Unit) (redraw : Except String Bool)
      (drawing : Drawing)
  | frameDone (drawing : Drawing)

namespace Runtime

/-- The part of `render_and_commit` that takes over the flow and requests a frame callback. -/
def requestFrame (runtime : Runtime) (flow : FrameFlow) : Runtime :=
  let runtime := { runtime with redrawPending := false, lastFlow := flow }
  if flow = .animate ∧ runtime.framePending = false then
    { runtime with framePending := true, callbacks := runtime.callbacks + 1 }
  else runtime

/-- The end of `render_and_commit`. -/
def present (runtime : Runtime) (flow : FrameFlow) (drawing : Drawing) :
    Runtime × Except String Unit :=
  match drawing.exportAcquireFence, drawing.present with
  | .error error, _ => (runtime, .error error)
  | .ok _, .error error => (runtime, .error error)
  | .ok _, .ok _ =>
    ({ runtime with
        frames := runtime.frames + 1
        running := runtime.running && flow ≠ .exit }, .ok ())

def renderAndCommit (runtime : Runtime) (drawing : Drawing) : Runtime × Except String Unit :=
  if runtime.config.isNone then (runtime, .error "surface is not configured")
  else if runtime.graphics.isNone then (runtime, .error "graphics is unavailable")
  else
    let runtime := { runtime with renders := runtime.renders ++ [runtime.visible] }
    match drawing.render with
    | .error error => (runtime, .error error)
    | .ok flow => (runtime.requestFrame flow).present flow drawing

/-- The end of `configure`, with graphics of the new size. -/
def takeOver (runtime : Runtime) (config : SurfaceConfig) (answers : Configuring) :
    Runtime × Except String Unit :=
  let runtime :=
    { runtime with
      graphics := some (config.width, config.height)
      config := some config }
  match answers.configured with
  | .error error => (runtime, .error error)
  | .ok _ =>
    let runtime := { runtime with redrawPending := true }
    if runtime.visible then runtime.renderAndCommit answers.drawing else (runtime, .ok ())

def configure (runtime : Runtime) (config : SurfaceConfig) (answers : Configuring) :
    Runtime × Except String Unit :=
  if config.width = 0 ∨ config.height = 0 then
    (runtime, .error "compositor configured an empty region")
  else
    match answers.flush with
    | .error error => (runtime, .error error)
    | .ok _ =>
      match runtime.graphics, answers.newGraphics with
      | none, .error error => (runtime, .error error)
      | _, _ => runtime.takeOver config answers

/-- The end of `touch`, `external_event` and the handler of an appearance: the application
has said whether it wants a redraw. -/
def redrawAfter (runtime : Runtime) (redraw : Except String Bool) (drawing : Drawing) :
    Runtime × Except String Unit :=
  match redraw with
  | .error error => (runtime, .error error)
  | .ok redraw =>
    let runtime := { runtime with redrawPending := runtime.redrawPending || redraw }
    if runtime.redrawPending && runtime.visible && !runtime.framePending &&
        runtime.graphics.isSome then
      runtime.renderAndCommit drawing
    else (runtime, .ok ())

def touch (runtime : Runtime) (redraw : Except String Bool) (drawing : Drawing) :
    Runtime × Except String Unit :=
  runtime.redrawAfter redraw drawing

def externalEvent (runtime : Runtime) (redraw : Except String Bool) (drawing : Drawing) :
    Runtime × Except String Unit :=
  runtime.redrawAfter redraw drawing

def appearanceDone (runtime : Runtime) (snapshot : Except String Unit)
    (redraw : Except String Bool) (drawing : Drawing) : Runtime × Except String Unit :=
  match snapshot with
  | .error error => (runtime, .error error)
  | .ok _ => runtime.redrawAfter redraw drawing

def visibility (runtime : Runtime) (visible : Bool) (redraw : Except String Bool)
    (drawing : Drawing) : Runtime × Except String Unit :=
  let runtime := { runtime with visible := visible }
  match redraw with
  | .error error => (runtime, .error error)
  | .ok redraw =>
    let runtime :=
      { runtime with
        redrawPending :=
          runtime.redrawPending || redraw || (visible && runtime.lastFlow == .animate) }
    -- the one condition for drawing that does not ask whether the surface is visible
    if runtime.redrawPending && !runtime.framePending && runtime.graphics.isSome then
      runtime.renderAndCommit drawing
    else (runtime, .ok ())

def frameDone (runtime : Runtime) (drawing : Drawing) : Runtime × Except String Unit :=
  let runtime :=
    { runtime with framePending := false, callbacks := runtime.callbacks - 1 }
  if runtime.visible && (runtime.lastFlow == .animate || runtime.redrawPending) then
    runtime.renderAndCommit drawing
  else (runtime, .ok ())

def handle (runtime : Runtime) : Event → Runtime × Except String Unit
  | .configure config answers => runtime.configure config answers
  | .visibility visible redraw drawing => runtime.visibility visible redraw drawing
  | .touch redraw drawing => runtime.touch redraw drawing
  | .externalEvent redraw drawing => runtime.externalEvent redraw drawing
  | .appearanceDone snapshot redraw drawing => runtime.appearanceDone snapshot redraw drawing
  | .frameDone drawing => runtime.frameDone drawing

def fail (runtime : Runtime) (error : String) : Runtime :=
  { runtime with error := some error, running := false }

/-- An event is handled, and an error of its handler ends the run. -/
def step (runtime : Runtime) (event : Event) : Runtime :=
  match runtime.handle event with
  | (runtime, .ok _) => runtime
  | (runtime, .error error) => runtime.fail error

end Runtime

/-! ## Pacing -/

/-- The frame callbacks that come were requested. -/
def Delivered (runtime : Runtime) : Event → Prop
  | .frameDone _ => 0 < runtime.callbacks
  | _ => True

/-- The application has drawn only while the surface was visible; no redraw is pending while
the surface is visible, configured and without a frame callback; and there is at most one
frame callback. -/
structure Paced (runtime : Runtime) : Prop where
  visible : ∀ visible ∈ runtime.renders, visible = true
  drawn : runtime.visible = true → runtime.config.isSome = true → runtime.callbacks = 0 →
    runtime.redrawPending = false
  single : runtime.callbacks ≤ 1

/-- What every event keeps, whatever the application does. -/
structure Coherent (runtime : Runtime) : Prop where
  counted : runtime.callbacks = if runtime.framePending then 1 else 0
  graphics : runtime.graphics.isSome = runtime.config.isSome
  configured : runtime.framePending = true → runtime.config.isSome = true

variable {runtime : Runtime}

lemma Coherent.paced_iff (h : Coherent runtime) :
    Paced runtime ↔ (∀ visible ∈ runtime.renders, visible = true) ∧
      (runtime.visible = true → runtime.config.isSome = true → runtime.framePending = false →
        runtime.redrawPending = false) := by
  have hcounted := h.counted
  constructor
  · rintro ⟨hvisible, hdrawn, -⟩
    refine ⟨hvisible, fun hv hc hf => hdrawn hv hc ?_⟩
    rw [hcounted, hf]
    rfl
  · rintro ⟨hvisible, hdrawn⟩
    refine ⟨hvisible, fun hv hc h0 => hdrawn hv hc ?_, ?_⟩
    · by_contra hf
      simp [hcounted, hf] at h0
    · rw [hcounted]
      split_ifs <;> simp

/-- A drawing that leaves the surface paced: the surface is visible, and a redraw that is
pending gets drawn unless a frame callback will come. -/
def DrawsWell (runtime : Runtime) (drawing : Drawing) : Prop :=
  runtime.visible = true ∧
    (runtime.framePending = false → runtime.redrawPending = true → drawing.render.isOk = true)

lemma Coherent.requestFrame (h : Coherent runtime) (hconfig : runtime.config.isSome = true)
    (flow : FrameFlow) : Coherent (runtime.requestFrame flow) := by
  obtain ⟨hcounted, hgraphics, hconfigured⟩ := h
  unfold Runtime.requestFrame
  dsimp only
  split_ifs with hanimate
  · refine ⟨?_, hgraphics, fun _ => hconfig⟩
    simp [hcounted, hanimate.2]
  · exact ⟨hcounted, hgraphics, hconfigured⟩

@[simp] lemma requestFrame_renders (runtime : Runtime) (flow : FrameFlow) :
    (runtime.requestFrame flow).renders = runtime.renders := by
  unfold Runtime.requestFrame
  dsimp only
  split_ifs <;> rfl

@[simp] lemma requestFrame_redrawPending (runtime : Runtime) (flow : FrameFlow) :
    (runtime.requestFrame flow).redrawPending = false := by
  unfold Runtime.requestFrame
  dsimp only
  split_ifs <;> rfl

/-- Presenting a frame changes nothing that matters for the pacing. -/
lemma present_iff (flow : FrameFlow) (drawing : Drawing) :
    (Coherent (runtime.present flow drawing).1 ↔ Coherent runtime) ∧
      (Paced (runtime.present flow drawing).1 ↔ Paced runtime) := by
  unfold Runtime.present
  cases drawing.exportAcquireFence with
  | error error => exact ⟨Iff.rfl, Iff.rfl⟩
  | ok =>
    cases drawing.present with
    | error error => exact ⟨Iff.rfl, Iff.rfl⟩
    | ok =>
      exact ⟨⟨fun ⟨hc, hg, hf⟩ => ⟨hc, hg, hf⟩, fun ⟨hc, hg, hf⟩ => ⟨hc, hg, hf⟩⟩,
        ⟨fun ⟨hv, hd, hs⟩ => ⟨hv, hd, hs⟩, fun ⟨hv, hd, hs⟩ => ⟨hv, hd, hs⟩⟩⟩

lemma renderAndCommit_spec (h : Coherent runtime) (hconfig : runtime.config.isSome = true)
    (hrenders : ∀ visible ∈ runtime.renders, visible = true) (drawing : Drawing) :
    Coherent (runtime.renderAndCommit drawing).1 ∧
      (Paced (runtime.renderAndCommit drawing).1 ↔ DrawsWell runtime drawing) := by
  have hnone : runtime.config.isNone = false := by simpa using hconfig
  have hnone' : runtime.graphics.isNone = false := by simpa [hconfig] using h.graphics
  have hseen : (∀ visible ∈ runtime.renders ++ [runtime.visible], visible = true) ↔
      runtime.visible = true := by
    constructor
    · exact fun hall => hall _ (by simp)
    · intro hvisible visible hmem
      rcases List.mem_append.mp hmem with hmem | hmem
      · exact hrenders visible hmem
      · rw [List.mem_singleton.mp hmem, hvisible]
  have hseenCoherent :
      Coherent { runtime with renders := runtime.renders ++ [runtime.visible] } :=
    ⟨h.counted, h.graphics, h.configured⟩
  unfold Runtime.renderAndCommit DrawsWell
  simp only [hnone, hnone', Bool.false_eq_true, if_false]
  cases drawing.render with
  | error error =>
    refine ⟨hseenCoherent, ?_⟩
    simp only [hseenCoherent.paced_iff, hseen, hconfig, Except.isOk, Except.toBool,
      Bool.false_eq_true, imp_false, Bool.not_eq_true, true_imp_iff]
    constructor
    · exact fun ⟨hv, hd⟩ => ⟨hv, hd hv⟩
    · exact fun ⟨hv, hd⟩ => ⟨hv, fun _ => hd⟩
  | ok flow =>
    have hcoherent := hseenCoherent.requestFrame hconfig flow
    obtain ⟨hkeeps, hpaced⟩ := @present_iff (Runtime.requestFrame
      { runtime with renders := runtime.renders ++ [runtime.visible] } flow) flow drawing
    refine ⟨hkeeps.mpr hcoherent, hpaced.trans ?_⟩
    rw [hcoherent.paced_iff]
    simp only [requestFrame_renders, hseen, requestFrame_redrawPending, implies_true, and_true,
      Except.isOk, Except.toBool]

/-! ## Events that keep the pace -/

/-- An answer that asks for a redraw is followed by one, unless the surface is hidden, not
configured or waiting. -/
def AskedWell (runtime : Runtime) (redraw : Except String Bool) (drawing : Drawing) : Prop :=
  redraw.toOption = some true → runtime.visible = true → runtime.config.isSome = true →
    runtime.framePending = false → drawing.render.isOk = true

/-- The events after which a paced surface is paced.  An event that hides the surface must not
meet a redraw that could be drawn at once, and no callback may fail that leaves such a redraw
on a visible surface. -/
def KeepsPace (runtime : Runtime) : Event → Prop
  | .configure config answers =>
    config.width ≠ 0 → config.height ≠ 0 → answers.flush.isOk = true →
      (runtime.config.isSome = true ∨ answers.newGraphics.isOk = true) →
        runtime.visible = true → runtime.framePending = false →
          if answers.configured.isOk then answers.drawing.render.isOk = true
          else runtime.redrawPending = false
  | .visibility false redraw _ =>
    runtime.config.isSome = true → runtime.framePending = false → redraw.isOk = true →
      runtime.redrawPending = false ∧ redraw.toOption = some false
  | .visibility true redraw drawing =>
    runtime.config.isSome = true → runtime.framePending = false →
      if redraw.isOk then
        (runtime.redrawPending = true ∨ redraw.toOption = some true ∨
          runtime.lastFlow = .animate) → drawing.render.isOk = true
      else runtime.redrawPending = false
  | .touch redraw drawing => AskedWell runtime redraw drawing
  | .externalEvent redraw drawing => AskedWell runtime redraw drawing
  | .appearanceDone snapshot redraw drawing =>
    snapshot.isOk = true → AskedWell runtime redraw drawing
  | .frameDone drawing =>
    runtime.visible = true → runtime.redrawPending = true → drawing.render.isOk = true

lemma redrawAfter_spec (h : Coherent runtime) (hpaced : Paced runtime)
    (redraw : Except String Bool) (drawing : Drawing) :
    Coherent (runtime.redrawAfter redraw drawing).1 ∧
      (Paced (runtime.redrawAfter redraw drawing).1 ↔ AskedWell runtime redraw drawing) := by
  obtain ⟨hrenders, hdrawn⟩ := h.paced_iff.mp hpaced
  unfold Runtime.redrawAfter AskedWell
  cases redraw with
  | error error => exact ⟨h, by simp [hpaced, Except.toOption]⟩
  | ok redraw =>
    have hasked : Coherent { runtime with redrawPending := runtime.redrawPending || redraw } :=
      ⟨h.counted, h.graphics, h.configured⟩
    dsimp only
    split_ifs with hdraws
    · simp only [Bool.and_eq_true, Bool.not_eq_true'] at hdraws
      obtain ⟨⟨⟨hpending, hvisible⟩, hidle⟩, hgraphics⟩ := hdraws
      have hconfig : runtime.config.isSome = true := h.graphics.symm.trans hgraphics
      have hnone := hdrawn hvisible hconfig hidle
      obtain ⟨hcoherent, hiff⟩ := renderAndCommit_spec hasked hconfig hrenders drawing
      refine ⟨hcoherent, hiff.trans ?_⟩
      have hredraw : redraw = true := by simpa [hnone] using hpending
      simp [DrawsWell, hvisible, hidle, hconfig, hredraw, Except.toOption]
    · refine ⟨hasked, ?_⟩
      rw [hasked.paced_iff]
      have hgraphics := h.graphics
      refine ⟨fun _ hredraw hvisible hconfig hidle => ?_, fun _ => ⟨hrenders, ?_⟩⟩
      · have htrue : redraw = true := by simpa [Except.toOption] using hredraw
        simp [htrue, hvisible, hidle, hgraphics, hconfig] at hdraws
      · intro hvisible hconfig hidle
        dsimp only at hvisible hconfig hidle ⊢
        simpa [hvisible, hidle, hgraphics, hconfig] using hdraws

lemma takeOver_spec (h : Coherent runtime) (hpaced : Paced runtime) (config : SurfaceConfig)
    (answers : Configuring) :
    Coherent (runtime.takeOver config answers).1 ∧
      (Paced (runtime.takeOver config answers).1 ↔
        (runtime.visible = true → runtime.framePending = false →
          if answers.configured.isOk then answers.drawing.render.isOk = true
          else runtime.redrawPending = false)) := by
  obtain ⟨hrenders, -⟩ := h.paced_iff.mp hpaced
  unfold Runtime.takeOver
  cases answers.configured with
  | error error =>
    have htaken : Coherent { runtime with
        graphics := some (config.width, config.height)
        config := some config } := ⟨h.counted, rfl, fun _ => rfl⟩
    refine ⟨htaken, ?_⟩
    rw [htaken.paced_iff]
    exact ⟨fun ⟨_, hd⟩ hvisible hidle => hd hvisible rfl hidle,
      fun hd => ⟨hrenders, fun hvisible _ hidle => hd hvisible hidle⟩⟩
  | ok =>
    have htaken : Coherent { runtime with
        graphics := some (config.width, config.height)
        config := some config
        redrawPending := true } := ⟨h.counted, rfl, fun _ => rfl⟩
    dsimp only
    by_cases hvisible : runtime.visible = true
    · rw [if_pos hvisible]
      obtain ⟨hcoherent, hiff⟩ := renderAndCommit_spec htaken rfl hrenders answers.drawing
      refine ⟨hcoherent, hiff.trans ?_⟩
      simp [DrawsWell, hvisible, Except.isOk, Except.toBool]
    · rw [if_neg hvisible]
      refine ⟨htaken, ?_⟩
      rw [htaken.paced_iff]
      exact iff_of_true ⟨hrenders, fun hshown => absurd hshown hvisible⟩
        fun hshown => absurd hshown hvisible

lemma configure_spec (h : Coherent runtime) (hpaced : Paced runtime) (config : SurfaceConfig)
    (answers : Configuring) :
    Coherent (runtime.configure config answers).1 ∧
      (Paced (runtime.configure config answers).1 ↔
        KeepsPace runtime (.configure config answers)) := by
  have hreached : config.width ≠ 0 → config.height ≠ 0 → answers.flush.isOk = true →
      (runtime.config.isSome = true ∨ answers.newGraphics.isOk = true) →
        (KeepsPace runtime (.configure config answers) ↔
          (runtime.visible = true → runtime.framePending = false →
            if answers.configured.isOk then answers.drawing.render.isOk = true
            else runtime.redrawPending = false)) :=
    fun hw hh hf hg => ⟨fun hall => hall hw hh hf hg, fun hall _ _ _ _ => hall⟩
  have htake := takeOver_spec h hpaced config answers
  unfold Runtime.configure
  split_ifs with hempty
  · refine ⟨h, iff_of_true hpaced fun hw hh => ?_⟩
    rcases hempty with hw' | hh'
    · exact absurd hw' hw
    · exact absurd hh' hh
  obtain ⟨hw, hh⟩ := not_or.mp hempty
  cases hflush : answers.flush with
  | error error =>
    refine ⟨h, iff_of_true hpaced fun _ _ hok => ?_⟩
    simp [hflush, Except.isOk, Except.toBool] at hok
  | ok =>
    have hok : answers.flush.isOk = true := by rw [hflush]; rfl
    cases hgraphics : runtime.graphics with
    | some size =>
      have hconfig : runtime.config.isSome = true := by simpa [hgraphics] using h.graphics.symm
      exact ⟨htake.1, htake.2.trans (hreached hw hh hok (Or.inl hconfig)).symm⟩
    | none =>
      have hconfig : runtime.config.isSome = false := by simpa [hgraphics] using h.graphics.symm
      cases hnew : answers.newGraphics with
      | error error =>
        refine ⟨h, iff_of_true hpaced fun _ _ _ hsome => ?_⟩
        simp [hconfig, hnew, Except.isOk, Except.toBool] at hsome
      | ok =>
        have hmade : answers.newGraphics.isOk = true := by rw [hnew]; rfl
        exact ⟨htake.1, htake.2.trans (hreached hw hh hok (Or.inr hmade)).symm⟩

lemma visibility_spec (h : Coherent runtime) (hpaced : Paced runtime) (visible : Bool)
    (redraw : Except String Bool) (drawing : Drawing) :
    Coherent (runtime.visibility visible redraw drawing).1 ∧
      (Paced (runtime.visibility visible redraw drawing).1 ↔
        KeepsPace runtime (.visibility visible redraw drawing)) := by
  obtain ⟨hrenders, -⟩ := h.paced_iff.mp hpaced
  unfold Runtime.visibility
  cases redraw with
  | error error =>
    have hshown : Coherent { runtime with visible := visible } :=
      ⟨h.counted, h.graphics, h.configured⟩
    refine ⟨hshown, ?_⟩
    rw [hshown.paced_iff]
    cases visible with
    | false => simpa [KeepsPace, Except.isOk, Except.toBool] using hrenders
    | true =>
      exact ⟨fun ⟨_, hd⟩ hconfig hidle => hd rfl hconfig hidle,
        fun hd => ⟨hrenders, fun _ hconfig hidle => hd hconfig hidle⟩⟩
  | ok redraw =>
    have hasked : Coherent { runtime with
        visible := visible
        redrawPending :=
          runtime.redrawPending || redraw || (visible && runtime.lastFlow == .animate) } :=
      ⟨h.counted, h.graphics, h.configured⟩
    have hgraphics := h.graphics
    dsimp only
    split_ifs with hdraws
    · simp only [Bool.and_eq_true, Bool.not_eq_true'] at hdraws
      obtain ⟨⟨hpending, hidle⟩, hsome⟩ := hdraws
      have hconfig : runtime.config.isSome = true := h.graphics.symm.trans hsome
      obtain ⟨hcoherent, hiff⟩ := renderAndCommit_spec hasked hconfig hrenders drawing
      refine ⟨hcoherent, hiff.trans ?_⟩
      cases visible with
      | false =>
        -- the defect: the surface is hidden and draws
        have hasks : runtime.redrawPending = true ∨ redraw = true := by simpa using hpending
        simp only [DrawsWell, KeepsPace, hconfig, hidle, Bool.false_eq_true, false_and,
          false_iff, Except.toOption]
        intro hkeeps
        obtain ⟨hnone, hno⟩ := hkeeps trivial trivial rfl
        rcases hasks with hyes | hyes
        · simp [hyes] at hnone
        · simp [hyes] at hno
      | true =>
        have hasks : runtime.redrawPending = true ∨ redraw = true ∨
            runtime.lastFlow = .animate := by
          simpa [or_assoc] using hpending
        simp only [DrawsWell, KeepsPace, hconfig, hidle, hpending, Except.isOk, Except.toBool,
          Except.toOption, Option.some.injEq, hasks, true_and, true_imp_iff, if_true]
    · -- nothing is drawn: nothing is pending, or the surface is not configured or waits
      have hnone : runtime.config.isSome = true → runtime.framePending = false →
          runtime.redrawPending = false ∧ redraw = false ∧
            (visible && runtime.lastFlow == .animate) = false := by
        intro hconfig hidle
        simpa [hgraphics, hconfig, hidle, and_assoc] using hdraws
      have hpaced' : Paced { runtime with
          visible := visible
          redrawPending :=
            runtime.redrawPending || redraw || (visible && runtime.lastFlow == .animate) } := by
        refine hasked.paced_iff.mpr ⟨hrenders, fun _ hconfig hidle => ?_⟩
        obtain ⟨h₁, h₂, h₃⟩ := hnone hconfig hidle
        simp [h₁, h₂, h₃]
      refine ⟨hasked, iff_of_true hpaced' ?_⟩
      cases visible with
      | false =>
        intro hconfig hidle _
        obtain ⟨h₁, h₂, -⟩ := hnone hconfig hidle
        exact ⟨h₁, by rw [h₂]; rfl⟩
      | true =>
        intro hconfig hidle
        obtain ⟨h₁, h₂, h₃⟩ := hnone hconfig hidle
        have hstill : runtime.lastFlow ≠ .animate := by simpa using h₃
        simp [h₁, h₂, hstill, Except.toOption, Except.isOk, Except.toBool]

lemma frameDone_spec (h : Coherent runtime) (hpaced : Paced runtime)
    (hdelivered : 0 < runtime.callbacks) (drawing : Drawing) :
    Coherent (runtime.frameDone drawing).1 ∧
      (Paced (runtime.frameDone drawing).1 ↔ KeepsPace runtime (.frameDone drawing)) := by
  obtain ⟨hrenders, -⟩ := h.paced_iff.mp hpaced
  have hwaits : runtime.framePending = true := by
    by_contra hidle
    simp [h.counted, hidle] at hdelivered
  have hconfig := h.configured hwaits
  have hone : runtime.callbacks = 1 := by simp [h.counted, hwaits]
  have hdone : Coherent { runtime with
      framePending := false
      callbacks := runtime.callbacks - 1 } :=
    ⟨by simp [hone], h.graphics, by simp⟩
  unfold Runtime.frameDone KeepsPace
  dsimp only
  split_ifs with hdraws
  · simp only [Bool.and_eq_true] at hdraws
    obtain ⟨hcoherent, hiff⟩ := renderAndCommit_spec hdone hconfig hrenders drawing
    refine ⟨hcoherent, hiff.trans ?_⟩
    simp [DrawsWell, hdraws.1]
  · refine ⟨hdone, ?_⟩
    rw [hdone.paced_iff]
    refine iff_of_true ⟨hrenders, fun hvisible _ _ => ?_⟩ fun hvisible hpending => ?_
    · dsimp only at hvisible ⊢
      simp only [hvisible, Bool.true_and, Bool.or_eq_true, not_or, Bool.not_eq_true] at hdraws
      exact hdraws.2
    · simp [hvisible, hpending] at hdraws

lemma fail_iff (error : String) :
    (Coherent (runtime.fail error) ↔ Coherent runtime) ∧
      (Paced (runtime.fail error) ↔ Paced runtime) :=
  ⟨⟨fun ⟨hc, hg, hf⟩ => ⟨hc, hg, hf⟩, fun ⟨hc, hg, hf⟩ => ⟨hc, hg, hf⟩⟩,
    ⟨fun ⟨hv, hd, hs⟩ => ⟨hv, hd, hs⟩, fun ⟨hv, hd, hs⟩ => ⟨hv, hd, hs⟩⟩⟩

/-- What one event keeps, and exactly when it keeps the pace. -/
lemma step_spec (h : Coherent runtime) (hpaced : Paced runtime) {event : Event}
    (hdelivered : Delivered runtime event) :
    Coherent (runtime.step event) ∧ (Paced (runtime.step event) ↔ KeepsPace runtime event) := by
  have hhandle : Coherent (runtime.handle event).1 ∧
      (Paced (runtime.handle event).1 ↔ KeepsPace runtime event) := by
    cases event with
    | configure config answers => exact configure_spec h hpaced config answers
    | visibility visible redraw drawing => exact visibility_spec h hpaced visible redraw drawing
    | touch redraw drawing => exact redrawAfter_spec h hpaced redraw drawing
    | externalEvent redraw drawing => exact redrawAfter_spec h hpaced redraw drawing
    | appearanceDone snapshot redraw drawing =>
      cases snapshot with
      | error error =>
        exact ⟨h, iff_of_true hpaced fun hok => by simp [Except.isOk, Except.toBool] at hok⟩
      | ok =>
        obtain ⟨hcoherent, hiff⟩ := redrawAfter_spec h hpaced redraw drawing
        exact ⟨hcoherent, hiff.trans ⟨fun hasked _ => hasked, fun hasked => hasked rfl⟩⟩
    | frameDone drawing => exact frameDone_spec h hpaced hdelivered drawing
  unfold Runtime.step
  split
  · rename_i after value heq
    rw [heq] at hhandle
    exact hhandle
  · rename_i after error heq
    rw [heq] at hhandle
    obtain ⟨hkeeps, hiff⟩ := @fail_iff after error
    exact ⟨hkeeps.mpr hhandle.1, hiff.trans hhandle.2⟩

lemma coherent_new : Coherent .new := ⟨rfl, rfl, by simp [Runtime.new]⟩

lemma paced_new : Paced .new :=
  ⟨by simp [Runtime.new], by simp [Runtime.new], by simp [Runtime.new]⟩

/-- A run in which only requested frame callbacks come is paced after every event exactly if
every event keeps the pace. -/
theorem paced_iff_keepsPace (events : List Event)
    (hdelivered : Meets Runtime.step Delivered .new events) :
    (∀ front, front <+: events → Paced (run Runtime.step .new front)) ↔
      Meets Runtime.step KeepsPace .new events :=
  forall_prefix_iff_meets_of_invariant (P := fun runtime => Coherent runtime ∧ Paced runtime)
    (fun _ h => h.2)
    (fun _ _ h hd hkeeps =>
      ⟨(step_spec h.1 h.2 hd).1, (step_spec h.1 h.2 hd).2.mpr hkeeps⟩)
    (fun _ _ h hd hpaced => (step_spec h.1 h.2 hd).2.mp hpaced) ⟨coherent_new, paced_new⟩
    hdelivered

/-- A frame that is drawn without failures. -/
def plainDrawing : Drawing := ⟨.ok .wait, .ok (), .ok ()⟩

/-- The first configuration, without failures. -/
def plainConfigure : Event := .configure ⟨200, 60, 60000⟩ ⟨.ok (), .ok (), .ok (), plainDrawing⟩

/-- The surface is configured, hidden without a redraw, and shown with one. -/
theorem paced_iff_keepsPace_shown :
    Paced (run Runtime.step .new [plainConfigure, .visibility false (.ok false) plainDrawing,
      .visibility true (.ok true) plainDrawing]) := by
  have hkeeps : Meets Runtime.step KeepsPace .new [plainConfigure,
      .visibility false (.ok false) plainDrawing, .visibility true (.ok true) plainDrawing] :=
    ⟨fun _ _ _ _ _ _ => rfl, fun _ _ _ => ⟨rfl, rfl⟩, fun _ _ _ => rfl, trivial⟩
  exact (paced_iff_keepsPace _ (by simp [Meets, Delivered, plainConfigure])).mpr hkeeps _
    List.prefix_rfl

/-- The application asks for a redraw when it learns that the surface is hidden, and draws at
once. -/
theorem drawn_while_hidden :
    ¬∀ events : List Event, Meets Runtime.step Delivered .new events →
      ∀ front, front <+: events → Paced (run Runtime.step .new front) := by
  intro hclaim
  have hpaced := hclaim [plainConfigure, .visibility false (.ok true) plainDrawing]
    (by simp [Meets, Delivered, plainConfigure]) _ List.prefix_rfl
  have hrenders : (run Runtime.step .new
      [plainConfigure, .visibility false (.ok true) plainDrawing]).renders = [true, false] := rfl
  have hhidden := hpaced.visible false (by rw [hrenders]; decide)
  exact absurd hhidden (by decide)

end TouchBar.Client
