import TouchBar.Lib.Runs
import TouchBar.Model.ControllerRuns
import TouchBar.Session.LiveProfiles

/-!
# Failed calls on live profiles

The methods write the selection and the items before they compose, and do not restore
them when the composition fails.  This file says for each method exactly when a call
that returns an error leaves the state as it was.
-/

namespace TouchBar.Session

open TouchBar.Rust TouchBar.Lib TouchBar.Layout TouchBar.Model TouchBar.Config Outcome

namespace LiveProfiles

variable {s : LiveProfiles} {e : ConfigError}

/-- The state after some calls on new live profiles. -/
def after (document : ProfileDocument) (context : ContextSnapshot) (calls : List Call) :
    LiveProfiles :=
  run (fun s k => (s.call k).2) (new document context) calls

/-! ## What a method does not touch -/

/-- All but the controller and what is shown is the same. -/
structure SameInputs (s s' : LiveProfiles) : Prop where
  document : s'.document = s.document
  context : s'.context = s.context
  connected : s'.connected = s.connected
  pendingConnected : s'.pendingConnected = s.pendingConnected
  pendingDocument : s'.pendingDocument = s.pendingDocument
  capturedContacts : s'.capturedContacts = s.capturedContacts
  manualProfile : s'.manualProfile = s.manualProfile

lemma SameInputs.refl (s : LiveProfiles) : SameInputs s s := ⟨rfl, rfl, rfl, rfl, rfl, rfl, rfl⟩

lemma sameInputs_publish (raw : Option ProfileCompositionSnapshot) :
    SameInputs s (s.publish raw).2 := by
  cases raw <;> exact ⟨rfl, rfl, rfl, rfl, rfl, rfl, rfl⟩

lemma sameInputs_command (k : ControllerCommand) : SameInputs s (s.command k).2 := by
  rw [command]
  split
  · exact .refl s
  · split
    · obtain ⟨h₁, h₂, h₃, h₄, h₅, h₆, h₇⟩ := sameInputs_publish (s := { s with controller := _ }) _
      exact ⟨h₁, h₂, h₃, h₄, h₅, h₆, h₇⟩
    · exact ⟨rfl, rfl, rfl, rfl, rfl, rfl, rfl⟩
    · exact ⟨rfl, rfl, rfl, rfl, rfl, rfl, rfl⟩

lemma sameInputs_install (c : CompositionController) : SameInputs s (s.install c).2 := by
  have hpublish : ∀ c' : CompositionController,
      SameInputs s ({ s with controller := some c' }.publish (some c'.current)).2 := fun c' =>
    ⟨rfl, rfl, rfl, rfl, rfl, rfl, rfl⟩
  rw [install]
  split
  · exact hpublish c
  · split
    · exact hpublish _
    · exact .refl s
    · exact .refl s

lemma sameInputs_rebuild (connected : Connected) :
    SameInputs { s with connected := connected, pendingConnected := none }
      (s.rebuild connected).2 := by
  simp only [rebuild]
  split_ifs
  · exact ⟨rfl, rfl, rfl, rfl, rfl, rfl, rfl⟩
  · split
    · exact sameInputs_install _
    · exact .refl _
    · exact .refl _

/-! ## What a failed part leaves behind -/

lemma publish_ne_err (raw : Option ProfileCompositionSnapshot) : (s.publish raw).1 ≠ err e := by
  cases raw <;> simp [publish]

/-- A failed command leaves everything as it was. -/
lemma command_err {k : ControllerCommand} (h : (s.command k).1 = err e) : (s.command k).2 = s := by
  rw [command] at h ⊢
  cases hc : s.controller with
  | none => simp [hc] at h
  | some c =>
    rw [hc] at h
    rcases c.apply_cases k with ⟨e', happly⟩ | ⟨-, happly⟩ | ⟨changed, candidate, -, -, happly⟩
    · simp only [happly]
      rw [← hc]
    · simp only [happly] at h
      exact absurd h (publish_ne_err _)
    · simp only [happly] at h
      exact absurd h (publish_ne_err _)

lemma install_err {c : CompositionController} (h : (s.install c).1 = err e) :
    (s.install c).2 = s := by
  rw [install] at h ⊢
  cases hm : s.manualProfile with
  | none =>
    rw [hm] at h
    exact absurd h (publish_ne_err _)
  | some profile =>
    rw [hm] at h
    cases happly : c.apply (.selectProfile profile) with
    | mk result c' =>
      cases result with
      | ok raw =>
        simp only [happly] at h
        exact absurd h (publish_ne_err _)
      | err e' =>
        simp only [happly]
      | panic =>
        simp only [happly]

/-- A failed rebuild has written the items. -/
lemma rebuild_err {connected : Connected} (h : (s.rebuild connected).1 = err e) :
    (s.rebuild connected).2 = { s with connected := connected, pendingConnected := none } := by
  simp only [rebuild] at h ⊢
  split_ifs at h ⊢ with hreq
  cases hb : s.document.build connected s.context with
  | ok built =>
    simp only [hb] at h
    exact install_err h
  | err e' => rfl
  | panic => rfl

/-! ## Reachable states -/

/-- What holds after any calls, whatever they returned. -/
structure Quiet (s : LiveProfiles) : Prop where
  /-- Items wait only during a capture. -/
  pending_captured : s.capturedContacts.isEmpty = true → s.pendingConnected = none
  /-- The manual profile is one of the document. -/
  manual_known : ∀ p, s.manualProfile = some p → p.value ∈ s.document.profileIds

lemma keepManual_known {document : ProfileDocument} {p : ProfileId}
    (h : s.keepManual document = some p) : p.value ∈ document.profileIds := by
  obtain ⟨-, hp⟩ := Option.filter_eq_some_iff.mp h
  simpa using hp

lemma keepManual_eq_self (h : s.Quiet) : s.keepManual s.document = s.manualProfile := by
  rw [keepManual]
  cases hm : s.manualProfile with
  | none => rfl
  | some p =>
    have hp := h.manual_known p hm
    simpa using hp

lemma SameInputs.quiet {s' : LiveProfiles} (hs : SameInputs s s') (h : s.Quiet) : s'.Quiet := by
  refine ⟨fun hcap => ?_, fun p hp => ?_⟩
  · rw [hs.pendingConnected]
    exact h.pending_captured (hs.capturedContacts ▸ hcap)
  · rw [hs.document]
    exact h.manual_known p (hs.manualProfile ▸ hp)

lemma Quiet.rebuild (connected : Connected)
    (h : ∀ p, s.manualProfile = some p → p.value ∈ s.document.profileIds) :
    (s.rebuild connected).2.Quiet :=
  (sameInputs_rebuild connected).quiet ⟨fun _ => rfl, h⟩

lemma Quiet.settle (h : ∀ p, s.manualProfile = some p → p.value ∈ s.document.profileIds)
    (snapshot : Option ProfileCompositionSnapshot) : (s.settle snapshot).2.Quiet := by
  have hmanual : ∀ p, s.promoteDocument.manualProfile = some p →
      p.value ∈ s.promoteDocument.document.profileIds := by
    rw [promoteDocument]
    split
    · exact h
    · exact fun _ => keepManual_known
  rw [LiveProfiles.settle]
  split
  · exact Quiet.rebuild _ hmanual
  · next hnone => exact (sameInputs_publish _).quiet ⟨fun _ => hnone, hmanual⟩

lemma Quiet.captureEnded (h : s.Quiet) (contact : ℕ) : (s.captureEnded contact).2.Quiet := by
  rw [LiveProfiles.captureEnded]
  split_ifs with hempty
  · exact Quiet.settle (s := s.release contact) h.manual_known _
  · exact (sameInputs_publish _).quiet ⟨fun hcap => absurd hcap hempty, h.manual_known⟩

lemma Quiet.acceptDocument (h : s.Quiet) (document : ProfileDocument) (relevant : Connected) :
    (s.acceptDocument document relevant).2.Quiet := by
  rw [LiveProfiles.acceptDocument]
  split_ifs with hcap
  · refine ⟨fun hempty => ?_, h.manual_known⟩
    simp_all
  · exact Quiet.rebuild _ fun _ => keepManual_known

/-- Every call keeps the invariant, also when it fails. -/
lemma Quiet.call (h : s.Quiet) (k : Call) : (s.call k).2.Quiet := by
  cases k with
  | tryInitialize connected =>
    simp only [LiveProfiles.call, LiveProfiles.tryInitialize]
    split_ifs with hsame hcap
    · exact h
    · refine ⟨fun hempty => ?_, h.manual_known⟩
      simp_all
    · exact Quiet.rebuild _ h.manual_known
  | replaceDocument document connected =>
    simp only [LiveProfiles.call, LiveProfiles.replaceDocument]
    split
    · exact h
    · exact h
    · split_ifs
      · split
        · exact h
        · exact h
        · exact h.acceptDocument _ _
      · exact h.acceptDocument _ _
  | selectProfile profile =>
    simp only [LiveProfiles.call, LiveProfiles.selectProfile]
    split_ifs with hknown
    · exact h
    · refine (sameInputs_command _).quiet ⟨h.pending_captured, ?_⟩
      rintro p ⟨⟩
      simpa using hknown
  | useAutomaticProfile =>
    exact (sameInputs_command _).quiet ⟨h.pending_captured, by simp⟩
  | setFact key value =>
    exact (sameInputs_command _).quiet ⟨h.pending_captured, h.manual_known⟩
  | captureStarted contact =>
    refine ⟨fun hempty => ?_, h.manual_known⟩
    have hmem : contact ∉ s.capturedContacts.insert contact := BTreeSet.isEmpty_iff.mp hempty _
    simp at hmem
  | captureEnded contact => exact h.captureEnded contact

lemma quiet_after (document : ProfileDocument) (context : ContextSnapshot) (calls : List Call) :
    (after document context calls).Quiet :=
  run_invariant (fun _ k h => h.call k) ⟨fun _ => rfl, by simp [new]⟩ calls

/-! ## When a failed call leaves no trace -/

lemma selectProfile_err (profile : ProfileId) (h : (s.selectProfile profile).1 = err e) :
    (s.selectProfile profile).2 = s ↔
      profile.value ∉ s.document.profileIds ∨ s.manualProfile = some profile := by
  have hknown : (s.document.profileIds.any fun id => id = profile.value) = true ↔
      profile.value ∈ s.document.profileIds := by simp
  rw [selectProfile] at h ⊢
  split_ifs at h ⊢ with hmem
  · have hno : profile.value ∉ s.document.profileIds := by
      intro hin
      simp [hknown.mpr hin] at hmem
    exact ⟨fun _ => .inl hno, fun _ => rfl⟩
  · -- the profile is known, and the selection has been written
    have hyes : profile.value ∈ s.document.profileIds := by
      rw [← hknown]
      simpa using hmem
    rw [command_err h]
    constructor
    · intro heq
      exact .inr (congrArg LiveProfiles.manualProfile heq).symm
    · rintro (hno | hm)
      · exact absurd hyes hno
      · rw [← hm]

lemma useAutomaticProfile_err (h : s.useAutomaticProfile.1 = err e) :
    s.useAutomaticProfile.2 = s ↔ s.manualProfile = none := by
  rw [useAutomaticProfile] at h ⊢
  rw [command_err h]
  constructor
  · intro heq
    exact (congrArg LiveProfiles.manualProfile heq).symm
  · intro hm
    rw [← hm]

/-- The items are written before a rebuild can fail, and they differ from the old ones. -/
lemma tryInitialize_err (hs : s.Quiet) (connected : Connected)
    (h : (s.tryInitialize connected).1 = err e) : (s.tryInitialize connected).2 ≠ s := by
  simp only [tryInitialize] at h ⊢
  split_ifs at h ⊢ with hsame hcap
  rw [rebuild_err h]
  intro heq
  have hconn : s.document.relevant connected = s.connected :=
    congrArg LiveProfiles.connected heq
  have hnone := hs.pending_captured (by simpa using hcap)
  exact hsame (by simp [hconn, hnone])

lemma acceptDocument_err (hs : s.Quiet) {document : ProfileDocument} {relevant : Connected}
    (h : (s.acceptDocument document relevant).1 = err e) :
    (s.acceptDocument document relevant).2 = s ↔
      document = s.document ∧ relevant = s.connected := by
  rw [acceptDocument] at h ⊢
  split_ifs at h ⊢ with hcap
  rw [rebuild_err h]
  constructor
  · intro heq
    exact ⟨congrArg LiveProfiles.document heq, congrArg LiveProfiles.connected heq⟩
  · rintro ⟨rfl, rfl⟩
    rw [keepManual_eq_self hs, ← hs.pending_captured (by simpa using hcap)]

/-- The first two checks fail before anything is written. -/
lemma replaceDocument_err (hs : s.Quiet) (document : ProfileDocument) (connected : Connected)
    (h : (s.replaceDocument document connected).1 = err e) :
    (s.replaceDocument document connected).2 = s ↔
      document.validate = err e ∨
      document.hasRequired (document.relevant connected) = true ∧
        document.build (document.relevant connected) s.context = err e ∨
      document = s.document ∧ document.relevant connected = s.connected := by
  simp only [replaceDocument] at h ⊢
  cases hv : document.validate with
  | err e' =>
    rw [hv] at h
    simp only [err.injEq] at h
    simp [h]
  | panic => simp [hv] at h
  | ok u =>
    rw [hv] at h
    simp only [reduceCtorEq, false_or] at h ⊢
    split_ifs at h ⊢ with hreq
    · cases hb : document.build (document.relevant connected) s.context with
      | err e' =>
        rw [hb] at h
        simp only [err.injEq] at h
        simp [h, hreq]
      | panic => simp [hb] at h
      | ok built =>
        rw [hb] at h
        simp only [reduceCtorEq, and_false, false_or] at h ⊢
        exact acceptDocument_err hs h
    · simp only [hreq, Bool.false_eq_true, false_and, false_or]
      exact acceptDocument_err hs h

/-- In every reachable state, a call that returns an error leaves the state as it was
exactly in these cases. -/
theorem err_unchanged_iff (document : ProfileDocument) (context : ContextSnapshot)
    (calls : List Call) :
    (∀ profile e, ((after document context calls).selectProfile profile).1 = err e →
      (((after document context calls).selectProfile profile).2 = after document context calls ↔
        profile.value ∉ (after document context calls).document.profileIds ∨
          (after document context calls).manualProfile = some profile)) ∧
    (∀ e, (after document context calls).useAutomaticProfile.1 = err e →
      ((after document context calls).useAutomaticProfile.2 = after document context calls ↔
        (after document context calls).manualProfile = none)) ∧
    (∀ connected e, ((after document context calls).tryInitialize connected).1 = err e →
      ((after document context calls).tryInitialize connected).2 ≠
        after document context calls) ∧
    ∀ next connected e,
      ((after document context calls).replaceDocument next connected).1 = err e →
      (((after document context calls).replaceDocument next connected).2 =
          after document context calls ↔
        next.validate = err e ∨
        next.hasRequired (next.relevant connected) = true ∧
          next.build (next.relevant connected) (after document context calls).context = err e ∨
        next = (after document context calls).document ∧
          next.relevant connected = (after document context calls).connected) := by
  have hs := quiet_after document context calls
  refine ⟨fun profile e h => selectProfile_err profile h, fun e h => useAutomaticProfile_err h,
    fun connected e h => tryInitialize_err hs connected h,
    fun next connected e h => replaceDocument_err hs next connected h⟩

/-! ## A document with two profiles -/

def clockItem : ProfileItemConfig := ⟨"demo", "clock", false⟩

/-- The profile "twice" shows the clock in two slots, which no composition allows. -/
def clockDocument : ProfileDocument where
  version := 1
  fallback := "once"
  contributions :=
    [⟨"left.clock", [clockItem], .global, 0, .always⟩,
      ⟨"right.clock", [clockItem], .global, 0, .always⟩]
  profiles :=
    [⟨"once", [.slot "left" .fixed ["left.clock"]], none⟩,
      ⟨"twice", [.slot "left" .fixed ["left.clock"], .slot "right" .fixed ["right.clock"]], none⟩]
  rules := []
  regions := []

def clockConnected : Connected := .ofList [("demo#clock", .new "demo#clock" 40 80 600)]

def clockProfiles : LiveProfiles :=
  after clockDocument ⟨1, .empty⟩ [.tryInitialize clockConnected]

lemma clockProfiles_select : (clockProfiles.selectProfile ⟨"twice"⟩).1 =
    err (.profile (.duplicateComposedItem ⟨"demo#clock"⟩)) := by
  have heval : (clockProfiles.selectProfile ⟨"twice"⟩).1.error =
      some (.profile (.duplicateComposedItem ⟨"demo#clock"⟩)) := by
    decide
  exact error_eq_some.mp heval

/-- The error comes after the selection was recorded. -/
theorem err_unchanged_iff_clockProfiles :
    ¬ (clockProfiles.selectProfile ⟨"twice"⟩).2 = clockProfiles := by
  rw [clockProfiles, ((err_unchanged_iff clockDocument ⟨1, .empty⟩
    [.tryInitialize clockConnected]).1 ⟨"twice"⟩ _ clockProfiles_select)]
  decide

theorem failed_selection_is_recorded :
    (clockProfiles.selectProfile ⟨"twice"⟩).1 =
        err (.profile (.duplicateComposedItem ⟨"demo#clock"⟩)) ∧
      clockProfiles.manualProfile = none ∧
      (clockProfiles.selectProfile ⟨"twice"⟩).2.manualProfile = some ⟨"twice"⟩ :=
  ⟨clockProfiles_select, by decide, by decide⟩

end LiveProfiles

end TouchBar.Session
