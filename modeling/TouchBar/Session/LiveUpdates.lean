import TouchBar.Session.LiveErrors

/-!
# Deferred updates

Along a run of calls that all succeed, what was asked for last is what is live once no
contact is captured, as long as two things do not happen: while a document waits, new
items are filtered by the document that is still live, and a first set of items that is
empty for a document without required items is taken for no change.  The invariant says
this of the live part and the two waiting slots together.
-/

namespace TouchBar.Session

open TouchBar.Rust TouchBar.Lib TouchBar.Layout TouchBar.Model TouchBar.Config Outcome

namespace LiveProfiles

variable {s : LiveProfiles} {c : CompositionController}

/-! ## What is live -/

/-- The controller was built from the live document and items and follows the context, the
manual profile and the captures. -/
structure Follows (s : LiveProfiles) (c : CompositionController) : Prop where
  assembled : s.document.assemble s.connected = ok (c.catalog, c.registry)
  selector : c.selector = s.document.selector
  modes : c.modes = .empty
  context : c.context = s.context
  manual : c.manualProfile = s.manualProfile
  captured : c.capturedContacts = s.capturedContacts
  inv : c.Inv

/-- The controller follows the state, and what it shows is what is published. -/
structure Shows (s : LiveProfiles) (c : CompositionController) : Prop extends Follows s c where
  shown : s.current.map ProfileCompositionSnapshot.composition = some c.current.composition

lemma SameInputs.follows {s' : LiveProfiles} (hs : SameInputs s s') (h : s.Follows c) :
    s'.Follows c where
  assembled := by rw [hs.document, hs.connected, h.assembled]
  selector := by rw [hs.document, h.selector]
  modes := h.modes
  context := h.context.trans hs.context.symm
  manual := h.manual.trans hs.manualProfile.symm
  captured := h.captured.trans hs.capturedContacts.symm
  inv := h.inv

/-- A controller shows the live state, or required items are missing and nothing is
shown. -/
def Built (s : LiveProfiles) : Prop :=
  (s.controller = none ∧ s.current = none ∧ s.document.hasRequired s.connected = false) ∨
    ∃ c, s.controller = some c ∧ s.Shows c

/-- Without captures the published composition is the one that the document describes. -/
lemma Shows.composition (h : s.Shows c) (hcap : s.capturedContacts.isEmpty = true) :
    ∃ snapshot, s.current = some snapshot ∧
      s.document.compositionOf s.connected s.context s.manualProfile =
        ok snapshot.composition := by
  have hpending : c.pending = none := h.inv.pending_eq_none (h.captured ▸ hcap)
  have hcompose := h.inv.latest_eq
  rw [CompositionController.effectiveProfile_of_modes_empty h.modes, h.manual, h.selector,
    h.context, CompositionController.latest, hpending, Option.getD_none] at hcompose
  obtain ⟨snapshot, hcurrent, hshown⟩ := Option.map_eq_some_iff.mp h.shown
  refine ⟨snapshot, hcurrent, ?_⟩
  rw [ProfileDocument.compositionOf, h.assembled, ok_bind]
  simp only
  rw [hcompose, hshown]
  rfl

/-- Publishing what the controller shows. -/
lemma current_publish (raw : Option ProfileCompositionSnapshot) :
    (s.publish raw).2.current.map ProfileCompositionSnapshot.composition =
      raw.elim (s.current.map ProfileCompositionSnapshot.composition)
        fun snapshot => some snapshot.composition := by
  cases raw <;> rfl

lemma controller_publish (raw : Option ProfileCompositionSnapshot) :
    (s.publish raw).2.controller = s.controller := by
  cases raw <;> rfl

/-- A controller that follows the state shows it after its result was published. -/
lemma Follows.publish {raw : Option ProfileCompositionSnapshot} (h : s.Follows c)
    (hcurrent : raw = none →
      s.current.map ProfileCompositionSnapshot.composition = some c.current.composition)
    (hraw : ∀ snapshot, raw = some snapshot → c.current = snapshot) :
    (s.publish raw).2.Shows c := by
  refine ⟨(sameInputs_publish raw).follows h, ?_⟩
  rw [current_publish]
  cases raw with
  | none => exact hcurrent rfl
  | some snapshot => rw [hraw snapshot rfl, Option.elim_some]

/-- A command that brings the controller to a new context and manual profile. -/
lemma Shows.command {k : ControllerCommand} {raw : Option ProfileCompositionSnapshot}
    (h : s.Shows c) (hc : s.controller = some c) (context : ContextSnapshot)
    (manual : Option ProfileId)
    (hk : ∀ changed b, c.change k = ok (changed, b) → changed.context = context ∧
      changed.manualProfile = manual ∧ changed.modes = c.modes)
    (hok : (({ s with context := context, manualProfile := manual } : LiveProfiles).command
      k).1 = ok raw) :
    (({ s with context := context, manualProfile := manual } : LiveProfiles).command
      k).2.Built := by
  rw [LiveProfiles.command] at hok ⊢
  simp only [hc] at hok ⊢
  cases happly : c.apply k with
  | mk result c' =>
    rw [happly] at hok
    cases result with
    | err e => cases hok
    | panic => cases hok
    | ok raw' =>
      simp only
      obtain ⟨⟨changed, b, hchange, hctx, hman, hmode⟩, hcat, hreg, hsel, hcap, hinv', hcur⟩ :=
        CompositionController.apply_eq_ok happly h.inv
      obtain ⟨hctx', hman', hmode'⟩ := hk changed b hchange
      refine .inr ⟨c', controller_publish _, Follows.publish ?_ ?_ ?_⟩
      · exact ⟨by rw [hcat, hreg]; exact h.assembled, hsel.trans h.selector,
          (hmode.trans hmode').trans h.modes, hctx.trans hctx', hman.trans hman',
          hcap.trans h.captured, hinv'⟩
      · rintro rfl
        rw [hcur]
        exact h.shown
      · rintro snapshot rfl
        exact hcur

/-! ## Rebuilding -/

lemma built_install {built : BuiltProfile} {raw : Option ProfileCompositionSnapshot}
    (hcap : s.capturedContacts.isEmpty = true)
    (hbuild : s.document.build s.connected s.context = ok built)
    (hok : (s.install built.controller).1 = ok raw) :
    (s.install built.controller).2.Built := by
  obtain ⟨hassembled, hnew⟩ := ProfileDocument.build_eq_ok hbuild
  have hinv := CompositionController.inv_new hnew
  obtain ⟨hsel, hctx, hman, hmodes, hcaptured⟩ := CompositionController.new_eq_ok hnew
  have hempty : built.controller.capturedContacts = s.capturedContacts := by
    rw [hcaptured]
    exact (BTreeSet.eq_empty_of_isEmpty hcap).symm
  rw [install] at hok ⊢
  cases hm : s.manualProfile with
  | none =>
    refine .inr ⟨_, rfl, Follows.publish ?_ (by simp) (by simp)⟩
    exact ⟨hassembled, hsel, hmodes, hctx, hman, hempty, hinv⟩
  | some profile =>
    rw [hm] at hok
    cases happly : built.controller.apply (.selectProfile profile) with
    | mk result c' =>
      simp only [happly] at hok ⊢
      cases result with
      | err e => cases hok
      | panic => cases hok
      | ok raw' =>
        obtain ⟨⟨changed, b, hchange, hctx', hman', hmode'⟩, hcat, hreg, hsel', hcap', hinv', -⟩ :=
          CompositionController.apply_eq_ok happly hinv
        obtain rfl := CompositionController.change_selectProfile hchange
        refine .inr ⟨_, rfl, Follows.publish ?_ (by simp) (by simp)⟩
        exact ⟨by rw [hcat, hreg]; exact hassembled, hsel'.trans hsel, hmode'.trans hmodes,
          hctx'.trans hctx, hman', hcap'.trans hempty, hinv'⟩

/-- A rebuild that succeeds leaves the state built. -/
lemma built_rebuild {connected : Connected} {raw : Option ProfileCompositionSnapshot}
    (hcap : s.capturedContacts.isEmpty = true) (hok : (s.rebuild connected).1 = ok raw) :
    (s.rebuild connected).2.Built := by
  simp only [rebuild] at hok ⊢
  split_ifs at hok ⊢ with hreq
  · exact .inl ⟨rfl, rfl, by simpa using hreq⟩
  · cases hb : s.document.build connected s.context with
    | err e => simp [hb] at hok
    | panic => simp [hb] at hok
    | ok built =>
      simp only [hb] at hok ⊢
      exact built_install (s := { s with connected := connected, pendingConnected := none })
        hcap hb hok

/-! ## What was asked for -/

/-- The last document and the last set of items that callers supplied. -/
structure Requested where
  document : ProfileDocument
  connected : Option Connected

/-- A call that returned no error. -/
def Requested.next (r : Requested) : Call → Requested
  | .tryInitialize connected => { r with connected := some connected }
  | .replaceDocument document connected => ⟨document, some connected⟩
  | _ => r

/-- A call, with what was asked for so far. -/
def stepRequested (st : LiveProfiles × Requested) (k : Call) : LiveProfiles × Requested :=
  ((st.1.call k).2, st.2.next k)

/-- The call returns no error. -/
def Succeeds (st : LiveProfiles × Requested) (k : Call) : Prop := (st.1.call k).1.isOk = true

instance (st : LiveProfiles × Requested) (k : Call) : Decidable (Succeeds st k) :=
  inferInstanceAs (Decidable (_ = _))

/-- New items are filtered alike by the live and the waiting document, and are not taken for
no change before anything was built. -/
def Undisturbed (st : LiveProfiles × Requested) : Call → Prop
  | .tryInitialize connected =>
    (st.1.pendingDocument.all fun document =>
      st.1.document.relevant connected = document.relevant connected) = true ∧
    ¬ (st.1.controller.isNone = true ∧ st.1.pendingConnected.isNone = true ∧
      st.1.document.relevant connected = st.1.connected ∧
      st.1.document.hasRequired st.1.connected = true)
  | _ => True

instance (st : LiveProfiles × Requested) : ∀ k, Decidable (Undisturbed st k)
  | .tryInitialize _ => inferInstanceAs (Decidable (_ ∧ ¬ _))
  | .replaceDocument _ _ => .isTrue trivial
  | .selectProfile _ => .isTrue trivial
  | .useAutomaticProfile => .isTrue trivial
  | .setFact _ _ => .isTrue trivial
  | .captureStarted _ => .isTrue trivial
  | .captureEnded _ => .isTrue trivial

/-- Once no contact is captured, the live document is the one asked for, the items are
those asked for that belong to it, and with all required items the composition of that
document is published. -/
def Settled (s : LiveProfiles) (r : Requested) : Prop :=
  s.capturedContacts.isEmpty = true →
    s.document = r.document ∧
    ∀ connected, r.connected = some connected →
      s.connected = r.document.relevant connected ∧
      (r.document.hasRequired (r.document.relevant connected) = true →
        ∃ snapshot, s.current = some snapshot ∧
          r.document.compositionOf (r.document.relevant connected) s.context s.manualProfile =
            ok snapshot.composition)

/-- The live part is built, and it and the waiting slots make up what was asked for. -/
structure Tracks (s : LiveProfiles) (r : Requested) : Prop where
  idle : s.capturedContacts.isEmpty = true → s.pendingDocument = none ∧ s.pendingConnected = none
  both : s.pendingConnected = none → s.pendingDocument = none
  document : s.pendingDocument.getD s.document = r.document
  connected : ∀ connected, r.connected = some connected →
    s.pendingConnected.getD s.connected = r.document.relevant connected
  live : s.Built ∨ s.controller = none ∧ s.current = none ∧
    (r.connected = none ∨ s.pendingConnected.isSome = true)

variable {r : Requested}

lemma Tracks.settled (h : Tracks s r) : Settled s r := by
  intro hcap
  obtain ⟨hdoc, hconn⟩ := h.idle hcap
  have hdocument := h.document
  rw [hdoc, Option.getD_none] at hdocument
  refine ⟨hdocument, fun connected hr => ?_⟩
  have hconnected := h.connected connected hr
  rw [hconn, Option.getD_none] at hconnected
  refine ⟨hconnected, fun hreq => ?_⟩
  rw [← hdocument] at hreq hconnected ⊢
  rw [← hconnected] at hreq ⊢
  rcases h.live with (⟨-, -, hno⟩ | ⟨c, -, hshows⟩) | ⟨-, -, hnone⟩
  · simp [hno] at hreq
  · exact hshows.composition hcap
  · simp [hr, hconn] at hnone

/-- After a rebuild outside a capture the state tracks the document and the items it was
built from. -/
lemma tracks_rebuild {connected : Connected} {raw : Option ProfileCompositionSnapshot}
    (hcap : s.capturedContacts.isEmpty = true) (hdoc : s.pendingDocument = none)
    (hr : r.document = s.document)
    (hconn : ∀ supplied, r.connected = some supplied → connected = s.document.relevant supplied)
    (hok : (s.rebuild connected).1 = ok raw) : Tracks (s.rebuild connected).2 r := by
  have hs := sameInputs_rebuild (s := s) connected
  have hdoc' : (s.rebuild connected).2.pendingDocument = none := hs.pendingDocument.trans hdoc
  refine ⟨fun _ => ⟨hdoc', hs.pendingConnected⟩, fun _ => hdoc', ?_, ?_,
    .inl (built_rebuild hcap hok)⟩
  · rw [hdoc', Option.getD_none, hs.document, hr]
  · intro supplied hr'
    rw [hs.pendingConnected, Option.getD_none, hs.connected, hr]
    exact hconn supplied hr'

/-- The waiting slots do not matter for what is live. -/
lemma Built.setPending (h : s.Built) (connected : Option Connected)
    (document : Option ProfileDocument) :
    ({ s with pendingConnected := connected, pendingDocument := document } :
      LiveProfiles).Built := by
  rcases h with h | ⟨c, hc, hshows⟩
  · exact .inl h
  · refine .inr ⟨c, hc, ⟨?_, hshows.shown⟩⟩
    exact ⟨hshows.assembled, hshows.selector, hshows.modes, hshows.context, hshows.manual,
      hshows.captured, hshows.inv⟩

/-! ## One call -/

lemma Tracks.tryInitialize {connected : Connected} {raw : Option ProfileCompositionSnapshot}
    (h : Tracks s r) (hu : Undisturbed (s, r) (.tryInitialize connected))
    (hok : (s.tryInitialize connected).1 = ok raw) :
    Tracks (s.tryInitialize connected).2 { r with connected := some connected } := by
  obtain ⟨hfilter, hfresh⟩ := hu
  simp only [LiveProfiles.tryInitialize] at hok ⊢
  split_ifs at hok ⊢ with hsame hcap
  · -- nothing changes, and something has been built
    simp only [Bool.and_eq_true, decide_eq_true_eq, Option.isNone_iff_eq_none] at hsame
    obtain ⟨hrel, hnone⟩ := hsame
    have hdoc := h.both hnone
    have hdocument := h.document
    rw [hdoc, Option.getD_none] at hdocument
    refine ⟨h.idle, h.both, h.document, ?_, .inl ?_⟩
    · rintro _ ⟨⟩
      rw [hnone, Option.getD_none, ← hrel, hdocument]
    · rcases h.live with hbuilt | ⟨hc, hcur, -⟩
      · exact hbuilt
      · refine .inl ⟨hc, hcur, Bool.eq_false_iff.mpr fun hreq => hfresh ?_⟩
        exact ⟨by simp [hc], by simp [hnone], hrel, hreq⟩
  · -- the items wait for the end of the capture
    have hcaptured : s.capturedContacts.isEmpty ≠ true := by simpa using hcap
    refine ⟨fun hempty => absurd hempty hcaptured, by simp, h.document, ?_, ?_⟩
    · rintro _ ⟨⟩
      have hdocument := h.document
      cases hdoc : s.pendingDocument with
      | none =>
        rw [hdoc, Option.getD_none] at hdocument
        rw [Option.getD_some, hdocument]
      | some document =>
        rw [hdoc, Option.getD_some] at hdocument
        rw [hdoc, Option.all_some, decide_eq_true_eq] at hfilter
        rw [Option.getD_some, hfilter, hdocument]
    · rcases h.live with hbuilt | ⟨hc, hcur, -⟩
      · exact .inl (hbuilt.setPending _ s.pendingDocument)
      · exact .inr ⟨hc, hcur, .inr rfl⟩
  · have hempty : s.capturedContacts.isEmpty = true := by simpa using hcap
    have hdoc := (h.idle hempty).1
    have hdocument := h.document
    rw [hdoc, Option.getD_none] at hdocument
    refine tracks_rebuild hempty hdoc hdocument.symm ?_ hok
    rintro _ ⟨⟩
    rfl

lemma replaceDocument_eq_ok {document : ProfileDocument} {connected : Connected}
    {raw : Option ProfileCompositionSnapshot}
    (hok : (s.replaceDocument document connected).1 = ok raw) :
    s.replaceDocument document connected =
      s.acceptDocument document (document.relevant connected) := by
  simp only [replaceDocument] at hok ⊢
  cases hv : document.validate with
  | err e => simp [hv] at hok
  | panic => simp [hv] at hok
  | ok u =>
    rw [hv] at hok
    simp only at hok ⊢
    split_ifs at hok ⊢
    · cases hb : document.build (document.relevant connected) s.context with
      | err e => simp [hb] at hok
      | panic => simp [hb] at hok
      | ok built => rfl
    · rfl

lemma Tracks.replaceDocument {document : ProfileDocument} {connected : Connected}
    {raw : Option ProfileCompositionSnapshot} (h : Tracks s r)
    (hok : (s.replaceDocument document connected).1 = ok raw) :
    Tracks (s.replaceDocument document connected).2 ⟨document, some connected⟩ := by
  have heq := replaceDocument_eq_ok hok
  rw [heq, acceptDocument] at hok ⊢
  split_ifs at hok ⊢ with hcap
  · have hcaptured : s.capturedContacts.isEmpty ≠ true := by simpa using hcap
    refine ⟨fun hempty => absurd hempty hcaptured, by simp, rfl, ?_, ?_⟩
    · rintro _ ⟨⟩
      rfl
    · rcases h.live with hbuilt | ⟨hc, hcur, -⟩
      · exact .inl (hbuilt.setPending _ _)
      · exact .inr ⟨hc, hcur, .inr rfl⟩
  · have hempty : s.capturedContacts.isEmpty = true := by simpa using hcap
    refine tracks_rebuild hempty (h.idle hempty).1 rfl ?_ hok
    rintro _ ⟨⟩
    rfl

/-- A command to the controller, after the context or the manual profile was written. -/
lemma Tracks.command {k : ControllerCommand} {raw : Option ProfileCompositionSnapshot}
    (h : Tracks s r) (context : ContextSnapshot) (manual : Option ProfileId)
    (hk : ∀ c, s.Shows c → ∀ changed b, c.change k = ok (changed, b) →
      changed.context = context ∧ changed.manualProfile = manual ∧ changed.modes = c.modes)
    (hok : (({ s with context := context, manualProfile := manual } : LiveProfiles).command
      k).1 = ok raw) :
    Tracks (({ s with context := context, manualProfile := manual } : LiveProfiles).command
      k).2 r := by
  have hs := sameInputs_command
    (s := { s with context := context, manualProfile := manual }) k
  refine ⟨?_, ?_, ?_, ?_, ?_⟩
  · rw [hs.capturedContacts, hs.pendingDocument, hs.pendingConnected]
    exact h.idle
  · rw [hs.pendingDocument, hs.pendingConnected]
    exact h.both
  · rw [hs.pendingDocument, hs.document]
    exact h.document
  · rw [hs.pendingConnected, hs.connected]
    exact h.connected
  · rw [hs.pendingConnected]
    have hidle : s.controller = none →
        (({ s with context := context, manualProfile := manual } : LiveProfiles).command k) =
          (ok none, { s with context := context, manualProfile := manual }) := by
      intro hc
      simp [LiveProfiles.command, hc]
    rcases h.live with (⟨hc, hcur, hreq⟩ | ⟨c, hc, hshows⟩) | ⟨hc, hcur, hwait⟩
    · rw [hidle hc]
      exact .inl (.inl ⟨hc, hcur, hreq⟩)
    · exact .inl (hshows.command hc context manual (hk c hshows) hok)
    · rw [hidle hc]
      exact .inr ⟨hc, hcur, hwait⟩

lemma Tracks.captureStarted (h : Tracks s r) (contact : ℕ) :
    Tracks (s.captureStarted contact) r := by
  have hcap : (s.captureStarted contact).capturedContacts.isEmpty ≠ true := by
    intro hempty
    have hmem : contact ∉ s.capturedContacts.insert contact := BTreeSet.isEmpty_iff.mp hempty _
    simp at hmem
  refine ⟨fun hempty => absurd hempty hcap, h.both, h.document, h.connected, ?_⟩
  rcases h.live with (⟨hc, hcur, hreq⟩ | ⟨c, hc, hshows⟩) | ⟨hc, hcur, hwait⟩
  · exact .inl (.inl ⟨by simp [LiveProfiles.captureStarted, hc], hcur, hreq⟩)
  · refine .inl (.inr ⟨c.captureStarted contact, ?_, ⟨?_, hshows.shown⟩⟩)
    · simp [LiveProfiles.captureStarted, hc]
    · refine ⟨hshows.assembled, hshows.selector, hshows.modes, hshows.context, hshows.manual,
        ?_, hshows.inv.captureStarted⟩
      simp [LiveProfiles.captureStarted, CompositionController.captureStarted, hshows.captured]
  · exact .inr ⟨by simp [LiveProfiles.captureStarted, hc], hcur, hwait⟩

/-- The end of a capture that rebuilds nothing. -/
lemma Tracks.publish_release (h : Tracks s r) (contact : ℕ)
    (hidle : (s.release contact).capturedContacts.isEmpty = true →
      s.pendingDocument = none ∧ s.pendingConnected = none) :
    Tracks ((s.release contact).publish
      (s.controller.bind fun c => (c.captureEnded contact).1)).2 r := by
  have hs := sameInputs_publish (s := s.release contact)
    (s.controller.bind fun c => (c.captureEnded contact).1)
  refine ⟨?_, ?_, ?_, ?_, ?_⟩
  · rw [hs.capturedContacts, hs.pendingDocument, hs.pendingConnected]
    exact hidle
  · rw [hs.pendingDocument, hs.pendingConnected]
    exact h.both
  · rw [hs.pendingDocument, hs.document]
    exact h.document
  · rw [hs.pendingConnected, hs.connected]
    exact h.connected
  · rw [hs.pendingConnected]
    rcases h.live with (⟨hc, hcur, hreq⟩ | ⟨c, hc, hshows⟩) | ⟨hc, hcur, hwait⟩
    · exact .inl (.inl (by simp [release, hc, hcur, hreq, publish]))
    · obtain ⟨hcat, hreg, hsel, hmodes, hctx, hman, hcap, hinv, hcurrent⟩ :=
        CompositionController.captureEnded_frame contact hshows.inv
      refine .inl (.inr ⟨(c.captureEnded contact).2, ?_, Follows.publish ?_ ?_ ?_⟩)
      · rw [controller_publish]
        simp [release, hc]
      · exact ⟨by rw [hcat, hreg]; exact hshows.assembled, hsel.trans hshows.selector,
          hmodes.trans hshows.modes, hctx.trans hshows.context, hman.trans hshows.manual,
          hcap.trans (by rw [hshows.captured]; rfl), hinv⟩
      · simp only [hc, Option.bind_some]
        intro hnone
        rw [hcurrent, hnone, Option.getD_none]
        exact hshows.shown
      · simp only [hc, Option.bind_some]
        intro snapshot hsome
        rw [hcurrent, hsome, Option.getD_some]
    · exact .inr (by simp [release, hc, hcur, hwait, publish])

lemma Tracks.captureEnded {contact : ℕ} {raw : Option ProfileCompositionSnapshot}
    (h : Tracks s r) (hok : (s.captureEnded contact).1 = ok raw) :
    Tracks (s.captureEnded contact).2 r := by
  simp only [LiveProfiles.captureEnded] at hok ⊢
  split_ifs at hok ⊢ with hempty
  · -- the waiting document, if there is one, is the one that was asked for
    have hpromoted : (s.release contact).promoteDocument.document = r.document ∧
        (s.release contact).promoteDocument.pendingDocument = none ∧
        (s.release contact).promoteDocument.pendingConnected = s.pendingConnected ∧
        (s.release contact).promoteDocument.capturedContacts.isEmpty = true := by
      have hdocument := h.document
      rw [promoteDocument]
      cases hdoc : s.pendingDocument with
      | none =>
        rw [hdoc, Option.getD_none] at hdocument
        simp only [release, hdoc]
        exact ⟨hdocument, trivial, trivial, hempty⟩
      | some document =>
        rw [hdoc, Option.getD_some] at hdocument
        simp only [release, hdoc]
        exact ⟨hdocument, trivial, trivial, hempty⟩
    obtain ⟨hdocument, hdoc, hconn, hcap⟩ := hpromoted
    rw [settle, hconn] at hok ⊢
    cases hpending : s.pendingConnected with
    | some connected =>
      simp only [hpending] at hok ⊢
      refine tracks_rebuild hcap hdoc hdocument.symm (fun supplied hr => ?_) hok
      have hconnected := h.connected supplied hr
      rw [hpending, Option.getD_some] at hconnected
      exact hconnected.trans (by rw [← hdocument])
    | none =>
      have hnone := h.both hpending
      have hself : (s.release contact).promoteDocument = s.release contact := by
        simp [promoteDocument, release, hnone]
      simp only
      rw [hself]
      exact h.publish_release contact fun _ => ⟨hnone, hpending⟩
  · exact h.publish_release contact fun hcap => absurd hcap hempty

/-- A call that succeeds and is not disturbed keeps the invariant. -/
lemma tracks_step (st : LiveProfiles × Requested) (k : Call) (h : Tracks st.1 st.2)
    (hk : Succeeds st k ∧ Undisturbed st k) :
    Tracks (stepRequested st k).1 (stepRequested st k).2 := by
  obtain ⟨s, r⟩ := st
  obtain ⟨hok, hu⟩ := hk
  obtain ⟨raw, hok⟩ := isOk_iff.mp hok
  cases k with
  | tryInitialize connected => exact h.tryInitialize hu hok
  | replaceDocument document connected => exact h.replaceDocument hok
  | selectProfile profile =>
    simp only [LiveProfiles.call, LiveProfiles.selectProfile, stepRequested] at hok ⊢
    split_ifs at hok ⊢
    refine h.command s.context (some profile) (fun c hshows changed b hchange => ?_) hok
    obtain rfl := CompositionController.change_selectProfile hchange
    exact ⟨hshows.context, rfl, rfl⟩
  | useAutomaticProfile =>
    refine h.command s.context none (fun c hshows changed b hchange => ?_) hok
    obtain ⟨rfl, -⟩ := Prod.mk.inj (Outcome.ok.inj hchange)
    exact ⟨hshows.context, rfl, rfl⟩
  | setFact key value =>
    refine h.command _ s.manualProfile (fun c hshows changed b hchange => ?_) hok
    obtain ⟨rfl, -⟩ := Prod.mk.inj (Outcome.ok.inj hchange)
    exact ⟨rfl, hshows.manual, rfl⟩
  | captureStarted contact => exact h.captureStarted contact
  | captureEnded contact => exact h.captureEnded hok

/-- One profile with one required item that the clock document does not have. -/
def mailDocument : ProfileDocument where
  version := 1
  fallback := "inbox"
  contributions := [⟨"mail", [⟨"demo", "mail", true⟩], .global, 0, .always⟩]
  profiles := [⟨"inbox", [.slot "left" .fixed ["mail"]], none⟩]
  rules := []
  regions := []

def clockAndMail : Connected :=
  .ofList [("demo#clock", .new "demo#clock" 40 80 600), ("demo#mail", .new "demo#mail" 40 80 600)]

/-- The clock is shown, and the mail document arrives during a touch. -/
def mailArrives : List Call :=
  [.tryInitialize clockAndMail, .captureStarted 7, .replaceDocument mailDocument clockAndMail]

/-- The live profiles after some calls, with what was asked for. -/
def clockRun (calls : List Call) : LiveProfiles × Requested :=
  run stepRequested (new clockDocument ⟨1, .empty⟩, ⟨clockDocument, none⟩) calls

end LiveProfiles

end TouchBar.Session
