import TouchBar.View.Demands

/-!
# Bindings of a view

A binding keeps the start that the registry has for the same description, and otherwise starts
now.  All bindings of an identifier in one view have the same description, so what is bound
stays as it is to the end of the view.
-/

namespace TouchBar.View

open TouchBar.Rust Outcome

/-! ## Equality of descriptions -/

namespace AnimationSignature

variable {a b c : AnimationSignature}

lemma f32Eq_comm {x y : F32} : x.eq y = y.eq x := by
  simp only [F32.eq, eq_comm (a := x.key), Bool.and_comm (!x.isNan)]

lemma f32Eq_trans {x y z : F32} (h : x.eq y = true) (h' : y.eq z = true) : x.eq z = true := by
  simp only [F32.eq, Bool.and_eq_true, decide_eq_true_eq] at h h' ⊢
  exact ⟨⟨h.1.1, h'.1.2⟩, h.2.trans h'.2⟩

lemma f32Eq_self {x : F32} {lo hi : Literal} (h : inRange x lo hi = true) : x.eq x = true := by
  simp only [inRange, Bool.and_eq_true, F32.isFinite, decide_eq_true_eq] at h
  simp [F32.eq, F32.isNan, h.1.1.le]

lemma eq_symm (h : a.eq b = true) : b.eq a = true := by
  simp only [AnimationSignature.eq, VisualTransform.eq, Point.eq, Bool.and_eq_true,
    decide_eq_true_eq] at h ⊢
  obtain ⟨⟨⟨⟨hstart, hstop⟩, hduration⟩, heasing⟩, hplayback⟩ := h
  refine ⟨⟨⟨⟨⟨⟨⟨?_, ?_⟩, ?_⟩, ?_⟩, ⟨⟨?_, ?_⟩, ?_⟩, ?_⟩, hduration.symm⟩, heasing.symm⟩,
    hplayback.symm⟩
  all_goals rw [f32Eq_comm]
  · exact hstart.1.1.1
  · exact hstart.1.1.2
  · exact hstart.1.2
  · exact hstart.2
  · exact hstop.1.1.1
  · exact hstop.1.1.2
  · exact hstop.1.2
  · exact hstop.2

lemma eq_trans (h : a.eq b = true) (h' : b.eq c = true) : a.eq c = true := by
  simp only [AnimationSignature.eq, VisualTransform.eq, Point.eq, Bool.and_eq_true,
    decide_eq_true_eq] at h h' ⊢
  obtain ⟨⟨⟨⟨hstart, hstop⟩, hduration⟩, heasing⟩, hplayback⟩ := h
  obtain ⟨⟨⟨⟨hstart', hstop'⟩, hduration'⟩, heasing'⟩, hplayback'⟩ := h'
  refine ⟨⟨⟨⟨⟨⟨⟨?_, ?_⟩, ?_⟩, ?_⟩, ⟨⟨?_, ?_⟩, ?_⟩, ?_⟩, hduration.trans hduration'⟩,
    heasing.trans heasing'⟩, hplayback.trans hplayback'⟩
  · exact f32Eq_trans hstart.1.1.1 hstart'.1.1.1
  · exact f32Eq_trans hstart.1.1.2 hstart'.1.1.2
  · exact f32Eq_trans hstart.1.2 hstart'.1.2
  · exact f32Eq_trans hstart.2 hstart'.2
  · exact f32Eq_trans hstop.1.1.1 hstop'.1.1.1
  · exact f32Eq_trans hstop.1.1.2 hstop'.1.1.2
  · exact f32Eq_trans hstop.1.2 hstop'.1.2
  · exact f32Eq_trans hstop.2 hstop'.2

end AnimationSignature

lemma VisualTransform.Valid.eq_self {t : VisualTransform} (h : t.Valid) : t.eq t = true := by
  simp only [VisualTransform.eq, Point.eq, Bool.and_eq_true]
  exact ⟨⟨⟨AnimationSignature.f32Eq_self h.1, AnimationSignature.f32Eq_self h.2.1⟩,
    AnimationSignature.f32Eq_self h.2.2.1⟩, AnimationSignature.f32Eq_self h.2.2.2⟩

/-- The description of an animation is equal to itself, as it has only finite numbers. -/
def Note.Sound : Note → Prop
  | .animation _ signature => signature.eq signature = true
  | _ => True

variable {Image Program : Type} {input : DecoderInput Image Program}

lemma Wit.Node.Valid.sound {v : Wit.Node} (h : v.Valid input) :
    ∀ note ∈ v.notes input, note.Sound := by
  intro note hmem
  cases note with
  | pay resource amount => trivial
  | effect id signature => trivial
  | animation id signature =>
    cases v with
    | motion m =>
      cases List.mem_singleton.mp hmem
      simp [Note.Sound, Wit.MotionNode.signature, AnimationSignature.eq, h.2.2.1.eq_self,
        h.2.2.2.eq_self]
    | canvas c =>
      exfalso
      simp only [Wit.Node.notes, List.mem_cons, reduceCtorEq, List.mem_flatMap, false_or] at hmem
      obtain ⟨command, -, hmem⟩ := hmem
      cases command <;> simp [Wit.CanvasCommand.notes] at hmem
    | _ => exact absurd hmem (by simp [Wit.Node.notes])

/-! ## What a note does -/

variable {s s' : ViewDecoder Program}

/-- The start that a binding of the effect has. -/
def EffectRegistry.startAt (r : EffectRegistry Program) (itemId : String) (id : ℕ)
    (signature : EffectSignature) (now : ℕ) : ℕ :=
  match (r.entries.get (toLex (itemId, id))).filter fun state => state.signature = signature with
  | some state => state.started
  | none => now

lemma not_any_iff {α : Type} {x : Option α} {p : α → Bool} :
    ¬ (x.any fun e => !p e) = true ↔ ∀ e, x = some e → p e = true := by
  cases x <;> simp

lemma enter_animation {id : ℕ} {signature : AnimationSignature} :
    enter input s (.animation id signature) = some s' ↔
      (∀ e, s.animationSignatures.get id = some e → e.eq signature = true) ∧
      (s.animationSignatures.insert id signature).len ≤ input.limits.maxAnimations.toNat ∧
      s' = { s with
        animationSignatures := s.animationSignatures.insert id signature
        animations := (s.animations.bind input.itemId id signature input.now).2 } := by
  rw [enter, Option.map_eq_some_iff, ← not_any_iff]
  simp only [expect_eq_some, Prod.exists, exists_eq_right]
  dsimp only [bindAnimation]
  split_ifs with hconflict hfull
  · simp only [exists_false, false_iff, not_and]
    exact fun hsame => absurd hconflict hsame
  · simp only [exists_false, false_iff, not_and]
    omega
  · simp only [Outcome.ok.injEq, Prod.mk.injEq, exists_and_right, exists_eq', true_and]
    exact ⟨fun h => ⟨hconflict, not_lt.mp hfull, h.symm⟩, fun h => h.2.2.symm⟩

lemma enter_effect {id : ℕ} {signature : EffectSignature} :
    enter input s (.effect id signature) = some s' ↔
      (∀ e, s.effectSignatures.get id = some e → e = signature) ∧
      ∃ program programs, s.effects.program input.compile signature.source
          input.limits.maxEffectPrograms.toNat = ok (program, programs) ∧
        s' = { s with
          effectSignatures := s.effectSignatures.insert id signature
          effects := ⟨programs, s.effects.entries.insert (toLex (input.itemId, id))
            ⟨signature, s.effects.startAt input.itemId id signature input.now⟩⟩ } := by
  have hsame : (∀ e, s.effectSignatures.get id = some e → e = signature) ↔
      ¬ ((s.effectSignatures.get id).any fun e => e ≠ signature) = true := by
    cases s.effectSignatures.get id <;> simp
  rw [enter, Option.map_eq_some_iff, hsame]
  simp only [expect_eq_some, Prod.exists, exists_eq_right]
  dsimp only [bindEffect]
  split_ifs with hconflict
  · simp only [exists_false, false_iff, not_and]
    exact fun hsame => absurd hconflict hsame
  · simp only [bind_eq_ok, EffectRegistry.bind, pure_eq, Prod.exists, Outcome.ok.injEq,
      Prod.mk.injEq]
    constructor
    · rintro ⟨p, t, _, _, _, ⟨p', programs, hprogram, rfl, rfl, rfl⟩, -, rfl⟩
      exact ⟨hconflict, _, programs, hprogram, rfl⟩
    · rintro ⟨-, p, programs, hprogram, rfl⟩
      exact ⟨p, _, _, _, _, ⟨p, programs, hprogram, rfl, rfl, rfl⟩, ⟨rfl, rfl⟩, rfl⟩

/-- What the registry has of an animation after it is bound. -/
lemma get_bind (r : AnimationRegistry) (itemId : String) (id : ℕ)
    (signature : AnimationSignature) (now : ℕ) (key : String ×ₗ ℕ) :
    (r.bind itemId id signature now).2.entries.get key =
      if key = toLex (itemId, id) then
        some (((r.entries.get key).filter fun state => state.signature.eq signature).getD
          ⟨signature, now⟩)
      else r.entries.get key := by
  rw [AnimationRegistry.bind]
  split_ifs with hkey
  · subst hkey
    split
    · next state hfound =>
      rw [hfound]
      exact (Option.filter_eq_some_iff.mp hfound).1
    · next hnone =>
      rw [hnone, BTreeMap.get_insert, if_pos rfl]
      rfl
  · split
    · rfl
    · rw [BTreeMap.get_insert, if_neg hkey]

/-! ## What is bound stays -/

variable (input) in
/-- The registries have what the view has bound. -/
structure Bound (s : ViewDecoder Program) : Prop where
  animations : ∀ id signature, s.animationSignatures.get id = some signature →
    ∃ state, s.animations.entries.get (toLex (input.itemId, id)) = some state ∧
      state.signature.eq signature = true
  effects : ∀ id signature, s.effectSignatures.get id = some signature →
    ∃ started, s.effects.entries.get (toLex (input.itemId, id)) = some ⟨signature, started⟩

variable (input) in
/-- What is bound in the first state is the same in the second. -/
structure Keeps (s s' : ViewDecoder Program) : Prop where
  animations : ∀ id signature, s.animationSignatures.get id = some signature →
    (∃ signature', s'.animationSignatures.get id = some signature') ∧
      s'.animations.entries.get (toLex (input.itemId, id)) =
        s.animations.entries.get (toLex (input.itemId, id))
  effects : ∀ id signature, s.effectSignatures.get id = some signature →
    s'.effectSignatures.get id = some signature ∧
      s'.effects.entries.get (toLex (input.itemId, id)) =
        s.effects.entries.get (toLex (input.itemId, id))
  programs : ∀ source program, s.effects.programs.get source = some program →
    s'.effects.programs.get source = some program

variable {s₁ s₂ s₃ : ViewDecoder Program}

lemma Keeps.refl (s : ViewDecoder Program) : Keeps input s s :=
  ⟨fun _ _ h => ⟨⟨_, h⟩, rfl⟩, fun _ _ h => ⟨h, rfl⟩, fun _ _ h => h⟩

lemma Keeps.trans (h : Keeps input s₁ s₂) (h' : Keeps input s₂ s₃) : Keeps input s₁ s₃ where
  animations id signature hget := by
    obtain ⟨⟨signature', hget'⟩, hentry⟩ := h.animations id signature hget
    obtain ⟨hbound, hentry'⟩ := h'.animations id signature' hget'
    exact ⟨hbound, hentry'.trans hentry⟩
  effects id signature hget := by
    obtain ⟨hget', hentry⟩ := h.effects id signature hget
    obtain ⟨hbound, hentry'⟩ := h'.effects id signature hget'
    exact ⟨hbound, hentry'.trans hentry⟩
  programs source program hget := h'.programs source program (h.programs source program hget)

lemma key_inj {item : String} {id id' : ℕ} :
    (toLex (item, id) : String ×ₗ ℕ) = toLex (item, id') ↔ id = id' := by
  rw [toLex_inj, Prod.mk.injEq, eq_self, true_and]

lemma Bound.enter {note : Note} (hs : Bound input s) (hsound : note.Sound)
    (h : enter input s note = some s') : Bound input s' ∧ Keeps input s s' := by
  cases note with
  | pay resource amount =>
    rw [View.enter] at h
    split_ifs at h
    cases h
    cases resource <;>
      exact ⟨⟨hs.animations, hs.effects⟩,
        ⟨fun _ _ hget => ⟨⟨_, hget⟩, rfl⟩, fun _ _ hget => ⟨hget, rfl⟩, fun _ _ hget => hget⟩⟩
  | animation id signature =>
    obtain ⟨hsame, -, rfl⟩ := enter_animation.mp h
    -- the entry of an animation that is bound already has the same description
    have hold : ∀ e, s.animationSignatures.get id = some e →
        ∃ state, s.animations.entries.get (toLex (input.itemId, id)) = some state ∧
          state.signature.eq signature = true := by
      intro e hget
      obtain ⟨state, hentry, heq⟩ := hs.animations id e hget
      exact ⟨state, hentry, AnimationSignature.eq_trans heq (hsame e hget)⟩
    refine ⟨⟨fun id' signature' hget => ?_, hs.effects⟩, ⟨fun id' signature' hget => ?_,
      fun _ _ hget => ⟨hget, rfl⟩, fun _ _ hget => hget⟩⟩
    · dsimp only at hget ⊢
      rw [BTreeMap.get_insert] at hget
      rw [get_bind]
      split_ifs at hget with hid
      · cases hget
        subst hid
        rw [if_pos rfl]
        refine ⟨_, rfl, ?_⟩
        cases hfound : (s.animations.entries.get (toLex (input.itemId, id'))).filter
            fun state => state.signature.eq signature with
        | none => exact hsound
        | some state => exact (Option.filter_eq_some_iff.mp hfound).2
      · rw [if_neg (mt key_inj.mp hid)]
        exact hs.animations id' signature' hget
    · dsimp only
      rw [BTreeMap.get_insert, get_bind]
      split_ifs with hid hkey hkey
      · subst hid
        obtain ⟨state, hentry, heq⟩ := hold signature' hget
        refine ⟨⟨_, rfl⟩, ?_⟩
        rw [hentry, Option.filter_some, if_pos heq]
        rfl
      · exact absurd (key_inj.mpr hid) hkey
      · exact absurd (key_inj.mp hkey) hid
      · exact ⟨⟨_, hget⟩, rfl⟩
  | effect id signature =>
    obtain ⟨hsame, program, programs, hprogram, rfl⟩ := enter_effect.mp h
    refine ⟨⟨hs.animations, fun id' signature' hget => ?_⟩, ⟨fun _ _ hget => ⟨⟨_, hget⟩, rfl⟩,
      fun id' signature' hget => ?_, fun source p hget => ?_⟩⟩
    · dsimp only at hget ⊢
      rw [BTreeMap.get_insert] at hget ⊢
      split_ifs at hget with hid
      · cases hget
        rw [if_pos (key_inj.mpr hid)]
        exact ⟨_, rfl⟩
      · rw [if_neg (mt key_inj.mp hid)]
        exact hs.effects id' signature' hget
    · dsimp only
      rw [BTreeMap.get_insert, BTreeMap.get_insert]
      split_ifs with hid hkey hkey
      · subst hid
        obtain ⟨started, hentry⟩ := hs.effects id' signature' hget
        have hsignature : signature' = signature := hsame signature' hget
        subst hsignature
        rw [EffectRegistry.startAt, hentry, Option.filter_some, if_pos (by simp)]
        exact ⟨rfl, rfl⟩
      · exact absurd (key_inj.mpr hid) hkey
      · exact absurd (key_inj.mp hkey) hid
      · exact ⟨hget, rfl⟩
    · rcases EffectRegistry.program_eq_ok.mp hprogram with ⟨-, rfl⟩ | ⟨hnone, -, -, rfl⟩
      · exact hget
      · dsimp only
        rw [BTreeMap.get_insert, if_neg]
        · exact hget
        · rintro rfl
          rw [hnone] at hget
          cases hget

lemma Bound.settle {notes : List Note} (hs : Bound input s) (hsound : ∀ note ∈ notes, note.Sound)
    (h : settle input notes s = some s') : Bound input s' ∧ Keeps input s s' := by
  induction notes generalizing s with
  | nil =>
    cases h
    exact ⟨hs, Keeps.refl _⟩
  | cons note notes ih =>
    rw [List.forall_mem_cons] at hsound
    obtain ⟨s₁, hnote, hnotes⟩ := (settle_append [note] notes).mp h
    rw [settle_singleton] at hnote
    obtain ⟨hs₁, hkeeps⟩ := hs.enter hsound.1 hnote
    obtain ⟨hs', hkeeps'⟩ := ih hs₁ hsound.2 hnotes
    exact ⟨hs', hkeeps.trans hkeeps'⟩

lemma enter_visiting (note : Note) (visiting : BTreeSet ℕ) :
    enter input { s with visiting := visiting } note =
      (enter input s note).map fun s' => { s' with visiting := visiting } := by
  cases note with
  | pay resource amount =>
    have hused : ViewDecoder.used { s with visiting := visiting } resource = s.used resource := by
      cases resource <;> rfl
    rw [View.enter, View.enter, hused]
    split_ifs
    · cases resource <;> rfl
    · rfl
  | animation id signature =>
    simp only [View.enter, bindAnimation]
    split_ifs <;> rfl
  | effect id signature =>
    simp only [View.enter, bindEffect]
    split_ifs
    · rfl
    · cases s.effects.bind input.compile input.itemId id signature.source signature.period
        input.now input.limits.maxEffectPrograms.toNat <;> rfl

/-- No note depends on the indices that are visited. -/
lemma settle_visiting (notes : List Note) (visiting : BTreeSet ℕ) :
    settle input notes { s with visiting := visiting } =
      (settle input notes s).map fun s' => { s' with visiting := visiting } := by
  induction notes generalizing s with
  | nil => rfl
  | cons note notes ih =>
    rw [View.settle, List.foldlM_cons, enter_visiting, View.settle, List.foldlM_cons]
    cases View.enter input s note with
    | none => rfl
    | some s₁ => exact ih

lemma visiting_of_settle {notes : List Note} (h : settle input notes s = some s') :
    s'.visiting = s.visiting := by
  have hself : settle input notes { s with visiting := s.visiting } = _ :=
    settle_visiting notes s.visiting
  rw [h, Option.map_some] at hself
  rw [Option.some.inj hself]

end TouchBar.View
