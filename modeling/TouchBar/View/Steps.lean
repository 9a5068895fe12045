import TouchBar.View.Decoder

/-!
# What a step of the decoder needs

The decoder pays for what it decodes, and it binds animations and effects.  Each of this is a
`Note`.  `Does` says when a step of the decoder succeeds: what is checked without any state is
a proposition, and the notes that the step makes have to pass one after the other.
-/

namespace TouchBar.View

open TouchBar.Rust Outcome

/-- What the decoder counts. -/
inductive Resource where
  | nodes
  | text
  | commands
  | points
  | segments
  | triangles
  | effects
deriving DecidableEq, Repr

inductive Note where
  | pay (resource : Resource) (amount : ℕ)
  | animation (id : ℕ) (signature : AnimationSignature)
  | effect (id : ℕ) (signature : EffectSignature)

variable {Image Program : Type}

namespace ViewDecoder

def used (s : ViewDecoder Program) : Resource → ℕ
  | .nodes => s.expandedNodes
  | .text => s.textBytes
  | .commands => s.canvasCommands
  | .points => s.canvasPoints
  | .segments => s.canvasPathSegments
  | .triangles => s.canvasFillTriangles
  | .effects => s.effectNodes

def setUsed (s : ViewDecoder Program) (resource : Resource) (amount : ℕ) : ViewDecoder Program :=
  match resource with
  | .nodes => { s with expandedNodes := amount }
  | .text => { s with textBytes := amount }
  | .commands => { s with canvasCommands := amount }
  | .points => { s with canvasPoints := amount }
  | .segments => { s with canvasPathSegments := amount }
  | .triangles => { s with canvasFillTriangles := amount }
  | .effects => { s with effectNodes := amount }

end ViewDecoder

def DecoderInput.limit (input : DecoderInput Image Program) : Resource → ℕ
  | .nodes => input.limits.maxExpandedNodes.toNat
  | .text => input.limits.maxTextBytes.toNat
  | .commands => input.limits.maxCanvasCommands.toNat
  | .points => input.limits.maxCanvasPoints.toNat
  | .segments => input.limits.maxCanvasPathSegments.toNat
  | .triangles => input.limits.maxCanvasFillTriangles.toNat
  | .effects => input.limits.maxEffectNodes.toNat

variable (input : DecoderInput Image Program)

/-- The state after a note, if it passes. -/
def enter (s : ViewDecoder Program) : Note → Option (ViewDecoder Program)
  | .pay resource amount =>
    if s.used resource + amount ≤ input.limit resource then
      some (s.setUsed resource (s.used resource + amount))
    else none
  | .animation id signature => (bindAnimation input id signature s).expect.map Prod.snd
  | .effect id signature => (bindEffect input id signature s).expect.map Prod.snd

def settle (notes : List Note) (s : ViewDecoder Program) : Option (ViewDecoder Program) :=
  notes.foldlM (enter input) s

@[simp] lemma settle_nil (s : ViewDecoder Program) : settle input [] s = some s := rfl

variable {input} in
lemma settle_append (notes notes' : List Note) {s s' : ViewDecoder Program} :
    settle input (notes ++ notes') s = some s' ↔
      ∃ s₁, settle input notes s = some s₁ ∧ settle input notes' s₁ = some s' := by
  rw [settle, List.foldlM_append, Option.bind_eq_bind, Option.bind_eq_some_iff]
  rfl

lemma settle_singleton {note : Note} {s : ViewDecoder Program} :
    settle input [note] s = enter input s note := by
  rw [settle, List.foldlM_cons]
  exact Option.bind_fun_some _

variable {α β : Type} {p q : Prop} {notes notes' : List Note}
  {m : Decode Program α} {rest : ViewDecoder Program → β → ViewDecoder Program → Prop}

/-- The step succeeds exactly if the proposition holds, the notes pass, and what comes then
succeeds. -/
def Does (m : Decode Program α) (p : Prop) (notes : List Note)
    (rest : ViewDecoder Program → α → ViewDecoder Program → Prop) : Prop :=
  ∀ s a s', m s = ok (a, s') ↔ p ∧ ∃ s₁, settle input notes s = some s₁ ∧ rest s₁ a s'

variable {input}

/-- Nothing comes then but to return the value. -/
def Returns (a : α) : ViewDecoder Program → α → ViewDecoder Program → Prop :=
  fun s b s' => b = a ∧ s' = s

lemma bind_eq_ok_iff {f : α → Decode Program β} {s : ViewDecoder Program} {b : β}
    {s' : ViewDecoder Program} :
    (m >>= f) s = ok (b, s') ↔ ∃ a s₁, m s = ok (a, s₁) ∧ f a s₁ = ok (b, s') := by
  change ((m s) >>= fun r => f r.1 r.2) = ok (b, s') ↔ _
  rw [bind_eq_ok, Prod.exists]

lemma does_pure (a : α) : Does input (pure a) True [] (Returns a) := by
  intro s b s'
  change ok (a, s) = ok (b, s') ↔ _
  rw [Outcome.ok.injEq, Prod.mk.injEq, true_and]
  constructor
  · rintro ⟨rfl, rfl⟩
    exact ⟨_, rfl, rfl, rfl⟩
  · rintro ⟨s₁, h, rfl, rfl⟩
    cases h
    exact ⟨rfl, rfl⟩

lemma does_bail (message : String)
    {rest : ViewDecoder Program → α → ViewDecoder Program → Prop} :
    Does input (bail message) False [] rest := by
  intro s a s'
  constructor
  · intro h
    cases h
  · rintro ⟨h, -⟩
    exact h.elim

/-- The notes of a step come before those of the next one. -/
lemma Does.bind {a : α} {f : α → Decode Program β} (hm : Does input m p notes (Returns a))
    (hf : Does input (f a) q notes' rest) :
    Does input (m >>= f) (p ∧ q) (notes ++ notes') rest := by
  intro s b s'
  rw [bind_eq_ok_iff]
  constructor
  · rintro ⟨a', s₁, hfirst, hnext⟩
    obtain ⟨hp, s₂, hnotes, rfl, rfl⟩ := (hm s a' s₁).mp hfirst
    obtain ⟨hq, s₃, hnotes', hrest⟩ := (hf _ b s').mp hnext
    exact ⟨⟨hp, hq⟩, s₃, (settle_append _ _).mpr ⟨_, hnotes, hnotes'⟩, hrest⟩
  · rintro ⟨⟨hp, hq⟩, s₃, hnotes, hrest⟩
    obtain ⟨s₂, hfirst, hnext⟩ := (settle_append _ _).mp hnotes
    exact ⟨a, s₂, (hm s a s₂).mpr ⟨hp, s₂, hfirst, rfl, rfl⟩,
      (hf s₂ b s').mpr ⟨hq, s₃, hnext, hrest⟩⟩

/-- A check in front of a step. -/
lemma Does.guard {c : Prop} [Decidable c] {message : String} {m : Decode Program β}
    (hm : Does input m p notes rest) :
    Does input (if c then bail message else m) (¬ c ∧ p) notes rest := by
  intro s b s'
  by_cases hc : c
  · rw [if_pos hc]
    constructor
    · intro h
      cases h
    · rintro ⟨⟨h, -⟩, -⟩
      exact absurd hc h
  · rw [if_neg hc, hm s b s']
    constructor
    · rintro ⟨hp, hrest⟩
      exact ⟨⟨hc, hp⟩, hrest⟩
    · rintro ⟨⟨-, hp⟩, hrest⟩
      exact ⟨hp, hrest⟩

lemma Does.congr {m : Decode Program β} (hm : Does input m p notes rest) (hpq : p ↔ q)
    (hnotes : notes = notes') : Does input m q notes' rest := by
  subst hnotes
  intro s b s'
  rw [hm s b s', hpq]

/-- A call that does not use the state. -/
lemma does_lift {x : Outcome String α} {a : α} (hx : ∀ b, x = ok b ↔ p ∧ b = a) :
    Does input (liftM x : Decode Program α) p [] (Returns a) := by
  intro s b s'
  change (x >>= fun c => ok (c, s)) = ok (b, s') ↔ _
  rw [bind_eq_ok]
  constructor
  · rintro ⟨c, hc, h⟩
    cases h
    obtain ⟨hp, rfl⟩ := (hx _).mp hc
    exact ⟨hp, s, rfl, rfl, rfl⟩
  · rintro ⟨hp, s₁, h, rfl, rfl⟩
    cases h
    exact ⟨b, (hx b).mpr ⟨hp, rfl⟩, rfl⟩

/-- A check that does not use the state. -/
lemma does_check {x : Outcome String Unit} (hx : x = ok () ↔ p) :
    Does input (liftM x : Decode Program Unit) p [] (Returns ()) :=
  does_lift fun b => by
    rw [← hx]
    simp

/-- A step that is not taken apart. -/
lemma does_run (m : Decode Program α) :
    Does input m True [] fun s a s' => m s = ok (a, s') := by
  intro s a s'
  constructor
  · intro h
    exact ⟨trivial, s, rfl, h⟩
  · rintro ⟨-, s₁, h, hrun⟩
    cases h
    exact hrun

lemma does_mapM {f : β → Decode Program α} {P : β → Prop} {costs : β → List Note} {g : β → α}
    (h : ∀ x, Does input (f x) (P x) (costs x) (Returns (g x))) (xs : List β) :
    Does input (xs.mapM f) (∀ x ∈ xs, P x) (xs.flatMap costs) (Returns (xs.map g)) := by
  induction xs with
  | nil =>
    rw [List.mapM_nil]
    exact (does_pure []).congr (by simp) rfl
  | cons x xs ih =>
    rw [List.mapM_cons, List.flatMap_cons]
    refine ((h x).bind (ih.bind (does_pure (g x :: xs.map g)))).congr ?_ ?_
    · rw [and_true, List.forall_mem_cons]
    · rw [List.append_nil]

/-! ## Payments -/

/-- The limit is below the largest `usize`, so that the sum of a payment overflows only when it
exceeds the limit. -/
lemma charge_eq_ok {used amount total : ℕ} {limit : UInt64} {overflow exceeded : String} :
    charge used amount limit overflow exceeded = ok total ↔
      used + amount ≤ limit.toNat ∧ total = used + amount := by
  have hlimit : limit.toNat < U64.size := limit.toNat_lt
  rw [charge]
  split_ifs with hoverflow hexceeded
  · simp only [false_iff, not_and]
    omega
  · simp only [false_iff, not_and]
    omega
  · rw [Outcome.ok.injEq]
    omega

lemma does_pay {resource : Resource} {amount : ℕ} {m : Decode Program Unit}
    (hm : ∀ s s', m s = ok ((), s') ↔ s.used resource + amount ≤ input.limit resource ∧
      s' = s.setUsed resource (s.used resource + amount)) :
    Does input m True [.pay resource amount] (Returns ()) := by
  intro s a s'
  rw [hm s s', settle_singleton, enter, true_and]
  constructor
  · rintro ⟨hle, rfl⟩
    exact ⟨_, if_pos hle, rfl, rfl⟩
  · rintro ⟨s₁, hsome, -, rfl⟩
    split_ifs at hsome with hle
    cases hsome
    exact ⟨hle, rfl⟩

lemma charge_bind_eq_ok {used amount : ℕ} {limit : UInt64} {overflow exceeded : String}
    {f : ℕ → ViewDecoder Program} {s' : ViewDecoder Program} :
    (charge used amount limit overflow exceeded >>= fun total => (ok ((), f total) :
        Outcome String (Unit × ViewDecoder Program))) = ok ((), s') ↔
      used + amount ≤ limit.toNat ∧ s' = f (used + amount) := by
  simp only [bind_eq_ok, charge_eq_ok, Outcome.ok.injEq, Prod.mk.injEq, true_and]
  constructor
  · rintro ⟨total, ⟨hle, rfl⟩, rfl⟩
    exact ⟨hle, rfl⟩
  · rintro ⟨hle, rfl⟩
    exact ⟨_, ⟨hle, rfl⟩, rfl⟩

lemma does_text (content : String) :
    Does input (text input content) True [.pay .text (Text.len content)] (Returns ()) :=
  does_pay fun _ _ => charge_bind_eq_ok

lemma does_countCommands (count : ℕ) :
    Does input (countCommands input count) True [.pay .commands count] (Returns ()) :=
  does_pay fun _ _ => charge_bind_eq_ok

lemma does_countPoints (count : ℕ) :
    Does input (countPoints input count) True [.pay .points count] (Returns ()) :=
  does_pay fun _ _ => charge_bind_eq_ok

lemma does_countPathSegments (count : ℕ) :
    Does input (countPathSegments input count) True [.pay .segments count] (Returns ()) :=
  does_pay fun _ _ => charge_bind_eq_ok

lemma does_countFillTriangles (count : ℕ) :
    Does input (countFillTriangles input count) True [.pay .triangles count] (Returns ()) :=
  does_pay fun _ _ => charge_bind_eq_ok

lemma count_eq_ok {used : ℕ} {limit : UInt64} {message : String} {s₁ s' : ViewDecoder Program} :
    (if limit.toNat < used + 1 then err message else
        (ok ((), s₁) : Outcome String (Unit × ViewDecoder Program))) = ok ((), s') ↔
      used + 1 ≤ limit.toNat ∧ s' = s₁ := by
  split_ifs with hexceeded
  · simp only [false_iff, not_and]
    omega
  · simp only [Outcome.ok.injEq, Prod.mk.injEq, true_and, eq_comm (a := s₁)]
    exact ⟨fun h => ⟨by omega, h⟩, And.right⟩

lemma does_countNode : Does input (countNode input) True [.pay .nodes 1] (Returns ()) :=
  does_pay fun _ _ => count_eq_ok

lemma does_countEffect : Does input (countEffect input) True [.pay .effects 1] (Returns ()) :=
  does_pay fun _ _ => count_eq_ok

/-! ## Bindings -/

def AnimationRegistry.startOf (r : AnimationRegistry) (itemId : String) (id : ℕ) : ℕ :=
  ((r.entries.get (toLex (itemId, id))).map AnimationState.started).getD 0

def EffectRegistry.startOf (r : EffectRegistry Program) (itemId : String) (id : ℕ) : ℕ :=
  ((r.entries.get (toLex (itemId, id))).map EffectState.started).getD 0

/-- What is bound has started when the registry says. -/
lemma AnimationRegistry.bind_started (r : AnimationRegistry) (itemId : String) (id : ℕ)
    (signature : AnimationSignature) (now : ℕ) :
    (r.bind itemId id signature now).1 = (r.bind itemId id signature now).2.startOf itemId id := by
  rw [bind]
  split
  · next state hfound =>
    rw [startOf, (Option.filter_eq_some_iff.mp hfound).1]
    rfl
  · rw [startOf, BTreeMap.get_insert, if_pos rfl]
    rfl

lemma EffectRegistry.program_eq_ok {compile : String → Outcome String Program}
    {r : EffectRegistry Program} {source : String} {maxPrograms : ℕ} {program : Program}
    {programs : BTreeMap String Program} :
    r.program compile source maxPrograms = ok (program, programs) ↔
      (r.programs.get source = some program ∧ programs = r.programs) ∨
        (r.programs.get source = none ∧ r.programs.len < maxPrograms ∧
          compile source = ok program ∧ programs = r.programs.insert source program) := by
  rw [EffectRegistry.program]
  split
  · next found hfound =>
    simp only [hfound, Outcome.ok.injEq, Prod.mk.injEq, Option.some.injEq, reduceCtorEq, false_and,
      or_false, eq_comm (a := r.programs)]
  · next hnone =>
    simp only [hnone, reduceCtorEq, false_and, false_or, true_and]
    split_ifs with hfull
    · simp only [false_iff, not_and]
      intro hlt
      omega
    · simp only [bind_eq_ok, pure_eq, Outcome.ok.injEq, Prod.mk.injEq, not_le.mp hfull, true_and]
      constructor
      · rintro ⟨p, hcompile, rfl, rfl⟩
        exact ⟨hcompile, rfl⟩
      · rintro ⟨hcompile, rfl⟩
        exact ⟨program, hcompile, rfl, rfl⟩

/-- A program that has been asked for is kept. -/
lemma EffectRegistry.get_program {compile : String → Outcome String Program}
    {r : EffectRegistry Program} {source : String} {maxPrograms : ℕ} {program : Program}
    {programs : BTreeMap String Program}
    (h : r.program compile source maxPrograms = ok (program, programs)) :
    programs.get source = some program := by
  rcases program_eq_ok.mp h with ⟨hget, rfl⟩ | ⟨-, -, -, rfl⟩
  · exact hget
  · rw [BTreeMap.get_insert, if_pos rfl]

/-- A binding, and what is done with its answer. -/
lemma does_bindAnimation (id : ℕ) (signature : AnimationSignature) (f : ℕ → Decode Program β) :
    Does input (bindAnimation input id signature >>= f) True [.animation id signature]
      fun s₁ b s' => f (s₁.animations.startOf input.itemId id) s₁ = ok (b, s') := by
  intro s b s'
  rw [bind_eq_ok_iff, true_and, settle_singleton, enter]
  -- the answer is the start that the registry has then
  have hanswer : ∀ started s₁, bindAnimation input id signature s = ok (started, s₁) →
      started = s₁.animations.startOf input.itemId id := by
    intro started s₁ h
    dsimp only [bindAnimation] at h
    split_ifs at h
    cases h
    exact AnimationRegistry.bind_started ..
  simp only [Option.map_eq_some_iff, expect_eq_some, Prod.exists, exists_eq_right]
  constructor
  · rintro ⟨started, s₁, hbind, hf⟩
    rw [hanswer started s₁ hbind] at hf
    exact ⟨s₁, ⟨_, hbind⟩, hf⟩
  · rintro ⟨s₁, ⟨started, hbind⟩, hf⟩
    rw [← hanswer started s₁ hbind] at hf
    exact ⟨_, s₁, hbind, hf⟩

lemma bindEffect_answer {id : ℕ} {signature : EffectSignature} {s s₁ : ViewDecoder Program}
    {answer : Program × ℕ} (h : bindEffect input id signature s = ok (answer, s₁)) :
    s₁.effects.programs.get signature.source = some answer.1 ∧
      answer.2 = s₁.effects.startOf input.itemId id := by
  dsimp only [bindEffect] at h
  split_ifs at h
  simp only [bind_eq_ok, EffectRegistry.bind, pure_eq, Prod.exists, Outcome.ok.injEq,
    Prod.mk.injEq] at h
  obtain ⟨p, t, effects, ⟨p', programs, hprogram, rfl, rfl, rfl⟩, rfl, rfl⟩ := h
  refine ⟨EffectRegistry.get_program hprogram, ?_⟩
  rw [EffectRegistry.startOf, BTreeMap.get_insert, if_pos rfl]
  rfl

/-- The program of an effect that has been bound is there. -/
lemma get_program_of_enter {id : ℕ} {signature : EffectSignature} {s s₁ : ViewDecoder Program}
    (h : enter input s (.effect id signature) = some s₁) :
    ∃ program, s₁.effects.programs.get signature.source = some program := by
  rw [enter, Option.map_eq_some_iff] at h
  obtain ⟨⟨answer, s₂⟩, hbind, rfl⟩ := h
  exact ⟨_, (bindEffect_answer (expect_eq_some.mp hbind)).1⟩

lemma does_bindEffect (id : ℕ) (signature : EffectSignature)
    (f : Program × ℕ → Decode Program β) :
    Does input (bindEffect input id signature >>= f) True [.effect id signature]
      fun s₁ b s' => ∃ program, s₁.effects.programs.get signature.source = some program ∧
        f (program, s₁.effects.startOf input.itemId id) s₁ = ok (b, s') := by
  intro s b s'
  rw [bind_eq_ok_iff, true_and, settle_singleton, enter]
  simp only [Option.map_eq_some_iff, expect_eq_some, Prod.exists, exists_eq_right]
  constructor
  · rintro ⟨program, started, s₁, hbind, hf⟩
    obtain ⟨hprogram, hstarted⟩ := bindEffect_answer hbind
    dsimp only at hstarted
    rw [hstarted] at hf
    exact ⟨s₁, ⟨_, _, hbind⟩, program, hprogram, hf⟩
  · rintro ⟨s₁, ⟨program, started, hbind⟩, program', hprogram', hf⟩
    obtain ⟨hprogram, hstarted⟩ := bindEffect_answer hbind
    rw [hprogram'] at hprogram
    cases hprogram
    rw [← hstarted] at hf
    exact ⟨_, _, s₁, hbind, hf⟩

end TouchBar.View
