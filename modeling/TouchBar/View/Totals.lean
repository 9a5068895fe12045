import TouchBar.View.Registries

/-!
# When all notes of a view pass

The notes of a view pass one after the other exactly if their totals are within the limits,
equal identifiers have equal descriptions, there are not too many animations, and the programs
that are new compile and have room.  The order of the notes does not matter.
-/

namespace TouchBar.View

open TouchBar.Rust Outcome

/-- What a note costs of a resource. -/
def Note.cost (resource : Resource) : Note → ℕ
  | .pay paid amount => if paid = resource then amount else 0
  | _ => 0

def spentOn (resource : Resource) (notes : List Note) : ℕ := (notes.map (Note.cost resource)).sum

def animationsOf (notes : List Note) : List (ℕ × AnimationSignature) :=
  notes.filterMap fun note => match note with
    | .animation id signature => some (id, signature)
    | _ => none

def effectsOf (notes : List Note) : List (ℕ × EffectSignature) :=
  notes.filterMap fun note => match note with
    | .effect id signature => some (id, signature)
    | _ => none

variable {Image Program : Type}

/-- All bindings of a list. -/
def AnimationRegistry.bindAll (r : AnimationRegistry) (itemId : String) (now : ℕ)
    (bindings : List (ℕ × AnimationSignature)) : AnimationRegistry :=
  bindings.foldl (fun r a => (r.bind itemId a.1 a.2 now).2) r

namespace EffectRegistry

/-- The programs with that of a source, if it compiles. -/
def learn (compile : String → Outcome String Program) (programs : BTreeMap String Program)
    (source : String) : BTreeMap String Program :=
  match programs.get source, compile source with
  | none, ok program => programs.insert source program
  | _, _ => programs

/-- A binding, if its source compiles. -/
def bound (compile : String → Outcome String Program) (itemId : String) (now : ℕ)
    (r : EffectRegistry Program) (a : ℕ × EffectSignature) : EffectRegistry Program :=
  ⟨learn compile r.programs a.2.source,
    r.entries.insert (toLex (itemId, a.1)) ⟨a.2, r.startAt itemId a.1 a.2 now⟩⟩

def bindAll (compile : String → Outcome String Program) (r : EffectRegistry Program)
    (itemId : String) (now : ℕ) (bindings : List (ℕ × EffectSignature)) : EffectRegistry Program :=
  bindings.foldl (bound compile itemId now) r

/-- The sources whose programs are new. -/
def newSources (r : EffectRegistry Program) (bindings : List (ℕ × EffectSignature)) :
    Finset String :=
  ((bindings.map fun a => a.2.source).filter fun source => (r.programs.get source).isNone).toFinset

end EffectRegistry

variable (input : DecoderInput Image Program) (animations : AnimationRegistry)
  (effects : EffectRegistry Program)

/-- Equal identifiers have equal descriptions, and there are not too many of them. -/
structure AnimationsPass (bindings : List (ℕ × AnimationSignature)) : Prop where
  same : ∀ a ∈ bindings, ∀ b ∈ bindings, a.1 = b.1 → a.2.eq b.2 = true
  count : (bindings.map Prod.fst).toFinset.card ≤ input.limits.maxAnimations.toNat

/-- Equal identifiers have equal descriptions, and the new programs compile and have room. -/
structure EffectsPass (bindings : List (ℕ × EffectSignature)) : Prop where
  same : ∀ a ∈ bindings, ∀ b ∈ bindings, a.1 = b.1 → a.2 = b.2
  compiles : ∀ source ∈ effects.newSources bindings, ∃ program, input.compile source = ok program
  count : (effects.newSources bindings).Nonempty →
    effects.programs.len + (effects.newSources bindings).card ≤
      input.limits.maxEffectPrograms.toNat

/-- The notes are such that all of them pass. -/
structure Passes (notes : List Note) : Prop where
  within : ∀ resource, spentOn resource notes ≤ input.limit resource
  animations : AnimationsPass input (animationsOf notes)
  effects : EffectsPass input effects (effectsOf notes)

/-- The state of the decoder after the notes. -/
def settled (notes : List Note) : ViewDecoder Program where
  animations := animations.bindAll input.itemId input.now (animationsOf notes)
  effects := effects.bindAll input.compile input.itemId input.now (effectsOf notes)
  animationSignatures := .ofList (animationsOf notes)
  effectSignatures := .ofList (effectsOf notes)
  visiting := .empty
  expandedNodes := spentOn .nodes notes
  textBytes := spentOn .text notes
  canvasCommands := spentOn .commands notes
  canvasPoints := spentOn .points notes
  canvasPathSegments := spentOn .segments notes
  canvasFillTriangles := spentOn .triangles notes
  effectNodes := spentOn .effects notes

/-! ## Maps of lists -/

section Maps

variable {κ ν : Type} [LinearOrder κ] {es : List (κ × ν)} {k : κ} {v : ν}

lemma ofList_concat (es : List (κ × ν)) (k : κ) (v : ν) :
    BTreeMap.ofList (es ++ [(k, v)]) = (BTreeMap.ofList es).insert k v := by
  rw [BTreeMap.ofList, List.foldl_append]
  rfl

lemma mem_of_get_ofList (h : (BTreeMap.ofList es).get k = some v) : (k, v) ∈ es := by
  induction es using List.reverseRecOn with
  | nil => cases h
  | append_singleton es e ih =>
    obtain ⟨l, w⟩ := e
    rw [ofList_concat, BTreeMap.get_insert] at h
    rw [List.mem_append, List.mem_singleton]
    split_ifs at h with hk
    · cases h
      exact .inr (by rw [hk])
    · exact .inl (ih h)

lemma containsKey_ofList : (∃ v, (BTreeMap.ofList es).get k = some v) ↔ k ∈ es.map Prod.fst := by
  induction es using List.reverseRecOn with
  | nil => simp [BTreeMap.ofList]
  | append_singleton es e ih =>
    obtain ⟨l, w⟩ := e
    rw [ofList_concat, BTreeMap.get_insert, List.map_append, List.mem_append, ← ih]
    split_ifs with hk
    · simp [hk]
    · simp [hk]

lemma len_ofList : (BTreeMap.ofList es).len = (es.map Prod.fst).toFinset.card := by
  rw [← BTreeMap.length_keys, ← List.toFinset_card_of_nodup (BTreeMap.keys_nodup _)]
  congr 1
  ext k
  rw [List.mem_toFinset, List.mem_toFinset, BTreeMap.mem_keys_iff, containsKey_ofList]

end Maps

/-! ## The programs that are known -/

section Programs

variable {compile : String → Outcome String Program} {r : EffectRegistry Program}
  {itemId : String} {now : ℕ} {bindings : List (ℕ × EffectSignature)} {source : String}

lemma bindAll_concat (a : ℕ × EffectSignature) :
    r.bindAll compile itemId now (bindings ++ [a]) =
      (r.bindAll compile itemId now bindings).bound compile itemId now a := by
  rw [EffectRegistry.bindAll, List.foldl_append]
  rfl

lemma mem_newSources : source ∈ r.newSources bindings ↔
    (∃ a ∈ bindings, a.2.source = source) ∧ r.programs.get source = none := by
  simp [EffectRegistry.newSources]

lemma newSources_concat (a : ℕ × EffectSignature) :
    r.newSources (bindings ++ [a]) =
      if r.programs.get a.2.source = none then insert a.2.source (r.newSources bindings)
      else r.newSources bindings := by
  simp only [EffectRegistry.newSources, List.map_append, List.map_singleton, List.filter_append,
    List.toFinset_append]
  split_ifs with hnone
  · rw [List.filter_singleton, hnone, Finset.insert_eq, Finset.union_comm]
    rfl
  · rw [List.filter_singleton, Option.isNone_eq_false_iff.mpr (Option.ne_none_iff_isSome.mp hnone)]
    exact Finset.union_empty _

lemma get_learn {programs : BTreeMap String Program} {new : String} :
    (EffectRegistry.learn compile programs new).get source =
      if source = new ∧ programs.get new = none then (compile new).expect
      else programs.get source := by
  rw [EffectRegistry.learn]
  cases hget : programs.get new with
  | some program =>
    rw [if_neg (by simp)]
  | none =>
    by_cases hsource : source = new
    · subst hsource
      rw [if_pos ⟨rfl, rfl⟩]
      cases compile source with
      | ok program =>
        dsimp only
        rw [BTreeMap.get_insert, if_pos rfl]
        rfl
      | err e => exact hget
      | panic => exact hget
    · rw [if_neg fun h => hsource h.1]
      cases compile new with
      | ok program =>
        dsimp only
        rw [BTreeMap.get_insert, if_neg hsource]
      | err e => rfl
      | panic => rfl

variable (compile r itemId now bindings source) in
/-- A program is known if it was known before, or if its source is new and compiles. -/
lemma get_programs_bindAll :
    (r.bindAll compile itemId now bindings).programs.get source =
      if source ∈ r.newSources bindings then (compile source).expect
      else r.programs.get source := by
  induction bindings using List.reverseRecOn generalizing source with
  | nil =>
    rw [if_neg (by simp [mem_newSources])]
    rfl
  | append_singleton bindings a ih =>
    rw [bindAll_concat, newSources_concat]
    dsimp only [EffectRegistry.bound]
    rw [get_learn, ih, ih]
    by_cases hnone : r.programs.get a.2.source = none
    · rw [if_pos hnone]
      by_cases hsource : source = a.2.source
      · subst hsource
        rw [if_pos (Finset.mem_insert_self _ _), hnone]
        split_ifs with hmem hknown hknown
        · rfl
        · rfl
        · rfl
        · exact absurd ⟨rfl, rfl⟩ hknown
      · have hiff : source ∈ insert a.2.source (r.newSources bindings) ↔
            source ∈ r.newSources bindings := by
          rw [Finset.mem_insert, or_iff_right hsource]
        rw [if_neg fun h => hsource h.1]
        simp only [hiff]
    · have hold : a.2.source ∉ r.newSources bindings := fun h => hnone (mem_newSources.mp h).2
      rw [if_neg hnone, if_neg hold, if_neg fun h => hnone h.2]

/-- Each new program takes a place. -/
lemma len_programs_bindAll
    (hcompiles : ∀ source ∈ r.newSources bindings, ∃ program, compile source = ok program) :
    (r.bindAll compile itemId now bindings).programs.len =
      r.programs.len + (r.newSources bindings).card := by
  induction bindings using List.reverseRecOn with
  | nil => rfl
  | append_singleton bindings a ih =>
    rw [newSources_concat] at hcompiles ⊢
    rw [bindAll_concat]
    dsimp only [EffectRegistry.bound]
    by_cases hnone : r.programs.get a.2.source = none
    · rw [if_pos hnone] at hcompiles ⊢
      rw [Finset.forall_mem_insert] at hcompiles
      obtain ⟨⟨program, hprogram⟩, hrest⟩ := hcompiles
      have hget := get_programs_bindAll compile r itemId now bindings a.2.source
      by_cases hmem : a.2.source ∈ r.newSources bindings
      · rw [if_pos hmem, hprogram] at hget
        rw [EffectRegistry.learn, hget, Finset.insert_eq_of_mem hmem]
        exact ih hrest
      · rw [if_neg hmem, hnone] at hget
        rw [EffectRegistry.learn, hget, hprogram]
        dsimp only
        rw [BTreeMap.len_insert hget, ih hrest, Finset.card_insert_of_notMem hmem, Nat.add_assoc]
    · rw [if_neg hnone] at hcompiles ⊢
      have hget := get_programs_bindAll compile r itemId now bindings a.2.source
      rw [if_neg fun h => hnone (mem_newSources.mp h).2] at hget
      obtain ⟨program, hprogram⟩ := Option.ne_none_iff_exists'.mp hnone
      rw [EffectRegistry.learn, hget, hprogram]
      exact ih hcompiles

end Programs

/-! ## One more note -/

section Concat

variable {input animations effects} {notes : List Note} {s' : ViewDecoder Program}

lemma passes_nil : Passes input effects [] where
  within _ := Nat.zero_le _
  animations := ⟨by simp [animationsOf], Nat.zero_le _⟩
  effects := ⟨by simp [effectsOf], by simp [effectsOf, EffectRegistry.newSources],
    by simp [effectsOf, EffectRegistry.newSources]⟩

lemma spentOn_concat (resource : Resource) (notes : List Note) (note : Note) :
    spentOn resource (notes ++ [note]) = spentOn resource notes + note.cost resource := by
  rw [spentOn, List.map_append, List.sum_append, List.map_singleton, List.sum_singleton, spentOn]

@[simp] lemma animationsOf_pay (resource : Resource) (amount : ℕ) :
    animationsOf (notes ++ [.pay resource amount]) = animationsOf notes :=
  List.filterMap_append.trans (List.append_nil _)

@[simp] lemma animationsOf_animation (id : ℕ) (signature : AnimationSignature) :
    animationsOf (notes ++ [.animation id signature]) = animationsOf notes ++ [(id, signature)] :=
  List.filterMap_append

@[simp] lemma animationsOf_effect (id : ℕ) (signature : EffectSignature) :
    animationsOf (notes ++ [.effect id signature]) = animationsOf notes :=
  List.filterMap_append.trans (List.append_nil _)

@[simp] lemma effectsOf_pay (resource : Resource) (amount : ℕ) :
    effectsOf (notes ++ [.pay resource amount]) = effectsOf notes :=
  List.filterMap_append.trans (List.append_nil _)

@[simp] lemma effectsOf_animation (id : ℕ) (signature : AnimationSignature) :
    effectsOf (notes ++ [.animation id signature]) = effectsOf notes :=
  List.filterMap_append.trans (List.append_nil _)

@[simp] lemma effectsOf_effect (id : ℕ) (signature : EffectSignature) :
    effectsOf (notes ++ [.effect id signature]) = effectsOf notes ++ [(id, signature)] :=
  List.filterMap_append

lemma used_settled (resource : Resource) :
    (settled input animations effects notes).used resource = spentOn resource notes := by
  cases resource <;> rfl

lemma settled_pay (resource : Resource) (amount : ℕ) :
    (settled input animations effects notes).setUsed resource (spentOn resource notes + amount) =
      settled input animations effects (notes ++ [.pay resource amount]) := by
  simp only [settled, spentOn_concat, animationsOf_pay, effectsOf_pay]
  cases resource <;> rfl

/-- A note that is not a binding passes if its resource has room for it. -/
lemma passes_pay {resource : Resource} {amount : ℕ} :
    Passes input effects (notes ++ [.pay resource amount]) ↔
      Passes input effects notes ∧
        spentOn resource notes + amount ≤ input.limit resource := by
  have hcost (r : Resource) : spentOn r (notes ++ [.pay resource amount]) =
      spentOn r notes + if resource = r then amount else 0 := spentOn_concat ..
  constructor
  · rintro ⟨hwithin, hanimations, heffects⟩
    rw [animationsOf_pay] at hanimations
    rw [effectsOf_pay] at heffects
    simp only [hcost] at hwithin
    have hlast := hwithin resource
    rw [if_pos rfl] at hlast
    exact ⟨⟨fun r => (Nat.le_add_right _ _).trans (hwithin r), hanimations, heffects⟩, hlast⟩
  · rintro ⟨⟨hwithin, hanimations, heffects⟩, hlast⟩
    refine ⟨fun r => ?_, by rwa [animationsOf_pay], by rwa [effectsOf_pay]⟩
    rw [hcost]
    split_ifs with hr
    · exact hr ▸ hlast
    · exact hwithin r

/-- A binding costs nothing. -/
lemma passes_binding {note : Note} (hfree : ∀ resource, note.cost resource = 0) :
    Passes input effects (notes ++ [note]) ↔
      (∀ resource, spentOn resource notes ≤ input.limit resource) ∧
        AnimationsPass input (animationsOf (notes ++ [note])) ∧
          EffectsPass input effects (effectsOf (notes ++ [note])) := by
  constructor
  · rintro ⟨hwithin, hanimations, heffects⟩
    simp only [spentOn_concat, hfree] at hwithin
    exact ⟨hwithin, hanimations, heffects⟩
  · rintro ⟨hwithin, hanimations, heffects⟩
    refine ⟨fun resource => ?_, hanimations, heffects⟩
    rw [spentOn_concat, hfree]
    exact hwithin resource

/-- What a list of descriptions says of an identifier. -/
lemma same_concat {σ : Type} {R : σ → σ → Prop} (es : List (ℕ × σ)) (id : ℕ) {v : σ}
    (hself : R v v) (hsymm : ∀ {a b}, R a b → R b a) (htrans : ∀ {a b c}, R a b → R b c → R a c) :
    (∀ a ∈ es ++ [(id, v)], ∀ b ∈ es ++ [(id, v)], a.1 = b.1 → R a.2 b.2) ↔
      (∀ a ∈ es, ∀ b ∈ es, a.1 = b.1 → R a.2 b.2) ∧
        ∀ e, (BTreeMap.ofList es).get id = some e → R e v := by
  constructor
  · intro h
    refine ⟨fun a ha b hb => h a (List.mem_append_left _ ha) b (List.mem_append_left _ hb),
      fun e he => ?_⟩
    exact h (id, e) (List.mem_append_left _ (mem_of_get_ofList he)) (id, v) (by simp) rfl
  · rintro ⟨h, hlast⟩
    -- all earlier descriptions of the identifier agree with the one in the map
    have hearlier : ∀ a ∈ es, a.1 = id → R a.2 v := by
      rintro ⟨_, w⟩ ha rfl
      obtain ⟨e, he⟩ := containsKey_ofList.mpr (List.mem_map_of_mem (f := Prod.fst) ha)
      exact htrans (h _ ha _ (mem_of_get_ofList he) rfl) (hlast e he)
    intro a ha b hb hab
    rcases List.mem_append.mp ha with ha | ha <;> rcases List.mem_append.mp hb with hb | hb
    · exact h a ha b hb hab
    · cases List.mem_singleton.mp hb
      exact hearlier a ha hab
    · cases List.mem_singleton.mp ha
      exact hsymm (hearlier b hb hab.symm)
    · cases List.mem_singleton.mp ha
      cases List.mem_singleton.mp hb
      exact hself

lemma animationsPass_concat {bindings : List (ℕ × AnimationSignature)} {id : ℕ}
    {signature : AnimationSignature} (hsound : signature.eq signature = true) :
    AnimationsPass input (bindings ++ [(id, signature)]) ↔
      AnimationsPass input bindings ∧
        (∀ e, (BTreeMap.ofList bindings).get id = some e → e.eq signature = true) ∧
        ((BTreeMap.ofList bindings).insert id signature).len ≤
          input.limits.maxAnimations.toNat := by
  have hsame := same_concat (R := fun a b => AnimationSignature.eq a b = true)
    bindings id hsound AnimationSignature.eq_symm AnimationSignature.eq_trans
  rw [← ofList_concat, len_ofList]
  constructor
  · rintro ⟨h, hcount⟩
    obtain ⟨hold, hlast⟩ := hsame.mp h
    refine ⟨⟨hold, le_trans (Finset.card_le_card ?_) hcount⟩, hlast, hcount⟩
    rw [List.map_append, List.toFinset_append]
    exact Finset.subset_union_left
  · rintro ⟨⟨hold, -⟩, hlast, hcount⟩
    exact ⟨hsame.mpr ⟨hold, hlast⟩, hcount⟩

lemma passes_animation {id : ℕ} {signature : AnimationSignature}
    (hsound : signature.eq signature = true) :
    Passes input effects (notes ++ [.animation id signature]) ↔
      Passes input effects notes ∧
        (∀ e, (BTreeMap.ofList (animationsOf notes)).get id = some e → e.eq signature = true) ∧
        ((BTreeMap.ofList (animationsOf notes)).insert id signature).len ≤
          input.limits.maxAnimations.toNat := by
  rw [passes_binding fun _ => rfl, animationsOf_animation, effectsOf_animation,
    animationsPass_concat hsound]
  constructor
  · rintro ⟨hwithin, ⟨hanimations, hlast⟩, heffects⟩
    exact ⟨⟨hwithin, hanimations, heffects⟩, hlast⟩
  · rintro ⟨⟨hwithin, hanimations, heffects⟩, hlast⟩
    exact ⟨hwithin, ⟨hanimations, hlast⟩, heffects⟩

lemma exists_program {r : EffectRegistry Program} {compile : String → Outcome String Program}
    {source : String} {maxPrograms : ℕ} :
    (∃ program programs, r.program compile source maxPrograms = ok (program, programs)) ↔
      (∃ program, r.programs.get source = some program) ∨
        (r.programs.get source = none ∧ r.programs.len < maxPrograms ∧
          ∃ program, compile source = ok program) := by
  simp only [EffectRegistry.program_eq_ok]
  constructor
  · rintro ⟨program, programs, ⟨hget, -⟩ | ⟨hnone, hlt, hcompile, -⟩⟩
    · exact .inl ⟨program, hget⟩
    · exact .inr ⟨hnone, hlt, program, hcompile⟩
  · rintro (⟨program, hget⟩ | ⟨hnone, hlt, program, hcompile⟩)
    · exact ⟨program, _, .inl ⟨hget, rfl⟩⟩
    · exact ⟨program, _, .inr ⟨hnone, hlt, hcompile, rfl⟩⟩

/-- The next program is there, or it can be made. -/
lemma programs_concat (r : EffectRegistry Program) (bindings : List (ℕ × EffectSignature))
    (a : ℕ × EffectSignature) (compile : String → Outcome String Program) (itemId : String)
    (now maxPrograms : ℕ) :
    ((∀ source ∈ r.newSources (bindings ++ [a]), ∃ program, compile source = ok program) ∧
        ((r.newSources (bindings ++ [a])).Nonempty →
          r.programs.len + (r.newSources (bindings ++ [a])).card ≤ maxPrograms)) ↔
      ((∀ source ∈ r.newSources bindings, ∃ program, compile source = ok program) ∧
        ((r.newSources bindings).Nonempty →
          r.programs.len + (r.newSources bindings).card ≤ maxPrograms)) ∧
      ∃ program programs, (r.bindAll compile itemId now bindings).program compile a.2.source
        maxPrograms = ok (program, programs) := by
  have hget := get_programs_bindAll compile r itemId now bindings a.2.source
  rw [exists_program, hget, newSources_concat]
  by_cases hold : r.programs.get a.2.source = none
  · rw [if_pos hold, hold]
    by_cases hmem : a.2.source ∈ r.newSources bindings
    · rw [if_pos hmem, Finset.insert_eq_of_mem hmem]
      refine (and_iff_left_of_imp fun h => .inl ?_).symm
      obtain ⟨program, hcompile⟩ := h.1 _ hmem
      exact ⟨program, by rw [hcompile]; rfl⟩
    · rw [if_neg hmem, Finset.forall_mem_insert, Finset.card_insert_of_notMem hmem]
      constructor
      · rintro ⟨⟨hcompile, hcompiles⟩, hcount⟩
        have hle := hcount (Finset.insert_nonempty _ _)
        refine ⟨⟨hcompiles, fun _ => by omega⟩, .inr ⟨rfl, ?_, hcompile⟩⟩
        rw [len_programs_bindAll hcompiles]
        omega
      · rintro ⟨⟨hcompiles, hcount⟩, ⟨program, h⟩ | ⟨-, hlt, hcompile⟩⟩
        · cases h
        · rw [len_programs_bindAll hcompiles] at hlt
          exact ⟨⟨hcompile, hcompiles⟩, fun _ => by omega⟩
  · have hmem : a.2.source ∉ r.newSources bindings := fun h => hold (mem_newSources.mp h).2
    rw [if_neg hold, if_neg hmem]
    exact (and_iff_left (.inl (Option.ne_none_iff_exists'.mp hold))).symm

lemma passes_effect {id : ℕ} {signature : EffectSignature} :
    Passes input effects (notes ++ [.effect id signature]) ↔
      Passes input effects notes ∧
        (∀ e, (BTreeMap.ofList (effectsOf notes)).get id = some e → e = signature) ∧
        ∃ program programs, (effects.bindAll input.compile input.itemId input.now
            (effectsOf notes)).program input.compile signature.source
              input.limits.maxEffectPrograms.toNat = ok (program, programs) := by
  have hsame := same_concat (R := fun a b : EffectSignature => a = b) (effectsOf notes) id
    (v := signature) rfl Eq.symm Eq.trans
  have hprograms := programs_concat effects (effectsOf notes) (id, signature) input.compile
    input.itemId input.now input.limits.maxEffectPrograms.toNat
  rw [passes_binding fun _ => rfl, animationsOf_effect, effectsOf_effect]
  constructor
  · rintro ⟨hwithin, hanimations, h, hcompiles, hcount⟩
    obtain ⟨hold, hlast⟩ := hsame.mp h
    obtain ⟨⟨hcompiles, hcount⟩, hprogram⟩ := hprograms.mp ⟨hcompiles, hcount⟩
    exact ⟨⟨hwithin, hanimations, hold, hcompiles, hcount⟩, hlast, hprogram⟩
  · rintro ⟨⟨hwithin, hanimations, hold, hcompiles, hcount⟩, hlast, hprogram⟩
    obtain ⟨hcompiles, hcount⟩ := hprograms.mpr ⟨⟨hcompiles, hcount⟩, hprogram⟩
    exact ⟨hwithin, hanimations, hsame.mpr ⟨hold, hlast⟩, hcompiles, hcount⟩

lemma settled_animation (id : ℕ) (signature : AnimationSignature) :
    { settled input animations effects notes with
      animationSignatures :=
        (settled input animations effects notes).animationSignatures.insert id signature
      animations := ((settled input animations effects notes).animations.bind input.itemId id
        signature input.now).2 } =
      settled input animations effects (notes ++ [.animation id signature]) := by
  simp only [settled, spentOn_concat, Note.cost, Nat.add_zero, animationsOf_animation,
    effectsOf_animation, ofList_concat, AnimationRegistry.bindAll, List.foldl_append,
    List.foldl_cons, List.foldl_nil]

lemma eq_learn {r : EffectRegistry Program} {compile : String → Outcome String Program}
    {source : String} {maxPrograms : ℕ} {program : Program} {programs : BTreeMap String Program}
    (h : r.program compile source maxPrograms = ok (program, programs)) :
    programs = EffectRegistry.learn compile r.programs source := by
  rw [EffectRegistry.learn]
  rcases EffectRegistry.program_eq_ok.mp h with ⟨hget, rfl⟩ | ⟨hnone, -, hcompile, rfl⟩
  · rw [hget]
  · rw [hnone, hcompile]

lemma settled_effect (id : ℕ) (signature : EffectSignature) :
    { settled input animations effects notes with
      effectSignatures :=
        (settled input animations effects notes).effectSignatures.insert id signature
      effects :=
        ⟨EffectRegistry.learn input.compile (settled input animations effects notes).effects.programs
            signature.source,
          (settled input animations effects notes).effects.entries.insert
            (toLex (input.itemId, id)) ⟨signature,
              (settled input animations effects notes).effects.startAt input.itemId id signature
                input.now⟩⟩ } =
      settled input animations effects (notes ++ [.effect id signature]) := by
  simp only [settled, spentOn_concat, Note.cost, Nat.add_zero, animationsOf_effect,
    effectsOf_effect, ofList_concat, bindAll_concat, EffectRegistry.bound]

/-- The notes pass exactly if their totals allow it. -/
theorem settle_new_eq_some_iff (hsound : ∀ note ∈ notes, note.Sound) :
    settle input notes (.new animations effects) = some s' ↔
      Passes input effects notes ∧ s' = settled input animations effects notes := by
  induction notes using List.reverseRecOn generalizing s' with
  | nil =>
    rw [settle_nil, Option.some.injEq, and_iff_right passes_nil]
    exact eq_comm
  | append_singleton notes note ih =>
    rw [List.forall_mem_append] at hsound
    simp only [settle_append, settle_singleton, ih hsound.1, and_assoc, exists_and_left,
      exists_eq_left]
    cases note with
    | pay resource amount =>
      rw [enter, used_settled, passes_pay, and_assoc, ← settled_pay]
      refine and_congr_right fun _ => ?_
      split_ifs with hle
      · rw [Option.some.injEq, and_iff_right hle]
        exact eq_comm
      · simp [hle]
    | animation id signature =>
      have hself : signature.eq signature = true := hsound.2 _ (List.mem_singleton_self _)
      rw [enter_animation, passes_animation hself, settled_animation, and_assoc, and_assoc]
      rfl
    | effect id signature =>
      rw [enter_effect, passes_effect, and_assoc, and_assoc]
      refine and_congr_right fun _ => and_congr_right fun _ => ?_
      constructor
      · rintro ⟨program, programs, hprogram, rfl⟩
        refine ⟨⟨program, programs, hprogram⟩, ?_⟩
        rw [eq_learn hprogram]
        exact settled_effect id signature
      · rintro ⟨⟨program, programs, hprogram⟩, rfl⟩
        refine ⟨program, programs, hprogram, ?_⟩
        rw [eq_learn hprogram]
        exact (settled_effect id signature).symm

end Concat

end TouchBar.View
