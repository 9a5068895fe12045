import TouchBar.Lib.Arena
import TouchBar.View.Totals

/-!
# Views as trees

A view is decoded exactly if its arena unfolds from the root to a tree of bounded depth, all
nodes of the tree are valid, and what they note passes.  The result is then the tree with each
node replaced by that of the host.  A node that is referred to twice is in the tree twice, and
no finite tree is refused for a cycle.
-/

namespace TouchBar.View

open TouchBar.Rust TouchBar.Lib Outcome

variable {Image Program : Type} (input : DecoderInput Image Program)

/-- The index unfolds to the tree, within the levels. -/
def Unfolds (levels index : ℕ) (t : RoseTree Wit.Node) : Prop :=
  unfold (fun i => input.nodes[i]?) Wit.Node.children levels index = some t

def nodeNotes (v : Wit.Node) : List Note := .pay .nodes 1 :: v.notes input

/-- What a tree notes, node by node. -/
def treeNotes (t : RoseTree Wit.Node) : List Note := t.preorder.flatMap (nodeNotes input)

def treesNotes (ts : List (RoseTree Wit.Node)) : List Note :=
  (RoseTree.preorderList ts).flatMap (nodeNotes input)

/-- The nodes of the host for a tree, with the starts and programs that a state has. -/
def shown (s : ViewDecoder Program) (t : RoseTree Wit.Node) : UiNode Image Program :=
  t.fold fun v kids => v.build input s.animations s.effects kids

def shownList (s : ViewDecoder Program) (ts : List (RoseTree Wit.Node)) :
    List (UiNode Image Program) :=
  RoseTree.foldList (fun v kids => v.build input s.animations s.effects kids) ts

variable {input} {s s' s'' : ViewDecoder Program} {levels index : ℕ}

lemma treeNotes_node (v : Wit.Node) (ts : List (RoseTree Wit.Node)) :
    treeNotes input (.node v ts) = nodeNotes input v ++ treesNotes input ts := by
  rw [treeNotes, RoseTree.preorder, List.flatMap_cons]
  rfl

lemma treesNotes_cons (t : RoseTree Wit.Node) (ts : List (RoseTree Wit.Node)) :
    treesNotes input (t :: ts) = treeNotes input t ++ treesNotes input ts := by
  rw [treesNotes, RoseTree.preorderList, List.flatMap_append]
  rfl

lemma treesNotes_singleton (t : RoseTree Wit.Node) : treesNotes input [t] = treeNotes input t := by
  rw [treesNotes_cons]
  exact List.append_nil _

/-- What a node becomes depends only on what it has bound. -/
lemma build_congr {v : Wit.Node} (kids : List (UiNode Image Program)) {s₀ : ViewDecoder Program}
    (hnotes : settle input (v.notes input) s₀ = some s) (hkeeps : Keeps input s s') :
    v.build input s.animations s.effects kids = v.build input s'.animations s'.effects kids := by
  cases v with
  | motion m =>
    rw [Wit.Node.notes, settle_singleton] at hnotes
    obtain ⟨-, -, rfl⟩ := enter_animation.mp hnotes
    obtain ⟨-, hentry⟩ := hkeeps.animations m.animationId m.signature
      (by rw [BTreeMap.get_insert, if_pos rfl])
    simp only [Wit.Node.build, AnimationRegistry.startOf, hentry]
  | shaderEffect e =>
    obtain ⟨s₁, -, hlast⟩ := (settle_append [_, _] [_]).mp hnotes
    rw [settle_singleton] at hlast
    obtain ⟨program, hprogram⟩ := get_program_of_enter hlast
    obtain ⟨-, p, programs, -, rfl⟩ := enter_effect.mp hlast
    obtain ⟨-, hentry⟩ := hkeeps.effects e.effectId ⟨e.source, e.period⟩
      (by rw [BTreeMap.get_insert, if_pos rfl])
    have hkept := hkeeps.programs e.source program hprogram
    simp only [Wit.Node.build, EffectRegistry.startOf, hentry, hkept, hprogram]
  | _ => rfl

lemma remove_insert {V : BTreeSet ℕ} (h : index ∉ V) : (V.insert index).remove index = V := by
  refine BTreeSet.ext_toList (List.Pairwise.eq_of_mem_iff (BTreeSet.sorted _) V.sorted fun j => ?_)
  change j ∈ (V.insert index).remove index ↔ j ∈ V
  rw [BTreeSet.mem_remove, BTreeSet.mem_insert]
  constructor
  · rintro ⟨rfl | hj, hne⟩
    · exact absurd rfl hne
    · exact hj
  · intro hj
    exact ⟨.inr hj, fun heq => h (heq ▸ hj)⟩

lemma sound_treesNotes {ts : List (RoseTree Wit.Node)}
    (h : ∀ v ∈ RoseTree.preorderList ts, v.Valid input) :
    ∀ note ∈ treesNotes input ts, note.Sound := by
  intro note hmem
  obtain ⟨v, hv, hnote⟩ := List.mem_flatMap.mp hmem
  rcases List.mem_cons.mp hnote with rfl | hnote
  · trivial
  · exact (h v hv).sound note hnote

/-- A turn of the decoder: it counts the node, visits its index, and leaves it at the end. -/
lemma node_succ_eq_ok {ui : UiNode Image Program} :
    node input (levels + 1) index s = ok (ui, s') ↔
      ∃ v s₁ s₂, input.nodes[index]? = some v ∧ index ∉ s.visiting ∧
        enter input s (.pay .nodes 1) = some s₁ ∧
        decodeNode input (node input levels) v
          { s₁ with visiting := s.visiting.insert index } = ok (ui, s₂) ∧
        s' = { s₂ with visiting := s₂.visiting.remove index } := by
  rw [node, bind_eq_ok_iff]
  constructor
  · rintro ⟨u, s₁, hcount, h⟩
    obtain ⟨-, s₁', hnote, -, rfl⟩ := (does_countNode s u s₁).mp hcount
    have hvisiting := visiting_of_settle hnote
    rw [settle_singleton] at hnote
    cases hget : input.nodes[index]? with
    | none =>
      rw [hget] at h
      cases h
    | some v =>
      rw [hget] at h
      simp only [bind_eq_ok_iff] at h
      obtain ⟨_, s₂, hvisit, decoded, s₃, hdecode, _, s₄, hleave, hpure⟩ := h
      rw [visit, hvisiting] at hvisit
      split_ifs at hvisit with hmem
      cases hvisit
      cases hleave
      cases hpure
      exact ⟨v, s₁, s₃, rfl, fun h => hmem (BTreeSet.contains_iff.mpr h), hnote, hdecode, rfl⟩
  · rintro ⟨v, s₁, s₂, hget, hnew, hnote, hdecode, rfl⟩
    rw [← settle_singleton] at hnote
    have hcount := (does_countNode s () s₁).mpr ⟨trivial, s₁, hnote, rfl, rfl⟩
    refine ⟨(), s₁, hcount, ?_⟩
    rw [hget]
    simp only [bind_eq_ok_iff]
    have hvisit : visit index s₁ =
        ok ((), { s₁ with visiting := s.visiting.insert index }) := by
      rw [visit, visiting_of_settle hnote, if_neg (mt BTreeSet.contains_iff.mp hnew)]
    exact ⟨(), _, hvisit, ui, s₂, hdecode, (), _, rfl, rfl⟩

/-! ## A view that is decoded -/

variable (input) in
/-- What the decoder has done when it returns. -/
structure Decoded (s : ViewDecoder Program) (ts : List (RoseTree Wit.Node))
    (uis : List (UiNode Image Program)) (s' : ViewDecoder Program) : Prop where
  valid : ∀ v ∈ RoseTree.preorderList ts, v.Valid input
  settled : settle input (treesNotes input ts) s = some s'
  bound : Bound input s'
  keeps : Keeps input s s'
  shown : ∀ s'', Keeps input s' s'' → uis = shownList input s'' ts

lemma Decoded.nil (hs : Bound input s) : Decoded input s [] [] s where
  valid _ h := by cases h
  settled := rfl
  bound := hs
  keeps := Keeps.refl s
  shown _ _ := rfl

lemma Decoded.cons {s₁ : ViewDecoder Program} {t : RoseTree Wit.Node}
    {ts : List (RoseTree Wit.Node)} {ui : UiNode Image Program} {uis : List (UiNode Image Program)}
    (h : Decoded input s [t] [ui] s₁) (h' : Decoded input s₁ ts uis s') :
    Decoded input s (t :: ts) (ui :: uis) s' where
  valid v hv := by
    rw [RoseTree.preorderList, List.mem_append] at hv
    rcases hv with hv | hv
    · exact h.valid v (by rw [RoseTree.preorderList, List.mem_append]; exact .inl hv)
    · exact h'.valid v hv
  settled := by
    have hsettled := h.settled
    rw [treesNotes_singleton] at hsettled
    rw [treesNotes_cons]
    exact (settle_append _ _).mpr ⟨s₁, hsettled, h'.settled⟩
  bound := h'.bound
  keeps := h.keeps.trans h'.keeps
  shown s'' hkeeps := by
    have hui := h.shown s'' (h'.keeps.trans hkeeps)
    have huis := h'.shown s'' hkeeps
    rw [huis]
    exact congrArg (· ++ shownList input s'' ts) hui

/-- The children are decoded in turn. -/
lemma decoded_of_mapM {child : ℕ → Decode Program (UiNode Image Program)}
    (hchild : ∀ {index s ui s'}, Bound input s → child index s = ok (ui, s') →
      ∃ t, Unfolds input levels index t ∧ Decoded input s [t] [ui] s')
    {indices : List ℕ} {uis : List (UiNode Image Program)} (hs : Bound input s)
    (h : (indices.mapM child) s = ok (uis, s')) :
    ∃ ts, List.Forall₂ (Unfolds input levels) indices ts ∧ Decoded input s ts uis s' := by
  induction indices generalizing s uis with
  | nil =>
    rw [List.mapM_nil] at h
    cases h
    exact ⟨[], .nil, Decoded.nil hs⟩
  | cons index indices ih =>
    rw [List.mapM_cons] at h
    simp only [bind_eq_ok_iff] at h
    obtain ⟨ui, s₁, hui, rest, s₂, hrest, hpure⟩ := h
    cases hpure
    obtain ⟨t, hunfold, hdecoded⟩ := hchild hs hui
    obtain ⟨ts, hunfolds, hdecodeds⟩ := ih hdecoded.bound hrest
    exact ⟨t :: ts, .cons hunfold hunfolds, hdecoded.cons hdecodeds⟩

/-- The notes of a node pass while its index is visited. -/
lemma settle_node {v : Wit.Node} {ts : List (RoseTree Wit.Node)} {s₁ : ViewDecoder Program}
    (hcount : enter input s (.pay .nodes 1) = some s₁) :
    settle input (treeNotes input (.node v ts)) s = some s' ↔
      ∃ s₂, settle input (v.notes input ++ treesNotes input ts)
          { s₁ with visiting := s.visiting.insert index } = some s₂ ∧
        s' = { s₂ with visiting := s.visiting } := by
  have hvisiting : s₁.visiting = s.visiting := by
    rw [← settle_singleton] at hcount
    exact visiting_of_settle hcount
  have hfirst : settle input (treeNotes input (.node v ts)) s =
      settle input (v.notes input ++ treesNotes input ts) s₁ := by
    rw [treeNotes_node, nodeNotes, List.cons_append, settle, List.foldlM_cons, hcount]
    rfl
  rw [hfirst, settle_visiting (s := s₁) _ (s.visiting.insert index)]
  constructor
  · intro h
    rw [h]
    refine ⟨_, rfl, ?_⟩
    rw [← hvisiting, ← visiting_of_settle h]
  · rintro ⟨s₂, h, rfl⟩
    obtain ⟨s₃, h₃, rfl⟩ := Option.map_eq_some_iff.mp h
    rw [h₃, ← hvisiting, ← visiting_of_settle h₃]

theorem decoded_of_node {ui : UiNode Image Program} (hs : Bound input s)
    (h : node input levels index s = ok (ui, s')) :
    ∃ t, Unfolds input levels index t ∧ Decoded input s [t] [ui] s' := by
  induction levels generalizing index s ui s' with
  | zero => cases h
  | succ levels ih =>
    obtain ⟨v, s₁, s₂, hget, hnew, hcount, hdecode, rfl⟩ := node_succ_eq_ok.mp h
    obtain ⟨hvalid, s₃, hnotes, kids, hkids, rfl⟩ := (does_decodeNode v _ _ _).mp hdecode
    have hs₁ : Bound input { s₁ with visiting := s.visiting.insert index } :=
      have hsound : Note.Sound (.pay .nodes 1) := trivial
      have hbound := (hs.enter hsound hcount).1
      ⟨hbound.animations, hbound.effects⟩
    obtain ⟨hs₃, -⟩ := hs₁.settle hvalid.sound hnotes
    obtain ⟨ts, hunfolds, hdecoded⟩ := decoded_of_mapM ih hs₃ hkids
    have hall := (settle_append _ _).mpr ⟨s₃, hnotes, hdecoded.settled⟩
    have hvisiting : s₂.visiting.remove index = s.visiting := by
      rw [visiting_of_settle hall]
      exact remove_insert hnew
    have hvalids : ∀ w ∈ RoseTree.preorderList [RoseTree.node v ts], w.Valid input := by
      intro w hw
      rw [RoseTree.preorderList, RoseTree.preorderList, List.append_nil, RoseTree.preorder,
        List.mem_cons] at hw
      rcases hw with rfl | hw
      · exact hvalid
      · exact hdecoded.valid w hw
    have hsettled : settle input (treesNotes input [.node v ts]) s =
        some { s₂ with visiting := s₂.visiting.remove index } := by
      rw [treesNotes_singleton, hvisiting]
      exact (settle_node hcount).mpr ⟨s₂, hall, rfl⟩
    refine ⟨.node v ts, unfold_succ_eq_some.mpr ⟨v, ts, hget, hunfolds, rfl⟩, hvalids, hsettled,
      ⟨hdecoded.bound.animations, hdecoded.bound.effects⟩,
      (hs.settle (sound_treesNotes hvalids) hsettled).2, fun s'' hkeeps => ?_⟩
    have hkeeps₂ : Keeps input s₂ s'' := ⟨hkeeps.animations, hkeeps.effects, hkeeps.programs⟩
    have hbuild := build_congr kids hnotes (hdecoded.keeps.trans hkeeps₂)
    rw [hbuild, hdecoded.shown s'' hkeeps₂]
    rfl

/-! ## A view that unfolds -/

/-- The indices that are visited unfold to more than the tree. -/
def Above (input : DecoderInput Image Program) (s : ViewDecoder Program)
    (t : RoseTree Wit.Node) : Prop :=
  ∀ i ∈ s.visiting, Larger (fun i => input.nodes[i]?) Wit.Node.children t i

lemma mapM_of_unfolds {child : ℕ → Decode Program (UiNode Image Program)}
    (hchild : ∀ {index t s s'}, Unfolds input levels index t → (∀ v ∈ t.preorder, v.Valid input) →
      settle input (treeNotes input t) s = some s' → Above input s t →
        ∃ ui, child index s = ok (ui, s'))
    {indices : List ℕ} {ts : List (RoseTree Wit.Node)}
    (h : List.Forall₂ (Unfolds input levels) indices ts)
    (hvalid : ∀ v ∈ RoseTree.preorderList ts, v.Valid input)
    (hsettle : settle input (treesNotes input ts) s = some s')
    (habove : ∀ t ∈ ts, Above input s t) :
    ∃ uis, (indices.mapM child) s = ok (uis, s') := by
  induction h generalizing s with
  | nil =>
    cases hsettle
    exact ⟨[], rfl⟩
  | cons hunfold _ ih =>
    rw [RoseTree.preorderList, List.forall_mem_append] at hvalid
    rw [treesNotes_cons] at hsettle
    obtain ⟨s₁, hfirst, hrest⟩ := (settle_append _ _).mp hsettle
    rw [List.forall_mem_cons] at habove
    obtain ⟨ui, hui⟩ := hchild hunfold hvalid.1 hfirst habove.1
    obtain ⟨uis, huis⟩ := ih hvalid.2 hrest fun t ht i hi => by
      rw [visiting_of_settle hfirst] at hi
      exact habove.2 t ht i hi
    refine ⟨ui :: uis, ?_⟩
    rw [List.mapM_cons]
    simp only [bind_eq_ok_iff]
    exact ⟨ui, s₁, hui, uis, s', huis, rfl⟩

/-- An index that unfolds is decoded; in particular it is not below itself. -/
theorem node_of_unfolds {t : RoseTree Wit.Node} (h : Unfolds input levels index t)
    (hvalid : ∀ v ∈ t.preorder, v.Valid input)
    (hsettle : settle input (treeNotes input t) s = some s') (habove : Above input s t) :
    ∃ ui, node input levels index s = ok (ui, s') := by
  induction levels generalizing index t s s' with
  | zero => cases h
  | succ levels ih =>
    obtain ⟨v, ts, hget, hunfolds, rfl⟩ := unfold_succ_eq_some.mp h
    have hnew : index ∉ s.visiting := fun hmem => not_larger h (habove index hmem)
    rw [RoseTree.preorder, List.forall_mem_cons] at hvalid
    -- the count of the node is the first of its notes
    have hcount : ∃ s₁, enter input s (.pay .nodes 1) = some s₁ := by
      rw [treeNotes_node, nodeNotes, List.cons_append] at hsettle
      obtain ⟨s₁, hfirst, -⟩ := (settle_append [.pay .nodes 1] _).mp hsettle
      exact ⟨s₁, by rwa [settle_singleton] at hfirst⟩
    obtain ⟨s₁, hcount⟩ := hcount
    obtain ⟨s₂, hall, rfl⟩ := (settle_node hcount).mp hsettle
    obtain ⟨s₃, hnotes, hrest⟩ := (settle_append _ _).mp hall
    have habove' : ∀ t ∈ ts, Above input s₃ t := by
      intro t ht i hi
      rw [visiting_of_settle hnotes] at hi
      rcases BTreeSet.mem_insert.mp hi with rfl | hi
      · exact larger_of_mem h ht
      · exact (habove i hi).child ht
    obtain ⟨kids, hkids⟩ := mapM_of_unfolds ih hunfolds hvalid.2 hrest habove'
    have hdecode := (does_decodeNode v _ _ _).mpr
      ⟨hvalid.1, s₃, hnotes, kids, hkids, rfl⟩
    refine ⟨_, node_succ_eq_ok.mpr ⟨v, s₁, s₂, hget, hnew, hcount, hdecode, ?_⟩⟩
    rw [visiting_of_settle hall, remove_insert hnew]

/-! ## Whole views -/

variable {animations animations' : AnimationRegistry} {effects effects' : EffectRegistry Program}

lemma mem_keys_ofList {κ ν : Type} [LinearOrder κ] {es : List (κ × ν)} {k : κ} :
    k ∈ (BTreeMap.ofList es).keys ↔ k ∈ es.map Prod.fst := by
  rw [BTreeMap.mem_keys_iff, containsKey_ofList]

/-- What is retained is still there. -/
lemma keeps_retain (s : ViewDecoder Program) :
    Keeps input s { s with
      animations := s.animations.retainItem input.itemId s.animationSignatures.keys
      effects := s.effects.retainItem input.itemId s.effectSignatures.keys } where
  animations id signature hget := by
    refine ⟨⟨_, hget⟩, ?_⟩
    dsimp only [AnimationRegistry.retainItem]
    rw [BTreeMap.get_retain, if_pos]
    simp [BTreeMap.mem_keys_iff.mpr ⟨_, hget⟩]
  effects id signature hget := by
    refine ⟨hget, ?_⟩
    dsimp only [EffectRegistry.retainItem]
    rw [BTreeMap.get_retain, if_pos]
    simp [BTreeMap.mem_keys_iff.mpr ⟨_, hget⟩]
  programs _ _ hget := hget

lemma bound_new : Bound input (.new animations effects) where
  animations _ _ h := by cases h
  effects _ _ h := by cases h

lemma preorderList_singleton (t : RoseTree Wit.Node) :
    RoseTree.preorderList [t] = t.preorder := by
  rw [RoseTree.preorderList, RoseTree.preorderList, List.append_nil]

lemma node_new_spec {ui : UiNode Image Program}
    (h : node input levels index (.new animations effects) = ok (ui, s')) :
    ∃ t, Unfolds input levels index t ∧ (∀ v ∈ t.preorder, v.Valid input) ∧
      Passes input effects (treeNotes input t) ∧
      s' = settled input animations effects (treeNotes input t) ∧
      ∀ s'', Keeps input s' s'' → ui = shown input s'' t := by
  obtain ⟨t, hunfold, hdecoded⟩ := decoded_of_node bound_new h
  have hsound := sound_treesNotes hdecoded.valid
  have hsettled := hdecoded.settled
  rw [treesNotes_singleton] at hsound hsettled
  obtain ⟨hpasses, hs'⟩ := (settle_new_eq_some_iff hsound).mp hsettled
  exact ⟨t, hunfold, preorderList_singleton t ▸ hdecoded.valid, hpasses, hs',
    fun s'' hkeeps => (List.cons.inj (hdecoded.shown s'' hkeeps)).1⟩

variable (animations) in
lemma node_new_returns {t : RoseTree Wit.Node} (hunfold : Unfolds input levels index t)
    (hvalid : ∀ v ∈ t.preorder, v.Valid input) (hpasses : Passes input effects (treeNotes input t)) :
    ∃ ui, node input levels index (.new animations effects) =
        ok (ui, settled input animations effects (treeNotes input t)) ∧
      ∀ s'', Keeps input (settled input animations effects (treeNotes input t)) s'' →
        ui = shown input s'' t := by
  have hsound : ∀ note ∈ treeNotes input t, note.Sound := by
    rw [← treesNotes_singleton]
    exact sound_treesNotes ((preorderList_singleton t).symm ▸ hvalid)
  have hsettled : settle input (treeNotes input t) (.new animations effects) = _ :=
    (settle_new_eq_some_iff hsound).mpr ⟨hpasses, rfl⟩
  obtain ⟨ui, hnode⟩ := node_of_unfolds hunfold hvalid hsettled fun _ hi => by cases hi
  -- the tree of the index is the only one
  obtain ⟨t', hunfold', -, -, -, hui⟩ := node_new_spec hnode
  cases unfold_unique hunfold hunfold'
  exact ⟨ui, hnode, hui⟩

/-- A view is decoded exactly if it unfolds to a tree of valid nodes whose notes pass. -/
theorem decode_eq_ok_iff {root : ℕ} {ui : UiNode Image Program} :
    decode input root animations effects = ok (ui, animations', effects') ↔
      input.nodes.length ≤ input.limits.maxNodes.toNat ∧
      ∃ t, Unfolds input (input.limits.maxTreeDepth.toNat + 1) root t ∧
        (∀ v ∈ t.preorder, v.Valid input) ∧ Passes input effects (treeNotes input t) ∧
        animations' = (animations.bindAll input.itemId input.now
          (animationsOf (treeNotes input t))).retainItem input.itemId
            ((animationsOf (treeNotes input t)).map Prod.fst) ∧
        effects' = (effects.bindAll input.compile input.itemId input.now
          (effectsOf (treeNotes input t))).retainItem input.itemId
            ((effectsOf (treeNotes input t)).map Prod.fst) ∧
        ui = t.fold fun v kids => v.build input animations' effects' kids := by
  rw [decode]
  split_ifs with hempty hmany
  · rw [List.isEmpty_iff] at hempty
    simp only [false_iff, not_and, not_exists]
    intro _ t hunfold
    obtain ⟨v, ts, hget, -⟩ := unfold_succ_eq_some.mp hunfold
    rw [hempty] at hget
    cases hget
  · simp only [false_iff, not_and]
    omega
  · rw [and_iff_right (not_lt.mp hmany), bind_eq_ok]
    have hanimations : ∀ t, (settled input animations effects
        (treeNotes input t)).animations.retainItem input.itemId
          (settled input animations effects (treeNotes input t)).animationSignatures.keys =
        (animations.bindAll input.itemId input.now (animationsOf (treeNotes input t))).retainItem
          input.itemId ((animationsOf (treeNotes input t)).map Prod.fst) :=
      fun t => by
        simp only [AnimationRegistry.retainItem, settled, List.contains_eq_mem, mem_keys_ofList]
    have heffects : ∀ t, (settled input animations effects
        (treeNotes input t)).effects.retainItem input.itemId
          (settled input animations effects (treeNotes input t)).effectSignatures.keys =
        (effects.bindAll input.compile input.itemId input.now
          (effectsOf (treeNotes input t))).retainItem input.itemId
            ((effectsOf (treeNotes input t)).map Prod.fst) :=
      fun t => by
        simp only [EffectRegistry.retainItem, settled, List.contains_eq_mem, mem_keys_ofList]
    constructor
    · rintro ⟨⟨ui', s⟩, hnode, h⟩
      cases h
      obtain ⟨t, hunfold, hvalid, hpasses, rfl, hui⟩ := node_new_spec hnode
      exact ⟨t, hunfold, hvalid, hpasses, hanimations t, heffects t, hui _ (keeps_retain _)⟩
    · rintro ⟨t, hunfold, hvalid, hpasses, rfl, rfl, rfl⟩
      obtain ⟨ui, hnode, hui⟩ := node_new_returns animations hunfold hvalid hpasses
      refine ⟨_, hnode, ?_⟩
      rw [← hanimations t, ← heffects t, hui _ (keeps_retain _)]
      rfl

end TouchBar.View
