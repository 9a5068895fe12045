import TouchBar.Lib.Since
import TouchBar.View.Unfolding

/-!
# Renders of a plugin

A host renders the items of its component again and again.  A render that fails leaves the
registries alone.  Over any sequence of renders an animation runs from the first of the renders
of its item that have shown it with the same description, without a break, up to now.
-/

namespace TouchBar.View

open TouchBar.Rust TouchBar.Lib Outcome

variable {Image Program : Type}

/-- The fields of a `PluginHost` that a render uses. -/
structure PluginHost (Image Program : Type) where
  limits : HostLimits
  assets : String → Option Image
  compile : String → Outcome String Program
  arithmetic : Arithmetic
  animations : AnimationRegistry
  effects : EffectRegistry Program

/-- A call of `render_at`, with the view that the component returns, if it returns one. -/
structure RenderCall where
  itemId : String
  now : ℕ
  view : Option (List Wit.Node × ℕ)

namespace PluginHost

def new (limits : HostLimits) (assets : String → Option Image)
    (compile : String → Outcome String Program) (arithmetic : Arithmetic) :
    PluginHost Image Program :=
  ⟨limits, assets, compile, arithmetic, .default, .default⟩

def input (host : PluginHost Image Program) (call : RenderCall) (nodes : List Wit.Node) :
    DecoderInput Image Program :=
  ⟨nodes, host.limits, call.itemId, call.now, host.assets, host.compile, host.arithmetic⟩

def renderAt (host : PluginHost Image Program) (call : RenderCall) :
    Outcome String (UiNode Image Program) × PluginHost Image Program :=
  match call.view with
  | none => (err "component render call failed", host)
  | some (nodes, root) =>
    match decode (host.input call nodes) root host.animations host.effects with
    | ok (ui, animations, effects) =>
      (ok ui, { host with
        animations := animations
        effects := effects })
    | err message => (err message, host)
    | .panic => (.panic, host)

/-- The host after some renders. -/
def after (host : PluginHost Image Program) (calls : List RenderCall) : PluginHost Image Program :=
  calls.foldl (fun host call => (host.renderAt call).2) host

/-- The tree of the view that the component returns. -/
def tree (host : PluginHost Image Program) (call : RenderCall) : Option (RoseTree Wit.Node) := do
  let (nodes, root) ← call.view
  unfold (fun i => nodes[i]?) Wit.Node.children (host.limits.maxTreeDepth.toNat + 1) root

/-- What the view notes. -/
def notes (host : PluginHost Image Program) (call : RenderCall) : List Note :=
  match host.tree call with
  | some t => treeNotes (host.input call []) t
  | none => []

/-- What renders of an item have shown of an identifier; a render that fails shows nothing. -/
def sightings {σ : Type} (bindingsOf : List Note → List (ℕ × σ)) (itemId : String) (id : ℕ) :
    PluginHost Image Program → List RenderCall → List (Sighting σ ℕ)
  | _, [] => []
  | host, call :: calls =>
    let (result, host') := host.renderAt call
    if call.itemId = itemId ∧ result.isOk = true then
      ⟨(bindingsOf (host.notes call)).lookup id, call.now⟩ ::
        sightings bindingsOf itemId id host' calls
    else sightings bindingsOf itemId id host' calls

end PluginHost

/-! ## Registries after a view -/

section Registries

variable {itemId : String} {now : ℕ}

/-- What a registry remembers. -/
def AnimationRegistry.entry (r : AnimationRegistry) (itemId : String) (id : ℕ) :
    Option (AnimationSignature × ℕ) :=
  (r.entries.get (toLex (itemId, id))).map fun state => (state.signature, state.started)

def EffectRegistry.entry (r : EffectRegistry Program) (itemId : String) (id : ℕ) :
    Option (EffectSignature × ℕ) :=
  (r.entries.get (toLex (itemId, id))).map fun state => (state.signature, state.started)

lemma entry_bindAnimation (item itemId : String) (id now : ℕ) (r : AnimationRegistry)
    (a : ℕ × AnimationSignature) :
    (r.bind itemId a.1 a.2 now).2.entry item id =
      if item = itemId ∧ id = a.1 then
        observe AnimationSignature.eq (r.entry item id) ⟨some a.2, now⟩
      else r.entry item id := by
  rw [AnimationRegistry.entry, get_bind]
  simp only [toLex_inj, Prod.mk.injEq]
  split_ifs with hkey
  · rw [AnimationRegistry.entry]
    cases r.entries.get (toLex (item, id)) with
    | none => rfl
    | some state =>
      simp only [observe, Option.map_some, Option.filter_some]
      split_ifs <;> rfl
  · rfl

/-- What the registry of the animations remembers after a view. -/
lemma entry_animations (r : AnimationRegistry) (item : String) (id : ℕ)
    {bindings : List (ℕ × AnimationSignature)}
    (hsame : ∀ a ∈ bindings, ∀ b ∈ bindings, a.1 = b.1 → a.2.eq b.2 = true) :
    ((r.bindAll itemId now bindings).retainItem itemId (bindings.map Prod.fst)).entry item id =
      if item = itemId then
        observe AnimationSignature.eq (r.entry item id) ⟨bindings.lookup id, now⟩
      else r.entry item id := by
  have hretain : ∀ r : AnimationRegistry,
      (r.retainItem itemId (bindings.map Prod.fst)).entry item id =
        if item = itemId ∧ id ∉ bindings.map Prod.fst then none else r.entry item id := by
    intro r
    rw [AnimationRegistry.entry]
    dsimp only [AnimationRegistry.retainItem]
    rw [BTreeMap.get_retain]
    by_cases hitem : item = itemId <;> by_cases hid : id ∈ bindings.map Prod.fst <;>
      simp [hitem, hid, AnimationRegistry.entry]
  exact entry_view (R := AnimationSignature.eq) (fun r : AnimationRegistry => r.entry item id)
    (fun r a => (r.bind itemId a.1 a.2 now).2)
    (fun r => r.retainItem itemId (bindings.map Prod.fst)) AnimationSignature.eq_trans
    (entry_bindAnimation item itemId id now) hretain hsame r

variable (compile : String → Outcome String Program)

lemma entry_bindEffect (item itemId : String) (id now : ℕ) (r : EffectRegistry Program)
    (a : ℕ × EffectSignature) :
    (r.bound compile itemId now a).entry item id =
      if item = itemId ∧ id = a.1 then
        observe (fun s t => decide (s = t)) (r.entry item id) ⟨some a.2, now⟩
      else r.entry item id := by
  rw [EffectRegistry.entry]
  dsimp only [EffectRegistry.bound]
  rw [BTreeMap.get_insert]
  simp only [toLex_inj, Prod.mk.injEq]
  split_ifs with hkey
  · obtain ⟨rfl, rfl⟩ := hkey
    rw [EffectRegistry.entry, EffectRegistry.startAt]
    cases r.entries.get (toLex (item, a.1)) with
    | none => rfl
    | some state =>
      simp only [observe, Option.map_some, Option.filter_some]
      by_cases hsame : state.signature = a.2
      · simp [hsame]
      · simp [hsame]
  · rfl

lemma entry_effects (r : EffectRegistry Program) (item : String) (id : ℕ)
    {bindings : List (ℕ × EffectSignature)}
    (hsame : ∀ a ∈ bindings, ∀ b ∈ bindings, a.1 = b.1 → a.2 = b.2) :
    ((r.bindAll compile itemId now bindings).retainItem itemId (bindings.map Prod.fst)).entry
        item id =
      if item = itemId then
        observe (fun s t => decide (s = t)) (r.entry item id) ⟨bindings.lookup id, now⟩
      else r.entry item id := by
  have hretain : ∀ r : EffectRegistry Program,
      (r.retainItem itemId (bindings.map Prod.fst)).entry item id =
        if item = itemId ∧ id ∉ bindings.map Prod.fst then none else r.entry item id := by
    intro r
    rw [EffectRegistry.entry]
    dsimp only [EffectRegistry.retainItem]
    rw [BTreeMap.get_retain]
    by_cases hitem : item = itemId <;> by_cases hid : id ∈ bindings.map Prod.fst <;>
      simp [hitem, hid, EffectRegistry.entry]
  exact entry_view (fun r : EffectRegistry Program => r.entry item id)
    (fun r => r.bound compile itemId now) (fun r => r.retainItem itemId (bindings.map Prod.fst))
    (fun h h' => decide_eq_true ((of_decide_eq_true h).trans (of_decide_eq_true h')))
    (entry_bindEffect compile item itemId id now) hretain
    (fun a ha b hb hab => decide_eq_true (hsame a ha b hb hab)) r

end Registries

/-! ## Runs of renders -/

namespace PluginHost

variable {host host' : PluginHost Image Program} {call : RenderCall} {calls : List RenderCall}

/-- The notes of a tree do not depend on the arena. -/
lemma treeNotes_input {nodes : List Wit.Node} (t : RoseTree Wit.Node) :
    treeNotes (host.input call []) t = treeNotes (host.input call nodes) t := by
  have hnode : nodeNotes (host.input call []) = nodeNotes (host.input call nodes) := by
    funext v
    cases v <;> rfl
  rw [treeNotes, hnode, treeNotes]

variable (host call) in
/-- What a render does to the registries. -/
lemma renderAt_spec :
    ((host.renderAt call).1.isOk = false ∧ (host.renderAt call).2 = host) ∨
    ∃ nodes root t ui, call.view = some (nodes, root) ∧ host.tree call = some t ∧
      (∀ v ∈ t.preorder, v.Valid (host.input call nodes)) ∧
      Passes (host.input call nodes) host.effects (host.notes call) ∧
      (host.renderAt call).1 = ok ui ∧
      (host.renderAt call).2 = { host with
        animations := (host.animations.bindAll call.itemId call.now
          (animationsOf (host.notes call))).retainItem call.itemId
            ((animationsOf (host.notes call)).map Prod.fst)
        effects := (host.effects.bindAll host.compile call.itemId call.now
          (effectsOf (host.notes call))).retainItem call.itemId
            ((effectsOf (host.notes call)).map Prod.fst) } ∧
      ui = t.fold fun v kids => v.build (host.input call nodes) (host.renderAt call).2.animations
        (host.renderAt call).2.effects kids := by
  rw [renderAt]
  cases hview : call.view with
  | none => exact .inl ⟨rfl, rfl⟩
  | some view =>
    obtain ⟨nodes, root⟩ := view
    dsimp only
    cases hdecode : decode (host.input call nodes) root host.animations host.effects with
    | err message => exact .inl ⟨rfl, rfl⟩
    | panic => exact .inl ⟨rfl, rfl⟩
    | ok result =>
      obtain ⟨ui, animations, effects⟩ := result
      obtain ⟨-, t, hunfold, hvalid, hpasses, rfl, rfl, hui⟩ := decode_eq_ok_iff.mp hdecode
      have htree : host.tree call = some t := by
        rw [tree, hview]
        exact hunfold
      have hnotes : host.notes call = treeNotes (host.input call nodes) t := by
        rw [PluginHost.notes, htree]
        exact treeNotes_input t
      rw [hnotes]
      exact .inr ⟨nodes, root, t, ui, rfl, htree, hvalid, hpasses, rfl, rfl, hui⟩

lemma passes_of_isOk (h : (host.renderAt call).1.isOk = true) :
    ∃ nodes, Passes (host.input call nodes) host.effects (host.notes call) := by
  rcases renderAt_spec host call with ⟨hfails, -⟩ | ⟨nodes, _, _, _, -, -, -, hpasses, -⟩
  · rw [h] at hfails
    cases hfails
  · exact ⟨nodes, hpasses⟩

/-- A kind of thing that renders show: the host observes it in each render that succeeds. -/
structure Kind (Image Program σ : Type) where
  same : σ → σ → Bool
  symm : ∀ {a b}, same a b = true → same b a = true
  trans : ∀ {a b c}, same a b = true → same b c = true → same a c = true
  bindings : List Note → List (ℕ × σ)
  agree : ∀ (host : PluginHost Image Program) call, (host.renderAt call).1.isOk = true →
    ∀ a ∈ bindings (host.notes call), ∀ b ∈ bindings (host.notes call), a.1 = b.1 →
      same a.2 b.2 = true
  entry : PluginHost Image Program → String → ℕ → Option (σ × ℕ)
  step : ∀ (host : PluginHost Image Program) call itemId id,
    entry (host.renderAt call).2 itemId id =
      if call.itemId = itemId ∧ (host.renderAt call).1.isOk = true then
        observe same (entry host itemId id) ⟨(bindings (host.notes call)).lookup id, call.now⟩
      else entry host itemId id

section Kinds

variable {σ : Type} (kind : Kind Image Program σ) {itemId : String} {id : ℕ}

variable (host calls itemId id) in
/-- What is remembered after a run. -/
lemma entry_after :
    kind.entry (host.after calls) itemId id =
      (host.sightings kind.bindings itemId id calls).foldl (observe kind.same)
        (kind.entry host itemId id) := by
  induction calls generalizing host with
  | nil => rfl
  | cons call calls ih =>
    have hafter : host.after (call :: calls) = (host.renderAt call).2.after calls := rfl
    rw [hafter, ih, kind.step, sightings]
    dsimp only
    split_ifs <;> rfl

/-- What is seen is equal to itself. -/
lemma sightings_self :
    ∀ o ∈ host.sightings kind.bindings itemId id calls, ∀ s, o.seen = some s →
      kind.same s s = true := by
  induction calls generalizing host with
  | nil =>
    intro o ho
    cases ho
  | cons call calls ih =>
    intro o ho s hseen
    rw [sightings] at ho
    dsimp only at ho
    split_ifs at ho with hshown
    · rcases List.mem_cons.mp ho with rfl | ho
      · exact kind.agree host call hshown.2 _ (mem_of_lookup hseen) _ (mem_of_lookup hseen) rfl
      · exact ih o ho s hseen
    · exact ih o ho s hseen

variable (host calls call) in
lemma after_concat : host.after (calls ++ [call]) = ((host.after calls).renderAt call).2 := by
  rw [PluginHost.after, List.foldl_append]
  rfl

/-- What a render shows has been seen since its entry says. -/
lemma since_of_renders (hnone : ∀ itemId id, kind.entry host itemId id = none) {a : ℕ × σ}
    (hok : ((host.after calls).renderAt call).1.isOk = true)
    (ha : a ∈ kind.bindings ((host.after calls).notes call)) :
    ∃ e, kind.entry ((host.after calls).renderAt call).2 call.itemId a.1 = some e ∧
      Since kind.same (host.sightings kind.bindings call.itemId a.1 (calls ++ [call])) a.2 e.2 := by
  have hrun := entry_after host (calls ++ [call]) kind call.itemId a.1
  have hlast := kind.step (host.after calls) call call.itemId a.1
  rw [if_pos ⟨rfl, hok⟩] at hlast
  obtain ⟨s, hs⟩ : ∃ s, (kind.bindings ((host.after calls).notes call)).lookup a.1 = some s := by
    refine Option.ne_none_iff_exists'.mp fun hnot => ?_
    exact lookup_eq_none.mp hnot (List.mem_map_of_mem (f := Prod.fst) ha)
  have hview := kind.agree (host.after calls) call hok
  obtain ⟨e, he, hes⟩ := observe_seen (kind.entry (host.after calls) call.itemId a.1)
    (hview _ (mem_of_lookup hs) _ (mem_of_lookup hs) rfl) call.now
  rw [hs, he] at hlast
  rw [after_concat, hlast, hnone] at hrun
  refine ⟨e, hlast, Since.congr kind.symm kind.trans ?_ (since_of_foldl kind.symm kind.trans
    (sightings_self kind) hrun.symm)⟩
  exact kind.trans hes (hview _ (mem_of_lookup hs) a ha rfl)

end Kinds

def animationKind : Kind Image Program AnimationSignature where
  same := AnimationSignature.eq
  symm := AnimationSignature.eq_symm
  trans := AnimationSignature.eq_trans
  bindings := animationsOf
  agree host call hok := (passes_of_isOk hok).choose_spec.animations.same
  entry host := host.animations.entry
  step host call itemId id := by
    rcases renderAt_spec host call with
      ⟨hfails, hsame⟩ | ⟨_, _, t, ui, -, -, -, hpasses, hok, hafter, -⟩
    · rw [if_neg (by simp [hfails]), hsame]
    · rw [hafter, hok, entry_animations _ _ _ hpasses.animations.same]
      simp only [isOk, and_true, eq_comm (a := itemId)]

def effectKind : Kind Image Program EffectSignature where
  same s t := decide (s = t)
  symm h := decide_eq_true (of_decide_eq_true h).symm
  trans h h' := decide_eq_true ((of_decide_eq_true h).trans (of_decide_eq_true h'))
  bindings := effectsOf
  agree host call hok a ha b hb hab :=
    decide_eq_true ((passes_of_isOk hok).choose_spec.effects.same a ha b hb hab)
  entry host := host.effects.entry
  step host call itemId id := by
    rcases renderAt_spec host call with
      ⟨hfails, hsame⟩ | ⟨_, _, t, ui, -, -, -, hpasses, hok, hafter, -⟩
    · rw [if_neg (by simp [hfails]), hsame]
    · rw [hafter, hok, entry_effects host.compile host.effects _ _ hpasses.effects.same]
      simp only [isOk, and_true, eq_comm (a := itemId)]

lemma startOf_animation {r : AnimationRegistry} {itemId : String} {id : ℕ}
    {e : AnimationSignature × ℕ} (h : r.entry itemId id = some e) :
    r.startOf itemId id = e.2 := by
  obtain ⟨state, hget, rfl⟩ := Option.map_eq_some_iff.mp h
  rw [AnimationRegistry.startOf, hget]
  rfl

lemma startOf_effect {r : EffectRegistry Program} {itemId : String} {id : ℕ}
    {e : EffectSignature × ℕ} (h : r.entry itemId id = some e) : r.startOf itemId id = e.2 := by
  obtain ⟨state, hget, rfl⟩ := Option.map_eq_some_iff.mp h
  rw [EffectRegistry.startOf, hget]
  rfl

/-- The programs are those of their sources, and not too many. -/
structure Compiled (limits : HostLimits) (compile : String → Outcome String Program)
    (host : PluginHost Image Program) : Prop where
  limits_eq : host.limits = limits
  compile_eq : host.compile = compile
  program : ∀ source program, host.effects.programs.get source = some program →
    compile source = ok program
  len_le : host.effects.programs.len ≤ limits.maxEffectPrograms.toNat

variable {limits : HostLimits} {compile : String → Outcome String Program}

lemma Compiled.renderAt (h : Compiled limits compile host) (call : RenderCall) :
    Compiled limits compile (host.renderAt call).2 := by
  obtain ⟨rfl, rfl, hprogram, hlen⟩ := h
  rcases renderAt_spec host call with
    ⟨-, hsame⟩ | ⟨nodes, _, t, ui, -, -, -, hpasses, -, hafter, -⟩
  · rw [hsame]
    exact ⟨rfl, rfl, hprogram, hlen⟩
  · rw [hafter]
    refine ⟨rfl, rfl, fun source program hget => ?_, ?_⟩
    · dsimp only [EffectRegistry.retainItem] at hget
      rw [get_programs_bindAll] at hget
      split_ifs at hget with hnew
      · exact expect_eq_some.mp hget
      · exact hprogram source program hget
    · have hcompiles : ∀ source ∈ host.effects.newSources (effectsOf (host.notes call)),
          ∃ program, host.compile source = ok program := hpasses.effects.compiles
      dsimp only [EffectRegistry.retainItem]
      rw [len_programs_bindAll hcompiles]
      rcases (host.effects.newSources (effectsOf (host.notes call))).eq_empty_or_nonempty with
        hempty | hsome
      · rw [hempty, Finset.card_empty, Nat.add_zero]
        exact hlen
      · exact hpasses.effects.count hsome

lemma Compiled.after (h : Compiled limits compile host) (calls : List RenderCall) :
    Compiled limits compile (host.after calls) := by
  induction calls generalizing host with
  | nil => exact h
  | cons call calls ih => exact ih (h.renderAt call)

/-- The program of what is shown is there. -/
lemma exists_program_of_passes {input : DecoderInput Image Program}
    {effects : EffectRegistry Program} {notes : List Note} (hpasses : Passes input effects notes)
    {a : ℕ × EffectSignature} (ha : a ∈ effectsOf notes) (itemId : String) (now : ℕ) :
    ∃ program, (effects.bindAll input.compile itemId now (effectsOf notes)).programs.get
      a.2.source = some program := by
  rw [get_programs_bindAll]
  split_ifs with hnew
  · obtain ⟨program, hcompile⟩ := hpasses.effects.compiles _ hnew
    exact ⟨program, by rw [hcompile]; rfl⟩
  · refine Option.ne_none_iff_exists'.mp fun hnone => hnew ?_
    exact mem_newSources.mpr ⟨⟨a, ha, rfl⟩, hnone⟩

/-- What a render shows runs since the first of the renders of its item that have shown it
without a break, and its programs are those of its sources. -/
theorem starts_unbroken {assets : String → Option Image} {arithmetic : Arithmetic}
    {ui : UiNode Image Program}
    (h : ((new limits assets compile arithmetic).after calls).renderAt call = (ok ui, host')) :
    ∃ nodes root t, call.view = some (nodes, root) ∧ host'.tree call = some t ∧
      ui = (t.fold fun v kids =>
        v.build (host'.input call nodes) host'.animations host'.effects kids) ∧
      (∀ a ∈ animationsOf (host'.notes call), Since AnimationSignature.eq
        ((new limits assets compile arithmetic).sightings animationsOf call.itemId a.1
          (calls ++ [call])) a.2 (host'.animations.startOf call.itemId a.1)) ∧
      (∀ a ∈ effectsOf (host'.notes call), Since (fun s t => decide (s = t))
        ((new limits assets compile arithmetic).sightings effectsOf call.itemId a.1
          (calls ++ [call])) a.2 (host'.effects.startOf call.itemId a.1) ∧
        ∃ program, compile a.2.source = ok program ∧
          host'.effects.programs.get a.2.source = some program) ∧
      host'.effects.programs.len ≤ limits.maxEffectPrograms.toNat := by
  set host₁ := (new limits assets compile arithmetic).after calls with hhost₁
  have hok : (host₁.renderAt call).1.isOk = true := by
    rw [h]
    rfl
  have hnew : Compiled limits compile
      (new limits assets compile arithmetic : PluginHost Image Program) := by
    refine ⟨rfl, rfl, fun _ _ hget => ?_, Nat.zero_le _⟩
    cases hget
  have hcompiled : Compiled limits compile host₁ := hnew.after calls
  have hresult : (host₁.renderAt call).2 = host' := congrArg Prod.snd h
  have hcompiled' := hcompiled.renderAt call
  rcases renderAt_spec host₁ call with ⟨hfails, -⟩ | ⟨nodes, root, t, ui', hview, htree, -,
    hpasses, hui', hafter, hfold⟩
  · rw [hok] at hfails
    cases hfails
  · have hui : ui' = ui := by
      rw [h] at hui'
      exact (Outcome.ok.inj hui').symm
    subst hui
    rw [hresult] at hcompiled' hfold hafter
    have hnotes : host'.notes call = host₁.notes call := by
      rw [hafter]
      rfl
    have hinput : host'.input call nodes = host₁.input call nodes := by
      rw [hafter]
      rfl
    rw [hnotes]
    refine ⟨nodes, root, t, hview, ?_, by rw [hinput]; exact hfold, fun a ha => ?_,
      fun a ha => ?_, hcompiled'.len_le⟩
    · rw [hafter]
      exact htree
    · obtain ⟨e, hentry, hsince⟩ := since_of_renders animationKind (fun _ _ => rfl) hok ha
      rw [hresult] at hentry
      rwa [startOf_animation hentry]
    · obtain ⟨e, hentry, hsince⟩ := since_of_renders effectKind (fun _ _ => rfl) hok ha
      rw [hresult] at hentry
      rw [startOf_effect hentry]
      obtain ⟨program, hprogram⟩ := exists_program_of_passes hpasses ha call.itemId call.now
      have hget : host'.effects.programs.get a.2.source = some program := by
        rw [hafter]
        exact hprogram
      exact ⟨hsince, program, hcompiled'.program _ _ hget, hget⟩

/-- An animation without curves. -/
def plainArithmetic : Arithmetic :=
  ⟨fun p _ _ _ => p, fun p _ _ _ _ => p, fun _ _ _ => 0, fun _ => 0⟩

def spinner : Wit.MotionNode :=
  ⟨7, ⟨⟨0, 0⟩, 1, 1⟩, ⟨⟨64, 0⟩, 1, 1⟩, 250, .linear, .loop, 1⟩

def spin (now : ℕ) : RenderCall := ⟨"clock", now, some ([.motion spinner, .empty], 0)⟩

def plainHost : PluginHost Unit Unit :=
  new .default (fun _ => none) (fun _ => ok ()) plainArithmetic

/-- The second render shows the spinner as it has started in the first one. -/
theorem starts_unbroken_spin :
    ((plainHost.after [spin 5]).renderAt (spin 9)).1 =
        ok (.motion ⟨7, spinner.startTransform, spinner.endTransform, 5, 250000000, .linear, .loop⟩
          .empty) ∧
      Since AnimationSignature.eq
        (plainHost.sightings animationsOf "clock" 7 [spin 5, spin 9]) spinner.signature 5 := by
  have h : (plainHost.after [spin 5]).renderAt (spin 9) =
      (ok (.motion ⟨7, spinner.startTransform, spinner.endTransform, 5, 250000000, .linear, .loop⟩
        .empty), ((plainHost.after [spin 5]).renderAt (spin 9)).2) := Prod.ext rfl rfl
  obtain ⟨nodes, root, t, -, -, -, hstarts, -⟩ := starts_unbroken h
  refine ⟨congrArg Prod.fst h, hstarts (7, spinner.signature) ?_⟩
  exact List.mem_singleton_self _

end PluginHost

end TouchBar.View
