import TouchBar.Layout.Group
import TouchBar.Layout.Hiding
import TouchBar.Layout.Validate

/-!
# The resolver

`resolve` validates a bar, hides content until the minimum widths fit, compresses
the rest, centers the principal item, hands the remaining room to the flexible
spaces, and places the elements from left to right.  This file has the function
itself, `resolve_eq_ok`, which takes a successful run apart into its stages, and
the effect of the two stages that move widths: compression and the distribution
of flexible space.
-/

namespace TouchBar.Layout

open TouchBar.Rust TouchBar.Lib Outcome

def elementsSizing : List Element → Outcome LayoutError (List Sizing)
  | [] => ok []
  | e :: es => do
    let s ← elementSizing e
    let ss ← elementsSizing es
    return s :: ss

/-! ## Compression -/

def Element.compressionPriority : Element → Option ℤ
  | .item i => some i.compressionPriority
  | .group g => some g.compressionPriority
  | .fixedSpace _ => none
  | .flexibleSpace _ _ => none

/-- The visible content from the given index on: priority, index and minimum. -/
def compressionCandidates :
    ℕ → List Element → List Bool → List Sizing → List (ℤ × ℕ × ℕ)
  | index, e :: es, shown :: visible, s :: sizing =>
    match e.compressionPriority with
    | some priority =>
      if shown then
        (priority, index, s.minimum) :: compressionCandidates (index + 1) es visible sizing
      else
        compressionCandidates (index + 1) es visible sizing
    | none => compressionCandidates (index + 1) es visible sizing
  | _, _, _, _ => []

def compressToFit (bar : BarSpec) (visible : List Bool) (sizing : List Sizing) (widths : List ℕ)
    (available : ℕ) : Option (List ℕ) := do
  let total ← U64.sum widths
  -- `saturating_sub`
  let excess := total - available
  let candidates := compressionCandidates 0 bar.elements visible sizing
  let candidates := candidates.insertionSort fun l r => CompressesBefore (l.1, l.2.1) (r.1, r.2.1)
  let (widths, excess) ← compressLoop candidates widths excess
  assert (excess = 0)
  return widths

/-! ## Flexible space -/

/-- The flexible spaces with an index in `lo..hi`, each with its weight. -/
def flexibleSpaces (lo hi : ℕ) : ℕ → List Element → List (ℕ × ℕ)
  | _, [] => []
  | index, .flexibleSpace _ weight :: es =>
    if lo ≤ index ∧ index < hi then
      (index, weight.toNat) :: flexibleSpaces lo hi (index + 1) es
    else
      flexibleSpaces lo hi (index + 1) es
  | index, _ :: es => flexibleSpaces lo hi (index + 1) es

/-- What one flexible space receives; the last one takes what is left. -/
def flexibleShare (extra totalWeight weight assigned : ℕ) (last : Bool) : Option ℕ :=
  if last then U64.sub extra assigned
  else (U64.mul extra weight).map (· / totalWeight)

/-- The loop of `distribute_flexible_space`. -/
def distributeLoop (extra totalWeight : ℕ) :
    List (ℕ × ℕ) → List ℕ → ℕ → Option (List ℕ)
  | [], widths, _ => some widths
  | (index, weight) :: flexible, widths, assigned => do
    let addition ← flexibleShare extra totalWeight weight assigned flexible.isEmpty
    let width ← widths[index]?
    let width ← U64.add width addition
    let assigned ← U64.add assigned addition
    distributeLoop extra totalWeight flexible (widths.set index width) assigned

def distributeFlexibleSpace (bar : BarSpec) (widths : List ℕ) (lo hi extra : ℕ) :
    Option (List ℕ) :=
  if extra = 0 then
    some widths
  else do
    let flexible := flexibleSpaces lo hi 0 bar.elements
    let totalWeight ← U64.sum (flexible.map Prod.snd)
    if totalWeight = 0 then
      some widths
    else
      distributeLoop extra totalWeight flexible widths 0

/-! ## The principal item -/

def containsItem (e : Element) (id : ItemId) : Bool :=
  match e with
  | .item i => i.id = id
  | .group g => groupContainsItem g id
  | .fixedSpace _ => false
  | .flexibleSpace _ _ => false

/-- The first visible element that passes the test, with its index. -/
def findVisible (test : Element → Bool) : ℕ → List Element → List Bool → Option (ℕ × Element)
  | index, e :: es, shown :: visible =>
    if shown && test e then some (index, e) else findVisible test (index + 1) es visible
  | _, _, _ => none

/-- The offset of the principal item inside its element, and its width. -/
def principalMetrics (e : Element) (width : ℕ) (principal : ItemId) : Option (Option (ℕ × ℕ)) :=
  match e with
  | .item i => some (if i.id = principal then some (0, width) else none)
  | .group g => do
    let placements ← layoutGroup g 0 width
    return (placements.find? fun p => p.id = principal).map fun p => (p.x.toNat, p.width.toNat)
  | .fixedSpace _ => some none
  | .flexibleSpace _ _ => some none

/-- The element of the principal item, with the metrics of the item inside it. -/
def findPrincipal (bar : BarSpec) (visible : List Bool) (widths : List ℕ) :
    Option (Option (ℕ × ℕ × ℕ)) :=
  match bar.principalItem with
  | none => some none
  | some principal =>
    match findVisible (fun e => containsItem e principal) 0 bar.elements visible with
    | none => some none
    | some (index, e) => do
      let width ← widths[index]?
      let metrics ← principalMetrics e width principal
      return metrics.map fun (offset, width) => (index, offset, width)

/-- The branch of `resolve` with a principal element: the position that centers the
item, as far as its neighbours let it, and the distribution on both sides. -/
def centerPrincipal (bar : BarSpec) (widths : List ℕ) (available principal offset
    principalWidth : ℕ) : Option (List ℕ × ℕ) := do
  let before ← U64.sum (widths.take principal)
  let after ← U64.sum (widths.drop (principal + 1))
  let room ← U64.sub available principalWidth
  let desiredLeafX := room / 2
  -- `saturating_sub`
  let desired := desiredLeafX - offset
  let principalElementWidth ← widths[principal]?
  let maximum ← U64.sub available principalElementWidth
  let maximum ← U64.sub maximum after
  let x ← U64.clamp desired before maximum
  let left ← U64.sub x before
  let widths ← distributeFlexibleSpace bar widths 0 principal left
  let right ← U64.sub available x
  let right ← U64.sub right principalElementWidth
  let right ← U64.sub right after
  let widths ← distributeFlexibleSpace bar widths (principal + 1) bar.elements.length right
  return (widths, x)

/-- Both branches: the final widths, and the principal element with its position. -/
def distribute (bar : BarSpec) (widths : List ℕ) (available extra : ℕ)
    (principal : Option (ℕ × ℕ × ℕ)) : Option (List ℕ × Option (ℕ × ℕ)) :=
  match principal with
  | some (index, offset, principalWidth) => do
    let (widths, x) ← centerPrincipal bar widths available index offset principalWidth
    return (widths, some (index, x))
  | none => do
    let widths ← distributeFlexibleSpace bar widths 0 bar.elements.length extra
    return (widths, none)

/-! ## Placement -/

mutual

def collectGroupItemIds : GroupSpec → List ItemId
  | ⟨_, elements, _, _, _, _⟩ => collectGroupElementIds elements

def collectGroupElementIds : List GroupElement → List ItemId
  | [] => []
  | .item i :: es => i.id :: collectGroupElementIds es
  | .group g :: es => collectGroupItemIds g ++ collectGroupElementIds es

end

def collectItemIds : Element → List ItemId
  | .item i => [i.id]
  | .group g => collectGroupItemIds g
  | .fixedSpace _ => []
  | .flexibleSpace _ _ => []

def layoutElement : Element → ℕ → ℕ → Option (List Placement)
  | .item i, x, width => do
    let placement ← placeItem i x width
    return [placement]
  | .group g, x, width => layoutGroup g x width
  | .fixedSpace _, _, _ => some []
  | .flexibleSpace _ _, _, _ => some []

/-- The position at which the loop places an element: the principal position if the
element is the principal one. -/
def jump (principalX : Option (ℕ × ℕ)) (index x : ℕ) : ℕ :=
  match principalX with
  | some (principal, principalX) => if principal = index then principalX else x
  | none => x

/-- What an element adds to the placements. -/
def layoutShown (e : Element) (shown : Bool) (x width : ℕ) : Option (List Placement) :=
  if shown then layoutElement e x width else some []

/-- The final loop of `resolve` from the given index on: the placements, the hidden
items and the right edge. -/
def placeElements (principalX : Option (ℕ × ℕ)) :
    ℕ → List Element → List Bool → List ℕ → ℕ → Option (List Placement × List ItemId × ℕ)
  | index, e :: es, shown :: visible, width :: widths, x => do
    let x := jump principalX index x
    let placed ← layoutShown e shown x width
    let hidden := if shown then [] else collectItemIds e
    let next ← U64.add x width
    let (placements, hiddenItems, x) ← placeElements principalX (index + 1) es visible widths next
    return (placed ++ placements, hidden ++ hiddenItems, x)
  | _, _, _, _, x => some ([], [], x)

def resolve (bar : BarSpec) (availableWidth : UInt32) (requiredItems : BTreeSet ItemId) :
    Outcome LayoutError ResolvedLayout := do
  validate bar requiredItems
  let units ← visibilityUnits bar requiredItems
  let visible := bar.elements.map Element.isContent
  let sizing ← elementsSizing bar.elements
  let available := availableWidth.toNat
  let minimumTotal ← check (totalWidth bar visible sizing)
  let (visible, minimumTotal) ← check (hideToFit sizing available units visible minimumTotal)
  if minimumTotal > available then
    err (.insufficientWidth availableWidth
      ((U32.tryFrom minimumTotal).getD (UInt32.ofNat (UInt32.size - 1))))
  else
    let widths := rowWidths Sizing.preferred bar.elements visible sizing
    let widths ← check (compressToFit bar visible sizing widths available)
    let principal ← check (findPrincipal bar visible widths)
    let baseTotal ← check (U64.sum widths)
    let extra ← check (U64.sub available baseTotal)
    let (widths, principalX) ← check (distribute bar widths available extra principal)
    let (placements, hiddenItems, x) ←
      check (placeElements principalX 0 bar.elements visible widths 0)
    return ⟨placements, hiddenItems, UInt32.ofNat x⟩

/-! ## The stages of a successful run -/

/-- The values that a run of the resolver passes from one stage to the next. -/
structure Run (bar : BarSpec) (available : UInt32) (required : BTreeSet ItemId)
    (layout : ResolvedLayout) where
  units : List VisibilityUnit
  sizing : List Sizing
  total : ℕ
  /-- What is left visible, and its minimum width. -/
  visible : List Bool
  minimumTotal : ℕ
  /-- The widths after compression. -/
  base : List ℕ
  principal : Option (ℕ × ℕ × ℕ)
  /-- The widths after the distribution of flexible space. -/
  widths : List ℕ
  principalX : Option (ℕ × ℕ)
  right : ℕ
  valid : validate bar required = ok ()
  units_eq : visibilityUnits bar required = ok units
  sizing_eq : elementsSizing bar.elements = ok sizing
  total_eq : totalWidth bar (bar.elements.map Element.isContent) sizing = some total
  hidden_eq : hideToFit sizing available.toNat units (bar.elements.map Element.isContent) total =
    some (visible, minimumTotal)
  fits : minimumTotal ≤ available.toNat
  base_eq : compressToFit bar visible sizing
    (rowWidths Sizing.preferred bar.elements visible sizing) available.toNat = some base
  principal_eq : findPrincipal bar visible base = some principal
  widths_eq : distribute bar base available.toNat (available.toNat - base.sum) principal =
    some (widths, principalX)
  placed_eq : placeElements principalX 0 bar.elements visible widths 0 =
    some (layout.placements, layout.hiddenItems, right)
  contentWidth_eq : layout.contentWidth = UInt32.ofNat right

lemma resolve_eq_ok {bar : BarSpec} {available : UInt32} {required : BTreeSet ItemId}
    {layout : ResolvedLayout} (h : resolve bar available required = ok layout) :
    Nonempty (Run bar available required layout) := by
  simp only [resolve, bind_eq_ok, check_eq_ok, Prod.exists] at h
  obtain ⟨_, hval, units, hunits, sizing, hsizing, total, htotal, visible, minimumTotal, hhide,
    h⟩ :=
    h
  split_ifs at h with hlt
  simp only [bind_eq_ok, check_eq_ok, Prod.exists, U64.sum_eq_some, U64.sub_eq_some, pure_eq,
    ok.injEq] at h
  obtain ⟨base, hbase, principal, hprin, _, ⟨-, rfl⟩, _, ⟨-, rfl⟩, widths, px, hw, ps, hs, right,
    hplaced, rfl⟩ := h
  exact ⟨⟨units, sizing, total, visible, minimumTotal, base, principal, widths, px, right, hval,
    hunits, hsizing, htotal, hhide, not_lt.mp hlt, hbase, hprin, hw, hplaced, rfl⟩⟩

lemma elementsSizing_eq_ok {es : List Element} {ss : List Sizing} :
    elementsSizing es = ok ss ↔ List.Forall₂ (fun e s => elementSizing e = ok s) es ss := by
  induction es generalizing ss with
  | nil => simp [elementsSizing, eq_comm]
  | cons e es ih =>
    simp only [elementsSizing, bind_eq_ok, pure_eq, ok.injEq, ih]
    constructor
    · rintro ⟨s, hs, ss', hss, rfl⟩
      exact .cons hs hss
    · rintro (_ | ⟨hs, hss⟩)
      exact ⟨_, hs, _, hss, rfl⟩

/-! ## Compression of the bar -/

lemma isContent_iff_compressionPriority {e : Element} :
    e.isContent = true ↔ ∃ p, e.compressionPriority = some p := by
  cases e <;> simp [Element.isContent, Element.compressionPriority]

/-- The candidates are the visible content, each with its own minimum. -/
lemma mem_compressionCandidates {es : List Element} {n k m : ℕ} :
    ∀ {vs : List Bool} {ss : List Sizing},
      (k, m) ∈ (compressionCandidates n es vs ss).map Prod.snd ↔
        ∃ j e s, k = n + j ∧ es[j]? = some e ∧ e.isContent = true ∧ vs[j]? = some true ∧
          ss[j]? = some s ∧ s.minimum = m := by
  induction es generalizing n with
  | nil => simp [compressionCandidates]
  | cons e es ih =>
    intro vs ss
    rcases vs with _ | ⟨v, vs⟩
    · simp [compressionCandidates]
    rcases ss with _ | ⟨s, ss⟩
    · simp [compressionCandidates]
    -- the candidate at the first position, and those after it
    have hsplit : (∃ j e' s', k = n + j ∧ (e :: es)[j]? = some e' ∧ e'.isContent = true ∧
        (v :: vs)[j]? = some true ∧ (s :: ss)[j]? = some s' ∧ s'.minimum = m) ↔
        (k = n ∧ e.isContent = true ∧ v = true ∧ s.minimum = m) ∨
          (k, m) ∈ (compressionCandidates (n + 1) es vs ss).map Prod.snd := by
      rw [ih]
      constructor
      · rintro ⟨j, e', s', hk, he, hc, hv, hs, hm⟩
        cases j with
        | zero =>
          simp only [List.getElem?_cons_zero, Option.some.injEq] at he hv hs
          subst he hv hs
          exact .inl ⟨hk, hc, rfl, hm⟩
        | succ j => exact .inr ⟨j, e', s', by omega, he, hc, hv, hs, hm⟩
      · rintro (⟨hk, hc, rfl, hm⟩ | ⟨j, e', s', hk, he, hc, hv, hs, hm⟩)
        · exact ⟨0, e, s, hk, rfl, hc, rfl, rfl, hm⟩
        · exact ⟨j + 1, e', s', by omega, he, hc, hv, hs, hm⟩
    rw [hsplit, compressionCandidates]
    cases hp : e.compressionPriority with
    | none =>
      have hc : e.isContent = false := by
        rw [← Bool.not_eq_true, isContent_iff_compressionPriority]
        simp [hp]
      simp [hc]
    | some p =>
      have hc : e.isContent = true := isContent_iff_compressionPriority.mpr ⟨p, hp⟩
      cases v with
      | true =>
        simp only [if_true, List.map_cons, List.mem_cons, Prod.mk.injEq, hc, true_and]
        exact or_congr_left (and_congr_right fun _ => eq_comm)
      | false => simp

lemma pairwise_compressionCandidates {es : List Element} {n : ℕ} :
    ∀ {vs : List Bool} {ss : List Sizing},
      ((compressionCandidates n es vs ss).map fun c => c.2.1).Pairwise (· < ·) := by
  induction es generalizing n with
  | nil => simp [compressionCandidates]
  | cons e es ih =>
    intro vs ss
    rcases vs with _ | ⟨v, vs⟩
    · simp [compressionCandidates]
    rcases ss with _ | ⟨s, ss⟩
    · simp [compressionCandidates]
    rw [compressionCandidates]
    split
    · split_ifs
      · rw [List.map_cons, List.pairwise_cons]
        refine ⟨?_, ih⟩
        intro k hk
        obtain ⟨⟨p, k', m⟩, hc, rfl⟩ := List.mem_map.mp hk
        have hmem : (k', m) ∈ (compressionCandidates (n + 1) es vs ss).map Prod.snd :=
          List.mem_map_of_mem (f := Prod.snd) hc
        obtain ⟨j, _, _, hj, -⟩ := mem_compressionCandidates.mp hmem
        change n < k'
        omega
      · exact ih
    · exact ih

/-- Shown content has at least the one width and at most the other, spaces keep theirs. -/
lemma forall₂_rowWidths {f g : Sizing → ℕ} {es : List Element} {vs : List Bool} {ss : List Sizing}
    (h : ∀ s ∈ ss, f s ≤ g s) :
    List.Forall₂ (· ≤ ·) (rowWidths f es vs ss) (rowWidths g es vs ss) := by
  induction es generalizing vs ss with
  | nil => simp [rowWidths]
  | cons e es ih =>
    rcases vs with _ | ⟨v, vs⟩
    · simp [rowWidths]
    rcases ss with _ | ⟨s, ss⟩
    · simp [rowWidths]
    rw [rowWidths, rowWidths]
    refine .cons ?_ (ih fun s hs => h s (List.mem_cons_of_mem _ hs))
    cases e <;> cases v <;> simp [elementWidth, h]

/-- The elements of the row by their part in the compression: a candidate can be compressed
down to its minimum, and every other element has it already. -/
lemma candidate_or_minimum {es : List Element} {vs : List Bool} {ss : List Sizing}
    {cs : List (ℤ × ℕ × ℕ)} (hperm : cs.Perm (compressionCandidates 0 es vs ss)) {i f : ℕ}
    (hf : (rowWidths Sizing.minimum es vs ss)[i]? = some f) :
    (i, f) ∈ cs.map Prod.snd ∨ (i ∉ (cs.map Prod.snd).map Prod.fst ∧
      (rowWidths Sizing.preferred es vs ss)[i]? = some f) := by
  obtain ⟨e, v, s, he, hv, hs, rfl⟩ := getElem?_rowWidths.mp hf
  by_cases hc : e.isContent = true ∧ v = true
  · obtain ⟨hc, rfl⟩ := hc
    refine .inl ((hperm.map _).mem_iff.mpr (mem_compressionCandidates.mpr ?_))
    exact ⟨i, e, s, by omega, he, hc, hv, hs, by simp [elementWidth_of_isContent hc]⟩
  · refine .inr ⟨fun hmem => hc ?_, getElem?_rowWidths.mpr ⟨e, v, s, he, hv, hs, ?_⟩⟩
    · obtain ⟨⟨k, m⟩, hkm, rfl⟩ := List.mem_map.mp hmem
      obtain ⟨j, e', s', hj, he', hc', hv', -⟩ :=
        mem_compressionCandidates.mp ((hperm.map _).mem_iff.mp hkm)
      rw [Nat.zero_add] at hj
      subst hj
      rw [he, Option.some.injEq] at he'
      rw [hv, Option.some.injEq] at hv'
      exact ⟨he' ▸ hc', hv'⟩
    · -- neither hidden content nor a space looks at its sizing
      cases e <;> simp_all [elementWidth, Element.isContent]

/-- Compression takes a row whose minimums fit down to the available width, and no
element below its minimum. -/
lemma compressToFit_spec {bar : BarSpec} {vs : List Bool} {ss : List Sizing} {available : ℕ}
    {base : List ℕ} (hvs : vs.length = bar.elements.length) (hss : ss.length = bar.elements.length)
    (hwf : ∀ s ∈ ss, s.WF) (hfit : demand bar.elements ss vs ≤ available)
    (h : compressToFit bar vs ss (rowWidths Sizing.preferred bar.elements vs ss) available =
      some base) :
    List.Forall₂ (· ≤ ·) (rowWidths Sizing.minimum bar.elements vs ss) base ∧
      List.Forall₂ (· ≤ ·) base (rowWidths Sizing.preferred bar.elements vs ss) ∧
      base.sum ≤ available := by
  simp only [compressToFit, bind, Option.bind_eq_some_iff, U64.sum_eq_some, Prod.exists,
    assert_eq_some, pure, Option.some.injEq] at h
  obtain ⟨_, ⟨-, rfl⟩, w', e', hloop, -, -, rfl⟩ := h
  have hsq := compressLoop_squeeze hloop
  have hperm := List.perm_insertionSort
    (fun l r : ℤ × ℕ × ℕ => CompressesBefore (l.1, l.2.1) (r.1, r.2.1))
    (compressionCandidates 0 bar.elements vs ss)
  have hnd : ((((compressionCandidates 0 bar.elements vs ss).insertionSort
      fun l r => CompressesBefore (l.1, l.2.1) (r.1, r.2.1)).map Prod.snd).map Prod.fst).Nodup := by
    rw [List.map_map, (hperm.map _).nodup_iff]
    exact pairwise_compressionCandidates.imp fun hlt => ne_of_lt hlt
  have hlow : List.Forall₂ (· ≤ ·) (rowWidths Sizing.minimum bar.elements vs ss)
      (rowWidths Sizing.preferred bar.elements vs ss) :=
    forall₂_rowWidths fun s hs => (hwf s hs).min_le
  obtain ⟨hlo, hup⟩ := hsq.forall₂_bounds hnd hlow fun i f => candidate_or_minimum hperm
  refine ⟨hlo, hup, ?_⟩
  have hsum := hsq.sum_eq
  have hle := hsq.left_le
  -- an excess that is left over would mean that all stand at their minimums
  rcases Nat.eq_zero_or_pos e' with he | he
  · omega
  · have hbase := hsq.eq_floors_of_left hnd he
      (by rw [length_rowWidths hvs hss, length_rowWidths hvs hss])
      fun i f => candidate_or_minimum hperm
    rw [hbase]
    exact hfit

/-! ## Distribution -/

lemma mem_flexibleSpaces {lo hi : ℕ} {es : List Element} :
    ∀ {n k w : ℕ}, (k, w) ∈ flexibleSpaces lo hi n es →
      lo ≤ k ∧ k < hi ∧ ∃ j m u, k = n + j ∧ es[j]? = some (.flexibleSpace m u) := by
  induction es with
  | nil => simp [flexibleSpaces]
  | cons e es ih =>
    intro n k w h
    have hrest : (k, w) ∈ flexibleSpaces lo hi (n + 1) es →
        lo ≤ k ∧ k < hi ∧ ∃ j m u, k = n + j ∧ (e :: es)[j]? = some (.flexibleSpace m u) := by
      intro h
      obtain ⟨h1, h2, j, m, u, hk, hj⟩ := ih h
      exact ⟨h1, h2, j + 1, m, u, by omega, hj⟩
    cases e with
    | item i => exact hrest h
    | group g => exact hrest h
    | fixedSpace w' => exact hrest h
    | flexibleSpace m u =>
      rw [flexibleSpaces] at h
      split_ifs at h with hr
      · rcases List.mem_cons.mp h with heq | h
        · obtain ⟨rfl, rfl⟩ := Prod.mk.inj heq
          exact ⟨hr.1, hr.2, 0, m, u, rfl, rfl⟩
        · exact hrest h
      · exact hrest h

/-- The loop hands out exactly what is not yet assigned, to the spaces of the list. -/
lemma distributeLoop_spec {extra totalWeight : ℕ} {fl : List (ℕ × ℕ)} :
    ∀ {w w' : List ℕ} {a : ℕ}, distributeLoop extra totalWeight fl w a = some w' →
      w'.length = w.length ∧ (∀ k, k ∉ fl.map Prod.fst → w'[k]? = w[k]?) ∧
        (fl ≠ [] → w'.sum + a = w.sum + extra) := by
  induction fl with
  | nil =>
    intro w w' a h
    obtain rfl := Option.some.inj h
    exact ⟨rfl, fun _ _ => rfl, by simp⟩
  | cons c fl ih =>
    intro w w' a h
    obtain ⟨k, u⟩ := c
    simp only [distributeLoop, bind, Option.bind_eq_some_iff, U64.add_eq_some] at h
    obtain ⟨add, hadd, b, hb, _, ⟨-, rfl⟩, _, ⟨-, rfl⟩, h⟩ := h
    obtain ⟨hlt, rfl⟩ := List.getElem?_eq_some_iff.mp hb
    obtain ⟨hlen, hframe, hsum⟩ := ih h
    have hset := sum_set hlt (w[k] + add)
    refine ⟨by simpa using hlen, fun j hj => ?_, fun _ => ?_⟩
    · rw [List.map_cons, List.mem_cons, not_or] at hj
      rw [hframe j hj.2, List.getElem?_set_ne (Ne.symm hj.1)]
    · rcases fl with _ | ⟨d, fl⟩
      · -- the last space takes the rest
        simp only [flexibleShare, List.isEmpty_nil, if_true, U64.sub_eq_some] at hadd
        rw [distributeLoop, Option.some.injEq] at h
        rw [← h]
        omega
      · have := hsum (by simp)
        omega

/-- Distribution reaches only flexible spaces of the range, and gives away at most the
extra room. -/
lemma distributeFlexibleSpace_spec {bar : BarSpec} {w w' : List ℕ} {lo hi extra : ℕ}
    (h : distributeFlexibleSpace bar w lo hi extra = some w') :
    w'.length = w.length ∧ w'.sum ≤ w.sum + extra ∧
      (∀ k, (k < lo ∨ hi ≤ k) → w'[k]? = w[k]?) ∧
      ∀ (k : ℕ) e, bar.elements[k]? = some e → e.isContent = true → w'[k]? = w[k]? := by
  have hsame : w' = w → w'.length = w.length ∧ w'.sum ≤ w.sum + extra ∧
      (∀ k, (k < lo ∨ hi ≤ k) → w'[k]? = w[k]?) ∧
      ∀ (k : ℕ) e, bar.elements[k]? = some e → e.isContent = true → w'[k]? = w[k]? := by
    rintro rfl
    exact ⟨rfl, by omega, fun _ _ => rfl, fun _ _ _ _ => rfl⟩
  rw [distributeFlexibleSpace] at h
  split_ifs at h with h0
  · exact hsame (Option.some.inj h).symm
  simp only [bind, Option.bind_eq_some_iff, U64.sum_eq_some] at h
  obtain ⟨_, ⟨-, rfl⟩, h⟩ := h
  split_ifs at h with hz
  · exact hsame (Option.some.inj h).symm
  obtain ⟨hlen, hframe, hsum⟩ := distributeLoop_spec h
  -- a positive weight means that there is a space to give the room to
  have hne : flexibleSpaces lo hi 0 bar.elements ≠ [] := by
    rintro heq
    simp [heq] at hz
  have hmem : ∀ k ∈ (flexibleSpaces lo hi 0 bar.elements).map Prod.fst,
      lo ≤ k ∧ k < hi ∧ ∃ m u, bar.elements[k]? = some (.flexibleSpace m u) := by
    intro k hk
    obtain ⟨⟨k', u⟩, hku, rfl⟩ := List.mem_map.mp hk
    obtain ⟨h1, h2, j, m, u, hj, he⟩ := mem_flexibleSpaces hku
    rw [Nat.zero_add] at hj
    exact ⟨h1, h2, m, u, hj ▸ he⟩
  have hs := hsum hne
  refine ⟨hlen, by omega, fun k hk => hframe k fun hin => ?_, fun k e he hc =>
    hframe k fun hin => ?_⟩
  · have := hmem k hin
    omega
  · obtain ⟨-, -, m, u, hk⟩ := hmem k hin
    obtain rfl : Element.flexibleSpace m u = e := Option.some.inj (hk.symm.trans he)
    simp [Element.isContent] at hc

end TouchBar.Layout
