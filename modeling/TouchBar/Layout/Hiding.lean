import TouchBar.Layout.Visibility

/-!
# The hiding loop

If the minimum widths of a bar exceed the available width, the loop of `resolve`
takes the visibility units that hold no required item, in the order of their
priority, and hides them one by one until the rest fits.  The loop keeps a
running total; `hideLoop_eq_some` says which units it hides and that the total is
at every point the demand of what is still visible.
-/

namespace TouchBar.Layout

open TouchBar.Rust TouchBar.Lib Outcome

/-- Items and groups, as opposed to spaces. -/
def Element.isContent : Element → Bool
  | .item _ => true
  | .group _ => true
  | .fixedSpace _ => false
  | .flexibleSpace _ _ => false

/-- The width of an element when content has the width `f` of its sizing, or none if it
is hidden.  `total_width` and the first widths of `resolve` differ only in `f`. -/
def elementWidth (f : Sizing → ℕ) : Element → Bool → Sizing → ℕ
  | .item _, shown, s => if shown then f s else 0
  | .group _, shown, s => if shown then f s else 0
  | .fixedSpace width, _, _ => width.toNat
  | .flexibleSpace minimum _, _, _ => minimum.toNat

def rowWidths (f : Sizing → ℕ) : List Element → List Bool → List Sizing → List ℕ
  | e :: es, shown :: visible, s :: sizing =>
    elementWidth f e shown s :: rowWidths f es visible sizing
  | _, _, _ => []

def totalWidth (bar : BarSpec) (visible : List Bool) (sizing : List Sizing) : Option ℕ :=
  U64.sum (rowWidths Sizing.minimum bar.elements visible sizing)

/-- The inner loop: hide the elements of a unit that are still visible and take their
minimums off the total. -/
def hideUnit (sizing : List Sizing) : List ℕ → List Bool → ℕ → Option (List Bool × ℕ)
  | [], visible, total => some (visible, total)
  | index :: indices, visible, total => do
    let shown ← visible[index]?
    if shown then
      let s ← sizing[index]?
      let total ← U64.sub total s.minimum
      hideUnit sizing indices (visible.set index false) total
    else
      hideUnit sizing indices visible total

/-- The outer loop, which stops when the total fits. -/
def hideLoop (sizing : List Sizing) (available : ℕ) :
    List VisibilityUnit → List Bool → ℕ → Option (List Bool × ℕ)
  | [], visible, total => some (visible, total)
  | unit :: units, visible, total => do
    let (visible, total) ← hideUnit sizing unit.elements visible total
    if total ≤ available then some (visible, total)
    else hideLoop sizing available units visible total

def hideToFit (sizing : List Sizing) (available : ℕ) (units : List VisibilityUnit)
    (visible : List Bool) (total : ℕ) : Option (List Bool × ℕ) :=
  if total > available then
    let units := units.insertionSort HidesBefore
    hideLoop sizing available (units.filter fun unit => !unit.required) visible total
  else
    some (visible, total)

/-! ## What the loops hide -/

lemma getElem?_rowWidths {f : Sizing → ℕ} {es : List Element} {vs : List Bool} {ss : List Sizing}
    {k w : ℕ} : (rowWidths f es vs ss)[k]? = some w ↔
      ∃ e v s, es[k]? = some e ∧ vs[k]? = some v ∧ ss[k]? = some s ∧ elementWidth f e v s = w := by
  induction es generalizing vs ss k with
  | nil => simp [rowWidths]
  | cons e es ih =>
    rcases vs with _ | ⟨v, vs⟩
    · simp [rowWidths]
    rcases ss with _ | ⟨s, ss⟩
    · simp [rowWidths]
    cases k with
    | zero => simp [rowWidths]
    | succ k => simpa [rowWidths] using ih

lemma length_rowWidths {f : Sizing → ℕ} {es : List Element} {vs : List Bool} {ss : List Sizing}
    (hv : vs.length = es.length) (hs : ss.length = es.length) :
    (rowWidths f es vs ss).length = es.length := by
  induction es generalizing vs ss with
  | nil => simp [rowWidths]
  | cons e es ih =>
    rcases vs with _ | ⟨v, vs⟩
    · simp at hv
    rcases ss with _ | ⟨s, ss⟩
    · simp at hs
    simpa [rowWidths] using ih (by simpa using hv) (by simpa using hs)

lemma elementWidth_of_isContent {f : Sizing → ℕ} {e : Element} {s : Sizing} {v : Bool}
    (he : e.isContent = true) : elementWidth f e v s = if v then f s else 0 := by
  cases e with
  | item i => rfl
  | group g => rfl
  | fixedSpace w => simp [Element.isContent] at he
  | flexibleSpace m w => simp [Element.isContent] at he

/-- Hiding one visible element takes its width out of the row. -/
lemma rowWidths_set {f : Sizing → ℕ} {es : List Element} {vs : List Bool} {ss : List Sizing}
    {k : ℕ} {e : Element} (he : es[k]? = some e) (hc : e.isContent = true) :
    rowWidths f es (vs.set k false) ss = (rowWidths f es vs ss).set k 0 := by
  induction es generalizing vs ss k with
  | nil => simp at he
  | cons e' es ih =>
    rcases vs with _ | ⟨v, vs⟩
    · simp [rowWidths]
    rcases ss with _ | ⟨s, ss⟩
    · cases k <;> simp [rowWidths]
    cases k with
    | zero =>
      obtain rfl : e' = e := by simpa using he
      simp [rowWidths, elementWidth_of_isContent hc]
    | succ k => simpa [rowWidths] using ih (by simpa using he)

/-- The elements `ks` are no longer visible. -/
def hide (ks : List ℕ) (vs : List Bool) : List Bool := ks.foldl (fun vs k => vs.set k false) vs

lemma hide_append (ks ls : List ℕ) (vs : List Bool) : hide (ks ++ ls) vs = hide ls (hide ks vs) :=
  List.foldl_append

@[simp] lemma length_hide (ks : List ℕ) (vs : List Bool) : (hide ks vs).length = vs.length := by
  induction ks generalizing vs with
  | nil => rfl
  | cons k ks ih => exact (ih _).trans List.length_set

@[simp] lemma getElem?_hide {ks : List ℕ} {vs : List Bool} {k : ℕ} :
    (hide ks vs)[k]? = some true ↔ vs[k]? = some true ∧ k ∉ ks := by
  induction ks generalizing vs with
  | nil => simp [hide]
  | cons l ks ih =>
    rw [hide, List.foldl_cons, ← hide, ih, List.getElem?_set, List.mem_cons]
    by_cases h : l = k
    · subst h
      by_cases hl : l < vs.length <;> simp [hl]
    · simp [h, Ne.symm h]

/-- Only content is visible. -/
def ContentOnly (es : List Element) (vs : List Bool) : Prop :=
  ∀ k : ℕ, vs[k]? = some true → ∃ e, es[k]? = some e ∧ e.isContent = true

lemma ContentOnly.hide {es : List Element} {vs : List Bool} (h : ContentOnly es vs)
    (ks : List ℕ) : ContentOnly es (hide ks vs) :=
  fun k hk => h k (getElem?_hide.mp hk).1

/-- The minimum widths of what is visible and of the spaces. -/
def demand (es : List Element) (ss : List Sizing) (vs : List Bool) : ℕ :=
  (rowWidths Sizing.minimum es vs ss).sum

lemma set_eq_self_of_false {vs : List Bool} {k : ℕ} (h : vs[k]? = some false) :
    vs.set k false = vs := by
  obtain ⟨hk, h⟩ := List.getElem?_eq_some_iff.mp h
  rw [← h, List.set_getElem_self]

/-- The inner loop hides the unit and keeps the account of the total. -/
lemma hideUnit_eq_some {es : List Element} {ss : List Sizing} {ks : List ℕ} :
    ∀ {vs vs' : List Bool} {t t' : ℕ}, hideUnit ss ks vs t = some (vs', t') →
      ContentOnly es vs → t = demand es ss vs → vs' = hide ks vs ∧ t' = demand es ss vs' := by
  induction ks with
  | nil =>
    intro vs vs' t t' h hc ht
    obtain ⟨rfl, rfl⟩ := Prod.mk.inj (Option.some.inj h)
    exact ⟨rfl, ht⟩
  | cons k ks ih =>
    intro vs vs' t t' h hc ht
    simp only [hideUnit, bind, Option.bind_eq_some_iff] at h
    obtain ⟨shown, hshown, h⟩ := h
    cases shown with
    | false =>
      -- hidden already, with an element that came before
      have h' := ih (by simpa using h) hc ht
      rw [hide, List.foldl_cons, ← hide, set_eq_self_of_false hshown]
      exact h'
    | true =>
      simp only [if_true, Option.bind_eq_some_iff, U64.sub_eq_some] at h
      obtain ⟨s, hs, _, ⟨-, rfl⟩, h⟩ := h
      obtain ⟨e, he, hec⟩ := hc k hshown
      have hw : (rowWidths Sizing.minimum es vs ss)[k]? = some s.minimum :=
        getElem?_rowWidths.mpr ⟨e, true, s, he, hshown, hs, by
          simp [elementWidth_of_isContent hec]⟩
      obtain ⟨hlt, hget⟩ := List.getElem?_eq_some_iff.mp hw
      have hsum := sum_set hlt 0
      rw [hget, ← rowWidths_set he hec] at hsum
      refine ih h (fun l hl => hc l ?_) ?_
      · rw [List.getElem?_set] at hl
        split_ifs at hl with h1 h2
        · simp at hl
        · exact hl
      · simp only [demand] at ht ⊢
        omega

/-- The loop hides the shortest sequence of units after which the rest fits, or all of
them. -/
lemma hideLoop_eq_some {es : List Element} {ss : List Sizing} {available : ℕ}
    {us : List VisibilityUnit} :
    ∀ {vs vs' : List Bool} {t t' : ℕ}, hideLoop ss available us vs t = some (vs', t') →
      ContentOnly es vs → t = demand es ss vs → available < t →
      ∃ pre post, us = pre ++ post ∧ vs' = hide (pre.flatMap VisibilityUnit.elements) vs ∧
        t' = demand es ss vs' ∧ (post ≠ [] → t' ≤ available) ∧
        ∀ front u back, pre = front ++ u :: back →
          available < demand es ss (hide (front.flatMap VisibilityUnit.elements) vs) := by
  induction us with
  | nil =>
    intro vs vs' t t' h hc ht hlt
    obtain ⟨rfl, rfl⟩ := Prod.mk.inj (Option.some.inj h)
    exact ⟨[], [], rfl, rfl, ht, by simp, by simp⟩
  | cons u us ih =>
    intro vs vs' t t' h hc ht hlt
    simp only [hideLoop, bind, Option.bind_eq_some_iff, Prod.exists] at h
    obtain ⟨v₁, t₁, hu, h⟩ := h
    obtain ⟨rfl, ht₁⟩ := hideUnit_eq_some hu hc ht
    split_ifs at h with hfit
    · -- the rest fits now: the unit is the last one hidden
      obtain ⟨rfl, rfl⟩ := Prod.mk.inj (Option.some.inj h)
      refine ⟨[u], us, rfl, by simp, ht₁, fun _ => hfit, ?_⟩
      intro front v back hpre
      obtain rfl : front = [] := by
        rcases front with _ | ⟨_, _ | ⟨_, _⟩⟩ <;> simp at hpre ⊢
      rwa [List.flatMap_nil, hide, List.foldl_nil, ← ht]
    · obtain ⟨pre, post, rfl, rfl, ht', hpost, hpre⟩ := ih h (hc.hide _) ht₁ (not_le.mp hfit)
      refine ⟨u :: pre, post, rfl, by rw [List.flatMap_cons, hide_append], ht', hpost, ?_⟩
      intro front v back hsplit
      rcases front with _ | ⟨w, front⟩
      · rwa [List.flatMap_nil, hide, List.foldl_nil, ← ht]
      · rw [List.cons_append, List.cons.injEq] at hsplit
        obtain ⟨rfl, hsplit⟩ := hsplit
        rw [List.flatMap_cons, hide_append]
        exact hpre front v back hsplit

end TouchBar.Layout
