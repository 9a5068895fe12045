import TouchBar.Lib.Greedy
import TouchBar.Layout.Sizing

/-!
# Distributing a width over children

The loops that bring the widths of a row of children to a given total: the
compression loop of the bar, the same loop as it is written for a natural group,
the growth loop of a natural group, and the even split of an equal-width group.
A debug assertion that fails is a panic, like an overflow.
-/

namespace TouchBar.Layout

open TouchBar.Rust TouchBar.Lib

/-! ## Compression -/

/-- The body of both compression loops: position `index` gives up to `excess`, but
keeps its `minimum`. -/
def shrinkOne (widths : List ℕ) (index minimum excess : ℕ) : Option (List ℕ × ℕ) := do
  let width ← widths[index]?
  let slack ← U64.sub width minimum
  let reduction := min slack excess
  let width ← U64.sub width reduction
  let excess ← U64.sub excess reduction
  return (widths.set index width, excess)

/-- The order in which compression candidates, a priority and an index, are taken:
ascending priority, and among equals the later element first. -/
def CompressesBefore (l r : ℤ × ℕ) : Prop := l.1 < r.1 ∨ (l.1 = r.1 ∧ r.2 ≤ l.2)

instance : DecidableRel CompressesBefore := fun _ _ => by
  unfold CompressesBefore
  infer_instance

/-- The loop of `compress_to_fit`, which looks at the excess before each step. -/
def compressLoop : List (ℤ × ℕ × ℕ) → List ℕ → ℕ → Option (List ℕ × ℕ)
  | [], widths, excess => some (widths, excess)
  | (_, index, minimum) :: candidates, widths, excess =>
    if excess = 0 then some (widths, excess)
    else do
      let (widths, excess) ← shrinkOne widths index minimum excess
      compressLoop candidates widths excess

/-- The loop of `natural_child_widths`, which looks at the excess after each step. -/
def compressChildrenLoop (sizing : List Sizing) :
    List (ℤ × ℕ) → List ℕ → ℕ → Option (List ℕ × ℕ)
  | [], widths, excess => some (widths, excess)
  | (_, index) :: candidates, widths, excess => do
    let child ← sizing[index]?
    let (widths, excess) ← shrinkOne widths index child.minimum excess
    if excess = 0 then some (widths, excess)
    else compressChildrenLoop sizing candidates widths excess

lemma shrinkOne_eq_some {widths : List ℕ} {index minimum excess : ℕ} {r : List ℕ × ℕ}
    (h : shrinkOne widths index minimum excess = some r) :
    ∃ a, widths[index]? = some a ∧ minimum ≤ a ∧
      r = (widths.set index (a - min (a - minimum) excess), excess - min (a - minimum) excess) := by
  simp only [shrinkOne, bind, Option.bind_eq_some_iff, U64.sub_eq_some, pure, Option.some.injEq]
    at h
  obtain ⟨a, ha, _, ⟨hle, rfl⟩, _, ⟨-, rfl⟩, _, ⟨-, rfl⟩, rfl⟩ := h
  exact ⟨a, ha, hle, rfl⟩

lemma compressLoop_squeeze {cs : List (ℤ × ℕ × ℕ)} {w w' : List ℕ} {e e' : ℕ}
    (h : compressLoop cs w e = some (w', e')) : Squeeze (cs.map Prod.snd) w e w' e' := by
  induction cs generalizing w e with
  | nil =>
    obtain ⟨rfl, rfl⟩ := Prod.mk.inj (Option.some.inj h)
    exact .nil
  | cons c cs ih =>
    obtain ⟨p, index, minimum⟩ := c
    rw [compressLoop] at h
    split_ifs at h with he
    · obtain ⟨rfl, rfl⟩ := Prod.mk.inj (Option.some.inj h)
      subst he
      exact .done
    · simp only [bind, Option.bind_eq_some_iff, Prod.exists] at h
      obtain ⟨v, f, hstep, h⟩ := h
      obtain ⟨a, ha, hle, hr⟩ := shrinkOne_eq_some hstep
      obtain ⟨rfl, rfl⟩ := Prod.mk.inj hr
      exact .step ha hle (ih h)

/-- The loop of a natural group is the same greedy run, over the minimums of the children. -/
lemma compressChildrenLoop_squeeze {sizing : List Sizing} {cs : List (ℤ × ℕ)} {w w' : List ℕ}
    {e e' : ℕ} (h : compressChildrenLoop sizing cs w e = some (w', e')) :
    Squeeze (cs.map fun c => (c.2, (sizing[c.2]?.map Sizing.minimum).getD 0)) w e w' e' := by
  induction cs generalizing w e with
  | nil =>
    obtain ⟨rfl, rfl⟩ := Prod.mk.inj (Option.some.inj h)
    exact .nil
  | cons c cs ih =>
    obtain ⟨p, index⟩ := c
    rw [compressChildrenLoop] at h
    simp only [bind, Option.bind_eq_some_iff, Prod.exists] at h
    obtain ⟨child, hchild, v, f, hstep, h⟩ := h
    obtain ⟨a, ha, hle, hr⟩ := shrinkOne_eq_some hstep
    obtain ⟨rfl, rfl⟩ := Prod.mk.inj hr
    simp only [List.map_cons, hchild, Option.map_some, Option.getD_some]
    refine .step ha hle ?_
    split_ifs at h with hz
    · obtain ⟨rfl, rfl⟩ := Prod.mk.inj (Option.some.inj h)
      rw [hz]
      exact .done
    · exact ih h

/-! ## Growth -/

/-- One round of the `while` loop of `grow_widths`: every position below its maximum
receives at most `share`, from left to right, until `extra` is assigned.  A position
changes only at its own turn, so the positions that were growable before the round
are those that are growable when the walk reaches them. -/
def growPass (share extra : ℕ) : List ℕ → List Sizing → ℕ → Option (List ℕ × ℕ)
  | width :: widths, s :: sizing, assigned =>
    if width < s.maximum ∧ assigned < extra then do
      let room ← U64.sub s.maximum width
      let left ← U64.sub extra assigned
      let addition := min (min room share) left
      let width ← U64.add width addition
      let assigned ← U64.add assigned addition
      let (widths, assigned) ← growPass share extra widths sizing assigned
      return (width :: widths, assigned)
    else do
      let (widths, assigned) ← growPass share extra widths sizing assigned
      return (width :: widths, assigned)
  | widths, _, assigned => some (widths, assigned)

/-- The number of positions below their maximum. -/
def growable (widths : List ℕ) (sizing : List Sizing) : ℕ :=
  ((widths.zip sizing).filter fun p => p.1 < p.2.maximum).length

/-- The `while` loop of `grow_widths`.  Every round assigns at least one pixel, so
`extra` rounds are enough; a run that needed more would not return. -/
def growLoop (sizing : List Sizing) : ℕ → List ℕ → ℕ → Option (List ℕ × ℕ)
  | rounds, widths, extra =>
    if extra = 0 then some (widths, extra)
    else if growable widths sizing = 0 then some (widths, extra)
    else match rounds with
      | 0 => none
      | rounds + 1 => do
        let share := max (extra / growable widths sizing) 1
        let (widths, assigned) ← growPass share extra widths sizing 0
        assert (0 < assigned)
        let extra ← U64.sub extra assigned
        growLoop sizing rounds widths extra

def growWidths (widths : List ℕ) (sizing : List Sizing) (extra : ℕ) : Option (List ℕ) := do
  let (widths, extra) ← growLoop sizing extra widths extra
  assert (extra = 0)
  return widths

/-- What one round does: it raises widths towards their maximums and accounts for
every pixel. -/
lemma growPass_spec {share extra : ℕ} {w w' : List ℕ} {ss : List Sizing} {a a' : ℕ}
    (h : growPass share extra w ss a = some (w', a'))
    (hcap : List.Forall₂ (· ≤ ·) w (ss.map Sizing.maximum)) :
    w'.sum + a = w.sum + a' ∧ List.Forall₂ (· ≤ ·) w w' ∧
      List.Forall₂ (· ≤ ·) w' (ss.map Sizing.maximum) := by
  induction w generalizing w' ss a with
  | nil =>
    obtain ⟨rfl, rfl⟩ := Prod.mk.inj (Option.some.inj h)
    exact ⟨rfl, .nil, hcap⟩
  | cons b w ih =>
    cases ss with
    | nil => cases hcap
    | cons s ss =>
      rw [List.map_cons, List.forall₂_cons] at hcap
      rw [growPass] at h
      split_ifs at h with hc
      · -- the child takes its share, as far as its maximum and the extra room go
        simp only [bind, Option.bind_eq_some_iff, U64.sub_eq_some, U64.add_eq_some, Prod.exists,
          pure, Option.some.injEq, Prod.mk.injEq] at h
        obtain ⟨_, ⟨-, rfl⟩, _, ⟨-, rfl⟩, _, ⟨-, rfl⟩, _, ⟨-, rfl⟩, v, t, hrest, rfl, rfl⟩ := h
        obtain ⟨hsum, hle, hle'⟩ := ih hrest hcap.2
        refine ⟨?_, .cons (by omega) hle, .cons (by omega) hle'⟩
        simp only [List.sum_cons]
        omega
      · simp only [bind, Option.bind_eq_some_iff, Prod.exists, pure, Option.some.injEq,
          Prod.mk.injEq] at h
        obtain ⟨v, t, hrest, rfl, rfl⟩ := h
        obtain ⟨hsum, hle, hle'⟩ := ih hrest hcap.2
        refine ⟨?_, .cons le_rfl hle, .cons hcap.1 hle'⟩
        simp only [List.sum_cons]
        omega

/-- No position is growable only when every position is at its maximum. -/
lemma eq_of_growable_eq_zero {w : List ℕ} {ss : List Sizing}
    (hcap : List.Forall₂ (· ≤ ·) w (ss.map Sizing.maximum)) (h : growable w ss = 0) :
    w = ss.map Sizing.maximum := by
  induction ss generalizing w with
  | nil =>
    cases hcap
    rfl
  | cons s ss ih =>
    cases hcap with
    | @cons b _ w _ hb hcap =>
      have hmem : ∀ p ∈ (b :: w).zip (s :: ss), ¬ p.1 < p.2.maximum := by
        simpa [growable, List.filter_eq_nil_iff] using h
      have hbs : b = s.maximum := by
        have := hmem (b, s) (by simp)
        simp only at this
        omega
      have hrest : growable w ss = 0 := by
        rw [growable, List.length_eq_zero_iff, List.filter_eq_nil_iff]
        intro p hp
        simpa using hmem p (by simp [hp])
      rw [List.map_cons, hbs, ih hcap hrest]

theorem growLoop_grow {ss : List Sizing} {n : ℕ} {w w' : List ℕ} {e e' : ℕ}
    (h : growLoop ss n w e = some (w', e'))
    (hcap : List.Forall₂ (· ≤ ·) w (ss.map Sizing.maximum)) :
    Grow (ss.map Sizing.maximum) w e w' e' := by
  induction n generalizing w e with
  | zero =>
    rw [growLoop] at h
    split_ifs at h with he hg
    · obtain ⟨rfl, rfl⟩ := Prod.mk.inj (Option.some.inj h)
      exact ⟨rfl, List.forall₂_refl _, hcap, fun hpos => absurd he (by omega)⟩
    · obtain ⟨rfl, rfl⟩ := Prod.mk.inj (Option.some.inj h)
      exact ⟨rfl, List.forall₂_refl _, hcap, fun _ => eq_of_growable_eq_zero hcap hg⟩
  | succ n ih =>
    rw [growLoop] at h
    split_ifs at h with he hg
    · obtain ⟨rfl, rfl⟩ := Prod.mk.inj (Option.some.inj h)
      exact ⟨rfl, List.forall₂_refl _, hcap, fun hpos => absurd he (by omega)⟩
    · obtain ⟨rfl, rfl⟩ := Prod.mk.inj (Option.some.inj h)
      exact ⟨rfl, List.forall₂_refl _, hcap, fun _ => eq_of_growable_eq_zero hcap hg⟩
    · simp only [bind, Option.bind_eq_some_iff, Prod.exists, U64.sub_eq_some] at h
      obtain ⟨v, a, hpass, -, -, _, ⟨hle, rfl⟩, h⟩ := h
      obtain ⟨hsum, hup, hcap'⟩ := growPass_spec hpass hcap
      exact Grow.trans (by omega) hup (ih h hcap')

/-! ## Even split -/

def equalChildWidths (count contentWidth : ℕ) : Option (List ℕ) := do
  -- integer division by zero panics
  assert (count ≠ 0)
  let base := contentWidth / count
  let remainder := contentWidth % count
  (List.range count).mapM fun index => U64.add base (if index < remainder then 1 else 0)

lemma mapM_add_eq_some {f g : ℕ → ℕ} {l r : List ℕ}
    (h : l.mapM (fun i => U64.add (f i) (g i)) = some r) : r = l.map fun i => f i + g i := by
  induction l generalizing r with
  | nil => simpa [eq_comm] using h
  | cons i l ih =>
    simp only [List.mapM_cons, bind, Option.bind_eq_some_iff, U64.add_eq_some, pure,
      Option.some.injEq] at h
    obtain ⟨_, ⟨-, rfl⟩, r', hr, rfl⟩ := h
    rw [ih hr, List.map_cons]

lemma sum_map_range_lt (n r : ℕ) :
    ((List.range n).map fun i => if i < r then 1 else 0).sum = min r n := by
  induction n with
  | zero => simp
  | succ n ih =>
    rw [List.range_succ, List.map_append, List.sum_append, ih]
    simp only [List.map_cons, List.map_nil, List.sum_cons, List.sum_nil]
    split_ifs <;> omega

/-- The even split has one width for each child, adds up, and its widths differ by
at most one pixel. -/
lemma equalChildWidths_spec {n c : ℕ} {w : List ℕ} (h : equalChildWidths n c = some w) :
    w.length = n ∧ w.sum = c ∧ ∀ a ∈ w, c / n ≤ a ∧ (a ≤ c / n ∨ (a = c / n + 1 ∧ c % n ≠ 0)) := by
  simp only [equalChildWidths, bind, Option.bind_eq_some_iff, assert_eq_some] at h
  obtain ⟨-, hn, h⟩ := h
  obtain rfl := mapM_add_eq_some h
  refine ⟨by simp, ?_, ?_⟩
  · have hmod : c % n < n := Nat.mod_lt _ (by omega)
    rw [List.sum_map_add, sum_map_range_lt, List.map_const', List.sum_replicate, List.length_range,
      smul_eq_mul, min_eq_left hmod.le]
    exact Nat.div_add_mod c n
  · intro a ha
    obtain ⟨i, -, rfl⟩ := List.mem_map.mp ha
    split_ifs with hi <;> omega

end TouchBar.Layout
