import TouchBar.Lib.Lists

/-!
# Greedy shrinking and growing of a list of widths

Two algorithms that bring the sum of a list of numbers to a target.  Shrinking
takes an excess away from chosen positions in a given order, each down to its
own floor before the next one is touched.  Growing hands out an extra amount to
the positions below their caps.  Both are described by what a run does to the
list, so that any program that performs such a run can use the facts below.
-/

namespace TouchBar.Lib

/-! ## Shrinking -/

/-- `Squeeze cs w e w' e'`: the excess `e` is taken from the positions of `cs` in
order, each at most down to the floor that stands beside it, which turns `w` into
`w'` and leaves `e'`. -/
inductive Squeeze : List (ℕ × ℕ) → List ℕ → ℕ → List ℕ → ℕ → Prop where
  /-- No candidate is left. -/
  | nil {w : List ℕ} {e : ℕ} : Squeeze [] w e w e
  /-- The excess is used up; the other candidates are not touched. -/
  | done {cs : List (ℕ × ℕ)} {w : List ℕ} : Squeeze cs w 0 w 0
  /-- The first candidate gives what it can. -/
  | step {i floor a : ℕ} {cs : List (ℕ × ℕ)} {w w' : List ℕ} {e e' : ℕ}
      (hi : w[i]? = some a) (hfloor : floor ≤ a)
      (rest : Squeeze cs (w.set i (a - min (a - floor) e)) (e - min (a - floor) e) w' e') :
      Squeeze ((i, floor) :: cs) w e w' e'

namespace Squeeze

variable {cs : List (ℕ × ℕ)} {w w' : List ℕ} {e e' : ℕ}

lemma length_eq (h : Squeeze cs w e w' e') : w'.length = w.length := by
  induction h with
  | nil => rfl
  | done => rfl
  | step _ _ _ ih => simpa using ih

/-- What leaves the list leaves the excess. -/
lemma sum_eq (h : Squeeze cs w e w' e') : w'.sum + e = w.sum + e' := by
  induction h with
  | nil => rfl
  | done => rfl
  | @step i floor a cs w w' e e' hi hfloor rest ih =>
    obtain ⟨hlt, rfl⟩ := List.getElem?_eq_some_iff.mp hi
    have hset := sum_set hlt (w[i] - min (w[i] - floor) e)
    omega

lemma frame (h : Squeeze cs w e w' e') {j : ℕ} (hj : j ∉ cs.map Prod.fst) : w'[j]? = w[j]? := by
  induction h with
  | nil => rfl
  | done => rfl
  | step hi _ _ ih =>
    simp only [List.map_cons, List.mem_cons, not_or] at hj
    rw [ih hj.2, List.getElem?_set_ne (Ne.symm hj.1)]

/-- A candidate ends between its floor and its old value. -/
lemma bounds (h : Squeeze cs w e w' e') (hnd : (cs.map Prod.fst).Nodup) :
    ∀ c ∈ cs, ∀ a, w[c.1]? = some a → c.2 ≤ a →
      ∃ b, w'[c.1]? = some b ∧ c.2 ≤ b ∧ b ≤ a := by
  induction h with
  | nil => simp
  | done => exact fun c _ a ha hfloor => ⟨a, ha, hfloor, le_rfl⟩
  | @step i floor a₀ cs w w' e e' hi hfloor rest ih =>
    rw [List.map_cons, List.nodup_cons] at hnd
    obtain ⟨hlt, -⟩ := List.getElem?_eq_some_iff.mp hi
    intro c hc a ha hca
    rcases List.mem_cons.mp hc with rfl | hcs
    · obtain rfl : a₀ = a := Option.some.inj (hi.symm.trans ha)
      refine ⟨a₀ - min (a₀ - floor) e, ?_, by omega, by omega⟩
      rw [rest.frame hnd.1, List.getElem?_set_self hlt]
    · have hne : i ≠ c.1 := by
        rintro rfl
        exact hnd.1 (List.mem_map.mpr ⟨c, hcs, rfl⟩)
      exact ih hnd.2 c hcs a (by rw [List.getElem?_set_ne hne]; exact ha) hca

lemma left_le (h : Squeeze cs w e w' e') : e' ≤ e := by
  induction h with
  | nil => exact le_rfl
  | done => exact le_rfl
  | step _ _ _ ih => omega

/-- If excess is left over, every candidate is down at its floor. -/
lemma floor_of_left (h : Squeeze cs w e w' e') (hnd : (cs.map Prod.fst).Nodup) (he : 0 < e') :
    ∀ c ∈ cs, w'[c.1]? = some c.2 := by
  induction h with
  | nil => simp
  | done => exact absurd he (lt_irrefl 0)
  | @step i floor a cs w w' e e' hi hfloor rest ih =>
    rw [List.map_cons, List.nodup_cons] at hnd
    intro c hc
    rcases List.mem_cons.mp hc with rfl | hc
    · obtain ⟨hlt, -⟩ := List.getElem?_eq_some_iff.mp hi
      have hle := rest.left_le
      rw [rest.frame hnd.1, List.getElem?_set_self hlt]
      congr 1
      omega
    · exact ih hnd.2 he c hc

/-- When every position that is not a candidate is at its floor, what is left over after
a run means that the list is down at its floors. -/
lemma eq_floors_of_left (h : Squeeze cs w e w' e') (hnd : (cs.map Prod.fst).Nodup) (he : 0 < e')
    {floors : List ℕ} (hlen : floors.length = w.length)
    (hall : ∀ i f, floors[i]? = some f →
      (i, f) ∈ cs ∨ (i ∉ cs.map Prod.fst ∧ w[i]? = some f)) : w' = floors := by
  apply List.ext_getElem?
  intro i
  cases hf : floors[i]? with
  | none =>
    rw [List.getElem?_eq_none_iff] at hf ⊢
    rw [h.length_eq]
    omega
  | some f =>
    rcases hall i f hf with hc | ⟨hc, hw⟩
    · exact h.floor_of_left hnd he _ hc
    · rw [h.frame hc, hw]

/-- When every position that is not a candidate is at its floor, each position ends
between its floor and its old value. -/
lemma forall₂_bounds (h : Squeeze cs w e w' e') (hnd : (cs.map Prod.fst).Nodup)
    {floors : List ℕ} (hfl : List.Forall₂ (· ≤ ·) floors w)
    (hall : ∀ i f, floors[i]? = some f →
      (i, f) ∈ cs ∨ (i ∉ cs.map Prod.fst ∧ w[i]? = some f)) :
    List.Forall₂ (· ≤ ·) floors w' ∧ List.Forall₂ (· ≤ ·) w' w := by
  have hlen := hfl.length_eq
  have key : ∀ i (hi : i < floors.length) (hi' : i < w'.length) (hw : i < w.length),
      floors[i] ≤ w'[i] ∧ w'[i] ≤ w[i] := by
    intro i hi hi' hw
    have hle : floors[i] ≤ w[i] := hfl.get hi hw
    rcases hall i floors[i] (List.getElem?_eq_getElem hi) with hmem | ⟨hmem, -⟩
    · obtain ⟨b, hb, h1, h2⟩ := h.bounds hnd _ hmem w[i] (List.getElem?_eq_getElem hw) hle
      simp only [List.getElem?_eq_getElem hi', Option.some.injEq] at hb
      subst hb
      exact ⟨h1, h2⟩
    · have hframe := h.frame hmem
      rw [List.getElem?_eq_getElem hi', List.getElem?_eq_getElem hw, Option.some.injEq] at hframe
      omega
  have hlen' := h.length_eq
  constructor
  · rw [List.forall₂_iff_get]
    exact ⟨by omega, fun i hi hi' => (key i hi hi' (by omega)).1⟩
  · rw [List.forall₂_iff_get]
    exact ⟨by omega, fun i hi hi' => (key i (by omega) hi hi').2⟩

/-- Without an excess nothing changes. -/
lemma eq_of_zero (h : Squeeze cs w 0 w' e') : w' = w := by
  generalize hzero : 0 = e at h
  induction h with
  | nil => rfl
  | done => rfl
  | @step i floor a cs w w' e e' hi hfloor rest ih =>
    obtain ⟨hlt, rfl⟩ := List.getElem?_eq_some_iff.mp hi
    rw [ih (by omega), ← hzero, Nat.min_zero, Nat.sub_zero, List.set_getElem_self]

/-- The shape of the result: candidates at their floors, then at most one candidate between
its floor and its old value, then candidates with their old values. -/
lemma shape (h : Squeeze cs w e w' e') (hnd : (cs.map Prod.fst).Nodup) :
    ∃ front rest, cs = front ++ rest ∧ (∀ c ∈ front, w'[c.1]? = some c.2) ∧
      (∀ c ∈ rest.head?, ∀ a, w[c.1]? = some a → c.2 ≤ a →
        ∃ b, w'[c.1]? = some b ∧ c.2 ≤ b ∧ b ≤ a) ∧
      ∀ c ∈ rest.tail, w'[c.1]? = w[c.1]? := by
  induction h with
  | nil => exact ⟨[], [], rfl, by simp, by simp, by simp⟩
  | @done cs w =>
    exact ⟨[], cs, rfl, by simp, fun c _ a ha hfloor => ⟨a, ha, hfloor, le_rfl⟩, fun _ _ => rfl⟩
  | @step i floor a cs w w' e e' hi hfloor rest ih =>
    rw [List.map_cons, List.nodup_cons] at hnd
    obtain ⟨hlt, -⟩ := List.getElem?_eq_some_iff.mp hi
    -- the first candidate is not touched any more
    have hfirst : w'[i]? = some (a - min (a - floor) e) := by
      rw [rest.frame hnd.1, List.getElem?_set_self hlt]
    have hother : ∀ c ∈ cs, (w.set i (a - min (a - floor) e))[c.1]? = w[c.1]? := by
      intro c hc
      refine List.getElem?_set_ne fun heq => hnd.1 ?_
      rw [heq]
      exact List.mem_map.mpr ⟨c, hc, rfl⟩
    rcases Nat.lt_or_ge (a - floor) e with hall | hpart
    · -- it gives all that it can, and the run goes on
      obtain ⟨front, back, rfl, hfront, hhead, htail⟩ := ih hnd.2
      refine ⟨(i, floor) :: front, back, rfl, ?_, ?_, ?_⟩
      · intro c hc
        rcases List.mem_cons.mp hc with rfl | hc
        · rw [hfirst]
          congr 1
          omega
        · exact hfront c hc
      · intro c hc a' ha' hle
        refine hhead c hc a' ?_ hle
        rw [hother c (List.mem_append_right _ (List.mem_of_mem_head? hc))]
        exact ha'
      · intro c hc
        rw [htail c hc, hother c (List.mem_append_right _ (List.mem_of_mem_tail hc))]
    · -- it takes what is left of the excess
      have hzero : e - min (a - floor) e = 0 := by omega
      rw [hzero] at rest
      have hend := rest.eq_of_zero
      refine ⟨[], (i, floor) :: cs, rfl, by simp, ?_, ?_⟩
      · intro c hc a' ha' hle
        obtain rfl : (i, floor) = c := by simpa using hc
        obtain rfl : a = a' := Option.some.inj (hi.symm.trans ha')
        exact ⟨_, hfirst, by dsimp only; omega, by omega⟩
      · intro c hc
        rw [hend]
        exact hother c hc

end Squeeze

/-! ## Growing -/

/-- `Grow caps w e w' e'`: of the extra amount `e` all but `e'` has been added to the
list `w`, without pushing any position over its cap; something is left over only
if every position has reached its cap. -/
structure Grow (caps w : List ℕ) (e : ℕ) (w' : List ℕ) (e' : ℕ) : Prop where
  sum_eq : w'.sum + e' = w.sum + e
  le : List.Forall₂ (· ≤ ·) w w'
  le_cap : List.Forall₂ (· ≤ ·) w' caps
  full : 0 < e' → w' = caps

namespace Grow

variable {caps w w₁ w₂ : List ℕ} {e e₁ e₂ : ℕ}

/-- A pass that did not fill the list is followed by another one. -/
lemma trans (hsum : w₁.sum + e₁ = w.sum + e) (hle : List.Forall₂ (· ≤ ·) w w₁)
    (h : Grow caps w₁ e₁ w₂ e₂) : Grow caps w e w₂ e₂ where
  sum_eq := h.sum_eq.trans hsum
  le := forall₂_trans (S := (· ≤ ·)) (fun _ _ _ => Nat.le_trans) hle h.le
  le_cap := h.le_cap
  full := h.full

end Grow

end TouchBar.Lib
