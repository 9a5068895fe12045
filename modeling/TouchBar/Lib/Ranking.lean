import TouchBar.Rust.Iter

/-!
# The first of the best

Of the elements of a list with the greatest key, the first one.  It is found from the
parts of the list: what comes later only has to be no better, what comes earlier has to
be worse.
-/

namespace TouchBar.Lib

variable {α κ : Type*} [LinearOrder κ] {key : α → κ} {l l' : List α} {a b : α}

/-- Everything before `a` has a lower key, and nothing after it a higher one. -/
def FirstBest (key : α → κ) (l : List α) (a : α) : Prop :=
  ∃ front back, l = front ++ a :: back ∧ (∀ b ∈ front, key b < key a) ∧
    ∀ b ∈ back, key b ≤ key a

namespace FirstBest

lemma mem (h : FirstBest key l a) : a ∈ l := by
  obtain ⟨front, back, rfl, -, -⟩ := h
  simp

lemma le (h : FirstBest key l a) (hb : b ∈ l) : key b ≤ key a := by
  obtain ⟨front, back, rfl, hfront, hback⟩ := h
  rcases List.mem_append.mp hb with hb | hb
  · exact (hfront b hb).le
  · rcases List.mem_cons.mp hb with rfl | hb
    · exact le_rfl
    · exact hback b hb

/-- What follows is no better. -/
lemma append (h : FirstBest key l a) (hle : ∀ b ∈ l', key b ≤ key a) :
    FirstBest key (l ++ l') a := by
  obtain ⟨front, back, rfl, hfront, hback⟩ := h
  refine ⟨front, back ++ l', by simp, hfront, fun b hb => ?_⟩
  rcases List.mem_append.mp hb with hb | hb
  · exact hback b hb
  · exact hle b hb

/-- What goes before is worse. -/
lemma append_left (h : FirstBest key l a) (hlt : ∀ b ∈ l', key b < key a) :
    FirstBest key (l' ++ l) a := by
  obtain ⟨front, back, rfl, hfront, hback⟩ := h
  refine ⟨l' ++ front, back, by simp, fun b hb => ?_, hback⟩
  rcases List.mem_append.mp hb with hb | hb
  · exact hlt b hb
  · exact hfront b hb

end FirstBest

lemma firstBest_cons (h : ∀ b ∈ l, key b ≤ key a) : FirstBest key (a :: l) a :=
  ⟨[], l, rfl, by simp, h⟩

lemma exists_firstBest (h : l ≠ []) : ∃ a, FirstBest key l a := by
  induction l with
  | nil => exact absurd rfl h
  | cons a l ih =>
    by_cases hl : l = []
    · rw [hl]
      exact ⟨a, firstBest_cons (by simp)⟩
    obtain ⟨b, hb⟩ := ih hl
    by_cases hlt : key a < key b
    · have hfront : ∀ c ∈ [a], key c < key b := by simpa using hlt
      exact ⟨b, hb.append_left hfront⟩
    · exact ⟨a, firstBest_cons fun c hc => (hb.le hc).trans (not_lt.mp hlt)⟩

/-- `max_by` over positions that break ties for the earlier element. -/
lemma maxByKey_eq_of_firstBest {l : List (α × ℕ)} (hsorted : l.Pairwise fun x y => x.2 < y.2)
    (h : FirstBest key (l.map Prod.fst) a) :
    ∃ i, Rust.maxByKey (fun x => toLex (key x.1, OrderDual.toDual x.2)) l = some (a, i) := by
  obtain ⟨front', back', hl, hfront, hback⟩ := h
  obtain ⟨front, rest, rfl, rfl, hrest⟩ := List.map_eq_append_iff.mp hl
  obtain ⟨⟨a, i⟩, back, rfl, rfl, rfl⟩ := List.map_eq_cons_iff.mp hrest
  obtain ⟨-, htail, -⟩ := List.pairwise_append.mp hsorted
  obtain ⟨hafter, -⟩ := List.pairwise_cons.mp htail
  obtain ⟨best, hbest⟩ := Option.ne_none_iff_exists'.mp
    (fun hnone => by simp at hnone : Rust.maxByKey
      (fun x : α × ℕ => toLex (key x.1, OrderDual.toDual x.2)) (front ++ (a, i) :: back) ≠ none)
  have hle := Rust.le_maxByKey hbest (a, i) (by simp)
  rw [Prod.Lex.le_iff] at hle
  dsimp only [ofLex_toLex] at hle
  refine ⟨i, hbest.trans ?_⟩
  -- neither what comes before nor what comes after is as good
  rcases List.mem_append.mp (Rust.maxByKey_mem hbest) with hmem | hmem
  · have hlt : key best.1 < key a := hfront _ (List.mem_map_of_mem hmem)
    rcases hle with hle | ⟨heq, -⟩
    · exact absurd hle (not_lt.mpr hlt.le)
    · exact absurd heq hlt.ne'
  · rcases List.mem_cons.mp hmem with rfl | hmem
    · rfl
    · have hkey : key best.1 ≤ key a := hback _ (List.mem_map_of_mem hmem)
      have hindex : i < best.2 := hafter best hmem
      rcases hle with hle | ⟨-, hle⟩
      · exact absurd hle (not_lt.mpr hkey)
      · exact absurd (OrderDual.toDual_le_toDual.mp hle) (not_le.mpr hindex)

end TouchBar.Lib
