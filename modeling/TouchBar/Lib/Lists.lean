import Mathlib

/-!
# Lists related element by element

A pass over a list that can fail yields a second list of the same length,
related to the first position by position.  These are the facts about
`List.Forall₂` and about updating one position that the passes need, and that
sorting commutes with dropping elements.
-/

namespace TouchBar.Lib

variable {α β γ : Type*} {R : α → β → Prop} {l : List α} {m : List β}

lemma forall₂_exists_right (h : List.Forall₂ R l m) {a : α} (ha : a ∈ l) : ∃ b ∈ m, R a b := by
  induction h with
  | nil => simp at ha
  | cons hab _ ih =>
    rcases List.mem_cons.mp ha with rfl | ha
    · exact ⟨_, List.mem_cons_self, hab⟩
    · obtain ⟨b, hb, hr⟩ := ih ha
      exact ⟨b, List.mem_cons_of_mem _ hb, hr⟩

lemma forall₂_exists_left (h : List.Forall₂ R l m) {b : β} (hb : b ∈ m) : ∃ a ∈ l, R a b :=
  forall₂_exists_right h.flip hb

lemma forall₂_imp_of_mem {S : α → β → Prop} (hS : ∀ a ∈ l, ∀ b, R a b → S a b)
    (h : List.Forall₂ R l m) : List.Forall₂ S l m := by
  have hmem : List.Forall₂ (fun a b => a ∈ l ∧ R a b) l m :=
    (List.forall₂_and_left _ _).mpr ⟨fun _ ha => ha, h⟩
  exact hmem.imp fun a b hab => hS a hab.1 b hab.2

lemma forall₂_trans {S : α → α → Prop} (hS : ∀ a b c, S a b → S b c → S a c)
    {l₁ l₂ l₃ : List α} (h₁ : List.Forall₂ S l₁ l₂) (h₂ : List.Forall₂ S l₂ l₃) :
    List.Forall₂ S l₁ l₃ := by
  induction h₁ generalizing l₃ with
  | nil => exact h₂
  | cons hab _ ih =>
    cases h₂ with
    | cons hbc h₂ => exact .cons (hS _ _ _ hab hbc) (ih h₂)

/-- Replacing one entry of a list changes its sum by the difference. -/
lemma sum_set {w : List ℕ} {i : ℕ} (hi : i < w.length) (a : ℕ) :
    (w.set i a).sum + w[i] = w.sum + a := by
  induction w generalizing i with
  | nil => simp at hi
  | cons b w ih =>
    cases i with
    | zero =>
      simp only [List.set_cons_zero, List.sum_cons, List.getElem_cons_zero]
      omega
    | succ i =>
      have h := ih (i := i) (by simpa using hi)
      simp only [List.set_cons_succ, List.sum_cons, List.getElem_cons_succ]
      omega

/-! ## Sorting -/

section Sorting

variable {r : α → α → Prop} [DecidableRel r] {p : α → Bool} {a : α}

lemma orderedInsert_eq_cons {l : List α} (h : ∀ b ∈ l, r a b) : l.orderedInsert r a = a :: l := by
  cases l with
  | nil => rfl
  | cons b l => exact List.orderedInsert_cons_of_le r l (h b List.mem_cons_self)

lemma filter_orderedInsert [IsTrans α r] {l : List α} (h : l.Pairwise r) :
    (l.orderedInsert r a).filter p =
      if p a then (l.filter p).orderedInsert r a else l.filter p := by
  induction l with
  | nil => by_cases ha : p a <;> simp [ha]
  | cons b l ih =>
    rw [List.pairwise_cons] at h
    rw [List.orderedInsert]
    split_ifs with hab ha ha
    · rw [List.filter_cons_of_pos ha, orderedInsert_eq_cons]
      intro c hc
      rcases List.mem_cons.mp (List.mem_of_mem_filter hc) with rfl | hc
      · exact hab
      · exact IsTrans.trans a b c hab (h.1 c hc)
    · rw [List.filter_cons_of_neg ha]
    · by_cases hb : p b
      · simp [List.filter_cons_of_pos hb, ih h.2, ha, hab]
      · simp [List.filter_cons_of_neg hb, ih h.2, ha]
    · by_cases hb : p b <;> simp [hb, ih h.2, ha]

/-- Sorting and then dropping elements is dropping them and then sorting. -/
theorem filter_insertionSort [IsTrans α r] [Std.Total r] (l : List α) :
    (l.insertionSort r).filter p = (l.filter p).insertionSort r := by
  induction l with
  | nil => rfl
  | cons b l ih =>
    rw [List.insertionSort_cons, filter_orderedInsert (List.pairwise_insertionSort r l), ih]
    by_cases hb : p b <;> simp [hb]

/-- Sorting by distinct keys makes them strictly increasing. -/
theorem pairwise_lt_insertionSort {κ : Type*} [LinearOrder κ] {key : α → κ} {l : List α}
    (h : (l.map key).Nodup) :
    (l.insertionSort fun a b => key a ≤ key b).Pairwise fun a b => key a < key b := by
  have : IsTrans α fun a b => key a ≤ key b := ⟨fun _ _ _ => le_trans⟩
  have : Std.Total fun a b => key a ≤ key b := ⟨fun _ _ => le_total _ _⟩
  have hle := List.pairwise_insertionSort (fun a b => key a ≤ key b) l
  have hne : (l.insertionSort fun a b => key a ≤ key b).Pairwise fun a b => key a ≠ key b := by
    rw [← List.pairwise_map (f := key) (R := fun x y => x ≠ y)]
    exact (((List.perm_insertionSort _ l).map key).nodup_iff).mpr h
  exact hle.imp₂ (fun _ _ => lt_of_le_of_ne) hne

end Sorting

/-- If only one element of a list may give something that passes a test, it alone decides
what passes. -/
lemma filter_filterMap_only {α β : Type*} {l : List α} {g : α → Option β} {test : β → Bool}
    {i : ℕ} (h : ∀ j, j ≠ i → ∀ a ∈ l[j]?, ∀ b ∈ g a, test b = false) :
    (l.filterMap g).filter test = (l[i]?.bind g).toList.filter test := by
  induction l generalizing i with
  | nil => rfl
  | cons a l ih =>
    have hcons : ((a :: l).filterMap g).filter test =
        (g a).toList.filter test ++ (l.filterMap g).filter test := by
      cases hg : g a with
      | none => simp [hg]
      | some b => by_cases hb : test b = true <;> simp [hg, hb]
    rw [hcons]
    cases i with
    | zero =>
      have hrest : (l.filterMap g).filter test = [] := by
        refine List.filter_eq_nil_iff.2 fun b hb => ?_
        obtain ⟨a', ha', hgb⟩ := List.mem_filterMap.1 hb
        obtain ⟨j, hj⟩ := List.mem_iff_getElem?.1 ha'
        rw [h (j + 1) (by omega) a' (by simpa using hj) b hgb]
        simp
      rw [hrest, List.append_nil]
      simp
    | succ i =>
      have hfirst : (g a).toList.filter test = [] := by
        refine List.filter_eq_nil_iff.2 fun b hb => ?_
        rw [h 0 (by omega) a (by simp) b (Option.mem_toList.1 hb)]
        simp
      have hrest : (l.filterMap g).filter test = (l[i]?.bind g).toList.filter test :=
        ih fun j hj a' ha' => h (j + 1) (by omega) a' (by simpa using ha')
      rw [hfirst, List.nil_append, hrest]
      simp

end TouchBar.Lib
