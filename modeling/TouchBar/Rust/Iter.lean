import Mathlib

/-!
# Iterators

`Iterator::max_by_key`, which also stands for `max_by` with a comparison of keys.
Among several maximal elements the last one is returned.
-/

namespace TouchBar.Rust

variable {α κ : Type*} [LinearOrder κ]

/-- `max_by_key`. -/
def maxByKey (key : α → κ) : List α → Option α
  | [] => none
  | a :: l => some (l.foldl (fun best x => if key x < key best then best else x) a)

@[simp] lemma maxByKey_nil (key : α → κ) : maxByKey key [] = none := rfl

lemma foldl_max_spec (key : α → κ) (l : List α) (a : α) :
    (l.foldl (fun best x => if key x < key best then best else x) a) ∈ a :: l ∧
      ∀ b ∈ a :: l,
        key b ≤ key (l.foldl (fun best x => if key x < key best then best else x) a) := by
  induction l generalizing a with
  | nil => simp
  | cons x l ih =>
    rw [List.foldl_cons]
    split_ifs with hlt
    · obtain ⟨hmem, hle⟩ := ih a
      refine ⟨?_, fun b hb => ?_⟩
      · rcases List.mem_cons.mp hmem with h | h
        · rw [h]
          exact List.mem_cons_self
        · exact List.mem_cons_of_mem _ (List.mem_cons_of_mem _ h)
      · rcases List.mem_cons.mp hb with rfl | hb
        · exact hle _ List.mem_cons_self
        rcases List.mem_cons.mp hb with rfl | hb
        · exact hlt.le.trans (hle _ List.mem_cons_self)
        · exact hle _ (List.mem_cons_of_mem _ hb)
    · obtain ⟨hmem, hle⟩ := ih x
      refine ⟨List.mem_cons_of_mem _ hmem, fun b hb => ?_⟩
      rcases List.mem_cons.mp hb with rfl | hb
      · exact (not_lt.mp hlt).trans (hle _ List.mem_cons_self)
      · exact hle _ hb

lemma maxByKey_mem {key : α → κ} {l : List α} {a : α} (h : maxByKey key l = some a) : a ∈ l := by
  cases l with
  | nil => simp at h
  | cons b l =>
    obtain rfl := Option.some.inj h
    exact (foldl_max_spec key l b).1

lemma le_maxByKey {key : α → κ} {l : List α} {a : α} (h : maxByKey key l = some a) :
    ∀ b ∈ l, key b ≤ key a := by
  cases l with
  | nil => simp at h
  | cons c l =>
    obtain rfl := Option.some.inj h
    exact (foldl_max_spec key l c).2

@[simp] lemma maxByKey_eq_none {key : α → κ} {l : List α} : maxByKey key l = none ↔ l = [] := by
  cases l <;> simp [maxByKey]

end TouchBar.Rust
