import Mathlib

/-!
# Slices

`slice::binary_search_by`, as the standard library computes it: the window is halved
without a test for equality, and the one position that is left is compared at the end.
On a slice sorted strictly by a key it finds what a search from the left finds.
-/

namespace TouchBar.Rust

variable {α κ : Type*} [LinearOrder κ]

/-- The loop of `binary_search_by` on the window of `size` positions from `base` on, with
`fuel` rounds at most. -/
def searchBase (cmp : ℕ → Ordering) : ℕ → ℕ → ℕ → ℕ
  | 0, base, _ => base
  | fuel + 1, base, size =>
    if 1 < size then
      let half := size / 2
      let mid := base + half
      searchBase cmp fuel (if cmp mid = .gt then base else mid) (size - half)
    else base

/-- `binary_search_by`: the position of a match, or the position to insert one at. -/
def binarySearchBy (f : α → Ordering) (l : List α) : Except ℕ ℕ :=
  let base := searchBase (fun i => (l[i]?).elim .gt f) l.length 0 l.length
  match l[base]? with
  | none => .error 0
  | some a => if f a = .eq then .ok base else .error (if f a = .lt then base + 1 else base)

/-- A match that is still in the window is found. -/
lemma searchBase_eq {cmp : ℕ → Ordering} {i fuel base size : ℕ}
    (hsorted : ∀ j k, j < k → cmp k ≠ .gt → cmp j = .lt) (hi : cmp i = .eq)
    (hfuel : size ≤ fuel + 1) (hlow : base ≤ i) (hhigh : i < base + size) :
    searchBase cmp fuel base size = i := by
  induction fuel generalizing base size with
  | zero =>
    show base = i
    omega
  | succ fuel ih =>
    rw [searchBase]
    split_ifs with hsize
    · by_cases hgt : cmp (base + size / 2) = .gt
      · -- the middle is too large, and so is everything to the right of it
        have hlt : i < base + size / 2 := by
          by_contra hge
          rcases Nat.lt_or_eq_of_le (Nat.le_of_not_lt hge) with hlt | heq
          · have hmid := hsorted _ _ hlt (by simp [hi])
            simp [hgt] at hmid
          · simp [heq, hi] at hgt
        simp only [hgt, if_true]
        exact ih (by omega) hlow (by omega)
      · have hge : base + size / 2 ≤ i := by
          by_contra hlt
          have hbefore := hsorted _ _ (Nat.lt_of_not_le hlt) hgt
          simp [hi] at hbefore
        simp only [hgt, if_false]
        exact ih (by omega) hge (by omega)
    · omega

/-- On a slice sorted strictly by a key, binary search agrees with a search from the
left. -/
theorem binarySearchBy_find? {key : α → κ} {l : List α}
    (hsorted : l.Pairwise fun a b => key a < key b) (k : κ) :
    ((binarySearchBy (fun a => compare (key a) k) l).toOption.bind fun i => l[i]?) =
      l.find? fun a => key a = k := by
  set cmp : ℕ → Ordering := fun i => (l[i]?).elim .gt fun a => compare (key a) k with hcmp
  have hstrict : ∀ i j, i < j → cmp j ≠ .gt → cmp i = .lt := by
    intro i j hij hj
    have hlen : j < l.length := by
      by_contra hge
      simp [hcmp, List.getElem?_eq_none (Nat.le_of_not_lt hge)] at hj
    have hlt := List.pairwise_iff_getElem.mp hsorted i j (by omega) hlen hij
    have hle : key l[j] ≤ k := by
      simpa [hcmp, List.getElem?_eq_getElem hlen, compare_gt_iff_gt] using hj
    simpa [hcmp, List.getElem?_eq_getElem (show i < l.length by omega), compare_lt_iff_lt]
      using hlt.trans_le hle
  simp only [binarySearchBy, ← hcmp]
  cases hfind : l.find? (fun a => key a = k) with
  | none =>
    -- nothing matches, in particular not the element at the last position
    have hnone : ∀ a ∈ l, ¬ key a = k := by simpa using List.find?_eq_none.mp hfind
    cases hget : l[searchBase cmp l.length 0 l.length]? with
    | none => simp [Except.toOption]
    | some a =>
      have hne := hnone a (List.mem_of_getElem? hget)
      simp [hne, Except.toOption]
  | some a =>
    have hkey : key a = k := by simpa using List.find?_some hfind
    obtain ⟨i, hi, rfl⟩ := List.mem_iff_getElem.mp (List.mem_of_find?_eq_some hfind)
    have hget : l[i]? = some l[i] := List.getElem?_eq_getElem hi
    have hbase : searchBase cmp l.length 0 l.length = i :=
      searchBase_eq hstrict (by simp [hcmp, hget, hkey]) (by omega) (by omega) (by omega)
    simp [hbase, hget, hkey, Except.toOption]

end TouchBar.Rust
