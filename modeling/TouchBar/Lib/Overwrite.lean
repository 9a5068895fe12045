import TouchBar.Rust.Outcome

/-!
# Overwriting parts of a list

A block of symbols is written over the symbols of a list from some place on.  If many blocks
are written at places where no two of them meet, every block stands at its place afterwards,
and everything else is as it was.  The second half has loops that never fail.
-/

namespace TouchBar.Lib

open TouchBar.Rust Outcome

variable {ι β : Type*}

/-- Write a block over a list, from a place on. -/
def overwrite (target : List β) (place : ℕ) : List β → List β
  | [] => target
  | b :: block => overwrite (target.set place b) (place + 1) block

@[simp] lemma length_overwrite (target : List β) (place : ℕ) (block : List β) :
    (overwrite target place block).length = target.length := by
  induction block generalizing target place with
  | nil => rfl
  | cons b block ih => rw [overwrite, ih, List.length_set]

/-- Outside the block nothing changes. -/
lemma getElem?_overwrite_of_ne {target : List β} {place k : ℕ} {block : List β}
    (h : ∀ i < block.length, k ≠ place + i) : (overwrite target place block)[k]? = target[k]? := by
  induction block generalizing target place with
  | nil => rfl
  | cons b block ih =>
    have hfirst : k ≠ place := h 0 (Nat.succ_pos _)
    rw [overwrite, ih, List.getElem?_set_ne (Ne.symm hfirst)]
    intro i hi
    have hnext := h (i + 1) (Nat.succ_lt_succ hi)
    omega

/-- The block stands at its place. -/
lemma getElem?_overwrite {target : List β} {place i : ℕ} {block : List β}
    (hfits : place + block.length ≤ target.length) (hi : i < block.length) :
    (overwrite target place block)[place + i]? = block[i]? := by
  induction block generalizing target place i with
  | nil => cases hi
  | cons b block ih =>
    rw [List.length_cons] at hfits hi
    rw [overwrite]
    cases i with
    | zero =>
      have hlater : (overwrite (target.set place b) (place + 1) block)[place]? =
          (target.set place b)[place]? := getElem?_overwrite_of_ne fun i _ => by omega
      show (overwrite (target.set place b) (place + 1) block)[place]? = some b
      rw [hlater, List.getElem?_set_self (by omega)]
    | succ i =>
      have hplace : place + (i + 1) = place + 1 + i := by omega
      rw [hplace, ih (by rw [List.length_set]; omega) (by omega), List.getElem?_cons_succ]

variable {place : ι → ℕ} {block : ι → List β}

/-- Write the blocks of some indices, one after the other. -/
def overwriteAll (place : ι → ℕ) (block : ι → List β) (target : List β) (is : List ι) : List β :=
  is.foldl (fun target i => overwrite target (place i) (block i)) target

@[simp] lemma length_overwriteAll (target : List β) (is : List ι) :
    (overwriteAll place block target is).length = target.length := by
  induction is generalizing target with
  | nil => rfl
  | cons i is ih => exact (ih _).trans (length_overwrite target (place i) (block i))

lemma getElem?_overwriteAll_of_ne {target : List β} {is : List ι} {k : ℕ}
    (h : ∀ i ∈ is, ∀ j < (block i).length, k ≠ place i + j) :
    (overwriteAll place block target is)[k]? = target[k]? := by
  induction is generalizing target with
  | nil => rfl
  | cons i is ih =>
    refine (ih fun i' hi' => h i' (List.mem_cons_of_mem i hi')).trans ?_
    exact getElem?_overwrite_of_ne (h i List.mem_cons_self)

/-- Where no two blocks meet, each stands at its place in the end. -/
theorem getElem?_overwriteAll {target : List β} {is : List ι}
    (hfits : ∀ i ∈ is, place i + (block i).length ≤ target.length)
    (hapart : is.Pairwise fun i i' => ∀ j < (block i).length, ∀ j' < (block i').length,
      place i + j ≠ place i' + j') {i : ι} (hi : i ∈ is) {j : ℕ} (hj : j < (block i).length) :
    (overwriteAll place block target is)[place i + j]? = (block i)[j]? := by
  induction is generalizing target with
  | nil => cases hi
  | cons first is ih =>
    rw [List.pairwise_cons] at hapart
    rcases List.mem_cons.mp hi with rfl | hrest
    · -- the blocks that follow leave the first one alone
      have hlater := @getElem?_overwriteAll_of_ne ι β place block
        (overwrite target (place i) (block i)) is (place i + j)
        fun i' hi' j' hj' => hapart.1 i' hi' j hj j' hj'
      exact hlater.trans (getElem?_overwrite (hfits i List.mem_cons_self) hj)
    · refine @ih (overwrite target (place first) (block first)) (fun i' hi' => ?_) hapart.2 hrest
      rw [length_overwrite]
      exact hfits i' (List.mem_cons_of_mem first hi')

/-! ## Loops that do not fail -/

/-- A loop whose body succeeds as long as an invariant holds is a plain fold. -/
theorem foldlM_eq_ok {ε σ : Type} {α : Type*} {f : σ → α → Outcome ε σ} {g : σ → α → σ}
    {P : σ → Prop} {l : List α} (h : ∀ a ∈ l, ∀ s, P s → f s a = ok (g s a) ∧ P (g s a)) {s : σ}
    (hs : P s) : l.foldlM f s = ok (l.foldl g s) ∧ P (l.foldl g s) := by
  induction l generalizing s with
  | nil => exact ⟨rfl, hs⟩
  | cons a l ih =>
    obtain ⟨hstep, hnext⟩ := h a List.mem_cons_self s hs
    rw [List.foldlM_cons, hstep, Outcome.ok_bind]
    exact ih (fun a' ha' => h a' (List.mem_cons_of_mem a ha')) hnext

end TouchBar.Lib
