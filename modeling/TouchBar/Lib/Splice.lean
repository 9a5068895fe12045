import Mathlib.Data.List.Basic
import Mathlib.Data.List.Range

/-!
# Loops that replace a part of a list

Two loops over the positions of a list: one puts other elements in the place of a range,
one rewrites the element at a position, and both pass every other element through a
partial function.  Each is equal to a concatenation of three parts.
-/

namespace TouchBar.Lib

variable {α β ε : Type*}

/-- At every position of a list and at its end: first the replacement, if the range starts
there, then the element, if it is outside the range and kept. -/
def spliceRange (keep : α → Option β) (start stop : ℕ) (replacement : List β) (l : List α) :
    List β :=
  (List.range (l.length + 1)).flatMap fun index =>
    (if index = start then replacement else []) ++
      (if start ≤ index ∧ index < stop then [] else (l[index]?.bind keep).toList)

/-- The element at a position is rewritten, if it can be, and every other one is kept or
dropped. -/
def rewriteAt (keep : α → Option β) (rewrite : α → Except ε β) (target : ℕ) :
    ℕ → List α → Except ε (List β)
  | _, [] => .ok []
  | index, a :: l =>
    if index = target then do
      let b ← rewrite a
      let rest ← rewriteAt keep rewrite target (index + 1) l
      return b :: rest
    else do
      let rest ← rewriteAt keep rewrite target (index + 1) l
      return (keep a).toList ++ rest

variable {keep : α → Option β}

/-- A list around a range. -/
lemma exists_parts {l : List α} {start stop : ℕ} (hle : start ≤ stop) (hstop : stop ≤ l.length) :
    ∃ front middle back, l = front ++ middle ++ back ∧ front.length = start ∧
      start + middle.length = stop := by
  refine ⟨l.take start, (l.drop start).take (stop - start), l.drop stop, ?_, ?_, ?_⟩
  · have hback : l.drop stop = (l.drop start).drop (stop - start) := by
      rw [List.drop_drop, Nat.add_sub_cancel' hle]
    rw [hback, List.append_assoc, List.take_append_drop, List.take_append_drop]
  · rw [List.length_take]
    omega
  · rw [List.length_take, List.length_drop]
    omega

/-- A list around a position. -/
lemma exists_at {l : List α} {target : ℕ} (h : target < l.length) :
    ∃ front a back, l = front ++ a :: back ∧ front.length = target := by
  refine ⟨l.take target, l[target], l.drop (target + 1), ?_, ?_⟩
  · rw [← List.drop_eq_getElem_cons h, List.take_append_drop]
  · rw [List.length_take, min_eq_left h.le]

lemma flatMap_range_getElem? (keep : α → Option β) (l front : List α) :
    (List.range' front.length l.length).flatMap
        (fun index => ((front ++ l)[index]?.bind keep).toList) = l.filterMap keep := by
  induction l generalizing front with
  | nil => rfl
  | cons a l ih =>
    have hrest := ih (front ++ [a])
    rw [List.length_append, List.length_singleton, List.append_assoc,
      List.singleton_append] at hrest
    rw [List.length_cons, List.range'_succ, List.flatMap_cons, hrest, List.filterMap_cons]
    cases h : keep a <;> simp [h]

/-- The elements of a list at the positions of a part. -/
lemma flatMap_range_part (keep : α → Option β) (front l back : List α) :
    (List.range' front.length l.length).flatMap
        (fun index => ((front ++ l ++ back)[index]?.bind keep).toList) = l.filterMap keep := by
  rw [← flatMap_range_getElem? keep l front]
  refine List.flatMap_congr fun index hindex => ?_
  rw [List.mem_range'_1] at hindex
  rw [List.getElem?_append_left (by rw [List.length_append]; exact hindex.2)]

/-- The loop over a range in the list is the three parts. -/
theorem spliceRange_eq (replacement : List β) (front middle back : List α) :
    spliceRange keep front.length (front.length + middle.length) replacement
        (front ++ middle ++ back) =
      front.filterMap keep ++ replacement ++ back.filterMap keep := by
  let kept (index : ℕ) : List β :=
    if front.length ≤ index ∧ index < front.length + middle.length then []
    else (((front ++ middle ++ back)[index]?).bind keep).toList
  have hfront : (List.range' 0 front.length).flatMap
      (fun index => (if index = front.length then replacement else []) ++ kept index) =
      front.filterMap keep := by
    have hpart := flatMap_range_part keep [] front (middle ++ back)
    rw [← hpart]
    refine List.flatMap_congr fun index hindex => ?_
    have hlt : index < front.length := by simpa using (List.mem_range'_1.1 hindex).2
    rw [if_neg hlt.ne, List.nil_append]
    simp only [kept]
    rw [if_neg (by omega), List.nil_append, List.append_assoc]
  have hmiddle : (List.range' front.length middle.length).flatMap kept = [] := by
    refine List.flatMap_eq_nil_iff.2 fun index hindex => ?_
    exact if_pos (List.mem_range'_1.1 hindex)
  have hback : (List.range' (front.length + middle.length) (back.length + 1)).flatMap kept =
      back.filterMap keep := by
    have hpart := flatMap_range_part keep (front ++ middle) back []
    rw [← hpart, ← List.range'_append_1 (s := front.length + middle.length) (n := 1),
      List.flatMap_append, List.length_append]
    have hlast : kept (front.length + middle.length + back.length) = [] := by
      simp only [kept]
      rw [if_neg (by omega), List.getElem?_eq_none (by simp; omega)]
      rfl
    rw [List.range'_one, List.flatMap_singleton, hlast, List.append_nil, List.append_nil]
    refine List.flatMap_congr fun index hindex => ?_
    have hle := (List.mem_range'_1.1 hindex).1
    exact if_neg (by omega)
  -- the replacement stands where the range starts
  have hrest : (List.range' front.length (middle.length + (back.length + 1))).flatMap
      (fun index => (if index = front.length then replacement else []) ++ kept index) =
      replacement ++ (List.range' front.length (middle.length + (back.length + 1))).flatMap
        kept := by
    rw [show middle.length + (back.length + 1) = middle.length + back.length + 1 by omega,
      List.range'_succ, List.flatMap_cons, List.flatMap_cons, if_pos rfl, List.append_assoc]
    congr 2
    refine List.flatMap_congr fun index hindex => ?_
    have hle := (List.mem_range'_1.1 hindex).1
    rw [if_neg (by omega), List.nil_append]
  have hrange : List.range ((front ++ middle ++ back).length + 1) =
      List.range' 0 front.length ++
        List.range' front.length (middle.length + (back.length + 1)) := by
    have happend := List.range'_append_1 (s := 0) (m := front.length)
      (n := middle.length + (back.length + 1))
    rw [Nat.zero_add] at happend
    rw [happend, List.range_eq_range', List.length_append, List.length_append]
    congr 1
    omega
  show (List.range ((front ++ middle ++ back).length + 1)).flatMap
      (fun index => (if index = front.length then replacement else []) ++ kept index) = _
  rw [hrange, List.flatMap_append, hfront, hrest, ← List.range'_append_1, List.flatMap_append,
    hmiddle, List.nil_append, hback, List.append_assoc]

lemma rewriteAt_pass {rewrite : α → Except ε β} {target index : ℕ} (h : target < index)
    (l : List α) : rewriteAt keep rewrite target index l = .ok (l.filterMap keep) := by
  induction l generalizing index with
  | nil => rfl
  | cons a l ih =>
    rw [rewriteAt, if_neg h.ne', ih (by omega), List.filterMap_cons]
    cases keep a <;> rfl

/-- The loop that rewrites an element is the three parts, if the element can be rewritten. -/
theorem rewriteAt_eq_ok_iff {rewrite : α → Except ε β} {index : ℕ} (front : List α) (a : α)
    (back : List α) {result : List β} :
    rewriteAt keep rewrite (index + front.length) index (front ++ a :: back) = .ok result ↔
      ∃ b, rewrite a = .ok b ∧ result = front.filterMap keep ++ b :: back.filterMap keep := by
  induction front generalizing index result with
  | nil =>
    rw [List.length_nil, Nat.add_zero, List.nil_append, rewriteAt, if_pos rfl,
      rewriteAt_pass (Nat.lt_succ_self index)]
    cases rewrite a with
    | error e => simp [bind, Except.bind]
    | ok b => simp [bind, Except.bind, pure, Except.pure, eq_comm]
  | cons c front ih =>
    have hne : ¬ index = index + (front.length + 1) := by omega
    have htarget : index + (front.length + 1) = index + 1 + front.length := by omega
    rw [List.length_cons, List.cons_append, rewriteAt, if_neg hne, htarget]
    cases hrest : rewriteAt keep rewrite (index + 1 + front.length) (index + 1)
        (front ++ a :: back) with
    | error e =>
      refine iff_of_false (by simp [bind, Except.bind]) ?_
      rintro ⟨b, hb, -⟩
      have hok := (@ih (index + 1) _).2 ⟨b, hb, rfl⟩
      rw [hrest] at hok
      cases hok
    | ok rest =>
      obtain ⟨b, hb, rfl⟩ := ih.1 hrest
      have hresult : (keep c).toList ++ (front.filterMap keep ++ b :: back.filterMap keep) =
          (c :: front).filterMap keep ++ b :: back.filterMap keep := by
        rw [List.filterMap_cons]
        cases keep c <;> rfl
      simp only [bind, Except.bind, pure, Except.pure, Except.ok.injEq, hresult]
      constructor
      · rintro rfl
        exact ⟨b, hb, rfl⟩
      · rintro ⟨b', hb', rfl⟩
        rw [hb] at hb'
        cases hb'
        rfl

end TouchBar.Lib
