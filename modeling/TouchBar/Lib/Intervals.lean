import Mathlib

/-!
# Rows of disjoint intervals

A list of things that each occupy an interval of pixels is laid out in
`[lo, hi)` when the intervals lie inside and follow one another without
overlapping.  Rows are built by concatenation from left to right.
-/

namespace TouchBar.Lib

variable {ι : Type*}

/-- The intervals of the list lie in order, without overlap, between `lo` and `hi`. -/
structure Row (left right : ι → ℕ) (lo hi : ℕ) (ps : List ι) : Prop where
  ordered : ps.Pairwise fun p q => right p ≤ left q
  lower : ∀ p ∈ ps, lo ≤ left p
  upper : ∀ p ∈ ps, right p ≤ hi

namespace Row

variable {left right : ι → ℕ} {lo mid mid' hi : ℕ} {ps qs : List ι}

lemma nil : Row left right lo hi [] := ⟨.nil, by simp, by simp⟩

lemma singleton {p : ι} (hlo : lo ≤ left p) (hhi : right p ≤ hi) : Row left right lo hi [p] :=
  ⟨List.pairwise_singleton _ _, by simpa using hlo, by simpa using hhi⟩

lemma mono {lo' hi' : ℕ} (h : Row left right lo hi ps) (hlo : lo' ≤ lo) (hhi : hi ≤ hi') :
    Row left right lo' hi' ps :=
  ⟨h.ordered, fun p hp => hlo.trans (h.lower p hp), fun p hp => (h.upper p hp).trans hhi⟩

/-- Two rows one after the other, with a gap that may be empty. -/
lemma append (hp : Row left right lo mid ps) (hq : Row left right mid' hi qs)
    (hmid : mid ≤ mid') (hlo : lo ≤ mid') (hhi : mid ≤ hi) :
    Row left right lo hi (ps ++ qs) where
  ordered := by
    rw [List.pairwise_append]
    refine ⟨hp.ordered, hq.ordered, fun p hpm q hqm => ?_⟩
    exact (hp.upper p hpm).trans (hmid.trans (hq.lower q hqm))
  lower := by
    intro p hpm
    rcases List.mem_append.mp hpm with hpm | hpm
    · exact hp.lower p hpm
    · exact hlo.trans (hq.lower p hpm)
  upper := by
    intro p hpm
    rcases List.mem_append.mp hpm with hpm | hpm
    · exact (hp.upper p hpm).trans hhi
    · exact hq.upper p hpm

end Row

end TouchBar.Lib
