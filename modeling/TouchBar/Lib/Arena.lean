import Mathlib

/-!
# Unfolding an arena into a tree

An arena gives a node for each index, and a node refers to others by their indices.  An index
unfolds to a tree if following the references ends everywhere; the tree is then determined by
the index.  An index never occurs below itself in its own unfolding, so a traversal that
refuses to enter an index twice on one path refuses no finite tree.
-/

namespace TouchBar.Lib

/-- A tree with values at its nodes. -/
inductive RoseTree (ν : Type*) where
  | node (value : ν) (children : List (RoseTree ν))

namespace RoseTree

variable {ν β : Type*}

mutual

/-- The values, each before those below it. -/
def preorder : RoseTree ν → List ν
  | .node v ts => v :: preorderList ts

def preorderList : List (RoseTree ν) → List ν
  | [] => []
  | t :: ts => t.preorder ++ preorderList ts

end

mutual

def fold (f : ν → List β → β) : RoseTree ν → β
  | .node v ts => f v (foldList f ts)

def foldList (f : ν → List β → β) : List (RoseTree ν) → List β
  | [] => []
  | t :: ts => t.fold f :: foldList f ts

end

lemma preorder_node (v : ν) (ts : List (RoseTree ν)) :
    (node v ts).preorder = v :: preorderList ts := by
  rw [preorder]

lemma length_preorder_le {t : RoseTree ν} {ts : List (RoseTree ν)} (h : t ∈ ts) :
    t.preorder.length ≤ (preorderList ts).length := by
  induction ts with
  | nil => cases h
  | cons t' ts ih =>
    rw [preorderList, List.length_append]
    rcases List.mem_cons.mp h with rfl | h
    · omega
    · have := ih h
      omega

end RoseTree

section Unfold

variable {ι ν : Type*} (get : ι → Option ν) (children : ν → List ι)

/-- The tree below an index, if it has at most the given number of levels. -/
def unfold : ℕ → ι → Option (RoseTree ν)
  | 0, _ => none
  | levels + 1, i => do
    let v ← get i
    let ts ← (children v).mapM (unfold levels)
    return .node v ts

variable {get children} {i : ι} {levels levels' : ℕ} {t t' : RoseTree ν}

lemma mapM_eq_some_iff {α β : Type*} {f : α → Option β} {xs : List α} {ys : List β} :
    xs.mapM f = some ys ↔ List.Forall₂ (fun x y => f x = some y) xs ys := by
  induction xs generalizing ys with
  | nil =>
    rw [List.mapM_nil, Option.pure_def, Option.some.injEq, List.forall₂_nil_left_iff]
    exact eq_comm
  | cons x xs ih =>
    simp only [List.mapM_cons, Option.bind_eq_bind, Option.bind_eq_some_iff, Option.pure_def,
      Option.some.injEq]
    constructor
    · rintro ⟨y, hy, rest, hrest, rfl⟩
      exact .cons hy (ih.mp hrest)
    · intro h
      obtain ⟨y, rest, hy, hrest, rfl⟩ := List.forall₂_cons_left_iff.mp h
      exact ⟨y, hy, rest, ih.mpr hrest, rfl⟩

lemma unfold_succ_eq_some :
    unfold get children (levels + 1) i = some t ↔
      ∃ v ts, get i = some v ∧
        List.Forall₂ (fun j s => unfold get children levels j = some s) (children v) ts ∧
        t = .node v ts := by
  simp only [unfold, Option.bind_eq_bind, Option.bind_eq_some_iff, Option.pure_def,
    Option.some.injEq, mapM_eq_some_iff]
  constructor
  · rintro ⟨v, hv, ts, hts, rfl⟩
    exact ⟨v, ts, hv, hts, rfl⟩
  · rintro ⟨v, ts, hv, hts, rfl⟩
    exact ⟨v, hv, ts, hts, rfl⟩

/-- More levels do no harm. -/
lemma unfold_mono (hle : levels ≤ levels') (h : unfold get children levels i = some t) :
    unfold get children levels' i = some t := by
  induction levels generalizing levels' i t with
  | zero => cases h
  | succ levels ih =>
    cases levels' with
    | zero => omega
    | succ levels' =>
      obtain ⟨v, ts, hv, hts, rfl⟩ := unfold_succ_eq_some.mp h
      refine unfold_succ_eq_some.mpr ⟨v, ts, hv, hts.imp fun j s hs => ?_, rfl⟩
      exact ih (Nat.le_of_succ_le_succ hle) hs

/-- An index unfolds to one tree. -/
lemma unfold_unique (h : unfold get children levels i = some t)
    (h' : unfold get children levels' i = some t') : t = t' := by
  have hmax := unfold_mono (Nat.le_max_left levels levels') h
  rw [unfold_mono (Nat.le_max_right levels levels') h'] at hmax
  exact (Option.some.inj hmax).symm

/-- The index unfolds to a tree with more nodes. -/
def Larger (get : ι → Option ν) (children : ν → List ι) (t : RoseTree ν) (i : ι) : Prop :=
  ∃ levels t', unfold get children levels i = some t' ∧
    t.preorder.length < t'.preorder.length

/-- An index does not unfold to more nodes than it has. -/
lemma not_larger (h : unfold get children levels i = some t) : ¬ Larger get children t i := by
  rintro ⟨levels', t', h', hlt⟩
  rw [unfold_unique h h'] at hlt
  exact lt_irrefl _ hlt

lemma Larger.child {v : ν} {ts : List (RoseTree ν)} (h : Larger get children (.node v ts) i)
    (ht : t ∈ ts) : Larger get children t i := by
  obtain ⟨levels, t', hunfold, hlt⟩ := h
  refine ⟨levels, t', hunfold, lt_of_le_of_lt ?_ hlt⟩
  rw [RoseTree.preorder_node, List.length_cons]
  exact (RoseTree.length_preorder_le ht).trans (Nat.le_succ _)

lemma larger_of_mem {v : ν} {ts : List (RoseTree ν)}
    (h : unfold get children levels i = some (.node v ts)) (ht : t ∈ ts) :
    Larger get children t i := by
  refine ⟨levels, _, h, ?_⟩
  rw [RoseTree.preorder_node, List.length_cons]
  exact Nat.lt_succ_of_le (RoseTree.length_preorder_le ht)

end Unfold

end TouchBar.Lib
