import TouchBar.Lib.Effects

/-!
# Programs that stop at the first error

Where a program is a sequence of checks and effects, it may stop after any of them.  What it
leaves behind is therefore a property of all the states in which it may stop: `Leaves` says it
of one program, and `Pair` of two programs that make the same checks, each on a state of its
own.
-/

namespace TouchBar.Lib

open TouchBar.Rust Outcome

namespace Prog

variable {σ τ ε ε' α β γ δ : Type}

/-- From a state with `P` the program ends, in whichever way, in a state with `R`. -/
def Leaves (P R : σ → Prop) (x : Prog σ ε α) : Prop := ∀ s, P s → R (x s).2

/-- From states related by `P` the two programs end in states related by `R`. -/
def Pair (P R : σ → τ → Prop) (x : Prog σ ε α) (y : Prog τ ε' β) : Prop :=
  ∀ s t, P s t → R (x s).2 (y t).2

section Leaves

variable {P Q R : σ → Prop} {x : Prog σ ε α} {f : α → Prog σ ε β}

lemma leaves_pure {a : α} (h : ∀ s, P s → R s) : Leaves P R (pure a : Prog σ ε α) := h

/-- A check in front: where it fails the state is left as it was. -/
lemma leaves_lift_bind {o : Outcome ε α} (hstop : ∀ s, P s → R s)
    (h : ∀ a, o = ok a → Leaves P R (f a)) : Leaves P R (lift o >>= f) := by
  intro s hs
  cases o with
  | ok a => exact h a rfl s hs
  | err e => exact hstop s hs
  | panic => exact hstop s hs

/-- A value of the state in front. -/
lemma leaves_get_bind {g : σ → α} (h : ∀ a, Leaves (fun s => P s ∧ g s = a) R (f a)) :
    Leaves P R (get g >>= f) :=
  fun s hs => h (g s) s ⟨hs, rfl⟩

lemma leaves_modify_bind {g : σ → σ} {f : Unit → Prog σ ε β} (hg : ∀ s, P s → Q (g s))
    (h : Leaves Q R (f ())) : Leaves P R (modify g >>= f) :=
  fun s hs => h (g s) (hg s hs)

lemma leaves_modify {g : σ → σ} (hg : ∀ s, P s → R (g s)) :
    Leaves P R (modify g : Prog σ ε Unit) := hg

/-- A first program that keeps `P`, and after which one may stop. -/
lemma leaves_bind (hx : Leaves P P x) (hstop : ∀ s, P s → R s) (h : ∀ a, Leaves P R (f a)) :
    Leaves P R (x >>= f) := by
  intro s hs
  have hkept := hx s hs
  change R (Prog.bind x f s).2
  unfold Prog.bind
  cases hrun : x s with
  | mk outcome u =>
    rw [hrun] at hkept
    cases outcome with
    | ok a => exact h a u hkept
    | err e => exact hstop u hkept
    | panic => exact hstop u hkept

end Leaves

section Pair

variable {P Q R : σ → τ → Prop}

/-- The same check in front of both: where it fails both states are left as they were. -/
lemma pair_lift_bind {o : Outcome ε γ} {f : γ → Prog σ ε α} {g : γ → Prog τ ε β}
    (hstop : ∀ s t, P s t → R s t) (h : ∀ c, o = ok c → Pair P R (f c) (g c)) :
    Pair P R (lift o >>= f) (lift o >>= g) := by
  intro s t hst
  cases o with
  | ok c => exact h c rfl s t hst
  | err e => exact hstop s t hst
  | panic => exact hstop s t hst

lemma pair_modify_bind {f : σ → σ} {g : τ → τ} {x : Unit → Prog σ ε α} {y : Unit → Prog τ ε' β}
    (hfg : ∀ s t, P s t → Q (f s) (g t)) (h : Pair Q R (x ()) (y ())) :
    Pair P R (modify f >>= x) (modify g >>= y) :=
  fun s t hst => h (f s) (g t) (hfg s t hst)

/-- The first program leaves its state as it is, and the second one keeps the relation. -/
lemma pair_of_stop {x : Prog σ ε α} {y : Prog τ ε' β} (hx : ∀ s, (x s).2 = s)
    (hy : ∀ s, Leaves (P s) (R s) y) : Pair P R x y := by
  intro s t hst
  rw [hx]
  exact hy s t hst

end Pair

end Prog

end TouchBar.Lib
