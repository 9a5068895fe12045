import Mathlib

/-!
# What a Rust call can do

A Rust function that returns a `Result` has three ways to end: it returns
`Ok`, it returns `Err`, or it panics.  `Outcome` is the sum of the three, with
the monad structure of the `?` operator.  A function whose type is not a
`Result` can still panic; it is modelled in `Option`, where `none` is the panic,
and `Outcome.check` runs it inside a fallible caller.

The second half is the arithmetic of a build with overflow checks: `u64` values
are natural numbers, and an operation whose exact result leaves the range
panics.  A computation that succeeds has therefore only produced exact values.
-/

namespace TouchBar.Rust

universe u v w

/-- The ways a call can end: with a value, with a declared error, or in a panic. -/
inductive Outcome (ε : Type u) (α : Type v) where
  /-- `Ok(value)`. -/
  | ok (value : α)
  /-- `Err(error)`. -/
  | err (error : ε)
  /-- An arithmetic overflow, a failed `expect` or assertion, an `unreachable!`. -/
  | panic
deriving DecidableEq, Repr

namespace Outcome

variable {ε : Type u} {α β : Type v}

/-- The `?` operator: errors and panics are passed on. -/
protected def bind (x : Outcome ε α) (f : α → Outcome ε β) : Outcome ε β :=
  match x with
  | ok a => f a
  | err e => err e
  | panic => panic

instance : Monad (Outcome ε) where
  pure := ok
  bind := Outcome.bind

@[simp] lemma pure_eq (a : α) : (pure a : Outcome ε α) = ok a := rfl

@[simp] lemma ok_bind (a : α) (f : α → Outcome ε β) : (ok a >>= f) = f a := rfl

@[simp] lemma err_bind (e : ε) (f : α → Outcome ε β) : (err e >>= f) = err e := rfl

@[simp] lemma panic_bind (f : α → Outcome ε β) : (panic >>= f) = panic := rfl

@[simp] lemma bind_eq_ok {x : Outcome ε α} {f : α → Outcome ε β} {b : β} :
    (x >>= f) = ok b ↔ ∃ a, x = ok a ∧ f a = ok b := by
  cases x <;> simp

lemma bind_eq_err {x : Outcome ε α} {f : α → Outcome ε β} {e : ε} :
    (x >>= f) = err e ↔ x = err e ∨ ∃ a, x = ok a ∧ f a = err e := by
  cases x <;> simp

lemma bind_eq_panic {x : Outcome ε α} {f : α → Outcome ε β} :
    (x >>= f) = panic ↔ x = panic ∨ ∃ a, x = ok a ∧ f a = panic := by
  cases x <;> simp

@[simp] lemma map_eq_ok {x : Outcome ε α} {f : α → β} {b : β} :
    (f <$> x) = ok b ↔ ∃ a, x = ok a ∧ f a = b := by
  change (x >>= fun a => ok (f a)) = ok b ↔ _
  simp

instance : LawfulMonad (Outcome ε) :=
  LawfulMonad.mk' (Outcome ε) (by rintro _ ⟨⟩ <;> rfl) (by intros; rfl)
    (by rintro _ _ _ ⟨⟩ <;> intros <;> rfl)

/-- Run a computation that can only panic. -/
def check (x : Option α) : Outcome ε α :=
  match x with
  | some a => ok a
  | none => panic

@[simp] lemma check_some (a : α) : (check (some a) : Outcome ε α) = ok a := rfl

@[simp] lemma check_none : (check none : Outcome ε α) = panic := rfl

@[simp] lemma check_eq_ok {x : Option α} {a : α} :
    (check x : Outcome ε α) = ok a ↔ x = some a := by
  cases x <;> simp [check]

@[simp] lemma check_ne_err {x : Option α} {e : ε} : (check x : Outcome ε α) ≠ err e := by
  cases x <;> simp [check]

/-- `Result::is_ok`. -/
def isOk : Outcome ε α → Bool
  | ok _ => true
  | _ => false

lemma isOk_iff {x : Outcome ε α} : x.isOk = true ↔ ∃ a, x = ok a := by
  cases x <;> simp [isOk]

/-- `Result::err`. -/
def error : Outcome ε α → Option ε
  | err e => some e
  | _ => none

@[simp] lemma error_eq_some {x : Outcome ε α} {e : ε} : x.error = some e ↔ x = err e := by
  cases x <;> simp [error]

/-- `Result::map_err`. -/
def mapErr {ε ε' : Type u} (f : ε → ε') : Outcome ε α → Outcome ε' α
  | ok a => ok a
  | err e => err (f e)
  | .panic => .panic

@[simp] lemma mapErr_eq_ok {ε ε' : Type u} {f : ε → ε'} {x : Outcome ε α} {a : α} :
    x.mapErr f = ok a ↔ x = ok a := by
  cases x <;> simp [mapErr]

/-- `Result::expect`: a declared error becomes a panic. -/
def expect (x : Outcome ε α) : Option α :=
  match x with
  | ok a => some a
  | _ => none

@[simp] lemma expect_eq_some {x : Outcome ε α} {a : α} : x.expect = some a ↔ x = ok a := by
  cases x <;> simp [expect]

end Outcome

/-- `assert!` and `debug_assert!`. -/
def assert (p : Prop) [Decidable p] : Option Unit := if p then some () else none

@[simp] lemma assert_eq_some {p : Prop} [Decidable p] {u : Unit} : assert p = some u ↔ p := by
  simp [assert]

/-! ## Checked `u64` arithmetic -/

namespace U64

/-- One more than the largest `u64`. -/
def size : ℕ := 2 ^ 64

/-- `a + b`. -/
def add (a b : ℕ) : Option ℕ := if a + b < size then some (a + b) else none

/-- `a - b`. -/
def sub (a b : ℕ) : Option ℕ := if b ≤ a then some (a - b) else none

/-- `a * b`. -/
def mul (a b : ℕ) : Option ℕ := if a * b < size then some (a * b) else none

/-- `a.saturating_add(b)`. -/
def saturatingAdd (a b : ℕ) : ℕ := min (a + b) (size - 1)

/-- `iter.sum::<u64>()`, adding from the left. -/
def sum (l : List ℕ) : Option ℕ := l.foldlM add 0

/-- `x.clamp(lo, hi)`, which asserts `lo <= hi`. -/
def clamp (x lo hi : ℕ) : Option ℕ := if lo ≤ hi then some (max lo (min x hi)) else none

@[simp] lemma add_eq_some {a b c : ℕ} : add a b = some c ↔ a + b < size ∧ a + b = c := by
  simp [add]

@[simp] lemma sub_eq_some {a b c : ℕ} : sub a b = some c ↔ b ≤ a ∧ a - b = c := by
  simp [sub]

@[simp] lemma mul_eq_some {a b c : ℕ} : mul a b = some c ↔ a * b < size ∧ a * b = c := by
  simp [mul]

@[simp] lemma clamp_eq_some {x lo hi c : ℕ} :
    clamp x lo hi = some c ↔ lo ≤ hi ∧ max lo (min x hi) = c := by
  simp [clamp]

lemma foldlM_add_eq_some {l : List ℕ} {a s : ℕ} (ha : a < size) :
    l.foldlM add a = some s ↔ a + l.sum < size ∧ a + l.sum = s := by
  induction l generalizing a with
  | nil => simp [ha]
  | cons b l ih =>
    simp only [List.foldlM_cons, List.sum_cons]
    by_cases hb : a + b < size
    · have hadd : add a b = some (a + b) := add_eq_some.mpr ⟨hb, rfl⟩
      rw [hadd]
      simp only [Option.bind_eq_bind, Option.bind_some]
      rw [ih hb, Nat.add_assoc]
    · have hadd : add a b = none := if_neg hb
      rw [hadd]
      simp only [Option.bind_eq_bind, Option.bind_none, reduceCtorEq, false_iff]
      omega

@[simp] lemma sum_eq_some {l : List ℕ} {s : ℕ} :
    sum l = some s ↔ l.sum < size ∧ l.sum = s := by
  have h := foldlM_add_eq_some (l := l) (a := 0) (s := s) (by decide)
  simpa [sum] using h

end U64

namespace U32

/-- `u32::try_from(x).expect(..)` on a `u64`. -/
def tryFrom (x : ℕ) : Option UInt32 := if x < UInt32.size then some (UInt32.ofNat x) else none

@[simp] lemma tryFrom_eq_some {x : ℕ} {n : UInt32} : tryFrom x = some n ↔ n.toNat = x := by
  unfold tryFrom
  constructor
  · intro h
    split at h
    · next hx =>
      obtain rfl := Option.some.inj h
      exact Nat.mod_eq_of_lt hx
    · exact absurd h (by simp)
  · rintro rfl
    rw [if_pos n.toNat_lt]
    simp

end U32

end TouchBar.Rust
