import Mathlib

/-!
# `f32` values

A value is its bits.  Comparisons look at the sign and the magnitude of the bits, which are
ordered as the values are; they hold of no value that is not a number, and the two zeros are
equal.  There is no arithmetic here.
-/

namespace TouchBar.Rust

structure F32 where
  bits : UInt32
deriving DecidableEq, Repr

namespace F32

/-- The bits without the sign. -/
def magnitude (x : F32) : ℕ := x.bits.toNat % 2 ^ 31

/-- The magnitude of an infinity. -/
def infinite : ℕ := 0x7f800000

def isFinite (x : F32) : Bool := x.magnitude < infinite

def isNan (x : F32) : Bool := infinite < x.magnitude

/-- The position of a number in the order of all numbers. -/
def key (x : F32) : ℤ := if x.bits.toNat < 2 ^ 31 then x.magnitude else -x.magnitude

/-- `a <= b`. -/
def le (a b : F32) : Bool := !a.isNan && !b.isNan && decide (a.key ≤ b.key)

/-- `a < b`. -/
def lt (a b : F32) : Bool := !a.isNan && !b.isNan && decide (a.key < b.key)

/-- `a == b`. -/
def eq (a b : F32) : Bool := !a.isNan && !b.isNan && decide (a.key = b.key)

/-- `a.min(b)`. -/
def min (a b : F32) : F32 := if a.isNan then b else if b.isNan || a.le b then a else b

/-- `a.max(b)`. -/
def max (a b : F32) : F32 := if a.isNan then b else if b.isNan || b.le a then a else b

/-- `a.abs()`. -/
def abs (x : F32) : F32 := ⟨.ofNat x.magnitude⟩

/-- A natural number below `2 ^ 24`, which has an exact value. -/
def ofNat (n : ℕ) : F32 :=
  if n = 0 then ⟨0⟩ else
    ⟨.ofNat ((Nat.log2 n + 127) * 2 ^ 23 + (n * 2 ^ (23 - Nat.log2 n)) % 2 ^ 23)⟩

/-- The other sign. -/
def neg (x : F32) : F32 := ⟨x.bits ^^^ 0x80000000⟩

instance {n : ℕ} : OfNat F32 n := ⟨ofNat n⟩

instance : Neg F32 := ⟨neg⟩

variable {a b c : F32}

example : (60 : F32) = ⟨0x42700000⟩ ∧ (-4096 : F32) = ⟨0xc5800000⟩ := by decide

end F32

end TouchBar.Rust
