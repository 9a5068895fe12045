import TouchBar.Rust.Split

/-!
# Reading numbers and cutting at byte offsets

`from_str_radix` of the unsigned types takes a leading plus sign.  A slice of a string at byte
offsets panics if an offset lies inside a character.
-/

namespace TouchBar.Rust.Text

/-- `char::to_digit`. -/
def toDigit (radix : ℕ) (c : Char) : Option ℕ :=
  let digit :=
    if c.isDigit then some (c.toNat - 48)
    else if c.isLower then some (c.toNat - 87)
    else if c.isUpper then some (c.toNat - 55)
    else none
  digit.filter (· < radix)

/-- `from_str_radix` of an unsigned type with `size` values, on the characters of the string. -/
def fromStrRadixList (radix size : ℕ) (s : List Char) : Option ℕ :=
  let digits := if s.head? = some '+' ∧ 1 < s.length then s.tail else s
  if digits = [] then none
  else ((digits.mapM (toDigit radix)).map fun values =>
    values.foldl (fun value digit => value * radix + digit) 0).filter (· < size)

/-- `from_str_radix` of an unsigned type with `size` values; `str::parse` is the radix ten. -/
def fromStrRadix (radix size : ℕ) (s : String) : Option ℕ := fromStrRadixList radix size s.toList

/-- The characters up to a byte offset and those after it, unless the offset lies inside a
character or behind the end. -/
def splitAtByte : ℕ → List Char → Option (List Char × List Char)
  | 0, l => some ([], l)
  | _ + 1, [] => none
  | n + 1, c :: l =>
    if c.utf8Size ≤ n + 1 then
      (splitAtByte (n + 1 - c.utf8Size) l).map fun parts => (c :: parts.1, parts.2)
    else none

/-- `s[a..b]`, where the panic is `none`. -/
def slice (s : String) (a b : ℕ) : Option String := do
  let (_, rest) ← splitAtByte a s.toList
  let (part, _) ← splitAtByte (b - a) rest
  return .ofList part

/-- The length of the characters in UTF-8. -/
def byteLength (l : List Char) : ℕ := (l.map Char.utf8Size).sum

variable {l : List Char}

@[simp] lemma byteLength_cons (c : Char) : byteLength (c :: l) = c.utf8Size + byteLength l := rfl

lemma len_ofList (l : List Char) : len (.ofList l) = byteLength l := by
  induction l with
  | nil => rfl
  | cons c l ih =>
    rw [String.ofList_cons, len_append, ih, len, String.utf8ByteSize_singleton, byteLength_cons]

lemma len_eq_byteLength (s : String) : len s = byteLength s.toList := by
  rw [← len_ofList, String.ofList_toList]

lemma splitAtByte_eq_some {n : ℕ} {front back : List Char} :
    splitAtByte n l = some (front, back) ↔ l = front ++ back ∧ byteLength front = n := by
  induction n using Nat.strongRecOn generalizing l front with
  | _ n ih =>
    cases n with
    | zero =>
      rw [splitAtByte]
      constructor
      · rintro ⟨⟩
        exact ⟨rfl, rfl⟩
      · rintro ⟨rfl, hzero⟩
        cases front with
        | nil => rfl
        | cons c front =>
          have hpos := c.utf8Size_pos
          rw [byteLength_cons] at hzero
          omega
    | succ n =>
      cases l with
      | nil =>
        rw [splitAtByte]
        refine iff_of_false (by simp) ?_
        rintro ⟨happend, hlength⟩
        obtain ⟨rfl, -⟩ := List.append_eq_nil_iff.mp happend.symm
        cases hlength
      | cons c l =>
        have hpos := c.utf8Size_pos
        rw [splitAtByte]
        split_ifs with hsize
        · simp only [Option.map_eq_some_iff, Prod.exists, Prod.mk.injEq]
          constructor
          · rintro ⟨front, back, hsplit, rfl, rfl⟩
            obtain ⟨rfl, hlength⟩ := (ih _ (by omega)).mp hsplit
            refine ⟨rfl, ?_⟩
            rw [byteLength_cons, hlength]
            omega
          · rintro ⟨happend, hlength⟩
            cases front with
            | nil => cases hlength
            | cons d front =>
              obtain ⟨rfl, rfl⟩ := List.cons_eq_cons.mp happend
              rw [byteLength_cons] at hlength
              refine ⟨front, back, (ih _ (by omega)).mpr ⟨rfl, by omega⟩, rfl, rfl⟩
        · refine iff_of_false (by simp) ?_
          rintro ⟨happend, hlength⟩
          cases front with
          | nil => cases hlength
          | cons d front =>
            obtain ⟨rfl, rfl⟩ := List.cons_eq_cons.mp happend
            rw [byteLength_cons] at hlength
            omega

end TouchBar.Rust.Text
