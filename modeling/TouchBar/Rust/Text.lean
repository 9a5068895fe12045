import Mathlib

/-!
# Strings

The operations of `str` that the modelled code uses.  A string is looked at as the
list of its characters; lengths are counted in UTF-8 bytes, as `str::len` does.
The code tests bytes for ASCII classes only, so that a test of all bytes is the same
test of all characters.
-/

namespace TouchBar.Rust.Text

/-- `char::is_whitespace`: the characters with the Unicode property `White_Space`. -/
def isWhitespace (c : Char) : Bool :=
  (0x9 ≤ c.toNat && c.toNat ≤ 0xd) || c.toNat == 0x20 || c.toNat == 0x85 || c.toNat == 0xa0 ||
    c.toNat == 0x1680 || (0x2000 ≤ c.toNat && c.toNat ≤ 0x200a) || c.toNat == 0x2028 ||
    c.toNat == 0x2029 || c.toNat == 0x202f || c.toNat == 0x205f || c.toNat == 0x3000

/-- `char::is_control`: the characters of the general category `Cc`. -/
def isControl (c : Char) : Bool := c.toNat < 0x20 || (0x7f ≤ c.toNat && c.toNat ≤ 0x9f)

/-- `s.trim().is_empty()`. -/
def trimIsEmpty (s : String) : Bool := s.toList.all isWhitespace

/-- `s.trim()`. -/
def trim (s : String) : String :=
  .ofList (((s.toList.dropWhile isWhitespace).reverse.dropWhile isWhitespace).reverse)

/-- `s.len()`. -/
def len (s : String) : ℕ := s.utf8ByteSize

/-- `s.is_empty()`. -/
def isEmpty (s : String) : Bool := s.toList.isEmpty

/-- `s.starts_with(p)`. -/
def startsWith (s p : String) : Bool := p.toList.isPrefixOf s.toList

/-- `s.ends_with(p)`. -/
def endsWith (s p : String) : Bool := p.toList.isSuffixOf s.toList

/-- `s.contains(p)` for a string. -/
def containsStr (s p : String) : Bool := decide (p.toList <:+: s.toList)

/-- `s.contains(c)` for a character. -/
def containsChar (s : String) (c : Char) : Bool := s.toList.contains c

/-- `s.strip_prefix(p)`. -/
def stripPrefix (s p : String) : Option String :=
  if startsWith s p then some (.ofList (s.toList.drop p.toList.length)) else none

/-- `s.strip_suffix(p)`. -/
def stripSuffix (s p : String) : Option String :=
  if endsWith s p then some (.ofList (s.toList.take (s.toList.length - p.toList.length))) else none

/-- `s.split(c)`. -/
def split (s : String) (c : Char) : List String := (s.toList.splitOn c).map .ofList

/-- `s.is_ascii()`. -/
def isAscii (s : String) : Bool := s.toList.all fun c => c.toNat < 128

/-- `s.to_ascii_lowercase()`. -/
def toAsciiLowercase (s : String) : String := .ofList (s.toList.map Char.toLower)

/-- `s.as_bytes()[0]` passes a test. -/
def headIs (s : String) (p : Char → Bool) : Bool := s.toList.head?.any p

/-- All bytes pass a test that holds of ASCII characters only. -/
def all (s : String) (p : Char → Bool) : Bool := s.toList.all p

/-- Some byte passes a test that holds of ASCII characters only. -/
def any (s : String) (p : Char → Bool) : Bool := s.toList.any p

variable {s t p q : String}

lemma startsWith_iff : startsWith s p = true ↔ ∃ t, s = p ++ t := by
  rw [startsWith, List.isPrefixOf_iff_prefix]
  constructor
  · rintro ⟨l, hl⟩
    refine ⟨.ofList l, String.toList_inj.mp ?_⟩
    rw [String.toList_append, String.toList_ofList, hl]
  · rintro ⟨t, rfl⟩
    exact ⟨t.toList, String.toList_append.symm⟩

lemma startsWith_refl (s : String) : startsWith s s = true :=
  startsWith_iff.mpr ⟨"", String.append_empty.symm⟩

lemma startsWith_trans (h₁ : startsWith s p = true) (h₂ : startsWith p q = true) :
    startsWith s q = true := by
  obtain ⟨t, rfl⟩ := startsWith_iff.mp h₁
  obtain ⟨u, rfl⟩ := startsWith_iff.mp h₂
  exact startsWith_iff.mpr ⟨u ++ t, String.append_assoc⟩

lemma stripPrefix_eq_some : stripPrefix s p = some t ↔ s = p ++ t := by
  rw [stripPrefix]
  split_ifs with h
  · obtain ⟨u, rfl⟩ := startsWith_iff.mp h
    rw [String.toList_append, List.drop_left, String.ofList_toList, Option.some.injEq]
    constructor
    · rintro rfl
      rfl
    · intro h
      have := congrArg String.toList h
      rw [String.toList_append, String.toList_append, List.append_cancel_left_eq] at this
      exact String.toList_inj.mp this
  · simp only [false_iff]
    rintro rfl
    exact h (startsWith_iff.mpr ⟨t, rfl⟩)

lemma endsWith_append (s p : String) : endsWith (s ++ p) p = true := by
  rw [endsWith, List.isSuffixOf_iff_suffix, String.toList_append]
  exact List.suffix_append s.toList p.toList

lemma stripSuffix_eq_some : stripSuffix s p = some t ↔ s = t ++ p := by
  rw [stripSuffix, endsWith]
  by_cases h : p.toList <:+ s.toList
  · rw [if_pos (List.isSuffixOf_iff_suffix.mpr h), Option.some.injEq]
    obtain ⟨l, hl⟩ := h
    have htake : s.toList.take (s.toList.length - p.toList.length) = l := by
      rw [← hl, List.length_append, Nat.add_sub_cancel, List.take_left]
    rw [htake]
    constructor
    · rintro rfl
      exact String.toList_inj.mp (by rw [String.toList_append, String.toList_ofList, hl])
    · rintro rfl
      rw [String.toList_append, List.append_cancel_right_eq] at hl
      rw [hl, String.ofList_toList]
  · rw [if_neg fun hs => h (List.isSuffixOf_iff_suffix.mp hs)]
    simp only [reduceCtorEq, false_iff]
    rintro rfl
    exact h ⟨t.toList, String.toList_append.symm⟩

/-! ## Bytes -/

/-- `s.as_bytes()`. -/
def asBytes (s : String) : List UInt8 := s.toUTF8.data.toList

@[simp] lemma length_asBytes (s : String) : (asBytes s).length = len s := rfl

/-- `str::from_utf8` accepts exactly the bytes of a string. -/
lemma fromUTF8?_eq_some {bytes : List UInt8} {s : String} :
    String.fromUTF8? ⟨bytes.toArray⟩ = some s ↔ bytes = asBytes s := by
  unfold String.fromUTF8?
  split
  · next h =>
    rw [Option.some.injEq, ← String.toByteArray_inj]
    change ByteArray.mk bytes.toArray = s.toByteArray ↔ bytes = s.toByteArray.data.toList
    constructor
    · intro hs
      rw [← hs]
    · intro hb
      rw [hb]
  · next h =>
    refine ⟨fun hn => absurd hn (by simp), fun hb => absurd ?_ h⟩
    rw [hb]
    exact s.isValidUTF8

/-! ## Characters of a string -/

section Characters

variable {f g : Char → Bool}

lemma all_mono (h : all s f = true) (hfg : ∀ c, f c = true → g c = true) :
    all s g = true := by
  rw [all, List.all_eq_true] at h ⊢
  exact fun c hc => hfg c (h c hc)

lemma notMem_of_all {c : Char} (h : all s f = true) (hc : f c = false) : c ∉ s.toList := by
  intro hmem
  rw [all, List.all_eq_true] at h
  rw [h c hmem] at hc
  cases hc

lemma all_append (s t : String) (f : Char → Bool) :
    all (s ++ t) f = (all s f && all t f) := by
  rw [all, String.toList_append, List.all_append, ← all, ← all]

lemma headIs_mono (h : headIs s f = true) (hfg : ∀ c, f c = true → g c = true) :
    headIs s g = true := by
  rw [headIs, Option.any_eq_true] at h ⊢
  obtain ⟨c, hc, hf⟩ := h
  exact ⟨c, hc, hfg c hf⟩

lemma headIs_append (h : headIs s f = true) (t : String) : headIs (s ++ t) f = true := by
  rw [headIs, Option.any_eq_true] at h ⊢
  obtain ⟨c, hc, hf⟩ := h
  refine ⟨c, ?_, hf⟩
  rw [String.toList_append, List.head?_append, hc]
  rfl

lemma isEmpty_eq_false_of_headIs (h : headIs s f = true) : isEmpty s = false := by
  rw [headIs] at h
  rw [isEmpty]
  cases hs : s.toList with
  | nil => simp [hs] at h
  | cons c l => rfl

end Characters

/-- `to_string` of a number writes digits. -/
lemma all_isDigit_toString (n : ℕ) : all (toString n) Char.isDigit = true := by
  rw [all, List.all_eq_true]
  intro c hc
  have hdigits : (toString n).toList = Nat.toDigits 10 n := by
    rw [Nat.toString_eq_ofList_toDigits, String.toList_ofList]
  rw [hdigits] at hc
  exact Nat.isDigit_of_mem_toDigits (by decide) (by decide) hc

/-! ## Parts of a string -/

lemma len_append (s t : String) : len (s ++ t) = len s + len t := String.utf8ByteSize_append

lemma asBytes_inj (h : asBytes s = asBytes t) : s = t := by
  refine String.toByteArray_inj.mp (ByteArray.ext (Array.toList_inj.mp h))

lemma asBytes_append (s t : String) : asBytes (s ++ t) = asBytes s ++ asBytes t := by
  simp [asBytes]

lemma append_left_cancel (h : s ++ p = s ++ q) : p = q := by
  have hlist := congrArg String.toList h
  rw [String.toList_append, String.toList_append, List.append_cancel_left_eq] at hlist
  exact String.toList_inj.mp hlist

lemma append_right_cancel (h : s ++ p = t ++ p) : s = t := by
  have hlist := congrArg String.toList h
  rw [String.toList_append, String.toList_append, List.append_cancel_right_eq] at hlist
  exact String.toList_inj.mp hlist

/-- First parts of the same length are the same. -/
lemma append_inj_of_len (h : s ++ p = t ++ q) (hlen : len s = len t) : s = t ∧ p = q := by
  have hbytes : asBytes s ++ asBytes p = asBytes t ++ asBytes q := by
    rw [← asBytes_append, ← asBytes_append, h]
  obtain ⟨hfirst, hsecond⟩ := List.append_inj hbytes (by simpa using hlen)
  exact ⟨asBytes_inj hfirst, asBytes_inj hsecond⟩

/-- The first parts end where a character stands that is in neither of them. -/
lemma append_inj_of_notMem {c : Char} {d : String} (hd : d.toList = [c])
    (h : s ++ (d ++ p) = t ++ (d ++ q)) (hs : c ∉ s.toList) (ht : c ∉ t.toList) :
    s = t ∧ p = q := by
  have hlist := congrArg String.toList h
  simp only [String.toList_append, hd, List.singleton_append] at hlist
  have htake : ∀ l r : List Char, c ∉ l → (l ++ c :: r).takeWhile (· ≠ c) = l := by
    intro l r hl
    rw [List.takeWhile_append_of_pos]
    · simp
    · intro x hx
      exact decide_eq_true fun heq => hl (heq ▸ hx)
  have hst : s.toList = t.toList := by
    rw [← htake s.toList p.toList hs, hlist, htake t.toList q.toList ht]
  obtain rfl := String.toList_inj.mp hst
  exact ⟨rfl, append_left_cancel (append_left_cancel h)⟩

/-- A part after its own length and a dot is delimited. -/
lemma lengthPrefixed_inj (h : toString (len s) ++ ("." ++ (s ++ p)) =
    toString (len t) ++ ("." ++ (t ++ q))) : s = t ∧ p = q := by
  obtain ⟨hlen, hrest⟩ := append_inj_of_notMem (c := '.') (by decide) h
    (notMem_of_all (all_isDigit_toString _) (by decide))
    (notMem_of_all (all_isDigit_toString _) (by decide))
  exact append_inj_of_len hrest (Nat.repr_injective hlen)

lemma len_digit {n : ℕ} (h : n < 10) : len n.repr = 1 := by
  interval_cases n <;> decide

/-- A number below a power of ten has at most as many digits. -/
lemma len_toString_le {k : ℕ} (hk : 0 < k) {n : ℕ} (h : n < 10 ^ k) : len (toString n) ≤ k := by
  rw [Nat.toString_eq_repr]
  induction k, hk using Nat.le_induction generalizing n with
  | base => rw [len_digit (by simpa using h)]
  | succ k hk ih =>
    by_cases hn : n < 10
    · rw [len_digit hn]
      omega
    · rw [Nat.repr_eq_repr_append_repr (by omega), len_append,
        len_digit (Nat.mod_lt _ (by decide))]
      have hrest := ih (show n / 10 < 10 ^ k by
        rw [pow_succ] at h
        omega)
      omega

end TouchBar.Rust.Text
