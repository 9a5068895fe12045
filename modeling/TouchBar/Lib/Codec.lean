import TouchBar.Rust.Outcome
import TouchBar.Rust.Text

/-!
# Decoders that read exactly what an encoder writes

A decoder takes a value from the front of its input and returns the symbols that
remain.  It reads a format exactly when it returns a value if and only if the input
starts with the symbols of that value.  For such a decoder, round trip and canonicity
are the two directions of one equivalence.  This file has the rules by which the
equivalence passes from the parts of a format to the whole: sequencing, guards,
numbers of a fixed width, and loops.
-/

namespace TouchBar.Lib

open TouchBar.Rust Outcome

/-- A step of a decoder: a value and the symbols that remain. -/
abbrev Reader (ε β : Type) (α : Type) : Type := StateT (List β) (Outcome ε) α

namespace Reader

variable {ε β α γ : Type} {d : Reader ε β α} {f : α → Reader ε β γ} {input rest : List β}

/-! ## Sequencing -/

@[simp] lemma bind_eq_ok {c : γ} :
    (d >>= f) input = ok (c, rest) ↔ ∃ a mid, d input = ok (a, mid) ∧ f a mid = ok (c, rest) := by
  change (d input >>= fun p => f p.1 p.2) = ok (c, rest) ↔ _
  rw [Outcome.bind_eq_ok]
  exact ⟨fun ⟨⟨a, mid⟩, h⟩ => ⟨a, mid, h⟩, fun ⟨a, mid, h⟩ => ⟨(a, mid), h⟩⟩

@[simp] lemma pure_eq_ok {a b : α} :
    (pure a : Reader ε β α) input = ok (b, rest) ↔ a = b ∧ input = rest := by
  change ok (a, input) = ok (b, rest) ↔ _
  simp

@[simp] lemma map_eq_ok {g : α → γ} {c : γ} :
    (g <$> d) input = ok (c, rest) ↔ ∃ a, d input = ok (a, rest) ∧ g a = c := by
  rw [map_eq_pure_bind, bind_eq_ok]
  simp only [pure_eq_ok]
  constructor
  · rintro ⟨a, mid, h, hg, rfl⟩
    exact ⟨a, h, hg⟩
  · rintro ⟨a, h, hg⟩
    exact ⟨a, rest, h, hg, rfl⟩

/-! ## Guards -/

/-- A decoder that rejects every input. -/
def reject (e : ε) : Reader ε β α := fun _ => err e

lemma reject_ne_ok {e : ε} {r : α × List β} : (reject e : Reader ε β α) input ≠ ok r := by
  simp [reject]

@[simp] lemma ite_eq_ok {p : Prop} [Decidable p] {e : ε} {a : α} :
    (if p then reject e else d) input = ok (a, rest) ↔ ¬ p ∧ d input = ok (a, rest) := by
  by_cases h : p
  · simp [h, reject]
  · simp [h]

/-! ## Symbols from the front -/

/-- Take a number of symbols. -/
def front (e : ε) (n : ℕ) : Reader ε β (List β) := fun input =>
  if n ≤ input.length then ok (input.take n, input.drop n) else err e

lemma front_eq_ok {e : ε} {n : ℕ} {value : List β} :
    front e n input = ok (value, rest) ↔ value.length = n ∧ input = value ++ rest := by
  rw [front]
  split_ifs with h
  · rw [Outcome.ok.injEq, Prod.mk.injEq]
    constructor
    · rintro ⟨rfl, rfl⟩
      exact ⟨List.length_take_of_le h, (List.take_append_drop n input).symm⟩
    · rintro ⟨rfl, rfl⟩
      exact ⟨List.take_left, List.drop_left⟩
  · simp only [false_iff]
    rintro ⟨rfl, rfl⟩
    simp at h

/-- Take one symbol. -/
def symbol (e : ε) : Reader ε β β := fun input =>
  match input with
  | a :: input => ok (a, input)
  | [] => err e

lemma symbol_eq_ok {e : ε} {a : β} : symbol e input = ok (a, rest) ↔ input = a :: rest := by
  cases input with
  | nil => simp [symbol]
  | cons b input => simp [symbol]

/-- Read a symbol that is the code of one of some alternatives. -/
def coded (e e' : ε) (ofCode : β → Option α) : Reader ε β α := do
  match ofCode (← symbol e) with
  | some a => pure a
  | none => reject e'

lemma coded_eq_ok {e e' : ε} {ofCode : β → Option α} {codeOf : α → β}
    (h : ∀ c a, ofCode c = some a ↔ c = codeOf a) {a : α} :
    coded e e' ofCode input = ok (a, rest) ↔ input = codeOf a :: rest := by
  rw [coded, bind_eq_ok]
  simp only [symbol_eq_ok]
  constructor
  · rintro ⟨c, mid, rfl, hc⟩
    cases hb : ofCode c with
    | none =>
      rw [hb] at hc
      cases hc
    | some b =>
      rw [hb] at hc
      obtain ⟨rfl, rfl⟩ := pure_eq_ok.mp hc
      rw [(h _ _).mp hb]
  · rintro rfl
    refine ⟨_, _, rfl, ?_⟩
    rw [(h _ _).mpr rfl]
    rfl

/-- Accept bytes that are UTF-8. -/
def utf8 (e : ε) (value : List UInt8) : Reader ε β String :=
  match String.fromUTF8? ⟨value.toArray⟩ with
  | some text => pure text
  | none => reject e

lemma utf8_eq_ok {e : ε} {value : List UInt8} {text : String} :
    utf8 e value input = ok (text, rest) ↔ value = Text.asBytes text ∧ input = rest := by
  rw [utf8]
  cases htext : String.fromUTF8? ⟨value.toArray⟩ with
  | none =>
    refine ⟨fun h => absurd h reject_ne_ok, fun h => ?_⟩
    rw [Text.fromUTF8?_eq_some.mpr h.1] at htext
    cases htext
  | some found =>
    rw [pure_eq_ok, Text.fromUTF8?_eq_some.mp htext]
    refine and_congr_left fun _ => ⟨fun h => by rw [h], fun h => ?_⟩
    have hfound := Text.fromUTF8?_eq_some.mpr h
    rw [Text.fromUTF8?_eq_some.mpr rfl] at hfound
    exact Option.some.inj hfound

end Reader

variable {ε β α : Type}

@[simp] lemma ite_err_eq_ok {p : Prop} [Decidable p] {e : ε} {x : Outcome ε α} {a : α} :
    (if p then err e else x) = ok a ↔ ¬ p ∧ x = ok a := by
  by_cases h : p
  · simp [h]
  · simp [h]

/-! ## Fixed widths -/

/-- A decoder that reads a fixed number of symbols is exact for a code of that width if
decoding and encoding undo each other. -/
lemma exact_fixed {t : Reader ε β (List β)} {width : ℕ}
    (ht : ∀ input bytes rest,
      t input = ok (bytes, rest) ↔ bytes.length = width ∧ input = bytes ++ rest)
    {decode : List β → α} {encode : α → List β} (hlen : ∀ a, (encode a).length = width)
    (hdecode : ∀ a, decode (encode a) = a)
    (hencode : ∀ bytes, bytes.length = width → encode (decode bytes) = bytes)
    {input : List β} {a : α} {rest : List β} :
    (decode <$> t) input = ok (a, rest) ↔ input = encode a ++ rest := by
  rw [Reader.map_eq_ok]
  constructor
  · rintro ⟨bytes, h, rfl⟩
    obtain ⟨hb, rfl⟩ := (ht _ _ _).mp h
    rw [hencode bytes hb]
  · rintro rfl
    exact ⟨encode a, (ht _ _ _).mpr ⟨hlen a, rfl⟩, hdecode a⟩

/-! ## Loops -/

/-- The symbols that a loop writes for a list of values, with an accumulator that each value
may change: `item s a s' w` says that in state `s` the value `a` is written as `w`, and that
the loop goes on in state `s'`. -/
inductive Written {σ : Type} (item : σ → α → σ → List β → Prop) : σ → List α → List β → Prop
  | nil (s : σ) : Written item s [] []
  | cons {s s' : σ} {a : α} {as : List α} {w ws : List β} (ha : item s a s' w)
      (has : Written item s' as ws) : Written item s (a :: as) (w ++ ws)

variable {σ : Type} {item : σ → α → σ → List β → Prop}

lemma written_nil_iff {s : σ} {bytes : List β} : Written item s [] bytes ↔ bytes = [] := by
  constructor
  · rintro ⟨⟩
    rfl
  · rintro rfl
    exact .nil s

lemma written_cons_iff {s : σ} {a : α} {as : List α} {bytes : List β} :
    Written item s (a :: as) bytes ↔
      ∃ s' w ws, item s a s' w ∧ Written item s' as ws ∧ bytes = w ++ ws := by
  constructor
  · rintro ⟨⟩
    exact ⟨_, _, _, ‹_›, ‹_›, rfl⟩
  · rintro ⟨s', w, ws, ha, has, rfl⟩
    exact .cons ha has

/-- A loop that reads exactly one item at each turn reads exactly what is written for the list
of the items. -/
theorem read_loop_exact {read : σ → ℕ → Reader ε β (List α)}
    (hzero : ∀ s, read s 0 = pure [])
    (hsucc : ∀ s count input as rest, read s (count + 1) input = ok (as, rest) ↔
      ∃ a s' w mid tail, item s a s' w ∧ input = w ++ mid ∧
        read s' count mid = ok (tail, rest) ∧ as = a :: tail)
    {s : σ} {count : ℕ} {input : List β} {as : List α} {rest : List β} :
    read s count input = ok (as, rest) ↔
      as.length = count ∧ ∃ bytes, Written item s as bytes ∧ input = bytes ++ rest := by
  induction count generalizing s input as rest with
  | zero =>
    rw [hzero, Reader.pure_eq_ok]
    constructor
    · rintro ⟨rfl, rfl⟩
      exact ⟨rfl, [], .nil s, rfl⟩
    · rintro ⟨hlen, bytes, hb, rfl⟩
      obtain rfl := List.length_eq_zero_iff.mp hlen
      obtain rfl := written_nil_iff.mp hb
      exact ⟨rfl, rfl⟩
  | succ count ih =>
    rw [hsucc]
    simp only [ih]
    constructor
    · rintro ⟨a, s', w, mid, tail, ha, rfl, ⟨hlen, ws, hws, rfl⟩, rfl⟩
      exact ⟨by simp [hlen], w ++ ws, .cons ha hws, (List.append_assoc ..).symm⟩
    · rintro ⟨hlen, bytes, hb, rfl⟩
      cases as with
      | nil => simp at hlen
      | cons a tail =>
        obtain ⟨s', w, ws, ha, hws, rfl⟩ := written_cons_iff.mp hb
        exact ⟨a, s', w, ws ++ rest, tail, ha, List.append_assoc ..,
          ⟨by simpa using hlen, ws, hws, rfl⟩, rfl⟩

/-- A loop that appends what each item is written as. -/
theorem write_loop_exact {write : σ → List α → Outcome ε (List β)}
    (hnil : ∀ s, write s [] = ok [])
    (hcons : ∀ s a as bytes, write s (a :: as) = ok bytes ↔
      ∃ s' w ws, item s a s' w ∧ write s' as = ok ws ∧ bytes = w ++ ws)
    {s : σ} {as : List α} {bytes : List β} : write s as = ok bytes ↔ Written item s as bytes := by
  induction as generalizing s bytes with
  | nil =>
    rw [hnil, written_nil_iff, Outcome.ok.injEq]
    exact eq_comm
  | cons a as ih => simp only [hcons, written_cons_iff, ih]

/-- Read a number of values. -/
def readMany (d : Reader ε β α) : ℕ → Reader ε β (List α)
  | 0 => pure []
  | count + 1 => do
    let a ← d
    let as ← readMany d count
    return a :: as

/-- Write the values one after the other. -/
def writeMany (encode : α → Outcome ε (List β)) : List α → Outcome ε (List β)
  | [] => ok []
  | a :: as => do
    let bytes ← encode a
    let rest ← writeMany encode as
    return bytes ++ rest

section Many

variable {valid : α → Prop} {write : α → List β}

/-- Without an accumulator, the values are written one after the other. -/
lemma written_iff_flatMap {s : Unit} {as : List α} {bytes : List β} :
    Written (fun _ a _ w => valid a ∧ w = write a) s as bytes ↔
      (∀ a ∈ as, valid a) ∧ bytes = as.flatMap write := by
  induction as generalizing bytes with
  | nil => simp [written_nil_iff]
  | cons a as ih =>
    simp only [written_cons_iff, ih, List.forall_mem_cons, List.flatMap_cons]
    constructor
    · rintro ⟨-, w, ws, ⟨ha, rfl⟩, ⟨has, rfl⟩, rfl⟩
      exact ⟨⟨ha, has⟩, rfl⟩
    · rintro ⟨⟨ha, has⟩, rfl⟩
      exact ⟨(), _, _, ⟨ha, rfl⟩, ⟨has, rfl⟩, rfl⟩

theorem readMany_eq_ok {d : Reader ε β α}
    (hd : ∀ input a rest, d input = ok (a, rest) ↔ valid a ∧ input = write a ++ rest)
    {count : ℕ} {input : List β} {as : List α} {rest : List β} :
    readMany d count input = ok (as, rest) ↔
      as.length = count ∧ (∀ a ∈ as, valid a) ∧ input = as.flatMap write ++ rest := by
  rw [@read_loop_exact _ _ _ _ (fun _ a _ w => valid a ∧ w = write a) (fun _ => readMany d)
    (fun _ => rfl) ?_ () count input as rest]
  · simp only [written_iff_flatMap]
    constructor
    · rintro ⟨hlen, bytes, ⟨hvalid, rfl⟩, rfl⟩
      exact ⟨hlen, hvalid, rfl⟩
    · rintro ⟨hlen, hvalid, rfl⟩
      exact ⟨hlen, _, ⟨hvalid, rfl⟩, rfl⟩
  · intro _ count input as rest
    simp only [readMany, Reader.bind_eq_ok, Reader.pure_eq_ok, hd]
    constructor
    · rintro ⟨a, mid, ⟨ha, rfl⟩, tail, mid', htail, rfl, rfl⟩
      exact ⟨a, (), _, mid, tail, ⟨ha, rfl⟩, rfl, htail, rfl⟩
    · rintro ⟨a, -, w, mid, tail, ⟨ha, rfl⟩, rfl, htail, rfl⟩
      exact ⟨a, mid, ⟨ha, rfl⟩, tail, rest, htail, rfl, rfl⟩

theorem writeMany_eq_ok {encode : α → Outcome ε (List β)}
    (hencode : ∀ a bytes, encode a = ok bytes ↔ valid a ∧ bytes = write a)
    {as : List α} {bytes : List β} :
    writeMany encode as = ok bytes ↔ (∀ a ∈ as, valid a) ∧ bytes = as.flatMap write := by
  rw [← @written_iff_flatMap _ _ _ _ ()]
  refine @write_loop_exact _ _ _ _ _ (fun _ => writeMany encode) (fun _ => rfl) ?_ () _ _
  intro _ a as bytes
  simp only [writeMany, Outcome.bind_eq_ok, hencode, Outcome.pure_eq, Outcome.ok.injEq]
  constructor
  · rintro ⟨w, ⟨ha, rfl⟩, ws, has, rfl⟩
    exact ⟨(), _, ws, ⟨ha, rfl⟩, has, rfl⟩
  · rintro ⟨-, w, ws, ⟨ha, rfl⟩, has, rfl⟩
    exact ⟨_, ⟨ha, rfl⟩, ws, has, rfl⟩

end Many

/-! ## Little-endian numbers -/

/-- The number with these bytes, the lowest first. -/
def leValue (bytes : List UInt8) : ℕ := bytes.foldr (fun b n => b.toNat + 256 * n) 0

/-- The lowest bytes of a number, the lowest first. -/
def leBytes : ℕ → ℕ → List UInt8
  | 0, _ => []
  | width + 1, n => n.toUInt8 :: leBytes width (n / 256)

@[simp] lemma leBytes_length (width n : ℕ) : (leBytes width n).length = width := by
  induction width generalizing n with
  | zero => rfl
  | succ width ih => simp [leBytes, ih]

lemma leValue_cons (b : UInt8) (bytes : List UInt8) :
    leValue (b :: bytes) = b.toNat + 256 * leValue bytes := rfl

lemma leValue_lt (bytes : List UInt8) : leValue bytes < 256 ^ bytes.length := by
  induction bytes with
  | nil => simp [leValue]
  | cons b bytes ih =>
    have hb : b.toNat < 256 := b.toNat_lt
    rw [leValue_cons, List.length_cons, Nat.pow_succ]
    omega

/-- Writing a number that fits and reading it back. -/
lemma leValue_leBytes {width n : ℕ} (h : n < 256 ^ width) : leValue (leBytes width n) = n := by
  induction width generalizing n with
  | zero =>
    have h0 : n = 0 := by simpa using h
    rw [h0]
    rfl
  | succ width ih =>
    have hdiv : n / 256 < 256 ^ width := by
      rw [Nat.pow_succ] at h
      omega
    have hbyte : n.toUInt8.toNat = n % 256 := by simp
    rw [leBytes, leValue_cons, ih hdiv, hbyte]
    omega

/-- Reading bytes as a number and writing it back. -/
lemma leBytes_leValue (bytes : List UInt8) : leBytes bytes.length (leValue bytes) = bytes := by
  induction bytes with
  | nil => rfl
  | cons b bytes ih =>
    have hb : b.toNat < 256 := b.toNat_lt
    have hdiv : (b.toNat + 256 * leValue bytes) / 256 = leValue bytes := by omega
    have hbyte : (b.toNat + 256 * leValue bytes).toUInt8 = b := by
      apply UInt8.toNat_inj.mp
      simp only [UInt8.toNat_ofNat', Nat.toUInt8]
      omega
    rw [List.length_cons, leValue_cons, leBytes, hdiv, hbyte, ih]

/-- Bytes of a fixed width, read as a number. -/
lemma leValue_map_eq_ok {t : Reader ε UInt8 (List UInt8)} {width : ℕ}
    (ht : ∀ input bytes rest,
      t input = ok (bytes, rest) ↔ bytes.length = width ∧ input = bytes ++ rest)
    {input rest : List UInt8} {n : ℕ} :
    (leValue <$> t) input = ok (n, rest) ↔ n < 256 ^ width ∧ input = leBytes width n ++ rest := by
  rw [Reader.map_eq_ok]
  simp only [ht]
  constructor
  · rintro ⟨value, ⟨hlen, rfl⟩, rfl⟩
    have hlt : leValue value < 256 ^ width := hlen ▸ leValue_lt value
    have hvalue : leBytes width (leValue value) = value := hlen ▸ leBytes_leValue value
    exact ⟨hlt, by rw [hvalue]⟩
  · rintro ⟨hn, rfl⟩
    exact ⟨leBytes width n, ⟨leBytes_length width n, rfl⟩, leValue_leBytes hn⟩

/-- A decoder of a fixed number of bytes that reads them as a number is exact, for any type
of which the numbers below the bound are codes. -/
lemma exact_le {t : Reader ε UInt8 (List UInt8)} {width : ℕ}
    (ht : ∀ input bytes rest,
      t input = ok (bytes, rest) ↔ bytes.length = width ∧ input = bytes ++ rest)
    {ofNat : ℕ → α} {toNat : α → ℕ} (hlt : ∀ a, toNat a < 256 ^ width)
    (hofNat : ∀ a, ofNat (toNat a) = a) (htoNat : ∀ n < 256 ^ width, toNat (ofNat n) = n)
    {input : List UInt8} {a : α} {rest : List UInt8} :
    ((fun bytes => ofNat (leValue bytes)) <$> t) input = ok (a, rest) ↔
      input = leBytes width (toNat a) ++ rest := by
  refine exact_fixed ht (fun a => leBytes_length width (toNat a)) ?_ ?_
  · intro a
    rw [leValue_leBytes (hlt a), hofNat]
  · intro bytes hlen
    have hbytes : leValue bytes < 256 ^ width := hlen ▸ leValue_lt bytes
    rw [htoNat _ hbytes, ← hlen, leBytes_leValue]

end TouchBar.Lib
