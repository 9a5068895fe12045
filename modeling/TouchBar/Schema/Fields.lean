import TouchBar.Lib.Codec
import TouchBar.Rust.BTree
import TouchBar.Schema.Wire

/-!
# The fields of payloads

The remaining fields an encoder writes and a decoder reads: words of a fixed width,
flags, optional strings, and bytes with a length in front.  For each field, one lemma
says that the decoder returns a value exactly when the bytes of the value come next.
-/

namespace TouchBar.Schema

open TouchBar.Rust TouchBar.Lib Outcome

/-! ## Encoding -/

namespace Encoder

def u32 (value : UInt32) : List UInt8 := leBytes 4 value.toNat

def u64 (value : UInt64) : List UInt8 := leBytes 8 value.toNat

/-- `i16::to_le_bytes`. -/
def i16 (value : Int16) : List UInt8 := leBytes 2 value.toUInt16.toNat

/-- `i32::to_le_bytes`. -/
def i32 (value : Int32) : List UInt8 := leBytes 4 value.toUInt32.toNat

/-- `i64::to_le_bytes`. -/
def i64 (value : Int64) : List UInt8 := leBytes 8 value.toUInt64.toNat

/-- `u8::from` of a `bool`. -/
def flag (value : Bool) : UInt8 := if value then 1 else 0

/-- A flag, and the value if there is one. -/
def optional {α : Type} (encode : α → Outcome SchemaError (List UInt8)) :
    Option α → Outcome SchemaError (List UInt8)
  | none => ok [flag false]
  | some value => do
    let bytes ← encode value
    return flag true :: bytes

def optionalString : Option String → Outcome SchemaError (List UInt8) := optional string

def blob (value : List UInt8) : Outcome SchemaError (List UInt8) :=
  if UInt32.size ≤ value.length then err .limitExceeded
  else ok (leBytes 4 value.length ++ value)

/-- `u64(len)` followed by the bytes. -/
def payload (value : List UInt8) : List UInt8 := leBytes 8 value.length ++ value

end Encoder

/-! ## Decoding -/

namespace Decoder

/-- A `u16` field that is no length. -/
def word : Decoder UInt16 := UInt16.ofNat <$> u16

def u32 : Decoder UInt32 := (fun bytes => UInt32.ofNat (fromLeBytes bytes)) <$> take 4

def u64 : Decoder UInt64 := (fun bytes => UInt64.ofNat (fromLeBytes bytes)) <$> take 8

/-- `i16::from_le_bytes`. -/
def i16 : Decoder Int16 := (fun bytes => (UInt16.ofNat (fromLeBytes bytes)).toInt16) <$> take 2

/-- `i32::from_le_bytes`. -/
def i32 : Decoder Int32 := (fun bytes => (UInt32.ofNat (fromLeBytes bytes)).toInt32) <$> take 4

/-- `i64::from_le_bytes`. -/
def i64 : Decoder Int64 := (fun bytes => (UInt64.ofNat (fromLeBytes bytes)).toInt64) <$> take 8

/-- A byte that is `0` or `1`. -/
def flag : Decoder Bool := do
  match ← byte with
  | 0 => return false
  | 1 => return true
  | _ => fail .malformed

/-- A byte that is the code of one of some alternatives. -/
def code {α : Type} (ofCode : UInt8 → Option α) : Decoder α :=
  Reader.coded .malformed .malformed ofCode

/-- A flag, and the value if the flag is set. -/
def optional {α : Type} (decode : Decoder α) : Decoder (Option α) := do
  match ← byte with
  | 0 => return none
  | 1 => some <$> decode
  | _ => fail .malformed

def optionalString : Decoder (Option String) := optional string

def blob (maximum : ℕ) : Decoder (List UInt8) := do
  let length ← u32
  if maximum < length.toNat then fail .limitExceeded else take length.toNat

/-- A `u64` length, checked against a limit, and the bytes. -/
def payload (maximum : ℕ) : Decoder (List UInt8) := do
  let length ← u64
  if maximum < length.toNat then fail .limitExceeded else take length.toNat

/-- As `payload`, where no bytes are an error too. -/
def chunk (maximum : ℕ) : Decoder (List UInt8) := do
  let length ← u64
  if length = 0 || maximum < length.toNat then fail .limitExceeded else take length.toNat

end Decoder

variable {input rest bytes : List UInt8}

namespace Encoder

/-- The bytes of a string with its length in front. -/
def text (value : String) : List UInt8 := u16 (Text.len value) ++ Text.asBytes value

@[simp] lemma string_eq_ok {value : String} :
    string value = ok bytes ↔ Text.len value ≤ maxStringBytes ∧ bytes = text value := by
  rw [string, ite_err_eq_ok, not_lt, Outcome.ok.injEq]
  exact and_congr_right fun _ => eq_comm

/-- The bytes of an optional value. -/
def optionalBytes {α : Type} (write : α → List UInt8) : Option α → List UInt8
  | none => [flag false]
  | some value => flag true :: write value

lemma optional_eq_ok {α : Type} {encode : α → Outcome SchemaError (List UInt8)}
    {valid : α → Prop} {write : α → List UInt8}
    (h : ∀ a bytes, encode a = ok bytes ↔ valid a ∧ bytes = write a) {value : Option α} :
    optional encode value = ok bytes ↔
      (∀ a ∈ value, valid a) ∧ bytes = optionalBytes write value := by
  cases value with
  | none => simp [optional, optionalBytes, eq_comm]
  | some a =>
    simp only [optional, Outcome.bind_eq_ok, h, Outcome.pure_eq, Outcome.ok.injEq,
      Option.mem_some_iff, forall_eq', optionalBytes]
    constructor
    · rintro ⟨_, ⟨ha, rfl⟩, rfl⟩
      exact ⟨ha, rfl⟩
    · rintro ⟨ha, rfl⟩
      exact ⟨_, ⟨ha, rfl⟩, rfl⟩

@[simp] lemma optionalString_eq_ok {value : Option String} :
    optionalString value = ok bytes ↔
      (∀ s ∈ value, Text.len s ≤ maxStringBytes) ∧ bytes = optionalBytes text value :=
  optional_eq_ok fun _ _ => string_eq_ok

@[simp] lemma blob_eq_ok {value : List UInt8} :
    blob value = ok bytes ↔
      value.length < UInt32.size ∧ bytes = leBytes 4 value.length ++ value := by
  rw [blob, ite_err_eq_ok, not_le, Outcome.ok.injEq]
  exact and_congr_right fun _ => eq_comm

@[simp] lemma finish_eq_ok {body : List UInt8} :
    finish body = ok bytes ↔ bytes.length ≤ maxPayloadBytes ∧ bytes = body := by
  rw [finish, ite_err_eq_ok, not_lt, Outcome.ok.injEq]
  constructor
  · rintro ⟨h, rfl⟩
    exact ⟨h, rfl⟩
  · rintro ⟨h, rfl⟩
    exact ⟨h, rfl⟩

@[simp] lemma length_u16 (value : ℕ) : (u16 value).length = 2 := rfl

@[simp] lemma length_u32 (value : UInt32) : (u32 value).length = 4 := leBytes_length 4 _

@[simp] lemma length_u64 (value : UInt64) : (u64 value).length = 8 := leBytes_length 8 _

@[simp] lemma length_i64 (value : Int64) : (i64 value).length = 8 := leBytes_length 8 _

@[simp] lemma length_text (value : String) : (text value).length = Text.len value + 2 := by
  rw [text, List.length_append, length_u16, Text.length_asBytes, Nat.add_comm]

@[simp] lemma length_payload (value : List UInt8) :
    (payload value).length = value.length + 8 := by
  rw [payload, List.length_append, leBytes_length, Nat.add_comm]

/-- The bytes of an optional string within its limit. -/
lemma length_optionalText_le {value : Option String}
    (h : ∀ s ∈ value, Text.len s ≤ maxStringBytes) :
    (optionalBytes text value).length ≤ maxStringBytes + 3 := by
  cases value with
  | none => simp [optionalBytes]
  | some s =>
    have hlen := h s rfl
    rw [optionalBytes, List.length_cons, length_text]
    omega

end Encoder

/-! ## Words -/

namespace Decoder

@[simp] lemma fail_eq {α : Type} (e : SchemaError) : (fail e : Decoder α) = Reader.reject e := rfl

lemma take_eq_ok {n : ℕ} {value : List UInt8} :
    take n input = ok (value, rest) ↔ value.length = n ∧ input = value ++ rest :=
  Reader.front_eq_ok

@[simp] lemma byte_eq_ok {value : UInt8} :
    byte input = ok (value, rest) ↔ input = value :: rest := by
  cases input with
  | nil => simp [byte]
  | cons b input => simp [byte]

/-- The words of all widths, signed and unsigned. -/
lemma fixed_eq_ok {α : Type} {width : ℕ} {ofNat : ℕ → α} {toNat : α → ℕ}
    (hlt : ∀ a, toNat a < 256 ^ width) (hofNat : ∀ a, ofNat (toNat a) = a)
    (htoNat : ∀ n < 256 ^ width, toNat (ofNat n) = n) {a : α} :
    ((fun bytes => ofNat (fromLeBytes bytes)) <$> take width) input = ok (a, rest) ↔
      input = leBytes width (toNat a) ++ rest :=
  exact_le (fun _ _ _ => take_eq_ok) hlt hofNat htoNat

@[simp] lemma word_eq_ok {value : UInt16} :
    word input = ok (value, rest) ↔ input = Encoder.u16 value.toNat ++ rest := by
  have h : word = (fun bytes => UInt16.ofNat (fromLeBytes bytes)) <$> take 2 := by
    rw [word, u16, Functor.map_map]
  rw [h]
  exact fixed_eq_ok (fun a => a.toNat_lt) (fun _ => UInt16.ofNat_toNat)
    fun _ hn => UInt16.toNat_ofNat_of_lt' hn

lemma u16_eq_ok {n : ℕ} :
    u16 input = ok (n, rest) ↔ n < 65536 ∧ input = Encoder.u16 n ++ rest :=
  leValue_map_eq_ok fun _ _ _ => take_eq_ok

@[simp] lemma u32_eq_ok {value : UInt32} :
    u32 input = ok (value, rest) ↔ input = Encoder.u32 value ++ rest :=
  fixed_eq_ok (fun a => a.toNat_lt) (fun _ => UInt32.ofNat_toNat)
    fun _ hn => UInt32.toNat_ofNat_of_lt' hn

@[simp] lemma u64_eq_ok {value : UInt64} :
    u64 input = ok (value, rest) ↔ input = Encoder.u64 value ++ rest :=
  fixed_eq_ok (fun a => a.toNat_lt) (fun _ => UInt64.ofNat_toNat)
    fun _ hn => UInt64.toNat_ofNat_of_lt' hn

@[simp] lemma i16_eq_ok {value : Int16} :
    i16 input = ok (value, rest) ↔ input = Encoder.i16 value ++ rest := by
  refine @fixed_eq_ok _ _ _ 2 (fun n => (UInt16.ofNat n).toInt16) (fun a => a.toUInt16.toNat)
    (fun a => a.toUInt16.toNat_lt) ?_ ?_ _
  · intro a
    rw [UInt16.ofNat_toNat, Int16.toInt16_toUInt16]
  · intro n hn
    rw [UInt16.toUInt16_toInt16, UInt16.toNat_ofNat_of_lt' hn]

@[simp] lemma i32_eq_ok {value : Int32} :
    i32 input = ok (value, rest) ↔ input = Encoder.i32 value ++ rest := by
  refine @fixed_eq_ok _ _ _ 4 (fun n => (UInt32.ofNat n).toInt32) (fun a => a.toUInt32.toNat)
    (fun a => a.toUInt32.toNat_lt) ?_ ?_ _
  · intro a
    rw [UInt32.ofNat_toNat, Int32.toInt32_toUInt32]
  · intro n hn
    rw [UInt32.toUInt32_toInt32, UInt32.toNat_ofNat_of_lt' hn]

@[simp] lemma i64_eq_ok {value : Int64} :
    i64 input = ok (value, rest) ↔ input = Encoder.i64 value ++ rest := by
  refine @fixed_eq_ok _ _ _ 8 (fun n => (UInt64.ofNat n).toInt64) (fun a => a.toUInt64.toNat)
    (fun a => a.toUInt64.toNat_lt) ?_ ?_ _
  · intro a
    rw [UInt64.ofNat_toNat, Int64.toInt64_toUInt64]
  · intro n hn
    rw [UInt64.toUInt64_toInt64, UInt64.toNat_ofNat_of_lt' hn]

/-! ## Flags, strings and bytes -/

@[simp] lemma flag_eq_ok {value : Bool} :
    flag input = ok (value, rest) ↔ input = Encoder.flag value :: rest := by
  rw [flag, Reader.bind_eq_ok]
  simp only [byte_eq_ok]
  constructor
  · rintro ⟨code, mid, rfl, h⟩
    split at h
    · obtain ⟨rfl, rfl⟩ := Reader.pure_eq_ok.mp h
      rfl
    · obtain ⟨rfl, rfl⟩ := Reader.pure_eq_ok.mp h
      rfl
    · cases h
  · rintro rfl
    refine ⟨_, _, rfl, ?_⟩
    cases value <;> rfl

@[simp] lemma string_eq_ok {value : String} :
    string input = ok (value, rest) ↔
      Text.len value ≤ maxStringBytes ∧ input = Encoder.text value ++ rest := by
  have hutf8 : string = (do
      let length ← u16
      if maxStringBytes < length then Reader.reject .limitExceeded
      else do
        let value ← take length
        Reader.utf8 .malformed value) := rfl
  simp only [hutf8, Reader.bind_eq_ok, Reader.ite_eq_ok, u16_eq_ok, take_eq_ok, Reader.utf8_eq_ok]
  constructor
  · rintro ⟨length, _, ⟨-, rfl⟩, hmax, _, _, ⟨rfl, rfl⟩, rfl, rfl⟩
    exact ⟨not_lt.mp hmax, (List.append_assoc ..).symm⟩
  · rintro ⟨hmax, rfl⟩
    have hlt : Text.len value < 65536 := lt_of_le_of_lt hmax (by decide)
    exact ⟨Text.len value, _, ⟨hlt, List.append_assoc ..⟩, not_lt.mpr hmax, Text.asBytes value,
      rest, ⟨rfl, rfl⟩, rfl, rfl⟩

lemma code_eq_ok {α : Type} {ofCode : UInt8 → Option α} {codeOf : α → UInt8}
    (h : ∀ c a, ofCode c = some a ↔ c = codeOf a) {value : α} :
    code ofCode input = ok (value, rest) ↔ input = codeOf value :: rest :=
  Reader.coded_eq_ok h

lemma optional_eq_ok {α : Type} {d : Decoder α} {valid : α → Prop} {write : α → List UInt8}
    (h : ∀ input a rest, d input = ok (a, rest) ↔ valid a ∧ input = write a ++ rest)
    {value : Option α} :
    optional d input = ok (value, rest) ↔
      (∀ a ∈ value, valid a) ∧ input = Encoder.optionalBytes write value ++ rest := by
  rw [optional, Reader.bind_eq_ok]
  simp only [byte_eq_ok]
  constructor
  · rintro ⟨c, mid, rfl, hc⟩
    split at hc
    · obtain ⟨rfl, rfl⟩ := Reader.pure_eq_ok.mp hc
      exact ⟨by simp, rfl⟩
    · obtain ⟨a, ha, rfl⟩ := Reader.map_eq_ok.mp hc
      obtain ⟨hvalid, rfl⟩ := (h _ _ _).mp ha
      exact ⟨by simpa using hvalid, rfl⟩
    · cases hc
  · rintro ⟨hvalid, rfl⟩
    cases value with
    | none => exact ⟨0, rest, rfl, rfl⟩
    | some a =>
      have ha : d (write a ++ rest) = ok (a, rest) := (h _ _ _).mpr ⟨hvalid a rfl, rfl⟩
      exact ⟨1, _, rfl, Reader.map_eq_ok.mpr ⟨a, ha, rfl⟩⟩

@[simp] lemma optionalString_eq_ok {value : Option String} :
    optionalString input = ok (value, rest) ↔
      (∀ s ∈ value, Text.len s ≤ maxStringBytes) ∧
        input = Encoder.optionalBytes Encoder.text value ++ rest :=
  optional_eq_ok fun _ _ _ => string_eq_ok

lemma blob_eq_ok {maximum : ℕ} (hmax : maximum < UInt32.size) {value : List UInt8} :
    blob maximum input = ok (value, rest) ↔
      value.length ≤ maximum ∧ input = leBytes 4 value.length ++ (value ++ rest) := by
  rw [blob]
  simp only [Reader.bind_eq_ok, fail_eq, Reader.ite_eq_ok, u32_eq_ok, take_eq_ok]
  constructor
  · rintro ⟨length, mid, rfl, hlength, hlen, rfl⟩
    rw [hlen]
    exact ⟨not_lt.mp hlength, rfl⟩
  · rintro ⟨hlen, rfl⟩
    have hvalue : (UInt32.ofNat value.length).toNat = value.length :=
      UInt32.toNat_ofNat_of_lt' (lt_of_le_of_lt hlen hmax)
    refine ⟨UInt32.ofNat value.length, value ++ rest, ?_, ?_, hvalue.symm, rfl⟩
    · rw [Encoder.u32, hvalue]
    · rw [hvalue]
      exact not_lt.mpr hlen

lemma payload_eq_ok {maximum : ℕ} (hmax : maximum < UInt64.size) {value : List UInt8} :
    payload maximum input = ok (value, rest) ↔
      value.length ≤ maximum ∧ input = Encoder.payload value ++ rest := by
  rw [payload]
  simp only [Reader.bind_eq_ok, fail_eq, Reader.ite_eq_ok, u64_eq_ok, take_eq_ok]
  constructor
  · rintro ⟨length, mid, rfl, hlength, hlen, rfl⟩
    rw [Encoder.payload, hlen, List.append_assoc]
    exact ⟨not_lt.mp hlength, rfl⟩
  · rintro ⟨hlen, rfl⟩
    have hvalue : (UInt64.ofNat value.length).toNat = value.length :=
      UInt64.toNat_ofNat_of_lt' (lt_of_le_of_lt hlen hmax)
    refine ⟨UInt64.ofNat value.length, value ++ rest, ?_, ?_, hvalue.symm, rfl⟩
    · rw [Encoder.payload, Encoder.u64, hvalue, List.append_assoc]
    · rw [hvalue]
      exact not_lt.mpr hlen

lemma chunk_eq_ok {maximum : ℕ} (hmax : maximum < UInt64.size) {value : List UInt8} :
    chunk maximum input = ok (value, rest) ↔
      value ≠ [] ∧ value.length ≤ maximum ∧ input = Encoder.payload value ++ rest := by
  -- `chunk` is `payload` with one more guard
  rw [← payload_eq_ok hmax, chunk, payload]
  simp only [Reader.bind_eq_ok, fail_eq, Reader.ite_eq_ok, take_eq_ok, Bool.or_eq_true,
    decide_eq_true_eq, not_or]
  constructor
  · rintro ⟨length, mid, h, ⟨hzero, hlength⟩, hlen, rfl⟩
    refine ⟨?_, length, _, h, hlength, hlen, rfl⟩
    rintro rfl
    exact hzero (UInt64.toNat_inj.mp hlen.symm)
  · rintro ⟨hne, length, mid, h, hlength, hlen, rfl⟩
    refine ⟨length, _, h, ⟨?_, hlength⟩, hlen, rfl⟩
    rintro rfl
    exact hne (List.length_eq_zero_iff.mp hlen)

/-! ## Whole payloads -/

@[simp] lemma run_eq_ok {α : Type} {d : Decoder α} {magic : List UInt8} {a : α} :
    run d magic bytes = ok a ↔
      bytes.length ≤ maxPayloadBytes ∧ ∃ body, bytes = magic ++ body ∧ d body = ok (a, []) := by
  rw [run, ite_err_eq_ok, ite_err_eq_ok, not_lt]
  refine and_congr_right fun _ => ?_
  rw [Bool.not_eq_true, Bool.not_eq_false', List.isPrefixOf_iff_prefix]
  constructor
  · rintro ⟨⟨body, rfl⟩, h⟩
    rw [List.drop_left, Outcome.bind_eq_ok] at h
    obtain ⟨⟨value, remaining⟩, hd, h⟩ := h
    cases remaining with
    | nil =>
      obtain rfl : value = a := Outcome.ok.inj h
      exact ⟨body, rfl, hd⟩
    | cons b remaining => cases h
  · rintro ⟨body, rfl, h⟩
    refine ⟨⟨body, rfl⟩, ?_⟩
    rw [List.drop_left, h]
    rfl

end Decoder

/-! ## Lists -/

lemma Encoder.strings_eq (values : List String) : strings values = writeMany string values := by
  induction values with
  | nil => rfl
  | cons value values ih => rw [strings, writeMany, ih]

@[simp] lemma Encoder.strings_eq_ok {values : List String} :
    strings values = ok bytes ↔
      (∀ s ∈ values, Text.len s ≤ maxStringBytes) ∧ bytes = values.flatMap text := by
  rw [strings_eq]
  exact writeMany_eq_ok fun _ _ => string_eq_ok

lemma Decoder.strings_eq (count : ℕ) : strings count = readMany string count := by
  induction count with
  | zero => rfl
  | succ count ih => rw [strings, readMany, ih]

@[simp] lemma Decoder.strings_eq_ok {count : ℕ} {values : List String} :
    strings count input = ok (values, rest) ↔ values.length = count ∧
      (∀ s ∈ values, Text.len s ≤ maxStringBytes) ∧
        input = values.flatMap Encoder.text ++ rest := by
  rw [strings_eq]
  exact readMany_eq_ok fun _ _ _ => string_eq_ok

section Unique

variable {α : Type} {key : α → String} {valid : α → Prop} {write : α → List UInt8}

/-- One turn of a loop that rejects a key it has seen. -/
def UniqueItem (key : α → String) (valid : α → Prop) (write : α → List UInt8)
    (keys : BTreeSet String) (a : α) (keys' : BTreeSet String) (w : List UInt8) : Prop :=
  keys.contains (key a) = false ∧ keys' = keys.insert (key a) ∧ valid a ∧ w = write a

/-- A loop that rejects a key it has seen writes lists with different keys. -/
lemma written_unique_iff {keys : BTreeSet String} {as : List α} :
    Written (UniqueItem key valid write) keys as bytes ↔
      (∀ a ∈ as, valid a ∧ key a ∉ keys) ∧ (as.map key).Nodup ∧ bytes = as.flatMap write := by
  induction as generalizing keys bytes with
  | nil => simp [written_nil_iff]
  | cons a as ih =>
    simp only [written_cons_iff, ih, UniqueItem, List.forall_mem_cons, List.map_cons,
      List.nodup_cons, List.flatMap_cons, List.mem_map, not_exists, not_and]
    constructor
    · rintro ⟨_, w, ws, ⟨hkey, rfl, ha, rfl⟩, ⟨has, hnodup, rfl⟩, rfl⟩
      have hnot : key a ∉ keys := by
        rw [← BTreeSet.contains_iff, hkey]
        simp
      refine ⟨⟨⟨ha, hnot⟩, fun b hb => ⟨(has b hb).1, ?_⟩⟩, ⟨?_, hnodup⟩, rfl⟩
      · intro hmem
        exact (has b hb).2 (BTreeSet.mem_insert.mpr (Or.inr hmem))
      · intro b hb heq
        exact (has b hb).2 (BTreeSet.mem_insert.mpr (Or.inl heq))
    · rintro ⟨⟨⟨ha, hnot⟩, has⟩, ⟨hne, hnodup⟩, rfl⟩
      have hkey : keys.contains (key a) = false := by
        rw [← Bool.not_eq_true, BTreeSet.contains_iff]
        exact hnot
      refine ⟨_, _, _, ⟨hkey, rfl, ha, rfl⟩, ⟨fun b hb => ⟨(has b hb).1, ?_⟩, hnodup, rfl⟩, rfl⟩
      rw [BTreeSet.mem_insert, not_or]
      exact ⟨hne b hb, (has b hb).2⟩

end Unique

end TouchBar.Schema
