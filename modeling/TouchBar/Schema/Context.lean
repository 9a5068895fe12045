import TouchBar.Schema.Fields

/-!
# Payloads about appearance and context

The published appearance, and the facts about the desktop that a plugin reads or
subscribes to.  A list of facts has no key twice, on both sides of the wire.  The set
of requested facts is written in increasing order; the decoder accepts its elements
in any order, as long as none comes twice.
-/

namespace TouchBar.Schema

open TouchBar.Rust TouchBar.Lib Outcome

def maxContextFacts : ℕ := 32
def maxContextValueBytes : ℕ := 256

variable {input rest bytes : List UInt8}

/-! ## Publishing an appearance -/

inductive AppearanceScheme where
  | dark
  | light
deriving DecidableEq, Repr

structure AppearanceColor where
  red : UInt8
  green : UInt8
  blue : UInt8
deriving DecidableEq, Repr

structure AppearancePublish where
  provider : String
  scheme : AppearanceScheme
  background : AppearanceColor
  foreground : AppearanceColor
  accent : AppearanceColor
  selection : AppearanceColor
  muted : AppearanceColor
  destructive : AppearanceColor
deriving DecidableEq, Repr

namespace AppearanceScheme

def code : AppearanceScheme → UInt8
  | dark => 0
  | light => 1

def ofCode : UInt8 → Option AppearanceScheme
  | 0 => some dark
  | 1 => some light
  | _ => none

lemma ofCode_eq_some {c : UInt8} {scheme : AppearanceScheme} :
    ofCode c = some scheme ↔ c = scheme.code := by
  cases scheme <;> unfold ofCode <;> split <;> simp_all [code]

end AppearanceScheme

namespace AppearanceColor

def rgb (color : AppearanceColor) : List UInt8 := [color.red, color.green, color.blue]

def decode : Decoder AppearanceColor := do
  let red ← Decoder.byte
  let green ← Decoder.byte
  let blue ← Decoder.byte
  return ⟨red, green, blue⟩

@[simp] lemma decode_eq_ok {color : AppearanceColor} :
    decode input = ok (color, rest) ↔ input = color.rgb ++ rest := by
  obtain ⟨red, green, blue⟩ := color
  simp [decode, rgb]

end AppearanceColor

namespace AppearancePublish

def magic : List UInt8 := magicOf "OMAPPPB1"

def encode (value : AppearancePublish) : Outcome SchemaError (List UInt8) :=
  if Text.isEmpty value.provider then err .malformed
  else do
    let provider ← Encoder.string value.provider
    Encoder.finish (magic ++ provider ++ [value.scheme.code] ++
      [value.background, value.foreground, value.accent, value.selection, value.muted,
        value.destructive].flatMap AppearanceColor.rgb)

def decodeFields : Decoder AppearancePublish := do
  let provider ← Decoder.string
  if Text.isEmpty provider then
    Decoder.fail .malformed
  else
    let scheme ← Decoder.code AppearanceScheme.ofCode
    let background ← AppearanceColor.decode
    let foreground ← AppearanceColor.decode
    let accent ← AppearanceColor.decode
    let selection ← AppearanceColor.decode
    let muted ← AppearanceColor.decode
    let destructive ← AppearanceColor.decode
    return ⟨provider, scheme, background, foreground, accent, selection, muted, destructive⟩

def decode (bytes : List UInt8) : Outcome SchemaError AppearancePublish :=
  Decoder.run decodeFields magic bytes

lemma decode_eq_ok {value : AppearancePublish} :
    decode bytes = ok value ↔ encode value = ok bytes := by
  obtain ⟨provider, scheme, c₁, c₂, c₃, c₄, c₅, c₆⟩ := value
  simp [decode, encode, decodeFields, Decoder.code_eq_ok fun _ _ => AppearanceScheme.ofCode_eq_some]
  tauto

end AppearancePublish

/-! ## Requesting facts -/

structure ContextReadRequest where
  facts : BTreeSet String
deriving DecidableEq

namespace ContextReadRequest

def magic : List UInt8 := magicOf "OMCTXRQ1"

def encode (request : ContextReadRequest) : Outcome SchemaError (List UInt8) :=
  if request.facts.isEmpty then err .malformed
  else if maxContextFacts < request.facts.len then err .limitExceeded
  else do
    let facts ← Encoder.strings request.facts.toList
    Encoder.finish (magic ++ Encoder.u16 request.facts.len ++ facts)

/-- The loop that inserts facts into a set. -/
def decodeFacts : BTreeSet String → ℕ → Decoder (BTreeSet String)
  | facts, 0 => return facts
  | facts, count + 1 => do
    let fact ← Decoder.string
    if facts.contains fact then
      Decoder.fail .malformed
    else
      decodeFacts (facts.insert fact) count

def decodeFields : Decoder ContextReadRequest := do
  let count ← Decoder.u16
  if count = 0 then
    Decoder.fail .malformed
  else if maxContextFacts < count then
    Decoder.fail .limitExceeded
  else
    let facts ← decodeFacts .empty count
    return ⟨facts⟩

def decode (bytes : List UInt8) : Outcome SchemaError ContextReadRequest :=
  Decoder.run decodeFields magic bytes

/-- The loop reads as many different strings as it is asked for, none of which is in the set
it starts from. -/
lemma decodeFacts_eq_ok {count : ℕ} {facts result : BTreeSet String} :
    decodeFacts facts count input = ok (result, rest) ↔
      ∃ values : List String, values.length = count ∧
        (∀ s ∈ values, Text.len s ≤ maxStringBytes ∧ s ∉ facts) ∧ values.Nodup ∧
          result = values.foldl .insert facts ∧
            input = values.flatMap Encoder.text ++ rest := by
  induction count generalizing facts input with
  | zero =>
    rw [decodeFacts, Reader.pure_eq_ok]
    constructor
    · rintro ⟨rfl, rfl⟩
      exact ⟨[], rfl, by simp, List.nodup_nil, rfl, rfl⟩
    · rintro ⟨values, hlen, -, -, rfl, rfl⟩
      obtain rfl := List.length_eq_zero_iff.mp hlen
      exact ⟨rfl, rfl⟩
  | succ count ih =>
    simp only [decodeFacts, Reader.bind_eq_ok, Decoder.string_eq_ok, Decoder.fail_eq,
      Reader.ite_eq_ok, ih, BTreeSet.contains_iff]
    constructor
    · rintro ⟨fact, _, ⟨hlen, rfl⟩, hnot, values, rfl, hvalues, hnodup, rfl, rfl⟩
      refine ⟨fact :: values, rfl, ?_, ?_, rfl, by simp⟩
      · intro s hs
        rcases List.mem_cons.mp hs with rfl | hs
        · exact ⟨hlen, hnot⟩
        · refine ⟨(hvalues s hs).1, fun hmem => (hvalues s hs).2 ?_⟩
          exact BTreeSet.mem_insert.mpr (Or.inr hmem)
      · refine List.nodup_cons.mpr ⟨fun hmem => (hvalues fact hmem).2 ?_, hnodup⟩
        exact BTreeSet.mem_insert.mpr (Or.inl rfl)
    · rintro ⟨values, hlen, hvalues, hnodup, rfl, rfl⟩
      cases values with
      | nil => simp at hlen
      | cons fact values =>
        rw [List.nodup_cons] at hnodup
        have hfact := hvalues fact (by simp)
        refine ⟨fact, _, ⟨hfact.1, by simp⟩, hfact.2, values, by simpa using hlen, ?_, hnodup.2,
          rfl, rfl⟩
        intro s hs
        refine ⟨(hvalues s (by simp [hs])).1, fun hmem => ?_⟩
        rcases BTreeSet.mem_insert.mp hmem with rfl | hmem
        · exact hnodup.1 hs
        · exact (hvalues s (by simp [hs])).2 hmem

/-- The payload lists these facts, one after the other, within the limits of the decoder. -/
structure Lists (bytes : List UInt8) (values : List String) : Prop where
  nonempty : values ≠ []
  count : values.length ≤ maxContextFacts
  lengths : ∀ s ∈ values, Text.len s ≤ maxStringBytes
  nodup : values.Nodup
  size : bytes.length ≤ maxPayloadBytes
  layout : bytes = magic ++ (Encoder.u16 values.length ++ values.flatMap Encoder.text)

lemma decode_eq_ok {request : ContextReadRequest} :
    decode bytes = ok request ↔ ∃ values, Lists bytes values ∧ request = ⟨.ofList values⟩ := by
  simp only [decode, Decoder.run_eq_ok, decodeFields, Reader.bind_eq_ok, Decoder.u16_eq_ok,
    Decoder.fail_eq, Reader.ite_eq_ok, not_lt, decodeFacts_eq_ok, Reader.pure_eq_ok]
  constructor
  · rintro ⟨hsize, _, rfl, count, _, ⟨-, rfl⟩, hzero, hcount, _, _,
      ⟨values, rfl, hvalues, hnodup, rfl, rfl⟩, rfl, rfl⟩
    refine ⟨values, ⟨?_, hcount, fun s hs => (hvalues s hs).1, hnodup, hsize, by simp⟩, rfl⟩
    rintro rfl
    exact hzero rfl
  · rintro ⟨values, h, rfl⟩
    have hlt : values.length < 65536 := lt_of_le_of_lt h.count (by decide)
    refine ⟨h.size, _, h.layout, values.length, values.flatMap Encoder.text, ⟨hlt, rfl⟩, ?_,
      h.count, _, [], ⟨values, rfl, fun s hs => ⟨h.lengths s hs, ?_⟩, h.nodup, rfl, ?_⟩, rfl, rfl⟩
    · exact fun hzero => h.nonempty (List.length_eq_zero_iff.mp hzero)
    · exact BTreeSet.notMem_empty
    · simp

lemma encode_eq_ok {request : ContextReadRequest} :
    encode request = ok bytes ↔ Lists bytes request.facts.toList := by
  simp only [encode, ite_err_eq_ok, not_lt, Outcome.bind_eq_ok, Encoder.strings_eq_ok,
    Encoder.finish_eq_ok]
  constructor
  · rintro ⟨hempty, hcount, _, ⟨hlengths, rfl⟩, hsize, hlayout⟩
    refine ⟨?_, hcount, hlengths, request.facts.sorted.imp ne_of_lt, hsize, ?_⟩
    · intro hnil
      exact hempty (List.isEmpty_iff.mpr hnil)
    · rw [hlayout, List.append_assoc]
      rfl
  · intro h
    refine ⟨?_, h.count, _, ⟨h.lengths, rfl⟩, h.size, ?_⟩
    · intro hempty
      exact h.nonempty (List.isEmpty_iff.mp hempty)
    · rw [List.append_assoc]
      exact h.layout

/-- A payload lists its facts in one order only. -/
lemma Lists.unique {values values' : List String} (h : Lists bytes values)
    (h' : Lists bytes values') : values = values' := by
  have hbytes := h.layout.symm.trans h'.layout
  rw [List.append_cancel_left_eq] at hbytes
  have hlt : values.length < 65536 := lt_of_le_of_lt h.count (by decide)
  have hlt' : values'.length < 65536 := lt_of_le_of_lt h'.count (by decide)
  -- both lists are what the decoder returns on the same bytes
  have hread : Decoder.u16 (Encoder.u16 values.length ++ values.flatMap Encoder.text) =
      ok (values.length, values.flatMap Encoder.text) := Decoder.u16_eq_ok.mpr ⟨hlt, rfl⟩
  have hread' := Decoder.u16_eq_ok.mpr ⟨hlt', hbytes⟩
  rw [hread, Outcome.ok.injEq, Prod.mk.injEq] at hread'
  obtain ⟨hlen, hflat⟩ := hread'
  have hstrings : Decoder.strings values.length (values.flatMap Encoder.text) =
      ok (values, []) := Decoder.strings_eq_ok.mpr ⟨rfl, h.lengths, by simp⟩
  have hstrings' : Decoder.strings values.length (values.flatMap Encoder.text) =
      ok (values', []) := Decoder.strings_eq_ok.mpr ⟨hlen.symm, h'.lengths, by simp [hflat]⟩
  rw [hstrings, Outcome.ok.injEq, Prod.mk.injEq] at hstrings'
  exact hstrings'.1

/-- What encoding writes is read back. -/
lemma decode_of_encode {request : ContextReadRequest} (h : encode request = ok bytes) :
    decode bytes = ok request := by
  refine decode_eq_ok.mpr ⟨_, encode_eq_ok.mp h, ?_⟩
  cases request
  congr 1
  exact BTreeSet.ext_toList (BTreeSet.toList_ofList (BTreeSet.sorted _)).symm

/-- A payload is canonical exactly when the facts it lists stand in increasing order. -/
lemma canonical_iff :
    (∀ request, decode bytes = ok request → encode request = ok bytes) ↔
      ∀ values, Lists bytes values → values.Pairwise (· < ·) := by
  simp only [decode_eq_ok, encode_eq_ok]
  constructor
  · intro h values hvalues
    have hset := h ⟨.ofList values⟩ ⟨values, hvalues, rfl⟩
    rw [hvalues.unique hset]
    exact (BTreeSet.ofList values).sorted
  · rintro h request ⟨values, hvalues, rfl⟩
    have htoList : (BTreeSet.ofList values).toList = values :=
      BTreeSet.toList_ofList (h values hvalues)
    change Lists bytes (BTreeSet.ofList values).toList
    rw [htoList]
    exact hvalues

end ContextReadRequest

/-! ## Snapshots of facts -/

inductive ContextFactValue where
  | text (value : String)
  | boolean (value : Bool)
deriving DecidableEq, Repr

structure ContextFact where
  key : String
  value : ContextFactValue
deriving DecidableEq, Repr

structure ContextSnapshot where
  generation : UInt64
  facts : List ContextFact
deriving DecidableEq, Repr

structure ContextSubscriptionOpened where
  resourceId : UInt64
  snapshot : ContextSnapshot
deriving DecidableEq, Repr

namespace ContextFactValue

def encode : ContextFactValue → Outcome SchemaError (List UInt8)
  | text value =>
    if maxContextValueBytes < Text.len value then err .limitExceeded
    else do
      let bytes ← Encoder.string value
      return 0 :: bytes
  | boolean value => ok [1, Encoder.flag value]

def decode : Decoder ContextFactValue := do
  match ← Decoder.byte with
  | 0 =>
    let value ← Decoder.string
    if maxContextValueBytes < Text.len value then Decoder.fail .limitExceeded else return text value
  | 1 => boolean <$> Decoder.flag
  | _ => Decoder.fail .malformed

/-- The values within their limit. -/
def Valid : ContextFactValue → Prop
  | text value => Text.len value ≤ maxContextValueBytes
  | boolean _ => True

/-- The bytes of a value. -/
def write : ContextFactValue → List UInt8
  | text value => 0 :: Encoder.text value
  | boolean value => [1, Encoder.flag value]

lemma len_le_of_valid {value : String} (h : Text.len value ≤ maxContextValueBytes) :
    Text.len value ≤ maxStringBytes :=
  h.trans (by decide)

@[simp] lemma encode_eq_ok {value : ContextFactValue} :
    value.encode = ok bytes ↔ value.Valid ∧ bytes = value.write := by
  cases value with
  | text value =>
    simp only [encode, ite_err_eq_ok, not_lt, Outcome.bind_eq_ok, Encoder.string_eq_ok,
      Outcome.pure_eq, Outcome.ok.injEq, Valid, write]
    constructor
    · rintro ⟨hlen, _, ⟨-, rfl⟩, rfl⟩
      exact ⟨hlen, rfl⟩
    · rintro ⟨hlen, rfl⟩
      exact ⟨hlen, _, ⟨len_le_of_valid hlen, rfl⟩, rfl⟩
  | boolean value => simp [encode, Valid, write, eq_comm]

@[simp] lemma decode_eq_ok {value : ContextFactValue} :
    decode input = ok (value, rest) ↔ value.Valid ∧ input = value.write ++ rest := by
  rw [decode, Reader.bind_eq_ok]
  simp only [Decoder.byte_eq_ok]
  constructor
  · rintro ⟨c, mid, rfl, h⟩
    split at h
    · simp only [Reader.bind_eq_ok, Decoder.string_eq_ok, Decoder.fail_eq, Reader.ite_eq_ok,
        Reader.pure_eq_ok] at h
      obtain ⟨value, mid, ⟨-, rfl⟩, hlen, rfl, rfl⟩ := h
      exact ⟨not_lt.mp hlen, rfl⟩
    · simp only [Reader.map_eq_ok, Decoder.flag_eq_ok] at h
      obtain ⟨value, rfl, rfl⟩ := h
      exact ⟨trivial, rfl⟩
    · cases h
  · rintro ⟨hvalid, rfl⟩
    cases value with
    | text value =>
      have hlen : Text.len value ≤ maxContextValueBytes := hvalid
      exact ⟨0, _, rfl, by simp [hlen, len_le_of_valid hlen]⟩
    | boolean value => exact ⟨1, _, rfl, by simp⟩

end ContextFactValue

/-- The loop over the facts, with the keys that came before. -/
def encodeFacts : BTreeSet String → List ContextFact → Outcome SchemaError (List UInt8)
  | _, [] => ok []
  | keys, fact :: facts =>
    if keys.contains fact.key then err .malformed
    else do
      let key ← Encoder.string fact.key
      let value ← fact.value.encode
      let rest ← encodeFacts (keys.insert fact.key) facts
      return key ++ value ++ rest

def encodeContextSnapshot (magic : List UInt8) (resourceId : Option UInt64)
    (snapshot : ContextSnapshot) : Outcome SchemaError (List UInt8) :=
  if snapshot.generation = 0 then err .malformed
  else if maxContextFacts < snapshot.facts.length then err .limitExceeded
  else do
    let facts ← encodeFacts .empty snapshot.facts
    Encoder.finish (magic ++ resourceId.toList.flatMap Encoder.u64 ++
      Encoder.u64 snapshot.generation ++ Encoder.u16 snapshot.facts.length ++ facts)

/-- The loop over the facts, with the keys that came before. -/
def decodeFacts : BTreeSet String → ℕ → Decoder (List ContextFact)
  | _, 0 => return []
  | keys, count + 1 => do
    let key ← Decoder.string
    if keys.contains key then
      Decoder.fail .malformed
    else
      let value ← ContextFactValue.decode
      let facts ← decodeFacts (keys.insert key) count
      return ⟨key, value⟩ :: facts

section Facts

/-- The facts within their limits. -/
def ContextFact.Valid (fact : ContextFact) : Prop :=
  Text.len fact.key ≤ maxStringBytes ∧ fact.value.Valid

/-- The bytes of a fact. -/
def ContextFact.write (fact : ContextFact) : List UInt8 :=
  Encoder.text fact.key ++ fact.value.write

/-- The lists of facts within their limits that have no key twice. -/
def ValidFacts (facts : List ContextFact) : Prop :=
  (∀ fact ∈ facts, fact.Valid) ∧ (facts.map ContextFact.key).Nodup

variable {facts : List ContextFact}

lemma encodeFacts_written {keys : BTreeSet String} :
    encodeFacts keys facts = ok bytes ↔
      Written (UniqueItem ContextFact.key ContextFact.Valid ContextFact.write) keys facts
        bytes := by
  refine @write_loop_exact _ _ _ _ _ encodeFacts (fun _ => rfl) ?_ _ _ _
  intro keys fact facts bytes
  simp only [encodeFacts, ite_err_eq_ok, Bool.not_eq_true, Outcome.bind_eq_ok,
    Encoder.string_eq_ok, ContextFactValue.encode_eq_ok, Outcome.pure_eq, Outcome.ok.injEq]
  constructor
  · rintro ⟨hkey, _, ⟨hlen, rfl⟩, _, ⟨hvalue, rfl⟩, ws, hws, rfl⟩
    exact ⟨_, fact.write, ws, ⟨hkey, rfl, ⟨hlen, hvalue⟩, rfl⟩, hws, rfl⟩
  · rintro ⟨_, _, ws, ⟨hkey, rfl, ⟨hlen, hvalue⟩, rfl⟩, hws, rfl⟩
    exact ⟨hkey, _, ⟨hlen, rfl⟩, _, ⟨hvalue, rfl⟩, ws, hws, rfl⟩

lemma decodeFacts_written {keys : BTreeSet String} {count : ℕ} :
    decodeFacts keys count input = ok (facts, rest) ↔ facts.length = count ∧
      ∃ bytes, Written (UniqueItem ContextFact.key ContextFact.Valid ContextFact.write)
        keys facts bytes ∧ input = bytes ++ rest := by
  refine read_loop_exact (fun _ => rfl) ?_
  intro keys count input facts rest
  simp only [decodeFacts, Reader.bind_eq_ok, Decoder.string_eq_ok, Decoder.fail_eq,
    Reader.ite_eq_ok, Bool.not_eq_true, ContextFactValue.decode_eq_ok, Reader.pure_eq_ok]
  constructor
  · rintro ⟨key, mid, ⟨hlen, rfl⟩, hkey, value, mid, ⟨hvalue, rfl⟩, tail, mid, htail, rfl, rfl⟩
    exact ⟨⟨key, value⟩, _, _, _, tail, ⟨hkey, rfl, ⟨hlen, hvalue⟩, rfl⟩,
      (List.append_assoc ..).symm, htail, rfl⟩
  · rintro ⟨fact, _, _, mid, tail, ⟨hkey, rfl, ⟨hlen, hvalue⟩, rfl⟩, rfl, htail, rfl⟩
    exact ⟨fact.key, _, ⟨hlen, List.append_assoc ..⟩, hkey, fact.value, mid, ⟨hvalue, rfl⟩, tail,
      rest, htail, rfl, rfl⟩

@[simp] lemma encodeFacts_eq_ok :
    encodeFacts .empty facts = ok bytes ↔
      ValidFacts facts ∧ bytes = facts.flatMap ContextFact.write := by
  rw [encodeFacts_written, written_unique_iff]
  simp [ValidFacts, and_assoc]

@[simp] lemma decodeFacts_eq_ok {count : ℕ} :
    decodeFacts .empty count input = ok (facts, rest) ↔ facts.length = count ∧
      ValidFacts facts ∧ input = facts.flatMap ContextFact.write ++ rest := by
  rw [decodeFacts_written]
  simp [written_unique_iff, ValidFacts, and_assoc]

end Facts

def ContextSubscriptionOpened.magic : List UInt8 := magicOf "OMCTXOP1"

/-- The fields after the magic number; only the opened subscription starts with a resource. -/
def decodeContextFields (magic : List UInt8) : Decoder (Option UInt64 × ContextSnapshot) := do
  let resourceId ←
    if magic = ContextSubscriptionOpened.magic then some <$> Decoder.u64 else pure none
  let generation ← Decoder.u64
  if generation = 0 then
    Decoder.fail .malformed
  else
    let count ← Decoder.u16
    if maxContextFacts < count then
      Decoder.fail .limitExceeded
    else
      let facts ← decodeFacts .empty count
      return (resourceId, ⟨generation, facts⟩)

def decodeContextSnapshot (bytes magic : List UInt8) :
    Outcome SchemaError (Option UInt64 × ContextSnapshot) :=
  Decoder.run (decodeContextFields magic) magic bytes

lemma encodeContextSnapshot_eq_ok {magic : List UInt8} {resourceId : Option UInt64}
    {snapshot : ContextSnapshot} :
    encodeContextSnapshot magic resourceId snapshot = ok bytes ↔
      snapshot.generation ≠ 0 ∧ snapshot.facts.length ≤ maxContextFacts ∧
        ValidFacts snapshot.facts ∧ bytes.length ≤ maxPayloadBytes ∧
          bytes = magic ++ resourceId.toList.flatMap Encoder.u64 ++
            Encoder.u64 snapshot.generation ++ Encoder.u16 snapshot.facts.length ++
              snapshot.facts.flatMap ContextFact.write := by
  simp [encodeContextSnapshot]

lemma decodeContextFields_eq_ok {magic : List UInt8} {resourceId : Option UInt64}
    {snapshot : ContextSnapshot} :
    decodeContextFields magic input = ok ((resourceId, snapshot), rest) ↔
      (resourceId.isSome ↔ magic = ContextSubscriptionOpened.magic) ∧
        snapshot.generation ≠ 0 ∧ snapshot.facts.length ≤ maxContextFacts ∧
          ValidFacts snapshot.facts ∧
            input = resourceId.toList.flatMap Encoder.u64 ++ (Encoder.u64 snapshot.generation ++
              (Encoder.u16 snapshot.facts.length ++
                (snapshot.facts.flatMap ContextFact.write ++ rest))) := by
  obtain ⟨generation, facts⟩ := snapshot
  have hcount : facts.length ≤ maxContextFacts → facts.length < 65536 :=
    fun h => lt_of_le_of_lt h (by decide)
  rw [decodeContextFields]
  split_ifs with hmagic
  · cases resourceId with
    | none => simp [hmagic]
    | some resourceId =>
      simp [Decoder.u16_eq_ok]
      tauto
  · cases resourceId with
    | none =>
      simp [Decoder.u16_eq_ok]
      tauto
    | some resourceId => simp [hmagic]

/-- The decoder accepts what the encoder writes, for the magic number that goes with a
resource and for the other one. -/
lemma decodeContextSnapshot_eq_ok {magic : List UInt8} {resourceId : Option UInt64}
    {snapshot : ContextSnapshot} :
    decodeContextSnapshot bytes magic = ok (resourceId, snapshot) ↔
      (resourceId.isSome ↔ magic = ContextSubscriptionOpened.magic) ∧
        encodeContextSnapshot magic resourceId snapshot = ok bytes := by
  simp [decodeContextSnapshot, decodeContextFields_eq_ok, encodeContextSnapshot_eq_ok]
  tauto

namespace ContextSnapshot

def magic : List UInt8 := magicOf "OMCTXSN1"

def encode (snapshot : ContextSnapshot) : Outcome SchemaError (List UInt8) :=
  encodeContextSnapshot magic none snapshot

def decode (bytes : List UInt8) : Outcome SchemaError ContextSnapshot := do
  let (_, snapshot) ← decodeContextSnapshot bytes magic
  return snapshot

lemma decode_eq_ok {snapshot : ContextSnapshot} :
    decode bytes = ok snapshot ↔ encode snapshot = ok bytes := by
  have hmagic : magic ≠ ContextSubscriptionOpened.magic := by decide
  simp only [decode, Outcome.bind_eq_ok, Prod.exists, decodeContextSnapshot_eq_ok, hmagic,
    Outcome.pure_eq, Outcome.ok.injEq]
  constructor
  · rintro ⟨resourceId, _, ⟨hsome, h⟩, rfl⟩
    obtain rfl : resourceId = none := by simpa using hsome
    exact h
  · intro h
    exact ⟨none, snapshot, ⟨by simp, h⟩, rfl⟩

end ContextSnapshot

namespace ContextSubscriptionOpened

def encode (opened : ContextSubscriptionOpened) : Outcome SchemaError (List UInt8) :=
  if opened.resourceId = 0 then err .malformed
  else encodeContextSnapshot magic (some opened.resourceId) opened.snapshot

def decode (bytes : List UInt8) : Outcome SchemaError ContextSubscriptionOpened := do
  let (resourceId, snapshot) ← decodeContextSnapshot bytes magic
  match resourceId with
  | none => err .malformed
  | some resourceId => if resourceId = 0 then err .malformed else ok ⟨resourceId, snapshot⟩

lemma decode_eq_ok {opened : ContextSubscriptionOpened} :
    decode bytes = ok opened ↔ encode opened = ok bytes := by
  obtain ⟨resourceId, snapshot⟩ := opened
  simp only [decode, Outcome.bind_eq_ok, Prod.exists, decodeContextSnapshot_eq_ok, encode,
    ite_err_eq_ok]
  constructor
  · rintro ⟨_ | found, _, ⟨-, h⟩, heq⟩
    · cases heq
    · simp only [ite_err_eq_ok, Outcome.ok.injEq, mk.injEq] at heq
      obtain ⟨hne, rfl, rfl⟩ := heq
      exact ⟨hne, h⟩
  · rintro ⟨hne, h⟩
    exact ⟨some resourceId, snapshot, ⟨by simp, h⟩, by simp [hne]⟩

end ContextSubscriptionOpened

end TouchBar.Schema
