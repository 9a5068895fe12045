import TouchBar.Schema.Fields

/-!
# Payloads about D-Bus

Method calls and their replies, subscriptions to one signal, and the typed properties
that a signal delivers.  A floating-point property is its bit pattern; the values that
are not finite have no encoding.
-/

namespace TouchBar.Schema

open TouchBar.Rust TouchBar.Lib Outcome

def maxProperties : ℕ := 64

variable {input rest bytes : List UInt8}

/-! ## Buses -/

def busCode : DbusBus → UInt8
  | .session => 0
  | .system => 1

def busOfCode : UInt8 → Option DbusBus
  | 0 => some .session
  | 1 => some .system
  | _ => none

lemma busOfCode_eq_some {c : UInt8} {bus : DbusBus} : busOfCode c = some bus ↔ c = busCode bus := by
  cases bus <;> unfold busOfCode <;> split <;> simp_all [busCode]

/-! ## Subscriptions -/

structure DbusSubscription where
  bus : DbusBus
  sender : String
  path : String
  interface : String
  member : String
  signature : String
  argumentZero : Option String
deriving DecidableEq, Repr

namespace DbusSubscription

def magic : List UInt8 := magicOf "OMDBUSS1"

def encode (subscription : DbusSubscription) : Outcome SchemaError (List UInt8) := do
  let strings ← Encoder.strings [subscription.sender, subscription.path, subscription.interface,
    subscription.member, subscription.signature]
  let argumentZero ← Encoder.optionalString subscription.argumentZero
  Encoder.finish (magic ++ [busCode subscription.bus] ++ strings ++ argumentZero)

def decodeFields : Decoder DbusSubscription := do
  let bus ← Decoder.code busOfCode
  let sender ← Decoder.string
  let path ← Decoder.string
  let interface ← Decoder.string
  let member ← Decoder.string
  let signature ← Decoder.string
  let argumentZero ← Decoder.optionalString
  return ⟨bus, sender, path, interface, member, signature, argumentZero⟩

def decode (bytes : List UInt8) : Outcome SchemaError DbusSubscription :=
  Decoder.run decodeFields magic bytes

lemma decode_eq_ok {subscription : DbusSubscription} :
    decode bytes = ok subscription ↔ encode subscription = ok bytes := by
  obtain ⟨bus, sender, path, interface, member, signature, argumentZero⟩ := subscription
  simp [decode, decodeFields, encode, Decoder.code_eq_ok fun _ _ => busOfCode_eq_some]
  tauto

end DbusSubscription

/-! ## Changed properties -/

/-- An `f64`, as its bits. -/
structure F64 where
  bits : UInt64
deriving DecidableEq, Repr

/-- `is_finite`: the exponent is not the largest one. -/
def F64.isFinite (value : F64) : Bool := value.bits.toNat / 2 ^ 52 % 2 ^ 11 ≠ 2 ^ 11 - 1

inductive DbusValue where
  | u8 (value : UInt8)
  | bool (value : Bool)
  | i16 (value : Int16)
  | u16 (value : UInt16)
  | i32 (value : Int32)
  | u32 (value : UInt32)
  | i64 (value : Int64)
  | u64 (value : UInt64)
  | f64 (value : F64)
  | string (value : String)
deriving DecidableEq, Repr

namespace DbusValue

def encodeValue : DbusValue → Outcome SchemaError (List UInt8)
  | u8 value => ok [0, value]
  | bool value => ok [1, Encoder.flag value]
  | i16 value => ok (2 :: Encoder.i16 value)
  | u16 value => ok (3 :: Encoder.u16 value.toNat)
  | i32 value => ok (4 :: Encoder.i32 value)
  | u32 value => ok (5 :: Encoder.u32 value)
  | i64 value => ok (6 :: Encoder.i64 value)
  | u64 value => ok (7 :: Encoder.u64 value)
  | f64 value => if !value.isFinite then err .malformed else ok (8 :: Encoder.u64 value.bits)
  | string value => do
    let bytes ← Encoder.string value
    return 9 :: bytes

def decodeValue : Decoder DbusValue := do
  match ← Decoder.byte with
  | 0 => u8 <$> Decoder.byte
  | 1 => bool <$> Decoder.flag
  | 2 => i16 <$> Decoder.i16
  | 3 => u16 <$> Decoder.word
  | 4 => i32 <$> Decoder.i32
  | 5 => u32 <$> Decoder.u32
  | 6 => i64 <$> Decoder.i64
  | 7 => u64 <$> Decoder.u64
  | 8 =>
    let bits ← Decoder.u64
    if !F64.isFinite ⟨bits⟩ then Decoder.fail .malformed else return f64 ⟨bits⟩
  | 9 => string <$> Decoder.string
  | _ => Decoder.fail .malformed

/-- The values that have an encoding. -/
def Valid : DbusValue → Prop
  | f64 value => value.isFinite = true
  | string value => Text.len value ≤ maxStringBytes
  | _ => True

/-- The bytes of a value. -/
def write : DbusValue → List UInt8
  | u8 value => [0, value]
  | bool value => [1, Encoder.flag value]
  | i16 value => 2 :: Encoder.i16 value
  | u16 value => 3 :: Encoder.u16 value.toNat
  | i32 value => 4 :: Encoder.i32 value
  | u32 value => 5 :: Encoder.u32 value
  | i64 value => 6 :: Encoder.i64 value
  | u64 value => 7 :: Encoder.u64 value
  | f64 value => 8 :: Encoder.u64 value.bits
  | string value => 9 :: Encoder.text value

lemma encodeValue_eq_ok {value : DbusValue} :
    value.encodeValue = ok bytes ↔ value.Valid ∧ bytes = value.write := by
  rw [@eq_comm _ bytes]
  cases value <;> simp [encodeValue, Valid, write]

lemma decodeValue_eq_ok {value : DbusValue} :
    decodeValue input = ok (value, rest) ↔ value.Valid ∧ input = value.write ++ rest := by
  rw [decodeValue, Reader.bind_eq_ok]
  simp only [Decoder.byte_eq_ok]
  constructor
  · rintro ⟨tag, mid, rfl, h⟩
    split at h
    case h_9 =>
      simp only [Reader.bind_eq_ok, Decoder.u64_eq_ok, Decoder.fail_eq, Reader.ite_eq_ok,
        Bool.not_eq_true', Bool.not_eq_false, Reader.pure_eq_ok] at h
      obtain ⟨bits, _, rfl, hfinite, rfl, rfl⟩ := h
      exact ⟨hfinite, rfl⟩
    case h_10 =>
      simp only [Reader.map_eq_ok, Decoder.string_eq_ok] at h
      obtain ⟨text, ⟨hlen, rfl⟩, rfl⟩ := h
      exact ⟨hlen, rfl⟩
    case h_11 => cases h
    -- the other tags are followed by a word that has no invalid value
    all_goals
      simp only [Reader.map_eq_ok, Decoder.byte_eq_ok, Decoder.flag_eq_ok, Decoder.i16_eq_ok,
        Decoder.word_eq_ok, Decoder.i32_eq_ok, Decoder.u32_eq_ok, Decoder.i64_eq_ok,
        Decoder.u64_eq_ok] at h
      obtain ⟨word, rfl, rfl⟩ := h
      exact ⟨trivial, rfl⟩
  · rintro ⟨hvalid, rfl⟩
    cases value with
    | u8 value => exact ⟨0, _, rfl, by simp⟩
    | bool value => exact ⟨1, _, rfl, by simp⟩
    | i16 value => exact ⟨2, _, rfl, by simp⟩
    | u16 value => exact ⟨3, _, rfl, by simp⟩
    | i32 value => exact ⟨4, _, rfl, by simp⟩
    | u32 value => exact ⟨5, _, rfl, by simp⟩
    | i64 value => exact ⟨6, _, rfl, by simp⟩
    | u64 value => exact ⟨7, _, rfl, by simp⟩
    | f64 value =>
      have hfinite : value.isFinite = true := hvalid
      refine ⟨8, _, rfl, Reader.bind_eq_ok.mpr ⟨value.bits, rest, ?_, ?_⟩⟩
      · exact Decoder.u64_eq_ok.mpr rfl
      · simp [hfinite]
    | string value =>
      have hlen : Text.len value ≤ maxStringBytes := hvalid
      exact ⟨9, _, rfl, by simp [hlen]⟩

end DbusValue

structure DbusProperty where
  name : String
  value : DbusValue
deriving DecidableEq, Repr

namespace DbusProperty

def encode (property : DbusProperty) : Outcome SchemaError (List UInt8) := do
  let name ← Encoder.string property.name
  let value ← property.value.encodeValue
  return name ++ value

def decode : Decoder DbusProperty := do
  let name ← Decoder.string
  let value ← DbusValue.decodeValue
  return ⟨name, value⟩

/-- The properties that have an encoding. -/
def Valid (property : DbusProperty) : Prop :=
  Text.len property.name ≤ maxStringBytes ∧ property.value.Valid

/-- The bytes of a property. -/
def write (property : DbusProperty) : List UInt8 :=
  Encoder.text property.name ++ property.value.write

lemma encode_eq_ok {property : DbusProperty} :
    property.encode = ok bytes ↔ property.Valid ∧ bytes = property.write := by
  simp only [encode, Outcome.bind_eq_ok, Encoder.string_eq_ok, DbusValue.encodeValue_eq_ok,
    Outcome.pure_eq, Outcome.ok.injEq]
  constructor
  · rintro ⟨_, ⟨hname, rfl⟩, _, ⟨hvalue, rfl⟩, rfl⟩
    exact ⟨⟨hname, hvalue⟩, rfl⟩
  · rintro ⟨⟨hname, hvalue⟩, rfl⟩
    exact ⟨_, ⟨hname, rfl⟩, _, ⟨hvalue, rfl⟩, rfl⟩

lemma decode_eq_ok {property : DbusProperty} :
    decode input = ok (property, rest) ↔ property.Valid ∧ input = property.write ++ rest := by
  obtain ⟨name, value⟩ := property
  simp [decode, Valid, write, DbusValue.decodeValue_eq_ok]
  tauto

end DbusProperty

structure DbusPropertiesChanged where
  interfaceName : String
  changedProperties : List DbusProperty
  invalidatedProperties : List String
deriving DecidableEq, Repr

namespace DbusPropertiesChanged

def magic : List UInt8 := magicOf "OMDBUSE1"

def encode (event : DbusPropertiesChanged) : Outcome SchemaError (List UInt8) :=
  if maxProperties < event.changedProperties.length ||
      maxProperties < event.invalidatedProperties.length then err .limitExceeded
  else do
    let interfaceName ← Encoder.string event.interfaceName
    let changed ← writeMany DbusProperty.encode event.changedProperties
    let invalidated ← Encoder.strings event.invalidatedProperties
    Encoder.finish (magic ++ interfaceName ++ Encoder.u16 event.changedProperties.length ++
      changed ++ Encoder.u16 event.invalidatedProperties.length ++ invalidated)

def decodeFields : Decoder DbusPropertiesChanged := do
  let interfaceName ← Decoder.string
  let changedCount ← Decoder.u16
  if maxProperties < changedCount then
    Decoder.fail .limitExceeded
  else
    let changedProperties ← readMany DbusProperty.decode changedCount
    let invalidatedCount ← Decoder.u16
    if maxProperties < invalidatedCount then
      Decoder.fail .limitExceeded
    else
      let invalidatedProperties ← Decoder.strings invalidatedCount
      return ⟨interfaceName, changedProperties, invalidatedProperties⟩

def decode (bytes : List UInt8) : Outcome SchemaError DbusPropertiesChanged :=
  Decoder.run decodeFields magic bytes

lemma decode_eq_ok {event : DbusPropertiesChanged} :
    decode bytes = ok event ↔ encode event = ok bytes := by
  obtain ⟨interfaceName, changed, invalidated⟩ := event
  have hchanged : changed.length ≤ maxProperties → changed.length < 65536 :=
    fun h => lt_of_le_of_lt h (by decide)
  have hinvalidated : invalidated.length ≤ maxProperties → invalidated.length < 65536 :=
    fun h => lt_of_le_of_lt h (by decide)
  simp [decode, decodeFields, encode, Decoder.u16_eq_ok,
    readMany_eq_ok fun _ _ _ => DbusProperty.decode_eq_ok,
    writeMany_eq_ok fun _ _ => DbusProperty.encode_eq_ok]
  tauto

end DbusPropertiesChanged

/-! ## Calls and replies -/

namespace DbusCall

lemma decodeBus_eq_ok {c : UInt8} {bus : DbusBus} :
    decodeBus c input = ok (bus, rest) ↔ c = busCode bus ∧ input = rest := by
  rw [decodeBus]
  split_ifs with h₀ h₁
  · cases bus <;> simp [busCode, h₀]
  · cases bus <;> simp [busCode, h₁]
  · cases bus <;> simp [busCode, h₀, h₁, Decoder.fail]

def replyCode : DbusReplyKind → UInt8
  | .unit => 0
  | .variantString => 1
  | .variantI64 => 2

lemma decodeReply_eq_ok {c : UInt8} {reply : DbusReplyKind} :
    decodeReply c input = ok (reply, rest) ↔ c = replyCode reply ∧ input = rest := by
  rw [decodeReply]
  split_ifs with h₀ h₁ h₂
  · cases reply <;> simp [replyCode, h₀]
  · cases reply <;> simp [replyCode, h₁]
  · cases reply <;> simp [replyCode, h₂]
  · cases reply <;> simp [replyCode, h₀, h₁, h₂, Decoder.fail]

lemma encode_eq_ok {call : DbusCall} :
    encode call = ok bytes ↔
      call.arguments.length ≤ maxArguments ∧
        (∀ s ∈ [call.destination, call.path, call.interface, call.member] ++ call.arguments,
          Text.len s ≤ maxStringBytes) ∧ bytes.length ≤ maxPayloadBytes ∧
            bytes = magic ++ busCode call.bus :: (Encoder.text call.destination ++
              (Encoder.text call.path ++ (Encoder.text call.interface ++
                (Encoder.text call.member ++ replyCode call.reply ::
                  (Encoder.u16 call.arguments.length ++
                    call.arguments.flatMap Encoder.text))))) := by
  obtain ⟨bus, destination, path, interface, member, arguments, reply⟩ := call
  cases bus <;> cases reply <;> simp [encode, busCode, replyCode, and_assoc]

lemma decode_eq_ok {call : DbusCall} : decode bytes = ok call ↔ encode call = ok bytes := by
  obtain ⟨bus, destination, path, interface, member, arguments, reply⟩ := call
  have hcount : arguments.length ≤ maxArguments → arguments.length < 65536 :=
    fun h => lt_of_le_of_lt h (by decide)
  simp [decode, decodeFields, decodeArguments, encode_eq_ok, decodeBus_eq_ok, decodeReply_eq_ok,
    Decoder.u16_eq_ok]
  tauto

end DbusCall

inductive DbusReply where
  | unit
  | string (value : String)
  | i64 (value : Int64)
deriving DecidableEq, Repr

namespace DbusReply

def magic : List UInt8 := magicOf "OMDBUSR1"

def encode : DbusReply → Outcome SchemaError (List UInt8)
  | unit => Encoder.finish (magic ++ [0])
  | string value => do
    let bytes ← Encoder.string value
    Encoder.finish (magic ++ [1] ++ bytes)
  | i64 value => Encoder.finish (magic ++ [2] ++ Encoder.i64 value)

def decodeFields : Decoder DbusReply := do
  match ← Decoder.byte with
  | 0 => return unit
  | 1 => string <$> Decoder.string
  | 2 => i64 <$> Decoder.i64
  | _ => Decoder.fail .malformed

def decode (bytes : List UInt8) : Outcome SchemaError DbusReply :=
  Decoder.run decodeFields magic bytes

/-- The replies within their limits. -/
def Valid : DbusReply → Prop
  | string value => Text.len value ≤ maxStringBytes
  | _ => True

/-- The bytes of a reply after the magic number. -/
def write : DbusReply → List UInt8
  | unit => [0]
  | string value => 1 :: Encoder.text value
  | i64 value => 2 :: Encoder.i64 value

lemma encode_eq_ok {reply : DbusReply} :
    encode reply = ok bytes ↔
      reply.Valid ∧ bytes.length ≤ maxPayloadBytes ∧ bytes = magic ++ reply.write := by
  cases reply <;> simp [encode, Valid, write]

lemma decodeFields_eq_ok {reply : DbusReply} :
    decodeFields input = ok (reply, rest) ↔ reply.Valid ∧ input = reply.write ++ rest := by
  rw [decodeFields, Reader.bind_eq_ok]
  simp only [Decoder.byte_eq_ok]
  constructor
  · rintro ⟨tag, mid, rfl, h⟩
    split at h
    · obtain ⟨rfl, rfl⟩ := Reader.pure_eq_ok.mp h
      exact ⟨trivial, rfl⟩
    · simp only [Reader.map_eq_ok, Decoder.string_eq_ok] at h
      obtain ⟨text, ⟨hlen, rfl⟩, rfl⟩ := h
      exact ⟨hlen, rfl⟩
    · simp only [Reader.map_eq_ok, Decoder.i64_eq_ok] at h
      obtain ⟨number, rfl, rfl⟩ := h
      exact ⟨trivial, rfl⟩
    · cases h
  · rintro ⟨hvalid, rfl⟩
    cases reply with
    | unit => exact ⟨0, _, rfl, by simp⟩
    | string value =>
      have hlen : Text.len value ≤ maxStringBytes := hvalid
      exact ⟨1, _, rfl, by simp [hlen]⟩
    | i64 value => exact ⟨2, _, rfl, by simp⟩

lemma decode_eq_ok {reply : DbusReply} :
    decode bytes = ok reply ↔ encode reply = ok bytes := by
  simp [decode, decodeFields_eq_ok, encode_eq_ok]
  tauto

end DbusReply

end TouchBar.Schema
