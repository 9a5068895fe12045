import TouchBar.Schema.Fields

/-!
# Payloads about commands and HTTP

The request to run an approved command with typed arguments, the events of a running
command, and the requests, responses and stream events of the HTTP broker.
-/

namespace TouchBar.Schema

open TouchBar.Rust TouchBar.Lib Outcome

def maxCommandValues : ℕ := 32
def maxCommandOutputChunkBytes : ℕ := 12 * 1024
def maxHttpInlineBodyBytes : ℕ := 47 * 1024
def maxHttpStreamChunkBytes : ℕ := 12 * 1024

variable {input rest bytes : List UInt8}

/-! ## Running a command -/

inductive CommandValue where
  | integer (name : String) (value : Int64)
  | fixedEnum (name value : String)
  | text (name value : String)
  | approvedFile (name path : String)
  | url (name value : String)
deriving DecidableEq, Repr

namespace CommandValue

def name : CommandValue → String
  | integer name _ => name
  | fixedEnum name _ => name
  | text name _ => name
  | approvedFile name _ => name
  | url name _ => name

def encode : CommandValue → Outcome SchemaError (List UInt8)
  | integer name value => do
    let name ← Encoder.string name
    return [0] ++ name ++ Encoder.i64 value
  | fixedEnum name value => do
    let strings ← Encoder.strings [name, value]
    return [1] ++ strings
  | text name value => do
    let strings ← Encoder.strings [name, value]
    return [2] ++ strings
  | approvedFile name path => do
    let strings ← Encoder.strings [name, path]
    return [3] ++ strings
  | url name value => do
    let strings ← Encoder.strings [name, value]
    return [4] ++ strings

/-- A name and a value that are both strings. -/
def decodeStrings (make : String → String → CommandValue) : Decoder CommandValue := do
  let name ← Decoder.string
  let value ← Decoder.string
  return make name value

def decode : Decoder CommandValue := do
  match ← Decoder.byte with
  | 0 =>
    let name ← Decoder.string
    let value ← Decoder.i64
    return integer name value
  | 1 => decodeStrings fixedEnum
  | 2 => decodeStrings text
  | 3 => decodeStrings approvedFile
  | 4 => decodeStrings url
  | _ => Decoder.fail .malformed

/-- The values within their limits. -/
def Valid : CommandValue → Prop
  | integer name _ => Text.len name ≤ maxStringBytes
  | fixedEnum name value => Text.len name ≤ maxStringBytes ∧ Text.len value ≤ maxStringBytes
  | text name value => Text.len name ≤ maxStringBytes ∧ Text.len value ≤ maxStringBytes
  | approvedFile name path => Text.len name ≤ maxStringBytes ∧ Text.len path ≤ maxStringBytes
  | url name value => Text.len name ≤ maxStringBytes ∧ Text.len value ≤ maxStringBytes

/-- The bytes of a value. -/
def write : CommandValue → List UInt8
  | integer name value => 0 :: (Encoder.text name ++ Encoder.i64 value)
  | fixedEnum name value => 1 :: (Encoder.text name ++ Encoder.text value)
  | text name value => 2 :: (Encoder.text name ++ Encoder.text value)
  | approvedFile name path => 3 :: (Encoder.text name ++ Encoder.text path)
  | url name value => 4 :: (Encoder.text name ++ Encoder.text value)

lemma encode_eq_ok {value : CommandValue} :
    value.encode = ok bytes ↔ value.Valid ∧ bytes = value.write := by
  rw [@eq_comm _ bytes]
  cases value with
  | integer name value =>
    simp only [encode, Outcome.bind_eq_ok, Encoder.string_eq_ok, Outcome.pure_eq,
      Outcome.ok.injEq, Valid, write]
    constructor
    · rintro ⟨_, ⟨hlen, rfl⟩, heq⟩
      exact ⟨hlen, heq⟩
    · rintro ⟨hlen, heq⟩
      exact ⟨_, ⟨hlen, rfl⟩, heq⟩
  | fixedEnum name value => simp [encode, Valid, write, and_assoc]
  | text name value => simp [encode, Valid, write, and_assoc]
  | approvedFile name path => simp [encode, Valid, write, and_assoc]
  | url name value => simp [encode, Valid, write, and_assoc]

lemma decodeStrings_eq_ok {make : String → String → CommandValue} {value : CommandValue} :
    decodeStrings make input = ok (value, rest) ↔
      ∃ name text, Text.len name ≤ maxStringBytes ∧ Text.len text ≤ maxStringBytes ∧
        value = make name text ∧ input = Encoder.text name ++ (Encoder.text text ++ rest) := by
  simp only [decodeStrings, Reader.bind_eq_ok, Decoder.string_eq_ok, Reader.pure_eq_ok]
  constructor
  · rintro ⟨name, _, ⟨hname, rfl⟩, text, _, ⟨htext, rfl⟩, rfl, rfl⟩
    exact ⟨name, text, hname, htext, rfl, rfl⟩
  · rintro ⟨name, text, hname, htext, rfl, rfl⟩
    exact ⟨name, _, ⟨hname, rfl⟩, text, _, ⟨htext, rfl⟩, rfl, rfl⟩

lemma decode_eq_ok {value : CommandValue} :
    decode input = ok (value, rest) ↔ value.Valid ∧ input = value.write ++ rest := by
  rw [decode, Reader.bind_eq_ok]
  simp only [Decoder.byte_eq_ok]
  constructor
  · rintro ⟨tag, mid, rfl, h⟩
    split at h
    · simp only [Reader.bind_eq_ok, Decoder.string_eq_ok, Decoder.i64_eq_ok,
        Reader.pure_eq_ok] at h
      obtain ⟨name, _, ⟨hname, rfl⟩, number, _, rfl, rfl, rfl⟩ := h
      exact ⟨hname, by simp [write]⟩
    all_goals
      first
      | cases h
      | obtain ⟨name, text, hname, htext, rfl, rfl⟩ := decodeStrings_eq_ok.mp h
        exact ⟨⟨hname, htext⟩, by simp [write]⟩
  · rintro ⟨hvalid, rfl⟩
    cases value with
    | integer name value =>
      have hname : Text.len name ≤ maxStringBytes := hvalid
      exact ⟨0, _, rfl, by simp [hname]⟩
    | fixedEnum name value =>
      exact ⟨1, _, rfl, decodeStrings_eq_ok.mpr ⟨name, value, hvalid.1, hvalid.2, rfl, by simp⟩⟩
    | text name value =>
      exact ⟨2, _, rfl, decodeStrings_eq_ok.mpr ⟨name, value, hvalid.1, hvalid.2, rfl, by simp⟩⟩
    | approvedFile name path =>
      exact ⟨3, _, rfl, decodeStrings_eq_ok.mpr ⟨name, path, hvalid.1, hvalid.2, rfl, by simp⟩⟩
    | url name value =>
      exact ⟨4, _, rfl, decodeStrings_eq_ok.mpr ⟨name, value, hvalid.1, hvalid.2, rfl, by simp⟩⟩

end CommandValue

structure CommandRunRequest where
  commandId : String
  values : List CommandValue
deriving DecidableEq, Repr

namespace CommandRunRequest

def magic : List UInt8 := magicOf "OMCMDQ01"

/-- The loop over the values, with the names that came before. -/
def encodeValues : BTreeSet String → List CommandValue → Outcome SchemaError (List UInt8)
  | _, [] => ok []
  | names, value :: values =>
    if names.contains value.name then err .malformed
    else do
      let bytes ← value.encode
      let rest ← encodeValues (names.insert value.name) values
      return bytes ++ rest

def encode (request : CommandRunRequest) : Outcome SchemaError (List UInt8) :=
  if maxCommandValues < request.values.length then err .limitExceeded
  else do
    let commandId ← Encoder.string request.commandId
    let values ← encodeValues .empty request.values
    Encoder.finish (magic ++ commandId ++ Encoder.u16 request.values.length ++ values)

/-- The loop over the values; a name is looked up after its value is read. -/
def decodeValues : BTreeSet String → ℕ → Decoder (List CommandValue)
  | _, 0 => return []
  | names, count + 1 => do
    let value ← CommandValue.decode
    if names.contains value.name then
      Decoder.fail .malformed
    else
      let values ← decodeValues (names.insert value.name) count
      return value :: values

def decodeFields : Decoder CommandRunRequest := do
  let commandId ← Decoder.string
  let count ← Decoder.u16
  if maxCommandValues < count then
    Decoder.fail .limitExceeded
  else
    let values ← decodeValues .empty count
    return ⟨commandId, values⟩

def decode (bytes : List UInt8) : Outcome SchemaError CommandRunRequest :=
  Decoder.run decodeFields magic bytes

/-- The list of values that the two loops agree on. -/
def ValuesWritten : BTreeSet String → List CommandValue → List UInt8 → Prop :=
  Written (UniqueItem CommandValue.name CommandValue.Valid CommandValue.write)

lemma encodeValues_eq_ok {names : BTreeSet String} {values : List CommandValue} :
    encodeValues names values = ok bytes ↔ ValuesWritten names values bytes := by
  refine @write_loop_exact _ _ _ _ _ encodeValues (fun _ => rfl) ?_ _ _ _
  intro names value values bytes
  simp only [encodeValues, ite_err_eq_ok, Bool.not_eq_true, Outcome.bind_eq_ok,
    CommandValue.encode_eq_ok, Outcome.pure_eq, Outcome.ok.injEq]
  constructor
  · rintro ⟨hname, _, ⟨hvalid, rfl⟩, ws, hws, rfl⟩
    exact ⟨_, value.write, ws, ⟨hname, rfl, hvalid, rfl⟩, hws, rfl⟩
  · rintro ⟨_, _, ws, ⟨hname, rfl, hvalid, rfl⟩, hws, rfl⟩
    exact ⟨hname, _, ⟨hvalid, rfl⟩, ws, hws, rfl⟩

lemma decodeValues_eq_ok {names : BTreeSet String} {count : ℕ} {values : List CommandValue} :
    decodeValues names count input = ok (values, rest) ↔ values.length = count ∧
      ∃ bytes, ValuesWritten names values bytes ∧ input = bytes ++ rest := by
  refine read_loop_exact (fun _ => rfl) ?_
  intro names count input values rest
  simp only [decodeValues, Reader.bind_eq_ok, CommandValue.decode_eq_ok, Decoder.fail_eq,
    Reader.ite_eq_ok, Bool.not_eq_true, Reader.pure_eq_ok]
  constructor
  · rintro ⟨value, mid, ⟨hvalid, rfl⟩, hname, tail, _, htail, rfl, rfl⟩
    exact ⟨value, _, _, mid, tail, ⟨hname, rfl, hvalid, rfl⟩, rfl, htail, rfl⟩
  · rintro ⟨value, _, _, mid, tail, ⟨hname, rfl, hvalid, rfl⟩, rfl, htail, rfl⟩
    exact ⟨value, mid, ⟨hvalid, rfl⟩, hname, tail, rest, htail, rfl, rfl⟩

lemma decode_eq_ok {request : CommandRunRequest} :
    decode bytes = ok request ↔ encode request = ok bytes := by
  obtain ⟨commandId, values⟩ := request
  simp only [decode, Decoder.run_eq_ok, decodeFields, Reader.bind_eq_ok, Decoder.string_eq_ok,
    Decoder.u16_eq_ok, Decoder.fail_eq, Reader.ite_eq_ok, not_lt, decodeValues_eq_ok,
    Reader.pure_eq_ok, mk.injEq, encode, ite_err_eq_ok, Outcome.bind_eq_ok,
    Encoder.string_eq_ok, encodeValues_eq_ok, Encoder.finish_eq_ok]
  constructor
  · rintro ⟨hsize, _, rfl, _, _, ⟨hid, rfl⟩, count, _, ⟨-, rfl⟩, hcount, _, _,
      ⟨rfl, ws, hws, rfl⟩, ⟨rfl, rfl⟩, rfl⟩
    exact ⟨hcount, _, ⟨hid, rfl⟩, ws, hws, hsize, by simp⟩
  · rintro ⟨hcount, _, ⟨hid, rfl⟩, ws, hws, hsize, rfl⟩
    have hlt : values.length < 65536 := lt_of_le_of_lt hcount (by decide)
    exact ⟨hsize, _, by simp only [List.append_assoc], commandId, _, ⟨hid, rfl⟩, values.length,
      ws, ⟨hlt, rfl⟩, hcount, values, [], ⟨rfl, ws, hws, by simp⟩, ⟨rfl, rfl⟩, rfl⟩

end CommandRunRequest

/-! ## The events of a command -/

inductive CommandEvent where
  | stdout (bytes : List UInt8)
  | stderr (bytes : List UInt8)
  | exited (exitCode signal : Option Int32) (stdoutBytes stderrBytes : UInt64)
deriving DecidableEq, Repr

namespace CommandEvent

def magic : List UInt8 := magicOf "OMCMDE01"

/-- The output of one of the streams. -/
def encodeOutput (stream : UInt8) (bytes : List UInt8) : Outcome SchemaError (List UInt8) :=
  if bytes.isEmpty || maxCommandOutputChunkBytes < bytes.length then err .limitExceeded
  else Encoder.finish (magic ++ [stream] ++ Encoder.payload bytes)

def encode : CommandEvent → Outcome SchemaError (List UInt8)
  | stdout bytes => encodeOutput 0 bytes
  | stderr bytes => encodeOutput 1 bytes
  | exited exitCode signal stdoutBytes stderrBytes =>
    if exitCode.isSome = signal.isSome then err .malformed
    else Encoder.finish (magic ++ [2] ++ Encoder.optionalBytes Encoder.i32 exitCode ++
      Encoder.optionalBytes Encoder.i32 signal ++ Encoder.u64 stdoutBytes ++
        Encoder.u64 stderrBytes)

def decodeFields : Decoder CommandEvent := do
  match ← Decoder.byte with
  | 0 => stdout <$> Decoder.chunk maxCommandOutputChunkBytes
  | 1 => stderr <$> Decoder.chunk maxCommandOutputChunkBytes
  | 2 =>
    let exitCode ← Decoder.optional Decoder.i32
    let signal ← Decoder.optional Decoder.i32
    if exitCode.isSome = signal.isSome then
      Decoder.fail .malformed
    else
      let stdoutBytes ← Decoder.u64
      let stderrBytes ← Decoder.u64
      return exited exitCode signal stdoutBytes stderrBytes
  | _ => Decoder.fail .malformed

def decode (bytes : List UInt8) : Outcome SchemaError CommandEvent :=
  Decoder.run decodeFields magic bytes

/-- The events within their limits. -/
def Valid : CommandEvent → Prop
  | stdout bytes => bytes ≠ [] ∧ bytes.length ≤ maxCommandOutputChunkBytes
  | stderr bytes => bytes ≠ [] ∧ bytes.length ≤ maxCommandOutputChunkBytes
  | exited exitCode signal _ _ => exitCode.isSome ≠ signal.isSome

/-- The bytes of an event after the magic number. -/
def write : CommandEvent → List UInt8
  | stdout bytes => 0 :: Encoder.payload bytes
  | stderr bytes => 1 :: Encoder.payload bytes
  | exited exitCode signal stdoutBytes stderrBytes =>
    2 :: (Encoder.optionalBytes Encoder.i32 exitCode ++
      (Encoder.optionalBytes Encoder.i32 signal ++
        (Encoder.u64 stdoutBytes ++ Encoder.u64 stderrBytes)))

lemma encode_eq_ok {event : CommandEvent} :
    encode event = ok bytes ↔
      event.Valid ∧ bytes.length ≤ maxPayloadBytes ∧ bytes = magic ++ event.write := by
  cases event <;> simp [encode, encodeOutput, Valid, write]

lemma optionalI32_eq_ok {value : Option Int32} :
    Decoder.optional Decoder.i32 input = ok (value, rest) ↔
      input = Encoder.optionalBytes Encoder.i32 value ++ rest := by
  have h : ∀ input (a : Int32) rest,
      Decoder.i32 input = ok (a, rest) ↔ True ∧ input = Encoder.i32 a ++ rest := by simp
  simp [Decoder.optional_eq_ok h]

lemma decodeFields_eq_ok {event : CommandEvent} :
    decodeFields input = ok (event, rest) ↔ event.Valid ∧ input = event.write ++ rest := by
  have hmax : maxCommandOutputChunkBytes < UInt64.size := by decide
  rw [decodeFields, Reader.bind_eq_ok]
  simp only [Decoder.byte_eq_ok]
  constructor
  · rintro ⟨tag, mid, rfl, h⟩
    split at h
    · simp only [Reader.map_eq_ok, Decoder.chunk_eq_ok hmax] at h
      obtain ⟨data, ⟨hne, hlen, rfl⟩, rfl⟩ := h
      exact ⟨⟨hne, hlen⟩, rfl⟩
    · simp only [Reader.map_eq_ok, Decoder.chunk_eq_ok hmax] at h
      obtain ⟨data, ⟨hne, hlen, rfl⟩, rfl⟩ := h
      exact ⟨⟨hne, hlen⟩, rfl⟩
    · simp only [Reader.bind_eq_ok, optionalI32_eq_ok, Decoder.fail_eq, Reader.ite_eq_ok,
        Decoder.u64_eq_ok, Reader.pure_eq_ok] at h
      obtain ⟨exitCode, _, rfl, signal, _, rfl, hsome, out, _, rfl, err, _, rfl, rfl, rfl⟩ := h
      exact ⟨hsome, by simp [write]⟩
    · cases h
  · rintro ⟨hvalid, rfl⟩
    cases event with
    | stdout data => exact ⟨0, _, rfl, by simp [Decoder.chunk_eq_ok hmax, hvalid.1, hvalid.2]⟩
    | stderr data => exact ⟨1, _, rfl, by simp [Decoder.chunk_eq_ok hmax, hvalid.1, hvalid.2]⟩
    | exited exitCode signal out err =>
      have hsome : exitCode.isSome ≠ signal.isSome := hvalid
      exact ⟨2, _, rfl, by simp [optionalI32_eq_ok, hsome]⟩

lemma decode_eq_ok {event : CommandEvent} :
    decode bytes = ok event ↔ encode event = ok bytes := by
  simp [decode, decodeFields_eq_ok, encode_eq_ok]
  tauto

end CommandEvent

/-! ## HTTP -/

def httpMethodCode : HttpRequestMethod → UInt8
  | .get => 0
  | .head => 1
  | .post => 2
  | .put => 3
  | .patch => 4
  | .delete => 5

def decodeHttpMethod : UInt8 → Option HttpRequestMethod
  | 0 => some .get
  | 1 => some .head
  | 2 => some .post
  | 3 => some .put
  | 4 => some .patch
  | 5 => some .delete
  | _ => none

lemma decodeHttpMethod_eq_some {c : UInt8} {method : HttpRequestMethod} :
    decodeHttpMethod c = some method ↔ c = httpMethodCode method := by
  cases method <;> unfold decodeHttpMethod <;> split <;> simp_all [httpMethodCode]

namespace HttpRequest

def magic : List UInt8 := magicOf "OMHTTPQ1"

def encode (request : HttpRequest) : Outcome SchemaError (List UInt8) :=
  if maxHttpInlineBodyBytes < request.body.length then err .limitExceeded
  else do
    let url ← Encoder.string request.url
    let accept ← Encoder.optionalString request.accept
    let contentType ← Encoder.optionalString request.contentType
    Encoder.finish (magic ++ [httpMethodCode request.method] ++ url ++ accept ++ contentType ++
      Encoder.payload request.body)

def decodeFields : Decoder HttpRequest := do
  let method ← Decoder.code decodeHttpMethod
  let url ← Decoder.string
  let accept ← Decoder.optionalString
  let contentType ← Decoder.optionalString
  let body ← Decoder.payload maxHttpInlineBodyBytes
  return ⟨method, url, accept, contentType, body⟩

def decode (bytes : List UInt8) : Outcome SchemaError HttpRequest :=
  Decoder.run decodeFields magic bytes

lemma decode_eq_ok {request : HttpRequest} :
    decode bytes = ok request ↔ encode request = ok bytes := by
  obtain ⟨method, url, accept, contentType, body⟩ := request
  have hmax : maxHttpInlineBodyBytes < UInt64.size := by decide
  simp [decode, decodeFields, encode, Decoder.payload_eq_ok hmax,
    Decoder.code_eq_ok fun _ _ => decodeHttpMethod_eq_some]
  tauto

end HttpRequest

/-- `(100..=599).contains(&status)`. -/
def isHttpStatus (status : UInt16) : Bool := 100 ≤ status.toNat && status.toNat ≤ 599

structure HttpResponse where
  status : UInt16
  finalUrl : String
  contentType : Option String
  etag : Option String
  body : List UInt8
deriving DecidableEq, Repr

namespace HttpResponse

def magic : List UInt8 := magicOf "OMHTTPR1"

def encode (response : HttpResponse) : Outcome SchemaError (List UInt8) :=
  if !isHttpStatus response.status || maxHttpInlineBodyBytes < response.body.length then
    err .limitExceeded
  else do
    let finalUrl ← Encoder.string response.finalUrl
    let contentType ← Encoder.optionalString response.contentType
    let etag ← Encoder.optionalString response.etag
    Encoder.finish (magic ++ Encoder.u16 response.status.toNat ++ finalUrl ++ contentType ++
      etag ++ Encoder.payload response.body)

def decodeFields : Decoder HttpResponse := do
  let status ← Decoder.word
  if !isHttpStatus status then
    Decoder.fail .malformed
  else
    let finalUrl ← Decoder.string
    let contentType ← Decoder.optionalString
    let etag ← Decoder.optionalString
    let body ← Decoder.payload maxHttpInlineBodyBytes
    return ⟨status, finalUrl, contentType, etag, body⟩

def decode (bytes : List UInt8) : Outcome SchemaError HttpResponse :=
  Decoder.run decodeFields magic bytes

lemma decode_eq_ok {response : HttpResponse} :
    decode bytes = ok response ↔ encode response = ok bytes := by
  obtain ⟨status, finalUrl, contentType, etag, body⟩ := response
  have hmax : maxHttpInlineBodyBytes < UInt64.size := by decide
  simp [decode, decodeFields, encode, Decoder.payload_eq_ok hmax]
  tauto

end HttpResponse

inductive HttpStreamEvent where
  | metadata (status : UInt16) (finalUrl : String) (contentType etag : Option String)
  | chunk (bytes : List UInt8)
  | complete (totalBytes : UInt64)
deriving DecidableEq, Repr

namespace HttpStreamEvent

def magic : List UInt8 := magicOf "OMHTTPE1"

def encode : HttpStreamEvent → Outcome SchemaError (List UInt8)
  | metadata status finalUrl contentType etag =>
    if !isHttpStatus status then err .malformed
    else do
      let finalUrl ← Encoder.string finalUrl
      let contentType ← Encoder.optionalString contentType
      let etag ← Encoder.optionalString etag
      Encoder.finish (magic ++ [0] ++ Encoder.u16 status.toNat ++ finalUrl ++ contentType ++ etag)
  | chunk bytes =>
    if bytes.isEmpty || maxHttpStreamChunkBytes < bytes.length then err .limitExceeded
    else Encoder.finish (magic ++ [1] ++ Encoder.payload bytes)
  | complete totalBytes => Encoder.finish (magic ++ [2] ++ Encoder.u64 totalBytes)

def decodeFields : Decoder HttpStreamEvent := do
  match ← Decoder.byte with
  | 0 =>
    let status ← Decoder.word
    if !isHttpStatus status then
      Decoder.fail .malformed
    else
      let finalUrl ← Decoder.string
      let contentType ← Decoder.optionalString
      let etag ← Decoder.optionalString
      return metadata status finalUrl contentType etag
  | 1 => chunk <$> Decoder.chunk maxHttpStreamChunkBytes
  | 2 => complete <$> Decoder.u64
  | _ => Decoder.fail .malformed

def decode (bytes : List UInt8) : Outcome SchemaError HttpStreamEvent :=
  Decoder.run decodeFields magic bytes

/-- The events within their limits. -/
def Valid : HttpStreamEvent → Prop
  | metadata status finalUrl contentType etag =>
    isHttpStatus status = true ∧ Text.len finalUrl ≤ maxStringBytes ∧
      (∀ s ∈ contentType, Text.len s ≤ maxStringBytes) ∧ ∀ s ∈ etag, Text.len s ≤ maxStringBytes
  | chunk bytes => bytes ≠ [] ∧ bytes.length ≤ maxHttpStreamChunkBytes
  | complete _ => True

/-- The bytes of an event after the magic number. -/
def write : HttpStreamEvent → List UInt8
  | metadata status finalUrl contentType etag =>
    0 :: (Encoder.u16 status.toNat ++ (Encoder.text finalUrl ++
      (Encoder.optionalBytes Encoder.text contentType ++
        Encoder.optionalBytes Encoder.text etag)))
  | chunk bytes => 1 :: Encoder.payload bytes
  | complete totalBytes => 2 :: Encoder.u64 totalBytes

lemma encode_eq_ok {event : HttpStreamEvent} :
    encode event = ok bytes ↔
      event.Valid ∧ bytes.length ≤ maxPayloadBytes ∧ bytes = magic ++ event.write := by
  cases event with
  | metadata status finalUrl contentType etag =>
    simp [encode, Valid, write]
    tauto
  | chunk data => simp [encode, Valid, write]
  | complete totalBytes => simp [encode, Valid, write]

lemma decodeFields_eq_ok {event : HttpStreamEvent} :
    decodeFields input = ok (event, rest) ↔ event.Valid ∧ input = event.write ++ rest := by
  have hmax : maxHttpStreamChunkBytes < UInt64.size := by decide
  rw [decodeFields, Reader.bind_eq_ok]
  simp only [Decoder.byte_eq_ok]
  constructor
  · rintro ⟨tag, mid, rfl, h⟩
    split at h
    · simp only [Reader.bind_eq_ok, Decoder.word_eq_ok, Decoder.fail_eq, Reader.ite_eq_ok,
        Bool.not_eq_true', Bool.not_eq_false, Decoder.string_eq_ok, Decoder.optionalString_eq_ok,
        Reader.pure_eq_ok] at h
      obtain ⟨status, _, rfl, hstatus, finalUrl, _, ⟨hurl, rfl⟩, contentType, _, ⟨htype, rfl⟩,
        etag, _, ⟨hetag, rfl⟩, rfl, rfl⟩ := h
      exact ⟨⟨hstatus, hurl, htype, hetag⟩, by simp [write]⟩
    · simp only [Reader.map_eq_ok, Decoder.chunk_eq_ok hmax] at h
      obtain ⟨data, ⟨hne, hlen, rfl⟩, rfl⟩ := h
      exact ⟨⟨hne, hlen⟩, rfl⟩
    · simp only [Reader.map_eq_ok, Decoder.u64_eq_ok] at h
      obtain ⟨totalBytes, rfl, rfl⟩ := h
      exact ⟨trivial, rfl⟩
    · cases h
  · rintro ⟨hvalid, rfl⟩
    cases event with
    | metadata status finalUrl contentType etag =>
      obtain ⟨hstatus, hurl, htype, hetag⟩ := hvalid
      exact ⟨0, _, rfl, by simpa [hstatus, hurl] using ⟨htype, hetag⟩⟩
    | chunk data => exact ⟨1, _, rfl, by simp [Decoder.chunk_eq_ok hmax, hvalid.1, hvalid.2]⟩
    | complete totalBytes => exact ⟨2, _, rfl, by simp⟩

lemma decode_eq_ok {event : HttpStreamEvent} :
    decode bytes = ok event ↔ encode event = ok bytes := by
  simp [decode, decodeFields_eq_ok, encode_eq_ok]
  tauto

end HttpStreamEvent

end TouchBar.Schema
