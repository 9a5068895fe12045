import TouchBar.Schema.Fields

/-!
# Payloads of the desktop services

Messages about secrets, the clipboard, local sockets, notifications and URIs, and the
messages that carry nothing but a resource.  Messages of one shape share their codec.
-/

namespace TouchBar.Schema

open TouchBar.Rust TouchBar.Lib Outcome

def maxNotificationTitleBytes : ℕ := 256
def maxNotificationBodyBytes : ℕ := 4096
def maxLocalFrameBytes : ℕ := 12 * 1024
def maxSecretBytes : ℕ := 48 * 1024
def maxSecretContentTypeBytes : ℕ := 128
def maxClipboardBytes : ℕ := 48 * 1024
def maxClipboardMimeBytes : ℕ := 128

variable {bytes : List UInt8}

/-! ## Codecs of several messages -/

/-- A message with one string. -/
def encodeString (magic : List UInt8) (value : String) : Outcome SchemaError (List UInt8) := do
  let string ← Encoder.string value
  Encoder.finish (magic ++ string)

lemma decodeString_eq_ok {magic : List UInt8} {value : String} :
    Decoder.run Decoder.string magic bytes = ok value ↔ encodeString magic value = ok bytes := by
  simp [encodeString]
  tauto

/-- A message with two strings. -/
def encodeStringPair (magic : List UInt8) (first second : String) :
    Outcome SchemaError (List UInt8) := do
  let strings ← Encoder.strings [first, second]
  Encoder.finish (magic ++ strings)

/-- The fields of a message with two strings. -/
def decodeStringPair : Decoder (String × String) := do
  let first ← Decoder.string
  let second ← Decoder.string
  return (first, second)

lemma decodeStringPair_eq_ok {magic : List UInt8} {first second : String} :
    Decoder.run decodeStringPair magic bytes = ok (first, second) ↔
      encodeStringPair magic first second = ok bytes := by
  simp [decodeStringPair, encodeStringPair]
  tauto

/-- A message with the identifier of a resource, which is not zero. -/
def encodeResourceId (magic : List UInt8) (resourceId : UInt64) :
    Outcome SchemaError (List UInt8) :=
  if resourceId = 0 then err .malformed
  else Encoder.finish (magic ++ Encoder.u64 resourceId)

def decodeResourceId (magic bytes : List UInt8) : Outcome SchemaError UInt64 := do
  let resourceId ← Decoder.run Decoder.u64 magic bytes
  if resourceId = 0 then err .malformed else ok resourceId

lemma decodeResourceId_eq_ok {magic : List UInt8} {resourceId : UInt64} :
    decodeResourceId magic bytes = ok resourceId ↔
      encodeResourceId magic resourceId = ok bytes := by
  simp [decodeResourceId, encodeResourceId]
  tauto

/-- A message with a resource and a size between one and a limit. -/
def encodeOpened (magic : List UInt8) (limit : ℕ) (resourceId : UInt64) (maximum : UInt32) :
    Outcome SchemaError (List UInt8) :=
  if resourceId = 0 || maximum = 0 || limit < maximum.toNat then err .malformed
  else Encoder.finish (magic ++ Encoder.u64 resourceId ++ Encoder.u32 maximum)

/-- The fields of a message with a resource and a size. -/
def decodeOpenedFields : Decoder (UInt64 × UInt32) := do
  let resourceId ← Decoder.u64
  let maximum ← Decoder.u32
  return (resourceId, maximum)

def decodeOpened (magic : List UInt8) (limit : ℕ) (bytes : List UInt8) :
    Outcome SchemaError (UInt64 × UInt32) := do
  let (resourceId, maximum) ← Decoder.run decodeOpenedFields magic bytes
  if resourceId = 0 || maximum = 0 || limit < maximum.toNat then err .malformed
  else ok (resourceId, maximum)

lemma decodeOpened_eq_ok {magic : List UInt8} {limit : ℕ} {resourceId : UInt64}
    {maximum : UInt32} :
    decodeOpened magic limit bytes = ok (resourceId, maximum) ↔
      encodeOpened magic limit resourceId maximum = ok bytes := by
  simp [decodeOpened, decodeOpenedFields, encodeOpened]
  tauto

/-! ## Secrets -/

structure SecretReadRequest where
  logicalName : String
deriving DecidableEq, Repr

namespace SecretReadRequest

def magic : List UInt8 := magicOf "OMSECRQ1"

def encode (request : SecretReadRequest) : Outcome SchemaError (List UInt8) :=
  encodeString magic request.logicalName

def decode (bytes : List UInt8) : Outcome SchemaError SecretReadRequest :=
  mk <$> Decoder.run Decoder.string magic bytes

lemma decode_eq_ok {request : SecretReadRequest} :
    decode bytes = ok request ↔ encode request = ok bytes := by
  obtain ⟨logicalName⟩ := request
  rw [encode, ← decodeString_eq_ok]
  simp [decode]

end SecretReadRequest

structure SecretValue where
  bytes : List UInt8
  contentType : String
deriving DecidableEq, Repr

namespace SecretValue

def magic : List UInt8 := magicOf "OMSECRV1"

def encode (value : SecretValue) : Outcome SchemaError (List UInt8) :=
  if maxSecretBytes < value.bytes.length ||
      maxSecretContentTypeBytes < Text.len value.contentType then err .limitExceeded
  else do
    let blob ← Encoder.blob value.bytes
    let contentType ← Encoder.string value.contentType
    Encoder.finish (magic ++ blob ++ contentType)

def decodeFields : Decoder SecretValue := do
  let bytes ← Decoder.blob maxSecretBytes
  let contentType ← Decoder.string
  return ⟨bytes, contentType⟩

def decode (bytes : List UInt8) : Outcome SchemaError SecretValue := do
  let value ← Decoder.run decodeFields magic bytes
  if maxSecretContentTypeBytes < Text.len value.contentType then err .limitExceeded else ok value

lemma decode_eq_ok {value : SecretValue} :
    decode bytes = ok value ↔ encode value = ok bytes := by
  obtain ⟨blob, contentType⟩ := value
  have hsize : blob.length ≤ maxSecretBytes → blob.length < UInt32.size :=
    fun h => lt_of_le_of_lt h (by decide)
  have hmax : maxSecretBytes < UInt32.size := by decide
  simp [decode, decodeFields, encode, Decoder.blob_eq_ok hmax]
  tauto

end SecretValue

/-! ## The clipboard -/

structure ClipboardReadRequest where
  mimeType : String
deriving DecidableEq, Repr

namespace ClipboardReadRequest

def magic : List UInt8 := magicOf "OMCLPRQ1"

def encode (request : ClipboardReadRequest) : Outcome SchemaError (List UInt8) :=
  if maxClipboardMimeBytes < Text.len request.mimeType then err .limitExceeded
  else encodeString magic request.mimeType

def decode (bytes : List UInt8) : Outcome SchemaError ClipboardReadRequest := do
  let mimeType ← Decoder.run Decoder.string magic bytes
  if maxClipboardMimeBytes < Text.len mimeType then err .limitExceeded else ok ⟨mimeType⟩

lemma decode_eq_ok {request : ClipboardReadRequest} :
    decode bytes = ok request ↔ encode request = ok bytes := by
  obtain ⟨mimeType⟩ := request
  simp [decode, encode, encodeString]
  tauto

end ClipboardReadRequest

/-- The clipboard messages that carry data. -/
def encodeClipboard (magic : List UInt8) (mimeType : String) (data : List UInt8) :
    Outcome SchemaError (List UInt8) :=
  if maxClipboardMimeBytes < Text.len mimeType || maxClipboardBytes < data.length then
    err .limitExceeded
  else do
    let mimeType ← Encoder.string mimeType
    let blob ← Encoder.blob data
    Encoder.finish (magic ++ mimeType ++ blob)

def decodeClipboardFields : Decoder (String × List UInt8) := do
  let mimeType ← Decoder.string
  let data ← Decoder.blob maxClipboardBytes
  return (mimeType, data)

def decodeClipboard (magic bytes : List UInt8) : Outcome SchemaError (String × List UInt8) := do
  let (mimeType, data) ← Decoder.run decodeClipboardFields magic bytes
  if maxClipboardMimeBytes < Text.len mimeType then err .limitExceeded else ok (mimeType, data)

lemma decodeClipboard_eq_ok {magic : List UInt8} {mimeType : String} {data : List UInt8} :
    decodeClipboard magic bytes = ok (mimeType, data) ↔
      encodeClipboard magic mimeType data = ok bytes := by
  have hsize : data.length ≤ maxClipboardBytes → data.length < UInt32.size :=
    fun h => lt_of_le_of_lt h (by decide)
  have hmax : maxClipboardBytes < UInt32.size := by decide
  simp [decodeClipboard, decodeClipboardFields, encodeClipboard, Decoder.blob_eq_ok hmax]
  tauto

structure ClipboardWriteRequest where
  mimeType : String
  bytes : List UInt8
deriving DecidableEq, Repr

namespace ClipboardWriteRequest

def magic : List UInt8 := magicOf "OMCLPWQ1"

def encode (request : ClipboardWriteRequest) : Outcome SchemaError (List UInt8) :=
  encodeClipboard magic request.mimeType request.bytes

def decode (bytes : List UInt8) : Outcome SchemaError ClipboardWriteRequest :=
  (fun (mimeType, data) => ⟨mimeType, data⟩) <$> decodeClipboard magic bytes

lemma decode_eq_ok {request : ClipboardWriteRequest} :
    decode bytes = ok request ↔ encode request = ok bytes := by
  obtain ⟨mimeType, data⟩ := request
  rw [encode, ← decodeClipboard_eq_ok]
  simp [decode]

end ClipboardWriteRequest

structure ClipboardValue where
  mimeType : String
  bytes : List UInt8
deriving DecidableEq, Repr

namespace ClipboardValue

def magic : List UInt8 := magicOf "OMCLPVL1"

def encode (value : ClipboardValue) : Outcome SchemaError (List UInt8) :=
  encodeClipboard magic value.mimeType value.bytes

def decode (bytes : List UInt8) : Outcome SchemaError ClipboardValue :=
  (fun (mimeType, data) => ⟨mimeType, data⟩) <$> decodeClipboard magic bytes

lemma decode_eq_ok {value : ClipboardValue} :
    decode bytes = ok value ↔ encode value = ok bytes := by
  obtain ⟨mimeType, data⟩ := value
  rw [encode, ← decodeClipboard_eq_ok]
  simp [decode]

end ClipboardValue

/-! ## Local sockets -/

structure LocalConnect where
  endpoint : String
  protocol : String
deriving DecidableEq, Repr

namespace LocalConnect

def magic : List UInt8 := magicOf "OMLOCNQ1"

def encode (request : LocalConnect) : Outcome SchemaError (List UInt8) :=
  encodeStringPair magic request.endpoint request.protocol

def decode (bytes : List UInt8) : Outcome SchemaError LocalConnect :=
  (fun (endpoint, protocol) => ⟨endpoint, protocol⟩) <$> Decoder.run decodeStringPair magic bytes

lemma decode_eq_ok {request : LocalConnect} :
    decode bytes = ok request ↔ encode request = ok bytes := by
  obtain ⟨endpoint, protocol⟩ := request
  rw [encode, ← decodeStringPair_eq_ok]
  simp [decode]

end LocalConnect

structure LocalConnectionOpened where
  resourceId : UInt64
  maximumFrameBytes : UInt32
deriving DecidableEq, Repr

namespace LocalConnectionOpened

def magic : List UInt8 := magicOf "OMLOCNO1"

def encode (opened : LocalConnectionOpened) : Outcome SchemaError (List UInt8) :=
  encodeOpened magic maxLocalFrameBytes opened.resourceId opened.maximumFrameBytes

def decode (bytes : List UInt8) : Outcome SchemaError LocalConnectionOpened :=
  (fun (resourceId, maximum) => ⟨resourceId, maximum⟩) <$>
    decodeOpened magic maxLocalFrameBytes bytes

lemma decode_eq_ok {opened : LocalConnectionOpened} :
    decode bytes = ok opened ↔ encode opened = ok bytes := by
  obtain ⟨resourceId, maximum⟩ := opened
  rw [encode, ← decodeOpened_eq_ok]
  simp [decode]

end LocalConnectionOpened

structure LocalSendFrame where
  resourceId : UInt64
  bytes : List UInt8
deriving DecidableEq, Repr

namespace LocalSendFrame

def magic : List UInt8 := magicOf "OMLOCNS1"

def encode (frame : LocalSendFrame) : Outcome SchemaError (List UInt8) :=
  if frame.resourceId = 0 || frame.bytes.isEmpty then err .malformed
  else if maxLocalFrameBytes < frame.bytes.length then err .limitExceeded
  else do
    let blob ← Encoder.blob frame.bytes
    Encoder.finish (magic ++ Encoder.u64 frame.resourceId ++ blob)

def decodeFields : Decoder LocalSendFrame := do
  let resourceId ← Decoder.u64
  let bytes ← Decoder.blob maxLocalFrameBytes
  return ⟨resourceId, bytes⟩

def decode (bytes : List UInt8) : Outcome SchemaError LocalSendFrame := do
  let frame ← Decoder.run decodeFields magic bytes
  if frame.resourceId = 0 || frame.bytes.isEmpty then err .malformed else ok frame

lemma decode_eq_ok {frame : LocalSendFrame} :
    decode bytes = ok frame ↔ encode frame = ok bytes := by
  obtain ⟨resourceId, data⟩ := frame
  have hsize : data.length ≤ maxLocalFrameBytes → data.length < UInt32.size :=
    fun h => lt_of_le_of_lt h (by decide)
  have hmax : maxLocalFrameBytes < UInt32.size := by decide
  simp [decode, decodeFields, encode, Decoder.blob_eq_ok hmax]
  tauto

end LocalSendFrame

structure LocalFrameEvent where
  bytes : List UInt8
deriving DecidableEq, Repr

namespace LocalFrameEvent

def magic : List UInt8 := magicOf "OMLOCNE1"

def encode (event : LocalFrameEvent) : Outcome SchemaError (List UInt8) :=
  if event.bytes.isEmpty then err .malformed
  else if maxLocalFrameBytes < event.bytes.length then err .limitExceeded
  else do
    let blob ← Encoder.blob event.bytes
    Encoder.finish (magic ++ blob)

def decode (bytes : List UInt8) : Outcome SchemaError LocalFrameEvent := do
  let data ← Decoder.run (Decoder.blob maxLocalFrameBytes) magic bytes
  if data.isEmpty then err .malformed else ok ⟨data⟩

lemma decode_eq_ok {event : LocalFrameEvent} :
    decode bytes = ok event ↔ encode event = ok bytes := by
  obtain ⟨data⟩ := event
  have hsize : data.length ≤ maxLocalFrameBytes → data.length < UInt32.size :=
    fun h => lt_of_le_of_lt h (by decide)
  have hmax : maxLocalFrameBytes < UInt32.size := by decide
  simp [decode, encode, Decoder.blob_eq_ok hmax]
  tauto

end LocalFrameEvent

/-! ## Notifications -/

inductive NotificationUrgencyValue where
  | low
  | normal
  | critical
deriving DecidableEq, Repr

namespace NotificationUrgencyValue

def code : NotificationUrgencyValue → UInt8
  | low => 0
  | normal => 1
  | critical => 2

def ofCode : UInt8 → Option NotificationUrgencyValue
  | 0 => some low
  | 1 => some normal
  | 2 => some critical
  | _ => none

lemma ofCode_eq_some {c : UInt8} {urgency : NotificationUrgencyValue} :
    ofCode c = some urgency ↔ c = urgency.code := by
  cases urgency <;> unfold ofCode <;> split <;> simp_all [code]

end NotificationUrgencyValue

structure NotificationSend where
  id : String
  category : String
  urgency : NotificationUrgencyValue
  title : String
  body : String
deriving DecidableEq, Repr

namespace NotificationSend

def magic : List UInt8 := magicOf "OMNOTIF1"

def encode (message : NotificationSend) : Outcome SchemaError (List UInt8) :=
  if maxNotificationTitleBytes < Text.len message.title ||
      maxNotificationBodyBytes < Text.len message.body then err .limitExceeded
  else do
    let id ← Encoder.string message.id
    let category ← Encoder.string message.category
    let title ← Encoder.string message.title
    let body ← Encoder.string message.body
    Encoder.finish (magic ++ id ++ category ++ [message.urgency.code] ++ title ++ body)

def decodeFields : Decoder NotificationSend := do
  let id ← Decoder.string
  let category ← Decoder.string
  let urgency ← Decoder.code NotificationUrgencyValue.ofCode
  let title ← Decoder.string
  let body ← Decoder.string
  return ⟨id, category, urgency, title, body⟩

def decode (bytes : List UInt8) : Outcome SchemaError NotificationSend := do
  let message ← Decoder.run decodeFields magic bytes
  if maxNotificationTitleBytes < Text.len message.title ||
      maxNotificationBodyBytes < Text.len message.body then err .limitExceeded
  else ok message

lemma decode_eq_ok {message : NotificationSend} :
    decode bytes = ok message ↔ encode message = ok bytes := by
  obtain ⟨id, category, urgency, title, body⟩ := message
  simp [decode, decodeFields, encode,
    Decoder.code_eq_ok fun _ _ => NotificationUrgencyValue.ofCode_eq_some]
  tauto

end NotificationSend

structure NotificationRemove where
  id : String
deriving DecidableEq, Repr

namespace NotificationRemove

def magic : List UInt8 := magicOf "OMNOTIR1"

def encode (message : NotificationRemove) : Outcome SchemaError (List UInt8) :=
  encodeString magic message.id

def decode (bytes : List UInt8) : Outcome SchemaError NotificationRemove :=
  mk <$> Decoder.run Decoder.string magic bytes

lemma decode_eq_ok {message : NotificationRemove} :
    decode bytes = ok message ↔ encode message = ok bytes := by
  obtain ⟨id⟩ := message
  rw [encode, ← decodeString_eq_ok]
  simp [decode]

end NotificationRemove

/-! ## URIs -/

lemma UriOpenRequest.decode_eq_ok {request : UriOpenRequest} :
    decode bytes = ok request ↔ encode request = ok bytes := by
  obtain ⟨uri⟩ := request
  simp [decode, encode]
  tauto

/-! ## Messages that carry a resource -/

structure CommandOpened where
  resourceId : UInt64
deriving DecidableEq, Repr

namespace CommandOpened

def magic : List UInt8 := magicOf "OMCMDO01"

def encode (message : CommandOpened) : Outcome SchemaError (List UInt8) :=
  encodeResourceId magic message.resourceId

def decode (bytes : List UInt8) : Outcome SchemaError CommandOpened :=
  mk <$> decodeResourceId magic bytes

lemma decode_eq_ok {message : CommandOpened} :
    decode bytes = ok message ↔ encode message = ok bytes := by
  obtain ⟨resourceId⟩ := message
  rw [encode, ← decodeResourceId_eq_ok]
  simp [decode]

end CommandOpened

structure HttpStreamOpened where
  resourceId : UInt64
deriving DecidableEq, Repr

namespace HttpStreamOpened

def magic : List UInt8 := magicOf "OMHTTPO1"

def encode (message : HttpStreamOpened) : Outcome SchemaError (List UInt8) :=
  encodeResourceId magic message.resourceId

def decode (bytes : List UInt8) : Outcome SchemaError HttpStreamOpened :=
  mk <$> decodeResourceId magic bytes

lemma decode_eq_ok {message : HttpStreamOpened} :
    decode bytes = ok message ↔ encode message = ok bytes := by
  obtain ⟨resourceId⟩ := message
  rw [encode, ← decodeResourceId_eq_ok]
  simp [decode]

end HttpStreamOpened

structure FilesystemStreamOpened where
  resourceId : UInt64
deriving DecidableEq, Repr

namespace FilesystemStreamOpened

def magic : List UInt8 := magicOf "OMFSSOP1"

def encode (message : FilesystemStreamOpened) : Outcome SchemaError (List UInt8) :=
  encodeResourceId magic message.resourceId

def decode (bytes : List UInt8) : Outcome SchemaError FilesystemStreamOpened :=
  mk <$> decodeResourceId magic bytes

lemma decode_eq_ok {message : FilesystemStreamOpened} :
    decode bytes = ok message ↔ encode message = ok bytes := by
  obtain ⟨resourceId⟩ := message
  rw [encode, ← decodeResourceId_eq_ok]
  simp [decode]

end FilesystemStreamOpened

structure DbusSubscriptionOpened where
  resourceId : UInt64
deriving DecidableEq, Repr

namespace DbusSubscriptionOpened

def magic : List UInt8 := magicOf "OMDBUSO1"

def encode (message : DbusSubscriptionOpened) : Outcome SchemaError (List UInt8) :=
  encodeResourceId magic message.resourceId

def decode (bytes : List UInt8) : Outcome SchemaError DbusSubscriptionOpened :=
  mk <$> decodeResourceId magic bytes

lemma decode_eq_ok {message : DbusSubscriptionOpened} :
    decode bytes = ok message ↔ encode message = ok bytes := by
  obtain ⟨resourceId⟩ := message
  rw [encode, ← decodeResourceId_eq_ok]
  simp [decode]

end DbusSubscriptionOpened

structure FilesystemWriteStreamCommit where
  resourceId : UInt64
deriving DecidableEq, Repr

namespace FilesystemWriteStreamCommit

def magic : List UInt8 := magicOf "OMFSWSM1"

def encode (message : FilesystemWriteStreamCommit) : Outcome SchemaError (List UInt8) :=
  encodeResourceId magic message.resourceId

def decode (bytes : List UInt8) : Outcome SchemaError FilesystemWriteStreamCommit :=
  mk <$> decodeResourceId magic bytes

lemma decode_eq_ok {message : FilesystemWriteStreamCommit} :
    decode bytes = ok message ↔ encode message = ok bytes := by
  obtain ⟨resourceId⟩ := message
  rw [encode, ← decodeResourceId_eq_ok]
  simp [decode]

end FilesystemWriteStreamCommit

end TouchBar.Schema
