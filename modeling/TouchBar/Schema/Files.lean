import TouchBar.Schema.Services

/-!
# Payloads about files

Requests and replies of the brokers that read and write files: whole files, streams
in chunks, paths and directories.
-/

namespace TouchBar.Schema

open TouchBar.Rust TouchBar.Lib Outcome

def maxFileChunkBytes : ℕ := 48 * 1024
def maxFileWriteBytes : ℕ := 48 * 1024
def maxFileWriteStreamChunkBytes : ℕ := 12 * 1024
def maxFileStreamBytes : ℕ := 64 * 1024 * 1024
def maxFileStreamChunkBytes : ℕ := 12 * 1024
def maxDirectoryEntries : ℕ := 256

variable {input rest bytes : List UInt8}

/-! ## Writing -/

structure FilesystemWriteFile where
  mount : String
  path : String
  bytes : List UInt8
deriving DecidableEq, Repr

namespace FilesystemWriteFile

def magic : List UInt8 := magicOf "OMFSWRT1"

def encode (request : FilesystemWriteFile) : Outcome SchemaError (List UInt8) :=
  if maxFileWriteBytes < request.bytes.length then err .limitExceeded
  else do
    let mount ← Encoder.string request.mount
    let path ← Encoder.string request.path
    Encoder.finish (magic ++ mount ++ path ++ Encoder.payload request.bytes)

def decodeFields : Decoder FilesystemWriteFile := do
  let mount ← Decoder.string
  let path ← Decoder.string
  let bytes ← Decoder.payload maxFileWriteBytes
  return ⟨mount, path, bytes⟩

def decode (bytes : List UInt8) : Outcome SchemaError FilesystemWriteFile :=
  Decoder.run decodeFields magic bytes

lemma decode_eq_ok {request : FilesystemWriteFile} :
    decode bytes = ok request ↔ encode request = ok bytes := by
  obtain ⟨mount, path, data⟩ := request
  have hmax : maxFileWriteBytes < UInt64.size := by decide
  simp [decode, decodeFields, encode, Decoder.payload_eq_ok hmax]
  tauto

end FilesystemWriteFile

structure FilesystemWriteStream where
  mount : String
  path : String
  expectedBytes : UInt64
deriving DecidableEq, Repr

namespace FilesystemWriteStream

def magic : List UInt8 := magicOf "OMFSWSQ1"

def encode (request : FilesystemWriteStream) : Outcome SchemaError (List UInt8) :=
  if maxFileStreamBytes < request.expectedBytes.toNat then err .limitExceeded
  else do
    let mount ← Encoder.string request.mount
    let path ← Encoder.string request.path
    Encoder.finish (magic ++ mount ++ path ++ Encoder.u64 request.expectedBytes)

def decodeFields : Decoder FilesystemWriteStream := do
  let mount ← Decoder.string
  let path ← Decoder.string
  let expectedBytes ← Decoder.u64
  return ⟨mount, path, expectedBytes⟩

def decode (bytes : List UInt8) : Outcome SchemaError FilesystemWriteStream := do
  let request ← Decoder.run decodeFields magic bytes
  if maxFileStreamBytes < request.expectedBytes.toNat then err .limitExceeded else ok request

lemma decode_eq_ok {request : FilesystemWriteStream} :
    decode bytes = ok request ↔ encode request = ok bytes := by
  obtain ⟨mount, path, expectedBytes⟩ := request
  simp [decode, decodeFields, encode]
  tauto

end FilesystemWriteStream

structure FilesystemWriteStreamOpened where
  resourceId : UInt64
  maximumChunkBytes : UInt32
deriving DecidableEq, Repr

namespace FilesystemWriteStreamOpened

def magic : List UInt8 := magicOf "OMFSWSO1"

def encode (opened : FilesystemWriteStreamOpened) : Outcome SchemaError (List UInt8) :=
  encodeOpened magic maxFileWriteStreamChunkBytes opened.resourceId opened.maximumChunkBytes

def decode (bytes : List UInt8) : Outcome SchemaError FilesystemWriteStreamOpened :=
  (fun (resourceId, maximum) => ⟨resourceId, maximum⟩) <$>
    decodeOpened magic maxFileWriteStreamChunkBytes bytes

lemma decode_eq_ok {opened : FilesystemWriteStreamOpened} :
    decode bytes = ok opened ↔ encode opened = ok bytes := by
  obtain ⟨resourceId, maximum⟩ := opened
  rw [encode, ← decodeOpened_eq_ok]
  simp [decode]

end FilesystemWriteStreamOpened

structure FilesystemWriteStreamChunk where
  resourceId : UInt64
  offset : UInt64
  bytes : List UInt8
deriving DecidableEq, Repr

namespace FilesystemWriteStreamChunk

def magic : List UInt8 := magicOf "OMFSWSC1"

/-- The length is written as a `u32` cast, after its check. -/
def encode (chunk : FilesystemWriteStreamChunk) : Outcome SchemaError (List UInt8) :=
  if chunk.resourceId = 0 || chunk.bytes.isEmpty ||
      maxFileWriteStreamChunkBytes < chunk.bytes.length then err .limitExceeded
  else Encoder.finish (magic ++ Encoder.u64 chunk.resourceId ++ Encoder.u64 chunk.offset ++
    leBytes 4 chunk.bytes.length ++ chunk.bytes)

def decodeFields : Decoder FilesystemWriteStreamChunk := do
  let resourceId ← Decoder.u64
  let offset ← Decoder.u64
  let length ← Decoder.u32
  if resourceId = 0 || length = 0 || maxFileWriteStreamChunkBytes < length.toNat then
    Decoder.fail .limitExceeded
  else
    let bytes ← Decoder.take length.toNat
    return ⟨resourceId, offset, bytes⟩

def decode (bytes : List UInt8) : Outcome SchemaError FilesystemWriteStreamChunk :=
  Decoder.run decodeFields magic bytes

lemma decodeFields_eq_ok {chunk : FilesystemWriteStreamChunk} :
    decodeFields input = ok (chunk, rest) ↔
      chunk.resourceId ≠ 0 ∧ chunk.bytes ≠ [] ∧
        chunk.bytes.length ≤ maxFileWriteStreamChunkBytes ∧
          input = Encoder.u64 chunk.resourceId ++ (Encoder.u64 chunk.offset ++
            (leBytes 4 chunk.bytes.length ++ (chunk.bytes ++ rest))) := by
  simp only [decodeFields, Reader.bind_eq_ok, Decoder.u64_eq_ok, Decoder.u32_eq_ok,
    Decoder.fail_eq, Reader.ite_eq_ok, Decoder.take_eq_ok, Reader.pure_eq_ok, Bool.or_eq_true,
    decide_eq_true_eq, not_or, not_lt]
  constructor
  · rintro ⟨id, _, rfl, offset, _, rfl, length, _, rfl, ⟨⟨hid, hzero⟩, hmax⟩, data, _,
      ⟨hlen, rfl⟩, rfl, rfl⟩
    refine ⟨hid, ?_, ?_, ?_⟩
    · rintro rfl
      exact hzero (UInt32.toNat_inj.mp hlen.symm)
    · simpa [hlen] using hmax
    · simp [Encoder.u32, hlen]
  · rintro ⟨hid, hne, hmax, rfl⟩
    have hlt : chunk.bytes.length < UInt32.size := lt_of_le_of_lt hmax (by decide)
    have hlen : (UInt32.ofNat chunk.bytes.length).toNat = chunk.bytes.length :=
      UInt32.toNat_ofNat_of_lt' hlt
    refine ⟨_, _, rfl, _, _, rfl, UInt32.ofNat chunk.bytes.length, chunk.bytes ++ rest, ?_,
      ⟨⟨hid, ?_⟩, ?_⟩, chunk.bytes, rest, ⟨hlen.symm, rfl⟩, rfl, rfl⟩
    · rw [Encoder.u32, hlen]
    · intro hzero
      rw [hzero] at hlen
      exact hne (List.length_eq_zero_iff.mp hlen.symm)
    · rwa [hlen]

lemma decode_eq_ok {chunk : FilesystemWriteStreamChunk} :
    decode bytes = ok chunk ↔ encode chunk = ok bytes := by
  simp [decode, decodeFields_eq_ok, encode]
  tauto

end FilesystemWriteStreamChunk

/-! ## Paths -/

structure FilesystemPath where
  mount : String
  path : String
deriving DecidableEq, Repr

namespace FilesystemPath

def magic : List UInt8 := magicOf "OMFSPTH1"

def encode (request : FilesystemPath) : Outcome SchemaError (List UInt8) :=
  encodeStringPair magic request.mount request.path

def decode (bytes : List UInt8) : Outcome SchemaError FilesystemPath :=
  (fun (mount, path) => ⟨mount, path⟩) <$> Decoder.run decodeStringPair magic bytes

lemma decode_eq_ok {request : FilesystemPath} :
    decode bytes = ok request ↔ encode request = ok bytes := by
  obtain ⟨mount, path⟩ := request
  rw [encode, ← decodeStringPair_eq_ok]
  simp [decode]

end FilesystemPath

structure FilesystemRename where
  mount : String
  source : String
  destination : String
deriving DecidableEq, Repr

namespace FilesystemRename

def magic : List UInt8 := magicOf "OMFSREN1"

def encode (request : FilesystemRename) : Outcome SchemaError (List UInt8) := do
  let strings ← Encoder.strings [request.mount, request.source, request.destination]
  Encoder.finish (magic ++ strings)

def decodeFields : Decoder FilesystemRename := do
  let mount ← Decoder.string
  let source ← Decoder.string
  let destination ← Decoder.string
  return ⟨mount, source, destination⟩

def decode (bytes : List UInt8) : Outcome SchemaError FilesystemRename :=
  Decoder.run decodeFields magic bytes

lemma decode_eq_ok {request : FilesystemRename} :
    decode bytes = ok request ↔ encode request = ok bytes := by
  obtain ⟨mount, source, destination⟩ := request
  simp [decode, decodeFields, encode]
  tauto

end FilesystemRename

structure FilesystemMutationResult where
  bytesWritten : UInt64
  resultingSize : Option UInt64
deriving DecidableEq, Repr

namespace FilesystemMutationResult

def magic : List UInt8 := magicOf "OMFSMUT1"

def encode (result : FilesystemMutationResult) : Outcome SchemaError (List UInt8) :=
  Encoder.finish (magic ++ Encoder.u64 result.bytesWritten ++
    Encoder.optionalBytes Encoder.u64 result.resultingSize)

def decodeFields : Decoder FilesystemMutationResult := do
  let bytesWritten ← Decoder.u64
  let resultingSize ← Decoder.optional Decoder.u64
  return ⟨bytesWritten, resultingSize⟩

def decode (bytes : List UInt8) : Outcome SchemaError FilesystemMutationResult :=
  Decoder.run decodeFields magic bytes

lemma decode_eq_ok {result : FilesystemMutationResult} :
    decode bytes = ok result ↔ encode result = ok bytes := by
  obtain ⟨bytesWritten, resultingSize⟩ := result
  have hsize : ∀ input (a : UInt64) rest,
      Decoder.u64 input = ok (a, rest) ↔ True ∧ input = Encoder.u64 a ++ rest := by simp
  simp [decode, decodeFields, encode, Decoder.optional_eq_ok hsize]

end FilesystemMutationResult

/-! ## Reading -/

/-- The requests to read a part of a file, whole or as a stream. -/
def encodeRead (magic : List UInt8) (limit : ℕ) (mount path : String)
    (offset maximumBytes : UInt64) : Outcome SchemaError (List UInt8) :=
  if maximumBytes = 0 || limit < maximumBytes.toNat then err .limitExceeded
  else do
    let mount ← Encoder.string mount
    let path ← Encoder.string path
    Encoder.finish (magic ++ mount ++ path ++ Encoder.u64 offset ++ Encoder.u64 maximumBytes)

def decodeReadFields : Decoder (String × String × UInt64 × UInt64) := do
  let mount ← Decoder.string
  let path ← Decoder.string
  let offset ← Decoder.u64
  let maximumBytes ← Decoder.u64
  return (mount, path, offset, maximumBytes)

def decodeRead (magic : List UInt8) (limit : ℕ) (bytes : List UInt8) :
    Outcome SchemaError (String × String × UInt64 × UInt64) := do
  let (mount, path, offset, maximumBytes) ← Decoder.run decodeReadFields magic bytes
  if maximumBytes = 0 || limit < maximumBytes.toNat then err .limitExceeded
  else ok (mount, path, offset, maximumBytes)

lemma decodeRead_eq_ok {magic : List UInt8} {limit : ℕ} {mount path : String}
    {offset maximumBytes : UInt64} :
    decodeRead magic limit bytes = ok (mount, path, offset, maximumBytes) ↔
      encodeRead magic limit mount path offset maximumBytes = ok bytes := by
  simp [decodeRead, decodeReadFields, encodeRead]
  tauto

structure FilesystemReadFile where
  mount : String
  path : String
  offset : UInt64
  maximumBytes : UInt64
deriving DecidableEq, Repr

namespace FilesystemReadFile

def magic : List UInt8 := magicOf "OMFSRED1"

def encode (request : FilesystemReadFile) : Outcome SchemaError (List UInt8) :=
  encodeRead magic maxFileChunkBytes request.mount request.path request.offset
    request.maximumBytes

def decode (bytes : List UInt8) : Outcome SchemaError FilesystemReadFile :=
  (fun (mount, path, offset, maximumBytes) => ⟨mount, path, offset, maximumBytes⟩) <$>
    decodeRead magic maxFileChunkBytes bytes

lemma decode_eq_ok {request : FilesystemReadFile} :
    decode bytes = ok request ↔ encode request = ok bytes := by
  obtain ⟨mount, path, offset, maximumBytes⟩ := request
  rw [encode, ← decodeRead_eq_ok]
  simp [decode]

end FilesystemReadFile

structure FilesystemReadStream where
  mount : String
  path : String
  offset : UInt64
  maximumBytes : UInt64
deriving DecidableEq, Repr

namespace FilesystemReadStream

def magic : List UInt8 := magicOf "OMFSSTQ1"

def encode (request : FilesystemReadStream) : Outcome SchemaError (List UInt8) :=
  encodeRead magic maxFileStreamBytes request.mount request.path request.offset
    request.maximumBytes

def decode (bytes : List UInt8) : Outcome SchemaError FilesystemReadStream :=
  (fun (mount, path, offset, maximumBytes) => ⟨mount, path, offset, maximumBytes⟩) <$>
    decodeRead magic maxFileStreamBytes bytes

lemma decode_eq_ok {request : FilesystemReadStream} :
    decode bytes = ok request ↔ encode request = ok bytes := by
  obtain ⟨mount, path, offset, maximumBytes⟩ := request
  rw [encode, ← decodeRead_eq_ok]
  simp [decode]

end FilesystemReadStream

structure FilesystemFileChunk where
  offset : UInt64
  totalSize : UInt64
  eof : Bool
  bytes : List UInt8
deriving DecidableEq, Repr

namespace FilesystemFileChunk

def magic : List UInt8 := magicOf "OMFSRPL1"

def encode (chunk : FilesystemFileChunk) : Outcome SchemaError (List UInt8) :=
  if maxFileChunkBytes < chunk.bytes.length then err .limitExceeded
  else Encoder.finish (magic ++ Encoder.u64 chunk.offset ++ Encoder.u64 chunk.totalSize ++
    [Encoder.flag chunk.eof] ++ Encoder.payload chunk.bytes)

def decodeFields : Decoder FilesystemFileChunk := do
  let offset ← Decoder.u64
  let totalSize ← Decoder.u64
  let eof ← Decoder.flag
  let bytes ← Decoder.payload maxFileChunkBytes
  return ⟨offset, totalSize, eof, bytes⟩

def decode (bytes : List UInt8) : Outcome SchemaError FilesystemFileChunk :=
  Decoder.run decodeFields magic bytes

lemma decode_eq_ok {chunk : FilesystemFileChunk} :
    decode bytes = ok chunk ↔ encode chunk = ok bytes := by
  obtain ⟨offset, totalSize, eof, data⟩ := chunk
  have hmax : maxFileChunkBytes < UInt64.size := by decide
  simp [decode, decodeFields, encode, Decoder.payload_eq_ok hmax, -Bool.exists_bool]
  tauto

end FilesystemFileChunk

inductive FilesystemStreamEvent where
  | metadata (offset totalSize : UInt64)
  | chunk (offset : UInt64) (bytes : List UInt8)
  | complete (endOffset totalBytes : UInt64) (eof : Bool)
deriving DecidableEq, Repr

namespace FilesystemStreamEvent

def magic : List UInt8 := magicOf "OMFSSTE1"

def encode : FilesystemStreamEvent → Outcome SchemaError (List UInt8)
  | metadata offset totalSize =>
    Encoder.finish (magic ++ [0] ++ Encoder.u64 offset ++ Encoder.u64 totalSize)
  | chunk offset bytes =>
    if bytes.isEmpty || maxFileStreamChunkBytes < bytes.length then err .limitExceeded
    else Encoder.finish (magic ++ [1] ++ Encoder.u64 offset ++ Encoder.payload bytes)
  | complete endOffset totalBytes eof =>
    Encoder.finish (magic ++ [2] ++ Encoder.u64 endOffset ++ Encoder.u64 totalBytes ++
      [Encoder.flag eof])

def decodeFields : Decoder FilesystemStreamEvent := do
  match ← Decoder.byte with
  | 0 =>
    let offset ← Decoder.u64
    let totalSize ← Decoder.u64
    return metadata offset totalSize
  | 1 =>
    let offset ← Decoder.u64
    let bytes ← Decoder.chunk maxFileStreamChunkBytes
    return chunk offset bytes
  | 2 =>
    let endOffset ← Decoder.u64
    let totalBytes ← Decoder.u64
    let eof ← Decoder.flag
    return complete endOffset totalBytes eof
  | _ => Decoder.fail .malformed

def decode (bytes : List UInt8) : Outcome SchemaError FilesystemStreamEvent :=
  Decoder.run decodeFields magic bytes

/-- The events within their limits. -/
def Valid : FilesystemStreamEvent → Prop
  | chunk _ bytes => bytes ≠ [] ∧ bytes.length ≤ maxFileStreamChunkBytes
  | _ => True

/-- The bytes of an event after the magic number. -/
def write : FilesystemStreamEvent → List UInt8
  | metadata offset totalSize => 0 :: (Encoder.u64 offset ++ Encoder.u64 totalSize)
  | chunk offset bytes => 1 :: (Encoder.u64 offset ++ Encoder.payload bytes)
  | complete endOffset totalBytes eof =>
    2 :: (Encoder.u64 endOffset ++ (Encoder.u64 totalBytes ++ [Encoder.flag eof]))

lemma encode_eq_ok {event : FilesystemStreamEvent} :
    encode event = ok bytes ↔
      event.Valid ∧ bytes.length ≤ maxPayloadBytes ∧ bytes = magic ++ event.write := by
  cases event <;> simp [encode, Valid, write]

lemma decodeFields_eq_ok {event : FilesystemStreamEvent} :
    decodeFields input = ok (event, rest) ↔ event.Valid ∧ input = event.write ++ rest := by
  have hmax : maxFileStreamChunkBytes < UInt64.size := by decide
  rw [decodeFields, Reader.bind_eq_ok]
  simp only [Decoder.byte_eq_ok]
  constructor
  · rintro ⟨tag, mid, rfl, h⟩
    split at h
    · simp only [Reader.bind_eq_ok, Decoder.u64_eq_ok, Reader.pure_eq_ok] at h
      obtain ⟨offset, _, rfl, totalSize, _, rfl, rfl, rfl⟩ := h
      exact ⟨trivial, by simp [write]⟩
    · simp only [Reader.bind_eq_ok, Decoder.u64_eq_ok, Decoder.chunk_eq_ok hmax,
        Reader.pure_eq_ok] at h
      obtain ⟨offset, _, rfl, data, _, ⟨hne, hlen, rfl⟩, rfl, rfl⟩ := h
      exact ⟨⟨hne, hlen⟩, by simp [write]⟩
    · simp only [Reader.bind_eq_ok, Decoder.u64_eq_ok, Decoder.flag_eq_ok,
        Reader.pure_eq_ok] at h
      obtain ⟨endOffset, _, rfl, totalBytes, _, rfl, eof, _, rfl, rfl, rfl⟩ := h
      exact ⟨trivial, by simp [write]⟩
    · cases h
  · rintro ⟨hvalid, rfl⟩
    cases event with
    | metadata offset totalSize => exact ⟨0, _, rfl, by simp⟩
    | chunk offset data =>
      exact ⟨1, _, rfl, by simp [Decoder.chunk_eq_ok hmax, hvalid.1, hvalid.2]⟩
    | complete endOffset totalBytes eof => exact ⟨2, _, rfl, by simp [-Bool.exists_bool]⟩

lemma decode_eq_ok {event : FilesystemStreamEvent} :
    decode bytes = ok event ↔ encode event = ok bytes := by
  simp [decode, decodeFields_eq_ok, encode_eq_ok]
  tauto

end FilesystemStreamEvent

/-! ## Directories -/

structure FilesystemListDirectory where
  mount : String
  path : String
  maximumEntries : UInt16
deriving DecidableEq, Repr

namespace FilesystemListDirectory

def magic : List UInt8 := magicOf "OMFSLST1"

def encode (request : FilesystemListDirectory) : Outcome SchemaError (List UInt8) :=
  if request.maximumEntries = 0 || maxDirectoryEntries < request.maximumEntries.toNat then
    err .limitExceeded
  else do
    let mount ← Encoder.string request.mount
    let path ← Encoder.string request.path
    Encoder.finish (magic ++ mount ++ path ++ Encoder.u16 request.maximumEntries.toNat)

def decodeFields : Decoder FilesystemListDirectory := do
  let mount ← Decoder.string
  let path ← Decoder.string
  let maximumEntries ← Decoder.word
  return ⟨mount, path, maximumEntries⟩

def decode (bytes : List UInt8) : Outcome SchemaError FilesystemListDirectory := do
  let request ← Decoder.run decodeFields magic bytes
  if request.maximumEntries = 0 || maxDirectoryEntries < request.maximumEntries.toNat then
    err .limitExceeded
  else ok request

lemma decode_eq_ok {request : FilesystemListDirectory} :
    decode bytes = ok request ↔ encode request = ok bytes := by
  obtain ⟨mount, path, maximumEntries⟩ := request
  simp [decode, decodeFields, encode]
  tauto

end FilesystemListDirectory

inductive FilesystemEntryKind where
  | regularFile
  | directory
deriving DecidableEq, Repr

namespace FilesystemEntryKind

def code : FilesystemEntryKind → UInt8
  | regularFile => 0
  | directory => 1

def ofCode : UInt8 → Option FilesystemEntryKind
  | 0 => some regularFile
  | 1 => some directory
  | _ => none

lemma ofCode_eq_some {c : UInt8} {kind : FilesystemEntryKind} :
    ofCode c = some kind ↔ c = kind.code := by
  cases kind <;> unfold ofCode <;> split <;> simp_all [code]

end FilesystemEntryKind

structure FilesystemEntry where
  name : String
  kind : FilesystemEntryKind
  size : UInt64
deriving DecidableEq, Repr

namespace FilesystemEntry

def encode (entry : FilesystemEntry) : Outcome SchemaError (List UInt8) := do
  let name ← Encoder.string entry.name
  return name ++ [entry.kind.code] ++ Encoder.u64 entry.size

def decode : Decoder FilesystemEntry := do
  let name ← Decoder.string
  let kind ← Decoder.code FilesystemEntryKind.ofCode
  let size ← Decoder.u64
  return ⟨name, kind, size⟩

/-- The bytes of an entry. -/
def write (entry : FilesystemEntry) : List UInt8 :=
  Encoder.text entry.name ++ entry.kind.code :: Encoder.u64 entry.size

lemma encode_eq_ok {entry : FilesystemEntry} :
    entry.encode = ok bytes ↔ Text.len entry.name ≤ maxStringBytes ∧ bytes = entry.write := by
  simp only [encode, Outcome.bind_eq_ok, Encoder.string_eq_ok, Outcome.pure_eq, Outcome.ok.injEq]
  constructor
  · rintro ⟨_, ⟨hlen, rfl⟩, rfl⟩
    exact ⟨hlen, by simp [write]⟩
  · rintro ⟨hlen, rfl⟩
    exact ⟨_, ⟨hlen, rfl⟩, by simp [write]⟩

lemma decode_eq_ok {entry : FilesystemEntry} :
    decode input = ok (entry, rest) ↔
      Text.len entry.name ≤ maxStringBytes ∧ input = entry.write ++ rest := by
  obtain ⟨name, kind, size⟩ := entry
  simp [decode, write, Decoder.code_eq_ok fun _ _ => FilesystemEntryKind.ofCode_eq_some]

end FilesystemEntry

structure FilesystemDirectoryEntries where
  entries : List FilesystemEntry
  truncated : Bool
deriving DecidableEq, Repr

namespace FilesystemDirectoryEntries

def magic : List UInt8 := magicOf "OMFSDIR1"

def encode (reply : FilesystemDirectoryEntries) : Outcome SchemaError (List UInt8) :=
  if maxDirectoryEntries < reply.entries.length then err .limitExceeded
  else do
    let entries ← writeMany FilesystemEntry.encode reply.entries
    Encoder.finish (magic ++ [Encoder.flag reply.truncated] ++
      Encoder.u16 reply.entries.length ++ entries)

def decodeFields : Decoder FilesystemDirectoryEntries := do
  let truncated ← Decoder.flag
  let count ← Decoder.u16
  if maxDirectoryEntries < count then
    Decoder.fail .limitExceeded
  else
    let entries ← readMany FilesystemEntry.decode count
    return ⟨entries, truncated⟩

def decode (bytes : List UInt8) : Outcome SchemaError FilesystemDirectoryEntries :=
  Decoder.run decodeFields magic bytes

lemma encode_eq_ok {reply : FilesystemDirectoryEntries} :
    encode reply = ok bytes ↔
      reply.entries.length ≤ maxDirectoryEntries ∧
        (∀ entry ∈ reply.entries, Text.len entry.name ≤ maxStringBytes) ∧
          bytes.length ≤ maxPayloadBytes ∧
            bytes = magic ++ (Encoder.flag reply.truncated :: (Encoder.u16 reply.entries.length ++
              reply.entries.flatMap FilesystemEntry.write)) := by
  simp [encode, writeMany_eq_ok fun _ _ => FilesystemEntry.encode_eq_ok]

lemma decode_eq_ok {reply : FilesystemDirectoryEntries} :
    decode bytes = ok reply ↔ encode reply = ok bytes := by
  obtain ⟨entries, truncated⟩ := reply
  have hcount : entries.length ≤ maxDirectoryEntries → entries.length < 65536 :=
    fun h => lt_of_le_of_lt h (by decide)
  simp [decode, decodeFields, encode_eq_ok, Decoder.u16_eq_ok, -Bool.exists_bool,
    readMany_eq_ok fun _ _ _ => FilesystemEntry.decode_eq_ok]
  tauto

end FilesystemDirectoryEntries

end TouchBar.Schema
