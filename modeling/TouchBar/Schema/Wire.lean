import TouchBar.Rust.Outcome
import TouchBar.Rust.Text

/-!
# Payloads of broker requests

A payload is a magic number and fields without padding: bytes, little-endian
numbers, and strings with a 16-bit length.  A decoder reads the fields from the
front of the bytes that remain; an encoder appends them.
-/

namespace TouchBar.Schema

open TouchBar.Rust Outcome

inductive SchemaError where
  | malformed
  | limitExceeded
deriving DecidableEq, Repr

def maxPayloadBytes : ℕ := 64 * 1024
def maxStringBytes : ℕ := 4096
def maxArguments : ℕ := 32
def maxUriBytes : ℕ := 4096

/-- The bytes of an ASCII text. -/
def magicOf (text : String) : List UInt8 := text.toList.map fun c => c.toNat.toUInt8

/-! ## Decoding -/

/-- A step of a `Decoder`: a value and the bytes that remain. -/
abbrev Decoder (α : Type) : Type := StateT (List UInt8) (Outcome SchemaError) α

namespace Decoder

/-- `take` and `array`. -/
def take (length : ℕ) : Decoder (List UInt8) := fun remaining =>
  if length ≤ remaining.length then ok (remaining.take length, remaining.drop length)
  else err .malformed

def byte : Decoder UInt8 := fun remaining =>
  match remaining with
  | value :: remaining => ok (value, remaining)
  | [] => err .malformed

def fail {α : Type} (e : SchemaError) : Decoder α := fun _ => err e

/-- `from_le_bytes`. -/
def fromLeBytes (bytes : List UInt8) : ℕ := bytes.foldr (fun b n => b.toNat + 256 * n) 0

def u16 : Decoder ℕ := fromLeBytes <$> take 2

def string : Decoder String := do
  let length ← u16
  if maxStringBytes < length then
    fail .limitExceeded
  else
    let value ← take length
    match String.fromUTF8? ⟨value.toArray⟩ with
    | some text => return text
    | none => fail .malformed

/-- A loop that reads a number of strings. -/
def strings : ℕ → Decoder (List String)
  | 0 => return []
  | count + 1 => do
    let value ← string
    let values ← strings count
    return value :: values

/-- Check the magic number, run the decoder on the rest, and check that it reads all of it. -/
def run {α : Type} (decoder : Decoder α) (magic bytes : List UInt8) : Outcome SchemaError α :=
  if maxPayloadBytes < bytes.length then err .limitExceeded
  else if !magic.isPrefixOf bytes then err .malformed
  else do
    let (value, remaining) ← decoder (bytes.drop magic.length)
    if remaining.isEmpty then ok value else err .malformed

end Decoder

/-! ## Encoding -/

namespace Encoder

/-- `to_le_bytes` of a `u16`. -/
def u16 (value : ℕ) : List UInt8 := [value.toUInt8, (value / 256).toUInt8]

def string (value : String) : Outcome SchemaError (List UInt8) :=
  if maxStringBytes < Text.len value then err .limitExceeded
  else ok (u16 (Text.len value) ++ value.toUTF8.data.toList)

def strings : List String → Outcome SchemaError (List UInt8)
  | [] => ok []
  | value :: values => do
    let bytes ← string value
    let rest ← strings values
    return bytes ++ rest

def finish (bytes : List UInt8) : Outcome SchemaError (List UInt8) :=
  if maxPayloadBytes < bytes.length then err .limitExceeded else ok bytes

end Encoder

/-! ## Opening a URI -/

structure UriOpenRequest where
  uri : String
deriving DecidableEq, Repr

namespace UriOpenRequest

def magic : List UInt8 := magicOf "OMURIOP1"

def encode (request : UriOpenRequest) : Outcome SchemaError (List UInt8) :=
  if maxUriBytes < Text.len request.uri then err .limitExceeded
  else do
    let uri ← Encoder.string request.uri
    Encoder.finish (magic ++ uri)

def decode (bytes : List UInt8) : Outcome SchemaError UriOpenRequest := do
  let uri ← Decoder.run Decoder.string magic bytes
  if maxUriBytes < Text.len uri then err .limitExceeded else ok ⟨uri⟩

end UriOpenRequest

/-! ## Calling a D-Bus method -/

inductive DbusBus where
  | session
  | system
deriving DecidableEq, Repr

inductive DbusReplyKind where
  | unit
  | variantString
  | variantI64
deriving DecidableEq, Repr

structure DbusCall where
  bus : DbusBus
  destination : String
  path : String
  interface : String
  member : String
  arguments : List String
  reply : DbusReplyKind
deriving DecidableEq, Repr

namespace DbusCall

def magic : List UInt8 := magicOf "OMDBUSC1"

/-- All arguments are strings. -/
def signature (call : DbusCall) : String := .ofList (List.replicate call.arguments.length 's')

def encode (call : DbusCall) : Outcome SchemaError (List UInt8) :=
  if maxArguments < call.arguments.length then err .limitExceeded
  else do
    let bus : UInt8 :=
      match call.bus with
      | .session => 0
      | .system => 1
    let names ← Encoder.strings [call.destination, call.path, call.interface, call.member]
    let reply : UInt8 :=
      match call.reply with
      | .unit => 0
      | .variantString => 1
      | .variantI64 => 2
    let arguments ← Encoder.strings call.arguments
    Encoder.finish (magic ++ [bus] ++ names ++ [reply] ++
      Encoder.u16 call.arguments.length ++ arguments)

def decodeBus (code : UInt8) : Decoder DbusBus :=
  if code = 0 then return .session
  else if code = 1 then return .system
  else Decoder.fail .malformed

def decodeReply (code : UInt8) : Decoder DbusReplyKind :=
  if code = 0 then return .unit
  else if code = 1 then return .variantString
  else if code = 2 then return .variantI64
  else Decoder.fail .malformed

def decodeArguments (count : ℕ) : Decoder (List String) :=
  if maxArguments < count then Decoder.fail .limitExceeded else Decoder.strings count

/-- The fields after the magic number. -/
def decodeFields : Decoder DbusCall := do
  let bus ← decodeBus (← Decoder.byte)
  let destination ← Decoder.string
  let path ← Decoder.string
  let interface ← Decoder.string
  let member ← Decoder.string
  let reply ← decodeReply (← Decoder.byte)
  let arguments ← decodeArguments (← Decoder.u16)
  return ⟨bus, destination, path, interface, member, arguments, reply⟩

def decode (bytes : List UInt8) : Outcome SchemaError DbusCall :=
  Decoder.run decodeFields magic bytes

end DbusCall

/-! ## HTTP requests -/

inductive HttpRequestMethod where
  | get
  | head
  | post
  | put
  | patch
  | delete
deriving DecidableEq, Repr

structure HttpRequest where
  method : HttpRequestMethod
  url : String
  accept : Option String
  contentType : Option String
  body : List UInt8
deriving DecidableEq, Repr

end TouchBar.Schema
