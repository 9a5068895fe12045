import TouchBar.Schema.Commands
import TouchBar.Schema.Context
import TouchBar.Schema.Files
import TouchBar.Schema.Signals

/-!
# All messages of the schema

The message types side by side, with the value, the encoder and the decoder of each.
Every decoder accepts exactly the payloads that its encoder writes, with one exception:
the request for facts is also accepted when its facts are out of order.
-/

namespace TouchBar.Schema

open TouchBar.Rust Outcome

/-- The types of the schema that have an encoder and a decoder. -/
inductive MessageType where
  | appearancePublish
  | contextReadRequest
  | contextSnapshot
  | contextSubscriptionOpened
  | secretReadRequest
  | clipboardReadRequest
  | clipboardWriteRequest
  | clipboardValue
  | secretValue
  | localConnect
  | localConnectionOpened
  | localSendFrame
  | localFrameEvent
  | filesystemWriteFile
  | uriOpenRequest
  | notificationSend
  | notificationRemove
  | filesystemWriteStream
  | filesystemWriteStreamOpened
  | filesystemWriteStreamChunk
  | filesystemWriteStreamCommit
  | filesystemPath
  | filesystemRename
  | filesystemMutationResult
  | commandRunRequest
  | commandOpened
  | commandEvent
  | httpRequest
  | httpResponse
  | httpStreamOpened
  | httpStreamEvent
  | filesystemReadFile
  | filesystemReadStream
  | filesystemStreamOpened
  | filesystemStreamEvent
  | filesystemFileChunk
  | filesystemListDirectory
  | filesystemDirectoryEntries
  | dbusSubscription
  | dbusSubscriptionOpened
  | dbusPropertiesChanged
  | dbusCall
  | dbusReply
deriving DecidableEq, Repr

namespace MessageType

/-- The values of a message type. -/
def Value : MessageType → Type
  | appearancePublish => AppearancePublish
  | contextReadRequest => ContextReadRequest
  | contextSnapshot => ContextSnapshot
  | contextSubscriptionOpened => ContextSubscriptionOpened
  | secretReadRequest => SecretReadRequest
  | clipboardReadRequest => ClipboardReadRequest
  | clipboardWriteRequest => ClipboardWriteRequest
  | clipboardValue => ClipboardValue
  | secretValue => SecretValue
  | localConnect => LocalConnect
  | localConnectionOpened => LocalConnectionOpened
  | localSendFrame => LocalSendFrame
  | localFrameEvent => LocalFrameEvent
  | filesystemWriteFile => FilesystemWriteFile
  | uriOpenRequest => UriOpenRequest
  | notificationSend => NotificationSend
  | notificationRemove => NotificationRemove
  | filesystemWriteStream => FilesystemWriteStream
  | filesystemWriteStreamOpened => FilesystemWriteStreamOpened
  | filesystemWriteStreamChunk => FilesystemWriteStreamChunk
  | filesystemWriteStreamCommit => FilesystemWriteStreamCommit
  | filesystemPath => FilesystemPath
  | filesystemRename => FilesystemRename
  | filesystemMutationResult => FilesystemMutationResult
  | commandRunRequest => CommandRunRequest
  | commandOpened => CommandOpened
  | commandEvent => CommandEvent
  | httpRequest => HttpRequest
  | httpResponse => HttpResponse
  | httpStreamOpened => HttpStreamOpened
  | httpStreamEvent => HttpStreamEvent
  | filesystemReadFile => FilesystemReadFile
  | filesystemReadStream => FilesystemReadStream
  | filesystemStreamOpened => FilesystemStreamOpened
  | filesystemStreamEvent => FilesystemStreamEvent
  | filesystemFileChunk => FilesystemFileChunk
  | filesystemListDirectory => FilesystemListDirectory
  | filesystemDirectoryEntries => FilesystemDirectoryEntries
  | dbusSubscription => DbusSubscription
  | dbusSubscriptionOpened => DbusSubscriptionOpened
  | dbusPropertiesChanged => DbusPropertiesChanged
  | dbusCall => DbusCall
  | dbusReply => DbusReply

def encode : (t : MessageType) → t.Value → Outcome SchemaError (List UInt8)
  | appearancePublish => AppearancePublish.encode
  | contextReadRequest => ContextReadRequest.encode
  | contextSnapshot => ContextSnapshot.encode
  | contextSubscriptionOpened => ContextSubscriptionOpened.encode
  | secretReadRequest => SecretReadRequest.encode
  | clipboardReadRequest => ClipboardReadRequest.encode
  | clipboardWriteRequest => ClipboardWriteRequest.encode
  | clipboardValue => ClipboardValue.encode
  | secretValue => SecretValue.encode
  | localConnect => LocalConnect.encode
  | localConnectionOpened => LocalConnectionOpened.encode
  | localSendFrame => LocalSendFrame.encode
  | localFrameEvent => LocalFrameEvent.encode
  | filesystemWriteFile => FilesystemWriteFile.encode
  | uriOpenRequest => UriOpenRequest.encode
  | notificationSend => NotificationSend.encode
  | notificationRemove => NotificationRemove.encode
  | filesystemWriteStream => FilesystemWriteStream.encode
  | filesystemWriteStreamOpened => FilesystemWriteStreamOpened.encode
  | filesystemWriteStreamChunk => FilesystemWriteStreamChunk.encode
  | filesystemWriteStreamCommit => FilesystemWriteStreamCommit.encode
  | filesystemPath => FilesystemPath.encode
  | filesystemRename => FilesystemRename.encode
  | filesystemMutationResult => FilesystemMutationResult.encode
  | commandRunRequest => CommandRunRequest.encode
  | commandOpened => CommandOpened.encode
  | commandEvent => CommandEvent.encode
  | httpRequest => HttpRequest.encode
  | httpResponse => HttpResponse.encode
  | httpStreamOpened => HttpStreamOpened.encode
  | httpStreamEvent => HttpStreamEvent.encode
  | filesystemReadFile => FilesystemReadFile.encode
  | filesystemReadStream => FilesystemReadStream.encode
  | filesystemStreamOpened => FilesystemStreamOpened.encode
  | filesystemStreamEvent => FilesystemStreamEvent.encode
  | filesystemFileChunk => FilesystemFileChunk.encode
  | filesystemListDirectory => FilesystemListDirectory.encode
  | filesystemDirectoryEntries => FilesystemDirectoryEntries.encode
  | dbusSubscription => DbusSubscription.encode
  | dbusSubscriptionOpened => DbusSubscriptionOpened.encode
  | dbusPropertiesChanged => DbusPropertiesChanged.encode
  | dbusCall => DbusCall.encode
  | dbusReply => DbusReply.encode

def decode : (t : MessageType) → List UInt8 → Outcome SchemaError t.Value
  | appearancePublish => AppearancePublish.decode
  | contextReadRequest => ContextReadRequest.decode
  | contextSnapshot => ContextSnapshot.decode
  | contextSubscriptionOpened => ContextSubscriptionOpened.decode
  | secretReadRequest => SecretReadRequest.decode
  | clipboardReadRequest => ClipboardReadRequest.decode
  | clipboardWriteRequest => ClipboardWriteRequest.decode
  | clipboardValue => ClipboardValue.decode
  | secretValue => SecretValue.decode
  | localConnect => LocalConnect.decode
  | localConnectionOpened => LocalConnectionOpened.decode
  | localSendFrame => LocalSendFrame.decode
  | localFrameEvent => LocalFrameEvent.decode
  | filesystemWriteFile => FilesystemWriteFile.decode
  | uriOpenRequest => UriOpenRequest.decode
  | notificationSend => NotificationSend.decode
  | notificationRemove => NotificationRemove.decode
  | filesystemWriteStream => FilesystemWriteStream.decode
  | filesystemWriteStreamOpened => FilesystemWriteStreamOpened.decode
  | filesystemWriteStreamChunk => FilesystemWriteStreamChunk.decode
  | filesystemWriteStreamCommit => FilesystemWriteStreamCommit.decode
  | filesystemPath => FilesystemPath.decode
  | filesystemRename => FilesystemRename.decode
  | filesystemMutationResult => FilesystemMutationResult.decode
  | commandRunRequest => CommandRunRequest.decode
  | commandOpened => CommandOpened.decode
  | commandEvent => CommandEvent.decode
  | httpRequest => HttpRequest.decode
  | httpResponse => HttpResponse.decode
  | httpStreamOpened => HttpStreamOpened.decode
  | httpStreamEvent => HttpStreamEvent.decode
  | filesystemReadFile => FilesystemReadFile.decode
  | filesystemReadStream => FilesystemReadStream.decode
  | filesystemStreamOpened => FilesystemStreamOpened.decode
  | filesystemStreamEvent => FilesystemStreamEvent.decode
  | filesystemFileChunk => FilesystemFileChunk.decode
  | filesystemListDirectory => FilesystemListDirectory.decode
  | filesystemDirectoryEntries => FilesystemDirectoryEntries.decode
  | dbusSubscription => DbusSubscription.decode
  | dbusSubscriptionOpened => DbusSubscriptionOpened.decode
  | dbusPropertiesChanged => DbusPropertiesChanged.decode
  | dbusCall => DbusCall.decode
  | dbusReply => DbusReply.decode

variable {t : MessageType} {bytes : List UInt8}

lemma decode_eq_ok (ht : t ≠ contextReadRequest) {value : t.Value} :
    t.decode bytes = ok value ↔ t.encode value = ok bytes := by
  cases t with
  | contextReadRequest => exact absurd rfl ht
  | appearancePublish => exact AppearancePublish.decode_eq_ok
  | contextSnapshot => exact ContextSnapshot.decode_eq_ok
  | contextSubscriptionOpened => exact ContextSubscriptionOpened.decode_eq_ok
  | secretReadRequest => exact SecretReadRequest.decode_eq_ok
  | clipboardReadRequest => exact ClipboardReadRequest.decode_eq_ok
  | clipboardWriteRequest => exact ClipboardWriteRequest.decode_eq_ok
  | clipboardValue => exact ClipboardValue.decode_eq_ok
  | secretValue => exact SecretValue.decode_eq_ok
  | localConnect => exact LocalConnect.decode_eq_ok
  | localConnectionOpened => exact LocalConnectionOpened.decode_eq_ok
  | localSendFrame => exact LocalSendFrame.decode_eq_ok
  | localFrameEvent => exact LocalFrameEvent.decode_eq_ok
  | filesystemWriteFile => exact FilesystemWriteFile.decode_eq_ok
  | uriOpenRequest => exact UriOpenRequest.decode_eq_ok
  | notificationSend => exact NotificationSend.decode_eq_ok
  | notificationRemove => exact NotificationRemove.decode_eq_ok
  | filesystemWriteStream => exact FilesystemWriteStream.decode_eq_ok
  | filesystemWriteStreamOpened => exact FilesystemWriteStreamOpened.decode_eq_ok
  | filesystemWriteStreamChunk => exact FilesystemWriteStreamChunk.decode_eq_ok
  | filesystemWriteStreamCommit => exact FilesystemWriteStreamCommit.decode_eq_ok
  | filesystemPath => exact FilesystemPath.decode_eq_ok
  | filesystemRename => exact FilesystemRename.decode_eq_ok
  | filesystemMutationResult => exact FilesystemMutationResult.decode_eq_ok
  | commandRunRequest => exact CommandRunRequest.decode_eq_ok
  | commandOpened => exact CommandOpened.decode_eq_ok
  | commandEvent => exact CommandEvent.decode_eq_ok
  | httpRequest => exact HttpRequest.decode_eq_ok
  | httpResponse => exact HttpResponse.decode_eq_ok
  | httpStreamOpened => exact HttpStreamOpened.decode_eq_ok
  | httpStreamEvent => exact HttpStreamEvent.decode_eq_ok
  | filesystemReadFile => exact FilesystemReadFile.decode_eq_ok
  | filesystemReadStream => exact FilesystemReadStream.decode_eq_ok
  | filesystemStreamOpened => exact FilesystemStreamOpened.decode_eq_ok
  | filesystemStreamEvent => exact FilesystemStreamEvent.decode_eq_ok
  | filesystemFileChunk => exact FilesystemFileChunk.decode_eq_ok
  | filesystemListDirectory => exact FilesystemListDirectory.decode_eq_ok
  | filesystemDirectoryEntries => exact FilesystemDirectoryEntries.decode_eq_ok
  | dbusSubscription => exact DbusSubscription.decode_eq_ok
  | dbusSubscriptionOpened => exact DbusSubscriptionOpened.decode_eq_ok
  | dbusPropertiesChanged => exact DbusPropertiesChanged.decode_eq_ok
  | dbusCall => exact DbusCall.decode_eq_ok
  | dbusReply => exact DbusReply.decode_eq_ok

/-- What a message is encoded to is decoded to the message. -/
theorem decode_of_encode_eq_ok (t : MessageType) (value : t.Value) (bytes : List UInt8)
    (h : t.encode value = ok bytes) : t.decode bytes = ok value := by
  by_cases ht : t = contextReadRequest
  · subst ht
    exact ContextReadRequest.decode_of_encode h
  · exact (decode_eq_ok ht).mpr h

/-- A command with one integer and one text value. -/
theorem decode_of_encode_eq_ok_command :
    decode commandRunRequest
        (magicOf "OMCMDQ01" ++ [3, 0, 114, 117, 110, 2, 0] ++
          [0, 1, 0, 110, 255, 255, 255, 255, 255, 255, 255, 255] ++ [2, 1, 0, 116, 1, 0, 120]) =
      ok (⟨"run", [.integer "n" (-1), .text "t" "x"]⟩ : CommandRunRequest) :=
  decode_of_encode_eq_ok commandRunRequest ⟨"run", [.integer "n" (-1), .text "t" "x"]⟩ _
    (by decide)

/-- A payload that is accepted is what its value is encoded to, unless it is a request for
facts whose facts are different but out of order. -/
theorem canonical_iff_facts_in_order (t : MessageType) (bytes : List UInt8) :
    (∀ value, t.decode bytes = ok value → t.encode value = ok bytes) ↔
      ¬ (t = contextReadRequest ∧
        ∃ values, ContextReadRequest.Lists bytes values ∧ ¬ values.Pairwise (· < ·)) := by
  by_cases ht : t = contextReadRequest
  · subst ht
    have h := @ContextReadRequest.canonical_iff bytes
    simp only [true_and, not_exists, not_and, not_not]
    exact h
  · simp only [ht, false_and, not_false_eq_true, iff_true]
    intro value h
    exact (decode_eq_ok ht).mp h

/-- Two facts out of order are accepted, and encoding the request puts them in order. -/
theorem facts_out_of_order_not_canonical :
    decode contextReadRequest (magicOf "OMCTXRQ1" ++ [2, 0, 1, 0, 98, 1, 0, 97]) =
        ok (⟨.ofList ["a", "b"]⟩ : ContextReadRequest) ∧
      encode contextReadRequest (⟨.ofList ["a", "b"]⟩ : ContextReadRequest) =
        ok (magicOf "OMCTXRQ1" ++ [2, 0, 1, 0, 97, 1, 0, 98]) ∧
      ¬ ∀ (t : MessageType) (bytes : List UInt8) (value : t.Value),
        t.decode bytes = ok value → t.encode value = ok bytes := by
  have hdecode : decode contextReadRequest (magicOf "OMCTXRQ1" ++ [2, 0, 1, 0, 98, 1, 0, 97]) =
      ok (⟨.ofList ["a", "b"]⟩ : ContextReadRequest) := by
    change ContextReadRequest.decode _ = ok _
    decide
  have hencode : encode contextReadRequest (⟨.ofList ["a", "b"]⟩ : ContextReadRequest) =
      ok (magicOf "OMCTXRQ1" ++ [2, 0, 1, 0, 97, 1, 0, 98]) := by
    decide
  refine ⟨hdecode, hencode, fun h => ?_⟩
  have hcanonical := h _ _ _ hdecode
  rw [hencode] at hcanonical
  exact absurd hcanonical (by decide)

end MessageType

end TouchBar.Schema
